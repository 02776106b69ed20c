import SinterDb.Server.Session
import SinterDb.Wal.Barrier

namespace SinterDb

open Wal

/-!
# Sessions that share a log

A `SinterServer` with a data directory and the `flushed` write concern: its
sessions hold their replies until the `GroupCommitter` has flushed the log of
the engine.  The event loop takes one step at a time.  What a command does to
the log, and what its dispatcher answers, is chosen by the step; so is what a
background checkpoint or a timer does to the log.
-/

/-- `GroupCommitter`; a callback is known by the session that has added it. -/
structure GroupCommitter where
  waiting : List Nat := []
  scheduled : Bool := false
  deriving Repr, DecidableEq

/-- `whenDurable`. -/
def GroupCommitter.whenDurable
    (committer : GroupCommitter)
    (session : Nat) : GroupCommitter :=
  { waiting := committer.waiting ++ [session], scheduled := true }

/-- What has happened on a server; a stream that could not be decoded counts as
a request with the number zero. -/
inductive ServerEvent where
  | log (event : LogEvent)
  | asked (session requestId : Nat)
  | made (session : Nat) (answer : Answer)
  | sent (session : Nat) (answer : Answer)
  | failed (session : Nat)
  | flushFailed

namespace ServerEvent

/-- What has happened to the log. -/
def log? : ServerEvent → Option LogEvent
  | .log event => some event
  | _ => none

/-- The number of a request of one session. -/
def asked? (session : Nat) : ServerEvent → Option Nat
  | .asked other requestId => if other = session then some requestId else none
  | _ => none

/-- An answer that one session has made. -/
def made? (session : Nat) : ServerEvent → Option Answer
  | .made other answer => if other = session then some answer else none
  | _ => none

/-- An answer that one session has written to its socket. -/
def sent? (session : Nat) : ServerEvent → Option Answer
  | .sent other answer => if other = session then some answer else none
  | _ => none

end ServerEvent

/-- The event of a session, as one of its server. -/
def SessionEvent.ofSession
    (session : Nat) : SessionEvent → Option ServerEvent
  | .made answer => some (.made session answer)
  | .sent answer => some (.sent session answer)
  | .failed => some (.failed session)
  | .waits => none

/-- What a command does: its calls of the log, and what is answered. -/
structure Work where
  calls : List LogCall
  reply : Reply

/-- `SinterServer`; an error that nobody listens to ends the process, and so
does whatever a session throws. -/
structure SinterServer where
  hasErrorListener : Bool
  log : WriteAheadLog
  sessions : List Session := []
  committer : GroupCommitter := {}
  crashed : Bool := false
  trace : List ServerEvent := []

namespace SinterServer

/-- What has happened to the log of a server. -/
def logEvents (trace : List ServerEvent) : List LogEvent :=
  trace.filterMap ServerEvent.log?

/-- `hasPending`. -/
def hasPending (server : SinterServer) : Bool :=
  server.log.unsynced

/-- Calls of the log. -/
def engineCalls
    (server : SinterServer)
    (calls : List LogCall) : SinterServer :=
  { server with
    log := server.log.calls calls
    trace := server.trace ++ (server.log.eventsOf calls).map .log }

/-- A session that has taken a step, and what it did. -/
def settle
    (server : SinterServer)
    (index : Nat)
    (session : Session)
    (events : List SessionEvent) : SinterServer :=
  { server with
    sessions := server.sessions.set index session
    committer :=
      if events.any SessionEvent.isWaits then
        server.committer.whenDurable index
      else
        server.committer
    crashed :=
      server.crashed ||
        (events.any SessionEvent.isFailed && !server.hasErrorListener)
    trace := server.trace ++ events.filterMap (SessionEvent.ofSession index) }

/-- A session takes a request. -/
def ask (server : SinterServer) (index requestId : Nat) : SinterServer :=
  { server with trace := server.trace ++ [.asked index requestId] }

/-- A session that answers a request; what it throws ends the process. -/
def answer
    (server : SinterServer)
    (index : Nat)
    (step : Session.Step) : SinterServer :=
  match step with
  | .error _ => { server with crashed := true }
  | .ok (session, events) => server.settle index session events

/-- `handleMessage` in the loop of `handleData`. -/
def handleMessage
    (server : SinterServer)
    (index : Nat)
    (message : DecodedMessage)
    (receivedAt : TimeValue)
    (work : Work) : SinterServer :=
  match server.sessions[index]? with
  | none => server
  | some session =>
      if server.crashed || !session.canReceiveMessages then
        server
      else
        let server := server.ask index message.requestId
        let server :=
          if session.dispatches message then
            server.engineCalls work.calls
          else
            server
        server.answer index
          (session.handleMessage message receivedAt work.reply
            server.hasPending)

/-- The loop of `handleData`. -/
def handleMessages
    (server : SinterServer)
    (index : Nat)
    (receivedAt : TimeValue) :
    List (DecodedMessage × Work) → SinterServer
  | [] => server
  | (message, work) :: rest =>
      (server.handleMessage index message receivedAt work).handleMessages
        index receivedAt rest

/-- `handleData`; the works are those of the messages of the chunk. -/
def handleData
    (server : SinterServer)
    (index : Nat)
    (chunk : Bytes)
    (receivedAt : TimeValue)
    (work : Nat → Work) : SinterServer :=
  match server.sessions[index]? with
  | none => server
  | some session =>
      if server.crashed || !session.canReceiveMessages then
        server
      else
        let (decoder, received) := session.decoder.push chunk
        let session := { session with decoder := decoder }
        let server :=
          { server with sessions := server.sessions.set index session }
        match received with
        | .error error =>
            (server.ask index 0).answer index
              (session.handleProtocolFailure error)
        | .ok messages =>
            server.handleMessages index receivedAt
              (messages.mapIdx fun place message => (message, work place))

/-- The callback of a session in `run`. -/
def release
    (server : SinterServer)
    (failed : Bool)
    (index : Nat) : SinterServer :=
  match server.sessions[index]? with
  | none => server
  | some session =>
      if server.crashed then
        server
      else
        let (session, events) := session.release failed
        server.settle index session events

/-- `run`. -/
def run (server : SinterServer) : SinterServer :=
  if server.crashed || !server.committer.scheduled then
    server
  else
    let callbacks := server.committer.waiting
    let (log, result) := server.log.commit
    let failed := !result.isOk
    let flushed :=
      { server with
        log := log
        committer := {}
        trace :=
          server.trace ++ server.log.commitEvents.map .log ++
            if failed then [.flushFailed] else [] }
    callbacks.foldl (fun server index => server.release failed index) flushed

/-- A change of one session that only concerns its connection. -/
def changeSession
    (server : SinterServer)
    (index : Nat)
    (change : Session → Session) : SinterServer :=
  { server with sessions := server.sessions.modify index change }

/-- A turn of the event loop. -/
inductive Turn where
  | connection
  | data
      (index : Nat)
      (chunk : Bytes)
      (receivedAt : TimeValue)
      (work : Nat → Work)
  | immediate
  | background (calls : List LogCall)
  | socketEnds (index : Nat)
  | socketFails (index : Nat)
  | socketCloses (index : Nat)

/-- The server after a turn; a process that has ended takes none. -/
def turn (server : SinterServer) : Turn → SinterServer
  | .connection =>
      if server.crashed then
        server
      else
        { server with
          sessions :=
            server.sessions ++ [{ onErrorReturns := server.hasErrorListener }] }
  | .data index chunk receivedAt work =>
      server.handleData index chunk receivedAt work
  | .immediate => server.run
  | .background calls =>
      if server.crashed then server else server.engineCalls calls
  | .socketEnds index =>
      server.changeSession index fun session => { session with ended := true }
  | .socketFails index =>
      server.changeSession index fun session =>
        { session with destroyed := true }
  | .socketCloses index =>
      server.changeSession index Session.socketClosed

/-- The servers that turns lead to, over a log that was opened with group
commit. -/
inductive Reaches : SinterServer → Prop where
  | start
      {hasErrorListener : Bool}
      {segmentSizeBytes : Option Nat}
      {files : List SegmentFile}
      {outcomes : List IoOutcome}
      {log : WriteAheadLog}
      (opens :
        WriteAheadLog.openLog
            ⟨some .flushed, some true, segmentSizeBytes⟩ files outcomes =
          .ok log) :
      Reaches { hasErrorListener := hasErrorListener, log := log }
  | turn
      {server : SinterServer}
      (reaches : Reaches server)
      (turn : Turn) :
      Reaches (server.turn turn)

end SinterServer

end SinterDb
