import SinterDb.Server.SessionAnswers

namespace SinterDb

open Wal Unicode

/-!
# Replies wait for the log

No reply to a command is written before every record of the log was flushed,
and none is written behind a flush that has failed.  Every session answers its
requests in order, and no reply is held without a flush that is scheduled.
-/

namespace SinterServer

variable
  {server : SinterServer}
  {index : Nat}

section Projections

/-- The answers of a session. -/
def madeBy (server : SinterServer) (index : Nat) : List Answer :=
  server.trace.filterMap (ServerEvent.made? index)

/-- The answers that a session has written to its socket. -/
def sentBy (server : SinterServer) (index : Nat) : List Answer :=
  server.trace.filterMap (ServerEvent.sent? index)

/-- The numbers of the requests of a session. -/
def askedBy (server : SinterServer) (index : Nat) : List Nat :=
  server.trace.filterMap (ServerEvent.asked? index)

/-- What a session does is seen in a trace as far as it concerns it. -/
theorem filterMap_ofSession
    {κ : Type}
    {seen : ServerEvent → Option κ}
    {own : SessionEvent → Option κ}
    (same :
      ∀ event, (event.ofSession index).bind seen = own event)
    (events : List SessionEvent) :
    (events.filterMap (SessionEvent.ofSession index)).filterMap seen =
      events.filterMap own := by
  rw [List.filterMap_filterMap]
  exact List.filterMap_congr fun event _ => same event

/-- A session does nothing to the log. -/
theorem logEvents_ofSession
    (events : List SessionEvent) :
    logEvents (events.filterMap (SessionEvent.ofSession index)) = [] := by
  unfold logEvents
  rw [@filterMap_ofSession index LogEvent ServerEvent.log?
    (fun _ => none) (fun event => by cases event <;> rfl)]
  exact List.filterMap_none events

/-- The answers that a step of a session adds to those of another one. -/
theorem made_ofSession
    (other : Nat)
    (events : List SessionEvent) :
    (events.filterMap (SessionEvent.ofSession index)).filterMap
        (ServerEvent.made? other) =
      if index = other then events.filterMap SessionEvent.made? else [] := by
  by_cases same : index = other
  · rw [if_pos same]
    exact filterMap_ofSession
      (fun event => by
        cases event <;>
          simp [SessionEvent.ofSession, ServerEvent.made?,
            SessionEvent.made?, same]) events
  · rw [if_neg same, @filterMap_ofSession index Answer _ (fun _ => none)
      (fun event => by
        cases event <;>
          simp [SessionEvent.ofSession, ServerEvent.made?, same])]
    exact List.filterMap_none events

/-- The written answers that a step of a session adds to those of another
one. -/
theorem sent_ofSession
    (other : Nat)
    (events : List SessionEvent) :
    (events.filterMap (SessionEvent.ofSession index)).filterMap
        (ServerEvent.sent? other) =
      if index = other then events.filterMap SessionEvent.sent? else [] := by
  by_cases same : index = other
  · rw [if_pos same]
    exact filterMap_ofSession
      (fun event => by
        cases event <;>
          simp [SessionEvent.ofSession, ServerEvent.sent?,
            SessionEvent.sent?, same]) events
  · rw [if_neg same, @filterMap_ofSession index Answer _ (fun _ => none)
      (fun event => by
        cases event <;>
          simp [SessionEvent.ofSession, ServerEvent.sent?, same])]
    exact List.filterMap_none events

/-- A step of a session is no request. -/
theorem asked_ofSession
    (other : Nat)
    (events : List SessionEvent) :
    (events.filterMap (SessionEvent.ofSession index)).filterMap
        (ServerEvent.asked? other) = [] := by
  rw [@filterMap_ofSession index Nat _ (fun _ => none)
    (fun event => by cases event <;> rfl)]
  exact List.filterMap_none events

/-- What happens to the log is seen as such, and is nothing else. -/
theorem filterMap_map_log
    (events : List LogEvent) :
    logEvents (events.map ServerEvent.log) = events ∧
      (events.map ServerEvent.log).filterMap (ServerEvent.made? index) = [] ∧
      (events.map ServerEvent.log).filterMap (ServerEvent.sent? index) = [] ∧
      (events.map ServerEvent.log).filterMap (ServerEvent.asked? index) =
        [] := by
  induction events with
  | nil =>
      exact ⟨rfl, rfl, rfl, rfl⟩
  | cons event rest inductionHypothesis =>
      rcases inductionHypothesis with ⟨log, made, sent, asked⟩
      exact ⟨congrArg (event :: ·) log, made, sent, asked⟩

end Projections

section Safety

/-- A reply to a command is written when every record was flushed and no flush
has failed. -/
def Durable (before : List ServerEvent) (event : ServerEvent) : Prop :=
  ∀ index answer,
    event = .sent index answer → answer.toCommand = true →
      Flushed (logEvents before) ∧ ServerEvent.flushFailed ∉ before

/-- What a server goes by: its log and its trace agree, and a log whose flush
has failed stays as it is. -/
structure Safe (server : SinterServer) : Prop where
  barrier : Barrier server.log (logEvents server.trace)
  durable : Trace.Always Durable server.trace
  failed :
    ServerEvent.flushFailed ∈ server.trace →
      server.log.broken = true ∧ server.log.unsynced = true

/-- A step that does nothing to the log and writes no reply to a command
while records wait. -/
theorem Safe.extend
    (safe : server.Safe)
    {later : SinterServer}
    (sameLog : later.log = server.log)
    {events : List ServerEvent}
    (trace : later.trace = server.trace ++ events)
    (noLog : logEvents events = [])
    (noFailure : ServerEvent.flushFailed ∉ events)
    (waits :
      ∀ other answer, ServerEvent.sent other answer ∈ events →
        answer.toCommand = true → server.log.unsynced = false) :
    later.Safe where
  barrier := by
    rw [sameLog, trace]
    unfold logEvents at noLog ⊢
    rw [List.filterMap_append, noLog, List.append_nil]
    exact safe.barrier
  durable := by
    rw [trace]
    refine safe.durable.append ?_
    rintro before event after rfl other answer rfl toCommand
    have marked := waits other answer (by simp) toCommand
    have quiet : logEvents before = [] := by
      unfold logEvents at noLog ⊢
      rw [List.filterMap_append, List.append_eq_nil_iff] at noLog
      exact noLog.1
    constructor
    · unfold logEvents at quiet ⊢
      rw [List.filterMap_append, quiet, List.append_nil]
      exact safe.barrier.flushed marked
    · intro member
      rcases List.mem_append.mp member with member | member
      · exact Bool.noConfusion (marked.symm.trans (safe.failed member).2)
      · exact noFailure (List.mem_append_left _ member)
  failed member := by
    rw [trace] at member
    rcases List.mem_append.mp member with member | member
    · rw [sameLog]
      exact safe.failed member
    · exact absurd member noFailure

/-- A step that nothing is seen of. -/
theorem Safe.unseen
    (safe : server.Safe)
    {later : SinterServer}
    (sameLog : later.log = server.log)
    (trace : later.trace = server.trace) :
    later.Safe :=
  safe.extend sameLog (trace.trans (List.append_nil _).symm) rfl
    (List.not_mem_nil) (fun _ _ member => nomatch member)

/-- Calls of the log keep a server safe. -/
theorem Safe.engineCalls
    (safe : server.Safe)
    (calls : List LogCall) :
    (server.engineCalls calls).Safe where
  barrier := by
    have kept := safe.barrier.calls calls
    unfold SinterServer.engineCalls logEvents
    rw [List.filterMap_append]
    have log := (@filterMap_map_log 0 (server.log.eventsOf calls)).1
    unfold logEvents at log
    rw [log]
    exact kept
  durable :=
    safe.durable.append_of_forall fun event member before other answer
        isSent => by
      rcases List.mem_map.mp member with ⟨logged, -, rfl⟩
      cases isSent
  failed member := by
    rcases List.mem_append.mp member with member | member
    · rcases safe.failed member with ⟨isBroken, marked⟩
      have same : (server.engineCalls calls).log = server.log :=
        calls_broken isBroken calls
      rw [same]
      exact ⟨isBroken, marked⟩
    · rcases List.mem_map.mp member with ⟨logged, -, isLog⟩
      cases isLog

/-- A session that writes no reply to a command while records wait. -/
theorem Safe.settle
    (safe : server.Safe)
    (session : Session)
    {events : List SessionEvent}
    (waits :
      ∀ answer ∈ events.filterMap SessionEvent.sent?,
        answer.toCommand = true → server.log.unsynced = false) :
    (server.settle index session events).Safe := by
  refine safe.extend rfl rfl (logEvents_ofSession events) ?_ ?_
  · intro member
    rcases List.mem_filterMap.mp member with ⟨event, -, isFailure⟩
    cases event <;> cases isFailure
  · intro other answer member toCommand
    rcases List.mem_filterMap.mp member with ⟨event, inEvents, isSent⟩
    cases event <;> cases isSent
    exact waits answer (List.mem_filterMap.mpr ⟨_, inEvents, rfl⟩) toCommand

/-- A request keeps a server safe. -/
theorem Safe.ask
    (safe : server.Safe)
    (requestId : Nat) :
    (server.ask index requestId).Safe :=
  safe.extend rfl rfl rfl (by simp) (by simp)

/-- A session that answers keeps a server safe. -/
theorem Safe.answer
    (safe : server.Safe)
    {requestId : Nat}
    {session : Session}
    {step : Session.Step}
    (answers : session.AnswersIn requestId server.hasPending step) :
    (server.answer index step).Safe := by
  unfold SinterServer.answer
  rcases step with error | ⟨later, events⟩
  · exact safe.unseen rfl rfl
  · rcases answers later events rfl with ⟨answer, answered⟩
    refine safe.settle later ?_
    intro other member toCommand
    rw [answered.sent] at member
    split_ifs at member with silent
    · cases member
    · rw [Bool.or_eq_true, Bool.or_eq_true, not_or, not_or,
        Bool.not_eq_true] at silent
      rw [List.mem_singleton] at member
      subst member
      exact answered.durable toCommand silent.1.1

/-- A message keeps a server safe. -/
theorem Safe.handleMessage
    (safe : server.Safe)
    (message : DecodedMessage)
    (receivedAt : TimeValue)
    (work : Work) :
    (server.handleMessage index message receivedAt work).Safe := by
  unfold SinterServer.handleMessage
  cases server.sessions[index]? with
  | none =>
      exact safe
  | some session =>
      dsimp only
      split_ifs
      · exact safe
      · exact ((safe.ask message.requestId).engineCalls work.calls).answer
          (Session.answersIn_handleMessage message receivedAt work.reply)
      · exact (safe.ask message.requestId).answer
          (Session.answersIn_handleMessage message receivedAt work.reply)

/-- The messages of a chunk keep a server safe. -/
theorem Safe.handleMessages
    (safe : server.Safe)
    (receivedAt : TimeValue)
    (messages : List (DecodedMessage × Work)) :
    (server.handleMessages index receivedAt messages).Safe := by
  induction messages generalizing server with
  | nil =>
      exact safe
  | cons first rest inductionHypothesis =>
      exact inductionHypothesis
        (safe.handleMessage first.1 receivedAt first.2)

/-- A chunk keeps a server safe. -/
theorem Safe.handleData
    (safe : server.Safe)
    (chunk : Bytes)
    (receivedAt : TimeValue)
    (work : Nat → Work) :
    (server.handleData index chunk receivedAt work).Safe := by
  unfold SinterServer.handleData
  cases server.sessions[index]? with
  | none =>
      exact safe
  | some session =>
      dsimp only
      split_ifs
      · exact safe
      · rcases session.decoder.push chunk with ⟨decoder, error | messages⟩ <;>
          dsimp only
        all_goals
          have changed :
              Safe { server with
                sessions :=
                  server.sessions.set index
                    { session with decoder := decoder } } :=
            safe.unseen rfl rfl
        · exact (changed.ask 0).answer (Session.answersIn_sendErrorAndClose _)
        · exact changed.handleMessages _ _

/-- Callbacks keep a server safe that has flushed its log, or failed to. -/
theorem Safe.releases
    (safe : server.Safe)
    {failed : Bool}
    (flushed : failed = false → server.log.unsynced = false)
    (callbacks : List Nat) :
    (callbacks.foldl (fun server index => server.release failed index)
      server).Safe := by
  induction callbacks generalizing server with
  | nil =>
      exact safe
  | cons index rest inductionHypothesis =>
      have released :
          (server.release failed index).Safe ∧
            (server.release failed index).log = server.log := by
        unfold SinterServer.release
        cases server.sessions[index]? with
        | none =>
            exact ⟨safe, rfl⟩
        | some session =>
            dsimp only
            split_ifs
            · exact ⟨safe, rfl⟩
            · refine ⟨safe.settle _ ?_, rfl⟩
              intro answer member _
              rw [(session.released_release failed).sent] at member
              cases failed with
              | true =>
                  rw [Bool.or_true, if_pos rfl] at member
                  cases member
              | false =>
                  exact flushed rfl
      exact inductionHypothesis released.1
        fun notFailed => released.2.symm ▸ flushed notFailed

/-- The flush of `run`, before the callbacks. -/
def flush (server : SinterServer) : SinterServer :=
  { server with
    log := server.log.commit.1
    committer := {}
    trace :=
      server.trace ++ server.log.commitEvents.map .log ++
        if !server.log.commit.2.isOk then [.flushFailed] else [] }

/-- `run` flushes the log and calls back. -/
theorem run_eq
    (server : SinterServer) :
    server.run =
      if server.crashed || !server.committer.scheduled then
        server
      else
        server.committer.waiting.foldl
          (fun flushed index =>
            flushed.release (!server.log.commit.2.isOk) index)
          server.flush :=
  rfl

/-- A flush keeps a server safe. -/
theorem Safe.flush
    (safe : server.Safe) :
    server.flush.Safe where
  barrier := by
    have kept := safe.barrier.commit.1
    have log := (@filterMap_map_log 0 server.log.commitEvents).1
    have quiet :
        logEvents
            (if !server.log.commit.2.isOk then [.flushFailed] else []) =
          [] := by
      split_ifs <;> rfl
    unfold logEvents at log quiet kept
    unfold SinterServer.flush logEvents
    rw [List.filterMap_append, List.filterMap_append, log, quiet,
      List.append_nil]
    exact kept
  durable := by
    have logged :
        Trace.Always Durable
          (server.trace ++ server.log.commitEvents.map .log) := by
      refine safe.durable.append_of_forall ?_
      intro event member before other answer isSent
      rcases List.mem_map.mp member with ⟨happened, -, rfl⟩
      cases isSent
    refine logged.append_of_forall ?_
    intro event member before other answer isSent
    split_ifs at member
    · rw [List.mem_singleton.mp member] at isSent
      cases isSent
    · cases member
  failed member := by
    rcases List.mem_append.mp member with member | isNew
    · rcases List.mem_append.mp member with member | member
      · rcases safe.failed member with ⟨isBroken, marked⟩
        have same : server.flush.log = server.log :=
          congrArg Prod.fst (call_broken isBroken .commit)
        rw [same]
        exact ⟨isBroken, marked⟩
      · rcases List.mem_map.mp member with ⟨happened, -, isLog⟩
        cases isLog
    · rcases result : server.log.commit.2 with error | value
      · exact safe.barrier.commit.2.2 error result
      · rw [result] at isNew
        cases isNew

/-- `run` keeps a server safe. -/
theorem Safe.run
    (safe : server.Safe) :
    server.run.Safe := by
  rw [run_eq]
  split_ifs
  · exact safe
  · refine safe.flush.releases ?_ server.committer.waiting
    intro succeeded
    rcases result : server.log.commit.2 with error | value
    · rw [result] at succeeded
      cases succeeded
    · exact safe.barrier.commit.2.1 value result

/-- Every turn keeps a server safe. -/
theorem Safe.turn
    (safe : server.Safe)
    (turn : Turn) :
    (server.turn turn).Safe := by
  cases turn with
  | connection =>
      unfold SinterServer.turn
      dsimp only
      split_ifs
      · exact safe
      · exact safe.unseen rfl rfl
  | data index chunk receivedAt work =>
      exact safe.handleData chunk receivedAt work
  | immediate =>
      exact safe.run
  | background calls =>
      unfold SinterServer.turn
      dsimp only
      split_ifs
      · exact safe
      · exact safe.engineCalls calls
  | socketEnds index => exact safe.unseen rfl rfl
  | socketFails index => exact safe.unseen rfl rfl
  | socketCloses index => exact safe.unseen rfl rfl

/-- Every server that turns lead to is safe. -/
theorem Reaches.safe
    (reaches : Reaches server) :
    server.Safe := by
  induction reaches with
  | start opens =>
      exact
        { barrier := barrier_of_openLog opens rfl rfl
          durable := .nil
          failed := fun member => nomatch member }
  | turn reaches turn inductionHypothesis =>
      exact inductionHypothesis.turn turn

/--
Whatever the sessions, the background checkpoints and the disk do: when a reply
to a command is written to a socket, a flush has covered every record that was
appended before, and no flush has failed before.
-/
theorem Reaches.replies_are_durable
    (reaches : Reaches server)
    {before after : List ServerEvent}
    {answer : Answer}
    (isSent : server.trace = before ++ .sent index answer :: after)
    (toCommand : answer.toCommand = true) :
    Flushed (logEvents before) ∧ ServerEvent.flushFailed ∉ before :=
  reaches.safe.durable before (.sent index answer) after isSent index answer
    rfl toCommand

end Safety

section Sample

/-- The log of a new directory, with group commit. -/
def sampleLog : WriteAheadLog :=
  (WriteAheadLog.openLog ⟨some .flushed, some true, none⟩ [] []).toOption.get
    (by decide +kernel)

/-- The bytes of a message of a client. -/
def clientFrame
    (kind : MessageKind)
    (requestId : Nat)
    (payload : Document) : Bytes :=
  (encodeMessage
    { kind := kind
      requestId := requestId
      payload := payload }).toOption.getD []

/-- A handshake and a command behind it. -/
def clientChunk : Bytes :=
  clientFrame .handshake 1
      [textField "role" (utf16 "client"),
        numberField "protocolVersion" protocolVersion,
        textField "product" (utf16 "driver"),
        textField "productVersion" (utf16 "1"),
        (utf16 "capabilities", .array [])] ++
    clientFrame .command 2
      [textField "command" (utf16 "insertOne"),
        (utf16 "parameters", .document [])]

/-- A server that holds the reply to a command that appended a record. -/
def holdingServer : SinterServer :=
  (SinterServer.turn { hasErrorListener := true, log := sampleLog }
      .connection).turn
    (.data 0 clientChunk ⟨0, by decide⟩
      fun _ => ⟨[.append 1 [7]], .ok []⟩)

/-- The same after the log was flushed. -/
def flushedServer : SinterServer :=
  holdingServer.turn .immediate

/-- An answer to a command that was written to a socket. -/
def answersCommand : ServerEvent → Bool
  | .sent _ answer => answer.toCommand
  | _ => false

/-- The server that holds a reply is reached. -/
theorem reaches_holdingServer :
    Reaches holdingServer := by
  have opens :
      WriteAheadLog.openLog ⟨some .flushed, some true, none⟩ [] [] =
        .ok sampleLog := by
    have isOpen :
        (WriteAheadLog.openLog ⟨some .flushed, some true, none⟩ []
          []).toOption = some sampleLog :=
      (Option.some_get _).symm
    cases result :
        WriteAheadLog.openLog ⟨some .flushed, some true, none⟩ [] [] with
    | error error =>
        rw [result] at isOpen
        cases isOpen
    | ok log =>
        rw [result] at isOpen
        exact congrArg Except.ok (Option.some.inj isOpen)
  exact .turn (.turn (.start opens) _) _

/-- The server that has flushed its log is reached. -/
theorem reaches_flushedServer :
    Reaches flushedServer :=
  .turn reaches_holdingServer _

/-- The reply of the sample was written behind a flush. -/
theorem Reaches.replies_are_durable_flushedServer :
    ∃ (before after : List ServerEvent) (index : Nat) (answer : Answer),
      flushedServer.trace = before ++ .sent index answer :: after ∧
        answer.toCommand = true ∧
        Flushed (logEvents before) ∧ ServerEvent.flushFailed ∉ before := by
  have replies : flushedServer.trace.any answersCommand = true := by
    decide +kernel
  rcases List.any_eq_true.mp replies with ⟨event, member, isReply⟩
  rcases List.append_of_mem member with ⟨before, after, isSplit⟩
  cases event with
  | sent index answer =>
      exact ⟨before, after, index, answer, isSplit, isReply,
        Reaches.replies_are_durable reaches_flushedServer isSplit isReply⟩
  | _ => cases isReply

end Sample
end SinterServer

end SinterDb
