import SinterDb.Protocol.MessageStream
import SinterDb.Lib.JsMap

namespace SinterDb.Driver

open Unicode

/-!
# Requests of the driver

`RequestIdGenerator` and `RequestDispatcher`.  Requests are numbered in the
order of their calls; the history records what happens to them.  Replies,
timeouts, write errors and socket events come in any order.
-/

/-- `MIN_REQUEST_ID`. -/
def minRequestId : Nat := 1

/-- `CLIENT_HANDSHAKE_REQUEST_ID`. -/
def clientHandshakeRequestId : Nat := 1

/-- `FIRST_OPERATION_REQUEST_ID`. -/
def firstOperationRequestId : Nat := clientHandshakeRequestId + 1

/-- `RequestIdGenerator`, with what `validateInitialValue` checks. -/
structure RequestIdGenerator where
  current : Nat
  lower : minRequestId ≤ current
  upper : current ≤ maxRequestId

namespace RequestIdGenerator

/-- The generator behind the one that is given. -/
def advance (generator : RequestIdGenerator) : RequestIdGenerator where
  current :=
    if generator.current = maxRequestId then
      minRequestId
    else
      generator.current + 1
  lower := by
    split_ifs
    · exact Nat.le_refl _
    · exact Nat.le_succ_of_le generator.lower
  upper := by
    have upper := generator.upper
    split_ifs with same
    · decide
    · omega

/-- `next`. -/
def next (generator : RequestIdGenerator) : Nat × RequestIdGenerator :=
  (generator.current, generator.advance)

/-- How many ids come before a given one. -/
def distance (generator first : RequestIdGenerator) : Nat :=
  (first.current + maxRequestId - generator.current) % maxRequestId

/-- Every id but the given one comes nearer to it. -/
theorem distance_advance
    {generator first : RequestIdGenerator}
    (other : generator.current ≠ first.current) :
    generator.advance.distance first < generator.distance first := by
  have := generator.lower
  have := generator.upper
  have := first.lower
  have := first.upper
  unfold distance advance
  dsimp only
  unfold minRequestId maxRequestId at *
  split_ifs <;> omega

end RequestIdGenerator

/-- What a server error carries of its message. -/
structure ServerError where
  message : Option DocumentValue
  wireCode : Option DocumentValue
  serverErrorName : Option DocumentValue
  retryable : Option DocumentValue
  details : Option DocumentValue
  deriving DecidableEq

/-- What a request is rejected with; a cause is not kept. -/
inductive RequestError where
  | connection (message : JsString)
  | document (message : JsString)
  | protocol (message : JsString)
  | timeout (message : JsString)
  | clientState (message : JsString)
  | server (error : ServerError)
  deriving DecidableEq

/-- Why a request settles; `refused` before it is sent. -/
inductive Cause where
  | refused (error : RequestError)
  | reply (message : DecodedMessage)
  | timedOut (error : RequestError)
  | unwritten (error : RequestError)
  | closed (error : RequestError)
  deriving DecidableEq

/-- What `handleMessage` settles a request with. -/
def replyOutcome
    (message : DecodedMessage) :
    Except RequestError DecodedMessage :=
  if message.kind = .error then
    .error (.server
      { message := Document.get? message.payload (utf16 "message")
        wireCode := Document.get? message.payload (utf16 "code")
        serverErrorName := Document.get? message.payload (utf16 "name")
        retryable := Document.get? message.payload (utf16 "retryable")
        details := Document.get? message.payload (utf16 "details") })
  else
    .ok message

/-- What the promise of a request is settled with. -/
def Cause.outcome : Cause → Except RequestError DecodedMessage
  | .refused error => .error error
  | .reply message => replyOutcome message
  | .timedOut error => .error error
  | .unwritten error => .error error
  | .closed error => .error error

/-- What happens to requests, in order. -/
inductive Happening where
  | allocated (requestId : Nat)
  | sent (request requestId : Nat)
  | arrived (message : DecodedMessage)
  | settled (request : Nat) (cause : Cause)
  deriving DecidableEq

/-- A dispatcher, its socket and its timers. -/
structure RequestDispatcher where
  requestTimeoutMS : Nat
  decoder : MessageStreamDecoder
  requestIds : RequestIdGenerator
  /-- The request that waits under an id. -/
  pending : JsMap Nat Nat
  /-- The requests whose timers run, with their ids. -/
  timers : List (Nat × Nat)
  /-- The requests that were written, with their ids. -/
  written : List (Nat × Nat)
  closed : Bool
  /-- The handlers of the socket are installed. -/
  listening : Bool
  destroyed : Bool
  requests : Nat
  history : List Happening

namespace RequestDispatcher

/-- A new dispatcher. -/
def new (requestTimeoutMS : Nat) : RequestDispatcher where
  requestTimeoutMS := requestTimeoutMS
  decoder := {}
  requestIds :=
    { current := firstOperationRequestId
      lower := by decide
      upper := by decide }
  pending := .empty
  timers := []
  written := []
  closed := false
  listening := true
  destroyed := false
  requests := 0
  history := []

/-- Something more has happened. -/
def note
    (dispatcher : RequestDispatcher)
    (happening : Happening) : RequestDispatcher :=
  { dispatcher with history := dispatcher.history ++ [happening] }

/-- `clearTimeout`. -/
def clearTimeout
    (dispatcher : RequestDispatcher)
    (request : Nat) : RequestDispatcher :=
  { dispatcher with
    timers := dispatcher.timers.filter fun timer => timer.1 ≠ request }

/-- `this.pending.delete`. -/
def deletePending
    (dispatcher : RequestDispatcher)
    (requestId : Nat) : RequestDispatcher :=
  { dispatcher with pending := dispatcher.pending.delete requestId }

/-- An entry leaves the map and its request settles. -/
def finish
    (dispatcher : RequestDispatcher)
    (requestId request : Nat)
    (cause : Cause) : RequestDispatcher :=
  ((dispatcher.deletePending requestId).clearTimeout request).note
    (.settled request cause)

/-- The loop of `allocateRequestId`, with the generator behind `requestId`. -/
def searchRequestId
    (pending : JsMap Nat Nat)
    (first generator : RequestIdGenerator)
    (requestId : Nat) :
    RequestIdGenerator × Except RequestError Nat :=
  if pending.has requestId then
    if generator.current = first.current then
      (generator.advance,
        .error (.protocol
          (utf16 "No request IDs are available for a new operation.")))
    else
      searchRequestId pending first generator.advance generator.current
  else
    (generator, .ok requestId)
termination_by generator.distance first
decreasing_by
  exact RequestIdGenerator.distance_advance (by assumption)

/-- `allocateRequestId`. -/
def allocateRequestId
    (dispatcher : RequestDispatcher) :
    RequestIdGenerator × Except RequestError Nat :=
  let (first, generator) := dispatcher.requestIds.next
  searchRequestId dispatcher.pending dispatcher.requestIds generator first

/-- `rejectRequest`. -/
def rejectRequest
    (dispatcher : RequestDispatcher)
    (requestId : Nat)
    (cause : Cause) : RequestDispatcher :=
  match dispatcher.pending.get? requestId with
  | none => dispatcher
  | some request => dispatcher.finish requestId request cause

/-- The loop of `rejectAll`: a live iterator that stands at a slot. -/
def rejectFrom
    (dispatcher : RequestDispatcher)
    (error : RequestError)
    (slot : Nat) : Nat → RequestDispatcher
  | 0 => dispatcher
  | rounds + 1 =>
      match dispatcher.pending.slots[slot]? with
      | some (some (requestId, request)) =>
          (dispatcher.finish requestId request (.closed error)).rejectFrom
            error (slot + 1) rounds
      | _ => dispatcher.rejectFrom error (slot + 1) rounds

/-- `rejectAll`. -/
def rejectAll
    (dispatcher : RequestDispatcher)
    (error : RequestError) : RequestDispatcher :=
  dispatcher.rejectFrom error 0 dispatcher.pending.slots.length

/-- `close`. -/
def close
    (dispatcher : RequestDispatcher)
    (error : RequestError) : RequestDispatcher :=
  if dispatcher.closed then
    dispatcher
  else
    { dispatcher with
      closed := true
      listening := false
      decoder := {} }.rejectAll error

/-- `failConnection`. -/
def failConnection
    (dispatcher : RequestDispatcher)
    (error : RequestError) : RequestDispatcher :=
  if dispatcher.closed then
    dispatcher
  else
    { dispatcher.close error with destroyed := true }

/-- The error of a request that was not written. -/
def writeError (requestId : Nat) : RequestError :=
  .connection (utf16
    ("Could not write request " ++ toString requestId ++ " to the server."))

/-- The promise of `request`, with an encoded frame. -/
def send
    (dispatcher : RequestDispatcher)
    (request requestId : Nat)
    (writeThrows : Bool) : RequestDispatcher :=
  let waiting :=
    { dispatcher with
      timers := dispatcher.timers ++ [(request, requestId)]
      pending := dispatcher.pending.set requestId request }.note
        (.sent request requestId)
  if writeThrows then
    waiting.rejectRequest requestId (.unwritten (writeError requestId))
  else
    { waiting with written := waiting.written ++ [(request, requestId)] }

/-- A request that is not sent. -/
def refuse
    (dispatcher : RequestDispatcher)
    (request : Nat)
    (error : RequestError) : RequestDispatcher :=
  dispatcher.note (.settled request (.refused error))

/-- The part of `request` behind the encoder. -/
def transmit
    (dispatcher : RequestDispatcher)
    (request requestId : Nat)
    (writeThrows : Bool) :
    Except ProtocolError Bytes → RequestDispatcher
  | .error cause =>
      dispatcher.refuse request (.document
        (utf16 "The request could not be encoded: " ++ cause.message))
  | .ok _ => dispatcher.send request requestId writeThrows

/-- The body of `request`, with a number for the request. -/
def begin
    (dispatcher : RequestDispatcher)
    (request : Nat)
    (kind : MessageKind)
    (payload : Document)
    (writeThrows : Bool) : RequestDispatcher :=
  if dispatcher.closed || dispatcher.destroyed then
    dispatcher.refuse request (.connection (utf16
      "Cannot send a request because the connection is closed."))
  else
    match dispatcher.allocateRequestId with
    | (requestIds, .error error) =>
        { dispatcher with requestIds := requestIds }.refuse request error
    | (requestIds, .ok requestId) =>
        ({ dispatcher with requestIds := requestIds }.note
          (.allocated requestId)).transmit request requestId writeThrows
            (encodeMessage
              { kind := kind, requestId := requestId, payload := payload })

/-- `request`; a throw counts as a rejection. -/
def request
    (dispatcher : RequestDispatcher)
    (kind : MessageKind)
    (payload : Document)
    (writeThrows : Bool) : RequestDispatcher :=
  { dispatcher with requests := dispatcher.requests + 1 }.begin
    dispatcher.requests kind payload writeThrows

/-- The callback of a timer. -/
def timeout
    (dispatcher : RequestDispatcher)
    (request requestId : Nat) : RequestDispatcher :=
  if dispatcher.pending.has requestId then
    (dispatcher.deletePending requestId).note
      (.settled request (.timedOut (.timeout (utf16
        ("Request " ++ toString requestId ++ " timed out after " ++
          toString dispatcher.requestTimeoutMS ++ "ms.")))))
  else
    dispatcher

/-- `handleMessage`. -/
def handleMessage
    (dispatcher : RequestDispatcher)
    (message : DecodedMessage) : RequestDispatcher :=
  let dispatcher := dispatcher.note (.arrived message)
  match dispatcher.pending.get? message.requestId with
  | none => dispatcher
  | some request => dispatcher.finish message.requestId request (.reply message)

/-- What the socket gives to its `data` handlers. -/
inductive Chunk where
  | text
  | bytes (bytes : Bytes)

/-- `handleData`. -/
def handleData
    (dispatcher : RequestDispatcher) :
    Chunk → RequestDispatcher
  | .text =>
      dispatcher.failConnection (.protocol (utf16
        "The server sent text data instead of binary protocol data."))
  | .bytes bytes =>
      match dispatcher.decoder.push bytes with
      | (decoder, .error _) =>
          { dispatcher with decoder := decoder }.failConnection
            (.protocol (utf16 "The server sent an invalid protocol frame."))
      | (decoder, .ok messages) =>
          messages.foldl handleMessage { dispatcher with decoder := decoder }

/-- `handleError`. -/
def handleError (dispatcher : RequestDispatcher) : RequestDispatcher :=
  dispatcher.failConnection
    (.connection (utf16 "The database connection failed."))

/-- `handleClose`. -/
def handleClose (dispatcher : RequestDispatcher) : RequestDispatcher :=
  dispatcher.close (.connection (utf16
    "The database connection closed before the request completed."))

/-- An event of a run; write errors and timeouts name a request. -/
inductive Event where
  | request (kind : MessageKind) (payload : Document) (writeThrows : Bool)
  | data (chunk : Chunk)
  | writeError (request : Nat)
  | timeout (request : Nat)
  | close (error : Option RequestError)
  | socketError
  | socketClose
  | destroy

/-- One event; removed handlers and cleared timers do nothing. -/
def step (dispatcher : RequestDispatcher) : Event → RequestDispatcher
  | .request kind payload writeThrows =>
      dispatcher.request kind payload writeThrows
  | .data chunk =>
      if dispatcher.listening then dispatcher.handleData chunk else dispatcher
  | .writeError request =>
      match dispatcher.written.find? fun entry => entry.1 = request with
      | some (_, requestId) =>
          dispatcher.rejectRequest requestId
            (.unwritten (RequestDispatcher.writeError requestId))
      | none => dispatcher
  | .timeout request =>
      match dispatcher.timers.find? fun timer => timer.1 = request with
      | some (_, requestId) =>
          (dispatcher.clearTimeout request).timeout request requestId
      | none => dispatcher
  | .close error =>
      dispatcher.close (error.getD (.connection (utf16
        "The connection closed before the request completed.")))
  | .socketError =>
      if dispatcher.listening then dispatcher.handleError else dispatcher
  | .socketClose =>
      if dispatcher.listening then dispatcher.handleClose else dispatcher
  | .destroy => { dispatcher with destroyed := true }

/-- The events of a run, in order. -/
def run (dispatcher : RequestDispatcher) (events : List Event) :
    RequestDispatcher :=
  events.foldl step dispatcher

end RequestDispatcher

end SinterDb.Driver
