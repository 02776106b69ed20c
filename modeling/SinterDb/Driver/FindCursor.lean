import SinterDb.Server.BatchSize

namespace SinterDb.Driver

open Unicode

/-!
# Cursors of the driver

`FindCursor` with the calls that are made on it.  A call runs until it waits
for the server or for another call, and goes on in an event of its own, so that
a run is any interleaving of calls, replies and continuations.
-/

/-- What a promise of the driver is rejected with. -/
inductive DriverError where
  | protocol (message : String)
  | execution (message : JsString)
  deriving Repr, DecidableEq

/-- `invalidBatch`. -/
def invalidBatch : DriverError :=
  .protocol "The server returned an invalid cursor batch."

/-- The parts of a find that a cursor is made with. -/
structure FindQuery where
  collection : JsString
  filter : Document
  batchSize : Option JsNumber
  sort : Option (List (JsString × JsNumber))
  skip : Option JsNumber
  limit : Option JsNumber

/-- The commands that a cursor executes. -/
inductive CursorCommand where
  | find
  | getMore (cursorId : Nat)
  | closeCursor (cursorId : Nat)
  deriving Repr, DecidableEq

/-- The name of a command. -/
def CursorCommand.name : CursorCommand → JsString
  | .find => utf16 "find"
  | .getMore _ => utf16 "getMore"
  | .closeCursor _ => utf16 "closeCursor"

/-- A field that is sent when it has a value. -/
def optionalField
    (name : String)
    (value : Option DocumentValue) : Document :=
  value.toList.map fun value => (utf16 name, value)

/-- The parameters of a command. -/
def CursorCommand.parameters (query : FindQuery) : CursorCommand → Document
  | .find =>
      [(utf16 "collection", .string query.collection),
        (utf16 "filter", .document query.filter)] ++
      optionalField "batchSize" (query.batchSize.map .number) ++
      optionalField "sort"
        (query.sort.map fun sort =>
          .array (sort.map fun entry =>
            .array [.string entry.1, .number entry.2])) ++
      optionalField "skip" (query.skip.map .number) ++
      optionalField "limit" (query.limit.map .number)
  | .getMore cursorId =>
      (utf16 "cursorId", .number (.ofInt cursorId)) ::
        optionalField "batchSize" (query.batchSize.map .number)
  | .closeCursor cursorId => [(utf16 "cursorId", .number (.ofInt cursorId))]

/-- A document that `parseBatch` accepts has an id. -/
def hasCustomId : DocumentValue → Bool
  | .document fields =>
      match Document.get? fields (utf16 "_id") with
      | some (.customId _) => true
      | _ => false
  | _ => false

/-- The fields of the documents in an array. -/
def documentsOf : List DocumentValue → List Document
  | [] => []
  | .document fields :: rest => fields :: documentsOf rest
  | _ :: rest => documentsOf rest

/-- The cursor ID of a batch; none when it is not valid. -/
def batchCursorId? : Option DocumentValue → Option (Option Nat)
  | some .null => some none
  | some (.number number) => (positiveSafeInteger? number).map some
  | _ => none

/-- `parseBatch`. -/
def parseBatch (value : DocumentValue) : Except DriverError CursorBatch :=
  match value with
  | .document record =>
      match batchCursorId? (Document.get? record (utf16 "cursorId")),
          Document.get? record (utf16 "documents") with
      | some cursorId, some (.array documents) =>
          if documents.all hasCustomId then
            .ok { cursorId := cursorId, documents := documentsOf documents }
          else
            .error invalidBatch
      | _, _ => .error invalidBatch
  | _ => .error invalidBatch

/-- The field `cursorId`: undefined, null or a number. -/
inductive CursorHandle where
  | unknown
  | exhausted
  | live (cursorId : Nat)
  deriving Repr, DecidableEq

/-- The handle that a batch leaves. -/
def CursorHandle.ofBatch (batch : CursorBatch) : CursorHandle :=
  match batch.cursorId with
  | none => .exhausted
  | some cursorId => .live cursorId

/-- The fields of a `FindCursor` that change. -/
structure FindCursor where
  buffer : List Document
  cursorId : CursorHandle
  closed : Bool
  deriving DecidableEq

/-- A new cursor. -/
def FindCursor.new : FindCursor where
  buffer := []
  cursorId := .unknown
  closed := false

/-- What the loop of `hasNext` finds at its head. -/
inductive Check where
  | answer (found : Bool)
  | fetch (command : CursorCommand)
  deriving DecidableEq

/-- The head of the loop of `hasNext`, with the command of `fetchBatch`. -/
def FindCursor.check (cursor : FindCursor) : Check :=
  if cursor.buffer = [] then
    if cursor.closed then
      .answer false
    else
      match cursor.cursorId with
      | .exhausted => .answer false
      | .unknown => .fetch .find
      | .live cursorId => .fetch (.getMore cursorId)
  else
    .answer true

/-- What `fetchBatch` does with a batch. -/
def FindCursor.accept (cursor : FindCursor) (batch : CursorBatch) : FindCursor :=
  { cursor with
    cursorId := .ofBatch batch
    buffer := cursor.buffer ++ batch.documents }

/-- The methods of a cursor. -/
inductive CallKind where
  | hasNext
  | next
  | close
  deriving Repr, DecidableEq

/-- What the promise of a call is settled with; `next` returns null as none. -/
inductive Outcome where
  | found (answer : Bool)
  | document (document : Option Document)
  | finished
  | rejected (error : DriverError)
  deriving DecidableEq

/-- What a call waits for. -/
inductive Phase where
  | fetching (command : CursorCommand)
  | fetched
  | answered (found : Bool)
  | closing (cursorId : Nat)
  | settled (outcome : Outcome)
  deriving DecidableEq

/-- A call, and whether `close` had been called when it started. -/
structure Call where
  kind : CallKind
  afterClose : Bool
  phase : Phase
  deriving DecidableEq

/-- A cursor with all calls on it, the commands sent and the batches received. -/
structure Session where
  cursor : FindCursor
  calls : List Call
  sent : List CursorCommand
  received : List (CursorCommand × CursorBatch)

/-- A cursor before its first call. -/
def Session.start : Session where
  cursor := .new
  calls := []
  sent := []
  received := []

/-- The phase in which the head of the loop leaves a call. -/
def Check.phase (kind : CallKind) : Check → Phase
  | .answer found =>
      match kind with
      | .next => .answered found
      | _ => .settled (.found found)
  | .fetch command => .fetching command

/-- The commands that the head of the loop sends. -/
def Check.commands : Check → List CursorCommand
  | .answer _ => []
  | .fetch command => [command]

/-- An event of a run; replies and continuations name a call. -/
inductive Event where
  | call (kind : CallKind)
  | reply (index : Nat) (outcome : Except DriverError DocumentValue)
  | resume (index : Nat)

namespace Session

/-- A call put into another phase. -/
def setPhase (session : Session) (index : Nat) (phase : Phase) : Session :=
  { session with
    calls :=
      session.calls.modify index fun call => { call with phase := phase } }

/-- `hasNext` or `next`, up to its first wait. -/
def startRead (session : Session) (kind : CallKind) : Session :=
  let check := session.cursor.check
  { session with
    calls :=
      session.calls ++
        [{ kind := kind
           afterClose := session.cursor.closed
           phase := check.phase kind }]
    sent := session.sent ++ check.commands }

/-- `close`, up to its first wait. -/
def startClose (session : Session) : Session :=
  let call (phase : Phase) : Call :=
    { kind := .close, afterClose := session.cursor.closed, phase := phase }
  if session.cursor.closed then
    { session with calls := session.calls ++ [call (.settled .finished)] }
  else
    let cursor : FindCursor :=
      { buffer := [], cursorId := .exhausted, closed := true }
    match session.cursor.cursorId with
    | .live cursorId =>
        { session with
          cursor := cursor
          calls := session.calls ++ [call (.closing cursorId)]
          sent := session.sent ++ [.closeCursor cursorId] }
    | _ =>
        { session with
          cursor := cursor
          calls := session.calls ++ [call (.settled .finished)] }

/-- The rest of `fetchBatch` and of `close` behind a reply. -/
def receive
    (session : Session)
    (index : Nat)
    (call : Call)
    (outcome : Except DriverError DocumentValue) : Session :=
  match call.phase with
  | .fetching command =>
      match outcome >>= parseBatch with
      | .error error => session.setPhase index (.settled (.rejected error))
      | .ok batch =>
          { session.setPhase index .fetched with
            cursor := session.cursor.accept batch
            received := session.received ++ [(command, batch)] }
  | .closing _ =>
      match outcome with
      | .error error => session.setPhase index (.settled (.rejected error))
      | .ok _ => session.setPhase index (.settled .finished)
  | _ => session

/-- The continuation of a call whose wait is over. -/
def goOn (session : Session) (index : Nat) (call : Call) : Session :=
  match call.phase with
  | .fetched =>
      let check := session.cursor.check
      { session.setPhase index (check.phase call.kind) with
        sent := session.sent ++ check.commands }
  | .answered false => session.setPhase index (.settled (.document none))
  | .answered true =>
      { session.setPhase index
          (.settled (.document session.cursor.buffer.head?)) with
        cursor :=
          { session.cursor with buffer := session.cursor.buffer.tail } }
  | _ => session

/-- One event; an event that no call waits for changes nothing. -/
def step (session : Session) : Event → Session
  | .call .close => session.startClose
  | .call kind => session.startRead kind
  | .reply index outcome =>
      match session.calls[index]? with
      | some call => session.receive index call outcome
      | none => session
  | .resume index =>
      match session.calls[index]? with
      | some call => session.goOn index call
      | none => session

/-- The events of a run, in order. -/
def run (session : Session) (events : List Event) : Session :=
  events.foldl step session

/-- A call waits for the reply to its fetch. -/
def InFlight (session : Session) : Prop :=
  ∃ call ∈ session.calls, ∃ command, call.phase = .fetching command

end Session

/-- A condition holds of every event of a run, in the state it comes in. -/
def EachStep
    (condition : Session → Event → Prop) :
    Session → List Event → Prop
  | _, [] => True
  | session, event :: events =>
      condition session event ∧
        EachStep condition (session.step event) events

/-- The calls after one of them is put into another phase. -/
theorem mem_setPhase
    {session : Session}
    {index : Nat}
    {phase : Phase}
    {call old : Call}
    (isOld : session.calls[index]? = some old)
    (member : call ∈ (session.setPhase index phase).calls) :
    call ∈ session.calls ∨ call = { old with phase := phase } := by
  obtain ⟨place, isCall⟩ := List.mem_iff_getElem?.mp member
  rw [Session.setPhase, List.getElem?_modify] at isCall
  split_ifs at isCall with same
  · subst same
    rw [isOld] at isCall
    exact .inr (Option.some.inj isCall).symm
  · rw [Option.map_eq_map, Option.map_id'] at isCall
    exact .inl (List.mem_of_getElem? isCall)

end SinterDb.Driver
