import SinterDb.Server.DocumentSize
import SinterDb.Lib.JsMap

namespace SinterDb

/-!
# Cursors on the server

A cursor holds an iterator and at most one document that was taken from it and
not returned yet.  The iterator is a state with a function that takes the next
document, so that a batch can be built from any source of documents.
-/

/-- `Number.MAX_SAFE_INTEGER`. -/
def maxSafeInteger : Nat := 2 ^ 53 - 1

/-- The value of a number that is a positive safe integer. -/
def positiveSafeInteger? (number : JsNumber) : Option Nat :=
  match number.toInt? with
  | some value =>
      if number.isSafeInteger = true ∧ 0 < value then some value.toNat else none
  | none => none

/-- `DEFAULT_CURSOR_BATCH_SIZE`. -/
def defaultCursorBatchSize : JsNumber := JsNumber.ofInt 100

/-- `DEFAULT_CURSOR_IDLE_TIMEOUT_MS`. -/
def defaultCursorIdleTimeoutMS : Nat := 10 * 60 * 1000

/-- `DEFAULT_CURSOR_BATCH_BYTES`. -/
def defaultCursorBatchBytes : Nat := 8 * 1024 * 1024

/-- What the methods of a cursor manager throw. -/
inductive CursorError where
  | typeError (message : String)
  | cursorNotFound (cursorId : Nat)
  | noCursorIds
  deriving Repr, DecidableEq

/-- The text of an error. -/
def CursorError.message : CursorError → String
  | .typeError message => message
  | .cursorNotFound cursorId =>
      s!"Cursor {cursorId} does not exist or has already exhausted."
  | .noCursorIds => "No cursor IDs are available."

/-- `CursorBatch`. -/
structure CursorBatch where
  cursorId : Option Nat
  documents : List Document
  deriving DecidableEq

/-- `CursorState`, over iterators of any kind. -/
structure CursorState (σ : Type) where
  iterator : σ
  buffered : Option Document
  exhausted : Bool
  lastUsed : Int
  deriving DecidableEq

section Batches

variable {σ : Type} (next : σ → Option Document × σ)

/-- The look-ahead behind a batch that has its full number of documents. -/
def lookAhead (state : CursorState σ) : CursorState σ :=
  match next state.iterator with
  | (none, iterator) => { state with iterator := iterator, exhausted := true }
  | (some document, iterator) =>
      { state with iterator := iterator, buffered := some document }

/--
The loop of `takeBatch`.  Every round that does not return adds a document, so
the rounds are counted by the documents that the batch has room for.
-/
def takeLoop (maxBatchBytes : Nat) :
    Nat →
    CursorState σ →
    List Document →
    Nat →
    List Document × CursorState σ
  | 0, state, documents, _ => (documents, lookAhead next state)
  | room + 1, state, documents, bytes =>
      match next state.iterator with
      | (none, iterator) =>
          (documents, { state with iterator := iterator, exhausted := true })
      | (some document, iterator) =>
          let size := estimateEncodedSize (.document document)
          if 0 < documents.length ∧ maxBatchBytes < bytes + size then
            (documents,
              { state with iterator := iterator, buffered := some document })
          else
            takeLoop maxBatchBytes room { state with iterator := iterator }
              (documents ++ [document]) (bytes + size)

/-- `takeBatch`. -/
def takeBatch
    (state : CursorState σ)
    (batchSize maxBatchBytes : Nat) :
    List Document × CursorState σ :=
  match state.buffered with
  | some document =>
      takeLoop next maxBatchBytes (batchSize - 1)
        { state with buffered := none } [document]
        (estimateEncodedSize (.document document))
  | none => takeLoop next maxBatchBytes batchSize state [] 0

end Batches

/-- `isExhausted`. -/
def CursorState.isExhausted {σ : Type} (state : CursorState σ) : Bool :=
  state.exhausted && state.buffered.isNone

/-- `CursorManager`. -/
structure CursorManager (σ : Type) where
  cursors : JsMap Nat (CursorState σ)
  nextCursorId : Nat
  idleTimeoutMS : Nat
  maxBatchBytes : Nat

/-- `CursorManagerOptions`, without the clock. -/
structure CursorManagerOptions where
  idleTimeoutMS : Option JsNumber
  maxBatchBytes : Option JsNumber

/-- `validateCursorId`. -/
def validateCursorId (cursorId : JsNumber) : Except CursorError Nat :=
  match positiveSafeInteger? cursorId with
  | some value => .ok value
  | none =>
      .error (.typeError "Cursor ID must be a positive safe integer.")

/-- `validateBatchSize`. -/
def validateBatchSize (batchSize : JsNumber) : Except CursorError Nat :=
  match positiveSafeInteger? batchSize with
  | some value => .ok value
  | none =>
      .error (.typeError "Cursor batch size must be a positive safe integer.")

namespace CursorManager

variable {σ : Type}

/-- The constructor of `CursorManager`. -/
def construct
    (options : CursorManagerOptions) :
    Except CursorError (CursorManager σ) :=
  match options.idleTimeoutMS.elim (some defaultCursorIdleTimeoutMS)
      positiveSafeInteger? with
  | none =>
      .error (.typeError "Cursor idle timeout must be a positive safe integer.")
  | some idleTimeoutMS =>
      match options.maxBatchBytes.elim (some defaultCursorBatchBytes)
          positiveSafeInteger? with
      | none =>
          .error (.typeError
            "Cursor batch byte limit must be a positive safe integer.")
      | some maxBatchBytes =>
          .ok {
            cursors := JsMap.empty
            nextCursorId := 1
            idleTimeoutMS := idleTimeoutMS
            maxBatchBytes := maxBatchBytes }

/-- `activeCursorCount`. -/
def activeCursorCount (manager : CursorManager σ) : Nat :=
  manager.cursors.size

/-- A cursor was last used no later than the cutoff of a sweep. -/
def isExpired
    (manager : CursorManager σ)
    (time : Int)
    (state : CursorState σ) : Bool :=
  decide (state.lastUsed ≤ time - manager.idleTimeoutMS)

/-- The loop of `sweepExpired` over the cursors. -/
def sweepLoop
    (expired : CursorState σ → Bool) :
    List (Nat × CursorState σ) →
    JsMap Nat (CursorState σ) →
    Nat →
    JsMap Nat (CursorState σ) × Nat
  | [], cursors, removed => (cursors, removed)
  | (cursorId, state) :: rest, cursors, removed =>
      if expired state then
        sweepLoop expired rest (cursors.delete cursorId) (removed + 1)
      else
        sweepLoop expired rest cursors removed

/-- `sweepExpired`, with what it removed. -/
def sweepExpired
    (manager : CursorManager σ)
    (time : Int) : Nat × CursorManager σ :=
  let swept :=
    sweepLoop (manager.isExpired time) manager.cursors.entries
      manager.cursors 0
  (swept.2, { manager with cursors := swept.1 })

/-- `advanceCursorId`. -/
def advanceCursorId (cursorId : Nat) : Nat :=
  if cursorId = maxSafeInteger then 1 else cursorId + 1

/--
The search loop of `allocateCursorId`.  It is back at the first number after as
many rounds as there are cursor IDs.
-/
def allocateLoop
    (cursors : JsMap Nat (CursorState σ))
    (first : Nat) :
    Nat → Nat → Option Nat
  | 0, _ => none
  | rounds + 1, cursorId =>
      if cursors.has cursorId then
        if advanceCursorId cursorId = first then none
        else allocateLoop cursors first rounds (advanceCursorId cursorId)
      else
        some cursorId

/-- `allocateCursorId`. -/
def allocateCursorId
    (manager : CursorManager σ) :
    Except CursorError Nat × CursorManager σ :=
  match allocateLoop manager.cursors manager.nextCursorId maxSafeInteger
      manager.nextCursorId with
  | none => (.error .noCursorIds, manager)
  | some cursorId =>
      (.ok cursorId, { manager with nextCursorId := advanceCursorId cursorId })

/-- `open`, with the clock at the sweep and behind it. -/
def openCursor
    (next : σ → Option Document × σ)
    (manager : CursorManager σ)
    (documents : σ)
    (batchSize : JsNumber)
    (sweepTime useTime : Int) :
    Except CursorError CursorBatch × CursorManager σ :=
  match validateBatchSize batchSize with
  | .error error => (.error error, manager)
  | .ok size =>
      let swept := (manager.sweepExpired sweepTime).2
      let state : CursorState σ := {
        iterator := documents
        buffered := none
        exhausted := false
        lastUsed := useTime }
      let taken := takeBatch next state size swept.maxBatchBytes
      if taken.2.isExhausted then
        (.ok { cursorId := none, documents := taken.1 }, swept)
      else
        match swept.allocateCursorId with
        | (.error error, manager) => (.error error, manager)
        | (.ok cursorId, manager) =>
            (.ok { cursorId := some cursorId, documents := taken.1 },
              { manager with cursors := manager.cursors.set cursorId taken.2 })

/-- `getMore`, with the clock at the sweep and behind it. -/
def getMore
    (next : σ → Option Document × σ)
    (manager : CursorManager σ)
    (cursorId batchSize : JsNumber)
    (sweepTime useTime : Int) :
    Except CursorError CursorBatch × CursorManager σ :=
  match validateCursorId cursorId with
  | .error error => (.error error, manager)
  | .ok cursorId =>
      match validateBatchSize batchSize with
      | .error error => (.error error, manager)
      | .ok size =>
          let swept := (manager.sweepExpired sweepTime).2
          match swept.cursors.get? cursorId with
          | none => (.error (.cursorNotFound cursorId), swept)
          | some state =>
              let taken :=
                takeBatch next { state with lastUsed := useTime } size
                  swept.maxBatchBytes
              if taken.2.isExhausted then
                (.ok { cursorId := none, documents := taken.1 },
                  { swept with cursors := swept.cursors.delete cursorId })
              else
                (.ok { cursorId := some cursorId, documents := taken.1 },
                  { swept with
                    cursors := swept.cursors.set cursorId taken.2 })

/-- `close`. -/
def close
    (manager : CursorManager σ)
    (cursorId : JsNumber) :
    Except CursorError Bool × CursorManager σ :=
  match validateCursorId cursorId with
  | .error error => (.error error, manager)
  | .ok cursorId =>
      (.ok (manager.cursors.has cursorId),
        { manager with cursors := manager.cursors.delete cursorId })

/-- `clear`. -/
def clear (manager : CursorManager σ) : CursorManager σ :=
  { manager with cursors := JsMap.empty }

end CursorManager

end SinterDb
