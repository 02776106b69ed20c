import SinterDb.Storage.CollectionRun

namespace SinterDb

open Unicode

/-!
# What a write proposes

A write other than `insertMany` first works out one batch of changes for the
indexes and the operations for the journal, without changing anything.  Only
then do the indexes track the changes, the journal commits the operations, and
the collection carries them out.
-/

/-- What an operation of the journal does to the documents. -/
def JournalOperation.carryOut
    (collection : Collection) : JournalOperation → Collection
  | .put key encoded => collection.put key encoded
  | .delete key => collection.remove key
  | .createIndex _ => collection
  | .dropIndex _ => collection

/-- What a write would do if no unique index refused it. -/
structure Proposal where
  changes : List DocumentChange
  operations : List JournalOperation
  result : WriteResult

/-- A proposal to leave everything as it is. -/
def Proposal.nothing (result : WriteResult) : Proposal :=
  ⟨[], [], result⟩

namespace Collection

/-- Operations carried out in order. -/
def carryOut
    (collection : Collection)
    (operations : List JournalOperation) : Collection :=
  operations.foldl JournalOperation.carryOut collection

/-- The proposal of `insertOne`. -/
def proposeInsert
    (collection : Collection)
    (generated : CustomId)
    (document : Document)
    (use : CustomId → WriteResult) : Except Thrown Proposal := do
  let prepared ← collection.prepareInsert [] generated document
  let put := JournalOperation.put prepared.key prepared.encoded
  if IndexSet.isEmpty collection.indexes then
    return ⟨[], [put], use prepared.id⟩
  else
    let after ← liftProtocol (decodeDocument prepared.encoded)
    return ⟨[⟨prepared.key, none, some after⟩], [put], use prepared.id⟩

/-- The proposal of an upsert. -/
def proposeUpsert
    (collection : Collection)
    (generated : CustomId)
    (document : Document) : Except Thrown Proposal :=
  collection.proposeInsert generated document fun id =>
    .updated ⟨0, 0, some id⟩

/-- The proposal of `upsertFromUpdate`. -/
def proposeUpsertFromUpdate
    (collection : Collection)
    (filter : Document)
    (apply : CompiledUpdate)
    (upserts : Bool)
    (generated : CustomId) : Except Thrown Proposal :=
  if upserts then do
    let document ← seedDocumentFromFilter filter >>= apply
    collection.proposeUpsert generated document
  else
    .ok (.nothing (.updated ⟨0, 0, none⟩))

/-- The proposal to store another encoding of a document. -/
def proposeReplacement
    (located : LocatedDocument)
    (encoded : Bytes) : Except Thrown Proposal := do
  let after ← liftProtocol (decodeDocument encoded)
  return ⟨[⟨located.key, some located.document, some after⟩],
    [.put located.key encoded], .updated ⟨1, 1, none⟩⟩

/-- The proposal of `updateOne`. -/
def proposeUpdateOne
    (collection : Collection)
    (filter update : Document)
    (upserts : Bool)
    (generated : CustomId) : Except Thrown Proposal := do
  let test ← compileFilter filter
  let apply ← compileUpdate update
  match ← collection.locate filter test with
  | none =>
      collection.proposeUpsertFromUpdate filter apply upserts generated
  | some located =>
      match ← prepareUpdate located apply with
      | none => .ok (.nothing (.updated ⟨1, 0, none⟩))
      | some (_, encoded) => proposeReplacement located encoded

/-- The proposal of `updateMany`. -/
def proposeUpdateMany
    (collection : Collection)
    (filter update : Document)
    (upserts : Bool)
    (generated : CustomId) : Except Thrown Proposal := do
  let test ← compileFilter filter
  let apply ← compileUpdate update
  let updates ←
    collectUpdates (!IndexSet.isEmpty collection.indexes) test apply
      (collection.candidates filter)
  if updates.matched = 0 then
    collection.proposeUpsertFromUpdate filter apply upserts generated
  else
    return ⟨updates.changes,
      updates.pending.map fun entry => .put entry.1 entry.2,
      .updated ⟨updates.matched, updates.pending.length, none⟩⟩

/-- The proposal of `replaceOne`. -/
def proposeReplaceOne
    (collection : Collection)
    (filter replacement : Document)
    (upserts : Bool)
    (generated : CustomId) : Except Thrown Proposal := do
  let test ← compileFilter filter
  validateReplacement replacement
  match ← collection.locate filter test with
  | none =>
      if upserts then do
        let document ← upsertReplacement filter replacement
        collection.proposeUpsert generated document
      else
        .ok (.nothing (.updated ⟨0, 0, none⟩))
  | some located =>
      let document ← replacementFor located.document replacement
      let encoded ← encodeStoredDocument document
      if encoded = located.encoded then
        .ok (.nothing (.updated ⟨1, 0, none⟩))
      else
        proposeReplacement located encoded

/-- The proposal of `deleteOne`. -/
def proposeDeleteOne
    (collection : Collection)
    (filter : Document) : Except Thrown Proposal := do
  let test ← compileFilter filter
  match ← collection.locate filter test with
  | none => .ok (.nothing (.deleted 0))
  | some located =>
      .ok ⟨[⟨located.key, some located.document, none⟩],
        [.delete located.key], .deleted 1⟩

/-- The proposal of `deleteMany`. -/
def proposeDeleteMany
    (collection : Collection)
    (filter : Document) : Except Thrown Proposal := do
  let test ← compileFilter filter
  let located ← allMatches test (collection.candidates filter)
  return ⟨if IndexSet.isEmpty collection.indexes then
      []
    else
      located.map fun entry => ⟨entry.key, some entry.document, none⟩,
    (located.map LocatedDocument.key).map .delete,
    .deleted (located.map LocatedDocument.key).length⟩

/-- The proposal of a call, for those that make one batch of changes. -/
def propose
    (collection : Collection) : WriteCall → Option (Except Thrown Proposal)
  | .insertOne generated document =>
      some (collection.proposeInsert generated document fun id =>
        .inserted [id])
  | .updateOne filter update upserts generated =>
      some (collection.proposeUpdateOne filter update upserts generated)
  | .updateMany filter update upserts generated =>
      some (collection.proposeUpdateMany filter update upserts generated)
  | .replaceOne filter replacement upserts generated =>
      some (collection.proposeReplaceOne filter replacement upserts generated)
  | .deleteOne filter => some (collection.proposeDeleteOne filter)
  | .deleteMany filter => some (collection.proposeDeleteMany filter)
  | .insertMany _ _ => none
  | .createIndex _ => none
  | .dropIndex _ => none

/-- What becomes of a proposal. -/
def settle (collection : Collection) (proposal : Proposal) :
    Write WriteResult :=
  collection.trackAndCommit proposal.changes proposal.operations
    (fun tracked => tracked.carryOut proposal.operations) proposal.result

section Algebra

variable
  {α β γ : Type}
  {collection : Collection}

/-- An attempt that succeeds at once. -/
theorem attempt_pure
    (value : α)
    (next : α → Write β) :
    collection.attempt (pure value) next = next value :=
  rfl

/-- An attempt in two steps. -/
theorem attempt_bind
    (first : Except Thrown α)
    (second : α → Except Thrown β)
    (next : β → Write γ) :
    collection.attempt (first >>= second) next =
      collection.attempt first fun value =>
        collection.attempt (second value) next := by
  cases first <;> rfl

/-- Using the result of an attempt further. -/
theorem map_attempt
    (result : Except Thrown α)
    (next : α → Write β)
    (use : β → γ) :
    (collection.attempt result next).map use =
      collection.attempt result fun value => (next value).map use := by
  cases result <;> rfl

/-- Attempts that go on in the same way. -/
theorem attempt_congr
    {result : Except Thrown α}
    {next other : α → Write β}
    (same : ∀ value, next value = other value) :
    collection.attempt result next = collection.attempt result other := by
  rw [funext same]

/-- Using the result of the last part of a write further. -/
theorem map_commit
    (undo : List UndoStep)
    (operations : List JournalOperation)
    (change : Collection → Collection)
    (result : Except Thrown α)
    (use : α → β) :
    (collection.commit undo operations change result).map use =
      collection.commit undo operations change (result.map use) := by
  unfold commit
  split_ifs
  · rfl
  · simp only [Write.map, Write.commit.injEq, true_and]
    funext answer
    cases answer <;> rfl

/-- Using the result of tracked changes further. -/
theorem map_trackAndCommit
    (changes : List DocumentChange)
    (operations : List JournalOperation)
    (change : Collection → Collection)
    (result : α)
    (use : α → β) :
    (collection.trackAndCommit changes operations change result).map use =
      collection.trackAndCommit changes operations change (use result) := by
  unfold trackAndCommit
  split
  · rfl
  · rw [map_commit]
    rfl

end Algebra

section Proposing

variable
  {collection : Collection}

/-- No changes leave the indexes as they are. -/
theorem trackChanges_nil
    (collection : Collection) :
    collection.trackChanges [] = (collection, .ok []) := by
  unfold trackChanges IndexSet.applyChanges
  split_ifs <;> rfl

/-- Without indexes nothing is tracked. -/
theorem trackChanges_of_isEmpty
    (empty : IndexSet.isEmpty collection.indexes = true)
    (changes : List DocumentChange) :
    collection.trackChanges changes = (collection, .ok []) := by
  unfold trackChanges IndexSet.applyChanges
  rw [if_pos empty]

/-- A proposal to leave everything as it is. -/
theorem settle_nothing
    (collection : Collection)
    (result : WriteResult) :
    collection.settle (.nothing result) = .done collection (.ok result) := by
  unfold settle trackAndCommit Proposal.nothing
  rw [trackChanges_nil]
  rfl

/-- Carrying out puts. -/
theorem carryOut_puts
    (collection : Collection)
    (entries : List (JsString × Bytes)) :
    collection.carryOut
        (entries.map fun entry => .put entry.1 entry.2) =
      collection.putAll entries := by
  unfold carryOut putAll
  rw [List.foldl_map]
  rfl

/-- Carrying out deletions. -/
theorem carryOut_deletes
    (collection : Collection)
    (keys : List JsString) :
    collection.carryOut (keys.map .delete) = collection.removeAll keys := by
  unfold carryOut removeAll
  rw [List.foldl_map]
  rfl

/-- `insertOne` settles its proposal. -/
theorem insertOne_eq
    (generated : CustomId)
    (document : Document)
    (use : CustomId → WriteResult) :
    (collection.insertOne generated document).map use =
      collection.attempt (collection.proposeInsert generated document use)
        collection.settle := by
  unfold insertOne tryInsert proposeInsert
  cases prepares : collection.prepareInsert [] generated document with
  | error error =>
      rfl
  | ok prepared =>
      simp only [Result.ok_bind]
      unfold trackInsert
      by_cases empty : IndexSet.isEmpty collection.indexes = true
      · simp only [if_pos empty, Except.map, map_commit, attempt_pure,
          settle, trackAndCommit, trackChanges_nil]
        rfl
      · simp only [if_neg empty]
        cases decodes : decodeDocument prepared.encoded with
        | error error =>
            rfl
        | ok after =>
            simp only [liftProtocol, Result.ok_bind, attempt_pure, settle,
              trackAndCommit]
            cases tracks : collection.trackChanges
                [⟨prepared.key, none, some after⟩] with
            | mk tracked tracking =>
                cases tracking with
                | error error =>
                    rfl
                | ok undo =>
                    simp only [Except.map, map_commit]
                    rfl

/-- Using the result of a write in two steps. -/
theorem map_map
    {α β γ : Type}
    (write : Write α)
    (first : α → β)
    (second : β → γ) :
    (write.map first).map second = write.map fun value =>
      second (first value) := by
  cases write with
  | done final result =>
      cases result <;> rfl
  | commit during operations resume =>
      simp only [Write.map, Write.commit.injEq, true_and]
      funext answer
      cases (resume answer).2 <;> rfl

/-- An upsert settles its proposal. -/
theorem upsert_eq
    (generated : CustomId)
    (document : Document) :
    (collection.upsert generated document).map .updated =
      collection.attempt (collection.proposeUpsert generated document)
        collection.settle := by
  unfold proposeUpsert upsert
  rw [← insertOne_eq, map_map]

/-- `upsertFromUpdate` settles its proposal. -/
theorem upsertFromUpdate_eq
    (filter : Document)
    (apply : CompiledUpdate)
    (upserts : Bool)
    (generated : CustomId) :
    (collection.upsertFromUpdate filter apply upserts generated).map
        .updated =
      collection.attempt
        (collection.proposeUpsertFromUpdate filter apply upserts generated)
        collection.settle := by
  unfold proposeUpsertFromUpdate upsertFromUpdate
  split_ifs
  · rw [map_attempt]
    refine Eq.trans ?_ (attempt_bind _ _ _).symm
    exact attempt_congr fun document => upsert_eq generated document
  · exact (settle_nothing collection _).symm

/-- Storing another encoding settles its proposal. -/
theorem replaceStored_eq
    (located : LocatedDocument)
    (encoded : Bytes) :
    (collection.replaceStored located encoded).map .updated =
      collection.attempt (proposeReplacement located encoded)
        collection.settle := by
  unfold proposeReplacement replaceStored
  rw [map_attempt, attempt_bind]
  refine attempt_congr fun after => ?_
  rw [map_trackAndCommit, attempt_pure]
  rfl

/-- `updateOne` settles its proposal. -/
theorem updateOne_eq
    (filter update : Document)
    (upserts : Bool)
    (generated : CustomId) :
    (collection.updateOne filter update upserts generated).map .updated =
      collection.attempt
        (collection.proposeUpdateOne filter update upserts generated)
        collection.settle := by
  unfold proposeUpdateOne updateOne
  rw [map_attempt, attempt_bind]
  refine attempt_congr fun test => ?_
  rw [map_attempt, attempt_bind]
  refine attempt_congr fun apply => ?_
  rw [map_attempt, attempt_bind]
  refine attempt_congr fun located => ?_
  cases located with
  | none =>
      exact upsertFromUpdate_eq filter apply upserts generated
  | some located =>
      simp only
      rw [map_attempt, attempt_bind]
      refine attempt_congr fun pending => ?_
      cases pending with
      | none =>
          exact (settle_nothing collection _).symm
      | some prepared =>
          exact replaceStored_eq located prepared.2

/-- `replaceOne` settles its proposal. -/
theorem replaceOne_eq
    (filter replacement : Document)
    (upserts : Bool)
    (generated : CustomId) :
    (collection.replaceOne filter replacement upserts generated).map
        .updated =
      collection.attempt
        (collection.proposeReplaceOne filter replacement upserts generated)
        collection.settle := by
  unfold proposeReplaceOne replaceOne
  rw [map_attempt, attempt_bind]
  refine attempt_congr fun test => ?_
  rw [map_attempt, attempt_bind]
  refine attempt_congr fun _ => ?_
  rw [map_attempt, attempt_bind]
  refine attempt_congr fun located => ?_
  cases located with
  | none =>
      simp only
      split_ifs
      · rw [map_attempt, attempt_bind]
        exact attempt_congr fun document => upsert_eq generated document
      · exact (settle_nothing collection _).symm
  | some located =>
      simp only
      rw [map_attempt, attempt_bind, attempt_bind]
      refine attempt_congr fun document => ?_
      rw [attempt_bind]
      refine attempt_congr fun encoded => ?_
      split_ifs
      · exact (settle_nothing collection _).symm
      · exact replaceStored_eq located encoded

/-- `updateMany` settles its proposal. -/
theorem updateMany_eq
    (filter update : Document)
    (upserts : Bool)
    (generated : CustomId) :
    (collection.updateMany filter update upserts generated).map .updated =
      collection.attempt
        (collection.proposeUpdateMany filter update upserts generated)
        collection.settle := by
  unfold proposeUpdateMany updateMany
  rw [map_attempt, attempt_bind]
  refine attempt_congr fun test => ?_
  rw [map_attempt, attempt_bind]
  refine attempt_congr fun apply => ?_
  rw [map_attempt, attempt_bind]
  refine attempt_congr fun updates => ?_
  split_ifs
  · exact upsertFromUpdate_eq filter apply upserts generated
  · rw [map_trackAndCommit, attempt_pure]
    unfold settle
    simp only [carryOut_puts]

/-- `deleteOne` settles its proposal. -/
theorem deleteOne_eq
    (filter : Document) :
    (collection.deleteOne filter).map .deleted =
      collection.attempt (collection.proposeDeleteOne filter)
        collection.settle := by
  unfold proposeDeleteOne deleteOne
  rw [map_attempt, attempt_bind]
  refine attempt_congr fun test => ?_
  rw [map_attempt, attempt_bind]
  refine attempt_congr fun located => ?_
  cases located with
  | none =>
      exact (settle_nothing collection _).symm
  | some located =>
      simp only
      rw [map_trackAndCommit]
      rfl

/-- `deleteMany` settles its proposal. -/
theorem deleteMany_eq
    (filter : Document) :
    (collection.deleteMany filter).map .deleted =
      collection.attempt (collection.proposeDeleteMany filter)
        collection.settle := by
  unfold proposeDeleteMany deleteMany
  rw [map_attempt, attempt_bind]
  refine attempt_congr fun test => ?_
  rw [map_attempt, attempt_bind]
  refine attempt_congr fun located => ?_
  rw [map_trackAndCommit, attempt_pure]
  unfold settle
  simp only [carryOut_deletes]

/-- A call that proposes a batch of changes settles it. -/
theorem perform_eq
    {call : WriteCall}
    {proposed : Except Thrown Proposal}
    (proposes : collection.propose call = some proposed) :
    collection.perform call =
      collection.attempt proposed collection.settle := by
  cases call with
  | insertOne generated document =>
      obtain rfl := Option.some.inj proposes
      exact insertOne_eq generated document _
  | updateOne filter update upserts generated =>
      obtain rfl := Option.some.inj proposes
      exact updateOne_eq filter update upserts generated
  | updateMany filter update upserts generated =>
      obtain rfl := Option.some.inj proposes
      exact updateMany_eq filter update upserts generated
  | replaceOne filter replacement upserts generated =>
      obtain rfl := Option.some.inj proposes
      exact replaceOne_eq filter replacement upserts generated
  | deleteOne filter =>
      obtain rfl := Option.some.inj proposes
      exact deleteOne_eq filter
  | deleteMany filter =>
      obtain rfl := Option.some.inj proposes
      exact deleteMany_eq filter
  | insertMany generated documents =>
      cases proposes
  | createIndex input =>
      cases proposes
  | dropIndex name =>
      cases proposes

end Proposing

end Collection

end SinterDb
