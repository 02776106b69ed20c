import SinterDb.Storage.UpsertId

namespace SinterDb

open Unicode

/-!
# Indexed documents can be decoded

An index is built from decoded documents, and while there is one, no write
stores what it has not decoded.  So a collection with indexes holds nothing that
its next scan throws at, whatever it went through before.
-/

namespace Collection

/-- While there are indexes, every stored document can be decoded. -/
def Decodable (collection : Collection) : Prop :=
  IndexSet.isEmpty collection.indexes = false →
    AllDecode collection.documents.entries

section Tracking

variable
  {collection tracked final : Collection}
  {undo : List UndoStep}

/-- The documents and the number of indexes are all that matters. -/
theorem Decodable.congr
    (decodable : collection.Decodable)
    (documents : final.documents = collection.documents)
    (indexed :
      IndexSet.isEmpty final.indexes = IndexSet.isEmpty collection.indexes) :
    final.Decodable := by
  intro notEmpty
  rw [documents]
  exact decodable (indexed ▸ notEmpty)

/-- A rollback takes no index away. -/
theorem isEmpty_rollback
    (collection : Collection)
    (undo : List UndoStep) :
    IndexSet.isEmpty (collection.rollback undo).indexes =
      IndexSet.isEmpty collection.indexes :=
  isEmpty_of_definitions
    (IndexSet.sameDefinitions_rollback undo collection.indexes)

/-- Tracked changes take no index away. -/
theorem isEmpty_of_trackChanges
    {changes : List DocumentChange}
    {result : Except Thrown (List UndoStep)}
    (tracks : collection.trackChanges changes = (tracked, result)) :
    IndexSet.isEmpty tracked.indexes =
      IndexSet.isEmpty collection.indexes := by
  obtain ⟨-, applies⟩ := trackChanges_eq tracks
  have definitions :=
    IndexSet.sameDefinitions_applyChanges collection.indexes changes
  rw [applies] at definitions
  exact isEmpty_of_definitions definitions

/-- A tracked insert takes no index away. -/
theorem isEmpty_of_trackInsert
    {prepared : PreparedInsert}
    {result : Except Thrown (List UndoStep)}
    (tracks : collection.trackInsert prepared = (tracked, result)) :
    IndexSet.isEmpty tracked.indexes =
      IndexSet.isEmpty collection.indexes := by
  unfold trackInsert at tracks
  split_ifs at tracks
  · rw [(Prod.mk.inj tracks).1]
  · split at tracks
    · rw [(Prod.mk.inj tracks).1]
    · exact isEmpty_of_trackChanges tracks

end Tracking

section Proposals

variable
  {collection : Collection}
  {proposal : Proposal}

/-- A settled proposal takes no index away. -/
theorem isEmpty_settle
    (collection : Collection)
    (proposal : Proposal) :
    (collection.settle proposal).Ensures fun final =>
      IndexSet.isEmpty final.indexes =
        IndexSet.isEmpty collection.indexes := by
  unfold settle trackAndCommit
  cases tracks : collection.trackChanges proposal.changes with
  | mk tracked tracking =>
      have indexed := isEmpty_of_trackChanges tracks
      cases tracking with
      | error error =>
          exact fun _ => indexed
      | ok undo =>
          refine ensures_commit ?_ ?_
          · rw [carryOut_indexes, indexed]
          · rw [isEmpty_rollback, indexed]

/-- A settled proposal stores what can be decoded while there are indexes. -/
theorem decodable_settle
    (decodable : collection.Decodable)
    (proposed :
      IndexSet.isEmpty collection.indexes = false →
        collection.Proposed proposal) :
    (collection.settle proposal).Ensures Decodable := by
  unfold settle trackAndCommit
  cases tracks : collection.trackChanges proposal.changes with
  | mk tracked tracking =>
      have documents : tracked.documents = collection.documents := by
        rw [(trackChanges_eq tracks).1]
      have indexed := isEmpty_of_trackChanges tracks
      have kept := decodable.congr documents indexed
      cases tracking with
      | error error =>
          exact fun _ => kept
      | ok undo =>
          refine ensures_commit ?_
            (kept.congr rfl (isEmpty_rollback tracked undo))
          intro notEmpty
          rw [carryOut_indexes, indexed] at notEmpty
          have fits :=
            (proposed notEmpty).fits.congr
              (carryOut_documents_congr documents proposal.operations)
          exact fits.allDecode (decodable notEmpty)

end Proposals

section Batches

variable
  {collection final : Collection}
  {generated : Nat → CustomId}

/-- The loop of `insertMany` changes nothing but the content of the indexes,
and accepts what can be decoded while there are any. -/
theorem decodable_insertLoop
    {documents : List Document}
    {index : Nat}
    {accepted : List PreparedInsert}
    {rollbacks : List (List UndoStep)}
    {result : Except Thrown InsertBatch}
    (decodes :
      IndexSet.isEmpty collection.indexes = false →
        ∀ prepared ∈ accepted,
          ∃ document, decodeDocument prepared.encoded = .ok document)
    (loops :
      insertLoop generated documents index collection accepted rollbacks =
        (final, result)) :
    final.documents = collection.documents ∧
      IndexSet.isEmpty final.indexes = IndexSet.isEmpty collection.indexes ∧
      ∀ batch, result = .ok batch →
        IndexSet.isEmpty collection.indexes = false →
          ∀ prepared ∈ batch.accepted,
            ∃ document, decodeDocument prepared.encoded = .ok document := by
  induction documents generalizing index collection accepted rollbacks with
  | nil =>
      obtain ⟨rfl, rfl⟩ := Prod.mk.inj loops
      refine ⟨rfl, rfl, fun batch same => ?_⟩
      rw [← Except.ok.inj same]
      exact decodes
  | cons document rest inductionHypothesis =>
      have tracking :
          ∀ {tracked tried},
            collection.tryInsert (accepted.map PreparedInsert.key)
                (generated index) document = (tracked, tried) →
              tracked.documents = collection.documents ∧
                IndexSet.isEmpty tracked.indexes =
                  IndexSet.isEmpty collection.indexes := by
        intro tracked tried tries
        refine ⟨by rw [tryInsert_shape tries], ?_⟩
        rcases tryInsert_cases tries with ⟨rfl, -⟩ | ⟨_, _, -, tracks, -⟩
        · rfl
        · exact isEmpty_of_trackInsert tracks
      rw [insertLoop] at loops
      split at loops
      · rename_i tracked prepared undo tries
        obtain ⟨documents, indexed⟩ := tracking tries
        have later := @inductionHypothesis tracked (index + 1)
          (accepted ++ [prepared]) (rollbacks ++ [undo]) ?_ loops
        · rw [documents, indexed] at later
          exact later
        · intro notEmpty
          rw [List.forall_mem_append, List.forall_mem_singleton]
          refine ⟨decodes (indexed ▸ notEmpty), ?_⟩
          rcases tryInsert_cases tries with
            ⟨-, _, isError⟩ | ⟨other, tried, -, tracks, isResult⟩
          · cases isError
          · cases tried with
            | error error =>
                cases isResult
            | ok steps =>
                obtain ⟨rfl, -⟩ := Prod.mk.inj (Except.ok.inj isResult)
                exact decodes_of_trackInsert tracks notEmpty
      · rename_i tracked error tries
        obtain ⟨rfl, rfl⟩ := Prod.mk.inj loops
        obtain ⟨documents, indexed⟩ := tracking tries
        refine ⟨documents, indexed, fun batch same => ?_⟩
        rw [← Except.ok.inj same]
        exact decodes
      · rename_i tracked error _ tries
        obtain ⟨rfl, rfl⟩ := Prod.mk.inj loops
        obtain ⟨documents, indexed⟩ := tracking tries
        exact ⟨documents, indexed, fun _ same => by cases same⟩

/-- `insertMany` stores what can be decoded while there are indexes. -/
theorem decodable_insertMany
    (decodable : collection.Decodable)
    (documents : List Document) :
    (collection.insertMany generated documents).Ensures Decodable := by
  unfold insertMany
  split_ifs
  · exact fun _ => decodable
  · split
    · rename_i final error loops
      obtain ⟨sameDocuments, indexed, -⟩ :=
        decodable_insertLoop (by simp) loops
      exact fun _ => decodable.congr sameDocuments indexed
    · rename_i final batch loops
      obtain ⟨sameDocuments, indexed, decodes⟩ :=
        decodable_insertLoop (by simp) loops
      have kept := decodable.congr sameDocuments indexed
      refine ensures_commit ?_ (kept.congr rfl (isEmpty_rollback final _))
      intro notEmpty entry member
      rw [putAll_indexes] at notEmpty
      rw [putAll_documents] at member
      rcases JsMap.mem_entries_foldl_set member with new | ⟨old, -⟩
      · obtain ⟨prepared, isAccepted, rfl⟩ := List.mem_map.mp new
        exact decodes batch rfl (indexed ▸ notEmpty) prepared isAccepted
      · exact kept notEmpty entry old

end Batches

section Indexing

variable
  {collection : Collection}

/-- `createIndex` leaves documents that can be decoded. -/
theorem decodable_createIndex
    (sound : collection.Sound)
    (decodable : collection.Decodable)
    (input : CreateIndexInput) :
    (collection.createIndex input).Ensures Decodable := by
  refine ensures_attempt decodable fun spec _ => ?_
  refine ensures_attempt decodable fun result builds => ?_
  obtain ⟨built, created⟩ := result
  rcases buildIndex_cases sound builds with
    ⟨rfl, rfl⟩ | ⟨rfl, -, _, -, -, documents, -⟩
  · exact fun _ => decodable
  · have decodes := allDecode_of_buildIndex sound builds
    rw [← documents] at decodes
    intro answer
    cases answer with
    | error error =>
        exact fun _ => decodes
    | ok _ =>
        exact fun _ => decodes

/-- `dropIndex` leaves documents that can be decoded. -/
theorem decodable_dropIndex
    (decodable : collection.Decodable)
    (name : JsString) :
    (collection.dropIndex name).Ensures Decodable := by
  unfold dropIndex
  split_ifs
  · exact fun _ => decodable
  · intro answer
    cases answer with
    | error error =>
        exact decodable
    | ok _ =>
        exact fun notEmpty => decodable (isEmpty_of_drop notEmpty)
  · exact fun _ => decodable

end Indexing

section Runs

variable
  {collection : Collection}

/-- A call that proposes a batch takes no index away. -/
theorem isEmpty_of_propose
    {call : WriteCall}
    {proposed : Except Thrown Proposal}
    (proposes : collection.propose call = some proposed) :
    (collection.perform call).Ensures fun final =>
      IndexSet.isEmpty final.indexes =
        IndexSet.isEmpty collection.indexes := by
  rw [perform_eq proposes]
  exact ensures_attempt rfl fun proposal _ =>
    isEmpty_settle collection proposal

/-- A call that proposes a batch keeps indexed documents decodable. -/
theorem decodable_of_propose
    {call : WriteCall}
    {proposed : Except Thrown Proposal}
    (sound : collection.Sound)
    (decodable : collection.Decodable)
    (proposes : collection.propose call = some proposed) :
    (collection.perform call).Ensures Decodable := by
  rw [perform_eq proposes]
  refine ensures_attempt decodable fun proposal isProposal => ?_
  rw [isProposal] at proposes
  exact decodable_settle decodable fun notEmpty =>
    proposed_of_propose sound notEmpty proposes

/-- Every call keeps indexed documents decodable. -/
theorem decodable_perform
    (sound : collection.Sound)
    (decodable : collection.Decodable)
    (call : WriteCall) :
    (collection.perform call).Ensures Decodable := by
  cases call with
  | insertOne generated document =>
      exact decodable_of_propose sound decodable rfl
  | insertMany generated documents =>
      exact Write.ensures_map (decodable_insertMany decodable documents) _
  | updateOne filter update upserts generated =>
      exact decodable_of_propose sound decodable rfl
  | updateMany filter update upserts generated =>
      exact decodable_of_propose sound decodable rfl
  | replaceOne filter replacement upserts generated =>
      exact decodable_of_propose sound decodable rfl
  | deleteOne filter =>
      exact decodable_of_propose sound decodable rfl
  | deleteMany filter =>
      exact decodable_of_propose sound decodable rfl
  | createIndex input =>
      exact Write.ensures_map (decodable_createIndex sound decodable input) _
  | dropIndex name =>
      exact Write.ensures_map (decodable_dropIndex decodable name) _

/-- In every run, indexed documents stay decodable. -/
theorem decodable_run
    (sound : collection.Sound)
    (decodable : collection.Decodable)
    (calls : List (WriteCall × Except Thrown Unit)) :
    (collection.run calls).Decodable := by
  induction calls generalizing collection with
  | nil =>
      exact decodable
  | cons call rest inductionHypothesis =>
      exact inductionHypothesis (ensures_perform sound call.1 call.2)
        (decodable_perform sound decodable call.1 call.2)

end Runs

end Collection

end SinterDb
