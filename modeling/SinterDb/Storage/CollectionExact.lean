import SinterDb.Storage.ProposalBatch
import SinterDb.Storage.Uniqueness

namespace SinterDb

open Unicode

/-!
# Indexes that hold exactly the documents

While a collection has indexes, all of its documents can be decoded, and every
index represents them and allows them together.  A write that throws leaves
both as they were.
-/

namespace Collection

/-- The indexes hold exactly the stored documents. -/
structure Exact (collection : Collection) : Prop extends
    Sound collection where
  decodes :
    IndexSet.isEmpty collection.indexes = false →
      AllDecode collection.documents.entries
  represents : collection.indexes.Represents collection.decoded
  distinguishes : collection.indexes.Distinguishes collection.decoded

/-- Nothing but the order inside of the indexes is different. -/
structure Same (collection final : Collection) : Prop where
  documents : final.documents = collection.documents
  definitions :
    IndexSet.SameDefinitions collection.indexes final.indexes
  represents : final.indexes.Represents collection.decoded

/-- A new collection has exact indexes. -/
theorem exact_empty : empty.Exact :=
  ⟨sound_empty, by decide, IndexSet.represents_of_isEmpty rfl _,
    IndexSet.distinguishes_of_isEmpty rfl _⟩

section Basic

variable
  {collection final : Collection}

/-- A collection with exact indexes is the same as itself. -/
theorem Exact.same
    (isExact : collection.Exact) :
    collection.Same collection :=
  ⟨rfl, ⟨rfl, fun _ => rfl⟩, isExact.represents⟩

/-- The decoded documents depend only on the documents. -/
theorem decoded_congr
    (same : final.documents = collection.documents) :
    final.decoded = collection.decoded := by
  unfold decoded
  rw [same]

/-- Sets of the same indexes are empty together. -/
theorem isEmpty_of_definitions
    {set other : IndexSet}
    (definitions : IndexSet.SameDefinitions set other) :
    IndexSet.isEmpty other = IndexSet.isEmpty set :=
  isEmpty_congr definitions.keys

/-- What is the same has exact indexes, too. -/
theorem Same.exact
    (same : collection.Same final)
    (isExact : collection.Exact)
    (sound : final.Sound) :
    final.Exact := by
  refine ⟨sound, ?_, ?_, ?_⟩
  · intro notEmpty
    rw [same.documents]
    exact isExact.decodes (isEmpty_of_definitions same.definitions ▸ notEmpty)
  · rw [decoded_congr same.documents]
    exact same.represents
  · rw [decoded_congr same.documents]
    exact same.definitions.distinguishes isExact.distinguishes

/-- Carrying out operations leaves the indexes alone. -/
theorem carryOut_indexes
    (collection : Collection)
    (operations : List JournalOperation) :
    (collection.carryOut operations).indexes = collection.indexes := by
  unfold carryOut
  induction operations generalizing collection with
  | nil =>
      rfl
  | cons operation rest inductionHypothesis =>
      rw [List.foldl_cons, inductionHypothesis]
      cases operation with
      | put key encoded =>
          exact put_indexes collection key encoded
      | delete key =>
          rfl
      | createIndex spec =>
          rfl
      | dropIndex name =>
          rfl

/-- What operations do to the documents depends only on the documents. -/
theorem carryOut_documents_congr
    (same : final.documents = collection.documents)
    (operations : List JournalOperation) :
    (final.carryOut operations).documents =
      (collection.carryOut operations).documents := by
  unfold carryOut
  induction operations generalizing collection final with
  | nil =>
      exact same
  | cons operation rest inductionHypothesis =>
      rw [List.foldl_cons, List.foldl_cons]
      apply inductionHypothesis
      cases operation with
      | put key encoded =>
          simp only [JournalOperation.carryOut, put_documents, same]
      | delete key =>
          simp only [JournalOperation.carryOut, remove, same]
      | createIndex spec =>
          exact same
      | dropIndex name =>
          exact same

end Basic

/-- How the settling of a proposal ends. -/
inductive Settled
    (collection : Collection)
    (proposal : Proposal)
    (final : Collection) : Except Thrown WriteResult → Prop where
  | thrown
      (error : Thrown)
      (same : collection.Same final) :
      Settled collection proposal final (.error error)
  | done
      (documents :
        final.documents =
          (collection.carryOut proposal.operations).documents)
      (definitions :
        IndexSet.SameDefinitions collection.indexes final.indexes)
      (represents : final.indexes.Represents final.decoded)
      (distinguishes : final.indexes.Distinguishes final.decoded)
      (decodes :
        IndexSet.isEmpty collection.indexes = false →
          AllDecode final.documents.entries) :
      Settled collection proposal final (.ok proposal.result)

section Settling

variable
  {collection tracked final : Collection}
  {proposal : Proposal}
  {undo : List UndoStep}

/-- The indexes and documents after an accepted batch. -/
theorem settled_done
    (isExact : collection.Exact)
    (proposed :
      IndexSet.isEmpty collection.indexes = false →
        collection.Proposed proposal)
    (tracks :
      collection.trackChanges proposal.changes = (tracked, .ok undo)) :
    Settled collection proposal (tracked.carryOut proposal.operations)
      (.ok proposal.result) := by
  obtain ⟨shape, applies⟩ := trackChanges_eq tracks
  have definitions :=
    IndexSet.sameDefinitions_applyChanges collection.indexes proposal.changes
  rw [applies] at definitions
  have sameDocuments : tracked.documents = collection.documents := by
    rw [shape]
  have documents :=
    carryOut_documents_congr sameDocuments proposal.operations
  have indexes := carryOut_indexes tracked proposal.operations
  cases empty : IndexSet.isEmpty collection.indexes with
  | true =>
      have finalEmpty :
          IndexSet.isEmpty
            (tracked.carryOut proposal.operations).indexes = true := by
        rw [indexes, isEmpty_of_definitions definitions, empty]
      refine .done documents ?_
        (IndexSet.represents_of_isEmpty finalEmpty _)
        (IndexSet.distinguishes_of_isEmpty finalEmpty _) ?_
      · rw [indexes]
        exact definitions
      · intro notEmpty
        rw [empty] at notEmpty
        cases notEmpty
  | false =>
      obtain ⟨batch, fits⟩ := proposed empty
      have fits := fits.congr documents
      have perm := (fits.perm isExact.toSound batch).symm
      have allowed :=
        (IndexSet.applyChanges_isOk_iff isExact.stored_decoded
          isExact.represents isExact.distinguishes batch).mp (by
            rw [applies]
            rfl)
      refine .done documents ?_ ?_ ?_ ?_
      · rw [indexes]
        exact definitions
      · intro name index found
        rw [indexes] at found
        exact (IndexSet.represents_changed isExact.stored_decoded
          isExact.represents batch applies name index found).perm perm
      · rw [indexes]
        exact definitions.distinguishes (allowed.perm perm)
      · exact fun _ => fits.allDecode (isExact.decodes empty)

/-- A batch that is rolled back. -/
theorem same_rollback
    (isExact : collection.Exact)
    (proposed :
      IndexSet.isEmpty collection.indexes = false →
        collection.Proposed proposal)
    (tracks :
      collection.trackChanges proposal.changes = (tracked, .ok undo)) :
    collection.Same (tracked.rollback undo) := by
  obtain ⟨shape, applies⟩ := trackChanges_eq tracks
  have definitions :=
    IndexSet.sameDefinitions_applyChanges collection.indexes proposal.changes
  rw [applies] at definitions
  have back :=
    definitions.trans (IndexSet.sameDefinitions_rollback undo tracked.indexes)
  refine ⟨?_, back, ?_⟩
  · unfold rollback
    rw [shape]
  · cases empty : IndexSet.isEmpty collection.indexes with
    | true =>
        refine IndexSet.represents_of_isEmpty ?_ _
        exact (isEmpty_of_definitions back).trans empty
    | false =>
        obtain ⟨batch, -⟩ := proposed empty
        exact IndexSet.represents_undo isExact.stored_decoded batch applies
          definitions.keys
          (IndexSet.represents_changed isExact.stored_decoded
            isExact.represents batch applies)

/-- A batch that an index refuses. -/
theorem same_refused
    {error : Thrown}
    (isExact : collection.Exact)
    (proposed :
      IndexSet.isEmpty collection.indexes = false →
        collection.Proposed proposal)
    (tracks :
      collection.trackChanges proposal.changes = (tracked, .error error)) :
    collection.Same tracked := by
  obtain ⟨shape, applies⟩ := trackChanges_eq tracks
  have definitions :=
    IndexSet.sameDefinitions_applyChanges collection.indexes proposal.changes
  rw [applies] at definitions
  refine ⟨by rw [shape], definitions, ?_⟩
  cases empty : IndexSet.isEmpty collection.indexes with
  | true =>
      refine IndexSet.represents_of_isEmpty ?_ _
      exact (isEmpty_of_definitions definitions).trans empty
  | false =>
      obtain ⟨batch, -⟩ := proposed empty
      exact IndexSet.represents_refused isExact.stored_decoded
        isExact.represents batch applies

/-- Every proposal is settled. -/
theorem settled_settle
    (isExact : collection.Exact)
    (proposed :
      IndexSet.isEmpty collection.indexes = false →
        collection.Proposed proposal)
    (answer : Except Thrown Unit) :
    Settled collection proposal
      ((collection.settle proposal).run answer).1
      ((collection.settle proposal).run answer).2 := by
  unfold settle trackAndCommit
  cases tracks : collection.trackChanges proposal.changes with
  | mk tracked tracking =>
      cases tracking with
      | error error =>
          exact .thrown error (same_refused isExact proposed tracks)
      | ok undo =>
          have done := settled_done isExact proposed tracks
          simp only
          unfold commit
          split_ifs with noOperations
          · exact done
          · cases answer with
            | error error =>
                exact .thrown error (same_rollback isExact proposed tracks)
            | ok _ =>
                exact done

/-- A call that proposes a batch throws and changes nothing, or settles it. -/
theorem settled_perform
    {call : WriteCall}
    {proposed : Except Thrown Proposal}
    (isExact : collection.Exact)
    (proposes : collection.propose call = some proposed)
    (answer : Except Thrown Unit) :
    (∃ error, proposed = .error error ∧
        (collection.perform call).run answer = (collection, .error error)) ∨
      ∃ proposal, proposed = .ok proposal ∧
        Settled collection proposal
          ((collection.perform call).run answer).1
          ((collection.perform call).run answer).2 := by
  rw [perform_eq proposes]
  cases proposed with
  | error error =>
      exact .inl ⟨error, rfl, rfl⟩
  | ok proposal =>
      refine .inr ⟨proposal, rfl, settled_settle isExact ?_ answer⟩
      exact fun notEmpty =>
        proposed_of_propose isExact.toSound notEmpty proposes

/-- A settled proposal leaves exact indexes. -/
theorem Settled.exact
    {result : Except Thrown WriteResult}
    (settled : Settled collection proposal final result)
    (isExact : collection.Exact)
    (sound : final.Sound) :
    final.Exact := by
  cases settled with
  | thrown error same =>
      exact same.exact isExact sound
  | done documents definitions represents distinguishes decodes =>
      refine ⟨sound, fun notEmpty => decodes ?_, represents, distinguishes⟩
      rw [← isEmpty_of_definitions definitions]
      exact notEmpty

end Settling

end Collection

end SinterDb
