import SinterDb.Storage.IndexRepresentation

namespace SinterDb

open Unicode

/-!
# Batches of changes as steps on an index

A batch of changes is a list of steps on each index, and its rollback runs the
inverse steps from the last one back.  Steps and inverse steps keep what an
index represents.
-/

/-- A step on one index. -/
inductive IndexStep where
  | add (key : JsString) (document : Document)
  | remove (key : JsString) (document : Document)
  deriving Repr, DecidableEq

namespace IndexStep

/-- The index after a step. -/
def run (index : FieldIndex) : IndexStep → FieldIndex
  | .add key document => index.add key document false
  | .remove key document => index.remove key document

/-- What undoes a step. -/
def inverse : IndexStep → IndexStep
  | .add key document => .remove key document
  | .remove key document => .add key document

/-- The documents after a step. -/
def onDocuments (documents : Documents) : IndexStep → Documents
  | .add key document => (key, document) :: documents
  | .remove key _ => documents.without key

/-- A step that makes sense for the documents that are there. -/
def Allowed (documents : Documents) : IndexStep → Prop
  | .add key document => key ∉ documents.keys ∧ document.Keyed
  | .remove key document => (key, document) ∈ documents

/-- Every step makes sense when it is taken. -/
def AllAllowed : Documents → List IndexStep → Prop
  | _, [] => True
  | documents, step :: rest =>
      step.Allowed documents ∧ AllAllowed (step.onDocuments documents) rest

end IndexStep

/-- Documents as a collection has them. -/
structure Documents.Stored (documents : Documents) : Prop where
  distinct : documents.keys.Nodup
  keyed : documents.Keyed

section Steps

variable
  {documents : Documents}
  {key : JsString}
  {document : Document}

/-- The document of a key, and the other ones. -/
theorem Documents.perm_without
    (distinct : documents.keys.Nodup)
    (member : (key, document) ∈ documents) :
    documents.Perm ((key, document) :: documents.without key) := by
  induction documents with
  | nil =>
      cases member
  | cons first rest inductionHypothesis =>
      have distinctRest := distinct
      rw [Documents.keys, List.map_cons, List.nodup_cons] at distinctRest
      rcases List.mem_cons.mp member with rfl | inRest
      · have others : Documents.without ((key, document) :: rest) key = rest := by
          unfold Documents.without
          rw [List.filter_cons_of_neg (by simp), List.filter_eq_self]
          intro entry inRest
          have other :=
            ne_of_mem_of_not_mem (List.mem_map_of_mem inRest) distinctRest.1
          simpa using other
        rw [others]
      · have different : first.1 ≠ key := by
          intro same
          exact distinctRest.1
            (List.mem_map.mpr ⟨_, inRest, same.symm⟩)
        have others :
            Documents.without (first :: rest) key =
              first :: Documents.without rest key := by
          unfold Documents.without
          rw [List.filter_cons_of_pos (by simpa using different)]
        rw [others]
        exact ((inductionHypothesis distinctRest.2 inRest).cons first).trans
          (.swap _ _ _)

/-- The key of a document that is taken out is gone. -/
theorem Documents.not_mem_without
    (documents : Documents)
    (key : JsString) :
    key ∉ (documents.without key).keys := by
  intro member
  obtain ⟨entry, inOthers, rfl⟩ := List.mem_map.mp member
  have different := (List.mem_filter.mp inOthers).2
  simp at different

/-- Documents that are taken out leave stored documents. -/
theorem Documents.Stored.without
    (stored : documents.Stored)
    (key : JsString) :
    (documents.without key).Stored :=
  ⟨stored.distinct.sublist (List.filter_sublist.map _),
    fun entry member => stored.keyed entry (List.mem_of_mem_filter member)⟩

/-- A new document among stored ones. -/
theorem Documents.Stored.cons
    (stored : documents.Stored)
    (fresh : key ∉ documents.keys)
    (keyed : document.Keyed) :
    Documents.Stored ((key, document) :: documents) :=
  ⟨List.nodup_cons.mpr ⟨fresh, stored.distinct⟩,
    List.forall_mem_cons.mpr ⟨keyed, stored.keyed⟩⟩

/-- A step keeps the documents stored. -/
theorem IndexStep.stored
    {step : IndexStep}
    (stored : documents.Stored)
    (allowed : step.Allowed documents) :
    (step.onDocuments documents).Stored := by
  cases step with
  | add key document =>
      exact stored.cons allowed.1 allowed.2
  | remove key document =>
      exact stored.without key

/-- A step keeps what an index represents. -/
theorem IndexStep.represents
    {step : IndexStep}
    {index : FieldIndex}
    (stored : documents.Stored)
    (allowed : step.Allowed documents)
    (represents : index.Represents documents) :
    (step.run index).Represents (step.onDocuments documents) := by
  cases step with
  | add key document =>
      exact FieldIndex.represents_add represents stored.keyed allowed.2
        allowed.1
  | remove key document =>
      have perm := Documents.perm_without stored.distinct allowed
      have keyed : Documents.Keyed
          ((key, document) :: documents.without key) :=
        fun entry member => stored.keyed entry (perm.mem_iff.mpr member)
      exact FieldIndex.represents_remove (represents.perm perm) keyed
        (documents.not_mem_without key)

/-- The inverse of a step makes sense after it, and leads back. -/
theorem IndexStep.inverse_spec
    {step : IndexStep}
    (stored : documents.Stored)
    (allowed : step.Allowed documents) :
    step.inverse.Allowed (step.onDocuments documents) ∧
      (step.inverse.onDocuments (step.onDocuments documents)).Perm
        documents := by
  cases step with
  | add key document =>
      refine ⟨List.mem_cons_self, ?_⟩
      have added := stored.cons allowed.1 allowed.2
      have perm :=
        Documents.perm_without added.distinct
          (List.mem_cons_self (a := (key, document)) (l := documents))
      exact (perm.cons_inv).symm
  | remove key document =>
      refine ⟨⟨documents.not_mem_without key, stored.keyed _ allowed⟩, ?_⟩
      exact (Documents.perm_without stored.distinct allowed).symm

/-- Steps keep what an index represents. -/
theorem represents_steps
    {steps : List IndexStep}
    {index : FieldIndex}
    (stored : documents.Stored)
    (allowed : IndexStep.AllAllowed documents steps)
    (represents : index.Represents documents) :
    (steps.foldl IndexStep.run index).Represents
      (steps.foldl IndexStep.onDocuments documents) := by
  induction steps generalizing documents index with
  | nil =>
      exact represents
  | cons step rest inductionHypothesis =>
      exact inductionHypothesis (IndexStep.stored stored allowed.1) allowed.2
        (IndexStep.represents stored allowed.1 represents)

/-- The inverse steps, from the last one back, undo what an index
represents. -/
theorem represents_inverse
    {steps : List IndexStep}
    {index : FieldIndex}
    (stored : documents.Stored)
    (allowed : IndexStep.AllAllowed documents steps)
    (represents :
      index.Represents (steps.foldl IndexStep.onDocuments documents)) :
    ((steps.map IndexStep.inverse).reverse.foldl IndexStep.run
      index).Represents documents := by
  induction steps generalizing documents index with
  | nil =>
      exact represents
  | cons step rest inductionHypothesis =>
      have storedThen := IndexStep.stored stored allowed.1
      have back :=
        inductionHypothesis storedThen allowed.2 represents
      obtain ⟨allowedBack, perm⟩ := IndexStep.inverse_spec stored allowed.1
      rw [List.map_cons, List.reverse_cons, List.foldl_append]
      exact (IndexStep.represents storedThen allowedBack back).perm perm

end Steps

/-- A batch of changes of stored documents. -/
structure Batch
    (documents : Documents)
    (changes : List DocumentChange) : Prop where
  distinct : (changes.map DocumentChange.key).Nodup
  before :
    ∀ change ∈ changes, ∀ document,
      change.before = some document ↔ (change.key, document) ∈ documents
  keyed :
    ∀ change ∈ changes, ∀ after, change.after = some after → after.Keyed

/-- The documents of a batch that are stored by it. -/
def written (changes : List DocumentChange) : Documents :=
  changes.filterMap fun change =>
    change.after.map fun after => (change.key, after)

/-- The documents after a batch. -/
def Documents.changed
    (documents : Documents)
    (changes : List DocumentChange) : Documents :=
  written changes ++
    documents.filter fun entry =>
      decide (entry.1 ∉ changes.map DocumentChange.key)

/-- The step that removes the document of a change. -/
def removeStep (change : DocumentChange) : Option IndexStep :=
  change.before.map fun before => .remove change.key before

/-- The step that adds the document of a change. -/
def addStep (change : DocumentChange) : Option IndexStep :=
  change.after.map fun after => .add change.key after

section Batches

variable
  {documents : Documents}
  {changes : List DocumentChange}

/-- The steps of two lists make sense one after the other. -/
theorem allAllowed_append
    {first second : List IndexStep} :
    IndexStep.AllAllowed documents (first ++ second) ↔
      IndexStep.AllAllowed documents first ∧
        IndexStep.AllAllowed (first.foldl IndexStep.onDocuments documents)
          second := by
  induction first generalizing documents with
  | nil =>
      simp [IndexStep.AllAllowed]
  | cons step rest inductionHypothesis =>
      simp [IndexStep.AllAllowed, inductionHypothesis, and_assoc]

/-- The documents that a batch leaves before its additions. -/
theorem onDocuments_removals
    (documents : Documents)
    (changes : List DocumentChange) :
    (changes.filterMap removeStep).foldl IndexStep.onDocuments documents =
      documents.filter fun entry =>
        decide (∀ change ∈ changes, change.before ≠ none →
          entry.1 ≠ change.key) := by
  induction changes generalizing documents with
  | nil =>
      simp
  | cons change rest inductionHypothesis =>
      cases isBefore : change.before with
      | none =>
          have noStep : removeStep change = none := by
            simp [removeStep, isBefore]
          rw [List.filterMap_cons_none noStep, inductionHypothesis]
          simp [isBefore]
      | some before =>
          have isStep :
              removeStep change = some (.remove change.key before) := by
            simp [removeStep, isBefore]
          rw [List.filterMap_cons_some isStep, List.foldl_cons,
            inductionHypothesis]
          simp only [IndexStep.onDocuments, Documents.without,
            List.filter_filter]
          apply List.filter_congr
          intro entry _
          simp [isBefore, Bool.and_comm, beq_eq_decide]

/-- The removals of a batch make sense. -/
theorem allAllowed_removals
    (distinct : (changes.map DocumentChange.key).Nodup)
    (before :
      ∀ change ∈ changes, ∀ document,
        change.before = some document → (change.key, document) ∈ documents) :
    IndexStep.AllAllowed documents (changes.filterMap removeStep) := by
  induction changes generalizing documents with
  | nil =>
      trivial
  | cons change rest inductionHypothesis =>
      rw [List.map_cons, List.nodup_cons] at distinct
      obtain ⟨own, others⟩ := List.forall_mem_cons.mp before
      cases isBefore : change.before with
      | none =>
          have noStep : removeStep change = none := by
            simp [removeStep, isBefore]
          rw [List.filterMap_cons_none noStep]
          exact inductionHypothesis distinct.2 others
      | some document =>
          have isStep :
              removeStep change = some (.remove change.key document) := by
            simp [removeStep, isBefore]
          rw [List.filterMap_cons_some isStep]
          refine ⟨own document isBefore, inductionHypothesis distinct.2 ?_⟩
          intro other member earlier isEarlier
          refine List.mem_filter.mpr
            ⟨others other member earlier isEarlier, ?_⟩
          have different : other.key ≠ change.key :=
            ne_of_mem_of_not_mem (List.mem_map_of_mem member) distinct.1
          simpa using different

/-- The documents after the additions of a batch. -/
theorem onDocuments_additions
    (documents : Documents)
    (changes : List DocumentChange) :
    (changes.filterMap addStep).foldl IndexStep.onDocuments documents =
      (written changes).reverse ++ documents := by
  induction changes generalizing documents with
  | nil =>
      rfl
  | cons change rest inductionHypothesis =>
      unfold written at inductionHypothesis ⊢
      cases isAfter : change.after with
      | none =>
          simpa [addStep, isAfter] using inductionHypothesis documents
      | some after =>
          have later :=
            inductionHypothesis ((change.key, after) :: documents)
          simpa [addStep, isAfter, IndexStep.onDocuments] using later

/-- The additions of a batch make sense. -/
theorem allAllowed_additions
    (distinct : (changes.map DocumentChange.key).Nodup)
    (keyed :
      ∀ change ∈ changes, ∀ after, change.after = some after → after.Keyed)
    (fresh : ∀ change ∈ changes, change.key ∉ documents.keys) :
    IndexStep.AllAllowed documents (changes.filterMap addStep) := by
  induction changes generalizing documents with
  | nil =>
      trivial
  | cons change rest inductionHypothesis =>
      rw [List.map_cons, List.nodup_cons] at distinct
      obtain ⟨ownKeyed, othersKeyed⟩ := List.forall_mem_cons.mp keyed
      obtain ⟨ownFresh, othersFresh⟩ := List.forall_mem_cons.mp fresh
      cases isAfter : change.after with
      | none =>
          have noStep : addStep change = none := by simp [addStep, isAfter]
          rw [List.filterMap_cons_none noStep]
          exact inductionHypothesis distinct.2 othersKeyed othersFresh
      | some after =>
          have isStep : addStep change = some (.add change.key after) := by
            simp [addStep, isAfter]
          rw [List.filterMap_cons_some isStep]
          refine ⟨⟨ownFresh, ownKeyed after isAfter⟩,
            inductionHypothesis distinct.2 othersKeyed ?_⟩
          intro other member
          have different : other.key ≠ change.key :=
            ne_of_mem_of_not_mem (List.mem_map_of_mem member) distinct.1
          simp only [IndexStep.onDocuments, Documents.keys, List.map_cons,
            List.mem_cons, not_or]
          exact ⟨different, othersFresh other member⟩

/-- The documents that a batch leaves before its additions are those that it
is not about. -/
theorem onDocuments_removals_batch
    (batch : Batch documents changes) :
    (changes.filterMap removeStep).foldl IndexStep.onDocuments documents =
      documents.filter fun entry =>
        decide (entry.1 ∉ changes.map DocumentChange.key) := by
  rw [onDocuments_removals]
  apply List.filter_congr
  intro entry member
  rw [decide_eq_decide]
  constructor
  · intro others inKeys
    obtain ⟨change, inChanges, isKey⟩ := List.mem_map.mp inKeys
    refine others change inChanges ?_ isKey.symm
    have present : (change.key, entry.2) ∈ documents := by
      rw [isKey]
      exact member
    rw [(batch.before change inChanges entry.2).mpr present]
    simp
  · intro notInKeys change inChanges _ same
    exact notInKeys (List.mem_map.mpr ⟨change, inChanges, same.symm⟩)

/-- A batch without some of its last additions makes sense. -/
theorem allAllowed_batch
    (batch : Batch documents changes)
    (count : Nat) :
    IndexStep.AllAllowed documents
      (changes.filterMap removeStep ++
        (changes.take count).filterMap addStep) := by
  refine allAllowed_append.mpr
    ⟨allAllowed_removals batch.distinct fun change member document =>
      (batch.before change member document).mp, ?_⟩
  have sublist := List.take_sublist count changes
  refine allAllowed_additions (batch.distinct.sublist (sublist.map _))
    (fun change member => batch.keyed change (sublist.subset member)) ?_
  intro change member present
  rw [onDocuments_removals_batch batch] at present
  obtain ⟨entry, inRest, isKey⟩ := List.mem_map.mp present
  have notInKeys := of_decide_eq_true (List.mem_filter.mp inRest).2
  rw [isKey] at notInKeys
  exact notInKeys (List.mem_map_of_mem (sublist.subset member))

/-- The documents after a whole batch. -/
theorem onDocuments_batch
    (batch : Batch documents changes) :
    ((changes.filterMap removeStep ++ changes.filterMap addStep).foldl
      IndexStep.onDocuments documents).Perm (documents.changed changes) := by
  rw [List.foldl_append, onDocuments_removals_batch batch,
    onDocuments_additions]
  exact (List.reverse_perm _).append_right _

/-- Steps that make sense keep documents stored. -/
theorem stored_steps
    {steps : List IndexStep}
    (stored : documents.Stored)
    (allowed : IndexStep.AllAllowed documents steps) :
    Documents.Stored (steps.foldl IndexStep.onDocuments documents) := by
  induction steps generalizing documents with
  | nil =>
      exact stored
  | cons step rest inductionHypothesis =>
      exact inductionHypothesis (IndexStep.stored stored allowed.1) allowed.2

/-- Being stored does not depend on the order of the documents. -/
theorem Documents.Stored.perm
    {other : Documents}
    (stored : documents.Stored)
    (perm : documents.Perm other) :
    other.Stored :=
  ⟨(perm.map Prod.fst).nodup_iff.mp stored.distinct,
    fun entry member => stored.keyed entry (perm.mem_iff.mpr member)⟩

/-- A batch leaves stored documents. -/
theorem stored_changed
    (stored : documents.Stored)
    (batch : Batch documents changes) :
    (documents.changed changes).Stored := by
  have allowed := allAllowed_batch batch changes.length
  rw [List.take_length] at allowed
  exact (stored_steps stored allowed).perm (onDocuments_batch batch)

end Batches

end SinterDb
