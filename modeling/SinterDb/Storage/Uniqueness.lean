import SinterDb.Storage.LookupAgreement

namespace SinterDb

open Unicode

/-!
# What a unique index accepts

An index that lists exactly the documents finds a conflict for another document
if and only if one of them has the same value.  So a batch is accepted if and
only if no two documents of its outcome have the same value.
-/

namespace IndexSpec

/-- Two documents that the index does not allow together. -/
def Clashes (spec : IndexSpec) (left right : Document) : Prop :=
  spec.unique = true ∧
    match resolveField left (splitPath spec.field),
        resolveField right (splitPath spec.field) with
    | some leftValue, some rightValue =>
        canonicalKey leftValue = canonicalKey rightValue
    | none, none => spec.sparse = false
    | _, _ => False

/-- The index allows the documents together. -/
def Distinguishes (spec : IndexSpec) (documents : Documents) : Prop :=
  documents.Pairwise fun left right => ¬ spec.Clashes left.2 right.2

section Clashing

variable
  {spec : IndexSpec}
  {documents other : Documents}

/-- Clashes are mutual. -/
theorem clashes_comm
    {left right : Document} :
    spec.Clashes left right ↔ spec.Clashes right left := by
  unfold Clashes
  refine and_congr_right fun _ => ?_
  cases resolveField left (splitPath spec.field) with
  | none =>
      cases resolveField right (splitPath spec.field) <;> exact Iff.rfl
  | some leftValue =>
      cases resolveField right (splitPath spec.field) with
      | none =>
          exact Iff.rfl
      | some rightValue =>
          exact eq_comm

/-- Being allowed together is mutual. -/
instance symm_not_clashes
    (spec : IndexSpec) :
    Std.Symm fun left right : JsString × Document =>
      ¬ spec.Clashes left.2 right.2 :=
  ⟨fun _ _ allowed clashes => allowed (clashes_comm.mp clashes)⟩

/-- Different documents among those that are allowed together. -/
theorem Distinguishes.not_clashes
    (distinguishes : spec.Distinguishes documents)
    {left right : JsString × Document}
    (inLeft : left ∈ documents)
    (inRight : right ∈ documents)
    (different : left ≠ right) :
    ¬ spec.Clashes left.2 right.2 := by
  exact distinguishes.forall inLeft inRight different

/-- Some of the documents are allowed together, too. -/
theorem Distinguishes.mono
    (distinguishes : spec.Distinguishes documents)
    (distinct : other.keys.Nodup)
    (included : ∀ entry ∈ other, entry ∈ documents) :
    spec.Distinguishes other := by
  refine (distinct.of_map _).pairwise_of_forall_ne ?_
  intro left inLeft right inRight different
  exact distinguishes.not_clashes (included left inLeft)
    (included right inRight) different

/-- The order of the documents does not matter. -/
theorem Distinguishes.perm
    (distinguishes : spec.Distinguishes documents)
    (perm : documents.Perm other) :
    spec.Distinguishes other := by
  refine perm.pairwise distinguishes ?_
  exact fun allowed clashes => allowed (clashes_comm.mp clashes)

end Clashing

end IndexSpec

namespace FieldIndex

/-- There is a conflict when its condition holds. -/
theorem exists_conflict_iff
    {condition : Bool}
    {conflict : IndexConflict} :
    (∃ found, (if condition then some conflict else none) = some found) ↔
      condition = true := by
  cases condition <;> simp

/-- Some document holds a value. -/
theorem holders_any
    {segments : List JsString}
    {documents : Documents}
    {key : Option Bytes}
    {docKey : JsString}
    (fresh : docKey ∉ documents.keys) :
    (Documents.keys (documents.filter fun entry =>
        listingKey segments entry.2 = key)).any
        (fun other => !(other == docKey)) = true ↔
      ∃ entry ∈ documents, listingKey segments entry.2 = key := by
  rw [List.any_eq_true]
  constructor
  · rintro ⟨other, member, -⟩
    obtain ⟨entry, inDocuments, -⟩ := List.mem_map.mp member
    obtain ⟨inDocuments, isKey⟩ := List.mem_filter.mp inDocuments
    exact ⟨entry, inDocuments, of_decide_eq_true isKey⟩
  · rintro ⟨entry, inDocuments, isKey⟩
    refine ⟨entry.1, List.mem_map.mpr
      ⟨entry, List.mem_filter.mpr ⟨inDocuments, decide_eq_true isKey⟩, rfl⟩,
      ?_⟩
    have different : entry.1 ≠ docKey :=
      ne_of_mem_of_not_mem (List.mem_map_of_mem inDocuments) fresh
    simpa using different

/-- An index that lists the documents finds a conflict exactly when one of
them clashes. -/
theorem Lists.conflictFor_iff
    {index : FieldIndex}
    {documents : Documents}
    {docKey : JsString}
    {document : Document}
    (lists : index.Lists documents)
    (fresh : docKey ∉ documents.keys) :
    (∃ conflict, index.conflictFor docKey document = some conflict) ↔
      ∃ entry ∈ documents, index.spec.Clashes entry.2 document := by
  rw [conflictFor_eq]
  by_cases unique : index.spec.unique = true
  · simp only [unique, Bool.not_true, Bool.false_eq_true, if_false]
    cases found : resolveField document index.segments with
    | none =>
        have clashes :
            ∀ entry : JsString × Document,
              index.spec.Clashes entry.2 document ↔
                index.spec.sparse = false ∧
                  listingKey index.segments entry.2 = none := by
          intro entry
          unfold IndexSpec.Clashes listingKey
          rw [show splitPath index.spec.field = index.segments from rfl, found]
          cases resolveField entry.2 index.segments <;> simp [unique]
        simp only [clashes]
        cases sparse : index.spec.sparse with
        | true =>
            simp
        | false =>
            have isMissing := lists.missing
            rw [sparse] at isMissing
            simp only [Bool.not_false, Bool.true_and, true_and]
            rw [any_congr isMissing.mem_iff.symm, exists_conflict_iff]
            exact holders_any fresh
    | some value =>
        have clashes :
            ∀ entry : JsString × Document,
              index.spec.Clashes entry.2 document ↔
                listingKey index.segments entry.2 =
                  some (canonicalKey value) := by
          intro entry
          unfold IndexSpec.Clashes listingKey
          rw [show splitPath index.spec.field = index.segments from rfl, found]
          cases resolveField entry.2 index.segments <;> simp [unique]
        simp only [clashes]
        rw [any_congr (lists.byValue (canonicalKey value)).mem_iff.symm,
          exists_conflict_iff]
        exact holders_any fresh
  · have noClash :
        ∀ entry : JsString × Document,
          ¬ index.spec.Clashes entry.2 document :=
      fun entry clashes => unique clashes.1
    simp [unique, noClash]

end FieldIndex

namespace IndexSet

/-- Every index allows the documents together. -/
def Distinguishes (set : IndexSet) (documents : Documents) : Prop :=
  ∀ name index, set.get? name = some index →
    index.spec.Distinguishes documents

/-- Without indexes all documents are allowed together. -/
theorem distinguishes_of_isEmpty
    {set : IndexSet}
    (empty : set.isEmpty = true)
    (documents : Documents) :
    set.Distinguishes documents := by
  intro name index found
  have noKeys : set.keys = [] := by
    simpa [isEmpty, JsMap.size, JsMap.keys] using empty
  have present := mem_keys_of_get? found
  rw [noKeys] at present
  cases present

/-- What is allowed together depends only on the definitions. -/
theorem SameDefinitions.distinguishes
    {set other : IndexSet}
    {documents : Documents}
    (definitions : SameDefinitions set other)
    (distinguishes : set.Distinguishes documents) :
    other.Distinguishes documents := by
  intro name index found
  have specs := definitions.spec name
  rw [found] at specs
  obtain ⟨own, isOwn, isSpec⟩ := Option.map_eq_some_iff.mp specs.symm
  rw [← isSpec]
  exact distinguishes name own isOwn

/-- Definitions are the same both ways. -/
theorem SameDefinitions.symm
    {set other : IndexSet}
    (definitions : SameDefinitions set other) :
    SameDefinitions other set :=
  ⟨definitions.keys.symm, fun name => (definitions.spec name).symm⟩

/-- The order of the documents does not matter. -/
theorem Distinguishes.perm
    {set : IndexSet}
    {documents other : Documents}
    (distinguishes : set.Distinguishes documents)
    (perm : documents.Perm other) :
    set.Distinguishes other := fun name index found =>
  (distinguishes name index found).perm perm

/-- The documents while the additions of a batch are made. -/
def adding
    (documents : Documents)
    (changes front : List DocumentChange) : Documents :=
  (changes.filterMap removeStep ++ front.filterMap addStep).foldl
    IndexStep.onDocuments documents

section Batches

variable
  {set changed : IndexSet}
  {documents : Documents}
  {changes front back : List DocumentChange}
  {change : DocumentChange}
  {name : JsString}
  {index : FieldIndex}

/-- The additions of a first part of a batch make sense. -/
theorem allAllowed_front
    (batch : Batch documents changes)
    (isSplit : changes = front ++ back) :
    IndexStep.AllAllowed documents
      (changes.filterMap removeStep ++ front.filterMap addStep) := by
  have allowed := allAllowed_batch batch front.length
  rwa [show changes.take front.length = front by simp [isSplit]] at allowed

/-- The next document to add. -/
theorem adding_snoc
    {after : Document}
    (isAfter : change.after = some after) :
    adding documents changes (front ++ [change]) =
      (change.key, after) :: adding documents changes front := by
  have isStep : addStep change = some (.add change.key after) := by
    simp [addStep, isAfter]
  unfold adding
  rw [List.filterMap_append, ← List.append_assoc, List.foldl_append]
  simp [isStep, IndexStep.onDocuments]

/-- The next document to add has a new key. -/
theorem fresh_adding
    {after : Document}
    (batch : Batch documents changes)
    (isSplit : changes = front ++ change :: back)
    (isAfter : change.after = some after) :
    change.key ∉ (adding documents changes front).keys := by
  have isStep : addStep change = some (.add change.key after) := by
    simp [addStep, isAfter]
  have allowed :=
    @allAllowed_front documents changes (front ++ [change]) back batch
      (by simp [isSplit])
  rw [List.filterMap_append, ← List.append_assoc, allAllowed_append]
    at allowed
  have last := allowed.2
  simp only [List.filterMap_cons, isStep, List.filterMap_nil] at last
  exact last.1.1

/-- An index refuses the next document exactly when it clashes. -/
theorem refuses_iff
    {after : Document}
    (stored : documents.Stored)
    (represents : Represents set documents)
    (batch : Batch documents changes)
    (isSplit : changes = front ++ change :: back)
    (isAfter : change.after = some after)
    (found : set.get? name = some index) :
    (∃ conflict,
      Refuses
        (stepped set
          (fun _ => changes.filterMap removeStep ++
            front.filterMap addStep) name)
        change.key after conflict) ↔
      ∃ entry ∈ adding documents changes front,
        index.spec.Clashes entry.2 after := by
  have lists :=
    (represents_steps stored (allAllowed_front batch isSplit)
      (represents name index found)).toLists
  have conflicts :=
    @FieldIndex.Lists.conflictFor_iff _ _ change.key after lists
      (fresh_adding batch isSplit isAfter)
  rw [foldl_run_spec] at conflicts
  unfold adding
  rw [← conflicts]
  refine exists_congr fun conflict => ?_
  unfold Refuses stepped
  rw [found]
  simp

/-- When nothing is refused, the documents are allowed together. -/
theorem distinguishes_adding
    (stored : documents.Stored)
    (represents : Represents set documents)
    (batch : Batch documents changes)
    (found : set.get? name = some index)
    (distinguishes : index.spec.Distinguishes documents)
    (accepts :
      ∀ front change back after, changes = front ++ change :: back →
        change.after = some after → ∀ conflict,
          ¬ Refuses
            (stepped set
              (fun _ => changes.filterMap removeStep ++
                front.filterMap addStep) name)
            change.key after conflict)
    (isSplit : changes = front ++ back) :
    index.spec.Distinguishes (adding documents changes front) := by
  induction front using List.reverseRecOn generalizing back with
  | nil =>
      have removed :
          adding documents changes [] =
            documents.filter fun entry =>
              decide (entry.1 ∉ changes.map DocumentChange.key) := by
        unfold adding
        rw [List.filterMap_nil, List.append_nil]
        exact onDocuments_removals_batch batch
      rw [removed]
      exact distinguishes.sublist List.filter_sublist
  | append_singleton front change inductionHypothesis =>
      have isSplit : changes = front ++ change :: back := by
        simpa using isSplit
      have earlier := inductionHypothesis isSplit
      cases isAfter : change.after with
      | none =>
          have same :
              adding documents changes (front ++ [change]) =
                adding documents changes front := by
            simp [adding, addStep, isAfter]
          rw [same]
          exact earlier
      | some after =>
          rw [adding_snoc isAfter]
          refine List.pairwise_cons.mpr ⟨?_, earlier⟩
          intro entry member clashes
          obtain ⟨conflict, refuses⟩ :=
            (refuses_iff stored represents batch isSplit isAfter found).mpr
              ⟨entry, member, IndexSpec.clashes_comm.mp clashes⟩
          exact accepts front change back after isSplit isAfter conflict
            refuses

/-- A document that is there while a batch is made stays until its end. -/
theorem mem_changed_of_adding
    (batch : Batch documents changes)
    (isSplit : changes = front ++ back)
    {entry : JsString × Document}
    (member : entry ∈ adding documents changes front) :
    entry ∈ documents.changed changes := by
  refine (onDocuments_batch batch).mem_iff.mp ?_
  have parts :
      changes.filterMap removeStep ++ changes.filterMap addStep =
        (changes.filterMap removeStep ++ front.filterMap addStep) ++
          back.filterMap addStep := by
    rw [List.append_assoc, ← List.filterMap_append, ← isSplit]
  rw [parts, List.foldl_append, onDocuments_additions]
  exact List.mem_append_right _ member

/-- A batch is accepted exactly when every index allows its outcome. -/
theorem applyChanges_isOk_iff
    (stored : documents.Stored)
    (represents : Represents set documents)
    (distinguishes : set.Distinguishes documents)
    (batch : Batch documents changes) :
    (applyChanges set changes).2.isOk = true ↔
      set.Distinguishes (documents.changed changes) := by
  cases applies : applyChanges set changes with
  | mk final result =>
      cases result with
      | ok undo =>
          refine iff_of_true rfl ?_
          intro name index found
          have notEmpty : set.isEmpty = false := by
            by_contra empty
            have noKeys : set.keys = [] := by
              simpa [isEmpty, JsMap.size, JsMap.keys] using empty
            have present := mem_keys_of_get? found
            rw [noKeys] at present
            cases present
          obtain ⟨-, accepts⟩ := applyChanges_tracks notEmpty applies
          have outcome :=
            @distinguishes_adding set documents changes changes [] name index
              stored represents batch found (distinguishes name index found)
              (accepts name (mem_keys_of_get? found)) (by simp)
          exact outcome.perm (onDocuments_batch batch)
      | error error =>
          refine iff_of_false Bool.false_ne_true ?_
          intro allowed
          obtain ⟨-, -, -, conflict, -, -, -, -, front, change, back, after,
            name, isSplit, isAfter, refuses⟩ := applyChanges_refused applies
          have present := mem_keys_of_refuses refuses
          obtain ⟨index, found⟩ :=
            Option.ne_none_iff_exists'.mp
              (fun absent => JsMap.get?_eq_none.mp absent present)
          obtain ⟨entry, member, clashes⟩ :=
            (refuses_iff stored represents batch isSplit isAfter found).mp
              ⟨conflict, refuses⟩
          have fresh := fresh_adding batch isSplit isAfter
          have different : entry ≠ (change.key, after) := by
            rintro rfl
            exact fresh (List.mem_map_of_mem member)
          have inFront := mem_changed_of_adding batch isSplit member
          have own :
              (change.key, after) ∈ documents.changed changes := by
            refine @mem_changed_of_adding documents changes
              (front ++ [change]) back batch (by simp [isSplit]) _ ?_
            rw [adding_snoc isAfter]
            exact List.mem_cons_self
          exact (allowed name index found).not_clashes inFront own different
            clashes

/-- What a refused batch throws. -/
theorem code_of_refused
    {error : Thrown}
    (applies : applyChanges set changes = (changed, .error error)) :
    ∃ storageError, error = .storage storageError ∧
      storageError.code = .duplicateKey := by
  obtain ⟨-, -, -, conflict, -, -, -, rfl, -⟩ := applyChanges_refused applies
  exact ⟨_, rfl, rfl⟩

end Batches

/-- A build ends exactly when the index allows the documents together. -/
theorem build_distinguishes
    {order added : Documents}
    {index : FieldIndex}
    (stored : Documents.Stored (added ++ order))
    (builtFrom : index.BuiltFrom added)
    (distinguishes : index.spec.Distinguishes added) :
    match (order.map Except.ok).foldlM buildStep index with
    | .ok _ => index.spec.Distinguishes (added ++ order)
    | .error error =>
        (∃ storageError, error = .storage storageError ∧
          storageError.code = .duplicateKey) ∧
          ¬ index.spec.Distinguishes (added ++ order) := by
  induction order generalizing index added with
  | nil =>
      rw [List.append_nil]
      exact distinguishes
  | cons entry rest inductionHypothesis =>
      obtain ⟨key, document⟩ := entry
      obtain ⟨moved, next⟩ := builtFrom_next stored builtFrom
      have reordered :
          (added ++ (key, document) :: rest).Perm
            (((key, document) :: added) ++ rest) :=
        List.perm_middle
      have fresh : key ∉ added.keys := by
        have distinct := moved.distinct
        simp only [Documents.keys, List.cons_append, List.map_cons,
          List.nodup_cons, List.map_append, List.mem_append, not_or]
          at distinct
        exact distinct.1.1
      have conflicts :=
        @FieldIndex.Lists.conflictFor_iff _ _ key document builtFrom.toLists
          fresh
      rw [List.map_cons, List.foldlM_cons]
      cases found : index.conflictFor key document with
      | some conflict =>
          have step :
              ∃ message,
                buildStep index (.ok (key, document)) =
                  .error (.storage ⟨.duplicateKey, message, none⟩) := by
            simp only [buildStep, Result.ok_bind, found]
            exact ⟨_, rfl⟩
          obtain ⟨message, step⟩ := step
          rw [step]
          refine ⟨⟨_, rfl, rfl⟩, ?_⟩
          intro allowed
          obtain ⟨entry, member, clashes⟩ := conflicts.mp ⟨conflict, found⟩
          have different : entry ≠ (key, document) := by
            rintro rfl
            exact fresh (List.mem_map_of_mem member)
          exact allowed.not_clashes (List.mem_append_left _ member)
            (List.mem_append_right _ List.mem_cons_self) different clashes
      | none =>
          have step :
              buildStep index (.ok (key, document)) =
                .ok (index.add key document true) := by
            simp only [buildStep, Result.ok_bind, found]
            rfl
          rw [step, Result.ok_bind]
          have apart :
              (index.add key document true).spec.Distinguishes
                ((key, document) :: added) := by
            rw [FieldIndex.add_spec]
            refine List.pairwise_cons.mpr ⟨?_, distinguishes⟩
            intro entry member clashes
            obtain ⟨conflict, isConflict⟩ :=
              conflicts.mpr ⟨entry, member, IndexSpec.clashes_comm.mp clashes⟩
            rw [found] at isConflict
            cases isConflict
          have later := inductionHypothesis moved next apart
          rw [FieldIndex.add_spec] at later
          split at later
          · exact later.perm reordered.symm
          · exact ⟨later.1, fun allowed => later.2 (allowed.perm reordered)⟩

/-- A new index allows the documents that it was created over. -/
theorem create_distinguishes
    {set changed : IndexSet}
    {documents : Documents}
    {spec : IndexSpec}
    {result : CreateResult}
    (stored : documents.Stored)
    (distinguishes : set.Distinguishes documents)
    (creates :
      create set spec (documents.map Except.ok) = .ok (changed, result)) :
    changed.Distinguishes documents := by
  unfold create at creates
  cases existing : set.get? spec.name with
  | some index =>
      simp only [existing] at creates
      split_ifs at creates
      obtain ⟨rfl, rfl⟩ := Prod.mk.inj (Except.ok.inj creates)
      exact distinguishes
  | none =>
      simp only [existing] at creates
      split at creates
      · cases creates
      · split_ifs at creates
        obtain ⟨built, builds, same⟩ := Result.bind_eq_ok.mp creates
        obtain ⟨rfl, rfl⟩ := Prod.mk.inj (Except.ok.inj same)
        have allowed :=
          @build_distinguishes documents [] _ stored
            (FieldIndex.builtFrom_create spec) .nil
        rw [builds] at allowed
        obtain ⟨-, isSpec⟩ :=
          @build_represents documents [] _ built stored
            (FieldIndex.builtFrom_create spec) builds
        intro name index found
        rw [JsMap.get?_set] at found
        split_ifs at found
        · obtain rfl := Option.some.inj found
          rw [FieldIndex.finishBulk_spec, isSpec]
          exact allowed
        · exact distinguishes name index found

end IndexSet

end SinterDb
