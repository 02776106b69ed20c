import SinterDb.Storage.StoredForm

namespace SinterDb

open Unicode

/-!
# Documents without byte order marks

The operators of an update and the upserts build documents from the operands,
the paths and the filter of a call.  What they build has no byte order marks
when these have none.
-/

/-- A value as JavaScript has them that comes back from its encoding. -/
def DocumentValue.Clean (value : DocumentValue) : Prop :=
  value.DistinctKeys ∧ value.Unmarked

instance (value : DocumentValue) : Decidable value.Clean :=
  inferInstanceAs (Decidable (_ ∧ _))

/-- The keys on a path have no byte order marks. -/
def CleanPath (segments : List JsString) : Prop :=
  ∀ segment ∈ segments, startsWithBom segment = false

instance (segments : List JsString) : Decidable (CleanPath segments) :=
  inferInstanceAs (Decidable (∀ segment ∈ segments, _))

section Values

variable
  {document changed parent : Document}
  {key : JsString}
  {value operand : DocumentValue}

/-- An object is clean when its keys and values are. -/
theorem clean_document :
    (DocumentValue.document document).Clean ↔
      (document.map Prod.fst).Nodup ∧
        ∀ field ∈ document,
          startsWithBom field.1 = false ∧ field.2.Clean := by
  unfold DocumentValue.Clean DocumentValue.DistinctKeys DocumentValue.Unmarked
  rw [DocumentValue.allNodes_document, DocumentValue.allNodes_document]
  simp only [DocumentValue.hasDistinctKeys, DocumentValue.isUnmarked,
    decide_eq_true_eq, List.all_eq_true, Bool.not_eq_true']
  constructor
  · rintro ⟨⟨distinct, inside⟩, keys, values⟩
    exact ⟨distinct, fun field member =>
      ⟨keys field member, inside field member, values field member⟩⟩
  · rintro ⟨distinct, fields⟩
    exact ⟨⟨distinct, fun field member => (fields field member).2.1⟩,
      fun field member => (fields field member).1,
      fun field member => (fields field member).2.2⟩

/-- An array is clean when its items are. -/
theorem clean_array
    {items : List DocumentValue} :
    (DocumentValue.array items).Clean ↔ ∀ item ∈ items, item.Clean := by
  unfold DocumentValue.Clean DocumentValue.DistinctKeys DocumentValue.Unmarked
  rw [DocumentValue.allNodes_array, DocumentValue.allNodes_array]
  simp only [DocumentValue.hasDistinctKeys, DocumentValue.isUnmarked, true_and]
  exact forall₂_and.symm

/-- An id is clean. -/
theorem clean_customId
    (id : CustomId) :
    (DocumentValue.customId id).Clean :=
  ⟨rfl, rfl⟩

/-- An empty document is clean. -/
theorem clean_empty : (DocumentValue.document []).Clean :=
  ⟨rfl, rfl⟩

/-- The value of a field of a clean document is clean. -/
theorem clean_of_get?
    (clean : (DocumentValue.document document).Clean)
    (found : Document.get? document key = some value) :
    value.Clean :=
  ((clean_document.mp clean).2 _ (Document.mem_of_get? found)).2

/-- Assigning a clean value keeps a document clean. -/
theorem clean_set
    (clean : (DocumentValue.document document).Clean)
    (isKey : startsWithBom key = false)
    (isClean : value.Clean) :
    (DocumentValue.document (Document.set document key value)).Clean := by
  rw [clean_document] at clean ⊢
  unfold Document.set
  split_ifs with present
  · have keys :
        (document.map fun field =>
            if field.1 == key then (field.1, value) else field).map Prod.fst =
          document.map Prod.fst := by
      rw [List.map_map]
      refine List.map_congr_left fun field _ => ?_
      simp only [Function.comp_apply]
      split_ifs <;> rfl
    refine ⟨keys ▸ clean.1, ?_⟩
    rw [List.forall_mem_map]
    intro field member
    have old := clean.2 field member
    split_ifs
    · exact ⟨old.1, isClean⟩
    · exact old
  · have perm := define_perm document key value
    have absent : key ∉ document.map Prod.fst := by
      rwa [← hasOwn_iff]
    constructor
    · rw [(perm.map Prod.fst).nodup_iff, List.map_append, List.nodup_append]
      refine ⟨clean.1, by simp, ?_⟩
      rintro other member _ isNew rfl
      rw [List.mem_singleton.mp isNew] at member
      exact absent member
    · intro field member
      rcases List.mem_append.mp (perm.mem_iff.mp member) with old | new
      · exact clean.2 field old
      · rw [List.mem_singleton.mp new]
        exact ⟨isKey, isClean⟩

/-- Deleting a key keeps a document clean. -/
theorem clean_erase
    (clean : (DocumentValue.document document).Clean)
    (key : JsString) :
    (DocumentValue.document (Document.erase document key)).Clean := by
  rw [clean_document] at clean ⊢
  unfold Document.erase
  exact ⟨(List.filter_sublist.map _).nodup clean.1,
    fun field member => clean.2 field (List.mem_of_mem_filter member)⟩

/-- What an instruction assigns is clean when its operand and the field are. -/
theorem clean_of_newValue
    {current : Option DocumentValue}
    (isOperand : operand.Clean)
    (isCurrent : ∀ old, current = some old → old.Clean)
    (new : NewValue operand current value) :
    value.Clean := by
  cases new with
  | operand =>
      exact isOperand
  | number value =>
      exact ⟨rfl, rfl⟩
  | bigint value =>
      exact ⟨rfl, rfl⟩
  | array items each =>
      refine clean_array.mpr fun item member => ?_
      rcases each item member with rfl | ⟨old, isOld, inOld⟩
      · exact isOperand
      · exact clean_array.mp (isCurrent _ isOld) item inOld

/-- What an instruction does with the parent of its last key. -/
theorem clean_applyToParent
    {instruction : Instruction}
    (isOperand : instruction.operand.Clean)
    (isKey : startsWithBom key = false)
    (clean : (DocumentValue.document parent).Clean)
    (applies : applyToParent instruction key parent = .ok changed) :
    (DocumentValue.document changed).Clean := by
  rcases applyToParent_cases applies with rfl | rfl | ⟨value, new, rfl⟩
  · exact clean
  · exact clean_erase clean key
  · exact clean_set clean isKey
      (clean_of_newValue isOperand (fun _ => clean_of_get? clean) new)

/-- A change at the end of a clean path keeps a document clean. -/
theorem clean_changeParent
    {create : Bool}
    {change : JsString → Document → Except Thrown Document}
    (keeps :
      ∀ key parent changed, startsWithBom key = false →
        (DocumentValue.document parent).Clean →
        change key parent = .ok changed →
        (DocumentValue.document changed).Clean)
    {walked path : List JsString}
    (isPath : CleanPath path)
    (clean : (DocumentValue.document document).Clean)
    (changes : changeParent create change walked path document = .ok changed) :
    (DocumentValue.document changed).Clean := by
  induction path generalizing walked document changed with
  | nil =>
      obtain rfl := Except.ok.inj changes
      exact clean
  | cons segment rest inductionHypothesis =>
      obtain ⟨isSegment, isRest⟩ := List.forall_mem_cons.mp isPath
      cases rest with
      | nil =>
          exact keeps segment document changed isSegment clean changes
      | cons next rest =>
          rw [changeParent] at changes
          · split at changes
            · split_ifs at changes
              · obtain ⟨inner, inside, same⟩ := Result.bind_eq_ok.mp changes
                obtain rfl := Except.ok.inj same
                exact clean_set clean isSegment
                  (inductionHypothesis isRest clean_empty inside)
              · obtain rfl := Except.ok.inj changes
                exact clean
            · rename_i old found
              obtain ⟨inner, inside, same⟩ := Result.bind_eq_ok.mp changes
              obtain rfl := Except.ok.inj same
              exact clean_set clean isSegment
                (inductionHypothesis isRest (clean_of_get? clean found)
                  inside)
            · split_ifs at changes
              obtain rfl := Except.ok.inj changes
              exact clean
          · simp

end Values

section Arguments

variable
  {document changed : Document}

/-- The operands of an operator, by their paths. -/
def operandsOf : DocumentValue → Document
  | .document operands => operands
  | _ => []

/-- The operands of an update and the keys on their paths have no byte order
marks. -/
def CleanUpdate (update : Document) : Prop :=
  ∀ operator ∈ update, ∀ operand ∈ operandsOf operator.2,
    CleanPath (splitPath operand.1) ∧ operand.2.Clean

instance (update : Document) : Decidable (CleanUpdate update) :=
  inferInstanceAs (Decidable (∀ operator ∈ update, _))

/-- What an upsert takes from a filter has no byte order marks. -/
def CleanFilter (filter : Document) : Prop :=
  ∀ field ∈ filter, startsWithDollar field.1 = false →
    CleanPath (splitPath field.1) ∧ field.2.Clean

instance (filter : Document) : Decidable (CleanFilter filter) :=
  inferInstanceAs (Decidable (∀ field ∈ filter, _))

/-- A clean update keeps a document clean. -/
theorem clean_compileUpdate
    {update : Document}
    {apply : CompiledUpdate}
    (isUpdate : CleanUpdate update)
    (compiles : compileUpdate update = .ok apply)
    (clean : (DocumentValue.document document).Clean)
    (applies : apply document = .ok changed) :
    (DocumentValue.document changed).Clean := by
  obtain ⟨instructions, parses, rfl⟩ := compileUpdate_ok compiles
  have arguments :
      ∀ instruction ∈ instructions,
        CleanPath instruction.segments ∧ instruction.operand.Clean := by
    intro instruction member
    obtain ⟨isPath, name, operands, isField, isOperand⟩ :=
      parseOperators_mem parses instruction member
    have isArgument := isUpdate _ isField _ isOperand
    rw [(parsePath_ok isPath).1]
    exact isArgument
  clear parses compiles
  simp only at applies
  induction instructions generalizing document with
  | nil =>
      obtain rfl := Except.ok.inj applies
      exact clean
  | cons instruction rest inductionHypothesis =>
      rw [List.forall_mem_cons] at arguments
      rw [List.foldlM_cons] at applies
      obtain ⟨next, step, applies⟩ := Result.bind_eq_ok.mp applies
      have isNext :=
        clean_changeParent
          (fun _ _ _ => clean_applyToParent arguments.1.2) arguments.1.1
          clean step
      exact inductionHypothesis isNext applies arguments.2

/-- What a filter demands of a field is clean when the filter is. -/
theorem clean_extractEquality
    {value equality : DocumentValue}
    (clean : value.Clean)
    (extracts : extractEquality value = some equality) :
    equality.Clean := by
  unfold extractEquality at extracts
  split at extracts
  · split_ifs at extracts
    · obtain rfl := Option.some.inj extracts
      exact clean
    · exact clean_of_get? clean extracts
  · obtain rfl := Option.some.inj extracts
    exact clean

/-- The document that an upsert starts from is clean. -/
theorem clean_seedFields
    {filter seed : Document}
    {assigned : List (List JsString)}
    (isFilter : CleanFilter filter)
    (clean : (DocumentValue.document seed).Clean)
    (seeds : seedFields assigned seed filter = .ok document) :
    (DocumentValue.document document).Clean := by
  induction filter generalizing assigned seed with
  | nil =>
      obtain rfl := Except.ok.inj seeds
      exact clean
  | cons field rest inductionHypothesis =>
      obtain ⟨isField, isRest⟩ := List.forall_mem_cons.mp isFilter
      obtain ⟨key, value⟩ := field
      rw [seedFields] at seeds
      split_ifs at seeds with isOperator
      · exact inductionHypothesis isRest clean seeds
      · have arguments := isField (by simpa using isOperator)
        split at seeds
        · exact inductionHypothesis isRest clean seeds
        · rename_i equality extracts
          simp only at seeds
          split_ifs at seeds
          obtain ⟨next, changes, seeds⟩ := Result.bind_eq_ok.mp seeds
          have isEquality := clean_extractEquality arguments.2 extracts
          refine inductionHypothesis isRest ?_ seeds
          refine clean_changeParent ?_ arguments.1 clean changes
          rintro key parent changed isKey isParent same
          obtain rfl := Except.ok.inj same
          exact clean_set isParent isKey isEquality

end Arguments

end SinterDb
