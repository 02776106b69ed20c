import SinterDb.Storage.Planner
import SinterDb.Storage.ValueOrder

namespace SinterDb

open Unicode

/-!
# What an index knows

An index is a relation between canonical keys and documents, with the values
of each comparable class in order beside it.  The index may list documents
that are no longer stored; what matters is that it lists every stored one.
-/

/-- Adding a key adds it and nothing else. -/
@[simp] theorem mem_addKey
    {keys : List JsString}
    {key other : JsString} :
    other ∈ addKey keys key ↔ other ∈ keys ∨ other = key := by
  unfold addKey
  split_ifs with present
  · constructor
    · exact .inl
    · rintro (member | rfl)
      · exact member
      · exact present
  · simp

/-- Adding keys adds them and nothing else. -/
@[simp] theorem mem_foldl_addKey
    {added keys : List JsString}
    {other : JsString} :
    other ∈ added.foldl addKey keys ↔ other ∈ keys ∨ other ∈ added := by
  induction added generalizing keys with
  | nil =>
      simp
  | cons key rest inductionHypothesis =>
      simp [inductionHypothesis, or_assoc]

/-- The entries of an ordered list are in order. -/
def OrderedEntry.Precedes (left right : OrderedEntry) : Prop :=
  compareValues left.value right.value ≠ some .gt

namespace FieldIndex

/-- The index lists a document under a canonical key. -/
def Holds (index : FieldIndex) (key : Bytes) (docKey : JsString) : Prop :=
  ∃ keys, index.byValue.get? key = some keys ∧ docKey ∈ keys

/-- The index lists a document under its value, if it has one. -/
def Covers
    (index : FieldIndex)
    (docKey : JsString)
    (document : Document) : Prop :=
  ∀ value, resolveField document index.segments = some value →
    index.Holds (canonicalKey value) docKey

/-- The canonical key of an array. -/
def isArrayKey (key : Bytes) : Bool :=
  key.head? == some ValueTag.array.code

/-- The parts of an index agree, apart from the order of the values. -/
structure Consistent (index : FieldIndex) : Prop where
  entry :
    ∀ valueClass, ∀ entry ∈ index.entriesOf valueClass,
      valueClassOf entry.value = some valueClass ∧ entry.value.HasKey ∧
        entry.key = canonicalKey entry.value
  listed :
    ∀ value valueClass, value.HasKey →
      valueClassOf value = some valueClass →
      index.byValue.get? (canonicalKey value) ≠ none →
      ∃ entry ∈ index.entriesOf valueClass, entry.value = value
  arrays :
    ∀ pairs : List (Bytes × JsString), pairs.Nodup →
      (∀ pair ∈ pairs,
        isArrayKey pair.1 = true ∧ index.Holds pair.1 pair.2) →
      (pairs.length : Int) ≤ index.arrayValues

/-- The values of every class are in order. -/
def Sorted (index : FieldIndex) : Prop :=
  ∀ valueClass,
    (index.entriesOf valueClass).Pairwise OrderedEntry.Precedes

/-- An index that lookups can rely on. -/
structure WellFormed (index : FieldIndex) : Prop extends Consistent index where
  sorted : index.Sorted

/-- The key of a value tells whether it is an array. -/
theorem isArrayKey_canonicalKey
    (value : DocumentValue) :
    isArrayKey (canonicalKey value) = isArray value := by
  cases value with
  | boolean value =>
      cases value <;> decide
  | number value =>
      simp only [canonicalKey, DocumentValue.raw, rawNumber, isArray]
      generalize
        (if value = JsNumber.negativeZero then none else value.toInt?) =
          integer
      cases integer with
      | none =>
          split_ifs <;> rfl
      | some integer =>
          simp only
          split_ifs <;> rfl
  | date time =>
      cases time <;> rfl
  | _ =>
      rfl

section Add

variable
  {index : FieldIndex}
  {docKey : JsString}
  {document : Document}
  {bulk : Bool}

/-- Entering a value in the order changes nothing else. -/
theorem insertOrdered_rest
    (index : FieldIndex)
    (value : DocumentValue)
    (key : Bytes)
    (bulk : Bool) :
    (index.insertOrdered value key bulk).byValue = index.byValue ∧
      (index.insertOrdered value key bulk).spec = index.spec := by
  unfold insertOrdered
  split
  · exact ⟨rfl, rfl⟩
  · split_ifs <;> exact ⟨rfl, rfl⟩

/-- Adding a document keeps the definition of the index. -/
@[simp] theorem add_spec
    (index : FieldIndex)
    (docKey : JsString)
    (document : Document)
    (bulk : Bool) :
    (index.add docKey document bulk).spec = index.spec := by
  unfold add
  split
  · split_ifs <;> rfl
  · simp only
    split
    · rfl
    · exact (insertOrdered_rest _ _ _ _).2

/-- A document without the field leaves the listed values alone. -/
theorem add_of_missing
    (missing : resolveField document index.segments = none) :
    (index.add docKey document bulk).byValue = index.byValue ∧
      (index.add docKey document bulk).ordered = index.ordered ∧
      (index.add docKey document bulk).unsorted = index.unsorted ∧
      (index.add docKey document bulk).arrayValues = index.arrayValues := by
  unfold add
  rw [missing]
  simp only
  split_ifs <;> exact ⟨rfl, rfl, rfl, rfl⟩

variable
  {value : DocumentValue}

/-- The listed documents after adding one with the field. -/
theorem add_byValue
    (found : resolveField document index.segments = some value)
    (key : Bytes) :
    (index.add docKey document bulk).byValue.get? key =
      if key = canonicalKey value then
        some (addKey ((index.byValue.get? key).getD []) docKey)
      else
        index.byValue.get? key := by
  unfold add
  rw [found]
  simp only
  cases present : index.byValue.get? (canonicalKey value) with
  | some keys =>
      simp only [JsMap.get?_set]
      split_ifs with same
      · rw [same, present]
      · rfl
  | none =>
      simp only [(insertOrdered_rest _ _ _ _).1, JsMap.get?_set]
      split_ifs with same
      · rw [same, present]
        rfl
      · rfl

/-- The count of arrays after adding a document with the field. -/
theorem add_arrayValues
    (found : resolveField document index.segments = some value) :
    (index.add docKey document bulk).arrayValues =
      if isArray value then index.arrayValues + 1 else index.arrayValues := by
  unfold add
  rw [found]

/-- The documents listed after adding one with the field. -/
theorem holds_add
    (found : resolveField document index.segments = some value)
    {key : Bytes}
    {other : JsString} :
    (index.add docKey document bulk).Holds key other ↔
      index.Holds key other ∨
        key = canonicalKey value ∧ other = docKey := by
  unfold Holds
  rw [add_byValue found]
  split_ifs with same
  · cases present : index.byValue.get? key with
    | none =>
        simp [same]
    | some keys =>
        simp [same]
  · simp [same]

/-- An added document is covered. -/
theorem covers_add_self :
    (index.add docKey document bulk).Covers docKey document := by
  intro value found
  unfold segments at found
  rw [add_spec] at found
  exact (holds_add found).mpr (.inr ⟨rfl, rfl⟩)

/-- What was covered stays covered when a document is added. -/
theorem covers_add
    {other : JsString}
    {stored : Document}
    (covered : index.Covers other stored) :
    (index.add docKey document bulk).Covers other stored := by
  intro value found
  unfold segments at found
  rw [add_spec] at found
  have held := covered value found
  cases added : resolveField document index.segments with
  | none =>
      unfold Holds
      rw [(add_of_missing added).1]
      exact held
  | some value =>
      exact (holds_add added).mpr (.inl held)

/-- A list of entries with one more entry, at the place for it. -/
def entered
    (entries : List OrderedEntry)
    (value : DocumentValue)
    (bulk : Bool) : List OrderedEntry :=
  if bulk then
    entries ++ [⟨value, canonicalKey value⟩]
  else
    entries.insertIdx (lowerBound entries value) ⟨value, canonicalKey value⟩

/-- The entries of a class after entering a value. -/
theorem entriesOf_insertOrdered
    (index : FieldIndex)
    (value : DocumentValue)
    (bulk : Bool)
    (valueClass : ValueClass) :
    (index.insertOrdered value (canonicalKey value) bulk).entriesOf
        valueClass =
      if valueClassOf value = some valueClass then
        entered (index.entriesOf valueClass) value bulk
      else
        index.entriesOf valueClass := by
  unfold insertOrdered entered entriesOf
  cases inClass : valueClassOf value with
  | none =>
      simp
  | some own =>
      by_cases same : own = valueClass
      · subst same
        cases bulk <;> simp [JsMap.get?_set]
      · cases bulk <;> simp [JsMap.get?_set, same, Ne.symm same]

/-- The entries of a class after adding a document with the field. -/
theorem entriesOf_add
    (found : resolveField document index.segments = some value)
    (valueClass : ValueClass) :
    (index.add docKey document bulk).entriesOf valueClass =
      if index.byValue.get? (canonicalKey value) = none ∧
          valueClassOf value = some valueClass then
        entered (index.entriesOf valueClass) value bulk
      else
        index.entriesOf valueClass := by
  unfold add
  rw [found]
  simp only
  cases present : index.byValue.get? (canonicalKey value) with
  | some keys =>
      simp [entriesOf]
  | none =>
      simpa [entriesOf] using
        entriesOf_insertOrdered
          { index with byValue := index.byValue.set (canonicalKey value) [] }
          value bulk valueClass

/-- The lower bound of a list is one of its places. -/
theorem lowerBound_le
    (entries : List OrderedEntry)
    (value : DocumentValue) :
    lowerBound entries value ≤ entries.length := by
  unfold lowerBound Search.bound
  exact Search.boundLoop_le _ _ (Nat.zero_le _) (Nat.le_refl _)

/-- Entering a value adds its entry and nothing else. -/
theorem mem_entered
    {entries : List OrderedEntry}
    {entry : OrderedEntry} :
    entry ∈ entered entries value bulk ↔
      entry = ⟨value, canonicalKey value⟩ ∨ entry ∈ entries := by
  unfold entered
  split_ifs
  · simp [or_comm]
  · rw [List.mem_insertIdx (lowerBound_le entries value)]

end Add

section Order

variable
  {entries : List OrderedEntry}
  {value : DocumentValue}
  {valueClass : ValueClass}

/-- The lower bound splits ordered entries at the first that is not less. -/
theorem lowerBound_spec
    (inClass : valueClassOf value = some valueClass)
    (classes :
      ∀ entry ∈ entries, valueClassOf entry.value = some valueClass)
    (sorted : entries.Pairwise OrderedEntry.Precedes) :
    (∀ entry ∈ entries.take (lowerBound entries value),
        compareValues entry.value value = some .lt) ∧
      ∀ entry ∈ entries.drop (lowerBound entries value),
        compareValues entry.value value ≠ some .lt := by
  obtain ⟨β, order, place, compares⟩ := exists_order valueClass
  have front :
      Search.FrontPart
        (fun entry : OrderedEntry =>
          compareValues entry.value value == some .lt) entries := by
    refine List.Pairwise.imp_of_mem ?_ sorted
    intro left right leftMember rightMember precedes less
    have leftClass := classes left leftMember
    have rightClass := classes right rightMember
    simp only [OrderedEntry.Precedes, compares _ _ leftClass rightClass,
      compares _ _ leftClass inClass, compares _ _ rightClass inClass, ne_eq,
      Option.some.injEq, cmp_eq_gt_iff, cmp_eq_lt_iff, not_lt,
      beq_iff_eq] at precedes less ⊢
    exact lt_of_le_of_lt precedes less
  obtain ⟨before, behind⟩ := Search.bound_spec front
  exact ⟨fun entry member => by simpa using before entry member,
    fun entry member => by simpa using behind entry member⟩

/-- The upper bound splits ordered entries at the first that is greater. -/
theorem upperBound_spec
    (inClass : valueClassOf value = some valueClass)
    (classes :
      ∀ entry ∈ entries, valueClassOf entry.value = some valueClass)
    (sorted : entries.Pairwise OrderedEntry.Precedes) :
    (∀ entry ∈ entries.take (upperBound entries value),
        compareValues entry.value value ≠ some .gt) ∧
      ∀ entry ∈ entries.drop (upperBound entries value),
        compareValues entry.value value = some .gt := by
  obtain ⟨β, order, place, compares⟩ := exists_order valueClass
  have notGreater :
      ∀ entry ∈ entries,
        (compareValues entry.value value == some .lt ||
          compareValues entry.value value == some .eq) =
            !(compareValues entry.value value == some .gt) := by
    intro entry member
    rw [compares _ _ (classes entry member) inClass]
    cases cmp (place entry.value) (place value) <;> rfl
  have front :
      Search.FrontPart
        (fun entry : OrderedEntry =>
          compareValues entry.value value == some .lt ||
            compareValues entry.value value == some .eq) entries := by
    refine List.Pairwise.imp_of_mem ?_ sorted
    intro left right leftMember rightMember precedes less
    have leftClass := classes left leftMember
    have rightClass := classes right rightMember
    simp only [notGreater _ rightMember] at less
    simp only [notGreater _ leftMember]
    simp only [OrderedEntry.Precedes, compares _ _ leftClass rightClass,
      compares _ _ leftClass inClass, compares _ _ rightClass inClass, ne_eq,
      Option.some.injEq, cmp_eq_gt_iff, not_lt, Bool.not_eq_true',
      beq_eq_false_iff_ne] at precedes less ⊢
    exact le_trans precedes less
  obtain ⟨before, behind⟩ := Search.bound_spec front
  constructor
  · intro entry member
    have test := before entry member
    rw [notGreater entry (List.mem_of_mem_take member)] at test
    simpa using test
  · intro entry member
    have test := behind entry member
    rw [notGreater entry (List.mem_of_mem_drop member)] at test
    simpa using test

/-- A value of one class goes into an ordered list at its lower bound. -/
theorem sorted_entered
    (inClass : valueClassOf value = some valueClass)
    (classes :
      ∀ entry ∈ entries, valueClassOf entry.value = some valueClass)
    (sorted : entries.Pairwise OrderedEntry.Precedes) :
    (entered entries value false).Pairwise OrderedEntry.Precedes := by
  obtain ⟨before, behind⟩ := lowerBound_spec inClass classes sorted
  obtain ⟨β, order, place, compares⟩ := exists_order valueClass
  have parts :=
    List.take_append_drop (lowerBound entries value) entries
  have partsSorted := sorted
  rw [← parts, List.pairwise_append] at partsSorted
  obtain ⟨frontSorted, restSorted, across⟩ := partsSorted
  simp only [entered, Bool.false_eq_true, if_false]
  rw [Lists.insertIdx_eq_append _ _ (lowerBound_le entries value),
    List.pairwise_append]
  refine ⟨frontSorted, ?_, ?_⟩
  · rw [List.pairwise_cons]
    refine ⟨?_, restSorted⟩
    intro entry member
    have entryClass := classes entry (List.mem_of_mem_drop member)
    have notLess := behind entry member
    unfold OrderedEntry.Precedes
    rw [compares _ _ entryClass inClass] at notLess
    rw [compares _ _ inClass entryClass]
    simpa [cmp_eq_lt_iff, cmp_eq_gt_iff] using notLess
  · intro left leftMember right rightMember
    rw [List.mem_cons] at rightMember
    rcases rightMember with rfl | rightMember
    · simp [OrderedEntry.Precedes, before left leftMember]
    · exact across left leftMember right rightMember

end Order

section Keep

variable
  {index : FieldIndex}
  {docKey : JsString}
  {document : Document}
  {bulk : Bool}

/-- Consistency is about the listed values and the count of arrays only. -/
theorem Consistent.congr
    {other : FieldIndex}
    (consistent : index.Consistent)
    (byValue : other.byValue = index.byValue)
    (ordered : other.ordered = index.ordered)
    (arrayValues : other.arrayValues = index.arrayValues) :
    other.Consistent := by
  have entries : other.entriesOf = index.entriesOf := by
    unfold entriesOf
    rw [ordered]
  have holds : other.Holds = index.Holds := by
    unfold Holds
    rw [byValue]
  constructor
  · rw [entries]
    exact consistent.entry
  · rw [entries, byValue]
    exact consistent.listed
  · rw [holds, arrayValues]
    exact consistent.arrays

/-- The arrays counted after adding a document with the field. -/
theorem arrays_add
    {value : DocumentValue}
    (consistent : index.Consistent)
    (found : resolveField document index.segments = some value)
    {pairs : List (Bytes × JsString)}
    (distinct : pairs.Nodup)
    (held :
      ∀ pair ∈ pairs,
        isArrayKey pair.1 = true ∧
          (index.add docKey document bulk).Holds pair.1 pair.2) :
    (pairs.length : Int) ≤ (index.add docKey document bulk).arrayValues := by
  let own := (canonicalKey value, docKey)
  have older :
      ∀ pair ∈ pairs, pair ≠ own →
        isArrayKey pair.1 = true ∧ index.Holds pair.1 pair.2 := by
    intro pair member different
    obtain ⟨isArrayPair, holds⟩ := held pair member
    rcases (holds_add found).mp holds with holds | ⟨sameKey, sameDocument⟩
    · exact ⟨isArrayPair, holds⟩
    · exact absurd (Prod.ext sameKey sameDocument) different
  rw [add_arrayValues found]
  split_ifs with array
  · -- Without the new pair, the pairs were there before.
    have fewer :=
      consistent.arrays (pairs.erase own) (distinct.erase own) (by
        intro pair member
        obtain ⟨different, member⟩ := distinct.mem_erase_iff.mp member
        exact older pair member different)
    have length := List.length_erase_add_one (l := pairs) (a := own)
    by_cases member : own ∈ pairs
    · have := length member
      omega
    · rw [List.erase_of_not_mem member] at fewer
      omega
  · apply consistent.arrays pairs distinct
    intro pair member
    refine older pair member ?_
    rintro rfl
    have isArrayPair := (held own member).1
    rw [isArrayKey_canonicalKey] at isArrayPair
    exact array isArrayPair

/-- Adding a document keeps an index consistent. -/
theorem consistent_add
    (consistent : index.Consistent)
    (keyed :
      ∀ value, resolveField document index.segments = some value →
        value.HasKey) :
    (index.add docKey document bulk).Consistent := by
  cases found : resolveField document index.segments with
  | none =>
      obtain ⟨byValue, ordered, -, arrayValues⟩ := add_of_missing found
      exact consistent.congr byValue ordered arrayValues
  | some value =>
      have ownKey := keyed value found
      refine ⟨?_, ?_, fun pairs distinct => arrays_add consistent found distinct⟩
      · intro valueClass entry member
        rw [entriesOf_add found] at member
        split_ifs at member with fresh
        · rcases mem_entered.mp member with rfl | member
          · exact ⟨fresh.2, ownKey, rfl⟩
          · exact consistent.entry valueClass entry member
        · exact consistent.entry valueClass entry member
      · intro other valueClass otherKey inClass present
        rw [entriesOf_add found]
        rw [add_byValue found] at present
        by_cases same : canonicalKey other = canonicalKey value
        · obtain rfl :=
            eq_of_canonicalKey (isComparableValue_of_class inClass) otherKey
              ownKey same
          split_ifs with fresh
          · exact ⟨_, mem_entered.mpr (.inl rfl), rfl⟩
          · exact consistent.listed other valueClass otherKey inClass
              fun absent => fresh ⟨absent, inClass⟩
        · rw [if_neg same] at present
          obtain ⟨entry, member, isOther⟩ :=
            consistent.listed other valueClass otherKey inClass present
          split_ifs
          · exact ⟨entry, mem_entered.mpr (.inr member), isOther⟩
          · exact ⟨entry, member, isOther⟩

/-- Adding a document keeps the values in order. -/
theorem sorted_add
    (classes :
      ∀ valueClass, ∀ entry ∈ index.entriesOf valueClass,
        valueClassOf entry.value = some valueClass)
    (sorted : index.Sorted) :
    (index.add docKey document false).Sorted := by
  intro valueClass
  cases found : resolveField document index.segments with
  | none =>
      unfold entriesOf
      rw [(add_of_missing found).2.1]
      exact sorted valueClass
  | some value =>
      rw [entriesOf_add found]
      split_ifs with fresh
      · exact sorted_entered fresh.2 (classes valueClass) (sorted valueClass)
      · exact sorted valueClass

/-- Adding a document keeps an index well formed. -/
theorem wellFormed_add
    (wellFormed : index.WellFormed)
    (keyed :
      ∀ value, resolveField document index.segments = some value →
        value.HasKey) :
    (index.add docKey document false).WellFormed :=
  ⟨consistent_add wellFormed.toConsistent keyed,
    sorted_add
      (fun valueClass entry member =>
        (wellFormed.entry valueClass entry member).1)
      wellFormed.sorted⟩

end Keep

section Remove

variable
  {index : FieldIndex}
  {docKey : JsString}
  {document : Document}

/-- Taking a value out of the order changes nothing else. -/
theorem removeOrdered_rest
    (index : FieldIndex)
    (value : DocumentValue)
    (key : Bytes) :
    (index.removeOrdered value key).byValue = index.byValue ∧
      (index.removeOrdered value key).spec = index.spec := by
  unfold removeOrdered
  split
  · exact ⟨rfl, rfl⟩
  · split <;> exact ⟨rfl, rfl⟩

/-- Leaving documents under a value keeps the definition of the index. -/
@[simp] theorem unlist_spec
    (index : FieldIndex)
    (value : DocumentValue)
    (rest : List JsString) :
    (index.unlist value rest).spec = index.spec := by
  unfold unlist
  simp only
  split_ifs
  · exact (removeOrdered_rest _ _ _).2
  · rfl

/-- The listed documents with some left under one value. -/
theorem unlist_byValue
    (index : FieldIndex)
    (value : DocumentValue)
    (rest : List JsString)
    (key : Bytes) :
    (index.unlist value rest).byValue.get? key =
      if key = canonicalKey value then
        if rest = [] then none else some rest
      else
        index.byValue.get? key := by
  unfold unlist
  simp only
  split_ifs with emptied same same
  · rw [(removeOrdered_rest _ _ _).1, JsMap.get?_delete, if_pos same]
  · rw [(removeOrdered_rest _ _ _).1, JsMap.get?_delete, if_neg same]
  · rw [JsMap.get?_set, if_pos same]
  · rw [JsMap.get?_set, if_neg same]

/-- Removing a document keeps the definition of the index. -/
@[simp] theorem remove_spec
    (index : FieldIndex)
    (docKey : JsString)
    (document : Document) :
    (index.remove docKey document).spec = index.spec := by
  unfold remove
  split
  · split_ifs <;> rfl
  · simp only
    split
    · rfl
    · split_ifs <;> simp

/-- A removal that finds nothing leaves the listed values alone. -/
theorem remove_of_not_held
    (notHeld :
      ∀ value, resolveField document index.segments = some value →
        ¬ index.Holds (canonicalKey value) docKey) :
    (index.remove docKey document).byValue = index.byValue ∧
      (index.remove docKey document).ordered = index.ordered ∧
      (index.remove docKey document).arrayValues = index.arrayValues := by
  unfold remove
  cases found : resolveField document index.segments with
  | none =>
      simp only
      split_ifs <;> exact ⟨rfl, rfl, rfl⟩
  | some value =>
      simp only
      cases present : index.byValue.get? (canonicalKey value) with
      | none =>
          exact ⟨rfl, rfl, rfl⟩
      | some keys =>
          simp only
          rw [if_neg fun member =>
            notHeld value found ⟨keys, present, member⟩]
          exact ⟨rfl, rfl, rfl⟩

/-- The removal of a document that is listed. -/
theorem remove_of_held
    {value : DocumentValue}
    {keys : List JsString}
    (found : resolveField document index.segments = some value)
    (present : index.byValue.get? (canonicalKey value) = some keys)
    (member : docKey ∈ keys) :
    index.remove docKey document =
      { index.unlist value (keys.filter fun other => !(other == docKey)) with
        arrayValues :=
          if isArray value then
            index.arrayValues - 1
          else
            index.arrayValues
        indexedDocuments := index.indexedDocuments - 1 } := by
  unfold remove
  rw [found]
  simp only [present, if_pos member]

/-- The documents listed after removing one with the field. -/
theorem holds_remove
    {value : DocumentValue}
    (found : resolveField document index.segments = some value)
    {key : Bytes}
    {other : JsString} :
    (index.remove docKey document).Holds key other ↔
      index.Holds key other ∧
        ¬ (key = canonicalKey value ∧ other = docKey) := by
  by_cases held : index.Holds (canonicalKey value) docKey
  · obtain ⟨keys, present, member⟩ := held
    unfold Holds
    rw [remove_of_held found present member]
    simp only [unlist_byValue]
    by_cases same : key = canonicalKey value
    · subst same
      simp only [if_pos, present, Option.some.injEq, exists_eq_left',
        true_and]
      constructor
      · rintro ⟨rest, isRest, inRest⟩
        split_ifs at isRest
        obtain rfl := Option.some.inj isRest
        simpa using inRest
      · rintro ⟨inKeys, different⟩
        refine ⟨_, if_neg ?_, ?_⟩
        · exact List.ne_nil_of_mem
            (List.mem_filter.mpr ⟨inKeys, by simpa using different⟩)
        · exact List.mem_filter.mpr ⟨inKeys, by simpa using different⟩
    · simp [same]
  · have unchanged := @remove_of_not_held index docKey document (by
        intro other isOther
        obtain rfl := Option.some.inj (found.symm.trans isOther)
        exact held)
    unfold Holds
    rw [unchanged.1]
    constructor
    · intro listed
      refine ⟨listed, ?_⟩
      rintro ⟨rfl, rfl⟩
      exact held listed
    · exact And.left

/-- What was covered stays covered when another document is removed. -/
theorem covers_remove
    {other : JsString}
    {stored : Document}
    (covered : index.Covers other stored)
    (different : other ≠ docKey) :
    (index.remove docKey document).Covers other stored := by
  intro value found
  unfold segments at found
  rw [remove_spec] at found
  have held := covered value found
  cases removed : resolveField document index.segments with
  | none =>
      have unchanged := @remove_of_not_held index docKey document (by simp [removed])
      unfold Holds
      rw [unchanged.1]
      exact held
  | some value =>
      exact (holds_remove removed).mpr ⟨held, fun same => different same.2⟩

/-- Taking an entry out leaves the entries with another key. -/
theorem mem_removeRun
    {value : DocumentValue}
    {key : Bytes}
    {entries : List OrderedEntry}
    {entry : OrderedEntry}
    (member : entry ∈ entries)
    (different : entry.key ≠ key) :
    entry ∈ removeRun value key entries := by
  induction entries with
  | nil =>
      cases member
  | cons first rest inductionHypothesis =>
      unfold removeRun
      split_ifs with same isKey
      · rcases List.mem_cons.mp member with rfl | member
        · exact absurd isKey different
        · exact member
      · rcases List.mem_cons.mp member with rfl | member
        · exact List.mem_cons_self
        · exact List.mem_cons_of_mem _ (inductionHypothesis member)
      · exact member

/-- Taking an entry out leaves a part of the list, in order. -/
theorem removeRun_sublist
    (value : DocumentValue)
    (key : Bytes)
    (entries : List OrderedEntry) :
    (removeRun value key entries).Sublist entries := by
  induction entries with
  | nil =>
      exact List.Sublist.refl _
  | cons first rest inductionHypothesis =>
      unfold removeRun
      split_ifs
      · exact List.sublist_cons_self first rest
      · exact inductionHypothesis.cons_cons first
      · exact List.Sublist.refl _

/-- The entries of a class after some documents are left under a value. -/
theorem entriesOf_unlist
    (index : FieldIndex)
    (value : DocumentValue)
    (rest : List JsString)
    (valueClass : ValueClass) :
    ((index.unlist value rest).entriesOf valueClass).Sublist
        (index.entriesOf valueClass) ∧
      ∀ entry ∈ index.entriesOf valueClass,
        rest ≠ [] ∨ entry.key ≠ canonicalKey value →
        entry ∈ (index.unlist value rest).entriesOf valueClass := by
  unfold unlist
  simp only
  split_ifs with emptied
  · unfold removeOrdered entriesOf
    cases inClass : valueClassOf value with
    | none =>
        exact ⟨List.Sublist.refl _, fun entry member _ => member⟩
    | some own =>
        cases listed : index.ordered.get? own with
        | none =>
            simp only
            rw [listed]
            exact ⟨List.Sublist.refl _, fun entry member _ => member⟩
        | some entries =>
            simp only
            rw [listed]
            simp only [JsMap.get?_set]
            by_cases same : valueClass = own
            · subst same
              rw [if_pos rfl, listed]
              simp only [Option.getD_some]
              have parts :=
                List.take_append_drop (lowerBound entries value) entries
              constructor
              · have sublist :=
                  (List.Sublist.refl
                    (entries.take (lowerBound entries value))).append
                    (removeRun_sublist value (canonicalKey value)
                      (entries.drop (lowerBound entries value)))
                rwa [parts] at sublist
              · intro entry member different
                rw [← parts, List.mem_append] at member
                rw [List.mem_append]
                rcases member with member | member
                · exact .inl member
                · exact .inr (mem_removeRun member
                    (different.resolve_left (absurd emptied)))
            · rw [if_neg same]
              exact ⟨List.Sublist.refl _, fun entry member _ => member⟩
  · exact ⟨List.Sublist.refl _, fun entry member _ => member⟩

/-- Removing a document keeps an index well formed. -/
theorem wellFormed_remove
    (wellFormed : index.WellFormed) :
    (index.remove docKey document).WellFormed := by
  by_cases held :
      ∃ value, resolveField document index.segments = some value ∧
        index.Holds (canonicalKey value) docKey
  · obtain ⟨value, found, keys, present, member⟩ := held
    have entries := fun valueClass =>
      entriesOf_unlist index value
        (keys.filter fun other => !(other == docKey)) valueClass
    have same := remove_of_held found present member
    refine ⟨⟨?_, ?_, ?_⟩, ?_⟩
    · intro valueClass entry inEntries
      rw [same] at inEntries
      exact wellFormed.entry valueClass entry
        ((entries valueClass).1.subset inEntries)
    · intro other valueClass otherKey inClass listed
      rw [same] at listed ⊢
      simp only [unlist_byValue] at listed
      split_ifs at listed with sameKey emptied
      · exact absurd rfl listed
      · obtain ⟨entry, inEntries, isOther⟩ :=
          wellFormed.listed other valueClass otherKey inClass
            (by rw [sameKey, present]; simp)
        exact ⟨entry, (entries valueClass).2 entry inEntries (.inl emptied),
          isOther⟩
      · obtain ⟨entry, inEntries, isOther⟩ :=
          wellFormed.listed other valueClass otherKey inClass listed
        have entryKey := (wellFormed.entry valueClass entry inEntries).2.2
        rw [isOther] at entryKey
        exact ⟨entry, (entries valueClass).2 entry inEntries
          (.inr (entryKey ▸ sameKey)), isOther⟩
    · intro pairs distinct arrays
      have older :
          ∀ pair ∈ pairs,
            isArrayKey pair.1 = true ∧ index.Holds pair.1 pair.2 := by
        intro pair inPairs
        exact ⟨(arrays pair inPairs).1,
          ((holds_remove found).mp (arrays pair inPairs).2).1⟩
      rw [same]
      simp only
      split_ifs with array
      · -- The removed pair was counted besides the pairs that are left.
        have counted :=
          wellFormed.arrays ((canonicalKey value, docKey) :: pairs)
            (List.nodup_cons.mpr ⟨fun inPairs =>
              ((holds_remove found).mp (arrays _ inPairs).2).2 ⟨rfl, rfl⟩,
              distinct⟩)
            (List.forall_mem_cons.mpr
              ⟨⟨by rw [isArrayKey_canonicalKey, array],
                keys, present, member⟩, older⟩)
        rw [List.length_cons] at counted
        push_cast at counted
        omega
      · exact wellFormed.arrays pairs distinct older
    · intro valueClass
      rw [same]
      exact (wellFormed.sorted valueClass).sublist (entries valueClass).1
  · have unchanged := @remove_of_not_held index docKey document
      (fun value found listed => held ⟨value, found, listed⟩)
    refine ⟨wellFormed.congr unchanged.1 unchanged.2.1 unchanged.2.2, ?_⟩
    intro valueClass
    unfold entriesOf
    rw [unchanged.2.1]
    exact wellFormed.sorted valueClass

end Remove

end FieldIndex

end SinterDb
