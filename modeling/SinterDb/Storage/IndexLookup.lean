import SinterDb.Storage.IndexInvariant

namespace SinterDb

open Unicode

/-!
# Building an index and looking values up

A new index takes the values of each class as they come and sorts them once.
Lookups by value and by range then find every covered document.
-/

/-- The keys that nested loops of additions collect. -/
theorem mem_foldl_addKeys
    {α : Type}
    {keysOf : α → List JsString}
    {items : List α}
    {keys : List JsString}
    {other : JsString} :
    other ∈ items.foldl (fun keys item => (keysOf item).foldl addKey keys)
        keys ↔
      other ∈ keys ∨ ∃ item ∈ items, other ∈ keysOf item := by
  induction items generalizing keys with
  | nil =>
      simp
  | cons item rest inductionHypothesis =>
      simp [inductionHypothesis, or_assoc]

namespace FieldIndex

/-- An index while it is built: what is not sorted yet is on the list. -/
structure Building (index : FieldIndex) : Prop extends Consistent index where
  unsorted :
    ∀ valueClass, valueClass ∉ index.unsorted →
      index.entriesOf valueClass = []

/-- A new index has nothing to sort. -/
theorem building_create
    (spec : IndexSpec) :
    (create spec).Building := by
  have noEntries : ∀ valueClass, (create spec).entriesOf valueClass = [] :=
    fun _ => rfl
  refine ⟨⟨?_, ?_, ?_⟩, fun valueClass _ => rfl⟩
  · simp [noEntries]
  · intro value valueClass _ _ present
    exact absurd rfl present
  · intro pairs _ held
    cases pairs with
    | nil =>
        exact le_refl _
    | cons pair rest =>
        obtain ⟨-, keys, present, -⟩ := held pair List.mem_cons_self
        cases present

section Bulk

variable
  {index : FieldIndex}
  {docKey : JsString}
  {document : Document}

/-- The classes to sort after entering a value. -/
theorem unsorted_insertOrdered
    (index : FieldIndex)
    (value : DocumentValue)
    (key : Bytes)
    (valueClass : ValueClass) :
    valueClass ∈ (index.insertOrdered value key true).unsorted ↔
      valueClass ∈ index.unsorted ∨ valueClassOf value = some valueClass := by
  unfold insertOrdered
  cases inClass : valueClassOf value with
  | none =>
      simp
  | some own =>
      simp only [if_true]
      split_ifs with present
      · constructor
        · exact .inl
        · rintro (member | same)
          · exact member
          · obtain rfl := Option.some.inj same
            exact present
      · simp [eq_comm]

/-- What is not on the list of classes to sort stays empty. -/
theorem unsorted_add
    (waiting :
      ∀ valueClass, valueClass ∉ index.unsorted →
        index.entriesOf valueClass = [])
    (valueClass : ValueClass)
    (sorted : valueClass ∉ (index.add docKey document true).unsorted) :
    (index.add docKey document true).entriesOf valueClass = [] := by
  cases found : resolveField document index.segments with
  | none =>
      obtain ⟨-, ordered, unsorted, -⟩ :=
        @add_of_missing index docKey document true found
      unfold entriesOf
      rw [ordered]
      rw [unsorted] at sorted
      exact waiting valueClass sorted
  | some value =>
      rw [entriesOf_add found]
      unfold add at sorted
      rw [found] at sorted
      simp only at sorted
      cases present : index.byValue.get? (canonicalKey value) with
      | some keys =>
          rw [present] at sorted
          simpa using waiting valueClass sorted
      | none =>
          rw [present] at sorted
          simp only [unsorted_insertOrdered, not_or] at sorted
          rw [if_neg fun fresh => sorted.2 fresh.2]
          exact waiting valueClass sorted.1

/-- Adding a document while the index is built. -/
theorem building_add
    (building : index.Building)
    (keyed :
      ∀ value, resolveField document index.segments = some value →
        value.HasKey) :
    (index.add docKey document true).Building :=
  ⟨consistent_add building.toConsistent keyed,
    unsorted_add building.unsorted⟩

/-- The order in which a class is sorted puts the entries in order. -/
theorem sorted_insertionSort
    {entries : List OrderedEntry}
    {valueClass : ValueClass}
    (classes :
      ∀ entry ∈ entries, valueClassOf entry.value = some valueClass) :
    (entries.insertionSort fun left right =>
      compareValues left.value right.value ≠ some .gt).Pairwise
        OrderedEntry.Precedes := by
  obtain ⟨β, order, place, compares⟩ := exists_order valueClass
  have agrees :
      ∀ left ∈ entries, ∀ right ∈ entries,
        compareValues left.value right.value ≠ some .gt ↔
          place left.value ≤ place right.value := by
    intro left leftMember right rightMember
    rw [compares _ _ (classes left leftMember) (classes right rightMember)]
    simp [cmp_eq_gt_iff]
  have sameSort :=
    List.map_insertionSort
      (fun left right : OrderedEntry =>
        compareValues left.value right.value ≠ some .gt)
      (fun left right : OrderedEntry => place left.value ≤ place right.value)
      id entries agrees
  rw [List.map_id, List.map_id] at sameSort
  have total :
      Std.Total fun left right : OrderedEntry =>
        place left.value ≤ place right.value :=
    ⟨fun _ _ => le_total _ _⟩
  have transitive :
      IsTrans OrderedEntry fun left right =>
        place left.value ≤ place right.value :=
    ⟨fun _ _ _ => le_trans⟩
  have sorted :=
    List.pairwise_insertionSort
      (fun left right : OrderedEntry => place left.value ≤ place right.value)
      entries
  rw [← sameSort] at sorted
  refine List.Pairwise.imp_of_mem ?_ sorted
  intro left right leftMember rightMember precedes
  rw [List.mem_insertionSort] at leftMember rightMember
  exact (agrees left leftMember right rightMember).mpr precedes

/-- The entries of a class after sorting one class. -/
theorem entriesOf_sortClass
    (index : FieldIndex)
    (sorted valueClass : ValueClass) :
    (index.sortClass sorted).entriesOf valueClass =
      if valueClass = sorted then
        (index.entriesOf valueClass).insertionSort fun left right =>
          compareValues left.value right.value ≠ some .gt
      else
        index.entriesOf valueClass := by
  unfold sortClass entriesOf JsMap.modify
  cases listed : index.ordered.get? sorted with
  | none =>
      split_ifs with same
      · subst same
        simp [listed]
      · rfl
  | some entries =>
      simp only [JsMap.get?_set]
      split_ifs with same
      · subst same
        simp [listed]
      · rfl

/-- Sorting classes reorders entries, and puts them in order. -/
theorem sortClasses_spec
    (classes : List ValueClass)
    {index : FieldIndex}
    {valueClass : ValueClass}
    (inClass :
      ∀ entry ∈ index.entriesOf valueClass,
        valueClassOf entry.value = some valueClass) :
    let result := classes.foldl sortClass index
    (result.entriesOf valueClass).Perm (index.entriesOf valueClass) ∧
      (valueClass ∈ classes ∨
          (index.entriesOf valueClass).Pairwise OrderedEntry.Precedes →
        (result.entriesOf valueClass).Pairwise OrderedEntry.Precedes) := by
  induction classes generalizing index with
  | nil =>
      exact ⟨List.Perm.refl _, by simp⟩
  | cons first rest inductionHypothesis =>
      have step := entriesOf_sortClass index first valueClass
      by_cases same : valueClass = first
      · rw [if_pos same] at step
        have perm := List.perm_insertionSort
          (fun left right : OrderedEntry =>
            compareValues left.value right.value ≠ some .gt)
          (index.entriesOf valueClass)
        rw [← step] at perm
        obtain ⟨reordered, sorted⟩ :=
          @inductionHypothesis (index.sortClass first)
            fun entry member => inClass entry (perm.mem_iff.mp member)
        refine ⟨reordered.trans perm, fun _ => sorted (.inr ?_)⟩
        rw [step]
        exact sorted_insertionSort inClass
      · rw [if_neg same] at step
        have later := @inductionHypothesis (index.sortClass first)
        rw [step] at later
        obtain ⟨reordered, sorted⟩ := later inClass
        refine ⟨reordered, fun either => sorted ?_⟩
        rcases either with member | alreadySorted
        · exact .inl ((List.mem_cons.mp member).resolve_left same)
        · exact .inr alreadySorted

/-- Sorting classes changes nothing but their order. -/
theorem sortClasses_rest
    (classes : List ValueClass)
    (index : FieldIndex) :
    let result := classes.foldl sortClass index
    result.byValue = index.byValue ∧ result.spec = index.spec ∧
      result.arrayValues = index.arrayValues ∧
      result.missing = index.missing ∧
      result.indexedDocuments = index.indexedDocuments := by
  induction classes generalizing index with
  | nil =>
      exact ⟨rfl, rfl, rfl, rfl, rfl⟩
  | cons first rest inductionHypothesis =>
      exact inductionHypothesis (index.sortClass first)

/-- The last step of a build keeps the definition of the index. -/
@[simp] theorem finishBulk_spec
    (index : FieldIndex) :
    index.finishBulk.spec = index.spec :=
  (sortClasses_rest index.unsorted index).2.1

/-- The last step of a build keeps what is covered. -/
theorem covers_finishBulk
    (covered : index.Covers docKey document) :
    index.finishBulk.Covers docKey document := by
  intro value found
  unfold segments at found
  rw [finishBulk_spec] at found
  obtain ⟨keys, present, member⟩ := covered value found
  refine ⟨keys, ?_, member⟩
  rw [← present, ← (sortClasses_rest index.unsorted index).1]
  rfl

/-- The last step of a build reorders the entries of each class, and puts them
in order. -/
theorem entriesOf_finishBulk
    (classes :
      ∀ valueClass, ∀ entry ∈ index.entriesOf valueClass,
        valueClassOf entry.value = some valueClass)
    (waiting :
      ∀ valueClass, valueClass ∉ index.unsorted →
        index.entriesOf valueClass = [])
    (valueClass : ValueClass) :
    (index.finishBulk.entriesOf valueClass).Perm
        (index.entriesOf valueClass) ∧
      (index.finishBulk.entriesOf valueClass).Pairwise
        OrderedEntry.Precedes := by
  obtain ⟨perm, sorted⟩ :=
    @sortClasses_spec index.unsorted index valueClass (classes valueClass)
  refine ⟨perm, sorted ?_⟩
  by_cases member : valueClass ∈ index.unsorted
  · exact .inl member
  · rw [waiting valueClass member]
    exact .inr .nil

/-- The last step of a build leaves an index that lookups can rely on. -/
theorem wellFormed_finishBulk
    (building : index.Building) :
    index.finishBulk.WellFormed := by
  obtain ⟨byValue, -, arrayValues, -⟩ :=
    sortClasses_rest index.unsorted index
  have entries :=
    entriesOf_finishBulk
      (fun valueClass entry member =>
        (building.entry valueClass entry member).1)
      building.unsorted
  have holds : index.finishBulk.Holds = index.Holds := by
    unfold Holds finishBulk
    rw [byValue]
  refine ⟨⟨?_, ?_, ?_⟩, fun valueClass => (entries valueClass).2⟩
  · intro valueClass entry member
    rw [(entries valueClass).1.mem_iff] at member
    exact building.entry valueClass entry member
  · intro value valueClass keyed inClass present
    have wasPresent : index.byValue.get? (canonicalKey value) ≠ none := by
      rw [← byValue]
      exact present
    obtain ⟨entry, member, same⟩ :=
      building.listed value valueClass keyed inClass wasPresent
    exact ⟨entry, (entries valueClass).1.mem_iff.mpr member, same⟩
  · intro pairs distinct held
    rw [holds] at held
    have counted := building.arrays pairs distinct held
    rw [← arrayValues] at counted
    exact counted

end Bulk

section Lookup

variable
  {index : FieldIndex}
  {docKey : JsString}

/-- A document that is listed under a value is looked up by it. -/
theorem mem_lookupEqual
    {value : DocumentValue} :
    docKey ∈ (index.lookupEqual value).getD [] ↔
      index.Holds (canonicalKey value) docKey := by
  unfold lookupEqual Holds
  cases index.byValue.get? (canonicalKey value) <;> simp

/-- Without array values, no document is listed under an array. -/
theorem not_isArray_of_holds
    {value : DocumentValue}
    (consistent : index.Consistent)
    (noArrays : index.hasArrayValues = false)
    (held : index.Holds (canonicalKey value) docKey) :
    isArray value = false := by
  by_contra array
  rw [Bool.not_eq_false] at array
  have counted :=
    consistent.arrays [(canonicalKey value, docKey)] (List.nodup_singleton _)
      (by simp [isArrayKey_canonicalKey, array, held])
  simp [hasArrayValues] at noArrays
  simp at counted
  omega

/-- The value is beyond a lower bound. -/
def IsAbove (value : DocumentValue) (bound : IndexBound) : Prop :=
  ∃ comparison, compareValues value bound.value = some comparison ∧
    (if bound.inclusive then ComparisonOperator.gte else .gt).accepts
      comparison = true

/-- The value is before an upper bound. -/
def IsBelow (value : DocumentValue) (bound : IndexBound) : Prop :=
  ∃ comparison, compareValues value bound.value = some comparison ∧
    (if bound.inclusive then ComparisonOperator.lte else .lt).accepts
      comparison = true

variable
  {valueClass : ValueClass}
  {lower upper : Option IndexBound}

/-- A range lookup begins before the entries above the lower bound. -/
theorem not_mem_take_rangeStart
    {entries : List OrderedEntry}
    {entry : OrderedEntry}
    (classes :
      ∀ entry ∈ entries, valueClassOf entry.value = some valueClass)
    (sorted : entries.Pairwise OrderedEntry.Precedes)
    (above : ∀ bound, lower = some bound → IsAbove entry.value bound)
    (inClass : valueClassOf entry.value = some valueClass) :
    entry ∉ entries.take (rangeStart entries lower) := by
  intro member
  cases lower with
  | none =>
      simp [rangeStart] at member
  | some bound =>
      obtain ⟨comparison, compares, accepted⟩ := above bound rfl
      obtain ⟨own, ownClass, boundClass⟩ :=
        valueClassOf_of_compareValues compares
      obtain rfl := Option.some.inj (ownClass.symm.trans inClass)
      simp only [rangeStart] at member
      split_ifs at member with inclusive
      · have less :=
          (lowerBound_spec boundClass classes sorted).1 entry member
        obtain rfl := Option.some.inj (compares.symm.trans less)
        simp [inclusive, ComparisonOperator.accepts] at accepted
      · have notGreater :=
          (upperBound_spec boundClass classes sorted).1 entry member
        simp only [inclusive, Bool.false_eq_true, if_false,
          ComparisonOperator.accepts, beq_iff_eq] at accepted
        exact notGreater (accepted ▸ compares)

/-- A range lookup ends behind the entries below the upper bound. -/
theorem not_mem_drop_rangeEnd
    {entries : List OrderedEntry}
    {entry : OrderedEntry}
    (classes :
      ∀ entry ∈ entries, valueClassOf entry.value = some valueClass)
    (sorted : entries.Pairwise OrderedEntry.Precedes)
    (below : ∀ bound, upper = some bound → IsBelow entry.value bound)
    (inClass : valueClassOf entry.value = some valueClass) :
    entry ∉ entries.drop (rangeEnd entries upper) := by
  intro member
  cases upper with
  | none =>
      simp [rangeEnd] at member
  | some bound =>
      obtain ⟨comparison, compares, accepted⟩ := below bound rfl
      obtain ⟨own, ownClass, boundClass⟩ :=
        valueClassOf_of_compareValues compares
      obtain rfl := Option.some.inj (ownClass.symm.trans inClass)
      simp only [rangeEnd] at member
      split_ifs at member with inclusive
      · have greater :=
          (upperBound_spec boundClass classes sorted).2 entry member
        obtain rfl := Option.some.inj (compares.symm.trans greater)
        simp [inclusive, ComparisonOperator.accepts] at accepted
      · have notLess :=
          (lowerBound_spec boundClass classes sorted).2 entry member
        simp only [inclusive, Bool.false_eq_true, if_false,
          ComparisonOperator.accepts, beq_iff_eq] at accepted
        exact notLess (accepted ▸ compares)

/-- An entry between the bounds stands at a place of the range. -/
theorem mem_range_of_between
    {entries : List OrderedEntry}
    {entry : OrderedEntry}
    (classes :
      ∀ entry ∈ entries, valueClassOf entry.value = some valueClass)
    (sorted : entries.Pairwise OrderedEntry.Precedes)
    (member : entry ∈ entries)
    (above : ∀ bound, lower = some bound → IsAbove entry.value bound)
    (below : ∀ bound, upper = some bound → IsBelow entry.value bound) :
    entry ∈
      (entries.take
        (max (rangeStart entries lower) (rangeEnd entries upper))).drop
          (rangeStart entries lower) := by
  have inClass := classes entry member
  obtain ⟨position, found⟩ := List.mem_iff_getElem?.mp member
  have start := not_mem_take_rangeStart classes sorted above inClass
  have stop := not_mem_drop_rangeEnd classes sorted below inClass
  have afterStart : rangeStart entries lower ≤ position := by
    by_contra before
    exact start (List.mem_iff_getElem?.mpr
      ⟨position, by rw [List.getElem?_take, if_pos (by omega), found]⟩)
  have beforeEnd : position < rangeEnd entries upper := by
    by_contra behind
    refine stop (List.mem_iff_getElem?.mpr
      ⟨position - rangeEnd entries upper, ?_⟩)
    rw [List.getElem?_drop, ← found]
    congr 1
    omega
  refine List.mem_iff_getElem?.mpr
    ⟨position - rangeStart entries lower, ?_⟩
  rw [List.getElem?_drop, List.getElem?_take, if_pos (by omega), ← found]
  congr 1
  omega

/-- A document listed under a value in a range is found by the range. -/
theorem mem_lookupRange
    {value : DocumentValue}
    (wellFormed : index.WellFormed)
    (keyed : value.HasKey)
    (inClass : valueClassOf value = some valueClass)
    (held : index.Holds (canonicalKey value) docKey)
    (above : ∀ bound, lower = some bound → IsAbove value bound)
    (below : ∀ bound, upper = some bound → IsBelow value bound) :
    docKey ∈ index.lookupRange valueClass lower upper := by
  obtain ⟨keys, present, member⟩ := held
  obtain ⟨entry, inEntries, same⟩ :=
    wellFormed.listed value valueClass keyed inClass (by simp [present])
  subst same
  have entryKey := (wellFormed.entry valueClass entry inEntries).2.2
  have classes := fun entry member =>
    (wellFormed.entry valueClass entry member).1
  have sorted := wellFormed.sorted valueClass
  unfold lookupRange rangeEntries
  simp only
  rw [mem_foldl_addKeys]
  exact .inr ⟨entry,
    mem_range_of_between classes sorted inEntries above below,
    by simpa [entryKey, present] using member⟩

end Lookup

end FieldIndex

end SinterDb
