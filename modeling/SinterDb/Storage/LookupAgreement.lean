import SinterDb.Storage.IndexSetRepresentation

namespace SinterDb

open Unicode

/-!
# Lookups depend only on the documents

Two indexes of one definition over the same documents answer every lookup with
the same documents, whatever the order inside of them is.
-/

namespace FieldIndex

/-- Two indexes answer in the same way. -/
structure SameAnswers (index other : FieldIndex) : Prop where
  spec : other.spec = index.spec
  equal :
    ∀ value docKey,
      docKey ∈ (other.lookupEqual value).getD [] ↔
        docKey ∈ (index.lookupEqual value).getD []
  range :
    ∀ valueClass lower upper,
      (∀ bound, lower = some bound →
        valueClassOf bound.value = some valueClass) →
      (∀ bound, upper = some bound →
        valueClassOf bound.value = some valueClass) →
      ∀ docKey,
        docKey ∈ other.lookupRange valueClass lower upper ↔
          docKey ∈ index.lookupRange valueClass lower upper
  estimate :
    ∀ value, other.estimateEqual value = index.estimateEqual value
  arrays : other.hasArrayValues = index.hasArrayValues
  conflict :
    ∀ docKey document,
      other.conflictFor docKey document = index.conflictFor docKey document

section Range

variable
  {valueClass : ValueClass}
  {lower upper : Option IndexBound}
  {entries : List OrderedEntry}

/-- The entries of a range are above its lower bound. -/
theorem isAbove_of_mem_drop
    {entry : OrderedEntry}
    (classes :
      ∀ entry ∈ entries, valueClassOf entry.value = some valueClass)
    (sorted : entries.Pairwise OrderedEntry.Precedes)
    (member : entry ∈ entries.drop (rangeStart entries lower))
    {bound : IndexBound}
    (isBound : lower = some bound)
    (boundClass : valueClassOf bound.value = some valueClass) :
    IsAbove entry.value bound := by
  subst isBound
  have inClass := classes entry (List.mem_of_mem_drop member)
  obtain ⟨β, order, place, compares⟩ := exists_order valueClass
  have comparison := compares _ _ inClass boundClass
  refine ⟨_, comparison, ?_⟩
  simp only [rangeStart] at member
  split_ifs at member with inclusive
  · have notLess := (lowerBound_spec boundClass classes sorted).2 entry member
    rw [comparison] at notLess
    simpa [inclusive, ComparisonOperator.accepts] using notLess
  · have greater := (upperBound_spec boundClass classes sorted).2 entry member
    rw [comparison] at greater
    simpa [inclusive, ComparisonOperator.accepts] using greater

/-- The entries of a range are below its upper bound. -/
theorem isBelow_of_mem_take
    {entry : OrderedEntry}
    (classes :
      ∀ entry ∈ entries, valueClassOf entry.value = some valueClass)
    (sorted : entries.Pairwise OrderedEntry.Precedes)
    (member : entry ∈ entries.take (rangeEnd entries upper))
    {bound : IndexBound}
    (isBound : upper = some bound)
    (boundClass : valueClassOf bound.value = some valueClass) :
    IsBelow entry.value bound := by
  subst isBound
  have inClass := classes entry (List.mem_of_mem_take member)
  obtain ⟨β, order, place, compares⟩ := exists_order valueClass
  have comparison := compares _ _ inClass boundClass
  refine ⟨_, comparison, ?_⟩
  simp only [rangeEnd] at member
  split_ifs at member with inclusive
  · have notGreater :=
      (upperBound_spec boundClass classes sorted).1 entry member
    rw [comparison] at notGreater
    simpa [inclusive, ComparisonOperator.accepts] using notGreater
  · have less := (lowerBound_spec boundClass classes sorted).1 entry member
    rw [comparison] at less
    simpa [inclusive, ComparisonOperator.accepts] using less

/-- The entries of a range are those between its bounds. -/
theorem mem_range_iff
    (classes :
      ∀ entry ∈ entries, valueClassOf entry.value = some valueClass)
    (sorted : entries.Pairwise OrderedEntry.Precedes)
    (lowerClass :
      ∀ bound, lower = some bound →
        valueClassOf bound.value = some valueClass)
    (upperClass :
      ∀ bound, upper = some bound →
        valueClassOf bound.value = some valueClass)
    (entry : OrderedEntry) :
    entry ∈
        (entries.take
          (max (rangeStart entries lower) (rangeEnd entries upper))).drop
            (rangeStart entries lower) ↔
      entry ∈ entries ∧
        (∀ bound, lower = some bound → IsAbove entry.value bound) ∧
        ∀ bound, upper = some bound → IsBelow entry.value bound := by
  constructor
  · intro member
    have inTake := List.mem_of_mem_drop member
    have inDrop : entry ∈ entries.drop (rangeStart entries lower) := by
      rw [List.drop_take] at member
      exact List.mem_of_mem_take member
    have inFront : entry ∈ entries.take (rangeEnd entries upper) := by
      rcases Nat.le_total (rangeEnd entries upper)
        (rangeStart entries lower) with noRange | ordered
      · rw [max_eq_left noRange, List.drop_take, Nat.sub_self] at member
        cases member
      · rwa [max_eq_right ordered] at inTake
    exact ⟨List.mem_of_mem_take inTake,
      fun bound isBound =>
        isAbove_of_mem_drop classes sorted inDrop isBound
          (lowerClass bound isBound),
      fun bound isBound =>
        isBelow_of_mem_take classes sorted inFront isBound
          (upperClass bound isBound)⟩
  · rintro ⟨member, above, below⟩
    exact mem_range_of_between classes sorted member above below

end Range

/-- The documents under a value, wherever they are the same ones. -/
theorem Agrees.mem_byValue
    {index other : FieldIndex}
    (agrees : index.Agrees other)
    (key : Bytes)
    (docKey : JsString) :
    docKey ∈ (other.byValue.get? key).getD [] ↔
      docKey ∈ (index.byValue.get? key).getD [] :=
  (agrees.byValue key).mem_iff.symm

/-- Lists with the same members have an entry of a kind together. -/
theorem any_congr
    {keys others : List JsString}
    {test : JsString → Bool}
    (same : ∀ {key}, key ∈ keys ↔ key ∈ others) :
    others.any test = keys.any test := by
  rw [Bool.eq_iff_iff, List.any_eq_true, List.any_eq_true]
  simp only [same]

/-- A conflict is another document under the value, or without the field. -/
theorem conflictFor_eq
    (index : FieldIndex)
    (docKey : JsString)
    (document : Document) :
    index.conflictFor docKey document =
      if !index.spec.unique then
        none
      else
        match resolveField document index.segments with
        | none =>
            if !index.spec.sparse &&
                index.missing.any fun other => !(other == docKey) then
              some (index.conflict
                (utf16 "a document without the field already exists"))
            else
              none
        | some value =>
            if ((index.byValue.get? (canonicalKey value)).getD []).any
                fun other => !(other == docKey) then
              some (index.conflict (utf16 "value " ++ describeValue value))
            else
              none := by
  unfold conflictFor
  congr 1
  cases resolveField document index.segments with
  | none =>
      cases index.spec.sparse <;> simp
  | some value =>
      simp only
      cases index.byValue.get? (canonicalKey value) <;> simp

/-- Indexes over the same documents answer in the same way. -/
theorem Represents.sameAnswers
    {index other : FieldIndex}
    {documents : Documents}
    (represents : index.Represents documents)
    (otherRepresents : other.Represents documents)
    (sameSpec : other.spec = index.spec) :
    index.SameAnswers other := by
  have agrees := represents.agreesWith otherRepresents sameSpec.symm
  refine ⟨sameSpec, ?_, ?_, ?_, ?_, ?_⟩
  · intro value docKey
    exact agrees.mem_byValue _ docKey
  · intro valueClass lower upper lowerClass upperClass docKey
    unfold lookupRange rangeEntries
    simp only [mem_foldl_addKeys, List.not_mem_nil, false_or]
    refine exists_congr fun entry => ?_
    rw [mem_range_iff (otherRepresents.toLists.class_of_entry valueClass)
        (otherRepresents.sorted valueClass) lowerClass upperClass,
      mem_range_iff (represents.toLists.class_of_entry valueClass)
        (represents.sorted valueClass) lowerClass upperClass,
      (agrees.ordered valueClass).mem_iff, agrees.mem_byValue]
  · intro value
    exact ((agrees.byValue _).length_eq).symm
  · unfold hasArrayValues
    rw [agrees.arrayValues]
  · intro docKey document
    rw [conflictFor_eq, conflictFor_eq]
    have sameSegments : other.segments = index.segments := by
      unfold segments
      rw [sameSpec]
    have sameConflict : other.conflict = index.conflict := by
      funext description
      unfold conflict
      rw [sameSpec]
    rw [sameSpec, sameSegments, sameConflict,
      any_congr agrees.missing.mem_iff]
    cases resolveField document index.segments with
    | none =>
        rfl
    | some value =>
        simp only
        rw [any_congr (agrees.byValue (canonicalKey value)).mem_iff]

end FieldIndex

end SinterDb
