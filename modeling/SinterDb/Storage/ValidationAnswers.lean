import SinterDb.Storage.IndexValidation

namespace SinterDb

open Unicode

/-!
# What a validated index answers

`validate` never looks for the values that the ordered part leaves out.  When
it leaves none out, an index without issues answers every lookup like one that
is rebuilt from the documents, and an index that answers so and has nothing
left over has no issues.
-/

namespace FieldIndex

section Ranges

variable
  {index : FieldIndex}
  {valueClass : ValueClass}
  {entries : List OrderedEntry}
  {bound : IndexBound}

/-- A bound of another class compares with no entry. -/
theorem compareValues_of_other_class
    (classes :
      ∀ entry ∈ entries, valueClassOf entry.value = some valueClass)
    (otherClass : valueClassOf bound.value ≠ some valueClass) :
    ∀ entry ∈ entries, compareValues entry.value bound.value = none := by
  intro entry member
  cases compares : compareValues entry.value bound.value with
  | none =>
      rfl
  | some comparison =>
      obtain ⟨common, entryClass, boundClass⟩ :=
        valueClassOf_of_compareValues compares
      rw [classes entry member] at entryClass
      rw [← entryClass] at boundClass
      exact absurd boundClass otherClass

/-- A search that never goes to the right ends at the start. -/
theorem bound_eq_zero
    {goesRight : OrderedEntry → Bool}
    (never : ∀ entry ∈ entries, goesRight entry = false) :
    Search.bound goesRight entries = 0 := by
  have front : Search.FrontPart goesRight entries := by
    refine List.pairwise_iff_forall_sublist.mpr fun inside isRight => ?_
    rw [never _ (inside.subset (by simp))] at isRight
    cases isRight
  cases entries with
  | nil =>
      rfl
  | cons first rest =>
      by_contra positive
      have right :=
        (Search.bound_spec front).1 first
          (by
            rw [← Nat.succ_pred_eq_of_ne_zero positive, List.take_succ_cons]
            exact List.mem_cons_self)
      rw [never first List.mem_cons_self] at right
      cases right

/-- Bounds of another class are at the start of the entries. -/
theorem bounds_of_other_class
    (classes :
      ∀ entry ∈ entries, valueClassOf entry.value = some valueClass)
    (otherClass : valueClassOf bound.value ≠ some valueClass) :
    rangeStart entries (some bound) = 0 ∧
      rangeEnd entries (some bound) = 0 := by
  have none := compareValues_of_other_class classes otherClass
  have lower : lowerBound entries bound.value = 0 :=
    bound_eq_zero fun entry member => by rw [none entry member]; rfl
  have upper : upperBound entries bound.value = 0 :=
    bound_eq_zero fun entry member => by rw [none entry member]; rfl
  simp [rangeStart, rangeEnd, lower, upper]

/-- A lower bound of another class is no bound. -/
theorem lookupRange_lower_of_other_class
    (classes :
      ∀ entry ∈ index.entriesOf valueClass,
        valueClassOf entry.value = some valueClass)
    (otherClass : valueClassOf bound.value ≠ some valueClass)
    (upper : Option IndexBound) :
    index.lookupRange valueClass (some bound) upper =
      index.lookupRange valueClass none upper := by
  simp only [lookupRange, rangeEntries]
  rw [(bounds_of_other_class classes otherClass).1]
  rfl

/-- An upper bound of another class leaves nothing. -/
theorem lookupRange_upper_of_other_class
    (classes :
      ∀ entry ∈ index.entriesOf valueClass,
        valueClassOf entry.value = some valueClass)
    (otherClass : valueClassOf bound.value ≠ some valueClass)
    (lower : Option IndexBound) :
    index.lookupRange valueClass lower (some bound) = [] := by
  simp only [lookupRange, rangeEntries]
  rw [(bounds_of_other_class classes otherClass).2]
  simp

/-- Range lookups that agree for bounds of their class agree for all bounds. -/
theorem range_of_class
    {other : FieldIndex}
    (classes :
      ∀ entry ∈ index.entriesOf valueClass,
        valueClassOf entry.value = some valueClass)
    (otherClasses :
      ∀ entry ∈ other.entriesOf valueClass,
        valueClassOf entry.value = some valueClass)
    (agree :
      ∀ lower upper,
        (∀ bound, lower = some bound →
          valueClassOf bound.value = some valueClass) →
        (∀ bound, upper = some bound →
          valueClassOf bound.value = some valueClass) →
        ∀ docKey,
          docKey ∈ index.lookupRange valueClass lower upper ↔
            docKey ∈ other.lookupRange valueClass lower upper)
    (lower upper : Option IndexBound)
    (docKey : JsString) :
    docKey ∈ index.lookupRange valueClass lower upper ↔
      docKey ∈ other.lookupRange valueClass lower upper := by
  by_cases upperClass :
      ∀ bound, upper = some bound →
        valueClassOf bound.value = some valueClass
  · by_cases lowerClass :
        ∀ bound, lower = some bound →
          valueClassOf bound.value = some valueClass
    · exact agree lower upper lowerClass upperClass docKey
    · push Not at lowerClass
      obtain ⟨bound, rfl, otherClass⟩ := lowerClass
      rw [lookupRange_lower_of_other_class classes otherClass,
        lookupRange_lower_of_other_class otherClasses otherClass]
      exact agree none upper nofun upperClass docKey
  · push Not at upperClass
    obtain ⟨bound, rfl, otherClass⟩ := upperClass
    rw [lookupRange_upper_of_other_class classes otherClass,
      lookupRange_upper_of_other_class otherClasses otherClass]

/-- The documents of a range. -/
theorem mem_lookupRange_iff
    {lower upper : Option IndexBound}
    {docKey : JsString} :
    docKey ∈ index.lookupRange valueClass lower upper ↔
      ∃ entry ∈
        ((index.entriesOf valueClass).take
            (max (rangeStart (index.entriesOf valueClass) lower)
              (rangeEnd (index.entriesOf valueClass) upper))).drop
          (rangeStart (index.entriesOf valueClass) lower),
        docKey ∈ (index.byValue.get? entry.key).getD [] := by
  unfold lookupRange rangeEntries
  simp only [mem_foldl_addKeys, List.not_mem_nil, false_or]

end Ranges

section Sound

variable
  {live fresh : FieldIndex}
  {documents : Documents}

/-- Entries of a class that each come behind the one before are in order. -/
theorem pairwise_of_isChain
    {valueClass : ValueClass}
    {entries : List OrderedEntry}
    (classes :
      ∀ entry ∈ entries, valueClassOf entry.value = some valueClass)
    (chain : entries.IsChain OrderedEntry.Precedes) :
    entries.Pairwise OrderedEntry.Precedes := by
  obtain ⟨β, order, place, compares⟩ := exists_order valueClass
  have places :
      ∀ left ∈ entries, ∀ right ∈ entries,
        left.Precedes right ↔ place left.value ≤ place right.value := by
    intro left inLeft right inRight
    unfold OrderedEntry.Precedes
    rw [compares _ _ (classes left inLeft) (classes right inRight), ne_eq,
      Option.some.injEq, cmp_eq_gt_iff, not_lt]
  induction entries with
  | nil =>
      exact .nil
  | cons first rest inductionHypothesis =>
      have later :=
        inductionHypothesis
          (fun entry member => classes entry (List.mem_cons_of_mem _ member))
          chain.tail
          (fun left inLeft right inRight =>
            places left (List.mem_cons_of_mem _ inLeft) right
              (List.mem_cons_of_mem _ inRight))
      refine .cons ?_ later
      intro entry member
      cases rest with
      | nil =>
          cases member
      | cons second others =>
          have ahead := (List.isChain_cons_cons.mp chain).1
          rw [places first (by simp) second (by simp)] at ahead
          rw [places first (by simp) entry (List.mem_cons_of_mem _ member)]
          rcases List.mem_cons.mp member with rfl | inOthers
          · exact ahead
          · have behind := (List.pairwise_cons.mp later).1 entry inOthers
            rw [places second (by simp) entry
              (List.mem_cons_of_mem _ member)] at behind
            exact ahead.trans behind

/-- A value that the rebuilt index has is held by a document. -/
theorem exists_held
    (represents : fresh.Represents documents)
    {key : Bytes}
    {docs : List JsString}
    (isDocs : fresh.byValue.get? key = some docs) :
    ∃ entry ∈ documents, entry.1 ∈ docs ∧
      ∃ value, resolveField entry.2 fresh.segments = some value ∧
        canonicalKey value = key := by
  have perm := represents.byValue key
  rw [isDocs, Option.getD_some] at perm
  obtain ⟨docKey, member⟩ :=
    List.exists_mem_of_ne_nil docs
      (fun isEmpty => represents.noEmpty key (isEmpty ▸ isDocs))
  obtain ⟨entry, inFilter, rfl⟩ := List.mem_map.mp (perm.mem_iff.mp member)
  obtain ⟨inDocuments, isHolder⟩ := List.mem_filter.mp inFilter
  exact ⟨entry, inDocuments, member,
    Option.map_eq_some_iff.mp (of_decide_eq_true isHolder)⟩

/-- The hash part of an index with the right contents. -/
theorem Compares.mem_byValue
    (compares : live.Compares fresh)
    (key : Bytes)
    (docKey : JsString) :
    docKey ∈ (live.byValue.get? key).getD [] ↔
      docKey ∈ (fresh.byValue.get? key).getD [] := by
  cases isDocs : fresh.byValue.get? key with
  | some docs =>
      obtain ⟨found, isFound, perm⟩ := compares.listed key docs isDocs
      rw [isFound]
      exact perm.mem_iff
  | none =>
      have absent : key ∉ live.byValue.keys := fun member =>
        JsMap.get?_eq_none.mp isDocs (compares.expected key member)
      rw [JsMap.get?_eq_none.mpr absent]

/-- An index with the right contents answers equality lookups like the other
one, whatever its ordered part is. -/
theorem Compares.answersEqualLike
    (compares : live.Compares fresh) :
    live.AnswersEqualLike fresh :=
  ⟨fun value => compares.mem_byValue (canonicalKey value), compares.arrays,
    compares.counted⟩

/-- The ordered part of an index with the right contents. -/
theorem Compares.mem_entriesOf
    (compares : live.Compares fresh)
    (lists : live.ListsValues)
    (represents : fresh.Represents documents)
    (keyed : documents.Keyed)
    (valueClass : ValueClass)
    (entry : OrderedEntry) :
    entry ∈ live.entriesOf valueClass ↔ entry ∈ fresh.entriesOf valueClass := by
  rw [represents.toLists.mem_entriesOf]
  constructor
  · intro member
    obtain ⟨hasKey, inClass, isKey⟩ := lists.entry valueClass entry member
    obtain ⟨haveDocuments, -, -⟩ :=
      (orderedProblems_eq_nil_iff live).mp compares.ordered
    have inFresh :=
      compares.expected _ (haveDocuments valueClass entry member)
    rw [isKey] at inFresh
    exact ⟨isKey, inClass,
      exists_holder represents.toLists keyed hasKey inClass
        fun absent => JsMap.get?_eq_none.mp absent inFresh⟩
  · rintro ⟨isKey, inClass, holder, inDocuments, found⟩
    have held := mem_holders inDocuments found
    rw [← (represents.byValue _).mem_iff, ← compares.mem_byValue] at held
    have present : canonicalKey entry.value ∈ live.byValue.keys := by
      by_contra absent
      rw [JsMap.get?_eq_none.mpr absent] at held
      cases held
    obtain ⟨other, inLive, sameValue⟩ := List.mem_map.mp
      (lists.listed entry.value valueClass
        (keyed holder inDocuments _ _ found) inClass present)
    have sameKey : other.key = entry.key := by
      rw [(lists.entry valueClass other inLive).2.2, sameValue, isKey]
    obtain ⟨value, key⟩ := entry
    obtain rfl : other.value = value := sameValue
    obtain rfl : other.key = key := sameKey
    exact inLive

/-- An index with the right contents answers like the rebuilt one, and nothing
is left over in it. -/
theorem Compares.answersLike
    (compares : live.Compares fresh)
    (lists : live.ListsValues)
    (represents : fresh.Represents documents)
    (keyed : documents.Keyed) :
    live.AnswersLike fresh ∧ live.Tidy fresh := by
  obtain ⟨haveDocuments, chains, -⟩ :=
    (orderedProblems_eq_nil_iff live).mp compares.ordered
  have classes :
      ∀ valueClass, ∀ entry ∈ live.entriesOf valueClass,
        valueClassOf entry.value = some valueClass :=
    fun valueClass entry member => (lists.entry valueClass entry member).2.1
  refine ⟨⟨compares.answersEqualLike, ?_⟩,
    ⟨fun docKey => compares.missing.mem_iff, compares.expected, ?_⟩⟩
  · intro valueClass
    have sorted :=
      pairwise_of_isChain (classes valueClass) (chains valueClass)
    refine range_of_class (classes valueClass)
      (represents.class_of_entry valueClass) ?_
    intro lower upper lowerClass upperClass docKey
    rw [mem_lookupRange_iff, mem_lookupRange_iff]
    refine exists_congr fun entry => ?_
    rw [mem_range_iff (classes valueClass) sorted lowerClass upperClass,
      mem_range_iff (represents.class_of_entry valueClass)
        (represents.sorted valueClass) lowerClass upperClass,
      compares.mem_entriesOf lists represents keyed, compares.mem_byValue]
  · intro valueClass entry member
    exact compares.expected _ (haveDocuments valueClass entry member)

end Sound

section Complete

variable
  {live fresh : FieldIndex}
  {documents : Documents}

/-- A document holds one value only. -/
theorem key_unique
    (represents : fresh.Represents documents)
    (stored : documents.Stored)
    {first second : Bytes}
    {docKey : JsString}
    (inFirst : docKey ∈ (fresh.byValue.get? first).getD [])
    (inSecond : docKey ∈ (fresh.byValue.get? second).getD []) :
    first = second := by
  rw [(represents.byValue _).mem_iff] at inFirst inSecond
  obtain ⟨left, leftFilter, rfl⟩ := List.mem_map.mp inFirst
  obtain ⟨right, rightFilter, sameKey⟩ := List.mem_map.mp inSecond
  obtain ⟨inLeft, isFirst⟩ := List.mem_filter.mp leftFilter
  obtain ⟨inRight, isSecond⟩ := List.mem_filter.mp rightFilter
  obtain rfl := List.inj_on_of_nodup_map stored.distinct inRight inLeft sameKey
  have isFirst := of_decide_eq_true isFirst
  have isSecond := of_decide_eq_true isSecond
  exact Option.some.inj (isFirst.symm.trans isSecond)

/-- The hash part of an index that answers like the rebuilt one. -/
theorem AnswersLike.listed
    (answers : live.AnswersLike fresh)
    (represents : fresh.Represents documents)
    (contents : live.HasContents)
    (freshContents : fresh.HasContents)
    {key : Bytes}
    {docs : List JsString}
    (isDocs : fresh.byValue.get? key = some docs) :
    ∃ found, live.byValue.get? key = some found ∧ found.Perm docs := by
  obtain ⟨entry, -, inDocs, value, -, rfl⟩ := exists_held represents isDocs
  have members := answers.equal value
  unfold lookupEqual at members
  rw [isDocs, Option.getD_some] at members
  cases found : live.byValue.get? (canonicalKey value) with
  | none =>
      rw [found] at members
      exact absurd ((members entry.1).mpr inDocs) List.not_mem_nil
  | some keys =>
      rw [found, Option.getD_some] at members
      refine ⟨keys, rfl, ?_⟩
      rw [List.perm_ext_iff_of_nodup (contents.listed _ _ found).1
        (freshContents.listed _ _ isDocs).1]
      exact members

/-- The documents of a range that has no end. -/
theorem mem_lookupRange_from
    {index : FieldIndex}
    {valueClass : ValueClass}
    {value : DocumentValue}
    {docKey : JsString} :
    docKey ∈ index.lookupRange valueClass (some ⟨value, true⟩) none ↔
      ∃ entry ∈
        (index.entriesOf valueClass).drop
          (lowerBound (index.entriesOf valueClass) value),
        docKey ∈ (index.byValue.get? entry.key).getD [] := by
  have start :
      rangeStart (index.entriesOf valueClass) (some ⟨value, true⟩) =
        lowerBound (index.entriesOf valueClass) value := rfl
  have stop :
      rangeEnd (index.entriesOf valueClass) none =
        (index.entriesOf valueClass).length := rfl
  rw [mem_lookupRange_iff, start, stop,
    max_eq_right (lowerBound_le (index.entriesOf valueClass) value),
    List.take_length]

/-- The documents of a range that has no start. -/
theorem mem_lookupRange_until
    {index : FieldIndex}
    {valueClass : ValueClass}
    {value : DocumentValue}
    {docKey : JsString} :
    docKey ∈ index.lookupRange valueClass none (some ⟨value, false⟩) ↔
      ∃ entry ∈
        (index.entriesOf valueClass).take
          (lowerBound (index.entriesOf valueClass) value),
        docKey ∈ (index.byValue.get? entry.key).getD [] := by
  have start : rangeStart (index.entriesOf valueClass) none = 0 := rfl
  have stop :
      rangeEnd (index.entriesOf valueClass) (some ⟨value, false⟩) =
        lowerBound (index.entriesOf valueClass) value := rfl
  rw [mem_lookupRange_iff, start, stop, Nat.zero_max, List.drop_zero]

/-- The documents of a range without an end, when the entries are in order. -/
theorem Represents.mem_lookupRange_from
    (represents : fresh.Represents documents)
    {valueClass : ValueClass}
    {value : DocumentValue}
    (inClass : valueClassOf value = some valueClass)
    {docKey : JsString} :
    docKey ∈ fresh.lookupRange valueClass (some ⟨value, true⟩) none ↔
      ∃ entry ∈ fresh.entriesOf valueClass,
        compareValues entry.value value ≠ some .lt ∧
          docKey ∈ (fresh.byValue.get? entry.key).getD [] := by
  have behind :=
    lowerBound_spec inClass (represents.class_of_entry valueClass)
      (represents.sorted valueClass)
  rw [FieldIndex.mem_lookupRange_from]
  constructor
  · rintro ⟨entry, member, listed⟩
    exact ⟨entry, List.mem_of_mem_drop member, behind.2 entry member, listed⟩
  · rintro ⟨entry, member, notLess, listed⟩
    rw [← List.take_append_drop
      (lowerBound (fresh.entriesOf valueClass) value)
      (fresh.entriesOf valueClass), List.mem_append] at member
    rcases member with inFront | inBack
    · exact absurd (behind.1 entry inFront) notLess
    · exact ⟨entry, inBack, listed⟩

/-- The documents of a range without a start, when the entries are in order. -/
theorem Represents.mem_lookupRange_until
    (represents : fresh.Represents documents)
    {valueClass : ValueClass}
    {value : DocumentValue}
    (inClass : valueClassOf value = some valueClass)
    {docKey : JsString} :
    docKey ∈ fresh.lookupRange valueClass none (some ⟨value, false⟩) ↔
      ∃ entry ∈ fresh.entriesOf valueClass,
        compareValues entry.value value = some .lt ∧
          docKey ∈ (fresh.byValue.get? entry.key).getD [] := by
  have behind :=
    lowerBound_spec inClass (represents.class_of_entry valueClass)
      (represents.sorted valueClass)
  rw [FieldIndex.mem_lookupRange_until]
  constructor
  · rintro ⟨entry, member, listed⟩
    exact ⟨entry, List.mem_of_mem_take member, behind.1 entry member, listed⟩
  · rintro ⟨entry, member, less, listed⟩
    rw [← List.take_append_drop
      (lowerBound (fresh.entriesOf valueClass) value)
      (fresh.entriesOf valueClass), List.mem_append] at member
    rcases member with inFront | inBack
    · exact ⟨entry, inFront, listed⟩
    · exact absurd less (behind.2 entry inBack)

section Entries

variable
  (tidy : live.Tidy fresh)
  (lists : live.ListsValues)
  (represents : fresh.Represents documents)
  (stored : documents.Stored)

include tidy lists represents stored

/-- An entry of a tidy index has documents, and is an entry of the rebuilt
one. -/
theorem Tidy.mem_fresh
    {valueClass : ValueClass}
    {entry : OrderedEntry}
    (member : entry ∈ live.entriesOf valueClass) :
    entry ∈ fresh.entriesOf valueClass ∧
      ∃ docKey, docKey ∈ (fresh.byValue.get? entry.key).getD [] := by
  obtain ⟨hasKey, inClass, isKey⟩ := lists.entry valueClass entry member
  obtain ⟨docs, isDocs⟩ :=
    Option.ne_none_iff_exists'.mp
      fun absent =>
        JsMap.get?_eq_none.mp absent (tidy.entries valueClass entry member)
  obtain ⟨holder, inDocuments, inDocs, value, found, sameKey⟩ :=
    exists_held represents isDocs
  have isValue : entry.value = value :=
    eq_of_canonicalKey (isComparableValue_of_class inClass) hasKey
      (stored.keyed holder inDocuments _ _ found)
      (isKey.symm.trans sameKey.symm)
  refine ⟨?_, holder.1, ?_⟩
  · rw [represents.toLists.mem_entriesOf]
    refine ⟨isKey, inClass, holder, inDocuments, ?_⟩
    rw [isValue]
    exact found
  · rw [isDocs]
    exact inDocs

/-- Entries of a tidy index with a common document are the same. -/
theorem Tidy.entry_unique
    {valueClass : ValueClass}
    {left right : OrderedEntry}
    (inLive : left ∈ live.entriesOf valueClass)
    (inFresh : right ∈ fresh.entriesOf valueClass)
    {docKey : JsString}
    (inLeft : docKey ∈ (fresh.byValue.get? left.key).getD [])
    (inRight : docKey ∈ (fresh.byValue.get? right.key).getD []) :
    left = right := by
  have sameKey := key_unique represents stored inLeft inRight
  have leftFresh :=
    (tidy.mem_fresh lists represents stored inLive).1
  obtain ⟨isKey, inClass, holder, inDocuments, found⟩ :=
    (represents.toLists.mem_entriesOf valueClass left).mp leftFresh
  obtain ⟨isRightKey, -, other, inOthers, rightFound⟩ :=
    (represents.toLists.mem_entriesOf valueClass right).mp inFresh
  have sameValue : left.value = right.value :=
    eq_of_canonicalKey (isComparableValue_of_class inClass)
      (stored.keyed holder inDocuments _ _ found)
      (stored.keyed other inOthers _ _ rightFound)
      (isKey.symm.trans (sameKey.trans isRightKey))
  obtain ⟨leftValue, leftKey⟩ := left
  obtain ⟨rightValue, rightKey⟩ := right
  obtain rfl : leftValue = rightValue := sameValue
  obtain rfl : leftKey = rightKey := sameKey
  rfl

/-- An index that answers like the rebuilt one is split at the lower bound of
each entry: only lesser values are before it, and none is behind it. -/
theorem AnswersLike.splits
    (answers : live.AnswersLike fresh)
    (listed :
      ∀ key docKey, key ∈ fresh.byValue.keys →
        (docKey ∈ (live.byValue.get? key).getD [] ↔
          docKey ∈ (fresh.byValue.get? key).getD []))
    {valueClass : ValueClass}
    {entry : OrderedEntry}
    (member : entry ∈ live.entriesOf valueClass) :
    entry ∉
        (live.entriesOf valueClass).take
          (lowerBound (live.entriesOf valueClass) entry.value) ∧
      ∀ other ∈
        (live.entriesOf valueClass).drop
          (lowerBound (live.entriesOf valueClass) entry.value),
        entry.Precedes other := by
  obtain ⟨β, order, place, compares⟩ := exists_order valueClass
  have inClass := (lists.entry valueClass entry member).2.1
  have isListed := fun docKey (other : OrderedEntry) inLive =>
    listed other.key docKey (tidy.entries valueClass other inLive)
  constructor
  · intro front
    obtain ⟨-, docKey, held⟩ :=
      tidy.mem_fresh lists represents stored member
    have range := answers.range valueClass none (some ⟨entry.value, false⟩)
    have found :=
      mem_lookupRange_until.mpr
        ⟨entry, front, (isListed docKey entry member).mpr held⟩
    obtain ⟨other, inFresh, less, otherHeld⟩ :=
      (represents.mem_lookupRange_until inClass).mp ((range docKey).mp found)
    rw [← tidy.entry_unique lists represents stored member inFresh held
        otherHeld,
      compares _ _ inClass inClass, cmp_self_eq_eq] at less
    cases less
  · intro other behind
    have inLive := List.mem_of_mem_drop behind
    obtain ⟨-, docKey, held⟩ := tidy.mem_fresh lists represents stored inLive
    have range := answers.range valueClass (some ⟨entry.value, true⟩) none
    have found :=
      mem_lookupRange_from.mpr
        ⟨other, behind, (isListed docKey other inLive).mpr held⟩
    obtain ⟨third, inFresh, notLess, thirdHeld⟩ :=
      (represents.mem_lookupRange_from inClass).mp ((range docKey).mp found)
    rw [← tidy.entry_unique lists represents stored inLive inFresh held
      thirdHeld] at notLess
    have otherClass := (lists.entry valueClass other inLive).2.1
    rw [compares _ _ otherClass inClass, ne_eq, Option.some.injEq,
      cmp_eq_lt_iff, not_lt] at notLess
    unfold OrderedEntry.Precedes
    rw [compares _ _ inClass otherClass, ne_eq, Option.some.injEq,
      cmp_eq_gt_iff, not_lt]
    exact notLess

end Entries

/-- A list is in order when it is split at each item: the item is not before
the place, and all that is behind the place comes behind the item. -/
theorem pairwise_of_splits
    {α : Type}
    {items : List α}
    {precedes : α → α → Prop}
    (splits :
      ∀ item ∈ items, ∃ place,
        item ∉ items.take place ∧
          ∀ other ∈ items.drop place, precedes item other) :
    items.Pairwise precedes := by
  rw [List.pairwise_iff_getElem]
  intro first second firstBound secondBound ordered
  obtain ⟨place, notBefore, precedesAll⟩ :=
    splits items[first] (List.getElem_mem firstBound)
  have behind : place ≤ first := by
    by_contra before
    refine notBefore (List.mem_take_iff_getElem.mpr ⟨first, ?_, rfl⟩)
    omega
  refine precedesAll _ (List.mem_drop_iff_getElem.mpr
    ⟨second - place, by omega, ?_⟩)
  congr 1
  omega

/-- An index that answers like the rebuilt one, with nothing left over, has the
right contents. -/
theorem AnswersLike.compares
    (answers : live.AnswersLike fresh)
    (tidy : live.Tidy fresh)
    (lists : live.ListsValues)
    (contents : live.HasContents)
    (freshContents : fresh.HasContents)
    (represents : fresh.Represents documents)
    (stored : documents.Stored) :
    live.Compares fresh := by
  have listed := fun key docs isDocs =>
    @AnswersLike.listed live fresh documents answers represents contents
      freshContents key docs isDocs
  have found :
      ∀ key ∈ fresh.byValue.keys, ∃ keys docs,
        live.byValue.get? key = some keys ∧
          fresh.byValue.get? key = some docs ∧ keys.Perm docs := by
    intro key member
    obtain ⟨docs, isDocs⟩ :=
      Option.ne_none_iff_exists'.mp
        fun absent => JsMap.get?_eq_none.mp absent member
    obtain ⟨keys, isKeys, perm⟩ := listed key docs isDocs
    exact ⟨keys, docs, isKeys, isDocs, perm⟩
  have same :
      ∀ key docKey, key ∈ fresh.byValue.keys →
        (docKey ∈ (live.byValue.get? key).getD [] ↔
          docKey ∈ (fresh.byValue.get? key).getD []) := by
    intro key docKey member
    obtain ⟨keys, docs, isKeys, isDocs, perm⟩ := found key member
    rw [isKeys, isDocs]
    exact perm.mem_iff
  refine ⟨(orderedProblems_eq_nil_iff live).mpr ⟨?_, ?_, ?_⟩,
    answers.counted, answers.arrays, listed, tidy.values, ?_⟩
  · intro valueClass entry member
    obtain ⟨keys, -, isKeys, -⟩ :=
      found _ (tidy.entries valueClass entry member)
    by_contra absent
    rw [JsMap.get?_eq_none.mpr absent] at isKeys
    cases isKeys
  · intro valueClass
    apply List.Pairwise.isChain
    refine pairwise_of_splits fun entry member => ?_
    exact ⟨_, answers.splits tidy lists represents stored same member⟩
  · intro key isEmpty
    have inLive : key ∈ live.byValue.keys := by
      by_contra absent
      rw [JsMap.get?_eq_none.mpr absent] at isEmpty
      cases isEmpty
    obtain ⟨keys, docs, isKeys, isDocs, perm⟩ :=
      found key (tidy.values key inLive)
    obtain rfl := Option.some.inj (isKeys.symm.trans isEmpty)
    obtain rfl := List.nil_perm.mp perm
    exact represents.noEmpty key isDocs
  · rw [List.perm_ext_iff_of_nodup contents.missing.1
      freshContents.missing.1]
    exact tidy.missing

end Complete

section Represented

variable
  {index : FieldIndex}
  {documents : Documents}

/-- An index that represents stored documents has keys of documents. -/
theorem Represents.hasContents
    (represents : index.Represents documents)
    (stored : documents.Stored)
    (documentKeys : ∀ key ∈ documents.keys, IsDocumentKey key) :
    index.HasContents := by
  have filtered :
      ∀ {test : JsString × Document → Bool} {keys : List JsString},
        keys.Perm (Documents.keys (documents.filter test)) →
          keys.Nodup ∧ ∀ docKey ∈ keys, IsDocumentKey docKey := by
    intro test keys perm
    refine ⟨perm.nodup_iff.mpr
      (stored.distinct.sublist (List.filter_sublist.map _)), ?_⟩
    intro docKey member
    exact documentKeys docKey
      (mem_keys_of_mem_filter (perm.mem_iff.mp member))
  constructor
  · intro key keys found
    have perm := represents.byValue key
    rw [found, Option.getD_some] at perm
    exact filtered perm
  · have perm := represents.missing
    split_ifs at perm
    · rw [List.perm_nil.mp perm]
      exact ⟨.nil, nofun⟩
    · exact filtered perm

/-- An index that represents documents lists their comparable values. -/
theorem Represents.listsValues
    (represents : index.Represents documents)
    (keyed : documents.Keyed) :
    index.ListsValues := by
  refine ⟨?_, ?_⟩
  · intro valueClass entry member
    obtain ⟨isKey, inClass, holder, inDocuments, found⟩ :=
      (represents.toLists.mem_entriesOf valueClass entry).mp member
    exact ⟨keyed holder inDocuments _ _ found, inClass, isKey⟩
  · intro value valueClass hasKey inClass member
    rw [represents.values]
    exact ⟨inClass,
      exists_holder represents.toLists keyed hasKey inClass
        fun absent => JsMap.get?_eq_none.mp absent member⟩

end Represented

section Reports

variable
  {set : IndexSet}
  {live : FieldIndex}
  {documents : Documents}

/-- Every issue names its index. -/
theorem issue_index
    (live : FieldIndex)
    (documents : Documents) :
    ∀ issue ∈ live.issues documents, issue.index = live.spec.name := by
  intro found member
  unfold issues counterIssues valueIssues uniqueIssues at member
  simp only [List.mem_append, List.mem_map, List.mem_flatMap,
    List.mem_ite_nil_left, List.mem_ite_nil_right, List.mem_singleton]
    at member
  rcases member with
    (((⟨_, -, rfl⟩ | ⟨-, rfl⟩ | ⟨-, rfl⟩) | ⟨_, -, inValue⟩ |
      ⟨_, -, -, rfl⟩) | ⟨-, rfl⟩) | ⟨-, ⟨_, -, -, rfl⟩ | ⟨-, rfl⟩⟩
  · rfl
  · rfl
  · rfl
  · split at inValue
    · rw [List.mem_singleton.mp inValue]
      rfl
    · rw [List.mem_ite_nil_right, List.mem_singleton] at inValue
      rw [inValue.2]
      rfl
  · rfl
  · rfl
  · rfl
  · rfl

/-- The report has no issue of an index exactly when the index has none, as
long as the indexes before it do not fill the report. -/
theorem not_reported_iff
    {before after : List FieldIndex}
    (isAll : IndexSet.all set = before ++ live :: after)
    (names : ∀ other ∈ before ++ after, other.spec.name ≠ live.spec.name)
    (room : (before.flatMap fun other => other.issues documents).length < 50) :
    (∀ issue ∈ IndexSet.validate set documents,
        issue.index ≠ live.spec.name) ↔
      live.issues documents = [] := by
  unfold IndexSet.validate
  rw [isAll, List.flatMap_append, List.flatMap_cons]
  constructor
  · intro others
    cases issues : live.issues documents with
    | nil =>
        rfl
    | cons first rest =>
        refine absurd (issue_index live documents first ?_)
          (others first ?_)
        · rw [issues]
          exact List.mem_cons_self
        · rw [issues, List.take_append,
            List.take_of_length_le (by omega), List.mem_append]
          right
          obtain ⟨places, isPlaces⟩ := Nat.exists_eq_add_of_lt room
          have enough :
              50 - (before.flatMap fun other =>
                other.issues documents).length = places + 1 := by
            omega
          rw [enough, List.cons_append, List.take_succ_cons]
          exact List.mem_cons_self
  · intro noIssues issue member
    rw [noIssues, List.nil_append] at member
    rcases List.mem_append.mp (List.mem_of_mem_take member) with
      inBefore | inAfter
    · obtain ⟨other, isOther, found⟩ := List.mem_flatMap.mp inBefore
      rw [issue_index other documents issue found]
      exact names other (List.mem_append_left _ isOther)
    · obtain ⟨other, isOther, found⟩ := List.mem_flatMap.mp inAfter
      rw [issue_index other documents issue found]
      exact names other (List.mem_append_right _ isOther)

/--
An index of which `validate` reports no issue answers equality lookups like a
rebuilt one, whatever its ordered part is.  When the ordered part lists its
values, `validate` reports none exactly when the index answers every lookup so,
nothing is left over in it, and the documents respect its uniqueness.
-/
theorem validate_reports_iff
    {before after : List FieldIndex}
    (stored : documents.Stored)
    (documentKeys : ∀ key ∈ documents.keys, IsDocumentKey key)
    (isAll : IndexSet.all set = before ++ live :: after)
    (names : ∀ other ∈ before ++ after, other.spec.name ≠ live.spec.name)
    (room : (before.flatMap fun other => other.issues documents).length < 50)
    (contents : live.HasContents) :
    ((∀ issue ∈ IndexSet.validate set documents,
        issue.index ≠ live.spec.name) →
      live.AnswersEqualLike (rebuilt live.spec documents) ∧
        live.spec.Distinguishes documents) ∧
      (live.ListsValues →
        ((∀ issue ∈ IndexSet.validate set documents,
            issue.index ≠ live.spec.name) ↔
          live.AnswersLike (rebuilt live.spec documents) ∧
            live.Tidy (rebuilt live.spec documents) ∧
            live.spec.Distinguishes documents)) := by
  obtain ⟨represents, -⟩ := rebuilt_represents stored live.spec
  have freshContents := represents.hasContents stored documentKeys
  rw [not_reported_iff isAll names room,
    issues_eq_nil_iff contents freshContents stored]
  refine ⟨fun ⟨compares, distinguishes⟩ =>
    ⟨compares.answersEqualLike, distinguishes⟩, fun lists => ?_⟩
  rw [← and_assoc]
  refine and_congr_left fun _ => ?_
  constructor
  · intro compares
    exact compares.answersLike lists represents stored.keyed
  · rintro ⟨answers, tidy⟩
    exact answers.compares tidy lists contents freshContents represents stored

end Reports

/-- An index of the field `a`. -/
def plainSpec : IndexSpec where
  name := utf16 "a_1"
  field := utf16 "a"
  descending := false
  unique := false
  sparse := false

/-- The key of a document: an id of sixteen bytes that are the same. -/
def plainKey (byte : UInt8) : JsString :=
  CustomId.toHexString
    ⟨List.replicate 16 byte, CustomId.length_repeated byte⟩

/-- A document with a value of the field `a`, under its key. -/
def plainEntry (byte : UInt8) (value : Int) : JsString × Document :=
  (plainKey byte, [(utf16 "a", .bigint value)])

/-- One document with a value of the field `a`. -/
def oneDocument : Documents :=
  [plainEntry 0 5]

/-- Three documents, two of them with the same value. -/
def threeDocuments : Documents :=
  [plainEntry 0 5, plainEntry 1 3, plainEntry 2 5]

/-- The set with one index. -/
def onlyIndex (live : FieldIndex) : IndexSet :=
  JsMap.ofEntries [(live.spec.name, live)]

/-- Documents with values that are encoded, under keys of documents. -/
theorem stored_of_plain
    {documents : Documents}
    (distinct : documents.keys.Nodup)
    (plain :
      ∀ entry ∈ documents, IsDocumentKey entry.1 ∧
        (DocumentValue.document entry.2).HasKey) :
    documents.Stored ∧ ∀ key ∈ documents.keys, IsDocumentKey key := by
  refine ⟨⟨distinct, ?_⟩, ?_⟩
  · intro entry member path value found
    exact hasKey_of_resolveField (plain entry member).2 found
  · intro key member
    obtain ⟨entry, inDocuments, rfl⟩ := List.mem_map.mp member
    exact (plain entry inDocuments).1

/-- The three documents can be stored under their keys. -/
theorem plain_threeDocuments :
    ∀ entry ∈ threeDocuments, IsDocumentKey entry.1 ∧
      (DocumentValue.document entry.2).HasKey := by
  simp only [threeDocuments, List.forall_mem_cons, DocumentValue.HasKey]
  refine ⟨⟨⟨_, rfl⟩, ?_⟩, ⟨⟨_, rfl⟩, ?_⟩, ⟨⟨_, rfl⟩, ?_⟩, nofun⟩
  all_goals decide +kernel

/-- The first of them is stored under its key. -/
theorem stored_oneDocument :
    oneDocument.Stored ∧ ∀ key ∈ oneDocument.keys, IsDocumentKey key := by
  refine stored_of_plain (List.nodup_singleton _) fun entry member => ?_
  obtain rfl := List.mem_singleton.mp member
  exact plain_threeDocuments _ List.mem_cons_self

/-- An index that the documents entered in another order answers like the one
that is rebuilt from them. -/
theorem validate_reports_rebuilt :
    rebuilt plainSpec threeDocuments.reverse ≠
        rebuilt plainSpec threeDocuments ∧
      (rebuilt plainSpec threeDocuments.reverse).AnswersLike
        (rebuilt plainSpec threeDocuments) := by
  obtain ⟨stored, documentKeys⟩ :=
    stored_of_plain (by decide +kernel) plain_threeDocuments
  obtain ⟨reversed, reversedKeys⟩ :=
    @stored_of_plain threeDocuments.reverse (by decide +kernel)
      fun entry member =>
        plain_threeDocuments entry (List.mem_reverse.mp member)
  obtain ⟨represents, sameSpec⟩ := rebuilt_represents reversed plainSpec
  have noIssue :
      IndexSet.validate
        (onlyIndex (rebuilt plainSpec threeDocuments.reverse))
        threeDocuments = [] := by
    decide +kernel
  have reports :=
    @validate_reports_iff
      (onlyIndex (rebuilt plainSpec threeDocuments.reverse))
      (rebuilt plainSpec threeDocuments.reverse) threeDocuments [] [] stored
      documentKeys rfl nofun (by decide)
      (represents.hasContents reversed reversedKeys)
  have reports := reports.2 (represents.listsValues reversed.keyed)
  rw [noIssue, sameSpec] at reports
  refine ⟨fun same => ?_, (reports.mp nofun).1⟩
  have entries := congrArg (fun index => index.byValue.entries) same
  revert entries
  decide +kernel

/-- An empty index that lists a document as one without the field. -/
def straying : FieldIndex :=
  { create plainSpec with missing := [plainKey 0] }

/-- An index whose ordered part has lost its values. -/
def unordered : FieldIndex :=
  { rebuilt plainSpec oneDocument with ordered := .empty }

/-- The straying index answers every lookup right and is reported; the other
one answers ranges wrong and is not reported. -/
theorem not_validate_reports :
    (¬ ∀ (live : FieldIndex) (documents : Documents), documents.Stored →
      (∀ key ∈ documents.keys, IsDocumentKey key) → live.HasContents →
        live.AnswersLike (rebuilt live.spec documents) ∧
          live.spec.Distinguishes documents →
        ∀ issue ∈ IndexSet.validate (onlyIndex live) documents,
          issue.index ≠ live.spec.name) ∧
      ¬ ∀ (live : FieldIndex) (documents : Documents), documents.Stored →
        (∀ key ∈ documents.keys, IsDocumentKey key) → live.HasContents →
          (∀ issue ∈ IndexSet.validate (onlyIndex live) documents,
            issue.index ≠ live.spec.name) →
          live.AnswersLike (rebuilt live.spec documents) ∧
            live.spec.Distinguishes documents := by
  constructor
  · intro silent
    have contents : straying.HasContents := by
      refine ⟨nofun, List.nodup_singleton _, ?_⟩
      intro docKey member
      exact ⟨_, List.mem_singleton.mp member⟩
    have answers : straying.AnswersLike (rebuilt straying.spec []) :=
      ⟨⟨fun _ _ => Iff.rfl, rfl, rfl⟩, fun _ _ _ _ => Iff.rfl⟩
    have reported :
        (IndexSet.validate (onlyIndex straying) []).map IndexIssue.index =
          [straying.spec.name] := by
      decide +kernel
    obtain ⟨issue, member, isName⟩ :=
      List.mem_map.mp (reported ▸ List.mem_singleton_self _)
    exact silent straying [] ⟨List.nodup_nil, nofun⟩ nofun contents
      ⟨answers, .nil⟩ issue member isName
  · intro answersRight
    obtain ⟨stored, documentKeys⟩ := stored_oneDocument
    obtain ⟨represents, -⟩ := rebuilt_represents stored plainSpec
    have contents := represents.hasContents stored documentKeys
    have noIssue :
        IndexSet.validate (onlyIndex unordered) oneDocument = [] := by
      decide +kernel
    have answers :=
      (answersRight unordered oneDocument stored documentKeys
        ⟨contents.listed, contents.missing⟩
        (by rw [noIssue]; exact nofun)).1
    have range := answers.range .bigint none none (plainKey 0)
    exact absurd range (by decide +kernel)

end FieldIndex

end SinterDb
