import SinterDb.Storage.IndexSetInvariant

namespace SinterDb

open Unicode

/-!
# What an index holds exactly

An index represents documents when it is what building it from them would
give: the same documents under each value, the same documents without the
field, each value once in the order of its class, and the right counts.
-/

/-- Documents with their keys. -/
abbrev Documents := List (JsString × Document)

/-- All values of the documents have a canonical key. -/
def Documents.Keyed (documents : Documents) : Prop :=
  ∀ entry ∈ documents, entry.2.Keyed

/-- The keys of documents. -/
def Documents.keys (documents : Documents) : List JsString :=
  documents.map Prod.fst

/-- The documents other than the one with a key. -/
def Documents.without
    (documents : Documents)
    (key : JsString) : Documents :=
  documents.filter fun entry => !(entry.1 == key)

namespace FieldIndex

/-- The canonical key under which a document is listed. -/
def listingKey
    (segments : List JsString)
    (document : Document) : Option Bytes :=
  (resolveField document segments).map canonicalKey

/-- The documents that hold a value. -/
def holders
    (segments : List JsString)
    (documents : Documents)
    (key : Bytes) : List JsString :=
  Documents.keys
    (documents.filter fun entry => listingKey segments entry.2 = some key)

/-- The documents without the field. -/
def lacking
    (segments : List JsString)
    (documents : Documents) : List JsString :=
  Documents.keys
    (documents.filter fun entry => listingKey segments entry.2 = none)

/-- The document has an array in the field. -/
def holdsArray (segments : List JsString) (document : Document) : Bool :=
  ((resolveField document segments).map isArray).getD false

/-- The index counts the document. -/
def isCounted
    (spec : IndexSpec)
    (segments : List JsString)
    (document : Document) : Bool :=
  (resolveField document segments).isSome || !spec.sparse

/-- The index lists exactly the documents, in whatever order. -/
structure Lists (index : FieldIndex) (documents : Documents) : Prop where
  byValue :
    ∀ key, ((index.byValue.get? key).getD []).Perm
      (holders index.segments documents key)
  noEmpty :
    ∀ key, index.byValue.get? key ≠ some []
  missing :
    index.missing.Perm
      (if index.spec.sparse then [] else lacking index.segments documents)
  entryKey :
    ∀ valueClass, ∀ entry ∈ index.entriesOf valueClass,
      entry.key = canonicalKey entry.value
  distinct :
    ∀ valueClass,
      ((index.entriesOf valueClass).map OrderedEntry.value).Nodup
  values :
    ∀ valueClass value,
      value ∈ (index.entriesOf valueClass).map OrderedEntry.value ↔
        valueClassOf value = some valueClass ∧
          ∃ entry ∈ documents,
            resolveField entry.2 index.segments = some value
  arrayValues :
    index.arrayValues =
      documents.countP fun entry => holdsArray index.segments entry.2
  indexedDocuments :
    index.indexedDocuments =
      documents.countP fun entry =>
        isCounted index.spec index.segments entry.2

/-- The index is what building it from the documents gives. -/
structure Represents
    (index : FieldIndex)
    (documents : Documents) : Prop extends Lists index documents where
  sorted : index.Sorted
  unsorted : index.unsorted = []

section Basic

variable
  {index : FieldIndex}
  {documents other : Documents}

/-- A listing does not depend on the order of the documents. -/
theorem Lists.perm
    (lists : index.Lists documents)
    (perm : documents.Perm other) :
    index.Lists other := by
  refine ⟨fun key => (lists.byValue key).trans ?_, lists.noEmpty,
    lists.missing.trans ?_, lists.entryKey, lists.distinct, ?_, ?_, ?_⟩
  · exact (perm.filter _).map _
  · split_ifs
    · exact .refl _
    · exact (perm.filter _).map _
  · intro valueClass value
    rw [lists.values]
    simp only [perm.mem_iff]
  · rw [lists.arrayValues, perm.countP_eq]
  · rw [lists.indexedDocuments, perm.countP_eq]

/-- A representation does not depend on the order of the documents. -/
theorem Represents.perm
    (represents : index.Represents documents)
    (perm : documents.Perm other) :
    index.Represents other :=
  ⟨represents.toLists.perm perm, represents.sorted, represents.unsorted⟩

/-- A new index represents no documents. -/
theorem represents_create
    (spec : IndexSpec) :
    (create spec).Represents [] := by
  have noEntries : ∀ valueClass, (create spec).entriesOf valueClass = [] :=
    fun _ => rfl
  refine ⟨⟨fun _ => .refl _, fun _ => by nofun, ?_,
    ?_, ?_, ?_, rfl, rfl⟩, ?_, rfl⟩
  · simp [create, lacking, Documents.keys]
  · simp [noEntries]
  · simp [noEntries]
  · simp [noEntries]
  · intro valueClass
    rw [noEntries]
    exact .nil

end Basic

section Add

variable
  {index : FieldIndex}
  {documents : Documents}
  {docKey : JsString}
  {document : Document}
  {value : DocumentValue}
  {bulk : Bool}

/-- Entering a value in the order leaves the documents without the field. -/
theorem insertOrdered_missing
    (index : FieldIndex)
    (value : DocumentValue)
    (key : Bytes)
    (bulk : Bool) :
    (index.insertOrdered value key bulk).missing = index.missing ∧
      (bulk = false →
        (index.insertOrdered value key bulk).unsorted = index.unsorted) := by
  unfold insertOrdered
  split
  · exact ⟨rfl, fun _ => rfl⟩
  · cases bulk
    · exact ⟨rfl, fun _ => rfl⟩
    · exact ⟨rfl, nofun⟩

/-- The rest of an index after adding a document with the field. -/
theorem add_of_found
    (found : resolveField document index.segments = some value) :
    (index.add docKey document bulk).missing = index.missing ∧
      (index.add docKey document bulk).indexedDocuments =
        index.indexedDocuments + 1 ∧
      (bulk = false →
        (index.add docKey document bulk).unsorted = index.unsorted) := by
  unfold add
  rw [found]
  simp only
  cases index.byValue.get? (canonicalKey value) with
  | some keys =>
      exact ⟨rfl, trivial, fun _ => rfl⟩
  | none =>
      obtain ⟨missing, unsorted⟩ :=
        insertOrdered_missing
          { index with byValue := index.byValue.set (canonicalKey value) [] }
          value (canonicalKey value) bulk
      exact ⟨missing, trivial, unsorted⟩

/-- A key is added behind others. -/
theorem addKey_perm
    {keys : List JsString}
    (fresh : docKey ∉ keys) :
    (addKey keys docKey).Perm (docKey :: keys) := by
  unfold addKey
  rw [if_neg fresh]
  exact List.perm_append_comm

/-- Keys of documents that pass a test are keys of documents. -/
theorem mem_keys_of_mem_filter
    {test : JsString × Document → Bool}
    (member : docKey ∈ Documents.keys (documents.filter test)) :
    docKey ∈ documents.keys :=
  (List.filter_sublist.map Prod.fst).subset member

/-- The values of an ordered list with one more entry. -/
theorem entered_perm
    (entries : List OrderedEntry)
    (value : DocumentValue)
    (bulk : Bool) :
    (entered entries value bulk).Perm
      (⟨value, canonicalKey value⟩ :: entries) := by
  unfold entered
  split_ifs
  · exact List.perm_append_comm
  · exact List.perm_insertIdx _ _ (lowerBound_le entries value)

/-- A document that is listed under a value of a class holds it. -/
theorem holds_of_mem_holders
    {segments : List JsString}
    (keyed : documents.Keyed)
    (ownKeyed : value.HasKey)
    {valueClass : ValueClass}
    (inClass : valueClassOf value = some valueClass)
    (member : docKey ∈ holders segments documents (canonicalKey value)) :
    ∃ entry ∈ documents, resolveField entry.2 segments = some value := by
  obtain ⟨entry, inFilter, -⟩ := List.mem_map.mp member
  obtain ⟨inDocuments, isHolder⟩ := List.mem_filter.mp inFilter
  obtain ⟨other, found, sameKey⟩ :=
    Option.map_eq_some_iff.mp (of_decide_eq_true isHolder)
  refine ⟨entry, inDocuments, ?_⟩
  have otherKeyed := keyed entry inDocuments _ _ found
  rw [found, eq_of_canonicalKey (isComparableValue_of_class inClass) ownKeyed
    otherKeyed sameKey.symm]

/-- A document that holds a value is listed under it. -/
theorem mem_holders
    {segments : List JsString}
    {entry : JsString × Document}
    (member : entry ∈ documents)
    (found : resolveField entry.2 segments = some value) :
    entry.1 ∈ holders segments documents (canonicalKey value) := by
  refine List.mem_map.mpr ⟨entry, List.mem_filter.mpr ⟨member, ?_⟩, rfl⟩
  simp [listingKey, found]

/-- A listed value of a class is held by a document. -/
theorem exists_holder
    (lists : index.Lists documents)
    (keyed : documents.Keyed)
    (ownKeyed : value.HasKey)
    {valueClass : ValueClass}
    (inClass : valueClassOf value = some valueClass)
    (listed : index.byValue.get? (canonicalKey value) ≠ none) :
    ∃ entry ∈ documents,
      resolveField entry.2 index.segments = some value := by
  obtain ⟨keys, present⟩ := Option.ne_none_iff_exists'.mp listed
  have notEmpty : keys ≠ [] := by
    rintro rfl
    exact lists.noEmpty _ present
  have holds := lists.byValue (canonicalKey value)
  rw [present, Option.getD_some] at holds
  obtain ⟨key, member⟩ := List.exists_mem_of_ne_nil keys notEmpty
  exact holds_of_mem_holders keyed ownKeyed inClass (holds.mem_iff.mp member)

/-- The values in order after adding a document with the field. -/
theorem mem_values_add
    (lists : index.Lists documents)
    (keyed : documents.Keyed)
    (ownKeyed : value.HasKey)
    (found : resolveField document index.segments = some value)
    (valueClass : ValueClass)
    (other : DocumentValue) :
    other ∈ ((index.add docKey document bulk).entriesOf valueClass).map
        OrderedEntry.value ↔
      valueClassOf other = some valueClass ∧
        ∃ entry ∈ (docKey, document) :: documents,
          resolveField entry.2 index.segments = some other := by
  have older := lists.values valueClass other
  simp only [List.mem_cons, exists_eq_or_imp, found, Option.some.injEq]
  rw [entriesOf_add found]
  split_ifs with enters
  · rw [((entered_perm _ value bulk).map OrderedEntry.value).mem_iff,
      List.map_cons, List.mem_cons, older]
    constructor
    · rintro (rfl | ⟨inClass, holder⟩)
      · exact ⟨enters.2, .inl rfl⟩
      · exact ⟨inClass, .inr holder⟩
    · rintro ⟨inClass, rfl | holder⟩
      · exact .inl rfl
      · exact .inr ⟨inClass, holder⟩
  · rw [older]
    refine and_congr_right fun inClass => ⟨.inr, ?_⟩
    rintro (rfl | holder)
    · exact exists_holder lists keyed ownKeyed inClass
        fun absent => enters ⟨absent, inClass⟩
    · exact holder

/-- The values of a class stay distinct when a document is added. -/
theorem distinct_add
    (lists : index.Lists documents)
    (found : resolveField document index.segments = some value)
    (valueClass : ValueClass) :
    (((index.add docKey document bulk).entriesOf valueClass).map
      OrderedEntry.value).Nodup := by
  rw [entriesOf_add found]
  split_ifs with enters
  · rw [((entered_perm _ value bulk).map OrderedEntry.value).nodup_iff,
      List.map_cons, List.nodup_cons]
    refine ⟨?_, lists.distinct valueClass⟩
    intro member
    obtain ⟨-, entry, inDocuments, holds⟩ :=
      (lists.values valueClass value).mp member
    have holders := lists.byValue (canonicalKey value)
    rw [enters.1, Option.getD_none] at holders
    have inHolders := mem_holders inDocuments holds
    rw [← holders.mem_iff] at inHolders
    cases inHolders
  · exact lists.distinct valueClass

/-- The path of an index after adding a document. -/
@[simp] theorem add_segments
    (index : FieldIndex)
    (docKey : JsString)
    (document : Document)
    (bulk : Bool) :
    (index.add docKey document bulk).segments = index.segments := by
  unfold segments
  rw [add_spec]

/-- The documents without the field, and their count, after adding one. -/
theorem missing_add
    (lists : index.Lists documents)
    (missing : resolveField document index.segments = none)
    (fresh : docKey ∉ documents.keys) :
    (index.add docKey document bulk).missing.Perm
        (if index.spec.sparse then
          []
        else
          lacking index.segments ((docKey, document) :: documents)) ∧
      (index.add docKey document bulk).indexedDocuments =
        ((docKey, document) :: documents).countP fun entry =>
          isCounted index.spec index.segments entry.2 := by
  have older := lists.missing
  have counted := lists.indexedDocuments
  unfold add
  rw [missing]
  simp only
  by_cases sparse : index.spec.sparse = true
  · simp only [if_pos sparse] at older ⊢
    refine ⟨older, ?_⟩
    rw [counted]
    simp [isCounted, sparse, missing]
  · simp only [if_neg sparse] at older ⊢
    have absent : docKey ∉ index.missing := by
      rw [older.mem_iff]
      exact fun member => fresh (mem_keys_of_mem_filter member)
    refine ⟨(addKey_perm absent).trans ?_, ?_⟩
    · simpa [lacking, listingKey, missing, Documents.keys] using
        older.cons docKey
    · rw [counted]
      simp [isCounted, sparse]

/-- The documents under each value after adding one with the field. -/
theorem holders_add
    (lists : index.Lists documents)
    (found : resolveField document index.segments = some value)
    (fresh : docKey ∉ documents.keys)
    (key : Bytes) :
    (((index.add docKey document bulk).byValue.get? key).getD []).Perm
      (holders index.segments ((docKey, document) :: documents) key) := by
  have older := lists.byValue key
  rw [add_byValue found]
  by_cases same : key = canonicalKey value
  · have absent : docKey ∉ (index.byValue.get? key).getD [] := by
      rw [older.mem_iff]
      exact fun member => fresh (mem_keys_of_mem_filter member)
    have isHolder :
        holders index.segments ((docKey, document) :: documents) key =
          docKey :: holders index.segments documents key := by
      simp [holders, listingKey, found, same, Documents.keys]
    rw [if_pos same, Option.getD_some, isHolder]
    exact (addKey_perm absent).trans (older.cons docKey)
  · have isNotHolder :
        holders index.segments ((docKey, document) :: documents) key =
          holders index.segments documents key := by
      simp [holders, listingKey, found, Ne.symm same]
    rw [if_neg same, isNotHolder]
    exact older

/-- Adding a new document to what is listed. -/
theorem lists_add
    (lists : index.Lists documents)
    (keyed : documents.Keyed)
    (ownKeyed : document.Keyed)
    (fresh : docKey ∉ documents.keys) :
    (index.add docKey document bulk).Lists
      ((docKey, document) :: documents) := by
  cases found : resolveField document index.segments with
  | none =>
      obtain ⟨byValue, ordered, -, arrays⟩ :=
        @add_of_missing index docKey document bulk found
      obtain ⟨lackingPerm, counted⟩ :=
        @missing_add _ _ _ _ bulk lists found fresh
      have entries :
          ∀ valueClass,
            (index.add docKey document bulk).entriesOf valueClass =
              index.entriesOf valueClass := by
        intro valueClass
        unfold entriesOf
        rw [ordered]
      refine ⟨?_, ?_, ?_, ?_, ?_, ?_, ?_, ?_⟩
      · intro key
        rw [byValue, add_segments]
        simpa [holders, listingKey, found] using lists.byValue key
      · intro key
        rw [byValue]
        exact lists.noEmpty key
      · rw [add_spec, add_segments]
        exact lackingPerm
      · intro valueClass
        rw [entries]
        exact lists.entryKey valueClass
      · intro valueClass
        rw [entries]
        exact lists.distinct valueClass
      · intro valueClass value
        rw [entries, add_segments, lists.values]
        simp [found]
      · rw [arrays, add_segments, lists.arrayValues]
        simp [holdsArray, found]
      · rw [add_spec, add_segments]
        exact counted
  | some value =>
      have valueKeyed := ownKeyed _ _ found
      obtain ⟨missing, counted, -⟩ :=
        @add_of_found index docKey document value bulk found
      refine ⟨?_, ?_, ?_, ?_, distinct_add lists found, ?_, ?_, ?_⟩
      · intro key
        rw [add_segments]
        exact holders_add lists found fresh key
      · intro key
        rw [add_byValue found]
        split_ifs
        · rw [ne_eq, Option.some.injEq]
          intro nothing
          have member : docKey ∈
              addKey ((index.byValue.get? key).getD []) docKey := by
            simp
          rw [nothing] at member
          cases member
        · exact lists.noEmpty key
      · rw [missing, add_spec, add_segments]
        simpa [lacking, listingKey, found] using lists.missing
      · intro valueClass entry member
        rw [entriesOf_add found] at member
        split_ifs at member
        · rcases mem_entered.mp member with rfl | member
          · rfl
          · exact lists.entryKey valueClass entry member
        · exact lists.entryKey valueClass entry member
      · intro valueClass other
        rw [add_segments]
        exact mem_values_add lists keyed valueKeyed found valueClass other
      · rw [add_arrayValues found, add_segments, lists.arrayValues]
        cases array : isArray value <;> simp [holdsArray, found, array]
      · rw [counted, add_spec, add_segments, lists.indexedDocuments]
        simp [isCounted, found]

/-- The entries of a class are of that class. -/
theorem Lists.class_of_entry
    (lists : index.Lists documents)
    (valueClass : ValueClass)
    (entry : OrderedEntry)
    (member : entry ∈ index.entriesOf valueClass) :
    valueClassOf entry.value = some valueClass :=
  ((lists.values valueClass entry.value).mp
    (List.mem_map.mpr ⟨entry, member, rfl⟩)).1

/-- Adding a new document to what is represented. -/
theorem represents_add
    (represents : index.Represents documents)
    (keyed : documents.Keyed)
    (ownKeyed : document.Keyed)
    (fresh : docKey ∉ documents.keys) :
    (index.add docKey document false).Represents
      ((docKey, document) :: documents) := by
  refine ⟨lists_add represents.toLists keyed ownKeyed fresh,
    sorted_add represents.class_of_entry represents.sorted, ?_⟩
  rw [← represents.unsorted]
  cases found : resolveField document index.segments with
  | none =>
      exact (add_of_missing found).2.2.1
  | some value =>
      exact (add_of_found found).2.2 rfl

end Add

section Remove

variable
  {index : FieldIndex}
  {documents : Documents}
  {docKey : JsString}
  {document : Document}
  {value : DocumentValue}

/-- An entry is taken out of the run of equal values that holds it. -/
theorem mem_removeRun_iff
    {valueClass : ValueClass}
    {entries : List OrderedEntry}
    (inClass : valueClassOf value = some valueClass)
    (classes :
      ∀ entry ∈ entries, valueClassOf entry.value = some valueClass)
    (sorted : entries.Pairwise OrderedEntry.Precedes)
    (notLess :
      ∀ entry ∈ entries, compareValues entry.value value ≠ some .lt)
    (distinct : (entries.map OrderedEntry.value).Nodup)
    (keys :
      ∀ entry ∈ entries,
        entry.key = canonicalKey value ↔ entry.value = value)
    (other : OrderedEntry) :
    other ∈ removeRun value (canonicalKey value) entries ↔
      other ∈ entries ∧ other.value ≠ value := by
  induction entries with
  | nil =>
      simp [removeRun]
  | cons first rest inductionHypothesis =>
      obtain ⟨firstClass, restClasses⟩ := List.forall_mem_cons.mp classes
      obtain ⟨firstKey, restKeys⟩ := List.forall_mem_cons.mp keys
      obtain ⟨firstNotLess, restNotLess⟩ := List.forall_mem_cons.mp notLess
      rw [List.pairwise_cons] at sorted
      rw [List.map_cons, List.nodup_cons] at distinct
      have later :=
        inductionHypothesis restClasses sorted.2 restNotLess distinct.2
          restKeys
      unfold removeRun
      split_ifs with equal isKey
      · -- This is the entry that is taken out.
        have isValue := firstKey.mp isKey
        constructor
        · intro member
          refine ⟨List.mem_cons_of_mem _ member, ?_⟩
          intro same
          exact distinct.1
            (List.mem_map.mpr ⟨other, member, same.trans isValue.symm⟩)
        · rintro ⟨member, different⟩
          rcases List.mem_cons.mp member with rfl | member
          · exact absurd isValue different
          · exact member
      · rw [List.mem_cons, List.mem_cons, later]
        constructor
        · rintro (rfl | ⟨member, different⟩)
          · exact ⟨.inl rfl, fun same => isKey (firstKey.mpr same)⟩
          · exact ⟨.inr member, different⟩
        · rintro ⟨rfl | member, different⟩
          · exact .inl rfl
          · exact .inr ⟨member, different⟩
      · -- The values from here on are all greater.
        obtain ⟨β, order, place, compares⟩ := exists_order valueClass
        rw [compares _ _ firstClass inClass] at equal firstNotLess
        have greater : place value < place first.value := by
          have notEqual : place first.value ≠ place value := by
            intro same
            exact equal (by rw [same, cmp_self_eq_eq])
          have notLower : ¬ place first.value < place value := by
            intro lower
            exact firstNotLess (by rw [cmp_eq_lt_iff _ _ |>.mpr lower])
          exact lt_of_le_of_ne (not_lt.mp notLower) notEqual.symm
        have noneIsValue :
            ∀ entry ∈ first :: rest, entry.value ≠ value := by
          rw [List.forall_mem_cons]
          refine ⟨fun same => (same ▸ greater).false, ?_⟩
          intro entry member same
          have precedes := sorted.1 entry member
          unfold OrderedEntry.Precedes at precedes
          have restClass := restClasses entry member
          rw [compares _ _ firstClass restClass, same] at precedes
          exact precedes (by rw [cmp_eq_gt_iff _ _ |>.mpr greater])
        exact ⟨fun member => ⟨member, noneIsValue other member⟩, And.left⟩

/-- The key of an entry tells whether its value is a given one. -/
theorem Lists.key_iff
    (lists : index.Lists documents)
    (keyed : documents.Keyed)
    (ownKeyed : value.HasKey)
    {valueClass : ValueClass}
    (entry : OrderedEntry)
    (member : entry ∈ index.entriesOf valueClass) :
    entry.key = canonicalKey value ↔ entry.value = value := by
  have isKey := lists.entryKey valueClass entry member
  obtain ⟨entryClass, holder, inDocuments, found⟩ :=
    (lists.values valueClass entry.value).mp
      (List.mem_map.mpr ⟨entry, member, rfl⟩)
  have entryKeyed := keyed holder inDocuments _ _ found
  rw [isKey]
  constructor
  · exact eq_of_canonicalKey (isComparableValue_of_class entryClass)
      entryKeyed ownKeyed
  · intro same
    rw [same]

/-- The entries of a class after the last document under a value is gone. -/
theorem mem_entriesOf_unlist_nil
    (represents : index.Represents documents)
    (keyed : documents.Keyed)
    (ownKeyed : value.HasKey)
    {valueClass : ValueClass}
    (entry : OrderedEntry) :
    entry ∈ (index.unlist value []).entriesOf valueClass ↔
      entry ∈ index.entriesOf valueClass ∧ entry.value ≠ value := by
  have otherClass :
      valueClassOf value ≠ some valueClass →
        ∀ entry ∈ index.entriesOf valueClass, entry.value ≠ value := by
    intro different entry member same
    have ownClass := represents.class_of_entry valueClass entry member
    rw [same] at ownClass
    exact different ownClass
  have unchanged :
      valueClassOf value ≠ some valueClass →
        (entry ∈ index.entriesOf valueClass ↔
          entry ∈ index.entriesOf valueClass ∧ entry.value ≠ value) :=
    fun different =>
      ⟨fun member => ⟨member, otherClass different entry member⟩, And.left⟩
  unfold unlist removeOrdered
  simp only [if_true]
  cases inClass : valueClassOf value with
  | none =>
      exact unchanged (by simp [inClass])
  | some own =>
      cases listed : index.ordered.get? own with
      | none =>
          simp only [listed]
          by_cases same : own = valueClass
          · subst same
            simp [entriesOf, listed]
          · exact unchanged (by simpa [inClass] using same)
      | some entries =>
          simp only [listed]
          by_cases same : own = valueClass
          · subst same
            have isEntries : index.entriesOf own = entries := by
              simp [entriesOf, listed]
            have sorted := represents.sorted own
            have classes := represents.class_of_entry own
            have distinct := represents.distinct own
            have keys := fun entry =>
              @Lists.key_iff index documents value represents.toLists keyed
                ownKeyed own entry
            rw [isEntries] at sorted classes distinct keys ⊢
            obtain ⟨before, behind⟩ :=
              lowerBound_spec inClass classes sorted
            have later :=
              @mem_removeRun_iff value own
                (entries.drop (lowerBound entries value)) inClass
                (fun entry member => classes entry
                  (List.mem_of_mem_drop member))
                (sorted.sublist (List.drop_sublist _ _)) behind
                (distinct.sublist ((List.drop_sublist _ _).map _))
                (fun entry member => keys entry (List.mem_of_mem_drop member))
                entry
            have notValue :
                ∀ entry ∈ entries.take (lowerBound entries value),
                  entry.value ≠ value := by
              intro entry member same
              have less := before entry member
              obtain ⟨β, order, place, compares⟩ := exists_order own
              rw [same, compares _ _ inClass inClass, cmp_self_eq_eq] at less
              cases less
            have parts :=
              List.take_append_drop (lowerBound entries value) entries
            simp only [entriesOf, JsMap.get?_set, if_true, Option.getD_some]
            rw [List.mem_append, later]
            conv_rhs => rw [← parts, List.mem_append]
            constructor
            · rintro (member | ⟨member, different⟩)
              · exact ⟨.inl member, notValue entry member⟩
              · exact ⟨.inr member, different⟩
            · rintro ⟨member | member, different⟩
              · exact .inl member
              · exact .inr ⟨member, different⟩
          · have kept :
                FieldIndex.entriesOf
                    { index with
                      byValue := index.byValue.delete (canonicalKey value)
                      ordered :=
                        index.ordered.set own
                          (entries.take (lowerBound entries value) ++
                            removeRun value (canonicalKey value)
                              (entries.drop (lowerBound entries value))) }
                    valueClass =
                  index.entriesOf valueClass := by
              simp [entriesOf, JsMap.get?_set, Ne.symm same]
            rw [kept]
            exact unchanged (by simpa [inClass] using same)

/-- Leaving documents under a value leaves the documents without the field. -/
theorem unlist_missing
    (index : FieldIndex)
    (value : DocumentValue)
    (rest : List JsString) :
    (index.unlist value rest).missing = index.missing ∧
      (index.unlist value rest).unsorted = index.unsorted := by
  unfold unlist removeOrdered
  simp only
  split_ifs
  · cases valueClassOf value with
    | none =>
        exact ⟨rfl, rfl⟩
    | some own =>
        simp only
        cases index.ordered.get? own <;> exact ⟨rfl, rfl⟩
  · exact ⟨rfl, rfl⟩

/-- The path of an index after removing a document. -/
@[simp] theorem remove_segments
    (index : FieldIndex)
    (docKey : JsString)
    (document : Document) :
    (index.remove docKey document).segments = index.segments := by
  unfold segments
  rw [remove_spec]

/-- Taking a key out of others that do not repeat it. -/
theorem filter_perm
    {keys rest : List JsString}
    (perm : keys.Perm (docKey :: rest))
    (fresh : docKey ∉ rest) :
    (keys.filter fun other => !(other == docKey)).Perm rest := by
  have filtered := perm.filter fun other => !(other == docKey)
  have kept : (rest.filter fun other => !(other == docKey)) = rest := by
    rw [List.filter_eq_self]
    intro other member
    simpa using ne_of_mem_of_not_mem member fresh
  rw [List.filter_cons_of_neg (by simp), kept] at filtered
  exact filtered

/-- Removing a document without the field from what is represented. -/
theorem represents_remove_missing
    (represents : index.Represents ((docKey, document) :: documents))
    (fresh : docKey ∉ documents.keys)
    (missing : resolveField document index.segments = none) :
    (index.remove docKey document).Represents documents := by
  obtain ⟨byValue, ordered, arrays⟩ :=
    @remove_of_not_held index docKey document (by simp [missing])
  have entries :
      ∀ valueClass,
        (index.remove docKey document).entriesOf valueClass =
          index.entriesOf valueClass := by
    intro valueClass
    unfold entriesOf
    rw [ordered]
  have rest :
      (index.remove docKey document).missing.Perm
          (if index.spec.sparse then
            []
          else
            lacking index.segments documents) ∧
        (index.remove docKey document).indexedDocuments =
          (documents.countP fun entry =>
            isCounted index.spec index.segments entry.2) ∧
        (index.remove docKey document).unsorted = index.unsorted := by
    have older := represents.missing
    have counted := represents.indexedDocuments
    unfold remove
    rw [missing]
    simp only
    by_cases sparse : index.spec.sparse = true
    · simp only [if_pos sparse] at older ⊢
      simp only [sparse, Bool.not_true, Bool.false_and, Bool.false_eq_true,
        if_false]
      refine ⟨older, ?_, trivial⟩
      rw [counted]
      simp [isCounted, sparse, missing]
    · have isLacking :
          lacking index.segments ((docKey, document) :: documents) =
            docKey :: lacking index.segments documents := by
        simp [lacking, listingKey, missing, Documents.keys]
      simp only [if_neg sparse, isLacking] at older ⊢
      have member : docKey ∈ index.missing :=
        older.mem_iff.mpr List.mem_cons_self
      simp only [sparse, Bool.not_false, member, decide_true, Bool.and_self,
        if_true]
      refine ⟨filter_perm older fun inLacking =>
        fresh (mem_keys_of_mem_filter inLacking), ?_, trivial⟩
      rw [counted]
      simp [isCounted, sparse]
  refine ⟨⟨?_, ?_, ?_, ?_, ?_, ?_, ?_, ?_⟩, ?_, ?_⟩
  · intro key
    rw [byValue, remove_segments]
    simpa [holders, listingKey, missing] using represents.byValue key
  · intro key
    rw [byValue]
    exact represents.noEmpty key
  · rw [remove_spec, remove_segments]
    exact rest.1
  · intro valueClass
    rw [entries]
    exact represents.entryKey valueClass
  · intro valueClass
    rw [entries]
    exact represents.distinct valueClass
  · intro valueClass value
    rw [entries, remove_segments, represents.values]
    simp [missing]
  · rw [arrays, remove_segments, represents.arrayValues]
    simp [holdsArray, missing]
  · rw [remove_spec, remove_segments]
    exact rest.2.1
  · intro valueClass
    rw [entries]
    exact represents.sorted valueClass
  · rw [rest.2.2, represents.unsorted]

/-- The values in order after a document with the field is removed. -/
theorem mem_values_unlist
    (represents : index.Represents ((docKey, document) :: documents))
    (keyed : Documents.Keyed ((docKey, document) :: documents))
    (found : resolveField document index.segments = some value)
    {rest : List JsString}
    (restPerm :
      rest.Perm (holders index.segments documents (canonicalKey value)))
    (valueClass : ValueClass)
    (other : DocumentValue) :
    other ∈ ((index.unlist value rest).entriesOf valueClass).map
        OrderedEntry.value ↔
      valueClassOf other = some valueClass ∧
        ∃ entry ∈ documents,
          resolveField entry.2 index.segments = some other := by
  obtain ⟨ownKeyed, restKeyed⟩ := List.forall_mem_cons.mp keyed
  have valueKeyed := ownKeyed _ _ found
  have older := represents.values valueClass other
  simp only [List.mem_cons, exists_eq_or_imp, found, Option.some.injEq]
    at older
  by_cases emptied : rest = []
  · subst emptied
    have noHolder :
        ∀ entry ∈ documents,
          resolveField entry.2 index.segments ≠ some value := by
      intro entry member holds
      have inHolders := mem_holders member holds
      rw [← restPerm.mem_iff] at inHolders
      cases inHolders
    have isMember :
        other ∈ ((index.unlist value []).entriesOf valueClass).map
            OrderedEntry.value ↔
          other ∈ (index.entriesOf valueClass).map OrderedEntry.value ∧
            other ≠ value := by
      simp only [List.mem_map,
        mem_entriesOf_unlist_nil represents keyed valueKeyed]
      constructor
      · rintro ⟨entry, ⟨member, different⟩, rfl⟩
        exact ⟨⟨entry, member, rfl⟩, different⟩
      · rintro ⟨⟨entry, member, rfl⟩, different⟩
        exact ⟨entry, ⟨member, different⟩, rfl⟩
    rw [isMember, older]
    constructor
    · rintro ⟨⟨inClass, same | holder⟩, different⟩
      · exact absurd same.symm different
      · exact ⟨inClass, holder⟩
    · rintro ⟨inClass, entry, member, holds⟩
      refine ⟨⟨inClass, .inr ⟨entry, member, holds⟩⟩, ?_⟩
      rintro rfl
      exact noHolder entry member holds
  · have kept :
        (index.unlist value rest).entriesOf valueClass =
          index.entriesOf valueClass := by
      unfold unlist
      simp only [if_neg emptied]
      rfl
    rw [kept, older]
    refine and_congr_right fun inClass => ⟨?_, .inr⟩
    rintro (rfl | holder)
    · obtain ⟨key, member⟩ := List.exists_mem_of_ne_nil rest emptied
      exact holds_of_mem_holders restKeyed valueKeyed inClass
        (restPerm.mem_iff.mp member)
    · exact holder

/-- Removing a document with the field from what is represented. -/
theorem represents_remove_found
    (represents : index.Represents ((docKey, document) :: documents))
    (keyed : Documents.Keyed ((docKey, document) :: documents))
    (fresh : docKey ∉ documents.keys)
    (found : resolveField document index.segments = some value) :
    (index.remove docKey document).Represents documents := by
  have holders := represents.byValue (canonicalKey value)
  have isHolder :
      FieldIndex.holders index.segments ((docKey, document) :: documents)
          (canonicalKey value) =
        docKey :: FieldIndex.holders index.segments documents
          (canonicalKey value) := by
    simp [FieldIndex.holders, listingKey, found, Documents.keys]
  rw [isHolder] at holders
  obtain ⟨keys, present⟩ :
      ∃ keys, index.byValue.get? (canonicalKey value) = some keys := by
    cases present : index.byValue.get? (canonicalKey value) with
    | none =>
        rw [present, Option.getD_none] at holders
        cases holders.symm.eq_nil
    | some keys =>
        exact ⟨keys, rfl⟩
  rw [present, Option.getD_some] at holders
  have removes :=
    remove_of_held found present (holders.mem_iff.mpr List.mem_cons_self)
  have restPerm :=
    filter_perm holders fun inHolders =>
      fresh (mem_keys_of_mem_filter inHolders)
  generalize (keys.filter fun other => !(other == docKey)) = rest
    at removes restPerm
  have entries :
      ∀ valueClass,
        (index.remove docKey document).entriesOf valueClass =
          (index.unlist value rest).entriesOf valueClass := by
    intro valueClass
    rw [removes]
    rfl
  have sublist :=
    fun valueClass => (entriesOf_unlist index value rest valueClass).1
  obtain ⟨missing, unsorted⟩ := unlist_missing index value rest
  refine ⟨⟨?_, ?_, ?_, ?_, ?_, ?_, ?_, ?_⟩, ?_, ?_⟩
  · intro key
    rw [remove_segments, removes]
    simp only [unlist_byValue]
    by_cases same : key = canonicalKey value
    · rw [if_pos same, same]
      split_ifs with emptied
      · rw [emptied] at restPerm
        exact restPerm
      · exact restPerm
    · rw [if_neg same]
      simpa [FieldIndex.holders, listingKey, found, Ne.symm same] using
        represents.byValue key
  · intro key
    rw [removes]
    simp only [unlist_byValue]
    split_ifs with same emptied
    · simp
    · simpa using emptied
    · exact represents.noEmpty key
  · rw [remove_spec, remove_segments, removes]
    simp only [missing]
    simpa [lacking, listingKey, found] using represents.missing
  · intro valueClass entry member
    rw [entries] at member
    exact represents.entryKey valueClass entry
      ((sublist valueClass).subset member)
  · intro valueClass
    rw [entries]
    exact (represents.distinct valueClass).sublist
      ((sublist valueClass).map _)
  · intro valueClass other
    rw [entries, remove_segments]
    exact mem_values_unlist represents keyed found restPerm valueClass other
  · rw [remove_segments, removes]
    simp only
    rw [represents.arrayValues]
    cases array : isArray value <;> simp [holdsArray, found, array]
  · rw [remove_spec, remove_segments, removes]
    simp only
    rw [represents.indexedDocuments]
    simp [isCounted, found]
  · intro valueClass
    rw [entries]
    exact (represents.sorted valueClass).sublist (sublist valueClass)
  · rw [removes]
    simp only [unsorted, represents.unsorted]

/-- Removing a document from what is represented. -/
theorem represents_remove
    (represents : index.Represents ((docKey, document) :: documents))
    (keyed : Documents.Keyed ((docKey, document) :: documents))
    (fresh : docKey ∉ documents.keys) :
    (index.remove docKey document).Represents documents := by
  cases found : resolveField document index.segments with
  | none =>
      exact represents_remove_missing represents fresh found
  | some value =>
      exact represents_remove_found represents keyed fresh found

end Remove

section Build

variable
  {index : FieldIndex}
  {documents : Documents}

/-- An index while it is built from documents. -/
structure BuiltFrom
    (index : FieldIndex)
    (documents : Documents) : Prop extends Lists index documents where
  waiting :
    ∀ valueClass, valueClass ∉ index.unsorted →
      index.entriesOf valueClass = []

/-- A new index is built from no documents. -/
theorem builtFrom_create
    (spec : IndexSpec) :
    (create spec).BuiltFrom [] :=
  ⟨(represents_create spec).toLists, fun _ _ => rfl⟩

/-- Adding a new document while an index is built. -/
theorem builtFrom_add
    {docKey : JsString}
    {document : Document}
    (built : index.BuiltFrom documents)
    (keyed : documents.Keyed)
    (ownKeyed : document.Keyed)
    (fresh : docKey ∉ documents.keys) :
    (index.add docKey document true).BuiltFrom
      ((docKey, document) :: documents) :=
  ⟨lists_add built.toLists keyed ownKeyed fresh, unsorted_add built.waiting⟩

/-- The last step of a build puts the values in order. -/
theorem represents_finishBulk
    (built : index.BuiltFrom documents) :
    index.finishBulk.Represents documents := by
  obtain ⟨byValue, -, arrayValues, missing, counted⟩ :=
    sortClasses_rest index.unsorted index
  have entries := entriesOf_finishBulk built.class_of_entry built.waiting
  have sameSegments : index.finishBulk.segments = index.segments := by
    unfold segments
    rw [finishBulk_spec]
  refine ⟨⟨?_, ?_, ?_, ?_, ?_, ?_, ?_, ?_⟩,
    fun valueClass => (entries valueClass).2, rfl⟩
  · intro key
    rw [sameSegments, show index.finishBulk.byValue = _ from byValue]
    exact built.byValue key
  · intro key
    rw [show index.finishBulk.byValue = _ from byValue]
    exact built.noEmpty key
  · rw [sameSegments, finishBulk_spec,
      show index.finishBulk.missing = _ from missing]
    exact built.missing
  · intro valueClass entry member
    exact built.entryKey valueClass entry
      ((entries valueClass).1.mem_iff.mp member)
  · intro valueClass
    rw [((entries valueClass).1.map OrderedEntry.value).nodup_iff]
    exact built.distinct valueClass
  · intro valueClass value
    rw [((entries valueClass).1.map OrderedEntry.value).mem_iff, sameSegments]
    exact built.values valueClass value
  · rw [sameSegments, show index.finishBulk.arrayValues = _ from arrayValues]
    exact built.arrayValues
  · rw [sameSegments, finishBulk_spec,
      show index.finishBulk.indexedDocuments = _ from counted]
    exact built.indexedDocuments

end Build

end FieldIndex

end SinterDb
