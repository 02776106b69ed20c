import SinterDb.Storage.Uniqueness

namespace SinterDb

open Unicode

/-!
# Validating indexes

`validate` builds every index again from the documents and compares it with the
live one.  The hash part and the documents without the field are compared as
they are.  The ordered part is only looked at by itself: its entries have to be
in order and to have documents.
-/

/-- `IndexIssue`. -/
structure IndexIssue where
  index : JsString
  problem : JsString
  detail : JsString
  deriving Repr, DecidableEq

/-- A `ValueClass` as the source writes it. -/
def ValueClass.name : ValueClass → JsString
  | .string => utf16 "string"
  | .number => utf16 "number"
  | .bigint => utf16 "bigint"
  | .date => utf16 "date"
  | .binary => utf16 "binary"
  | .id => utf16 "id"

/-- `array.sort()` of strings. -/
def sortKeys (keys : List JsString) : List JsString :=
  keys.insertionSort fun left right => compareStrings left right ≠ .gt

/-- `array.join(",")`. -/
def joinKeys (keys : List JsString) : JsString :=
  [0x2C].intercalate keys

/-- What `contents` returns. -/
structure IndexContents where
  values : List (Bytes × List JsString)
  missing : List JsString
  orderedProblems : List JsString
  deriving Repr, DecidableEq

namespace FieldIndex

/-- The problems of the entries of one class, behind the previous entry. -/
def entryProblems
    (index : FieldIndex)
    (valueClass : ValueClass) :
    Option OrderedEntry → List OrderedEntry → List JsString
  | _, [] => []
  | previous, entry :: rest =>
      (if index.byValue.has entry.key then
        []
      else
        [utf16 "ordered " ++ valueClass.name ++
          utf16 " entry has no documents"]) ++
      (match previous with
      | none => []
      | some previous =>
          if compareValues previous.value entry.value = some .gt then
            [utf16 "ordered " ++ valueClass.name ++
              utf16 " entries are out of order"]
          else
            []) ++
      index.entryProblems valueClass (some entry) rest

/-- `contents`. -/
def contents (index : FieldIndex) : IndexContents where
  values :=
    (index.byValue.entries.map fun entry =>
      (entry.1, sortKeys entry.2)).insertionSort fun left right =>
        compareByteStrings left.1 right.1 ≠ .gt
  missing := sortKeys index.missing
  orderedProblems :=
    (index.ordered.entries.flatMap fun entry =>
      index.entryProblems entry.1 none entry.2) ++
    index.byValue.entries.flatMap fun entry =>
      if ((index.byValue.get? entry.1).getD []).head? = none then
        [utf16 "an index entry has no documents"]
      else
        []

/-- An issue of an index. -/
def issue (index : FieldIndex) (problem : String) (detail : JsString) :
    IndexIssue :=
  ⟨index.spec.name, utf16 problem, detail⟩

/-- The issues of the counters. -/
def counterIssues (live fresh : FieldIndex) : List IndexIssue :=
  (if live.indexedDocuments ≠ fresh.indexedDocuments then
    [live.issue "document-count"
      (utf16 "the index covers " ++
        Json.integerText live.indexedDocuments ++ utf16 " documents but " ++
        Json.integerText fresh.indexedDocuments ++
        utf16 " should be covered")]
  else
    []) ++
  if live.hasArrayValues ≠ fresh.hasArrayValues then
    [live.issue "array-flag"
      (utf16 "the index disagrees about whether array values exist")]
  else
    []

/-- The issues of the hash part. -/
def valueIssues
    (live : FieldIndex)
    (liveValues freshValues : JsMap Bytes (List JsString)) :
    List IndexIssue :=
  (freshValues.entries.flatMap fun entry =>
    match liveValues.get? entry.1 with
    | none =>
        [live.issue "missing-entry"
          (utf16 "a value held by " ++ Json.decimal entry.2.length ++
            utf16 " document(s) is not indexed")]
    | some found =>
        if joinKeys found ≠ joinKeys entry.2 then
          [live.issue "wrong-documents"
            (utf16 "an index entry lists the wrong documents")]
        else
          []) ++
  liveValues.keys.flatMap fun key =>
    if freshValues.has key then
      []
    else
      [live.issue "unexpected-entry"
        (utf16 "the index has an entry for a value no document holds")]

/-- The issues of a unique index. -/
def uniqueIssues
    (live : FieldIndex)
    (freshValues : JsMap Bytes (List JsString))
    (missing : List JsString) : List IndexIssue :=
  if live.spec.unique then
    (freshValues.entries.flatMap fun entry =>
      if 1 < entry.2.length then
        [live.issue "duplicate-key"
          (Json.decimal entry.2.length ++
            utf16 " documents share a value in a unique index")]
      else
        []) ++
    if !live.spec.sparse && decide (1 < missing.length) then
      [live.issue "duplicate-key"
        (Json.decimal missing.length ++
          utf16 " documents lack the field in a unique index")]
    else
      []
  else
    []

/-- The issues that `validate` finds for one index. -/
def issues (live : FieldIndex) (documents : Documents) : List IndexIssue :=
  let fresh := rebuilt live.spec documents
  let expected := fresh.contents
  let actual := live.contents
  let liveValues := JsMap.ofEntries actual.values
  let freshValues := JsMap.ofEntries expected.values
  (actual.orderedProblems.map fun problem => live.issue "ordering" problem) ++
  live.counterIssues fresh ++
  live.valueIssues liveValues freshValues ++
  (if joinKeys actual.missing ≠ joinKeys expected.missing then
    [live.issue "missing-field-entries"
      (utf16 "the documents lacking the field are not tracked correctly")]
  else
    []) ++
  live.uniqueIssues freshValues expected.missing

end FieldIndex

/-- `validate`, which reports fifty issues at most. -/
def IndexSet.validate
    (set : IndexSet)
    (documents : Documents) : List IndexIssue :=
  ((IndexSet.all set).flatMap fun live => live.issues documents).take 50

/-- The key of a stored document: the hexadecimal form of its id. -/
def IsDocumentKey (key : JsString) : Prop :=
  ∃ id : CustomId, key = id.toHexString

section Keys

variable
  {keys others : List JsString}

/-- The key of a document is not empty and has no comma. -/
theorem IsDocumentKey.isPlain
    {key : JsString}
    (isKey : IsDocumentKey key) :
    key ≠ [] ∧ 0x2C ∉ key := by
  obtain ⟨id, rfl⟩ := isKey
  have digits : ∀ value < 16, hexDigit value ≠ 0x2C := by decide
  constructor
  · intro isEmpty
    have length := id.length_eq
    cases bytes : id.bytes with
    | nil =>
        rw [bytes] at length
        cases length
    | cons byte rest =>
        simp [CustomId.toHexString, bytes] at isEmpty
  · intro member
    obtain ⟨byte, -, isDigit⟩ := List.mem_flatMap.mp member
    have bound := byte.toNat_lt
    rw [List.mem_cons, List.mem_singleton] at isDigit
    rcases isDigit with first | second
    · exact digits _ (by omega) first.symm
    · exact digits _ (by omega) second.symm

/-- Strings are in order when their code units are. -/
theorem compareStrings_le
    {left right : JsString} :
    compareStrings left right ≠ .gt ↔
      left.map UInt16.toNat ≤ right.map UInt16.toNat := by
  unfold compareStrings cmp cmpUsing
  split_ifs with less greater
  · exact iff_of_true nofun (le_of_lt less)
  · exact iff_of_false (fun notGreater => notGreater rfl) (not_le.mpr greater)
  · exact iff_of_true nofun (not_lt.mp greater)

instance totalStrings :
    Std.Total fun left right : JsString =>
      compareStrings left right ≠ .gt where
  total left right := by
    rw [compareStrings_le, compareStrings_le]
    exact le_total _ _

instance transStrings :
    IsTrans JsString fun left right => compareStrings left right ≠ .gt where
  trans left middle right := by
    rw [compareStrings_le, compareStrings_le, compareStrings_le]
    exact le_trans

/-- Sorting reorders the keys. -/
theorem sortKeys_perm
    (keys : List JsString) :
    (sortKeys keys).Perm keys :=
  List.perm_insertionSort _ _

/-- The same keys in another order are sorted in the same way. -/
theorem sortKeys_eq_iff :
    sortKeys keys = sortKeys others ↔ keys.Perm others := by
  constructor
  · intro same
    exact (sortKeys_perm keys).symm.trans
      ((List.Perm.of_eq same).trans (sortKeys_perm others))
  · intro perm
    refine List.Perm.eq_of_pairwise ?_
      (List.pairwise_insertionSort _ keys)
      (List.pairwise_insertionSort _ others)
      ((sortKeys_perm keys).trans (perm.trans (sortKeys_perm others).symm))
    intro left right _ _ forward backward
    rw [compareStrings_le] at forward backward
    exact List.map_injective_iff.mpr (fun _ _ => UInt16.toNat_inj.mp)
      (le_antisymm forward backward)

/-- Keys without commas can be read back from their joined form. -/
theorem joinKeys_inj
    (plain : ∀ key ∈ keys, key ≠ [] ∧ 0x2C ∉ key)
    (othersPlain : ∀ key ∈ others, key ≠ [] ∧ 0x2C ∉ key)
    (same : joinKeys keys = joinKeys others) :
    keys = others := by
  have notEmpty :
      ∀ {list : List JsString}, (∀ key ∈ list, key ≠ [] ∧ 0x2C ∉ key) →
        joinKeys list = [] → list = [] := by
    intro list plain isEmpty
    by_contra filled
    have split :=
      List.splitOn_intercalate 0x2C (fun key member => (plain key member).2)
        filled
    rw [show [0x2C].intercalate list = [] from isEmpty] at split
    have inside : ([] : JsString) ∈ list := by
      rw [← split]
      exact List.mem_singleton_self _
    exact (plain _ inside).1 rfl
  by_cases empty : joinKeys keys = []
  · rw [notEmpty plain empty, notEmpty othersPlain (same ▸ empty)]
  · have filled : keys ≠ [] := by
      rintro rfl
      exact empty rfl
    have othersFilled : others ≠ [] := by
      rintro rfl
      exact empty same
    rw [← List.splitOn_intercalate 0x2C
        (fun key member => (plain key member).2) filled,
      ← List.splitOn_intercalate 0x2C
        (fun key member => (othersPlain key member).2) othersFilled]
    exact congrArg (List.splitOn 0x2C) same

/-- Lists of documents have the same sorted and joined form when they have the
same documents. -/
theorem joinKeys_sortKeys_iff
    (isKeys : ∀ key ∈ keys, IsDocumentKey key)
    (areKeys : ∀ key ∈ others, IsDocumentKey key) :
    joinKeys (sortKeys keys) = joinKeys (sortKeys others) ↔
      keys.Perm others := by
  constructor
  · intro same
    refine sortKeys_eq_iff.mp (joinKeys_inj ?_ ?_ same)
    · intro key member
      exact (isKeys key ((sortKeys_perm keys).mem_iff.mp member)).isPlain
    · intro key member
      exact (areKeys key ((sortKeys_perm others).mem_iff.mp member)).isPlain
  · intro perm
    rw [sortKeys_eq_iff.mpr perm]

end Keys

namespace FieldIndex

section Contents

variable
  {index : FieldIndex}

/-- The values of `contents` are those of the hash part, in another order. -/
theorem contents_values_perm
    (index : FieldIndex) :
    index.contents.values.Perm
      (index.byValue.entries.map fun entry => (entry.1, sortKeys entry.2)) :=
  List.perm_insertionSort _ _

/-- The entries of the map that `validate` makes of the values. -/
theorem entries_contents
    (index : FieldIndex) :
    (JsMap.ofEntries index.contents.values).entries =
      index.contents.values := by
  apply JsMap.entries_ofEntries
  rw [((contents_values_perm index).map Prod.fst).nodup_iff, List.map_map]
  exact index.byValue.nodup_keys

/-- The map has the documents of the hash part, sorted. -/
theorem get?_contents
    (index : FieldIndex)
    (key : Bytes) :
    (JsMap.ofEntries index.contents.values).get? key =
      (index.byValue.get? key).map sortKeys := by
  apply Option.ext
  intro docs
  rw [JsMap.get?_eq_some, entries_contents,
    (contents_values_perm index).mem_iff, List.mem_map,
    Option.map_eq_some_iff]
  constructor
  · rintro ⟨⟨_, keys⟩, member, same⟩
    obtain ⟨rfl, rfl⟩ := Prod.mk.inj same
    exact ⟨keys, JsMap.get?_eq_some.mpr member, rfl⟩
  · rintro ⟨keys, found, rfl⟩
    exact ⟨(key, keys), JsMap.get?_eq_some.mp found, rfl⟩

/-- The keys of the map are those of the hash part. -/
theorem mem_keys_contents
    (index : FieldIndex)
    (key : Bytes) :
    key ∈ (JsMap.ofEntries index.contents.values).keys ↔
      key ∈ index.byValue.keys := by
  rw [← not_iff_not, ← JsMap.get?_eq_none, ← JsMap.get?_eq_none,
    get?_contents, Option.map_eq_none_iff]

/-- No problem of the entries of a class: they have documents, and each comes
behind the one before it. -/
theorem entryProblems_eq_nil_iff
    (index : FieldIndex)
    (valueClass : ValueClass)
    (previous : Option OrderedEntry)
    (entries : List OrderedEntry) :
    index.entryProblems valueClass previous entries = [] ↔
      (∀ entry ∈ entries, entry.key ∈ index.byValue.keys) ∧
        (previous.toList ++ entries).IsChain OrderedEntry.Precedes := by
  induction entries generalizing previous with
  | nil =>
      cases previous <;> simp [entryProblems]
  | cons entry rest inductionHypothesis =>
      rw [List.forall_mem_cons, ← JsMap.has_iff]
      cases previous with
      | none =>
          rw [entryProblems, List.append_eq_nil_iff, List.append_eq_nil_iff,
            inductionHypothesis]
          simp [and_assoc]
      | some previous =>
          rw [entryProblems, List.append_eq_nil_iff, List.append_eq_nil_iff,
            inductionHypothesis]
          simp [OrderedEntry.Precedes, and_assoc, and_left_comm]

/-- No problem of the ordered part or of an empty entry. -/
theorem orderedProblems_eq_nil_iff
    (index : FieldIndex) :
    index.contents.orderedProblems = [] ↔
      (∀ valueClass, ∀ entry ∈ index.entriesOf valueClass,
          entry.key ∈ index.byValue.keys) ∧
        (∀ valueClass,
          (index.entriesOf valueClass).IsChain OrderedEntry.Precedes) ∧
        ∀ key, index.byValue.get? key ≠ some [] := by
  have noEmpty :
      (index.byValue.entries.flatMap fun entry =>
          if ((index.byValue.get? entry.1).getD []).head? = none then
            [utf16 "an index entry has no documents"]
          else
            []) = [] ↔
        ∀ key, index.byValue.get? key ≠ some [] := by
    rw [List.flatMap_eq_nil_iff]
    constructor
    · intro filled key isEmpty
      have problem := filled _ (JsMap.get?_eq_some.mp isEmpty)
      rw [isEmpty] at problem
      cases problem
    · rintro filled ⟨key, keys⟩ member
      have found := JsMap.get?_eq_some.mpr member
      rw [if_neg]
      rw [found, Option.getD_some, List.head?_eq_none_iff]
      rintro rfl
      exact filled key found
  have classes :
      (index.ordered.entries.flatMap fun entry =>
          index.entryProblems entry.1 none entry.2) = [] ↔
        ∀ valueClass,
          index.entryProblems valueClass none
            (index.entriesOf valueClass) = [] := by
    rw [List.flatMap_eq_nil_iff]
    constructor
    · intro fine valueClass
      unfold entriesOf
      cases found : index.ordered.get? valueClass with
      | none =>
          rfl
      | some entries =>
          exact fine _ (JsMap.get?_eq_some.mp found)
    · rintro fine ⟨valueClass, entries⟩ member
      have problems := fine valueClass
      unfold entriesOf at problems
      rwa [JsMap.get?_eq_some.mpr member] at problems
  rw [contents, List.append_eq_nil_iff, noEmpty, classes]
  simp only [entryProblems_eq_nil_iff, Option.toList_none, List.nil_append,
    forall_and, and_assoc]

end Contents

end FieldIndex

namespace IndexSpec

/-- A test holds for one item at most when it holds for no two of them. -/
theorem length_filter_le_one_iff
    {α : Type}
    {items : List α}
    {test : α → Bool} :
    (items.filter test).length ≤ 1 ↔
      ∀ {left right}, [left, right].Sublist items →
        ¬ (test left = true ∧ test right = true) := by
  rw [← List.pairwise_iff_forall_sublist]
  induction items with
  | nil =>
      simp
  | cons item rest inductionHypothesis =>
      rw [List.pairwise_cons, ← inductionHypothesis, List.filter_cons]
      cases passes : test item with
      | false =>
          simp
      | true =>
          simp only [if_true, List.length_cons, true_and]
          constructor
          · intro few
            have none : rest.filter test = [] :=
              List.length_eq_zero_iff.mp (by omega)
            rw [none]
            exact ⟨fun other member isTrue =>
              absurd (List.filter_eq_nil_iff.mp none other member) (· isTrue),
              Nat.zero_le 1⟩
          · rintro ⟨others, -⟩
            rw [List.filter_eq_nil_iff.mpr others]
            exact Nat.le_refl 1

/-- A unique index allows the documents when one of them holds each value, and
one of them lacks the field unless the index is sparse. -/
theorem distinguishes_iff
    {spec : IndexSpec}
    {documents : Documents}
    (isUnique : spec.unique = true) :
    spec.Distinguishes documents ↔
      (∀ key,
        (FieldIndex.holders (splitPath spec.field) documents key).length ≤
          1) ∧
        (spec.sparse = false →
          (FieldIndex.lacking (splitPath spec.field) documents).length ≤
            1) := by
  unfold Distinguishes FieldIndex.holders FieldIndex.lacking Documents.keys
  simp only [List.length_map, length_filter_le_one_iff]
  rw [List.pairwise_iff_forall_sublist]
  unfold Clashes FieldIndex.listingKey
  constructor
  · intro allowed
    refine ⟨?_, ?_⟩
    · intro key left right inside held
      apply allowed inside
      refine ⟨isUnique, ?_⟩
      obtain ⟨leftHeld, rightHeld⟩ := held
      obtain ⟨leftValue, leftFound, leftKey⟩ :=
        Option.map_eq_some_iff.mp (of_decide_eq_true leftHeld)
      obtain ⟨rightValue, rightFound, rightKey⟩ :=
        Option.map_eq_some_iff.mp (of_decide_eq_true rightHeld)
      rw [leftFound, rightFound]
      exact leftKey.trans rightKey.symm
    · intro notSparse left right inside lack
      apply allowed inside
      refine ⟨isUnique, ?_⟩
      obtain ⟨leftLacks, rightLacks⟩ := lack
      rw [Option.map_eq_none_iff.mp (of_decide_eq_true leftLacks),
        Option.map_eq_none_iff.mp (of_decide_eq_true rightLacks)]
      exact notSparse
  · rintro ⟨values, lacks⟩ left right inside ⟨-, clash⟩
    cases leftFound : resolveField left.2 (splitPath spec.field) with
    | none =>
        cases rightFound : resolveField right.2 (splitPath spec.field) with
        | none =>
            rw [leftFound, rightFound] at clash
            exact lacks clash inside (by simp [leftFound, rightFound])
        | some rightValue =>
            rw [leftFound, rightFound] at clash
            exact clash
    | some leftValue =>
        cases rightFound : resolveField right.2 (splitPath spec.field) with
        | none =>
            rw [leftFound, rightFound] at clash
            exact clash
        | some rightValue =>
            rw [leftFound, rightFound] at clash
            have same : canonicalKey leftValue = canonicalKey rightValue :=
              clash
            exact values (canonicalKey rightValue) inside
              (by simp [leftFound, rightFound, same])

end IndexSpec

namespace FieldIndex

/-- The sets of an index have no key twice, and keys of documents only. -/
structure HasContents (index : FieldIndex) : Prop where
  listed :
    ∀ key keys, index.byValue.get? key = some keys →
      keys.Nodup ∧ ∀ docKey ∈ keys, IsDocumentKey docKey
  missing :
    index.missing.Nodup ∧ ∀ docKey ∈ index.missing, IsDocumentKey docKey

/-- The ordered part lists every comparable value of the hash part, with its own
key and under its class. -/
structure ListsValues (index : FieldIndex) : Prop where
  entry :
    ∀ valueClass, ∀ entry ∈ index.entriesOf valueClass,
      entry.value.HasKey ∧ valueClassOf entry.value = some valueClass ∧
        entry.key = canonicalKey entry.value
  listed :
    ∀ value valueClass, value.HasKey →
      valueClassOf value = some valueClass →
      canonicalKey value ∈ index.byValue.keys →
      value ∈ (index.entriesOf valueClass).map OrderedEntry.value

/-- The equality lookups, the array flag and the coverage are those of another
index. -/
structure AnswersEqualLike (live fresh : FieldIndex) : Prop where
  equal :
    ∀ value docKey,
      docKey ∈ (live.lookupEqual value).getD [] ↔
        docKey ∈ (fresh.lookupEqual value).getD []
  arrays : live.hasArrayValues = fresh.hasArrayValues
  counted : live.indexedDocuments = fresh.indexedDocuments

/-- The lookups, the array flag and the coverage are those of another index. -/
structure AnswersLike (live fresh : FieldIndex) : Prop
    extends AnswersEqualLike live fresh where
  range :
    ∀ valueClass lower upper docKey,
      docKey ∈ live.lookupRange valueClass lower upper ↔
        docKey ∈ fresh.lookupRange valueClass lower upper

/-- No entry is left of a value that the other index does not have, and the
documents without the field are the same. -/
structure Tidy (live fresh : FieldIndex) : Prop where
  missing : ∀ docKey, docKey ∈ live.missing ↔ docKey ∈ fresh.missing
  values : ∀ key ∈ live.byValue.keys, key ∈ fresh.byValue.keys
  entries :
    ∀ valueClass, ∀ entry ∈ live.entriesOf valueClass,
      entry.key ∈ fresh.byValue.keys

/-- What `validate` looks at. -/
structure Compares (live fresh : FieldIndex) : Prop where
  ordered : live.contents.orderedProblems = []
  counted : live.indexedDocuments = fresh.indexedDocuments
  arrays : live.hasArrayValues = fresh.hasArrayValues
  listed :
    ∀ key docs, fresh.byValue.get? key = some docs →
      ∃ found, live.byValue.get? key = some found ∧ found.Perm docs
  expected : ∀ key ∈ live.byValue.keys, key ∈ fresh.byValue.keys
  missing : live.missing.Perm fresh.missing

section Issues

variable
  {live fresh : FieldIndex}
  {documents : Documents}

/-- The counters have no issue when they are those of the other index. -/
theorem counterIssues_eq_nil_iff :
    live.counterIssues fresh = [] ↔
      live.indexedDocuments = fresh.indexedDocuments ∧
        live.hasArrayValues = fresh.hasArrayValues := by
  unfold counterIssues
  rw [List.append_eq_nil_iff]
  simp

/-- The hash part has no issue when it has the values of the other index, with
the same documents. -/
theorem valueIssues_eq_nil_iff
    (contents : live.HasContents)
    (freshContents : fresh.HasContents) :
    live.valueIssues (JsMap.ofEntries live.contents.values)
        (JsMap.ofEntries fresh.contents.values) = [] ↔
      (∀ key docs, fresh.byValue.get? key = some docs →
        ∃ found, live.byValue.get? key = some found ∧ found.Perm docs) ∧
      ∀ key ∈ live.byValue.keys, key ∈ fresh.byValue.keys := by
  unfold valueIssues
  rw [List.append_eq_nil_iff, List.flatMap_eq_nil_iff,
    List.flatMap_eq_nil_iff]
  refine and_congr ?_ ?_
  · constructor
    · intro fine key docs isDocs
      have inFresh :
          (key, sortKeys docs) ∈
            (JsMap.ofEntries fresh.contents.values).entries := by
        rw [← JsMap.get?_eq_some, get?_contents, isDocs]
        rfl
      have noIssue := fine _ inFresh
      simp only [get?_contents] at noIssue
      cases found : live.byValue.get? key with
      | none =>
          rw [found] at noIssue
          cases noIssue
      | some keys =>
          rw [found] at noIssue
          simp only [Option.map_some] at noIssue
          split_ifs at noIssue with same
          refine ⟨keys, rfl, ?_⟩
          exact (joinKeys_sortKeys_iff (contents.listed _ _ found).2
            (freshContents.listed _ _ isDocs).2).mp (not_not.mp same)
    · rintro listed ⟨key, sorted⟩ member
      rw [← JsMap.get?_eq_some, get?_contents] at member
      obtain ⟨docs, isDocs, rfl⟩ := Option.map_eq_some_iff.mp member
      obtain ⟨keys, found, perm⟩ := listed key docs isDocs
      simp only [get?_contents, found, Option.map_some]
      rw [if_neg]
      rw [sortKeys_eq_iff.mpr perm]
      exact fun different => different rfl
  · constructor
    · intro fine key member
      have noIssue := fine key ((mem_keys_contents live key).mpr member)
      split_ifs at noIssue with inFresh
      exact (mem_keys_contents fresh key).mp (JsMap.has_iff.mp inFresh)
    · intro expected key member
      rw [if_pos]
      rw [JsMap.has_iff, mem_keys_contents]
      exact expected key ((mem_keys_contents live key).mp member)

/-- The documents have no issue when the index allows them together. -/
theorem uniqueIssues_eq_nil_iff
    (represents : fresh.Represents documents)
    (sameSpec : fresh.spec = live.spec) :
    live.uniqueIssues (JsMap.ofEntries fresh.contents.values)
        fresh.contents.missing = [] ↔
      live.spec.Distinguishes documents := by
  unfold uniqueIssues
  by_cases isUnique : live.spec.unique = true
  · rw [if_pos isUnique]
    have sameSegments : fresh.segments = splitPath live.spec.field := by
      unfold segments
      rw [sameSpec]
    rw [IndexSpec.distinguishes_iff isUnique, List.append_eq_nil_iff,
      List.flatMap_eq_nil_iff]
    refine and_congr ?_ ?_
    · constructor
      · intro fine key
        have perm := represents.byValue key
        rw [← sameSegments, ← perm.length_eq]
        cases found : fresh.byValue.get? key with
        | none =>
            exact Nat.zero_le 1
        | some docs =>
            have inFresh :
                (key, sortKeys docs) ∈
                  (JsMap.ofEntries fresh.contents.values).entries := by
              rw [← JsMap.get?_eq_some, get?_contents, found]
              rfl
            have noIssue := fine _ inFresh
            split_ifs at noIssue with many
            rw [(sortKeys_perm docs).length_eq] at many
            exact not_lt.mp many
      · rintro few ⟨key, sorted⟩ member
        rw [← JsMap.get?_eq_some, get?_contents] at member
        obtain ⟨docs, isDocs, rfl⟩ := Option.map_eq_some_iff.mp member
        have perm := represents.byValue key
        rw [isDocs, Option.getD_some, sameSegments] at perm
        rw [if_neg]
        rw [(sortKeys_perm docs).length_eq, perm.length_eq]
        exact not_lt.mpr (few key)
    · have perm := represents.missing
      rw [sameSegments, sameSpec] at perm
      have length :=
        ((sortKeys_perm fresh.missing).trans perm).length_eq
      have isMissing : fresh.contents.missing = sortKeys fresh.missing := rfl
      rw [isMissing, length]
      cases live.spec.sparse <;> simp
  · rw [if_neg isUnique]
    refine iff_of_true rfl ?_
    refine List.pairwise_iff_forall_sublist.mpr fun _ clash => ?_
    exact isUnique clash.1

/-- An index has no issue when what `validate` looks at is right. -/
theorem issues_eq_nil_iff
    (contents : live.HasContents)
    (freshContents : (rebuilt live.spec documents).HasContents)
    (stored : documents.Stored) :
    live.issues documents = [] ↔
      live.Compares (rebuilt live.spec documents) ∧
        live.spec.Distinguishes documents := by
  obtain ⟨represents, sameSpec⟩ := rebuilt_represents stored live.spec
  have missing :
      (if joinKeys live.contents.missing ≠
            joinKeys (rebuilt live.spec documents).contents.missing then
          [live.issue "missing-field-entries"
            (utf16
              "the documents lacking the field are not tracked correctly")]
        else
          []) = [] ↔
        live.missing.Perm (rebuilt live.spec documents).missing := by
    rw [← joinKeys_sortKeys_iff contents.missing.2 freshContents.missing.2]
    split_ifs with different
    · exact iff_of_false nofun different
    · exact iff_of_true rfl (not_not.mp different)
  unfold issues
  simp only
  rw [List.append_eq_nil_iff, List.append_eq_nil_iff, List.append_eq_nil_iff,
    List.append_eq_nil_iff, List.map_eq_nil_iff, counterIssues_eq_nil_iff,
    valueIssues_eq_nil_iff contents freshContents, missing,
    uniqueIssues_eq_nil_iff represents sameSpec]
  constructor
  · rintro ⟨⟨⟨⟨ordered, counted, arrays⟩, listed, expected⟩, missing⟩,
      distinguishes⟩
    exact ⟨⟨ordered, counted, arrays, listed, expected, missing⟩,
      distinguishes⟩
  · rintro ⟨⟨ordered, counted, arrays, listed, expected, missing⟩,
      distinguishes⟩
    exact ⟨⟨⟨⟨ordered, counted, arrays⟩, listed, expected⟩, missing⟩,
      distinguishes⟩

end Issues

end FieldIndex

end SinterDb
