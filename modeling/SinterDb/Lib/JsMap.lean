import SinterDb.Lib.Lists

namespace SinterDb

/-!
# Insertion-ordered maps

A `Map` as ECMAScript describes it: a list of slots that only grows.  Deleting
a key empties its slot, setting a present key changes its slot in place, and a
new key takes a new slot at the end.  An iterator is a slot number, so that it
sees later writes exactly as a live iterator does.
-/

/-- A map with its slots in the order of insertion. -/
structure JsMap (κ ν : Type) where
  slots : List (Option (κ × ν))
  distinct : ((slots.filterMap id).map Prod.fst).Nodup

namespace JsMap

variable {κ ν : Type} [DecidableEq κ]

/-- The entries in the order in which an iterator gives them. -/
def entries (map : JsMap κ ν) : List (κ × ν) :=
  map.slots.filterMap id

/-- The keys in the order in which an iterator gives them. -/
def keys (map : JsMap κ ν) : List κ :=
  map.entries.map Prod.fst

/-- `Map.prototype.get`. -/
def get? (map : JsMap κ ν) (key : κ) : Option ν :=
  (map.entries.find? fun entry => entry.1 = key).map Prod.snd

/-- `Map.prototype.has`. -/
def has (map : JsMap κ ν) (key : κ) : Bool :=
  map.entries.any fun entry => entry.1 = key

/-- `Map.prototype.size`. -/
def size (map : JsMap κ ν) : Nat :=
  map.entries.length

/-- `new Map()`. -/
def empty : JsMap κ ν where
  slots := []
  distinct := List.nodup_nil

/-- The entry of a key with a new value; other entries stay. -/
def replace (key : κ) (value : ν) (entry : κ × ν) : κ × ν :=
  if entry.1 = key then (key, value) else entry

omit [DecidableEq κ] in
/-- Changing entries in place changes the list of entries in place. -/
theorem filterMap_map
    (slots : List (Option (κ × ν)))
    (change : κ × ν → κ × ν) :
    (slots.map (Option.map change)).filterMap id =
      (slots.filterMap id).map change := by
  induction slots with
  | nil =>
      rfl
  | cons slot rest inductionHypothesis =>
      cases slot <;> simp_all

omit [DecidableEq κ] in
/-- Emptying slots drops the entries that were in them. -/
theorem filterMap_filter
    (slots : List (Option (κ × ν)))
    (keep : κ × ν → Bool) :
    (slots.map (Option.filter keep)).filterMap id =
      (slots.filterMap id).filter keep := by
  induction slots with
  | nil =>
      rfl
  | cons slot rest inductionHypothesis =>
      cases slot with
      | none =>
          simpa using inductionHypothesis
      | some entry =>
          by_cases kept : keep entry = true
          · simp_all [Option.filter]
          · simp_all [Option.filter]

/-- Replacing a value keeps the key. -/
@[simp] theorem replace_fst
    (key : κ)
    (value : ν)
    (entry : κ × ν) :
    (replace key value entry).1 = entry.1 := by
  unfold replace
  split_ifs with same
  · exact same.symm
  · rfl

/-- `Map.prototype.set`. -/
def set (map : JsMap κ ν) (key : κ) (value : ν) : JsMap κ ν :=
  if present : map.has key then
    { slots := map.slots.map (Option.map (replace key value))
      distinct := by
        rw [filterMap_map, List.map_map]
        simpa [Function.comp_def] using map.distinct }
  else
    { slots := map.slots ++ [some (key, value)]
      distinct := by
        have absent : key ∉ (map.slots.filterMap id).map Prod.fst := by
          intro member
          obtain ⟨entry, inEntries, same⟩ := List.mem_map.mp member
          exact present (List.any_eq_true.mpr
            ⟨entry, inEntries, decide_eq_true same⟩)
        rw [List.filterMap_append, List.map_append, List.nodup_append]
        refine ⟨map.distinct, by simp, ?_⟩
        intro other member fresh isFresh same
        obtain rfl : fresh = key := by simpa using isFresh
        exact absent (same ▸ member) }

/-- `Map.prototype.delete`. -/
def delete (map : JsMap κ ν) (key : κ) : JsMap κ ν where
  slots := map.slots.map (Option.filter fun entry => !(entry.1 = key))
  distinct := by
    rw [filterMap_filter]
    exact (List.filter_sublist.map Prod.fst).nodup map.distinct

omit [DecidableEq κ] in
/-- Every value of a map changed, in place. -/
def mapValues (map : JsMap κ ν) (change : ν → ν) : JsMap κ ν where
  slots := map.slots.map (Option.map fun entry => (entry.1, change entry.2))
  distinct := by
    rw [filterMap_map, List.map_map]
    simpa [Function.comp_def] using map.distinct

/-- One value of a map changed, in place. -/
def modify (map : JsMap κ ν) (key : κ) (change : ν → ν) : JsMap κ ν :=
  match map.get? key with
  | none => map
  | some value => map.set key (change value)

/-- A map built by setting entries in order. -/
def ofEntries (entries : List (κ × ν)) : JsMap κ ν :=
  entries.foldl (fun map entry => map.set entry.1 entry.2) empty

omit [DecidableEq κ] in
/-- The entries after changing every value. -/
theorem entries_mapValues
    (map : JsMap κ ν)
    (change : ν → ν) :
    (map.mapValues change).entries =
      map.entries.map fun entry => (entry.1, change entry.2) :=
  filterMap_map _ _

omit [DecidableEq κ] in
/-- No key has two entries. -/
theorem nodup_keys
    (map : JsMap κ ν) :
    map.keys.Nodup :=
  map.distinct

/-- A key is present when it is one of the keys. -/
theorem has_iff
    {map : JsMap κ ν}
    {key : κ} :
    map.has key = true ↔ key ∈ map.keys := by
  simp [has, keys]

/-- A key is present when it has a value. -/
theorem has_eq_isSome
    (map : JsMap κ ν)
    (key : κ) :
    map.has key = (map.get? key).isSome := by
  rw [Bool.eq_iff_iff, get?, Option.isSome_map, List.find?_isSome, has,
    List.any_eq_true]

/-- The value of a key is the one in its entry. -/
theorem get?_eq_some
    {map : JsMap κ ν}
    {key : κ}
    {value : ν} :
    map.get? key = some value ↔ (key, value) ∈ map.entries := by
  unfold get?
  have distinct := map.nodup_keys
  unfold keys at distinct
  constructor
  · intro found
    obtain ⟨entry, isFound, rfl⟩ := Option.map_eq_some_iff.mp found
    have same := List.find?_some isFound
    have member := List.mem_of_find?_eq_some isFound
    simp only [decide_eq_true_eq] at same
    rw [← same]
    exact member
  · intro member
    generalize map.entries = entries at member distinct
    induction entries with
    | nil =>
        simp at member
    | cons entry rest inductionHypothesis =>
        rw [List.map_cons, List.nodup_cons] at distinct
        rcases List.mem_cons.mp member with isHead | inRest
        · subst isHead
          simp
        · have different : ¬ entry.1 = key := by
            rintro rfl
            exact distinct.1 (List.mem_map.mpr ⟨_, inRest, rfl⟩)
          rw [List.find?_cons_of_neg (by simpa using different)]
          exact inductionHypothesis inRest distinct.2

/-- At most one entry has a given key. -/
theorem filter_key
    (map : JsMap κ ν)
    (key : κ) :
    (map.entries.filter fun entry => entry.1 = key) =
      ((map.get? key).map fun value => (key, value)).toList := by
  have distinct := map.nodup_keys
  unfold get? keys at *
  generalize map.entries = entries at distinct
  induction entries with
  | nil =>
      rfl
  | cons entry rest inductionHypothesis =>
      obtain ⟨fresh, restDistinct⟩ := List.nodup_cons.mp distinct
      by_cases same : entry.1 = key
      · obtain ⟨own, value⟩ := entry
        obtain rfl : own = key := same
        have noOther : (rest.filter fun entry => entry.1 = own) = [] := by
          rw [List.filter_eq_nil_iff]
          intro other member isKey
          exact fresh (List.mem_map.mpr ⟨other, member, by simpa using isKey⟩)
        simp [noOther]
      · rw [List.filter_cons_of_neg (by simpa using same),
          List.find?_cons_of_neg (by simpa using same)]
        exact inductionHypothesis restDistinct

/-- Looking up some of the keys gives their entries. -/
theorem filterMap_get?
    (map : JsMap κ ν)
    (keep : κ → Bool) :
    ((map.keys.filter keep).filterMap fun key =>
      (map.get? key).map fun value => (key, value)) =
        map.entries.filter fun entry => keep entry.1 := by
  have lookUp :
      ∀ entries : List (κ × ν), (∀ entry ∈ entries, entry ∈ map.entries) →
        (((entries.map Prod.fst).filter keep).filterMap fun key =>
          (map.get? key).map fun value => (key, value)) =
            entries.filter fun entry => keep entry.1 := by
    intro entries
    induction entries with
    | nil =>
        simp
    | cons entry rest inductionHypothesis =>
        intro inside
        obtain ⟨isEntry, restInside⟩ := List.forall_mem_cons.mp inside
        have later := inductionHypothesis restInside
        have value := get?_eq_some.mpr isEntry
        cases kept : keep entry.1 <;>
          simp_all
  exact lookUp map.entries fun _ => id

/-- A key without an entry has no value. -/
theorem get?_eq_none
    {map : JsMap κ ν}
    {key : κ} :
    map.get? key = none ↔ key ∉ map.keys := by
  rw [← has_iff, has_eq_isSome]
  simp

/-- Setting a new key adds its entry at the end. -/
theorem entries_set_of_not_mem
    {map : JsMap κ ν}
    {key : κ}
    (absent : key ∉ map.keys)
    (value : ν) :
    (map.set key value).entries = map.entries ++ [(key, value)] := by
  have notPresent : ¬ map.has key = true := by
    rwa [has_iff]
  unfold set entries
  rw [dif_neg notPresent]
  simp

/-- Setting a present key changes its value in place. -/
theorem entries_set_of_mem
    {map : JsMap κ ν}
    {key : κ}
    (present : key ∈ map.keys)
    (value : ν) :
    (map.set key value).entries =
      map.entries.map (replace key value) := by
  have isPresent : map.has key = true := has_iff.mpr present
  unfold set entries
  rw [dif_pos isPresent]
  exact filterMap_map _ _

/-- Deleting a key removes its entry. -/
@[simp] theorem entries_delete
    (map : JsMap κ ν)
    (key : κ) :
    (map.delete key).entries =
      map.entries.filter fun entry => !(entry.1 = key) :=
  filterMap_filter _ _

/-- Setting a present key keeps the keys in their order. -/
theorem keys_set_of_mem
    {map : JsMap κ ν}
    {key : κ}
    (present : key ∈ map.keys)
    (value : ν) :
    (map.set key value).keys = map.keys := by
  unfold keys
  rw [entries_set_of_mem present, List.map_map]
  simp [Function.comp_def]

/-- Setting a new key adds it at the end. -/
theorem keys_set_of_not_mem
    {map : JsMap κ ν}
    {key : κ}
    (absent : key ∉ map.keys)
    (value : ν) :
    (map.set key value).keys = map.keys ++ [key] := by
  unfold keys
  rw [entries_set_of_not_mem absent]
  simp

/-- Entries with new, distinct keys are added at the end, in order. -/
theorem entries_foldl_set
    {map : JsMap κ ν}
    {added : List (κ × ν)}
    (distinct : (map.keys ++ added.map Prod.fst).Nodup) :
    (added.foldl (fun map entry => map.set entry.1 entry.2) map).entries =
      map.entries ++ added := by
  induction added generalizing map with
  | nil =>
      simp
  | cons entry rest inductionHypothesis =>
      have absent : entry.1 ∉ map.keys := by
        intro present
        exact (List.nodup_append.mp distinct).2.2 _ present _
          List.mem_cons_self rfl
      have later :
          ((map.set entry.1 entry.2).keys ++ rest.map Prod.fst).Nodup := by
        rw [keys_set_of_not_mem absent, List.append_assoc]
        exact distinct
      rw [List.foldl_cons, inductionHypothesis later,
        entries_set_of_not_mem absent, List.append_assoc]
      rfl

/-- A map built from entries with distinct keys has these entries. -/
theorem entries_ofEntries
    {entries : List (κ × ν)}
    (distinct : (entries.map Prod.fst).Nodup) :
    (ofEntries entries).entries = entries := by
  have added := @entries_foldl_set κ ν _ empty entries distinct
  exact added

/-- Deleting a key removes it from the keys. -/
theorem keys_delete
    (map : JsMap κ ν)
    (key : κ) :
    (map.delete key).keys = map.keys.filter fun other => !(other = key) := by
  unfold keys
  rw [entries_delete, List.filter_map]
  rfl

/-- The entries after setting a key. -/
theorem mem_entries_set
    {map : JsMap κ ν}
    {key : κ}
    {value : ν}
    {entry : κ × ν} :
    entry ∈ (map.set key value).entries ↔
      entry = (key, value) ∨ entry.1 ≠ key ∧ entry ∈ map.entries := by
  by_cases present : key ∈ map.keys
  · rw [entries_set_of_mem present, List.mem_map]
    constructor
    · rintro ⟨old, member, rfl⟩
      unfold replace
      split_ifs with same
      · exact .inl rfl
      · exact .inr ⟨same, member⟩
    · rintro (rfl | ⟨different, member⟩)
      · obtain ⟨old, member, same⟩ := List.mem_map.mp present
        exact ⟨old, member, by simp [replace, same]⟩
      · exact ⟨entry, member, by simp [replace, different]⟩
  · rw [entries_set_of_not_mem present]
    constructor
    · intro member
      rcases List.mem_append.mp member with old | new
      · refine .inr ⟨?_, old⟩
        intro same
        exact present (same ▸ List.mem_map.mpr ⟨entry, old, rfl⟩)
      · exact .inl (List.mem_singleton.mp new)
    · rintro (rfl | ⟨-, member⟩)
      · simp
      · simp [member]

/-- The keys after setting one. -/
theorem mem_keys_of_set
    {map : JsMap κ ν}
    {key other : κ}
    {value : ν}
    (member : other ∈ (map.set key value).keys) :
    other = key ∨ other ∈ map.keys := by
  obtain ⟨entry, inside, rfl⟩ := List.mem_map.mp member
  obtain rfl | ⟨-, old⟩ := mem_entries_set.mp inside
  · exact .inl rfl
  · exact .inr (List.mem_map.mpr ⟨entry, old, rfl⟩)

/-- The entries after deleting a key. -/
theorem mem_entries_delete
    {map : JsMap κ ν}
    {key : κ}
    {entry : κ × ν} :
    entry ∈ (map.delete key).entries ↔
      entry.1 ≠ key ∧ entry ∈ map.entries := by
  rw [entries_delete, List.mem_filter]
  simp [and_comm]

/-- The values after setting a key. -/
theorem get?_set
    (map : JsMap κ ν)
    (key other : κ)
    (value : ν) :
    (map.set key value).get? other =
      if other = key then some value else map.get? other := by
  apply Option.ext
  intro found
  rw [get?_eq_some, mem_entries_set]
  split_ifs with same
  · subst same
    simp [eq_comm]
  · rw [get?_eq_some]
    simp [same]

/-- The values after deleting a key. -/
theorem get?_delete
    (map : JsMap κ ν)
    (key other : κ) :
    (map.delete key).get? other =
      if other = key then none else map.get? other := by
  apply Option.ext
  intro found
  rw [get?_eq_some, mem_entries_delete]
  split_ifs with same
  · simp [same]
  · rw [get?_eq_some]
    simp [same]

/-- Setting entries in order keeps the keys and adds the new ones. -/
theorem mem_keys_foldl_set
    {entries : List (κ × ν)}
    {map : JsMap κ ν}
    {key : κ} :
    key ∈ (entries.foldl (fun map entry => map.set entry.1 entry.2) map).keys ↔
      key ∈ map.keys ∨ key ∈ entries.map Prod.fst := by
  induction entries generalizing map with
  | nil =>
      simp
  | cons entry rest inductionHypothesis =>
      have step : key ∈ (map.set entry.1 entry.2).keys ↔
          key ∈ map.keys ∨ key = entry.1 := by
        by_cases present : entry.1 ∈ map.keys
        · rw [keys_set_of_mem present]
          constructor
          · exact .inl
          · rintro (member | rfl)
            · exact member
            · exact present
        · rw [keys_set_of_not_mem present]
          simp
      rw [List.foldl_cons, inductionHypothesis, step, List.map_cons,
        List.mem_cons, or_assoc]

/-- Every entry was set, or it is one of the map with a key that was not. -/
theorem mem_entries_foldl_set
    {entries : List (κ × ν)}
    {map : JsMap κ ν}
    {entry : κ × ν}
    (member :
      entry ∈
        (entries.foldl (fun map entry => map.set entry.1 entry.2)
          map).entries) :
    entry ∈ entries ∨
      entry ∈ map.entries ∧ entry.1 ∉ entries.map Prod.fst := by
  induction entries generalizing map with
  | nil =>
      exact .inr ⟨member, by simp⟩
  | cons first rest inductionHypothesis =>
      rcases inductionHypothesis member with inRest | ⟨inMap, notInRest⟩
      · exact .inl (List.mem_cons_of_mem _ inRest)
      · rcases mem_entries_set.mp inMap with rfl | ⟨different, inMap⟩
        · exact .inl List.mem_cons_self
        · refine .inr ⟨inMap, ?_⟩
          simp only [List.map_cons, List.mem_cons, not_or]
          exact ⟨different, notInRest⟩

/-- The entries after setting entries with distinct keys. -/
theorem mem_entries_foldl_set_iff
    {entries : List (κ × ν)}
    {map : JsMap κ ν}
    {entry : κ × ν}
    (distinct : (entries.map Prod.fst).Nodup) :
    entry ∈
        (entries.foldl (fun map entry => map.set entry.1 entry.2)
          map).entries ↔
      entry ∈ entries ∨
        entry ∈ map.entries ∧ entry.1 ∉ entries.map Prod.fst := by
  refine ⟨mem_entries_foldl_set, ?_⟩
  induction entries generalizing map with
  | nil =>
      simp
  | cons first rest inductionHypothesis =>
      rw [List.map_cons, List.nodup_cons] at distinct
      rintro (member | ⟨inMap, notSet⟩)
      · refine inductionHypothesis distinct.2 ?_
        rcases List.mem_cons.mp member with rfl | inRest
        · exact .inr ⟨mem_entries_set.mpr (.inl rfl), distinct.1⟩
        · exact .inl inRest
      · rw [List.map_cons, List.mem_cons, not_or] at notSet
        exact inductionHypothesis distinct.2
          (.inr ⟨mem_entries_set.mpr (.inr ⟨notSet.1, inMap⟩), notSet.2⟩)

/-- The values after changing every value. -/
theorem get?_mapValues
    (map : JsMap κ ν)
    (change : ν → ν)
    (key : κ) :
    (map.mapValues change).get? key = (map.get? key).map change := by
  unfold get?
  rw [entries_mapValues, List.find?_map, Option.map_map, Option.map_map]
  rfl

omit [DecidableEq κ] in
/-- Changing every value keeps the keys in their order. -/
theorem keys_mapValues
    (map : JsMap κ ν)
    (change : ν → ν) :
    (map.mapValues change).keys = map.keys := by
  unfold keys
  rw [entries_mapValues, List.map_map]
  rfl

/-- The values after changing one. -/
theorem get?_modify
    (map : JsMap κ ν)
    (key other : κ)
    (change : ν → ν) :
    (map.modify key change).get? other =
      if other = key then (map.get? key).map change else map.get? other := by
  unfold modify
  cases present : map.get? key with
  | none =>
      split_ifs with same
      · rw [same, present]
        rfl
      · rfl
  | some value =>
      rw [get?_set]
      rfl

/-- Changing one value keeps the keys in their order. -/
theorem keys_modify
    (map : JsMap κ ν)
    (key : κ)
    (change : ν → ν) :
    (map.modify key change).keys = map.keys := by
  unfold modify
  cases present : map.get? key with
  | none =>
      rfl
  | some value =>
      refine keys_set_of_mem ?_ _
      by_contra absent
      rw [get?_eq_none.mpr absent] at present
      cases present

end JsMap

end SinterDb
