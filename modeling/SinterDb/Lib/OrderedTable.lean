import SinterDb.Lib.JsMap

namespace SinterDb.OrderedTable

/-!
# Ordered tables

Lists of entries with one entry for each key.  Writing a present key changes
its entry in place, writing a new key adds an entry at the end, and removing a
key closes the gap.  An insertion-ordered map does exactly this to its entries.
-/

variable {κ ν μ : Type} [DecidableEq κ]

/-- The value of a key. -/
def find? (table : List (κ × ν)) (key : κ) : Option ν :=
  (table.find? fun entry => entry.1 = key).map Prod.snd

/-- A key with a value: in place when it is present, and at the end if not. -/
def put (table : List (κ × ν)) (key : κ) (value : ν) : List (κ × ν) :=
  if key ∈ table.map Prod.fst then
    table.map (JsMap.replace key value)
  else
    table ++ [(key, value)]

/-- A table without a key. -/
def remove (table : List (κ × ν)) (key : κ) : List (κ × ν) :=
  table.filter fun entry => !(entry.1 = key)

/-- There is nothing in an empty table. -/
@[simp] theorem find?_nil
    (key : κ) :
    find? ([] : List (κ × ν)) key = none :=
  rfl

/-- The first entry of a table has its own key. -/
theorem find?_cons
    (entry : κ × ν)
    (rest : List (κ × ν))
    (key : κ) :
    find? (entry :: rest) key =
      if entry.1 = key then some entry.2 else find? rest key := by
  by_cases same : entry.1 = key <;>
    simp [find?, same]

/-- A key without an entry has no value. -/
theorem find?_eq_none
    {table : List (κ × ν)}
    {key : κ} :
    find? table key = none ↔ key ∉ table.map Prod.fst := by
  induction table with
  | nil =>
      simp
  | cons entry rest inductionHypothesis =>
      rw [find?_cons, List.map_cons, List.mem_cons, not_or]
      split_ifs with same
      · simp [same]
      · rw [inductionHypothesis]
        exact (and_iff_right fun isKey => same isKey.symm).symm

/-- A value that is found is in an entry. -/
theorem mem_of_find?
    {table : List (κ × ν)}
    {key : κ}
    {value : ν}
    (found : find? table key = some value) :
    (key, value) ∈ table := by
  obtain ⟨entry, isFound, rfl⟩ := Option.map_eq_some_iff.mp found
  have same := List.find?_some isFound
  simp only [decide_eq_true_eq] at same
  subst same
  exact List.mem_of_find?_eq_some isFound

/-- The entries of a map after setting a key. -/
theorem entries_set
    (map : JsMap κ ν)
    (key : κ)
    (value : ν) :
    (map.set key value).entries = put map.entries key value := by
  by_cases present : key ∈ map.keys
  · rw [JsMap.entries_set_of_mem present]
    exact (if_pos present).symm
  · rw [JsMap.entries_set_of_not_mem present]
    exact (if_neg present).symm

/-- The value of a key is the one in the entries of a map. -/
theorem get?_eq_find?
    (map : JsMap κ ν)
    (key : κ) :
    map.get? key = find? map.entries key :=
  rfl

/-- Writing a key keeps the keys, and adds it when it is new. -/
theorem keys_put
    (table : List (κ × ν))
    (key : κ)
    (value : ν) :
    (put table key value).map Prod.fst =
      if key ∈ table.map Prod.fst then
        table.map Prod.fst
      else
        table.map Prod.fst ++ [key] := by
  unfold put
  split_ifs with present
  · simp [Function.comp_def]
  · simp

/-- Writing a key keeps the keys distinct. -/
theorem nodup_put
    {table : List (κ × ν)}
    (distinct : (table.map Prod.fst).Nodup)
    (key : κ)
    (value : ν) :
    ((put table key value).map Prod.fst).Nodup := by
  rw [keys_put]
  split_ifs with present
  · exact distinct
  · rw [List.nodup_append]
    refine ⟨distinct, List.nodup_singleton _, ?_⟩
    intro other member added isAdded same
    rw [List.mem_singleton] at isAdded
    exact present (isAdded ▸ same ▸ member)

/-- What is found after writing a key. -/
theorem find?_put
    (table : List (κ × ν))
    (key other : κ)
    (value : ν) :
    find? (put table key value) other =
      if other = key then some value else find? table other := by
  unfold put
  split_ifs with present same same
  · subst same
    induction table with
    | nil =>
        simp at present
    | cons entry rest inductionHypothesis =>
        rw [List.map_cons, find?_cons, JsMap.replace_fst]
        split_ifs with isKey
        · simp [JsMap.replace, isKey]
        · refine inductionHypothesis ?_
          rcases List.mem_cons.mp present with isFirst | later
          · exact absurd isFirst.symm isKey
          · exact later
  · clear present
    induction table with
    | nil =>
        rfl
    | cons entry rest inductionHypothesis =>
        rw [List.map_cons, find?_cons, find?_cons, JsMap.replace_fst,
          inductionHypothesis]
        by_cases isKey : entry.1 = key
        · have different : ¬ entry.1 = other :=
            fun isOther => same (isOther.symm.trans isKey)
          rw [if_neg different, if_neg different]
        · simp [JsMap.replace, isKey]
  · subst same
    induction table with
    | nil =>
        simp [find?_cons]
    | cons entry rest inductionHypothesis =>
        rw [List.map_cons, List.mem_cons, not_or] at present
        rw [List.cons_append, find?_cons,
          if_neg fun isKey => present.1 isKey.symm]
        exact inductionHypothesis present.2
  · clear present
    induction table with
    | nil =>
        simp [find?_cons, Ne.symm same]
    | cons entry rest inductionHypothesis =>
        rw [List.cons_append, find?_cons, find?_cons, inductionHypothesis]

/-- Writing a key twice is writing it once. -/
theorem put_put
    (table : List (κ × ν))
    (key : κ)
    (first second : ν) :
    put (put table key first) key second = put table key second := by
  have present : key ∈ (put table key first).map Prod.fst := by
    rw [keys_put]
    split_ifs with member
    · exact member
    · simp
  have twice (entry : κ × ν) :
      JsMap.replace key second (JsMap.replace key first entry) =
        JsMap.replace key second entry := by
    by_cases same : entry.1 = key <;>
      simp [JsMap.replace, same]
  refine (if_pos present).trans ?_
  unfold put
  split_ifs with member
  · simp [List.map_map, Function.comp_def, twice]
  · have others : ∀ entry ∈ table, JsMap.replace key second entry = entry := by
      intro entry inTable
      have different : ¬ entry.1 = key :=
        fun same => member (same ▸ List.mem_map_of_mem inTable)
      simp [JsMap.replace, different]
    simp [List.map_congr_left others, JsMap.replace]

/-- Writing the value that a key has changes nothing. -/
theorem put_self
    {table : List (κ × ν)}
    (distinct : (table.map Prod.fst).Nodup)
    {key : κ}
    {value : ν}
    (found : find? table key = some value) :
    put table key value = table := by
  have member := mem_of_find? found
  have present : key ∈ table.map Prod.fst := List.mem_map_of_mem member
  unfold put
  rw [if_pos present]
  refine (List.map_congr_left fun entry inTable => ?_).trans (List.map_id _)
  unfold JsMap.replace
  split_ifs with same
  · exact List.inj_on_of_nodup_map distinct member inTable same.symm
  · rfl

/-- A new key is written at the end. -/
theorem put_of_find?_eq_none
    {table : List (κ × ν)}
    {key : κ}
    (absent : find? table key = none)
    (value : ν) :
    put table key value = table ++ [(key, value)] :=
  if_neg (find?_eq_none.mp absent)

/-- A table of which every value is seen through a function. -/
def mapValues (view : ν → μ) (table : List (κ × ν)) : List (κ × μ) :=
  table.map fun entry => (entry.1, view entry.2)

omit [DecidableEq κ] in
/-- Looking at the values keeps the keys. -/
@[simp] theorem keys_mapValues
    (view : ν → μ)
    (table : List (κ × ν)) :
    (mapValues view table).map Prod.fst = table.map Prod.fst := by
  simp [mapValues, Function.comp_def]

/-- What is found among seen values. -/
theorem find?_mapValues
    (view : ν → μ)
    (table : List (κ × ν))
    (key : κ) :
    find? (mapValues view table) key = (find? table key).map view := by
  induction table with
  | nil =>
      rfl
  | cons entry rest inductionHypothesis =>
      change find? ((entry.1, view entry.2) :: mapValues view rest) key = _
      rw [find?_cons, find?_cons, inductionHypothesis]
      split_ifs <;> rfl

/-- Writing a key and then looking at the values. -/
theorem mapValues_put
    (view : ν → μ)
    (table : List (κ × ν))
    (key : κ)
    (value : ν) :
    mapValues view (put table key value) =
      put (mapValues view table) key (view value) := by
  have inPlace (entry : κ × ν) :
      ((JsMap.replace key value entry).1,
          view (JsMap.replace key value entry).2) =
        JsMap.replace key (view value) (entry.1, view entry.2) := by
    by_cases same : entry.1 = key <;>
      simp [JsMap.replace, same]
  unfold put
  rw [keys_mapValues]
  split_ifs with present
  · simp only [mapValues, List.map_map, Function.comp_def, inPlace]
  · simp [mapValues]

/-!
## Tables of tables
-/

/-- The value of a key in the table of another key. -/
def findIn? (table : List (κ × List (κ × ν))) (outer inner : κ) : Option ν :=
  (find? table outer).bind fun inside => find? inside inner

/-- A value in the table of a key, which is new if there is none yet. -/
def putIn
    (table : List (κ × List (κ × ν)))
    (outer inner : κ)
    (value : ν) : List (κ × List (κ × ν)) :=
  put table outer (put ((find? table outer).getD []) inner value)

/-- The entries of all tables, each with the key of its table. -/
def flatten (table : List (κ × List (κ × ν))) : List (κ × κ × ν) :=
  table.flatMap fun entry => entry.2.map fun inside => (entry.1, inside)

/-- The table of some entries, put one after the other. -/
def ofFlat (entries : List (κ × κ × ν)) : List (κ × List (κ × ν)) :=
  entries.foldl
    (fun table entry => putIn table entry.1 entry.2.1 entry.2.2) []

/-- Distinct keys on both levels, and no table without entries. -/
structure Proper (table : List (κ × List (κ × ν))) : Prop where
  distinct : (table.map Prod.fst).Nodup
  nonempty : ∀ entry ∈ table, entry.2 ≠ []
  inside : ∀ entry ∈ table, (entry.2.map Prod.fst).Nodup

section Nested

variable
  {table : List (κ × List (κ × ν))}
  {outer inner : κ}

omit [DecidableEq κ] in
/-- The empty table is proper. -/
theorem proper_nil : Proper ([] : List (κ × List (κ × ν))) where
  distinct := List.nodup_nil
  nonempty := by simp
  inside := by simp

/-- What is found after putting a value. -/
theorem findIn?_putIn
    (table : List (κ × List (κ × ν)))
    (outer inner otherOuter otherInner : κ)
    (value : ν) :
    findIn? (putIn table outer inner value) otherOuter otherInner =
      if otherOuter = outer ∧ otherInner = inner then
        some value
      else
        findIn? table otherOuter otherInner := by
  unfold findIn? putIn
  rw [find?_put]
  by_cases sameOuter : otherOuter = outer
  · subst sameOuter
    rw [if_pos rfl, Option.bind_some, find?_put]
    by_cases sameInner : otherInner = inner
    · simp [sameInner]
    · rw [if_neg sameInner, if_neg fun same => sameInner same.2]
      cases find? table otherOuter <;> rfl
  · rw [if_neg sameOuter, if_neg fun same => sameOuter same.1]

/-- Putting a value twice is putting it once. -/
theorem putIn_putIn
    (table : List (κ × List (κ × ν)))
    (outer inner : κ)
    (first second : ν) :
    putIn (putIn table outer inner first) outer inner second =
      putIn table outer inner second := by
  unfold putIn
  rw [find?_put, if_pos rfl, Option.getD_some, put_put, put_put]

/-- Putting the value that is there changes nothing. -/
theorem putIn_self
    (proper : Proper table)
    {value : ν}
    (found : findIn? table outer inner = some value) :
    putIn table outer inner value = table := by
  rcases Option.bind_eq_some_iff.mp found with ⟨inside, isInside, isValue⟩
  have distinct := proper.inside _ (mem_of_find? isInside)
  unfold putIn
  rw [isInside, Option.getD_some, put_self distinct isValue]
  exact put_self proper.distinct isInside

/-- A table is not empty after a value was put. -/
theorem put_ne_nil
    (table : List (κ × ν))
    (key : κ)
    (value : ν) :
    put table key value ≠ [] := by
  intro isEmpty
  have isFound := find?_put table key key value
  rw [isEmpty, if_pos rfl] at isFound
  cases isFound

/-- What is put for a key is the only new entry. -/
theorem mem_put
    {entries : List (κ × ν)}
    {key : κ}
    {value : ν}
    {entry : κ × ν}
    (member : entry ∈ put entries key value) :
    entry = (key, value) ∨ entry ∈ entries := by
  unfold put at member
  split_ifs at member
  · rcases List.mem_map.mp member with ⟨old, inEntries, rfl⟩
    unfold JsMap.replace
    split_ifs
    · exact .inl rfl
    · exact .inr inEntries
  · rcases List.mem_append.mp member with old | new
    · exact .inr old
    · exact .inl (List.mem_singleton.mp new)

/-- Putting a value keeps a table proper. -/
theorem Proper.putIn
    (proper : Proper table)
    (outer inner : κ)
    (value : ν) :
    Proper (putIn table outer inner value) where
  distinct := nodup_put proper.distinct _ _
  nonempty entry member := by
    rcases mem_put member with rfl | old
    · exact put_ne_nil _ _ _
    · exact proper.nonempty entry old
  inside entry member := by
    rcases mem_put member with rfl | old
    · refine nodup_put ?_ _ _
      cases found : find? table outer with
      | none =>
          exact List.nodup_nil
      | some inside =>
          exact proper.inside _ (mem_of_find? found)
    · exact proper.inside entry old

/-- A table that is put entry by entry behind others. -/
theorem foldl_putIn_inside
    {front : List (κ × List (κ × ν))}
    {key : κ}
    (absent : key ∉ front.map Prod.fst)
    {done rest : List (κ × ν)}
    (distinct : ((done ++ rest).map Prod.fst).Nodup)
    (nonempty : done ≠ []) :
    (rest.map fun inside => (key, inside)).foldl
        (fun table entry => putIn table entry.1 entry.2.1 entry.2.2)
        (front ++ [(key, done)]) =
      front ++ [(key, done ++ rest)] := by
  induction rest generalizing done with
  | nil =>
      simp
  | cons entry rest inductionHypothesis =>
      have found : find? (front ++ [(key, done)]) key = some done := by
        have isPut := find?_put front key key done
        rw [put_of_find?_eq_none (find?_eq_none.mpr absent), if_pos rfl]
          at isPut
        exact isPut
      have isNew : find? done entry.1 = none := by
        rw [find?_eq_none]
        rw [List.map_append, List.map_cons] at distinct
        intro isOld
        exact (List.nodup_append.mp distinct).2.2 _ isOld _
          List.mem_cons_self rfl
      have next :
          putIn (front ++ [(key, done)]) key entry.1 entry.2 =
            front ++ [(key, done ++ [entry])] := by
        unfold putIn
        rw [found, Option.getD_some, put_of_find?_eq_none isNew,
          ← put_of_find?_eq_none (find?_eq_none.mpr absent) done, put_put,
          put_of_find?_eq_none (find?_eq_none.mpr absent)]
      rw [List.map_cons, List.foldl_cons, next,
        inductionHypothesis (by simpa using distinct) (by simp)]
      simp

/-- A proper table is the one of its entries. -/
theorem ofFlat_flatten
    (proper : Proper table) :
    ofFlat (flatten table) = table := by
  have behind :
      ∀ front rest : List (κ × List (κ × ν)), Proper (front ++ rest) →
        (flatten rest).foldl
            (fun table entry => putIn table entry.1 entry.2.1 entry.2.2)
            front =
          front ++ rest := by
    intro front rest
    induction rest generalizing front with
    | nil =>
        intro _
        simp [flatten]
    | cons first rest inductionHypothesis =>
        intro allProper
        rcases first with ⟨key, inside⟩
        have member : (key, inside) ∈ front ++ (key, inside) :: rest := by
          simp
        have isDistinct := allProper.inside _ member
        have isNonempty := allProper.nonempty _ member
        have absent : key ∉ front.map Prod.fst := by
          have keys := allProper.distinct
          rw [List.map_append, List.map_cons] at keys
          intro isOld
          exact (List.nodup_append.mp keys).2.2 _ isOld _
            List.mem_cons_self rfl
        have whole :
            (inside.map fun value => (key, value)).foldl
                (fun table entry => putIn table entry.1 entry.2.1 entry.2.2)
                front =
              front ++ [(key, inside)] := by
          cases inside with
          | nil =>
              exact absurd rfl isNonempty
          | cons entry entries =>
              have started :
                  putIn front key entry.1 entry.2 =
                    front ++ [(key, [entry])] := by
                unfold putIn
                rw [find?_eq_none.mpr absent, Option.getD_none,
                  put_of_find?_eq_none (find?_eq_none.mpr absent)]
                rfl
              rw [List.map_cons, List.foldl_cons, started]
              have later : ([entry] ++ entries).map Prod.fst |>.Nodup :=
                isDistinct
              exact foldl_putIn_inside absent later (by simp)
        have split :
            flatten ((key, inside) :: rest) =
              (inside.map fun value => (key, value)) ++ flatten rest := by
          simp [flatten]
        rw [split, List.foldl_append, whole,
          inductionHypothesis (front ++ [(key, inside)])
            (by simpa using allProper)]
        simp
  exact behind [] table proper

end Nested

end SinterDb.OrderedTable
