import Mathlib.Data.List.Sort
import Mathlib.Order.Compare
import Mathlib.Data.Prod.Lex

namespace SinterDb

/-!
# Stable sorting

A comparison that is a total preorder has exactly one stable sort of a list,
and insertion sort is it.
-/

/-- A comparison that is antisymmetric in its sign and transitive. -/
structure TotalPreorder {α : Type} (compare : α → α → Ordering) : Prop where
  swap : ∀ left right, compare right left = (compare left right).swap
  trans :
    ∀ first second third,
      compare first second ≠ .gt → compare second third ≠ .gt →
        compare first third ≠ .gt

/-- One of two numbered items comes first, by its number in a tie. -/
def Precedes
    {α : Type}
    (compare : α → α → Ordering)
    (left right : α × Nat) : Prop :=
  compare left.1 right.1 = .lt ∨
    compare left.1 right.1 = .eq ∧ left.2 < right.2

/-- A permutation in order, with ties in the order of the list. -/
def StablySorted
    {α : Type}
    (compare : α → α → Ordering)
    (items result : List α) : Prop :=
  ∃ numbered : List (α × Nat),
    numbered.Perm items.zipIdx ∧
      numbered.Pairwise (Precedes compare) ∧
      numbered.map Prod.fst = result

section Comparison

variable
  {α β : Type}
  [LinearOrder β]
  {compare : α → α → Ordering}

/-- Items that compare like elements of a linear order. -/
theorem totalPreorder_of_place
    {place : α → β}
    (compares :
      ∀ left right, compare left right = cmp (place left) (place right)) :
    TotalPreorder compare := by
  constructor
  · intro left right
    rw [compares, compares, cmp_swap]
  · intro first second third before behind
    rw [compares, ne_eq, cmp_eq_gt_iff, not_lt] at *
    exact le_trans before behind

/-- Pairs with equal first parts compare by their second parts. -/
theorem cmp_toLex_of_eq
    {γ : Type}
    [LinearOrder γ]
    (first : β)
    (left right : γ) :
    cmp (toLex (first, left)) (toLex (first, right)) = cmp left right := by
  rcases lt_trichotomy left right with less | rfl | more
  · rw [(cmp_eq_lt_iff left right).mpr less, cmp_eq_lt_iff]
    exact Prod.Lex.toLex_lt_toLex.mpr (.inr ⟨rfl, less⟩)
  · rw [cmp_self_eq_eq, cmp_self_eq_eq]
  · rw [(cmp_eq_gt_iff left right).mpr more, cmp_eq_gt_iff]
    exact Prod.Lex.toLex_lt_toLex.mpr (.inr ⟨rfl, more⟩)

/-- Pairs with different first parts compare by these. -/
theorem cmp_toLex_of_ne
    {γ : Type}
    [LinearOrder γ]
    {first second : β}
    (different : first ≠ second)
    (left right : γ) :
    cmp (toLex (first, left)) (toLex (second, right)) =
      cmp first second := by
  rcases lt_trichotomy first second with less | same | more
  · rw [(cmp_eq_lt_iff first second).mpr less, cmp_eq_lt_iff]
    exact Prod.Lex.toLex_lt_toLex.mpr (.inl less)
  · exact absurd same different
  · rw [(cmp_eq_gt_iff first second).mpr more, cmp_eq_gt_iff]
    exact Prod.Lex.toLex_lt_toLex.mpr (.inl more)

end Comparison

section Sorting

variable
  {α : Type}
  {compare : α → α → Ordering}

/-- Like `Precedes`, and every item with itself. -/
def NotBehind
    (compare : α → α → Ordering)
    (left right : α × Nat) : Prop :=
  compare left.1 right.1 = .lt ∨
    compare left.1 right.1 = .eq ∧ left.2 ≤ right.2

instance : DecidableRel (NotBehind compare) := fun left right =>
  inferInstanceAs
    (Decidable
      (compare left.1 right.1 = .lt ∨
        compare left.1 right.1 = .eq ∧ left.2 ≤ right.2))

/-- Of two numbered items one is not behind the other. -/
theorem TotalPreorder.notBehind_total
    (order : TotalPreorder compare)
    (left right : α × Nat) :
    NotBehind compare left right ∨ NotBehind compare right left := by
  unfold NotBehind
  rw [order.swap left.1 right.1]
  cases compare left.1 right.1 with
  | lt =>
      exact .inl (.inl rfl)
  | eq =>
      rcases Nat.le_total left.2 right.2 with less | more
      · exact .inl (.inr ⟨rfl, less⟩)
      · exact .inr (.inr ⟨rfl, more⟩)
  | gt =>
      exact .inr (.inl rfl)

/-- Items that tie with the same item tie. -/
theorem TotalPreorder.lt_of_lt_of_ne
    (order : TotalPreorder compare)
    {first second third : α}
    (before : compare first second = .lt)
    (behind : compare second third ≠ .gt) :
    compare first third = .lt := by
  have notMore :=
    order.trans first second third (by rw [before]; nofun) behind
  cases compares : compare first third with
  | lt =>
      rfl
  | eq =>
      have back : compare third first ≠ .gt := by
        rw [order.swap first third, compares]
        nofun
      have closes := order.trans second third first behind back
      rw [order.swap first second, before] at closes
      exact absurd rfl closes
  | gt =>
      exact absurd compares notMore

/-- What ties with an item that comes first comes first. -/
theorem TotalPreorder.lt_of_eq_of_lt
    (order : TotalPreorder compare)
    {first second third : α}
    (tie : compare first second = .eq)
    (before : compare second third = .lt) :
    compare first third = .lt := by
  have notMore :=
    order.trans first second third (by rw [tie]; nofun) (by rw [before]; nofun)
  cases compares : compare first third with
  | lt =>
      rfl
  | eq =>
      have back : compare third first ≠ .gt := by
        rw [order.swap first third, compares]
        nofun
      have closes :=
        order.trans third first second back (by rw [tie]; nofun)
      rw [order.swap second third, before] at closes
      exact absurd rfl closes
  | gt =>
      exact absurd compares notMore

/-- Ties are transitive. -/
theorem TotalPreorder.eq_trans
    (order : TotalPreorder compare)
    {first second third : α}
    (tie : compare first second = .eq)
    (further : compare second third = .eq) :
    compare first third = .eq := by
  have notMore :=
    order.trans first second third (by rw [tie]; nofun) (by rw [further]; nofun)
  have notLess :=
    order.trans third second first
      (by rw [order.swap second third, further]; nofun)
      (by rw [order.swap first second, tie]; nofun)
  rw [order.swap first third] at notLess
  cases compares : compare first third with
  | lt =>
      rw [compares] at notLess
      exact absurd rfl notLess
  | eq =>
      rfl
  | gt =>
      exact absurd compares notMore

/-- Not being behind is transitive. -/
theorem TotalPreorder.notBehind_trans
    (order : TotalPreorder compare)
    {first second third : α × Nat}
    (before : NotBehind compare first second)
    (behind : NotBehind compare second third) :
    NotBehind compare first third := by
  rcases before with less | ⟨tie, low⟩
  · refine .inl (order.lt_of_lt_of_ne less ?_)
    rcases behind with less | ⟨tie, -⟩
    · rw [less]
      nofun
    · rw [tie]
      nofun
  · rcases behind with less | ⟨further, high⟩
    · exact .inl (order.lt_of_eq_of_lt tie less)
    · exact .inr ⟨order.eq_trans tie further, low.trans high⟩

/-- Inserting a numbered item in front of higher ones inserts the item. -/
theorem map_orderedInsert_numbered
    {item : α × Nat}
    {numbered : List (α × Nat)}
    (lowest : ∀ other ∈ numbered, item.2 ≤ other.2) :
    (numbered.orderedInsert (NotBehind compare) item).map Prod.fst =
      (numbered.map Prod.fst).orderedInsert
        (fun left right => compare left right ≠ .gt) item.1 := by
  induction numbered with
  | nil =>
      rfl
  | cons first rest inductionHypothesis =>
      have low := lowest first List.mem_cons_self
      have agree :
          NotBehind compare item first ↔ compare item.1 first.1 ≠ .gt := by
        unfold NotBehind
        cases compare item.1 first.1 <;> simp [low]
      rw [List.orderedInsert_cons, List.map_cons, List.orderedInsert_cons]
      by_cases inFront : NotBehind compare item first
      · rw [if_pos inFront, if_pos (agree.mp inFront)]
        rfl
      · rw [if_neg inFront, if_neg (mt agree.mpr inFront), List.map_cons]
        congr 1
        exact inductionHypothesis fun other member =>
          lowest other (List.mem_cons_of_mem _ member)

/-- Sorting numbered items sorts the items. -/
theorem map_insertionSort_zipIdx
    (items : List α)
    (start : Nat) :
    ((items.zipIdx start).insertionSort (NotBehind compare)).map Prod.fst =
      items.insertionSort fun left right => compare left right ≠ .gt := by
  induction items generalizing start with
  | nil =>
      rfl
  | cons item rest inductionHypothesis =>
      rw [List.zipIdx_cons, List.insertionSort_cons, List.insertionSort_cons,
        map_orderedInsert_numbered, inductionHypothesis]
      intro other member
      rw [List.mem_insertionSort] at member
      exact Nat.le_of_succ_le (List.le_snd_of_mem_zipIdx member)

/-- The stable sort of a list is unique, and insertion sort is it. -/
theorem stablySorted_iff
    (order : TotalPreorder compare)
    {items result : List α} :
    StablySorted compare items result ↔
      result =
        items.insertionSort fun left right => compare left right ≠ .gt := by
  have total : Std.Total (NotBehind compare) :=
    ⟨order.notBehind_total⟩
  have transitive : IsTrans (α × Nat) (NotBehind compare) :=
    ⟨fun _ _ _ => order.notBehind_trans⟩
  have sorted :
      (items.zipIdx.insertionSort (NotBehind compare)).Pairwise
        (Precedes compare) := by
    have perm := items.zipIdx.perm_insertionSort (NotBehind compare)
    have distinct :
        ((items.zipIdx.insertionSort (NotBehind compare)).map
          Prod.snd).Nodup := by
      rw [(perm.map Prod.snd).nodup_iff, List.zipIdx_map_snd]
      exact List.nodup_range'
    have inOrder := List.pairwise_insertionSort (NotBehind compare) items.zipIdx
    refine (inOrder.and (List.pairwise_map.mp distinct)).imp ?_
    rintro left right ⟨less | ⟨tie, low⟩, different⟩
    · exact .inl less
    · exact .inr ⟨tie, Nat.lt_of_le_of_ne low different⟩
  constructor
  · rintro ⟨numbered, perm, inOrder, rfl⟩
    rw [← map_insertionSort_zipIdx items 0]
    congr 1
    refine List.Perm.eq_of_pairwise ?_ inOrder sorted
      (perm.trans (List.perm_insertionSort _ _).symm)
    rintro left right - - (less | ⟨tie, low⟩) (back | ⟨back, high⟩)
    · rw [order.swap left.1 right.1, less] at back
      cases back
    · rw [order.swap left.1 right.1, less] at back
      cases back
    · rw [order.swap left.1 right.1, tie] at back
      cases back
    · exact absurd low (Nat.lt_asymm high)
  · rintro rfl
    exact ⟨_, List.perm_insertionSort _ _, sorted,
      map_insertionSort_zipIdx items 0⟩

/-- A comparison of images. -/
theorem TotalPreorder.comap
    {β : Type}
    (order : TotalPreorder compare)
    (image : β → α) :
    TotalPreorder fun left right => compare (image left) (image right) :=
  ⟨fun _ _ => order.swap _ _, fun _ _ _ => order.trans _ _ _⟩

/-- A comparison the other way. -/
theorem TotalPreorder.swapped
    (order : TotalPreorder compare) :
    TotalPreorder fun left right => (compare left right).swap := by
  constructor
  · intro left right
    rw [order.swap left right]
  · intro first second third before behind
    rw [← order.swap] at *
    exact order.trans third second first behind before

/-- A comparison that another one refines in ties. -/
theorem TotalPreorder.then
    {further : α → α → Ordering}
    (order : TotalPreorder compare)
    (tieOrder : TotalPreorder further) :
    TotalPreorder fun left right =>
      (compare left right).then (further left right) := by
  constructor
  · intro left right
    rw [order.swap left right, tieOrder.swap left right, Ordering.swap_then]
  · intro first second third before behind
    have secondThird : compare second third ≠ .gt := by
      intro more
      rw [more] at behind
      exact behind rfl
    cases firstSecond : compare first second with
    | lt =>
        rw [order.lt_of_lt_of_ne firstSecond secondThird]
        nofun
    | eq =>
        rw [firstSecond] at before
        cases compares : compare second third with
        | lt =>
            rw [order.lt_of_eq_of_lt firstSecond compares]
            nofun
        | eq =>
            rw [compares] at behind
            rw [order.eq_trans firstSecond compares]
            exact tieOrder.trans first second third before behind
        | gt =>
            exact absurd compares secondThird
    | gt =>
        rw [firstSecond] at before
        exact absurd rfl before

end Sorting

end SinterDb
