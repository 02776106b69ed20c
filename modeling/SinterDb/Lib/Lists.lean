import SinterDb.Lib.Bytes

namespace SinterDb.Lists

/-!
# Lists

Facts about pairwise related lists.
-/

variable {α β : Type}

/-- Every item on the right is related to one on the left. -/
theorem exists_of_mem_right
    {related : α → β → Prop}
    {left : List α}
    {right : List β}
    (pairs : List.Forall₂ related left right)
    {item : β}
    (member : item ∈ right) :
    ∃ other ∈ left, related other item := by
  induction pairs with
  | nil =>
      simp at member
  | cons head tail inductionHypothesis =>
      rcases List.mem_cons.mp member with isHead | inTail
      · exact ⟨_, by simp, isHead ▸ head⟩
      · obtain ⟨other, inLeft, holds⟩ := inductionHypothesis inTail
        exact ⟨other, by simp [inLeft], holds⟩

/-- Every item on the left is related to one on the right. -/
theorem exists_of_mem_left
    {related : α → β → Prop}
    {left : List α}
    {right : List β}
    (pairs : List.Forall₂ related left right)
    {item : α}
    (member : item ∈ left) :
    ∃ other ∈ right, related item other :=
  exists_of_mem_right (List.Forall₂.flip pairs) member

/-- A relation between lists may be weakened item by item. -/
theorem forall₂_imp_of_mem
    {related weaker : α → β → Prop}
    {left : List α}
    {right : List β}
    (pairs : List.Forall₂ related left right)
    (implies :
      ∀ item ∈ left, ∀ other, related item other → weaker item other) :
    List.Forall₂ weaker left right := by
  induction pairs with
  | nil =>
      exact .nil
  | cons head tail inductionHypothesis =>
      rw [List.forall_mem_cons] at implies
      exact .cons (implies.1 _ head) (inductionHypothesis implies.2)

/-- Inserting at a place of a list splits it there. -/
theorem insertIdx_eq_append
    {γ : Type}
    (items : List γ)
    (item : γ)
    {place : Nat}
    (inside : place ≤ items.length) :
    items.insertIdx place item = items.take place ++ item :: items.drop place := by
  induction place generalizing items with
  | zero =>
      simp
  | succ place inductionHypothesis =>
      cases items with
      | nil =>
          simp at inside
      | cons first rest =>
          simpa using inductionHypothesis rest (by simpa using inside)

/-- Item by item no longer makes a sum no larger. -/
theorem sum_le_of_forall₂
    {α β : Type}
    {left : α → Nat}
    {right : β → Nat}
    {lefts : List α}
    {rights : List β}
    (pairs : List.Forall₂ (fun a b => right b ≤ left a) lefts rights) :
    (rights.map right).sum ≤ (lefts.map left).sum := by
  induction pairs with
  | nil =>
      exact Nat.le_refl _
  | cons head tail inductionHypothesis =>
      simp only [List.map_cons, List.sum_cons]
      omega

/-- Two lists of pairs with the same keys have the same images, when every
pair on the left has one with its key and its image on the right. -/
theorem perm_map_of_keys
    {κ ν γ : Type}
    {left right : List (κ × ν)}
    (image : κ × ν → γ)
    (leftDistinct : (left.map Prod.fst).Nodup)
    (keys : (left.map Prod.fst).Perm (right.map Prod.fst))
    (values :
      ∀ pair ∈ left, ∃ other,
        (pair.1, other) ∈ right ∧ image pair = image (pair.1, other)) :
    (left.map image).Perm (right.map image) := by
  -- The keys with their images are the same on both sides.
  have subset :
      (left.map fun pair => (pair.1, image pair)) ⊆
        right.map fun pair => (pair.1, image pair) := by
    intro entry member
    obtain ⟨pair, inLeft, rfl⟩ := List.mem_map.mp member
    obtain ⟨other, inRight, same⟩ := values pair inLeft
    exact List.mem_map.mpr ⟨(pair.1, other), inRight, by rw [same]⟩
  have distinct : (left.map fun pair => (pair.1, image pair)).Nodup := by
    apply List.Nodup.of_map Prod.fst
    simpa [List.map_map, Function.comp_def] using leftDistinct
  have lengths := keys.length_eq
  have reordered :=
    (List.subperm_of_subset distinct subset).perm_of_length_le
      (by simpa using lengths.ge)
  simpa [List.map_map, Function.comp_def] using reordered.map Prod.snd

end SinterDb.Lists
