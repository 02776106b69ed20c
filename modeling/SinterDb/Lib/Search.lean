import SinterDb.Lib.Bytes

namespace SinterDb.Search

/-!
# Binary search

The place in a list at which a test stops holding, found by halving.  The test
must hold on a front part of the list and nowhere behind it.
-/

variable {α : Type}

/--
The loop of a binary search between two places.  It at least halves the range
in every round, so the length of the list bounds the rounds.
-/
def boundLoop
    (goesRight : α → Bool)
    (entries : List α) :
    Nat → Nat → Nat → Nat
  | 0, low, _ => low
  | rounds + 1, low, high =>
      if low < high then
        let middle := (low + high) / 2
        if (entries[middle]?).any goesRight then
          boundLoop goesRight entries rounds (middle + 1) high
        else
          boundLoop goesRight entries rounds low middle
      else
        low

/-- The place behind the last entry for which the search goes to the right. -/
def bound (goesRight : α → Bool) (entries : List α) : Nat :=
  boundLoop goesRight entries entries.length 0 entries.length

/-- When the test holds for an entry, it holds for all entries before it. -/
def FrontPart (goesRight : α → Bool) (entries : List α) : Prop :=
  entries.Pairwise fun left right =>
    goesRight right = true → goesRight left = true

/-- The loop does not go beyond its upper place. -/
theorem boundLoop_le
    (goesRight : α → Bool)
    (entries : List α)
    {rounds low high : Nat}
    (ordered : low ≤ high)
    (inside : high ≤ entries.length) :
    boundLoop goesRight entries rounds low high ≤ entries.length := by
  induction rounds generalizing low high with
  | zero =>
      exact Nat.le_trans ordered inside
  | succ rounds inductionHypothesis =>
      unfold boundLoop
      simp only
      split_ifs
      · exact inductionHypothesis (by omega) inside
      · exact inductionHypothesis (by omega) (by omega)
      · omega

/-- The loop ends between its places, at the end of the front part. -/
theorem boundLoop_spec
    {goesRight : α → Bool}
    {entries : List α}
    (front : FrontPart goesRight entries)
    {rounds low high : Nat}
    (enough : high - low ≤ rounds)
    (ordered : low ≤ high)
    (inside : high ≤ entries.length)
    (before :
      ∀ position entry, position < low →
        entries[position]? = some entry → goesRight entry = true)
    (behind :
      ∀ position entry, high ≤ position →
        entries[position]? = some entry → goesRight entry = false) :
    let result := boundLoop goesRight entries rounds low high
    (∀ position entry, position < result →
        entries[position]? = some entry → goesRight entry = true) ∧
      ∀ position entry, result ≤ position →
        entries[position]? = some entry → goesRight entry = false := by
  -- A test at one place decides all places on one side of it.
  have earlier :
      ∀ (first second : Nat) left right, first < second →
        entries[first]? = some left → entries[second]? = some right →
        goesRight right = true → goesRight left = true := by
    intro first second left right less atFirst atSecond
    obtain ⟨firstInside, rfl⟩ := List.getElem?_eq_some_iff.mp atFirst
    obtain ⟨secondInside, rfl⟩ := List.getElem?_eq_some_iff.mp atSecond
    exact List.pairwise_iff_getElem.mp front first second _ _ less
  induction rounds generalizing low high with
  | zero =>
      have same : high = low := by omega
      subst same
      exact ⟨before, behind⟩
  | succ rounds inductionHypothesis =>
      unfold boundLoop
      split_ifs with unfinished
      · have middleInside : (low + high) / 2 < entries.length := by omega
        have atMiddle :=
          List.getElem?_eq_getElem middleInside
        simp only [atMiddle, Option.any_some]
        split_ifs with right
        · refine inductionHypothesis (by omega) (by omega) inside ?_ behind
          intro position entry less found
          rcases Nat.lt_succ_iff_lt_or_eq.mp less with less | rfl
          · exact earlier _ _ _ _ less found atMiddle right
          · obtain rfl : entries[(low + high) / 2] = entry :=
              Option.some.inj (atMiddle.symm.trans found)
            exact right
        · refine inductionHypothesis (by omega) (by omega) (by omega) before ?_
          intro position entry atLeast found
          rcases Nat.lt_or_eq_of_le atLeast with less | rfl
          · by_contra goes
            exact right (earlier _ _ _ _ less atMiddle found (by simpa using goes))
          · obtain rfl : entries[(low + high) / 2] = entry :=
              Option.some.inj (atMiddle.symm.trans found)
            simpa using right
      · have same : high = low := by omega
        subst same
        exact ⟨before, behind⟩

/-- The search splits the list into the front part and the rest. -/
theorem bound_spec
    {goesRight : α → Bool}
    {entries : List α}
    (front : FrontPart goesRight entries) :
    (∀ entry ∈ entries.take (bound goesRight entries),
        goesRight entry = true) ∧
      ∀ entry ∈ entries.drop (bound goesRight entries),
        goesRight entry = false := by
  obtain ⟨before, behind⟩ :=
    boundLoop_spec front (Nat.sub_le entries.length 0) (Nat.zero_le _)
      (Nat.le_refl _)
      (fun position entry negative => absurd negative (Nat.not_lt_zero _))
      (fun position entry outside found => by
        rw [List.getElem?_eq_none outside] at found
        cases found)
  constructor
  · intro entry member
    obtain ⟨position, found⟩ := List.mem_iff_getElem?.mp member
    rw [List.getElem?_take] at found
    split_ifs at found with less
    exact before position entry less found
  · intro entry member
    obtain ⟨position, found⟩ := List.mem_iff_getElem?.mp member
    rw [List.getElem?_drop] at found
    exact behind _ entry (Nat.le_add_right _ _) found

end SinterDb.Search
