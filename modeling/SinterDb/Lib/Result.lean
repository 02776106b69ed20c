import SinterDb.Lib.Bytes

namespace SinterDb.Result

/-!
# Computations that may fail

How a sequence of fallible steps succeeds and fails, step by step.
-/

variable {ε α β : Type}

/-- A step that succeeds hands its result on. -/
@[simp] theorem ok_bind
    (value : α)
    (next : α → Except ε β) :
    (Except.ok value >>= next) = next value :=
  rfl

/-- A step that fails ends the sequence. -/
@[simp] theorem error_bind
    (error : ε)
    (next : α → Except ε β) :
    (Except.error error >>= next) = .error error :=
  rfl

/-- A result that is not an error has a value. -/
theorem isOk_iff_exists
    {result : Except ε α} :
    result.isOk = true ↔ ∃ value, result = .ok value := by
  cases result <;> simp [Except.isOk, Except.toBool]

/-- A sequence succeeds when both of its steps do. -/
theorem bind_eq_ok
    {first : Except ε α}
    {next : α → Except ε β}
    {result : β} :
    first >>= next = .ok result ↔
      ∃ value, first = .ok value ∧ next value = .ok result := by
  cases first with
  | error error =>
      simp
  | ok value =>
      simp

/-- A check that did not fail did not apply. -/
theorem else_of_ok
    {condition : Prop}
    [Decidable condition]
    {error : ε}
    {otherwise : Except ε α}
    {value : α}
    (succeeds : (if condition then .error error else otherwise) = .ok value) :
    ¬ condition ∧ otherwise = .ok value := by
  by_cases applies : condition
  · rw [if_pos applies] at succeeds
    cases succeeds
  · rw [if_neg applies] at succeeds
    exact ⟨applies, succeeds⟩

/-- Mapping over a list succeeds when every item does. -/
theorem mapM_eq_ok
    {step : α → Except ε β}
    {result : α → β}
    {items : List α}
    (steps : ∀ item ∈ items, step item = .ok (result item)) :
    items.mapM step = .ok (items.map result) := by
  induction items with
  | nil =>
      rfl
  | cons item rest inductionHypothesis =>
      rw [List.forall_mem_cons] at steps
      rw [List.mapM_cons, steps.1, inductionHypothesis steps.2]
      rfl

/-- Mapping over a list gives the results of the items, in order. -/
theorem forall₂_of_mapM
    {step : α → Except ε β}
    {items : List α}
    {results : List β}
    (maps : items.mapM step = .ok results) :
    List.Forall₂ (fun item result => step item = .ok result)
      items results := by
  induction items generalizing results with
  | nil =>
      obtain rfl := Except.ok.inj maps
      exact .nil
  | cons item rest inductionHypothesis =>
      rw [List.mapM_cons] at maps
      obtain ⟨first, isFirst, maps⟩ := bind_eq_ok.mp maps
      obtain ⟨later, isLater, same⟩ := bind_eq_ok.mp maps
      obtain rfl := Except.ok.inj same
      exact .cons isFirst (inductionHypothesis isLater)

/-- A step that leaves every item alone is one that leaves the list alone. -/
theorem mapM_eq_self_iff
    {step : α → Except ε α}
    {items : List α} :
    items.mapM step = .ok items ↔ ∀ item ∈ items, step item = .ok item := by
  constructor
  · intro maps
    have steps := forall₂_of_mapM maps
    intro item member
    exact (List.forall₂_same.mp steps) item member
  · intro steps
    have maps := mapM_eq_ok steps
    rwa [List.map_id'] at maps

end SinterDb.Result
