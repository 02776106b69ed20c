import Mathlib.Data.List.Basic
import Mathlib.Data.List.Perm.Basic

namespace SinterDb.Commuting

/-!
# Steps that may fail, in any order

A list of steps gives the same outcome in every order when a step respects a
relation between states and any two of the steps can change places.
-/

variable {σ ι ε : Type}

/-- Two outcomes agree: both fail, or both end in related states. -/
def Agree (same : σ → σ → Prop) : Except ε σ → Except ε σ → Prop
  | .ok left, .ok right => same left right
  | .error _, .error _ => True
  | _, _ => False

namespace Agree

variable {same : σ → σ → Prop}

/-- An outcome agrees with itself. -/
theorem refl
    (reflexive : ∀ state, same state state)
    (outcome : Except ε σ) :
    Agree same outcome outcome := by
  cases outcome with
  | error _ =>
      trivial
  | ok state =>
      exact reflexive state

/-- Agreement does not depend on the sides. -/
theorem symm
    (symmetric : ∀ first second, same first second → same second first)
    {left right : Except ε σ}
    (agree : Agree same left right) :
    Agree same right left := by
  cases left <;> cases right <;>
    first
    | trivial
    | exact agree.elim
    | exact symmetric _ _ agree

/-- Agreement goes on from outcome to outcome. -/
theorem trans
    (transitive :
      ∀ first second third, same first second → same second third →
        same first third)
    {first second third : Except ε σ}
    (left : Agree same first second)
    (right : Agree same second third) :
    Agree same first third := by
  cases first <;> cases second <;> cases third <;>
    first
    | trivial
    | exact left.elim
    | exact right.elim
    | exact transitive _ _ _ left right

/-- Agreement of two outcomes and of what is done behind them. -/
theorem bind
    {left right : Except ε σ}
    {next other : σ → Except ε σ}
    (agree : Agree same left right)
    (later :
      ∀ first second, same first second →
        Agree same (next first) (other second)) :
    Agree same (left >>= next) (right >>= other) := by
  cases left <;> cases right <;>
    first
    | trivial
    | exact agree.elim
    | exact later _ _ agree

/-- Agreement of what is done behind one outcome. -/
theorem bind_left
    {α : Type}
    (outcome : Except ε α)
    {next other : α → Except ε σ}
    (later : ∀ value, Agree same (next value) (other value)) :
    Agree same (outcome >>= next) (outcome >>= other) := by
  cases outcome with
  | error _ =>
      trivial
  | ok value =>
      exact later value

end Agree

section

variable
  {same : σ → σ → Prop}
  {step : σ → ι → Except ε σ}

/-- Steps that respect a relation respect it one after the other. -/
theorem foldlM_agree
    (respects :
      ∀ item left right, same left right →
        Agree same (step left item) (step right item))
    (items : List ι)
    {left right : σ}
    (related : same left right) :
    Agree same (items.foldlM step left) (items.foldlM step right) := by
  induction items generalizing left right with
  | nil =>
      exact related
  | cons item items inductionHypothesis =>
      rw [List.foldlM_cons, List.foldlM_cons]
      refine (respects item left right related).bind ?_
      intro first second related
      exact inductionHypothesis related

/-- Steps of which any two can change places may come in any order. -/
theorem foldlM_perm
    (reflexive : ∀ state, same state state)
    (transitive :
      ∀ first second third, same first second → same second third →
        same first third)
    (respects :
      ∀ item left right, same left right →
        Agree same (step left item) (step right item))
    {apart : ι → ι → Prop}
    (symmetric : ∀ {first second}, apart first second → apart second first)
    (swap :
      ∀ first second state, apart first second →
        Agree same
          (step state first >>= fun next => step next second)
          (step state second >>= fun next => step next first))
    {items reordered : List ι}
    (perm : items.Perm reordered)
    (pairwise : items.Pairwise apart)
    (state : σ) :
    Agree same (items.foldlM step state) (reordered.foldlM step state) := by
  induction perm generalizing state with
  | nil =>
      exact reflexive state
  | cons item _ inductionHypothesis =>
      rw [List.foldlM_cons, List.foldlM_cons]
      refine (Agree.refl reflexive (step state item)).bind ?_
      intro first second related
      exact (inductionHypothesis (List.pairwise_cons.mp pairwise).2 first).trans
        transitive (foldlM_agree respects _ related)
  | swap first second items =>
      have isApart : apart second first :=
        (List.pairwise_cons.mp pairwise).1 first List.mem_cons_self
      have changed := swap second first state isApart
      simp only [List.foldlM_cons, ← bind_assoc]
      refine changed.bind ?_
      intro left right related
      exact foldlM_agree respects _ related
  | trans earlier _ first second =>
      exact (first pairwise state).trans transitive
        (second ((earlier.pairwise_iff symmetric).mp pairwise) state)

/-- A step that has been made changes nothing any more. -/
def Settled (same : σ → σ → Prop) (step : σ → ι → Except ε σ)
    (state : σ) (item : ι) : Prop :=
  Agree same (step state item) (.ok state)

/-- A settled step stays settled behind one that it can change places with. -/
theorem Settled.keep
    (transitive :
      ∀ first second third, same first second → same second third →
        same first third)
    (symmetric : ∀ first second, same first second → same second first)
    (respects :
      ∀ item left right, same left right →
        Agree same (step left item) (step right item))
    {state next : σ}
    {item other : ι}
    (settled : Settled same step state item)
    (swap :
      Agree same
        (step state item >>= fun next => step next other)
        (step state other >>= fun next => step next item))
    (steps : step state other = .ok next) :
    Settled same step next item := by
  have first :
      Agree same (step state item >>= fun next => step next other)
        (Except.ok state >>= fun next => step next other) :=
    settled.bind fun left right related => respects other left right related
  have second := (swap.symm symmetric).trans transitive first
  rw [steps] at second
  change Agree same (step next item) (step state other) at second
  rw [steps] at second
  exact second

/-- Settled steps change nothing, one after the other. -/
theorem foldlM_settled
    (reflexive : ∀ state, same state state)
    (transitive :
      ∀ first second third, same first second → same second third →
        same first third)
    (respects :
      ∀ item left right, same left right →
        Agree same (step left item) (step right item))
    {items : List ι}
    {state : σ}
    (settled : ∀ item ∈ items, Settled same step state item) :
    Agree same (items.foldlM step state) (.ok state) := by
  induction items with
  | nil =>
      exact reflexive state
  | cons item items inductionHypothesis =>
      rw [List.forall_mem_cons] at settled
      rw [List.foldlM_cons]
      have first :
          Agree same (step state item >>= items.foldlM step)
            (Except.ok state >>= items.foldlM step) :=
        settled.1.bind fun _ _ => foldlM_agree respects items
      exact first.trans transitive (inductionHypothesis settled.2)

/-- Steps that settle once they are made are all settled behind their run. -/
theorem settled_of_foldlM
    (transitive :
      ∀ first second third, same first second → same second third →
        same first third)
    (symmetric : ∀ first second, same first second → same second first)
    (respects :
      ∀ item left right, same left right →
        Agree same (step left item) (step right item))
    {apart : ι → ι → Prop}
    (swap :
      ∀ first second state, apart first second →
        Agree same
          (step state first >>= fun next => step next second)
          (step state second >>= fun next => step next first))
    {items : List ι}
    (settles :
      ∀ item ∈ items, ∀ state next,
        step state item = .ok next → Settled same step next item)
    (pairwise : items.Pairwise apart)
    {state last : σ}
    (runs : items.foldlM step state = .ok last) :
    ∀ item ∈ items, Settled same step last item := by
  -- What is settled stays so while the items behind it are run.
  have stays :
      ∀ {items : List ι} {state last : σ} {item : ι},
        (∀ other ∈ items, apart item other) →
        Settled same step state item →
        items.foldlM step state = .ok last →
        Settled same step last item := by
    intro items
    induction items with
    | nil =>
        intro state last item _ settled runs
        obtain rfl := Except.ok.inj runs
        exact settled
    | cons other items inductionHypothesis =>
        intro state last item isApart settled runs
        rw [List.forall_mem_cons] at isApart
        rw [List.foldlM_cons] at runs
        cases steps : step state other with
        | error error =>
            rw [steps] at runs
            cases runs
        | ok next =>
            rw [steps] at runs
            exact inductionHypothesis isApart.2
              (settled.keep transitive symmetric respects
                (swap item other state isApart.1) steps) runs
  induction items generalizing state with
  | nil =>
      nofun
  | cons item items inductionHypothesis =>
      rw [List.forall_mem_cons] at settles ⊢
      rw [List.foldlM_cons] at runs
      rw [List.pairwise_cons] at pairwise
      cases steps : step state item with
      | error error =>
          rw [steps] at runs
          cases runs
      | ok next =>
          rw [steps] at runs
          exact ⟨stays pairwise.1 (settles.1 state next steps) runs,
            inductionHypothesis settles.2 pairwise.2 runs⟩

end

end SinterDb.Commuting
