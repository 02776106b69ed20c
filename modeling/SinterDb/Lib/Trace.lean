import Mathlib.Data.List.Induction

namespace SinterDb.Trace

/-!
# Traces of events

What holds of every event of a trace, given what came before it; and which
requests of a trace are still open.  A trace grows at its end, so that both are
decided event by event.
-/

variable {ε κ : Type}

/-- Every event was allowed by what came before it. -/
def Always (allowed : List ε → ε → Prop) (trace : List ε) : Prop :=
  ∀ before event after,
    trace = before ++ event :: after → allowed before event

section Always

variable {allowed : List ε → ε → Prop}

/-- Nothing has happened yet. -/
theorem Always.nil : Always allowed [] := by
  intro before event after split
  cases before <;> cases split

/-- One more event. -/
theorem always_concat
    {trace : List ε}
    {event : ε} :
    Always allowed (trace ++ [event]) ↔
      Always allowed trace ∧ allowed trace event := by
  constructor
  · intro always
    refine ⟨?_, always trace event [] rfl⟩
    intro before earlier after split
    exact always before earlier (after ++ [event]) (by rw [split]; simp)
  · rintro ⟨always, last⟩ before earlier after split
    rcases List.eq_nil_or_concat after with rfl | ⟨front, later, rfl⟩
    · have same := List.append_inj' split rfl
      rcases same with ⟨rfl, same⟩
      cases same
      exact last
    · rw [List.concat_eq_append, ← List.cons_append, ← List.append_assoc]
        at split
      have same := List.append_inj' split rfl
      exact always before earlier front same.1

/-- More events, each of which is allowed wherever it comes. -/
theorem Always.append
    {trace later : List ε}
    (always : Always allowed trace)
    (each :
      ∀ before event after,
        later = before ++ event :: after →
          allowed (trace ++ before) event) :
    Always allowed (trace ++ later) := by
  induction later using List.reverseRecOn with
  | nil =>
      rw [List.append_nil]
      exact always
  | append_singleton front event inductionHypothesis =>
      rw [← List.append_assoc, always_concat]
      refine ⟨inductionHypothesis ?_, each front event [] rfl⟩
      intro before earlier after split
      exact each before earlier (after ++ [event]) (by rw [split]; simp)

/-- More events that need nothing to come before them. -/
theorem Always.append_of_forall
    {trace later : List ε}
    (always : Always allowed trace)
    (free : ∀ event ∈ later, ∀ before, allowed before event) :
    Always allowed (trace ++ later) := by
  refine always.append ?_
  intro before event after split
  exact free event (by rw [split]; simp) _

end Always

section Open

variable
  (asks settles : ε → Option κ)

/-- Every request of a trace was settled after it was made. -/
def Settled (trace : List ε) : Prop :=
  ∀ before event after,
    trace = before ++ event :: after →
      ∀ key, asks event = some key → ∃ later ∈ after, settles later = some key

variable [DecidableEq κ]

/-- The open requests after one more event. -/
def nextOpen (waiting : List κ) (event : ε) : List κ :=
  waiting.filter (fun key => decide (settles event ≠ some key)) ++
    (asks event).toList

/-- The requests that a trace has made and not settled. -/
def openRequests (trace : List ε) : List κ :=
  trace.foldl (nextOpen asks settles) []

variable {asks settles}

/-- One more event. -/
theorem openRequests_concat
    (trace : List ε)
    (event : ε) :
    openRequests asks settles (trace ++ [event]) =
      nextOpen asks settles (openRequests asks settles trace) event := by
  unfold openRequests
  rw [List.foldl_append]
  rfl

/-- A request is open when it was made and not settled since. -/
theorem mem_openRequests
    {trace : List ε}
    {key : κ} :
    key ∈ openRequests asks settles trace ↔
      ∃ before event after,
        trace = before ++ event :: after ∧ asks event = some key ∧
          ∀ later ∈ after, settles later ≠ some key := by
  induction trace using List.reverseRecOn with
  | nil =>
      constructor
      · intro member
        cases member
      · rintro ⟨before, event, after, split, -⟩
        cases before <;> cases split
  | append_singleton trace last inductionHypothesis =>
      rw [openRequests_concat]
      unfold nextOpen
      rw [List.mem_append, List.mem_filter, inductionHypothesis,
        decide_eq_true_iff, Option.mem_toList]
      constructor
      · rintro (⟨⟨before, event, after, rfl, isAsked, isOpen⟩, stays⟩ | isNew)
        · refine ⟨before, event, after ++ [last], by simp, isAsked, ?_⟩
          intro later member
          rcases List.mem_append.mp member with member | member
          · exact isOpen later member
          · rw [List.mem_singleton.mp member]
            exact stays
        · exact ⟨trace, last, [], rfl, isNew, by simp⟩
      · rintro ⟨before, event, after, split, isAsked, isOpen⟩
        rcases List.eq_nil_or_concat after with rfl | ⟨front, later, rfl⟩
        · rcases List.append_inj' split rfl with ⟨-, same⟩
          cases same
          exact .inr isAsked
        · rw [List.concat_eq_append, ← List.cons_append, ← List.append_assoc]
            at split
          rcases List.append_inj' split rfl with ⟨isTrace, same⟩
          cases same
          refine .inl
            ⟨⟨before, event, front, isTrace, isAsked, ?_⟩,
              isOpen last (by simp)⟩
          intro later member
          exact isOpen later (by simp [member])

/-- Every request was settled when none is open. -/
theorem settled_iff
    {trace : List ε} :
    Settled asks settles trace ↔ openRequests asks settles trace = [] := by
  rw [List.eq_nil_iff_forall_not_mem]
  constructor
  · intro settled key member
    rcases mem_openRequests.mp member with
      ⟨before, event, after, split, isAsked, isOpen⟩
    rcases settled before event after split key isAsked with
      ⟨later, member, settles⟩
    exact isOpen later member settles
  · intro none before event after split key isAsked
    by_contra unsettled
    refine none key (mem_openRequests.mpr
      ⟨before, event, after, split, isAsked, ?_⟩)
    intro later member settles
    exact unsettled ⟨later, member, settles⟩

end Open

end SinterDb.Trace
