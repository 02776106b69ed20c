import SinterDb.Lib.Result

namespace SinterDb

/-!
# Programs that change a state and may throw

What a program changed before it threw stays changed.  `Meets` says what holds
after a program, whether it returns or throws.
-/

/-- A program: from a state to its result and the state after it. -/
def Effect (State Error Value : Type) : Type :=
  State → Except Error Value × State

namespace Effect

variable {State Error Value Other : Type}

instance : Monad (Effect State Error) where
  pure value := fun state => (.ok value, state)
  bind program next := fun state =>
    match program state with
    | (.ok value, state) => next value state
    | (.error error, state) => (.error error, state)

/-- A program that throws. -/
def throw (error : Error) : Effect State Error Value :=
  fun state => (.error error, state)

/-- A program that goes on with a handler when it throws. -/
def orCatch
    (program : Effect State Error Value)
    (handler : Error → Effect State Error Value) :
    Effect State Error Value := fun state =>
  match program state with
  | (.ok value, state) => (.ok value, state)
  | (.error error, state) => handler error state

/--
A program with a last step that is always taken.  An error of the last step
takes the place of the result.
-/
def andFinally
    (program : Effect State Error Value)
    (last : Effect State Error Unit) :
    Effect State Error Value := fun state =>
  match program state with
  | (result, state) =>
      match last state with
      | (.ok _, state) => (result, state)
      | (.error error, state) => (.error error, state)

/-- A program for each element of a list. -/
def forEach
    (elements : List Other)
    (body : Other → Effect State Error Unit) :
    Effect State Error Unit :=
  match elements with
  | [] => pure ()
  | element :: elements => do
      body element
      forEach elements body

/-- A program that does not throw whatever happens. -/
def quietly (program : Effect State Error Unit) : Effect State Error Unit :=
  program.orCatch fun _ => pure ()

/-- What is known after a program, by whether it returned or threw. -/
def Outcome
    (returned : Value → State → Prop)
    (thrown : Error → State → Prop) :
    Except Error Value × State → Prop
  | (.ok value, state) => returned value state
  | (.error error, state) => thrown error state

/-- A program that is started in one kind of state ends in another. -/
def Meets
    (before : State → Prop)
    (program : Effect State Error Value)
    (returned : Value → State → Prop)
    (thrown : Error → State → Prop) : Prop :=
  ∀ state, before state → Outcome returned thrown (program state)

/-- A program keeps what holds of the state. -/
def Keeps
    (invariant : State → Prop)
    (program : Effect State Error Value) : Prop :=
  Meets invariant program (fun _ => invariant) (fun _ => invariant)

/-- A program returns, and what is known then. -/
def Returns
    (before : State → Prop)
    (program : Effect State Error Value)
    (returned : Value → State → Prop) : Prop :=
  Meets before program returned fun _ _ => False

variable {before : State → Prop}
variable {program : Effect State Error Value}
variable {returned : Value → State → Prop}
variable {thrown : Error → State → Prop}

/-- What is known may be weakened, and what is assumed strengthened. -/
theorem Meets.mono
    {before' : State → Prop}
    {returned' : Value → State → Prop}
    {thrown' : Error → State → Prop}
    (meets : Meets before program returned thrown)
    (assumed : ∀ state, before' state → before state)
    (returns : ∀ value state, returned value state → returned' value state)
    (throws : ∀ error state, thrown error state → thrown' error state) :
    Meets before' program returned' thrown' := by
  intro state holds
  have outcome := meets state (assumed state holds)
  generalize program state = ended at outcome ⊢
  rcases ended with ⟨result, after⟩
  cases result with
  | error error =>
      exact throws error after outcome
  | ok value =>
      exact returns value after outcome

/-- What is known in two ways is known together. -/
theorem Meets.and
    {other : State → Prop}
    {returned' : Value → State → Prop}
    {thrown' : Error → State → Prop}
    (first : Meets before program returned thrown)
    (second : Meets other program returned' thrown') :
    Meets (fun state => before state ∧ other state) program
      (fun value state => returned value state ∧ returned' value state)
      (fun error state => thrown error state ∧ thrown' error state) := by
  rintro state ⟨holds, also⟩
  have outcome := first state holds
  have another := second state also
  generalize program state = ended at outcome another ⊢
  rcases ended with ⟨result, after⟩
  cases result <;> exact ⟨outcome, another⟩

theorem meets_pure
    {value : Value}
    (holds : ∀ state, before state → returned value state) :
    Meets before (pure value : Effect State Error Value) returned thrown :=
  holds

theorem meets_throw
    {error : Error}
    (holds : ∀ state, before state → thrown error state) :
    Meets before (throw error : Effect State Error Value) returned thrown :=
  holds

/-- One program after the other. -/
theorem Meets.bind
    {next : Value → Effect State Error Other}
    {between : Value → State → Prop}
    {returned : Other → State → Prop}
    (first : Meets before program between thrown)
    (second :
      ∀ value, Meets (between value) (next value) returned thrown) :
    Meets before (program >>= next) returned thrown := by
  intro state holds
  have outcome := first state holds
  change Outcome _ _
    (match program state with
      | (.ok value, state) => next value state
      | (.error error, state) => (.error error, state))
  generalize program state = ended at outcome ⊢
  rcases ended with ⟨result, after⟩
  cases result with
  | error error =>
      exact outcome
  | ok value =>
      exact second value after outcome

/-- A program after one that does not throw. -/
theorem Returns.bind
    {next : Value → Effect State Error Other}
    {between : Value → State → Prop}
    {returned : Other → State → Prop}
    (first : Returns before program between)
    (second :
      ∀ value, Meets (between value) (next value) returned thrown) :
    Meets before (program >>= next) returned thrown :=
  (Meets.mono first (fun _ => id) (fun _ _ => id)
    fun _ _ absurd => absurd.elim).bind second

/-- The handler takes over where the program threw. -/
theorem Meets.orCatch
    {handler : Error → Effect State Error Value}
    {broken : Error → State → Prop}
    (body : Meets before program returned broken)
    (handles :
      ∀ error, Meets (broken error) (handler error) returned thrown) :
    Meets before (program.orCatch handler) returned thrown := by
  intro state holds
  have outcome := body state holds
  unfold Effect.orCatch
  generalize program state = ended at outcome ⊢
  rcases ended with ⟨result, after⟩
  cases result with
  | error error =>
      exact handles error after outcome
  | ok value =>
      exact outcome

/-- What is ignored does not throw. -/
theorem Meets.quietly
    {program : Effect State Error Unit}
    {ended : State → Prop}
    (body : Meets before program (fun _ => ended) fun _ => ended) :
    Returns before (quietly program) fun _ => ended :=
  body.orCatch fun _ => meets_pure fun _ holds => holds

/-- Every program ends in some state. -/
theorem meets_any (program : Effect State Error Value) :
    Meets (fun _ => True) program (fun _ _ => True) fun _ _ => True := by
  intro state _
  generalize program state = ended
  rcases ended with ⟨result, after⟩
  cases result <;> trivial

/-- The last step is taken from either end of the program. -/
theorem Meets.andFinally
    {last : Effect State Error Unit}
    {reached : Value → State → Prop}
    {broken : Error → State → Prop}
    (body : Meets before program reached broken)
    (after_return :
      ∀ value, Meets (reached value) last (fun _ => returned value) thrown)
    (after_throw :
      ∀ error, Meets (broken error) last (fun _ => thrown error) thrown) :
    Meets before (program.andFinally last) returned thrown := by
  intro state holds
  have outcome := body state holds
  unfold Effect.andFinally
  generalize program state = ended at outcome ⊢
  rcases ended with ⟨result, after⟩
  cases result with
  | error error =>
      have final := after_throw error after outcome
      dsimp only
      generalize last after = closed at final ⊢
      rcases closed with ⟨ending, done⟩
      cases ending <;> exact final
  | ok value =>
      have final := after_return value after outcome
      dsimp only
      generalize last after = closed at final ⊢
      rcases closed with ⟨ending, done⟩
      cases ending <;> exact final

/-- A loop keeps what every round of it keeps. -/
theorem Keeps.forEach
    {invariant : State → Prop}
    {body : Other → Effect State Error Unit}
    (elements : List Other)
    (round : ∀ element ∈ elements, Keeps invariant (body element)) :
    Keeps invariant (forEach elements body) := by
  induction elements with
  | nil =>
      exact meets_pure fun _ holds => holds
  | cons element elements ih =>
      exact Meets.bind (round element (List.mem_cons_self ..))
        fun _ =>
          ih fun other member => round other (List.mem_cons_of_mem _ member)

theorem keeps_pure
    {invariant : State → Prop}
    (value : Value) :
    Keeps invariant (pure value : Effect State Error Value) :=
  meets_pure fun _ holds => holds

theorem keeps_throw
    {invariant : State → Prop}
    (error : Error) :
    Keeps invariant (throw error : Effect State Error Value) :=
  meets_throw fun _ holds => holds

theorem Keeps.bind
    {invariant : State → Prop}
    {next : Value → Effect State Error Other}
    (first : Keeps invariant program)
    (second : ∀ value, Keeps invariant (next value)) :
    Keeps invariant (program >>= next) :=
  Meets.bind first second

theorem Keeps.orCatch
    {invariant : State → Prop}
    {handler : Error → Effect State Error Value}
    (body : Keeps invariant program)
    (handles : ∀ error, Keeps invariant (handler error)) :
    Keeps invariant (program.orCatch handler) :=
  Meets.orCatch body handles

theorem Keeps.quietly
    {invariant : State → Prop}
    {program : Effect State Error Unit}
    (body : Keeps invariant program) :
    Keeps invariant (quietly program) :=
  body.orCatch fun _ => keeps_pure ()

theorem Keeps.andFinally
    {invariant : State → Prop}
    {last : Effect State Error Unit}
    (body : Keeps invariant program)
    (ends : Keeps invariant last) :
    Keeps invariant (program.andFinally last) :=
  Meets.andFinally body (fun _ => ends) fun _ => ends

/-- What holds whether a program returns or throws holds after it. -/
theorem Meets.after
    {ended : State → Prop}
    (meets : Meets before program (fun _ => ended) fun _ => ended)
    {state : State}
    (holds : before state) :
    ended (program state).2 := by
  have outcome := meets state holds
  generalize program state = ended at outcome ⊢
  rcases ended with ⟨result, after⟩
  cases result <;> exact outcome

end Effect

end SinterDb
