import Mathlib.Logic.Basic

/-!
# Loops with a bound

A `while` loop is a step that either finishes with a result or goes on with a new
state.  Iterating it is structurally recursive in a bound on the number of
steps.  When some measure falls with every step, a bound above the measure is
enough, and the loop obeys its unbounded unfolding equation.
-/

namespace TimeGANWebServer.Support

universe u v

/-- What one pass through a loop does. -/
inductive Pass (State : Type u) (Result : Type v) where
  | done (result : Result)
  | again (state : State)

namespace Loop

variable {State : Type u} {Result : Type v}

/-- Make at most `bound` passes. -/
def iterate (pass : State → Pass State Result) : Nat → State → Option Result
  | 0, _ => none
  | bound + 1, state =>
      match pass state with
      | .done result => some result
      | .again next => iterate pass bound next

variable {pass : State → Pass State Result} {measure : State → Nat}

/-- A pass that finishes ends the loop within any bound. -/
theorem iterate_of_done {state : State} {result : Result} {bound : Nat} (positive : 0 < bound)
    (passed : pass state = .done result) : iterate pass bound state = some result := by
  cases bound with
  | zero => exact absurd positive (Nat.lt_irrefl 0)
  | succ bound => simp only [iterate, passed]

/-- A pass that goes on takes one from the bound. -/
theorem iterate_of_again {state next : State} (passed : pass state = .again next) (bound : Nat) :
    iterate pass (bound + 1) state = iterate pass bound next := by
  simp only [iterate, passed]

/-- Above the measure of the state the bound does not matter. -/
theorem iterate_eq_of_lt
    (falls : ∀ state next, pass state = .again next → measure next < measure state)
    {state : State} {left right : Nat} (leftEnough : measure state < left)
    (rightEnough : measure state < right) :
    iterate pass left state = iterate pass right state := by
  induction left generalizing state right with
  | zero => exact absurd leftEnough (Nat.not_lt_zero _)
  | succ left ih =>
      cases right with
      | zero => exact absurd rightEnough (Nat.not_lt_zero _)
      | succ right =>
          simp only [iterate]
          cases passed : pass state with
          | done result => rfl
          | again next =>
              have lower := falls state next passed
              exact ih (Nat.lt_of_lt_of_le lower (Nat.le_of_lt_succ leftEnough))
                (Nat.lt_of_lt_of_le lower (Nat.le_of_lt_succ rightEnough))

/-- A loop whose measure falls, given just enough passes. -/
def run (pass : State → Pass State Result) (measure : State → Nat)
    (state : State) : Option Result :=
  iterate pass (measure state + 1) state

/-- The unfolding equation of a `while` loop. -/
theorem run_eq
    (falls : ∀ state next, pass state = .again next → measure next < measure state)
    (state : State) :
    run pass measure state =
      match pass state with
      | .done result => some result
      | .again next => run pass measure next := by
  simp only [run, iterate]
  cases passed : pass state with
  | done result => rfl
  | again next =>
      exact iterate_eq_of_lt falls (falls state next passed) (Nat.lt_succ_self _)

/-- A pass that finishes gives the loop's result. -/
theorem run_of_done {state : State} {result : Result} (passed : pass state = .done result) :
    run pass measure state = some result := by
  simp only [run, iterate, passed]

/-- A pass that goes on leaves the rest to the loop. -/
theorem run_of_again
    (falls : ∀ state next, pass state = .again next → measure next < measure state)
    {state next : State} (passed : pass state = .again next) :
    run pass measure state = run pass measure next := by
  rw [run_eq falls, passed]

/-- The induction rule: what holds of a state if it holds of the next one. -/
theorem induction (falls : ∀ state next, pass state = .again next → measure next < measure state)
    {motive : State → Prop}
    (step : ∀ state, (∀ next, pass state = .again next → motive next) → motive state)
    (state : State) : motive state := by
  induction bound : measure state using Nat.strongRecOn generalizing state with
  | ind bound ih =>
      exact step state fun next passed => ih _ (bound ▸ falls state next passed) next rfl

/-- Loops whose next passes are the same have the same result. -/
theorem run_congr
    (falls : ∀ state next, pass state = .again next → measure next < measure state)
    {left right : State} (same : pass left = pass right) :
    run pass measure left = run pass measure right := by
  rw [run_eq falls, run_eq falls right, same]

/-- The invariant rule: what every pass keeps and every last pass turns into a
postcondition holds of the loop's result. -/
theorem run_of_invariant
    (falls : ∀ state next, pass state = .again next → measure next < measure state)
    (Invariant : State → Prop) (Post : Result → Prop)
    (finishes : ∀ state result, Invariant state → pass state = .done result → Post result)
    (keeps : ∀ state next, Invariant state → pass state = .again next → Invariant next)
    {state : State} (holds : Invariant state) :
    ∃ result, run pass measure state = some result ∧ Post result := by
  have general : ∀ state, Invariant state → ∃ result, run pass measure state = some result ∧
      Post result := by
    refine induction falls fun state ih holds => ?_
    rw [run_eq falls]
    cases passed : pass state with
    | done result => exact ⟨result, rfl, finishes state result holds passed⟩
    | again next => exact ih next passed (keeps state next holds passed)
  exact general state holds

/-- A loop commutes with maps of its states and results that each pass commutes with. -/
theorem run_map
    (falls : ∀ state next, pass state = .again next → measure next < measure state)
    (onState : State → State) (onResult : Result → Result)
    (commutes : ∀ state, pass (onState state) =
      match pass state with
      | .done result => .done (onResult result)
      | .again next => .again (onState next))
    (state : State) :
    run pass measure (onState state) = (run pass measure state).map onResult := by
  refine @induction _ _ pass measure falls
    (fun state => run pass measure (onState state) = (run pass measure state).map onResult) ?_ state
  intro state ih
  have commuted := commutes state
  rw [run_eq falls, run_eq falls state]
  cases passed : pass state with
  | done result =>
      rw [passed] at commuted
      rw [commuted]
      rfl
  | again next =>
      rw [passed] at commuted
      rw [commuted]
      exact ih next passed

/-- A loop whose measure falls comes to a result. -/
theorem run_isSome
    (falls : ∀ state next, pass state = .again next → measure next < measure state)
    (state : State) : (run pass measure state).isSome := by
  have finished : ∃ result, run pass measure state = some result ∧ True :=
    run_of_invariant falls (fun _ => True) (fun _ => True) (fun _ _ _ _ => trivial)
      (fun _ _ _ _ => trivial) trivial
  obtain ⟨result, returned, _⟩ := finished
  rw [returned]
  rfl

end Loop

end TimeGANWebServer.Support
