import TimeGANWebServer.Support.Run

/-!
# Refinement

A system is described on two levels.  Each step of the lower one is some steps of the upper one,
or none, with the same effects; then each run of the lower one is a run of the upper one.
-/

namespace TimeGANWebServer.Support

universe u v w u' v' w'

variable {State : Type u} {Label : Type v} {Effect : Type w} {Abstract : Type u'}
  {AbstractLabel : Type v'} {Effect' : Type w'}
  {step : State → Label → Option (State × List Effect)}
  {abstractStep : Abstract → AbstractLabel → Option (Abstract × List Effect)}

/-- The rule of refinement, where the lower level has a view on the upper one, and each of its
labels stands for labels there. -/
theorem run_refines (Invariant : State → Prop) (view : State → Abstract)
    (labelsOf : Label → List AbstractLabel)
    (keeps : ∀ state label next effects, Invariant state →
      step state label = some (next, effects) → Invariant next)
    (refines : ∀ state label next effects, Invariant state →
      step state label = some (next, effects) →
        run abstractStep (view state) (labelsOf label) = some (view next, effects))
    {state last : State} {effects : List Effect} {labels : List Label} (start : Invariant state)
    (ran : run step state labels = some (last, effects)) :
    run abstractStep (view state) (labels.flatMap labelsOf) = some (view last, effects) := by
  induction labels generalizing state effects with
  | nil =>
      cases ran
      rfl
  | cons label labels ih =>
      obtain ⟨next, first, rest, stepped, later, rfl⟩ := run_cons ran
      have behind := ih (keeps state label next first start stepped) later
      exact run_of_runs (refines state label next first start stepped) behind

/-- The rule of simulation, where both levels have the same labels: what the first one can do the
second one can do too. -/
theorem run_simulates {abstractStep : Abstract → Label → Option (Abstract × List Effect')}
    (Relates : State → Abstract → Prop)
    (simulates : ∀ state abstract label next effects, Relates state abstract →
      step state label = some (next, effects) →
        ∃ after answers, abstractStep abstract label = some (after, answers) ∧ Relates next after)
    {state last : State} {abstract : Abstract} {effects : List Effect} {labels : List Label}
    (start : Relates state abstract) (ran : run step state labels = some (last, effects)) :
    ∃ final answers, run abstractStep abstract labels = some (final, answers) ∧
      Relates last final := by
  induction labels generalizing state abstract effects with
  | nil =>
      cases ran
      exact ⟨abstract, [], rfl, start⟩
  | cons label labels ih =>
      obtain ⟨next, first, rest, stepped, later, rfl⟩ := run_cons ran
      obtain ⟨after, answers, matched, related⟩ :=
        simulates state abstract label next first start stepped
      obtain ⟨final, others, ranOn, relates⟩ := ih related later
      exact ⟨final, answers ++ others, run_of_step matched ranOn, relates⟩

/-- The rule of refinement for a lower level that is never stuck, where the labels above say more
than those below: each list of labels has a run, and with some labels above it is a run there. -/
theorem run_total (Invariant : State → Prop) (view : State → Abstract)
    (forget : AbstractLabel → Label)
    (steps : ∀ state label, Invariant state → ∃ next effects above,
      step state label = some (next, effects) ∧ Invariant next ∧ forget above = label ∧
        abstractStep (view state) above = some (view next, effects))
    {state : State} (start : Invariant state) (labels : List Label) :
    ∃ last effects above, run step state labels = some (last, effects) ∧ Invariant last ∧
      above.map forget = labels ∧ run abstractStep (view state) above =
        some (view last, effects) := by
  induction labels generalizing state with
  | nil => exact ⟨state, [], [], rfl, start, rfl, rfl⟩
  | cons label labels ih =>
      obtain ⟨next, first, above, stepped, kept, same, matched⟩ := steps state label start
      obtain ⟨last, rest, behind, ran, holds, sameBehind, ranAbove⟩ := ih kept
      exact ⟨last, first ++ rest, above :: behind, run_of_step stepped ran, holds,
        by rw [List.map_cons, same, sameBehind], run_of_step matched ranAbove⟩

/-- Two systems on the same states, the steps of the first one being steps of the second one up to
the order of their effects, as long as a condition is met. -/
theorem run_permutes {other : State → Label → Option (State × List Effect)}
    (Invariant : State → Prop) {Condition : State → Label → Prop}
    (keeps : ∀ state label next effects, Invariant state →
      step state label = some (next, effects) → Invariant next)
    (permutes : ∀ state label next effects, Invariant state → Condition state label →
      step state label = some (next, effects) →
        ∃ others, other state label = some (next, others) ∧ others.Perm effects)
    {state last : State} {effects : List Effect} {labels : List Label} (start : Invariant state)
    (meets : RunMeets step Condition state labels)
    (ran : run step state labels = some (last, effects)) :
    ∃ others, run other state labels = some (last, others) ∧ others.Perm effects := by
  induction labels generalizing state effects with
  | nil =>
      cases ran
      exact ⟨[], rfl, .nil⟩
  | cons label labels ih =>
      obtain ⟨next, first, rest, stepped, later, rfl⟩ := run_cons ran
      obtain ⟨met, meets⟩ := (runMeets_cons_some stepped).mp meets
      obtain ⟨others, matched, perm⟩ := permutes state label next first start met stepped
      obtain ⟨followers, ranOn, permOn⟩ :=
        ih (keeps state label next first start stepped) meets later
      exact ⟨others ++ followers, run_of_step matched ranOn, perm.append permOn⟩

end TimeGANWebServer.Support
