import Mathlib.Data.List.Basic

/-!
# Runs of a labelled step function

A system takes one labelled step after the other; a step that is not possible in a
state is `none`, and a step reports what it does as a list of effects.  The invariant
rule carries an invariant over the state and all effects so far through the runs whose
steps meet a condition.
-/

namespace TimeGANWebServer.Support

universe u v w

variable {State : Type u} {Label : Type v} {Effect : Type w}

/-- The state after some steps, and what they did. -/
def run (step : State → Label → Option (State × List Effect)) (state : State) :
    List Label → Option (State × List Effect)
  | [] => some (state, [])
  | label :: labels =>
      match step state label with
      | none => none
      | some (next, effects) =>
          (run step next labels).map fun last => (last.1, effects ++ last.2)

/-- Every step of a run meets a condition on its label and on the state before it. -/
def RunMeets (step : State → Label → Option (State × List Effect))
    (Condition : State → Label → Prop) (state : State) : List Label → Prop
  | [] => True
  | label :: labels =>
      Condition state label ∧
        ∀ next effects, step state label = some (next, effects) →
          RunMeets step Condition next labels

variable {step : State → Label → Option (State × List Effect)}

/-- A step and the run behind it. -/
theorem run_cons {state last : State} {label : Label} {labels : List Label}
    {effects : List Effect} (ran : run step state (label :: labels) = some (last, effects)) :
    ∃ next first rest, step state label = some (next, first) ∧
      run step next labels = some (last, rest) ∧ effects = first ++ rest := by
  simp only [run] at ran
  cases stepped : step state label with
  | none => simp [stepped] at ran
  | some outcome =>
      obtain ⟨next, first⟩ := outcome
      simp only [stepped, Option.map_eq_some_iff, Prod.mk.injEq] at ran
      obtain ⟨⟨final, rest⟩, ran, rfl, rfl⟩ := ran
      exact ⟨next, first, rest, rfl, ran, rfl⟩

/-- A step in front of a run. -/
theorem run_of_step {state next last : State} {label : Label} {labels : List Label}
    {first rest : List Effect} (stepped : step state label = some (next, first))
    (ran : run step next labels = some (last, rest)) :
    run step state (label :: labels) = some (last, first ++ rest) := by
  simp only [run, stepped, ran, Option.map_some]

/-- A run in two parts. -/
theorem run_append {state last : State} {left right : List Label} {effects : List Effect}
    (ran : run step state (left ++ right) = some (last, effects)) :
    ∃ middle first rest, run step state left = some (middle, first) ∧
      run step middle right = some (last, rest) ∧ effects = first ++ rest := by
  induction left generalizing state effects with
  | nil => exact ⟨state, [], effects, rfl, ran, rfl⟩
  | cons label left ih =>
      obtain ⟨next, made, rest, stepped, later, rfl⟩ := run_cons ran
      obtain ⟨middle, first, rest, before, behind, rfl⟩ := ih later
      exact ⟨middle, made ++ first, rest, run_of_step stepped before, behind,
        (List.append_assoc made first rest).symm⟩

/-- A run goes on with another one. -/
theorem run_of_runs {state middle last : State} {left right : List Label}
    {first rest : List Effect} (before : run step state left = some (middle, first))
    (behind : run step middle right = some (last, rest)) :
    run step state (left ++ right) = some (last, first ++ rest) := by
  induction left generalizing state first with
  | nil =>
      cases before
      exact behind
  | cons label left ih =>
      obtain ⟨next, made, later, stepped, ran, rfl⟩ := run_cons before
      rw [List.append_assoc]
      exact run_of_step stepped (ih ran)

/-- A run of one step. -/
theorem run_singleton {state next : State} {label : Label} {effects : List Effect}
    (stepped : step state label = some (next, effects)) :
    run step state [label] = some (next, effects) := by
  have ran := run_of_step stepped (rfl : run step next [] = some (next, []))
  rwa [List.append_nil] at ran

/-- The invariant rule: what the start satisfies and every step that meets the condition
keeps holds at the end of a run. -/
theorem run_invariant (Invariant : State → List Effect → Prop)
    {Condition : State → Label → Prop}
    (keeps : ∀ state log label next effects, Invariant state log → Condition state label →
      step state label = some (next, effects) → Invariant next (log ++ effects))
    {state last : State} {log effects : List Effect} {labels : List Label}
    (start : Invariant state log) (meets : RunMeets step Condition state labels)
    (ran : run step state labels = some (last, effects)) : Invariant last (log ++ effects) := by
  induction labels generalizing state log effects with
  | nil =>
      cases ran
      rwa [List.append_nil]
  | cons label labels ih =>
      obtain ⟨next, first, rest, stepped, later, rfl⟩ := run_cons ran
      have kept := keeps state log label next first start meets.1 stepped
      have final := ih kept (meets.2 next first stepped) later
      rwa [List.append_assoc] at final

/-- The invariant rule where the invariant is also about the steps so far. -/
theorem run_history (Invariant : List Label → State → List Effect → Prop)
    {Condition : State → Label → Prop}
    (keeps : ∀ before state log label next effects, Invariant before state log →
      Condition state label → step state label = some (next, effects) →
        Invariant (before ++ [label]) next (log ++ effects))
    {before labels : List Label} {state last : State} {log effects : List Effect}
    (start : Invariant before state log) (meets : RunMeets step Condition state labels)
    (ran : run step state labels = some (last, effects)) :
    Invariant (before ++ labels) last (log ++ effects) := by
  induction labels generalizing before state log effects with
  | nil =>
      cases ran
      rwa [List.append_nil, List.append_nil]
  | cons label labels ih =>
      obtain ⟨next, first, rest, stepped, later, rfl⟩ := run_cons ran
      have kept := keeps before state log label next first start meets.1 stepped
      have final := ih kept (meets.2 next first stepped) later
      rwa [List.append_assoc, List.append_assoc, List.singleton_append] at final

/-- The rule of progress: where every step that meets the condition is possible and keeps an
invariant, so is a run of such steps. -/
theorem run_of_meets (Invariant : State → Prop) {Condition : State → Label → Prop}
    (progress : ∀ state label, Invariant state → Condition state label →
      ∃ next effects, step state label = some (next, effects) ∧ Invariant next)
    {state : State} {labels : List Label} (start : Invariant state)
    (meets : RunMeets step Condition state labels) :
    ∃ last effects, run step state labels = some (last, effects) ∧ Invariant last := by
  induction labels generalizing state with
  | nil => exact ⟨state, [], rfl, start⟩
  | cons label labels ih =>
      obtain ⟨next, first, stepped, holds⟩ := progress state label start meets.1
      obtain ⟨last, rest, ran, final⟩ := ih holds (meets.2 next first stepped)
      exact ⟨last, first ++ rest, run_of_step stepped ran, final⟩

theorem runMeets_cons_none {Condition : State → Label → Prop} {state : State} {label : Label}
    {labels : List Label} (stepped : step state label = none) :
    RunMeets step Condition state (label :: labels) ↔ Condition state label := by
  refine ⟨And.left, fun meets => ⟨meets, fun next effects same => ?_⟩⟩
  rw [stepped] at same
  contradiction

theorem runMeets_cons_some {Condition : State → Label → Prop} {state next : State} {label : Label}
    {labels : List Label} {effects : List Effect}
    (stepped : step state label = some (next, effects)) :
    RunMeets step Condition state (label :: labels) ↔
      Condition state label ∧ RunMeets step Condition next labels := by
  refine and_congr_right fun _ => ⟨fun later => later next effects stepped, fun later => ?_⟩
  intro other otherEffects same
  rw [stepped, Option.some.injEq, Prod.mk.injEq] at same
  exact same.1 ▸ later

/-- A condition that can be decided for a step can be decided for a run. -/
instance decidableRunMeets {Condition : State → Label → Prop}
    [∀ state label, Decidable (Condition state label)] (state : State) :
    (labels : List Label) → Decidable (RunMeets step Condition state labels)
  | [] => .isTrue trivial
  | label :: labels =>
      match stepped : step state label with
      | none => decidable_of_iff _ (runMeets_cons_none stepped).symm
      | some (next, _) =>
          have := @decidableRunMeets Condition _ next labels
          decidable_of_iff _ (runMeets_cons_some stepped).symm

/-- Every run meets no condition. -/
theorem RunMeets.always (state : State) (labels : List Label) :
    RunMeets step (fun _ _ => True) state labels := by
  induction labels generalizing state with
  | nil => trivial
  | cons label labels ih => exact ⟨trivial, fun next _ _ => ih next⟩

/-- The rule for an invariant of the state alone. -/
theorem run_state (Invariant : State → Prop) {Condition : State → Label → Prop}
    (keeps : ∀ state label next effects, Invariant state → Condition state label →
      step state label = some (next, effects) → Invariant next)
    {state last : State} {effects : List Effect} {labels : List Label} (start : Invariant state)
    (meets : RunMeets step Condition state labels)
    (ran : run step state labels = some (last, effects)) : Invariant last :=
  @run_invariant _ _ _ step (fun state _ => Invariant state) Condition
    (fun state _ label next effects => keeps state label next effects) state last [] effects labels
    start meets ran

/-- The rule for an invariant of the state that every step keeps. -/
theorem run_state_always (Invariant : State → Prop)
    (keeps : ∀ state label next effects, Invariant state →
      step state label = some (next, effects) → Invariant next)
    {state last : State} {effects : List Effect} {labels : List Label} (start : Invariant state)
    (ran : run step state labels = some (last, effects)) : Invariant last :=
  run_state Invariant (fun state label next effects holds _ => keeps state label next effects holds)
    start (RunMeets.always state labels) ran

/-- The invariant rule where the condition is on single steps of the run. -/
theorem RunMeets.mono {Weak Strong : State → Label → Prop}
    (implies : ∀ state label, Strong state label → Weak state label) {state : State}
    {labels : List Label} (meets : RunMeets step Strong state labels) :
    RunMeets step Weak state labels := by
  induction labels generalizing state with
  | nil => trivial
  | cons label labels ih =>
      exact ⟨implies state label meets.1,
        fun next effects stepped => ih (meets.2 next effects stepped)⟩

/-- A condition on the labels alone. -/
theorem RunMeets.of_forall {Good : Label → Prop} {labels : List Label}
    (good : ∀ label ∈ labels, Good label) (state : State) :
    RunMeets step (fun _ label => Good label) state labels := by
  induction labels generalizing state with
  | nil => trivial
  | cons label labels ih =>
      exact ⟨good label List.mem_cons_self,
        fun next _ _ =>
          ih (fun later member => good later (List.mem_cons_of_mem label member)) next⟩

/-- A run that meets a condition goes on with a step that meets it. -/
theorem RunMeets.snoc {Condition : State → Label → Prop} {state last : State} {labels : List Label}
    {label : Label} {effects : List Effect} (meets : RunMeets step Condition state labels)
    (ran : run step state labels = some (last, effects)) (met : Condition last label) :
    RunMeets step Condition state (labels ++ [label]) := by
  induction labels generalizing state effects with
  | nil =>
      cases ran
      exact ⟨met, fun _ _ _ => trivial⟩
  | cons first labels ih =>
      obtain ⟨next, _, _, stepped, later, _⟩ := run_cons ran
      obtain ⟨here, behind⟩ := (runMeets_cons_some stepped).mp meets
      exact (runMeets_cons_some stepped).mpr ⟨here, ih behind later⟩

theorem RunMeets.and {Left Right : State → Label → Prop} {state : State} {labels : List Label}
    (left : RunMeets step Left state labels) (right : RunMeets step Right state labels) :
    RunMeets step (fun state label => Left state label ∧ Right state label) state labels := by
  induction labels generalizing state with
  | nil => trivial
  | cons label labels ih =>
      exact ⟨⟨left.1, right.1⟩,
        fun next effects stepped => ih (left.2 next effects stepped) (right.2 next effects stepped)⟩

/-- The rule for effects: where a step reports only good effects exactly if it meets the
condition, so does a run exactly if every step meets it. -/
theorem run_effects_iff (Invariant : State → Prop) (Good : Effect → Prop)
    {Condition : State → Label → Prop}
    (invariant : ∀ state label next effects, Invariant state →
      step state label = some (next, effects) → Invariant next)
    (exact_ : ∀ state label next effects, Invariant state →
      step state label = some (next, effects) →
        ((∀ effect ∈ effects, Good effect) ↔ Condition state label))
    {state last : State} {effects : List Effect} {labels : List Label} (start : Invariant state)
    (ran : run step state labels = some (last, effects)) :
    (∀ effect ∈ effects, Good effect) ↔ RunMeets step Condition state labels := by
  induction labels generalizing state effects with
  | nil =>
      cases ran
      exact iff_of_true nofun trivial
  | cons label labels ih =>
      obtain ⟨next, first, rest, stepped, later, rfl⟩ := run_cons ran
      have held := invariant state label next first start stepped
      rw [runMeets_cons_some stepped, ← exact_ state label next first start stepped,
        ← ih held later]
      exact List.forall_mem_append

/-- The rule of no return: where a step that misses the condition spoils what every other
step keeps, and no step mends it, it holds at the end exactly if every step met the
condition. -/
theorem run_iff_meets (Invariant Good : State → Prop) {Condition : State → Label → Prop}
    (invariant : ∀ state label next effects, Invariant state →
      step state label = some (next, effects) → Invariant next)
    (keeps : ∀ state label next effects, Invariant state → Good state → Condition state label →
      step state label = some (next, effects) → Good next)
    (spoils : ∀ state label next effects, Invariant state → ¬Condition state label →
      step state label = some (next, effects) → ¬Good next)
    (lost : ∀ state label next effects, Invariant state → ¬Good state →
      step state label = some (next, effects) → ¬Good next)
    {state last : State} {effects : List Effect} {labels : List Label} (start : Invariant state)
    (good : Good state) (ran : run step state labels = some (last, effects)) :
    Good last ↔ RunMeets step Condition state labels := by
  have spoiled : ∀ labels state last effects, Invariant state → ¬Good state →
      run step state labels = some (last, effects) → ¬Good last := by
    intro labels
    induction labels with
    | nil =>
        intro state last effects _ bad ran
        cases ran
        exact bad
    | cons label labels ih =>
        intro state last effects holds bad ran
        obtain ⟨next, first, rest, stepped, later, _⟩ := run_cons ran
        exact ih next last rest (invariant state label next first holds stepped)
          (lost state label next first holds bad stepped) later
  induction labels generalizing state effects with
  | nil =>
      cases ran
      exact iff_of_true good trivial
  | cons label labels ih =>
      obtain ⟨next, first, rest, stepped, later, _⟩ := run_cons ran
      have held := invariant state label next first start stepped
      by_cases meets : Condition state label
      · have behind := ih held (keeps state label next first start good meets stepped) later
        refine behind.trans ⟨fun behind => ⟨meets, fun other effects same => ?_⟩,
          fun whole => whole.2 next first stepped⟩
        rw [stepped, Option.some.injEq, Prod.mk.injEq] at same
        exact same.1 ▸ behind
      · exact iff_of_false
          (spoiled labels next last rest held
            (spoils state label next first start meets stepped) later)
          (fun whole => meets whole.1)

/-- The rule for all the states of a run whose steps meet a side condition: where a step keeps what
holds exactly if it meets the condition, every state of the run has it exactly if every step met the
condition.  An invariant may go with what is kept. -/
theorem run_states_iff_of_meets (Invariant Good : State → Prop)
    {Side Condition : State → Label → Prop}
    (exact_ : ∀ state label next effects, Invariant state → Good state → Side state label →
      step state label = some (next, effects) →
        Invariant next ∧ (Good next ↔ Condition state label))
    {state last : State} {effects : List Effect} {labels : List Label} (holds : Invariant state)
    (good : Good state) (side : RunMeets step Side state labels)
    (ran : run step state labels = some (last, effects)) :
    (∀ before, before <+: labels → ∀ middle made,
      run step state before = some (middle, made) → Good middle) ↔
      RunMeets step Condition state labels := by
  induction labels generalizing state effects with
  | nil =>
      refine iff_of_true (fun before isPrefix middle made ranBefore => ?_) trivial
      rw [List.prefix_nil.mp isPrefix] at ranBefore
      cases ranBefore
      exact good
  | cons label labels ih =>
      obtain ⟨next, first, rest, stepped, later, _⟩ := run_cons ran
      obtain ⟨held, here⟩ := exact_ state label next first holds good side.1 stepped
      have sideLater := side.2 next first stepped
      rw [runMeets_cons_some stepped]
      constructor
      · intro all
        have after : Good next := by
          refine all [label] (List.prefix_cons_inj label |>.mpr List.nil_prefix) next _
            (run_of_step stepped (rfl : run step next [] = some (next, [])))
        refine ⟨here.mp after,
          (ih held after sideLater later).mp fun before isPrefix middle made ranBefore => ?_⟩
        exact all (label :: before) (List.prefix_cons_inj label |>.mpr isPrefix) middle _
          (run_of_step stepped ranBefore)
      · rintro ⟨met, meets⟩ before isPrefix middle made ranBefore
        cases before with
        | nil =>
            cases ranBefore
            exact good
        | cons other before =>
            obtain ⟨rfl, tailPrefix⟩ := List.cons_prefix_cons.mp isPrefix
            obtain ⟨reached, _, _, steppedToo, behind, _⟩ := run_cons ranBefore
            rw [stepped] at steppedToo
            cases steppedToo
            exact (ih held (here.mpr met) sideLater later).mpr meets before tailPrefix middle _
              behind

/-- The same for every run. -/
theorem run_states_iff (Good : State → Prop) {Condition : State → Label → Prop}
    (exact_ : ∀ state label next effects, Good state →
      step state label = some (next, effects) → (Good next ↔ Condition state label))
    {state last : State} {effects : List Effect} {labels : List Label} (good : Good state)
    (ran : run step state labels = some (last, effects)) :
    (∀ before, before <+: labels → ∀ middle made,
      run step state before = some (middle, made) → Good middle) ↔
      RunMeets step Condition state labels :=
  run_states_iff_of_meets (fun _ => True) Good
    (fun state label next effects _ good _ stepped =>
      ⟨trivial, exact_ state label next effects good stepped⟩)
    trivial good (RunMeets.always state labels) ran

/-- The rule for two systems in step: where each step of the second is matched by one of the
first, and what the two report agrees exactly if the condition is met, so it is for runs. -/
theorem run_forall₂_iff {Abstract Answer : Type*}
    {abstractStep : Abstract → Label → Option (Abstract × List Answer)}
    (Relates : State → Abstract → Prop) (Agree : Effect → Answer → Prop)
    {Condition : Abstract → Label → Prop}
    (simulates : ∀ state abstract label next answers, Relates state abstract →
      abstractStep abstract label = some (next, answers) →
        ∃ after effect answer, answers = [answer] ∧ step state label = some (after, [effect]) ∧
          Relates after next ∧ (Agree effect answer ↔ Condition abstract label))
    {state : State} {abstract last : Abstract} {answers : List Answer} {labels : List Label}
    (start : Relates state abstract)
    (ran : run abstractStep abstract labels = some (last, answers)) :
    ∃ final effects, run step state labels = some (final, effects) ∧ Relates final last ∧
      (List.Forall₂ Agree effects answers ↔
        RunMeets abstractStep Condition abstract labels) := by
  induction labels generalizing state abstract answers with
  | nil =>
      cases ran
      exact ⟨state, [], rfl, start, iff_of_true .nil trivial⟩
  | cons label labels ih =>
      obtain ⟨next, first, rest, stepped, later, rfl⟩ := run_cons ran
      obtain ⟨after, effect, answer, rfl, matched, related, agrees⟩ :=
        simulates state abstract label next first start stepped
      obtain ⟨final, effects, ranOn, relates, agree⟩ := ih related later
      refine ⟨final, [effect] ++ effects, run_of_step matched ranOn, relates, ?_⟩
      rw [List.singleton_append, List.singleton_append, List.forall₂_cons,
        runMeets_cons_some stepped, agrees, agree]

end TimeGANWebServer.Support
