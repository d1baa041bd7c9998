import TimeGANWebServer.Support.Refinement

/-!
# Steps made in parts

A thread makes some of its steps in parts, and the others take steps between them.  Each of these
steps has a point of commitment.  If a step of another thread that is taken in front of it might as
well have been taken before the first part, and one that is taken behind it might as well be taken
after the last part, then each run is one in which the steps are made at once, up to the order of
what the threads do side by side.
-/

namespace TimeGANWebServer.Support

universe u v w x

variable {State : Type u} {Label : Type v} {Effect : Type w} {Part : Type x}

/-- The steps that are made in parts: the first part of a label, what a part does and the part
behind it, and the parts behind the commitment. -/
structure Blocks (State : Type u) (Label : Type v) (Effect : Type w) (Part : Type x) where
  first : Label → Option Part
  part : Part → State → Option (State × List Effect × Option Part)
  Committed : Part → Prop

/-- A state, and the step that is being made with its next part. -/
structure Parted (State : Type u) (Label : Type v) (Part : Type x) where
  state : State
  block : Option (Label × Part)

/-- A step that is made at once, the first part of a step, or the next part. -/
inductive PartLabel (Label : Type v) where
  | whole (label : Label)
  | begin (label : Label)
  | go

/-- The step that is made or begun. -/
def PartLabel.label : PartLabel Label → Option Label
  | .whole label | .begin label => some label
  | .go => none

namespace Blocks

/-- The next part of a step. -/
def go (blocks : Blocks State Label Effect Part) (state : State) (label : Label) (part : Part) :
    Option (Parted State Label Part × List Effect) :=
  (blocks.part part state).map fun next =>
    ({ state := next.1, block := next.2.2.map fun later => (label, later) }, next.2.1)

/-- A step where some are made in parts.  Meanwhile the other threads take free ones. -/
def partedStep (blocks : Blocks State Label Effect Part)
    (step : State → Label → Option (State × List Effect)) (Free : Label → Prop)
    [DecidablePred Free] (parted : Parted State Label Part) :
    PartLabel Label → Option (Parted State Label Part × List Effect)
  | .whole label =>
      if (blocks.first label).isNone ∧ (parted.block.isNone ∨ Free label) then
        (step parted.state label).map fun next => ({ parted with state := next.1 }, next.2)
      else
        none
  | .begin label =>
      match parted.block, blocks.first label with
      | none, some part => blocks.go parted.state label part
      | _, _ => none
  | .go =>
      match parted.block with
      | some (label, part) => blocks.go parted.state label part
      | none => none

/-- The parts from one on to the last lead to a state. -/
inductive Through (blocks : Blocks State Label Effect Part) :
    Part → State → List Effect → State → Prop where
  | last {part state effects last} (made : blocks.part part state = some (last, effects, none)) :
      Through blocks part state effects last
  | more {part state effects next later rest last}
      (made : blocks.part part state = some (next, effects, some later))
      (through : Through blocks later next rest last) :
      Through blocks part state (effects ++ rest) last

/-- The parts of a label in front of one lead to a state. -/
inductive Reached (blocks : Blocks State Label Effect Part) (label : Label) (start : State) :
    Part → State → List Effect → Prop where
  | start {part} (first : blocks.first label = some part) : Reached blocks label start part start []
  | go {part middle before later state effects}
      (reached : Reached blocks label start part middle before)
      (made : blocks.part part middle = some (state, effects, some later)) :
      Reached blocks label start later state (before ++ effects)

/-- What the parts have to do with the steps: a free step that is taken in front of the commitment
moves over the part before it, and one that is taken behind it moves over the part after it.  The
first of these may rest on an invariant, which the steps keep that meet a condition. -/
structure Moves (blocks : Blocks State Label Effect Part)
    (step : State → Label → Option (State × List Effect)) (Free : Label → Prop)
    (Invariant : State → Prop) (Condition : State → Label → Prop)
    (Apart : Part → State → Label → Prop) : Prop where
  keeps : ∀ {state label next effects}, Invariant state → Condition state label →
    step state label = some (next, effects) → Invariant next
  unconditional : ∀ {state label}, Free label ∨ blocks.first label ≠ none → Condition state label
  notFree : ∀ {label part}, blocks.first label = some part → ¬Free label
  whole : ∀ {label part state effects last}, blocks.first label = some part →
    blocks.Through part state effects last → step state label = some (last, effects)
  ends : ∀ {part}, blocks.Committed part → ∀ state, ∃ effects last,
    blocks.Through part state effects last
  stays : ∀ {part state next effects later}, blocks.Committed part →
    blocks.part part state = some (next, effects, some later) → blocks.Committed later
  apart : ∀ {label start part state effects other}, Invariant start →
    blocks.Reached label start part state effects → ¬blocks.Committed part → Free other →
      Apart part state other
  before : ∀ {part middle state effects later other next made},
    blocks.part part middle = some (state, effects, some later) → ¬blocks.Committed later →
      Free other → Apart later state other → step state other = some (next, made) →
        ∃ early, step middle other = some (early, made) ∧
          blocks.part part early = some (next, effects, some later)
  behind : ∀ {part state middle effects later other next made},
    blocks.part part state = some (middle, effects, later) → blocks.Committed part → Free other →
      step state other = some (next, made) →
        ∃ late, step middle other = some (late, made) ∧
          blocks.part part next = some (late, effects, later)

variable {blocks : Blocks State Label Effect Part}
  {step : State → Label → Option (State × List Effect)} {Free : Label → Prop}
  {Invariant : State → Prop} {Condition : State → Label → Prop}
  {Apart : Part → State → Label → Prop} {label other : Label} {part : Part}
  {start state next last : State} {effects made : List Effect}

theorem Reached.first (reached : blocks.Reached label start part state effects) :
    ∃ first, blocks.first label = some first := by
  induction reached with
  | start first => exact ⟨_, first⟩
  | go _ _ ih => exact ih

/-- The parts of a label together are its step. -/
theorem Reached.whole (moves : blocks.Moves step Free Invariant Condition Apart)
    (reached : blocks.Reached label start part state effects)
    (through : blocks.Through part state made last) :
    step start label = some (last, effects ++ made) := by
  induction reached generalizing made with
  | start first => exact moves.whole first through
  | go _ partMade ih =>
      rw [List.append_assoc]
      exact ih (.more partMade through)

/-- A free step in front of the commitment is taken before the first part. -/
theorem Reached.before (moves : blocks.Moves step Free Invariant Condition Apart)
    (holds : Invariant start) (reached : blocks.Reached label start part state effects)
    (uncommitted : ¬blocks.Committed part) (free : Free other)
    (stepped : step state other = some (next, made)) :
    ∃ early, step start other = some (early, made) ∧
      blocks.Reached label early part next effects := by
  induction reached generalizing next with
  | start first => exact ⟨next, stepped, .start first⟩
  | go reached partMade ih =>
      have apart := moves.apart holds (.go reached partMade) uncommitted free
      obtain ⟨middle, moved, again⟩ := moves.before partMade uncommitted free apart stepped
      have open_ := fun committed => uncommitted (moves.stays committed partMade)
      obtain ⟨early, first, reachedToo⟩ := ih open_ moved
      exact ⟨early, first, .go reachedToo again⟩

/-- A free step behind the commitment is taken after the last part. -/
theorem Through.behind (moves : blocks.Moves step Free Invariant Condition Apart)
    (through : blocks.Through part state effects last) (committed : blocks.Committed part)
    (free : Free other) (stepped : step state other = some (next, made)) :
    ∃ late, step last other = some (late, made) ∧ blocks.Through part next effects late := by
  induction through generalizing next with
  | last partMade =>
      obtain ⟨late, moved, again⟩ := moves.behind partMade committed free stepped
      exact ⟨late, moved, .last again⟩
  | more partMade _ ih =>
      obtain ⟨middle, moved, again⟩ := moves.behind partMade committed free stepped
      obtain ⟨late, behind, throughToo⟩ := ih (moves.stays committed partMade) moved
      exact ⟨late, behind, .more again throughToo⟩

/-- A state in which the steps are made at once matches one in which they are made in parts: between
two steps it is the same; in front of the commitment it has still to make the step, whose first
effects it lacks; behind the commitment it has made the step, and has its last effects in
advance. -/
inductive Matches (blocks : Blocks State Label Effect Part) (state : State) :
    Parted State Label Part → List Label → List Effect → List Effect → Prop where
  | between : Matches blocks state { state := state, block := none } [] [] []
  | before {label part middle effects} (reached : blocks.Reached label state part middle effects)
      (uncommitted : ¬blocks.Committed part) :
      Matches blocks state { state := middle, block := some (label, part) } [label] effects []
  | behind {label part middle effects} (through : blocks.Through part middle effects state)
      (committed : blocks.Committed part) :
      Matches blocks state { state := middle, block := some (label, part) } [] [] effects

variable [DecidablePred Free]

/-- The steps of one thread. -/
def ofThread (Mine : Label → Prop) [DecidablePred Mine] (labels : List Label) : List Label :=
  labels.filter fun label => Mine label

/-- The steps made at once that stand for a run in parts, in which the steps `said` were made or
begun: the thread that makes its steps in parts and the free steps each keep their order. -/
structure Stands (step : State → Label → Option (State × List Effect)) (Free : Label → Prop)
    [DecidablePred Free] (Condition : State → Label → Prop) (start : State)
    (said others owed : List Label) (state : State) (made : List Effect) : Prop where
  ran : run step start others = some (state, made)
  meets : RunMeets step Condition start others
  free : ofThread Free others = ofThread Free said
  main : ofThread (fun label => ¬Free label) others ++ owed =
    ofThread (fun label => ¬Free label) said

/-- A run in parts has a run of steps that stands for it. -/
def Reducible (blocks : Blocks State Label Effect Part)
    (step : State → Label → Option (State × List Effect)) (Free : Label → Prop)
    [DecidablePred Free] (Invariant : State → Prop) (Condition : State → Label → Prop)
    (start : State) (said : List Label) (parted : Parted State Label Part)
    (log : List Effect) : Prop :=
  ∃ others owed state made early late, Invariant state ∧
    Stands step Free Condition start said others owed state made ∧
    blocks.Matches state parted owed early late ∧ (made ++ early).Perm (log ++ late)

variable {said others owed : List Label} {parted after : Parted State Label Part}
  {middle : State} {log early : List Effect}

omit [DecidablePred Free] in
theorem ofThread_snoc (Mine : Label → Prop) [DecidablePred Mine] (labels : List Label)
    (label : Label) :
    ofThread Mine (labels ++ [label]) =
      ofThread Mine labels ++ if Mine label then [label] else [] := by
  simp only [ofThread, List.filter_append, List.filter_cons, List.filter_nil, decide_eq_true_eq]

/-- The steps go on with a free one. -/
theorem Stands.free_step (stands : Stands step Free Condition start said others owed state made)
    (free : Free other) (meets : Condition state other)
    (stepped : step state other = some (next, effects)) :
    Stands step Free Condition start (said ++ [other]) (others ++ [other]) owed next
      (made ++ effects) where
  ran := run_of_runs stands.ran (run_singleton stepped)
  meets := stands.meets.snoc stands.ran meets
  free := by rw [ofThread_snoc, ofThread_snoc, stands.free]
  main := by
    simp only [ofThread_snoc, not_true_eq_false, free, if_false, List.append_nil, stands.main]

/-- The steps go on with one of the thread that makes its steps in parts. -/
theorem Stands.main_step (stands : Stands step Free Condition start said others [label] state made)
    (notFree : ¬Free label) (meets : Condition state label)
    (stepped : step state label = some (next, effects)) :
    Stands step Free Condition start said (others ++ [label]) [] next (made ++ effects) where
  ran := run_of_runs stands.ran (run_singleton stepped)
  meets := stands.meets.snoc stands.ran meets
  free := by simp only [ofThread_snoc, notFree, if_false, List.append_nil, stands.free]
  main := by
    rw [ofThread_snoc, if_pos notFree, List.append_nil]
    exact stands.main

/-- That thread begins a step. -/
theorem Stands.begins (stands : Stands step Free Condition start said others [] state made)
    (notFree : ¬Free label) :
    Stands step Free Condition start (said ++ [label]) others [label] state made where
  ran := stands.ran
  meets := stands.meets
  free := by simp only [ofThread_snoc, notFree, if_false, List.append_nil, stands.free]
  main := by
    have main := stands.main
    rw [List.append_nil] at main
    rw [ofThread_snoc, if_pos notFree, main]

/-- The next part of a step whose parts so far have not committed it. -/
theorem Reducible.go (moves : blocks.Moves step Free Invariant Condition Apart)
    (holds : Invariant state)
    (stands : Stands step Free Condition start said others [label] state made)
    (reached : blocks.Reached label state part middle early)
    (perm : (made ++ early).Perm log)
    (went : blocks.go middle label part = some (after, effects)) :
    blocks.Reducible step Free Invariant Condition start said after (log ++ effects) := by
  obtain ⟨⟨next, happened, later⟩, partMade, same⟩ := Option.map_eq_some_iff.mp went
  cases same
  obtain ⟨first, begins⟩ := reached.first
  have meets : Condition state label := moves.unconditional (.inr (by simp [begins]))
  -- The part commits the step, so that the other system makes it now.
  have commits : ∀ {rest last block}, blocks.Through part middle (happened ++ rest) last →
      blocks.Matches last { state := next, block := block } [] [] rest →
      blocks.Reducible step Free Invariant Condition start said { state := next, block := block }
        (log ++ happened) := by
    intro rest last block through matches_
    have stepped := reached.whole moves through
    refine ⟨_, _, last, _, _, _, moves.keeps holds meets stepped,
      stands.main_step (moves.notFree begins) meets stepped, matches_, ?_⟩
    rw [List.append_nil, ← List.append_assoc, ← List.append_assoc]
    exact (perm.append_right happened).append_right rest
  cases later with
  | none => exact commits (by rw [List.append_nil]; exact .last partMade) .between
  | some later =>
      by_cases committed : blocks.Committed later
      · obtain ⟨rest, last, through⟩ := moves.ends committed next
        exact commits (.more partMade through) (.behind through committed)
      · refine ⟨others, [label], state, made, early ++ happened, [], holds, stands,
          .before (.go reached partMade) committed, ?_⟩
        rw [List.append_nil, ← List.append_assoc]
        exact perm.append_right happened

omit [DecidablePred Free] in
theorem perm_append_swap (first second third : List Effect) :
    (first ++ second ++ third).Perm (first ++ third ++ second) := by
  rw [List.append_assoc, List.append_assoc]
  exact List.perm_append_comm.append_left first

/-- A step of a thread, or a part of one, where parts are made in between. -/
theorem Reducible.proceeds (moves : blocks.Moves step Free Invariant Condition Apart)
    {partLabel : PartLabel Label}
    (reducible : blocks.Reducible step Free Invariant Condition start said parted log)
    (meets : ∀ label, partLabel = .whole label → Condition parted.state label)
    (stepped : blocks.partedStep step Free parted partLabel = some (after, effects)) :
    blocks.Reducible step Free Invariant Condition start (said ++ partLabel.label.toList) after
      (log ++ effects) := by
  obtain ⟨others, owed, state, made, early, late, holds, stands, matches_, perm⟩ := reducible
  cases partLabel with
  | whole label =>
      simp only [partedStep] at stepped
      split at stepped
      case isFalse => contradiction
      case isTrue possible =>
          obtain ⟨⟨next, happened⟩, taken, same⟩ := Option.map_eq_some_iff.mp stepped
          cases same
          cases matches_ with
          | between =>
              have met := meets label rfl
              have kept := moves.keeps holds met taken
              rw [List.append_nil, List.append_nil] at perm
              have permNow : (made ++ happened ++ []).Perm (log ++ happened ++ []) := by
                rw [List.append_nil, List.append_nil]
                exact perm.append_right happened
              by_cases free : Free label
              · exact ⟨_, _, _, _, _, _, kept, stands.free_step free met taken, .between, permNow⟩
              · exact ⟨_, _, _, _, _, _, kept, (stands.begins free).main_step free met taken,
                  .between, permNow⟩
          | before reached uncommitted =>
              have free : Free label := possible.2.resolve_left (by simp)
              have met : Condition state label := moves.unconditional (.inl free)
              obtain ⟨next, early_, reachedToo⟩ :=
                reached.before moves holds uncommitted free taken
              refine ⟨_, _, next, _, _, _, moves.keeps holds met early_,
                stands.free_step free met early_, .before reachedToo uncommitted, ?_⟩
              rw [List.append_nil] at perm ⊢
              refine (perm_append_swap made happened early).trans ?_
              exact perm.append_right happened
          | behind through committed =>
              have free : Free label := possible.2.resolve_left (by simp)
              have met : Condition state label := moves.unconditional (.inl free)
              obtain ⟨next, late_, throughToo⟩ := through.behind moves committed free taken
              refine ⟨_, _, next, _, _, _, moves.keeps holds met late_,
                stands.free_step free met late_, .behind throughToo committed, ?_⟩
              rw [List.append_nil] at perm ⊢
              exact (perm.append_right happened).trans (perm_append_swap log late happened)
  | begin label =>
      simp only [partedStep] at stepped
      cases matches_ with
      | between =>
          split at stepped
          case _ part _ first =>
              rw [List.append_nil, List.append_nil] at perm
              refine Reducible.go moves holds (stands.begins (moves.notFree first))
                (.start first) ?_
                stepped
              rwa [List.append_nil]
          case _ => contradiction
      | before | behind => contradiction
  | go =>
      simp only [partedStep] at stepped
      simp only [PartLabel.label, Option.toList_none, List.append_nil]
      cases matches_ with
      | between => contradiction
      | before reached uncommitted =>
          rw [List.append_nil] at perm
          exact Reducible.go moves holds stands reached perm stepped
      | behind through committed =>
          obtain ⟨⟨next, happened, later⟩, partMade, same⟩ := Option.map_eq_some_iff.mp stepped
          cases same
          cases through with
          | last lastMade =>
              rw [lastMade] at partMade
              cases partMade
              refine ⟨_, _, _, _, [], [], holds, stands, .between, ?_⟩
              rwa [List.append_nil (log ++ _)]
          | more moreMade through =>
              rw [moreMade] at partMade
              cases partMade
              refine ⟨_, _, _, _, [], _, holds, stands,
                .behind through (moves.stays committed moreMade), ?_⟩
              rwa [List.append_assoc log]

/-- **Reduction**: each run in which steps are made in parts ends, between two steps, where a run
does in which they are made at once, with the same effects in some order; each thread makes the same
steps in the same order. -/
theorem Moves.reduces (moves : blocks.Moves step Free Invariant Condition Apart)
    (holds : Invariant start) {labels : List (PartLabel Label)}
    (meets : RunMeets (blocks.partedStep step Free)
      (fun parted partLabel => ∀ label, partLabel = .whole label → Condition parted.state label)
      { state := start, block := none } labels)
    (ran : run (blocks.partedStep step Free) { state := start, block := none } labels =
      some ({ state := last, block := none }, effects)) :
    ∃ others made, run step start others = some (last, made) ∧ made.Perm effects ∧
      RunMeets step Condition start others ∧
      ofThread Free others = ofThread Free (labels.filterMap PartLabel.label) ∧
      ofThread (fun label => ¬Free label) others =
        ofThread (fun label => ¬Free label) (labels.filterMap PartLabel.label) := by
  have begin_ : blocks.Reducible step Free Invariant Condition start
      (([] : List (PartLabel Label)).filterMap PartLabel.label)
        { state := start, block := none } [] :=
    ⟨[], [], start, [], [], [], holds, ⟨rfl, trivial, rfl, rfl⟩, .between, .nil⟩
  have reducible := run_history
    (fun labels parted log => blocks.Reducible step Free Invariant Condition start
      (labels.filterMap PartLabel.label) parted log)
    (fun labels parted log partLabel next effects before met stepped => by
      have after := Reducible.proceeds moves before met stepped
      rw [List.filterMap_append]
      cases partLabel with
      | whole label | begin label | go => exact after)
    begin_ meets ran
  obtain ⟨others, owed, state, made, early, late, _, stands, matches_, perm⟩ := reducible
  cases matches_ with
  | between =>
      have main := stands.main
      rw [List.append_nil] at main
      rw [List.append_nil, List.append_nil] at perm
      exact ⟨others, made, stands.ran, perm, stands.meets, stands.free, main⟩

end Blocks

end TimeGANWebServer.Support
