import Mathlib.Data.List.Nodup
import TimeGANWebServer.Support.Countdown
import TimeGANWebServer.Timer.Pooled

/-!
# The wheel keeps a schedule

A slot index together with a rotation count encodes how many ticks a node still
has to wait.  Reading that number off turns a wheel into a `Countdown`, and every
operation of the wheel into the corresponding operation on countdown timers.  The
firing tick of each timer then follows from the countdown rules alone.
-/

namespace TimeGANWebServer.Timer

open TimeGANWebServer.Support

universe u

namespace TimeWheel

variable {Addr : Type u} [DecidableEq Addr]

/-- The steps the cursor has to make to reach a slot. -/
def distance (slot cursor : Fin N) : Nat :=
  (slot + N - cursor) % N

/-- The ticks until the node's callback runs: the cursor reaches its slot, goes
round once for each rotation, and the callback runs in the tick that then
processes the slot. -/
def remaining (wheel : TimeWheel Addr) (timer : Addr) : Nat :=
  distance (wheel.timers timer).timeSlot wheel.curSlot +
    N * (wheel.timers timer).rotation + 1

/-- A slot `steps` ahead of the cursor, fewer than a whole round, is that far away. -/
theorem distance_ofNat (cursor : Fin N) (steps : Nat) :
    distance (Fin.ofNat N (cursor + steps % N)) cursor = steps % N := by
  have cursorLt := cursor.isLt
  simp only [distance, Fin.ofNat, N] at cursorLt ⊢
  omega

/-- The cursor is on a slot exactly when no step is left to reach it. -/
theorem distance_eq_zero_iff (slot cursor : Fin N) :
    distance slot cursor = 0 ↔ slot = cursor := by
  rw [Fin.ext_iff]
  have slotLt := slot.isLt
  have cursorLt := cursor.isLt
  simp only [distance, N] at slotLt cursorLt ⊢
  omega

/-- Moving the cursor brings every other slot one step nearer. -/
theorem distance_succ {slot cursor : Fin N} (different : slot ≠ cursor) :
    distance slot (Fin.ofNat N (cursor + 1)) + 1 = distance slot cursor := by
  have slotLt := slot.isLt
  have cursorLt := cursor.isLt
  have apart : slot.val ≠ cursor.val := fun equal => different (Fin.ext equal)
  simp only [distance, Fin.ofNat, N] at slotLt cursorLt ⊢
  omega

/-- Moving the cursor off a slot leaves a whole round but one to come back. -/
theorem distance_succ_self (cursor : Fin N) :
    distance cursor (Fin.ofNat N (cursor + 1)) + 1 = N := by
  have cursorLt := cursor.isLt
  simp only [distance, Fin.ofNat, N] at cursorLt ⊢
  omega

/-- The countdown timers a wheel stands for. -/
def countdown (wheel : TimeWheel Addr) : Countdown Addr :=
  fun timer => if wheel.Linked timer then some (wheel.remaining timer) else none

/-- `add_timer` starts a countdown one longer than the ticks of its timeout: the
tick that processes the current slot comes first. -/
theorem countdown_addTimer {wheel next : TimeWheel Addr} {timer : Addr} {timeout : Int}
    (added : wheel.addTimer timer timeout = some next) :
    next.countdown = wheel.countdown.start timer (ticksOf timeout + 1) := by
  have linked := linked_addTimer added
  simp only [addTimer] at added
  split at added
  · contradiction
  · cases added
    funext other
    simp only [countdown, linked, Countdown.start, Function.update_apply]
    by_cases equal : other = timer
    · subst other
      simp only [true_or, if_true, remaining, Function.update_self, distance_ofNat,
        Nat.mod_add_div]
    · simp only [equal, false_or, remaining, Function.update_of_ne (Ne.intro equal), if_false]

/-- `del_timer` cancels the countdown of its node. -/
theorem WF.countdown_delTimer {wheel : TimeWheel Addr} (wf : wheel.WF) (timer : Addr) :
    (wheel.delTimer timer).countdown = wheel.countdown.cancel timer := by
  funext other
  simp only [countdown, wf.linked_delTimer, Countdown.cancel, Function.update_apply]
  by_cases equal : other = timer
  · simp [equal]
  · simp only [equal, ne_eq, not_false_eq_true, true_and, if_false]
    rfl

/-- A node is due exactly when its countdown goes off at the next tick. -/
theorem WF.due_iff {wheel : TimeWheel Addr} (wf : wheel.WF) (timer : Addr) :
    wheel.Due timer ↔ wheel.countdown.GoesOff timer := by
  have here : timer ∈ wheel.slots wheel.curSlot ↔
      wheel.Linked timer ∧ (wheel.timers timer).timeSlot = wheel.curSlot := by
    rw [wf.linked_iff]
    constructor
    · intro member
      have slot := wf.timeSlot_eq _ timer member
      exact ⟨slot ▸ member, slot⟩
    · rintro ⟨member, slot⟩
      exact slot ▸ member
  simp only [Due, here, Countdown.GoesOff, countdown]
  by_cases linked : wheel.Linked timer
  · simp only [linked, true_and, if_true, Option.some.injEq, remaining,
      ← distance_eq_zero_iff, N]
    omega
  · simp [linked]

/-- `tick` lowers every countdown by one and drops those that go off. -/
theorem WF.countdown_tick {wheel : TimeWheel Addr} (wf : wheel.WF) :
    wheel.tick.wheel.countdown = wheel.countdown.tick := by
  funext timer
  have due := wf.due_iff timer
  simp only [countdown, Countdown.tick, wf.linked_tick]
  by_cases linked : wheel.Linked timer
  · have goesOff : wheel.countdown.GoesOff timer ↔ wheel.remaining timer = 1 := by
      simp [Countdown.GoesOff, countdown, linked]
    rw [goesOff] at due
    by_cases fires : wheel.remaining timer = 1
    · simp [linked, due.mpr fires, fires, Countdown.lower]
    · have stays : ¬wheel.Due timer := fun isDue => fires (due.mp isDue)
      have step : wheel.remaining timer = wheel.tick.wheel.remaining timer + 1 := by
        have slot := wf.linked_iff timer |>.mp linked
        simp only [remaining, TimeWheel.tick, tickList_timers _ _ (wf.nodup _)]
        by_cases current : (wheel.timers timer).timeSlot = wheel.curSlot
        · have member : timer ∈ wheel.slots wheel.curSlot := current ▸ slot
          have left : (wheel.timers timer).rotation ≠ 0 := fun zero => stays ⟨member, zero⟩
          have round := distance_succ_self wheel.curSlot
          have arrived := (distance_eq_zero_iff wheel.curSlot wheel.curSlot).mpr rfl
          simp only [member, if_true, UtilTimer.lower, current, arrived]
          simp only [N] at round ⊢
          omega
        · have absent : timer ∉ wheel.slots wheel.curSlot :=
            fun member => current (wf.timeSlot_eq _ timer member)
          have nearer := distance_succ current
          simp only [absent, if_false]
          omega
      simp only [linked, stays, not_false_eq_true, and_self, if_true, step]
      rw [show wheel.tick.wheel.remaining timer = wheel.tick.wheel.remaining timer - 1 + 1 by
        simp [remaining]]
      rfl
  · simp [linked, Countdown.lower]

/-- The user data of a node has nothing to do with its countdown. -/
theorem countdown_setUserData (wheel : TimeWheel Addr) (timer : Addr) (data : Nat) :
    (wheel.setUserData timer data).countdown = wheel.countdown := by
  funext other
  have kept : (wheel.setUserData timer data).remaining other = wheel.remaining other := by
    simp only [remaining, setUserData]
    by_cases equal : other = timer
    · subst equal
      rw [Function.update_self]
    · rw [Function.update_of_ne equal]
  simp only [countdown, linked_setUserData, kept]

end TimeWheel

/-! ## The wheel with its pool -/

namespace Timers

/-- `add_timer` starts the countdown of the node it gets from the pool. -/
theorem countdown_add {timers next : Timers} {timer data : Nat} {timeout : Int}
    (added : timers.add timeout data = some (timer, next)) :
    next.wheel.countdown = timers.wheel.countdown.start timer (ticksOf timeout + 1) := by
  simp only [add, Option.map_eq_some_iff, Prod.mk.injEq] at added
  obtain ⟨wheel, added, rfl, rfl⟩ := added
  rw [TimeWheel.countdown_setUserData, TimeWheel.countdown_addTimer added]

/-- `del_timer` cancels the countdown of the node it gives back to the pool. -/
theorem WF.countdown_remove {timers : Timers} (wf : timers.WF) (timer : Nat) :
    (timers.remove timer).wheel.countdown = timers.wheel.countdown.cancel timer :=
  wf.wheel.countdown_delTimer timer

end Timers

/-! ## Runs of the wheel's interface -/

/-- A call of the wheel's interface.  A timer is named by how many timers were
added before it, so that a name is never used again. -/
inductive WheelOp where
  | addTimer (timeout : Int)
  | delTimer (timer : Nat)
  | tick
  deriving DecidableEq, Repr

/-- A wheel in use, with the number of timers added so far. -/
structure WheelSession where
  wheel : TimeWheel Nat
  added : Nat

namespace WheelSession

/-- An empty wheel. -/
def start (timers : Nat → UtilTimer) : WheelSession where
  wheel := TimeWheel.empty timers
  added := 0

/-- Make one call.  `none` for the calls outside the interface: a negative
timeout, and a deletion of a timer that is not in the wheel. -/
def call (session : WheelSession) : WheelOp → Option WheelSession
  | .addTimer timeout =>
      (session.wheel.addTimer session.added timeout).map fun wheel =>
        { wheel := wheel, added := session.added + 1 }
  | .delTimer timer =>
      if session.wheel.Linked timer then
        some { session with wheel := session.wheel.delTimer timer }
      else
        none
  | .tick => some { session with wheel := session.wheel.tick.wheel }

/-- Make a sequence of calls. -/
def run (session : WheelSession) : List WheelOp → Option WheelSession
  | [] => some session
  | op :: ops => (session.call op).bind fun next => next.run ops

/-- The name the next added timer gets after these calls. -/
def nextTimer (ops : List WheelOp) : Nat :=
  ops.countP fun
    | .addTimer _ => true
    | _ => false

/-- The countdown operations a sequence of calls stands for, when `added` timers
were added before. -/
def countdownOps (added : Nat) : List WheelOp → List (Countdown.Op Nat)
  | [] => []
  | .addTimer timeout :: ops =>
      .start added (ticksOf timeout + 1) :: countdownOps (added + 1) ops
  | .delTimer timer :: ops => .cancel timer :: countdownOps added ops
  | .tick :: ops => .tick :: countdownOps added ops

/-- Only timers added so far are in the wheel, and the wheel is well formed. -/
structure WF (session : WheelSession) : Prop where
  wheel : session.wheel.WF
  named : ∀ timer, session.wheel.Linked timer → timer < session.added

theorem start_wf (timers : Nat → UtilTimer) : (start timers).WF where
  wheel := TimeWheel.empty_wf timers
  named := by simp [start]

/-- A call keeps a session well formed and performs its countdown operation. -/
theorem WF.call {session next : WheelSession} (wf : session.WF) {op : WheelOp}
    (called : session.call op = some next) :
    next.WF ∧ ∀ ops, session.wheel.countdown.run (countdownOps session.added (op :: ops)) =
      next.wheel.countdown.run (countdownOps next.added ops) := by
  cases op with
  | addTimer timeout =>
      simp only [WheelSession.call, Option.map_eq_some_iff] at called
      obtain ⟨wheel, added, rfl⟩ := called
      have fresh : ¬session.wheel.Linked session.added :=
        fun linked => Nat.lt_irrefl _ (wf.named _ linked)
      refine ⟨⟨wf.wheel.addTimer fresh added, ?_⟩, ?_⟩
      · intro timer linked
        rcases (TimeWheel.linked_addTimer added timer).mp linked with equal | older
        · exact equal ▸ Nat.lt_succ_self _
        · exact Nat.lt_succ_of_lt (wf.named timer older)
      · intro ops
        simp only [countdownOps, Countdown.run_cons, Countdown.apply]
        rw [TimeWheel.countdown_addTimer added]
  | delTimer timer =>
      simp only [WheelSession.call] at called
      split at called
      · cases called
        refine ⟨⟨wf.wheel.delTimer timer, ?_⟩, ?_⟩
        · intro other linked
          exact wf.named other ((wf.wheel.linked_delTimer timer other).mp linked).2
        · intro ops
          simp only [countdownOps, Countdown.run_cons, Countdown.apply]
          rw [wf.wheel.countdown_delTimer timer]
      · contradiction
  | tick =>
      cases called
      refine ⟨⟨wf.wheel.tick, ?_⟩, ?_⟩
      · intro timer linked
        exact wf.named timer ((wf.wheel.linked_tick timer).mp linked).1
      · intro ops
        simp only [countdownOps, Countdown.run_cons, Countdown.apply]
        rw [wf.wheel.countdown_tick]

/-- A sequence of calls does to the wheel's countdown timers what its countdown
operations do. -/
theorem WF.run {session next : WheelSession} (wf : session.WF) {ops : List WheelOp}
    (ran : session.run ops = some next) :
    next.WF ∧
      next.wheel.countdown =
        session.wheel.countdown.run (countdownOps session.added ops) ∧
      next.added = session.added + nextTimer ops := by
  induction ops generalizing session with
  | nil =>
      cases ran
      exact ⟨wf, rfl, rfl⟩
  | cons op ops ih =>
      simp only [WheelSession.run, Option.bind_eq_some_iff] at ran
      obtain ⟨middle, called, ran⟩ := ran
      obtain ⟨middleWF, countdown⟩ := wf.call called
      obtain ⟨nextWF, final, added⟩ := ih middleWF ran
      refine ⟨nextWF, final.trans (countdown ops).symm, added.trans ?_⟩
      cases op with
      | addTimer timeout =>
          simp only [WheelSession.call, Option.map_eq_some_iff] at called
          obtain ⟨wheel, -, rfl⟩ := called
          simp only [nextTimer, List.countP_cons, if_true]
          omega
      | delTimer timer =>
          simp only [WheelSession.call] at called
          split at called
          · cases called
            simp [nextTimer]
          · contradiction
      | tick =>
          cases called
          simp [nextTimer]

theorem run_append (session : WheelSession) (before after : List WheelOp) :
    session.run (before ++ after) =
      (session.run before).bind fun middle => middle.run after := by
  induction before generalizing session with
  | nil => rfl
  | cons op before ih =>
      cases called : session.call op with
      | none => simp [WheelSession.run, called]
      | some middle => simp [WheelSession.run, called, ih]

/-- Later additions never reuse an earlier name. -/
theorem countdownOps_not_starts {timer added : Nat} (ops : List WheelOp)
    (older : timer < added) : ∀ op ∈ countdownOps added ops, ¬op.Starts timer := by
  induction ops generalizing added with
  | nil => simp [countdownOps]
  | cons op ops ih =>
      cases op with
      | addTimer timeout =>
          simp only [countdownOps, List.forall_mem_cons]
          exact ⟨fun equal => Nat.ne_of_gt older equal, ih (Nat.lt_succ_of_lt older)⟩
      | delTimer other =>
          simp only [countdownOps, List.forall_mem_cons]
          exact ⟨fun starts => starts, ih older⟩
      | tick =>
          simp only [countdownOps, List.forall_mem_cons]
          exact ⟨fun starts => starts, ih older⟩

@[simp] theorem count_tick_countdownOps (added : Nat) (ops : List WheelOp) :
    (countdownOps added ops).count .tick = ops.count .tick := by
  induction ops generalizing added with
  | nil => rfl
  | cons op ops ih => cases op <;> simp [countdownOps, ih]

@[simp] theorem cancel_mem_countdownOps (added timer : Nat) (ops : List WheelOp) :
    .cancel timer ∈ countdownOps added ops ↔ .delTimer timer ∈ ops := by
  induction ops generalizing added with
  | nil => simp [countdownOps]
  | cons op ops ih => cases op <;> simp [countdownOps, ih]

/-- `max(1, timeout / SI)` ticks. -/
theorem ticksOf_eq_max {timeout : Int} (nonneg : 0 ≤ timeout) :
    (ticksOf timeout : Int) = max 1 (timeout / SI) := by
  simp only [ticksOf]
  split <;> simp only [SI] at * <;> omega

/-- **The firing tick of a timer.**  Take any calls on an empty wheel that add a
timer in between.  Whatever was called before and after, the next tick invokes
that timer's callback once if exactly `max(1, timeout / SI)` ticks have passed
since it was added and it has not been deleted, and does not invoke it
otherwise. -/
theorem callback_count_at_tick (timers : Nat → UtilTimer) (before after : List WheelOp)
    (timeout : Int) (session : WheelSession)
    (ran : (start timers).run (before ++ .addTimer timeout :: after) = some session) :
    session.wheel.tick.fired.count (nextTimer before) =
      if (after.count .tick : Int) = max 1 (timeout / SI) ∧
          .delTimer (nextTimer before) ∉ after then 1
      else 0 := by
  rw [run_append, Option.bind_eq_some_iff] at ran
  obtain ⟨middle, ranBefore, ranAfter⟩ := ran
  obtain ⟨middleWF, -, named⟩ := (start_wf timers).run ranBefore
  obtain ⟨sessionWF, countdown, -⟩ := middleWF.run ranAfter
  have name : middle.added = nextTimer before := by simpa [start] using named
  have nonneg : 0 ≤ timeout := by
    by_contra negative
    simp [WheelSession.run, WheelSession.call, TimeWheel.addTimer, Int.not_le.mp negative]
      at ranAfter
  have unstarted := countdownOps_not_starts after (Nat.lt_succ_self middle.added)
  have goesOff :
      ((middle.wheel.countdown.start middle.added (ticksOf timeout + 1)).run
          (countdownOps (middle.added + 1) after)).GoesOff middle.added ↔
        (countdownOps (middle.added + 1) after).count .tick = ticksOf timeout ∧
          .cancel middle.added ∉ countdownOps (middle.added + 1) after :=
    Countdown.goesOff_after_start _ unstarted
  rw [show (middle.wheel.countdown.start middle.added (ticksOf timeout + 1)).run _ =
    session.wheel.countdown from countdown.symm, ← sessionWF.wheel.due_iff,
    ← sessionWF.wheel.mem_fired] at goesOff
  have due : nextTimer before ∈ session.wheel.tick.fired ↔
      (after.count .tick : Int) = max 1 (timeout / SI) ∧
        .delTimer (nextTimer before) ∉ after := by
    rw [← ticksOf_eq_max nonneg, Int.natCast_inj]
    simpa only [name, count_tick_countdownOps, cancel_mem_countdownOps] using goesOff
  simp only [sessionWF.wheel.fired_nodup.count, due]

/-- Two timers share a slot, the first of them due a whole round later. -/
theorem callback_count_at_tick_shared_slot :
    ∃ session, (start fun _ => ⟨0, 0, 0⟩).run
        [.addTimer 62, .tick, .addTimer 0, .tick] = some session ∧
      session.wheel.tick.fired.count 1 = 1 := by
  refine ⟨_, rfl, ?_⟩
  exact callback_count_at_tick _ [.addTimer 62, .tick] [.tick] 0 _ rfl

end WheelSession

end TimeGANWebServer.Timer
