import Mathlib.Logic.Function.Basic

/-!
# Countdown timers

The abstract purpose of any tick-driven timer facility: each running timer
carries the number of ticks it still has to wait, every tick lowers all of them
together, and a timer whose last tick has come goes off and disappears.  Nothing
is said about how the timers are stored.
-/

namespace TimeGANWebServer.Support

universe u

/-- The ticks every timer still has to wait; `none` for a timer that is not
running.  A timer showing `some 1` goes off at the next tick. -/
abbrev Countdown (Timer : Type u) := Timer → Option Nat

/-- What can happen to a set of countdown timers. -/
inductive Countdown.Op (Timer : Type u) where
  | start (timer : Timer) (ticks : Nat)
  | cancel (timer : Timer)
  | tick
  deriving DecidableEq

namespace Countdown

variable {Timer : Type u} [DecidableEq Timer]

/-- Start a timer, replacing whatever it was doing before. -/
def start (timers : Countdown Timer) (timer : Timer) (ticks : Nat) : Countdown Timer :=
  Function.update timers timer (some ticks)

/-- Stop a timer without letting it go off. -/
def cancel (timers : Countdown Timer) (timer : Timer) : Countdown Timer :=
  Function.update timers timer none

/-- One timer's share of a tick. -/
def lower : Option Nat → Option Nat
  | some (ticks + 2) => some (ticks + 1)
  | _ => none

omit [DecidableEq Timer] in
/-- One tick of the clock. -/
def tick (timers : Countdown Timer) : Countdown Timer :=
  fun timer => lower (timers timer)

omit [DecidableEq Timer] in
/-- The timer goes off at the next tick. -/
def GoesOff (timers : Countdown Timer) (timer : Timer) : Prop :=
  timers timer = some 1

instance (timers : Countdown Timer) (timer : Timer) :
    Decidable (timers.GoesOff timer) :=
  inferInstanceAs (Decidable (timers timer = some 1))

/-- Apply one operation. -/
def apply (timers : Countdown Timer) : Op Timer → Countdown Timer
  | .start timer ticks => timers.start timer ticks
  | .cancel timer => timers.cancel timer
  | .tick => timers.tick

/-- Apply a sequence of operations, first one first. -/
def run (timers : Countdown Timer) (ops : List (Op Timer)) : Countdown Timer :=
  ops.foldl apply timers

@[simp] theorem run_nil (timers : Countdown Timer) : timers.run [] = timers := rfl

@[simp] theorem run_cons (timers : Countdown Timer) (op : Op Timer)
    (ops : List (Op Timer)) : timers.run (op :: ops) = (timers.apply op).run ops := rfl

/-- The operation starts this timer. -/
def Op.Starts (timer : Timer) : Op Timer → Prop
  | .start other _ => other = timer
  | _ => False

/-- A timer that is not running and not started stays that way. -/
theorem run_idle {timers : Countdown Timer} {timer : Timer} {ops : List (Op Timer)}
    (idle : timers timer = none) (unstarted : ∀ op ∈ ops, ¬op.Starts timer) :
    timers.run ops timer = none := by
  induction ops generalizing timers with
  | nil => exact idle
  | cons op ops ih =>
      apply ih
      · cases op with
        | start other ticks =>
            have different : timer ≠ other :=
              fun equal => unstarted _ List.mem_cons_self equal.symm
            simp [apply, start, Function.update_of_ne different, idle]
        | cancel other =>
            by_cases equal : timer = other <;>
              simp [apply, cancel, Function.update, equal, ← idle]
        | tick => simp [apply, tick, idle, lower]
      · exact fun later member => unstarted later (List.mem_cons_of_mem _ member)

/-- A running timer that is left alone counts down by one for each tick, and is
gone once it has been cancelled or its ticks have all passed. -/
theorem run_running {timers : Countdown Timer} {timer : Timer} {ticks : Nat}
    {ops : List (Op Timer)} (running : timers timer = some ticks) (positive : 0 < ticks)
    (unstarted : ∀ op ∈ ops, ¬op.Starts timer) :
    timers.run ops timer =
      if .cancel timer ∈ ops ∨ ticks ≤ ops.count .tick then none
      else some (ticks - ops.count .tick) := by
  induction ops generalizing timers ticks with
  | nil =>
      have nonzero : ticks ≠ 0 := Nat.ne_of_gt positive
      simp [running, nonzero]
  | cons op ops ih =>
      have rest : ∀ op ∈ ops, ¬op.Starts timer :=
        fun later member => unstarted later (List.mem_cons_of_mem _ member)
      cases op with
      | start other started =>
          have different : timer ≠ other :=
            fun equal => unstarted _ List.mem_cons_self equal.symm
          have kept : timers.apply (.start other started) timer = some ticks := by
            simp [apply, start, Function.update_of_ne different, running]
          simp [ih kept positive rest]
      | cancel other =>
          by_cases equal : other = timer
          · subst other
            have stopped : timers.apply (.cancel timer) timer = none := by
              simp [apply, cancel]
            simp [run_idle stopped rest]
          · have kept : timers.apply (.cancel other) timer = some ticks := by
              simp [apply, cancel, Function.update_of_ne (Ne.symm equal), running]
            simp [ih kept positive rest, Ne.symm equal]
      | tick =>
          match ticks with
          | 1 =>
              have fired : timers.apply .tick timer = none := by
                simp [apply, tick, running, lower]
              simp [run_idle fired rest]
          | ticks + 2 =>
              have lowered : timers.apply .tick timer = some (ticks + 1) := by
                simp [apply, tick, running, lower]
              simp [ih lowered (Nat.succ_pos _) rest]

/-- **A started timer goes off exactly once, on its own tick.**  After any
operations that do not start it again, it goes off at the next tick exactly when
all but one of its ticks have passed and it was not cancelled meanwhile. -/
theorem goesOff_after_start (timers : Countdown Timer) {timer : Timer} {ticks : Nat}
    {ops : List (Op Timer)} (unstarted : ∀ op ∈ ops, ¬op.Starts timer) :
    ((timers.start timer (ticks + 1)).run ops).GoesOff timer ↔
      ops.count .tick = ticks ∧ .cancel timer ∉ ops := by
  have running : timers.start timer (ticks + 1) timer = some (ticks + 1) := by
    simp [start]
  rw [GoesOff, run_running running (Nat.succ_pos _) unstarted]
  by_cases cancelled : .cancel timer ∈ ops
  · simp [cancelled]
  · by_cases passed : ticks + 1 ≤ ops.count .tick
    · simp [passed]
      omega
    · simp [cancelled, passed]
      omega

end Countdown

end TimeGANWebServer.Support
