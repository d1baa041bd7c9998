import TimeGANWebServer.Support.Lending
import Mathlib.Data.Fintype.Basic

/-!
# Threads that wait for a supply

Threads block on a condition variable until there is something to take.  Who adds to the supply
notifies one of them behind it, and a thread blocks only where it has found nothing.  Then a
blocked thread misses nothing: as long as there is one, what there is to take is no more than
the threads that are going to look at it and the notifications that are on their way.
-/

namespace TimeGANWebServer.Support

universe u v

variable {Thread : Type u} {Phase : Type v}

/-- Threads that are finitely many can be counted. -/
theorem Tally.exists_of_fintype [Fintype Thread] (Inside : Phase → Prop) (phases : Thread → Phase) :
    ∃ count, Tally Inside phases count := by
  classical
  refine ⟨_, Finset.univ.filter fun thread => Inside (phases thread), fun thread => ?_, rfl⟩
  rw [Finset.mem_filter, and_iff_right (Finset.mem_univ thread)]

theorem Tally.unique {Inside : Phase → Prop} {phases : Thread → Phase} {left right : Nat}
    (leftTally : Tally Inside phases left) (rightTally : Tally Inside phases right) :
    left = right := by
  obtain ⟨leftThreads, leftMem, rfl⟩ := leftTally
  obtain ⟨rightThreads, rightMem, rfl⟩ := rightTally
  congr 1
  exact Finset.ext fun thread => (leftMem thread).trans (rightMem thread).symm

/-- What a thread is doing at a condition variable: it is going to look at the supply, or it is
blocked. -/
structure Waiting (Phase : Type v) where
  Alert : Phase → Prop
  Blocked : Phase → Prop

/-- As long as a thread is blocked, there is an alert thread or a notification for each piece of
the supply. -/
def Attended (waiting : Waiting Phase) (phases : Thread → Phase) (notices supply : Nat) : Prop :=
  ∃ alert, Tally waiting.Alert phases alert ∧
    ((∃ thread, waiting.Blocked (phases thread)) → supply ≤ alert + notices)

namespace Attended

variable {waiting : Waiting Phase} {phases : Thread → Phase} {notices supply alert : Nat}
  {thread : Thread} {phase : Phase}

/-- No thread is blocked. -/
theorem of_noneBlocked (tally : Tally waiting.Alert phases alert)
    (none_ : ∀ thread, ¬waiting.Blocked (phases thread)) : Attended waiting phases notices supply :=
  ⟨alert, tally, fun blocked => absurd blocked.choose_spec (none_ blocked.choose)⟩

/-- There is nothing to take. -/
theorem of_nothing (tally : Tally waiting.Alert phases alert) :
    Attended waiting phases notices 0 :=
  ⟨alert, tally, fun _ => Nat.zero_le _⟩

/-- A blocked thread, no alert thread and no notification mean that there is nothing to take. -/
theorem nothing (attended : Attended waiting phases 0 supply)
    (blocked : ∃ thread, waiting.Blocked (phases thread))
    (quiet : ∀ thread, ¬waiting.Alert (phases thread)) : supply = 0 := by
  obtain ⟨alert, tally, enough⟩ := attended
  have zero : alert = 0 := tally.unique (.zero quiet)
  have bound := enough blocked
  omega

/-- There is less to take. -/
theorem mono (attended : Attended waiting phases notices supply) {less : Nat}
    (isLess : less ≤ supply) : Attended waiting phases notices less := by
  obtain ⟨alert, tally, enough⟩ := attended
  exact ⟨alert, tally, fun blocked => Nat.le_trans isLess (enough blocked)⟩

/-- The supply grows, and a notification is on its way. -/
theorem supplied (attended : Attended waiting phases notices supply) :
    Attended waiting phases (notices + 1) (supply + 1) := by
  obtain ⟨alert, tally, enough⟩ := attended
  refine ⟨alert, tally, fun blocked => ?_⟩
  have bound := enough blocked
  omega

/-- A notification finds no thread blocked. -/
theorem unheard (attended : Attended waiting phases (notices + 1) supply)
    (none_ : ∀ thread, ¬waiting.Blocked (phases thread)) :
    Attended waiting phases notices supply := by
  obtain ⟨alert, tally, _⟩ := attended
  exact of_noneBlocked tally none_

variable [DecidableEq Thread]

/-- A thread that does not get blocked leaves no other one blocked that was not. -/
theorem blocked_of_update (notBlocked : ¬waiting.Blocked phase)
    (blocked : ∃ other, waiting.Blocked (Function.update phases thread phase other)) :
    ∃ other, waiting.Blocked (phases other) := by
  obtain ⟨other, blocked⟩ := blocked
  by_cases same : other = thread
  · subst same
    rw [Function.update_self] at blocked
    exact absurd blocked notBlocked
  · rw [Function.update_of_ne same] at blocked
    exact ⟨other, blocked⟩

/-- A thread goes on elsewhere. -/
theorem stay (attended : Attended waiting phases notices supply)
    (same : waiting.Alert phase ↔ waiting.Alert (phases thread))
    (notBlocked : ¬waiting.Blocked phase) :
    Attended waiting (Function.update phases thread phase) notices supply := by
  obtain ⟨alert, tally, enough⟩ := attended
  exact ⟨alert, tally.stay same, fun blocked => enough (blocked_of_update notBlocked blocked)⟩

/-- A thread arrives, or wakes up by itself. -/
theorem arrive (attended : Attended waiting phases notices supply)
    (before : ¬waiting.Alert (phases thread)) (isAlert : waiting.Alert phase)
    (notBlocked : ¬waiting.Blocked phase) :
    Attended waiting (Function.update phases thread phase) notices supply := by
  obtain ⟨alert, tally, enough⟩ := attended
  refine ⟨alert + 1, tally.enter before isAlert, fun blocked => ?_⟩
  have bound := enough (blocked_of_update notBlocked blocked)
  omega

/-- A notification wakes a thread up. -/
theorem notified (attended : Attended waiting phases (notices + 1) supply)
    (before : ¬waiting.Alert (phases thread)) (isAlert : waiting.Alert phase)
    (notBlocked : ¬waiting.Blocked phase) :
    Attended waiting (Function.update phases thread phase) notices supply := by
  obtain ⟨alert, tally, enough⟩ := attended
  refine ⟨alert + 1, tally.enter before isAlert, fun blocked => ?_⟩
  have bound := enough (blocked_of_update notBlocked blocked)
  omega

/-- A thread takes a piece of the supply and goes. -/
theorem take (attended : Attended waiting phases notices (supply + 1))
    (isAlert : waiting.Alert (phases thread)) (behind : ¬waiting.Alert phase)
    (notBlocked : ¬waiting.Blocked phase) :
    Attended waiting (Function.update phases thread phase) notices supply := by
  obtain ⟨alert, tally, enough⟩ := attended
  obtain ⟨others, rfl⟩ := Nat.exists_eq_succ_of_ne_zero (Nat.ne_of_gt (tally.pos isAlert))
  refine ⟨others, tally.leave isAlert behind, fun blocked => ?_⟩
  have bound := enough (blocked_of_update notBlocked blocked)
  omega

/-- A thread has found nothing to take. -/
theorem leave (attended : Attended waiting phases notices 0)
    (isAlert : waiting.Alert (phases thread)) (behind : ¬waiting.Alert phase) :
    Attended waiting (Function.update phases thread phase) notices 0 := by
  obtain ⟨alert, tally, _⟩ := attended
  obtain ⟨others, rfl⟩ := Nat.exists_eq_succ_of_ne_zero (Nat.ne_of_gt (tally.pos isAlert))
  exact of_nothing (tally.leave isAlert behind)

/-- Such a thread blocks. -/
theorem block (attended : Attended waiting phases notices 0)
    (same : waiting.Alert phase ↔ waiting.Alert (phases thread)) :
    Attended waiting (Function.update phases thread phase) notices 0 := by
  obtain ⟨alert, tally, _⟩ := attended
  exact of_nothing (tally.stay same)

end Attended

end TimeGANWebServer.Support
