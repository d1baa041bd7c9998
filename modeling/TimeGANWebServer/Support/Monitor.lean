import Mathlib.Logic.Function.Basic

/-!
# Threads and a mutex

Each thread is in some phase, and has the mutex in some of the phases only.  Changing the
phase of one thread at a time keeps the two in step: a thread stays on its side of the
lock, locks a free mutex, or unlocks the one it has.
-/

namespace TimeGANWebServer.Support

universe u v

variable {Thread : Type u} {Phase : Type v}

/-- The threads in the phases inside of the lock are the holder of the mutex. -/
def Guarded (Inside : Phase → Prop) (phases : Thread → Phase) (mutex : Option Thread) : Prop :=
  ∀ thread, Inside (phases thread) ↔ mutex = some thread

namespace Guarded

variable {Inside : Phase → Prop} {phases : Thread → Phase} {mutex : Option Thread}
  {thread : Thread} {phase : Phase}

/-- With the mutex free, no thread is inside. -/
theorem not_inside (guarded : Guarded Inside phases none) (thread : Thread) :
    ¬Inside (phases thread) :=
  fun inside => nomatch (guarded thread).mp inside

/-- At most one thread is inside. -/
theorem exclusive (guarded : Guarded Inside phases mutex) {other : Thread}
    (inside : Inside (phases thread)) (otherInside : Inside (phases other)) : other = thread := by
  have holds := (guarded thread).mp inside
  rw [(guarded other).mp otherInside, Option.some.injEq] at holds
  exact holds

variable [DecidableEq Thread]

theorem stay (guarded : Guarded Inside phases mutex)
    (same : Inside phase ↔ Inside (phases thread)) :
    Guarded Inside (Function.update phases thread phase) mutex := by
  intro other
  by_cases equal : other = thread
  · subst equal
    rw [Function.update_self, same]
    exact guarded other
  · rw [Function.update_of_ne equal]
    exact guarded other

theorem enter (guarded : Guarded Inside phases none) (inside : Inside phase) :
    Guarded Inside (Function.update phases thread phase) (some thread) := by
  intro other
  by_cases equal : other = thread
  · subst equal
    rw [Function.update_self]
    exact iff_of_true inside rfl
  · rw [Function.update_of_ne equal, Option.some.injEq]
    exact iff_of_false (guarded.not_inside other) (Ne.symm equal)

theorem leave (guarded : Guarded Inside phases mutex) (inside : Inside (phases thread))
    (outside : ¬Inside phase) :
    Guarded Inside (Function.update phases thread phase) none := by
  intro other
  refine iff_of_false ?_ nofun
  by_cases equal : other = thread
  · subst equal
    rwa [Function.update_self]
  · rw [Function.update_of_ne equal]
    exact fun otherInside => equal (guarded.exclusive inside otherInside)

end Guarded

end TimeGANWebServer.Support
