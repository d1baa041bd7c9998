import TimeGANWebServer.Support.Monitor
import TimeGANWebServer.Support.Run
import TimeGANWebServer.Support.Wakeups

/-!
# The semaphore

`sem` in `lock/locker.h`, made of a mutex and a condition variable, and used by any number of
threads.  `wait` takes several steps: the mutex is locked, the predicate is tested, the thread
releases the mutex and blocks, and once it is woken up it locks the mutex again.  The sections of
`post` and `init` are one step each, since they do not let go of the mutex.
-/

namespace TimeGANWebServer.Lock

open TimeGANWebServer.Support

/-- Where a thread is in `wait`.  When `testing`, `dozing` and `passed` it has the mutex: in front
of the predicate, behind it when it was false, and behind it when it was true. -/
inductive SemPhase where
  | idle
  | locking
  | testing
  | dozing
  | blocked
  | passed
  deriving DecidableEq, Repr

/-- `sem`, with the threads that use it. -/
structure Sem (Thread : Type) where
  count : Int
  mutex : Option Thread
  phases : Thread → SemPhase

/-- What a step does that others can see: `wait` or `post` returns, or the count is set. -/
inductive SemEvent (Thread : Type) where
  | waited (thread : Thread)
  | posted (thread : Thread)
  | set (num : Int)
  deriving DecidableEq, Repr

/-- A step of a thread.  `post` wakes some blocked thread, and none only where none is blocked; a
blocked thread may also wake up by itself. -/
inductive SemLabel (Thread : Type) where
  | wait (thread : Thread)
  | lock (thread : Thread)
  | test (thread : Thread)
  | block (thread : Thread)
  | wake (thread : Thread)
  | take (thread : Thread)
  | post (thread : Thread) (woken : Option Thread)
  | init (num : Int)
  deriving DecidableEq, Repr

/-- The semaphore after a step, and what the step did, if the step is possible. -/
abbrev SemNext (Thread : Type) := Option (Sem Thread × List (SemEvent Thread))

variable {Thread : Type}

namespace SemPhase

/-- The thread has the mutex. -/
def Locks : SemPhase → Prop
  | .testing | .dozing | .passed => True
  | _ => False

/-- The thread is going to look at the count, or has found it positive. -/
def Looks : SemPhase → Prop
  | .locking | .testing | .passed => True
  | _ => False

instance decidableLooks : (phase : SemPhase) → Decidable phase.Looks
  | .locking | .testing | .passed => .isTrue trivial
  | .idle | .dozing | .blocked => .isFalse id

/-- The threads at `m_cv`. -/
def waiting : Waiting SemPhase where
  Alert := Looks
  Blocked phase := phase = .blocked

end SemPhase

namespace Sem

/-- `sem::sem`. -/
def new (num : Int) : Sem Thread where
  count := num
  mutex := none
  phases := fun _ => .idle

section Steps

variable [DecidableEq Thread]

/-- Set the phase of a thread. -/
def setPhase (sem : Sem Thread) (thread : Thread) (phase : SemPhase) : Sem Thread :=
  { sem with phases := Function.update sem.phases thread phase }

/-- `wait` is called. -/
def wait (sem : Sem Thread) (thread : Thread) : SemNext Thread :=
  if sem.phases thread = .idle then some (sem.setPhase thread .locking, []) else none

/-- The thread locks the mutex, at the start of `wait` or woken up in it. -/
def lock (sem : Sem Thread) (thread : Thread) : SemNext Thread :=
  if sem.phases thread = .locking ∧ sem.mutex = none then
    some ({ sem with mutex := some thread }.setPhase thread .testing, [])
  else
    none

/-- The predicate of `wait` is tested. -/
def test (sem : Sem Thread) (thread : Thread) : SemNext Thread :=
  if sem.phases thread = .testing then
    some (sem.setPhase thread (if 0 < sem.count then .passed else .dozing), [])
  else
    none

/-- The thread releases the mutex and blocks. -/
def block (sem : Sem Thread) (thread : Thread) : SemNext Thread :=
  if sem.phases thread = .dozing then
    some ({ sem with mutex := none }.setPhase thread .blocked, [])
  else
    none

/-- The thread wakes up without having been notified. -/
def wake (sem : Sem Thread) (thread : Thread) : SemNext Thread :=
  if sem.phases thread = .blocked then some (sem.setPhase thread .locking, []) else none

/-- The count is decremented, and `wait` returns. -/
def take (sem : Sem Thread) (thread : Thread) : SemNext Thread :=
  if sem.phases thread = .passed then
    some ({ sem with count := sem.count - 1, mutex := none }.setPhase thread .idle,
      [.waited thread])
  else
    none

variable [Fintype Thread]

/-- No thread is blocked in `wait`. -/
def NoneBlocked (sem : Sem Thread) : Prop :=
  ∀ thread, sem.phases thread ≠ .blocked

instance decidableNoneBlocked (sem : Sem Thread) : Decidable sem.NoneBlocked :=
  inferInstanceAs (Decidable (∀ _, _))

/-- `sem::post`, called by a thread that is not in `wait`. -/
def post (sem : Sem Thread) (thread : Thread) (woken : Option Thread) : SemNext Thread :=
  if sem.phases thread = .idle ∧ sem.mutex = none then
    let posted := { sem with count := sem.count + 1 }
    match woken with
    | some other =>
        if sem.phases other = .blocked then
          some (posted.setPhase other .locking, [.posted thread])
        else
          none
    | none => if sem.NoneBlocked then some (posted, [.posted thread]) else none
  else
    none

/-- `sem::init`.  It notifies nobody. -/
def init (sem : Sem Thread) (num : Int) : SemNext Thread :=
  if sem.mutex = none then some ({ sem with count := num }, [.set num]) else none

/-- One step of a thread. -/
def step (sem : Sem Thread) : SemLabel Thread → SemNext Thread
  | .wait thread => sem.wait thread
  | .lock thread => sem.lock thread
  | .test thread => sem.test thread
  | .block thread => sem.block thread
  | .wake thread => sem.wake thread
  | .take thread => sem.take thread
  | .post thread woken => sem.post thread woken
  | .init num => sem.init num

/-! ## What a step does -/

/-- The steps that are possible, by what they do. -/
inductive Step (sem : Sem Thread) :
    SemLabel Thread → Sem Thread → List (SemEvent Thread) → Prop
  | called {thread} (idle : sem.phases thread = .idle) :
      Step sem (.wait thread) (sem.setPhase thread .locking) []
  | locked {thread} (locking : sem.phases thread = .locking) (free : sem.mutex = none) :
      Step sem (.lock thread) ({ sem with mutex := some thread }.setPhase thread .testing) []
  | passed {thread} (testing : sem.phases thread = .testing) (permit : 0 < sem.count) :
      Step sem (.test thread) (sem.setPhase thread .passed) []
  | failed {thread} (testing : sem.phases thread = .testing) (nothing : sem.count ≤ 0) :
      Step sem (.test thread) (sem.setPhase thread .dozing) []
  | blocked {thread} (dozing : sem.phases thread = .dozing) :
      Step sem (.block thread) ({ sem with mutex := none }.setPhase thread .blocked) []
  | woken {thread} (blocked : sem.phases thread = .blocked) :
      Step sem (.wake thread) (sem.setPhase thread .locking) []
  | taken {thread} (passed : sem.phases thread = .passed) :
      Step sem (.take thread)
        ({ sem with count := sem.count - 1, mutex := none }.setPhase thread .idle) [.waited thread]
  | notified {thread other} (idle : sem.phases thread = .idle) (free : sem.mutex = none)
      (blocked : sem.phases other = .blocked) :
      Step sem (.post thread (some other))
        ({ sem with count := sem.count + 1 }.setPhase other .locking) [.posted thread]
  | unheard {thread} (idle : sem.phases thread = .idle) (free : sem.mutex = none)
      (none_ : sem.NoneBlocked) :
      Step sem (.post thread none) { sem with count := sem.count + 1 } [.posted thread]
  | set {num} (free : sem.mutex = none) :
      Step sem (.init num) { sem with count := num } [.set num]

/-- A step of the semaphore is one of these. -/
theorem step_cases {sem next : Sem Thread} {label : SemLabel Thread}
    {events : List (SemEvent Thread)} (stepped : sem.step label = some (next, events)) :
    Step sem label next events := by
  cases label with
  | wait thread =>
      simp only [step, wait] at stepped
      split at stepped
      case isTrue idle =>
          cases stepped
          exact .called idle
      case isFalse => contradiction
  | lock thread =>
      simp only [step, lock] at stepped
      split at stepped
      case isTrue able =>
          cases stepped
          exact .locked able.1 able.2
      case isFalse => contradiction
  | test thread =>
      simp only [step, test] at stepped
      split at stepped
      case isTrue testing =>
          split at stepped
          case isTrue permit =>
              cases stepped
              exact .passed testing permit
          case isFalse nothing =>
              cases stepped
              exact .failed testing (Int.not_lt.mp nothing)
      case isFalse => contradiction
  | block thread =>
      simp only [step, block] at stepped
      split at stepped
      case isTrue dozing =>
          cases stepped
          exact .blocked dozing
      case isFalse => contradiction
  | wake thread =>
      simp only [step, wake] at stepped
      split at stepped
      case isTrue blocked =>
          cases stepped
          exact .woken blocked
      case isFalse => contradiction
  | take thread =>
      simp only [step, take] at stepped
      split at stepped
      case isTrue passed =>
          cases stepped
          exact .taken passed
      case isFalse => contradiction
  | post thread woken =>
      simp only [step, post] at stepped
      split at stepped
      case isTrue able =>
          cases woken with
          | some other =>
              simp only at stepped
              split at stepped
              case isTrue blocked =>
                  cases stepped
                  exact .notified able.1 able.2 blocked
              case isFalse => contradiction
          | none =>
              simp only at stepped
              split at stepped
              case isTrue none_ =>
                  cases stepped
                  exact .unheard able.1 able.2 none_
              case isFalse => contradiction
      case isFalse => contradiction
  | init num =>
      simp only [step, init] at stepped
      split at stepped
      case isTrue free =>
          cases stepped
          exact .set free
      case isFalse => contradiction

end Steps

end Sem

/-! ## The counting semaphore -/

/-- The count behind a call that takes effect at once: `wait` needs a permit. -/
def SemEvent.apply (count : Int) : SemEvent Thread → Option Int
  | .waited _ => if 0 < count then some (count - 1) else none
  | .posted _ => some (count + 1)
  | .set num => some num

/-- The count behind some calls, one after the other. -/
def countAfter (count : Int) (events : List (SemEvent Thread)) : Option Int :=
  events.foldlM SemEvent.apply count

theorem countAfter_append (count : Int) (first second : List (SemEvent Thread)) :
    countAfter count (first ++ second) = (countAfter count first).bind fun count =>
      countAfter count second :=
  List.foldlM_append

namespace Sem

/-- As long as a thread is blocked, there is for each permit a thread that is going to look at the
count. -/
def Attended (sem : Sem Thread) : Prop :=
  Support.Attended SemPhase.waiting sem.phases 0 sem.count.toNat

/-- What holds of a semaphore and of all that was done with it: whoever has found a permit, or
none, has the mutex, so that nobody else changes the count. -/
structure Sound (num : Int) (sem : Sem Thread) (log : List (SemEvent Thread)) : Prop where
  counts : countAfter num log = some sem.count
  locks : Guarded SemPhase.Locks sem.phases sem.mutex
  passed : ∀ thread, sem.phases thread = .passed → 0 < sem.count
  dozing : ∀ thread, sem.phases thread = .dozing → sem.count ≤ 0
  attended : sem.Attended

/-- `init` is called while no thread is blocked: it would not notify it. -/
def InitsUnwatched (sem : Sem Thread) : SemLabel Thread → Prop
  | .init _ => ∀ thread, sem.phases thread ≠ .blocked
  | _ => True

theorem sound_new (num : Int) : Sound num (new num : Sem Thread) [] where
  counts := rfl
  locks := fun _ => iff_of_false id nofun
  passed := fun _ => nofun
  dozing := fun _ => nofun
  attended := .of_noneBlocked (.zero fun _ => id) fun _ => nofun

section Keeps

variable [DecidableEq Thread] {sem next : Sem Thread} {num : Int}
  {label : SemLabel Thread} {log events : List (SemEvent Thread)}

theorem Step.locks (stepped : Step sem label next events)
    (locks : Guarded SemPhase.Locks sem.phases sem.mutex) :
    Guarded SemPhase.Locks next.phases next.mutex := by
  cases stepped with
  | called idle => exact locks.stay (by rw [idle]; exact Iff.rfl)
  | locked locking free =>
      rw [free] at locks
      exact locks.enter trivial
  | passed testing => exact locks.stay (by rw [testing]; exact Iff.rfl)
  | failed testing => exact locks.stay (by rw [testing]; exact Iff.rfl)
  | blocked dozing => exact locks.leave (by rw [dozing]; trivial) id
  | woken blocked => exact locks.stay (by rw [blocked]; exact Iff.rfl)
  | taken passed => exact locks.leave (by rw [passed]; trivial) id
  | notified _ _ blocked => exact locks.stay (by rw [blocked]; exact Iff.rfl)
  | unheard | set => exact locks

/-- What a thread with the mutex has found out about the count stays true. -/
theorem Step.found (Found : SemPhase → Int → Prop)
    (outside : ∀ phase count, ¬phase.Locks → Found phase count)
    (testing : ∀ count, Found .testing count)
    (passed : ∀ count, 0 < count → Found .passed count)
    (dozing : ∀ count, count ≤ 0 → Found .dozing count)
    (locks : Guarded SemPhase.Locks sem.phases sem.mutex)
    (stepped : Step sem label next events) (found : ∀ thread, Found (sem.phases thread) sem.count) :
    ∀ thread, Found (next.phases thread) next.count := by
  -- One thread goes on.
  have stay : ∀ changed phase, Found phase sem.count → ∀ thread,
      Found (Function.update sem.phases changed phase thread) sem.count := by
    intro changed phase new thread
    by_cases same : thread = changed
    · subst same
      rwa [Function.update_self]
    · rw [Function.update_of_ne same]
      exact found thread
  -- The count changes, and no other thread has the mutex.
  have change : ∀ changed phase count, Found phase count →
      (∀ thread, thread ≠ changed → ¬(sem.phases thread).Locks) → ∀ thread,
        Found (Function.update sem.phases changed phase thread) count := by
    intro changed phase count new alone thread
    by_cases same : thread = changed
    · subst same
      rwa [Function.update_self]
    · rw [Function.update_of_ne same]
      exact outside _ count (alone thread same)
  have nobody : sem.mutex = none → ∀ thread, ¬(sem.phases thread).Locks := by
    intro free
    rw [free] at locks
    exact locks.not_inside
  cases stepped with
  | called | blocked | woken => exact stay _ _ (outside _ _ id)
  | locked => exact stay _ _ (testing _)
  | passed _ permit => exact stay _ _ (passed _ permit)
  | failed _ nothing => exact stay _ _ (dozing _ nothing)
  | @taken thread isPassed =>
      refine change _ _ _ (outside _ _ id) fun other different inside => different ?_
      exact locks.exclusive (by rw [isPassed]; trivial) inside
  | notified _ free => exact change _ _ _ (outside _ _ id) fun thread _ => nobody free thread
  | unheard _ free => exact fun thread => outside _ _ (nobody free thread)
  | set free => exact fun thread => outside _ _ (nobody free thread)

theorem Sound.passed_step (sound : Sound num sem log) (stepped : Step sem label next events) :
    ∀ thread, next.phases thread = .passed → 0 < next.count :=
  stepped.found (fun phase count => phase = .passed → 0 < count)
    (fun _ _ outside isPassed => absurd (by rw [isPassed]; trivial) outside) (fun _ => nofun)
    (fun _ permit _ => permit) (fun _ _ => nofun) sound.locks sound.passed

theorem Sound.dozing_step (sound : Sound num sem log) (stepped : Step sem label next events) :
    ∀ thread, next.phases thread = .dozing → next.count ≤ 0 :=
  stepped.found (fun phase count => phase = .dozing → count ≤ 0)
    (fun _ _ outside dozing => absurd (by rw [dozing]; trivial) outside) (fun _ => nofun)
    (fun _ _ => nofun) (fun _ nothing _ => nothing) sound.locks sound.dozing

/-- Each call takes effect when it has the mutex. -/
theorem Sound.counts_step (sound : Sound num sem log) (stepped : Step sem label next events) :
    countAfter num (log ++ events) = some next.count := by
  rw [countAfter_append, sound.counts, Option.bind_some]
  cases stepped with
  | called | locked | passed | failed | blocked | woken => rfl
  | taken passed =>
      have permit := sound.passed _ passed
      simp only [countAfter, List.foldlM_cons, SemEvent.apply, if_pos permit, setPhase]
      rfl
  | notified | unheard | set => rfl

theorem Sound.attended_step (sound : Sound num sem log) (stepped : Step sem label next events)
    (unwatched : sem.InitsUnwatched label) : next.Attended := by
  have attended := sound.attended
  have nothing : sem.count ≤ 0 → sem.count.toNat = 0 := Int.toNat_of_nonpos
  cases stepped with
  | called idle => exact attended.arrive (by rw [idle]; exact id) trivial nofun
  | locked locking => exact attended.stay (by rw [locking]; exact Iff.rfl) nofun
  | passed testing => exact attended.stay (by rw [testing]; exact Iff.rfl) nofun
  | failed testing none_ =>
      rw [Attended, nothing none_] at attended
      rw [Attended]
      simp only [setPhase, nothing none_]
      exact attended.leave (by rw [testing]; trivial) id
  | blocked dozing =>
      have none_ := sound.dozing _ dozing
      rw [Attended, nothing none_] at attended
      rw [Attended]
      simp only [setPhase, nothing none_]
      exact attended.block (by rw [dozing]; exact Iff.rfl)
  | woken blocked => exact attended.arrive (by rw [blocked]; exact id) trivial nofun
  | taken passed =>
      have permit := sound.passed _ passed
      have less : sem.count.toNat = (sem.count - 1).toNat + 1 := by omega
      rw [Attended, less] at attended
      exact attended.take (by rw [passed]; trivial) id nofun
  | notified _ _ blocked =>
      have bound : (sem.count + 1).toNat ≤ sem.count.toNat + 1 := by omega
      exact (attended.supplied.mono bound).notified (by rw [blocked]; exact id) trivial nofun
  | unheard _ _ none_ =>
      obtain ⟨alert, tally, _⟩ := attended
      exact .of_noneBlocked tally none_
  | set =>
      obtain ⟨alert, tally, _⟩ := attended
      exact .of_noneBlocked tally unwatched

theorem Sound.step (sound : Sound num sem log) (stepped : Step sem label next events)
    (unwatched : sem.InitsUnwatched label) : Sound num next (log ++ events) where
  counts := sound.counts_step stepped
  locks := stepped.locks sound.locks
  passed := sound.passed_step stepped
  dozing := sound.dozing_step stepped
  attended := sound.attended_step stepped unwatched

end Keeps

/-- In every run in which `init` finds nobody blocked, the calls of `wait`, `post` and `init` are
those of a counting semaphore on which each of them takes effect at once, and no thread is blocked
while there are more permits than threads on their way to them. -/
theorem sound_of_run [DecidableEq Thread] [Fintype Thread] {num : Int}
    {labels : List (SemLabel Thread)} {sem : Sem Thread} {log : List (SemEvent Thread)}
    (ran : run step (new num) labels = some (sem, log))
    (unwatched : RunMeets step InitsUnwatched (new num : Sem Thread) labels) :
    countAfter num log = some sem.count ∧ sem.Attended := by
  have sound : Sound num sem ([] ++ log) :=
    run_invariant (Sound num)
      (fun _ _ _ _ _ sound unwatched stepped => sound.step (step_cases stepped) unwatched)
      (sound_new num) unwatched ran
  exact ⟨sound.counts, sound.attended⟩

instance decidableInitsUnwatched [Fintype Thread] (sem : Sem Thread) :
    (label : SemLabel Thread) → Decidable (sem.InitsUnwatched label)
  | .init _ => inferInstanceAs (Decidable (∀ _, _))
  | .wait _ | .lock _ | .test _ | .block _ | .wake _ | .take _ | .post _ _ => .isTrue trivial

/-- One permit for two threads: the second one is woken up when the first one posts. -/
def twoWaits : List (SemLabel Bool) :=
  [.init 1, .wait false, .lock false, .test false, .take false, .wait true, .lock true,
    .test true, .block true, .post false (some true), .lock true, .test true, .take true]

theorem sound_twoWaits : ∃ sem log, run step (new 0 : Sem Bool) twoWaits = some (sem, log) ∧
    countAfter 0 log = some sem.count ∧ sem.Attended := by
  have possible : (run step (new 0 : Sem Bool) twoWaits).isSome := by
    decide +kernel
  obtain ⟨⟨sem, log⟩, ran⟩ := Option.isSome_iff_exists.mp possible
  exact ⟨sem, log, ran, sound_of_run ran (by decide +kernel)⟩

end Sem

end TimeGANWebServer.Lock
