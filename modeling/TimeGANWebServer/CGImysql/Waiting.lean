import TimeGANWebServer.CGImysql.ConnectionPool
import TimeGANWebServer.Lock.Semaphore
import TimeGANWebServer.Support.Refinement

/-!
# Waiting for a connection

The connection pool on the semaphore of `lock/locker.h`: where `ConnectionPool.lean` has one step
for `reserve.wait()` and one for `reserve.post()`, threads now lock the mutex of the semaphore,
block and are woken up.  What they do to the pool is what they do there.
-/

namespace TimeGANWebServer.CGImysql

open TimeGANWebServer.Lock TimeGANWebServer.Support

/-- The pool with its threads, and the mutex and the threads in `wait` of `reserve`, whose count is
the member of the pool. -/
structure Shared (Thread Conn : Type) where
  base : State Thread Conn
  mutex : Option Thread
  waits : Thread → SemPhase

/-- A step of the pool other than at the semaphore, a step inside of `reserve.wait()`, the end of
it, or `reserve.post()`. -/
inductive SharedLabel (Thread Conn : Type) where
  | sizeTest (thread : Thread)
  | wait (thread : Thread)
  | lock (thread : Thread)
  | test (thread : Thread)
  | block (thread : Thread)
  | wake (thread : Thread)
  | acquire (thread : Thread)
  | take (thread : Thread)
  | release (thread : Thread) (con : Option Conn)
  | post (thread : Thread) (woken : Option Thread)
  deriving DecidableEq, Repr

/-- What a step is for the pool: inside of `reserve.wait()` nothing happens to it. -/
def SharedLabel.poolLabels {Thread Conn : Type} : SharedLabel Thread Conn → List (Label Thread Conn)
  | .sizeTest thread => [.sizeTest thread]
  | .wait _ | .lock _ | .test _ | .block _ | .wake _ => []
  | .acquire thread => [.wait thread]
  | .take thread => [.take thread]
  | .release thread con => [.release thread con]
  | .post thread _ => [.post thread]

variable {Thread Conn : Type}

namespace Shared

/-- A pool that no thread has used yet. -/
def start (pool : ConnectionPool Conn) : Shared Thread Conn where
  base := State.start pool
  mutex := none
  waits := fun _ => .idle

/-- `reserve`. -/
def sem (shared : Shared Thread Conn) : Sem Thread where
  count := shared.base.pool.reserve
  mutex := shared.mutex
  phases := shared.waits

/-- Store `reserve`. -/
def setSem (shared : Shared Thread Conn) (sem : Sem Thread) : Shared Thread Conn where
  base := { shared.base with pool := { shared.base.pool with reserve := sem.count } }
  mutex := sem.mutex
  waits := sem.phases

/-- A step of the pool. -/
def ofPool (shared : Shared Thread Conn) (next : Next Thread Conn) :
    Option (Shared Thread Conn × List (Event Thread Conn)) :=
  next.map fun next => ({ shared with base := next.1 }, next.2)

theorem ofPool_cases {shared next : Shared Thread Conn} {events : List (Event Thread Conn)}
    {made : Next Thread Conn} (stepped : shared.ofPool made = some (next, events)) :
    made = some (next.base, events) ∧ next.sem.mutex = shared.mutex ∧ next.waits =
      shared.waits := by
  obtain ⟨⟨base, log⟩, rfl, same⟩ := Option.map_eq_some_iff.mp stepped
  cases same
  exact ⟨rfl, rfl, rfl⟩

section Steps

variable [DecidableEq Thread] [Fintype Thread]

/-- A step at the semaphore by a thread that is in some phase of the pool, and in another one
behind it. -/
def atSem (shared : Shared Thread Conn) (thread : Thread) (before behind : Phase)
    (label : SemLabel Thread) : Option (Shared Thread Conn × List (Event Thread Conn)) :=
  if shared.base.phases thread = before then
    (shared.sem.step label).map fun next =>
      let after := shared.setSem next.1
      ({ after with base := after.base.setPhase thread behind }, [])
  else
    none

/-- One step of a thread. -/
def step [DecidableEq Conn] (shared : Shared Thread Conn) :
    SharedLabel Thread Conn → Option (Shared Thread Conn × List (Event Thread Conn))
  | .sizeTest thread => shared.ofPool (shared.base.step (.sizeTest thread))
  | .wait thread => shared.atSem thread .waiting .waiting (.wait thread)
  | .lock thread => shared.atSem thread .waiting .waiting (.lock thread)
  | .test thread => shared.atSem thread .waiting .waiting (.test thread)
  | .block thread => shared.atSem thread .waiting .waiting (.block thread)
  | .wake thread => shared.atSem thread .waiting .waiting (.wake thread)
  | .acquire thread => shared.atSem thread .waiting .granted (.take thread)
  | .take thread => shared.ofPool (shared.base.step (.take thread))
  | .release thread con => shared.ofPool (shared.base.step (.release thread con))
  | .post thread woken => shared.atSem thread .posting .idle (.post thread woken)

theorem atSem_cases {shared next : Shared Thread Conn} {thread : Thread}
    {events : List (Event Thread Conn)} {before behind : Phase} {label : SemLabel Thread}
    (stepped : shared.atSem thread before behind label = some (next, events)) :
    shared.base.phases thread = before ∧ events = [] ∧ ∃ semEvents,
      Sem.Step shared.sem label next.sem semEvents ∧
        next.base = State.setPhase { shared.base with
          pool := { shared.base.pool with reserve := next.sem.count } } thread behind := by
  simp only [atSem] at stepped
  split at stepped
  case isTrue isBefore =>
      obtain ⟨⟨sem, semEvents⟩, semStepped, same⟩ := Option.map_eq_some_iff.mp stepped
      cases same
      exact ⟨isBefore, rfl, semEvents, Sem.step_cases semStepped, rfl⟩
  case isFalse => contradiction

end Steps

end Shared

/-! ## The semaphore keeps its invariant -/

/-- A step that leaves the semaphore alone keeps its count and the threads in front of it. -/
theorem State.Step.keeps [DecidableEq Thread] [DecidableEq Conn] {state next : State Thread Conn}
    {label : Label Thread Conn} {events : List (Event Thread Conn)}
    (stepped : State.Step state label next events) (notWait : ∀ thread, label ≠ .wait thread)
    (notPost : ∀ thread, label ≠ .post thread) :
    next.pool.reserve = state.pool.reserve ∧
      ∀ thread, state.phases thread = .waiting → next.phases thread = .waiting := by
  have other : ∀ changed phase, state.phases changed ≠ .waiting → ∀ thread,
      state.phases thread = .waiting →
        Function.update state.phases changed phase thread = .waiting := by
    intro changed phase notWaiting thread waiting
    have different : thread ≠ changed := by
      rintro rfl
      exact notWaiting waiting
    rwa [Function.update_of_ne different]
  cases stepped with
  | refused | null => exact ⟨rfl, fun _ waiting => waiting⟩
  | tested idle => exact ⟨rfl, other _ _ (by rw [idle]; nofun)⟩
  | waited => exact absurd rfl (notWait _)
  | nothing granted => exact ⟨rfl, other _ _ (by rw [granted]; nofun)⟩
  | taken granted => exact ⟨rfl, other _ _ (by rw [granted]; nofun)⟩
  | released idle => exact ⟨rfl, other _ _ (by rw [idle]; nofun)⟩
  | posted => exact absurd rfl (notPost _)

/-- Only a thread that calls `wait` gets into it. -/
theorem waits_of_step [DecidableEq Thread] {sem next : Sem Thread} {label : SemLabel Thread}
    {events : List (SemEvent Thread)} (stepped : Sem.Step sem label next events) (thread : Thread)
    (inside : next.phases thread ≠ .idle) : sem.phases thread ≠ .idle ∨ label = .wait thread := by
  -- The thread that goes on was inside before.
  have other : ∀ changed phase, sem.phases changed ≠ .idle →
      Function.update sem.phases changed phase thread ≠ .idle → sem.phases thread ≠ .idle := by
    intro changed phase before behind
    by_cases same : thread = changed
    · rwa [same]
    · rwa [Function.update_of_ne same] at behind
  cases stepped with
  | @called caller idle =>
      by_cases same : thread = caller
      · exact .inr (by rw [same])
      · simp only [Sem.setPhase, Function.update_of_ne same] at inside
        exact .inl inside
  | locked locking => exact .inl (other _ _ (by simp [locking]) inside)
  | passed testing => exact .inl (other _ _ (by simp [testing]) inside)
  | failed testing => exact .inl (other _ _ (by simp [testing]) inside)
  | blocked dozing => exact .inl (other _ _ (by simp [dozing]) inside)
  | woken blocked => exact .inl (other _ _ (by simp [blocked]) inside)
  | taken passed => exact .inl (other _ _ (by simp [passed]) inside)
  | notified _ _ blocked => exact .inl (other _ _ (by simp [blocked]) inside)
  | unheard | set => exact .inl inside

theorem idle_of_take [DecidableEq Thread] {sem next : Sem Thread} {thread : Thread}
    {events : List (SemEvent Thread)} (stepped : Sem.Step sem (.take thread) next events) :
    next.phases thread = .idle := by
  cases stepped with
  | taken => exact Function.update_self _ _ _

namespace Shared

/-- The semaphore is sound, and the threads in its `wait` are in `GetConnection`. -/
structure Sound (shared : Shared Thread Conn) : Prop where
  sem : ∃ num log, Sem.Sound num shared.sem log
  inside : ∀ thread, shared.waits thread ≠ .idle → shared.base.phases thread = .waiting

theorem sound_start (pool : ConnectionPool Conn) : (start pool : Shared Thread Conn).Sound where
  sem := ⟨pool.reserve, [], Sem.sound_new pool.reserve⟩
  inside := fun _ inside => absurd rfl inside

/-- A step of the pool leaves the semaphore alone. -/
theorem Sound.ofPool [DecidableEq Thread] [DecidableEq Conn] {shared next : Shared Thread Conn}
    {events : List (Event Thread Conn)} (sound : shared.Sound) {label : Label Thread Conn}
    (notWait : ∀ thread, label ≠ .wait thread) (notPost : ∀ thread, label ≠ .post thread)
    (stepped : shared.ofPool (shared.base.step label) = some (next, events)) : next.Sound := by
  obtain ⟨made, sameMutex, sameWaits⟩ := ofPool_cases stepped
  obtain ⟨sameCount, waiting⟩ := (State.step_cases made).keeps notWait notPost
  have sameSem : next.sem = shared.sem := by
    simp only [Shared.sem] at sameMutex ⊢
    rw [sameCount, sameWaits, sameMutex]
  refine ⟨sameSem ▸ sound.sem, fun thread inside => waiting thread (sound.inside thread ?_)⟩
  rwa [← sameWaits]

section Keeps

variable [DecidableEq Thread] [Fintype Thread] {shared next : Shared Thread Conn}
  {events : List (Event Thread Conn)} {thread : Thread}

/-- A step at the semaphore. -/
theorem Sound.atSem (sound : shared.Sound) {before behind : Phase} {label : SemLabel Thread}
    (notInit : ∀ num, label ≠ .init num) (own : ∀ other, label = .wait other → other = thread)
    (leaves : behind = .waiting ∨ ∀ semEvents, Sem.Step shared.sem label next.sem semEvents →
      shared.base.phases thread = before → next.waits thread = .idle)
    (stepped : shared.atSem thread before behind label = some (next, events)) : next.Sound := by
  obtain ⟨isBefore, _, semEvents, semStepped, base⟩ := atSem_cases stepped
  obtain ⟨num, log, semSound⟩ := sound.sem
  constructor
  · have unwatched : shared.sem.InitsUnwatched label := by
      cases label with
      | init num => exact absurd rfl (notInit num)
      | wait | lock | test | block | wake | take | post => trivial
    exact ⟨num, log ++ semEvents, semSound.step semStepped unwatched⟩
  · intro other inside
    rw [base]
    by_cases same : other = thread
    · subst same
      rcases leaves with rfl | leaves
      · exact Function.update_self _ _ _
      · exact absurd (leaves semEvents semStepped isBefore) inside
    · simp only [State.setPhase, Function.update_of_ne same]
      rcases waits_of_step semStepped other inside with before | calls
      · exact sound.inside other before
      · exact absurd (own other calls) same

variable [DecidableEq Conn] {label : SharedLabel Thread Conn}

theorem Sound.step (sound : shared.Sound) (stepped : shared.step label = some (next, events)) :
    next.Sound := by
  cases label with
  | sizeTest | take | release => refine sound.ofPool ?_ ?_ stepped <;> nofun
  | wait thread =>
      refine sound.atSem ?_ (fun _ same => (SemLabel.wait.inj same).symm) (.inl rfl) stepped
      nofun
  | lock | test | block | wake => refine sound.atSem ?_ ?_ (.inl rfl) stepped <;> nofun
  | acquire thread =>
      refine sound.atSem ?_ ?_ (.inr fun _ semStepped _ => idle_of_take semStepped)
        stepped <;> nofun
  | post thread woken =>
      refine sound.atSem ?_ ?_ (.inr fun _ semStepped isPosting => ?_) stepped
      · nofun
      · nofun
      by_contra inside
      rcases waits_of_step semStepped thread inside with before | calls
      · have waiting := sound.inside thread before
        rw [isPosting] at waiting
        contradiction
      · contradiction

/-! ## What happens to the pool -/

/-- Inside of `wait` nothing happens to the pool. -/
theorem base_of_atSem {semLabel : SemLabel Thread}
    (sameCount : ∀ semEvents, Sem.Step shared.sem semLabel next.sem semEvents →
      next.sem.count = shared.sem.count)
    (stepped : shared.atSem thread .waiting .waiting semLabel = some (next, events)) :
    run State.step shared.base [] = some (next.base, events) := by
  obtain ⟨waiting, rfl, semEvents, semStepped, base⟩ := atSem_cases stepped
  rw [base, sameCount semEvents semStepped]
  simp only [State.setPhase, ← waiting, Function.update_eq_self]
  rfl

/-- A step at the semaphore, or elsewhere, is a step of the pool with a semaphore on which `wait`
and `post` take effect at once. -/
theorem Sound.refines (sound : shared.Sound) (stepped : shared.step label = some (next, events)) :
    run State.step shared.base label.poolLabels = some (next.base, events) := by
  obtain ⟨num, log, semSound⟩ := sound.sem
  cases label with
  | sizeTest | take | release => exact run_singleton (ofPool_cases stepped).1
  | wait | lock | test | block | wake =>
      refine base_of_atSem (fun semEvents semStepped => ?_) stepped
      generalize next.sem = sem at semStepped ⊢
      cases semStepped <;> rfl
  | acquire thread =>
      obtain ⟨waiting, rfl, semEvents, semStepped, base⟩ := atSem_cases stepped
      have found : 0 < shared.sem.count ∧ next.sem.count = shared.sem.count - 1 := by
        generalize next.sem = sem at semStepped ⊢
        cases semStepped with
        | taken passed => exact ⟨semSound.passed thread passed, rfl⟩
      refine run_singleton ?_
      simp only [State.step, State.wait]
      rw [if_pos ⟨waiting, found.1⟩, base, found.2]
      rfl
  | post thread woken =>
      obtain ⟨posting, rfl, semEvents, semStepped, base⟩ := atSem_cases stepped
      have grown : next.sem.count = shared.sem.count + 1 := by
        generalize next.sem = sem at semStepped ⊢
        cases semStepped <;> rfl
      refine run_singleton ?_
      simp only [State.step, State.post]
      rw [if_pos posting, base, grown]
      rfl

end Keeps

/-! ## Runs -/

/-- No thread is on its way between the semaphore and the list, or about to look at the count. -/
structure AtRest (shared : Shared Thread Conn) : Prop where
  noneLooks : ∀ thread, ¬(shared.waits thread).Looks
  noneGranted : ∀ thread, shared.base.phases thread ≠ .granted
  nonePosting : ∀ thread, shared.base.phases thread ≠ .posting

variable [DecidableEq Thread] [Fintype Thread] [DecidableEq Conn]

/-- Every run of the pool on the semaphore of `locker.h` is one of the pool on a counting
semaphore, and no thread is left blocked while a connection is in the list: if nobody is on the
way to or from the list, the threads have all connections. -/
theorem waits_for_connections {conns : List Conn} {pool : ConnectionPool Conn}
    {labels : List (SharedLabel Thread Conn)} {shared : Shared Thread Conn}
    {log : List (Event Thread Conn)} (distinct : conns.Nodup)
    (made : ConnectionPool.new.init (conns.map some) = some pool)
    (ran : run step (start pool) labels = some (shared, log)) :
    run State.step (State.start pool) (labels.flatMap SharedLabel.poolLabels) =
        some (shared.base, log) ∧
      ((∃ thread, shared.waits thread = .blocked) → shared.AtRest →
        shared.base.pool.connList = [] ∧ ∀ con ∈ conns, ∃ thread,
          con ∈ shared.base.held thread) := by
  have keeps : ∀ (shared : Shared Thread Conn) label next events, shared.Sound →
      shared.step label = some (next, events) → next.Sound :=
    fun _ _ _ _ sound stepped => sound.step stepped
  have sound : shared.Sound := run_state_always Sound keeps (sound_start pool) ran
  have ranPool := run_refines Sound base SharedLabel.poolLabels keeps
    (fun _ _ _ _ sound stepped => sound.refines stepped) (sound_start pool) ran
  refine ⟨ranPool, ?_⟩
  rintro ⟨thread, blocked⟩ rest
  have poolSound : CGImysql.Sound conns shared.base ([] ++ log) :=
    run_invariant (CGImysql.Sound conns)
      (fun _ _ _ _ _ sound _ stepped => sound.step (State.step_cases stepped))
      (CGImysql.Sound.start distinct made) (RunMeets.always _ _) ranPool
  obtain ⟨num, semLog, semSound⟩ := sound.sem
  have noPermit : shared.base.pool.reserve.toNat = 0 :=
    semSound.attended.nothing ⟨thread, blocked⟩ rest.noneLooks
  obtain ⟨granted, posting, grantedTally, postingTally, balance, _⟩ := poolSound.balanced
  have noneGranted : granted = 0 := grantedTally.unique (.zero rest.noneGranted)
  have nonePosting : posting = 0 := postingTally.unique (.zero rest.nonePosting)
  have empty : shared.base.pool.connList = [] := List.eq_nil_of_length_eq_zero (by omega)
  refine ⟨empty, fun con member => ?_⟩
  rcases (poolSound.conserved.mem_iff con).mp member with inList | held
  · rw [empty] at inList
    contradiction
  · exact held

/-- Two threads find the one connection in the list; the second one is blocked when the first one
has taken it. -/
def oneConnection : List (SharedLabel (Fin 2) (Fin 1)) :=
  [.sizeTest 0, .sizeTest 1, .wait 0, .wait 1, .lock 0, .test 0, .acquire 0, .lock 1, .test 1,
    .take 0, .block 1]

theorem waits_for_connections_one : ∃ pool, ConnectionPool.new.init [some 0] = some pool ∧
    ∃ shared log, run step (start pool) oneConnection = some (shared, log) ∧
      shared.waits 1 = .blocked ∧ shared.base.pool.connList = [] ∧
        ∃ thread, 0 ∈ shared.base.held thread := by
  refine ⟨_, rfl, ?_⟩
  have facts : (run step (start ⟨1, 0, 1, [0], 1⟩) oneConnection).map (fun last =>
      (last.1.waits 0, last.1.waits 1, last.1.base.phases 0, last.1.base.phases 1)) =
        some (.idle, .blocked, .idle, .waiting) := by
    decide +kernel
  obtain ⟨⟨shared, log⟩, ran, same⟩ := Option.map_eq_some_iff.mp facts
  simp only [Prod.mk.injEq] at same
  obtain ⟨idle, blocked, first, second⟩ := same
  have rest : shared.AtRest := by
    refine ⟨?_, ?_, ?_⟩
    · exact Fin.forall_fin_two.mpr ⟨by rw [idle]; exact id, by rw [blocked]; exact id⟩
    · exact Fin.forall_fin_two.mpr ⟨by rw [first]; nofun, by rw [second]; nofun⟩
    · exact Fin.forall_fin_two.mpr ⟨by rw [first]; nofun, by rw [second]; nofun⟩
  have all := (@waits_for_connections _ _ _ _ _ [0] _ oneConnection shared log (by decide) rfl
    ran).2 ⟨1, blocked⟩ rest
  exact ⟨shared, log, ran, blocked, all.1, all.2 0 List.mem_cons_self⟩

end Shared

end TimeGANWebServer.CGImysql
