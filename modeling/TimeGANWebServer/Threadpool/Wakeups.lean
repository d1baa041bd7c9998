import TimeGANWebServer.Support.Wakeups
import TimeGANWebServer.Threadpool.Queue

/-!
# Waking the workers

`append` and `append_p` notify one worker for each request, behind the section in which the
request is pushed.  The worker that is woken up need not be the one that takes the request, and
the notification may find nobody blocked.
-/

namespace TimeGANWebServer.Threadpool

open TimeGANWebServer.Support

variable {Worker Caller Request : Type}

namespace WorkerPhase

/-- The worker is going to look at the queue, or has found a request there. -/
def Looks : WorkerPhase Request → Prop
  | .locking | .testing | .passed => True
  | _ => False

instance decidableLooks : (phase : WorkerPhase Request) → Decidable phase.Looks
  | .locking | .testing | .passed => .isTrue trivial
  | .dozing | .blocked | .working _ | .exited => .isFalse id

/-- The workers at `m_queue_cv`. -/
def waiting : Waiting (WorkerPhase Request) where
  Alert := Looks
  Blocked phase := phase = .blocked

@[simp] theorem waiting_blocked (phase : WorkerPhase Request) :
    waiting.Blocked phase ↔ phase = .blocked :=
  Iff.rfl

end WorkerPhase

namespace Pool

/-- As long as a worker is blocked, there is for each request in the queue a worker that is going
to look at it, or a caller that is about to notify one. -/
def Attended (pool : Pool Worker Caller Request) : Prop :=
  ∃ notices, Tally (fun phase => phase = .notifying) pool.callers notices ∧
    Support.Attended WorkerPhase.waiting pool.workers notices pool.queue.length

/-- A request is in the queue, a worker is blocked, and nobody is going to do anything about
it. -/
structure Overslept (pool : Pool Worker Caller Request) : Prop where
  request : pool.queue ≠ []
  blocked : ∃ worker, pool.workers worker = .blocked
  noneLooks : ∀ worker, ¬(pool.workers worker).Looks
  noNotify : ∀ caller, pool.callers caller ≠ .notifying

theorem Attended.not_overslept {pool : Pool Worker Caller Request} (attended : pool.Attended) :
    ¬pool.Overslept := by
  intro overslept
  obtain ⟨notices, callers, looked⟩ := attended
  have zero : notices = 0 := callers.unique (.zero overslept.noNotify)
  rw [zero] at looked
  have empty := looked.nothing overslept.blocked overslept.noneLooks
  exact overslept.request (List.eq_nil_of_length_eq_zero empty)

end Pool

/-- What holds of the workers in every run: one that has found the predicate of `wait` false keeps
the mutex until it is blocked, so that the queue stays empty. -/
structure Watched (pool : Pool Worker Caller Request) : Prop where
  locks : Guarded WorkerPhase.Locks pool.workers pool.mutex
  dozing : ∀ worker, pool.workers worker = .dozing → pool.queue = []
  attended : pool.Attended

namespace Watched

/-- All workers of a new pool look at the queue. -/
theorem start [Fintype Worker] (requestState : Request → Int) :
    Watched (Pool.start requestState : Pool Worker Caller Request) where
  locks := fun _ => iff_of_false id nofun
  dozing := fun _ => nofun
  attended := by
    have all : Tally WorkerPhase.waiting.Alert
        (Pool.start requestState : Pool Worker Caller Request).workers _ :=
      ⟨Finset.univ, fun worker => iff_of_true (Finset.mem_univ worker) trivial, rfl⟩
    exact ⟨0, .zero nofun, .of_nothing all⟩

variable [DecidableEq Worker] [DecidableEq Caller] [DecidableEq Request]
  {config : Config} {pool next : Pool Worker Caller Request}
  {label : Label Worker Caller Request} {events : List (Event Worker Caller Request)}

theorem dozing_step (watched : Watched pool) (stepped : Pool.Step config pool label next events) :
    ∀ worker, next.workers worker = .dozing → next.queue = [] := by
  -- The phase of one worker changes, and the queue does not.
  have other : ∀ changed phase, (phase = .dozing → pool.queue = []) → ∀ worker,
      Function.update pool.workers changed phase worker = .dozing → pool.queue = [] := by
    intro changed phase allowed worker
    by_cases equal : worker = changed
    · subst equal
      rw [Function.update_self]
      exact allowed
    · rw [Function.update_of_ne equal]
      exact watched.dozing worker
  cases stepped with
  | stopped | admitted | full | unheard | flagged | joined => exact watched.dozing
  | @pushed _ task _ free =>
      -- Nobody has the mutex, so no worker dozes.
      intro worker dozing
      have frame := pool.frame_storeState task
      have before : (pool.storeState task).workers worker = .dozing := dozing
      rw [frame.workers] at before
      have guarded := watched.locks
      rw [free] at guarded
      exact absurd (by rw [before]; trivial) (guarded.not_inside worker)
  | notified | locked | passed | blocked | woken | exited | nothing | finished =>
      exact other _ _ nofun
  | failed _ notReady =>
      refine other _ _ fun _ => ?_
      by_contra some_
      exact notReady (.inr some_)
  | @taken worker _ _ passed =>
      -- The worker that takes the request has had the mutex.
      intro behind dozing
      by_cases equal : behind = worker
      · subst equal
        simp [Pool.setWorker] at dozing
      · simp only [Pool.setWorker, Function.update_of_ne equal] at dozing
        have exclusive := watched.locks.exclusive (by rw [passed]; trivial)
          (by rw [dozing]; trivial)
        exact absurd exclusive equal
  | called =>
      intro worker dozing
      refine watched.dozing worker ?_
      cases phase : pool.workers worker <;> simp [Pool.woken, phase] at dozing ⊢

/-- The notifications on their way are those of the callers behind their push. -/
theorem attended_step [Fintype Worker] (watched : Watched pool)
    (stepped : Pool.Step config pool label next events) : next.Attended := by
  obtain ⟨notices, callers, workers⟩ := watched.attended
  -- A caller goes on, and notifies nobody.
  have quiet : ∀ caller phase, pool.callers caller ≠ .notifying → phase ≠ .notifying →
      Tally (fun phase => phase = .notifying) (Function.update pool.callers caller phase) notices :=
    fun caller phase before behind => callers.stay (iff_of_false behind before)
  cases stepped with
  | stopped | flagged | joined => exact ⟨notices, callers, workers⟩
  | admitted idle => exact ⟨notices, quiet _ _ (by simp [idle]) (by simp), workers⟩
  | full admitted => exact ⟨notices, quiet _ _ (by simp [admitted]) (by simp), workers⟩
  | @pushed caller task admitted =>
      have frame := pool.frame_storeState task
      have sameCallers : (pool.storeState task).callers = pool.callers := by
        cases task <;> rfl
      rw [← frame.workers] at workers
      rw [← sameCallers] at callers admitted
      refine ⟨notices + 1, callers.enter (by simp [admitted]) rfl, ?_⟩
      simp only [Pool.setCaller, List.length_append, List.length_singleton]
      exact workers.supplied
  | notified notifying blocked =>
      obtain ⟨others, rfl⟩ := Nat.exists_eq_succ_of_ne_zero (Nat.ne_of_gt (callers.pos notifying))
      refine ⟨others, callers.leave notifying (by simp), workers.notified ?_ trivial (by simp)⟩
      rw [blocked]
      exact id
  | unheard notifying none_ =>
      obtain ⟨others, rfl⟩ := Nat.exists_eq_succ_of_ne_zero (Nat.ne_of_gt (callers.pos notifying))
      exact ⟨others, callers.leave notifying (by simp), workers.unheard none_⟩
  | locked locking =>
      exact ⟨notices, callers, workers.stay (by rw [locking]; exact Iff.rfl) (by simp)⟩
  | passed testing =>
      exact ⟨notices, callers, workers.stay (by rw [testing]; exact Iff.rfl) (by simp)⟩
  | failed testing notReady =>
      have empty : pool.queue = [] := by
        by_contra some_
        exact notReady (.inr some_)
      rw [empty, List.length_nil] at workers
      refine ⟨notices, callers, ?_⟩
      simp only [Pool.setWorker, empty, List.length_nil]
      exact workers.leave (by rw [testing]; trivial) id
  | @blocked worker dozing =>
      have empty := watched.dozing worker dozing
      rw [empty, List.length_nil] at workers
      refine ⟨notices, callers, ?_⟩
      simp only [Pool.setWorker, empty, List.length_nil]
      exact workers.block (by rw [dozing]; exact Iff.rfl)
  | woken blocked =>
      exact ⟨notices, callers, workers.arrive (by rw [blocked]; exact id) trivial (by simp)⟩
  | exited passed _ empty =>
      rw [empty, List.length_nil] at workers
      refine ⟨notices, callers, ?_⟩
      simp only [Pool.setWorker, empty, List.length_nil]
      exact workers.leave (by rw [passed]; trivial) id
  | nothing passed =>
      exact ⟨notices, callers, workers.stay (by rw [passed]; exact Iff.rfl) (by simp)⟩
  | taken passed first =>
      rw [first, List.length_cons] at workers
      exact ⟨notices, callers, workers.take (by rw [passed]; trivial) id (by simp)⟩
  | finished working =>
      exact ⟨notices, callers, workers.arrive (by rw [working]; exact id) trivial (by simp)⟩
  | called =>
      obtain ⟨alert, all⟩ := Tally.exists_of_fintype WorkerPhase.waiting.Alert fun worker =>
        Pool.woken (pool.workers worker)
      refine ⟨notices, callers, .of_noneBlocked all fun worker blocked => ?_⟩
      cases phase : pool.workers worker <;> simp [Pool.woken, phase, WorkerPhase.waiting] at blocked

theorem step [Fintype Worker] (watched : Watched pool)
    (stepped : Pool.Step config pool label next events) : Watched next where
  locks := stepped.locks watched.locks
  dozing := watched.dozing_step stepped
  attended := watched.attended_step stepped

end Watched

/-! ## Runs -/

section Runs

variable [DecidableEq Worker] [Fintype Worker] [DecidableEq Caller] [DecidableEq Request]

/-- In every run, as long as a worker is blocked, each request in the queue has a worker that is
going to look at the queue, or a notification on its way; so no request is overslept. -/
theorem requests_attended {config : Config} {requestState : Request → Int}
    {labels : List (Label Worker Caller Request)} {pool : Pool Worker Caller Request}
    {log : List (Event Worker Caller Request)}
    (ran : run (Pool.step config) (Pool.start requestState) labels = some (pool, log)) :
    pool.Attended ∧ ¬pool.Overslept := by
  have watched : Watched pool :=
    run_state_always Watched (fun _ _ _ _ watched stepped => watched.step (Pool.step_cases stepped))
      (Watched.start requestState) ran
  exact ⟨watched.attended, watched.attended.not_overslept⟩

/-- Both workers are blocked; of two requests one has been pushed and its notification has been
heard, and the caller of the other one has not notified a worker yet. -/
def twoRequests : List (Label Bool (Fin 1) Bool) :=
  [.lock false, .test false, .block false, .lock true, .test true, .block true,
    .call 0 (.appendP (some false)), .push 0, .notifyOne 0 (some true),
    .call 0 (.appendP (some true)), .push 0]

theorem requests_attended_two :
    ∃ pool log, run (Pool.step { actorModel := 0, maxRequests := 10 }) (Pool.start fun _ => 0)
        twoRequests = some (pool, log) ∧ pool.queue = [some false, some true] ∧ pool.Attended := by
  have facts : (run (Pool.step { actorModel := 0, maxRequests := 10 }) (Pool.start fun _ => 0)
      twoRequests).map (fun last => last.1.queue) = some [some false, some true] := by
    decide +kernel
  obtain ⟨⟨pool, log⟩, ran, same⟩ := Option.map_eq_some_iff.mp facts
  exact ⟨pool, log, ran, same, (requests_attended ran).1⟩

end Runs

end TimeGANWebServer.Threadpool
