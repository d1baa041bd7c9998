import TimeGANWebServer.Threadpool.Queue

/-!
# Stopping the pool

`stop` sets `m_stop` without the mutex, and then notifies all workers once.  A worker that
has found the predicate of `wait` false, and has not blocked yet, does not hear of it.
-/

namespace TimeGANWebServer.Threadpool

open TimeGANWebServer.Support

variable {Worker Caller Request : Type}

namespace Pool

/-- `stop` has set `m_stop` and called `notify_all`. -/
def Notified (pool : Pool Worker Caller Request) : Prop :=
  pool.stopper = .notified ∨ pool.stopper = .joined

/-- The pool is stopped, nobody is going to notify a worker any more, and a worker is
blocked. -/
structure Hung (pool : Pool Worker Caller Request) : Prop where
  notified : pool.Notified
  noNotify : ∀ caller, pool.callers caller ≠ .notifying
  asleep : ∃ worker, pool.workers worker = .blocked

end Pool

namespace WorkerPhase

/-- The worker is blocked, or is going to block. -/
def Sleeps : WorkerPhase Request → Prop
  | .dozing | .blocked => True
  | _ => False

end WorkerPhase

/-- Once `stop` has notified the workers, none of them is or gets blocked. -/
structure Awake (pool : Pool Worker Caller Request) : Prop where
  stop_iff : pool.stop = true ↔ pool.stopper ≠ .idle
  noneSleeps : pool.Notified → ∀ worker, ¬(pool.workers worker).Sleeps

theorem Awake.not_hung {pool : Pool Worker Caller Request} (awake : Awake pool) : ¬pool.Hung := by
  intro hung
  obtain ⟨worker, blocked⟩ := hung.asleep
  exact awake.noneSleeps hung.notified worker (by rw [blocked]; trivial)

/-- `notify_all` is called when no worker is between the predicate of `wait`, which it has
found false, and blocking. -/
def NotifiesNoDozing (pool : Pool Worker Caller Request) : Label Worker Caller Request → Prop
  | .notifyAll => ∀ worker, pool.workers worker ≠ .dozing
  | _ => True

instance [Fintype Worker] [DecidableEq Request] (pool : Pool Worker Caller Request) :
    (label : Label Worker Caller Request) → Decidable (NotifiesNoDozing pool label)
  | .notifyAll => inferInstanceAs (Decidable (∀ _, _))
  | .call _ _ | .push _ | .notifyOne _ _ | .lock _ | .test _ | .block _ | .wake _ | .dequeue _
  | .finish _ | .setStop | .join => .isTrue trivial

/-- Nobody is notified before `stop` is called. -/
theorem Awake.start (requestState : Request → Int) :
    Awake (Pool.start requestState : Pool Worker Caller Request) where
  stop_iff := iff_of_false nofun (fun notIdle => notIdle rfl)
  noneSleeps := by
    rintro (notified | joined)
    · cases notified
    · cases joined

variable [DecidableEq Worker] [DecidableEq Caller] [DecidableEq Request]
  {config : Config} {pool next : Pool Worker Caller Request}
  {label : Label Worker Caller Request} {events : List (Event Worker Caller Request)}

/-- Where no worker dozes off unheard, all stay awake. -/
theorem Awake.step (awake : Awake pool) (stepped : Pool.Step config pool label next events)
    (heard : NotifiesNoDozing pool label) : Awake next where
  stop_iff := stepped.stop_iff awake.stop_iff
  noneSleeps := by
    -- A worker goes on with a phase in which it does not sleep.
    have other : ∀ changed phase, ¬WorkerPhase.Sleeps phase → pool.Notified → ∀ worker,
        ¬(Function.update pool.workers changed phase worker).Sleeps := by
      intro changed phase wakes notified worker
      by_cases equal : worker = changed
      · subst equal
        rwa [Function.update_self]
      · rw [Function.update_of_ne equal]
        exact awake.noneSleeps notified worker
    have stopped : pool.Notified → pool.stop = true := by
      rintro (notified | joined)
      · exact awake.stop_iff.mpr (by rw [notified]; nofun)
      · exact awake.stop_iff.mpr (by rw [joined]; nofun)
    cases stepped with
    | stopped | admitted | full | unheard => exact awake.noneSleeps
    | @pushed _ task =>
        have frame := pool.frame_storeState task
        intro notified worker
        have before := awake.noneSleeps (by rwa [Pool.Notified, ← frame.stopper]) worker
        rwa [← frame.workers] at before
    | notified | locked | passed | woken | exited | nothing | taken | finished =>
        exact other _ _ (by simp [WorkerPhase.Sleeps])
    | failed testing notReady => exact fun notified => absurd (.inl (stopped notified)) notReady
    | @blocked worker dozing =>
        exact fun notified =>
          absurd (by rw [dozing]; trivial) (awake.noneSleeps notified worker)
    | flagged =>
        rintro (notified | joined)
        · cases notified
        · cases joined
    | called =>
        intro _ worker
        have notDozing := heard worker
        cases phase : pool.workers worker <;>
          simp [Pool.woken, WorkerPhase.Sleeps, phase] at notDozing ⊢
    | joined notified => exact fun _ => awake.noneSleeps (.inl notified)

/-- In every run in which `notify_all` finds no worker on its way to block, no worker is
left blocked by `stop`. -/
theorem no_worker_hung [Fintype Worker] {requestState : Request → Int}
    {labels : List (Label Worker Caller Request)} {log : List (Event Worker Caller Request)}
    (ran : run (Pool.step config) (Pool.start requestState) labels = some (pool, log))
    (heard : RunMeets (Pool.step config) NotifiesNoDozing (Pool.start requestState) labels) :
    ¬pool.Hung := by
  have awake : Awake pool :=
    run_state Awake
      (fun _ _ _ _ awake heard stepped => awake.step (Pool.step_cases stepped) heard)
      (Awake.start requestState) heard ran
  exact awake.not_hung

/-- The worker blocks before `stop` notifies it. -/
def stopBlocked : List (Label (Fin 1) (Fin 1) (Fin 1)) :=
  [.lock 0, .test 0, .block 0, .setStop, .notifyAll]

/-- A worker that is blocked when `stop` notifies it does not hang. -/
theorem no_worker_hung_blocked :
    ∃ pool log, run (Pool.step { actorModel := 0, maxRequests := 10 }) (Pool.start fun _ => 0)
        stopBlocked = some (pool, log) ∧ ¬pool.Hung := by
  have possible : (run (Pool.step { actorModel := 0, maxRequests := 10 }) (Pool.start fun _ => 0)
      stopBlocked).isSome := by
    decide +kernel
  obtain ⟨⟨pool, log⟩, ran⟩ := Option.isSome_iff_exists.mp possible
  exact ⟨pool, log, ran, no_worker_hung ran (by decide +kernel)⟩

/-- The worker finds the predicate false, and blocks when `stop` has notified all. -/
def stopDozing : List (Label (Fin 1) (Fin 1) (Fin 1)) :=
  [.lock 0, .test 0, .setStop, .notifyAll, .block 0]

/-- A worker can be left blocked. -/
theorem not_no_worker_hung :
    ¬∀ (labels : List (Label (Fin 1) (Fin 1) (Fin 1))) pool log,
      run (Pool.step { actorModel := 0, maxRequests := 10 }) (Pool.start fun _ => 0) labels =
        some (pool, log) → ¬pool.Hung := by
  intro claim
  have facts : (run (Pool.step { actorModel := 0, maxRequests := 10 }) (Pool.start fun _ => 0)
      stopDozing).map (fun last => (last.1.stopper, last.1.callers 0, last.1.workers 0)) =
      some (.notified, .idle, .blocked) := by
    decide +kernel
  obtain ⟨⟨pool, log⟩, ran, same⟩ := Option.map_eq_some_iff.mp facts
  simp only [Prod.mk.injEq] at same
  obtain ⟨notified, idle, blocked⟩ := same
  refine claim stopDozing pool log ran ⟨.inl notified, fun caller => ?_, 0, blocked⟩
  rw [Subsingleton.elim caller 0, idle]
  nofun

end TimeGANWebServer.Threadpool
