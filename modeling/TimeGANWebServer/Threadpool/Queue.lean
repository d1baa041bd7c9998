import TimeGANWebServer.Support.Monitor
import TimeGANWebServer.Threadpool.Pool

/-!
# The work queue

What the callers push is taken by the workers in the same order, each request once; the
queue never gets longer than `m_max_requests`.  A request is left in it for good if it is
pushed when the last worker has already returned from `run`.
-/

namespace TimeGANWebServer.Threadpool

open TimeGANWebServer.Support

variable {Worker Caller Request : Type}

/-- The requests pushed by `append` and `append_p`, in order. -/
def accepted (events : List (Event Worker Caller Request)) : List (Option Request) :=
  events.filterMap fun event =>
    match event with
    | .accepted _ request => some request
    | _ => none

/-- The requests taken from the queue, in order, each with the worker that took it. -/
def dequeued (events : List (Event Worker Caller Request)) : List (Worker × Option Request) :=
  events.filterMap fun event =>
    match event with
    | .dequeued worker request => some (worker, request)
    | _ => none

@[simp] theorem accepted_append (first second : List (Event Worker Caller Request)) :
    accepted (first ++ second) = accepted first ++ accepted second :=
  List.filterMap_append

@[simp] theorem dequeued_append (first second : List (Event Worker Caller Request)) :
    dequeued (first ++ second) = dequeued first ++ dequeued second :=
  List.filterMap_append

/-- The first requests accepted are those taken, in order, and the others are in the
queue. -/
def Delivered (events : List (Event Worker Caller Request)) (queue : List (Option Request)) :
    Prop :=
  accepted events = (dequeued events).map Prod.snd ++ queue

namespace WorkerPhase

/-- The worker has the mutex. -/
def Locks : WorkerPhase Request → Prop
  | .testing | .dozing | .passed => True
  | _ => False

end WorkerPhase

/-- What holds of a pool and of all that was done to get there, in every run. -/
structure Sound (config : Config) (pool : Pool Worker Caller Request)
    (log : List (Event Worker Caller Request)) : Prop where
  delivered : Delivered log pool.queue
  capacity : pool.queue.length ≤ config.maxRequests
  locks : Guarded WorkerPhase.Locks pool.workers pool.mutex
  passed_ready : ∀ worker, pool.workers worker = .passed → pool.Ready
  exited_stop : ∀ worker, pool.workers worker = .exited → pool.stop = true
  stop_iff : pool.stop = true ↔ pool.stopper ≠ .idle
  front : ∀ worker, Event.frontOfEmpty worker ∉ log

/-! ## Steps -/

namespace Pool

/-- What no step of a caller changes. -/
structure Frame (pool next : Pool Worker Caller Request) : Prop where
  stop : next.stop = pool.stop
  workers : next.workers = pool.workers
  mutex : next.mutex = pool.mutex
  stopper : next.stopper = pool.stopper

theorem frame_storeState [DecidableEq Request] (pool : Pool Worker Caller Request)
    (task : Task Request) :
    pool.Frame (pool.storeState task) := by
  cases task <;> exact ⟨rfl, rfl, rfl, rfl⟩

variable [DecidableEq Worker] [DecidableEq Caller] [DecidableEq Request]
  {config : Config} {pool next : Pool Worker Caller Request}
  {label : Label Worker Caller Request} {log events : List (Event Worker Caller Request)}

/-- What is accepted is delivered or in the queue. -/
theorem Step.delivered (stepped : Step config pool label next events)
    (delivered : Delivered log pool.queue) : Delivered (log ++ events) next.queue := by
  have before : accepted log = (dequeued log).map Prod.snd ++ pool.queue := delivered
  rw [Delivered, accepted_append, dequeued_append, List.map_append, before]
  cases stepped with
  | pushed => simp [accepted, dequeued, setCaller]
  | taken passed first => simp [accepted, dequeued, setWorker, first]
  | stopped | admitted | full | notified | unheard | locked | passed | failed | blocked | woken
  | exited | nothing | finished | flagged | called | joined =>
      simp [accepted, dequeued, setCaller, setWorker]

theorem Step.capacity (stepped : Step config pool label next events)
    (capacity : pool.queue.length ≤ config.maxRequests) :
    next.queue.length ≤ config.maxRequests := by
  cases stepped with
  | pushed admitted free room =>
      simp only [setCaller, List.length_append, List.length_singleton]
      exact room
  | taken passed first =>
      rw [first, List.length_cons] at capacity
      exact Nat.le_of_succ_le capacity
  | stopped | admitted | full | notified | unheard | locked | passed | failed | blocked | woken
  | exited | nothing | finished | flagged | called | joined => exact capacity

/-- The workers between `lock` and `unlock` are the holder of the mutex. -/
theorem Step.locks (stepped : Step config pool label next events)
    (locks : Guarded WorkerPhase.Locks pool.workers pool.mutex) :
    Guarded WorkerPhase.Locks next.workers next.mutex := by
  cases stepped with
  | stopped | admitted | full | unheard | flagged | joined => exact locks
  | @pushed _ task =>
      have frame := pool.frame_storeState task
      rw [← frame.workers, ← frame.mutex] at locks
      exact locks
  | notified _ blocked => exact locks.stay (by simp [WorkerPhase.Locks, blocked])
  | woken blocked => exact locks.stay (by simp [WorkerPhase.Locks, blocked])
  | finished working => exact locks.stay (by simp [WorkerPhase.Locks, working])
  | locked locking free =>
      rw [free] at locks
      exact locks.enter trivial
  | passed testing => exact locks.stay (by simp [WorkerPhase.Locks, testing])
  | failed testing => exact locks.stay (by simp [WorkerPhase.Locks, testing])
  | blocked dozing =>
      exact locks.leave (by simp [WorkerPhase.Locks, dozing]) (by simp [WorkerPhase.Locks])
  | exited passed =>
      exact locks.leave (by simp [WorkerPhase.Locks, passed]) (by simp [WorkerPhase.Locks])
  | nothing passed =>
      exact locks.leave (by simp [WorkerPhase.Locks, passed]) (by simp [WorkerPhase.Locks])
  | taken passed =>
      exact locks.leave (by simp [WorkerPhase.Locks, passed]) (by simp [WorkerPhase.Locks])
  | called =>
      intro worker
      rw [← locks worker]
      cases phase : pool.workers worker <;> simp [Pool.woken, WorkerPhase.Locks, phase]

/-- Behind `wait` its predicate is true: the mutex keeps others from the queue, and `m_stop`
is never reset. -/
theorem Step.passed_ready (stepped : Step config pool label next events)
    (locks : Guarded WorkerPhase.Locks pool.workers pool.mutex)
    (ready : ∀ worker, pool.workers worker = .passed → pool.Ready) :
    ∀ worker, next.workers worker = .passed → next.Ready := by
  -- The phase of one worker changes, and the predicate does not depend on it.
  have other : ∀ changed phase, (phase = .passed → pool.Ready) → ∀ worker,
      Function.update pool.workers changed phase worker = .passed → pool.Ready := by
    intro changed phase allowed worker
    by_cases equal : worker = changed
    · subst equal
      rw [Function.update_self]
      exact allowed
    · rw [Function.update_of_ne equal]
      exact ready worker
  cases stepped with
  | stopped | admitted | full | unheard | joined => exact ready
  | pushed => exact fun _ _ => .inr (by simp [setCaller])
  | flagged => exact fun _ _ => .inl rfl
  | notified | woken | finished | failed | locked | blocked => exact other _ _ nofun
  | passed _ isReady => exact other _ _ fun _ => isReady
  | exited _ stop => exact fun _ _ => .inl stop
  | nothing passed notStop empty =>
      rcases ready _ passed with stop | some_
      · rw [notStop] at stop
        contradiction
      · exact absurd empty some_
  | @taken worker request rest passed =>
      intro behind isPassed
      by_cases equal : behind = worker
      · subst equal
        simp [setWorker] at isPassed
      · simp only [setWorker, Function.update_of_ne equal] at isPassed
        have exclusive := locks.exclusive (by rw [passed]; trivial) (by rw [isPassed]; trivial)
        exact absurd exclusive equal
  | called =>
      intro worker isPassed
      refine ready worker ?_
      cases phase : pool.workers worker <;> simp [Pool.woken, phase] at isPassed ⊢

/-- A worker returns from `run` only once the pool is stopped. -/
theorem Step.exited_stop (stepped : Step config pool label next events)
    (exits : ∀ worker, pool.workers worker = .exited → pool.stop = true) :
    ∀ worker, next.workers worker = .exited → next.stop = true := by
  have other : ∀ changed phase, phase ≠ .exited → ∀ worker,
      Function.update pool.workers changed phase worker = .exited → pool.stop = true := by
    intro changed phase not_ worker
    by_cases equal : worker = changed
    · subst equal
      rw [Function.update_self]
      exact fun isExited => absurd isExited not_
    · rw [Function.update_of_ne equal]
      exact exits worker
  cases stepped with
  | stopped | admitted | full | unheard | joined => exact exits
  | @pushed _ task =>
      have frame := pool.frame_storeState task
      rw [← frame.workers, ← frame.stop] at exits
      exact exits
  | flagged => exact fun _ _ => rfl
  | notified | woken | finished | failed | passed | locked | blocked | nothing | taken =>
      exact other _ _ nofun
  | exited _ stop => exact fun _ _ => stop
  | called =>
      intro worker isExited
      refine exits worker ?_
      cases phase : pool.workers worker <;> simp [Pool.woken, phase] at isExited ⊢

/-- `m_stop` is set exactly if `stop` has been called. -/
theorem Step.stop_iff (stepped : Step config pool label next events)
    (stop_iff : pool.stop = true ↔ pool.stopper ≠ .idle) :
    next.stop = true ↔ next.stopper ≠ .idle := by
  cases stepped with
  | @pushed _ task =>
      have frame := pool.frame_storeState task
      rw [← frame.stop, ← frame.stopper] at stop_iff
      exact stop_iff
  | flagged => exact iff_of_true rfl nofun
  | called flagged => exact iff_of_true (stop_iff.mpr (by rw [flagged]; nofun)) nofun
  | joined notified => exact iff_of_true (stop_iff.mpr (by rw [notified]; nofun)) nofun
  | stopped | admitted | full | notified | unheard | locked | passed | failed | blocked | woken
  | exited | nothing | taken | finished => exact stop_iff

/-- `front` is never called on an empty queue. -/
theorem Step.front (stepped : Step config pool label next events)
    (ready : ∀ worker, pool.workers worker = .passed → pool.Ready) :
    ∀ worker, Event.frontOfEmpty worker ∉ events := by
  cases stepped with
  | nothing passed notStop empty =>
      rcases ready _ passed with stop | some_
      · rw [notStop] at stop
        contradiction
      · exact absurd empty some_
  | stopped | admitted | full | pushed | notified | unheard | locked | passed | failed | blocked
  | woken | exited | taken | finished | flagged | called | joined => simp

end Pool

namespace Sound

/-- Nothing has been done with a new pool. -/
theorem start (config : Config) (requestState : Request → Int) :
    Sound config (Pool.start requestState : Pool Worker Caller Request) [] where
  delivered := rfl
  capacity := Nat.zero_le _
  locks _ := iff_of_false (fun inside => inside) nofun
  passed_ready _ := nofun
  exited_stop _ := nofun
  stop_iff := iff_of_false nofun (fun notIdle => notIdle rfl)
  front _ := List.not_mem_nil

variable [DecidableEq Worker] [DecidableEq Caller] [DecidableEq Request]
  {config : Config} {pool next : Pool Worker Caller Request}
  {label : Label Worker Caller Request} {log events : List (Event Worker Caller Request)}

theorem step (sound : Sound config pool log) (stepped : Pool.Step config pool label next events) :
    Sound config next (log ++ events) where
  delivered := stepped.delivered sound.delivered
  capacity := stepped.capacity sound.capacity
  locks := stepped.locks sound.locks
  passed_ready := stepped.passed_ready sound.locks sound.passed_ready
  exited_stop := stepped.exited_stop sound.exited_stop
  stop_iff := stepped.stop_iff sound.stop_iff
  front worker member := by
    rcases List.mem_append.mp member with before | now
    · exact sound.front worker before
    · exact stepped.front sound.passed_ready worker now

end Sound

/-! ## When the workers have returned -/

/-- When all workers have returned from `run`, no request is left in the queue. -/
def NoneLeft (pool : Pool Worker Caller Request) : Prop :=
  pool.AllExited → pool.queue = []

/-- A request is pushed only while some worker has not returned from `run`. -/
def PushesInTime (config : Config) (pool : Pool Worker Caller Request) :
    Label Worker Caller Request → Prop
  | .push _ => pool.queue.length < config.maxRequests → ¬pool.AllExited
  | _ => True

/-- A worker in another phase has not returned. -/
theorem not_allExited_setWorker [DecidableEq Worker] {pool : Pool Worker Caller Request} 
    {worker : Worker} {phase : WorkerPhase Request} (running : phase ≠ .exited) :
    ¬(pool.setWorker worker phase).AllExited := by
  intro all
  have phase_ : Function.update pool.workers worker phase worker = .exited := all worker
  rw [Function.update_self] at phase_
  exact running phase_

theorem allExited_notifyAll {pool : Pool Worker Caller Request} :
    (∀ worker, Pool.woken (pool.workers worker) = .exited) ↔ pool.AllExited := by
  refine forall_congr' fun worker => ?_
  cases phase : pool.workers worker <;> simp [Pool.woken]

section Steps

variable [DecidableEq Worker] [DecidableEq Caller] [DecidableEq Request]
  {config : Config} {pool next : Pool Worker Caller Request}
  {label : Label Worker Caller Request} {log events : List (Event Worker Caller Request)}

/-- In time, no step leaves a request behind. -/
theorem Pool.Step.noneLeft (stepped : Step config pool label next events)
    (noneLeft : NoneLeft pool) (inTime : PushesInTime config pool label) : NoneLeft next := by
  cases stepped with
  | stopped | admitted | full | unheard | flagged | joined => exact noneLeft
  | @pushed _ task _ _ room =>
      intro all
      have frame := pool.frame_storeState task
      refine absurd (fun worker => ?_) (inTime room)
      rw [← frame.workers]
      exact all worker
  | notified | locked | passed | failed | blocked | woken | nothing | taken | finished =>
      exact fun all => absurd all (not_allExited_setWorker nofun)
  | exited _ _ empty => exact fun _ => empty
  | called => exact fun all => noneLeft (allExited_notifyAll.mp all)

/-- A request pushed too late is left behind. -/
theorem Pool.Step.not_noneLeft (stepped : Step config pool label next events)
    (late : ¬PushesInTime config pool label) : ¬NoneLeft next := by
  cases stepped with
  | @pushed _ task _ _ room =>
      have frame := pool.frame_storeState task
      have all : pool.AllExited := by
        by_contra notAll
        exact late fun _ => notAll
      intro noneLeft
      have empty := noneLeft fun worker => by
        have exited := all worker
        rwa [← frame.workers] at exited
      simp [setCaller] at empty
  | full _ _ many => exact absurd (fun room => absurd room (Nat.not_lt_of_le many)) late
  | stopped | admitted | notified | unheard | locked | passed | failed | blocked | woken | exited
  | nothing | taken | finished | flagged | called | joined => exact absurd trivial late

/-- Nobody takes a request that was left behind. -/
theorem Pool.Step.left_forever (stepped : Step config pool label next events)
    (left : ¬NoneLeft pool) : ¬NoneLeft next := by
  obtain ⟨all, some_⟩ := Classical.not_imp.mp left
  have absurd_ : ∀ {worker : Worker} {phase : WorkerPhase Request},
      pool.workers worker = phase → phase ≠ .exited → False := by
    intro worker phase isPhase running
    exact running (isPhase ▸ all worker)
  cases stepped with
  | stopped | admitted | full | unheard | flagged | joined => exact left
  | @pushed _ task =>
      have frame := pool.frame_storeState task
      intro noneLeft
      have empty := noneLeft fun worker => by
        have exited := all worker
        rwa [← frame.workers] at exited
      simp [setCaller] at empty
  | notified _ blocked => exact (absurd_ blocked nofun).elim
  | locked locking => exact (absurd_ locking nofun).elim
  | passed testing => exact (absurd_ testing nofun).elim
  | failed testing => exact (absurd_ testing nofun).elim
  | blocked dozing => exact (absurd_ dozing nofun).elim
  | woken blocked => exact (absurd_ blocked nofun).elim
  | exited passed => exact (absurd_ passed nofun).elim
  | nothing passed => exact (absurd_ passed nofun).elim
  | taken passed => exact (absurd_ passed nofun).elim
  | finished working => exact (absurd_ working nofun).elim
  | called => exact fun noneLeft => some_ (noneLeft (allExited_notifyAll.mpr all))

end Steps

section Runs

variable [DecidableEq Worker] [Fintype Worker] [DecidableEq Caller] [DecidableEq Request]

/-- In every run the accepted requests are taken from the queue once each and in order,
the queue keeps to its bound, and a request is left behind exactly if it was pushed when
all workers had returned. -/
theorem requests_delivered {config : Config} {requestState : Request → Int}
    {labels : List (Label Worker Caller Request)} {pool : Pool Worker Caller Request}
    {log : List (Event Worker Caller Request)}
    (ran : run (Pool.step config) (Pool.start requestState) labels = some (pool, log)) :
    Delivered log pool.queue ∧ pool.queue.length ≤ config.maxRequests ∧
      (∀ worker, Event.frontOfEmpty worker ∉ log) ∧
      (NoneLeft pool ↔
        RunMeets (Pool.step config) (PushesInTime config) (Pool.start requestState) labels) := by
  have sound : Sound config pool ([] ++ log) :=
    run_invariant (Sound config)
      (fun _ _ _ _ _ sound _ stepped => sound.step (Pool.step_cases stepped))
      (Sound.start config requestState) (RunMeets.always _ _) ran
  have noneLeft : NoneLeft (Pool.start requestState : Pool Worker Caller Request) := fun _ => rfl
  refine ⟨sound.delivered, sound.capacity, sound.front, ?_⟩
  exact run_iff_meets (fun _ => True) NoneLeft (fun _ _ _ _ _ _ => trivial)
    (fun _ _ _ _ _ good inTime stepped => (Pool.step_cases stepped).noneLeft good inTime)
    (fun _ _ _ _ _ late stepped => (Pool.step_cases stepped).not_noneLeft late)
    (fun _ _ _ _ _ left stepped => (Pool.step_cases stepped).left_forever left) trivial noneLeft ran

instance neZero_one : NeZero 1 := ⟨Nat.succ_ne_zero 0⟩

/-- One worker takes the one request and returns. -/
def oneRequest : List (Label (Fin 1) (Fin 1) (Fin 1)) :=
  [.lock 0, .test 0, .block 0, .call 0 (.append 0 1), .push 0, .notifyOne 0 (some 0), .lock 0,
    .test 0, .dequeue 0, .finish 0, .setStop, .notifyAll, .lock 0, .test 0, .dequeue 0, .join]

/-- The request of a pool with one worker is delivered. -/
theorem requests_delivered_one :
    ∃ pool log, run (Pool.step { actorModel := 0, maxRequests := 10 }) (Pool.start fun _ => 0)
        oneRequest = some (pool, log) ∧ Delivered log pool.queue := by
  have possible : (run (Pool.step { actorModel := 0, maxRequests := 10 }) (Pool.start fun _ => 0)
      oneRequest).isSome := by
    decide +kernel
  obtain ⟨⟨pool, log⟩, ran⟩ := Option.isSome_iff_exists.mp possible
  exact ⟨pool, log, ran, (requests_delivered ran).1⟩

/-- A caller that has passed the test of `m_stop` pushes its request when the worker has
returned and is joined. -/
def lateRequest : List (Label (Fin 1) (Fin 1) (Fin 1)) :=
  [.call 0 (.appendP (some 0)), .setStop, .notifyAll, .lock 0, .test 0, .dequeue 0, .join, .push 0,
    .notifyOne 0 none]

/-- A request can be accepted and left behind. -/
theorem not_requests_delivered :
    ¬∀ (labels : List (Label (Fin 1) (Fin 1) (Fin 1))) pool log,
      run (Pool.step { actorModel := 0, maxRequests := 10 }) (Pool.start fun _ => 0) labels =
        some (pool, log) → NoneLeft pool := by
  intro claim
  have facts : (run (Pool.step { actorModel := 0, maxRequests := 10 }) (Pool.start fun _ => 0)
      lateRequest).map (fun last => (last.1.workers 0, last.1.queue)) =
      some (.exited, [some 0]) := by
    decide +kernel
  obtain ⟨⟨pool, log⟩, ran, same⟩ := Option.map_eq_some_iff.mp facts
  obtain ⟨exited, left⟩ := Prod.mk.injEq .. ▸ same
  have empty := claim lateRequest pool log ran fun worker => by
    rw [Subsingleton.elim worker 0]
    exact exited
  rw [left] at empty
  contradiction

end Runs

end TimeGANWebServer.Threadpool
