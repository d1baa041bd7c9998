import TimeGANWebServer.Support.Run
import Mathlib.Algebra.Order.Ring.Int
import Mathlib.Data.Fintype.Basic
import Mathlib.Logic.Function.Basic

/-!
# The thread pool

`append`, `append_p`, `stop` and `run` in `threadpool/threadpool.h`, called by any number
of threads.  Each access to the atomic `m_stop` and each section with `m_queue_mutex`
locked is a step of its own.  `wait` takes three steps more in `run`: the predicate is
tested, the worker releases the mutex and blocks, and once it is woken it locks the
mutex again.
-/

namespace TimeGANWebServer.Threadpool

open TimeGANWebServer.Support

/-- The members of a `threadpool` that are set once. -/
structure Config where
  actorModel : Int
  maxRequests : Nat

/-- The arguments of `append`, or those of `append_p`, which may be a null pointer. -/
inductive Task (Request : Type) where
  | append (request : Request) (state : Int)
  | appendP (request : Option Request)
  deriving DecidableEq, Repr

/-- The pointer that is pushed. -/
def Task.request {Request : Type} : Task Request → Option Request
  | .append request _ => some request
  | .appendP request => request

/-- Where a caller of `append` or `append_p` is: outside, between the test of `m_stop` and
the lock, or behind the lock with the request pushed. -/
inductive CallerPhase (Request : Type) where
  | idle
  | admitted (task : Task Request)
  | notifying
  deriving DecidableEq, Repr

/-- Where a worker is in `run`.  When `testing`, `dozing` and `passed` it has the mutex:
before the predicate of `wait`, behind it when it was false, and behind it when it was
true. -/
inductive WorkerPhase (Request : Type) where
  | locking
  | testing
  | dozing
  | blocked
  | passed
  | working (request : Option Request)
  | exited
  deriving DecidableEq, Repr

/-- Where the caller of `stop` is. -/
inductive StopPhase where
  | idle
  | flagged
  | notified
  | joined
  deriving DecidableEq, Repr

/-- A `threadpool` with its workers and callers.  `requestState` is `m_state` of the
requests. -/
structure Pool (Worker Caller Request : Type) where
  stop : Bool
  queue : List (Option Request)
  mutex : Option Worker
  workers : Worker → WorkerPhase Request
  callers : Caller → CallerPhase Request
  stopper : StopPhase
  requestState : Request → Int

/-- What a step does that others can see: a request is pushed, so that `append` is going
to return true; it is not, and `append` returns false; a worker takes a request from the
queue; or it calls `front` of an empty queue. -/
inductive Event (Worker Caller Request : Type) where
  | accepted (caller : Caller) (request : Option Request)
  | refused (caller : Caller)
  | dequeued (worker : Worker) (request : Option Request)
  | frontOfEmpty (worker : Worker)
  deriving DecidableEq, Repr

/-- A step of a caller, of a worker, or of the caller of `stop`.  `notifyOne` wakes some
blocked worker, and none only where none is blocked; a blocked worker may also wake
up by itself. -/
inductive Label (Worker Caller Request : Type) where
  | call (caller : Caller) (task : Task Request)
  | push (caller : Caller)
  | notifyOne (caller : Caller) (woken : Option Worker)
  | lock (worker : Worker)
  | test (worker : Worker)
  | block (worker : Worker)
  | wake (worker : Worker)
  | dequeue (worker : Worker)
  | finish (worker : Worker)
  | setStop
  | notifyAll
  | join
  deriving DecidableEq, Repr

/-- The pool after a step, and what the step did, if the step is possible. -/
abbrev Next (Worker Caller Request : Type) :=
  Option (Pool Worker Caller Request × List (Event Worker Caller Request))

variable {Worker Caller Request : Type} [DecidableEq Worker] [Fintype Worker] [DecidableEq Caller]
  [DecidableEq Request]

namespace Pool

/-- A pool whose workers have been started. -/
def start (requestState : Request → Int) : Pool Worker Caller Request where
  stop := false
  queue := []
  mutex := none
  workers := fun _ => .locking
  callers := fun _ => .idle
  stopper := .idle
  requestState := requestState

/-- Set the phase of a worker. -/
def setWorker (pool : Pool Worker Caller Request) (worker : Worker) (phase : WorkerPhase Request) :
    Pool Worker Caller Request :=
  { pool with workers := Function.update pool.workers worker phase }

/-- Set the phase of a caller. -/
def setCaller (pool : Pool Worker Caller Request) (caller : Caller) (phase : CallerPhase Request) :
    Pool Worker Caller Request :=
  { pool with callers := Function.update pool.callers caller phase }

/-- Every thread of `m_threads` has returned from `run`. -/
def AllExited (pool : Pool Worker Caller Request) : Prop :=
  ∀ worker, pool.workers worker = .exited

instance (pool : Pool Worker Caller Request) : Decidable pool.AllExited :=
  inferInstanceAs (Decidable (∀ _, _))

/-- No worker is blocked in `wait`. -/
def NoneBlocked (pool : Pool Worker Caller Request) : Prop :=
  ∀ worker, pool.workers worker ≠ .blocked

instance (pool : Pool Worker Caller Request) : Decidable pool.NoneBlocked :=
  inferInstanceAs (Decidable (∀ _, _))

/-- The predicate of `wait`. -/
def Ready (pool : Pool Worker Caller Request) : Prop :=
  pool.stop = true ∨ pool.queue ≠ []

instance (pool : Pool Worker Caller Request) : Decidable pool.Ready :=
  inferInstanceAs (Decidable (_ ∨ _))

/-- `run` calls `process` for a request it has taken. -/
def Processes (config : Config) (pool : Pool Worker Caller Request) (request : Request) : Prop :=
  config.actorModel = 1 → pool.requestState request = 0

instance (config : Config) (pool : Pool Worker Caller Request) (request : Request) :
    Decidable (pool.Processes config request) :=
  inferInstanceAs (Decidable (_ → _))

/-! ## Steps -/

/-- The test of `m_stop` in `append` and `append_p`. -/
def call (pool : Pool Worker Caller Request) (caller : Caller) (task : Task Request) :
    Next Worker Caller Request :=
  if pool.callers caller = .idle then
    if pool.stop = true then
      some (pool, [.refused caller])
    else
      some (pool.setCaller caller (.admitted task), [])
  else
    none

/-- `append` also stores the state into the request. -/
def storeState (pool : Pool Worker Caller Request) : Task Request → Pool Worker Caller Request
  | .append request state =>
      { pool with requestState := Function.update pool.requestState request state }
  | .appendP _ => pool

/-- The locked section of `append` and `append_p`. -/
def push (config : Config) (pool : Pool Worker Caller Request) (caller : Caller) :
    Next Worker Caller Request :=
  match pool.callers caller with
  | .admitted task =>
      if pool.mutex = none then
        if config.maxRequests ≤ pool.queue.length then
          some (pool.setCaller caller .idle, [.refused caller])
        else
          some ({ pool.storeState task with queue := pool.queue ++ [task.request] }.setCaller caller
            .notifying, [.accepted caller task.request])
      else
        none
  | _ => none

/-- `notify_one` at the end of `append` and `append_p`. -/
def notifyOne (pool : Pool Worker Caller Request) (caller : Caller) (woken : Option Worker) :
    Next Worker Caller Request :=
  if pool.callers caller = .notifying then
    match woken with
    | some worker =>
        if pool.workers worker = .blocked then
          some ((pool.setWorker worker .locking).setCaller caller .idle, [])
        else
          none
    | none => if pool.NoneBlocked then some (pool.setCaller caller .idle, []) else none
  else
    none

/-- The worker locks the mutex, at the start of the loop or woken up in `wait`. -/
def lock (pool : Pool Worker Caller Request) (worker : Worker) : Next Worker Caller Request :=
  if pool.workers worker = .locking ∧ pool.mutex = none then
    some ({ pool with mutex := some worker }.setWorker worker .testing, [])
  else
    none

/-- The predicate of `wait` is tested. -/
def test (pool : Pool Worker Caller Request) (worker : Worker) : Next Worker Caller Request :=
  if pool.workers worker = .testing then
    some (pool.setWorker worker (if pool.Ready then .passed else .dozing), [])
  else
    none

/-- The worker releases the mutex and blocks. -/
def block (pool : Pool Worker Caller Request) (worker : Worker) : Next Worker Caller Request :=
  if pool.workers worker = .dozing then
    some ({ pool with mutex := none }.setWorker worker .blocked, [])
  else
    none

/-- The worker wakes up without having been notified. -/
def wake (pool : Pool Worker Caller Request) (worker : Worker) : Next Worker Caller Request :=
  if pool.workers worker = .blocked then
    some (pool.setWorker worker .locking, [])
  else
    none

/-- Behind `wait`: return from `run` if the pool is stopped and the queue empty, or else
take the first request. -/
def dequeue (pool : Pool Worker Caller Request) (worker : Worker) : Next Worker Caller Request :=
  if pool.workers worker = .passed then
    let unlocked := { pool with mutex := none }
    if pool.stop = true ∧ pool.queue = [] then
      some (unlocked.setWorker worker .exited, [])
    else
      match pool.queue with
      | [] => some (unlocked.setWorker worker .locking, [.frontOfEmpty worker])
      | request :: rest =>
          some ({ unlocked with queue := rest }.setWorker worker (.working request),
            [.dequeued worker request])
  else
    none

/-- The worker is done with its request. -/
def finish (pool : Pool Worker Caller Request) (worker : Worker) : Next Worker Caller Request :=
  match pool.workers worker with
  | .working _ => some (pool.setWorker worker .locking, [])
  | _ => none

/-- `m_stop = true` in `stop`. -/
def setStop (pool : Pool Worker Caller Request) : Next Worker Caller Request :=
  if pool.stopper = .idle then
    some ({ pool with stop := true, stopper := .flagged }, [])
  else
    none

/-- A blocked worker that is notified. -/
def woken : WorkerPhase Request → WorkerPhase Request
  | .blocked => .locking
  | phase => phase

/-- `notify_all` in `stop`. -/
def notifyAll (pool : Pool Worker Caller Request) : Next Worker Caller Request :=
  if pool.stopper = .flagged then
    some ({ pool with
      stopper := .notified
      workers := fun worker => woken (pool.workers worker) }, [])
  else
    none

/-- `stop` has joined every thread. -/
def join (pool : Pool Worker Caller Request) : Next Worker Caller Request :=
  if pool.stopper = .notified ∧ pool.AllExited then
    some ({ pool with stopper := .joined }, [])
  else
    none

/-- One step of the pool. -/
def step (config : Config) (pool : Pool Worker Caller Request) :
    Label Worker Caller Request → Next Worker Caller Request
  | .call caller task => pool.call caller task
  | .push caller => pool.push config caller
  | .notifyOne caller woken => pool.notifyOne caller woken
  | .lock worker => pool.lock worker
  | .test worker => pool.test worker
  | .block worker => pool.block worker
  | .wake worker => pool.wake worker
  | .dequeue worker => pool.dequeue worker
  | .finish worker => pool.finish worker
  | .setStop => pool.setStop
  | .notifyAll => pool.notifyAll
  | .join => pool.join

/-! ## What a step does -/

/-- The steps that are possible, by what they do. -/
inductive Step (config : Config) (pool : Pool Worker Caller Request) :
    Label Worker Caller Request → Pool Worker Caller Request →
      List (Event Worker Caller Request) → Prop
  | stopped {caller task} (idle : pool.callers caller = .idle) (stop : pool.stop = true) :
      Step config pool (.call caller task) pool [.refused caller]
  | admitted {caller task} (idle : pool.callers caller = .idle) (notStop : pool.stop = false) :
      Step config pool (.call caller task) (pool.setCaller caller (.admitted task)) []
  | full {caller task} (admitted : pool.callers caller = .admitted task)
      (free : pool.mutex = none) (many : config.maxRequests ≤ pool.queue.length) :
      Step config pool (.push caller) (pool.setCaller caller .idle) [.refused caller]
  | pushed {caller task} (admitted : pool.callers caller = .admitted task)
      (free : pool.mutex = none) (room : pool.queue.length < config.maxRequests) :
      Step config pool (.push caller)
        ({ pool.storeState task with queue := pool.queue ++ [task.request] }.setCaller caller
          .notifying) [.accepted caller task.request]
  | notified {caller worker} (notifying : pool.callers caller = .notifying)
      (blocked : pool.workers worker = .blocked) :
      Step config pool (.notifyOne caller (some worker))
        ((pool.setWorker worker .locking).setCaller caller .idle) []
  | unheard {caller} (notifying : pool.callers caller = .notifying) (none_ : pool.NoneBlocked) :
      Step config pool (.notifyOne caller none) (pool.setCaller caller .idle) []
  | locked {worker} (locking : pool.workers worker = .locking) (free : pool.mutex = none) :
      Step config pool (.lock worker)
        ({ pool with mutex := some worker }.setWorker worker .testing) []
  | passed {worker} (testing : pool.workers worker = .testing) (ready : pool.Ready) :
      Step config pool (.test worker) (pool.setWorker worker .passed) []
  | failed {worker} (testing : pool.workers worker = .testing) (notReady : ¬pool.Ready) :
      Step config pool (.test worker) (pool.setWorker worker .dozing) []
  | blocked {worker} (dozing : pool.workers worker = .dozing) :
      Step config pool (.block worker) ({ pool with mutex := none }.setWorker worker .blocked) []
  | woken {worker} (blocked : pool.workers worker = .blocked) :
      Step config pool (.wake worker) (pool.setWorker worker .locking) []
  | exited {worker} (passed : pool.workers worker = .passed) (stop : pool.stop = true)
      (empty : pool.queue = []) :
      Step config pool (.dequeue worker) ({ pool with mutex := none }.setWorker worker .exited) []
  | nothing {worker} (passed : pool.workers worker = .passed) (notStop : pool.stop = false)
      (empty : pool.queue = []) :
      Step config pool (.dequeue worker) ({ pool with mutex := none }.setWorker worker .locking)
        [.frontOfEmpty worker]
  | taken {worker request rest} (passed : pool.workers worker = .passed)
      (first : pool.queue = request :: rest) :
      Step config pool (.dequeue worker)
        ({ pool with mutex := none, queue := rest }.setWorker worker (.working request))
        [.dequeued worker request]
  | finished {worker request} (working : pool.workers worker = .working request) :
      Step config pool (.finish worker) (pool.setWorker worker .locking) []
  | flagged (idle : pool.stopper = .idle) :
      Step config pool .setStop { pool with stop := true, stopper := .flagged } []
  | called (flagged : pool.stopper = .flagged) :
      Step config pool .notifyAll
        { pool with
          stopper := .notified
          workers := fun worker => Pool.woken (pool.workers worker) } []
  | joined (notified : pool.stopper = .notified) (all : pool.AllExited) :
      Step config pool .join { pool with stopper := .joined } []

section Cases

variable {config : Config} {pool next : Pool Worker Caller Request}
  {events : List (Event Worker Caller Request)}

section

omit [Fintype Worker]

theorem call_cases {caller : Caller} {task : Task Request}
    (stepped : pool.call caller task = some (next, events)) :
    Step config pool (.call caller task) next events := by
  simp only [call] at stepped
  split at stepped
  case isTrue idle =>
      split at stepped
      case isTrue stop =>
          cases stepped
          exact .stopped idle stop
      case isFalse notStop =>
          cases stepped
          exact .admitted idle (Bool.eq_false_of_not_eq_true notStop)
  case isFalse => contradiction

theorem push_cases {caller : Caller} (stepped : pool.push config caller = some (next, events)) :
    Step config pool (.push caller) next events := by
  simp only [push] at stepped
  split at stepped
  case _ task admitted =>
      split at stepped
      case isTrue free =>
          split at stepped
          case isTrue many =>
              cases stepped
              exact .full admitted free many
          case isFalse room =>
              cases stepped
              exact .pushed admitted free (Nat.lt_of_not_le room)
      case isFalse => contradiction
  case _ => contradiction

theorem lock_cases {worker : Worker} (stepped : pool.lock worker = some (next, events)) :
    Step config pool (.lock worker) next events := by
  simp only [lock] at stepped
  split at stepped
  case isTrue able =>
      cases stepped
      exact .locked able.1 able.2
  case isFalse => contradiction

theorem test_cases {worker : Worker} (stepped : pool.test worker = some (next, events)) :
    Step config pool (.test worker) next events := by
  simp only [test] at stepped
  split at stepped
  case isTrue testing =>
      split at stepped
      case isTrue ready =>
          cases stepped
          exact .passed testing ready
      case isFalse notReady =>
          cases stepped
          exact .failed testing notReady
  case isFalse => contradiction

theorem block_cases {worker : Worker} (stepped : pool.block worker = some (next, events)) :
    Step config pool (.block worker) next events := by
  simp only [block] at stepped
  split at stepped
  case isTrue dozing =>
      cases stepped
      exact .blocked dozing
  case isFalse => contradiction

theorem wake_cases {worker : Worker} (stepped : pool.wake worker = some (next, events)) :
    Step config pool (.wake worker) next events := by
  simp only [wake] at stepped
  split at stepped
  case isTrue blocked =>
      cases stepped
      exact .woken blocked
  case isFalse => contradiction

theorem dequeue_cases {worker : Worker} (stepped : pool.dequeue worker = some (next, events)) :
    Step config pool (.dequeue worker) next events := by
  simp only [dequeue] at stepped
  split at stepped
  case isTrue passed =>
      split at stepped
      case isTrue stopped =>
          cases stepped
          exact .exited passed stopped.1 stopped.2
      case isFalse notStopped =>
          split at stepped
          case _ empty =>
              cases stepped
              exact .nothing passed
                (Bool.eq_false_of_not_eq_true fun stop => notStopped ⟨stop, empty⟩) empty
          case _ request rest first =>
              cases stepped
              exact .taken passed first
  case isFalse => contradiction

theorem finish_cases {worker : Worker} (stepped : pool.finish worker = some (next, events)) :
    Step config pool (.finish worker) next events := by
  simp only [finish] at stepped
  split at stepped
  case _ request working =>
      cases stepped
      exact .finished working
  case _ => contradiction

theorem setStop_cases (stepped : pool.setStop = some (next, events)) :
    Step config pool .setStop next events := by
  simp only [setStop] at stepped
  split at stepped
  case isTrue idle =>
      cases stepped
      exact .flagged idle
  case isFalse => contradiction

theorem notifyAll_cases (stepped : pool.notifyAll = some (next, events)) :
    Step config pool .notifyAll next events := by
  simp only [notifyAll] at stepped
  split at stepped
  case isTrue flagged =>
      cases stepped
      exact .called flagged
  case isFalse => contradiction

end

theorem notifyOne_cases {caller : Caller} {woken : Option Worker}
    (stepped : pool.notifyOne caller woken = some (next, events)) :
    Step config pool (.notifyOne caller woken) next events := by
  simp only [notifyOne] at stepped
  split at stepped
  case isTrue notifying =>
      cases woken with
      | some worker =>
          simp only at stepped
          split at stepped
          case isTrue blocked =>
              cases stepped
              exact .notified notifying blocked
          case isFalse => contradiction
      | none =>
          simp only at stepped
          split at stepped
          case isTrue none_ =>
              cases stepped
              exact .unheard notifying none_
          case isFalse => contradiction
  case isFalse => contradiction

theorem join_cases (stepped : pool.join = some (next, events)) :
    Step config pool .join next events := by
  simp only [join] at stepped
  split at stepped
  case isTrue able =>
      cases stepped
      exact .joined able.1 able.2
  case isFalse => contradiction

end Cases

/-- A step of the pool is one of these. -/
theorem step_cases {config : Config} {pool next : Pool Worker Caller Request}
    {label : Label Worker Caller Request} {events : List (Event Worker Caller Request)}
    (stepped : pool.step config label = some (next, events)) :
    Step config pool label next events := by
  cases label with
  | call caller task => exact call_cases stepped
  | push caller => exact push_cases stepped
  | notifyOne caller woken => exact notifyOne_cases stepped
  | lock worker => exact lock_cases stepped
  | test worker => exact test_cases stepped
  | block worker => exact block_cases stepped
  | wake worker => exact wake_cases stepped
  | dequeue worker => exact dequeue_cases stepped
  | finish worker => exact finish_cases stepped
  | setStop => exact setStop_cases stepped
  | notifyAll => exact notifyAll_cases stepped
  | join => exact join_cases stepped

end Pool

end TimeGANWebServer.Threadpool
