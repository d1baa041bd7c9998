import TimeGANWebServer.Support.Lending
import TimeGANWebServer.Support.Run
import Mathlib.Algebra.Order.Ring.Int

/-!
# The database connection pool

`init`, `GetConnection` and `ReleaseConnection` in `CGImysql/sql_connection_pool.cpp`, with
the semaphore of `lock/locker.h`.  Any number of threads get and release connections.
The size test, the wait for the semaphore, the locked section and the post to the
semaphore are steps of their own.
-/

namespace TimeGANWebServer.CGImysql

open TimeGANWebServer.Support

/-- `connection_pool`: its counters, `connList`, and the count of its semaphore. -/
structure ConnectionPool (Conn : Type) where
  maxConn : Int
  curConn : Int
  freeConn : Int
  connList : List Conn
  reserve : Int
  deriving DecidableEq, Repr

namespace ConnectionPool

variable {Conn : Type}

/-- The constructor.  `m_MaxConn` is not set before `init`. -/
def new : ConnectionPool Conn where
  maxConn := 0
  curConn := 0
  freeConn := 0
  connList := []
  reserve := 0

/-- The loop of `init`, over what `mysql_real_connect` returns.  A null pointer ends the
program. -/
def connect (pool : ConnectionPool Conn) : List (Option Conn) → Option (ConnectionPool Conn)
  | [] => some pool
  | none :: _ => none
  | some con :: results =>
      connect { pool with connList := pool.connList ++ [con], freeConn := pool.freeConn + 1 }
        results

/-- `connection_pool::init`, with `MaxConn` results of `mysql_real_connect`. -/
def init (pool : ConnectionPool Conn) (results : List (Option Conn)) :
    Option (ConnectionPool Conn) :=
  (pool.connect results).map fun pool =>
    { pool with reserve := pool.freeConn, maxConn := pool.freeConn }

/-- The loop of `init` over connections that were all made. -/
theorem connect_some (pool : ConnectionPool Conn) (conns : List Conn) :
    pool.connect (conns.map some) = some { pool with
      connList := pool.connList ++ conns
      freeConn := pool.freeConn + conns.length } := by
  induction conns generalizing pool with
  | nil => simp [ConnectionPool.connect]
  | cons con conns ih =>
      rw [List.map_cons, ConnectionPool.connect, ih]
      simp only [List.append_assoc, List.singleton_append, List.length_cons, Option.some.injEq,
        ConnectionPool.mk.injEq, true_and, and_true]
      omega

/-- What `init` makes of a new pool and some connections. -/
theorem init_new (conns : List Conn) :
    ConnectionPool.new.init (conns.map some) = some {
      maxConn := conns.length
      curConn := 0
      freeConn := conns.length
      connList := conns
      reserve := conns.length } := by
  simp [ConnectionPool.init, connect_some, ConnectionPool.new]

/-- The locked section of `GetConnection`. -/
def takeFront (pool : ConnectionPool Conn) : Option (Conn × ConnectionPool Conn) :=
  match pool.connList with
  | [] => none
  | con :: rest => some (con, { pool with
      connList := rest
      freeConn := pool.freeConn - 1
      curConn := pool.curConn + 1 })

/-- The locked section of `ReleaseConnection`. -/
def pushBack (pool : ConnectionPool Conn) (con : Conn) : ConnectionPool Conn :=
  { pool with
    connList := pool.connList ++ [con]
    freeConn := pool.freeConn + 1
    curConn := pool.curConn - 1 }

end ConnectionPool

/-- Where a thread is: outside, in `GetConnection` before or behind the wait for the
semaphore, or in `ReleaseConnection` behind the locked section. -/
inductive Phase where
  | idle
  | waiting
  | granted
  | posting
  deriving DecidableEq, Repr

/-- The pool with the threads that use it, and the connections they have got. -/
structure State (Thread Conn : Type) where
  pool : ConnectionPool Conn
  phases : Thread → Phase
  held : Thread → List Conn

/-- What a step does that others can see: `GetConnection` returns a connection or null, or
it calls `front` of an empty list. -/
inductive Event (Thread Conn : Type) where
  | returned (thread : Thread) (con : Option Conn)
  | frontOfEmpty (thread : Thread)
  deriving DecidableEq, Repr

/-- A step of a thread.  It calls `ReleaseConnection` for a connection it holds, or for
null. -/
inductive Label (Thread Conn : Type) where
  | sizeTest (thread : Thread)
  | wait (thread : Thread)
  | take (thread : Thread)
  | release (thread : Thread) (con : Option Conn)
  | post (thread : Thread)
  deriving DecidableEq, Repr

/-- The state after a step, and what the step did, if the step is possible. -/
abbrev Next (Thread Conn : Type) := Option (State Thread Conn × List (Event Thread Conn))

variable {Thread Conn : Type} [DecidableEq Thread] [DecidableEq Conn]

namespace State

/-- A pool that no thread has used yet. -/
def start (pool : ConnectionPool Conn) : State Thread Conn where
  pool := pool
  phases := fun _ => .idle
  held := fun _ => []

/-- Set the phase of a thread. -/
def setPhase (state : State Thread Conn) (thread : Thread) (phase : Phase) : State Thread Conn :=
  { state with phases := Function.update state.phases thread phase }

/-- Set the connections a thread holds. -/
def setHeld (state : State Thread Conn) (thread : Thread) (held : List Conn) :
    State Thread Conn :=
  { state with held := Function.update state.held thread held }

/-- The test at the start of `GetConnection`. -/
def sizeTest (state : State Thread Conn) (thread : Thread) : Next Thread Conn :=
  if state.phases thread = .idle then
    if state.pool.connList.length = 0 then
      some (state, [.returned thread none])
    else
      some (state.setPhase thread .waiting, [])
  else
    none

/-- `reserve.wait()`, which returns once the count is positive. -/
def wait (state : State Thread Conn) (thread : Thread) : Next Thread Conn :=
  if state.phases thread = .waiting ∧ 0 < state.pool.reserve then
    some ({ state with pool := { state.pool with reserve := state.pool.reserve - 1 } }.setPhase
      thread .granted, [])
  else
    none

/-- The rest of `GetConnection`. -/
def take (state : State Thread Conn) (thread : Thread) : Next Thread Conn :=
  if state.phases thread = .granted then
    match state.pool.takeFront with
    | none => some (state.setPhase thread .idle, [.frontOfEmpty thread])
    | some (con, pool) =>
        some (({ state with pool := pool }.setHeld thread (con :: state.held thread)).setPhase
          thread .idle, [.returned thread (some con)])
  else
    none

/-- `ReleaseConnection` up to the end of the locked section.  Null is refused. -/
def release (state : State Thread Conn) (thread : Thread) (con : Option Conn) :
    Next Thread Conn :=
  if state.phases thread = .idle then
    match con with
    | none => some (state, [])
    | some con =>
        if con ∈ state.held thread then
          some (({ state with pool := state.pool.pushBack con }.setHeld thread
            ((state.held thread).erase con)).setPhase thread .posting, [])
        else
          none
  else
    none

/-- `reserve.post()`. -/
def post (state : State Thread Conn) (thread : Thread) : Next Thread Conn :=
  if state.phases thread = .posting then
    some ({ state with pool := { state.pool with reserve := state.pool.reserve + 1 } }.setPhase
      thread .idle, [])
  else
    none

/-- One step of a thread. -/
def step (state : State Thread Conn) : Label Thread Conn → Next Thread Conn
  | .sizeTest thread => state.sizeTest thread
  | .wait thread => state.wait thread
  | .take thread => state.take thread
  | .release thread con => state.release thread con
  | .post thread => state.post thread

/-! ## What a step does -/

/-- The steps that are possible, by what they do. -/
inductive Step (state : State Thread Conn) :
    Label Thread Conn → State Thread Conn → List (Event Thread Conn) → Prop
  | refused {thread} (idle : state.phases thread = .idle) (empty : state.pool.connList = []) :
      Step state (.sizeTest thread) state [.returned thread none]
  | tested {thread} (idle : state.phases thread = .idle) (some_ : state.pool.connList ≠ []) :
      Step state (.sizeTest thread) (state.setPhase thread .waiting) []
  | waited {thread} (waiting : state.phases thread = .waiting) (permit : 0 < state.pool.reserve) :
      Step state (.wait thread)
        ({ state with pool := { state.pool with reserve := state.pool.reserve - 1 } }.setPhase
          thread .granted) []
  | nothing {thread} (granted : state.phases thread = .granted)
      (empty : state.pool.connList = []) :
      Step state (.take thread) (state.setPhase thread .idle) [.frontOfEmpty thread]
  | taken {thread con rest} (granted : state.phases thread = .granted)
      (first : state.pool.connList = con :: rest) :
      Step state (.take thread)
        (({ state with pool := { state.pool with
            connList := rest
            freeConn := state.pool.freeConn - 1
            curConn := state.pool.curConn + 1 } }.setHeld thread
          (con :: state.held thread)).setPhase thread .idle) [.returned thread (some con)]
  | null {thread} (idle : state.phases thread = .idle) : Step state (.release thread none) state []
  | released {thread con} (idle : state.phases thread = .idle) (holds : con ∈ state.held thread) :
      Step state (.release thread (some con))
        (({ state with pool := state.pool.pushBack con }.setHeld thread
          ((state.held thread).erase con)).setPhase thread .posting) []
  | posted {thread} (posting : state.phases thread = .posting) :
      Step state (.post thread)
        ({ state with pool := { state.pool with reserve := state.pool.reserve + 1 } }.setPhase
          thread .idle) []

/-- A step is one of these. -/
theorem step_cases {state next : State Thread Conn} {label : Label Thread Conn}
    {events : List (Event Thread Conn)} (stepped : state.step label = some (next, events)) :
    Step state label next events := by
  cases label with
  | sizeTest thread =>
      simp only [step, sizeTest] at stepped
      split at stepped
      case isTrue idle =>
          split at stepped
          case isTrue empty =>
              cases stepped
              exact .refused idle (List.eq_nil_of_length_eq_zero empty)
          case isFalse some_ =>
              cases stepped
              exact .tested idle fun empty => some_ (by rw [empty, List.length_nil])
      case isFalse => contradiction
  | wait thread =>
      simp only [step, wait] at stepped
      split at stepped
      case isTrue able =>
          cases stepped
          exact .waited able.1 able.2
      case isFalse => contradiction
  | take thread =>
      simp only [step, take, ConnectionPool.takeFront] at stepped
      split at stepped
      case isTrue granted =>
          cases first : state.pool.connList with
          | nil =>
              simp only [first] at stepped
              cases stepped
              exact .nothing granted first
          | cons con rest =>
              simp only [first] at stepped
              cases stepped
              exact .taken granted first
      case isFalse => contradiction
  | release thread con =>
      simp only [step, release] at stepped
      split at stepped
      case isTrue idle =>
          cases con with
          | none =>
              cases stepped
              exact .null idle
          | some con =>
              simp only at stepped
              split at stepped
              case isTrue holds =>
                  cases stepped
                  exact .released idle holds
              case isFalse => contradiction
      case isFalse => contradiction
  | post thread =>
      simp only [step, post] at stepped
      split at stepped
      case isTrue posting =>
          cases stepped
          exact .posted posting
      case isFalse => contradiction

end State

/-! ## No connection is lost -/

/-- The threads between the semaphore and the list. -/
def passage : Passage Phase where
  Granted phase := phase = .granted
  Posting phase := phase = .posting

/-- What holds of the pool and its threads in every run from a pool with some
connections. -/
structure Sound (conns : List Conn) (state : State Thread Conn)
    (log : List (Event Thread Conn)) : Prop where
  conserved : Conserved conns state.pool.connList state.held
  balanced : Balanced passage state.phases state.pool.reserve state.pool.connList.length
  freeConn : state.pool.freeConn = state.pool.connList.length
  curConn : state.pool.curConn = state.pool.maxConn - state.pool.connList.length
  maxConn : state.pool.maxConn = conns.length
  front : ∀ thread, Event.frontOfEmpty thread ∉ log

namespace Sound

variable {conns : List Conn} {state next : State Thread Conn} {label : Label Thread Conn}
  {log events : List (Event Thread Conn)}

/-- A step keeps every connection in one place, and the counters right. -/
theorem step (sound : Sound conns state log) (stepped : State.Step state label next events) :
    Sound conns next (log ++ events) := by
  obtain ⟨conserved, balanced, freeConn, curConn, maxConn, front⟩ := sound
  have quiet : ∀ thread, Event.frontOfEmpty thread ∉ log ++ ([] : List (Event Thread Conn)) := by
    simpa using front
  cases stepped with
  | refused => exact ⟨conserved, balanced, freeConn, curConn, maxConn, by simpa using front⟩
  | null => exact ⟨conserved, balanced, freeConn, curConn, maxConn, quiet⟩
  | @tested thread idle =>
      have balanced : Balanced passage (Function.update state.phases thread .waiting) _ _ :=
        balanced.stay (by simp [passage, idle]) (by simp [passage, idle])
      exact ⟨conserved, balanced, freeConn, curConn, maxConn, quiet⟩
  | @waited thread waiting permit =>
      have balanced : Balanced passage (Function.update state.phases thread .granted) _ _ :=
        balanced.wait permit (by simp [passage, waiting]) rfl (by simp [passage, waiting])
      exact ⟨conserved, balanced, freeConn, curConn, maxConn, quiet⟩
  | nothing granted empty =>
      have pos := balanced.available_pos granted
      rw [empty, List.length_nil] at pos
      exact absurd pos (Nat.lt_irrefl 0)
  | @taken thread con rest granted first =>
      rw [first] at conserved balanced
      rw [first, List.length_cons] at freeConn curConn
      have balanced : Balanced passage (Function.update state.phases thread .idle) _ rest.length :=
        balanced.take granted (by simp [passage]) (by simp [passage, granted])
      refine ⟨conserved.lend, balanced, ?_, ?_, maxConn, by simpa using front⟩
      · simp only [State.setHeld, State.setPhase]
        omega
      · simp only [State.setHeld, State.setPhase]
        omega
  | @released thread con idle holds =>
      have length : (state.pool.pushBack con).connList.length = state.pool.connList.length + 1 :=
        List.length_append
      have balanced : Balanced passage (Function.update state.phases thread .posting) _ _ :=
        balanced.put (by simp [passage, idle]) rfl (by simp [passage, idle])
      rw [← length] at balanced
      refine ⟨conserved.giveBack holds, balanced, ?_, ?_, maxConn, quiet⟩
      · simp only [State.setHeld, State.setPhase, length]
        simp only [ConnectionPool.pushBack]
        omega
      · simp only [State.setHeld, State.setPhase, length]
        simp only [ConnectionPool.pushBack]
        omega
  | @posted thread posting =>
      have balanced : Balanced passage (Function.update state.phases thread .idle) _ _ :=
        balanced.post posting (by simp [passage]) (by simp [passage, posting])
      exact ⟨conserved, balanced, freeConn, curConn, maxConn, quiet⟩

end Sound

omit [DecidableEq Thread] [DecidableEq Conn] in
/-- A pool starts with all its connections, which `mysql_real_connect` has made distinct. -/
theorem Sound.start {conns : List Conn} {pool : ConnectionPool Conn} (distinct : conns.Nodup)
    (made : ConnectionPool.new.init (conns.map some) = some pool) :
    Sound conns (State.start pool : State Thread Conn) [] := by
  rw [ConnectionPool.init_new, Option.some.injEq] at made
  subst made
  exact ⟨.start distinct fun _ => rfl, .start (by simp [passage, State.start])
    (by simp [passage, State.start]) _, rfl, by simp [State.start], rfl,
    fun _ => List.not_mem_nil⟩

/-- **No connection is lost or doubled.**  After `init`, in every run, each connection is in
the list or with one thread, `front` is called on no empty list, and the counters agree
with the list. -/
theorem connections_conserved {conns : List Conn} {pool : ConnectionPool Conn}
    {labels : List (Label Thread Conn)} {state : State Thread Conn}
    {log : List (Event Thread Conn)} (distinct : conns.Nodup)
    (made : ConnectionPool.new.init (conns.map some) = some pool)
    (ran : run State.step (State.start pool) labels = some (state, log)) :
    Conserved conns state.pool.connList state.held ∧
      (∀ thread, Event.frontOfEmpty thread ∉ log) ∧
      state.pool.maxConn = conns.length ∧
      state.pool.freeConn = state.pool.connList.length ∧
      state.pool.curConn = state.pool.maxConn - state.pool.connList.length := by
  have sound : Sound conns state ([] ++ log) :=
    run_invariant (Sound conns)
      (fun _ _ _ _ _ sound _ stepped => sound.step (State.step_cases stepped))
      (Sound.start distinct made) (RunMeets.always _ _) ran
  exact ⟨sound.conserved, sound.front, sound.maxConn, sound.freeConn, sound.curConn⟩

instance neZero_two : NeZero 2 := ⟨Nat.succ_ne_zero 1⟩

/-- Two threads get a connection, and one of them releases it. -/
def twoThreads : List (Label (Fin 2) (Fin 2)) :=
  [.sizeTest 0, .sizeTest 1, .wait 1, .wait 0, .take 1, .take 0, .release 1 (some 0), .post 1]

/-- A pool of two connections with two threads loses none. -/
theorem connections_conserved_two :
    ∃ pool, ConnectionPool.new.init [some 0, some 1] = some pool ∧
      ∃ state log, run State.step (State.start pool) twoThreads = some (state, log) ∧
        Conserved [0, 1] state.pool.connList state.held := by
  refine ⟨_, rfl, _, _, rfl, ?_⟩
  exact (@connections_conserved _ _ _ _ [0, 1] _ twoThreads _ _ (by decide) rfl rfl).1

end TimeGANWebServer.CGImysql
