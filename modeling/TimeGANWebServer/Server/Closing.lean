import TimeGANWebServer.Http.Overflow
import TimeGANWebServer.Server.Steps

/-!
# Closing connections

As long as every response fits, connections are closed by their timers' callbacks only:
the nodes in the wheel are those of the open connections, every close hits the
connection it is meant for, and connections are counted right.  A worker that closes a
connection itself leaves its node in the wheel, and the callback closes once more.
-/

namespace TimeGANWebServer.Server

open TimeGANWebServer.Http TimeGANWebServer.Support TimeGANWebServer.Timer

namespace State

/-! ## Timers and connections -/

/-- The nodes in the wheel correspond to the open connections: each of these has one,
its `client_data` points to it, and it points back. -/
structure Matched (state : State) : Prop where
  node : ∀ fd ∈ state.openFds, ∃ timer, (state.usersTimer fd).timer = some timer ∧
    state.timers.dataOf timer = some fd ∧
      ∀ other, state.timers.dataOf other = some fd → other = timer
  connection : ∀ timer, state.timers.wheel.Linked timer →
    ∃ fd ∈ state.openFds, state.timers.dataOf timer = some fd

theorem Regular.matched {state : State} (regular : state.Regular) (owned : state.Owned) :
    state.Matched where
  node fd isOpen := by
    obtain ⟨timer, pointer, found⟩ := regular.noded fd isOpen
    refine ⟨timer, pointer, found, fun other otherFound => ?_⟩
    exact Option.some.inj ((owned other fd otherFound).2.symm.trans pointer)
  connection timer linked := by
    obtain ⟨fd, found⟩ := (state.timers.linked_iff timer).mp linked
    exact ⟨fd, (owned timer fd found).1, found⟩

/-! ## Counting -/

/-- With the effects so far, connections are accounted for: none was closed twice or is
open after it was closed, every close hit the connection it was meant for, and
`m_user_count` counts the open ones. -/
structure Counted (state : State) (log : List Effect) : Prop where
  nodup : ((closings log).map Prod.fst ++ state.openFds.map state.owner).Nodup
  below : ∀ conn ∈ (closings log).map Prod.fst ++ state.openFds.map state.owner,
    conn < state.nextConn
  hits : ∀ closing ∈ closings log, closing.2 = some closing.1
  count : state.userCount = state.openFds.length

theorem start_counted (users : Fd → HttpConn) (usersTimer : Fd → ClientData)
    (nodes : Addr → UtilTimer) : (start users usersTimer nodes).Counted [] := by
  refine ⟨?_, ?_, ?_, ?_⟩ <;> simp [start]

/-- What is accounted for stays counted. -/
theorem Accounts.counted {before : State} {outcome : Outcome} {log : List Effect}
    (accounts : before.Accounts outcome) (counted : before.Counted log) :
    outcome.state.Counted (log ++ outcome.effects) := by
  have same : ((closings (log ++ outcome.effects)).map Prod.fst ++
      outcome.state.openFds.map outcome.state.owner).Perm
        ((closings log).map Prod.fst ++ before.openFds.map before.owner) := by
    rw [closings_append, List.map_append, List.append_assoc, accounts.owner]
    exact accounts.conns.symm.append_left _
  refine ⟨same.nodup_iff.mpr counted.nodup, ?_, ?_, ?_⟩
  · intro conn member
    rw [accounts.nextConn]
    exact counted.below conn (same.mem_iff.mp member)
  · intro closing member
    rw [closings_append, List.mem_append] at member
    exact member.elim (counted.hits closing) (accounts.hits closing)
  · have balance := accounts.count
    have count := counted.count
    omega

/-- A new connection is open and was never closed. -/
theorem Counted.timer {state : State} {log : List Effect} (counted : state.Counted log)
    (config : Config) {fd : Fd} (fresh : fd ∉ state.openFds) :
    (state.timer config fd).Counted log := by
  obtain ⟨nextConn, userCount, owner, openFds⟩ := frame_timer config state fd
  have others : state.openFds.map (state.timer config fd).owner =
      state.openFds.map state.owner := by
    refine List.map_congr_left fun other isOpen => ?_
    rw [owner, Function.update_of_ne]
    rintro rfl
    exact fresh isOpen
  have conns : ((closings log).map Prod.fst ++
      (state.timer config fd).openFds.map (state.timer config fd).owner).Perm
        (state.nextConn :: ((closings log).map Prod.fst ++ state.openFds.map state.owner)) := by
    rw [openFds, List.map_cons, others, owner, Function.update_self]
    exact List.perm_middle
  refine ⟨?_, ?_, counted.hits, ?_⟩
  · refine conns.nodup_iff.mpr (List.nodup_cons.mpr ⟨fun member => ?_, counted.nodup⟩)
    exact Nat.lt_irrefl _ (counted.below _ member)
  · intro conn member
    rw [nextConn]
    rcases List.mem_cons.mp (conns.mem_iff.mp member) with rfl | earlier
    · exact Nat.lt_succ_self _
    · exact Nat.lt_succ_of_lt (counted.below conn earlier)
  · rw [userCount, openFds, counted.count, List.length_cons]
    omega

/-! ## Runs -/

/-- What holds along every run in which the responses fit. -/
structure Kept (state : State) (log : List Effect) : Prop where
  regular : state.Regular
  owned : state.Owned
  timers : ∀ effect ∈ log, effect.TimerOk
  counted : state.Counted log

theorem Kept.step {config : Config} {state next : State} {log effects : List Effect}
    {label : Label} (kept : state.Kept log) (fits : state.Fits label)
    (stepped : step config state label = some (next, effects)) : next.Kept (log ++ effects) := by
  rcases kept.regular.step fits stepped with proceeds | ⟨fd, fresh, rfl, rfl⟩
  · have accounts := proceeds.accounts kept.owned
    refine ⟨proceeds.regular, accounts.owned, fun effect member => ?_,
      accounts.counted kept.counted⟩
    exact (List.mem_append.mp member).elim (kept.timers effect) (proceeds.timers effect)
  · obtain ⟨regular, owned⟩ := kept.regular.timer config fresh
    rw [List.append_nil]
    exact ⟨regular, owned kept.owned, kept.timers, kept.counted.timer config fresh⟩

theorem kept_of_run {config : Config} {users : Fd → HttpConn} {usersTimer : Fd → ClientData}
    {nodes : Addr → UtilTimer} {labels : List Label} {last : State} {effects : List Effect}
    (fits : RunMeets (step config) State.Fits (start users usersTimer nodes) labels)
    (ran : run (step config) (start users usersTimer nodes) labels = some (last, effects)) :
    last.Kept effects := by
  have first : (start users usersTimer nodes).Kept [] :=
    ⟨start_regular users usersTimer nodes, start_owned users usersTimer nodes,
      fun _ member => absurd member List.not_mem_nil, start_counted users usersTimer nodes⟩
  have kept := run_invariant Kept
    (fun _ _ _ _ _ kept fits stepped => kept.step fits stepped) first fits ran
  rwa [List.nil_append] at kept

end State

/-- **Timers and connections correspond.**  In every run in which no worker closes a
connection, in either actor mode, the nodes in the wheel are those of the open
connections; whenever a pointer to a timer is used it points to the node of the slot it
is used for, and no node is freed that is not in use. -/
theorem timers_matched (config : Config) (users : Fd → HttpConn) (usersTimer : Fd → ClientData)
    (nodes : Addr → UtilTimer) {labels : List Label} {last : State} {effects : List Effect}
    (fits : RunMeets (step config) State.Fits (State.start users usersTimer nodes) labels)
    (ran : run (step config) (State.start users usersTimer nodes) labels = some (last, effects)) :
    last.Matched ∧ ∀ effect ∈ effects, effect.TimerOk := by
  have kept := State.kept_of_run fits ran
  exact ⟨kept.regular.matched kept.owned, kept.timers⟩

/-- A server in reactor mode with one worker. -/
def reactor : Config where
  actorModel := 1
  threadNumber := 1
  maxRequests := 10000
  connTrigMode := 0
  root := ascii "/root"

/-- A worker answers the request of a connection, which is closed behind the response. -/
def answered : List Label :=
  onePage ++ [.epollWait [(7, .writable)], .write [.accepted 57]]

/-- In reactor mode the connection is closed behind `adjust_timer`, through the old pointer. -/
theorem timers_matched_reactor :
    ∃ last effects,
      run (step reactor) (State.start blankUsers blankTimers blankNodes) answered =
        some (last, effects) ∧
      last.Matched ∧ ∀ effect ∈ effects, effect.TimerOk := by
  have runs : (run (step reactor) (State.start blankUsers blankTimers blankNodes)
      answered).isSome := by
    decide +kernel
  obtain ⟨⟨last, effects⟩, ran⟩ := Option.isSome_iff_exists.mp runs
  exact ⟨last, effects, ran,
    timers_matched reactor blankUsers blankTimers blankNodes (by decide +kernel) ran⟩

/-- **Connections are closed and counted once**, in every run in which no worker closes a
connection: no two closes are for one connection, each hits the connection it is meant
for, and `m_user_count` is the number of open connections. -/
theorem closed_once (config : Config) (users : Fd → HttpConn) (usersTimer : Fd → ClientData)
    (nodes : Addr → UtilTimer) {labels : List Label} {last : State} {effects : List Effect}
    (fits : RunMeets (step config) State.Fits (State.start users usersTimer nodes) labels)
    (ran : run (step config) (State.start users usersTimer nodes) labels = some (last, effects)) :
    ((closings effects).map Prod.fst).Nodup ∧
      (∀ closing ∈ closings effects, closing.2 = some closing.1) ∧
      last.userCount = last.openFds.length := by
  have counted := (State.kept_of_run fits ran).counted
  exact ⟨counted.nodup.of_append_left, counted.hits, counted.count⟩

theorem closed_once_reactor :
    ∃ last effects,
      run (step reactor) (State.start blankUsers blankTimers blankNodes) answered =
        some (last, effects) ∧
      closings effects = [(0, some 0)] ∧
      ((closings effects).map Prod.fst).Nodup ∧
        (∀ closing ∈ closings effects, closing.2 = some closing.1) ∧
        last.userCount = last.openFds.length := by
  have runs : (run (step reactor) (State.start blankUsers blankTimers blankNodes) answered).map
      (fun outcome => closings outcome.2) = some [(0, some 0)] := by
    decide +kernel
  obtain ⟨⟨last, effects⟩, ran, closed⟩ := Option.map_eq_some_iff.mp runs
  exact ⟨last, effects, ran, closed,
    closed_once reactor blankUsers blankTimers blankNodes (by decide +kernel) ran⟩

/-! ## A worker that closes a connection -/

namespace State

/-- A state with other slots. -/
def withSlots (state : State) (users : Fd → HttpConn) (origins : Fd → Origins) : State :=
  { state with users := users, origins := origins }

theorem close_withSlots (state : State) (users : Fd → HttpConn) (origins : Fd → Origins) (fd : Int)
    (intended : ConnId) :
    (state.withSlots users origins).close fd intended =
      { state := (state.close fd intended).state.withSlots users origins
        effects := (state.close fd intended).effects } := by
  by_cases isFd : 0 ≤ fd
  · simp only [close, if_pos isFd]
    rfl
  · simp only [close, if_neg isFd]

theorem cbFunc_withSlots (state : State) (users : Fd → HttpConn) (origins : Fd → Origins)
    (data : Fd) :
    (state.withSlots users origins).cbFunc data =
      { state := (state.cbFunc data).state.withSlots users origins
        effects := (state.cbFunc data).effects } := by
  have same : (state.withSlots users origins).usersTimer = state.usersTimer := rfl
  simp only [cbFunc, same, close_withSlots]
  rfl

/-- The callbacks of a tick look at no slot. -/
theorem fireTimers_withSlots (state : State) (users : Fd → HttpConn) (origins : Fd → Origins)
    (timers : List Addr) :
    (state.withSlots users origins).fireTimers timers =
      { state := (state.fireTimers timers).state.withSlots users origins
        effects := (state.fireTimers timers).effects } := by
  induction timers generalizing state with
  | nil => rfl
  | cons timer timers ih =>
      have callback := cbFunc_withSlots state users origins
        (state.timers.wheel.timers timer).userData
      have same : (state.withSlots users origins).timers = state.timers := rfl
      simp only [fireTimers, same, callback, Outcome.andThen]
      generalize (state.cbFunc (state.timers.wheel.timers timer).userData) = outcome
      exact congrArg (fun last : Outcome => Outcome.mk last.state
        (outcome.effects ++ [.freeTimer timer (outcome.state.timers.pool.Allocated timer)] ++
          last.effects)) (ih { outcome.state with timers := outcome.state.timers.free timer })

theorem step_tick_withSlots (config : Config) (state : State) (users : Fd → HttpConn)
    (origins : Fd → Origins) :
    step config (state.withSlots users origins) .tick =
      (step config state .tick).map fun next => (next.1.withSlots users origins, next.2) := by
  simp only [step]
  have same : (state.withSlots users origins).pending = state.pending := rfl
  have fires := fireTimers_withSlots { state with timers := state.timers.ticked } users origins
    state.timers.wheel.tick.fired
  rw [same]
  split
  · simp only [Option.map_some, timerHandler]
    simp only [withSlots] at fires ⊢
    rw [fires]
  · rfl

/-- Ticks look at no slot. -/
theorem run_ticks_withSlots (config : Config) (state : State) (users : Fd → HttpConn)
    (origins : Fd → Origins) (count : Nat) :
    run (step config) (state.withSlots users origins) (List.replicate count .tick) =
      (run (step config) state (List.replicate count .tick)).map fun last =>
        (last.1.withSlots users origins, last.2) := by
  induction count generalizing state with
  | zero => rfl
  | succ count ih =>
      simp only [List.replicate_succ, run, step_tick_withSlots]
      cases step config state .tick with
      | none => rfl
      | some next =>
          simp only [Option.map_some, ih, Option.map_map]
          rfl

/-- A worker closes the slot of a request whose response does not fit. -/
theorem work_overflow {config : Config} {state : State} {task : Task} {mysql : Option Nat}
    {env : Env} (idle : (state.users task.fd).state = 0)
    (sockfd : (state.users task.fd).sockfd = task.fd)
    (overflows : HttpConn.Overflows { state.users task.fd with mysql := mysql } env) :
    ∃ users origins, state.work config task mysql env = some {
      state := withSlots { state with
        openFds := state.openFds.erase task.fd
        armed := Function.update state.armed task.fd none
        userCount := state.userCount - 1 } users origins
      effects := [.close task.conn (state.holder task.fd)] } := by
  have isOpen : ({ state.users task.fd with mysql := mysql } : HttpConn).sockfd ≠ -1 := by
    simp only [sockfd]
    omega
  obtain ⟨reply, finished, isReply, done, calls⟩ := overflows.process isOpen
  simp only [sockfd] at calls
  have runs : ¬(config.actorModel = 1 ∧ (state.users task.fd).state ≠ 0) :=
    fun skips => skips.2 idle
  simp only [work, if_neg runs, isReply, done, calls, fdCalls_close]
  exact ⟨_, _, rfl⟩

theorem append_withSlots (config : Config) (state : State) (users : Fd → HttpConn)
    (origins : Fd → Origins) (fd : Fd) :
    (state.withSlots users origins).append config fd =
      (state.append config fd).withSlots users origins := by
  have same : (state.withSlots users origins).queue = state.queue := rfl
  by_cases full : config.maxRequests ≤ state.queue.length
  · simp only [append, same, if_pos full]
  · simp only [append, same, if_neg full]
    rfl

/-- A successful read in reactor mode appends the request. -/
theorem dealwithread_reactor {config : Config} (isReactor : config.actorModel = 1) {state : State}
    {fd : Fd} {results : List RecvResult} {received : RequestState}
    (read : ((state.adjustSlot fd).state.users fd).readOnce
      ((state.adjustSlot fd).state.users fd).trigMode results = some (true, received)) :
    ∃ users origins, state.dealwithread config fd results = some {
        state := withSlots ((state.adjustSlot fd).state.append config fd) users origins
        effects := (state.adjustSlot fd).effects } ∧
      users fd =
        { (state.adjustSlot fd).state.users fd with toRequestState := received, state := 0 } := by
  let adjusted := state.adjustSlot fd
  let user : HttpConn := { adjusted.state.users fd with toRequestState := received }
  let users := Function.update adjusted.state.users fd user
  let origins := Function.update adjusted.state.origins fd
    { adjusted.state.origins fd with
      request := (adjusted.state.origins fd).request.join (.one (adjusted.state.owner fd)) }
  have appended := append_withSlots config adjusted.state
    (Function.update users fd { users fd with state := 0 }) origins fd
  refine ⟨Function.update users fd { users fd with state := 0 }, origins, ?_, ?_⟩
  · simp only [dealwithread, if_pos isReactor, readSlot, read, Option.map_some, Outcome.andThen,
      if_true, List.append_nil]
    rw [← appended]
    rfl
  · simp only [Function.update_self, users, user]
    rfl

end State

/-! ### A diagnosis that does not fit -/

/-- The server with one connection, on descriptor 7. -/
def accepted : State :=
  (State.start blankUsers blankTimers blankNodes).timer reactor 7

/-- The server while it reads the first bytes of the connection. -/
def reading : State :=
  { accepted with armed := fun fd => if fd ∈ [7] then none else accepted.armed fd }

/-- The server with the connection's request in the queue. -/
def queued : State :=
  (reading.adjustSlot 7).state.append reactor 7

/-- The server once a worker has closed the connection. -/
def closedEarly : State :=
  { queued with
    queue := []
    openFds := queued.openFds.erase 7
    armed := Function.update queued.armed 7 none
    userCount := queued.userCount - 1 }

/-- A request whose response does not fit, and sixteen ticks. -/
def longDiagnosis : List Label :=
  .accept 7 :: .epollWait [(7, .readable)] :: .read [.data openStringText] :: .dequeue ::
    .process 0 none openStringEnv :: List.replicate 16 .tick

/-- The worker closes descriptor 7, and the timer's callback closes it once more. -/
theorem not_closed_once :
    ∃ last effects,
      run (step reactor) (State.start blankUsers blankTimers blankNodes) longDiagnosis =
        some (last, effects) ∧
      ¬((closings effects).map Prod.fst).Nodup ∧
        (0, none) ∈ closings effects ∧ last.openFds = [] ∧ last.userCount = -1 := by
  have room : ((reading.adjustSlot 7).state.users 7).readIdx + openStringText.length <
      readBufferSize := by
    rw [openStringText_length]
    decide
  have nonempty : openStringText ≠ [] := by
    refine List.ne_nil_of_length_pos ?_
    rw [openStringText_length]
    decide
  have received := RequestState.readOnce_of_delivers
    (.level (rfl : ((reading.adjustSlot 7).state.users 7).trigMode = 0) nonempty) room
  obtain ⟨users, origins, read, slot⟩ :=
    @State.dealwithread_reactor reactor rfl reading 7 _ _ received
  let busy : State := { queued with queue := [], working := [] }
  have idle : (users 7).state = 0 := by rw [slot]
  have sockfd : (users 7).sockfd = (7 : Nat) := by
    rw [slot]
    rfl
  have request : (users 7).toRequestState =
      (blankUsers 7).toRequestState.init.receive openStringText := by
    rw [slot]
    rfl
  obtain ⟨finalUsers, finalOrigins, worked⟩ := @State.work_overflow reactor
    (busy.withSlots users origins) { fd := 7, conn := 0 } none openStringEnv idle sockfd
    (overflows_openString (blankUsers 7).toRequestState request)
  have ticks : (run (step reactor) closedEarly (List.replicate 16 .tick)).map
      (fun last => (last.1.openFds, last.1.userCount, closings last.2)) =
        some ([], -1, [(0, none)]) := by
    decide +kernel
  obtain ⟨⟨last, effects⟩, ran, facts⟩ := Option.map_eq_some_iff.mp ticks
  simp only [Prod.mk.injEq] at facts
  obtain ⟨openFds, userCount, closed⟩ := facts
  have final : run (step reactor) (closedEarly.withSlots finalUsers finalOrigins)
      (List.replicate 16 .tick) = some (last.withSlots finalUsers finalOrigins, effects) := by
    rw [State.run_ticks_withSlots, ran]
    rfl
  have accept : step reactor (State.start blankUsers blankTimers blankNodes) (.accept 7) =
      some (accepted, []) := rfl
  have report : step reactor accepted (.epollWait [(7, .readable)]) =
      some ({ reading with pending := [(7, .readable)] }, []) := rfl
  have reads : step reactor { reading with pending := [(7, .readable)] }
      (.read [.data openStringText]) =
        some (queued.withSlots users origins, (reading.adjustSlot 7).effects) := by
    have same : ({ reading with pending := [] } : State) = reading := rfl
    simp only [step, same, read, Option.map_some]
    rfl
  have takes : step reactor (queued.withSlots users origins) .dequeue =
      some ({ busy.withSlots users origins with working := [{ fd := 7, conn := 0 }] }, []) :=
    rfl
  have closes :
      step reactor { busy.withSlots users origins with working := [{ fd := 7, conn := 0 }] }
      (.process 0 none openStringEnv) =
        some (closedEarly.withSlots finalUsers finalOrigins, [.close 0 (some 0)]) :=
    congrArg (Option.map fun outcome : Outcome => (outcome.state, outcome.effects)) worked
  have adjusted : closings (reading.adjustSlot 7).effects = [] := by decide +kernel
  have twice : closings ([] ++ ([] ++ ((reading.adjustSlot 7).effects ++ ([] ++
      ([.close 0 (some 0)] ++ effects))))) = [(0, some 0), (0, none)] := by
    simp only [closings_append, closings_nil, adjusted, closed]
    rfl
  refine ⟨_, _, run_of_step accept (run_of_step report (run_of_step reads (run_of_step takes
    (run_of_step closes final)))), ?_, ?_, openFds, userCount⟩
  · rw [twice]
    simp
  · rw [twice]
    simp

end TimeGANWebServer.Server
