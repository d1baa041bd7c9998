import TimeGANWebServer.Server.State
import TimeGANWebServer.Support.Run

/-!
# The event loop and the workers

The functions of `webserver.cpp` that handle events, `cb_func` and `timer_handler` in
`timer/lst_timer.cpp`, and `append`, `append_p` and `run` in `threadpool/threadpool.h`.
One step of the server is an event handled by the main loop, or a worker that takes a
request or processes it.
-/

namespace TimeGANWebServer.Server

open TimeGANWebServer.Http TimeGANWebServer.Support TimeGANWebServer.Timer

namespace State

/-! ## Descriptors -/

/-- The `close` of a descriptor, which also removes it from epoll, on behalf of a
connection.  A descriptor that is not open is left alone. -/
def close (state : State) (fd : Int) (intended : ConnId) : Outcome where
  state :=
    if 0 ≤ fd then
      { state with
        openFds := state.openFds.erase fd.toNat
        armed := Function.update state.armed fd.toNat none }
    else
      state
  effects := [.close intended (if 0 ≤ fd then state.holder fd.toNat else none)]

/-- `modfd`.  It has no effect on a descriptor that is not in epoll. -/
def modfd (state : State) (fd : Int) (interest : Interest) : State :=
  if 0 ≤ fd ∧ fd.toNat ∈ state.openFds then
    { state with armed := Function.update state.armed fd.toNat (some interest) }
  else
    state

/-- The calls a slot's functions make on descriptors, for a connection. -/
def fdCall (conn : ConnId) (state : State) : FdCall → Outcome
  | .modfd fd interest => { state := state.modfd fd interest, effects := [] }
  | .closeConn fd =>
      (state.close fd conn).andThen fun state =>
        { state := { state with userCount := state.userCount - 1 }, effects := [] }

/-- Some of these calls, one after the other. -/
def fdCalls (conn : ConnId) : State → List FdCall → Outcome
  | state, [] => { state := state, effects := [] }
  | state, call :: calls => (state.fdCall conn call).andThen fun state => state.fdCalls conn calls

/-! ## Timers -/

/-- `add_timer(3 * TIMESLOT)`, and the caller's assignment of `user_data`.  The timeout is
positive. -/
def addTimer (state : State) (data : Fd) : Option Addr × State :=
  match state.timers.add (3 * timeslot) data with
  | none => (none, state)
  | some (timer, timers) => (some timer, { state with timers := timers })

/-- `del_timer` of a pointer that is not null, used for a slot. -/
def delTimer (state : State) (fd : Fd) (timer : Addr) : Outcome where
  state := { state with timers := state.timers.remove timer }
  effects := [state.useTimer fd (some timer),
    .freeTimer timer (state.timers.pool.Allocated timer)]

/-- `WebServer::adjust_timer`, called for a slot. -/
def adjustTimer (state : State) (fd : Fd) (timer : Addr) : Outcome :=
  let data := (state.timers.wheel.timers timer).userData
  let used : Outcome := { state := state, effects := [state.useTimer fd (some timer)] }
  (used.andThen fun state => state.delTimer fd timer).andThen fun state =>
    let (newTimer, state) := state.addTimer data
    let index := (state.usersTimer data).sockfd.toNat
    { state := { state with
        usersTimer := Function.update state.usersTimer index
          { state.usersTimer index with timer := newTimer } }
      effects := [] }

/-- `cb_func`: close the descriptor of a `client_data`. -/
def cbFunc (state : State) (data : Fd) : Outcome :=
  (state.close (state.usersTimer data).sockfd (state.usersTimer data).conn).andThen fun state =>
    { state := { state with userCount := state.userCount - 1 }, effects := [] }

/-- `WebServer::deal_timer`.  A null pointer is dereferenced at once. -/
def dealTimer (state : State) (timer : Option Addr) (sockfd : Fd) : Outcome :=
  match timer with
  | none => { state := state, effects := [state.useTimer sockfd none] }
  | some timer =>
      let used : Outcome := { state := state, effects := [state.useTimer sockfd (some timer)] }
      (used.andThen fun state => state.cbFunc sockfd).andThen fun state =>
        state.delTimer sockfd timer

/-- The callbacks of one tick, and the nodes freed behind them. -/
def fireTimers : State → List Addr → Outcome
  | state, [] => { state := state, effects := [] }
  | state, timer :: timers =>
      ((state.cbFunc (state.timers.wheel.timers timer).userData).andThen fun state =>
        { state := { state with timers := state.timers.free timer }
          effects := [.freeTimer timer (state.timers.pool.Allocated timer)] }).andThen fun state =>
        state.fireTimers timers

/-- `Utils::timer_handler`: one tick of the wheel. -/
def timerHandler (state : State) : Outcome :=
  ({ state with timers := state.timers.ticked } : State).fireTimers state.timers.wheel.tick.fired

/-! ## Connections -/

/-- `WebServer::timer`, with `http_conn::init` for the new connection. -/
def timer (config : Config) (state : State) (connfd : Fd) : State :=
  let conn := state.nextConn
  let state : State := { state with
    users := Function.update state.users connfd
      ((state.users connfd).initFor connfd config.root config.connTrigMode)
    openFds := connfd :: state.openFds
    armed := Function.update state.armed connfd (some .epollin)
    userCount := state.userCount + 1
    owner := Function.update state.owner connfd conn
    nextConn := conn + 1
    origins := Function.update state.origins connfd
      { state.origins connfd with request := .nothing, response := .nothing, csv := false } }
  let (timer, state) := state.addTimer connfd
  { state with
    usersTimer := Function.update state.usersTimer connfd
      { sockfd := connfd, timer := timer, conn := conn } }

/-- `WebServer::dealclinetdata` for one accepted connection.  With too many of them,
`show_error` closes the new one. -/
def dealclinetdata (config : Config) (state : State) (connfd : Fd) : State :=
  if maxFd ≤ state.userCount then state else state.timer config connfd

/-- `threadpool::append` and `append_p`.  Nothing is done when the queue is full, and no
caller looks at the result. -/
def append (config : Config) (state : State) (fd : Fd) : State :=
  if config.maxRequests ≤ state.queue.length then
    state
  else
    { state with queue := state.queue ++ [{ fd := fd, conn := state.owner fd }] }

/-- Store a slot. -/
def setUser (state : State) (fd : Fd) (conn : HttpConn) : State :=
  { state with users := Function.update state.users fd conn }

/-- `read_once` on a slot. -/
def readSlot (state : State) (fd : Fd) (results : List RecvResult) : Option (Bool × State) :=
  ((state.users fd).readOnce (state.users fd).trigMode results).map fun read =>
    (read.1,
      { state with
        users := Function.update state.users fd
          { state.users fd with toRequestState := read.2 }
        origins := Function.update state.origins fd
          { state.origins fd with
            request := (state.origins fd).request.join (.one (state.owner fd)) } })

/-- Adjust the timer of a slot, if it has one. -/
def adjustSlot (state : State) (fd : Fd) : Outcome :=
  match (state.usersTimer fd).timer with
  | none => { state := state, effects := [] }
  | some timer => state.adjustTimer fd timer

/-- `WebServer::dealwithread`.  In reactor mode `deal_timer` is called with the pointer
read before `adjust_timer`. -/
def dealwithread (config : Config) (state : State) (sockfd : Fd) (results : List RecvResult) :
    Option Outcome :=
  let timer := (state.usersTimer sockfd).timer
  if config.actorModel = 1 then
    let adjusted := state.adjustSlot sockfd
    (adjusted.state.readSlot sockfd results).map fun read =>
      adjusted.andThen fun _ =>
        if read.1 then
          let state := read.2.setUser sockfd { read.2.users sockfd with state := 0 }
          { state := state.append config sockfd, effects := [] }
        else
          read.2.dealTimer timer sockfd
  else
    (state.readSlot sockfd results).map fun read =>
      if read.1 then
        (read.2.append config sockfd).adjustSlot sockfd
      else
        read.2.dealTimer timer sockfd

/-- Where the array or the mapping a vector points into comes from. -/
def baseSource (origins : Origins) : IovBase → Source
  | .file _ _ => origins.mapping
  | .writeBuf _ | .csv _ => origins.response

/-- Where a byte behind the base of a vector comes from.  Outside of the array or the mapping it is
none of the response. -/
def byteSource (origins : Origins) (response : ResponseState) (base : IovBase) (index : Nat) :
    Source :=
  if response.byteAt base index = none then .other else baseSource origins base

/-- Where the bytes `writev` is offered come from. -/
def offeredSources (origins : Origins) (response : ResponseState) : List Source :=
  ([response.iv0, response.iv1].take response.ivCount).flatMap fun iovec =>
    (List.range iovec.len).map (byteSource origins response iovec.base)

/-- Where the bytes a call of `write` sends come from. -/
def sentSources (origins : Origins) (response : ResponseState) : List WritevResult → List Source
  | .accepted count :: results =>
      (offeredSources origins response).take count ++
        sentSources origins (response.advance count) results
  | _ => []

/-- The source of the bytes a call of `write` sends. -/
def sentSource (state : State) (fd : Fd) (results : List WritevResult) : Source :=
  (sentSources (state.origins fd) (state.users fd).toResponseState results).foldr Source.join
    .nothing

/-- `http_conn::write` on a slot. -/
def writeSlot (state : State) (fd : Fd) (results : List WritevResult) : Option (Bool × Outcome) :=
  ((state.users fd).write results).map fun outcome =>
    let renewed := outcome.ended = .idle ∨ outcome.ended = .complete ∧ outcome.ret = true
    let origins := if renewed then
        { state.origins fd with request := .nothing, response := .nothing, csv := false }
      else
        state.origins fd
    let sent := if outcome.writevs.any fun writev => 0 < writev.accepted then
        [Effect.send (state.holder fd) (state.sentSource fd results)]
      else
        []
    let next : State := { state with
      users := Function.update state.users fd outcome.conn
      origins := Function.update state.origins fd origins }
    let written : Outcome := { state := next, effects := sent }
    (outcome.ret, written.andThen fun next => next.fdCalls (state.owner fd) outcome.fdCalls)

/-- `WebServer::dealwithwrite`. -/
def dealwithwrite (config : Config) (state : State) (sockfd : Fd) (results : List WritevResult) :
    Option Outcome :=
  let timer := (state.usersTimer sockfd).timer
  if config.actorModel = 1 then
    let adjusted := state.adjustSlot sockfd
    (adjusted.state.writeSlot sockfd results).map fun written =>
      (adjusted.andThen fun _ => written.2).andThen fun state =>
        if written.1 then { state := state, effects := [] } else state.dealTimer timer sockfd
  else
    (state.writeSlot sockfd results).map fun written =>
      written.2.andThen fun state =>
        if written.1 then state.adjustSlot sockfd else state.dealTimer timer sockfd

/-! ## Workers -/

/-- Where a slot's parts come from after `process`. -/
def processed (origins : Origins) (code : HttpCode) : Origins :=
  if code = .noRequest then
    origins
  else
    { origins with
      response := origins.response.join origins.request
      mapping := if code = .fileRequest then origins.request else origins.mapping
      csv := code = .diagnoseCsvRequest }

/-- The loop body of `threadpool::run` for a request taken from the queue, with the
database connection it gets.  `none` when the request runs into undefined behavior. -/
def work (config : Config) (state : State) (task : Task) (mysql : Option Nat) (env : Env) :
    Option Outcome :=
  let request := state.users task.fd
  if config.actorModel = 1 ∧ request.state ≠ 0 then
    some { state := state, effects := [] }
  else
    let request : HttpConn := { request with mysql := mysql }
    match request.processRead env, request.process env with
    | .ok reply, .ok finished =>
        let next : State := { state with
          users := Function.update state.users task.fd { finished.conn with mysql := none }
          origins := Function.update state.origins task.fd
            (processed (state.origins task.fd) reply.code) }
        some (next.fdCalls task.conn finished.fdCalls)
    | _, _ => none

end State

/-! ## Steps -/

/-- The steps of the server.  The main loop accepts a connection, gets a batch of events
for client descriptors from `epoll_wait`, handles the first one left of the batch, or,
behind a batch, ticks.  A worker takes the first request of the queue, or processes the
request it has taken. -/
inductive Label where
  | accept (fd : Fd)
  | epollWait (events : List (Fd × Readiness))
  | hangup
  | read (results : List RecvResult)
  | write (results : List WritevResult)
  | tick
  | dequeue
  | process (worker : Nat) (mysql : Option Nat) (env : Env)

/-- epoll can report the event for a descriptor. -/
def State.Reports (state : State) (event : Fd × Readiness) : Prop :=
  match event.2 with
  | .hangup => state.armed event.1 ≠ none
  | .readable => state.armed event.1 = some .epollin
  | .writable => state.armed event.1 = some .epollout

instance (state : State) (event : Fd × Readiness) : Decidable (state.Reports event) := by
  unfold State.Reports
  split <;> infer_instance

/-- One step of the server.  A reported descriptor is disabled, since its events are
`EPOLLONESHOT`. -/
def step (config : Config) (state : State) : Label → Option (State × List Effect)
  | .accept fd =>
      if fd ∈ state.openFds then none else some (state.dealclinetdata config fd, [])
  | .epollWait events =>
      if state.pending = [] ∧ (events.map Prod.fst).Nodup ∧ ∀ event ∈ events, state.Reports event
      then
        some ({ state with
          pending := events
          armed := fun fd => if fd ∈ events.map Prod.fst then none else state.armed fd }, [])
      else
        none
  | .hangup =>
      match state.pending with
      | (fd, .hangup) :: rest =>
          let outcome := ({ state with pending := rest } : State).dealTimer
            (state.usersTimer fd).timer fd
          some (outcome.state, outcome.effects)
      | _ => none
  | .read results =>
      match state.pending with
      | (fd, .readable) :: rest =>
          (({ state with pending := rest } : State).dealwithread config fd results).map
            fun outcome => (outcome.state, outcome.effects)
      | _ => none
  | .write results =>
      match state.pending with
      | (fd, .writable) :: rest =>
          (({ state with pending := rest } : State).dealwithwrite config fd results).map
            fun outcome => (outcome.state, outcome.effects)
      | _ => none
  | .tick =>
      if state.pending = [] then
        some (state.timerHandler.state, state.timerHandler.effects)
      else
        none
  | .dequeue =>
      match state.queue with
      | [] => none
      | task :: rest =>
          if state.working.length < config.threadNumber then
            some ({ state with queue := rest, working := state.working ++ [task] }, [])
          else
            none
  | .process worker mysql env =>
      match state.working[worker]? with
      | none => none
      | some task =>
          (({ state with working := state.working.eraseIdx worker } : State).work config task
            mysql env).map fun outcome => (outcome.state, outcome.effects)

/-- A connection requests a page, and a worker answers. -/
def onePage : List Label :=
  [.accept 7, .epollWait [(7, .readable)], .read [.data (ascii "GET /a HTTP/1.1\r\n\r\n")],
    .dequeue,
    .process 0 none (Env.withFile (ascii "/root/a") (ascii "hi"))]

end TimeGANWebServer.Server
