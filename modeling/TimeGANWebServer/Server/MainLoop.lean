import TimeGANWebServer.Server.Frames
import TimeGANWebServer.Support.Refinement

/-!
# The main loop

`WebServer::eventLoop`, `dealclinetdata` and `dealwithsignal` in `webserver.cpp`, and
`Utils::sig_handler` and `Utils::timer_handler` in `timer/lst_timer.cpp`.  The handler of a signal
writes one byte to a socket, which the main loop reads as one of its events.  `epoll_wait` also
reports the listening socket, level-triggered or edge-triggered.
-/

namespace TimeGANWebServer.Server

open TimeGANWebServer.Http TimeGANWebServer.Support TimeGANWebServer.Timer

/-- The signals that have a handler. -/
inductive Signal where
  | alarm
  | term
  deriving DecidableEq, Repr

/-- What `epoll_wait` reports: the listening socket, `m_pipefd[0]`, or a client descriptor. -/
inductive LoopEvent where
  | listen
  | signals
  | client (event : Fd × Readiness)
  deriving DecidableEq, Repr

/-- Where the main thread is: in front of `epoll_wait`, behind it with events to handle, in
`dealclinetdata` in front of `accept`, or out of the loop. -/
inductive LoopPhase where
  | waiting
  | handling
  | accepting
  | ended
  deriving DecidableEq, Repr

/-- `MAX_EVENT_NUMBER`. -/
def maxEventNumber : Nat := 10000

/-- The size of the array `signals` in `dealwithsignal`. -/
def signalsSize : Nat := 1024

/-- The server with its main thread, its signals and its listening socket.  `alarm` tells that an
alarm is set, and `armedAt` when `alarm` was called last; `ticks` counts the calls of
`timer_handler`.  `raised` are the signals whose handler has not run yet, `pipe` the bytes in the
socket.  `backlog` counts the connections that can be accepted, and `edge` tells that one has
arrived since the listening socket was reported. -/
structure MainLoop where
  server : State
  phase : LoopPhase
  batch : List LoopEvent
  timeout : Bool
  stopServer : Bool
  now : Int
  alarm : Bool
  armedAt : Int
  ticks : Nat
  raised : Signal → Bool
  pipe : List Signal
  backlog : Nat
  edge : Bool

/-- A step of the main thread, of a worker, or of what is around them.  `tick` and `again` are the
end of a batch.  Time passes, the alarm goes off, SIGTERM is sent to the process, a handler runs
and finds room in the socket or not, and a client connects. -/
inductive LoopLabel where
  | epollWait (batch : List LoopEvent)
  | epollFails
  | listen
  | accept (fd : Fd)
  | acceptFails (wouldBlock : Bool)
  | signals
  | client (label : Label)
  | tick
  | again
  | worker (label : Label)
  | pass (seconds : Nat)
  | expire
  | kill
  | deliver (signal : Signal) (room : Bool)
  | connect

/-- The client descriptors of some events. -/
def clientEvents (batch : List LoopEvent) : List (Fd × Readiness) :=
  batch.filterMap fun event =>
    match event with
    | .client event => some event
    | .listen | .signals => none

/-- The label is a step of the main thread at a client descriptor. -/
def Label.AtClient : Label → Prop
  | .hangup | .read _ | .write _ => True
  | .accept _ | .epollWait _ | .tick | .dequeue | .process _ _ _ => False

instance decidableAtClient : (label : Label) → Decidable label.AtClient
  | .hangup | .read _ | .write _ => .isTrue trivial
  | .accept _ | .epollWait _ | .tick | .dequeue | .process _ _ _ => .isFalse id

/-- The label is a step of a worker. -/
def Label.AtWorker : Label → Prop
  | .dequeue | .process _ _ _ => True
  | .hangup | .read _ | .write _ | .accept _ | .epollWait _ | .tick => False

instance decidableAtWorker : (label : Label) → Decidable label.AtWorker
  | .dequeue | .process _ _ _ => .isTrue trivial
  | .hangup | .read _ | .write _ | .accept _ | .epollWait _ | .tick => .isFalse id

/-- The steps of the server in a step. -/
def LoopLabel.serverLabels : LoopLabel → List Label
  | .epollWait batch => [.epollWait (clientEvents batch)]
  | .accept fd => [.accept fd]
  | .client label | .worker label => [label]
  | .tick => [.tick]
  | .epollFails | .listen | .acceptFails _ | .signals | .again | .pass _ | .expire | .kill
  | .deliver _ _ | .connect => []

namespace MainLoop

/-- The main thread behind `eventListen`, at some time. -/
def start (server : State) (now : Int) : MainLoop where
  server := server
  phase := .waiting
  batch := []
  timeout := false
  stopServer := false
  now := now
  alarm := true
  armedAt := now
  ticks := 0
  raised := fun _ => false
  pipe := []
  backlog := 0
  edge := false

/-- The main thread after a step, and what the step did, if the step is possible. -/
abbrev Next := Option (MainLoop × List Effect)

/-- A step of the server. -/
def serve (config : Config) (loop : MainLoop) (label : Label) : Next :=
  (Server.step config loop.server label).map fun next => ({ loop with server := next.1 }, next.2)

/-- epoll can report the event. -/
def Reports (listenTrigmode : Int) (loop : MainLoop) : LoopEvent → Prop
  | .listen => if listenTrigmode = 0 then 0 < loop.backlog else loop.edge = true
  | .signals => loop.pipe ≠ []
  | .client event => loop.server.Reports event

instance decidableReports (listenTrigmode : Int) (loop : MainLoop) :
    (event : LoopEvent) → Decidable (loop.Reports listenTrigmode event)
  | .listen =>
      inferInstanceAs
        (Decidable (if listenTrigmode = 0 then 0 < loop.backlog else loop.edge = true))
  | .signals => inferInstanceAs (Decidable (_ ≠ _))
  | .client event => inferInstanceAs (Decidable (loop.server.Reports event))

/-- `epoll_wait` returns some events, or none since a signal has interrupted it. -/
def epollWait (config : Config) (listenTrigmode : Int) (loop : MainLoop) (batch : List LoopEvent) :
    Next :=
  if loop.phase = .waiting ∧ batch.length ≤ maxEventNumber ∧ batch.Nodup ∧
      ∀ event ∈ batch, loop.Reports listenTrigmode event then
    serve config
      { loop with
        phase := .handling
        batch := batch
        edge := if .listen ∈ batch then false else loop.edge }
      (.epollWait (clientEvents batch))
  else
    none

/-- An event of the listening socket is handled by `dealclinetdata`. -/
def listen (loop : MainLoop) : Next :=
  match loop.phase, loop.batch with
  | .handling, .listen :: rest => some ({ loop with phase := .accepting, batch := rest }, [])
  | _, _ => none

/-- `accept` returns a descriptor.  With `m_LISTENTrigmode` 0 it is called once, otherwise again
and again as long as there are not too many connections. -/
def accept (config : Config) (listenTrigmode : Int) (loop : MainLoop) (fd : Fd) : Next :=
  if loop.phase = .accepting ∧ 0 < loop.backlog then
    serve config
      { loop with
        phase :=
          if listenTrigmode = 0 ∨ maxFd ≤ loop.server.userCount then .handling else .accepting
        backlog := loop.backlog - 1 }
      (.accept fd)
  else
    none

/-- `accept` fails, since there is no connection or for another reason. -/
def acceptFails (loop : MainLoop) (wouldBlock : Bool) : Next :=
  if loop.phase = .accepting ∧ (wouldBlock = true → loop.backlog = 0) then
    some ({ loop with phase := .handling }, [])
  else
    none

/-- What `dealwithsignal` does with one byte. -/
def handleSignal (loop : MainLoop) : Signal → MainLoop
  | .alarm => { loop with timeout := true }
  | .term => { loop with stopServer := true }

/-- `WebServer::dealwithsignal`. -/
def dealwithsignal (loop : MainLoop) : MainLoop :=
  (loop.pipe.take signalsSize).foldl handleSignal { loop with pipe := loop.pipe.drop signalsSize }

/-- An event of `m_pipefd[0]` is handled. -/
def signals (loop : MainLoop) : Next :=
  match loop.phase, loop.batch with
  | .handling, .signals :: rest => some ({ loop with batch := rest }.dealwithsignal, [])
  | _, _ => none

/-- An event of a client descriptor is handled. -/
def client (config : Config) (loop : MainLoop) (label : Label) : Next :=
  match loop.phase, loop.batch with
  | .handling, .client _ :: rest =>
      if label.AtClient then serve config { loop with batch := rest } label else none
  | _, _ => none

/-- Behind a batch, `timer_handler` is called if `timeout` is set. -/
def tick (config : Config) (loop : MainLoop) : Next :=
  if loop.phase = .handling ∧ loop.batch = [] ∧ loop.timeout = true then
    serve config
      { loop with
        timeout := false
        alarm := true
        armedAt := loop.now
        ticks := loop.ticks + 1 }
      .tick
  else
    none

/-- The loop goes on or ends. -/
def again (loop : MainLoop) : Next :=
  if loop.phase = .handling ∧ loop.batch = [] ∧ loop.timeout = false then
    some ({ loop with phase := if loop.stopServer then .ended else .waiting }, [])
  else
    none

/-- `Utils::sig_handler`. -/
def deliver (loop : MainLoop) (signal : Signal) (room : Bool) : Next :=
  if loop.raised signal then
    some ({ loop with
      raised := Function.update loop.raised signal false
      pipe := if room then loop.pipe ++ [signal] else loop.pipe }, [])
  else
    none

/-- One step. -/
def step (config : Config) (listenTrigmode : Int) (loop : MainLoop) : LoopLabel → Next
  | .epollWait batch => loop.epollWait config listenTrigmode batch
  | .epollFails => if loop.phase = .waiting then some ({ loop with phase := .ended }, []) else none
  | .listen => loop.listen
  | .accept fd => loop.accept config listenTrigmode fd
  | .acceptFails wouldBlock => loop.acceptFails wouldBlock
  | .signals => loop.signals
  | .client label => loop.client config label
  | .tick => loop.tick config
  | .again => loop.again
  | .worker label => if label.AtWorker then loop.serve config label else none
  | .pass seconds => some ({ loop with now := loop.now + seconds }, [])
  | .expire =>
      if loop.alarm = true ∧ loop.armedAt + timeslot ≤ loop.now then
        some ({ loop with
          alarm := false
          raised := Function.update loop.raised .alarm true }, [])
      else
        none
  | .kill => some ({ loop with raised := Function.update loop.raised .term true }, [])
  | .deliver signal room => loop.deliver signal room
  | .connect => some ({ loop with backlog := loop.backlog + 1, edge := true }, [])

/-! ## What a step does -/

variable {config : Config} {listenTrigmode : Int} {loop next : MainLoop} {label : LoopLabel}
  {effects : List Effect}

/-- The steps that are possible, by what they do. -/
inductive Step (config : Config) (listenTrigmode : Int) (loop : MainLoop) :
    LoopLabel → MainLoop → List Effect → Prop
  | reported {batch server effects} (waiting : loop.phase = .waiting) (distinct : batch.Nodup)
      (reports : ∀ event ∈ batch, loop.Reports listenTrigmode event)
      (served : Server.step config loop.server (.epollWait (clientEvents batch)) =
        some (server, effects)) :
      Step config listenTrigmode loop (.epollWait batch)
        { loop with
          server := server
          phase := .handling
          batch := batch
          edge := if .listen ∈ batch then false else loop.edge } effects
  | failed (waiting : loop.phase = .waiting) :
      Step config listenTrigmode loop .epollFails { loop with phase := .ended } []
  | listened {rest} (handling : loop.phase = .handling) (first : loop.batch = .listen :: rest) :
      Step config listenTrigmode loop .listen { loop with phase := .accepting, batch := rest } []
  | accepted {fd server effects} (accepting : loop.phase = .accepting) (some_ : 0 < loop.backlog)
      (served : Server.step config loop.server (.accept fd) = some (server, effects)) :
      Step config listenTrigmode loop (.accept fd)
        { loop with
          server := server
          phase :=
            if listenTrigmode = 0 ∨ maxFd ≤ loop.server.userCount then .handling else .accepting
          backlog := loop.backlog - 1 } effects
  | acceptFailed {wouldBlock} (accepting : loop.phase = .accepting)
      (blocks : wouldBlock = true → loop.backlog = 0) :
      Step config listenTrigmode loop (.acceptFails wouldBlock) { loop with phase := .handling } []
  | signalled {rest} (handling : loop.phase = .handling) (first : loop.batch = .signals :: rest) :
      Step config listenTrigmode loop .signals { loop with batch := rest }.dealwithsignal []
  | handled {label event rest server effects} (handling : loop.phase = .handling)
      (first : loop.batch = .client event :: rest) (atClient : label.AtClient)
      (served : Server.step config loop.server label = some (server, effects)) :
      Step config listenTrigmode loop (.client label) { loop with server := server, batch := rest }
        effects
  | ticked {server effects} (handling : loop.phase = .handling) (done : loop.batch = [])
      (isTimeout : loop.timeout = true)
      (served : Server.step config loop.server .tick = some (server, effects)) :
      Step config listenTrigmode loop .tick
        { loop with
          server := server
          timeout := false
          alarm := true
          armedAt := loop.now
          ticks := loop.ticks + 1 } effects
  | wentOn (handling : loop.phase = .handling) (done : loop.batch = [])
      (noTimeout : loop.timeout = false) :
      Step config listenTrigmode loop .again
        { loop with phase := if loop.stopServer then .ended else .waiting } []
  | worked {label server effects} (atWorker : label.AtWorker)
      (served : Server.step config loop.server label = some (server, effects)) :
      Step config listenTrigmode loop (.worker label) { loop with server := server } effects
  | passed {seconds} :
      Step config listenTrigmode loop (.pass seconds) { loop with now := loop.now + seconds } []
  | expired (set : loop.alarm = true) (due : loop.armedAt + timeslot ≤ loop.now) :
      Step config listenTrigmode loop .expire
        { loop with alarm := false, raised := Function.update loop.raised .alarm true } []
  | killed :
      Step config listenTrigmode loop .kill
        { loop with raised := Function.update loop.raised .term true } []
  | delivered {signal room} (raised : loop.raised signal = true) :
      Step config listenTrigmode loop (.deliver signal room)
        { loop with
          raised := Function.update loop.raised signal false
          pipe := if room then loop.pipe ++ [signal] else loop.pipe } []
  | connected :
      Step config listenTrigmode loop .connect
        { loop with backlog := loop.backlog + 1, edge := true } []

theorem serve_cases {label : Label} (served : loop.serve config label = some (next, effects)) :
    ∃ server, Server.step config loop.server label = some (server, effects) ∧
      next = { loop with server := server } := by
  obtain ⟨⟨server, made⟩, isMade, same⟩ := Option.map_eq_some_iff.mp served
  cases same
  exact ⟨server, isMade, rfl⟩

theorem step_cases (stepped : loop.step config listenTrigmode label = some (next, effects)) :
    Step config listenTrigmode loop label next effects := by
  cases label with
  | epollWait batch =>
      simp only [step, epollWait] at stepped
      split at stepped
      case isFalse => contradiction
      case isTrue possible =>
          obtain ⟨waiting, _, distinct, reports⟩ := possible
          obtain ⟨server, served, rfl⟩ := serve_cases stepped
          exact .reported waiting distinct reports served
  | epollFails =>
      simp only [step] at stepped
      split at stepped
      case isFalse => contradiction
      case isTrue waiting =>
          cases stepped
          exact .failed waiting
  | listen =>
      simp only [step, listen] at stepped
      split at stepped
      case h_2 => contradiction
      case h_1 rest handling first =>
          cases stepped
          exact .listened handling first
  | accept fd =>
      simp only [step, accept] at stepped
      split at stepped
      case isFalse => contradiction
      case isTrue possible =>
          obtain ⟨server, served, rfl⟩ := serve_cases stepped
          exact .accepted possible.1 possible.2 served
  | acceptFails wouldBlock =>
      simp only [step, acceptFails] at stepped
      split at stepped
      case isFalse => contradiction
      case isTrue possible =>
          cases stepped
          exact .acceptFailed possible.1 possible.2
  | signals =>
      simp only [step, signals] at stepped
      split at stepped
      case h_2 => contradiction
      case h_1 rest handling first =>
          cases stepped
          exact .signalled handling first
  | client label =>
      simp only [step, client] at stepped
      split at stepped
      case h_2 => contradiction
      case h_1 event rest handling first =>
          split at stepped
          case isFalse => contradiction
          case isTrue atClient =>
              obtain ⟨server, served, rfl⟩ := serve_cases stepped
              exact .handled handling first atClient served
  | tick =>
      simp only [step, tick] at stepped
      split at stepped
      case isFalse => contradiction
      case isTrue possible =>
          obtain ⟨handling, done, isTimeout⟩ := possible
          obtain ⟨server, served, rfl⟩ := serve_cases stepped
          exact .ticked handling done isTimeout served
  | again =>
      simp only [step, again] at stepped
      split at stepped
      case isFalse => contradiction
      case isTrue possible =>
          obtain ⟨handling, done, noTimeout⟩ := possible
          cases stepped
          exact .wentOn handling done noTimeout
  | worker label =>
      simp only [step] at stepped
      split at stepped
      case isFalse => contradiction
      case isTrue atWorker =>
          obtain ⟨server, served, rfl⟩ := serve_cases stepped
          exact .worked atWorker served
  | pass seconds =>
      cases stepped
      exact .passed
  | expire =>
      simp only [step] at stepped
      split at stepped
      case isFalse => contradiction
      case isTrue possible =>
          cases stepped
          exact .expired possible.1 possible.2
  | kill =>
      cases stepped
      exact .killed
  | deliver signal room =>
      simp only [step, deliver] at stepped
      split at stepped
      case isFalse => contradiction
      case isTrue raised =>
          cases stepped
          exact .delivered raised
  | connect =>
      cases stepped
      exact .connected

/-! ## The signals of a batch -/

/-- The signals in the socket that one call reads. -/
theorem foldl_handleSignal (signals : List Signal) (loop : MainLoop) :
    signals.foldl handleSignal loop =
      { loop with
        timeout := loop.timeout || signals.contains .alarm
        stopServer := loop.stopServer || signals.contains .term } := by
  induction signals generalizing loop with
  | nil => simp only [List.foldl_nil, List.contains_nil, Bool.or_false]
  | cons signal rest ih =>
      rw [List.foldl_cons, ih]
      cases signal <;> simp [handleSignal]

theorem dealwithsignal_eq (loop : MainLoop) :
    loop.dealwithsignal =
      { loop with
        pipe := loop.pipe.drop signalsSize
        timeout := loop.timeout || (loop.pipe.take signalsSize).contains .alarm
        stopServer := loop.stopServer || (loop.pipe.take signalsSize).contains .term } := by
  rw [dealwithsignal, foldl_handleSignal]

/-! ## The order of a batch -/

/-- In front of `epoll_wait` no event is left, and the loop has not been told to end; and no event
is reported twice in a batch. -/
structure Orderly (loop : MainLoop) : Prop where
  waiting : loop.phase = .waiting → loop.batch = [] ∧ loop.stopServer = false
  distinct : loop.batch.Nodup

theorem orderly_start (server : State) (now : Int) : Orderly (start server now) where
  waiting := fun _ => ⟨rfl, rfl⟩
  distinct := .nil

/-- The main thread is not in front of `epoll_wait`, and its events are some of those before. -/
theorem Orderly.of_sublist (orderly : loop.Orderly) (notWaiting : next.phase ≠ .waiting)
    (sublist : next.batch.Sublist loop.batch) : next.Orderly where
  waiting := fun waiting => absurd waiting notWaiting
  distinct := orderly.distinct.sublist sublist

/-- The main thread does nothing. -/
theorem Orderly.congr (orderly : loop.Orderly) (phase : next.phase = loop.phase)
    (batch : next.batch = loop.batch) (stopServer : next.stopServer = loop.stopServer) :
    next.Orderly where
  waiting := by
    rw [phase, batch, stopServer]
    exact orderly.waiting
  distinct := by
    rw [batch]
    exact orderly.distinct

theorem Orderly.step (orderly : loop.Orderly)
    (stepped : Step config listenTrigmode loop label next effects) : next.Orderly := by
  have handles : loop.phase = .handling → loop.phase ≠ .waiting := fun handling => by
    rw [handling]
    nofun
  cases stepped with
  | reported _ distinct => exact ⟨nofun, distinct⟩
  | failed => exact orderly.of_sublist nofun (List.Sublist.refl _)
  | listened _ first =>
      refine orderly.of_sublist nofun ?_
      rw [first]
      exact List.sublist_cons_self _ _
  | accepted =>
      refine orderly.of_sublist ?_ (List.Sublist.refl _)
      simp only
      split <;> nofun
  | acceptFailed => exact orderly.of_sublist nofun (List.Sublist.refl _)
  | signalled handling first =>
      rw [dealwithsignal_eq]
      refine orderly.of_sublist (handles handling) ?_
      simp only [first]
      exact List.sublist_cons_self _ _
  | handled handling first =>
      refine orderly.of_sublist (handles handling) ?_
      simp only [first]
      exact List.sublist_cons_self _ _
  | wentOn handling done noTimeout =>
      refine ⟨fun waiting => ⟨done, ?_⟩, orderly.distinct⟩
      by_contra stops
      simp only [Bool.not_eq_false] at stops
      simp only [stops, if_true] at waiting
      contradiction
  | ticked | worked | passed | expired | killed | delivered | connected =>
      exact orderly.congr rfl rfl rfl

end MainLoop

/-! ## The events of client descriptors -/

namespace State

/-- Nothing happens to the events that are still to be handled. -/
def Pends (state : State) (outcome : Outcome) : Prop :=
  outcome.state.pending = state.pending

theorem Pends.andThen {state : State} {outcome : Outcome} {next : State → Outcome}
    (pends : state.Pends outcome) (further : ∀ state : State, state.Pends (next state)) :
    state.Pends (outcome.andThen next) :=
  (further outcome.state).trans pends

theorem pends_close (state : State) (fd : Int) (intended : ConnId) :
    state.Pends (state.close fd intended) := by
  simp only [Pends, close]
  split <;> rfl

theorem pends_fdCall (state : State) (conn : ConnId) (call : FdCall) :
    state.Pends (State.fdCall conn state call) := by
  cases call with
  | modfd fd interest =>
      simp only [Pends, fdCall, modfd]
      split <;> rfl
  | closeConn fd => exact (pends_close state fd conn).andThen fun _ => rfl

theorem pends_fdCalls (state : State) (conn : ConnId) (calls : List FdCall) :
    state.Pends (State.fdCalls conn state calls) := by
  induction calls generalizing state with
  | nil => rfl
  | cons call calls ih => exact (pends_fdCall state conn call).andThen ih

theorem pends_cbFunc (state : State) (data : Fd) : state.Pends (state.cbFunc data) :=
  (pends_close state _ _).andThen fun _ => rfl

theorem Retimed.pends {state : State} {outcome : Outcome} (retimed : state.Retimed outcome.state) :
    state.Pends outcome := by
  rw [Pends, retimed.rest]

theorem pends_dealTimer (state : State) (timer : Option Addr) (fd : Fd) :
    state.Pends (state.dealTimer timer fd) := by
  cases timer with
  | none => rfl
  | some timer =>
      have used : state.Pends { state := state, effects := [state.useTimer fd (some timer)] } := rfl
      exact (used.andThen fun state => pends_cbFunc state fd).andThen fun state =>
        (delTimer_retimed state fd timer).pends

theorem pends_fireTimers (state : State) (timers : List Addr) :
    state.Pends (state.fireTimers timers) := by
  induction timers generalizing state with
  | nil => rfl
  | cons timer timers ih =>
      refine Pends.andThen (Pends.andThen (pends_cbFunc state _) fun state => ?_) ih
      rfl

theorem pending_append (config : Config) (state : State) (fd : Fd) :
    (state.append config fd).pending = state.pending := by
  simp only [append]
  split <;> rfl

theorem pends_dealwithread {config : Config} {state : State} {fd : Fd} {results : List RecvResult}
    {outcome : Outcome} (dealt : state.dealwithread config fd results = some outcome) :
    state.Pends outcome := by
  simp only [dealwithread] at dealt
  split at dealt
  · have adjusted := (adjustSlot_retimed state fd).pends
    obtain ⟨⟨ret, next⟩, read, rfl⟩ := Option.map_eq_some_iff.mp dealt
    obtain ⟨request, origins, rfl⟩ := readSlot_cases read
    cases ret with
    | true =>
        exact (pending_append config _ fd).trans adjusted
    | false => exact (pends_dealTimer _ _ fd).trans adjusted
  · obtain ⟨⟨ret, next⟩, read, rfl⟩ := Option.map_eq_some_iff.mp dealt
    obtain ⟨request, origins, rfl⟩ := readSlot_cases read
    cases ret with
    | true => exact ((adjustSlot_retimed _ fd).pends).trans (pending_append config _ fd)
    | false => exact pends_dealTimer _ _ fd

theorem pends_writeSlot {state : State} {fd : Fd} {results : List WritevResult}
    {written : Bool × Outcome} (writes : state.writeSlot fd results = some written) :
    state.Pends written.2 := by
  obtain ⟨outcome, _, rfl⟩ := Option.map_eq_some_iff.mp writes
  exact Pends.andThen rfl fun state => pends_fdCalls state _ _

theorem pends_dealwithwrite {config : Config} {state : State} {fd : Fd}
    {results : List WritevResult} {outcome : Outcome}
    (dealt : state.dealwithwrite config fd results = some outcome) : state.Pends outcome := by
  simp only [dealwithwrite] at dealt
  split at dealt
  · have adjusted := (adjustSlot_retimed state fd).pends
    obtain ⟨⟨ret, written⟩, writes, rfl⟩ := Option.map_eq_some_iff.mp dealt
    refine Pends.andThen ((pends_writeSlot writes).trans adjusted) fun state => ?_
    split
    · rfl
    · exact pends_dealTimer state _ fd
  · obtain ⟨⟨ret, written⟩, writes, rfl⟩ := Option.map_eq_some_iff.mp dealt
    refine (pends_writeSlot writes).andThen fun state => ?_
    split
    · exact (adjustSlot_retimed state fd).pends
    · exact pends_dealTimer state _ fd

theorem pending_dealclinetdata (config : Config) (state : State) (fd : Fd) :
    (state.dealclinetdata config fd).pending = state.pending := by
  simp only [dealclinetdata]
  split <;> rfl

theorem pends_work {config : Config} {state : State} {task : Task} {mysql : Option Nat} {env : Env}
    {outcome : Outcome} (worked : state.work config task mysql env = some outcome) :
    state.Pends outcome := by
  rcases work_cases worked with ⟨_, rfl⟩ | ⟨conn, origins, calls, _, rfl, _⟩
  · rfl
  · exact pends_fdCalls _ _ _

/-- The events that are still to be handled behind a step. -/
def pendingBehind (state : State) : Label → List (Fd × Readiness)
  | .epollWait events => events
  | .hangup | .read _ | .write _ => state.pending.tail
  | .accept _ | .tick | .dequeue | .process _ _ _ => state.pending

theorem pending_step {config : Config} {state next : State} {label : Label} {effects : List Effect}
    (stepped : step config state label = some (next, effects)) :
    next.pending = state.pendingBehind label := by
  cases label with
  | accept fd =>
      simp only [step] at stepped
      split at stepped <;> cases stepped
      exact pending_dealclinetdata config state fd
  | epollWait events =>
      simp only [step] at stepped
      split at stepped <;> cases stepped
      rfl
  | hangup =>
      simp only [step] at stepped
      split at stepped
      case h_2 => contradiction
      case h_1 fd rest first =>
          cases stepped
          rw [pendingBehind, first]
          exact pends_dealTimer _ _ fd
  | read results =>
      simp only [step] at stepped
      split at stepped
      case h_2 => contradiction
      case h_1 fd rest first =>
          obtain ⟨outcome, dealt, same⟩ := Option.map_eq_some_iff.mp stepped
          cases same
          rw [pendingBehind, first]
          exact pends_dealwithread dealt
  | write results =>
      simp only [step] at stepped
      split at stepped
      case h_2 => contradiction
      case h_1 fd rest first =>
          obtain ⟨outcome, dealt, same⟩ := Option.map_eq_some_iff.mp stepped
          cases same
          rw [pendingBehind, first]
          exact pends_dealwithwrite dealt
  | tick =>
      simp only [step] at stepped
      split at stepped <;> cases stepped
      exact pends_fireTimers _ _
  | dequeue =>
      simp only [step] at stepped
      split at stepped
      · contradiction
      · split at stepped <;> cases stepped
        rfl
  | process worker mysql env =>
      simp only [step] at stepped
      split at stepped
      · contradiction
      · obtain ⟨outcome, worked, same⟩ := Option.map_eq_some_iff.mp stepped
        cases same
        have pends := pends_work worked
        exact pends

end State

/-! ## The main loop and the server -/

namespace MainLoop

variable {config : Config} {listenTrigmode : Int} {loop next : MainLoop} {label : LoopLabel}
  {effects log : List Effect}

/-- The client descriptors of the batch are those that the server still has to handle. -/
def Synced (loop : MainLoop) : Prop :=
  loop.server.pending = clientEvents loop.batch

theorem Synced.step (synced : loop.Synced)
    (stepped : Step config listenTrigmode loop label next effects) : next.Synced := by
  cases stepped with
  | reported _ _ _ served => exact State.pending_step served
  | accepted _ _ served => exact (State.pending_step served).trans synced
  | ticked _ _ _ served => exact (State.pending_step served).trans synced
  | listened _ first =>
      rw [Synced, first] at synced
      exact synced
  | signalled _ first =>
      rw [Synced, first] at synced
      rw [Synced, dealwithsignal_eq]
      exact synced
  | @handled label event rest server effects _ first atClient served =>
      rw [Synced, first] at synced
      have behind := State.pending_step served
      cases label with
      | hangup | read | write =>
          rw [State.pendingBehind, synced] at behind
          exact behind
      | accept | epollWait | tick | dequeue | process => exact atClient.elim
  | @worked label server effects atWorker served =>
      have behind := State.pending_step served
      cases label with
      | dequeue | process => exact behind.trans synced
      | accept | epollWait | hangup | read | write | tick => exact atWorker.elim
  | failed | acceptFailed | wentOn | passed | expired | killed | delivered | connected =>
    exact synced

/-- A step does to the server what the steps it stands for do. -/
theorem Step.refines (stepped : Step config listenTrigmode loop label next effects) :
    run (Server.step config) loop.server label.serverLabels = some (next.server, effects) := by
  cases stepped with
  | reported _ _ _ served | accepted _ _ served | handled _ _ _ served | ticked _ _ _ served
  | worked _ served => exact run_singleton served
  | signalled =>
      rw [dealwithsignal_eq]
      rfl
  | failed | listened | acceptFailed | wentOn | passed | expired | killed | delivered
  | connected => rfl

/-- Every run of the main loop and the workers, with signals at any time, is one of the server: the
client descriptors of a batch are handled in its order, and the wheel ticks behind batches only. -/
theorem serves_of_run {users : Fd → HttpConn} {usersTimer : Fd → ClientData}
    {nodes : Addr → UtilTimer} {now : Int} {labels : List LoopLabel}
    (ran : run (step config listenTrigmode) (start (.start users usersTimer nodes) now) labels =
      some (loop, log)) :
    run (Server.step config) (.start users usersTimer nodes)
        (labels.flatMap LoopLabel.serverLabels) = some (loop.server, log) ∧
      loop.server.pending = clientEvents loop.batch ∧
      (loop.phase = .waiting → loop.batch = [] ∧ loop.stopServer = false) := by
  have ranServer := run_refines (fun _ => True) MainLoop.server LoopLabel.serverLabels
    (fun _ _ _ _ _ _ => trivial) (fun _ _ _ _ _ stepped => (step_cases stepped).refines) trivial ran
  have synced_start : (start (.start users usersTimer nodes) now).Synced := rfl
  have synced : loop.Synced := run_state_always Synced
    (fun _ _ _ _ synced stepped => synced.step (step_cases stepped)) synced_start ran
  have orderly : loop.Orderly := run_state_always Orderly
    (fun _ _ _ _ orderly stepped => orderly.step (step_cases stepped)) (orderly_start _ now) ran
  exact ⟨ranServer, synced, orderly.waiting⟩

/-- A connection is accepted in the first batch; in the second one the alarm is read and the
connection hangs up. -/
def twoBatches : List LoopLabel :=
  [.connect, .epollWait [.listen], .listen, .accept 7, .again, .pass 5, .expire,
    .deliver .alarm true,
    .epollWait [.signals, .client (7, .hangup)], .signals, .client .hangup, .tick, .again]

theorem serves_twoBatches : ∃ loop log,
    run (step ⟨0, 8, 10000, 0, []⟩ 0) (start (.start blankUsers blankTimers blankNodes) 0)
      twoBatches =
        some (loop, log) ∧
      run (Server.step ⟨0, 8, 10000, 0, []⟩) (.start blankUsers blankTimers blankNodes)
        (twoBatches.flatMap LoopLabel.serverLabels) = some (loop.server, log) ∧
      loop.server.openFds = [] := by
  have facts : (run (step ⟨0, 8, 10000, 0, []⟩ 0)
      (start (.start blankUsers blankTimers blankNodes) 0) twoBatches).map
        (fun last => last.1.server.openFds) = some [] := by
    decide +kernel
  obtain ⟨⟨loop, log⟩, ran, none_⟩ := Option.map_eq_some_iff.mp facts
  exact ⟨loop, log, ran, (serves_of_run ran).1, none_⟩

end MainLoop

end TimeGANWebServer.Server
