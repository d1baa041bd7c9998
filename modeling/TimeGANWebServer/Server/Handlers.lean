import TimeGANWebServer.Server.ActorModels
import TimeGANWebServer.Server.MainLoop
import TimeGANWebServer.Support.Movers

/-!
# Handlers in parts

The main loop handles an event of a client descriptor while the workers run.  Between the calls that
`dealwithread`, `dealwithwrite` and `deal_timer` make, a worker can take a request or process one.
As long as ticks spare the connections that workers are busy with, these runs are runs in which each
event is handled at once.
-/

namespace TimeGANWebServer.Server

open TimeGANWebServer.Http TimeGANWebServer.Support TimeGANWebServer.Timer

/-! ## Parts -/

/-- What the main loop does next with an event: it takes the event from the batch; it adjusts the
timer in front of `read_once` or `write`, calls these, appends the request, or adjusts the timer
behind them; or it calls `cb_func` and `del_timer` in `deal_timer`.  The pointer to the timer is the
one read at first. -/
inductive HandlerPart where
  | take (label : Label)
  | adjustRead (fd : Fd) (timer : Option Addr) (results : List RecvResult)
  | read (fd : Fd) (timer : Option Addr) (results : List RecvResult)
  | append (fd : Fd)
  | adjustWrite (fd : Fd) (timer : Option Addr) (results : List WritevResult)
  | write (fd : Fd) (timer : Option Addr) (results : List WritevResult)
  | adjust (fd : Fd)
  | callBack (fd : Fd) (timer : Option Addr)
  | delTimer (fd : Fd) (timer : Addr)

/-- A part, and what comes behind it. -/
abbrev HandlerNext := Option (State × List Effect × Option HandlerPart)

namespace State

/-- The first event of the batch is taken. -/
def takeEvent (config : Config) (state : State) (label : Label) : HandlerNext :=
  match label, state.pending with
  | .hangup, (fd, .hangup) :: rest =>
      some ({ state with pending := rest }, [], some (.callBack fd (state.usersTimer fd).timer))
  | .read results, (fd, .readable) :: rest =>
      some ({ state with pending := rest }, [], some
        (if config.actorModel = 1 then .adjustRead fd (state.usersTimer fd).timer results
        else .read fd (state.usersTimer fd).timer results))
  | .write results, (fd, .writable) :: rest =>
      some ({ state with pending := rest }, [], some
        (if config.actorModel = 1 then .adjustWrite fd (state.usersTimer fd).timer results
        else .write fd (state.usersTimer fd).timer results))
  | _, _ => none

/-- What a part does. -/
def handle (config : Config) : HandlerPart → State → HandlerNext
  | .take label, state => state.takeEvent config label
  | .adjustRead fd timer results, state =>
      some
        ((state.adjustSlot fd).state, (state.adjustSlot fd).effects, some (.read fd timer results))
  | .read fd timer results, state =>
      (state.readSlot fd results).map fun read =>
        (read.2, [], some (if read.1 then .append fd else .callBack fd timer))
  | .append fd, state =>
      if config.actorModel = 1 then
        some ((state.setUser fd { state.users fd with state := 0 }).append config fd, [], none)
      else
        some (state.append config fd, [], some (.adjust fd))
  | .adjustWrite fd timer results, state =>
      some
        ((state.adjustSlot fd).state, (state.adjustSlot fd).effects, some (.write fd timer results))
  | .write fd timer results, state =>
      (state.writeSlot fd results).map fun written =>
        (written.2.state, written.2.effects,
          if written.1 then (if config.actorModel = 1 then none else some (.adjust fd))
          else some (.callBack fd timer))
  | .adjust fd, state => some ((state.adjustSlot fd).state, (state.adjustSlot fd).effects, none)
  | .callBack fd none, state => some (state, [state.useTimer fd none], none)
  | .callBack fd (some timer), state =>
      some ((state.cbFunc fd).state, state.useTimer fd (some timer) :: (state.cbFunc fd).effects,
        some (.delTimer fd timer))
  | .delTimer fd timer, state =>
      some ((state.delTimer fd timer).state, (state.delTimer fd timer).effects, none)

end State

/-- The events of client descriptors are handled in parts.  An event is committed when its request
is appended, its response written, or its descriptor closed. -/
def handlers (config : Config) : Blocks State Label Effect HandlerPart where
  first
    | .hangup => some (.take .hangup)
    | .read results => some (.take (.read results))
    | .write results => some (.take (.write results))
    | .accept _ | .epollWait _ | .tick | .dequeue | .process _ _ _ => none
  part := State.handle config
  Committed
    | .adjust _ | .delTimer _ _ => True
    | .take _ | .adjustRead _ _ _ | .read _ _ _ | .append _ | .adjustWrite _ _ _ | .write _ _ _
    | .callBack _ _ => False

namespace State

variable {config : Config} {state last : State} {effects : List Effect}

/-! ## The parts together -/

theorem through_adjust {fd : Fd}
    (through : (handlers config).Through (.adjust fd) state effects last) :
    last = (state.adjustSlot fd).state ∧ effects = (state.adjustSlot fd).effects := by
  cases through with
  | last made =>
      cases made
      exact ⟨rfl, rfl⟩
  | more made => cases made

theorem through_callBack {fd : Fd} {timer : Option Addr}
    (through : (handlers config).Through (.callBack fd timer) state effects last) :
    last = (state.dealTimer timer fd).state ∧ effects = (state.dealTimer timer fd).effects := by
  cases timer with
  | none =>
      cases through with
      | last made =>
          cases made
          exact ⟨rfl, rfl⟩
      | more made => cases made
  | some timer =>
      cases through with
      | last made => cases made
      | more made through =>
          cases made
          cases through with
          | last made =>
              cases made
              refine ⟨rfl, ?_⟩
              simp only [dealTimer, Outcome.andThen, List.cons_append, List.nil_append]
          | more made => cases made

theorem through_read {fd : Fd} {timer : Option Addr} {results : List RecvResult}
    (through : (handlers config).Through (.read fd timer results) state effects last) :
    ∃ ret next, state.readSlot fd results = some (ret, next) ∧
      (ret = true → config.actorModel = 1 ∧ effects = [] ∧
          last = (next.setUser fd { next.users fd with state := 0 }).append config fd ∨
        config.actorModel ≠ 1 ∧ effects = ((next.append config fd).adjustSlot fd).effects ∧
          last = ((next.append config fd).adjustSlot fd).state) ∧
      (ret = false → effects = (next.dealTimer timer fd).effects ∧
        last = (next.dealTimer timer fd).state) := by
  cases through with
  | last made =>
      obtain ⟨_, _, same⟩ := Option.map_eq_some_iff.mp made
      cases same
  | more made through =>
      obtain ⟨⟨ret, next⟩, read, same⟩ := Option.map_eq_some_iff.mp made
      cases same
      refine ⟨ret, next, read, ?_, ?_⟩
      · rintro rfl
        cases through with
        | last made =>
            have made : handle config (.append fd) next = _ := made
            simp only [handle] at made
            split at made
            case isTrue reactor =>
                cases made
                exact .inl ⟨reactor, rfl, rfl⟩
            case isFalse => cases made
        | more made through =>
            have made : handle config (.append fd) next = _ := made
            simp only [handle] at made
            split at made
            case isTrue => cases made
            case isFalse proactor =>
                cases made
                obtain ⟨rfl, rfl⟩ := through_adjust through
                exact .inr ⟨proactor, rfl, rfl⟩
      · rintro rfl
        obtain ⟨rfl, rfl⟩ := through_callBack through
        exact ⟨rfl, rfl⟩

theorem through_write {fd : Fd} {timer : Option Addr} {results : List WritevResult}
    (through : (handlers config).Through (.write fd timer results) state effects last) :
    ∃ ret written, state.writeSlot fd results = some (ret, written) ∧
      (ret = true → config.actorModel = 1 ∧ effects = written.effects ∧ last = written.state ∨
        config.actorModel ≠ 1 ∧ effects = written.effects ++ (written.state.adjustSlot fd).effects ∧
          last = (written.state.adjustSlot fd).state) ∧
      (ret = false → effects = written.effects ++ (written.state.dealTimer timer fd).effects ∧
        last = (written.state.dealTimer timer fd).state) := by
  cases through with
  | last made =>
      obtain ⟨⟨ret, written⟩, write, same⟩ := Option.map_eq_some_iff.mp made
      simp only [Prod.mk.injEq] at same
      obtain ⟨rfl, rfl, ends⟩ := same
      refine ⟨ret, written, write, ?_, ?_⟩
      · rintro rfl
        simp only [if_true] at ends
        split at ends
        case isTrue reactor => exact .inl ⟨reactor, rfl, rfl⟩
        case isFalse => cases ends
      · rintro rfl
        cases ends
  | more made through =>
      obtain ⟨⟨ret, written⟩, write, same⟩ := Option.map_eq_some_iff.mp made
      simp only [Prod.mk.injEq] at same
      obtain ⟨rfl, rfl, goes⟩ := same
      refine ⟨ret, written, write, ?_, ?_⟩
      · rintro rfl
        simp only [if_true] at goes
        split at goes
        case isTrue => cases goes
        case isFalse proactor =>
            cases goes
            obtain ⟨rfl, rfl⟩ := through_adjust through
            exact .inr ⟨proactor, rfl, rfl⟩
      · rintro rfl
        cases goes
        obtain ⟨rfl, rfl⟩ := through_callBack through
        exact ⟨rfl, rfl⟩

/-- The parts of an event together are its step. -/
theorem through_take {label : Label}
    (through : (handlers config).Through (.take label) state effects last) :
    step config state label = some (last, effects) := by
  cases through with
  | last made =>
      simp only [handlers, handle, takeEvent] at made
      split at made <;> cases made
  | more made through =>
      simp only [handlers, handle, takeEvent] at made
      split at made
      case _ fd rest first =>
          cases made
          obtain ⟨rfl, rfl⟩ := through_callBack through
          simp only [step, first, List.nil_append]
      case _ results fd rest first =>
          cases made
          simp only [step, first, dealwithread, List.nil_append]
          split at through
          case isTrue reactor =>
              cases through with
              | last made => cases made
              | more made through =>
                  cases made
                  obtain ⟨ret, next, read, appended, failed⟩ := through_read through
                  simp only [reactor, if_true, read, Option.map_some]
                  cases ret with
                  | true =>
                      obtain ⟨_, rfl, rfl⟩ :=
                        (appended rfl).resolve_right fun other => other.1 reactor
                      simp only [if_true, Outcome.andThen]
                  | false =>
                      obtain ⟨rfl, rfl⟩ := failed rfl
                      rfl
          case isFalse proactor =>
              obtain ⟨ret, next, read, appended, failed⟩ := through_read through
              simp only [proactor, if_false, read, Option.map_some]
              cases ret with
              | true =>
                  obtain ⟨_, rfl, rfl⟩ := (appended rfl).resolve_left fun other => proactor other.1
                  rfl
              | false =>
                  obtain ⟨rfl, rfl⟩ := failed rfl
                  rfl
      case _ results fd rest first =>
          cases made
          simp only [step, first, dealwithwrite, List.nil_append]
          split at through
          case isTrue reactor =>
              cases through with
              | last made => cases made
              | more made through =>
                  cases made
                  obtain ⟨ret, written, write, sent, failed⟩ := through_write through
                  simp only [reactor, if_true, write, Option.map_some]
                  cases ret with
                  | true =>
                      obtain ⟨_, rfl, rfl⟩ := (sent rfl).resolve_right fun other => other.1 reactor
                      simp only [if_true, Outcome.andThen, List.append_nil]
                  | false =>
                      obtain ⟨rfl, rfl⟩ := failed rfl
                      simp only [Outcome.andThen, List.append_assoc, Bool.false_eq_true, if_false]
          case isFalse proactor =>
              obtain ⟨ret, written, write, sent, failed⟩ := through_write through
              simp only [proactor, if_false, write, Option.map_some]
              cases ret with
              | true =>
                  obtain ⟨_, rfl, rfl⟩ := (sent rfl).resolve_left fun other => proactor other.1
                  rfl
              | false =>
                  obtain ⟨rfl, rfl⟩ := failed rfl
                  rfl
      case _ => cases made

/-! ## Workers -/

/-- Store a slot and where its parts come from. -/
def setSlot (state : State) (fd : Fd) (conn : HttpConn) (origins : Origins) : State :=
  { state with
    users := Function.update state.users fd conn
    origins := Function.update state.origins fd origins }

/-- What a worker makes of the slot of its task, and its calls on descriptors. -/
def slotWork (config : Config) (slot : HttpConn) (origins : Origins) (mysql : Option Nat)
    (env : Env) : Option (HttpConn × Origins × List FdCall) :=
  if config.actorModel = 1 ∧ slot.state ≠ 0 then
    some (slot, origins, [])
  else
    let request : HttpConn := { slot with mysql := mysql }
    match request.processRead env, request.process env with
    | .ok reply, .ok finished =>
        some ({ finished.conn with mysql := none }, processed origins reply.code, finished.fdCalls)
    | _, _ => none

theorem work_eq (config : Config) (state : State) (task : Task) (mysql : Option Nat) (env : Env) :
    state.work config task mysql env =
      (slotWork config (state.users task.fd) (state.origins task.fd) mysql env).map fun worked =>
        (state.setSlot task.fd worked.1 worked.2.1).fdCalls task.conn worked.2.2 := by
  simp only [work, slotWork]
  split
  · simp only [Option.map_some, setSlot, Function.update_eq_self, fdCalls]
  · let request : HttpConn := { state.users task.fd with mysql := mysql }
    cases request.processRead env with
    | error => rfl
    | ok reply =>
        cases request.process env with
        | error => rfl
        | ok finished => rfl

/-- The descriptor of a call. -/
def target : FdCall → Int
  | .modfd fd _ | .closeConn fd => fd

/-- A worker makes calls on the descriptor of its slot only. -/
theorem slotWork_target {slot conn : HttpConn} {origins next : Origins} {mysql : Option Nat}
    {env : Env} {calls : List FdCall}
    (worked : slotWork config slot origins mysql env = some (conn, next, calls)) :
    ∀ call ∈ calls, target call = slot.sockfd ∨ target call < 0 := by
  simp only [slotWork] at worked
  split at worked
  · cases worked
    nofun
  · split at worked
    case _ reply finished _ done =>
        cases worked
        obtain ⟨_, ⟨_, interest, calls⟩ | ⟨_, _, calls⟩⟩ := HttpConn.process_cases done
        · simp [calls, target]
        · simp [calls, target]
    case _ => contradiction

/-- A change of the state that workers do not see: they find the same tasks. -/
structure Frame (change : State → State) : Prop where
  queue : ∀ state, (change state).queue = state.queue
  working : ∀ state, (change state).working = state.working
  retask : ∀ state queue working, change { state with queue := queue, working := working } =
    { change state with queue := queue, working := working }

/-- A change of the state that spares a task: it leaves its slot alone, and comes to the same in
front of what the worker does and behind it. -/
structure Spares (change : State → State) (task : Task) (sockfd : Int) : Prop where
  slot : ∀ state, (change state).users task.fd = state.users task.fd
  origins : ∀ state, (change state).origins task.fd = state.origins task.fd
  setSlot : ∀ state conn origins, (change state).setSlot task.fd conn origins =
    change (state.setSlot task.fd conn origins)
  fdCalls : ∀ state calls, (∀ call ∈ calls, target call = sockfd ∨ target call < 0) →
    (change state).fdCalls task.conn calls = {
      state := change (state.fdCalls task.conn calls).state
      effects := (state.fdCalls task.conn calls).effects }

/-- A step of a worker and a change that spares its task. -/
theorem step_change {change : State → State} (frame : Frame change) {label : Label}
    (atWorker : label.AtWorker)
    (spares : ∀ worker mysql env, label = .process worker mysql env →
      ∀ task, state.working[worker]? = some task →
        Spares change task (state.users task.fd).sockfd) :
    step config (change state) label =
      (step config state label).map fun next => (change next.1, next.2) := by
  cases label with
  | accept | epollWait | hangup | read | write | tick => exact atWorker.elim
  | dequeue =>
      simp only [step, frame.queue, frame.working]
      cases state.queue with
      | nil => rfl
      | cons task rest =>
          simp only []
          split
          · exact congrArg (fun next => some (next, [])) (frame.retask state rest _).symm
          · rfl
  | process worker mysql env =>
      simp only [step, frame.working]
      cases found : state.working[worker]? with
      | none => rfl
      | some task =>
          have spared := spares worker mysql env rfl task found
          have released : ({ change state with working := state.working.eraseIdx worker } : State) =
              change { state with working := state.working.eraseIdx worker } := by
            refine Eq.trans ?_ (frame.retask state state.queue _).symm
            rw [← frame.queue state]
          simp only [released, work_eq, spared.slot, spared.origins, Option.map_map]
          refine Option.map_congr fun worked made => ?_
          obtain ⟨conn, origins, calls⟩ := worked
          have targets := slotWork_target made
          simp only [Function.comp_apply, spared.setSlot, spared.fdCalls _ calls targets]

/-! ## What workers do not see -/

theorem frame_withLoop (pending : List (Fd × Readiness)) (timers : Timers)
    (usersTimer : Fd → ClientData) :
    Frame fun state => state.withLoop pending timers usersTimer :=
  ⟨fun _ => rfl, fun _ => rfl, fun _ _ _ => rfl⟩

theorem spares_withLoop (pending : List (Fd × Readiness)) (timers : Timers)
    (usersTimer : Fd → ClientData) (task : Task) (sockfd : Int) :
    Spares (fun state => state.withLoop pending timers usersTimer) task sockfd where
  slot _ := rfl
  origins _ := rfl
  setSlot _ _ _ := rfl
  fdCalls state calls _ := fdCalls_withLoop state pending timers usersTimer task.conn calls

/-- Calls on descriptors do not look at the slots. -/
theorem fdCalls_setSlot (state : State) (fd : Fd) (slot : HttpConn) (origins : Origins)
    (conn : ConnId) (calls : List FdCall) :
    (state.setSlot fd slot origins).fdCalls conn calls = {
      state := (state.fdCalls conn calls).state.setSlot fd slot origins
      effects := (state.fdCalls conn calls).effects } := by
  induction calls generalizing state with
  | nil => rfl
  | cons call calls ih =>
      have first : (state.setSlot fd slot origins).fdCall conn call = {
          state := (state.fdCall conn call).state.setSlot fd slot origins
          effects := (state.fdCall conn call).effects } := by
        have same : (state.setSlot fd slot origins).openFds = state.openFds := rfl
        cases call with
        | modfd other interest =>
            simp only [fdCall, modfd, same]
            split <;> rfl
        | closeConn other =>
            simp only [fdCall, State.close, Outcome.andThen]
            split <;> rfl
      simp only [fdCalls, Outcome.andThen, first, ih]

theorem frame_setSlot (fd : Fd) (slot : HttpConn) (origins : Origins) :
    Frame fun state => state.setSlot fd slot origins :=
  ⟨fun _ => rfl, fun _ => rfl, fun _ _ _ => rfl⟩

theorem spares_setSlot {fd : Fd} {task : Task} (apart : task.fd ≠ fd) (slot : HttpConn)
    (origins : Origins) (sockfd : Int) :
    Spares (fun state => state.setSlot fd slot origins) task sockfd where
  slot _ := Function.update_of_ne apart _ _
  origins _ := Function.update_of_ne apart _ _
  setSlot state conn others := by
    simp only [State.setSlot, Function.update_comm apart]
  fdCalls state calls _ := fdCalls_setSlot state fd slot origins task.conn calls

/-- Arming one descriptor, and a call on another one. -/
theorem fdCall_modfd_apart {fd : Int} {interest : Interest} {call : FdCall}
    (apart : target call ≠ fd ∨ target call < 0) (state : State) (conn : ConnId) :
    (state.modfd fd interest).fdCall conn call = {
      state := (state.fdCall conn call).state.modfd fd interest
      effects := (state.fdCall conn call).effects } := by
  cases call with
  | modfd other otherInterest =>
      simp only [target] at apart
      have comes : (state.modfd fd interest).modfd other otherInterest =
          (state.modfd other otherInterest).modfd fd interest := by
        simp only [modfd]
        by_cases first : 0 ≤ fd ∧ fd.toNat ∈ state.openFds
        · by_cases second : 0 ≤ other ∧ other.toNat ∈ state.openFds
          · have differ : fd.toNat ≠ other.toNat := by omega
            simp only [if_pos first, if_pos second, Function.update_comm differ]
          · simp only [if_pos first, if_neg second]
        · by_cases second : 0 ≤ other ∧ other.toNat ∈ state.openFds
          · simp only [if_neg first, if_pos second]
          · simp only [if_neg first, if_neg second]
      simp only [fdCall, comes]
  | closeConn other =>
      simp only [target] at apart
      by_cases nonneg : 0 ≤ other
      · by_cases first : 0 ≤ fd ∧ fd.toNat ∈ state.openFds
        · have differ : fd.toNat ≠ other.toNat := by omega
          have still : 0 ≤ fd ∧ fd.toNat ∈ state.openFds.erase other.toNat :=
            ⟨first.1, (List.mem_erase_of_ne differ).mpr first.2⟩
          simp only [fdCall, State.close, if_pos nonneg, Outcome.andThen, modfd, if_pos first,
            if_pos still, Function.update_comm differ]
          rfl
        · have gone : ¬(0 ≤ fd ∧ fd.toNat ∈ state.openFds.erase other.toNat) :=
            fun still => first ⟨still.1, List.mem_of_mem_erase still.2⟩
          simp only [fdCall, State.close, if_pos nonneg, Outcome.andThen, modfd, if_neg first,
            if_neg gone]
      · simp only [fdCall, State.close, if_neg nonneg, Outcome.andThen, modfd]
        split <;> rfl

theorem fdCalls_modfd_apart {fd : Int} {interest : Interest} {calls : List FdCall}
    (apart : ∀ call ∈ calls, target call ≠ fd ∨ target call < 0) (state : State) (conn : ConnId) :
    (state.modfd fd interest).fdCalls conn calls = {
      state := (state.fdCalls conn calls).state.modfd fd interest
      effects := (state.fdCalls conn calls).effects } := by
  induction calls generalizing state with
  | nil => rfl
  | cons call calls ih =>
      have first := @fdCall_modfd_apart fd interest call (apart call List.mem_cons_self) state conn
      have rest := ih fun other member => apart other (List.mem_cons_of_mem call member)
      simp only [fdCalls, Outcome.andThen, first, rest]

/-- Arming a descriptor changes nothing but what epoll knows of it. -/
theorem modfd_eq (state : State) (fd : Int) (interest : Interest) :
    state.modfd fd interest = { state with armed := (state.modfd fd interest).armed } := by
  simp only [modfd]
  split <;> rfl

theorem frame_modfd (fd : Int) (interest : Interest) :
    Frame fun state => state.modfd fd interest where
  queue state := by rw [modfd_eq]
  working state := by rw [modfd_eq]
  retask state queue working := by
    simp only [modfd]
    split <;> rfl

theorem spares_modfd {fd sockfd : Int} (apart : sockfd ≠ fd) (interest : Interest) (task : Task) :
    Spares (fun state => state.modfd fd interest) task sockfd where
  slot state := by rw [modfd_eq]
  origins state := by rw [modfd_eq]
  setSlot state conn origins := congrArg Outcome.state
    (fdCalls_setSlot state task.fd conn origins task.conn [.modfd fd interest]).symm
  fdCalls state calls targets := fdCalls_modfd_apart
    (fun call member => (targets call member).imp_left fun same => same ▸ apart) state task.conn

/-! ## What workers keep -/

/-- A worker makes no call on a descriptor. -/
def SparesFd (state : State) (fd : Int) (label : Label) : Prop :=
  ∀ worker mysql env, label = .process worker mysql env → ∀ task,
    state.working[worker]? = some task → (state.users task.fd).sockfd ≠ fd

/-- A worker does not have the task for a slot. -/
def SparesSlot (state : State) (fd : Fd) (label : Label) : Prop :=
  ∀ worker mysql env, label = .process worker mysql env → ∀ task,
    state.working[worker]? = some task → task.fd ≠ fd

variable {label : Label} {next : State}

theorem step_keepsLoop (atWorker : label.AtWorker)
    (stepped : step config state label = some (next, effects)) :
    next.pending = state.pending ∧ next.timers = state.timers ∧
      next.usersTimer = state.usersTimer := by
  have same := @step_change config state _
    (frame_withLoop state.pending state.timers state.usersTimer) label atWorker
    fun _ _ _ _ task _ => spares_withLoop _ _ _ task _
  have whole : state.withLoop state.pending state.timers state.usersTimer = state := rfl
  simp only [whole, stepped, Option.map_some, Option.some.injEq, Prod.mk.injEq, and_true] at same
  rw [same]
  exact ⟨rfl, rfl, rfl⟩

theorem step_keepsSlot {fd : Fd} (atWorker : label.AtWorker) (spares : state.SparesSlot fd label)
    (stepped : step config state label = some (next, effects)) :
    next.users fd = state.users fd ∧ next.origins fd = state.origins fd := by
  have same := @step_change config state _
    (frame_setSlot fd (state.users fd) (state.origins fd)) label atWorker
    fun worker mysql env isLabel task found =>
      spares_setSlot (spares worker mysql env isLabel task found) _ _ _
  have whole : state.setSlot fd (state.users fd) (state.origins fd) = state := by
    simp only [setSlot, Function.update_eq_self]
  simp only [whole, stepped, Option.map_some, Option.some.injEq, Prod.mk.injEq, and_true] at same
  rw [same]
  exact ⟨Function.update_self _ _ _, Function.update_self _ _ _⟩

theorem fdCalls_keeps {fd : Fd} {calls : List FdCall}
    (apart : ∀ call ∈ calls, target call ≠ fd ∨ target call < 0) (state : State) (conn : ConnId) :
    (state.fdCalls conn calls).state.owner = state.owner ∧
      (fd ∈ (state.fdCalls conn calls).state.openFds ↔ fd ∈ state.openFds) := by
  induction calls generalizing state with
  | nil => exact ⟨rfl, Iff.rfl⟩
  | cons call calls ih =>
      obtain ⟨owner, isOpen⟩ :=
        ih (fun other member => apart other (List.mem_cons_of_mem call member))
        (state.fdCall conn call).state
      have first : (state.fdCall conn call).state.owner = state.owner ∧
          (fd ∈ (state.fdCall conn call).state.openFds ↔ fd ∈ state.openFds) := by
        cases call with
        | modfd other interest =>
            simp only [fdCall]
            rw [modfd_eq]
            exact ⟨rfl, Iff.rfl⟩
        | closeConn other =>
            simp only [fdCall, State.close, Outcome.andThen]
            split
            case isTrue nonneg =>
                have differ : fd ≠ other.toNat := by
                  intro same
                  have equal : other = fd := by rw [same, Int.toNat_of_nonneg nonneg]
                  rcases apart _ List.mem_cons_self with differs | negative
                  · exact differs equal
                  · exact Int.not_lt.mpr nonneg negative
                exact ⟨rfl, List.mem_erase_of_ne differ⟩
            case isFalse => exact ⟨rfl, Iff.rfl⟩
      exact ⟨owner.trans first.1, isOpen.trans first.2⟩

theorem step_keepsHolder {fd : Fd} (atWorker : label.AtWorker) (spares : state.SparesFd fd label)
    (stepped : step config state label = some (next, effects)) :
    next.owner = state.owner ∧ next.holder fd = state.holder fd := by
  have kept : next.owner = state.owner ∧ (fd ∈ next.openFds ↔ fd ∈ state.openFds) := by
    cases label with
    | accept | epollWait | hangup | read | write | tick => exact atWorker.elim
    | dequeue =>
        simp only [step] at stepped
        split at stepped
        · contradiction
        · split at stepped
          · cases stepped
            exact ⟨rfl, Iff.rfl⟩
          · contradiction
    | process worker mysql env =>
        simp only [step] at stepped
        split at stepped
        · contradiction
        case _ task found =>
            simp only [work_eq, Option.map_map, Option.map_eq_some_iff, Function.comp_apply,
              Prod.mk.injEq] at stepped
            obtain ⟨⟨conn, origins, calls⟩, worked, rfl, _⟩ := stepped
            have sockfd := spares worker mysql env rfl task found
            exact fdCalls_keeps (fun call member =>
              (slotWork_target worked call member).imp_left fun same => same ▸ sockfd) _ _
  refine ⟨kept.1, ?_⟩
  simp only [holder, kept.1, kept.2]

/-! ## Parts and workers -/

/-- Two states look the same to the calls for a slot. -/
structure SameSlot (state other : State) (fd : Fd) : Prop where
  users : other.users fd = state.users fd
  origins : other.origins fd = state.origins fd
  owner : other.owner fd = state.owner fd
  holder : other.holder fd = state.holder fd

/-- What `read_once` does to its slot. -/
theorem readSlot_slot {fd : Fd} {results : List RecvResult} {ret : Bool}
    (read : state.readSlot fd results = some (ret, next)) :
    ∃ slot origins, slot.sockfd = (state.users fd).sockfd ∧ next = state.setSlot fd slot origins ∧
      ∀ other : State, state.SameSlot other fd →
        other.readSlot fd results = some (ret, other.setSlot fd slot origins) := by
  simp only [readSlot, Option.map_eq_some_iff, Prod.mk.injEq] at read
  obtain ⟨⟨_, request⟩, received, rfl, rfl⟩ := read
  refine ⟨{ state.users fd with toRequestState := request }, _, rfl, rfl, fun other same => ?_⟩
  simp only [readSlot, same.users, same.origins, same.owner, received, Option.map_some]
  rfl

/-- What `write` does to its slot and to its descriptor. -/
theorem writeSlot_slot {fd : Fd} {results : List WritevResult} {ret : Bool} {outcome : Outcome}
    (written : state.writeSlot fd results = some (ret, outcome)) :
    ∃ slot origins change, slot.sockfd = (state.users fd).sockfd ∧
      (change = id ∨ ∃ interest, change = fun later : State =>
        later.modfd (state.users fd).sockfd interest) ∧
      outcome.state = change (state.setSlot fd slot origins) ∧
      ∀ other : State, state.SameSlot other fd → other.writeSlot fd results =
        some (ret, {
          state := change (other.setSlot fd slot origins)
          effects := outcome.effects }) := by
  have sent : ∀ other : State, state.SameSlot other fd →
      other.sentSource fd results = state.sentSource fd results := by
    intro other same
    simp only [sentSource, same.users, same.origins]
  simp only [writeSlot, Option.map_eq_some_iff, Prod.mk.injEq] at written
  obtain ⟨result, written, rfl, rfl⟩ := written
  obtain ⟨sockfd, _, calls⟩ := HttpConn.write_cases written
  rcases calls with ⟨interest, calls⟩ | ⟨_, calls⟩
  · refine ⟨result.conn, _, fun later => later.modfd (state.users fd).sockfd interest, sockfd,
      .inr ⟨interest, rfl⟩, by simp only [Outcome.andThen, calls]; rfl, fun other same => ?_⟩
    simp only [writeSlot, same.users, same.origins, same.owner, same.holder, sent other same,
      written, Option.map_some, Outcome.andThen, calls]
    rfl
  · refine ⟨result.conn, _, id, sockfd, .inl rfl, by simp only [Outcome.andThen, calls]; rfl,
      fun other same => ?_⟩
    simp only [writeSlot, same.users, same.origins, same.owner, same.holder, sent other same,
      written, Option.map_some, Outcome.andThen, calls]
    rfl

/-- The part in front of this one is spared by a worker: it is for another slot, and makes calls on
other descriptors. -/
def Apart (part : HandlerPart) (state : State) (label : Label) : Prop :=
  match part with
  | .append fd | .callBack fd _ =>
      state.SparesSlot fd label ∧ state.SparesFd fd label ∧
        state.SparesFd (state.users fd).sockfd label
  | _ => True

/-- A step of a worker behind a change that spares its task is one in front of it. -/
theorem step_before {change : State → State} (frame : Frame change) {other : Label}
    (atWorker : other.AtWorker)
    (spares : ∀ worker mysql env, other = .process worker mysql env →
      ∀ task, state.working[worker]? = some task →
        Spares change task (state.users task.fd).sockfd)
    (stepped : step config (change state) other = some (next, effects)) :
    ∃ early, step config state other = some (early, effects) ∧ next = change early := by
  rw [step_change frame atWorker spares, Option.map_eq_some_iff] at stepped
  obtain ⟨⟨early, made⟩, stepped, same⟩ := stepped
  cases same
  exact ⟨early, stepped, rfl⟩

/-- Which event is taken is not up to the workers. -/
theorem takeEvent_event {part : Option HandlerPart}
    (taken : state.takeEvent config label = some (next, effects, part)) :
    ∃ rest, next = { state with pending := rest } ∧ ∀ other : State,
      other.pending = state.pending → other.usersTimer = state.usersTimer →
        other.takeEvent config label = some ({ other with pending := rest }, effects, part) := by
  simp only [takeEvent] at taken
  split at taken
  case _ fd rest first =>
      cases taken
      exact ⟨rest, rfl, fun other pending usersTimer => by
        simp only [takeEvent, pending, first, usersTimer]⟩
  case _ results fd rest first =>
      cases taken
      exact ⟨rest, rfl, fun other pending usersTimer => by
        simp only [takeEvent, pending, first, usersTimer]⟩
  case _ results fd rest first =>
      cases taken
      exact ⟨rest, rfl, fun other pending usersTimer => by
        simp only [takeEvent, pending, first, usersTimer]⟩
  case _ => contradiction

theorem SparesSlot.of_setSlot {fd other : Fd} {slot : HttpConn} {origins : Origins}
    (spares : (state.setSlot other slot origins).SparesSlot fd label) : state.SparesSlot fd label :=
  spares

theorem SparesFd.of_setSlot {fd : Int} {other : Fd} {slot : HttpConn} {origins : Origins}
    (slots : state.SparesSlot other label)
    (spares : (state.setSlot other slot origins).SparesFd fd label) : state.SparesFd fd label := by
  intro worker mysql env isLabel task found
  have kept := spares worker mysql env isLabel task found
  simpa only [setSlot, Function.update_of_ne (slots worker mysql env isLabel task found)] using kept

theorem SparesSlot.of_modfd {fd : Fd} {sockfd : Int} {interest : Interest}
    (spares : (state.modfd sockfd interest).SparesSlot fd label) : state.SparesSlot fd label := by
  rw [modfd_eq] at spares
  exact spares

theorem SparesFd.of_modfd {fd sockfd : Int} {interest : Interest}
    (spares : (state.modfd sockfd interest).SparesFd fd label) : state.SparesFd fd label := by
  rw [modfd_eq] at spares
  exact spares

/-- A worker that spares a slot leaves it as it is for the calls there. -/
theorem step_sameSlot {fd : Fd} (atWorker : label.AtWorker) (slots : state.SparesSlot fd label)
    (fds : state.SparesFd fd label)
    (stepped : step config state label = some (next, effects)) : state.SameSlot next fd := by
  obtain ⟨users, origins⟩ := step_keepsSlot atWorker slots stepped
  obtain ⟨owner, holder⟩ := step_keepsHolder atWorker fds stepped
  exact ⟨users, origins, congrFun owner fd, holder⟩

/-- A worker moves over a part in front of the commitment. -/
theorem handle_before {part later : HandlerPart} {middle : State} {other : Label}
    {made : List Effect} (happened : handle config part middle = some (state, effects, some later))
    (uncommitted : ¬(handlers config).Committed later) (atWorker : other.AtWorker)
    (apart : Apart later state other) (stepped : step config state other = some (next, made)) :
    ∃ early, step config middle other = some (early, made) ∧
      handle config part early = some (next, effects, some later) := by
  have adjusts : ∀ {fd}, state = (middle.adjustSlot fd).state → ∃ early,
      step config middle other = some (early, made) ∧
        (early.adjustSlot fd).effects = (middle.adjustSlot fd).effects ∧
        (early.adjustSlot fd).state = next := by
    rintro fd rfl
    rw [adjustSlot_of_same rfl rfl] at stepped
    obtain ⟨early, moved, rfl⟩ := step_before (frame_withLoop _ _ _) atWorker
      (fun _ _ _ _ task _ => spares_withLoop _ _ _ task _) stepped
    obtain ⟨pending, timers, usersTimer⟩ := step_keepsLoop atWorker moved
    refine ⟨early, moved, ?_⟩
    rw [adjustSlot_of_same timers usersTimer, pending]
    exact ⟨rfl, rfl⟩
  cases part with
  | take label =>
      simp only [handle] at happened
      obtain ⟨rest, rfl, again⟩ := takeEvent_event happened
      have stepped : step config (middle.withLoop rest middle.timers middle.usersTimer) other =
        some (next, made) := stepped
      obtain ⟨early, moved, rfl⟩ := step_before (frame_withLoop _ _ _) atWorker
        (fun _ _ _ _ task _ => spares_withLoop _ _ _ task _) stepped
      obtain ⟨pending, timers, usersTimer⟩ := step_keepsLoop atWorker moved
      refine ⟨early, moved, ?_⟩
      rw [handle, again early pending usersTimer, ← timers, ← usersTimer]
      rfl
  | adjustRead fd timer results =>
      simp only [handle, Option.some.injEq, Prod.mk.injEq] at happened ⊢
      obtain ⟨rfl, rfl, rfl⟩ := happened
      obtain ⟨early, moved, sameEffects, sameState⟩ := adjusts rfl
      exact ⟨early, moved, sameState, sameEffects, rfl⟩
  | adjustWrite fd timer results =>
      simp only [handle, Option.some.injEq, Prod.mk.injEq] at happened ⊢
      obtain ⟨rfl, rfl, rfl⟩ := happened
      obtain ⟨early, moved, sameEffects, sameState⟩ := adjusts rfl
      exact ⟨early, moved, sameState, sameEffects, rfl⟩
  | read fd timer results =>
      obtain ⟨⟨ret, read⟩, received, same⟩ := Option.map_eq_some_iff.mp happened
      cases same
      obtain ⟨slot, origins, _, same, again⟩ := readSlot_slot received
      subst same
      obtain ⟨slots, fds, _⟩ : (middle.setSlot fd slot origins).SparesSlot fd other ∧
          (middle.setSlot fd slot origins).SparesFd fd other ∧ True := by
        cases ret with
        | true | false => exact ⟨apart.1, apart.2.1, trivial⟩
      obtain ⟨early, moved, rfl⟩ := step_before (frame_setSlot fd slot origins) atWorker
        (fun worker mysql env isLabel task found =>
          spares_setSlot (slots.of_setSlot worker mysql env isLabel task found) _ _ _) stepped
      have same := step_sameSlot atWorker slots.of_setSlot (fds.of_setSlot slots.of_setSlot) moved
      refine ⟨early, moved, ?_⟩
      rw [handle, again early same]
      rfl
  | write fd timer results =>
      obtain ⟨⟨ret, written⟩, wrote, same⟩ := Option.map_eq_some_iff.mp happened
      simp only [Prod.mk.injEq] at same
      obtain ⟨rfl, rfl, goes⟩ := same
      cases ret with
      | true =>
          simp only [if_true] at goes
          split at goes
          · cases goes
          · cases goes
            exact absurd trivial uncommitted
      | false =>
          cases goes
          obtain ⟨slot, origins, change, sockfd, arms, same, again⟩ := writeSlot_slot wrote
          obtain ⟨slots, fds, sockfds⟩ := apart
          rw [same] at slots fds sockfds stepped
          have overSlot : ∀ {later}, (middle.setSlot fd slot origins).SparesSlot fd other →
              (middle.setSlot fd slot origins).SparesFd fd other →
              step config (middle.setSlot fd slot origins) other = some (later, made) →
              ∃ early, step config middle other = some (early, made) ∧
                later = early.setSlot fd slot origins ∧ middle.SameSlot early fd := by
            intro later slots fds stepped
            obtain ⟨early, moved, rfl⟩ := step_before (frame_setSlot fd slot origins) atWorker
              (fun worker mysql env isLabel task found =>
                spares_setSlot (slots.of_setSlot worker mysql env isLabel task found) _ _ _) stepped
            exact ⟨early, moved, rfl,
              step_sameSlot atWorker slots.of_setSlot (fds.of_setSlot slots.of_setSlot) moved⟩
          rcases arms with rfl | ⟨interest, rfl⟩
          · obtain ⟨early, moved, rfl, same⟩ := overSlot slots fds stepped
            refine ⟨early, moved, ?_⟩
            rw [handle, again early same]
            rfl
          · have slotSockfd : (((middle.setSlot fd slot origins).modfd (middle.users fd).sockfd
                interest).users fd).sockfd = (middle.users fd).sockfd := by
              rw [modfd_eq, ← sockfd]
              exact congrArg HttpConn.sockfd (Function.update_self _ _ _)
            rw [slotSockfd] at sockfds
            obtain ⟨late, overArm, rfl⟩ := step_before (frame_modfd _ interest) atWorker
              (fun worker mysql env isLabel task found => spares_modfd
                (sockfds.of_modfd worker mysql env isLabel task found) _ _) stepped
            obtain ⟨early, moved, rfl, same⟩ := overSlot slots.of_modfd fds.of_modfd overArm
            refine ⟨early, moved, ?_⟩
            rw [handle, again early same]
            rfl
  | append fd =>
      simp only [handle] at happened
      split at happened
      · cases happened
      · cases happened
        exact absurd trivial uncommitted
  | callBack fd timer =>
      cases timer with
      | none => cases happened
      | some timer =>
          cases happened
          exact absurd trivial uncommitted
  | adjust fd => cases happened
  | delTimer fd timer => cases happened

/-- A worker moves over a part behind the commitment. -/
theorem handle_behind {part : HandlerPart} {later : Option HandlerPart} {middle : State}
    {other : Label} {made : List Effect}
    (happened : handle config part state = some (middle, effects, later))
    (committed : (handlers config).Committed part) (atWorker : other.AtWorker)
    (stepped : step config state other = some (next, made)) :
    ∃ late, step config middle other = some (late, made) ∧
      handle config part next = some (late, effects, later) := by
  have moves : ∀ timers usersTimer, ∃ late,
      step config (state.withLoop state.pending timers usersTimer) other = some (late, made) ∧
        late = next.withLoop next.pending timers usersTimer := by
    intro timers usersTimer
    obtain ⟨pending, _, _⟩ := step_keepsLoop atWorker stepped
    refine ⟨_, ?_, rfl⟩
    rw [step_change (frame_withLoop state.pending timers usersTimer) atWorker
      fun _ _ _ _ task _ => spares_withLoop _ _ _ task _, stepped, pending]
    rfl
  obtain ⟨pending, timers, usersTimer⟩ := step_keepsLoop atWorker stepped
  cases part with
  | adjust fd =>
      cases happened
      have adjusted := @adjustSlot_of_same state state rfl rfl fd
      obtain ⟨late, moved, rfl⟩ := moves (state.adjustSlot fd).state.timers
        (state.adjustSlot fd).state.usersTimer
      refine ⟨_, by rw [adjusted]; exact moved, ?_⟩
      rw [handle, adjustSlot_of_same timers usersTimer]
  | delTimer fd timer =>
      cases happened
      obtain ⟨late, moved, rfl⟩ := moves (state.timers.remove timer) state.usersTimer
      refine ⟨_, moved, ?_⟩
      rw [handle]
      simp only [delTimer, useTimer, timers, withLoop, usersTimer]
  | take | adjustRead | read | append | adjustWrite | write | callBack => exact committed.elim

/-! ## The descriptor in hand -/

/-- The slot that a part works on. -/
def slotOf : HandlerPart → Option Fd
  | .take _ => none
  | .adjustRead fd _ _ | .read fd _ _ | .append fd | .adjustWrite fd _ _ | .write fd _ _ |
    .adjust fd
  | .callBack fd _ | .delTimer fd _ => some fd

/-- The main loop has a descriptor in hand since it has taken its event: no worker has a task for
it, and each task is for the descriptor that its slot names. -/
structure InHand (start state : State) (fd : Fd) : Prop where
  working : state.working = start.working
  users : ∀ other ≠ fd, state.users other = start.users other
  sockfd : (state.users fd).sockfd = fd
  tasks : ∀ task ∈ start.working, task.fd ≠ fd ∧ (start.users task.fd).sockfd = task.fd

/-- A part in front of the commitment keeps this. -/
theorem InHand.handle {start middle : State} {part later : HandlerPart} {fd : Fd}
    (inHand : start.InHand middle fd) (isSlot : slotOf part = some fd)
    (happened : handle config part middle = some (state, effects, some later))
    (uncommitted : ¬(handlers config).Committed later) :
    slotOf later = some fd ∧ start.InHand state fd := by
  have adjusted : start.InHand (middle.adjustSlot fd).state fd := by
    rw [adjustSlot_of_same rfl rfl]
    exact ⟨inHand.working, inHand.users, inHand.sockfd, inHand.tasks⟩
  have stored : ∀ slot origins, slot.sockfd = (middle.users fd).sockfd →
      start.InHand (middle.setSlot fd slot origins) fd := by
    intro slot origins sockfd
    refine ⟨inHand.working, fun other differ => ?_, ?_, inHand.tasks⟩
    · exact (Function.update_of_ne differ _ _).trans (inHand.users other differ)
    · exact (congrArg HttpConn.sockfd (Function.update_self _ _ _)).trans
        (sockfd.trans inHand.sockfd)
  cases part with
  | take label => contradiction
  | adjustRead other timer results =>
      cases isSlot
      cases happened
      exact ⟨rfl, adjusted⟩
  | adjustWrite other timer results =>
      cases isSlot
      cases happened
      exact ⟨rfl, adjusted⟩
  | read other timer results =>
      cases isSlot
      obtain ⟨⟨ret, read⟩, received, same⟩ := Option.map_eq_some_iff.mp happened
      cases same
      obtain ⟨slot, origins, sockfd, same, _⟩ := readSlot_slot received
      subst same
      refine ⟨?_, stored slot origins sockfd⟩
      cases ret with
      | true | false => rfl
  | write other timer results =>
      cases isSlot
      obtain ⟨⟨ret, written⟩, wrote, same⟩ := Option.map_eq_some_iff.mp happened
      simp only [Prod.mk.injEq] at same
      obtain ⟨rfl, rfl, goes⟩ := same
      obtain ⟨slot, origins, change, sockfd, arms, same, _⟩ := writeSlot_slot wrote
      have kept := stored slot origins sockfd
      refine ⟨?_, ?_⟩
      · cases ret with
        | true =>
            simp only [if_true] at goes
            split at goes
            · cases goes
            · cases goes
              rfl
        | false =>
            cases goes
            rfl
      · rw [same]
        rcases arms with rfl | ⟨interest, rfl⟩
        · exact kept
        · simp only []
          rw [modfd_eq]
          exact ⟨kept.working, kept.users, kept.sockfd, kept.tasks⟩
  | append other =>
      simp only [State.handle] at happened
      split at happened
      · cases happened
      · cases happened
        exact absurd trivial uncommitted
  | callBack other timer =>
      cases timer with
      | none => cases happened
      | some timer =>
          cases happened
          exact absurd trivial uncommitted
  | adjust other => cases happened
  | delTimer other timer => cases happened

/-- A worker spares the descriptor that the main loop has in hand. -/
theorem InHand.apart {start : State} {part : HandlerPart} {fd : Fd} (inHand : start.InHand state fd)
    (isSlot : slotOf part = some fd) (other : Label) : Apart part state other := by
  have spares : state.SparesSlot fd other ∧ state.SparesFd fd other := by
    refine ⟨fun worker _ _ _ task found => ?_, fun worker _ _ _ task found => ?_⟩
    · rw [inHand.working] at found
      exact (inHand.tasks task (List.mem_of_getElem? found)).1
    · rw [inHand.working] at found
      obtain ⟨differ, sockfd⟩ := inHand.tasks task (List.mem_of_getElem? found)
      rw [inHand.users task.fd differ, sockfd]
      exact fun same => differ (Int.ofNat.inj same)
  cases part with
  | append | callBack =>
      cases isSlot
      exact ⟨spares.1, spares.2, inHand.sockfd ▸ spares.2⟩
  | take | adjustRead | read | adjustWrite | write | adjust | delTimer => trivial

/-- The main loop takes an event of an ordered state. -/
theorem Ordered.inHand (ordered : state.Ordered) {fd : Fd} {readiness : Readiness}
    {rest : List (Fd × Readiness)} (first : state.pending = (fd, readiness) :: rest) :
    state.InHand { state with pending := rest } fd := by
  obtain ⟨_, hand, _⟩ := ordered.serve first
  have sound := ordered.regular.sound
  refine ⟨rfl, fun _ _ => rfl, (sound.user fd hand.isOpen).1, fun task member => ?_⟩
  have isTask : task ∈ state.custody.tasks := List.mem_append_right _ member
  refine ⟨fun same => hand.notBusy ?_, (sound.user _ (ordered.exclusive.task_open task isTask)).1⟩
  exact List.mem_map.mpr ⟨task, isTask, same⟩

theorem Ordered.takeEvent {start : State} (ordered : start.Ordered) {later : HandlerPart}
    (taken : start.takeEvent config label = some (state, effects, some later)) :
    ∃ fd, slotOf later = some fd ∧ start.InHand state fd := by
  simp only [State.takeEvent] at taken
  split at taken
  case _ fd rest first =>
      cases taken
      exact ⟨fd, rfl, ordered.inHand first⟩
  case _ results fd rest first =>
      cases taken
      refine ⟨fd, ?_, ordered.inHand first⟩
      split <;> rfl
  case _ results fd rest first =>
      cases taken
      refine ⟨fd, ?_, ordered.inHand first⟩
      split <;> rfl
  case _ => contradiction

theorem handle_stays {part later : HandlerPart} (committed : (handlers config).Committed part)
    (happened : handle config part state = some (next, effects, some later)) : False := by
  cases part with
  | adjust fd => cases happened
  | delTimer fd timer => cases happened
  | take | adjustRead | read | append | adjustWrite | write | callBack => exact committed

/-- It has the descriptor in hand as long as it has not committed. -/
theorem inHand_of_reached {start : State} {part : HandlerPart} (ordered : start.Ordered)
    (reached : (handlers config).Reached label start part state effects)
    (uncommitted : ¬(handlers config).Committed part) :
    (∃ label, part = .take label ∧ state = start) ∨
      ∃ fd, slotOf part = some fd ∧ start.InHand state fd := by
  induction reached with
  | @start part first =>
      left
      cases label with
      | hangup | read | write =>
          cases first
          exact ⟨_, rfl, rfl⟩
      | accept | epollWait | tick | dequeue | process => contradiction
  | go _ happened ih =>
      right
      rcases ih fun committed => handle_stays committed happened with
        ⟨label, rfl, rfl⟩ | ⟨fd, isSlot, inHand⟩
      · exact ordered.takeEvent happened
      · exact ⟨fd, inHand.handle isSlot happened uncommitted⟩

/-! ## All runs -/

/-- Ordered states, and ticks that spare busy connections, let the workers move over the parts. -/
theorem handlers_move (config : Config) :
    (handlers config).Moves (step config) Label.AtWorker Ordered Unhurried Apart where
  keeps ordered unhurried stepped := (ordered.step unhurried stepped).1
  unconditional {state label} either := by
    cases label with
    | tick =>
        rcases either with atWorker | parts
        · exact atWorker.elim
        · exact absurd rfl parts
    | accept | epollWait | hangup | read | write | dequeue | process => trivial
  notFree {label part} first atWorker := by
    cases label with
    | dequeue | process => contradiction
    | accept | epollWait | hangup | read | write | tick => exact atWorker
  whole {label part state effects last} first through := by
    cases label with
    | hangup | read | write =>
        cases first
        exact through_take through
    | accept | epollWait | tick | dequeue | process => contradiction
  ends {part} committed state := by
    cases part with
    | adjust fd => exact ⟨_, _, .last rfl⟩
    | delTimer fd timer => exact ⟨_, _, .last rfl⟩
    | take | adjustRead | read | append | adjustWrite | write | callBack => exact committed.elim
  stays committed happened := (handle_stays committed happened).elim
  apart {label start part state effects other} ordered reached uncommitted _ := by
    rcases inHand_of_reached ordered reached uncommitted with ⟨label, rfl, _⟩ | ⟨fd, isSlot, inHand⟩
    · trivial
    · exact inHand.apart isSlot other
  before happened uncommitted atWorker apart stepped :=
    handle_before happened uncommitted atWorker apart stepped
  behind happened committed atWorker stepped := handle_behind happened committed atWorker stepped

end State

/-- **Handlers are atomic**: every run in which the main loop handles the events part by part,
beside the workers, ends where a run does in which each event is handled at once, with the same
effects in some order, where the main loop and the workers each make the same steps in the same
order; as long as no tick closes a connection that is queued or with a worker. -/
theorem handlers_atomic {config : Config} {users : Fd → HttpConn} {usersTimer : Fd → ClientData}
    {nodes : Addr → UtilTimer} {labels : List (PartLabel Label)} {last : State}
    {effects : List Effect}
    (unhurried : RunMeets ((handlers config).partedStep (step config) Label.AtWorker)
      (fun parted partLabel => ∀ label, partLabel = .whole label → parted.state.Unhurried label)
      { state := State.start users usersTimer nodes, block := none } labels)
    (ran : run ((handlers config).partedStep (step config) Label.AtWorker)
      { state := State.start users usersTimer nodes, block := none } labels =
        some ({ state := last, block := none }, effects)) :
    ∃ others made, run (step config) (State.start users usersTimer nodes) others =
        some (last, made) ∧ made.Perm effects ∧
      RunMeets (step config) State.Unhurried (State.start users usersTimer nodes) others ∧
      Blocks.ofThread Label.AtWorker others =
        Blocks.ofThread Label.AtWorker (labels.filterMap PartLabel.label) ∧
      Blocks.ofThread (fun label => ¬label.AtWorker) others =
        Blocks.ofThread (fun label => ¬label.AtWorker) (labels.filterMap PartLabel.label) :=
  (State.handlers_move config).reduces (State.start_ordered users usersTimer nodes) unhurried ran

/-- While the second of two requests is handled, a worker takes the first one and makes room for the
second one in the queue. -/
def roomInTime : List (PartLabel Label) :=
  [.whole (.accept 7), .whole (.accept 8), .whole (.epollWait [(7, .readable), (8, .readable)]),
    .begin (.read [.data (ascii "G")]), .go, .go, .go,
    .begin (.read [.data (ascii "G")]), .whole .dequeue, .go, .whole (.process 0 none Env.blank),
    .go, .whole .dequeue, .go]

theorem handlers_atomic_room :
    ∃ last effects others made,
      run ((handlers narrow).partedStep (step narrow) Label.AtWorker)
        { state := State.start blankUsers blankTimers blankNodes, block := none } roomInTime =
          some ({ state := last, block := none }, effects) ∧
      run (step narrow) (State.start blankUsers blankTimers blankNodes) others =
        some (last, made) ∧ made.Perm effects := by
  have ends : (run ((handlers narrow).partedStep (step narrow) Label.AtWorker)
      { state := State.start blankUsers blankTimers blankNodes, block := none } roomInTime).map
      (fun last => last.1.block.isNone) = some true := by
    decide +kernel
  obtain ⟨⟨⟨last, block⟩, effects⟩, ran, isNone⟩ := Option.map_eq_some_iff.mp ends
  rw [Option.isNone_iff_eq_none] at isNone
  subst isNone
  have noTick : ∀ partLabel ∈ roomInTime, partLabel ≠ .whole .tick := by
    simp [roomInTime]
  have unhurried : RunMeets ((handlers narrow).partedStep (step narrow) Label.AtWorker)
      (fun parted partLabel => ∀ label, partLabel = .whole label → parted.state.Unhurried label)
      { state := State.start blankUsers blankTimers blankNodes, block := none } roomInTime := by
    refine (RunMeets.of_forall noTick _).mono fun parted partLabel good label isWhole => ?_
    cases label with
    | tick => exact absurd isWhole good
    | accept | epollWait | hangup | read | write | dequeue | process => trivial
  obtain ⟨others, made, ranWhole, perm, _⟩ := handlers_atomic unhurried ran
  exact ⟨last, effects, others, made, ran, ranWhole, perm⟩

end TimeGANWebServer.Server
