import TimeGANWebServer.Server.Places
import TimeGANWebServer.Server.Seconds
import TimeGANWebServer.Support.Refinement

/-!
# Reactor and proactor

`dealwithread` and `dealwithwrite` have a branch for each actor model.  They call the same
functions in another order, and only the reactor branch marks the slot as read, which `run` looks
at.  As long as no `read_once` and no `write` fails, both models do the same.
-/

namespace TimeGANWebServer.Server

open TimeGANWebServer.Http TimeGANWebServer.Support TimeGANWebServer.Timer

namespace State

/-! ## Slots that are in use -/

/-- The server can come across a descriptor again: it is open, armed or reported, or a task is for
it. -/
def Seen (state : State) (fd : Fd) : Prop :=
  fd ∈ state.openFds ∨ state.armed fd ≠ none ∨ fd ∈ state.pending.map Prod.fst ∨
    fd ∈ (state.queue ++ state.working).map Task.fd

/-- Every slot the server can come across is marked as read. -/
def Marked (state : State) : Prop :=
  ∀ fd, state.Seen fd → (state.users fd).state = 0

theorem start_marked (users : Fd → HttpConn) (usersTimer : Fd → ClientData)
    (nodes : Addr → UtilTimer) : (start users usersTimer nodes).Marked := by
  intro fd seen
  simp [Seen, start] at seen

/-- The second state has the same slots, and no descriptor is seen in it that is not seen in the
first one. -/
structure Fewer (before after : State) : Prop where
  users : after.users = before.users
  seen : ∀ fd, after.Seen fd → before.Seen fd

theorem Fewer.refl (state : State) : state.Fewer state := ⟨rfl, fun _ seen => seen⟩

theorem Fewer.trans {first second third : State} (left : first.Fewer second)
    (right : second.Fewer third) : first.Fewer third :=
  ⟨right.users.trans left.users, fun fd seen => left.seen fd (right.seen fd seen)⟩

theorem Fewer.marked {before after : State} (fewer : before.Fewer after)
    (marked : before.Marked) : after.Marked := by
  intro fd seen
  rw [fewer.users]
  exact marked fd (fewer.seen fd seen)

theorem fewer_close (state : State) (fd : Int) (intended : ConnId) :
    state.Fewer (state.close fd intended).state := by
  simp only [close]
  split
  · refine ⟨rfl, fun other seen => seen.imp List.mem_of_mem_erase (Or.imp_left fun armed => ?_)⟩
    simp only [Function.update_apply] at armed
    split at armed
    · contradiction
    · exact armed
  · exact Fewer.refl state

theorem fewer_cbFunc (state : State) (data : Fd) : state.Fewer (state.cbFunc data).state :=
  (fewer_close state _ _).trans ⟨rfl, fun _ seen => seen⟩

theorem fewer_dealTimer (state : State) (timer : Option Addr) (fd : Fd) :
    state.Fewer (state.dealTimer timer fd).state := by
  cases timer with
  | none => exact Fewer.refl state
  | some timer => exact (fewer_cbFunc state fd).trans ⟨rfl, fun _ seen => seen⟩

theorem fewer_fireTimers (state : State) (timers : List Addr) :
    state.Fewer (state.fireTimers timers).state := by
  induction timers generalizing state with
  | nil => exact Fewer.refl state
  | cons timer timers ih =>
      let fired := (state.cbFunc (state.timers.wheel.timers timer).userData).state
      let freed : State := { fired with timers := fired.timers.free timer }
      have first : state.Fewer freed :=
        (fewer_cbFunc state _).trans ⟨rfl, fun _ seen => seen⟩
      exact first.trans (ih freed)

theorem Retimed.fewer {before after : State} (retimed : before.Retimed after) :
    before.Fewer after := by
  rw [retimed.rest]
  exact ⟨rfl, fun _ seen => seen⟩

/-- Calls on descriptors see no other one. -/
theorem fewer_fdCalls (state : State) (conn : ConnId) (calls : List FdCall) :
    state.Fewer (state.fdCalls conn calls).state := by
  induction calls generalizing state with
  | nil => exact Fewer.refl state
  | cons call calls ih =>
      refine Fewer.trans ?_ (ih _)
      cases call with
      | modfd fd interest =>
          simp only [fdCall, modfd]
          split
          case isTrue isOpen =>
              refine ⟨rfl, fun other seen => ?_⟩
              by_cases same : other = fd.toNat
              · exact .inl (same ▸ isOpen.2)
              · simpa only [Seen, Function.update_of_ne same] using seen
          case isFalse => exact Fewer.refl state
      | closeConn fd => exact (fewer_close state fd conn).trans ⟨rfl, fun _ seen => seen⟩

/-- A slot is stored that is marked as well. -/
theorem Marked.setSlot {state : State} (marked : state.Marked) {fd : Fd} {conn : HttpConn}
    (origins : Origins) (mark : state.Seen fd → conn.state = 0) :
    ({ state with
      users := Function.update state.users fd conn
      origins := Function.update state.origins fd origins } : State).Marked := by
  intro other seen
  by_cases same : other = fd
  · subst same
    simpa only [Function.update_self] using mark seen
  · simpa only [Function.update_of_ne same] using marked other seen

theorem Marked.timer {state : State} (marked : state.Marked) (config : Config) (fd : Fd) :
    (state.timer config fd).Marked := by
  have users : (state.timer config fd).users = Function.update state.users fd
      ((state.users fd).initFor fd config.root config.connTrigMode) := rfl
  intro other seen
  by_cases same : other = fd
  · rw [users, same, Function.update_self]
    rfl
  · rw [users, Function.update_of_ne same]
    refine marked other ?_
    have places : (state.timer config fd).Seen other ↔ other ∈ fd :: state.openFds ∨
        Function.update state.armed fd (some .epollin) other ≠ none ∨
        other ∈ state.pending.map Prod.fst ∨
        other ∈ (state.queue ++ state.working).map Task.fd := Iff.rfl
    rw [places, Function.update_of_ne same] at seen
    exact seen.imp_left fun isOpen => (List.mem_cons.mp isOpen).resolve_left same

theorem Marked.append {state : State} (marked : state.Marked) (config : Config) {fd : Fd}
    (mark : (state.users fd).state = 0) : (state.append config fd).Marked := by
  simp only [State.append]
  split
  · exact marked
  · intro other seen
    by_cases same : other = fd
    · exact same ▸ mark
    · refine marked other ?_
      simpa [Seen, same] using seen

/-- `read_once` leaves the mark as it is. -/
theorem Marked.readSlot {state next : State} (marked : state.Marked) {fd : Fd}
    (mark : (state.users fd).state = 0) {results : List RecvResult} {ret : Bool}
    (read : state.readSlot fd results = some (ret, next)) :
    next.Marked ∧ (next.users fd).state = 0 := by
  obtain ⟨request, origins, rfl⟩ := readSlot_cases read
  refine ⟨marked.setSlot origins fun _ => mark, ?_⟩
  simp only [Function.update_self]
  exact mark

theorem Marked.dealwithread {config : Config} {state : State} (marked : state.Marked) {fd : Fd}
    (mark : (state.users fd).state = 0) {results : List RecvResult} {outcome : Outcome}
    (dealt : state.dealwithread config fd results = some outcome) : outcome.state.Marked := by
  simp only [State.dealwithread] at dealt
  split at dealt
  case isTrue =>
      have adjusted := (adjustSlot_retimed state fd).fewer
      have adjustedMark : ((state.adjustSlot fd).state.users fd).state = 0 := by
        rw [adjusted.users]
        exact mark
      obtain ⟨⟨ret, next⟩, read, rfl⟩ := Option.map_eq_some_iff.mp dealt
      obtain ⟨nextMarked, nextMark⟩ := (adjusted.marked marked).readSlot adjustedMark read
      cases ret with
      | true =>
          have stored := @Marked.setSlot next nextMarked fd { next.users fd with state := 0 }
            (next.origins fd) fun _ => rfl
          rw [Function.update_eq_self] at stored
          refine Marked.append stored config ?_
          simp only [Function.update_self]
      | false => exact (fewer_dealTimer next _ fd).marked nextMarked
  case isFalse =>
      obtain ⟨⟨ret, next⟩, read, rfl⟩ := Option.map_eq_some_iff.mp dealt
      obtain ⟨nextMarked, nextMark⟩ := marked.readSlot mark read
      cases ret with
      | true => exact (adjustSlot_retimed _ fd).fewer.marked (nextMarked.append config nextMark)
      | false => exact (fewer_dealTimer next _ fd).marked nextMarked

/-- `write` leaves the mark as it is, or sets it. -/
theorem Marked.writeSlot {state : State} (marked : state.Marked) {fd : Fd}
    (mark : (state.users fd).state = 0) {results : List WritevResult} {ret : Bool}
    {outcome : Outcome} (written : state.writeSlot fd results = some (ret, outcome)) :
    outcome.state.Marked := by
  simp only [State.writeSlot, Option.map_eq_some_iff, Prod.mk.injEq] at written
  obtain ⟨result, written, rfl, rfl⟩ := written
  obtain ⟨_, idle, _⟩ := HttpConn.write_cases written
  exact (fewer_fdCalls _ _ _).marked
    (marked.setSlot _ fun _ => idle.elim (fun same => same.trans mark) id)

theorem Marked.dealwithwrite {config : Config} {state : State} (marked : state.Marked) {fd : Fd}
    (mark : (state.users fd).state = 0) {results : List WritevResult} {outcome : Outcome}
    (dealt : state.dealwithwrite config fd results = some outcome) : outcome.state.Marked := by
  simp only [State.dealwithwrite] at dealt
  split at dealt
  case isTrue =>
      have adjusted := (adjustSlot_retimed state fd).fewer
      have adjustedMark : ((state.adjustSlot fd).state.users fd).state = 0 := by
        rw [adjusted.users]
        exact mark
      obtain ⟨⟨ret, written⟩, wrote, rfl⟩ := Option.map_eq_some_iff.mp dealt
      have writtenMarked := (adjusted.marked marked).writeSlot adjustedMark wrote
      cases ret with
      | true => exact writtenMarked
      | false => exact (fewer_dealTimer _ _ fd).marked writtenMarked
  case isFalse =>
      obtain ⟨⟨ret, written⟩, wrote, rfl⟩ := Option.map_eq_some_iff.mp dealt
      have writtenMarked := marked.writeSlot mark wrote
      cases ret with
      | true => exact (adjustSlot_retimed _ fd).fewer.marked writtenMarked
      | false => exact (fewer_dealTimer _ _ fd).marked writtenMarked

/-- A worker leaves the mark of its request as it is. -/
theorem Marked.work {config : Config} {state : State} (marked : state.Marked) {task : Task}
    (mark : (state.users task.fd).state = 0) {mysql : Option Nat} {env : Env} {outcome : Outcome}
    (worked : state.work config task mysql env = some outcome) : outcome.state.Marked := by
  rcases work_cases worked with ⟨_, rfl⟩ | ⟨conn, origins, calls, same, rfl, _⟩
  · exact marked
  · exact (fewer_fdCalls _ _ _).marked (marked.setSlot origins fun _ => same.trans mark)

theorem Marked.step {config : Config} {state next : State} {label : Label} {effects : List Effect}
    (marked : state.Marked) (stepped : Server.step config state label = some (next, effects)) :
    next.Marked := by
  have rests : ∀ {event : Fd × Readiness} {rest : List (Fd × Readiness)},
      state.pending = event :: rest →
      ({ state with pending := rest } : State).Marked ∧ (state.users event.1).state = 0 := by
    intro event rest first
    have fewer : state.Fewer { state with pending := rest } := by
      refine ⟨rfl, fun fd seen => ?_⟩
      simp only [Seen, first, List.map_cons, List.mem_cons] at seen ⊢
      tauto
    refine ⟨fewer.marked marked, marked event.1 (.inr (.inr (.inl ?_)))⟩
    rw [first, List.map_cons]
    exact List.mem_cons_self
  cases label with
  | accept fd =>
      simp only [Server.step, dealclinetdata] at stepped
      split at stepped
      · contradiction
      · cases stepped
        split
        · exact marked
        · exact marked.timer config fd
  | epollWait events =>
      simp only [Server.step] at stepped
      split at stepped
      case isTrue possible =>
          cases stepped
          intro fd seen
          refine marked fd ?_
          rcases seen with isOpen | armed | reported | busy
          · exact .inl isOpen
          · simp only [ne_eq] at armed
            split at armed
            · contradiction
            · exact .inr (.inl armed)
          · obtain ⟨event, member, rfl⟩ := List.mem_map.mp reported
            exact .inr (.inl (possible.2.2 event member).armed)
          · exact .inr (.inr (.inr busy))
      · contradiction
  | hangup =>
      simp only [Server.step] at stepped
      split at stepped
      case _ fd rest first =>
          cases stepped
          exact (fewer_dealTimer _ _ fd).marked (rests first).1
      · contradiction
  | read results =>
      simp only [Server.step] at stepped
      split at stepped
      case _ fd rest first =>
          simp only [Option.map_eq_some_iff, Prod.mk.injEq] at stepped
          obtain ⟨outcome, dealt, rfl, rfl⟩ := stepped
          exact (rests first).1.dealwithread (rests first).2 dealt
      · contradiction
  | write results =>
      simp only [Server.step] at stepped
      split at stepped
      case _ fd rest first =>
          simp only [Option.map_eq_some_iff, Prod.mk.injEq] at stepped
          obtain ⟨outcome, dealt, rfl, rfl⟩ := stepped
          exact (rests first).1.dealwithwrite (rests first).2 dealt
      · contradiction
  | tick =>
      simp only [Server.step] at stepped
      split at stepped
      · cases stepped
        have ticked : state.Fewer { state with timers := state.timers.ticked } :=
          ⟨rfl, fun _ seen => seen⟩
        exact (fewer_fireTimers _ _).marked (ticked.marked marked)
      · contradiction
  | dequeue =>
      simp only [Server.step] at stepped
      split at stepped
      · contradiction
      case _ task rest first =>
          split at stepped
          · cases stepped
            intro fd seen
            refine marked fd ?_
            simp only [Seen, first, List.map_append, List.mem_append, List.map_cons, List.mem_cons,
              List.map_nil, List.not_mem_nil, or_false] at seen ⊢
            tauto
          · contradiction
  | process worker mysql env =>
      simp only [Server.step] at stepped
      split at stepped
      · contradiction
      case _ task found =>
          simp only [Option.map_eq_some_iff, Prod.mk.injEq] at stepped
          obtain ⟨outcome, worked, rfl, rfl⟩ := stepped
          have member : task ∈ state.working := List.mem_of_getElem? found
          have released : state.Fewer { state with working := state.working.eraseIdx worker } := by
            refine ⟨rfl, fun fd seen => seen.imp_right (Or.imp_right (Or.imp_right fun busy => ?_))⟩
            simp only [List.map_append, List.mem_append, List.mem_map] at busy ⊢
            rcases busy with queued | ⟨other, kept, same⟩
            · exact .inl queued
            · exact .inr ⟨other, List.mem_of_mem_eraseIdx kept, same⟩
          refine (released.marked marked).work (marked task.fd (.inr (.inr (.inr ?_)))) worked
          exact List.mem_map_of_mem (List.mem_append_right _ member)

/-! ## What the workers do not see -/

/-- The state with other events and other timers, which only the main loop looks at. -/
def withLoop (state : State) (pending : List (Fd × Readiness)) (timers : Timers)
    (usersTimer : Fd → ClientData) : State :=
  { state with pending := pending, timers := timers, usersTimer := usersTimer }

/-- Adjusting a timer looks at the timers only. -/
theorem adjustSlot_of_same {state other : State} (timers : other.timers = state.timers)
    (usersTimer : other.usersTimer = state.usersTimer) (fd : Fd) :
    other.adjustSlot fd = {
      state := other.withLoop other.pending (state.adjustSlot fd).state.timers
        (state.adjustSlot fd).state.usersTimer
      effects := (state.adjustSlot fd).effects } := by
  obtain ⟨users, _, _, userCount, queue, working, openFds, armed, pending, owner, nextConn,
    origins⟩ := other
  subst timers usersTimer
  simp only [adjustSlot]
  split
  · rfl
  · rfl

theorem readSlot_withLoop (state : State) (pending : List (Fd × Readiness)) (timers : Timers)
    (usersTimer : Fd → ClientData)
    (fd : Fd) (results : List RecvResult) :
    (state.withLoop pending timers usersTimer).readSlot fd results =
      (state.readSlot fd results).map fun read =>
        (read.1, read.2.withLoop pending timers usersTimer) := by
  simp only [readSlot, Option.map_map]
  rfl

theorem fdCalls_withLoop (state : State) (pending : List (Fd × Readiness)) (timers : Timers)
    (usersTimer : Fd → ClientData)
    (conn : ConnId) (calls : List FdCall) :
    (state.withLoop pending timers usersTimer).fdCalls conn calls = {
      state := (state.fdCalls conn calls).state.withLoop pending timers usersTimer
      effects := (state.fdCalls conn calls).effects } := by
  induction calls generalizing state with
  | nil => rfl
  | cons call calls ih =>
      have first : (state.withLoop pending timers usersTimer).fdCall conn call = {
          state := (state.fdCall conn call).state.withLoop pending timers usersTimer
          effects := (state.fdCall conn call).effects } := by
        cases call with
        | modfd fd interest =>
            have same : (state.withLoop pending timers usersTimer).openFds = state.openFds := rfl
            simp only [fdCall, modfd, same]
            split <;> rfl
        | closeConn fd =>
            simp only [fdCall, State.close, Outcome.andThen]
            split <;> rfl
      simp only [fdCalls, Outcome.andThen, first, ih]

theorem writeSlot_withLoop (state : State) (pending : List (Fd × Readiness)) (timers : Timers)
    (usersTimer : Fd → ClientData)
    (fd : Fd) (results : List WritevResult) :
    (state.withLoop pending timers usersTimer).writeSlot fd results =
      (state.writeSlot fd results).map fun written => (written.1, {
        state := written.2.state.withLoop pending timers usersTimer
        effects := written.2.effects }) := by
  simp only [writeSlot, Option.map_map]
  refine Option.map_congr fun outcome _ => ?_
  let next : State := { state with
    users := Function.update state.users fd outcome.conn
    origins := Function.update state.origins fd
      (if outcome.ended = .idle ∨ outcome.ended = .complete ∧ outcome.ret = true then
        { state.origins fd with request := .nothing, response := .nothing, csv := false }
      else
        state.origins fd) }
  have calls := fdCalls_withLoop next pending timers usersTimer (state.owner fd) outcome.fdCalls
  exact congrArg (fun called : Outcome => (outcome.ret, Outcome.mk called.state
    ((if outcome.writevs.any fun writev => 0 < writev.accepted then
      [Effect.send (state.holder fd) (state.sentSource fd results)] else []) ++
        called.effects))) calls

theorem append_withLoop (config : Config) (state : State) (pending : List (Fd × Readiness))
    (timers : Timers) (usersTimer : Fd → ClientData) (fd : Fd) :
    (state.withLoop pending timers usersTimer).append config fd =
      (state.append config fd).withLoop pending timers usersTimer := by
  have same : (state.withLoop pending timers usersTimer).queue = state.queue := rfl
  simp only [append, same]
  split <;> rfl

/-- Marking a slot that is marked. -/
theorem setUser_of_mark {state : State} {fd : Fd} (mark : (state.users fd).state = 0) :
    state.setUser fd { state.users fd with state := 0 } = state := by
  have same : ({ state.users fd with state := 0 } : HttpConn) = state.users fd := by
    rw [← mark]
  simp only [setUser, same, Function.update_eq_self]

theorem timers_append (config : Config) (state : State) (fd : Fd) :
    (state.append config fd).timers = state.timers ∧
      (state.append config fd).usersTimer = state.usersTimer ∧
      (state.append config fd).pending = state.pending := by
  simp only [append]
  split <;> exact ⟨rfl, rfl, rfl⟩

/-! ## The branches -/

/-- A successful `read_once` in either model: the request is appended, and the timer adjusted. -/
theorem dealwithread_succeeds (config : Config) {state : State} {fd : Fd}
    (mark : (state.users fd).state = 0) {results : List RecvResult}
    (reads : state.ReadsOk fd results) :
    ∃ next, state.readSlot fd results = some (true, next) ∧
      state.dealwithread config fd results = some ((next.append config fd).adjustSlot fd) := by
  obtain ⟨request, received⟩ := reads
  have read : ∃ next, state.readSlot fd results = some (true, next) := by
    simp only [readSlot, received, Option.map_some]
    exact ⟨_, rfl⟩
  obtain ⟨next, read⟩ := read
  refine ⟨next, read, ?_⟩
  by_cases reactor : config.actorModel = 1
  · have rest := (adjustSlot_retimed state fd).rest
    have behind := readSlot_withLoop state state.pending (state.adjustSlot fd).state.timers
      (state.adjustSlot fd).state.usersTimer fd results
    rw [withLoop, ← rest, read, Option.map_some] at behind
    have kept : next.timers = state.timers ∧ next.usersTimer = state.usersTimer ∧
        next.pending = state.pending ∧ (next.users fd).state = 0 := by
      obtain ⟨received, origins, rfl⟩ := readSlot_cases read
      refine ⟨rfl, rfl, rfl, ?_⟩
      simp only [Function.update_self]
      exact mark
    obtain ⟨sameTimers, sameData, samePending⟩ := timers_append config next fd
    have adjusted := adjustSlot_of_same (sameTimers.trans kept.1) (sameData.trans kept.2.1) fd
    rw [samePending, kept.2.2.1] at adjusted
    have marked := @setUser_of_mark (next.withLoop state.pending (state.adjustSlot fd).state.timers
      (state.adjustSlot fd).state.usersTimer) fd kept.2.2.2
    simp only [dealwithread, if_pos reactor, behind, Option.map_some, if_true, marked, adjusted,
      append_withLoop, Outcome.andThen, List.append_nil]
  · simp only [dealwithread, if_neg reactor, read, Option.map_some, if_true]

/-- A successful `write` in either model: the timer is adjusted, in front of it or behind it. -/
theorem dealwithwrite_succeeds (config : Config) {state : State} {fd : Fd}
    {results : List WritevResult} (writes : state.WritesOk fd results) :
    ∃ written effects, state.writeSlot fd results = some (true, written) ∧
      state.dealwithwrite config fd results =
        some { state := (written.state.adjustSlot fd).state, effects := effects } ∧
      effects.Perm (written.effects ++ (written.state.adjustSlot fd).effects) := by
  obtain ⟨outcome, wrote, success⟩ := writes
  have write : ∃ written, state.writeSlot fd results = some (true, written) := by
    simp only [writeSlot, wrote, Option.map_some, success]
    exact ⟨_, rfl⟩
  obtain ⟨written, write⟩ := write
  refine ⟨written, ?_⟩
  by_cases reactor : config.actorModel = 1
  · have rest := (adjustSlot_retimed state fd).rest
    have behind := writeSlot_withLoop state state.pending (state.adjustSlot fd).state.timers
      (state.adjustSlot fd).state.usersTimer fd results
    rw [withLoop, ← rest, write, Option.map_some] at behind
    have kept : written.state.timers = state.timers ∧
        written.state.usersTimer = state.usersTimer ∧ written.state.pending = state.pending := by
      rw [(frame_writeSlot write).2]
      exact ⟨rfl, rfl, rfl⟩
    have adjusted := adjustSlot_of_same kept.1 kept.2.1 fd
    rw [kept.2.2] at adjusted
    refine ⟨(state.adjustSlot fd).effects ++ written.effects, write, ?_, ?_⟩
    · simp only [dealwithwrite, if_pos reactor, behind, Option.map_some, if_true, adjusted,
        Outcome.andThen, List.append_nil]
    · rw [adjusted]
      exact List.perm_append_comm
  · refine ⟨written.effects ++ (written.state.adjustSlot fd).effects, write, ?_, .refl _⟩
    simp only [dealwithwrite, if_neg reactor, write, Option.map_some, if_true, Outcome.andThen]

/-- A worker does not skip a request whose slot is marked. -/
theorem work_of_mark {config : Config} (other : Config) {state : State} {task : Task}
    (mark : (state.users task.fd).state = 0) (mysql : Option Nat) (env : Env) :
    state.work config task mysql env = state.work other task mysql env := by
  have runs : ∀ config : Config,
      ¬(config.actorModel = 1 ∧ (state.users task.fd).state ≠ 0) := fun _ skips => skips.2 mark
  simp only [work, if_neg (runs _)]

/-! ## Steps -/

/-- No `read_once` and no `write` of a step fails. -/
def Succeeds (state : State) : Label → Prop
  | .read results => ∀ fd rest, state.pending = (fd, .readable) :: rest → state.ReadsOk fd results
  | .write results => ∀ fd rest, state.pending = (fd, .writable) :: rest →
      state.WritesOk fd results
  | _ => True

/-- A step in one actor model is a step in each, with the same effects in some order. -/
theorem step_permutes {config : Config} (model : Int) {state next : State} {label : Label}
    {effects : List Effect} (marked : state.Marked) (succeeds : state.Succeeds label)
    (stepped : Server.step config state label = some (next, effects)) :
    ∃ others, Server.step { config with actorModel := model } state label = some (next, others) ∧
      others.Perm effects := by
  have seen : ∀ {event : Fd × Readiness} {rest : List (Fd × Readiness)},
      state.pending = event :: rest → (state.users event.1).state = 0 := by
    intro event rest first
    refine marked event.1 (.inr (.inr (.inl ?_)))
    rw [first, List.map_cons]
    exact List.mem_cons_self
  cases label with
  | accept fd => exact ⟨effects, stepped, .refl _⟩
  | epollWait events => exact ⟨effects, stepped, .refl _⟩
  | hangup => exact ⟨effects, stepped, .refl _⟩
  | tick => exact ⟨effects, stepped, .refl _⟩
  | dequeue => exact ⟨effects, stepped, .refl _⟩
  | read results =>
      simp only [Server.step] at stepped ⊢
      split at stepped
      case _ fd rest first =>
          have mark : (({ state with pending := rest } : State).users fd).state = 0 := seen first
          have reads : ({ state with pending := rest } : State).ReadsOk fd results :=
            succeeds fd rest first
          obtain ⟨received, read, dealt⟩ := dealwithread_succeeds config mark reads
          obtain ⟨other, again, dealtToo⟩ :=
            dealwithread_succeeds { config with actorModel := model } mark reads
          rw [read] at again
          cases again
          rw [dealt] at stepped
          cases stepped
          rw [dealtToo]
          exact ⟨_, rfl, .refl _⟩
      · contradiction
  | write results =>
      simp only [Server.step] at stepped ⊢
      split at stepped
      case _ fd rest first =>
          have writes : ({ state with pending := rest } : State).WritesOk fd results :=
            succeeds fd rest first
          obtain ⟨written, done, write, dealt, perm⟩ := dealwithwrite_succeeds config writes
          obtain ⟨other, others, again, dealtToo, permToo⟩ :=
            dealwithwrite_succeeds { config with actorModel := model } writes
          rw [write] at again
          cases again
          rw [dealt] at stepped
          cases stepped
          rw [dealtToo]
          exact ⟨others, rfl, permToo.trans perm.symm⟩
      · contradiction
  | process worker mysql env =>
      simp only [Server.step] at stepped ⊢
      split at stepped
      · contradiction
      case _ task found =>
          have mark : (state.users task.fd).state = 0 :=
            marked task.fd (.inr (.inr (.inr (List.mem_map_of_mem
              (List.mem_append_right _ (List.mem_of_getElem? found))))))
          rw [@work_of_mark config { config with actorModel := model }
            { state with working := state.working.eraseIdx worker } task mark] at stepped
          exact ⟨effects, stepped, .refl _⟩

end State

/-- Every slot that the server can come across is marked as read, behind every run. -/
theorem marked_of_run {config : Config} {users : Fd → HttpConn} {usersTimer : Fd → ClientData}
    {nodes : Addr → UtilTimer} {labels : List Label} {last : State} {effects : List Effect}
    (ran : run (step config) (State.start users usersTimer nodes) labels = some (last, effects)) :
    last.Marked :=
  run_state_always State.Marked (fun _ _ _ _ marked stepped => marked.step stepped)
    (State.start_marked users usersTimer nodes) ran

/-- **Reactor and proactor agree**: behind every run the slots that the server can come across are
marked as read; and a run in one actor model in which no `read_once` and no `write` fails is a run
in each, to the same state and with the same effects in some order. -/
theorem actorModels_agree {config : Config} (model : Int) {users : Fd → HttpConn}
    {usersTimer : Fd → ClientData} {nodes : Addr → UtilTimer} {labels : List Label} {last : State}
    {effects : List Effect}
    (ran : run (step config) (State.start users usersTimer nodes) labels = some (last, effects)) :
    last.Marked ∧
      (RunMeets (step config) State.Succeeds (State.start users usersTimer nodes) labels →
        ∃ others, run (step { config with actorModel := model })
            (State.start users usersTimer nodes) labels = some (last, others) ∧
          others.Perm effects) := by
  refine ⟨marked_of_run ran, fun succeeds => ?_⟩
  exact run_permutes State.Marked (fun _ _ _ _ marked stepped => marked.step stepped)
    (fun _ _ _ _ marked met stepped => State.step_permutes model marked met stepped)
    (State.start_marked users usersTimer nodes) succeeds ran

/-- One connection is accepted, and a first byte of its request is read. -/
theorem actorModels_agree_oneRead :
    ∃ last effects others,
      run (step narrow) (State.start blankUsers blankTimers blankNodes) oneRead =
          some (last, effects) ∧
        last.Marked ∧ last.Seen 7 ∧
        run (step { narrow with actorModel := 1 }) (State.start blankUsers blankTimers blankNodes)
          oneRead = some (last, others) ∧ others.Perm effects := by
  have seen : (run (step narrow) (State.start blankUsers blankTimers blankNodes) oneRead).map
      (fun outcome => outcome.1.openFds) = some [7] := by
    decide +kernel
  obtain ⟨⟨last, effects⟩, ran, isOpen⟩ := Option.map_eq_some_iff.mp seen
  have succeeds : RunMeets (step narrow) State.Succeeds
      (State.start blankUsers blankTimers blankNodes) oneRead := by
    refine ⟨trivial, fun _ _ accepted => ?_⟩
    cases accepted
    refine ⟨trivial, fun _ _ waited => ?_⟩
    cases waited
    refine ⟨fun fd rest first => ?_, fun _ _ _ => trivial⟩
    cases first
    exact ⟨_, rfl⟩
  obtain ⟨marked, agrees⟩ := actorModels_agree 1 ran
  obtain ⟨others, ranToo, perm⟩ := agrees succeeds
  refine ⟨last, effects, others, ran, marked, .inl ?_, ranToo, perm⟩
  rw [isOpen]
  exact List.mem_cons_self

end TimeGANWebServer.Server
