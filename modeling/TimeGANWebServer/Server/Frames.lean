import TimeGANWebServer.Server.EventLoop

/-!
# What the functions of the server do

For each function of the event loop and the workers, what it leaves unchanged and what
it does to the places of connections.  Descriptors, slots and `client_data` agree in
every state of every run.
-/

namespace TimeGANWebServer.Server

open TimeGANWebServer.Http TimeGANWebServer.Support TimeGANWebServer.Timer

namespace State

/-! ## Descriptors, slots and `client_data` -/

/-- An open descriptor is the one its slot and its `client_data` name, and only open
descriptors are armed. -/
structure Sound (state : State) : Prop where
  nodup : state.openFds.Nodup
  data : ∀ fd ∈ state.openFds, (state.usersTimer fd).sockfd = fd ∧
    (state.usersTimer fd).conn = state.owner fd ∧ (state.usersTimer fd).timer ≠ none
  user : ∀ fd ∈ state.openFds, (state.users fd).sockfd = fd ∧ (state.users fd).state = 0
  armed_open : ∀ fd, state.armed fd ≠ none → fd ∈ state.openFds

theorem start_sound (users : Fd → HttpConn) (usersTimer : Fd → ClientData)
    (nodes : Addr → UtilTimer) : (start users usersTimer nodes).Sound where
  nodup := List.nodup_nil
  data := by simp [start]
  user := by simp [start]
  armed_open := by simp [start]

/-- The second state is the first with other timers. -/
structure Retimed (before after : State) : Prop where
  rest : after = { before with timers := after.timers, usersTimer := after.usersTimer }
  data : ∀ fd, (after.usersTimer fd).sockfd = (before.usersTimer fd).sockfd ∧
    (after.usersTimer fd).conn = (before.usersTimer fd).conn
  timer : ∀ fd, (before.usersTimer fd).timer ≠ none → (after.usersTimer fd).timer ≠ none

theorem Retimed.refl (state : State) : state.Retimed state :=
  ⟨rfl, fun _ => ⟨rfl, rfl⟩, fun _ has => has⟩

theorem Retimed.trans {first second third : State} (left : first.Retimed second)
    (right : second.Retimed third) : first.Retimed third where
  rest := by
    rw [right.rest, left.rest]
  data fd := ⟨(right.data fd).1.trans (left.data fd).1, (right.data fd).2.trans (left.data fd).2⟩
  timer fd has := right.timer fd (left.timer fd has)

theorem Retimed.custody {before after : State} (retimed : before.Retimed after) :
    after.custody = before.custody := by
  rw [retimed.rest]
  rfl

theorem Retimed.sound {before after : State} (retimed : before.Retimed after)
    (sound : before.Sound) : after.Sound := by
  have data := retimed.data
  have timer := retimed.timer
  rw [retimed.rest] at data timer ⊢
  refine ⟨sound.nodup, ?_, sound.user, sound.armed_open⟩
  intro fd isOpen
  obtain ⟨sockfd, conn, has⟩ := sound.data fd isOpen
  exact ⟨(data fd).1.trans sockfd, (data fd).2.trans conn, timer fd has⟩

/-- What is in a slot does not matter as long as it names its descriptor. -/
theorem Sound.setSlot {state : State} (sound : state.Sound) {fd : Fd} {conn : HttpConn}
    (origins : Origins)
    (located : fd ∈ state.openFds → conn.sockfd = fd ∧ conn.state = 0) :
    ({ state with
      users := Function.update state.users fd conn
      origins := Function.update state.origins fd origins } : State).Sound where
  nodup := sound.nodup
  data := sound.data
  user other isOpen := by
    by_cases same : other = fd
    · subst same
      simp only [Function.update_self]
      exact located isOpen
    · simp only [Function.update_of_ne same]
      exact sound.user other isOpen
  armed_open := sound.armed_open

/-! ## Closing and arming -/

theorem close_of_nat (state : State) (fd : Fd) (intended : ConnId) :
    state.close fd intended = {
      state := { state with
        openFds := state.openFds.erase fd
        armed := Function.update state.armed fd none }
      effects := [.close intended (state.holder fd)] } := by
  have nonneg : (0 : Int) ≤ fd := Int.natCast_nonneg fd
  simp only [close, if_pos nonneg, Int.toNat_natCast]

/-- The custody after a descriptor is closed. -/
theorem custody_close (state : State) (fd : Fd) :
    ({ state with
      openFds := state.openFds.erase fd
      armed := Function.update state.armed fd none } : State).custody = state.custody.close fd := by
  simp only [State.custody, Custody.close, Custody.mk.injEq, true_and, and_true]
  funext other
  by_cases same : other = fd
  · simp [same]
  · simp [same]

theorem Sound.close {state : State} (sound : state.Sound) (fd : Int) (intended : ConnId) :
    (state.close fd intended).state.Sound := by
  simp only [State.close]
  split
  · refine ⟨sound.nodup.erase _, fun other isOpen =>
      sound.data other (List.mem_of_mem_erase isOpen),
      fun other isOpen => sound.user other (List.mem_of_mem_erase isOpen), ?_⟩
    intro other armed
    by_cases same : other = fd.toNat
    · simp [same] at armed
    · simp only [Function.update_of_ne same] at armed
      exact (sound.nodup.mem_erase_iff).mpr ⟨same, sound.armed_open other armed⟩
  · exact sound

theorem custody_modfd {state : State} {fd : Fd} (isOpen : fd ∈ state.openFds)
    (interest : Interest) : (state.modfd fd interest).custody = state.custody.rearm fd := by
  have inEpoll : (0 : Int) ≤ fd ∧ (fd : Int).toNat ∈ state.openFds :=
    ⟨Int.natCast_nonneg fd, by rwa [Int.toNat_natCast]⟩
  rw [modfd, if_pos inEpoll, Int.toNat_natCast]
  simp only [State.custody, Custody.rearm, Custody.mk.injEq, true_and, and_true]
  funext other
  by_cases same : other = fd
  · simp [same]
  · simp [same]

theorem openFds_modfd (state : State) (fd : Int) (interest : Interest) :
    (state.modfd fd interest).openFds = state.openFds := by
  simp only [modfd]
  split <;> rfl

theorem modfd_negative (state : State) (interest : Interest) :
    state.modfd (-1) interest = state :=
  if_neg fun inEpoll => absurd inEpoll.1 (by decide)

theorem Sound.modfd {state : State} (sound : state.Sound) (fd : Int) (interest : Interest) :
    (state.modfd fd interest).Sound := by
  simp only [State.modfd]
  split
  case isTrue inEpoll =>
      refine ⟨sound.nodup, sound.data, sound.user, ?_⟩
      intro other armed
      by_cases same : other = fd.toNat
      · exact same ▸ inEpoll.2
      · simp only [Function.update_of_ne same] at armed
        exact sound.armed_open other armed
  case isFalse => exact sound

theorem Sound.fdCalls {state : State} (sound : state.Sound) (conn : ConnId)
    (calls : List FdCall) : (state.fdCalls conn calls).state.Sound := by
  induction calls generalizing state with
  | nil => exact sound
  | cons call calls ih =>
      apply ih
      cases call with
      | modfd fd interest => exact sound.modfd fd interest
      | closeConn fd =>
          have closed := sound.close fd conn
          exact ⟨closed.nodup, closed.data, closed.user, closed.armed_open⟩

theorem fdCalls_modfd (state : State) (conn : ConnId) (fd : Int) (interest : Interest) :
    state.fdCalls conn [.modfd fd interest] = { state := state.modfd fd interest, effects := [] } :=
  rfl

/-! ## Timers -/

/-- `add_timer` is called with a positive timeout, and gives a node. -/
theorem addTimer_cases (state : State) (data : Fd) :
    ∃ timer timers, state.timers.add (3 * timeslot) data = some (timer, timers) ∧
      state.addTimer data = (some timer, { state with timers := timers }) := by
  obtain ⟨⟨timer, timers⟩, added⟩ : ∃ added, state.timers.add (3 * timeslot) data = some added :=
    ⟨_, rfl⟩
  exact ⟨timer, timers, added, by simp only [addTimer, added]⟩

theorem delTimer_retimed (state : State) (fd : Fd) (timer : Addr) :
    state.Retimed (state.delTimer fd timer).state :=
  ⟨rfl, fun _ => ⟨rfl, rfl⟩, fun _ has => has⟩

theorem adjustTimer_retimed (state : State) (fd : Fd) (timer : Addr) :
    state.Retimed (state.adjustTimer fd timer).state := by
  have removed := delTimer_retimed state fd timer
  obtain ⟨next, timers, _, added⟩ := addTimer_cases (state.delTimer fd timer).state
    (state.timers.wheel.timers timer).userData
  refine removed.trans ?_
  simp only [adjustTimer, Outcome.andThen, added]
  refine ⟨rfl, fun other => ?_, fun other has => ?_⟩
  · simp only [Function.update_apply]
    split
    case isTrue same => exact ⟨by rw [same], by rw [same]⟩
    case isFalse => exact ⟨rfl, rfl⟩
  · simp only [Function.update_apply]
    split
    · exact nofun
    · exact has

theorem adjustSlot_retimed (state : State) (fd : Fd) :
    state.Retimed (state.adjustSlot fd).state := by
  simp only [adjustSlot]
  split
  · exact Retimed.refl state
  · exact adjustTimer_retimed state fd _

/-- `cb_func` for an open descriptor. -/
theorem cbFunc_of_open {state : State} (sound : state.Sound) {fd : Fd}
    (isOpen : fd ∈ state.openFds) :
    state.cbFunc fd = {
      state := { state with
        openFds := state.openFds.erase fd
        armed := Function.update state.armed fd none
        userCount := state.userCount - 1 }
      effects := [.close (state.owner fd) (some (state.owner fd))] } := by
  obtain ⟨sockfd, conn, _⟩ := sound.data fd isOpen
  have holder : state.holder fd = some (state.owner fd) := if_pos isOpen
  simp only [cbFunc, sockfd, conn, close_of_nat, holder, Outcome.andThen, List.append_nil]

theorem Sound.cbFunc {state : State} (sound : state.Sound) (data : Fd) :
    (state.cbFunc data).state.Sound := by
  have closed := sound.close (state.usersTimer data).sockfd (state.usersTimer data).conn
  exact ⟨closed.nodup, closed.data, closed.user, closed.armed_open⟩

theorem Sound.dealTimer {state : State} (sound : state.Sound) (timer : Option Addr) (fd : Fd) :
    (state.dealTimer timer fd).state.Sound := by
  cases timer with
  | none => exact sound
  | some timer => exact (delTimer_retimed _ fd timer).sound (sound.cbFunc fd)

/-- `deal_timer` closes the descriptor of a slot that has a timer. -/
theorem custody_dealTimer {state : State} (sound : state.Sound) {fd : Fd}
    (isOpen : fd ∈ state.openFds) (timer : Addr) :
    (state.dealTimer (some timer) fd).state.custody = state.custody.close fd := by
  have closed := cbFunc_of_open sound isOpen
  simp only [dealTimer, Outcome.andThen]
  rw [(delTimer_retimed _ fd timer).custody, closed]
  exact custody_close state fd

theorem Sound.fireTimers {state : State} (sound : state.Sound) (timers : List Addr) :
    (state.fireTimers timers).state.Sound := by
  induction timers generalizing state with
  | nil => exact sound
  | cons timer timers ih =>
      have fired := sound.cbFunc (state.timers.wheel.timers timer).userData
      exact ih ⟨fired.nodup, fired.data, fired.user, fired.armed_open⟩

/-! ## Slots -/

theorem custody_append (config : Config) (state : State) (fd : Fd) :
    (state.append config fd).custody =
      if config.maxRequests ≤ state.queue.length then state.custody
      else state.custody.enqueue fd := by
  simp only [append]
  split <;> rfl

theorem Sound.append {state : State} (sound : state.Sound) (config : Config) (fd : Fd) :
    (state.append config fd).Sound := by
  simp only [State.append]
  split
  · exact sound
  · exact ⟨sound.nodup, sound.data, sound.user, sound.armed_open⟩

/-- What `read_once` does to the state. -/
theorem readSlot_cases {state next : State} {fd : Fd} {results : List RecvResult} {ret : Bool}
    (read : state.readSlot fd results = some (ret, next)) :
    ∃ request origins, next = { state with
      users := Function.update state.users fd
        { state.users fd with toRequestState := request }
      origins := Function.update state.origins fd origins } := by
  simp only [readSlot, Option.map_eq_some_iff, Prod.mk.injEq] at read
  obtain ⟨⟨_, request⟩, _, _, same⟩ := read
  exact ⟨request, _, same.symm⟩

theorem Sound.readSlot {state next : State} (sound : state.Sound) {fd : Fd}
    {results : List RecvResult} {ret : Bool}
    (read : state.readSlot fd results = some (ret, next)) : next.Sound := by
  obtain ⟨request, origins, rfl⟩ := readSlot_cases read
  exact sound.setSlot origins fun isOpen => sound.user fd isOpen

theorem custody_readSlot {state next : State} {fd : Fd} {results : List RecvResult} {ret : Bool}
    (read : state.readSlot fd results = some (ret, next)) : next.custody = state.custody := by
  obtain ⟨request, origins, rfl⟩ := readSlot_cases read
  rfl

theorem timer_readSlot {state next : State} {fd : Fd} {results : List RecvResult} {ret : Bool}
    (read : state.readSlot fd results = some (ret, next)) :
    next.usersTimer = state.usersTimer ∧ next.openFds = state.openFds ∧ next.queue =
      state.queue := by
  obtain ⟨request, origins, rfl⟩ := readSlot_cases read
  exact ⟨rfl, rfl, rfl⟩

/-- A successful `read_once` in either mode. -/
def ReadsOk (state : State) (fd : Fd) (results : List RecvResult) : Prop :=
  ∃ request, (state.users fd).readOnce (state.users fd).trigMode results = some (true, request)

theorem readsOk_of_readSlot {state next : State} {fd : Fd} {results : List RecvResult}
    (read : state.readSlot fd results = some (true, next)) : state.ReadsOk fd results := by
  simp only [readSlot, Option.map_eq_some_iff, Prod.mk.injEq] at read
  obtain ⟨⟨ret, request⟩, read, rfl, _⟩ := read
  exact ⟨request, read⟩

theorem Retimed.readsOk {before after : State} (retimed : before.Retimed after) {fd : Fd}
    {results : List RecvResult} (reads : after.ReadsOk fd results) :
    before.ReadsOk fd results := by
  rw [retimed.rest] at reads
  exact reads

/-- Behind a read the connection waits for a worker, or is closed; or it is dropped,
because the queue is full. -/
theorem custody_dealwithread {config : Config} {state : State} (sound : state.Sound) {fd : Fd}
    (isOpen : fd ∈ state.openFds) {results : List RecvResult} {outcome : Outcome}
    (dealt : state.dealwithread config fd results = some outcome) :
    outcome.state.Sound ∧
      (outcome.state.custody = state.custody.enqueue fd ∨
        outcome.state.custody = state.custody.close fd ∨
        outcome.state.custody = state.custody ∧ state.ReadsOk fd results ∧
          config.maxRequests ≤ state.queue.length) := by
  obtain ⟨timer, hasTimer⟩ := Option.ne_none_iff_exists'.mp (sound.data fd isOpen).2.2
  have adjusted := adjustSlot_retimed state fd
  simp only [dealwithread] at dealt
  split at dealt
  · obtain ⟨⟨ret, next⟩, read, rfl⟩ := Option.map_eq_some_iff.mp dealt
    have readSound := (adjusted.sound sound).readSlot read
    have readCustody := (custody_readSlot read).trans adjusted.custody
    have sameQueue : next.queue = state.queue := by
      rw [(timer_readSlot read).2.2, adjusted.rest]
    have stillOpen : fd ∈ next.openFds := by
      rw [(timer_readSlot read).2.1, adjusted.rest]
      exact isOpen
    cases ret with
    | true =>
        have setSound : (next.setUser fd { next.users fd with state := 0 }).Sound := by
          have located := @Sound.setSlot next readSound fd { next.users fd with state := 0 }
            (next.origins fd) fun isOpen => ⟨(readSound.user fd isOpen).1, rfl⟩
          exact ⟨located.nodup, located.data, located.user, located.armed_open⟩
        have setCustody : (next.setUser fd { next.users fd with state := 0 }).custody =
            state.custody := readCustody
        refine ⟨setSound.append config fd, ?_⟩
        simp only [Outcome.andThen, if_true, custody_append, setCustody]
        split
        case isTrue full =>
            exact .inr (.inr ⟨rfl, adjusted.readsOk (readsOk_of_readSlot read), sameQueue ▸ full⟩)
        case isFalse => exact .inl rfl
    | false =>
        simp only [Outcome.andThen, hasTimer]
        refine ⟨readSound.dealTimer (some timer) fd, .inr (.inl ?_)⟩
        exact (custody_dealTimer readSound stillOpen timer).trans (by rw [readCustody])
  · obtain ⟨⟨ret, next⟩, read, rfl⟩ := Option.map_eq_some_iff.mp dealt
    have readSound := sound.readSlot read
    have readCustody := custody_readSlot read
    have stillOpen : fd ∈ next.openFds := by
      rw [(timer_readSlot read).2.1]
      exact isOpen
    cases ret with
    | true =>
        have retimed := adjustSlot_retimed (next.append config fd) fd
        refine ⟨retimed.sound (readSound.append config fd), ?_⟩
        simp only [if_true]
        rw [retimed.custody, custody_append, readCustody, (timer_readSlot read).2.2]
        split
        case isTrue full => exact .inr (.inr ⟨rfl, readsOk_of_readSlot read, full⟩)
        case isFalse => exact .inl rfl
    | false =>
        simp only [hasTimer]
        refine ⟨readSound.dealTimer (some timer) fd, .inr (.inl ?_)⟩
        exact (custody_dealTimer readSound stillOpen timer).trans (by rw [readCustody])

/-- A call of `write` arms the descriptor again, or fails. -/
theorem custody_writeSlot {state : State} (sound : state.Sound) {fd : Fd}
    (isOpen : fd ∈ state.openFds) {results : List WritevResult} {ret : Bool} {outcome : Outcome}
    (written : state.writeSlot fd results = some (ret, outcome)) :
    outcome.state.Sound ∧ outcome.state.usersTimer = state.usersTimer ∧
      outcome.state.openFds = state.openFds ∧
      (outcome.state.custody = state.custody.rearm fd ∨
        ret = false ∧ outcome.state.custody = state.custody) := by
  simp only [writeSlot, Option.map_eq_some_iff, Prod.mk.injEq] at written
  obtain ⟨result, written, rfl, rfl⟩ := written
  obtain ⟨sockfd, idle, calls⟩ := HttpConn.write_cases written
  obtain ⟨located, zero⟩ := sound.user fd isOpen
  have stored := fun origins : Origins => @Sound.setSlot state sound fd result.conn origins
    fun _ => ⟨sockfd.trans located, idle.elim (fun same => same.trans zero) id⟩
  rcases calls with ⟨interest, calls⟩ | ⟨failed, calls⟩
  · simp only [Outcome.andThen, calls, fdCalls_modfd, located]
    have opened : ∀ users origins, fd ∈ ({ state with
        users := users
        origins := origins } : State).openFds := fun _ _ => isOpen
    refine ⟨(stored _).modfd fd interest, ?_, ?_, .inl ?_⟩
    · simp only [modfd]
      split <;> rfl
    · simp only [modfd]
      split <;> rfl
    · rw [custody_modfd (opened _ _)]
      rfl
  · simp only [Outcome.andThen, calls, fdCalls]
    exact ⟨stored _, trivial, trivial, .inr ⟨failed, rfl⟩⟩

/-- Closing a descriptor that was armed just before. -/
theorem close_rearm (custody : Custody Fd ConnId) (fd : Fd) :
    (custody.rearm fd).close fd = custody.close fd := by
  simp only [Custody.rearm, Custody.close, Custody.mk.injEq, true_and, and_true]
  funext other
  simp only [eq_iff_iff]
  tauto

/-- Behind a write the connection is armed again, or closed. -/
theorem custody_dealwithwrite {config : Config} {state : State} (sound : state.Sound) {fd : Fd}
    (isOpen : fd ∈ state.openFds) {results : List WritevResult} {outcome : Outcome}
    (dealt : state.dealwithwrite config fd results = some outcome) :
    outcome.state.Sound ∧
      (outcome.state.custody = state.custody.rearm fd ∨
        outcome.state.custody = state.custody.close fd) := by
  obtain ⟨timer, hasTimer⟩ := Option.ne_none_iff_exists'.mp (sound.data fd isOpen).2.2
  have adjusted := adjustSlot_retimed state fd
  have opened : fd ∈ (state.adjustSlot fd).state.openFds := by
    rw [adjusted.rest]
    exact isOpen
  -- Behind a failed write the descriptor is closed, armed or not.
  have closes : ∀ next : State, next.Sound → fd ∈ next.openFds →
      (next.custody = state.custody.rearm fd ∨ next.custody = state.custody) →
      (next.dealTimer (some timer) fd).state.custody = state.custody.close fd := by
    intro next nextSound nextOpen either
    rw [custody_dealTimer nextSound nextOpen]
    rcases either with rearmed | same
    · rw [rearmed, close_rearm]
    · rw [same]
  simp only [dealwithwrite, hasTimer] at dealt
  split at dealt
  · obtain ⟨⟨ret, written⟩, wrote, rfl⟩ := Option.map_eq_some_iff.mp dealt
    obtain ⟨writtenSound, _, sameOpen, places⟩ :=
      custody_writeSlot (adjusted.sound sound) opened wrote
    rw [adjusted.custody] at places
    cases ret with
    | true =>
        simp only [Outcome.andThen, if_true]
        exact ⟨writtenSound, .inl (places.resolve_right fun failed => by simp at failed)⟩
    | false =>
        refine ⟨writtenSound.dealTimer (some timer) fd, .inr ?_⟩
        exact closes written.state writtenSound (sameOpen ▸ opened) (places.imp_right And.right)
  · obtain ⟨⟨ret, written⟩, wrote, rfl⟩ := Option.map_eq_some_iff.mp dealt
    obtain ⟨writtenSound, _, sameOpen, places⟩ := custody_writeSlot sound isOpen wrote
    cases ret with
    | true =>
        have retimed := adjustSlot_retimed written.state fd
        simp only [Outcome.andThen, if_true]
        refine ⟨retimed.sound writtenSound, .inl ?_⟩
        rw [retimed.custody]
        exact places.resolve_right fun failed => by simp at failed
    | false =>
        refine ⟨writtenSound.dealTimer (some timer) fd, .inr ?_⟩
        exact closes written.state writtenSound (sameOpen ▸ isOpen) (places.imp_right And.right)

/-! ## Workers -/

/-- What a worker does with a task: nothing, when the slot is not marked as read; or it
stores the slot and makes the calls on descriptors, which are those of `process`. -/
theorem work_cases {config : Config} {state : State} {task : Task} {mysql : Option Nat} {env : Env}
    {outcome : Outcome} (worked : state.work config task mysql env = some outcome) :
    ((state.users task.fd).state ≠ 0 ∧ outcome = { state := state, effects := [] }) ∨
    ∃ conn origins calls, conn.state = (state.users task.fd).state ∧
      outcome = State.fdCalls task.conn { state with
        users := Function.update state.users task.fd conn
        origins := Function.update state.origins task.fd origins } calls ∧
      ((conn.sockfd = (state.users task.fd).sockfd ∧
          ∃ interest, calls = [.modfd (state.users task.fd).sockfd interest]) ∨
        HttpConn.Overflows { state.users task.fd with mysql := mysql } env ∧
          calls = [.closeConn (state.users task.fd).sockfd, .modfd (-1) .epollout]) := by
  simp only [work] at worked
  split at worked
  case isTrue skips => exact .inl ⟨skips.2, (Option.some.inj worked).symm⟩
  case isFalse =>
      split at worked
      case _ reply finished _ done =>
          cases worked
          obtain ⟨sameState, either⟩ := HttpConn.process_cases done
          refine .inr ⟨{ finished.conn with mysql := none }, _, finished.fdCalls, sameState,
            rfl, ?_⟩
          rcases either with ⟨sockfd, interest, calls⟩ | ⟨overflows, _, calls⟩
          · exact .inl ⟨sockfd, interest, calls⟩
          · exact .inr ⟨overflows, calls⟩
      · contradiction

/-- The calls of a `process` whose response does not fit. -/
theorem fdCalls_close (state : State) (conn : ConnId) (fd : Fd) :
    state.fdCalls conn [.closeConn fd, .modfd (-1) .epollout] = {
      state := { state with
        openFds := state.openFds.erase fd
        armed := Function.update state.armed fd none
        userCount := state.userCount - 1 }
      effects := [.close conn (state.holder fd)] } := by
  simp only [fdCalls, fdCall, close_of_nat, Outcome.andThen, modfd_negative, List.append_nil]

/-- A worker arms the descriptor of its task again, or closes it. -/
theorem custody_work {config : Config} {state : State} (sound : state.Sound) {task : Task}
    (isOpen : task.fd ∈ state.openFds) {mysql : Option Nat} {env : Env} {outcome : Outcome}
    (worked : state.work config task mysql env = some outcome) :
    outcome.state.Sound ∧
      (outcome.state.custody = state.custody.rearm task.fd ∨
        outcome.state.custody = state.custody.close task.fd ∧
          HttpConn.Overflows { state.users task.fd with mysql := mysql } env) := by
  obtain ⟨sockfd, idle⟩ := sound.user task.fd isOpen
  obtain ⟨conn, origins, calls, sameState, rfl, either⟩ :=
    (work_cases worked).resolve_left fun skipped => skipped.1 idle
  have zero : conn.state = 0 := sameState.trans idle
  rw [sockfd] at either
  rcases either with ⟨located, interest, rfl⟩ | ⟨overflows, rfl⟩
  · have stored := @Sound.setSlot state sound task.fd conn origins fun _ => ⟨located, zero⟩
    rw [fdCalls_modfd]
    refine ⟨stored.modfd task.fd interest, .inl ?_⟩
    have opened : task.fd ∈ ({ state with
        users := Function.update state.users task.fd conn
        origins := Function.update state.origins task.fd origins } : State).openFds := isOpen
    rw [custody_modfd opened]
    rfl
  · rw [fdCalls_close]
    have closed := sound.close task.fd task.conn
    rw [close_of_nat] at closed
    have absent : task.fd ∉ state.openFds.erase task.fd :=
      fun member => ((sound.nodup.mem_erase_iff).mp member).1 rfl
    have stored := @Sound.setSlot _ closed task.fd conn origins fun member => absurd member absent
    exact ⟨⟨stored.nodup, stored.data, stored.user, stored.armed_open⟩,
      .inr ⟨custody_close state task.fd, overflows⟩⟩

/-! ## Ticks -/

/-- The descriptors a tick closes. -/
def expiring (state : State) : List Fd :=
  state.timers.wheel.tick.fired.filterMap fun timer =>
    let sockfd := (state.usersTimer (state.timers.wheel.timers timer).userData).sockfd
    if 0 ≤ sockfd then some sockfd.toNat else none

/-- `cb_func` closes the descriptor its `client_data` names. -/
theorem custody_cbFunc (state : State) (data : Fd) :
    (state.cbFunc data).state.custody =
      if 0 ≤ (state.usersTimer data).sockfd then
        state.custody.close (state.usersTimer data).sockfd.toNat
      else
        state.custody := by
  simp only [cbFunc, Outcome.andThen, State.close]
  split
  · exact custody_close state _
  · rfl

/-- The callbacks close the descriptors of their timers one after the other. -/
theorem custody_fireTimers (state : State) (timers : List Addr) :
    (state.fireTimers timers).state.custody =
      state.custody.closeAll (timers.filterMap fun timer =>
        let sockfd := (state.usersTimer (state.timers.wheel.timers timer).userData).sockfd
        if 0 ≤ sockfd then some sockfd.toNat else none) := by
  induction timers generalizing state with
  | nil => rfl
  | cons timer timers ih =>
      have first := custody_cbFunc state (state.timers.wheel.timers timer).userData
      have kept : ∀ data, (state.cbFunc data).state.usersTimer = state.usersTimer ∧
          (state.cbFunc data).state.timers = state.timers := by
        intro data
        simp only [cbFunc, Outcome.andThen, State.close]
        split <;> exact ⟨rfl, rfl⟩
      simp only [fireTimers, Outcome.andThen]
      rw [ih]
      simp only [(kept _).1, (kept _).2, Timers.free, List.filterMap_cons]
      by_cases nonneg :
          0 ≤ (state.usersTimer (state.timers.wheel.timers timer).userData).sockfd
      · rw [if_pos nonneg] at first
        simp only [if_pos nonneg, Custody.closeAll, List.foldl_cons]
        rw [← first]
        rfl
      · rw [if_neg nonneg] at first
        simp only [if_neg nonneg]
        rw [← first]
        rfl

theorem custody_timerHandler {state : State} (wf : state.timers.wheel.WF) :
    state.timerHandler.state.custody = state.custody.closeAll state.expiring := by
  have kept : ∀ timer, (state.timers.ticked.wheel.timers timer).userData =
      (state.timers.wheel.timers timer).userData := by
    intro timer
    simp only [Timers.ticked, TimeWheel.tick, TimeWheel.tickList_timers _ _ (wf.nodup _)]
    split <;> rfl
  simp only [timerHandler]
  rw [custody_fireTimers]
  simp only [kept]
  rfl

theorem Sound.timerHandler {state : State} (sound : state.Sound) :
    state.timerHandler.state.Sound := by
  have ticked : ({ state with timers := state.timers.ticked } : State).Sound :=
    ⟨sound.nodup, sound.data, sound.user, sound.armed_open⟩
  exact ticked.fireTimers _

/-! ## New connections -/

/-- `WebServer::timer` arms the new descriptor. -/
theorem custody_timer (config : Config) (state : State) (fd : Fd) :
    (state.timer config fd).custody = state.custody.accept fd state.nextConn := by
  obtain ⟨timer, timers, _, added⟩ := addTimer_cases { state with
    users := Function.update state.users fd
      ((state.users fd).initFor fd config.root config.connTrigMode)
    openFds := fd :: state.openFds
    armed := Function.update state.armed fd (some .epollin)
    userCount := state.userCount + 1
    owner := Function.update state.owner fd state.nextConn
    nextConn := state.nextConn + 1
    origins := Function.update state.origins fd
      { state.origins fd with request := .nothing, response := .nothing, csv := false } } fd
  simp only [State.timer, added, State.custody, Custody.accept, Custody.mk.injEq, true_and,
    and_true]
  funext other
  by_cases same : other = fd
  · simp [same]
  · simp [same]

theorem Sound.timer {state : State} (sound : state.Sound) (config : Config) {fd : Fd}
    (fresh : fd ∉ state.openFds) : (state.timer config fd).Sound := by
  obtain ⟨timer, timers, _, added⟩ := addTimer_cases { state with
    users := Function.update state.users fd
      ((state.users fd).initFor fd config.root config.connTrigMode)
    openFds := fd :: state.openFds
    armed := Function.update state.armed fd (some .epollin)
    userCount := state.userCount + 1
    owner := Function.update state.owner fd state.nextConn
    nextConn := state.nextConn + 1
    origins := Function.update state.origins fd
      { state.origins fd with request := .nothing, response := .nothing, csv := false } } fd
  simp only [State.timer, added]
  refine ⟨List.nodup_cons.mpr ⟨fresh, sound.nodup⟩, ?_, ?_, ?_⟩
  · intro other isOpen
    by_cases same : other = fd
    · simp [same]
    · simp only [Function.update_of_ne same]
      exact sound.data other ((List.mem_cons.mp isOpen).resolve_left same)
  · intro other isOpen
    by_cases same : other = fd
    · simp [same, HttpConn.initFor, HttpConn.init]
    · simp only [Function.update_of_ne same]
      exact sound.user other ((List.mem_cons.mp isOpen).resolve_left same)
  · intro other armed
    by_cases same : other = fd
    · exact same ▸ List.mem_cons_self
    · simp only [Function.update_of_ne same] at armed
      exact List.mem_cons_of_mem _ (sound.armed_open other armed)

end State

end TimeGANWebServer.Server
