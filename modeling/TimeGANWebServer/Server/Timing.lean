import TimeGANWebServer.Server.Frames
import TimeGANWebServer.Timer.Schedule

/-!
# Timers of open connections

An open descriptor's `client_data` points to a node in the wheel whose user data is
that `client_data`.  In reactor mode the pointer read before `adjust_timer` stays
right, since the pool gives the freed node to the next `add_timer`.
-/

namespace TimeGANWebServer.Server

open TimeGANWebServer.Http TimeGANWebServer.Support TimeGANWebServer.Timer

/-- A pointer to a timer is used while it is the slot's node, and a node is freed while it
is in use. -/
def Effect.TimerOk : Effect → Prop
  | .useTimer _ _ current => current = true
  | .freeTimer _ allocated => allocated = true
  | _ => True

/-- What a `close` was meant for, and what it hit. -/
def Effect.closing : Effect → Option (ConnId × Option ConnId)
  | .close intended hit => some (intended, hit)
  | _ => none

/-- The closes among some effects. -/
def closings (effects : List Effect) : List (ConnId × Option ConnId) :=
  effects.filterMap Effect.closing

@[simp] theorem closings_nil : closings [] = [] := rfl

theorem closings_append (first second : List Effect) :
    closings (first ++ second) = closings first ++ closings second :=
  List.filterMap_append

namespace State

/-- The `client_data` of a descriptor points to its node in the wheel. -/
def Noded (state : State) (fd : Fd) (timer : Addr) : Prop :=
  (state.usersTimer fd).timer = some timer ∧ state.timers.dataOf timer = some fd

/-- The uses of a slot's node are right. -/
theorem useTimer_ok {state : State} {fd : Fd} {timer : Addr}
    (found : state.timers.dataOf timer = some fd) : (state.useTimer fd (some timer)).TimerOk := by
  simp [useTimer, Effect.TimerOk, found]

theorem freeTimer_ok {timers : Timers} {timer : Addr} (allocated : timers.pool.Allocated timer) :
    (Effect.freeTimer timer (timers.pool.Allocated timer)).TimerOk := by
  simpa [Effect.TimerOk] using allocated

/-- `adjust_timer` gives a slot its node back: the pool returns the address just freed. -/
theorem adjustSlot_of_noded {state : State} (wf : state.timers.WF) {fd : Fd} {timer : Addr}
    (sockfd : (state.usersTimer fd).sockfd = fd) (noded : state.Noded fd timer) :
    ∃ timers effects, state.adjustSlot fd = {
        state := { state with timers := timers }
        effects := effects } ∧
      timers.WF ∧ (∀ other, timers.dataOf other = state.timers.dataOf other) ∧
        (∀ effect ∈ effects, effect.TimerOk) ∧ closings effects = [] ∧
        ∀ other, timers.wheel.countdown other =
          if other = timer then some 16 else state.timers.wheel.countdown other := by
  obtain ⟨pointer, found⟩ := noded
  obtain ⟨linked, data⟩ := Timers.dataOf_eq_some_iff.mp found
  obtain ⟨removedWF, removed⟩ := wf.remove found
  obtain ⟨newTimer, timers, added, timersWF, _, dataOf⟩ :=
    removedWF.add (by decide : (0 : Int) ≤ 3 * timeslot) fd
  have same : newTimer = timer := Timers.add_remove added
  subst same
  have unchanged : Function.update state.usersTimer fd
      { state.usersTimer fd with timer := some newTimer } = state.usersTimer := by
    rw [← pointer]
    exact Function.update_eq_self fd state.usersTimer
  refine ⟨timers, [state.useTimer fd (some newTimer), state.useTimer fd (some newTimer),
    .freeTimer newTimer (state.timers.pool.Allocated newTimer)], ?_, timersWF, ?_, ?_, rfl, ?_⟩
  · have readded : (state.delTimer fd newTimer).state.addTimer fd =
        (some newTimer, { state with timers := timers }) := by
      simp only [addTimer, delTimer, added]
    have index : (state.usersTimer fd).sockfd.toNat = fd := by
      rw [sockfd, Int.toNat_natCast]
    simp only [adjustSlot, pointer, adjustTimer, Outcome.andThen, data]
    rw [readded]
    simp only [index, unchanged, delTimer, List.append_nil, List.singleton_append]
  · intro other
    rw [dataOf, removed]
    by_cases same : other = newTimer
    · rw [if_pos same, same, found]
    · rw [if_neg same, if_neg same]
  · intro effect member
    simp only [List.mem_cons, List.not_mem_nil, or_false] at member
    rcases member with rfl | rfl | rfl
    · exact useTimer_ok found
    · exact useTimer_ok found
    · exact freeTimer_ok (wf.allocated newTimer linked)
  · intro other
    rw [Timers.countdown_add added, wf.countdown_remove]
    by_cases same : other = newTimer
    · rw [if_pos same, same]
      exact Function.update_self _ _ _
    · rw [if_neg same]
      exact (Function.update_of_ne same _ _).trans (Function.update_of_ne same _ _)

/-- `deal_timer` closes an open descriptor and takes its node out of the wheel. -/
theorem dealTimer_of_noded {state : State} (sound : state.Sound) (wf : state.timers.WF) {fd : Fd}
    {timer : Addr} (isOpen : fd ∈ state.openFds) (noded : state.Noded fd timer) :
    ∃ effects, state.dealTimer (some timer) fd = {
        state := { state with
          openFds := state.openFds.erase fd
          armed := Function.update state.armed fd none
          userCount := state.userCount - 1
          timers := state.timers.remove timer }
        effects := effects } ∧
      (∀ effect ∈ effects, effect.TimerOk) ∧
        closings effects = [(state.owner fd, some (state.owner fd))] := by
  obtain ⟨pointer, found⟩ := noded
  obtain ⟨linked, data⟩ := Timers.dataOf_eq_some_iff.mp found
  refine ⟨[state.useTimer fd (some timer), .close (state.owner fd) (some (state.owner fd)),
    state.useTimer fd (some timer), .freeTimer timer (state.timers.pool.Allocated timer)],
    ?_, ?_, rfl⟩
  · simp only [dealTimer, delTimer, Outcome.andThen, cbFunc_of_open sound isOpen]
    rfl
  · intro effect member
    simp only [List.mem_cons, List.not_mem_nil, or_false] at member
    rcases member with rfl | rfl | rfl | rfl
    · exact useTimer_ok found
    · trivial
    · exact useTimer_ok found
    · exact freeTimer_ok (wf.allocated timer linked)

/-! ## Regular states -/

/-- Every open descriptor has a node of its own in the wheel, and the main loop handles
events of open descriptors only. -/
structure Regular (state : State) : Prop where
  sound : state.Sound
  wf : state.timers.WF
  noded : ∀ fd ∈ state.openFds, ∃ timer, state.Noded fd timer
  pending_open : ∀ event ∈ state.pending, event.1 ∈ state.openFds
  pending_nodup : (state.pending.map Prod.fst).Nodup

/-- Every node in the wheel is the node of an open descriptor. -/
def Owned (state : State) : Prop :=
  ∀ timer fd, state.timers.dataOf timer = some fd →
    fd ∈ state.openFds ∧ (state.usersTimer fd).timer = some timer

theorem start_regular (users : Fd → HttpConn) (usersTimer : Fd → ClientData)
    (nodes : Addr → UtilTimer) : (start users usersTimer nodes).Regular where
  sound := start_sound users usersTimer nodes
  wf := Timers.start_wf nodes
  noded := by simp [start]
  pending_open := by simp [start]
  pending_nodup := List.nodup_nil

theorem start_owned (users : Fd → HttpConn) (usersTimer : Fd → ClientData)
    (nodes : Addr → UtilTimer) : (start users usersTimer nodes).Owned := by
  intro timer fd found
  simp [start] at found

/-- The connections closed on the way to an outcome are those that are no longer open,
each once; every close hits the connection it is meant for, and is counted. -/
structure Accounts (before : State) (outcome : Outcome) : Prop where
  owner : outcome.state.owner = before.owner
  nextConn : outcome.state.nextConn = before.nextConn
  conns : (before.openFds.map before.owner).Perm
    ((closings outcome.effects).map Prod.fst ++ outcome.state.openFds.map before.owner)
  count : outcome.state.userCount - outcome.state.openFds.length =
    before.userCount - before.openFds.length
  hits : ∀ closing ∈ closings outcome.effects, closing.2 = some closing.1
  owned : outcome.state.Owned

/-- An outcome that is regular, uses timers rightly, and accounts for what it closes. -/
structure Proceeds (before : State) (outcome : Outcome) : Prop where
  regular : outcome.state.Regular
  timers : ∀ effect ∈ outcome.effects, effect.TimerOk
  accounts : before.Owned → before.Accounts outcome

theorem Accounts.andThen {before : State} {outcome : Outcome} {next : State → Outcome}
    (first : before.Accounts outcome) (second : outcome.state.Accounts (next outcome.state)) :
    before.Accounts (outcome.andThen next) where
  owner := second.owner.trans first.owner
  nextConn := second.nextConn.trans first.nextConn
  conns := by
    have later := second.conns
    rw [first.owner] at later
    simp only [Outcome.andThen, closings_append, List.map_append, List.append_assoc]
    exact first.conns.trans (later.append_left _)
  count := second.count.trans first.count
  hits := by
    intro closing member
    simp only [Outcome.andThen, closings_append, List.mem_append] at member
    exact member.elim (first.hits closing) (second.hits closing)
  owned := second.owned

theorem Proceeds.andThen {before : State} {outcome : Outcome} {next : State → Outcome}
    (first : before.Proceeds outcome) (second : outcome.state.Proceeds (next outcome.state)) :
    before.Proceeds (outcome.andThen next) where
  regular := second.regular
  timers effect member :=
    (List.mem_append.mp member).elim (first.timers effect) (second.timers effect)
  accounts owned :=
    have left := first.accounts owned
    left.andThen (second.accounts left.owned)

/-- A change without effects, and what follows it. -/
theorem Proceeds.trans {before middle : State} {outcome : Outcome}
    (first : before.Proceeds { state := middle, effects := [] })
    (second : middle.Proceeds outcome) : before.Proceeds outcome :=
  @Proceeds.andThen before _ (fun _ => outcome) first second

/-- An outcome that differs in slots, tasks and armed descriptors only. -/
theorem Regular.same {before after : State} (regular : before.Regular) (sound : after.Sound)
    (frame : after = { before with
      users := after.users
      origins := after.origins
      queue := after.queue
      armed := after.armed })
    {effects : List Effect}
      (sends : ∀ effect ∈ effects, ∃ conn source, effect = .send conn source) :
    before.Proceeds { state := after, effects := effects } := by
  have quiet : closings effects = [] := by
    refine List.filterMap_eq_nil_iff.mpr fun effect member => ?_
    obtain ⟨conn, source, rfl⟩ := sends effect member
    rfl
  rw [frame] at sound ⊢
  refine ⟨⟨sound, regular.wf, regular.noded, regular.pending_open, regular.pending_nodup⟩, ?_, ?_⟩
  · intro effect member
    obtain ⟨conn, source, rfl⟩ := sends effect member
    trivial
  · intro owned
    exact ⟨rfl, rfl, by simp [quiet], rfl, by simp [quiet], owned⟩

theorem Regular.refl {state : State} (regular : state.Regular) :
    state.Proceeds { state := state, effects := [] } :=
  regular.same regular.sound rfl (fun _ member => absurd member List.not_mem_nil)

/-! ## The main loop -/

theorem Regular.adjustSlot {state : State} (regular : state.Regular) {fd : Fd}
    (isOpen : fd ∈ state.openFds) : state.Proceeds (state.adjustSlot fd) := by
  obtain ⟨timer, noded⟩ := regular.noded fd isOpen
  obtain ⟨timers, effects, adjusted, wf, dataOf, timersOk, quiet, _⟩ :=
    adjustSlot_of_noded regular.wf (regular.sound.data fd isOpen).1 noded
  rw [adjusted]
  refine ⟨⟨?_, wf, ?_, regular.pending_open, regular.pending_nodup⟩, timersOk, ?_⟩
  · exact ⟨regular.sound.nodup, regular.sound.data, regular.sound.user, regular.sound.armed_open⟩
  · intro other otherOpen
    obtain ⟨node, pointer, found⟩ := regular.noded other otherOpen
    exact ⟨node, pointer, (dataOf node).trans found⟩
  · intro owned
    refine ⟨rfl, rfl, by simp [quiet], rfl, by simp [quiet], ?_⟩
    intro node other found
    exact owned node other ((dataOf node).symm.trans found)

theorem Regular.dealTimer {state : State} (regular : state.Regular) {fd : Fd}
    (isOpen : fd ∈ state.openFds) (handled : fd ∉ state.pending.map Prod.fst) :
    state.Proceeds (state.dealTimer (state.usersTimer fd).timer fd) := by
  obtain ⟨timer, noded⟩ := regular.noded fd isOpen
  obtain ⟨effects, dealt, timersOk, closed⟩ :=
    dealTimer_of_noded regular.sound regular.wf isOpen noded
  obtain ⟨wf, dataOf⟩ := regular.wf.remove noded.2
  have sound := regular.sound.dealTimer (some timer) fd
  have erased : ∀ {other}, other ∈ state.openFds.erase fd ↔ other ≠ fd ∧ other ∈ state.openFds :=
    regular.sound.nodup.mem_erase_iff
  rw [noded.1, dealt]
  rw [dealt] at sound
  refine ⟨⟨sound, wf, ?_, ?_, regular.pending_nodup⟩, timersOk, ?_⟩
  · intro other member
    obtain ⟨different, otherOpen⟩ := erased.mp member
    obtain ⟨node, pointer, found⟩ := regular.noded other otherOpen
    refine ⟨node, pointer, (dataOf node).trans (if_neg ?_ |>.trans found)⟩
    -- The node removed was for this descriptor, so it is not the other one's.
    rintro rfl
    exact different (Option.some.inj (found.symm.trans noded.2))
  · intro event member
    refine erased.mpr ⟨?_, regular.pending_open event member⟩
    rintro rfl
    exact handled (List.mem_map_of_mem member)
  · intro owned
    refine ⟨rfl, rfl, ?_, ?_, by simp [closed], ?_⟩
    · simp only [closed, List.map_cons, List.map_nil, List.singleton_append]
      rw [← List.map_cons]
      exact (List.perm_cons_erase isOpen).map state.owner
    · have length := List.length_erase_of_mem isOpen
      have positive := List.length_pos_of_mem isOpen
      simp only [length]
      omega
    · intro node other found
      rw [dataOf] at found
      split at found
      · contradiction
      case isFalse different =>
          obtain ⟨otherOpen, pointer⟩ := owned node other found
          refine ⟨erased.mpr ⟨?_, otherOpen⟩, pointer⟩
          rintro rfl
          exact different (Option.some.inj (pointer.symm.trans noded.1))

theorem Regular.readSlot {state next : State} (regular : state.Regular) {fd : Fd}
    {results : List RecvResult} {ret : Bool}
    (read : state.readSlot fd results = some (ret, next)) :
    state.Proceeds { state := next, effects := [] } := by
  have sound := regular.sound.readSlot read
  obtain ⟨request, origins, rfl⟩ := readSlot_cases read
  exact regular.same sound rfl (fun _ member => absurd member List.not_mem_nil)

theorem Regular.append {state : State} (regular : state.Regular) (config : Config) (fd : Fd) :
    state.Proceeds { state := state.append config fd, effects := [] } := by
  refine regular.same (regular.sound.append config fd) ?_
    (fun _ member => absurd member List.not_mem_nil)
  simp only [State.append]
  split <;> rfl

/-- Storing a slot that names the same descriptor. -/
theorem Regular.setUser {state : State} (regular : state.Regular) {fd : Fd} {conn : HttpConn}
    (located : fd ∈ state.openFds → conn.sockfd = fd ∧ conn.state = 0) :
    state.Proceeds { state := state.setUser fd conn, effects := [] } := by
  have stored := regular.sound.setSlot (state.origins fd) located
  have sound : (state.setUser fd conn).Sound :=
    ⟨stored.nodup, stored.data, stored.user, stored.armed_open⟩
  exact regular.same sound rfl (fun _ member => absurd member List.not_mem_nil)

/-- `adjust_timer` moves a slot's timer in the wheel, and changes nothing else. -/
theorem frame_adjustSlot {state : State} (regular : state.Regular) {fd : Fd}
    (isOpen : fd ∈ state.openFds) :
    ∃ timers effects,
      state.adjustSlot fd = { state := { state with timers := timers }, effects := effects } := by
  obtain ⟨timer, noded⟩ := regular.noded fd isOpen
  obtain ⟨timers, effects, adjusted, _⟩ :=
    adjustSlot_of_noded regular.wf (regular.sound.data fd isOpen).1 noded
  exact ⟨timers, effects, adjusted⟩

theorem frame_readSlot {state next : State} {fd : Fd} {results : List RecvResult} {ret : Bool}
    (read : state.readSlot fd results = some (ret, next)) :
    next.usersTimer = state.usersTimer ∧ next.openFds = state.openFds ∧
      next.pending = state.pending := by
  obtain ⟨request, origins, rfl⟩ := readSlot_cases read
  exact ⟨rfl, rfl, rfl⟩

theorem openFds_append (config : Config) (state : State) (fd : Fd) :
    (state.append config fd).openFds = state.openFds := by
  simp only [State.append]
  split <;> rfl

theorem Regular.dealwithread {config : Config} {state : State} (regular : state.Regular) {fd : Fd}
    (isOpen : fd ∈ state.openFds) (handled : fd ∉ state.pending.map Prod.fst)
    {results : List RecvResult} {outcome : Outcome}
    (dealt : state.dealwithread config fd results = some outcome) : state.Proceeds outcome := by
  simp only [State.dealwithread] at dealt
  split at dealt
  · have adjusted := regular.adjustSlot isOpen
    obtain ⟨timers, effects, frame⟩ := frame_adjustSlot regular isOpen
    obtain ⟨⟨ret, next⟩, read, rfl⟩ := Option.map_eq_some_iff.mp dealt
    have readOk := adjusted.regular.readSlot read
    rw [frame] at read
    obtain ⟨pointers, opens, pending⟩ := frame_readSlot read
    refine adjusted.andThen (readOk.trans ?_)
    cases ret with
    | true =>
        have set := @Regular.setUser next readOk.regular fd { next.users fd with state := 0 }
          fun nowOpen => ⟨(readOk.regular.sound.user fd nowOpen).1, rfl⟩
        exact set.trans (set.regular.append config fd)
    | false =>
        -- The pointer read before `adjust_timer` is still the slot's.
        have dealt := readOk.regular.dealTimer (opens ▸ isOpen) (pending ▸ handled)
        rwa [pointers] at dealt
  · obtain ⟨⟨ret, next⟩, read, rfl⟩ := Option.map_eq_some_iff.mp dealt
    have readOk := regular.readSlot read
    obtain ⟨pointers, opens, pending⟩ := frame_readSlot read
    refine readOk.trans ?_
    cases ret with
    | true =>
        have appended := readOk.regular.append config fd
        refine appended.trans (appended.regular.adjustSlot ?_)
        rw [openFds_append]
        exact opens ▸ isOpen
    | false =>
        have dealt := readOk.regular.dealTimer (opens ▸ isOpen) (pending ▸ handled)
        rwa [pointers] at dealt

/-- `write` on a slot sends bytes, and arms its descriptor again or fails. -/
theorem frame_writeSlot {state : State} {fd : Fd} {results : List WritevResult} {ret : Bool}
    {outcome : Outcome} (written : state.writeSlot fd results = some (ret, outcome)) :
    (∀ effect ∈ outcome.effects, ∃ conn source, effect = .send conn source) ∧
      outcome.state = { state with
        users := outcome.state.users
        origins := outcome.state.origins
        armed := outcome.state.armed } := by
  simp only [writeSlot, Option.map_eq_some_iff, Prod.mk.injEq] at written
  obtain ⟨result, written, rfl, rfl⟩ := written
  obtain ⟨_, _, calls⟩ := HttpConn.write_cases written
  rcases calls with ⟨interest, calls⟩ | ⟨_, calls⟩
  · simp only [Outcome.andThen, calls, fdCalls_modfd, List.append_nil, modfd]
    constructor
    · split <;> simp
    · split <;> rfl
  · simp only [Outcome.andThen, calls, fdCalls, List.append_nil]
    exact ⟨by split <;> simp, trivial⟩

theorem Regular.writeSlot {state : State} (regular : state.Regular) {fd : Fd}
    (isOpen : fd ∈ state.openFds) {results : List WritevResult} {ret : Bool} {outcome : Outcome}
    (written : state.writeSlot fd results = some (ret, outcome)) : state.Proceeds outcome := by
  obtain ⟨sends, frame⟩ := frame_writeSlot written
  obtain ⟨sound, _⟩ := custody_writeSlot regular.sound isOpen written
  exact regular.same sound (by rw [frame]) sends

theorem Regular.dealwithwrite {config : Config} {state : State} (regular : state.Regular) {fd : Fd}
    (isOpen : fd ∈ state.openFds) (handled : fd ∉ state.pending.map Prod.fst)
    {results : List WritevResult} {outcome : Outcome}
    (dealt : state.dealwithwrite config fd results = some outcome) : state.Proceeds outcome := by
  have adjusted := regular.adjustSlot isOpen
  simp only [State.dealwithwrite] at dealt
  split at dealt
  · obtain ⟨timers, effects, frame⟩ := frame_adjustSlot regular isOpen
    obtain ⟨⟨ret, next⟩, wrote, rfl⟩ := Option.map_eq_some_iff.mp dealt
    have opened : fd ∈ (state.adjustSlot fd).state.openFds := by
      rw [frame]
      exact isOpen
    have written := adjusted.regular.writeSlot opened wrote
    obtain ⟨_, writeFrame⟩ := frame_writeSlot wrote
    rw [frame] at writeFrame
    refine (adjusted.andThen written).andThen ?_
    cases ret with
    | true => exact written.regular.refl
    | false =>
        have dealt := written.regular.dealTimer (by rw [writeFrame]; exact isOpen)
          (by rw [writeFrame]; exact handled)
        have pointers : next.state.usersTimer = state.usersTimer := by
          rw [writeFrame]
        rwa [pointers] at dealt
  · obtain ⟨⟨ret, next⟩, wrote, rfl⟩ := Option.map_eq_some_iff.mp dealt
    have written := regular.writeSlot isOpen wrote
    obtain ⟨_, writeFrame⟩ := frame_writeSlot wrote
    have opened : fd ∈ next.state.openFds := by
      rw [writeFrame]
      exact isOpen
    refine written.andThen ?_
    cases ret with
    | true => exact written.regular.adjustSlot opened
    | false =>
        have dealt := written.regular.dealTimer opened (by rw [writeFrame]; exact handled)
        have pointers : next.state.usersTimer = state.usersTimer := by
          rw [writeFrame]
        rwa [pointers] at dealt

/-! ## Workers -/

/-- A worker whose response fits, or that does not answer. -/
theorem Regular.work {config : Config} {state : State} (regular : state.Regular) {task : Task}
    {mysql : Option Nat} {env : Env} {outcome : Outcome}
    (fits : ¬HttpConn.Overflows { state.users task.fd with mysql := mysql } env)
    (worked : state.work config task mysql env = some outcome) : state.Proceeds outcome := by
  rcases work_cases worked with ⟨_, rfl⟩ | ⟨conn, origins, calls, sameState, rfl, either⟩
  · exact regular.refl
  · obtain ⟨sameSockfd, interest, rfl⟩ :=
      either.resolve_right fun overflows => fits overflows.1
    rw [fdCalls_modfd]
    have stored := @Sound.setSlot state regular.sound task.fd conn origins fun isOpen =>
      have ⟨sockfd, zero⟩ := regular.sound.user task.fd isOpen
      ⟨sameSockfd.trans sockfd, sameState.trans zero⟩
    refine regular.same (stored.modfd _ interest) ?_
      (fun _ member => absurd member List.not_mem_nil)
    simp only [State.modfd]
    split <;> rfl

/-- A worker whose task is for an open descriptor that is not reported. -/
theorem Regular.work_of_open {config : Config} {state : State} (regular : state.Regular)
    {task : Task} (isOpen : task.fd ∈ state.openFds)
    (handled : task.fd ∉ state.pending.map Prod.fst) {mysql : Option Nat} {env : Env}
    {outcome : Outcome} (worked : state.work config task mysql env = some outcome) :
    outcome.state.Regular := by
  have sound := (custody_work regular.sound isOpen worked).1
  by_cases overflows : HttpConn.Overflows { state.users task.fd with mysql := mysql } env
  · rcases work_cases worked with ⟨_, rfl⟩ | ⟨conn, origins, calls, _, rfl, either⟩
    · exact regular
    · obtain ⟨sockfd, _⟩ := regular.sound.user task.fd isOpen
      rw [sockfd] at either
      rcases either with ⟨_, interest, rfl⟩ | ⟨_, rfl⟩
      · rw [fdCalls_modfd] at sound ⊢
        refine (regular.same sound ?_ (fun _ member => absurd member List.not_mem_nil)).regular
        simp only [State.modfd]
        split <;> rfl
      · rw [fdCalls_close] at sound ⊢
        refine ⟨sound, regular.wf, fun other member => ?_, fun event member => ?_,
          regular.pending_nodup⟩
        · exact regular.noded other (List.mem_of_mem_erase member)
        · refine (regular.sound.nodup.mem_erase_iff).mpr
            ⟨?_, regular.pending_open event member⟩
          intro same
          exact handled (same ▸ List.mem_map_of_mem member)
  · exact (regular.work overflows worked).regular

/-! ## Ticks -/

/-- The states between the callbacks of a tick: some timers are still to fire, and are no
longer in the wheel. -/
structure Firing (state : State) (timers : List Addr) : Prop where
  sound : state.Sound
  wf : state.timers.WF
  idle : state.pending = []
  nodup : timers.Nodup
  fired : ∀ timer ∈ timers,
    ¬state.timers.wheel.Linked timer ∧ state.timers.pool.Allocated timer
  noded : ∀ fd ∈ state.openFds, ∃ timer, (state.usersTimer fd).timer = some timer ∧
    (state.timers.dataOf timer = some fd ∨
      timer ∈ timers ∧ (state.timers.wheel.timers timer).userData = fd)

/-- Every timer still to fire is that of an open descriptor. -/
def FiringOwned (state : State) (timers : List Addr) : Prop :=
  ∀ timer ∈ timers, (state.timers.wheel.timers timer).userData ∈ state.openFds ∧
    (state.usersTimer (state.timers.wheel.timers timer).userData).timer = some timer

/-- `cb_func` leaves the descriptor of its `client_data` closed, and opens none. -/
theorem frame_cbFunc {state : State} (sound : state.Sound) (data : Fd) :
    ∃ opens armed intended hit,
      state.cbFunc data = {
        state := { state with
          openFds := opens
          armed := armed
          userCount := state.userCount - 1 }
        effects := [.close intended hit] } ∧
      ∀ fd ∈ opens, fd ∈ state.openFds ∧ fd ≠ data := by
  have closes : ∀ fd ∈ state.openFds, fd = data → (state.usersTimer data).sockfd = fd :=
    fun fd isOpen same => same ▸ (sound.data fd isOpen).1
  simp only [cbFunc, Outcome.andThen, State.close]
  split
  case isTrue nonneg =>
      refine ⟨_, _, _, _, rfl, fun fd member => ?_⟩
      obtain ⟨different, isOpen⟩ := (sound.nodup.mem_erase_iff).mp member
      refine ⟨isOpen, fun same => different ?_⟩
      rw [closes fd isOpen same, Int.toNat_natCast]
  case isFalse negative =>
      refine ⟨_, _, _, _, rfl, fun fd isOpen => ⟨isOpen, fun same => negative ?_⟩⟩
      rw [closes fd isOpen same]
      exact Int.natCast_nonneg fd

/-- The callback of a timer, and the deletion of its node. -/
def fire (state : State) (timer : Addr) : Outcome :=
  (state.cbFunc (state.timers.wheel.timers timer).userData).andThen fun state =>
    { state := { state with timers := state.timers.free timer }
      effects := [.freeTimer timer (state.timers.pool.Allocated timer)] }

theorem Firing.fire {state : State} {timer : Addr} {timers : List Addr}
    (firing : state.Firing (timer :: timers)) :
    (state.fire timer).state.Firing timers ∧
      ∀ effect ∈ (state.fire timer).effects, effect.TimerOk := by
  obtain ⟨_, nodup⟩ := List.nodup_cons.mp firing.nodup
  obtain ⟨unlinked, allocated⟩ := firing.fired timer List.mem_cons_self
  have different : ∀ other ∈ timers, other ≠ timer := by
    rintro other member rfl
    exact (List.nodup_cons.mp firing.nodup).1 member
  obtain ⟨opens, armed, intended, hit, called, closes⟩ :=
    frame_cbFunc firing.sound (state.timers.wheel.timers timer).userData
  have sound := firing.sound.cbFunc (state.timers.wheel.timers timer).userData
  simp only [State.fire, called, Outcome.andThen] at sound ⊢
  constructor
  · refine ⟨⟨sound.nodup, sound.data, sound.user, sound.armed_open⟩,
      firing.wf.free unlinked allocated, firing.idle, nodup, fun other member => ?_,
      fun fd isOpen => ?_⟩
    · obtain ⟨otherUnlinked, otherAllocated⟩ := firing.fired other (List.mem_cons_of_mem _ member)
      exact ⟨otherUnlinked, ((firing.wf.pool.deallocate allocated).2 other).mpr
        ⟨different other member, otherAllocated⟩⟩
    · obtain ⟨wasOpen, notData⟩ := closes fd isOpen
      obtain ⟨node, pointer, found | ⟨member, data⟩⟩ := firing.noded fd wasOpen
      · exact ⟨node, pointer, .inl found⟩
      · refine ⟨node, pointer, .inr ⟨(List.mem_cons.mp member).resolve_left ?_, data⟩⟩
        rintro rfl
        exact notData data.symm
  · intro effect member
    simp only [List.cons_append, List.nil_append, List.mem_cons, List.not_mem_nil, or_false]
      at member
    rcases member with rfl | rfl
    · trivial
    · exact freeTimer_ok allocated

theorem Firing.accounts_fire {state : State} {timer : Addr} {timers : List Addr}
    (firing : state.Firing (timer :: timers)) (owned : state.Owned)
    (firingOwned : state.FiringOwned (timer :: timers)) :
    state.Accounts (state.fire timer) ∧ (state.fire timer).state.FiringOwned timers := by
  obtain ⟨isOpen, pointer⟩ := firingOwned timer List.mem_cons_self
  have nodup := firing.sound.nodup
  have erased : ∀ {fd}, fd ∈ state.openFds.erase (state.timers.wheel.timers timer).userData ↔
      fd ≠ (state.timers.wheel.timers timer).userData ∧ fd ∈ state.openFds :=
    nodup.mem_erase_iff
  -- A descriptor with another node is not the one that is closed.
  have others : ∀ fd node, node ≠ timer → (state.usersTimer fd).timer = some node →
      fd ≠ (state.timers.wheel.timers timer).userData := by
    rintro fd node different points rfl
    exact different (Option.some.inj (points.symm.trans pointer))
  simp only [State.fire, cbFunc_of_open firing.sound isOpen, Outcome.andThen]
  refine ⟨⟨rfl, rfl, ?_, ?_, ?_, ?_⟩, ?_⟩
  · exact (List.perm_cons_erase isOpen).map state.owner
  · have length := List.length_erase_of_mem isOpen
    have positive := List.length_pos_of_mem isOpen
    simp only [length]
    omega
  · simp [closings, Effect.closing]
  · intro node fd found
    obtain ⟨fdOpen, points⟩ := owned node fd found
    refine ⟨erased.mpr ⟨others fd node ?_ points, fdOpen⟩, points⟩
    rintro rfl
    exact (firing.fired node List.mem_cons_self).1 (Timers.dataOf_eq_some_iff.mp found).1
  · intro node member
    obtain ⟨fdOpen, points⟩ := firingOwned node (List.mem_cons_of_mem _ member)
    refine ⟨erased.mpr ⟨others _ node ?_ points, fdOpen⟩, points⟩
    rintro rfl
    exact (List.nodup_cons.mp firing.nodup).1 member

/-- All callbacks of a tick. -/
theorem Firing.fireTimers {state : State} {timers : List Addr} (firing : state.Firing timers) :
    (state.fireTimers timers).state.Regular ∧
      (∀ effect ∈ (state.fireTimers timers).effects, effect.TimerOk) ∧
      (state.Owned → state.FiringOwned timers → state.Accounts (state.fireTimers timers)) := by
  induction timers generalizing state with
  | nil =>
      have noded : ∀ fd ∈ state.openFds, ∃ timer, state.Noded fd timer := by
        intro fd isOpen
        obtain ⟨timer, pointer, found | ⟨member, _⟩⟩ := firing.noded fd isOpen
        · exact ⟨timer, pointer, found⟩
        · exact absurd member List.not_mem_nil
      have regular : state.Regular :=
        ⟨firing.sound, firing.wf, noded, by simp [firing.idle], by simp [firing.idle]⟩
      exact ⟨regular, regular.refl.timers, fun owned _ => regular.refl.accounts owned⟩
  | cons timer timers ih =>
      obtain ⟨next, firstOk⟩ := firing.fire
      obtain ⟨regular, restOk, accounts⟩ := ih next
      refine ⟨regular, fun effect member => ?_, fun owned firingOwned => ?_⟩
      · exact (List.mem_append.mp member).elim (firstOk effect) (restOk effect)
      · obtain ⟨first, nextOwned⟩ := firing.accounts_fire owned firingOwned
        exact first.andThen (accounts first.owned nextOwned)

theorem Regular.timerHandler {state : State} (regular : state.Regular) (idle : state.pending = []) :
    state.Proceeds state.timerHandler := by
  obtain ⟨wf, nodup, fired, dataOf⟩ := regular.wf.ticked
  have kept : ∀ timer, (state.timers.ticked.wheel.timers timer).userData =
      (state.timers.wheel.timers timer).userData := by
    intro timer
    simp only [Timers.ticked, TimeWheel.tick,
      TimeWheel.tickList_timers _ _ (regular.wf.wheel.nodup _)]
    split <;> rfl
  have linked : ∀ timer ∈ state.timers.wheel.tick.fired, state.timers.dataOf timer =
      some (state.timers.ticked.wheel.timers timer).userData := by
    intro timer member
    rw [kept]
    exact Timers.dataOf_eq_some_iff.mpr
      ⟨⟨_, ((regular.wf.wheel.mem_fired timer).mp member).1⟩, rfl⟩
  have firing : ({ state with timers := state.timers.ticked } : State).Firing
      state.timers.wheel.tick.fired := by
    have sound := regular.sound
    refine ⟨⟨sound.nodup, sound.data, sound.user, sound.armed_open⟩, wf, idle, nodup, fired, ?_⟩
    intro fd isOpen
    obtain ⟨timer, pointer, found⟩ := regular.noded fd isOpen
    refine ⟨timer, pointer, ?_⟩
    by_cases due : timer ∈ state.timers.wheel.tick.fired
    · exact .inr ⟨due, Option.some.inj ((linked timer due).symm.trans found)⟩
    · exact .inl ((dataOf timer).trans (if_neg due |>.trans found))
  obtain ⟨handled, timersOk, accounts⟩ := firing.fireTimers
  refine ⟨handled, timersOk, fun owned => ?_⟩
  have accounted := accounts
    (fun timer fd found => owned timer fd (by
      rw [dataOf] at found
      split at found
      · contradiction
      · exact found))
    (fun timer member => owned timer _ (linked timer member))
  exact ⟨accounted.owner, accounted.nextConn, accounted.conns, accounted.count, accounted.hits,
    accounted.owned⟩

end State

end TimeGANWebServer.Server
