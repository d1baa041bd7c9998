import TimeGANWebServer.Server.Timing

/-!
# Steps of regular states

A step of a regular state in which no worker closes a connection leaves a regular state,
and either accepts a connection or accounts for the connections it closes.
-/

namespace TimeGANWebServer.Server

open TimeGANWebServer.Http TimeGANWebServer.Support TimeGANWebServer.Timer

namespace State

/-! ## New connections -/

theorem frame_timer (config : Config) (state : State) (fd : Fd) :
    (state.timer config fd).nextConn = state.nextConn + 1 ∧
      (state.timer config fd).userCount = state.userCount + 1 ∧
      (state.timer config fd).owner = Function.update state.owner fd state.nextConn ∧
      (state.timer config fd).openFds = fd :: state.openFds :=
  ⟨rfl, rfl, rfl, rfl⟩

/-- The new connection gets a node of its own. -/
theorem Regular.timer {state : State} (regular : state.Regular) (config : Config) {fd : Fd}
    (fresh : fd ∉ state.openFds) :
    (state.timer config fd).Regular ∧ (state.Owned → (state.timer config fd).Owned) := by
  obtain ⟨node, timers, added, wf, unused, dataOf⟩ :=
    regular.wf.add (by decide : (0 : Int) ≤ 3 * timeslot) fd
  have sound := regular.sound.timer config fresh
  have pointers : (state.timer config fd).usersTimer = Function.update state.usersTimer fd
      { sockfd := fd, timer := some node, conn := state.nextConn } := by
    simp only [State.timer, addTimer, added]
  have table : (state.timer config fd).timers = timers := by
    simp only [State.timer, addTimer, added]
  have notNode : ∀ {other : Addr} {data : Fd}, state.timers.dataOf other = some data →
      other ≠ node := by
    rintro other data found rfl
    exact absurd (unused.symm.trans found) (by simp)
  refine ⟨⟨sound, table ▸ wf, ?_, ?_, regular.pending_nodup⟩, fun owned => ?_⟩
  · intro other isOpen
    simp only [Noded, pointers, table]
    by_cases same : other = fd
    · subst same
      exact ⟨node, by simp only [Function.update_self], by rw [dataOf, if_pos rfl]⟩
    · obtain ⟨otherNode, pointer, found⟩ :=
        regular.noded other ((List.mem_cons.mp isOpen).resolve_left same)
      refine ⟨otherNode, by simpa only [Function.update_of_ne same] using pointer, ?_⟩
      rw [dataOf, if_neg (notNode found)]
      exact found
  · exact fun event member => List.mem_cons_of_mem _ (regular.pending_open event member)
  · intro other data found
    rw [table, dataOf] at found
    rw [pointers]
    split at found
    case isTrue same =>
        cases found
        exact ⟨List.mem_cons_self, by simp only [Function.update_self, same]⟩
    case isFalse =>
        obtain ⟨isOpen, pointer⟩ := owned other data found
        have different : data ≠ fd := by
          rintro rfl
          exact fresh isOpen
        exact ⟨List.mem_cons_of_mem _ isOpen, by
          simpa only [Function.update_of_ne different] using pointer⟩

/-! ## Steps -/

/-- No worker closes a connection in this step: the response it builds fits. -/
def Fits (state : State) : Label → Prop
  | .process worker mysql env => ∀ task, state.working[worker]? = some task →
      ¬HttpConn.Overflows { state.users task.fd with mysql := mysql } env
  | _ => True

instance decidableFits (state : State) : (label : Label) → Decidable (state.Fits label)
  | .process worker mysql env => inferInstanceAs (Decidable (∀ task ∈ state.working[worker]?,
      ¬HttpConn.Overflows { state.users task.fd with mysql := mysql } env))
  | .accept _ | .epollWait _ | .hangup | .read _ | .write _ | .tick | .dequeue => .isTrue trivial

/-- The main loop takes the next event. -/
theorem Regular.serve {state : State} (regular : state.Regular) {fd : Fd} {readiness : Readiness}
    {rest : List (Fd × Readiness)} (first : state.pending = (fd, readiness) :: rest) :
    ({ state with pending := rest } : State).Regular ∧ fd ∈ state.openFds ∧
      fd ∉ rest.map Prod.fst := by
  have opens := regular.pending_open
  have nodup := regular.pending_nodup
  rw [first] at opens nodup
  obtain ⟨absent, restNodup⟩ := List.nodup_cons.mp nodup
  have sound := regular.sound
  exact ⟨⟨⟨sound.nodup, sound.data, sound.user, sound.armed_open⟩, regular.wf, regular.noded,
    fun event member => opens event (List.mem_cons_of_mem _ member), restNodup⟩,
    opens _ List.mem_cons_self, absent⟩

/-- What was pending before does not matter for an outcome. -/
theorem Proceeds.of_served {state : State} {rest : List (Fd × Readiness)} {outcome : Outcome}
    (proceeds : ({ state with pending := rest } : State).Proceeds outcome) :
    state.Proceeds outcome where
  regular := proceeds.regular
  timers := proceeds.timers
  accounts owned :=
    have accounts := proceeds.accounts owned
    ⟨accounts.owner, accounts.nextConn, accounts.conns, accounts.count, accounts.hits,
      accounts.owned⟩

/-- A regular state with other tasks. -/
theorem Regular.retask {state : State} (regular : state.Regular) (queue working : List Task) :
    ({ state with queue := queue, working := working } : State).Regular := by
  have sound := regular.sound
  exact ⟨⟨sound.nodup, sound.data, sound.user, sound.armed_open⟩, regular.wf, regular.noded,
    regular.pending_open, regular.pending_nodup⟩

/-- Only armed descriptors are reported, and those are open. -/
theorem Reports.armed {state : State} {event : Fd × Readiness} (reports : state.Reports event) :
    state.armed event.1 ≠ none := by
  obtain ⟨fd, readiness⟩ := event
  cases readiness with
  | hangup => exact reports
  | readable =>
      have armed : state.armed fd = some .epollin := reports
      simp [armed]
  | writable =>
      have armed : state.armed fd = some .epollout := reports
      simp [armed]

theorem Regular.epollWait {state : State} (regular : state.Regular)
    {events : List (Fd × Readiness)} (nodup : (events.map Prod.fst).Nodup)
    (reports : ∀ event ∈ events, state.Reports event) :
    ({ state with
      pending := events
      armed := fun fd => if fd ∈ events.map Prod.fst then none else state.armed fd } :
        State).Regular := by
  have sound := regular.sound
  refine ⟨⟨sound.nodup, sound.data, sound.user, fun fd armed => ?_⟩, regular.wf, regular.noded,
    fun event member => sound.armed_open event.1 (reports event member).armed, nodup⟩
  refine sound.armed_open fd fun disarmed => armed ?_
  simp only [disarmed, ite_self]

/-- A step either accepts a connection, or proceeds. -/
theorem Regular.step {config : Config} {state next : State} {label : Label}
    {effects : List Effect} (regular : state.Regular) (fits : state.Fits label)
    (stepped : step config state label = some (next, effects)) :
    state.Proceeds { state := next, effects := effects } ∨
      ∃ fd, fd ∉ state.openFds ∧ next = state.timer config fd ∧ effects = [] := by
  have quiet : ∀ {after : State}, after.Regular → (state.Owned → after.Owned) →
      after.owner = state.owner → after.nextConn = state.nextConn →
      after.openFds = state.openFds → after.userCount = state.userCount →
      state.Proceeds { state := after, effects := [] } := by
    intro after afterRegular owned sameOwner sameNext sameOpen sameCount
    refine ⟨afterRegular, fun _ member => absurd member List.not_mem_nil, fun isOwned => ?_⟩
    exact ⟨sameOwner, sameNext, by simp [sameOpen], by rw [sameOpen, sameCount], by simp,
      owned isOwned⟩
  cases label with
  | accept fd =>
      simp only [Server.step] at stepped
      split at stepped
      · contradiction
      case isFalse fresh =>
          simp only [dealclinetdata, Option.some.injEq, Prod.mk.injEq] at stepped
          obtain ⟨rfl, rfl⟩ := stepped
          split
          · exact .inl regular.refl
          · exact .inr ⟨fd, fresh, rfl, rfl⟩
  | epollWait events =>
      simp only [Server.step] at stepped
      split at stepped
      case isTrue possible =>
          cases stepped
          exact .inl (quiet (regular.epollWait possible.2.1 possible.2.2) id rfl rfl rfl rfl)
      · contradiction
  | hangup =>
      simp only [Server.step] at stepped
      split at stepped
      case _ fd rest first =>
          cases stepped
          obtain ⟨served, isOpen, handled⟩ := regular.serve first
          exact .inl (served.dealTimer isOpen handled).of_served
      · contradiction
  | read results =>
      simp only [Server.step] at stepped
      split at stepped
      case _ fd rest first =>
          simp only [Option.map_eq_some_iff, Prod.mk.injEq] at stepped
          obtain ⟨outcome, dealt, rfl, rfl⟩ := stepped
          obtain ⟨served, isOpen, handled⟩ := regular.serve first
          exact .inl (served.dealwithread isOpen handled dealt).of_served
      · contradiction
  | write results =>
      simp only [Server.step] at stepped
      split at stepped
      case _ fd rest first =>
          simp only [Option.map_eq_some_iff, Prod.mk.injEq] at stepped
          obtain ⟨outcome, dealt, rfl, rfl⟩ := stepped
          obtain ⟨served, isOpen, handled⟩ := regular.serve first
          exact .inl (served.dealwithwrite isOpen handled dealt).of_served
      · contradiction
  | tick =>
      simp only [Server.step] at stepped
      split at stepped
      case isTrue idle =>
          cases stepped
          exact .inl (regular.timerHandler idle)
      · contradiction
  | dequeue =>
      simp only [Server.step] at stepped
      split at stepped
      · contradiction
      · split at stepped
        · cases stepped
          exact .inl (quiet (regular.retask _ _) id rfl rfl rfl rfl)
        · contradiction
  | process worker mysql env =>
      simp only [Server.step] at stepped
      split at stepped
      · contradiction
      case _ task found =>
          simp only [Option.map_eq_some_iff, Prod.mk.injEq] at stepped
          obtain ⟨outcome, worked, rfl, rfl⟩ := stepped
          have released := regular.retask state.queue (state.working.eraseIdx worker)
          have proceeds := released.work (fits task found) worked
          refine .inl ⟨proceeds.regular, proceeds.timers, fun owned => ?_⟩
          have accounts := proceeds.accounts owned
          exact ⟨accounts.owner, accounts.nextConn, accounts.conns, accounts.count, accounts.hits,
            accounts.owned⟩

end State

end TimeGANWebServer.Server
