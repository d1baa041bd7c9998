import Mathlib.Data.Rat.Defs
import Mathlib.Tactic.Linarith
import TimeGANWebServer.Server.Activity
import TimeGANWebServer.Server.Closing

/-!
# Idle connections in seconds

`timer_handler` runs every `TIMESLOT` seconds, and each run of it is one tick of the
wheel.  `add_timer` takes the timeout for a number of ticks, so that a connection is
closed after `3 * TIMESLOT` ticks and not after that many seconds.
-/

namespace TimeGANWebServer.Server

open TimeGANWebServer.Http TimeGANWebServer.Support TimeGANWebServer.Timer

namespace State

/-! ## Ticks that are left -/

/-- The ticks until the timer of a descriptor goes off. -/
def ticksLeft (state : State) (fd : Fd) : Option Nat :=
  (state.usersTimer fd).timer.bind state.timers.wheel.countdown

/-- What is open later was open before and has the same ticks left, but for the renewed
descriptors, which have them all. -/
structure Renews (before after : State) (renewed : Fd → Prop) : Prop where
  fresh : ∀ fd ∈ after.openFds, renewed fd → after.ticksLeft fd = some 16
  same : ∀ fd ∈ after.openFds, ¬renewed fd →
    fd ∈ before.openFds ∧ after.ticksLeft fd = before.ticksLeft fd

theorem Renews.congr {before after : State} {left right : Fd → Prop}
    (renews : before.Renews after left) (same : ∀ fd ∈ after.openFds, left fd ↔ right fd) :
    before.Renews after right where
  fresh fd isOpen renewed := renews.fresh fd isOpen ((same fd isOpen).mpr renewed)
  same fd isOpen notRenewed := renews.same fd isOpen (mt (same fd isOpen).mp notRenewed)

theorem Renews.trans {first second third : State} {left right : Fd → Prop}
    (before : first.Renews second left) (after : second.Renews third right) :
    first.Renews third fun fd => left fd ∨ right fd where
  fresh fd isOpen renewed := by
    by_cases later : right fd
    · exact after.fresh fd isOpen later
    · obtain ⟨wasOpen, same⟩ := after.same fd isOpen later
      rw [same]
      exact before.fresh fd wasOpen (renewed.resolve_right later)
  same fd isOpen notRenewed := by
    obtain ⟨notLeft, notRight⟩ := not_or.mp notRenewed
    obtain ⟨wasOpen, same⟩ := after.same fd isOpen notRight
    obtain ⟨wasOpenBefore, sameBefore⟩ := before.same fd wasOpen notLeft
    exact ⟨wasOpenBefore, same.trans sameBefore⟩

/-- What renews nothing can follow. -/
theorem Renews.quiet {first second third : State} {renewed : Fd → Prop}
    (before : first.Renews second renewed) (after : second.Renews third fun _ => False) :
    first.Renews third renewed :=
  (before.trans after).congr fun _ _ => or_iff_left id

/-- A step that touches neither timers nor open descriptors. -/
theorem Renews.of_eq {before after : State} (timers : after.timers = before.timers)
    (usersTimer : after.usersTimer = before.usersTimer) (opens : after.openFds = before.openFds) :
    before.Renews after fun _ => False where
  fresh _ _ := False.elim
  same fd isOpen _ := ⟨opens ▸ isOpen, by rw [ticksLeft, ticksLeft, timers, usersTimer]⟩

/-- The node of one descriptor is not that of another. -/
theorem Noded.ne {state : State} {fd other : Fd} {timer otherTimer : Addr}
    (noded : state.Noded fd timer) (otherNoded : state.Noded other otherTimer)
    (different : other ≠ fd) : otherTimer ≠ timer := by
  rintro rfl
  exact different (Option.some.inj (otherNoded.2.symm.trans noded.2))

/-- `adjust_timer` gives a descriptor all its ticks. -/
theorem Regular.renews_adjustSlot {state : State} (regular : state.Regular) {fd : Fd}
    (isOpen : fd ∈ state.openFds) :
    state.Renews (state.adjustSlot fd).state (· = fd) := by
  obtain ⟨timer, noded⟩ := regular.noded fd isOpen
  obtain ⟨timers, effects, adjusted, _, _, _, _, countdown⟩ :=
    adjustSlot_of_noded regular.wf (regular.sound.data fd isOpen).1 noded
  rw [adjusted]
  refine ⟨?_, fun other otherOpen notSame => ⟨otherOpen, ?_⟩⟩
  · rintro _ _ rfl
    simp only [ticksLeft, noded.1, Option.bind_some, countdown, if_true]
  · obtain ⟨otherTimer, otherNoded⟩ := regular.noded other otherOpen
    simp only [ticksLeft, otherNoded.1, Option.bind_some, countdown,
      if_neg (noded.ne otherNoded notSame)]

/-- `deal_timer` closes its descriptor and leaves the other timers alone. -/
theorem Regular.renews_dealTimer {state : State} (regular : state.Regular) {fd : Fd}
    (isOpen : fd ∈ state.openFds) :
    state.Renews (state.dealTimer (state.usersTimer fd).timer fd).state (fun _ => False) ∧
      fd ∉ (state.dealTimer (state.usersTimer fd).timer fd).state.openFds := by
  obtain ⟨timer, noded⟩ := regular.noded fd isOpen
  obtain ⟨effects, dealt, _, _⟩ := dealTimer_of_noded regular.sound regular.wf isOpen noded
  have erased : ∀ {other}, other ∈ state.openFds.erase fd ↔ other ≠ fd ∧ other ∈ state.openFds :=
    regular.sound.nodup.mem_erase_iff
  rw [noded.1, dealt]
  refine ⟨⟨fun _ _ => False.elim, fun other member _ => ?_⟩, fun member => (erased.mp member).1 rfl⟩
  obtain ⟨different, otherOpen⟩ := erased.mp member
  obtain ⟨otherTimer, otherNoded⟩ := regular.noded other otherOpen
  refine ⟨otherOpen, ?_⟩
  simp only [ticksLeft, otherNoded.1, Option.bind_some, regular.wf.countdown_remove]
  exact Function.update_of_ne (noded.ne otherNoded different) _ _

/-- A new connection has all its ticks. -/
theorem Regular.renews_timer {state : State} (regular : state.Regular) (config : Config) (fd : Fd) :
    state.Renews (state.timer config fd) (· = fd) := by
  obtain ⟨node, timers, added, wf, unused, dataOf⟩ :=
    regular.wf.add (by decide : (0 : Int) ≤ 3 * timeslot) fd
  have pointers : (state.timer config fd).usersTimer = Function.update state.usersTimer fd
      { sockfd := fd, timer := some node, conn := state.nextConn } := by
    simp only [State.timer, addTimer, added]
  have table : (state.timer config fd).timers = timers := by
    simp only [State.timer, addTimer, added]
  have countdown := Timers.countdown_add added
  refine ⟨?_, fun other isOpen notSame => ?_⟩
  · rintro _ _ rfl
    simp only [ticksLeft, pointers, table, Function.update_self, Option.bind_some, countdown]
    exact Function.update_self _ _ _
  · have wasOpen : other ∈ state.openFds := (List.mem_cons.mp isOpen).resolve_left notSame
    obtain ⟨otherTimer, otherNoded⟩ := regular.noded other wasOpen
    have different : otherTimer ≠ node := by
      rintro rfl
      exact absurd (unused.symm.trans otherNoded.2) (by simp)
    refine ⟨wasOpen, ?_⟩
    simp only [ticksLeft, pointers, table, Function.update_of_ne notSame, otherNoded.1,
      Option.bind_some, countdown]
    exact Function.update_of_ne different _ _

/-! ## Activity -/

theorem renews_readSlot {state next : State} {fd : Fd} {results : List RecvResult}
    {ret : Bool} (read : state.readSlot fd results = some (ret, next)) :
    state.Renews next fun _ => False := by
  obtain ⟨request, origins, rfl⟩ := readSlot_cases read
  exact .of_eq rfl rfl rfl

theorem renews_append (config : Config) (state : State) (fd : Fd) :
    state.Renews (state.append config fd) fun _ => False := by
  simp only [State.append]
  split <;> exact .of_eq rfl rfl rfl

/-- A read that succeeds renews the timer of its descriptor, and another one closes it. -/
theorem Regular.renews_dealwithread {config : Config} {state : State} (regular : state.Regular)
    {fd : Fd} (isOpen : fd ∈ state.openFds) {results : List RecvResult} {outcome : Outcome}
    (dealt : state.dealwithread config fd results = some outcome) :
    state.Renews outcome.state fun other => other = fd ∧ state.ReadsOk fd results := by
  simp only [State.dealwithread] at dealt
  split at dealt
  · have adjusted := regular.adjustSlot isOpen
    have renewed := regular.renews_adjustSlot isOpen
    obtain ⟨timers, effects, frame⟩ := frame_adjustSlot regular isOpen
    obtain ⟨⟨ret, next⟩, read, rfl⟩ := Option.map_eq_some_iff.mp dealt
    have readOk := adjusted.regular.readSlot read
    have kept := renewed.quiet (renews_readSlot read)
    cases ret with
    | true =>
        have success := (adjustSlot_retimed state fd).readsOk (readsOk_of_readSlot read)
        have set : next.Renews (next.setUser fd { next.users fd with state := 0 }) fun _ => False :=
          .of_eq rfl rfl rfl
        refine ((kept.quiet set).quiet (renews_append config _ fd)).congr fun other _ => ?_
        rw [and_iff_left success]
    | false =>
        rw [frame] at read
        obtain ⟨pointers, opens, _⟩ := frame_readSlot read
        obtain ⟨closed, absent⟩ := readOk.regular.renews_dealTimer (opens ▸ isOpen)
        rw [pointers] at closed absent
        refine (kept.quiet closed).congr fun other member => ?_
        exact iff_of_false (fun same => absent (same ▸ member))
          (fun same => absent (same.1 ▸ member))
  · obtain ⟨⟨ret, next⟩, read, rfl⟩ := Option.map_eq_some_iff.mp dealt
    have readOk := regular.readSlot read
    have kept := renews_readSlot read
    obtain ⟨pointers, opens, _⟩ := frame_readSlot read
    cases ret with
    | true =>
        have success := readsOk_of_readSlot read
        have appended := readOk.regular.append config fd
        have renewed := appended.regular.renews_adjustSlot
          (by rw [openFds_append]; exact opens ▸ isOpen)
        refine ((kept.quiet (renews_append config next fd)).trans renewed).congr fun other _ => ?_
        rw [false_or, and_iff_left success]
    | false =>
        obtain ⟨closed, absent⟩ := readOk.regular.renews_dealTimer (opens ▸ isOpen)
        rw [pointers] at closed absent
        refine (kept.quiet closed).congr fun other member => ?_
        exact iff_of_false id (fun same => absent (same.1 ▸ member))

theorem renews_writeSlot {state : State} {fd : Fd} {results : List WritevResult} {ret : Bool}
    {outcome : Outcome} (written : state.writeSlot fd results = some (ret, outcome)) :
    state.Renews outcome.state fun _ => False := by
  obtain ⟨_, frame⟩ := frame_writeSlot written
  rw [frame]
  exact .of_eq rfl rfl rfl

/-- A write that succeeds renews the timer of its descriptor, and another one closes it. -/
theorem Regular.renews_dealwithwrite {config : Config} {state : State} (regular : state.Regular)
    {fd : Fd} (isOpen : fd ∈ state.openFds) {results : List WritevResult} {outcome : Outcome}
    (dealt : state.dealwithwrite config fd results = some outcome) :
    state.Renews outcome.state fun other => other = fd ∧ state.WritesOk fd results := by
  simp only [State.dealwithwrite] at dealt
  split at dealt
  · have adjusted := regular.adjustSlot isOpen
    have renewed := regular.renews_adjustSlot isOpen
    obtain ⟨timers, effects, frame⟩ := frame_adjustSlot regular isOpen
    obtain ⟨⟨ret, next⟩, wrote, rfl⟩ := Option.map_eq_some_iff.mp dealt
    have opened : fd ∈ (state.adjustSlot fd).state.openFds := by
      rw [frame]
      exact isOpen
    have written := adjusted.regular.writeSlot opened wrote
    have kept := renewed.quiet (renews_writeSlot wrote)
    obtain ⟨_, writeFrame⟩ := frame_writeSlot wrote
    cases ret with
    | true =>
        have success : state.WritesOk fd results := by
          have wroteOk := writesOk_of_writeSlot wrote
          rwa [frame] at wroteOk
        refine kept.congr fun other _ => ?_
        rw [and_iff_left success]
    | false =>
        rw [frame] at writeFrame
        have pointers : next.state.usersTimer = state.usersTimer := by
          rw [writeFrame]
        obtain ⟨closed, absent⟩ :=
          written.regular.renews_dealTimer (by rw [writeFrame]; exact isOpen)
        rw [pointers] at closed absent
        refine (kept.quiet closed).congr fun other member => ?_
        exact iff_of_false (fun same => absent (same ▸ member))
          (fun same => absent (same.1 ▸ member))
  · obtain ⟨⟨ret, next⟩, wrote, rfl⟩ := Option.map_eq_some_iff.mp dealt
    have written := regular.writeSlot isOpen wrote
    have kept := renews_writeSlot wrote
    obtain ⟨_, writeFrame⟩ := frame_writeSlot wrote
    have opened : fd ∈ next.state.openFds := by
      rw [writeFrame]
      exact isOpen
    cases ret with
    | true =>
        have success := writesOk_of_writeSlot wrote
        refine (kept.trans (written.regular.renews_adjustSlot opened)).congr fun other _ => ?_
        rw [false_or, and_iff_left success]
    | false =>
        have pointers : next.state.usersTimer = state.usersTimer := by
          rw [writeFrame]
        obtain ⟨closed, absent⟩ := written.regular.renews_dealTimer opened
        rw [pointers] at closed absent
        refine (kept.quiet closed).congr fun other member => ?_
        exact iff_of_false id (fun same => absent (same.1 ▸ member))

/-- A worker whose response fits leaves the timers alone. -/
theorem renews_work {config : Config} {state : State} {task : Task} {mysql : Option Nat} {env : Env}
    {outcome : Outcome}
    (fits : ¬HttpConn.Overflows { state.users task.fd with mysql := mysql } env)
    (worked : state.work config task mysql env = some outcome) :
    state.Renews outcome.state fun _ => False := by
  rcases work_cases worked with ⟨_, rfl⟩ | ⟨conn, origins, calls, _, rfl, either⟩
  · exact .of_eq rfl rfl rfl
  · obtain ⟨_, interest, rfl⟩ := either.resolve_right fun overflows => fits overflows.1
    rw [fdCalls_modfd]
    simp only [State.modfd]
    split <;> exact .of_eq rfl rfl rfl

/-- Every step but a tick renews the timers of the active descriptors only. -/
theorem Regular.renews_step {config : Config} {state next : State} {label : Label}
    {effects : List Effect} (regular : state.Regular) (fits : state.Fits label)
    (notTick : label ≠ .tick) (stepped : Server.step config state label = some (next, effects)) :
    state.Renews next fun fd => state.Active fd label := by
  cases label with
  | accept fd =>
      simp only [Server.step] at stepped
      split at stepped
      · contradiction
      case isFalse fresh =>
          simp only [dealclinetdata, Option.some.injEq, Prod.mk.injEq] at stepped
          obtain ⟨rfl, rfl⟩ := stepped
          split
          case isTrue full =>
              have kept : state.Renews state fun _ => False := .of_eq rfl rfl rfl
              exact kept.congr fun other _ =>
                iff_of_false id fun active => absurd active.2 (Int.not_lt.mpr full)
          case isFalse room =>
              refine (regular.renews_timer config fd).congr fun other _ => ?_
              exact ⟨fun same => ⟨same.symm, Int.not_le.mp room⟩, fun active => active.1.symm⟩
  | epollWait events =>
      simp only [Server.step] at stepped
      split at stepped
      · cases stepped
        exact .of_eq rfl rfl rfl
      · contradiction
  | hangup =>
      simp only [Server.step] at stepped
      split at stepped
      case _ fd rest first =>
          cases stepped
          obtain ⟨served, isOpen, handled⟩ := regular.serve first
          have taken : state.Renews { state with pending := rest } fun _ => False :=
            .of_eq rfl rfl rfl
          exact taken.quiet (served.renews_dealTimer isOpen).1
      · contradiction
  | read results =>
      simp only [Server.step] at stepped
      split at stepped
      case _ fd rest first =>
          simp only [Option.map_eq_some_iff, Prod.mk.injEq] at stepped
          obtain ⟨outcome, dealt, rfl, rfl⟩ := stepped
          obtain ⟨served, isOpen, handled⟩ := regular.serve first
          have taken : state.Renews { state with pending := rest } fun _ => False :=
            .of_eq rfl rfl rfl
          refine (taken.trans (served.renews_dealwithread isOpen dealt)).congr fun other _ => ?_
          simp only [Active, first, List.head?_cons, Option.some.injEq, Prod.mk.injEq, and_true,
            false_or]
          constructor
          · rintro ⟨same, success⟩
            exact ⟨same.symm, same ▸ success⟩
          · rintro ⟨same, success⟩
            exact ⟨same.symm, same ▸ success⟩
      · contradiction
  | write results =>
      simp only [Server.step] at stepped
      split at stepped
      case _ fd rest first =>
          simp only [Option.map_eq_some_iff, Prod.mk.injEq] at stepped
          obtain ⟨outcome, dealt, rfl, rfl⟩ := stepped
          obtain ⟨served, isOpen, handled⟩ := regular.serve first
          have taken : state.Renews { state with pending := rest } fun _ => False :=
            .of_eq rfl rfl rfl
          refine (taken.trans (served.renews_dealwithwrite isOpen dealt)).congr fun other _ => ?_
          simp only [Active, first, List.head?_cons, Option.some.injEq, Prod.mk.injEq, and_true,
            false_or]
          constructor
          · rintro ⟨same, success⟩
            exact ⟨same.symm, same ▸ success⟩
          · rintro ⟨same, success⟩
            exact ⟨same.symm, same ▸ success⟩
      · contradiction
  | tick => exact absurd rfl notTick
  | dequeue =>
      simp only [Server.step] at stepped
      split at stepped
      · contradiction
      · split at stepped
        · cases stepped
          exact .of_eq rfl rfl rfl
        · contradiction
  | process worker mysql env =>
      simp only [Server.step] at stepped
      split at stepped
      · contradiction
      case _ task found =>
          simp only [Option.map_eq_some_iff, Prod.mk.injEq] at stepped
          obtain ⟨outcome, worked, rfl, rfl⟩ := stepped
          have released : state.Renews
              { state with queue := state.queue, working := state.working.eraseIdx worker }
              fun _ => False := .of_eq rfl rfl rfl
          exact released.quiet (renews_work (fits task found) worked)

/-! ## Ticks -/

/-- The callbacks of a tick change neither `users_timer` nor what is in the wheel. -/
theorem fireTimers_keeps (state : State) (timers : List Addr) :
    (state.fireTimers timers).state.usersTimer = state.usersTimer ∧
      (state.fireTimers timers).state.timers.wheel = state.timers.wheel := by
  induction timers generalizing state with
  | nil => exact ⟨rfl, rfl⟩
  | cons timer timers ih =>
      have first : (state.fire timer).state.usersTimer = state.usersTimer ∧
          (state.fire timer).state.timers.wheel = state.timers.wheel := by
        simp only [fire, cbFunc, Outcome.andThen, State.close]
        split <;> exact ⟨rfl, rfl⟩
      obtain ⟨usersTimer, wheel⟩ := ih (state.fire timer).state
      exact ⟨usersTimer.trans first.1, wheel.trans first.2⟩

/-- The descriptors a tick closes are those whose node fires. -/
theorem Regular.mem_expiring {state : State} (regular : state.Regular) (owned : state.Owned)
    {fd : Fd} : fd ∈ state.expiring ↔
      ∃ timer ∈ state.timers.wheel.tick.fired, state.timers.dataOf timer = some fd := by
  have named : ∀ timer ∈ state.timers.wheel.tick.fired, ∃ data,
      state.timers.dataOf timer = some data ∧
        (state.usersTimer (state.timers.wheel.timers timer).userData).sockfd = data := by
    intro timer fired
    have linked : state.timers.wheel.Linked timer :=
      ⟨_, ((regular.wf.wheel.mem_fired timer).mp fired).1⟩
    have found := Timers.dataOf_eq_some_iff.mpr ⟨linked, rfl⟩
    exact ⟨_, found, (regular.sound.data _ (owned timer _ found).1).1⟩
  simp only [expiring, List.mem_filterMap]
  refine exists_congr fun timer => and_congr_right fun fired => ?_
  obtain ⟨data, found, sockfd⟩ := named timer fired
  rw [sockfd, if_pos (Int.natCast_nonneg data), found, Int.toNat_natCast]

/-- A tick takes one of the ticks left of every descriptor it leaves open, and closes those
that have one left. -/
theorem Regular.ticksLeft_timerHandler {state : State} (regular : state.Regular)
    (owned : state.Owned) :
    (∀ fd ∈ state.timerHandler.state.openFds, fd ∈ state.openFds ∧ ∃ left,
      state.ticksLeft fd = some (left + 2) ∧
        state.timerHandler.state.ticksLeft fd = some (left + 1)) ∧
    ∀ fd ∈ state.openFds, fd ∉ state.timerHandler.state.openFds → state.ticksLeft fd = some 1 := by
  have opens : ∀ fd, fd ∈ state.timerHandler.state.openFds ↔
      fd ∈ state.openFds ∧ fd ∉ state.expiring := by
    intro fd
    have custody := congrArg Custody.openFds (custody_timerHandler regular.wf.wheel)
    have sameOpen : state.timerHandler.state.openFds =
        (state.custody.closeAll state.expiring).openFds := custody
    rw [sameOpen]
    exact Custody.mem_openFds_closeAll regular.sound.nodup
  obtain ⟨usersTimer, wheel⟩ := fireTimers_keeps { state with timers := state.timers.ticked }
    state.timers.wheel.tick.fired
  constructor
  · intro fd stillOpen
    obtain ⟨isOpen, notExpiring⟩ := (opens fd).mp stillOpen
    obtain ⟨timer, noded⟩ := regular.noded fd isOpen
    obtain ⟨linked, _⟩ := Timers.dataOf_eq_some_iff.mp noded.2
    have notDue : state.timers.wheel.countdown timer ≠ some 1 := by
      intro goesOff
      have due := (regular.wf.wheel.due_iff timer).mpr goesOff
      exact notExpiring ((regular.mem_expiring owned).mpr
        ⟨timer, (regular.wf.wheel.mem_fired timer).mpr due, noded.2⟩)
    have running : state.timers.wheel.countdown timer = some (state.timers.wheel.remaining timer) :=
      if_pos linked
    obtain ⟨left, remaining⟩ : ∃ left, state.timers.wheel.remaining timer = left + 2 := by
      rw [running, Ne, Option.some.injEq] at notDue
      simp only [TimeWheel.remaining] at notDue ⊢
      exact ⟨_, (Nat.sub_add_cancel (by omega)).symm⟩
    rw [remaining] at running
    refine ⟨isOpen, left, by rw [ticksLeft, noded.1, Option.bind_some, running], ?_⟩
    have lowered : state.timers.ticked.wheel.countdown = state.timers.wheel.countdown.tick :=
      regular.wf.wheel.countdown_tick
    rw [ticksLeft, State.timerHandler, usersTimer, wheel]
    simp only [noded.1, Option.bind_some, lowered, Countdown.tick, running, Countdown.lower]
  · intro fd isOpen notOpen
    have expires : fd ∈ state.expiring := by
      by_contra notExpiring
      exact notOpen ((opens fd).mpr ⟨isOpen, notExpiring⟩)
    obtain ⟨timer, fired, found⟩ := (regular.mem_expiring owned).mp expires
    have goesOff :=
      (regular.wf.wheel.due_iff timer).mp ((regular.wf.wheel.mem_fired timer).mp fired)
    rw [ticksLeft, (owned timer fd found).2, Option.bind_some]
    exact goesOff

end State

/-! ## The clock -/

/-- `m_TIMESLOT` in seconds: the time between two runs of `timer_handler`. -/
def period : ℚ := timeslot

/-- A server with the time, the number of ticks so far, for each open connection the time of its
last activity, which is its accept or a successful read or write, and the connections that have not
come to their end but by the wheel. -/
structure Clocked where
  state : State
  now : ℚ
  ticks : Nat
  lastActive : Fd → ℚ
  clients : List Fd

/-- Time passes, or the server makes a step at some time. -/
inductive TimedLabel where
  | pass (time : ℚ)
  | event (time : ℚ) (label : Label)

namespace Clocked

/-- A server at time 0. -/
def start (state : State) : Clocked where
  state := state
  now := 0
  ticks := 0
  lastActive := fun _ => 0
  clients := []

/-- When `timer_handler` runs next. -/
def nextTick (clocked : Clocked) : ℚ :=
  period * (clocked.ticks + 1)

/-- The time a connection has been idle. -/
def idle (clocked : Clocked) (fd : Fd) : ℚ :=
  clocked.now - clocked.lastActive fd

/-- A step can be made at some time: a tick when it is due, and other steps no later. -/
def Timely (clocked : Clocked) (time : ℚ) (label : Label) : Prop :=
  clocked.now ≤ time ∧
    match label with
    | .tick => time = clocked.nextTick
    | _ => time ≤ clocked.nextTick

instance (clocked : Clocked) (time : ℚ) (label : Label) :
    Decidable (clocked.Timely time label) := by
  unfold Timely
  cases label <;> infer_instance

/-- The server after a step. -/
def after (clocked : Clocked) (time : ℚ) (label : Label) (next : State) : Clocked where
  state := next
  now := time
  ticks :=
    match label with
    | .tick => clocked.ticks + 1
    | _ => clocked.ticks
  lastActive := fun fd => if clocked.state.Active fd label then time else clocked.lastActive fd
  clients := (clocked.clients.filter fun fd => ¬clocked.state.Ends fd label) ++
    clocked.state.accepted label

/-- The connections the time wheel closes in a step, each with the time it was idle. -/
def expiries (clocked : Clocked) (time : ℚ) (label : Label) (next : State) : List (Fd × ℚ) :=
  match label with
  | .tick => (clocked.state.openFds.filter fun fd => fd ∉ next.openFds).map fun fd =>
      (fd, time - clocked.lastActive fd)
  | _ => []

/-- One step with the clock. -/
def step (config : Config) (clocked : Clocked) : TimedLabel → Option (Clocked × List (Fd × ℚ))
  | .pass time =>
      if clocked.now ≤ time ∧ time ≤ clocked.nextTick then
        some ({ clocked with now := time }, [])
      else
        none
  | .event time label =>
      if clocked.Timely time label then
        (Server.step config clocked.state label).map fun next =>
          (clocked.after time label next.1, clocked.expiries time label next.1)
      else
        none

/-- No worker closes a connection in this step. -/
def Fits (clocked : Clocked) : TimedLabel → Prop
  | .pass _ => True
  | .event _ label => clocked.state.Fits label

instance decidableFits (clocked : Clocked) : (label : TimedLabel) → Decidable (clocked.Fits label)
  | .pass _ => .isTrue trivial
  | .event _ label => inferInstanceAs (Decidable (clocked.state.Fits label))

/-- No client leaves its connection alone for more than `4 * TIMESLOT` seconds: each was active so
recently, unless it is active now or its connection comes to its end. -/
def Attended (clocked : Clocked) : TimedLabel → Prop
  | .pass time => ∀ fd ∈ clocked.clients, time - clocked.lastActive fd ≤ 4 * period
  | .event time label => ∀ fd ∈ clocked.clients, ¬clocked.state.Ends fd label →
      ¬clocked.state.Active fd label → time - clocked.lastActive fd ≤ 4 * period

instance decidableAttended (clocked : Clocked) :
    (label : TimedLabel) → Decidable (clocked.Attended label)
  | .pass time => inferInstanceAs
      (Decidable (∀ fd ∈ clocked.clients, time - clocked.lastActive fd ≤ 4 * period))
  | .event time label => inferInstanceAs (Decidable (∀ fd ∈ clocked.clients,
      ¬clocked.state.Ends fd label → ¬clocked.state.Active fd label →
        time - clocked.lastActive fd ≤ 4 * period))

/-- Each open connection's timer has as many ticks left as its time allows: 16 ticks from
the tick before its last activity on. -/
structure OnTime (clocked : Clocked) : Prop where
  regular : clocked.state.Regular
  owned : clocked.state.Owned
  now_ge : period * clocked.ticks ≤ clocked.now
  now_le : clocked.now ≤ clocked.nextTick
  ticksLeft : ∀ fd ∈ clocked.state.openFds, ∃ left since : Nat,
    clocked.state.ticksLeft fd = some left ∧ left + clocked.ticks = since + 16 ∧ 0 < left ∧
      period * since ≤ clocked.lastActive fd ∧ clocked.lastActive fd ≤ period * (since + 1)

theorem period_eq : period = 5 := by
  norm_num [period, timeslot]

theorem OnTime.start (users : Fd → HttpConn) (usersTimer : Fd → ClientData)
    (nodes : Addr → UtilTimer) : (Clocked.start (State.start users usersTimer nodes)).OnTime where
  regular := State.start_regular users usersTimer nodes
  owned := State.start_owned users usersTimer nodes
  now_ge := by simp [Clocked.start]
  now_le := by simp [Clocked.start, nextTick, period_eq]
  ticksLeft _ isOpen := absurd isOpen List.not_mem_nil

/-- Waiting for the next tick. -/
theorem OnTime.pass {clocked : Clocked} (onTime : clocked.OnTime) {time : ℚ}
    (later : clocked.now ≤ time) (inTime : time ≤ clocked.nextTick) :
    ({ clocked with now := time } : Clocked).OnTime where
  regular := onTime.regular
  owned := onTime.owned
  now_ge := le_trans onTime.now_ge later
  now_le := inTime
  ticksLeft := onTime.ticksLeft

/-- A step between two ticks renews the timers of the active descriptors. -/
theorem OnTime.event {config : Config} {clocked : Clocked} {time : ℚ} {label : Label} {next : State}
    {effects : List Effect} (onTime : clocked.OnTime) (fits : clocked.state.Fits label)
    (notTick : label ≠ .tick) (timely : clocked.Timely time label)
    (stepped : Server.step config clocked.state label = some (next, effects))
    (regular : next.Regular) (owned : next.Owned) : (clocked.after time label next).OnTime := by
  have renews := onTime.regular.renews_step fits notTick stepped
  have inTime : time ≤ clocked.nextTick := by
    cases label with
    | tick => exact absurd rfl notTick
    | accept | epollWait | hangup | read | write | dequeue | process => exact timely.2
  have sameTicks : (clocked.after time label next).ticks = clocked.ticks := by
    cases label with
    | tick => exact absurd rfl notTick
    | accept | epollWait | hangup | read | write | dequeue | process => rfl
  have notBefore := le_trans onTime.now_ge timely.1
  refine ⟨regular, owned, ?_, ?_, fun fd isOpen => ?_⟩
  · rw [sameTicks]
    exact notBefore
  · rw [nextTick, sameTicks]
    exact inTime
  · by_cases active : clocked.state.Active fd label
    · refine ⟨16, clocked.ticks, renews.fresh fd isOpen active, by rw [sameTicks, Nat.add_comm],
        by decide, ?_⟩
      simp only [after, if_pos active]
      exact ⟨notBefore, inTime⟩
    · obtain ⟨wasOpen, same⟩ := renews.same fd isOpen active
      obtain ⟨left, since, isLeft, total, positive, bounds⟩ := onTime.ticksLeft fd wasOpen
      refine ⟨left, since, same.trans isLeft, by rw [sameTicks, total], positive, ?_⟩
      simp only [after, if_neg active]
      exact bounds

/-- A tick takes a tick from every timer, and closes only what has been idle for fifteen
periods. -/
theorem OnTime.tick {clocked : Clocked} {time : ℚ} (onTime : clocked.OnTime)
    (isTime : time = clocked.nextTick) (regular : clocked.state.timerHandler.state.Regular)
    (owned : clocked.state.timerHandler.state.Owned) :
    (clocked.after time .tick clocked.state.timerHandler.state).OnTime ∧
      ∀ expiry ∈ clocked.expiries time .tick clocked.state.timerHandler.state,
        15 * period ≤ expiry.2 := by
  obtain ⟨lowered, closed⟩ := onTime.regular.ticksLeft_timerHandler onTime.owned
  have ticks : (clocked.after time .tick clocked.state.timerHandler.state).ticks =
      clocked.ticks + 1 := rfl
  have same : ∀ fd, (clocked.after time .tick clocked.state.timerHandler.state).lastActive fd =
      clocked.lastActive fd := by
    intro fd
    simp only [after]
    exact if_neg id
  constructor
  · refine ⟨regular, owned, ?_, ?_, fun fd isOpen => ?_⟩
    · rw [ticks, Nat.cast_succ]
      exact isTime.ge
    · rw [nextTick, ticks, period_eq]
      simp only [after, isTime, nextTick, period_eq]
      push_cast
      linarith
    · obtain ⟨wasOpen, rest, before, behind⟩ := lowered fd isOpen
      obtain ⟨left, since, isLeft, total, _, bounds⟩ := onTime.ticksLeft fd wasOpen
      rw [before, Option.some.injEq] at isLeft
      refine ⟨rest + 1, since, behind, by rw [ticks]; omega, Nat.succ_pos _, ?_⟩
      rw [same]
      exact bounds
  · intro expiry member
    simp only [expiries, List.mem_map, List.mem_filter, decide_eq_true_eq] at member
    obtain ⟨fd, ⟨wasOpen, notOpen⟩, rfl⟩ := member
    obtain ⟨left, since, isLeft, total, _, _, active⟩ := onTime.ticksLeft fd wasOpen
    rw [closed fd wasOpen notOpen, Option.some.injEq] at isLeft
    have elapsed : (clocked.ticks : ℚ) = since + 15 := by
      have natural : clocked.ticks = since + 15 := by omega
      rw [natural, Nat.cast_add]
      norm_num
    simp only [isTime, nextTick, period_eq, elapsed] at active ⊢
    linarith

/-- A step of a server whose workers close no connection. -/
theorem OnTime.step {config : Config} {clocked next : Clocked} {label : TimedLabel}
    {expired : List (Fd × ℚ)} (onTime : clocked.OnTime) (fits : clocked.Fits label)
    (stepped : clocked.step config label = some (next, expired)) :
    next.OnTime ∧ ∀ expiry ∈ expired, 15 * period ≤ expiry.2 := by
  cases label with
  | pass time =>
      simp only [Clocked.step] at stepped
      split at stepped
      case isTrue able =>
          cases stepped
          exact ⟨onTime.pass able.1 able.2, fun _ member => absurd member List.not_mem_nil⟩
      case isFalse => contradiction
  | event time label =>
      simp only [Clocked.step] at stepped
      split at stepped
      case isFalse => contradiction
      case isTrue timely =>
          obtain ⟨⟨after, effects⟩, server, same⟩ := Option.map_eq_some_iff.mp stepped
          cases same
          have kept : after.Regular ∧ after.Owned := by
            rcases onTime.regular.step fits server with proceeds | ⟨fd, fresh, rfl, _⟩
            · exact ⟨proceeds.regular, (proceeds.accounts onTime.owned).owned⟩
            · obtain ⟨regular, owned⟩ := onTime.regular.timer config fresh
              exact ⟨regular, owned onTime.owned⟩
          by_cases isTick : label = .tick
          · subst isTick
            simp only [Server.step] at server
            split at server
            case isFalse => contradiction
            case isTrue =>
                cases server
                exact onTime.tick timely.2 kept.1 kept.2
          · refine ⟨onTime.event fits isTick timely server kept.1 kept.2, ?_⟩
            cases label with
            | tick => exact absurd rfl isTick
            | accept | epollWait | hangup | read | write | dequeue | process =>
                exact fun _ member => absurd member List.not_mem_nil

/-- No open connection has been idle for more than `4 * TIMESLOT` seconds. -/
def Brisk (clocked : Clocked) : Prop :=
  ∀ fd ∈ clocked.state.openFds, clocked.idle fd ≤ 4 * period

/-- The server keeps the time, and the wheel has closed no connection that its client has not
ended. -/
structure Waiting (clocked : Clocked) : Prop where
  onTime : clocked.OnTime
  clients : ∀ fd, fd ∈ clocked.clients ↔ fd ∈ clocked.state.openFds

/-- The wheel closes no connection that has been idle for four periods at most before the tick. -/
theorem OnTime.stays_open {clocked : Clocked} (onTime : clocked.OnTime) {fd : Fd}
    (isOpen : fd ∈ clocked.state.openFds) (brisk : clocked.idle fd ≤ 4 * period) :
    fd ∈ clocked.state.timerHandler.state.openFds := by
  by_contra closed
  have last := (onTime.regular.ticksLeft_timerHandler onTime.owned).2 fd isOpen closed
  obtain ⟨left, since, isLeft, total, _, _, active⟩ := onTime.ticksLeft fd isOpen
  rw [last, Option.some.injEq] at isLeft
  have elapsed : (clocked.ticks : ℚ) = since + 15 := by
    have natural : clocked.ticks = since + 15 := by omega
    rw [natural, Nat.cast_add]
    norm_num
  have now := onTime.now_ge
  simp only [idle, period_eq, elapsed] at brisk active now
  linarith

/-- A step from a state in which no connection has been idle for long: the wheel closes none, and
none has been idle for long behind it exactly if every client attends to its connection. -/
theorem Waiting.step {config : Config} {clocked next : Clocked} {label : TimedLabel}
    {expired : List (Fd × ℚ)} (waiting : clocked.Waiting) (brisk : clocked.Brisk)
    (fits : clocked.Fits label) (stepped : clocked.step config label = some (next, expired)) :
    next.Waiting ∧ (next.Brisk ↔ clocked.Attended label) ∧ expired = [] := by
  obtain ⟨onTime, clients⟩ := waiting
  obtain ⟨nextOnTime, _⟩ := onTime.step fits stepped
  cases label with
  | pass time =>
      simp only [Clocked.step] at stepped
      split at stepped
      case isTrue =>
          cases stepped
          refine ⟨⟨nextOnTime, clients⟩, ?_, rfl⟩
          exact forall_congr' fun fd => by rw [clients fd]; rfl
      case isFalse => contradiction
  | event time label =>
      simp only [Clocked.step] at stepped
      split at stepped
      case isFalse => contradiction
      case isTrue timely =>
          obtain ⟨⟨after, effects⟩, server, same⟩ := Option.map_eq_some_iff.mp stepped
          cases same
          -- open is what was open and has not come to its end, and what is accepted
          have opens : ∀ fd, fd ∈ after.openFds ↔
              (fd ∈ clocked.state.openFds ∧ ¬clocked.state.Ends fd label) ∨
                clocked.state.Accepts fd label := by
            intro fd
            by_cases isTick : label = .tick
            · subst isTick
              simp only [Server.step] at server
              split at server
              case isFalse => contradiction
              case isTrue =>
                  cases server
                  refine ⟨fun isOpen => .inl ⟨?_, id⟩, fun either => ?_⟩
                  · exact ((onTime.regular.ticksLeft_timerHandler onTime.owned).1 fd isOpen).1
                  · obtain ⟨wasOpen, _⟩ := either.resolve_right id
                    exact onTime.stays_open wasOpen (brisk fd wasOpen)
            · exact onTime.regular.mem_step fits isTick server
          refine ⟨⟨nextOnTime, fun fd => ?_⟩, ⟨fun briskNext fd isClient notEnds idle => ?_,
            fun attended fd isOpen => ?_⟩, ?_⟩
          · simp only [Clocked.after, List.mem_append, List.mem_filter, State.mem_accepted,
              decide_not, Bool.not_eq_true', decide_eq_false_iff_not, clients, opens]
          · have bound := briskNext fd ((opens fd).mpr (.inl ⟨(clients fd).mp isClient, notEnds⟩))
            simpa only [Clocked.idle, Clocked.after, if_neg idle] using bound
          · by_cases active : clocked.state.Active fd label
            · simp only [Clocked.idle, Clocked.after, if_pos active, period_eq]
              norm_num
            · obtain ⟨wasOpen, notEnds⟩ :=
                ((opens fd).mp isOpen).resolve_right fun accepts => active accepts.active
              simpa only [Clocked.idle, Clocked.after, if_neg active] using
                attended fd ((clients fd).mpr wasOpen) notEnds active
          · cases label with
            | accept | epollWait | hangup | read | write | dequeue | process => rfl
            | tick =>
                refine List.map_eq_nil_iff.mpr (List.filter_eq_nil_iff.mpr fun fd isOpen => ?_)
                simpa using (opens fd).mpr (.inl ⟨isOpen, id⟩)

/-- No open connection is idle for more than sixteen periods. -/
theorem OnTime.idle_le {clocked : Clocked} (onTime : clocked.OnTime) {fd : Fd}
    (isOpen : fd ∈ clocked.state.openFds) : clocked.idle fd ≤ 16 * period := by
  obtain ⟨left, since, _, total, positive, active, _⟩ := onTime.ticksLeft fd isOpen
  have ticks : clocked.ticks ≤ since + 15 := by omega
  have elapsed : (clocked.ticks : ℚ) ≤ since + 15 := by exact_mod_cast ticks
  have now := onTime.now_le
  simp only [idle, nextTick, period_eq] at *
  linarith

/-- Runs keep the timers in time. -/
theorem onTime_of_run {config : Config} {users : Fd → HttpConn} {usersTimer : Fd → ClientData}
    {nodes : Addr → UtilTimer} {labels : List TimedLabel} {last : Clocked}
    {expired : List (Fd × ℚ)}
    (fits : RunMeets (Clocked.step config) Fits (Clocked.start (.start users usersTimer nodes))
      labels)
    (ran : run (Clocked.step config) (Clocked.start (.start users usersTimer nodes)) labels =
      some (last, expired)) : last.OnTime ∧ ∀ expiry ∈ expired, 15 * period ≤ expiry.2 := by
  have kept := run_invariant
    (fun (clocked : Clocked) log => clocked.OnTime ∧ ∀ expiry ∈ log, 15 * period ≤ expiry.2)
    (fun _ _ _ _ _ kept fits stepped => by
      obtain ⟨onTime, late⟩ := kept.1.step fits stepped
      refine ⟨onTime, fun expiry member => ?_⟩
      exact (List.mem_append.mp member).elim (kept.2 expiry) (late expiry))
    ⟨OnTime.start users usersTimer nodes, fun _ member => absurd member List.not_mem_nil⟩ fits ran
  rwa [List.nil_append] at kept

theorem Waiting.start (users : Fd → HttpConn) (usersTimer : Fd → ClientData)
    (nodes : Addr → UtilTimer) : (Clocked.start (State.start users usersTimer nodes)).Waiting :=
  ⟨OnTime.start users usersTimer nodes, fun _ => Iff.rfl⟩

theorem Brisk.start (users : Fd → HttpConn) (usersTimer : Fd → ClientData)
    (nodes : Addr → UtilTimer) : (Clocked.start (State.start users usersTimer nodes)).Brisk :=
  fun _ isOpen => absurd isOpen List.not_mem_nil

/-- Where the clients attend to their connections, the wheel closes none. -/
theorem unexpired_of_run {config : Config} {clocked last : Clocked} {labels : List TimedLabel}
    {expired : List (Fd × ℚ)} (waiting : clocked.Waiting) (brisk : clocked.Brisk)
    (fits : RunMeets (Clocked.step config) Fits clocked labels)
    (attended : RunMeets (Clocked.step config) Attended clocked labels)
    (ran : run (Clocked.step config) clocked labels = some (last, expired)) : expired = [] := by
  have kept := @run_invariant _ _ _ (Clocked.step config)
    (fun clocked log => (clocked.Waiting ∧ clocked.Brisk) ∧ log = []) _
    (fun clocked log label next expired holds meets stepped => by
      obtain ⟨⟨waiting, brisk⟩, rfl⟩ := holds
      obtain ⟨nextWaiting, nextBrisk, none⟩ := waiting.step brisk meets.1 stepped
      exact ⟨⟨nextWaiting, nextBrisk.mpr meets.2⟩, none⟩)
    clocked last [] expired labels ⟨⟨waiting, brisk⟩, rfl⟩ (fits.and attended) ran
  exact kept.2

end Clocked

/-- **The idle timeout in seconds.**  In every run in which no worker closes a connection,
the time wheel closes a connection only after `15 * TIMESLOT` seconds without activity, and
by `16 * TIMESLOT` seconds it has closed it.  So it keeps no bound of `4 * TIMESLOT` seconds: no
open connection has ever been idle for longer exactly if no client leaves its connection alone for
longer, and then the wheel has closed none. -/
theorem idle_seconds (config : Config) (users : Fd → HttpConn) (usersTimer : Fd → ClientData)
    (nodes : Addr → UtilTimer) {labels : List TimedLabel} {last : Clocked}
    {expired : List (Fd × ℚ)}
    (fits : RunMeets (Clocked.step config) Clocked.Fits
      (Clocked.start (.start users usersTimer nodes)) labels)
    (ran : run (Clocked.step config) (Clocked.start (.start users usersTimer nodes)) labels =
      some (last, expired)) :
    (∀ expiry ∈ expired, 3 * period ≤ expiry.2 ∧ 15 * period ≤ expiry.2) ∧
      (∀ fd ∈ last.state.openFds, last.idle fd ≤ 16 * period) ∧
      ((∀ before, before <+: labels → ∀ middle made,
          run (Clocked.step config) (Clocked.start (.start users usersTimer nodes)) before =
            some (middle, made) →
          ∀ fd ∈ middle.state.openFds, middle.idle fd ≤ 4 * period) ↔
        RunMeets (Clocked.step config) Clocked.Attended
          (Clocked.start (.start users usersTimer nodes)) labels) ∧
      (RunMeets (Clocked.step config) Clocked.Attended
          (Clocked.start (.start users usersTimer nodes)) labels → expired = []) := by
  obtain ⟨onTime, late⟩ := Clocked.onTime_of_run fits ran
  have longer : 3 * period ≤ 15 * period := by norm_num [Clocked.period_eq]
  have waiting := Clocked.Waiting.start users usersTimer nodes
  have brisk := Clocked.Brisk.start users usersTimer nodes
  refine ⟨fun expiry member => ⟨longer.trans (late expiry member), late expiry member⟩,
    fun fd isOpen => onTime.idle_le isOpen, ?_, fun attended =>
      Clocked.unexpired_of_run waiting brisk fits attended ran⟩
  refine run_states_iff_of_meets Clocked.Waiting Clocked.Brisk ?_ waiting brisk fits ran
  intro clocked label next expired waiting brisk fits stepped
  obtain ⟨nextWaiting, attended, _⟩ := waiting.step brisk fits stepped
  exact ⟨nextWaiting, attended⟩

/-- The server at time 0. -/
def clockedReactor : Clocked :=
  .start (.start blankUsers blankTimers blankNodes)

/-- A client sends its first byte after 12 seconds, and hangs up after 31. -/
def attending : List TimedLabel :=
  [.event 0 (.accept 7), .event 5 .tick, .event 10 .tick, .event 12 (.epollWait [(7, .readable)]),
    .event 12 (.read [.data (ascii "G")]), .event 12 .dequeue,
    .event (25 / 2) (.process 0 none Env.blank), .event 15 .tick, .event 20 .tick, .event 25 .tick,
    .event 30 .tick, .event 31 (.epollWait [(7, .hangup)]), .event 31 .hangup, .pass 35]

theorem idle_seconds_attending :
    ∃ last expired,
      run (Clocked.step reactor) clockedReactor attending = some (last, expired) ∧
        (∀ expiry ∈ expired, 3 * period ≤ expiry.2 ∧ 15 * period ≤ expiry.2) ∧
        (∀ fd ∈ last.state.openFds, last.idle fd ≤ 16 * period) ∧
        (∀ before, before <+: attending → ∀ middle made,
          run (Clocked.step reactor) clockedReactor before = some (middle, made) →
          ∀ fd ∈ middle.state.openFds, middle.idle fd ≤ 4 * period) ∧ expired = [] := by
  have ran : (run (Clocked.step reactor) clockedReactor attending).isSome := by decide +kernel
  have attended : RunMeets (Clocked.step reactor) Clocked.Attended clockedReactor attending := by
    decide +kernel
  obtain ⟨⟨last, expired⟩, ran⟩ := Option.isSome_iff_exists.mp ran
  obtain ⟨late, closed, brisk, unexpired⟩ := idle_seconds reactor blankUsers blankTimers blankNodes
    (by decide +kernel) ran
  exact ⟨last, expired, ran, late, closed, brisk.mpr attended, unexpired attended⟩

/-- A connection is accepted at time 0 and sends nothing while the server ticks. -/
def silent (ticks : Nat) : List TimedLabel :=
  .event 0 (.accept 7) :: (List.range ticks).map fun (tick : Nat) =>
    .event (period * (tick + 1)) .tick

/-- The connection is closed at the sixteenth tick. -/
example :
  (run (Clocked.step reactor) clockedReactor (silent 16)).map Prod.snd = some [(7, 80)] := by
  decide +kernel

/-- A connection that has been silent for 25 seconds is still open. -/
theorem not_idle_seconds :
    ∃ last expired,
      run (Clocked.step reactor) clockedReactor (silent 4 ++ [.pass 25]) = some (last, expired) ∧
        ∃ fd ∈ last.state.openFds, 4 * period < last.idle fd := by
  have ran : (run (Clocked.step reactor) clockedReactor (silent 4 ++ [.pass 25])).map
      (fun last => (last.1.state.openFds, last.1.idle 7)) = some ([7], 25) := by
    decide +kernel
  obtain ⟨⟨last, expired⟩, ran, projected⟩ := Option.map_eq_some_iff.mp ran
  obtain ⟨opens, idle⟩ := Prod.mk.inj projected
  refine ⟨last, expired, ran, 7, ?_, ?_⟩
  · simp only at opens
    rw [opens]
    exact List.mem_singleton_self 7
  · simp only at idle
    rw [idle, Clocked.period_eq]
    norm_num

end TimeGANWebServer.Server
