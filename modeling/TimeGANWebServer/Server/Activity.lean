import TimeGANWebServer.Server.Steps

/-!
# Activity on connections

A client is active when its connection is accepted and whenever `read_once` or `write` succeeds on
it; where one of these fails, or the client hangs up, the connection is closed.  But for the ticks
of the wheel, and as long as no worker closes a connection, this decides what is open.
-/

namespace TimeGANWebServer.Server

open TimeGANWebServer.Http TimeGANWebServer.Support TimeGANWebServer.Timer

namespace State

/-- A successful `write`. -/
def WritesOk (state : State) (fd : Fd) (results : List WritevResult) : Prop :=
  ∃ outcome, (state.users fd).write results = some outcome ∧ outcome.ret = true

theorem writesOk_of_writeSlot {state : State} {fd : Fd} {results : List WritevResult}
    {outcome : Outcome} (written : state.writeSlot fd results = some (true, outcome)) :
    state.WritesOk fd results := by
  simp only [writeSlot, Option.map_eq_some_iff, Prod.mk.injEq] at written
  obtain ⟨result, written, success, _⟩ := written
  exact ⟨result, written, success⟩

theorem not_writesOk_of_writeSlot {state : State} {fd : Fd} {results : List WritevResult}
    {outcome : Outcome} (written : state.writeSlot fd results = some (false, outcome)) :
    ¬state.WritesOk fd results := by
  simp only [writeSlot, Option.map_eq_some_iff, Prod.mk.injEq] at written
  obtain ⟨result, written, failed, _⟩ := written
  rintro ⟨other, same, success⟩
  rw [written, Option.some.injEq] at same
  rw [← same, failed] at success
  contradiction

theorem not_readsOk_of_readSlot {state next : State} {fd : Fd} {results : List RecvResult}
    (read : state.readSlot fd results = some (false, next)) : ¬state.ReadsOk fd results := by
  simp only [readSlot, Option.map_eq_some_iff, Prod.mk.injEq] at read
  obtain ⟨⟨ret, request⟩, read, rfl, _⟩ := read
  rintro ⟨other, same⟩
  rw [read, Option.some.injEq] at same
  cases same

instance (state : State) (fd : Fd) (results : List RecvResult) :
    Decidable (state.ReadsOk fd results) :=
  decidable_of_iff (((state.users fd).readOnce (state.users fd).trigMode results).any Prod.fst) (by
    simp [ReadsOk, Option.any_eq_true])

instance (state : State) (fd : Fd) (results : List WritevResult) :
    Decidable (state.WritesOk fd results) :=
  decidable_of_iff (((state.users fd).write results).any WriteOutcome.ret) (by
    simp [WritesOk, Option.any_eq_true])

/-- A connection is accepted on the descriptor. -/
def Accepts (state : State) (fd : Fd) : Label → Prop
  | .accept accepted => accepted = fd ∧ state.userCount < maxFd
  | _ => False

/-- The descriptor a connection is accepted on, if one is. -/
def accepted (state : State) : Label → List Fd
  | .accept fd => if state.userCount < maxFd then [fd] else []
  | _ => []

theorem mem_accepted {state : State} {fd : Fd} {label : Label} :
    fd ∈ state.accepted label ↔ state.Accepts fd label := by
  cases label with
  | accept accepted =>
      simp only [State.accepted, Accepts]
      split
      case isTrue room => simp only [List.mem_singleton, room, and_true, eq_comm]
      case isFalse full => simp only [List.not_mem_nil, full, and_false]
  | epollWait | hangup | read | write | tick | dequeue | process => exact List.mem_nil_iff fd

/-- A descriptor is active in a step: it is accepted, or `read_once` or `write` succeeds on
it. -/
def Active (state : State) (fd : Fd) : Label → Prop
  | .accept accepted => accepted = fd ∧ state.userCount < maxFd
  | .read results => state.pending.head? = some (fd, .readable) ∧ state.ReadsOk fd results
  | .write results => state.pending.head? = some (fd, .writable) ∧ state.WritesOk fd results
  | _ => False

/-- The connection of a descriptor comes to its end in a step: its client hangs up, or `read_once`
or `write` returns false for it. -/
def Ends (state : State) (fd : Fd) : Label → Prop
  | .hangup => state.pending.head? = some (fd, .hangup)
  | .read results => state.pending.head? = some (fd, .readable) ∧ ¬state.ReadsOk fd results
  | .write results => state.pending.head? = some (fd, .writable) ∧ ¬state.WritesOk fd results
  | _ => False

instance (state : State) (fd : Fd) : (label : Label) → Decidable (state.Active fd label)
  | .accept _ => inferInstanceAs (Decidable (_ ∧ _))
  | .read _ => inferInstanceAs (Decidable (_ ∧ _))
  | .write _ => inferInstanceAs (Decidable (_ ∧ _))
  | .epollWait _ | .hangup | .tick | .dequeue | .process _ _ _ => .isFalse id

instance (state : State) (fd : Fd) : (label : Label) → Decidable (state.Ends fd label)
  | .hangup => inferInstanceAs (Decidable (_ = _))
  | .read _ => inferInstanceAs (Decidable (_ ∧ _))
  | .write _ => inferInstanceAs (Decidable (_ ∧ _))
  | .accept _ | .epollWait _ | .tick | .dequeue | .process _ _ _ => .isFalse id

theorem Accepts.active {state : State} {fd : Fd} {label : Label}
    (accepts : state.Accepts fd label) :
    state.Active fd label := by
  cases label with
  | accept accepted => exact accepts
  | epollWait | hangup | read | write | tick | dequeue | process => exact accepts.elim

/-! ## What is open -/

theorem openFds_adjustSlot (state : State) (fd : Fd) :
    (state.adjustSlot fd).state.openFds = state.openFds := by
  rw [(adjustSlot_retimed state fd).rest]

/-- `deal_timer` closes the descriptor, and no other. -/
theorem Sound.mem_dealTimer {state : State} (sound : state.Sound) {fd other : Fd}
    (isOpen : fd ∈ state.openFds) {timer : Option Addr} (has : timer ≠ none) :
    other ∈ (state.dealTimer timer fd).state.openFds ↔ other ∈ state.openFds ∧ other ≠ fd := by
  obtain ⟨node, rfl⟩ := Option.ne_none_iff_exists'.mp has
  have closed : (state.dealTimer (some node) fd).state.openFds = state.openFds.erase fd :=
    congrArg Custody.openFds (custody_dealTimer sound isOpen node)
  rw [closed, sound.nodup.mem_erase_iff, and_comm]

/-- A read that fails closes its descriptor, and another one closes none. -/
theorem Sound.mem_dealwithread {config : Config} {state : State} (sound : state.Sound)
    {fd other : Fd} (isOpen : fd ∈ state.openFds) {results : List RecvResult} {outcome : Outcome}
    (dealt : state.dealwithread config fd results = some outcome) :
    other ∈ outcome.state.openFds ↔
      other ∈ state.openFds ∧ ¬(other = fd ∧ ¬state.ReadsOk fd results) := by
  have has := (sound.data fd isOpen).2.2
  simp only [dealwithread] at dealt
  split at dealt
  · have adjusted := adjustSlot_retimed state fd
    have opens := openFds_adjustSlot state fd
    obtain ⟨⟨ret, next⟩, read, rfl⟩ := Option.map_eq_some_iff.mp dealt
    obtain ⟨_, same, _⟩ := timer_readSlot read
    have nextSound := (adjusted.sound sound).readSlot read
    cases ret with
    | true =>
        have success := adjusted.readsOk (readsOk_of_readSlot read)
        have kept : (((next.setUser fd { next.users fd with state := 0 }).append config
            fd).openFds) = state.openFds := (openFds_append config _ fd).trans (same.trans opens)
        simp only [Outcome.andThen, if_true, kept, success, not_true_eq_false, and_false,
          not_false_eq_true, and_true]
    | false =>
        have failed : ¬state.ReadsOk fd results := fun success =>
          not_readsOk_of_readSlot read (by rw [adjusted.rest]; exact success)
        have closed :=
          @Sound.mem_dealTimer next nextSound fd other (by rw [same, opens]; exact isOpen)
          (state.usersTimer fd).timer has
        rw [same, opens] at closed
        simpa only [Outcome.andThen, Bool.false_eq_true, if_false, failed, not_false_eq_true,
          and_true] using closed
  · obtain ⟨⟨ret, next⟩, read, rfl⟩ := Option.map_eq_some_iff.mp dealt
    obtain ⟨_, same, _⟩ := timer_readSlot read
    have nextSound := sound.readSlot read
    cases ret with
    | true =>
        have success := readsOk_of_readSlot read
        have kept : ((next.append config fd).adjustSlot fd).state.openFds = state.openFds :=
          (openFds_adjustSlot _ fd).trans ((openFds_append config next fd).trans same)
        simp only [if_true, kept, success, not_true_eq_false, and_false, not_false_eq_true,
          and_true]
    | false =>
        have failed := not_readsOk_of_readSlot read
        have closed := @Sound.mem_dealTimer next nextSound fd other (by rw [same]; exact isOpen)
          (state.usersTimer fd).timer has
        rw [same] at closed
        simpa only [Bool.false_eq_true, if_false, failed, not_false_eq_true, and_true] using closed

/-- A write that fails closes its descriptor, and another one closes none. -/
theorem Sound.mem_dealwithwrite {config : Config} {state : State} (sound : state.Sound)
    {fd other : Fd} (isOpen : fd ∈ state.openFds) {results : List WritevResult} {outcome : Outcome}
    (dealt : state.dealwithwrite config fd results = some outcome) :
    other ∈ outcome.state.openFds ↔
      other ∈ state.openFds ∧ ¬(other = fd ∧ ¬state.WritesOk fd results) := by
  have has := (sound.data fd isOpen).2.2
  simp only [dealwithwrite] at dealt
  split at dealt
  · have adjusted := adjustSlot_retimed state fd
    have opens := openFds_adjustSlot state fd
    obtain ⟨⟨ret, next⟩, wrote, rfl⟩ := Option.map_eq_some_iff.mp dealt
    obtain ⟨nextSound, _, same, _⟩ :=
      custody_writeSlot (adjusted.sound sound) (opens ▸ isOpen) wrote
    cases ret with
    | true =>
        have success : state.WritesOk fd results := by
          have wroteOk := writesOk_of_writeSlot wrote
          rwa [adjusted.rest] at wroteOk
        simp only [Outcome.andThen, if_true, same, opens, success, not_true_eq_false, and_false,
          not_false_eq_true, and_true]
    | false =>
        have failed : ¬state.WritesOk fd results := fun success =>
          not_writesOk_of_writeSlot wrote (by rw [adjusted.rest]; exact success)
        have closed := @Sound.mem_dealTimer next.state nextSound fd other
          (by rw [same, opens]; exact isOpen) (state.usersTimer fd).timer has
        rw [same, opens] at closed
        simpa only [Outcome.andThen, Bool.false_eq_true, if_false, failed, not_false_eq_true,
          and_true] using closed
  · obtain ⟨⟨ret, next⟩, wrote, rfl⟩ := Option.map_eq_some_iff.mp dealt
    obtain ⟨nextSound, _, same, _⟩ := custody_writeSlot sound isOpen wrote
    cases ret with
    | true =>
        have success := writesOk_of_writeSlot wrote
        simp only [Outcome.andThen, if_true, openFds_adjustSlot, same, success, not_true_eq_false,
          and_false, not_false_eq_true, and_true]
    | false =>
        have failed := not_writesOk_of_writeSlot wrote
        have closed := @Sound.mem_dealTimer next.state nextSound fd other
          (by rw [same]; exact isOpen) (state.usersTimer fd).timer has
        rw [same] at closed
        simpa only [Outcome.andThen, Bool.false_eq_true, if_false, failed, not_false_eq_true,
          and_true] using closed

theorem openFds_work {config : Config} {state : State} {task : Task} {mysql : Option Nat}
    {env : Env}
    {outcome : Outcome}
    (fits : ¬HttpConn.Overflows { state.users task.fd with mysql := mysql } env)
    (worked : state.work config task mysql env = some outcome) :
    outcome.state.openFds = state.openFds := by
  rcases work_cases worked with ⟨_, rfl⟩ | ⟨conn, origins, calls, _, rfl, either⟩
  · rfl
  · obtain ⟨_, interest, rfl⟩ := either.resolve_right fun overflows => fits overflows.1
    rw [fdCalls_modfd, openFds_modfd]

/-- Behind every step but a tick, open is what was open and has not come to its end, and what is
accepted. -/
theorem Regular.mem_step {config : Config} {state next : State} {label : Label}
    {effects : List Effect} (regular : state.Regular) (fits : state.Fits label)
    (notTick : label ≠ .tick) (stepped : Server.step config state label = some (next, effects))
    {fd : Fd} :
    fd ∈ next.openFds ↔ (fd ∈ state.openFds ∧ ¬state.Ends fd label) ∨ state.Accepts fd label := by
  cases label with
  | accept accepted =>
      simp only [Server.step] at stepped
      split at stepped
      · contradiction
      · simp only [dealclinetdata, Option.some.injEq, Prod.mk.injEq] at stepped
        obtain ⟨rfl, rfl⟩ := stepped
        split
        case isTrue full =>
            simp only [Ends, Accepts, not_lt.mpr full, not_false_eq_true, and_true, and_false,
              or_false]
        case isFalse room =>
            rw [(frame_timer config state accepted).2.2.2]
            simp only [Ends, Accepts, not_le.mp room, not_false_eq_true, and_true, List.mem_cons,
              or_comm, eq_comm]
  | epollWait events =>
      simp only [Server.step] at stepped
      split at stepped
      · cases stepped
        simp only [Ends, Accepts, not_false_eq_true, and_true, or_false]
      · contradiction
  | hangup =>
      simp only [Server.step] at stepped
      split at stepped
      case _ closed rest first =>
          cases stepped
          obtain ⟨served, isOpen, _⟩ := regular.serve first
          rw [served.sound.mem_dealTimer isOpen (regular.sound.data closed isOpen).2.2]
          simp only [Ends, Accepts, first, List.head?_cons, Option.some.injEq, Prod.mk.injEq,
            and_true, or_false, ne_eq, eq_comm]
      · contradiction
  | read results =>
      simp only [Server.step] at stepped
      split at stepped
      case _ readable rest first =>
          simp only [Option.map_eq_some_iff, Prod.mk.injEq] at stepped
          obtain ⟨outcome, dealt, rfl, rfl⟩ := stepped
          obtain ⟨served, isOpen, _⟩ := regular.serve first
          rw [served.sound.mem_dealwithread isOpen dealt]
          simp only [Ends, Accepts, first, List.head?_cons, Option.some.injEq, Prod.mk.injEq,
            and_true, or_false]
          refine and_congr_right fun _ => not_congr ⟨?_, ?_⟩
          · rintro ⟨rfl, failed⟩
            exact ⟨rfl, failed⟩
          · rintro ⟨rfl, failed⟩
            exact ⟨rfl, failed⟩
      · contradiction
  | write results =>
      simp only [Server.step] at stepped
      split at stepped
      case _ writable rest first =>
          simp only [Option.map_eq_some_iff, Prod.mk.injEq] at stepped
          obtain ⟨outcome, dealt, rfl, rfl⟩ := stepped
          obtain ⟨served, isOpen, _⟩ := regular.serve first
          rw [served.sound.mem_dealwithwrite isOpen dealt]
          simp only [Ends, Accepts, first, List.head?_cons, Option.some.injEq, Prod.mk.injEq,
            and_true, or_false]
          refine and_congr_right fun _ => not_congr ⟨?_, ?_⟩
          · rintro ⟨rfl, failed⟩
            exact ⟨rfl, failed⟩
          · rintro ⟨rfl, failed⟩
            exact ⟨rfl, failed⟩
      · contradiction
  | tick => exact absurd rfl notTick
  | dequeue =>
      simp only [Server.step] at stepped
      split at stepped
      · contradiction
      · split at stepped
        · cases stepped
          simp only [Ends, Accepts, not_false_eq_true, and_true, or_false]
        · contradiction
  | process worker mysql env =>
      simp only [Server.step] at stepped
      split at stepped
      · contradiction
      case _ task found =>
          simp only [Option.map_eq_some_iff, Prod.mk.injEq] at stepped
          obtain ⟨outcome, worked, rfl, rfl⟩ := stepped
          rw [@openFds_work config { state with working := state.working.eraseIdx worker }
            task mysql
            env outcome (fits task found) worked]
          simp only [Ends, Accepts, not_false_eq_true, and_true, or_false]

end State

end TimeGANWebServer.Server
