import TimeGANWebServer.Server.Steps

/-!
# Where connections are

Events are one-shot, so a connection is handed from epoll to the main loop, to the work
queue, to a worker, and back.  Two things break into this: a tick can close a connection
that is queued or with a worker, and `append` drops a connection when the queue is full.
-/

namespace TimeGANWebServer.Server

open TimeGANWebServer.Http TimeGANWebServer.Support TimeGANWebServer.Timer

namespace State

/-! ## Conditions on steps -/

/-- A tick closes no connection that is queued or with a worker. -/
def Unhurried (state : State) : Label → Prop
  | .tick => ∀ fd ∈ state.expiring, ¬state.custody.Busy fd
  | _ => True

instance decidableUnhurried (state : State) : (label : Label) → Decidable (state.Unhurried label)
  | .tick => inferInstanceAs
      (Decidable (∀ fd ∈ state.expiring, ¬fd ∈ (state.queue ++ state.working).map Task.fd))
  | .accept _ | .epollWait _ | .hangup | .read _ | .write _ | .dequeue | .process _ _ _ =>
      .isTrue trivial

/-- The queue has room for a connection that was read. -/
def Roomy (config : Config) (state : State) : Label → Prop
  | .read results => ∀ fd rest, state.pending = (fd, .readable) :: rest →
      state.ReadsOk fd results → state.queue.length < config.maxRequests
  | _ => True

/-! ## Steps -/

/-- Every connection has one place at most. -/
structure Ordered (state : State) : Prop where
  regular : state.Regular
  exclusive : state.custody.Exclusive

/-- The custody without descriptors in hand. -/
abbrev AllPlaced (state : State) : Prop :=
  state.custody.Placed fun _ => False

theorem start_ordered (users : Fd → HttpConn) (usersTimer : Fd → ClientData)
    (nodes : Addr → UtilTimer) : (start users usersTimer nodes).Ordered where
  regular := start_regular users usersTimer nodes
  exclusive := by
    constructor <;> simp [start, State.custody, Custody.tasks]

/-- The main loop takes the next event: its descriptor is in hand. -/
theorem Ordered.serve {state : State} (ordered : state.Ordered) {fd : Fd} {readiness : Readiness}
    {rest : List (Fd × Readiness)} (first : state.pending = (fd, readiness) :: rest) :
    ({ state with pending := rest } : State).custody.Exclusive ∧
      ({ state with pending := rest } : State).custody.InHand fd ∧
      (state.AllPlaced → ({ state with pending := rest } : State).custody.Placed (· = fd)) := by
  have reported : state.custody.reported = fd :: rest.map Prod.fst := by
    simp only [State.custody, first, List.map_cons]
  obtain ⟨exclusive, hand⟩ := ordered.exclusive.serve reported
  exact ⟨exclusive, hand, fun placed => placed.serve reported⟩

/-- What is done with a descriptor in hand: it gets a place again, or is closed. -/
theorem settle {before after : Custody Fd ConnId} {fd : Fd} (exclusive : before.Exclusive)
    (nodup : before.openFds.Nodup) (hand : before.InHand fd)
    (settled : after = before.rearm fd ∨ after = before.enqueue fd ∨ after = before.close fd) :
    after.Exclusive ∧ (before.Placed (· = fd) → after.Placed fun _ => False) := by
  rcases settled with rfl | rfl | rfl
  · exact ⟨exclusive.rearm hand, fun placed => placed.rearm⟩
  · exact ⟨exclusive.enqueue hand, fun placed => placed.enqueue⟩
  · exact ⟨exclusive.close nodup hand.notReported hand.notBusy,
      fun placed => placed.close (fun _ same => same) nodup⟩

theorem custody_epollWait (state : State) (events : List (Fd × Readiness)) :
    ({ state with
      pending := events
      armed := fun fd => if fd ∈ events.map Prod.fst then none else state.armed fd } :
        State).custody = state.custody.report (events.map Prod.fst) := by
  simp only [State.custody, Custody.report, Custody.mk.injEq, true_and, and_true]
  funext fd
  by_cases reported : fd ∈ events.map Prod.fst
  · simp only [reported, if_true, ne_eq, not_true_eq_false, false_and]
  · simp only [reported, if_false, not_false_eq_true, true_and]

/-- A step keeps the places exclusive, and loses none where the queue has room. -/
def Settles (config : Config) (state : State) (label : Label) (next : State) : Prop :=
  next.Ordered ∧ (state.AllPlaced → state.Roomy config label → next.AllPlaced)

section Settles

variable {config : Config} {state next : State} {effects : List Effect}

/-- A new connection is armed. -/
theorem Ordered.of_accept {fd : Fd} (ordered : state.Ordered) (nextRegular : next.Regular)
    (stepped : step config state (.accept fd) = some (next, effects)) :
    state.Settles config (.accept fd) next := by
  have exclusive := ordered.exclusive
  simp only [Server.step] at stepped
  split at stepped
  · contradiction
  case isFalse fresh =>
      simp only [dealclinetdata, Option.some.injEq, Prod.mk.injEq] at stepped
      obtain ⟨rfl, rfl⟩ := stepped
      split
      · exact ⟨ordered, fun placed _ => placed⟩
      case isFalse room =>
          rw [if_neg room] at nextRegular
          refine ⟨⟨nextRegular, ?_⟩, fun placed _ => ?_⟩
          · rw [custody_timer]
            exact exclusive.accept _ fresh
          · rw [AllPlaced, custody_timer]
            exact placed.accept fd _

/-- The reported events are taken from the armed ones. -/
theorem Ordered.of_epollWait {events : List (Fd × Readiness)} (ordered : state.Ordered)
    (nextRegular : next.Regular)
    (stepped : step config state (.epollWait events) = some (next, effects)) :
    state.Settles config (.epollWait events) next := by
  have exclusive := ordered.exclusive
  simp only [Server.step] at stepped
  split at stepped
  case isTrue possible =>
      cases stepped
      have armed : ∀ fd ∈ events.map Prod.fst, state.custody.armed fd := by
        intro fd reported
        obtain ⟨event, member, rfl⟩ := List.mem_map.mp reported
        exact (possible.2.2 event member).armed
      refine ⟨⟨nextRegular, ?_⟩, fun placed _ => ?_⟩
      · rw [custody_epollWait]
        exact exclusive.report possible.2.1 armed
      · rw [AllPlaced, custody_epollWait]
        exact placed.report _ (by simp only [State.custody, possible.1, List.map_nil])
  · contradiction

/-- The connection of a hang-up is closed. -/
theorem Ordered.of_hangup (ordered : state.Ordered) (nextRegular : next.Regular)
    (stepped : step config state .hangup = some (next, effects)) :
    state.Settles config .hangup next := by
  have nodup : state.custody.openFds.Nodup := ordered.regular.sound.nodup
  simp only [Server.step] at stepped
  split at stepped
  case _ fd rest first =>
      cases stepped
      obtain ⟨served, hand, inHand⟩ := ordered.serve first
      obtain ⟨servedRegular, isOpen, _⟩ := ordered.regular.serve first
      obtain ⟨timer, pointer, _⟩ := ordered.regular.noded fd isOpen
      have closed := custody_dealTimer servedRegular.sound isOpen timer
      rw [← pointer] at closed
      obtain ⟨settled, placed⟩ := settle served nodup hand (.inr (.inr closed))
      exact ⟨⟨nextRegular, settled⟩, fun before _ => placed (inHand before)⟩
  · contradiction

/-- A connection that is read is queued or closed, or dropped by a full queue. -/
theorem Ordered.of_read {results : List RecvResult} (ordered : state.Ordered)
    (nextRegular : next.Regular)
    (stepped : step config state (.read results) = some (next, effects)) :
    state.Settles config (.read results) next := by
  have nodup : state.custody.openFds.Nodup := ordered.regular.sound.nodup
  simp only [Server.step] at stepped
  split at stepped
  case _ fd rest first =>
      simp only [Option.map_eq_some_iff, Prod.mk.injEq] at stepped
      obtain ⟨outcome, dealt, rfl, rfl⟩ := stepped
      obtain ⟨served, hand, inHand⟩ := ordered.serve first
      obtain ⟨servedRegular, isOpen, _⟩ := ordered.regular.serve first
      obtain ⟨_, queued | closed | ⟨dropped, reads, full⟩⟩ :=
        custody_dealwithread servedRegular.sound isOpen dealt
      · obtain ⟨settled, placed⟩ := settle served nodup hand (.inr (.inl queued))
        exact ⟨⟨nextRegular, settled⟩, fun before _ => placed (inHand before)⟩
      · obtain ⟨settled, placed⟩ := settle served nodup hand (.inr (.inr closed))
        exact ⟨⟨nextRegular, settled⟩, fun before _ => placed (inHand before)⟩
      · refine ⟨⟨nextRegular, dropped ▸ served⟩, fun _ roomy => ?_⟩
        exact absurd (roomy fd rest first reads) (Nat.not_lt.mpr full)
  · contradiction

/-- A connection that is written to is armed again or closed. -/
theorem Ordered.of_write {results : List WritevResult} (ordered : state.Ordered)
    (nextRegular : next.Regular)
    (stepped : step config state (.write results) = some (next, effects)) :
    state.Settles config (.write results) next := by
  have nodup : state.custody.openFds.Nodup := ordered.regular.sound.nodup
  simp only [Server.step] at stepped
  split at stepped
  case _ fd rest first =>
      simp only [Option.map_eq_some_iff, Prod.mk.injEq] at stepped
      obtain ⟨outcome, dealt, rfl, rfl⟩ := stepped
      obtain ⟨served, hand, inHand⟩ := ordered.serve first
      obtain ⟨servedRegular, isOpen, _⟩ := ordered.regular.serve first
      obtain ⟨_, places⟩ := custody_dealwithwrite servedRegular.sound isOpen dealt
      obtain ⟨settled, placed⟩ := settle served nodup hand (places.imp_right .inr)
      exact ⟨⟨nextRegular, settled⟩, fun before _ => placed (inHand before)⟩
  · contradiction

/-- A tick closes connections that nobody is busy with. -/
theorem Ordered.of_tick (ordered : state.Ordered) (nextRegular : next.Regular)
    (unhurried : state.Unhurried .tick) (stepped : step config state .tick = some (next, effects)) :
    state.Settles config .tick next := by
  have exclusive := ordered.exclusive
  have nodup : state.custody.openFds.Nodup := ordered.regular.sound.nodup
  simp only [Server.step] at stepped
  split at stepped
  case isTrue idle =>
      cases stepped
      have custody := custody_timerHandler ordered.regular.wf.wheel
      refine ⟨⟨nextRegular, ?_⟩, fun placed _ => ?_⟩
      · rw [custody]
        refine exclusive.closeAll nodup (fun fd _ => ?_) unhurried
        simp only [State.custody, idle, List.map_nil, List.not_mem_nil, not_false_eq_true]
      · rw [AllPlaced, custody]
        exact placed.closeAll nodup _
  · contradiction

/-- A worker takes a task. -/
theorem Ordered.of_dequeue (ordered : state.Ordered) (nextRegular : next.Regular)
    (stepped : step config state .dequeue = some (next, effects)) :
    state.Settles config .dequeue next := by
  have exclusive := ordered.exclusive
  simp only [Server.step] at stepped
  split at stepped
  · contradiction
  case _ task rest queued =>
      split at stepped
      · cases stepped
        exact ⟨⟨nextRegular, exclusive.take queued⟩, fun placed _ => placed.take queued⟩
      · contradiction

/-- A worker arms its connection again, or closes it. -/
theorem Ordered.of_process {worker : Nat} {mysql : Option Nat} {env : Env} (ordered : state.Ordered)
    (stepped : step config state (.process worker mysql env) = some (next, effects)) :
    state.Settles config (.process worker mysql env) next := by
  have exclusive := ordered.exclusive
  have nodup : state.custody.openFds.Nodup := ordered.regular.sound.nodup
  simp only [Server.step] at stepped
  split at stepped
  · contradiction
  case _ task found =>
      simp only [Option.map_eq_some_iff, Prod.mk.injEq] at stepped
      obtain ⟨outcome, worked, rfl, rfl⟩ := stepped
      obtain ⟨released, hand⟩ := exclusive.release found
      have releasedRegular := ordered.regular.retask state.queue (state.working.eraseIdx worker)
      obtain ⟨_, places⟩ := custody_work releasedRegular.sound hand.isOpen worked
      obtain ⟨settled, placed⟩ := settle released nodup hand
        (places.imp_right fun closed => .inr closed.1)
      exact ⟨⟨releasedRegular.work_of_open hand.isOpen hand.notReported worked, settled⟩,
        fun before _ => placed (before.release found)⟩

end Settles

/-- A step in which a tick closes no busy connection keeps the places exclusive, and one
in which the queue has room loses no place. -/
theorem Ordered.step {config : Config} {state next : State} {label : Label}
    {effects : List Effect} (ordered : state.Ordered) (unhurried : state.Unhurried label)
    (stepped : step config state label = some (next, effects)) :
    next.Ordered ∧ (state.AllPlaced → state.Roomy config label → next.AllPlaced) := by
  -- Only a worker can do what `Regular.step` does not cover.
  have regular : state.Fits label → next.Regular := by
    intro fits
    rcases ordered.regular.step fits stepped with proceeds | ⟨fd, fresh, rfl, _⟩
    · exact proceeds.regular
    · exact (ordered.regular.timer config fresh).1
  cases label with
  | accept fd => exact ordered.of_accept (regular trivial) stepped
  | epollWait events => exact ordered.of_epollWait (regular trivial) stepped
  | hangup => exact ordered.of_hangup (regular trivial) stepped
  | read results => exact ordered.of_read (regular trivial) stepped
  | write results => exact ordered.of_write (regular trivial) stepped
  | tick => exact ordered.of_tick (regular trivial) unhurried stepped
  | dequeue => exact ordered.of_dequeue (regular trivial) stepped
  | process worker mysql env => exact ordered.of_process stepped

theorem ordered_of_run {config : Config} {users : Fd → HttpConn} {usersTimer : Fd → ClientData}
    {nodes : Addr → UtilTimer} {labels : List Label} {last : State} {effects : List Effect}
    (unhurried : RunMeets (step config) Unhurried (start users usersTimer nodes) labels)
    (ran : run (step config) (start users usersTimer nodes) labels = some (last, effects)) :
    last.Ordered :=
  run_state (fun state => state.Ordered)
    (fun _ _ _ _ ordered meets stepped => (ordered.step meets stepped).1)
    (start_ordered users usersTimer nodes) unhurried ran

/-! ## Exactly one place -/

/-- The situations of an open connection. -/
inductive Place where
  | armed | queued | working | handled
  deriving DecidableEq, Repr

/-- The connection that has a descriptor is in a situation: epoll is armed for it, a
request of it waits in the queue or is with a worker, or the main loop has got its
event. -/
def At (state : State) (fd : Fd) : Place → Prop
  | .armed => state.armed fd ≠ none
  | .queued => ⟨fd, state.owner fd⟩ ∈ state.queue
  | .working => ⟨fd, state.owner fd⟩ ∈ state.working
  | .handled => fd ∈ state.pending.map Prod.fst

/-- No connection is in a situation twice. -/
structure Once (state : State) : Prop where
  place : ∀ fd ∈ state.openFds, ∃! place, state.At fd place
  tasks : ((state.queue ++ state.working).map Task.fd).Nodup
  events : (state.pending.map Prod.fst).Nodup

theorem Ordered.once {state : State} (ordered : state.Ordered) (placed : state.AllPlaced) :
    state.Once := by
  have exclusive := ordered.exclusive
  refine ⟨fun fd isOpen => ?_, exclusive.task_nodup, exclusive.reported_nodup⟩
  have queuedTask : state.At fd .queued → ⟨fd, state.owner fd⟩ ∈ state.custody.tasks :=
    fun queued => List.mem_append_left _ queued
  have workingTask : state.At fd .working → ⟨fd, state.owner fd⟩ ∈ state.custody.tasks :=
    fun working => List.mem_append_right _ working
  have apart : ¬(state.At fd .queued ∧ state.At fd .working) := by
    rintro ⟨queued, working⟩
    have nodup := exclusive.task_nodup
    simp only [Custody.tasks, List.map_append] at nodup
    exact List.disjoint_of_nodup_append nodup (List.mem_map_of_mem queued)
      (List.mem_map_of_mem working)
  have armedTask : ∀ task ∈ state.custody.tasks, task.fd = fd → ¬state.At fd .armed :=
    fun task isTask same armed => exclusive.task_armed task isTask (same ▸ armed)
  have handledTask : ∀ task ∈ state.custody.tasks, task.fd = fd → ¬state.At fd .handled :=
    fun task isTask same handled => exclusive.task_reported task isTask (same ▸ handled)
  have handledArmed : state.At fd .handled → ¬state.At fd .armed :=
    fun handled armed => exclusive.reported_armed fd handled armed
  rcases placed fd isOpen with armed | handled | busy | none
  · refine ⟨.armed, armed, fun place at_ => ?_⟩
    cases place with
    | armed => rfl
    | queued => exact absurd armed (armedTask _ (queuedTask at_) rfl)
    | working => exact absurd armed (armedTask _ (workingTask at_) rfl)
    | handled => exact absurd armed (handledArmed at_)
  · refine ⟨.handled, handled, fun place at_ => ?_⟩
    cases place with
    | armed => exact absurd at_ (handledArmed handled)
    | queued => exact absurd handled (handledTask _ (queuedTask at_) rfl)
    | working => exact absurd handled (handledTask _ (workingTask at_) rfl)
    | handled => rfl
  · obtain ⟨task, isTask, same⟩ := List.mem_map.mp busy
    have owner := exclusive.task_owner task isTask
    have whole : task = ⟨fd, state.owner fd⟩ := by
      rw [← same]
      exact congrArg (Task.mk task.fd) owner.symm
    subst whole
    rcases List.mem_append.mp isTask with queued | working
    · refine ⟨.queued, queued, fun place at_ => ?_⟩
      cases place with
      | armed => exact absurd at_ (armedTask _ isTask rfl)
      | queued => rfl
      | working => exact absurd ⟨queued, at_⟩ apart
      | handled => exact absurd at_ (handledTask _ isTask rfl)
    · refine ⟨.working, working, fun place at_ => ?_⟩
      cases place with
      | armed => exact absurd at_ (armedTask _ isTask rfl)
      | queued => exact absurd ⟨at_, working⟩ apart
      | working => rfl
      | handled => exact absurd at_ (handledTask _ isTask rfl)
  · exact none.elim

end State

/-- **No connection is left unserved**, in every run in which ticks close no connection
that is queued or with a worker, and every connection that was read finds room in the
queue: each open connection is armed, queued, with a worker or being handled, and only
one of these. -/
theorem served_once (config : Config) (users : Fd → HttpConn) (usersTimer : Fd → ClientData)
    (nodes : Addr → UtilTimer) {labels : List Label} {last : State} {effects : List Effect}
    (meets : RunMeets (step config)
      (fun state label => state.Unhurried label ∧ state.Roomy config label)
      (State.start users usersTimer nodes) labels)
    (ran : run (step config) (State.start users usersTimer nodes) labels = some (last, effects)) :
    last.Once := by
  have first : (State.start users usersTimer nodes).Ordered ∧
      (State.start users usersTimer nodes).AllPlaced :=
    ⟨State.start_ordered users usersTimer nodes, fun fd isOpen => absurd isOpen List.not_mem_nil⟩
  obtain ⟨ordered, placed⟩ := @run_invariant _ _ _ (step config)
    (fun state _ => state.Ordered ∧ state.AllPlaced) _
    (fun _ _ _ _ _ holds meets stepped =>
      have ⟨ordered, placed⟩ := holds.1.step meets.1 stepped
      ⟨ordered, placed holds.2 meets.2⟩) _ _ [] _ _ first meets ran
  exact ordered.once placed

/-- A server with room for one request, and one worker. -/
def narrow : Config where
  actorModel := 0
  threadNumber := 1
  maxRequests := 1
  connTrigMode := 0
  root := ascii "/root"

/-- One connection is accepted and its request is read. -/
def oneRead : List Label :=
  [.accept 7, .epollWait [(7, .readable)], .read [.data (ascii "G")]]

theorem served_once_narrow :
    ∃ last effects,
      run (step narrow) (State.start blankUsers blankTimers blankNodes) oneRead =
        some (last, effects) ∧ last.Once := by
  have runs :
      (run (step narrow) (State.start blankUsers blankTimers blankNodes) oneRead).isSome := by
    decide +kernel
  obtain ⟨⟨last, effects⟩, ran⟩ := Option.isSome_iff_exists.mp runs
  refine ⟨last, effects, ran, served_once narrow blankUsers blankTimers blankNodes ?_ ran⟩
  refine ⟨⟨trivial, trivial⟩, fun _ _ accepted => ?_⟩
  cases accepted
  refine ⟨⟨trivial, trivial⟩, fun _ _ waited => ?_⟩
  cases waited
  exact ⟨⟨trivial, fun _ _ _ _ => by decide +kernel⟩, fun _ _ _ => trivial⟩

/-- Two connections are read one after the other. -/
def twoReads : List Label :=
  [.accept 7, .accept 8, .epollWait [(7, .readable), (8, .readable)],
    .read [.data (ascii "G")], .read [.data (ascii "G")]]

/-- The second of them finds the queue full, and is in no situation any more. -/
theorem not_served_once :
    ¬∀ (config : Config) (users : Fd → HttpConn) (usersTimer : Fd → ClientData)
      (nodes : Addr → UtilTimer) (labels : List Label) (last : State) (effects : List Effect),
      0 < config.maxRequests →
      run (step config) (State.start users usersTimer nodes) labels = some (last, effects) →
      last.Once := by
  intro claim
  have ends : (run (step narrow) (State.start blankUsers blankTimers blankNodes) twoReads).map
      (fun last => (last.1.openFds, (last.1.armed 8).isNone,
        (last.1.queue ++ last.1.working).map Task.fd, last.1.pending.length)) =
          some ([8, 7], true, [7], 0) := by
    decide +kernel
  obtain ⟨⟨last, effects⟩, ran, facts⟩ := Option.map_eq_some_iff.mp ends
  simp only [Prod.mk.injEq] at facts
  obtain ⟨openFds, armed, tasks, pending⟩ := facts
  have isOpen : 8 ∈ last.openFds := by
    rw [openFds]
    decide
  obtain ⟨place, at_, _⟩ := (claim narrow blankUsers blankTimers blankNodes twoReads last effects
    Nat.zero_lt_one ran).place 8 isOpen
  have noTask : ∀ conn, (⟨8, conn⟩ : Task) ∉ last.queue ++ last.working := by
    intro conn member
    have isTask : 8 ∈ (last.queue ++ last.working).map Task.fd := List.mem_map_of_mem member
    rw [tasks] at isTask
    exact absurd isTask (by decide)
  cases place with
  | armed => exact at_ (Option.isNone_iff_eq_none.mp armed)
  | queued => exact noTask _ (List.mem_append_left _ at_)
  | working => exact noTask _ (List.mem_append_right _ at_)
  | handled =>
      rw [List.length_eq_zero_iff] at pending
      simp [State.At, pending] at at_

end TimeGANWebServer.Server
