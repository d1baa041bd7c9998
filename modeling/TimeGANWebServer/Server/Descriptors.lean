import Mathlib.Data.Finset.Card
import Mathlib.Data.Fintype.EquivFin
import Mathlib.Data.Nat.Find
import TimeGANWebServer.Server.EventLoop

/-!
# Descriptor numbers

`WebServer::dealclinetdata` with the numbers that `accept` gives it.  The kernel gives the
least number that no open descriptor of the process has: client descriptors, and others that
the process opens and closes at any time.  `dealclinetdata` looks at the count of connections,
and uses the number as an index into arrays of size `MAX_FD`.
-/

namespace TimeGANWebServer.Server

open TimeGANWebServer.Http TimeGANWebServer.Support TimeGANWebServer.Timer

/-! ## The least unused number -/

theorem exists_unused (used : Finset Nat) : ∃ number, number ∉ used :=
  Infinite.exists_notMem_finset used

/-- The least number that is not used. -/
def leastUnused (used : Finset Nat) : Nat :=
  Nat.find (exists_unused used)

/-- How many numbers below a bound are used. -/
def usedBelow (used : Finset Nat) (bound : Nat) : Nat :=
  (used.filter (· < bound)).card

/-- There is an unused number below a bound as long as fewer numbers are used there. -/
theorem leastUnused_lt_iff (used : Finset Nat) (bound : Nat) :
    leastUnused used < bound ↔ usedBelow used bound < bound := by
  constructor
  · intro below
    have unused : leastUnused used ∉ used := Nat.find_spec (exists_unused used)
    have proper : used.filter (· < bound) ⊂ Finset.range bound := by
      refine Finset.ssubset_iff_subset_ne.mpr ⟨fun number member => ?_, fun same => ?_⟩
      · exact Finset.mem_range.mpr (Finset.mem_filter.mp member).2
      · have member : leastUnused used ∈ Finset.range bound := Finset.mem_range.mpr below
        rw [← same] at member
        exact unused (Finset.mem_filter.mp member).1
    have fewer := Finset.card_lt_card proper
    rwa [Finset.card_range] at fewer
  · intro fewer
    by_contra above
    have all : Finset.range bound ⊆ used.filter (· < bound) := by
      intro number member
      have inRange := Finset.mem_range.mp member
      have isUsed : ¬number ∉ used :=
        Nat.find_min (exists_unused used) (Nat.lt_of_lt_of_le inRange (Nat.le_of_not_lt above))
      exact Finset.mem_filter.mpr ⟨not_not.mp isUsed, inRange⟩
    have least := Finset.card_le_card all
    rw [Finset.card_range] at least
    exact absurd fewer (Nat.not_lt.mpr least)

@[simp] theorem leastUnused_range (bound : Nat) : leastUnused (Finset.range bound) = bound := by
  rw [leastUnused, Nat.find_eq_iff]
  constructor
  · exact Finset.notMem_range_self
  · exact fun number below unused => unused (Finset.mem_range.mpr below)

/-! ## The process -/

/-- Where the main thread is: not in `dealclinetdata`, about to call `accept`, or behind an
`accept` that returned a descriptor, at which so many numbers below `MAX_FD` were in use. -/
inductive Phase where
  | idle
  | accepting
  | accepted (connfd : Fd) (below : Nat)
  deriving DecidableEq, Repr

/-- The server, and the descriptors of the process that are not connections of it. -/
structure Process where
  server : State
  phase : Phase
  others : Finset Fd

/-- The limit on descriptor numbers, and `m_LISTENTrigmode`. -/
structure Limits where
  descriptors : Nat
  listenTrigmode : Int

/-- The main thread calls `dealclinetdata`; its `accept` returns a descriptor, or fails; it goes
on with the descriptor; any other step of the server; and any other descriptor is opened or
closed. -/
inductive ProcessLabel where
  | listen
  | accept
  | acceptFails
  | serve
  | server (label : Label)
  | opens
  | closes (fd : Fd)

/-- A step of the server can be taken: the workers do not wait for the main thread. -/
def Phase.admits : Phase → Label → Bool
  | _, .accept _ => false
  | _, .dequeue => true
  | _, .process _ _ _ => true
  | phase, _ => phase = .idle

/-- A descriptor is an index of `users` and `users_timer`. -/
def InRange (fd : Fd) : Prop :=
  (fd : Int) < maxFd

instance (fd : Fd) : Decidable (InRange fd) :=
  inferInstanceAs (Decidable ((fd : Int) < maxFd))

namespace Process

/-- The process before the first connection, with the descriptors it has by then. -/
def start (server : State) (others : Finset Fd) : Process where
  server := server
  phase := .idle
  others := others

/-- The numbers of the open descriptors. -/
def used (process : Process) : Finset Fd :=
  process.server.openFds.toFinset ∪ process.others

/-- One step, and the indexes that `WebServer::timer` is called with. -/
def step (config : Config) (limits : Limits) (process : Process) :
    ProcessLabel → Option (Process × List Fd)
  | .listen =>
      if process.phase = .idle then some ({ process with phase := .accepting }, []) else none
  | .accept =>
      let connfd := leastUnused process.used
      if process.phase = .accepting ∧ connfd < limits.descriptors then
        some ({ process with
          phase := .accepted connfd (usedBelow process.used maxFd.toNat)
          others := insert connfd process.others }, [])
      else
        none
  | .acceptFails =>
      if process.phase = .accepting then some ({ process with phase := .idle }, []) else none
  | .serve =>
      match process.phase with
      | .accepted connfd _ =>
          let others := process.others.erase connfd
          -- `show_error` closes the descriptor
          if maxFd ≤ process.server.userCount then
            some ({ process with phase := .idle, others := others }, [])
          else
            some
              ({ server := process.server.dealclinetdata config connfd
                 phase := if limits.listenTrigmode = 0 then .idle else .accepting
                 others := others }, [connfd])
      | _ => none
  | .server label =>
      if process.phase.admits label then
        (Server.step config process.server label).map fun next =>
          ({ process with server := next.1 }, [])
      else
        none
  | .opens =>
      let fd := leastUnused process.used
      if fd < limits.descriptors then
        some ({ process with others := insert fd process.others }, [])
      else
        none
  | .closes fd => some ({ process with others := process.others.erase fd }, [])

/-- Behind the guard, a connection was accepted while fewer than `MAX_FD` of the numbers below
`MAX_FD` were in use. -/
def Roomy (process : Process) : ProcessLabel → Prop
  | .serve => ∀ connfd below, process.phase = .accepted connfd below →
      process.server.userCount < maxFd → (below : Int) < maxFd
  | _ => True

/-! ## Where the numbers come from -/

/-- The number of an accepted descriptor is within the limit, and is an index of the arrays
exactly if there was room. -/
def Numbered (limits : Limits) (process : Process) : Prop :=
  ∀ connfd below, process.phase = .accepted connfd below →
    connfd < limits.descriptors ∧ (InRange connfd ↔ (below : Int) < maxFd)

variable {config : Config} {limits : Limits} {process next : Process} {label : ProcessLabel}
  {indexes : List Fd}

theorem step_numbered (numbered : process.Numbered limits)
    (stepped : process.step config limits label = some (next, indexes)) :
    next.Numbered limits := by
  cases label with
  | listen =>
      simp only [step] at stepped
      split at stepped <;> cases stepped
      exact fun _ _ phase => Phase.noConfusion phase
  | accept =>
      simp only [step] at stepped
      split at stepped
      case isFalse => contradiction
      case isTrue possible =>
          cases stepped
          intro connfd below phase
          cases phase
          refine ⟨possible.2, ?_⟩
          have room := leastUnused_lt_iff process.used maxFd.toNat
          rw [InRange, maxFd]
          rw [maxFd] at room
          omega
  | acceptFails =>
      simp only [step] at stepped
      split at stepped <;> cases stepped
      exact fun _ _ phase => Phase.noConfusion phase
  | serve =>
      simp only [step] at stepped
      split at stepped
      · split at stepped <;> cases stepped
        · exact fun _ _ phase => Phase.noConfusion phase
        · intro connfd below phase
          simp only at phase
          split at phase <;> contradiction
      · contradiction
  | server label =>
      simp only [step] at stepped
      split at stepped
      · simp only [Option.map_eq_some_iff, Prod.mk.injEq] at stepped
        obtain ⟨after, _, rfl, _⟩ := stepped
        exact numbered
      · contradiction
  | opens =>
      simp only [step] at stepped
      split at stepped <;> cases stepped
      exact numbered
  | closes fd =>
      cases stepped
      exact numbered

/-- What a step calls `timer` with: only `serve` does. -/
theorem step_indexes (stepped : process.step config limits label = some (next, indexes)) :
    indexes = [] ∨ label = .serve ∧ process.server.userCount < maxFd ∧
      ∃ connfd below, process.phase = .accepted connfd below ∧ indexes = [connfd] := by
  cases label with
  | serve =>
      simp only [step] at stepped
      split at stepped
      case _ connfd below phase =>
          split at stepped <;> cases stepped
          · exact .inl rfl
          · rename_i room
            exact .inr ⟨rfl, Int.not_le.mp room, connfd, below, phase, rfl⟩
      · contradiction
  | server label =>
      simp only [step] at stepped
      split at stepped
      · simp only [Option.map_eq_some_iff, Prod.mk.injEq] at stepped
        obtain ⟨after, _, _, rfl⟩ := stepped
        exact .inl rfl
      · contradiction
  | closes fd =>
      cases stepped
      exact .inl rfl
  | listen | accept | acceptFails | opens =>
      simp only [step] at stepped
      split at stepped <;> cases stepped
      exact .inl rfl

/-- A step calls `timer` with indexes in range exactly if there was room. -/
theorem indexes_inRange_iff (numbered : process.Numbered limits)
    (stepped : process.step config limits label = some (next, indexes)) :
    (∀ connfd ∈ indexes, InRange connfd) ↔ process.Roomy label := by
  cases label with
  | serve =>
      rcases step_indexes stepped with rfl | ⟨_, guard_, connfd, below, phase, rfl⟩
      · simp only [step] at stepped
        split at stepped
        · split at stepped
          · rename_i busy
            refine iff_of_true (fun _ member => absurd member List.not_mem_nil) ?_
            exact fun _ _ _ free => absurd busy (Int.not_le.mpr free)
          · cases stepped
        · contradiction
      · rw [List.forall_mem_singleton, (numbered connfd below phase).2]
        constructor
        · intro room connfd' below' phase' _
          rw [phase, Phase.accepted.injEq] at phase'
          exact phase'.2 ▸ room
        · exact fun roomy => roomy connfd below phase guard_
  | listen | accept | acceptFails | server label | opens | closes fd =>
      have none_ : indexes = [] := by
        rcases step_indexes stepped with none_ | ⟨isServe, _⟩
        · exact none_
        · contradiction
      rw [none_]
      exact iff_of_true (fun _ member => absurd member List.not_mem_nil) trivial

/-! ## Runs -/

variable {first last : Process} {labels : List ProcessLabel}

theorem numbered_of_idle (idle : first.phase = .idle) : first.Numbered limits := by
  intro connfd below phase
  rw [idle] at phase
  contradiction

/-- A run calls `timer` with indexes in range exactly if each connection that passed the guard
was accepted while there was room below `MAX_FD`. -/
theorem inRange_iff_roomy (idle : first.phase = .idle)
    (ran : run (step config limits) first labels = some (last, indexes)) :
    (∀ connfd ∈ indexes, InRange connfd) ↔
      RunMeets (step config limits) Roomy first labels :=
  run_effects_iff (Numbered limits) InRange
    (fun _ _ _ _ numbered stepped => step_numbered numbered stepped)
    (fun _ _ _ _ numbered stepped => indexes_inRange_iff numbered stepped)
    (numbered_of_idle idle) ran

/-- A limit of at most `MAX_FD` descriptors is enough. -/
theorem inRange_of_limit (low : (limits.descriptors : Int) ≤ maxFd) (idle : first.phase = .idle)
    (ran : run (step config limits) first labels = some (last, indexes)) :
    ∀ connfd ∈ indexes, InRange connfd := by
  have keeps : ∀ (process : Process) (before : List Fd) (label : ProcessLabel) (next : Process)
      (after : List Fd),
      process.Numbered limits ∧ (∀ connfd ∈ before, InRange connfd) → True →
        process.step config limits label = some (next, after) →
          next.Numbered limits ∧ ∀ connfd ∈ before ++ after, InRange connfd := by
    intro process before label next after holds _ stepped
    refine ⟨step_numbered holds.1 stepped, List.forall_mem_append.mpr ⟨holds.2, ?_⟩⟩
    rcases step_indexes stepped with rfl | ⟨_, _, connfd, below, phase, rfl⟩
    · exact fun _ member => absurd member List.not_mem_nil
    · have within := (holds.1 connfd below phase).1
      rw [List.forall_mem_singleton]
      exact Int.lt_of_lt_of_le (Int.ofNat_lt.mpr within) low
  have start : first.Numbered limits ∧ ∀ connfd ∈ ([] : List Fd), InRange connfd :=
    ⟨numbered_of_idle idle, fun _ member => absurd member List.not_mem_nil⟩
  exact (run_invariant _ keeps start (RunMeets.always first labels) ran).2

/-! ## Many connections -/

/-- Level-triggered calls of `dealclinetdata` that find a connection each. -/
def connects : Nat → List ProcessLabel
  | 0 => []
  | count + 1 => .listen :: .accept :: .serve :: connects count

/-- The process with one more connection. -/
def connected (config : Config) (process : Process) (connfd : Fd) : Process :=
  { process with server := process.server.timer config connfd }

/-- The first numbers are in use, so the next one is given. -/
theorem used_connected {number : Nat} (dense : process.used = Finset.range number) :
    (process.connected config number).used = Finset.range (number + 1) := by
  have opened : (process.connected config number).server.openFds =
      number :: process.server.openFds := rfl
  rw [used, opened, List.toFinset_cons, Finset.insert_union, Finset.range_add_one, ← dense]
  rfl

variable {number count : Nat}

/-- A connection that the guard and the limit allow gets the next number. -/
theorem run_connect (levelTriggered : limits.listenTrigmode = 0) (idle : process.phase = .idle)
    (dense : process.used = Finset.range number) (guard_ : process.server.userCount < maxFd)
    (limit : number < limits.descriptors) :
    run (step config limits) process (connects 1) =
      some (process.connected config number, [number]) := by
  have least : leastUnused process.used = number := by rw [dense, leastUnused_range]
  have free : ¬maxFd ≤ process.server.userCount := Int.not_le.mpr guard_
  have unused : number ∉ process.others := by
    intro member
    have isUsed : number ∈ process.used := Finset.mem_union_right _ member
    rw [dense] at isUsed
    exact Finset.notMem_range_self isUsed
  let listening : Process := { process with phase := .accepting }
  let holding : Process :=
    { process with
      phase := .accepted number (usedBelow process.used maxFd.toNat)
      others := insert number process.others }
  have listened : process.step config limits .listen = some (listening, []) := by
    rw [step, if_pos idle]
  have accepted : listening.step config limits .accept = some (holding, []) := by
    have sameUsed : listening.used = process.used := rfl
    simp only [step, sameUsed, least]
    rw [if_pos ⟨rfl, limit⟩]
  have served : holding.step config limits .serve =
      some (process.connected config number, [number]) := by
    simp only [step, holding, if_neg free, State.dealclinetdata, levelTriggered, if_true,
      Finset.erase_insert unused, connected, idle]
  exact run_of_step listened (run_of_step accepted (run_singleton served))

/-- As long as the guard and the limit allow it, each connection gets the next number. -/
theorem run_connects (levelTriggered : limits.listenTrigmode = 0) (idle : process.phase = .idle)
    (dense : process.used = Finset.range number)
    (guard_ : process.server.userCount + count ≤ maxFd)
    (limit : number + count ≤ limits.descriptors) :
    ∃ last, run (step config limits) process (connects count) =
      some (last, List.range' number count) := by
  induction count generalizing process number with
  | zero => exact ⟨process, rfl⟩
  | succ count ih =>
      have connected_ : run (step config limits) process (connects 1) =
          some (process.connected config number, [number]) :=
        run_connect levelTriggered idle dense (by omega) (by omega)
      have counted : (process.connected config number).server.userCount + count ≤ maxFd := by
        have one_ : (process.connected config number).server.userCount =
            process.server.userCount + 1 := rfl
        omega
      have stillIdle : (process.connected config number).phase = .idle := idle
      obtain ⟨last, ran⟩ := ih stillIdle (used_connected dense) counted (by omega)
      exact ⟨last, run_of_runs connected_ ran⟩

/-- A server with eight descriptors before the first connection, as many as are reserved for it. -/
def running : Process :=
  start (State.start blankUsers blankTimers blankNodes) (Finset.range 8)

theorem used_running : running.used = Finset.range 8 :=
  Finset.empty_union (Finset.range 8)

/-- Some connections to it. -/
theorem run_running {count : Nat} (guard_ : (count : Int) ≤ maxFd) :
    ∃ last, run (step ⟨0, 8, 10000, 0, []⟩ ⟨65544, 0⟩) running (connects count) =
      some (last, List.range' 8 count) := by
  refine run_connects rfl rfl used_running ?_ ?_
  · have none_ : running.server.userCount = 0 := rfl
    omega
  · rw [maxFd] at guard_
    show 8 + count ≤ 65544
    omega

/-- A client connects and hangs up, and another one connects. -/
def reconnects : List ProcessLabel :=
  connects 1 ++ ([.server (.epollWait [(8, .hangup)]), .server .hangup] ++ connects 1)

/-- The second client gets the number of the first one. -/
theorem run_reconnects :
    ∃ last, run (step ⟨0, 8, 10000, 0, []⟩ ⟨65544, 0⟩) running reconnects =
      some (last, [8, 8]) := by
  have first : run (step ⟨0, 8, 10000, 0, []⟩ ⟨65544, 0⟩) running (connects 1) =
      some (running.connected ⟨0, 8, 10000, 0, []⟩ 8, [8]) :=
    run_connect rfl rfl used_running (by decide) (by decide)
  have hangsUp : (run (step ⟨0, 8, 10000, 0, []⟩ ⟨65544, 0⟩)
      (running.connected ⟨0, 8, 10000, 0, []⟩ 8)
      [.server (.epollWait [(8, .hangup)]), .server .hangup]).map (fun ran =>
        (ran.1.phase, ran.1.server.openFds, ran.1.others, ran.1.server.userCount, ran.2)) =
      some (.idle, [], Finset.range 8, 0, []) := by
    decide +kernel
  obtain ⟨⟨closed, made⟩, between, facts⟩ := Option.map_eq_some_iff.mp hangsUp
  simp only [Prod.mk.injEq] at facts
  obtain ⟨idle, openFds, others, userCount, rfl⟩ := facts
  have dense : closed.used = Finset.range 8 := by
    rw [used, openFds, others]
    exact Finset.empty_union (Finset.range 8)
  have second : run (step ⟨0, 8, 10000, 0, []⟩ ⟨65544, 0⟩) closed (connects 1) =
      some (closed.connected ⟨0, 8, 10000, 0, []⟩ 8, [8]) :=
    run_connect rfl idle dense (by rw [userCount]; decide) (by decide)
  exact ⟨_, run_of_runs first (run_of_runs between second)⟩

/-- Both clients get an index in range. -/
theorem inRange_iff_roomy_once :
    ∃ last indexes,
      run (step ⟨0, 8, 10000, 0, []⟩ ⟨65544, 0⟩) running reconnects = some (last, indexes) ∧
        indexes = [8, 8] ∧
        ((∀ connfd ∈ indexes, InRange connfd) ↔
          RunMeets (step ⟨0, 8, 10000, 0, []⟩ ⟨65544, 0⟩) Roomy running reconnects) := by
  obtain ⟨last, ran⟩ := run_reconnects
  exact ⟨last, _, ran, rfl, inRange_iff_roomy rfl ran⟩

/-- With as many descriptors as `MAX_FD` and those the server has itself, connection 65529 gets
the number `MAX_FD`, and the guard lets it pass. -/
theorem not_inRange :
    ¬∀ (config : Config) (limits : Limits) (first last : Process) (labels : List ProcessLabel)
        (indexes : List Fd),
      first.phase = .idle → first.server.openFds = [] → first.server.userCount = 0 →
        maxFd + first.others.card ≤ limits.descriptors →
          run (step config limits) first labels = some (last, indexes) →
            ∀ connfd ∈ indexes, InRange connfd := by
  intro claim
  obtain ⟨last, ran⟩ := run_running (by decide : ((65529 : Nat) : Int) ≤ maxFd)
  have reserved : maxFd + running.others.card ≤ ((65544 : Nat) : Int) := by
    rw [running, start, Finset.card_range]
    decide
  have member : 65536 ∈ List.range' 8 65529 := List.mem_range'_1.mpr (by omega)
  have inRange := claim _ _ running last _ _ rfl rfl rfl reserved ran 65536 member
  exact absurd inRange (by decide)

end Process

end TimeGANWebServer.Server
