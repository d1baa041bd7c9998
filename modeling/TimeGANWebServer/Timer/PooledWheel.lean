import TimeGANWebServer.Support.Refinement
import TimeGANWebServer.Lock.LinkedPool
import TimeGANWebServer.Timer.Pooled
import TimeGANWebServer.Timer.Renaming
import TimeGANWebServer.Timer.WheelLists

/-!
# The wheel in the memory of its pool

The functions of `timer/lst_timer.cpp` once more, with `operator new` and `operator delete` of
`util_timer`, which call `MemoryPool::allocate` and `MemoryPool::deallocate`.  The nodes lie in the
slots of the pool's blocks, and what is left of these is linked by addresses in the slots
themselves.  The wheel and the pool of `Timer/Pooled.lean` do the same with numbers for addresses.
-/

namespace TimeGANWebServer.Timer

open TimeGANWebServer.Lock TimeGANWebServer.Support

/-- `sizeof(util_timer)`. -/
def nodeSize : Nat := 48

/-- The template argument `BlockSize` of `util_timer::m_pool`. -/
abbrev poolBlockSize : Nat := 4096

/-- `m_timer_lst` and `util_timer::m_pool`. -/
structure PooledWheel where
  wheel : LinkedWheel Nat
  session : PoolSession

/-- What a call does: `add_timer` returns a pointer, `del_timer` deletes a node, and `tick` calls
callbacks with some user data. -/
inductive TimerEvent where
  | added (timer : Option Nat) (timeout : Int) (data : Nat)
  | deleted (timer : Nat)
  | ticked (called : List Nat)
  deriving DecidableEq, Repr

/-- The same event with other addresses. -/
def TimerEvent.rename (rename : Nat → Nat) : TimerEvent → TimerEvent
  | .added timer timeout data => .added (timer.map rename) timeout data
  | .deleted timer => .deleted (rename timer)
  | .ticked called => .ticked called

/-- The event speaks of numbers below a bound only. -/
def TimerEvent.Below (bound : Nat) : TimerEvent → Prop
  | .added (some timer) _ _ | .deleted timer => timer < bound
  | .added none _ _ | .ticked _ => True

theorem TimerEvent.Below.mono {bound more : Nat} {event : TimerEvent} (below : event.Below bound)
    (grown : bound ≤ more) : event.Below more := by
  cases event with
  | added timer =>
      cases timer with
      | none => trivial
      | some timer => exact Nat.lt_of_lt_of_le below grown
  | deleted timer => exact Nat.lt_of_lt_of_le below grown
  | ticked => trivial

theorem TimerEvent.rename_congr {bound : Nat} {event : TimerEvent} {left right : Nat → Nat}
    (below : event.Below bound) (same : ∀ number < bound, left number = right number) :
    event.rename left = event.rename right := by
  cases event with
  | added timer =>
      cases timer with
      | none => rfl
      | some timer => simp only [TimerEvent.rename, Option.map_some, same timer below]
  | deleted timer => simp only [TimerEvent.rename, same timer below]
  | ticked => rfl

/-- A call of a function of the wheel, or the program writes a byte, such as one of a node. -/
inductive PooledCall where
  | add (block : Option Nat) (timeout : Int) (data : Nat)
  | del (timer : Nat)
  | tick
  | write (address : Nat) (byte : UInt8)
  deriving DecidableEq, Repr

/-- A call of a function of the wheel where nodes have numbers. -/
inductive TimersCall where
  | add (timeout : Int) (data : Nat)
  | remove (timer : Nat)
  | tick
  deriving DecidableEq, Repr

namespace PooledWheel

/-! ## The functions -/

/-- Both before they are used, in a memory with any contents. -/
def start (mem : Memory) : PooledWheel where
  wheel := LinkedWheel.start
  session := PoolSession.start mem

/-- `operator delete`. -/
def operatorDelete (session : PoolSession) (p : Nat) : Option PoolSession :=
  (session.step nodeSize poolBlockSize (.deallocate p)).map Prod.fst

/-- `time_wheel::add_timer`.  The program ends where `operator new` throws. -/
def add (pooled : PooledWheel) (block : Option Nat) (timeout : Int) (data : Nat) :
    Option (PooledWheel × List TimerEvent) :=
  if timeout < 0 then
    some (pooled, [.added none timeout data])
  else
    match pooled.session.step nodeSize poolBlockSize (.allocate block) with
    | some (session, [p]) =>
        (pooled.wheel.addTimer p timeout data).map fun added =>
          ({ wheel := added.2, session := session }, [.added added.1 timeout data])
    | _ => none

/-- `time_wheel::del_timer`, of a pointer that is not null. -/
def del (pooled : PooledWheel) (timer : Nat) : Option (PooledWheel × List TimerEvent) := do
  let wheel ← pooled.wheel.delTimer (some timer)
  let session ← operatorDelete pooled.session timer
  some ({ wheel := wheel, session := session }, [.deleted timer])

/-- The loop of `time_wheel::tick`. -/
def tickLoop : Nat → PooledWheel → Option Nat → Option (PooledWheel × List Nat)
  | 0, _, _ => none
  | _ + 1, pooled, none => some (pooled, [])
  | bound + 1, pooled, some tmp => do
      let node ← pooled.wheel.heap tmp
      if 0 < node.rotation then
        let wheel ← pooled.wheel.store (some tmp) fun node =>
          { node with rotation := node.rotation - 1 }
        let node ← wheel.heap tmp
        tickLoop bound { pooled with wheel := wheel } node.next
      else
        let (wheel, next) ← pooled.wheel.unlink tmp
        let session ← operatorDelete pooled.session tmp
        let (pooled, called) ← tickLoop bound { wheel := wheel, session := session } next
        some (pooled, node.userData :: called)

/-- `time_wheel::tick`.  It passes through its loop once for each node of a list, and once more. -/
def tick (pooled : PooledWheel) : Option (PooledWheel × List TimerEvent) := do
  let (pooled, called) ← tickLoop (pooled.session.allocated.length + 1) pooled
    (pooled.wheel.slots pooled.wheel.curSlot)
  let wheel := { pooled.wheel with curSlot := Fin.ofNat N (pooled.wheel.curSlot + 1) }
  some ({ pooled with wheel := wheel }, [.ticked called])

/-- One call. -/
def step (pooled : PooledWheel) : PooledCall → Option (PooledWheel × List TimerEvent)
  | .add block timeout data => pooled.add block timeout data
  | .del timer => pooled.del timer
  | .tick => pooled.tick
  | .write address byte =>
      (pooled.session.step nodeSize poolBlockSize (.write address byte)).map fun next =>
        ({ pooled with session := next.1 }, [])

end PooledWheel

namespace Timers

/-- A tick with the deletion of the nodes that fire. -/
def tick (timers : Timers) : Timers :=
  timers.wheel.tick.fired.foldl free timers.ticked

@[simp] theorem wheel_foldl_free (timers : Timers) (numbers : List Nat) :
    (numbers.foldl free timers).wheel = timers.wheel := by
  induction numbers generalizing timers with
  | nil => rfl
  | cons number rest ih => exact ih (timers.free number)

@[simp] theorem pool_foldl_free (timers : Timers) (numbers : List Nat) :
    (numbers.foldl free timers).pool = numbers.foldl MemoryPool.deallocate timers.pool := by
  induction numbers generalizing timers with
  | nil => rfl
  | cons number rest ih => exact ih (timers.free number)

/-- Nodes in use that are not in the wheel are freed, each once. -/
theorem WF.foldl_free {timers : Timers} (wf : timers.WF) {numbers : List Nat}
    (nodup : numbers.Nodup) (inUse : ∀ number ∈ numbers,
      ¬timers.wheel.Linked number ∧ timers.pool.Allocated number) :
    (numbers.foldl Timers.free timers).WF ∧
      ∀ other, (numbers.foldl Timers.free timers).pool.Allocated other ↔
        other ∉ numbers ∧ timers.pool.Allocated other := by
  induction numbers generalizing timers with
  | nil => exact ⟨wf, fun other => by simp only [List.foldl_nil, List.not_mem_nil,
      not_false_eq_true, true_and]⟩
  | cons number rest ih =>
      obtain ⟨fresh, restNodup⟩ := List.nodup_cons.mp nodup
      obtain ⟨unlinked, allocated⟩ := inUse number List.mem_cons_self
      have others := (wf.pool.deallocate allocated).2
      obtain ⟨after, left⟩ := ih (wf.free unlinked allocated) restNodup fun other member =>
        ⟨(inUse other (List.mem_cons_of_mem number member)).1, (others other).mpr
          ⟨fun same => fresh (same ▸ member), (inUse other (List.mem_cons_of_mem number member)).2⟩⟩
      refine ⟨after, fun other => ?_⟩
      have freed : (timers.free number).pool.Allocated other ↔
          other ≠ number ∧ timers.pool.Allocated other := others other
      rw [List.foldl_cons, left other, freed, List.mem_cons, not_or]
      tauto

/-- After a tick the nodes that fired are no longer in use. -/
theorem WF.tick {timers : Timers} (wf : timers.WF) :
    timers.tick.WF ∧ ∀ number, timers.tick.pool.Allocated number ↔
      number ∉ timers.wheel.tick.fired ∧ timers.pool.Allocated number := by
  obtain ⟨ticked, nodup, inUse, -⟩ := wf.ticked
  exact ticked.foldl_free nodup inUse

/-- One call. -/
def step (timers : Timers) : TimersCall → Option (Timers × List TimerEvent)
  | .add timeout data =>
      if timeout < 0 then
        some (timers, [.added none timeout data])
      else
        (timers.add timeout data).map fun added =>
          (added.2, [.added (some added.1) timeout data])
  | .remove timer => some (timers.remove timer, [.deleted timer])
  | .tick =>
      some (timers.tick,
        [.ticked (timers.wheel.tick.fired.map fun timer => (timers.wheel.timers timer).userData)])

end Timers

namespace PooledWheel

/-- The address of a node from its number. -/
def address (pooled : PooledWheel) (number : Nat) : Nat :=
  PoolSession.addressOf nodeSize poolBlockSize pooled.session.pool.blocks number

/-! ## Deleting nodes -/

/-- Some nodes are deleted, one after the other. -/
def deleteAll : PoolSession → List Nat → Option PoolSession
  | session, [] => some session
  | session, p :: rest => (operatorDelete session p).bind fun session => deleteAll session rest

theorem operatorDelete_eq {session : PoolSession} {p : Nat} (allocated : p ∈ session.allocated) :
    operatorDelete session p =
      some { pool := session.pool.deallocate p, allocated := session.allocated.erase p } := by
  rw [operatorDelete, PoolSession.step, if_pos allocated]
  rfl

/-- The nodes of some numbers, each in use, are deleted in the pool of numbers and in memory. -/
theorem deleteAll_represents {session : PoolSession} {pool : MemoryPool poolBlockSize}
    (represents : session.Represents nodeSize pool) {numbers : List Nat} (nodup : numbers.Nodup)
    (inUse : ∀ number ∈ numbers, pool.Allocated number) :
    ∃ after, deleteAll session
        (numbers.map (PoolSession.addressOf nodeSize poolBlockSize session.pool.blocks)) =
          some after ∧
      after.Represents nodeSize (numbers.foldl MemoryPool.deallocate pool) ∧
      after.pool.blocks = session.pool.blocks := by
  induction numbers generalizing session pool with
  | nil => exact ⟨session, rfl, represents, rfl⟩
  | cons number rest ih =>
      obtain ⟨fresh, restNodup⟩ := List.nodup_cons.mp nodup
      have allocated := inUse number List.mem_cons_self
      have isSlot := (represents.allocated_iff (by decide) _).mpr ⟨number, allocated, rfl⟩
      obtain ⟨after, deleted, afterRepresents, sameBlocks⟩ := ih
        (represents.deallocate (by decide) allocated) restNodup fun other member =>
          ((represents.wf.deallocate allocated).2 other).mpr
            ⟨fun same => fresh (same ▸ member), inUse other (List.mem_cons_of_mem number member)⟩
      refine ⟨after, ?_, afterRepresents, sameBlocks⟩
      rw [List.map_cons, deleteAll, operatorDelete_eq isSlot]
      exact deleted

/-! ## The loop -/

section Loop

variable {wheel : LinkedWheel Nat} {session : PoolSession} {timer : Nat}
  {node : TimerNode Nat}

theorem tickLoop_lowered {bound : Nat} (found : wheel.heap timer = some node)
    (left : 0 < node.rotation) :
    tickLoop (bound + 1) ⟨wheel, session⟩ (some timer) =
      tickLoop bound ⟨wheel.lowered timer node, session⟩ node.next := by
  have stored : wheel.store (some timer)
      (fun node => { node with rotation := node.rotation - 1 }) =
        some (wheel.lowered timer node) := LinkedWheel.store_eq _ found
  have again : (wheel.lowered timer node).heap timer =
      some { node with rotation := node.rotation - 1 } := Function.update_self _ _ _
  simp only [tickLoop, found, Option.bind_eq_bind, Option.bind_some, if_pos left, stored, again]

theorem tickLoop_removed {bound : Nat} {next : PooledWheel} {called : List Nat}
    {deleted : PoolSession} (removable : wheel.Removable timer node)
    (atSlot : node.timeSlot = wheel.curSlot) (due : ¬0 < node.rotation)
    (deletes : operatorDelete session timer = some deleted)
    (ran : tickLoop bound ⟨wheel.remove timer node, deleted⟩ node.next = some (next, called)) :
    tickLoop (bound + 1) ⟨wheel, session⟩ (some timer) = some (next, node.userData :: called) := by
  simp only [tickLoop, removable.found, Option.bind_eq_bind, Option.bind_some, if_neg due,
    removable.unlink atSlot, deletes, ran]

/-- The loop deletes the nodes that do not stay, in their order, and does to the wheel what it does
without a pool. -/
theorem tickLoop_eq {lists : Fin N → List Nat} {kept rest : List Nat} {bound : Nat}
    {after : PoolSession} (holds : wheel.Lists lists)
    (split : lists wheel.curSlot = kept ++ rest) (enough : rest.length < bound)
    (deleted : deleteAll session (rest.filter fun timer => !wheel.stays timer) = some after) :
    ∃ next called, LinkedWheel.tickLoop bound wheel rest.head? = some (next, called) ∧
      tickLoop bound ⟨wheel, session⟩ rest.head? = some (⟨next, after⟩, called) := by
  induction rest generalizing wheel session lists kept bound with
  | nil =>
      obtain ⟨bound, rfl⟩ := Nat.exists_eq_add_one_of_ne_zero (Nat.ne_of_gt enough)
      cases deleted
      exact ⟨wheel, [], rfl, rfl⟩
  | cons timer rest ih =>
      obtain ⟨bound, rfl⟩ :=
        Nat.exists_eq_add_one_of_ne_zero (Nat.ne_of_gt (Nat.zero_lt_of_lt enough))
      have enoughLeft : rest.length < bound := Nat.lt_of_succ_lt_succ enough
      have member : timer ∈ lists wheel.curSlot := by
        rw [split]
        exact List.mem_append_right kept List.mem_cons_self
      have nodup := holds.nodup wheel.curSlot
      rw [split] at nodup
      have fresh : timer ∉ rest := (List.nodup_cons.mp (List.nodup_append.mp nodup).2.1).1
      obtain ⟨node, found, atSlot⟩ := holds.inUse member
      have isNext : node.next = rest.head? := (holds.pointers split found).2
      have isFields : wheel.payload timer = some node.toUtilTimer := by
        rw [LinkedWheel.payload, found, Option.map_some]
      -- A pass does not change what the others read.
      have reads : ∀ {first : LinkedWheel Nat} {fields : Option UtilTimer},
          first.payload = Function.update wheel.payload timer fields →
          rest.filter (fun later => !first.stays later) =
            rest.filter fun later => !wheel.stays later := by
        intro first fields changed
        refine List.filter_congr fun later inRest => ?_
        have apart : later ≠ timer := fun isTimer => fresh (isTimer ▸ inRest)
        rw [LinkedWheel.stays, LinkedWheel.stays, changed, Function.update_of_ne apart]
      by_cases left : 0 < node.rotation
      · have stay : wheel.stays timer = true := by
          simp only [LinkedWheel.stays, isFields, Option.any_some, left, decide_true]
        rw [List.filter_cons_of_neg (by simp [stay]), ← reads LinkedWheel.lowered_payload]
          at deleted
        have splitOn : lists (wheel.lowered timer node).curSlot = (kept ++ [timer]) ++ rest := by
          rw [List.append_assoc]
          exact split
        obtain ⟨next, called, ran, both⟩ := ih (holds.lowered found) splitOn enoughLeft deleted
        refine ⟨next, called, ?_, ?_⟩
        · rw [List.head?_cons, LinkedWheel.tickLoop_lowered found left, isNext, ran]
        · rw [List.head?_cons, tickLoop_lowered found left, isNext, both]
      · have goes : wheel.stays timer = false := by
          simp only [LinkedWheel.stays, isFields, Option.any_some, left, decide_false]
        rw [List.filter_cons_of_pos (by simp [goes]), deleteAll,
          ← reads (LinkedWheel.remove_payload : (wheel.remove timer node).payload = _)] at deleted
        obtain ⟨without, deletes, others⟩ := Option.bind_eq_some_iff.mp deleted
        have notInKept : timer ∉ kept := fun again =>
          List.disjoint_of_nodup_append nodup again List.mem_cons_self
        have splitOn : Function.update lists wheel.curSlot ((lists wheel.curSlot).erase timer)
            (wheel.remove timer node).curSlot = kept ++ rest := by
          have erased : (lists wheel.curSlot).erase timer = kept ++ rest := by
            rw [split, List.erase_append_right (timer :: rest) notInKept, List.erase_cons_head]
          rw [← erased]
          exact Function.update_self _ _ _
        obtain ⟨next, called, ran, both⟩ :=
          ih (holds.remove member found) splitOn enoughLeft others
        have removable := holds.removable member found
        rw [← isNext] at ran both
        exact ⟨next, node.userData :: called,
          LinkedWheel.tickLoop_removed removable atSlot left ran,
          tickLoop_removed removable atSlot left deletes both⟩

end Loop

/-! ## The wheel with its pool of numbers -/

/-- What is allocated in the pool are the nodes of the wheel, at the addresses of their numbers. -/
structure Represents (pooled : PooledWheel) (timers : Timers) : Prop where
  wf : timers.WF
  session : pooled.session.Represents nodeSize timers.pool
  wheel : ∃ other, pooled.wheel.Represents other ∧ timers.wheel.Renames pooled.address other
  linked : ∀ number, timers.pool.Allocated number → timers.wheel.Linked number
  inUse : ∀ p, pooled.wheel.heap p ≠ none → p ∈ pooled.session.allocated

namespace Represents

variable {pooled next : PooledWheel} {timers : Timers} {events : List TimerEvent}

theorem start (mem : Memory) (nodes : Nat → UtilTimer) :
    (PooledWheel.start mem).Represents (Timers.start nodes) where
  wf := Timers.start_wf nodes
  session := ⟨PoolSession.sound_start mem, MemoryPool.empty_wf, rfl, rfl⟩
  wheel := ⟨TimeWheel.empty nodes, LinkedWheel.Represents.start nodes, .empty nodes nodes⟩
  linked := fun _ allocated => absurd allocated.1 (by simp [Timers.start, MemoryPool.empty])
  inUse := fun _ used => absurd rfl used

theorem linked_iff (represents : pooled.Represents timers) (number : Nat) :
    timers.wheel.Linked number ↔ timers.pool.Allocated number :=
  ⟨represents.wf.allocated number, represents.linked number⟩

/-- Two nodes have two addresses. -/
theorem injOn_address (represents : pooled.Represents timers) :
    Set.InjOn pooled.address { number | timers.pool.Allocated number } := by
  intro left leftAllocated right rightAllocated same
  have leftBelow := leftAllocated.1
  have rightBelow := rightAllocated.1
  rw [represents.session.blocks] at leftBelow rightBelow
  exact represents.session.sound.addressOf_inj (by decide) leftBelow rightBelow same

theorem injOn_linked (represents : pooled.Represents timers) :
    Set.InjOn pooled.address { number | timers.wheel.Linked number } :=
  represents.injOn_address.mono fun number linked => represents.wf.allocated number linked

/-- The slots in use are the nodes in the heap. -/
theorem inUse_iff (represents : pooled.Represents timers) (p : Nat) :
    pooled.wheel.heap p ≠ none ↔ p ∈ pooled.session.allocated := by
  refine ⟨represents.inUse p, fun allocated => ?_⟩
  obtain ⟨number, inPool, rfl⟩ := (represents.session.allocated_iff (by decide) p).mp allocated
  obtain ⟨other, wheel, renames⟩ := represents.wheel
  obtain ⟨slot, member⟩ := renames.linked (represents.linked number inPool)
  exact wheel.lists.allocated member

/-- `del_timer` of a node takes it out of the wheel and gives its slot back. -/
theorem del (represents : pooled.Represents timers) {number : Nat}
    (linked : timers.wheel.Linked number) :
    ∃ next, pooled.del (pooled.address number) =
        some (next, [.deleted (pooled.address number)]) ∧
      next.Represents (timers.remove number) ∧
      next.session.pool.blocks = pooled.session.pool.blocks := by
  obtain ⟨other, wheel, renames⟩ := represents.wheel
  have allocated := represents.wf.allocated number linked
  obtain ⟨data, found⟩ := (timers.linked_iff number).mp linked
  have isSlot : pooled.address number ∈ pooled.session.allocated :=
    (represents.session.allocated_iff (by decide) _).mpr ⟨number, allocated, rfl⟩
  obtain ⟨after, deleted, afterWheel⟩ := wheel.delTimer (renames.linked linked)
  obtain ⟨slot, member⟩ := renames.linked linked
  obtain ⟨same, isSame, -, -, payload⟩ := wheel.lists.deletes slot _ member
  rw [deleted, Option.some.injEq] at isSame
  subst isSame
  have links := represents.wf.wheel.linked_delTimer number
  refine ⟨{ wheel := after, session :=
    { pool := pooled.session.pool.deallocate _, allocated := _ } },
    ?_, ⟨(represents.wf.remove found).1, represents.session.deallocate (by decide) allocated,
      ⟨_, afterWheel, renames.delTimer represents.wf.wheel represents.injOn_linked linked⟩,
      fun later inPool => ?_, fun p used => ?_⟩, rfl⟩
  · simp only [PooledWheel.del, deleted, operatorDelete_eq isSlot, Option.bind_eq_bind,
      Option.bind_some]
    rfl
  · obtain ⟨different, before⟩ := ((represents.session.wf.deallocate allocated).2 later).mp inPool
    exact (links later).mpr ⟨different, represents.linked later before⟩
  · have usedPayload : after.payload p ≠ none := by
      rw [LinkedWheel.payload, ne_eq, Option.map_eq_none_iff]
      exact used
    rw [payload] at usedPayload
    have different : p ≠ pooled.address number := by
      rintro rfl
      exact usedPayload (Function.update_self _ _ _)
    rw [Function.update_of_ne different, LinkedWheel.payload, ne_eq, Option.map_eq_none_iff]
      at usedPayload
    exact (List.mem_erase_of_ne different).mpr (represents.inUse p usedPayload)

/-- The nodes that `tick` deletes are those that fire. -/
theorem filter_stays {wheel : LinkedWheel Nat} {other : TimeWheel Nat}
    (represents : wheel.Represents other) :
    (other.slots other.curSlot).filter (fun timer => !wheel.stays timer) = other.tick.fired := by
  rw [TimeWheel.tick, TimeWheel.tickList_fired _ _ (represents.lists.nodup _)]
  refine List.filter_congr fun timer member => ?_
  rw [LinkedWheel.stays, represents.fields _ timer member, Option.any_some]
  by_cases left : 0 < (other.timers timer).rotation
  · have nonzero : ¬(other.timers timer).rotation = 0 := Nat.ne_of_gt left
    simp only [left, nonzero, decide_true, decide_false, Bool.not_true]
  · have zero : (other.timers timer).rotation = 0 := Nat.eq_zero_of_not_pos left
    simp only [zero, Nat.lt_irrefl, decide_true, decide_false, Bool.not_false]

/-- `tick` returns; it calls the callbacks of the nodes that fire, and gives their slots back. -/
theorem tick (represents : pooled.Represents timers) :
    ∃ next, pooled.tick = some (next, [.ticked (timers.wheel.tick.fired.map fun timer =>
        (timers.wheel.timers timer).userData)]) ∧
      next.Represents timers.tick ∧
      next.session.pool.blocks = pooled.session.pool.blocks := by
  obtain ⟨other, wheel, renames⟩ := represents.wheel
  have fires := represents.wf.wheel.mem_fired
  obtain ⟨afterWF, left⟩ := represents.wf.tick
  obtain ⟨sameFired, afterRenames⟩ :=
    renames.tick represents.wf.wheel wheel.wf represents.injOn_linked
  -- The list of the slot is no longer than there are nodes.
  have inSlots : other.slots other.curSlot ⊆ pooled.session.allocated := fun p member =>
    represents.inUse p (wheel.lists.allocated member)
  have enough : (other.slots other.curSlot).length < pooled.session.allocated.length + 1 :=
    Nat.lt_succ_of_le (List.subperm_of_subset (wheel.lists.nodup _) inSlots).length_le
  -- The nodes that fire are deleted.
  have firedInUse : ∀ number ∈ timers.wheel.tick.fired, timers.pool.Allocated number :=
    fun number fired => represents.wf.allocated number ⟨_, ((fires number).mp fired).1⟩
  obtain ⟨session, deleted, afterSession, sameBlocks⟩ :=
    deleteAll_represents represents.session represents.wf.wheel.fired_nodup firedInUse
  have gone : deleteAll pooled.session ((other.slots pooled.wheel.curSlot).filter
      fun timer => !pooled.wheel.stays timer) = some session := by
    rw [wheel.curSlot, filter_stays wheel, sameFired]
    exact deleted
  have enoughHere : (other.slots pooled.wheel.curSlot).length <
      pooled.session.allocated.length + 1 := by
    rw [wheel.curSlot]
    exact enough
  obtain ⟨looped, called, ran, both⟩ :=
    PooledWheel.tickLoop_eq wheel.lists (List.nil_append _).symm enoughHere gone
  -- Without a pool the wheel does the same.
  obtain ⟨after, ticks, afterWheel⟩ := wheel.tick enough
  obtain ⟨same, isSame, -, -, payload⟩ := wheel.lists.ticks _ enoughHere
  rw [ticks, Option.some.injEq, Prod.mk.injEq] at isSame
  obtain ⟨rfl, -⟩ := isSame
  rw [LinkedWheel.tick, wheel.lists.slots_eq, Option.bind_eq_bind, ran, Option.bind_some,
    Option.some.injEq, Prod.mk.injEq] at ticks
  obtain ⟨isAfter, isCalled⟩ := ticks
  have sameData : other.tick.fired.map (fun timer => (other.timers timer).userData) =
      timers.wheel.tick.fired.map fun timer => (timers.wheel.timers timer).userData := by
    rw [sameFired, List.map_map]
    refine List.map_congr_left fun number fired => ?_
    rw [Function.comp_apply, renames.timers number ⟨_, ((fires number).mp fired).1⟩]
  refine ⟨{ wheel := after, session := session }, ?_, ⟨afterWF, ?_, ⟨_, afterWheel, ?_⟩,
    fun number inPool => ?_, fun p used => ?_⟩, sameBlocks⟩
  · rw [PooledWheel.tick, wheel.lists.slots_eq, Option.bind_eq_bind, both, Option.bind_some,
      isCalled, sameData, ← isAfter]
  · rw [Timers.tick, Timers.pool_foldl_free]
    exact afterSession
  · rw [Timers.tick, Timers.wheel_foldl_free]
    refine afterRenames.congr fun number _ => ?_
    rw [PooledWheel.address, PooledWheel.address, sameBlocks]
  · obtain ⟨notFired, before⟩ := (left number).mp inPool
    rw [Timers.tick, Timers.wheel_foldl_free]
    exact (represents.wf.wheel.linked_tick number).mpr
      ⟨represents.linked number before, fun due => notFired ((fires number).mpr due)⟩
  · have usedPayload : after.payload p ≠ none := by
      rw [LinkedWheel.payload, ne_eq, Option.map_eq_none_iff]
      exact used
    rw [payload p] at usedPayload
    have usedBefore : pooled.wheel.payload p ≠ none := by
      intro free
      rw [free, Option.bind_none, ite_self] at usedPayload
      exact usedPayload rfl
    have notDeleted : p ∉ other.tick.fired := by
      rw [← filter_stays wheel, List.mem_filter, not_and]
      intro member goes
      rw [wheel.curSlot, if_pos member] at usedPayload
      obtain ⟨fields, isFields⟩ := Option.ne_none_iff_exists'.mp usedBefore
      rw [LinkedWheel.stays, isFields, Option.any_some, Bool.not_eq_true', decide_eq_false_iff_not]
        at goes
      rw [isFields, Option.bind_some, LinkedWheel.turn, if_neg goes] at usedPayload
      exact usedPayload rfl
    have allocated : p ∈ pooled.session.allocated := by
      rw [LinkedWheel.payload, ne_eq, Option.map_eq_none_iff] at usedBefore
      exact represents.inUse p usedBefore
    obtain ⟨number, inPool, isAddress⟩ :=
      (represents.session.allocated_iff (by decide) p).mp allocated
    have staying : timers.tick.pool.Allocated number := by
      refine (left number).mpr ⟨fun fired => notDeleted ?_, inPool⟩
      rw [sameFired, isAddress]
      exact List.mem_map_of_mem fired
    rw [Timers.tick, Timers.pool_foldl_free] at staying
    refine (afterSession.allocated_iff (by decide) p).mpr ⟨number, staying, ?_⟩
    rw [isAddress, sameBlocks]

/-- The slots of further blocks have further numbers. -/
theorem addressOf_append {size blockSize number : Nat} {blocks : List Nat} (more : List Nat)
    (below : number < blocks.length * blockSize) :
    PoolSession.addressOf size blockSize (blocks ++ more) number =
      PoolSession.addressOf size blockSize blocks number := by
  have inBlocks : number < (LinkedPool.slots size blockSize blocks).length := by
    rwa [PoolSession.length_slots]
  have grown : LinkedPool.slots size blockSize (blocks ++ more) =
      LinkedPool.slots size blockSize blocks ++ LinkedPool.slots size blockSize more := by
    simp [LinkedPool.slots]
  rw [PoolSession.addressOf, PoolSession.addressOf, grown, List.getD_eq_getElem?_getD,
    List.getD_eq_getElem?_getD, List.getElem?_append_left inBlocks]

theorem blocks_of_allocate {pool taken : LinkedPool} {block : Option Nat} {p : Nat}
    (takes : pool.allocate nodeSize poolBlockSize block = some (p, taken)) :
    ∃ more, taken.blocks = pool.blocks ++ more := by
  simp only [LinkedPool.allocate] at takes
  split at takes
  · cases takes
    exact ⟨[], (List.append_nil _).symm⟩
  · cases block with
    | none => contradiction
    | some base =>
        cases takes
        exact ⟨[base], rfl⟩

/-- `add_timer` puts a node into a slot of the pool that is not in use. -/
theorem add (represents : pooled.Represents timers) {timeout : Int} {data : Nat}
    (nonneg : ¬timeout < 0) {block : Option Nat} {p : Nat} {taken : LinkedPool}
    (fresh : ∀ base ∈ block, pooled.session.pool.Fresh nodeSize poolBlockSize base)
    (takes : pooled.session.pool.allocate nodeSize poolBlockSize block = some (p, taken)) :
    ∃ wheel after, pooled.wheel.addTimer p timeout data = some (some p, wheel) ∧
      timers.add timeout data = some (timers.pool.allocate.1, after) ∧
      after.pool.Allocated timers.pool.allocate.1 ∧
      let next : PooledWheel :=
        { wheel := wheel, session := { pool := taken, allocated := p :: pooled.session.allocated } }
      p = next.address timers.pool.allocate.1 ∧ next.Represents after := by
  obtain ⟨other, wheel, renames⟩ := represents.wheel
  obtain ⟨isAddress, afterSession⟩ :=
    represents.session.allocate (by decide) (by decide) fresh takes
  have unused := (represents.session.sound.allocate (by decide) (by decide) fresh takes).2.1
  obtain ⟨more, grown⟩ := blocks_of_allocate takes
  obtain ⟨poolWF, unallocated, allocated⟩ := represents.session.wf.allocate (by decide)
  obtain ⟨number, afterTimers, added, afterWF, -⟩ :=
    represents.wf.add (Int.not_lt.mp nonneg) data
  obtain ⟨list, isList, isAfter⟩ := Option.map_eq_some_iff.mp added
  cases isAfter
  -- The node gets memory that is not in the heap.
  have free : pooled.wheel.heap p = none := by
    by_contra used
    exact unused (represents.inUse p used)
  let rename := PoolSession.addressOf nodeSize poolBlockSize taken.blocks
  have old : ∀ later, timers.wheel.Linked later → rename later = pooled.address later := by
    intro later linked
    have below := (represents.wf.allocated later linked).1
    rw [represents.session.blocks] at below
    simp only [rename, grown]
    exact addressOf_append more below
  have apart :
      ∀ later, timers.wheel.Linked later → rename later ≠ rename timers.pool.allocate.1 := by
    intro later linked same
    have laterAllocated := represents.wf.allocated later linked
    have laterBelow := ((allocated later).mpr (.inr laterAllocated)).1
    have newBelow := ((allocated timers.pool.allocate.1).mpr (.inl rfl)).1
    rw [afterSession.blocks] at laterBelow newBelow
    have equal := afterSession.sound.addressOf_inj (by decide) laterBelow newBelow same
    exact unallocated (equal ▸ laterAllocated)
  obtain ⟨otherAfter, otherAdded, afterRenames⟩ := (renames.congr old).addTimer data apart isList
  have atP : rename timers.pool.allocate.1 = p := isAddress.symm
  rw [atP] at otherAdded afterRenames
  obtain ⟨after, made, afterWheel⟩ := wheel.addTimer free data otherAdded
  have links := TimeWheel.linked_addTimer isList
  obtain ⟨same, isSame, -, -, payload⟩ : ∃ next, pooled.wheel.addTimer p timeout data =
      some (some p, next) ∧ _ := by
    have adds := wheel.lists.adds p timeout data free
    rw [if_neg nonneg] at adds
    exact adds
  rw [made, Option.some.injEq, Prod.mk.injEq] at isSame
  obtain ⟨-, rfl⟩ := isSame
  refine ⟨after, _, made, added, (allocated _).mpr (.inl rfl), isAddress, afterWF, afterSession,
    ⟨_, afterWheel, afterRenames⟩,
    fun later inPool => ?_, fun q used => ?_⟩
  · rw [TimeWheel.linked_setUserData]
    exact (links later).mpr (((allocated later).mp inPool).imp_right (represents.linked later))
  · have usedPayload : after.payload q ≠ none := by
      rw [LinkedWheel.payload, ne_eq, Option.map_eq_none_iff]
      exact used
    rw [payload] at usedPayload
    by_cases isNew : q = p
    · rw [isNew]
      exact List.mem_cons_self
    · rw [Function.update_of_ne isNew, LinkedWheel.payload, ne_eq, Option.map_eq_none_iff]
        at usedPayload
      exact List.mem_cons_of_mem p (represents.inUse q usedPayload)

/-- The program writes to slots that it has, or elsewhere. -/
theorem write (represents : pooled.Represents timers) {address : Nat}
    (writable : pooled.session.Writable nodeSize poolBlockSize address) (byte : UInt8) :
    Represents
      { pooled with session := { pooled.session with
          pool := { pooled.session.pool with mem := pooled.session.pool.mem.set address byte } } }
      timers where
  wf := represents.wf
  session :=
    { sound := represents.session.sound.write (by decide) writable byte
      wf := represents.session.wf
      blocks := represents.session.blocks
      linked := represents.session.sound.linked_write (by decide) writable byte
        represents.session.linked represents.session.perm }
  wheel := represents.wheel
  linked := represents.linked
  inUse := represents.inUse

end Represents

/-! ## Runs -/

/-- A step of the wheel in memory, as steps with numbers: what is reported is the same at other
addresses, and the addresses that were there before are still those of their numbers. -/
structure Follows (pooled next : PooledWheel) (timers : Timers) (events : List TimerEvent)
    (calls : List TimersCall) (after : Timers) (made : List TimerEvent) : Prop where
  ran : run Timers.step timers calls = some (after, made)
  represents : next.Represents after
  events : events = made.map (TimerEvent.rename next.address)
  below : ∀ event ∈ made, event.Below (after.pool.blocks * poolBlockSize)
  grown : ∃ more, next.session.pool.blocks = pooled.session.pool.blocks ++ more

theorem Represents.step {pooled next : PooledWheel} {timers : Timers} {events : List TimerEvent}
    (represents : pooled.Represents timers) {call : PooledCall}
    (stepped : pooled.step call = some (next, events)) :
    ∃ calls after made, Follows pooled next timers events calls after made := by
  cases call with
  | add block timeout data =>
      simp only [PooledWheel.step, PooledWheel.add] at stepped
      split at stepped
      case isTrue negative =>
          cases stepped
          exact ⟨[.add timeout data], timers, [.added none timeout data],
            run_singleton (if_pos negative), represents, rfl, List.forall_mem_singleton.mpr trivial,
            [], (List.append_nil _).symm⟩
      case isFalse nonneg =>
          split at stepped
          case h_2 => contradiction
          case h_1 session p allocates =>
              simp only [PoolSession.step] at allocates
              split at allocates
              case isFalse => contradiction
              case isTrue fresh =>
                  split at allocates
                  case h_1 =>
                      simp only [Option.some.injEq, Prod.mk.injEq, List.nil_eq, reduceCtorEq,
                        and_false] at allocates
                  case h_2 taken takes =>
                      cases allocates
                      obtain ⟨wheel, after, made, added, inPool, isAddress, afterRepresents⟩ :=
                        represents.add nonneg fresh takes
                      rw [made, Option.map_some] at stepped
                      cases stepped
                      have calls : timers.step (.add timeout data) = some (after,
                          [.added (some timers.pool.allocate.1) timeout data]) := by
                        simp only [Timers.step, if_neg nonneg, added, Option.map_some]
                      refine ⟨_, after, _, run_singleton calls, afterRepresents, ?_,
                        List.forall_mem_singleton.mpr inPool.1, blocks_of_allocate takes⟩
                      simp only [List.map_cons, List.map_nil, TimerEvent.rename, Option.map_some,
                        ← isAddress]
  | del timer =>
      -- The function reads the node, so there is one.
      have used : pooled.wheel.heap timer ≠ none := by
        intro free
        simp only [PooledWheel.step, PooledWheel.del, LinkedWheel.delTimer, free,
          Option.bind_eq_bind, Option.bind_none] at stepped
        contradiction
      obtain ⟨number, inPool, rfl⟩ :=
        (represents.session.allocated_iff (by decide) timer).mp (represents.inUse timer used)
      have linked := represents.linked number inPool
      obtain ⟨after, deleted, afterRepresents, sameBlocks⟩ := represents.del linked
      have same := deleted.symm.trans stepped
      cases same
      have below := inPool.1
      refine ⟨[.remove number], timers.remove number, [.deleted number], run_singleton rfl,
        afterRepresents, ?_, List.forall_mem_singleton.mpr below, [], ?_⟩
      · simp only [List.map_cons, List.map_nil, TimerEvent.rename, address, sameBlocks]
      · rw [sameBlocks, List.append_nil]
  | tick =>
      obtain ⟨after, ticked, afterRepresents, sameBlocks⟩ := represents.tick
      have same := ticked.symm.trans stepped
      cases same
      refine ⟨[.tick], timers.tick, [.ticked _], run_singleton rfl, afterRepresents, rfl,
        List.forall_mem_singleton.mpr trivial, [], ?_⟩
      rw [sameBlocks, List.append_nil]
  | write address byte =>
      simp only [PooledWheel.step, PoolSession.step] at stepped
      split at stepped
      case isFalse => contradiction
      case isTrue writable =>
          cases stepped
          exact ⟨[], timers, [], rfl, represents.write writable byte, rfl,
            List.forall_mem_nil _, [],
            (List.append_nil _).symm⟩

/-- The addresses of numbers stay what they are. -/
theorem Represents.address_eq {pooled next : PooledWheel} {timers : Timers} {more : List Nat}
    (represents : pooled.Represents timers)
    (grown : next.session.pool.blocks = pooled.session.pool.blocks ++ more) :
    timers.pool.blocks * poolBlockSize ≤ next.session.pool.blocks.length * poolBlockSize ∧
      ∀ number < timers.pool.blocks * poolBlockSize, next.address number =
        pooled.address number := by
  rw [represents.session.blocks]
  refine ⟨?_, fun number below => ?_⟩
  · rw [grown, List.length_append, Nat.add_mul]
    exact Nat.le_add_right _ _
  · rw [address, grown]
    exact Represents.addressOf_append more below

/-- Nothing dangles: the nodes are the slots in use, each of them can be deleted, and `tick`
returns. -/
structure Intact (pooled : PooledWheel) : Prop where
  inUse : ∀ p, pooled.wheel.heap p ≠ none ↔ p ∈ pooled.session.allocated
  del : ∀ p ∈ pooled.session.allocated, pooled.del p ≠ none
  tick : pooled.tick ≠ none

theorem Represents.intact {pooled : PooledWheel} {timers : Timers}
    (represents : pooled.Represents timers) : pooled.Intact where
  inUse := represents.inUse_iff
  del := by
    intro p allocated
    obtain ⟨number, inPool, rfl⟩ := (represents.session.allocated_iff (by decide) p).mp allocated
    obtain ⟨next, deleted, -⟩ := represents.del (represents.linked number inPool)
    exact Option.ne_none_iff_exists'.mpr ⟨_, deleted⟩
  tick := by
    obtain ⟨next, ticked, -⟩ := represents.tick
    exact Option.ne_none_iff_exists'.mpr ⟨_, ticked⟩

/-- What holds behind a run: the wheel with numbers has done the same, at other addresses. -/
def Simulates (nodes : Nat → UtilTimer) (pooled : PooledWheel) (log : List TimerEvent) : Prop :=
  ∃ calls timers events, run Timers.step (Timers.start nodes) calls = some (timers, events) ∧
    pooled.Represents timers ∧ log = events.map (TimerEvent.rename pooled.address) ∧
    ∀ event ∈ events, event.Below (timers.pool.blocks * poolBlockSize)

theorem Simulates.step {nodes : Nat → UtilTimer} {pooled next : PooledWheel}
    {log events : List TimerEvent} (simulates : Simulates nodes pooled log) {call : PooledCall}
    (stepped : pooled.step call = some (next, events)) : Simulates nodes next (log ++ events) := by
  obtain ⟨calls, timers, before, ran, represents, rfl, below⟩ := simulates
  obtain ⟨later, after, made, follows⟩ := represents.step stepped
  obtain ⟨more, grown⟩ := follows.grown
  obtain ⟨more, same⟩ := represents.address_eq grown
  refine ⟨calls ++ later, after, before ++ made, run_of_runs ran follows.ran, follows.represents,
    ?_, fun event member => ?_⟩
  · rw [List.map_append, follows.events]
    congr 1
    exact List.map_congr_left fun event member =>
      (TimerEvent.rename_congr (below event member) same).symm
  · rcases List.mem_append.mp member with old | new
    · rw [← follows.represents.session.blocks] at more
      exact (below event old).mono more
    · exact follows.below event new

/-- Every run of the wheel in memory is one of the wheel whose nodes have numbers: the same calls
return the same nodes, delete them, and call the same callbacks, with the addresses in place of the
numbers.  No two nodes have one address, and nothing dangles. -/
theorem refines_of_run {mem : Memory} {calls : List PooledCall} {pooled : PooledWheel}
    {log : List TimerEvent} (nodes : Nat → UtilTimer)
    (ran : run step (start mem) calls = some (pooled, log)) :
    pooled.Intact ∧ ∃ timersCalls timers events,
      run Timers.step (Timers.start nodes) timersCalls = some (timers, events) ∧
        log = events.map (TimerEvent.rename pooled.address) ∧
        Set.InjOn pooled.address { number | timers.pool.Allocated number } ∧
        ∀ number, timers.pool.Allocated number ↔ timers.wheel.Linked number := by
  have begins : Simulates nodes (start mem) [] :=
    ⟨[], Timers.start nodes, [], rfl, Represents.start mem nodes, rfl, List.forall_mem_nil _⟩
  obtain ⟨timersCalls, timers, events, ranTimers, represents, same, -⟩ :
      Simulates nodes pooled ([] ++ log) :=
    run_invariant (Simulates nodes) (fun _ _ _ _ _ simulates _ stepped => simulates.step stepped)
      begins (RunMeets.always _ _) ran
  exact ⟨represents.intact, timersCalls, timers, events, ranTimers, same, represents.injOn_address,
    fun number => (represents.linked_iff number).symm⟩

/-- A node is deleted, its slot is used again, and the node there fires. -/
def slotUsedAgain : List PooledCall :=
  [.add (some 4096) 15 7, .write 4100 255, .add none 15 8, .del 4096, .add none 1 9, .tick, .tick]

theorem refines_slotUsedAgain : ∃ pooled log,
    run step (start fun _ => 0) slotUsedAgain = some (pooled, log) ∧
      log = [.added (some 4096) 15 7, .added (some 4144) 15 8, .deleted 4096,
        .added (some 4096) 1 9, .ticked [], .ticked [9]] ∧ pooled.Intact := by
  have facts : (run step (start fun _ => 0) slotUsedAgain).map Prod.snd =
      some [.added (some 4096) 15 7, .added (some 4144) 15 8, .deleted 4096,
        .added (some 4096) 1 9, .ticked [], .ticked [9]] := by
    decide +kernel
  obtain ⟨⟨pooled, log⟩, ran, same⟩ := Option.map_eq_some_iff.mp facts
  exact ⟨pooled, log, ran, same, (refines_of_run (fun _ => ⟨0, 0, 0⟩) ran).1⟩

end PooledWheel

end TimeGANWebServer.Timer
