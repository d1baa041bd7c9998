import TimeGANWebServer.Lock.MemoryPool
import TimeGANWebServer.Timer.Wheel

/-!
# The wheel with its pool

`operator new` and `operator delete` of `util_timer` take the wheel's nodes from a
`MemoryPool` and give them back.  Seen from outside, the wheel is a table that maps the
address of each node in it to the node's user data.
-/

namespace TimeGANWebServer.Timer

open TimeGANWebServer.Lock

/-- The wheel `m_timer_lst` and the pool `util_timer::m_pool`. -/
structure Timers where
  wheel : TimeWheel Nat
  pool : MemoryPool 4096

namespace Timers

/-- No timers, in a heap with arbitrary content. -/
def start (nodes : Nat → UtilTimer) : Timers where
  wheel := TimeWheel.empty nodes
  pool := MemoryPool.empty

/-- `add_timer` with a node from the pool, and the caller's assignment of `user_data`. -/
def add (timers : Timers) (timeout : Int) (data : Nat) : Option (Nat × Timers) :=
  let taken := timers.pool.allocate
  (timers.wheel.addTimer taken.1 timeout).map fun wheel =>
    (taken.1, { wheel := wheel.setUserData taken.1 data, pool := taken.2 })

/-- `delete` of a node. -/
def free (timers : Timers) (timer : Nat) : Timers :=
  { timers with pool := timers.pool.deallocate timer }

/-- `del_timer`. -/
def remove (timers : Timers) (timer : Nat) : Timers :=
  { timers with wheel := timers.wheel.delTimer timer }.free timer

/-- `tick`, up to the callbacks and the deletion of the nodes that fire. -/
def ticked (timers : Timers) : Timers :=
  { timers with wheel := timers.wheel.tick.wheel }

/-- The user data of a node in the wheel. -/
def dataOf (timers : Timers) (timer : Nat) : Option Nat :=
  if timers.wheel.Linked timer then some (timers.wheel.timers timer).userData else none

/-- The wheel and the pool are well formed, and every node in the wheel is in use. -/
structure WF (timers : Timers) : Prop where
  wheel : timers.wheel.WF
  pool : timers.pool.WF
  allocated : ∀ timer, timers.wheel.Linked timer → timers.pool.Allocated timer

theorem start_wf (nodes : Nat → UtilTimer) : (start nodes).WF where
  wheel := TimeWheel.empty_wf nodes
  pool := MemoryPool.empty_wf
  allocated timer linked := absurd linked (TimeWheel.not_linked_empty nodes timer)

@[simp] theorem dataOf_start (nodes : Nat → UtilTimer) (timer : Nat) :
    (start nodes).dataOf timer = none :=
  if_neg (TimeWheel.not_linked_empty nodes timer)

theorem dataOf_eq_some_iff {timers : Timers} {timer data : Nat} :
    timers.dataOf timer = some data ↔
      timers.wheel.Linked timer ∧ (timers.wheel.timers timer).userData = data := by
  simp only [dataOf]
  split <;> simp_all

theorem linked_iff (timers : Timers) (timer : Nat) :
    timers.wheel.Linked timer ↔ ∃ data, timers.dataOf timer = some data := by
  simp only [dataOf_eq_some_iff, exists_and_left, exists_eq', and_true]

/-- A timeout that is not negative gives a node, which is not in the wheel before. -/
theorem WF.add {timers : Timers} (wf : timers.WF) {timeout : Int} (positive : 0 ≤ timeout)
    (data : Nat) :
    ∃ timer next, timers.add timeout data = some (timer, next) ∧ next.WF ∧
      timers.dataOf timer = none ∧
        ∀ other, next.dataOf other = if other = timer then some data else timers.dataOf other := by
  obtain ⟨poolWF, fresh, allocated⟩ := wf.pool.allocate (by decide)
  have unlinked : ¬timers.wheel.Linked timers.pool.allocate.1 :=
    fun linked => fresh (wf.allocated _ linked)
  obtain ⟨wheel, added⟩ : ∃ wheel,
      timers.wheel.addTimer timers.pool.allocate.1 timeout = some wheel := by
    simp only [TimeWheel.addTimer, if_neg (Int.not_lt.mpr positive)]
    exact ⟨_, rfl⟩
  have links := TimeWheel.linked_addTimer added
  have others : ∀ other, other ≠ timers.pool.allocate.1 →
      wheel.timers other = timers.wheel.timers other := by
    intro other different
    simp only [TimeWheel.addTimer, if_neg (Int.not_lt.mpr positive), Option.some.injEq] at added
    rw [← added]
    exact Function.update_of_ne different _ _
  refine ⟨timers.pool.allocate.1, _, by rw [Timers.add, added]; rfl, ⟨?_, poolWF, ?_⟩,
    if_neg unlinked, ?_⟩
  · exact (wf.wheel.addTimer unlinked added).setUserData _ data
  · intro timer linked
    rw [TimeWheel.linked_setUserData, links] at linked
    exact (allocated timer).mpr (linked.imp_right (wf.allocated timer))
  · intro other
    by_cases same : other = timers.pool.allocate.1
    · subst same
      rw [if_pos rfl, dataOf_eq_some_iff]
      exact ⟨(links _).mpr (.inl rfl), by simp only [TimeWheel.setUserData, Function.update_self]⟩
    · rw [if_neg same]
      apply Option.ext
      intro found
      have relinked : wheel.Linked other ↔ timers.wheel.Linked other := by
        rw [links, or_iff_right same]
      rw [dataOf_eq_some_iff, dataOf_eq_some_iff, TimeWheel.linked_setUserData, relinked]
      simp only [TimeWheel.setUserData, Function.update_of_ne same, others other same]

/-- Freeing a node that is in use but not in the wheel. -/
theorem WF.free {timers : Timers} (wf : timers.WF) {timer : Nat}
    (unlinked : ¬timers.wheel.Linked timer) (allocated : timers.pool.Allocated timer) :
    (timers.free timer).WF where
  wheel := wf.wheel
  pool := (wf.pool.deallocate allocated).1
  allocated other linked := by
    refine ((wf.pool.deallocate allocated).2 other).mpr ⟨?_, wf.allocated other linked⟩
    rintro rfl
    exact unlinked linked

@[simp] theorem dataOf_free (timers : Timers) (timer other : Nat) :
    (timers.free timer).dataOf other = timers.dataOf other := rfl

/-- A node is taken out of the wheel and given back. -/
theorem WF.remove {timers : Timers} (wf : timers.WF) {timer data : Nat}
    (found : timers.dataOf timer = some data) :
    (timers.remove timer).WF ∧
      ∀ other, (timers.remove timer).dataOf other =
        if other = timer then none else timers.dataOf other := by
  have linked : timers.wheel.Linked timer := (dataOf_eq_some_iff.mp found).1
  have links := wf.wheel.linked_delTimer timer
  have unhooked : ({ timers with wheel := timers.wheel.delTimer timer } : Timers).WF :=
    ⟨wf.wheel.delTimer timer, wf.pool,
      fun other isLinked => wf.allocated other ((links other).mp isLinked).2⟩
  refine ⟨unhooked.free (fun isLinked => ((links timer).mp isLinked).1 rfl)
    (wf.allocated timer linked), ?_⟩
  intro other
  rw [Timers.remove, dataOf_free]
  simp only [dataOf, links]
  by_cases same : other = timer
  · simp [same]
  · simp only [same, ne_eq, not_false_eq_true, true_and, if_false, TimeWheel.delTimer]

/-- The next node added after one was removed has its address. -/
theorem add_remove {timers next : Timers} {timer other : Nat} {timeout : Int} {data : Nat}
    (added : (timers.remove timer).add timeout data = some (other, next)) : other = timer := by
  simp only [Timers.add, Timers.remove, Timers.free, MemoryPool.allocate_deallocate,
    Option.map_eq_some_iff, Prod.mk.injEq] at added
  obtain ⟨wheel, _, same, _⟩ := added
  exact same.symm

/-- After a tick the nodes that fire are no longer in the wheel, and still in use. -/
theorem WF.ticked {timers : Timers} (wf : timers.WF) :
    timers.ticked.WF ∧ timers.wheel.tick.fired.Nodup ∧
      (∀ timer ∈ timers.wheel.tick.fired,
        ¬timers.ticked.wheel.Linked timer ∧ timers.pool.Allocated timer) ∧
      ∀ other, timers.ticked.dataOf other =
        if other ∈ timers.wheel.tick.fired then none else timers.dataOf other := by
  have links := wf.wheel.linked_tick
  have fires := wf.wheel.mem_fired
  have kept : ∀ other, (timers.ticked.wheel.timers other).userData =
      (timers.wheel.timers other).userData := by
    intro other
    simp only [Timers.ticked, TimeWheel.tick, TimeWheel.tickList_timers _ _ (wf.wheel.nodup _)]
    split <;> rfl
  refine ⟨⟨wf.wheel.tick, wf.pool, fun timer linked =>
    wf.allocated timer ((links timer).mp linked).1⟩, wf.wheel.fired_nodup, ?_, ?_⟩
  · intro timer fired
    have due := (fires timer).mp fired
    exact ⟨fun linked => ((links timer).mp linked).2 due, wf.allocated timer ⟨_, due.1⟩⟩
  · intro other
    have isLinked : timers.ticked.wheel.Linked other ↔
        timers.wheel.Linked other ∧ ¬timers.wheel.Due other := links other
    simp only [dataOf, kept, isLinked, fires]
    by_cases due : timers.wheel.Due other <;> simp [due]

end Timers

end TimeGANWebServer.Timer
