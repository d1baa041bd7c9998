import Mathlib.Algebra.Order.Ring.Int
import Mathlib.Data.List.Nodup
import Mathlib.Logic.Function.Basic

/-!
# The time wheel

`timer/lst_timer.h` and `timer/lst_timer.cpp`.  A wheel is a ring of `N` slots,
each heading a list of timer nodes.  The nodes live in a heap and are named by
their addresses; a slot's doubly linked list is modeled by the list of the
addresses on it, head first.
-/

namespace TimeGANWebServer.Timer

universe u

/-- `time_wheel::N`, the number of slots. -/
abbrev N : Nat := 60

instance neZero_N : NeZero N := ⟨Nat.succ_ne_zero 59⟩

/-- `time_wheel::SI`, the seconds one slot stands for. -/
def SI : Int := 1

/-- The fields of a `util_timer` that the wheel and its callers read.  `userData`
is the index of the `client_data` the pointer `user_data` refers to. -/
structure UtilTimer where
  rotation : Nat
  timeSlot : Fin N
  userData : Nat
  deriving DecidableEq, Repr

/-- `timer->rotation--`, on a node that has a rotation left. -/
def UtilTimer.lower (timer : UtilTimer) : UtilTimer :=
  { timer with rotation := timer.rotation - 1 }

theorem UtilTimer.lower_of_zero {timer : UtilTimer} (zero : timer.rotation = 0) :
    timer.lower = timer := by
  cases timer
  simp_all [UtilTimer.lower]

/-- `time_wheel`, with the heap its nodes live in. -/
structure TimeWheel (Addr : Type u) where
  slots : Fin N → List Addr
  curSlot : Fin N
  timers : Addr → UtilTimer

/-- What a call of `tick` leaves behind: the wheel, and the nodes whose callback
it invoked and which it then deleted, in order. -/
structure TickResult (Addr : Type u) where
  wheel : TimeWheel Addr
  fired : List Addr

/-- The ticks a timeout is worth. -/
def ticksOf (timeout : Int) : Nat :=
  if timeout < SI then 1 else (timeout / SI).toNat

namespace TimeWheel

variable {Addr : Type u}

/-- `time_wheel::time_wheel`.  What the heap holds before is arbitrary. -/
def empty (timers : Addr → UtilTimer) : TimeWheel Addr where
  slots := fun _ => []
  curSlot := 0
  timers := timers

/-- The node is linked into the list of some slot. -/
def Linked (wheel : TimeWheel Addr) (timer : Addr) : Prop :=
  ∃ slot, timer ∈ wheel.slots slot

section Operations

variable [DecidableEq Addr]

/-- `time_wheel::add_timer`, with the address `timer` that `new util_timer`
returned.  The constructor sets every field except `user_data`, which the caller
assigns afterwards.  `none` is the null result of a negative timeout. -/
def addTimer (wheel : TimeWheel Addr) (timer : Addr) (timeout : Int) :
    Option (TimeWheel Addr) :=
  if timeout < 0 then
    none
  else
    let ticks := ticksOf timeout
    let rotation := ticks / N
    let ts : Fin N := Fin.ofNat N (wheel.curSlot + ticks % N)
    some { wheel with
      timers := Function.update wheel.timers timer
        { wheel.timers timer with rotation := rotation, timeSlot := ts }
      slots := Function.update wheel.slots ts (timer :: wheel.slots ts) }

/-- `time_wheel::del_timer`. -/
def delTimer (wheel : TimeWheel Addr) (timer : Addr) : TimeWheel Addr :=
  let ts := (wheel.timers timer).timeSlot
  { wheel with slots := Function.update wheel.slots ts ((wheel.slots ts).erase timer) }

/-- The loop of `time_wheel::tick` over the rest of the current slot's list: the
heap afterwards, the nodes that stay, and the nodes whose callback ran. -/
def tickList (timers : Addr → UtilTimer) : List Addr →
    (Addr → UtilTimer) × List Addr × List Addr
  | [] => (timers, [], [])
  | tmp :: next =>
      if 0 < (timers tmp).rotation then
        let rest := tickList (Function.update timers tmp (timers tmp).lower) next
        (rest.1, tmp :: rest.2.1, rest.2.2)
      else
        let rest := tickList timers next
        (rest.1, rest.2.1, tmp :: rest.2.2)

/-- `time_wheel::tick`. -/
def tick (wheel : TimeWheel Addr) : TickResult Addr :=
  let result := tickList wheel.timers (wheel.slots wheel.curSlot)
  { wheel :=
      { slots := Function.update wheel.slots wheel.curSlot result.2.1
        curSlot := Fin.ofNat N (wheel.curSlot + 1)
        timers := result.1 }
    fired := result.2.2 }

/-- A caller's assignment `timer->user_data = data`. -/
def setUserData (wheel : TimeWheel Addr) (timer : Addr) (data : Nat) : TimeWheel Addr :=
  { wheel with
    timers := Function.update wheel.timers timer
      { wheel.timers timer with userData := data } }

end Operations

/-! ## Well-formed wheels -/

/-- Every node is on the list of the slot it names, once. -/
structure WF (wheel : TimeWheel Addr) : Prop where
  timeSlot_eq : ∀ slot, ∀ timer ∈ wheel.slots slot, (wheel.timers timer).timeSlot = slot
  nodup : ∀ slot, (wheel.slots slot).Nodup

theorem empty_wf (timers : Addr → UtilTimer) : (empty timers).WF where
  timeSlot_eq := by simp [empty]
  nodup := by simp [empty]

@[simp] theorem not_linked_empty (timers : Addr → UtilTimer) (timer : Addr) :
    ¬(empty timers).Linked timer := by
  simp [Linked, empty]

/-- In a well-formed wheel a linked node is found through its own `time_slot`. -/
theorem WF.linked_iff {wheel : TimeWheel Addr} (wf : wheel.WF) (timer : Addr) :
    wheel.Linked timer ↔ timer ∈ wheel.slots (wheel.timers timer).timeSlot := by
  constructor
  · rintro ⟨slot, member⟩
    rwa [wf.timeSlot_eq slot timer member]
  · exact fun member => ⟨_, member⟩

instance (wheel : TimeWheel Addr) (timer : Addr) [DecidableEq Addr] :
    Decidable (wheel.Linked timer) :=
  inferInstanceAs (Decidable (∃ slot, timer ∈ wheel.slots slot))

section Operations

variable [DecidableEq Addr]

/-- The heap after the loop of `tick`: it lowers the rotation of each listed node
that has one left, and touches nothing else. -/
theorem tickList_timers (timers : Addr → UtilTimer) (nodes : List Addr)
    (nodup : nodes.Nodup) (timer : Addr) :
    (tickList timers nodes).1 timer =
      if timer ∈ nodes then (timers timer).lower else timers timer := by
  induction nodes generalizing timers with
  | nil => simp [tickList]
  | cons head rest ih =>
      obtain ⟨fresh, restNodup⟩ := List.nodup_cons.mp nodup
      by_cases left : 0 < (timers head).rotation
      · simp only [tickList, left, if_true, ih _ restNodup]
        by_cases equal : timer = head
        · subst head
          simp [fresh]
        · simp [equal]
      · simp only [tickList, left, if_false, ih _ restNodup]
        have zero : (timers head).rotation = 0 := Nat.eq_zero_of_not_pos left
        by_cases equal : timer = head
        · subst head
          simp [fresh, UtilTimer.lower_of_zero zero]
        · simp [equal]

/-- A node stays on the list exactly when it has a rotation left. -/
theorem tickList_kept (timers : Addr → UtilTimer) (nodes : List Addr)
    (nodup : nodes.Nodup) :
    (tickList timers nodes).2.1 = nodes.filter fun timer => 0 < (timers timer).rotation := by
  induction nodes generalizing timers with
  | nil => rfl
  | cons head rest ih =>
      obtain ⟨fresh, restNodup⟩ := List.nodup_cons.mp nodup
      by_cases left : 0 < (timers head).rotation
      · simp only [tickList, left, if_true, ih _ restNodup, List.filter_cons, decide_true]
        congr 1
        apply List.filter_congr
        intro timer member
        have different : timer ≠ head := fun equal => fresh (equal ▸ member)
        rw [Function.update_of_ne different]
      · simp only [tickList, left, if_false, ih _ restNodup, List.filter_cons, decide_false,
          Bool.false_eq_true]

/-- The callback runs for exactly the nodes with no rotation left. -/
theorem tickList_fired (timers : Addr → UtilTimer) (nodes : List Addr)
    (nodup : nodes.Nodup) :
    (tickList timers nodes).2.2 = nodes.filter fun timer => (timers timer).rotation = 0 := by
  induction nodes generalizing timers with
  | nil => rfl
  | cons head rest ih =>
      obtain ⟨fresh, restNodup⟩ := List.nodup_cons.mp nodup
      by_cases left : 0 < (timers head).rotation
      · have nonzero : (timers head).rotation ≠ 0 := Nat.ne_of_gt left
        simp only [tickList, left, if_true, ih _ restNodup, List.filter_cons, nonzero,
          decide_false, Bool.false_eq_true, if_false]
        apply List.filter_congr
        intro timer member
        have different : timer ≠ head := fun equal => fresh (equal ▸ member)
        rw [Function.update_of_ne different]
      · have zero : (timers head).rotation = 0 := Nat.eq_zero_of_not_pos left
        simp only [tickList, left, if_false, ih _ restNodup, List.filter_cons]
        simp [zero]

/-- A node is due when the cursor is on its slot and no rotation is left. -/
def Due (wheel : TimeWheel Addr) (timer : Addr) : Prop :=
  timer ∈ wheel.slots wheel.curSlot ∧ (wheel.timers timer).rotation = 0

instance (wheel : TimeWheel Addr) (timer : Addr) : Decidable (wheel.Due timer) :=
  inferInstanceAs (Decidable (_ ∧ _))

theorem WF.mem_fired {wheel : TimeWheel Addr} (wf : wheel.WF) (timer : Addr) :
    timer ∈ wheel.tick.fired ↔ wheel.Due timer := by
  simp [tick, tickList_fired _ _ (wf.nodup _), Due]

theorem WF.fired_nodup {wheel : TimeWheel Addr} (wf : wheel.WF) :
    wheel.tick.fired.Nodup := by
  simp only [tick, tickList_fired _ _ (wf.nodup _)]
  exact (wf.nodup _).filter _

/-! ## The operations keep a wheel well formed -/

theorem WF.addTimer {wheel next : TimeWheel Addr} (wf : wheel.WF) {timer : Addr}
    {timeout : Int} (fresh : ¬wheel.Linked timer)
    (added : wheel.addTimer timer timeout = some next) : next.WF := by
  simp only [TimeWheel.addTimer] at added
  split at added
  · contradiction
  · cases added
    have absent : ∀ slot, timer ∉ wheel.slots slot := fun slot member => fresh ⟨slot, member⟩
    constructor
    · intro slot other member
      simp only [Function.update_apply] at member ⊢
      by_cases equal : other = timer
      · subst other
        by_cases here : slot = Fin.ofNat N (wheel.curSlot + ticksOf timeout % N)
        · simp [here]
        · simp only [here, if_false] at member
          exact (absent slot member).elim
      · rw [if_neg equal]
        apply wf.timeSlot_eq
        split at member
        · rename_i here
          subst slot
          simpa [equal] using member
        · exact member
    · intro slot
      simp only [Function.update_apply]
      split
      · exact List.nodup_cons.mpr ⟨absent _, wf.nodup _⟩
      · exact wf.nodup slot

theorem WF.delTimer {wheel : TimeWheel Addr} (wf : wheel.WF) (timer : Addr) :
    (wheel.delTimer timer).WF := by
  constructor
  · intro slot other member
    apply wf.timeSlot_eq
    simp only [TimeWheel.delTimer, Function.update_apply] at member
    split at member
    · rename_i here
      subst slot
      exact List.mem_of_mem_erase member
    · exact member
  · intro slot
    simp only [TimeWheel.delTimer, Function.update_apply]
    split
    · exact (wf.nodup _).erase _
    · exact wf.nodup slot

theorem WF.tick {wheel : TimeWheel Addr} (wf : wheel.WF) : wheel.tick.wheel.WF := by
  constructor
  · intro slot timer member
    have listed : timer ∈ wheel.slots slot := by
      simp only [TimeWheel.tick, tickList_kept _ _ (wf.nodup _), Function.update_apply] at member
      split at member
      · rename_i here
        subst slot
        exact List.mem_of_mem_filter member
      · exact member
    simp only [TimeWheel.tick, tickList_timers _ _ (wf.nodup _)]
    split <;> exact wf.timeSlot_eq slot timer listed
  · intro slot
    simp only [TimeWheel.tick, tickList_kept _ _ (wf.nodup _), Function.update_apply]
    split
    · exact (wf.nodup _).filter _
    · exact wf.nodup slot

theorem WF.setUserData {wheel : TimeWheel Addr} (wf : wheel.WF) (timer : Addr)
    (data : Nat) : (wheel.setUserData timer data).WF := by
  constructor
  · intro slot other member
    rw [← wf.timeSlot_eq slot other member]
    simp only [TimeWheel.setUserData, Function.update_apply]
    split
    · rename_i equal
      rw [equal]
    · rfl
  · exact wf.nodup

/-! ## Which nodes an operation links and unlinks -/

theorem linked_addTimer {wheel next : TimeWheel Addr} {timer : Addr} {timeout : Int}
    (added : wheel.addTimer timer timeout = some next) (other : Addr) :
    next.Linked other ↔ other = timer ∨ wheel.Linked other := by
  simp only [addTimer] at added
  split at added
  · contradiction
  · cases added
    simp only [Linked, Function.update_apply]
    constructor
    · rintro ⟨slot, member⟩
      split at member
      · rcases List.mem_cons.mp member with equal | member
        · exact Or.inl equal
        · exact Or.inr ⟨_, member⟩
      · exact Or.inr ⟨slot, member⟩
    · rintro (equal | ⟨slot, member⟩)
      · exact ⟨_, by rw [if_pos rfl]; simp [equal]⟩
      · refine ⟨slot, ?_⟩
        split
        · rename_i here
          exact List.mem_cons_of_mem _ (here ▸ member)
        · exact member

theorem WF.linked_delTimer {wheel : TimeWheel Addr} (wf : wheel.WF) (timer other : Addr) :
    (wheel.delTimer timer).Linked other ↔ other ≠ timer ∧ wheel.Linked other := by
  have member_iff : ∀ slot, other ∈ (wheel.delTimer timer).slots slot ↔
      other ≠ timer ∧ other ∈ wheel.slots slot := by
    intro slot
    simp only [TimeWheel.delTimer, Function.update_apply]
    split
    · rename_i here
      rw [here, (wf.nodup _).mem_erase_iff]
    · rename_i elsewhere
      refine ⟨fun member => ⟨?_, member⟩, fun member => member.2⟩
      rintro rfl
      exact elsewhere (wf.timeSlot_eq slot other member).symm
  simp only [Linked, member_iff, exists_and_left]

theorem WF.linked_tick {wheel : TimeWheel Addr} (wf : wheel.WF) (timer : Addr) :
    wheel.tick.wheel.Linked timer ↔ wheel.Linked timer ∧ ¬wheel.Due timer := by
  have kept : ∀ slot, timer ∈ wheel.tick.wheel.slots slot ↔
      timer ∈ wheel.slots slot ∧ ¬wheel.Due timer := by
    intro slot
    simp only [TimeWheel.tick, tickList_kept _ _ (wf.nodup _), Function.update_apply]
    split
    · rename_i here
      subst slot
      simp only [List.mem_filter, decide_eq_true_eq, Due, Nat.pos_iff_ne_zero]
      tauto
    · rename_i elsewhere
      refine ⟨fun member => ⟨member, fun due => elsewhere ?_⟩, fun member => member.1⟩
      rw [← wf.timeSlot_eq slot timer member, wf.timeSlot_eq _ timer due.1]
  simp only [Linked, kept, exists_and_right]

@[simp] theorem linked_setUserData (wheel : TimeWheel Addr) (timer other : Addr)
    (data : Nat) : (wheel.setUserData timer data).Linked other ↔ wheel.Linked other :=
  Iff.rfl

end Operations

end TimeWheel

end TimeGANWebServer.Timer
