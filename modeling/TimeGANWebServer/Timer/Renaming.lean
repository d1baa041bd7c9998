import TimeGANWebServer.Timer.Wheel
import Mathlib.Data.Set.Function

/-!
# The wheel at other addresses

A wheel of lists does the same at whatever addresses its nodes have, as long as two nodes have
two addresses.
-/

namespace TimeGANWebServer.Timer.TimeWheel

universe u v

variable {Addr : Type u} {Other : Type v}

/-- The same wheel, with the nodes where a map of addresses puts them. -/
structure Renames (rename : Addr → Other) (wheel : TimeWheel Addr) (other : TimeWheel Other) :
    Prop where
  slots : ∀ slot, other.slots slot = (wheel.slots slot).map rename
  curSlot : other.curSlot = wheel.curSlot
  timers : ∀ timer, wheel.Linked timer → other.timers (rename timer) = wheel.timers timer

namespace Renames

variable {rename : Addr → Other} {wheel next : TimeWheel Addr} {other : TimeWheel Other}
  {timer : Addr}

theorem empty (nodes : Addr → UtilTimer) (others : Other → UtilTimer) :
    Renames rename (TimeWheel.empty nodes) (TimeWheel.empty others) where
  slots := fun _ => rfl
  curSlot := rfl
  timers := fun timer linked => absurd linked (not_linked_empty nodes timer)

/-- Only the addresses of the linked nodes count. -/
theorem congr (renames : Renames rename wheel other) {also : Addr → Other}
    (same : ∀ timer, wheel.Linked timer → also timer = rename timer) :
    Renames also wheel other where
  slots := by
    intro slot
    rw [renames.slots slot]
    exact List.map_congr_left fun timer member => (same timer ⟨slot, member⟩).symm
  curSlot := renames.curSlot
  timers := by
    intro timer linked
    rw [same timer linked]
    exact renames.timers timer linked

theorem linked_iff (renames : Renames rename wheel other) (address : Other) :
    other.Linked address ↔ ∃ timer, wheel.Linked timer ∧ rename timer = address := by
  constructor
  · rintro ⟨slot, member⟩
    rw [renames.slots slot] at member
    obtain ⟨timer, listed, isAddress⟩ := List.mem_map.mp member
    exact ⟨timer, ⟨slot, listed⟩, isAddress⟩
  · rintro ⟨timer, ⟨slot, listed⟩, rfl⟩
    exact ⟨slot, renames.slots slot ▸ List.mem_map_of_mem listed⟩

theorem linked (renames : Renames rename wheel other) (isLinked : wheel.Linked timer) :
    other.Linked (rename timer) :=
  (renames.linked_iff _).mpr ⟨timer, isLinked, rfl⟩

section Operations

variable [DecidableEq Addr] [DecidableEq Other]

/-- A node is added at an address where there is none. -/
theorem addTimer (renames : Renames rename wheel other) {timeout : Int} (data : Nat)
    (fresh : ∀ later, wheel.Linked later → rename later ≠ rename timer)
    (added : wheel.addTimer timer timeout = some next) :
    ∃ after, other.addTimer (rename timer) timeout = some after ∧
      Renames rename (next.setUserData timer data) (after.setUserData (rename timer) data) := by
  have links := linked_addTimer added
  simp only [TimeWheel.addTimer] at added
  split at added
  case isTrue => contradiction
  case isFalse nonneg =>
      cases added
      have made : other.addTimer (rename timer) timeout = some _ := if_neg nonneg
      refine ⟨_, made, fun slot => ?_, renames.curSlot, fun later isLinked => ?_⟩
      · simp only [TimeWheel.setUserData, Function.update_apply, renames.curSlot]
        split
        · rw [renames.slots, List.map_cons]
        · exact renames.slots slot
      · rw [linked_setUserData, links later] at isLinked
        by_cases isNew : later = timer
        · subst isNew
          simp only [TimeWheel.setUserData, Function.update_self, renames.curSlot]
        · have old := isLinked.resolve_left isNew
          simp only [TimeWheel.setUserData, Function.update_of_ne isNew,
            Function.update_of_ne (fresh later old)]
          exact renames.timers later old

/-- A list without a node, elsewhere. -/
theorem erase_map {nodes : List Addr} (timer : Addr)
    (apart : ∀ later ∈ nodes, rename later = rename timer → later = timer) :
    (nodes.erase timer).map rename = (nodes.map rename).erase (rename timer) := by
  induction nodes with
  | nil => rfl
  | cons head rest ih =>
      have restApart : ∀ later ∈ rest, rename later = rename timer → later = timer :=
        fun later member => apart later (List.mem_cons_of_mem head member)
      by_cases same : head = timer
      · subst same
        rw [List.map_cons, List.erase_cons_head, List.erase_cons_head]
      · have different : rename head ≠ rename timer := fun equal =>
          same (apart head List.mem_cons_self equal)
        rw [List.map_cons, List.erase_cons_tail (by simpa using same),
          List.erase_cons_tail (by simpa using different), List.map_cons, ih restApart]

/-- A node is taken out where two nodes have two addresses. -/
theorem delTimer (renames : Renames rename wheel other) (wf : wheel.WF)
    (apart : Set.InjOn rename { timer | wheel.Linked timer }) (isLinked : wheel.Linked timer) :
    Renames rename (wheel.delTimer timer) (other.delTimer (rename timer)) where
  slots := by
    intro slot
    simp only [TimeWheel.delTimer, renames.timers timer isLinked, Function.update_apply]
    split
    · rw [renames.slots, erase_map timer fun later member equal =>
        apart ⟨_, member⟩ isLinked equal]
    · exact renames.slots slot
  curSlot := renames.curSlot
  timers := fun later staying =>
    renames.timers later ((wf.linked_delTimer timer later).mp staying).2

/-- A tick fires the same nodes. -/
theorem tick (renames : Renames rename wheel other) (wf : wheel.WF) (otherWF : other.WF)
    (apart : Set.InjOn rename { timer | wheel.Linked timer }) :
    other.tick.fired = wheel.tick.fired.map rename ∧
      Renames rename wheel.tick.wheel other.tick.wheel := by
  have nodup := wf.nodup wheel.curSlot
  have otherNodup := otherWF.nodup other.curSlot
  rw [renames.curSlot, renames.slots] at otherNodup
  have fieldsOf : ∀ timer ∈ wheel.slots wheel.curSlot,
      other.timers (rename timer) = wheel.timers timer :=
    fun timer member => renames.timers timer ⟨_, member⟩
  refine ⟨?_, fun slot => ?_, ?_, fun timer isLinked => ?_⟩
  · simp only [TimeWheel.tick, renames.curSlot, renames.slots, tickList_fired _ _ nodup,
      tickList_fired _ _ otherNodup, List.filter_map]
    congr 1
    exact List.filter_congr fun timer member => by
      simp only [Function.comp_apply, fieldsOf timer member]
  · simp only [TimeWheel.tick, renames.curSlot, renames.slots, tickList_kept _ _ nodup,
      tickList_kept _ _ otherNodup, Function.update_apply]
    split
    · rw [List.filter_map]
      congr 1
      exact List.filter_congr fun timer member => by
        simp only [Function.comp_apply, fieldsOf timer member]
    · rfl
  · simp only [TimeWheel.tick, renames.curSlot]
  · have before := ((wf.linked_tick timer).mp isLinked).1
    have listed : rename timer ∈ (wheel.slots wheel.curSlot).map rename ↔
        timer ∈ wheel.slots wheel.curSlot := by
      refine ⟨fun member => ?_, fun member => List.mem_map_of_mem member⟩
      obtain ⟨later, isListed, same⟩ := List.mem_map.mp member
      exact apart ⟨_, isListed⟩ before same ▸ isListed
    simp only [TimeWheel.tick, renames.curSlot, renames.slots, tickList_timers _ _ nodup,
      tickList_timers _ _ otherNodup, listed, renames.timers timer before]

end Operations

end Renames

end TimeGANWebServer.Timer.TimeWheel
