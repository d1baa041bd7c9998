import TimeGANWebServer.Timer.LinkedWheel

/-!
# The lists in the heap

The slots of the wheel head lists of nodes, which each call changes at one place: `add_timer` puts
a node in front, `del_timer` and `tick` take nodes out.  What the pointers make of the wheel is
the wheel of lists in `Timer/Wheel.lean`.
-/

namespace TimeGANWebServer.Timer.LinkedWheel

open TimeGANWebServer.Support

universe u

variable {Addr : Type u}

/-! ## The invariant -/

/-- The fields of a node in use, but for its pointers. -/
def payload (wheel : LinkedWheel Addr) (timer : Addr) : Option UtilTimer :=
  (wheel.heap timer).map TimerNode.toUtilTimer

/-- The lists of a wheel, and that their nodes are in use and name the slot they are in. -/
structure Lists (wheel : LinkedWheel Addr) (lists : Fin N → List Addr) : Prop where
  listed : ∀ slot, wheel.Listed slot (lists slot)
  timeSlot : ∀ slot, ∀ timer ∈ lists slot,
    (wheel.payload timer).map UtilTimer.timeSlot = some slot

namespace Lists

variable {wheel : LinkedWheel Addr} {lists : Fin N → List Addr} {slot : Fin N} {timer : Addr}
  {node : TimerNode Addr}

theorem start : (start : LinkedWheel Addr).Lists fun _ => [] where
  listed := fun _ => rfl
  timeSlot := fun _ _ member => absurd member List.not_mem_nil

theorem inUse (holds : wheel.Lists lists) (member : timer ∈ lists slot) :
    ∃ node, wheel.heap timer = some node ∧ node.timeSlot = slot := by
  have named := holds.timeSlot slot timer member
  rw [payload, Option.map_map, Option.map_eq_some_iff] at named
  exact named

theorem nodup (holds : wheel.Lists lists) (slot : Fin N) : (lists slot).Nodup :=
  Segment.nodup (holds.listed slot)

/-- A node names the slot it is in. -/
theorem timeSlot_eq (holds : wheel.Lists lists) (member : timer ∈ lists slot)
    (found : wheel.heap timer = some node) : node.timeSlot = slot := by
  obtain ⟨other, isOther, atSlot⟩ := holds.inUse member
  rw [found, Option.some.injEq] at isOther
  rw [isOther, atSlot]

/-- No node is in two lists. -/
theorem slot_unique (holds : wheel.Lists lists) {other : Fin N} (member : timer ∈ lists slot)
    (again : timer ∈ lists other) : slot = other := by
  obtain ⟨node, found, atSlot⟩ := holds.inUse member
  rw [← atSlot, holds.timeSlot_eq again found]

theorem allocated (holds : wheel.Lists lists) (member : timer ∈ lists slot) :
    wheel.heap timer ≠ none := by
  obtain ⟨node, found, _⟩ := holds.inUse member
  rw [found]
  exact Option.some_ne_none node

theorem absent (holds : wheel.Lists lists) (free : wheel.heap timer = none) (slot : Fin N) :
    timer ∉ lists slot :=
  fun member => holds.allocated member free

/-- The lists are the only ones. -/
theorem unique (holds : wheel.Lists lists) {nodes : List Addr} (listed : wheel.Listed slot nodes) :
    nodes = lists slot :=
  Segment.unique listed (holds.listed slot)

theorem slots_eq (holds : wheel.Lists lists) (slot : Fin N) :
    wheel.slots slot = (lists slot).head? := by
  have isFirst := Segment.first_eq (holds.listed slot)
  rwa [Option.or_none] at isFirst

/-- The pointers of a node in a list. -/
theorem pointers (holds : wheel.Lists lists) {front back : List Addr}
    (split : lists slot = front ++ timer :: back) (found : wheel.heap timer = some node) :
    node.prev = front.getLast? ∧ node.next = back.head? := by
  have whole := holds.listed slot
  rw [Listed, split] at whole
  obtain ⟨_, isPrev, right⟩ := whole.around
  have isNext := right.first_eq
  rw [lastOr_eq, Option.or_none] at isPrev
  rw [Option.or_none] at isNext
  simp only [links, found, Option.bind_some] at isPrev isNext
  exact ⟨isPrev, isNext⟩

/-- A node in a list can be taken out. -/
theorem removable (holds : wheel.Lists lists) (member : timer ∈ lists slot)
    (found : wheel.heap timer = some node) : wheel.Removable timer node := by
  obtain ⟨front, back, split⟩ := List.append_of_mem member
  obtain ⟨isPrev, isNext⟩ := holds.pointers split found
  have nodup := holds.nodup slot
  rw [split] at nodup
  have inFront : ∀ other, node.prev = some other → other ∈ front := by
    intro other isOther
    exact List.mem_of_getLast? (isPrev.symm.trans isOther)
  have inBack : ∀ other, node.next = some other → other ∈ back := by
    intro other isOther
    exact List.mem_of_head? (isNext.symm.trans isOther)
  have notInFront : timer ∉ front := fun again =>
    List.disjoint_of_nodup_append nodup again List.mem_cons_self
  have notInBack : timer ∉ back := (List.nodup_cons.mp (List.nodup_append.mp nodup).2.1).1
  refine ⟨found, fun other isOther => ?_, fun other isOther => ?_, ?_, ?_, ?_⟩
  · exact holds.allocated
      (split ▸ List.mem_append_left (timer :: back) (inFront other isOther))
  · exact holds.allocated
      (split ▸ List.mem_append_right front (List.mem_cons_of_mem timer (inBack other isOther)))
  · exact fun isTimer => notInFront (inFront timer isTimer)
  · exact fun isTimer => notInBack (inBack timer isTimer)
  · rw [holds.timeSlot_eq member found, holds.slots_eq, split, isPrev]
    cases front with
    | nil => exact iff_of_true rfl rfl
    | cons first front =>
        refine iff_of_false (fun same => ?_) (fun same => ?_)
        · have isFirst : timer = first := Option.some.inj same
          exact notInFront (isFirst ▸ List.mem_cons_self)
        · exact List.cons_ne_nil first front (List.getLast?_eq_none_iff.mp same)

end Lists

section Pointers

variable [DecidableEq Addr] {wheel : LinkedWheel Addr} {lists : Fin N → List Addr} {slot : Fin N}
  {timer later : Addr} {node : TimerNode Addr}

theorem remove_heap (apart : later ≠ timer) :
    (wheel.remove timer node).heap later =
      withPrev (withNext wheel.heap node.prev node.next) node.next node.prev later := by
  simp only [remove, Function.update_of_ne apart]

theorem remove_next (apart : later ≠ timer) (allocated : wheel.heap later ≠ none) :
    (wheel.remove timer node).links.next later =
      if node.prev = some later then node.next else wheel.links.next later := by
  obtain ⟨laterNode, found⟩ := Option.ne_none_iff_exists'.mp allocated
  simp only [links, remove_heap apart, withPrev, withNext, found, Option.map_some, Option.bind_some]

theorem remove_prev (apart : later ≠ timer) (allocated : wheel.heap later ≠ none) :
    (wheel.remove timer node).links.prev later =
      if node.next = some later then node.prev else wheel.links.prev later := by
  obtain ⟨laterNode, found⟩ := Option.ne_none_iff_exists'.mp allocated
  simp only [links, remove_heap apart, withPrev, withNext, found, Option.map_some, Option.bind_some]

/-- No other node's fields change. -/
theorem remove_payload :
    (wheel.remove timer node).payload = Function.update wheel.payload timer none := by
  funext later
  by_cases same : later = timer
  · subst same
    simp only [payload, remove, Function.update_self, Option.map_none]
  · rw [Function.update_of_ne same]
    simp only [payload, remove_heap same, withPrev, withNext, Option.map_map]
    rfl

end Pointers

namespace Lists

variable [DecidableEq Addr] {wheel : LinkedWheel Addr} {lists : Fin N → List Addr} {slot : Fin N}
  {timer : Addr} {node : TimerNode Addr}

/-- The list a node is taken out of. -/
theorem listed_remove (holds : wheel.Lists lists) (member : timer ∈ lists slot)
    (found : wheel.heap timer = some node) :
    (wheel.remove timer node).Listed slot ((lists slot).erase timer) := by
  obtain ⟨front, back, split⟩ := List.append_of_mem member
  obtain ⟨isPrev, isNext⟩ := holds.pointers split found
  have nodup := holds.nodup slot
  have whole := holds.listed slot
  rw [split] at nodup
  rw [Listed, split] at whole
  have notInFront : timer ∉ front := fun again =>
    List.disjoint_of_nodup_append nodup again List.mem_cons_self
  have allocated : ∀ later ∈ front ++ back, wheel.heap later ≠ none := by
    intro later inRest
    have inSlot : later ∈ lists slot := by
      rw [split]
      exact List.perm_middle.mem_iff.mpr (List.mem_cons_of_mem timer inRest)
    exact holds.allocated inSlot
  have apart : ∀ later ∈ front ++ back, later ≠ timer := by
    intro later inRest same
    exact (List.nodup_cons.mp (List.perm_middle.nodup_iff.mp nodup)).1 (same ▸ inRest)
  have toNext : wheel.links.next timer = node.next := by
    simp only [links, found, Option.bind_some]
  have toPrev : wheel.links.prev timer = node.prev := by
    simp only [links, found, Option.bind_some]
  have head : (wheel.remove timer node).slots slot = (front ++ back).head? := by
    simp only [LinkedWheel.remove]
    cases front with
    | nil =>
        have noPrev : node.prev = none := isPrev
        rw [if_pos noPrev, holds.timeSlot_eq member found, Function.update_self, isNext,
          List.nil_append]
    | cons first front =>
        have somePrev : node.prev ≠ none := by
          rw [isPrev]
          exact fun isNone => List.cons_ne_nil first front (List.getLast?_eq_none_iff.mp isNone)
        rw [if_neg somePrev, holds.slots_eq, split]
        rfl
  rw [Listed, head, split, List.erase_append_right (timer :: back) notInFront,
    List.erase_cons_head]
  refine whole.unlink (fun later inRest => ?_) (fun later inRest => ?_)
  · rw [remove_next (apart later inRest) (allocated later inRest), toPrev, toNext]
  · rw [remove_prev (apart later inRest) (allocated later inRest), toPrev, toNext]

/-- The other lists. -/
theorem listed_remove_of_ne (holds : wheel.Lists lists) {other : Fin N} (different : other ≠ slot)
    (member : timer ∈ lists slot) (found : wheel.heap timer = some node) :
    (wheel.remove timer node).Listed other (lists other) := by
  obtain ⟨front, back, split⟩ := List.append_of_mem member
  obtain ⟨isPrev, isNext⟩ := holds.pointers split found
  have elsewhere : ∀ later ∈ lists other, later ∉ front ++ timer :: back := by
    intro later inOther again
    exact different (holds.slot_unique inOther (split ▸ again))
  have apart : ∀ later ∈ lists other, later ≠ timer := by
    intro later inOther same
    exact different (holds.slot_unique inOther (same ▸ member))
  have sameSlot : (wheel.remove timer node).slots other = wheel.slots other := by
    simp only [LinkedWheel.remove]
    split
    · rw [holds.timeSlot_eq member found, Function.update_of_ne different]
    · rfl
  rw [Listed, sameSlot]
  refine Segment.congr (holds.listed other) (fun later inOther => ?_) (fun later inOther => ?_)
  · rw [remove_next (apart later inOther) (holds.allocated inOther), if_neg]
    intro isLater
    have inFront : later ∈ front := List.mem_of_getLast? (isPrev.symm.trans isLater)
    exact elsewhere later inOther (List.mem_append_left (timer :: back) inFront)
  · rw [remove_prev (apart later inOther) (holds.allocated inOther), if_neg]
    intro isLater
    have inBack : later ∈ back := List.mem_of_head? (isNext.symm.trans isLater)
    exact elsewhere later inOther
      (List.mem_append_right front (List.mem_cons_of_mem timer inBack))

/-- Taking a node out takes it out of its list. -/
theorem remove (holds : wheel.Lists lists) (member : timer ∈ lists slot)
    (found : wheel.heap timer = some node) :
    (wheel.remove timer node).Lists
      (Function.update lists slot ((lists slot).erase timer)) := by
  refine ⟨fun other => ?_, fun other later inOther => ?_⟩
  · by_cases same : other = slot
    · rw [same, Function.update_self]
      exact holds.listed_remove member found
    · rw [Function.update_of_ne same]
      exact holds.listed_remove_of_ne same member found
  · have staying : later ∈ lists other ∧ later ≠ timer := by
      by_cases same : other = slot
      · rw [same, Function.update_self, (holds.nodup slot).mem_erase_iff] at inOther
        exact ⟨same ▸ inOther.2, inOther.1⟩
      · rw [Function.update_of_ne same] at inOther
        exact ⟨inOther, fun isTimer => same (holds.slot_unique inOther (isTimer ▸ member))⟩
    rw [remove_payload, Function.update_of_ne staying.2]
    exact holds.timeSlot other later staying.1

end Lists

/-! ## A node is put in -/

/-- The fields `add_timer` gives a node. -/
def newTimer (wheel : LinkedWheel Addr) (timeout : Int) (data : Nat) : UtilTimer where
  rotation := ticksOf timeout / N
  timeSlot := Fin.ofNat N (wheel.curSlot + ticksOf timeout % N)
  userData := data

section Insertion

variable [DecidableEq Addr] {wheel : LinkedWheel Addr} {lists : Fin N → List Addr} {timer : Addr}
  {fields : UtilTimer}

/-- The wheel with a node in front of the list of the slot it names. -/
def insert (wheel : LinkedWheel Addr) (timer : Addr) (fields : UtilTimer) : LinkedWheel Addr where
  slots := Function.update wheel.slots fields.timeSlot (some timer)
  curSlot := wheel.curSlot
  heap :=
    let head := wheel.slots fields.timeSlot
    Function.update (withPrev wheel.heap head (some timer)) timer
      (some { fields with prev := none, next := head })

theorem insert_payload :
    (wheel.insert timer fields).payload = Function.update wheel.payload timer (some fields) := by
  funext later
  by_cases same : later = timer
  · subst same
    simp only [payload, insert, Function.update_self, Option.map_some]
  · simp only [payload, insert, Function.update_of_ne same, withPrev, Option.map_map]
    rfl

theorem insert_next {later : Addr} (apart : later ≠ timer) :
    (wheel.insert timer fields).links.next later = wheel.links.next later := by
  simp only [links, insert, Function.update_of_ne apart, withPrev]
  cases wheel.heap later <;> rfl

theorem insert_prev {later : Addr} (apart : later ≠ timer) (allocated : wheel.heap later ≠ none) :
    (wheel.insert timer fields).links.prev later =
      if wheel.slots fields.timeSlot = some later then some timer else wheel.links.prev later := by
  obtain ⟨node, found⟩ := Option.ne_none_iff_exists'.mp allocated
  simp only [links, insert, Function.update_of_ne apart, withPrev, found, Option.map_some,
    Option.bind_some]

/-- `add_timer` puts a node in. -/
theorem addTimer_eq {timeout : Int} {data : Nat} (free : wheel.heap timer = none)
    (valid : wheel.Valid (wheel.slots (wheel.newTimer timeout data).timeSlot))
    (nonneg : ¬timeout < 0) :
    wheel.addTimer timer timeout data =
      some (some timer, wheel.insert timer (wheel.newTimer timeout data)) := by
  simp only [newTimer] at valid
  simp only [addTimer, if_neg nonneg, insert, newTimer]
  cases isHead : wheel.slots (Fin.ofNat N (wheel.curSlot + ticksOf timeout % N)) with
  | none =>
      simp only [withPrev_none]
      rfl
  | some head =>
      obtain ⟨headNode, found⟩ := Option.ne_none_iff_exists'.mp (valid head isHead)
      have apart : head ≠ timer := by
        intro same
        rw [same, free] at found
        contradiction
      let fields : UtilTimer := wheel.newTimer timeout data
      let made : LinkedWheel Addr :=
        { wheel with
          heap :=
            Function.update wheel.heap timer (some { fields with prev := none, next := none }) }
      -- the new node first, then the one that was first
      have isMade : made.heap timer = some { fields with prev := none, next := none } :=
        Function.update_self timer _ wheel.heap
      have isHeadNode : withNext made.heap (some timer) (some head) head = some headNode := by
        have different : some timer ≠ some head := fun same => apart (Option.some.inj same).symm
        simp only [withNext, made, Function.update_of_ne apart, found, Option.map_some,
          if_neg different]
      let linked : LinkedWheel Addr :=
        { made with heap := withNext made.heap (some timer) (some head) }
      have toNext : made.setNext (some timer) (some head) = some linked := setNext_eq _ isMade
      have toPrev : linked.setPrev (some head) (some timer) =
          some { linked with heap := withPrev linked.heap (some head) (some timer) } :=
        setPrev_eq _ isHeadNode
      have sameHeap : withPrev linked.heap (some head) (some timer) =
          Function.update (withPrev wheel.heap (some head) (some timer)) timer
            (some { fields with prev := none, next := some head }) := by
        funext other
        by_cases same : other = timer
        · subst same
          have different : some head ≠ some other := fun same => apart (Option.some.inj same)
          simp only [withPrev, linked, withNext, isMade, Option.map_some, if_true,
            if_neg different, Function.update_self]
        · have different : some timer ≠ some other := fun equal => same (Option.some.inj equal).symm
          simp only [withPrev, linked, withNext, made, Function.update_of_ne same, if_neg different,
            Option.map_id']
      calc (made.setNext (some timer) (some head)).bind (fun wheel =>
              (wheel.setPrev (wheel.slots fields.timeSlot) (some timer)).bind fun wheel =>
                some (some timer, wheel.setSlot fields.timeSlot (some timer)))
          = (linked.setPrev (some head) (some timer)).bind (fun wheel =>
              some (some timer, wheel.setSlot fields.timeSlot (some timer))) := by
            have isFirst : linked.slots fields.timeSlot = some head := isHead
            rw [toNext, Option.bind_some, isFirst]
        _ = _ := by
            rw [toPrev, Option.bind_some, sameHeap]
            rfl

/-- A new node is in front of its list. -/
theorem Lists.insert (holds : wheel.Lists lists) (free : wheel.heap timer = none) :
    (wheel.insert timer fields).Lists
      (Function.update lists fields.timeSlot (timer :: lists fields.timeSlot)) := by
  have apart : ∀ {slot later}, later ∈ lists slot → later ≠ timer := by
    intro slot later member same
    exact holds.absent free slot (same ▸ member)
  refine ⟨fun slot => ?_, fun slot later member => ?_⟩
  · by_cases same : slot = fields.timeSlot
    · subst same
      have first : (wheel.insert timer fields).slots fields.timeSlot = some timer :=
        Function.update_self _ _ _
      rw [Listed, Function.update_self, first]
      refine Segment.push (holds.listed fields.timeSlot) (holds.absent free _) ?_ ?_
        (fun later member => insert_next (apart member))
        (fun later member => insert_prev (apart member) (holds.allocated member))
      · simp only [links, LinkedWheel.insert, Function.update_self, Option.bind_some]
      · simp only [links, LinkedWheel.insert, Function.update_self, Option.bind_some]
    · have sameSlot : (wheel.insert timer fields).slots slot = wheel.slots slot :=
        Function.update_of_ne same _ _
      rw [Listed, Function.update_of_ne same, sameSlot]
      refine Segment.congr (holds.listed slot) (fun later member => insert_next (apart member))
        (fun later member => ?_)
      rw [insert_prev (apart member) (holds.allocated member), if_neg]
      intro isHead
      rw [holds.slots_eq] at isHead
      exact same (holds.slot_unique member (List.mem_of_head? isHead))
  · rw [insert_payload]
    by_cases isNew : later = timer
    · subst isNew
      have slotEq : slot = fields.timeSlot := by
        by_contra different
        rw [Function.update_of_ne different] at member
        exact holds.absent free slot member
      rw [Function.update_self, Option.map_some, slotEq]
    · have old : later ∈ lists slot := by
        by_cases same : slot = fields.timeSlot
        · subst same
          rw [Function.update_self] at member
          exact List.mem_of_ne_of_mem isNew member
        · rwa [Function.update_of_ne same] at member
      rw [Function.update_of_ne isNew]
      exact holds.timeSlot slot later old

end Insertion

/-! ## The loop of `tick` -/

/-- What a pass through the loop makes of a node: one with no rotation left is deleted. -/
def turn (fields : UtilTimer) : Option UtilTimer :=
  if 0 < fields.rotation then some fields.lower else none

/-- A node has a rotation left. -/
def stays (wheel : LinkedWheel Addr) (timer : Addr) : Bool :=
  (wheel.payload timer).any fun fields => 0 < fields.rotation

/-- What the callback is called with, for a node that has no rotation left. -/
def dueData (wheel : LinkedWheel Addr) (timer : Addr) : Option Nat :=
  (wheel.payload timer).bind fun fields =>
    if 0 < fields.rotation then none else some fields.userData

section Loop

variable [DecidableEq Addr] {wheel : LinkedWheel Addr} {lists : Fin N → List Addr} {timer : Addr}
  {node : TimerNode Addr}

/-- The wheel with one rotation less on a node. -/
def lowered (wheel : LinkedWheel Addr) (timer : Addr) (node : TimerNode Addr) :
    LinkedWheel Addr :=
  { wheel with
    heap := Function.update wheel.heap timer (some { node with rotation := node.rotation - 1 }) }

theorem lowered_payload :
    (wheel.lowered timer node).payload =
      Function.update wheel.payload timer (some node.toUtilTimer.lower) := by
  funext later
  by_cases same : later = timer
  · subst same
    simp only [payload, lowered, Function.update_self, Option.map_some, UtilTimer.lower]
  · simp only [payload, lowered, Function.update_of_ne same]

theorem lowered_links (found : wheel.heap timer = some node) :
    (wheel.lowered timer node).links = wheel.links := by
  have pointers : ∀ (pointer : TimerNode Addr → Option Addr),
      pointer { node with rotation := node.rotation - 1 } = pointer node → ∀ later,
        ((wheel.lowered timer node).heap later).bind pointer = (wheel.heap later).bind pointer := by
    intro pointer kept later
    by_cases same : later = timer
    · subst same
      simp only [lowered, Function.update_self, found, Option.bind_some, kept]
    · simp only [lowered, Function.update_of_ne same]
  simp only [links, Links.mk.injEq]
  exact ⟨funext (pointers TimerNode.next rfl), funext (pointers TimerNode.prev rfl)⟩

theorem Lists.lowered (holds : wheel.Lists lists) (found : wheel.heap timer = some node) :
    (wheel.lowered timer node).Lists lists := by
  refine ⟨fun slot => ?_, fun slot later member => ?_⟩
  · rw [Listed, lowered_links found]
    exact holds.listed slot
  · rw [lowered_payload]
    by_cases same : later = timer
    · subst same
      rw [Function.update_self, Option.map_some, UtilTimer.lower]
      exact congrArg some (holds.timeSlot_eq member found)
    · rw [Function.update_of_ne same]
      exact holds.timeSlot slot later member

/-- What the loop leaves of the nodes it goes through, from what they were. -/
def LoopEnd (wheel : LinkedWheel Addr) (rest : List Addr) (next : LinkedWheel Addr) : Prop :=
  next.curSlot = wheel.curSlot ∧
    ∀ timer, next.payload timer =
      if timer ∈ rest then (wheel.payload timer).bind turn else wheel.payload timer

/-- A pass in front of the others. -/
theorem LoopEnd.cons {first next : LinkedWheel Addr} {fields : UtilTimer} {rest : List Addr}
    (ends : first.LoopEnd rest next) (sameSlot : first.curSlot = wheel.curSlot)
    (isFields : wheel.payload timer = some fields)
    (changed : first.payload = Function.update wheel.payload timer (turn fields))
    (fresh : timer ∉ rest) : wheel.LoopEnd (timer :: rest) next := by
  refine ⟨ends.1.trans sameSlot, fun later => ?_⟩
  rw [ends.2 later, changed]
  by_cases same : later = timer
  · subst same
    rw [if_neg fresh, Function.update_self, if_pos List.mem_cons_self, isFields, Option.bind_some]
  · simp only [Function.update_of_ne same, List.mem_cons, same, false_or]

/-- The other nodes are read as before. -/
theorem reads_congr {first : LinkedWheel Addr} {fields : Option UtilTimer} {rest : List Addr}
    (changed : first.payload = Function.update wheel.payload timer fields) (fresh : timer ∉ rest) :
    rest.filter first.stays = rest.filter wheel.stays ∧
      rest.filterMap first.dueData = rest.filterMap wheel.dueData := by
  have same : ∀ later ∈ rest, first.payload later = wheel.payload later := by
    intro later member
    have apart : later ≠ timer := fun isTimer => fresh (isTimer ▸ member)
    rw [changed, Function.update_of_ne apart]
  constructor
  · exact List.filter_congr fun later member => by simp only [stays, same later member]
  · exact List.filterMap_congr fun later member => by simp only [dueData, same later member]

/-- A pass in which the node stays. -/
theorem tickLoop_lowered {bound : Nat} (found : wheel.heap timer = some node)
    (left : 0 < node.rotation) :
    tickLoop (bound + 1) wheel (some timer) =
      tickLoop bound (wheel.lowered timer node) node.next := by
  have stored : wheel.store (some timer)
      (fun node => { node with rotation := node.rotation - 1 }) =
        some (wheel.lowered timer node) := store_eq _ found
  have again : (wheel.lowered timer node).heap timer =
      some { node with rotation := node.rotation - 1 } := Function.update_self _ _ _
  simp only [tickLoop, found, Option.bind_eq_bind, Option.bind_some, if_pos left, stored, again]

/-- A pass in which the node is deleted. -/
theorem tickLoop_removed {bound : Nat} {next : LinkedWheel Addr} {called : List Nat}
    (removable : wheel.Removable timer node) (atSlot : node.timeSlot = wheel.curSlot)
    (due : ¬0 < node.rotation)
    (ran : tickLoop bound (wheel.remove timer node) node.next = some (next, called)) :
    tickLoop (bound + 1) wheel (some timer) = some (next, node.userData :: called) := by
  simp only [tickLoop, removable.found, Option.bind_eq_bind, Option.bind_some, if_neg due,
    removable.unlink atSlot, ran]

/-- The loop takes the nodes with no rotation left out of the list, and no other nodes. -/
theorem tickLoop_eq {kept rest : List Addr} {bound : Nat} (holds : wheel.Lists lists)
    (split : lists wheel.curSlot = kept ++ rest) (enough : rest.length < bound) :
    ∃ next, tickLoop bound wheel rest.head? = some (next, rest.filterMap wheel.dueData) ∧
      next.Lists (Function.update lists wheel.curSlot (kept ++ rest.filter wheel.stays)) ∧
      wheel.LoopEnd rest next := by
  induction rest generalizing wheel lists kept bound with
  | nil =>
      obtain ⟨bound, rfl⟩ := Nat.exists_eq_add_one_of_ne_zero (Nat.ne_of_gt enough)
      refine ⟨wheel, rfl, ?_, rfl, fun timer => rfl⟩
      rw [List.filter_nil, ← split, Function.update_eq_self]
      exact holds
  | cons timer rest ih =>
      obtain ⟨bound, rfl⟩ :=
        Nat.exists_eq_add_one_of_ne_zero (Nat.ne_of_gt (Nat.zero_lt_of_lt enough))
      have enoughLeft : rest.length < bound := Nat.lt_of_succ_lt_succ enough
      have member : timer ∈ lists wheel.curSlot := by
        rw [split]
        exact List.mem_append_right kept List.mem_cons_self
      have nodup := holds.nodup wheel.curSlot
      rw [split] at nodup
      have fresh : timer ∉ rest := (List.nodup_cons.mp (List.nodup_append.mp nodup).2.1).1
      obtain ⟨node, found, atSlot⟩ := holds.inUse member
      have isNext : node.next = rest.head? := (holds.pointers split found).2
      have isFields : wheel.payload timer = some node.toUtilTimer := by
        rw [payload, found, Option.map_some]
      by_cases left : 0 < node.rotation
      · have changed : (wheel.lowered timer node).payload =
            Function.update wheel.payload timer (turn node.toUtilTimer) := by
          rw [lowered_payload, turn, if_pos left]
        have splitOn : lists (wheel.lowered timer node).curSlot = (kept ++ [timer]) ++ rest := by
          rw [List.append_assoc]
          exact split
        obtain ⟨next, ran, nextLists, ends⟩ := ih (holds.lowered found) splitOn enoughLeft
        obtain ⟨staying, due⟩ := reads_congr changed fresh
        have stay : wheel.stays timer = true := by
          simp only [stays, isFields, Option.any_some, left, decide_true]
        have notDue : wheel.dueData timer = none := by
          simp only [dueData, isFields, Option.bind_some, if_pos left]
        refine ⟨next, ?_, ?_, ends.cons rfl isFields changed fresh⟩
        · rw [List.head?_cons, tickLoop_lowered found left, isNext,
            List.filterMap_cons_none notDue, ← due, ran]
        · rw [List.filter_cons_of_pos stay, ← staying, List.append_cons]
          exact nextLists
      · have changed : (wheel.remove timer node).payload =
            Function.update wheel.payload timer (turn node.toUtilTimer) := by
          rw [remove_payload, turn, if_neg left]
        have notInKept : timer ∉ kept := fun again =>
          List.disjoint_of_nodup_append nodup again List.mem_cons_self
        have erased : (lists wheel.curSlot).erase timer = kept ++ rest := by
          rw [split, List.erase_append_right (timer :: rest) notInKept, List.erase_cons_head]
        have splitOn : Function.update lists wheel.curSlot ((lists wheel.curSlot).erase timer)
            (wheel.remove timer node).curSlot = kept ++ rest := by
          rw [← erased]
          exact Function.update_self _ _ _
        obtain ⟨next, ran, nextLists, ends⟩ := ih (holds.remove member found) splitOn enoughLeft
        obtain ⟨staying, due⟩ := reads_congr changed fresh
        have goes : ¬wheel.stays timer = true := by
          simp only [stays, isFields, Option.any_some, left, decide_false, Bool.false_eq_true,
            not_false_eq_true]
        have isDue : wheel.dueData timer = some node.userData := by
          simp only [dueData, isFields, Option.bind_some, if_neg left]
        refine ⟨next, ?_, ?_, ends.cons rfl isFields changed fresh⟩
        · rw [← isNext] at ran
          rw [List.head?_cons, List.filterMap_cons_some isDue, ← due]
          exact tickLoop_removed (holds.removable member found) atSlot left ran
        · rw [List.filter_cons_of_neg goes, ← staying]
          have sameSlot : (wheel.remove timer node).curSlot = wheel.curSlot := rfl
          rw [sameSlot, Function.update_idem] at nextLists
          exact nextLists

end Loop

/-! ## What the calls do to the lists -/

section Calls

variable [DecidableEq Addr] {wheel : LinkedWheel Addr} {lists : Fin N → List Addr}

/-- `add_timer` makes a node, and puts it in front of the list of its slot. -/
def Adds (wheel : LinkedWheel Addr) (lists : Fin N → List Addr) : Prop :=
  ∀ timer timeout data, wheel.heap timer = none →
    if timeout < 0 then
      wheel.addTimer timer timeout data = some (none, wheel)
    else
      let fields := wheel.newTimer timeout data
      ∃ next, wheel.addTimer timer timeout data = some (some timer, next) ∧
        next.Lists
          (Function.update lists fields.timeSlot (timer :: lists fields.timeSlot)) ∧
        next.curSlot = wheel.curSlot ∧
        next.payload = Function.update wheel.payload timer (some fields)

/-- `del_timer` deletes its argument, and takes it out of its list. -/
def Deletes (wheel : LinkedWheel Addr) (lists : Fin N → List Addr) : Prop :=
  ∀ slot, ∀ timer ∈ lists slot, ∃ next, wheel.delTimer (some timer) = some next ∧
    next.Lists (Function.update lists slot ((lists slot).erase timer)) ∧
    next.curSlot = wheel.curSlot ∧ next.payload = Function.update wheel.payload timer none

/-- `tick` returns.  It takes the nodes with no rotation left out of the current list, deletes
them, calls their callbacks in order, takes one rotation from the others on that list, and
goes on to the next slot. -/
def Ticks (wheel : LinkedWheel Addr) (lists : Fin N → List Addr) : Prop :=
  let current := lists wheel.curSlot
  ∀ bound, current.length < bound →
    ∃ next, wheel.tick bound = some (next, current.filterMap wheel.dueData) ∧
      next.Lists (Function.update lists wheel.curSlot (current.filter wheel.stays)) ∧
      next.curSlot = Fin.ofNat N (wheel.curSlot + 1) ∧
      ∀ timer, next.payload timer =
        if timer ∈ current then (wheel.payload timer).bind turn else wheel.payload timer

theorem Lists.adds (holds : wheel.Lists lists) : wheel.Adds lists := by
  intro timer timeout data free
  by_cases negative : timeout < 0
  · rw [if_pos negative, addTimer, if_pos negative]
  · have valid : wheel.Valid (wheel.slots (wheel.newTimer timeout data).timeSlot) := by
      intro head isHead
      rw [holds.slots_eq] at isHead
      exact holds.allocated (List.mem_of_head? isHead)
    rw [if_neg negative]
    exact ⟨_, addTimer_eq free valid negative, holds.insert free, rfl, insert_payload⟩

theorem Lists.deletes (holds : wheel.Lists lists) : wheel.Deletes lists := by
  intro slot timer member
  obtain ⟨node, found, _⟩ := holds.inUse member
  exact ⟨_, (holds.removable member found).delTimer, holds.remove member found, rfl,
    remove_payload⟩

theorem Lists.ticks (holds : wheel.Lists lists) : wheel.Ticks lists := by
  intro bound enough
  obtain ⟨next, ran, nextLists, sameSlot, fields⟩ :=
    tickLoop_eq holds (List.nil_append (lists wheel.curSlot)).symm enough
  refine ⟨{ next with curSlot := Fin.ofNat N (wheel.curSlot + 1) }, ?_, ?_, rfl, fields⟩
  · simp only [tick, holds.slots_eq, Option.bind_eq_bind, ran, Option.bind_some, sameSlot]
  · exact ⟨nextLists.listed, nextLists.timeSlot⟩

end Calls

/-! ## Runs -/

/-- A node that pointers lead to, from the slots on. -/
inductive Reachable (wheel : LinkedWheel Addr) : Addr → Prop where
  | slot {slot : Fin N} {timer : Addr} : wheel.slots slot = some timer → Reachable wheel timer
  | next {timer later : Addr} :
      Reachable wheel timer → wheel.links.next timer = some later → Reachable wheel later
  | prev {timer later : Addr} :
      Reachable wheel timer → wheel.links.prev timer = some later → Reachable wheel later

/-- The slots head finite lists without cycles, linked both ways; their nodes name the slot they
are in; no node is in two lists; and the nodes that pointers lead to are those on the lists, and
have not been freed. -/
structure WellLinked (wheel : LinkedWheel Addr) (lists : Fin N → List Addr) : Prop where
  listed : ∀ slot, wheel.Listed slot (lists slot)
  head : ∀ slot, wheel.slots slot = (lists slot).head?
  headPrev : ∀ slot head, wheel.slots slot = some head → wheel.links.prev head = none
  acyclic : ∀ slot, (lists slot).Nodup
  next_iff_prev : ∀ slot, ∀ left ∈ lists slot, ∀ right ∈ lists slot,
    (wheel.links.next left = some right ↔ wheel.links.prev right = some left)
  timeSlot : ∀ slot, ∀ timer ∈ lists slot,
    (wheel.payload timer).map UtilTimer.timeSlot = some slot
  apart : ∀ slot other timer, timer ∈ lists slot → timer ∈ lists other → slot = other
  reachable : ∀ timer, wheel.Reachable timer ↔ ∃ slot, timer ∈ lists slot
  inUse : ∀ timer, wheel.Reachable timer → wheel.heap timer ≠ none

namespace Lists

variable {wheel : LinkedWheel Addr} {lists : Fin N → List Addr} {timer : Addr}

theorem reachable_iff (holds : wheel.Lists lists) :
    wheel.Reachable timer ↔ ∃ slot, timer ∈ lists slot := by
  constructor
  · intro reachable
    induction reachable with
    | slot isHead =>
        rw [holds.slots_eq] at isHead
        exact ⟨_, List.mem_of_head? isHead⟩
    | next _ isNext ih =>
        obtain ⟨slot, member⟩ := ih
        obtain ⟨node, found, _⟩ := holds.inUse member
        obtain ⟨front, back, split⟩ := List.append_of_mem member
        simp only [links, found, Option.bind_some, (holds.pointers split found).2] at isNext
        have inBack := List.mem_of_head? isNext
        exact ⟨slot, split ▸ List.mem_append_right front (List.mem_cons_of_mem _ inBack)⟩
    | prev _ isPrev ih =>
        obtain ⟨slot, member⟩ := ih
        obtain ⟨node, found, _⟩ := holds.inUse member
        obtain ⟨front, back, split⟩ := List.append_of_mem member
        simp only [links, found, Option.bind_some, (holds.pointers split found).1] at isPrev
        have inFront := List.mem_of_getLast? isPrev
        exact ⟨slot, split ▸ List.mem_append_left (_ :: back) inFront⟩
  · rintro ⟨slot, member⟩
    have along : ∀ nodes before first, Segment wheel.links before first nodes none →
        (∀ timer, first = some timer → wheel.Reachable timer) →
          ∀ timer ∈ nodes, wheel.Reachable timer := by
      intro nodes
      induction nodes with
      | nil => exact fun _ _ _ _ timer member => absurd member List.not_mem_nil
      | cons node nodes ih =>
          intro before first segment reachable timer member
          obtain ⟨isFirst, _, rest⟩ := segment
          have atNode := reachable node isFirst
          rcases List.mem_cons.mp member with rfl | member
          · exact atNode
          · exact ih (some node) _ rest (fun later isNext => atNode.next isNext) timer member
    exact along (lists slot) none _ (holds.listed slot) (fun _ isHead => .slot isHead) timer member

theorem wellLinked (holds : wheel.Lists lists) : wheel.WellLinked lists where
  listed := holds.listed
  head := holds.slots_eq
  headPrev := by
    intro slot head isHead
    have segment := holds.listed slot
    rw [Listed, isHead] at segment
    rw [holds.slots_eq] at isHead
    obtain ⟨nodes, isList⟩ := List.head?_eq_some_iff.mp isHead
    rw [isList] at segment
    exact segment.2.1
  acyclic := holds.nodup
  next_iff_prev := fun slot _ leftMember _ rightMember =>
    Segment.next_iff_prev (holds.listed slot) leftMember rightMember
  timeSlot := holds.timeSlot
  apart := fun _ _ _ member again => holds.slot_unique member again
  reachable := fun _ => holds.reachable_iff
  inUse := by
    intro timer reachable
    obtain ⟨slot, member⟩ := holds.reachable_iff.mp reachable
    exact holds.allocated member

/-- Every proper call returns, and leaves lists behind. -/
theorem step [DecidableEq Addr] (holds : wheel.Lists lists) {call : WheelCall Addr}
    (proper : wheel.Proper call) :
    ∃ next called, wheel.step call = some (next, called) ∧ ∃ lists, next.Lists lists := by
  cases call with
  | add timer timeout data =>
      have added := holds.adds timer timeout data proper
      by_cases negative : timeout < 0
      · rw [if_pos negative] at added
        refine ⟨wheel, [], ?_, lists, holds⟩
        rw [LinkedWheel.step, added, Option.map_some]
      · rw [if_neg negative] at added
        obtain ⟨next, added, nextLists, _⟩ := added
        refine ⟨next, [], ?_, _, nextLists⟩
        rw [LinkedWheel.step, added, Option.map_some]
  | del timer =>
      obtain ⟨slot, nodes, listed, member⟩ := proper
      rw [holds.unique listed] at member
      obtain ⟨next, deleted, nextLists, _⟩ := holds.deletes slot timer member
      refine ⟨next, [], ?_, _, nextLists⟩
      rw [LinkedWheel.step, deleted, Option.map_some]
  | tick bound =>
      obtain ⟨next, ticked, nextLists, _⟩ :=
        holds.ticks bound (proper _ (holds.listed wheel.curSlot))
      exact ⟨next, _, ticked, _, nextLists⟩

end Lists

/-- A bound above the length of the current list will do. -/
theorem Proper.tick {wheel : LinkedWheel Addr} {bound : Nat} (nodes : List Addr)
    (listed : wheel.Listed wheel.curSlot nodes) (enough : nodes.length < bound) :
      wheel.Proper (.tick bound) := by
  intro others again
  rwa [Segment.unique again listed]

/-- A sequence of proper calls follows no null pointer and no pointer to a freed node, leaves
well-formed lists behind, and each further call changes them as it should. -/
theorem run_of_proper [DecidableEq Addr] {calls : List (WheelCall Addr)}
    (proper : RunMeets step Proper start calls) :
    ∃ wheel called lists, run step (start : LinkedWheel Addr) calls = some (wheel, called) ∧
      wheel.WellLinked lists ∧ wheel.Adds lists ∧ wheel.Deletes lists ∧ wheel.Ticks lists := by
  have progress : ∀ (wheel : LinkedWheel Addr) call, (∃ lists, wheel.Lists lists) →
      wheel.Proper call →
        ∃ next called, wheel.step call = some (next, called) ∧ ∃ lists, next.Lists lists := by
    rintro wheel call ⟨lists, holds⟩ proper
    exact holds.step proper
  obtain ⟨wheel, called, ran, lists, holds⟩ :=
    run_of_meets (fun wheel => ∃ lists, wheel.Lists lists) progress ⟨_, Lists.start⟩ proper
  exact ⟨wheel, called, lists, ran, holds.wellLinked, holds.adds, holds.deletes, holds.ticks⟩

/-- Three timers, of which one is deleted, one has a rotation left, and one expires. -/
theorem run_of_proper_threeTimers :
    ∃ wheel called lists,
      run step start [.add 1 0 10, .add 2 0 20, .add 3 60 30, .del 1, .tick 2, .tick 2] =
          some (wheel, called) ∧
        wheel.WellLinked lists ∧ wheel.Adds lists ∧ wheel.Deletes lists ∧ wheel.Ticks lists := by
  apply run_of_proper
  refine (runMeets_cons_some rfl).mpr ⟨rfl, ?_⟩
  refine (runMeets_cons_some rfl).mpr ⟨rfl, ?_⟩
  refine (runMeets_cons_some rfl).mpr ⟨rfl, ?_⟩
  refine (runMeets_cons_some rfl).mpr ⟨⟨1, [2, 1], ⟨rfl, rfl, rfl, rfl, rfl⟩, by decide⟩, ?_⟩
  refine (runMeets_cons_some rfl).mpr ⟨Proper.tick [3] ⟨rfl, rfl, rfl⟩ (by decide), ?_⟩
  exact (runMeets_cons_some rfl).mpr ⟨Proper.tick [2] ⟨rfl, rfl, rfl⟩ (by decide), trivial⟩

/-! ## The wheel of lists -/

/-- A wheel of lists that the pointers link, with the fields of the nodes on them. -/
structure Represents (linked : LinkedWheel Addr) (wheel : TimeWheel Addr) : Prop where
  lists : linked.Lists wheel.slots
  curSlot : linked.curSlot = wheel.curSlot
  fields : ∀ slot, ∀ timer ∈ wheel.slots slot, linked.payload timer = some (wheel.timers timer)

namespace Represents

variable {linked : LinkedWheel Addr} {wheel : TimeWheel Addr} {timer : Addr}

theorem start (timers : Addr → UtilTimer) :
    (start : LinkedWheel Addr).Represents (TimeWheel.empty timers) where
  lists := Lists.start
  curSlot := rfl
  fields := fun _ _ member => absurd member List.not_mem_nil

theorem wf (represents : linked.Represents wheel) : wheel.WF where
  timeSlot_eq := by
    intro slot timer member
    have named := represents.lists.timeSlot slot timer member
    rwa [represents.fields slot timer member, Option.map_some, Option.some.injEq] at named
  nodup := represents.lists.nodup

variable [DecidableEq Addr]

/-- `add_timer` and the caller's assignment do to the lists what they do there. -/
theorem addTimer (represents : linked.Represents wheel) {timeout : Int} {next : TimeWheel Addr}
    (free : linked.heap timer = none) (data : Nat)
    (added : wheel.addTimer timer timeout = some next) :
    ∃ after, linked.addTimer timer timeout data = some (some timer, after) ∧
      after.Represents (next.setUserData timer data) := by
  simp only [TimeWheel.addTimer] at added
  split at added
  · contradiction
  · rename_i nonneg
    cases added
    have made := represents.lists.adds timer timeout data free
    rw [if_neg nonneg] at made
    obtain ⟨after, made, lists, sameSlot, fields⟩ := made
    refine ⟨after, made, ?_, sameSlot.trans represents.curSlot, ?_⟩
    · simpa only [TimeWheel.setUserData, newTimer, represents.curSlot] using lists
    · intro slot later member
      rw [fields]
      by_cases isNew : later = timer
      · subst isNew
        simp only [TimeWheel.setUserData, newTimer, represents.curSlot, Function.update_self]
      · simp only [TimeWheel.setUserData, Function.update_of_ne isNew]
        simp only [TimeWheel.setUserData, Function.update_apply] at member
        split at member
        · rename_i here
          exact represents.fields _ later (List.mem_of_ne_of_mem isNew member)
        · exact represents.fields slot later member

/-- `del_timer` does to the lists what it does there. -/
theorem delTimer (represents : linked.Represents wheel) (member : wheel.Linked timer) :
    ∃ after, linked.delTimer (some timer) = some after ∧
      after.Represents (wheel.delTimer timer) := by
  obtain ⟨slot, member⟩ := member
  have atSlot := represents.wf.timeSlot_eq slot timer member
  obtain ⟨after, deleted, lists, sameSlot, fields⟩ := represents.lists.deletes slot timer member
  refine ⟨after, deleted, ?_, sameSlot.trans represents.curSlot, fun other later inOther => ?_⟩
  · simpa only [TimeWheel.delTimer, atSlot] using lists
  · have staying : later ∈ wheel.slots other ∧ later ≠ timer := by
      simp only [TimeWheel.delTimer, atSlot, Function.update_apply] at inOther
      split at inOther
      · rename_i here
        rw [(represents.lists.nodup slot).mem_erase_iff] at inOther
        exact ⟨here ▸ inOther.2, inOther.1⟩
      · rename_i different
        exact ⟨inOther, fun same =>
          different (represents.lists.slot_unique inOther (same ▸ member))⟩
    rw [fields, Function.update_of_ne staying.2]
    exact represents.fields other later staying.1

/-- `tick` does to the lists what it does there, and calls the same callbacks. -/
theorem tick (represents : linked.Represents wheel) {bound : Nat}
    (enough : (wheel.slots wheel.curSlot).length < bound) :
    ∃ after, linked.tick bound =
        some (after, wheel.tick.fired.map fun timer => (wheel.timers timer).userData) ∧
      after.Represents wheel.tick.wheel := by
  have ticked := represents.lists.ticks
  simp only [Ticks, represents.curSlot] at ticked
  obtain ⟨after, ran, lists, cursor, fields⟩ := ticked bound enough
  have nodup := represents.lists.nodup wheel.curSlot
  have fieldsOf := represents.fields wheel.curSlot
  have staying : (wheel.slots wheel.curSlot).filter linked.stays =
      (TimeWheel.tickList wheel.timers (wheel.slots wheel.curSlot)).2.1 := by
    rw [TimeWheel.tickList_kept _ _ nodup]
    exact List.filter_congr fun timer member => by
      rw [stays, fieldsOf timer member, Option.any_some]
  have due : (wheel.slots wheel.curSlot).filterMap linked.dueData =
      wheel.tick.fired.map fun timer => (wheel.timers timer).userData := by
    rw [← List.filterMap_eq_map, TimeWheel.tick, TimeWheel.tickList_fired _ _ nodup,
      List.filterMap_filter]
    refine List.filterMap_congr fun timer member => ?_
    rw [dueData, fieldsOf timer member, Option.bind_some]
    by_cases left : 0 < (wheel.timers timer).rotation
    · have nonzero : ¬(wheel.timers timer).rotation = 0 := Nat.ne_of_gt left
      simp only [if_pos left, nonzero, decide_false, Bool.false_eq_true, if_false]
    · have zero : (wheel.timers timer).rotation = 0 := Nat.eq_zero_of_not_pos left
      rw [if_neg left, if_pos (decide_eq_true zero), Function.comp_apply]
  rw [due] at ran
  rw [staying] at lists
  refine ⟨after, ran, lists, cursor, fun slot timer member => ?_⟩
  have kept : timer ∈ wheel.slots slot ∧
      (timer ∈ wheel.slots wheel.curSlot → 0 < (wheel.timers timer).rotation) := by
    simp only [TimeWheel.tick, TimeWheel.tickList_kept _ _ nodup, Function.update_apply] at member
    split at member
    · rename_i here
      subst here
      rw [List.mem_filter, decide_eq_true_eq] at member
      exact ⟨member.1, fun _ => member.2⟩
    · rename_i different
      exact ⟨member, fun again =>
        absurd (represents.lists.slot_unique member again) different⟩
  rw [fields, represents.fields slot timer kept.1]
  simp only [TimeWheel.tick, TimeWheel.tickList_timers _ _ nodup]
  split
  · rename_i current
    rw [Option.bind_some, turn, if_pos (kept.2 current)]
  · rfl

end Represents

end TimeGANWebServer.Timer.LinkedWheel
