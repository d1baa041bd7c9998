import TimeGANWebServer.Support.DoublyLinked
import TimeGANWebServer.Support.Run
import TimeGANWebServer.Timer.Wheel

/-!
# The wheel in its heap

`add_timer`, `del_timer` and `tick` in `timer/lst_timer.cpp` as they write pointers.  A slot
holds the pointer to its first node, and the nodes are linked both ways.  A step that follows a
null pointer, or a pointer to a node that has been deleted, is `none`.
-/

namespace TimeGANWebServer.Timer

open TimeGANWebServer.Support

universe u

/-- A `util_timer` with its pointers. -/
structure TimerNode (Addr : Type u) extends UtilTimer where
  prev : Option Addr
  next : Option Addr
  deriving DecidableEq, Repr

/-- `time_wheel`, with the nodes that `new` has returned and `delete` has not taken back. -/
structure LinkedWheel (Addr : Type u) where
  slots : Fin N → Option Addr
  curSlot : Fin N
  heap : Addr → Option (TimerNode Addr)

namespace LinkedWheel

variable {Addr : Type u}

/-- `time_wheel::time_wheel`. -/
def start : LinkedWheel Addr where
  slots := fun _ => none
  curSlot := 0
  heap := fun _ => none

section Operations

variable [DecidableEq Addr]

/-! ## Accesses -/

/-- Change the node a pointer leads to. -/
def store (wheel : LinkedWheel Addr) (pointer : Option Addr)
    (change : TimerNode Addr → TimerNode Addr) : Option (LinkedWheel Addr) :=
  match pointer with
  | none => none
  | some timer =>
      (wheel.heap timer).map fun node =>
        { wheel with heap := Function.update wheel.heap timer (some (change node)) }

/-- `pointer->prev = value`. -/
def setPrev (wheel : LinkedWheel Addr) (pointer value : Option Addr) : Option (LinkedWheel Addr) :=
  wheel.store pointer fun node => { node with prev := value }

/-- `pointer->next = value`. -/
def setNext (wheel : LinkedWheel Addr) (pointer value : Option Addr) : Option (LinkedWheel Addr) :=
  wheel.store pointer fun node => { node with next := value }

/-- `if (pointer) pointer->prev = value`. -/
def setPrevIf (wheel : LinkedWheel Addr) (pointer value : Option Addr) :
    Option (LinkedWheel Addr) :=
  if pointer ≠ none then wheel.setPrev pointer value else some wheel

/-- `slots[slot] = value`. -/
def setSlot (wheel : LinkedWheel Addr) (slot : Fin N) (value : Option Addr) : LinkedWheel Addr :=
  { wheel with slots := Function.update wheel.slots slot value }

/-- `delete`. -/
def delete (wheel : LinkedWheel Addr) (timer : Addr) : LinkedWheel Addr :=
  { wheel with heap := Function.update wheel.heap timer none }

/-! ## The functions -/

/-- `time_wheel::add_timer`, with the address `timer` that `new util_timer` returned, and the
caller's assignment of `user_data`.  It returns the null pointer for a negative timeout. -/
def addTimer (wheel : LinkedWheel Addr) (timer : Addr) (timeout : Int) (data : Nat) :
    Option (Option Addr × LinkedWheel Addr) :=
  if timeout < 0 then
    some (none, wheel)
  else do
    let ticks := ticksOf timeout
    let ts : Fin N := Fin.ofNat N (wheel.curSlot + ticks % N)
    let node : TimerNode Addr :=
      { rotation := ticks / N, timeSlot := ts, userData := data, prev := none, next := none }
    let wheel := { wheel with heap := Function.update wheel.heap timer (some node) }
    match wheel.slots ts with
    | none => some (some timer, wheel.setSlot ts (some timer))
    | some head =>
        let wheel ← wheel.setNext (some timer) (some head)
        let wheel ← wheel.setPrev (wheel.slots ts) (some timer)
        some (some timer, wheel.setSlot ts (some timer))

/-- `time_wheel::del_timer`. -/
def delTimer (wheel : LinkedWheel Addr) (pointer : Option Addr) : Option (LinkedWheel Addr) :=
  match pointer with
  | none => some wheel
  | some timer => do
      let node ← wheel.heap timer
      let ts := node.timeSlot
      if some timer = wheel.slots ts then
        let wheel := wheel.setSlot ts node.next
        let wheel ← wheel.setPrevIf (wheel.slots ts) none
        some (wheel.delete timer)
      else
        let wheel ← wheel.setNext node.prev node.next
        let node ← wheel.heap timer
        let wheel ← wheel.setPrevIf node.next node.prev
        some (wheel.delete timer)

/-- What `tick` does with a node that has expired, behind its callback: the wheel without it, and
the node to go on with. -/
def unlink (wheel : LinkedWheel Addr) (tmp : Addr) : Option (LinkedWheel Addr × Option Addr) := do
  let node ← wheel.heap tmp
  if some tmp = wheel.slots wheel.curSlot then
    let wheel := (wheel.setSlot wheel.curSlot node.next).delete tmp
    let wheel ← wheel.setPrevIf (wheel.slots wheel.curSlot) none
    some (wheel, wheel.slots wheel.curSlot)
  else
    let wheel ← wheel.setNext node.prev node.next
    let node ← wheel.heap tmp
    let wheel ← wheel.setPrevIf node.next node.prev
    let node ← wheel.heap tmp
    some (wheel.delete tmp, node.next)

/-- The loop of `time_wheel::tick` from a node on, in at most `bound` passes: the wheel, and the
user data its callbacks were called with. -/
def tickLoop : Nat → LinkedWheel Addr → Option Addr → Option (LinkedWheel Addr × List Nat)
  | 0, _, _ => none
  | _ + 1, wheel, none => some (wheel, [])
  | bound + 1, wheel, some tmp => do
      let node ← wheel.heap tmp
      if 0 < node.rotation then
        let wheel ← wheel.store (some tmp) fun node => { node with rotation := node.rotation - 1 }
        let node ← wheel.heap tmp
        tickLoop bound wheel node.next
      else
        let (wheel, next) ← wheel.unlink tmp
        let (wheel, called) ← tickLoop bound wheel next
        some (wheel, node.userData :: called)

/-- `time_wheel::tick`. -/
def tick (bound : Nat) (wheel : LinkedWheel Addr) : Option (LinkedWheel Addr × List Nat) := do
  let (wheel, called) ← tickLoop bound wheel (wheel.slots wheel.curSlot)
  some ({ wheel with curSlot := Fin.ofNat N (wheel.curSlot + 1) }, called)

end Operations

end LinkedWheel

/-- A call of `add_timer` with the address that `new` returns in it, of `del_timer`, or of `tick`
with a bound on the passes through its loop. -/
inductive WheelCall (Addr : Type u) where
  | add (timer : Addr) (timeout : Int) (data : Nat)
  | del (timer : Addr)
  | tick (bound : Nat)
  deriving DecidableEq, Repr

namespace LinkedWheel

variable {Addr : Type u}

/-- The pointers of the nodes. -/
def links (wheel : LinkedWheel Addr) : Links Addr where
  next := fun timer => (wheel.heap timer).bind TimerNode.next
  prev := fun timer => (wheel.heap timer).bind TimerNode.prev

/-- One call, and the user data of the callbacks in it. -/
def step [DecidableEq Addr] (wheel : LinkedWheel Addr) :
    WheelCall Addr → Option (LinkedWheel Addr × List Nat)
  | .add timer timeout data => (wheel.addTimer timer timeout data).map fun added => (added.2, [])
  | .del timer => (wheel.delTimer (some timer)).map fun next => (next, [])
  | .tick bound => wheel.tick bound

/-- Some nodes are the list of a slot. -/
def Listed (wheel : LinkedWheel Addr) (slot : Fin N) (nodes : List Addr) : Prop :=
  Segment wheel.links none (wheel.slots slot) nodes none

/-- What is asked of a call: `new` returns memory that is not in use, `del_timer` is called for a
node in the wheel, and the bound lets `tick` go through the current list and see its end. -/
def Proper (wheel : LinkedWheel Addr) : WheelCall Addr → Prop
  | .add timer _ _ => wheel.heap timer = none
  | .del timer => ∃ slot nodes, wheel.Listed slot nodes ∧ timer ∈ nodes
  | .tick bound => ∀ nodes, wheel.Listed wheel.curSlot nodes → nodes.length < bound

/-! ## Writing pointers -/

section Pointers

variable [DecidableEq Addr] {wheel : LinkedWheel Addr} {timer : Addr} {node : TimerNode Addr}

/-- A heap in which the next pointer of one node is changed. -/
def withNext (heap : Addr → Option (TimerNode Addr)) (pointer value : Option Addr) :
    Addr → Option (TimerNode Addr) :=
  fun other => (heap other).map fun node =>
    { node with next := if pointer = some other then value else node.next }

/-- A heap in which the previous pointer of one node is changed. -/
def withPrev (heap : Addr → Option (TimerNode Addr)) (pointer value : Option Addr) :
    Addr → Option (TimerNode Addr) :=
  fun other => (heap other).map fun node =>
    { node with prev := if pointer = some other then value else node.prev }

/-- The pointer is null or leads to a node. -/
def Valid (wheel : LinkedWheel Addr) (pointer : Option Addr) : Prop :=
  ∀ timer, pointer = some timer → wheel.heap timer ≠ none

theorem store_eq (change : TimerNode Addr → TimerNode Addr) (found : wheel.heap timer = some node) :
    wheel.store (some timer) change =
      some { wheel with heap := Function.update wheel.heap timer (some (change node)) } := by
  simp only [store, found, Option.map_some]

/-- A heap that differs in the changed node is what the change leads to. -/
theorem store_of_agree {change : TimerNode Addr → TimerNode Addr}
    {heap : Addr → Option (TimerNode Addr)} (found : wheel.heap timer = some node)
    (changed : heap timer = some (change node))
    (elsewhere : ∀ other, some timer ≠ some other → heap other = wheel.heap other) :
    wheel.store (some timer) change = some { wheel with heap := heap } := by
  rw [store_eq change found]
  congr 2
  funext other
  by_cases same : other = timer
  · rw [same, Function.update_self, changed]
  · rw [Function.update_of_ne same, elsewhere other fun equal => same (Option.some.inj equal).symm]

theorem setNext_eq (value : Option Addr) (found : wheel.heap timer = some node) :
    wheel.setNext (some timer) value =
      some { wheel with heap := withNext wheel.heap (some timer) value } := by
  refine store_of_agree found ?_ fun other different => ?_
  · simp only [withNext, found, Option.map_some, if_true]
  · simp only [withNext, if_neg different, Option.map_id']

theorem setPrev_eq (value : Option Addr) (found : wheel.heap timer = some node) :
    wheel.setPrev (some timer) value =
      some { wheel with heap := withPrev wheel.heap (some timer) value } := by
  refine store_of_agree found ?_ fun other different => ?_
  · simp only [withPrev, found, Option.map_some, if_true]
  · simp only [withPrev, if_neg different, Option.map_id']

theorem withNext_none (heap : Addr → Option (TimerNode Addr)) (value : Option Addr) :
    withNext heap none value = heap := by
  funext other
  simp only [withNext, reduceCtorEq, if_false, Option.map_id']

theorem withPrev_none (heap : Addr → Option (TimerNode Addr)) (value : Option Addr) :
    withPrev heap none value = heap := by
  funext other
  simp only [withPrev, reduceCtorEq, if_false, Option.map_id']

/-- A previous pointer is changed where there is a node. -/
theorem setPrevIf_eq {pointer value : Option Addr} (valid : wheel.Valid pointer) :
    wheel.setPrevIf pointer value =
      some { wheel with heap := withPrev wheel.heap pointer value } := by
  rw [setPrevIf]
  cases pointer with
  | none => rw [if_neg (fun different => different rfl), withPrev_none]
  | some timer =>
      obtain ⟨node, found⟩ := Option.ne_none_iff_exists'.mp (valid timer rfl)
      rw [if_pos (Option.some_ne_none timer), setPrev_eq value found]

/-- The wheel without a node: the nodes around it point at each other. -/
def remove (wheel : LinkedWheel Addr) (timer : Addr) (node : TimerNode Addr) :
    LinkedWheel Addr where
  slots :=
    if node.prev = none then Function.update wheel.slots node.timeSlot node.next else wheel.slots
  curSlot := wheel.curSlot
  heap :=
    Function.update (withPrev (withNext wheel.heap node.prev node.next) node.next node.prev)
      timer none

/-- The node can be taken out: its pointers lead to other nodes, and it is the first one of its
slot exactly if there is none in front of it. -/
structure Removable (wheel : LinkedWheel Addr) (timer : Addr) (node : TimerNode Addr) : Prop where
  found : wheel.heap timer = some node
  prev : wheel.Valid node.prev
  next : wheel.Valid node.next
  notPrev : node.prev ≠ some timer
  notNext : node.next ≠ some timer
  head : some timer = wheel.slots node.timeSlot ↔ node.prev = none

theorem withNext_ne_none {heap : Addr → Option (TimerNode Addr)} {pointer value : Option Addr}
    {other : Addr} (allocated : heap other ≠ none) : withNext heap pointer value other ≠ none := by
  simpa [withNext] using allocated

/-- `del_timer` takes the node out. -/
theorem Removable.delTimer (removable : wheel.Removable timer node) :
    wheel.delTimer (some timer) = some (wheel.remove timer node) := by
  have found := removable.found
  by_cases head : some timer = wheel.slots node.timeSlot
  · have noPrev := removable.head.mp head
    have valid : (wheel.setSlot node.timeSlot node.next).Valid node.next := removable.next
    have atSlot : (wheel.setSlot node.timeSlot node.next).slots node.timeSlot = node.next :=
      Function.update_self _ _ _
    simp only [LinkedWheel.delTimer, found, Option.bind_eq_bind, Option.bind_some, if_pos head,
      atSlot, setPrevIf_eq valid]
    simp only [remove, LinkedWheel.delete, setSlot, noPrev, if_true, withNext_none]
  · have somePrev : node.prev ≠ none := fun none_ => head (removable.head.mpr none_)
    obtain ⟨before, isPrev⟩ := Option.ne_none_iff_exists'.mp somePrev
    obtain ⟨beforeNode, isNode⟩ := Option.ne_none_iff_exists'.mp (removable.prev before isPrev)
    have different : node.prev ≠ some timer := removable.notPrev
    -- the node itself is read again
    have again : withNext wheel.heap node.prev node.next timer = some node := by
      simp only [withNext, found, Option.map_some, if_neg different]
    have valid : Valid { wheel with heap := withNext wheel.heap node.prev node.next } node.next :=
      fun other isNext => withNext_ne_none (removable.next other isNext)
    have linked : wheel.setNext node.prev node.next =
        some { wheel with heap := withNext wheel.heap node.prev node.next } := by
      rw [isPrev, setNext_eq _ isNode]
    simp only [LinkedWheel.delTimer, found, Option.bind_eq_bind, Option.bind_some, if_neg head,
      linked, again, setPrevIf_eq valid]
    simp only [remove, LinkedWheel.delete, if_neg somePrev]

/-- So does `tick`, and goes on with the next node. -/
theorem Removable.unlink (removable : wheel.Removable timer node)
    (current : node.timeSlot = wheel.curSlot) :
    wheel.unlink timer = some (wheel.remove timer node, node.next) := by
  have found := removable.found
  by_cases head : some timer = wheel.slots node.timeSlot
  · have noPrev := removable.head.mp head
    have headCur : some timer = wheel.slots wheel.curSlot := current ▸ head
    have valid : Valid ((wheel.setSlot wheel.curSlot node.next).delete timer) node.next := by
      intro other isNext
      have apart : other ≠ timer := fun same => removable.notNext (same ▸ isNext)
      simp only [LinkedWheel.delete, setSlot, Function.update_of_ne apart]
      exact removable.next other isNext
    have atSlot : ((wheel.setSlot wheel.curSlot node.next).delete timer).slots
        ((wheel.setSlot wheel.curSlot node.next).delete timer).curSlot = node.next :=
      Function.update_self _ _ _
    have sameHeap : withPrev (Function.update wheel.heap timer none) node.next none =
        Function.update (withPrev wheel.heap node.next none) timer none := by
      funext other
      by_cases same : other = timer
      · subst same
        simp only [withPrev, Function.update_self, Option.map_none]
      · simp only [withPrev, Function.update_of_ne same]
    simp only [LinkedWheel.unlink, found, Option.bind_eq_bind, Option.bind_some, if_pos headCur,
      atSlot, setPrevIf_eq valid]
    simp only [remove, LinkedWheel.delete, setSlot, noPrev, if_true, withNext_none, current,
      sameHeap]
  · have somePrev : node.prev ≠ none := fun none_ => head (removable.head.mpr none_)
    have headCur : some timer ≠ wheel.slots wheel.curSlot := current ▸ head
    obtain ⟨before, isPrev⟩ := Option.ne_none_iff_exists'.mp somePrev
    obtain ⟨beforeNode, isNode⟩ := Option.ne_none_iff_exists'.mp (removable.prev before isPrev)
    have again : withNext wheel.heap node.prev node.next timer = some node := by
      simp only [withNext, found, Option.map_some, if_neg removable.notPrev]
    have valid : Valid { wheel with heap := withNext wheel.heap node.prev node.next } node.next :=
      fun other isNext => withNext_ne_none (removable.next other isNext)
    have linked : wheel.setNext node.prev node.next =
        some { wheel with heap := withNext wheel.heap node.prev node.next } := by
      rw [isPrev, setNext_eq _ isNode]
    have last : withPrev (withNext wheel.heap node.prev node.next) node.next node.prev timer =
        some node := by
      simp only [withPrev, again, Option.map_some, if_neg removable.notNext]
    simp only [LinkedWheel.unlink, found, Option.bind_eq_bind, Option.bind_some, if_neg headCur,
      linked, again, setPrevIf_eq valid, last]
    simp only [remove, LinkedWheel.delete, if_neg somePrev]

end Pointers

end LinkedWheel

end TimeGANWebServer.Timer
