import TimeGANWebServer.Support.Ring
import TimeGANWebServer.Support.Run
import Mathlib.Data.List.Forall2

/-!
# The blocking queue

`block_queue` in `log/block_queue.h`.  Each of its functions holds the mutex from its first
access to its last one, so that calls by several threads come one after the other.  `m_front`
and `m_back` are the cells that were popped and pushed last.
-/

namespace TimeGANWebServer.Logging

open TimeGANWebServer.Support

universe u

variable {Item : Type u}

/-- `block_queue`.  `array` is `m_array` together with the memory around it. -/
structure BlockQueue (Item : Type u) where
  array : Int → Item
  size : Int
  maxSize : Int
  front : Int
  back : Int

/-- A call of one of the functions.  `pop` is either `pop` once it does not wait any more. -/
inductive QueueCall (Item : Type u) where
  | push (item : Item)
  | pop
  | clear
  | full
  | empty
  | front
  | back
  | size
  | maxSize
  deriving DecidableEq, Repr

/-- What a call gives back.  An item is `none` where the function returns false. -/
inductive QueueAnswer (Item : Type u) where
  | nothing
  | flag (value : Bool)
  | item (value : Option Item)
  | count (value : Int)
  deriving DecidableEq, Repr

/-- What a call gives back, and the indices of `m_array` it uses. -/
structure QueueEvent (Item : Type u) where
  answer : QueueAnswer Item
  accesses : List Int
  deriving DecidableEq, Repr

/-! ## The queue -/

namespace BlockQueue

/-- The constructor, which exits unless `max_size` is positive. -/
def new (maxSize : Int) (array : Int → Item) : Option (BlockQueue Item) :=
  if maxSize ≤ 0 then
    none
  else
    some { array := array, size := 0, maxSize := maxSize, front := -1, back := -1 }

/-- The queue after a call, and what the call did. -/
abbrev Next (Item : Type u) := Option (BlockQueue Item × List (QueueEvent Item))

/-- `push`. -/
def push (queue : BlockQueue Item) (item : Item) : Next Item :=
  if queue.maxSize ≤ queue.size then
    some (queue, [⟨.flag false, []⟩])
  else
    let back := (queue.back + 1).tmod queue.maxSize
    some ({ queue with
      back := back
      array := Function.update queue.array back item
      size := queue.size + 1 }, [⟨.flag true, [back]⟩])

/-- `pop`, which waits while the queue is empty. -/
def pop (queue : BlockQueue Item) : Next Item :=
  if queue.size ≤ 0 then
    none
  else
    let front := (queue.front + 1).tmod queue.maxSize
    some ({ queue with front := front, size := queue.size - 1 },
      [⟨.item (some (queue.array front)), [front]⟩])

/-- `clear`. -/
def clear (queue : BlockQueue Item) : Next Item :=
  some ({ queue with size := 0, front := -1, back := -1 }, [⟨.nothing, []⟩])

/-- `full`. -/
def full (queue : BlockQueue Item) : Next Item :=
  some (queue, [⟨.flag (decide (queue.maxSize ≤ queue.size)), []⟩])

/-- `empty`. -/
def empty (queue : BlockQueue Item) : Next Item :=
  some (queue, [⟨.flag (decide (queue.size = 0)), []⟩])

/-- The function `front`. -/
def getFront (queue : BlockQueue Item) : Next Item :=
  if queue.size = 0 then
    some (queue, [⟨.item none, []⟩])
  else
    some (queue, [⟨.item (some (queue.array queue.front)), [queue.front]⟩])

/-- The function `back`. -/
def getBack (queue : BlockQueue Item) : Next Item :=
  if queue.size = 0 then
    some (queue, [⟨.item none, []⟩])
  else
    some (queue, [⟨.item (some (queue.array queue.back)), [queue.back]⟩])

/-- One call. -/
def step (queue : BlockQueue Item) : QueueCall Item → Next Item
  | .push item => queue.push item
  | .pop => queue.pop
  | .clear => queue.clear
  | .full => queue.full
  | .empty => queue.empty
  | .front => queue.getFront
  | .back => queue.getBack
  | .size => some (queue, [⟨.count queue.size, []⟩])
  | .maxSize => some (queue, [⟨.count queue.maxSize, []⟩])

end BlockQueue

/-! ## A bounded queue -/

/-- A first-in first-out queue as a list.  `taken` is the element that was taken out last since
the queue was last cleared, which no call depends on. -/
structure Fifo (Item : Type u) where
  held : List Item
  taken : Option Item

namespace Fifo

/-- A queue that has not been used. -/
def fresh : Fifo Item where
  held := []
  taken := none

/-- One call on a queue of some capacity.  An empty queue cannot be popped. -/
def step (capacity : Int) (fifo : Fifo Item) :
    QueueCall Item → Option (Fifo Item × List (QueueAnswer Item))
  | .push item =>
      if capacity ≤ fifo.held.length then
        some (fifo, [.flag false])
      else
        some ({ fifo with held := fifo.held ++ [item] }, [.flag true])
  | .pop =>
      match fifo.held with
      | [] => none
      | oldest :: rest => some ({ held := rest, taken := some oldest }, [.item (some oldest)])
  | .clear => some (fresh, [.nothing])
  | .full => some (fifo, [.flag (decide (capacity ≤ fifo.held.length))])
  | .empty => some (fifo, [.flag (fifo.held.isEmpty)])
  | .front => some (fifo, [.item fifo.held.head?])
  | .back => some (fifo, [.item fifo.held.getLast?])
  | .size => some (fifo, [.count fifo.held.length])
  | .maxSize => some (fifo, [.count capacity])

/-- The element in the cell that was popped last, if there is one: the element taken from it, or
the newest one where this was pushed there, since the queue is full. -/
def lastPopped (capacity : Int) (fifo : Fifo Item) : Option Item :=
  match fifo.taken with
  | none => none
  | some item => if fifo.held.length = capacity then fifo.held.getLast? else some item

/-- Where `front` is called, the queue is empty, or the cell that was popped last holds the same
as the oldest element. -/
def FrontAgrees (capacity : Int) (fifo : Fifo Item) : QueueCall Item → Prop
  | .front => fifo.held = [] ∨ fifo.lastPopped capacity = fifo.held.head?
  | _ => True

instance decidableFrontAgrees [DecidableEq Item] (capacity : Int) (fifo : Fifo Item) :
    (call : QueueCall Item) → Decidable (fifo.FrontAgrees capacity call)
  | .front => inferInstanceAs (Decidable (_ ∨ _))
  | .push _ | .pop | .clear | .full | .empty | .back | .size | .maxSize => .isTrue trivial

end Fifo

/-- An event gives back what a queue of some capacity does, and uses cells of the array only. -/
def QueueEvent.Agrees (maxSize : Int) (event : QueueEvent Item) (answer : QueueAnswer Item) :
    Prop :=
  event.answer = answer ∧ ∀ index ∈ event.accesses, 0 ≤ index ∧ index < maxSize

/-! ## The queue as a list -/

/-- The elements of a queue, in order, are in the cells behind the one that was popped last, and
the last of them in the cell that was pushed last. -/
structure BlockQueue.Represents (capacity : Int) (queue : BlockQueue Item) (fifo : Fifo Item) :
    Prop where
  maxSize : queue.maxSize = capacity
  size : queue.size = fifo.held.length
  room : (fifo.held.length : Int) ≤ capacity
  frontLow : -1 ≤ queue.front
  frontHigh : queue.front < capacity
  backLow : -1 ≤ queue.back
  cursors : queue.back + 1 ≡ queue.front + 1 + fifo.held.length [ZMOD capacity]
  pushed : fifo.held ≠ [] → 0 ≤ queue.back ∧ queue.back < capacity
  held : window queue.array capacity (queue.front + 1) fifo.held.length = fifo.held
  untaken : fifo.taken = none → queue.front = -1
  taken : ∀ item, fifo.taken = some item → 0 ≤ queue.front ∧
    ((fifo.held.length : Int) < capacity → queue.array queue.front = item)

namespace BlockQueue

variable {capacity : Int} {queue : BlockQueue Item} {fifo next : Fifo Item}
  {answers : List (QueueAnswer Item)}

/-- An empty queue, newly made or cleared. -/
theorem represents_fresh (maxSize : queue.maxSize = capacity) (positive : 0 < capacity) :
    Represents capacity { queue with size := 0, front := -1, back := -1 } Fifo.fresh where
  maxSize := maxSize
  size := rfl
  room := Int.le_of_lt positive
  frontLow := Int.le_refl _
  frontHigh := by simp only; omega
  backLow := Int.le_refl _
  cursors := Int.ModEq.refl _
  pushed some_ := absurd rfl some_
  held := rfl
  untaken _ := rfl
  taken _ isTaken := by contradiction

/-- The cell behind the last one that was pushed is behind the elements. -/
theorem Represents.nextBack (represents : Represents capacity queue fifo) :
    (queue.back + 1).tmod capacity = (queue.front + 1 + fifo.held.length) % capacity := by
  have low := represents.backLow
  rw [Int.tmod_eq_emod_of_nonneg (by omega)]
  exact represents.cursors

theorem Represents.nextFront (represents : Represents capacity queue fifo) :
    (queue.front + 1).tmod capacity = (queue.front + 1) % capacity := by
  have low := represents.frontLow
  rw [Int.tmod_eq_emod_of_nonneg (by omega)]

/-- An element behind the others. -/
theorem Represents.push (represents : Represents capacity queue fifo) (item : Item)
    (room : (fifo.held.length : Int) < capacity) :
    Represents capacity
      { queue with
        back := (queue.front + 1 + fifo.held.length) % capacity
        array := Function.update queue.array
          ((queue.front + 1 + fifo.held.length) % capacity) item
        size := queue.size + 1 }
      { fifo with held := fifo.held ++ [item] } := by
  have positive : 0 < capacity := by omega
  have nonneg := Int.emod_nonneg (queue.front + 1 + fifo.held.length) (Int.ne_of_gt positive)
  have below := Int.emod_lt_of_pos (queue.front + 1 + fifo.held.length) positive
  have longer : ((fifo.held ++ [item]).length : Int) = fifo.held.length + 1 := by
    rw [List.length_append, List.length_singleton, Int.natCast_add, Int.natCast_one]
  refine ⟨represents.maxSize, ?_, by simp only; omega, represents.frontLow, represents.frontHigh,
    by simp only; omega, ?_, fun _ => ⟨nonneg, below⟩, ?_, represents.untaken, ?_⟩
  · simp only [represents.size, longer]
  · simp only [longer]
    have same : (queue.front + 1 + fifo.held.length) % capacity ≡
        queue.front + 1 + fifo.held.length [ZMOD capacity] := Int.mod_modEq _ _
    rw [← Int.add_assoc]
    exact same.add_right 1
  · have grown : window (Function.update queue.array
        ((queue.front + 1 + fifo.held.length) % capacity) item) capacity (queue.front + 1)
          (fifo.held.length + 1) =
        window queue.array capacity (queue.front + 1) fifo.held.length ++ [item] :=
      window_push room item
    rw [represents.held] at grown
    rw [List.length_append, List.length_singleton]
    exact grown
  · intro last isTaken
    obtain ⟨low, holds⟩ := represents.taken last isTaken
    refine ⟨low, fun notFull => ?_⟩
    simp only [longer] at notFull
    -- the cell popped last is as far behind the elements as the ring goes
    have around : (queue.front + 1 + ((capacity - 1).toNat : Int)) % capacity = queue.front := by
      have whole : queue.front + 1 + ((capacity - 1).toNat : Int) =
          queue.front + capacity := by omega
      rw [whole, Int.add_emod_right, Int.emod_eq_of_lt low represents.frontHigh]
    have apart : (queue.front + 1 + fifo.held.length) % capacity ≠
        (queue.front + 1 + ((capacity - 1).toNat : Int)) % capacity :=
      emod_ne_of_lt (by omega) (by omega)
    rw [around] at apart
    simp only
    rw [Function.update_of_ne (Ne.symm apart)]
    exact holds room

/-- The first element taken out. -/
theorem Represents.pop (represents : Represents capacity queue fifo) {oldest : Item}
    {rest : List Item} (held : fifo.held = oldest :: rest) :
    queue.array ((queue.front + 1) % capacity) = oldest ∧
      0 ≤ (queue.front + 1) % capacity ∧ (queue.front + 1) % capacity < capacity ∧
      Represents capacity
        { queue with front := (queue.front + 1) % capacity, size := queue.size - 1 }
        { held := rest, taken := some oldest } := by
  have room := represents.room
  have size := represents.size
  have window := represents.held
  have cursors := represents.cursors
  rw [held, List.length_cons] at room size window cursors
  rw [Support.window, List.cons.injEq] at window
  obtain ⟨first, others⟩ := window
  have positive : 0 < capacity := by omega
  have nonneg := Int.emod_nonneg (queue.front + 1) (Int.ne_of_gt positive)
  have below := Int.emod_lt_of_pos (queue.front + 1) positive
  have same : (queue.front + 1) % capacity ≡ queue.front + 1 [ZMOD capacity] := Int.mod_modEq _ _
  refine ⟨first, nonneg, below, ⟨represents.maxSize, ?_, ?_, ?_, below, represents.backLow, ?_,
    fun _ => represents.pushed (by rw [held]; exact List.cons_ne_nil _ _), ?_, ?_, ?_⟩⟩
  · simp only
    omega
  · simp only
    omega
  · simp only
    omega
  · refine cursors.trans ?_
    have moved := (same.add_right (1 + (rest.length : Int))).symm
    have left : queue.front + 1 + (rest.length + 1 : Nat) =
        queue.front + 1 + (1 + (rest.length : Int)) := by omega
    rw [left, Int.add_assoc ((queue.front + 1) % capacity)]
    exact moved
  · rw [window_of_modEq (same.add_right 1)]
    exact others
  · intro isTaken
    contradiction
  · intro item isTaken
    cases isTaken
    exact ⟨nonneg, fun _ => first⟩

/-- The last element is in the cell that was pushed last. -/
theorem Represents.newest (represents : Represents capacity queue fifo) (some_ : fifo.held ≠ []) :
    fifo.held.getLast? = some (queue.array queue.back) := by
  obtain ⟨low, high⟩ := represents.pushed some_
  obtain ⟨count, length⟩ : ∃ count, fifo.held.length = count + 1 :=
    Nat.exists_eq_succ_of_ne_zero fun zero => some_ (List.eq_nil_of_length_eq_zero zero)
  have cursors := represents.cursors
  have held := represents.held
  rw [length] at cursors held
  have cell : (queue.front + 1 + count) % capacity = queue.back := by
    have back : queue.back ≡ queue.front + 1 + count [ZMOD capacity] := by
      refine Int.ModEq.add_right_cancel' 1 ?_
      rwa [Int.natCast_add, Int.natCast_one, ← Int.add_assoc] at cursors
    rw [← back.eq, Int.emod_eq_of_lt low high]
  rw [window_succ, cell] at held
  rw [← held, List.getLast?_concat]

/-- What the cell that was popped last holds. -/
theorem Represents.lastPopped (represents : Represents capacity queue fifo)
    (some_ : fifo.held ≠ []) {item : Item} (taken : fifo.taken = some item) :
    0 ≤ queue.front ∧ fifo.lastPopped capacity = some (queue.array queue.front) := by
  obtain ⟨low, holds⟩ := represents.taken item taken
  refine ⟨low, ?_⟩
  simp only [Fifo.lastPopped, taken]
  split
  case isTrue full =>
      -- going around, the cell pushed last is the one popped last
      have around := represents.cursors
      obtain ⟨backLow, backHigh⟩ := represents.pushed some_
      have same : queue.back ≡ queue.front [ZMOD capacity] := by
        refine Int.ModEq.add_right_cancel' 1 (around.trans ?_)
        rw [full]
        exact Int.add_modEq_right
      have cell : queue.back = queue.front := by
        have both := same.eq
        rwa [Int.emod_eq_of_lt backLow backHigh, Int.emod_eq_of_lt low represents.frontHigh] at both
      rw [represents.newest some_, cell]
  case isFalse notFull =>
      have room := represents.room
      rw [holds (by omega)]

/-- An event that uses no cell agrees with its answer. -/
theorem agrees_of_nil (answer : QueueAnswer Item) :
    (QueueEvent.mk answer []).Agrees capacity answer :=
  ⟨rfl, List.forall_mem_nil _⟩

theorem agrees_of_cell {answer : QueueAnswer Item} {index : Int} (low : 0 ≤ index)
    (high : index < capacity) : (QueueEvent.mk answer [index]).Agrees capacity answer :=
  ⟨rfl, List.forall_mem_singleton.mpr ⟨low, high⟩⟩

/-- `front` gives back the oldest element exactly if the cell that was popped last holds the
same. -/
theorem Represents.getFront (represents : Represents capacity queue fifo) :
    ∃ event, queue.getFront = some (queue, [event]) ∧
      (event.Agrees capacity (.item fifo.held.head?) ↔ fifo.FrontAgrees capacity .front) := by
  simp only [BlockQueue.getFront, represents.size]
  by_cases nothing : fifo.held = []
  · have zero : ((fifo.held.length : Nat) : Int) = 0 := by rw [nothing]; rfl
    rw [if_pos zero]
    refine ⟨_, rfl, iff_of_true ?_ (.inl nothing)⟩
    rw [nothing]
    exact agrees_of_nil _
  · have positive := List.length_pos_iff.mpr nothing
    rw [if_neg (by omega)]
    refine ⟨_, rfl, ?_⟩
    simp only [Fifo.FrontAgrees, nothing, false_or]
    cases taken : fifo.taken with
    | none =>
        -- the cell in front of the array
        have front := represents.untaken taken
        refine iff_of_false ?_ ?_
        · rintro ⟨_, inside⟩
          have low := (inside queue.front (List.mem_singleton_self _)).1
          omega
        · obtain ⟨oldest, rest, held⟩ := List.exists_cons_of_ne_nil nothing
          simp only [Fifo.lastPopped, taken, held, List.head?_cons, reduceCtorEq,
            not_false_eq_true]
    | some item =>
        obtain ⟨low, holds⟩ := represents.lastPopped nothing taken
        rw [holds]
        constructor
        · rintro ⟨same, _⟩
          exact QueueAnswer.item.inj same
        · intro same
          rw [same]
          exact agrees_of_cell low represents.frontHigh

/-- A call on the queue is the call on its list, as long as `front` agrees. -/
theorem Represents.step (represents : Represents capacity queue fifo) (positive : 0 < capacity)
    {call : QueueCall Item} (stepped : fifo.step capacity call = some (next, answers)) :
    ∃ after event answer, answers = [answer] ∧ queue.step call = some (after, [event]) ∧
      Represents capacity after next ∧
      (event.Agrees capacity answer ↔ fifo.FrontAgrees capacity call) := by
  have maxSize := represents.maxSize
  have size := represents.size
  have none_ : fifo.held = [] ↔ ((fifo.held.length : Nat) : Int) = 0 := by
    rw [Int.natCast_eq_zero, List.length_eq_zero_iff]
  cases call with
  | push item =>
      simp only [Fifo.step] at stepped
      simp only [BlockQueue.step, BlockQueue.push, size, maxSize, represents.nextBack]
      split at stepped
      case isTrue full =>
          cases stepped
          rw [if_pos full]
          exact ⟨queue, _, _, rfl, rfl, represents, iff_of_true (agrees_of_nil _) trivial⟩
      case isFalse notFull =>
          cases stepped
          rw [if_neg notFull]
          have pushed := represents.push item (Int.not_le.mp notFull)
          obtain ⟨low, high⟩ :=
            pushed.pushed (List.append_ne_nil_of_right_ne_nil _ (List.cons_ne_nil _ _))
          rw [size, maxSize] at pushed
          exact ⟨_, _, _, rfl, rfl, pushed, iff_of_true (agrees_of_cell low high) trivial⟩
  | pop =>
      simp only [Fifo.step] at stepped
      split at stepped
      · contradiction
      case _ oldest rest held =>
          cases stepped
          have notEmpty : ¬queue.size ≤ 0 := by
            rw [size, held, List.length_cons]
            omega
          obtain ⟨first, low, high, popped⟩ := represents.pop held
          simp only [BlockQueue.step, BlockQueue.pop, if_neg notEmpty, maxSize,
            represents.nextFront, first]
          rw [maxSize] at popped
          exact ⟨_, _, _, rfl, rfl, popped, iff_of_true (agrees_of_cell low high) trivial⟩
  | clear =>
      cases stepped
      exact ⟨_, _, _, rfl, rfl, represents_fresh maxSize positive,
        iff_of_true (agrees_of_nil _) trivial⟩
  | full =>
      cases stepped
      simp only [BlockQueue.step, BlockQueue.full, size, maxSize]
      exact ⟨queue, _, _, rfl, rfl, represents, iff_of_true (agrees_of_nil _) trivial⟩
  | empty =>
      cases stepped
      have same : decide (queue.size = 0) = fifo.held.isEmpty := by
        rw [size, Bool.eq_iff_iff, decide_eq_true_iff, List.isEmpty_iff, none_]
      simp only [BlockQueue.step, BlockQueue.empty, same]
      exact ⟨queue, _, _, rfl, rfl, represents, iff_of_true (agrees_of_nil _) trivial⟩
  | front =>
      cases stepped
      obtain ⟨event, matched, agrees⟩ := represents.getFront
      exact ⟨queue, event, _, rfl, matched, represents, agrees⟩
  | back =>
      cases stepped
      simp only [BlockQueue.step, BlockQueue.getBack, size]
      by_cases nothing : fifo.held = []
      · rw [if_pos (none_.mp nothing), nothing]
        exact ⟨queue, _, _, rfl, rfl, represents, iff_of_true (agrees_of_nil _) trivial⟩
      · obtain ⟨low, high⟩ := represents.pushed nothing
        rw [if_neg (mt none_.mpr nothing), represents.newest nothing]
        exact ⟨queue, _, _, rfl, rfl, represents, iff_of_true (agrees_of_cell low high) trivial⟩
  | size =>
      cases stepped
      simp only [BlockQueue.step, size]
      exact ⟨queue, _, _, rfl, rfl, represents, iff_of_true (agrees_of_nil _) trivial⟩
  | maxSize =>
      cases stepped
      simp only [BlockQueue.step, maxSize]
      exact ⟨queue, _, _, rfl, rfl, represents, iff_of_true (agrees_of_nil _) trivial⟩

/-! ## Sequences of calls -/

/-- Some calls on a new queue, each possible on a bounded queue of its size, are possible, give
back what they give back there, and use cells of the array only. -/
def ActsAsFifo (maxSize : Int) (array : Int → Item) (calls : List (QueueCall Item))
    (answers : List (QueueAnswer Item)) : Prop :=
  ∃ queue last events, new maxSize array = some queue ∧
    run step queue calls = some (last, events) ∧
    List.Forall₂ (QueueEvent.Agrees maxSize) events answers

/-- A queue acts as a bounded queue exactly if `front` agrees whenever it is called. -/
theorem actsAsFifo_iff {last : Fifo Item} {calls : List (QueueCall Item)}
    (positive : 0 < capacity) (array : Int → Item)
    (ran : run (Fifo.step capacity) Fifo.fresh calls = some (last, answers)) :
    ActsAsFifo capacity array calls answers ↔
      RunMeets (Fifo.step capacity) (Fifo.FrontAgrees capacity) Fifo.fresh calls := by
  have made : new capacity array = some ⟨array, 0, capacity, -1, -1⟩ :=
    if_neg (Int.not_le.mpr positive)
  have fresh : Represents capacity ⟨array, 0, capacity, -1, -1⟩ Fifo.fresh :=
    @represents_fresh _ _ ⟨array, 0, capacity, -1, -1⟩ rfl positive
  have simulates : ∀ (queue : BlockQueue Item) (fifo : Fifo Item) call next answers,
      Represents capacity queue fifo →
      Fifo.step capacity fifo call = some (next, answers) →
        ∃ after event answer, answers = [answer] ∧ step queue call = some (after, [event]) ∧
          Represents capacity after next ∧
          (QueueEvent.Agrees capacity event answer ↔ fifo.FrontAgrees capacity call) :=
    fun _ _ _ _ _ represents stepped =>
      represents.step positive stepped
  obtain ⟨final, events, ranOn, _, agree⟩ := run_forall₂_iff (Represents capacity)
    (QueueEvent.Agrees capacity) simulates fresh ran
  rw [← agree]
  constructor
  · rintro ⟨queue, other, others, isNew, ranOther, agrees⟩
    rw [made, Option.some.injEq] at isNew
    subst isNew
    rw [ranOn, Option.some.injEq, Prod.mk.injEq] at ranOther
    rwa [ranOther.2]
  · intro agrees
    exact ⟨_, final, events, made, ranOn, agrees⟩

/-- Calls in which the queue goes around, and `front` is called while an element is held that is
the same as the one that was taken out last. -/
def aroundCalls : List (QueueCall Nat) :=
  [.front, .push 1, .push 1, .push 2, .pop, .front, .back, .push 3, .full, .pop, .pop, .size]

def aroundAnswers : List (QueueAnswer Nat) :=
  [.item none, .flag true, .flag true, .flag false, .item (some 1), .item (some 1),
    .item (some 1), .flag true, .flag true, .item (some 1), .item (some 3), .count 0]

theorem actsAsFifo_around : ActsAsFifo 2 (fun _ => 0) aroundCalls aroundAnswers := by
  have ran : (run (Fifo.step 2) Fifo.fresh aroundCalls).map Prod.snd = some aroundAnswers := by
    decide
  obtain ⟨⟨last, answers⟩, ran, rfl⟩ := Option.map_eq_some_iff.mp ran
  exact (actsAsFifo_iff (by decide) _ ran).mpr (by decide)

/-- Behind `pop`, `front` gives back the element that was taken out. -/
theorem not_actsAsFifo_popped :
    ¬ActsAsFifo 4 (fun _ => 0) [.push 1, .push 2, .pop, .front]
      [.flag true, .flag true, .item (some 1), .item (some 2)] := by
  rintro ⟨queue, last, events, made, ran, agrees⟩
  cases made
  have gives : (run step (⟨fun _ => 0, 0, 4, -1, -1⟩ : BlockQueue Nat)
      [.push 1, .push 2, .pop, .front]).map (fun outcome => outcome.2.map QueueEvent.answer) =
        some [.flag true, .flag true, .item (some 1), .item (some 1)] := by decide
  rw [ran, Option.map_some, Option.some.injEq] at gives
  have same : events.map QueueEvent.answer =
      [.flag true, .flag true, .item (some 1), .item (some 2)] := by
    have each : List.Forall₂ (fun event answer => QueueEvent.answer event = answer) events
        [.flag true, .flag true, .item (some 1), .item (some 2)] :=
      agrees.imp fun _ _ agree => agree.1
    rw [← List.forall₂_map_left_iff, List.forall₂_eq_eq_eq] at each
    exact each
  rw [gives] at same
  revert same
  decide

end BlockQueue

end TimeGANWebServer.Logging
