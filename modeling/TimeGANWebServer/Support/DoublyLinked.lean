import TimeGANWebServer.Support.Chain
import Mathlib.Data.List.Nodup

/-!
# Doubly linked lists

Nodes with a pointer to the next and a pointer to the previous node.  A segment is a list of
nodes that are linked both ways; it has a node or a null pointer in front of it and behind it.
What is done to the links of the nodes at an edge, and to no other links, links segments anew.
-/

namespace TimeGANWebServer.Support

universe u

/-- The pointers of each node, which may be null. -/
structure Links (Address : Type u) where
  next : Address → Option Address
  prev : Address → Option Address

variable {Address : Type u}

/-- The nodes from a pointer on are linked both ways, with a pointer in front of them and one
behind them. -/
def Segment (links : Links Address) :
    (before first : Option Address) → List Address → (after : Option Address) → Prop
  | _, first, [], after => first = after
  | before, first, node :: rest, after =>
      first = some node ∧ links.prev node = before ∧
        Segment links (some node) (links.next node) rest after

/-- The last of some nodes, or what is in front of them. -/
def lastOr : Option Address → List Address → Option Address
  | before, [] => before
  | _, node :: rest => lastOr (some node) rest

@[simp] theorem lastOr_concat (before : Option Address) (nodes : List Address) (last : Address) :
    lastOr before (nodes ++ [last]) = some last := by
  induction nodes generalizing before with
  | nil => rfl
  | cons node nodes ih => exact ih (some node)

theorem lastOr_eq (before : Option Address) (nodes : List Address) :
    lastOr before nodes = nodes.getLast?.or before := by
  rcases List.eq_nil_or_concat nodes with rfl | ⟨init, last, rfl⟩
  · rfl
  · rw [List.concat_eq_append, lastOr_concat, List.getLast?_concat, Option.some_or]

namespace Segment

variable {links other : Links Address} {before first after : Option Address}
  {front back nodes : List Address} {node last : Address}

/-- Two segments behind each other. -/
theorem append_iff :
    Segment links before first (front ++ back) after ↔
      ∃ middle, Segment links before first front middle ∧
        Segment links (lastOr before front) middle back after := by
  induction front generalizing before first with
  | nil =>
      constructor
      · exact fun segment => ⟨first, rfl, segment⟩
      · rintro ⟨middle, rfl, segment⟩
        exact segment
  | cons node front ih =>
      constructor
      · rintro ⟨isFirst, isBefore, rest⟩
        obtain ⟨middle, left, right⟩ := ih.mp rest
        exact ⟨middle, ⟨isFirst, isBefore, left⟩, right⟩
      · rintro ⟨middle, ⟨isFirst, isBefore, left⟩, right⟩
        exact ⟨isFirst, isBefore, ih.mpr ⟨middle, left, right⟩⟩

/-- The pointer to a segment. -/
theorem first_eq (segment : Segment links before first nodes after) :
    first = nodes.head?.or after := by
  cases nodes with
  | nil => exact segment
  | cons node nodes => exact segment.1

/-- Links elsewhere do not matter. -/
theorem congr (segment : Segment links before first nodes after)
    (next : ∀ node ∈ nodes, other.next node = links.next node)
    (prev : ∀ node ∈ nodes, other.prev node = links.prev node) :
    Segment other before first nodes after := by
  induction nodes generalizing before first with
  | nil => exact segment
  | cons node nodes ih =>
      obtain ⟨isFirst, isBefore, rest⟩ := segment
      refine ⟨isFirst, (prev node List.mem_cons_self).trans isBefore, ?_⟩
      rw [next node List.mem_cons_self]
      exact ih rest (fun later member => next later (List.mem_cons_of_mem node member))
        fun later member => prev later (List.mem_cons_of_mem node member)

/-- A node and the segments around it. -/
theorem around (segment : Segment links before first (front ++ node :: back) after) :
    Segment links before first front (some node) ∧ links.prev node = lastOr before front ∧
      Segment links (some node) (links.next node) back after := by
  obtain ⟨middle, left, isNode, isBefore, right⟩ := append_iff.mp segment
  exact ⟨isNode ▸ left, isBefore, right⟩

/-- A list that ends with a null pointer is a chain of its next pointers. -/
theorem linked (segment : Segment links before first nodes none) :
    Linked (fun pointer => pointer.bind links.next) none first (nodes.map some) := by
  induction nodes generalizing before first with
  | nil => exact segment
  | cons node nodes ih =>
      obtain ⟨isFirst, _, rest⟩ := segment
      exact ⟨isFirst, Option.some_ne_none node, ih rest⟩

/-- Such a list does not come back to a node. -/
theorem nodup (segment : Segment links before first nodes none) : nodes.Nodup :=
  segment.linked.nodup.of_map some

/-- It is determined by where it begins. -/
theorem unique (segment : Segment links before first nodes none)
    (second : Segment links before first front none) : nodes = front :=
  List.map_injective_iff.mpr (Option.some_injective Address) (segment.linked.unique second.linked)

/-- In a list the pointers of two nodes agree. -/
theorem next_iff_prev (segment : Segment links none first nodes none) {left right : Address}
    (leftMember : left ∈ nodes) (rightMember : right ∈ nodes) :
    links.next left = some right ↔ links.prev right = some left := by
  constructor
  · intro isNext
    obtain ⟨front, back, rfl⟩ := List.append_of_mem leftMember
    obtain ⟨_, _, rest⟩ := segment.around
    rw [isNext] at rest
    cases back with
    | nil => contradiction
    | cons node back =>
        obtain ⟨same, isBefore, _⟩ := rest
        cases same
        exact isBefore
  · intro isPrev
    obtain ⟨front, back, rfl⟩ := List.append_of_mem rightMember
    obtain ⟨rest, isBefore, _⟩ := segment.around
    rw [isPrev] at isBefore
    rcases List.eq_nil_or_concat front with rfl | ⟨init, last, rfl⟩
    · contradiction
    · rw [List.concat_eq_append] at rest isBefore
      rw [lastOr_concat, Option.some.injEq] at isBefore
      subst isBefore
      exact rest.around.2.2

/-! ## Linking anew -/

/-- The next pointer of the last node is changed. -/
theorem relink_last {further : Option Address}
    (segment : Segment links before first (nodes ++ [last]) after)
    (next : ∀ node ∈ nodes, other.next node = links.next node)
    (prev : ∀ node ∈ nodes ++ [last], other.prev node = links.prev node)
    (changed : other.next last = further) :
    Segment other before first (nodes ++ [last]) further := by
  obtain ⟨middle, left, isLast, isBefore, _⟩ := append_iff.mp segment
  refine append_iff.mpr ⟨middle, left.congr next fun node member =>
    prev node (List.mem_append_left [last] member), isLast, ?_, changed⟩
  rw [prev last (List.mem_append_right nodes (List.mem_singleton_self last)), isBefore]

/-- The previous pointer of the first node is changed. -/
theorem relink_first {earlier : Option Address}
    (segment : Segment links before first (node :: nodes) after)
    (next : ∀ later ∈ node :: nodes, other.next later = links.next later)
    (prev : ∀ later ∈ nodes, other.prev later = links.prev later)
    (changed : other.prev node = earlier) :
    Segment other earlier first (node :: nodes) after := by
  obtain ⟨isFirst, _, rest⟩ := segment
  refine ⟨isFirst, changed, ?_⟩
  rw [next node List.mem_cons_self]
  exact rest.congr (fun later member => next later (List.mem_cons_of_mem node member)) prev

section Lists

variable [DecidableEq Address]

/-- A node is put in front of a list. -/
theorem push (segment : Segment links none first nodes none) (fresh : node ∉ nodes)
    (toFirst : other.next node = first) (noPrev : other.prev node = none)
    (next : ∀ later ∈ nodes, other.next later = links.next later)
    (prev : ∀ later ∈ nodes, other.prev later =
      if first = some later then some node else links.prev later) :
    Segment other none (some node) (node :: nodes) none := by
  refine ⟨rfl, noPrev, ?_⟩
  rw [toFirst]
  cases nodes with
  | nil => exact segment
  | cons head nodes =>
      have isFirst := segment.1
      have nodup := List.nodup_cons.mp segment.nodup
      refine segment.relink_first next (fun later member => ?_) ?_
      · rw [prev later (List.mem_cons_of_mem head member), if_neg]
        intro same
        rw [isFirst, Option.some.injEq] at same
        exact nodup.1 (same ▸ member)
      · rw [prev head List.mem_cons_self, if_pos isFirst]

/-- The nodes behind one that is taken out: the first of them points back at what was in front of
it. -/
theorem unlink_behind (segment : Segment links none first (front ++ node :: back) none)
    (next : ∀ later ∈ back, other.next later =
      if links.prev node = some later then links.next node else links.next later)
    (prev : ∀ later ∈ back, other.prev later =
      if links.next node = some later then links.prev node else links.prev later) :
    Segment other (lastOr none front) (links.next node) back none := by
  obtain ⟨_, isPrev, right⟩ := segment.around
  have nodup := segment.nodup
  cases back with
  | nil => exact right
  | cons head back =>
      have isNext : links.next node = some head := right.1
      have apart : ∀ later ∈ head :: back, links.prev node ≠ some later := by
        intro later member same
        rw [isPrev, lastOr_eq, Option.or_none] at same
        exact (List.disjoint_of_nodup_append nodup) (List.mem_of_getLast? same)
          (List.mem_cons_of_mem node member)
      have backNodup : (head :: back).Nodup :=
        (List.nodup_cons.mp (List.nodup_append.mp nodup).2.1).2
      refine right.relink_first (fun later member => ?_) (fun later member => ?_) ?_
      · rw [next later member, if_neg (apart later member)]
      · rw [prev later (List.mem_cons_of_mem head member), if_neg]
        intro same
        rw [isNext, Option.some.injEq] at same
        exact (List.nodup_cons.mp backNodup).1 (same ▸ member)
      · rw [prev head List.mem_cons_self, if_pos isNext, isPrev]

/-- A node is taken out of a list: the nodes around it point at each other. -/
theorem unlink (segment : Segment links none first (front ++ node :: back) none)
    (next : ∀ later ∈ front ++ back, other.next later =
      if links.prev node = some later then links.next node else links.next later)
    (prev : ∀ later ∈ front ++ back, other.prev later =
      if links.next node = some later then links.prev node else links.prev later) :
    Segment other none ((front ++ back).head?) (front ++ back) none := by
  obtain ⟨left, isPrev, right⟩ := segment.around
  have nodup := segment.nodup
  have isNext := right.first_eq
  rw [Option.or_none] at isNext
  have behind := segment.unlink_behind
    (fun later member => next later (List.mem_append_right front member))
    (fun later member => prev later (List.mem_append_right front member))
  rcases List.eq_nil_or_concat front with rfl | ⟨init, last, rfl⟩
  · rw [List.nil_append, ← isNext]
    exact behind
  · rw [List.concat_eq_append] at *
    have isLast : links.prev node = some last := isPrev.trans (lastOr_concat none init last)
    have frontNodup : (init ++ [last]).Nodup := (List.nodup_append.mp nodup).1
    have linked : Segment other none first (init ++ [last]) (links.next node) := by
      refine left.relink_last (fun later member => ?_) (fun later member => ?_) ?_
      · rw [next later (List.mem_append_left back (List.mem_append_left [last] member)), if_neg]
        intro same
        rw [isLast, Option.some.injEq] at same
        subst same
        exact (List.disjoint_of_nodup_append frontNodup) member (List.mem_singleton_self last)
      · rw [prev later (List.mem_append_left back member), if_neg]
        intro same
        rw [isNext] at same
        have inBack : later ∈ back := List.mem_of_mem_head? same
        exact (List.disjoint_of_nodup_append nodup) member (List.mem_cons_of_mem node inBack)
      · rw [next last (List.mem_append_left back (by simp)), if_pos isLast]
    have isFirst := linked.first_eq
    have head : ((init ++ [last]) ++ back).head? = first := by
      cases init with
      | nil => exact isFirst.symm
      | cons node init => exact isFirst.symm
    rw [head]
    exact append_iff.mpr ⟨_, linked, behind⟩

end Lists

end Segment

end TimeGANWebServer.Support
