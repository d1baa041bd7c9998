import TimeGANWebServer.Support.Chain
import TimeGANWebServer.Support.Run
import TimeGANWebServer.Lock.MemoryPool
import Mathlib.Data.List.Perm.Basic
import Mathlib.Logic.Relation

/-!
# The free list in memory

`MemoryPool` in `lock/memory_pool.h` once more, with the bytes of its blocks: a free slot holds
the address of the next one, and a slot in use holds what its owner writes.  The template takes
`size` for `sizeof(T)`, which the source assumes to be that of a pointer at least, as that of
`util_timer` is.
-/

namespace TimeGANWebServer.Lock

open TimeGANWebServer.Support

/-- `MemoryPool`, and the memory of the process. -/
structure LinkedPool where
  mem : Memory
  freeList : Nat
  blocks : List Nat

namespace LinkedPool

variable (size blockSize : Nat)

/-- The address of `ptrs[i]`. -/
def slot (base i : Nat) : Nat :=
  base + i * size

/-- The slots of a block, in the order of their addresses. -/
def slotsOf (base : Nat) : List Nat :=
  (List.range blockSize).map (slot size base)

/-- All slots of some blocks. -/
def slots (blocks : List Nat) : List Nat :=
  blocks.flatMap (slotsOf size blockSize)

/-- The first slots of a block are linked, each to the next one. -/
def linkFirst (mem : Memory) (base : Nat) : Nat → Memory
  | 0 => mem
  | count + 1 =>
      (linkFirst mem base count).setPointer (slot size base count) (slot size base (count + 1))

/-- The slots of a new block are linked up to the last one, which gets the null pointer. -/
def linkSlots (mem : Memory) (base : Nat) : Memory :=
  (linkFirst size mem base (blockSize - 1)).setPointer (slot size base (blockSize - 1)) 0

/-- `MemoryPool::allocate`.  `operator new` returns the address of a block, or throws. -/
def allocate (pool : LinkedPool) (block : Option Nat) : Option (Nat × LinkedPool) :=
  if pool.freeList ≠ 0 then
    some (pool.freeList, { pool with freeList := pool.mem.pointer pool.freeList })
  else
    match block with
    | none => none
    | some base =>
        some (slot size base 0, {
          mem := linkSlots size blockSize pool.mem base
          freeList := slot size base 1
          blocks := pool.blocks ++ [base] })

/-- `MemoryPool::deallocate`. -/
def deallocate (pool : LinkedPool) (p : Nat) : LinkedPool :=
  { pool with
    mem := pool.mem.setPointer p pool.freeList
    freeList := p }

/-- What `operator new` returns: memory that is not null and belongs to no other block. -/
def Fresh (pool : LinkedPool) (base : Nat) : Prop :=
  0 < base ∧ slot size base blockSize ≤ 2 ^ 64 ∧ ∀ other ∈ pool.blocks,
    slot size base blockSize ≤ other ∨ slot size other blockSize ≤ base

instance decidableFresh (pool : LinkedPool) (base : Nat) :
    Decidable (pool.Fresh size blockSize base) :=
  inferInstanceAs (Decidable (_ ∧ _ ∧ ∀ _ ∈ _, _))

end LinkedPool

/-! ## The program and its pool -/

/-- A pool, and the slots that have been returned by `allocate` and not been given back. -/
structure PoolSession where
  pool : LinkedPool
  allocated : List Nat

/-- What the program does: it allocates and deallocates, and writes bytes. -/
inductive PoolLabel where
  | allocate (block : Option Nat)
  | deallocate (p : Nat)
  | write (address : Nat) (byte : UInt8)
  deriving DecidableEq, Repr

namespace PoolSession

variable (size blockSize : Nat)

/-- The pool behind its constructor, in a memory with any contents. -/
def start (mem : Memory) : PoolSession where
  pool := { mem := mem, freeList := 0, blocks := [] }
  allocated := []

/-- The program may write to the slots it has, and to what does not belong to the pool. -/
def Writable (session : PoolSession) (address : Nat) : Prop :=
  (∃ p ∈ session.allocated, p ≤ address ∧ address < p + size) ∨
    ∀ base ∈ session.pool.blocks,
      address < base ∨ LinkedPool.slot size base blockSize ≤ address

instance decidableWritable (session : PoolSession) (address : Nat) :
    Decidable (session.Writable size blockSize address) :=
  inferInstanceAs (Decidable ((∃ _ ∈ _, _) ∨ ∀ _ ∈ _, _))

/-- One step of the program, and the slot that it gets.  A slot is given back only while it is
allocated. -/
def step (session : PoolSession) : PoolLabel → Option (PoolSession × List Nat)
  | .allocate block =>
      if ∀ base ∈ block, session.pool.Fresh size blockSize base then
        match session.pool.allocate size blockSize block with
        | none => some (session, [])
        | some (p, pool) => some ({ pool := pool, allocated := p :: session.allocated }, [p])
      else
        none
  | .deallocate p =>
      if p ∈ session.allocated then
        some ({ pool := session.pool.deallocate p, allocated := session.allocated.erase p }, [])
      else
        none
  | .write address byte =>
      if session.Writable size blockSize address then
        some ({ session with
          pool := { session.pool with mem := session.pool.mem.set address byte } }, [])
      else
        none

/-- The chain of the free list, and what is allocated, are all slots of all blocks, each once. -/
def Partitioned (session : PoolSession) : Prop :=
  ∃ free, Linked session.pool.mem.pointer 0 session.pool.freeList free ∧
    (free ++ session.allocated).Perm (LinkedPool.slots size blockSize session.pool.blocks) ∧
    (free ++ session.allocated).Nodup

/-- Whatever `operator new` does, a slot that is returned is a slot of a block and is not in
use. -/
def ReturnsUnused (session : PoolSession) : Prop :=
  ∀ block p pool, (∀ base ∈ block, session.pool.Fresh size blockSize base) →
    session.pool.allocate size blockSize block = some (p, pool) →
    p ∉ session.allocated ∧ ∃ base ∈ pool.blocks, ∃ i < blockSize, p = base + i * size

end PoolSession

/-! ## Slots -/

namespace LinkedPool

variable {size blockSize : Nat}

theorem slot_le_slot {base i j : Nat} (ordered : i < j) :
    slot size base i + size ≤ slot size base j := by
  have grown : (i + 1) * size ≤ j * size := Nat.mul_le_mul_right size ordered
  rw [Nat.add_mul, Nat.one_mul] at grown
  simp only [slot]
  omega

theorem mem_slotsOf {base p : Nat} :
    p ∈ slotsOf size blockSize base ↔ ∃ i < blockSize, p = slot size base i := by
  simp only [slotsOf, List.mem_map, List.mem_range, eq_comm]

/-- A slot lies in its block. -/
theorem inside_of_mem_slotsOf {base p : Nat} (member : p ∈ slotsOf size blockSize base) :
    base ≤ p ∧ p + size ≤ slot size base blockSize := by
  obtain ⟨i, below, rfl⟩ := mem_slotsOf.mp member
  exact ⟨Nat.le_add_right base _, slot_le_slot below⟩

/-- Two slots do not overlap. -/
def Apart (size p q : Nat) : Prop :=
  p + size ≤ q ∨ q + size ≤ p

instance symmApart : Std.Symm (Apart size) where
  symm _ _ := Or.symm

theorem pairwise_slotsOf (base : Nat) : (slotsOf size blockSize base).Pairwise (Apart size) := by
  rw [slotsOf, List.pairwise_map]
  exact List.pairwise_lt_range.imp fun ordered => .inl (slot_le_slot ordered)

/-- Two blocks do not overlap. -/
def BlocksApart (size blockSize first second : Nat) : Prop :=
  slot size second blockSize ≤ first ∨ slot size first blockSize ≤ second

theorem pairwise_slots {blocks : List Nat} (apart : blocks.Pairwise (BlocksApart size blockSize)) :
    (slots size blockSize blocks).Pairwise (Apart size) := by
  rw [slots, List.pairwise_flatMap]
  refine ⟨fun base _ => pairwise_slotsOf base, apart.imp ?_⟩
  intro first second disjoint p inFirst q inSecond
  have firstInside := inside_of_mem_slotsOf inFirst
  have secondInside := inside_of_mem_slotsOf inSecond
  simp only [BlocksApart] at disjoint
  simp only [Apart]
  omega

theorem nodup_of_pairwise {nodes : List Nat} (positive : 0 < size)
    (apart : nodes.Pairwise (Apart size)) : nodes.Nodup := by
  apply apart.imp
  intro p q disjoint same
  simp only [Apart] at disjoint
  omega

/-! ## A new block -/

theorem pointer_linkFirst {mem : Memory} {base count i : Nat} (fits : 8 ≤ size)
    (inMemory : slot size base count < 2 ^ 64) (below : i < count) :
    (linkFirst size mem base count).pointer (slot size base i) = slot size base (i + 1) := by
  induction count with
  | zero => exact absurd below (Nat.not_lt_zero i)
  | succ count ih =>
      rw [linkFirst]
      by_cases last : i = count
      · rw [last, Memory.pointer_setPointer inMemory]
      · have before : i < count := by omega
        have further := @slot_le_slot size base i count before
        have grown := @slot_le_slot size base count (count + 1) (Nat.lt_succ_self count)
        rw [Memory.pointer_setPointer_of_apart (by omega), ih (by omega) before]

/-- From its second slot on, a new block is a chain. -/
theorem linked_linkSlots {mem : Memory} {base : Nat} (fits : 8 ≤ size) (nonNull : 0 < base)
    (inMemory : slot size base blockSize ≤ 2 ^ 64) (first : Nat) (count : Nat)
    (whole : first + count = blockSize) (some_ : 0 < count) :
    Linked (linkSlots size blockSize mem base).pointer 0 (slot size base first)
      ((List.range' first count).map (slot size base)) := by
  have last := @slot_le_slot size base (blockSize - 1) blockSize (by omega)
  have address : ∀ i, 0 < slot size base i := fun i => Nat.lt_add_right _ nonNull
  induction count generalizing first with
  | zero => exact absurd some_ (Nat.lt_irrefl 0)
  | succ count ih =>
      refine ⟨rfl, Nat.ne_of_gt (address first), ?_⟩
      by_cases ends : count = 0
      · have isLast : first = blockSize - 1 := by omega
        rw [ends, isLast, linkSlots, Memory.pointer_setPointer (by omega)]
        rfl
      · have before := @slot_le_slot size base first (blockSize - 1) (by omega)
        rw [linkSlots, Memory.pointer_setPointer_of_apart (by omega),
          pointer_linkFirst fits (by omega) (by omega)]
        exact ih (first + 1) (by omega) (by omega)

end LinkedPool

/-! ## The invariant -/

namespace PoolSession

variable {size blockSize : Nat} {session next : PoolSession} {label : PoolLabel}
  {returned : List Nat}

/-- The blocks are apart from each other, and their slots are free or allocated. -/
structure Sound (size blockSize : Nat) (session : PoolSession) : Prop where
  inside : ∀ base ∈ session.pool.blocks, 0 < base ∧ LinkedPool.slot size base blockSize ≤ 2 ^ 64
  apart : session.pool.blocks.Pairwise (LinkedPool.BlocksApart size blockSize)
  slots : ∃ free, Linked session.pool.mem.pointer 0 session.pool.freeList free ∧
    (free ++ session.allocated).Perm (LinkedPool.slots size blockSize session.pool.blocks)

theorem sound_start (mem : Memory) : Sound size blockSize (start mem) where
  inside := fun _ member => nomatch member
  apart := .nil
  slots := ⟨[], rfl, .refl []⟩

/-- What is known of the slots. -/
theorem Sound.address (sound : Sound size blockSize session) {p : Nat}
    (member : p ∈ LinkedPool.slots size blockSize session.pool.blocks) :
    0 < p ∧ p + size ≤ 2 ^ 64 := by
  obtain ⟨base, inBlocks, inBlock⟩ := List.mem_flatMap.mp member
  have block := sound.inside base inBlocks
  have inside := LinkedPool.inside_of_mem_slotsOf inBlock
  omega

theorem Sound.apart_slots (sound : Sound size blockSize session) {p q : Nat}
    (inSlots : p ∈ LinkedPool.slots size blockSize session.pool.blocks)
    (alsoInSlots : q ∈ LinkedPool.slots size blockSize session.pool.blocks) (different : p ≠ q) :
    LinkedPool.Apart size p q :=
  (LinkedPool.pairwise_slots sound.apart).forall inSlots alsoInSlots different

theorem Sound.nodup (sound : Sound size blockSize session) (positive : 0 < size) :
    (LinkedPool.slots size blockSize session.pool.blocks).Nodup :=
  LinkedPool.nodup_of_pairwise positive (LinkedPool.pairwise_slots sound.apart)

theorem Sound.partitioned (sound : Sound size blockSize session) (positive : 0 < size) :
    Partitioned size blockSize session := by
  obtain ⟨free, linked, perm⟩ := sound.slots
  exact ⟨free, linked, perm, perm.nodup_iff.mpr (sound.nodup positive)⟩

/-- The owner of a slot may write what it likes. -/
theorem Sound.linked_write (sound : Sound size blockSize session) (fits : 8 ≤ size) {address : Nat}
    {free : List Nat} (writable : session.Writable size blockSize address) (byte : UInt8)
    (linked : Linked session.pool.mem.pointer 0 session.pool.freeList free)
    (perm : (free ++ session.allocated).Perm
      (LinkedPool.slots size blockSize session.pool.blocks)) :
    Linked (session.pool.mem.set address byte).pointer 0 session.pool.freeList free := by
  have nodup := perm.nodup_iff.mpr (sound.nodup (by omega))
  apply linked.congr
  intro p member
  have inSlots := perm.subset (List.mem_append_left session.allocated member)
  apply Memory.pointer_set_of_outside
  rcases writable with ⟨owned, allocated, low, high⟩ | elsewhere
  · have alsoInSlots := perm.subset (List.mem_append_right free allocated)
    have different : p ≠ owned := by
      rintro rfl
      exact (List.disjoint_of_nodup_append nodup) member allocated
    have apart := sound.apart_slots inSlots alsoInSlots different
    simp only [LinkedPool.Apart] at apart
    omega
  · obtain ⟨base, inBlocks, inBlock⟩ := List.mem_flatMap.mp inSlots
    have inside := LinkedPool.inside_of_mem_slotsOf inBlock
    have outside := elsewhere base inBlocks
    omega

theorem Sound.write (sound : Sound size blockSize session) (fits : 8 ≤ size) {address : Nat}
    (writable : session.Writable size blockSize address) (byte : UInt8) :
    Sound size blockSize
      { session with pool := { session.pool with mem := session.pool.mem.set address byte } } := by
  refine ⟨sound.inside, sound.apart, ?_⟩
  obtain ⟨free, linked, perm⟩ := sound.slots
  exact ⟨free, sound.linked_write fits writable byte linked perm, perm⟩

/-- A slot that is given back becomes the head of the chain. -/
theorem Sound.linked_deallocate (sound : Sound size blockSize session) (fits : 8 ≤ size) {p : Nat}
    {free : List Nat} (allocated : p ∈ session.allocated)
    (linked : Linked session.pool.mem.pointer 0 session.pool.freeList free)
    (perm : (free ++ session.allocated).Perm
      (LinkedPool.slots size blockSize session.pool.blocks)) :
    Linked (session.pool.deallocate p).mem.pointer 0 p (p :: free) := by
  have nodup := perm.nodup_iff.mpr (sound.nodup (by omega))
  have inSlots := perm.subset (List.mem_append_right free allocated)
  have head : session.pool.freeList < 2 ^ 64 := by
    cases free with
    | nil =>
        have null : session.pool.freeList = 0 := linked
        omega
    | cons node rest =>
        have isNode : session.pool.freeList = node := linked.1
        have address := sound.address (perm.subset List.mem_cons_self)
        omega
  have nonNull := Nat.ne_of_gt (sound.address inSlots).1
  refine linked.push nonNull (Memory.pointer_setPointer head) fun node member => ?_
  have alsoInSlots := perm.subset (List.mem_append_left session.allocated member)
  have different : p ≠ node := by
    rintro rfl
    exact (List.disjoint_of_nodup_append nodup) member allocated
  have apart := sound.apart_slots inSlots alsoInSlots different
  simp only [LinkedPool.Apart] at apart
  exact Memory.pointer_setPointer_of_apart (by omega)

theorem Sound.deallocate (sound : Sound size blockSize session) (fits : 8 ≤ size) {p : Nat}
    (allocated : p ∈ session.allocated) :
    Sound size blockSize
      { pool := session.pool.deallocate p, allocated := session.allocated.erase p } := by
  refine ⟨sound.inside, sound.apart, ?_⟩
  obtain ⟨free, linked, perm⟩ := sound.slots
  refine ⟨p :: free, sound.linked_deallocate fits allocated linked perm, ?_⟩
  have moved : (p :: (free ++ session.allocated.erase p)).Perm (free ++ session.allocated) :=
    List.perm_middle.symm.trans ((List.perm_cons_erase allocated).symm.append_left free)
  exact moved.trans perm

/-- A slot that is returned was free, or is the first one of a new block. -/
theorem Sound.allocate (sound : Sound size blockSize session) (fits : 8 ≤ size)
    (two : 2 ≤ blockSize) {block : Option Nat} {p : Nat} {pool : LinkedPool}
    (fresh : ∀ base ∈ block, session.pool.Fresh size blockSize base)
    (taken : session.pool.allocate size blockSize block = some (p, pool)) :
    Sound size blockSize { pool := pool, allocated := p :: session.allocated } ∧
      p ∉ session.allocated ∧ p ∈ LinkedPool.slots size blockSize pool.blocks := by
  obtain ⟨free, linked, perm⟩ := sound.slots
  have nodup := perm.nodup_iff.mpr (sound.nodup (by omega))
  cases free with
  | cons node rest =>
      obtain ⟨isNode, nonNull, further⟩ := linked
      have head : session.pool.freeList ≠ 0 := isNode ▸ nonNull
      simp only [LinkedPool.allocate, if_pos head] at taken
      cases taken
      rw [← isNode] at further perm nodup
      refine ⟨⟨sound.inside, sound.apart, rest, further, List.perm_middle.trans perm⟩, ?_, ?_⟩
      · intro allocated
        exact (List.nodup_cons.mp nodup).1 (List.mem_append_right rest allocated)
      · exact perm.subset List.mem_cons_self
  | nil =>
      have null : session.pool.freeList = 0 := linked
      simp only [LinkedPool.allocate, null, ne_eq, not_true_eq_false, if_false] at taken
      cases block with
      | none => contradiction
      | some base =>
          cases taken
          obtain ⟨nonNull, inMemory, elsewhere⟩ := fresh base rfl
          obtain ⟨count, rfl⟩ : ∃ count, blockSize = count + 1 := ⟨blockSize - 1, by omega⟩
          have first : LinkedPool.slotsOf size (count + 1) base = LinkedPool.slot size base 0 ::
              (List.range' 1 count).map (LinkedPool.slot size base) := by
            rw [LinkedPool.slotsOf, List.range_eq_range', List.range'_succ, List.map_cons]
          have grown : LinkedPool.slots size (count + 1) (session.pool.blocks ++ [base]) =
              LinkedPool.slots size (count + 1) session.pool.blocks ++
                LinkedPool.slotsOf size (count + 1) base := by
            simp [LinkedPool.slots]
          refine ⟨⟨?_, ?_, _, LinkedPool.linked_linkSlots fits nonNull inMemory 1 count
            (Nat.add_comm 1 count) (by omega), ?_⟩, ?_, ?_⟩
          · intro other member
            rcases List.mem_append.mp member with old | new
            · exact sound.inside other old
            · rw [List.mem_singleton.mp new]
              exact ⟨nonNull, inMemory⟩
          · refine List.pairwise_append.mpr ⟨sound.apart, List.pairwise_singleton _ _, ?_⟩
            intro other old new isNew
            rw [List.mem_singleton.mp isNew]
            exact elsewhere other old
          · rw [grown, first]
            generalize (List.range' 1 count).map (LinkedPool.slot size base) = others
            have replaced := (perm.append_left others).cons (LinkedPool.slot size base 0)
            have swapped := @List.perm_append_comm _ (LinkedPool.slot size base 0 :: others)
              (LinkedPool.slots size (count + 1) session.pool.blocks)
            exact List.perm_middle.trans (replaced.trans swapped)
          · intro allocated
            -- the first slot would lie in an old block
            have inSlots := perm.subset allocated
            obtain ⟨other, inBlocks, inBlock⟩ := List.mem_flatMap.mp inSlots
            have inside := LinkedPool.inside_of_mem_slotsOf inBlock
            have disjoint := elsewhere other inBlocks
            have within := @LinkedPool.slot_le_slot size base 0 (count + 1) (by omega)
            simp only [LinkedPool.slot, Nat.zero_mul, Nat.add_zero] at inside disjoint within
            omega
          · rw [grown, first]
            exact List.mem_append_right _ List.mem_cons_self

theorem Sound.returnsUnused (sound : Sound size blockSize session) (fits : 8 ≤ size)
    (two : 2 ≤ blockSize) : ReturnsUnused size blockSize session := by
  intro block p pool fresh taken
  obtain ⟨_, unused, inSlots⟩ := sound.allocate fits two fresh taken
  obtain ⟨base, inBlocks, inBlock⟩ := List.mem_flatMap.mp inSlots
  obtain ⟨i, below, isSlot⟩ := LinkedPool.mem_slotsOf.mp inBlock
  exact ⟨unused, base, inBlocks, i, below, isSlot⟩

/-- Every step keeps the invariant. -/
theorem Sound.step (sound : Sound size blockSize session) (fits : 8 ≤ size) (two : 2 ≤ blockSize)
    (stepped : session.step size blockSize label = some (next, returned)) :
    Sound size blockSize next := by
  cases label with
  | allocate block =>
      simp only [PoolSession.step] at stepped
      split at stepped
      case isTrue fresh =>
          split at stepped
          case _ =>
              cases stepped
              exact sound
          case _ p pool taken =>
              cases stepped
              exact (sound.allocate fits two fresh taken).1
      case isFalse => contradiction
  | deallocate p =>
      simp only [PoolSession.step] at stepped
      split at stepped
      case isTrue allocated =>
          cases stepped
          exact sound.deallocate fits allocated
      case isFalse => contradiction
  | write address byte =>
      simp only [PoolSession.step] at stepped
      split at stepped
      case isTrue writable =>
          cases stepped
          exact sound.write fits writable byte
      case isFalse => contradiction

/-- At all times the free slots are a chain without a cycle, the free and the allocated slots are
all slots, and the next slot that is returned is one that nobody uses. -/
theorem partitioned_of_run {mem : Memory} {labels : List PoolLabel} (two : 2 ≤ blockSize)
    (fits : 8 ≤ size)
    (ran : run (PoolSession.step size blockSize) (start mem) labels = some (session, returned)) :
    session.Partitioned size blockSize ∧ session.ReturnsUnused size blockSize := by
  have sound : Sound size blockSize session :=
    run_state_always (Sound size blockSize) (fun _ _ _ _ kept stepped => kept.step fits two stepped)
      (sound_start mem) ran
  exact ⟨sound.partitioned (by omega), sound.returnsUnused fits two⟩

/-- Blocks of two timers of 48 bytes: a slot is given back and overwritten on the way, and the
second block is obtained when the first one is used up. -/
def timerSlots : List PoolLabel :=
  [.allocate (some 4096), .write 4100 255, .allocate none, .deallocate 4096, .write 4150 7,
    .allocate none, .allocate (some 8192), .deallocate 4144]

theorem partitioned_timerSlots :
    ∃ session, run (PoolSession.step 48 2) (start fun _ => 0) timerSlots =
        some (session, [4096, 4144, 4096, 8192]) ∧
      session.Partitioned 48 2 ∧ session.ReturnsUnused 48 2 := by
  have facts : (run (PoolSession.step 48 2) (start fun _ => 0) timerSlots).map Prod.snd =
      some [4096, 4144, 4096, 8192] := by
    decide +kernel
  obtain ⟨⟨session, returned⟩, ran, rfl⟩ := Option.map_eq_some_iff.mp facts
  exact ⟨session, ran, partitioned_of_run (by decide) (by decide) ran⟩

/-! ## The pool of slot numbers -/

/-- The address of a slot of `MemoryPool`, which are numbered through all blocks. -/
def addressOf (size blockSize : Nat) (blocks : List Nat) (number : Nat) : Nat :=
  (LinkedPool.slots size blockSize blocks).getD number 0

/-- A pool with its free list in memory stands for one with a list of slot numbers. -/
structure Represents (size : Nat) {blockSize : Nat} (session : PoolSession)
    (pool : MemoryPool blockSize) : Prop where
  sound : Sound size blockSize session
  wf : pool.WF
  blocks : pool.blocks = session.pool.blocks.length
  linked : Linked session.pool.mem.pointer 0 session.pool.freeList
    (pool.freeList.map (addressOf size blockSize session.pool.blocks))

/-- A step of the pool of slot numbers: nothing happens to it, a slot is taken, or one in use is
given back. -/
inductive Follows {blockSize : Nat} (pool : MemoryPool blockSize) : MemoryPool blockSize → Prop
  | same : Follows pool pool
  | allocate : Follows pool pool.allocate.2
  | deallocate {number} (allocated : pool.Allocated number) :
      Follows pool (pool.deallocate number)

theorem length_slots (blocks : List Nat) :
    (LinkedPool.slots size blockSize blocks).length = blocks.length * blockSize := by
  induction blocks with
  | nil => simp [LinkedPool.slots]
  | cons base blocks ih =>
      have cons : LinkedPool.slots size blockSize (base :: blocks) =
          LinkedPool.slotsOf size blockSize base ++ LinkedPool.slots size blockSize blocks := rfl
      rw [cons, List.length_append, ih, LinkedPool.slotsOf, List.length_map, List.length_range,
        List.length_cons, Nat.add_mul, Nat.one_mul, Nat.add_comm]

theorem addressOf_eq {blocks : List Nat} {number : Nat}
    (below : number < blocks.length * blockSize) :
    ∃ _ : number < (LinkedPool.slots size blockSize blocks).length,
      addressOf size blockSize blocks number =
        (LinkedPool.slots size blockSize blocks)[number] := by
  rw [← @length_slots size] at below
  exact ⟨below, by rw [addressOf, List.getD_eq_getElem?_getD, List.getElem?_eq_getElem below,
    Option.getD_some]⟩

/-- Two slots have two addresses. -/
theorem Sound.addressOf_inj (sound : Sound size blockSize session) (positive : 0 < size)
    {left right : Nat} (leftBelow : left < session.pool.blocks.length * blockSize)
    (rightBelow : right < session.pool.blocks.length * blockSize)
    (same : addressOf size blockSize session.pool.blocks left =
      addressOf size blockSize session.pool.blocks right) : left = right := by
  obtain ⟨_, leftAddress⟩ := @addressOf_eq size blockSize _ _ leftBelow
  obtain ⟨_, rightAddress⟩ := @addressOf_eq size blockSize _ _ rightBelow
  rw [leftAddress, rightAddress] at same
  exact (sound.nodup positive).getElem_inj_iff.mp same

/-- The chain of the free list is that of the slot numbers. -/
theorem Represents.perm {pool : MemoryPool blockSize} (represents : Represents size session pool) :
    (pool.freeList.map (addressOf size blockSize session.pool.blocks) ++ session.allocated).Perm
      (LinkedPool.slots size blockSize session.pool.blocks) := by
  obtain ⟨free, linked, perm⟩ := represents.sound.slots
  rw [represents.linked.unique linked]
  exact perm

/-- The slots in use are the same. -/
theorem Represents.allocated_iff {pool : MemoryPool blockSize}
    (represents : Represents size session pool) (positive : 0 < size) (p : Nat) :
    p ∈ session.allocated ↔ ∃ number, pool.Allocated number ∧
      p = addressOf size blockSize session.pool.blocks number := by
  have perm := represents.perm
  have nodup := perm.nodup_iff.mpr (represents.sound.nodup positive)
  have disjoint := List.disjoint_of_nodup_append nodup
  constructor
  · intro allocated
    have inSlots := perm.subset (List.mem_append_right _ allocated)
    obtain ⟨number, below, rfl⟩ := List.getElem_of_mem inSlots
    have inPool : number < session.pool.blocks.length * blockSize := by
      rwa [length_slots] at below
    obtain ⟨_, isAddress⟩ := @addressOf_eq size blockSize _ _ inPool
    refine ⟨number, ⟨represents.blocks ▸ inPool, ?_⟩, isAddress.symm⟩
    intro free
    exact disjoint (List.mem_map_of_mem free) (isAddress ▸ allocated)
  · rintro ⟨number, ⟨below, used⟩, rfl⟩
    rw [represents.blocks] at below
    obtain ⟨inBounds, isAddress⟩ := @addressOf_eq size blockSize _ _ below
    have inSlots := perm.symm.subset (isAddress ▸ List.getElem_mem inBounds)
    rcases List.mem_append.mp inSlots with free | allocated
    · obtain ⟨other, isFree, same⟩ := List.mem_map.mp free
      have otherBelow := represents.wf.inside other isFree
      rw [represents.blocks] at otherBelow
      exact absurd (represents.sound.addressOf_inj positive otherBelow below same ▸ isFree) used
    · exact allocated

/-- The slots of a new block have the numbers behind those of the others. -/
theorem addressOf_new {blocks : List Nat} {base k : Nat} (below : k < blockSize) :
    addressOf size blockSize (blocks ++ [base]) (blocks.length * blockSize + k) =
      LinkedPool.slot size base k := by
  have grown : LinkedPool.slots size blockSize (blocks ++ [base]) =
      LinkedPool.slots size blockSize blocks ++ LinkedPool.slotsOf size blockSize base := by
    simp [LinkedPool.slots]
  have behind :
      (LinkedPool.slots size blockSize blocks).length ≤ blocks.length * blockSize + k := by
    rw [length_slots]
    omega
  rw [addressOf, grown, List.getD_eq_getElem?_getD, List.getElem?_append_right behind, length_slots,
    Nat.add_sub_cancel_left, LinkedPool.slotsOf]
  simp [below]

/-- The pools return the same slot. -/
theorem Represents.allocate {pool : MemoryPool blockSize}
    (represents : Represents size session pool)
    (fits : 8 ≤ size) (two : 2 ≤ blockSize) {block : Option Nat} {p : Nat} {taken : LinkedPool}
    (fresh : ∀ base ∈ block, session.pool.Fresh size blockSize base)
    (takes : session.pool.allocate size blockSize block = some (p, taken)) :
    p = addressOf size blockSize taken.blocks pool.allocate.1 ∧
      Represents size { pool := taken, allocated := p :: session.allocated } pool.allocate.2 := by
  have sound := (represents.sound.allocate fits two fresh takes).1
  have wf := (represents.wf.allocate (by omega)).1
  have linked := represents.linked
  cases free : pool.freeList with
  | cons number rest =>
      have head : pool.allocate = (number, { pool with freeList := rest }) := by
        simp only [MemoryPool.allocate, free]
      rw [free, List.map_cons] at linked
      obtain ⟨isNode, nonNull, further⟩ := linked
      have some_ : session.pool.freeList ≠ 0 := isNode ▸ nonNull
      simp only [LinkedPool.allocate, if_pos some_] at takes
      cases takes
      rw [head] at wf ⊢
      rw [← isNode] at further
      exact ⟨isNode, sound, wf, represents.blocks, further⟩
  | nil =>
      rw [free] at linked
      have null : session.pool.freeList = 0 := linked
      simp only [LinkedPool.allocate, null, ne_eq, not_true_eq_false, if_false] at takes
      cases block with
      | none => contradiction
      | some base =>
          cases takes
          obtain ⟨nonNull, inMemory, _⟩ := fresh base rfl
          have chain :=
            @LinkedPool.linked_linkSlots size blockSize session.pool.mem base fits nonNull
            inMemory 1 (blockSize - 1) (by omega) (by omega)
          have first := @addressOf_new size blockSize session.pool.blocks base 0 (by omega)
          have others : ((List.range (blockSize - 1)).map fun (i : Nat) =>
              pool.blocks * blockSize + 1 + i).map
                (addressOf size blockSize (session.pool.blocks ++ [base])) =
              (List.range' 1 (blockSize - 1)).map (LinkedPool.slot size base) := by
            rw [List.range'_eq_map_range, List.map_map, List.map_map]
            apply List.map_congr_left
            intro i inRange
            have below := List.mem_range.mp inRange
            have number := @addressOf_new size blockSize session.pool.blocks base (1 + i) (by omega)
            simp only [Function.comp_apply, represents.blocks, Nat.add_assoc]
            exact number
          simp only [MemoryPool.allocate, free] at wf ⊢
          rw [Nat.add_zero, ← represents.blocks] at first
          refine ⟨first.symm, sound, wf, ?_, ?_⟩
          · simp [represents.blocks]
          · rw [others]
            exact chain

/-- The pools take the same slot back. -/
theorem Represents.deallocate {pool : MemoryPool blockSize}
    (represents : Represents size session pool) (fits : 8 ≤ size) {number : Nat}
    (allocated : pool.Allocated number) :
    Represents size
      { pool := session.pool.deallocate (addressOf size blockSize session.pool.blocks number)
        allocated := session.allocated.erase (addressOf size blockSize session.pool.blocks number) }
      (pool.deallocate number) where
  sound := represents.sound.deallocate fits
    ((represents.allocated_iff (by omega) _).mpr ⟨number, allocated, rfl⟩)
  wf := (represents.wf.deallocate allocated).1
  blocks := represents.blocks
  linked := represents.sound.linked_deallocate fits
    ((represents.allocated_iff (by omega) _).mpr ⟨number, allocated, rfl⟩) represents.linked
    represents.perm

/-- A step of the pool in memory is one of the pool of slot numbers. -/
theorem Represents.step {pool : MemoryPool blockSize} (represents : Represents size session pool)
    (fits : 8 ≤ size) (two : 2 ≤ blockSize)
    (stepped : session.step size blockSize label = some (next, returned)) :
    ∃ following, Follows pool following ∧ Represents size next following := by
  cases label with
  | allocate block =>
      simp only [PoolSession.step] at stepped
      split at stepped
      case isTrue fresh =>
          split at stepped
          case _ =>
              cases stepped
              exact ⟨pool, .same, represents⟩
          case _ p taken takes =>
              cases stepped
              exact ⟨_, .allocate, (represents.allocate fits two fresh takes).2⟩
      case isFalse => contradiction
  | deallocate p =>
      simp only [PoolSession.step] at stepped
      split at stepped
      case isTrue allocated =>
          cases stepped
          obtain ⟨number, inUse, rfl⟩ := (represents.allocated_iff (by omega) p).mp allocated
          exact ⟨_, .deallocate inUse, represents.deallocate fits inUse⟩
      case isFalse => contradiction
  | write address byte =>
      simp only [PoolSession.step] at stepped
      split at stepped
      case isTrue writable =>
          cases stepped
          exact ⟨pool, .same, represents.sound.write fits writable byte, represents.wf,
            represents.blocks,
            represents.sound.linked_write fits writable byte represents.linked represents.perm⟩
      case isFalse => contradiction

/-- Whatever the program does, the pool in memory stands for a pool of slot numbers that has made
the same steps. -/
theorem represents_of_run {mem : Memory} {labels : List PoolLabel} (two : 2 ≤ blockSize)
    (fits : 8 ≤ size)
    (ran : run (PoolSession.step size blockSize) (start mem) labels = some (session, returned)) :
    ∃ pool : MemoryPool blockSize, Relation.ReflTransGen Follows MemoryPool.empty pool ∧
      Represents size session pool := by
  refine run_state_always (fun session => ∃ pool : MemoryPool blockSize,
    Relation.ReflTransGen Follows MemoryPool.empty pool ∧ Represents size session pool) ?_
    ⟨MemoryPool.empty, .refl, sound_start mem, MemoryPool.empty_wf, rfl, rfl⟩ ran
  rintro before label next made ⟨pool, reached, represents⟩ stepped
  obtain ⟨following, follows, after⟩ := represents.step fits two stepped
  exact ⟨following, reached.tail follows, after⟩

end PoolSession

end TimeGANWebServer.Lock
