import Mathlib.Data.List.Nodup
import Mathlib.Data.List.Range

/-!
# The object pool

`MemoryPool` in `lock/memory_pool.h`, from which the nodes of the time wheel are
allocated.  The free slots are linked through their own memory; the list of their
addresses, head first, stands for `m_free_list`.  Slot `i` of the block obtained as
number `b` has the address `b * blockSize + i`.
-/

namespace TimeGANWebServer.Lock

/-- `MemoryPool`: the free list, and the number of blocks obtained so far. -/
structure MemoryPool (blockSize : Nat) where
  freeList : List Nat
  blocks : Nat
  deriving DecidableEq, Repr

namespace MemoryPool

variable {blockSize : Nat}

/-- `MemoryPool::MemoryPool`. -/
def empty : MemoryPool blockSize where
  freeList := []
  blocks := 0

/-- `MemoryPool::allocate`: the head of the free list, or the first slot of a new block
whose other slots become the free list. -/
def allocate (pool : MemoryPool blockSize) : Nat × MemoryPool blockSize :=
  match pool.freeList with
  | head :: rest => (head, { pool with freeList := rest })
  | [] =>
      let ptrs := pool.blocks * blockSize
      (ptrs, {
        freeList := (List.range (blockSize - 1)).map fun (i : Nat) => ptrs + 1 + i
        blocks := pool.blocks + 1 })

/-- `MemoryPool::deallocate`. -/
def deallocate (pool : MemoryPool blockSize) (p : Nat) : MemoryPool blockSize :=
  { pool with freeList := p :: pool.freeList }

/-- A slot of the pool that is in use. -/
def Allocated (pool : MemoryPool blockSize) (p : Nat) : Prop :=
  p < pool.blocks * blockSize ∧ p ∉ pool.freeList

instance (pool : MemoryPool blockSize) (p : Nat) : Decidable (pool.Allocated p) :=
  inferInstanceAs (Decidable (_ ∧ _))

/-- The free slots are distinct slots of the blocks. -/
structure WF (pool : MemoryPool blockSize) : Prop where
  nodup : pool.freeList.Nodup
  inside : ∀ p ∈ pool.freeList, p < pool.blocks * blockSize

theorem empty_wf : (empty : MemoryPool blockSize).WF where
  nodup := List.nodup_nil
  inside := by simp [empty]

/-- The pool is last in, first out. -/
@[simp] theorem allocate_deallocate (pool : MemoryPool blockSize) (p : Nat) :
    (pool.deallocate p).allocate = (p, pool) := rfl

/-- Allocation takes a slot that was not in use. -/
theorem WF.allocate {pool : MemoryPool blockSize} (positive : 0 < blockSize) (wf : pool.WF) :
    pool.allocate.2.WF ∧ ¬pool.Allocated pool.allocate.1 ∧
      ∀ p, pool.allocate.2.Allocated p ↔ p = pool.allocate.1 ∨ pool.Allocated p := by
  cases free : pool.freeList with
  | cons head rest =>
      have taken : pool.allocate = (head, { pool with freeList := rest }) := by
        simp only [MemoryPool.allocate, free]
      obtain ⟨nodup, inside⟩ := wf
      rw [free] at nodup inside
      obtain ⟨absent, restNodup⟩ := List.nodup_cons.mp nodup
      rw [taken]
      refine ⟨⟨restNodup, fun p member => inside p (List.mem_cons_of_mem _ member)⟩, ?_, ?_⟩
      · simp [Allocated, free]
      · intro p
        simp only [Allocated, free, List.mem_cons, not_or]
        constructor
        · rintro ⟨below, notFree⟩
          by_cases same : p = head
          · exact .inl same
          · exact .inr ⟨below, same, notFree⟩
        · rintro (rfl | ⟨below, _, notFree⟩)
          · exact ⟨inside p List.mem_cons_self, absent⟩
          · exact ⟨below, notFree⟩
  | nil =>
      have taken : pool.allocate = (pool.blocks * blockSize, {
          freeList := (List.range (blockSize - 1)).map fun (i : Nat) =>
            pool.blocks * blockSize + 1 + i
          blocks := pool.blocks + 1 }) := by
        simp only [MemoryPool.allocate, free]
      have grown : (pool.blocks + 1) * blockSize = pool.blocks * blockSize + blockSize := by
        rw [Nat.add_mul, Nat.one_mul]
      rw [taken]
      generalize base : pool.blocks * blockSize = ptrs at grown ⊢
      refine ⟨⟨?_, ?_⟩, ?_, ?_⟩
      · exact List.nodup_range.map fun _ _ equal => Nat.add_left_cancel equal
      · simp only [List.mem_map, List.mem_range, grown]
        rintro p ⟨i, below, rfl⟩
        omega
      · rw [Allocated, base]
        exact fun allocated => absurd allocated.1 (Nat.lt_irrefl _)
      · intro p
        simp only [Allocated, free, List.mem_map, List.mem_range, List.not_mem_nil,
          not_false_eq_true, and_true, grown, base]
        constructor
        · rintro ⟨below, notFree⟩
          by_cases first : p = ptrs
          · exact .inl first
          · refine .inr (Nat.lt_of_not_le fun above => notFree ?_)
            exact ⟨p - ptrs - 1, by omega, by omega⟩
        · rintro (rfl | below)
          · exact ⟨by omega, by rintro ⟨i, _, equal⟩; omega⟩
          · exact ⟨by omega, by rintro ⟨i, _, equal⟩; omega⟩

/-- Freeing a slot in use leaves the others in use. -/
theorem WF.deallocate {pool : MemoryPool blockSize} (wf : pool.WF) {p : Nat}
    (allocated : pool.Allocated p) :
    (pool.deallocate p).WF ∧
      ∀ other, (pool.deallocate p).Allocated other ↔ other ≠ p ∧ pool.Allocated other := by
  refine ⟨⟨List.nodup_cons.mpr ⟨allocated.2, wf.nodup⟩, ?_⟩, ?_⟩
  · intro other member
    rcases List.mem_cons.mp member with rfl | member
    · exact allocated.1
    · exact wf.inside other member
  · intro other
    simp only [Allocated, MemoryPool.deallocate, List.mem_cons, not_or]
    tauto

end MemoryPool

end TimeGANWebServer.Lock
