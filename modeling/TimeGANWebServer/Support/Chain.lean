import TimeGANWebServer.Support.CString

/-!
# Lists linked through memory

A list whose nodes hold the address of the next node, up to a null pointer.  The links are a
function of the address; below, they are pointers in byte memory, least significant byte first.
-/

namespace TimeGANWebServer.Support

universe u

/-! ## Chains -/

section Chains

variable {Address : Type u}

/-- The links lead from an address through the nodes in order, and end at the null pointer. -/
def Linked (link : Address → Address) (null : Address) : Address → List Address → Prop
  | head, [] => head = null
  | head, node :: rest => head = node ∧ node ≠ null ∧ Linked link null (link node) rest

namespace Linked

variable {link other : Address → Address} {null head node : Address} {nodes : List Address}

/-- A chain is determined by where it begins. -/
theorem unique {left right : List Address} (leftLinked : Linked link null head left)
    (rightLinked : Linked link null head right) : left = right := by
  induction left generalizing head right with
  | nil =>
      cases right with
      | nil => rfl
      | cons node rest =>
          obtain ⟨rfl, nonNull, _⟩ := rightLinked
          exact absurd leftLinked nonNull
  | cons node rest ih =>
      obtain ⟨rfl, nonNull, linked⟩ := leftLinked
      cases right with
      | nil => exact absurd rightLinked nonNull
      | cons other others =>
          obtain ⟨rfl, _, otherLinked⟩ := rightLinked
          rw [ih linked otherLinked]

/-- The nodes from some node on are a chain from it. -/
theorem drop {front : List Address} (linked : Linked link null head (front ++ node :: nodes)) :
    Linked link null node (node :: nodes) := by
  induction front generalizing head with
  | nil =>
      obtain ⟨rfl, further⟩ := linked
      exact ⟨rfl, further⟩
  | cons first front ih => exact ih linked.2.2

/-- A chain does not come back to a node. -/
theorem nodup (linked : Linked link null head nodes) : nodes.Nodup := by
  induction nodes generalizing head with
  | nil => exact List.nodup_nil
  | cons node rest ih =>
      obtain ⟨rfl, nonNull, further⟩ := linked
      refine List.nodup_cons.mpr ⟨?_, ih further⟩
      intro again
      obtain ⟨front, back, rfl⟩ := List.append_of_mem again
      -- the chain from the node would be one with itself in it
      have whole : Linked link null head (head :: (front ++ head :: back)) :=
        ⟨rfl, nonNull, further⟩
      have same := whole.unique further.drop
      have lengths := congrArg List.length same
      simp only [List.length_cons, List.length_append] at lengths
      omega

/-- Links elsewhere do not matter. -/
theorem congr (linked : Linked link null head nodes)
    (same : ∀ node ∈ nodes, other node = link node) : Linked other null head nodes := by
  induction nodes generalizing head with
  | nil => exact linked
  | cons node rest ih =>
      obtain ⟨isNode, nonNull, further⟩ := linked
      refine ⟨isNode, nonNull, ?_⟩
      rw [same node List.mem_cons_self]
      exact ih further fun later member => same later (List.mem_cons_of_mem node member)

/-- A node in front of a chain. -/
theorem push (linked : Linked link null head nodes) (nonNull : node ≠ null)
    (toHead : other node = head) (same : ∀ node ∈ nodes, other node = link node) :
    Linked other null node (node :: nodes) := by
  refine ⟨rfl, nonNull, ?_⟩
  rw [toHead]
  exact linked.congr same

end Linked

end Chains

/-! ## Pointers in byte memory -/

/-- The bytes of a number, the least significant one first. -/
def littleEndian : Nat → Nat → List UInt8
  | 0, _ => []
  | width + 1, value => (value % 256).toUInt8 :: littleEndian width (value / 256)

/-- The number that bytes stand for. -/
def ofLittleEndian : List UInt8 → Nat
  | [] => 0
  | byte :: bytes => byte.toNat + 256 * ofLittleEndian bytes

@[simp] theorem length_littleEndian (width value : Nat) :
    (littleEndian width value).length = width := by
  induction width generalizing value with
  | zero => rfl
  | succ width ih => rw [littleEndian, List.length_cons, ih]

/-- A number that fits is read back. -/
theorem ofLittleEndian_littleEndian {width value : Nat} (fits : value < 256 ^ width) :
    ofLittleEndian (littleEndian width value) = value := by
  induction width generalizing value with
  | zero =>
      have zero : value = 0 := by omega
      rw [zero]
      rfl
  | succ width ih =>
      have rest : value / 256 < 256 ^ width := by
        rw [pow_succ] at fits
        exact Nat.div_lt_of_lt_mul (by omega)
      rw [littleEndian, ofLittleEndian, ih rest]
      have byte : (value % 256).toUInt8.toNat = value % 256 := by
        simp
      omega

namespace Memory

/-- Some bytes from an index on. -/
def fetch (mem : Memory) (start : Int) : Nat → List UInt8
  | 0 => []
  | width + 1 => mem start :: mem.fetch (start + 1) width

/-- Bytes that are held are fetched. -/
theorem fetch_of_holds {mem : Memory} {start : Int} {bytes : List UInt8}
    (holds : mem.Holds start bytes) : mem.fetch start bytes.length = bytes := by
  induction bytes generalizing start with
  | nil => rfl
  | cons byte bytes ih =>
      have head : mem start = byte := by simpa using holds 0 (Nat.zero_lt_succ _)
      have tail : mem.Holds (start + 1) bytes := by
        simpa using (show mem.Holds start ([byte] ++ bytes) from holds).append_right
      rw [List.length_cons, fetch, head, ih tail]

theorem fetch_congr {left right : Memory} {start : Int} {width : Nat}
    (same : ∀ index, start ≤ index → index < start + width → left index = right index) :
    left.fetch start width = right.fetch start width := by
  induction width generalizing start with
  | zero => rfl
  | succ width ih =>
      rw [fetch, fetch, same start (Int.le_refl _) (by omega),
        ih fun index low high => same index (by omega) (by omega)]

/-- The pointer at an address. -/
def pointer (mem : Memory) (address : Nat) : Nat :=
  ofLittleEndian (mem.fetch address 8)

/-- Write a pointer to an address. -/
def setPointer (mem : Memory) (address value : Nat) : Memory :=
  mem.store address (littleEndian 8 value)

theorem pointer_setPointer {mem : Memory} {address value : Nat} (fits : value < 2 ^ 64) :
    (mem.setPointer address value).pointer address = value := by
  have holds := holds_store mem address (littleEndian 8 value)
  have fetched := fetch_of_holds holds
  rw [length_littleEndian] at fetched
  rw [pointer, setPointer, fetched, ofLittleEndian_littleEndian fits]

/-- Eight bytes away a pointer is kept. -/
theorem pointer_setPointer_of_apart {mem : Memory} {address other value : Nat}
    (apart : address + 8 ≤ other ∨ other + 8 ≤ address) :
    (mem.setPointer address value).pointer other = mem.pointer other := by
  rw [pointer, pointer, fetch_congr]
  intro index low high
  rcases apart with before | behind
  · exact store_of_le (by rw [length_littleEndian]; omega)
  · exact store_of_lt (by omega)

/-- A byte outside of a pointer is not part of it. -/
theorem pointer_set_of_outside {mem : Memory} {address index : Nat} {byte : UInt8}
    (outside : index < address ∨ address + 8 ≤ index) :
    (mem.set index byte).pointer address = mem.pointer address := by
  rw [pointer, pointer, fetch_congr]
  intro other low high
  exact set_of_ne byte (by omega)

end Memory

end TimeGANWebServer.Support
