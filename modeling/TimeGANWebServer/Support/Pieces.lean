import Mathlib.Data.List.Infix
import Mathlib.Data.List.DropRight

/-!
# Pieces of lists

The complete blocks of one length a list begins with, and the longest prefix of a list that
belongs to a language.
-/

namespace TimeGANWebServer.Support

universe u

variable {Symbol : Type u}

/-- The complete blocks of a length, one behind the other. -/
def blocks (size : Nat) (values : List Symbol) : List (List Symbol) :=
  (List.range (values.length / size)).map fun index => (values.drop (index * size)).take size

@[simp] theorem length_blocks (size : Nat) (values : List Symbol) :
    (blocks size values).length = values.length / size := by
  rw [blocks, List.length_map, List.length_range]

theorem blocks_of_lt {size : Nat} {values : List Symbol} (short : values.length < size) :
    blocks size values = [] := by
  rw [blocks, Nat.div_eq_of_lt short, List.range_zero, List.map_nil]

/-- A first block, and the blocks behind it. -/
theorem blocks_append {size : Nat} {block : List Symbol} (rest : List Symbol)
    (positive : 0 < size) (length : block.length = size) :
    blocks size (block ++ rest) = block :: blocks size rest := by
  have count : (block ++ rest).length / size = rest.length / size + 1 := by
    rw [List.length_append, length, Nat.add_div_left _ positive]
  rw [blocks, count, List.range_succ_eq_map, List.map_cons, List.map_map, Nat.zero_mul,
    List.drop_zero, List.take_left' length, blocks]
  refine congrArg (block :: ·) (List.map_congr_left fun index _ => ?_)
  have further : Nat.succ index * size = block.length + index * size := by
    rw [length, Nat.succ_mul, Nat.add_comm]
  rw [Function.comp_apply, further, List.drop_append, List.drop_of_length_le (by omega),
    List.nil_append, Nat.add_sub_cancel_left]

/-- Blocks that are joined are found again. -/
theorem blocks_flatten {size : Nat} (positive : 0 < size) {pieces : List (List Symbol)}
    (lengths : ∀ piece ∈ pieces, piece.length = size) : blocks size pieces.flatten = pieces := by
  induction pieces with
  | nil => exact blocks_of_lt positive
  | cons piece pieces ih =>
      obtain ⟨first, rest⟩ := List.forall_mem_cons.mp lengths
      rw [List.flatten_cons, blocks_append _ positive first, ih rest]

theorem length_of_mem_blocks {size : Nat} {values block : List Symbol}
    (member : block ∈ blocks size values) : block.length = size := by
  obtain ⟨index, inside, rfl⟩ := List.mem_map.mp member
  have below := List.mem_range.mp inside
  have bound : (index + 1) * size ≤ values.length :=
    (Nat.mul_le_mul_right size below).trans (Nat.div_mul_le_self _ _)
  rw [Nat.succ_mul] at bound
  rw [List.length_take, List.length_drop]
  omega

/-- Joined again, the blocks are what the list begins with. -/
theorem flatten_blocks {size : Nat} (positive : 0 < size) (values : List Symbol) :
    (blocks size values).flatten = values.take (size * (values.length / size)) := by
  induction number : values.length / size generalizing values with
  | zero =>
      have short := (Nat.div_eq_zero_iff.mp number).resolve_left (by omega)
      rw [blocks_of_lt short, List.flatten_nil, Nat.mul_zero, List.take_zero]
  | succ count ih =>
      have long : size ≤ values.length := by
        by_contra short
        rw [Nat.div_eq_of_lt (by omega)] at number
        contradiction
      have length : (values.take size).length = size := List.length_take_of_le long
      have split := List.take_append_drop size values
      have left : (values.drop size).length / size = count := by
        rw [← split, List.length_append, length, Nat.add_div_left _ positive] at number
        exact Nat.succ.inj number
      have first : blocks size values = values.take size :: blocks size (values.drop size) := by
        rw [← blocks_append _ positive length, split]
      rw [first, List.flatten_cons, ih _ left, Nat.mul_succ, Nat.add_comm, List.take_add]

/-- The longest prefix that belongs to a language. -/
def longestPrefix (accepts : List Symbol → Bool) (text : List Symbol) : Option (List Symbol) :=
  text.inits.reverse.find? accepts

/-- A prefix in the language is the longest one if no longer one is. -/
theorem longestPrefix_eq {accepts : List Symbol → Bool} {word rest : List Symbol}
    (accepted : accepts word = true)
    (longest : ∀ other, other <+: word ++ rest → accepts other = true →
      other.length ≤ word.length) :
    longestPrefix accepts (word ++ rest) = some word := by
  have longer : ∀ other ∈ (rest.inits.tail.map fun more => word ++ more).reverse,
      ¬accepts other = true := by
    intro other member isAccepted
    obtain ⟨more, inTail, rfl⟩ := List.mem_map.mp (List.mem_reverse.mp member)
    have bound := longest (word ++ more) ?_ isAccepted
    · rw [List.length_append] at bound
      have empty : more = [] := List.length_eq_zero_iff.mp (by omega)
      cases rest <;> simp [empty] at inTail
    · have inside := (List.mem_inits more rest).mp (List.mem_of_mem_tail inTail)
      exact (List.prefix_append_right_inj word).mpr inside
  have last : word.inits.reverse.find? accepts = some word := by
    rw [List.inits_eq_tails, List.reverse_reverse]
    cases reversed : word.reverse with
    | nil =>
        rw [List.reverse_eq_nil_iff] at reversed
        subst reversed
        simp [accepted]
    | cons symbol before =>
        have whole : (symbol :: before).reverse = word := by rw [← reversed, List.reverse_reverse]
        rw [List.tails_cons, List.map_cons, whole, List.find?_cons_of_pos accepted]
  rw [longestPrefix, List.inits_append, List.reverse_append, List.find?_append,
    List.find?_eq_none.mpr longer, Option.none_or, last]

/-- There is a longest prefix in the language as soon as there is one. -/
theorem longestPrefix_isSome_iff (accepts : List Symbol → Bool) (text : List Symbol) :
    (longestPrefix accepts text).isSome ↔ ∃ word, word <+: text ∧ accepts word = true := by
  simp only [longestPrefix, List.find?_isSome, List.mem_reverse, List.mem_inits]

end TimeGANWebServer.Support
