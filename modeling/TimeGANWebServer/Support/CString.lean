import Mathlib.Algebra.Order.Ring.Int
import Mathlib.Data.List.TakeWhile
import Mathlib.Logic.Function.Basic

/-!
# C strings in byte memory

A character array is a map from indices to bytes.  Indices are integers, as in
pointer arithmetic: an index outside the array's bounds names a byte of some
other object.  A C string is read from a start index up to the first NUL.

The functions of `<string.h>` and `<stdlib.h>` follow below as functions of the
bytes of a string; a position they return is an offset from the string's start.
-/

namespace TimeGANWebServer.Support

/-- A byte array, indexed as pointer arithmetic indexes it. -/
abbrev Memory := Int → UInt8

/-- The bytes of an ASCII literal. -/
def ascii (text : String) : List UInt8 :=
  text.toList.map fun char => char.toNat.toUInt8

/-- What is said of each byte of a text is checked byte by byte. -/
instance (priority := 2000) decidableForallMem {property : UInt8 → Prop}
    [DecidablePred property] (text : List UInt8) : Decidable (∀ byte ∈ text, property byte) :=
  List.decidableBAll property text

namespace Memory

/-- Write bytes one after the other from an index on. -/
def store (mem : Memory) (start : Int) (bytes : List UInt8) : Memory :=
  fun index =>
    if start ≤ index ∧ index < start + bytes.length then
      bytes.getD (index - start).toNat 0
    else
      mem index

/-- Set one byte. -/
def set (mem : Memory) (index : Int) (byte : UInt8) : Memory :=
  Function.update mem index byte

/-- The bytes are found one after the other from an index on. -/
def Holds (mem : Memory) (start : Int) (bytes : List UInt8) : Prop :=
  ∀ offset : Nat, ∀ inBounds : offset < bytes.length, mem (start + offset) = bytes[offset]

/-- Two arrays hold the same bytes from `start` up to a NUL at `stop`. -/
structure AgreeTo (left right : Memory) (start stop : Int) : Prop where
  nul : left stop = 0
  same : ∀ index, start ≤ index → index ≤ stop → left index = right index

/-- The string at `start` in an array that ends before `limit`. -/
def cstring (limit : Int) (mem : Memory) (start : Int) : List UInt8 :=
  go (limit - start).toNat start
where
  /-- At most `room` bytes from `index` on, up to the first NUL. -/
  go : Nat → Int → List UInt8
    | 0, _ => []
    | room + 1, index => if mem index = 0 then [] else mem index :: go room (index + 1)

theorem store_of_lt {mem : Memory} {start index : Int} {bytes : List UInt8}
    (before : index < start) : mem.store start bytes index = mem index :=
  if_neg fun inside => absurd inside.1 (Int.not_le.mpr before)

theorem store_of_le {mem : Memory} {start index : Int} {bytes : List UInt8}
    (after : start + bytes.length ≤ index) : mem.store start bytes index = mem index :=
  if_neg fun inside => absurd inside.2 (Int.not_lt.mpr after)

theorem holds_store (mem : Memory) (start : Int) (bytes : List UInt8) :
    (mem.store start bytes).Holds start bytes := by
  intro offset inBounds
  have inside : start ≤ start + (offset : Int) ∧ start + (offset : Int) < start + bytes.length := by
    omega
  rw [store, if_pos inside]
  simp [List.getD_eq_getElem?_getD, inBounds]

@[simp] theorem store_nil (mem : Memory) (start : Int) : mem.store start [] = mem := by
  funext index
  exact if_neg (by simp)

/-- Storing in two portions is storing once. -/
theorem store_append (mem : Memory) (start : Int) (left right : List UInt8) :
    (mem.store start left).store (start + left.length) right =
      mem.store start (left ++ right) := by
  funext index
  simp only [store, List.length_append, List.getD_eq_getElem?_getD]
  by_cases inRight : start + left.length ≤ index ∧ index < start + left.length + right.length
  · have inBoth : start ≤ index ∧ index < start + (left.length + right.length : Nat) := by omega
    rw [if_pos inRight, if_pos inBoth, List.getElem?_append_right (by omega)]
    congr 3
    omega
  · rw [if_neg inRight]
    by_cases inLeft : start ≤ index ∧ index < start + left.length
    · have inBoth : start ≤ index ∧ index < start + (left.length + right.length : Nat) := by omega
      rw [if_pos inLeft, if_pos inBoth, List.getElem?_append_left (by omega)]
    · have inNeither : ¬(start ≤ index ∧ index < start + (left.length + right.length : Nat)) := by
        omega
      rw [if_neg inLeft, if_neg inNeither]

/-- A store that reaches as far as one before it replaces it. -/
theorem store_store {mem : Memory} {start : Int} {short long : List UInt8}
    (covers : short.length ≤ long.length) :
    (mem.store start short).store start long = mem.store start long := by
  funext index
  by_cases inLong : start ≤ index ∧ index < start + long.length
  · simp only [store, if_pos inLong]
  · have notInShort : ¬(start ≤ index ∧ index < start + short.length) := by omega
    simp only [store, if_neg inLong, if_neg notInShort]

/-- Storing bytes other than a given one brings it nowhere. -/
theorem store_ne {mem : Memory} {start index : Int} {bytes : List UInt8} {byte : UInt8}
    (absent : byte ∉ bytes) (before : mem index ≠ byte) : mem.store start bytes index ≠ byte := by
  simp only [store]
  split
  case isTrue inside =>
      have inBounds : (index - start).toNat < bytes.length := by omega
      rw [List.getD_eq_getElem?_getD, List.getElem?_eq_getElem inBounds, Option.getD_some]
      exact fun equal => absent (equal ▸ List.getElem_mem inBounds)
  case isFalse => exact before

theorem set_of_ne {mem : Memory} {index other : Int} (byte : UInt8) (different : other ≠ index) :
    mem.set index byte other = mem other :=
  Function.update_of_ne different _ _

@[simp] theorem set_self (mem : Memory) (index : Int) (byte : UInt8) :
    mem.set index byte index = byte :=
  Function.update_self _ _ _

/-- A byte set below a stored range can be set before or after. -/
theorem store_set {mem : Memory} {start index : Int} {bytes : List UInt8} {byte : UInt8}
    (before : index < start) :
    (mem.store start bytes).set index byte = (mem.set index byte).store start bytes := by
  funext other
  by_cases equal : other = index
  · subst other
    rw [set_self, store_of_lt before, set_self]
  · rw [set_of_ne _ equal]
    simp only [store, set_of_ne byte equal]

theorem Holds.append_left {mem : Memory} {start : Int} {left right : List UInt8}
    (holds : mem.Holds start (left ++ right)) : mem.Holds start left := by
  intro offset inBounds
  rw [holds offset (by rw [List.length_append]; omega), List.getElem_append_left]

theorem Holds.append_right {mem : Memory} {start : Int} {left right : List UInt8}
    (holds : mem.Holds start (left ++ right)) : mem.Holds (start + left.length) right := by
  intro offset inBounds
  have moved := holds (left.length + offset) (by rw [List.length_append]; omega)
  rw [List.getElem_append_right (Nat.le_add_right _ _)] at moved
  simp only [Nat.add_sub_cancel_left] at moved
  rw [← moved]
  congr 1
  omega

/-- Storing behind a range extends what it holds. -/
theorem Holds.store {mem : Memory} {start : Int} {bytes : List UInt8}
    (holds : mem.Holds start bytes) (more : List UInt8) :
    (mem.store (start + bytes.length) more).Holds start (bytes ++ more) := by
  intro offset inBounds
  by_cases inside : offset < bytes.length
  · rw [store_of_lt (by omega), List.getElem_append_left inside]
    exact holds offset inside
  · rw [List.length_append] at inBounds
    have stored := holds_store mem (start + bytes.length) more (offset - bytes.length) (by omega)
    rw [List.getElem_append_right (by omega), ← stored]
    congr 1
    omega

/-- Setting a byte outside keeps what a range holds. -/
theorem Holds.set {mem : Memory} {start index : Int} {bytes : List UInt8} {byte : UInt8}
    (holds : mem.Holds start bytes) (outside : index < start ∨ start + bytes.length ≤ index) :
    (mem.set index byte).Holds start bytes := by
  intro offset inBounds
  rw [set_of_ne _ (by omega)]
  exact holds offset inBounds

theorem AgreeTo.mono {left right : Memory} {start stop : Int}
    (agree : AgreeTo left right start stop) (later : Int) (ordered : start ≤ later) :
    AgreeTo left right later stop where
  nul := agree.nul
  same index low high := agree.same index (Int.le_trans ordered low) high

/-- Setting the same byte before the NUL keeps the agreement. -/
theorem AgreeTo.set {left right : Memory} {start stop index : Int} (byte : UInt8)
    (agree : AgreeTo left right start stop) (before : index < stop) :
    AgreeTo (left.set index byte) (right.set index byte) start stop where
  nul := by rw [set_of_ne byte (Int.ne_of_gt before), agree.nul]
  same other low high := by
    by_cases equal : other = index
    · rw [equal, set_self, set_self]
    · rw [set_of_ne byte equal, set_of_ne byte equal, agree.same other low high]

/-- Two arrays that agree up to a NUL hold the same string. -/
theorem AgreeTo.cstring {limit start stop : Int} {left right : Memory}
    (agree : AgreeTo left right start stop) (ordered : start ≤ stop) (inside : stop < limit) :
    left.cstring limit start = right.cstring limit start := by
  have general : ∀ room index, start ≤ index → index ≤ stop →
      (stop - index).toNat < room → cstring.go left room index = cstring.go right room index := by
    intro room
    induction room with
    | zero => intro index _ _ short; exact absurd short (Nat.not_lt_zero _)
    | succ room ih =>
        intro index low high enough
        simp only [cstring.go, ← agree.same index low high]
        by_cases ends : left index = 0
        · simp [ends]
        · have further : index ≠ stop := fun equal => ends (equal ▸ agree.nul)
          rw [ih (index + 1) (by omega) (by omega) (by omega)]
  exact general _ start (Int.le_refl _) ordered (by omega)

/-- A string ends no later than a NUL that follows its start. -/
theorem cstring_length_le {limit start stop : Int} {mem : Memory} (ordered : start ≤ stop)
    (nul : mem stop = 0) : start + (mem.cstring limit start).length ≤ stop := by
  have general : ∀ room index, index ≤ stop →
      index + (cstring.go mem room index).length ≤ stop := by
    intro room
    induction room with
    | zero => intro index high; simpa [cstring.go] using high
    | succ room ih =>
        intro index high
        simp only [cstring.go]
        by_cases ends : mem index = 0
        · simpa [ends] using high
        · have further : index ≠ stop := fun equal => ends (equal ▸ nul)
          have rest := ih (index + 1) (by omega)
          simp only [ends, if_false, List.length_cons]
          omega
  exact general _ start ordered

/-- No byte of a string is NUL. -/
theorem not_mem_cstring (limit : Int) (mem : Memory) (start : Int) :
    (0 : UInt8) ∉ mem.cstring limit start := by
  have general : ∀ room index, (0 : UInt8) ∉ cstring.go mem room index := by
    intro room
    induction room with
    | zero => exact fun index => List.not_mem_nil
    | succ room ih =>
        intro index
        simp only [cstring.go]
        split
        case isTrue => exact List.not_mem_nil
        case isFalse further =>
            rw [List.mem_cons]
            rintro (zero | member)
            · exact further zero.symm
            · exact ih (index + 1) member
  exact general _ start

/-- A string whose first byte is not NUL begins with it. -/
theorem cstring_of_ne {limit start : Int} {mem : Memory} (further : mem start ≠ 0)
    (inside : start < limit) :
    mem.cstring limit start = mem start :: mem.cstring limit (start + 1) := by
  obtain ⟨room, enough⟩ : ∃ room, (limit - start).toNat = room + 1 :=
    ⟨(limit - start).toNat - 1, by omega⟩
  have rest : (limit - (start + 1)).toNat = room := by omega
  rw [cstring, enough, cstring.go, if_neg further, cstring, rest]

/-- Behind the end of the array there is no string. -/
theorem cstring_of_le {limit start : Int} {mem : Memory} (outside : limit ≤ start) :
    mem.cstring limit start = [] := by
  have none : (limit - start).toNat = 0 := by omega
  rw [cstring, none, cstring.go]

/-- How a string is read. -/
theorem cstring_step {limit start : Int} {mem : Memory} :
    mem.cstring limit start =
      if start < limit ∧ mem start ≠ 0 then mem start :: mem.cstring limit (start + 1) else [] := by
  by_cases inside : start < limit
  · by_cases ends : mem start = 0
    · obtain ⟨room, enough⟩ : ∃ room, (limit - start).toNat = room + 1 :=
        ⟨(limit - start).toNat - 1, by omega⟩
      simp [cstring, enough, cstring.go, ends]
    · rw [if_pos ⟨inside, ends⟩, cstring_of_ne ends inside]
  · rw [if_neg fun within => inside within.1, cstring_of_le (by omega)]

/-- An array holds a string where it is read. -/
theorem holds_cstring (limit : Int) (mem : Memory) (start : Int) :
    mem.Holds start (mem.cstring limit start) := by
  have general : ∀ room start, mem.Holds start (cstring.go mem room start) := by
    intro room
    induction room with
    | zero => exact fun _ offset inBounds => absurd inBounds (Nat.not_lt_zero _)
    | succ room ih =>
        intro start offset inBounds
        simp only [cstring.go] at inBounds ⊢
        split at inBounds
        case isTrue => exact absurd inBounds (Nat.not_lt_zero _)
        case isFalse further =>
            simp only [if_neg further]
            cases offset with
            | zero => simp
            | succ offset =>
                have later := ih (start + 1) offset (Nat.lt_of_succ_lt_succ inBounds)
                rw [List.getElem_cons_succ, ← later]
                congr 1
                omega
  exact general _ start

/-- The string from a later byte on. -/
theorem cstring_drop {limit start : Int} {mem : Memory} {count : Nat}
    (inside : count ≤ (mem.cstring limit start).length) :
    mem.cstring limit (start + count) = (mem.cstring limit start).drop count := by
  induction count generalizing start with
  | zero => simp
  | succ count ih =>
      have step := @cstring_step limit start mem
      split at step
      case isTrue =>
          rw [step, List.length_cons] at inside
          have rest := @ih (start + 1) (by omega)
          rw [step, List.drop_succ_cons, ← rest]
          congr 1
          omega
      case isFalse =>
          rw [step] at inside
          exact absurd inside (Nat.not_succ_le_zero _)

/-- A string that ends inside the array ends at a NUL. -/
theorem nul_behind_cstring {limit start : Int} {mem : Memory}
    (terminated : start + (mem.cstring limit start).length < limit) :
    mem (start + (mem.cstring limit start).length) = 0 := by
  have rest := @cstring_drop limit start mem _ (Nat.le_refl _)
  rw [List.drop_length, cstring_step] at rest
  by_cases nul : mem (start + (mem.cstring limit start).length) = 0
  · exact nul
  · rw [if_pos ⟨terminated, nul⟩] at rest
    contradiction

/-- A byte set in front of a string is not in it. -/
theorem cstring_set_before {limit start index : Int} {mem : Memory} (byte : UInt8)
    (before : index < start) :
      (mem.set index byte).cstring limit start = mem.cstring limit start := by
  have general : ∀ room start, index < start →
      cstring.go (mem.set index byte) room start = cstring.go mem room start := by
    intro room
    induction room with
    | zero => exact fun _ _ => rfl
    | succ room ih =>
        intro start before
        simp only [cstring.go, set_of_ne byte (Int.ne_of_gt before), ih (start + 1) (by omega)]
  exact general _ start before

/-- A NUL set in a string ends it. -/
theorem cstring_set_take {limit start : Int} {mem : Memory} {count : Nat}
    (inside : count < (mem.cstring limit start).length) :
    (mem.set (start + count) 0).cstring limit start = (mem.cstring limit start).take count := by
  induction count generalizing start with
  | zero =>
      rw [cstring_step, if_neg, List.take_zero]
      simp
  | succ count ih =>
      have step := @cstring_step limit start mem
      split at step
      case isTrue within =>
          rw [step, List.length_cons] at inside
          have rest := @ih (start + 1) (by omega)
          have moved : start + ((count + 1 : Nat) : Int) = start + 1 + count := by omega
          have same : (mem.set (start + 1 + count) 0) start = mem start := set_of_ne 0 (by omega)
          rw [step, List.take_succ_cons, ← rest, moved, @cstring_step limit start, same,
            if_pos within]
      case isFalse =>
          rw [step] at inside
          exact absurd inside (Nat.not_lt_zero _)

/-- Bytes followed by a NUL are read back up to the first NUL among them. -/
theorem cstring_of_holds {limit start : Int} {mem : Memory} {bytes : List UInt8}
    (holds : mem.Holds start bytes) (nul : mem (start + bytes.length) = 0)
    (inside : start + bytes.length < limit) :
    mem.cstring limit start = bytes.takeWhile (· ≠ 0) := by
  have general : ∀ room index, ∀ bytes : List UInt8, mem.Holds index bytes →
      mem (index + bytes.length) = 0 → bytes.length < room →
      cstring.go mem room index = bytes.takeWhile (· ≠ 0) := by
    intro room
    induction room with
    | zero => intro index bytes _ _ short; exact absurd short (Nat.not_lt_zero _)
    | succ room ih =>
        intro index bytes holds nul enough
        cases bytes with
        | nil =>
            have ends : mem index = 0 := by simpa using nul
            simp [cstring.go, ends]
        | cons byte bytes =>
            have head : mem index = byte := by
              rw [← Int.add_zero index]
              exact holds 0 (Nat.zero_lt_succ _)
            have tail : mem.Holds (index + 1) bytes := by
              simpa using (show mem.Holds index ([byte] ++ bytes) from holds).append_right
            have rest := ih (index + 1) bytes tail
              (by rw [← nul]; congr 1; simp only [List.length_cons]; omega)
              (by simp only [List.length_cons] at enough; omega)
            by_cases ends : byte = 0
            · simp [cstring.go, head, ends]
            · simp [cstring.go, head, ends, rest]
  exact general _ start bytes holds nul (by omega)

end Memory

/-! ## String functions -/

/-- `strpbrk`: where the first byte of `accept` stands. -/
def strpbrk (text accept : List UInt8) : Option Nat :=
  text.findIdx? fun byte => accept.contains byte

/-- `strspn`: how many leading bytes belong to `accept`. -/
def strspn (text accept : List UInt8) : Nat :=
  (text.takeWhile fun byte => accept.contains byte).length

/-- `strchr`: where the first occurrence of a byte stands. -/
def strchr (text : List UInt8) (byte : UInt8) : Option Nat :=
  text.findIdx? (· == byte)

/-- `strrchr`: where the last occurrence of a byte stands. -/
def strrchr : List UInt8 → UInt8 → Option Nat
  | [], _ => none
  | head :: text, byte =>
      match strrchr text byte with
      | some offset => some (offset + 1)
      | none => if head = byte then some 0 else none

/-- `tolower` in the C locale. -/
def tolower (byte : UInt8) : UInt8 :=
  if 65 ≤ byte ∧ byte ≤ 90 then byte + 32 else byte

/-- `strcasecmp(left, right) == 0`. -/
def strcasecmp (left right : List UInt8) : Bool :=
  left.map tolower == right.map tolower

/-- `strncasecmp(left, right, count) == 0`. -/
def strncasecmp (left right : List UInt8) (count : Nat) : Bool :=
  strcasecmp (left.take count) (right.take count)

/-- `isspace` in the C locale. -/
def isspace (byte : UInt8) : Bool :=
  byte == 32 || (9 ≤ byte && byte ≤ 13)

/-- The value of a run of decimal digits, first digit first. -/
def digitsValue (digits : List UInt8) : Nat :=
  digits.foldl (fun value digit => 10 * value + (digit.toNat - 48)) 0

/-- `isdigit`. -/
def isdigit (byte : UInt8) : Bool :=
  48 ≤ byte && byte ≤ 57

/-- `atol` for a 64-bit `long`: blanks, an optional sign, and digits; a value out
of range saturates. -/
def atol (text : List UInt8) : Int :=
  match text.dropWhile isspace with
  | 45 :: digits => max (-(2 : Int) ^ 63) (-(digitsValue (digits.takeWhile isdigit)))
  | 43 :: digits => min (2 ^ 63 - 1) (digitsValue (digits.takeWhile isdigit))
  | digits => min (2 ^ 63 - 1) (digitsValue (digits.takeWhile isdigit))

/-- Conversion of an integer to a 32-bit `int`. -/
def toInt32 (value : Int) : Int :=
  value.bmod (2 ^ 32)

/-- Conversion of an integer to a 64-bit `size_t`. -/
def toSizeT (value : Int) : Nat :=
  (value % 2 ^ 64).toNat

/-- A value in the range of `int` is kept. -/
theorem toInt32_of_lt {value : Int} (low : -2 ^ 31 ≤ value) (high : value < 2 ^ 31) :
    toInt32 value = value :=
  Int.bmod_eq_of_le (by omega) (by omega)

/-- A converted value is in the range of `int`. -/
theorem toInt32_bounds (value : Int) : -2 ^ 31 ≤ toInt32 value ∧ toInt32 value < 2 ^ 31 := by
  have low := @Int.le_bmod value (2 ^ 32) (by decide)
  have high := @Int.bmod_lt value (2 ^ 32) (by decide)
  simp only [toInt32]
  omega

/-- A value that is not negative is kept, or becomes less. -/
theorem toInt32_le {value : Int} (nonneg : 0 ≤ value) : toInt32 value ≤ value := by
  simp only [toInt32, Int.bmod]
  split <;> omega

/-- A natural number in the range of `size_t` is kept. -/
theorem toSizeT_natCast {value : Nat} (high : value < 2 ^ 64) : toSizeT value = value := by
  simp only [toSizeT]
  omega

/-- The first accepted byte stands behind bytes that are not accepted. -/
theorem strpbrk_append {front rest accept : List UInt8} {byte : UInt8}
    (others : ∀ other ∈ front, other ∉ accept) (found : byte ∈ accept) :
    strpbrk (front ++ byte :: rest) accept = some front.length := by
  rw [strpbrk, List.findIdx?_eq_some_iff_getElem]
  refine ⟨by simp, by simp [found], fun index before => ?_⟩
  rw [List.getElem_append_left before]
  simpa using others _ (List.getElem_mem before)

/-- A byte is found behind others. -/
theorem strchr_append {front rest : List UInt8} {byte : UInt8} (others : byte ∉ front) :
    strchr (front ++ byte :: rest) byte = some front.length := by
  rw [strchr, List.findIdx?_eq_some_iff_getElem]
  refine ⟨by simp, by simp, fun index before => ?_⟩
  rw [List.getElem_append_left before, Bool.not_eq_true, beq_eq_false_iff_ne]
  intro same
  exact others (same ▸ List.getElem_mem before)

/-- Nothing is skipped in front of a byte that is not accepted. -/
theorem strspn_cons {rest accept : List UInt8} {byte : UInt8} (other : byte ∉ accept) :
    strspn (byte :: rest) accept = 0 := by
  simp [strspn, other]

theorem strpbrk_lt {text accept : List UInt8} {offset : Nat}
    (found : strpbrk text accept = some offset) : offset < text.length := by
  rw [strpbrk, List.findIdx?_eq_some_iff_getElem] at found
  exact found.1

theorem strchr_lt {text : List UInt8} {byte : UInt8} {offset : Nat}
    (found : strchr text byte = some offset) : offset < text.length := by
  rw [strchr, List.findIdx?_eq_some_iff_getElem] at found
  exact found.1

/-- A text that begins with a name is at least as long. -/
theorem strncasecmp_length {text name : List UInt8}
    (equal : strncasecmp text name name.length = true) : name.length ≤ text.length := by
  simp only [strncasecmp, strcasecmp, beq_iff_eq] at equal
  have lengths := congrArg List.length equal
  simp only [List.length_map, List.length_take] at lengths
  omega

/-- A text that begins with a name has its letters, in either case. -/
theorem strncasecmp_getElem? {text name : List UInt8} {index : Nat}
    (equal : strncasecmp text name name.length = true) (inside : index < name.length) :
    text[index]?.map tolower = name[index]?.map tolower := by
  simp only [strncasecmp, strcasecmp, beq_iff_eq] at equal
  have letters := congrArg (fun text : List UInt8 => text[index]?) equal
  simpa only [List.getElem?_map, List.getElem?_take, if_pos inside] using letters

theorem strspn_le (text accept : List UInt8) : strspn text accept ≤ text.length :=
  (List.takeWhile_sublist _).length_le

end TimeGANWebServer.Support
