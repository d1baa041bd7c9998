import Mathlib.Data.Int.ModEq
import Mathlib.Logic.Function.Basic

/-!
# Windows of a ring

A ring is an array whose cells are named by indices up to a modulus.  A window is a number of
cells behind each other, from some index on; it grows at its end, where a cell is written, and
shrinks at its start, where none is.
-/

namespace TimeGANWebServer.Support

universe u

variable {Item : Type u}

/-- The contents of some cells of a ring, from an index on. -/
def window (ring : Int → Item) (modulus : Int) (start : Int) : Nat → List Item
  | 0 => []
  | count + 1 => ring (start % modulus) :: window ring modulus (start + 1) count

section Windows

variable {ring : Int → Item} {modulus start : Int}

@[simp] theorem length_window (ring : Int → Item) (modulus start : Int) (count : Nat) :
    (window ring modulus start count).length = count := by
  induction count generalizing start with
  | zero => rfl
  | succ count ih => rw [window, List.length_cons, ih]

/-- Indices of one cell are starts of one window. -/
theorem window_of_modEq {other : Int} (same : start ≡ other [ZMOD modulus]) (count : Nat) :
    window ring modulus start count = window ring modulus other count := by
  induction count generalizing start other with
  | zero => rfl
  | succ count ih =>
      have first : start % modulus = other % modulus := same
      rw [window, window, first, ih (same.add_right 1)]

/-- A window with one more cell at its end. -/
theorem window_succ (ring : Int → Item) (modulus start : Int) (count : Nat) :
    window ring modulus start (count + 1) =
      window ring modulus start count ++ [ring ((start + count) % modulus)] := by
  induction count generalizing start with
  | zero => simp [window]
  | succ count ih =>
      have behind : start + 1 + count = start + (count + 1 : Nat) := by omega
      rw [window, ih, window, List.cons_append, behind]

/-- The cells of a window that does not go around are different. -/
theorem emod_ne_of_lt {first second : Nat} (ordered : first < second)
    (short : (second : Int) - first < modulus) :
    (start + first) % modulus ≠ (start + second) % modulus := by
  intro same
  have divides : modulus ∣ (start + second) - (start + first) :=
    (show start + first ≡ start + second [ZMOD modulus] from same).dvd
  have apart : (start + second) - (start + first) = second - first := by omega
  rw [apart] at divides
  have positive : (0 : Int) < second - first := by omega
  have small := Int.le_of_dvd positive divides
  omega

/-- A cell outside of a window does not matter to it. -/
theorem window_update_of_outside {index : Int} {item : Item} {count : Nat}
    (outside : ∀ offset < count, (start + offset) % modulus ≠ index) :
    window (Function.update ring index item) modulus start count =
      window ring modulus start count := by
  induction count generalizing start with
  | zero => rfl
  | succ count ih =>
      have first := outside 0 (Nat.zero_lt_succ count)
      simp only [Int.natCast_zero, Int.add_zero] at first
      rw [window, window, Function.update_of_ne first, ih]
      intro offset inside
      have later := outside (offset + 1) (Nat.succ_lt_succ inside)
      have moved : start + 1 + offset = start + (offset + 1 : Nat) := by omega
      rwa [moved]

/-- The cell behind a window that leaves room is written. -/
theorem window_push {count : Nat} (room : (count : Int) < modulus) (item : Item) :
    window (Function.update ring ((start + count) % modulus) item) modulus start (count + 1) =
      window ring modulus start count ++ [item] := by
  rw [window_succ, Function.update_self, window_update_of_outside]
  intro offset inside
  exact emod_ne_of_lt inside (by omega)

end Windows

end TimeGANWebServer.Support
