import Mathlib.Logic.Function.Basic

/-!
# A store whose entries expire

A key-value store with a clock.  An entry carries the time from which on it is gone; whoever
looks it up later finds nothing.
-/

namespace TimeGANWebServer.Support

universe u v

/-- A store with its clock.  The time beside a value is the first one at which it is gone. -/
structure Expiring (Key : Type u) (Value : Type v) where
  now : Nat
  entries : Key → Option (Value × Nat)

namespace Expiring

variable {Key : Type u} {Value : Type v}

/-- A store without entries. -/
def empty : Expiring Key Value where
  now := 0
  entries := fun _ => none

/-- The value of a key, unless it has expired. -/
def get (store : Expiring Key Value) (key : Key) : Option Value :=
  match store.entries key with
  | some (value, expiry) => if store.now < expiry then some value else none
  | none => none

/-- Time passes. -/
def pass (store : Expiring Key Value) (ticks : Nat) : Expiring Key Value :=
  { store with now := store.now + ticks }

/-- The store holds a value under a key until some time. -/
def Holds (store : Expiring Key Value) (key : Key) (value : Value) (expiry : Nat) : Prop :=
  store.entries key = some (value, expiry)

variable {store : Expiring Key Value} {key other : Key} {value otherValue : Value}
  {expiry life : Nat}

theorem Holds.get (holds : store.Holds key value expiry) (live : store.now < expiry) :
    store.get key = some value := by
  simp only [Expiring.get, show store.entries key = _ from holds, if_pos live]

theorem Holds.pass (holds : store.Holds key value expiry) (ticks : Nat) :
    (store.pass ticks).Holds key value expiry := holds

/-- Nothing is found under a key whose entry, if there is one, has expired. -/
theorem get_eq_none_iff (store : Expiring Key Value) (key : Key) :
    store.get key = none ↔
      ∀ value expiry, store.Holds key value expiry → expiry ≤ store.now := by
  simp only [get, Holds]
  cases store.entries key with
  | none => simp
  | some entry =>
      obtain ⟨value, expiry⟩ := entry
      simp

/-- What has expired stays away. -/
theorem get_pass (absent : store.get key = none) (ticks : Nat) :
    (store.pass ticks).get key = none := by
  rw [get_eq_none_iff] at absent ⊢
  exact fun value expiry holds => Nat.le_add_right_of_le (absent value expiry holds)

variable [DecidableEq Key]

/-- Store a value for some time. -/
def set (store : Expiring Key Value) (key : Key) (life : Nat) (value : Value) :
    Expiring Key Value :=
  { store with entries := Function.update store.entries key (some (value, store.now + life)) }

/-- Delete the entry of a key. -/
def remove (store : Expiring Key Value) (key : Key) : Expiring Key Value :=
  { store with entries := Function.update store.entries key none }

theorem holds_set (store : Expiring Key Value) (key : Key) (life : Nat) (value : Value) :
    (store.set key life value).Holds key value (store.now + life) :=
  Function.update_self _ _ _

theorem Holds.set (holds : store.Holds key value expiry) (differ : key ≠ other) :
    (store.set other life otherValue).Holds key value expiry :=
  (Function.update_of_ne differ _ _).trans holds

theorem Holds.remove (holds : store.Holds key value expiry) (differ : key ≠ other) :
    (store.remove other).Holds key value expiry :=
  (Function.update_of_ne differ _ _).trans holds

theorem get_remove (store : Expiring Key Value) (key : Key) :
    (store.remove key).get key = none := by
  simp only [get, remove, Function.update_self]

/-- An operation on another key does not bring an entry back. -/
theorem get_set_ne (absent : store.get key = none) (differ : key ≠ other) (life : Nat)
    (value : Value) : (store.set other life value).get key = none := by
  simp only [get, set, Function.update_of_ne differ] at absent ⊢
  exact absent

theorem get_remove_of_none (absent : store.get key = none) (other : Key) :
    (store.remove other).get key = none := by
  by_cases same : key = other
  · subst same
    exact get_remove store key
  · simp only [get, remove, Function.update_of_ne same] at absent ⊢
    exact absent

end Expiring

end TimeGANWebServer.Support
