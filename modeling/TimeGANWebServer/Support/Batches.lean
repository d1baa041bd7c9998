import Mathlib.Algebra.Order.Ring.Int
import Mathlib.Data.List.Basic

/-!
# Units that are taken in batches

Units arrive one group after the other, and now and then all that are there are taken as one
batch, or are lost.  Whether the units of an arrival all go into one batch can be seen from the
sizes: where nothing is lost, no batch ends inside of an arrival.
-/

namespace TimeGANWebServer.Support

/-- What a step does with the units that are held: others arrive behind them, all are taken as a
batch, or all are lost. -/
inductive Shift : Nat → Nat → List Nat → Nat → Prop where
  | arrive (held arrived : Nat) : Shift held arrived [] (held + arrived)
  | take (held : Nat) : Shift held 0 [held] 0
  | lose (held arrived : Nat) : Shift held arrived [] 0

/-- Shifts one after the other, with the arrivals and the batches they make. -/
inductive Shifts : Nat → List Nat → List Nat → Prop where
  | nil (held : Nat) : Shifts held [] []
  | cons {held arrived next : Nat} {taken arrivals batches : List Nat}
      (shift : Shift held arrived taken next) (shifts : Shifts next arrivals batches) :
      Shifts held (arrived :: arrivals) (taken ++ batches)

/-- With some units held, each of the batches to come ends in front of an arrival or behind it. -/
def Uncrossed (held : Nat) (batches arrivals : List Nat) : Prop :=
  ∀ before arrived after, arrivals = before ++ arrived :: after →
    ∀ done rest, batches = done ++ rest →
      done.sum ≤ held + before.sum ∨ held + before.sum + arrived ≤ done.sum

variable {held arrived size : Nat} {arrivals batches : List Nat}

namespace Uncrossed

theorem tail (uncrossed : Uncrossed held batches (arrived :: arrivals)) :
    Uncrossed (held + arrived) batches arrivals := by
  intro before other after split done rest whole
  have apart := uncrossed (arrived :: before) other after (congrArg (arrived :: ·) split) done rest
    whole
  simp only [List.sum_cons] at apart
  omega

/-- The first batch does not end inside of the first arrival. -/
theorem first (uncrossed : Uncrossed held (size :: batches) (arrived :: arrivals))
    (further : held < size) : held + arrived ≤ size := by
  have apart := uncrossed [] arrived arrivals rfl [size] batches rfl
  simp only [List.sum_nil, List.sum_cons] at apart
  omega

/-- What is held may be taken. -/
theorem take (uncrossed : Uncrossed held (held :: batches) arrivals) :
    Uncrossed 0 batches arrivals := by
  intro before other after split done rest whole
  have apart := uncrossed before other after split (held :: done) rest (congrArg (held :: ·) whole)
  simp only [List.sum_cons] at apart
  omega

theorem of_take (uncrossed : Uncrossed 0 batches arrivals) :
    Uncrossed held (held :: batches) arrivals := by
  intro before other after split done rest whole
  cases done with
  | nil => exact .inl (Nat.zero_le _)
  | cons first done =>
      obtain ⟨rfl, behind⟩ := List.cons.inj whole
      have apart := uncrossed before other after split done rest behind
      simp only [List.sum_cons]
      omega

theorem of_tail (uncrossed : Uncrossed (held + arrived) batches arrivals)
    (head : ∀ done rest, batches = done ++ rest → done.sum ≤ held ∨ held + arrived ≤ done.sum) :
    Uncrossed held batches (arrived :: arrivals) := by
  intro before other after split done rest whole
  cases before with
  | nil =>
      obtain ⟨rfl, rfl⟩ := List.cons.inj split
      have apart := head done rest whole
      simp only [List.sum_nil]
      omega
  | cons first before =>
      obtain ⟨rfl, behind⟩ := List.cons.inj split
      have apart := uncrossed before other after behind done rest whole
      simp only [List.sum_cons]
      omega

end Uncrossed

namespace Shifts

/-- No more is taken than there is. -/
theorem sum_le (shifts : Shifts held arrivals batches) : batches.sum ≤ held + arrivals.sum := by
  induction shifts with
  | nil => exact Nat.zero_le _
  | cons shift shifts ih =>
      simp only [List.sum_append, List.sum_cons]
      cases shift <;> simp only [List.sum_nil, List.sum_cons] at ih ⊢ <;> omega

/-- Where nothing is lost, the first batch takes all that is held. -/
theorem held_le_first (shifts : Shifts held arrivals (size :: batches))
    (all : (size :: batches).sum = held + arrivals.sum) : held ≤ size := by
  generalize same : size :: batches = taken at shifts all
  induction shifts generalizing size batches with
  | nil => contradiction
  | cons shift shifts ih =>
      cases shift with
      | arrive arrived =>
          rw [List.nil_append] at same all
          have later := ih same (by simp only [List.sum_cons] at all ⊢; omega)
          omega
      | take =>
          rw [List.singleton_append, List.cons.injEq] at same
          exact Nat.le_of_eq same.1.symm
      | lose arrived =>
          have bound := shifts.sum_le
          simp only [List.nil_append, List.sum_cons] at all
          omega

/-- Where nothing is lost, no batch ends inside of an arrival. -/
theorem uncrossed (shifts : Shifts held arrivals batches)
    (all : batches.sum = held + arrivals.sum) : Uncrossed held batches arrivals := by
  induction shifts with
  | nil => exact fun before _ _ split => by simp at split
  | @cons held arrived next taken arrivals batches shift shifts ih =>
      have bound := shifts.sum_le
      simp only [List.sum_append, List.sum_cons] at all
      cases shift with
      | arrive =>
          simp only [List.sum_nil] at all
          refine Uncrossed.of_tail (ih (by omega)) fun done rest whole => ?_
          cases done with
          | nil => exact .inl (Nat.zero_le _)
          | cons first done =>
              rw [List.cons_append] at whole
              subst whole
              have behind := held_le_first shifts (by omega)
              simp only [List.sum_cons]
              omega
      | take =>
          simp only [List.sum_cons, List.sum_nil] at all
          exact Uncrossed.of_tail (Uncrossed.of_take (ih (by omega)))
            fun done rest whole => by omega
      | lose =>
          simp only [List.sum_nil] at all
          obtain ⟨rfl, rfl⟩ : held = 0 ∧ arrived = 0 := by omega
          exact Uncrossed.of_tail (ih (by omega)) fun done rest whole => by omega

end Shifts

end TimeGANWebServer.Support
