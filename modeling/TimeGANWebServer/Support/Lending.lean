import Mathlib.Data.Finset.Card
import Mathlib.Data.List.Nodup

/-!
# Items lent to threads

Threads take items out of a store and bring them back.  A counting semaphore in front of
the store lets a thread through only if there is an item for it; its count and the store
change at different moments, and the threads on their way between the two make up the
difference.
-/

namespace TimeGANWebServer.Support

universe u v

variable {Thread : Type u}

/-! ## Counting threads -/

section Tally

variable {Phase : Type v}

/-- So many threads are in one of the phases. -/
def Tally (Inside : Phase → Prop) (phases : Thread → Phase) (count : Nat) : Prop :=
  ∃ threads : Finset Thread, (∀ thread, thread ∈ threads ↔ Inside (phases thread)) ∧
    threads.card = count

namespace Tally

variable {Inside : Phase → Prop} {phases : Thread → Phase} {count : Nat} {thread : Thread}
  {phase : Phase}

theorem zero (outside : ∀ thread, ¬Inside (phases thread)) : Tally Inside phases 0 :=
  ⟨∅, fun thread => iff_of_false (Finset.notMem_empty thread) (outside thread), rfl⟩

theorem pos (tally : Tally Inside phases count) (inside : Inside (phases thread)) : 0 < count := by
  obtain ⟨threads, mem, card⟩ := tally
  exact card ▸ Finset.card_pos.mpr ⟨thread, (mem thread).mpr inside⟩

variable [DecidableEq Thread]

theorem stay (tally : Tally Inside phases count) (same : Inside phase ↔ Inside (phases thread)) :
    Tally Inside (Function.update phases thread phase) count := by
  obtain ⟨threads, mem, card⟩ := tally
  refine ⟨threads, fun other => ?_, card⟩
  by_cases equal : other = thread
  · subst equal
    rw [Function.update_self, same]
    exact mem other
  · rw [Function.update_of_ne equal]
    exact mem other

theorem enter (tally : Tally Inside phases count) (outside : ¬Inside (phases thread))
    (inside : Inside phase) :
    Tally Inside (Function.update phases thread phase) (count + 1) := by
  obtain ⟨threads, mem, card⟩ := tally
  have absent : thread ∉ threads := fun member => outside ((mem thread).mp member)
  refine ⟨insert thread threads, fun other => ?_, by rw [Finset.card_insert_of_notMem absent, card]⟩
  rw [Finset.mem_insert]
  by_cases equal : other = thread
  · subst equal
    rw [Function.update_self]
    exact iff_of_true (.inl rfl) inside
  · rw [Function.update_of_ne equal, or_iff_right equal]
    exact mem other

theorem leave (tally : Tally Inside phases (count + 1)) (inside : Inside (phases thread))
    (outside : ¬Inside phase) : Tally Inside (Function.update phases thread phase) count := by
  obtain ⟨threads, mem, card⟩ := tally
  have member : thread ∈ threads := (mem thread).mpr inside
  refine ⟨threads.erase thread, fun other => ?_, ?_⟩
  · rw [Finset.mem_erase]
    by_cases equal : other = thread
    · subst equal
      rw [Function.update_self]
      exact iff_of_false (fun both => both.1 rfl) outside
    · rw [Function.update_of_ne equal, and_iff_right equal]
      exact mem other
  · rw [Finset.card_erase_of_mem member, card, Nat.add_sub_cancel]

end Tally

/-! ## A semaphore in front of a store -/

/-- What a thread is doing at the semaphore: nothing, on its way from the semaphore to the
store, or on its way from the store to the semaphore. -/
structure Passage (Phase : Type v) where
  Granted : Phase → Prop
  Posting : Phase → Prop

/-- The items in the store are the permits of the semaphore, those that threads have been
granted and not yet taken, and those that have been returned and not yet posted. -/
def Balanced (passage : Passage Phase) (phases : Thread → Phase) (permits : Int)
    (available : Nat) : Prop :=
  ∃ granted posting : Nat, Tally passage.Granted phases granted ∧
    Tally passage.Posting phases posting ∧ (available : Int) = permits + granted + posting ∧
    0 ≤ permits

namespace Balanced

variable {passage : Passage Phase} {phases : Thread → Phase} {permits : Int} {available : Nat}
  {thread : Thread} {phase : Phase}

/-- No thread is at the semaphore yet. -/
theorem start (notGranted : ∀ thread, ¬passage.Granted (phases thread))
    (notPosting : ∀ thread, ¬passage.Posting (phases thread)) (available : Nat) :
    Balanced passage phases available available :=
  ⟨0, 0, .zero notGranted, .zero notPosting, by omega, by omega⟩

/-- A thread that has been granted an item finds one. -/
theorem available_pos (balanced : Balanced passage phases permits available)
    (granted : passage.Granted (phases thread)) : 0 < available := by
  obtain ⟨_, _, tally, _, balance, _⟩ := balanced
  have pos := tally.pos granted
  omega

variable [DecidableEq Thread]

/-- A thread goes on elsewhere. -/
theorem stay (balanced : Balanced passage phases permits available)
    (sameGranted : passage.Granted phase ↔ passage.Granted (phases thread))
    (samePosting : passage.Posting phase ↔ passage.Posting (phases thread)) :
    Balanced passage (Function.update phases thread phase) permits available := by
  obtain ⟨granted, posting, grantedTally, postingTally, balance⟩ := balanced
  exact ⟨granted, posting, grantedTally.stay sameGranted, postingTally.stay samePosting, balance⟩

/-- A thread gets a permit. -/
theorem wait (balanced : Balanced passage phases permits available) (some_ : 0 < permits)
    (before : ¬passage.Granted (phases thread)) (granted : passage.Granted phase)
    (samePosting : passage.Posting phase ↔ passage.Posting (phases thread)) :
    Balanced passage (Function.update phases thread phase) (permits - 1) available := by
  obtain ⟨granted_, posting, grantedTally, postingTally, balance⟩ := balanced
  exact ⟨granted_ + 1, posting, grantedTally.enter before granted, postingTally.stay samePosting,
    by omega⟩

/-- A thread takes the item it was granted. -/
theorem take (balanced : Balanced passage phases permits (available + 1))
    (granted : passage.Granted (phases thread)) (behind : ¬passage.Granted phase)
    (samePosting : passage.Posting phase ↔ passage.Posting (phases thread)) :
    Balanced passage (Function.update phases thread phase) permits available := by
  obtain ⟨granted_, posting, grantedTally, postingTally, balance⟩ := balanced
  have pos := grantedTally.pos granted
  obtain ⟨others, rfl⟩ := Nat.exists_eq_succ_of_ne_zero (Nat.ne_of_gt pos)
  exact ⟨others, posting, grantedTally.leave granted behind, postingTally.stay samePosting,
    by omega⟩

/-- A thread brings an item back. -/
theorem put (balanced : Balanced passage phases permits available)
    (before : ¬passage.Posting (phases thread)) (posting : passage.Posting phase)
    (sameGranted : passage.Granted phase ↔ passage.Granted (phases thread)) :
    Balanced passage (Function.update phases thread phase) permits (available + 1) := by
  obtain ⟨granted, posting_, grantedTally, postingTally, balance⟩ := balanced
  exact ⟨granted, posting_ + 1, grantedTally.stay sameGranted, postingTally.enter before posting,
    by omega⟩

/-- A thread posts the item it brought back. -/
theorem post (balanced : Balanced passage phases permits available)
    (posting : passage.Posting (phases thread)) (behind : ¬passage.Posting phase)
    (sameGranted : passage.Granted phase ↔ passage.Granted (phases thread)) :
    Balanced passage (Function.update phases thread phase) (permits + 1) available := by
  obtain ⟨granted, posting_, grantedTally, postingTally, balance⟩ := balanced
  have pos := postingTally.pos posting
  obtain ⟨others, rfl⟩ := Nat.exists_eq_succ_of_ne_zero (Nat.ne_of_gt pos)
  exact ⟨granted, others, grantedTally.stay sameGranted, postingTally.leave posting behind,
    by omega⟩

end Balanced

end Tally

/-! ## Who has an item -/

section Items

variable {Item : Type v}

/-- Every item is in the store, or with one of the threads. -/
structure Conserved (all store : List Item) (held : Thread → List Item) : Prop where
  mem_iff : ∀ item, item ∈ all ↔ item ∈ store ∨ ∃ thread, item ∈ held thread
  store_nodup : store.Nodup
  held_nodup : ∀ thread, (held thread).Nodup
  apart : ∀ thread, ∀ item ∈ held thread, item ∉ store
  exclusive : ∀ first second item, item ∈ held first → item ∈ held second → first = second

namespace Conserved

variable {all store : List Item} {held : Thread → List Item} {thread : Thread} {item : Item}

/-- All items are in the store. -/
theorem start (nodup : all.Nodup) (nothing : ∀ thread, held thread = []) :
    Conserved all all held where
  mem_iff item := by simp [nothing]
  store_nodup := nodup
  held_nodup thread := by simp [nothing]
  apart thread item member := by simp [nothing] at member
  exclusive first second item member := by simp [nothing] at member

variable [DecidableEq Thread]

/-- A thread takes the first item. -/
theorem lend (conserved : Conserved all (item :: store) held) :
    Conserved all store (Function.update held thread (item :: held thread)) := by
  have mem_held : ∀ other element,
      element ∈ Function.update held thread (item :: held thread) other ↔
        other = thread ∧ element = item ∨ element ∈ held other := by
    intro other element
    by_cases equal : other = thread
    · subst equal
      simp
    · simp [equal]
  obtain ⟨absent, nodup⟩ := List.nodup_cons.mp conserved.store_nodup
  have free : ∀ other, item ∉ held other := fun other member =>
    conserved.apart other item member List.mem_cons_self
  constructor
  · intro element
    rw [conserved.mem_iff, List.mem_cons]
    constructor
    · rintro ((isItem | inStore) | ⟨other, member⟩)
      · exact .inr ⟨thread, (mem_held thread element).mpr (.inl ⟨rfl, isItem⟩)⟩
      · exact .inl inStore
      · exact .inr ⟨other, (mem_held other element).mpr (.inr member)⟩
    · rintro (inStore | ⟨other, member⟩)
      · exact .inl (.inr inStore)
      · rcases (mem_held other element).mp member with ⟨_, isItem⟩ | member
        · exact .inl (.inl isItem)
        · exact .inr ⟨other, member⟩
  · exact nodup
  · intro other
    by_cases equal : other = thread
    · subst equal
      rw [Function.update_self]
      exact List.nodup_cons.mpr ⟨free other, conserved.held_nodup other⟩
    · rw [Function.update_of_ne equal]
      exact conserved.held_nodup other
  · intro other element member inStore
    rcases (mem_held other element).mp member with ⟨_, isItem⟩ | member
    · exact absent (isItem ▸ inStore)
    · exact conserved.apart other element member (List.mem_cons_of_mem _ inStore)
  · intro first second element inFirst inSecond
    rcases (mem_held first element).mp inFirst with ⟨isThread, isItem⟩ | inFirst
    · rcases (mem_held second element).mp inSecond with ⟨alsoThread, _⟩ | inSecond
      · rw [isThread, alsoThread]
      · exact absurd (isItem ▸ inSecond) (free second)
    · rcases (mem_held second element).mp inSecond with ⟨_, isItem⟩ | inSecond
      · exact absurd (isItem ▸ inFirst) (free first)
      · exact conserved.exclusive first second element inFirst inSecond

/-- A thread brings an item back. -/
theorem giveBack [DecidableEq Item] (conserved : Conserved all store held)
    (member : item ∈ held thread) :
    Conserved all (store ++ [item]) (Function.update held thread ((held thread).erase item)) := by
  have nodup := conserved.held_nodup thread
  have mem_held : ∀ other element,
      element ∈ Function.update held thread ((held thread).erase item) other ↔
        element ∈ held other ∧ element ≠ item := by
    intro other element
    by_cases equal : other = thread
    · subst equal
      rw [Function.update_self, nodup.mem_erase_iff, and_comm]
    · rw [Function.update_of_ne equal, iff_self_and]
      rintro inOther rfl
      exact equal (conserved.exclusive other thread element inOther member)
  constructor
  · intro element
    rw [conserved.mem_iff, List.mem_append, List.mem_singleton]
    constructor
    · rintro (inStore | ⟨other, inOther⟩)
      · exact .inl (.inl inStore)
      · by_cases isItem : element = item
        · exact .inl (.inr isItem)
        · exact .inr ⟨other, (mem_held other element).mpr ⟨inOther, isItem⟩⟩
    · rintro ((inStore | isItem) | ⟨other, inOther⟩)
      · exact .inl inStore
      · exact .inr ⟨thread, isItem ▸ member⟩
      · exact .inr ⟨other, ((mem_held other element).mp inOther).1⟩
  · exact List.nodup_append.mpr ⟨conserved.store_nodup, List.nodup_singleton item,
      fun element inStore other isItem => by
        rw [List.mem_singleton] at isItem
        subst isItem
        rintro rfl
        exact conserved.apart thread element member inStore⟩
  · intro other
    by_cases equal : other = thread
    · subst equal
      rw [Function.update_self]
      exact nodup.erase item
    · rw [Function.update_of_ne equal]
      exact conserved.held_nodup other
  · intro other element inOther
    obtain ⟨inHeld, notItem⟩ := (mem_held other element).mp inOther
    rw [List.mem_append, List.mem_singleton, not_or]
    exact ⟨conserved.apart other element inHeld, notItem⟩
  · intro first second element inFirst inSecond
    exact conserved.exclusive first second element ((mem_held first element).mp inFirst).1
      ((mem_held second element).mp inSecond).1

end Conserved

end Items

end TimeGANWebServer.Support
