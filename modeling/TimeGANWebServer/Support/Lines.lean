import Mathlib.Data.List.Basic

/-!
# Lines ended by CR LF

A text protocol's lines as they are sent.  A block of lines that ends with an empty
one can be read in one way only.
-/

namespace TimeGANWebServer.Support

/-- The end of a line. -/
def crlf : List UInt8 := [13, 10]

/-- Lines as they are sent. -/
def sendLines (lines : List (List UInt8)) : List UInt8 :=
  lines.flatMap (· ++ crlf)

@[simp] theorem sendLines_nil : sendLines [] = [] := rfl

@[simp] theorem sendLines_cons (line : List UInt8) (lines : List (List UInt8)) :
    sendLines (line :: lines) = line ++ 13 :: 10 :: sendLines lines := by
  simp [sendLines, crlf]

/-- The first carriage return ends a line. -/
theorem line_unique {left right leftRest rightRest : List UInt8} (leftPlain : 13 ∉ left)
    (rightPlain : 13 ∉ right) (equal : left ++ 13 :: leftRest = right ++ 13 :: rightRest) :
    left = right ∧ leftRest = rightRest := by
  induction left generalizing right with
  | nil =>
      cases right with
      | nil => simpa using equal
      | cons byte right =>
          simp only [List.nil_append, List.cons_append, List.cons.injEq] at equal
          exact absurd (equal.1 ▸ List.mem_cons_self) rightPlain
  | cons byte left ih =>
      cases right with
      | nil =>
          simp only [List.nil_append, List.cons_append, List.cons.injEq] at equal
          exact absurd (equal.1 ▸ List.mem_cons_self) leftPlain
      | cons other right =>
          simp only [List.cons_append, List.cons.injEq] at equal
          have tails := ih (fun member => leftPlain (List.mem_cons_of_mem _ member))
            (fun member => rightPlain (List.mem_cons_of_mem _ member)) equal.2
          exact ⟨by rw [equal.1, tails.1], tails.2⟩

/-- A block of lines is determined by its bytes, and so is what follows it. -/
theorem sendLines_unique {left right : List (List UInt8)} {leftRest rightRest : List UInt8}
    (leftPlain : ∀ line ∈ left, line ≠ [] ∧ 13 ∉ line)
    (rightPlain : ∀ line ∈ right, line ≠ [] ∧ 13 ∉ line)
    (equal : sendLines left ++ crlf ++ leftRest = sendLines right ++ crlf ++ rightRest) :
    left = right ∧ leftRest = rightRest := by
  induction left generalizing right with
  | nil =>
      cases right with
      | nil => simpa [crlf] using equal
      | cons line right =>
          obtain ⟨nonempty, plain⟩ := rightPlain line List.mem_cons_self
          simp only [sendLines_nil, sendLines_cons, crlf, List.nil_append, List.cons_append,
            List.append_assoc] at equal
          have first : ([] : List UInt8) ++ 13 :: (10 :: leftRest) = line ++ 13 :: _ := equal
          exact absurd (line_unique List.not_mem_nil plain first).1.symm nonempty
  | cons line left ih =>
      obtain ⟨nonempty, plain⟩ := leftPlain line List.mem_cons_self
      cases right with
      | nil =>
          simp only [sendLines_nil, sendLines_cons, crlf, List.nil_append, List.cons_append,
            List.append_assoc] at equal
          have first : line ++ 13 :: _ = ([] : List UInt8) ++ 13 :: (10 :: rightRest) := equal
          exact absurd (line_unique plain List.not_mem_nil first).1 nonempty
      | cons other right =>
          obtain ⟨_, otherPlain⟩ := rightPlain other List.mem_cons_self
          simp only [sendLines_cons, List.cons_append, List.append_assoc] at equal
          obtain ⟨same, rest⟩ := line_unique plain otherPlain equal
          have tails := ih (fun line member => leftPlain line (List.mem_cons_of_mem _ member))
            (fun line member => rightPlain line (List.mem_cons_of_mem _ member))
            (by simpa using rest)
          exact ⟨by rw [same, tails.1], tails.2⟩

end TimeGANWebServer.Support
