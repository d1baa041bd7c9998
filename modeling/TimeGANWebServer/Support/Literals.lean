import Mathlib.Data.List.Infix

/-!
# Quoted literals

A literal between two quotes.  A quote inside of it is doubled or escaped, and an escape
character with the one behind it stands for some other characters.  Reading never yields more
characters than it consumes, and it yields as many exactly for a text that stands for itself.
-/

namespace TimeGANWebServer.Support

universe u

variable {Symbol : Type u} [DecidableEq Symbol]

/-- The quote, the escape character, and what an escape stands for by the character behind it. -/
structure Quoting (Symbol : Type u) where
  quote : Symbol
  escape : Symbol
  escaped : Symbol → List Symbol

namespace Quoting

variable (quoting : Quoting Symbol)

/-- What a literal denotes, and what follows it, from behind its first quote on. -/
def read : List Symbol → Option (List Symbol × List Symbol)
  | [] => none
  | symbol :: text =>
      if symbol = quoting.quote then
        match text with
        | [] => some ([], [])
        | second :: rest =>
            if second = quoting.quote then
              (read rest).map fun (literal : List Symbol × List Symbol) =>
                (quoting.quote :: literal.1, literal.2)
            else
              some ([], second :: rest)
      else if symbol = quoting.escape then
        match text with
        | [] => none
        | second :: rest =>
            (read rest).map fun (literal : List Symbol × List Symbol) =>
              (quoting.escaped second ++ literal.1, literal.2)
      else
        (read text).map fun (literal : List Symbol × List Symbol) =>
          (symbol :: literal.1, literal.2)

/-- A text that stands for itself between quotes: it has no quote, and its escapes are such as
stand for themselves. -/
inductive Plain : List Symbol → Prop where
  | nil : Plain []
  | cons {symbol : Symbol} {text : List Symbol} :
      symbol ≠ quoting.quote → symbol ≠ quoting.escape → Plain text → Plain (symbol :: text)
  | kept {symbol : Symbol} {text : List Symbol} :
      quoting.escaped symbol = [quoting.escape, symbol] → Plain text →
        Plain (quoting.escape :: symbol :: text)

/-- An escape stands for two characters at most, and is not the quote. -/
structure Sound : Prop where
  differ : quoting.escape ≠ quoting.quote
  short : ∀ symbol, (quoting.escaped symbol).length ≤ 2
  self : ∀ symbol, (quoting.escaped symbol).length = 2 →
    quoting.escaped symbol = [quoting.escape, symbol]

variable {quoting}

theorem read_other {symbol : Symbol} {text : List Symbol} (notQuote : symbol ≠ quoting.quote)
    (notEscape : symbol ≠ quoting.escape) :
    quoting.read (symbol :: text) =
      (quoting.read text).map fun (literal : List Symbol × List Symbol) =>
        (symbol :: literal.1, literal.2) := by
  cases text <;> simp only [read, if_neg notQuote, if_neg notEscape]

theorem read_escape {second : Symbol} {rest : List Symbol}
    (differ : quoting.escape ≠ quoting.quote) :
    quoting.read (quoting.escape :: second :: rest) =
      (quoting.read rest).map fun (literal : List Symbol × List Symbol) =>
        (quoting.escaped second ++ literal.1, literal.2) := by
  simp only [read, if_neg differ, if_true]

/-- A plain text in quotes denotes itself. -/
theorem Plain.read (sound : quoting.Sound) {text after : List Symbol} (plain : quoting.Plain text)
    (ends : after.head? ≠ some quoting.quote) :
    quoting.read (text ++ quoting.quote :: after) = some (text, after) := by
  induction plain with
  | nil =>
      cases after with
      | nil => simp [Quoting.read]
      | cons second rest =>
          have other : second ≠ quoting.quote := fun same => ends (by rw [same, List.head?_cons])
          simp [Quoting.read, other]
  | cons notQuote notEscape _ ih =>
      rw [List.cons_append, read_other notQuote notEscape, ih, Option.map_some]
  | kept itself _ ih =>
      rw [List.cons_append, List.cons_append, read_escape sound.differ, ih, Option.map_some, itself]
      rfl

/-- What a literal denotes is no longer than its text, and as long only if the text is plain. -/
theorem read_spec (sound : quoting.Sound) {text value after : List Symbol}
    (reads : quoting.read text = some (value, after)) :
    after <:+ text ∧ value.length + after.length + 1 ≤ text.length ∧
      (value.length + after.length + 1 = text.length →
        text = value ++ quoting.quote :: after ∧ quoting.Plain value) := by
  induction text using read.induct quoting generalizing value after with
  | case1 => simp [Quoting.read] at reads
  | case2 =>
      simp only [Quoting.read, if_true, Option.some.injEq, Prod.mk.injEq] at reads
      obtain ⟨rfl, rfl⟩ := reads
      exact ⟨List.nil_suffix, by simp, fun _ => ⟨rfl, .nil⟩⟩
  | case3 rest ih =>
      simp only [Quoting.read, if_true, Option.map_eq_some_iff, Prod.mk.injEq] at reads
      obtain ⟨⟨value, after⟩, reads, rfl, rfl⟩ := reads
      obtain ⟨suffix, bound, _⟩ := ih reads
      refine ⟨(suffix.trans (List.suffix_cons _ _)).trans (List.suffix_cons _ _), ?_, ?_⟩
      · simp only [List.length_cons]
        omega
      · intro same
        simp only [List.length_cons] at same
        omega
  | case4 second rest other =>
      simp only [Quoting.read, if_true, if_neg other, Option.some.injEq, Prod.mk.injEq] at reads
      obtain ⟨rfl, rfl⟩ := reads
      exact ⟨List.suffix_cons _ _, by simp, fun _ => ⟨rfl, .nil⟩⟩
  | case5 notQuote => simp [Quoting.read, notQuote] at reads
  | case6 second rest notQuote ih =>
      rw [read_escape notQuote] at reads
      simp only [Option.map_eq_some_iff, Prod.mk.injEq] at reads
      obtain ⟨⟨value, after⟩, reads, rfl, rfl⟩ := reads
      obtain ⟨suffix, bound, whole⟩ := ih reads
      have short := sound.short second
      refine ⟨(suffix.trans (List.suffix_cons _ _)).trans (List.suffix_cons _ _), ?_, ?_⟩
      · simp only [List.length_append, List.length_cons]
        omega
      · intro same
        simp only [List.length_append, List.length_cons] at same bound
        have itself := sound.self second (by omega)
        obtain ⟨text, plain⟩ := whole (by omega)
        rw [itself]
        exact ⟨by rw [text]; rfl, .kept itself plain⟩
  | case7 symbol text notQuote notEscape ih =>
      rw [read_other notQuote notEscape] at reads
      simp only [Option.map_eq_some_iff, Prod.mk.injEq] at reads
      obtain ⟨⟨value, after⟩, reads, rfl, rfl⟩ := reads
      obtain ⟨suffix, bound, whole⟩ := ih reads
      refine ⟨suffix.trans (List.suffix_cons _ _), ?_, ?_⟩
      · simp only [List.length_cons]
        omega
      · intro same
        simp only [List.length_cons] at same
        obtain ⟨text, plain⟩ := whole (by omega)
        exact ⟨by rw [text]; rfl, .cons notQuote notEscape plain⟩

end Quoting

end TimeGANWebServer.Support
