import TimeGANWebServer.Http.DoRequest
import TimeGANWebServer.Support.Literals

/-!
# The registration statement

The text that `do_request` in `http/http_conn.cpp` puts together in `sql_insert`, read as
MySQL reads it: in a string literal between single quotes a quote may be doubled, and a
backslash begins an escape.
-/

namespace TimeGANWebServer.Http

open TimeGANWebServer.Support

/-- What a backslash and the byte behind it stand for in a string.  `\%` and `\_` stand for
themselves, and an escape without a meaning for the byte behind the backslash. -/
def mysqlEscaped (byte : UInt8) : List UInt8 :=
  if byte = 48 then [0]
  else if byte = 98 then [8]
  else if byte = 110 then [10]
  else if byte = 114 then [13]
  else if byte = 116 then [9]
  else if byte = 90 then [26]
  else if byte = 37 ∨ byte = 95 then [92, byte]
  else [byte]

/-- The strings between single quotes. -/
def mysqlString : Quoting UInt8 where
  quote := 39
  escape := 92
  escaped := mysqlEscaped

/-- The text behind white space. -/
def skipSpaces (text : List UInt8) : List UInt8 :=
  text.dropWhile isspace

/-- What follows a token at the beginning of a text. -/
def expect (token text : List UInt8) : Option (List UInt8) :=
  if token.isPrefixOf text then some (text.drop token.length) else none

/-- The value of a string literal, and what follows it. -/
def readString (text : List UInt8) : Option (List UInt8 × List UInt8) :=
  (expect [39] (skipSpaces text)).bind mysqlString.read

/-- The statement up to the parenthesis of its `VALUES` list. -/
def insertHead : List UInt8 := ascii "INSERT INTO user(username, passwd) VALUES("

/-- The two strings of one `INSERT` statement with nothing behind it. -/
def readInsert (text : List UInt8) : Option (List UInt8 × List UInt8) :=
  (expect insertHead text).bind fun text =>
    (readString text).bind fun (name : List UInt8 × List UInt8) =>
      (expect [44] (skipSpaces name.2)).bind fun text =>
        (readString text).bind fun (password : List UInt8 × List UInt8) =>
          if expect [41] (skipSpaces password.2) = some [] then some (name.1, password.1) else none

/-- A field that stands for itself in a string: it has no quote, and each backslash in it is
followed by `%` or `_`. -/
abbrev PlainField (field : List UInt8) : Prop :=
  mysqlString.Plain field

theorem mysqlString_sound : mysqlString.Sound where
  differ := by decide
  short := by
    intro byte
    simp only [mysqlString, mysqlEscaped]
    repeat' split
    all_goals simp
  self := by
    intro byte
    simp only [mysqlString, mysqlEscaped]
    repeat' split
    all_goals simp

theorem expect_append (token text : List UInt8) : expect token (token ++ text) = some text := by
  have front : token.isPrefixOf (token ++ text) = true := by simp
  rw [expect, if_pos front, List.drop_left]

theorem eq_of_expect {token text rest : List UInt8} (found : expect token text = some rest) :
    text = token ++ rest := by
  simp only [expect] at found
  split at found
  case isTrue front =>
      obtain ⟨behind, rfl⟩ := List.isPrefixOf_iff_prefix.mp front
      rw [List.drop_left, Option.some.injEq] at found
      rw [found]
  case isFalse => contradiction

theorem length_skipSpaces_le (text : List UInt8) : (skipSpaces text).length ≤ text.length :=
  (List.dropWhile_suffix isspace).length_le

/-- A string literal that denotes a field takes the field's length and its quotes. -/
theorem readString_length {text value after : List UInt8}
    (reads : readString text = some (value, after)) :
    value.length + after.length + 2 ≤ text.length := by
  obtain ⟨rest, quoted, reads⟩ := Option.bind_eq_some_iff.mp reads
  have bound := (Quoting.read_spec mysqlString_sound reads).2.1
  have same := congrArg List.length (eq_of_expect quoted)
  have skipped := length_skipSpaces_le text
  simp only [List.length_append, List.length_cons, List.length_nil] at same
  omega

/-- A literal at the beginning of a text. -/
theorem readString_quote (text : List UInt8) : readString (39 :: text) = mysqlString.read text := by
  have notSpace : skipSpaces (39 :: text) = [39] ++ text := rfl
  rw [readString, notSpace, expect_append, Option.bind_some]

namespace HttpConn

theorem sqlInsert_eq (name password : List UInt8) :
    sqlInsert name password =
      insertHead ++ 39 :: (name ++ 39 :: (44 :: 32 :: 39 :: (password ++ 39 :: [41]))) := by
  have quote : ascii "'" = [39] := by decide
  have middle : ascii "', '" = [39, 44, 32, 39] := by decide
  have last : ascii "')" = [39, 41] := by decide
  simp only [sqlInsert, quote, middle, last, insertHead, List.append_assoc, List.cons_append,
    List.nil_append]

/-- A first literal with one character less than its text would end behind the comma. -/
theorem not_comma_of_suffix {password after rest : List UInt8}
    (behind : after = 32 :: 39 :: (password ++ [39, 41]))
    (comma : expect [44] (skipSpaces after) = some rest) : False := by
  have quoted : skipSpaces after = 39 :: (password ++ [39, 41]) := by
    rw [behind]
    rfl
  have found := eq_of_expect comma
  rw [quoted] at found
  exact absurd (List.cons.inj found).1 (by decide)

/-- The statement denotes the name and the password exactly if both stand for themselves. -/
theorem readInsert_sqlInsert_iff (name password : List UInt8) :
    readInsert (sqlInsert name password) = some (name, password) ↔
      PlainField name ∧ PlainField password := by
  let tail := 44 :: 32 :: 39 :: (password ++ 39 :: [41])
  have head : readInsert (sqlInsert name password) =
      (mysqlString.read (name ++ 39 :: tail)).bind fun (name : List UInt8 × List UInt8) =>
        (expect [44] (skipSpaces name.2)).bind fun text =>
          (readString text).bind fun (password : List UInt8 × List UInt8) =>
            if expect [41] (skipSpaces password.2) = some [] then
              some (name.1, password.1)
            else
              none := by
    rw [readInsert, sqlInsert_eq, expect_append, Option.bind_some, readString_quote]
  have comma : expect [44] (skipSpaces tail) = some (32 :: 39 :: (password ++ 39 :: [41])) :=
    expect_append [44] _
  have space : readString (32 :: 39 :: (password ++ 39 :: [41])) =
      mysqlString.read (password ++ 39 :: [41]) :=
    readString_quote _
  rw [head]
  constructor
  · intro reads
    obtain ⟨⟨first, after⟩, readName, reads⟩ := Option.bind_eq_some_iff.mp reads
    obtain ⟨text, isComma, reads⟩ := Option.bind_eq_some_iff.mp reads
    obtain ⟨⟨second, last⟩, readPassword, reads⟩ := Option.bind_eq_some_iff.mp reads
    simp only [] at isComma readPassword reads
    split at reads
    case isFalse => contradiction
    case isTrue closed =>
        simp only [Option.some.injEq, Prod.mk.injEq] at reads
        obtain ⟨rfl, rfl⟩ := reads
        obtain ⟨suffix, bound, whole⟩ := Quoting.read_spec mysqlString_sound readName
        -- What is left behind the first literal has room for the second one.
        have closing := congrArg List.length (eq_of_expect closed)
        have skipped := length_skipSpaces_le last
        have needed := readString_length readPassword
        have joined := congrArg List.length (eq_of_expect isComma)
        have skippedName := length_skipSpaces_le after
        simp only [List.length_append, List.length_cons, List.length_nil, tail]
          at bound closing joined
        by_cases exact_ : after.length = second.length + 5
        · have length : first.length + after.length + 1 = (first ++ 39 :: tail).length := by
            simp only [tail, List.length_append, List.length_cons, List.length_nil]
            omega
          obtain ⟨split, plainName⟩ := whole length
          have same : after = tail := by
            have behind := List.append_cancel_left split
            exact (List.cons.inj behind).2.symm
          rw [same, comma, Option.some.injEq] at isComma
          rw [← isComma, space] at readPassword
          have plainPassword := (Quoting.read_spec mysqlString_sound readPassword).2
          refine ⟨plainName, (plainPassword.2 ?_).2⟩
          have room := plainPassword.1
          simp only [List.length_append, List.length_cons, List.length_nil] at room ⊢
          omega
        · exfalso
          have drop : after = 32 :: 39 :: (second ++ [39, 41]) := by
            have ends : (32 :: 39 :: (second ++ [39, 41])) <:+ first ++ 39 :: tail :=
              ⟨first ++ [39, 44], by simp [tail]⟩
            refine (List.suffix_of_suffix_length_le suffix ends ?_).eq_of_length ?_
            all_goals
              simp only [List.length_append, List.length_cons, List.length_nil]
              omega
          exact not_comma_of_suffix drop isComma
  · rintro ⟨plainName, plainPassword⟩
    have readName : mysqlString.read (name ++ 39 :: tail) = some (name, tail) :=
      plainName.read mysqlString_sound (by simp [tail, mysqlString])
    have readPassword : mysqlString.read (password ++ 39 :: [41]) = some (password, [41]) :=
      plainPassword.read mysqlString_sound (by decide)
    have closed : expect [41] (skipSpaces [41]) = some [] := by decide
    rw [readName, Option.bind_some, comma, Option.bind_some, space, readPassword, Option.bind_some,
      if_pos closed]

/-- A name with a quote ends its literal early. -/
theorem not_readInsert_sqlInsert :
    readInsert (sqlInsert (ascii "o'hara") (ascii "secret")) ≠
      some (ascii "o'hara", ascii "secret") := by
  decide

end HttpConn

end TimeGANWebServer.Http
