import TimeGANWebServer.Support.CString

/-!
# Formatting a log record

The formatting in `write_log` in `log/log.cpp`: a time stamp and the level are printed into
`m_buf`, the message behind them, and a line feed behind the message.  The writes of a call are
listed in their order, with the index and the bytes of each.
-/

namespace TimeGANWebServer.Logging

open TimeGANWebServer.Support

/-- A number with leading zeros up to a width. -/
def padded (width value : Nat) : List UInt8 :=
  List.replicate (width - (ascii (toString value)).length) 48 ++ ascii (toString value)

/-- The members of `struct tm`, and the microseconds, that are printed, in their ranges. -/
structure Clock where
  year : Nat
  mon : Nat
  mday : Nat
  hour : Nat
  min : Nat
  sec : Nat
  usec : Nat
  year_lt : year < 2 ^ 31
  mon_le : mon ≤ 12
  mday_le : mday ≤ 31
  hour_lt : hour < 24
  min_lt : min < 60
  sec_le : sec ≤ 60
  usec_lt : usec < 1000000

/-- The text for a level. -/
def levelText (level : Int) : List UInt8 :=
  if level = 0 then ascii "[debug]:"
  else if level = 1 then ascii "[info]:"
  else if level = 2 then ascii "[warn]:"
  else if level = 3 then ascii "[erro]:"
  else ascii "[info]:"

/-- The time stamp and the level in front of a message. -/
def stampText (now : Clock) (level : Int) : List UInt8 :=
  padded 0 now.year ++ ascii "-" ++ padded 2 now.mon ++ ascii "-" ++ padded 2 now.mday ++
    ascii " " ++ padded 2 now.hour ++ ascii ":" ++ padded 2 now.min ++ ascii ":" ++
    padded 2 now.sec ++ ascii "." ++ padded 6 now.usec ++ ascii " " ++ levelText level ++ ascii " "

/-- Bytes written at an index. -/
structure Write where
  start : Int
  bytes : List UInt8
  deriving DecidableEq

/-- What `snprintf` writes for a text, with a size that is not 0. -/
def snprintf (start : Int) (size : Nat) (text : List UInt8) : Write where
  start := start
  bytes := text.take (size - 1) ++ [0]

/-- What `snprintf` returns: the length of the whole text, where an `int` holds it. -/
def snprintfResult (text : List UInt8) : Int :=
  if text.length < 2 ^ 31 then text.length else -1

/-- The writes of `write_log` to `m_buf`.  The message is given room for `m_log_buf_size - 1` bytes
behind the stamp, and the line feed goes where the whole message would end. -/
def formatWrites (bufSize : Nat) (stamp message : List UInt8) : List Write :=
  let n := snprintfResult stamp
  let m := snprintfResult message
  [snprintf 0 48 stamp, snprintf n (bufSize - 1) message, ⟨n + m, [10]⟩, ⟨n + m + 1, [0]⟩]

/-- The buffer after some writes. -/
def written (buf : Memory) (writes : List Write) : Memory :=
  writes.foldl (fun buf write => buf.store write.start write.bytes) buf

/-- The record `log_str` that is taken from the buffer. -/
def record (bufSize : Nat) (buf : Memory) (stamp message : List UInt8) : List UInt8 :=
  (written buf (formatWrites bufSize stamp message)).cstring
    (snprintfResult stamp + snprintfResult message + 2) 0

/-- A call writes inside of `m_buf` only, and its record is the stamp, the message or what it
begins with, and a line feed. -/
structure Formats (bufSize : Nat) (buf : Memory) (stamp message : List UInt8) : Prop where
  inside : ∀ write ∈ formatWrites bufSize stamp message, ∀ index : Int,
    write.start ≤ index → index < write.start + write.bytes.length → index < bufSize
  record : ∃ kept, kept <+: message ∧ record bufSize buf stamp message = stamp ++ kept ++ [10]

/-! ## The stamp -/

theorem length_padded {width value : Nat} (positive : 0 < width) (short : value < 10 ^ width) :
    (padded width value).length = width := by
  have digits : (toString value).length ≤ width := (Nat.length_repr_le_iff positive).mpr short
  simp only [padded, ascii, List.length_append, List.length_replicate, List.length_map,
    String.length_toList]
  omega

theorem length_padded_zero {value : Nat} (short : value < 2 ^ 31) :
    (padded 0 value).length ≤ 10 := by
  have digits : (toString value).length ≤ 10 := (Nat.length_repr_le_iff (by omega)).mpr (by omega)
  simp only [padded, ascii, List.length_append, List.length_replicate, List.length_map,
    String.length_toList]
  omega

/-- The stamp fits where it is printed. -/
theorem length_stampText (now : Clock) (level : Int) :
    2 ≤ (stampText now level).length ∧ (stampText now level).length ≤ 47 := by
  have year := length_padded_zero now.year_lt
  have mon := @length_padded 2 now.mon (by decide) (by have := now.mon_le; omega)
  have mday := @length_padded 2 now.mday (by decide) (by have := now.mday_le; omega)
  have hour := @length_padded 2 now.hour (by decide) (by have := now.hour_lt; omega)
  have min := @length_padded 2 now.min (by decide) (by have := now.min_lt; omega)
  have sec := @length_padded 2 now.sec (by decide) (by have := now.sec_le; omega)
  have usec := @length_padded 6 now.usec (by decide) now.usec_lt
  have marks : (ascii "-").length = 1 ∧ (ascii " ").length = 1 ∧ (ascii ":").length = 1 ∧
      (ascii ".").length = 1 := by decide
  have text : (levelText level).length ≤ 8 := by
    simp only [levelText]
    repeat' split
    all_goals decide
  simp only [stampText, List.length_append]
  omega

theorem padded_ne_zero (width value : Nat) : ∀ byte ∈ padded width value, byte ≠ 0 := by
  intro byte member
  rcases List.mem_append.mp member with zero | digit
  · rw [List.eq_of_mem_replicate zero]
    decide
  · obtain ⟨char, inText, rfl⟩ := List.mem_map.mp digit
    have text : (toString value).toList = Nat.toDigits 10 value := by simp [Nat.repr]
    rw [text] at inText
    have isDigit := Nat.isDigit_of_mem_toDigits (by omega) (by omega) inText
    simp only [Char.isDigit, Bool.and_eq_true, decide_eq_true_eq] at isDigit
    have low : 48 ≤ char.toNat := UInt32.le_iff_toNat_le.mp isDigit.1
    have high : char.toNat ≤ 57 := UInt32.le_iff_toNat_le.mp isDigit.2
    generalize char.toNat = number at low high
    rw [Ne, ← UInt8.toNat_inj]
    simp
    omega

theorem stampText_ne_zero (now : Clock) (level : Int) : (0 : UInt8) ∉ stampText now level := by
  have number : ∀ width value, (0 : UInt8) ∉ padded width value :=
    fun width value member => padded_ne_zero width value 0 member rfl
  have marks : (0 : UInt8) ∉ ascii "-" ∧ (0 : UInt8) ∉ ascii " " ∧ (0 : UInt8) ∉ ascii ":" ∧
      (0 : UInt8) ∉ ascii "." := by decide
  have text : (0 : UInt8) ∉ levelText level := by
    simp only [levelText]
    repeat' split
    all_goals decide
  simp only [stampText, List.mem_append, number, marks, text, or_self, not_false_eq_true]

/-! ## The buffer -/

theorem snprintfResult_of_lt {text : List UInt8} (short : text.length < 2 ^ 31) :
    snprintfResult text = text.length :=
  if_pos short

/-- Each write begins at the NUL of the one before, so that a message that fits is found between
the stamp and the line feed. -/
theorem written_formatWrites {bufSize : Nat} {buf : Memory} {stamp message : List UInt8}
    (stampFits : stamp.length ≤ 47) (short : message.length < 2 ^ 31)
    (fits : message.length + 2 ≤ bufSize) :
    written buf (formatWrites bufSize stamp message) =
      buf.store 0 (stamp ++ message ++ [10] ++ [0]) := by
  have stampWhole : stamp.take (48 - 1) = stamp := List.take_of_length_le stampFits
  have messageWhole : message.take (bufSize - 1 - 1) = message :=
    List.take_of_length_le (by omega)
  have behind : ∀ (left : List UInt8) (more : List UInt8), 1 ≤ more.length →
      (buf.store 0 (left ++ [0])).store left.length more = buf.store 0 (left ++ more) := by
    intro left more some
    have begins : (left.length : Int) = 0 + left.length := by omega
    have covers : [(0 : UInt8)].length ≤ more.length := some
    rw [begins, ← Memory.store_append, Memory.store_store covers, Memory.store_append]
  simp only [formatWrites, snprintf, written, List.foldl_cons, List.foldl_nil, stampWhole,
    messageWhole, snprintfResult_of_lt short, snprintfResult_of_lt
      (show stamp.length < 2 ^ 31 by omega)]
  rw [behind stamp (message ++ [0]) (by simp), ← List.append_assoc]
  have first := behind (stamp ++ message) [10] (by simp)
  have second := Memory.store_append buf 0 (stamp ++ message ++ [10]) [0]
  simp only [List.length_append, List.length_cons, List.length_nil, Nat.cast_add, Nat.cast_one,
    Nat.cast_zero, Int.zero_add] at first second
  rw [first, ← second, Int.add_assoc]

theorem record_of_fits {bufSize : Nat} {buf : Memory} {stamp message : List UInt8}
    (stampFits : stamp.length ≤ 47) (short : message.length < 2 ^ 31)
    (fits : message.length + 2 ≤ bufSize) (stampPlain : 0 ∉ stamp) (messagePlain : 0 ∉ message) :
    record bufSize buf stamp message = stamp ++ message ++ [10] := by
  have holds := Memory.holds_store buf 0 (stamp ++ message ++ [10] ++ [0])
  have nul := holds.append_right 0 (by simp)
  rw [record, written_formatWrites stampFits short fits,
    Memory.cstring_of_holds holds.append_left (by simpa using nul)]
  · rw [List.takeWhile_eq_self_iff]
    intro byte member
    rw [decide_eq_true_iff]
    rintro rfl
    simp [stampPlain, messagePlain] at member
  · rw [snprintfResult_of_lt short, snprintfResult_of_lt (show stamp.length < 2 ^ 31 by omega)]
    simp only [List.length_append, List.length_cons, List.length_nil]
    omega

/-- A call stays in its buffer, and leaves a whole record, exactly if the stamp, the message, the
line feed and a NUL fit. -/
theorem formats_iff (now : Clock) (level : Int) (bufSize : Nat) (buf : Memory)
    (message : List UInt8) (large : 48 < bufSize) (isInt : bufSize < 2 ^ 31)
    (text : 0 ∉ message) :
    Formats bufSize buf (stampText now level) message ↔
      (stampText now level).length + message.length + 1 < bufSize := by
  obtain ⟨some, stampFits⟩ := length_stampText now level
  have stampPlain := stampText_ne_zero now level
  generalize stampText now level = stamp at some stampFits stampPlain ⊢
  have n : snprintfResult stamp = stamp.length := snprintfResult_of_lt (by omega)
  constructor
  · intro formats
    by_cases short : message.length < 2 ^ 31
    · -- the NUL behind the line feed is the last byte that is written
      have last := formats.inside ⟨snprintfResult stamp + snprintfResult message + 1, [0]⟩
        (by simp [formatWrites]) (stamp.length + message.length + 1)
      simp only [n, snprintfResult_of_lt short, List.length_cons, List.length_nil] at last
      omega
    · -- `vsnprintf` fills all it is given, which ends behind the buffer
      have last := formats.inside (snprintf (snprintfResult stamp) (bufSize - 1) message)
        (by simp [formatWrites]) (stamp.length + (bufSize - 2))
      simp only [snprintf, n, List.length_append, List.length_take, List.length_cons,
        List.length_nil] at last
      omega
  · intro fits
    have short : message.length < 2 ^ 31 := by omega
    have m := snprintfResult_of_lt short
    constructor
    · intro write member index low high
      simp only [formatWrites, List.mem_cons, List.not_mem_nil, or_false, n, m] at member
      rcases member with rfl | rfl | rfl | rfl <;>
        simp only [snprintf, List.length_append, List.length_take, List.length_cons,
          List.length_nil] at low high <;>
        omega
    · exact ⟨message, List.prefix_refl _,
        record_of_fits stampFits short (by omega) stampPlain text⟩

/-- The clock at the start of an epoch. -/
def epoch : Clock where
  year := 1970
  mon := 1
  mday := 1
  hour := 0
  min := 0
  sec := 0
  usec := 0
  year_lt := by decide
  mon_le := by decide
  mday_le := by decide
  hour_lt := by decide
  min_lt := by decide
  sec_le := by decide
  usec_lt := by decide

theorem formats_hello : Formats 2000 (fun _ => 0) (stampText epoch 1) (ascii "hello") :=
  (formats_iff epoch 1 2000 (fun _ => 0) (ascii "hello") (by decide) (by decide) (by decide)).mpr
    (by decide +kernel)

/-- A body of 2000 bytes, logged with the size that the server sets, is written behind the
buffer. -/
theorem not_formats_body :
    ¬Formats 2000 (fun _ => 0) (stampText epoch 1) (List.replicate 2000 97) := by
  intro formats
  have stamp : snprintfResult (stampText epoch 1) = 35 := by decide +kernel
  have last := formats.inside
    (snprintf (snprintfResult (stampText epoch 1)) (2000 - 1) (List.replicate 2000 97))
    (List.mem_cons_of_mem _ List.mem_cons_self) 2000
  rw [stamp] at last
  exact absurd (last (by decide) (by decide +kernel)) (by decide)

end TimeGANWebServer.Logging
