import TimeGANWebServer.Http.Conn
import TimeGANWebServer.Support.Lines

/-!
# Building a response

`add_response` and the functions on top of it, and `process_write`, in
`http/http_conn.cpp`.  A function of the source that returns `bool` returns its
result together with the slot's members it works on.
-/

namespace TimeGANWebServer.Http

open TimeGANWebServer.Support

/-- The conversion `%d`. -/
def decimal (value : Int) : List UInt8 :=
  ascii (toString value)

/-- The bytes a `%s` conversion takes of a `std::string`'s `c_str()`. -/
def untilNul (text : List UInt8) : List UInt8 :=
  text.takeWhile (· ≠ 0)

theorem untilNul_of_notMem {text : List UInt8} (noNul : (0 : UInt8) ∉ text) :
    untilNul text = text :=
  List.takeWhile_eq_self_iff.mpr fun byte member => by
    simpa using fun zero : byte = 0 => noNul (zero ▸ member)

namespace ResponseState

/-- `http_conn::add_response`, given the formatted text.  A text that does not fit
in front of the buffer's last byte is not appended. -/
def addResponse (response : ResponseState) (text : List UInt8) : Bool × ResponseState :=
  if writeBufferSize ≤ response.writeIdx then
    (false, response)
  else if (writeBufferSize : Int) - 1 - response.writeIdx ≤ text.length then
    (false, response)
  else
    (true, { response with writeBuf := response.writeBuf ++ text })

/-- `http_conn::add_status_line`. -/
def addStatusLine (response : ResponseState) (status : Int) (title : List UInt8) :
    Bool × ResponseState :=
  response.addResponse (ascii "HTTP/1.1 " ++ decimal status ++ ascii " " ++ title ++ ascii "\r\n")

/-- `http_conn::add_content_length`. -/
def addContentLength (response : ResponseState) (contentLen : Int) : Bool × ResponseState :=
  response.addResponse (ascii "Content-Length:" ++ decimal contentLen ++ ascii "\r\n")

/-- `http_conn::add_content_type(const char*)`. -/
def addContentType (response : ResponseState) (contentType : List UInt8) :
    Bool × ResponseState :=
  response.addResponse (ascii "Content-Type: " ++ contentType ++ ascii "\r\n")

/-- `http_conn::add_linger`. -/
def addLinger (response : ResponseState) (linger : Bool) : Bool × ResponseState :=
  response.addResponse
    (ascii "Connection:" ++ (if linger then ascii "keep-alive" else ascii "close") ++ ascii "\r\n")

/-- `http_conn::add_blank_line`. -/
def addBlankLine (response : ResponseState) : Bool × ResponseState :=
  response.addResponse (ascii "\r\n")

/-- `http_conn::add_content`. -/
def addContent (response : ResponseState) (content : List UInt8) : Bool × ResponseState :=
  response.addResponse (untilNul content)

/-- `http_conn::add_headers`: the first part that does not fit ends it. -/
def addHeaders (response : ResponseState) (linger : Bool) (contentLen : Int) :
    Bool × ResponseState :=
  match response.addContentLength contentLen with
  | (false, response) => (false, response)
  | (true, response) =>
      match response.addLinger linger with
      | (false, response) => (false, response)
      | (true, response) => response.addBlankLine

/-- The end of `process_write`: queue the write buffer alone. -/
def queueBuffer (response : ResponseState) : ResponseState :=
  { response with
    iv0 := { base := .writeBuf 0, len := response.writeIdx }
    ivCount := 1
    bytesToSend := response.writeIdx }

/-- Queue the write buffer and a body behind it. -/
def queueBody (response : ResponseState) (base : IovBase) (size : Nat) : ResponseState :=
  { response with
    iv0 := { base := .writeBuf 0, len := response.writeIdx }
    iv1 := { base := base, len := size }
    ivCount := 2
    bytesToSend := toInt32 (response.writeIdx + size) }

/-- Add a short page's content and queue the buffer, unless it does not fit. -/
def finishPage (response : ResponseState) (content : List UInt8) : Bool × ResponseState :=
  match response.addContent content with
  | (false, response) => (false, response)
  | (true, response) => (true, response.queueBuffer)

/-- The page for an empty file. -/
def emptyFilePage : List UInt8 :=
  ascii "<html><body>Empty File</body></html>"

/-- The page for a missing file. -/
def notFoundPage : List UInt8 :=
  ascii "404 Not Found - Please check your root path."

/-- The header of a generated CSV file. -/
def csvHeader (response : ResponseState) (linger : Bool) : ResponseState :=
  let response := (response.addStatusLine 200 (ascii "OK")).2
  let response := (response.addResponse (ascii "Content-Type: text/csv\r\n")).2
  let response := (response.addResponse
    (ascii "Content-Disposition: attachment; filename=\"result.csv\"\r\n")).2
  let response := (response.addContentLength (toInt32 response.responseCsv.length)).2
  let response := (response.addLinger linger).2
  response.addBlankLine.2

/-- `http_conn::process_write`.  What the first parts of a response return is
ignored; a page that does not fit makes it return false. -/
def processWrite (response : ResponseState) (linger : Bool) (ret : HttpCode) :
    Bool × ResponseState :=
  match ret with
  | .noResource =>
      let response := (response.addStatusLine 404 (ascii "Not Found")).2
      let response := (response.addHeaders linger (ascii "404 Not Found").length).2
      response.finishPage notFoundPage
  | .internalError =>
      let response := (response.addStatusLine 500 (ascii "Internal Error")).2
      let response := (response.addHeaders linger (ascii "Internal Error").length).2
      response.finishPage (ascii "Internal Error")
  | .fileRequest =>
      let response := (response.addStatusLine 200 (ascii "OK")).2
      if response.fileStat.size ≠ 0 then
        let response := (response.addHeaders linger (toInt32 response.fileStat.size)).2
        (true, response.queueBody (.file response.fileAddress 0) response.fileStat.size)
      else
        let response := (response.addHeaders linger emptyFilePage.length).2
        response.finishPage emptyFilePage
  | .diagnoseRequest =>
      let response := (response.addStatusLine 200 (ascii "OK")).2
      let response := (response.addContentLength (toInt32 response.responseJson.length)).2
      let response := (response.addContentType (ascii "application/json")).2
      let response := (response.addLinger linger).2
      let response := response.addBlankLine.2
      response.finishPage response.responseJson
  | .diagnoseCsvRequest =>
      let response := response.csvHeader linger
      (true, response.queueBody (.csv 0) response.responseCsv.length)
  -- The other codes have no case of their own.
  | _ =>
      let response := (response.addStatusLine 400 (ascii "Bad Request")).2
      let response := (response.addHeaders linger 0).2
      (true, response.queueBuffer)

/-! ## What the parts do -/

/-- The second state is the first with some bytes appended to the write buffer. -/
def Extends (before after : ResponseState) : Prop :=
  ∃ appended, after = { before with writeBuf := before.writeBuf ++ appended }

theorem Extends.refl (response : ResponseState) : Extends response response :=
  ⟨[], by simp⟩

theorem Extends.trans {first second third : ResponseState} (left : Extends first second)
    (right : Extends second third) : Extends first third := by
  obtain ⟨leftAppended, rfl⟩ := left
  obtain ⟨rightAppended, rfl⟩ := right
  exact ⟨leftAppended ++ rightAppended, by simp⟩

theorem extends_addResponse (response : ResponseState) (text : List UInt8) :
    Extends response (response.addResponse text).2 := by
  simp only [addResponse]
  split
  · exact Extends.refl _
  · split
    · exact Extends.refl _
    · exact ⟨text, rfl⟩

theorem extends_addHeaders (response : ResponseState) (linger : Bool) (contentLen : Int) :
    Extends response (response.addHeaders linger contentLen).2 := by
  have first : Extends response (response.addContentLength contentLen).2 :=
    extends_addResponse _ _
  simp only [addHeaders]
  split
  case h_1 _ next failed => exact failed ▸ first
  case h_2 _ next fitted =>
      have second : Extends next (next.addLinger linger).2 := extends_addResponse _ _
      rw [fitted] at first
      split
      case h_1 _ last failed => exact first.trans (failed ▸ second)
      case h_2 _ last fitted =>
          rw [fitted] at second
          exact (first.trans second).trans (extends_addResponse _ _)

theorem Extends.addResponse {before after : ResponseState} (extends_ : Extends before after)
    (text : List UInt8) : Extends before (after.addResponse text).2 :=
  extends_.trans (extends_addResponse after text)

theorem extends_csvHeader (response : ResponseState) (linger : Bool) :
    Extends response (response.csvHeader linger) := by
  simp only [csvHeader, addStatusLine, addContentLength, addLinger, addBlankLine]
  iterate 6 apply Extends.addResponse
  exact Extends.refl response

/-- Append bytes to the write buffer. -/
def append (response : ResponseState) (text : List UInt8) : ResponseState :=
  { response with writeBuf := response.writeBuf ++ text }

@[simp] theorem writeBuf_append (response : ResponseState) (text : List UInt8) :
    (response.append text).writeBuf = response.writeBuf ++ text := rfl

@[simp] theorem append_append (response : ResponseState) (left right : List UInt8) :
    (response.append left).append right = response.append (left ++ right) := by
  simp [append]

/-- A text that fits is appended. -/
theorem addResponse_of_lt {response : ResponseState} {text : List UInt8}
    (fits : response.writeIdx + text.length < writeBufferSize - 1) :
    response.addResponse text = (true, response.append text) := by
  have room : ¬writeBufferSize ≤ response.writeIdx := by omega
  have space : ¬(writeBufferSize : Int) - 1 - response.writeIdx ≤ text.length := by omega
  simp only [addResponse, if_neg room, if_neg space, append]

/-- A text that does not fit is not. -/
theorem addResponse_of_le {response : ResponseState} {text : List UInt8}
    (long : writeBufferSize - 1 ≤ response.writeIdx + text.length) :
    response.addResponse text = (false, response) := by
  simp only [addResponse]
  split
  · rfl
  · rw [if_pos (by omega)]

/-! ## The lines of a response -/

/-- A status line without its end. -/
def statusText (status : Int) (title : List UInt8) : List UInt8 :=
  ascii "HTTP/1.1 " ++ decimal status ++ ascii " " ++ title

/-- The line `Content-Length` without its end. -/
def contentLengthText (contentLen : Int) : List UInt8 :=
  ascii "Content-Length:" ++ decimal contentLen

/-- The line `Connection` without its end. -/
def lingerText (linger : Bool) : List UInt8 :=
  ascii "Connection:" ++ (if linger then ascii "keep-alive" else ascii "close")

/-- Appending a line. -/
theorem addResponse_line {response : ResponseState} {line : List UInt8}
    (fits : response.writeIdx + line.length + 2 < writeBufferSize - 1) :
    response.addResponse (line ++ ascii "\r\n") = (true, response.append (sendLines [line])) := by
  have ending : line ++ ascii "\r\n" = sendLines [line] := by
    simp only [sendLines_cons, sendLines_nil]
    rfl
  rw [ending]
  apply addResponse_of_lt
  simp only [sendLines_cons, sendLines_nil, List.length_append, List.length_cons, List.length_nil]
  omega

theorem lingerText_length (linger : Bool) : (lingerText linger).length ≤ 21 := by
  cases linger <;> decide

/-- The headers of a page that fit are appended as a whole. -/
theorem addHeaders_of_lt {response : ResponseState} {contentLen : Int} (linger : Bool)
    (fits : response.writeIdx + (decimal contentLen).length + 42 < writeBufferSize - 1) :
    response.addHeaders linger contentLen =
      (true,
        response.append (sendLines [contentLengthText contentLen, lingerText linger] ++ crlf)) := by
  have lingerLength := lingerText_length linger
  have lengthLength : (contentLengthText contentLen).length = 15 + (decimal contentLen).length := by
    simp only [contentLengthText, List.length_append]
    rfl
  have first : response.addContentLength contentLen =
      (true, response.append (sendLines [contentLengthText contentLen])) :=
    @addResponse_line response (contentLengthText contentLen) (by omega)
  have firstLength : (response.append (sendLines [contentLengthText contentLen])).writeIdx =
      response.writeIdx + (17 + (decimal contentLen).length) := by
    simp only [writeIdx, writeBuf_append, List.length_append, sendLines_cons, sendLines_nil,
      List.length_cons, List.length_nil]
    omega
  have second : (response.append (sendLines [contentLengthText contentLen])).addLinger linger =
      (true, (response.append (sendLines [contentLengthText contentLen])).append
        (sendLines [lingerText linger])) :=
    @addResponse_line _ (lingerText linger) (by omega)
  have third : ∀ ready : ResponseState, ready.writeIdx + 2 < writeBufferSize - 1 →
      ready.addBlankLine = (true, ready.append crlf) :=
    fun ready room => addResponse_of_lt room
  simp only [addHeaders, first, second, append_append]
  rw [third, append_append]
  · simp only [sendLines_cons, sendLines_nil, List.append_assoc, List.cons_append, List.nil_append]
  · simp only [writeIdx, writeBuf_append, List.length_append, sendLines_cons, sendLines_nil,
      List.length_cons, List.length_nil]
    simp only [writeIdx] at fits
    omega

end ResponseState

/-- An `int` has at most ten digits and a sign. -/
theorem decimal_length_le {value : Int} (low : -2 ^ 31 ≤ value) (high : value < 2 ^ 31) :
    (decimal value).length ≤ 11 := by
  simp only [decimal, ascii, List.length_map]
  cases value with
  | ofNat digits =>
      have short : (Nat.repr digits).length ≤ 10 :=
        (Nat.length_repr_le_iff (by omega)).mpr (by simp at high; omega)
      have text : toString (Int.ofNat digits) = Nat.repr digits := rfl
      rw [text, String.length_toList]
      omega
  | negSucc digits =>
      have short : (Nat.repr (digits + 1)).length ≤ 10 :=
        (Nat.length_repr_le_iff (by omega)).mpr (by omega)
      have text : toString (Int.negSucc digits) = "-" ++ Nat.repr (digits + 1) := rfl
      rw [text, String.length_toList, String.length_append]
      have sign : "-".length = 1 := rfl
      omega

/-- A number has no line end in it. -/
theorem decimal_plain (value : Int) : ∀ byte ∈ decimal value, byte ≠ 13 ∧ byte ≠ 10 := by
  have digit : ∀ char : Char, char.isDigit = true →
      char.toNat.toUInt8 ≠ 13 ∧ char.toNat.toUInt8 ≠ 10 := by
    intro char isDigit
    have bounds : 48 ≤ char.toNat ∧ char.toNat ≤ 57 := by
      simp only [Char.isDigit, Bool.and_eq_true, decide_eq_true_eq] at isDigit
      exact ⟨UInt32.le_iff_toNat_le.mp isDigit.1, UInt32.le_iff_toNat_le.mp isDigit.2⟩
    obtain ⟨low, high⟩ := bounds
    generalize char.toNat = number at low high
    constructor <;> rw [Ne, ← UInt8.toNat_inj] <;> simp <;> omega
  have digits : ∀ number : Nat, ∀ char ∈ (Nat.repr number).toList, char.isDigit = true := by
    intro number char member
    have text : (Nat.repr number).toList = Nat.toDigits 10 number := by simp [Nat.repr]
    rw [text] at member
    exact Nat.isDigit_of_mem_toDigits (by omega) (by omega) member
  intro byte member
  simp only [decimal, ascii, List.mem_map] at member
  obtain ⟨char, inText, rfl⟩ := member
  cases value with
  | ofNat number => exact digit char (digits number char inText)
  | negSucc number =>
      have text : toString (Int.negSucc number) = "-" ++ Nat.repr (number + 1) := rfl
      rw [text, String.toList_append, List.mem_append] at inText
      rcases inText with sign | inDigits
      · have isSign : char = '-' := by simpa using sign
        subst isSign
        decide
      · exact digit char (digits _ char inDigits)

/-! ## Printed numbers -/

/-- The bytes of a natural number's digits. -/
theorem decimal_natCast (number : Nat) :
    decimal number = (Nat.toDigits 10 number).map fun char => char.toNat.toUInt8 := by
  have text : toString (number : Int) = Nat.repr number := rfl
  rw [decimal, ascii, text, Nat.toList_repr]

theorem digit_bounds {char : Char} (isDigit : char.isDigit = true) :
    48 ≤ char.toNat ∧ char.toNat ≤ 57 := by
  simp only [Char.isDigit, Bool.and_eq_true, decide_eq_true_eq] at isDigit
  exact ⟨UInt32.le_iff_toNat_le.mp isDigit.1, UInt32.le_iff_toNat_le.mp isDigit.2⟩

/-- A digit's byte is a digit with the same value. -/
theorem digit_byte {char : Char} (isDigit : char.isDigit = true) :
    isdigit char.toNat.toUInt8 = true ∧ char.toNat.toUInt8.toNat = char.toNat := by
  obtain ⟨low, high⟩ := digit_bounds isDigit
  have value : char.toNat.toUInt8.toNat = char.toNat := by
    rw [Nat.toUInt8, UInt8.toNat_ofNat']
    omega
  refine ⟨?_, value⟩
  simp only [isdigit, Bool.and_eq_true, decide_eq_true_eq, UInt8.le_iff_toNat_le, value]
  exact ⟨low, high⟩

theorem digitsValue_map {chars : List Char} (digits : ∀ char ∈ chars, char.isDigit = true) :
    digitsValue (chars.map fun char => char.toNat.toUInt8) = Nat.ofDigitChars 10 chars 0 := by
  have from_ : ∀ start, (chars.map fun char => char.toNat.toUInt8).foldl
      (fun value digit => 10 * value + (digit.toNat - 48)) start =
        Nat.ofDigitChars 10 chars start := by
    induction chars with
    | nil => exact fun start => rfl
    | cons char chars ih =>
        intro start
        have value := (digit_byte (digits char List.mem_cons_self)).2
        have later := ih fun other member => digits other (List.mem_cons_of_mem _ member)
        rw [List.map_cons, List.foldl_cons, later, Nat.ofDigitChars_cons, value]
        rfl
  exact from_ 0

theorem digitsValue_decimal (number : Nat) : digitsValue (decimal number) = number := by
  rw [decimal_natCast, digitsValue_map, Nat.ofDigitChars_ten_toDigits]
  exact fun char member => Nat.isDigit_of_mem_toDigits (by omega) (by omega) member

theorem isdigit_decimal (number : Nat) : ∀ byte ∈ decimal number, isdigit byte = true := by
  intro byte member
  rw [decimal_natCast, List.mem_map] at member
  obtain ⟨char, member, rfl⟩ := member
  exact (digit_byte (Nat.isDigit_of_mem_toDigits (by omega) (by omega) member)).1

theorem decimal_ne_nil (number : Nat) : decimal number ≠ [] := by
  rw [decimal_natCast, Ne, List.map_eq_nil_iff]
  exact Nat.toDigits_ne_nil

theorem decimal_negSucc (number : Nat) :
    decimal (Int.negSucc number) = 45 :: decimal (number + 1 : Nat) := by
  have text : toString (Int.negSucc number) = "-" ++ Nat.repr (number + 1) := rfl
  have digits : toString ((number + 1 : Nat) : Int) = Nat.repr (number + 1) := rfl
  rw [decimal, decimal, ascii, ascii, text, digits, String.toList_append, List.map_append]
  rfl

/-- A digit is no blank and no sign. -/
theorem isdigit_bounds {byte : UInt8} (digit : isdigit byte = true) :
    isspace byte = false ∧ byte ≠ 45 ∧ byte ≠ 43 := by
  have bounds : 48 ≤ byte.toNat ∧ byte.toNat ≤ 57 := by
    simpa [isdigit, UInt8.le_iff_toNat_le] using digit
  refine ⟨?_, ?_, ?_⟩
  · have notSpace : byte ≠ 32 := by
      rintro rfl
      simp at bounds
    have above : ¬byte ≤ 13 := by
      rw [UInt8.le_iff_toNat_le]
      simp
      omega
    simp [isspace, notSpace, above]
  · rintro rfl
    simp at bounds
  · rintro rfl
    simp at bounds

/-- `atol` reads what `%d` prints. -/
theorem atol_decimal {value : Int} (low : -2 ^ 63 ≤ value) (high : value < 2 ^ 63) :
    atol (decimal value) = value := by
  have whole : ∀ number : Nat, (decimal number).takeWhile isdigit = decimal number :=
    fun number => List.takeWhile_eq_self_iff.mpr (isdigit_decimal number)
  cases value with
  | ofNat number =>
      obtain ⟨first, rest, text⟩ := List.exists_cons_of_ne_nil (decimal_ne_nil number)
      have digit : isdigit first = true := isdigit_decimal number first (text ▸ List.mem_cons_self)
      obtain ⟨notSpace, notMinus, notPlus⟩ := isdigit_bounds digit
      have kept : (decimal number).dropWhile isspace = first :: rest := by
        rw [text, List.dropWhile_cons_of_neg (by simp [notSpace])]
      have same : decimal (Int.ofNat number) = decimal number := rfl
      rw [atol, same, kept]
      split
      case _ equal => exact absurd (List.cons.inj equal).1 notMinus
      case _ equal => exact absurd (List.cons.inj equal).1 notPlus
      case _ =>
          rw [← text, whole, digitsValue_decimal]
          simp only [Int.ofNat_eq_natCast] at high ⊢
          omega
  | negSucc number =>
      have kept : (decimal (Int.negSucc number)).dropWhile isspace =
          45 :: decimal (number + 1 : Nat) := by
        rw [decimal_negSucc, List.dropWhile_cons_of_neg (by decide)]
      rw [atol, kept]
      simp only [whole, digitsValue_decimal]
      omega

end TimeGANWebServer.Http
