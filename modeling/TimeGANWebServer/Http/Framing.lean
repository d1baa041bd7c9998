import TimeGANWebServer.Http.OneResponse

/-!
# The length of a body

The number in the `Content-Length` header and the body behind the blank line come from
different expressions: a literal and the `strlen` of another one, a `std::string`'s size
and what `%s` prints of it, a file's size and its conversion to `int`.
-/

namespace TimeGANWebServer.Http

open TimeGANWebServer.Support

namespace ResponseState

/-- A line is a `Content-Length` header. -/
def isContentLength (line : List UInt8) : Bool :=
  (ascii "Content-Length:").isPrefixOf line

/-- What is queued is a head with one `Content-Length` header and a body of as many
bytes, and `bytes_to_send` counts both. -/
def Framed (response : ResponseState) : Prop :=
  ∃ status headers contentLen body,
    IsStatusLine status ∧ (∀ line ∈ headers, IsHeaderLine line) ∧
      headers.filter isContentLength = [contentLengthText contentLen] ∧
      response.offered = (sendLines (status :: headers) ++ crlf).map some ++ body ∧
      (body.length : Int) = contentLen ∧
      response.bytesToSend = (sendLines (status :: headers) ++ crlf).length + contentLen

/-- The condition under which a response is framed, by its code: never for a missing
file; for a file or generated CSV, when an `int` counts the whole response; for JSON, when
its size as an `int` is the length of the text in front of the first NUL. -/
def Frames (response : ResponseState) (linger : Bool) : HttpCode → Prop
  | .noResource => False
  | .fileRequest => response.fileStat.size ≠ 0 →
      (fileHead response.fileStat.size linger).length + response.fileStat.size < 2 ^ 31
  | .diagnoseRequest =>
      toInt32 response.responseJson.length = (untilNul response.responseJson).length
  | .diagnoseCsvRequest =>
      (csvHead response.responseCsv.length linger).length + response.responseCsv.length < 2 ^ 31
  | _ => True

/-- A printed length is a length. -/
theorem contentLengthText_inj {left right : Int} (leftLow : -2 ^ 31 ≤ left)
    (leftHigh : left < 2 ^ 31) (rightLow : -2 ^ 31 ≤ right) (rightHigh : right < 2 ^ 31)
    (same : contentLengthText left = contentLengthText right) : left = right := by
  have digits : decimal left = decimal right := List.append_cancel_left same
  rw [← @atol_decimal left (by omega) (by omega), digits, atol_decimal (by omega) (by omega)]

/-- A single `Content-Length` header among the lines of a head. -/
theorem filter_isContentLength {before after : List (List UInt8)} (contentLen : Int)
    (beforeOther : ∀ line ∈ before, isContentLength line = false)
    (afterOther : ∀ line ∈ after, isContentLength line = false) :
    (before ++ contentLengthText contentLen :: after).filter isContentLength =
      [contentLengthText contentLen] := by
  have isLength : isContentLength (contentLengthText contentLen) = true := by
    rw [isContentLength, List.isPrefixOf_iff_prefix]
    exact ⟨decimal contentLen, rfl⟩
  rw [List.filter_append, List.filter_cons_of_pos isLength,
    List.filter_eq_nil_iff.mpr fun line member => by simp [beforeOther line member],
    List.filter_eq_nil_iff.mpr fun line member => by simp [afterOther line member],
    List.nil_append]

theorem lingerText_other (linger : Bool) : isContentLength (lingerText linger) = false := by
  cases linger <;> decide

theorem filter_pageLines (status : Int) (title : List UInt8) (contentLen : Int) (linger : Bool) :
    (pageLines status title contentLen linger).tail.filter isContentLength =
      [contentLengthText contentLen] :=
  @filter_isContentLength [] [lingerText linger] contentLen (fun _ => nofun) fun _ member =>
    List.mem_singleton.mp member ▸ lingerText_other linger

theorem filter_jsonLines (contentLen : Int) (linger : Bool) :
    (jsonLines contentLen linger).tail.filter isContentLength = [contentLengthText contentLen] := by
  refine @filter_isContentLength [] [ascii "Content-Type: application/json", lingerText linger]
    contentLen (fun _ => nofun) fun line member => ?_
  rcases List.mem_pair.mp member with rfl | rfl
  · decide
  · exact lingerText_other linger

theorem filter_csvLines (contentLen : Int) (linger : Bool) :
    (csvLines contentLen linger).tail.filter isContentLength = [contentLengthText contentLen] := by
  refine @filter_isContentLength [ascii "Content-Type: text/csv",
    ascii "Content-Disposition: attachment; filename=\"result.csv\""] [lingerText linger]
    contentLen (fun line member => ?_) fun line member => ?_
  · rcases List.mem_pair.mp member with rfl | rfl <;> decide
  · exact List.mem_singleton.mp member ▸ lingerText_other linger

/-! ## Queues -/

/-- A page in the buffer is framed if the number in its head is its length. -/
theorem framed_queueBuffer_iff {response : ResponseState} {status content : List UInt8}
    {headers : List (List UInt8)} {contentLen : Int} (statusLine : IsStatusLine status)
    (headerLines : ∀ line ∈ headers, IsHeaderLine line)
    (declared : headers.filter isContentLength = [contentLengthText contentLen])
    (low : -2 ^ 31 ≤ contentLen) (high : contentLen < 2 ^ 31)
    (short : response.writeBuf.length < 2 ^ 31)
    (writeBuf : response.writeBuf = sendLines (status :: headers) ++ crlf ++ content) :
    response.queueBuffer.Framed ↔ (content.length : Int) = contentLen := by
  have counts : response.queueBuffer.bytesToSend = response.writeBuf.length := rfl
  constructor
  · rintro ⟨otherStatus, otherHeaders, otherLen, body, otherStatusLine, otherHeaderLines,
      otherDeclared, offers, bodyLength, _⟩
    rw [offered_queueBuffer, List.map_eq_append_iff] at offers
    obtain ⟨head, rest, whole, headBytes, restBytes⟩ := offers
    have sameHead := (List.map_inj_right fun _ _ => Option.some.inj).mp headBytes
    rw [sameHead, writeBuf] at whole
    obtain ⟨sameLines, sameRest⟩ := sendLines_unique (sendLines_ne statusLine headerLines)
      (sendLines_ne otherStatusLine otherHeaderLines) whole
    rw [← (List.cons.inj sameLines).2, declared] at otherDeclared
    have length : body.length = content.length := by
      rw [← restBytes, List.length_map, sameRest]
    have bound : content.length ≤ response.writeBuf.length := by
      rw [writeBuf, List.length_append]
      omega
    have same := contentLengthText_inj low high (by omega) (by omega)
      (List.singleton_inj.mp otherDeclared)
    omega
  · intro length
    refine ⟨status, headers, contentLen, content.map some, statusLine, headerLines, declared, ?_,
      ?_, ?_⟩
    · rw [offered_queueBuffer, writeBuf, List.map_append]
    · rw [List.length_map, length]
    · rw [counts, writeBuf, List.length_append, Int.natCast_add, length]

/-- A body behind its head is framed if an `int` counts both. -/
theorem framed_queueBody_iff {response : ResponseState} {status : List UInt8}
    {headers : List (List UInt8)} {base : IovBase} {size : Nat} (statusLine : IsStatusLine status)
    (headerLines : ∀ line ∈ headers, IsHeaderLine line)
    (declared : headers.filter isContentLength = [contentLengthText (toInt32 size)])
    (writeBuf : response.writeBuf = sendLines (status :: headers) ++ crlf) :
    (response.queueBody base size).Framed ↔ response.writeIdx + size < 2 ^ 31 := by
  have counts : (response.queueBody base size).bytesToSend =
      toInt32 (response.writeIdx + size) := by
    simp only [queueBody]
  have gathered : ((response.queueBody base size).gather ⟨base, size⟩).length = size := by
    simp [gather]
  constructor
  · rintro ⟨_, _, otherLen, body, _, _, _, offers, bodyLength, total⟩
    have lengths := congrArg List.length offers
    rw [offered_queueBody] at lengths
    simp only [List.length_append, List.length_map, gathered] at lengths
    have bound := (toInt32_bounds (response.writeIdx + size)).2
    rw [counts] at total
    simp only [writeIdx] at total bound ⊢
    simp only [List.length_append] at total
    omega
  · intro short
    have whole : toInt32 (response.writeIdx + size) = response.writeIdx + size :=
      toInt32_of_lt (by omega) (by omega)
    have kept : toInt32 size = size := toInt32_of_lt (by omega) (by omega)
    rw [kept] at declared
    refine ⟨status, headers, size, (response.queueBody base size).gather ⟨base, size⟩, statusLine,
      headerLines, declared, ?_, ?_, ?_⟩
    · rw [offered_queueBody, writeBuf]
    · rw [gathered]
    · rw [counts, whole, writeIdx, writeBuf]

/-! ## Codes -/

/-- A page added behind its head in an empty buffer. -/
theorem framed_finishPage_iff {response ready : ResponseState} {status content : List UInt8}
    {headers : List (List UInt8)} {contentLen : Int} (fresh : response.writeBuf = [])
    (statusLine : IsStatusLine status) (headerLines : ∀ line ∈ headers, IsHeaderLine line)
    (declared : headers.filter isContentLength = [contentLengthText contentLen])
    (low : -2 ^ 31 ≤ contentLen) (high : contentLen < 2 ^ 31)
    (finished : (response.append (sendLines (status :: headers) ++ crlf)).finishPage content =
      (true, ready)) :
    ready.Framed ↔ ((untilNul content).length : Int) = contentLen := by
  obtain ⟨rfl, short⟩ := finishPage_cases finished
  have size : writeBufferSize = 65536 := rfl
  refine framed_queueBuffer_iff statusLine headerLines declared low high (by omega) ?_
  rw [writeBuf_append, writeBuf_append_of_empty fresh]

/-- A page with a literal text, under a status and a declared length. -/
theorem framed_page_iff {response ready : ResponseState} {status : Nat} {title content : List UInt8}
    {contentLen : Nat} (linger : Bool) (fresh : response.writeBuf = []) (low : 100 ≤ status)
    (high : status < 1000) (plain : PlainLine title) (short : title.length < 65000)
    (small : contentLen < 65536)
    (finished : ((response.addStatusLine status title).2.addHeaders linger contentLen).2.finishPage
      content = (true, ready)) :
    ready.Framed ↔ (untilNul content).length = contentLen := by
  have index : response.writeIdx = 0 := by rw [writeIdx, fresh, List.length_nil]
  have head := @append_head response status contentLen title linger high (by omega) (by omega)
    (by omega)
  rw [head] at finished
  rw [framed_finishPage_iff fresh (isStatusLine_statusText low high plain)
    (pageLines_isHeaderLine contentLen linger) (filter_pageLines status title contentLen linger)
    (by omega) (by omega) finished, Int.natCast_inj]

/-- The page for a missing file is longer than the text its length is taken from. -/
theorem not_framed_missing {response ready : ResponseState} (linger : Bool)
    (fresh : response.writeBuf = [])
    (written : response.processWrite linger .noResource = (true, ready)) : ¬ready.Framed := by
  simp only [processWrite] at written
  rw [@framed_page_iff response ready 404 (ascii "Not Found") notFoundPage
    (ascii "404 Not Found").length linger fresh (by decide) (by decide) (by decide) (by decide)
    (by decide) written]
  decide

theorem framed_json_iff {response ready : ResponseState} (linger : Bool)
    (fresh : response.writeBuf = [])
    (written : response.processWrite linger .diagnoseRequest = (true, ready)) :
    ready.Framed ↔
      toInt32 response.responseJson.length = (untilNul response.responseJson).length := by
  have index : response.writeIdx = 0 := by rw [writeIdx, fresh, List.length_nil]
  have bounds := toInt32_bounds response.responseJson.length
  rw [processWrite_diagnose_of_lt (by omega) linger] at written
  rw [framed_finishPage_iff fresh isStatusLine_ok (jsonLines_isHeaderLine _ linger)
    (filter_jsonLines _ linger) bounds.1 bounds.2 written, eq_comm]

theorem framed_csv_iff {response ready : ResponseState} (linger : Bool)
    (fresh : response.writeBuf = [])
    (written : response.processWrite linger .diagnoseCsvRequest = (true, ready)) :
    ready.Framed ↔
      (csvHead response.responseCsv.length linger).length + response.responseCsv.length <
        2 ^ 31 := by
  simp only [processWrite, csvHeader_of_empty fresh] at written
  rw [← (Prod.mk.inj written).2]
  have buffer := writeBuf_append_of_empty fresh (csvHead response.responseCsv.length linger)
  have framed := @framed_queueBody_iff
    (response.append (csvHead response.responseCsv.length linger)) _ _ (.csv 0)
    response.responseCsv.length isStatusLine_ok
    (csvLines_isHeaderLine (toInt32 response.responseCsv.length) linger)
    (filter_csvLines _ linger) buffer
  rw [writeIdx, buffer] at framed
  exact framed

theorem framed_file_iff {response ready : ResponseState} (linger : Bool)
    (fresh : response.writeBuf = [])
    (written : response.processWrite linger .fileRequest = (true, ready)) :
    ready.Framed ↔ response.Frames linger .fileRequest := by
  by_cases nonempty : response.fileStat.size ≠ 0
  · rw [processWrite_file linger fresh nonempty written]
    have buffer := writeBuf_append_of_empty fresh (fileHead response.fileStat.size linger)
    have framed := @framed_queueBody_iff
      (response.append (fileHead response.fileStat.size linger)) _ _
      (.file response.fileAddress 0) response.fileStat.size isStatusLine_ok
      (pageLines_isHeaderLine (toInt32 response.fileStat.size) linger)
      (filter_pageLines 200 (ascii "OK") _ linger) buffer
    rw [writeIdx, buffer] at framed
    exact framed.trans ⟨fun short _ => short, fun short => short nonempty⟩
  · have empty : response.fileStat.size = 0 := not_not.mp nonempty
    have stat : (response.addStatusLine 200 (ascii "OK")).2.fileStat = response.fileStat := by
      obtain ⟨appended, same⟩ : Extends response (response.addStatusLine 200 (ascii "OK")).2 :=
        extends_addResponse _ _
      rw [same]
    simp only [processWrite, stat, empty, ne_eq, not_true_eq_false, if_false] at written
    have framed := @framed_page_iff response ready 200 (ascii "OK") emptyFilePage
      emptyFilePage.length linger fresh (by decide) (by decide) (by decide) (by decide) (by decide)
      written
    exact framed.trans ⟨fun _ some_ => absurd empty some_, fun _ => by decide⟩

/-- The codes without a case of their own declare no body and have none. -/
theorem framed_default {response : ResponseState} (linger : Bool) (fresh : response.writeBuf = []) :
    ((response.addStatusLine 400 (ascii "Bad Request")).2.addHeaders linger
      0).2.queueBuffer.Framed := by
  have index : response.writeIdx = 0 := by rw [writeIdx, fresh, List.length_nil]
  have head := @append_head response 400 0 (ascii "Bad Request") linger (by decide) (by decide)
    (by decide) (by rw [index]; decide)
  have buffer := writeBuf_append_of_empty fresh
    (sendLines (pageLines (400 : Nat) (ascii "Bad Request") 0 linger) ++ crlf)
  have lingerLength := lingerText_length linger
  have same : ((response.addStatusLine 400 (ascii "Bad Request")).2.addHeaders linger 0).2 =
      response.append (sendLines (pageLines (400 : Nat) (ascii "Bad Request") 0 linger) ++ crlf) :=
    congrArg Prod.snd head
  rw [same]
  refine (@framed_queueBuffer_iff _ (statusText (400 : Nat) (ascii "Bad Request")) [] _ 0
    (isStatusLine_statusText (by decide) (by decide) (by decide))
    (pageLines_isHeaderLine 0 linger) (filter_pageLines 400 (ascii "Bad Request") 0 linger)
    (by decide) (by decide) ?_ ?_).mpr rfl
  · have status : (statusText ((400 : Nat) : Int) (ascii "Bad Request")).length = 24 := by decide
    have zero : (contentLengthText 0).length = 16 := by decide
    rw [buffer]
    simp only [pageLines, sendLines_cons, sendLines_nil, List.length_append, List.length_cons,
      List.length_nil, status, zero, crlf]
    omega
  · rw [buffer, List.append_nil]
    rfl

end ResponseState

/-- **A response is framed** exactly under the condition for its code.  The buffer is empty
in front of `process_write`, unless `do_request` has put a redirect into it. -/
theorem framed_iff_frames {response ready : ResponseState} {linger : Bool} {code : HttpCode}
    (fresh : response.writeBuf = [])
    (written : response.processWrite linger code = (true, ready)) :
    ready.Framed ↔ response.Frames linger code := by
  have always : ready = ((response.addStatusLine 400 (ascii "Bad Request")).2.addHeaders
      linger 0).2.queueBuffer → (ready.Framed ↔ True) := by
    rintro rfl
    exact iff_true_intro (ResponseState.framed_default linger fresh)
  cases code with
  | noResource =>
      exact iff_of_false (ResponseState.not_framed_missing linger fresh written) id
  | internalError =>
      simp only [ResponseState.processWrite] at written
      have framed := @ResponseState.framed_page_iff response ready 500 (ascii "Internal Error")
        (ascii "Internal Error") (ascii "Internal Error").length linger fresh (by decide)
        (by decide) (by decide) (by decide) (by decide) written
      exact framed.trans ⟨fun _ => trivial, fun _ => by decide⟩
  | fileRequest => exact ResponseState.framed_file_iff linger fresh written
  | diagnoseRequest => exact ResponseState.framed_json_iff linger fresh written
  | diagnoseCsvRequest => exact ResponseState.framed_csv_iff linger fresh written
  | noRequest => exact always (Prod.mk.inj written).2.symm
  | getRequest => exact always (Prod.mk.inj written).2.symm
  | badRequest => exact always (Prod.mk.inj written).2.symm
  | forbiddenRequest => exact always (Prod.mk.inj written).2.symm
  | closedConnection => exact always (Prod.mk.inj written).2.symm
  | redirectRequest => exact always (Prod.mk.inj written).2.symm

/-- The page for an internal error is framed. -/
theorem framed_iff_frames_internalError :
    ((HttpConn.blank.toResponseState.processWrite false .internalError).2.Framed ↔
      HttpConn.blank.toResponseState.Frames false .internalError) :=
  framed_iff_frames rfl (Prod.ext (by decide +kernel) rfl)

/-- The page for a missing file is longer than its head says. -/
theorem not_framed_noResource :
    ¬∀ (response ready : ResponseState) (linger : Bool) (code : HttpCode),
      response.writeBuf = [] → code ≠ .redirectRequest →
      response.processWrite linger code = (true, ready) → ready.Framed := by
  intro claim
  have written : HttpConn.blank.toResponseState.processWrite false .noResource =
      (true, (HttpConn.blank.toResponseState.processWrite false .noResource).2) :=
    Prod.ext (by decide +kernel) rfl
  exact ResponseState.not_framed_missing false rfl written
    (claim _ _ false .noResource rfl nofun written)

end TimeGANWebServer.Http
