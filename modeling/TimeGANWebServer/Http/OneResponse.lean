import TimeGANWebServer.Http.PartialWrites
import TimeGANWebServer.Http.Process

/-!
# One response for each request

A response is a status line, header lines, a blank line and a body.  What
`process_write` queues is exactly one response with the body that belongs to the
code, unless `do_request` has already put a redirect into the write buffer: then the
default case appends a second response to it.
-/

namespace TimeGANWebServer.Http

open TimeGANWebServer.Support

/-- A line has no line end in it. -/
def PlainLine (line : List UInt8) : Prop :=
  ∀ byte ∈ line, byte ≠ 13 ∧ byte ≠ 10

instance (line : List UInt8) : Decidable (PlainLine line) :=
  inferInstanceAs (Decidable (∀ byte ∈ line, byte ≠ 13 ∧ byte ≠ 10))

/-- A status line: the version, a status of three digits, and a reason. -/
def IsStatusLine (line : List UInt8) : Prop :=
  PlainLine line ∧ ∃ status : Nat, ∃ reason,
    100 ≤ status ∧ status < 1000 ∧ line = ResponseState.statusText status reason

/-- A header line: a name, a colon, and a value. -/
def IsHeaderLine (line : List UInt8) : Prop :=
  PlainLine line ∧ ∃ name value, name ≠ [] ∧ 58 ∉ name ∧ line = name ++ 58 :: value

/-- The bytes are one response with this body. -/
def IsResponse (bytes body : List UInt8) : Prop :=
  ∃ status headers, IsStatusLine status ∧ (∀ line ∈ headers, IsHeaderLine line) ∧
    bytes = sendLines (status :: headers) ++ crlf ++ body

/-- The bytes queued are one response with this body, and `bytes_to_send` counts them. -/
def ResponseState.QueuesOne (response : ResponseState) (body : List UInt8) : Prop :=
  ∃ bytes, IsResponse bytes body ∧ response.offered = bytes.map some ∧
    response.bytesToSend = bytes.length

/-- The body that belongs to a code: the page of an error, the file or the page for
an empty one, the printed JSON, or the generated CSV. -/
def ResponseState.bodyFor (response : ResponseState) : HttpCode → List UInt8
  | .noResource => notFoundPage
  | .internalError => ascii "Internal Error"
  | .fileRequest =>
      if response.fileStat.size = 0 then
        emptyFilePage
      else
        match response.fileAddress with
        | .mapped _ bytes => bytes
        | _ => []
  | .diagnoseRequest => response.responseJson
  | .diagnoseCsvRequest => response.responseCsv
  | _ => []

/-! ## Lines -/

theorem PlainLine.append {left right : List UInt8} (leftPlain : PlainLine left)
    (rightPlain : PlainLine right) : PlainLine (left ++ right) := by
  intro byte member
  exact (List.mem_append.mp member).elim (leftPlain byte) (rightPlain byte)

theorem PlainLine.no_carriage {line : List UInt8} (plain : PlainLine line) : 13 ∉ line :=
  fun member => (plain 13 member).1 rfl

theorem isHeaderLine_of_name {line name value : List UInt8} (text : line = name ++ 58 :: value)
    (nonempty : name ≠ []) (noColon : 58 ∉ name) (plain : PlainLine line) : IsHeaderLine line :=
  ⟨plain, name, value, nonempty, noColon, text⟩

/-- The lines in front of a body can be told from what follows. -/
theorem sendLines_ne {status : List UInt8} {headers : List (List UInt8)}
    (statusLine : IsStatusLine status) (headerLines : ∀ line ∈ headers, IsHeaderLine line) :
    ∀ line ∈ status :: headers, line ≠ [] ∧ 13 ∉ line := by
  intro line member
  rcases List.mem_cons.mp member with rfl | member
  · obtain ⟨plain, number, reason, _, _, text⟩ := statusLine
    refine ⟨?_, plain.no_carriage⟩
    rw [text]
    simp [ResponseState.statusText, ascii]
  · obtain ⟨plain, name, value, nonempty, _, text⟩ := headerLines line member
    refine ⟨?_, plain.no_carriage⟩
    rw [text]
    simp

/-- What begins with one response and goes on is not one response without a body. -/
theorem not_isResponse_of_more {status rest : List UInt8} {headers : List (List UInt8)}
    (statusLine : IsStatusLine status) (headerLines : ∀ line ∈ headers, IsHeaderLine line)
    (more : rest ≠ []) : ¬IsResponse (sendLines (status :: headers) ++ crlf ++ rest) [] := by
  rintro ⟨otherStatus, otherHeaders, otherStatusLine, otherHeaderLines, text⟩
  exact more (sendLines_unique (sendLines_ne statusLine headerLines)
    (sendLines_ne otherStatusLine otherHeaderLines) text).2

namespace ResponseState

theorem isStatusLine_statusText {status : Nat} {title : List UInt8} (low : 100 ≤ status)
    (high : status < 1000) (plain : PlainLine title) : IsStatusLine (statusText status title) :=
  ⟨((PlainLine.append (by decide) (decimal_plain status)).append (by decide)).append plain,
    status, title, low, high, rfl⟩

theorem isHeaderLine_contentLengthText (contentLen : Int) :
    IsHeaderLine (contentLengthText contentLen) := by
  have plain : PlainLine (contentLengthText contentLen) :=
    PlainLine.append (by decide) (decimal_plain contentLen)
  have text : contentLengthText contentLen = ascii "Content-Length" ++ 58 ::
      decimal contentLen := rfl
  exact isHeaderLine_of_name text (by decide) (by decide) plain

theorem isHeaderLine_lingerText (linger : Bool) : IsHeaderLine (lingerText linger) := by
  have plain : PlainLine (lingerText linger) := by
    cases linger <;> decide
  have text : lingerText linger =
      ascii "Connection" ++ 58 :: (if linger then ascii "keep-alive" else ascii "close") := rfl
  exact isHeaderLine_of_name text (by decide) (by decide) plain

/-! ## The heads `process_write` builds -/

/-- The status line and the headers of a page. -/
def pageLines (status : Int) (title : List UInt8) (contentLen : Int) (linger : Bool) :
    List (List UInt8) :=
  [statusText status title, contentLengthText contentLen, lingerText linger]

/-- The lines of a JSON response. -/
def jsonLines (contentLen : Int) (linger : Bool) : List (List UInt8) :=
  [statusText 200 (ascii "OK"), contentLengthText contentLen,
    ascii "Content-Type: application/json", lingerText linger]

/-- The lines of a CSV response. -/
def csvLines (contentLen : Int) (linger : Bool) : List (List UInt8) :=
  [statusText 200 (ascii "OK"), ascii "Content-Type: text/csv",
    ascii "Content-Disposition: attachment; filename=\"result.csv\"",
    contentLengthText contentLen, lingerText linger]

/-- Appending lines one by one. -/
def addLines (response : ResponseState) (lines : List (List UInt8)) : ResponseState :=
  lines.foldl (fun response line => (response.addResponse (line ++ ascii "\r\n")).2) response

/-- Lines that fit are appended. -/
theorem addLines_of_lt {response : ResponseState} {lines : List (List UInt8)}
    (fits : response.writeIdx + (sendLines lines).length < writeBufferSize - 1) :
    response.addLines lines = response.append (sendLines lines) := by
  induction lines generalizing response with
  | nil => simp [addLines, append]
  | cons line lines ih =>
      simp only [sendLines_cons, List.length_append, List.length_cons] at fits
      have first : response.addResponse (line ++ ascii "\r\n") =
          (true, response.append (sendLines [line])) :=
        @addResponse_line response line (by omega)
      have rest : (response.append (sendLines [line])).writeIdx + (sendLines lines).length <
          writeBufferSize - 1 := by
        simp only [writeIdx, writeBuf_append, sendLines_cons, sendLines_nil, List.length_append,
          List.length_cons, List.length_nil]
        simp only [writeIdx] at fits
        omega
      have following := ih rest
      simp only [addLines, List.foldl_cons, first] at following ⊢
      rw [following, append_append]
      simp

/-- A line of a head is at most this long. -/
theorem lengths_le {contentLen : Int} (low : -2 ^ 31 ≤ contentLen) (high : contentLen < 2 ^ 31)
    (linger : Bool) :
    (contentLengthText contentLen).length ≤ 26 ∧ (lingerText linger).length ≤ 21 := by
  have digits := decimal_length_le low high
  refine ⟨?_, lingerText_length linger⟩
  simp only [contentLengthText, List.length_append]
  have name : (ascii "Content-Length:").length = 15 := rfl
  omega

/-- The head of a page is appended as a whole. -/
theorem append_head {response : ResponseState} {status : Nat} {contentLen : Int}
    {title : List UInt8} (linger : Bool) (high : status < 1000) (lowLength : -2 ^ 31 ≤ contentLen)
    (highLength : contentLen < 2 ^ 31) (room : response.writeIdx + title.length < 65000) :
    (response.addStatusLine status title).2.addHeaders linger contentLen =
      (true, response.append (sendLines (pageLines status title contentLen linger) ++ crlf)) := by
  have size : writeBufferSize = 65536 := rfl
  have statusLength := @decimal_length_le status (by omega) (by omega)
  have lengthLength := decimal_length_le lowLength highLength
  have lineLength : (statusText status title).length =
      9 + (decimal status).length + 1 + title.length := by
    simp only [statusText, List.length_append]
    rfl
  have first : response.addStatusLine status title =
      (true, response.append (sendLines [statusText status title])) :=
    @addResponse_line response (statusText status title) (by omega)
  have index : (response.append (sendLines [statusText status title])).writeIdx =
      response.writeIdx + (statusText status title).length + 2 := by
    simp only [writeIdx, writeBuf_append, List.length_append, sendLines_cons, sendLines_nil,
      List.length_cons, List.length_nil]
    omega
  have second := @addHeaders_of_lt (response.append (sendLines [statusText status title]))
    contentLen linger (by omega)
  rw [first, second, append_append]
  simp [pageLines]

theorem pageLines_isHeaderLine (contentLen : Int) (linger : Bool) :
    ∀ line ∈ [contentLengthText contentLen, lingerText linger], IsHeaderLine line := by
  intro line member
  rcases List.mem_pair.mp member with rfl | rfl
  · exact isHeaderLine_contentLengthText contentLen
  · exact isHeaderLine_lingerText linger

theorem isStatusLine_ok : IsStatusLine (statusText 200 (ascii "OK")) :=
  @isStatusLine_statusText 200 (ascii "OK") (by decide) (by decide) (by decide)

theorem jsonLines_isHeaderLine (contentLen : Int) (linger : Bool) :
    ∀ line ∈ (jsonLines contentLen linger).tail, IsHeaderLine line := by
  have typeText : ascii "Content-Type: application/json" =
      ascii "Content-Type" ++ 58 :: ascii " application/json" := by decide
  intro line member
  simp only [jsonLines, List.tail_cons, List.mem_cons, List.not_mem_nil, or_false] at member
  rcases member with rfl | rfl | rfl
  · exact isHeaderLine_contentLengthText contentLen
  · exact isHeaderLine_of_name typeText (by decide) (by decide) (by decide)
  · exact isHeaderLine_lingerText linger

theorem csvLines_isHeaderLine (contentLen : Int) (linger : Bool) :
    ∀ line ∈ (csvLines contentLen linger).tail, IsHeaderLine line := by
  have typeText : ascii "Content-Type: text/csv" =
      ascii "Content-Type" ++ 58 :: ascii " text/csv" := by decide
  have nameText : ascii "Content-Disposition: attachment; filename=\"result.csv\"" =
      ascii "Content-Disposition" ++ 58 :: ascii " attachment; filename=\"result.csv\"" := by
    decide
  intro line member
  simp only [csvLines, List.tail_cons, List.mem_cons, List.not_mem_nil, or_false] at member
  rcases member with rfl | rfl | rfl | rfl
  · exact isHeaderLine_of_name typeText (by decide) (by decide) (by decide)
  · exact isHeaderLine_of_name nameText (by decide) (by decide) (by decide)
  · exact isHeaderLine_contentLengthText contentLen
  · exact isHeaderLine_lingerText linger

/-! ## Queues -/

/-- The buffer alone, queued, offers the buffer. -/
theorem offered_queueBuffer (response : ResponseState) :
    response.queueBuffer.offered = response.writeBuf.map some := by
  have first := response.queueBuffer.gather_writeBuf 0 response.writeIdx (by simp [queueBuffer])
  simp only [Int.natCast_zero, List.drop_zero] at first
  have vectors : response.queueBuffer.offered =
      response.queueBuffer.gather ⟨.writeBuf 0, response.writeIdx⟩ := by
    simp [offered, queueBuffer]
  rw [vectors, first]
  simp [queueBuffer]

/-- A queued buffer is one response if its bytes are. -/
theorem queuesOne_queueBuffer_iff (response : ResponseState) (body : List UInt8) :
    response.queueBuffer.QueuesOne body ↔ IsResponse response.writeBuf body := by
  constructor
  · rintro ⟨bytes, isResponse, queued, _⟩
    rw [offered_queueBuffer] at queued
    have same : response.writeBuf = bytes :=
      (List.map_inj_right fun _ _ => Option.some.inj).mp queued
    exact same ▸ isResponse
  · exact fun isResponse => ⟨response.writeBuf, isResponse, offered_queueBuffer response, rfl⟩

/-- A page that was added. -/
theorem finishPage_cases {response ready : ResponseState} {content : List UInt8}
    (finished : response.finishPage content = (true, ready)) :
    ready = (response.append (untilNul content)).queueBuffer ∧
      (response.append (untilNul content)).writeBuf.length < writeBufferSize := by
  simp only [finishPage, addContent] at finished
  split at finished
  · simp at finished
  case _ _ next added =>
      cases finished
      simp only [addResponse] at added
      split at added
      · simp at added
      · split at added
        · simp at added
        case isFalse fits =>
            cases added
            refine ⟨rfl, ?_⟩
            simp only [writeBuf_append, List.length_append]
            simp only [writeIdx] at fits
            omega

/-- A page that fits is queued with its head. -/
theorem queuesOne_finishPage {response ready : ResponseState} {status content : List UInt8}
    {headers : List (List UInt8)} (statusLine : IsStatusLine status)
    (headerLines : ∀ line ∈ headers, IsHeaderLine line)
    (writeBuf : response.writeBuf = sendLines (status :: headers) ++ crlf)
    (noNul : (0 : UInt8) ∉ content) (finished : response.finishPage content = (true, ready)) :
    ready.QueuesOne content := by
  obtain ⟨rfl, _⟩ := finishPage_cases finished
  rw [queuesOne_queueBuffer_iff, untilNul_of_notMem noNul]
  exact ⟨status, headers, statusLine, headerLines, by rw [writeBuf_append, writeBuf]⟩

/-- The vectors of a buffer with a body behind it. -/
theorem offered_queueBody (response : ResponseState) (base : IovBase) (size : Nat) :
    (response.queueBody base size).offered =
      response.writeBuf.map some ++ (response.queueBody base size).gather ⟨base, size⟩ := by
  have first := (response.queueBody base size).gather_writeBuf 0 response.writeIdx
    (by simp [queueBody])
  simp only [Int.natCast_zero, List.drop_zero] at first
  have vectors : (response.queueBody base size).offered =
      (response.queueBody base size).gather ⟨.writeBuf 0, response.writeIdx⟩ ++
        (response.queueBody base size).gather ⟨base, size⟩ := by
    simp [offered, queueBody]
  rw [vectors, first]
  simp [queueBody]

/-- A body is queued behind its head if its bytes can be read and an `int` counts the
whole response. -/
theorem queuesOne_queueBody_iff {response : ResponseState} {status body : List UInt8}
    {headers : List (List UInt8)} {base : IovBase} {size : Nat} (statusLine : IsStatusLine status)
    (headerLines : ∀ line ∈ headers, IsHeaderLine line)
    (writeBuf : response.writeBuf = sendLines (status :: headers) ++ crlf)
    (readable : (response.queueBody base size).gather ⟨base, size⟩ = body.map some) :
    (response.queueBody base size).QueuesOne body ↔ response.writeIdx + size < 2 ^ 31 := by
  have bodyLength : body.length = size := by
    have lengths := congrArg List.length readable
    simpa [gather] using lengths.symm
  have offers : (response.queueBody base size).offered = (response.writeBuf ++ body).map some := by
    rw [offered_queueBody, readable, List.map_append]
  have counts : (response.queueBody base size).bytesToSend =
      toInt32 (response.writeIdx + size) := by
    simp only [queueBody]
  constructor
  · rintro ⟨bytes, _, queued, counted⟩
    have length := congrArg List.length (offers.symm.trans queued)
    simp only [List.length_map, List.length_append] at length
    have bound := (toInt32_bounds (response.writeIdx + size)).2
    rw [counts] at counted
    simp only [writeIdx] at counted bound ⊢
    omega
  · intro short
    refine ⟨response.writeBuf ++ body, ⟨status, headers, statusLine, headerLines, ?_⟩, offers, ?_⟩
    · rw [writeBuf]
    · have kept : toInt32 (response.writeIdx + size) = response.writeIdx + size :=
        toInt32_of_lt (by omega) (by omega)
      rw [counts, kept, List.length_append, bodyLength, Int.natCast_add]

/-- A body that cannot be read is not queued. -/
theorem not_queuesOne_queueBody {response : ResponseState} {base : IovBase} {size : Nat}
    (body : List UInt8) (unreadable : none ∈ (response.queueBody base size).gather ⟨base, size⟩) :
    ¬(response.queueBody base size).QueuesOne body := by
  rintro ⟨bytes, _, queued, _⟩
  rw [offered_queueBody] at queued
  have member : none ∈ bytes.map some := queued ▸ List.mem_append_right _ unreadable
  simp at member

/-! ## What `process_write` queues -/

theorem addResponse_responseJson (response : ResponseState) (text : List UInt8) :
    (response.addResponse text).2.responseJson = response.responseJson := by
  obtain ⟨appended, same⟩ := extends_addResponse response text
  rw [same]

theorem addResponse_responseCsv (response : ResponseState) (text : List UInt8) :
    (response.addResponse text).2.responseCsv = response.responseCsv := by
  obtain ⟨appended, same⟩ := extends_addResponse response text
  rw [same]

theorem addBlankLine_of_lt {response : ResponseState}
    (fits : response.writeIdx + 2 < writeBufferSize - 1) :
    response.addBlankLine = (true, response.append crlf) :=
  addResponse_of_lt fits

/-- Lines and a blank line that fit. -/
theorem addLines_addBlankLine {response : ResponseState} {lines : List (List UInt8)}
    (fits : response.writeIdx + (sendLines lines).length + 2 < writeBufferSize - 1) :
    (response.addLines lines).addBlankLine.2 = response.append (sendLines lines ++ crlf) := by
  have size : writeBufferSize = 65536 := rfl
  have index : (response.append (sendLines lines)).writeIdx =
      response.writeIdx + (sendLines lines).length := by
    simp only [writeIdx, writeBuf_append, List.length_append]
  rw [addLines_of_lt (by omega), addBlankLine_of_lt (by omega), append_append]

theorem jsonLines_length (contentLen : Int) (linger : Bool) :
    (sendLines (jsonLines (toInt32 contentLen) linger)).length ≤ 200 := by
  have bounds := toInt32_bounds contentLen
  have lengths := lengths_le bounds.1 bounds.2 linger
  have status : (statusText 200 (ascii "OK")).length = 15 := by decide
  have type : (ascii "Content-Type: application/json").length = 30 := by decide
  simp only [jsonLines, sendLines_cons, sendLines_nil, List.length_append, List.length_cons,
    List.length_nil, status, type]
  omega

theorem csvLines_length (contentLen : Int) (linger : Bool) :
    (sendLines (csvLines (toInt32 contentLen) linger)).length ≤ 200 := by
  have bounds := toInt32_bounds contentLen
  have lengths := lengths_le bounds.1 bounds.2 linger
  have status : (statusText 200 (ascii "OK")).length = 15 := by decide
  have type : (ascii "Content-Type: text/csv").length = 22 := by decide
  have name : (ascii "Content-Disposition: attachment; filename=\"result.csv\"").length = 54 := by
    decide
  simp only [csvLines, sendLines_cons, sendLines_nil, List.length_append, List.length_cons,
    List.length_nil, status, type, name]
  omega

/-- The head of a CSV response that fits. -/
theorem csvHeader_of_lt {response : ResponseState} (room : response.writeIdx < 60000)
    (linger : Bool) : response.csvHeader linger =
      response.append
        (sendLines (csvLines (toInt32 response.responseCsv.length) linger) ++ crlf) := by
  have size : writeBufferSize = 65536 := rfl
  have lengths := csvLines_length response.responseCsv.length linger
  rw [← addLines_addBlankLine (by omega)]
  simp only [csvHeader, addStatusLine, addResponse_responseCsv]
  rfl

/-- The head of a CSV response in an empty buffer. -/
theorem csvHeader_of_empty {response : ResponseState} (fresh : response.writeBuf = [])
    (linger : Bool) : response.csvHeader linger =
      response.append
        (sendLines (csvLines (toInt32 response.responseCsv.length) linger) ++ crlf) := by
  have index : response.writeIdx = 0 := by rw [writeIdx, fresh, List.length_nil]
  exact csvHeader_of_lt (by omega) linger

/-- The head of a JSON response that fits, with the page behind it. -/
theorem processWrite_diagnose_of_lt {response : ResponseState} (room : response.writeIdx < 60000)
    (linger : Bool) : response.processWrite linger .diagnoseRequest =
      (response.append (sendLines (jsonLines (toInt32 response.responseJson.length) linger) ++
        crlf)).finishPage response.responseJson := by
  have size : writeBufferSize = 65536 := rfl
  have lengths := jsonLines_length response.responseJson.length linger
  have head := @addLines_addBlankLine response
    (jsonLines (toInt32 response.responseJson.length) linger) (by omega)
  simp only [processWrite, addStatusLine, addContentLength, addContentType, addLinger,
    addBlankLine, addResponse_responseJson]
  rw [← head]
  rfl

theorem writeBuf_append_of_empty {response : ResponseState} (fresh : response.writeBuf = [])
    (text : List UInt8) : (response.append text).writeBuf = text := by
  rw [writeBuf_append, fresh, List.nil_append]

/-- The codes without a case of their own, except for a redirect. -/
theorem queuesOne_default {response ready : ResponseState} {code : HttpCode} (linger : Bool)
    (fresh : response.writeBuf = []) (plain : code = .forbiddenRequest ∨ code = .badRequest)
    (written : response.processWrite linger code = (true, ready)) : ready.QueuesOne [] := by
  have index : response.writeIdx = 0 := by rw [writeIdx, fresh, List.length_nil]
  have head := @append_head response 400 0 (ascii "Bad Request") linger (by decide) (by decide)
    (by decide) (by rw [index]; decide)
  have queued :
      ready = (response.append (sendLines (pageLines (400 : Nat) (ascii "Bad Request") 0 linger)
      ++ crlf)).queueBuffer := by
    rcases plain with rfl | rfl
    all_goals
      simp only [processWrite] at written
      rw [← (Prod.mk.inj written).2]
      exact congrArg (fun next => next.2.queueBuffer) head
  rw [queued, queuesOne_queueBuffer_iff]
  refine ⟨_, _, @isStatusLine_statusText 400 (ascii "Bad Request") (by decide) (by decide)
    (by decide), pageLines_isHeaderLine 0 linger, ?_⟩
  rw [writeBuf_append_of_empty fresh, List.append_nil]
  rfl

/-- The page for a missing file. -/
theorem queuesOne_noResource {response ready : ResponseState} (linger : Bool)
    (fresh : response.writeBuf = [])
    (written : response.processWrite linger .noResource = (true, ready)) :
    ready.QueuesOne notFoundPage := by
  have index : response.writeIdx = 0 := by rw [writeIdx, fresh, List.length_nil]
  have head := @append_head response 404 (ascii "404 Not Found").length (ascii "Not Found") linger
    (by decide) (by decide) (by decide) (by rw [index]; decide)
  simp only [processWrite] at written
  have finished : (response.append (sendLines (pageLines (404 : Nat) (ascii "Not Found")
      (ascii "404 Not Found").length linger) ++ crlf)).finishPage notFoundPage = (true, ready) := by
    rw [← written]
    exact (congrArg (fun next => next.2.finishPage notFoundPage) head).symm
  exact queuesOne_finishPage (@isStatusLine_statusText 404 (ascii "Not Found") (by decide)
    (by decide) (by decide)) (pageLines_isHeaderLine _ linger)
    (writeBuf_append_of_empty fresh _) (by decide) finished

/-- The printed JSON. -/
theorem queuesOne_diagnose {response ready : ResponseState} (linger : Bool)
    (fresh : response.writeBuf = []) (noNul : (0 : UInt8) ∉ response.responseJson)
    (written : response.processWrite linger .diagnoseRequest = (true, ready)) :
    ready.QueuesOne response.responseJson := by
  have index : response.writeIdx = 0 := by rw [writeIdx, fresh, List.length_nil]
  rw [processWrite_diagnose_of_lt (by omega) linger] at written
  exact queuesOne_finishPage isStatusLine_ok (jsonLines_isHeaderLine _ linger)
    (writeBuf_append_of_empty fresh _) noNul written

/-- The head in front of a file of some size. -/
def fileHead (size : Nat) (linger : Bool) : List UInt8 :=
  sendLines (pageLines 200 (ascii "OK") (toInt32 size) linger) ++ crlf

/-- The head in front of a CSV file of some size. -/
def csvHead (size : Nat) (linger : Bool) : List UInt8 :=
  sendLines (csvLines (toInt32 size) linger) ++ crlf

/-- The generated CSV, if an `int` counts the response. -/
theorem queuesOne_csv_iff {response ready : ResponseState} (linger : Bool)
    (fresh : response.writeBuf = [])
    (written : response.processWrite linger .diagnoseCsvRequest = (true, ready)) :
    ready.QueuesOne response.responseCsv ↔
      (csvHead response.responseCsv.length linger).length + response.responseCsv.length <
        2 ^ 31 := by
  simp only [processWrite, csvHeader_of_empty fresh] at written
  rw [← (Prod.mk.inj written).2]
  have buffer := writeBuf_append_of_empty fresh (csvHead response.responseCsv.length linger)
  have readable := ((response.append (csvHead response.responseCsv.length linger)).queueBody
    (.csv 0) response.responseCsv.length).gather_csv 0 response.responseCsv.length
    (by simp [queueBody, append])
  have bytes : (response.responseCsv.drop 0).take response.responseCsv.length =
      response.responseCsv := by simp
  have queued := queuesOne_queueBody_iff isStatusLine_ok
    (csvLines_isHeaderLine (toInt32 response.responseCsv.length) linger) buffer
    (readable.trans (congrArg (List.map some) bytes))
  rw [writeIdx, buffer] at queued
  exact queued

/-- The page for an empty file. -/
theorem queuesOne_emptyFile {response ready : ResponseState} (linger : Bool)
    (fresh : response.writeBuf = []) (empty : response.fileStat.size = 0)
    (written : response.processWrite linger .fileRequest = (true, ready)) :
    ready.QueuesOne emptyFilePage := by
  have index : response.writeIdx = 0 := by rw [writeIdx, fresh, List.length_nil]
  have head := @append_head response 200 emptyFilePage.length (ascii "OK") linger
    (by decide) (by decide) (by decide) (by rw [index]; decide)
  have stat : (response.addStatusLine 200 (ascii "OK")).2.fileStat = response.fileStat := by
    obtain ⟨appended, same⟩ : Extends response (response.addStatusLine 200 (ascii "OK")).2 :=
      extends_addResponse _ _
    rw [same]
  simp only [processWrite, stat, empty, ne_eq, not_true_eq_false, if_false] at written
  have finished : (response.append (sendLines (pageLines (200 : Nat) (ascii "OK")
      emptyFilePage.length linger) ++ crlf)).finishPage emptyFilePage = (true, ready) := by
    rw [← written]
    exact (congrArg (fun next => next.2.finishPage emptyFilePage) head).symm
  exact queuesOne_finishPage isStatusLine_ok (pageLines_isHeaderLine _ linger)
    (writeBuf_append_of_empty fresh _) (by decide) finished

/-- The vectors for a file that is not empty. -/
theorem processWrite_file {response ready : ResponseState} (linger : Bool)
    (fresh : response.writeBuf = []) (nonempty : response.fileStat.size ≠ 0)
    (written : response.processWrite linger .fileRequest = (true, ready)) :
    ready = (response.append (fileHead response.fileStat.size linger)).queueBody
      (.file response.fileAddress 0) response.fileStat.size := by
  have index : response.writeIdx = 0 := by rw [writeIdx, fresh, List.length_nil]
  have bounds := toInt32_bounds response.fileStat.size
  have head := @append_head response 200 (toInt32 response.fileStat.size) (ascii "OK") linger
    (by decide) bounds.1 bounds.2 (by rw [index]; decide)
  have stat : (response.addStatusLine 200 (ascii "OK")).2.fileStat = response.fileStat := by
    obtain ⟨appended, same⟩ : Extends response (response.addStatusLine 200 (ascii "OK")).2 :=
      extends_addResponse _ _
    rw [same]
  have next : ((response.addStatusLine 200 (ascii "OK")).2.addHeaders linger
      (toInt32 response.fileStat.size)).2 =
      response.append (fileHead response.fileStat.size linger) :=
    congrArg Prod.snd head
  simp only [processWrite, stat, if_pos nonempty, next] at written
  exact (Prod.mk.inj written).2.symm

/-- A mapped file, if an `int` counts the response. -/
theorem queuesOne_file_iff {response ready : ResponseState} {address : Nat} {bytes : List UInt8}
    (linger : Bool) (fresh : response.writeBuf = []) (nonempty : response.fileStat.size ≠ 0)
    (mapped : response.fileAddress = .mapped address bytes)
    (size : bytes.length = response.fileStat.size)
    (written : response.processWrite linger .fileRequest = (true, ready)) :
    ready.QueuesOne bytes ↔
      (fileHead response.fileStat.size linger).length + response.fileStat.size < 2 ^ 31 := by
  rw [processWrite_file linger fresh nonempty written, mapped]
  have buffer := writeBuf_append_of_empty fresh (fileHead response.fileStat.size linger)
  have readable :=
    @gather_file ((response.append (fileHead response.fileStat.size linger)).queueBody
    (.file (.mapped address bytes) 0) response.fileStat.size) address bytes 0
    response.fileStat.size (by rw [size, Nat.zero_add])
  have whole : (bytes.drop 0).take response.fileStat.size = bytes := by
    rw [List.drop_zero, ← size, List.take_length]
  have queued := queuesOne_queueBody_iff isStatusLine_ok
    (pageLines_isHeaderLine (toInt32 response.fileStat.size) linger) buffer
    (readable.trans (congrArg (List.map some) whole))
  rw [writeIdx, buffer] at queued
  exact queued

/-- A file that could not be mapped. -/
theorem not_queuesOne_file {response ready : ResponseState} (linger : Bool) (body : List UInt8)
    (fresh : response.writeBuf = []) (nonempty : response.fileStat.size ≠ 0)
    (failed : response.fileAddress = .failed)
    (written : response.processWrite linger .fileRequest = (true, ready)) :
    ¬ready.QueuesOne body := by
  rw [processWrite_file linger fresh nonempty written, failed]
  apply not_queuesOne_queueBody
  simp only [gather, List.mem_map, List.mem_range]
  exact ⟨0, Nat.pos_of_ne_zero nonempty, rfl⟩

/-! ## Redirects -/

/-- The lines of a redirect. -/
theorem redirectHeaders_lines {headers : List (List UInt8)}
    (redirect : HttpConn.RedirectHeaders headers) :
    ∃ lines, headers = lines.map (· ++ ascii "\r\n") ∧ (∀ line ∈ lines, IsHeaderLine line) ∧
      (sendLines lines).length ≤ 200 := by
  have locationText : ascii "Location: /log.html" = ascii "Location" ++ 58 ::
      ascii " /log.html" := by
    decide
  have location : IsHeaderLine (ascii "Location: /log.html") :=
    isHeaderLine_of_name locationText (by decide) (by decide) (by decide)
  rcases redirect with rfl | rfl | ⟨token, rfl⟩
  · refine ⟨[ascii "Location: /log.html"], by decide, ?_, by decide⟩
    intro line member
    rw [List.mem_singleton.mp member]
    exact location
  · have cookieText : ascii "Set-Cookie: session_id=; Path=/; Max-Age=0" =
        ascii "Set-Cookie" ++ 58 :: ascii " session_id=; Path=/; Max-Age=0" := by decide
    refine ⟨[ascii "Set-Cookie: session_id=; Path=/; Max-Age=0", ascii "Location: /log.html"],
      by decide, ?_, by decide⟩
    intro line member
    rcases List.mem_pair.mp member with rfl | rfl
    · exact isHeaderLine_of_name cookieText (by decide) (by decide) (by decide)
    · exact location
  · have digitPlain : ∀ digit : Fin 16,
        (ascii "0123456789abcdef").getD digit.val 0 ≠ 13 ∧
          (ascii "0123456789abcdef").getD digit.val 0 ≠ 10 := by
      decide
    have tokenPlain : PlainLine (tokenText token) := by
      intro byte member
      simp only [tokenText, List.mem_map, List.mem_ofFn] at member
      obtain ⟨digit, _, rfl⟩ := member
      exact digitPlain digit
    have tokenLength : (tokenText token).length = 32 := by simp [tokenText]
    have cookieText : ascii "Set-Cookie: session_id=" ++ tokenText token ++ ascii "; Path=/" =
        ascii "Set-Cookie" ++ 58 :: (ascii " session_id=" ++ tokenText token ++ ascii "; Path=/") :=
      rfl
    have rootText : ascii "Location: /" = ascii "Location" ++ 58 :: ascii " /" := by decide
    refine ⟨[ascii "Set-Cookie: session_id=" ++ tokenText token ++ ascii "; Path=/",
      ascii "Location: /"], ?_, ?_, ?_⟩
    · simp only [loginHeaders, List.map_cons, List.map_nil,
        List.append_assoc]
      rfl
    · intro line member
      rcases List.mem_pair.mp member with rfl | rfl
      · exact isHeaderLine_of_name cookieText (by decide) (by decide)
          (((PlainLine.append (by decide) tokenPlain)).append (by decide))
      · exact isHeaderLine_of_name rootText (by decide) (by decide) (by decide)
    · have nameLength : (ascii "Set-Cookie: session_id=").length = 23 := by decide
      have pathLength : (ascii "; Path=/").length = 8 := by decide
      have rootLength : (ascii "Location: /").length = 11 := by decide
      simp only [sendLines_cons, sendLines_nil, List.length_append, List.length_cons,
        List.length_nil, nameLength, pathLength, rootLength, tokenLength]
      omega

/-- A redirect in an empty buffer is one response without a body. -/
theorem addRedirect_of_empty {response : ResponseState} {headers : List (List UInt8)}
    (fresh : response.writeBuf = []) (redirect : HttpConn.RedirectHeaders headers) :
    ∃ lines, (∀ line ∈ lines, IsHeaderLine line) ∧
      (sendLines (statusText 302 (ascii "Found") :: lines) ++ crlf).length ≤ 300 ∧
      response.addRedirect headers =
        response.append (sendLines (statusText 302 (ascii "Found") :: lines) ++ crlf) := by
  obtain ⟨lines, rfl, headerLines, length⟩ := redirectHeaders_lines redirect
  have size : writeBufferSize = 65536 := rfl
  have index : response.writeIdx = 0 := by rw [writeIdx, fresh, List.length_nil]
  have status : (statusText 302 (ascii "Found")).length = 18 := by decide
  have total : (sendLines (statusText 302 (ascii "Found") :: lines)).length ≤ 220 := by
    simp only [sendLines_cons, List.length_append, List.length_cons, status]
    omega
  refine ⟨lines, headerLines, ?_, ?_⟩
  · rw [List.length_append]
    have ending : crlf.length = 2 := rfl
    omega
  · have added := @addLines_addBlankLine response (statusText 302 (ascii "Found") :: lines)
      (by omega)
    rw [← added, addRedirect, List.foldl_map]
    rfl

/-- Behind a redirect `process_write` puts a second response. -/
theorem not_queuesOne_redirect {response ready : ResponseState} {headers : List (List UInt8)}
    (linger : Bool) (fresh : response.writeBuf = []) (redirect : HttpConn.RedirectHeaders headers)
    (written : (response.addRedirect headers).processWrite linger .redirectRequest =
      (true, ready)) : ¬ready.QueuesOne [] := by
  obtain ⟨lines, headerLines, length, same⟩ := addRedirect_of_empty fresh redirect
  have index : (response.addRedirect headers).writeIdx ≤ 300 := by
    rw [same, writeIdx, writeBuf_append_of_empty fresh]
    exact length
  have title : (ascii "Bad Request").length = 11 := by decide
  have head := @append_head (response.addRedirect headers) 400 0 (ascii "Bad Request") linger
    (by decide) (by decide) (by decide) (by omega)
  have queued : ready = ((response.addRedirect headers).append
      (sendLines (pageLines (400 : Nat) (ascii "Bad Request") 0 linger) ++ crlf)).queueBuffer := by
    simp only [processWrite] at written
    rw [← (Prod.mk.inj written).2]
    exact congrArg (fun next => next.2.queueBuffer) head
  rw [queued, queuesOne_queueBuffer_iff, writeBuf_append, same, writeBuf_append_of_empty fresh]
  refine not_isResponse_of_more (@isStatusLine_statusText 302 (ascii "Found") (by decide)
    (by decide) (by decide)) headerLines ?_
  simp [crlf]

end ResponseState

/-! ## Every request -/

/-- A file can be queued: it is empty, or it is mapped and an `int` counts the response. -/
def File.Queueable (file : File) (linger : Bool) : Prop :=
  file.stat.size = 0 ∨ file.content ≠ none ∧
    (ResponseState.fileHead file.stat.size linger).length + file.stat.size < 2 ^ 31

/-- A generated CSV file can be queued. -/
def CsvQueueable (bytes : List UInt8) (linger : Bool) : Prop :=
  (ResponseState.csvHead bytes.length linger).length + bytes.length < 2 ^ 31

namespace HttpConn

/-- A request is answered once: it is not redirected, and a file it names or has
generated can be queued. -/
structure AnsweredOnce (conn : HttpConn) (env : Env) : Prop where
  notRedirected : ¬conn.Redirects env
  file : ∀ file, conn.served env = some file → file.Queueable conn.linger
  csv : ∀ bytes, conn.generated env = some bytes → CsvQueueable bytes conn.linger

/-- A served file is one response if it can be queued. -/
theorem queuesOne_served_iff {reply : Reply} {ready : ResponseState} {env : Env} {file : File}
    (fresh : reply.conn.writeBuf = []) (stat : reply.conn.fileStat = file.stat)
    (address : reply.conn.fileAddress = env.mapFile file)
    (written : reply.conn.toResponseState.processWrite reply.conn.linger .fileRequest =
      (true, ready)) :
    ready.QueuesOne (reply.conn.toResponseState.bodyFor .fileRequest) ↔
      file.Queueable reply.conn.linger := by
  have size : file.stat.size = reply.conn.fileStat.size := by rw [stat]
  simp only [File.Queueable, size]
  by_cases empty : reply.conn.fileStat.size = 0
  · have page : reply.conn.toResponseState.bodyFor .fileRequest = ResponseState.emptyFilePage := by
      simp only [ResponseState.bodyFor, if_pos empty]
    rw [page]
    exact ⟨fun _ => .inl empty,
      fun _ => ResponseState.queuesOne_emptyFile reply.conn.linger fresh empty written⟩
  · simp only [empty, false_or, ResponseState.bodyFor, if_false]
    have sized := file.sized
    simp only [Env.mapFile] at address
    cases content : file.content with
    | none =>
        simp only [content] at address
        have failed := ResponseState.not_queuesOne_file reply.conn.linger [] fresh empty address
          written
        simp only [address, failed, ne_eq, not_true_eq_false, false_and]
    | some bytes =>
        have length := sized bytes content
        cases bytes with
        | nil => exact absurd (size ▸ length).symm empty
        | cons byte bytes =>
            simp only [content] at address
            have mapped := ResponseState.queuesOne_file_iff reply.conn.linger fresh empty address
              (length.trans size) written
            simp only [address, ne_eq, reduceCtorEq, not_false_eq_true, true_and, mapped]

/-- A reply that is a page is one response if the file it serves or the CSV file it
carries can be queued. -/
theorem queuesOne_page_iff {conn : HttpConn} {env : Env} {reply : Reply} {ready : ResponseState}
    (fresh : conn.writeBuf = []) (page : reply.IsPage env conn)
    (written : reply.conn.toResponseState.processWrite reply.conn.linger reply.code =
      (true, ready)) :
    ready.QueuesOne (reply.conn.toResponseState.bodyFor reply.code) ↔
      (∀ file, conn.served env = some file → file.Queueable conn.linger) ∧
        ∀ bytes, conn.generated env = some bytes → CsvQueueable bytes conn.linger := by
  have empty : reply.conn.writeBuf = [] := page.writeBuf.trans fresh
  -- Without a file and without a CSV file nothing has to be queueable.
  have plain : reply.code ≠ .fileRequest → reply.code ≠ .diagnoseCsvRequest →
      ready.QueuesOne (reply.conn.toResponseState.bodyFor reply.code) →
        (ready.QueuesOne (reply.conn.toResponseState.bodyFor reply.code) ↔
          (∀ file, conn.served env = some file → file.Queueable conn.linger) ∧
            ∀ bytes, conn.generated env = some bytes → CsvQueueable bytes conn.linger) :=
    fun notFile notCsv queued =>
      ⟨fun _ => ⟨fun file served => absurd (page.served file served) notFile,
      fun bytes generated => absurd (page.generated bytes generated) notCsv⟩, fun _ => queued⟩
  rcases page.code with code | code | code | code | code | code
  · rw [code] at written plain ⊢
    exact plain nofun nofun (ResponseState.queuesOne_noResource _ empty written)
  · rw [code] at written plain ⊢
    exact plain nofun nofun (ResponseState.queuesOne_default _ empty (.inl rfl) written)
  · rw [code] at written plain ⊢
    exact plain nofun nofun (ResponseState.queuesOne_default _ empty (.inr rfl) written)
  · obtain ⟨file, served, stat, address⟩ := page.file code
    have notGenerated : conn.generated env = none := by
      rw [Option.eq_none_iff_forall_not_mem]
      intro bytes generated
      exact absurd (code.symm.trans (page.generated bytes generated)) (by decide)
    rw [code] at written ⊢
    rw [queuesOne_served_iff empty stat address written, page.slot.linger, served, notGenerated]
    constructor
    · intro queueable
      refine ⟨?_, nofun⟩
      rintro other same
      cases same
      exact queueable
    · exact fun queueable => queueable.1 file rfl
  · have noNul := page.json code
    rw [code] at written plain ⊢
    exact plain nofun nofun (ResponseState.queuesOne_diagnose _ empty noNul written)
  · have generated := page.csv code
    have notServed : conn.served env = none := by
      rw [Option.eq_none_iff_forall_not_mem]
      intro file served
      exact absurd (code.symm.trans (page.served file served)) (by decide)
    rw [code] at written ⊢
    have queued := ResponseState.queuesOne_csv_iff _ empty written
    rw [page.slot.linger] at queued
    rw [notServed, generated]
    constructor
    · intro one
      refine ⟨nofun, ?_⟩
      rintro bytes same
      cases same
      exact queued.mp one
    · exact fun queueable => queued.mpr (queueable.2 _ rfl)

/-- A redirect is never queued as one response. -/
theorem not_queuesOne_redirected {conn : HttpConn} {env : Env} {reply : Reply}
    (fresh : conn.writeBuf = []) (done : conn.processRead env = .ok reply)
    (code : reply.code = .redirectRequest) :
    ¬(reply.conn.toResponseState.processWrite reply.conn.linger reply.code).2.QueuesOne
      (reply.conn.toResponseState.bodyFor reply.code) := by
  rcases processRead_cases done (by rw [code]; decide) with
    ⟨asked, _, handled, kept⟩ | ⟨_, bad, _⟩
  · have askedFresh : asked.writeBuf = [] := by rw [kept, fresh]
    rcases doRequest_cases handled with ⟨_, redirect⟩ | ⟨_, page⟩
    · obtain ⟨headers, isRedirect, response⟩ := redirect.response
      rw [code, response]
      exact ResponseState.not_queuesOne_redirect reply.conn.linger askedFresh isRedirect rfl
    · have codes := page.code
      rw [code] at codes
      exact absurd codes (by decide)
  · rw [code] at bad
    exact absurd bad (by decide)

/-- What is queued for a completed request is exactly one response if and only if the
request is not redirected, and the file it names or has generated can be queued. -/
theorem queuesOne_iff_answeredOnce {conn : HttpConn} {env : Env} {reply : Reply}
    {ready : ResponseState} (fresh : conn.writeBuf = []) (done : conn.processRead env = .ok reply)
    (completed : reply.code ≠ .noRequest)
    (written : reply.conn.toResponseState.processWrite reply.conn.linger reply.code =
      (true, ready)) :
    ready.QueuesOne (reply.conn.toResponseState.bodyFor reply.code) ↔
      ∀ asked, conn.requested = some asked → asked.AnsweredOnce env := by
  rcases processRead_cases done completed with
    ⟨asked, isAsked, handled, kept⟩ | ⟨noRequest, code, kept⟩
  · have askedFresh : asked.writeBuf = [] := by rw [kept, fresh]
    have only : (∀ other, conn.requested = some other → other.AnsweredOnce env) ↔
        asked.AnsweredOnce env := by
      rw [isAsked]
      refine ⟨fun all => all asked rfl, ?_⟩
      rintro answered other same
      cases same
      exact answered
    rw [only]
    rcases doRequest_cases handled with ⟨redirected, redirect⟩ | ⟨notRedirected, page⟩
    · have twice := not_queuesOne_redirected fresh done redirect.code
      rw [written] at twice
      exact ⟨fun one => absurd one twice, fun answered => absurd redirected answered.notRedirected⟩
    · rw [queuesOne_page_iff askedFresh page written]
      exact ⟨fun queueable => ⟨notRedirected, queueable.1, queueable.2⟩,
        fun answered => ⟨answered.file, answered.csv⟩⟩
  · have empty : reply.conn.writeBuf = [] := by rw [kept, fresh]
    rw [code] at written ⊢
    rw [noRequest]
    have one : ready.QueuesOne [] := ResponseState.queuesOne_default _ empty (.inr rfl) written
    refine ⟨?_, fun _ => one⟩
    rintro _ asked same
    cases same

/-- A request for a missing file is answered once. -/
theorem queuesOne_iff_answeredOnce_missing :
    ∃ reply ready, (receiving 7 (ascii "/root") (ascii "GET /a.html HTTP/1.1\r\n\r\n")).processRead
        Env.blank = .ok reply ∧
      reply.conn.toResponseState.processWrite reply.conn.linger reply.code = (true, ready) ∧
      ready.QueuesOne (reply.conn.toResponseState.bodyFor reply.code) := by
  have written : ((receiving 7 (ascii "/root")
      (ascii "GET /a.html HTTP/1.1\r\n\r\n")).processRead Env.blank).toOption.map (fun reply =>
        (reply.code,
          (reply.conn.toResponseState.processWrite reply.conn.linger reply.code).1)) =
      some (.noResource, true) := by
    decide +kernel
  have facts : (receiving 7 (ascii "/root") (ascii "GET /a.html HTTP/1.1\r\n\r\n")).requested.map
      (fun asked => (asked.cgi, asked.url.map fun url => (asked.str url, asked.urlFlag url),
        (asked.served Env.blank).isNone, (asked.generated Env.blank).isNone)) =
      some (0, some (ascii "/a.html", some 97), true, true) := by
    decide +kernel
  cases done : (receiving 7 (ascii "/root") (ascii "GET /a.html HTTP/1.1\r\n\r\n")).processRead
      Env.blank with
  | error fault => simp [done, Except.toOption] at written
  | ok reply =>
      simp only [done, Except.toOption, Option.map_some, Option.some.injEq,
        Prod.mk.injEq] at written
      refine ⟨reply, _, rfl, Prod.ext written.2 rfl, ?_⟩
      refine (queuesOne_iff_answeredOnce rfl done (by rw [written.1]; decide)
        (Prod.ext written.2 rfl)).mpr ?_
      intro asked isAsked
      simp only [isAsked, Option.map_some, Option.some.injEq, Prod.mk.injEq,
        Option.map_eq_some_iff, Option.isNone_iff_eq_none] at facts
      obtain ⟨get, ⟨url, isUrl, text, flag⟩, notServed, notGenerated⟩ := facts
      refine ⟨?_, by simp [notServed], by simp [notGenerated]⟩
      rintro ⟨other, isOther, ⟨⟨_, guarded⟩, _⟩ | ⟨_, logs⟩⟩
      · rw [isUrl, Option.some.injEq] at isOther
        subst isOther
        rw [text] at guarded
        exact absurd guarded (by decide)
      · rw [isUrl, Option.some.injEq] at isOther
        subst isOther
        rw [LogsInOrOut, flag, get] at logs
        exact absurd logs (by simp)

/-- A logout is answered with its redirect and a second response. -/
theorem not_queuesOne_logout :
    ∃ reply ready, (receiving 7 (ascii "/root") (ascii "GET /4 HTTP/1.1\r\n\r\n")).processRead
        Env.blank = .ok reply ∧
      reply.conn.toResponseState.processWrite reply.conn.linger reply.code = (true, ready) ∧
      ¬ready.QueuesOne (reply.conn.toResponseState.bodyFor reply.code) := by
  have code : ((receiving 7 (ascii "/root") (ascii "GET /4 HTTP/1.1\r\n\r\n")).processRead
      Env.blank).map (·.code) = .ok .redirectRequest := by
    decide +kernel
  cases done : (receiving 7 (ascii "/root") (ascii "GET /4 HTTP/1.1\r\n\r\n")).processRead
      Env.blank with
  | error fault => simp [done, Except.map] at code
  | ok reply =>
      simp only [done, Except.map, Except.ok.injEq] at code
      refine ⟨reply, _, rfl, ?_, not_queuesOne_redirected rfl done code⟩
      rw [code]
      rfl

end HttpConn

end TimeGANWebServer.Http
