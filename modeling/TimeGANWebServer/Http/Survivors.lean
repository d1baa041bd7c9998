import TimeGANWebServer.Http.CurrentLine
import TimeGANWebServer.Http.Process
import TimeGANWebServer.Http.Send

/-!
# The surviving members of a slot

`init()` leaves some members of a slot as an earlier request set them: `m_string`, the mapping
and the status of the file, and the I/O vectors.  Parsing does not read them.  `do_request` and
`process_write` read none but `m_string`, for a form or a diagnosis, before they assign it.
-/

namespace TimeGANWebServer.Http

open TimeGANWebServer.Support

/-! ## The surviving members -/

/-- The members that `init()` does not reset, and the descriptor and trigger mode of the
connection. -/
structure Survivors where
  string : Option Int
  fileAddress : FileAddress
  fileStat : FileStat
  iv0 : Iovec
  iv1 : Iovec
  ivCount : Nat
  sockfd : Int
  trigMode : Int

/-- The request with another `m_string`. -/
def RequestState.withString (request : RequestState) (string : Option Int) : RequestState :=
  { request with string := string }

/-- The response with other surviving members. -/
def ResponseState.withSurvivors (response : ResponseState) (survivors : Survivors) :
    ResponseState :=
  { response with
    fileAddress := survivors.fileAddress
    fileStat := survivors.fileStat
    iv0 := survivors.iv0
    iv1 := survivors.iv1
    ivCount := survivors.ivCount }

/-- The slot with other surviving members. -/
def HttpConn.withSurvivors (conn : HttpConn) (survivors : Survivors) : HttpConn :=
  { conn with
    toRequestState := conn.toRequestState.withString survivors.string
    toResponseState := conn.toResponseState.withSurvivors survivors
    sockfd := survivors.sockfd
    trigMode := survivors.trigMode }

/-- The surviving members of a slot. -/
def HttpConn.survivors (conn : HttpConn) : Survivors where
  string := conn.string
  fileAddress := conn.fileAddress
  fileStat := conn.fileStat
  iv0 := conn.iv0
  iv1 := conn.iv1
  ivCount := conn.ivCount
  sockfd := conn.sockfd
  trigMode := conn.trigMode

/-! ## Parsing -/

/-- The outcome where the parser started with another `m_string`.  Only `parse_content`
assigns it, right before `do_request`. -/
def ReadOutcome.withString (string : Option Int) : ReadOutcome → ReadOutcome
  | .code ret next => .code ret (next.withString string)
  | .request next =>
      .request (if next.checkState = .content then next else next.withString string)
  | .fault reason next => .fault reason (next.withString string)

/-- A pass from a state with another `m_string`. -/
def RequestState.withStringPass (string : Option Int) :
    Pass (LineStatus × RequestState) ReadOutcome → Pass (LineStatus × RequestState) ReadOutcome
  | .done outcome => .done (outcome.withString string)
  | .again (lineStatus, next) => .again (lineStatus, next.withString string)

namespace RequestState

variable (request : RequestState) (string : Option Int)

theorem withString_receive (bytes : List UInt8) :
    (request.withString string).receive bytes = (request.receive bytes).withString string := rfl

theorem parseLine_withString :
    (request.withString string).parseLine =
      (request.parseLine.1, request.parseLine.2.withString string) := by
  have loop : ∀ left (request : RequestState),
      parseLineLoop left (request.withString string) =
        ((parseLineLoop left request).1, (parseLineLoop left request).2.withString string) := by
    intro left
    induction left with
    | zero => exact fun _ => rfl
    | succ left ih =>
        intro request
        have bytes : (request.withString string).readBuf = request.readBuf := rfl
        have scanned : (request.withString string).checkedIdx = request.checkedIdx := rfl
        have received : (request.withString string).readIdx = request.readIdx := rfl
        simp only [parseLineLoop, bytes, scanned, received]
        by_cases isCr : request.readBuf request.checkedIdx = 13
        · simp only [if_pos isCr]
          by_cases last : request.checkedIdx + 1 = request.readIdx
          · simp only [if_pos last]
          · simp only [if_neg last]
            by_cases isLf : request.readBuf (request.checkedIdx + 1) = 10
            · simp only [if_pos isLf]
              rfl
            · simp only [if_neg isLf]
        · simp only [if_neg isCr]
          by_cases isLf : request.readBuf request.checkedIdx = 10
          · simp only [if_pos isLf]
            by_cases behindCr :
                1 < request.checkedIdx ∧ request.readBuf (request.checkedIdx - 1) = 13
            · simp only [if_pos behindCr]
              rfl
            · simp only [if_neg behindCr]
          · simp only [if_neg isLf]
            exact ih { request with checkedIdx := request.checkedIdx + 1 }
  exact loop _ request

theorem parseUrl_withString (url : Int) :
    (request.withString string).parseUrl url =
      (request.parseUrl url).map fun result => (result.1, result.2.withString string) := by
  have skips : ∀ url scheme, (request.withString string).skipScheme url scheme =
      request.skipScheme url scheme := fun _ _ => rfl
  simp only [parseUrl, skips]
  split
  · rfl
  · split
    · rfl
    case _ url _ =>
        have slash : (request.withString string).readBuf url = request.readBuf url := rfl
        rw [slash]
        split <;> rfl

theorem parseTarget_withString (afterMethod : Int) :
    (request.withString string).parseTarget afterMethod =
      (request.parseTarget afterMethod).map
        fun result => (result.1, result.2.withString string) := by
  have text : ∀ start, (request.withString string).str start = request.str start := fun _ => rfl
  have bytes : (request.withString string).readBuf = request.readBuf := rfl
  simp only [parseTarget, text, bytes]
  split
  · rfl
  · split
    · exact parseUrl_withString { request with
        readBuf := _, url := some _, version := some _ } string _
    · rfl

theorem parseRequestLine_withString (text : Int) :
    (request.withString string).parseRequestLine text =
      (request.parseRequestLine text).map
        fun result => (result.1, result.2.withString string) := by
  have line : (request.withString string).str text = request.str text := rfl
  have bytes : (request.withString string).readBuf = request.readBuf := rfl
  simp only [parseRequestLine, line, bytes]
  split
  · rfl
  · split
    · exact parseTarget_withString { request with
        readBuf := _, url := some _, method := .get } string _
    · split
      · exact parseTarget_withString { request with
          readBuf := _, url := some _, method := .post, cgi := 1 } string _
      · rfl

theorem parseHeaders_withString (text : Int) :
    (request.withString string).parseHeaders text =
      ((request.parseHeaders text).1, (request.parseHeaders text).2.withString string) := by
  have line : (request.withString string).str text = request.str text := rfl
  have bytes : (request.withString string).readBuf = request.readBuf := rfl
  have length : (request.withString string).contentLength = request.contentLength := rfl
  simp only [parseHeaders, line, bytes, length]
  repeat' split
  all_goals rfl

/-- A complete body is the new string. -/
theorem parseContent_withString (text : Int) :
    (request.withString string).parseContent text =
      match request.parseContent text with
      | .error fault => .error fault
      | .ok (.getRequest, next) => .ok (.getRequest, next)
      | .ok (code, next) => .ok (code, next.withString string) := by
  simp only [parseContent, withString]
  by_cases overflow : 2 ^ 31 ≤ request.contentLength + request.checkedIdx
  · simp only [overflow, if_true]
  by_cases received : request.contentLength + request.checkedIdx ≤ request.readIdx
  · by_cases outside : text + request.contentLength < 0 ∨
        readBufferSize ≤ text + request.contentLength
    · simp only [overflow, received, outside, if_true, if_false]
    · simp only [overflow, received, outside, if_true, if_false]
  · simp only [overflow, received, if_false]

/-- A line is taken in the same way whatever `m_string` is. -/
theorem processLine_withString :
    (request.withString string).processLine = withStringPass string request.processLine := by
  obtain ⟨readBuf, readIdx, checkedIdx, startLine, checkState, method, url, version, host,
    contentLength, linger, cgi, earlier, cookie⟩ := request
  let moved : RequestState := ⟨readBuf, readIdx, checkedIdx, checkedIdx, checkState, method, url,
    version, host, contentLength, linger, cgi, earlier, cookie⟩
  cases checkState with
  | requestLine =>
      have parsed := parseRequestLine_withString moved string startLine
      simp only [processLine, withString] at parsed ⊢
      rw [parsed]
      cases moved.parseRequestLine startLine with
      | error fault => rfl
      | ok result =>
          obtain ⟨code, next⟩ := result
          cases code <;> rfl
  | header =>
      have parsed := parseHeaders_withString moved string startLine
      have ends := parseHeaders_code moved startLine
      simp only [processLine, withString] at parsed ⊢
      rw [parsed]
      cases parsedLine : moved.parseHeaders startLine with
      | mk code next =>
          rw [parsedLine] at ends
          obtain ⟨rfl | ⟨rfl, stays⟩, _⟩ := ends
          · rfl
          · have notBody : next.checkState ≠ .content := by
              replace stays : next.checkState = .header := stays
              rw [stays]
              decide
            simp only [withStringPass, ReadOutcome.withString, if_neg notBody]
            rfl
  | content =>
      have parsed := parseContent_withString moved string startLine
      simp only [processLine, withString] at parsed ⊢
      rw [parsed]
      cases parsedLine : moved.parseContent startLine with
      | error fault => rfl
      | ok result =>
          obtain ⟨code, next⟩ := result
          have inBody : next.checkState = .content := (parseContent_keeps parsedLine).2.2.2.1
          cases code
          case getRequest => simp [withStringPass, ReadOutcome.withString, inBody]
          all_goals rfl

theorem processPass_withString (lineStatus : LineStatus) :
    processPass (lineStatus, request.withString string) =
      withStringPass string (processPass (lineStatus, request)) := by
  have state : (request.withString string).checkState = request.checkState := rfl
  simp only [processPass, state, parseLine_withString]
  split
  · exact processLine_withString request string
  · cases scanned : request.parseLine with
    | mk status next =>
        cases status with
        | ok => exact processLine_withString next string
        | bad => rfl
        | «open» => rfl

/-- `process_read` up to its call of `do_request` does not read `m_string`. -/
theorem processRead_withString :
    (request.withString string).processRead =
      request.processRead.map (ReadOutcome.withString string) := by
  refine @Loop.run_map _ _ processPass passBound processPass_falls
    (fun state => (state.1, state.2.withString string)) (ReadOutcome.withString string) ?_
    (.ok, request)
  rintro ⟨lineStatus, state⟩
  rw [processPass_withString]
  cases processPass (lineStatus, state) <;> rfl

/-- Nor do successive reads. -/
theorem reads_withString (chunks : List (List UInt8)) :
    (request.withString string).reads chunks =
      (request.reads chunks).map (ReadOutcome.withString string) := by
  induction chunks generalizing request with
  | nil => rfl
  | cons chunk chunks ih =>
      simp only [reads, withString_receive, processRead_withString]
      cases read : (request.receive chunk).processRead with
      | none => rfl
      | some outcome =>
          cases outcome with
          | request next => rfl
          | fault fault next => rfl
          | code ret next =>
              cases ret with
              | noRequest => exact ih next
              | _ => rfl

/-- The parser is in a body only if one is declared. -/
def InDeclaredBody (request : RequestState) : Prop :=
  request.checkState = .content → request.contentLength ≠ 0

/-- A request is handed to `do_request` behind a body exactly if one is declared. -/
def HandsOver : ReadOutcome → Prop
  | .code ret next => ret = .noRequest → next.InDeclaredBody
  | .request next => next.checkState = .content ↔ next.contentLength ≠ 0
  | .fault _ _ => True

theorem InDeclaredBody.of_ne {request : RequestState} (notBody : request.checkState ≠ .content) :
    request.InDeclaredBody :=
  fun body => absurd body notBody

theorem InDeclaredBody.parseLine {request : RequestState} (declared : request.InDeclaredBody) :
    request.parseLine.2.InDeclaredBody := by
  have loop : ∀ left (request : RequestState), request.InDeclaredBody →
      (parseLineLoop left request).2.InDeclaredBody := by
    intro left
    induction left with
    | zero => exact fun _ declared => declared
    | succ left ih =>
        intro request declared
        simp only [parseLineLoop]
        repeat' split
        all_goals first | exact declared | exact ih _ declared
  exact loop _ request declared

/-- A line of a head goes on to a body that is declared, or ends a request without one. -/
theorem parseHeaders_declared {request : RequestState} (state : request.checkState = .header)
    (text : Int) :
    ((request.parseHeaders text).1 ≠ .getRequest →
        (request.parseHeaders text).2.InDeclaredBody) ∧
      ((request.parseHeaders text).1 = .getRequest →
        (request.parseHeaders text).2.checkState = .header ∧
          (request.parseHeaders text).2.contentLength = 0) := by
  have elsewhere : ∀ next : RequestState, next.checkState = request.checkState →
      next.InDeclaredBody := by
    intro next same
    refine .of_ne ?_
    rw [same, state]
    decide
  simp only [parseHeaders]
  split
  · split
    case isTrue declared => exact ⟨fun _ _ => declared, by simp⟩
    case isFalse none => exact ⟨fun other => absurd rfl other, fun _ => ⟨state, not_not.mp none⟩⟩
  · repeat' split
    all_goals exact ⟨fun _ => elsewhere _ rfl, by simp⟩

/-- The switch in `process_read` goes on in a body that is declared. -/
theorem processLine_again_declared {request next : RequestState} {lineStatus : LineStatus}
    (declared : request.InDeclaredBody)
    (passed : request.processLine = .again (lineStatus, next)) : next.InDeclaredBody := by
  simp only [processLine] at passed
  split at passed
  · split at passed
    · contradiction
    · contradiction
    case _ code parsedNext notBad parsed =>
        cases passed
        have header := (parseRequestLine_keeps parsed).2.2
        refine .of_ne ?_
        rw [header ((parseRequestLine_code parsed).resolve_left notBad)]
        decide
  case _ state =>
      have kept := (@parseHeaders_declared { request with startLine := request.checkedIdx } state
        request.startLine).1
      split at passed
      · contradiction
      · contradiction
      case _ code parsedNext _ notGet parsed =>
          cases passed
          rw [parsed] at kept
          exact kept notGet
  case _ state =>
      split at passed
      · contradiction
      · contradiction
      case _ code parsedNext notGet parsed =>
          cases passed
          obtain ⟨_, _, _, sameState, sameLength⟩ := parseContent_keeps parsed
          rw [InDeclaredBody, sameState, sameLength]
          exact declared

/-- It hands a request over behind a body exactly if one is declared. -/
theorem processLine_done_declared {request : RequestState} {outcome : ReadOutcome}
    (declared : request.InDeclaredBody) (passed : request.processLine = .done outcome) :
    HandsOver outcome := by
  simp only [processLine] at passed
  split at passed
  · split at passed
    · cases passed
      trivial
    · cases passed
      simp [HandsOver]
    · contradiction
  case _ state =>
      have ends := (@parseHeaders_declared { request with startLine := request.checkedIdx } state
        request.startLine).2
      split at passed
      · cases passed
        simp [HandsOver]
      case _ parsedNext parsed =>
          cases passed
          rw [parsed] at ends
          obtain ⟨header, none⟩ := ends rfl
          exact iff_of_false (by rw [header]; decide) (not_not.mpr none)
      · contradiction
  case _ state =>
      split at passed
      · cases passed
        trivial
      case _ parsedNext parsed =>
          cases passed
          obtain ⟨_, _, _, sameState, sameLength⟩ := parseContent_keeps parsed
          simp only [HandsOver, sameState, sameLength]
          exact iff_of_true state (declared state)
      · contradiction

/-- Nor does the loop of `process_read` do anything else. -/
theorem processRead_handsOver {request : RequestState} (declared : request.InDeclaredBody) :
    ∃ outcome, request.processRead = some outcome ∧ HandsOver outcome := by
  refine @Loop.run_of_invariant _ _ processPass passBound processPass_falls
    (fun state => state.2.InDeclaredBody) HandsOver ?_ ?_ (.ok, request) declared
  · rintro ⟨lineStatus, state⟩ outcome declared passed
    simp only [processPass] at passed
    split at passed
    · exact processLine_done_declared declared passed
    · have scanned := declared.parseLine
      split at passed
      case _ next line =>
          rw [line] at scanned
          exact processLine_done_declared scanned passed
      case _ status next _ line =>
          cases passed
          rw [line] at scanned
          exact fun _ => scanned
  · rintro ⟨lineStatus, state⟩ ⟨nextStatus, next⟩ declared passed
    simp only [processPass] at passed
    split at passed
    · exact processLine_again_declared declared passed
    · have scanned := declared.parseLine
      split at passed
      case _ line =>
          rw [line] at scanned
          exact processLine_again_declared scanned passed
      · contradiction

/-- Successive reads come to an outcome, and hand a request over behind its body. -/
theorem reads_handsOver {request : RequestState} (declared : request.InDeclaredBody)
    (chunks : List (List UInt8)) :
    ∃ outcome, request.reads chunks = some outcome ∧ HandsOver outcome := by
  induction chunks generalizing request with
  | nil => exact ⟨_, rfl, fun _ => declared⟩
  | cons chunk chunks ih =>
      have received : (request.receive chunk).InDeclaredBody := declared
      obtain ⟨outcome, read, handsOver⟩ := processRead_handsOver received
      simp only [reads, read]
      split
      case _ next same =>
          cases same
          exact ih (handsOver rfl)
      · exact ⟨outcome, rfl, handsOver⟩

end RequestState

/-! ## Handling -/

/-- The form branch with other surviving members. -/
def FormOutcome.withSurvivors (survivors : Survivors) : FormOutcome → FormOutcome
  | .redirect conn username => .redirect (conn.withSurvivors survivors) username
  | .goOn conn users => .goOn (conn.withSurvivors survivors) users

/-- A reply with other surviving members. -/
def Reply.withSurvivors (reply : Reply) (survivors : Survivors) : Reply :=
  { reply with conn := reply.conn.withSurvivors survivors }

/-- What a request resolves to with other surviving members. -/
def Resolved.withSurvivors (survivors : Survivors) : Resolved → Resolved
  | .redirect reply => .redirect (reply.withSurvivors survivors)
  | .file conn users sessions => .file (conn.withSurvivors survivors) users sessions

/-- The bytes a reply makes `process` hand to `writev`: none if it wants more of the request,
or if the response does not fit. -/
def Reply.bytes (reply : Reply) : Option (List (Option UInt8)) :=
  if reply.code = .noRequest then
    none
  else
    let written := reply.conn.toResponseState.processWrite reply.conn.linger reply.code
    if written.1 then some written.2.offered else none

/-- What a request is answered with, and what it does to the shared stores. -/
structure Answer where
  code : HttpCode
  bytes : Option (List (Option UInt8))
  users : List UInt8 → Option (List UInt8)
  sessions : List SessionCall

/-- The answer of a reply. -/
def Reply.answer (reply : Reply) : Answer where
  code := reply.code
  bytes := reply.bytes
  users := reply.users
  sessions := reply.sessions

namespace ResponseState

variable (response : ResponseState) (survivors : Survivors)

theorem addResponse_withSurvivors (text : List UInt8) :
    (response.withSurvivors survivors).addResponse text =
      ((response.addResponse text).1, (response.addResponse text).2.withSurvivors survivors) := by
  have length : (response.withSurvivors survivors).writeIdx = response.writeIdx := rfl
  simp only [addResponse, length]
  split
  · rfl
  · split <;> rfl

theorem addHeaders_withSurvivors (linger : Bool) (contentLen : Int) :
    (response.withSurvivors survivors).addHeaders linger contentLen =
      ((response.addHeaders linger contentLen).1,
        (response.addHeaders linger contentLen).2.withSurvivors survivors) := by
  simp only [addHeaders, addContentLength, addLinger, addBlankLine, addResponse_withSurvivors]
  cases response.addResponse (ascii "Content-Length:" ++ decimal contentLen ++ ascii "\r\n") with
  | mk fitted next =>
      cases fitted with
      | false => rfl
      | true =>
          simp only [addResponse_withSurvivors]
          cases next.addResponse (ascii "Connection:" ++
              (if linger then ascii "keep-alive" else ascii "close") ++ ascii "\r\n") with
          | mk fitted last =>
              cases fitted with
              | false => rfl
              | true => simp only [addResponse_withSurvivors]

theorem addRedirect_withSurvivors (headers : List (List UInt8)) :
    (response.withSurvivors survivors).addRedirect headers =
      (response.addRedirect headers).withSurvivors survivors := by
  have folds : ∀ (headers : List (List UInt8)) (response : ResponseState),
      headers.foldl (fun response header => (addResponse response header).2)
          (response.withSurvivors survivors) =
        (headers.foldl (fun response header => (addResponse response header).2)
          response).withSurvivors survivors := by
    intro headers
    induction headers with
    | nil => exact fun _ => rfl
    | cons header headers ih =>
        intro response
        simp only [List.foldl_cons, addResponse_withSurvivors, ih]
  simp only [addRedirect, addStatusLine, addBlankLine, addResponse_withSurvivors, folds]

theorem responseCsv_withSurvivors :
    (response.withSurvivors survivors).responseCsv = response.responseCsv := rfl

theorem responseJson_withSurvivors :
    (response.withSurvivors survivors).responseJson = response.responseJson := rfl

theorem csvHeader_withSurvivors (linger : Bool) :
    (response.withSurvivors survivors).csvHeader linger =
      (response.csvHeader linger).withSurvivors survivors := by
  simp only [csvHeader, addStatusLine, addContentLength, addLinger, addBlankLine,
    addResponse_withSurvivors, responseCsv_withSurvivors]

/-- The write buffer alone is offered whatever was in the other vector. -/
theorem queueBuffer_withSurvivors :
    (response.withSurvivors survivors).queueBuffer.offered = response.queueBuffer.offered := rfl

theorem queueCsv_withSurvivors (size : Nat) :
    ((response.withSurvivors survivors).queueBody (.csv 0) size).offered =
      (response.queueBody (.csv 0) size).offered := rfl

theorem finishPage_withSurvivors (content : List UInt8) :
    let used := (response.withSurvivors survivors).finishPage content
    let page := response.finishPage content
    used.1 = page.1 ∧ (page.1 = true → used.2.offered = page.2.offered) := by
  simp only [finishPage, addContent, addResponse_withSurvivors]
  cases response.addResponse (untilNul content) with
  | mk fitted next =>
      cases fitted with
      | false => exact ⟨rfl, nofun⟩
      | true => exact ⟨rfl, fun _ => queueBuffer_withSurvivors next survivors⟩

theorem Extends.file {before after : ResponseState} (extends_ : Extends before after) :
    after.fileStat = before.fileStat ∧ after.fileAddress = before.fileAddress := by
  obtain ⟨_, rfl⟩ := extends_
  exact ⟨rfl, rfl⟩

/-- The response with a file, from the status and the mapping it starts with. -/
theorem processWrite_fileRequest (linger : Bool) :
    response.processWrite linger .fileRequest =
      let next := (response.addStatusLine 200 (ascii "OK")).2
      if response.fileStat.size ≠ 0 then
        (true, (next.addHeaders linger (toInt32 response.fileStat.size)).2.queueBody
          (.file response.fileAddress 0) response.fileStat.size)
      else
        (next.addHeaders linger emptyFilePage.length).2.finishPage emptyFilePage := by
  have begun : Extends response (response.addStatusLine 200 (ascii "OK")).2 :=
    extends_addResponse _ _
  have headed := begun.trans (extends_addHeaders _ linger (toInt32 response.fileStat.size))
  simp only [processWrite, begun.file.1, headed.file]

/-- It uses no vector that was there before. -/
theorem processFile_withSurvivors (linger : Bool)
    (sameStat : survivors.fileStat = response.fileStat)
    (sameAddress : survivors.fileAddress = response.fileAddress) :
    let used := (response.withSurvivors survivors).processWrite linger .fileRequest
    let page := response.processWrite linger .fileRequest
    used.1 = page.1 ∧ (page.1 = true → used.2.offered = page.2.offered) := by
  have stat : (response.withSurvivors survivors).fileStat = response.fileStat := sameStat
  have address : (response.withSurvivors survivors).fileAddress = response.fileAddress :=
    sameAddress
  simp only [processWrite_fileRequest, addStatusLine, addResponse_withSurvivors,
    addHeaders_withSurvivors, stat, address]
  split
  · exact ⟨rfl, fun _ => rfl⟩
  · exact finishPage_withSurvivors _ survivors _

/-- A response does not depend on the surviving members, but for the mapping and the status of
a file that it sends. -/
theorem processWrite_withSurvivors {ret : HttpCode} (linger : Bool)
    (same : ret = .fileRequest →
      survivors.fileStat = response.fileStat ∧ survivors.fileAddress = response.fileAddress) :
    let used := (response.withSurvivors survivors).processWrite linger ret
    let page := response.processWrite linger ret
    used.1 = page.1 ∧ (page.1 = true → used.2.offered = page.2.offered) := by
  cases ret
  case fileRequest =>
      exact processFile_withSurvivors response survivors linger (same rfl).1 (same rfl).2
  case noResource | internalError =>
      simp only [processWrite, addStatusLine, addResponse_withSurvivors, addHeaders_withSurvivors]
      exact finishPage_withSurvivors _ survivors _
  case diagnoseRequest =>
      simp only [processWrite, addStatusLine, addContentLength, addContentType, addLinger,
        addBlankLine, addResponse_withSurvivors, responseJson_withSurvivors]
      exact finishPage_withSurvivors _ survivors _
  case diagnoseCsvRequest =>
      simp only [processWrite, csvHeader_withSurvivors, responseCsv_withSurvivors]
      exact ⟨trivial, fun _ => queueCsv_withSurvivors _ survivors _⟩
  all_goals
    simp only [processWrite, addStatusLine, addResponse_withSurvivors, addHeaders_withSurvivors]
    exact ⟨trivial, fun _ => queueBuffer_withSurvivors _ survivors⟩

end ResponseState

/-- The answer of a reply is the same with other surviving members, but for the mapping and the
status of a file that it sends. -/
theorem Reply.answer_withSurvivors {reply : Reply} {survivors : Survivors}
    (same : reply.code = .fileRequest → survivors.fileStat = reply.conn.fileStat ∧
      survivors.fileAddress = reply.conn.fileAddress) :
    (reply.withSurvivors survivors).answer = reply.answer := by
  obtain ⟨fits, offered⟩ := ResponseState.processWrite_withSurvivors
    reply.conn.toResponseState survivors reply.conn.linger same
  have code : (reply.withSurvivors survivors).code = reply.code := rfl
  have bytes : (reply.withSurvivors survivors).bytes = reply.bytes := by
    by_cases incomplete : reply.code = .noRequest
    · rw [Reply.bytes, Reply.bytes, if_pos incomplete, if_pos (code.trans incomplete)]
    · rw [Reply.bytes, Reply.bytes, if_neg incomplete, if_neg (code ▸ incomplete)]
      by_cases written : (reply.conn.processWrite reply.conn.linger reply.code).1 = true
      · exact (if_pos (fits.trans written)).trans
          ((congrArg _ (offered written)).trans (if_pos written).symm)
      · exact (if_neg (fun other => written (fits.symm.trans other))).trans (if_neg written).symm
  simp only [Reply.answer, bytes]
  rfl

namespace HttpConn

/-- The form branch is reached with a path that fits `m_real_file` and a URL that fits
`m_url_real`. -/
def ReadsForm (conn : HttpConn) (url : Int) : Prop :=
  conn.docRoot.length < filenameLen ∧
    (conn.urlFlag url = some 50 ∨ conn.urlFlag url = some 51) ∧
    (47 :: conn.str (url + 2)).length < 200

instance (conn : HttpConn) (url : Int) : Decidable (conn.ReadsForm url) :=
  inferInstanceAs (Decidable (_ ∧ _ ∧ _))

/-- `do_request` reads `m_string`: for a diagnosis, or for the data of a form. -/
def ReadsString (conn : HttpConn) : Prop :=
  conn.cgi = 1 ∧ ∃ url ∈ conn.url, conn.str url = ascii "/diagnose" ∨ conn.ReadsForm url

instance (conn : HttpConn) : Decidable conn.ReadsString :=
  inferInstanceAs (Decidable (_ ∧ _))

variable (conn : HttpConn) (survivors : Survivors)

theorem serveFile_withSurvivors (env : Env) (checkDir : Bool)
    (users : List UInt8 → Option (List UInt8)) (sessions : List SessionCall) :
    ((conn.withSurvivors survivors).serveFile env checkDir users sessions).answer =
      (conn.serveFile env checkDir users sessions).answer := by
  have path : (conn.withSurvivors survivors).realPath = conn.realPath := rfl
  simp only [serveFile, path]
  cases env.files conn.realPath with
  | none =>
      exact @Reply.answer_withSurvivors ⟨.noResource, conn, users, sessions⟩ survivors (by simp)
  | some file =>
      simp only []
      split
      · exact @Reply.answer_withSurvivors
          ⟨.forbiddenRequest, { conn with fileStat := file.stat }, users, sessions⟩
          { survivors with fileStat := file.stat } (by simp)
      · split
        · exact @Reply.answer_withSurvivors
            ⟨.badRequest, { conn with fileStat := file.stat }, users, sessions⟩
            { survivors with fileStat := file.stat } (by simp)
        · exact @Reply.answer_withSurvivors
            ⟨.fileRequest, { conn with fileStat := file.stat, fileAddress := env.mapFile file },
              users, sessions⟩
            { survivors with fileStat := file.stat, fileAddress := env.mapFile file }
            fun _ => ⟨rfl, rfl⟩

theorem setUrl_withSurvivors (url : Int) (page : List UInt8) :
    (conn.withSurvivors survivors).setUrl url page =
      (conn.setUrl url page).map (·.withSurvivors survivors) := by
  simp only [setUrl]
  split <;> rfl

theorem register_withSurvivors (env : Env) (url : Int) (name password : List UInt8) :
    (conn.withSurvivors survivors).register env url name password =
      (conn.register env url name password).map (FormOutcome.withSurvivors survivors) := by
  have mysql : (conn.withSurvivors survivors).mysql = conn.mysql := rfl
  simp only [register, mysql, setUrl_withSurvivors]
  split
  · rfl
  · cases env.users name with
    | none =>
        simp only []
        split
        · rfl
        · cases conn.setUrl url (if env.mysqlQuery (sqlInsert name password) = true then
            ascii "/log.html" else ascii "/registerError.html") <;> rfl
    | some _ => cases conn.setUrl url (ascii "/registerError.html") <;> rfl

theorem login_withSurvivors (env : Env) (url : Int) (name password : List UInt8) :
    (conn.withSurvivors survivors).login env url name password =
      (conn.login env url name password).map (FormOutcome.withSurvivors survivors) := by
  simp only [login, setUrl_withSurvivors]
  split
  · have redirected := conn.toResponseState.addRedirect_withSurvivors survivors
      (loginHeaders env.sessionToken)
    simp only [Except.map, FormOutcome.withSurvivors, withSurvivors, redirected]
  · cases conn.setUrl url (ascii "/logError.html") <;> rfl

theorem formFields_withSurvivors (same : survivors.string = conn.string) :
    (conn.withSurvivors survivors).formFields = conn.formFields := by
  have string : (conn.withSurvivors survivors).string = conn.string := same
  have bytes : (conn.withSurvivors survivors).readBuf = conn.readBuf := rfl
  simp only [formFields, string, bytes]

/-- The slot of the form branch, with the rest of the URL behind the document root. -/
abbrev formSlot (conn : HttpConn) (url : Int) : HttpConn :=
  { conn with
    realFile := conn.realFile.store conn.docRoot.length
      (strncpy (47 :: conn.str (url + 2)) (filenameLen - conn.docRoot.length - 1)) }

theorem form_of_short (env : Env) (url p : Int)
    (short : (47 :: conn.str (url + 2)).length < 200) :
    conn.form env url p = (conn.formSlot url).formFields.bind fun fields =>
      if conn.readBuf (p + 1) = 51 then
        (conn.formSlot url).register env url fields.1 fields.2
      else (conn.formSlot url).login env url fields.1 fields.2 := by
  have fits : ¬ 200 ≤ (47 :: conn.str (url + 2)).length := by omega
  simp only [form]
  rw [if_neg fits]
  cases (conn.formSlot url).formFields <;> rfl

theorem form_withSurvivors (env : Env) (url p : Int)
    (same : (47 :: conn.str (url + 2)).length < 200 → survivors.string = conn.string) :
    (conn.withSurvivors survivors).form env url p =
      (conn.form env url p).map (FormOutcome.withSurvivors survivors) := by
  have text : (conn.withSurvivors survivors).str (url + 2) = conn.str (url + 2) := rfl
  by_cases short : (47 :: conn.str (url + 2)).length < 200
  · have fields : ((conn.withSurvivors survivors).formSlot url).formFields =
        (conn.formSlot url).formFields :=
      (conn.formSlot url).formFields_withSurvivors survivors (same short)
    rw [form_of_short _ env url p short,
      (conn.withSurvivors survivors).form_of_short env url p (text ▸ short), fields]
    cases (conn.formSlot url).formFields with
    | error fault => rfl
    | ok fields =>
        have byte : (conn.withSurvivors survivors).readBuf (p + 1) = conn.readBuf (p + 1) := rfl
        simp only [Except.bind, byte]
        split
        · exact (conn.formSlot url).register_withSurvivors survivors env url fields.1 fields.2
        · exact (conn.formSlot url).login_withSurvivors survivors env url fields.1 fields.2
  · have long : 200 ≤ (47 :: conn.str (url + 2)).length := by omega
    rw [form, form, text, if_pos long, if_pos long]
    rfl

theorem redirect_withSurvivors (env : Env) (headers : List (List UInt8))
    (sessions : List SessionCall) :
    (conn.withSurvivors survivors).redirect env headers sessions =
      (conn.redirect env headers sessions).withSurvivors survivors := by
  have redirected := conn.toResponseState.addRedirect_withSurvivors survivors headers
  simp only [redirect, Reply.withSurvivors, withSurvivors, redirected]

theorem route_withSurvivors (env : Env) (url p : Int)
    (users : List UInt8 → Option (List UInt8)) (sessions : List SessionCall) :
    (conn.withSurvivors survivors).route env url p users sessions =
      (conn.route env url p users sessions).map (Resolved.withSurvivors survivors) := by
  have bytes : (conn.withSurvivors survivors).readBuf = conn.readBuf := rfl
  have text : (conn.withSurvivors survivors).str url = conn.str url := rfl
  have root : (conn.withSurvivors survivors).docRoot = conn.docRoot := rfl
  simp only [route, bytes, text, root, redirect_withSurvivors]
  split
  · rfl
  · split
    · split <;> rfl
    · rfl

/-- The slot with the document root in `m_real_file`. -/
abbrev rootSlot (conn : HttpConn) : HttpConn :=
  { conn with realFile := conn.realFile.store 0 (conn.docRoot ++ [0]) }

/-- What follows the form branch in `do_request`. -/
def FormOutcome.resolve (env : Env) (url p : Int) (sessions : List SessionCall) :
    FormOutcome → Except Fault Resolved
  | .redirect conn username => .ok (.redirect {
      code := .redirectRequest
      conn := conn
      users := env.users
      sessions := sessions ++ [.create username] })
  | .goOn conn users => conn.route env url p users sessions

theorem resolve_of_form {env : Env} {url : Int} {sessions : List SessionCall} {slash : Nat}
    (short : conn.docRoot.length < filenameLen) (found : strrchr (conn.str url) 47 = some slash)
    (isForm : conn.cgi = 1 ∧
      (conn.readBuf (url + slash + 1) = 50 ∨ conn.readBuf (url + slash + 1) = 51)) :
    conn.resolve env url sessions =
      (conn.rootSlot.form env url (url + slash)).bind
        (FormOutcome.resolve env url (url + slash) sessions) := by
  have text : conn.rootSlot.str url = conn.str url := rfl
  simp only [resolve]
  rw [if_neg (Nat.not_le.mpr short), text, found]
  simp only []
  rw [if_pos isForm]
  cases conn.rootSlot.form env url (url + slash) with
  | error fault => rfl
  | ok outcome => cases outcome <;> rfl

/-- What resolves a request reads `m_string` in the form branch only. -/
theorem resolve_withSurvivors (env : Env) (url : Int) (sessions : List SessionCall)
    (same : conn.cgi = 1 → conn.ReadsForm url → survivors.string = conn.string) :
    (conn.withSurvivors survivors).resolve env url sessions =
      (conn.resolve env url sessions).map (Resolved.withSurvivors survivors) := by
  have root : (conn.withSurvivors survivors).docRoot = conn.docRoot := rfl
  have text : ∀ start, (conn.withSurvivors survivors).str start = conn.str start := fun _ => rfl
  by_cases long : filenameLen ≤ conn.docRoot.length
  · simp only [resolve, root]
    rw [if_pos long, if_pos long]
    rfl
  · have short : conn.docRoot.length < filenameLen := by omega
    cases found : strrchr (conn.str url) 47 with
    | none =>
        simp only [resolve, root]
        rw [if_neg long, if_neg long]
        simp only [text, found]
        rfl
    | some slash =>
        by_cases isForm : conn.cgi = 1 ∧
            (conn.readBuf (url + slash + 1) = 50 ∨ conn.readBuf (url + slash + 1) = 51)
        · have flag : conn.urlFlag url = some (conn.readBuf (url + slash + 1)) := by
            rw [urlFlag, found, Option.map_some]
          have formSame : ((conn.withSurvivors survivors).rootSlot).form env url (url + slash) =
              (conn.rootSlot.form env url (url + slash)).map
                (FormOutcome.withSurvivors survivors) :=
            conn.rootSlot.form_withSurvivors survivors env url (url + slash) fun fits =>
              same isForm.1 ⟨by omega, by rw [flag]; simpa using isForm.2, fits⟩
          rw [conn.resolve_of_form short found isForm,
            (conn.withSurvivors survivors).resolve_of_form short found isForm, formSame]
          cases conn.rootSlot.form env url (url + slash) with
          | error fault => rfl
          | ok outcome =>
              cases outcome with
              | redirect next username => rfl
              | goOn next users =>
                  exact next.route_withSurvivors survivors env url (url + slash) users sessions
        · have cgi : (conn.withSurvivors survivors).cgi = conn.cgi := rfl
          have bytes : (conn.withSurvivors survivors).readBuf = conn.readBuf := rfl
          simp only [resolve, root]
          rw [if_neg long, if_neg long]
          simp only [text, cgi, bytes, found]
          rw [if_neg isForm, if_neg isForm]
          exact conn.rootSlot.route_withSurvivors survivors env url (url + slash) env.users sessions

theorem staticFiles_withSurvivors (env : Env) (url : Int) (sessions : List SessionCall)
    (same : conn.cgi = 1 → conn.ReadsForm url → survivors.string = conn.string) :
    ((conn.withSurvivors survivors).staticFiles env url sessions).map Reply.answer =
      (conn.staticFiles env url sessions).map Reply.answer := by
  simp only [staticFiles, conn.resolve_withSurvivors survivors env url sessions same]
  cases resolved : conn.resolve env url sessions with
  | error fault => rfl
  | ok result =>
      cases result with
      | redirect reply =>
          have notFile : reply.code ≠ .fileRequest := by
            rcases resolve_cases resolved with ⟨_, _, isReply, isRedirect⟩ | ⟨_, _, _, _, other, _⟩
            · cases isReply
              rw [isRedirect.code]
              decide
            · contradiction
          exact congrArg Except.ok
            (Reply.answer_withSurvivors fun file => absurd file notFile)
      | file target users sessions =>
          exact congrArg Except.ok
            (target.serveFile_withSurvivors survivors env true users sessions)

theorem diagnosePost_withSurvivors (env : Env) (sessions : List SessionCall)
    (same : survivors.string = conn.string) :
    ((conn.withSurvivors survivors).diagnosePost env sessions).map Reply.answer =
      (conn.diagnosePost env sessions).map Reply.answer := by
  have string : (conn.withSurvivors survivors).string = conn.string := same
  have bytes : ∀ text, (conn.withSurvivors survivors).str text = conn.str text := fun _ => rfl
  simp only [diagnosePost, string, bytes]
  cases conn.string with
  | none => rfl
  | some text =>
      simp only []
      cases diagnoseRequest env.json env.models (conn.str text) with
      | error fault => rfl
      | ok result =>
          cases result with
          | json json =>
              exact congrArg Except.ok (@Reply.answer_withSurvivors
                ⟨.diagnoseRequest, { conn with responseJson := json }, env.users, sessions⟩
                survivors (by simp))
          | csv csv =>
              exact congrArg Except.ok (@Reply.answer_withSurvivors
                ⟨.diagnoseCsvRequest, { conn with responseCsv := csv }, env.users, sessions⟩
                survivors (by simp))

theorem rootPage_withSurvivors (env : Env) (sessions : List SessionCall) :
    ((conn.withSurvivors survivors).rootPage env sessions).map Reply.answer =
      (conn.rootPage env sessions).map Reply.answer := by
  have root : (conn.withSurvivors survivors).docRoot = conn.docRoot := rfl
  simp only [rootPage, root]
  split
  · rfl
  · exact congrArg Except.ok
      (conn.rootFile.serveFile_withSurvivors survivors env false env.users sessions)

/-- What `do_request` comes to does not depend on the surviving members, but for `m_string`
where it reads it. -/
theorem doRequest_withSurvivors (env : Env)
    (same : conn.ReadsString → survivors.string = conn.string) :
    ((conn.withSurvivors survivors).doRequest env).map Reply.answer =
      (conn.doRequest env).map Reply.answer := by
  have isUrl : (conn.withSurvivors survivors).url = conn.url := rfl
  have text : ∀ start, (conn.withSurvivors survivors).str start = conn.str start := fun _ => rfl
  have cookie : (conn.withSurvivors survivors).cookie = conn.cookie := rfl
  simp only [doRequest, isUrl, cookie]
  cases found : conn.url with
  | none => rfl
  | some url =>
      have login : (conn.withSurvivors survivors).Guarded url ↔ conn.Guarded url := Iff.rfl
      have behind : ∀ sessions,
          ((conn.withSurvivors survivors).afterLogin env url sessions).map Reply.answer =
            (conn.afterLogin env url sessions).map Reply.answer := by
        intro sessions
        have cgi : (conn.withSurvivors survivors).cgi = conn.cgi := rfl
        simp only [afterLogin, text, cgi]
        split
        case isTrue diagnosis =>
            exact conn.diagnosePost_withSurvivors survivors env sessions
              (same ⟨diagnosis.1, url, found, .inl diagnosis.2⟩)
        case isFalse =>
            exact conn.staticFiles_withSurvivors survivors env url sessions
              fun post reads => same ⟨post, url, found, .inr reads⟩
      simp only [login, text]
      split
      · cases env.checkSession conn.cookie with
        | mk valid sessions =>
            cases valid with
            | false =>
                simp only [redirect_withSurvivors]
                exact congrArg Except.ok (@Reply.answer_withSurvivors
                  (conn.redirect env notLoggedInHeaders sessions) survivors (by simp [redirect]))
            | true =>
                simp only []
                split
                · exact conn.rootPage_withSurvivors survivors env sessions
                · exact behind sessions
      · exact behind []

end HttpConn

end TimeGANWebServer.Http
