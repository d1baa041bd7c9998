import TimeGANWebServer.Http.Conn
import TimeGANWebServer.Support.Loop

/-!
# Reading and parsing a request

`read_once`, `parse_line`, `parse_request_line`, `parse_headers`,
`parse_content` and the loop of `process_read` in `http/http_conn.cpp`.  The
parser keeps its cursors between calls: `m_read_idx` ends the received bytes,
`m_checked_idx` the scanned ones, and `m_start_line` starts the current line.
-/

namespace TimeGANWebServer.Http

open TimeGANWebServer.Support

namespace RequestState

/-! ## Receiving -/

/-- Append received bytes behind `m_read_idx`. -/
def receive (request : RequestState) (bytes : List UInt8) : RequestState :=
  { request with
    readBuf := request.readBuf.store request.readIdx bytes
    readIdx := request.readIdx + bytes.length }

end RequestState

/-- The outcome of one `recv` on a non-blocking socket: some bytes, end of stream
(result 0), `EAGAIN`, or another error. -/
inductive RecvResult where
  | data (bytes : List UInt8)
  | closed
  | again
  | failed
  deriving DecidableEq, Repr

namespace RequestState

/-- A `recv` can return these bytes: at least one, and no more than it asked for. -/
def Fits (request : RequestState) (bytes : List UInt8) : Prop :=
  bytes ≠ [] ∧ request.readIdx + bytes.length ≤ readBufferSize

instance (request : RequestState) (bytes : List UInt8) : Decidable (request.Fits bytes) :=
  inferInstanceAs (Decidable (_ ∧ _))

/-- The loop of `read_once` in edge-triggered mode over the results of its `recv`
calls.  `none` when they are not results these calls can have. -/
def readLoop (request : RequestState) : List RecvResult → Option (Bool × RequestState)
  | [] => none
  | .data bytes :: results =>
      if request.Fits bytes then (request.receive bytes).readLoop results else none
  | .again :: _ => some (true, request)
  | .closed :: _ => some (false, request)
  | .failed :: _ => some (false, request)

/-- `http_conn::read_once`, given the results of its `recv` calls. -/
def readOnce (request : RequestState) (trigMode : Int) (results : List RecvResult) :
    Option (Bool × RequestState) :=
  if readBufferSize ≤ request.readIdx then
    some (false, request)
  else if trigMode = 0 then
    match results with
    | [] => none
    | .data bytes :: _ =>
        if request.Fits bytes then some (true, request.receive bytes) else none
    | .closed :: _ => some (false, request)
    -- The result -1 is added to m_read_idx before it is tested.
    | .again :: _ => some (false, { request with readIdx := request.readIdx - 1 })
    | .failed :: _ => some (false, { request with readIdx := request.readIdx - 1 })
  else
    request.readLoop results

/-! ## Lines -/

/-- The loop of `parse_line`, with the number of bytes left to scan. -/
def parseLineLoop : Nat → RequestState → LineStatus × RequestState
  | 0, request => (.open, request)
  | left + 1, request =>
      let temp := request.readBuf request.checkedIdx
      if temp = 13 then
        if request.checkedIdx + 1 = request.readIdx then
          (.open, request)
        else if request.readBuf (request.checkedIdx + 1) = 10 then
          (.ok, { request with
            readBuf := (request.readBuf.set request.checkedIdx 0).set (request.checkedIdx + 1) 0
            checkedIdx := request.checkedIdx + 2 })
        else
          (.bad, request)
      else if temp = 10 then
        if 1 < request.checkedIdx ∧ request.readBuf (request.checkedIdx - 1) = 13 then
          (.ok, { request with
            readBuf := (request.readBuf.set (request.checkedIdx - 1) 0).set request.checkedIdx 0
            checkedIdx := request.checkedIdx + 1 })
        else
          (.bad, request)
      else
        parseLineLoop left { request with checkedIdx := request.checkedIdx + 1 }

/-- `http_conn::parse_line`. -/
def parseLine (request : RequestState) : LineStatus × RequestState :=
  parseLineLoop (request.readIdx - request.checkedIdx).toNat request

/-! ## The request line -/

/-- The blanks `" \t"`. -/
def blanks : List UInt8 := [32, 9]

/-- One of the two tests that strip a scheme: if the string at `url` begins with
`scheme`, go to the first `'/'` behind it, which may be missing. -/
def skipScheme (request : RequestState) (url : Int) (scheme : List UInt8) : Option Int :=
  if strncasecmp (request.str url) scheme scheme.length then
    (strchr (request.str (url + scheme.length)) 47).map fun (offset : Nat) =>
      url + scheme.length + offset
  else
    some url

/-- The end of `parse_request_line`, from the scheme tests on.  The second test
reads `*m_url` although the first may have set `m_url` to null. -/
def parseUrl (request : RequestState) (url : Int) :
    Except Fault (HttpCode × RequestState) :=
  match request.skipScheme url (ascii "http://") with
  | none => .error .nullPointer
  | some url =>
      match request.skipScheme url (ascii "https://") with
      | none => .ok (.badRequest, { request with url := none })
      | some url =>
          if request.readBuf url = 47 then
            .ok (.noRequest, { request with url := some url, checkState := .header })
          else
            .ok (.badRequest, { request with url := some url })

/-- The middle of `parse_request_line`: find the target and the version behind
the method. -/
def parseTarget (request : RequestState) (afterMethod : Int) :
    Except Fault (HttpCode × RequestState) :=
  let url := afterMethod + strspn (request.str afterMethod) blanks
  match strpbrk (request.str url) blanks with
  | none => .ok (.badRequest, { request with url := some url, version := none })
  | some gap =>
      let request := { request with readBuf := request.readBuf.set (url + gap) 0 }
      let afterTarget := url + gap + 1
      let version := afterTarget + strspn (request.str afterTarget) blanks
      let request := { request with url := some url, version := some version }
      if strcasecmp (request.str version) (ascii "HTTP/1.1") then
        request.parseUrl url
      else
        .ok (.badRequest, request)

/-- `http_conn::parse_request_line`. -/
def parseRequestLine (request : RequestState) (text : Int) :
    Except Fault (HttpCode × RequestState) :=
  match strpbrk (request.str text) blanks with
  | none => .ok (.badRequest, { request with url := none })
  | some gap =>
      let afterMethod := text + gap + 1
      let request :=
        { request with readBuf := request.readBuf.set (text + gap) 0, url := some afterMethod }
      if strcasecmp (request.str text) (ascii "GET") then
        parseTarget { request with method := .get } afterMethod
      else if strcasecmp (request.str text) (ascii "POST") then
        parseTarget { request with method := .post, cgi := 1 } afterMethod
      else
        .ok (.badRequest, request)

/-! ## Headers and content -/

/-- Where the value of a header begins, behind its name and blanks. -/
def valueOffset (line name : List UInt8) : Nat :=
  name.length + strspn (line.drop name.length) blanks

/-- `http_conn::parse_headers`. -/
def parseHeaders (request : RequestState) (text : Int) : HttpCode × RequestState :=
  let line := request.str text
  if request.readBuf text = 0 then
    if request.contentLength ≠ 0 then
      (.noRequest, { request with checkState := .content })
    else
      (.getRequest, request)
  else if strncasecmp line (ascii "Connection:") 11 then
    if strcasecmp (line.drop (valueOffset line (ascii "Connection:"))) (ascii "keep-alive") then
      (.noRequest, { request with linger := true })
    else
      (.noRequest, request)
  else if strncasecmp line (ascii "Content-length:") 15 then
    let value := line.drop (valueOffset line (ascii "Content-length:"))
    (.noRequest, { request with contentLength := toInt32 (atol value) })
  else if strncasecmp line (ascii "Host:") 5 then
    (.noRequest, { request with host := some (text + valueOffset line (ascii "Host:")) })
  else if strncasecmp line (ascii "Cookie:") 7 then
    (.noRequest, { request with cookie := line.drop (valueOffset line (ascii "Cookie:")) })
  else
    (.noRequest, request)

/-- `http_conn::parse_content`. -/
def parseContent (request : RequestState) (text : Int) : Except Fault (HttpCode × RequestState) :=
  -- The length is an `int` and `m_checked_idx` is not negative: the sum can only be too large.
  if 2 ^ 31 ≤ request.contentLength + request.checkedIdx then
    .error .integerOverflow
  else if request.contentLength + request.checkedIdx ≤ request.readIdx then
    if text + request.contentLength < 0 ∨ readBufferSize ≤ text + request.contentLength then
      .error .bufferOverflow
    else
      .ok (.getRequest,
        { request with
          readBuf := request.readBuf.set (text + request.contentLength) 0
          string := some text })
  else
    .ok (.noRequest, request)

end RequestState

/-! ## The loop of `process_read` -/

/-- How the loop of `process_read` ends: it returns a code, calls `do_request`,
or runs into undefined behavior at some line. -/
inductive ReadOutcome where
  | code (ret : HttpCode) (request : RequestState)
  | request (request : RequestState)
  | fault (fault : Fault) (request : RequestState)

/-- The parser of a request for `do_request`. -/
def ReadOutcome.served : ReadOutcome → Option RequestState
  | .request next => some next
  | .code _ _ => none
  | .fault _ _ => none

/-- The parser when the loop returns a code. -/
def ReadOutcome.returned : ReadOutcome → Option RequestState
  | .code _ next => some next
  | .request _ => none
  | .fault _ _ => none

namespace RequestState

/-- The switch in `process_read` on a line, with `line_status` afterwards. -/
def processLine (request : RequestState) : Pass (LineStatus × RequestState) ReadOutcome :=
  let text := request.startLine
  let request := { request with startLine := request.checkedIdx }
  match request.checkState with
  | .requestLine =>
      match request.parseRequestLine text with
      | .error fault => .done (.fault fault request)
      | .ok (.badRequest, request) => .done (.code .badRequest request)
      | .ok (_, request) => .again (.ok, request)
  | .header =>
      match request.parseHeaders text with
      | (.badRequest, request) => .done (.code .badRequest request)
      | (.getRequest, request) => .done (.request request)
      | (_, request) => .again (.ok, request)
  | .content =>
      match request.parseContent text with
      | .error fault => .done (.fault fault request)
      | .ok (.getRequest, request) => .done (.request request)
      | .ok (_, request) => .again (.open, request)

/-- One pass of the loop in `process_read`, including its condition.  A body needs
no complete line, unless the last pass found bytes of it missing. -/
def processPass : LineStatus × RequestState → Pass (LineStatus × RequestState) ReadOutcome
  | (lineStatus, request) =>
      if request.checkState = .content ∧ lineStatus = .ok then
        request.processLine
      else
        match request.parseLine with
        | (.ok, request) => request.processLine
        | (_, request) => .done (.code .noRequest request)

/-- A bound on the passes left: each one but a body's first consumes a line. -/
def passBound : LineStatus × RequestState → Nat
  | (lineStatus, request) =>
      2 * (request.readIdx - request.checkedIdx).toNat +
        if request.checkState = .content ∧ lineStatus = .ok then 1 else 0

/-- `process_read` up to its call of `do_request`. -/
def processRead (request : RequestState) : Option ReadOutcome :=
  Loop.run processPass passBound (.ok, request)

end RequestState

end TimeGANWebServer.Http
