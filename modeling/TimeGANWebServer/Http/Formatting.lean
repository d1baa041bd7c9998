import TimeGANWebServer.Http.RequestLine
import TimeGANWebServer.Http.Response
import TimeGANWebServer.Http.Resume
import TimeGANWebServer.Http.Segmentation

/-!
# Parsing what was formatted

A well-formed request is printed from a method, a target, header lines and a body.
`process_read` finds them again: no later line and no NUL behind the body touches the
strings the earlier lines have left in the read buffer.
-/

namespace TimeGANWebServer.Http

open TimeGANWebServer.Support

/-- The name of a method the parser knows. -/
def methodName : Method → List UInt8
  | .post => ascii "POST"
  | _ => ascii "GET"

/-- The text of a request. -/
def requestText (method : Method) (target : List UInt8) (headers : List (List UInt8))
    (body : List UInt8) : List UInt8 :=
  sendLines ((methodName method ++ 32 :: (target ++ 32 :: ascii "HTTP/1.1")) :: headers) ++ crlf ++
    body

/-- The value of a header line with a name: what follows the name and blanks. -/
def headerValue (name line : List UInt8) : Option (List UInt8) :=
  if strncasecmp line name name.length then
    some ((line.drop name.length).dropWhile fun byte => RequestState.blanks.contains byte)
  else
    none

/-- The values of all header lines with a name. -/
def headerValues (name : List UInt8) (headers : List (List UInt8)) : List (List UInt8) :=
  headers.filterMap (headerValue name)

/-- The last `Content-Length` is the length of the body, or there is neither a body nor a
length other than zero. -/
def BodyDeclared (headers : List (List UInt8)) (body : List UInt8) : Prop :=
  body ≠ [] ∧ (headerValues (ascii "Content-length:") headers).getLast? =
    some (decimal body.length) ∨
    body = [] ∧ ∀ value ∈ headerValues (ascii "Content-length:") headers, atol value = 0

namespace RequestState

/-! ## Header lines -/

/-- What the parser has taken from header lines. -/
structure Seen (headers : List (List UInt8)) (request : RequestState) : Prop where
  host : request.host.map request.str = (headerValues (ascii "Host:") headers).getLast?
  cookie : request.cookie = (headerValues (ascii "Cookie:") headers).getLast?.getD []
  linger : request.linger = true ↔ ∃ value ∈ headerValues (ascii "Connection:") headers,
    strcasecmp value (ascii "keep-alive") = true
  contentLength : request.contentLength =
    ((headerValues (ascii "Content-length:") headers).getLast?.map fun value =>
      toInt32 (atol value)).getD 0

/-- A line has one of two names at most, if these differ in a letter. -/
theorem named_ne {line left right : List UInt8} (index : Nat) (inLeft : index < left.length)
    (inRight : index < right.length)
    (different : left[index]?.map tolower ≠ right[index]?.map tolower)
    (named : strncasecmp line left left.length = true) : headerValue right line = none := by
  refine if_neg fun other => different ?_
  rw [← strncasecmp_getElem? named inLeft, strncasecmp_getElem? other inRight]

theorem headerValue_of_named {line name : List UInt8}
    (named : strncasecmp line name name.length = true) :
    headerValue name line = some (line.drop (valueOffset line name)) := by
  have skipped := congrArg (List.drop (strspn (line.drop name.length) blanks))
    (@List.takeWhile_append_dropWhile _ (fun byte => blanks.contains byte) (line.drop name.length))
  rw [headerValue, if_pos named, valueOffset, ← List.drop_drop, ← skipped, strspn,
    List.drop_left' rfl]

theorem headerValues_concat_some {name line value : List UInt8} (headers : List (List UInt8))
    (found : headerValue name line = some value) :
    headerValues name (headers ++ [line]) = headerValues name headers ++ [value] := by
  simp [headerValues, found]

theorem headerValues_concat_none {name line : List UInt8} (headers : List (List UInt8))
    (none : headerValue name line = none) :
    headerValues name (headers ++ [line]) = headerValues name headers := by
  simp [headerValues, none]

/-- A line with one name adds nothing to the values of another. -/
theorem headerValues_concat_other {line named name : List UInt8} (headers : List (List UInt8))
    (matched : strncasecmp line named named.length = true) (index : Nat)
    (inNamed : index < named.length) (inName : index < name.length)
    (different : named[index]?.map tolower ≠ name[index]?.map tolower) :
    headerValues name (headers ++ [line]) = headerValues name headers :=
  headerValues_concat_none headers (named_ne index inNamed inName different matched)

/-- One header line more has been seen. -/
theorem Seen.parseHeaders {headers : List (List UInt8)} {request : RequestState}
    (seen : Seen headers request) {text : Int} {line : List UInt8}
    (str : request.str text = line) (nonblank : request.readBuf text ≠ 0) :
    Seen (headers ++ [line]) (request.parseHeaders text).2 := by
  obtain ⟨host, cookie, linger, contentLength⟩ := seen
  have found := fun name named => @headerValues_concat_some name line _ headers
    (headerValue_of_named named)
  have other := fun named name => @headerValues_concat_other line named name headers
  have missed := fun name unnamed => @headerValues_concat_none name line headers (if_neg unnamed)
  simp only [RequestState.parseHeaders, if_neg nonblank, str]
  split
  case isTrue connection =>
      have hosts := other _ (ascii "Host:") connection 0 (by decide) (by decide) (by decide)
      have cookies := other _ (ascii "Cookie:") connection 2 (by decide) (by decide) (by decide)
      have lengths := other _ (ascii "Content-length:") connection 3 (by decide) (by decide)
        (by decide)
      have connections := found (ascii "Connection:") connection
      split
      case isTrue keepAlive =>
          refine ⟨hosts ▸ host, cookies ▸ cookie, ?_, lengths ▸ contentLength⟩
          simp [connections, keepAlive]
      case isFalse close =>
          refine ⟨hosts ▸ host, cookies ▸ cookie, ?_, lengths ▸ contentLength⟩
          rw [linger, connections]
          simp [close]
  case isFalse notConnection =>
      have connections := missed (ascii "Connection:") notConnection
      split
      case isTrue length =>
          have hosts := other _ (ascii "Host:") length 0 (by decide) (by decide) (by decide)
          have cookies := other _ (ascii "Cookie:") length 2 (by decide) (by decide) (by decide)
          have lengths := found (ascii "Content-length:") length
          refine ⟨hosts ▸ host, cookies ▸ cookie, connections ▸ linger, ?_⟩
          rw [lengths, List.getLast?_concat]
          rfl
      case isFalse notLength =>
          have lengths := missed (ascii "Content-length:") notLength
          split
          case isTrue isHost =>
              have cookies := other _ (ascii "Cookie:") isHost 0 (by decide) (by decide) (by decide)
              have hosts := found (ascii "Host:") isHost
              have inside := @valueOffset_le line (ascii "Host:") isHost
              refine ⟨?_, cookies ▸ cookie, connections ▸ linger, lengths ▸ contentLength⟩
              rw [← str] at inside
              rw [hosts, List.getLast?_concat, Option.map_some, ← str]
              exact congrArg some (str_drop inside)
          case isFalse notHost =>
              have hosts := missed (ascii "Host:") notHost
              split
              case isTrue isCookie =>
                  have cookies := found (ascii "Cookie:") isCookie
                  refine ⟨hosts ▸ host, ?_, connections ▸ linger, lengths ▸ contentLength⟩
                  rw [cookies, List.getLast?_concat]
                  rfl
              case isFalse notCookie =>
                  have cookies := missed (ascii "Cookie:") notCookie
                  exact ⟨hosts ▸ host, cookies ▸ cookie, connections ▸ linger,
                    lengths ▸ contentLength⟩

/-! ## One read -/

/-- What the parser has taken from the request line and header lines. -/
structure Found (method : Method) (target : List UInt8) (headers : List (List UInt8))
    (request : RequestState) : Prop where
  isMethod : request.method = method
  cgi : request.cgi = if method = .post then 1 else 0
  url : request.url.map request.str = some target
  seen : Seen headers request

theorem parseHeaders_request (request : RequestState) (text : Int) :
    let next := (request.parseHeaders text).2
    next.method = request.method ∧ next.cgi = request.cgi ∧
      next.url.map next.str = request.url.map request.str := by
  simp only [RequestState.parseHeaders]
  repeat' split
  all_goals exact ⟨rfl, rfl, rfl⟩

/-- What happens behind the strings leaves them as they are. -/
theorem SameHead.found {limit : Int} {before after : RequestState} {method : Method}
    {target : List UInt8} {headers : List (List UInt8)} (same : SameHead limit before after)
    (anchored : before.Anchored limit) (room : limit ≤ readBufferSize)
    (found : Found method target headers before) : Found method target headers after := by
  have fields := same.fields anchored room
  have urls := congrArg (fun fields => fields.url.map Prod.snd) fields
  have hosts := congrArg (fun fields => fields.host.map Prod.snd) fields
  simp only [RequestState.fields, Option.map_map] at urls hosts
  obtain ⟨isMethod, cgi, url, seen⟩ := found
  refine ⟨same.method.trans isMethod, same.cgi.trans cgi, urls.trans url,
    ⟨hosts.trans seen.host, same.cookie.trans seen.cookie, ?_,
      same.contentLength.trans seen.contentLength⟩⟩
  rw [same.linger]
  exact seen.linger

/-- An ended line leaves the strings in front of it as they are. -/
theorem sameHead_endLine {request : RequestState} {stop : Int}
    (ordered : request.startLine ≤ stop) :
    SameHead request.startLine request { request.endLine stop with startLine := stop + 2 } :=
  ⟨rfl, rfl, rfl, rfl, rfl, rfl, rfl, rfl, fun index low =>
    (Memory.set_of_ne 0 (by omega)).trans (Memory.set_of_ne 0 (by omega))⟩

/-- A line without NUL and line ends. -/
def Clean (line : List UInt8) : Prop :=
  ∀ byte ∈ line, byte ≠ 0 ∧ Plain byte

theorem Clean.takeWhile {line : List UInt8} (clean : Clean line) :
    line.takeWhile (· ≠ 0) = line :=
  List.takeWhile_eq_self_iff.mpr fun byte member => by simpa using (clean byte member).1

/-- `process_read` on a header line. -/
theorem InHead.run_header {request : RequestState} (inHead : request.InHead) {start : Nat}
    {line rest following : List UInt8} {method : Method} {target : List UInt8}
    {headers : List (List UInt8)} (header : request.checkState = .header)
    (inLine : request.InLine start line (line ++ 13 :: 10 :: rest)) (clean : Clean line)
    (nonempty : line ≠ []) (found : Found method target headers request) :
    ∃ next, request.processRead = next.processRead ∧ next.InHead ∧ next.checkState = .header ∧
      next.InLine (start + line.length + 2) following rest ∧ next.readIdx = request.readIdx ∧
      Found method target (headers ++ [line]) next := by
  obtain ⟨stop, ok, atEnd, ended, short⟩ :=
    inHead.cursors.parseLine_ended inLine fun byte member => (clean byte member).2
  have nonblank : line.takeWhile (· ≠ 0) ≠ [] := by rwa [clean.takeWhile]
  obtain ⟨next, passed, nextLine, nextHeader, _, isNext⟩ :=
    ended.processLine_header following short header nonblank
  have headPass := atEnd.headPass (inHead.anchored_endLine atEnd.inside) inHead.notBody
  have pass := (processPass_of_line .ok inHead.notBody ok).trans passed
  rw [passed] at headPass
  cases headPass with
  | again cursors anchored _ received =>
      have limit : request.startLine ≤ readBufferSize := by
        have start := inLine.startLine
        omega
      have kept := (@sameHead_endLine request stop atEnd.inside).found inHead.anchored limit found
      have first : (request.endLine stop).readBuf start ≠ 0 := by
        obtain ⟨byte, rest, rfl⟩ := List.exists_cons_of_ne_nil nonempty
        have held := ended.holdsLine 0 (Nat.zero_lt_succ _)
        simp only [Int.natCast_zero, Int.add_zero, List.getElem_cons_zero] at held
        rw [held]
        exact (clean byte List.mem_cons_self).1
      have str := (ended.str short).trans clean.takeWhile
      have parsed := parseHeaders_request
        { request.endLine stop with startLine := (request.endLine stop).checkedIdx } start
      have seen := kept.seen.parseHeaders str first
      refine ⟨next, Loop.run_of_again processPass_falls pass, ⟨cursors, anchored, ?_⟩, nextHeader,
        nextLine, received, ?_⟩
      · rw [nextHeader]
        decide
      · rw [isNext]
        exact ⟨parsed.1.trans kept.isMethod, parsed.2.1.trans kept.cgi, parsed.2.2.trans kept.url,
          seen⟩

/-- `process_read` on all header lines. -/
theorem InHead.run_headers {request : RequestState} (inHead : request.InHead) {start : Nat}
    {body : List UInt8} {method : Method} {target : List UInt8} {before headers : List (List UInt8)}
    (header : request.checkState = .header)
    (inLine : request.InLine start (headers.headD []) (sendLines headers ++ crlf ++ body))
    (clean : ∀ line ∈ headers, Clean line ∧ line ≠ [])
    (found : Found method target before request) :
    ∃ next, ∃ last : Nat, request.processRead = next.processRead ∧ next.InHead ∧
      next.checkState = .header ∧ next.InLine last [] (crlf ++ body) ∧
      next.readIdx = request.readIdx ∧ Found method target (before ++ headers) next := by
  induction headers generalizing request start before with
  | nil => exact ⟨request, start, rfl, inHead, header, inLine, rfl, by rwa [List.append_nil]⟩
  | cons line headers ih =>
      have whole : sendLines (line :: headers) ++ crlf ++ body =
          line ++ 13 :: 10 :: (sendLines headers ++ crlf ++ body) := by simp
      rw [whole] at inLine
      obtain ⟨lineClean, nonempty⟩ := clean line List.mem_cons_self
      obtain ⟨next, comes, nextHead, nextHeader, nextLine, received, nextFound⟩ :=
        inHead.run_header header inLine lineClean nonempty found
      obtain ⟨last, final, goesOn, lastHead, lastHeader, lastLine, lastReceived, lastFound⟩ :=
        ih nextHead nextHeader nextLine
          (fun line member => clean line (List.mem_cons_of_mem _ member))
          nextFound
      refine ⟨last, final, comes.trans goesOn, lastHead, lastHeader, lastLine,
        lastReceived.trans received, ?_⟩
      rwa [List.append_assoc] at lastFound

theorem processLine_of_requestLine {request next : RequestState}
    (atLine : request.checkState = .requestLine)
    (parsed : RequestState.parseRequestLine { request with startLine := request.checkedIdx }
      request.startLine = .ok (.noRequest, next)) : request.processLine = .again (.ok, next) := by
  simp only [processLine, atLine] at parsed ⊢
  rw [parsed]

theorem methodName_clean (method : Method) : Clean (methodName method) := by
  unfold Clean Plain
  cases method <;> decide

theorem version_clean : Clean (ascii "HTTP/1.1") := by
  unfold Clean Plain
  decide

/-- `process_read` on the request line. -/
theorem InHead.run_requestLine {request : RequestState} (inHead : request.InHead)
    {path rest : List UInt8} (following : List UInt8) {method : Method}
    (supported : method = .get ∨ method = .post)
    (atLine : request.checkState = .requestLine) (cgi : request.cgi = 0)
    (seen : Seen [] request) (clean : Clean path) (plain : ∀ byte ∈ path, byte ∉ blanks)
    (inLine : request.InLine 0 (methodName method ++ 32 :: (47 :: path ++ 32 :: ascii "HTTP/1.1"))
      (methodName method ++ 32 :: (47 :: path ++ 32 :: ascii "HTTP/1.1") ++ 13 :: 10 :: rest)) :
    ∃ next, ∃ start : Nat, request.processRead = next.processRead ∧ next.InHead ∧
      next.checkState = .header ∧ next.InLine start following rest ∧
      next.readIdx = request.readIdx ∧ Found method (47 :: path) [] next := by
  generalize atText : methodName method ++ 32 :: (47 :: path ++ 32 :: ascii "HTTP/1.1") =
    line at inLine
  have lineClean : Clean line := by
    rw [← atText]
    intro byte member
    simp only [List.mem_append, List.mem_cons] at member
    rcases member with inName | rfl | (rfl | inPath) | rfl | inVersion
    · exact methodName_clean method byte inName
    · unfold Plain
      decide
    · unfold Plain
      decide
    · exact clean byte inPath
    · unfold Plain
      decide
    · exact version_clean byte inVersion
  obtain ⟨stop, ok, atEnd, ended, short⟩ :=
    inHead.cursors.parseLine_ended inLine fun byte member => (lineClean byte member).2
  have str := (ended.str short).trans lineClean.takeWhile
  have stopRoom : stop < readBufferSize := by
    have room := atEnd.cursors.room
    have read := atEnd.cursors.read
    have checked := atEnd.checkedIdx
    omega
  have named : methodName method = ascii "GET" ∧ method = .get ∧
      (if method = .post then 1 else 0) = request.cgi ∨
    methodName method = ascii "POST" ∧ method = .post ∧
      (if method = .post then 1 else 0 : Int) = 1 := by
    rcases supported with rfl | rfl
    · exact .inl ⟨rfl, rfl, cgi.symm⟩
    · exact .inr ⟨rfl, rfl, rfl⟩
  have startLine : (request.endLine stop).startLine = (0 : Nat) := ended.startLine
  obtain ⟨readBuf, url, version, parsed, _, _, target⟩ := @parseRequestLine_wellFormed
    { request.endLine stop with startLine := (request.endLine stop).checkedIdx }
    (0 : Nat) stop (startLine ▸ atEnd.inside) atEnd.nul stopRoom _ path method _ named plain
    (str.trans atText.symm)
  have kept := (parseRequestLine_keeps parsed).1
  have passed := @processLine_of_requestLine (request.endLine stop) _ atLine
    (startLine.symm ▸ parsed)
  have headPass := atEnd.headPass (inHead.anchored_endLine atEnd.inside) inHead.notBody
  have pass := (processPass_of_line .ok inHead.notBody ok).trans passed
  rw [passed] at headPass
  cases headPass with
  | again cursors anchored =>
      have noHost : request.host = none := Option.map_eq_none_iff.mp seen.host
      exact ⟨_, _, Loop.run_of_again processPass_falls pass,
        ⟨cursors, anchored, CheckState.noConfusion⟩, rfl,
        ended.next following kept, rfl, rfl, rfl, congrArg some target,
        by simp [headerValues, endLine, noHost], seen.cookie, seen.linger, seen.contentLength⟩

/-- The length the parser has taken from the header lines is that of the body. -/
theorem Seen.length_of_declared {headers : List (List UInt8)} {body : List UInt8}
    {request : RequestState} (seen : Seen headers request) (declared : BodyDeclared headers body)
    (short : body.length < readBufferSize) : request.contentLength = body.length := by
  have size : readBufferSize = 65536 := rfl
  rw [seen.contentLength]
  rcases declared with ⟨_, last⟩ | ⟨rfl, zero⟩
  · rw [last, Option.map_some, Option.getD_some, atol_decimal (by omega) (by omega)]
    exact toInt32_of_lt (by omega) (by omega)
  · cases found : (headerValues (ascii "Content-length:") headers).getLast? with
    | none => rfl
    | some value =>
        rw [Option.map_some, Option.getD_some, zero value (List.mem_of_getLast? found)]
        rfl

/-- `process_read` on the blank line and the body. -/
theorem InHead.run_blank {request : RequestState} (inHead : request.InHead) {start : Nat}
    {body : List UInt8} {method : Method} {target : List UInt8} {headers : List (List UInt8)}
    (header : request.checkState = .header) (inLine : request.InLine start [] (crlf ++ body))
    (found : Found method target headers request) (length : request.contentLength = body.length)
    (room : request.readIdx < readBufferSize) :
    ∃ next, request.processRead = some (.request next) ∧ Found method target headers next ∧
      (body ≠ [] → next.Denotes body ∧
        next.string.map next.str = some (body.takeWhile (· ≠ 0))) := by
  have inLine : request.InLine start [] ([] ++ 13 :: 10 :: body) := inLine
  obtain ⟨stop, ok, atEnd, ended, short⟩ := inHead.cursors.parseLine_ended inLine nofun
  have pass := processPass_of_line .ok inHead.notBody ok
  have startLine := ended.startLine
  have limit : request.startLine ≤ readBufferSize := by
    have start := inLine.startLine
    simp only [List.length_nil] at short
    omega
  have kept := (@sameHead_endLine request stop atEnd.inside).found inHead.anchored limit found
  cases body with
  | nil =>
      have zero : (request.endLine stop).contentLength = 0 := length
      have done := @processLine_blank (request.endLine stop) header (ended.blank rfl)
      rw [if_neg (not_not_intro zero)] at done
      exact ⟨_, Loop.run_of_done (pass.trans done), kept, fun nonempty => absurd rfl nonempty⟩
  | cons byte body =>
      have positive : (request.endLine stop).contentLength ≠ 0 := by
        have same : (request.endLine stop).contentLength = (byte :: body).length := length
        rw [same, List.length_cons]
        omega
      have blank := ended.processLine_blank header positive
      have checkedIdx := ended.checkedIdx
      have readIdx := ended.readIdx
      have holds := ended.holdsRest
      have counted : (request.endLine stop).contentLength = (byte :: body).length := length
      simp only [List.length_nil, Nat.add_zero] at checkedIdx readIdx holds
      let entered : RequestState := { request.endLine stop with
        startLine := (request.endLine stop).checkedIdx
        checkState := .content }
      have moved : entered.startLine = (start + 2 : Nat) := checkedIdx
      have total : entered.startLine + entered.contentLength =
          entered.startLine + (byte :: body).length := congrArg _ counted
      have complete : entered.contentLength + entered.checkedIdx ≤ entered.readIdx := by
        simp only [entered]
        omega
      have inside : entered.readIdx < readBufferSize := room
      have fresh : entered.checkedIdx = entered.startLine := rfl
      have done := (processPass_of_body rfl).trans
        (processLine_complete rfl (Int.le_of_lt inside) complete (by omega) (by omega))
      refine ⟨_, (Loop.run_of_again processPass_falls (pass.trans blank)).trans
        (Loop.run_of_done done), ?_, fun _ => ?_⟩
      · have behind : SameHead request.startLine
            { request.endLine stop with startLine := stop + 2 }
            { entered with
              startLine := entered.checkedIdx
              readBuf := entered.readBuf.set (entered.startLine + entered.contentLength) 0
              string := some entered.startLine } :=
          ⟨rfl, rfl, rfl, rfl, rfl, rfl, rfl, rfl, fun index low => Memory.set_of_ne 0 (by
            have start := inLine.startLine
            simp only [entered]
            omega)⟩
        exact (@sameHead_endLine request stop atEnd.inside).trans behind |>.found inHead.anchored
          limit found
      · have stored : (entered.readBuf.set (entered.startLine + entered.contentLength) 0).Holds
            entered.startLine (byte :: body) := by
          refine Memory.Holds.set ?_ (.inr ?_)
          · rw [moved]
            exact holds
          · exact Int.le_of_eq total.symm
        have nul : entered.readBuf.set (entered.startLine + entered.contentLength) 0
            (entered.startLine + (byte :: body).length) = 0 := by
          rw [total, Memory.set_self]
        have sameIdx : (request.endLine stop).readIdx = request.readIdx := rfl
        exact ⟨⟨_, rfl, stored, nul⟩,
          congrArg some (Memory.cstring_of_holds stored nul (by rw [moved]; omega))⟩

/-- A slot that has received its first bytes. -/
theorem inHead_init_receive (slot : RequestState) {text : List UInt8}
    (short : text.length < readBufferSize) : (slot.init.receive text).InHead := by
  have start : slot.init.readIdx = 0 := rfl
  exact (init_inHead slot).receive (by rw [Room, start]; omega)

/-- `process_read` on the text of a request. -/
theorem processRead_requestText (slot : RequestState) {method : Method}
    (supported : method = .get ∨ method = .post) {path : List UInt8} (clean : Clean path)
    (plain : ∀ byte ∈ path, byte ∉ blanks) {headers : List (List UInt8)}
    (headersClean : ∀ line ∈ headers, Clean line ∧ line ≠ []) {body : List UInt8}
    (declared : BodyDeclared headers body)
    (short : (requestText method (47 :: path) headers body).length < readBufferSize) :
    ∃ next, (slot.init.receive (requestText method (47 :: path) headers body)).processRead =
        some (.request next) ∧
      Found method (47 :: path) headers next ∧
      (body ≠ [] → next.Denotes body ∧ next.string.map next.str =
        some (body.takeWhile (· ≠ 0))) := by
  have inHead := inHead_init_receive slot short
  have text : requestText method (47 :: path) headers body =
      methodName method ++ 32 :: (47 :: path ++ 32 :: ascii "HTTP/1.1") ++
        13 :: 10 :: (sendLines headers ++ crlf ++ body) := by
    simp [requestText]
  rw [text] at inHead short ⊢
  have bodyShort : body.length < readBufferSize := by
    simp only [List.length_append, List.length_cons] at short
    omega
  have room :
      (slot.init.receive (methodName method ++ 32 :: (47 :: path ++ 32 :: ascii "HTTP/1.1") ++
      13 :: 10 :: (sendLines headers ++ crlf ++ body))).readIdx < readBufferSize := by
    simp only [RequestState.receive, init, Int.zero_add]
    exact_mod_cast short
  generalize received : slot.init.receive _ = request at inHead room ⊢
  have inLine : request.InLine 0
      (methodName method ++ 32 :: (47 :: path ++ 32 :: ascii "HTTP/1.1"))
      (methodName method ++ 32 :: (47 :: path ++ 32 :: ascii "HTTP/1.1") ++
        13 :: 10 :: (sendLines headers ++ crlf ++ body)) := by
    rw [← received]
    exact ⟨rfl, rfl, Memory.holds_store _ _ _, 0, Nat.zero_le _, Nat.zero_le _, rfl⟩
  have seen : Seen [] request := by
    rw [← received]
    exact ⟨rfl, rfl, by simp [headerValues, RequestState.receive, init], rfl⟩
  have fresh : request.checkState = .requestLine ∧ request.cgi = 0 := by
    rw [← received]
    exact ⟨rfl, rfl⟩
  obtain ⟨first, start, comes, firstHead, firstHeader, firstLine, firstIdx, firstFound⟩ :=
    inHead.run_requestLine (headers.headD []) supported fresh.1 fresh.2 seen clean plain inLine
  obtain ⟨last, final, goesOn, lastHead, lastHeader, lastLine, lastIdx, lastFound⟩ :=
    firstHead.run_headers firstHeader firstLine headersClean firstFound
  rw [List.nil_append] at lastFound
  obtain ⟨next, ends, found, denotes⟩ := lastHead.run_blank lastHeader lastLine lastFound
    (lastFound.seen.length_of_declared declared bodyShort) (by rw [lastIdx, firstIdx]; exact room)
  exact ⟨next, comes.trans (goesOn.trans ends), found, denotes⟩

end RequestState

/-- **Parsing undoes formatting.**  A well-formed request that one `read_once` brings makes
`process_read` call `do_request`, with the method, the target, the last `Host` and `Cookie`
values, and `m_linger` as they were printed.  `m_string` denotes the body, so that as a C
string it is the body up to its first NUL. -/
theorem round_requestText (slot : RequestState) {trigMode : Int} {results : List RecvResult}
    {method : Method} {target body : List UInt8} {headers : List (List UInt8)}
    (supported : method = .get ∨ method = .post) (slash : target.head? = some 47)
    (plain : ∀ byte ∈ target, byte ∉ [32, 9, 13, 10, 0])
    (headersPlain : ∀ line ∈ headers, line ≠ [] ∧ ∀ byte ∈ line, byte ∉ [13, 10, 0])
    (declared : BodyDeclared headers body)
    (short : (requestText method target headers body).length < readBufferSize)
    (delivers : Delivers trigMode results (requestText method target headers body)) :
    ∃ next, slot.init.round trigMode results = some (.request next) ∧
      next.method = method ∧ next.cgi = (if method = .post then 1 else 0) ∧
      next.url.map next.str = some target ∧
      next.host.map next.str = (headerValues (ascii "Host:") headers).getLast? ∧
      next.cookie = (headerValues (ascii "Cookie:") headers).getLast?.getD [] ∧
      (next.linger = true ↔ ∃ value ∈ headerValues (ascii "Connection:") headers,
        strcasecmp value (ascii "keep-alive") = true) ∧
      (body ≠ [] → next.Denotes body ∧ (0 ∉ body → next.string.map next.str = some body)) := by
  have clean : ∀ line : List UInt8, (∀ byte ∈ line, byte ∉ [13, 10, 0]) →
      RequestState.Clean line := by
    intro line lineClean byte member
    have absent := lineClean byte member
    simp only [List.mem_cons, List.not_mem_nil, or_false, not_or] at absent
    exact ⟨absent.2.2, absent.1, absent.2.1⟩
  obtain ⟨path, rfl⟩ : ∃ path, target = 47 :: path := List.head?_eq_some_iff.mp slash
  have pathPlain : ∀ byte ∈ path, byte ∉ [32, 9, 13, 10, 0] :=
    fun byte member => plain byte (List.mem_cons_of_mem _ member)
  have noBlank : ∀ byte ∈ path, byte ∉ RequestState.blanks := by
    intro byte member blank
    have absent := pathPlain byte member
    simp only [RequestState.blanks, List.mem_cons, List.not_mem_nil, or_false, not_or]
      at absent blank
    exact blank.elim absent.1 absent.2.1
  have pathClean := clean path fun byte member inSet =>
    pathPlain byte member (List.mem_cons_of_mem _ (List.mem_cons_of_mem _ inSet))
  obtain ⟨next, ends, found, denotes⟩ := RequestState.processRead_requestText slot supported
    pathClean noBlank (fun line member => ⟨clean line (headersPlain line member).2,
      (headersPlain line member).1⟩) declared short
  have room : slot.init.readIdx +
      (requestText method (47 :: path) headers body).length < readBufferSize := by
    have start : slot.init.readIdx = 0 := rfl
    omega
  refine ⟨next, (RequestState.round_of_delivers room delivers).trans ends, found.isMethod,
    found.cgi,
    found.url, found.seen.host, found.seen.cookie, found.seen.linger, fun nonempty => ?_⟩
  obtain ⟨bytes, string⟩ := denotes nonempty
  refine ⟨bytes, fun noNul => string.trans (congrArg some ?_)⟩
  exact untilNul_of_notMem noNul

/-- The form of a login page, as a browser sends it. -/
def loginLines : List (List UInt8) :=
  [ascii "Host: localhost", ascii "Connection: Keep-Alive", ascii "cookie:a=1",
    ascii "Content-Length: 4"]

theorem round_requestText_login :
    ∃ next, HttpConn.blank.toRequestState.init.round 0
        [.data (requestText .post (ascii "/2") loginLines (ascii "abcd"))] = some (.request next) ∧
      next.method = .post ∧ next.cgi = 1 ∧ next.url.map next.str = some (ascii "/2") ∧
      next.host.map next.str = some (ascii "localhost") ∧ next.cookie = ascii "a=1" ∧
      next.linger = true ∧ next.string.map next.str = some (ascii "abcd") := by
  obtain ⟨next, served, isMethod, cgi, url, host, cookie, linger, string⟩ :=
    @round_requestText HttpConn.blank.toRequestState 0 _ .post (ascii "/2")
      (ascii "abcd") loginLines
      (.inr rfl) (by decide) (by decide) (by decide) (.inl (by decide)) (by decide)
      (.level rfl (by decide))
  refine ⟨next, served, isMethod, cgi, url, host, cookie, linger.mpr (by decide), ?_⟩
  exact (string (by decide)).2 (by decide)

theorem of_served {returned : Option ReadOutcome} {string : Option (List UInt8)}
    (served : (returned.bind ReadOutcome.served).map (fun next => next.string.map next.str) =
      some string) : ∃ next, returned = some (.request next) ∧ next.string.map next.str =
        string := by
  obtain ⟨next, served, isString⟩ := Option.map_eq_some_iff.mp served
  obtain ⟨outcome, rfl, ends⟩ := Option.bind_eq_some_iff.mp served
  cases outcome with
  | request last =>
      cases ends
      exact ⟨_, rfl, isString⟩
  | code ret last => contradiction
  | fault reason last => contradiction

/-- The body of a request without a `Content-Length` is not looked at, and the string of a
body ends at its first NUL. -/
theorem round_requestText_not_string :
    (∃ next, HttpConn.blank.toRequestState.init.round 0
        [.data (requestText .post (ascii "/2") [] (ascii "ab"))] = some (.request next) ∧
      next.string = none) ∧
    BodyDeclared [ascii "Content-Length:1"] [0] ∧
    ∃ next, HttpConn.blank.toRequestState.init.round 0
        [.data (requestText .post (ascii "/2") [ascii "Content-Length:1"] [0])] =
          some (.request next) ∧
      next.string.map next.str = some [] := by
  refine ⟨?_, .inl (by decide), of_served (by decide +kernel)⟩
  obtain ⟨next, served, string⟩ := @of_served (HttpConn.blank.toRequestState.init.round 0
    [.data (requestText .post (ascii "/2") [] (ascii "ab"))]) none (by decide +kernel)
  exact ⟨next, served, Option.map_eq_none_iff.mp string⟩

end TimeGANWebServer.Http
