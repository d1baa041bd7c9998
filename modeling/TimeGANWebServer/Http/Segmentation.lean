import Mathlib.Data.List.Forall2
import TimeGANWebServer.Http.Cursors
import TimeGANWebServer.Support.Lines

/-!
# Requests that arrive in pieces

A request with a body may be cut anywhere into the rounds of `read_once` and
`process_read` that receive it.  While the header block arrives, the parser's
state is a function of the bytes received so far.  Once the body has begun, a
round that ends inside it lets `parse_line` scan the part that is there: unless
that scan stops at the body's first byte it moves `m_checked_idx`, from which
`parse_content` then counts, and the body is never found complete.
-/

namespace TimeGANWebServer.Http

open TimeGANWebServer.Support

/-- The length a header line declares, if it is a `Content-length` line. -/
def declaredBy (line : List UInt8) : Option Int :=
  let text := line.takeWhile (· ≠ 0)
  if strncasecmp text (ascii "Content-length:") 15 then
    some (toInt32 (atol (text.drop (RequestState.valueOffset text (ascii "Content-length:")))))
  else
    none

/-- The length a header block declares: the last declaration counts. -/
def declaredLength (declared : Int) (headers : List (List UInt8)) : Int :=
  headers.foldl (fun length line => (declaredBy line).getD length) declared

namespace RequestState

/-- A parser that has received one line. -/
def ofLine (line : List UInt8) : RequestState where
  readBuf := Memory.store (fun _ => 0) 0 line
  readIdx := line.length
  checkedIdx := line.length
  startLine := line.length
  checkState := .requestLine
  method := .get
  url := none
  version := none
  host := none
  contentLength := 0
  linger := false
  cgi := 0
  string := none
  cookie := []

end RequestState

/-- A header block: a request line the parser accepts, and header lines. -/
structure RequestHead where
  requestLine : List UInt8
  headers : List (List UInt8)
  plain : ∀ line ∈ requestLine :: headers, ∀ byte ∈ line, RequestState.Plain byte
  accepted : RequestState.codeOf ((RequestState.ofLine requestLine).parseRequestLine 0) =
    some .noRequest
  nonblank : ∀ line ∈ headers, line.takeWhile (· ≠ 0) ≠ []

namespace RequestHead

/-- The bytes of the header block, with its blank line. -/
def bytes (head : RequestHead) : List UInt8 :=
  sendLines (head.requestLine :: head.headers) ++ crlf

/-- The `Content-Length` the header block declares. -/
def contentLength (head : RequestHead) : Int :=
  declaredLength 0 head.headers

end RequestHead

/-! ## Rounds -/

/-- Results of the `recv` calls of one successful `read_once` that bring the bytes:
a single one in level-triggered mode, all up to `EAGAIN` in edge-triggered mode. -/
inductive Delivers (trigMode : Int) : List RecvResult → List UInt8 → Prop where
  | level {bytes : List UInt8} (levelTriggered : trigMode = 0) (some : bytes ≠ []) :
      Delivers trigMode [.data bytes] bytes
  | last (edgeTriggered : trigMode ≠ 0) : Delivers trigMode [.again] []
  | more {bytes rest : List UInt8} {results : List RecvResult} (edgeTriggered : trigMode ≠ 0)
      (some : bytes ≠ []) (further : Delivers trigMode results rest) :
      Delivers trigMode (.data bytes :: results) (bytes ++ rest)

namespace RequestState

/-- One round on a connection: `read_once`, and `process_read` if it succeeded. -/
def round (request : RequestState) (trigMode : Int) (results : List RecvResult) :
    Option ReadOutcome :=
  match request.readOnce trigMode results with
  | some (true, received) => received.processRead
  | _ => none

/-- `m_string` denotes a body, which a NUL follows. -/
def Denotes (request : RequestState) (body : List UInt8) : Prop :=
  ∃ start, request.string = some start ∧ request.readBuf.Holds start body ∧
    request.readBuf (start + body.length) = 0

/-- Every earlier round returns `NO_REQUEST`, and the last one calls `do_request`
with `m_string` denoting the body. -/
def ServesBody (trigMode : Int) (body : List UInt8) (request : RequestState) :
    List (List RecvResult) → List RecvResult → Prop
  | [], results =>
      ∃ next, request.round trigMode results = some (.request next) ∧ next.Denotes body
  | earlier :: rounds, results =>
      ∃ next, request.round trigMode earlier = some (.code .noRequest next) ∧
        next.ServesBody trigMode body rounds results

/-- With these many bytes of the body received, `parse_line` makes no progress in
it: none are there, or the body begins with a line feed, or with a carriage return
that is still the last byte or is not followed by a line feed. -/
def Undisturbed (body : List UInt8) (received : Nat) : Prop :=
  received = 0 ∨ body[0]? = some 10 ∨
    (body[0]? = some 13 ∧ (received = 1 ∨ body[1]? ≠ some 10))

instance (body : List UInt8) (received : Nat) : Decidable (Undisturbed body received) :=
  inferInstanceAs (Decidable (_ ∨ _ ∨ (_ ∧ _)))

theorem readLoop_of_delivers {request : RequestState} {trigMode : Int}
    {results : List RecvResult} {bytes : List UInt8} (delivers : Delivers trigMode results bytes)
    (edgeTriggered : trigMode ≠ 0) (fits : request.readIdx + bytes.length ≤ readBufferSize) :
    request.readLoop results = some (true, request.receive bytes) := by
  induction delivers generalizing request with
  | level levelTriggered nonempty => exact absurd levelTriggered edgeTriggered
  | last _ => simp [readLoop, receive]
  | @more bytes rest results _ nonempty further ih =>
      simp only [List.length_append, Int.natCast_add] at fits
      have first : request.Fits bytes := ⟨nonempty, by omega⟩
      have next := @ih (request.receive bytes) (by simp only [receive]; omega)
      rw [readLoop, if_pos first, next, receive_receive]

/-- A successful `read_once` appends what its `recv` calls brought, up to the last byte of the
buffer. -/
theorem readOnce_of_fits {request : RequestState} {trigMode : Int}
    {results : List RecvResult} {bytes : List UInt8} (delivers : Delivers trigMode results bytes)
    (room : request.readIdx < readBufferSize)
    (fits : request.readIdx + bytes.length ≤ readBufferSize) :
    request.readOnce trigMode results = some (true, request.receive bytes) := by
  simp only [readOnce, if_neg (Int.not_le.mpr room)]
  split
  case isTrue levelTriggered =>
      cases delivers with
      | level _ nonempty =>
          have whole : request.Fits bytes := ⟨nonempty, fits⟩
          simp [whole]
      | last edgeTriggered => exact absurd levelTriggered edgeTriggered
      | more edgeTriggered _ _ => exact absurd levelTriggered edgeTriggered
  case isFalse edgeTriggered => exact readLoop_of_delivers delivers edgeTriggered fits

theorem readOnce_of_delivers {request : RequestState} {trigMode : Int}
    {results : List RecvResult} {bytes : List UInt8} (delivers : Delivers trigMode results bytes)
    (room : request.readIdx + bytes.length < readBufferSize) :
    request.readOnce trigMode results = some (true, request.receive bytes) :=
  readOnce_of_fits delivers (by omega) room.le

/-! ## Lines that arrive in pieces -/

/-- The parser stands in the line that starts at `start`: `text` has been received
from there on, and `parse_line` has passed over some bytes of the line. -/
structure InLine (request : RequestState) (start : Nat) (line text : List UInt8) : Prop where
  startLine : request.startLine = start
  readIdx : request.readIdx = start + text.length
  holds : request.readBuf.Holds start text
  scanned : ∃ count : Nat, count ≤ line.length ∧ count ≤ text.length ∧
    request.checkedIdx = start + count

/-- What has been received of a line and what follows it is a part of the line, or
reaches behind it. -/
theorem cut_line {line text later future : List UInt8}
    (received : text ++ future = line ++ 13 :: 10 :: later) :
    text <+: line ++ [13] ∨ ∃ rest, text = line ++ 13 :: 10 :: rest ∧ rest ++ future = later := by
  have split : line ++ 13 :: 10 :: later = (line ++ [13]) ++ 10 :: later := by simp
  rw [split, List.append_eq_append_iff] at received
  rcases received with ⟨missing, whole, _⟩ | ⟨rest, whole, following⟩
  · exact .inl ⟨missing, whole.symm⟩
  · cases rest with
    | nil => exact .inl ⟨[], by simpa using whole⟩
    | cons byte rest =>
        simp only [List.cons_append, List.cons.injEq] at following
        obtain ⟨rfl, following⟩ := following
        exact .inr ⟨rest, by simpa using whole, following.symm⟩

/-- A part of a line leaves `parse_line` waiting in it. -/
theorem InLine.parseLine_open {request : RequestState} {start : Nat} {line text : List UInt8}
    (inLine : request.InLine start line text) (plain : ∀ byte ∈ line, Plain byte)
    (part : text <+: line ++ [13]) :
    ∃ checkedIdx, request.parseLine = (.open, { request with checkedIdx := checkedIdx }) ∧
      InLine { request with checkedIdx := checkedIdx } start line text := by
  obtain ⟨count, inText, inReceived, checked⟩ := inLine.scanned
  have size : (request.readIdx - request.checkedIdx).toNat = (text.drop count).length := by
    rw [inLine.readIdx, checked, List.length_drop]
    omega
  have ahead : request.readBuf.Holds request.checkedIdx (text.drop count) := by
    rw [checked]
    have whole := inLine.holds
    rw [← List.take_append_drop count text] at whole
    simpa [Nat.min_eq_left inReceived] using whole.append_right
  rw [List.prefix_concat_iff] at part
  rcases part with whole | part
  · subst text
    have dropped : (line ++ [13]).drop count = line.drop count ++ [13] :=
      List.drop_append_of_le_length inText
    rw [dropped] at size ahead
    refine ⟨start + line.length, ?_, inLine.startLine, inLine.readIdx, inLine.holds,
      line.length, Nat.le_refl _, by simp, rfl⟩
    rw [parseLine, size, List.length_append, parseLineLoop_plain _ ahead.append_left
      fun byte member => plain byte (List.mem_of_mem_drop member)]
    have reached : request.checkedIdx + (line.drop count).length = start + line.length := by
      rw [checked, List.length_drop]
      omega
    rw [reached]
    have carriage := ahead.append_right
    rw [reached] at carriage
    exact parseLineLoop_open carriage (by simp [inLine.readIdx, Int.add_assoc])
  · have inside := part.length_le
    refine ⟨start + text.length, ?_, inLine.startLine, inLine.readIdx, inLine.holds,
      text.length, inside, Nat.le_refl _, rfl⟩
    have passed : ∀ byte ∈ text.drop count, Plain byte :=
      fun byte member => plain byte (part.subset (List.mem_of_mem_drop member))
    have walked := parseLineLoop_plain 0 ahead passed
    rw [parseLine, size, ← Nat.add_zero (text.drop count).length, walked, parseLineLoop]
    congr 2
    rw [checked, List.length_drop]
    omega

/-- A whole line makes `parse_line` end it with NULs and go behind it. -/
theorem InLine.parseLine_ok {request : RequestState} {start : Nat} {line rest : List UInt8}
    (inLine : request.InLine start line (line ++ 13 :: 10 :: rest))
    (plain : ∀ byte ∈ line, Plain byte) :
    request.parseLine =
      (.ok, { request with
        readBuf := (request.readBuf.set (start + line.length : Nat) 0).set
          ((start + line.length : Nat) + 1) 0
        checkedIdx := (start + line.length : Nat) + 2 }) := by
  obtain ⟨count, inText, inReceived, checked⟩ := inLine.scanned
  have readIdx := inLine.readIdx
  simp only [List.length_append, List.length_cons] at readIdx
  have ahead : request.readBuf.Holds request.checkedIdx
      (line.drop count ++ 13 :: 10 :: rest) := by
    rw [checked]
    have whole := inLine.holds
    rw [← List.take_append_drop count line, List.append_assoc] at whole
    simpa [Nat.min_eq_left inText] using whole.append_right
  have reached : request.checkedIdx + (line.drop count).length = (start + line.length : Nat) := by
    rw [checked, List.length_drop]
    omega
  have size : (request.readIdx - request.checkedIdx).toNat =
      (line.drop count).length + (rest.length + 1 + 1) := by
    rw [readIdx, checked, List.length_drop]
    omega
  have ending : request.readBuf.Holds (start + line.length : Nat) [13, 10] := by
    have later := ahead.append_right
    rw [reached] at later
    exact (show request.readBuf.Holds _ ([13, 10] ++ rest) from later).append_left
  rw [parseLine, size, parseLineLoop_plain _ ahead.append_left
    fun byte member => plain byte (List.mem_of_mem_drop member), reached]
  exact parseLineLoop_ok _ ending (by simp only; omega)

/-! ## The header block -/

/-- The parser stands in the request line, with `future` still to come. -/
structure InRequestLine (head : RequestHead) (body future : List UInt8)
    (request : RequestState) : Prop where
  at_line : ∃ text, text ++ future = head.bytes ++ body ∧
    request.InLine 0 head.requestLine text
  checkState : request.checkState = .requestLine
  contentLength : request.contentLength = 0

/-- The parser stands in a header line, or in the blank line when none is left. -/
structure InHeaders (headers : List (List UInt8)) (body future : List UInt8)
    (request : RequestState) : Prop where
  at_line : ∃ start text, text ++ future = sendLines headers ++ crlf ++ body ∧
    request.InLine start (headers.headD []) text ∧
    start + (text ++ future).length < readBufferSize
  checkState : request.checkState = .header
  declared : declaredLength request.contentLength headers = body.length
  plain : ∀ line ∈ headers, ∀ byte ∈ line, Plain byte
  nonblank : ∀ line ∈ headers, line.takeWhile (· ≠ 0) ≠ []

/-- The parser stands at the beginning of the body. -/
structure InBody (body future : List UInt8) (request : RequestState) : Prop where
  at_body : ∃ start : Nat, ∃ text, text ++ future = body ∧ request.startLine = start ∧
    request.checkedIdx = start ∧ request.readIdx = start + text.length ∧
    request.readBuf.Holds start text ∧ request.readBuf (start - 1) ≠ 13
  checkState : request.checkState = .content
  contentLength : request.contentLength = body.length
  room : request.readIdx + future.length < readBufferSize

/-- The parser has left the beginning of the body: the bytes still to come cannot
make it complete. -/
structure Lost (future : List UInt8) (request : RequestState) : Prop where
  checkState : request.checkState = .content
  contentLength : request.contentLength ≤ readBufferSize
  checked : request.checkedIdx ≤ request.readIdx
  missing : request.readIdx + future.length < request.contentLength + request.checkedIdx
  room : request.readIdx + future.length < readBufferSize

/-- A `Connection` line declares no length. -/
theorem declaredBy_connection {line : List UInt8}
    (connection : strncasecmp (line.takeWhile (· ≠ 0)) (ascii "Connection:") 11 = true) :
    declaredBy line = none := by
  simp only [declaredBy]
  split
  case isFalse => rfl
  case isTrue length =>
      -- The names differ in their fourth letter.
      have left := @strncasecmp_getElem? _ (ascii "Connection:") 3 connection (by decide)
      have right := @strncasecmp_getElem? _ (ascii "Content-length:") 3 length (by decide)
      have letters : Option.map tolower (ascii "Connection:")[3]? ≠
          Option.map tolower (ascii "Content-length:")[3]? := by decide
      exact absurd (left.symm.trans right) letters

/-- A header line that is not blank is taken in, and its declared length with it. -/
theorem parseHeaders_line {request : RequestState} {text : Int} {line : List UInt8}
    (str : request.str text = line.takeWhile (· ≠ 0)) (nonblank : request.readBuf text ≠ 0) :
    (request.parseHeaders text).1 = .noRequest ∧
      (request.parseHeaders text).2.contentLength =
        (declaredBy line).getD request.contentLength ∧
      (request.parseHeaders text).2.checkState = request.checkState := by
  simp only [parseHeaders, if_neg nonblank, str]
  split
  case isTrue connection =>
      rw [declaredBy_connection connection]
      split <;> exact ⟨rfl, rfl, rfl⟩
  case isFalse =>
      split
      case isTrue length =>
          have declared : declaredBy line = some _ := if_pos length
          rw [declared]
          exact ⟨rfl, rfl, rfl⟩
      case isFalse length =>
          have undeclared : declaredBy line = none := if_neg length
          rw [undeclared]
          split
          · exact ⟨rfl, rfl, rfl⟩
          · split <;> exact ⟨rfl, rfl, rfl⟩

/-- A line that has been received as a whole, once `parse_line` has ended it. -/
structure LineEnded (request : RequestState) (start : Nat) (line rest : List UInt8) : Prop where
  startLine : request.startLine = start
  checkedIdx : request.checkedIdx = (start + line.length + 2 : Nat)
  readIdx : request.readIdx = (start + line.length + 2 : Nat) + rest.length
  holdsLine : request.readBuf.Holds start line
  nul : request.readBuf (start + line.length : Nat) = 0
  newline : request.readBuf ((start + line.length : Nat) + 1) = 0
  holdsRest : request.readBuf.Holds (start + line.length + 2 : Nat) rest

theorem InLine.ended {request : RequestState} {start : Nat} {line rest : List UInt8}
    (inLine : request.InLine start line (line ++ 13 :: 10 :: rest))
    (plain : ∀ byte ∈ line, Plain byte) :
    ∃ readBuf checkedIdx,
      request.parseLine =
        (.ok, { request with readBuf := readBuf, checkedIdx := checkedIdx }) ∧
      LineEnded { request with readBuf := readBuf, checkedIdx := checkedIdx } start line rest := by
  have readIdx := inLine.readIdx
  simp only [List.length_append, List.length_cons] at readIdx
  refine ⟨_, _, inLine.parseLine_ok plain, inLine.startLine, by simp only; omega,
    by simp only; omega, ?_, ?_, Memory.set_self _ _ _, ?_⟩
  · exact (inLine.holds.append_left.set (.inr (by omega))).set (.inr (by omega))
  · exact (Memory.set_of_ne 0 (by omega)).trans (Memory.set_self _ _ _)
  · have behind : request.readBuf.Holds (start + line.length + 2 : Nat) rest := by
      have tail := inLine.holds
      have regroup : line ++ 13 :: 10 :: rest = (line ++ [13, 10]) ++ rest := by simp
      rw [regroup] at tail
      simpa [Int.add_assoc] using tail.append_right
    exact (behind.set (.inl (by omega))).set (.inl (by omega))

/-- A line that `parse_line` takes out of what was received. -/
theorem Cursors.parseLine_ended {request : RequestState} (cursors : request.Cursors) {start : Nat}
    {line rest : List UInt8} (inLine : request.InLine start line (line ++ 13 :: 10 :: rest))
    (plain : ∀ byte ∈ line, Plain byte) :
    ∃ stop, request.parseLine = (.ok, request.endLine stop) ∧ (request.endLine stop).AtEnd stop ∧
      LineEnded (request.endLine stop) start line rest ∧ start + line.length < readBufferSize := by
  obtain ⟨readBuf, checkedIdx, ok, ended⟩ := inLine.ended plain
  obtain ⟨stop, passes, same, atEnd⟩ := cursors.parseLine_ok ok
  rw [same] at ok ended atEnd
  have room := atEnd.cursors.room
  have readIdx := ended.readIdx
  exact ⟨stop, ok, atEnd, ended, by omega⟩

/-- The line is read up to its first NUL. -/
theorem LineEnded.str {request : RequestState} {start : Nat} {line rest : List UInt8}
    (ended : request.LineEnded start line rest)
    (short : start + line.length < readBufferSize) :
    request.str start = line.takeWhile (· ≠ 0) :=
  Memory.cstring_of_holds ended.holdsLine ended.nul (by omega)

/-- Functions on an ended line keep what follows it. -/
theorem LineEnded.next {request next : RequestState} {start : Nat} {line rest : List UInt8}
    (following : List UInt8) (ended : request.LineEnded start line rest)
    (kept : LineParsed start { request with startLine := request.checkedIdx } next) :
    next.InLine (start + line.length + 2) following rest where
  startLine := by rw [kept.startLine, ended.checkedIdx]
  readIdx := by rw [kept.readIdx, ended.readIdx]
  holds := by
    intro offset inBounds
    have behind := kept.behind (start + line.length : Nat) (by omega) ended.nul
      ((start + line.length + 2 : Nat) + offset) (by omega)
    rw [behind]
    exact ended.holdsRest offset inBounds
  scanned := ⟨0, Nat.zero_le _, Nat.zero_le _, by rw [kept.checkedIdx, ended.checkedIdx]; simp⟩

/-- A pass over a header line goes on to the next line. -/
theorem LineEnded.processLine_header {request : RequestState} {start : Nat}
    {line rest : List UInt8} (following : List UInt8) (ended : request.LineEnded start line rest)
    (short : start + line.length < readBufferSize) (header : request.checkState = .header)
    (nonblank : line.takeWhile (· ≠ 0) ≠ []) :
    ∃ next, request.processLine = .again (.ok, next) ∧
      next.InLine (start + line.length + 2) following rest ∧ next.checkState = .header ∧
      next.contentLength = (declaredBy line).getD request.contentLength ∧
      next =
        (RequestState.parseHeaders { request with startLine := request.checkedIdx } start).2 := by
  have first : request.readBuf start ≠ 0 := by
    cases line with
    | nil => exact absurd rfl nonblank
    | cons byte line =>
        have held : request.readBuf start = byte := by
          simpa using ended.holdsLine 0 (Nat.zero_lt_succ _)
        rw [held]
        rintro rfl
        exact absurd rfl nonblank
  have parsed := @parseHeaders_line { request with startLine := request.checkedIdx } start line
    (ended.str short) first
  have kept := parseHeaders_keeps { request with startLine := request.checkedIdx } start
  refine ⟨_, ?_, ended.next _ (LineParsed.of_readBuf_eq kept.1 kept.2.1 kept.2.2.1 kept.2.2.2),
    parsed.2.2.trans header, parsed.2.1, rfl⟩
  simp only [processLine, header, ended.startLine] at parsed ⊢
  split
  case h_1 _ next result => simp [result] at parsed
  case h_2 _ next result => simp [result] at parsed
  case h_3 _ code next notBad notGet result => rw [result]

/-- A line without a byte in front of its first NUL is blank. -/
theorem LineEnded.blank {request : RequestState} {start : Nat} {line rest : List UInt8}
    (ended : request.LineEnded start line rest) (empty : line.takeWhile (· ≠ 0) = []) :
    request.readBuf request.startLine = 0 := by
  rw [ended.startLine]
  cases line with
  | nil => simpa using ended.nul
  | cons byte line =>
      have held : request.readBuf start = byte := by
        simpa using ended.holdsLine 0 (Nat.zero_lt_succ _)
      rw [held]
      by_contra further
      simp [further] at empty

/-- A pass over the blank line goes on to the body. -/
theorem LineEnded.processLine_blank {request : RequestState} {start : Nat} {rest : List UInt8}
    (ended : request.LineEnded start [] rest) (header : request.checkState = .header)
    (declared : request.contentLength ≠ 0) :
    request.processLine =
      .again (.ok, { request with startLine := request.checkedIdx, checkState := .content }) :=
  (RequestState.processLine_blank header (ended.blank rfl)).trans (if_pos declared)

/-- What `process_read` does while the header lines arrive: it waits in one of them,
or comes to the body. -/
theorem InHeaders.run {headers : List (List UInt8)} {body future : List UInt8}
    {request : RequestState} (inHeaders : InHeaders headers body future request)
    (nonempty : body ≠ []) :
    (body.length < future.length ∧ ∃ left next,
      Loop.run processPass passBound (.ok, request) = some (.code .noRequest next) ∧
        InHeaders left body future next) ∨
    (future.length ≤ body.length ∧ ∃ next,
      Loop.run processPass passBound (.ok, request) =
        Loop.run processPass passBound (.ok, next) ∧ InBody body future next) := by
  obtain ⟨⟨start, text, received, inLine, short⟩, header, declared, plain, nonblank⟩ := inHeaders
  have notBody : request.checkState ≠ .content := by simp [header]
  induction headers generalizing request start text with
  | nil =>
      have whole :
          text ++ future = [] ++ 13 :: 10 :: body := by simpa [sendLines, crlf] using received
      rcases cut_line whole with part | ⟨rest, rfl, following⟩
      · obtain ⟨checkedIdx, waits, stays⟩ := inLine.parseLine_open (by simp) part
        have behind := congrArg List.length whole
        have partLength := part.length_le
        simp only [List.length_append, List.length_cons, List.nil_append,
          List.length_nil] at behind partLength
        refine .inl ⟨by omega, [], _, Loop.run_of_done
          (processPass_of_wait (by simp [notBody]) waits (by simp)), ?_⟩
        exact ⟨⟨start, text, received, stays, short⟩, header, declared, plain, nonblank⟩
      · have inLine : request.InLine start [] ([] ++ 13 :: 10 :: rest) := inLine
        obtain ⟨readBuf, checkedIdx, ok, ended⟩ := inLine.ended (by simp)
        have length : future.length ≤ body.length := by
          rw [← following, List.length_append]
          omega
        have known : request.contentLength = body.length := declared
        have positive : request.contentLength ≠ 0 := by
          have some := List.length_pos_iff.mpr nonempty
          omega
        have passed := ended.processLine_blank header positive
        have room := ended.readIdx
        simp only [List.length_append, List.length_cons, List.length_nil] at room short
        refine .inr ⟨length, _, Loop.run_of_again processPass_falls
          ((processPass_of_line _ notBody ok).trans passed), ⟨start + 2, rest, following, ?_⟩,
          rfl, known, by simp only; omega⟩
        refine ⟨by rw [ended.checkedIdx]; rfl, ended.checkedIdx, ended.readIdx, ended.holdsRest, ?_⟩
        have newline : readBuf ((start : Int) + 1) = 0 := ended.newline
        have before : ((start + 2 : Nat) : Int) - 1 = start + 1 := by omega
        rw [before]
        show readBuf ((start : Int) + 1) ≠ 13
        rw [newline]
        decide
  | cons line headers ih =>
      have whole : text ++ future =
          line ++ 13 :: 10 :: (sendLines headers ++ crlf ++ body) := by simpa using received
      rcases cut_line whole with part | ⟨rest, rfl, following⟩
      · obtain ⟨checkedIdx, waits, stays⟩ :=
          inLine.parseLine_open (plain line List.mem_cons_self) part
        have behind := congrArg List.length whole
        have partLength := part.length_le
        simp only [List.length_append, List.length_cons, List.length_nil] at behind partLength
        refine .inl ⟨by omega, line :: headers, _, Loop.run_of_done
          (processPass_of_wait (by simp [notBody]) waits (by simp)), ?_⟩
        exact ⟨⟨start, text, received, stays, short⟩, header, declared, plain, nonblank⟩
      · have inLine : request.InLine start line (line ++ 13 :: 10 :: rest) := inLine
        obtain ⟨readBuf, checkedIdx, ok, ended⟩ := inLine.ended (plain line List.mem_cons_self)
        simp only [List.length_append, List.length_cons] at short
        obtain ⟨next, passed, nextLine, nextHeader, length, _⟩ :=
          ended.processLine_header (headers.headD []) (by omega) header
            (nonblank line List.mem_cons_self)
        have step := Loop.run_of_again processPass_falls
          ((processPass_of_line .ok notBody ok).trans passed)
        rw [step]
        refine ih nextHeader ?_ (fun other member => plain other (List.mem_cons_of_mem _ member))
          (fun other member => nonblank other (List.mem_cons_of_mem _ member)) _ _ following
          nextLine ?_ (by simp [nextHeader])
        · rw [length]
          exact declared
        · rw [List.length_append]
          omega

/-- An ended request line is parsed as it would be on its own. -/
theorem LineEnded.parseRequestLine {request : RequestState} {line rest : List UInt8}
    (ended : request.LineEnded 0 line rest) (short : line.length < readBufferSize)
    (accepted : codeOf ((ofLine line).parseRequestLine 0) = some .noRequest) :
    ∃ next, RequestState.parseRequestLine { request with startLine := request.checkedIdx } 0 =
      .ok (.noRequest, next) := by
  have agree : (ofLine line).readBuf.AgreeTo request.readBuf 0 line.length := by
    have nul : Memory.store (fun _ => 0) 0 line line.length = 0 :=
      Memory.store_of_le (by omega)
    refine ⟨nul, ?_⟩
    intro index low high
    obtain ⟨offset, rfl⟩ := Int.eq_ofNat_of_zero_le low
    by_cases inside : offset < line.length
    · have left := Memory.holds_store (fun _ => 0) 0 line offset inside
      have right := ended.holdsLine offset inside
      simp only [Int.natCast_zero, Int.zero_add] at left right
      exact left.trans right.symm
    · have last : offset = line.length := by omega
      have right := ended.nul
      simp only [Nat.zero_add] at right
      exact last ▸ nul.trans right.symm
  have same := @parseRequestLine_congr _ { request with startLine := request.checkedIdx } _ _
    agree (by omega) (by omega)
  rw [accepted] at same
  cases parsed : RequestState.parseRequestLine
      { request with startLine := request.checkedIdx } 0 with
  | error fault => simp [parsed, codeOf] at same
  | ok result =>
      obtain ⟨code, next⟩ := result
      simp only [parsed, codeOf, Option.some.injEq] at same
      exact ⟨next, by rw [← same]⟩

/-- A pass over the request line goes on to the header lines. -/
theorem LineEnded.processLine_requestLine {request : RequestState} {line rest : List UInt8}
    (following : List UInt8) (ended : request.LineEnded 0 line rest)
    (short : line.length < readBufferSize) (atLine : request.checkState = .requestLine)
    (accepted : codeOf ((ofLine line).parseRequestLine 0) = some .noRequest) :
    ∃ next, request.processLine = .again (.ok, next) ∧
      next.InLine (0 + line.length + 2) following rest ∧ next.checkState = .header ∧
      next.contentLength = request.contentLength := by
  obtain ⟨next, parsed⟩ := ended.parseRequestLine short accepted
  obtain ⟨kept, length, header⟩ := parseRequestLine_keeps parsed
  refine ⟨next, ?_, ended.next following kept, header rfl, length⟩
  have start := ended.startLine
  simp only [Int.natCast_zero] at start
  simp only [processLine, atLine, start] at parsed ⊢
  rw [parsed]

/-- What `process_read` does while the request line arrives: it waits in it, or
comes to the header lines. -/
theorem InRequestLine.run {head : RequestHead} {body future : List UInt8}
    {request : RequestState} (inRequestLine : InRequestLine head body future request)
    (declared : head.contentLength = body.length)
    (short : head.bytes.length + body.length < readBufferSize) :
    (body.length < future.length ∧ ∃ next,
      Loop.run processPass passBound (.ok, request) = some (.code .noRequest next) ∧
        InRequestLine head body future next) ∨
    ∃ next, Loop.run processPass passBound (.ok, request) =
      Loop.run processPass passBound (.ok, next) ∧ InHeaders head.headers body future next := by
  obtain ⟨⟨text, received, inLine⟩, atLine, length⟩ := inRequestLine
  have notBody : request.checkState ≠ .content := by simp [atLine]
  have plain := head.plain head.requestLine List.mem_cons_self
  have whole : text ++ future =
      head.requestLine ++ 13 :: 10 :: (sendLines head.headers ++ crlf ++ body) := by
    simpa [RequestHead.bytes] using received
  rcases cut_line whole with part | ⟨rest, rfl, following⟩
  · obtain ⟨checkedIdx, waits, stays⟩ := inLine.parseLine_open plain part
    have behind := congrArg List.length whole
    have partLength := part.length_le
    simp only [List.length_append, List.length_cons, List.length_nil] at behind partLength
    exact .inl ⟨by omega, _, Loop.run_of_done
      (processPass_of_wait (by simp [notBody]) waits nofun), ⟨text, received, stays⟩, atLine,
        length⟩
  · obtain ⟨readBuf, checkedIdx, ok, ended⟩ := inLine.ended plain
    have size := congrArg List.length received
    simp only [List.length_append, List.length_cons] at size
    obtain ⟨next, passed, nextLine, header, nextLength⟩ :=
      ended.processLine_requestLine (head.headers.headD []) (by omega) atLine head.accepted
    refine .inr ⟨next, Loop.run_of_again processPass_falls
      ((processPass_of_line _ notBody ok).trans passed), ⟨_, rest, following, nextLine, ?_⟩,
      header, ?_, fun line member => head.plain line (List.mem_cons_of_mem _ member),
      head.nonblank⟩
    · rw [List.length_append]
      omega
    · simp only [nextLength, length]
      exact declared

/-! ## The body -/

/-- With its last byte the body is complete. -/
theorem InBody.run_complete {body : List UInt8} {request : RequestState}
    (inBody : InBody body [] request) :
    ∃ next, Loop.run processPass passBound (.ok, request) = some (.request next) ∧
      next.Denotes body := by
  obtain ⟨⟨start, text, received, startLine, checkedIdx, readIdx, holds, _⟩, state, length,
    room⟩ := inBody
  rw [List.append_nil] at received
  rw [List.length_nil] at room
  subst received
  have complete : request.contentLength + request.checkedIdx ≤ request.readIdx := by omega
  refine ⟨_, Loop.run_of_done ((processPass_of_body state).trans
    (processLine_complete state (by omega) complete (by omega) (by omega))), ?_⟩
  · refine ⟨start, by rw [startLine], ?_, ?_⟩
    · exact holds.set (.inr (by omega))
    · simp only [startLine, length, Memory.set_self]

theorem InBody.fits {body future : List UInt8} {request : RequestState}
    (inBody : InBody body future request) :
    request.contentLength + request.checkedIdx < readBufferSize := by
  obtain ⟨⟨start, text, received, _, checkedIdx, readIdx, _, _⟩, _, length, room⟩ := inBody
  have whole := congrArg List.length received
  rw [List.length_append] at whole
  omega

theorem InBody.missing {body future : List UInt8} {request : RequestState}
    (inBody : InBody body future request) (incomplete : future ≠ []) :
    request.readIdx < request.contentLength + request.checkedIdx := by
  obtain ⟨⟨start, text, received, _, checkedIdx, readIdx, _, _⟩, _, length, _⟩ := inBody
  have whole := congrArg List.length received
  have some := List.length_pos_iff.mpr incomplete
  rw [List.length_append] at whole
  omega

/-- At the beginning of the body, waiting for a line leaves the state as it was. -/
theorem InBody.pass {body future : List UInt8} {request : RequestState}
    (inBody : InBody body future request) (incomplete : future ≠ []) :
    processPass (.ok, request) = .again (.open, request) := by
  have size : (readBufferSize : Int) = 65536 := rfl
  have waits := processLine_missing inBody.checkState (Int.lt_trans inBody.fits (by omega))
    (inBody.missing incomplete)
  obtain ⟨start, text, _, startLine, checkedIdx, _⟩ := inBody.at_body
  have unchanged : ∀ index, request.startLine = index →
      { request with startLine := index } = request := by
    rintro index rfl
    rfl
  rw [unchanged _ (startLine.trans checkedIdx.symm)] at waits
  simp only [processPass, inBody.checkState, and_self, if_true, waits]

theorem undisturbed_cons (byte : UInt8) (body : List UInt8) (count : Nat) :
    Undisturbed (byte :: body) (count + 1) ↔
      byte = 10 ∨ byte = 13 ∧ (count = 0 ∨ body[0]? ≠ some 10) := by
  simp [Undisturbed]

/-- In an undisturbed body `parse_line` finds no line and stays. -/
theorem InBody.parseLine_stays {body future : List UInt8} {request : RequestState}
    (inBody : InBody body future request)
    (undisturbed : Undisturbed body (body.length - future.length)) :
    ∃ status, request.parseLine = (status, request) ∧ status ≠ .ok := by
  obtain ⟨start, text, received, startLine, checkedIdx, readIdx, holds, before⟩ := inBody.at_body
  have size : (request.readIdx - request.checkedIdx).toNat = text.length := by omega
  have count : body.length - future.length = text.length := by
    rw [← received, List.length_append]
    omega
  have ahead : request.readBuf.Holds request.checkedIdx text := checkedIdx ▸ holds
  rw [count] at undisturbed
  rw [parseLine, size]
  cases text with
  | nil => exact ⟨.open, rfl, by simp⟩
  | cons byte text =>
      have first : request.readBuf request.checkedIdx = byte := by
        simpa using ahead 0 (Nat.zero_lt_succ _)
      subst body
      rw [List.cons_append, List.length_cons, undisturbed_cons] at undisturbed
      rcases undisturbed with rfl | ⟨rfl, last | other⟩
      · have notCarriage : request.readBuf (request.checkedIdx - 1) ≠ 13 := checkedIdx ▸ before
        refine ⟨.bad, ?_, by simp⟩
        simp [parseLineLoop, first, notCarriage]
      · have alone : text = [] := List.length_eq_zero_iff.mp last
        subst alone
        exact ⟨.open, parseLineLoop_open ahead (by rw [readIdx, checkedIdx]; rfl), by simp⟩
      · cases text with
        | nil => exact ⟨.open, parseLineLoop_open ahead (by rw [readIdx, checkedIdx]; rfl), by simp⟩
        | cons next text =>
            have second : request.readBuf (request.checkedIdx + 1) = next :=
              ahead 1 (by simp)
            have different : next ≠ 10 := by simpa using other
            have notLast : request.checkedIdx + 1 ≠ request.readIdx := by
              rw [readIdx, checkedIdx]
              simp only [List.length_cons]
              omega
            refine ⟨.bad, ?_, by simp⟩
            simp [parseLineLoop, first, second, different, notLast]

/-- In a disturbed body `parse_line` leaves its beginning. -/
theorem InBody.parseLine_moves {body future : List UInt8} {request : RequestState}
    (inBody : InBody body future request)
    (disturbed : ¬Undisturbed body (body.length - future.length)) :
    request.checkedIdx < request.parseLine.2.checkedIdx := by
  obtain ⟨start, text, received, startLine, checkedIdx, readIdx, holds, before⟩ := inBody.at_body
  have size : (request.readIdx - request.checkedIdx).toNat = text.length := by omega
  have count : body.length - future.length = text.length := by
    rw [← received, List.length_append]
    omega
  have ahead : request.readBuf.Holds request.checkedIdx text := checkedIdx ▸ holds
  rw [count] at disturbed
  rw [parseLine, size]
  cases text with
  | nil => exact absurd (.inl rfl) disturbed
  | cons byte text =>
      have first : request.readBuf request.checkedIdx = byte := by
        simpa using ahead 0 (Nat.zero_lt_succ _)
      subst body
      rw [List.cons_append, List.length_cons, undisturbed_cons] at disturbed
      simp only [not_or, not_and, not_not] at disturbed
      obtain ⟨notFeed, notCarriage⟩ := disturbed
      by_cases carriage : byte = 13
      · obtain ⟨notLast, feed⟩ := notCarriage carriage
        cases text with
        | nil => exact absurd rfl notLast
        | cons next text =>
            have isFeed : next = 10 := by simpa using feed
            have ending : request.readBuf.Holds request.checkedIdx [13, 10] := by
              subst carriage isFeed
              exact (show request.readBuf.Holds _ ([13, 10] ++ text) from ahead).append_left
            rw [List.length_cons, parseLineLoop_ok _ ending]
            · simp only
              omega
            · rw [readIdx, checkedIdx]
              simp only [List.length_cons]
              omega
      · have frame := parseLineLoop_frame text.length
          { request with checkedIdx := request.checkedIdx + 1 }
          (by simp only [List.length_cons] at readIdx; simp only; omega)
        obtain ⟨readBuf, nextChecked, result, forward, _⟩ := frame
        rw [List.length_cons, parseLineLoop]
        simp only [first, carriage, notFeed, if_false, result] at forward ⊢
        omega

theorem Lost.processLine {future : List UInt8} {request : RequestState}
    (lost : Lost future request) :
    request.processLine = .again (.open, { request with startLine := request.checkedIdx }) := by
  obtain ⟨content, length, checked, missing, room⟩ := lost
  have size : (readBufferSize : Int) = 65536 := rfl
  exact processLine_missing content (by omega) (by omega)

/-- A pass that scans a line and is lost after that ends the loop or stays lost. -/
theorem pass_of_scan_lost {future : List UInt8} {request : RequestState} {lineStatus : LineStatus}
    (scans : ¬(request.checkState = .content ∧ lineStatus = .ok))
    (lost : Lost future request.parseLine.2) :
    ∃ next, Lost future next ∧
      (processPass (lineStatus, request) = .done (.code .noRequest next) ∨
        processPass (lineStatus, request) = .again (.open, next)) := by
  cases scanned : request.parseLine with
  | mk status next =>
      rw [scanned] at lost
      by_cases ok : status = .ok
      · subst ok
        exact ⟨{ next with startLine := next.checkedIdx },
          ⟨lost.checkState, lost.contentLength, lost.checked, lost.missing, lost.room⟩,
          .inr (by simp [processPass, scans, scanned, lost.processLine])⟩
      · exact ⟨next, lost, .inl (processPass_of_wait scans scanned ok)⟩

theorem Lost.pass {future : List UInt8} {request : RequestState} (lost : Lost future request)
    (lineStatus : LineStatus) :
    ∃ next, Lost future next ∧
      (processPass (lineStatus, request) = .done (.code .noRequest next) ∨
        processPass (lineStatus, request) = .again (.open, next)) := by
  by_cases body : request.checkState = .content ∧ lineStatus = .ok
  · exact ⟨{ request with startLine := request.checkedIdx },
      ⟨lost.checkState, lost.contentLength, lost.checked, lost.missing, lost.room⟩,
      .inr (by simp [processPass, body, lost.processLine])⟩
  · obtain ⟨readBuf, checkedIdx, result, forward, _⟩ := parseLine_frame request
    have missing := lost.missing
    have checked := parseLine_checkedIdx_le lost.checked
    refine pass_of_scan_lost body ?_
    rw [result] at checked ⊢
    exact ⟨lost.checkState, lost.contentLength, checked, by simp only; omega, lost.room⟩

/-- A lost parser stays lost, whatever lines it finds in the rest. -/
theorem Lost.run {future : List UInt8} {request : RequestState} (lost : Lost future request)
    (lineStatus : LineStatus) :
    ∃ next, Loop.run processPass passBound (lineStatus, request) =
      some (.code .noRequest next) ∧ Lost future next := by
  obtain ⟨outcome, returned, next, rfl, stillLost⟩ :=
    Loop.run_of_invariant processPass_falls
      (fun state => Lost future state.2)
      (fun outcome => ∃ next, outcome = .code .noRequest next ∧ Lost future next)
      (fun state outcome lost passed => by
        obtain ⟨next, stillLost, ends | goesOn⟩ := lost.pass state.1
        · exact ⟨next, Pass.done.inj (passed.symm.trans ends), stillLost⟩
        · exact absurd (passed.symm.trans goesOn) nofun)
      (fun state following lost passed => by
        obtain ⟨next, stillLost, ends | goesOn⟩ := lost.pass state.1
        · exact absurd (passed.symm.trans ends) nofun
        · rw [Pass.again.inj (passed.symm.trans goesOn)]
          exact stillLost)
      (show Lost future (lineStatus, request).2 from lost)
  exact ⟨next, returned, stillLost⟩

/-- A round that ends inside an undisturbed body leaves the parser at its beginning. -/
theorem InBody.run_undisturbed {body future : List UInt8} {request : RequestState}
    (inBody : InBody body future request) (incomplete : future ≠ [])
    (undisturbed : Undisturbed body (body.length - future.length)) :
    Loop.run processPass passBound (.ok, request) = some (.code .noRequest request) := by
  obtain ⟨status, waits, notOk⟩ := inBody.parseLine_stays undisturbed
  rw [Loop.run_of_again processPass_falls (inBody.pass incomplete)]
  exact Loop.run_of_done (processPass_of_wait (by simp) waits notOk)

/-- A round that ends inside a disturbed body loses it. -/
theorem InBody.run_disturbed {body future : List UInt8} {request : RequestState}
    (inBody : InBody body future request) (incomplete : future ≠ [])
    (disturbed : ¬Undisturbed body (body.length - future.length)) :
    ∃ next, Loop.run processPass passBound (.ok, request) = some (.code .noRequest next) ∧
      Lost future next := by
  have moved := inBody.parseLine_moves disturbed
  obtain ⟨readBuf, checkedIdx, result, _, _⟩ := parseLine_frame request
  have lost : Lost future request.parseLine.2 := by
    obtain ⟨start, text, received, _, checked, readIdx, _, _⟩ := inBody.at_body
    have whole := congrArg List.length received
    have length := inBody.contentLength
    rw [List.length_append] at whole
    have behind := parseLine_checkedIdx_le (by omega : request.checkedIdx ≤ request.readIdx)
    have room := inBody.room
    rw [result] at moved behind ⊢
    refine ⟨inBody.checkState, ?_, behind, ?_, room⟩
    · simp only
      omega
    · simp only at moved ⊢
      omega
  rw [Loop.run_of_again processPass_falls (inBody.pass incomplete)]
  have scans : ¬(request.checkState = .content ∧ LineStatus.open = .ok) := by simp
  obtain ⟨next, nextLost, ends | goesOn⟩ := pass_of_scan_lost scans lost
  · exact ⟨next, Loop.run_of_done ends, nextLost⟩
  · rw [Loop.run_of_again processPass_falls goesOn]
    exact nextLost.run .open

/-! ## Rounds -/

/-- The parser waits for the rest of a request and is not lost. -/
def Waiting (head : RequestHead) (body future : List UInt8) (request : RequestState) : Prop :=
  InRequestLine head body future request ∨ (∃ left, InHeaders left body future request) ∨
    InBody body future request

/-- Received bytes extend the line. -/
theorem InLine.receive {request : RequestState} {start : Nat} {line text : List UInt8}
    (inLine : request.InLine start line text) (chunk : List UInt8) :
    (request.receive chunk).InLine start line (text ++ chunk) where
  startLine := inLine.startLine
  readIdx := by
    simp only [RequestState.receive, inLine.readIdx, List.length_append, Int.natCast_add]
    omega
  holds := by
    simp only [RequestState.receive, inLine.readIdx]
    exact inLine.holds.store chunk
  scanned := by
    obtain ⟨count, inText, inReceived, checked⟩ := inLine.scanned
    exact ⟨count, inText, by rw [List.length_append]; omega, checked⟩

theorem Waiting.receive {head : RequestHead} {body chunk future : List UInt8}
    {request : RequestState} (waiting : Waiting head body (chunk ++ future) request) :
    Waiting head body future (request.receive chunk) := by
  rcases waiting with inRequestLine | ⟨left, inHeaders⟩ | inBody
  · obtain ⟨text, received, inLine⟩ := inRequestLine.at_line
    exact .inl ⟨⟨text ++ chunk, by rw [List.append_assoc, received], inLine.receive chunk⟩,
      inRequestLine.checkState, inRequestLine.contentLength⟩
  · obtain ⟨start, text, received, inLine, short⟩ := inHeaders.at_line
    exact .inr (.inl ⟨left, ⟨start, text ++ chunk, by rw [List.append_assoc, received],
      inLine.receive chunk, by rw [List.append_assoc]; exact short⟩,
      inHeaders.checkState, inHeaders.declared, inHeaders.plain, inHeaders.nonblank⟩)
  · obtain ⟨start, text, received, startLine, checkedIdx, readIdx, holds, before⟩ := inBody.at_body
    have room := inBody.room
    rw [List.length_append] at room
    refine .inr (.inr ⟨⟨start, text ++ chunk, by rw [List.append_assoc, received], startLine,
      checkedIdx, ?_, ?_, ?_⟩, inBody.checkState, inBody.contentLength, ?_⟩)
    · simp only [RequestState.receive, readIdx, List.length_append, Int.natCast_add]
      omega
    · simp only [RequestState.receive, readIdx]
      exact holds.store chunk
    · have below : (start : Int) - 1 < request.readIdx := by omega
      simp only [RequestState.receive, Memory.store_of_lt below]
      exact before
    · simp only [RequestState.receive]
      omega

theorem Lost.receive {chunk future : List UInt8} {request : RequestState}
    (lost : Lost (chunk ++ future) request) : Lost future (request.receive chunk) := by
  have missing := lost.missing
  have room := lost.room
  simp only [List.length_append] at missing room
  have checked := lost.checked
  exact ⟨lost.checkState, lost.contentLength, by simp only [RequestState.receive]; omega,
    by simp only [RequestState.receive]; omega, by simp only [RequestState.receive]; omega⟩

section Request

variable {head : RequestHead} {body : List UInt8} (declared : head.contentLength = body.length)
  (short : head.bytes.length + body.length < readBufferSize) (nonempty : body ≠ [])

include short in
/-- There is room for what is still to come. -/
theorem Waiting.room {future : List UInt8} {request : RequestState}
    (waiting : Waiting head body future request) :
    request.readIdx + future.length < readBufferSize := by
  rcases waiting with inRequestLine | ⟨left, inHeaders⟩ | inBody
  · obtain ⟨text, received, inLine⟩ := inRequestLine.at_line
    have size := congrArg List.length received
    simp only [List.length_append] at size
    rw [inLine.readIdx]
    omega
  · obtain ⟨start, text, received, inLine, short⟩ := inHeaders.at_line
    rw [List.length_append] at short
    rw [inLine.readIdx]
    omega
  · exact inBody.room

include declared short nonempty in
/-- `process_read` waits inside the header block or comes to the body. -/
theorem Waiting.run {future : List UInt8} {request : RequestState}
    (waiting : Waiting head body future request) :
    (body.length < future.length ∧ ∃ next,
      request.processRead = some (.code .noRequest next) ∧ Waiting head body future next) ∨
    ∃ next, request.processRead = Loop.run processPass passBound (.ok, next) ∧
      InBody body future next := by
  have headers : ∀ left request, InHeaders left body future request →
      (body.length < future.length ∧ ∃ next,
        request.processRead = some (.code .noRequest next) ∧ Waiting head body future next) ∨
      ∃ next, request.processRead = Loop.run processPass passBound (.ok, next) ∧
        InBody body future next := by
    intro left request inHeaders
    rcases inHeaders.run nonempty with ⟨before, left, next, waits, stays⟩ | ⟨_, next, comes, inBody⟩
    · exact .inl ⟨before, next, waits, .inr (.inl ⟨left, stays⟩)⟩
    · exact .inr ⟨next, comes, inBody⟩
  rcases waiting with inRequestLine | ⟨left, inHeaders⟩ | inBody
  · rcases inRequestLine.run declared short with ⟨before, next, waits, stays⟩ |
      ⟨next, comes, inHeaders⟩
    · exact .inl ⟨before, next, waits, .inl stays⟩
    · simp only [processRead, comes]
      exact headers head.headers next inHeaders
  · exact headers left request inHeaders
  · exact .inr ⟨request, rfl, inBody⟩

theorem round_of_delivers {trigMode : Int} {results : List RecvResult} {chunk : List UInt8}
    {request : RequestState} (room : request.readIdx + chunk.length < readBufferSize)
    (delivers : Delivers trigMode results chunk) :
    request.round trigMode results = (request.receive chunk).processRead := by
  simp only [RequestState.round, readOnce_of_delivers delivers room]

include short in
/-- A round hands what it received to `process_read`. -/
theorem Waiting.round {trigMode : Int} {results : List RecvResult} {chunk future : List UInt8}
    {request : RequestState} (waiting : Waiting head body (chunk ++ future) request)
    (delivers : Delivers trigMode results chunk) :
    request.round trigMode results = (request.receive chunk).processRead := by
  have room := waiting.room short
  rw [List.length_append] at room
  exact round_of_delivers (by omega) delivers

theorem Lost.round {trigMode : Int} {results : List RecvResult} {chunk future : List UInt8}
    {request : RequestState} (lost : Lost (chunk ++ future) request)
    (delivers : Delivers trigMode results chunk) :
    ∃ next, request.round trigMode results = some (.code .noRequest next) ∧ Lost future next := by
  have room := lost.room
  rw [List.length_append] at room
  rw [round_of_delivers (by omega) delivers]
  exact lost.receive.run .ok

/-- A lost parser never calls `do_request` again. -/
theorem Lost.not_servesBody {trigMode : Int} {rounds : List (List RecvResult)}
    {chunks : List (List UInt8)} {results : List RecvResult} {last : List UInt8}
    {request : RequestState} (delivered : List.Forall₂ (Delivers trigMode) rounds chunks)
    (lastDelivered : Delivers trigMode results last)
    (lost : Lost (chunks.flatten ++ last) request) :
    ¬request.ServesBody trigMode body rounds results := by
  induction delivered generalizing request with
  | nil =>
      rintro ⟨next, served, _⟩
      rw [List.flatten_nil, List.nil_append, ← List.append_nil last] at lost
      obtain ⟨waiting, waits, _⟩ := lost.round lastDelivered
      simp [waits] at served
  | @cons earlier chunk rounds chunks delivers _ ih =>
      rintro ⟨next, waits, served⟩
      rw [List.flatten_cons, List.append_assoc] at lost
      obtain ⟨following, returned, stillLost⟩ := lost.round delivers
      rw [returned] at waits
      cases waits
      exact ih stillLost served

include declared short nonempty in
/-- From any point of a request on, the rounds serve its body exactly when each of
them that ends inside the body leaves it undisturbed. -/
theorem Waiting.servesBody_iff {trigMode : Int} {rounds : List (List RecvResult)}
    {chunks : List (List UInt8)} {results : List RecvResult} {last : List UInt8}
    {request : RequestState} (delivered : List.Forall₂ (Delivers trigMode) rounds chunks)
    (lastDelivered : Delivers trigMode results last) (some : last ≠ [])
    (waiting : Waiting head body (chunks.flatten ++ last) request)
    (undisturbed : Undisturbed body (body.length - (chunks.flatten ++ last).length)) :
    request.ServesBody trigMode body rounds results ↔
      ∀ part, part <+: chunks →
        Undisturbed body
          (body.length - ((chunks.flatten ++ last).length - part.flatten.length)) := by
  induction delivered generalizing request with
  | nil =>
      rw [List.flatten_nil, List.nil_append, ← List.append_nil last] at waiting
      have completes : ∃ next, request.round trigMode results =
          Option.some (.request next) ∧ next.Denotes body := by
        rw [waiting.round short lastDelivered]
        rcases waiting.receive.run declared short nonempty with
          ⟨before, _⟩ | ⟨next, comes, inBody⟩
        · exact absurd before (Nat.not_lt_zero _)
        · rw [comes]
          exact inBody.run_complete
      constructor
      · intro _ part isPart
        rw [List.prefix_nil.mp isPart]
        exact undisturbed
      · exact fun _ => completes
  | @cons earlier chunk rounds chunks delivers _ ih =>
      rw [List.flatten_cons, List.append_assoc] at waiting
      have incomplete : chunks.flatten ++ last ≠ [] := by simp [some]
      have returned := waiting.round short delivers
      have parts : (∀ part, part <+: chunk :: chunks → Undisturbed body
            (body.length - (((chunk :: chunks).flatten ++ last).length - part.flatten.length))) ↔
          ∀ part, part <+: chunks → Undisturbed body
            (body.length - ((chunks.flatten ++ last).length - part.flatten.length)) := by
        constructor
        · intro all part isPart
          have longer := all (chunk :: part) ((List.prefix_cons_inj chunk).mpr isPart)
          simpa [Nat.add_assoc, Nat.add_sub_add_left] using longer
        · intro all part isPart
          rcases List.prefix_cons_iff.mp isPart with rfl | ⟨rest, rfl, isRest⟩
          · exact undisturbed
          · simpa [Nat.add_assoc, Nat.add_sub_add_left] using all rest isRest
      rw [parts]
      by_cases here : Undisturbed body (body.length - (chunks.flatten ++ last).length)
      · have goesOn : ∃ next, request.round trigMode earlier =
            Option.some (.code .noRequest next) ∧
            Waiting head body (chunks.flatten ++ last) next := by
          rw [returned]
          rcases waiting.receive.run declared short nonempty with
            ⟨_, next, waits, stays⟩ | ⟨next, comes, inBody⟩
          · exact ⟨next, waits, stays⟩
          · exact ⟨next, comes.trans (inBody.run_undisturbed incomplete here), .inr (.inr inBody)⟩
        obtain ⟨next, waits, stays⟩ := goesOn
        rw [← ih stays here]
        constructor
        · rintro ⟨other, otherWaits, served⟩
          rw [waits] at otherWaits
          cases otherWaits
          exact served
        · exact fun served => ⟨next, waits, served⟩
      · constructor
        · rintro ⟨next, waits, served⟩
          exfalso
          rw [returned] at waits
          rcases waiting.receive.run declared short nonempty with
            ⟨before, _⟩ | ⟨reached, comes, inBody⟩
          · refine here ?_
            rw [Nat.sub_eq_zero_of_le (Nat.le_of_lt before)]
            exact .inl rfl
          · obtain ⟨following, lostHere, lost⟩ := inBody.run_disturbed incomplete here
            rw [comes, lostHere] at waits
            cases waits
            exact lost.not_servesBody ‹_› lastDelivered served
        · intro all
          exact absurd (all [] (List.nil_prefix)) (by simpa using here)

end Request

/-- **A request that arrives in pieces is served exactly when every round that ends
inside its body leaves the body undisturbed.**  The rounds start on a connection
that has just been initialised, bring the bytes of the request one after the other,
and the last one brings the last byte. -/
theorem servesBody_iff_undisturbed (head : RequestHead) {body : List UInt8}
    (declared : head.contentLength = body.length) (nonempty : body ≠ [])
    (short : head.bytes.length + body.length < readBufferSize) (slot : RequestState)
    {trigMode : Int} {rounds : List (List RecvResult)} {chunks : List (List UInt8)}
    {results : List RecvResult} {last : List UInt8}
    (delivered : List.Forall₂ (Delivers trigMode) rounds chunks)
    (lastDelivered : Delivers trigMode results last) (some : last ≠ [])
    (cut : chunks.flatten ++ last = head.bytes ++ body) :
    slot.init.ServesBody trigMode body rounds results ↔
      ∀ part, part <+: chunks →
        Undisturbed body (part.flatten.length - head.bytes.length) := by
  have size : (chunks.flatten ++ last).length = head.bytes.length + body.length := by
    rw [cut, List.length_append]
  have waiting : Waiting head body (chunks.flatten ++ last) slot.init :=
    .inl ⟨⟨[], cut, rfl, rfl, nofun, 0, Nat.zero_le _, Nat.zero_le _, rfl⟩, rfl, rfl⟩
  have untouched : Undisturbed body (body.length - (chunks.flatten ++ last).length) :=
    .inl (by omega)
  rw [waiting.servesBody_iff declared short nonempty delivered lastDelivered some untouched]
  have counts : ∀ part, part <+: chunks →
      body.length - ((chunks.flatten ++ last).length - part.flatten.length) =
        part.flatten.length - head.bytes.length := by
    rintro part ⟨rest, rfl⟩
    simp only [List.flatten_append, List.length_append] at size ⊢
    omega
  exact ⟨fun all part isPart => counts part isPart ▸ all part isPart,
    fun all part isPart => (counts part isPart).symm ▸ all part isPart⟩

/-- A login request with four bytes of form data. -/
def loginHead : RequestHead where
  requestLine := ascii "POST /2 HTTP/1.1"
  headers := [ascii "Content-Length:4"]
  plain := by
    unfold Plain
    decide
  accepted := by decide
  nonblank := by decide

/-- Cut right behind its header block, the request is served. -/
theorem servesBody_iff_undisturbed_login :
    (ofLine []).init.ServesBody 1 (ascii "abcd")
      [[.data loginHead.bytes, .again]] [.data (ascii "ab"), .data (ascii "cd"), .again] :=
  (servesBody_iff_undisturbed loginHead (by decide) (by decide) (by decide) _
    (.cons (.more (by decide) (by decide) (.last (by decide))) .nil)
    (.more (by decide) (by decide) (.more (by decide) (by decide) (.last (by decide))))
    (by decide) (by decide)).mpr (by
      intro part isPart
      rcases List.prefix_cons_iff.mp isPart with rfl | ⟨rest, rfl, isRest⟩
      · exact .inl rfl
      · rw [List.prefix_nil.mp isRest]
        exact .inl rfl)

/-- Cut in the middle of its body it is not: after "ab" `parse_line` has moved behind
these bytes, and "cd" no longer completes the body. -/
theorem not_servesBody_login :
    loginHead.contentLength = (ascii "abcd").length ∧
      Delivers 0 [.data (loginHead.bytes ++ ascii "ab")] (loginHead.bytes ++ ascii "ab") ∧
      Delivers 0 [.data (ascii "cd")] (ascii "cd") ∧
      ¬(ofLine []).init.ServesBody 0 (ascii "abcd")
        [[.data (loginHead.bytes ++ ascii "ab")]] [.data (ascii "cd")] := by
  refine ⟨by decide, .level rfl (by decide), .level rfl (by decide), ?_⟩
  rintro ⟨next, waits, following, served, _⟩
  have ends :
      (((ofLine []).init.round 0 [.data (loginHead.bytes ++ ascii "ab")]).bind
          ReadOutcome.returned).map (fun next =>
        ((next.round 0 [.data (ascii "cd")]).bind ReadOutcome.served).isSome) = some false := by
    decide +kernel
  simp [waits, served, ReadOutcome.returned, ReadOutcome.served] at ends

end RequestState

end TimeGANWebServer.Http
