import TimeGANWebServer.Http.Cursors

/-!
# Heads that arrive in pieces

A function on an ended line reads nothing behind the line, so that it commutes with the
receipt of more bytes.  `process_read` on a part of a head therefore leaves the parser in a
state from which it goes on as if it had not been called, and how a head is cut into reads
changes neither its outcome nor what the parser finds in it.
-/

namespace TimeGANWebServer.Http

open TimeGANWebServer.Support

/-- What the parser finds in the head of a request.  A pointer comes with the string it
points to. -/
structure HeadFields where
  method : Method
  cgi : Int
  url : Option (Int × List UInt8)
  version : Option (Int × List UInt8)
  host : Option (Int × List UInt8)
  cookie : List UInt8
  linger : Bool
  contentLength : Int
  deriving DecidableEq

namespace RequestState

def fields (request : RequestState) : HeadFields where
  method := request.method
  cgi := request.cgi
  url := request.url.map fun start => (start, request.str start)
  version := request.version.map fun start => (start, request.str start)
  host := request.host.map fun start => (start, request.str start)
  cookie := request.cookie
  linger := request.linger
  contentLength := request.contentLength

/-! ## Pointers into the head -/

/-- Each string the head's pointers point to ends in front of an index. -/
def Anchored (request : RequestState) (limit : Int) : Prop :=
  ∀ pointer, some pointer ∈ [request.url, request.version, request.host] →
    ∃ stop, pointer ≤ stop ∧ stop < limit ∧ request.readBuf stop = 0

/-- Two parsers have found the same and have the same bytes in front of an index. -/
structure SameHead (limit : Int) (before after : RequestState) : Prop where
  method : after.method = before.method
  cgi : after.cgi = before.cgi
  url : after.url = before.url
  version : after.version = before.version
  host : after.host = before.host
  cookie : after.cookie = before.cookie
  linger : after.linger = before.linger
  contentLength : after.contentLength = before.contentLength
  below : ∀ index < limit, after.readBuf index = before.readBuf index

theorem Anchored.mono {request : RequestState} {limit later : Int}
    (anchored : request.Anchored limit) (ordered : limit ≤ later) : request.Anchored later := by
  intro pointer points
  obtain ⟨stop, low, high, nul⟩ := anchored pointer points
  exact ⟨stop, low, Int.lt_of_lt_of_le high ordered, nul⟩

theorem SameHead.trans {limit : Int} {first second third : RequestState}
    (before : SameHead limit first second) (after : SameHead limit second third) :
    SameHead limit first third where
  method := after.method.trans before.method
  cgi := after.cgi.trans before.cgi
  url := after.url.trans before.url
  version := after.version.trans before.version
  host := after.host.trans before.host
  cookie := after.cookie.trans before.cookie
  linger := after.linger.trans before.linger
  contentLength := after.contentLength.trans before.contentLength
  below index low := (after.below index low).trans (before.below index low)

/-- A string in front of an index stays if the bytes there do. -/
theorem str_eq_of_below {before after : RequestState} {limit pointer stop : Int}
    (low : pointer ≤ stop) (high : stop < limit) (nul : before.readBuf stop = 0)
    (below : ∀ index < limit, after.readBuf index = before.readBuf index)
    (room : limit ≤ readBufferSize) : after.str pointer = before.str pointer := by
  have agree : before.readBuf.AgreeTo after.readBuf pointer stop :=
    ⟨nul, fun index _ last => (below index (by omega)).symm⟩
  exact (agree.cstring low (by omega)).symm

/-- A change of the buffer behind an index, or of a cursor, keeps what the head holds. -/
theorem SameHead.fields {limit : Int} {before after : RequestState}
    (same : SameHead limit before after) (anchored : before.Anchored limit)
    (room : limit ≤ readBufferSize) : after.fields = before.fields := by
  have strings : ∀ pointer, some pointer ∈ [before.url, before.version, before.host] →
      after.str pointer = before.str pointer := by
    intro pointer points
    obtain ⟨stop, low, high, nul⟩ := anchored pointer points
    exact str_eq_of_below low high nul same.below room
  have pointers : ∀ field ∈ [before.url, before.version, before.host],
      field.map (fun start => (start, after.str start)) =
        field.map fun start => (start, before.str start) := by
    intro field member
    cases field with
    | none => rfl
    | some pointer => simp only [Option.map_some, strings pointer member]
  have urls := pointers before.url (by simp)
  have versions := pointers before.version (by simp)
  have hosts := pointers before.host (by simp)
  simp only [RequestState.fields, same.method, same.cgi, same.url, same.version, same.host,
    same.cookie, same.linger, same.contentLength, urls, versions, hosts]

/-- Received bytes stand behind the head. -/
theorem sameHead_receive {request : RequestState} {limit : Int} (chunk : List UInt8)
    (inside : limit ≤ request.readIdx) : SameHead limit request (request.receive chunk) :=
  ⟨rfl, rfl, rfl, rfl, rfl, rfl, rfl, rfl,
    fun _ low => receive_readBuf chunk (Int.lt_of_lt_of_le low inside)⟩

/-! ## Functions on a line, and more bytes -/

/-- More bytes behind the result of a function. -/
def receiveResult (chunk : List UInt8) :
    Except Fault (HttpCode × RequestState) → Except Fault (HttpCode × RequestState)
  | .ok (code, request) => .ok (code, request.receive chunk)
  | .error fault => .error fault

/-- The bytes of a line that ends in front of `m_read_idx` stay. -/
theorem agree_receive {request : RequestState} {stop : Int} (text : Int) (chunk : List UInt8)
    (nul : request.readBuf stop = 0) (inside : stop < request.readIdx) :
    request.readBuf.AgreeTo (request.receive chunk).readBuf text stop :=
  ⟨nul, fun _ _ high => (receive_readBuf chunk (Int.lt_of_le_of_lt high inside)).symm⟩

theorem str_receive {request : RequestState} {text stop : Int} (chunk : List UInt8)
    (ordered : text ≤ stop) (nul : request.readBuf stop = 0) (inside : stop < request.readIdx)
    (room : stop < readBufferSize) : (request.receive chunk).str text = request.str text :=
  ((agree_receive text chunk nul inside).cstring ordered room).symm

theorem parseUrl_receive {request : RequestState} {url stop : Int} (chunk : List UInt8)
    (ordered : url ≤ stop) (nul : request.readBuf stop = 0) (inside : stop < request.readIdx)
    (room : stop < readBufferSize) :
    (request.receive chunk).parseUrl url = receiveResult chunk (request.parseUrl url) := by
  have agree := agree_receive url chunk nul inside
  obtain ⟨first, firstInside⟩ := skipScheme_congr (ascii "http://") agree ordered room
  simp only [parseUrl, ← first]
  cases httpSkipped : request.skipScheme url (ascii "http://") with
  | none => rfl
  | some url =>
      have bounds := firstInside url httpSkipped
      obtain ⟨second, secondInside⟩ := skipScheme_congr (ascii "https://")
        (agree.mono url bounds.1) bounds.2 room
      simp only [← second]
      cases httpsSkipped : request.skipScheme url (ascii "https://") with
      | none => rfl
      | some url =>
          have bounds := secondInside url httpsSkipped
          simp only [receive_readBuf chunk (Int.lt_of_le_of_lt bounds.2 inside)]
          split <;> rfl

theorem parseTarget_receive {request : RequestState} {afterMethod stop : Int} (chunk : List UInt8)
    (ordered : afterMethod ≤ stop) (nul : request.readBuf stop = 0)
    (inside : stop < request.readIdx) (room : stop < readBufferSize) :
    (request.receive chunk).parseTarget afterMethod =
      receiveResult chunk (request.parseTarget afterMethod) := by
  have urlInside := skip_blanks_le ordered nul
  simp only [parseTarget, str_receive chunk ordered nul inside room]
  generalize afterMethod + (strspn (request.str afterMethod) blanks : Int) = url at *
  simp only [str_receive chunk urlInside nul inside room]
  cases found : strpbrk (request.str url) blanks with
  | none => rfl
  | some gap =>
      have gapInside := blank_lt urlInside nul found
      have before : url + gap < request.readIdx := by omega
      let target : RequestState := { request with readBuf := request.readBuf.set (url + gap) 0 }
      have nulAfter : target.readBuf stop = 0 := (Memory.set_of_ne 0 (by omega)).trans nul
      have behind : url + gap + 1 ≤ stop := by omega
      have skipped : url + gap + 1 + strspn (target.str (url + gap + 1)) blanks ≤ stop :=
        skip_blanks_le behind nulAfter
      simp only [receive_set 0 chunk before]
      have rest := @str_receive target _ _ chunk behind nulAfter inside room
      have version := @str_receive target _ _ chunk skipped nulAfter inside room
      simp only [target, RequestState.receive, str] at rest version ⊢
      simp only [rest, version]
      split
      · exact @parseUrl_receive { target with url := some url, version := some _ } _ stop chunk
          urlInside nulAfter inside room
      · rfl

theorem parseRequestLine_receive {request : RequestState} {text stop : Int} (chunk : List UInt8)
    (ordered : text ≤ stop) (nul : request.readBuf stop = 0) (inside : stop < request.readIdx)
    (room : stop < readBufferSize) :
    (request.receive chunk).parseRequestLine text =
      receiveResult chunk (request.parseRequestLine text) := by
  simp only [parseRequestLine, str_receive chunk ordered nul inside room]
  cases found : strpbrk (request.str text) blanks with
  | none => rfl
  | some gap =>
      have gapInside := blank_lt ordered nul found
      have before : text + gap < request.readIdx := by omega
      let ended : RequestState := { request with readBuf := request.readBuf.set (text + gap) 0 }
      have nulAfter : ended.readBuf stop = 0 := (Memory.set_of_ne 0 (by omega)).trans nul
      have method := @str_receive ended _ _ chunk ordered nulAfter inside room
      simp only [receive_set 0 chunk before]
      simp only [ended, RequestState.receive, str] at method ⊢
      simp only [method]
      split
      · have rest := @parseTarget_receive
          { ended with method := .get, url := some (text + gap + 1) } _ stop chunk gapInside
          nulAfter inside room
        simpa only [ended, RequestState.receive] using rest
      · split
        · have rest := @parseTarget_receive
            { ended with method := .post, cgi := 1, url := some (text + gap + 1) } _ stop chunk
            gapInside nulAfter inside room
          simpa only [ended, RequestState.receive] using rest
        · rfl

theorem parseHeaders_receive {request : RequestState} {text stop : Int} (chunk : List UInt8)
    (ordered : text ≤ stop) (nul : request.readBuf stop = 0) (inside : stop < request.readIdx)
    (room : stop < readBufferSize) :
    (request.receive chunk).parseHeaders text =
      ((request.parseHeaders text).1, (request.parseHeaders text).2.receive chunk) := by
  simp only [parseHeaders, str_receive chunk ordered nul inside room,
    receive_readBuf chunk (Int.lt_of_le_of_lt ordered inside)]
  repeat' split
  all_goals first | rfl | contradiction

/-! ## Pointers a line yields -/

theorem parseUrl_frame {request next : RequestState} {url stop : Int} {code : HttpCode}
    (ordered : url ≤ stop) (nul : request.readBuf stop = 0) (room : stop < readBufferSize)
    (parsed : request.parseUrl url = .ok (code, next)) :
    ∃ target state, next = { request with url := target, checkState := state } ∧
      ∀ pointer, target = some pointer → pointer ≤ stop := by
  have whole : request.readBuf.AgreeTo request.readBuf url stop := ⟨nul, fun _ _ _ => rfl⟩
  have first := (skipScheme_congr (ascii "http://") whole ordered room).2
  simp only [parseUrl] at parsed
  split at parsed
  · contradiction
  case _ found skipped =>
      have bounds := first found skipped
      have second :=
        (skipScheme_congr (ascii "https://") (whole.mono found bounds.1) bounds.2 room).2
      split at parsed
      · cases parsed
        exact ⟨none, _, rfl, by simp⟩
      case _ target skipped =>
          have inside : ∀ pointer, some target = some pointer → pointer ≤ stop := by
            rintro _ ⟨⟩
            exact (second target skipped).2
          split at parsed <;> cases parsed <;> exact ⟨some target, _, rfl, inside⟩

theorem parseTarget_frame {request next : RequestState} {afterMethod stop : Int} {code : HttpCode}
    (ordered : afterMethod ≤ stop) (nul : request.readBuf stop = 0) (room : stop < readBufferSize)
    (parsed : request.parseTarget afterMethod = .ok (code, next)) :
    ∃ readBuf target version state,
      next = { request with
        readBuf := readBuf, url := target, version := version, checkState := state } ∧
      (∀ index < afterMethod, readBuf index = request.readBuf index) ∧
      ∀ pointer, target = some pointer ∨ version = some pointer → pointer ≤ stop := by
  have urlInside := skip_blanks_le ordered nul
  simp only [parseTarget] at parsed
  split at parsed
  · cases parsed
    refine ⟨_, _, _, _, rfl, fun _ _ => rfl, ?_⟩
    rintro pointer (⟨⟨⟩⟩ | ⟨⟨⟩⟩)
    exact urlInside
  case _ gap found =>
      have gapInside := blank_lt urlInside nul found
      generalize atUrl : afterMethod + (strspn (request.str afterMethod) blanks : Int) = url at *
      have nulAfter : (request.readBuf.set (url + gap) 0) stop = 0 :=
        (Memory.set_of_ne 0 (by omega)).trans nul
      have behind : url + gap + 1 ≤ stop := by omega
      have versionInside := @skip_blanks_le
        { request with readBuf := request.readBuf.set (url + gap) 0 } _ stop behind nulAfter
      have below : ∀ index < afterMethod,
          (request.readBuf.set (url + gap) 0) index = request.readBuf index :=
        fun index low => Memory.set_of_ne 0 (by omega)
      split at parsed
      · obtain ⟨target, state, rfl, inside⟩ := parseUrl_frame urlInside nulAfter room parsed
        refine ⟨_, target, _, state, rfl, below, ?_⟩
        rintro pointer (isTarget | ⟨⟨⟩⟩)
        · exact inside pointer isTarget
        · exact versionInside
      · cases parsed
        refine ⟨_, _, _, _, rfl, below, ?_⟩
        rintro pointer (⟨⟨⟩⟩ | ⟨⟨⟩⟩)
        · exact urlInside
        · exact versionInside

theorem parseRequestLine_frame {request next : RequestState} {text stop : Int} {code : HttpCode}
    (ordered : text ≤ stop) (nul : request.readBuf stop = 0) (room : stop < readBufferSize)
    (parsed : request.parseRequestLine text = .ok (code, next)) :
    ∃ readBuf method cgi target version state,
      next = { request with
        readBuf := readBuf, method := method, cgi := cgi, url := target, version := version,
        checkState := state } ∧
      (∀ index < text, readBuf index = request.readBuf index) ∧
      ∀ pointer, target = some pointer ∨ version = some pointer →
        pointer ≤ stop ∨ request.version = some pointer := by
  simp only [parseRequestLine] at parsed
  split at parsed
  · cases parsed
    refine ⟨_, _, _, _, _, _, rfl, fun _ _ => rfl, ?_⟩
    rintro pointer (⟨⟨⟩⟩ | isVersion)
    exact .inr isVersion
  case _ gap found =>
      have gapInside := blank_lt ordered nul found
      have nulAfter : (request.readBuf.set (text + gap) 0) stop = 0 :=
        (Memory.set_of_ne 0 (by omega)).trans nul
      have below : ∀ index < text,
          (request.readBuf.set (text + gap) 0) index = request.readBuf index :=
        fun index low => Memory.set_of_ne 0 (by omega)
      have behind : text + gap + 1 ≤ stop := by omega
      split at parsed
      · obtain ⟨readBuf, target, version, state, rfl, kept, inside⟩ :=
          parseTarget_frame behind nulAfter room parsed
        exact ⟨readBuf, _, _, target, version, state, rfl,
          fun index low => (kept index (by omega)).trans (below index low),
          fun pointer points => .inl (inside pointer points)⟩
      · split at parsed
        · obtain ⟨readBuf, target, version, state, rfl, kept, inside⟩ :=
            parseTarget_frame behind nulAfter room parsed
          exact ⟨readBuf, _, _, target, version, state, rfl,
            fun index low => (kept index (by omega)).trans (below index low),
            fun pointer points => .inl (inside pointer points)⟩
        · cases parsed
          refine ⟨_, _, _, _, _, _, rfl, below, ?_⟩
          rintro pointer (⟨⟨⟩⟩ | isVersion)
          · exact .inl behind
          · exact .inr isVersion

/-- The value of a header begins within its line. -/
theorem valueOffset_le {line name : List UInt8}
    (named : strncasecmp line name name.length = true) : valueOffset line name ≤ line.length := by
  have long := strncasecmp_length named
  have skipped := strspn_le (line.drop name.length) blanks
  rw [List.length_drop] at skipped
  rw [valueOffset]
  omega

/-- The pointers in `m_host` after a header line. -/
theorem parseHeaders_frame {request : RequestState} {text stop : Int} (ordered : text ≤ stop)
    (nul : request.readBuf stop = 0) :
    let next := (request.parseHeaders text).2
    next.url = request.url ∧ next.version = request.version ∧
      ∀ pointer, next.host = some pointer → pointer ≤ stop ∨ request.host = some pointer := by
  have length := str_length_le ordered nul
  simp only [parseHeaders]
  split
  · split <;> exact ⟨rfl, rfl, fun _ => .inr⟩
  · split
    · split <;> exact ⟨rfl, rfl, fun _ => .inr⟩
    · split
      · exact ⟨rfl, rfl, fun _ => .inr⟩
      · split
        case isTrue named =>
            refine ⟨rfl, rfl, ?_⟩
            rintro _ ⟨⟩
            have inside := @valueOffset_le _ (ascii "Host:") named
            exact .inl (by omega)
        case isFalse => split <;> exact ⟨rfl, rfl, fun _ => .inr⟩

/-- After a request line, pointers are into it or where they were. -/
theorem AtEnd.anchored_requestLine {request next : RequestState} {stop : Int} {code : HttpCode}
    (ended : request.AtEnd stop) (anchored : request.Anchored request.startLine)
    (parsed : RequestState.parseRequestLine { request with startLine := request.checkedIdx }
      request.startLine = .ok (code, next)) : next.Anchored (stop + 1) := by
  have short : stop < readBufferSize := by
    have read := ended.cursors.read
    have room := ended.cursors.room
    have checkedIdx := ended.checkedIdx
    omega
  have behind := (parseRequestLine_keeps parsed).1.behind stop ended.inside ended.nul stop
    (Int.le_refl _)
  have nul : next.readBuf stop = 0 := behind.trans ended.nul
  obtain ⟨readBuf, method, cgi, target, version, state, rfl, below, inside⟩ :=
    @parseRequestLine_frame { request with startLine := request.checkedIdx } _ _ stop _
      ended.inside ended.nul short parsed
  have old : ∀ pointer, some pointer ∈ [request.url, request.version, request.host] →
      ∃ other, pointer ≤ other ∧ other < stop + 1 ∧ readBuf other = 0 := by
    intro pointer points
    obtain ⟨other, low, high, zero⟩ := anchored pointer points
    have inLine := ended.inside
    exact ⟨other, low, by omega, (below other high).trans zero⟩
  intro pointer points
  simp only [List.mem_cons, List.not_mem_nil, or_false] at points
  rcases points with isTarget | isVersion | isHost
  · rcases inside pointer (.inl isTarget.symm) with low | isOld
    · exact ⟨stop, low, by omega, nul⟩
    · have same : request.version = some pointer := isOld
      exact old pointer (by simp [same])
  · rcases inside pointer (.inr isVersion.symm) with low | isOld
    · exact ⟨stop, low, by omega, nul⟩
    · have same : request.version = some pointer := isOld
      exact old pointer (by simp [same])
  · have same : some pointer = request.host := isHost
    exact old pointer (by simp [same])

theorem AtEnd.anchored_headers {request : RequestState} {stop : Int} (ended : request.AtEnd stop)
    (anchored : request.Anchored request.startLine) :
    Anchored (RequestState.parseHeaders { request with startLine := request.checkedIdx }
      request.startLine).2 (stop + 1) := by
  have readBuf := (parseHeaders_keeps { request with startLine := request.checkedIdx }
    request.startLine).1
  have inLine := ended.inside
  obtain ⟨url, version, host⟩ := @parseHeaders_frame
    { request with startLine := request.checkedIdx } _ _ ended.inside ended.nul
  have old : ∀ pointer, some pointer ∈ [request.url, request.version, request.host] →
      ∃ other, pointer ≤ other ∧ other < stop + 1 ∧ request.readBuf other = 0 := by
    intro pointer points
    obtain ⟨other, low, high, zero⟩ := anchored pointer points
    exact ⟨other, low, by omega, zero⟩
  intro pointer points
  rw [readBuf]
  simp only [url, version, List.mem_cons, List.not_mem_nil, or_false] at points
  rcases points with isTarget | isVersion | isHost
  · exact old pointer (by simp [isTarget])
  · exact old pointer (by simp [isVersion])
  · rcases host pointer isHost.symm with low | isOld
    · exact ⟨stop, low, by omega, ended.nul⟩
    · have same : request.host = some pointer := isOld
      exact old pointer (by simp [same])

end RequestState

/-! ## Passes over a head -/

namespace ReadOutcome

/-- More bytes behind the parser of an outcome. -/
def receive (chunk : List UInt8) : ReadOutcome → ReadOutcome
  | .code ret next => .code ret (next.receive chunk)
  | .request next => .request (next.receive chunk)
  | .fault reason next => .fault reason (next.receive chunk)

/-- An outcome that further bytes do not change. -/
def Settled : ReadOutcome → Prop
  | .code .badRequest next => next.Anchored next.readIdx ∧ next.readIdx ≤ readBufferSize
  | .code _ _ => False
  | .request next => next.Anchored next.readIdx ∧ next.readIdx ≤ readBufferSize
  | .fault _ next => next.checkState ≠ .content

end ReadOutcome

namespace RequestState

/-- The parser stands in a head. -/
structure InHead (request : RequestState) : Prop where
  cursors : request.Cursors
  anchored : request.Anchored request.startLine
  notBody : request.checkState ≠ .content

/-- What a pass over a line of a head does: it goes on with the next line or the body, or
comes to an outcome. -/
inductive HeadPass (readIdx : Int) : Pass (LineStatus × RequestState) ReadOutcome → Prop where
  | again {next : RequestState} (cursors : next.Cursors) (anchored : next.Anchored next.startLine)
      (fresh : next.checkedIdx = next.startLine) (received : next.readIdx = readIdx)
      (declared : next.checkState = .content → next.contentLength ≠ 0) :
      HeadPass readIdx (.again (.ok, next))
  | done {outcome : ReadOutcome} (settled : outcome.Settled) : HeadPass readIdx (.done outcome)

/-- `parse_request_line` rejects a line or goes on. -/
theorem parseRequestLine_code {request next : RequestState} {text : Int} {code : HttpCode}
    (parsed : request.parseRequestLine text = .ok (code, next)) :
    code = .badRequest ∨ code = .noRequest := by
  simp only [parseRequestLine, parseTarget, parseUrl] at parsed
  repeat' split at parsed
  all_goals cases parsed
  all_goals first | exact .inl rfl | exact .inr rfl

/-- `parse_headers` comes to the body only if one is declared, and rejects nothing. -/
theorem parseHeaders_code (request : RequestState) (text : Int) :
    let result := request.parseHeaders text
    (result.1 = .noRequest ∨
        result.1 = .getRequest ∧ result.2.checkState = request.checkState) ∧
      (result.2.checkState = request.checkState ∨
        result.2.checkState = .content ∧ result.2.contentLength ≠ 0) := by
  simp only [parseHeaders]
  split
  · split
    case isTrue declared => exact ⟨.inl rfl, .inr ⟨rfl, declared⟩⟩
    case isFalse => exact ⟨.inr ⟨rfl, rfl⟩, .inl rfl⟩
  · repeat' split
    all_goals exact ⟨.inl rfl, .inl rfl⟩

theorem AtEnd.headPass {request : RequestState} {stop : Int} (ended : request.AtEnd stop)
    (anchored : request.Anchored request.startLine) (notBody : request.checkState ≠ .content) :
    HeadPass request.readIdx request.processLine := by
  have checkedIdx := ended.checkedIdx
  simp only [processLine]
  split
  case h_1 atRequestLine =>
      split
      case h_1 => exact .done notBody
      case h_2 next parsed =>
          have kept := (parseRequestLine_keeps parsed).1
          have pointers := ended.anchored_requestLine anchored parsed
          have cursors := ended.next kept
          have start : next.startLine = stop + 2 := kept.startLine.trans checkedIdx
          have inside := Int.le_trans cursors.checked cursors.read
          exact .done ⟨pointers.mono (by omega), cursors.room⟩
      case h_3 code next notBad parsed =>
          obtain ⟨kept, _, header⟩ := parseRequestLine_keeps parsed
          have pointers := ended.anchored_requestLine anchored parsed
          have start : next.startLine = stop + 2 := kept.startLine.trans checkedIdx
          have accepted : code = .noRequest :=
            (parseRequestLine_code parsed).resolve_left notBad
          refine .again (ended.next kept) (pointers.mono (by omega))
            (kept.checkedIdx.trans kept.startLine.symm) kept.readIdx fun atBody => ?_
          rw [header accepted] at atBody
          contradiction
  case h_2 atHeader =>
      have codes := parseHeaders_code { request with startLine := request.checkedIdx }
        request.startLine
      have keeps := parseHeaders_keeps { request with startLine := request.checkedIdx }
        request.startLine
      have pointers := ended.anchored_headers anchored
      have kept : LineParsed request.startLine { request with startLine := request.checkedIdx }
          (RequestState.parseHeaders { request with startLine := request.checkedIdx }
            request.startLine).2 :=
        LineParsed.of_readBuf_eq keeps.1 keeps.2.1 keeps.2.2.1 keeps.2.2.2
      split
      case h_1 next parsed =>
          simp only [parsed] at codes
          exact absurd codes.1 (by simp)
      case h_2 next parsed =>
          rw [parsed] at kept pointers
          have cursors : next.Cursors := ended.next kept
          have start : next.startLine = stop + 2 := kept.startLine.trans checkedIdx
          have inside := Int.le_trans cursors.checked cursors.read
          exact .done ⟨pointers.mono (by omega), cursors.room⟩
      case h_3 code next notBad notGet parsed =>
          rw [parsed] at kept pointers codes
          have start : next.startLine = stop + 2 := kept.startLine.trans checkedIdx
          refine .again (ended.next kept) (pointers.mono (by omega))
            (kept.checkedIdx.trans kept.startLine.symm) kept.readIdx fun atBody => ?_
          rcases codes.2 with same | ⟨_, declared⟩
          · exact absurd (same.symm.trans atBody) notBody
          · exact declared
  case h_3 atContent => exact absurd atContent notBody

/-- More bytes behind the result of a pass. -/
def receivePass (chunk : List UInt8) :
    Pass (LineStatus × RequestState) ReadOutcome → Pass (LineStatus × RequestState) ReadOutcome
  | .again (lineStatus, request) => .again (lineStatus, request.receive chunk)
  | .done outcome => .done (outcome.receive chunk)

/-- A line of the head is processed the same with more bytes behind it. -/
theorem AtEnd.processLine_receive {request : RequestState} {stop : Int}
    (ended : request.AtEnd stop) (notBody : request.checkState ≠ .content) (chunk : List UInt8) :
    (request.receive chunk).processLine = receivePass chunk request.processLine := by
  have checkedIdx := ended.checkedIdx
  have read := ended.cursors.read
  have room := ended.cursors.room
  have inside : stop < request.readIdx := by omega
  have short : stop < readBufferSize := by omega
  have line := @parseRequestLine_receive { request with startLine := request.checkedIdx } _ stop
    chunk ended.inside ended.nul inside short
  have header := @parseHeaders_receive { request with startLine := request.checkedIdx } _ stop
    chunk ended.inside ended.nul inside short
  simp only [RequestState.receive] at line header
  simp only [processLine, RequestState.receive]
  split
  case h_1 atRequestLine =>
      rw [line]
      cases parsed : RequestState.parseRequestLine
          { request with startLine := request.checkedIdx } request.startLine with
      | error fault => rfl
      | ok result =>
          obtain ⟨code, next⟩ := result
          cases code <;> rfl
  case h_2 atHeader =>
      rw [header]
      cases parsed : RequestState.parseHeaders
          { request with startLine := request.checkedIdx } request.startLine with
      | mk code next => cases code <;> rfl
  case h_3 atContent => exact absurd atContent notBody

/-- A line that `parse_line` takes keeps what the pointers point to. -/
theorem InHead.anchored_endLine {request : RequestState} (inHead : request.InHead) {stop : Int}
    (ordered : request.startLine ≤ stop) : (request.endLine stop).Anchored request.startLine := by
  intro pointer points
  obtain ⟨other, low, high, nul⟩ := inHead.anchored pointer points
  refine ⟨other, low, high, ?_⟩
  simp only [endLine]
  rw [Memory.set_of_ne 0 (by omega), Memory.set_of_ne 0 (by omega), nul]

/-! ## Runs over a head -/

/-- The parser has come to the body. -/
structure AtBody (request : RequestState) : Prop where
  cursors : request.Cursors
  anchored : request.Anchored request.startLine
  fresh : request.checkedIdx = request.startLine
  content : request.checkState = .content
  declared : request.contentLength ≠ 0

/-- More bytes can be received. -/
def Room (request : RequestState) (chunk : List UInt8) : Prop :=
  request.readIdx + chunk.length ≤ readBufferSize

/-- What `process_read` does on a part of a head, and on more of it: it waits and can be
resumed, comes to an outcome, or comes to the body. -/
inductive HeadRun (request : RequestState) : Prop where
  | waits {next : RequestState} (returned : request.processRead = some (.code .noRequest next))
      (inHead : next.InHead) (received : next.readIdx = request.readIdx)
      (resumes : ∀ chunk, request.Room chunk →
        (request.receive chunk).processRead = (next.receive chunk).processRead)
  | ends {outcome : ReadOutcome} (returned : request.processRead = some outcome)
      (settled : outcome.Settled)
      (stays : ∀ chunk, request.Room chunk →
        (request.receive chunk).processRead = some (outcome.receive chunk))
  | body {next : RequestState}
      (comes : request.processRead = Loop.run processPass passBound (.ok, next))
      (atBody : next.AtBody) (received : next.readIdx = request.readIdx)
      (stays : ∀ chunk, request.Room chunk →
        (request.receive chunk).processRead =
          Loop.run processPass passBound (.ok, next.receive chunk))

/-- A pass that goes on leaves the rest to the next state. -/
theorem HeadRun.again {request next : RequestState} (same : request.processRead = next.processRead)
    (received : next.readIdx = request.readIdx)
    (stays : ∀ chunk, request.Room chunk →
      (request.receive chunk).processRead = (next.receive chunk).processRead)
    (headRun : HeadRun next) : HeadRun request := by
  have room : ∀ chunk, request.Room chunk → next.Room chunk := by
    intro chunk fits
    rwa [Room, received]
  cases headRun with
  | waits returned inHead last resumes =>
      exact .waits (same.trans returned) inHead (last.trans received)
        fun chunk fits => (stays chunk fits).trans (resumes chunk (room chunk fits))
  | ends returned settled later =>
      exact .ends (same.trans returned) settled
        fun chunk fits => (stays chunk fits).trans (later chunk (room chunk fits))
  | body comes atBody last later =>
      exact .body (same.trans comes) atBody (last.trans received)
        fun chunk fits => (stays chunk fits).trans (later chunk (room chunk fits))

/-- `process_read` on a part of a head. -/
theorem InHead.headRun {request : RequestState} (inHead : request.InHead) : HeadRun request := by
  have general : ∀ state : LineStatus × RequestState, state.1 = .ok → state.2.InHead →
      HeadRun state.2 := by
    refine Loop.induction processPass_falls fun state ih ok inHead => ?_
    obtain ⟨_, request⟩ := state
    subst ok
    obtain ⟨cursors, anchored, notBody⟩ := inHead
    have later : ∀ chunk, request.Room chunk → ∀ lineStatus next,
        request.parseLine = (lineStatus, next) → lineStatus ≠ .open →
        (request.receive chunk).parseLine = (lineStatus, next.receive chunk) := by
      intro chunk fits lineStatus next parsed notOpen
      rw [cursors.parseLine_receive fits parsed]
      cases lineStatus with
      | ok | bad => rfl
      | «open» => exact absurd rfl notOpen
    cases parsed : request.parseLine with
    | mk lineStatus next =>
        cases lineStatus with
        | ok =>
            obtain ⟨stop, passes, rfl, ended⟩ := cursors.parseLine_ok parsed
            have pointers := InHead.anchored_endLine ⟨cursors, anchored, notBody⟩ ended.inside
            have headPass := ended.headPass pointers notBody
            have pass := processPass_of_line .ok notBody parsed
            have laterPass : ∀ chunk, request.Room chunk →
                processPass (.ok, request.receive chunk) =
                  receivePass chunk (request.endLine stop).processLine := by
              intro chunk fits
              rw [← ended.processLine_receive notBody chunk]
              exact processPass_of_line .ok notBody (later chunk fits _ _ parsed (by simp))
            generalize (request.endLine stop).processLine = passed at headPass pass laterPass
            cases headPass with
            | done settled =>
                exact .ends (Loop.run_of_done pass) settled
                  fun chunk fits => Loop.run_of_done (laterPass chunk fits)
            | @again next cursors anchored fresh received declared =>
                have comes := Loop.run_of_again processPass_falls pass
                have stays := fun chunk fits =>
                  Loop.run_of_again processPass_falls (laterPass chunk fits)
                by_cases content : next.checkState = .content
                · exact .body comes ⟨cursors, anchored, fresh, content, declared content⟩
                    received stays
                · exact (ih _ pass rfl ⟨cursors, anchored, content⟩).again comes received stays
        | bad =>
            obtain ⟨index, passes, rfl, moved⟩ := cursors.parseLine_wait parsed (by simp)
            have again := cursors.parseLine_again parsed (by simp)
            have waits := @processPass_of_wait request _ .ok .bad (by simp [notBody]) parsed
              (by simp)
            refine .waits (Loop.run_of_done waits) ⟨moved, anchored, notBody⟩ rfl
              fun chunk fits => ?_
            refine Loop.run_congr processPass_falls ?_
            have stray := later chunk fits _ _ parsed (by simp)
            have strayAgain := moved.parseLine_receive fits again
            have left := @processPass_of_wait (request.receive chunk) _ .ok _
              (by simp [receive, notBody])
              stray (by simp)
            have right := @processPass_of_wait _ _ .ok _ (by simp [receive, notBody]) strayAgain
              (by simp)
            exact left.trans right.symm
        | «open» =>
            obtain ⟨index, passes, rfl, moved⟩ := cursors.parseLine_wait parsed (by simp)
            have waits := @processPass_of_wait request _ .ok .open (by simp [notBody]) parsed
              (by simp)
            refine .waits (Loop.run_of_done waits) ⟨moved, anchored, notBody⟩ rfl
              fun chunk fits => ?_
            refine Loop.run_congr processPass_falls ?_
            have same : (request.receive chunk).parseLine =
                (RequestState.receive { request with checkedIdx := index } chunk).parseLine :=
              cursors.parseLine_receive fits parsed
            simp only [processPass, same]
            simp [receive, notBody]
  exact general (.ok, request) rfl inHead

/-! ## The body -/

/-- What the head holds once the parser has come to the body: a negative length puts the
NUL behind the body in front of it, if that is in the buffer. -/
def bodyFields (request : RequestState) : HeadFields :=
  if request.contentLength < 0 ∧ 0 ≤ request.startLine + request.contentLength then
    RequestState.fields { request with
      readBuf := request.readBuf.set (request.startLine + request.contentLength) 0 }
  else
    request.fields

end RequestState

/-- How `process_read` ends on a head: with `BAD_REQUEST`, with `NO_REQUEST` in the head,
with a complete request that has no body, in the body, or in undefined behavior. -/
inductive HeadOutcome where
  | badRequest (fields : HeadFields)
  | noRequest (fields : HeadFields)
  | complete (fields : HeadFields)
  | content (fields : HeadFields)
  | fault (fault : Fault)
  deriving DecidableEq

/-- The outcome on the head when `process_read` returns; what is undefined in a body comes behind
the head. -/
def ReadOutcome.head : ReadOutcome → HeadOutcome
  | .code .badRequest next => .badRequest next.fields
  | .code _ next =>
      if next.checkState = .content then .content next.fields else .noRequest next.fields
  | .request next =>
      if next.checkState = .content then .content next.fields else .complete next.fields
  | .fault reason next =>
      if next.checkState = .content then .content next.fields else .fault reason

theorem ReadOutcome.head_request {next : RequestState} (content : next.checkState = .content) :
    (ReadOutcome.request next).head = .content next.fields :=
  if_pos content

theorem ReadOutcome.head_fault {next : RequestState} (reason : Fault)
    (content : next.checkState = .content) :
    (ReadOutcome.fault reason next).head = .content next.fields :=
  if_pos content

theorem ReadOutcome.head_wait {next : RequestState} (content : next.checkState = .content) :
    (ReadOutcome.code .noRequest next).head = .content next.fields :=
  if_pos content

namespace RequestState

/-- Every pass over a body keeps the head. -/
structure InContent (entered request : RequestState) : Prop where
  same : SameHead entered.startLine entered request
  content : request.checkState = .content
  cursors : request.Cursors
  behind : entered.startLine ≤ request.startLine

/-- What a pass over a body does. -/
inductive BodyPass (entered : RequestState) : Pass (LineStatus × RequestState) ReadOutcome →
    Prop where
  | again {next : RequestState} (inContent : InContent entered next) :
      BodyPass entered (.again (.open, next))
  | done {outcome : ReadOutcome} (head : outcome.head = .content entered.fields) :
      BodyPass entered (.done outcome)

theorem AtBody.room {entered : RequestState} (atBody : entered.AtBody) :
    entered.startLine ≤ readBufferSize :=
  Int.le_trans atBody.cursors.checked (Int.le_trans atBody.cursors.read atBody.cursors.room)

/-- `parse_content` on a body with a positive length. -/
theorem InContent.processLine {entered request : RequestState}
    (inContent : InContent entered request) (atBody : entered.AtBody)
    (positive : 0 < entered.contentLength) : BodyPass entered request.processLine := by
  obtain ⟨same, content, cursors, behind⟩ := inContent
  have checked := cursors.checked
  have declared := same.contentLength
  have moved : SameHead entered.startLine entered
      { request with startLine := request.checkedIdx } :=
    same.trans ⟨rfl, rfl, rfl, rfl, rfl, rfl, rfl, rfl, fun _ _ => rfl⟩
  have line := processLine_content content
  generalize request.processLine = passed at line
  cases line with
  | complete _ low high =>
      have kept : SameHead entered.startLine entered { request with
          startLine := request.checkedIdx
          readBuf := request.readBuf.set (request.startLine + request.contentLength) 0
          string := some request.startLine } :=
        same.trans ⟨rfl, rfl, rfl, rfl, rfl, rfl, rfl, rfl,
          fun index low => Memory.set_of_ne 0 (by omega)⟩
      refine .done ((ReadOutcome.head_request ?_).trans
        (congrArg _ (kept.fields atBody.anchored atBody.room)))
      exact content
  | missing _ =>
      exact .again ⟨moved, content, ⟨Int.le_trans cursors.start checked, Int.le_refl _,
        cursors.read, cursors.room, cursors.before⟩, Int.le_trans behind checked⟩
  | faulted reason =>
      refine .done ((ReadOutcome.head_fault reason ?_).trans
        (congrArg _ (moved.fields atBody.anchored atBody.room)))
      exact content

/-- A pass over a body with a positive length. -/
theorem InContent.pass {entered request : RequestState} (inContent : InContent entered request)
    (atBody : entered.AtBody) (positive : 0 < entered.contentLength) (lineStatus : LineStatus) :
    BodyPass entered (processPass (lineStatus, request)) := by
  obtain ⟨same, content, cursors, behind⟩ := inContent
  by_cases first : lineStatus = .ok
  · rw [first, processPass_of_body content]
    exact InContent.processLine ⟨same, content, cursors, behind⟩ atBody positive
  · cases parsed : request.parseLine with
    | mk status next =>
        by_cases ok : status = .ok
        · subst ok
          obtain ⟨stop, passes, rfl, ended⟩ := cursors.parseLine_ok parsed
          have inLine := ended.inside
          have start : (request.endLine stop).startLine = request.startLine := rfl
          have kept : SameHead entered.startLine request (request.endLine stop) :=
            ⟨rfl, rfl, rfl, rfl, rfl, rfl, rfl, rfl, fun index low =>
              (Memory.set_of_ne 0 (by omega)).trans (Memory.set_of_ne 0 (by omega))⟩
          have pass : processPass (lineStatus, request) = (request.endLine stop).processLine := by
            simp [processPass, first, parsed]
          rw [pass]
          exact InContent.processLine ⟨same.trans kept, content, ended.cursors, behind⟩ atBody
            positive
        · obtain ⟨index, passes, rfl, moved⟩ := cursors.parseLine_wait parsed ok
          rw [processPass_of_wait (by simp [first]) parsed ok]
          have kept : SameHead entered.startLine entered { request with checkedIdx := index } :=
            same.trans ⟨rfl, rfl, rfl, rfl, rfl, rfl, rfl, rfl, fun _ _ => rfl⟩
          exact .done ((ReadOutcome.head_wait content).trans
            (congrArg _ (kept.fields atBody.anchored atBody.room)))

/-- In the body `process_read` changes nothing that the head holds, but for the NUL of a
negative length. -/
theorem AtBody.head {entered : RequestState} (atBody : entered.AtBody) :
    ∃ outcome, Loop.run processPass passBound (.ok, entered) = some outcome ∧
      outcome.head = .content entered.bodyFields := by
  have read := atBody.cursors.read
  have checked := atBody.cursors.checked
  have room := atBody.cursors.room
  by_cases negative : entered.contentLength < 0
  · have received : entered.contentLength + entered.checkedIdx ≤ entered.readIdx := by omega
    by_cases inside : 0 ≤ entered.startLine + entered.contentLength
    · have complete := processLine_complete atBody.content room received inside (by omega)
      refine ⟨_, Loop.run_of_done ((processPass_of_body atBody.content).trans complete), ?_⟩
      rw [bodyFields, if_pos ⟨negative, inside⟩]
      exact ReadOutcome.head_request atBody.content
    · have outside := processLine_outside atBody.content room received (by omega)
      refine ⟨_, Loop.run_of_done ((processPass_of_body atBody.content).trans outside), ?_⟩
      rw [bodyFields, if_neg (fun both => inside both.2)]
      exact ReadOutcome.head_fault _ atBody.content
  · have declared := atBody.declared
    have positive : 0 < entered.contentLength := by omega
    have start : InContent entered entered :=
      ⟨⟨rfl, rfl, rfl, rfl, rfl, rfl, rfl, rfl, fun _ _ => rfl⟩, atBody.content, atBody.cursors,
        Int.le_refl _⟩
    rw [bodyFields, if_neg (fun both => negative both.1)]
    refine Loop.run_of_invariant processPass_falls
      (fun state => InContent entered state.2)
      (fun outcome => outcome.head = .content entered.fields) ?_ ?_
      (show InContent entered (LineStatus.ok, entered).2 from start)
    · intro state outcome inContent passed
      have pass := inContent.pass atBody positive state.1
      rw [passed] at pass
      cases pass with
      | done head => exact head
    · intro state next inContent passed
      have pass := inContent.pass atBody positive state.1
      rw [passed] at pass
      cases pass with
      | again inContent => exact inContent

/-- More bytes of the body change nothing in the head. -/
theorem AtBody.receive {entered : RequestState} (atBody : entered.AtBody) {chunk : List UInt8}
    (room : entered.Room chunk) :
    (entered.receive chunk).AtBody ∧ (entered.receive chunk).bodyFields = entered.bodyFields := by
  have checked := atBody.cursors.checked
  have read := atBody.cursors.read
  have inside : entered.startLine ≤ entered.readIdx := Int.le_trans checked read
  have same := @sameHead_receive entered entered.startLine chunk inside
  have anchored : (entered.receive chunk).Anchored entered.startLine := by
    intro pointer points
    obtain ⟨stop, low, high, nul⟩ := atBody.anchored pointer points
    exact ⟨stop, low, high, (same.below stop high).trans nul⟩
  refine ⟨⟨atBody.cursors.receive room, anchored, atBody.fresh, atBody.content,
    atBody.declared⟩, ?_⟩
  have length : (entered.receive chunk).contentLength = entered.contentLength := rfl
  have start : (entered.receive chunk).startLine = entered.startLine := rfl
  simp only [bodyFields, length, start]
  split
  case isTrue negative =>
      have set := @receive_set entered (entered.startLine + entered.contentLength) 0 chunk
        (by omega)
      rw [set]
      refine (@sameHead_receive { entered with
        readBuf := entered.readBuf.set (entered.startLine + entered.contentLength) 0 }
          _ chunk inside).fields ?_ atBody.room
      intro pointer points
      obtain ⟨stop, low, high, nul⟩ := atBody.anchored pointer points
      refine ⟨stop, low, high, ?_⟩
      by_cases here : stop = entered.startLine + entered.contentLength
      · rw [here]
        exact Memory.set_self _ _ _
      · exact (Memory.set_of_ne 0 here).trans nul
  case isFalse => exact same.fields atBody.anchored atBody.room

/-! ## Successive reads -/

/-- The first outcome on a head that arrives in successive reads, each followed by
`process_read`. -/
def firstOutcome (request : RequestState) : List (List UInt8) → Option HeadOutcome
  | [] => some (.noRequest request.fields)
  | chunk :: chunks =>
      match (request.receive chunk).processRead with
      | none => none
      | some (.code .noRequest next) =>
          if next.checkState = .content then
            some (.content next.fields)
          else
            next.firstOutcome chunks
      | some outcome => some outcome.head

theorem firstOutcome_of_waits {request next : RequestState} {chunk : List UInt8}
    (chunks : List (List UInt8))
    (returned : (request.receive chunk).processRead = some (.code .noRequest next))
    (notBody : next.checkState ≠ .content) :
    request.firstOutcome (chunk :: chunks) = next.firstOutcome chunks := by
  simp only [firstOutcome, returned, if_neg notBody]

/-- The first outcome that is more than waiting. -/
theorem firstOutcome_of_ends {request : RequestState} {chunk : List UInt8} {outcome : ReadOutcome}
    (chunks : List (List UInt8)) (returned : (request.receive chunk).processRead = some outcome)
    (ends : ∀ fields, outcome.head ≠ .noRequest fields) :
    request.firstOutcome (chunk :: chunks) = some outcome.head := by
  rw [firstOutcome, returned]
  split
  · contradiction
  case _ next same =>
      cases same
      split
      case isTrue content => rw [ReadOutcome.head_wait content]
      case isFalse notBody => exact absurd (if_neg notBody) (ends next.fields)
  case _ other same =>
      rw [Option.some.inj same]

/-- An outcome that bytes do not change is more than waiting. -/
theorem settled_head {outcome : ReadOutcome} (settled : outcome.Settled) (chunk : List UInt8) :
    (∀ fields, outcome.head ≠ .noRequest fields) ∧ (outcome.receive chunk).head = outcome.head := by
  cases outcome with
  | fault reason next =>
      have content : (next.receive chunk).checkState = next.checkState := rfl
      simp only [ReadOutcome.Settled] at settled
      simp [ReadOutcome.head, ReadOutcome.receive, content, settled]
  | request next =>
      have fields := (@sameHead_receive next _ chunk (Int.le_refl _)).fields settled.1 settled.2
      have content : (next.receive chunk).checkState = next.checkState := rfl
      refine ⟨fun fields => ?_, ?_⟩
      · simp only [ReadOutcome.head]
        split <;> simp
      · simp only [ReadOutcome.receive, ReadOutcome.head, fields, content]
  | code ret next =>
      cases ret with
      | badRequest =>
          have fields := (@sameHead_receive next _ chunk (Int.le_refl _)).fields settled.1 settled.2
          exact ⟨by simp [ReadOutcome.head], congrArg HeadOutcome.badRequest fields⟩
      | noRequest | getRequest | noResource | forbiddenRequest | fileRequest | internalError
        | closedConnection | diagnoseRequest | diagnoseCsvRequest | redirectRequest =>
          exact absurd settled id

theorem InHead.receive {request : RequestState} (inHead : request.InHead) {chunk : List UInt8}
    (room : request.Room chunk) : (request.receive chunk).InHead := by
  obtain ⟨cursors, anchored, notBody⟩ := inHead
  refine ⟨cursors.receive room, fun pointer points => ?_, notBody⟩
  obtain ⟨stop, low, high, nul⟩ := anchored pointer points
  have checked := cursors.checked
  have read := cursors.read
  have start : (request.receive chunk).startLine = request.startLine := rfl
  exact ⟨stop, low, start ▸ high, (receive_readBuf chunk (by omega)).trans nul⟩

theorem init_inHead (slot : RequestState) : slot.init.InHead := by
  refine ⟨init_cursors slot, fun pointer points => ?_, nofun⟩
  simp [init] at points

/-- There is a first outcome. -/
theorem firstOutcome_isSome (request : RequestState) (chunks : List (List UInt8)) :
    (request.firstOutcome chunks).isSome := by
  induction chunks generalizing request with
  | nil => rfl
  | cons chunk chunks ih =>
      obtain ⟨outcome, returned⟩ :=
        Option.isSome_iff_exists.mp (request.receive chunk).processRead_isSome
      rw [firstOutcome, returned]
      split
      case h_1 none => contradiction
      case h_2 next same =>
          split
          case isTrue => rfl
          case isFalse => exact ih next
      case h_3 => rfl

/-- Two reads have the outcome of one. -/
theorem InHead.firstOutcome_cons {request : RequestState} (inHead : request.InHead)
    (chunk : List UInt8) (chunks : List (List UInt8))
    (room : request.Room (chunk ++ chunks.flatten)) :
    request.firstOutcome (chunk :: chunks) = request.firstOutcome [chunk ++ chunks.flatten] := by
  induction chunks generalizing request chunk with
  | nil => rw [List.flatten_nil, List.append_nil]
  | cons later chunks ih =>
      rw [List.flatten_cons]
      simp only [Room, List.flatten_cons, List.length_append, Int.natCast_add] at room
      have first : request.Room chunk := by
        simp only [Room]
        omega
      have rest : (request.receive chunk).Room (later ++ chunks.flatten) := by
        simp only [Room, RequestState.receive, List.length_append, Int.natCast_add]
        omega
      have whole := receive_receive request chunk (later ++ chunks.flatten)
      cases (inHead.receive first).headRun with
      | @waits next returned nextHead received resumes =>
          rw [firstOutcome_of_waits _ returned nextHead.notBody,
            ih nextHead later (by rwa [Room, received])]
          have same := resumes _ rest
          rw [whole] at same
          simp only [firstOutcome, same]
      | @ends outcome returned settled stays =>
          obtain ⟨notWaiting, same⟩ := settled_head settled (later ++ chunks.flatten)
          have all := stays _ rest
          rw [whole] at all
          rw [firstOutcome_of_ends _ returned notWaiting,
            firstOutcome_of_ends _ all (by rwa [same]), same]
      | @body next comes atBody received stays =>
          obtain ⟨outcome, returned, head⟩ := atBody.head
          have nextRest : next.Room (later ++ chunks.flatten) := by rwa [Room, received]
          obtain ⟨allBody, fields⟩ := atBody.receive nextRest
          obtain ⟨allOutcome, allReturned, allHead⟩ := allBody.head
          have all := stays _ rest
          rw [whole] at all
          rw [firstOutcome_of_ends _ (comes.trans returned) (by simp [head]),
            firstOutcome_of_ends _ (all.trans allReturned) (by simp [allHead]), head,
            allHead, fields]

end RequestState

/-- **How a head is cut into reads does not matter**: the first outcome, and all that the
parser has found by then, are those of a single read.  The bytes need not be well formed,
and may go on behind the head. -/
theorem firstOutcome_flatten (slot : RequestState) (chunks : List (List UInt8))
    (short : chunks.flatten.length ≤ readBufferSize) :
    ∃ outcome, slot.init.firstOutcome chunks = some outcome ∧
      slot.init.firstOutcome [chunks.flatten] = some outcome := by
  obtain ⟨outcome, whole⟩ := Option.isSome_iff_exists.mp
    (slot.init.firstOutcome_isSome [chunks.flatten])
  refine ⟨outcome, ?_, whole⟩
  rw [← whole]
  cases chunks with
  | nil => rfl
  | cons chunk chunks =>
      have room : slot.init.Room (chunk ++ chunks.flatten) := by
        have start : slot.init.readIdx = 0 := rfl
        rw [RequestState.Room, start, Int.zero_add]
        exact_mod_cast short
      exact (RequestState.init_inHead slot).firstOutcome_cons chunk chunks room

/-- A head in three reads, cut between the bytes of its line ends. -/
def splitHead : List (List UInt8) :=
  [ascii "GET / HTTP/1.1\r", ascii "\nHost: a\r", ascii "\n\r\n"]

example : HttpConn.blank.toRequestState.init.firstOutcome splitHead =
    some (.complete {
      method := .get
      cgi := 0
      url := some (4, ascii "/")
      version := some (6, ascii "HTTP/1.1")
      host := some (22, ascii "a")
      cookie := []
      linger := false
      contentLength := 0 }) := by
  decide +kernel

theorem firstOutcome_flatten_split :
    ∃ outcome, HttpConn.blank.toRequestState.init.firstOutcome splitHead = some outcome ∧
      HttpConn.blank.toRequestState.init.firstOutcome [splitHead.flatten] = some outcome :=
  firstOutcome_flatten _ splitHead (by decide)

end TimeGANWebServer.Http
