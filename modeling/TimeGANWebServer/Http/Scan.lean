import TimeGANWebServer.Http.Parser

/-!
# What the parser functions read and write

Each parser function keeps most of the parser's state.  `parse_line` only moves
`m_checked_idx` forward and puts NULs over a line's end; the functions on a line
read no byte behind the NUL that ends it and write none either.  Every pass of
the loop in `process_read` therefore consumes bytes or waits for more, and the
loop always comes to an end.
-/

namespace TimeGANWebServer.Http

open TimeGANWebServer.Support

namespace RequestState

/-! ## Receiving -/

/-- Receiving in two portions is receiving once. -/
theorem receive_receive (request : RequestState) (left right : List UInt8) :
    (request.receive left).receive right = request.receive (left ++ right) := by
  simp only [receive, Memory.store_append, List.length_append, Int.natCast_add, Int.add_assoc]

/-! ## Lines -/

/-- The bytes `parse_line` passes over. -/
def Plain (byte : UInt8) : Prop :=
  byte ≠ 13 ∧ byte ≠ 10

/-- `parse_line` passes over plain bytes. -/
theorem parseLineLoop_plain {request : RequestState} {plain : List UInt8} (left : Nat)
    (holds : request.readBuf.Holds request.checkedIdx plain)
    (passed : ∀ byte ∈ plain, Plain byte) :
    parseLineLoop (plain.length + left) request =
      parseLineLoop left { request with checkedIdx := request.checkedIdx + plain.length } := by
  induction plain generalizing request with
  | nil => simp
  | cons byte plain ih =>
      have first : request.readBuf request.checkedIdx = byte := by
        simpa using holds 0 (Nat.zero_lt_succ _)
      have later : request.readBuf.Holds (request.checkedIdx + 1) plain := by
        simpa using
          (show request.readBuf.Holds request.checkedIdx ([byte] ++ plain) from holds).append_right
      have notEnd := passed byte List.mem_cons_self
      have size : (byte :: plain).length + left = plain.length + left + 1 := by
        simp only [List.length_cons]
        omega
      rw [size, parseLineLoop]
      simp only [first, notEnd.1, notEnd.2, if_false]
      rw [ih later fun other member => passed other (List.mem_cons_of_mem _ member)]
      congr 2
      simp only [List.length_cons]
      omega

/-- `parse_line` stops in front of a carriage return that came last. -/
theorem parseLineLoop_open {request : RequestState}
    (holds : request.readBuf.Holds request.checkedIdx [13])
    (last : request.readIdx = request.checkedIdx + 1) :
    parseLineLoop 1 request = (.open, request) := by
  have first : request.readBuf request.checkedIdx = 13 := by
    simpa using holds 0 (Nat.zero_lt_succ _)
  simp [parseLineLoop, first, last]

/-- `parse_line` puts NULs over a line end and goes behind it. -/
theorem parseLineLoop_ok {request : RequestState} (left : Nat)
    (holds : request.readBuf.Holds request.checkedIdx [13, 10])
    (more : request.readIdx ≠ request.checkedIdx + 1) :
    parseLineLoop (left + 1) request =
      (.ok, { request with
        readBuf := (request.readBuf.set request.checkedIdx 0).set (request.checkedIdx + 1) 0
        checkedIdx := request.checkedIdx + 2 }) := by
  have first : request.readBuf request.checkedIdx = 13 := by
    simpa using holds 0 (by simp)
  have second : request.readBuf (request.checkedIdx + 1) = 10 := by
    simpa using holds 1 (by simp)
  simp [parseLineLoop, first, second, more.symm]

/-- What `parse_line` may change, and how far it goes. -/
theorem parseLineLoop_frame (left : Nat) (request : RequestState)
    (size : left = (request.readIdx - request.checkedIdx).toNat) :
    ∃ readBuf checkedIdx,
      (parseLineLoop left request).2 =
        { request with readBuf := readBuf, checkedIdx := checkedIdx } ∧
      request.checkedIdx ≤ checkedIdx ∧
      ((parseLineLoop left request).1 = .ok →
        request.checkedIdx < checkedIdx ∧ checkedIdx ≤ request.readIdx) := by
  induction left generalizing request with
  | zero => exact ⟨request.readBuf, request.checkedIdx, rfl, Int.le_refl _, nofun⟩
  | succ left ih =>
      have unmoved : ∃ readBuf checkedIdx,
          request = { request with readBuf := readBuf, checkedIdx := checkedIdx } ∧
          request.checkedIdx ≤ checkedIdx :=
        ⟨request.readBuf, request.checkedIdx, rfl, Int.le_refl _⟩
      obtain ⟨sameBuf, sameIdx, same, notBack⟩ := unmoved
      rw [parseLineLoop]
      split
      · split
        · exact ⟨sameBuf, sameIdx, same, notBack, nofun⟩
        · split
          · exact ⟨_, _, rfl, by omega, fun _ => ⟨by omega, by omega⟩⟩
          · exact ⟨sameBuf, sameIdx, same, notBack, nofun⟩
      · split
        · split
          · exact ⟨_, _, rfl, by omega, fun _ => ⟨by omega, by omega⟩⟩
          · exact ⟨sameBuf, sameIdx, same, notBack, nofun⟩
        · obtain ⟨readBuf, checkedIdx, result, forward, whenOk⟩ :=
            ih { request with checkedIdx := request.checkedIdx + 1 } (by simp only; omega)
          refine ⟨readBuf, checkedIdx, result, ?_, ?_⟩
          · simp only at forward
            omega
          · intro ok
            have bounds := whenOk ok
            simp only at bounds
            omega

theorem parseLine_frame (request : RequestState) :
    ∃ readBuf checkedIdx,
      request.parseLine.2 = { request with readBuf := readBuf, checkedIdx := checkedIdx } ∧
      request.checkedIdx ≤ checkedIdx ∧
      (request.parseLine.1 = .ok →
        request.checkedIdx < checkedIdx ∧ checkedIdx ≤ request.readIdx) :=
  parseLineLoop_frame _ request rfl

theorem parseLineLoop_checkedIdx_le {left : Nat} {request : RequestState}
    (size : request.checkedIdx + left ≤ request.readIdx) :
    (parseLineLoop left request).2.checkedIdx ≤ request.readIdx := by
  induction left generalizing request with
  | zero =>
      simp only [parseLineLoop]
      omega
  | succ left ih =>
      rw [parseLineLoop]
      repeat' split
      any_goals
        simp only
        omega
      exact @ih { request with checkedIdx := request.checkedIdx + 1 } (by simp only; omega)

/-- `parse_line` stays in the bytes that have been received. -/
theorem parseLine_checkedIdx_le {request : RequestState}
    (checked : request.checkedIdx ≤ request.readIdx) :
    request.parseLine.2.checkedIdx ≤ request.readIdx :=
  parseLineLoop_checkedIdx_le (by omega)

/-! ## The request line -/

/-- What a parser function on the line at `text` keeps: the cursors, and every byte
from the NUL that ends the line on. -/
structure LineParsed (text : Int) (before after : RequestState) : Prop where
  readIdx : after.readIdx = before.readIdx
  checkedIdx : after.checkedIdx = before.checkedIdx
  startLine : after.startLine = before.startLine
  behind : ∀ stop, text ≤ stop → before.readBuf stop = 0 →
    ∀ index, stop ≤ index → after.readBuf index = before.readBuf index

theorem LineParsed.of_readBuf_eq {text : Int} {before after : RequestState}
    (readBuf : after.readBuf = before.readBuf) (readIdx : after.readIdx = before.readIdx)
    (checkedIdx : after.checkedIdx = before.checkedIdx)
    (startLine : after.startLine = before.startLine) : LineParsed text before after :=
  ⟨readIdx, checkedIdx, startLine, fun _ _ _ index _ => congrFun readBuf index⟩

/-- The code a function returns, if it returns. -/
def codeOf : Except Fault (HttpCode × RequestState) → Option HttpCode
  | .ok (code, _) => some code
  | .error _ => none

/-- A string ends at or before the NUL of its line. -/
theorem str_length_le {request : RequestState} {text stop : Int} (ordered : text ≤ stop)
    (nul : request.readBuf stop = 0) : text + (request.str text).length ≤ stop :=
  Memory.cstring_length_le ordered nul

/-- Blanks are skipped within the line. -/
theorem skip_blanks_le {request : RequestState} {text stop : Int} (ordered : text ≤ stop)
    (nul : request.readBuf stop = 0) : text + strspn (request.str text) blanks ≤ stop := by
  have skipped := strspn_le (request.str text) blanks
  have length := str_length_le ordered nul
  omega

/-- A blank is found within the line. -/
theorem blank_lt {request : RequestState} {text stop : Int} {gap : Nat} (ordered : text ≤ stop)
    (nul : request.readBuf stop = 0)
    (found : strpbrk (request.str text) blanks = some gap) : text + gap < stop := by
  have before := strpbrk_lt found
  have length := str_length_le ordered nul
  omega

theorem str_congr {left right : RequestState} {text stop : Int}
    (agree : left.readBuf.AgreeTo right.readBuf text stop) (ordered : text ≤ stop)
    (inside : stop < readBufferSize) : left.str text = right.str text :=
  agree.cstring ordered inside

theorem parseUrl_keeps {request next : RequestState} {url : Int} {code : HttpCode}
    (parsed : request.parseUrl url = .ok (code, next)) :
    LineParsed url request next ∧ next.contentLength = request.contentLength ∧
      (code = .noRequest → next.checkState = .header) := by
  simp only [parseUrl] at parsed
  split at parsed
  · contradiction
  · split at parsed
    · cases parsed
      exact ⟨LineParsed.of_readBuf_eq rfl rfl rfl rfl, rfl, nofun⟩
    · split at parsed
      · cases parsed
        exact ⟨LineParsed.of_readBuf_eq rfl rfl rfl rfl, rfl, fun _ => rfl⟩
      · cases parsed
        exact ⟨LineParsed.of_readBuf_eq rfl rfl rfl rfl, rfl, nofun⟩

/-- A scheme is stripped the same way from equal lines, and within the line. -/
theorem skipScheme_congr {left right : RequestState} {url stop : Int} (scheme : List UInt8)
    (agree : left.readBuf.AgreeTo right.readBuf url stop) (ordered : url ≤ stop)
    (inside : stop < readBufferSize) :
    left.skipScheme url scheme = right.skipScheme url scheme ∧
      ∀ next, left.skipScheme url scheme = some next → url ≤ next ∧ next ≤ stop := by
  have same := str_congr agree ordered inside
  have length := str_length_le ordered agree.nul
  simp only [skipScheme, ← same]
  split
  case isTrue stripped =>
      have long := strncasecmp_length stripped
      have behind : url + scheme.length ≤ stop := by omega
      have later := agree.mono (url + scheme.length) (by omega)
      have sameRest := str_congr later behind inside
      refine ⟨by rw [sameRest], ?_⟩
      intro next found
      simp only [Option.map_eq_some_iff] at found
      obtain ⟨offset, found, rfl⟩ := found
      have before := strchr_lt found
      have restLength := str_length_le behind later.nul
      omega
  case isFalse =>
      refine ⟨rfl, ?_⟩
      intro next found
      cases found
      exact ⟨Int.le_refl _, ordered⟩

/-- The outcome of `parseUrl` depends on the rest of the line only. -/
theorem parseUrl_congr {left right : RequestState} {url stop : Int}
    (agree : left.readBuf.AgreeTo right.readBuf url stop) (ordered : url ≤ stop)
    (inside : stop < readBufferSize) :
    codeOf (left.parseUrl url) = codeOf (right.parseUrl url) := by
  obtain ⟨first, firstInside⟩ :=
    skipScheme_congr (ascii "http://") agree ordered inside
  simp only [parseUrl, ← first]
  cases httpSkipped : left.skipScheme url (ascii "http://") with
  | none => rfl
  | some url =>
      have bounds := firstInside url httpSkipped
      have agree := agree.mono url bounds.1
      obtain ⟨second, secondInside⟩ :=
        skipScheme_congr (ascii "https://") agree bounds.2 inside
      simp only [← second]
      cases httpsSkipped : left.skipScheme url (ascii "https://") with
      | none => rfl
      | some url =>
          have bounds := secondInside url httpsSkipped
          simp only [← agree.same url bounds.1 bounds.2]
          split <;> rfl

/-- Putting a NUL over a blank stays within the line. -/
theorem LineParsed.of_set {text index : Int} {before after : RequestState}
    (inLine : ∀ stop, text ≤ stop → before.readBuf stop = 0 → index < stop)
    (readBuf : after.readBuf = before.readBuf.set index 0)
    (readIdx : after.readIdx = before.readIdx)
    (checkedIdx : after.checkedIdx = before.checkedIdx)
    (startLine : after.startLine = before.startLine) : LineParsed text before after where
  readIdx := readIdx
  checkedIdx := checkedIdx
  startLine := startLine
  behind stop ordered nul other low := by
    have inside := inLine stop ordered nul
    rw [readBuf, Memory.set_of_ne 0 (by omega)]

/-- What a rest of the line keeps behind a line, the whole line keeps. -/
theorem LineParsed.after {text rest : Int} {first second third : RequestState}
    (right : LineParsed rest second third)
    (inLine : ∀ stop, text ≤ stop → first.readBuf stop = 0 → rest ≤ stop)
    (left : LineParsed text first second) : LineParsed text first third where
  readIdx := right.readIdx.trans left.readIdx
  checkedIdx := right.checkedIdx.trans left.checkedIdx
  startLine := right.startLine.trans left.startLine
  behind stop ordered nul index low := by
    have kept := left.behind stop ordered nul
    rw [right.behind stop (inLine stop ordered nul) (by rw [kept stop (Int.le_refl _), nul])
      index low, kept index low]

theorem parseTarget_keeps {request next : RequestState} {afterMethod : Int} {code : HttpCode}
    (parsed : request.parseTarget afterMethod = .ok (code, next)) :
    LineParsed afterMethod request next ∧ next.contentLength = request.contentLength ∧
      (code = .noRequest → next.checkState = .header) := by
  simp only [parseTarget] at parsed
  split at parsed
  · cases parsed
    exact ⟨LineParsed.of_readBuf_eq rfl rfl rfl rfl, rfl, nofun⟩
  case _ gap found =>
      have inLine : ∀ stop, afterMethod ≤ stop → request.readBuf stop = 0 →
          afterMethod + strspn (request.str afterMethod) blanks + gap < stop :=
        fun stop ordered nul => blank_lt (skip_blanks_le ordered nul) nul found
      split at parsed
      · obtain ⟨kept, length, header⟩ := parseUrl_keeps parsed
        exact ⟨kept.after (fun stop ordered nul => skip_blanks_le ordered nul)
          (LineParsed.of_set inLine rfl rfl rfl rfl), length, header⟩
      · cases parsed
        exact ⟨LineParsed.of_set inLine rfl rfl rfl rfl, rfl, nofun⟩

/-- The outcome of `parseTarget` depends on the rest of the line only. -/
theorem parseTarget_congr {left right : RequestState} {afterMethod stop : Int}
    (agree : left.readBuf.AgreeTo right.readBuf afterMethod stop) (ordered : afterMethod ≤ stop)
    (inside : stop < readBufferSize) :
    codeOf (left.parseTarget afterMethod) = codeOf (right.parseTarget afterMethod) := by
  have skipped := str_congr agree ordered inside
  have urlInside := skip_blanks_le ordered agree.nul
  simp only [parseTarget, ← skipped]
  generalize atUrl : afterMethod + (strspn (left.str afterMethod) blanks : Int) = url at *
  have agree := agree.mono url (by omega)
  have target := str_congr agree urlInside inside
  simp only [← target]
  cases found : strpbrk (left.str url) blanks with
  | none => rfl
  | some gap =>
      have gapInside := blank_lt urlInside agree.nul found
      have agree := agree.set 0 gapInside
      have rest := (agree.mono (url + gap + 1) (by omega)).cstring (by omega) inside
      have skipped : url + gap + 1 + strspn (({ left with
          readBuf := left.readBuf.set (url + gap) 0 } : RequestState).str (url + gap + 1)) blanks ≤
          stop := skip_blanks_le (by omega) agree.nul
      simp only [← rest]
      have version := (agree.mono _ (by omega)).cstring skipped inside
      simp only [← version]
      split
      · exact parseUrl_congr agree urlInside inside
      · rfl

theorem parseRequestLine_keeps {request next : RequestState} {text : Int} {code : HttpCode}
    (parsed : request.parseRequestLine text = .ok (code, next)) :
    LineParsed text request next ∧ next.contentLength = request.contentLength ∧
      (code = .noRequest → next.checkState = .header) := by
  simp only [parseRequestLine] at parsed
  split at parsed
  · cases parsed
    exact ⟨LineParsed.of_readBuf_eq rfl rfl rfl rfl, rfl, nofun⟩
  case _ gap found =>
      have inLine : ∀ stop, text ≤ stop → request.readBuf stop = 0 → text + gap < stop :=
        fun stop ordered nul => blank_lt ordered nul found
      split at parsed
      · obtain ⟨kept, length, header⟩ := parseTarget_keeps parsed
        exact ⟨kept.after inLine (LineParsed.of_set inLine rfl rfl rfl rfl), length, header⟩
      · split at parsed
        · obtain ⟨kept, length, header⟩ := parseTarget_keeps parsed
          exact ⟨kept.after inLine (LineParsed.of_set inLine rfl rfl rfl rfl), length, header⟩
        · cases parsed
          exact ⟨LineParsed.of_set inLine rfl rfl rfl rfl, rfl, nofun⟩

/-- The outcome of `parse_request_line` depends on the line only. -/
theorem parseRequestLine_congr {left right : RequestState} {text stop : Int}
    (agree : left.readBuf.AgreeTo right.readBuf text stop) (ordered : text ≤ stop)
    (inside : stop < readBufferSize) :
    codeOf (left.parseRequestLine text) = codeOf (right.parseRequestLine text) := by
  have line := str_congr agree ordered inside
  simp only [parseRequestLine, ← line]
  cases found : strpbrk (left.str text) blanks with
  | none => rfl
  | some gap =>
      have gapInside := blank_lt ordered agree.nul found
      have agree := agree.set 0 gapInside
      have method := agree.cstring ordered inside
      have rest := agree.mono (text + gap + 1) (by omega)
      simp only [← method]
      split
      · exact parseTarget_congr rest (by omega) inside
      · split
        · exact parseTarget_congr rest (by omega) inside
        · rfl

/-! ## Headers and content -/

theorem parseHeaders_keeps (request : RequestState) (text : Int) :
    let next := (request.parseHeaders text).2
    next.readBuf = request.readBuf ∧ next.readIdx = request.readIdx ∧
      next.checkedIdx = request.checkedIdx ∧ next.startLine = request.startLine := by
  simp only [parseHeaders]
  repeat' split
  all_goals exact ⟨rfl, rfl, rfl, rfl⟩

theorem parseContent_keeps {request next : RequestState} {text : Int} {code : HttpCode}
    (parsed : request.parseContent text = .ok (code, next)) :
    next.readIdx = request.readIdx ∧ next.checkedIdx = request.checkedIdx ∧
      next.startLine = request.startLine ∧ next.checkState = request.checkState ∧
      next.contentLength = request.contentLength := by
  simp only [parseContent] at parsed
  repeat' split at parsed
  all_goals first
    | contradiction
    | cases parsed
      exact ⟨rfl, rfl, rfl, rfl, rfl⟩

/-! ## The loop of `process_read` -/

/-- A line that does not end the loop keeps the cursors of the received bytes, and
after a body that is not complete the loop waits for a line. -/
theorem processLine_keeps {request next : RequestState} {lineStatus : LineStatus}
    (passed : request.processLine = .again (lineStatus, next)) :
    next.readIdx = request.readIdx ∧ next.checkedIdx = request.checkedIdx ∧
      (request.checkState = .content → lineStatus = .open) := by
  simp only [processLine] at passed
  cases state : request.checkState with
  | requestLine =>
      simp only [state] at passed
      split at passed
      · contradiction
      · contradiction
      case _ code parsedNext notBad parsed =>
          cases passed
          have kept := (parseRequestLine_keeps parsed).1
          exact ⟨kept.readIdx, kept.checkedIdx, nofun⟩
  | header =>
      simp only [state] at passed
      split at passed
      · contradiction
      · contradiction
      case _ code parsedNext notBad notGet parsed =>
          cases passed
          have kept := parseHeaders_keeps
            { request with startLine := request.checkedIdx } request.startLine
          simp only [state, parsed] at kept
          exact ⟨kept.2.1, kept.2.2.1, nofun⟩
  | content =>
      simp only [state] at passed
      split at passed
      · contradiction
      · contradiction
      case _ code parsedNext notGet parsed =>
          cases passed
          have kept := parseContent_keeps parsed
          exact ⟨kept.1, kept.2.1, fun _ => rfl⟩

theorem processPass_of_line {request ended : RequestState} (lineStatus : LineStatus)
    (notBody : request.checkState ≠ .content) (ok : request.parseLine = (.ok, ended)) :
    processPass (lineStatus, request) = ended.processLine := by
  simp [processPass, notBody, ok]

theorem processPass_of_wait {request next : RequestState} {lineStatus status : LineStatus}
    (noBody : ¬(request.checkState = .content ∧ lineStatus = .ok))
    (waits : request.parseLine = (status, next)) (notOk : status ≠ .ok) :
    processPass (lineStatus, request) = .done (.code .noRequest next) := by
  simp only [processPass, if_neg noBody, waits]

theorem processPass_of_body {request : RequestState} (body : request.checkState = .content) :
    processPass (.ok, request) = request.processLine := by
  simp [processPass, body]

/-- A blank line ends the head, and the request if it has no body. -/
theorem processLine_blank {request : RequestState} (header : request.checkState = .header)
    (blank : request.readBuf request.startLine = 0) :
    request.processLine =
      if request.contentLength ≠ 0 then
        .again (.ok, { request with startLine := request.checkedIdx, checkState := .content })
      else
        .done (.request { request with startLine := request.checkedIdx }) := by
  simp only [processLine, header, parseHeaders, blank, if_true]
  by_cases declared : request.contentLength ≠ 0
  · simp only [if_pos declared]
  · simp only [if_neg declared]

/-- What the switch in `process_read` does on a body: the request is complete and its NUL stored in
the buffer, or bytes are missing, or a sum or an index is out of range. -/
inductive ContentLine (request : RequestState) :
    Pass (LineStatus × RequestState) ReadOutcome → Prop where
  | complete (received : request.contentLength + request.checkedIdx ≤ request.readIdx)
      (low : 0 ≤ request.startLine + request.contentLength)
      (high : request.startLine + request.contentLength < readBufferSize) :
      ContentLine request (.done (.request { request with
        startLine := request.checkedIdx
        readBuf := request.readBuf.set (request.startLine + request.contentLength) 0
        string := some request.startLine }))
  | missing (missing : request.readIdx < request.contentLength + request.checkedIdx) :
      ContentLine request (.again (.open, { request with startLine := request.checkedIdx }))
  | faulted (fault : Fault) :
      ContentLine request (.done (.fault fault { request with startLine := request.checkedIdx }))

theorem processLine_content {request : RequestState} (body : request.checkState = .content) :
    ContentLine request request.processLine := by
  by_cases overflow : 2 ^ 31 ≤ request.contentLength + request.checkedIdx
  · simp only [processLine, body, parseContent, if_pos overflow]
    rw [← body]
    exact .faulted _
  by_cases received : request.contentLength + request.checkedIdx ≤ request.readIdx
  · by_cases outside : request.startLine + request.contentLength < 0 ∨
        readBufferSize ≤ request.startLine + request.contentLength
    · simp only [processLine, body, parseContent, if_neg overflow, if_pos received, if_pos outside]
      rw [← body]
      exact .faulted _
    · simp only [processLine, body, parseContent, if_neg overflow, if_pos received,
        if_neg outside]
      rw [← body]
      exact .complete received (by omega) (by omega)
  · simp only [processLine, body, parseContent, if_neg overflow, if_neg received]
    rw [← body]
    exact .missing (by omega)

/-- A body whose bytes are there, and whose NUL has a place in the buffer, completes the
request. -/
theorem processLine_complete {request : RequestState} (body : request.checkState = .content)
    (room : request.readIdx ≤ readBufferSize)
    (received : request.contentLength + request.checkedIdx ≤ request.readIdx)
    (low : 0 ≤ request.startLine + request.contentLength)
    (high : request.startLine + request.contentLength < readBufferSize) :
    request.processLine = .done (.request { request with
      startLine := request.checkedIdx
      readBuf := request.readBuf.set (request.startLine + request.contentLength) 0
      string := some request.startLine }) := by
  have size : (readBufferSize : Int) = 65536 := rfl
  have noOverflow : ¬2 ^ 31 ≤ request.contentLength + request.checkedIdx := by omega
  have inside : ¬(request.startLine + request.contentLength < 0 ∨
      readBufferSize ≤ request.startLine + request.contentLength) := by omega
  simp only [processLine, body, parseContent, if_neg noOverflow, if_pos received, if_neg inside]

/-- A length so far below zero that the NUL would be stored in front of the buffer. -/
theorem processLine_outside {request : RequestState} (body : request.checkState = .content)
    (room : request.readIdx ≤ readBufferSize)
    (received : request.contentLength + request.checkedIdx ≤ request.readIdx)
    (outside : request.startLine + request.contentLength < 0) :
    request.processLine =
      .done (.fault .bufferOverflow { request with startLine := request.checkedIdx }) := by
  have size : (readBufferSize : Int) = 65536 := rfl
  have noOverflow : ¬2 ^ 31 ≤ request.contentLength + request.checkedIdx := by omega
  simp only [processLine, body, parseContent, if_neg noOverflow, if_pos received, outside, true_or,
    if_true]

/-- A body with missing bytes makes the loop wait for a line. -/
theorem processLine_missing {request : RequestState} (body : request.checkState = .content)
    (fits : request.contentLength + request.checkedIdx < 2 ^ 31)
    (missing : request.readIdx < request.contentLength + request.checkedIdx) :
    request.processLine = .again (.open, { request with startLine := request.checkedIdx }) := by
  have incomplete : ¬request.contentLength + request.checkedIdx ≤ request.readIdx := by omega
  have noOverflow : ¬2 ^ 31 ≤ request.contentLength + request.checkedIdx := by omega
  simp only [processLine, body, parseContent, if_neg noOverflow, if_neg incomplete]

/-- Every pass but the last lowers the bound. -/
theorem processPass_falls (state next : LineStatus × RequestState)
    (passed : processPass state = .again next) : passBound next < passBound state := by
  obtain ⟨lineStatus, request⟩ := state
  obtain ⟨nextStatus, next⟩ := next
  simp only [processPass] at passed
  split at passed
  case isTrue body =>
      obtain ⟨readIdx, checkedIdx, waits⟩ := processLine_keeps passed
      simp [passBound, body, readIdx, checkedIdx, waits body.1]
  case isFalse =>
      obtain ⟨readBuf, checkedIdx, result, forward, whenOk⟩ := parseLine_frame request
      split at passed
      case _ scanned ok =>
          rw [ok] at result whenOk
          simp only at result
          obtain ⟨consumed, inside⟩ := whenOk rfl
          obtain ⟨readIdx, nextChecked, _⟩ := processLine_keeps passed
          simp only [passBound, readIdx, nextChecked, result]
          split <;> omega
      · contradiction

/-- `process_read` always comes to an end. -/
theorem processRead_isSome (request : RequestState) : request.processRead.isSome :=
  Loop.run_isSome processPass_falls _

/-- A line is not what makes `process_read` wait. -/
theorem processLine_ne_wait (request next : RequestState) :
    request.processLine ≠ .done (.code .noRequest next) := by
  simp only [processLine]
  split <;> split <;> simp

/-- `process_read` receives nothing. -/
theorem processRead_readIdx {request next : RequestState}
    (returned : request.processRead = some (.code .noRequest next)) :
    next.readIdx = request.readIdx := by
  obtain ⟨outcome, same, kept⟩ := Loop.run_of_invariant processPass_falls
    (fun state => state.2.readIdx = request.readIdx)
    (fun outcome => ∀ last, outcome = .code .noRequest last → last.readIdx = request.readIdx)
    (fun state outcome received passed last waits => by
      obtain ⟨lineStatus, current⟩ := state
      subst waits
      simp only [processPass] at passed
      split at passed
      · exact absurd passed (processLine_ne_wait _ _)
      · obtain ⟨readBuf, checkedIdx, result, _⟩ := parseLine_frame current
        split at passed
        · exact absurd passed (processLine_ne_wait _ _)
        case _ parsed =>
            cases passed
            rw [parsed] at result
            exact (congrArg readIdx result).trans received)
    (fun state next received passed => by
      obtain ⟨lineStatus, current⟩ := state
      simp only [processPass] at passed
      split at passed
      · exact (processLine_keeps passed).1.trans received
      · obtain ⟨readBuf, checkedIdx, result, _⟩ := parseLine_frame current
        split at passed
        case _ parsed =>
            rw [parsed] at result
            exact (processLine_keeps passed).1.trans ((congrArg readIdx result).trans received)
        · contradiction) (show (LineStatus.ok, request).2.readIdx = request.readIdx from rfl)
  cases returned.symm.trans same
  exact kept next rfl

end RequestState

end TimeGANWebServer.Http
