import TimeGANWebServer.Http.RequestLine
import TimeGANWebServer.Http.Resume
import TimeGANWebServer.Http.Segmentation

/-!
# The current line

What the loop of `process_read` does on whatever bytes have been received: it takes the lines of
the head one by one, each as a string, waits in a line or for a body, and can be called again
when more bytes have been received.
-/

namespace TimeGANWebServer.Http

open TimeGANWebServer.Support

namespace RequestState

/-- Successive reads, each followed by `process_read`, up to one that does not return
`NO_REQUEST`. -/
def reads (request : RequestState) : List (List UInt8) → Option ReadOutcome
  | [] => some (.code .noRequest request)
  | chunk :: chunks =>
      match (request.receive chunk).processRead with
      | some (.code .noRequest next) => next.reads chunks
      | outcome => outcome

/-- What has been received of the current line. -/
def pending (request : RequestState) : List UInt8 :=
  (List.range (request.readIdx - request.startLine).toNat).map fun (offset : Nat) =>
    request.readBuf (request.startLine + offset)

/-! ## The current line -/

theorem pending_length {request : RequestState} (cursors : request.Cursors) :
    request.startLine + request.pending.length = request.readIdx := by
  have ordered := Int.le_trans cursors.checked cursors.read
  simp only [pending, List.length_map, List.length_range]
  omega

theorem holds_pending (request : RequestState) :
    request.readBuf.Holds request.startLine request.pending := by
  intro offset inBounds
  simp [pending]

/-- A text that is there is what has been received of the line. -/
theorem pending_eq_of_holds {request : RequestState} {text : List UInt8}
    (holds : request.readBuf.Holds request.startLine text)
    (whole : request.readIdx = request.startLine + text.length) : request.pending = text := by
  have size : (request.readIdx - request.startLine).toNat = text.length := by omega
  refine List.ext_getElem (by simp [pending, size]) fun offset inPending inText => ?_
  rw [← holds offset inText]
  simp [pending]

theorem pending_receive {request : RequestState} (cursors : request.Cursors) (chunk : List UInt8) :
    (request.receive chunk).pending = request.pending ++ chunk := by
  have length := pending_length cursors
  have start : (request.receive chunk).startLine = request.startLine := rfl
  refine pending_eq_of_holds ?_ ?_
  · intro offset inBounds
    rw [start]
    by_cases before : offset < request.pending.length
    · rw [receive_readBuf chunk (by omega), holds_pending request offset before,
        List.getElem_append_left before]
    · rw [List.length_append] at inBounds
      have stored := Memory.holds_store request.readBuf request.readIdx chunk
        (offset - request.pending.length) (by omega)
      have moved : request.readIdx + ((offset - request.pending.length : Nat) : Int) =
          request.startLine + offset := by omega
      rw [moved] at stored
      rw [List.getElem_append_right (by omega)]
      exact stored
  · simp only [RequestState.receive, List.length_append]
    omega

/-- The parser stands in a line of the head, of which `parse_line` has passed over some plain
bytes. -/
structure OnLine (request : RequestState) : Prop where
  cursors : request.Cursors
  scanned : ∀ index, request.startLine ≤ index → index < request.checkedIdx →
    Plain (request.readBuf index)
  notBody : request.checkState ≠ .content
  undeclared : request.checkState = .requestLine → request.contentLength = 0

/-- What has been received begins with a whole line. -/
structure Ends (request : RequestState) (line rest : List UInt8) : Prop where
  plain : ∀ byte ∈ line, Plain byte
  pending : request.pending = line ++ 13 :: 10 :: rest

theorem Ends.readIdx {request : RequestState} {line rest : List UInt8}
    (ends : request.Ends line rest) (cursors : request.Cursors) :
    request.readIdx = request.startLine + line.length + 2 + rest.length := by
  have length := pending_length cursors
  rw [ends.pending] at length
  simp only [List.length_append, List.length_cons] at length
  omega

/-- `parse_line` has not passed over the end of the line. -/
theorem Ends.inLine {request : RequestState} {line rest : List UInt8}
    (ends : request.Ends line rest) (onLine : request.OnLine) :
    request.InLine request.startLine.toNat line (line ++ 13 :: 10 :: rest) := by
  obtain ⟨cursors, scanned, _, _⟩ := onLine
  have start := cursors.start
  have checked := cursors.checked
  have read := cursors.read
  have readIdx := ends.readIdx cursors
  have same : ((request.startLine.toNat : Nat) : Int) = request.startLine := by omega
  have holds := holds_pending request
  rw [ends.pending] at holds
  refine ⟨same.symm, ?_, by rwa [same], (request.checkedIdx - request.startLine).toNat, ?_, ?_,
    by omega⟩
  · simp only [List.length_append, List.length_cons]
    omega
  · by_contra passed
    have carriage := holds.append_right 0 (Nat.zero_lt_succ _)
    simp only [Int.natCast_zero, Int.add_zero, List.getElem_cons_zero] at carriage
    exact (scanned (request.startLine + line.length) (by omega) (by omega)).1 carriage
  · simp only [List.length_append, List.length_cons]
    omega

/-- What a pass over an ended line of the head does. -/
inductive Turn (request : RequestState) (line rest : List UInt8) :
    Pass (LineStatus × RequestState) ReadOutcome → Prop where
  | rejected {next : RequestState} (atLine : request.checkState = .requestLine)
      (code : requestLineCode (line.takeWhile (· ≠ 0)) = some .badRequest) :
      Turn request line rest (.done (.code .badRequest next))
  | faulted {reason : Fault} {next : RequestState} (atLine : request.checkState = .requestLine)
      (code : requestLineCode (line.takeWhile (· ≠ 0)) = none) :
      Turn request line rest (.done (.fault reason next))
  | accepted {next : RequestState} (atLine : request.checkState = .requestLine)
      (code : requestLineCode (line.takeWhile (· ≠ 0)) = some .noRequest) (onLine : next.OnLine)
      (header : next.checkState = .header)
      (startLine : next.startLine = request.startLine + line.length + 2)
      (pending : next.pending = rest) (undeclared : next.contentLength = 0) :
      Turn request line rest (.again (.ok, next))
  | header {next : RequestState} (atHeader : request.checkState = .header)
      (nonblank : line.takeWhile (· ≠ 0) ≠ []) (onLine : next.OnLine)
      (header : next.checkState = .header)
      (startLine : next.startLine = request.startLine + line.length + 2)
      (pending : next.pending = rest)
      (declared : next.contentLength = (declaredBy line).getD request.contentLength) :
      Turn request line rest (.again (.ok, next))
  | complete {next : RequestState} (atHeader : request.checkState = .header)
      (blank : line.takeWhile (· ≠ 0) = []) (undeclared : request.contentLength = 0) :
      Turn request line rest (.done (.request next))
  | body {next : RequestState} (atHeader : request.checkState = .header)
      (blank : line.takeWhile (· ≠ 0) = []) (bodied : request.contentLength ≠ 0)
      (content : next.checkState = .content)
      (declared : next.contentLength = request.contentLength)
      (startLine : next.startLine = request.startLine + line.length + 2)
      (fresh : next.checkedIdx = next.startLine) (readIdx : next.readIdx = request.readIdx)
      (cursors : next.Cursors) :
      Turn request line rest (.again (.ok, next))

/-- A function on the line leaves the parser at the next line. -/
theorem LineEnded.onLine {request next : RequestState} {start : Nat} {stop : Int}
    {line rest : List UInt8} (ended : request.LineEnded start line rest)
    (atEnd : request.AtEnd stop)
    (kept : LineParsed request.startLine { request with startLine := request.checkedIdx } next)
    (header : next.checkState = .header) :
    next.OnLine ∧ next.startLine = request.startLine + line.length + 2 ∧ next.pending = rest := by
  have cursors := atEnd.next kept
  have startLine := ended.startLine
  have following := ended.next rest (startLine ▸ kept)
  have start := following.startLine
  have fresh : next.checkedIdx = next.startLine := kept.checkedIdx.trans kept.startLine.symm
  refine ⟨⟨cursors, fun index low high => ?_, by simp [header], by simp [header]⟩, by omega, ?_⟩
  · omega
  · refine pending_eq_of_holds ?_ ?_
    · rw [start]
      exact following.holds
    · rw [start]
      exact following.readIdx

theorem OnLine.turn {request : RequestState} (onLine : request.OnLine) {line rest : List UInt8}
    (ends : request.Ends line rest) : Turn request line rest (processPass (.ok, request)) := by
  obtain ⟨stop, ok, atEnd, ended, short⟩ :=
    onLine.cursors.parseLine_ended (ends.inLine onLine) ends.plain
  rw [processPass_of_line .ok onLine.notBody ok]
  have str := ended.str short
  have startLine := ended.startLine
  rw [← startLine] at str
  have sameStart : (request.endLine stop).startLine = request.startLine := rfl
  cases state : request.checkState with
  | requestLine =>
      have atLine : (request.endLine stop).checkState = .requestLine := state
      have room : stop < readBufferSize := by
        have checkedIdx := atEnd.checkedIdx
        have read := atEnd.cursors.read
        have room := atEnd.cursors.room
        omega
      have code := @codeOf_parseRequestLine
        { request.endLine stop with startLine := (request.endLine stop).checkedIdx } _ stop
        atEnd.inside atEnd.nul room
      have text : RequestState.str
          { request.endLine stop with startLine := (request.endLine stop).checkedIdx }
          (request.endLine stop).startLine = line.takeWhile (· ≠ 0) := str
      rw [text] at code
      have undeclared : (request.endLine stop).contentLength = 0 := onLine.undeclared state
      simp only [processLine, atLine]
      cases parsed : RequestState.parseRequestLine
          { request.endLine stop with startLine := (request.endLine stop).checkedIdx }
          (request.endLine stop).startLine with
      | error reason =>
          rw [parsed] at code
          simp only [atLine] at parsed
          rw [parsed]
          exact .faulted state code.symm
      | ok result =>
          obtain ⟨ret, next⟩ := result
          obtain ⟨kept, length, header⟩ := parseRequestLine_keeps parsed
          rw [parsed] at code
          rcases parseRequestLine_code parsed with rfl | rfl
          · simp only [atLine] at parsed
            rw [parsed]
            exact .rejected state code.symm
          · obtain ⟨nextLine, nextStart, pending⟩ := ended.onLine atEnd kept (header rfl)
            simp only [atLine] at parsed
            rw [parsed]
            exact .accepted state code.symm nextLine (header rfl) nextStart pending
              (length.trans undeclared)
  | header =>
      have atHeader : (request.endLine stop).checkState = .header := state
      by_cases blank : line.takeWhile (· ≠ 0) = []
      · have checkedIdx := ended.checkedIdx
        rw [RequestState.processLine_blank atHeader (ended.blank blank)]
        by_cases declared : (request.endLine stop).contentLength ≠ 0
        · rw [if_pos declared]
          have atCursors := atEnd.cursors
          exact .body state blank declared rfl rfl (by simp only; omega) rfl rfl
            ⟨Int.le_trans atCursors.start atCursors.checked, Int.le_refl _, atCursors.read,
              atCursors.room, atCursors.before⟩
        · rw [if_neg declared]
          exact .complete state blank (not_not.mp declared)
      · obtain ⟨next, passed, _, header, declared, same⟩ :=
          ended.processLine_header rest short atHeader blank
        have keeps := parseHeaders_keeps
          { request.endLine stop with startLine := (request.endLine stop).checkedIdx }
          (request.endLine stop).startLine
        rw [startLine, ← same] at keeps
        have kept : LineParsed (request.endLine stop).startLine
            { request.endLine stop with startLine := (request.endLine stop).checkedIdx } next :=
          LineParsed.of_readBuf_eq keeps.1 keeps.2.1 keeps.2.2.1 keeps.2.2.2
        obtain ⟨nextLine, nextStart, pending⟩ := ended.onLine atEnd kept header
        rw [passed]
        exact .header state blank nextLine header nextStart pending declared
  | content => exact absurd state onLine.notBody

/-- A line that `parse_line` takes is there as a whole. -/
theorem OnLine.ends_of_ok {request next : RequestState} (onLine : request.OnLine)
    (parsed : request.parseLine = (.ok, next)) : ∃ line rest, request.Ends line rest := by
  obtain ⟨cursors, scanned, _, _⟩ := onLine
  have checked := cursors.checked
  have length := pending_length cursors
  have holds := holds_pending request
  have scan := cursors.lineScan
  rw [parsed] at scan
  cases scan with
  | @ended index passes byte feed received =>
      have low := passes.low
      let count := (index - request.startLine).toNat
      have atCount : request.startLine + (count : Int) = index := by omega
      have atNext : request.startLine + ((count + 1 : Nat) : Int) = index + 1 := by omega
      have first := holds count (by omega)
      have second := holds (count + 1) (by omega)
      rw [atCount, byte] at first
      rw [atNext, feed] at second
      refine ⟨request.pending.take count, request.pending.drop (count + 2), ?_, ?_⟩
      · intro byte member
        obtain ⟨offset, inBounds, rfl⟩ := List.mem_iff_getElem.mp member
        rw [List.length_take] at inBounds
        rw [List.getElem_take, ← holds offset (by omega)]
        by_cases before : request.startLine + (offset : Int) < request.checkedIdx
        · exact scanned _ (by omega) before
        · exact passes.plain _ (by omega) (by omega)
      · rw [first, second, List.getElem_cons_drop, List.getElem_cons_drop, List.take_append_drop]

/-- Without a whole line the parser waits in it. -/
theorem OnLine.wait {request next : RequestState} {lineStatus : LineStatus}
    (onLine : request.OnLine) (parsed : request.parseLine = (lineStatus, next))
    (notOk : lineStatus ≠ .ok) :
    ∃ checkedIdx, next = { request with checkedIdx := checkedIdx } ∧ next.OnLine ∧
      next.parseLine.1 ≠ .ok := by
  obtain ⟨cursors, scanned, notBody, undeclared⟩ := onLine
  obtain ⟨index, passes, rfl, moved⟩ := cursors.parseLine_wait parsed notOk
  have again := cursors.parseLine_again parsed notOk
  refine ⟨index, rfl, ⟨moved, fun other low high => ?_, notBody, undeclared⟩, by rwa [again]⟩
  by_cases before : other < request.checkedIdx
  · exact scanned other low before
  · exact passes.plain other (by omega) high

theorem OnLine.ok_of_ends {request : RequestState} (onLine : request.OnLine)
    {line rest : List UInt8}
    (ends : request.Ends line rest) : request.parseLine.1 = .ok := by
  obtain ⟨stop, ok, _⟩ := onLine.cursors.parseLine_ended (ends.inLine onLine) ends.plain
  rw [ok]

theorem OnLine.receive {request : RequestState} (onLine : request.OnLine) {chunk : List UInt8}
    (room : request.Room chunk) : (request.receive chunk).OnLine := by
  obtain ⟨cursors, scanned, notBody, undeclared⟩ := onLine
  refine ⟨cursors.receive room, fun index low high => ?_, notBody, undeclared⟩
  have checked : (request.receive chunk).checkedIdx = request.checkedIdx := rfl
  rw [receive_readBuf chunk (by have read := cursors.read; omega)]
  exact scanned index low (checked ▸ high)

theorem init_onLine (slot : RequestState) : slot.init.OnLine := by
  refine ⟨init_cursors slot, fun index low high => ?_, nofun, fun _ => rfl⟩
  exact absurd (Int.lt_of_le_of_lt low high) (Int.lt_irrefl 0)

/-! ## The body -/

/-- The buffer has room for the body behind what `parse_line` has passed over, and for the NUL
behind the body. -/
def BodyRoom (request : RequestState) : Prop :=
  request.contentLength + request.checkedIdx ≤ readBufferSize ∧
    0 ≤ request.startLine + request.contentLength ∧
    request.startLine + request.contentLength < readBufferSize

/-- The parser waits for a body that it was at the beginning of, or has passed over bytes of it. -/
structure AwaitsBody (entered request : RequestState) : Prop where
  content : request.checkState = .content
  declared : request.contentLength = entered.contentLength
  passed : entered.checkedIdx ≤ request.checkedIdx
  started : entered.startLine ≤ request.startLine
  begun : request.startLine = entered.startLine ∨ 0 < request.contentLength
  cursors : request.Cursors

/-- Where the body fits now, it did at its beginning. -/
theorem AwaitsBody.room {entered request : RequestState} (awaits : AwaitsBody entered request)
    (start : 0 ≤ entered.startLine) (room : request.BodyRoom) : entered.BodyRoom := by
  obtain ⟨_, declared, passed, started, begun, _⟩ := awaits
  obtain ⟨fits, low, high⟩ := room
  exact ⟨by omega, by omega, by omega⟩

theorem AwaitsBody.refl {request : RequestState} (content : request.checkState = .content)
    (cursors : request.Cursors) : AwaitsBody request request :=
  ⟨content, rfl, Int.le_refl _, Int.le_refl _, .inl rfl, cursors⟩

/-- What waiting for a body comes to. -/
def AwaitsBody.Outcome (entered : RequestState) : ReadOutcome → Prop
  | .code .noRequest next => AwaitsBody entered next
  | .request _ => entered.BodyRoom
  | .fault _ _ => True
  | _ => False

/-- What a pass over a body does. -/
inductive AwaitsBody.Step (entered : RequestState) :
    Pass (LineStatus × RequestState) ReadOutcome → Prop where
  | again {lineStatus : LineStatus} {next : RequestState} (awaits : AwaitsBody entered next) :
      Step entered (.again (lineStatus, next))
  | done {outcome : ReadOutcome} (comes : AwaitsBody.Outcome entered outcome) :
      Step entered (.done outcome)

theorem AwaitsBody.processLine {entered request : RequestState}
    (start : 0 ≤ entered.startLine) (awaits : AwaitsBody entered request) :
      AwaitsBody.Step entered request.processLine := by
  have line := processLine_content awaits.content
  generalize request.processLine = passed at line
  cases line with
  | complete received low high =>
      have room := awaits.cursors.room
      exact .done (awaits.room start ⟨by omega, low, high⟩)
  | missing missing =>
      obtain ⟨content, declared, passed, started, _, ⟨low, checked, read, room, before⟩⟩ := awaits
      refine .again ⟨content, declared, passed, Int.le_trans started checked, .inr ?_,
        ⟨Int.le_trans low checked, Int.le_refl _, read, room, before⟩⟩
      simp only
      omega
  | faulted => exact .done trivial

theorem AwaitsBody.pass {entered request : RequestState} (start : 0 ≤ entered.startLine)
    (awaits : AwaitsBody entered request) (lineStatus : LineStatus) :
    AwaitsBody.Step entered (processPass (lineStatus, request)) := by
  simp only [processPass]
  split
  case isTrue => exact awaits.processLine start
  case isFalse =>
      obtain ⟨content, declared, passed, started, begun, cursors⟩ := awaits
      split
      case h_1 next parsed =>
          obtain ⟨stop, passes, rfl, ended⟩ := cursors.parseLine_ok parsed
          have checkedIdx := ended.checkedIdx
          have later : AwaitsBody entered (request.endLine stop) :=
            ⟨content, declared, by have low := passes.low; omega, started, begun, ended.cursors⟩
          exact later.processLine start
      case h_2 status next notOk parsed =>
          obtain ⟨index, passes, rfl, moved⟩ := cursors.parseLine_wait parsed notOk
          exact .done ⟨content, declared, Int.le_trans passed passes.low, started, begun, moved⟩

/-- Waiting for a body goes on, or there is room for the body. -/
theorem AwaitsBody.run {entered request : RequestState} (start : 0 ≤ entered.startLine)
    (awaits : AwaitsBody entered request) (lineStatus : LineStatus) :
    ∃ outcome, Loop.run processPass passBound (lineStatus, request) = some outcome ∧
      AwaitsBody.Outcome entered outcome := by
  refine Loop.run_of_invariant processPass_falls (fun state => AwaitsBody entered state.2)
    (AwaitsBody.Outcome entered) ?_ ?_
    (show AwaitsBody entered (lineStatus, request).2 from awaits)
  · intro state outcome awaits passed
    have step := awaits.pass start state.1
    rw [passed] at step
    cases step with
    | done comes => exact comes
  · intro state next awaits passed
    have step := awaits.pass start state.1
    rw [passed] at step
    cases step with
    | again awaits => exact awaits

/-! ## Waiting -/

/-- The parser has returned `NO_REQUEST`, or has received nothing. -/
inductive Paused (request : RequestState) : Prop where
  | line (onLine : request.OnLine) (waits : request.parseLine.1 ≠ .ok)
  | body (content : request.checkState = .content) (cursors : request.Cursors)

/-- The loop is at a line of the head, or in a body. -/
def AtLineOrBody (state : LineStatus × RequestState) : Prop :=
  state.1 = .ok ∧ state.2.OnLine ∨
    state.2.checkState = .content ∧ state.2.Cursors

/-- Where the loop leaves the parser when it waits. -/
def Pauses : ReadOutcome → Prop
  | .code .noRequest next => next.Paused
  | _ => True

/-- What a pass does to the place of the loop. -/
inductive PlaceStep : Pass (LineStatus × RequestState) ReadOutcome → Prop where
  | again {state : LineStatus × RequestState} (place : AtLineOrBody state) :
    PlaceStep (.again state)
  | done {outcome : ReadOutcome} (pauses : Pauses outcome) : PlaceStep (.done outcome)

theorem AwaitsBody.Outcome.pauses {entered : RequestState} {outcome : ReadOutcome}
    (comes : AwaitsBody.Outcome entered outcome) : Pauses outcome := by
  cases outcome with
  | fault reason next => trivial
  | request next => trivial
  | code ret next =>
      cases ret with
      | noRequest => exact .body comes.content comes.cursors
      | badRequest | getRequest | noResource | forbiddenRequest | fileRequest | internalError
        | closedConnection | diagnoseRequest | diagnoseCsvRequest | redirectRequest => trivial

theorem AtLineOrBody.pass {state : LineStatus × RequestState} (place : AtLineOrBody state) :
    PlaceStep (processPass state) := by
  obtain ⟨lineStatus, request⟩ := state
  rcases place with ⟨ok, onLine⟩ | ⟨content, cursors⟩
  · simp only at ok onLine
    subst ok
    cases parsed : request.parseLine with
    | mk lineStatus next =>
        by_cases isOk : lineStatus = .ok
        · subst isOk
          obtain ⟨line, rest, ends⟩ := onLine.ends_of_ok parsed
          have turn := onLine.turn ends
          generalize processPass (.ok, request) = passed at turn
          cases turn with
          | rejected => exact .done trivial
          | faulted => exact .done trivial
          | accepted _ _ nextLine => exact .again (.inl ⟨rfl, nextLine⟩)
          | header _ _ nextLine => exact .again (.inl ⟨rfl, nextLine⟩)
          | complete => exact .done trivial
          | body _ _ _ content _ _ _ _ cursors => exact .again (.inr ⟨content, cursors⟩)
        · obtain ⟨checkedIdx, rfl, nextLine, again⟩ := onLine.wait parsed isOk
          rw [@processPass_of_wait _ _ .ok _ (by simp [onLine.notBody]) parsed isOk]
          exact .done (.line nextLine again)
  · have step := (AwaitsBody.refl content cursors).pass cursors.start lineStatus
    generalize processPass (lineStatus, request) = passed at step
    cases step with
    | again awaits => exact .again (.inr ⟨awaits.content, awaits.cursors⟩)
    | done comes => exact .done comes.pauses

/-- `process_read` leaves a parser that waits where it can go on. -/
theorem AtLineOrBody.run {request next : RequestState} (place : AtLineOrBody (.ok, request))
    (returned : request.processRead = some (.code .noRequest next)) : next.Paused := by
  obtain ⟨outcome, same, pauses⟩ := Loop.run_of_invariant processPass_falls AtLineOrBody Pauses
    (fun state outcome place passed => by
      have step := place.pass
      rw [passed] at step
      cases step with
      | done pauses => exact pauses)
    (fun state next place passed => by
      have step := place.pass
      rw [passed] at step
      cases step with
      | again place => exact place) place
  cases returned.symm.trans same
  exact pauses

theorem Paused.receive {request : RequestState} (paused : request.Paused) {chunk : List UInt8}
    (room : request.Room chunk) : AtLineOrBody (.ok, request.receive chunk) := by
  cases paused with
  | line onLine _ => exact .inl ⟨rfl, onLine.receive room⟩
  | body content cursors => exact .inr ⟨content, cursors.receive room⟩

/-! ## Successive reads -/

theorem reads_append {request next : RequestState} {chunks : List (List UInt8)}
    (more : List (List UInt8)) (waits : request.reads chunks = some (.code .noRequest next)) :
    request.reads (chunks ++ more) = next.reads more := by
  induction chunks generalizing request with
  | nil =>
      cases waits
      rfl
  | cons chunk chunks ih =>
      simp only [reads] at waits
      simp only [List.cons_append, reads]
      split at waits
      case h_1 later same => exact ih waits
      case h_2 other => exact absurd waits (other next)

/-- After successive reads the parser waits with all their bytes received. -/
theorem Paused.reads {request next : RequestState} (paused : request.Paused)
    {chunks : List (List UInt8)} (room : request.Room chunks.flatten)
    (waits : request.reads chunks = some (.code .noRequest next)) :
    next.Paused ∧ next.readIdx = request.readIdx + chunks.flatten.length := by
  induction chunks generalizing request with
  | nil =>
      cases waits
      exact ⟨paused, (Int.add_zero _).symm⟩
  | cons chunk chunks ih =>
      simp only [Room, List.flatten_cons, List.length_append, Int.natCast_add] at room
      have first : request.Room chunk := by
        simp only [Room]
        omega
      simp only [RequestState.reads] at waits
      split at waits
      case h_1 later same =>
          have received : later.readIdx = request.readIdx + chunk.length := processRead_readIdx same
          obtain ⟨nextPaused, nextIdx⟩ :=
            ih ((paused.receive first).run same) (by rw [Room, received]; omega) waits
          refine ⟨nextPaused, ?_⟩
          rw [nextIdx, received, List.flatten_cons, List.length_append]
          omega
      case h_2 other => exact absurd waits (other next)

theorem init_paused (slot : RequestState) : slot.init.Paused :=
  .line (init_onLine slot) nofun

end RequestState

end TimeGANWebServer.Http
