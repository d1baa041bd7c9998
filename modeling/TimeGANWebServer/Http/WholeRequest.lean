import TimeGANWebServer.Http.Formatting
import TimeGANWebServer.Http.RequestTarget

/-!
# Requests without a body

A request without a body ends with its blank line.  `process_read` takes all of it and calls
`do_request`, and on every part of it waits for the rest.
-/

namespace TimeGANWebServer.Http

open TimeGANWebServer.Support

/-- A request without a body that asks to keep the connection: a request line the parser
accepts, and header lines.  It fits into the read buffer. -/
structure BodilessRequest where
  line : List UInt8
  target : List UInt8
  headers : List (List UInt8)
  shaped : LineFor line target
  hasPath : HasPath target
  clean : RequestState.Clean line
  headersClean : ∀ header ∈ headers, RequestState.Clean header ∧ header ≠ []
  bodiless : ∀ value ∈ headerValues (ascii "Content-length:") headers, atol value = 0
  keepAlive : ∃ value ∈ headerValues (ascii "Connection:") headers,
    strcasecmp value (ascii "keep-alive") = true
  short : (sendLines (line :: headers) ++ crlf).length < readBufferSize

/-- The bytes of a request. -/
def BodilessRequest.text (request : BodilessRequest) : List UInt8 :=
  sendLines (request.line :: request.headers) ++ crlf

/-! ## Cursors of an outcome -/

/-- Where the cursors of an outcome stand: `m_read_idx` where it was, and that of a complete
request behind no byte from `limit` on. -/
def ReadOutcome.Inside (limit readIdx : Int) : ReadOutcome → Prop
  | .code _ next => next.readIdx = readIdx
  | .request next => next.readIdx = readIdx ∧ next.checkedIdx ≤ limit
  | .fault _ _ => True

namespace RequestState

theorem processLine_inside {request : RequestState} {outcome : ReadOutcome} {limit : Int}
    (inside : request.checkedIdx ≤ limit) (passed : request.processLine = .done outcome) :
    outcome.Inside limit request.readIdx := by
  simp only [processLine] at passed
  split at passed
  · split at passed
    · cases passed
      trivial
    case _ parsed =>
        cases passed
        exact (parseRequestLine_keeps parsed).1.readIdx
    · contradiction
  · have keeps := parseHeaders_keeps { request with startLine := request.checkedIdx }
      request.startLine
    split at passed
    case _ next parsed =>
        cases passed
        rw [parsed] at keeps
        exact keeps.2.1
    case _ next parsed =>
        cases passed
        rw [parsed] at keeps
        exact ⟨keeps.2.1, Int.le_trans (Int.le_of_eq keeps.2.2.1) inside⟩
    · contradiction
  · split at passed
    · cases passed
      trivial
    case _ next parsed =>
        cases passed
        have keeps := parseContent_keeps parsed
        exact ⟨keeps.1, Int.le_trans (Int.le_of_eq keeps.2.1) inside⟩
    · contradiction

/-- `process_read` does not change `m_read_idx` and does not go beyond it. -/
theorem processRead_inside {request : RequestState} {outcome : ReadOutcome} {limit : Int}
    (checked : request.checkedIdx ≤ limit) (read : request.readIdx ≤ limit)
    (returned : request.processRead = some outcome) : outcome.Inside limit request.readIdx := by
  let Within : LineStatus × RequestState → Prop := fun state =>
    state.2.readIdx = request.readIdx ∧ state.2.checkedIdx ≤ limit
  have finishes : ∀ state outcome, Within state → processPass state = .done outcome →
      outcome.Inside limit request.readIdx := by
    rintro ⟨lineStatus, state⟩ outcome ⟨readIdx, checkedIdx⟩ passed
    simp only at readIdx checkedIdx
    rw [← readIdx] at read ⊢
    simp only [processPass] at passed
    split at passed
    · exact processLine_inside checkedIdx passed
    · obtain ⟨readBuf, index, moved, _, whenOk⟩ := parseLine_frame state
      split at passed
      case _ next parsed =>
          rw [parsed] at moved whenOk
          simp only at moved
          subst moved
          have done := processLine_inside (Int.le_trans (whenOk rfl).2 read) passed
          exact done
      case _ next _ parsed =>
          rw [parsed] at moved
          simp only at moved
          subst moved
          cases passed
          rfl
  have keeps : ∀ state next, Within state → processPass state = .again next → Within next := by
    rintro ⟨lineStatus, state⟩ ⟨nextStatus, next⟩ ⟨readIdx, checkedIdx⟩ passed
    simp only at readIdx checkedIdx
    simp only [Within]
    rw [← readIdx] at read ⊢
    simp only [processPass] at passed
    split at passed
    · obtain ⟨sameIdx, sameChecked, _⟩ := processLine_keeps passed
      exact ⟨sameIdx, Int.le_trans (Int.le_of_eq sameChecked) checkedIdx⟩
    · obtain ⟨readBuf, index, moved, _, whenOk⟩ := parseLine_frame state
      split at passed
      case _ middle parsed =>
          rw [parsed] at moved whenOk
          simp only at moved
          subst moved
          obtain ⟨sameIdx, sameChecked, _⟩ := processLine_keeps passed
          exact ⟨sameIdx, Int.le_trans (Int.le_of_eq sameChecked)
            (Int.le_trans (whenOk rfl).2 read)⟩
      case _ => contradiction
  obtain ⟨result, ran, post⟩ := Loop.run_of_invariant processPass_falls Within _ finishes keeps
    (show Within (LineStatus.ok, request) from ⟨rfl, checked⟩)
  rw [processRead, ran, Option.some.injEq] at returned
  exact returned ▸ post

/-! ## A request received alone -/

/-- What `parse_request_line` has found in a line it accepts. -/
theorem parseRequestLine_finds {request next : RequestState} {text : Int}
    (parsed : request.parseRequestLine text = .ok (.noRequest, next)) :
    (∃ url, next.url = some url) ∧
      (next.method = .get ∧ next.cgi = request.cgi ∨ next.method = .post ∧ next.cgi = 1) := by
  simp only [parseRequestLine, parseTarget, parseUrl] at parsed
  repeat' split at parsed
  all_goals cases parsed
  all_goals first
    | exact ⟨⟨_, rfl⟩, .inl ⟨rfl, rfl⟩⟩
    | exact ⟨⟨_, rfl⟩, .inr ⟨rfl, rfl⟩⟩

/-- `process_read` on a request line that is accepted. -/
theorem InHead.run_accepted {request : RequestState} (inHead : request.InHead)
    {line rest : List UInt8} (following : List UInt8) (atLine : request.checkState = .requestLine)
    (cgi : request.cgi = 0) (seen : Seen [] request) (clean : Clean line)
    (accepted : requestLineCode line = some .noRequest)
    (inLine : request.InLine 0 line (line ++ 13 :: 10 :: rest)) :
    ∃ next, ∃ start : Nat, ∃ method target, request.processRead = next.processRead ∧ next.InHead ∧
      next.checkState = .header ∧ next.InLine start following rest ∧
      Found method target [] next := by
  obtain ⟨stop, ok, atEnd, ended, short⟩ :=
    inHead.cursors.parseLine_ended inLine fun byte member => (clean byte member).2
  have str := (ended.str short).trans clean.takeWhile
  have stopRoom : stop < readBufferSize := by
    have room := atEnd.cursors.room
    have read := atEnd.cursors.read
    have checked := atEnd.checkedIdx
    omega
  have startLine : (request.endLine stop).startLine = (0 : Nat) := ended.startLine
  have ordered : ((0 : Nat) : Int) ≤ stop := startLine ▸ atEnd.inside
  have code := @codeOf_parseRequestLine
    { request.endLine stop with startLine := (request.endLine stop).checkedIdx } (0 : Nat) stop
    ordered atEnd.nul stopRoom
  replace code := code.trans ((congrArg requestLineCode str).trans accepted)
  cases parsed : RequestState.parseRequestLine
      { request.endLine stop with startLine := (request.endLine stop).checkedIdx } (0 : Nat) with
  | error reason =>
      rw [parsed] at code
      contradiction
  | ok result =>
      obtain ⟨ret, next⟩ := result
      rw [parsed] at code
      cases code
      have kept := (parseRequestLine_keeps parsed).1
      obtain ⟨⟨url, isUrl⟩, isMethod⟩ := parseRequestLine_finds parsed
      obtain ⟨_, _, _, _, _, _, same, _⟩ := @parseRequestLine_frame
        { request.endLine stop with startLine := (request.endLine stop).checkedIdx } next (0 : Nat)
        stop _ ordered atEnd.nul stopRoom parsed
      have passed := @processLine_of_requestLine (request.endLine stop) next atLine
        (startLine.symm ▸ parsed)
      have headPass := atEnd.headPass (inHead.anchored_endLine atEnd.inside) inHead.notBody
      have pass := (processPass_of_line .ok inHead.notBody ok).trans passed
      rw [passed] at headPass
      cases headPass with
      | again cursors anchored =>
          have header := (parseRequestLine_keeps parsed).2.2 rfl
          have noHost : next.host = none := by
            rw [same]
            exact Option.map_eq_none_iff.mp seen.host
          refine ⟨next, _, next.method, next.str url, Loop.run_of_again processPass_falls pass,
            ⟨cursors, anchored, by simp [header]⟩, header, ended.next following kept, rfl, ?_,
            by rw [isUrl]; rfl, ?_⟩
          · rcases isMethod with ⟨isGet, isCgi⟩ | ⟨isPost, isCgi⟩
            · rw [isGet, isCgi]
              exact cgi
            · rw [isPost, isCgi]
              rfl
          · refine ⟨by simp [headerValues, noHost], ?_, ?_, ?_⟩
            · rw [same]
              exact seen.cookie
            · rw [same]
              exact seen.linger
            · rw [same]
              exact seen.contentLength

/-- `process_read` on the blank line of a request without a body. -/
theorem InHead.run_end {request : RequestState} (inHead : request.InHead) {start : Nat}
    (header : request.checkState = .header) (inLine : request.InLine start [] crlf)
    (undeclared : request.contentLength = 0) :
    ∃ next, request.processRead = some (.request next) ∧ next.linger = request.linger ∧
      next.checkState = .header ∧ next.checkedIdx = next.readIdx := by
  have inLine : request.InLine start [] ([] ++ 13 :: 10 :: []) := inLine
  obtain ⟨stop, ok, atEnd, ended, _⟩ := inHead.cursors.parseLine_ended inLine nofun
  have pass := processPass_of_line .ok inHead.notBody ok
  have zero : (request.endLine stop).contentLength = 0 := undeclared
  have done := @processLine_blank (request.endLine stop) header (ended.blank rfl)
  rw [if_neg (not_not_intro zero)] at done
  have checkedIdx := ended.checkedIdx
  have readIdx := ended.readIdx
  refine ⟨_, Loop.run_of_done (pass.trans done), rfl, header, ?_⟩
  simp only [List.length_nil] at checkedIdx readIdx ⊢
  omega

/-- `process_read` on all of a request without a body, which may fill the buffer. -/
theorem processRead_bodiless (slot : RequestState) {line target : List UInt8}
    {headers : List (List UInt8)} (shaped : LineFor line target) (hasPath : HasPath target)
    (clean : Clean line) (headersClean : ∀ header ∈ headers, Clean header ∧ header ≠ [])
    (bodiless : ∀ value ∈ headerValues (ascii "Content-length:") headers, atol value = 0)
    (short : (sendLines (line :: headers) ++ crlf).length ≤ readBufferSize) :
    ∃ next, (slot.init.receive (sendLines (line :: headers) ++ crlf)).processRead =
        some (.request next) ∧
      (next.linger = true ↔ ∃ value ∈ headerValues (ascii "Connection:") headers,
        strcasecmp value (ascii "keep-alive") = true) ∧
      next.checkState = .header ∧ next.checkedIdx = next.readIdx := by
  have start : slot.init.readIdx = 0 := rfl
  have inHead := @InHead.receive slot.init (init_inHead slot) (sendLines (line :: headers) ++ crlf)
    (by rw [Room, start]; omega)
  have text : sendLines (line :: headers) ++ crlf =
      line ++ 13 :: 10 :: (sendLines headers ++ crlf ++ []) := by
    simp
  rw [text] at inHead ⊢
  have accepted := requestLineCode_noRequest_iff.mpr ⟨_, shaped, hasPath⟩
  have seen : Seen []
      (slot.init.receive (line ++ 13 :: 10 :: (sendLines headers ++ crlf ++ []))) :=
    ⟨rfl, rfl, by simp [headerValues, receive, init], rfl⟩
  have inLine : (slot.init.receive
      (line ++ 13 :: 10 :: (sendLines headers ++ crlf ++ []))).InLine 0 line
        (line ++ 13 :: 10 :: (sendLines headers ++ crlf ++ [])) :=
    ⟨rfl, rfl, Memory.holds_store _ _ _, 0, Nat.zero_le _, Nat.zero_le _, rfl⟩
  obtain ⟨first, start, method, target, comes, firstHead, firstHeader, firstLine, firstFound⟩ :=
    inHead.run_accepted (headers.headD []) rfl rfl seen clean accepted inLine
  obtain ⟨last, final, goesOn, lastHead, lastHeader, lastLine, _, lastFound⟩ :=
    firstHead.run_headers firstHeader firstLine headersClean firstFound
  rw [List.nil_append] at lastFound
  rw [List.append_nil] at lastLine
  have undeclared := lastFound.seen.length_of_declared (.inr ⟨rfl, bodiless⟩) (by decide)
  obtain ⟨next, ends, linger, header, whole⟩ := lastHead.run_end lastHeader lastLine undeclared
  refine ⟨next, comes.trans (goesOn.trans ends), ?_, header, whole⟩
  rw [linger]
  exact lastFound.seen.linger

end RequestState

namespace BodilessRequest

/-- A slot that receives all of a request in one read calls `do_request`. -/
theorem processRead_text (request : BodilessRequest) (slot : RequestState) :
    ∃ next, (slot.init.receive request.text).processRead = some (.request next) ∧
      next.linger = true ∧ next.checkState = .header ∧ next.checkedIdx = next.readIdx := by
  obtain ⟨next, ends, linger, header, whole⟩ := RequestState.processRead_bodiless slot
    request.shaped request.hasPath request.clean request.headersClean request.bodiless
    (Nat.le_of_lt request.short)
  exact ⟨next, ends, linger.mpr request.keepAlive, header, whole⟩

/-- A slot that has received a part of a request waits, and goes on as if it had received more
at once. -/
theorem processRead_part (request : BodilessRequest) (slot : RequestState) {part rest : List UInt8}
    (split : request.text = part ++ rest) (missing : rest ≠ []) :
    ∃ next, (slot.init.receive part).processRead = some (.code .noRequest next) ∧
      next.readIdx = part.length ∧ ∀ chunk, part.length + chunk.length ≤ readBufferSize →
        (next.receive chunk).processRead = (slot.init.receive (part ++ chunk)).processRead := by
  have short : part.length + rest.length < readBufferSize := by
    have fits : request.text.length < readBufferSize := request.short
    rwa [split, List.length_append] at fits
  have start : (slot.init.receive part).readIdx = part.length := Int.zero_add _
  have room : ∀ chunk, part.length + chunk.length ≤ readBufferSize →
      (slot.init.receive part).Room chunk := by
    intro chunk fits
    rw [RequestState.Room, start]
    exact_mod_cast fits
  have inHead := @RequestState.inHead_init_receive slot part (by omega)
  obtain ⟨whole, ends, _, header, taken⟩ := request.processRead_text slot
  rw [split, ← RequestState.receive_receive] at ends
  cases inHead.headRun with
  | @waits next returned _ received resumes =>
      refine ⟨next, returned, received.trans start, fun chunk fits => ?_⟩
      rw [← resumes chunk (room chunk fits), RequestState.receive_receive]
  | @ends outcome returned _ stays =>
      have same := (stays rest (room rest (by omega))).symm.trans ends
      rw [Option.some.injEq] at same
      cases outcome with
      | code ret next => contradiction
      | fault reason next => contradiction
      | request next =>
          obtain ⟨received, inside⟩ :=
            RequestState.processRead_inside inHead.cursors.read (Int.le_refl _) returned
          cases same
          simp only [RequestState.receive] at taken
          have some : 0 < rest.length := List.length_pos_iff.mpr missing
          omega
  | @body next _ atBody received stays =>
      have fits : next.Room rest := by
        rw [RequestState.Room, received]
        exact room rest (by omega)
      obtain ⟨outcome, returned, head⟩ := (atBody.receive fits).1.head
      have same := ((stays rest (room rest (by omega))).trans returned).symm.trans ends
      cases same
      simp [ReadOutcome.head, header] at head

end BodilessRequest

end TimeGANWebServer.Http
