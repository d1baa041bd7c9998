import TimeGANWebServer.Http.CurrentLine

/-!
# Malformed input

`process_read` returns `NO_REQUEST` while a line is open, and also when `parse_line` has found
it bad: the loop ends the same way.  Whether further bytes still bring `process_read` to
`do_request` or to `BAD_REQUEST` is decided by how the current line can be ended.
-/

namespace TimeGANWebServer.Http

open TimeGANWebServer.Support

/-- `process_read` has called `do_request` or returned `BAD_REQUEST`. -/
def ReadOutcome.Answers : ReadOutcome → Prop
  | .code .badRequest _ => True
  | .request _ => True
  | _ => False

namespace RequestState

/-- A request whose blank line ends at some index can be completed in the buffer: it has no body,
or the NUL behind the body has a place there. -/
def EndsAt (start length : Int) : Prop :=
  start ≤ readBufferSize ∧
    (length = 0 ∨ 0 ≤ start + length ∧ start + length < readBufferSize)

/-- The buffer has room for what must follow a line for the request to be answered: nothing
behind a request line that is rejected, else a blank line, in front of it a `Content-length`
line if need be, and the body that is declared by then.  A blank line begins with its end or with
a NUL, behind which it can be of any length. -/
def Suits (request : RequestState) (line : List UInt8) : Prop :=
  let text := line.takeWhile (· ≠ 0)
  let behind : Int := request.startLine + line.length + 2
  match request.checkState with
  | .requestLine =>
      requestLineCode text = some .badRequest ∧ behind ≤ readBufferSize ∨
        requestLineCode text = some .noRequest ∧ behind + 2 ≤ readBufferSize
  | .header =>
      if text = [] then
        EndsAt behind request.contentLength
      else
        (∃ start, behind + 2 ≤ start ∧
            EndsAt start ((declaredBy line).getD request.contentLength)) ∨
          behind + 19 ≤ readBufferSize
  | .content => False

/-- What has been received can be continued to an answer: there is room for the body behind what
`parse_line` has passed over, or the current line can be ended suitably. -/
def Repairable (request : RequestState) : Prop :=
  match request.checkState with
  | .content => request.BodyRoom
  | _ => ∃ line, (∀ byte ∈ line, Plain byte) ∧ request.pending <+: line ++ [13, 10] ∧
      request.Suits line

/-! ## What an answer needs -/

/-- `Repairable` for a parser that may not have looked at all lines yet. -/
def Hopeful (request : RequestState) : Prop :=
  match request.checkState with
  | .content => request.BodyRoom
  | _ => ∃ line, (∀ byte ∈ line, Plain byte) ∧
      (request.pending <+: line ++ [13, 10] ∨ line ++ [13, 10] <+: request.pending) ∧
      request.Suits line

theorem hopeful_of_line {request : RequestState} (notBody : request.checkState ≠ .content) :
    request.Hopeful ↔ ∃ line, (∀ byte ∈ line, Plain byte) ∧
      (request.pending <+: line ++ [13, 10] ∨ line ++ [13, 10] <+: request.pending) ∧
      request.Suits line := by
  cases state : request.checkState with
  | requestLine | header => simp only [Hopeful, state]
  | content => exact absurd state notBody

theorem repairable_of_line {request : RequestState} (notBody : request.checkState ≠ .content) :
    request.Repairable ↔ ∃ line, (∀ byte ∈ line, Plain byte) ∧
      request.pending <+: line ++ [13, 10] ∧ request.Suits line := by
  cases state : request.checkState with
  | requestLine | header => simp only [Repairable, state]
  | content => exact absurd state notBody

/-- A parser that waits has no whole line. -/
theorem Paused.repairable_iff {request : RequestState} (paused : request.Paused) :
    request.Repairable ↔ request.Hopeful := by
  cases paused with
  | line onLine open_ =>
      rw [repairable_of_line onLine.notBody, hopeful_of_line onLine.notBody]
      constructor
      · rintro ⟨line, plain, part, suits⟩
        exact ⟨line, plain, .inl part, suits⟩
      · rintro ⟨line, plain, part | ⟨rest, whole⟩, suits⟩
        · exact ⟨line, plain, part, suits⟩
        · have ends : request.Ends line rest := ⟨plain, by simp [← whole]⟩
          exact absurd (onLine.ok_of_ends ends) open_
  | body content room => simp only [Repairable, Hopeful, content]

/-- Fewer bytes leave more open. -/
theorem OnLine.hopeful_of_receive {request : RequestState} (onLine : request.OnLine)
    (chunk : List UInt8) (hopeful : (request.receive chunk).Hopeful) : request.Hopeful := by
  rw [hopeful_of_line onLine.notBody]
  rw [hopeful_of_line (show (request.receive chunk).checkState ≠ .content from onLine.notBody),
    pending_receive onLine.cursors] at hopeful
  obtain ⟨line, plain, comparable, suits⟩ := hopeful
  have part : request.pending <+: request.pending ++ chunk := List.prefix_append _ _
  refine ⟨line, plain, ?_, suits⟩
  rcases comparable with inLine | inText
  · exact .inl (part.trans inLine)
  · exact List.prefix_or_prefix_of_prefix part inText

theorem suits_requestLine {request : RequestState} (line : List UInt8)
    (atLine : request.checkState = .requestLine) :
    request.Suits line ↔
      requestLineCode (line.takeWhile (· ≠ 0)) = some .badRequest ∧
          request.startLine + line.length + 2 ≤ readBufferSize ∨
        requestLineCode (line.takeWhile (· ≠ 0)) = some .noRequest ∧
          request.startLine + line.length + 2 + 2 ≤ readBufferSize := by
  simp only [Suits, atLine]

theorem suits_blank {request : RequestState} {line : List UInt8}
    (atHeader : request.checkState = .header) (blank : line.takeWhile (· ≠ 0) = []) :
    request.Suits line ↔ EndsAt (request.startLine + line.length + 2) request.contentLength := by
  simp only [Suits, atHeader, if_pos blank]

theorem suits_header {request : RequestState} {line : List UInt8}
    (atHeader : request.checkState = .header) (nonblank : line.takeWhile (· ≠ 0) ≠ []) :
    request.Suits line ↔
      (∃ start, request.startLine + line.length + 2 + 2 ≤ start ∧
          EndsAt start ((declaredBy line).getD request.contentLength)) ∨
        request.startLine + line.length + 2 + 19 ≤ readBufferSize := by
  simp only [Suits, atHeader, if_neg nonblank]

/-- What is suitable fits into the buffer. -/
theorem Suits.room {request : RequestState} {line : List UInt8} (suits : request.Suits line) :
    request.startLine + line.length + 2 ≤ readBufferSize := by
  simp only [Suits] at suits
  split at suits
  · omega
  · split at suits
    · exact suits.1
    · rcases suits with ⟨start, behind, inside, _⟩ | fits
      · omega
      · omega
  · contradiction

theorem declaredBy_length {line : List UInt8} {length : Int}
    (declared : declaredBy line = some length) : 15 ≤ line.length := by
  simp only [declaredBy] at declared
  split at declared
  case isTrue named =>
      have long := @strncasecmp_length _ (ascii "Content-length:") named
      have size : (ascii "Content-length:").length = 15 := by decide
      have part := (@List.takeWhile_sublist _ line fun byte => decide (byte ≠ 0)).length_le
      omega
  case isFalse => contradiction

/-- What a suitable next line needs, its own line needs. -/
theorem Suits.before {request next : RequestState} {line following : List UInt8}
    (suits : next.Suits following) (atHeader : request.checkState = .header)
    (nonblank : line.takeWhile (· ≠ 0) ≠ []) (header : next.checkState = .header)
    (startLine : next.startLine = request.startLine + line.length + 2)
    (declared : next.contentLength = (declaredBy line).getD request.contentLength) :
    request.Suits line := by
  rw [suits_header atHeader nonblank, ← declared]
  by_cases blank : following.takeWhile (· ≠ 0) = []
  · rw [suits_blank header blank] at suits
    exact .inl ⟨_, by omega, suits⟩
  · rw [suits_header header blank] at suits
    rcases suits with ⟨start, behind, ends⟩ | fits
    · cases redeclared : declaredBy following with
      | none =>
          rw [redeclared, Option.getD_none] at ends
          exact .inl ⟨start, by omega, ends⟩
      | some length =>
          have long := declaredBy_length redeclared
          have inside := ends.1
          exact .inr (by omega)
    · exact .inr (by omega)

end RequestState

/-- The outcome is an answer, or leaves one open. -/
def ReadOutcome.Hopeful : ReadOutcome → Prop
  | .code .badRequest _ => True
  | .code .noRequest next => next.Repairable
  | .code _ _ => False
  | .request _ => True
  | .fault _ _ => False

theorem ReadOutcome.Answers.hopeful {outcome : ReadOutcome} (answers : outcome.Answers) :
    outcome.Hopeful := by
  cases outcome with
  | fault reason next => exact answers
  | request next => trivial
  | code ret next =>
      cases ret with
      | badRequest => trivial
      | noRequest => contradiction
      | getRequest | noResource | forbiddenRequest | fileRequest | internalError
        | closedConnection | diagnoseRequest | diagnoseCsvRequest | redirectRequest => exact answers

namespace RequestState

/-- There is room for a body that leaves hope. -/
theorem AwaitsBody.Outcome.fits {entered : RequestState} {outcome : ReadOutcome}
    (start : 0 ≤ entered.startLine) (comes : AwaitsBody.Outcome entered outcome)
    (hopeful : outcome.Hopeful) : entered.BodyRoom := by
  cases outcome with
  | fault reason next => contradiction
  | request next => exact comes
  | code ret next =>
      cases ret with
      | noRequest =>
          have awaits : AwaitsBody entered next := comes
          simp only [ReadOutcome.Hopeful, Repairable, awaits.content] at hopeful
          exact awaits.room start hopeful
      | badRequest | getRequest | noResource | forbiddenRequest | fileRequest | internalError
        | closedConnection | diagnoseRequest | diagnoseCsvRequest | redirectRequest =>
          exact comes.elim

/-- What `process_read` does on the lines of a head. -/
theorem OnLine.hopeful {request : RequestState} (onLine : request.OnLine) {outcome : ReadOutcome}
    (returned : request.processRead = some outcome) (hopeful : outcome.Hopeful) :
    request.Hopeful := by
  have general : ∀ state : LineStatus × RequestState, state.1 = .ok → state.2.OnLine →
      Loop.run processPass passBound state = some outcome → state.2.Hopeful := by
    refine Loop.induction processPass_falls fun state ih ok onLine returned => ?_
    obtain ⟨_, request⟩ := state
    subst ok
    replace onLine : request.OnLine := onLine
    have room : request.readIdx ≤ readBufferSize := onLine.cursors.room
    rw [hopeful_of_line onLine.notBody]
    cases parsed : request.parseLine with
    | mk lineStatus next =>
        by_cases isOk : lineStatus = .ok
        · subst isOk
          obtain ⟨line, rest, ends⟩ := onLine.ends_of_ok parsed
          have readIdx := ends.readIdx onLine.cursors
          refine ⟨line, ends.plain, .inr ⟨rest, by simp [ends.pending]⟩, ?_⟩
          have turn := onLine.turn ends
          have fits : request.startLine + line.length + 2 ≤ readBufferSize := by omega
          generalize pass : processPass (.ok, request) = passed at turn
          cases turn with
          | rejected atLine code => exact (suits_requestLine line atLine).mpr (.inl ⟨code, fits⟩)
          | faulted atLine code =>
              rw [Loop.run_of_done pass] at returned
              cases returned
              contradiction
          | @accepted next atLine code nextLine header startLine pending undeclared =>
              rw [Loop.run_of_again processPass_falls pass] at returned
              have later := (hopeful_of_line nextLine.notBody).mp (ih _ pass rfl nextLine returned)
              obtain ⟨following, _, _, suits⟩ := later
              have room := suits.room
              exact (suits_requestLine line atLine).mpr (.inr ⟨code, by omega⟩)
          | @header next atHeader nonblank nextLine header startLine pending declared =>
              rw [Loop.run_of_again processPass_falls pass] at returned
              have later := (hopeful_of_line nextLine.notBody).mp (ih _ pass rfl nextLine returned)
              obtain ⟨following, _, _, suits⟩ := later
              exact suits.before atHeader nonblank header startLine declared
          | complete atHeader blank undeclared =>
              have none : request.contentLength = 0 := undeclared
              exact (suits_blank atHeader blank).mpr ⟨fits, .inl none⟩
          | @body next atHeader blank _ content declared startLine fresh readIdx cursors =>
              rw [Loop.run_of_again processPass_falls pass] at returned
              obtain ⟨_, same, comes⟩ := (AwaitsBody.refl content cursors).run cursors.start .ok
              cases returned.symm.trans same
              obtain ⟨_, low, high⟩ := comes.fits cursors.start hopeful
              exact (suits_blank atHeader blank).mpr ⟨fits, .inr ⟨by omega, by omega⟩⟩
        · obtain ⟨checkedIdx, rfl, nextLine, again⟩ := onLine.wait parsed isOk
          have waits := @processPass_of_wait _ _ .ok _ (by simp [onLine.notBody]) parsed isOk
          rw [Loop.run_of_done waits] at returned
          cases returned
          obtain ⟨line, plain, part, suits⟩ := (repairable_of_line nextLine.notBody).mp hopeful
          exact ⟨line, plain, .inl part, suits⟩
  exact general (.ok, request) rfl onLine returned

/-- An answer to more bytes, or hope after them, shows that there was hope before them. -/
theorem Paused.repairable_of_processRead {request : RequestState} (paused : request.Paused)
    {chunk : List UInt8} (room : request.Room chunk) {outcome : ReadOutcome}
    (returned : (request.receive chunk).processRead = some outcome) (hopeful : outcome.Hopeful) :
    request.Repairable := by
  cases paused with
  | line onLine waits =>
      exact (Paused.repairable_iff (.line onLine waits)).mpr
        (onLine.hopeful_of_receive chunk ((onLine.receive room).hopeful returned hopeful))
  | body content cursors =>
      have start : 0 ≤ (request.receive chunk).startLine := cursors.start
      obtain ⟨_, same, comes⟩ := (@AwaitsBody.refl (request.receive chunk) content
        (cursors.receive room)).run start .ok
      cases returned.symm.trans same
      have fits : (request.receive chunk).BodyRoom := comes.fits start hopeful
      simp only [Repairable, content]
      exact fits

/-- Only a parser that can be repaired comes to an answer. -/
theorem Paused.repairable_of_reads {request : RequestState} (paused : request.Paused)
    {chunks : List (List UInt8)} (room : request.Room chunks.flatten) {outcome : ReadOutcome}
    (returned : request.reads chunks = some outcome) (hopeful : outcome.Hopeful) :
    request.Repairable := by
  induction chunks generalizing request with
  | nil =>
      cases returned
      exact hopeful
  | cons chunk chunks ih =>
      simp only [Room, List.flatten_cons, List.length_append, Int.natCast_add] at room
      have first : request.Room chunk := by
        simp only [Room]
        omega
      simp only [RequestState.reads] at returned
      split at returned
      case h_1 next same =>
          have received : next.readIdx = request.readIdx + chunk.length :=
            processRead_readIdx same
          have nextPaused := (paused.receive first).run same
          exact paused.repairable_of_processRead first same
            (ih nextPaused (by rw [Room, received]; omega) returned)
      case h_2 => exact paused.repairable_of_processRead first returned hopeful

/-! ## Repairs -/

/-- `process_read` answers. -/
def Answered (request : RequestState) : Prop :=
  ∃ outcome, request.processRead = some outcome ∧ outcome.Answers

/-- A blank line and a body.  The NUL of a negative length is stored in front of its body, and so
the line takes all the room there is for it. -/
def blankAndBody (start length : Int) : List UInt8 :=
  List.replicate (if length < 0 then (readBufferSize - start).toNat else 0) 0 ++
    13 :: 10 :: List.replicate length.toNat 0

/-- What to send behind a suitable line. -/
def repair (request : RequestState) (line : List UInt8) : List UInt8 :=
  let text := line.takeWhile (· ≠ 0)
  let declared := (declaredBy line).getD request.contentLength
  match request.checkState with
  | .requestLine => if requestLineCode text = some .badRequest then [] else [13, 10]
  | .header =>
      if text = [] then
        List.replicate request.contentLength.toNat 0
      else if request.startLine + line.length + 2 + 19 ≤ readBufferSize then
        ascii "Content-length:" ++ [13, 10, 13, 10]
      else
        blankAndBody (request.startLine + line.length + 2 + 2) declared
  | .content => []

/-- A suitable length leaves room for the blank line and the body. -/
theorem length_blankAndBody {start later length : Int} (behind : start ≤ later)
    (ends : EndsAt later length) :
    start + (blankAndBody start length).length ≤ readBufferSize + 2 := by
  obtain ⟨inside, room⟩ := ends
  simp only [blankAndBody, List.length_append, List.length_cons, List.length_replicate]
  split <;> omega

theorem Suits.repair_fits {request : RequestState} {line : List UInt8}
    (suits : request.Suits line) :
    request.startLine + line.length + 2 + (request.repair line).length ≤ readBufferSize := by
  cases state : request.checkState with
  | requestLine =>
      rw [suits_requestLine line state] at suits
      simp only [repair, state]
      rcases suits with ⟨code, fits⟩ | ⟨code, fits⟩
      · rw [if_pos code, List.length_nil]
        omega
      · have accepted : ¬requestLineCode (line.takeWhile (· ≠ 0)) = some .badRequest := by
          rw [code]
          decide
        rw [if_neg accepted, List.length_cons, List.length_cons, List.length_nil]
        omega
  | header =>
      by_cases blank : line.takeWhile (· ≠ 0) = []
      · rw [suits_blank state blank] at suits
        obtain ⟨inside, room⟩ := suits
        simp only [repair, state, if_pos blank, List.length_replicate]
        omega
      · rw [suits_header state blank] at suits
        simp only [repair, state, if_neg blank]
        split
        case isTrue fits =>
            have size : (ascii "Content-length:" ++ [13, 10, 13, 10]).length = 19 := by decide
            omega
        case isFalse large =>
            obtain ⟨start, behind, ends⟩ := suits.resolve_right large
            have length := length_blankAndBody behind ends
            omega
  | content => simp [Suits, state] at suits

/-- A blank line with the body behind it is answered. -/
theorem OnLine.answered_blank {request : RequestState} (onLine : request.OnLine)
    (header : request.checkState = .header) {line rest : List UInt8}
    (ends : request.Ends line rest) (blank : line.takeWhile (· ≠ 0) = [])
    (room : EndsAt (request.startLine + line.length + 2) request.contentLength)
    (enough : request.contentLength ≤ rest.length) : request.Answered := by
  have readIdx := ends.readIdx onLine.cursors
  have turn := onLine.turn ends
  generalize pass : processPass (.ok, request) = passed at turn
  cases turn with
  | rejected atLine => exact absurd (header.symm.trans atLine) nofun
  | faulted atLine => exact absurd (header.symm.trans atLine) nofun
  | accepted atLine => exact absurd (header.symm.trans atLine) nofun
  | header _ nonblank => exact absurd blank nonblank
  | complete => exact ⟨_, Loop.run_of_done pass, trivial⟩
  | body _ _ bodied content declared startLine fresh received cursors =>
      obtain ⟨low, high⟩ := room.2.resolve_left bodied
      have done := (processPass_of_body content).trans
        (processLine_complete content cursors.room (by omega) (by omega) (by omega))
      exact ⟨_, (Loop.run_of_again processPass_falls pass).trans (Loop.run_of_done done), trivial⟩

/-- A header line is answered if the rest of the head is. -/
theorem OnLine.answered_header {request : RequestState} (onLine : request.OnLine)
    (header : request.checkState = .header) {line rest : List UInt8}
    (ends : request.Ends line rest) (nonblank : line.takeWhile (· ≠ 0) ≠ [])
    (later : ∀ next : RequestState, next.OnLine → next.checkState = .header →
      next.startLine = request.startLine + line.length + 2 → next.pending = rest →
      next.contentLength = (declaredBy line).getD request.contentLength → next.Answered) :
    request.Answered := by
  have turn := onLine.turn ends
  generalize pass : processPass (.ok, request) = passed at turn
  cases turn with
  | rejected atLine => exact absurd (header.symm.trans atLine) nofun
  | faulted atLine => exact absurd (header.symm.trans atLine) nofun
  | accepted atLine => exact absurd (header.symm.trans atLine) nofun
  | header _ _ nextLine atHeader startLine pending declared =>
      obtain ⟨outcome, returned, answers⟩ := later _ nextLine atHeader startLine pending declared
      exact ⟨outcome, (Loop.run_of_again processPass_falls pass).trans returned, answers⟩
  | complete _ blank => exact absurd blank nonblank
  | body _ blank => exact absurd blank nonblank

/-- So is one that takes the room that its body needs. -/
theorem OnLine.answered_blankAndBody {request : RequestState} (onLine : request.OnLine)
    (header : request.checkState = .header) {start later : Int}
    (bare : start = request.startLine + 2)
    (pending : request.pending = blankAndBody start request.contentLength)
    (behind : start ≤ later) (room : EndsAt later request.contentLength) : request.Answered := by
  have first := onLine.cursors.start
  obtain ⟨inside, body⟩ := room
  have plain : ∀ count : Nat, ∀ byte ∈ List.replicate count (0 : UInt8), Plain byte := by
    intro count byte member
    rw [List.eq_of_mem_replicate member]
    exact ⟨by decide, by decide⟩
  refine onLine.answered_blank header ⟨plain _, pending⟩ (by simp) ⟨?_, ?_⟩ ?_
  · rw [List.length_replicate]
    split <;> omega
  · rw [List.length_replicate]
    split <;> omega
  · rw [List.length_replicate]
    omega

theorem OnLine.answered {request : RequestState} (onLine : request.OnLine) {line : List UInt8}
    (suits : request.Suits line) (ends : request.Ends line (request.repair line)) :
    request.Answered := by
  have bare : ∀ next : RequestState, next.OnLine → next.checkState = .header →
      next.pending = [13, 10] → next.contentLength = 0 → next.startLine + 2 ≤ readBufferSize →
      next.Answered := by
    intro next nextLine atHeader pending undeclared room
    refine @OnLine.answered_blank next nextLine atHeader [] [] ⟨nofun, pending⟩ rfl
      ⟨by rw [List.length_nil]; omega, .inl undeclared⟩ ?_
    rw [undeclared]
    exact Int.le_refl 0
  cases state : request.checkState with
  | requestLine =>
      rw [suits_requestLine line state] at suits
      have turn := onLine.turn ends
      generalize pass : processPass (.ok, request) = passed at turn
      cases turn with
      | rejected => exact ⟨_, Loop.run_of_done pass, trivial⟩
      | faulted _ fault =>
          rw [fault] at suits
          simp at suits
      | accepted _ code nextLine header startLine pending undeclared =>
          simp only [repair, state, code] at pending
          have fits : request.startLine + line.length + 2 + 2 ≤ readBufferSize := by
            rcases suits with ⟨bad, _⟩ | ⟨_, fits⟩
            · exact absurd (code.symm.trans bad) (by decide)
            · exact fits
          obtain ⟨outcome, returned, answers⟩ :=
            bare _ nextLine header pending undeclared (by omega)
          exact ⟨outcome, (Loop.run_of_again processPass_falls pass).trans returned, answers⟩
      | header atHeader => exact absurd (state.symm.trans atHeader) nofun
      | complete atHeader => exact absurd (state.symm.trans atHeader) nofun
      | body atHeader => exact absurd (state.symm.trans atHeader) nofun
  | header =>
      simp only [repair, state] at ends
      split at ends
      case isTrue blank =>
          refine onLine.answered_blank state ends blank ((suits_blank state blank).mp suits) ?_
          rw [List.length_replicate]
          omega
      case isFalse nonblank =>
          rw [suits_header state nonblank] at suits
          refine onLine.answered_header state ends nonblank
            fun next nextLine atHeader startLine pending declared => ?_
          split at pending
          case isTrue fits =>
              have plain : ∀ byte ∈ ascii "Content-length:", byte ≠ 13 ∧ byte ≠ 10 := by decide
              have named : next.Ends (ascii "Content-length:") [13, 10] := ⟨plain, pending⟩
              have zero : declaredBy (ascii "Content-length:") = some 0 := by decide
              have size : (ascii "Content-length:").length = 15 := by decide
              refine nextLine.answered_header atHeader named (by decide)
                fun last lastLine lastHeader lastStart lastPending undeclared => ?_
              rw [zero] at undeclared
              exact bare last lastLine lastHeader lastPending undeclared (by omega)
          case isFalse large =>
              obtain ⟨start, behind, room⟩ := suits.resolve_right large
              rw [← declared] at pending room
              exact nextLine.answered_blankAndBody atHeader (by omega) pending behind room
  | content => exact absurd state onLine.notBody

/-- What can be repaired comes to an answer. -/
theorem Paused.answered {request : RequestState} (paused : request.Paused)
    (repairable : request.Repairable) :
    ∃ chunk, request.Room chunk ∧ (request.receive chunk).Answered := by
  cases paused with
  | line onLine waits =>
      obtain ⟨line, plain, ⟨missing, whole⟩, suits⟩ :=
        (repairable_of_line onLine.notBody).mp repairable
      have fits := suits.repair_fits
      have length := pending_length onLine.cursors
      have count := congrArg List.length whole
      simp only [List.length_append, List.length_cons, List.length_nil] at count
      have room : request.Room (missing ++ request.repair line) := by
        simp only [Room, List.length_append]
        omega
      refine ⟨_, room, (onLine.receive room).answered suits ⟨plain, ?_⟩⟩
      rw [pending_receive onLine.cursors, ← List.append_assoc, whole, List.append_assoc]
      rfl
  | body content cursors =>
      simp only [Repairable, content] at repairable
      obtain ⟨fits, low, high⟩ := repairable
      have inside := cursors.room
      let missing := (request.contentLength + request.checkedIdx - request.readIdx).toNat
      have room : request.Room (List.replicate missing 0) := by
        simp only [Room, List.length_replicate, missing]
        omega
      have complete : (request.receive (List.replicate missing 0)).contentLength +
          (request.receive (List.replicate missing 0)).checkedIdx ≤
            (request.receive (List.replicate missing 0)).readIdx := by
        simp only [RequestState.receive, List.length_replicate, missing]
        omega
      have body : (request.receive (List.replicate missing 0)).checkState = .content := content
      have filled : (request.receive (List.replicate missing 0)).readIdx ≤ readBufferSize := by
        simp only [RequestState.receive, List.length_replicate, missing]
        omega
      have done := (processPass_of_body body).trans (processLine_complete body filled
        complete low high)
      exact ⟨_, room, _, Loop.run_of_done done, trivial⟩

/-- More reads come to an answer just if what has been received can be repaired. -/
theorem Paused.answers_iff {request : RequestState} (paused : request.Paused) :
    (∃ more outcome, request.Room more.flatten ∧ request.reads more = some outcome ∧
      outcome.Answers) ↔ request.Repairable := by
  constructor
  · rintro ⟨more, outcome, room, returned, answers⟩
    exact paused.repairable_of_reads room returned answers.hopeful
  · intro repairable
    obtain ⟨chunk, room, outcome, returned, answers⟩ := paused.answered repairable
    refine ⟨[chunk], outcome, by simpa using room, ?_, answers⟩
    rw [RequestState.reads, returned]
    split
    case h_1 next waits =>
        cases waits
        contradiction
    case h_2 => rfl

/-! ## Bad lines -/

/-- A line that `parse_line` has found bad cannot be repaired. -/
theorem OnLine.not_repairable_of_bad {request : RequestState} (onLine : request.OnLine)
    (bad : request.parseLine.1 = .bad) : ¬request.Repairable := by
  obtain ⟨cursors, scanned, notBody, _⟩ := onLine
  rw [repairable_of_line notBody]
  rintro ⟨line, plain, ⟨missing, whole⟩, _⟩
  have length := pending_length cursors
  have held : ∀ offset : Nat, request.startLine + offset < request.readIdx →
      (line ++ [13, 10])[offset]? = some (request.readBuf (request.startLine + offset)) := by
    intro offset received
    have inBounds : offset < request.pending.length := by omega
    rw [← whole, List.getElem?_append_left inBounds, List.getElem?_eq_getElem inBounds,
      holds_pending request offset inBounds]
  have scan := cursors.lineScan
  generalize request.parseLine = result at bad scan
  cases scan with
  | exhausted | carriage | ended => contradiction
  | @stray index passes stray =>
      obtain ⟨received, stray⟩ := stray
      have checked := cursors.checked
      have low := passes.low
      obtain ⟨count, rfl⟩ : ∃ count : Nat, index = request.startLine + count :=
        ⟨(index - request.startLine).toNat, by omega⟩
      -- The bytes in front of the stray one are plain, so that it stands where the line ends.
      have before : ∀ offset < count, Plain (request.readBuf (request.startLine + offset)) := by
        intro offset inside
        by_cases earlier : request.startLine + (offset : Int) < request.checkedIdx
        · exact scanned _ (by omega) earlier
        · exact passes.plain _ (by omega) (by omega)
      have atCount := held count received
      have notPlain : ¬Plain (request.readBuf (request.startLine + count)) := by
        rintro ⟨notCarriage, notFeed⟩
        rcases stray with feed | ⟨carriage, _⟩
        · exact notFeed feed
        · exact notCarriage carriage
      rcases Nat.lt_trichotomy count line.length with inLine | rfl | behind
      · rw [List.getElem?_append_left inLine, List.getElem?_eq_getElem inLine] at atCount
        exact notPlain (Option.some.inj atCount ▸ plain _ (List.getElem_mem inLine))
      · have carriage : request.readBuf (request.startLine + line.length) = 13 := by
          simpa using atCount.symm
        rcases stray with feed | ⟨_, further, other⟩
        · rw [carriage] at feed
          exact absurd feed (by decide)
        · have next := held (line.length + 1) (by omega)
          rw [Int.natCast_add, Int.natCast_one, ← Int.add_assoc] at next
          exact other (by simpa using next.symm)
      · have carriage : request.readBuf (request.startLine + line.length) = 13 := by
          simpa using (held line.length (by omega)).symm
        exact (before line.length behind).1 carriage

/-- A line without a NUL or a line end can be repaired while the last bytes of the buffer are
free. -/
theorem OnLine.repairable_of_clean {request : RequestState} (onLine : request.OnLine)
    (clean : ∀ byte ∈ request.pending, byte ≠ 0 ∧ Plain byte)
    (room : request.readIdx + 21 ≤ readBufferSize) : request.Repairable := by
  have length := pending_length onLine.cursors
  rw [repairable_of_line onLine.notBody]
  cases state : request.checkState with
  | requestLine =>
      -- A letter behind the version makes any request line a bad one.
      have whole : (request.pending ++ [120]).takeWhile (· ≠ 0) = request.pending ++ [120] := by
        refine List.takeWhile_eq_self_iff.mpr fun byte member => ?_
        rcases List.mem_append.mp member with inPending | last
        · simpa using (clean byte inPending).1
        · rw [List.mem_singleton.mp last]
          decide
      have rejected : requestLineCode (request.pending ++ [120]) = some .badRequest := by
        by_contra notBad
        have digit := requestLineCode_getLast? notBad
        rw [List.getLast?_concat] at digit
        exact absurd digit (by decide)
      refine ⟨request.pending ++ [120], fun byte member => ?_, ?_,
        (suits_requestLine _ state).mpr (.inl ⟨by rw [whole, rejected], ?_⟩)⟩
      · rcases List.mem_append.mp member with inPending | last
        · exact (clean byte inPending).2
        · rw [List.mem_singleton.mp last]
          exact ⟨by decide, by decide⟩
      · rw [List.append_assoc]
        exact List.prefix_append _ _
      · simp only [List.length_append, List.length_cons, List.length_nil]
        omega
  | header =>
      by_cases empty : request.pending = []
      · have plain : ∀ byte ∈ ascii "Content-length:", byte ≠ 13 ∧ byte ≠ 10 := by decide
        have zero : declaredBy (ascii "Content-length:") = some 0 := by decide
        have size : (ascii "Content-length:").length = 15 := by decide
        rw [empty, List.length_nil] at length
        refine ⟨ascii "Content-length:", plain, ?_, (suits_header state (by decide)).mpr
          (.inl ⟨_, Int.le_refl _, ?_, .inl (by rw [zero, Option.getD_some])⟩)⟩
        · rw [empty]
          exact List.nil_prefix
        · rw [size]
          omega
      · have nonblank : request.pending.takeWhile (· ≠ 0) ≠ [] := by
          rwa [List.takeWhile_eq_self_iff.mpr
            fun byte member => by simpa using (clean byte member).1]
        refine ⟨request.pending, fun byte member => (clean byte member).2, List.prefix_append _ _,
          (suits_header state nonblank).mpr (.inr ?_)⟩
        omega
  | content => exact absurd state onLine.notBody

end RequestState

/-- **Which waiting input can still be answered.**  After any reads that made `process_read`
return `NO_REQUEST`, more bytes bring it to `do_request` or `BAD_REQUEST` just if what has been
received of the current line can be ended suitably, or there is still room for the body and its
NUL in the buffer.  A stray carriage return or line feed rules that out, and `process_read` goes
on to return `NO_REQUEST`. -/
theorem answers_iff_repairable (slot : RequestState) {chunks : List (List UInt8)}
    {next : RequestState} (short : chunks.flatten.length ≤ readBufferSize)
    (waits : slot.init.reads chunks = some (.code .noRequest next)) :
    (∃ more outcome, (chunks ++ more).flatten.length ≤ readBufferSize ∧
      slot.init.reads (chunks ++ more) = some outcome ∧ outcome.Answers) ↔ next.Repairable := by
  have start : slot.init.readIdx = 0 := rfl
  obtain ⟨paused, received⟩ := (RequestState.init_paused slot).reads
    (by rw [RequestState.Room, start]; omega) waits
  have room : ∀ more : List (List UInt8), (chunks ++ more).flatten.length ≤ readBufferSize ↔
      next.Room more.flatten := by
    intro more
    rw [RequestState.Room, received, start, List.flatten_append, List.length_append]
    omega
  simp only [room, RequestState.reads_append _ waits]
  exact paused.answers_iff

/-- The parser behind `NO_REQUEST`. -/
def ReadOutcome.waiting : ReadOutcome → Option RequestState
  | .code .noRequest next => some next
  | _ => none

/-- The current line of a parser that waits. -/
def ReadOutcome.waitingLine (outcome : ReadOutcome) :
    Option (CheckState × LineStatus × List UInt8) :=
  outcome.waiting.map fun next => (next.checkState, next.parseLine.1, next.pending)

theorem of_waitingLine {returned : Option ReadOutcome} {state : CheckState}
    {lineStatus : LineStatus}
    {pending : List UInt8}
    (waits : returned.bind ReadOutcome.waitingLine = some (state, lineStatus, pending)) :
    ∃ next, returned = some (.code .noRequest next) ∧ next.checkState = state ∧
      next.parseLine.1 = lineStatus ∧ next.pending = pending := by
  obtain ⟨outcome, rfl, line⟩ := Option.bind_eq_some_iff.mp waits
  obtain ⟨next, isWaiting, same⟩ := Option.map_eq_some_iff.mp line
  cases same
  refine ⟨next, ?_, rfl, rfl, rfl⟩
  cases outcome with
  | fault reason next => contradiction
  | request last => contradiction
  | code ret last =>
      cases ret with
      | noRequest => rw [Option.some.inj isWaiting]
      | badRequest | getRequest | noResource | forbiddenRequest | fileRequest | internalError
        | closedConnection | diagnoseRequest | diagnoseCsvRequest | redirectRequest => contradiction

theorem answers_iff_repairable_open :
    ∃ next, HttpConn.blank.toRequestState.init.reads [ascii "GET / HT"] =
        some (.code .noRequest next) ∧
      ((∃ more outcome, ([ascii "GET / HT"] ++ more).flatten.length ≤ readBufferSize ∧
        HttpConn.blank.toRequestState.init.reads ([ascii "GET / HT"] ++ more) = some outcome ∧
        outcome.Answers) ↔ next.Repairable) := by
  obtain ⟨next, waits, _⟩ := @of_waitingLine
    (HttpConn.blank.toRequestState.init.reads [ascii "GET / HT"]) .requestLine .open
      (ascii "GET / HT")
    (by decide +kernel)
  exact ⟨next, waits, answers_iff_repairable _ (by decide) waits⟩

/-- A request line that ends with a line feed alone makes `process_read` return `NO_REQUEST`,
whatever follows. -/
theorem not_answers_lineFeed :
    ∃ next, HttpConn.blank.toRequestState.init.reads [ascii "GET / HTTP/1.1\n"] =
        some (.code .noRequest next) ∧ next.parseLine.1 = .bad ∧
      ∀ more outcome, ([ascii "GET / HTTP/1.1\n"] ++ more).flatten.length ≤ readBufferSize →
        HttpConn.blank.toRequestState.init.reads ([ascii "GET / HTTP/1.1\n"] ++ more) =
          some outcome → ¬outcome.Answers := by
  obtain ⟨next, waits, state, bad, _⟩ := @of_waitingLine
    (HttpConn.blank.toRequestState.init.reads [ascii "GET / HTTP/1.1\n"]) .requestLine .bad
    (ascii "GET / HTTP/1.1\n") (by decide +kernel)
  refine ⟨next, waits, bad, fun more outcome short returned answers => ?_⟩
  have start : HttpConn.blank.toRequestState.init.readIdx = 0 := rfl
  have count : [ascii "GET / HTTP/1.1\n"].flatten.length = 15 := by decide
  have size : readBufferSize = 65536 := rfl
  obtain ⟨paused, received⟩ := (RequestState.init_paused HttpConn.blank.toRequestState).reads
    (by rw [RequestState.Room, start, count]; omega) waits
  rw [List.flatten_append, List.length_append, count] at short
  rw [start, count] at received
  rw [RequestState.reads_append _ waits] at returned
  have repairable := paused.answers_iff.mp
    ⟨more, outcome, by rw [RequestState.Room, received]; omega, returned, answers⟩
  cases paused with
  | line onLine _ => exact onLine.not_repairable_of_bad bad repairable
  | body content _ => exact absurd (state.symm.trans content) nofun

end TimeGANWebServer.Http
