import TimeGANWebServer.Http.KeepAlive

/-!
# Level- and edge-triggered reading

A client sends bytes, and they arrive in some grouping.  In level-triggered mode `read_once` calls
`recv` once for each event, in edge-triggered mode until it fails with `EAGAIN`; the event is
reported again as long as bytes are left.  What the parser makes of the two is compared.
-/

namespace TimeGANWebServer.Http

open TimeGANWebServer.Support

/-! ## Receiving what has arrived -/

/-- What `recv` returns on a non-blocking socket with room for `space` bytes, when `waiting` has
arrived and the other end is open.  With nothing waiting it fails with `EAGAIN`, whatever the room;
where bytes wait, a call without room returns 0, as at the end of a stream. -/
def recv (space : Int) (waiting : List UInt8) : RecvResult :=
  if waiting = [] then
    .again
  else if space = 0 then
    .closed
  else
    .data (waiting.take space.toNat)

/-- The results of the `recv` calls of one `read_once`, at most so many, and what it leaves. -/
def recvs (trigMode : Int) : Nat → Int → List UInt8 → List RecvResult × List UInt8
  | 0, _, waiting => ([], waiting)
  | calls + 1, space, waiting =>
      match recv space waiting with
      | .data bytes =>
          let rest := waiting.drop bytes.length
          if trigMode = 0 then
            ([.data bytes], rest)
          else
            let later := recvs trigMode calls (space - bytes.length) rest
            (.data bytes :: later.1, later.2)
      | result => ([result], waiting)

/-- What can be seen of a connection: `do_request` is called, the server closes it, or the program
does not continue in a defined state. -/
inductive Seen where
  | asked (request : RequestState)
  | closed
  | faulted

/-- A connection as `read_once` and `process_read` see it, with the number of responses. -/
structure Reader where
  request : RequestState
  closed : Bool
  responses : Nat

namespace Reader

/-- A slot that has been initialised for a connection. -/
def opened (slot : RequestState) : Reader where
  request := slot.init
  closed := false
  responses := 0

/-- A response is written.  Then the connection is kept and `init` is called, if the request asks
for it and the response goes out; otherwise it is closed. -/
def respond (keeps : Nat → RequestState → Bool) (reader : Reader) (request : RequestState) :
    Reader × List Seen :=
  if request.linger && keeps reader.responses request then
    ({ request := request.init, closed := false, responses := reader.responses + 1 }, [])
  else
    ({ request := request, closed := true, responses := reader.responses + 1 }, [.closed])

/-- What follows a `read_once`: `process`, with the response, or the connection is closed. -/
def turn (keeps : Nat → RequestState → Bool) (reader : Reader) (read : Bool × RequestState) :
    Reader × List Seen :=
  if read.1 then
    match read.2.readOutcome with
    | .code .noRequest next => ({ reader with request := next }, [])
    | .code _ next => reader.respond keeps next
    | .request next => ((reader.respond keeps next).1, .asked next :: (reader.respond keeps next).2)
    | .fault _ _ => ({ reader with closed := true }, [.faulted])
  else
    ({ reader with request := read.2, closed := true }, [.closed])

end Reader

/-- A connection while an arrival is handled: what has not been read, and what has been seen. -/
structure Serving where
  reader : Reader
  waiting : List UInt8
  seen : List Seen

namespace Serving

/-- An event is handled, if there is one: bytes are waiting, and the connection is open. -/
def pass (trigMode : Int) (keeps : Nat → RequestState → Bool) (serving : Serving) :
    Pass Serving Serving :=
  if serving.reader.closed = true ∨ serving.waiting = [] then
    .done serving
  else
    let request := serving.reader.request
    let results := recvs trigMode (serving.waiting.length + 1) (readBufferSize - request.readIdx)
      serving.waiting
    let turned := serving.reader.turn keeps
      ((request.readOnce trigMode results.1).getD (false, request))
    .again {
      reader := turned.1
      waiting := results.2
      seen := serving.seen ++ turned.2 }

/-- A bound on the events that are left. -/
def left (serving : Serving) : Nat :=
  if serving.reader.closed then 0 else serving.waiting.length + 1

end Serving

/-- Bytes arrive, and all events that they cause are handled. -/
def Reader.arrive (trigMode : Int) (keeps : Nat → RequestState → Bool) (reader : Reader)
    (chunk : List UInt8) : Option (Reader × List (List Seen)) :=
  (Loop.run (Serving.pass trigMode keeps) Serving.left
    { reader := reader, waiting := chunk, seen := [] }).map fun served =>
      (served.reader, [served.seen])

/-- What is seen of a connection behind each arrival. -/
def trace (trigMode : Int) (keeps : Nat → RequestState → Bool) (reader : Reader)
    (arrivals : List (List UInt8)) : Option (List (List Seen)) :=
  (run (Reader.arrive trigMode keeps) reader arrivals).map Prod.snd

/-- The read buffer has room for an arrival; or it is full already, and nothing is read in either
mode; or the text that fills it is bad or holds no whole request, and so is closed in either
mode. -/
def Reader.Spares (reader : Reader) (chunk : List UInt8) : Prop :=
  let filled := reader.request.receive
    (chunk.take (readBufferSize - reader.request.readIdx).toNat)
  reader.closed = true ∨ reader.request.readIdx + chunk.length ≤ readBufferSize ∨
    readBufferSize ≤ reader.request.readIdx ∨
    (∃ next, filled.readOutcome = .code .badRequest next) ∨
    ∃ next, filled.readOutcome = .code .noRequest next

/-! ## The `recv` calls of one event -/

theorem recv_of_room {space : Int} {waiting : List UInt8} (room : 0 < space)
    (some_ : waiting ≠ []) : recv space waiting = .data (waiting.take space.toNat) := by
  simp only [recv, if_neg (Int.ne_of_gt room), if_neg some_]

theorem recv_of_nothing (space : Int) : recv space [] = .again := if_pos rfl

theorem recv_of_full {waiting : List UInt8} (some_ : waiting ≠ []) : recv 0 waiting = .closed := by
  simp only [recv, if_neg some_, if_true]

theorem length_recvs_le (trigMode : Int) (calls : Nat) (space : Int) (waiting : List UInt8) :
    (recvs trigMode calls space waiting).2.length ≤ waiting.length := by
  induction calls generalizing space waiting with
  | zero => exact Nat.le_refl _
  | succ calls ih =>
      simp only [recvs]
      split
      case _ bytes received =>
          have shorter : (waiting.drop bytes.length).length ≤ waiting.length := by simp
          split
          · exact shorter
          · exact Nat.le_trans (ih _ _) shorter
      case _ => exact Nat.le_refl _

/-- A `read_once` with room for some bytes takes some of those that wait. -/
theorem length_recvs_lt (trigMode : Int) (calls : Nat) {space : Int} {waiting : List UInt8}
    (room : 0 < space) (some_ : waiting ≠ []) :
    (recvs trigMode (calls + 1) space waiting).2.length < waiting.length := by
  have positive : 0 < waiting.length := List.length_pos_iff.mpr some_
  have shorter : (waiting.drop (waiting.take space.toNat).length).length < waiting.length := by
    simp only [List.length_drop, List.length_take]
    omega
  simp only [recvs, recv_of_room room some_]
  split
  · exact shorter
  · exact Nat.lt_of_le_of_lt (length_recvs_le _ _ _ _) shorter

/-- Bytes for which there is room are received. -/
theorem recvs_of_short (trigMode : Int) {space : Int} {waiting : List UInt8}
    (some_ : waiting ≠ []) (fits : waiting.length ≤ space) :
    Delivers trigMode (recvs trigMode (waiting.length + 1) space waiting).1 waiting ∧
      (recvs trigMode (waiting.length + 1) space waiting).2 = [] := by
  have positive : 0 < waiting.length := List.length_pos_iff.mpr some_
  have room : 0 < space := by omega
  have whole : waiting.take space.toNat = waiting := List.take_of_length_le (by omega)
  simp only [recvs, recv_of_room room some_, whole, List.drop_length]
  split
  case isTrue level => exact ⟨.level level some_, rfl⟩
  case isFalse edge =>
      obtain ⟨calls, isCalls⟩ : ∃ calls, waiting.length = calls + 1 :=
        Nat.exists_eq_succ_of_ne_zero (Nat.ne_of_gt positive)
      -- the room may be used up: `recv` fails with `EAGAIN` all the same
      have again : recvs trigMode waiting.length (space - waiting.length) [] = ([.again], []) := by
        rw [isCalls]
        simp only [recvs, recv_of_nothing]
      rw [again]
      have delivers := Delivers.more edge some_ (Delivers.last edge)
      rw [List.append_nil] at delivers
      exact ⟨delivers, rfl⟩

/-- More bytes than there is room for fill the buffer; in edge-triggered mode `recv` is called
once more then, without room. -/
theorem recvs_of_full (trigMode : Int) {space : Int} {waiting : List UInt8} (room : 0 < space)
    (full : space < waiting.length) :
    recvs trigMode (waiting.length + 1) space waiting =
      (.data (waiting.take space.toNat) :: if trigMode = 0 then [] else [.closed],
        waiting.drop space.toNat) := by
  have some_ : waiting ≠ [] := by
    rintro rfl
    simp only [List.length_nil] at full
    omega
  obtain ⟨calls, isCalls⟩ : ∃ calls, waiting.length = calls + 1 :=
    Nat.exists_eq_succ_of_ne_zero (Nat.ne_of_gt (List.length_pos_iff.mpr some_))
  have taken : (waiting.take space.toNat).length = space.toNat := by
    rw [List.length_take]
    omega
  have nothing : space - (space.toNat : Int) = 0 := by omega
  have rest : waiting.drop space.toNat ≠ [] := by
    rw [Ne, List.drop_eq_nil_iff]
    omega
  simp only [recvs, recv_of_room room some_, taken, nothing]
  split
  · rfl
  · rw [isCalls]
    simp only [recvs, recv_of_full rest]

/-! ## One event -/

namespace RequestState

/-- A read succeeds in either mode where there is room for all that waits. -/
theorem readOnce_of_recvs (trigMode : Int) {request : RequestState} {waiting : List UInt8}
    (some_ : waiting ≠ []) (fits : request.readIdx + waiting.length ≤ readBufferSize) :
    request.readOnce trigMode
        (recvs trigMode (waiting.length + 1) (readBufferSize - request.readIdx) waiting).1 =
      some (true, request.receive waiting) := by
  have delivers := (@recvs_of_short trigMode (readBufferSize - request.readIdx) waiting some_
    (by omega)).1
  have positive : 0 < waiting.length := List.length_pos_iff.mpr some_
  exact readOnce_of_fits delivers (by omega) fits

/-- A read that fills the buffer and leaves bytes waiting succeeds in level-triggered mode only. -/
theorem readOnce_of_full (trigMode : Int) {request : RequestState} {waiting : List UInt8}
    (room : request.readIdx < readBufferSize)
    (full : readBufferSize < request.readIdx + waiting.length) :
    request.readOnce trigMode
        (recvs trigMode (waiting.length + 1) (readBufferSize - request.readIdx) waiting).1 =
      some (decide (trigMode = 0),
        request.receive (waiting.take (readBufferSize - request.readIdx).toNat)) := by
  have notFull : ¬(readBufferSize : Int) ≤ request.readIdx := by omega
  have taken : (waiting.take (readBufferSize - request.readIdx).toNat).length =
      (readBufferSize - request.readIdx).toNat := by
    rw [List.length_take]
    omega
  have fits : request.Fits (waiting.take (readBufferSize - request.readIdx).toNat) := by
    constructor
    · apply List.ne_nil_of_length_pos
      omega
    · rw [taken]
      omega
  rw [recvs_of_full trigMode (by omega) (by omega)]
  simp only [readOnce, if_neg notFull]
  split
  case isTrue level => simp only [level, decide_true]
  case isFalse edge => simp only [readLoop, if_pos fits, decide_eq_false edge]

/-- Nothing is read into a full buffer. -/
theorem readOnce_of_noRoom (trigMode : Int) {request : RequestState} (results : List RecvResult)
    (full : readBufferSize ≤ request.readIdx) :
    request.readOnce trigMode results = some (false, request) := by
  simp only [readOnce, if_pos full]

end RequestState

namespace Serving

variable {trigMode : Int} {keeps : Nat → RequestState → Bool}

theorem pass_of_event {serving : Serving} (isOpen : serving.reader.closed = false)
    (some_ : serving.waiting ≠ []) {read : Bool × RequestState}
    (reads : serving.reader.request.readOnce trigMode
      (recvs trigMode (serving.waiting.length + 1)
        (readBufferSize - serving.reader.request.readIdx) serving.waiting).1 = some read) :
    serving.pass trigMode keeps = .again {
      reader := (serving.reader.turn keeps read).1
      waiting := (recvs trigMode (serving.waiting.length + 1)
        (readBufferSize - serving.reader.request.readIdx) serving.waiting).2
      seen := serving.seen ++ (serving.reader.turn keeps read).2 } := by
  have event : ¬(serving.reader.closed = true ∨ serving.waiting = []) := by
    simp [isOpen, some_]
  simp only [pass, if_neg event, reads, Option.getD_some]

theorem closed_of_failed (reader : Reader) (request : RequestState) :
    (reader.turn keeps (false, request)).1.closed = true := rfl

theorem pass_falls (serving next : Serving) (passed : serving.pass trigMode keeps = .again next) :
    next.left < serving.left := by
  simp only [pass] at passed
  split at passed
  · contradiction
  case isFalse event =>
      rw [not_or, Bool.not_eq_true] at event
      obtain ⟨isOpen, some_⟩ := event
      cases passed
      simp only [left, isOpen, Bool.false_eq_true, if_false]
      by_cases room : serving.reader.request.readIdx < readBufferSize
      · have shorter := @length_recvs_lt trigMode serving.waiting.length
          (readBufferSize - serving.reader.request.readIdx) serving.waiting (by omega) some_
        split <;> omega
      · rw [RequestState.readOnce_of_noRoom trigMode _ (by omega), Option.getD_some,
          closed_of_failed, if_pos rfl]
        exact Nat.succ_pos _

theorem run_of_event {serving : Serving} (isOpen : serving.reader.closed = false)
    (some_ : serving.waiting ≠ []) {read : Bool × RequestState}
    (reads : serving.reader.request.readOnce trigMode
      (recvs trigMode (serving.waiting.length + 1)
        (readBufferSize - serving.reader.request.readIdx) serving.waiting).1 = some read) :
    Loop.run (pass trigMode keeps) left serving = Loop.run (pass trigMode keeps) left {
      reader := (serving.reader.turn keeps read).1
      waiting := (recvs trigMode (serving.waiting.length + 1)
        (readBufferSize - serving.reader.request.readIdx) serving.waiting).2
      seen := serving.seen ++ (serving.reader.turn keeps read).2 } :=
  Loop.run_of_again pass_falls (pass_of_event isOpen some_ reads)

theorem run_of_quiet {serving : Serving}
    (quiet : serving.reader.closed = true ∨ serving.waiting = []) :
    Loop.run (pass trigMode keeps) left serving = some serving :=
  Loop.run_of_done (if_pos quiet)

/-- What has been seen stays seen. -/
theorem run_seen (serving : Serving) :
    ∃ served more, Loop.run (pass trigMode keeps) left serving = some served ∧
      served.seen = serving.seen ++ more := by
  obtain ⟨served, ran, more, grown⟩ := Loop.run_of_invariant (@pass_falls trigMode keeps)
    (fun later => ∃ more, later.seen = serving.seen ++ more)
    (fun served => ∃ more, served.seen = serving.seen ++ more)
    (fun state served holds passed => by
      simp only [pass] at passed
      split at passed
      · cases passed
        exact holds
      · contradiction)
    (fun state next holds passed => by
      obtain ⟨more, grown⟩ := holds
      simp only [pass] at passed
      split at passed
      · contradiction
      · cases passed
        exact ⟨_, by rw [grown, List.append_assoc]⟩)
    (show ∃ more, serving.seen = serving.seen ++ more from ⟨[], (List.append_nil _).symm⟩)
  exact ⟨served, more, ran, grown⟩

end Serving

/-! ## `m_linger` -/

namespace RequestState

/-- No header has been parsed in front of the request line. -/
def Unasked (request : RequestState) : Prop :=
  request.checkState = .requestLine → request.linger = false

theorem parseRequestLine_linger {request next : RequestState} {text : Int} {code : HttpCode}
    (parsed : request.parseRequestLine text = .ok (code, next)) : next.linger = request.linger := by
  simp only [parseRequestLine, parseTarget, parseUrl] at parsed
  repeat' split at parsed
  all_goals cases parsed
  all_goals rfl

theorem parseHeaders_state {request next : RequestState} {text : Int} {code : HttpCode}
    (header : request.checkState ≠ .requestLine)
    (parsed : request.parseHeaders text = (code, next)) :
    code ≠ .badRequest ∧ next.checkState ≠ .requestLine := by
  simp only [parseHeaders] at parsed
  repeat' split at parsed
  all_goals cases parsed
  all_goals first
    | exact ⟨HttpCode.noConfusion, header⟩
    | exact ⟨HttpCode.noConfusion, CheckState.noConfusion⟩

/-- A line that is bad is a request line; a good one leaves headers to come. -/
theorem processLine_linger {request : RequestState} (unasked : request.Unasked) :
    (∀ code next, request.processLine = .done (.code code next) → next.linger = false) ∧
      ∀ lineStatus next, request.processLine = .again (lineStatus, next) → next.Unasked := by
  simp only [processLine]
  cases state : request.checkState with
  | requestLine =>
      have none := unasked state
      simp only
      split
      case _ => exact ⟨by simp, by simp⟩
      case _ next parsed =>
          refine ⟨fun code last same => ?_, by simp⟩
          cases same
          exact (parseRequestLine_linger parsed).trans none
      case _ code next notBad parsed =>
          refine ⟨by simp, fun lineStatus last same _ => ?_⟩
          cases same
          exact (parseRequestLine_linger parsed).trans none
  | header =>
      simp only
      split
      case _ next parsed =>
          exact absurd rfl (parseHeaders_state (by simp) parsed).1
      case _ => exact ⟨by simp, by simp⟩
      case _ code next notBad notGet parsed =>
          have later := (parseHeaders_state (by simp) parsed).2
          refine ⟨by simp, fun lineStatus last same => ?_⟩
          cases same
          exact fun atLine => absurd atLine later
  | content =>
      simp only
      split
      case _ => exact ⟨by simp, by simp⟩
      case _ => exact ⟨by simp, by simp⟩
      case _ code next notGet parsed =>
          have kept := (parseContent_keeps parsed).2.2.2.1
          simp only at kept
          refine ⟨by simp, fun lineStatus last same => ?_⟩
          cases same
          intro atLine
          rw [atLine] at kept
          contradiction

theorem processRead_of_outcome {request : RequestState} {outcome : ReadOutcome}
    (ended : request.readOutcome = outcome) : request.processRead = some outcome :=
  Option.some_get request.processRead_isSome ▸ congrArg some ended

/-- A parser that returns a code has not been asked to keep the connection, or has read its
request line. -/
theorem readOutcome_linger {request next : RequestState} {code : HttpCode}
    (unasked : request.Unasked) (ended : request.readOutcome = .code code next) :
    next.Unasked ∧ (code = .badRequest → next.linger = false) := by
  obtain ⟨outcome, returned, post⟩ := Loop.run_of_invariant processPass_falls
    (fun state => state.2.Unasked)
    (fun outcome => ∀ code next, outcome = .code code next →
      next.Unasked ∧ (code = .badRequest → next.linger = false))
    (fun state outcome holds passed code next same => by
      obtain ⟨lineStatus, current⟩ := state
      subst same
      simp only [processPass] at passed
      split at passed
      · have bad := (processLine_linger holds).1 code next passed
        exact ⟨fun _ => bad, fun _ => bad⟩
      · obtain ⟨readBuf, checkedIdx, result, _⟩ := parseLine_frame current
        split at passed
        case _ ended parsed =>
            rw [parsed] at result
            have still : ended.Unasked := by
              simp only at result
              rw [result]
              exact holds
            have bad := (processLine_linger still).1 code next passed
            exact ⟨fun _ => bad, fun _ => bad⟩
        case _ ended _ parsed =>
            cases passed
            rw [parsed] at result
            simp only at result
            rw [result]
            exact ⟨holds, HttpCode.noConfusion⟩)
    (fun state next holds passed => by
      obtain ⟨lineStatus, current⟩ := state
      obtain ⟨nextStatus, next⟩ := next
      simp only [processPass] at passed
      split at passed
      · exact (processLine_linger holds).2 nextStatus next passed
      · obtain ⟨readBuf, checkedIdx, result, _⟩ := parseLine_frame current
        split at passed
        case _ ended parsed =>
            rw [parsed] at result
            have still : ended.Unasked := by
              simp only at result
              rw [result]
              exact holds
            exact (processLine_linger still).2 nextStatus next passed
        case _ => contradiction)
    (show (LineStatus.ok, request).2.Unasked from unasked)
  have same : request.readOutcome = outcome := by
    simp only [readOutcome, processRead, returned, Option.get_some]
  exact post code next (same.symm.trans ended)

end RequestState

/-! ## Arrivals -/

namespace Reader

variable {keeps : Nat → RequestState → Bool}

/-- A connection that has been closed, or whose text is inside its buffer. -/
def Ready (reader : Reader) : Prop :=
  reader.closed = true ∨ reader.request.Unasked ∧ 0 ≤ reader.request.readIdx ∧
    reader.request.readIdx ≤ readBufferSize

theorem opened_ready (slot : RequestState) : (opened slot).Ready :=
  .inr ⟨fun _ => rfl, Int.le_refl 0, (by decide : (0 : Int) ≤ readBufferSize)⟩

theorem respond_ready (reader : Reader) (request : RequestState) :
    (reader.respond keeps request).1.Ready := by
  simp only [respond]
  split
  · exact .inr ⟨fun _ => rfl, Int.le_refl 0, by simp [RequestState.init]⟩
  · exact .inl rfl

/-- A response to a request that does not ask for it closes the connection. -/
theorem respond_of_linger {reader : Reader} {request : RequestState}
    (linger : request.linger = false) :
    reader.respond keeps request =
      ({ request := request, closed := true, responses := reader.responses + 1 }, [.closed]) := by
  simp only [respond, linger, Bool.false_and, Bool.false_eq_true, if_false]

theorem turn_ready {reader : Reader} {request : RequestState} (unasked : request.Unasked)
    (nonneg : 0 ≤ request.readIdx) (inside : request.readIdx ≤ readBufferSize) :
    (reader.turn keeps (true, request)).1.Ready := by
  simp only [turn, if_true]
  split
  case _ next ended =>
      have kept := (RequestState.readOutcome_linger unasked ended).1
      have readIdx := RequestState.processRead_readIdx (RequestState.processRead_of_outcome ended)
      rw [← readIdx] at nonneg inside
      exact .inr ⟨kept, nonneg, inside⟩
  case _ => exact respond_ready reader _
  case _ => exact respond_ready reader _
  case _ => exact .inl rfl

/-! ### What an arrival comes to -/

/-- Nothing happens on a closed connection, and where nothing arrives. -/
theorem arrive_of_quiet (trigMode : Int) {reader : Reader} {chunk : List UInt8}
    (quiet : reader.closed = true ∨ chunk = []) :
    reader.arrive trigMode keeps chunk = some (reader, [[]]) := by
  simp only [arrive, @Serving.run_of_quiet trigMode keeps ⟨reader, chunk, []⟩ quiet,
    Option.map_some]

/-- Where there is room for all that arrives, the mode does not matter. -/
theorem arrive_of_fits (trigMode : Int) {reader : Reader} {chunk : List UInt8}
    (isOpen : reader.closed = false) (some_ : chunk ≠ [])
    (fits : reader.request.readIdx + chunk.length ≤ readBufferSize) :
    reader.arrive trigMode keeps chunk =
      some ((reader.turn keeps (true, reader.request.receive chunk)).1,
        [(reader.turn keeps (true, reader.request.receive chunk)).2]) := by
  have reads := RequestState.readOnce_of_recvs trigMode some_ fits
  have nothing := (@recvs_of_short trigMode (readBufferSize - reader.request.readIdx) chunk some_
    (by omega)).2
  have event := @Serving.run_of_event trigMode keeps ⟨reader, chunk, []⟩ isOpen some_ _ reads
  rw [arrive, event, Serving.run_of_quiet (.inr nothing)]
  simp only [Option.map_some, List.nil_append]

/-- Nor does it where the buffer is full: `read_once` fails without a `recv` call. -/
theorem arrive_of_noRoom (trigMode : Int) {reader : Reader} {chunk : List UInt8}
    (isOpen : reader.closed = false) (some_ : chunk ≠ [])
    (noRoom : readBufferSize ≤ reader.request.readIdx) :
    reader.arrive trigMode keeps chunk = some ({ reader with closed := true }, [[.closed]]) := by
  have reads := RequestState.readOnce_of_noRoom trigMode
    (recvs trigMode (chunk.length + 1) (readBufferSize - reader.request.readIdx) chunk).1 noRoom
  have event := @Serving.run_of_event trigMode keeps ⟨reader, chunk, []⟩ isOpen some_ _ reads
  rw [arrive, event, Serving.run_of_quiet (.inl rfl)]
  rfl

/-- An arrival that overfills the buffer: the read fails in edge-triggered mode. -/
theorem arrive_of_full_edge {trigMode : Int} (edge : trigMode ≠ 0) {reader : Reader}
    {chunk : List UInt8} (isOpen : reader.closed = false)
    (room : reader.request.readIdx < readBufferSize)
    (full : readBufferSize < reader.request.readIdx + chunk.length) :
    ∃ last : Reader, reader.arrive trigMode keeps chunk = some (last, [[.closed]]) ∧
      last.closed = true := by
  have some_ : chunk ≠ [] := by
    rintro rfl
    simp only [List.length_nil] at full
    omega
  have reads := RequestState.readOnce_of_full trigMode room full
  rw [decide_eq_false edge] at reads
  have event := @Serving.run_of_event trigMode keeps ⟨reader, chunk, []⟩ isOpen some_ _ reads
  refine ⟨(reader.turn keeps (false, reader.request.receive
    (chunk.take (readBufferSize - reader.request.readIdx).toNat))).1, ?_, rfl⟩
  rw [arrive, event, Serving.run_of_quiet (.inl rfl)]
  rfl

/-- In level-triggered mode the full buffer is processed. -/
theorem arrive_of_full_level {reader : Reader} {chunk : List UInt8}
    (isOpen : reader.closed = false) (room : reader.request.readIdx < readBufferSize)
    (full : readBufferSize < reader.request.readIdx + chunk.length) :
    reader.arrive 0 keeps chunk =
      (Loop.run (Serving.pass 0 keeps) Serving.left {
        reader := (reader.turn keeps (true, reader.request.receive
          (chunk.take (readBufferSize - reader.request.readIdx).toNat))).1
        waiting := chunk.drop (readBufferSize - reader.request.readIdx).toNat
        seen := (reader.turn keeps (true, reader.request.receive
          (chunk.take (readBufferSize - reader.request.readIdx).toNat))).2 }).map fun served =>
        (served.reader, [served.seen]) := by
  have some_ : chunk ≠ [] := by
    rintro rfl
    simp only [List.length_nil] at full
    omega
  have reads := RequestState.readOnce_of_full 0 room full
  have event := @Serving.run_of_event 0 keeps ⟨reader, chunk, []⟩ isOpen some_ _ reads
  have left := @recvs_of_full 0 (readBufferSize - reader.request.readIdx) chunk (by omega)
    (by omega)
  rw [arrive, event, left]
  rfl

/-- What the level-triggered mode makes of a full buffer with more bytes waiting: it closes the
connection and calls `do_request` on nothing exactly if the text is bad or no whole request. -/
theorem arrive_of_full_level_iff {reader : Reader} {chunk : List UInt8} (ready : reader.Ready)
    (isOpen : reader.closed = false) (room : reader.request.readIdx < readBufferSize)
    (full : readBufferSize < reader.request.readIdx + chunk.length) :
    ∃ last seen, reader.arrive 0 keeps chunk = some (last, [seen]) ∧
      ((seen = [.closed] ∧ last.closed = true ∧ reader.Spares chunk) ∨
        (seen ≠ [.closed] ∧ ¬reader.Spares chunk)) := by
  have overfills : ¬reader.request.readIdx + chunk.length ≤ readBufferSize := by omega
  have roomLeft : ¬(readBufferSize : Int) ≤ reader.request.readIdx := by omega
  have unasked : reader.request.Unasked := by
    rcases ready with closed | ⟨unasked, _⟩
    · simp [isOpen] at closed
    · exact unasked
  simp only [Spares, isOpen, Bool.false_eq_true, overfills, roomLeft, false_or]
  rw [arrive_of_full_level isOpen room full]
  have filledIdx : (reader.request.receive
      (chunk.take (readBufferSize - reader.request.readIdx).toNat)).readIdx = readBufferSize := by
    simp only [RequestState.receive, List.length_take]
    omega
  have filledUnasked : (reader.request.receive
      (chunk.take (readBufferSize - reader.request.readIdx).toNat)).Unasked := unasked
  have rest : chunk.drop (readBufferSize - reader.request.readIdx).toNat ≠ [] := by
    rw [Ne, List.drop_eq_nil_iff]
    omega
  generalize reader.request.receive
    (chunk.take (readBufferSize - reader.request.readIdx).toNat) = filled
    at filledIdx filledUnasked ⊢
  generalize chunk.drop (readBufferSize - reader.request.readIdx).toNat = waiting at rest ⊢
  cases ended : filled.readOutcome with
  | fault reason next =>
      simp only [turn, ended, if_true]
      rw [Serving.run_of_quiet (.inl rfl)]
      exact ⟨_, _, rfl, .inr ⟨by simp, by simp⟩⟩
  | request asked =>
      simp only [turn, ended, if_true]
      obtain ⟨served, more, ran, seen⟩ := @Serving.run_seen 0 keeps
        ⟨(reader.respond keeps asked).1, waiting, .asked asked :: (reader.respond keeps asked).2⟩
      rw [ran]
      refine ⟨served.reader, served.seen, rfl, .inr ⟨?_, by simp⟩⟩
      rw [seen]
      simp
  | code code next =>
      obtain ⟨_, bad⟩ := RequestState.readOutcome_linger filledUnasked ended
      rcases RequestState.readOutcome_code ended with rfl | rfl
      · -- the next event finds the buffer full
        simp only [turn, ended, if_true]
        have same := RequestState.processRead_readIdx (RequestState.processRead_of_outcome ended)
        have noRoom : (readBufferSize : Int) ≤ next.readIdx := by omega
        have event := @Serving.run_of_event 0 keeps ⟨{ reader with request := next }, waiting, []⟩
          isOpen rest _ (RequestState.readOnce_of_noRoom 0 _ noRoom)
        rw [event, Serving.run_of_quiet (.inl rfl)]
        exact ⟨_, _, rfl, .inl ⟨rfl, rfl, .inr ⟨next, rfl⟩⟩⟩
      · simp only [turn, ended, if_true, respond_of_linger (bad rfl)]
        rw [Serving.run_of_quiet (.inl rfl)]
        exact ⟨_, _, rfl, .inl ⟨rfl, rfl, .inl ⟨next, rfl⟩⟩⟩

/-! ### Runs -/

theorem trace_cons {trigMode : Int} {reader next : Reader} {chunk : List UInt8}
    {seen : List Seen} (arrived : reader.arrive trigMode keeps chunk = some (next, [seen]))
    (arrivals : List (List UInt8)) :
    trace trigMode keeps reader (chunk :: arrivals) =
      (trace trigMode keeps next arrivals).map (seen :: ·) := by
  simp only [trace, run, arrived, Option.map_map]
  rfl

theorem trace_isSome (trigMode : Int) (keeps : Nat → RequestState → Bool) (reader : Reader)
    (arrivals : List (List UInt8)) : (trace trigMode keeps reader arrivals).isSome := by
  induction arrivals generalizing reader with
  | nil => rfl
  | cons chunk arrivals ih =>
      obtain ⟨served, more, ran, _⟩ := @Serving.run_seen trigMode keeps ⟨reader, chunk, []⟩
      have arrived : reader.arrive trigMode keeps chunk = some (served.reader, [served.seen]) := by
        simp only [arrive, ran, Option.map_some]
      rw [trace_cons arrived, Option.isSome_map]
      exact ih served.reader

/-- Nothing more is seen of a closed connection, in either mode. -/
theorem trace_of_closed (trigMode : Int) {reader : Reader} (closed : reader.closed = true)
    (arrivals : List (List UInt8)) :
    trace trigMode keeps reader arrivals = some (List.replicate arrivals.length []) := by
  induction arrivals with
  | nil => rfl
  | cons chunk arrivals ih =>
      rw [trace_cons (arrive_of_quiet trigMode (.inl closed)), ih]
      rfl

theorem meets_of_closed {reader : Reader} (closed : reader.closed = true)
    (arrivals : List (List UInt8)) : RunMeets (arrive 1 keeps) Spares reader arrivals := by
  induction arrivals with
  | nil => trivial
  | cons chunk arrivals ih =>
      rw [runMeets_cons_some (arrive_of_quiet 1 (.inl closed))]
      exact ⟨.inl closed, ih⟩

/-- Where the same is seen of an arrival and the connections are the same behind it, the rest
decides. -/
theorem trace_cons_eq_iff {left right : Reader} {leftNext rightNext : Reader} {chunk : List UInt8}
    {leftSeen rightSeen : List Seen}
    (leftArrived : left.arrive 0 keeps chunk = some (leftNext, [leftSeen]))
    (rightArrived : right.arrive 1 keeps chunk = some (rightNext, [rightSeen]))
    (arrivals : List (List UInt8)) :
    trace 0 keeps left (chunk :: arrivals) = trace 1 keeps right (chunk :: arrivals) ↔
      leftSeen = rightSeen ∧ trace 0 keeps leftNext arrivals =
        trace 1 keeps rightNext arrivals := by
  rw [trace_cons leftArrived, trace_cons rightArrived]
  obtain ⟨leftRest, isLeft⟩ := Option.isSome_iff_exists.mp (trace_isSome 0 keeps leftNext arrivals)
  obtain ⟨rightRest, isRight⟩ :=
    Option.isSome_iff_exists.mp (trace_isSome 1 keeps rightNext arrivals)
  rw [isLeft, isRight]
  simp only [Option.map_some, Option.some.injEq, List.cons.injEq]

theorem Ready.trace_eq_iff {reader : Reader} (ready : reader.Ready) (arrivals : List (List UInt8)) :
    trace 0 keeps reader arrivals = trace 1 keeps reader arrivals ↔
      RunMeets (arrive 1 keeps) Spares reader arrivals := by
  induction arrivals generalizing reader with
  | nil => exact iff_of_true rfl trivial
  | cons chunk arrivals ih =>
      by_cases closed : reader.closed = true
      · refine iff_of_true ?_ (meets_of_closed closed _)
        rw [trace_of_closed 0 closed, trace_of_closed 1 closed]
      rw [Bool.not_eq_true] at closed
      obtain ⟨unasked, nonneg, inside⟩ := ready.resolve_left (by simp [closed])
      by_cases nothing : chunk = []
      · have level := @arrive_of_quiet keeps 0 reader chunk (.inr nothing)
        have edge := @arrive_of_quiet keeps 1 reader chunk (.inr nothing)
        have spares : reader.Spares chunk := by
          refine .inr (.inl ?_)
          rw [nothing, List.length_nil]
          omega
        rw [trace_cons_eq_iff level edge, runMeets_cons_some edge, ih ready]
        exact and_congr_left' (iff_of_true rfl spares)
      by_cases noRoom : (readBufferSize : Int) ≤ reader.request.readIdx
      · have level := @arrive_of_noRoom keeps 0 reader chunk closed nothing noRoom
        have edge := @arrive_of_noRoom keeps 1 reader chunk closed nothing noRoom
        have spares : reader.Spares chunk := .inr (.inr (.inl noRoom))
        rw [trace_cons_eq_iff level edge, runMeets_cons_some edge, ih (.inl rfl)]
        exact and_congr_left' (iff_of_true rfl spares)
      by_cases fits : reader.request.readIdx + chunk.length ≤ readBufferSize
      · have level := @arrive_of_fits keeps 0 reader chunk closed nothing fits
        have edge := @arrive_of_fits keeps 1 reader chunk closed nothing fits
        have nextReady := @turn_ready keeps reader (reader.request.receive chunk) unasked
          (by simp only [RequestState.receive]; omega) fits
        have spares : reader.Spares chunk := .inr (.inl fits)
        rw [trace_cons_eq_iff level edge, runMeets_cons_some edge, ih nextReady]
        exact and_congr_left' (iff_of_true rfl spares)
      · have room : reader.request.readIdx < readBufferSize := by omega
        have full : (readBufferSize : Int) < reader.request.readIdx + chunk.length := by omega
        obtain ⟨edgeNext, edge, edgeClosed⟩ := @arrive_of_full_edge keeps 1 (by decide) reader chunk
          closed room full
        obtain ⟨levelNext, seen, level, outcome⟩ :=
          @arrive_of_full_level_iff keeps reader chunk ready
          closed room full
        rw [trace_cons_eq_iff level edge, runMeets_cons_some edge]
        rcases outcome with ⟨isClosed, levelClosed, spares⟩ | ⟨different, disturbs⟩
        · refine iff_of_true ⟨isClosed, ?_⟩ ⟨spares, meets_of_closed edgeClosed arrivals⟩
          rw [trace_of_closed 0 levelClosed, trace_of_closed 1 edgeClosed]
        · exact iff_of_false (fun same => different same.1) (fun meets => disturbs meets.1)

end Reader

/-- The two modes show the same behind each arrival exactly if none brings more bytes than the read
buffer has room for, or one that does finds it full or leaves no whole request in it, or a bad
one. -/
theorem trace_level_eq_edge_iff (keeps : Nat → RequestState → Bool) (slot : RequestState)
    (arrivals : List (List UInt8)) :
    trace 0 keeps (.opened slot) arrivals = trace 1 keeps (.opened slot) arrivals ↔
      RunMeets (Reader.arrive 1 keeps) Reader.Spares (.opened slot) arrivals :=
  (Reader.opened_ready slot).trace_eq_iff arrivals

/-! ## A request as long as the buffer -/

/-- A request without a body that has a header of some length. -/
def paddedRequest (count : Nat) : List UInt8 :=
  sendLines [ascii "GET /a HTTP/1.1", ascii "X:" ++ List.replicate count 97] ++ crlf

theorem length_paddedRequest (count : Nat) : (paddedRequest count).length = count + 23 := by
  simp [paddedRequest, sendLines, crlf, ascii]

theorem processRead_paddedRequest (slot : RequestState) {count : Nat}
    (fits : count + 23 ≤ readBufferSize) :
    ∃ asked, (slot.init.receive (paddedRequest count)).processRead = some (.request asked) := by
  have clean : RequestState.Clean (ascii "GET /a HTTP/1.1") := by
    unfold RequestState.Clean RequestState.Plain
    decide
  have paddedClean : ∀ header ∈ [ascii "X:" ++ List.replicate count 97],
      RequestState.Clean header ∧ header ≠ [] := by
    intro header member
    rw [List.mem_singleton.mp member]
    refine ⟨fun byte inHeader => ?_, by simp [ascii]⟩
    rcases List.mem_append.mp inHeader with name | value
    · clear inHeader
      revert byte
      unfold RequestState.Plain
      decide
    · rw [List.eq_of_mem_replicate value]
      unfold RequestState.Plain
      decide
  have bodiless :
      headerValues (ascii "Content-length:") [ascii "X:" ++ List.replicate count 97] = [] := by
    rw [headerValues, List.filterMap_cons_none, List.filterMap_nil]
    refine if_neg fun same => ?_
    have letter := strncasecmp_getElem? same (show 0 < (ascii "Content-length:").length by decide)
    rw [List.getElem?_append_left (by decide)] at letter
    revert letter
    decide
  rw [← length_paddedRequest] at fits
  obtain ⟨asked, whole, _⟩ := RequestState.processRead_bodiless slot
    ⟨ascii "GET", [32], [32], ascii "HTTP/1.1", rfl, .inl (by decide), by unfold Gap; decide,
      by unfold Gap; decide, by decide, by decide⟩
    (show HasPath (ascii "/a") from .inl (by decide)) clean paddedClean (by simp [bodiless]) fits
  exact ⟨asked, whole⟩

/-- A request that fills the read buffer and arrives with one byte more is handled in
level-triggered mode only. -/
theorem not_trace_level_eq_edge :
    (paddedRequest 65513).length = readBufferSize ∧
      trace 0 (fun _ _ => true) (.opened HttpConn.blank.toRequestState)
          [paddedRequest 65513 ++ [71]] ≠
        trace 1 (fun _ _ => true) (.opened HttpConn.blank.toRequestState)
          [paddedRequest 65513 ++ [71]] := by
  have length := length_paddedRequest 65513
  obtain ⟨asked, whole⟩ := @processRead_paddedRequest HttpConn.blank.toRequestState 65513
    (by decide)
  generalize paddedRequest 65513 = text at length whole ⊢
  refine ⟨length, ?_⟩
  have longer : (text ++ [71]).length = readBufferSize + 1 := by
    rw [List.length_append, length]
    rfl
  have room : (Reader.opened HttpConn.blank.toRequestState).request.readIdx < readBufferSize :=
    (by decide : (0 : Int) < readBufferSize)
  have full : (readBufferSize : Int) <
      (Reader.opened HttpConn.blank.toRequestState).request.readIdx + (text ++ [71]).length := by
    rw [longer]
    decide
  obtain ⟨edgeNext, edge, _⟩ := @Reader.arrive_of_full_edge (fun _ _ => true) 1 (by decide) _
    (text ++ [71]) rfl room full
  obtain ⟨levelNext, seen, level, outcome⟩ := @Reader.arrive_of_full_level_iff (fun _ _ => true) _
    (text ++ [71]) (Reader.opened_ready HttpConn.blank.toRequestState) rfl room full
  rw [Ne, Reader.trace_cons_eq_iff level edge]
  rintro ⟨same, _⟩
  rcases outcome with ⟨_, _, spares⟩ | ⟨different, _⟩
  · have filled : (text ++ [71]).take (readBufferSize -
        (Reader.opened HttpConn.blank.toRequestState).request.readIdx).toNat = text :=
      List.take_left' length
    have ended :
        (HttpConn.blank.toRequestState.init.receive text).readOutcome = .request asked := by
      simp only [RequestState.readOutcome, whole, Option.get_some]
    simp only [Reader.Spares, filled] at spares
    rcases spares with closed | fits | noRoom | ⟨next, bad⟩ | ⟨next, waits⟩
    · contradiction
    · omega
    · omega
    · cases bad.symm.trans ended
    · cases waits.symm.trans ended
  · exact different same

end TimeGANWebServer.Http
