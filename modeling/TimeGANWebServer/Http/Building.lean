import TimeGANWebServer.Http.Framing
import TimeGANWebServer.Http.KeepAlive

/-!
# All or nothing

`process_write` ignores what most of its `add_*` calls return.  A response is in the write buffer
as a whole all the same if the buffer was empty when it was begun.  `init()` empties the buffer
between two requests, as long as each request is processed once.
-/

namespace TimeGANWebServer.Http

open TimeGANWebServer.Support

/-! ## Pieces -/

/-- What the `add_*` calls for some lines and the blank line behind them add. -/
def headPieces (lines : List (List UInt8)) : List (List UInt8) :=
  lines.map (· ++ crlf) ++ [crlf]

theorem flatten_headPieces (lines : List (List UInt8)) :
    (headPieces lines).flatten = sendLines lines ++ crlf := by
  rw [headPieces, List.flatten_append, List.flatten_singleton, sendLines, List.flatMap_def]

namespace ResponseState

/-- The pieces of the response for a code, in the order of the `add_*` calls. -/
def pieces (response : ResponseState) (linger : Bool) : HttpCode → List (List UInt8)
  | .noResource =>
      headPieces (pageLines 404 (ascii "Not Found") (ascii "404 Not Found").length linger) ++
        [notFoundPage]
  | .internalError =>
      headPieces (pageLines 500 (ascii "Internal Error") (ascii "Internal Error").length linger) ++
        [ascii "Internal Error"]
  | .fileRequest =>
      if response.fileStat.size ≠ 0 then
        headPieces (pageLines 200 (ascii "OK") (toInt32 response.fileStat.size) linger)
      else
        headPieces (pageLines 200 (ascii "OK") emptyFilePage.length linger) ++ [emptyFilePage]
  | .diagnoseRequest =>
      headPieces (jsonLines (toInt32 response.responseJson.length) linger) ++
        [response.responseJson]
  | .diagnoseCsvRequest =>
      headPieces (csvLines (toInt32 response.responseCsv.length) linger)
  | _ => headPieces (pageLines 400 (ascii "Bad Request") 0 linger)

/-! ## Rejected pieces -/

/-- A piece that is rejected changes nothing. -/
theorem addResponse_rejected {response : ResponseState} {text : List UInt8}
    (rejected : (response.addResponse text).1 = false) :
    (response.addResponse text).2 = response := by
  simp only [addResponse] at rejected ⊢
  split at rejected
  case isTrue full => rw [if_pos full]
  case isFalse room =>
      split at rejected
      case isTrue long => rw [if_neg room, if_pos long]
      case isFalse => contradiction

/-- `m_write_idx` is in front of the last byte of the buffer. -/
def Short (response : ResponseState) : Prop :=
  response.writeIdx < writeBufferSize - 1

theorem Short.addResponse {response : ResponseState} (short : response.Short)
    (text : List UInt8) : (response.addResponse text).2.Short := by
  by_cases fits : response.writeIdx + text.length < writeBufferSize - 1
  · rw [addResponse_of_lt fits, Short, writeIdx, writeBuf_append, List.length_append]
    exact fits
  · rw [addResponse_of_le (Nat.le_of_not_lt fits)]
    exact short

theorem Short.addHeaders {response : ResponseState} (short : response.Short) (linger : Bool)
    (contentLen : Int) : (response.addHeaders linger contentLen).2.Short := by
  have first : (response.addContentLength contentLen).2.Short := short.addResponse _
  simp only [ResponseState.addHeaders]
  split
  case h_1 _ next failed => exact failed ▸ first
  case h_2 _ next added =>
      rw [added] at first
      have second : (next.addLinger linger).2.Short := first.addResponse _
      split
      case h_1 _ last failed => exact failed ▸ second
      case h_2 _ last added =>
          rw [added] at second
          exact second.addResponse _

theorem Short.finishPage {response : ResponseState} (short : response.Short)
    (content : List UInt8) : (response.finishPage content).2.Short := by
  have added : (response.addContent content).2.Short := short.addResponse _
  simp only [ResponseState.finishPage]
  split
  case h_1 _ next failed => exact failed ▸ added
  case h_2 _ next fitted =>
      rw [fitted] at added
      exact added

theorem Short.csvHeader {response : ResponseState} (short : response.Short) (linger : Bool) :
    (response.csvHeader linger).Short := by
  simp only [ResponseState.csvHeader, addStatusLine, addContentLength, ResponseState.addLinger,
    addBlankLine]
  iterate 6 apply Short.addResponse
  exact short

theorem Short.addRedirect {response : ResponseState} (short : response.Short)
    (headers : List (List UInt8)) : (response.addRedirect headers).Short := by
  have lines : ∀ (headers : List (List UInt8)) (begun : ResponseState), begun.Short →
      (headers.foldl (fun response header => (ResponseState.addResponse response header).2)
        begun).Short := by
    intro headers
    induction headers with
    | nil => exact fun _ short => short
    | cons header headers ih => exact fun begun short => ih _ (short.addResponse header)
  exact (lines headers _ (short.addResponse _)).addResponse _

theorem Short.queueBody {response : ResponseState} (short : response.Short) (base : IovBase)
    (size : Nat) : (response.queueBody base size).Short :=
  short

/-- Building a response keeps `m_write_idx` there. -/
theorem Short.processWrite {response : ResponseState} (short : response.Short) (linger : Bool)
    (code : HttpCode) : (response.processWrite linger code).2.Short := by
  have status : ∀ status title, (response.addStatusLine status title).2.Short :=
    fun _ _ => short.addResponse _
  cases code
  case fileRequest =>
      simp only [ResponseState.processWrite]
      split
      · exact (status _ _).addHeaders _ _
      · exact ((status _ _).addHeaders _ _).finishPage _
  case noResource | internalError => exact ((status _ _).addHeaders _ _).finishPage _
  case diagnoseRequest =>
      simp only [ResponseState.processWrite, addStatusLine, addContentLength, addContentType,
        ResponseState.addLinger, addBlankLine]
      refine Short.finishPage ?_ _
      iterate 5 apply Short.addResponse
      exact short
  case diagnoseCsvRequest =>
      simp only [ResponseState.processWrite]
      exact (short.csvHeader linger).queueBody _ _
  all_goals
    simp only [ResponseState.processWrite]
    exact (status _ _).addHeaders _ _

/-! ## Complete responses -/

/-- A page that was added behind a head. -/
theorem writeBuf_finishPage {response ready : ResponseState} {lines : List (List UInt8)}
    {content : List UInt8} (noNul : (0 : UInt8) ∉ content)
    (finished : (response.append (sendLines lines ++ crlf)).finishPage content = (true, ready)) :
    ready.writeBuf = response.writeBuf ++ (headPieces lines ++ [content]).flatten := by
  have whole := untilNul_of_notMem noNul
  obtain ⟨rfl, _⟩ := finishPage_cases finished
  rw [List.flatten_append, flatten_headPieces, List.flatten_singleton]
  simp only [queueBuffer, writeBuf_append, whole, List.append_assoc]

/-- Where there is room, all pieces are added behind what the buffer holds. -/
theorem writeBuf_processWrite {response ready : ResponseState} {linger : Bool} {code : HttpCode}
    (room : response.writeIdx < 60000)
    (noNul : code = .diagnoseRequest → (0 : UInt8) ∉ response.responseJson)
    (written : response.processWrite linger code = (true, ready)) :
    ready.writeBuf = response.writeBuf ++ (response.pieces linger code).flatten := by
  have head : ∀ {status : Nat} {title : List UInt8} {contentLen : Int}, status < 1000 →
      title.length < 100 → -2 ^ 31 ≤ contentLen → contentLen < 2 ^ 31 →
        ((response.addStatusLine status title).2.addHeaders linger contentLen).2 =
          response.append (sendLines (pageLines status title contentLen linger) ++ crlf) := by
    intro status title contentLen high short low shortLength
    exact congrArg Prod.snd (append_head linger high low shortLength (by omega))
  cases code
  case noResource =>
      have begun := @head 404 (ascii "Not Found") (ascii "404 Not Found").length (by decide)
        (by decide) (by decide) (by decide)
      exact writeBuf_finishPage (by decide) (begun ▸ written)
  case internalError =>
      have begun := @head 500 (ascii "Internal Error") (ascii "Internal Error").length (by decide)
        (by decide) (by decide) (by decide)
      exact writeBuf_finishPage (by decide) (begun ▸ written)
  case fileRequest =>
      have bounds := toInt32_bounds response.fileStat.size
      rw [processWrite_fileRequest] at written
      by_cases nonempty : response.fileStat.size ≠ 0
      · simp only [if_pos nonempty] at written
        rw [← (Prod.mk.inj written).2, pieces, if_pos nonempty, flatten_headPieces]
        exact congrArg writeBuf (@head 200 (ascii "OK") _ (by decide) (by decide) bounds.1 bounds.2)
      · simp only [if_neg nonempty] at written
        have begun := @head 200 (ascii "OK") emptyFilePage.length (by decide)
          (by decide) (by decide) (by decide)
        rw [pieces, if_neg nonempty]
        exact writeBuf_finishPage (by decide) (begun ▸ written)
  case diagnoseRequest =>
      rw [processWrite_diagnose_of_lt room] at written
      exact writeBuf_finishPage (noNul rfl) written
  case diagnoseCsvRequest =>
      simp only [processWrite, csvHeader_of_lt room] at written
      rw [← (Prod.mk.inj written).2, pieces, flatten_headPieces]
      rfl
  all_goals
    have begun := @head 400 (ascii "Bad Request") 0 (by decide) (by decide) (by decide) (by decide)
    rw [← (Prod.mk.inj written).2]
    simp only [pieces, flatten_headPieces]
    exact congrArg writeBuf begun

end ResponseState

/-! ## Histories of a slot -/

/-- A call of `process_write`. -/
structure WriteCall where
  response : ResponseState
  linger : Bool
  code : HttpCode

/-- What the call returns, and what it leaves. -/
def WriteCall.outcome (call : WriteCall) : Bool × ResponseState :=
  call.response.processWrite call.linger call.code

/-- If it returns true, the write buffer holds all pieces of the response and nothing else. -/
def WriteCall.Complete (call : WriteCall) : Prop :=
  call.outcome.1 = true →
    call.outcome.2.writeBuf = (call.response.pieces call.linger call.code).flatten

namespace HttpConn

/-- The calls of `process_write` in an event of a slot. -/
def writeCallsIn (conn : HttpConn) : SlotEvent → List WriteCall
  | .process env mysql =>
      match HttpConn.processRead { conn with mysql := mysql } env with
      | .error _ => []
      | .ok reply =>
          if reply.code = .noRequest then []
          else [⟨reply.conn.toResponseState, reply.conn.linger, reply.code⟩]
  | _ => []

/-- One event of a slot, with the calls of `process_write` in it. -/
def buildStep (root : List UInt8) (conn : HttpConn) (event : SlotEvent) :
    Option (HttpConn × List WriteCall) :=
  (conn.step root event).map fun next => (next.1, conn.writeCallsIn event)

/-- A response is begun, other than behind a redirect, when `m_write_idx` is 0. -/
def BeginsEmpty (conn : HttpConn) (event : SlotEvent) : Prop :=
  ∀ call ∈ conn.writeCallsIn event, call.code ≠ .redirectRequest → conn.writeBuf = []

/-- What `process_write` finds in the slot. -/
theorem processRead_building {conn : HttpConn} {env : Env} {reply : Reply}
    (read : conn.processRead env = .ok reply) :
    (conn.Short → reply.conn.Short) ∧
      (reply.code ≠ .redirectRequest → reply.conn.writeBuf = conn.writeBuf) ∧
        (reply.code = .diagnoseRequest → (0 : UInt8) ∉ reply.conn.responseJson) := by
  simp only [processRead] at read
  split at read
  case _ ret request ended =>
      cases read
      refine ⟨id, fun _ => rfl, fun diagnosis => ?_⟩
      have code : ret = .diagnoseRequest := diagnosis
      rcases RequestState.readOutcome_code ended with same | same <;> rw [same] at code <;>
        contradiction
  case _ request ended =>
      rcases doRequest_cases read with ⟨_, redirect⟩ | ⟨_, page⟩
      · obtain ⟨headers, _, response⟩ := redirect.response
        refine ⟨fun short => ?_, fun other => absurd redirect.code other, fun diagnosis => ?_⟩
        · rw [response]
          exact ResponseState.Short.addRedirect short headers
        · rw [redirect.code] at diagnosis
          contradiction
      · refine ⟨fun short => ?_, fun _ => page.writeBuf, page.json⟩
        rw [ResponseState.Short, ResponseState.writeIdx, page.writeBuf]
        exact short
  · contradiction

theorem closeConn_response (conn : HttpConn) :
    conn.closeConn.1.toResponseState = conn.toResponseState := by
  simp only [closeConn]
  split <;> rfl

/-- `process` keeps `m_write_idx` in front of the last byte. -/
theorem process_short {conn : HttpConn} {env : Env} {processed : Processed} (short : conn.Short)
    (done : conn.process env = .ok processed) : processed.conn.Short := by
  simp only [process] at done
  split at done
  · contradiction
  case _ reply read =>
      have begun := (processRead_building read).1 short
      have built := begun.processWrite reply.conn.linger reply.code
      split at done
      · cases done
        exact begun
      · cases done
        simp only []
        split
        · exact built
        · rw [closeConn_response]
          exact built

theorem sendLoop_writeBuf {response : ResponseState} {results : List WritevResult}
    {loop : SendLoop} (looped : response.sendLoop results = some loop) :
    loop.response.writeIdx = response.writeIdx := by
  have course := ResponseState.sends_of_sendLoop looped
  clear looped
  induction course with
  | again | failed => rfl
  | @last response count => exact response.writeIdx_advance count
  | @next response count _ _ _ _ _ ih => exact ih.trans (response.writeIdx_advance count)

/-- `write` keeps `m_write_idx`, or sets it to 0. -/
theorem write_short {conn : HttpConn} {results : List WritevResult} {outcome : WriteOutcome}
    (short : conn.Short) (written : conn.write results = some outcome) : outcome.conn.Short := by
  have emptied : ∀ conn : HttpConn, conn.init.Short :=
    fun _ => (by decide : 0 < writeBufferSize - 1)
  simp only [write] at written
  split at written
  · cases written
    exact emptied conn
  · obtain ⟨loop, looped, rfl⟩ := Option.map_eq_some_iff.mp written
    have kept : loop.response.Short := by
      rw [ResponseState.Short, sendLoop_writeBuf looped]
      exact short
    obtain ⟨ended, response, writevs⟩ := loop
    cases ended with
    | idle | again | failed => exact kept
    | complete =>
        simp only []
        split
        · exact emptied _
        · exact kept

/-- One event keeps `m_write_idx` in front of the last byte. -/
theorem step_short {root : List UInt8} {conn next : HttpConn} {event : SlotEvent}
    {sessions : List SessionCall} (short : conn.Short)
    (stepped : conn.step root event = some (next, sessions)) : next.Short := by
  cases event with
  | connect sockfd trigMode =>
      cases stepped
      exact (by decide : 0 < writeBufferSize - 1)
  | read results =>
      obtain ⟨read, _, same⟩ := Option.map_eq_some_iff.mp stepped
      cases same
      exact short
  | process env mysql =>
      simp only [step] at stepped
      split at stepped
      · contradiction
      case _ processed done =>
          cases stepped
          exact @process_short { conn with mysql := mysql } env processed short done
  | write results =>
      obtain ⟨outcome, written, same⟩ := Option.map_eq_some_iff.mp stepped
      cases same
      exact write_short short written
  | close =>
      cases stepped
      rw [closeConn_response]
      exact short

/-- A response of any code that is begun in an empty buffer is complete. -/
theorem complete_of_empty {call : WriteCall} (empty : call.response.writeBuf = [])
    (noNul : call.code = .diagnoseRequest → (0 : UInt8) ∉ call.response.responseJson) :
    call.Complete := by
  intro written
  have room : call.response.writeIdx < 60000 := by
    rw [ResponseState.writeIdx, empty]
    decide
  have pieces := ResponseState.writeBuf_processWrite room noNul (Prod.ext written rfl)
  rwa [empty, List.nil_append] at pieces

/-- So it is in an event of a slot. -/
theorem complete_of_beginsEmpty {conn : HttpConn} {event : SlotEvent}
    (begins : conn.BeginsEmpty event) :
    ∀ call ∈ conn.writeCallsIn event, call.code ≠ .redirectRequest → call.Complete := by
  intro call member other
  have empty := begins call member other
  cases event with
  | connect | read | write | close => exact absurd member List.not_mem_nil
  | process env mysql =>
      simp only [writeCallsIn] at member
      split at member
      · exact absurd member List.not_mem_nil
      case _ reply read =>
          split at member
          · exact absurd member List.not_mem_nil
          · obtain rfl := List.mem_singleton.mp member
            obtain ⟨_, same, noNul⟩ := processRead_building read
            exact complete_of_empty ((same other).trans empty) noNul

/-- One event of a history. -/
theorem buildStep_cases {root : List UInt8} {conn next : HttpConn} {event : SlotEvent}
    {calls : List WriteCall} (stepped : conn.buildStep root event = some (next, calls)) :
    (∃ sessions, conn.step root event = some (next, sessions)) ∧
      calls = conn.writeCallsIn event := by
  obtain ⟨⟨after, sessions⟩, taken, same⟩ := Option.map_eq_some_iff.mp stepped
  cases same
  exact ⟨⟨sessions, taken⟩, rfl⟩

/-! ## All or nothing -/

/-- After every history of a slot `m_write_idx` is in front of the last byte of the buffer, and a
piece that is rejected leaves it.  What is begun in an empty buffer is built as a whole or given
up, for every code; so is every response of a history that begins them so. -/
theorem allOrNothing {root : List UInt8} {slot last : HttpConn} {sockfd trigMode : Int}
    {history : List SlotEvent} {calls : List WriteCall}
    (ran : run (buildStep root) (slot.initFor sockfd root trigMode) history = some (last, calls)) :
    last.writeIdx < writeBufferSize - 1 ∧
      (∀ (response : ResponseState) (text : List UInt8),
        (response.addResponse text).1 = false → (response.addResponse text).2 = response) ∧
      (∀ call : WriteCall, call.response.writeBuf = [] →
        (call.code = .diagnoseRequest → (0 : UInt8) ∉ call.response.responseJson) →
          call.Complete) ∧
      (RunMeets (buildStep root) BeginsEmpty (slot.initFor sockfd root trigMode) history →
        ∀ call ∈ calls, call.code ≠ .redirectRequest → call.Complete) := by
  have begun : (slot.initFor sockfd root trigMode).Short :=
    (by decide : 0 < writeBufferSize - 1)
  refine ⟨?_, fun _ _ => ResponseState.addResponse_rejected, fun _ => complete_of_empty, ?_⟩
  · have keeps : ∀ (conn : HttpConn) (event : SlotEvent) (next : HttpConn) (made : List WriteCall),
        conn.Short → conn.buildStep root event = some (next, made) → next.Short := by
      intro conn event next made short stepped
      obtain ⟨⟨sessions, stepped⟩, _⟩ := buildStep_cases stepped
      exact step_short short stepped
    exact run_state_always (fun conn => conn.Short) keeps begun ran
  · intro begins
    have keeps : ∀ (conn : HttpConn) (before : List WriteCall) (event : SlotEvent)
        (next : HttpConn) (made : List WriteCall),
        (∀ call ∈ before, call.code ≠ .redirectRequest → call.Complete) →
          conn.BeginsEmpty event → conn.buildStep root event = some (next, made) →
            ∀ call ∈ before ++ made, call.code ≠ .redirectRequest → call.Complete := by
      intro conn before event next made complete empty stepped
      obtain ⟨_, rfl⟩ := buildStep_cases stepped
      exact List.forall_mem_append.mpr ⟨complete, complete_of_beginsEmpty empty⟩
    exact run_invariant _ keeps (List.forall_mem_nil _) begins ran

instance decidableBeginsEmpty (conn : HttpConn) (event : SlotEvent) :
    Decidable (conn.BeginsEmpty event) :=
  inferInstanceAs (Decidable (∀ call ∈ _, _ → _))

/-- A page is requested twice on one connection, and each response is complete. -/
theorem allOrNothing_twice : ∃ last calls,
    run (buildStep (ascii "/root")) (HttpConn.blank.initFor 7 (ascii "/root") 0)
        [.read [.data (ascii "GET /a HTTP/1.1\r\nConnection: keep-alive\r\n\r\n")],
          .process Env.blank none, .write [.accepted 112],
          .read [.data (ascii "GET /b HTTP/1.1\r\n\r\n")], .process Env.blank none] =
          some (last, calls) ∧
      ∀ call ∈ calls, call.code ≠ .redirectRequest → call.Complete := by
  have facts : (run (buildStep (ascii "/root")) (HttpConn.blank.initFor 7 (ascii "/root") 0)
      [.read [.data (ascii "GET /a HTTP/1.1\r\nConnection: keep-alive\r\n\r\n")],
        .process Env.blank none, .write [.accepted 112],
        .read [.data (ascii "GET /b HTTP/1.1\r\n\r\n")], .process Env.blank none]).isSome := by
    decide +kernel
  obtain ⟨⟨last, calls⟩, ran⟩ := Option.isSome_iff_exists.mp facts
  exact ⟨last, calls, ran, (allOrNothing ran).2.2.2 (by decide +kernel)⟩

/-- A request of one connection is left in the queue when the timer closes the connection.  A
worker takes it when the next connection on the slot has sent its request, and another one takes
that connection's own request, of which a line is left. -/
def leftover : List SlotEvent :=
  [.read [.data (ascii "GET /a HTTP/1.1\r\n\r\n")], .close, .connect 7 0,
    .read [.data (ascii "GET /b HTTP/1.1\r\n\r\n\r\n")], .process Env.blank none,
    .process Env.blank none]

/-- The second response is behind the first one in the buffer. -/
theorem not_allOrNothing : ¬∀ (root : List UInt8) (slot last : HttpConn) (sockfd trigMode : Int)
    (history : List SlotEvent) (calls : List WriteCall),
    run (buildStep root) (slot.initFor sockfd root trigMode) history = some (last, calls) →
      ∀ call ∈ calls, call.code ≠ .redirectRequest → call.Complete := by
  intro claim
  have facts : ((run (buildStep (ascii "/root")) (HttpConn.blank.initFor 7 (ascii "/root") 0)
      leftover).bind fun ran => ran.2[1]?.map fun call =>
        (call.code, call.outcome.1, decide (call.outcome.2.writeBuf =
          (call.response.pieces call.linger call.code).flatten))) =
      some (.noResource, true, false) := by
    decide +kernel
  obtain ⟨⟨last, calls⟩, ran, found⟩ := Option.bind_eq_some_iff.mp facts
  obtain ⟨call, second, same⟩ := Option.map_eq_some_iff.mp found
  simp only [Prod.mk.injEq, decide_eq_false_iff_not] at same
  obtain ⟨code, written, incomplete⟩ := same
  have other : call.code ≠ .redirectRequest := by
    rw [code]
    exact HttpCode.noConfusion
  exact incomplete (claim _ _ last 7 0 leftover calls ran call (List.mem_of_getElem? second) other
    written)

end HttpConn

/-! ## A connection in its own order -/

namespace Connection

/-- `m_write_idx` is 0 while a connection waits for a request or for a worker. -/
def WaitsEmpty (connection : Connection) : Prop :=
  connection.stage = .reading ∨ connection.stage = .queued → connection.conn.writeBuf = []

theorem waitsEmpty_of_armed {connection : Connection}
    (armed : connection.stage = .writing ∨ connection.stage = .closed) : connection.WaitsEmpty := by
  rintro (waiting | waiting) <;> rcases armed with armed | armed <;> rw [waiting] at armed <;>
    contradiction

/-- One event keeps that: a response is built only in the step to writing, and `init()` empties
the buffer when it has been sent. -/
theorem step_waitsEmpty {connection next : Connection} {event : ConnectionEvent}
    {calls : List HttpConn} (waits : connection.WaitsEmpty)
    (stepped : connection.step event = some (next, calls)) : next.WaitsEmpty := by
  obtain ⟨conn, stage⟩ := connection
  cases stage with
  | closed =>
      cases stepped
      exact waits
  | reading =>
      cases event with
      | process | write => contradiction
      | read results =>
          obtain ⟨read, _, same⟩ := Option.map_eq_some_iff.mp stepped
          cases same
          exact fun _ => waits (.inl rfl)
  | queued =>
      cases event with
      | read | write => contradiction
      | process env mysql =>
          simp only [step] at stepped
          split at stepped
          · contradiction
          case _ processed done =>
              cases stepped
              rcases HttpConn.process_served done with ⟨_, same, _, _⟩ | ⟨_, armed, _⟩ |
                ⟨_, _, armed, _⟩
              · intro _
                simp only [same]
                exact waits (.inr rfl)
              · exact waitsEmpty_of_armed armed
              · exact waitsEmpty_of_armed armed
  | writing =>
      cases event with
      | read | process => contradiction
      | write results =>
          obtain ⟨outcome, written, same⟩ := Option.map_eq_some_iff.mp stepped
          cases same
          simp only [HttpConn.write] at written
          split at written
          · cases written
            exact fun _ => rfl
          · obtain ⟨loop, _, rfl⟩ := Option.map_eq_some_iff.mp written
            obtain ⟨ended, response, writevs⟩ := loop
            cases ended with
            | again => exact waitsEmpty_of_armed (.inl rfl)
            | idle | failed => exact waitsEmpty_of_armed (.inr rfl)
            | complete =>
                cases linger : conn.linger with
                | true => exact fun _ => by simp only [if_true]; rfl
                | false => exact waitsEmpty_of_armed (.inr rfl)

/-- On a connection whose events come in turn, every request is processed with an empty buffer. -/
theorem waitsEmpty_of_run {slot : HttpConn} {sockfd : Int} {root : List UInt8} {trigMode : Int}
    {events : List ConnectionEvent} {last : Connection} {calls : List HttpConn}
    (ran : run step (opened slot sockfd root trigMode) events = some (last, calls)) :
    last.WaitsEmpty := by
  have opens : (opened slot sockfd root trigMode).WaitsEmpty := fun _ => rfl
  exact run_state_always WaitsEmpty (fun _ _ _ _ waits stepped => step_waitsEmpty waits stepped)
    opens ran

end Connection

end TimeGANWebServer.Http
