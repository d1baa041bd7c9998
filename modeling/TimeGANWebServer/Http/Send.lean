import TimeGANWebServer.Http.Response

/-!
# Sending a response

`http_conn::write` and `http_conn::unmap` in `http/http_conn.cpp`.  A call is given
the results of its `writev` calls; it reports the calls it makes on descriptors and
what each `writev` was offered.
-/

namespace TimeGANWebServer.Http

open TimeGANWebServer.Support

/-- The outcome of one `writev`: some bytes accepted, `EAGAIN`, or another error. -/
inductive WritevResult where
  | accepted (count : Nat)
  | again
  | failed
  deriving DecidableEq, Repr

/-- One `writev`: the bytes its vectors denote, with `none` for a byte outside of the
array or mapping they point into, and how many of them were accepted. -/
structure Writev where
  offered : List (Option UInt8)
  accepted : Nat

/-- How a call of `write` ends: nothing to send, everything sent, `EAGAIN`, or an
error. -/
inductive WriteEnd where
  | idle | complete | again | failed
  deriving DecidableEq, Repr

/-- The byte at an index, if it lies inside. -/
def byteOf (bytes : List UInt8) (index : Int) : Option UInt8 :=
  if 0 ≤ index then bytes[index.toNat]? else none

namespace ResponseState

/-- The byte at an index behind the base of a vector. -/
def byteAt (response : ResponseState) (base : IovBase) (index : Nat) : Option UInt8 :=
  match base with
  | .writeBuf offset => byteOf response.writeBuf (offset + index)
  | .file (.mapped _ bytes) offset => byteOf bytes (offset + index)
  | .file _ _ => none
  | .csv offset => byteOf response.responseCsv (offset + index)

/-- The bytes a vector denotes. -/
def gather (response : ResponseState) (iovec : Iovec) : List (Option UInt8) :=
  (List.range iovec.len).map (response.byteAt iovec.base)

/-- The bytes `writev` is offered: those of `m_iv[0..m_iv_count)`. -/
def offered (response : ResponseState) : List (Option UInt8) :=
  ([response.iv0, response.iv1].take response.ivCount).flatMap response.gather

/-- The loop body of `write` after `writev` accepted some bytes, up to the test for
completion.  The length of `m_iv[0]` is compared with the count of all bytes sent so
far, and this count is subtracted from it. -/
def advance (response : ResponseState) (count : Nat) : ResponseState :=
  let haveSend := response.bytesHaveSend + count
  let toSend := response.bytesToSend - count
  if response.iv0.len ≤ toSizeT haveSend then
    { response with
      bytesHaveSend := haveSend
      bytesToSend := toSend
      iv0 := { response.iv0 with len := 0 }
      iv1 := {
        base := .file response.fileAddress (haveSend - response.writeIdx)
        len := toSizeT toSend } }
  else
    { response with
      bytesHaveSend := haveSend
      bytesToSend := toSend
      iv0 := { base := .writeBuf haveSend, len := toSizeT (response.iv0.len - haveSend) } }

@[simp] theorem writeIdx_advance (response : ResponseState) (count : Nat) :
    (response.advance count).writeIdx = response.writeIdx := by
  simp only [advance]
  split <;> rfl

@[simp] theorem ivCount_advance (response : ResponseState) (count : Nat) :
    (response.advance count).ivCount = response.ivCount := by
  simp only [advance]
  split <;> rfl

theorem bytesToSend_advance (response : ResponseState) (count : Nat) :
    (response.advance count).bytesToSend = response.bytesToSend - count := by
  simp only [advance]
  split <;> rfl

@[simp] theorem fileAddress_advance (response : ResponseState) (count : Nat) :
    (response.advance count).fileAddress = response.fileAddress := by
  simp only [advance]
  split <;> rfl

@[simp] theorem fileStat_advance (response : ResponseState) (count : Nat) :
    (response.advance count).fileStat = response.fileStat := by
  simp only [advance]
  split <;> rfl

/-- `http_conn::unmap`. -/
def unmap (response : ResponseState) : ResponseState :=
  { response with fileAddress := .null }

/-- `writev` can accept this many bytes. -/
def Accepts (response : ResponseState) (count : Nat) : Prop :=
  1 ≤ count ∧ count ≤ response.offered.length

instance (response : ResponseState) (count : Nat) : Decidable (response.Accepts count) :=
  inferInstanceAs (Decidable (_ ∧ _))

end ResponseState

/-- The loop of `write` at its end. -/
structure SendLoop where
  ended : WriteEnd
  response : ResponseState
  writevs : List Writev

namespace ResponseState

/-- The loop of `write` over the results of its `writev` calls.  `none` when they are
not results these calls can have. -/
def sendLoop (response : ResponseState) : List WritevResult → Option SendLoop
  | [.again] => some ⟨.again, response, [⟨response.offered, 0⟩]⟩
  | [.failed] => some ⟨.failed, response.unmap, [⟨response.offered, 0⟩]⟩
  | .accepted count :: results =>
      if response.Accepts count then
        let next := response.advance count
        if next.bytesToSend ≤ 0 then
          if results = [] then
            some ⟨.complete, next.unmap, [⟨response.offered, count⟩]⟩
          else
            none
        else
          (next.sendLoop results).map fun rest =>
            { rest with writevs := ⟨response.offered, count⟩ :: rest.writevs }
      else
        none
  | _ => none

end ResponseState

/-- The course of the loop of `write`: what each result of a `writev` leads to. -/
inductive ResponseState.Sends : ResponseState → List WritevResult → SendLoop → Prop where
  | again (response : ResponseState) :
      Sends response [.again] ⟨.again, response, [⟨response.offered, 0⟩]⟩
  | failed (response : ResponseState) :
      Sends response [.failed] ⟨.failed, response.unmap, [⟨response.offered, 0⟩]⟩
  | last {response : ResponseState} {count : Nat} (accepts : response.Accepts count)
      (finished : (response.advance count).bytesToSend ≤ 0) :
      Sends response [.accepted count]
        ⟨.complete, (response.advance count).unmap, [⟨response.offered, count⟩]⟩
  | next {response : ResponseState} {count : Nat} {results : List WritevResult} {rest : SendLoop}
      (accepts : response.Accepts count) (unfinished : ¬(response.advance count).bytesToSend ≤ 0)
      (later : Sends (response.advance count) results rest) :
      Sends response (.accepted count :: results)
        { rest with writevs := ⟨response.offered, count⟩ :: rest.writevs }

namespace ResponseState

/-- The loop needs the result of a `writev`. -/
theorem sendLoop_nil (response : ResponseState) : response.sendLoop [] = none := by
  simp [sendLoop]

theorem sends_of_sendLoop {response : ResponseState} {results : List WritevResult}
    {loop : SendLoop} (looped : response.sendLoop results = some loop) :
    response.Sends results loop := by
  induction results generalizing response loop with
  | nil =>
      rw [sendLoop_nil] at looped
      contradiction
  | cons result results ih =>
      cases result with
      | again =>
          cases results with
          | nil =>
              cases looped
              exact .again response
          | cons => simp [sendLoop] at looped
      | failed =>
          cases results with
          | nil =>
              cases looped
              exact .failed response
          | cons => simp [sendLoop] at looped
      | accepted count =>
          simp only [sendLoop] at looped
          split at looped
          case isFalse => contradiction
          case isTrue accepts =>
              split at looped
              case isTrue finished =>
                  split at looped
                  case isFalse => contradiction
                  case isTrue last =>
                      subst last
                      cases looped
                      exact .last accepts finished
              case isFalse unfinished =>
                  obtain ⟨rest, later, rfl⟩ := Option.map_eq_some_iff.mp looped
                  exact .next accepts unfinished (ih later)

theorem Sends.ne_nil {response : ResponseState} {results : List WritevResult} {loop : SendLoop}
    (course : response.Sends results loop) : results ≠ [] := by
  rintro rfl
  cases course

end ResponseState

/-- What a call of `write` does: its return value, the slot, the calls on descriptors
and the `writev` calls it made. -/
structure WriteOutcome where
  ret : Bool
  ended : WriteEnd
  conn : HttpConn
  fdCalls : List FdCall
  writevs : List Writev

namespace HttpConn

/-- `http_conn::write`. -/
def write (conn : HttpConn) (results : List WritevResult) : Option WriteOutcome :=
  if conn.bytesToSend = 0 then
    some {
      ret := true
      ended := .idle
      conn := conn.init
      fdCalls := [.modfd conn.sockfd .epollin]
      writevs := [] }
  else
    (conn.sendLoop results).map fun loop =>
      let sent := { conn with toResponseState := loop.response }
      match loop.ended with
      | .again => {
          ret := true
          ended := .again
          conn := sent
          fdCalls := [.modfd conn.sockfd .epollout]
          writevs := loop.writevs }
      | .complete => {
          ret := conn.linger
          ended := .complete
          conn := if conn.linger then sent.init else sent
          fdCalls := [.modfd conn.sockfd .epollin]
          writevs := loop.writevs }
      | _ => {
          ret := false
          ended := .failed
          conn := sent
          fdCalls := []
          writevs := loop.writevs }

/-- A call of `write` arms the descriptor again, unless it fails. -/
theorem write_cases {conn : HttpConn} {results : List WritevResult} {outcome : WriteOutcome}
    (written : conn.write results = some outcome) :
    outcome.conn.sockfd = conn.sockfd ∧
      (outcome.conn.state = conn.state ∨ outcome.conn.state = 0) ∧
      ((∃ interest, outcome.fdCalls = [.modfd conn.sockfd interest]) ∨
        outcome.ret = false ∧ outcome.fdCalls = []) := by
  simp only [write] at written
  split at written
  · cases written
    exact ⟨rfl, .inr rfl, .inl ⟨_, rfl⟩⟩
  · obtain ⟨loop, _, rfl⟩ := Option.map_eq_some_iff.mp written
    obtain ⟨ended, response, writevs⟩ := loop
    cases ended with
    | idle => exact ⟨rfl, .inl rfl, .inr ⟨rfl, rfl⟩⟩
    | complete =>
        cases linger : conn.linger with
        | true => exact ⟨by simp [HttpConn.init], by simp [HttpConn.init], .inl ⟨_, rfl⟩⟩
        | false => exact ⟨by simp, by simp, .inl ⟨_, rfl⟩⟩
    | again => exact ⟨rfl, .inl rfl, .inl ⟨_, rfl⟩⟩
    | failed => exact ⟨rfl, .inl rfl, .inr ⟨rfl, rfl⟩⟩

end HttpConn

/-! ## Transfers -/

/-- What successive calls of `write` did for one response. -/
structure Transfer where
  complete : Bool
  writevs : List Writev

/-- The transfer that begins with some more `writev` calls. -/
def Transfer.after (transfer : Transfer) (writevs : List Writev) : Transfer :=
  { transfer with writevs := writevs ++ transfer.writevs }

/-- Successive calls of `write` for one response: each but the last ends with
`EAGAIN`, and the last one with `EAGAIN` or with everything sent. -/
def HttpConn.writeCalls (conn : HttpConn) : List (List WritevResult) → Option Transfer
  | [] => some ⟨false, []⟩
  | results :: calls =>
      (conn.write results).bind fun outcome =>
        match outcome.ended with
        | .again => (outcome.conn.writeCalls calls).map (·.after outcome.writevs)
        | .complete => if calls = [] then some ⟨true, outcome.writevs⟩ else none
        | _ => none

/-- The same seen from the vectors alone: `EAGAIN` changes nothing, whichever call
makes the next attempt. -/
def ResponseState.transfer (response : ResponseState) : List WritevResult → Option Transfer
  | [] => some ⟨false, []⟩
  | .again :: results => (response.transfer results).map (·.after [⟨response.offered, 0⟩])
  | .accepted count :: results =>
      if response.Accepts count then
        let next := response.advance count
        if next.bytesToSend ≤ 0 then
          if results = [] then some ⟨true, [⟨response.offered, count⟩]⟩ else none
        else if results = [] then
          none
        else
          (next.transfer results).map (·.after [⟨response.offered, count⟩])
      else
        none
  | .failed :: _ => none

namespace ResponseState

/-- What the loop did up to `EAGAIN` begins the transfer, and some bytes are left. -/
theorem transfer_of_again {response next : ResponseState} {writevs : List Writev}
    {results : List WritevResult} (more : List WritevResult) (toSend : 0 < response.bytesToSend)
    (looped : response.sendLoop results = some ⟨.again, next, writevs⟩) :
    response.transfer (results ++ more) = (next.transfer more).map (·.after writevs) ∧
      0 < next.bytesToSend := by
  generalize made : (⟨.again, next, writevs⟩ : SendLoop) = loop at looped
  have course := sends_of_sendLoop looped
  clear looped
  induction course generalizing writevs with
  | again =>
      cases made
      exact ⟨rfl, toSend⟩
  | failed => cases made
  | last => cases made
  | @next response count results rest accepts unfinished later ih =>
      obtain ⟨ended, following, restWritevs⟩ := rest
      cases made
      obtain ⟨transferred, left⟩ := ih (by omega) rfl
      have further : results ++ more ≠ [] :=
        fun empty => later.ne_nil (List.append_eq_nil_iff.mp empty).1
      refine ⟨?_, left⟩
      simp only [List.cons_append, transfer, accepts, unfinished, further, if_true,
        if_false, transferred, Option.map_map]
      rfl

/-- What the loop did until everything was sent is the whole transfer. -/
theorem transfer_of_complete {response next : ResponseState} {writevs : List Writev}
    {results : List WritevResult}
    (looped : response.sendLoop results = some ⟨.complete, next, writevs⟩) :
    response.transfer results = some ⟨true, writevs⟩ := by
  generalize made : (⟨.complete, next, writevs⟩ : SendLoop) = loop at looped
  have course := sends_of_sendLoop looped
  clear looped
  induction course generalizing writevs with
  | again => cases made
  | failed => cases made
  | last accepts finished =>
      cases made
      simp only [transfer, accepts, finished, if_true]
  | @next response count results rest accepts unfinished later ih =>
      obtain ⟨ended, following, restWritevs⟩ := rest
      cases made
      simp only [transfer, accepts, unfinished, later.ne_nil, if_true, if_false, ih rfl]
      rfl

end ResponseState

/-- Successive calls of `write` transfer what the vectors alone determine. -/
theorem HttpConn.transfer_of_writeCalls {conn : HttpConn} {calls : List (List WritevResult)}
    {transfer : Transfer} (toSend : 0 < conn.bytesToSend)
    (called : conn.writeCalls calls = some transfer) :
    conn.toResponseState.transfer calls.flatten = some transfer := by
  induction calls generalizing conn transfer with
  | nil => exact called
  | cons results calls ih =>
      have sending : conn.bytesToSend ≠ 0 := by omega
      simp only [writeCalls, write, if_neg sending] at called
      cases looped : conn.sendLoop results with
      | none => simp [looped] at called
      | some loop =>
          obtain ⟨ended, next, writevs⟩ := loop
          rw [List.flatten_cons]
          cases ended with
          | idle => simp [looped] at called
          | failed => simp [looped] at called
          | again =>
              simp only [looped, Option.map_some, Option.bind_some, Option.map_eq_some_iff]
                at called
              obtain ⟨rest, called, rfl⟩ := called
              obtain ⟨transferred, left⟩ :=
                ResponseState.transfer_of_again calls.flatten toSend looped
              rw [transferred, ih left called]
              rfl
          | complete =>
              simp only [looped, Option.map_some, Option.bind_some] at called
              split at called
              case isTrue last =>
                  cases called
                  subst last
                  rw [List.flatten_nil, List.append_nil]
                  exact ResponseState.transfer_of_complete looped
              · contradiction

end TimeGANWebServer.Http
