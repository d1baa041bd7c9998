import TimeGANWebServer.Http.Send
import TimeGANWebServer.Support.Run

/-!
# Progress of the sender

A response in the write buffer alone is sent through one vector.  After the first
partial write its length is reduced by what was sent; after the next one it is reduced
by everything sent so far, although the vector had already moved on.  From there on
`writev` is offered too little, or nothing at all.
-/

namespace TimeGANWebServer.Http

open TimeGANWebServer.Support

/-- What one `writev` is offered, and the bytes that are left to send. -/
structure SendCall where
  offered : Nat
  toSend : Int
  deriving DecidableEq, Repr

/-- The call gets all that is left, and something is. -/
def SendCall.Whole (call : SendCall) : Prop :=
  (call.offered : Int) = call.toSend ∧ 0 < call.toSend

instance (call : SendCall) : Decidable call.Whole :=
  inferInstanceAs (Decidable (_ ∧ _))

namespace ResponseState

/-- The call of `writev` in a state. -/
def sendCall (response : ResponseState) : SendCall where
  offered := response.offered.length
  toSend := response.bytesToSend

/-- `writev` can return this count: no more than it was offered, and nothing only if it
was offered nothing. -/
def Takes (response : ResponseState) (count : Nat) : Prop :=
  count ≤ response.offered.length ∧ (count = 0 → response.offered.length = 0)

instance (response : ResponseState) (count : Nat) : Decidable (response.Takes count) :=
  inferInstanceAs (Decidable (_ ∧ _))

/-- One `writev` of the loop in `write`, by whichever call of `write` it is made.  The
loop is left, and the response completed, when nothing is left to send. -/
def writevStep (response : ResponseState) : WritevResult → Option (ResponseState × List SendCall)
  | .accepted count =>
      if 0 < response.bytesToSend ∧ response.Takes count then
        some (response.advance count, [response.sendCall])
      else
        none
  | .again => if 0 < response.bytesToSend then some (response, [response.sendCall]) else none
  | .failed => none

theorem writevStep_of_takes {response : ResponseState} {count : Nat}
    (left : 0 < response.bytesToSend) (takes : response.Takes count) :
    response.writevStep (.accepted count) =
      some (response.advance count, [response.sendCall]) :=
  if_pos ⟨left, takes⟩

theorem writevStep_accepted {response next : ResponseState} {count : Nat} {calls : List SendCall}
    (stepped : response.writevStep (.accepted count) = some (next, calls)) :
    0 < response.bytesToSend ∧ response.Takes count ∧ next = response.advance count ∧
      calls = [response.sendCall] := by
  simp only [writevStep] at stepped
  split at stepped
  case isTrue taken =>
      cases stepped
      exact ⟨taken.1, taken.2, rfl, rfl⟩
  case isFalse => contradiction

theorem writevStep_again {response next : ResponseState} {calls : List SendCall}
    (stepped : response.writevStep .again = some (next, calls)) :
    0 < response.bytesToSend ∧ next = response ∧ calls = [response.sendCall] := by
  simp only [writevStep] at stepped
  split at stepped
  case isTrue left =>
      cases stepped
      exact ⟨left, rfl, rfl⟩
  case isFalse => contradiction

/-- The loop of one call of `write` is such a run. -/
theorem run_of_sendLoop {response : ResponseState} {results : List WritevResult} {loop : SendLoop}
    (toSend : 0 < response.bytesToSend) (looped : response.sendLoop results = some loop)
    (notFailed : loop.ended ≠ .failed) :
    ∃ last calls, run writevStep response results = some (last, calls) ∧
      calls.map SendCall.offered = loop.writevs.map fun writev => writev.offered.length := by
  have course := sends_of_sendLoop looped
  clear looped
  induction course with
  | failed => exact absurd rfl notFailed
  | again response =>
      have stepped : response.writevStep .again = some (response, [response.sendCall]) :=
        if_pos toSend
      exact ⟨response, _, run_of_step stepped rfl, rfl⟩
  | @last response count accepts =>
      have positive := accepts.1
      have stepped := writevStep_of_takes toSend
        (show response.Takes count from ⟨accepts.2, fun zero => by omega⟩)
      exact ⟨_, _, run_of_step stepped rfl, rfl⟩
  | @next response count _ _ accepts unfinished _ ih =>
      have positive := accepts.1
      have stepped := writevStep_of_takes toSend
        (show response.Takes count from ⟨accepts.2, fun zero => by omega⟩)
      obtain ⟨last, calls, ran, offered⟩ := ih (by omega) notFailed
      refine ⟨last, _, run_of_step stepped ran, ?_⟩
      simp only [List.cons_append, List.nil_append, List.map_cons, offered]
      rfl

/-! ## One vector -/

/-- With one vector `writev` is offered what its length says. -/
theorem offered_length_of_one {response : ResponseState} (one : response.ivCount = 1) :
    response.offered.length = response.iv0.len := by
  simp [offered, one, gather]

/-- The slot `process_write` prepares for the write buffer alone. -/
structure BufferReady (response : ResponseState) : Prop where
  iv0 : response.iv0 = ⟨.writeBuf 0, response.writeIdx⟩
  ivCount : response.ivCount = 1
  bytesToSend : response.bytesToSend = response.writeIdx
  bytesHaveSend : response.bytesHaveSend = 0
  room : response.writeIdx < writeBufferSize

/-- The vector holds what is left to send, after one partial write at most. -/
structure OneBuffer (response : ResponseState) (sent : Nat) : Prop where
  len : response.iv0.len = response.writeIdx - sent
  ivCount : response.ivCount = 1
  bytesToSend : response.bytesToSend = response.writeIdx - sent
  bytesHaveSend : response.bytesHaveSend = sent
  left : sent ≤ response.writeIdx
  room : response.writeIdx < writeBufferSize

theorem BufferReady.oneBuffer {response : ResponseState} (ready : BufferReady response) :
    OneBuffer response 0 where
  len := by rw [ready.iv0, Nat.sub_zero]
  ivCount := ready.ivCount
  bytesToSend := by rw [ready.bytesToSend, Int.natCast_zero, Int.sub_zero]
  bytesHaveSend := ready.bytesHaveSend
  left := Nat.zero_le _
  room := ready.room

/-- Such a vector is whole. -/
theorem OneBuffer.whole {response : ResponseState} {sent : Nat}
    (oneBuffer : OneBuffer response sent)
    (left : 0 < response.bytesToSend) : response.sendCall.Whole := by
  have sentLess := oneBuffer.left
  have len := oneBuffer.len
  refine ⟨?_, left⟩
  simp only [sendCall, offered_length_of_one oneBuffer.ivCount, oneBuffer.bytesToSend, len]
  omega

/-- The first partial write leaves the vector with what is left. -/
theorem OneBuffer.advance_first {response : ResponseState} (oneBuffer : OneBuffer response 0)
    {count : Nat} (part : count < response.writeIdx) :
      OneBuffer (response.advance count) count := by
  obtain ⟨len, ivCount, bytesToSend, bytesHaveSend, left, room⟩ := oneBuffer
  have size : writeBufferSize = 65536 := rfl
  have counted : toSizeT (response.bytesHaveSend + count) = count := by
    rw [bytesHaveSend, Int.natCast_zero, Int.zero_add, toSizeT_natCast (by omega)]
  have further : ¬response.iv0.len ≤ toSizeT (response.bytesHaveSend + count) := by
    rw [counted, len]
    omega
  simp only [ResponseState.advance, if_neg further]
  refine ⟨?_, ivCount, ?_, ?_, Nat.le_of_lt part, room⟩
  · change toSizeT (response.iv0.len - (response.bytesHaveSend + count)) = response.writeIdx - count
    simp only [bytesHaveSend, len, toSizeT]
    omega
  · change response.bytesToSend - count = response.writeIdx - count
    omega
  · change response.bytesHaveSend + count = count
    omega

/-- The second one leaves it with too little. -/
theorem OneBuffer.advance_second {response : ResponseState} {sent count : Nat}
    (oneBuffer : OneBuffer response sent) (first : 0 < sent)
    (part : sent + count < response.writeIdx) :
    ¬(response.advance count).sendCall.Whole := by
  obtain ⟨len, ivCount, bytesToSend, bytesHaveSend, left, room⟩ := oneBuffer
  have size : writeBufferSize = 65536 := rfl
  have counted : toSizeT (response.bytesHaveSend + count) = sent + count := by
    rw [bytesHaveSend, ← Int.natCast_add, toSizeT_natCast (by omega)]
  rintro ⟨all, _⟩
  simp only [sendCall, offered_length_of_one ((ivCount_advance response count).trans ivCount),
    bytesToSend_advance, bytesToSend] at all
  simp only [ResponseState.advance] at all
  split at all
  · simp only at all
    omega
  case isFalse further =>
      rw [counted, len] at further
      simp only [bytesHaveSend, len, toSizeT] at all
      omega

/-- A result that accepts bytes. -/
def accepting : WritevResult → Bool
  | .accepted _ => true
  | _ => false

/-- The results that accept bytes, in all calls but the last. -/
def acceptedBefore (results : List WritevResult) : Nat :=
  results.dropLast.countP accepting

theorem acceptedBefore_cons {result : WritevResult} {results : List WritevResult}
    (more : results ≠ []) :
    acceptedBefore (result :: results) =
      acceptedBefore results + if accepting result then 1 else 0 := by
  rw [acceptedBefore, List.dropLast_cons_of_ne_nil more, List.countP_cons, acceptedBefore]

theorem acceptedBefore_again (results : List WritevResult) :
    acceptedBefore (.again :: results) = acceptedBefore results := by
  by_cases more : results = []
  · rw [more]
    rfl
  · rw [acceptedBefore_cons more]
    rfl

/-- A call is made with bytes left to send. -/
theorem writevStep_call {response next : ResponseState} {result : WritevResult}
    {calls : List SendCall} (stepped : response.writevStep result = some (next, calls)) :
    0 < response.bytesToSend ∧ calls = [response.sendCall] := by
  cases result with
  | accepted count =>
      obtain ⟨left, _, _, made⟩ := writevStep_accepted stepped
      exact ⟨left, made⟩
  | again =>
      obtain ⟨left, _, made⟩ := writevStep_again stepped
      exact ⟨left, made⟩
  | failed => contradiction

/-- The first call of a run that makes one. -/
theorem sendCall_mem_of_run {response last : ResponseState} {results : List WritevResult}
    {calls : List SendCall} (more : results ≠ [])
    (ran : run writevStep response results = some (last, calls)) :
    0 < response.bytesToSend ∧ response.sendCall ∈ calls := by
  obtain ⟨result, results, rfl⟩ := List.exists_cons_of_ne_nil more
  obtain ⟨next, first, rest, stepped, _, rfl⟩ := run_cons ran
  obtain ⟨left, rfl⟩ := writevStep_call stepped
  exact ⟨left, List.mem_append_left _ (List.mem_singleton_self _)⟩

/-- After a partial write every call is whole exactly if no other one accepts bytes
before the last. -/
theorem OneBuffer.run_second {response last : ResponseState} {sent : Nat}
    {results : List WritevResult} {calls : List SendCall} (oneBuffer : OneBuffer response sent)
    (first : 0 < sent) (ran : run writevStep response results = some (last, calls)) :
    (∀ call ∈ calls, call.Whole) ↔ acceptedBefore results = 0 := by
  induction results generalizing calls with
  | nil =>
      cases ran
      exact iff_of_true (fun _ => nofun) rfl
  | cons result results ih =>
      obtain ⟨next, made, rest, stepped, later, rfl⟩ := run_cons ran
      obtain ⟨left, rfl⟩ := writevStep_call stepped
      have whole := oneBuffer.whole left
      cases result with
      | failed => contradiction
      | again =>
          obtain ⟨_, rfl, _⟩ := writevStep_again stepped
          rw [acceptedBefore_again, ← ih later]
          simp only [List.cons_append, List.nil_append, List.forall_mem_cons, whole, true_and]
      | accepted count =>
          obtain ⟨_, _, rfl, _⟩ := writevStep_accepted stepped
          by_cases more : results = []
          · subst more
            cases later
            exact iff_of_true (by simpa using whole) rfl
          · obtain ⟨stillLeft, called⟩ := sendCall_mem_of_run more later
            have part : sent + count < response.writeIdx := by
              have bytesToSend := oneBuffer.bytesToSend
              rw [bytesToSend_advance] at stillLeft
              omega
            refine iff_of_false (fun all => ?_) ?_
            · exact oneBuffer.advance_second first part
                (all _ (List.mem_append_right _ called))
            · rw [acceptedBefore_cons more]
              simp [accepting]

/-- Every call is whole exactly if at most one accepts bytes before the last. -/
theorem BufferReady.run_iff {response last : ResponseState} {results : List WritevResult}
    {calls : List SendCall} (ready : BufferReady response)
    (ran : run writevStep response results = some (last, calls)) :
    (∀ call ∈ calls, call.Whole) ↔ acceptedBefore results ≤ 1 := by
  induction results generalizing calls with
  | nil =>
      cases ran
      exact iff_of_true (fun _ => nofun) (Nat.zero_le 1)
  | cons result results ih =>
      obtain ⟨next, made, rest, stepped, later, rfl⟩ := run_cons ran
      obtain ⟨left, rfl⟩ := writevStep_call stepped
      have whole := ready.oneBuffer.whole left
      cases result with
      | failed => contradiction
      | again =>
          obtain ⟨_, rfl, _⟩ := writevStep_again stepped
          rw [acceptedBefore_again, ← ih later]
          simp only [List.cons_append, List.nil_append, List.forall_mem_cons, whole, true_and]
      | accepted count =>
          obtain ⟨_, takes, rfl, _⟩ := writevStep_accepted stepped
          by_cases more : results = []
          · subst more
            cases later
            exact iff_of_true (by simpa using whole) (Nat.zero_le 1)
          · obtain ⟨stillLeft, _⟩ := sendCall_mem_of_run more later
            have bytesToSend := ready.bytesToSend
            have part : count < response.writeIdx := by
              rw [bytesToSend_advance] at stillLeft
              omega
            have positive : 0 < count := by
              have offered := whole.1
              simp only [sendCall] at offered
              by_contra none
              have nothing := takes.2 (by omega)
              omega
            have second := (ready.oneBuffer.advance_first part).run_second positive later
            rw [acceptedBefore_cons more]
            simp only [List.cons_append, List.nil_append, List.forall_mem_cons, whole, true_and,
              second, accepting, if_true]
            omega

/-! ## The number of calls -/

/-- The results one call of `write` gets: `EAGAIN` ends it. -/
def OneCall (results : List WritevResult) : Prop :=
  results ≠ [] ∧ .again ∉ results.dropLast

/-- Whole calls send a byte each. -/
theorem length_le_of_whole {response last : ResponseState} {results : List WritevResult}
    {calls : List SendCall} (one : OneCall results)
    (ran : run writevStep response results = some (last, calls))
    (whole : ∀ call ∈ calls, call.Whole) : (results.length : Int) ≤ response.bytesToSend := by
  induction results generalizing response calls with
  | nil => exact absurd rfl one.1
  | cons result results ih =>
      obtain ⟨next, made, rest, stepped, later, rfl⟩ := run_cons ran
      obtain ⟨left, rfl⟩ := writevStep_call stepped
      by_cases more : results = []
      · subst more
        simp only [List.length_cons, List.length_nil]
        omega
      · have notAgain := one.2
        rw [List.dropLast_cons_of_ne_nil more, List.mem_cons, not_or] at notAgain
        cases result with
        | failed => contradiction
        | again => exact absurd rfl notAgain.1
        | accepted count =>
            obtain ⟨_, takes, rfl, _⟩ := writevStep_accepted stepped
            have shorter := ih ⟨more, notAgain.2⟩ later fun call member =>
              whole call (List.mem_append_right _ member)
            have offered := (whole _ (List.mem_append_left _ (List.mem_singleton_self _))).1
            simp only [sendCall] at offered
            have positive : 0 < count := by
              by_contra none
              have nothing := takes.2 (by omega)
              omega
            rw [bytesToSend_advance] at shorter
            simp only [List.length_cons]
            omega

/-! ## The slot `process_write` prepares -/

/-- Nothing has been sent, and there is room behind the write buffer. -/
structure Fresh (response : ResponseState) : Prop where
  bytesHaveSend : response.bytesHaveSend = 0
  room : response.writeIdx < writeBufferSize

theorem Fresh.addResponse {response : ResponseState} (fresh : response.Fresh) (text : List UInt8) :
    (response.addResponse text).2.Fresh := by
  obtain ⟨bytesHaveSend, room⟩ := fresh
  simp only [ResponseState.addResponse]
  split
  · exact ⟨bytesHaveSend, room⟩
  · split
    · exact ⟨bytesHaveSend, room⟩
    case isFalse fits =>
        refine ⟨bytesHaveSend, ?_⟩
        simp only [writeIdx, List.length_append] at fits ⊢
        omega

theorem Fresh.addHeaders {response : ResponseState} (fresh : response.Fresh) (linger : Bool)
    (contentLen : Int) : (response.addHeaders linger contentLen).2.Fresh := by
  have first : (response.addContentLength contentLen).2.Fresh := fresh.addResponse _
  simp only [ResponseState.addHeaders]
  split
  case _ next failed => exact failed ▸ first
  case _ next fitted =>
      rw [fitted] at first
      have second : (next.addLinger linger).2.Fresh := first.addResponse _
      split
      case _ last failed => exact failed ▸ second
      case _ last fitted =>
          rw [fitted] at second
          exact second.addResponse _

theorem Fresh.bufferReady {response : ResponseState} (fresh : response.Fresh) :
    BufferReady response.queueBuffer :=
  ⟨rfl, rfl, rfl, fresh.bytesHaveSend, fresh.room⟩

theorem Fresh.finishPage {response : ResponseState} (fresh : response.Fresh) (content : List UInt8)
    (fits : (response.finishPage content).1 = true) :
    BufferReady (response.finishPage content).2 := by
  have added : (response.addContent content).2.Fresh := fresh.addResponse _
  simp only [ResponseState.finishPage] at fits ⊢
  split at fits
  · contradiction
  case _ next appended =>
      rw [appended] at added
      exact added.bufferReady

/-- A response through one vector is the write buffer. -/
theorem bufferReady_processWrite {response : ResponseState} {linger : Bool} {code : HttpCode}
    (fresh : response.Fresh) (fits : (response.processWrite linger code).1 = true)
    (one : (response.processWrite linger code).2.ivCount = 1) :
    BufferReady (response.processWrite linger code).2 := by
  have status : ∀ number title, (response.addStatusLine number title).2.Fresh :=
    fun _ _ => fresh.addResponse _
  have two : ∀ (built : ResponseState) base size, (built.queueBody base size).ivCount ≠ 1 :=
    fun _ _ _ => by simp [queueBody]
  cases code with
  | noResource => exact ((status _ _).addHeaders linger _).finishPage _ fits
  | internalError => exact ((status _ _).addHeaders linger _).finishPage _ fits
  | fileRequest =>
      simp only [processWrite] at fits one ⊢
      split at one
      · exact absurd one (two _ _ _)
      case isFalse empty =>
          rw [if_neg empty] at fits ⊢
          exact ((status _ _).addHeaders linger _).finishPage _ fits
  | diagnoseRequest =>
      simp only [processWrite] at fits ⊢
      refine Fresh.finishPage ?_ _ fits
      simp only [addContentLength, addContentType, addLinger, addBlankLine]
      iterate 4 apply Fresh.addResponse
      exact status 200 (ascii "OK")
  | diagnoseCsvRequest => exact absurd one (two _ _ _)
  | noRequest => exact ((status _ _).addHeaders linger 0).bufferReady
  | getRequest => exact ((status _ _).addHeaders linger 0).bufferReady
  | badRequest => exact ((status _ _).addHeaders linger 0).bufferReady
  | forbiddenRequest => exact ((status _ _).addHeaders linger 0).bufferReady
  | closedConnection => exact ((status _ _).addHeaders linger 0).bufferReady
  | redirectRequest => exact ((status _ _).addHeaders linger 0).bufferReady

/-- Sending makes progress: every `writev` gets all that is left, and something is; so
a call of `write` makes no more calls of it than bytes were left. -/
structure Progresses (response : ResponseState) (results : List WritevResult)
    (calls : List SendCall) : Prop where
  whole : ∀ call ∈ calls, call.Whole
  leaves : ∀ before once state made, results = before ++ once → OneCall once →
    run writevStep response before = some (state, made) →
      (once.length : Int) ≤ state.bytesToSend

/-- **A response through one vector makes progress exactly if at most one `writev` in
front of the last one accepts bytes.** -/
theorem progresses_iff {response last : ResponseState} {linger : Bool} {code : HttpCode}
    {results : List WritevResult} {calls : List SendCall} (fresh : response.Fresh)
    (fits : (response.processWrite linger code).1 = true)
    (one : (response.processWrite linger code).2.ivCount = 1)
    (ran : run writevStep (response.processWrite linger code).2 results = some (last, calls)) :
    Progresses (response.processWrite linger code).2 results calls ↔
      acceptedBefore results ≤ 1 := by
  rw [← (bufferReady_processWrite fresh fits one).run_iff ran]
  constructor
  · exact Progresses.whole
  · intro whole
    refine ⟨whole, ?_⟩
    rintro before once state made rfl isCall reached
    obtain ⟨middle, first, rest, before_, behind, rfl⟩ := run_append ran
    cases reached.symm.trans before_
    exact length_le_of_whole isCall behind fun call member =>
      whole call (List.mem_append_right _ member)

/-- The page for a bad request, 64 bytes long. -/
def badPage : ResponseState :=
  (HttpConn.blank.toResponseState.processWrite false .badRequest).2

theorem progresses_iff_two_portions :
    ∃ last calls, run writevStep badPage [.accepted 10, .again, .accepted 54] = some (last, calls) ∧
      Progresses badPage [.accepted 10, .again, .accepted 54] calls := by
  have ran : (run writevStep badPage [.accepted 10, .again, .accepted 54]).isSome = true := by
    decide +kernel
  obtain ⟨⟨last, calls⟩, ran⟩ := Option.isSome_iff_exists.mp ran
  refine ⟨last, calls, ran, ?_⟩
  exact (@progresses_iff HttpConn.blank.toResponseState last false .badRequest _ calls
    ⟨rfl, by decide⟩ (by decide +kernel) (by decide +kernel) ran).mpr (by decide)

/-- A vector without bytes spins: `writev` accepts nothing, again and again. -/
theorem run_of_empty {response : ResponseState} (one : response.ivCount = 1)
    (empty : response.iv0.len = 0) (left : 0 < response.bytesToSend) (count : Nat) :
    ∃ last calls, run writevStep response (List.replicate count (.accepted 0)) =
      some (last, calls) := by
  induction count generalizing response with
  | zero => exact ⟨response, [], rfl⟩
  | succ count ih =>
      have offered : response.offered.length = 0 := (offered_length_of_one one).trans empty
      have stepped := writevStep_of_takes left
        (show response.Takes 0 from ⟨Nat.zero_le _, fun _ => offered⟩)
      have still : (response.advance 0).iv0.len = 0 := by
        simp only [advance, empty, Nat.zero_le, if_true]
      obtain ⟨last, calls, ran⟩ := ih ((ivCount_advance response 0).trans one) still
        (by rw [bytesToSend_advance]; omega)
      exact ⟨last, _, run_of_step stepped ran⟩

/-- After 40 and 10 bytes of the page the loop spins with 14 bytes left. -/
theorem not_progresses_spin :
    (∃ last calls, run writevStep badPage [.accepted 40, .accepted 10, .accepted 0] =
        some (last, calls) ∧
      ¬Progresses badPage [.accepted 40, .accepted 10, .accepted 0] calls) ∧
      ∀ count, ∃ last calls, run writevStep badPage
        (.accepted 40 :: .accepted 10 :: List.replicate count (.accepted 0)) =
          some (last, calls) := by
  constructor
  · have ran : (run writevStep badPage [.accepted 40, .accepted 10, .accepted 0]).map Prod.snd =
        some [⟨64, 64⟩, ⟨24, 24⟩, ⟨0, 14⟩] := by
      decide +kernel
    obtain ⟨⟨last, calls⟩, ran, rfl⟩ := Option.map_eq_some_iff.mp ran
    refine ⟨last, _, ran, fun progresses => ?_⟩
    have whole := progresses.whole ⟨0, 14⟩ (by decide)
    exact absurd whole (by decide)
  · intro count
    have first := @writevStep_of_takes badPage 40 (by decide +kernel) (by decide +kernel)
    have second := @writevStep_of_takes (badPage.advance 40) 10 (by decide +kernel)
      (by decide +kernel)
    obtain ⟨last, calls, ran⟩ := @run_of_empty ((badPage.advance 40).advance 10)
      (by decide +kernel) (by decide +kernel) (by decide +kernel) count
    exact ⟨last, _, run_of_step first (run_of_step second ran)⟩

end ResponseState

end TimeGANWebServer.Http
