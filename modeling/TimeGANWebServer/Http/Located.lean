import TimeGANWebServer.Http.Process
import TimeGANWebServer.Http.Progress

/-!
# Where the vectors of a response point

`m_iv[0]` points into `m_write_buf`, and `m_iv[1]` into `m_response_csv` or, behind
`m_file_address`, into a mapping.  `write` never leaves the first two.  It leaves the mapping, to
the front, where it takes the header for sent before it has been.
-/

namespace TimeGANWebServer.Http

open TimeGANWebServer.Support

/-- The length of a mapping.  There is nothing behind a pointer that is none. -/
def FileAddress.length : FileAddress → Nat
  | .mapped _ bytes => bytes.length
  | .null | .failed => 0

/-- The header has been sent where `write` takes it for sent: when the portion ends so far add up to
the length of `m_iv[0]`.  `left` is what the code has left of that length, and `sent` what it has
sent of the response. -/
def WholeHeader (header : Nat) : Nat → Nat → List WritevResult → Prop
  | left, sent, .accepted count :: results =>
      (left ≤ sent + count → header ≤ sent + count) ∧
        WholeHeader header (left - (sent + count)) (sent + count) results
  | _, _, _ => True

instance decidableWholeHeader (header : Nat) :
    (left sent : Nat) → (results : List WritevResult) →
      Decidable (WholeHeader header left sent results)
  | left, sent, .accepted count :: results =>
      have := decidableWholeHeader header (left - (sent + count)) (sent + count) results
      inferInstanceAs (Decidable (_ ∧ _))
  | _, _, [] | _, _, .again :: _ | _, _, .failed :: _ => .isTrue trivial

namespace ResponseState

/-- A call of `write` sends bytes through `m_file_address`. -/
def sendsMapped (response : ResponseState) : List WritevResult → Bool
  | .accepted count :: results =>
      (response.ivCount == 2 && decide (response.iv0.len < count) &&
        (match response.iv1.base with
        | .file _ _ => true
        | _ => false)) ||
        sendsMapped (response.advance count) results
  | _ => false

/-- The size of the body behind the header: of the generated CSV file, or of the file. -/
def bodySize (response : ResponseState) (csv : Bool) : Nat :=
  if csv then response.responseCsv.length else response.fileStat.size

/-- The vectors point to what is left of the header, and of a body of some size. -/
structure Located (response : ResponseState) (size : Nat) : Prop where
  room : response.writeIdx < writeBufferSize
  count : response.ivCount ≤ 2
  header : response.iv0.len = 0 ∨ ∃ first : Nat, response.iv0.base = .writeBuf first ∧
    first + response.iv0.len ≤ response.writeIdx
  body : response.ivCount = 2 →
    (response.iv1.base = .csv 0 ∧ response.iv1.len ≤ response.responseCsv.length) ∨
      ∃ first : Nat, response.iv1.base = .file response.fileAddress first ∧
        first + response.iv1.len ≤ size
  haveSend : 0 ≤ response.bytesHaveSend
  total : response.bytesHaveSend + response.bytesToSend ≤ response.writeIdx + size
  bound : response.bytesHaveSend + response.bytesToSend < 2 ^ 31

theorem byteOf_of_lt {bytes : List UInt8} {first index : Nat}
    (inside : first + index < bytes.length) :
    byteOf bytes ((first : Int) + index) ≠ none := by
  have nonneg : 0 ≤ (first : Int) + index := by omega
  have position : ((first : Int) + index).toNat = first + index := by omega
  simp only [byteOf, if_pos nonneg, position, List.getElem?_eq_getElem inside, ne_eq, reduceCtorEq,
    not_false_eq_true]

@[simp] theorem responseCsv_advance (response : ResponseState) (count : Nat) :
    (response.advance count).responseCsv = response.responseCsv := by
  simp only [advance]
  split <;> rfl

theorem bytesHaveSend_advance (response : ResponseState) (count : Nat) :
    (response.advance count).bytesHaveSend = response.bytesHaveSend + count := by
  simp only [advance]
  split <;> rfl

@[simp] theorem bodySize_advance (response : ResponseState) (count : Nat) (csv : Bool) :
    (response.advance count).bodySize csv = response.bodySize csv := by
  simp only [bodySize, responseCsv_advance, fileStat_advance]

namespace Located

variable {response : ResponseState} {size : Nat}

/-- What `m_iv[0]` offers is in the write buffer. -/
theorem header_byte (located : response.Located size) {index : Nat}
    (inside : index < response.iv0.len) :
    ∃ first, response.iv0.base = .writeBuf first ∧
      response.byteAt response.iv0.base index ≠ none := by
  rcases located.header with none | ⟨first, base, within⟩
  · omega
  · refine ⟨first, base, ?_⟩
    rw [base]
    refine byteOf_of_lt ?_
    simp only [writeIdx] at within
    omega

/-- What `m_iv[1]` offers is in the CSV file, or in a mapping that is long enough. -/
theorem body_byte (located : response.Located size) (two : response.ivCount = 2) {index : Nat}
    (inside : index < response.iv1.len) :
    (response.iv1.base = .csv 0 ∧ response.byteAt response.iv1.base index ≠ none) ∨
      ∃ first, response.iv1.base = .file response.fileAddress first ∧
        (size ≤ response.fileAddress.length → response.byteAt response.iv1.base index ≠ none) := by
  rcases located.body two with ⟨base, within⟩ | ⟨first, base, within⟩
  · refine .inl ⟨base, ?_⟩
    rw [base]
    exact @byteOf_of_lt response.responseCsv 0 index (by omega)
  · refine .inr ⟨first, base, fun long => ?_⟩
    rw [base]
    cases address : response.fileAddress with
    | mapped start bytes =>
        rw [address] at long
        simp only [FileAddress.length] at long
        exact byteOf_of_lt (by omega)
    | null | failed =>
        rw [address] at long
        simp only [FileAddress.length] at long
        omega

/-- Bytes are sent, and some are left: the vectors point to these, if the header has been sent
where it is taken for sent. -/
theorem advance (located : response.Located size) {count : Nat}
    (unfinished : 0 < (response.advance count).bytesToSend)
    (whole : response.ivCount = 2 → response.iv0.len ≤ response.bytesHaveSend.toNat + count →
      response.writeIdx ≤ response.bytesHaveSend.toNat + count) :
    (response.advance count).Located size ∧
      (response.advance count).iv0.len =
        response.iv0.len - (response.bytesHaveSend.toNat + count) := by
  obtain ⟨room, ivCount, header, body, haveSend, total, bound⟩ := located
  rw [bytesToSend_advance] at unfinished
  have small : writeBufferSize < 2 ^ 31 := by decide
  have within : response.iv0.len ≤ response.writeIdx := by
    rcases header with none | ⟨first, _, within⟩ <;> omega
  -- what has been sent is less than the whole, and so in the range of `size_t`
  obtain ⟨sent, isSent⟩ : ∃ sent : Nat, response.bytesHaveSend = sent :=
    ⟨_, (Int.toNat_of_nonneg haveSend).symm⟩
  have after : response.bytesHaveSend + count = ((sent + count : Nat) : Int) := by omega
  have counted : toSizeT (response.bytesHaveSend + count) = sent + count := by
    rw [after, toSizeT_natCast (by omega)]
  have same : response.bytesHaveSend.toNat = sent := by omega
  rw [same] at whole ⊢
  suffices ends : ((response.advance count).iv0.len = 0 ∨ ∃ first : Nat,
        (response.advance count).iv0.base = .writeBuf first ∧
          first + (response.advance count).iv0.len ≤ response.writeIdx) ∧
      (response.ivCount = 2 →
        ((response.advance count).iv1.base = .csv 0 ∧
            (response.advance count).iv1.len ≤ response.responseCsv.length) ∨
          ∃ first : Nat, (response.advance count).iv1.base = .file response.fileAddress first ∧
            first + (response.advance count).iv1.len ≤ size) ∧
      (response.advance count).iv0.len = response.iv0.len - (sent + count) by
    obtain ⟨front, behind, left⟩ := ends
    refine ⟨⟨?_, ?_, ?_, ?_, ?_, ?_, ?_⟩, left⟩
    · rwa [writeIdx_advance]
    · rwa [ivCount_advance]
    · rwa [writeIdx_advance]
    · rwa [ivCount_advance, responseCsv_advance, fileAddress_advance]
    · rw [bytesHaveSend_advance]
      omega
    · rw [bytesHaveSend_advance, bytesToSend_advance, writeIdx_advance]
      omega
    · rw [bytesHaveSend_advance, bytesToSend_advance]
      omega
  simp only [ResponseState.advance, counted]
  split
  case isTrue all =>
      have left : toSizeT (response.bytesToSend - count) =
          (response.bytesToSend - count).toNat := by
        obtain ⟨toSend, isLeft⟩ : ∃ toSend : Nat, response.bytesToSend - count = toSend :=
          ⟨_, (Int.toNat_of_nonneg (by omega)).symm⟩
        rw [isLeft, toSizeT_natCast (by omega), Int.toNat_natCast]
      refine ⟨.inl rfl, fun two => ?_, ?_⟩
      · have behind := whole two all
        refine .inr ⟨sent + count - response.writeIdx, ?_, ?_⟩
        · rw [after, Int.natCast_sub behind]
        · simp only [left]
          omega
      · simp only
        omega
  case isFalse further =>
      have rest : toSizeT (response.iv0.len - (response.bytesHaveSend + count)) =
          response.iv0.len - (sent + count) := by
        rw [after, ← Int.natCast_sub (by omega), toSizeT_natCast (by omega)]
      refine ⟨.inr ⟨sent + count, ?_, ?_⟩, body, rest⟩
      · rw [after]
      · simp only [rest]
        omega

end Located

/-- A call of `write` that ends with `EAGAIN` leaves vectors that point to the rest. -/
theorem Sends.located {response : ResponseState} {results : List WritevResult} {loop : SendLoop}
    (course : response.Sends results loop) {csv : Bool}
    (located : response.Located (response.bodySize csv))
    (whole : response.ivCount = 2 →
      WholeHeader response.writeIdx response.iv0.len response.bytesHaveSend.toNat results)
    (again : loop.ended = .again) : loop.response.Located (loop.response.bodySize csv) := by
  induction course with
  | again => exact located
  | failed => contradiction
  | last => contradiction
  | @next response count results rest accepts unfinished later ih =>
      obtain ⟨advanced, left⟩ := located.advance (by omega) fun two => (whole two).1
      have nonneg := located.haveSend
      have sent : (response.advance count).bytesHaveSend.toNat =
          response.bytesHaveSend.toNat + count := by
        rw [bytesHaveSend_advance]
        omega
      refine ih ?_ ?_ again
      · rw [bodySize_advance]
        exact advanced
      · rw [ivCount_advance, writeIdx_advance, left, sent]
        exact fun two => (whole two).2

/-! ## The response `process_write` prepares -/

theorem Fresh.queueBuffer_located {response : ResponseState} (fresh : response.Fresh) (size : Nat) :
    response.queueBuffer.Located size := by
  obtain ⟨haveSend, room⟩ := fresh
  have small : writeBufferSize < 2 ^ 31 := by decide
  refine ⟨room, Nat.le_succ 1, .inr ⟨0, rfl, ?_⟩, fun two => absurd two (by simp [queueBuffer]),
    ?_, ?_, ?_⟩
  all_goals simp only [queueBuffer, haveSend, writeIdx] at room ⊢
  all_goals omega

theorem Fresh.queueBody_located {response : ResponseState} (fresh : response.Fresh) {base : IovBase}
    {size : Nat} (points : (base = .csv 0 ∧ size = response.responseCsv.length) ∨
      base = .file response.fileAddress 0) : (response.queueBody base size).Located size := by
  obtain ⟨haveSend, room⟩ := fresh
  have low : toInt32 (response.writeIdx + size) ≤ response.writeIdx + size :=
    toInt32_le (by omega)
  have high := (toInt32_bounds (response.writeIdx + size)).2
  refine ⟨room, Nat.le_refl 2, .inr ⟨0, rfl, ?_⟩, fun _ => ?_, ?_, ?_, ?_⟩
  · simp only [queueBody, writeIdx]
    omega
  · rcases points with ⟨rfl, same⟩ | rfl
    · exact .inl ⟨rfl, same.le⟩
    · exact .inr ⟨0, rfl, by simp only [queueBody]; omega⟩
  all_goals simp only [queueBody, haveSend, writeIdx] at low high ⊢
  all_goals omega

theorem Fresh.finishPage_located {response : ResponseState} (fresh : response.Fresh)
    (content : List UInt8) (fits : (response.finishPage content).1 = true) (size : Nat) :
    (response.finishPage content).2.Located size := by
  have added : (response.addContent content).2.Fresh := fresh.addResponse _
  simp only [ResponseState.finishPage] at fits ⊢
  split at fits
  · contradiction
  case _ next appended =>
      rw [appended] at added
      exact added.queueBuffer_located size

/-- A response that fits is prepared with vectors that point to its parts. -/
theorem Fresh.processWrite_located {response : ResponseState} {linger : Bool} {code : HttpCode}
    (fresh : response.Fresh) (fits : (response.processWrite linger code).1 = true) :
    (response.processWrite linger code).2.Located
      ((response.processWrite linger code).2.bodySize (code = .diagnoseCsvRequest)) := by
  have status : ∀ number title, (response.addStatusLine number title).2.Fresh :=
    fun _ _ => fresh.addResponse _
  cases code with
  | noResource => exact ((status _ _).addHeaders linger _).finishPage_located _ fits _
  | internalError => exact ((status _ _).addHeaders linger _).finishPage_located _ fits _
  | fileRequest =>
      simp only [processWrite] at fits ⊢
      split at fits
      case isTrue some_ =>
          simp only [if_pos some_]
          exact ((status _ _).addHeaders linger _).queueBody_located (.inr rfl)
      case isFalse empty =>
          simp only [if_neg empty]
          exact ((status _ _).addHeaders linger _).finishPage_located _ fits _
  | diagnoseRequest =>
      simp only [processWrite] at fits ⊢
      refine Fresh.finishPage_located ?_ _ fits _
      simp only [addContentLength, addContentType, addLinger, addBlankLine]
      iterate 4 apply Fresh.addResponse
      exact status 200 (ascii "OK")
  | diagnoseCsvRequest =>
      have header : (response.csvHeader linger).Fresh := by
        simp only [csvHeader, addStatusLine, addContentLength, addLinger, addBlankLine]
        iterate 6 apply Fresh.addResponse
        exact fresh
      have size : ((response.csvHeader linger).queueBody (.csv 0)
          (response.csvHeader linger).responseCsv.length).bodySize true =
            (response.csvHeader linger).responseCsv.length := by
        simp only [bodySize, if_true, queueBody]
      simp only [processWrite, decide_true, size]
      exact header.queueBody_located (.inl ⟨rfl, rfl⟩)
  | noRequest | getRequest | badRequest | forbiddenRequest | closedConnection | redirectRequest =>
      simp only [processWrite]
      exact ((status _ _).addHeaders linger 0).queueBuffer_located _

theorem Fresh.init (response : ResponseState) : response.init.Fresh :=
  ⟨rfl, by simp only [ResponseState.init, writeIdx, List.length_nil]; decide⟩

/-- `do_request` adds a redirect at most. -/
theorem Fresh.addRedirect {response : ResponseState} (fresh : response.Fresh)
    (headers : List (List UInt8)) : (response.addRedirect headers).Fresh := by
  have lines : ∀ (headers : List (List UInt8)) (begun : ResponseState), begun.Fresh →
      (headers.foldl (fun response header => (ResponseState.addResponse response header).2)
        begun).Fresh := by
    intro headers
    induction headers with
    | nil => exact fun _ fresh => fresh
    | cons header headers ih => exact fun begun fresh => ih _ (fresh.addResponse header)
  exact (lines headers _ (fresh.addResponse _)).addResponse _

end ResponseState

namespace HttpConn

/-- `process_read` sends nothing. -/
theorem processRead_fresh {conn : HttpConn} {env : Env} {reply : Reply}
    (fresh : conn.toResponseState.Fresh) (read : conn.processRead env = .ok reply) :
    reply.conn.toResponseState.Fresh := by
  simp only [processRead] at read
  split at read
  · cases read
    exact fresh
  · rcases doRequest_cases read with ⟨_, redirect⟩ | ⟨_, page⟩
    · obtain ⟨headers, _, response⟩ := redirect.response
      rw [response]
      exact ResponseState.Fresh.addRedirect fresh headers
    · refine ⟨page.bytesHaveSend.trans fresh.bytesHaveSend, ?_⟩
      simp only [ResponseState.writeIdx, page.writeBuf]
      exact fresh.room
  · contradiction

end HttpConn

end TimeGANWebServer.Http
