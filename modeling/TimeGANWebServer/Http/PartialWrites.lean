import TimeGANWebServer.Http.Send

/-!
# Partial writes

What reaches the socket when `writev` accepts a response in portions.  The bytes
accepted so far should be a prefix of the response, for a file as well as for a
generated body.  `write` finds its place again from the count of all bytes sent and
from the length of `m_iv[0]`, which earlier portions have already shortened, and it
takes any second vector for the mapped file.
-/

namespace TimeGANWebServer.Http

open TimeGANWebServer.Support

/-- The bytes some `writev` calls accepted. -/
def acceptedBytes (writevs : List Writev) : List (Option UInt8) :=
  writevs.flatMap fun writev => writev.offered.take writev.accepted

@[simp] theorem acceptedBytes_nil : acceptedBytes [] = [] := rfl

@[simp] theorem acceptedBytes_cons (writev : Writev) (writevs : List Writev) :
    acceptedBytes (writev :: writevs) =
      writev.offered.take writev.accepted ++ acceptedBytes writevs := rfl

/-- Behind what was sent before, the bytes accepted are at all times a prefix of the
response, and in the end they are the whole response. -/
structure Transfer.InOrder (transfer : Transfer) (whole : List UInt8)
    (sent : List (Option UInt8)) : Prop where
  prefixes : ∀ part, part <+: transfer.writevs → sent ++ acceptedBytes part <+: whole.map some
  complete : transfer.complete = true → sent ++ acceptedBytes transfer.writevs = whole.map some

/-- No byte outside of the arrays is offered. -/
def Transfer.Inside (transfer : Transfer) : Prop :=
  ∀ writev ∈ transfer.writevs, none ∉ writev.offered

namespace Transfer

theorem inOrder_after (transfer : Transfer) (writev : Writev) (whole : List UInt8)
    (sent : List (Option UInt8)) :
    (transfer.after [writev]).InOrder whole sent ↔
      sent <+: whole.map some ∧
        transfer.InOrder whole (sent ++ writev.offered.take writev.accepted) := by
  constructor
  · rintro ⟨prefixes, complete⟩
    refine ⟨by simpa using prefixes [] List.nil_prefix, ?_, ?_⟩
    · intro part isPart
      have longer := prefixes (writev :: part) ((List.prefix_cons_inj writev).mpr isPart)
      simpa using longer
    · intro completed
      simpa [after] using complete completed
  · rintro ⟨start, prefixes, complete⟩
    refine ⟨?_, ?_⟩
    · intro part isPart
      rcases List.prefix_cons_iff.mp isPart with rfl | ⟨rest, rfl, isRest⟩
      · simpa using start
      · simpa using prefixes rest isRest
    · intro completed
      simpa [after] using complete completed

theorem inside_after (transfer : Transfer) (writev : Writev) :
    (transfer.after [writev]).Inside ↔ none ∉ writev.offered ∧ transfer.Inside := by
  simp [Inside, after]

/-- A transfer in which nothing happens. -/
theorem inOrder_nil {whole : List UInt8} {sent : List (Option UInt8)}
    (start : sent <+: whole.map some) : InOrder ⟨false, []⟩ whole sent where
  prefixes part isPart := by
    rw [List.prefix_nil.mp isPart]
    simpa using start
  complete := nofun

/-- A transfer that ends with its first `writev`. -/
theorem inOrder_last (writev : Writev) (whole : List UInt8) (sent : List (Option UInt8)) :
    InOrder ⟨true, [writev]⟩ whole sent ↔
      sent ++ writev.offered.take writev.accepted = whole.map some := by
  constructor
  · rintro ⟨_, complete⟩
    simpa using complete rfl
  · intro complete
    refine ⟨?_, fun _ => by simpa using complete⟩
    intro part isPart
    rcases List.prefix_cons_iff.mp isPart with rfl | ⟨rest, rfl, isRest⟩
    · rw [← complete]
      simp
    · rw [List.prefix_nil.mp isRest]
      simp [complete]

end Transfer

/-! ## What the vectors offer -/

/-- A part of an array that lies inside of it. -/
theorem map_byteOf (bytes : List UInt8) (first count : Nat)
    (inside : first + count ≤ bytes.length) :
    (List.range count).map (fun index : Nat => byteOf bytes ((first : Int) + index)) =
      ((bytes.drop first).take count).map some := by
  apply List.ext_getElem
  · simp
    omega
  · intro index left right
    simp only [List.length_map, List.length_range] at left
    have low : (0 : Int) ≤ first + index := by omega
    have position : ((first : Int) + index).toNat = first + index := by omega
    have high : first + index < bytes.length := by omega
    simp [byteOf, low, position, high]

namespace ResponseState

theorem gather_writeBuf (response : ResponseState) (first count : Nat)
    (inside : first + count ≤ response.writeBuf.length) :
    response.gather ⟨.writeBuf first, count⟩ =
      ((response.writeBuf.drop first).take count).map some :=
  map_byteOf response.writeBuf first count inside

theorem gather_file (response : ResponseState) {address : Nat} {file : List UInt8}
    (first count : Nat) (inside : first + count ≤ file.length) :
    response.gather ⟨.file (.mapped address file) first, count⟩ =
      ((file.drop first).take count).map some :=
  map_byteOf file first count inside

theorem gather_csv (response : ResponseState) (first count : Nat)
    (inside : first + count ≤ response.responseCsv.length) :
    response.gather ⟨.csv first, count⟩ =
      ((response.responseCsv.drop first).take count).map some :=
  map_byteOf response.responseCsv first count inside

/-- A mapped file read from in front of its beginning. -/
theorem gather_before_file (response : ResponseState) (address : Nat) (file : List UInt8)
    {first : Int} {count : Nat} (before : first < 0) (positive : 0 < count) :
    none ∈ response.gather ⟨.file (.mapped address file) first, count⟩ := by
  simp only [gather, List.mem_map, List.mem_range]
  exact ⟨0, positive, by simp [byteAt, byteOf, Int.not_le.mpr before]⟩

end ResponseState

/-! ## Files -/

/-- The slot `process_write(FILE_REQUEST)` prepares for a file that is mapped. -/
structure FileReady (response : ResponseState) (header file : List UInt8) : Prop where
  writeBuf : response.writeBuf = header
  address : ∃ address, response.fileAddress = .mapped address file
  iv0 : response.iv0 = ⟨.writeBuf 0, header.length⟩
  iv1 : response.iv1 = ⟨.file response.fileAddress 0, file.length⟩
  ivCount : response.ivCount = 2
  bytesToSend : response.bytesToSend = header.length + file.length
  bytesHaveSend : response.bytesHaveSend = 0

theorem fileReady_queueBody {response : ResponseState} {address : Nat} {file : List UInt8}
    (mapped : response.fileAddress = .mapped address file) (fresh : response.bytesHaveSend = 0)
    (short : response.writeIdx + file.length < 2 ^ 31) :
    FileReady (response.queueBody (.file response.fileAddress 0) file.length)
      response.writeBuf file where
  writeBuf := rfl
  address := ⟨address, mapped⟩
  iv0 := rfl
  iv1 := rfl
  ivCount := rfl
  bytesToSend := by
    simp only [ResponseState.queueBody]
    exact toInt32_of_lt (by omega) (by omega)
  bytesHaveSend := fresh

theorem ResponseState.fileReady_processWrite {response : ResponseState} {address : Nat}
    {file : List UInt8} (linger : Bool) (mapped : response.fileAddress = .mapped address file)
    (size : response.fileStat.size = file.length) (nonempty : file ≠ [])
    (fresh : response.bytesHaveSend = 0)
    (short : (response.processWrite linger .fileRequest).2.writeIdx + file.length < 2 ^ 31) :
    (response.processWrite linger .fileRequest).1 = true ∧
      FileReady (response.processWrite linger .fileRequest).2
        (response.processWrite linger .fileRequest).2.writeBuf file := by
  have positive : response.fileStat.size ≠ 0 := by
    rw [size]
    exact Nat.ne_of_gt (List.length_pos_iff.mpr nonempty)
  obtain ⟨status, withStatus⟩ : Extends response (response.addStatusLine 200 (ascii "OK")).2 :=
    extends_addResponse _ _
  have stat : (response.addStatusLine 200 (ascii "OK")).2.fileStat = response.fileStat := by
    rw [withStatus]
  have headers : Extends response ((response.addStatusLine 200 (ascii "OK")).2.addHeaders linger
      (toInt32 response.fileStat.size)).2 :=
    Extends.trans ⟨status, withStatus⟩ (extends_addHeaders _ _ _)
  simp only [processWrite, stat, if_pos positive] at short ⊢
  generalize ((response.addStatusLine 200 (ascii "OK")).2.addHeaders linger
    (toInt32 response.fileStat.size)).2 = prepared at short headers ⊢
  obtain ⟨appended, rfl⟩ := headers
  rw [size] at short ⊢
  exact ⟨trivial, fileReady_queueBody mapped fresh short⟩

/-- The cumulative counts of accepted bytes after each `writev` that accepted some. -/
def cumulative (sent : Nat) : List WritevResult → List Nat
  | [] => []
  | .accepted count :: results => (sent + count) :: cumulative (sent + count) results
  | _ :: results => cumulative sent results

/-! ## Behind the header -/

/-- The byte of the mapped file at an index. -/
def ResponseState.mappedByte (response : ResponseState) (index : Nat) : Option UInt8 :=
  response.byteAt (.file response.fileAddress 0) index

theorem ResponseState.mappedByte_of_mapped (response : ResponseState) {address : Nat}
    {file : List UInt8} (mapped : response.fileAddress = .mapped address file) (index : Nat) :
    response.mappedByte index = file[index]? := by
  simp [mappedByte, byteAt, mapped, byteOf]

/-- The vectors once the header is sent: the rest of a response of `total` bytes, read
from the mapped file. -/
structure InTail (response : ResponseState) (total sent : Nat) : Prop where
  iv0 : response.iv0.len = 0
  iv1 : response.iv1 =
    ⟨.file response.fileAddress ((sent : Int) - response.writeIdx), total - sent⟩
  ivCount : response.ivCount = 2
  behind : response.writeIdx ≤ sent
  unfinished : sent < total
  bytesToSend : response.bytesToSend = (total : Int) - sent
  bytesHaveSend : response.bytesHaveSend = sent

/-- The second vector of a `writev` made after the whole of `m_iv[0]` was sent. -/
theorem ResponseState.inTail_advance {response : ResponseState} {total sent count : Nat}
    (toSend : response.bytesToSend = (total : Int) - sent)
    (haveSend : response.bytesHaveSend = sent)
    (ivCount : response.ivCount = 2) (reached : response.iv0.len ≤ sent + count)
    (behind : response.writeIdx ≤ sent + count) (unfinished : sent + count < total)
    (short : total < 2 ^ 31) : InTail (response.advance count) total (sent + count) := by
  have counted : toSizeT (response.bytesHaveSend + count) = sent + count := by
    rw [haveSend, ← Int.natCast_add]
    exact toSizeT_natCast (by omega)
  have left : toSizeT (response.bytesToSend - count) = total - (sent + count) := by
    have rest : response.bytesToSend - count = (total - (sent + count) : Nat) := by omega
    rw [rest]
    exact toSizeT_natCast (by omega)
  have whole : response.iv0.len ≤ toSizeT (response.bytesHaveSend + count) := by
    rw [counted]
    exact reached
  simp only [advance, if_pos whole, left]
  exact ⟨rfl, by rw [haveSend]; rfl, ivCount, behind, unfinished, by simp only; omega,
    by simp only; omega⟩

namespace InTail

variable {response : ResponseState} {total sent : Nat}

theorem offered (tail : InTail response total sent) :
    response.offered = (List.range (total - sent)).map fun index =>
      response.mappedByte (sent - response.writeIdx + index) := by
  have behind := tail.behind
  have position : (sent : Int) - response.writeIdx = (sent - response.writeIdx : Nat) := by omega
  simp only [ResponseState.offered, tail.ivCount, List.take_succ_cons, List.take_zero,
    List.flatMap_cons, List.flatMap_nil, ResponseState.gather, tail.iv0, tail.iv1,
    List.range_zero, List.map_nil, List.nil_append, List.append_nil, position]
  apply List.map_congr_left
  intro index _
  simp only [ResponseState.mappedByte, ResponseState.byteAt]
  cases response.fileAddress with
  | null => rfl
  | failed => rfl
  | mapped address file =>
      simp only [Int.zero_add, Int.natCast_add]

/-- A portion of the rest leaves a rest, or completes the response. -/
theorem advance (tail : InTail response total sent) {count : Nat}
    (accepts : response.Accepts count) (short : total < 2 ^ 31) :
    sent + count ≤ total ∧
      ((response.advance count).bytesToSend ≤ 0 ∧ sent + count = total ∨
        ¬(response.advance count).bytesToSend ≤ 0 ∧
          InTail (response.advance count) total (sent + count)) := by
  have unfinished := tail.unfinished
  have behind := tail.behind
  have inside := accepts.2
  rw [tail.offered, List.length_map, List.length_range] at inside
  have toSend : (response.advance count).bytesToSend = (total : Int) - sent - count := by
    rw [ResponseState.bytesToSend_advance, tail.bytesToSend]
  refine ⟨by omega, ?_⟩
  by_cases whole : sent + count = total
  · exact .inl ⟨by omega, whole⟩
  · exact .inr ⟨by omega, ResponseState.inTail_advance tail.bytesToSend tail.bytesHaveSend
      tail.ivCount (by rw [tail.iv0]; omega) (by omega) (by omega) short⟩

theorem mappedByte_advance (response : ResponseState) (count index : Nat) :
    (response.advance count).mappedByte index = response.mappedByte index := by
  simp only [ResponseState.advance]
  split <;> rfl

end InTail

/-- Some bytes continue a prefix of the response exactly when each is the byte in its
place. -/
theorem take_append_eq_iff {whole : List UInt8} {sent count : Nat} {byte : Nat → Option UInt8}
    (inside : sent + count ≤ whole.length) :
    (whole.take sent).map some ++ (List.range count).map byte =
        (whole.take (sent + count)).map some ↔
      ∀ index < count, byte index = whole[sent + index]? := by
  rw [List.take_add, List.map_append, List.append_cancel_left_eq]
  constructor
  · intro equal index below
    have entry := congrArg (fun bytes : List (Option UInt8) => bytes[index]?) equal
    have present : sent + index < whole.length := by omega
    simpa [below, present, List.getElem?_take] using entry
  · intro same
    apply List.ext_getElem
    · simp
      omega
    · intro index left right
      simp only [List.length_map, List.length_range] at left
      have present : sent + index < whole.length := by omega
      have entry := same index left
      simpa [present] using entry

/-- A continuation that is a prefix of the response is the prefix of its length. -/
theorem eq_take_of_isPrefix {whole : List UInt8} {sent count : Nat} {bytes : List (Option UInt8)}
    (inside : sent + count ≤ whole.length) (size : bytes.length = count)
    (isPrefix : (whole.take sent).map some ++ bytes <+: whole.map some) :
    (whole.take sent).map some ++ bytes = (whole.take (sent + count)).map some := by
  have length : ((whole.take sent).map some ++ bytes).length = sent + count := by
    simp only [List.length_append, List.length_map, List.length_take, size]
    omega
  rw [List.prefix_iff_eq_take.mp isPrefix, length, List.map_take]

theorem map_take_isPrefix (whole : List UInt8) (sent : Nat) :
    (whole.take sent).map some <+: whole.map some := by
  rw [List.map_take]
  exact List.take_prefix _ _

/-- All counts are at least what had been sent before. -/
theorem le_getLastD_cumulative (sent : Nat) (results : List WritevResult) :
    sent ≤ (cumulative sent results).getLastD sent := by
  induction results generalizing sent with
  | nil => exact Nat.le_refl _
  | cons result results ih =>
      cases result with
      | accepted count =>
          simp only [cumulative, List.getLastD_cons]
          exact Nat.le_trans (Nat.le_add_right _ _) (ih (sent + count))
      | again => exact ih sent
      | failed => exact ih sent

/-- The course of a transfer: what each result of a `writev` leads to. -/
inductive ResponseState.Transfers : ResponseState → List WritevResult → Transfer → Prop where
  | nil (response : ResponseState) : Transfers response [] ⟨false, []⟩
  | again {response : ResponseState} {results : List WritevResult} {rest : Transfer}
      (later : Transfers response results rest) :
      Transfers response (.again :: results) (rest.after [⟨response.offered, 0⟩])
  | last {response : ResponseState} {count : Nat} (accepts : response.Accepts count)
      (finished : (response.advance count).bytesToSend ≤ 0) :
      Transfers response [.accepted count] ⟨true, [⟨response.offered, count⟩]⟩
  | next {response : ResponseState} {count : Nat} {results : List WritevResult} {rest : Transfer}
      (accepts : response.Accepts count) (unfinished : ¬(response.advance count).bytesToSend ≤ 0)
      (further : results ≠ []) (later : Transfers (response.advance count) results rest) :
      Transfers response (.accepted count :: results) (rest.after [⟨response.offered, count⟩])

theorem ResponseState.transfers_of_transfer {response : ResponseState}
    {results : List WritevResult} {transfer : Transfer}
    (ran : response.transfer results = some transfer) : response.Transfers results transfer := by
  induction results generalizing response transfer with
  | nil =>
      cases ran
      exact .nil response
  | cons result results ih =>
      cases result with
      | failed => simp [ResponseState.transfer] at ran
      | again =>
          obtain ⟨rest, later, rfl⟩ := Option.map_eq_some_iff.mp ran
          exact .again (ih later)
      | accepted count =>
          simp only [ResponseState.transfer] at ran
          split at ran
          case isFalse => contradiction
          case isTrue accepts =>
              split at ran
              case isTrue finished =>
                  split at ran
                  case isFalse => contradiction
                  case isTrue last =>
                      subst last
                      cases ran
                      exact .last accepts finished
              case isFalse unfinished =>
                  split at ran
                  case isTrue => contradiction
                  case isFalse further =>
                      obtain ⟨rest, later, rfl⟩ := Option.map_eq_some_iff.mp ran
                      exact .next accepts unfinished further (ih later)

namespace InTail

/-- The bytes offered behind the header continue the response exactly when they are those of
its body. -/
theorem take_offered_iff {response : ResponseState} {header body : List UInt8} {sent count : Nat}
    (tail : InTail response (header.length + body.length) sent)
    (size : response.writeIdx = header.length)
    (inside : sent + count ≤ header.length + body.length) :
    ((header ++ body).take sent).map some ++ response.offered.take count =
        ((header ++ body).take (sent + count)).map some ↔
      ∀ index, sent ≤ header.length + index → header.length + index < sent + count →
        response.mappedByte index = body[index]? := by
  have fits : sent + count ≤ (header ++ body).length := by
    rw [List.length_append]
    exact inside
  have taken : response.offered.take count = (List.range count).map fun index =>
      response.mappedByte (sent - response.writeIdx + index) := by
    rw [tail.offered, ← List.map_take, List.take_range]
    congr 2
    omega
  have behind := tail.behind
  rw [taken, take_append_eq_iff fits]
  constructor
  · intro same index low high
    have entry := same (header.length + index - sent) (by omega)
    rw [List.getElem?_append_right (by omega)] at entry
    have left : sent - response.writeIdx + (header.length + index - sent) = index := by
      omega
    have right : sent + (header.length + index - sent) - header.length = index := by
      omega
    rwa [left, right] at entry
  · intro same index below
    rw [List.getElem?_append_right (by omega)]
    have position : sent + index - header.length =
        sent - response.writeIdx + index := by omega
    rw [position]
    exact same _ (by omega) (by omega)

/-- Behind the header, the response goes on in order exactly when the bytes of the
mapped file are the bytes of its body, as far as they are sent. -/
theorem inOrder_iff {response : ResponseState} {header body : List UInt8} {sent : Nat}
    {results : List WritevResult} {transfer : Transfer}
    (tail : InTail response (header.length + body.length) sent)
    (size : response.writeIdx = header.length) (short : header.length + body.length < 2 ^ 31)
    (course : response.Transfers results transfer) :
    transfer.InOrder (header ++ body) (((header ++ body).take sent).map some) ↔
      ∀ index, sent ≤ header.length + index →
        header.length + index < (cumulative sent results).getLastD sent →
          response.mappedByte index = body[index]? := by
  induction course generalizing sent with
  | nil response =>
      simp only [cumulative, List.getLastD_nil]
      exact ⟨fun _ index low high => by omega,
        fun _ => Transfer.inOrder_nil (map_take_isPrefix _ _)⟩
  | again _ ih =>
      rw [Transfer.inOrder_after, List.take_zero, List.append_nil]
      simp only [map_take_isPrefix, true_and, cumulative]
      exact ih tail size
  | @last response count accepts finished =>
      obtain ⟨inside, progress⟩ := tail.advance accepts short
      have here := tail.take_offered_iff size inside
      have all := (progress.resolve_right fun next => next.1 finished).2
      have whole : (header ++ body).take (sent + count) = header ++ body := by
        rw [all, ← List.length_append, List.take_length]
      rw [whole] at here
      simp only [cumulative, List.getLastD_cons, List.getLastD_nil]
      rw [Transfer.inOrder_last]
      exact here
  | @next response count results rest accepts unfinished further later ih =>
      obtain ⟨inside, progress⟩ := tail.advance accepts short
      have here := tail.take_offered_iff size inside
      have nextTail := (progress.resolve_left fun last => unfinished last.1).2
      have fits : sent + count ≤ (header ++ body).length := by
        rw [List.length_append]
        exact inside
      have taken : (response.offered.take count).length = count := by
        rw [List.length_take]
        exact Nat.min_eq_left accepts.2
      have behind := ih nextTail (by rw [ResponseState.writeIdx_advance, size])
      simp only [mappedByte_advance] at behind
      have below := le_getLastD_cumulative (sent + count) results
      simp only [cumulative, List.getLastD_cons]
      rw [Transfer.inOrder_after]
      constructor
      · rintro ⟨_, ordered⟩ index low high
        have start : ((header ++ body).take sent).map some ++
            response.offered.take count <+: (header ++ body).map some := by
          simpa using ordered.prefixes [] List.nil_prefix
        have equal := eq_take_of_isPrefix fits taken start
        by_cases now : header.length + index < sent + count
        · exact here.mp equal index low now
        · rw [equal] at ordered
          exact behind.mp ordered index (by omega) high
      · intro same
        have equal := here.mpr fun index low high => same index low (by omega)
        refine ⟨map_take_isPrefix _ _, ?_⟩
        rw [equal]
        exact behind.mpr fun index low high => same index (by omega) high

theorem none_not_mem_offered {response : ResponseState} {header body : List UInt8} {sent : Nat}
    (tail : InTail response (header.length + body.length) sent)
    (size : response.writeIdx = header.length)
    (present : ∀ index < body.length, response.mappedByte index ≠ none) :
    none ∉ response.offered := by
  have behind := tail.behind
  rw [tail.offered]
  simp only [List.mem_map, List.mem_range, not_exists, not_and]
  intro index below
  exact present _ (by omega)

/-- Behind the header, only bytes of the mapped file are offered. -/
theorem inside {response : ResponseState} {header body : List UInt8} {sent : Nat}
    {results : List WritevResult} {transfer : Transfer}
    (tail : InTail response (header.length + body.length) sent)
    (size : response.writeIdx = header.length) (short : header.length + body.length < 2 ^ 31)
    (present : ∀ index < body.length, response.mappedByte index ≠ none)
    (course : response.Transfers results transfer) : transfer.Inside := by
  induction course generalizing sent with
  | nil => simp [Transfer.Inside]
  | again _ ih =>
      have here := tail.none_not_mem_offered size present
      rw [Transfer.inside_after]
      exact ⟨here, ih tail size present⟩
  | last =>
      have here := tail.none_not_mem_offered size present
      simpa [Transfer.Inside] using here
  | next accepts unfinished _ _ ih =>
      have here := tail.none_not_mem_offered size present
      have nextTail := ((tail.advance accepts short).2.resolve_left fun last =>
        unfinished last.1).2
      rw [Transfer.inside_after]
      refine ⟨here, ih nextTail (by rw [ResponseState.writeIdx_advance, size]) ?_⟩
      intro index below
      rw [mappedByte_advance]
      exact present index below

end InTail

/-! ## Inside the header -/

/-- Behind a last portion of the header, `m_iv[0]` ends `skipped` bytes early.  The
bytes offered then are the response's own, up to the file byte at `sent`, exactly when
the header's skipped bytes and the file begin as the file alone does. -/
def Resumes (header file : List UInt8) (skipped sent : Nat) : Prop :=
  header.length ≤ sent ∧
    header.drop (header.length - skipped) ++ file.take (sent - header.length) =
      file.take (sent - header.length + skipped)

instance (header file : List UInt8) (skipped sent : Nat) :
    Decidable (Resumes header file skipped sent) :=
  inferInstanceAs (Decidable (_ ∧ _))

/-- With nothing skipped, the response resumes anywhere behind the header. -/
@[simp] theorem resumes_zero (header file : List UInt8) (sent : Nat) :
    Resumes header file 0 sent ↔ header.length ≤ sent := by
  simp [Resumes]

/-- The portions after some earlier ones can be sent: where the counts before a
portion add up to less than the header's length and with its own count do not, the
response resumes behind the header. -/
def ResumableFrom (header file : List UInt8) (earlier ends : List Nat) : Prop :=
  ∀ before sent after, ends = before ++ sent :: after →
    (earlier ++ before).sum < header.length →
      header.length ≤ (earlier ++ before).sum + sent →
        Resumes header file (earlier ++ before).dropLast.sum sent

/-- The portions of a file response can be sent. -/
abbrev Resumable (header file : List UInt8) (ends : List Nat) : Prop :=
  ResumableFrom header file [] ends

theorem resumableFrom_nil (header file : List UInt8) (earlier : List Nat) :
    ResumableFrom header file earlier [] := by
  intro before sent after equal
  simp at equal

/-- A portion that stays in the header joins the earlier ones. -/
theorem resumableFrom_cons_of_lt {header file : List UInt8} {earlier ends : List Nat}
    {sent : Nat} (stays : earlier.sum + sent < header.length) :
    ResumableFrom header file earlier (sent :: ends) ↔
      ResumableFrom header file (earlier ++ [sent]) ends := by
  constructor
  · intro resumable before later after equal
    have longer := resumable (sent :: before) later after (by rw [equal]; rfl)
    simpa using longer
  · intro resumable before later after equal inside leaves
    cases before with
    | nil =>
        simp only [List.nil_append, List.cons.injEq] at equal
        obtain ⟨rfl, rfl⟩ := equal
        simp only [List.append_nil] at leaves
        omega
    | cons first before =>
        simp only [List.cons_append, List.cons.injEq] at equal
        obtain ⟨rfl, rfl⟩ := equal
        have shorter := resumable before later after rfl
        simp only [List.append_assoc, List.singleton_append] at shorter
        exact shorter inside leaves

/-- A portion that leaves the header decides. -/
theorem resumableFrom_cons_of_le {header file : List UInt8} {earlier ends : List Nat}
    {sent : Nat} (inside : earlier.sum < header.length)
    (leaves : header.length ≤ earlier.sum + sent) :
    ResumableFrom header file earlier (sent :: ends) ↔
      Resumes header file earlier.dropLast.sum sent := by
  constructor
  · intro resumable
    simpa using resumable [] sent ends rfl (by simpa using inside) (by simpa using leaves)
  · intro resumes before later after equal stillInside _
    cases before with
    | nil =>
        simp only [List.nil_append, List.cons.injEq] at equal
        obtain ⟨rfl, rfl⟩ := equal
        simpa using resumes
    | cons first before =>
        simp only [List.cons_append, List.cons.injEq] at equal
        obtain ⟨rfl, rfl⟩ := equal
        simp only [List.sum_append, List.sum_cons] at stillInside
        omega

/-- The vectors while the header is being sent, after portions that ended at the
counts `earlier`. -/
structure InHeader (response : ResponseState) (header file : List UInt8) (earlier : List Nat)
    (sent : Nat) : Prop where
  writeBuf : response.writeBuf = header
  address : ∃ address, response.fileAddress = .mapped address file
  iv0 : response.iv0 = ⟨.writeBuf sent, header.length - earlier.sum⟩
  iv1 : response.iv1 = ⟨.file response.fileAddress 0, file.length⟩
  ivCount : response.ivCount = 2
  inside : earlier.sum < header.length
  sum : earlier.sum = earlier.dropLast.sum + sent
  bytesToSend : response.bytesToSend = (header.length + file.length : Nat) - (sent : Int)
  bytesHaveSend : response.bytesHaveSend = sent

namespace InHeader

variable {response : ResponseState} {header file : List UInt8} {earlier : List Nat} {sent : Nat}

theorem offered (inHeader : InHeader response header file earlier sent) :
    response.offered =
      ((header.drop sent).take (header.length - earlier.sum) ++ file).map some := by
  obtain ⟨address, mapped⟩ := inHeader.address
  have sum := inHeader.sum
  have inside := inHeader.inside
  have first := response.gather_writeBuf sent (header.length - earlier.sum)
    (by rw [inHeader.writeBuf]; omega)
  have second := @ResponseState.gather_file response address file 0 file.length (by omega)
  simp only [Int.natCast_zero, List.drop_zero, List.take_length] at second
  simp [ResponseState.offered, inHeader.ivCount, inHeader.iv0, inHeader.iv1, mapped, first, second,
    inHeader.writeBuf]

/-- It lies in the response. -/
theorem none_not_mem_offered (inHeader : InHeader response header file earlier sent) :
    none ∉ response.offered := by
  rw [inHeader.offered, List.mem_map]
  rintro ⟨byte, _, missing⟩
  contradiction

theorem offered_length (inHeader : InHeader response header file earlier sent) :
    response.offered.length = header.length - earlier.sum + file.length := by
  have sum := inHeader.sum
  have inside := inHeader.inside
  rw [inHeader.offered]
  simp only [List.length_map, List.length_append, List.length_take, List.length_drop]
  omega

/-- A portion that stays in the header is the next part of it. -/
theorem take_offered_of_lt (inHeader : InHeader response header file earlier sent) {count : Nat}
    (stays : earlier.sum + (sent + count) < header.length) :
    ((header ++ file).take sent).map some ++ response.offered.take count =
      ((header ++ file).take (sent + count)).map some := by
  have sum := inHeader.sum
  have portion : response.offered.take count = ((header.drop sent).take count).map some := by
    rw [inHeader.offered, ← List.map_take, List.take_append_of_le_length, List.take_take,
      Nat.min_eq_left (by omega)]
    simp only [List.length_take, List.length_drop]
    omega
  rw [portion, List.take_append_of_le_length (by omega), List.take_append_of_le_length (by omega),
    ← List.map_append, List.take_add]

/-- A portion that leaves the header continues the response exactly when it resumes
behind the bytes skipped. -/
theorem take_offered_of_le (inHeader : InHeader response header file earlier sent) {count : Nat}
    (behind : header.length ≤ sent + count) :
    ((header ++ file).take sent).map some ++ response.offered.take count =
        ((header ++ file).take (sent + count)).map some ↔
      Resumes header file earlier.dropLast.sum (sent + count) := by
  have sum := inHeader.sum
  have inside := inHeader.inside
  have kept : (header ++ file).take sent ++ (header.drop sent).take (header.length - earlier.sum) =
      header.take (header.length - earlier.dropLast.sum) := by
    rw [List.take_append_of_le_length (by omega), ← List.take_add]
    congr 1
    omega
  have portion : response.offered.take count =
      ((header.drop sent).take (header.length - earlier.sum) ++
        file.take (sent + count - header.length + earlier.dropLast.sum)).map some := by
    rw [inHeader.offered, ← List.map_take, List.take_append, List.take_of_length_le]
    · congr 3
      simp only [List.length_take, List.length_drop]
      omega
    · simp only [List.length_take, List.length_drop]
      omega
  have whole : (header ++ file).take (sent + count) =
      header.take (header.length - earlier.dropLast.sum) ++
        (header.drop (header.length - earlier.dropLast.sum) ++
          file.take (sent + count - header.length)) := by
    rw [List.take_append, List.take_of_length_le behind, ← List.append_assoc,
      List.take_append_drop]
  rw [portion, ← List.map_append, ← List.append_assoc, kept, whole,
    List.map_inj_right (fun _ _ => Option.some.inj), List.append_cancel_left_eq]
  exact ⟨fun equal => ⟨behind, equal.symm⟩, fun resumes => resumes.2.symm⟩

theorem toSend_advance (inHeader : InHeader response header file earlier sent) (count : Nat) :
    (response.advance count).bytesToSend =
      (header.length + file.length : Nat) - ((sent + count : Nat) : Int) := by
  have total := inHeader.bytesToSend
  rw [ResponseState.bytesToSend_advance]
  omega

theorem counted (inHeader : InHeader response header file earlier sent) {count : Nat}
    (accepts : response.Accepts count) (short : header.length + file.length < 2 ^ 31) :
    sent + count + earlier.dropLast.sum ≤ header.length + file.length ∧
      toSizeT (response.bytesHaveSend + count) = sent + count := by
  have inside := accepts.2
  have sum := inHeader.sum
  have below := inHeader.inside
  rw [inHeader.offered_length] at inside
  refine ⟨by omega, ?_⟩
  rw [inHeader.bytesHaveSend, ← Int.natCast_add]
  exact toSizeT_natCast (by omega)

/-- A portion that stays in the header shortens `m_iv[0]` by all bytes sent so far. -/
theorem advance_of_lt (inHeader : InHeader response header file earlier sent) {count : Nat}
    (accepts : response.Accepts count) (short : header.length + file.length < 2 ^ 31)
    (stays : earlier.sum + (sent + count) < header.length) :
    InHeader (response.advance count) header file (earlier ++ [sent + count]) (sent + count) := by
  obtain ⟨_, counted⟩ := inHeader.counted accepts short
  have toSend := inHeader.toSend_advance count
  have partial_ : ¬response.iv0.len ≤ toSizeT (response.bytesHaveSend + count) := by
    rw [counted, inHeader.iv0]
    simp only
    omega
  have haveSend : response.bytesHaveSend + count = (sent + count : Nat) := by
    rw [inHeader.bytesHaveSend]
    omega
  have left : toSizeT ((header.length - earlier.sum : Nat) - ((sent + count : Nat) : Int)) =
      header.length - (earlier ++ [sent + count]).sum := by
    have rest : ((header.length - earlier.sum : Nat) : Int) - ((sent + count : Nat) : Int) =
        (header.length - (earlier ++ [sent + count]).sum : Nat) := by
      simp only [List.sum_append, List.sum_singleton]
      omega
    rw [rest]
    exact toSizeT_natCast (by omega)
  simp only [ResponseState.advance, if_neg partial_] at toSend ⊢
  refine ⟨inHeader.writeBuf, inHeader.address, ?_, inHeader.iv1, inHeader.ivCount, ?_, ?_,
    toSend, haveSend⟩
  · simp only [inHeader.iv0, haveSend, left]
  · simp only [List.sum_append, List.sum_singleton]
    omega
  · simp

/-- A portion that ends inside the header, but not in what is left of `m_iv[0]`, makes
the next `writev` read in front of the mapped file. -/
theorem none_mem_offered_advance (inHeader : InHeader response header file earlier sent)
    {count : Nat} (accepts : response.Accepts count)
    (short : header.length + file.length < 2 ^ 31)
    (leaves : header.length ≤ earlier.sum + (sent + count))
    (before : sent + count < header.length) : none ∈ (response.advance count).offered := by
  obtain ⟨_, counted⟩ := inHeader.counted accepts short
  obtain ⟨address, mapped⟩ := inHeader.address
  have whole : response.iv0.len ≤ toSizeT (response.bytesHaveSend + count) := by
    rw [counted, inHeader.iv0]
    simp only
    omega
  have size : response.writeIdx = header.length := congrArg List.length inHeader.writeBuf
  have toSend : response.bytesToSend - count =
      (header.length + file.length - (sent + count) : Nat) := by
    rw [inHeader.bytesToSend]
    omega
  have length : toSizeT (response.bytesToSend - count) =
      header.length + file.length - (sent + count) := by
    rw [toSend]
    exact toSizeT_natCast (by omega)
  have negative : response.bytesHaveSend + count - (response.writeIdx : Int) < 0 := by
    rw [inHeader.bytesHaveSend, size]
    omega
  have missing := (response.advance count).gather_before_file address file
    negative (show 0 < toSizeT (response.bytesToSend - count) by omega)
  have second : (response.advance count).iv1 = ⟨.file (.mapped address file)
      (response.bytesHaveSend + count - response.writeIdx),
      toSizeT (response.bytesToSend - count)⟩ := by
    simp only [ResponseState.advance, if_pos whole, mapped]
  have vectors : (response.advance count).ivCount = 2 := by
    simp only [ResponseState.advance, if_pos whole]
    exact inHeader.ivCount
  simp only [ResponseState.offered, vectors, List.take_succ_cons, List.take_zero,
    List.flatMap_cons, List.flatMap_nil, List.append_nil, List.mem_append, second]
  exact .inr missing

end InHeader

/-- The first `writev` of a transfer is offered what the vectors denote. -/
theorem ResponseState.Transfers.not_inside {response : ResponseState}
    {results : List WritevResult} {transfer : Transfer}
    (course : response.Transfers results transfer) (missing : none ∈ response.offered)
    (further : results ≠ []) : ¬transfer.Inside := by
  cases course with
  | nil => exact absurd rfl further
  | again =>
      rw [Transfer.inside_after]
      exact fun inside => inside.1 missing
  | last => simp [Transfer.Inside, missing]
  | next =>
      rw [Transfer.inside_after]
      exact fun inside => inside.1 missing

/-- After a portion that reaches the end of the header the mapped file is sent as it is. -/
theorem InHeader.sends_behind {response : ResponseState} {header file : List UInt8}
    {earlier : List Nat} {sent count : Nat} {results : List WritevResult} {transfer : Transfer}
    (inHeader : InHeader response header file earlier sent) (accepts : response.Accepts count)
    (unfinished : ¬(response.advance count).bytesToSend ≤ 0)
    (behind : header.length ≤ sent + count) (short : header.length + file.length < 2 ^ 31)
    (later : (response.advance count).Transfers results transfer) :
    transfer.Inside ∧
      transfer.InOrder (header ++ file) (((header ++ file).take (sent + count)).map some) := by
  have toSend := inHeader.toSend_advance count
  have bounded := (inHeader.counted accepts short).1
  obtain ⟨address, mapped⟩ := inHeader.address
  have size : response.writeIdx = header.length := congrArg List.length inHeader.writeBuf
  have tail : InTail (response.advance count) (header.length + file.length) (sent + count) :=
    ResponseState.inTail_advance inHeader.bytesToSend inHeader.bytesHaveSend
      inHeader.ivCount (by rw [inHeader.iv0]; simp only; omega) (by omega) (by omega) short
  have nextSize : (response.advance count).writeIdx = header.length := by
    rw [ResponseState.writeIdx_advance, size]
  have bytes : ∀ index, (response.advance count).mappedByte index = file[index]? := by
    intro index
    rw [InTail.mappedByte_advance]
    exact response.mappedByte_of_mapped mapped index
  constructor
  · exact tail.inside nextSize short (fun index below => by simp [bytes, below]) later
  · exact (tail.inOrder_iff nextSize short later).mpr fun index _ _ => bytes index

/-- From the header on, a file response is sent exactly when its portions can be. -/
theorem InHeader.sends_iff {response : ResponseState} {header file : List UInt8}
    {earlier : List Nat} {sent : Nat} {results : List WritevResult} {transfer : Transfer}
    (inHeader : InHeader response header file earlier sent)
    (short : header.length + file.length < 2 ^ 31)
    (ran : response.transfer results = some transfer) :
    transfer.Inside ∧ transfer.InOrder (header ++ file) (((header ++ file).take sent).map some) ↔
      ResumableFrom header file earlier (cumulative sent results) := by
  have course := ResponseState.transfers_of_transfer ran
  clear ran
  induction course generalizing earlier sent with
  | nil =>
      exact ⟨fun _ => resumableFrom_nil _ _ _,
        fun _ => ⟨by simp [Transfer.Inside], Transfer.inOrder_nil (map_take_isPrefix _ _)⟩⟩
  | again _ ih =>
      have inside := inHeader.none_not_mem_offered
      rw [Transfer.inside_after, Transfer.inOrder_after, List.take_zero, List.append_nil]
      simp only [inside, not_false_eq_true, map_take_isPrefix, true_and, cumulative]
      exact ih inHeader
  | @last response count accepts finished =>
      have inside := inHeader.none_not_mem_offered
      have toSend := inHeader.toSend_advance count
      have bounded := (inHeader.counted accepts short).1
      have below := inHeader.inside
      have all : sent + count = (header ++ file).length := by
        rw [List.length_append]
        omega
      have resumes := inHeader.take_offered_of_le (show header.length ≤ sent + count by
        rw [all, List.length_append]
        omega)
      rw [all, List.take_length] at resumes
      simp only [cumulative]
      rw [resumableFrom_cons_of_le below (by rw [all, List.length_append]; omega),
        Transfer.inOrder_last, resumes, all]
      exact ⟨And.right, fun resumed => ⟨by simpa [Transfer.Inside] using inside, resumed⟩⟩
  | @next response count results rest accepts unfinished further later ih =>
      have inside := inHeader.none_not_mem_offered
      have below := inHeader.inside
      simp only [cumulative]
      by_cases stays : earlier.sum + (sent + count) < header.length
      · rw [Transfer.inside_after, Transfer.inOrder_after,
          inHeader.take_offered_of_lt stays, resumableFrom_cons_of_lt stays]
        simp only [inside, not_false_eq_true, map_take_isPrefix, true_and]
        exact ih (inHeader.advance_of_lt accepts short stays)
      · have leaves : header.length ≤ earlier.sum + (sent + count) := by omega
        rw [resumableFrom_cons_of_le below leaves]
        by_cases before : sent + count < header.length
        · have outside := later.not_inside
            (inHeader.none_mem_offered_advance accepts short leaves before) further
          rw [Transfer.inside_after]
          exact ⟨fun sends => absurd sends.1.2 outside, fun resumes => absurd resumes.1 (by omega)⟩
        · have behind : header.length ≤ sent + count := by omega
          have resumes := inHeader.take_offered_of_le behind
          have bounded := (inHeader.counted accepts short).1
          have fits : sent + count ≤ (header ++ file).length := by
            rw [List.length_append]
            omega
          have taken : (response.offered.take count).length = count := by
            rw [List.length_take]
            exact Nat.min_eq_left accepts.2
          obtain ⟨onlyFile, ordered⟩ :=
            inHeader.sends_behind accepts unfinished behind short later
          rw [Transfer.inside_after, Transfer.inOrder_after]
          constructor
          · rintro ⟨_, _, continued⟩
            exact resumes.mp (eq_take_of_isPrefix fits taken
              (by simpa using continued.prefixes [] List.nil_prefix))
          · intro resumed
            rw [resumes.mpr resumed]
            exact ⟨⟨inside, onlyFile⟩, map_take_isPrefix _ _, ordered⟩

/-- The slot for a file is at the beginning of its header. -/
theorem FileReady.inHeader {response : ResponseState} {header file : List UInt8}
    (ready : FileReady response header file) (nonempty : header ≠ []) :
    InHeader response header file [] 0 where
  writeBuf := ready.writeBuf
  address := ready.address
  iv0 := ready.iv0
  iv1 := ready.iv1
  ivCount := ready.ivCount
  inside := List.length_pos_iff.mpr nonempty
  sum := rfl
  bytesToSend := by simp [ready.bytesToSend]
  bytesHaveSend := ready.bytesHaveSend

/-- **Exactly the resumable portions send a file response.**  The bytes accepted are
at all times a prefix of the header and the file, no other byte is offered, and in the
end everything was sent, if and only if the first portion that leaves the header finds
the place where the response goes on. -/
theorem HttpConn.file_sends_iff {conn : HttpConn} {header file : List UInt8}
    {calls : List (List WritevResult)} {transfer : Transfer}
    (ready : FileReady conn.toResponseState header file) (nonempty : header ≠ [])
    (short : header.length + file.length < 2 ^ 31)
    (called : conn.writeCalls calls = some transfer) :
    transfer.Inside ∧ transfer.InOrder (header ++ file) [] ↔
      Resumable header file (cumulative 0 calls.flatten) := by
  have positive := List.length_pos_iff.mpr nonempty
  have toSend : 0 < conn.bytesToSend := by
    rw [ready.bytesToSend]
    omega
  exact (ready.inHeader nonempty).sends_iff short (HttpConn.transfer_of_writeCalls toSend called)

/-- The header of a file with five bytes. -/
def sampleHeader : List UInt8 :=
  ascii "HTTP/1.1 200 OK\r\nContent-Length:5\r\nConnection:close\r\n\r\n"

/-- A slot that has prepared a file with five bytes. -/
def fileSlot : HttpConn :=
  { HttpConn.blank with
    toResponseState := (ResponseState.processWrite { HttpConn.blank.toResponseState with
      fileAddress := .mapped 4096 (ascii "hello")
      fileStat := { size := 5, othersRead := true, isDir := false, inode := 0 } }
      false .fileRequest).2 }

theorem fileSlot_ready : FileReady fileSlot.toResponseState sampleHeader (ascii "hello") :=
  ⟨by decide, ⟨4096, rfl⟩, by decide, by decide, rfl, by decide, rfl⟩

/-- A portion of the header, an attempt that finds the socket full, and then all the
rest. -/
theorem file_sends_iff_two_portions :
    ∃ transfer, fileSlot.writeCalls [[.accepted 30, .again], [.accepted 30]] = some transfer ∧
      transfer.Inside ∧ transfer.InOrder (sampleHeader ++ ascii "hello") [] := by
  have ran : (fileSlot.writeCalls [[.accepted 30, .again], [.accepted 30]]).isSome = true := by
    decide
  obtain ⟨transfer, called⟩ := Option.isSome_iff_exists.mp ran
  refine ⟨transfer, called, ?_⟩
  refine (fileSlot.file_sends_iff fileSlot_ready (by decide) (by decide) called).mpr ?_
  exact (resumableFrom_cons_of_lt (by decide)).mpr
    ((resumableFrom_cons_of_le (by decide) (by decide)).mpr (by decide))

/-- Thirty bytes of the header and then ten more make the next `writev` read fifteen
bytes in front of the mapped file. -/
theorem file_not_inside :
    FileReady fileSlot.toResponseState sampleHeader (ascii "hello") ∧
      ∃ transfer, fileSlot.writeCalls [[.accepted 30, .accepted 10, .again]] = some transfer ∧
        ¬transfer.Inside := by
  refine ⟨fileSlot_ready, _, rfl, ?_⟩
  unfold Transfer.Inside
  decide

/-! ## Generated bodies -/

/-- The slot `process_write(DIAGNOSE_CSV_REQUEST)` prepares. -/
structure CsvReady (response : ResponseState) (header : List UInt8) : Prop where
  writeBuf : response.writeBuf = header
  iv0 : response.iv0 = ⟨.writeBuf 0, header.length⟩
  iv1 : response.iv1 = ⟨.csv 0, response.responseCsv.length⟩
  ivCount : response.ivCount = 2
  bytesToSend : response.bytesToSend = header.length + response.responseCsv.length
  bytesHaveSend : response.bytesHaveSend = 0

theorem csvReady_queueBody {response : ResponseState} (fresh : response.bytesHaveSend = 0)
    (short : response.writeIdx + response.responseCsv.length < 2 ^ 31) :
    CsvReady (response.queueBody (.csv 0) response.responseCsv.length) response.writeBuf where
  writeBuf := rfl
  iv0 := rfl
  iv1 := rfl
  ivCount := rfl
  bytesToSend := by
    simp only [ResponseState.queueBody]
    exact toInt32_of_lt (by omega) (by omega)
  bytesHaveSend := fresh

theorem ResponseState.csvReady_processWrite {response : ResponseState} (linger : Bool)
    (fresh : response.bytesHaveSend = 0)
    (short : (response.processWrite linger .diagnoseCsvRequest).2.writeIdx +
      response.responseCsv.length < 2 ^ 31) :
    (response.processWrite linger .diagnoseCsvRequest).1 = true ∧
      CsvReady (response.processWrite linger .diagnoseCsvRequest).2
        (response.processWrite linger .diagnoseCsvRequest).2.writeBuf ∧
      (response.processWrite linger .diagnoseCsvRequest).2.responseCsv =
        response.responseCsv := by
  have headers := extends_csvHeader response linger
  simp only [processWrite] at short ⊢
  generalize response.csvHeader linger = prepared at short headers ⊢
  obtain ⟨appended, rfl⟩ := headers
  exact ⟨trivial, csvReady_queueBody fresh short, rfl⟩

namespace CsvReady

variable {response : ResponseState} {header : List UInt8}

theorem offered (ready : CsvReady response header) :
    response.offered = (header ++ response.responseCsv).map some := by
  have first := response.gather_writeBuf 0 header.length (by rw [ready.writeBuf]; omega)
  have second := response.gather_csv 0 response.responseCsv.length (by omega)
  simp only [Int.natCast_zero, List.drop_zero, ready.writeBuf, List.take_length] at first second
  simp [ResponseState.offered, ready.ivCount, ready.iv0, ready.iv1, first, second]

/-- If the first `writev` that accepts something accepts the header, the response is
sent in order exactly when the later ones find the bytes of the body in the mapped
file. -/
theorem inOrder_iff {results : List WritevResult} {transfer : Transfer}
    (ready : CsvReady response header)
    (short : header.length + response.responseCsv.length < 2 ^ 31)
    (whole : ∀ first ∈ (cumulative 0 results).head?, header.length ≤ first)
    (ran : response.transfer results = some transfer) :
    transfer.InOrder (header ++ response.responseCsv) [] ↔
      ∀ index, (cumulative 0 results).headD 0 ≤ header.length + index →
        header.length + index < (cumulative 0 results).getLastD 0 →
          response.mappedByte index = response.responseCsv[index]? := by
  have course := ResponseState.transfers_of_transfer ran
  clear ran
  have toSend : ∀ count : Nat, (response.advance count).bytesToSend =
      (header.length + response.responseCsv.length : Nat) - (count : Int) := by
    intro count
    have total := ready.bytesToSend
    rw [ResponseState.bytesToSend_advance]
    omega
  induction course with
  | nil =>
      simp only [cumulative, List.getLastD_nil]
      exact ⟨fun _ index _ high => by omega, fun _ => Transfer.inOrder_nil List.nil_prefix⟩
  | again _ ih =>
      rw [Transfer.inOrder_after, List.take_zero, List.append_nil]
      simp only [List.nil_prefix, true_and, cumulative]
      exact ih ready short whole toSend
  | @last response count accepts finished =>
      have inside := accepts.2
      rw [ready.offered, List.length_map, List.length_append] at inside
      have left := toSend count
      have all : count = (header ++ response.responseCsv).length := by
        rw [List.length_append]
        omega
      have taken : response.offered.take count = (header ++ response.responseCsv).map some := by
        rw [ready.offered, all, ← List.map_take, List.take_length]
      simp only [cumulative, Nat.zero_add, List.headD_cons, List.getLastD_cons, List.getLastD_nil]
      rw [Transfer.inOrder_last, taken, List.nil_append]
      simp only [true_iff]
      exact fun index low high => by omega
  | @next response count results rest accepts unfinished further later _ =>
      simp only [cumulative, Nat.zero_add] at whole ⊢
      have headerSent : header.length ≤ count := whole count rfl
      have size : response.writeIdx = header.length := congrArg List.length ready.writeBuf
      have inside := accepts.2
      rw [ready.offered, List.length_map, List.length_append] at inside
      have taken : response.offered.take count =
          ((header ++ response.responseCsv).take count).map some := by
        rw [ready.offered, List.map_take]
      have left := toSend count
      have tail : InTail (response.advance count)
          (header.length + response.responseCsv.length) (0 + count) :=
        ResponseState.inTail_advance (by rw [ready.bytesToSend]; simp)
          (by rw [ready.bytesHaveSend]; rfl) ready.ivCount
          (by rw [ready.iv0]; simp only; omega) (by omega) (by omega) short
      rw [Nat.zero_add] at tail
      have behind := tail.inOrder_iff (by rw [ResponseState.writeIdx_advance, size]) short later
      simp only [InTail.mappedByte_advance] at behind
      rw [Transfer.inOrder_after, List.nil_append, taken, behind]
      simp only [List.nil_prefix, true_and, List.headD_cons, List.getLastD_cons]

end CsvReady

/-- **A generated body survives partial writes exactly when the mapped file has its
bytes.**  After a first `writev` that accepts the whole header, every byte of the body
that a later one sends has to read the same through `m_file_address`; in particular
nothing must be left to send. -/
theorem HttpConn.csv_inOrder_iff {conn : HttpConn} {header : List UInt8}
    {calls : List (List WritevResult)} {transfer : Transfer}
    (ready : CsvReady conn.toResponseState header) (nonempty : header ≠ [])
    (short : header.length + conn.responseCsv.length < 2 ^ 31)
    (whole : ∀ first ∈ (cumulative 0 calls.flatten).head?, header.length ≤ first)
    (called : conn.writeCalls calls = some transfer) :
    transfer.InOrder (header ++ conn.responseCsv) [] ↔
      ∀ index, (cumulative 0 calls.flatten).headD 0 ≤ header.length + index →
        header.length + index < (cumulative 0 calls.flatten).getLastD 0 →
          conn.mappedByte index = conn.responseCsv[index]? := by
  have positive := List.length_pos_iff.mpr nonempty
  have toSend : 0 < conn.bytesToSend := by
    rw [ready.bytesToSend]
    omega
  exact ready.inOrder_iff short whole (HttpConn.transfer_of_writeCalls toSend called)

/-- A slot that has prepared a generated body; the mapping of an earlier file is still
there. -/
def csvSlot : HttpConn :=
  { HttpConn.blank with
    toResponseState := (ResponseState.processWrite { HttpConn.blank.toResponseState with
      fileAddress := .mapped 4096 (ascii "secret")
      responseCsv := ascii "1,2,3\n" }
      false .diagnoseCsvRequest).2 }

theorem csvSlot_ready : CsvReady csvSlot.toResponseState csvSlot.writeBuf :=
  ⟨rfl, rfl, rfl, rfl, by decide +kernel, rfl⟩

/-- Taken at once, the body arrives. -/
theorem csv_inOrder_iff_at_once :
    ∃ transfer, csvSlot.writeCalls [[.again], [.accepted (csvSlot.writeBuf.length + 6)]] =
        some transfer ∧
      transfer.InOrder (csvSlot.writeBuf ++ ascii "1,2,3\n") [] := by
  have ran : (csvSlot.writeCalls
      [[.again], [.accepted (csvSlot.writeBuf.length + 6)]]).isSome = true := by
    decide +kernel
  obtain ⟨transfer, called⟩ := Option.isSome_iff_exists.mp ran
  refine ⟨transfer, called, (csvSlot.csv_inOrder_iff csvSlot_ready (by decide +kernel)
    (by decide +kernel) (by decide +kernel) called).mpr ?_⟩
  intro index low high
  simp [cumulative] at low high
  omega

/-- Taken in two portions, its second half is replaced by that of the earlier file. -/
theorem csv_not_inOrder :
    CsvReady csvSlot.toResponseState csvSlot.writeBuf ∧
      ∃ transfer, csvSlot.writeCalls
          [[.accepted (csvSlot.writeBuf.length + 3), .again], [.accepted 3]] = some transfer ∧
        acceptedBytes transfer.writevs =
          (csvSlot.writeBuf ++ ascii "1,2ret").map some ∧
        ¬transfer.InOrder (csvSlot.writeBuf ++ ascii "1,2,3\n") [] := by
  have ran : (csvSlot.writeCalls
        [[.accepted (csvSlot.writeBuf.length + 3), .again], [.accepted 3]]).map
          (fun transfer => (transfer.complete, acceptedBytes transfer.writevs)) =
      some (true, (csvSlot.writeBuf ++ ascii "1,2ret").map some) := by
    decide +kernel
  obtain ⟨transfer, called, outcome⟩ := Option.map_eq_some_iff.mp ran
  obtain ⟨completed, sent⟩ := Prod.mk.inj outcome
  refine ⟨csvSlot_ready, transfer, called, sent, ?_⟩
  rintro ⟨_, complete⟩
  have whole := complete completed
  rw [List.nil_append, sent] at whole
  exact absurd whole (by decide +kernel)

end TimeGANWebServer.Http
