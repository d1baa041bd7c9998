import TimeGANWebServer.Http.Parser

/-!
# Scanning a line

`parse_line` from any ordered cursors, whatever was scanned before.  Its loop is run here with
a record of the bytes it reads, and more bytes may come between its calls.
-/

namespace TimeGANWebServer.Http

open TimeGANWebServer.Support

/-- The loop of `parse_line`, with the indices of `m_read_buf` it has read so far. -/
structure LineLoop where
  request : RequestState
  reads : List Int

/-- One pass through the loop of `parse_line`. -/
def LineLoop.pass (loop : LineLoop) : Pass LineLoop ((LineStatus × RequestState) × List Int) :=
  let request := loop.request
  if request.checkedIdx < request.readIdx then
    let temp := request.readBuf request.checkedIdx
    let reads := loop.reads ++ [request.checkedIdx]
    if temp = 13 then
      if request.checkedIdx + 1 = request.readIdx then
        .done ((.open, request), reads)
      else
        let reads := reads ++ [request.checkedIdx + 1]
        if request.readBuf (request.checkedIdx + 1) = 10 then
          .done ((.ok, { request with
            readBuf := (request.readBuf.set request.checkedIdx 0).set (request.checkedIdx + 1) 0
            checkedIdx := request.checkedIdx + 2 }), reads)
        else
          .done ((.bad, request), reads)
    else if temp = 10 then
      if 1 < request.checkedIdx then
        let reads := reads ++ [request.checkedIdx - 1]
        if request.readBuf (request.checkedIdx - 1) = 13 then
          .done ((.ok, { request with
            readBuf := (request.readBuf.set (request.checkedIdx - 1) 0).set request.checkedIdx 0
            checkedIdx := request.checkedIdx + 1 }), reads)
        else
          .done ((.bad, request), reads)
      else
        .done ((.bad, request), reads)
    else
      .again ⟨{ request with checkedIdx := request.checkedIdx + 1 }, reads⟩
  else
    .done ((.open, loop.request), loop.reads)

namespace RequestState

/-- More bytes of the buffer count as received. -/
def extend (request : RequestState) (more : Nat) : RequestState :=
  { request with readIdx := request.readIdx + more }

/-- `parse_line` is called after each extension until it returns something other than
`LINE_OPEN`. -/
def resumeLine (request : RequestState) : List Nat → LineStatus × RequestState
  | [] => (.open, request)
  | more :: later =>
      match (request.extend more).parseLine with
      | (.open, next) => next.resumeLine later
      | stopped => stopped

/-- The cursors are ordered. -/
structure Ordered (request : RequestState) : Prop where
  start : 0 ≤ request.startLine
  checked : request.startLine ≤ request.checkedIdx
  read : request.checkedIdx ≤ request.readIdx
  room : request.readIdx ≤ readBufferSize

/-- What one call of `parse_line` leaves behind. -/
structure LineCall (request : RequestState) (result : LineStatus × RequestState) : Prop where
  frame : ∃ readBuf checkedIdx,
    result.2 = { request with readBuf := readBuf, checkedIdx := checkedIdx }
  forward : request.checkedIdx ≤ result.2.checkedIdx
  inside : result.2.checkedIdx ≤ request.readIdx
  unchanged : result.1 ≠ .ok → result.2.readBuf = request.readBuf
  ended : result.1 = .ok → ∃ index, 0 ≤ index ∧ request.checkedIdx ≤ index + 1 ∧
    request.readBuf index = 13 ∧ request.readBuf (index + 1) = 10 ∧
    result.2.readBuf = (request.readBuf.set index 0).set (index + 1) 0 ∧
    result.2.checkedIdx = index + 2

/-- What `parse_line` guarantees: its loop terminates and reads received bytes only, it leaves the
cursors ordered, it writes over the end of a line only, and it can be resumed. -/
structure ScansLine (request : RequestState) : Prop where
  terminates : ∃ reads, (∀ index ∈ reads, 0 ≤ index ∧ index < request.readIdx) ∧
    ∀ bound, (request.readIdx - request.checkedIdx).toNat < bound →
      Loop.iterate LineLoop.pass bound ⟨request, []⟩ = some (request.parseLine, reads)
  ordered : request.parseLine.2.Ordered
  call : LineCall request request.parseLine
  resumes : ∀ extensions : List Nat, extensions ≠ [] →
    request.readIdx + extensions.sum ≤ readBufferSize →
      (request.resumeLine extensions).1 = (request.extend extensions.sum).parseLine.1 ∧
      (request.resumeLine extensions).2.checkedIdx =
        (request.extend extensions.sum).parseLine.2.checkedIdx ∧
      (request.resumeLine extensions).2.readBuf =
        (request.extend extensions.sum).parseLine.2.readBuf

/-! ## One call -/

/-- The loop comes to the result of `parse_line` and reads no byte that was not received. -/
theorem iterate_pass {left : Nat} {request : RequestState} (log : List Int)
    (size : left = (request.readIdx - request.checkedIdx).toNat)
    (start : 0 ≤ request.checkedIdx) :
    ∃ reads, (∀ index ∈ reads, 0 ≤ index ∧ index < request.readIdx) ∧
      ∀ bound, left < bound → Loop.iterate LineLoop.pass bound ⟨request, log⟩ =
        some (parseLineLoop left request, log ++ reads) := by
  induction left generalizing request log with
  | zero =>
      have nothing : ¬request.checkedIdx < request.readIdx := by omega
      refine ⟨[], List.forall_mem_nil _, fun bound enough => Loop.iterate_of_done enough ?_⟩
      simp only [LineLoop.pass, if_neg nothing, parseLineLoop, List.append_nil]
  | succ left ih =>
      have more : request.checkedIdx < request.readIdx := by omega
      have done : ∀ reads, (∀ index ∈ reads, 0 ≤ index ∧ index < request.readIdx) →
          LineLoop.pass ⟨request, log⟩ = .done (parseLineLoop (left + 1) request, log ++ reads) →
          ∃ reads, (∀ index ∈ reads, 0 ≤ index ∧ index < request.readIdx) ∧
            ∀ bound, left + 1 < bound → Loop.iterate LineLoop.pass bound ⟨request, log⟩ =
              some (parseLineLoop (left + 1) request, log ++ reads) :=
        fun reads inside passed =>
          ⟨reads, inside, fun bound enough => Loop.iterate_of_done (by omega) passed⟩
      by_cases carriage : request.readBuf request.checkedIdx = 13
      · by_cases last : request.checkedIdx + 1 = request.readIdx
        · refine done [request.checkedIdx] (by simp; omega) ?_
          simp only [LineLoop.pass, if_pos more, parseLineLoop, if_pos carriage, if_pos last]
        · refine done [request.checkedIdx, request.checkedIdx + 1] (by simp; omega) ?_
          simp only [LineLoop.pass, if_pos more, parseLineLoop, if_pos carriage, if_neg last,
            List.append_assoc, List.cons_append, List.nil_append]
          by_cases feed : request.readBuf (request.checkedIdx + 1) = 10
          · simp only [if_pos feed]
          · simp only [if_neg feed]
      · by_cases feed : request.readBuf request.checkedIdx = 10
        · by_cases further : 1 < request.checkedIdx
          · refine done [request.checkedIdx, request.checkedIdx - 1] (by simp; omega) ?_
            simp only [LineLoop.pass, if_pos more, parseLineLoop, if_neg carriage, if_pos feed,
              further, true_and, if_true, List.append_assoc, List.cons_append, List.nil_append]
            by_cases before : request.readBuf (request.checkedIdx - 1) = 13
            · simp only [if_pos before]
            · simp only [if_neg before]
          · refine done [request.checkedIdx] (by simp; omega) ?_
            simp only [LineLoop.pass, if_pos more, parseLineLoop, if_neg carriage, if_pos feed,
              further, false_and, if_false]
        · obtain ⟨reads, inside, ran⟩ := @ih { request with checkedIdx := request.checkedIdx + 1 }
            (log ++ [request.checkedIdx]) (by simp only; omega) (by simp only; omega)
          refine ⟨request.checkedIdx :: reads, ?_, fun bound enough => ?_⟩
          · rintro index (_ | ⟨_, member⟩)
            · exact ⟨start, more⟩
            · exact inside index member
          · obtain ⟨smaller, rfl⟩ : ∃ smaller, bound = smaller + 1 := ⟨bound - 1, by omega⟩
            have passed : LineLoop.pass ⟨request, log⟩ =
                .again ⟨{ request with checkedIdx := request.checkedIdx + 1 },
                  log ++ [request.checkedIdx]⟩ := by
              simp only [LineLoop.pass, if_pos more, if_neg carriage, if_neg feed]
            rw [Loop.iterate_of_again passed, ran smaller (by omega), parseLineLoop,
              List.append_assoc]
            simp only [if_neg carriage, if_neg feed]
            rfl

/-- A byte that `parse_line` passes over. -/
theorem LineCall.cons {request : RequestState} {result : LineStatus × RequestState}
    (call : LineCall { request with checkedIdx := request.checkedIdx + 1 } result) :
    LineCall request result where
  frame := call.frame
  forward := by
    have forward := call.forward
    simp only at forward
    omega
  inside := call.inside
  unchanged := call.unchanged
  ended ok := by
    obtain ⟨index, low, behind, carriage, feed, readBuf, checkedIdx⟩ := call.ended ok
    simp only at behind
    exact ⟨index, low, by omega, carriage, feed, readBuf, checkedIdx⟩

/-- A call that stops where it began. -/
theorem LineCall.stay {request : RequestState} {lineStatus : LineStatus}
    (notOk : lineStatus ≠ .ok) (read : request.checkedIdx ≤ request.readIdx) :
    LineCall request (lineStatus, request) where
  frame := ⟨request.readBuf, request.checkedIdx, rfl⟩
  forward := Int.le_refl _
  inside := read
  unchanged _ := rfl
  ended ok := absurd ok notOk

/-- A call that finds the end of a line. -/
theorem LineCall.line {request : RequestState} {index : Int} (low : 0 ≤ index)
    (behind : request.checkedIdx ≤ index + 1) (received : index + 1 < request.readIdx)
    (carriage : request.readBuf index = 13) (feed : request.readBuf (index + 1) = 10) :
    LineCall request (.ok, { request with
      readBuf := (request.readBuf.set index 0).set (index + 1) 0
      checkedIdx := index + 2 }) where
  frame := ⟨_, _, rfl⟩
  forward := by simp only; omega
  inside := by simp only; omega
  unchanged notOk := absurd rfl notOk
  ended _ := ⟨index, low, behind, carriage, feed, rfl, rfl⟩

theorem lineCall_parseLineLoop {left : Nat} {request : RequestState}
    (size : left = (request.readIdx - request.checkedIdx).toNat)
    (start : 0 ≤ request.checkedIdx) (read : request.checkedIdx ≤ request.readIdx) :
    LineCall request (parseLineLoop left request) := by
  induction left generalizing request with
  | zero => exact .stay LineStatus.noConfusion read
  | succ left ih =>
      rw [parseLineLoop]
      split
      case isTrue carriage =>
          split
          · exact .stay LineStatus.noConfusion read
          case isFalse more =>
              split
              case isTrue feed => exact .line start (by omega) (by omega) carriage feed
              case isFalse => exact .stay LineStatus.noConfusion read
      case isFalse =>
          split
          case isTrue feed =>
              split
              case isTrue before =>
                  -- the carriage return was scanned by an earlier call
                  have index : request.checkedIdx - 1 + 1 = request.checkedIdx := by omega
                  have line := @LineCall.line request (request.checkedIdx - 1) (by omega)
                    (by omega) (by omega) before.2 (index.symm ▸ feed)
                  have behind : request.checkedIdx - 1 + 2 = request.checkedIdx + 1 := by omega
                  rwa [index, behind] at line
              case isFalse => exact .stay LineStatus.noConfusion read
          case isFalse =>
              exact .cons (ih (by simp only; omega) (by simp only; omega) (by simp only; omega))

theorem LineCall.ordered {request : RequestState} {result : LineStatus × RequestState}
    (ordered : request.Ordered) (call : LineCall request result) : result.2.Ordered := by
  obtain ⟨readBuf, checkedIdx, same⟩ := call.frame
  have forward := call.forward
  have inside := call.inside
  rw [same] at forward inside ⊢
  exact ⟨ordered.start, Int.le_trans ordered.checked forward, inside, ordered.room⟩

/-! ## Extensions -/

@[simp] theorem extend_extend (request : RequestState) (more later : Nat) :
    (request.extend more).extend later = request.extend (more + later) := by
  simp only [extend, Int.natCast_add, Int.add_assoc]

/-- `parse_line` after an extension, as a loop. -/
theorem parseLineLoop_extend_eq {left : Nat} {request : RequestState} (more : Nat)
    (size : left = (request.readIdx - request.checkedIdx).toNat)
    (read : request.checkedIdx ≤ request.readIdx) :
    parseLineLoop (left + more) (request.extend more) = (request.extend more).parseLine := by
  rw [parseLine]
  congr 1
  simp only [extend]
  omega

@[simp] theorem extend_zero (request : RequestState) : request.extend 0 = request := by
  simp only [extend, Int.natCast_zero, Int.add_zero]

/-- With more bytes the loop goes on where it came to the end, and stops where it stopped. -/
theorem parseLineLoop_extend {left : Nat} {request : RequestState} (more : Nat)
    (size : left = (request.readIdx - request.checkedIdx).toNat)
    (read : request.checkedIdx ≤ request.readIdx) :
    parseLineLoop (left + more) (request.extend more) =
      match parseLineLoop left request with
      | (.open, next) => (next.extend more).parseLine
      | (lineStatus, next) => (lineStatus, next.extend more) := by
  induction left generalizing request with
  | zero => exact parseLineLoop_extend_eq more size read
  | succ left ih =>
      have next : left + 1 + more = left + more + 1 := by omega
      have received : request.checkedIdx < request.readIdx := by omega
      by_cases carriage : request.readBuf request.checkedIdx = 13
      · by_cases last : request.checkedIdx + 1 = request.readIdx
        · -- the carriage return is scanned again
          rw [parseLineLoop_extend_eq more size read, parseLineLoop]
          simp only [if_pos carriage, if_pos last]
        · have longer : (request.extend more).checkedIdx + 1 ≠ (request.extend more).readIdx := by
            simp only [extend]
            omega
          rw [next, parseLineLoop, parseLineLoop]
          simp only [if_neg last, if_neg longer]
          by_cases feed : request.readBuf (request.checkedIdx + 1) = 10
          · simp only [extend, carriage, feed, if_true]
          · simp only [extend, carriage, feed, if_true, if_false]
      · rw [next, parseLineLoop, parseLineLoop]
        by_cases feed : request.readBuf request.checkedIdx = 10
        · by_cases before : 1 < request.checkedIdx ∧ request.readBuf (request.checkedIdx - 1) = 13
          · simp only [extend, carriage, if_false]
            simp only [feed, before, and_self, if_true]
          · simp only [extend, carriage, if_false]
            simp only [feed, before, if_true, if_false]
        · simp only [if_neg carriage, if_neg feed]
          simp only [extend, carriage, feed, if_false]
          exact @ih { request with checkedIdx := request.checkedIdx + 1 }
            (by simp only; omega) (by simp only; omega)

/-- `parse_line` can be resumed after one extension. -/
theorem parseLine_extend {request : RequestState} (more : Nat)
    (read : request.checkedIdx ≤ request.readIdx) :
    (request.extend more).parseLine =
      match request.parseLine with
      | (.open, next) => (next.extend more).parseLine
      | (lineStatus, next) => (lineStatus, next.extend more) := by
  rw [← parseLineLoop_extend_eq more rfl read]
  exact parseLineLoop_extend more rfl read

/-- So it can after any extensions. -/
theorem resumeLine_eq {request : RequestState} {extensions : List Nat} (some_ : extensions ≠ [])
    (start : 0 ≤ request.checkedIdx) (read : request.checkedIdx ≤ request.readIdx) :
    ∃ rest, (request.extend extensions.sum).parseLine =
      ((request.resumeLine extensions).1, (request.resumeLine extensions).2.extend rest) := by
  induction extensions generalizing request with
  | nil => exact absurd rfl some_
  | cons more later ih =>
      have longer : (request.extend more).checkedIdx ≤ (request.extend more).readIdx := by
        simp only [extend]
        omega
      have call : LineCall (request.extend more) (request.extend more).parseLine :=
        lineCall_parseLineLoop rfl start longer
      have resumed := @parseLine_extend (request.extend more) later.sum longer
      rw [extend_extend] at resumed
      rw [List.sum_cons, resumeLine]
      cases parsed : (request.extend more).parseLine with
      | mk lineStatus next =>
          rw [parsed] at call resumed
          obtain ⟨readBuf, checkedIdx, same⟩ := call.frame
          simp only at same
          cases lineStatus with
          | ok => exact ⟨later.sum, resumed⟩
          | bad => exact ⟨later.sum, resumed⟩
          | «open» =>
              have forward := call.forward
              have inside := call.inside
              by_cases nothing : later = []
              · subst nothing
                exact ⟨0, by rw [List.sum_nil, Nat.add_zero, parsed, extend_zero]; rfl⟩
              · rw [resumed]
                refine ih nothing ?_ ?_
                · exact Int.le_trans start forward
                · rw [same] at inside ⊢
                  exact inside

/-! ## Every call -/

theorem Ordered.scansLine {request : RequestState} (ordered : request.Ordered) :
    request.ScansLine := by
  have start : 0 ≤ request.checkedIdx := Int.le_trans ordered.start ordered.checked
  have call : LineCall request request.parseLine :=
    lineCall_parseLineLoop rfl start ordered.read
  refine ⟨?_, call.ordered ordered, call, ?_⟩
  · obtain ⟨reads, inside, ran⟩ := iterate_pass [] rfl start
    exact ⟨reads, inside, ran⟩
  · intro extensions some_ _
    obtain ⟨rest, same⟩ := resumeLine_eq some_ start ordered.read
    rw [same]
    exact ⟨rfl, rfl, rfl⟩

/-- A header line of which all but the line feed has been received. -/
def splitLine : RequestState :=
  { HttpConn.blank.toRequestState with
    readBuf := Memory.store (fun _ => 0) 0 (ascii "Host:a\r\n")
    readIdx := 7 }

/-- The carriage return waits for its line feed, which comes behind an empty extension. -/
theorem scansLine_splitLine :
    splitLine.parseLine.1 = .open ∧ (splitLine.resumeLine [0, 1]).1 = .ok ∧
      splitLine.ScansLine := by
  refine ⟨by decide, by decide, Ordered.scansLine ⟨?_, ?_, ?_, ?_⟩⟩
  · decide
  · decide
  · decide
  · decide

end RequestState

end TimeGANWebServer.Http
