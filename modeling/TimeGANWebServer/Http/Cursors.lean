import TimeGANWebServer.Http.Scan

/-!
# Cursors

`m_start_line`, `m_checked_idx` and `m_read_idx` stand in this order inside of the read
buffer.  `parse_line` goes on to the first byte that is a carriage return or a line feed,
so that more bytes behind the received ones change nothing of what it did before.
-/

namespace TimeGANWebServer.Http

open TimeGANWebServer.Support

namespace RequestState

/-- The cursors are ordered, and `parse_line` has passed over no carriage return. -/
structure Cursors (request : RequestState) : Prop where
  start : 0 ≤ request.startLine
  checked : request.startLine ≤ request.checkedIdx
  read : request.checkedIdx ≤ request.readIdx
  room : request.readIdx ≤ readBufferSize
  before : 1 < request.checkedIdx → request.readBuf (request.checkedIdx - 1) ≠ 13

theorem init_cursors (slot : RequestState) : slot.init.Cursors :=
  ⟨Int.le_refl 0, Int.le_refl 0, Int.le_refl 0, (by decide : (0 : Int) ≤ readBufferSize), nofun⟩

/-- Received bytes leave the other cursors where they are. -/
theorem Cursors.receive {request : RequestState} (cursors : request.Cursors) {chunk : List UInt8}
    (room : request.readIdx + chunk.length ≤ readBufferSize) :
    (request.receive chunk).Cursors where
  start := cursors.start
  checked := cursors.checked
  read := by
    have read := cursors.read
    simp only [RequestState.receive]
    omega
  room := room
  before further := by
    have read := cursors.read
    simp only [RequestState.receive]
    rw [Memory.store_of_lt (by omega)]
    exact cursors.before further

/-! ## Scanning a line -/

/-- `parse_line` at the end of a line, whose carriage return is at an index. -/
def endLine (request : RequestState) (index : Int) : RequestState :=
  { request with
    readBuf := (request.readBuf.set index 0).set (index + 1) 0
    checkedIdx := index + 2 }

/-- The bytes from `m_checked_idx` up to an index are plain and have been received. -/
structure Passes (request : RequestState) (index : Int) : Prop where
  low : request.checkedIdx ≤ index
  high : index ≤ request.readIdx
  plain : ∀ other, request.checkedIdx ≤ other → other < index → Plain (request.readBuf other)

/-- A line feed, or a carriage return that no line feed follows. -/
def Stray (request : RequestState) (index : Int) : Prop :=
  index < request.readIdx ∧ (request.readBuf index = 10 ∨
    request.readBuf index = 13 ∧ index + 1 < request.readIdx ∧ request.readBuf (index + 1) ≠ 10)

/-- Where `parse_line` stops and what it returns. -/
inductive LineScan (request : RequestState) : LineStatus × RequestState → Prop where
  | exhausted (passes : request.Passes request.readIdx) :
      LineScan request (.open, { request with checkedIdx := request.readIdx })
  | carriage {index : Int} (passes : request.Passes index) (byte : request.readBuf index = 13)
      (last : index + 1 = request.readIdx) :
      LineScan request (.open, { request with checkedIdx := index })
  | ended {index : Int} (passes : request.Passes index) (byte : request.readBuf index = 13)
      (next : request.readBuf (index + 1) = 10) (received : index + 1 < request.readIdx) :
      LineScan request (.ok, request.endLine index)
  | stray {index : Int} (passes : request.Passes index) (stray : request.Stray index) :
      LineScan request (.bad, { request with checkedIdx := index })

/-- A plain byte in front of what is passed. -/
theorem Passes.cons {request : RequestState} {index : Int}
    (plain : Plain (request.readBuf request.checkedIdx))
    (passes : Passes { request with checkedIdx := request.checkedIdx + 1 } index) :
    request.Passes index where
  low := by
    have low := passes.low
    simp only at low
    omega
  high := passes.high
  plain other low high := by
    rcases Int.lt_or_eq_of_le low with further | rfl
    · exact passes.plain other (by simp only; omega) high
    · exact plain

theorem LineScan.cons {request : RequestState} {result : LineStatus × RequestState}
    (plain : Plain (request.readBuf request.checkedIdx))
    (scan : LineScan { request with checkedIdx := request.checkedIdx + 1 } result) :
    LineScan request result := by
  cases scan with
  | exhausted passes => exact .exhausted (passes.cons plain)
  | carriage passes byte last => exact .carriage (passes.cons plain) byte last
  | ended passes byte next received => exact .ended (passes.cons plain) byte next received
  | stray passes stray => exact .stray (passes.cons plain) stray

/-- `parse_line` scans a line. -/
theorem lineScan_parseLineLoop (left : Nat) (request : RequestState)
    (size : left = (request.readIdx - request.checkedIdx).toNat)
    (read : request.checkedIdx ≤ request.readIdx)
    (before : 1 < request.checkedIdx → request.readBuf (request.checkedIdx - 1) ≠ 13) :
    LineScan request (parseLineLoop left request) := by
  have here : request.Passes request.checkedIdx :=
    ⟨Int.le_refl _, read, fun other low high => absurd high (Int.not_lt.mpr low)⟩
  induction left generalizing request with
  | zero =>
      have whole : request.checkedIdx = request.readIdx := by omega
      have unmoved : ∀ index, request.checkedIdx = index →
          { request with checkedIdx := index } = request := by
        rintro index rfl
        rfl
      have scan := LineScan.exhausted (whole ▸ here)
      rwa [unmoved _ whole] at scan
  | succ left ih =>
      rw [parseLineLoop]
      split
      case isTrue carriage =>
          split
          case isTrue last => exact .carriage here carriage last
          case isFalse notLast =>
              have received : request.checkedIdx + 1 < request.readIdx := by omega
              split
              case isTrue next => exact .ended here carriage next received
              case isFalse other =>
                  exact .stray here ⟨by omega, .inr ⟨carriage, received, other⟩⟩
      case isFalse notCarriage =>
          split
          case isTrue feed =>
              have first : ¬(1 < request.checkedIdx ∧
                  request.readBuf (request.checkedIdx - 1) = 13) :=
                fun both => before both.1 both.2
              rw [if_neg first]
              exact .stray here ⟨by omega, .inl feed⟩
          case isFalse notFeed =>
              refine .cons ⟨notCarriage, notFeed⟩ (ih _ ?_ ?_ ?_ ?_)
              · simp only
                omega
              · simp only
                omega
              · intro _
                simp only [Int.add_sub_cancel]
                exact notCarriage
              · exact ⟨Int.le_refl _, by simp only; omega,
                  fun other low high => absurd high (Int.not_lt.mpr low)⟩

theorem Cursors.lineScan {request : RequestState} (cursors : request.Cursors) :
    LineScan request request.parseLine :=
  lineScan_parseLineLoop _ request rfl cursors.read cursors.before

/-- What is passed can be left out. -/
theorem Passes.parseLine_eq {request : RequestState} {index : Int} (passes : request.Passes index) :
    request.parseLine = RequestState.parseLine { request with checkedIdx := index } := by
  obtain ⟨low, high, plain⟩ := passes
  have skip : ∀ (count left : Nat) (request : RequestState),
      (∀ offset < count, Plain (request.readBuf (request.checkedIdx + offset))) →
      parseLineLoop (count + left) request =
        parseLineLoop left { request with checkedIdx := request.checkedIdx + count } := by
    intro count
    induction count with
    | zero => simp
    | succ count ih =>
        intro left request plain
        have first := plain 0 (Nat.zero_lt_succ _)
        simp only [Int.natCast_zero, Int.add_zero] at first
        have size : count + 1 + left = count + left + 1 := by omega
        rw [size, parseLineLoop]
        simp only [first.1, first.2, if_false]
        rw [ih left { request with checkedIdx := request.checkedIdx + 1 } fun offset inside => ?_]
        · congr 2
          simp only
          omega
        · have later := plain (offset + 1) (Nat.succ_lt_succ inside)
          have moved : request.checkedIdx + ((offset + 1 : Nat) : Int) =
              request.checkedIdx + 1 + offset := by omega
          rwa [moved] at later
  have size : (request.readIdx - request.checkedIdx).toNat =
      (index - request.checkedIdx).toNat + (request.readIdx - index).toNat := by omega
  have reached : request.checkedIdx + ((index - request.checkedIdx).toNat : Int) = index := by omega
  rw [parseLine, size, skip _ _ request fun offset inside => plain _ (by omega) (by omega), reached]
  rfl

/-- A scan determines what `parse_line` does. -/
theorem LineScan.parseLine_eq {request : RequestState} (cursors : request.Cursors)
    {result : LineStatus × RequestState} (scan : LineScan request result) :
    request.parseLine = result := by
  have size : ∀ index, index < request.readIdx →
      ∃ left, (request.readIdx - index).toNat = left + 1 :=
    fun index inside => ⟨(request.readIdx - index).toNat - 1, by omega⟩
  cases scan with
  | exhausted passes =>
      rw [passes.parseLine_eq, parseLine]
      simp only [Int.sub_self, Int.toNat_zero, parseLineLoop]
  | @carriage index passes byte last =>
      obtain ⟨left, size⟩ := size index (by omega)
      rw [passes.parseLine_eq, parseLine, size, parseLineLoop]
      simp only [byte, last, if_true]
  | @ended index passes byte next received =>
      obtain ⟨left, size⟩ := size index (by omega)
      have more : index + 1 ≠ request.readIdx := by omega
      rw [passes.parseLine_eq, parseLine, size, parseLineLoop]
      simp only [byte, next, more, if_true, if_false]
      rfl
  | @stray index passes stray =>
      obtain ⟨inside, stray⟩ := stray
      obtain ⟨left, size⟩ := size index inside
      have noCarriage : ¬(1 < index ∧ request.readBuf (index - 1) = 13) := by
        rintro ⟨further, carriage⟩
        rcases Int.lt_or_eq_of_le passes.low with passed | rfl
        · exact (passes.plain (index - 1) (by omega) (by omega)).1 carriage
        · exact cursors.before further carriage
      rw [passes.parseLine_eq, parseLine, size, parseLineLoop]
      rcases stray with feed | ⟨carriage, received, other⟩
      · simp only [feed, noCarriage, if_false]
        rfl
      · have more : index + 1 ≠ request.readIdx := by omega
        simp only [carriage, other, more, if_true, if_false]

/-! ## More bytes -/

/-- Bytes in front of `m_read_idx` stay as they are. -/
theorem receive_readBuf {request : RequestState} {index : Int} (chunk : List UInt8)
    (inside : index < request.readIdx) :
    (request.receive chunk).readBuf index = request.readBuf index :=
  Memory.store_of_lt inside

theorem le_receive_readIdx (request : RequestState) (chunk : List UInt8) :
    request.readIdx ≤ (request.receive chunk).readIdx := by
  simp only [receive]
  omega

theorem Passes.receive {request : RequestState} {index : Int} (passes : request.Passes index)
    (chunk : List UInt8) : (request.receive chunk).Passes index where
  low := passes.low
  high := Int.le_trans passes.high (le_receive_readIdx request chunk)
  plain other low high := by
    rw [receive_readBuf chunk (Int.lt_of_lt_of_le high passes.high)]
    exact passes.plain other low high

/-- A byte set in the received bytes can be set before or after more are received. -/
theorem receive_set {request : RequestState} {index : Int} (byte : UInt8) (chunk : List UInt8)
    (inside : index < request.readIdx) :
    (request.receive chunk).readBuf.set index byte =
      (request.readBuf.set index byte).store request.readIdx chunk :=
  Memory.store_set inside

theorem endLine_receive {request : RequestState} {index : Int} (chunk : List UInt8)
    (inside : index + 1 < request.readIdx) :
    (request.receive chunk).endLine index = (request.endLine index).receive chunk := by
  have first := @receive_set request index 0 chunk (by omega)
  have second := @Memory.store_set (request.readBuf.set index 0) request.readIdx (index + 1) chunk 0
    inside
  simp only [endLine, first, second]
  rfl

theorem Stray.receive {request : RequestState} {index : Int} (stray : request.Stray index)
    (chunk : List UInt8) : (request.receive chunk).Stray index := by
  obtain ⟨inside, stray⟩ := stray
  have longer := le_receive_readIdx request chunk
  refine ⟨by omega, ?_⟩
  rw [receive_readBuf chunk inside]
  rcases stray with feed | ⟨carriage, received, other⟩
  · exact .inl feed
  · refine .inr ⟨carriage, by omega, ?_⟩
    rwa [receive_readBuf chunk received]

/-- `parse_line` can be resumed: it takes the same line, or stops at the same byte, whether
or not it was called before the last bytes were received. -/
theorem Cursors.parseLine_receive {request next : RequestState} {lineStatus : LineStatus}
    (cursors : request.Cursors) {chunk : List UInt8}
    (room : request.readIdx + chunk.length ≤ readBufferSize)
    (parsed : request.parseLine = (lineStatus, next)) :
    (request.receive chunk).parseLine =
      match lineStatus with
      | .open => (next.receive chunk).parseLine
      | _ => (lineStatus, next.receive chunk) := by
  have scan := cursors.lineScan
  have received := cursors.receive room
  rw [parsed] at scan
  cases scan with
  | exhausted passes => exact (passes.receive chunk).parseLine_eq
  | carriage passes => exact (passes.receive chunk).parseLine_eq
  | @ended index passes byte feed inside =>
      have longer := le_receive_readIdx request chunk
      simp only
      rw [← endLine_receive chunk inside]
      refine LineScan.parseLine_eq received (.ended (passes.receive chunk) ?_ ?_ (by omega))
      · rw [receive_readBuf chunk (by omega), byte]
      · rw [receive_readBuf chunk inside, feed]
  | stray passes stray =>
      exact LineScan.parseLine_eq received (.stray (passes.receive chunk) (stray.receive chunk))

/-! ## Cursors after a line -/

/-- The line that starts at `m_start_line` has been ended by two NULs. -/
structure AtEnd (request : RequestState) (stop : Int) : Prop where
  cursors : request.Cursors
  inside : request.startLine ≤ stop
  checkedIdx : request.checkedIdx = stop + 2
  nul : request.readBuf stop = 0
  newline : request.readBuf (stop + 1) = 0

/-- Stopping at a byte keeps the order of the cursors. -/
theorem Cursors.pass {request : RequestState} {index : Int} (cursors : request.Cursors)
    (passes : request.Passes index) : Cursors { request with checkedIdx := index } where
  start := cursors.start
  checked := Int.le_trans cursors.checked passes.low
  read := passes.high
  room := cursors.room
  before further := by
    rcases Int.lt_or_eq_of_le passes.low with passed | rfl
    · exact (passes.plain (index - 1) (by omega) (Int.sub_one_lt_of_le (Int.le_refl _))).1
    · exact cursors.before further

theorem Cursors.endLine {request : RequestState} {index : Int} (cursors : request.Cursors)
    (passes : request.Passes index) (received : index + 1 < request.readIdx) :
    (request.endLine index).AtEnd index := by
  have ordered := Int.le_trans cursors.checked passes.low
  have newline : (request.endLine index).readBuf (index + 1) = 0 := Memory.set_self _ _ _
  have checkedIdx : (request.endLine index).checkedIdx = index + 2 := rfl
  refine ⟨⟨cursors.start, ?_, ?_, cursors.room, fun _ => ?_⟩, ordered, checkedIdx, ?_, newline⟩
  · rw [checkedIdx]
    exact Int.le_trans ordered (by omega)
  · have same : (request.endLine index).readIdx = request.readIdx := rfl
    omega
  · have before : (request.endLine index).checkedIdx - 1 = index + 1 := by omega
    rw [before, newline]
    decide
  · exact (Memory.set_of_ne 0 (by omega)).trans (Memory.set_self _ _ _)

/-- A line that `parse_line` takes. -/
theorem Cursors.parseLine_ok {request next : RequestState} (cursors : request.Cursors)
    (parsed : request.parseLine = (.ok, next)) :
    ∃ stop, request.Passes stop ∧ next = request.endLine stop ∧ next.AtEnd stop := by
  have scan := cursors.lineScan
  rw [parsed] at scan
  cases scan with
  | @ended index passes byte feed received =>
      exact ⟨index, passes, rfl, cursors.endLine passes received⟩

/-- `parse_line` without a line moves `m_checked_idx` over plain bytes only. -/
theorem Cursors.parseLine_wait {request next : RequestState} {lineStatus : LineStatus}
    (cursors : request.Cursors) (parsed : request.parseLine = (lineStatus, next))
    (notOk : lineStatus ≠ .ok) :
    ∃ index, request.Passes index ∧ next = { request with checkedIdx := index } ∧
      next.Cursors := by
  have scan := cursors.lineScan
  rw [parsed] at scan
  cases scan with
  | exhausted passes => exact ⟨_, passes, rfl, cursors.pass passes⟩
  | carriage passes => exact ⟨_, passes, rfl, cursors.pass passes⟩
  | ended => exact absurd rfl notOk
  | stray passes => exact ⟨_, passes, rfl, cursors.pass passes⟩

/-- `parse_line` stays where it has stopped without a line. -/
theorem Cursors.parseLine_again {request next : RequestState} {lineStatus : LineStatus}
    (cursors : request.Cursors) (parsed : request.parseLine = (lineStatus, next))
    (notOk : lineStatus ≠ .ok) : next.parseLine = (lineStatus, next) := by
  have here : ∀ index, request.Passes index →
      Passes { request with checkedIdx := index } index := fun _ passes =>
    ⟨Int.le_refl _, passes.high, fun _ low high => absurd high (Int.not_lt.mpr low)⟩
  have scan := cursors.lineScan
  rw [parsed] at scan
  cases scan with
  | exhausted passes =>
      have again : LineScan { request with checkedIdx := request.readIdx }
          (.open, { request with checkedIdx := request.readIdx }) := .exhausted (here _ passes)
      exact again.parseLine_eq (cursors.pass passes)
  | @carriage index passes byte last =>
      have again : LineScan { request with checkedIdx := index }
          (.open, { request with checkedIdx := index }) := .carriage (here _ passes) byte last
      exact again.parseLine_eq (cursors.pass passes)
  | ended => exact absurd rfl notOk
  | @stray index passes stray =>
      have again : LineScan { request with checkedIdx := index }
          (.bad, { request with checkedIdx := index }) := .stray (here _ passes) stray
      exact again.parseLine_eq (cursors.pass passes)

/-- A function on the line leaves the cursors to the next line. -/
theorem AtEnd.next {request next : RequestState} {stop : Int} (ended : request.AtEnd stop)
    (parsed : LineParsed request.startLine { request with startLine := request.checkedIdx } next) :
    next.Cursors where
  start := by
    have start := ended.cursors.start
    have checked := ended.cursors.checked
    rw [parsed.startLine]
    simp only
    omega
  checked := by
    exact Int.le_of_eq (parsed.startLine.trans parsed.checkedIdx.symm)
  read := by
    rw [parsed.checkedIdx, parsed.readIdx]
    exact ended.cursors.read
  room := by
    rw [parsed.readIdx]
    exact ended.cursors.room
  before _ := by
    have kept := parsed.behind stop ended.inside ended.nul (stop + 1) (by omega)
    have last : next.checkedIdx - 1 = stop + 1 := by
      rw [parsed.checkedIdx, ended.checkedIdx]
      omega
    rw [last, kept]
    simp only [ended.newline]
    decide

end RequestState

end TimeGANWebServer.Http
