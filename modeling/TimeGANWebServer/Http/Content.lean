import TimeGANWebServer.Http.Cursors

/-!
# Where the body is ended

`parse_content` adds the declared length to `m_checked_idx` and, when the body is
there, puts a NUL behind it.  The length is what `atol` makes of the header's text,
narrowed to `int`; nothing checks it.
-/

namespace TimeGANWebServer.Http

open TimeGANWebServer.Support

/-- The parser's states on a connection: bytes arrive between the calls of
`process_read`, and a call makes its passes. -/
inductive Reached (slot : RequestState) : LineStatus × RequestState → Prop where
  | init : Reached slot (.ok, slot.init)
  | receive {state : LineStatus × RequestState} {next : RequestState} (chunk : List UInt8)
      (reached : Reached slot state)
      (returned : RequestState.processPass state = .done (.code .noRequest next))
      (room : next.readIdx + chunk.length ≤ readBufferSize) :
      Reached slot (.ok, next.receive chunk)
  | pass {state next : LineStatus × RequestState} (reached : Reached slot state)
      (passed : RequestState.processPass state = .again next) : Reached slot next

/-- A state in which the loop of `process_read` calls `parse_content`: in the body at
once, and later behind a line. -/
inductive ContentCall (slot : RequestState) : RequestState → Prop where
  | atOnce {request : RequestState} (reached : Reached slot (.ok, request))
      (content : request.checkState = .content) : ContentCall slot request
  | behindLine {lineStatus : LineStatus} {request ended : RequestState}
      (reached : Reached slot (lineStatus, request)) (content : request.checkState = .content)
      (waits : lineStatus ≠ .ok) (parsed : request.parseLine = (.ok, ended)) :
      ContentCall slot ended

namespace RequestState

/-- The body that starts at `m_start_line` is accessed as it should: the sum does not
overflow, and the NUL that `parse_content` stores once the body is there has its place in the
buffer and not in front of the body. -/
structure BodyInside (request : RequestState) : Prop where
  sum : -2 ^ 31 ≤ request.contentLength + request.checkedIdx ∧
    request.contentLength + request.checkedIdx < 2 ^ 31
  store : request.contentLength + request.checkedIdx ≤ request.readIdx →
    request.startLine ≤ request.startLine + request.contentLength ∧
      0 ≤ request.startLine + request.contentLength ∧
      request.startLine + request.contentLength < readBufferSize

/-- The declared length is not negative, leaves room for the sum, and is not that of a
body that fills the buffer to its last byte. -/
def BodyFits (request : RequestState) : Prop :=
  0 ≤ request.contentLength ∧ request.contentLength < 2 ^ 31 - request.checkedIdx ∧
    ¬(request.startLine = request.checkedIdx ∧ request.readIdx = readBufferSize ∧
      request.contentLength = readBufferSize - request.checkedIdx)

/-- Such an access is defined. -/
theorem BodyInside.parseContent_isOk {request : RequestState} (inside : request.BodyInside) :
    (request.parseContent request.startLine).isOk := by
  obtain ⟨⟨_, short⟩, store⟩ := inside
  rw [parseContent, if_neg (by omega)]
  split
  case isTrue received =>
      have bounds := store received
      rw [if_neg (by omega)]
      rfl
  case isFalse => rfl

instance (request : RequestState) : Decidable request.BodyFits :=
  inferInstanceAs (Decidable (_ ∧ _ ∧ ¬_))

/-- A declared length is an `int`. -/
def Narrowed (request : RequestState) : Prop :=
  -2 ^ 31 ≤ request.contentLength ∧ request.contentLength < 2 ^ 31

/-- `parse_headers` declares an `int`. -/
theorem Narrowed.parseHeaders {request : RequestState} (narrowed : request.Narrowed) (text : Int) :
    (request.parseHeaders text).2.Narrowed := by
  simp only [RequestState.parseHeaders]
  repeat' split
  all_goals first | exact narrowed | exact toInt32_bounds _

/-- What holds of every state that is reached. -/
structure Sound (request : RequestState) : Prop where
  cursors : request.Cursors
  narrowed : request.Narrowed

/-- A pass over a body that is not complete keeps it. -/
theorem Sound.content {request next : RequestState} {lineStatus : LineStatus}
    (sound : request.Sound) (content : request.checkState = .content)
    (passed : request.processLine = .again (lineStatus, next)) : next.Sound := by
  obtain ⟨cursors, narrowed⟩ := sound
  have line := processLine_content content
  rw [passed] at line
  cases line with
  | missing missing =>
      exact ⟨⟨Int.le_trans cursors.start cursors.checked, Int.le_refl _, cursors.read,
        cursors.room, cursors.before⟩, narrowed⟩

/-- A pass over a line keeps it. -/
theorem AtEnd.sound {request next : RequestState} {stop : Int} {lineStatus : LineStatus}
    (ended : request.AtEnd stop) (narrowed : request.Narrowed)
    (passed : request.processLine = .again (lineStatus, next)) : next.Sound := by
  have again := passed
  simp only [processLine] at passed
  split at passed
  · split at passed
    · contradiction
    · contradiction
    case _ code parsedNext _ parsed =>
        cases passed
        obtain ⟨kept, length, _⟩ := parseRequestLine_keeps parsed
        refine ⟨ended.next kept, ?_⟩
        rw [Narrowed, length]
        exact narrowed
  · have keeps := parseHeaders_keeps { request with startLine := request.checkedIdx }
      request.startLine
    have declares :=
      @Narrowed.parseHeaders { request with startLine := request.checkedIdx } narrowed
      request.startLine
    split at passed
    · contradiction
    · contradiction
    case _ code parsedNext _ _ parsed =>
        cases passed
        rw [parsed] at keeps declares
        exact ⟨ended.next (LineParsed.of_readBuf_eq keeps.1 keeps.2.1 keeps.2.2.1 keeps.2.2.2),
          declares⟩
  case _ content => exact Sound.content ⟨ended.cursors, narrowed⟩ content again

/-- A line that `parse_line` takes. -/
theorem Sound.parseLine_ok {request next : RequestState} (sound : request.Sound)
    (parsed : request.parseLine = (.ok, next)) :
    ∃ stop, next.AtEnd stop ∧ next.Narrowed ∧ next.checkState = request.checkState := by
  obtain ⟨stop, _, rfl, ended⟩ := sound.cursors.parseLine_ok parsed
  exact ⟨stop, ended, sound.narrowed, rfl⟩

/-- A pass that goes on keeps it. -/
theorem Sound.pass {request next : RequestState} {lineStatus later : LineStatus}
    (sound : request.Sound) (passed : processPass (lineStatus, request) = .again (later, next)) :
    next.Sound := by
  simp only [processPass] at passed
  split at passed
  case isTrue body => exact sound.content body.1 passed
  case isFalse =>
      split at passed
      case _ ended parsed =>
          obtain ⟨stop, atEnd, narrowed, _⟩ := sound.parseLine_ok parsed
          exact atEnd.sound narrowed passed
      case _ => contradiction

/-- A pass that waits for more bytes keeps it. -/
theorem Sound.wait {request next : RequestState} {lineStatus : LineStatus} (sound : request.Sound)
    (returned : processPass (lineStatus, request) = .done (.code .noRequest next)) :
    next.Sound := by
  simp only [processPass] at returned
  split at returned
  · exact absurd returned (processLine_ne_wait request next)
  · split at returned
    case _ ended parsed => exact absurd returned (processLine_ne_wait ended next)
    case _ status waiting notOk parsed =>
        cases returned
        obtain ⟨index, _, rfl, cursors⟩ :=
          sound.cursors.parseLine_wait parsed notOk
        exact ⟨cursors, sound.narrowed⟩

theorem Sound.receive {request : RequestState} (sound : request.Sound) {chunk : List UInt8}
    (room : request.readIdx + chunk.length ≤ readBufferSize) : (request.receive chunk).Sound :=
  ⟨sound.cursors.receive room, sound.narrowed⟩

theorem init_sound (slot : RequestState) : slot.init.Sound :=
  ⟨init_cursors slot, (by decide : (-2 ^ 31 : Int) ≤ 0), (by decide : (0 : Int) < 2 ^ 31)⟩

end RequestState

/-- Every state that is reached is sound. -/
theorem Reached.sound {slot : RequestState} {state : LineStatus × RequestState}
    (reached : Reached slot state) : state.2.Sound := by
  induction reached with
  | init => exact RequestState.init_sound slot
  | receive chunk _ returned room ih => exact (ih.wait returned).receive room
  | pass _ passed ih => exact ih.pass passed

theorem ContentCall.sound {slot request : RequestState} (call : ContentCall slot request) :
    request.Sound := by
  cases call with
  | atOnce reached => exact reached.sound
  | behindLine reached _ _ parsed =>
      obtain ⟨stop, ended, narrowed, _⟩ := reached.sound.parseLine_ok parsed
      exact ⟨ended.cursors, narrowed⟩

namespace RequestState

/-- **`parse_content` keeps to the buffer exactly if the declared length is not negative,
leaves room for the sum, and is not that of a body that fills the buffer to its last
byte.** -/
theorem bodyInside_iff {slot request : RequestState} (call : ContentCall slot request) :
    request.BodyInside ↔ request.BodyFits := by
  obtain ⟨⟨start, checked, read, room, _⟩, narrowed⟩ := call.sound
  have size : (readBufferSize : Int) = 65536 := rfl
  simp only [Narrowed] at narrowed
  constructor
  · intro inside
    have store := inside.store
    refine ⟨?_, ?_, ?_⟩
    · by_contra negative
      have bounds := store (by omega)
      omega
    · have sum := inside.sum
      omega
    · rintro ⟨fresh, full, last⟩
      have bounds := store (by omega)
      omega
  · rintro ⟨positive, short, notLast⟩
    refine ⟨by omega, fun received => ⟨by omega, by omega, ?_⟩⟩
    by_contra outside
    apply notLast
    omega

/-- Some passes of the loop, all of which go on. -/
def passes : Nat → LineStatus × RequestState → Option (LineStatus × RequestState)
  | 0, state => some state
  | count + 1, state =>
      match processPass state with
      | .again next => passes count next
      | .done _ => none

end RequestState

theorem Reached.passes {slot : RequestState} {state last : LineStatus × RequestState} {count : Nat}
    (reached : Reached slot state) (passed : RequestState.passes count state = some last) :
    Reached slot last := by
  induction count generalizing state with
  | zero =>
      cases passed
      exact reached
  | succ count ih =>
      simp only [RequestState.passes] at passed
      split at passed
      case _ next again => exact ih (.pass reached again) passed
      case _ => contradiction

/-- The state in which the first bytes are parsed. -/
theorem Reached.first (slot : RequestState) {chunk : List UInt8}
    (room : (chunk.length : Int) ≤ readBufferSize) :
      Reached slot (.ok, slot.init.receive chunk) := by
  have returned : RequestState.processPass (.ok, slot.init) = .done (.code .noRequest slot.init) :=
    rfl
  refine .receive chunk .init returned ?_
  have nothing : slot.init.readIdx = 0 := rfl
  omega

/-- A head with a declared length, and a body. -/
def declaring (length body : List UInt8) : List UInt8 :=
  ascii "POST / HTTP/1.1\r\nContent-Length: " ++ length ++ ascii "\r\n\r\n" ++ body

/-- Three lines of such a request are passed before its body. -/
theorem contentCall_declaring {length body : List UInt8} {facts : Int × Int}
    (room : ((declaring length body).length : Int) ≤ readBufferSize)
    (passed : (RequestState.passes 3
      (.ok, HttpConn.blank.toRequestState.init.receive (declaring length body))).map (fun state =>
        (state.1, state.2.checkState, state.2.contentLength, state.2.checkedIdx)) =
      some (.ok, .content, facts)) :
    ∃ request, ContentCall HttpConn.blank.toRequestState request ∧
      (request.contentLength, request.checkedIdx) = facts := by
  obtain ⟨⟨lineStatus, request⟩, reached, outcome⟩ := Option.map_eq_some_iff.mp passed
  simp only [Prod.mk.injEq] at outcome
  obtain ⟨rfl, content, rfl⟩ := outcome
  exact ⟨request, .atOnce ((Reached.first _ room).passes reached) content, rfl⟩

namespace RequestState

theorem bodyInside_iff_two :
    ∃ request, ContentCall HttpConn.blank.toRequestState request ∧ request.contentLength = 2 ∧
      request.BodyInside := by
  obtain ⟨request, call, facts⟩ := @contentCall_declaring (ascii "2") (ascii "ab") (2, 38)
    (by decide) (by decide +kernel)
  obtain ⟨length, checked⟩ := Prod.mk.inj facts
  refine ⟨request, call, length, (bodyInside_iff call).mpr ⟨?_, ?_, ?_⟩⟩
  · rw [length]
    decide
  · rw [length, checked]
    decide
  · rw [length, checked]
    rintro ⟨_, _, last⟩
    exact absurd last (by decide)

/-- A negative length makes `parse_content` store in front of the body. -/
theorem not_bodyInside_negative :
    ∃ request, ContentCall HttpConn.blank.toRequestState request ∧ request.contentLength = -5 ∧
      ¬request.BodyInside := by
  obtain ⟨request, call, facts⟩ := @contentCall_declaring (ascii "-5") [] (-5, 39)
    (by decide) (by decide +kernel)
  obtain ⟨length, checked⟩ := Prod.mk.inj facts
  refine ⟨request, call, length, fun inside => ?_⟩
  have read := call.sound.cursors.read
  have bounds := inside.store (by omega)
  omega

end RequestState

end TimeGANWebServer.Http
