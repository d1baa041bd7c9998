import TimeGANWebServer.Server.Places
import TimeGANWebServer.Server.Sources

/-!
# Responses and their connections

A slot is reused for one connection after the other.  As long as no tick closes a
connection that is queued or with a worker, a request stays with its connection, and
what is in an open slot comes from the connection that has it.  The vectors of a response are an
exception.  They can point in front of the mapping, and behind a generated CSV file they point
into one that need not be the connection's: `m_file_address` is not reset.
-/

namespace TimeGANWebServer.Server

open TimeGANWebServer.Http TimeGANWebServer.Support TimeGANWebServer.Timer

/-- Bytes are sent on the connection they come from. -/
def Effect.SendOk : Effect → Prop
  | .send conn source => ∃ owner, conn = some owner ∧ source.From owner
  | _ => True

namespace State

/-- A request is awaited in the slot of a descriptor, or is in it. -/
def Reading (state : State) (fd : Fd) : Prop :=
  state.armed fd = some .epollin ∨ (fd, .readable) ∈ state.pending ∨
    fd ∈ (state.queue ++ state.working).map Task.fd

/-- What is in a slot comes from the connection that has it: the request, the response, and the
mapping of a response that has one.  No response is begun before its request, and the vectors of
one that is not yet sent point to it. -/
structure Pure (state : State) (fd : Fd) : Prop where
  request : (state.origins fd).request.From (state.owner fd)
  response : (state.origins fd).response.From (state.owner fd)
  mapping : (state.origins fd).csv = false → (state.users fd).bytesToSend ≠ 0 →
    (state.users fd).ivCount = 2 → (state.origins fd).mapping.From (state.owner fd)
  fresh : state.Reading fd → (state.users fd).toResponseState.Fresh
  located : (state.users fd).bytesToSend ≠ 0 →
    (state.users fd).toResponseState.Located
      ((state.users fd).toResponseState.bodySize (state.origins fd).csv)

/-- What a call of `write` sends is of the response: the header is taken for sent only when it has
been, and the mapping that bytes are sent through is as long as the body and, behind a generated
CSV file, was made for the connection. -/
structure OwnBytes (state : State) (fd : Fd) (results : List WritevResult) : Prop where
  whole : (state.users fd).ivCount = 2 →
    WholeHeader (state.users fd).writeIdx (state.users fd).iv0.len
      (state.users fd).bytesHaveSend.toNat results
  long : (state.users fd).toResponseState.sendsMapped results = true →
    (state.users fd).toResponseState.bodySize (state.origins fd).csv ≤
      (state.users fd).fileAddress.length
  own : (state.users fd).toResponseState.sendsMapped results = true →
    (state.origins fd).csv = true → (state.origins fd).mapping.From (state.owner fd)

instance decidableOwnBytes (state : State) (fd : Fd) (results : List WritevResult) :
    Decidable (state.OwnBytes fd results) :=
  decidable_of_iff (_ ∧ _ ∧ _)
    ⟨fun ⟨whole, long, own⟩ => ⟨whole, long, own⟩, fun ⟨whole, long, own⟩ => ⟨whole, long, own⟩⟩

/-- A response that is not yet sent is sent from its own bytes. -/
def OwnMapping (state : State) : Label → Prop
  | .write results => ∀ event ∈ state.pending.head?, event.2 = .writable →
      (state.users event.1).bytesToSend ≠ 0 → state.OwnBytes event.1 results
  | _ => True

instance decidableOwnMapping (state : State) : (label : Label) → Decidable (state.OwnMapping label)
  | .write results => inferInstanceAs
    (Decidable (∀ event ∈ state.pending.head?, event.2 = .writable →
      (state.users event.1).bytesToSend ≠ 0 → state.OwnBytes event.1 results))
  | .accept _ | .epollWait _ | .hangup | .read _ | .tick | .dequeue | .process _ _ _ =>
      .isTrue trivial

/-! ## What leaves slots alone -/

/-- An outcome with the same slots: connections may be closed, no request is awaited in a further
slot, and nothing is sent. -/
structure Untouched (before : State) (outcome : Outcome) : Prop where
  users : outcome.state.users = before.users
  owner : outcome.state.owner = before.owner
  origins : outcome.state.origins = before.origins
  opens : ∀ fd ∈ outcome.state.openFds, fd ∈ before.openFds
  reading : ∀ fd, outcome.state.Reading fd → before.Reading fd
  sends : ∀ effect ∈ outcome.effects, effect.SendOk

theorem Untouched.andThen {before : State} {outcome : Outcome} {next : State → Outcome}
    (first : before.Untouched outcome) (second : outcome.state.Untouched (next outcome.state)) :
    before.Untouched (outcome.andThen next) where
  users := second.users.trans first.users
  owner := second.owner.trans first.owner
  origins := second.origins.trans first.origins
  opens fd isOpen := first.opens fd (second.opens fd isOpen)
  reading fd reading := first.reading fd (second.reading fd reading)
  sends effect member :=
    (List.mem_append.mp member).elim (first.sends effect) (second.sends effect)

theorem Untouched.refl (state : State) :
    state.Untouched { state := state, effects := [] } :=
  ⟨rfl, rfl, rfl, fun _ isOpen => isOpen, fun _ reading => reading,
    fun _ member => absurd member List.not_mem_nil⟩

theorem Untouched.pure {before : State} {outcome : Outcome} (untouched : before.Untouched outcome)
    {fd : Fd} (pure : before.Pure fd) : outcome.state.Pure fd := by
  obtain ⟨request, response, mapping, fresh, located⟩ := pure
  refine ⟨?_, ?_, ?_, fun reading => ?_, ?_⟩
  · rw [untouched.origins, untouched.owner]
    exact request
  · rw [untouched.origins, untouched.owner]
    exact response
  · rw [untouched.origins, untouched.owner, untouched.users]
    exact mapping
  · rw [untouched.users]
    exact fresh (untouched.reading fd reading)
  · rw [untouched.origins, untouched.users]
    exact located

theorem Untouched.pures {before : State} {outcome : Outcome} (untouched : before.Untouched outcome)
    (pure : ∀ fd ∈ before.openFds, before.Pure fd) :
    ∀ fd ∈ outcome.state.openFds, outcome.state.Pure fd :=
  fun fd isOpen => untouched.pure (pure fd (untouched.opens fd isOpen))

theorem untouched_close (state : State) (fd : Int) (intended : ConnId) :
    state.Untouched (state.close fd intended) := by
  have quiet : ∀ effect ∈ (state.close fd intended).effects, effect.SendOk := by
    intro effect member
    rw [List.mem_singleton.mp member]
    trivial
  refine ⟨?_, ?_, ?_, ?_, ?_, quiet⟩ <;> simp only [close] <;> split
  case refine_4.isTrue => exact fun _ isOpen => List.mem_of_mem_erase isOpen
  case refine_5.isTrue =>
      refine fun other reading => reading.imp_left fun armed => ?_
      simp only [Function.update_apply] at armed
      split at armed
      · contradiction
      · exact armed
  all_goals first | rfl | exact fun _ same => same

theorem untouched_cbFunc (state : State) (data : Fd) : state.Untouched (state.cbFunc data) :=
  (untouched_close state _ _).andThen
    ⟨rfl, rfl, rfl, fun _ isOpen => isOpen, fun _ reading => reading,
      fun _ member => absurd member List.not_mem_nil⟩

theorem untouched_delTimer (state : State) (fd : Fd) (timer : Addr) :
    state.Untouched (state.delTimer fd timer) := by
  refine ⟨rfl, rfl, rfl, fun _ isOpen => isOpen, fun _ reading => reading,
    fun effect member => ?_⟩
  simp only [delTimer, List.mem_cons, List.not_mem_nil, or_false] at member
  rcases member with rfl | rfl <;> trivial

theorem untouched_useTimer (state : State) (fd : Fd) (timer : Option Addr) :
    state.Untouched { state := state, effects := [state.useTimer fd timer] } := by
  refine ⟨rfl, rfl, rfl, fun _ isOpen => isOpen, fun _ reading => reading,
    fun effect member => ?_⟩
  rw [List.mem_singleton.mp member]
  trivial

theorem untouched_dealTimer (state : State) (timer : Option Addr) (fd : Fd) :
    state.Untouched (state.dealTimer timer fd) := by
  cases timer with
  | none => exact untouched_useTimer state fd none
  | some timer =>
      simp only [dealTimer]
      refine ((untouched_useTimer state fd (some timer)).andThen ?_).andThen ?_
      · exact untouched_cbFunc state fd
      · exact untouched_delTimer _ fd timer

theorem untouched_adjustSlot (state : State) (fd : Fd) :
    state.Untouched (state.adjustSlot fd) := by
  simp only [adjustSlot]
  split
  · exact Untouched.refl state
  case _ timer _ =>
      simp only [adjustTimer]
      refine ((untouched_useTimer state fd (some timer)).andThen
        (untouched_delTimer _ fd timer)).andThen ?_
      obtain ⟨node, timers, _, added⟩ := addTimer_cases (state.delTimer fd timer).state
        (state.timers.wheel.timers timer).userData
      simp only [Outcome.andThen, added]
      exact ⟨rfl, rfl, rfl, fun _ isOpen => isOpen, fun _ reading => reading,
        fun _ member => absurd member List.not_mem_nil⟩

theorem untouched_fireTimers (state : State) (timers : List Addr) :
    state.Untouched (state.fireTimers timers) := by
  induction timers generalizing state with
  | nil => exact Untouched.refl state
  | cons timer timers ih =>
      refine ((untouched_cbFunc state _).andThen ⟨rfl, rfl, rfl, fun _ isOpen => isOpen,
        fun _ reading => reading, ?_⟩).andThen (ih _)
      intro effect member
      rw [List.mem_singleton.mp member]
      trivial

theorem untouched_timerHandler (state : State) : state.Untouched state.timerHandler := by
  have ticked := untouched_fireTimers { state with timers := state.timers.ticked }
    state.timers.wheel.tick.fired
  exact ⟨ticked.users, ticked.owner, ticked.origins, ticked.opens, ticked.reading, ticked.sends⟩

/-! ## What works on a slot -/

/-- A change of one slot, in which the others' parts still come from their connections. -/
theorem pure_update {state : State} {fd : Fd} {conn : HttpConn} {origins : Origins}
    {other : Fd} (pure : state.Pure other)
    (here : other = fd → ({ state with
      users := Function.update state.users fd conn
      origins := Function.update state.origins fd origins } : State).Pure other) :
    ({ state with
      users := Function.update state.users fd conn
      origins := Function.update state.origins fd origins } : State).Pure other := by
  by_cases same : other = fd
  · exact here same
  · obtain ⟨request, response, mapping, fresh, located⟩ := pure
    constructor <;> simp only [Function.update_of_ne same]
    · exact request
    · exact response
    · exact mapping
    · exact fresh
    · exact located

/-- A request is queued whose response is not begun. -/
theorem pure_append {state : State} (config : Config) {fd other : Fd} (pure : state.Pure other)
    (fresh : other = fd → (state.users fd).toResponseState.Fresh) :
    (state.append config fd).Pure other := by
  simp only [append]
  split
  · exact pure
  · refine ⟨pure.request, pure.response, pure.mapping, fun reading => ?_, pure.located⟩
    by_cases same : other = fd
    · exact same ▸ fresh same
    · refine pure.fresh (reading.imp_right (Or.imp_right fun task => ?_))
      simpa [same] using task

/-- A descriptor is armed, for a request only if no response is begun. -/
theorem pure_modfd {state : State} {fd other : Fd} (interest : Interest) (pure : state.Pure other)
    (fresh : other = fd → interest = .epollin → (state.users fd).toResponseState.Fresh) :
    (state.modfd fd interest).Pure other := by
  simp only [modfd, Int.toNat_natCast]
  split
  · refine ⟨pure.request, pure.response, pure.mapping, fun reading => ?_, pure.located⟩
    by_cases same : other = fd
    · subst same
      rcases reading with armed | later
      · simp only [Function.update_self, Option.some.injEq] at armed
        exact fresh rfl armed
      · exact pure.fresh (.inr later)
    · refine pure.fresh (reading.imp_left fun armed => ?_)
      simpa only [Function.update_of_ne same] using armed
  · exact pure

/-- `read_once` leaves the response alone. -/
theorem response_readSlot {state next : State} {fd : Fd} {results : List RecvResult} {ret : Bool}
    (read : state.readSlot fd results = some (ret, next)) :
    (next.users fd).toResponseState = (state.users fd).toResponseState := by
  obtain ⟨_, _, rfl⟩ := readSlot_cases read
  simp only [Function.update_self]

theorem pure_readSlot {state next : State} {fd other : Fd} (pure : state.Pure other)
    {results : List RecvResult} {ret : Bool}
    (read : state.readSlot fd results = some (ret, next)) : next.Pure other := by
  simp only [readSlot, Option.map_eq_some_iff, Prod.mk.injEq] at read
  obtain ⟨_, _, _, rfl⟩ := read
  refine pure_update pure ?_
  rintro rfl
  obtain ⟨request, response, mapping, fresh, located⟩ := pure
  constructor <;> simp only [Function.update_self]
  · exact request.join (.inr rfl)
  · exact response
  · exact mapping
  · exact fresh
  · exact located

/-- A slot is marked as read. -/
theorem pure_setState {state : State} {fd other : Fd} (pure : state.Pure other) :
    (state.setUser fd { state.users fd with state := 0 }).Pure other := by
  have stored := @pure_update state fd { state.users fd with state := 0 } (state.origins fd) other
    pure
  rw [Function.update_eq_self] at stored
  refine stored ?_
  rintro rfl
  obtain ⟨request, response, mapping, fresh, located⟩ := pure
  constructor <;> simp only [Function.update_self]
  · exact request
  · exact response
  · exact mapping
  · exact fresh
  · exact located

/-- How a call of `write` ends: the slot is made ready for the next request; or some bytes are
left, and the vectors point to these; or the connection is given up. -/
theorem write_ends {conn : HttpConn} {results : List WritevResult} {outcome : WriteOutcome}
    (written : conn.write results = some outcome) :
    ((outcome.ended = .idle ∨ outcome.ended = .complete ∧ outcome.ret = true) ∧
        outcome.conn.toResponseState.Fresh ∧ outcome.conn.bytesToSend = 0 ∧
        outcome.fdCalls = [.modfd conn.sockfd .epollin]) ∨
      (outcome.ended = .again ∧ outcome.fdCalls = [.modfd conn.sockfd .epollout] ∧
        conn.bytesToSend ≠ 0 ∧ ∃ loop, conn.toResponseState.Sends results loop ∧
          loop.ended = .again ∧ outcome.conn.toResponseState = loop.response) ∨
      (outcome.ret = false ∧
        ((∃ interest, outcome.fdCalls = [.modfd conn.sockfd interest]) ∨ outcome.fdCalls =
          [])) := by
  simp only [HttpConn.write] at written
  split at written
  · cases written
    exact .inl ⟨.inl rfl, ResponseState.Fresh.init _, rfl, rfl⟩
  case isFalse some_ =>
      obtain ⟨loop, looped, rfl⟩ := Option.map_eq_some_iff.mp written
      have course := ResponseState.sends_of_sendLoop looped
      cases ended : loop.ended with
      | idle => exact .inr (.inr ⟨rfl, .inr rfl⟩)
      | again => exact .inr (.inl ⟨rfl, rfl, some_, loop, course, ended, rfl⟩)
      | failed => exact .inr (.inr ⟨rfl, .inr rfl⟩)
      | complete =>
          cases linger : conn.linger with
          | true => exact .inl ⟨.inr ⟨rfl, rfl⟩, ResponseState.Fresh.init _, rfl, rfl⟩
          | false => exact .inr (.inr ⟨rfl, .inl ⟨_, rfl⟩⟩)

/-- A call of `write` that sends bytes has some to send. -/
theorem write_sends {conn : HttpConn} {results : List WritevResult} {outcome : WriteOutcome}
    (written : conn.write results = some outcome)
    (accepted : outcome.writevs.any (fun writev => 0 < writev.accepted) = true) :
    conn.bytesToSend ≠ 0 ∧ ∃ loop, conn.toResponseState.Sends results loop := by
  simp only [HttpConn.write] at written
  split at written
  · cases written
    simp at accepted
  case isFalse some_ =>
      obtain ⟨loop, looped, _⟩ := Option.map_eq_some_iff.mp written
      exact ⟨some_, loop, ResponseState.sends_of_sendLoop looped⟩

/-- Sending keeps the number of vectors. -/
theorem ivCount_of_sends {response : ResponseState} {results : List WritevResult}
    {loop : SendLoop} (course : response.Sends results loop) :
    loop.response.ivCount = response.ivCount := by
  induction course with
  | again => rfl
  | failed => rfl
  | last => exact ResponseState.ivCount_advance _ _
  | next _ _ _ ih => exact ih.trans (ResponseState.ivCount_advance _ _)

/-- Only a response with two vectors is sent through the mapping. -/
theorem ivCount_of_sendsMapped {response : ResponseState} {results : List WritevResult}
    (mapped : response.sendsMapped results = true) : response.ivCount = 2 := by
  induction results generalizing response with
  | nil => simp [ResponseState.sendsMapped] at mapped
  | cons result results ih =>
      cases result with
      | again => simp [ResponseState.sendsMapped] at mapped
      | failed => simp [ResponseState.sendsMapped] at mapped
      | accepted count =>
          simp only [ResponseState.sendsMapped, Bool.or_eq_true, Bool.and_eq_true, beq_iff_eq]
            at mapped
          rcases mapped with now | later
          · exact now.1.1
          · have advanced := ih later
            rwa [ResponseState.ivCount_advance] at advanced

/-- What a call of `write` sends comes from the connection, if it is of the response. -/
theorem sendOk_writeSlot {state : State} {fd : Fd} (isOpen : fd ∈ state.openFds)
    (pure : state.Pure fd) {results : List WritevResult}
    (own : (state.users fd).bytesToSend ≠ 0 → state.OwnBytes fd results) {ret : Bool}
    {outcome : Outcome} (written : state.writeSlot fd results = some (ret, outcome)) :
    ∀ effect ∈ outcome.effects, effect.SendOk := by
  simp only [writeSlot, Option.map_eq_some_iff, Prod.mk.injEq] at written
  obtain ⟨result, written, rfl, rfl⟩ := written
  intro effect member
  simp only [Outcome.andThen, List.mem_append] at member
  rcases member with sent | later
  · split at sent
    case isTrue accepted =>
        obtain ⟨some_, loop, course⟩ := write_sends written accepted
        obtain ⟨whole, long, ownMapping⟩ := own some_
        rw [List.mem_singleton.mp sent]
        refine ⟨state.owner fd, if_pos isOpen, Source.From.foldr ?_⟩
        refine sentSources_from course (pure.located some_) pure.response whole fun mapped => ?_
        refine ⟨long mapped, ?_⟩
        cases csv : (state.origins fd).csv with
        | true => exact ownMapping mapped csv
        | false => exact pure.mapping csv some_ (ivCount_of_sendsMapped mapped)
    case isFalse => exact absurd sent List.not_mem_nil
  · rcases write_ends written with ⟨_, _, _, calls⟩ | ⟨_, calls, _⟩ | ⟨_, ⟨_, calls⟩ | calls⟩
    all_goals
      rw [calls] at later
      exact absurd later List.not_mem_nil

/-- Behind a call of `write` the slot is ready for a request, or for the rest of the response; or
the call has failed. -/
theorem pure_writeSlot {state : State} {fd other : Fd} (pure : state.Pure other)
    {results : List WritevResult}
    (own : (state.users fd).bytesToSend ≠ 0 → state.OwnBytes fd results)
    (sockfd : (state.users fd).sockfd = fd) (handled : ¬state.Reading fd) {ret : Bool}
    {outcome : Outcome} (written : state.writeSlot fd results = some (ret, outcome))
    (kept : other = fd → ret = true) : outcome.state.Pure other := by
  simp only [writeSlot, Option.map_eq_some_iff, Prod.mk.injEq] at written
  obtain ⟨result, written, rfl, rfl⟩ := written
  simp only [Outcome.andThen]
  rcases write_ends written with
    ⟨renewed, fresh, none_, calls⟩ | ⟨again, calls, some_, loop, course, ended, rest⟩ |
      ⟨failed, calls⟩
  · rw [calls, sockfd, fdCalls_modfd, if_pos renewed]
    refine pure_modfd _ (pure_update pure ?_) fun same _ => by simpa using fresh
    rintro rfl
    constructor <;> simp only [Function.update_self]
    · exact .inl rfl
    · exact .inl rfl
    · exact fun _ left => absurd none_ left
    · exact fun _ => fresh
    · exact fun left => absurd none_ left
  · have kept : ¬(result.ended = .idle ∨ result.ended = .complete ∧ result.ret = true) := by
      simp [again]
    rw [calls, sockfd, fdCalls_modfd, if_neg kept]
    refine pure_modfd _ (pure_update pure ?_) fun _ input => by cases input
    rintro rfl
    have located := course.located (pure.located some_) (own some_).whole ended
    constructor <;> simp only [Function.update_self]
    · exact pure.request
    · exact pure.response
    · rw [rest, ivCount_of_sends course]
      exact fun notCsv _ two => pure.mapping notCsv some_ two
    · exact fun reading => absurd reading handled
    · rw [rest]
      exact fun _ => located
  · have different : other ≠ fd := fun same => by simp [kept same] at failed
    have updated : ∀ (conn : HttpConn) (origins : Origins), ({ state with
        users := Function.update state.users fd conn
        origins := Function.update state.origins fd origins } : State).Pure other :=
      fun _ _ => pure_update pure fun same => absurd same different
    rcases calls with ⟨interest, calls⟩ | calls
    · rw [calls, sockfd, fdCalls_modfd]
      exact pure_modfd _ (updated _ _) fun same => absurd same different
    · rw [calls]
      exact updated _ _

/-! ## Steps -/

/-- Slots are pure, and bytes were sent on the connections they come from. -/
structure Clean (outcome : Outcome) : Prop where
  pure : ∀ fd ∈ outcome.state.openFds, outcome.state.Pure fd
  sends : ∀ effect ∈ outcome.effects, effect.SendOk

theorem Clean.andThen {outcome : Outcome} {next : State → Outcome} (clean : Clean outcome)
    (second : Clean (next outcome.state)) : Clean (outcome.andThen next) where
  pure := second.pure
  sends effect member :=
    (List.mem_append.mp member).elim (clean.sends effect) (second.sends effect)

theorem Untouched.clean {before : State} {outcome : Outcome} (untouched : before.Untouched outcome)
    (pure : ∀ fd ∈ before.openFds, before.Pure fd) : Clean outcome :=
  ⟨untouched.pures pure, untouched.sends⟩

/-- No request is awaited in the slot of a descriptor in hand. -/
theorem not_reading_of_inHand {state : State} {fd : Fd} (hand : state.custody.InHand fd) :
    ¬state.Reading fd := by
  rintro (armed | reported | busy)
  · exact hand.notArmed (by simp [State.custody, armed])
  · exact hand.notReported (List.mem_map_of_mem reported)
  · exact hand.notBusy busy

/-- Behind `deal_timer` the slot is no longer an open one's, and may hold anything. -/
theorem clean_dealTimer {state : State} (sound : state.Sound) {fd : Fd}
    (isOpen : fd ∈ state.openFds) (pure : ∀ other ∈ state.openFds, other ≠ fd → state.Pure other)
    (timer : Addr) : Clean (state.dealTimer (some timer) fd) := by
  have untouched := untouched_dealTimer state (some timer) fd
  have closed := congrArg Custody.openFds (custody_dealTimer sound isOpen timer)
  refine ⟨fun other otherOpen => untouched.pure ?_, untouched.sends⟩
  have kept : other ∈ (state.custody.close fd).openFds := closed ▸ otherOpen
  obtain ⟨different, wasOpen⟩ := (sound.nodup.mem_erase_iff).mp kept
  exact pure other wasOpen different

theorem clean_dealwithread {config : Config} {state : State}
    (pure : ∀ fd ∈ state.openFds, state.Pure fd) {fd : Fd}
    (fresh : (state.users fd).toResponseState.Fresh) {results : List RecvResult}
    {outcome : Outcome} (dealt : state.dealwithread config fd results = some outcome) :
    Clean outcome := by
  -- the queue takes the slot over, whose response is not begun
  have appends : ∀ {next : State}, (∀ other ∈ next.openFds, next.Pure other) →
      (next.users fd).toResponseState.Fresh →
      ∀ other ∈ (next.append config fd).openFds, (next.append config fd).Pure other :=
    fun nextPure nextFresh other isOpen =>
      pure_append config (nextPure other (openFds_append config _ fd ▸ isOpen)) fun _ => nextFresh
  have reads : ∀ {before next : State} {ret : Bool},
      (∀ other ∈ before.openFds, before.Pure other) → before.users = state.users →
      before.readSlot fd results = some (ret, next) →
        (∀ other ∈ next.openFds, next.Pure other) ∧
          (next.users fd).toResponseState.Fresh := by
    intro before next ret beforePure users read
    obtain ⟨_, same, _⟩ := frame_readSlot read
    refine ⟨fun other isOpen => pure_readSlot (beforePure other (same ▸ isOpen)) read, ?_⟩
    rw [response_readSlot read, users]
    exact fresh
  simp only [dealwithread] at dealt
  split at dealt
  · have adjusted := untouched_adjustSlot state fd
    obtain ⟨⟨ret, next⟩, read, rfl⟩ := Option.map_eq_some_iff.mp dealt
    obtain ⟨nextPure, nextFresh⟩ := reads (adjusted.pures pure) adjusted.users read
    refine (adjusted.clean pure).andThen ?_
    cases ret with
    | true =>
        refine ⟨appends (fun other isOpen => pure_setState (nextPure other isOpen)) ?_,
          fun _ member => absurd member List.not_mem_nil⟩
        simpa only [setUser, Function.update_self] using nextFresh
    | false => exact (untouched_dealTimer next _ fd).clean nextPure
  · obtain ⟨⟨ret, next⟩, read, rfl⟩ := Option.map_eq_some_iff.mp dealt
    obtain ⟨nextPure, nextFresh⟩ := reads pure rfl read
    cases ret with
    | true => exact (untouched_adjustSlot _ fd).clean (appends nextPure nextFresh)
    | false => exact (untouched_dealTimer next _ fd).clean nextPure

/-- A call of `write` on the slot of a descriptor in hand, behind which the slot stays in use or
the connection is closed. -/
theorem clean_writeSlot {state : State} (pure : ∀ fd ∈ state.openFds, state.Pure fd) {fd : Fd}
    (sound : state.Sound) (hand : state.custody.InHand fd) {results : List WritevResult}
    (own : (state.users fd).bytesToSend ≠ 0 → state.OwnBytes fd results) {ret : Bool}
    {outcome : Outcome} (written : state.writeSlot fd results = some (ret, outcome)) :
    (∀ effect ∈ outcome.effects, effect.SendOk) ∧
      (ret = true → ∀ other ∈ outcome.state.openFds, outcome.state.Pure other) ∧
      (ret = false → ∀ timer, Clean (outcome.state.dealTimer (some timer) fd)) := by
  have isOpen := hand.isOpen
  obtain ⟨nextSound, _, same, _⟩ := custody_writeSlot sound isOpen written
  have nextPure : ∀ other ∈ outcome.state.openFds, (other = fd → ret = true) →
      outcome.state.Pure other := fun other otherOpen kept =>
    pure_writeSlot (pure other (same ▸ otherOpen)) own (sound.user fd isOpen).1
      (not_reading_of_inHand hand) written kept
  refine ⟨sendOk_writeSlot isOpen (pure fd isOpen) own written, ?_, ?_⟩
  · exact fun success other otherOpen => nextPure other otherOpen fun _ => success
  · intro _ timer
    refine clean_dealTimer nextSound (same ▸ isOpen) (fun other otherOpen different => ?_) timer
    exact nextPure other otherOpen fun same => absurd same different

theorem clean_dealwithwrite {config : Config} {state : State}
    (pure : ∀ fd ∈ state.openFds, state.Pure fd) {fd : Fd} {results : List WritevResult}
    (regular : state.Regular) (hand : state.custody.InHand fd)
    (own : (state.users fd).bytesToSend ≠ 0 → state.OwnBytes fd results)
    {outcome : Outcome} (dealt : state.dealwithwrite config fd results = some outcome) :
    Clean outcome := by
  have isOpen := hand.isOpen
  obtain ⟨timer, hasTimer⟩ :=
    Option.ne_none_iff_exists'.mp (regular.sound.data fd isOpen).2.2
  simp only [dealwithwrite, hasTimer] at dealt
  split at dealt
  · have adjusted := untouched_adjustSlot state fd
    have retimed := adjustSlot_retimed state fd
    obtain ⟨timers, effects, frame⟩ := frame_adjustSlot regular isOpen
    obtain ⟨⟨ret, next⟩, wrote, rfl⟩ := Option.map_eq_some_iff.mp dealt
    obtain ⟨sends, kept, closed⟩ := clean_writeSlot (adjusted.pures pure)
      (retimed.sound regular.sound) (retimed.custody ▸ hand)
      (by rw [frame]; exact fun some_ => ⟨(own some_).whole, (own some_).long, (own some_).own⟩)
      wrote
    have before := (adjusted.clean pure).sends
    cases ret with
    | true =>
        simp only [if_true, Outcome.andThen, List.append_nil]
        exact ⟨kept rfl, fun effect member =>
          (List.mem_append.mp member).elim (before effect) (sends effect)⟩
    | false =>
        refine ⟨(closed rfl timer).pure, fun effect member => ?_⟩
        rcases List.mem_append.mp member with earlier | later
        · exact (List.mem_append.mp earlier).elim (before effect) (sends effect)
        · exact (closed rfl timer).sends effect later
  · obtain ⟨⟨ret, next⟩, wrote, rfl⟩ := Option.map_eq_some_iff.mp dealt
    obtain ⟨sends, kept, closed⟩ := clean_writeSlot pure regular.sound hand own wrote
    cases ret with
    | true =>
        have next : Clean next := ⟨kept rfl, sends⟩
        exact next.andThen ((untouched_adjustSlot _ fd).clean next.pure)
    | false =>
        refine ⟨(closed rfl timer).pure, fun effect member => ?_⟩
        exact (List.mem_append.mp member).elim (sends effect) ((closed rfl timer).sends effect)

/-- Two vectors are queued for a file or a generated CSV file only. -/
theorem ivCount_processWrite {response : ResponseState} {linger : Bool} {code : HttpCode}
    (fits : (response.processWrite linger code).1 = true)
    (two : (response.processWrite linger code).2.ivCount = 2) :
    code = .fileRequest ∨ code = .diagnoseCsvRequest := by
  have page : ∀ (response : ResponseState) content, (response.finishPage content).1 = true →
      (response.finishPage content).2.ivCount ≠ 2 := by
    intro response content fits
    simp only [ResponseState.finishPage] at fits ⊢
    split at fits
    · contradiction
    · exact (by decide : (1 : Nat) ≠ 2)
  cases code
  case fileRequest => exact .inl rfl
  case diagnoseCsvRequest => exact .inr rfl
  case noResource | internalError | diagnoseRequest =>
    simp only [ResponseState.processWrite] at fits two
    exact absurd two (page _ _ fits)
  all_goals
    simp only [ResponseState.processWrite, ResponseState.queueBuffer] at two
    exact absurd two (by decide)

/-- What `process` leaves of the response in a slot that has a connection. -/
theorem process_response {conn : HttpConn} {env : Env} {reply : Reply} {finished : Processed}
    (located : conn.sockfd ≠ -1) (read : conn.processRead env = .ok reply)
    (done : conn.process env = .ok finished) :
    (reply.code = .noRequest ∧ finished.conn.toResponseState = conn.toResponseState ∧
      finished.fdCalls = [.modfd conn.sockfd .epollin]) ∨
    (reply.code ≠ .noRequest ∧
      (reply.conn.toResponseState.processWrite reply.conn.linger reply.code).1 = true ∧
      finished.conn.toResponseState =
        (reply.conn.toResponseState.processWrite reply.conn.linger reply.code).2 ∧
      finished.fdCalls = [.modfd conn.sockfd .epollout]) ∨
    finished.fdCalls = [.closeConn conn.sockfd, .modfd (-1) .epollout] := by
  have sockfd := (HttpConn.processRead_slot read).1
  simp only [HttpConn.process, read] at done
  split at done
  case isTrue waits =>
      cases done
      refine .inl ⟨waits, ?_, by simp only [sockfd]⟩
      simp only [HttpConn.processRead] at read
      split at read
      · cases read
        rfl
      · rcases HttpConn.doRequest_cases read with ⟨_, redirect⟩ | ⟨_, page⟩
        · simp [redirect.code] at waits
        · have code := page.code
          simp [waits] at code
      · contradiction
  case isFalse completed =>
      cases done
      cases fits : (reply.conn.toResponseState.processWrite reply.conn.linger reply.code).1 with
      | true => exact .inr (.inl ⟨completed, rfl, rfl, by simp [sockfd]⟩)
      | false =>
          right
          right
          simp only [HttpConn.closeConn, sockfd, located, ne_eq, not_false_eq_true, if_true,
            Bool.false_eq_true, if_false]
          rfl

theorem clean_work {config : Config} {state : State}
    (pure : ∀ fd ∈ state.openFds, state.Pure fd) (sound : state.Sound) {task : Task}
    (hand : state.custody.InHand task.fd) (fresh : (state.users task.fd).toResponseState.Fresh)
    {mysql : Option Nat} {env : Env} {outcome : Outcome}
    (worked : state.work config task mysql env = some outcome) : Clean outcome := by
  obtain ⟨sockfd, idle⟩ := sound.user task.fd hand.isOpen
  have reads : ¬(config.actorModel = 1 ∧ (state.users task.fd).state ≠ 0) :=
    fun skips => skips.2 idle
  simp only [work, if_neg reads] at worked
  split at worked
  case _ reply finished read done =>
      cases worked
      have located : ({ state.users task.fd with mysql := mysql } : HttpConn).sockfd ≠ -1 := by
        simp only [sockfd]
        omega
      rcases process_response located read done with
        ⟨waits, response, calls⟩ | ⟨completed, fits, response, calls⟩ | calls
      · rw [calls, sockfd, fdCalls_modfd]
        refine ⟨fun other otherOpen => ?_, fun _ member => absurd member List.not_mem_nil⟩
        rw [openFds_modfd] at otherOpen
        refine pure_modfd _ (pure_update (pure other otherOpen) ?_) fun _ _ => ?_
        · rintro rfl
          obtain ⟨ownRequest, ownResponse, ownMapping, _, sends⟩ := pure task.fd hand.isOpen
          simp only [processed, if_pos waits]
          constructor <;> simp only [Function.update_self, response]
          · exact ownRequest
          · exact ownResponse
          · exact ownMapping
          · exact fun _ => fresh
          · exact sends
        · simpa only [Function.update_self, response] using fresh
      · rw [calls, sockfd, fdCalls_modfd]
        refine ⟨fun other otherOpen => ?_, fun _ member => absurd member List.not_mem_nil⟩
        rw [openFds_modfd] at otherOpen
        refine pure_modfd _ (pure_update (pure other otherOpen) ?_) fun _ output => by cases output
        rintro rfl
        obtain ⟨ownRequest, ownResponse, _, _, _⟩ := pure task.fd hand.isOpen
        have begun : reply.conn.toResponseState.Fresh :=
          @HttpConn.processRead_fresh { state.users task.fd with mysql := mysql } env reply fresh
            read
        have prepared := begun.processWrite_located fits
        rw [← response] at prepared
        simp only [processed, if_neg completed]
        constructor <;> simp only [Function.update_self]
        · exact ownRequest
        · exact ownResponse.join ownRequest
        · intro notCsv _ two
          rw [response] at two
          rcases ivCount_processWrite fits two with file | csv
          · rw [if_pos file]
            exact ownRequest
          · simp [csv] at notCsv
        · exact fun reading => absurd reading (not_reading_of_inHand hand)
        · exact fun _ => prepared
      · -- The connection is closed, so the slot is no longer an open one's.
        rw [calls, sockfd, fdCalls_close]
        refine ⟨fun other otherOpen => ?_, fun effect member => ?_⟩
        · obtain ⟨different, wasOpen⟩ := (sound.nodup.mem_erase_iff).mp otherOpen
          have updated := @pure_update state task.fd { finished.conn with mysql := none }
            (processed (state.origins task.fd) reply.code) other (pure other wasOpen)
            fun same => absurd same different
          obtain ⟨ownRequest, ownResponse, ownMapping, ownFresh, sends⟩ := updated
          refine ⟨ownRequest, ownResponse, ownMapping, fun reading => ownFresh ?_, sends⟩
          refine reading.imp_left fun armed => ?_
          simpa only [Function.update_of_ne different] using armed
        · rw [List.mem_singleton.mp member]
          trivial
  · contradiction

theorem slots_timer (config : Config) (state : State) (fd : Fd) :
    (state.timer config fd).users = Function.update state.users fd
        ((state.users fd).initFor fd config.root config.connTrigMode) ∧
      (state.timer config fd).origins = Function.update state.origins fd
        { state.origins fd with request := .nothing, response := .nothing, csv := false } :=
  ⟨rfl, rfl⟩

/-- A new connection finds nothing of another one in its slot but the mapping. -/
theorem pure_timer {state : State} (pure : ∀ fd ∈ state.openFds, state.Pure fd) (config : Config)
    (fd : Fd) :
    ∀ other ∈ (state.timer config fd).openFds, (state.timer config fd).Pure other := by
  obtain ⟨users, origins⟩ := slots_timer config state fd
  obtain ⟨_, _, owner, openFds⟩ := frame_timer config state fd
  intro other isOpen
  rw [openFds] at isOpen
  by_cases same : other = fd
  · subst same
    constructor <;> simp only [users, origins, owner, Function.update_self]
    · exact .inl rfl
    · exact .inl rfl
    · exact fun _ left => absurd rfl left
    · exact fun _ => ResponseState.Fresh.init _
    · exact fun left => absurd rfl left
  · obtain ⟨request, response, mapping, fresh, located⟩ :=
      pure other ((List.mem_cons.mp isOpen).resolve_left same)
    constructor <;> simp only [users, origins, owner, Function.update_of_ne same]
    · exact request
    · exact response
    · exact mapping
    · intro reading
      refine fresh (reading.imp_left fun armed => ?_)
      have places : (state.timer config fd).armed =
          Function.update state.armed fd (some .epollin) := rfl
      simpa only [places, Function.update_of_ne same] using armed
    · exact located

/-- The main loop takes the next event: the slots are as before, and the request of a readable one
has no response yet. -/
theorem pure_serve {state : State} (pure : ∀ fd ∈ state.openFds, state.Pure fd)
    {event : Fd × Readiness} {rest : List (Fd × Readiness)}
    (first : state.pending = event :: rest) :
    ∀ fd ∈ state.openFds, ({ state with pending := rest } : State).Pure fd := by
  intro fd isOpen
  obtain ⟨request, response, mapping, fresh, located⟩ := pure fd isOpen
  refine ⟨request, response, mapping, fun reading => fresh ?_, located⟩
  refine reading.imp_right (Or.imp_left fun reported => ?_)
  rw [first]
  exact List.mem_cons_of_mem event reported

/-- A step of an ordered state in which responses are sent from their own bytes keeps the slots
pure. -/
theorem clean_step {config : Config} {state next : State} {label : Label}
    {effects : List Effect} (ordered : state.Ordered)
    (pure : ∀ fd ∈ state.openFds, state.Pure fd) (own : state.OwnMapping label)
    (stepped : step config state label = some (next, effects)) :
    Clean { state := next, effects := effects } := by
  cases label with
  | accept fd =>
      simp only [Server.step] at stepped
      split at stepped
      · contradiction
      · simp only [dealclinetdata, Option.some.injEq, Prod.mk.injEq] at stepped
        obtain ⟨rfl, rfl⟩ := stepped
        split
        · exact (Untouched.refl state).clean pure
        · exact ⟨pure_timer pure config fd, fun _ member => absurd member List.not_mem_nil⟩
  | epollWait events =>
      simp only [Server.step] at stepped
      split at stepped
      case isTrue possible =>
          cases stepped
          refine @Untouched.clean state _ ⟨rfl, rfl, rfl, fun _ isOpen => isOpen,
            fun fd reading => ?_, fun _ member => absurd member List.not_mem_nil⟩ pure
          rcases reading with armed | reported | busy
          · simp only at armed
            split at armed
            · contradiction
            · exact .inl armed
          · exact .inl (possible.2.2 _ reported)
          · exact .inr (.inr busy)
      · contradiction
  | hangup =>
      simp only [Server.step] at stepped
      split at stepped
      case _ fd rest first =>
          cases stepped
          exact (untouched_dealTimer _ _ fd).clean (pure_serve pure first)
      · contradiction
  | read results =>
      simp only [Server.step] at stepped
      split at stepped
      case _ fd rest first =>
          simp only [Option.map_eq_some_iff, Prod.mk.injEq] at stepped
          obtain ⟨outcome, dealt, rfl, rfl⟩ := stepped
          obtain ⟨_, hand, _⟩ := ordered.serve first
          have fresh := (pure fd hand.isOpen).fresh (.inr (.inl (first ▸ List.mem_cons_self)))
          exact @clean_dealwithread config { state with pending := rest } (pure_serve pure first) fd
            fresh results outcome dealt
      · contradiction
  | write results =>
      simp only [Server.step] at stepped
      split at stepped
      case _ fd rest first =>
          simp only [Option.map_eq_some_iff, Prod.mk.injEq] at stepped
          obtain ⟨outcome, dealt, rfl, rfl⟩ := stepped
          obtain ⟨_, hand, _⟩ := ordered.serve first
          obtain ⟨served, _, _⟩ := ordered.regular.serve first
          refine @clean_dealwithwrite config { state with pending := rest } (pure_serve pure first)
            fd results served hand (fun some_ => ?_) outcome dealt
          obtain ⟨whole, long, ownMapping⟩ := own (fd, .writable) (by rw [first]; rfl) rfl some_
          exact ⟨whole, long, ownMapping⟩
      · contradiction
  | tick =>
      simp only [Server.step] at stepped
      split at stepped
      · cases stepped
        exact (untouched_timerHandler state).clean pure
      · contradiction
  | dequeue =>
      simp only [Server.step] at stepped
      split at stepped
      · contradiction
      case _ task rest first =>
          split at stepped
          · cases stepped
            refine @Untouched.clean state _ ⟨rfl, rfl, rfl, fun _ isOpen => isOpen,
              fun fd reading => ?_, fun _ member => absurd member List.not_mem_nil⟩ pure
            refine reading.imp_right (Or.imp_right fun busy => ?_)
            simp only [first, List.map_append, List.mem_append, List.map_cons, List.mem_cons,
              List.map_nil, List.not_mem_nil, or_false] at busy ⊢
            tauto
          · contradiction
  | process worker mysql env =>
      simp only [Server.step] at stepped
      split at stepped
      · contradiction
      case _ task found =>
          simp only [Option.map_eq_some_iff, Prod.mk.injEq] at stepped
          obtain ⟨outcome, worked, rfl, rfl⟩ := stepped
          obtain ⟨_, hand⟩ := ordered.exclusive.release found
          have released := ordered.regular.retask state.queue (state.working.eraseIdx worker)
          have member : task ∈ state.queue ++ state.working :=
            List.mem_append_right _ (List.mem_of_getElem? found)
          have fresh := (pure task.fd hand.isOpen).fresh
            (.inr (.inr (List.mem_map_of_mem member)))
          have retasked : state.Untouched {
              state := { state with working := state.working.eraseIdx worker }
              effects := [] } := by
            refine ⟨rfl, rfl, rfl, fun _ isOpen => isOpen, fun fd reading => ?_,
              fun _ member => absurd member List.not_mem_nil⟩
            refine reading.imp_right (Or.imp_right fun busy => ?_)
            simp only [List.map_append, List.mem_append, List.mem_map] at busy ⊢
            rcases busy with queued | ⟨other, kept, same⟩
            · exact .inl queued
            · exact .inr ⟨other, List.mem_of_mem_eraseIdx kept, same⟩
          exact clean_work (retasked.pures pure) released.sound hand fresh worked

end State

/-- **Responses do not cross connections**, in every run in which no tick closes a
connection that is queued or with a worker, and each response is sent from its own bytes: a
request in the queue or with a worker keeps its slot, and what is sent on a connection comes from
what was received on it. -/
theorem responses_uncrossed (config : Config) (users : Fd → HttpConn)
    (usersTimer : Fd → ClientData) (nodes : Addr → UtilTimer) {labels : List Label} {last : State}
    {effects : List Effect}
    (meets :
      RunMeets (step config) (fun state label => state.Unhurried label ∧ state.OwnMapping label)
      (State.start users usersTimer nodes) labels)
    (ran : run (step config) (State.start users usersTimer nodes) labels = some (last, effects)) :
    (∀ task ∈ last.queue ++ last.working,
      task.fd ∈ last.openFds ∧ last.owner task.fd = task.conn) ∧
      ∀ effect ∈ effects, effect.SendOk := by
  have first : (State.start users usersTimer nodes).Ordered ∧
      State.Clean { state := State.start users usersTimer nodes, effects := [] } :=
    ⟨State.start_ordered users usersTimer nodes,
      fun fd isOpen => absurd isOpen List.not_mem_nil,
      fun _ member => absurd member List.not_mem_nil⟩
  obtain ⟨ordered, clean⟩ := run_invariant
    (fun state log => state.Ordered ∧ State.Clean { state := state, effects := log })
    (fun state log label next effects holds meets stepped => by
      obtain ⟨ordered, clean⟩ := holds
      have stepClean := State.clean_step ordered clean.pure meets.2 stepped
      exact ⟨(ordered.step meets.1 stepped).1,
        @State.Clean.andThen _ (fun _ => { state := next, effects := effects }) clean stepClean⟩)
    first meets ran
  exact ⟨fun task isTask => ⟨ordered.exclusive.task_open task isTask,
    ordered.exclusive.task_owner task isTask⟩, clean.sends⟩

/-- The response is sent in two portions, the first of which ends in the header. -/
def twoPortions : List Label :=
  [.epollWait [(7, .writable)], .write [.accepted 40, .again], .epollWait [(7, .writable)],
    .write [.accepted 17]]

theorem responses_uncrossed_narrow :
    ∃ last effects,
      run (step narrow) (State.start blankUsers blankTimers blankNodes) (onePage ++ twoPortions) =
        some (last, effects) ∧
      effects.count (.send (some 0) (.one 0)) = 2 ∧
      (∀ task ∈ last.queue ++ last.working,
        task.fd ∈ last.openFds ∧ last.owner task.fd = task.conn) ∧
        ∀ effect ∈ effects, effect.SendOk := by
  have runs : (run (step narrow) (State.start blankUsers blankTimers blankNodes)
      (onePage ++ twoPortions)).map
        (fun outcome => outcome.2.count (.send (some 0) (.one 0))) = some 2 := by
    decide +kernel
  obtain ⟨⟨last, effects⟩, ran, twice⟩ := Option.map_eq_some_iff.mp runs
  exact ⟨last, effects, ran, twice,
    responses_uncrossed narrow blankUsers blankTimers blankNodes (by decide +kernel) ran⟩

/-- A second portion that ends in the header is followed by bytes from in front of the mapping. -/
example : (run (step narrow) (State.start blankUsers blankTimers blankNodes)
    (onePage ++ [.epollWait [(7, .writable)],
      .write [.accepted 30, .accepted 10, .accepted 15, .again]])).map
        (fun outcome => outcome.2.count (.send (some 0) .other)) = some 1 := by
  decide +kernel

/-- A connection is accepted and read, and sixteen ticks pass before a worker takes its
request. -/
def slowWorker : List Label :=
  oneRead ++ List.replicate 16 .tick

/-- The slot of a queued request is closed. -/
theorem not_responses_uncrossed :
    ¬∀ (config : Config) (users : Fd → HttpConn) (usersTimer : Fd → ClientData)
      (nodes : Addr → UtilTimer) (labels : List Label) (last : State) (effects : List Effect),
      run (step config) (State.start users usersTimer nodes) labels = some (last, effects) →
      (∀ task ∈ last.queue ++ last.working,
        task.fd ∈ last.openFds ∧ last.owner task.fd = task.conn) ∧
        ∀ effect ∈ effects, effect.SendOk := by
  intro claim
  have ends : (run (step narrow) (State.start blankUsers blankTimers blankNodes) slowWorker).map
      (fun last => (last.1.openFds, (last.1.queue ++ last.1.working).map Task.fd)) =
        some ([], [7]) := by
    decide +kernel
  obtain ⟨⟨last, effects⟩, ran, facts⟩ := Option.map_eq_some_iff.mp ends
  simp only [Prod.mk.injEq] at facts
  obtain ⟨openFds, tasks⟩ := facts
  have isTask : 7 ∈ (last.queue ++ last.working).map Task.fd := by
    rw [tasks]
    decide
  obtain ⟨task, member, _⟩ := List.mem_map.mp isTask
  have isOpen := ((claim narrow blankUsers blankTimers blankNodes slowWorker last effects ran).1
    task member).1
  rw [openFds] at isOpen
  exact List.not_mem_nil isOpen

end TimeGANWebServer.Server
