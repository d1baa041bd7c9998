import TimeGANWebServer.Server.MainLoop

/-!
# The alarm and the end of the loop

An alarm is set once, and again in `timer_handler` only: it goes off, its handler writes a byte to
the socket, the main loop reads the byte and calls `timer_handler` behind the batch.  The byte of
SIGTERM stays in the socket until the main loop has read it, and then the loop ends.
-/

namespace TimeGANWebServer.Server

open TimeGANWebServer.Support

/-- The handler of the alarm finds room in the socket. -/
def LoopLabel.HasRoom : LoopLabel → Prop
  | .deliver .alarm room => room = true
  | _ => True

/-- The step is a batch in which the socket of the signals is reported. -/
def LoopLabel.reportsSignals : LoopLabel → Bool
  | .epollWait batch => .signals ∈ batch
  | _ => false

instance decidableHasRoom : (label : LoopLabel) → Decidable label.HasRoom
  | .deliver .alarm room => inferInstanceAs (Decidable (room = true))
  | .deliver .term _ | .epollWait _ | .epollFails | .listen | .accept _ | .acceptFails _ | .signals
  | .client _ | .tick | .again | .worker _ | .pass _ | .expire | .kill | .connect => .isTrue trivial

namespace MainLoop

variable {config : Config} {listenTrigmode : Int} {server : State} {now : Int}
  {loop next last : MainLoop} {label : LoopLabel} {labels : List LoopLabel}
  {effects log : List Effect}

/-! ## The alarm -/

/-- How often the alarm is set, raised, in the socket, or about to be handled. -/
def tokens (loop : MainLoop) : Nat :=
  loop.alarm.toNat + (loop.raised .alarm).toNat + loop.pipe.count .alarm + loop.timeout.toNat

theorem toNat_or_contains (timeout : Bool) (signals : List Signal)
    (once : signals.count .alarm + timeout.toNat ≤ 1) :
    (timeout || signals.contains .alarm).toNat = signals.count .alarm + timeout.toNat := by
  by_cases member : Signal.alarm ∈ signals
  · have some_ := List.count_pos_iff.mpr member
    have off : timeout.toNat = 0 := by omega
    rw [List.contains_iff_mem.mpr member, Bool.or_true, Bool.toNat_true]
    omega
  · rw [List.count_eq_zero_of_not_mem member, Nat.zero_add]
    have none_ : signals.contains .alarm = false := by
      rw [Bool.eq_false_iff, ne_eq, List.contains_iff_mem]
      exact member
    rw [none_, Bool.or_false]

/-- A step keeps the one token, unless there is no room for it. -/
theorem Step.keeps_token (stepped : Step config listenTrigmode loop label next effects)
    (once : loop.tokens ≤ 1) :
    (label.HasRoom → next.tokens = loop.tokens) ∧ (¬label.HasRoom → next.tokens = 0) := by
  cases stepped with
  | reported | failed | listened | accepted | acceptFailed | handled | wentOn | worked | passed
  | connected => exact ⟨fun _ => rfl, fun noRoom => absurd trivial noRoom⟩
  | signalled =>
      refine ⟨fun _ => ?_, fun noRoom => absurd trivial noRoom⟩
      have split : loop.pipe.count .alarm = (loop.pipe.take signalsSize).count .alarm +
          (loop.pipe.drop signalsSize).count .alarm := by
        rw [← List.count_append, List.take_append_drop]
      simp only [MainLoop.tokens] at once
      have read := toNat_or_contains loop.timeout (loop.pipe.take signalsSize) (by omega)
      simp only [MainLoop.tokens, dealwithsignal_eq, read]
      omega
  | ticked handling done isTimeout =>
      refine ⟨fun _ => ?_, fun noRoom => absurd trivial noRoom⟩
      simp only [MainLoop.tokens, isTimeout, Bool.toNat_true, Bool.toNat_false] at once ⊢
      omega
  | expired set due =>
      refine ⟨fun _ => ?_, fun noRoom => absurd trivial noRoom⟩
      simp only [MainLoop.tokens, set, Function.update_self, Bool.toNat_true, Bool.toNat_false]
        at once ⊢
      omega
  | killed =>
      have other : Signal.alarm ≠ .term := by decide
      refine ⟨fun _ => ?_, fun noRoom => absurd trivial noRoom⟩
      simp only [MainLoop.tokens, Function.update_of_ne other]
  | @delivered signal room raised =>
      cases signal with
      | alarm =>
          simp only [MainLoop.tokens, raised, Function.update_self, Bool.toNat_true,
            Bool.toNat_false] at once ⊢
          cases room with
          | true =>
              refine ⟨fun _ => ?_, fun noRoom => absurd rfl noRoom⟩
              simp only [if_true, List.count_append, List.count_singleton_self]
              omega
          | false =>
              refine ⟨fun hasRoom => absurd hasRoom Bool.false_ne_true, fun _ => ?_⟩
              simp only [Bool.false_eq_true, if_false]
              omega
      | term =>
          have other : Signal.alarm ≠ .term := by decide
          refine ⟨fun _ => ?_, fun noRoom => absurd trivial noRoom⟩
          simp only [MainLoop.tokens, Function.update_of_ne other]
          cases room <;> simp [List.count_append]

/-- Since the alarm was set last, its time has passed before it is noticed; and the alarm was set
no more often than that time fits. -/
structure Punctual (begin : Int) (loop : MainLoop) : Prop where
  raised : loop.raised .alarm = true → loop.armedAt + timeslot ≤ loop.now
  written : .alarm ∈ loop.pipe → loop.armedAt + timeslot ≤ loop.now
  timeout : loop.timeout = true → loop.armedAt + timeslot ≤ loop.now
  armed : loop.armedAt ≤ loop.now
  ticks : begin + timeslot * loop.ticks ≤ loop.armedAt

theorem punctual_start (server : State) (now : Int) : Punctual now (start server now) where
  raised := nofun
  written := nofun
  timeout := nofun
  armed := Int.le_refl now
  ticks := by simp [start]

/-- Nothing that the times depend on changes. -/
theorem Punctual.congr {begin : Int} (punctual : Punctual begin loop)
    (raised : next.raised = loop.raised) (pipe : next.pipe = loop.pipe)
    (timeout : next.timeout = loop.timeout) (armedAt : next.armedAt = loop.armedAt)
    (same : next.now = loop.now) (ticks : next.ticks = loop.ticks) : Punctual begin next := by
  constructor
  · rw [raised, armedAt, same]
    exact punctual.raised
  · rw [pipe, armedAt, same]
    exact punctual.written
  · rw [timeout, armedAt, same]
    exact punctual.timeout
  · rw [armedAt, same]
    exact punctual.armed
  · rw [ticks, armedAt]
    exact punctual.ticks

theorem Punctual.step {begin : Int} (punctual : Punctual begin loop) (once : loop.tokens ≤ 1)
    (stepped : Step config listenTrigmode loop label next effects) : Punctual begin next := by
  cases stepped with
  | reported | failed | listened | accepted | acceptFailed | handled | wentOn | worked
  | connected => exact punctual.congr rfl rfl rfl rfl rfl rfl
  | signalled =>
      rw [dealwithsignal_eq]
      refine ⟨punctual.raised, fun member => ?_, fun isTimeout => ?_, punctual.armed,
        punctual.ticks⟩
      · exact punctual.written (List.mem_of_mem_drop member)
      · rcases Bool.or_eq_true _ _ |>.mp isTimeout with before | read
        · exact punctual.timeout before
        · exact punctual.written (List.mem_of_mem_take (List.contains_iff_mem.mp read))
  | ticked handling done isTimeout =>
      -- The token was the timeout, so nothing else is left of the old alarm.
      simp only [MainLoop.tokens, isTimeout, Bool.toNat_true] at once
      have due := punctual.timeout isTimeout
      have ticks := punctual.ticks
      refine ⟨fun raised => ?_, fun member => ?_, nofun, Int.le_refl _, ?_⟩
      · simp only at raised
        rw [raised, Bool.toNat_true] at once
        omega
      · have some_ := List.count_pos_iff.mpr member
        simp only at some_
        omega
      · simp only [timeslot] at due ticks ⊢
        omega
  | @passed seconds =>
      have later : ∀ {bound : Int}, bound ≤ loop.now → bound ≤ loop.now + seconds := fun bounded =>
        Int.le_trans bounded (Int.le_add_of_nonneg_right (Int.natCast_nonneg seconds))
      exact ⟨fun raised => later (punctual.raised raised),
        fun written => later (punctual.written written),
        fun timeout => later (punctual.timeout timeout), later punctual.armed, punctual.ticks⟩
  | expired set due =>
    exact ⟨fun _ => due, fun _ => due, fun _ => due, punctual.armed, punctual.ticks⟩
  | killed =>
      have other : Signal.alarm ≠ .term := by decide
      refine ⟨fun raised => ?_, punctual.written, punctual.timeout, punctual.armed, punctual.ticks⟩
      simp only [Function.update_of_ne other] at raised
      exact punctual.raised raised
  | @delivered signal room raised =>
      refine ⟨fun still => ?_, fun member => ?_, punctual.timeout, punctual.armed, punctual.ticks⟩
      · cases signal with
        | alarm =>
            simp only [Function.update_self] at still
            contradiction
        | term =>
            have other : Signal.alarm ≠ .term := by decide
            simp only [Function.update_of_ne other] at still
            exact punctual.raised still
      · cases room with
        | false => exact punctual.written member
        | true =>
            rcases List.mem_append.mp member with before | new
            · exact punctual.written before
            · rw [← List.mem_singleton.mp new] at raised
              exact punctual.raised raised

/-- In every run the alarm is in one place at most, and in one exactly if its handler has found
room in the socket each time; if not, `timer_handler` is not called any more.  Between two of its
calls, and in front of the first one, `TIMESLOT` seconds pass. -/
theorem alarm_of_run
    (ran : run (step config listenTrigmode) (start server now) labels = some (loop, log)) :
    loop.tokens ≤ 1 ∧
      (loop.tokens = 1 ↔
        RunMeets (step config listenTrigmode) (fun _ => LoopLabel.HasRoom) (start server now)
          labels) ∧
      (loop.timeout = true → loop.armedAt + timeslot ≤ loop.now) ∧
      timeslot * loop.ticks ≤ loop.now - now := by
  have keepsOnce : ∀ loop label next effects, tokens loop ≤ 1 →
      step config listenTrigmode loop label = some (next, effects) → next.tokens ≤ 1 := by
    intro loop label next effects once stepped
    obtain ⟨same, gone⟩ := (step_cases stepped).keeps_token once
    by_cases hasRoom : label.HasRoom
    · rw [same hasRoom]
      exact once
    · rw [gone hasRoom]
      exact Nat.zero_le 1
  have both : loop.tokens ≤ 1 ∧ loop.Punctual now :=
    run_state_always (fun loop => loop.tokens ≤ 1 ∧ loop.Punctual now)
      (fun loop label next effects holds stepped =>
        ⟨keepsOnce loop label next effects holds.1 stepped,
          holds.2.step holds.1 (step_cases stepped)⟩)
      ⟨Nat.le_refl 1, punctual_start server now⟩ ran
  obtain ⟨once, punctual⟩ := both
  refine ⟨once, ?_, punctual.timeout, ?_⟩
  · refine run_iff_meets (fun loop => loop.tokens ≤ 1) (fun loop => loop.tokens = 1) keepsOnce
      ?_ ?_ ?_ (Nat.le_refl 1) rfl ran
    · intro loop label next effects once one hasRoom stepped
      rw [((step_cases stepped).keeps_token once).1 hasRoom]
      exact one
    · intro loop label next effects once noRoom stepped
      rw [((step_cases stepped).keeps_token once).2 noRoom]
      exact Nat.zero_ne_one
    · intro loop label next effects once notOne stepped
      obtain ⟨same, gone⟩ := (step_cases stepped).keeps_token once
      by_cases hasRoom : label.HasRoom
      · rw [same hasRoom]
        exact notOne
      · rw [gone hasRoom]
        exact Nat.zero_ne_one
  · have armed := punctual.armed
    have ticks := punctual.ticks
    omega

/-- The alarm goes off once, and is set again. -/
def oneAlarm : List LoopLabel :=
  [.pass 7, .expire, .epollWait [], .again, .deliver .alarm true, .epollWait [.signals], .signals,
    .tick, .again]

theorem alarm_oneAlarm : ∃ loop log,
    run (step ⟨0, 8, 10000, 0, []⟩ 0) (start (.start blankUsers blankTimers blankNodes) 100)
      oneAlarm =
        some (loop, log) ∧
      loop.ticks = 1 ∧ loop.tokens = 1 ∧ timeslot * loop.ticks ≤ loop.now - 100 := by
  have facts : (run (step ⟨0, 8, 10000, 0, []⟩ 0)
      (start (.start blankUsers blankTimers blankNodes) 100) oneAlarm).map
        (fun last => last.1.ticks) = some 1 := by
    decide +kernel
  obtain ⟨⟨loop, log⟩, ran, ticks⟩ := Option.map_eq_some_iff.mp facts
  obtain ⟨-, one, -, seconds⟩ := alarm_of_run ran
  refine ⟨loop, log, ran, ticks, one.mpr (RunMeets.of_forall ?_ _), seconds⟩
  decide

/-! ## The end of the loop -/

/-- The main loop is told to end, or its byte is in the socket. -/
def Ending (loop : MainLoop) : Prop :=
  .term ∈ loop.pipe ∨ loop.stopServer = true

/-- How often the socket can still be reported until the loop is told to end. -/
def rounds (loop : MainLoop) : Nat :=
  if loop.stopServer = true then
    0
  else
    loop.pipe.idxOf .term / signalsSize + if .signals ∈ loop.batch then 0 else 1

/-- A step that the byte does not depend on. -/
theorem ending_congr (ending : loop.Ending) (pipe : ∃ more, next.pipe = loop.pipe ++ more)
    (stopServer : next.stopServer = loop.stopServer)
    (batch : .signals ∈ next.batch ↔ .signals ∈ loop.batch) :
    next.Ending ∧ next.rounds = loop.rounds := by
  obtain ⟨more, grown⟩ := pipe
  refine ⟨ending.imp (fun member => ?_) (fun stops => stopServer.trans stops), ?_⟩
  · rw [grown]
    exact List.mem_append_left more member
  · simp only [rounds, stopServer, batch]
    split
    · rfl
    · rename_i goesOn
      have member := ending.resolve_right goesOn
      rw [grown, List.idxOf_append_of_mem member]

/-- The byte comes nearer each time the socket is reported. -/
theorem Step.ending (stepped : Step config listenTrigmode loop label next effects)
    (orderly : loop.Orderly) (ending : loop.Ending) :
    next.Ending ∧ (if label.reportsSignals then 1 else 0) + next.rounds ≤ loop.rounds := by
  have still : (∃ more, next.pipe = loop.pipe ++ more) → next.stopServer = loop.stopServer →
      (.signals ∈ next.batch ↔ .signals ∈ loop.batch) → label.reportsSignals = false →
      next.Ending ∧ (if label.reportsSignals then 1 else 0) + next.rounds ≤ loop.rounds := by
    intro pipe stopServer batch notReported
    obtain ⟨nextEnding, same⟩ := ending_congr ending pipe stopServer batch
    refine ⟨nextEnding, ?_⟩
    rw [notReported, same]
    simp
  have samePipe : ∃ more, loop.pipe = loop.pipe ++ more := ⟨[], (List.append_nil _).symm⟩
  cases stepped with
  | @reported batch server effects waiting =>
      obtain ⟨noBatch, goesOn⟩ := orderly.waiting waiting
      refine ⟨ending, ?_⟩
      simp only [LoopLabel.reportsSignals, rounds, goesOn, noBatch, List.not_mem_nil,
        Bool.false_eq_true, if_false, decide_eq_true_eq]
      split <;> omega
  | listened _ first =>
      refine still samePipe rfl ?_ rfl
      simp [first]
  | handled _ first =>
      refine still samePipe rfl ?_ rfl
      simp [first]
  | @signalled rest handling first =>
      have single := orderly.distinct
      rw [first] at single
      have noOther : .signals ∉ rest := (List.nodup_cons.mp single).1
      rw [dealwithsignal_eq]
      by_cases stops : loop.stopServer = true
      · refine ⟨.inr (by simp only [stops, Bool.true_or]), ?_⟩
        simp only [LoopLabel.reportsSignals, rounds, stops, Bool.true_or, if_true,
          Bool.false_eq_true, if_false, Nat.le_refl]
      · have member := ending.resolve_right stops
        by_cases read : .term ∈ loop.pipe.take signalsSize
        · have told : (loop.stopServer || (loop.pipe.take signalsSize).contains .term) = true := by
            rw [List.contains_iff_mem.mpr read, Bool.or_true]
          refine ⟨.inr told, ?_⟩
          simp only [LoopLabel.reportsSignals, rounds, told, if_true, Bool.false_eq_true, if_false,
            Nat.zero_le, Nat.add_zero]
        · -- The byte is behind those that are read.
          have whole : loop.pipe = loop.pipe.take signalsSize ++ loop.pipe.drop signalsSize :=
            (List.take_append_drop _ _).symm
          have behind : .term ∈ loop.pipe.drop signalsSize := by
            rw [whole] at member
            exact (List.mem_append.mp member).resolve_left read
          have long : (loop.pipe.take signalsSize).length = signalsSize := by
            have some_ := List.length_pos_of_mem behind
            rw [List.length_drop] at some_
            rw [List.length_take]
            omega
          have index : loop.pipe.idxOf .term =
              signalsSize + (loop.pipe.drop signalsSize).idxOf .term := by
            rw [whole, List.idxOf_append_of_notMem read, long, ← whole]
          have goesOn : loop.stopServer = false := Bool.eq_false_iff.mpr stops
          have notRead : (loop.pipe.take signalsSize).contains .term = false := by
            rw [Bool.eq_false_iff, ne_eq, List.contains_iff_mem]
            exact read
          refine ⟨.inl behind, ?_⟩
          simp only [LoopLabel.reportsSignals, rounds, goesOn, notRead, first, noOther, index,
            Bool.or_self, Bool.false_eq_true, if_false, List.mem_cons, true_or, if_true]
          rw [Nat.add_div_left _ (by decide)]
          omega
  | @delivered signal room =>
      refine still ?_ rfl Iff.rfl rfl
      cases room with
      | true => exact ⟨[signal], rfl⟩
      | false => exact samePipe
  | failed | accepted | acceptFailed | wentOn | ticked | worked | passed | expired | killed
  | connected => exact still samePipe rfl Iff.rfl rfl

/-- From the byte of SIGTERM on, the socket is reported no more often than its place in it allows
for; the byte stays there until the loop has been told to end, and then `epoll_wait` is not called
any more. -/
theorem ends_of_run {before after : List LoopLabel} {log later : List Effect}
    (ran : run (step config listenTrigmode) (start server now) before = some (loop, log))
    (ending : loop.Ending)
    (ranOn : run (step config listenTrigmode) loop after = some (last, later)) :
    last.Ending ∧ after.countP LoopLabel.reportsSignals + last.rounds ≤ loop.rounds ∧
      (last.stopServer = true → last.phase ≠ .waiting) := by
  have keeps : ∀ (loop : MainLoop) label next effects, loop.Orderly →
      step config listenTrigmode loop label = some (next, effects) → next.Orderly :=
    fun _ _ _ _ orderly stepped => orderly.step (step_cases stepped)
  have orderly : loop.Orderly := run_state_always Orderly keeps (orderly_start server now) ran
  have approached : last.Orderly ∧ last.Ending ∧
      after.countP LoopLabel.reportsSignals + last.rounds ≤ loop.rounds := by
    clear ran
    induction after generalizing loop later with
    | nil =>
        cases ranOn
        exact ⟨orderly, ending, by simp⟩
    | cons label after ih =>
        obtain ⟨next, first, rest, stepped, further, rfl⟩ := run_cons ranOn
        obtain ⟨nextEnding, nearer⟩ := (step_cases stepped).ending orderly ending
        obtain ⟨lastOrderly, lastEnding, count⟩ :=
          ih nextEnding further (keeps loop label next first orderly stepped)
        refine ⟨lastOrderly, lastEnding, ?_⟩
        rw [List.countP_cons]
        omega
  obtain ⟨lastOrderly, lastEnding, count⟩ := approached
  refine ⟨lastEnding, count, fun stops waiting => ?_⟩
  have goesOn := (lastOrderly.waiting waiting).2
  rw [stops] at goesOn
  contradiction

/-- SIGTERM is sent, its byte is read in the second batch, and the loop ends. -/
theorem ends_oneBatch : ∃ loop log last later,
    run (step ⟨0, 8, 10000, 0, []⟩ 0) (start (.start blankUsers blankTimers blankNodes) 100)
        [.kill, .epollWait [], .deliver .term true] = some (loop, log) ∧
      run (step ⟨0, 8, 10000, 0, []⟩ 0) loop [.again, .epollWait [.signals], .signals, .again] =
        some (last, later) ∧
      last.phase = .ended ∧ last.Ending := by
  have facts : (run (step ⟨0, 8, 10000, 0, []⟩ 0)
      (start (.start blankUsers blankTimers blankNodes) 100)
        [.kill, .epollWait [], .deliver .term true]).bind (fun middle =>
          (run (step ⟨0, 8, 10000, 0, []⟩ 0) middle.1
            [.again, .epollWait [.signals], .signals, .again]).map
              fun last => (middle.1.pipe, last.1.phase)) = some ([.term], .ended) := by
    decide +kernel
  obtain ⟨⟨loop, log⟩, ran, facts⟩ := Option.bind_eq_some_iff.mp facts
  obtain ⟨⟨last, later⟩, ranOn, same⟩ := Option.map_eq_some_iff.mp facts
  obtain ⟨pipe, phase⟩ := Prod.mk.inj same
  have ending : loop.Ending := .inl (by rw [pipe]; exact List.mem_singleton_self _)
  exact ⟨loop, log, last, later, ran, ranOn, phase, (ends_of_run ran ending ranOn).1⟩

end MainLoop

end TimeGANWebServer.Server
