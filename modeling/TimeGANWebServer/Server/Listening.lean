import TimeGANWebServer.Server.MainLoop

/-!
# Connections that wait to be accepted

With `m_LISTENTrigmode` 1 the listening socket is reported once when connections arrive, and
`dealclinetdata` calls `accept` until it fails.  It also gives up with connections left, where
there are too many of them or `accept` fails for another reason than that there is none.
-/

namespace TimeGANWebServer.Server

open TimeGANWebServer.Support

namespace MainLoop

variable {config : Config} {listenTrigmode : Int} {server : State} {now : Int}
  {loop next last : MainLoop} {label : LoopLabel} {labels : List LoopLabel}
  {effects log : List Effect}

/-- Connections wait to be accepted, and nothing will be done about them: they have been reported,
and the report has been handled. -/
structure Deaf (loop : MainLoop) : Prop where
  backlog : 0 < loop.backlog
  noEdge : loop.edge = false
  notReported : .listen ∉ loop.batch
  notAccepting : loop.phase ≠ .accepting

/-- `dealclinetdata` goes on until there is no connection. -/
def Drains (loop : MainLoop) : LoopLabel → Prop
  | .accept _ => loop.server.userCount < maxFd
  | .acceptFails wouldBlock => wouldBlock = true
  | _ => True

/-- Deafness only depends on the listening socket. -/
theorem Deaf.congr (deaf : loop.Deaf) (backlog : next.backlog = loop.backlog)
    (edge : next.edge = loop.edge) (batch : .listen ∈ next.batch → .listen ∈ loop.batch)
    (phase : next.phase = .accepting → loop.phase = .accepting) : next.Deaf where
  backlog := by
    rw [backlog]
    exact deaf.backlog
  noEdge := edge.trans deaf.noEdge
  notReported := mt batch deaf.notReported
  notAccepting := mt phase deaf.notAccepting

/-- In edge-triggered mode, only a new connection ends it. -/
theorem Step.deaf (stepped : Step config listenTrigmode loop label next effects)
    (edgeTriggered : listenTrigmode ≠ 0) (notConnect : label ≠ .connect) (deaf : loop.Deaf) :
    next.Deaf := by
  cases stepped with
  | @reported batch _ _ _ _ reports =>
      have notReported : .listen ∉ batch := by
        intro member
        have edge := reports .listen member
        rw [Reports, if_neg edgeTriggered, deaf.noEdge] at edge
        contradiction
      refine ⟨deaf.backlog, ?_, notReported, nofun⟩
      simp only [if_neg notReported]
      exact deaf.noEdge
  | listened _ first =>
      exact absurd (by rw [first]; exact List.mem_cons_self) deaf.notReported
  | accepted accepting => exact absurd accepting deaf.notAccepting
  | acceptFailed accepting => exact absurd accepting deaf.notAccepting
  | signalled _ first =>
      rw [dealwithsignal_eq]
      refine deaf.congr rfl rfl (fun member => ?_) id
      rw [first]
      exact List.mem_cons_of_mem _ member
  | handled _ first =>
      refine deaf.congr rfl rfl (fun member => ?_) id
      rw [first]
      exact List.mem_cons_of_mem _ member
  | wentOn =>
      refine deaf.congr rfl rfl id ?_
      simp only
      split <;> nofun
  | failed => exact deaf.congr rfl rfl id nofun
  | ticked | worked | passed | expired | killed | delivered => exact deaf.congr rfl rfl id id
  | connected => exact absurd rfl notConnect

/-- Only a call of `dealclinetdata` that gives up begins it. -/
theorem Step.not_deaf (stepped : Step config listenTrigmode loop label next effects)
    (edgeTriggered : listenTrigmode ≠ 0) (orderly : loop.Orderly) (drains : loop.Drains label)
    (hears : ¬loop.Deaf) : ¬next.Deaf := by
  intro deaf
  cases stepped with
  | @reported batch _ _ waiting =>
      -- In front of `epoll_wait` nothing is left of the batch before.
      have edge := deaf.noEdge
      simp only [if_neg deaf.notReported] at edge
      refine hears ⟨deaf.backlog, edge, ?_, ?_⟩
      · rw [(orderly.waiting waiting).1]
        exact List.not_mem_nil
      · rw [waiting]
        nofun
  | listened => exact deaf.notAccepting rfl
  | accepted =>
      refine deaf.notAccepting ?_
      have room : ¬(listenTrigmode = 0 ∨ maxFd ≤ loop.server.userCount) :=
        not_or.mpr ⟨edgeTriggered, Int.not_le.mpr drains⟩
      simp only [if_neg room]
  | acceptFailed _ blocks =>
      have none_ := blocks drains
      have some_ := deaf.backlog
      simp only [none_, Nat.lt_irrefl] at some_
  | signalled _ first =>
      rw [dealwithsignal_eq] at deaf
      refine hears (deaf.congr rfl rfl (fun member => ?_) id)
      rw [first] at member
      exact (List.mem_cons.mp member).resolve_left nofun
  | handled _ first =>
      refine hears (deaf.congr rfl rfl (fun member => ?_) id)
      rw [first] at member
      exact (List.mem_cons.mp member).resolve_left nofun
  | wentOn handling =>
      refine hears (deaf.congr rfl rfl id fun accepting => ?_)
      rw [handling] at accepting
      contradiction
  | failed waiting =>
      refine hears (deaf.congr rfl rfl id fun accepting => ?_)
      rw [waiting] at accepting
      contradiction
  | ticked | worked | passed | expired | killed | delivered =>
    exact hears (deaf.congr rfl rfl id id)
  | connected => exact Bool.false_ne_true deaf.noEdge.symm

/-- A run in which `dealclinetdata` gives up with connections left, and none arrives behind it. -/
def GaveUp (config : Config) (listenTrigmode : Int) (loop : MainLoop) (labels : List LoopLabel) :
    Prop :=
  ∃ before breaking after middle next log effects,
    labels = before ++ breaking :: after ∧
      run (step config listenTrigmode) loop before = some (middle, log) ∧
      middle.step config listenTrigmode breaking = some (next, effects) ∧
      ¬middle.Drains breaking ∧ next.Deaf ∧ .connect ∉ after

theorem GaveUp.cons (gaveUp : next.GaveUp config listenTrigmode labels)
    (stepped : loop.step config listenTrigmode label = some (next, effects)) :
    loop.GaveUp config listenTrigmode (label :: labels) := by
  obtain ⟨before, breaking, after, middle, behind, log, made, rfl, ran, breaks, notDrains, deaf,
    none_⟩ := gaveUp
  exact ⟨label :: before, breaking, after, middle, behind, effects ++ log, made, rfl,
    run_of_step stepped ran, breaks, notDrains, deaf, none_⟩

/-- A deaf loop stays deaf as long as no client connects. -/
theorem deaf_of_run (edgeTriggered : listenTrigmode ≠ 0) (noConnect : .connect ∉ labels)
    (deaf : loop.Deaf) (ran : run (step config listenTrigmode) loop labels = some (last, log)) :
    last.Deaf := by
  have others : ∀ label ∈ labels, label ≠ .connect := by
    rintro label member rfl
    exact noConnect member
  exact run_state Deaf
    (fun _ _ _ _ deaf notConnect stepped => (step_cases stepped).deaf edgeTriggered notConnect deaf)
    deaf (RunMeets.of_forall others loop) ran

/-- A loop is deaf at the end of a run since it has been so all the time, or has given up. -/
theorem deaf_cases (edgeTriggered : listenTrigmode ≠ 0) (orderly : loop.Orderly)
    (ran : run (step config listenTrigmode) loop labels = some (last, log)) (deaf : last.Deaf) :
    loop.Deaf ∧ .connect ∉ labels ∨ loop.GaveUp config listenTrigmode labels := by
  induction labels generalizing loop log with
  | nil =>
      cases ran
      exact .inl ⟨deaf, List.not_mem_nil⟩
  | cons label labels ih =>
      obtain ⟨next, first, rest, stepped, later, rfl⟩ := run_cons ran
      have made := step_cases stepped
      rcases ih (orderly.step made) later with ⟨nextDeaf, noConnect⟩ | gaveUp
      · by_cases drains : loop.Drains label
        · have before : loop.Deaf := by
            by_contra hears
            exact made.not_deaf edgeTriggered orderly drains hears nextDeaf
          have notConnect : .connect ≠ label := by
            rintro rfl
            cases stepped
            exact Bool.false_ne_true nextDeaf.noEdge.symm
          refine .inl ⟨before, fun member => ?_⟩
          exact (List.mem_cons.mp member).elim notConnect noConnect
        · exact .inr ⟨[], label, labels, loop, next, [], first, rfl, rfl, stepped, drains, nextDeaf,
            noConnect⟩
      · exact .inr (gaveUp.cons stepped)

/-- In edge-triggered mode connections are left waiting exactly if `dealclinetdata` has given up
with connections left and no client has connected since then. -/
theorem deaf_iff_gaveUp (edgeTriggered : listenTrigmode ≠ 0)
    (ran : run (step config listenTrigmode) (start server now) labels = some (last, log)) :
    last.Deaf ↔ (start server now).GaveUp config listenTrigmode labels := by
  constructor
  · intro deaf
    refine (deaf_cases edgeTriggered (orderly_start server now) ran deaf).resolve_left ?_
    rintro ⟨deaf, _⟩
    exact Nat.lt_irrefl 0 deaf.backlog
  · rintro ⟨before, breaking, after, middle, next, first, effects, rfl, ranBefore, stepped, _, deaf,
      noConnect⟩
    obtain ⟨other, made, rest, again, ranRest, rfl⟩ := run_append ran
    rw [ranBefore] at again
    cases again
    obtain ⟨behind, first, later, steppedAgain, ranAfter, rfl⟩ := run_cons ranRest
    rw [stepped] at steppedAgain
    cases steppedAgain
    exact deaf_of_run edgeTriggered noConnect deaf ranAfter

/-- Of two connections one is accepted; the second `accept` fails since there are no descriptors
left, and the next batch has nothing of the other connection. -/
def outOfDescriptors : List LoopLabel :=
  [.connect, .connect, .epollWait [.listen], .listen, .accept 7, .acceptFails false, .again,
    .epollWait []]

theorem deaf_outOfDescriptors : ∃ last log,
    run (step ⟨0, 8, 10000, 0, []⟩ 1) (start (.start blankUsers blankTimers blankNodes) 0)
        outOfDescriptors = some (last, log) ∧
      (last.Deaf ↔ (start (.start blankUsers blankTimers blankNodes) 0).GaveUp
        ⟨0, 8, 10000, 0, []⟩ 1 outOfDescriptors) ∧ last.Deaf := by
  have facts : (run (step ⟨0, 8, 10000, 0, []⟩ 1)
      (start (.start blankUsers blankTimers blankNodes) 0) outOfDescriptors).map (fun last =>
        (last.1.backlog, last.1.edge, last.1.batch, last.1.phase)) =
          some (1, false, [], .handling) := by
    decide +kernel
  obtain ⟨⟨last, log⟩, ran, same⟩ := Option.map_eq_some_iff.mp facts
  simp only [Prod.mk.injEq] at same
  obtain ⟨backlog, edge, batch, phase⟩ := same
  refine ⟨last, log, ran, deaf_iff_gaveUp (by decide) ran, ?_, edge, ?_, ?_⟩
  · rw [backlog]
    exact Nat.zero_lt_one
  · rw [batch]
    exact List.not_mem_nil
  · rw [phase]
    nofun

end MainLoop

end TimeGANWebServer.Server
