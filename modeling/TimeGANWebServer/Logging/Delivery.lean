import TimeGANWebServer.Logging.AsyncLog
import TimeGANWebServer.Support.Monitor
import Mathlib.Data.Fintype.Basic

/-!
# What the log delivers

In asynchronous mode the consumer writes the records that were appended, in the same order and
each once.  It writes without the mutex, though, and may do so while a caller that rotates the
log has closed the file and not yet opened the next one.
-/

namespace TimeGANWebServer.Logging

open TimeGANWebServer.Support

variable {Writer Record : Type}

/-- The records pushed by `write_log`, in order. -/
def recordsAppended (events : List (Event Record)) : List Record :=
  events.filterMap fun event =>
    match event with
    | .appended record => some record
    | _ => none

/-- The records given to `fputs`, in order. -/
def recordsWritten (events : List (Event Record)) : List Record :=
  events.filterMap fun event =>
    match event with
    | .fputs record _ => some record
    | _ => none

@[simp] theorem recordsAppended_append (first second : List (Event Record)) :
    recordsAppended (first ++ second) = recordsAppended first ++ recordsAppended second :=
  List.filterMap_append

@[simp] theorem recordsWritten_append (first second : List (Event Record)) :
    recordsWritten (first ++ second) = recordsWritten first ++ recordsWritten second :=
  List.filterMap_append

/-- The part of the output buffer that has not been written. -/
def Log.unwritten (log : Log Writer Record) : List Record :=
  match log.consumer with
  | .writing count => log.outputBuffer.drop count
  | _ => log.outputBuffer

/-- What was appended is what was written, and behind it what is left in the two buffers. -/
def Delivered (log : Log Writer Record) (events : List (Event Record)) : Prop :=
  recordsAppended events = recordsWritten events ++ log.unwritten ++ log.inputBuffer

/-- A record is written to an open stream. -/
def Event.Sound : Event Record → Prop
  | .fputs _ fp => fp.IsOpen
  | _ => True

/-- Nothing is lost: every record is written once, in order, or left in a buffer, and every
`fputs` is made on a stream that is open at that moment. -/
structure LosesNothing (log : Log Writer Record) (events : List (Event Record)) : Prop where
  delivered : Delivered log events
  puts : ∀ event ∈ events, event.Sound

/-! ## Invariants -/

/-- The caller has the mutex. -/
def WriterPhase.Locks : WriterPhase Record → Prop
  | .rotating _ _ | .reopening _ _ => True
  | _ => False

/-- The caller is between `fclose` and `fopen`. -/
def WriterPhase.Reopens : WriterPhase Record → Prop
  | .reopening _ _ => True
  | _ => False

/-- The consumer has the mutex. -/
def ConsumerPhase.Locks : ConsumerPhase → Prop
  | .testing | .passed => True
  | _ => False

/-- The caller among the holders of the mutex. -/
def Thread.caller : Thread Writer → Option Writer
  | .writer caller => some caller
  | .consumer => none

/-- The log is being rotated: the old file is closed and the new one not yet opened. -/
def Log.Reopening (log : Log Writer Record) : Prop :=
  ∃ writer, (log.writers writer).Reopens

instance : (phase : WriterPhase Record) → Decidable phase.Reopens
  | .reopening _ _ => .isTrue trivial
  | .idle | .called _ _ | .rotating _ _ | .formatting _ => .isFalse id

instance [Fintype Writer] (log : Log Writer Record) : Decidable log.Reopening :=
  inferInstanceAs (Decidable (∃ _, _))

/-- What holds of a log in every run. -/
structure Sound (log : Log Writer Record) : Prop where
  writers : Guarded WriterPhase.Locks log.writers (log.mutex.bind Thread.caller)
  consumer : log.consumer.Locks ↔ log.mutex = some .consumer
  batch : (∀ count, log.consumer ≠ .writing count) → log.outputBuffer = []
  closed : log.fp = .closed ↔ log.Reopening

namespace Log

theorem sound_start (today : Int) (file : LogFile) :
    Sound (start today file : Log Writer Record) where
  writers := fun _ => iff_of_false id nofun
  consumer := iff_of_false id nofun
  batch := fun _ => rfl
  closed := iff_of_false nofun fun ⟨_, reopens⟩ => reopens

/-- With the mutex free no caller rotates the log. -/
theorem not_reopening_of_free {log : Log Writer Record} (sound : Sound log)
    (free : log.mutex = none) : ¬log.Reopening := by
  rintro ⟨writer, reopens⟩
  have guarded := sound.writers
  rw [free] at guarded
  refine guarded.not_inside writer ?_
  cases phase : log.writers writer with
  | reopening => trivial
  | _ =>
      rw [phase] at reopens
      exact reopens.elim

variable [DecidableEq Writer] {config : Config} {log next : Log Writer Record}
  {label : Label Writer Record} {events : List (Event Record)}

/-- A caller that stays out of the rotation does not change whether the log is in it. -/
theorem reopening_update {writer : Writer} {phase : WriterPhase Record}
    (before : ¬(log.writers writer).Reopens) (after : ¬phase.Reopens) :
    (∃ other, (Function.update log.writers writer phase other).Reopens) ↔ log.Reopening := by
  rw [Function.exists_update_iff log.writers fun _ phase => WriterPhase.Reopens phase]
  constructor
  · rintro (reopens | ⟨other, _, reopens⟩)
    · exact absurd reopens after
    · exact ⟨other, reopens⟩
  · rintro ⟨other, reopens⟩
    refine .inr ⟨other, ?_, reopens⟩
    rintro rfl
    exact before reopens

/-- The callers that rotate the log are the holder of the mutex. -/
theorem Step.writers (stepped : Step config log label next events) (sound : Sound log) :
    Guarded WriterPhase.Locks next.writers (next.mutex.bind Thread.caller) := by
  have locks := sound.writers
  cases stepped with
  | called idle => exact locks.stay (by simp [WriterPhase.Locks, idle])
  | entered called => exact locks.stay (by simp [WriterPhase.Locks, called])
  | rotates called free =>
      rw [free] at locks
      exact locks.enter trivial
  | closed rotating => exact locks.stay (by simp [WriterPhase.Locks, rotating])
  | reopened reopening =>
      exact locks.leave (by simp [WriterPhase.Locks, reopening]) (by simp [WriterPhase.Locks])
  | appended formatting => exact locks.stay (by simp [WriterPhase.Locks, formatting])
  | written formatting => exact locks.stay (by simp [WriterPhase.Locks, formatting])
  | flushed | put | cleared | synced => exact locks
  | locked _ free =>
      rw [free] at locks
      exact locks
  | woken _ free =>
      rw [free] at locks
      exact locks
  | passed => exact locks
  | blocked testing =>
      rw [sound.consumer.mp (by rw [testing]; trivial)] at locks
      exact locks
  | skipped passed =>
      rw [sound.consumer.mp (by rw [passed]; trivial)] at locks
      exact locks
  | swapped passed =>
      rw [sound.consumer.mp (by rw [passed]; trivial)] at locks
      exact locks

/-- The consumer has the mutex in front of the predicate of `wait_for` and behind it. -/
theorem Step.consumer (stepped : Step config log label next events) (sound : Sound log) :
    next.consumer.Locks ↔ next.mutex = some .consumer := by
  have locks := sound.consumer
  cases stepped with
  | called | entered | closed | appended | written | flushed => exact locks
  | rotates _ free =>
      have outside : ¬log.consumer.Locks := fun inside => nomatch free.symm.trans (locks.mp inside)
      exact iff_of_false outside nofun
  | reopened reopening =>
      have holds := (sound.writers _).mp (by rw [reopening]; trivial)
      have outside : ¬log.consumer.Locks := by
        intro inside
        rw [locks.mp inside] at holds
        contradiction
      exact iff_of_false outside nofun
  | locked => exact iff_of_true trivial rfl
  | passed testing =>
      exact iff_of_true trivial (locks.mp (by rw [testing]; trivial))
  | woken _ _ phase =>
      refine iff_of_true ?_ rfl
      rcases phase with rfl | rfl <;> trivial
  | blocked | skipped | swapped => exact iff_of_false id nofun
  | put writing =>
      rw [writing] at locks
      exact locks
  | cleared writing =>
      rw [writing] at locks
      exact locks
  | synced flushing =>
      rw [flushing] at locks
      exact locks

/-- Outside of a batch the output buffer is empty. -/
theorem Step.batch (stepped : Step config log label next events) (sound : Sound log)
    (outside : ∀ count, next.consumer ≠ .writing count) : next.outputBuffer = [] := by
  have empty := sound.batch
  cases stepped with
  | called | entered | rotates | closed | reopened | appended | written | flushed =>
      exact empty outside
  | swapped => exact absurd rfl (outside 0)
  | @put count => exact absurd rfl (outside (count + 1))
  | cleared => rfl
  | locked phase => exact empty (by rw [phase]; nofun)
  | blocked phase => exact empty (by rw [phase]; nofun)
  | passed phase => exact empty (by rw [phase]; nofun)
  | woken phase => exact empty (by rw [phase]; nofun)
  | skipped phase => exact empty (by rw [phase]; nofun)
  | synced phase => exact empty (by rw [phase]; nofun)

/-- The stream is closed exactly while a caller is between `fclose` and `fopen`. -/
theorem Step.closed_iff (stepped : Step config log label next events) (sound : Sound log) :
    next.fp = .closed ↔ next.Reopening := by
  have closed := sound.closed
  cases stepped with
  | called idle =>
      exact closed.trans (reopening_update (by simp [WriterPhase.Reopens, idle]) id).symm
  | entered called =>
      exact closed.trans (reopening_update (by simp [WriterPhase.Reopens, called]) id).symm
  | rotates called =>
      exact closed.trans (reopening_update (by simp [WriterPhase.Reopens, called]) id).symm
  | @closed writer =>
      refine iff_of_true rfl ⟨writer, ?_⟩
      simp only [setWriter, Function.update_self]
      trivial
  | @reopened writer _ _ succeeds file _ _ _ reopening opened =>
      refine iff_of_false ?_ ?_
      · cases succeeds <;> simp [setWriter, opened]
      · rintro ⟨other, reopens⟩
        have inside : (log.writers writer).Locks := by
          rw [reopening]
          trivial
        by_cases same : other = writer
        · subst same
          simp only [setWriter, Function.update_self] at reopens
          exact reopens
        · simp only [setWriter, Function.update_of_ne same] at reopens
          refine same (sound.writers.exclusive inside ?_)
          cases phase : log.writers other with
          | reopening => trivial
          | _ =>
              rw [phase] at reopens
              exact reopens.elim
  | appended formatting =>
      exact closed.trans (reopening_update (by simp [WriterPhase.Reopens, formatting]) id).symm
  | written formatting =>
      exact closed.trans (reopening_update (by simp [WriterPhase.Reopens, formatting]) id).symm
  | flushed | locked | blocked | passed | woken | skipped | swapped | put | cleared | synced =>
      exact closed

theorem Step.sound (stepped : Step config log label next events) (sound : Sound log) :
    Sound next where
  writers := stepped.writers sound
  consumer := stepped.consumer sound
  batch := stepped.batch sound
  closed := stepped.closed_iff sound

/-! ## What is delivered -/

/-- A step in asynchronous mode keeps the records in order. -/
theorem Step.delivered {before : List (Event Record)} (isAsync : config.isAsync = true)
    (stepped : Step config log label next events) (sound : Sound log)
    (delivered : Delivered log before) : Delivered next (before ++ events) := by
  have kept : recordsAppended before =
      recordsWritten before ++ log.unwritten ++ log.inputBuffer := delivered
  rw [Delivered, recordsAppended_append, recordsWritten_append, kept]
  cases stepped with
  | called | entered | rotates | closed | reopened | flushed | appended =>
      simp [recordsAppended, recordsWritten, setWriter, unwritten]
  | written _ _ isSync => simp [isSync] at isAsync
  | locked phase | blocked phase | passed phase | skipped phase | synced phase =>
      simp [recordsAppended, recordsWritten, unwritten, phase]
  | woken phase _ following =>
      rcases following with rfl | rfl <;>
        simp [recordsAppended, recordsWritten, unwritten, phase]
  | swapped phase =>
      -- The batch before has been written and cleared.
      have empty := sound.batch (by rw [phase]; nofun)
      simp [recordsAppended, recordsWritten, unwritten, phase, empty]
  | @put count record writing found =>
      obtain ⟨inside, rfl⟩ := List.getElem?_eq_some_iff.mp found
      simp [recordsAppended, recordsWritten, unwritten, writing]
  | @cleared count writing finished =>
      simp [recordsAppended, recordsWritten, unwritten, writing, finished]

/-- The consumer writes while the log is not being rotated, and the last `fopen` has not
failed. -/
def PutsSafely (log : Log Writer Record) (label : Label Writer Record) : Prop :=
  label = .fputs → ¬log.Reopening ∧ log.fp ≠ .null

instance [Fintype Writer] [DecidableEq Record] (log : Log Writer Record)
    (label : Label Writer Record) : Decidable (log.PutsSafely label) :=
  inferInstanceAs (Decidable (_ → _))

/-- In asynchronous mode the records are written by the consumer only, and to a stream that is
open exactly if the log is not being rotated and `fopen` has not failed. -/
theorem Step.sound_iff_putsSafely (isAsync : config.isAsync = true)
    (stepped : Step config log label next events) (sound : Sound log) :
    (∀ event ∈ events, event.Sound) ↔ log.PutsSafely label := by
  have isOpen : log.fp.IsOpen ↔ ¬log.Reopening ∧ log.fp ≠ .null := by
    rw [← sound.closed]
    cases log.fp <;> simp [Stream.IsOpen]
  cases stepped with
  | put writing found => simp [Event.Sound, PutsSafely, isOpen]
  | written _ _ isSync => simp [isSync] at isAsync
  | called | entered | rotates | closed | reopened | flushed | appended | locked | blocked
  | passed | woken | skipped | swapped | cleared | synced => simp [Event.Sound, PutsSafely]

/-- In asynchronous mode nothing is lost exactly if the consumer never writes a record while a
caller is between `fclose` and `fopen`, or after an `fopen` that has failed. -/
theorem losesNothing_iff {today : Int} {file : LogFile} {labels : List (Label Writer Record)}
    (isAsync : config.isAsync = true)
    (ran : run (step config) (start today file) labels = some (log, events)) :
    LosesNothing log events ↔
      RunMeets (step config) PutsSafely (start today file : Log Writer Record) labels := by
  have puts := run_effects_iff Sound Event.Sound
    (fun _ _ _ _ sound stepped => (step_cases stepped).sound sound)
    (fun _ _ _ _ sound stepped => (step_cases stepped).sound_iff_putsSafely isAsync sound)
    (sound_start today file) ran
  have delivered : Sound log ∧ Delivered log events :=
    @run_invariant _ _ _ (step config) (fun log events => Sound log ∧ Delivered log events)
      (fun _ _ => True) (fun _ _ _ _ _ kept _ stepped => ⟨(step_cases stepped).sound kept.1,
        (step_cases stepped).delivered isAsync kept.1 kept.2⟩)
      (start today file) log [] events labels ⟨sound_start today file, rfl⟩
      (RunMeets.always _ labels) ran
  exact ⟨fun lost => puts.mp lost.puts, fun meets => ⟨delivered.2, puts.mpr meets⟩⟩

/-! ## Synchronous mode -/

/-- In synchronous mode a caller writes its record itself, with the mutex: never to a stream
that another one has closed. -/
theorem Step.synchronous (isSync : config.isAsync = false)
    (stepped : Step config log label next events) (sound : Sound log)
    (idle : log.consumer = .locking) :
    next.consumer = .locking ∧ ∀ record, .fputs record .closed ∉ events := by
  cases stepped with
  | written formatting free =>
      refine ⟨idle, fun record member => ?_⟩
      rw [List.mem_singleton, Event.fputs.injEq] at member
      exact not_reopening_of_free sound free (sound.closed.mp member.2.symm)
  | called | entered | rotates | closed | reopened | flushed | appended =>
      exact ⟨idle, fun record member => by simp at member⟩
  | locked _ _ isAsync =>
      rw [isSync] at isAsync
      contradiction
  | blocked phase | passed phase | woken phase | skipped phase | swapped phase | put phase
  | cleared phase | synced phase =>
      rw [idle] at phase
      contradiction

/-- So no record of a run is. -/
theorem synchronous_puts {today : Int} {file : LogFile} {labels : List (Label Writer Record)}
    (isSync : config.isAsync = false)
    (ran : run (step config) (start today file) labels = some (log, events)) (record : Record) :
    .fputs record .closed ∉ events := by
  have kept : (Sound log ∧ log.consumer = .locking) ∧ ∀ record, .fputs record .closed ∉ events :=
    @run_invariant _ _ _ (step config)
      (fun log events => (Sound log ∧ log.consumer = .locking) ∧
        ∀ record, .fputs record .closed ∉ events)
      (fun _ _ => True)
      (fun _ _ _ _ _ kept _ stepped => by
        obtain ⟨idle, puts⟩ := (step_cases stepped).synchronous isSync kept.1.1 kept.1.2
        refine ⟨⟨(step_cases stepped).sound kept.1.1, idle⟩, fun record member => ?_⟩
        exact (List.mem_append.mp member).elim (kept.2 record) (puts record))
      (start today file) log [] events labels
      ⟨⟨sound_start today file, rfl⟩, fun _ => List.not_mem_nil⟩ (RunMeets.always _ labels) ran
  exact kept.2 record

/-! ## Rotation within a batch -/

/-- A day, and the first file of it. -/
def newYear : Date := { year := 2024, mon := 1, mday := 1 }

/-- One caller logs two records, and the consumer writes the first of them. -/
def twoRecords : List (Label Unit Nat) :=
  [.call () newYear 1, .enter (), .append (), .lock, .test, .swap, .fputs, .call () newYear 2,
    .enter (), .append ()]

/-- With files of 5000000 lines nothing is lost when two records are logged. -/
theorem losesNothing_iff_two :
    ∃ log events,
      run (step ⟨true, 5000000⟩) (start 1 (.daily newYear)) twoRecords = some (log, events) ∧
        LosesNothing log events := by
  have facts : (run (step ⟨true, 5000000⟩) (start 1 (.daily newYear)) twoRecords).map
      Prod.snd = some [.appended 1, .fputs 1 (.open (.daily newYear)), .appended 2] := by
    decide +kernel
  obtain ⟨⟨log, events⟩, ran, _⟩ := Option.map_eq_some_iff.mp facts
  exact ⟨log, events, ran, (losesNothing_iff rfl ran).mpr (by decide +kernel)⟩

/-- A caller that rotates the log in the middle of a batch. -/
def midBatchRotation : List (Label Unit Nat) :=
  [.call () newYear 1, .enter (), .append (), .lock, .test, .swap, .call () newYear 2,
    .enter (), .fclose (), .fputs]

/-- The record of the batch is written to the stream that the caller has closed. -/
theorem not_losesNothing_rotation :
    ∃ log events,
      run (step ⟨true, 2⟩) (start 1 (.daily newYear)) midBatchRotation = some (log, events) ∧
        ¬LosesNothing log events := by
  have facts : (run (step ⟨true, 2⟩) (start 1 (.daily newYear)) midBatchRotation).map
      Prod.snd = some [.appended 1, .fflush (.open (.daily newYear)),
        .fclose (.open (.daily newYear)), .fputs 1 .closed] := by
    decide +kernel
  obtain ⟨⟨log, events⟩, ran, same⟩ := Option.map_eq_some_iff.mp facts
  refine ⟨log, events, ran, ?_⟩
  rintro ⟨_, puts⟩
  replace same : events = _ := same
  exact puts (.fputs 1 .closed) (by rw [same]; simp)

end Log

end TimeGANWebServer.Logging
