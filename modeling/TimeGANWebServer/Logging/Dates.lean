import TimeGANWebServer.Logging.Delivery

/-!
# The date of a log file

In synchronous mode a caller writes its record itself, to the file that is open then.  The time
stamp is taken before the lock, and between the two locked sections of `write_log` the file may
be changed by another caller.
-/

namespace TimeGANWebServer.Logging

open TimeGANWebServer.Support

variable {Writer Text : Type}

/-- A record with the date of its time stamp. -/
structure Stamped (Text : Type) where
  date : Date
  text : Text
  deriving DecidableEq, Repr

/-- The date in the name of a file. -/
def LogFile.date : LogFile → Date
  | .daily date | .part date _ => date

/-- The order of the calendar. -/
def Date.Le (first second : Date) : Prop :=
  first.year < second.year ∨ first.year = second.year ∧
    (first.mon < second.mon ∨ first.mon = second.mon ∧ first.mday ≤ second.mday)

instance decidableDateLe (first second : Date) : Decidable (first.Le second) :=
  inferInstanceAs (Decidable (_ ∨ _))

/-- The date that is read from the clock in a step. -/
def Label.reading : Label Writer (Stamped Text) → Option Date
  | .call _ date _ => some date
  | _ => none

/-- A record is stamped with the date that its caller has read. -/
def Label.IsStamped : Label Writer (Stamped Text) → Prop
  | .call _ date record => record.date = date
  | _ => True

instance decidableIsStamped : (label : Label Writer (Stamped Text)) → Decidable label.IsStamped
  | .call _ date record => inferInstanceAs (Decidable (record.date = date))
  | .enter _ | .fclose _ | .fopen _ _ | .append _ | .flush _ | .lock | .test | .wake _ | .swap
  | .fputs | .clear | .fflush => .isTrue trivial

/-- The clock does not go back behind `init`, and its readings are the stamps. -/
structure Readings (date : Date) (labels : List (Label Writer (Stamped Text))) : Prop where
  stamped : ∀ label ∈ labels, label.IsStamped
  ordered : (date :: labels.filterMap Label.reading).Pairwise Date.Le

/-- The stream writes to a file of the date. -/
def Stream.Carries (date : Date) : Stream → Prop
  | .open file => file.date = date
  | _ => False

instance decidableCarries (date : Date) : (fp : Stream) → Decidable (fp.Carries date)
  | .open file => inferInstanceAs (Decidable (file.date = date))
  | .closed | .null => .isFalse id

/-- A record is written to a file of its date. -/
def Event.Filed : Event (Stamped Text) → Prop
  | .fputs record fp => fp.Carries record.date
  | _ => True

/-- The date that a caller in front of the first lock has read. -/
def WriterPhase.reading : WriterPhase (Stamped Text) → Option Date
  | .called date _ => some date
  | _ => none

/-- The date that a caller is changing the file for. -/
def WriterPhase.rotation : WriterPhase (Stamped Text) → Option Date
  | .rotating date _ | .reopening date _ => some date
  | _ => none

/-- The record of a caller in front of the second lock. -/
def WriterPhase.waiting : WriterPhase (Stamped Text) → Option (Stamped Text)
  | .formatting record => some record
  | _ => none

namespace Log

/-- The log with one line more. -/
def counted (log : Log Writer (Stamped Text)) : Log Writer (Stamped Text) :=
  { log with count := log.count + 1 }

/-- A caller with a date gets the file of that date, and no caller that waits for the second
lock loses its own. -/
def EntersInOrder (config : Config) (log : Log Writer (Stamped Text)) (date : Date) : Prop :=
  if log.counted.Rotates config date then
    ∀ other, ∀ record ∈ (log.writers other).waiting, record.date = date
  else
    log.fp.Carries date

/-- The first lock is taken in order, and `fopen` does not fail. -/
def KeepsDates (config : Config) (log : Log Writer (Stamped Text)) :
    Label Writer (Stamped Text) → Prop
  | .enter writer => ∀ date ∈ (log.writers writer).reading, log.EntersInOrder config date
  | .fopen _ succeeds => succeeds = true
  | _ => True

instance decidableEntersInOrder [Fintype Writer] (config : Config)
    (log : Log Writer (Stamped Text)) (date : Date) : Decidable (log.EntersInOrder config date) :=
  inferInstanceAs (Decidable (ite _ _ _))

instance decidableKeepsDates [Fintype Writer] (config : Config) (log : Log Writer (Stamped Text)) :
    (label : Label Writer (Stamped Text)) → Decidable (log.KeepsDates config label)
  | .enter writer =>
      inferInstanceAs
        (Decidable (∀ date ∈ (log.writers writer).reading, log.EntersInOrder config date))
  | .fopen _ succeeds => inferInstanceAs (Decidable (succeeds = true))
  | .call _ _ _ | .fclose _ | .append _ | .flush _ | .lock | .test | .wake _ | .swap
  | .fputs | .clear | .fflush => .isTrue trivial

/-! ## What the two sections of a rotation do -/

variable [DecidableEq Writer] {config : Config} {log next : Log Writer (Stamped Text)}
  {label : Label Writer (Stamped Text)} {events : List (Event (Stamped Text))} {writer : Writer}

/-- The first lock is taken with a rotation or without one. -/
theorem enter_cases (entered : log.enter config writer = some (next, events)) :
    ∃ date record, log.writers writer = .called date record ∧ log.mutex = none ∧
      ((log.counted.Rotates config date ∧ events = [.fflush log.fp] ∧
          next = { log.counted with mutex := some (.writer writer) }.setWriter writer
            (.rotating date record)) ∨
        (¬log.counted.Rotates config date ∧ events = [] ∧
          next = log.counted.setWriter writer (.formatting record))) := by
  simp only [enter] at entered
  split at entered
  case _ date record called =>
      split at entered
      case isTrue free =>
          refine ⟨date, record, called, free, ?_⟩
          split at entered
          case isTrue rotates =>
              cases entered
              exact .inl ⟨rotates, rfl, rfl⟩
          case isFalse rotates =>
              cases entered
              exact .inr ⟨rotates, rfl, rfl⟩
      case isFalse => contradiction
  case _ => contradiction

/-- The file that is opened has the date of the caller that opens it. -/
theorem fopen_cases {succeeds : Bool}
    (opened : log.fopen config writer succeeds = some (next, events)) :
    ∃ date record file, log.writers writer = .reopening date record ∧ file.date = date ∧
      events = [.fopen file (if succeeds then .open file else .null)] ∧
      next.fp = (if succeeds then .open file else .null) ∧ next.mutex = none ∧
      next.writers = Function.update log.writers writer (.formatting record) ∧
      next.consumer = log.consumer := by
  simp only [fopen] at opened
  split at opened
  case _ date record reopening =>
      cases opened
      have named : (log.newFile config date).date = date := by
        simp only [newFile]
        split <;> rfl
      exact ⟨date, record, _, reopening, named, rfl, rfl, rfl, rfl, rfl⟩
  case _ => contradiction

end Log

/-! ## The invariant -/

/-- The record of a caller has the date that the caller has read. -/
def WriterPhase.IsStamped : WriterPhase (Stamped Text) → Prop
  | .called date record | .rotating date record | .reopening date record => record.date = date
  | _ => True

namespace Log

/-- The file that is open, or that is about to be opened, is the one for every record in front of
the second lock. -/
structure Dated (log : Log Writer (Stamped Text)) : Prop where
  sound : Sound log
  synchronous : log.consumer = .locking
  stamped : ∀ writer, (log.writers writer).IsStamped
  filed : log.mutex = none →
    ∀ writer, ∀ record ∈ (log.writers writer).waiting, log.fp.Carries record.date
  rotation : ∀ writer, ∀ date ∈ (log.writers writer).rotation,
    ∀ other, ∀ record ∈ (log.writers other).waiting, record.date = date

theorem dated_start (date : Date) :
    Dated (start date.mday (.daily date) : Log Writer (Stamped Text)) where
  sound := sound_start date.mday (.daily date)
  synchronous := rfl
  stamped := fun _ => trivial
  filed := fun _ _ _ member => nomatch member
  rotation := fun _ _ member => nomatch member

/-- A caller that changes the file has the mutex. -/
theorem locks_of_rotation {phase : WriterPhase (Stamped Text)} {date : Date}
    (member : date ∈ phase.rotation) : phase.Locks := by
  cases phase with
  | rotating | reopening => trivial
  | idle | called | formatting => exact absurd member (by simp [WriterPhase.rotation])

theorem rotation_of_free (sound : Sound log) (free : log.mutex = none) (other : Writer)
    (date : Date) : date ∉ (log.writers other).rotation := by
  intro member
  have guarded := sound.writers
  rw [free] at guarded
  exact guarded.not_inside other (locks_of_rotation member)

variable [DecidableEq Writer] {config : Config} {log next : Log Writer (Stamped Text)}
  {label : Label Writer (Stamped Text)} {events : List (Event (Stamped Text))} {writer : Writer}

/-- A record in front of the second lock is the new one of a caller, or was there before. -/
theorem waiting_update {writers : Writer → WriterPhase (Stamped Text)}
    {phase : WriterPhase (Stamped Text)} {other : Writer} {record : Stamped Text}
    (member : record ∈ (Function.update writers writer phase other).waiting) :
    (other = writer ∧ record ∈ phase.waiting) ∨
      (other ≠ writer ∧ record ∈ (writers other).waiting) := by
  by_cases same : other = writer
  · subst same
    rw [Function.update_self] at member
    exact .inl ⟨rfl, member⟩
  · rw [Function.update_of_ne same] at member
    exact .inr ⟨same, member⟩

/-- So is the date of a caller that changes the file. -/
theorem rotation_update {writers : Writer → WriterPhase (Stamped Text)}
    {phase : WriterPhase (Stamped Text)} {other : Writer} {date : Date}
    (member : date ∈ (Function.update writers writer phase other).rotation) :
    (other = writer ∧ date ∈ phase.rotation) ∨
      (other ≠ writer ∧ date ∈ (writers other).rotation) := by
  by_cases same : other = writer
  · subst same
    rw [Function.update_self] at member
    exact .inl ⟨rfl, member⟩
  · rw [Function.update_of_ne same] at member
    exact .inr ⟨same, member⟩

theorem isStamped_update (dated : Dated log) {phase : WriterPhase (Stamped Text)}
    (stamped : phase.IsStamped) (other : Writer) :
    (Function.update log.writers writer phase other).IsStamped := by
  by_cases same : other = writer
  · subst same
    rwa [Function.update_self]
  · rw [Function.update_of_ne same]
    exact dated.stamped other

/-- A caller that comes or goes changes nothing for the others. -/
theorem Dated.setWriter (dated : Dated log) {phase : WriterPhase (Stamped Text)}
    (stamped : phase.IsStamped) (noRecord : phase.waiting = none)
    (noRotation : phase.rotation = none)
    (sound : Sound (log.setWriter writer phase)) : Dated (log.setWriter writer phase) where
  sound := sound
  synchronous := dated.synchronous
  stamped := isStamped_update dated stamped
  filed := by
    intro free other record member
    rcases waiting_update member with ⟨_, new⟩ | ⟨_, old⟩
    · simp [noRecord] at new
    · exact dated.filed free other record old
  rotation := by
    intro rotating date member other record waiting
    rcases rotation_update member with ⟨_, new⟩ | ⟨_, old⟩
    · simp [noRotation] at new
    rcases waiting_update waiting with ⟨_, new⟩ | ⟨_, before⟩
    · simp [noRecord] at new
    · exact dated.rotation rotating date old other record before

/-- The first lock. -/
theorem Dated.enter (dated : Dated log) (entered : log.enter config writer = some (next, events))
    (sound : Sound next) (inOrder : log.KeepsDates config (.enter writer)) :
    Dated next ∧ ∀ event ∈ events, event.Filed := by
  obtain ⟨date, record, called, free, outcome⟩ := enter_cases entered
  have stamp := dated.stamped writer
  rw [called] at stamp
  have order := inOrder date (by rw [called]; rfl)
  rcases outcome with ⟨rotates, rfl, rfl⟩ | ⟨stays, rfl, rfl⟩
  · rw [EntersInOrder, if_pos rotates] at order
    refine ⟨⟨sound, dated.synchronous, isStamped_update dated stamp, nofun,
      ?_⟩, by simp [Event.Filed]⟩
    intro rotating other member third waiting found
    rcases rotation_update member with ⟨_, new⟩ | ⟨_, old⟩
    · cases new
      rcases waiting_update found with ⟨_, none⟩ | ⟨_, before⟩
      · simp [WriterPhase.waiting] at none
      · exact order third waiting before
    · exact absurd old (rotation_of_free dated.sound free rotating other)
  · rw [EntersInOrder, if_neg stays] at order
    refine ⟨⟨sound, dated.synchronous, isStamped_update dated trivial, ?_, ?_⟩, by simp⟩
    · intro _ other waiting found
      rcases waiting_update found with ⟨_, new⟩ | ⟨_, before⟩
      · cases new
        exact stamp ▸ order
      · exact dated.filed free other waiting before
    · intro rotating other member
      exact absurd member (rotation_of_free sound free rotating other)

/-- The new file is opened. -/
theorem Dated.fopen (dated : Dated log) {succeeds : Bool}
    (opened : log.fopen config writer succeeds = some (next, events)) (sound : Sound next)
    (isOpen : log.KeepsDates config (.fopen writer succeeds)) :
    Dated next ∧ ∀ event ∈ events, event.Filed := by
  obtain ⟨date, record, file, reopening, named, rfl, fp, free, writers, consumer⟩ :=
    fopen_cases opened
  have stamp := dated.stamped writer
  rw [reopening] at stamp
  have succeeded : succeeds = true := isOpen
  rw [succeeded, if_pos rfl] at fp
  refine ⟨⟨sound, consumer.trans dated.synchronous, ?_, ?_, ?_⟩, by simp [Event.Filed]⟩
  · rw [writers]
    exact isStamped_update dated trivial
  · intro _ other waiting found
    rw [fp]
    rw [writers] at found
    rcases waiting_update found with ⟨_, new⟩ | ⟨_, before⟩
    · cases new
      exact named.trans stamp.symm
    · have same := dated.rotation writer date (by rw [reopening]; rfl) other waiting before
      exact named.trans same.symm
  · intro rotating other member
    exact absurd member (rotation_of_free sound free rotating other)

/-- A step that meets the condition keeps the files in order, and writes to the right one. -/
theorem Dated.step (dated : Dated log) (isSync : config.isAsync = false)
    (stamped : label.IsStamped) (meets : log.KeepsDates config label)
    (stepped : log.step config label = some (next, events)) :
    Dated next ∧ ∀ event ∈ events, event.Filed := by
  have cases_ := step_cases stepped
  have sound := cases_.sound dated.sound
  cases cases_ with
  | called idle => exact ⟨dated.setWriter stamped rfl rfl sound, by simp⟩
  | entered | rotates => exact dated.enter stepped sound meets
  | reopened => exact dated.fopen stepped sound meets
  | @closed writer date record rotating =>
      have stamp := dated.stamped writer
      rw [rotating] at stamp
      have locked := (dated.sound.writers writer).mp (by rw [rotating]; trivial)
      refine ⟨⟨sound, dated.synchronous, isStamped_update dated stamp, ?_, ?_⟩,
        by simp [Event.Filed]⟩
      · intro free
        replace free : log.mutex = none := free
        rw [free] at locked
        contradiction
      · intro other day member third waiting found
        rcases waiting_update found with ⟨_, new⟩ | ⟨_, before⟩
        · simp [WriterPhase.waiting] at new
        rcases rotation_update member with ⟨_, new⟩ | ⟨_, old⟩
        · cases new
          exact dated.rotation writer date (by rw [rotating]; rfl) third waiting before
        · exact dated.rotation other day old third waiting before
  | @written writer record formatting free =>
      have filed := dated.filed free writer record (by rw [formatting]; rfl)
      exact ⟨dated.setWriter trivial rfl rfl sound, by simpa [Event.Filed] using filed⟩
  | flushed => exact ⟨dated, by simp [Event.Filed]⟩
  | appended _ _ isAsync | locked _ _ isAsync =>
      rw [isSync] at isAsync
      contradiction
  | blocked phase | passed phase | woken phase | skipped phase | swapped phase | put phase
  | cleared phase | synced phase =>
      rw [dated.synchronous] at phase
      contradiction

/-! ## Runs -/

/-- In a run in synchronous mode whose steps all meet the condition, every record is written to a
file of its date. -/
theorem records_filed {date : Date} {labels : List (Label Writer (Stamped Text))}
    (isSync : config.isAsync = false) (readings : Readings date labels)
    (ran : run (step config) (start date.mday (.daily date)) labels = some (log, events))
    (meets : RunMeets (step config) (KeepsDates config) (start date.mday (.daily date)) labels) :
    ∀ event ∈ events, event.Filed := by
  have kept : Dated log ∧ ∀ event ∈ events, event.Filed :=
    @run_invariant _ _ _ (step config) (fun log events => Dated log ∧ ∀ event ∈ events, event.Filed)
      (fun log label => log.KeepsDates config label ∧ label.IsStamped)
      (fun _ _ _ _ _ kept both stepped => by
        obtain ⟨dated, filed⟩ := kept.1.step isSync both.2 both.1 stepped
        exact ⟨dated, List.forall_mem_append.mpr ⟨kept.2, filed⟩⟩)
      (start date.mday (.daily date)) log [] events labels
      ⟨dated_start date, fun _ member => nomatch member⟩
      (meets.and (RunMeets.of_forall readings.stamped _)) ran
  exact kept.2

/-- The second lock in synchronous mode. -/
theorem step_append {record : Stamped Text} (isSync : config.isAsync = false)
    (formatting : log.writers writer = .formatting record) (free : log.mutex = none) :
    log.step config (.append writer) =
      some (log.setWriter writer .idle, [.fputs record log.fp]) := by
  simp [step, append, formatting, free, isSync]

/-- A record is written to a file of another date if its caller comes next. -/
theorem misfiled_of_formatting {record : Stamped Text} (isSync : config.isAsync = false)
    (formatting : log.writers writer = .formatting record) (free : log.mutex = none)
    (wrong : ¬log.fp.Carries record.date) :
    ∃ last later, run (step config) log [.append writer] = some (last, later) ∧
      ∃ event ∈ later, ¬event.Filed := by
  refine ⟨_, _, run_of_step (step_append isSync formatting free) rfl, .fputs record log.fp, ?_⟩
  exact ⟨by simp, wrong⟩

theorem formatting_of_waiting {phase : WriterPhase (Stamped Text)} {record : Stamped Text}
    (member : record ∈ phase.waiting) : phase = .formatting record := by
  cases phase with
  | formatting other =>
      cases member
      rfl
  | idle | called | rotating | reopening => exact absurd member (by simp [WriterPhase.waiting])

/-- A record in front of the second lock is written to a file of another date if the file is
changed, for another date, before. -/
theorem misfiled_of_rotating {other : Writer} {date : Date} {record waiting : Stamped Text}
    (isSync : config.isAsync = false) (rotating : log.writers writer = .rotating date record)
    (formatting : log.writers other = .formatting waiting) (different : waiting.date ≠ date) :
    ∃ last later,
      run (step config) log [.fclose writer, .fopen writer true, .append other] =
        some (last, later) ∧
        ∃ event ∈ later, ¬event.Filed := by
  have others : other ≠ writer := by
    rintro rfl
    rw [rotating] at formatting
    contradiction
  have closes : log.step config (.fclose writer) =
      some ({ log with fp := .closed }.setWriter writer (.reopening date record),
        [.fclose log.fp]) := by
    simp [step, fclose, rotating]
  generalize reached : { log with fp := .closed }.setWriter writer (.reopening date record) = closed
    at closes
  have writers : closed.writers = Function.update log.writers writer (.reopening date record) := by
    rw [← reached]
    rfl
  obtain ⟨⟨opened, opening⟩, opens⟩ :
      ∃ outcome, closed.fopen config writer true = some outcome := by
    simp [fopen, writers]
  obtain ⟨day, text, file, reopening, named, rfl, fp, free, after, _⟩ := fopen_cases opens
  rw [writers, Function.update_self, WriterPhase.reopening.injEq] at reopening
  rw [if_pos rfl] at fp
  have kept : opened.writers other = .formatting waiting := by
    rw [after, Function.update_of_ne others, writers, Function.update_of_ne others, formatting]
  refine ⟨_, _, run_of_step closes (run_of_step opens
    (run_of_step (step_append isSync kept free) rfl)), .fputs waiting opened.fp, by simp, ?_⟩
  rw [Event.Filed, fp]
  intro same
  exact different (same.symm.trans (named.trans reopening.1.symm))

/-- Nothing is excluded without need: a step that misses the condition first can be followed by
steps that write a record to a file of another date, or to none. -/
theorem misfiled_of_not_keepsDates (isSync : config.isAsync = false) (dated : Dated log)
    (stepped : log.step config label = some (next, events))
    (misses : ¬log.KeepsDates config label) :
    ∃ more last later, run (step config) next more = some (last, later) ∧
      ∃ event ∈ later, ¬event.Filed := by
  cases label with
  | enter writer =>
      obtain ⟨date, record, called, free, outcome⟩ := enter_cases stepped
      have stamp := dated.stamped writer
      rw [called] at stamp
      have disorder : ¬log.EntersInOrder config date := by
        intro order
        apply misses
        intro day member
        rw [called] at member
        cases member
        exact order
      rcases outcome with ⟨rotates, rfl, rfl⟩ | ⟨stays, rfl, rfl⟩
      · -- the caller changes the file, and one that waits for the second lock loses its own
        rw [EntersInOrder, if_pos rotates] at disorder
        push Not at disorder
        obtain ⟨other, waiting, member, different⟩ := disorder
        have formatting := formatting_of_waiting member
        have others : other ≠ writer := by
          rintro rfl
          rw [called] at formatting
          contradiction
        have behind := (Function.update_of_ne others (.rotating date record) _).trans formatting
        exact ⟨_, misfiled_of_rotating isSync (Function.update_self _ _ _) behind different⟩
      · rw [EntersInOrder, if_neg stays] at disorder
        refine ⟨_, misfiled_of_formatting isSync (Function.update_self _ _ _) free ?_⟩
        rw [show record.date = date from stamp]
        exact disorder
  | fopen writer succeeds =>
      have failed : succeeds = false := eq_false_of_ne_true misses
      obtain ⟨date, record, file, reopening, named, rfl, fp, free, writers, consumer⟩ :=
        fopen_cases stepped
      have formatting : next.writers writer = .formatting record := by
        rw [writers, Function.update_self]
      refine ⟨_, misfiled_of_formatting isSync formatting free ?_⟩
      rw [fp, failed]
      exact id
  | _ => exact absurd trivial misses

/-- The day behind `newYear`. -/
def secondDay : Date := { year := 2024, mon := 1, mday := 2 }

/-- One caller logs a record on each of two days. -/
def twoDays : List (Label Unit (Stamped Nat)) :=
  [.call () newYear ⟨newYear, 1⟩, .enter (), .append (), .call () secondDay ⟨secondDay, 2⟩,
    .enter (), .fclose (), .fopen () true, .append ()]

theorem records_filed_twoDays :
    ∃ log events,
      run (step ⟨false, 5000000⟩) (start 1 (.daily newYear)) twoDays = some (log, events) ∧
        (∀ event ∈ events, event.Filed) ∧ recordsWritten events =
          [⟨newYear, 1⟩, ⟨secondDay, 2⟩] := by
  have facts : (run (step ⟨false, 5000000⟩) (start 1 (.daily newYear)) twoDays).map
      (fun last => recordsWritten last.2) = some [⟨newYear, 1⟩, ⟨secondDay, 2⟩] := by
    decide +kernel
  obtain ⟨⟨log, events⟩, ran, written⟩ := Option.map_eq_some_iff.mp facts
  have readings : Readings newYear twoDays := ⟨by decide, by decide⟩
  exact ⟨log, events, ran, records_filed rfl readings ran (by decide +kernel), written⟩

/-- Around midnight: a caller reads the clock and counts its line, and another one changes the
file for the next day before the record is written. -/
def aroundMidnight : List (Label Bool (Stamped Nat)) :=
  [.call false newYear ⟨newYear, 1⟩, .enter false, .call true secondDay ⟨secondDay, 2⟩,
    .enter true, .fclose true, .fopen true true, .append false]

/-- The record of the first day is written to the file of the second. -/
theorem not_records_filed :
    ∃ log events, Readings newYear aroundMidnight ∧
      run (step ⟨false, 5000000⟩) (start 1 (.daily newYear)) aroundMidnight = some (log, events) ∧
        ¬∀ event ∈ events, event.Filed := by
  have facts : (run (step ⟨false, 5000000⟩) (start 1 (.daily newYear)) aroundMidnight).map
      Prod.snd = some [.fflush (.open (.daily newYear)), .fclose (.open (.daily newYear)),
        .fopen (.daily secondDay) (.open (.daily secondDay)),
        .fputs ⟨newYear, 1⟩ (.open (.daily secondDay))] := by
    decide +kernel
  obtain ⟨⟨log, events⟩, ran, same⟩ := Option.map_eq_some_iff.mp facts
  refine ⟨log, events, ⟨by decide, by decide⟩, ran, ?_⟩
  intro filed
  replace same : events = _ := same
  have wrong := filed (.fputs ⟨newYear, 1⟩ (.open (.daily secondDay))) (by rw [same]; simp)
  exact absurd (show secondDay = newYear from wrong) (by decide)

end Log

end TimeGANWebServer.Logging
