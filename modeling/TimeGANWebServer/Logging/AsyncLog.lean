import TimeGANWebServer.Support.Run
import Mathlib.Logic.Function.Basic

/-!
# The log with two buffers

`write_log`, `flush` and `async_write_log` in `log/log.cpp`, called by any number of threads
and run by the thread that writes the records to the file.  Each section with `m_mutex` locked,
each `fclose`, `fopen` and `fputs` is a step of its own; a section that rotates the log keeps
the mutex over several steps.
-/

namespace TimeGANWebServer.Logging

open TimeGANWebServer.Support

/-- The members of a `Log` that are set once. -/
structure Config where
  isAsync : Bool
  splitLines : Int

/-- The day of a `struct tm`, as `write_log` prints it. -/
structure Date where
  year : Int
  mon : Int
  mday : Int
  deriving DecidableEq, Repr

/-- The name of a log file: that of a day, or of a further part of it. -/
inductive LogFile where
  | daily (date : Date)
  | part (date : Date) (index : Int)
  deriving DecidableEq, Repr

/-- What `m_fp` is: an open stream, a stream that has been closed, or the null pointer that
`fopen` returned. -/
inductive Stream where
  | «open» (file : LogFile)
  | closed
  | null
  deriving DecidableEq, Repr

/-- The stream can be written to. -/
def Stream.IsOpen : Stream → Prop
  | .open _ => True
  | _ => False

instance : (fp : Stream) → Decidable fp.IsOpen
  | .open _ => .isTrue trivial
  | .closed => .isFalse id
  | .null => .isFalse id

/-- Where a caller of `write_log` is: outside, in front of the first lock, behind it with the
log to be rotated, between `fclose` and `fopen`, or in front of the second lock. -/
inductive WriterPhase (Record : Type) where
  | idle
  | called (date : Date) (record : Record)
  | rotating (date : Date) (record : Record)
  | reopening (date : Date) (record : Record)
  | formatting (record : Record)
  deriving DecidableEq, Repr

/-- Where the consumer is in `async_write_log`.  When `testing` and `passed` it has the mutex:
in front of the predicate of `wait_for`, and behind it.  `writing` counts the records of the
batch that have been written. -/
inductive ConsumerPhase where
  | locking
  | testing
  | blocked
  | passed
  | writing (count : Nat)
  | flushing
  deriving DecidableEq, Repr

/-- The holder of the mutex. -/
inductive Thread (Writer : Type) where
  | writer (writer : Writer)
  | consumer
  deriving DecidableEq, Repr

/-- A `Log` with its callers and its consumer. -/
structure Log (Writer Record : Type) where
  count : Int
  today : Int
  fp : Stream
  inputBuffer : List Record
  outputBuffer : List Record
  mutex : Option (Thread Writer)
  writers : Writer → WriterPhase Record
  consumer : ConsumerPhase

/-- What a step does that others can see: a record is pushed into the input buffer, or a
function of the standard library is called for the stream in `m_fp`. -/
inductive Event (Record : Type) where
  | appended (record : Record)
  | fputs (record : Record) (fp : Stream)
  | fflush (fp : Stream)
  | fclose (fp : Stream)
  | fopen (file : LogFile) (fp : Stream)
  deriving DecidableEq, Repr

/-- A step of a caller or of the consumer.  `fopen` may fail, and a blocked consumer may wake
up at any time, notified or not, or because the time is over. -/
inductive Label (Writer Record : Type) where
  | call (writer : Writer) (date : Date) (record : Record)
  | enter (writer : Writer)
  | fclose (writer : Writer)
  | fopen (writer : Writer) (succeeds : Bool)
  | append (writer : Writer)
  | flush (writer : Writer)
  | lock
  | test
  | wake (timeout : Bool)
  | swap
  | fputs
  | clear
  | fflush
  deriving DecidableEq, Repr

/-- The log after a step, and what the step did, if the step is possible. -/
abbrev Next (Writer Record : Type) := Option (Log Writer Record × List (Event Record))

variable {Writer Record : Type} [DecidableEq Writer]

namespace Log

/-- A log behind a successful `init`. -/
def start (today : Int) (file : LogFile) : Log Writer Record where
  count := 0
  today := today
  fp := .open file
  inputBuffer := []
  outputBuffer := []
  mutex := none
  writers := fun _ => .idle
  consumer := .locking

/-- Set the phase of a caller. -/
def setWriter (log : Log Writer Record) (writer : Writer) (phase : WriterPhase Record) :
    Log Writer Record :=
  { log with writers := Function.update log.writers writer phase }

/-! ## Steps of `write_log` and `flush` -/

/-- `write_log` is called; the time is taken before the lock. -/
def call (log : Log Writer Record) (writer : Writer) (date : Date) (record : Record) :
    Next Writer Record :=
  match log.writers writer with
  | .idle => some (log.setWriter writer (.called date record), [])
  | _ => none

/-- The log is rotated: a new day has begun, or a file has got its number of lines. -/
def Rotates (config : Config) (log : Log Writer Record) (date : Date) : Prop :=
  log.today ≠ date.mday ∨ log.count.tmod config.splitLines = 0

instance (config : Config) (log : Log Writer Record) (date : Date) :
    Decidable (log.Rotates config date) :=
  inferInstanceAs (Decidable (_ ∨ _))

/-- The first lock: count the line, and unlock at once unless the log is to be rotated. -/
def enter (config : Config) (log : Log Writer Record) (writer : Writer) : Next Writer Record :=
  match log.writers writer with
  | .called date record =>
      if log.mutex = none then
        let counted := { log with count := log.count + 1 }
        if counted.Rotates config date then
          some ({ counted with mutex := some (.writer writer) }.setWriter writer
            (.rotating date record), [.fflush log.fp])
        else
          some (counted.setWriter writer (.formatting record), [])
      else
        none
  | _ => none

/-- The old file is closed. -/
def fclose (log : Log Writer Record) (writer : Writer) : Next Writer Record :=
  match log.writers writer with
  | .rotating date record =>
      some ({ log with fp := .closed }.setWriter writer (.reopening date record), [.fclose log.fp])
  | _ => none

/-- The name of the new file. -/
def newFile (config : Config) (log : Log Writer Record) (date : Date) : LogFile :=
  if log.today ≠ date.mday then
    .daily date
  else
    .part date (log.count.tdiv config.splitLines)

/-- The new file is opened, and the mutex unlocked. -/
def fopen (config : Config) (log : Log Writer Record) (writer : Writer) (succeeds : Bool) :
    Next Writer Record :=
  match log.writers writer with
  | .reopening date record =>
      let file := log.newFile config date
      let fp := if succeeds then Stream.open file else .null
      some ({ log with
        today := date.mday
        count := if log.today ≠ date.mday then 0 else log.count
        fp := fp
        mutex := none }.setWriter writer (.formatting record), [.fopen file fp])
  | _ => none

/-- The second lock: the record is pushed into the input buffer, or written by the caller. -/
def append (config : Config) (log : Log Writer Record) (writer : Writer) : Next Writer Record :=
  match log.writers writer with
  | .formatting record =>
      if log.mutex = none then
        if config.isAsync then
          some ({ log with inputBuffer := log.inputBuffer ++ [record] }.setWriter writer .idle,
            [.appended record])
        else
          some (log.setWriter writer .idle, [.fputs record log.fp])
      else
        none
  | _ => none

/-- `Log::flush`. -/
def flush (log : Log Writer Record) (writer : Writer) : Next Writer Record :=
  match log.writers writer with
  | .idle => if log.mutex = none then some (log, [.fflush log.fp]) else none
  | _ => none

/-! ## Steps of `async_write_log` -/

/-- The consumer locks the mutex. -/
def lock (log : Log Writer Record) : Next Writer Record :=
  if log.consumer = .locking ∧ log.mutex = none then
    some ({ log with mutex := some .consumer, consumer := .testing }, [])
  else
    none

/-- The predicate of `wait_for` is tested; without records the consumer unlocks the mutex and
blocks. -/
def test (log : Log Writer Record) : Next Writer Record :=
  if log.consumer = .testing then
    if log.inputBuffer = [] then
      some ({ log with mutex := none, consumer := .blocked }, [])
    else
      some ({ log with consumer := .passed }, [])
  else
    none

/-- The consumer wakes up with the mutex locked.  It tests the predicate again, unless the
time is over. -/
def wake (log : Log Writer Record) (timeout : Bool) : Next Writer Record :=
  if log.consumer = .blocked ∧ log.mutex = none then
    some ({ log with
      mutex := some .consumer
      consumer := if timeout then .passed else .testing }, [])
  else
    none

/-- The buffers are swapped, unless there is nothing to write, and the mutex is unlocked. -/
def swap (log : Log Writer Record) : Next Writer Record :=
  if log.consumer = .passed then
    if log.inputBuffer = [] then
      some ({ log with mutex := none, consumer := .locking }, [])
    else
      some ({ log with
        inputBuffer := log.outputBuffer
        outputBuffer := log.inputBuffer
        mutex := none
        consumer := .writing 0 }, [])
  else
    none

/-- The next record of the batch is written, with the stream that is in `m_fp` now. -/
def fputs (log : Log Writer Record) : Next Writer Record :=
  match log.consumer with
  | .writing count =>
      match log.outputBuffer[count]? with
      | some record =>
          some ({ log with consumer := .writing (count + 1) }, [.fputs record log.fp])
      | none => none
  | _ => none

/-- Behind the batch the output buffer is cleared. -/
def clear (log : Log Writer Record) : Next Writer Record :=
  match log.consumer with
  | .writing count =>
      if log.outputBuffer.length ≤ count then
        some ({ log with outputBuffer := [], consumer := .flushing }, [])
      else
        none
  | _ => none

/-- The stream is flushed. -/
def fflush (log : Log Writer Record) : Next Writer Record :=
  if log.consumer = .flushing then
    some ({ log with consumer := .locking }, [.fflush log.fp])
  else
    none

/-- One step of the log.  The consumer runs in asynchronous mode only. -/
def step (config : Config) (log : Log Writer Record) : Label Writer Record → Next Writer Record
  | .call writer date record => log.call writer date record
  | .enter writer => log.enter config writer
  | .fclose writer => log.fclose writer
  | .fopen writer succeeds => log.fopen config writer succeeds
  | .append writer => log.append config writer
  | .flush writer => log.flush writer
  | .lock => if config.isAsync then log.lock else none
  | .test => log.test
  | .wake timeout => log.wake timeout
  | .swap => log.swap
  | .fputs => log.fputs
  | .clear => log.clear
  | .fflush => log.fflush

/-! ## What a step does -/

/-- The steps that are possible, by what they do. -/
inductive Step (config : Config) (log : Log Writer Record) :
    Label Writer Record → Log Writer Record → List (Event Record) → Prop
  | called {writer date record} (idle : log.writers writer = .idle) :
      Step config log (.call writer date record) (log.setWriter writer (.called date record)) []
  | entered {writer date record} (called : log.writers writer = .called date record)
      (free : log.mutex = none) :
      Step config log (.enter writer)
        ({ log with count := log.count + 1 }.setWriter writer (.formatting record)) []
  | rotates {writer date record} (called : log.writers writer = .called date record)
      (free : log.mutex = none) :
      Step config log (.enter writer)
        ({ log with count := log.count + 1, mutex := some (.writer writer) }.setWriter writer
          (.rotating date record)) [.fflush log.fp]
  | closed {writer date record} (rotating : log.writers writer = .rotating date record) :
      Step config log (.fclose writer)
        ({ log with fp := .closed }.setWriter writer (.reopening date record)) [.fclose log.fp]
  | reopened {writer date record succeeds file today count fp}
      (reopening : log.writers writer = .reopening date record)
      (opened : fp = if succeeds then Stream.open file else .null) :
      Step config log (.fopen writer succeeds)
        ({ log with today := today, count := count, fp := fp, mutex := none }.setWriter writer
          (.formatting record)) [.fopen file fp]
  | appended {writer record} (formatting : log.writers writer = .formatting record)
      (free : log.mutex = none) (isAsync : config.isAsync = true) :
      Step config log (.append writer)
        ({ log with inputBuffer := log.inputBuffer ++ [record] }.setWriter writer .idle)
        [.appended record]
  | written {writer record} (formatting : log.writers writer = .formatting record)
      (free : log.mutex = none) (isSync : config.isAsync = false) :
      Step config log (.append writer) (log.setWriter writer .idle) [.fputs record log.fp]
  | flushed {writer} : Step config log (.flush writer) log [.fflush log.fp]
  | locked (locking : log.consumer = .locking) (free : log.mutex = none)
      (isAsync : config.isAsync = true) :
      Step config log .lock { log with mutex := some .consumer, consumer := .testing } []
  | blocked (testing : log.consumer = .testing) :
      Step config log .test { log with mutex := none, consumer := .blocked } []
  | passed (testing : log.consumer = .testing) :
      Step config log .test { log with consumer := .passed } []
  | woken {timeout phase} (blocked : log.consumer = .blocked) (free : log.mutex = none)
      (next : phase = .testing ∨ phase = .passed) :
      Step config log (.wake timeout)
        { log with mutex := some .consumer, consumer := phase } []
  | skipped (passed : log.consumer = .passed) :
      Step config log .swap { log with mutex := none, consumer := .locking } []
  | swapped (passed : log.consumer = .passed) :
      Step config log .swap
        { log with
          inputBuffer := log.outputBuffer
          outputBuffer := log.inputBuffer
          mutex := none
          consumer := .writing 0 } []
  | put {count record} (writing : log.consumer = .writing count)
      (found : log.outputBuffer[count]? = some record) :
      Step config log .fputs { log with consumer := .writing (count + 1) } [.fputs record log.fp]
  | cleared {count} (writing : log.consumer = .writing count)
      (finished : log.outputBuffer.length ≤ count) :
      Step config log .clear { log with outputBuffer := [], consumer := .flushing } []
  | synced (flushing : log.consumer = .flushing) :
      Step config log .fflush { log with consumer := .locking } [.fflush log.fp]

/-- A step of the log is one of these. -/
theorem step_cases {config : Config} {log next : Log Writer Record} {label : Label Writer Record}
    {events : List (Event Record)} (stepped : log.step config label = some (next, events)) :
    Step config log label next events := by
  cases label with
  | call writer date record =>
      simp only [step, call] at stepped
      split at stepped
      case _ idle =>
          cases stepped
          exact .called idle
      case _ => contradiction
  | enter writer =>
      simp only [step, enter] at stepped
      split at stepped
      case _ date record called =>
          split at stepped
          case isTrue free =>
              split at stepped
              · cases stepped
                exact .rotates called free
              · cases stepped
                exact .entered called free
          case isFalse => contradiction
      case _ => contradiction
  | fclose writer =>
      simp only [step, fclose] at stepped
      split at stepped
      case _ date record rotating =>
          cases stepped
          exact .closed rotating
      case _ => contradiction
  | fopen writer succeeds =>
      simp only [step, fopen] at stepped
      split at stepped
      case _ date record reopening =>
          cases stepped
          exact .reopened reopening rfl
      case _ => contradiction
  | append writer =>
      simp only [step, append] at stepped
      split at stepped
      case _ record formatting =>
          split at stepped
          case isTrue free =>
              split at stepped
              case isTrue isAsync =>
                  cases stepped
                  exact .appended formatting free isAsync
              case isFalse isSync =>
                  cases stepped
                  exact .written formatting free (eq_false_of_ne_true isSync)
          case isFalse => contradiction
      case _ => contradiction
  | flush writer =>
      simp only [step, flush] at stepped
      split at stepped
      · split at stepped
        · cases stepped
          exact .flushed
        · contradiction
      · contradiction
  | lock =>
      simp only [step, lock] at stepped
      split at stepped
      case isTrue isAsync =>
          split at stepped
          case isTrue able =>
              cases stepped
              exact .locked able.1 able.2 isAsync
          case isFalse => contradiction
      case isFalse => contradiction
  | test =>
      simp only [step, test] at stepped
      split at stepped
      case isTrue testing =>
          split at stepped
          · cases stepped
            exact .blocked testing
          · cases stepped
            exact .passed testing
      case isFalse => contradiction
  | wake timeout =>
      simp only [step, wake] at stepped
      split at stepped
      case isTrue able =>
          cases stepped
          cases timeout with
          | true => exact .woken able.1 able.2 (.inr rfl)
          | false => exact .woken able.1 able.2 (.inl rfl)
      case isFalse => contradiction
  | swap =>
      simp only [step, swap] at stepped
      split at stepped
      case isTrue passed =>
          split at stepped
          · cases stepped
            exact .skipped passed
          · cases stepped
            exact .swapped passed
      case isFalse => contradiction
  | fputs =>
      simp only [step, fputs] at stepped
      split at stepped
      case _ count writing =>
          split at stepped
          case _ record found =>
              cases stepped
              exact .put writing found
          case _ => contradiction
      case _ => contradiction
  | clear =>
      simp only [step, clear] at stepped
      split at stepped
      case _ count writing =>
          split at stepped
          case isTrue finished =>
              cases stepped
              exact .cleared writing finished
          case isFalse => contradiction
      case _ => contradiction
  | fflush =>
      simp only [step, fflush] at stepped
      split at stepped
      case isTrue flushing =>
          cases stepped
          exact .synced flushing
      case isFalse => contradiction

end Log

end TimeGANWebServer.Logging
