import TimeGANWebServer.Support.Monitor
import TimeGANWebServer.Support.Refinement
import TimeGANWebServer.Logging.BlockQueue
import Mathlib.Data.Fintype.Basic

/-!
# The blocking queue and its threads

`block_queue` in `log/block_queue.h`, used by any number of threads.  A section of its mutex is
one step, apart from those of the two `pop`, which release the mutex while they wait at `m_cond`:
`pop(item)` until there is an element, and `pop(item, ms_timeout)` once at most.
-/

namespace TimeGANWebServer.Logging

open TimeGANWebServer.Support

universe u

/-- One of the functions `pop`, without and with a timeout. -/
inductive PopKind where
  | waiting
  | timed
  deriving DecidableEq, Repr

/-- Where a thread is in `pop`.  When `testing`, `dozing`, `checking` and `found` it has the
mutex: in front of the first test of `m_size`, behind it when the queue was empty, in front of the
second test, and behind a test when there was an element. -/
inductive PopPhase where
  | idle
  | locking (kind : PopKind)
  | testing (kind : PopKind)
  | dozing (kind : PopKind)
  | blocked (kind : PopKind)
  | woken (kind : PopKind)
  | checking
  | found
  deriving DecidableEq, Repr

namespace PopPhase

/-- The thread has the mutex. -/
def Locks : PopPhase → Prop
  | .testing _ | .dozing _ | .checking | .found => True
  | .idle | .locking _ | .blocked _ | .woken _ => False

/-- The thread does not go on by itself: it is not in `pop`, or it is blocked there. -/
def Rests : PopPhase → Prop
  | .idle | .blocked _ => True
  | .locking _ | .testing _ | .dozing _ | .woken _ | .checking | .found => False

/-- The thread has found the queue empty, and waits or is going to. -/
def Misses : PopPhase → Prop
  | .dozing _ | .blocked _ => True
  | .idle | .locking _ | .testing _ | .woken _ | .checking | .found => False

/-- The thread after a broadcast. -/
def notified : PopPhase → PopPhase
  | .blocked kind => .woken kind
  | phase => phase

theorem notified_locks (phase : PopPhase) : phase.notified.Locks ↔ phase.Locks := by
  cases phase <;> exact Iff.rfl

/-- Behind a broadcast no thread waits, unless it has the mutex. -/
theorem locks_of_notified_misses {phase : PopPhase} (misses : phase.notified.Misses) :
    phase.Locks := by
  cases phase <;> first | exact misses | trivial

theorem eq_found_of_notified {phase : PopPhase} (found : phase.notified = .found) :
    phase = .found := by
  cases phase <;> first | exact found | contradiction

end PopPhase

/-- A `block_queue` with the threads that use it. -/
structure SharedQueue (Thread : Type) (Item : Type u) where
  queue : BlockQueue Item
  mutex : Option Thread
  phases : Thread → PopPhase

/-- A step of a thread.  `call` is a function other than `pop`.  A blocked thread may wake up at any
time, since its time is over or without any reason, and `timewait` may tell that the time is over
even where the thread was notified. -/
inductive SharedLabel (Thread : Type) (Item : Type u) where
  | call (thread : Thread) (call : QueueCall Item)
  | pop (thread : Thread) (kind : PopKind)
  | lock (thread : Thread)
  | test (thread : Thread)
  | block (thread : Thread)
  | wake (thread : Thread)
  | relock (thread : Thread) (timeout : Bool)
  | take (thread : Thread)
  deriving DecidableEq, Repr

/-- The calls on the queue that a step carries out. -/
def SharedLabel.queueCalls {Thread : Type} {Item : Type u} :
    SharedLabel Thread Item → List (QueueCall Item)
  | .call _ queueCall => [queueCall]
  | .take _ => [.pop]
  | .pop _ _ | .lock _ | .test _ | .block _ | .wake _ | .relock _ _ => []

variable {Thread : Type} {Item : Type u}

namespace SharedQueue

/-- The queue after a step, and what was done on it, if the step is possible. -/
abbrev Next (Thread : Type) (Item : Type u) :=
  Option (SharedQueue Thread Item × List (QueueEvent Item))

/-- A queue that no thread has used. -/
def start (queue : BlockQueue Item) : SharedQueue Thread Item where
  queue := queue
  mutex := none
  phases := fun _ => .idle

variable [DecidableEq Thread]

/-- Set the phase of a thread. -/
def setPhase (shared : SharedQueue Thread Item) (thread : Thread) (phase : PopPhase) :
    SharedQueue Thread Item :=
  { shared with phases := Function.update shared.phases thread phase }

/-- A function other than `pop`, called by a thread that is not in `pop`.  `push` wakes all
threads up, whether it accepts the element or not. -/
def call (shared : SharedQueue Thread Item) (thread : Thread) (call : QueueCall Item) :
    Next Thread Item :=
  if shared.phases thread = .idle ∧ shared.mutex = none then
    match call with
    | .pop => none
    | .push item =>
        (shared.queue.push item).map fun next =>
          ({ shared with
              queue := next.1
              phases := fun thread => (shared.phases thread).notified }, next.2)
    | other =>
        (shared.queue.step other).map fun next => ({ shared with queue := next.1 }, next.2)
  else
    none

/-- One of the functions `pop` is called. -/
def pop (shared : SharedQueue Thread Item) (thread : Thread) (kind : PopKind) : Next Thread Item :=
  if shared.phases thread = .idle then some (shared.setPhase thread (.locking kind), []) else none

/-- The thread locks the mutex at the start of `pop`. -/
def lock (shared : SharedQueue Thread Item) (thread : Thread) : Next Thread Item :=
  match shared.phases thread with
  | .locking kind =>
      if shared.mutex = none then
        some ({ shared with mutex := some thread }.setPhase thread (.testing kind), [])
      else
        none
  | _ => none

/-- `m_size` is tested.  Behind its wait `pop(item, ms_timeout)` returns false where the queue is
still empty. -/
def test (shared : SharedQueue Thread Item) (thread : Thread) : Next Thread Item :=
  match shared.phases thread with
  | .testing kind =>
      some (shared.setPhase thread (if shared.queue.size ≤ 0 then .dozing kind else .found), [])
  | .checking =>
      if shared.queue.size ≤ 0 then
        some ({ shared with mutex := none }.setPhase thread .idle, [])
      else
        some (shared.setPhase thread .found, [])
  | _ => none

/-- The thread releases the mutex and blocks. -/
def block (shared : SharedQueue Thread Item) (thread : Thread) : Next Thread Item :=
  match shared.phases thread with
  | .dozing kind => some ({ shared with mutex := none }.setPhase thread (.blocked kind), [])
  | _ => none

/-- The thread wakes up without having been notified. -/
def wake (shared : SharedQueue Thread Item) (thread : Thread) : Next Thread Item :=
  match shared.phases thread with
  | .blocked kind => some (shared.setPhase thread (.woken kind), [])
  | _ => none

/-- The wait is over, and the thread has the mutex again.  `pop(item)` goes on with its loop, and
`pop(item, ms_timeout)` returns false at once where `timewait` tells that the time is over. -/
def relock (shared : SharedQueue Thread Item) (thread : Thread) (timeout : Bool) :
    Next Thread Item :=
  match shared.phases thread with
  | .woken kind =>
      if shared.mutex = none then
        match kind, timeout with
        | .waiting, _ =>
            some ({ shared with mutex := some thread }.setPhase thread (.testing .waiting), [])
        | .timed, true => some (shared.setPhase thread .idle, [])
        | .timed, false => some ({ shared with mutex := some thread }.setPhase thread .checking, [])
      else
        none
  | _ => none

/-- The element is taken out, and `pop` returns true. -/
def take (shared : SharedQueue Thread Item) (thread : Thread) : Next Thread Item :=
  if shared.phases thread = .found then
    shared.queue.pop.map fun next =>
      ({ shared with queue := next.1, mutex := none }.setPhase thread .idle, next.2)
  else
    none

/-- One step of a thread. -/
def step (shared : SharedQueue Thread Item) : SharedLabel Thread Item → Next Thread Item
  | .call thread call => shared.call thread call
  | .pop thread kind => shared.pop thread kind
  | .lock thread => shared.lock thread
  | .test thread => shared.test thread
  | .block thread => shared.block thread
  | .wake thread => shared.wake thread
  | .relock thread timeout => shared.relock thread timeout
  | .take thread => shared.take thread

/-! ## What a step does -/

/-- The steps that are possible, by what they do. -/
inductive Step (shared : SharedQueue Thread Item) :
    SharedLabel Thread Item → SharedQueue Thread Item → List (QueueEvent Item) → Prop
  | called {thread call queue events} (idle : shared.phases thread = .idle)
      (free : shared.mutex = none) (notPop : call ≠ .pop) (notPush : ∀ item, call ≠ .push item)
      (made : shared.queue.step call = some (queue, events)) :
      Step shared (.call thread call) { shared with queue := queue } events
  | pushed {thread item queue events} (idle : shared.phases thread = .idle)
      (free : shared.mutex = none) (made : shared.queue.push item = some (queue, events)) :
      Step shared (.call thread (.push item))
        { shared with queue := queue, phases := fun thread => (shared.phases thread).notified }
          events
  | popped {thread kind} (idle : shared.phases thread = .idle) :
      Step shared (.pop thread kind) (shared.setPhase thread (.locking kind)) []
  | locked {thread kind} (locking : shared.phases thread = .locking kind)
      (free : shared.mutex = none) :
      Step shared (.lock thread)
        ({ shared with mutex := some thread }.setPhase thread (.testing kind)) []
  | empty {thread kind} (testing : shared.phases thread = .testing kind)
      (nothing : shared.queue.size ≤ 0) :
      Step shared (.test thread) (shared.setPhase thread (.dozing kind)) []
  | found {thread} (tests : (∃ kind, shared.phases thread = .testing kind) ∨
      shared.phases thread = .checking) (some_ : 0 < shared.queue.size) :
      Step shared (.test thread) (shared.setPhase thread .found) []
  | gaveUp {thread} (checking : shared.phases thread = .checking)
      (nothing : shared.queue.size ≤ 0) :
      Step shared (.test thread) ({ shared with mutex := none }.setPhase thread .idle) []
  | blocked {thread kind} (dozing : shared.phases thread = .dozing kind) :
      Step shared (.block thread) ({ shared with mutex := none }.setPhase thread (.blocked kind)) []
  | woken {thread kind} (blocked : shared.phases thread = .blocked kind) :
      Step shared (.wake thread) (shared.setPhase thread (.woken kind)) []
  | again {thread timeout} (woken : shared.phases thread = .woken .waiting)
      (free : shared.mutex = none) :
      Step shared (.relock thread timeout)
        ({ shared with mutex := some thread }.setPhase thread (.testing .waiting)) []
  | timeout {thread} (woken : shared.phases thread = .woken .timed) (free : shared.mutex = none) :
      Step shared (.relock thread true) (shared.setPhase thread .idle) []
  | checks {thread} (woken : shared.phases thread = .woken .timed) (free : shared.mutex = none) :
      Step shared (.relock thread false)
        ({ shared with mutex := some thread }.setPhase thread .checking) []
  | taken {thread queue events} (found : shared.phases thread = .found)
      (made : shared.queue.pop = some (queue, events)) :
      Step shared (.take thread)
        ({ shared with queue := queue, mutex := none }.setPhase thread .idle) events

variable {shared next : SharedQueue Thread Item} {label : SharedLabel Thread Item}
  {events : List (QueueEvent Item)}

theorem step_cases (stepped : shared.step label = some (next, events)) :
    Step shared label next events := by
  cases label with
  | call thread call =>
      simp only [step, SharedQueue.call] at stepped
      split at stepped
      case isFalse => contradiction
      case isTrue possible =>
          obtain ⟨idle, free⟩ := possible
          cases call with
          | pop => contradiction
          | push item =>
              obtain ⟨⟨queue, made⟩, isMade, same⟩ := Option.map_eq_some_iff.mp stepped
              cases same
              exact .pushed idle free isMade
          | clear | full | empty | front | back | size | maxSize =>
              obtain ⟨⟨queue, made⟩, isMade, same⟩ := Option.map_eq_some_iff.mp stepped
              cases same
              refine .called idle free ?_ ?_ isMade <;> nofun
  | pop thread kind =>
      simp only [step, SharedQueue.pop] at stepped
      split at stepped
      case isFalse => contradiction
      case isTrue idle =>
          cases stepped
          exact .popped idle
  | lock thread =>
      simp only [step, lock] at stepped
      split at stepped
      case h_2 => contradiction
      case h_1 kind locking =>
          split at stepped
          case isFalse => contradiction
          case isTrue free =>
              cases stepped
              exact .locked locking free
  | test thread =>
      simp only [step, test] at stepped
      split at stepped
      case h_3 => contradiction
      case h_1 kind testing =>
          cases stepped
          split
          case isTrue nothing => exact .empty testing nothing
          case isFalse some_ => exact .found (.inl ⟨kind, testing⟩) (Int.not_le.mp some_)
      case h_2 checking =>
          split at stepped
          case isTrue nothing =>
              cases stepped
              exact .gaveUp checking nothing
          case isFalse some_ =>
              cases stepped
              exact .found (.inr checking) (Int.not_le.mp some_)
  | block thread =>
      simp only [step, block] at stepped
      split at stepped
      case h_2 => contradiction
      case h_1 kind dozing =>
          cases stepped
          exact .blocked dozing
  | wake thread =>
      simp only [step, wake] at stepped
      split at stepped
      case h_2 => contradiction
      case h_1 kind blocked =>
          cases stepped
          exact .woken blocked
  | relock thread timeout =>
      simp only [step, relock] at stepped
      split at stepped
      case h_2 => contradiction
      case h_1 kind woken =>
          split at stepped
          case isFalse => contradiction
          case isTrue free =>
              cases kind with
              | waiting =>
                  cases stepped
                  exact .again woken free
              | timed =>
                  cases timeout with
                  | true =>
                      cases stepped
                      exact .timeout woken free
                  | false =>
                      cases stepped
                      exact .checks woken free
  | take thread =>
      simp only [step, take] at stepped
      split at stepped
      case isFalse => contradiction
      case isTrue found =>
          obtain ⟨⟨queue, made⟩, isMade, same⟩ := Option.map_eq_some_iff.mp stepped
          cases same
          exact .taken found isMade

/-! ## What holds in every run -/

/-- What holds of the threads in every run.  A thread that waits has found the queue empty, and
wakes up when an element is pushed. -/
structure Sound (shared : SharedQueue Thread Item) : Prop where
  locks : Guarded PopPhase.Locks shared.phases shared.mutex
  found : ∀ thread, shared.phases thread = .found → 0 < shared.queue.size
  misses : ∀ thread, (shared.phases thread).Misses → shared.queue.size ≤ 0

omit [DecidableEq Thread] in
theorem sound_start (queue : BlockQueue Item) :
    (start queue : SharedQueue Thread Item).Sound where
  locks := fun _ => iff_of_false id nofun
  found := fun _ => nofun
  misses := fun _ => False.elim

/-- A thread goes on, and the queue stays as it is. -/
theorem Sound.setPhase (sound : shared.Sound) {mutex : Option Thread} {thread : Thread}
    {phase : PopPhase}
    (locks : Guarded PopPhase.Locks (Function.update shared.phases thread phase) mutex)
    (found : phase = .found → 0 < shared.queue.size)
    (misses : phase.Misses → shared.queue.size ≤ 0) :
    Sound ({ shared with mutex := mutex }.setPhase thread phase) where
  locks := locks
  found := by
    intro other isFound
    by_cases same : other = thread
    · subst same
      simp only [SharedQueue.setPhase, Function.update_self] at isFound
      exact found isFound
    · simp only [SharedQueue.setPhase, Function.update_of_ne same] at isFound
      exact sound.found other isFound
  misses := by
    intro other isMissing
    by_cases same : other = thread
    · subst same
      simp only [SharedQueue.setPhase, Function.update_self] at isMissing
      exact misses isMissing
    · simp only [SharedQueue.setPhase, Function.update_of_ne same] at isMissing
      exact sound.misses other isMissing

omit [DecidableEq Thread] in
/-- Only `push` makes a queue longer. -/
theorem size_of_step {queue after : BlockQueue Item} {call : QueueCall Item}
    (notPop : call ≠ .pop) (notPush : ∀ item, call ≠ .push item)
    (made : queue.step call = some (after, events)) : after.size = queue.size ∨ after.size = 0 := by
  cases call with
  | push item => exact absurd rfl (notPush item)
  | pop => exact absurd rfl notPop
  | clear =>
      cases made
      exact .inr rfl
  | full | empty | size | maxSize =>
      cases made
      exact .inl rfl
  | front | back =>
      simp only [BlockQueue.step, BlockQueue.getFront, BlockQueue.getBack] at made
      split at made <;> cases made <;> exact .inl rfl

theorem Sound.step (sound : shared.Sound) (stepped : Step shared label next events) :
    next.Sound := by
  cases stepped with
  | @called thread call queue events idle free notPop notPush made =>
      have locks := sound.locks
      rw [free] at locks
      refine ⟨sound.locks, fun other found => ?_, fun other misses => ?_⟩
      · exact absurd (by rw [found]; trivial) (locks.not_inside other)
      · have before := sound.misses other misses
        simp only
        rcases size_of_step notPop notPush made with same | zero
        · rw [same]
          exact before
        · rw [zero]
  | @pushed thread item queue events idle free made =>
      -- Nobody has the mutex, and everybody else is woken up.
      have locks := sound.locks
      rw [free] at locks
      refine ⟨fun other => ?_, fun other found => ?_, fun other misses => ?_⟩
      · exact (PopPhase.notified_locks _).trans (sound.locks other)
      · have before := PopPhase.eq_found_of_notified found
        exact absurd (by rw [before]; trivial) (locks.not_inside other)
      · exact absurd (PopPhase.locks_of_notified_misses misses) (locks.not_inside other)
  | popped idle => exact sound.setPhase (sound.locks.stay (by rw [idle]; rfl)) nofun False.elim
  | locked locking free =>
      have locks := sound.locks
      rw [free] at locks
      exact sound.setPhase (locks.enter trivial) nofun False.elim
  | empty testing nothing =>
      refine sound.setPhase (sound.locks.stay (by rw [testing]; rfl)) nofun fun _ => nothing
  | found tests some_ =>
      refine sound.setPhase (sound.locks.stay ?_) (fun _ => some_) False.elim
      rcases tests with ⟨kind, testing⟩ | checking
      · rw [testing]
        rfl
      · rw [checking]
        rfl
  | gaveUp checking =>
      exact sound.setPhase (sound.locks.leave (by rw [checking]; trivial) id) nofun False.elim
  | @blocked thread kind dozing =>
      have nothing := sound.misses thread (by rw [dozing]; trivial)
      exact sound.setPhase (sound.locks.leave (by rw [dozing]; trivial) id) nofun fun _ => nothing
  | woken blocked => exact sound.setPhase (sound.locks.stay (by rw [blocked]; rfl)) nofun False.elim
  | again woken free =>
      have locks := sound.locks
      rw [free] at locks
      exact sound.setPhase (locks.enter trivial) nofun False.elim
  | timeout woken => exact sound.setPhase (sound.locks.stay (by rw [woken]; rfl)) nofun False.elim
  | checks woken free =>
      have locks := sound.locks
      rw [free] at locks
      exact sound.setPhase (locks.enter trivial) nofun False.elim
  | @taken thread queue events found made =>
      -- There is an element, so nobody misses one; and nobody else has the mutex.
      have some_ := sound.found thread found
      have alone : ∀ other, other ≠ thread → ¬(shared.phases other).Locks :=
        fun other apart inside =>
        apart (sound.locks.exclusive (by rw [found]; trivial) inside)
      refine ⟨sound.locks.leave (by rw [found]; trivial) id, fun other isFound => ?_,
        fun other misses => ?_⟩
      · by_cases same : other = thread
        · subst same
          simp only [SharedQueue.setPhase, Function.update_self] at isFound
          contradiction
        · simp only [SharedQueue.setPhase, Function.update_of_ne same] at isFound
          exact absurd (by rw [isFound]; trivial) (alone other same)
      · by_cases same : other = thread
        · subst same
          simp only [SharedQueue.setPhase, Function.update_self] at misses
          exact misses.elim
        · simp only [SharedQueue.setPhase, Function.update_of_ne same] at misses
          have nothing := sound.misses other misses
          omega

/-- A step does to the queue what the calls it stands for do. -/
theorem Step.refines (stepped : Step shared label next events) :
    run BlockQueue.step shared.queue label.queueCalls = some (next.queue, events) := by
  cases stepped with
  | called _ _ _ _ made => exact run_singleton made
  | pushed _ _ made => exact run_singleton made
  | taken _ made => exact run_singleton made
  | popped | locked | empty | found | gaveUp | blocked | woken | again | timeout | checks => rfl

/-! ## Threads that cannot go on -/

/-- No thread can go on unless it calls a function, or wakes up without having been notified. -/
def Settled (shared : SharedQueue Thread Item) : Prop :=
  ∀ thread, shared.lock thread = none ∧ shared.test thread = none ∧ shared.block thread = none ∧
    (∀ timeout, shared.relock thread timeout = none) ∧ shared.take thread = none

instance decidableSettled [Fintype Thread] (shared : SharedQueue Thread Item) :
    Decidable shared.Settled :=
  inferInstanceAs (Decidable (∀ _, _))

/-- The mutex does not stay with a thread, and a thread that wants it gets it; so only blocked
threads cannot go on, and for these there is no element. -/
theorem Sound.rests (sound : shared.Sound) (settled : shared.Settled) (thread : Thread) :
    (shared.phases thread).Rests := by
  have outside : ∀ other, ¬(shared.phases other).Locks := by
    intro other inside
    obtain ⟨-, test, block, -, take⟩ := settled other
    cases phase : shared.phases other with
    | idle | locking | blocked | woken =>
        rw [phase] at inside
        exact inside
    | testing kind =>
        simp only [SharedQueue.test, phase] at test
        contradiction
    | dozing kind =>
        simp only [SharedQueue.block, phase] at block
        contradiction
    | checking =>
        simp only [SharedQueue.test, phase] at test
        split at test <;> contradiction
    | found =>
        have some_ := sound.found other phase
        simp only [SharedQueue.take, phase, if_true, BlockQueue.pop, if_neg (Int.not_le.mpr some_)]
          at take
        contradiction
  have free : shared.mutex = none := by
    cases mutex : shared.mutex with
    | none => rfl
    | some holder => exact absurd ((sound.locks holder).mpr mutex) (outside holder)
  obtain ⟨lock, -, -, relock, -⟩ := settled thread
  cases phase : shared.phases thread with
  | idle | blocked => trivial
  | testing | dozing | checking | found => exact absurd (by rw [phase]; trivial) (outside thread)
  | locking kind =>
      simp only [SharedQueue.lock, phase, if_pos free] at lock
      contradiction
  | woken kind =>
      have again := relock false
      simp only [SharedQueue.relock, phase, if_pos free] at again
      cases kind <;> contradiction

/-! ## Runs -/

omit [DecidableEq Thread] in
/-- What is possible on a queue is possible on its list. -/
theorem possible {capacity : Int} {queue after : BlockQueue Item} {fifo : Fifo Item}
    {call : QueueCall Item} (positive : 0 < capacity)
    (represents : BlockQueue.Represents capacity queue fifo)
    (made : queue.step call = some (after, events)) :
    ∃ next answers, fifo.step capacity call = some (next, answers) ∧
      BlockQueue.Represents capacity after next := by
  obtain ⟨next, answers, stepped⟩ :
      ∃ next answers, fifo.step capacity call = some (next, answers) := by
    cases call with
    | push item =>
        simp only [Fifo.step]
        split <;> exact ⟨_, _, rfl⟩
    | pop =>
        simp only [Fifo.step]
        split
        case h_1 nothing =>
            have zero : queue.size ≤ 0 := by
              rw [represents.size, nothing, List.length_nil]
              rfl
            simp only [BlockQueue.step, BlockQueue.pop, if_pos zero] at made
            contradiction
        case h_2 => exact ⟨_, _, rfl⟩
    | clear | full | empty | front | back | size | maxSize => exact ⟨_, _, rfl⟩
  obtain ⟨other, event, answer, -, matched, related, -⟩ := represents.step positive stepped
  rw [made] at matched
  cases matched
  exact ⟨next, answers, stepped, related⟩

/-- The calls of any number of threads, in the order of their sections, act on the queue as on a
bounded first-in first-out queue, exactly if `front` agrees whenever it is called; and a thread
that cannot go on is blocked in `pop`, and the queue is empty. -/
theorem linearized_of_run {capacity : Int} {array : Int → Item} {queue : BlockQueue Item}
    {labels : List (SharedLabel Thread Item)} {log : List (QueueEvent Item)}
    (made : BlockQueue.new capacity array = some queue)
    (ran : run step (start queue) labels = some (shared, log)) :
    ∃ fifo answers,
      run (Fifo.step capacity) Fifo.fresh (labels.flatMap SharedLabel.queueCalls) =
          some (fifo, answers) ∧
        BlockQueue.Represents capacity shared.queue fifo ∧
        (List.Forall₂ (QueueEvent.Agrees capacity) log answers ↔
          RunMeets (Fifo.step capacity) (Fifo.FrontAgrees capacity) Fifo.fresh
            (labels.flatMap SharedLabel.queueCalls)) ∧
        (shared.Settled → ∀ thread, shared.phases thread ≠ .idle →
          (∃ kind, shared.phases thread = .blocked kind) ∧ fifo.held = []) := by
  have positive : 0 < capacity := by
    by_contra notPositive
    rw [BlockQueue.new, if_pos (Int.not_lt.mp notPositive)] at made
    contradiction
  have fresh : BlockQueue.Represents capacity queue Fifo.fresh := by
    rw [BlockQueue.new, if_neg (Int.not_le.mpr positive)] at made
    cases made
    exact @BlockQueue.represents_fresh _ _ ⟨array, 0, capacity, -1, -1⟩ rfl positive
  have sound : shared.Sound := run_state_always Sound
    (fun _ _ _ _ sound stepped => sound.step (step_cases stepped)) (sound_start queue) ran
  have ranQueue : run BlockQueue.step queue (labels.flatMap SharedLabel.queueCalls) =
      some (shared.queue, log) :=
    run_refines (fun _ => True) SharedQueue.queue SharedLabel.queueCalls
      (fun _ _ _ _ _ _ => trivial) (fun _ _ _ _ _ stepped => (step_cases stepped).refines)
      trivial ran
  have simulates : ∀ (queue : BlockQueue Item) (fifo : Fifo Item) call next events,
      BlockQueue.Represents capacity queue fifo → queue.step call = some (next, events) →
        ∃ after answers, fifo.step capacity call = some (after, answers) ∧
          BlockQueue.Represents capacity next after :=
    fun _ _ _ _ _ represents stepped => possible positive represents stepped
  obtain ⟨fifo, answers, ranFifo, represents⟩ :=
    run_simulates (BlockQueue.Represents capacity) simulates fresh ranQueue
  have agrees : ∀ (queue : BlockQueue Item) (fifo : Fifo Item) call next answers,
      BlockQueue.Represents capacity queue fifo →
      Fifo.step capacity fifo call = some (next, answers) →
        ∃ after event answer, answers = [answer] ∧ queue.step call = some (after, [event]) ∧
          BlockQueue.Represents capacity after next ∧
          (QueueEvent.Agrees capacity event answer ↔ fifo.FrontAgrees capacity call) :=
    fun _ _ _ _ _ represents stepped => represents.step positive stepped
  obtain ⟨last, events, ranAgain, _, agree⟩ := run_forall₂_iff (BlockQueue.Represents capacity)
    (QueueEvent.Agrees capacity) agrees fresh ranFifo
  rw [ranQueue] at ranAgain
  cases ranAgain
  refine ⟨fifo, answers, ranFifo, represents, agree, fun settled thread busy => ?_⟩
  have rests := sound.rests settled thread
  cases phase : shared.phases thread with
  | idle => exact absurd phase busy
  | blocked kind =>
      have nothing := sound.misses thread (by rw [phase]; trivial)
      rw [represents.size] at nothing
      exact ⟨⟨kind, rfl⟩, List.eq_nil_of_length_eq_zero (by omega)⟩
  | locking | testing | dozing | woken | checking | found =>
      rw [phase] at rests
      exact rests.elim

/-- One thread waits for an element and another one with a timeout.  One of two elements is taken
by the first thread; the other one is left by the second, whose time is over, and taken by the
third, which then blocks. -/
def threeThreads : List (SharedLabel (Fin 3) Nat) :=
  [.pop 0 .waiting, .lock 0, .test 0, .block 0, .pop 1 .timed, .lock 1, .test 1, .block 1,
    .call 2 (.push 7), .relock 0 false, .test 0, .take 0, .call 0 (.push 8), .relock 1 true,
    .pop 2 .waiting, .lock 2, .test 2, .take 2, .pop 2 .waiting, .lock 2, .test 2, .block 2]

theorem linearized_threeThreads : ∃ queue, BlockQueue.new 4 (fun _ => 0) = some queue ∧
    ∃ shared log, run step (start queue) threeThreads = some (shared, log) ∧
      ∃ fifo answers, run (Fifo.step 4) Fifo.fresh (threeThreads.flatMap SharedLabel.queueCalls) =
          some (fifo, answers) ∧
        List.Forall₂ (QueueEvent.Agrees 4) log answers ∧ fifo.held = [] := by
  refine ⟨_, rfl, ?_⟩
  have facts : (run step (start ⟨fun _ => 0, 0, 4, -1, -1⟩) threeThreads).map
      (fun last => (decide last.1.Settled, last.1.phases 2)) = some (true, .blocked .waiting) := by
    decide +kernel
  obtain ⟨⟨shared, log⟩, ran, same⟩ := Option.map_eq_some_iff.mp facts
  simp only [Prod.mk.injEq, decide_eq_true_eq] at same
  obtain ⟨fifo, answers, ranFifo, -, agree, waits⟩ :=
    linearized_of_run (rfl : BlockQueue.new 4 (fun _ => 0) = some _) ran
  have held := waits same.1 2 (by rw [same.2]; nofun)
  exact ⟨shared, log, ran, fifo, answers, ranFifo, agree.mpr (by decide +kernel), held.2⟩

end SharedQueue

end TimeGANWebServer.Logging
