import Mathlib.Data.List.Nodup
import Mathlib.Data.List.Perm.Basic
import Mathlib.Logic.Function.Basic

/-!
# Custody of connections

A server with one-shot events hands each connection on: it is armed, and waits for an
event; it is reported, and waits to be handled; it is the subject of a task, and waits
for a worker or is with one.  Whoever takes it out of one of these places has it in hand
and puts it into another one, or closes it.  No place is lost or doubled as long as
every operation is made on a connection in hand.
-/

namespace TimeGANWebServer.Support

universe u v

/-- A task for a descriptor, and the connection it was made for. -/
structure Task (Fd : Type u) (Conn : Type v) where
  fd : Fd
  conn : Conn
  deriving DecidableEq, Repr

/-- The open descriptors with their connections, and where each of them is. -/
structure Custody (Fd : Type u) (Conn : Type v) where
  openFds : List Fd
  owner : Fd → Conn
  armed : Fd → Prop
  reported : List Fd
  queued : List (Task Fd Conn)
  working : List (Task Fd Conn)

namespace Custody

variable {Fd : Type u} {Conn : Type v}

/-- The tasks, waiting or with a worker. -/
def tasks (custody : Custody Fd Conn) : List (Task Fd Conn) :=
  custody.queued ++ custody.working

/-- A descriptor is the subject of a task. -/
def Busy (custody : Custody Fd Conn) (fd : Fd) : Prop :=
  fd ∈ custody.tasks.map Task.fd

/-- A descriptor is in no place. -/
structure InHand (custody : Custody Fd Conn) (fd : Fd) : Prop where
  isOpen : fd ∈ custody.openFds
  notArmed : ¬custody.armed fd
  notReported : fd ∉ custody.reported
  notBusy : ¬custody.Busy fd

/-- Every descriptor is open where it has a place, and has one place at most; a task is
for the connection that has the descriptor. -/
structure Exclusive (custody : Custody Fd Conn) : Prop where
  armed_open : ∀ fd, custody.armed fd → fd ∈ custody.openFds
  reported_open : ∀ fd ∈ custody.reported, fd ∈ custody.openFds
  reported_armed : ∀ fd ∈ custody.reported, ¬custody.armed fd
  reported_nodup : custody.reported.Nodup
  task_open : ∀ task ∈ custody.tasks, task.fd ∈ custody.openFds
  task_owner : ∀ task ∈ custody.tasks, custody.owner task.fd = task.conn
  task_armed : ∀ task ∈ custody.tasks, ¬custody.armed task.fd
  task_reported : ∀ task ∈ custody.tasks, task.fd ∉ custody.reported
  task_nodup : (custody.tasks.map Task.fd).Nodup

/-- Every open descriptor has a place, or is in hand. -/
def Placed (custody : Custody Fd Conn) (Hand : Fd → Prop) : Prop :=
  ∀ fd ∈ custody.openFds,
    custody.armed fd ∨ fd ∈ custody.reported ∨ custody.Busy fd ∨ Hand fd

/-! ## Operations -/

/-- Take over a reported descriptor; the others stay reported. -/
def serve (custody : Custody Fd Conn) (rest : List Fd) : Custody Fd Conn :=
  { custody with reported := rest }

/-- Make a task of a descriptor. -/
def enqueue (custody : Custody Fd Conn) (fd : Fd) : Custody Fd Conn :=
  { custody with queued := custody.queued ++ [⟨fd, custody.owner fd⟩] }

/-- A worker takes a task. -/
def take (custody : Custody Fd Conn) (task : Task Fd Conn) (rest : List (Task Fd Conn)) :
    Custody Fd Conn :=
  { custody with queued := rest, working := custody.working ++ [task] }

/-- A worker is done with its task. -/
def release (custody : Custody Fd Conn) (worker : Nat) : Custody Fd Conn :=
  { custody with working := custody.working.eraseIdx worker }

/-- Report armed descriptors. -/
def report (custody : Custody Fd Conn) (fds : List Fd) : Custody Fd Conn :=
  { custody with reported := fds, armed := fun fd => fd ∉ fds ∧ custody.armed fd }

/-- Arm a descriptor. -/
def rearm (custody : Custody Fd Conn) (fd : Fd) : Custody Fd Conn :=
  { custody with armed := fun other => other = fd ∨ custody.armed other }

section Closing

variable [DecidableEq Fd]

/-- Accept a connection on a descriptor, and arm it. -/
def accept (custody : Custody Fd Conn) (fd : Fd) (conn : Conn) : Custody Fd Conn :=
  { custody with
    openFds := fd :: custody.openFds
    owner := Function.update custody.owner fd conn
    armed := fun other => other = fd ∨ custody.armed other }

/-- Close a descriptor. -/
def close (custody : Custody Fd Conn) (fd : Fd) : Custody Fd Conn :=
  { custody with
    openFds := custody.openFds.erase fd
    armed := fun other => other ≠ fd ∧ custody.armed other }

/-- Close some descriptors. -/
def closeAll (custody : Custody Fd Conn) (fds : List Fd) : Custody Fd Conn :=
  fds.foldl close custody

end Closing

/-! ## Exclusive places -/

variable {custody : Custody Fd Conn}

/-- A task whose descriptor is at hand is none of the tasks. -/
theorem InHand.task_ne {fd : Fd} (hand : custody.InHand fd) {task : Task Fd Conn}
    (member : task ∈ custody.tasks) : task.fd ≠ fd :=
  fun same => hand.notBusy (List.mem_map.mpr ⟨task, member, same⟩)

/-- A reported descriptor is taken over. -/
theorem Exclusive.serve (exclusive : custody.Exclusive) {fd : Fd} {rest : List Fd}
    (first : custody.reported = fd :: rest) :
    (custody.serve rest).Exclusive ∧ (custody.serve rest).InHand fd := by
  have member : fd ∈ custody.reported := first ▸ List.mem_cons_self
  have nodup := exclusive.reported_nodup
  rw [first] at nodup
  obtain ⟨absent, restNodup⟩ := List.nodup_cons.mp nodup
  have later : ∀ other ∈ rest, other ∈ custody.reported := by
    rw [first]
    exact fun other => List.mem_cons_of_mem fd
  constructor
  · exact {
      armed_open := exclusive.armed_open
      reported_open := fun other inRest => exclusive.reported_open other (later other inRest)
      reported_armed := fun other inRest => exclusive.reported_armed other (later other inRest)
      reported_nodup := restNodup
      task_open := exclusive.task_open
      task_owner := exclusive.task_owner
      task_armed := exclusive.task_armed
      task_reported := fun task isTask inRest =>
        exclusive.task_reported task isTask (later task.fd inRest)
      task_nodup := exclusive.task_nodup }
  · refine ⟨exclusive.reported_open fd member, exclusive.reported_armed fd member, absent, ?_⟩
    intro busy
    obtain ⟨task, isTask, same⟩ := List.mem_map.mp busy
    exact exclusive.task_reported task isTask (same ▸ member)

/-- A descriptor in hand is armed. -/
theorem Exclusive.rearm (exclusive : custody.Exclusive) {fd : Fd} (hand : custody.InHand fd) :
    (custody.rearm fd).Exclusive where
  armed_open := by
    rintro other (rfl | armed)
    · exact hand.isOpen
    · exact exclusive.armed_open other armed
  reported_open := exclusive.reported_open
  reported_armed := by
    rintro other reported (rfl | armed)
    · exact hand.notReported reported
    · exact exclusive.reported_armed other reported armed
  reported_nodup := exclusive.reported_nodup
  task_open := exclusive.task_open
  task_owner := exclusive.task_owner
  task_armed := by
    rintro task isTask (same | armed)
    · exact hand.task_ne isTask same
    · exact exclusive.task_armed task isTask armed
  task_reported := exclusive.task_reported
  task_nodup := exclusive.task_nodup

/-- The tasks behind an enqueued one. -/
theorem mem_tasks_enqueue {fd : Fd} {task : Task Fd Conn} :
    task ∈ (custody.enqueue fd).tasks ↔ task ∈ custody.tasks ∨ task = ⟨fd, custody.owner fd⟩ := by
  simp only [tasks, enqueue, List.mem_append, List.mem_singleton]
  tauto

/-- A descriptor in hand becomes the subject of a task. -/
theorem Exclusive.enqueue (exclusive : custody.Exclusive) {fd : Fd} (hand : custody.InHand fd) :
    (custody.enqueue fd).Exclusive where
  armed_open := exclusive.armed_open
  reported_open := exclusive.reported_open
  reported_armed := exclusive.reported_armed
  reported_nodup := exclusive.reported_nodup
  task_open := by
    intro task isTask
    rcases mem_tasks_enqueue.mp isTask with isTask | rfl
    · exact exclusive.task_open task isTask
    · exact hand.isOpen
  task_owner := by
    intro task isTask
    rcases mem_tasks_enqueue.mp isTask with isTask | rfl
    · exact exclusive.task_owner task isTask
    · rfl
  task_armed := by
    intro task isTask
    rcases mem_tasks_enqueue.mp isTask with isTask | rfl
    · exact exclusive.task_armed task isTask
    · exact hand.notArmed
  task_reported := by
    intro task isTask
    rcases mem_tasks_enqueue.mp isTask with isTask | rfl
    · exact exclusive.task_reported task isTask
    · exact hand.notReported
  task_nodup := by
    have order : (custody.enqueue fd).tasks.map Task.fd =
        custody.queued.map Task.fd ++ fd :: custody.working.map Task.fd := by
      simp [tasks, Custody.enqueue]
    rw [order, List.perm_middle.nodup_iff, ← List.map_append]
    exact List.nodup_cons.mpr ⟨hand.notBusy, exclusive.task_nodup⟩

/-- Moving a task from the queue to a worker keeps the tasks. -/
theorem mem_tasks_take {first : Task Fd Conn} {rest : List (Task Fd Conn)}
    (queued : custody.queued = first :: rest) {task : Task Fd Conn} :
    task ∈ (custody.take first rest).tasks ↔ task ∈ custody.tasks := by
  simp only [tasks, take, queued, List.mem_append, List.mem_cons]
  tauto

theorem Exclusive.take (exclusive : custody.Exclusive) {first : Task Fd Conn}
    {rest : List (Task Fd Conn)} (queued : custody.queued = first :: rest) :
    (custody.take first rest).Exclusive where
  armed_open := exclusive.armed_open
  reported_open := exclusive.reported_open
  reported_armed := exclusive.reported_armed
  reported_nodup := exclusive.reported_nodup
  task_open task isTask := exclusive.task_open task ((mem_tasks_take queued).mp isTask)
  task_owner task isTask := exclusive.task_owner task ((mem_tasks_take queued).mp isTask)
  task_armed task isTask := exclusive.task_armed task ((mem_tasks_take queued).mp isTask)
  task_reported task isTask := exclusive.task_reported task ((mem_tasks_take queued).mp isTask)
  task_nodup := by
    have nodup := exclusive.task_nodup
    simp only [tasks, queued, List.map_append, List.map_cons] at nodup
    simp only [tasks, Custody.take, List.map_append, List.map_cons, List.map_nil]
    rw [← List.append_assoc]
    exact List.perm_append_singleton _ _ |>.nodup_iff.mpr nodup

/-- The tasks left behind a finished one. -/
theorem mem_tasks_release {worker : Nat} {task : Task Fd Conn}
    (isTask : task ∈ (custody.release worker).tasks) : task ∈ custody.tasks := by
  rcases List.mem_append.mp isTask with queued | working
  · exact List.mem_append_left _ queued
  · exact List.mem_append_right _ (List.mem_of_mem_eraseIdx working)

/-- A worker that is done has the descriptor of its task in hand. -/
theorem Exclusive.release (exclusive : custody.Exclusive) {worker : Nat} {task : Task Fd Conn}
    (isWorking : custody.working[worker]? = some task) :
    (custody.release worker).Exclusive ∧ (custody.release worker).InHand task.fd := by
  obtain ⟨below, isTask⟩ := List.getElem?_eq_some_iff.mp isWorking
  have member : task ∈ custody.tasks :=
    List.mem_append_right _ (isTask ▸ List.getElem_mem below)
  have order : (custody.tasks.map Task.fd).Perm
      (task.fd :: (custody.release worker).tasks.map Task.fd) := by
    have parts := List.getElem_cons_eraseIdx_perm below
    rw [isTask] at parts
    have perm : custody.tasks.Perm (task :: (custody.release worker).tasks) :=
      ((parts.symm).append_left custody.queued).trans List.perm_middle
    exact perm.map Task.fd
  have nodup := order.nodup_iff.mp exclusive.task_nodup
  obtain ⟨absent, restNodup⟩ := List.nodup_cons.mp nodup
  constructor
  · exact {
      armed_open := exclusive.armed_open
      reported_open := exclusive.reported_open
      reported_armed := exclusive.reported_armed
      reported_nodup := exclusive.reported_nodup
      task_open := fun other isOther => exclusive.task_open other (mem_tasks_release isOther)
      task_owner := fun other isOther => exclusive.task_owner other (mem_tasks_release isOther)
      task_armed := fun other isOther => exclusive.task_armed other (mem_tasks_release isOther)
      task_reported := fun other isOther => exclusive.task_reported other
        (mem_tasks_release isOther)
      task_nodup := restNodup }
  · exact ⟨exclusive.task_open task member, exclusive.task_armed task member,
      exclusive.task_reported task member, absent⟩

/-- Armed descriptors are reported. -/
theorem Exclusive.report (exclusive : custody.Exclusive) {fds : List Fd} (nodup : fds.Nodup)
    (armed : ∀ fd ∈ fds, custody.armed fd) : (custody.report fds).Exclusive where
  armed_open _ isArmed := exclusive.armed_open _ isArmed.2
  reported_open fd reported := exclusive.armed_open fd (armed fd reported)
  reported_armed _ reported isArmed := isArmed.1 reported
  reported_nodup := nodup
  task_open := exclusive.task_open
  task_owner := exclusive.task_owner
  task_armed task isTask isArmed := exclusive.task_armed task isTask isArmed.2
  task_reported task isTask reported := exclusive.task_armed task isTask (armed task.fd reported)
  task_nodup := exclusive.task_nodup

section Closing

variable [DecidableEq Fd]

/-- A new connection is accepted on a descriptor that was not open. -/
theorem Exclusive.accept (exclusive : custody.Exclusive) {fd : Fd} (conn : Conn)
    (fresh : fd ∉ custody.openFds) : (custody.accept fd conn).Exclusive where
  armed_open := by
    rintro other (rfl | armed)
    · exact List.mem_cons_self
    · exact List.mem_cons_of_mem _ (exclusive.armed_open other armed)
  reported_open other reported := List.mem_cons_of_mem _ (exclusive.reported_open other reported)
  reported_armed := by
    rintro other reported (rfl | armed)
    · exact fresh (exclusive.reported_open other reported)
    · exact exclusive.reported_armed other reported armed
  reported_nodup := exclusive.reported_nodup
  task_open task isTask := List.mem_cons_of_mem _ (exclusive.task_open task isTask)
  task_owner := by
    intro task isTask
    have different : task.fd ≠ fd := fun same => fresh (same ▸ exclusive.task_open task isTask)
    simp only [Custody.accept, Function.update_of_ne different]
    exact exclusive.task_owner task isTask
  task_armed := by
    rintro task isTask (same | armed)
    · exact fresh (same ▸ exclusive.task_open task isTask)
    · exact exclusive.task_armed task isTask armed
  task_reported := exclusive.task_reported
  task_nodup := exclusive.task_nodup

/-- A descriptor that is neither reported nor the subject of a task is closed. -/
theorem Exclusive.close (exclusive : custody.Exclusive) (nodup : custody.openFds.Nodup) {fd : Fd}
    (notReported : fd ∉ custody.reported) (notBusy : ¬custody.Busy fd) :
    (custody.close fd).Exclusive where
  armed_open other armed :=
    (nodup.mem_erase_iff).mpr ⟨armed.1, exclusive.armed_open other armed.2⟩
  reported_open other reported := by
    refine (nodup.mem_erase_iff).mpr ⟨?_, exclusive.reported_open other reported⟩
    rintro rfl
    exact notReported reported
  reported_armed other reported armed := exclusive.reported_armed other reported armed.2
  reported_nodup := exclusive.reported_nodup
  task_open task isTask := by
    refine (nodup.mem_erase_iff).mpr ⟨?_, exclusive.task_open task isTask⟩
    exact fun same => notBusy (List.mem_map.mpr ⟨task, isTask, same⟩)
  task_owner := exclusive.task_owner
  task_armed task isTask armed := exclusive.task_armed task isTask armed.2
  task_reported := exclusive.task_reported
  task_nodup := exclusive.task_nodup

/-- What is open behind some closes. -/
theorem mem_openFds_closeAll (nodup : custody.openFds.Nodup) {fds : List Fd} {fd : Fd} :
    fd ∈ (custody.closeAll fds).openFds ↔ fd ∈ custody.openFds ∧ fd ∉ fds := by
  induction fds generalizing custody with
  | nil => simp [closeAll]
  | cons first fds ih =>
      have rest := @ih (custody.close first) (nodup.erase first)
      simp only [closeAll, List.foldl_cons] at rest ⊢
      rw [rest, close, nodup.mem_erase_iff, List.mem_cons, not_or]
      tauto

/-- Descriptors that are neither reported nor the subjects of tasks are closed. -/
theorem Exclusive.closeAll (exclusive : custody.Exclusive) (nodup : custody.openFds.Nodup)
    {fds : List Fd} (notReported : ∀ fd ∈ fds, fd ∉ custody.reported)
    (notBusy : ∀ fd ∈ fds, ¬custody.Busy fd) : (custody.closeAll fds).Exclusive := by
  induction fds generalizing custody with
  | nil => exact exclusive
  | cons fd fds ih =>
      have first := exclusive.close nodup (notReported fd List.mem_cons_self)
        (notBusy fd List.mem_cons_self)
      exact ih first (nodup.erase fd)
        (fun other member => notReported other (List.mem_cons_of_mem _ member))
        (fun other member => notBusy other (List.mem_cons_of_mem _ member))

end Closing

/-! ## No descriptor without a place -/

/-- A descriptor that is taken over is in hand. -/
theorem Placed.serve (placed : custody.Placed fun _ => False) {fd : Fd} {rest : List Fd}
    (first : custody.reported = fd :: rest) : (custody.serve rest).Placed (· = fd) := by
  intro other isOpen
  rcases placed other isOpen with armed | reported | busy | none
  · exact .inl armed
  · rw [first] at reported
    rcases List.mem_cons.mp reported with same | later
    · exact .inr (.inr (.inr same))
    · exact .inr (.inl later)
  · exact .inr (.inr (.inl busy))
  · exact none.elim

theorem Placed.rearm {fd : Fd} (placed : custody.Placed (· = fd)) :
    (custody.rearm fd).Placed fun _ => False := by
  intro other isOpen
  rcases placed other isOpen with armed | reported | busy | same
  · exact .inl (.inr armed)
  · exact .inr (.inl reported)
  · exact .inr (.inr (.inl busy))
  · exact .inl (.inl same)

theorem Placed.enqueue {fd : Fd} (placed : custody.Placed (· = fd)) :
    (custody.enqueue fd).Placed fun _ => False := by
  have busy_of : ∀ task, task ∈ custody.tasks ∨ task = ⟨fd, custody.owner fd⟩ →
      (custody.enqueue fd).Busy task.fd := fun task isTask =>
    List.mem_map.mpr ⟨task, mem_tasks_enqueue.mpr isTask, rfl⟩
  intro other isOpen
  rcases placed other isOpen with armed | reported | busy | same
  · exact .inl armed
  · exact .inr (.inl reported)
  · obtain ⟨task, isTask, same⟩ := List.mem_map.mp busy
    exact .inr (.inr (.inl (same ▸ busy_of task (.inl isTask))))
  · exact .inr (.inr (.inl (same ▸ busy_of _ (.inr rfl))))

theorem Placed.take (placed : custody.Placed fun _ => False) {first : Task Fd Conn}
    {rest : List (Task Fd Conn)} (queued : custody.queued = first :: rest) :
    (custody.take first rest).Placed fun _ => False := by
  intro other isOpen
  rcases placed other isOpen with armed | reported | busy | none
  · exact .inl armed
  · exact .inr (.inl reported)
  · obtain ⟨task, isTask, same⟩ := List.mem_map.mp busy
    exact .inr (.inr (.inl (List.mem_map.mpr ⟨task, (mem_tasks_take queued).mpr isTask, same⟩)))
  · exact none.elim

/-- The descriptor of a finished task is in hand. -/
theorem Placed.release (placed : custody.Placed fun _ => False) {worker : Nat}
    {task : Task Fd Conn} (isWorking : custody.working[worker]? = some task) :
    (custody.release worker).Placed (· = task.fd) := by
  obtain ⟨below, isTask⟩ := List.getElem?_eq_some_iff.mp isWorking
  intro other isOpen
  rcases placed other isOpen with armed | reported | busy | none
  · exact .inl armed
  · exact .inr (.inl reported)
  · obtain ⟨found, member, same⟩ := List.mem_map.mp busy
    have parts : found ∈ custody.working[worker] :: custody.working.eraseIdx worker ↔
        found ∈ custody.working :=
      (List.getElem_cons_eraseIdx_perm below).mem_iff
    rcases List.mem_append.mp member with queued | working
    · exact .inr (.inr (.inl (List.mem_map.mpr ⟨found, List.mem_append_left _ queued, same⟩)))
    · rcases List.mem_cons.mp (parts.mpr working) with first | left
      · exact .inr (.inr (.inr (by rw [← same, first, isTask])))
      · exact .inr (.inr (.inl (List.mem_map.mpr ⟨found, List.mem_append_right _ left, same⟩)))
  · exact none.elim

theorem Placed.report (placed : custody.Placed fun _ => False) (fds : List Fd)
    (idle : custody.reported = []) : (custody.report fds).Placed fun _ => False := by
  intro other isOpen
  by_cases reports : other ∈ fds
  · exact .inr (.inl reports)
  · rcases placed other isOpen with armed | reported | busy | none
    · exact .inl ⟨reports, armed⟩
    · rw [idle] at reported
      exact absurd reported List.not_mem_nil
    · exact .inr (.inr (.inl busy))
    · exact none.elim

section Closing

variable [DecidableEq Fd]

theorem Placed.accept (placed : custody.Placed fun _ => False) (fd : Fd) (conn : Conn) :
    (custody.accept fd conn).Placed fun _ => False := by
  intro other isOpen
  rcases List.mem_cons.mp isOpen with same | isOpen
  · exact .inl (.inl same)
  · rcases placed other isOpen with armed | reported | busy | none
    · exact .inl (.inr armed)
    · exact .inr (.inl reported)
    · exact .inr (.inr (.inl busy))
    · exact none.elim

/-- Closing what may be in hand leaves nothing without a place. -/
theorem Placed.close {fd : Fd} {Hand : Fd → Prop} (placed : custody.Placed Hand)
    (only : ∀ other, Hand other → other = fd) (nodup : custody.openFds.Nodup) :
    (custody.close fd).Placed fun _ => False := by
  intro other isOpen
  obtain ⟨different, isOpen⟩ := (nodup.mem_erase_iff).mp isOpen
  rcases placed other isOpen with armed | reported | busy | hand
  · exact .inl ⟨different, armed⟩
  · exact .inr (.inl reported)
  · exact .inr (.inr (.inl busy))
  · exact absurd (only other hand) different

theorem Placed.closeAll (placed : custody.Placed fun _ => False) (nodup : custody.openFds.Nodup)
    (fds : List Fd) : (custody.closeAll fds).Placed fun _ => False := by
  induction fds generalizing custody with
  | nil => exact placed
  | cons fd fds ih =>
      have first : (custody.close fd).Placed fun _ => False :=
        placed.close (fun _ none => none.elim) nodup
      exact ih first (nodup.erase fd)

end Closing

end Custody

end TimeGANWebServer.Support
