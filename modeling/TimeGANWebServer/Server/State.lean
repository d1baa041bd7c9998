import TimeGANWebServer.Http.Process
import TimeGANWebServer.Http.Send
import TimeGANWebServer.Support.Custody
import TimeGANWebServer.Timer.Pooled

/-!
# The state of the server

What the main loop, the work queue and the workers share: the slots, the timers, the
queue, and the client descriptors with what epoll knows of them.  Each accepted
connection has a number of its own, which the program does not know; with it the state
says which connection a descriptor, a queued request or a part of a slot belongs to.
-/

namespace TimeGANWebServer.Server

open TimeGANWebServer.Http TimeGANWebServer.Support TimeGANWebServer.Timer

/-- A client descriptor, as an index of `users` and `users_timer`. -/
abbrev Fd := Nat

/-- The number of an accepted connection. -/
abbrev ConnId := Nat

/-- The address of a timer node. -/
abbrev Addr := Nat

/-- `MAX_FD`. -/
def maxFd : Int := 65536

/-- `TIMESLOT`. -/
def timeslot : Int := 5

/-- The members of a `WebServer` and of its `threadpool` that are set once. -/
structure Config where
  actorModel : Int
  threadNumber : Nat
  maxRequests : Nat
  connTrigMode : Int
  root : List UInt8

/-- `client_data`, with the connection it was filled in for. -/
structure ClientData where
  sockfd : Int
  timer : Option Addr
  conn : ConnId

/-- A request in the queue or with a worker: a pointer to a slot, and the connection it
was appended for. -/
abbrev Task := Support.Task Fd ConnId

/-- What `epoll_wait` reports for a client descriptor. -/
inductive Readiness where
  | hangup | readable | writable
  deriving DecidableEq, Repr

/-- Where bytes in a slot come from: from nowhere, from one connection, or from anything
else. -/
inductive Source where
  | nothing
  | one (conn : ConnId)
  | other
  deriving DecidableEq, Repr

/-- Bytes from two sources. -/
def Source.join : Source → Source → Source
  | .nothing, right => right
  | left, .nothing => left
  | .one left, .one right => if left = right then .one left else .other
  | _, _ => .other

/-- Where the parts of a slot come from: the received bytes, what a response was built
from, and the mapped file; and whether the response is a generated CSV file. -/
structure Origins where
  request : Source
  response : Source
  mapping : Source
  csv : Bool
  deriving DecidableEq, Repr

/-- The state of the server.  `armed` is what epoll reports for an open client descriptor
that is not disabled, and `pending` what it has reported and the main loop has not yet
handled.  `owner` is the connection accepted last on a descriptor. -/
structure State where
  users : Fd → HttpConn
  usersTimer : Fd → ClientData
  timers : Timers
  userCount : Int
  queue : List Task
  working : List Task
  openFds : List Fd
  armed : Fd → Option Interest
  pending : List (Fd × Readiness)
  owner : Fd → ConnId
  nextConn : ConnId
  origins : Fd → Origins

/-- What a step does beyond its change of the state: it uses the pointer to a timer for
a slot, which is or is not that slot's node in the wheel; it frees a node, which is or
is not in use; it closes a descriptor for a connection, and hits the one that has it; or
it sends bytes that come from some source. -/
inductive Effect where
  | useTimer (fd : Fd) (timer : Option Addr) (current : Bool)
  | freeTimer (timer : Addr) (allocated : Bool)
  | close (intended : ConnId) (hit : Option ConnId)
  | send (conn : Option ConnId) (source : Source)
  deriving DecidableEq, Repr

/-- Arrays with nothing in them yet. -/
def blankUsers : Fd → HttpConn := fun _ => HttpConn.blank

def blankTimers : Fd → ClientData := fun _ => { sockfd := 0, timer := none, conn := 0 }

def blankNodes : Addr → UtilTimer := fun _ => { rotation := 0, timeSlot := 0, userData := 0 }

namespace State

/-- The server before it accepts a connection.  What its arrays hold then is arbitrary. -/
def start (users : Fd → HttpConn) (usersTimer : Fd → ClientData) (nodes : Addr → UtilTimer) :
    State where
  users := users
  usersTimer := usersTimer
  timers := Timers.start nodes
  userCount := 0
  queue := []
  working := []
  openFds := []
  armed := fun _ => none
  pending := []
  owner := fun _ => 0
  nextConn := 0
  origins := fun _ => { request := .nothing, response := .nothing, mapping := .other, csv := false }

/-- The open descriptors with their connections, and where each of them is. -/
def custody (state : State) : Custody Fd ConnId where
  openFds := state.openFds
  owner := state.owner
  armed := fun fd => state.armed fd ≠ none
  reported := state.pending.map Prod.fst
  queued := state.queue
  working := state.working

/-- The connection that has a descriptor. -/
def holder (state : State) (fd : Fd) : Option ConnId :=
  if fd ∈ state.openFds then some (state.owner fd) else none

/-- The use of a pointer to a timer for a slot. -/
def useTimer (state : State) (fd : Fd) (timer : Option Addr) : Effect :=
  .useTimer fd timer (timer.any fun timer => state.timers.dataOf timer = some fd)

end State

/-- A state and what was done to get there. -/
structure Outcome where
  state : State
  effects : List Effect

/-- Go on from an outcome. -/
def Outcome.andThen (outcome : Outcome) (next : State → Outcome) : Outcome where
  state := (next outcome.state).state
  effects := outcome.effects ++ (next outcome.state).effects

end TimeGANWebServer.Server
