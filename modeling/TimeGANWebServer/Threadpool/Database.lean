import TimeGANWebServer.CGImysql.ConnectionPool
import TimeGANWebServer.Http.DoRequest
import TimeGANWebServer.Threadpool.Queue

/-!
# Workers with a database connection

What a worker does in `run` with a request it has taken: it gets a connection, stores it
in `request->mysql`, calls `process`, and releases the connection.  A registration reads
`request->mysql` once more inside `process`, for its `mysql_query`.  All workers share one
connection pool; a request's `mysql` is also set to null by `http_conn::init`, which the
main loop calls.
-/

namespace TimeGANWebServer.Threadpool

open TimeGANWebServer.CGImysql TimeGANWebServer.Support

/-- The members of a `threadpool` that are set once; `connPool` tells whether there is a
connection pool. -/
structure PoolConfig extends Config where
  connPool : Bool

/-- Where a worker is with its request: before `GetConnection`, in it before and behind the
wait for the semaphore, and before the result is stored; before `process`, in it before and
behind its `mysql_query`, and behind it; and before `ReleaseConnection`, in it before the post
to the semaphore, and behind it. -/
inductive Job (Request Conn : Type) where
  | idle
  | asking (request : Request)
  | waiting (request : Request)
  | granted (request : Request)
  | storing (request : Request) (con : Option Conn)
  | processing (request : Request)
  | serving (request : Request)
  | queried (request : Request)
  | processed (request : Request)
  | releasing (request : Request)
  | posting (request : Request)
  | clearing (request : Request)
  deriving DecidableEq, Repr

/-- A thread pool, the work its workers are at, the connection pool, and the member
`mysql` of the requests. -/
structure Site (Worker Caller Request Conn : Type) where
  pool : Pool Worker Caller Request
  jobs : Worker → Job Request Conn
  sql : ConnectionPool Conn
  mysql : Request → Option Conn

/-- What a step does that others can see: it is a step of the queue, or `process` is called
for a request with a value of its `mysql`, or `mysql_query` with that value, or `front` of an
empty list. -/
inductive SiteEvent (Worker Caller Request Conn : Type) where
  | queue (event : Event Worker Caller Request)
  | process (worker : Worker) (request : Request) (mysql : Option Conn)
  | query (worker : Worker) (request : Request) (mysql : Option Conn)
  | frontOfEmpty (worker : Worker)
  deriving DecidableEq, Repr

/-- A step of the queue, of a worker with a request, or a call of `init` for a request. -/
inductive SiteLabel (Worker Caller Request : Type) where
  | queue (label : Label Worker Caller Request)
  | begin (worker : Worker)
  | sizeTest (worker : Worker)
  | wait (worker : Worker)
  | take (worker : Worker)
  | store (worker : Worker)
  | process (worker : Worker)
  | query (worker : Worker)
  | leave (worker : Worker)
  | testMysql (worker : Worker)
  | release (worker : Worker)
  | post (worker : Worker)
  | clear (worker : Worker)
  | init (request : Request)
  deriving DecidableEq, Repr

/-- The site after a step, and what the step did, if the step is possible. -/
abbrev SiteNext (Worker Caller Request Conn : Type) :=
  Option (Site Worker Caller Request Conn × List (SiteEvent Worker Caller Request Conn))

variable {Worker Caller Request Conn : Type} [DecidableEq Worker] [Fintype Worker]
  [DecidableEq Caller] [DecidableEq Request]

/-- A worker is going to use the connection of a request: it is about to call `process`, or in
it and can still come to `mysql_query`. -/
def Job.Needs (job : Job Request Conn) (request : Request) : Prop :=
  job = .processing request ∨ job = .serving request

instance [DecidableEq Conn] (job : Job Request Conn) (request : Request) :
    Decidable (job.Needs request) :=
  inferInstanceAs (Decidable (_ ∨ _))

/-- A null handle is passed to `process` or to `mysql_query`. -/
def SiteEvent.Null : SiteEvent Worker Caller Request Conn → Prop
  | .process _ _ con | .query _ _ con => con = none
  | .queue _ | .frontOfEmpty _ => False

namespace Site

/-- A site whose workers have been started. -/
def start (requestState : Request → Int) (mysql : Request → Option Conn)
    (sql : ConnectionPool Conn) : Site Worker Caller Request Conn where
  pool := Pool.start requestState
  jobs := fun _ => .idle
  sql := sql
  mysql := mysql

/-- Set where a worker is. -/
def setJob (site : Site Worker Caller Request Conn) (worker : Worker) (job : Job Request Conn) :
    Site Worker Caller Request Conn :=
  { site with jobs := Function.update site.jobs worker job }

/-- Set `request->mysql`. -/
def setMysql (site : Site Worker Caller Request Conn) (request : Request) (con : Option Conn) :
    Site Worker Caller Request Conn :=
  { site with mysql := Function.update site.mysql request con }

/-- The worker is done with its request. -/
def finish (site : Site Worker Caller Request Conn) (worker : Worker)
    (events : List (SiteEvent Worker Caller Request Conn)) : SiteNext Worker Caller Request Conn :=
  (site.pool.finish worker).map fun next =>
    ({ site with pool := next.1 }.setJob worker .idle, events)

/-- A step of the queue; a worker with a request takes none. -/
def queue (config : PoolConfig) (site : Site Worker Caller Request Conn) :
    Label Worker Caller Request → SiteNext Worker Caller Request Conn
  | .finish _ => none
  | label => (site.pool.step config.toConfig label).map fun next =>
      ({ site with pool := next.1 }, next.2.map .queue)

/-- The tests behind the locked section of `run`. -/
def begin (config : PoolConfig) (site : Site Worker Caller Request Conn) (worker : Worker) :
    SiteNext Worker Caller Request Conn :=
  match site.pool.workers worker, site.jobs worker with
  | .working none, .idle => site.finish worker []
  | .working (some request), .idle =>
      if site.pool.Processes config.toConfig request then
        if config.connPool = true then
          some (site.setJob worker (.asking request), [])
        else
          some (site.setJob worker (.processing request), [])
      else
        site.finish worker []
  | _, _ => none

/-- The test at the start of `GetConnection`. -/
def sizeTest (site : Site Worker Caller Request Conn) (worker : Worker) :
    SiteNext Worker Caller Request Conn :=
  match site.jobs worker with
  | .asking request =>
      if site.sql.connList.length = 0 then
        some (site.setJob worker (.storing request none), [])
      else
        some (site.setJob worker (.waiting request), [])
  | _ => none

/-- `reserve.wait()`. -/
def wait (site : Site Worker Caller Request Conn) (worker : Worker) :
    SiteNext Worker Caller Request Conn :=
  match site.jobs worker with
  | .waiting request =>
      if 0 < site.sql.reserve then
        some ({ site with sql := { site.sql with reserve := site.sql.reserve - 1 } }.setJob worker
          (.granted request), [])
      else
        none
  | _ => none

/-- The rest of `GetConnection`. -/
def take (site : Site Worker Caller Request Conn) (worker : Worker) :
    SiteNext Worker Caller Request Conn :=
  match site.jobs worker with
  | .granted request =>
      match site.sql.takeFront with
      | none => some (site.setJob worker (.storing request none), [.frontOfEmpty worker])
      | some (con, sql) =>
          some ({ site with sql := sql }.setJob worker (.storing request (some con)), [])
  | _ => none

/-- `request->mysql = ...` with the result of `GetConnection`. -/
def store (site : Site Worker Caller Request Conn) (worker : Worker) :
    SiteNext Worker Caller Request Conn :=
  match site.jobs worker with
  | .storing request con =>
      some ((site.setMysql request con).setJob worker (.processing request), [])
  | _ => none

/-- `request->process()` is called. -/
def process (site : Site Worker Caller Request Conn) (worker : Worker) :
    SiteNext Worker Caller Request Conn :=
  match site.jobs worker with
  | .processing request =>
      some (site.setJob worker (.serving request),
        [.process worker request (site.mysql request)])
  | _ => none

/-- `mysql_query(mysql, sql_insert)`, in the registration branch of `do_request`. -/
def query (site : Site Worker Caller Request Conn) (worker : Worker) :
    SiteNext Worker Caller Request Conn :=
  match site.jobs worker with
  | .serving request =>
      some (site.setJob worker (.queried request),
        [.query worker request (site.mysql request)])
  | _ => none

/-- `process` returns, with or without a query. -/
def leave (site : Site Worker Caller Request Conn) (worker : Worker) :
    SiteNext Worker Caller Request Conn :=
  match site.jobs worker with
  | .serving request | .queried request => some (site.setJob worker (.processed request), [])
  | _ => none

/-- The test of `m_connPool` and `request->mysql` behind `process`. -/
def testMysql (config : PoolConfig) (site : Site Worker Caller Request Conn) (worker : Worker) :
    SiteNext Worker Caller Request Conn :=
  match site.jobs worker with
  | .processed request =>
      if config.connPool = true ∧ (site.mysql request).isSome then
        some (site.setJob worker (.releasing request), [])
      else
        site.finish worker []
  | _ => none

/-- `ReleaseConnection(request->mysql)`, up to the end of its locked section. -/
def release (site : Site Worker Caller Request Conn) (worker : Worker) :
    SiteNext Worker Caller Request Conn :=
  match site.jobs worker with
  | .releasing request =>
      match site.mysql request with
      | none => some (site.setJob worker (.clearing request), [])
      | some con =>
          some ({ site with sql := site.sql.pushBack con }.setJob worker (.posting request), [])
  | _ => none

/-- `reserve.post()`. -/
def post (site : Site Worker Caller Request Conn) (worker : Worker) :
    SiteNext Worker Caller Request Conn :=
  match site.jobs worker with
  | .posting request =>
      some ({ site with sql := { site.sql with reserve := site.sql.reserve + 1 } }.setJob worker
        (.clearing request), [])
  | _ => none

/-- `request->mysql = nullptr`. -/
def clear (site : Site Worker Caller Request Conn) (worker : Worker) :
    SiteNext Worker Caller Request Conn :=
  match site.jobs worker with
  | .clearing request => (site.setMysql request none).finish worker []
  | _ => none

/-- One step of the site. -/
def step (config : PoolConfig) (site : Site Worker Caller Request Conn) :
    SiteLabel Worker Caller Request → SiteNext Worker Caller Request Conn
  | .queue label => site.queue config label
  | .begin worker => site.begin config worker
  | .sizeTest worker => site.sizeTest worker
  | .wait worker => site.wait worker
  | .take worker => site.take worker
  | .store worker => site.store worker
  | .process worker => site.process worker
  | .query worker => site.query worker
  | .leave worker => site.leave worker
  | .testMysql worker => site.testMysql config worker
  | .release worker => site.release worker
  | .post worker => site.post worker
  | .clear worker => site.clear worker
  | .init request => some (site.setMysql request none, [])

/-! ## A connection for every request -/

/-- No worker is going to use the connection of a request. -/
def NotDue (site : Site Worker Caller Request Conn) (request : Request) : Prop :=
  ∀ worker, ¬(site.jobs worker).Needs request

instance [DecidableEq Conn] (site : Site Worker Caller Request Conn) (request : Request) :
    Decidable (site.NotDue request) :=
  inferInstanceAs (Decidable (∀ _, _))

/-- The size test of `GetConnection` finds a connection in the list, and a request's
`mysql` is set to null only while no worker is going to use it. -/
def Steady (site : Site Worker Caller Request Conn) : SiteLabel Worker Caller Request → Prop
  | .sizeTest _ => site.sql.connList ≠ []
  | .clear worker =>
      match site.jobs worker with
      | .clearing request => site.NotDue request
      | _ => True
  | .init request => site.NotDue request
  | _ => True

instance [DecidableEq Conn] (site : Site Worker Caller Request Conn) :
    (label : SiteLabel Worker Caller Request) → Decidable (site.Steady label)
  | .sizeTest _ => inferInstanceAs (Decidable (_ ≠ _))
  | .clear worker =>
      match clearing : site.jobs worker with
      | .clearing request => decidable_of_iff (site.NotDue request) (by simp [Steady, clearing])
      | .idle | .asking _ | .waiting _ | .granted _ | .storing _ _ | .processing _ | .serving _
      | .queried _ | .processed _ | .releasing _ | .posting _ =>
          .isTrue (by simp [Steady, clearing])
  | .init request => inferInstanceAs (Decidable (site.NotDue request))
  | .queue _ | .begin _ | .wait _ | .take _ | .store _ | .process _ | .query _ | .leave _
  | .testMysql _ | .release _ | .post _ => .isTrue trivial

/-- The workers between the semaphore and the list. -/
def jobPassage : Passage (Job Request Conn) where
  Granted
    | .granted _ => True
    | _ => False
  Posting
    | .posting _ => True
    | _ => False

/-- Every worker that is going to use a connection has stored one. -/
structure Supplied (site : Site Worker Caller Request Conn) : Prop where
  balanced : Balanced jobPassage site.jobs site.sql.reserve site.sql.connList.length
  storing : ∀ worker request, site.jobs worker ≠ .storing request none
  needs : ∀ worker request, (site.jobs worker).Needs request → site.mysql request ≠ none

/-- A step leaves every worker supplied and passes no null handle. -/
def Keeps (next : Site Worker Caller Request Conn)
    (events : List (SiteEvent Worker Caller Request Conn)) : Prop :=
  next.Supplied ∧ ∀ event ∈ events, ¬event.Null

namespace Supplied

variable {config : PoolConfig} {site next : Site Worker Caller Request Conn} {worker : Worker}
  {job : Job Request Conn} {events : List (SiteEvent Worker Caller Request Conn)}

section Jobs

omit [Fintype Worker] [DecidableEq Caller] [DecidableEq Request]

/-- A worker goes on with its request. -/
theorem setJob (supplied : site.Supplied) {sql : ConnectionPool Conn}
    (balanced : Balanced jobPassage (Function.update site.jobs worker job) sql.reserve
      sql.connList.length)
    (storing : ∀ request, job ≠ .storing request none)
    (needs : ∀ request, job.Needs request → site.mysql request ≠ none) :
    ({ site with sql := sql }.setJob worker job).Supplied where
  balanced := balanced
  storing other request := by
    by_cases equal : other = worker
    · subst equal
      simp only [Site.setJob, Function.update_self]
      exact storing request
    · simp only [Site.setJob, Function.update_of_ne equal]
      exact supplied.storing other request
  needs other request := by
    by_cases equal : other = worker
    · subst equal
      simp only [Site.setJob, Function.update_self]
      exact needs request
    · simp only [Site.setJob, Function.update_of_ne equal]
      exact supplied.needs other request

/-- A worker goes on without a connection in hand, and passes none. -/
theorem goesOn (supplied : site.Supplied) {sql : ConnectionPool Conn}
    (balanced : Balanced jobPassage (Function.update site.jobs worker job) sql.reserve
      sql.connList.length)
    (storing : ∀ request, job ≠ .storing request none) (idle : ∀ request, ¬job.Needs request) :
    Keeps ({ site with sql := sql }.setJob worker job) [] :=
  ⟨supplied.setJob balanced storing fun request needs => absurd needs (idle request), nofun⟩

/-- A worker is done with its request. -/
theorem finish (supplied : site.Supplied)
    (balanced : Balanced jobPassage (Function.update site.jobs worker .idle) site.sql.reserve
      site.sql.connList.length)
    (finished : site.finish worker [] = some (next, events)) : Keeps next events := by
  obtain ⟨⟨pool, _⟩, _, same⟩ := Option.map_eq_some_iff.mp finished
  cases same
  have kept : ({ site with pool := pool } : Site Worker Caller Request Conn).Supplied :=
    ⟨supplied.balanced, supplied.storing, supplied.needs⟩
  exact kept.goesOn balanced nofun nofun

/-- The balance where the worker is not at the semaphore before or behind the step. -/
theorem stay (supplied : site.Supplied) {before : Job Request Conn}
    (isBefore : site.jobs worker = before) (notGranted : ¬jobPassage.Granted before)
    (notPosting : ¬jobPassage.Posting before) (notGranted' : ¬jobPassage.Granted job)
    (notPosting' : ¬jobPassage.Posting job) :
    Balanced jobPassage (Function.update site.jobs worker job) site.sql.reserve
      site.sql.connList.length := by
  subst isBefore
  exact supplied.balanced.stay (iff_of_false notGranted' notGranted)
    (iff_of_false notPosting' notPosting)

theorem of_begin (supplied : site.Supplied) (pooled : config.connPool = true)
    (stepped : site.begin config worker = some (next, events)) : Keeps next events := by
  simp only [Site.begin, pooled, if_true] at stepped
  split at stepped
  case _ isIdle => exact supplied.finish (supplied.stay isIdle id id id id) stepped
  case _ request _ isIdle =>
      split at stepped
      · cases stepped
        exact supplied.goesOn (supplied.stay isIdle id id id id) nofun nofun
      · exact supplied.finish (supplied.stay isIdle id id id id) stepped
  case _ => contradiction

/-- The size test finds a connection. -/
theorem of_sizeTest (supplied : site.Supplied) (steady : site.sql.connList ≠ [])
    (stepped : site.sizeTest worker = some (next, events)) : Keeps next events := by
  simp only [Site.sizeTest] at stepped
  split at stepped
  case _ request asking =>
      split at stepped
      case isTrue empty => exact absurd (List.eq_nil_of_length_eq_zero empty) steady
      case isFalse =>
          cases stepped
          exact supplied.goesOn (supplied.stay asking id id id id) nofun nofun
  case _ => contradiction

theorem of_wait (supplied : site.Supplied) (stepped : site.wait worker = some (next, events)) :
    Keeps next events := by
  simp only [Site.wait] at stepped
  split at stepped
  case _ request waiting =>
      split at stepped
      case isTrue permit =>
          cases stepped
          have balanced : Balanced jobPassage (Function.update site.jobs worker (.granted request))
              (site.sql.reserve - 1) site.sql.connList.length :=
            supplied.balanced.wait permit (by rw [waiting]; exact id) trivial
              (by rw [waiting]; exact Iff.rfl)
          exact supplied.goesOn balanced nofun nofun
      case isFalse => contradiction
  case _ => contradiction

/-- A worker that has passed the semaphore finds a connection. -/
theorem of_take (supplied : site.Supplied) (stepped : site.take worker = some (next, events)) :
    Keeps next events := by
  simp only [Site.take, ConnectionPool.takeFront] at stepped
  split at stepped
  case _ request granted =>
      have isGranted : jobPassage.Granted (site.jobs worker) := by
        rw [granted]
        trivial
      cases first : site.sql.connList with
      | nil =>
          have pos := supplied.balanced.available_pos isGranted
          rw [first] at pos
          exact absurd pos (Nat.lt_irrefl 0)
      | cons con rest =>
          simp only [first] at stepped
          cases stepped
          have balanced := supplied.balanced
          rw [first, List.length_cons] at balanced
          have balanced : Balanced jobPassage
              (Function.update site.jobs worker (.storing request (some con)))
              site.sql.reserve rest.length :=
            balanced.take isGranted id (by rw [granted]; exact Iff.rfl)
          have held : ∀ other, Job.storing request (some con) ≠ .storing other none := by
            rintro other ⟨⟩
          have idle : ∀ other, ¬(Job.storing request (some con)).Needs other := by
            rintro other (⟨⟨⟩⟩ | ⟨⟨⟩⟩)
          exact supplied.goesOn balanced held idle
  case _ => contradiction

/-- `process` is called with the connection of the request. -/
theorem of_process (supplied : site.Supplied)
    (stepped : site.process worker = some (next, events)) : Keeps next events := by
  simp only [Site.process] at stepped
  split at stepped
  case _ request processing =>
      cases stepped
      have stored := supplied.needs worker request (by rw [processing]; exact .inl rfl)
      refine ⟨supplied.setJob (supplied.stay processing id id id id) nofun ?_, ?_⟩
      · rintro due (⟨⟨⟩⟩ | ⟨⟨⟩⟩)
        exact stored
      · rintro event member null
        rw [List.mem_singleton.mp member] at null
        exact stored null
  case _ => contradiction

/-- `mysql_query` is called with it as well. -/
theorem of_query (supplied : site.Supplied)
    (stepped : site.query worker = some (next, events)) : Keeps next events := by
  simp only [Site.query] at stepped
  split at stepped
  case _ request serving =>
      cases stepped
      have stored := supplied.needs worker request (by rw [serving]; exact .inr rfl)
      have kept : Keeps (site.setJob worker (.queried request)) [] :=
        supplied.goesOn (supplied.stay serving id id id id) nofun nofun
      refine ⟨kept.1, fun event member null => ?_⟩
      rw [List.mem_singleton.mp member] at null
      exact stored null
  case _ => contradiction

theorem of_leave (supplied : site.Supplied) (stepped : site.leave worker = some (next, events)) :
    Keeps next events := by
  simp only [Site.leave] at stepped
  split at stepped
  case _ request serving =>
      cases stepped
      exact supplied.goesOn (supplied.stay serving id id id id) nofun nofun
  case _ request queried =>
      cases stepped
      exact supplied.goesOn (supplied.stay queried id id id id) nofun nofun
  case _ => contradiction

theorem of_testMysql (supplied : site.Supplied)
    (stepped : site.testMysql config worker = some (next, events)) : Keeps next events := by
  simp only [Site.testMysql] at stepped
  split at stepped
  case _ request processed =>
      split at stepped
      · cases stepped
        exact supplied.goesOn (supplied.stay processed id id id id) nofun nofun
      · exact supplied.finish (supplied.stay processed id id id id) stepped
  case _ => contradiction

theorem of_release (supplied : site.Supplied)
    (stepped : site.release worker = some (next, events)) : Keeps next events := by
  simp only [Site.release] at stepped
  split at stepped
  case _ request releasing =>
      split at stepped
      · cases stepped
        exact supplied.goesOn (supplied.stay releasing id id id id) nofun nofun
      case _ con holds =>
          cases stepped
          have length : (site.sql.pushBack con).connList.length =
              site.sql.connList.length + 1 := List.length_append
          have balanced : Balanced jobPassage
              (Function.update site.jobs worker (.posting request)) site.sql.reserve
              (site.sql.connList.length + 1) :=
            supplied.balanced.put (by rw [releasing]; exact id) trivial
              (by rw [releasing]; exact Iff.rfl)
          rw [← length] at balanced
          exact supplied.goesOn balanced nofun nofun
  case _ => contradiction

theorem of_post (supplied : site.Supplied) (stepped : site.post worker = some (next, events)) :
    Keeps next events := by
  simp only [Site.post] at stepped
  split at stepped
  case _ request posting =>
      cases stepped
      have balanced : Balanced jobPassage (Function.update site.jobs worker (.clearing request))
          (site.sql.reserve + 1) site.sql.connList.length :=
        supplied.balanced.post (by rw [posting]; trivial) id (by rw [posting]; exact Iff.rfl)
      exact supplied.goesOn balanced nofun nofun
  case _ => contradiction

end Jobs

section Requests

omit [Fintype Worker] [DecidableEq Caller]

omit [DecidableEq Worker] in
/-- A request whose `mysql` is set to null is not due. -/
theorem setMysql_none (supplied : site.Supplied) {request : Request}
    (notDue : site.NotDue request) : (site.setMysql request none).Supplied where
  balanced := supplied.balanced
  storing := supplied.storing
  needs other due isDue := by
    have different : due ≠ request := by
      rintro rfl
      exact notDue other isDue
    simp only [Site.setMysql, Function.update_of_ne different]
    exact supplied.needs other due isDue

omit [DecidableEq Worker] in
/-- A request gets a connection. -/
theorem setMysql_some (supplied : site.Supplied) (request : Request) (con : Conn) :
    (site.setMysql request (some con)).Supplied where
  balanced := supplied.balanced
  storing := supplied.storing
  needs other due isDue := by
    simp only [Site.setMysql]
    by_cases equal : due = request
    · subst equal
      rw [Function.update_self]
      nofun
    · rw [Function.update_of_ne equal]
      exact supplied.needs other due isDue

theorem of_store (supplied : site.Supplied) (stepped : site.store worker = some (next, events)) :
    Keeps next events := by
  simp only [Site.store] at stepped
  split at stepped
  case _ request con storing =>
      cases stepped
      cases con with
      | none => exact absurd storing (supplied.storing worker request)
      | some con =>
          refine ⟨(supplied.setMysql_some request con).setJob
            (supplied.stay storing id id id id) nofun ?_, nofun⟩
          rintro due (⟨⟨⟩⟩ | ⟨⟨⟩⟩)
          simp [setMysql]
  case _ => contradiction

/-- A worker sets `mysql` to null while nobody is going to use it. -/
theorem of_clear (supplied : site.Supplied) (steady : site.Steady (.clear worker))
    (stepped : site.clear worker = some (next, events)) : Keeps next events := by
  simp only [Site.clear] at stepped
  split at stepped
  case _ request clearing =>
      simp only [Steady, clearing] at steady
      exact (supplied.setMysql_none steady).finish (supplied.stay clearing id id id id) stepped
  case _ => contradiction

end Requests

/-- A step of the queue does not touch the requests. -/
theorem of_queue {label : Label Worker Caller Request} (supplied : site.Supplied)
    (stepped : site.queue config label = some (next, events)) : Keeps next events := by
  have kept : ∀ nextPool queueEvents, next = { site with pool := nextPool } →
      events = List.map SiteEvent.queue queueEvents → Keeps next events := by
    rintro nextPool queueEvents rfl rfl
    refine ⟨⟨supplied.balanced, supplied.storing, supplied.needs⟩, fun event member null => ?_⟩
    obtain ⟨_, _, rfl⟩ := List.mem_map.mp member
    exact null
  cases label with
  | finish => contradiction
  | call | push | notifyOne | lock | test | block | wake | dequeue | setStop | notifyAll | join =>
      obtain ⟨⟨nextPool, queueEvents⟩, _, same⟩ := Option.map_eq_some_iff.mp stepped
      exact kept nextPool queueEvents (Prod.mk.inj same).1.symm (Prod.mk.inj same).2.symm

end Supplied

/-- In a steady step every worker that is going to use a connection keeps it, and no null handle
is passed. -/
theorem Supplied.step {config : PoolConfig} {site next : Site Worker Caller Request Conn}
    {label : SiteLabel Worker Caller Request} {events : List (SiteEvent Worker Caller Request Conn)}
    (supplied : site.Supplied) (pooled : config.connPool = true) (steady : site.Steady label)
    (stepped : site.step config label = some (next, events)) : Keeps next events := by
  cases label with
  | queue label => exact supplied.of_queue stepped
  | begin worker => exact supplied.of_begin pooled stepped
  | sizeTest worker => exact supplied.of_sizeTest steady stepped
  | wait worker => exact supplied.of_wait stepped
  | take worker => exact supplied.of_take stepped
  | store worker => exact supplied.of_store stepped
  | process worker => exact supplied.of_process stepped
  | query worker => exact supplied.of_query stepped
  | leave worker => exact supplied.of_leave stepped
  | testMysql worker => exact supplied.of_testMysql stepped
  | release worker => exact supplied.of_release stepped
  | post worker => exact supplied.of_post stepped
  | clear worker => exact supplied.of_clear steady stepped
  | init request =>
      cases stepped
      exact ⟨supplied.setMysql_none steady, nofun⟩

omit [DecidableEq Worker] [Fintype Worker] [DecidableEq Caller] [DecidableEq Request] in
/-- No worker has a request yet. -/
theorem Supplied.start {conns : List Conn} {sql : ConnectionPool Conn}
    (made : ConnectionPool.new.init (conns.map some) = some sql) (requestState : Request → Int)
    (mysql : Request → Option Conn) :
    (start requestState mysql sql : Site Worker Caller Request Conn).Supplied := by
  rw [ConnectionPool.init_new, Option.some.injEq] at made
  subst made
  exact ⟨.start (fun _ => id) (fun _ => id) _, nofun, nofun⟩

end Site

/-- `setUrl` fails only where the page does not fit. -/
theorem setUrl_ne_nullPointer {conn : Http.HttpConn} {url : Int} {page : List UInt8} :
    conn.setUrl url page ≠ .error .nullPointer := by
  simp only [Http.HttpConn.setUrl]
  split <;> nofun

/-- With a connection, registration does not pass a null handle to `mysql_query`. -/
theorem register_ne_nullPointer {conn : Http.HttpConn} (supplied : conn.mysql ≠ none)
    (env : Http.Env) (url : Int) (name password : List UInt8) :
    conn.register env url name password ≠ .error .nullPointer := by
  intro failed
  simp only [Http.HttpConn.register, if_neg supplied] at failed
  split at failed
  · cases failed
  · split at failed
    · split at failed
      case _ set =>
          cases failed
          exact setUrl_ne_nullPointer set
      case _ => cases failed
    · split at failed
      case _ set =>
          cases failed
          exact setUrl_ne_nullPointer set
      case _ => cases failed

/-- In every run in which the size test of `GetConnection` finds a connection, and no request
loses its connection before its last use, each call of `process` has one, and so has each
`mysql_query` in it; so registration passes no null handle to `mysql_query`. -/
theorem process_has_mysql {config : PoolConfig} {conns : List Nat} {sql : ConnectionPool Nat}
    {requestState : Request → Int} {mysql : Request → Option Nat}
    {labels : List (SiteLabel Worker Caller Request)} {site : Site Worker Caller Request Nat}
    {log : List (SiteEvent Worker Caller Request Nat)} (pooled : config.connPool = true)
    (made : ConnectionPool.new.init (conns.map some) = some sql)
    (steady : RunMeets (Site.step config) Site.Steady (Site.start requestState mysql sql) labels)
    (ran : run (Site.step config) (Site.start requestState mysql sql) labels = some (site, log)) :
    ∀ worker request con, .process worker request con ∈ log ∨ .query worker request con ∈ log →
      con ≠ none ∧ ∀ (conn : Http.HttpConn) (env : Http.Env) url name password,
        conn.mysql = con → conn.register env url name password ≠ .error .nullPointer := by
  have kept := run_invariant (fun (site : Site Worker Caller Request Nat) log => site.Keeps log)
    (fun state log label next events holds steady stepped => by
      obtain ⟨supplied, quiet⟩ := holds.1.step pooled steady stepped
      exact ⟨supplied, List.forall_mem_append.mpr ⟨holds.2, quiet⟩⟩)
    ⟨Site.Supplied.start made requestState mysql, fun _ member => absurd member List.not_mem_nil⟩
    steady ran
  intro worker request con passed
  have some_ : con ≠ none := by
    rintro rfl
    rcases passed with called | queried
    · exact kept.2 _ called rfl
    · exact kept.2 _ queried rfl
  exact ⟨some_, fun conn env url name password same =>
    register_ne_nullPointer (same ▸ some_) env url name password⟩

/-- The steps of the queue by which a caller has a worker take a request. -/
def handOver (caller worker : Fin 2) (request : Fin 2) :
    List (SiteLabel (Fin 2) (Fin 2) (Fin 2)) :=
  [.queue (.call caller (.append request 0)), .queue (.push caller),
    .queue (.notifyOne caller none), .queue (.lock worker), .queue (.test worker),
    .queue (.dequeue worker), .begin worker]

/-- A worker gets a connection, and the request it processes is a registration. -/
def oneConnection : List (SiteLabel (Fin 2) (Fin 2) (Fin 2)) :=
  handOver 0 0 0 ++ [.sizeTest 0, .wait 0, .take 0, .store 0, .process 0, .query 0, .leave 0]

/-- A worker that finds a connection in the list has one in `process`, and for the query. -/
theorem process_has_mysql_one :
    ∃ sql, ConnectionPool.new.init [some 5] = some sql ∧ ∃ site log,
      run (Site.step { actorModel := 1, maxRequests := 10, connPool := true })
        (Site.start (fun _ => 0) (fun _ => none) sql) oneConnection = some (site, log) ∧
      ∃ con, (.process 0 0 con : SiteEvent (Fin 2) (Fin 2) (Fin 2) Nat) ∈ log ∧
        (.query 0 0 con : SiteEvent (Fin 2) (Fin 2) (Fin 2) Nat) ∈ log ∧ con ≠ none := by
  have made := ConnectionPool.init_new [5]
  refine ⟨_, made, ?_⟩
  have facts : (run (Site.step { actorModel := 1, maxRequests := 10, connPool := true })
      (Site.start (fun _ => 0) (fun _ => none)
        { maxConn := 1, curConn := 0, freeConn := 1, connList := [5], reserve := 1 } :
        Site (Fin 2) (Fin 2) (Fin 2) Nat) oneConnection).map
      (fun last => decide (.process 0 0 (some 5) ∈ last.2 ∧ .query 0 0 (some 5) ∈ last.2)) =
        some true := by
    decide +kernel
  obtain ⟨⟨site, log⟩, ran, members⟩ := Option.map_eq_some_iff.mp facts
  obtain ⟨called, queried⟩ := of_decide_eq_true members
  exact ⟨site, log, ran, _, called, queried,
    (process_has_mysql rfl made (by decide +kernel) ran 0 0 _ (.inr queried)).1⟩

/-- While one worker has the only connection, another one finds none. -/
def twoWorkers : List (SiteLabel (Fin 2) (Fin 2) (Fin 2)) :=
  handOver 0 0 0 ++ [.sizeTest 0, .wait 0, .take 0] ++ handOver 1 1 1 ++
    [.sizeTest 1, .store 1, .process 1, .query 1]

/-- With one connection for two workers, `process` and `mysql_query` can be called without one. -/
theorem not_process_has_mysql :
    ∃ sql, ConnectionPool.new.init [some 5] = some sql ∧ ∃ site log,
      run (Site.step { actorModel := 1, maxRequests := 10, connPool := true })
        (Site.start (fun _ => 0) (fun _ => none) sql) twoWorkers = some (site, log) ∧
      (.process 1 1 none : SiteEvent (Fin 2) (Fin 2) (Fin 2) Nat) ∈ log ∧
        (.query 1 1 none : SiteEvent (Fin 2) (Fin 2) (Fin 2) Nat) ∈ log := by
  refine ⟨_, rfl, ?_⟩
  have facts : (run (Site.step { actorModel := 1, maxRequests := 10, connPool := true })
      (Site.start (fun _ => 0) (fun _ => none)
        { maxConn := 1, curConn := 0, freeConn := 1, connList := [5], reserve := 1 } :
        Site (Fin 2) (Fin 2) (Fin 2) Nat) twoWorkers).map
      (fun last => decide (.process 1 1 none ∈ last.2 ∧ .query 1 1 none ∈ last.2)) =
        some true := by
    decide +kernel
  obtain ⟨⟨site, log⟩, ran, member⟩ := Option.map_eq_some_iff.mp facts
  exact ⟨site, log, ran, of_decide_eq_true member⟩

end TimeGANWebServer.Threadpool
