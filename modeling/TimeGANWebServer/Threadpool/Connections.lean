import TimeGANWebServer.Threadpool.Database

/-!
# Connections in `request->mysql`

A worker keeps its connection nowhere but in `request->mysql`, from the assignment in `run` until
`ReleaseConnection`.  `process` arms the descriptor again before the worker has released the
connection, so the main loop can call `init` for the request, or another worker can take it, in
between; either of them overwrites the pointer.
-/

namespace TimeGANWebServer.Threadpool

open TimeGANWebServer.CGImysql TimeGANWebServer.Support

variable {Worker Caller Request Conn : Type} [DecidableEq Worker] [Fintype Worker]
  [DecidableEq Caller] [DecidableEq Request]

/-- A worker has stored its connection in a request, and has not released it. -/
def Job.Uses (job : Job Request Conn) (request : Request) : Prop :=
  job = .processing request ∨ job = .serving request ∨ job = .queried request ∨
    job = .processed request ∨ job = .releasing request

instance [DecidableEq Conn] (job : Job Request Conn) (request : Request) :
    Decidable (job.Uses request) :=
  inferInstanceAs (Decidable (_ ∨ _ ∨ _ ∨ _ ∨ _))

/-- The connection a worker can still give back: the one it has just got, or the one it finds in
its request. -/
def Job.held (mysql : Request → Option Conn) : Job Request Conn → List Conn
  | .storing _ con => con.toList
  | .processing request | .serving request | .queried request | .processed request
  | .releasing request => (mysql request).toList
  | .idle | .asking _ | .waiting _ | .granted _ | .posting _ | .clearing _ => []

omit [DecidableEq Request] in
theorem Job.held_of_uses {mysql : Request → Option Conn} {job : Job Request Conn}
    {request : Request} (uses : job.Uses request) : job.held mysql = (mysql request).toList := by
  rcases uses with rfl | rfl | rfl | rfl | rfl <;> rfl

/-- What is overwritten in a request is what those workers hold that use it. -/
theorem Job.held_update {mysql : Request → Option Conn} {request : Request} {con : Option Conn}
    (job : Job Request Conn) :
    (job.Uses request → job.held (Function.update mysql request con) = con.toList) ∧
      (¬job.Uses request → job.held (Function.update mysql request con) = job.held mysql) := by
  refine ⟨fun uses => ?_, fun unused => ?_⟩
  · rw [Job.held_of_uses uses, Function.update_self]
  · cases job with
    | processing other | serving other | queried other | processed other | releasing other =>
        have differ : other ≠ request := by
          rintro rfl
          simp [Job.Uses] at unused
        simp only [Job.held, Function.update_of_ne differ]
    | _ => rfl

namespace Site

/-- The connections a worker can still give back. -/
def held (site : Site Worker Caller Request Conn) (worker : Worker) : List Conn :=
  (site.jobs worker).held site.mysql

/-- The request whose `mysql` a step overwrites, and with what. -/
def overwrites (site : Site Worker Caller Request Conn) :
    SiteLabel Worker Caller Request → Option (Request × Option Conn)
  | .store worker =>
      match site.jobs worker with
      | .storing request con => some (request, con)
      | _ => none
  | .clear worker =>
      match site.jobs worker with
      | .clearing request => some (request, none)
      | _ => none
  | .init request => some (request, none)
  | _ => none

/-- A step overwrites `mysql` only for a request that no worker uses, or a null pointer with a null
pointer. -/
def Undisturbed (site : Site Worker Caller Request Conn) (label : SiteLabel Worker Caller Request) :
    Prop :=
  ∀ overwritten ∈ site.overwrites label,
    (∀ worker, ¬(site.jobs worker).Uses overwritten.1) ∨
      site.mysql overwritten.1 = none ∧ overwritten.2 = none

instance [DecidableEq Conn] (site : Site Worker Caller Request Conn)
    (label : SiteLabel Worker Caller Request) : Decidable (site.Undisturbed label) :=
  match overwritten : site.overwrites label with
  | none => .isTrue (by simp [Undisturbed, overwritten])
  | some (request, con) =>
      decidable_of_iff ((∀ worker, ¬(site.jobs worker).Uses request) ∨
        site.mysql request = none ∧ con = none) (by simp [Undisturbed, overwritten])

/-- What a step does to the connections: nothing, a worker takes the first one of the list, a worker
gives one back, or `mysql` of a request is overwritten. -/
inductive Turn (site : Site Worker Caller Request Conn) (label : SiteLabel Worker Caller Request)
    (next : Site Worker Caller Request Conn) : Prop where
  | same (kept : site.overwrites label = none) (list : next.sql.connList = site.sql.connList)
      (held : next.held = site.held)
  | taken (worker : Worker) (con : Conn) (kept : site.overwrites label = none)
      (list : site.sql.connList = con :: next.sql.connList) (nothing : site.held worker = [])
      (held : next.held = Function.update site.held worker [con])
  | released (worker : Worker) (con : Conn) (kept : site.overwrites label = none)
      (list : next.sql.connList = site.sql.connList ++ [con]) (had : site.held worker = [con])
      (held : next.held = Function.update site.held worker [])
  | overwritten (request : Request) (con : Option Conn)
      (overwrites : site.overwrites label = some (request, con))
      (list : next.sql.connList = site.sql.connList)
      (source : ∀ stored ∈ con, ∃ worker, ¬(site.jobs worker).Uses request ∧
        site.held worker = [stored])
      (uses : ∀ worker, (site.jobs worker).Uses request → next.held worker = con.toList)
      (others : ∀ worker, ¬(site.jobs worker).Uses request →
        next.held worker = site.held worker)

omit [Fintype Worker] [DecidableEq Caller] [DecidableEq Request] in
theorem held_setJob (site : Site Worker Caller Request Conn) (worker : Worker)
    (job : Job Request Conn) :
    (site.setJob worker job).held = Function.update site.held worker (job.held site.mysql) := by
  funext other
  by_cases equal : other = worker
  · subst equal
    simp only [held, setJob, Function.update_self]
  · simp only [held, setJob, Function.update_of_ne equal]

omit [Fintype Worker] [DecidableEq Caller] [DecidableEq Request] in
/-- A worker goes on with its request and holds what it held. -/
theorem held_setJob_same {site : Site Worker Caller Request Conn} {worker : Worker}
    {job : Job Request Conn} (same : job.held site.mysql = site.held worker) :
    (site.setJob worker job).held = site.held := by
  rw [held_setJob, same, Function.update_eq_self]

omit [Fintype Worker] [DecidableEq Caller] [DecidableEq Request] in
theorem finish_held {site next : Site Worker Caller Request Conn} {worker : Worker}
    {events log : List (SiteEvent Worker Caller Request Conn)} (nothing : site.held worker = [])
    (finished : site.finish worker events = some (next, log)) :
    next.sql = site.sql ∧ next.held = site.held := by
  obtain ⟨⟨pool, _⟩, _, same⟩ := Option.map_eq_some_iff.mp finished
  cases same
  exact ⟨rfl, @held_setJob_same _ _ _ _ _ { site with pool := pool } worker .idle nothing.symm⟩

omit [Fintype Worker] [DecidableEq Caller] [DecidableEq Request] in
/-- The pool of connections changes, and a worker goes on with its request. -/
theorem Turn.setJob {site : Site Worker Caller Request Conn} {worker : Worker}
    {label : SiteLabel Worker Caller Request} (kept : site.overwrites label = none)
    (sql : ConnectionPool Conn) (list : sql.connList = site.sql.connList) {job : Job Request Conn}
    (same : job.held site.mysql = site.held worker) :
    site.Turn label ({ site with sql := sql }.setJob worker job) :=
  .same kept list (@held_setJob_same _ _ _ _ _ { site with sql := sql } worker job same)

omit [Fintype Worker] [DecidableEq Caller] [DecidableEq Request] in
/-- A worker that holds nothing is done with its request. -/
theorem Turn.finish {site next : Site Worker Caller Request Conn} {worker : Worker}
    {label : SiteLabel Worker Caller Request}
    {events log : List (SiteEvent Worker Caller Request Conn)}
    (kept : site.overwrites label = none) (nothing : site.held worker = [])
    (finished : site.finish worker events = some (next, log)) : site.Turn label next := by
  obtain ⟨sql, held⟩ := finish_held nothing finished
  exact .same kept (by rw [sql]) held

omit [Fintype Worker] [DecidableEq Caller] in
/-- `mysql` of a request is overwritten with a null pointer. -/
theorem Turn.cleared {site : Site Worker Caller Request Conn}
    {label : SiteLabel Worker Caller Request} {request : Request}
    (overwrites : site.overwrites label = some (request, none)) :
    site.Turn label (site.setMysql request none) :=
  .overwritten request none overwrites rfl nofun
    (fun worker uses => ((site.jobs worker).held_update).1 uses)
    (fun worker unused => ((site.jobs worker).held_update).2 unused)

section Turns

variable {config : PoolConfig} {site next : Site Worker Caller Request Conn} {worker : Worker}
  {events : List (SiteEvent Worker Caller Request Conn)}

omit [Fintype Worker] [DecidableEq Caller]

section

omit [DecidableEq Request]

theorem turn_begin (pooled : config.connPool = true)
    (stepped : site.begin config worker = some (next, events)) :
    site.Turn (.begin worker) next := by
  simp only [begin, pooled, if_true] at stepped
  split at stepped
  case _ isIdle => exact .finish rfl (by simp only [held, isIdle, Job.held]) stepped
  case _ request _ isIdle =>
      have nothing : site.held worker = [] := by simp only [held, isIdle, Job.held]
      split at stepped
      · cases stepped
        exact .setJob rfl site.sql rfl nothing.symm
      · exact .finish rfl nothing stepped
  case _ => contradiction

theorem turn_sizeTest (stepped : site.sizeTest worker = some (next, events)) :
    site.Turn (.sizeTest worker) next := by
  simp only [sizeTest] at stepped
  split at stepped
  case _ request asking =>
      have nothing : site.held worker = [] := by simp only [held, asking, Job.held]
      split at stepped
      · cases stepped
        exact .setJob rfl site.sql rfl nothing.symm
      · cases stepped
        exact .setJob rfl site.sql rfl nothing.symm
  case _ => contradiction

theorem turn_wait (stepped : site.wait worker = some (next, events)) :
    site.Turn (.wait worker) next := by
  simp only [wait] at stepped
  split at stepped
  case _ request waiting =>
      have nothing : site.held worker = [] := by simp only [held, waiting, Job.held]
      split at stepped
      · cases stepped
        exact .setJob rfl { site.sql with reserve := site.sql.reserve - 1 } rfl nothing.symm
      · contradiction
  case _ => contradiction

/-- A worker takes the first connection of the list, if there is one. -/
theorem turn_take (stepped : site.take worker = some (next, events)) :
    site.Turn (.take worker) next := by
  simp only [take, ConnectionPool.takeFront] at stepped
  split at stepped
  case _ request granted =>
      have nothing : site.held worker = [] := by simp only [held, granted, Job.held]
      cases first : site.sql.connList with
      | nil =>
          simp only [first] at stepped
          cases stepped
          exact .setJob rfl site.sql rfl nothing.symm
      | cons con rest =>
          simp only [first] at stepped
          cases stepped
          refine .taken worker con rfl first nothing ?_
          rw [held_setJob]
          rfl
  case _ => contradiction

theorem turn_process (stepped : site.process worker = some (next, events)) :
    site.Turn (.process worker) next := by
  simp only [process] at stepped
  split at stepped
  case _ request processing =>
      cases stepped
      exact .setJob rfl site.sql rfl (by simp only [held, processing, Job.held])
  case _ => contradiction

theorem turn_query (stepped : site.query worker = some (next, events)) :
    site.Turn (.query worker) next := by
  simp only [query] at stepped
  split at stepped
  case _ request serving =>
      cases stepped
      exact .setJob rfl site.sql rfl (by simp only [held, serving, Job.held])
  case _ => contradiction

theorem turn_leave (stepped : site.leave worker = some (next, events)) :
    site.Turn (.leave worker) next := by
  simp only [leave] at stepped
  split at stepped
  case _ request serving =>
      cases stepped
      exact .setJob rfl site.sql rfl (by simp only [held, serving, Job.held])
  case _ request queried =>
      cases stepped
      exact .setJob rfl site.sql rfl (by simp only [held, queried, Job.held])
  case _ => contradiction

/-- A worker that finds a null pointer behind `process` holds nothing. -/
theorem turn_testMysql (pooled : config.connPool = true)
    (stepped : site.testMysql config worker = some (next, events)) :
    site.Turn (.testMysql worker) next := by
  simp only [testMysql] at stepped
  split at stepped
  case _ request processed =>
      split at stepped
      · cases stepped
        exact .setJob rfl site.sql rfl (by simp only [held, processed, Job.held])
      case isFalse null =>
          refine .finish rfl ?_ stepped
          simp only [pooled, true_and, Bool.not_eq_true, Option.isSome_eq_false_iff,
            Option.isNone_iff_eq_none] at null
          simp only [held, processed, Job.held, null, Option.toList_none]
  case _ => contradiction

/-- A worker gives back the connection that it finds in the request. -/
theorem turn_release (stepped : site.release worker = some (next, events)) :
    site.Turn (.release worker) next := by
  simp only [release] at stepped
  split at stepped
  case _ request releasing =>
      split at stepped
      case _ null =>
          cases stepped
          exact .setJob rfl site.sql rfl
            (by simp only [held, releasing, Job.held, null, Option.toList_none])
      case _ con holds =>
          cases stepped
          refine .released worker con rfl rfl ?_ ?_
          · simp only [held, releasing, Job.held, holds, Option.toList_some]
          · rw [held_setJob]
            rfl
  case _ => contradiction

theorem turn_post (stepped : site.post worker = some (next, events)) :
    site.Turn (.post worker) next := by
  simp only [post] at stepped
  split at stepped
  case _ request posting =>
      cases stepped
      exact .setJob rfl { site.sql with reserve := site.sql.reserve + 1 } rfl
        (by simp only [held, posting, Job.held])
  case _ => contradiction

end

/-- A worker moves its connection into the request. -/
theorem turn_store (stepped : site.store worker = some (next, events)) :
    site.Turn (.store worker) next := by
  simp only [store] at stepped
  split at stepped
  case _ request con storing =>
      cases stepped
      refine .overwritten request con ?_ rfl ?_ ?_ ?_
      · simp only [overwrites, storing]
      · rintro stored isStored
        refine ⟨worker, ?_, ?_⟩
        · simp [storing, Job.Uses]
        · rw [Option.mem_def.mp isStored] at storing
          simp only [held, storing, Job.held, Option.toList_some]
      · intro other uses
        have differ : other ≠ worker := by
          rintro rfl
          simp [storing, Job.Uses] at uses
        rw [held_setJob, Function.update_of_ne differ]
        exact ((site.jobs other).held_update).1 uses
      · intro other unused
        rw [held_setJob]
        by_cases equal : other = worker
        · subst equal
          simp only [Function.update_self, Job.held, setMysql, held, storing]
        · rw [Function.update_of_ne equal]
          exact ((site.jobs other).held_update).2 unused
  case _ => contradiction

/-- A worker that has given its connection back sets `mysql` to null. -/
theorem turn_clear (stepped : site.clear worker = some (next, events)) :
    site.Turn (.clear worker) next := by
  simp only [clear] at stepped
  split at stepped
  case _ request clearing =>
      have nothing : (site.setMysql request none).held worker = [] := by
        simp only [held, setMysql, clearing, Job.held]
      obtain ⟨sql, held⟩ := finish_held nothing stepped
      refine .overwritten request none ?_ (by rw [sql]; rfl) ?_ ?_ ?_
      · simp only [overwrites, clearing]
      · intro stored isStored
        exact absurd isStored (Option.not_mem_none stored)
      · intro other uses
        rw [held]
        exact ((site.jobs other).held_update).1 uses
      · intro other unused
        rw [held]
        exact ((site.jobs other).held_update).2 unused
  case _ => contradiction

end Turns

/-- What the steps do to the connections. -/
theorem step_turn {config : PoolConfig} (pooled : config.connPool = true)
    {site next : Site Worker Caller Request Conn} {label : SiteLabel Worker Caller Request}
    {events : List (SiteEvent Worker Caller Request Conn)}
    (stepped : site.step config label = some (next, events)) : site.Turn label next := by
  cases label with
  | queue label =>
      cases label with
      | finish => contradiction
      | call | push | notifyOne | lock | test | block | wake | dequeue | setStop | notifyAll
      | join =>
          obtain ⟨⟨pool, queueEvents⟩, _, same⟩ := Option.map_eq_some_iff.mp stepped
          cases same
          exact .same rfl rfl rfl
  | begin worker => exact turn_begin pooled stepped
  | sizeTest worker => exact turn_sizeTest stepped
  | wait worker => exact turn_wait stepped
  | take worker => exact turn_take stepped
  | store worker => exact turn_store stepped
  | process worker => exact turn_process stepped
  | query worker => exact turn_query stepped
  | leave worker => exact turn_leave stepped
  | testMysql worker => exact turn_testMysql pooled stepped
  | release worker => exact turn_release stepped
  | post worker => exact turn_post stepped
  | clear worker => exact turn_clear stepped
  | init request =>
      cases stepped
      exact .cleared rfl

/-- Each of the connections is in the list, or a worker alone can still give it back. -/
def Accounted (conns : List Conn) (site : Site Worker Caller Request Conn) : Prop :=
  Conserved conns site.sql.connList site.held

/-- A connection that nobody can give back any more. -/
def Lost (con : Conn) (site : Site Worker Caller Request Conn) : Prop :=
  con ∉ site.sql.connList ∧ ∀ worker, con ∉ site.held worker

namespace Turn

variable {site next : Site Worker Caller Request Conn} {label : SiteLabel Worker Caller Request}
  {conns : List Conn}

omit [Fintype Worker] [DecidableEq Caller] [DecidableEq Request] in
/-- Where a step does not overwrite `mysql` it keeps account of the connections. -/
theorem accounted_of_kept (turn : site.Turn label next) (kept : site.overwrites label = none)
    (accounted : site.Accounted conns) : next.Accounted conns := by
  classical
  simp only [Accounted] at accounted ⊢
  cases turn with
  | same _ list held => rwa [list, held]
  | taken worker con _ list nothing held =>
      rw [list] at accounted
      have lent : Conserved conns next.sql.connList
          (Function.update site.held worker (con :: site.held worker)) := accounted.lend
      rwa [nothing, ← held] at lent
  | released worker con _ list had held =>
      have back := accounted.giveBack (had ▸ List.mem_singleton_self con)
      rwa [had, List.erase_cons_head, ← list, ← held] at back
  | overwritten request con overwrites =>
      rw [kept] at overwrites
      contradiction

omit [Fintype Worker] [DecidableEq Caller] in
/-- A step that overwrites `mysql` keeps account of the connections exactly if it disturbs no
worker: the old pointer is lost with its connection, and the new one is with two workers. -/
theorem accounted_iff (turn : site.Turn label next) (accounted : site.Accounted conns) :
    next.Accounted conns ↔ site.Undisturbed label := by
  cases overwrites : site.overwrites label with
  | none =>
      refine iff_of_true (turn.accounted_of_kept overwrites accounted) ?_
      simp [Undisturbed, overwrites]
  | some overwritten =>
      obtain ⟨request, con⟩ := overwritten
      cases turn with
      | same kept | taken _ _ kept | released _ _ kept =>
          rw [overwrites] at kept
          contradiction
      | overwritten other stored same list source uses others =>
          rw [overwrites, Option.some.injEq, Prod.mk.injEq] at same
          obtain ⟨rfl, rfl⟩ := same
          have undisturbed : site.Undisturbed label ↔
              (∀ worker, ¬(site.jobs worker).Uses request) ∨
                site.mysql request = none ∧ con = none := by
            simp [Undisturbed, overwrites]
          rw [undisturbed]
          have found : ∀ worker, (site.jobs worker).Uses request →
              site.held worker = (site.mysql request).toList := fun worker used =>
            Job.held_of_uses used
          simp only [Accounted] at accounted ⊢
          constructor
          · intro after
            by_contra disturbed
            push Not at disturbed
            obtain ⟨⟨user, used⟩, notNull⟩ := disturbed
            cases con with
            | some stored =>
                -- The worker that stores the connection goes on with it beside the user.
                obtain ⟨owner, apart, owned⟩ := source stored rfl
                have both := after.exclusive user owner stored
                  (by simp [uses user used]) (by simp [others owner apart, owned])
                exact apart (both ▸ used)
            | none =>
                -- The connection of the users is nowhere.
                obtain ⟨lost, isLost⟩ :=
                  Option.ne_none_iff_exists'.mp fun null => notNull null rfl
                have had : lost ∈ site.held user := by simp [found user used, isLost]
                have known := (accounted.mem_iff lost).mpr (.inr ⟨user, had⟩)
                rcases (after.mem_iff lost).mp known with inList | ⟨worker, inHeld⟩
                · exact accounted.apart user lost had (list ▸ inList)
                · by_cases alsoUses : (site.jobs worker).Uses request
                  · simp [uses worker alsoUses] at inHeld
                  · rw [others worker alsoUses] at inHeld
                    exact alsoUses (accounted.exclusive worker user lost inHeld had ▸ used)
          · intro condition
            have sameHeld : next.held = site.held := by
              funext worker
              by_cases used : (site.jobs worker).Uses request
              · rcases condition with unused | ⟨null, rfl⟩
                · exact absurd used (unused worker)
                · rw [uses worker used, found worker used, null]
              · exact others worker used
            rwa [list, sameHeld]

omit [Fintype Worker] [DecidableEq Caller] in
/-- No step finds a lost connection. -/
theorem lost (turn : site.Turn label next) {con : Conn} (lost : site.Lost con) : next.Lost con := by
  obtain ⟨notListed, notHeld⟩ := lost
  cases turn with
  | same _ list held => exact ⟨list ▸ notListed, fun worker => held ▸ notHeld worker⟩
  | taken worker first _ list nothing held =>
      rw [list, List.mem_cons, not_or] at notListed
      refine ⟨notListed.2, fun other => ?_⟩
      rw [held]
      by_cases equal : other = worker
      · subst equal
        simpa using notListed.1
      · simpa [equal] using notHeld other
  | released worker given _ list had held =>
      have differ : con ≠ given := by
        rintro rfl
        exact notHeld worker (by simp [had])
      refine ⟨by simp [list, notListed, differ], fun other => ?_⟩
      rw [held]
      by_cases equal : other = worker
      · subst equal
        simp
      · simpa [equal] using notHeld other
  | overwritten request stored _ list source uses others =>
      refine ⟨list ▸ notListed, fun worker => ?_⟩
      by_cases used : (site.jobs worker).Uses request
      · rw [uses worker used]
        intro isStored
        obtain ⟨owner, _, owned⟩ := source con (Option.mem_toList.mp isStored)
        exact notHeld owner (by simp [owned])
      · rw [others worker used]
        exact notHeld worker

end Turn

end Site

/-- The connections are accounted for in every state of a run exactly if `request->mysql` is never
overwritten while another worker uses it; a connection that is lost is lost for the rest of the
run. -/
theorem accounted_iff_undisturbed {config : PoolConfig} (pooled : config.connPool = true)
    {conns : List Conn} (distinct : conns.Nodup) {sql : ConnectionPool Conn}
    (made : ConnectionPool.new.init (conns.map some) = some sql) {requestState : Request → Int}
    {mysql : Request → Option Conn} {labels : List (SiteLabel Worker Caller Request)}
    {last : Site Worker Caller Request Conn} {log : List (SiteEvent Worker Caller Request Conn)}
    (ran : run (Site.step config) (Site.start requestState mysql sql) labels = some (last, log)) :
    ((∀ before, before <+: labels → ∀ middle made,
        run (Site.step config) (Site.start requestState mysql sql) before = some (middle, made) →
          middle.Accounted conns) ↔
      RunMeets (Site.step config) Site.Undisturbed (Site.start requestState mysql sql) labels) ∧
      ∀ con, last.Lost con → ∀ later final made,
        run (Site.step config) last later = some (final, made) → final.Lost con := by
  have sql_eq := made
  rw [ConnectionPool.init_new, Option.some.injEq] at sql_eq
  subst sql_eq
  refine ⟨?_, fun con lost later final made ranOn => ?_⟩
  · refine run_states_iff (Site.Accounted conns) ?_ ?_ ran
    · intro site label next events accounted stepped
      exact (Site.step_turn pooled stepped).accounted_iff accounted
    · exact Conserved.start distinct fun _ => rfl
  · exact run_state_always (Site.Lost con)
      (fun site label next events lost stepped => (Site.step_turn pooled stepped).lost lost)
      lost ranOn

/-- The main loop has sent the answer and calls `init` before the worker tests `mysql`. -/
def answeredEarly : List (SiteLabel (Fin 2) (Fin 2) (Fin 2)) :=
  oneConnection ++ [.init 0, .testMysql 0]

/-- A request whose `init` comes before the worker's test takes its connection along. -/
theorem accounted_iff_undisturbed_early :
    ∃ sql, ConnectionPool.new.init [some 5] = some sql ∧ ∃ site log,
      run (Site.step { actorModel := 1, maxRequests := 10, connPool := true })
        (Site.start (fun _ => 0) (fun _ => none) sql) answeredEarly = some (site, log) ∧
      (¬∀ before, before <+: answeredEarly → ∀ middle made,
        run (Site.step { actorModel := 1, maxRequests := 10, connPool := true })
          (Site.start (fun _ => 0) (fun _ => none) sql) before = some (middle, made) →
            middle.Accounted [5]) ∧
      ∀ later final made, run (Site.step { actorModel := 1, maxRequests := 10, connPool := true })
        site later = some (final, made) → final.Lost 5 := by
  have made := ConnectionPool.init_new [5]
  refine ⟨_, made, ?_⟩
  have facts : (run (Site.step { actorModel := 1, maxRequests := 10, connPool := true })
      (Site.start (fun _ => 0) (fun _ => none)
        { maxConn := 1, curConn := 0, freeConn := 1, connList := [5], reserve := 1 } :
        Site (Fin 2) (Fin 2) (Fin 2) Nat) answeredEarly).map
      (fun last => (last.1.sql.connList, decide (∀ worker, 5 ∉ last.1.held worker))) =
        some ([], true) := by
    decide +kernel
  obtain ⟨⟨site, log⟩, ran, facts⟩ := Option.map_eq_some_iff.mp facts
  obtain ⟨empty, notHeld⟩ := Prod.mk.inj facts
  obtain ⟨kept, lost⟩ := accounted_iff_undisturbed rfl (List.nodup_singleton 5) made ran
  refine ⟨site, log, ran, ?_, lost 5 ⟨?_, of_decide_eq_true notHeld⟩⟩
  · rw [kept]
    decide +kernel
  · rw [show site.sql.connList = [] from empty]
    exact List.not_mem_nil

end TimeGANWebServer.Threadpool
