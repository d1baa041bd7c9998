import TimeGANWebServer.Http.Survivors
import TimeGANWebServer.Support.Run

/-!
# Independence of the requests on a slot

What a request comes to on a used slot is compared with what it comes to on a new one, for
every history of the slot.  The two agree unless `do_request` reads `m_string` for a request
without a body.
-/

namespace TimeGANWebServer.Http

open TimeGANWebServer.Support

/-! ## Histories -/

/-- What happens to a slot: it is given to a new connection, bytes are read into it, a worker
processes it, a response is written, or the connection is closed. -/
inductive SlotEvent where
  | connect (sockfd trigMode : Int)
  | read (results : List RecvResult)
  | process (env : Env) (mysql : Option Nat)
  | write (results : List WritevResult)
  | close

namespace HttpConn

/-- One event of a slot, with the calls of the session manager it makes.  `none` when it cannot
happen or does not return. -/
def step (root : List UInt8) (conn : HttpConn) :
    SlotEvent → Option (HttpConn × List SessionCall)
  | .connect sockfd trigMode => some (conn.initFor sockfd root trigMode, [])
  | .read results =>
      (conn.readOnce conn.trigMode results).map fun read =>
        ({ conn with toRequestState := read.2 }, [])
  | .process env mysql =>
      match HttpConn.process { conn with mysql := mysql } env with
      | .error _ => none
      | .ok processed => some (processed.conn, processed.sessions)
  | .write results => (conn.write results).map fun outcome => (outcome.conn, [])
  | .close => some (conn.closeConn.1, [])

/-- A slot initialised for its first connection. -/
def accepted (sockfd : Int) (root : List UInt8) (trigMode : Int) : HttpConn :=
  HttpConn.blank.initFor sockfd root trigMode

/-- The slot a next request finds, with the database connection of the worker. -/
def ready (conn : HttpConn) (mysql : Option Nat) : HttpConn :=
  { conn.init with mysql := mysql }

/-- Successive reads of the bytes of a request, each followed by `process_read`. -/
def processReads (conn : HttpConn) (env : Env) : List (List UInt8) → Except Fault Reply
  | [] => .ok { code := .noRequest, conn := conn, users := env.users, sessions := [] }
  | chunk :: chunks =>
      match HttpConn.processRead { conn with
          toRequestState := conn.toRequestState.receive chunk } env with
      | .error fault => .error fault
      | .ok reply =>
          if reply.code = .noRequest then reply.conn.processReads env chunks else .ok reply

/-- The slot as `do_request` gets it after successive reads. -/
def asked (conn : HttpConn) (chunks : List (List UInt8)) : Option HttpConn :=
  match conn.toRequestState.reads chunks with
  | some (.request request) => some { conn with toRequestState := request }
  | _ => none

/-- The text `do_request` takes for the body, if it reads `m_string`. -/
def bodyText (conn : HttpConn) : Option (List UInt8) :=
  if conn.ReadsString then conn.string.map fun text => conn.str text else none

end HttpConn

/-- What a request comes to: the text taken for its body, and the answer. -/
structure Outcome where
  bodyText : Option (List UInt8)
  answer : Except Fault Answer

/-- What the bytes of a request come to on a slot. -/
def HttpConn.outcome (conn : HttpConn) (env : Env) (chunks : List (List UInt8)) : Outcome where
  bodyText := (conn.asked chunks).bind HttpConn.bodyText
  answer := (conn.processReads env chunks).map Reply.answer

/-! ## What `do_request` keeps -/

/-- The document root of the server and `m_linger` are the same. -/
structure SameSetup (before after : HttpConn) : Prop where
  docRoot : after.docRoot = before.docRoot
  linger : after.linger = before.linger

theorem SameSetup.trans {first second third : HttpConn} (left : SameSetup first second)
    (right : SameSetup second third) : SameSetup first third :=
  ⟨right.docRoot.trans left.docRoot, right.linger.trans left.linger⟩

/-- The slot with which the form branch ends. -/
def FormOutcome.conn : FormOutcome → HttpConn
  | .redirect conn _ => conn
  | .goOn conn _ => conn

/-- The slot of a redirect, or with the name of a file. -/
def Resolved.conn : Resolved → HttpConn
  | .redirect reply => reply.conn
  | .file conn _ _ => conn

namespace HttpConn

theorem form_setup {conn : HttpConn} {env : Env} {url p : Int} {outcome : FormOutcome}
    (done : conn.form env url p = .ok outcome) : SameSetup conn outcome.conn := by
  simp only [form] at done
  split at done
  · contradiction
  · split at done
    · contradiction
    · split at done
      · obtain ⟨next, users, rfl, _, _, rfl⟩ := register_rewrites done
        exact ⟨rfl, rfl⟩
      · simp only [login] at done
        split at done
        · cases done
          exact ⟨rfl, rfl⟩
        · split at done
          · contradiction
          case _ next set =>
              cases done
              rw [FormOutcome.conn, setUrl_keeps set]
              exact ⟨rfl, rfl⟩

theorem route_setup {conn : HttpConn} {env : Env} {url p : Int}
    {users : List UInt8 → Option (List UInt8)} {sessions : List SessionCall} {resolved : Resolved}
    (done : conn.route env url p users sessions = .ok resolved) :
    SameSetup conn resolved.conn := by
  simp only [route] at done
  split at done
  · cases done
    exact ⟨rfl, rfl⟩
  · split at done
    · split at done
      · contradiction
      · cases done
        exact ⟨rfl, rfl⟩
    · cases done
      exact ⟨rfl, rfl⟩

theorem resolve_setup {conn : HttpConn} {env : Env} {url : Int} {sessions : List SessionCall}
    {resolved : Resolved} (done : conn.resolve env url sessions = .ok resolved) :
    SameSetup conn resolved.conn := by
  simp only [resolve] at done
  split at done
  · contradiction
  · split at done
    · contradiction
    · split at done
      · split at done
        · contradiction
        case _ next username formed =>
            cases done
            have kept := form_setup formed
            exact ⟨kept.docRoot, kept.linger⟩
        case _ next users formed =>
            have kept := (form_setup formed).trans (route_setup done)
            exact ⟨kept.docRoot, kept.linger⟩
      · have kept := route_setup done
        exact ⟨kept.docRoot, kept.linger⟩

theorem serveFile_setup (conn : HttpConn) (env : Env) (checkDir : Bool)
    (users : List UInt8 → Option (List UInt8)) (sessions : List SessionCall) :
    SameSetup conn (conn.serveFile env checkDir users sessions).conn := by
  simp only [serveFile]
  repeat' split
  all_goals exact ⟨rfl, rfl⟩

theorem afterLogin_setup {conn : HttpConn} {env : Env} {url : Int}
    {sessions : List SessionCall} {reply : Reply}
    (done : conn.afterLogin env url sessions = .ok reply) : SameSetup conn reply.conn := by
  simp only [afterLogin] at done
  split at done
  · simp only [diagnosePost] at done
    split at done
    · contradiction
    · split at done
      · contradiction
      · cases done
        exact ⟨rfl, rfl⟩
      · cases done
        exact ⟨rfl, rfl⟩
  · simp only [staticFiles] at done
    split at done
    · contradiction
    case _ redirect resolved =>
        cases done
        exact resolve_setup resolved
    case _ target users last resolved =>
        cases done
        exact (resolve_setup resolved).trans (serveFile_setup _ _ _ _ _)

theorem doRequest_setup {conn : HttpConn} {env : Env} {reply : Reply}
    (done : conn.doRequest env = .ok reply) : SameSetup conn reply.conn := by
  simp only [doRequest] at done
  split at done
  · contradiction
  · split at done
    · split at done
      · cases done
        exact ⟨rfl, rfl⟩
      · split at done
        · simp only [rootPage] at done
          split at done
          · contradiction
          · cases done
            have kept := serveFile_setup conn.rootFile env false env.users
            exact ⟨(kept _).docRoot, (kept _).linger⟩
        · exact afterLogin_setup done
    · exact afterLogin_setup done

theorem processRead_docRoot {conn : HttpConn} {env : Env} {reply : Reply}
    (done : conn.processRead env = .ok reply) : reply.conn.docRoot = conn.docRoot := by
  simp only [processRead] at done
  split at done
  · cases done
    rfl
  · exact (doRequest_setup done).docRoot
  · contradiction

theorem closeConn_docRoot (conn : HttpConn) : conn.closeConn.1.docRoot = conn.docRoot := by
  simp only [closeConn]
  split <;> rfl

theorem process_docRoot {conn : HttpConn} {env : Env} {processed : Processed}
    (done : conn.process env = .ok processed) : processed.conn.docRoot = conn.docRoot := by
  simp only [process] at done
  split at done
  · contradiction
  case _ reply read =>
      have kept := processRead_docRoot read
      split at done
      · cases done
        exact kept
      · cases done
        simp only []
        split
        · exact kept
        · rw [closeConn_docRoot]
          exact kept

theorem write_docRoot {conn : HttpConn} {results : List WritevResult} {outcome : WriteOutcome}
    (written : conn.write results = some outcome) : outcome.conn.docRoot = conn.docRoot := by
  simp only [write] at written
  split at written
  · cases written
    rfl
  · obtain ⟨loop, _, rfl⟩ := Option.map_eq_some_iff.mp written
    obtain ⟨ended, response, writevs⟩ := loop
    cases ended
    case complete =>
        simp only []
        split <;> rfl
    all_goals rfl

/-- Every event keeps the document root of the server. -/
theorem step_docRoot {root : List UInt8} {conn next : HttpConn} {event : SlotEvent}
    {calls : List SessionCall} (served : conn.docRoot = root)
    (stepped : conn.step root event = some (next, calls)) : next.docRoot = root := by
  cases event with
  | connect sockfd trigMode =>
      cases stepped
      rfl
  | read results =>
      obtain ⟨_, _, same⟩ := Option.map_eq_some_iff.mp stepped
      cases same
      exact served
  | process env mysql =>
      simp only [step] at stepped
      split at stepped
      · contradiction
      case _ done =>
          cases stepped
          exact (process_docRoot done).trans served
  | write results =>
      obtain ⟨_, written, same⟩ := Option.map_eq_some_iff.mp stepped
      cases same
      exact (write_docRoot written).trans served
  | close =>
      cases stepped
      exact (closeConn_docRoot conn).trans served

/-- So does every history. -/
theorem run_docRoot {root : List UInt8} {conn last : HttpConn} {history : List SlotEvent}
    {calls : List SessionCall} (served : conn.docRoot = root)
    (ran : run (step root) conn history = some (last, calls)) : last.docRoot = root :=
  run_state_always (fun conn => conn.docRoot = root)
    (fun _ _ _ _ kept stepped => step_docRoot kept stepped) served ran

/-! ## Used and new slots -/

/-- What `process_read` returns when its loop has ended. -/
def conclude (conn : HttpConn) (env : Env) : ReadOutcome → Except Fault Reply
  | .code ret request => .ok {
      code := ret
      conn := { conn with toRequestState := request }
      users := env.users
      sessions := [] }
  | .request request => doRequest { conn with toRequestState := request } env
  | .fault reason _ => .error reason

theorem processRead_eq_conclude {conn : HttpConn} {outcome : ReadOutcome} (env : Env)
    (read : conn.toRequestState.processRead = some outcome) :
    conn.processRead env = conn.conclude env outcome := by
  have ended : conn.toRequestState.readOutcome = outcome := by
    simp only [RequestState.readOutcome, read, Option.get_some]
  rw [processRead, ended]
  cases outcome <;> rfl

/-- `do_request` never wants more of a request. -/
theorem doRequest_complete {conn : HttpConn} {env : Env} {reply : Reply}
    (done : conn.doRequest env = .ok reply) : reply.code ≠ .noRequest := by
  rcases doRequest_cases done with ⟨_, isRedirect⟩ | ⟨_, isPage⟩
  · rw [isRedirect.code]
    decide
  · rcases isPage.code with code | code | code | code | code | code
    all_goals
      rw [code]
      decide

/-- Successive reads end with a code of `process_read` itself only for a bad request, or when
they want more. -/
theorem reads_code {request next : RequestState} {chunks : List (List UInt8)} {ret : HttpCode}
    (read : request.reads chunks = some (.code ret next)) :
    ret = .noRequest ∨ ret = .badRequest := by
  induction chunks generalizing request with
  | nil =>
      cases read
      exact .inl rfl
  | cons chunk chunks ih =>
      simp only [RequestState.reads] at read
      split at read
      · exact ih read
      case _ other =>
          have ended : (request.receive chunk).readOutcome = .code ret next := by
            simp only [RequestState.readOutcome, read, Option.get_some]
          exact RequestState.readOutcome_code ended

/-- Successive calls of `process_read` come to what the parser comes to on their bytes. -/
theorem processReads_eq_conclude {conn : HttpConn} {outcome : ReadOutcome} {env : Env}
    {chunks : List (List UInt8)} (read : conn.toRequestState.reads chunks = some outcome) :
    conn.processReads env chunks = conn.conclude env outcome := by
  induction chunks generalizing conn with
  | nil =>
      cases read
      rfl
  | cons chunk chunks ih =>
      simp only [RequestState.reads] at read
      simp only [processReads]
      cases first : (conn.toRequestState.receive chunk).processRead with
      | none => simp [first] at read
      | some ended =>
          rw [@processRead_eq_conclude { conn with
            toRequestState := conn.toRequestState.receive chunk } ended env first]
          cases ended with
          | fault reason next =>
              simp only [first] at read
              cases read
              rfl
          | request next =>
              simp only [first] at read
              cases read
              simp only [conclude]
              cases done : doRequest { conn with toRequestState := next } env with
              | error fault => rfl
              | ok reply => simp only [if_neg (doRequest_complete done)]
          | code ret next =>
              simp only [first] at read
              cases ret with
              | noRequest => exact @ih { conn with toRequestState := next } read
              | _ =>
                  cases read
                  rfl

theorem reads_withSurvivors (conn : HttpConn) (survivors : Survivors)
    (chunks : List (List UInt8)) :
    (conn.withSurvivors survivors).toRequestState.reads chunks =
      (conn.toRequestState.reads chunks).map (ReadOutcome.withString survivors.string) :=
  RequestState.reads_withString conn.toRequestState survivors.string chunks

/-- The surviving members `do_request` gets: `parse_content` has assigned `m_string`, or it is
the one the slot had before. -/
def handed (asked : HttpConn) (survivors : Survivors) : Survivors :=
  { survivors with
    string := if asked.checkState = .content then asked.string else survivors.string }

theorem asked_withSurvivors (conn : HttpConn) (survivors : Survivors)
    (chunks : List (List UInt8)) :
    (conn.withSurvivors survivors).asked chunks =
      (conn.asked chunks).map fun asked => asked.withSurvivors (asked.handed survivors) := by
  simp only [asked, reads_withSurvivors]
  cases conn.toRequestState.reads chunks with
  | none => rfl
  | some outcome =>
      cases outcome with
      | request next =>
          simp only [Option.map_some, ReadOutcome.withString, handed]
          split <;> rfl
      | _ => rfl

/-- A request without a body is handed over with the `m_string` the slot had before. -/
theorem asked_string {conn target : HttpConn} {chunks : List (List UInt8)}
    (isAsked : conn.asked chunks = some target) (notBody : target.checkState ≠ .content) :
    target.string = conn.string := by
  have same : conn.withSurvivors conn.survivors = conn := rfl
  have moved := conn.asked_withSurvivors conn.survivors chunks
  rw [same, isAsked, Option.map_some, Option.some.injEq] at moved
  have string : target.string = (target.handed conn.survivors).string :=
    congrArg (fun conn : HttpConn => conn.string) moved
  rw [string, handed, if_neg notBody]
  rfl

/-- The requests of a slot on which its history has no influence. -/
def ReadsOwnBody (conn : HttpConn) (chunks : List (List UInt8)) : Prop :=
  ∀ asked, conn.asked chunks = some asked → asked.ReadsString → asked.checkState = .content

theorem handed_string {asked : HttpConn} {survivors : Survivors}
    (body : asked.checkState = .content) : (asked.handed survivors).string = asked.string :=
  if_pos body

/-- Such a request is answered in the same way whatever an earlier one left in the slot. -/
theorem processReads_withSurvivors {conn : HttpConn} {chunks : List (List UInt8)}
    (survivors : Survivors) (env : Env)
    (declared : conn.toRequestState.InDeclaredBody) (own : conn.ReadsOwnBody chunks) :
    ((conn.withSurvivors survivors).processReads env chunks).map Reply.answer =
      (conn.processReads env chunks).map Reply.answer := by
  obtain ⟨outcome, read, _⟩ := RequestState.reads_handsOver declared chunks
  have used : (conn.withSurvivors survivors).toRequestState.reads chunks =
      some (outcome.withString survivors.string) := by
    rw [reads_withSurvivors, read, Option.map_some]
  rw [processReads_eq_conclude used, processReads_eq_conclude read]
  cases outcome with
  | fault reason next => rfl
  | code ret next =>
      have notFile : ret ≠ .fileRequest := by
        rcases reads_code read with rfl | rfl <;> decide
      exact congrArg Except.ok (@Reply.answer_withSurvivors
        ⟨ret, { conn with toRequestState := next }, env.users, []⟩ survivors
        fun file => absurd file notFile)
  | request next =>
      let target : HttpConn := { conn with toRequestState := next }
      have isAsked : conn.asked chunks = some target := by simp only [asked, read, target]
      have handedOver : (conn.withSurvivors survivors).conclude env
          (ReadOutcome.withString survivors.string (.request next)) =
            (target.withSurvivors (target.handed survivors)).doRequest env := by
        simp only [ReadOutcome.withString, conclude, handed, target]
        split <;> rfl
      rw [handedOver]
      exact target.doRequest_withSurvivors (target.handed survivors) env
        fun reads => handed_string (own target isAsked reads)

/-- The text it takes for the body is the same, too. -/
theorem bodyText_withSurvivors {conn : HttpConn} {chunks : List (List UInt8)}
    (survivors : Survivors) (own : conn.ReadsOwnBody chunks) :
    ((conn.withSurvivors survivors).asked chunks).bind bodyText =
      (conn.asked chunks).bind bodyText := by
  rw [asked_withSurvivors]
  cases isAsked : conn.asked chunks with
  | none => rfl
  | some target =>
      have reads : (target.withSurvivors (target.handed survivors)).ReadsString ↔
          target.ReadsString := Iff.rfl
      simp only [Option.map_some, Option.bind_some, bodyText, reads]
      split
      case isTrue reads =>
          have same := @handed_string target survivors (own target isAsked reads)
          change (target.handed survivors).string.map _ = _
          rw [same]
          rfl
      · rfl

/-- Whatever happened to a slot, the next request finds a new slot but for the surviving
members. -/
theorem ready_eq_withSurvivors {conn : HttpConn} {root : List UInt8} (sockfd trigMode : Int)
    (mysql : Option Nat) (served : conn.docRoot = root) :
    conn.ready mysql =
      ((accepted sockfd root trigMode).ready mysql).withSurvivors conn.survivors := by
  subst served
  rfl

/-- A new slot hands a request over behind its body exactly if one is declared. -/
theorem asked_content_iff {sockfd trigMode : Int} {root : List UInt8} {mysql : Option Nat}
    {chunks : List (List UInt8)} {target : HttpConn}
    (isAsked : ((accepted sockfd root trigMode).ready mysql).asked chunks = some target) :
    target.checkState = .content ↔ target.contentLength ≠ 0 := by
  obtain ⟨outcome, read, handsOver⟩ := @RequestState.reads_handsOver
    ((accepted sockfd root trigMode).ready mysql).toRequestState (.of_ne nofun) chunks
  simp only [asked, read] at isAsked
  split at isAsked
  case _ next same =>
      cases isAsked
      cases same
      exact handsOver
  · contradiction

/-! ## A text left behind -/

/-- A diagnosis with a body that is no JSON text. -/
def diagnosisText : List UInt8 :=
  ascii "POST /diagnose HTTP/1.1\r\nContent-Length: 1\r\n\r\na"

/-- The parser's state when it has been read on a new slot. -/
def diagnosisRequest : RequestState :=
  RequestState.receive (RequestState.init HttpConn.blank.toRequestState) diagnosisText

/-- One request is read and handled. -/
def diagnosisHistory : List SlotEvent :=
  [.read [.data diagnosisText, .again], .process Env.blank none]

/-- In both modes `read_once` reads the request. -/
theorem readOnce_diagnosis (trigMode : Int) :
    (RequestState.init HttpConn.blank.toRequestState).readOnce trigMode
      [.data diagnosisText, .again] = some (true, diagnosisRequest) := by
  have room : ¬readBufferSize ≤ (RequestState.init HttpConn.blank.toRequestState).readIdx := by
    decide
  have fits : (RequestState.init HttpConn.blank.toRequestState).Fits diagnosisText := by
    decide
  simp only [RequestState.readOnce, if_neg room]
  split
  · rfl
  · simp only [RequestState.readLoop, if_pos fits]
    rfl

/-- Building the response keeps `m_string`. -/
theorem process_string {conn : HttpConn} {env : Env} {reply : Reply}
    (read : conn.processRead env = .ok reply) :
    ∃ finished, conn.process env = .ok finished ∧ finished.conn.string = reply.conn.string := by
  simp only [process, read]
  split
  · exact ⟨_, rfl, rfl⟩
  · refine ⟨_, rfl, ?_⟩
    split
    · rfl
    · simp only [closeConn]
      split <;> rfl

/-- A diagnosis of a text that is not JSON is answered with a message. -/
theorem doRequest_diagnosis {conn : HttpConn} {url text : Int} (found : conn.url = some url)
    (post : conn.cgi = 1) (target : conn.str url = ascii "/diagnose")
    (body : conn.string = some text) :
    ∃ reply, conn.doRequest Env.blank = .ok reply ∧ reply.code = .diagnoseRequest ∧
      reply.conn.string = some text := by
  have notGuarded : ¬conn.Guarded url := by
    rintro ⟨get, _⟩
    rw [post] at get
    exact absurd get (by decide)
  have rejected : ∃ message, diagnoseRequest Env.blank.json Env.blank.models (conn.str text) =
      .ok (.json message) := ⟨_, rfl⟩
  obtain ⟨message, rejected⟩ := rejected
  simp only [doRequest, found, if_neg notGuarded, afterLogin, if_pos (And.intro post target),
    diagnosePost, body, rejected]
  exact ⟨_, rfl, rfl, body⟩

/-- A text is left in `m_string`. -/
theorem string_survives (sockfd : Int) (root : List UInt8) (trigMode : Int) :
    ∃ conn calls text,
      run (step root) (accepted sockfd root trigMode) diagnosisHistory = some (conn, calls) ∧
        conn.string = some text := by
  have facts : (diagnosisRequest.processRead.bind ReadOutcome.served).map (fun next =>
      (next.cgi, next.string, next.url.map next.str)) =
        some (1, some 46, some (ascii "/diagnose")) := by
    decide +kernel
  obtain ⟨asked, isAsked, facts⟩ := Option.map_eq_some_iff.mp facts
  obtain ⟨outcome, read, isServed⟩ := Option.bind_eq_some_iff.mp isAsked
  cases outcome with
  | code ret next => contradiction
  | fault reason next => contradiction
  | request next =>
      cases isServed
      simp only [Prod.mk.injEq, Option.map_eq_some_iff] at facts
      obtain ⟨post, body, url, found, target⟩ := facts
      let received : HttpConn := { accepted sockfd root trigMode with
        toRequestState := diagnosisRequest }
      let used : HttpConn := { received with mysql := none }
      obtain ⟨reply, done, code, left⟩ := @doRequest_diagnosis
        { used with toRequestState := asked } url 46 found post target body
      have concluded : used.processRead Env.blank = .ok reply :=
        (@processRead_eq_conclude used _ Env.blank read).trans done
      obtain ⟨finished, processed, kept⟩ := process_string concluded
      have reads : step root (accepted sockfd root trigMode)
          (.read [.data diagnosisText, .again]) = some (received, []) :=
        congrArg (Option.map _) (readOnce_diagnosis trigMode)
      have processes : step root received (.process Env.blank none) =
          some (finished.conn, finished.sessions) := by
        simp only [step]
        rw [show HttpConn.process { received with mysql := none } Env.blank = .ok finished from
          processed]
      exact ⟨finished.conn, _, 46, run_of_step reads (run_of_step processes rfl),
        kept.trans left⟩

/-! ## Independence -/

/-- The requests on a slot are independent: after every history the bytes of a request come to
what they come to on a new slot, and `do_request` reads no `m_string` but the one
`parse_content` has set for this request. -/
structure Independent (sockfd : Int) (root : List UInt8) (trigMode : Int) (mysql : Option Nat)
    (env : Env) (chunks : List (List UInt8)) : Prop where
  outcome : ∀ history conn calls,
    run (step root) (accepted sockfd root trigMode) history = some (conn, calls) →
      (conn.ready mysql).outcome env chunks =
        ((accepted sockfd root trigMode).ready mysql).outcome env chunks
  string : ∀ history conn calls target,
    run (step root) (accepted sockfd root trigMode) history = some (conn, calls) →
      (conn.ready mysql).asked chunks = some target → target.ReadsString →
        target.checkState = .content

/-- A request that reads `m_string` and has no body gets the text of an earlier one. -/
theorem not_independent_of_empty {sockfd : Int} {root : List UInt8} {trigMode : Int}
    {mysql : Option Nat} {env : Env} {chunks : List (List UInt8)} {target : HttpConn}
    (isAsked : ((accepted sockfd root trigMode).ready mysql).asked chunks = some target)
    (reads : target.ReadsString) (empty : target.contentLength = 0) :
    ¬Independent sockfd root trigMode mysql env chunks := by
  rintro ⟨same, _⟩
  have notBody : target.checkState ≠ .content := fun body =>
    (asked_content_iff isAsked).mp body empty
  obtain ⟨conn, calls, text, ran, left⟩ := string_survives sockfd root trigMode
  have served : (accepted sockfd root trigMode).docRoot = root := rfl
  have texts := congrArg Outcome.bodyText (same _ conn calls ran)
  rw [ready_eq_withSurvivors sockfd trigMode mysql (run_docRoot served ran)] at texts
  simp only [outcome, asked_withSurvivors, isAsked, Option.map_some, Option.bind_some] at texts
  -- The used slot has the text of its history there, the new one the null pointer.
  have onNew : target.bodyText = none := by
    rw [bodyText, if_pos reads, asked_string isAsked notBody]
    rfl
  have onUsed : (target.withSurvivors (target.handed conn.survivors)).bodyText =
      some (target.str text) := by
    have readsToo : (target.withSurvivors (target.handed conn.survivors)).ReadsString := reads
    have string : (target.withSurvivors (target.handed conn.survivors)).string = some text := by
      change (if target.checkState = .content then target.string else conn.string) = some text
      rw [if_neg notBody, left]
    rw [bodyText, if_pos readsToo, string]
    rfl
  rw [onNew, onUsed] at texts
  contradiction

/-- What an earlier request left in `m_string` is read by a request for a form or a diagnosis
that declares no body, and by no other. -/
theorem independent_iff (sockfd : Int) (root : List UInt8) (trigMode : Int) (mysql : Option Nat)
    (env : Env) (chunks : List (List UInt8)) :
    Independent sockfd root trigMode mysql env chunks ↔
      ∀ target, ((accepted sockfd root trigMode).ready mysql).asked chunks = some target →
        target.ReadsString → target.contentLength ≠ 0 := by
  constructor
  · intro independent target isAsked reads empty
    exact not_independent_of_empty isAsked reads empty independent
  · intro declared
    have own : ((accepted sockfd root trigMode).ready mysql).ReadsOwnBody chunks :=
      fun target isAsked reads => (asked_content_iff isAsked).mpr (declared target isAsked reads)
    have served : (accepted sockfd root trigMode).docRoot = root := rfl
    constructor
    · intro history conn calls ran
      rw [ready_eq_withSurvivors sockfd trigMode mysql (run_docRoot served ran)]
      simp only [outcome, Outcome.mk.injEq]
      exact ⟨bodyText_withSurvivors conn.survivors own,
        processReads_withSurvivors conn.survivors env (.of_ne nofun) own⟩
    · intro history conn calls target ran isAsked reads
      rw [ready_eq_withSurvivors sockfd trigMode mysql (run_docRoot served ran),
        asked_withSurvivors] at isAsked
      obtain ⟨unused, onNew, rfl⟩ := Option.map_eq_some_iff.mp isAsked
      exact own unused onNew reads

/-- A login without a body logs in with what an earlier request left. -/
theorem not_independent_login :
    ¬Independent 7 (ascii "/root") 0 none Env.blank [ascii "POST /2 HTTP/1.1\r\n\r\n"] := by
  have facts : (((accepted 7 (ascii "/root") 0).ready none).asked
      [ascii "POST /2 HTTP/1.1\r\n\r\n"]).map
        (fun target => (decide target.ReadsString, target.contentLength)) = some (true, 0) := by
    decide +kernel
  obtain ⟨target, isAsked, facts⟩ := Option.map_eq_some_iff.mp facts
  rw [Prod.mk.injEq, decide_eq_true_iff] at facts
  exact not_independent_of_empty isAsked facts.1 facts.2

end HttpConn

end TimeGANWebServer.Http
