import TimeGANWebServer.Http.DoRequest
import TimeGANWebServer.Http.Scan

/-!
# Processing a slot

`process_read` with its call of `do_request`, and `process`, in `http/http_conn.cpp`.
An inversion lemma lists what `do_request` can come to.
-/

namespace TimeGANWebServer.Http

open TimeGANWebServer.Support

/-- How the loop of `process_read` ends. -/
def RequestState.readOutcome (request : RequestState) : ReadOutcome :=
  request.processRead.get request.processRead_isSome

/-- What `process` does: the slot, the user table, and the calls on sessions and
descriptors. -/
structure Processed where
  conn : HttpConn
  users : List UInt8 → Option (List UInt8)
  sessions : List SessionCall
  fdCalls : List FdCall

/-- Without a request to handle, `process_read` wants more bytes or finds a bad request. -/
theorem RequestState.readOutcome_code {request next : RequestState} {ret : HttpCode}
    (ended : request.readOutcome = .code ret next) : ret = .noRequest ∨ ret = .badRequest := by
  let Post : ReadOutcome → Prop := fun outcome =>
    ∀ ret next, outcome = .code ret next → ret = .noRequest ∨ ret = .badRequest
  have line : ∀ (state : RequestState) outcome, state.processLine = .done outcome →
      Post outcome := by
    intro state outcome passed ret next same
    subst same
    simp only [processLine] at passed
    split at passed
    · split at passed <;> simp at passed
      exact .inr passed.1.symm
    · split at passed <;> simp at passed
      exact .inr passed.1.symm
    · split at passed <;> simp at passed
  have finishes : ∀ state outcome, True → processPass state = .done outcome → Post outcome := by
    rintro ⟨lineStatus, state⟩ outcome _ passed
    simp only [processPass] at passed
    split at passed
    · exact line _ _ passed
    · split at passed
      · exact line _ _ passed
      · cases passed
        rintro ret next same
        cases same
        exact .inl rfl
  obtain ⟨outcome, returned, post⟩ :=
    @Loop.run_of_invariant _ _ processPass passBound processPass_falls (fun _ => True) Post
      finishes (fun _ _ _ _ => trivial) (.ok, request) trivial
  have same : request.readOutcome = outcome := by
    simp only [readOutcome, processRead, returned, Option.get_some]
  exact post ret next (same ▸ ended)

namespace HttpConn

/-- `http_conn::process_read`. -/
def processRead (conn : HttpConn) (env : Env) : Except Fault Reply :=
  match conn.toRequestState.readOutcome with
  | .code ret request => .ok {
      code := ret
      conn := { conn with toRequestState := request }
      users := env.users
      sessions := [] }
  | .request request => doRequest { conn with toRequestState := request } env
  | .fault fault _ => .error fault

/-- `http_conn::process`.  After a response that does not fit the slot is closed, and
`modfd` is called all the same. -/
def process (conn : HttpConn) (env : Env) : Except Fault Processed :=
  match conn.processRead env with
  | .error fault => .error fault
  | .ok reply =>
      if reply.code = .noRequest then
        .ok {
          conn := reply.conn
          users := reply.users
          sessions := reply.sessions
          fdCalls := [.modfd reply.conn.sockfd .epollin] }
      else
        let written := reply.conn.toResponseState.processWrite reply.conn.linger reply.code
        let conn := { reply.conn with toResponseState := written.2 }
        let closed := if written.1 then (conn, []) else conn.closeConn
        .ok {
          conn := closed.1
          users := reply.users
          sessions := reply.sessions
          fdCalls := closed.2 ++ [.modfd closed.1.sockfd .epollout] }

/-- A slot initialised for a connection that has then sent some bytes. -/
def receiving (sockfd : Int) (root text : List UInt8) : HttpConn :=
  let conn := HttpConn.blank.initFor sockfd root 0
  { conn with toRequestState := conn.toRequestState.receive text }

/-- The slot with a complete request in it, as `do_request` gets it. -/
def requested (conn : HttpConn) : Option HttpConn :=
  match conn.toRequestState.readOutcome with
  | .request request => some { conn with toRequestState := request }
  | _ => none

/-- A completed request was handled by `do_request`, or its text was bad. -/
theorem processRead_cases {conn : HttpConn} {env : Env} {reply : Reply}
    (done : conn.processRead env = .ok reply) (completed : reply.code ≠ .noRequest) :
    (∃ asked, conn.requested = some asked ∧ asked.doRequest env = .ok reply ∧
        asked.toResponseState = conn.toResponseState) ∨
      conn.requested = none ∧ reply.code = .badRequest ∧
        reply.conn.toResponseState = conn.toResponseState := by
  simp only [processRead] at done
  simp only [requested]
  split at done
  case _ ret request ended =>
      cases done
      have bad : ret = .badRequest :=
        (RequestState.readOutcome_code ended).resolve_left completed
      exact .inr ⟨by rw [ended], bad, rfl⟩
  case _ request ended =>
      exact .inl ⟨_, by rw [ended], done, rfl⟩
  case _ => contradiction

/-! ## What `do_request` comes to -/

/-- The byte behind the last slash of the URL. -/
def urlFlag (conn : HttpConn) (url : Int) : Option UInt8 :=
  (strrchr (conn.str url) 47).map fun (slash : Nat) => conn.readBuf (url + slash + 1)

/-- The form data name a user with the right password. -/
def KnownUser (conn : HttpConn) (env : Env) : Prop :=
  ∃ name password, conn.formFields = .ok (name, password) ∧ env.users name = some password

/-- The URL logs a known user in, or logs out. -/
def LogsInOrOut (conn : HttpConn) (env : Env) (url : Int) : Prop :=
  conn.cgi = 1 ∧ conn.urlFlag url = some 50 ∧ conn.KnownUser env ∨ conn.urlFlag url = some 52

/-- The request has a branch of its own: the root page, or a diagnosis. -/
def OwnBranch (conn : HttpConn) (url : Int) : Prop :=
  conn.cgi = 0 ∧ conn.str url = ascii "/" ∨ conn.cgi = 1 ∧ conn.str url = ascii "/diagnose"

/-- The request is answered with a redirect: it needs a session and has none, or it
logs a known user in, or it logs out. -/
def Redirects (conn : HttpConn) (env : Env) : Prop :=
  ∃ url, conn.url = some url ∧
    (conn.Guarded url ∧ (env.checkSession conn.cookie).1 = false ∨
      ¬conn.OwnBranch url ∧ conn.LogsInOrOut env url)

/-- The header lines a redirect can have. -/
def RedirectHeaders (headers : List (List UInt8)) : Prop :=
  headers = notLoggedInHeaders ∨ headers = logoutHeaders ∨
    ∃ token, headers = loginHeaders token

end HttpConn

/-- The file at a path, if it is one that may be served. -/
def Env.readable (env : Env) (path : List UInt8) (checkDir : Bool) : Option File :=
  (env.files path).filter fun file => file.stat.othersRead && !(checkDir && file.stat.isDir)

namespace HttpConn

/-- The file a request names: the page for the root path, or what its URL resolves to. -/
def served (conn : HttpConn) (env : Env) : Option File :=
  conn.url.bind fun url =>
    if conn.cgi = 0 ∧ conn.str url = ascii "/" then
      env.readable (conn.rootFile).realPath false
    else if conn.cgi = 1 ∧ conn.str url = ascii "/diagnose" then
      none
    else
      match conn.resolve env url [] with
      | .ok (.file target _ _) => env.readable target.realPath true
      | _ => none

/-- The CSV file generated for a request, if it asks for a diagnosis and gets one. -/
def generated (conn : HttpConn) (env : Env) : Option (List UInt8) :=
  conn.url.bind fun url =>
    if conn.cgi = 1 ∧ conn.str url = ascii "/diagnose" then
      conn.string.bind fun text =>
        match diagnoseRequest env.json env.models (conn.str text) with
        | .ok (.csv bytes) => some bytes
        | _ => none
    else
      none

/-- The calls of the session manager the login check makes. -/
def loginCalls (conn : HttpConn) (env : Env) : List SessionCall :=
  match conn.url with
  | none => []
  | some url => if conn.Guarded url then (env.checkSession conn.cookie).2 else []

end HttpConn

/-- Two states of a slot that serve one connection in the same way. -/
structure HttpConn.SameSlot (next conn : HttpConn) : Prop where
  sockfd : next.sockfd = conn.sockfd
  linger : next.linger = conn.linger
  state : next.state = conn.state

/-- A reply with a redirect behind what was in the write buffer. -/
structure Reply.IsRedirect (reply : Reply) (conn : HttpConn) : Prop where
  slot : reply.conn.SameSlot conn
  code : reply.code = .redirectRequest
  response : ∃ headers, HttpConn.RedirectHeaders headers ∧
    reply.conn.toResponseState = conn.toResponseState.addRedirect headers

/-- A reply that leaves the write buffer to `process_write`: a page for an error, the
file the request names with its status and mapping, or the answer to a diagnosis. -/
structure Reply.IsPage (reply : Reply) (env : Env) (conn : HttpConn) : Prop where
  slot : reply.conn.SameSlot conn
  writeBuf : reply.conn.writeBuf = conn.writeBuf
  bytesHaveSend : reply.conn.bytesHaveSend = conn.bytesHaveSend
  code : reply.code = .noResource ∨ reply.code = .forbiddenRequest ∨ reply.code = .badRequest ∨
    reply.code = .fileRequest ∨ reply.code = .diagnoseRequest ∨ reply.code = .diagnoseCsvRequest
  file : reply.code = .fileRequest → ∃ file : File, conn.served env = some file ∧
    reply.conn.fileStat = file.stat ∧ reply.conn.fileAddress = env.mapFile file
  served : ∀ file, conn.served env = some file → reply.code = .fileRequest
  json : reply.code = .diagnoseRequest → (0 : UInt8) ∉ reply.conn.responseJson
  csv : reply.code = .diagnoseCsvRequest → conn.generated env = some reply.conn.responseCsv
  generated : ∀ bytes, conn.generated env = some bytes → reply.code = .diagnoseCsvRequest
  sessions : reply.sessions = conn.loginCalls env

namespace HttpConn

/-- Serving the file a request names. -/
theorem serveFile_isPage {conn target : HttpConn} {env : Env} {checkDir : Bool}
    {sessions : List SessionCall} (users : List UInt8 → Option (List UInt8))
    (kept : target.toResponseState = conn.toResponseState) (slot : target.SameSlot conn)
    (served : conn.served env = env.readable target.realPath checkDir)
    (notGenerated : conn.generated env = none) (calls : sessions = conn.loginCalls env) :
    (target.serveFile env checkDir users sessions).IsPage env conn := by
  have writeBuf : target.writeBuf = conn.writeBuf := by rw [kept]
  have haveSend : target.bytesHaveSend = conn.bytesHaveSend := by rw [kept]
  have noBytes : ∀ code : HttpCode, ∀ bytes,
      conn.generated env = some bytes → code = .diagnoseCsvRequest := by
    rw [notGenerated]
    exact fun _ _ => nofun
  simp only [serveFile]
  cases found : env.files target.realPath with
  | none =>
      have nothing : conn.served env = none := by
        rw [served, Env.readable, found, Option.filter_none]
      exact ⟨slot, writeBuf, haveSend, .inl rfl, nofun, by rw [nothing]; exact fun _ => nofun,
        nofun, nofun, noBytes _, calls⟩
  | some file =>
      have filtered : conn.served env = if file.stat.othersRead && !(checkDir && file.stat.isDir)
          then some file else none := by
        rw [served, Env.readable, found, Option.filter_some]
      have located : ({ target with fileStat := file.stat } : HttpConn).SameSlot conn :=
        ⟨slot.sockfd, slot.linger, slot.state⟩
      by_cases unreadable : file.stat.othersRead = false
      · have nothing : conn.served env = none := by
          rw [filtered, if_neg (by simp [unreadable])]
        simp only [if_pos unreadable]
        exact ⟨located, writeBuf, haveSend, .inr (.inl rfl), nofun,
          by rw [nothing]; exact fun _ => nofun, nofun, nofun, noBytes _, calls⟩
      · by_cases directory : (checkDir && file.stat.isDir) = true
        · have nothing : conn.served env = none := by
            rw [filtered, if_neg (by simp [directory])]
          simp only [if_neg unreadable, if_pos directory]
          exact ⟨located, writeBuf, haveSend, .inr (.inr (.inl rfl)), nofun,
            by rw [nothing]; exact fun _ => nofun, nofun, nofun, noBytes _, calls⟩
        · have something : conn.served env = some file := by
            rw [filtered, if_pos (by simp [unreadable, directory])]
          simp only [if_neg unreadable, if_neg directory]
          exact ⟨⟨slot.sockfd, slot.linger, slot.state⟩, writeBuf, haveSend,
            .inr (.inr (.inr (.inl rfl))), fun _ => ⟨file, something, rfl, rfl⟩, fun _ _ => rfl,
              nofun, nofun, noBytes _, calls⟩

theorem rootPage_isPage {conn : HttpConn} {env : Env} {url : Int} {sessions : List SessionCall}
    {reply : Reply} (found : conn.url = some url) (get : conn.cgi = 0)
    (root : conn.str url = ascii "/") (calls : sessions = conn.loginCalls env)
    (done : conn.rootPage env sessions = .ok reply) : reply.IsPage env conn := by
  simp only [rootPage] at done
  split at done
  · contradiction
  · cases done
    have notPost : conn.cgi ≠ 1 := by
      rw [get]
      decide
    have served : conn.served env = env.readable (conn.rootFile).realPath false := by
      simp only [HttpConn.served, found, Option.bind_some, if_pos (And.intro get root)]
    have notGenerated : conn.generated env = none := by
      simp only [generated, found, Option.bind_some, notPost, false_and, if_false]
    exact @serveFile_isPage conn (conn.rootFile) env false sessions env.users rfl ⟨rfl, rfl, rfl⟩
      served
      notGenerated calls

theorem diagnosePost_isPage {conn : HttpConn} {env : Env} {url : Int}
    {sessions : List SessionCall} {reply : Reply} (found : conn.url = some url)
    (diagnosis : conn.cgi = 1 ∧ conn.str url = ascii "/diagnose")
    (calls : sessions = conn.loginCalls env)
    (done : conn.diagnosePost env sessions = .ok reply) : reply.IsPage env conn := by
  have notRoot : ¬(conn.cgi = 0 ∧ conn.str url = ascii "/") := by
    rw [diagnosis.1]
    exact fun root => absurd root.1 (by decide)
  have nothing : conn.served env = none := by
    simp only [HttpConn.served, found, Option.bind_some, if_neg notRoot, if_pos diagnosis]
  have notServed : ∀ code : HttpCode, ∀ file,
      conn.served env = some file → code = .fileRequest := by
    rw [nothing]
    exact fun _ _ => nofun
  simp only [diagnosePost] at done
  split at done
  · contradiction
  case _ text hasText =>
      have generated : conn.generated env =
          match diagnoseRequest env.json env.models (conn.str text) with
          | .ok (.csv bytes) => some bytes
          | _ => none := by
        simp only [HttpConn.generated, found, Option.bind_some, if_pos diagnosis, hasText]
      split at done
      · contradiction
      case _ bytes answered =>
          cases done
          have notGenerated : conn.generated env = none := by
            rw [generated, answered]
          exact ⟨⟨rfl, rfl, rfl⟩, rfl, rfl, .inr (.inr (.inr (.inr (.inl rfl)))), nofun,
            notServed _, fun _ => diagnoseRequest_json_nul answered, nofun,
            by rw [notGenerated]; exact fun _ => nofun, calls⟩
      case _ bytes answered =>
          cases done
          have isGenerated : conn.generated env = some bytes := by
            rw [generated, answered]
          exact ⟨⟨rfl, rfl, rfl⟩, rfl, rfl, .inr (.inr (.inr (.inr (.inr rfl)))), nofun,
            notServed _, nofun, fun _ => isGenerated, fun _ _ => rfl, calls⟩

/-- Rewriting the URL keeps everything but the read buffer. -/
theorem setUrl_keeps {conn next : HttpConn} {url : Int} {page : List UInt8}
    (set : conn.setUrl url page = .ok next) :
    next = { conn with readBuf := conn.readBuf.store url (page ++ [0]) } := by
  simp only [setUrl] at set
  split at set
  · contradiction
  · cases set
    rfl

/-- The URL of a slot is rewritten to a page, none of which logs out. -/
def Rewritten (conn : HttpConn) (url : Int) (next : HttpConn) : Prop :=
  ∃ page, (52 : UInt8) ∉ page ++ [0] ∧
    next = { conn with readBuf := conn.readBuf.store url (page ++ [0]) }

theorem rewritten_of_setUrl {conn next : HttpConn} {url : Int} {page : List UInt8}
    (absent : (52 : UInt8) ∉ page ++ [0]) (set : conn.setUrl url page = .ok next) :
    conn.Rewritten url next :=
  ⟨page, absent, setUrl_keeps set⟩

/-- Registration goes on with a rewritten URL. -/
theorem register_rewrites {conn : HttpConn} {env : Env} {url : Int} {name password : List UInt8}
    {outcome : FormOutcome} (done : conn.register env url name password = .ok outcome) :
    ∃ next users, outcome = .goOn next users ∧ conn.Rewritten url next := by
  simp only [register] at done
  split at done
  · contradiction
  · split at done
    · split at done
      · contradiction
      · split at done
        · contradiction
        case _ next set =>
            cases done
            refine ⟨next, _, rfl, rewritten_of_setUrl ?_ set⟩
            split <;> decide
    · split at done
      · contradiction
      case _ next set =>
          cases done
          exact ⟨next, _, rfl, rewritten_of_setUrl (by decide) set⟩

/-- Login redirects with the right password, and goes on with a rewritten URL without. -/
theorem login_cases {conn : HttpConn} {env : Env} {url : Int} {name password : List UInt8}
    {outcome : FormOutcome} (done : conn.login env url name password = .ok outcome) :
    (env.users name = some password ∧ ∃ next, outcome = .redirect next name ∧
        next.SameSlot conn ∧
        next.toResponseState = conn.toResponseState.addRedirect (loginHeaders env.sessionToken)) ∨
      env.users name ≠ some password ∧
        ∃ next users, outcome = .goOn next users ∧ conn.Rewritten url next := by
  simp only [login] at done
  split at done
  case isTrue matching =>
      cases done
      exact .inl ⟨matching, _, rfl, ⟨rfl, rfl, rfl⟩, rfl⟩
  case isFalse differing =>
      split at done
      · contradiction
      case _ next set =>
          cases done
          exact .inr ⟨differing, next, _, rfl, rewritten_of_setUrl (by decide) set⟩

/-- The form branch: a known user logs in and is redirected, or it goes on with a
rewritten URL. -/
theorem form_cases {conn : HttpConn} {env : Env} {url p : Int} {outcome : FormOutcome}
    (done : conn.form env url p = .ok outcome) :
    (conn.readBuf (p + 1) ≠ 51 ∧ conn.KnownUser env ∧ ∃ next username,
        outcome = .redirect next username ∧ next.SameSlot conn ∧
          next.toResponseState =
            conn.toResponseState.addRedirect (loginHeaders env.sessionToken)) ∨
      ((conn.readBuf (p + 1) ≠ 51 → ¬conn.KnownUser env) ∧ ∃ realFile next users,
        outcome = .goOn next users ∧ Rewritten { conn with realFile := realFile } url next) := by
  simp only [form] at done
  split at done
  · contradiction
  · split at done
    · contradiction
    case _ name password fields =>
        have sameFields : conn.formFields = .ok (name, password) := fields
        split at done
        case isTrue registers =>
            obtain ⟨next, users, same, rewritten⟩ := register_rewrites done
            exact .inr ⟨fun flag => absurd registers flag, _, next, users, same, rewritten⟩
        case isFalse logsIn =>
            rcases login_cases done with
              ⟨matching, next, same, slot, response⟩ | ⟨differing, next, users, same, rewritten⟩
            · exact .inl ⟨logsIn, ⟨name, password, sameFields, matching⟩, next, _, same,
                ⟨slot.sockfd, slot.linger, slot.state⟩, response⟩
            · refine .inr ⟨fun _ => ?_, _, next, users, same, rewritten⟩
              rintro ⟨otherName, otherPassword, otherFields, matching⟩
              rw [sameFields] at otherFields
              cases otherFields
              exact differing matching

/-- Behind the form branch: a logout, or the name of a file. -/
theorem route_cases {conn : HttpConn} {env : Env} {url p : Int}
    {users : List UInt8 → Option (List UInt8)} {sessions : List SessionCall} {resolved : Resolved}
    (done : conn.route env url p users sessions = .ok resolved) :
    (conn.readBuf (p + 1) = 52 ∧ ∃ reply, resolved = .redirect reply ∧
        reply.IsRedirect conn) ∨
      conn.readBuf (p + 1) ≠ 52 ∧ ∃ realFile,
        resolved = .file { conn with realFile := realFile } users sessions := by
  simp only [route] at done
  split at done
  case isTrue flag =>
      cases done
      exact .inl ⟨flag, _, rfl, ⟨⟨rfl, rfl, rfl⟩, rfl, _, .inr (.inl rfl), rfl⟩⟩
  case isFalse flag =>
      split at done
      · split at done
        · contradiction
        · cases done
          exact .inr ⟨flag, _, rfl⟩
      · cases done
        exact .inr ⟨flag, _, rfl⟩

/-- A request without a branch of its own: a redirect for a login or a logout, or the
name of a file. -/
theorem resolve_cases {conn : HttpConn} {env : Env} {url : Int} {sessions : List SessionCall}
    {resolved : Resolved} (done : conn.resolve env url sessions = .ok resolved) :
    (conn.LogsInOrOut env url ∧ ∃ reply, resolved = .redirect reply ∧
        reply.IsRedirect conn) ∨
      ¬conn.LogsInOrOut env url ∧ ∃ target users sessions,
        resolved = .file target users sessions ∧
          target.toResponseState = conn.toResponseState ∧ target.SameSlot conn := by
  simp only [resolve] at done
  split at done
  · contradiction
  · split at done
    · contradiction
    case _ slash found =>
        have flag : conn.urlFlag url = some (conn.readBuf (url + slash + 1)) := by
          simp only [urlFlag, found, Option.map_some]
        split at done
        case isTrue isForm =>
            split at done
            · contradiction
            case _ next username formed =>
                cases done
                rcases form_cases formed with
                  ⟨notRegister, known, _, _, same, slot, response⟩ | ⟨_, _, _, _, same, _⟩
                · cases same
                  refine .inl ⟨.inl ⟨isForm.1, ?_, known⟩, _, rfl,
                    ⟨⟨slot.sockfd, slot.linger, slot.state⟩, rfl, _, .inr (.inr ⟨_, rfl⟩),
                      response⟩⟩
                  rw [flag, Option.some.injEq]
                  exact isForm.2.resolve_right notRegister
                · cases same
            case _ next users formed =>
                rcases form_cases formed with
                  ⟨_, _, _, _, same, _⟩ | ⟨unknown, realFile, _, _, same, page, absent, rewritten⟩
                · cases same
                · cases same
                  have before : conn.readBuf (url + slash + 1) ≠ 52 := by
                    rcases isForm.2 with login | register
                    · exact fun logout => absurd (login.symm.trans logout) (by decide)
                    · exact fun logout => absurd (register.symm.trans logout) (by decide)
                  have still : next.readBuf (url + slash + 1) ≠ 52 := by
                    rw [rewritten]
                    exact Memory.store_ne absent before
                  rcases route_cases done with ⟨logout, _⟩ | ⟨_, realFile, file⟩
                  · exact absurd logout still
                  · refine .inr ⟨?_, _, _, _, file, by rw [rewritten],
                      by rw [rewritten]; exact ⟨rfl, rfl, rfl⟩⟩
                    rintro (⟨_, login, known⟩ | logout)
                    · rw [flag, Option.some.injEq] at login
                      exact unknown
                        (fun register => absurd (login.symm.trans register) (by decide)) known
                    · rw [flag, Option.some.injEq] at logout
                      exact before logout
        case isFalse notForm =>
            rcases route_cases done with ⟨logout, reply, same, redirect⟩ | ⟨other, realFile, file⟩
            · exact .inl ⟨.inr (by rw [flag]; exact congrArg some logout), reply, same,
                ⟨⟨redirect.slot.sockfd, redirect.slot.linger, redirect.slot.state⟩, redirect.code,
                  redirect.response⟩⟩
            · refine .inr ⟨?_, _, _, _, file, rfl, ⟨rfl, rfl, rfl⟩⟩
              rintro (⟨post, login, _⟩ | logout)
              · rw [flag, Option.some.injEq] at login
                exact notForm ⟨post, .inl login⟩
              · rw [flag, Option.some.injEq] at logout
                exact other logout

/-- The session calls made before are passed on with the name of a file. -/
theorem route_sessions {conn target : HttpConn} {env : Env} {url p : Int}
    {users after : List UInt8 → Option (List UInt8)} {sessions last : List SessionCall}
    (done : conn.route env url p users sessions = .ok (.file target after last)) :
    last = sessions ∧ conn.route env url p users [] = .ok (.file target after []) := by
  simp only [route] at done ⊢
  split at done
  · simp at done
  case isFalse flag =>
      rw [if_neg flag]
      split at done
      case _ page shortcut =>
          split at done
          · contradiction
          case isFalse fits =>
              cases done
              simp only [if_neg fits, and_self]
      case _ shortcut =>
          cases done
          simp only [and_self]

theorem resolve_sessions {conn target : HttpConn} {env : Env} {url : Int}
    {after : List UInt8 → Option (List UInt8)} {sessions last : List SessionCall}
    (done : conn.resolve env url sessions = .ok (.file target after last)) :
    last = sessions ∧ conn.resolve env url [] = .ok (.file target after []) := by
  simp only [resolve] at done ⊢
  split at done
  · contradiction
  case isFalse fits =>
      rw [if_neg fits]
      split at done
      · contradiction
      case _ slash found =>
          split at done
          case isTrue isForm =>
              split at done
              · contradiction
              · simp at done
              case _ next users formed =>
                  rw [if_pos isForm]
                  exact route_sessions done
          case isFalse notForm =>
              rw [if_neg notForm]
              exact route_sessions done

/-- Static files, forms and the logout reply with a redirect or with a page. -/
theorem staticFiles_cases {conn : HttpConn} {env : Env} {url : Int} {sessions : List SessionCall}
    {reply : Reply} (found : conn.url = some url) (notOwn : ¬conn.OwnBranch url)
    (calls : sessions = conn.loginCalls env)
    (done : conn.staticFiles env url sessions = .ok reply) :
    (conn.LogsInOrOut env url ∧ reply.IsRedirect conn) ∨
      ¬conn.LogsInOrOut env url ∧ reply.IsPage env conn := by
  have notRoot : ¬(conn.cgi = 0 ∧ conn.str url = ascii "/") := fun root => notOwn (.inl root)
  have notDiagnosis : ¬(conn.cgi = 1 ∧ conn.str url = ascii "/diagnose") :=
    fun diagnosis => notOwn (.inr diagnosis)
  simp only [staticFiles] at done
  split at done
  · contradiction
  case _ redirect resolved =>
      cases done
      rcases resolve_cases resolved with ⟨logs, _, same, isRedirect⟩ | ⟨_, _, _, _, same, _⟩
      · cases same
        exact .inl ⟨logs, isRedirect⟩
      · cases same
  case _ target users last resolved =>
      cases done
      obtain ⟨sameCalls, fresh⟩ := resolve_sessions resolved
      have served : conn.served env = env.readable target.realPath true := by
        simp only [HttpConn.served, found, Option.bind_some, if_neg notRoot, if_neg notDiagnosis,
          fresh]
      have notGenerated : conn.generated env = none := by
        simp only [HttpConn.generated, found, Option.bind_some, if_neg notDiagnosis]
      rcases resolve_cases resolved with
        ⟨_, _, same, _⟩ | ⟨logsNot, _, _, _, same, response, slot⟩
      · cases same
      · cases same
        exact .inr ⟨logsNot,
          serveFile_isPage users response slot served notGenerated (sameCalls.trans calls)⟩

/-- Behind the login check, a request that passed it and is not for the root page. -/
theorem afterLogin_cases {conn : HttpConn} {env : Env} {url : Int} {sessions : List SessionCall}
    {reply : Reply} (found : conn.url = some url)
    (checked : ¬(conn.Guarded url ∧ (env.checkSession conn.cookie).1 = false))
    (notRoot : ¬(conn.cgi = 0 ∧ conn.str url = ascii "/"))
    (calls : sessions = conn.loginCalls env)
    (done : conn.afterLogin env url sessions = .ok reply) :
    (conn.Redirects env ∧ reply.IsRedirect conn) ∨
      ¬conn.Redirects env ∧ reply.IsPage env conn := by
  simp only [afterLogin] at done
  split at done
  case isTrue diagnosis =>
      refine .inr ⟨?_, diagnosePost_isPage found diagnosis calls done⟩
      rintro ⟨other, sameUrl, refused | ⟨notOwn, _⟩⟩
      · rw [found, Option.some.injEq] at sameUrl
        exact checked (sameUrl ▸ refused)
      · rw [found, Option.some.injEq] at sameUrl
        exact notOwn (sameUrl ▸ .inr diagnosis)
  case isFalse notDiagnosis =>
      have notOwn : ¬conn.OwnBranch url := fun own => own.elim notRoot notDiagnosis
      rcases staticFiles_cases found notOwn calls done with
        ⟨logs, isRedirect⟩ | ⟨logsNot, isPage⟩
      · exact .inl ⟨⟨url, found, .inr ⟨notOwn, logs⟩⟩, isRedirect⟩
      · refine .inr ⟨?_, isPage⟩
        rintro ⟨other, sameUrl, refused | ⟨_, logs⟩⟩
        · rw [found, Option.some.injEq] at sameUrl
          exact checked (sameUrl ▸ refused)
        · rw [found, Option.some.injEq] at sameUrl
          exact logsNot (sameUrl ▸ logs)

/-- What `do_request` comes to: a redirect, or a page for `process_write`. -/
theorem doRequest_cases {conn : HttpConn} {env : Env} {reply : Reply}
    (done : conn.doRequest env = .ok reply) :
    (conn.Redirects env ∧ reply.IsRedirect conn) ∨
      ¬conn.Redirects env ∧ reply.IsPage env conn := by
  simp only [doRequest] at done
  split at done
  · contradiction
  case _ url found =>
      split at done
      case isTrue guarded =>
          have calls : (env.checkSession conn.cookie).2 = conn.loginCalls env := by
            simp only [loginCalls, found, if_pos guarded]
          split at done
          case _ sessions refused =>
              cases done
              exact .inl ⟨⟨url, found, .inl ⟨guarded, by rw [refused]⟩⟩,
                ⟨⟨rfl, rfl, rfl⟩, rfl, _, .inl rfl, rfl⟩⟩
          case _ sessions valid =>
              rw [valid] at calls
              have passed : ¬(conn.Guarded url ∧ (env.checkSession conn.cookie).1 = false) := by
                rintro ⟨_, refused⟩
                rw [valid] at refused
                contradiction
              split at done
              case isTrue root =>
                  refine .inr ⟨?_, rootPage_isPage found guarded.1 root calls done⟩
                  rintro ⟨other, sameUrl, refused | ⟨notOwn, _⟩⟩
                  · rw [found, Option.some.injEq] at sameUrl
                    exact passed (sameUrl ▸ refused)
                  · rw [found, Option.some.injEq] at sameUrl
                    exact notOwn (sameUrl ▸ .inl ⟨guarded.1, root⟩)
              case isFalse notRoot =>
                  exact afterLogin_cases found passed (fun root => notRoot root.2) calls done
      case isFalse open_ =>
          have calls : [] = conn.loginCalls env := by
            simp only [loginCalls, found, if_neg open_]
          exact afterLogin_cases found (fun refused => open_ refused.1)
            (fun root => open_ ⟨root.1, .inl root.2⟩) calls done

/-! ## What `process` comes to -/

/-- The response to the request in a slot does not fit. -/
def Overflows (conn : HttpConn) (env : Env) : Prop :=
  ∃ reply, conn.processRead env = .ok reply ∧ reply.code ≠ .noRequest ∧
    (reply.conn.toResponseState.processWrite reply.conn.linger reply.code).1 = false

instance decidableOverflows (conn : HttpConn) (env : Env) : Decidable (conn.Overflows env) :=
  match read : conn.processRead env with
  | .ok reply => decidable_of_iff (reply.code ≠ .noRequest ∧
      (reply.conn.toResponseState.processWrite reply.conn.linger reply.code).1 = false)
      ⟨fun unfit => ⟨reply, read, unfit⟩, fun ⟨other, same, unfit⟩ => by
        rw [read] at same
        cases same
        exact unfit⟩
  | .error _ => .isFalse fun ⟨_, same, _⟩ => by
      rw [read] at same
      contradiction

/-- `process_read` leaves a slot with its connection. -/
theorem processRead_slot {conn : HttpConn} {env : Env} {reply : Reply}
    (done : conn.processRead env = .ok reply) :
    reply.conn.sockfd = conn.sockfd ∧ reply.conn.state = conn.state := by
  simp only [processRead] at done
  split at done
  · cases done
    exact ⟨rfl, rfl⟩
  · rcases doRequest_cases done with ⟨_, redirect⟩ | ⟨_, page⟩
    · exact ⟨redirect.slot.sockfd, redirect.slot.state⟩
    · exact ⟨page.slot.sockfd, page.slot.state⟩
  · contradiction

/-- `process` ends with a call of `modfd`, in front of which it closes the slot if the
response does not fit. -/
theorem process_cases {conn : HttpConn} {env : Env} {finished : Processed}
    (done : conn.process env = .ok finished) :
    finished.conn.state = conn.state ∧
      ((finished.conn.sockfd = conn.sockfd ∧
          ∃ interest, finished.fdCalls = [.modfd conn.sockfd interest]) ∨
        conn.Overflows env ∧ finished.conn.sockfd = -1 ∧
          finished.fdCalls = [.closeConn conn.sockfd, .modfd (-1) .epollout]) := by
  simp only [process] at done
  split at done
  · contradiction
  case _ reply isReply =>
      obtain ⟨sockfd, state⟩ := processRead_slot isReply
      split at done
      · cases done
        exact ⟨state, .inl ⟨sockfd, .epollin, by rw [sockfd]⟩⟩
      case isFalse completed =>
          cases done
          cases fits : (reply.conn.toResponseState.processWrite reply.conn.linger reply.code).1 with
          | true => exact ⟨state, .inl ⟨sockfd, .epollout, by simp [sockfd]⟩⟩
          | false =>
              by_cases isOpen : reply.conn.sockfd = -1
              · simp only [closeConn, isOpen, ne_eq, not_true_eq_false, if_false]
                exact ⟨state, .inl ⟨by rw [← sockfd, isOpen]; rfl, .epollout,
                  by rw [← sockfd, isOpen]; rfl⟩⟩
              · simp only [closeConn, isOpen, ne_eq, not_false_eq_true, if_true]
                exact ⟨state, .inr ⟨⟨reply, isReply, completed, fits⟩, rfl, by rw [← sockfd]; rfl⟩⟩

end HttpConn

end TimeGANWebServer.Http
