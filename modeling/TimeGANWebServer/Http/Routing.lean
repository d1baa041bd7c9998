import TimeGANWebServer.Http.Accounts
import TimeGANWebServer.Http.DocRoot

/-!
# Routes

The documented routes are paths.  `do_request` looks at the byte behind the last slash of
the URL instead, and copies the URL into a buffer of a fixed size.
-/

namespace TimeGANWebServer.Http

open TimeGANWebServer.Support

/-! ## The table -/

/-- The paths of the pages that are reached by a digit. -/
def shortcutPaths : List (List UInt8) :=
  [ascii "/0", ascii "/1", ascii "/5", ascii "/6", ascii "/7"]

/-- The pages they lead to. -/
def shortcutPages : List (List UInt8) :=
  [ascii "/register.html", ascii "/log.html", ascii "/picture.html", ascii "/video.html",
    ascii "/fans.html"]

/-- The byte behind the last slash of a path, or a NUL where the path ends there. -/
def digitOf (path : List UInt8) : UInt8 :=
  match strrchr path 47 with
  | some slash => path.getD (slash + 1) 0
  | none => 0

namespace HttpConn

/-- The slot asks for a path: `m_url` is this path with its NUL, and nothing has been put into
`m_real_file`. -/
structure Asks (conn : HttpConn) (url : Int) (path : List UInt8) : Prop where
  found : conn.url = some url
  text : conn.str url = path
  nul : conn.readBuf (url + path.length) = 0
  slash : path.head? = some 47
  rootText : (0 : UInt8) ∉ conn.docRoot
  fresh : conn.realFile = fun _ => 0

/-- The table has a route for the method and the path. -/
def InTable (conn : HttpConn) (path : List UInt8) : Prop :=
  path = ascii "/" ∨ path = ascii "/diagnose" ∨ path = ascii "/4" ∨ path ∈ shortcutPaths ∨
    conn.cgi = 1 ∧ (path = ascii "/2" ∨ path = ascii "/3")

instance decidableInTable (conn : HttpConn) (path : List UInt8) : Decidable (conn.InTable path) :=
  inferInstanceAs (Decidable (_ ∨ _))

/-- The path fits behind the root in `m_real_file`, and its last segment begins with none of the
digits that `do_request` acts on. -/
structure Plain (conn : HttpConn) (path : List UInt8) : Prop where
  fits : conn.docRoot.length + path.length < filenameLen
  noLogout : digitOf path ≠ 52
  noShortcut : shortcutPage (digitOf path) = none
  noForm : conn.cgi = 1 → digitOf path ≠ 50 ∧ digitOf path ≠ 51

end HttpConn

/-- A reply serves the file at a path, if there is one that everyone may read, and is an error
otherwise. -/
def Reply.Serves (reply : Reply) (env : Env) (path : List UInt8) : Prop :=
  match env.readable path true with
  | some file => reply.code = .fileRequest ∧ reply.conn.fileStat = file.stat ∧
      reply.conn.fileAddress = env.mapFile file
  | none => reply.code = .noResource ∨ reply.code = .forbiddenRequest ∨ reply.code = .badRequest

/-- What the table has a route for is done for this route only: a login, a registration, a logout,
a redirect that is not for the login check, and a page reached by a digit. -/
structure Reply.Routed (reply : Reply) (env : Env) (conn : HttpConn) (path : List UInt8) :
    Prop where
  login : ∀ name, .create name ∈ reply.sessions → conn.cgi = 1 ∧ path = ascii "/2"
  registration : reply.users ≠ env.users → conn.cgi = 1 ∧ path = ascii "/3"
  logout : ∀ token, .remove token ∈ reply.sessions → path = ascii "/4"
  redirect : reply.code = .redirectRequest → path = ascii "/4" ∨
    conn.cgi = 1 ∧ path = ascii "/2" ∨ conn.cgi = 0 ∧ (path = ascii "/" ∨ path = ascii "/diagnose")
  shortcut : reply.code = .fileRequest → ∀ page ∈ shortcutPages,
    reply.conn.realPath = conn.docRoot ++ page →
      path ∈ shortcutPaths ∨ path = page ∨ conn.cgi = 1 ∧ path = ascii "/3"

/-- A request for a path is routed by the table: every reply is, and any other path is that of a
file, with nothing done to sessions and accounts. -/
structure HttpConn.Routes (conn : HttpConn) (env : Env) (path : List UInt8) : Prop where
  table : ∀ reply, conn.doRequest env = .ok reply → reply.Routed env conn path
  file : ¬conn.InTable path → ∃ reply, conn.doRequest env = .ok reply ∧
    reply.users = env.users ∧ reply.sessions = [] ∧ reply.Serves env (conn.docRoot ++ path)

/-! ## The byte `do_request` looks at -/

/-- A path that begins with a slash has a last one. -/
theorem strrchr_of_head {path : List UInt8} (slash : path.head? = some 47) :
    ∃ last, strrchr path 47 = some last := by
  obtain ⟨rest, rfl⟩ := List.head?_eq_some_iff.mp slash
  simp only [strrchr]
  split
  · exact ⟨_, rfl⟩
  · exact ⟨0, rfl⟩

theorem strrchr_lt {text : List UInt8} {byte : UInt8} {offset : Nat}
    (found : strrchr text byte = some offset) : offset < text.length := by
  induction text generalizing offset with
  | nil => contradiction
  | cons head text ih =>
      simp only [strrchr] at found
      split at found
      case _ last behind =>
          cases found
          exact Nat.succ_lt_succ (ih behind)
      · split at found
        · cases found
          exact Nat.succ_pos _
        · contradiction

namespace HttpConn

variable {conn : HttpConn} {url : Int} {path : List UInt8}

theorem Asks.urlFlag (asks : conn.Asks url path) : conn.urlFlag url = some (digitOf path) := by
  obtain ⟨last, found⟩ := strrchr_of_head asks.slash
  have inside := strrchr_lt found
  have holds := Memory.holds_cstring readBufferSize conn.readBuf url
  have text : conn.readBuf.cstring readBufferSize url = path := asks.text
  rw [text] at holds
  simp only [HttpConn.urlFlag, asks.text, found, Option.map_some, digitOf, Option.some.injEq]
  by_cases more : last + 1 < path.length
  · have byte := holds (last + 1) more
    rw [List.getD_eq_getElem?_getD, List.getElem?_eq_getElem more, Option.getD_some, ← byte]
    congr 1
    omega
  · have ends : last + 1 = path.length := by omega
    have nul := asks.nul
    rw [← ends] at nul
    rw [List.getD_eq_getElem?_getD, List.getElem?_eq_none (Nat.not_lt.mp more), Option.getD_none,
      ← nul]
    congr 1
    omega

/-- The login check is for two paths. -/
theorem Asks.guarded_iff (asks : conn.Asks url path) :
    conn.Guarded url ↔ conn.cgi = 0 ∧ (path = ascii "/" ∨ path = ascii "/diagnose") := by
  rw [Guarded, asks.text]

/-! ## What the digits stand for -/

/-- A digit that `do_request` acts on stands for the route of the path. -/
structure Digits (conn : HttpConn) (path : List UInt8) : Prop where
  logout : digitOf path = 52 → path = ascii "/4"
  shortcut : ∀ page, shortcutPage (digitOf path) = some page → path ∈ shortcutPaths
  login : conn.cgi = 1 → digitOf path = 50 → path = ascii "/2"
  registration : conn.cgi = 1 → digitOf path = 51 → path = ascii "/3"

theorem InTable.mem (inTable : conn.InTable path) :
    path ∈ [ascii "/", ascii "/diagnose", ascii "/4", ascii "/2", ascii "/3"] ∨
      path ∈ shortcutPaths := by
  simp only [List.mem_cons, List.not_mem_nil, or_false]
  rcases inTable with root | diagnose | logout | shortcut | ⟨_, login | registration⟩
  · exact .inl (.inl root)
  · exact .inl (.inr (.inl diagnose))
  · exact .inl (.inr (.inr (.inl logout)))
  · exact .inr shortcut
  · exact .inl (.inr (.inr (.inr (.inl login))))
  · exact .inl (.inr (.inr (.inr (.inr registration))))

theorem InTable.digits (inTable : conn.InTable path) : conn.Digits path := by
  have facts : ∀ path ∈ [ascii "/", ascii "/diagnose", ascii "/4", ascii "/2", ascii "/3"] ++
      shortcutPaths,
      (digitOf path = 52 → path = ascii "/4") ∧
        ((shortcutPage (digitOf path)).isSome → path ∈ shortcutPaths) ∧
        (digitOf path = 50 → path = ascii "/2") ∧ (digitOf path = 51 → path = ascii "/3") := by
    decide
  obtain ⟨logout, shortcut, login, registration⟩ := facts path (List.mem_append.mpr inTable.mem)
  refine ⟨logout, fun page same => shortcut ?_, fun _ => login, fun _ => registration⟩
  rw [same]
  rfl

theorem Plain.digits (plain : conn.Plain path) : conn.Digits path where
  logout digit := absurd digit plain.noLogout
  shortcut page same := by
    rw [plain.noShortcut] at same
    contradiction
  login post digit := absurd digit (plain.noForm post).1
  registration post digit := absurd digit (plain.noForm post).2

/-! ## The path that is looked at -/

theorem serveFile_realPath (target : HttpConn) (env : Env) (checkDir : Bool) (users : Users)
    (sessions : List SessionCall) :
    (target.serveFile env checkDir users sessions).conn.realPath = target.realPath := by
  simp only [serveFile]
  split
  · rfl
  · split
    · rfl
    · split
      · rfl
      · rfl

/-- A file is served from the path that is looked at. -/
theorem serveFile_of_file {env : Env} {reply : Reply} (done : conn.doRequest env = .ok reply)
    (code : reply.code = .fileRequest) :
    ∃ (target : HttpConn) (checkDir : Bool) (users : Users) (sessions : List SessionCall),
      conn.statPath env = some target.realPath ∧
        reply = target.serveFile env checkDir users sessions := by
  rcases doRequest_usesPath done with serves | ⟨_, redirect | json | csv⟩
  · exact serves
  · rw [redirect] at code
    contradiction
  · rw [json] at code
    contradiction
  · rw [csv] at code
    contradiction

/-- This is the path in `m_real_file`. -/
theorem statPath_of_file {env : Env} {reply : Reply} (done : conn.doRequest env = .ok reply)
    (code : reply.code = .fileRequest) : conn.statPath env = some reply.conn.realPath := by
  obtain ⟨target, checkDir, users, sessions, looked, rfl⟩ := serveFile_of_file done code
  rw [serveFile_realPath]
  exact looked

/-- The path handed to `stat`: the root page, or what the digit stands for. -/
theorem Asks.statPath (asks : conn.Asks url path) {env : Env} {looked : List UInt8}
    (reached : conn.statPath env = some looked) :
    ∃ name, looked = conn.docRoot ++ name ∧
      (path = ascii "/" ∧ name = ascii "/diagnose.html" ∨
        conn.Names url (digitOf path) name) := by
  simp only [HttpConn.statPath, asks.found, Option.bind_some] at reached
  split at reached
  · contradiction
  · split at reached
    case isTrue root =>
        split at reached
        · contradiction
        case isFalse fits =>
            cases reached
            rw [asks.text] at root
            exact ⟨_, rootFile_path asks.rootText fits, .inl ⟨root.2, rfl⟩⟩
    case isFalse notRoot =>
        split at reached
        · contradiction
        · split at reached
          case _ target users last resolvedTo =>
              cases reached
              obtain ⟨flag, name, isFlag, same, names⟩ :=
                resolve_names resolvedTo asks.rootText asks.fresh
              rw [asks.urlFlag, Option.some.injEq] at isFlag
              exact ⟨name, same, .inr (isFlag ▸ names)⟩
          · contradiction

/-! ## Requests that are routed -/

theorem digits_of_routed (routed : conn.InTable path ∨ conn.Plain path) : conn.Digits path :=
  routed.elim InTable.digits Plain.digits

theorem Plain.copied (plain : conn.Plain path) : conn.copied path = path := by
  have fits := plain.fits
  exact List.take_of_length_le (by omega)

/-- A page reached by a digit is looked at for this digit, by its own name, or after a
registration. -/
theorem Asks.page (asks : conn.Asks url path) {page : List UInt8}
    (names : conn.Names url (digitOf path) page)
    (routed : conn.InTable path ∨ conn.Plain path) (isPage : page ∈ shortcutPages) :
    path ∈ shortcutPaths ∨ path = page ∨ conn.cgi = 1 ∧ path = ascii "/3" := by
  have digits := digits_of_routed routed
  cases names with
  | shortcut _ same => exact .inl (digits.shortcut page same)
  | login =>
      have facts : ∀ page ∈ shortcutPages, ¬page <+: ascii "/logError.html" := by decide
      exact absurd (List.take_prefix _ _) (facts _ isPage)
  | registration _ _ post digit => exact .inr (.inr ⟨post, digits.registration post digit⟩)
  | named =>
      rw [asks.text] at isPage ⊢
      rcases routed with inTable | plain
      · have facts : ∀ path ∈ [ascii "/", ascii "/diagnose", ascii "/4", ascii "/2", ascii "/3"],
            ∀ page ∈ shortcutPages, ¬page <+: path := by decide
        refine inTable.mem.elim (fun other => ?_) .inl
        exact absurd (List.take_prefix _ _) (facts path other _ isPage)
      · exact .inr (.inl plain.copied.symm)

theorem Asks.digit (asks : conn.Asks url path) {digit : UInt8}
    (flag : ∃ other, conn.url = some other ∧ conn.urlFlag other = some digit) :
    digitOf path = digit := by
  obtain ⟨other, found, isFlag⟩ := flag
  rw [asks.found, Option.some.injEq] at found
  rw [← found, asks.urlFlag, Option.some.injEq] at isFlag
  exact isFlag

/-- A session is made only by a login. -/
theorem Asks.logsIn (asks : conn.Asks url path) {env : Env} {reply : Reply} {name : List UInt8}
    (done : conn.doRequest env = .ok reply) (created : .create name ∈ reply.sessions) :
    conn.cgi = 1 ∧ digitOf path = 50 := by
  cases doRequest_acts done with
  | checks _ _ sessions =>
      rw [sessions] at created
      obtain ⟨_, same⟩ := env.checkSession_verifies conn.cookie _ created
      contradiction
  | registers _ _ _ _ sessions =>
      rw [sessions] at created
      contradiction
  | logsIn _ _ posts _ _ => exact ⟨posts.1, asks.digit posts.2.1⟩
  | logsOut _ _ sessions =>
      rw [sessions] at created
      simp at created
  | serves _ _ sessions =>
      rw [sessions] at created
      contradiction

/-- A session is removed only by a logout. -/
theorem Asks.logsOut (asks : conn.Asks url path) {env : Env} {reply : Reply} {token : List UInt8}
    (done : conn.doRequest env = .ok reply) (removed : .remove token ∈ reply.sessions) :
    digitOf path = 52 := by
  cases doRequest_acts done with
  | checks _ _ sessions =>
      rw [sessions] at removed
      obtain ⟨_, same⟩ := env.checkSession_verifies conn.cookie _ removed
      contradiction
  | registers _ _ _ _ sessions =>
      rw [sessions] at removed
      contradiction
  | logsIn name password _ _ sessions =>
      rw [sessions] at removed
      split at removed
      · simp at removed
      · contradiction
  | logsOut flag _ _ => exact asks.digit flag
  | serves _ _ sessions =>
      rw [sessions] at removed
      contradiction

/-- The accounts change only by a registration. -/
theorem Asks.registers (asks : conn.Asks url path) {env : Env} {reply : Reply}
    (done : conn.doRequest env = .ok reply) (changed : reply.users ≠ env.users) :
    conn.cgi = 1 ∧ digitOf path = 51 := by
  cases doRequest_acts done with
  | checks _ users => exact absurd users changed
  | registers _ _ posts => exact ⟨posts.1, asks.digit posts.2.1⟩
  | logsIn _ _ _ users => exact absurd users changed
  | logsOut _ users => exact absurd users changed
  | serves _ users => exact absurd users changed

/-- A redirect is for the login check, a login or a logout. -/
theorem Asks.redirects (asks : conn.Asks url path) {env : Env} {reply : Reply}
    (done : conn.doRequest env = .ok reply) (code : reply.code = .redirectRequest) :
    (conn.cgi = 0 ∧ (path = ascii "/" ∨ path = ascii "/diagnose")) ∨
      conn.cgi = 1 ∧ digitOf path = 50 ∨ digitOf path = 52 := by
  rcases doRequest_cases done with ⟨⟨other, found, why⟩, _⟩ | ⟨_, isPage⟩
  · have same : url = other := by
      rw [asks.found, Option.some.injEq] at found
      exact found
    subst same
    rcases why with ⟨guarded, _⟩ | ⟨_, ⟨post, login, _⟩ | logout⟩
    · exact .inl (asks.guarded_iff.mp guarded)
    · exact .inr (.inl ⟨post, asks.digit ⟨url, found, login⟩⟩)
    · exact .inr (.inr (asks.digit ⟨url, found, logout⟩))
  · have codes := isPage.code
    rw [code] at codes
    simp at codes

/-- A request for a path of the table, or for a plain one, is routed. -/
theorem Asks.routed (asks : conn.Asks url path) {env : Env} {reply : Reply}
    (routed : conn.InTable path ∨ conn.Plain path) (done : conn.doRequest env = .ok reply) :
    reply.Routed env conn path where
  login name created := by
    obtain ⟨post, digit⟩ := asks.logsIn done created
    exact ⟨post, (digits_of_routed routed).login post digit⟩
  registration changed := by
    obtain ⟨post, digit⟩ := asks.registers done changed
    exact ⟨post, (digits_of_routed routed).registration post digit⟩
  logout token removed := (digits_of_routed routed).logout (asks.logsOut done removed)
  redirect code := by
    have digits := digits_of_routed routed
    rcases asks.redirects done code with checked | ⟨post, login⟩ | logout
    · exact .inr (.inr checked)
    · exact .inr (.inl ⟨post, digits.login post login⟩)
    · exact .inl (digits.logout logout)
  shortcut code page isPage same := by
    obtain ⟨name, looked, ⟨_, root⟩ | names⟩ := asks.statPath (statPath_of_file done code)
    · rw [same, List.append_cancel_left_eq] at looked
      rw [looked, root] at isPage
      exact absurd isPage (by decide)
    · rw [same, List.append_cancel_left_eq] at looked
      subst looked
      exact asks.page names routed isPage

/-- What `stat` says about the path in `m_real_file` decides what is served. -/
theorem serveFile_serves (target : HttpConn) (env : Env) (users : Users)
    (sessions : List SessionCall) :
    (target.serveFile env true users sessions).Serves env target.realPath := by
  simp only [Reply.Serves, Env.readable, serveFile]
  cases env.files target.realPath with
  | none => exact .inl rfl
  | some file =>
      rw [Option.filter_some]
      by_cases unreadable : file.stat.othersRead = false
      · simp [unreadable]
      · by_cases directory : file.stat.isDir = true
        · simp [unreadable, directory]
        · simp [unreadable, directory]

/-- The slot with a name behind the root in `m_real_file`. -/
def naming (conn : HttpConn) (name : List UInt8) : HttpConn :=
  { conn with
    realFile := (conn.realFile.store 0 (conn.docRoot ++ [0])).store conn.docRoot.length
      (strncpy name (filenameLen - conn.docRoot.length - 1)) }

/-- A plain path is that of the file `do_request` looks at. -/
theorem Asks.doRequest_plain (asks : conn.Asks url path) (other : ¬conn.InTable path)
    (plain : conn.Plain path) (env : Env) :
    conn.doRequest env = .ok ((conn.naming path).serveFile env true env.users []) := by
  have fits := plain.fits
  have room : ¬filenameLen ≤ conn.docRoot.length := by omega
  have open_ : ¬conn.Guarded url := by
    rw [asks.guarded_iff]
    rintro ⟨_, root | diagnose⟩
    · exact other (.inl root)
    · exact other (.inr (.inl diagnose))
  have notDiagnosis : ¬(conn.cgi = 1 ∧ path = ascii "/diagnose") :=
    fun diagnosis => other (.inr (.inl diagnosis.2))
  have notForm : ¬(conn.cgi = 1 ∧ (digitOf path = 50 ∨ digitOf path = 51)) :=
    fun form => form.2.elim (plain.noForm form.1).1 (plain.noForm form.1).2
  obtain ⟨last, found⟩ := strrchr_of_head asks.slash
  have flag := asks.urlFlag
  simp only [HttpConn.urlFlag, asks.text, found, Option.map_some, Option.some.injEq] at flag
  simp only [doRequest, asks.found, if_neg open_, afterLogin, asks.text, if_neg notDiagnosis,
    staticFiles, HttpConn.resolve, if_neg room, found, flag, if_neg notForm, route,
    if_neg plain.noLogout, plain.noShortcut, naming]

/-- A plain path is that of the file that is served. -/
theorem Asks.serves (asks : conn.Asks url path) (other : ¬conn.InTable path)
    (plain : conn.Plain path) (env : Env) :
    ∃ reply, conn.doRequest env = .ok reply ∧ reply.users = env.users ∧ reply.sessions = [] ∧
      reply.Serves env (conn.docRoot ++ path) := by
  have fits := plain.fits
  have short : conn.docRoot.length < filenameLen := by omega
  have pathText : (0 : UInt8) ∉ path := by
    rw [← asks.text]
    exact conn.readBuf.not_mem_cstring readBufferSize url
  obtain ⟨hasRoot, _⟩ := hasRoot_of_fresh asks.fresh short
  have looked : (conn.naming path).realPath = conn.docRoot ++ path := by
    have copied := hasRoot.cstring_strncpy short asks.rootText pathText
    rw [show path.take (filenameLen - conn.docRoot.length - 1) = path from plain.copied] at copied
    exact copied
  obtain ⟨users, sessions⟩ := (conn.naming path).serveFile_users env true env.users []
  refine ⟨_, asks.doRequest_plain other plain env, users, sessions, ?_⟩
  rw [← looked]
  exact serveFile_serves _ env env.users []

/-! ## Requests that are not routed -/

end HttpConn

theorem Env.files_withFile {path bytes other : List UInt8} {file : File}
    (found : (Env.withFile path bytes).files other = some file) : other = path := by
  simp only [Env.withFile] at found
  split at found
  case isTrue same => exact same
  case isFalse => contradiction

namespace HttpConn

variable {conn : HttpConn} {url : Int} {path : List UInt8}

theorem serveFile_found {target : HttpConn} {env : Env} {checkDir : Bool} {users : Users}
    {sessions : List SessionCall}
    (code : (target.serveFile env checkDir users sessions).code = .fileRequest) :
    ∃ file, env.files target.realPath = some file := by
  simp only [serveFile] at code
  split at code
  · contradiction
  case _ file found => exact ⟨file, found⟩

/-- The only file there is is served from its path. -/
theorem statPath_withFile {reply : Reply} {file bytes : List UInt8}
    (done : conn.doRequest (Env.withFile file bytes) = .ok reply)
    (code : reply.code = .fileRequest) : conn.statPath (Env.withFile file bytes) = some file := by
  obtain ⟨target, checkDir, users, sessions, looked, rfl⟩ := serveFile_of_file done code
  obtain ⟨_, found⟩ := serveFile_found code
  rw [looked, Env.files_withFile found]

/-- The pages of a form have no digit, also when they are cut off. -/
theorem digitOf_cut : ∀ page ∈ formPages, ∀ count : Nat,
    digitOf (page.take count) ≠ 50 ∧ digitOf (page.take count) ≠ 51 := by
  have facts : ∀ page ∈ formPages, page.length ≤ 20 ∧
      ∀ count ≤ 20, digitOf (page.take count) ≠ 50 ∧ digitOf (page.take count) ≠ 51 := by
    decide +kernel
  intro page isPage count
  obtain ⟨short, noDigit⟩ := facts page isPage
  by_cases cut : count ≤ 20
  · exact noDigit count cut
  · have whole : page.take count = page.take 20 := by
      rw [List.take_of_length_le (by omega), List.take_of_length_le short]
    rw [whole]
    exact noDigit 20 (Nat.le_refl 20)

/-- A path that is looked at under its own name fits and has no digit of a page or a form. -/
theorem Asks.own (asks : conn.Asks url path) {name : List UInt8}
    (names : conn.Names url (digitOf path) name) (same : name = path) :
    conn.docRoot.length + path.length < filenameLen ∧ shortcutPage (digitOf path) = none ∧
      (conn.cgi = 1 → digitOf path ≠ 50 ∧ digitOf path ≠ 51) := by
  cases names with
  | shortcut _ isPage =>
      subst same
      have facts : ∀ page ∈ ownPages, shortcutPage (digitOf page) = none := by decide
      rw [facts name (shortcutPage_own isPage).1] at isPage
      contradiction
  | login _ digit =>
      rw [← same] at digit
      exact absurd digit (digitOf_cut _ (by decide) _).1
  | registration page isPage _ digit =>
      rw [← same] at digit
      exact absurd digit (digitOf_cut _ isPage _).2
  | named noForm noShortcut =>
      refine ⟨?_, noShortcut, fun post => ⟨fun login => noForm ⟨post, .inl login⟩,
        fun register => noForm ⟨post, .inr register⟩⟩⟩
      have length := congrArg List.length same
      rw [asks.text, copied, List.length_take] at length
      have positive : path.length ≠ 0 := by
        intro empty
        have slash := asks.slash
        rw [List.length_eq_zero_iff.mp empty] at slash
        contradiction
      omega

/-- A path whose file is served when it is the only one there is plain. -/
theorem Asks.plain (asks : conn.Asks url path) (other : ¬conn.InTable path) {reply : Reply}
    {bytes : List UInt8}
    (done : conn.doRequest (Env.withFile (conn.docRoot ++ path) bytes) = .ok reply)
    (serves : reply.Serves (Env.withFile (conn.docRoot ++ path) bytes) (conn.docRoot ++ path)) :
    conn.Plain path := by
  have code : reply.code = .fileRequest := by
    simp only [Reply.Serves, Env.readable, Env.withFile, if_true] at serves
    exact serves.1
  obtain ⟨name, same, ⟨root, _⟩ | names⟩ := asks.statPath (statPath_withFile done code)
  · exact absurd (.inl root) other
  rw [List.append_cancel_left_eq] at same
  obtain ⟨fits, noShortcut, noForm⟩ := asks.own names same.symm
  refine ⟨fits, fun logout => ?_, noShortcut, noForm⟩
  have notOwn : ¬conn.OwnBranch url := by
    rw [OwnBranch, asks.text]
    rintro (⟨_, root⟩ | ⟨_, diagnose⟩)
    · exact other (.inl root)
    · exact other (.inr (.inl diagnose))
  have flag := asks.urlFlag
  rw [logout] at flag
  rcases doRequest_cases done with ⟨_, isRedirect⟩ | ⟨stays, _⟩
  · rw [isRedirect.code] at code
    contradiction
  · exact stays ⟨url, asks.found, .inr ⟨notOwn, .inr flag⟩⟩

/-- A request is routed by the table, whatever the users, the sessions and the files, exactly if
the table has a route for its path or the path is plain. -/
theorem routes_iff (asks : conn.Asks url path) :
    (∀ env, conn.Routes env path) ↔ conn.InTable path ∨ conn.Plain path := by
  constructor
  · intro routes
    by_cases inTable : conn.InTable path
    · exact .inl inTable
    · obtain ⟨reply, done, _, _, serves⟩ :=
        (routes (Env.withFile (conn.docRoot ++ path) (ascii "page"))).file inTable
      exact .inr (asks.plain inTable done serves)
  · intro routed env
    refine ⟨fun reply => asks.routed routed, fun other => ?_⟩
    exact asks.serves other (routed.resolve_left other) env

/-- A file in a directory, with a query behind its name. -/
theorem routes_iff_query :
    ∃ asked, (receiving 7 (ascii "/root")
        (ascii "GET /css/a.css?v=2 HTTP/1.1\r\n\r\n")).requested = some asked ∧
      ∀ env, asked.Routes env (ascii "/css/a.css?v=2") := by
  have facts : (receiving 7 (ascii "/root")
      (ascii "GET /css/a.css?v=2 HTTP/1.1\r\n\r\n")).requested.map (fun asked =>
        (asked.url.map fun url => (asked.str url, asked.readBuf (url + 14)), asked.docRoot,
          asked.cgi)) =
      some (some (ascii "/css/a.css?v=2", 0), ascii "/root", 0) := by
    decide +kernel
  obtain ⟨asked, isAsked, parsed⟩ := Option.map_eq_some_iff.mp facts
  simp only [Prod.mk.injEq, Option.map_eq_some_iff] at parsed
  obtain ⟨⟨url, found, text, nul⟩, root, get⟩ := parsed
  have asks : asked.Asks url (ascii "/css/a.css?v=2") :=
    ⟨found, text, nul, by decide, by rw [root]; decide, (requested_keeps isAsked).1⟩
  refine ⟨asked, isAsked, (routes_iff asks).mpr (.inr ⟨?_, by decide, by decide, ?_⟩)⟩
  · rw [root]
    decide
  · rw [get]
    decide

/-- A file named `4` in a directory logs out. -/
theorem not_routes_segment :
    ∃ asked, (receiving 7 (ascii "/root")
        (ascii "GET /a/4 HTTP/1.1\r\n\r\n")).requested = some asked ∧
      ∃ url, asked.Asks url (ascii "/a/4") ∧ ¬∀ env, asked.Routes env (ascii "/a/4") := by
  have facts : (receiving 7 (ascii "/root")
      (ascii "GET /a/4 HTTP/1.1\r\n\r\n")).requested.map (fun asked =>
        (asked.url.map fun url => (asked.str url, asked.readBuf (url + 4)), asked.docRoot,
          (asked.doRequest Env.blank).toOption.map Reply.code)) =
      some (some (ascii "/a/4", 0), ascii "/root", some .redirectRequest) := by
    decide +kernel
  obtain ⟨asked, isAsked, parsed⟩ := Option.map_eq_some_iff.mp facts
  simp only [Prod.mk.injEq, Option.map_eq_some_iff] at parsed
  obtain ⟨⟨url, found, text, nul⟩, root, reply, answered, code⟩ := parsed
  refine ⟨asked, isAsked, url, ⟨found, text, nul, by decide, by rw [root]; decide,
    (requested_keeps isAsked).1⟩, fun routes => ?_⟩
  have done : asked.doRequest Env.blank = .ok reply := by
    cases made : asked.doRequest Env.blank with
    | error fault => simp [made, Except.toOption] at answered
    | ok other =>
        simp only [made, Except.toOption, Option.some.injEq] at answered
        rw [answered]
  have documented := ((routes Env.blank).table reply done).redirect code
  have other : ¬(ascii "/a/4" = ascii "/4" ∨ asked.cgi = 1 ∧ ascii "/a/4" = ascii "/2" ∨
      asked.cgi = 0 ∧ (ascii "/a/4" = ascii "/" ∨ ascii "/a/4" = ascii "/diagnose")) := by
    simp only [show ascii "/a/4" ≠ ascii "/4" by decide, show ascii "/a/4" ≠ ascii "/2" by decide,
      show ascii "/a/4" ≠ ascii "/" by decide, show ascii "/a/4" ≠ ascii "/diagnose" by decide,
      and_false, or_false, not_false_eq_true]
  exact other documented

end HttpConn

end TimeGANWebServer.Http
