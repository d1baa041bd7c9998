import TimeGANWebServer.Http.Diagnose
import TimeGANWebServer.Http.Response

/-!
# Handling a request

`do_request` in `http/http_conn.cpp`: the login check, the root page, the diagnosis,
the forms for registration and login, the logout, and static files.  What lies outside
of the slot (users, sessions, database, file system, JSON library and models) is the
environment of the call; a call reports the session calls it makes.
-/

namespace TimeGANWebServer.Http

open TimeGANWebServer.Support

/-- A file or directory, with its content where it can be opened and mapped. -/
structure File where
  stat : FileStat
  content : Option (List UInt8)
  sized : ∀ bytes ∈ content, bytes.length = stat.size

/-- What a request is handled with: the user table, the session store, the token the
next session gets, the outcome of a query, the files, and the address of the next
mapping. -/
structure Env where
  users : List UInt8 → Option (List UInt8)
  verifySession : List UInt8 → Bool
  sessionToken : Fin 32 → Fin 16
  mysqlQuery : List UInt8 → Bool
  files : List UInt8 → Option File
  mapAddress : Nat
  json : Json
  models : Models

/-- An environment without users, sessions, files and models. -/
def Env.blank : Env where
  users := fun _ => none
  verifySession := fun _ => false
  sessionToken := fun _ => 0
  mysqlQuery := fun _ => false
  files := fun _ => none
  mapAddress := 4096
  json := {
    parse := fun _ => .error (ascii "parse error")
    dumpError := fun _ => .ok (ascii "\x7b\"message\":\"parse error\",\"status\":\"error\"\x7d")
    dumpError_nul := by
      rintro message json same
      cases same
      decide }
  models := {
    classify := fun _ => .error []
    loaded := fun _ => false
    generate := fun _ _ => .error []
    noise := fun _ => []
    stof := fun _ => .error (ascii "stof")
    putFloat := fun _ => [] }

/-- An environment with one file, which everyone may read. -/
def Env.withFile (path bytes : List UInt8) : Env :=
  { Env.blank with
    files := fun other =>
      if other = path then
        some {
          stat := { size := bytes.length, othersRead := true, isDir := false, inode := 1 }
          content := some bytes
          sized := by
            rintro content same
            cases same
            rfl }
      else
        none }

/-- A call of the session manager. -/
inductive SessionCall where
  | verify (token : List UInt8) (valid : Bool)
  | create (username : List UInt8)
  | remove (token : List UInt8)
  deriving DecidableEq, Repr

/-- What `do_request` comes to. -/
structure Reply where
  code : HttpCode
  conn : HttpConn
  users : List UInt8 → Option (List UInt8)
  sessions : List SessionCall

/-- What follows the first occurrence of a pattern. -/
def afterFirst (pattern : List UInt8) : List UInt8 → Option (List UInt8)
  | [] => if pattern = [] then some [] else none
  | byte :: text =>
      if pattern.isPrefixOf (byte :: text) then
        some ((byte :: text).drop pattern.length)
      else
        afterFirst pattern text

/-- The session token of a cookie. -/
def cookieToken (cookie : List UInt8) : Option (List UInt8) :=
  (afterFirst (ascii "session_id=") cookie).map fun rest => rest.takeWhile (· ≠ 59)

/-- The token `create_session` makes of 32 random numbers. -/
def tokenText (token : Fin 32 → Fin 16) : List UInt8 :=
  (List.ofFn token).map fun (digit : Fin 16) => (ascii "0123456789abcdef").getD digit.val 0

/-- `strncpy`: the text, cut off or padded with NULs. -/
def strncpy (text : List UInt8) (count : Nat) : List UInt8 :=
  text.take count ++ List.replicate (count - text.length) 0

/-- The bytes from an index up to a stop byte, in an array of `room` bytes that also
takes the NUL behind them. -/
def fieldUntil (mem : Memory) (stop : UInt8) : Nat → Int → Option (List UInt8)
  | 0, _ => none
  | room + 1, index =>
      if mem index = stop then
        some []
      else
        (fieldUntil mem stop room (index + 1)).map (mem index :: ·)

/-- The pages reached by a digit behind the last slash. -/
def shortcutPage (flag : UInt8) : Option (List UInt8) :=
  if flag = 48 then some (ascii "/register.html")
  else if flag = 49 then some (ascii "/log.html")
  else if flag = 53 then some (ascii "/picture.html")
  else if flag = 54 then some (ascii "/video.html")
  else if flag = 55 then some (ascii "/fans.html")
  else none

/-- A redirect: its status line, some header lines, and the blank line. -/
def ResponseState.addRedirect (response : ResponseState) (headers : List (List UInt8)) :
    ResponseState :=
  let response := (response.addStatusLine 302 (ascii "Found")).2
  let response := headers.foldl
    (fun response header => (ResponseState.addResponse response header).2) response
  response.addBlankLine.2

/-- The mapping of an opened file.  `mmap` fails without a file and for length 0. -/
def Env.mapFile (env : Env) (file : File) : FileAddress :=
  match file.content with
  | some [] => .failed
  | some bytes => .mapped env.mapAddress bytes
  | none => .failed

/-- The session check: look up the token of the cookie, if it has one. -/
def Env.checkSession (env : Env) (cookie : List UInt8) : Bool × List SessionCall :=
  match cookieToken cookie with
  | some token => (env.verifySession token, [.verify token (env.verifySession token)])
  | none => (false, [])

/-- How the form branch ends: with a redirect for a user that logged in, or with the
rewritten `m_url`. -/
inductive FormOutcome where
  | redirect (conn : HttpConn) (username : List UInt8)
  | goOn (conn : HttpConn) (users : List UInt8 → Option (List UInt8))

/-- What a request without a branch of its own comes to: a redirect, or the slot with
the name of a file in `m_real_file`. -/
inductive Resolved where
  | redirect (reply : Reply)
  | file (conn : HttpConn) (users : List UInt8 → Option (List UInt8))
      (sessions : List SessionCall)

/-- The header lines of the redirect for a request without a session. -/
def notLoggedInHeaders : List (List UInt8) :=
  [ascii "Location: /log.html\r\n"]

/-- The header lines of the redirect after a logout. -/
def logoutHeaders : List (List UInt8) :=
  [ascii "Set-Cookie: session_id=; Path=/; Max-Age=0\r\n", ascii "Location: /log.html\r\n"]

/-- The header lines of the redirect after a login. -/
def loginHeaders (token : Fin 32 → Fin 16) : List (List UInt8) :=
  [ascii "Set-Cookie: session_id=" ++ tokenText token ++ ascii "; Path=/\r\n",
    ascii "Location: /\r\n"]

namespace HttpConn

/-- The path in `m_real_file`. -/
def realPath (conn : HttpConn) : List UInt8 :=
  conn.realFile.cstring filenameLen 0

/-- Reply with a redirect. -/
def redirect (conn : HttpConn) (env : Env) (headers : List (List UInt8))
    (sessions : List SessionCall) : Reply where
  code := .redirectRequest
  conn := { conn with toResponseState := conn.toResponseState.addRedirect headers }
  users := env.users
  sessions := sessions

/-- Look at the file of `m_real_file` and map it.  The root page is not checked for
being a directory. -/
def serveFile (conn : HttpConn) (env : Env) (checkDir : Bool)
    (users : List UInt8 → Option (List UInt8)) (sessions : List SessionCall) : Reply :=
  match env.files conn.realPath with
  | none => { code := .noResource, conn := conn, users := users, sessions := sessions }
  | some file =>
      let conn := { conn with fileStat := file.stat }
      if file.stat.othersRead = false then
        { code := .forbiddenRequest, conn := conn, users := users, sessions := sessions }
      else if checkDir && file.stat.isDir then
        { code := .badRequest, conn := conn, users := users, sessions := sessions }
      else
        { code := .fileRequest
          conn := { conn with fileAddress := env.mapFile file }
          users := users
          sessions := sessions }

/-- The slot with the page for the root path in `m_real_file`. -/
def rootFile (conn : HttpConn) : HttpConn :=
  { conn with realFile := conn.realFile.store 0 (conn.docRoot ++ ascii "/diagnose.html" ++ [0]) }

/-- The page for the root path. -/
def rootPage (conn : HttpConn) (env : Env) (sessions : List SessionCall) : Except Fault Reply :=
  if filenameLen ≤ (conn.docRoot ++ ascii "/diagnose.html").length then
    .error .bufferOverflow
  else
    .ok (conn.rootFile.serveFile env false env.users sessions)

/-- The branch for `POST /diagnose`. -/
def diagnosePost (conn : HttpConn) (env : Env) (sessions : List SessionCall) :
    Except Fault Reply :=
  match conn.string with
  | none => .error .nullPointer
  | some text =>
      match diagnoseRequest env.json env.models (conn.str text) with
      | .error fault => .error fault
      | .ok (.json bytes) => .ok {
          code := .diagnoseRequest
          conn := { conn with responseJson := bytes }
          users := env.users
          sessions := sessions }
      | .ok (.csv bytes) => .ok {
          code := .diagnoseCsvRequest
          conn := { conn with responseCsv := bytes }
          users := env.users
          sessions := sessions }

/-- `strcpy(m_url, ...)` with a page. -/
def setUrl (conn : HttpConn) (url : Int) (page : List UInt8) : Except Fault HttpConn :=
  if (readBufferSize : Int) ≤ url + page.length then
    .error .bufferOverflow
  else
    .ok { conn with readBuf := conn.readBuf.store url (page ++ [0]) }

/-- The query that inserts a user. -/
def sqlInsert (name password : List UInt8) : List UInt8 :=
  ascii "INSERT INTO user(username, passwd) VALUES(" ++ ascii "'" ++ name ++ ascii "', '" ++
    password ++ ascii "')"

/-- Registration: insert a new user and go to the login page.  The user table gets the
user whatever the query comes to. -/
def register (conn : HttpConn) (env : Env) (url : Int) (name password : List UInt8) :
    Except Fault FormOutcome :=
  if 200 ≤ (sqlInsert name password).length then
    .error .bufferOverflow
  else
    match env.users name with
    | none =>
        if conn.mysql = none then
          .error .nullPointer
        else
          let page := if env.mysqlQuery (sqlInsert name password) then
              ascii "/log.html"
            else
              ascii "/registerError.html"
          match conn.setUrl url page with
          | .error fault => .error fault
          | .ok conn => .ok (.goOn conn (Function.update env.users name (some password)))
    | some _ =>
        match conn.setUrl url (ascii "/registerError.html") with
        | .error fault => .error fault
        | .ok conn => .ok (.goOn conn env.users)

/-- Login: with the right password, make a session and redirect to the root page. -/
def login (conn : HttpConn) (env : Env) (url : Int) (name password : List UInt8) :
    Except Fault FormOutcome :=
  if env.users name = some password then
    .ok (.redirect { conn with
      toResponseState := conn.toResponseState.addRedirect (loginHeaders env.sessionToken) } name)
  else
    match conn.setUrl url (ascii "/logError.html") with
    | .error fault => .error fault
    | .ok conn => .ok (.goOn conn env.users)

/-- The name and the password in the form data at `m_string`.  The first five bytes
and the ten from `&` on are skipped without being looked at. -/
def formFields (conn : HttpConn) : Except Fault (List UInt8 × List UInt8) :=
  match conn.string with
  | none => .error .nullPointer
  | some text =>
      match fieldUntil conn.readBuf 38 100 (text + 5) with
      | none => .error .bufferOverflow
      | some name =>
          match fieldUntil conn.readBuf 0 100 (text + 5 + name.length + 10) with
          | none => .error .bufferOverflow
          | some password => .ok (untilNul name, password)

/-- The branch for the registration and login forms; `p` is the last slash. -/
def form (conn : HttpConn) (env : Env) (url p : Int) : Except Fault FormOutcome :=
  let urlReal := 47 :: conn.str (url + 2)
  if 200 ≤ urlReal.length then
    .error .bufferOverflow
  else
    let len := conn.docRoot.length
    let conn := { conn with
      realFile := conn.realFile.store len (strncpy urlReal (filenameLen - len - 1)) }
    match conn.formFields with
    | .error fault => .error fault
    | .ok (name, password) =>
        if conn.readBuf (p + 1) = 51 then
          conn.register env url name password
        else
          conn.login env url name password

/-- Behind the form branch: the logout, the shortcuts, and the file named by `m_url`. -/
def route (conn : HttpConn) (env : Env) (url p : Int)
    (users : List UInt8 → Option (List UInt8)) (sessions : List SessionCall) :
    Except Fault Resolved :=
  if conn.readBuf (p + 1) = 52 then
    let removed := (cookieToken conn.cookie).toList.map SessionCall.remove
    .ok (.redirect { conn.redirect env logoutHeaders (sessions ++ removed) with users := users })
  else
    let len := conn.docRoot.length
    match shortcutPage (conn.readBuf (p + 1)) with
    | some page =>
        -- The page's NUL is not copied.
        if filenameLen ≤ len + page.length then
          .error .bufferOverflow
        else
          .ok (.file { conn with realFile := conn.realFile.store len page } users sessions)
    | none =>
        let name := strncpy (conn.str url) (filenameLen - len - 1)
        .ok (.file { conn with realFile := conn.realFile.store len name } users sessions)

/-- Static files, forms and the logout, up to the name of the file in `m_real_file`. -/
def resolve (conn : HttpConn) (env : Env) (url : Int) (sessions : List SessionCall) :
    Except Fault Resolved :=
  if filenameLen ≤ conn.docRoot.length then
    .error .bufferOverflow
  else
    let conn : HttpConn := { conn with
      realFile := conn.realFile.store 0 (conn.docRoot ++ [0]) }
    match strrchr (conn.str url) 47 with
    | none => .error .nullPointer
    | some slash =>
        let p : Int := url + slash
        if conn.cgi = 1 ∧ (conn.readBuf (p + 1) = 50 ∨ conn.readBuf (p + 1) = 51) then
          match conn.form env url p with
          | .error fault => .error fault
          | .ok (.redirect conn username) => .ok (.redirect {
              code := .redirectRequest
              conn := conn
              users := env.users
              sessions := sessions ++ [.create username] })
          | .ok (.goOn conn users) => conn.route env url p users sessions
        else
          conn.route env url p env.users sessions

/-- The part of `do_request` for static files, forms and the logout. -/
def staticFiles (conn : HttpConn) (env : Env) (url : Int) (sessions : List SessionCall) :
    Except Fault Reply :=
  match conn.resolve env url sessions with
  | .error fault => .error fault
  | .ok (.redirect reply) => .ok reply
  | .ok (.file conn users sessions) => .ok (conn.serveFile env true users sessions)

/-- `do_request` behind the login check. -/
def afterLogin (conn : HttpConn) (env : Env) (url : Int) (sessions : List SessionCall) :
    Except Fault Reply :=
  if conn.cgi = 1 ∧ conn.str url = ascii "/diagnose" then
    conn.diagnosePost env sessions
  else
    conn.staticFiles env url sessions

/-- The login check covers the root path and `/diagnose`, but no `POST` request. -/
def Guarded (conn : HttpConn) (url : Int) : Prop :=
  conn.cgi = 0 ∧ (conn.str url = ascii "/" ∨ conn.str url = ascii "/diagnose")

instance (conn : HttpConn) (url : Int) : Decidable (conn.Guarded url) :=
  inferInstanceAs (Decidable (_ ∧ _))

/-- `http_conn::do_request`. -/
def doRequest (conn : HttpConn) (env : Env) : Except Fault Reply :=
  match conn.url with
  | none => .error .nullPointer
  | some url =>
      if conn.Guarded url then
        match env.checkSession conn.cookie with
        | (false, sessions) => .ok (conn.redirect env notLoggedInHeaders sessions)
        | (true, sessions) =>
            if conn.str url = ascii "/" then
              conn.rootPage env sessions
            else
              conn.afterLogin env url sessions
      else
        conn.afterLogin env url []

end HttpConn

end TimeGANWebServer.Http
