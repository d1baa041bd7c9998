import TimeGANWebServer.Http.Process

/-!
# Access to the diagnosis

Which requests get diagnosis output or the page `diagnose.html`, and which of them
have shown a valid session.  The login check guards two URLs of `GET` requests; the
diagnosis itself is a `POST` request, and the page can be named by other URLs.
-/

namespace TimeGANWebServer.Http

open TimeGANWebServer.Support

/-- The page for the root path of a server. -/
def Env.diagnosePage (env : Env) (root : List UInt8) : Option File :=
  env.files (root ++ ascii "/diagnose.html")

/-- A file is the page for the root path, by whichever name. -/
def Env.IsDiagnosePage (env : Env) (root : List UInt8) (stat : FileStat) : Prop :=
  ∃ page, env.diagnosePage root = some page ∧ stat.inode = page.stat.inode

namespace Reply

/-- A reply discloses what sessions are for: generated output, or the page for a
diagnosis. -/
def Discloses (reply : Reply) (env : Env) (root : List UInt8) : Prop :=
  reply.code = .diagnoseCsvRequest ∨
    reply.code = .fileRequest ∧ env.IsDiagnosePage root reply.conn.fileStat

/-- The request's cookie carried a token that was verified while it was handled. -/
def Authenticated (reply : Reply) (cookie : List UInt8) : Prop :=
  ∃ token, cookieToken cookie = some token ∧ .verify token true ∈ reply.sessions

end Reply

namespace HttpConn

/-- The request is a `POST` for a diagnosis with a body that leads to a prediction. -/
def AsksPrediction (conn : HttpConn) (env : Env) : Prop :=
  ∃ url text, conn.url = some url ∧ (conn.cgi = 1 ∧ conn.str url = ascii "/diagnose") ∧
    conn.string = some text ∧ Predicts env.json env.models (conn.str text)

/-- The request gets to what sessions are for, if the login check lets it pass: it asks
for a prediction, or it names the page. -/
def Reaches (conn : HttpConn) (env : Env) : Prop :=
  conn.AsksPrediction env ∨
    ∃ file, conn.served env = some file ∧ env.IsDiagnosePage conn.docRoot file.stat

/-- The login check covers the request. -/
def IsGuarded (conn : HttpConn) : Prop :=
  ∃ url, conn.url = some url ∧ conn.Guarded url

/-- Output is generated for a request that asks for a prediction. -/
theorem generated_iff_asksPrediction (conn : HttpConn) (env : Env) :
    (∃ bytes, conn.generated env = some bytes) ↔ conn.AsksPrediction env := by
  simp only [AsksPrediction, ← diagnoseRequest_csv_iff]
  constructor
  · rintro ⟨bytes, generates⟩
    obtain ⟨url, found, generates⟩ := Option.bind_eq_some_iff.mp generates
    split at generates
    case isTrue diagnosis =>
        obtain ⟨text, hasText, generates⟩ := Option.bind_eq_some_iff.mp generates
        split at generates
        case _ csv answered => exact ⟨url, text, found, diagnosis, hasText, csv, answered⟩
        case _ => contradiction
    case isFalse => contradiction
  · rintro ⟨url, text, found, diagnosis, hasText, bytes, answered⟩
    refine ⟨bytes, ?_⟩
    simp only [generated, found, Option.bind_some, if_pos diagnosis, hasText, answered]

/-- A login or a logout names no file. -/
theorem served_of_logsInOrOut {conn : HttpConn} {env : Env} {url : Int}
    (found : conn.url = some url) (notOwn : ¬conn.OwnBranch url)
    (logs : conn.LogsInOrOut env url) : conn.served env = none := by
  have notRoot : ¬(conn.cgi = 0 ∧ conn.str url = ascii "/") := fun root => notOwn (.inl root)
  have notDiagnosis : ¬(conn.cgi = 1 ∧ conn.str url = ascii "/diagnose") :=
    fun diagnosis => notOwn (.inr diagnosis)
  simp only [served, found, Option.bind_some, if_neg notRoot, if_neg notDiagnosis]
  split
  case _ target users sessions resolved =>
      rcases resolve_cases resolved with ⟨_, _, same, _⟩ | ⟨logsNot, _⟩
      · cases same
      · exact absurd logs logsNot
  · rfl

/-- A redirected request that the login check does not cover reaches nothing. -/
theorem not_reaches_of_redirects {conn : HttpConn} {env : Env} (redirects : conn.Redirects env)
    (open_ : ¬conn.IsGuarded) : ¬conn.Reaches env := by
  obtain ⟨url, found, ⟨guarded, _⟩ | ⟨notOwn, logs⟩⟩ := redirects
  · exact absurd ⟨url, found, guarded⟩ open_
  · rintro (⟨other, text, same, diagnosis, _⟩ | ⟨file, serves, _⟩)
    · rw [found, Option.some.injEq] at same
      exact notOwn (same ▸ .inr diagnosis)
    · rw [served_of_logsInOrOut found notOwn logs] at serves
      contradiction

/-- A page discloses what the request reaches. -/
theorem discloses_page_iff {conn : HttpConn} {env : Env} {reply : Reply}
    (page : reply.IsPage env conn) :
    reply.Discloses env conn.docRoot ↔ conn.Reaches env := by
  rw [Reaches, ← generated_iff_asksPrediction]
  constructor
  · rintro (csv | ⟨file, isPage⟩)
    · exact .inl ⟨_, page.csv csv⟩
    · obtain ⟨served, serves, stat, _⟩ := page.file file
      exact .inr ⟨served, serves, stat ▸ isPage⟩
  · rintro (⟨bytes, generates⟩ | ⟨served, serves, isPage⟩)
    · exact .inl (page.generated bytes generates)
    · have code := page.served served serves
      obtain ⟨other, same, stat, _⟩ := page.file code
      rw [serves, Option.some.injEq] at same
      subst same
      exact .inr ⟨code, stat ▸ isPage⟩

/-- A request that was not redirected is authenticated exactly if the login check
covers it. -/
theorem authenticated_page_iff {conn : HttpConn} {env : Env} {reply : Reply}
    (notRedirected : ¬conn.Redirects env) (page : reply.IsPage env conn) :
    reply.Authenticated conn.cookie ↔ conn.IsGuarded := by
  rw [Reply.Authenticated, page.sessions, loginCalls]
  constructor
  · rintro ⟨token, _, verified⟩
    split at verified
    · contradiction
    case _ url found =>
        split at verified
        case isTrue guarded => exact ⟨url, found, guarded⟩
        case isFalse => contradiction
  · rintro ⟨url, found, guarded⟩
    have passed : (env.checkSession conn.cookie).1 = true := by
      rw [← Bool.not_eq_false]
      exact fun refused => notRedirected ⟨url, found, .inl ⟨guarded, refused⟩⟩
    simp only [found, if_pos guarded]
    cases carried : cookieToken conn.cookie with
    | none => simp [Env.checkSession, carried] at passed
    | some token =>
        simp only [Env.checkSession, carried] at passed
        exact ⟨token, rfl, by simp [Env.checkSession, carried, passed]⟩

/-- **A request gets diagnosis output or the diagnosis page only with a verified session
if and only if the login check covers it, or it reaches neither of them.** -/
theorem disclosure_authenticated_iff {conn : HttpConn} {env : Env} {reply : Reply}
    (done : conn.doRequest env = .ok reply) :
    (reply.Discloses env conn.docRoot → reply.Authenticated conn.cookie) ↔
      conn.IsGuarded ∨ ¬conn.Reaches env := by
  rcases doRequest_cases done with ⟨redirects, redirect⟩ | ⟨notRedirected, page⟩
  · have nothing : ¬reply.Discloses env conn.docRoot := by
      simp [Reply.Discloses, redirect.code]
    refine ⟨fun _ => ?_, fun _ discloses => absurd discloses nothing⟩
    exact Classical.or_iff_not_imp_left.mpr (not_reaches_of_redirects redirects)
  · rw [discloses_page_iff page, authenticated_page_iff notRedirected page]
    exact ⟨fun safe => Classical.or_iff_not_imp_right.mpr fun reaches =>
      safe (Classical.not_not.mp reaches),
      fun either reaches => either.resolve_right (Classical.not_not.mpr reaches)⟩

/-- A page for a diagnosis. -/
def pageFile : File where
  stat := { size := 6, othersRead := true, isDir := false, inode := 11 }
  content := some (ascii "<form>")
  sized := by
    rintro bytes member
    cases member
    rfl

/-- A server with this page and one session. -/
def pageEnv : Env :=
  { Env.blank with
    verifySession := fun token => token == ascii "abc"
    files := fun path => if path = ascii "/root/diagnose.html" then some pageFile else none }

theorem isDiagnosePage_pageEnv {stat : FileStat} (inode : stat.inode = 11) :
    pageEnv.IsDiagnosePage (ascii "/root") stat := by
  have named : ascii "/root" ++ ascii "/diagnose.html" = ascii "/root/diagnose.html" := by decide
  have found : pageEnv.diagnosePage (ascii "/root") = some pageFile := by
    simp only [Env.diagnosePage, pageEnv, named, if_true]
  exact ⟨pageFile, found, inode⟩

/-- The root path with the cookie of a session gives the page to an authenticated client. -/
theorem disclosure_authenticated_iff_session :
    ∃ asked reply, (receiving 7 (ascii "/root")
        (ascii "GET / HTTP/1.1\r\nCookie: session_id=abc\r\n\r\n")).requested = some asked ∧
      asked.doRequest pageEnv = .ok reply ∧ reply.Discloses pageEnv asked.docRoot ∧
        reply.Authenticated asked.cookie := by
  have facts : (receiving 7 (ascii "/root")
      (ascii "GET / HTTP/1.1\r\nCookie: session_id=abc\r\n\r\n")).requested.map (fun asked =>
        (asked.docRoot, asked.url.map fun url => decide (asked.Guarded url),
          match asked.doRequest pageEnv with
          | .ok reply => some (reply.code, reply.conn.fileStat.inode)
          | .error _ => none)) =
      some (ascii "/root", some true, some (.fileRequest, 11)) := by
    decide +kernel
  obtain ⟨asked, isAsked, facts⟩ := Option.map_eq_some_iff.mp facts
  simp only [Prod.mk.injEq, Option.map_eq_some_iff, decide_eq_true_eq] at facts
  obtain ⟨root, ⟨url, found, guarded⟩, answer⟩ := facts
  cases done : asked.doRequest pageEnv with
  | error fault => simp [done] at answer
  | ok reply =>
      simp only [done, Option.some.injEq, Prod.mk.injEq] at answer
      have discloses : reply.Discloses pageEnv asked.docRoot :=
        .inr ⟨answer.1, root ▸ isDiagnosePage_pageEnv answer.2⟩
      exact ⟨asked, reply, isAsked, done, discloses,
        (disclosure_authenticated_iff done).mpr (.inl ⟨url, found, guarded⟩) discloses⟩

/-- The name of the page gives it to any client. -/
theorem not_disclosure_authenticated_page :
    ∃ asked reply, (receiving 7 (ascii "/root")
        (ascii "GET /diagnose.html HTTP/1.1\r\n\r\n")).requested = some asked ∧
      asked.doRequest pageEnv = .ok reply ∧
        ¬(reply.Discloses pageEnv asked.docRoot → reply.Authenticated asked.cookie) := by
  have facts : (receiving 7 (ascii "/root")
      (ascii "GET /diagnose.html HTTP/1.1\r\n\r\n")).requested.map (fun asked =>
        (asked.docRoot,
          match asked.doRequest pageEnv with
          | .ok reply => some (reply.code, reply.conn.fileStat.inode, reply.sessions.isEmpty)
          | .error _ => none)) =
      some (ascii "/root", some (.fileRequest, 11, true)) := by
    decide +kernel
  obtain ⟨asked, isAsked, facts⟩ := Option.map_eq_some_iff.mp facts
  simp only [Prod.mk.injEq] at facts
  obtain ⟨root, answer⟩ := facts
  cases done : asked.doRequest pageEnv with
  | error fault => simp [done] at answer
  | ok reply =>
      simp only [done, Option.some.injEq, Prod.mk.injEq, List.isEmpty_iff] at answer
      refine ⟨asked, reply, isAsked, done, fun safe => ?_⟩
      obtain ⟨token, _, verified⟩ :=
        safe (.inr ⟨answer.1, root ▸ isDiagnosePage_pageEnv answer.2.1⟩)
      rw [answer.2.2] at verified
      exact absurd verified List.not_mem_nil

end HttpConn

end TimeGANWebServer.Http
