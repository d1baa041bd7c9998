import TimeGANWebServer.Http.Process

/-!
# What a request does to accounts and sessions

A request looks up the token of its cookie, registers a user, logs a user in, logs
out, or does neither.  The user table only grows: an entry is never changed.
-/

namespace TimeGANWebServer.Http

open TimeGANWebServer.Support

/-- The user table `users`, a map from names to passwords. -/
abbrev Users : Type :=
  List UInt8 → Option (List UInt8)

/-- `users.insert`: a name that has an entry keeps it. -/
def insertUser (users : Users) (name password : List UInt8) : Users :=
  if users name = none then Function.update users name (some password) else users

theorem insertUser_of_none {users : Users} {name : List UInt8} (password : List UInt8)
    (absent : users name = none) :
    insertUser users name password = Function.update users name (some password) :=
  if_pos absent

theorem insertUser_of_some {users : Users} {name present : List UInt8} (password : List UInt8)
    (known : users name = some present) : insertUser users name password = users :=
  if_neg (by rw [known]; nofun)

/-- An entry of the user table stays. -/
theorem insertUser_keeps {users : Users} {name password : List UInt8}
    (known : users name = some password) (otherName otherPassword : List UInt8) :
    insertUser users otherName otherPassword name = some password := by
  rw [insertUser]
  split
  case isTrue absent =>
      have other : name ≠ otherName := by
        rintro rfl
        rw [absent] at known
        contradiction
      rw [Function.update_of_ne other, known]
  case isFalse => exact known

namespace HttpConn

/-- The slot posts a form with a name and a password to the page with a digit. -/
def PostsForm (conn : HttpConn) (flag : UInt8) (name password : List UInt8) : Prop :=
  conn.cgi = 1 ∧ (∃ url, conn.url = some url ∧ conn.urlFlag url = some flag) ∧
    conn.formFields = .ok (name, password)

/-- The slot asks for a URL without a branch for accounts. -/
def NoAccount (conn : HttpConn) : Prop :=
  ∀ url, conn.url = some url → conn.urlFlag url ≠ some 52 ∧
    (conn.cgi = 1 → conn.urlFlag url ≠ some 50 ∧ conn.urlFlag url ≠ some 51)

end HttpConn

/-- What a handled request did to the users, and the calls it made on sessions. -/
inductive Reply.Acts (reply : Reply) (env : Env) (conn : HttpConn) : Prop where
  | checks (guarded : ∃ url, conn.url = some url ∧ conn.Guarded url)
      (users : reply.users = env.users)
      (sessions : reply.sessions = (env.checkSession conn.cookie).2)
  | registers (name password : List UInt8) (posts : conn.PostsForm 51 name password)
      (users : reply.users = insertUser env.users name password) (sessions : reply.sessions = [])
  | logsIn (name password : List UInt8) (posts : conn.PostsForm 50 name password)
      (users : reply.users = env.users)
      (sessions : reply.sessions =
        if env.users name = some password then [.create name] else [])
  | logsOut (flag : ∃ url, conn.url = some url ∧ conn.urlFlag url = some 52)
      (users : reply.users = env.users)
      (sessions : reply.sessions = (cookieToken conn.cookie).toList.map .remove)
  | serves (noAccount : conn.NoAccount) (users : reply.users = env.users)
      (sessions : reply.sessions = [])

/-- The login check only looks a session up. -/
theorem Env.checkSession_verifies (env : Env) (cookie : List UInt8) :
    ∀ call ∈ (env.checkSession cookie).2,
      ∃ token, call = .verify token (env.verifySession token) := by
  intro call member
  simp only [checkSession] at member
  split at member
  · exact ⟨_, List.mem_singleton.mp member⟩
  · contradiction

namespace HttpConn

/-- How a registration ends. -/
theorem register_users {conn : HttpConn} {env : Env} {url : Int} {name password : List UInt8}
    {outcome : FormOutcome} (done : conn.register env url name password = .ok outcome) :
    ∃ next, outcome = .goOn next (insertUser env.users name password) := by
  simp only [register] at done
  split at done
  · contradiction
  · split at done
    case _ absent =>
        rw [insertUser_of_none password absent]
        split at done
        · contradiction
        · split at done
          · contradiction
          case _ next _ =>
              cases done
              exact ⟨next, rfl⟩
    case _ known =>
        rw [insertUser_of_some password known]
        split at done
        · contradiction
        case _ next _ =>
            cases done
            exact ⟨next, rfl⟩

/-- What the form branch does to the users. -/
theorem form_users {conn : HttpConn} {env : Env} {url p : Int} {outcome : FormOutcome}
    (done : conn.form env url p = .ok outcome) :
    ∃ name password, conn.formFields = .ok (name, password) ∧
      (conn.readBuf (p + 1) = 51 ∧
          (∃ next, outcome = .goOn next (insertUser env.users name password)) ∨
        conn.readBuf (p + 1) ≠ 51 ∧ env.users name = some password ∧
          (∃ next, outcome = .redirect next name) ∨
        conn.readBuf (p + 1) ≠ 51 ∧ env.users name ≠ some password ∧
          ∃ next, outcome = .goOn next env.users) := by
  simp only [form] at done
  split at done
  · contradiction
  · split at done
    · contradiction
    case _ name password fields =>
        refine ⟨name, password, fields, ?_⟩
        split at done
        case isTrue registers => exact .inl ⟨registers, register_users done⟩
        case isFalse logsIn =>
            simp only [login] at done
            split at done
            case isTrue matching =>
                cases done
                exact .inr (.inl ⟨logsIn, matching, _, rfl⟩)
            case isFalse differing =>
                split at done
                · contradiction
                case _ next _ =>
                    cases done
                    exact .inr (.inr ⟨logsIn, differing, next, rfl⟩)

/-- The URL for a diagnosis has no digit. -/
theorem urlFlag_diagnose {conn : HttpConn} {url : Int} (target : conn.str url = ascii "/diagnose") :
    conn.urlFlag url = some 100 := by
  have holds := Memory.holds_cstring readBufferSize conn.readBuf url
  replace target : conn.readBuf.cstring readBufferSize url = ascii "/diagnose" := target
  rw [target] at holds
  have letter := holds 1 (by decide)
  have slash : strrchr (ascii "/diagnose") 47 = some 0 := by decide
  simp only [urlFlag, RequestState.str, target, slash, Option.map_some, Int.natCast_zero,
    Int.add_zero]
  exact congrArg some letter

/-- A slot that asks for a diagnosis does nothing to accounts. -/
theorem noAccount_diagnose {conn : HttpConn} {url : Int} (found : conn.url = some url)
    (target : conn.str url = ascii "/diagnose") : conn.NoAccount := by
  intro other same
  rw [found, Option.some.injEq] at same
  subst same
  rw [urlFlag_diagnose target]
  exact ⟨by decide, fun _ => ⟨by decide, by decide⟩⟩

end HttpConn

/-- The user table when the name of a file or a redirect is found. -/
def Resolved.users : Resolved → Users
  | .redirect reply => reply.users
  | .file _ users _ => users

/-- The calls on sessions made so far. -/
def Resolved.sessions : Resolved → List SessionCall
  | .redirect reply => reply.sessions
  | .file _ _ sessions => sessions

namespace HttpConn

/-- Behind the form branch only a logout acts on sessions. -/
theorem route_acts {conn : HttpConn} {env : Env} {url p : Int} {users : Users}
    {sessions : List SessionCall} {resolved : Resolved}
    (done : conn.route env url p users sessions = .ok resolved) :
    resolved.users = users ∧
      (conn.readBuf (p + 1) = 52 ∧
          resolved.sessions = sessions ++ (cookieToken conn.cookie).toList.map .remove ∨
        conn.readBuf (p + 1) ≠ 52 ∧ resolved.sessions = sessions) := by
  simp only [route] at done
  split at done
  case isTrue logout =>
      cases done
      exact ⟨rfl, .inl ⟨logout, rfl⟩⟩
  case isFalse other =>
      split at done
      · split at done
        · contradiction
        · cases done
          exact ⟨rfl, .inr ⟨other, rfl⟩⟩
      · cases done
        exact ⟨rfl, .inr ⟨other, rfl⟩⟩

/-- Behind a form that did not log in, nothing more happens to the users, and nothing to
sessions. -/
theorem route_acts_goOn {conn next : HttpConn} {env : Env} {url p : Int} {users : Users}
    {resolved : Resolved} (formed : conn.form env url p = .ok (.goOn next users))
    (isForm : conn.readBuf (p + 1) = 50 ∨ conn.readBuf (p + 1) = 51)
    (done : next.route env url p users [] = .ok resolved) :
    resolved.users = users ∧ resolved.sessions = [] := by
  rcases form_cases formed with ⟨_, _, _, _, same, _⟩ | ⟨_, _, _, _, same, page, absent, rewritten⟩
  · cases same
  · cases same
    have before : conn.readBuf (p + 1) ≠ 52 := by
      rcases isForm with login | register
      · exact fun logout => absurd (login.symm.trans logout) (by decide)
      · exact fun logout => absurd (register.symm.trans logout) (by decide)
    have still : next.readBuf (p + 1) ≠ 52 := by
      rw [rewritten]
      exact Memory.store_ne absent before
    obtain ⟨sameUsers, ⟨logout, _⟩ | ⟨_, noSessions⟩⟩ := route_acts done
    · exact absurd logout still
    · exact ⟨sameUsers, noSessions⟩

/-- What static files, forms and the logout do to users and sessions. -/
theorem resolve_acts {conn : HttpConn} {env : Env} {url : Int} {resolved : Resolved}
    (found : conn.url = some url) (done : conn.resolve env url [] = .ok resolved) {reply : Reply}
    (users : reply.users = resolved.users) (sessions : reply.sessions = resolved.sessions) :
    reply.Acts env conn := by
  simp only [resolve] at done
  split at done
  · contradiction
  · split at done
    · contradiction
    case _ slash isSlash =>
        have flag : conn.urlFlag url = some (conn.readBuf (url + slash + 1)) := by
          simp only [urlFlag, isSlash, Option.map_some]
        split at done
        case isTrue isForm =>
            have posts : ∀ name password, conn.formFields = .ok (name, password) →
                conn.PostsForm (conn.readBuf (url + slash + 1)) name password :=
              fun name password fields => ⟨isForm.1, ⟨url, found, flag⟩, fields⟩
            split at done
            · contradiction
            case _ next username formed =>
                cases done
                obtain ⟨name, password, fields, ⟨_, _, same⟩ | ⟨notRegister, matching, _, same⟩ |
                  ⟨_, _, _, same⟩⟩ := form_users formed
                · cases same
                · cases same
                  have login := isForm.2.resolve_right notRegister
                  refine .logsIn username password (login ▸ posts username password fields) users ?_
                  rw [sessions, if_pos matching]
                  rfl
                · cases same
            case _ next after formed =>
                obtain ⟨sameUsers, noSessions⟩ := route_acts_goOn formed isForm.2 done
                rw [sameUsers] at users
                rw [noSessions] at sessions
                obtain ⟨name, password, fields, ⟨register, _, same⟩ | ⟨_, _, _, same⟩ |
                  ⟨notRegister, differing, _, same⟩⟩ := form_users formed
                · cases same
                  exact .registers name password (register ▸ posts name password fields) users
                    sessions
                · cases same
                · cases same
                  have login := isForm.2.resolve_right notRegister
                  refine .logsIn name password (login ▸ posts name password fields) users ?_
                  rw [sessions, if_neg differing]
        case isFalse notForm =>
            obtain ⟨sameUsers, ⟨logout, removed⟩ | ⟨other, noSessions⟩⟩ := route_acts done
            · refine .logsOut ⟨url, found, flag.trans (congrArg some logout)⟩
                (users.trans sameUsers) ?_
              rw [sessions, removed]
              rfl
            · refine .serves ?_ (users.trans sameUsers) (sessions.trans noSessions)
              intro same isSame
              rw [found, Option.some.injEq] at isSame
              subst isSame
              simp only [flag, Ne, Option.some.injEq]
              exact ⟨other, fun post => ⟨fun login => notForm ⟨post, .inl login⟩,
                fun register => notForm ⟨post, .inr register⟩⟩⟩

theorem serveFile_users (conn : HttpConn) (env : Env) (checkDir : Bool) (users : Users)
    (sessions : List SessionCall) :
    (conn.serveFile env checkDir users sessions).users = users ∧
      (conn.serveFile env checkDir users sessions).sessions = sessions := by
  simp only [serveFile]
  split
  · exact ⟨rfl, rfl⟩
  · split
    · exact ⟨rfl, rfl⟩
    · split <;> exact ⟨rfl, rfl⟩

theorem staticFiles_acts {conn : HttpConn} {env : Env} {url : Int} {reply : Reply}
    (found : conn.url = some url) (done : conn.staticFiles env url [] = .ok reply) :
    reply.Acts env conn := by
  simp only [staticFiles] at done
  split at done
  · contradiction
  case _ redirect resolved =>
      cases done
      exact resolve_acts found resolved rfl rfl
  case _ target users sessions resolved =>
      cases done
      obtain ⟨sameUsers, sameSessions⟩ := target.serveFile_users env true users sessions
      exact resolve_acts found resolved sameUsers sameSessions

/-- A request that passed the login check does nothing more to users and sessions. -/
theorem staticFiles_users {conn : HttpConn} {env : Env} {url : Int} {sessions : List SessionCall}
    {reply : Reply} (get : conn.cgi = 0) (notLogout : conn.urlFlag url ≠ some 52)
    (done : conn.staticFiles env url sessions = .ok reply) :
    reply.users = env.users ∧ reply.sessions = sessions := by
  have routed : ∀ resolved, conn.resolve env url sessions = .ok resolved →
      resolved.users = env.users ∧ resolved.sessions = sessions := by
    intro resolved done
    simp only [resolve] at done
    split at done
    · contradiction
    · split at done
      · contradiction
      case _ slash isSlash =>
          simp only [urlFlag, isSlash, Option.map_some, Ne, Option.some.injEq] at notLogout
          rw [if_neg fun isForm => by rw [get] at isForm; exact absurd isForm.1 (by decide)] at done
          obtain ⟨users, ⟨logout, _⟩ | ⟨_, kept⟩⟩ := route_acts done
          · exact absurd logout notLogout
          · exact ⟨users, kept⟩
  simp only [staticFiles] at done
  split at done
  · contradiction
  case _ redirect resolved =>
      cases done
      exact routed _ resolved
  case _ target users last resolved =>
      cases done
      obtain ⟨sameUsers, sameSessions⟩ := target.serveFile_users env true users last
      obtain ⟨before, made⟩ := routed _ resolved
      exact ⟨sameUsers.trans before, sameSessions.trans made⟩

theorem diagnosePost_users {conn : HttpConn} {env : Env} {sessions : List SessionCall}
    {reply : Reply} (done : conn.diagnosePost env sessions = .ok reply) :
    reply.users = env.users ∧ reply.sessions = sessions := by
  simp only [diagnosePost] at done
  split at done
  · contradiction
  · split at done
    · contradiction
    · cases done
      exact ⟨rfl, rfl⟩
    · cases done
      exact ⟨rfl, rfl⟩

/-- A request that the login check covers looks up the token of its cookie. -/
theorem guarded_checks {conn : HttpConn} {env : Env} {url : Int} {reply : Reply}
    (found : conn.url = some url) (guarded : conn.Guarded url)
    (done : conn.doRequest env = .ok reply) :
    reply.users = env.users ∧ reply.sessions = (env.checkSession conn.cookie).2 := by
  simp only [doRequest, found, if_pos guarded] at done
  split at done
  case _ sessions refused =>
      cases done
      exact ⟨rfl, by rw [refused]; rfl⟩
  case _ sessions valid =>
      rw [valid]
      split at done
      case isTrue root =>
          simp only [rootPage] at done
          split at done
          · contradiction
          · cases done
            exact conn.rootFile.serveFile_users env false env.users sessions
      case isFalse notRoot =>
          have notPost : ¬(conn.cgi = 1 ∧ conn.str url = ascii "/diagnose") := by
            rw [guarded.1]
            exact fun diagnosis => absurd diagnosis.1 (by decide)
          have flag := urlFlag_diagnose (guarded.2.resolve_left notRoot)
          simp only [afterLogin, if_neg notPost] at done
          exact staticFiles_users guarded.1 (by rw [flag]; decide) done

/-- What `do_request` does to users and sessions. -/
theorem doRequest_acts {conn : HttpConn} {env : Env} {reply : Reply}
    (done : conn.doRequest env = .ok reply) : reply.Acts env conn := by
  have handled := done
  simp only [doRequest] at done
  split at done
  · contradiction
  case _ url found =>
      split at done
      case isTrue guarded =>
          obtain ⟨users, sessions⟩ := guarded_checks found guarded handled
          exact .checks ⟨url, found, guarded⟩ users sessions
      case isFalse open_ =>
          simp only [afterLogin] at done
          split at done
          case isTrue diagnosis =>
              obtain ⟨users, sessions⟩ := diagnosePost_users done
              exact .serves (noAccount_diagnose found diagnosis.2) users sessions
          case isFalse => exact staticFiles_acts found done

/-- A slot posts one form. -/
theorem PostsForm.unique {conn : HttpConn} {flag otherFlag : UInt8}
    {name password otherName otherPassword : List UInt8} (posts : conn.PostsForm flag name password)
    (other : conn.PostsForm otherFlag otherName otherPassword) :
    flag = otherFlag ∧ name = otherName ∧ password = otherPassword := by
  obtain ⟨_, ⟨url, found, isFlag⟩, fields⟩ := posts
  obtain ⟨_, ⟨otherUrl, otherFound, otherIsFlag⟩, otherFields⟩ := other
  rw [found, Option.some.injEq] at otherFound
  subst otherFound
  rw [isFlag, Option.some.injEq] at otherIsFlag
  rw [fields] at otherFields
  obtain ⟨names, passwords⟩ := Prod.mk.inj (Except.ok.inj otherFields)
  exact ⟨otherIsFlag, names, passwords⟩

/-- A posted form is not a logout. -/
theorem PostsForm.not_logout {conn : HttpConn} {flag : UInt8} {name password : List UInt8}
    (posts : conn.PostsForm flag name password) (notLogout : flag ≠ 52) :
    ¬∃ url, conn.url = some url ∧ conn.urlFlag url = some 52 := by
  rintro ⟨other, otherFound, logout⟩
  obtain ⟨_, ⟨url, found, isFlag⟩, _⟩ := posts
  rw [found, Option.some.injEq] at otherFound
  subst otherFound
  rw [isFlag, Option.some.injEq] at logout
  exact notLogout logout

theorem PostsForm.account {conn : HttpConn} {flag : UInt8} {name password : List UInt8}
    (posts : conn.PostsForm flag name password) (isForm : flag = 50 ∨ flag = 51) :
    ¬conn.NoAccount := by
  intro noAccount
  obtain ⟨post, ⟨url, found, isFlag⟩, _⟩ := posts
  obtain ⟨_, other⟩ := noAccount url found
  rw [isFlag, Ne, Option.some.injEq, Ne, Option.some.injEq] at other
  exact isForm.elim (other post).1 (other post).2

theorem PostsForm.not_guarded {conn : HttpConn} {flag : UInt8} {name password : List UInt8}
    (posts : conn.PostsForm flag name password) :
      ¬∃ url, conn.url = some url ∧ conn.Guarded url := by
  rintro ⟨url, _, get, _⟩
  have post := posts.1
  rw [get] at post
  exact absurd post (by decide)

/-- What a registration does. -/
theorem registers_of_posts {conn : HttpConn} {env : Env} {reply : Reply}
    {name password : List UInt8} (posts : conn.PostsForm 51 name password)
    (done : conn.doRequest env = .ok reply) :
    reply.users = insertUser env.users name password ∧ reply.sessions = [] := by
  cases doRequest_acts done with
  | checks guarded => exact absurd guarded posts.not_guarded
  | registers otherName otherPassword other users sessions =>
      obtain ⟨_, rfl, rfl⟩ := posts.unique other
      exact ⟨users, sessions⟩
  | logsIn otherName otherPassword other => exact absurd (posts.unique other).1 (by decide)
  | logsOut flag => exact absurd flag (posts.not_logout (by decide))
  | serves noAccount => exact absurd noAccount (posts.account (.inr rfl))

/-- What a login does. -/
theorem logsIn_of_posts {conn : HttpConn} {env : Env} {reply : Reply}
    {name password : List UInt8} (posts : conn.PostsForm 50 name password)
    (done : conn.doRequest env = .ok reply) :
    reply.users = env.users ∧
      reply.sessions = if env.users name = some password then [.create name] else [] := by
  cases doRequest_acts done with
  | checks guarded => exact absurd guarded posts.not_guarded
  | registers otherName otherPassword other => exact absurd (posts.unique other).1 (by decide)
  | logsIn otherName otherPassword other users sessions =>
      obtain ⟨_, rfl, rfl⟩ := posts.unique other
      exact ⟨users, sessions⟩
  | logsOut flag => exact absurd flag (posts.not_logout (by decide))
  | serves noAccount => exact absurd noAccount (posts.account (.inl rfl))

/-- No request changes an entry of the user table. -/
theorem doRequest_keeps {conn : HttpConn} {env : Env} {reply : Reply} {name password : List UInt8}
    (known : env.users name = some password) (done : conn.doRequest env = .ok reply) :
    reply.users name = some password := by
  cases doRequest_acts done with
  | checks _ users => rw [users, known]
  | registers otherName otherPassword _ users =>
      rw [users]
      exact insertUser_keeps known otherName otherPassword
  | logsIn _ _ _ users => rw [users, known]
  | logsOut _ users => rw [users, known]
  | serves _ users => rw [users, known]

end HttpConn

end TimeGANWebServer.Http
