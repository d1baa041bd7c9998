import TimeGANWebServer.Http.Sessions

/-!
# Where sessions come from

Redis answers `verify_session`, so a request is authenticated with whatever the store holds.  What
it holds has been put there by a login, whatever became of the commands.
-/

namespace TimeGANWebServer.Http

open TimeGANWebServer.Support
open TimeGANWebServer.Redis

/-- How a request is answered: a user logs in or out, the login check refuses it, or it gets a
page. -/
inductive Reply.Outcome (reply : Reply) (env : Env) (conn : HttpConn) : Prop where
  | logsIn (user password : List UInt8) (posts : conn.PostsForm 50 user password)
      (known : env.users user = some password) (sessions : reply.sessions = [.create user])
      (code : reply.code = .redirectRequest) (response : reply.conn.toResponseState =
        conn.toResponseState.addRedirect (loginHeaders env.sessionToken))
  | logsOut (open_ : ¬conn.IsGuarded)
      (flag : ∃ url, conn.url = some url ∧ conn.urlFlag url = some 52)
      (sessions : reply.sessions = (cookieToken conn.cookie).toList.map .remove)
      (code : reply.code = .redirectRequest)
      (response : reply.conn.toResponseState = conn.toResponseState.addRedirect logoutHeaders)
  | refused (guarded : conn.IsGuarded) (check : (env.checkSession conn.cookie).1 = false)
      (sessions : reply.sessions = (env.checkSession conn.cookie).2)
      (code : reply.code = .redirectRequest)
      (response : reply.conn.toResponseState = conn.toResponseState.addRedirect notLoggedInHeaders)
  | page (isPage : reply.IsPage env conn)
      (passed : conn.IsGuarded → (env.checkSession conn.cookie).1 = true)

namespace HttpConn

/-! ## How a request is answered -/

/-- A URL that the login check covers logs nobody out. -/
theorem Guarded.not_logout {conn : HttpConn} {url : Int} (guarded : conn.Guarded url)
    (notOwn : ¬conn.OwnBranch url) : conn.urlFlag url ≠ some 52 := by
  obtain ⟨get, root | diagnosis⟩ := guarded
  · exact absurd (.inl ⟨get, root⟩) notOwn
  · rw [urlFlag_diagnose diagnosis]
    decide

/-- Behind the login check a logout is answered with its redirect. -/
theorem resolve_of_logout {conn : HttpConn} {env : Env} {url : Int} {sessions : List SessionCall}
    {resolved : Resolved} (flag : conn.urlFlag url = some 52)
    (done : conn.resolve env url sessions = .ok resolved) :
    ∃ reply, resolved = .redirect reply ∧ reply.code = .redirectRequest ∧
      reply.conn.toResponseState = conn.toResponseState.addRedirect logoutHeaders := by
  obtain ⟨slash, isSlash, logout⟩ := Option.map_eq_some_iff.mp flag
  simp only [resolve] at done
  split at done
  · contradiction
  · have notForm : ¬(conn.cgi = 1 ∧ ((52 : UInt8) = 50 ∨ (52 : UInt8) = 51)) := fun form =>
      absurd form.2 (by decide)
    simp only [isSlash, logout, if_neg notForm, route, if_true, Except.ok.injEq] at done
    exact ⟨_, done.symm, rfl, rfl⟩

theorem doRequest_of_logout {conn : HttpConn} {env : Env} {reply : Reply} {url : Int}
    (open_ : ¬conn.IsGuarded) (found : conn.url = some url) (flag : conn.urlFlag url = some 52)
    (done : conn.doRequest env = .ok reply) :
    reply.code = .redirectRequest ∧
      reply.conn.toResponseState = conn.toResponseState.addRedirect logoutHeaders := by
  have notGuarded : ¬conn.Guarded url := fun guarded => open_ ⟨url, found, guarded⟩
  have notDiagnosis : ¬(conn.cgi = 1 ∧ conn.str url = ascii "/diagnose") := by
    rintro ⟨_, target⟩
    rw [urlFlag_diagnose target] at flag
    contradiction
  simp only [doRequest, found, if_neg notGuarded, afterLogin, if_neg notDiagnosis,
    staticFiles] at done
  split at done
  · contradiction
  case _ redirect resolved =>
      obtain ⟨_, same, answered⟩ := resolve_of_logout flag resolved
      cases same
      cases done
      exact answered
  case _ resolved =>
      obtain ⟨_, same, _⟩ := resolve_of_logout flag resolved
      contradiction

/-- A request that makes a session is answered with the login's redirect. -/
theorem answers_of_create {conn : HttpConn} {env : Env} {reply : Reply} {user : List UInt8}
    (done : conn.doRequest env = .ok reply) (made : reply.sessions = [.create user]) :
    reply.code = .redirectRequest ∧ reply.conn.toResponseState =
      conn.toResponseState.addRedirect (loginHeaders env.sessionToken) := by
  obtain ⟨checks, calls, same, checked, answers⟩ := doRequest_answers done
  rw [made] at same
  have notCheck : .create user ∉ checks := by
    rcases checked with rfl | rfl
    · exact List.not_mem_nil
    · intro member
      obtain ⟨_, same⟩ := env.checkSession_verifies conn.cookie _ member
      contradiction
  have isCall : .create user ∈ calls := by
    have member : .create user ∈ checks ++ calls := same ▸ List.mem_singleton_self _
    exact (List.mem_append.mp member).resolve_left notCheck
  rcases answers with rfl | ⟨code, ⟨_, response⟩ | ⟨rfl, _⟩⟩
  · contradiction
  · exact ⟨code, response⟩
  · simp at isCall

/-- A request that the login check covers is refused, or it gets a page. -/
theorem guarded_outcome {conn : HttpConn} {env : Env} {reply : Reply} {url : Int}
    (found : conn.url = some url) (guarded : conn.Guarded url)
    (done : conn.doRequest env = .ok reply) : reply.Outcome env conn := by
  have sessions := (guarded_checks found guarded done).2
  cases check : (env.checkSession conn.cookie).1 with
  | false =>
      have checked : env.checkSession conn.cookie = (false, (env.checkSession conn.cookie).2) := by
        rw [← check]
      simp only [doRequest, found, if_pos guarded] at done
      rw [checked] at done
      cases done
      exact .refused ⟨url, found, guarded⟩ check sessions rfl rfl
  | true =>
      rcases doRequest_cases done with ⟨⟨other, same, refused | ⟨notOwn, logs⟩⟩, _⟩ | ⟨_, isPage⟩
      · rw [check] at refused
        exact absurd refused.2 (by decide)
      · rw [found, Option.some.injEq] at same
        subst same
        rcases logs with ⟨post, _⟩ | logout
        · rw [guarded.1] at post
          exact absurd post (by decide)
        · exact absurd logout (guarded.not_logout notOwn)
      · exact .page isPage fun _ => check

/-- How a request is answered. -/
theorem doRequest_outcome {conn : HttpConn} {env : Env} {reply : Reply}
    (done : conn.doRequest env = .ok reply) : reply.Outcome env conn := by
  by_cases covered : conn.IsGuarded
  · obtain ⟨url, found, guarded⟩ := covered
    exact guarded_outcome found guarded done
  · -- A request that is not redirected gets a page.
    have page : ¬conn.Redirects env → reply.Outcome env conn := by
      intro stays
      rcases doRequest_cases done with ⟨redirects, _⟩ | ⟨_, isPage⟩
      · exact absurd redirects stays
      · exact .page isPage fun guarded => absurd guarded covered
    cases doRequest_acts done with
    | checks guarded => exact absurd guarded covered
    | registers name password posts =>
        refine page ?_
        rintro ⟨url, found, refused | ⟨_, ⟨_, login, _⟩ | logout⟩⟩
        · exact covered ⟨url, found, refused.1⟩
        · obtain ⟨other, same, register⟩ := posts.2.1
          rw [found, Option.some.injEq] at same
          subst same
          exact absurd (login.symm.trans register) (by decide)
        · exact absurd ⟨url, found, logout⟩ (posts.not_logout (by decide))
    | logsIn name password posts _ sessions =>
        by_cases known : env.users name = some password
        · rw [if_pos known] at sessions
          obtain ⟨code, response⟩ := answers_of_create done sessions
          exact .logsIn name password posts known sessions code response
        · refine page ?_
          rintro ⟨url, found, refused | ⟨_, ⟨_, _, other, word, fields, matching⟩ | logout⟩⟩
          · exact covered ⟨url, found, refused.1⟩
          · rw [posts.2.2] at fields
            cases fields
            exact known matching
          · exact absurd ⟨url, found, logout⟩ (posts.not_logout (by decide))
    | logsOut flag _ sessions =>
        obtain ⟨url, found, logout⟩ := flag
        obtain ⟨code, response⟩ := doRequest_of_logout covered found logout done
        exact .logsOut covered ⟨url, found, logout⟩ sessions code response
    | serves noAccount =>
        refine page ?_
        rintro ⟨url, found, refused | ⟨_, ⟨post, login, _⟩ | logout⟩⟩
        · exact covered ⟨url, found, refused.1⟩
        · exact ((noAccount url found).2 post).1 login
        · exact (noAccount url found).1 logout

end HttpConn

/-! ## What is in the store -/

namespace Site

variable {ttl : Int} {site next : Site} {label : SiteStep} {token user : List UInt8} {expiry : Nat}

/-- A session is in the store only behind a login, or it was there before. -/
theorem holds_step {event : SiteEvent} (stepped : site.step ttl label = some (next, [event]))
    (holds : next.redis.store.Holds (sessionKey token) user expiry) :
    site.redis.store.Holds (sessionKey token) user expiry ∨
      event.LogsIn user token ∧ 0 < ttl ∧ event.seconds = 0 ∧
        expiry = site.redis.store.now + ttl.toNat := by
  cases label with
  | pass seconds =>
      cases stepped
      exact .inl holds
  | request conn env attempt =>
      obtain ⟨reply, done, same, redis⟩ := step_request stepped
      cases same
      -- Looking sessions up leaves the store as it is.
      have looked : (∀ call ∈ reply.sessions, ∃ token,
          call = .verify token ((site.envFor env attempt).verifySession token)) →
            site.redis.store.Holds (sessionKey token) user expiry := by
        intro verifies
        rw [redis, foldl_verify] at holds
        · exact holds
        · intro call member
          obtain ⟨other, same⟩ := verifies call member
          exact ⟨other, _, same⟩
      cases HttpConn.doRequest_outcome done with
      | logsIn name password posts _ sessions code response =>
          rw [redis, sessions, List.foldl_cons, List.foldl_nil, SessionCall.perform,
            RedisManager.setSession_store] at holds
          split at holds
          case isTrue executed =>
              by_cases equal : token = tokenText env.sessionToken
              · subst equal
                have stored := (site.redis.store.holds_set _ _ _).symm.trans holds
                cases stored
                exact .inr ⟨⟨⟨password, posts⟩, code, response, rfl⟩, executed.2, rfl, rfl⟩
              · refine .inl ?_
                simp only [Expiring.Holds, Expiring.set,
                  Function.update_of_ne (sessionKey_ne equal)] at holds
                exact holds
          case isFalse => exact .inl holds
      | logsOut _ _ sessions =>
          refine .inl ?_
          rw [redis, sessions] at holds
          cases named : cookieToken conn.cookie with
          | none =>
              rw [named] at holds
              exact holds
          | some other =>
              rw [named] at holds
              simp only [Option.toList_some, List.map_cons, List.map_nil, List.foldl_cons,
                List.foldl_nil, SessionCall.perform, RedisManager.delSession_store] at holds
              split at holds
              · by_cases equal : sessionKey token = sessionKey other
                · simp [Expiring.Holds, Expiring.remove, equal] at holds
                · simp only [Expiring.Holds, Expiring.remove, Function.update_of_ne equal] at holds
                  exact holds
              · exact holds
      | refused _ _ sessions =>
          refine .inl (looked ?_)
          rw [sessions]
          exact Env.checkSession_verifies _ conn.cookie
      | page isPage =>
          refine .inl (looked ?_)
          rw [isPage.sessions, HttpConn.loginCalls]
          split
          · exact fun _ member => absurd member List.not_mem_nil
          · split
            · exact Env.checkSession_verifies _ conn.cookie
            · exact fun _ member => absurd member List.not_mem_nil

end Site

/-! ## Runs -/

/-- A login of the user has been answered with the token, and less than the time of a session has
passed since. -/
def HasLogin (ttl : Int) (events : List SiteEvent) (user token : List UInt8) : Prop :=
  ∃ before login after, events = before ++ login :: after ∧ login.LogsIn user token ∧
    elapsed after < ttl

namespace Site

variable {ttl : Int} {site next : Site} {label : SiteStep}

/-- What holds of the store and of the events so far: what is stored comes from a login and has the
rest of its time left, and so does what authenticates a request. -/
structure Originates (ttl : Int) (site : Site) (log : List SiteEvent) : Prop where
  stored : ∀ token user expiry, site.redis.store.Holds (sessionKey token) user expiry →
    0 < ttl ∧ ∃ before login after, log = before ++ login :: after ∧ login.LogsIn user token ∧
      expiry + elapsed after = site.redis.store.now + ttl.toNat
  authenticated : ∀ before event after token, log = before ++ event :: after →
    event.Authenticates token → ∃ user, HasLogin ttl before user token

/-- A session that is found has been made by a login and has not expired. -/
theorem Originates.hasLogin {log : List SiteEvent} {token user : List UInt8}
    (originates : site.Originates ttl log) (stored : site.redis.stored token = some user) :
    HasLogin ttl log user token := by
  simp only [RedisManager.stored, Expiring.get] at stored
  split at stored
  case _ value expiry entry =>
      split at stored
      case isTrue live =>
          cases stored
          obtain ⟨positive, before, login, after, split, logsIn, left⟩ :=
            originates.stored token user expiry entry
          exact ⟨before, login, after, split, logsIn, by omega⟩
      case isFalse => contradiction
  case _ => contradiction

/-- Every step keeps it, whatever becomes of the commands. -/
theorem Originates.step {log : List SiteEvent} {event : SiteEvent}
    (stepped : site.step ttl label = some (next, [event])) (originates : site.Originates ttl log) :
    next.Originates ttl (log ++ [event]) := by
  obtain ⟨_, same, store⟩ := storeStep stepped
  cases same
  have now := store.now
  constructor
  · intro token user expiry holds
    rcases holds_step stepped holds with before | ⟨logsIn, positive, instant, until_⟩
    · obtain ⟨positive, early, login, after, split, logsIn, left⟩ :=
        originates.stored token user expiry before
      refine ⟨positive, early, login, after ++ [event], by simp [split], logsIn, ?_⟩
      rw [elapsed_concat, now]
      omega
    · refine ⟨positive, log, event, [], rfl, logsIn, ?_⟩
      rw [now, instant, until_]
      rfl
  · intro before early after token split authenticates
    rcases cases_of_concat split with ⟨between, _, earlier⟩ | ⟨_, rfl, rfl⟩
    · exact originates.authenticated before early between token earlier authenticates
    · have found := authenticates_step stepped authenticates
      obtain ⟨user, stored⟩ := Option.ne_none_iff_exists'.mp found
      exact ⟨user, originates.hasLogin stored⟩

/-- In every run, whatever becomes of the commands to Redis and whichever tokens are drawn, a
session that can be found and a session that has authenticated a request have been made by a login,
less than the time of a session before. -/
theorem sessions_from_logins {users : Users} {connected : Bool} {labels : List SiteStep}
    {events : List SiteEvent}
    (ran : run (step ttl) (start users connected) labels = some (site, events)) :
    (∀ token user, site.redis.stored token = some user → HasLogin ttl events user token) ∧
      ∀ before event after token, events = before ++ event :: after → event.Authenticates token →
        ∃ user, HasLogin ttl before user token := by
  have originates : site.Originates ttl events :=
    @run_invariant _ _ _ (step ttl) (fun site log => site.Originates ttl log) (fun _ _ => True)
      (fun current log label following made originates _ stepped => by
        obtain ⟨event, rfl, _⟩ := storeStep stepped
        exact originates.step stepped)
      (start users connected) site [] events labels
      ⟨fun token user expiry holds => by simp [Expiring.Holds, start, Expiring.empty] at holds,
        fun before _ _ _ split => by simp at split⟩ (RunMeets.always _ _) ran
  exact ⟨fun token user stored => originates.hasLogin stored, originates.authenticated⟩

/-- `bob` logs in, and his browser asks for the root page later. -/
theorem sessions_from_logins_bob :
    ∃ site events,
      run (step 3600) (start bobOnly true) [.request loginSlot Env.blank answering, .pass 10,
          .request (cookieSlot (ascii "/")) Env.blank answering] = some (site, events) ∧
        site.redis.stored zeroToken = some (ascii "bob") ∧
        HasLogin 3600 events (ascii "bob") zeroToken := by
  have facts : (run (step 3600) (start bobOnly true) [.request loginSlot Env.blank answering,
      .pass 10, .request (cookieSlot (ascii "/")) Env.blank answering]).map
        (fun outcome => outcome.1.redis.stored zeroToken) = some (some (ascii "bob")) := by
    decide +kernel
  obtain ⟨⟨site, events⟩, ran, stored⟩ := Option.map_eq_some_iff.mp facts
  exact ⟨site, events, ran, stored, (sessions_from_logins ran).1 zeroToken (ascii "bob") stored⟩

end Site

end TimeGANWebServer.Http
