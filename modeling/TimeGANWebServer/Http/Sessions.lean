import TimeGANWebServer.Http.Access
import TimeGANWebServer.Http.Accounts
import TimeGANWebServer.Redis.Manager
import TimeGANWebServer.Support.Run

/-!
# The life of a session

`SessionManager` in `http/http_conn.cpp` keeps the sessions in Redis.  A login stores a token
and a logout deletes it, and `do_request` answers both without looking at whether Redis did so.
A server handles one request after the other; every command may fail on its way.
-/

namespace TimeGANWebServer.Http

open TimeGANWebServer.Support
open TimeGANWebServer.Redis

/-- What the requests of a server share: the user table, and the sessions in Redis. -/
structure Site where
  users : Users
  redis : RedisManager

/-- A request is handled, with a slot that has it, the rest of its environment, and the way the
connection to Redis behaves meanwhile; or time passes. -/
inductive SiteStep where
  | request (conn : HttpConn) (env : Env) (attempt : Attempt)
  | pass (seconds : Nat)

/-- What a step did: a request was answered, with the random numbers it was given, or some
seconds have passed. -/
inductive SiteEvent where
  | handled (conn : HttpConn) (drawn : Fin 32 → Fin 16) (reply : Reply)
  | passed (seconds : Nat)

/-- The environment of a request: `verify_session` asks Redis. -/
def Site.envFor (site : Site) (env : Env) (attempt : Attempt) : Env :=
  { env with
    users := site.users
    verifySession := fun token => (site.redis.getSession attempt token).1.isSome }

/-- The calls of `SessionManager`, in Redis.  What `setSession` and `delSession` return is
ignored. -/
def SessionCall.perform (ttl : Int) (drawn : Fin 32 → Fin 16) (attempt : Attempt)
    (redis : RedisManager) : SessionCall → RedisManager
  | .verify token _ => (redis.getSession attempt token).2
  | .create username => (redis.setSession attempt (tokenText drawn) username ttl).2
  | .remove token => (redis.delSession attempt token).2

namespace Site

/-- A server without sessions. -/
def start (users : Users) (connected : Bool) : Site where
  users := users
  redis := { connected := connected, store := .empty }

/-- One step of a server whose sessions last `g_session_ttl` seconds. -/
def step (ttl : Int) (site : Site) : SiteStep → Option (Site × List SiteEvent)
  | .request conn env attempt =>
      match conn.doRequest (site.envFor env attempt) with
      | .error _ => none
      | .ok reply =>
          some ({
            users := reply.users
            redis := reply.sessions.foldl (SessionCall.perform ttl env.sessionToken attempt)
              site.redis }, [.handled conn env.sessionToken reply])
  | .pass seconds => some ({ site with redis := site.redis.pass seconds }, [.passed seconds])

end Site

/-! ## Logins, logouts and checks -/

namespace SiteEvent

/-- A login is answered with 302 and a cookie with a token. -/
def LogsIn (user token : List UInt8) : SiteEvent → Prop
  | .handled conn drawn reply =>
      (∃ password, conn.PostsForm 50 user password) ∧ reply.code = .redirectRequest ∧
        reply.conn.toResponseState = conn.toResponseState.addRedirect (loginHeaders drawn) ∧
        token = tokenText drawn
  | .passed _ => False

/-- A logout whose cookie has a token is answered with its redirect. -/
def LogsOut (token : List UInt8) : SiteEvent → Prop
  | .handled conn _ reply =>
      ¬conn.IsGuarded ∧ (∃ url, conn.url = some url ∧ conn.urlFlag url = some 52) ∧
        cookieToken conn.cookie = some token ∧ reply.code = .redirectRequest ∧
        reply.conn.toResponseState = conn.toResponseState.addRedirect logoutHeaders
  | .passed _ => False

/-- A request whose cookie has a token is authenticated. -/
def Authenticates (token : List UInt8) : SiteEvent → Prop
  | .handled conn _ reply =>
      cookieToken conn.cookie = some token ∧ .verify token true ∈ reply.sessions
  | .passed _ => False

/-- The token of the session a request makes. -/
def issued : SiteEvent → List (List UInt8)
  | .handled _ drawn reply =>
      reply.sessions.filterMap fun call =>
        match call with
        | .create _ => some (tokenText drawn)
        | _ => none
  | .passed _ => []

/-- The token in the cookie of a request. -/
def named : SiteEvent → Option (List UInt8)
  | .handled conn _ _ => cookieToken conn.cookie
  | .passed _ => none

/-- The calls of `SessionManager` for a request. -/
def calls : SiteEvent → List SessionCall
  | .handled _ _ reply => reply.sessions
  | .passed _ => []

/-- The seconds of an event. -/
def seconds : SiteEvent → Nat
  | .handled _ _ _ => 0
  | .passed seconds => seconds

end SiteEvent

/-- The time some events take. -/
def elapsed (events : List SiteEvent) : Nat :=
  (events.map SiteEvent.seconds).sum

/-- The life of a session: when a login has been answered, its token is stored for the user
until a logout or the end of its time, and when a logout has been answered, no later request
with its token is authenticated. -/
structure LifeCycle (ttl : Int) (site : Site) (events : List SiteEvent) : Prop where
  stored : ∀ before event after user token, events = before ++ event :: after →
    event.LogsIn user token → (∀ later ∈ after, ¬later.LogsOut token) →
      elapsed after < ttl → site.redis.stored token = some user
  loggedOut : ∀ before event after token, events = before ++ event :: after →
    event.LogsOut token → ∀ later ∈ after, ¬later.Authenticates token

/-- The tokens that are drawn are new: no earlier session or logout has had them. -/
def Fresh (events : List SiteEvent) : Prop :=
  events.Pairwise fun earlier later =>
    ∀ token ∈ later.issued, token ∉ earlier.issued ∧ ¬earlier.LogsOut token

/-- The commands that matter are executed: the `SETEX` of a login with the right password, and
the `DEL` of a logout whose token is stored. -/
def Site.Reliable (site : Site) : SiteStep → Prop
  | .request conn _ attempt =>
      (∀ name password, conn.PostsForm 50 name password → site.users name = some password →
          site.redis.Executes attempt) ∧
        ∀ token, ¬conn.IsGuarded → (∃ url, conn.url = some url ∧ conn.urlFlag url = some 52) →
          cookieToken conn.cookie = some token →
            site.redis.stored token = none ∨ site.redis.Executes attempt
  | .pass _ => True

/-! ## Answers -/

/-- How a request that makes or deletes a session is answered. -/
def Reply.Answers (reply : Reply) (env : Env) (conn : HttpConn) (calls : List SessionCall) : Prop :=
  calls = [] ∨ reply.code = .redirectRequest ∧
    ((∃ username, calls = [.create username]) ∧ reply.conn.toResponseState =
        conn.toResponseState.addRedirect (loginHeaders env.sessionToken) ∨
      calls = (cookieToken conn.cookie).toList.map .remove ∧
        reply.conn.toResponseState = conn.toResponseState.addRedirect logoutHeaders)

namespace HttpConn

/-- Behind the form branch the logout is answered with its redirect. -/
theorem route_answers {conn : HttpConn} {env : Env} {url p : Int} {users : Users}
    {sessions : List SessionCall} {reply : Reply}
    (done : conn.route env url p users sessions = .ok (.redirect reply)) :
    ∃ calls, reply.sessions = sessions ++ calls ∧ reply.Answers env conn calls := by
  simp only [route] at done
  split at done
  · cases done
    exact ⟨_, rfl, .inr ⟨rfl, .inr ⟨rfl, rfl⟩⟩⟩
  · split at done
    · split at done <;> simp at done
    · simp at done

/-- A login that succeeds is answered with its redirect. -/
theorem resolve_answers {conn : HttpConn} {env : Env} {url : Int} {sessions : List SessionCall}
    {reply : Reply} (done : conn.resolve env url sessions = .ok (.redirect reply)) :
    ∃ calls, reply.sessions = sessions ++ calls ∧ reply.Answers env conn calls := by
  simp only [resolve] at done
  split at done
  · contradiction
  · split at done
    · contradiction
    · split at done
      · split at done
        · contradiction
        case _ next username formed =>
            cases done
            rcases form_cases formed with ⟨_, _, _, _, same, _, response⟩ | ⟨_, _, _, _, same, _⟩
            · cases same
              exact ⟨[.create username], rfl, .inr ⟨rfl, .inl ⟨⟨username, rfl⟩, response⟩⟩⟩
            · cases same
        case _ next users formed =>
            obtain ⟨calls, made, answers⟩ := route_answers done
            rcases form_cases formed with ⟨_, _, _, _, same, _⟩ |
              ⟨_, _, _, _, same, _, _, rewritten⟩
            · cases same
            · cases same
              rw [rewritten] at answers
              exact ⟨calls, made, answers⟩
      · obtain ⟨calls, made, answers⟩ := route_answers done
        exact ⟨calls, made, answers⟩

theorem afterLogin_answers {conn : HttpConn} {env : Env} {url : Int} {sessions : List SessionCall}
    {reply : Reply} (done : conn.afterLogin env url sessions = .ok reply) :
    ∃ calls, reply.sessions = sessions ++ calls ∧ reply.Answers env conn calls := by
  have quiet : reply.sessions = sessions →
      ∃ calls, reply.sessions = sessions ++ calls ∧ reply.Answers env conn calls :=
    fun same => ⟨[], by rw [same, List.append_nil], .inl rfl⟩
  simp only [afterLogin] at done
  split at done
  · exact quiet (diagnosePost_users done).2
  · simp only [staticFiles] at done
    split at done
    · contradiction
    case _ redirect resolved =>
        cases done
        exact resolve_answers resolved
    case _ target users last resolved =>
        cases done
        refine quiet ?_
        rw [(target.serveFile_users env true users last).2]
        exact (resolve_sessions resolved).1

/-- A request checks a token, and behind that it makes or deletes a session at most once. -/
theorem doRequest_answers {conn : HttpConn} {env : Env} {reply : Reply}
    (done : conn.doRequest env = .ok reply) :
    ∃ checks calls, reply.sessions = checks ++ calls ∧
      (checks = [] ∨ checks = (env.checkSession conn.cookie).2) ∧ reply.Answers env conn calls := by
  simp only [doRequest] at done
  split at done
  · contradiction
  case _ url _ =>
      split at done
      · split at done
        case _ sessions refused =>
            cases done
            exact ⟨sessions, [], (List.append_nil _).symm, .inr (by rw [refused]), .inl rfl⟩
        case _ sessions valid =>
            split at done
            · simp only [rootPage] at done
              split at done
              · contradiction
              · cases done
                refine ⟨sessions, [], ?_, .inr (by rw [valid]), .inl rfl⟩
                rw [(conn.rootFile.serveFile_users env false env.users sessions).2,
                  List.append_nil]
            · obtain ⟨calls, made, answers⟩ := afterLogin_answers done
              exact ⟨sessions, calls, made, .inr (by rw [valid]), answers⟩
      · obtain ⟨calls, made, answers⟩ := afterLogin_answers done
        exact ⟨[], calls, made, .inl rfl, answers⟩

/-- A login is answered with a redirect only for the right password. -/
theorem users_of_redirect {conn : HttpConn} {env : Env} {reply : Reply}
    {name password : List UInt8} (posts : conn.PostsForm 50 name password)
    (done : conn.doRequest env = .ok reply) (redirects : reply.code = .redirectRequest) :
    env.users name = some password := by
  rcases doRequest_cases done with ⟨⟨url, found, refused | ⟨_, logs⟩⟩, _⟩ | ⟨_, isPage⟩
  · exact absurd ⟨url, found, refused.1⟩ posts.not_guarded
  · rcases logs with ⟨_, _, _, _, fields, known⟩ | logout
    · rw [posts.2.2] at fields
      cases fields
      exact known
    · exact absurd ⟨url, found, logout⟩ (posts.not_logout (by decide))
  · rcases isPage.code with code | code | code | code | code | code
    all_goals
      rw [code] at redirects
      contradiction

/-- Whether a token is verified, a session made, or one deleted, it is the only call. -/
theorem sessions_cases {conn : HttpConn} {env : Env} {reply : Reply}
    (done : conn.doRequest env = .ok reply) :
    (∀ call ∈ reply.sessions, ∃ token, call = .verify token (env.verifySession token)) ∨
      (∃ username, reply.sessions = [.create username]) ∨
      ∃ token, reply.sessions = [.remove token] ∧ cookieToken conn.cookie = some token ∧
        ¬conn.IsGuarded ∧ ∃ url, conn.url = some url ∧ conn.urlFlag url = some 52 := by
  by_cases covered : conn.IsGuarded
  · obtain ⟨url, found, guarded⟩ := covered
    rw [(guarded_checks found guarded done).2]
    exact .inl (env.checkSession_verifies conn.cookie)
  · cases doRequest_acts done with
    | checks guarded => exact absurd guarded covered
    | registers _ _ _ _ sessions =>
        rw [sessions]
        exact .inl fun _ member => absurd member List.not_mem_nil
    | logsIn name password _ _ sessions =>
        rw [sessions]
        split
        · exact .inr (.inl ⟨name, rfl⟩)
        · exact .inl fun _ member => absurd member List.not_mem_nil
    | logsOut flag _ sessions =>
        rw [sessions]
        cases cookieToken conn.cookie with
        | none => exact .inl fun _ member => absurd member List.not_mem_nil
        | some token => exact .inr (.inr ⟨token, rfl, rfl, covered, flag⟩)
    | serves _ _ sessions =>
        rw [sessions]
        exact .inl fun _ member => absurd member List.not_mem_nil

/-- A request that deletes a session is answered with the logout's redirect. -/
theorem answers_of_remove {conn : HttpConn} {env : Env} {reply : Reply} {token : List UInt8}
    (done : conn.doRequest env = .ok reply) (made : reply.sessions = [.remove token]) :
    reply.code = .redirectRequest ∧
      reply.conn.toResponseState = conn.toResponseState.addRedirect logoutHeaders := by
  obtain ⟨checks, calls, same, checked, answers⟩ := doRequest_answers done
  rw [made] at same
  have notCheck : .remove token ∉ checks := by
    rcases checked with rfl | rfl
    · exact List.not_mem_nil
    · intro member
      obtain ⟨_, same⟩ := env.checkSession_verifies conn.cookie _ member
      contradiction
  have isCall : .remove token ∈ calls := by
    have member : .remove token ∈ checks ++ calls := same ▸ List.mem_singleton_self _
    exact (List.mem_append.mp member).resolve_left notCheck
  rcases answers with rfl | ⟨code, ⟨⟨_, rfl⟩, _⟩ | ⟨_, response⟩⟩
  · contradiction
  · simp at isCall
  · exact ⟨code, response⟩

end HttpConn

/-! ## What a step does to the store -/

/-- The steps of the store, by what they do. -/
inductive StoreStep (store : Store) (event : SiteEvent) (next : Store) : Prop where
  | passes (same : next = store.pass event.seconds)
  | sets (token : List UInt8) (life : Nat) (user : List UInt8) (instant : event.seconds = 0)
      (issued : token ∈ event.issued) (same : next = store.set (sessionKey token) life user)
  | removes (token : List UInt8) (instant : event.seconds = 0) (logsOut : event.LogsOut token)
      (same : next = store.remove (sessionKey token))

namespace StoreStep

variable {store next : Store} {event : SiteEvent} {token user : List UInt8} {expiry : Nat}

theorem now (stepped : StoreStep store event next) : next.now = store.now + event.seconds := by
  cases stepped with
  | passes same => rw [same]; rfl
  | sets _ _ _ instant _ same => rw [same, instant]; rfl
  | removes _ instant _ same => rw [same, instant]; rfl

/-- A session stays if its token is neither drawn again nor logged out. -/
theorem holds (stepped : StoreStep store event next) (notIssued : token ∉ event.issued)
    (stays : ¬event.LogsOut token) (holds : store.Holds (sessionKey token) user expiry) :
    next.Holds (sessionKey token) user expiry := by
  cases stepped with
  | passes same => rw [same]; exact holds.pass event.seconds
  | sets other _ _ _ issued same =>
      rw [same]
      exact holds.set (sessionKey_ne (by rintro rfl; exact notIssued issued))
  | removes other _ logsOut same =>
      rw [same]
      exact holds.remove (sessionKey_ne (by rintro rfl; exact stays logsOut))

/-- A session that is gone does not come back if its token is not drawn again. -/
theorem absent (stepped : StoreStep store event next) (notIssued : token ∉ event.issued)
    (gone : store.get (sessionKey token) = none) : next.get (sessionKey token) = none := by
  cases stepped with
  | passes same => rw [same]; exact Expiring.get_pass gone event.seconds
  | sets other life user _ issued same =>
      rw [same]
      exact Expiring.get_set_ne gone (sessionKey_ne (by rintro rfl; exact notIssued issued))
        life user
  | removes other _ _ same => rw [same]; exact Expiring.get_remove_of_none gone _

end StoreStep

namespace Site

variable {ttl : Int} {site next : Site} {label : SiteStep} {events : List SiteEvent}

/-- A request is handled by `do_request`, and its session calls are performed. -/
theorem step_request {conn : HttpConn} {env : Env} {attempt : Attempt}
    (stepped : site.step ttl (.request conn env attempt) = some (next, events)) :
    ∃ reply, conn.doRequest (site.envFor env attempt) = .ok reply ∧
      events = [.handled conn env.sessionToken reply] ∧
      next.redis = reply.sessions.foldl (SessionCall.perform ttl env.sessionToken attempt)
        site.redis := by
  simp only [step] at stepped
  split at stepped
  · contradiction
  case _ reply done =>
      cases stepped
      exact ⟨reply, done, rfl, rfl⟩

/-- Verifying tokens changes nothing in the store. -/
theorem foldl_verify (drawn : Fin 32 → Fin 16) (attempt : Attempt) (redis : RedisManager)
    {calls : List SessionCall}
    (verifies : ∀ call ∈ calls, ∃ token valid, call = .verify token valid) :
    (calls.foldl (SessionCall.perform ttl drawn attempt) redis).store = redis.store := by
  induction calls generalizing redis with
  | nil => rfl
  | cons call calls ih =>
      obtain ⟨token, valid, rfl⟩ := verifies call List.mem_cons_self
      rw [List.foldl_cons, ih _ fun other member => verifies other (List.mem_cons_of_mem _ member)]
      exact redis.getSession_store attempt token

/-- What a step does to the store. -/
theorem storeStep (stepped : site.step ttl label = some (next, events)) :
    ∃ event, events = [event] ∧ StoreStep site.redis.store event next.redis.store := by
  cases label with
  | pass seconds =>
      cases stepped
      exact ⟨_, rfl, .passes rfl⟩
  | request conn env attempt =>
      obtain ⟨reply, done, rfl, redis⟩ := step_request stepped
      refine ⟨_, rfl, ?_⟩
      rw [redis]
      rcases HttpConn.sessions_cases done with verifies | ⟨user, made⟩ |
        ⟨token, made, named, open_, flag⟩
      · rw [foldl_verify]
        · exact .passes rfl
        · intro call member
          obtain ⟨token, rfl⟩ := verifies call member
          exact ⟨token, _, rfl⟩
      · rw [made, List.foldl_cons, List.foldl_nil, SessionCall.perform,
          RedisManager.setSession_store]
        split
        · refine .sets (tokenText env.sessionToken) ttl.toNat user rfl ?_ rfl
          simp [SiteEvent.issued, made]
        · exact .passes rfl
      · rw [made, List.foldl_cons, List.foldl_nil, SessionCall.perform,
          RedisManager.delSession_store]
        split
        · exact .removes token rfl ⟨open_, flag, named, HttpConn.answers_of_remove done made⟩ rfl
        · exact .passes rfl

/-- The token of a login is the one drawn for it, and its session is stored if Redis executes
the command. -/
theorem logsIn_step {event : SiteEvent} {user token : List UInt8} (positive : 0 < ttl)
    (reliable : site.Reliable label) (stepped : site.step ttl label = some (next, [event]))
    (logsIn : event.LogsIn user token) :
    token ∈ event.issued ∧ event.seconds = 0 ∧
      next.redis.store.Holds (sessionKey token) user (site.redis.store.now + ttl.toNat) := by
  cases label with
  | pass seconds =>
      cases stepped
      exact logsIn.elim
  | request conn env attempt =>
      obtain ⟨reply, done, same, redis⟩ := step_request stepped
      cases same
      obtain ⟨⟨password, posts⟩, redirects, _, rfl⟩ := logsIn
      have known := HttpConn.users_of_redirect posts done redirects
      have made := (HttpConn.logsIn_of_posts posts done).2
      rw [if_pos known] at made
      refine ⟨by simp [SiteEvent.issued, made], rfl, ?_⟩
      have executes : site.redis.Executes attempt := reliable.1 user password posts known
      rw [redis, made, List.foldl_cons, List.foldl_nil, SessionCall.perform,
        RedisManager.setSession_store, if_pos ⟨executes, positive⟩]
      exact site.redis.store.holds_set (sessionKey (tokenText env.sessionToken)) ttl.toNat user

/-- The session of a logout is gone if Redis executes the command. -/
theorem logsOut_step {event : SiteEvent} {token : List UInt8} (reliable : site.Reliable label)
    (stepped : site.step ttl label = some (next, [event])) (logsOut : event.LogsOut token) :
    next.redis.stored token = none := by
  cases label with
  | pass seconds =>
      cases stepped
      exact logsOut.elim
  | request conn env attempt =>
      obtain ⟨reply, done, same, redis⟩ := step_request stepped
      cases same
      obtain ⟨open_, flag, named, redirects, _⟩ := logsOut
      have made : reply.sessions = [.remove token] := by
        cases HttpConn.doRequest_acts done with
        | checks guarded => exact absurd guarded open_
        | registers _ _ posts => exact absurd flag (posts.not_logout (by decide))
        | logsIn _ _ posts => exact absurd flag (posts.not_logout (by decide))
        | logsOut _ _ sessions => simpa [named] using sessions
        | serves noAccount =>
            obtain ⟨url, found, logout⟩ := flag
            exact absurd logout (noAccount url found).1
      rw [RedisManager.stored, redis, made, List.foldl_cons, List.foldl_nil, SessionCall.perform,
        RedisManager.delSession_store]
      split
      case isTrue => exact Expiring.get_remove _ _
      case isFalse lost => exact (reliable.2 token open_ flag named).resolve_right lost

/-- A request is authenticated only with a token that is stored. -/
theorem authenticates_step {event : SiteEvent} {token : List UInt8}
    (stepped : site.step ttl label = some (next, [event]))
    (authenticates : event.Authenticates token) : site.redis.stored token ≠ none := by
  cases label with
  | pass seconds =>
      cases stepped
      exact authenticates.elim
  | request conn env attempt =>
      obtain ⟨reply, done, same, _⟩ := step_request stepped
      cases same
      obtain ⟨_, verified⟩ := authenticates
      rcases HttpConn.sessions_cases done with verifies | ⟨_, made⟩ | ⟨_, made, _⟩
      · obtain ⟨other, same⟩ := verifies _ verified
        obtain ⟨rfl, valid⟩ := SessionCall.verify.inj same
        obtain ⟨username, found⟩ := Option.isSome_iff_exists.mp valid.symm
        rw [RedisManager.stored_of_getSession found]
        nofun
      · simp [made] at verified
      · simp [made] at verified

end Site

/-! ## Runs -/

/-- An event of a log with one more at its end is an earlier one, or that one. -/
theorem cases_of_concat {log before after : List SiteEvent} {event last : SiteEvent}
    (split : log ++ [last] = before ++ event :: after) :
    (∃ between, after = between ++ [last] ∧ log = before ++ event :: between) ∨
      after = [] ∧ event = last ∧ log = before := by
  rcases List.eq_nil_or_concat' after with rfl | ⟨between, other, rfl⟩
  · obtain ⟨rfl, same⟩ := List.append_inj' split rfl
    cases same
    exact .inr ⟨rfl, rfl, rfl⟩
  · rw [← List.cons_append, ← List.append_assoc] at split
    obtain ⟨rfl, same⟩ := List.append_inj' split rfl
    cases same
    exact .inl ⟨between, rfl, rfl⟩

theorem elapsed_concat (events : List SiteEvent) (event : SiteEvent) :
    elapsed (events ++ [event]) = elapsed events + event.seconds := by
  simp [elapsed]

/-- What holds of the store and of the events so far: a login's session has the rest of its time
left, and a logout's is gone. -/
structure Site.Sound (ttl : Int) (site : Site) (log : List SiteEvent) : Prop where
  held : 0 < ttl → ∀ before event after user token, log = before ++ event :: after →
    event.LogsIn user token → (∀ later ∈ after, ¬later.LogsOut token) →
      token ∈ event.issued ∧ ∃ expiry, site.redis.store.Holds (sessionKey token) user expiry ∧
        expiry + elapsed after = site.redis.store.now + ttl.toNat
  gone : ∀ before event after token, log = before ++ event :: after →
    event.LogsOut token → site.redis.stored token = none ∧
      ∀ later ∈ after, ¬later.Authenticates token

namespace Site

variable {ttl : Int} {site next : Site} {label : SiteStep}

/-- Every step that meets the condition keeps it, if the tokens are new. -/
theorem Sound.step {log : List SiteEvent} {event : SiteEvent} (reliable : site.Reliable label)
    (stepped : site.step ttl label = some (next, [event])) (fresh : Fresh (log ++ [event]))
    (sound : site.Sound ttl log) : next.Sound ttl (log ++ [event]) := by
  obtain ⟨_, same, store⟩ := storeStep stepped
  cases same
  have apart : ∀ earlier ∈ log, ∀ token ∈ event.issued,
      token ∉ earlier.issued ∧ ¬earlier.LogsOut token := fun earlier member =>
    (List.pairwise_append.mp fresh).2.2 earlier member event (List.mem_singleton_self event)
  have now := store.now
  constructor
  · intro positive before early after user token split logsIn stays
    rcases cases_of_concat split with ⟨between, rfl, rfl⟩ | ⟨rfl, rfl, rfl⟩
    · obtain ⟨issued, expiry, holds, left⟩ :=
        sound.held positive before early between user token rfl
        logsIn fun later member => stays later (List.mem_append_left _ member)
      have notIssued : token ∉ event.issued := fun again =>
        (apart early (by simp) token again).1 issued
      have notOut : ¬event.LogsOut token := stays event (by simp)
      refine ⟨issued, expiry, store.holds notIssued notOut holds, ?_⟩
      rw [elapsed_concat, now]
      omega
    · obtain ⟨issued, instant, holds⟩ := logsIn_step positive reliable stepped logsIn
      refine ⟨issued, _, holds, ?_⟩
      rw [now, instant]
      rfl
  · intro before early after token split logsOut
    rcases cases_of_concat split with ⟨between, rfl, rfl⟩ | ⟨rfl, rfl, rfl⟩
    · obtain ⟨gone, refused⟩ := sound.gone before early between token rfl logsOut
      have notIssued : token ∉ event.issued := fun again =>
        (apart early (by simp) token again).2 logsOut
      refine ⟨store.absent notIssued gone, fun later member => ?_⟩
      rcases List.mem_append.mp member with earlier | last
      · exact refused later earlier
      · rw [List.mem_singleton] at last
        subst last
        exact fun authenticates => authenticates_step stepped authenticates gone
    · exact ⟨logsOut_step reliable stepped logsOut, fun _ member => absurd member List.not_mem_nil⟩

/-- If Redis executes the commands of logins and logouts and the tokens are new, a session lives
from the answer to its login to that to its logout, or to the end of its time.  The server may find
sessions of an earlier run in Redis. -/
theorem lifeCycle_of_reliable {first : Site} {labels : List SiteStep} {events : List SiteEvent}
    (ran : run (step ttl) first labels = some (site, events))
    (reliable : RunMeets (step ttl) Reliable first labels) (fresh : Fresh events) :
    LifeCycle ttl site events := by
  have sound : Fresh events → site.Sound ttl events :=
    @run_invariant _ _ _ (step ttl) (fun site log => Fresh log → site.Sound ttl log) Reliable
      (fun current log label following made sound reliable stepped fresh => by
        obtain ⟨event, rfl, _⟩ := storeStep stepped
        exact (sound (List.pairwise_append.mp fresh).1).step reliable stepped fresh)
      first site [] events labels
      (fun _ => ⟨fun _ before _ _ _ _ split => by simp at split,
        fun before _ _ _ split => by simp at split⟩) reliable ran
  constructor
  · intro before event after user token split logsIn stays inTime
    have positive : 0 < ttl := by omega
    obtain ⟨_, expiry, holds, left⟩ :=
      (sound fresh).held positive before event after user token split logsIn stays
    exact holds.get (by omega)
  · intro before event after token split logsOut
    exact ((sound fresh).gone before event after token split logsOut).2

/-! ## A user logs in and out -/

/-- A slot that has received a request. -/
def slotOf (text : List UInt8) : HttpConn :=
  (HttpConn.receiving 7 (ascii "/root") text).requested.getD HttpConn.blank

/-- A login of `bob`. -/
def loginSlot : HttpConn :=
  slotOf (ascii "POST /2 HTTP/1.1\r\nContent-Length: 24\r\n\r\nuser=bob&password=secret")

/-- The token of his session. -/
def zeroToken : List UInt8 :=
  ascii "00000000000000000000000000000000"

/-- A request of a browser with a token. -/
def browserSlot (token page : List UInt8) : HttpConn :=
  slotOf (ascii "GET " ++ page ++ ascii " HTTP/1.1\r\nCookie: session_id=" ++ token ++
    ascii "\r\n\r\n")

/-- A request of his browser. -/
def cookieSlot (page : List UInt8) : HttpConn :=
  browserSlot zeroToken page

/-- The user table. -/
def bobOnly : Users :=
  fun name => if name = ascii "bob" then some (ascii "secret") else none

/-- Redis answers. -/
def answering : Attempt where
  connects := true
  delivery := .answered
  reconnects := true

/-- A command is lost on its way to Redis, and the connection is made again. -/
def losing : Attempt where
  connects := true
  delivery := .lost false
  reconnects := true

/-- A request whose commands Redis executes meets the condition. -/
theorem reliable_of_executes {conn : HttpConn} {env : Env} {attempt : Attempt}
    (executes : site.redis.Executes attempt) : site.Reliable (.request conn env attempt) :=
  ⟨fun _ _ _ _ => executes, fun _ _ _ _ => .inr executes⟩

/-- The step of a request that calls the session manager. -/
theorem step_of_calls {conn : HttpConn} {env : Env} {attempt : Attempt} {calls : List SessionCall}
    (made : (conn.doRequest (site.envFor env attempt)).toOption.map Reply.sessions = some calls)
    (some_ : calls ≠ []) :
    ∃ reply, reply.sessions = calls ∧
      site.step ttl (.request conn env attempt) = some ({ site with
        redis := calls.foldl (SessionCall.perform ttl env.sessionToken attempt) site.redis },
          [.handled conn env.sessionToken reply]) := by
  obtain ⟨reply, found, sessions⟩ := Option.map_eq_some_iff.mp made
  have done : conn.doRequest (site.envFor env attempt) = .ok reply := by
    cases outcome : conn.doRequest (site.envFor env attempt) with
    | error _ => simp [outcome, Except.toOption] at found
    | ok other => simpa [outcome, Except.toOption] using found
  have users : reply.users = site.users := by
    cases HttpConn.doRequest_acts done with
    | checks _ users | logsIn _ _ _ users | logsOut _ users | serves _ users => exact users
    | registers _ _ _ _ none_ => exact absurd (sessions.symm.trans none_) some_
  exact ⟨reply, sessions, by simp only [step, done, sessions, users]⟩

/-- Tokens are new if no cookie of an earlier request and no earlier session has had them. -/
theorem fresh_of_tokens {events : List SiteEvent}
    (apart : (events.map fun event => (event.issued, event.named)).Pairwise fun earlier later =>
      ∀ token ∈ later.1, token ∉ earlier.1 ∧ earlier.2 ≠ some token) : Fresh events := by
  rw [List.pairwise_map] at apart
  refine apart.imp fun {earlier later} new token member => ?_
  obtain ⟨notIssued, notNamed⟩ := new token member
  refine ⟨notIssued, fun logsOut => notNamed ?_⟩
  cases earlier with
  | handled conn drawn reply => exact logsOut.2.2.1
  | passed seconds => exact logsOut.elim

/-- The token of a session that `bob` has from an earlier run of the server. -/
def onesToken : List UInt8 :=
  ascii "11111111111111111111111111111111"

/-- The server once it has been started again. -/
def restarted : Site where
  users := bobOnly
  redis :=
    { connected := true, store := Expiring.empty.set (sessionKey onesToken) 60 (ascii "bob") }

/-- The server once `bob` has logged out. -/
def loggedOut : Site where
  users := bobOnly
  redis := { connected := true, store := restarted.redis.store.remove (sessionKey onesToken) }

/-- `bob` asks for the root page with his old session, logs out, asks again, and logs in. -/
def outAndIn : List SiteStep :=
  [.request (browserSlot onesToken (ascii "/")) Env.blank answering,
    .request (browserSlot onesToken (ascii "/4")) Env.blank answering,
    .request (browserSlot onesToken (ascii "/")) Env.blank answering,
    .request loginSlot Env.blank answering, .pass 10]

/-- What these steps do. -/
theorem run_outAndIn :
    ∃ site events, run (step 3600) restarted outAndIn = some (site, events) ∧
      events.map SiteEvent.calls = [[.verify onesToken true], [.remove onesToken],
        [.verify onesToken false], [.create (ascii "bob")], []] ∧
      events.map (fun event => (event.issued, event.named)) =
        [([], some onesToken), ([], some onesToken), ([], some onesToken), ([zeroToken], none),
          ([], none)] := by
  obtain ⟨_, made₁, checks⟩ := @step_of_calls 3600 restarted
    (browserSlot onesToken (ascii "/")) Env.blank answering [.verify onesToken true]
    (by decide +kernel) (List.cons_ne_nil _ _)
  obtain ⟨_, made₂, leaves⟩ := @step_of_calls 3600 restarted
    (browserSlot onesToken (ascii "/4")) Env.blank answering [.remove onesToken]
    (by decide +kernel) (List.cons_ne_nil _ _)
  obtain ⟨_, made₃, refused⟩ := @step_of_calls 3600 loggedOut
    (browserSlot onesToken (ascii "/")) Env.blank answering [.verify onesToken false]
    (by decide +kernel) (List.cons_ne_nil _ _)
  obtain ⟨_, made₄, enters⟩ := @step_of_calls 3600 loggedOut loginSlot
    Env.blank answering [.create (ascii "bob")] (by decide +kernel) (List.cons_ne_nil _ _)
  have checked : restarted.step 3600 (.request (browserSlot onesToken (ascii "/")) Env.blank
      answering) = some (restarted, _) := checks
  have left_ : restarted.step 3600 (.request (browserSlot onesToken (ascii "/4")) Env.blank
      answering) = some (loggedOut, _) := leaves
  have unchecked : loggedOut.step 3600 (.request (browserSlot onesToken (ascii "/")) Env.blank
      answering) = some (loggedOut, _) := refused
  refine ⟨_, _, run_of_step checked (run_of_step left_ (run_of_step unchecked
    (run_of_step enters (run_singleton rfl)))), ?_, ?_⟩
  · simp only [List.singleton_append, List.map_cons, List.map_nil, SiteEvent.calls, made₁, made₂,
      made₃, made₄]
  · have root : cookieToken (browserSlot onesToken (ascii "/")).cookie = some onesToken := by
      decide +kernel
    have logout : cookieToken (browserSlot onesToken (ascii "/4")).cookie = some onesToken := by
      decide +kernel
    have login : cookieToken loginSlot.cookie = none := by decide +kernel
    have zeros : tokenText Env.blank.sessionToken = zeroToken := by decide +kernel
    simp only [List.singleton_append, List.map_cons, List.map_nil, SiteEvent.issued,
      SiteEvent.named, made₁, made₂, made₃, made₄, List.filterMap_cons, List.filterMap_nil, root,
      logout, login, zeros]

theorem lifeCycle_of_reliable_login :
    ∃ site events,
      run (step 3600) restarted outAndIn = some (site, events) ∧
        events.map SiteEvent.calls = [[.verify onesToken true], [.remove onesToken],
          [.verify onesToken false], [.create (ascii "bob")], []] ∧
        LifeCycle 3600 site events := by
  obtain ⟨site, events, ran, calls, tokens⟩ := run_outAndIn
  refine ⟨site, events, ran, calls, lifeCycle_of_reliable ran ?_ (fresh_of_tokens ?_)⟩
  · have reliable : ∀ label ∈ outAndIn, ∀ site : Site, site.Reliable label := by
      have executes : ∀ redis : RedisManager, redis.Executes answering :=
        fun _ => ⟨.inr rfl, .inl rfl⟩
      simp only [outAndIn, List.forall_mem_cons]
      exact ⟨fun site => reliable_of_executes (executes site.redis),
        fun site => reliable_of_executes (executes site.redis),
        fun site => reliable_of_executes (executes site.redis),
        fun site => reliable_of_executes (executes site.redis), fun _ => trivial,
        fun _ member => absurd member List.not_mem_nil⟩
    exact (RunMeets.of_forall reliable restarted).mono fun site _ good => good site
  · rw [tokens]
    decide +kernel

/-- A logout whose `DEL` is lost is answered with its redirect, and the session goes on. -/
theorem not_lifeCycle_logout :
    ∃ site events,
      run (step 3600) (start bobOnly true)
          [.request loginSlot Env.blank answering, .request (cookieSlot (ascii "/4")) Env.blank
            losing,
            .request (cookieSlot (ascii "/")) Env.blank answering] = some (site, events) ∧
        ¬LifeCycle 3600 site events := by
  have facts : (run (step 3600) (start bobOnly true)
      [.request loginSlot Env.blank answering, .request (cookieSlot (ascii "/4")) Env.blank losing,
        .request (cookieSlot (ascii "/")) Env.blank answering]).map (fun outcome =>
      outcome.2.map SiteEvent.calls) =
      some [[.create (ascii "bob")], [.remove zeroToken], [.verify zeroToken true]] := by
    decide +kernel
  obtain ⟨⟨site, events⟩, ran, calls⟩ := Option.map_eq_some_iff.mp facts
  refine ⟨site, events, ran, ?_⟩
  obtain ⟨_, _, _, login, afterLogin, rfl⟩ := run_cons ran
  obtain ⟨_, _, _, logout, afterLogout, rfl⟩ := run_cons afterLogin
  obtain ⟨_, _, _, check, last, rfl⟩ := run_cons afterLogout
  obtain ⟨loginReply, _, rfl, _⟩ := step_request login
  obtain ⟨logoutReply, done, rfl, _⟩ := step_request logout
  obtain ⟨checkReply, _, rfl, _⟩ := step_request check
  cases last
  simp only [List.append_nil, List.cons_append, List.nil_append, List.map_cons, List.map_nil,
    SiteEvent.calls, List.cons.injEq, and_true] at calls
  obtain ⟨_, removed, verified⟩ := calls
  intro lives
  have logsOut : (SiteEvent.handled (cookieSlot (ascii "/4")) Env.blank.sessionToken
      logoutReply).LogsOut zeroToken := by
    rcases HttpConn.sessions_cases done with verifies | ⟨_, made⟩ |
      ⟨token, made, named, open_, flag⟩
    · obtain ⟨_, other⟩ := verifies (.remove zeroToken) (by rw [removed]; simp)
      exact SessionCall.noConfusion other
    · rw [removed] at made
      simp at made
    · rw [removed] at made
      cases made
      exact ⟨open_, flag, named, HttpConn.answers_of_remove done removed⟩
  have carries : cookieToken (cookieSlot (ascii "/")).cookie = some zeroToken := by
    decide +kernel
  refine lives.loggedOut [_] _ [_] zeroToken rfl logsOut _ (List.mem_singleton_self _)
    ⟨carries, ?_⟩
  rw [verified]
  exact List.mem_singleton_self _

end Site

end TimeGANWebServer.Http
