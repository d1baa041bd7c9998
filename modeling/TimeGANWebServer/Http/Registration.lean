import TimeGANWebServer.Http.Accounts
import TimeGANWebServer.Http.DocRoot
import TimeGANWebServer.Http.Form
import TimeGANWebServer.Support.Run
import Mathlib.Data.List.Nodup

/-!
# Registrations

A registration looks for the name in the user table, and if it is not there inserts a
row into the database and the user into the table.  The two differ when the query
fails, and when another registration of the name comes in between.
-/

namespace TimeGANWebServer.Http

open TimeGANWebServer.Support

/-! ## The page of a registration -/

/-- The page that a request selects: what is at `m_url` behind it. -/
def Reply.page (reply : Reply) : Option (List UInt8) :=
  reply.conn.url.map reply.conn.str

/-- The page of a registration: the one for success, if the name is new and the query succeeds. -/
def registrationPage (env : Env) (name password : List UInt8) : List UInt8 :=
  if env.users name = none ∧ env.mysqlQuery (HttpConn.sqlInsert name password) = true then
    ascii "/log.html"
  else
    ascii "/registerError.html"

namespace HttpConn

theorem register_page {conn next : HttpConn} {env : Env} {url : Int} {name password : List UInt8}
    {users : Users} (done : conn.register env url name password = .ok (.goOn next users)) :
    next.str url = registrationPage env name password := by
  simp only [register] at done
  split at done
  · contradiction
  · split at done
    case _ absent =>
        split at done
        · contradiction
        · split at done
          · contradiction
          case _ _ _ set =>
              cases done
              simp only [registrationPage, absent, true_and]
              split at set
              case isTrue succeeds => rw [if_pos succeeds, (setUrl_page (by decide) set).1]
              case isFalse fails => rw [if_neg fails, (setUrl_page (by decide) set).1]
    case _ known =>
        split at done
        · contradiction
        case _ _ set =>
            cases done
            rw [registrationPage, known, if_neg (by simp), (setUrl_page (by decide) set).1]

/-- Behind the form branch, serving a file keeps the page. -/
theorem serveFile_page (conn : HttpConn) (env : Env) (checkDir : Bool) (users : Users)
    (sessions : List SessionCall) :
    (conn.serveFile env checkDir users sessions).page = conn.url.map conn.str := by
  simp only [serveFile]
  split
  · rfl
  · split
    · rfl
    · split <;> rfl

/-- The form branch goes on with the page of a registration. -/
theorem form_registration {conn next : HttpConn} {env : Env} {url p : Int} {users : Users}
    (registers : conn.readBuf (p + 1) = 51) (done : conn.form env url p = .ok (.goOn next users)) :
    ∃ name password, conn.formFields = .ok (name, password) ∧
      next.str url = registrationPage env name password := by
  simp only [form, if_pos registers] at done
  split at done
  · contradiction
  · split at done
    · contradiction
    case _ name password fields => exact ⟨name, password, fields, register_page done⟩

theorem resolve_registration {conn : HttpConn} {env : Env} {url : Int} {resolved : Resolved}
    {name password : List UInt8} (post : conn.cgi = 1) (flag : conn.urlFlag url = some 51)
    (fields : conn.formFields = .ok (name, password))
    (done : conn.resolve env url [] = .ok resolved) :
    ∃ target users, resolved = .file target users [] ∧ target.url = conn.url ∧
      target.str url = registrationPage env name password := by
  simp only [resolve] at done
  split at done
  · contradiction
  · split at done
    · contradiction
    case _ slash isSlash =>
        have byte : conn.readBuf (url + slash + 1) = 51 := by
          have same : conn.urlFlag url = some (conn.readBuf (url + slash + 1)) := by
            simp only [urlFlag, isSlash, Option.map_some]
          exact Option.some.inj (same.symm.trans flag)
        rw [if_pos ⟨post, .inr byte⟩] at done
        split at done
        · contradiction
        case _ formed =>
            obtain ⟨_, _, _, ⟨_, _, same⟩ | ⟨other, _⟩ | ⟨other, _⟩⟩ := form_users formed
            · contradiction
            · exact absurd byte other
            · exact absurd byte other
        case _ next users formed =>
            obtain ⟨otherName, otherPassword, otherFields, shown⟩ :=
              form_registration (by exact byte) formed
            have same : conn.formFields = .ok (otherName, otherPassword) := otherFields
            rw [fields] at same
            cases same
            obtain ⟨page, isPage, _, rewritten⟩ := form_page formed
            have absent : ∀ page ∈ formPages, (52 : UInt8) ∉ page ++ [0] := by decide
            have stays : next.readBuf (url + slash + 1) ≠ 52 := by
              rw [rewritten]
              refine Memory.store_ne (absent page isPage) ?_
              rw [byte]
              decide
            rcases route_cases done with ⟨logout, _⟩ | ⟨_, realFile, rfl⟩
            · exact absurd logout stays
            · exact ⟨_, users, rfl, by rw [rewritten], shown⟩

/-- A registration is answered with its page. -/
theorem page_of_posts {conn : HttpConn} {env : Env} {reply : Reply} {name password : List UInt8}
    (posts : conn.PostsForm 51 name password) (done : conn.doRequest env = .ok reply) :
    reply.page = some (registrationPage env name password) := by
  obtain ⟨post, ⟨url, found, flag⟩, fields⟩ := id posts
  have open_ : ¬conn.Guarded url := fun guarded => posts.not_guarded ⟨url, found, guarded⟩
  have noDiagnosis : ¬(conn.cgi = 1 ∧ conn.str url = ascii "/diagnose") := by
    rintro ⟨_, diagnosis⟩
    rw [urlFlag_diagnose diagnosis] at flag
    exact absurd flag (by decide)
  simp only [doRequest, found, if_neg open_, afterLogin, if_neg noDiagnosis, staticFiles] at done
  split at done
  · contradiction
  case _ reply' resolved =>
      obtain ⟨target, users, same, _⟩ := resolve_registration post flag fields resolved
      contradiction
  case _ target users sessions resolved =>
      obtain ⟨_, _, same, sameUrl, page⟩ := resolve_registration post flag fields resolved
      cases same
      cases done
      rw [serveFile_page, sameUrl, found, Option.map_some, page]

end HttpConn

/-! ## Failed registrations -/

/-- Requests handled one after the other, each with the users the last one left. -/
def handleAll (users : Users) : List (HttpConn × Env) → Except Fault Users
  | [] => .ok users
  | (conn, env) :: requests =>
      match conn.doRequest { env with users := users } with
      | .error fault => .error fault
      | .ok reply => handleAll reply.users requests

/-- No sequence of requests changes an entry of the user table. -/
theorem handleAll_keeps {users last : Users} {requests : List (HttpConn × Env)}
    {name password : List UInt8} (known : users name = some password)
    (handled : handleAll users requests = .ok last) : last name = some password := by
  induction requests generalizing users with
  | nil =>
      cases handled
      exact known
  | cons request requests ih =>
      simp only [handleAll] at handled
      split at handled
      · contradiction
      case _ reply done => exact ih (HttpConn.doRequest_keeps known done) handled

namespace HttpConn

/-- The slot registers a new name, and the query for it fails. -/
structure RegistrationFails (conn : HttpConn) (env : Env) (name password : List UInt8) :
    Prop where
  posts : conn.PostsForm 51 name password
  fresh : env.users name = none
  fails : env.mysqlQuery (sqlInsert name password) = false

/-- **A registration whose query fails leaves an account all the same**: it takes the error page,
but the user table has changed, after any later requests the name logs in with the password, which
it did not before, and a registration of the name is refused, which it was not before. -/
theorem failed_registration_leaves_account {conn : HttpConn} {env : Env} {reply : Reply}
    {name password : List UInt8} (failed : conn.RegistrationFails env name password)
    (done : conn.doRequest env = .ok reply) :
    reply.page = some (ascii "/registerError.html") ∧ reply.users ≠ env.users ∧
      (∀ requests last, handleAll reply.users requests = .ok last →
        ∀ (later : HttpConn) (around : Env) (answer : Reply),
          (later.PostsForm 50 name password →
            later.doRequest { around with users := last } = .ok answer →
              .create name ∈ answer.sessions) ∧
          (∀ other, later.PostsForm 51 name other →
            later.doRequest { around with users := last } = .ok answer →
              answer.page = some (ascii "/registerError.html") ∧ answer.users = last)) ∧
      ∀ (later : HttpConn) (around : Env) (answer : Reply),
        (later.PostsForm 50 name password →
          later.doRequest { around with users := env.users } = .ok answer →
            .create name ∉ answer.sessions) ∧
        (∀ other, later.PostsForm 51 name other →
          later.doRequest { around with users := env.users } = .ok answer →
            answer.users name = some other ∧
              (around.mysqlQuery (sqlInsert name other) = true →
                answer.page = some (ascii "/log.html"))) := by
  obtain ⟨users, _⟩ := registers_of_posts failed.posts done
  rw [insertUser_of_none password failed.fresh] at users
  have known : reply.users name = some password := by
    rw [users, Function.update_self]
  refine ⟨?_, ?_, ?_, ?_⟩
  · rw [page_of_posts failed.posts done, registrationPage, if_neg]
    rintro ⟨_, succeeds⟩
    rw [failed.fails] at succeeds
    contradiction
  · intro same
    rw [same, failed.fresh] at known
    contradiction
  · intro requests last handled later around answer
    have still := handleAll_keeps known handled
    constructor
    · intro posts answered
      rw [(logsIn_of_posts posts answered).2, if_pos still]
      exact List.mem_singleton_self _
    · intro other posts answered
      refine ⟨?_, ?_⟩
      · rw [page_of_posts posts answered, registrationPage, if_neg]
        rintro ⟨absent, _⟩
        exact Option.some_ne_none password (still.symm.trans absent)
      · rw [(registers_of_posts posts answered).1]
        exact insertUser_of_some other still
  · intro later around answer
    constructor
    · intro posts answered
      have differing : env.users name ≠ some password := by
        rw [failed.fresh]
        nofun
      rw [(logsIn_of_posts posts answered).2, if_neg differing]
      exact List.not_mem_nil
    · intro other posts answered
      refine ⟨?_, fun succeeds => ?_⟩
      · rw [(registers_of_posts posts answered).1, insertUser_of_none other failed.fresh,
          Function.update_self]
      · rw [page_of_posts posts answered, registrationPage, if_pos ⟨failed.fresh, succeeds⟩]

/-- A slot that has received a form, with a connection to the database. -/
def posting (page body : List UInt8) : HttpConn :=
  { (receiving 5 (ascii "root") (formRequest page body)).requested.getD HttpConn.blank with
    mysql := some 0 }

theorem postsForm_of_fields {conn : HttpConn} {flag : UInt8} {name password : List UInt8}
    (seen : (conn.cgi, conn.url.bind conn.urlFlag, conn.formFields.toOption) =
      (1, some flag, some (name, password))) : conn.PostsForm flag name password := by
  simp only [Prod.mk.injEq] at seen
  obtain ⟨post, isFlag, fields⟩ := seen
  refine ⟨post, Option.bind_eq_some_iff.mp isFlag, ?_⟩
  cases copied : conn.formFields with
  | error fault => simp [copied, Except.toOption] at fields
  | ok outcome => simpa [copied, Except.toOption] using fields

/-- A registration of `bob`, his login, and another registration of his name. -/
theorem posting_bob :
    (posting (ascii "/3") (ascii "user=bob&password=secret")).PostsForm 51 (ascii "bob")
        (ascii "secret") ∧
      (posting (ascii "/2") (ascii "user=bob&password=secret")).PostsForm 50 (ascii "bob")
        (ascii "secret") ∧
      (posting (ascii "/3") (ascii "user=bob&password=other")).PostsForm 51 (ascii "bob")
        (ascii "other") :=
  ⟨postsForm_of_fields (by decide +kernel), postsForm_of_fields (by decide +kernel),
    postsForm_of_fields (by decide +kernel)⟩

/-- The user table with `bob`. -/
def bobInserted : Users :=
  insertUser Env.blank.users (ascii "bob") (ascii "secret")

/-- These requests are answered, the later ones whether or not the database is back. -/
theorem posting_answered :
    (∃ reply, (posting (ascii "/3") (ascii "user=bob&password=secret")).doRequest Env.blank =
        .ok reply) ∧
      (∃ answer, (posting (ascii "/2") (ascii "user=bob&password=secret")).doRequest
        { Env.blank with users := bobInserted } = .ok answer) ∧
      ∃ again, (posting (ascii "/3") (ascii "user=bob&password=other")).doRequest
        { Env.blank with users := bobInserted, mysqlQuery := fun _ => true } = .ok again := by
  have answers : ∀ {outcome : Except Fault Reply}, outcome.isOk = true →
      ∃ reply, outcome = .ok reply := by
    rintro (_ | reply) answered
    · contradiction
    · exact ⟨reply, rfl⟩
  exact ⟨answers (by decide +kernel), answers (by decide +kernel), answers (by decide +kernel)⟩

/-- The name and the password of a failed registration log in later, and another registration of the
name is refused when the database is back. -/
theorem failed_registration_leaves_account_bob :
    ∃ reply answer again,
      (posting (ascii "/3") (ascii "user=bob&password=secret")).doRequest Env.blank = .ok reply ∧
      reply.page = some (ascii "/registerError.html") ∧ reply.users ≠ Env.blank.users ∧
      (posting (ascii "/2") (ascii "user=bob&password=secret")).doRequest
        { Env.blank with users := reply.users } = .ok answer ∧
      .create (ascii "bob") ∈ answer.sessions ∧
      (posting (ascii "/3") (ascii "user=bob&password=other")).doRequest
        { Env.blank with users := reply.users, mysqlQuery := fun _ => true } = .ok again ∧
      again.page = some (ascii "/registerError.html") ∧ again.users = reply.users := by
  obtain ⟨registers, logsIn, again⟩ := posting_bob
  obtain ⟨⟨reply, done⟩, ⟨answer, answered⟩, ⟨refused, isRefused⟩⟩ := posting_answered
  have users : reply.users = bobInserted := (registers_of_posts registers done).1
  rw [← users] at answered isRefused
  obtain ⟨page, changed, later, _⟩ :=
    failed_registration_leaves_account ⟨registers, rfl, rfl⟩ done
  have entered := (later [] reply.users rfl _ Env.blank answer).1 logsIn answered
  have same := (later [] reply.users rfl _ { Env.blank with mysqlQuery := fun _ => true }
    refused).2 _ again isRefused
  exact ⟨reply, answer, refused, done, page, changed, answered, entered, isRefused, same⟩

/-- A registration whose query fails is answered with the error page, and yet there is an account:
its name and password log in, and a registration of the name takes the error page when the database
is back. -/
theorem failed_registration_bob :
    ∃ reply answer again,
      (posting (ascii "/3") (ascii "user=bob&password=secret")).doRequest Env.blank = .ok reply ∧
      Env.blank.mysqlQuery (sqlInsert (ascii "bob") (ascii "secret")) = false ∧
      reply.page = some (ascii "/registerError.html") ∧
      Env.blank.users (ascii "bob") = none ∧ reply.users (ascii "bob") = some (ascii "secret") ∧
      (posting (ascii "/2") (ascii "user=bob&password=secret")).doRequest
        { Env.blank with users := reply.users } = .ok answer ∧
      answer.sessions = [.create (ascii "bob")] ∧
      (posting (ascii "/3") (ascii "user=bob&password=other")).doRequest
        { Env.blank with users := reply.users, mysqlQuery := fun _ => true } = .ok again ∧
      again.page = some (ascii "/registerError.html") ∧
      again.users (ascii "bob") = some (ascii "secret") := by
  obtain ⟨registers, logsIn, again⟩ := posting_bob
  obtain ⟨⟨reply, done⟩, ⟨answer, answered⟩, ⟨refused, isRefused⟩⟩ := posting_answered
  have users : reply.users = bobInserted := (registers_of_posts registers done).1
  have known : bobInserted (ascii "bob") = some (ascii "secret") := by decide
  have entered := (logsIn_of_posts logsIn answered).2
  rw [if_pos known] at entered
  have stays : refused.users (ascii "bob") = some (ascii "secret") :=
    doRequest_keeps (by exact known) isRefused
  refine ⟨reply, answer, refused, done, rfl, ?_, rfl, ?_, ?_, entered, ?_, ?_, stays⟩
  · exact page_of_posts registers done
  · rw [users, known]
  · rw [users, answered]
  · rw [users, isRefused]
  · exact page_of_posts again isRefused

end HttpConn

/-! ## Overlapping registrations -/

/-- A row of the table `user`. -/
abbrev Row : Type :=
  List UInt8 × List UInt8

/-- The loop of `initmysql_result`: a later row of a name replaces an earlier one. -/
def initmysqlResult (rows : List Row) : Users :=
  rows.foldl (fun users row => Function.update users row.1 (some row.2)) fun _ => none

theorem initmysqlResult_append (rows : List Row) (row : Row) :
    initmysqlResult (rows ++ [row]) =
      Function.update (initmysqlResult rows) row.1 (some row.2) := by
  simp only [initmysqlResult, List.foldl_append, List.foldl_cons, List.foldl_nil]

/-- The user table, the table in the database, and the registrations that found no user
of their name and have not inserted one yet. -/
structure Registry where
  users : Users
  rows : List Row
  pending : List Row

/-- The two steps of a registration: `users.find`, and the section under the lock. -/
inductive RegistryStep where
  | find (name password : List UInt8)
  | insert (index : Nat)
  deriving DecidableEq, Repr

namespace Registry

/-- One step, given the row a successful query adds to the table, with the name that is
answered with the success page. -/
def step (stored : List UInt8 → Row) (registry : Registry) :
    RegistryStep → Option (Registry × List (List UInt8))
  | .find name password =>
      if registry.users name = none then
        some ({ registry with pending := registry.pending ++ [(name, password)] }, [])
      else
        some (registry, [])
  | .insert index =>
      match registry.pending[index]? with
      | none => none
      | some (name, password) =>
          some ({
            users := insertUser registry.users name password
            rows := registry.rows ++ [stored (HttpConn.sqlInsert name password)]
            pending := registry.pending.eraseIdx index }, [name])

/-- A registration whose query succeeds and that nobody comes in between does the two steps, and
takes the success page. -/
theorem run_of_posts {conn : HttpConn} {env : Env} {reply : Reply} {name password : List UInt8}
    (posts : conn.PostsForm 51 name password) (done : conn.doRequest env = .ok reply)
    (fresh : env.users name = none)
    (succeeds : env.mysqlQuery (HttpConn.sqlInsert name password) = true)
    (stored : List UInt8 → Row) (registry : Registry) (users : registry.users = env.users) :
    reply.page = some (ascii "/log.html") ∧
      ∃ last, run (step stored) registry [.find name password, .insert registry.pending.length] =
          some (last, [name]) ∧ last.users = reply.users ∧ last.pending = registry.pending := by
  have found : registry.users name = none := by rw [users, fresh]
  have first : registry.step stored (.find name password) =
      some ({ registry with pending := registry.pending ++ [(name, password)] }, []) :=
    if_pos found
  have second : Registry.step stored
      { registry with pending := registry.pending ++ [(name, password)] }
        (.insert registry.pending.length) = some ({
      users := insertUser registry.users name password
      rows := registry.rows ++ [stored (HttpConn.sqlInsert name password)]
      pending := registry.pending }, [name]) := by
    simp [step, List.eraseIdx_append_of_length_le]
  refine ⟨?_, _, run_of_step first (run_of_step second rfl), ?_, rfl⟩
  · rw [HttpConn.page_of_posts posts done, registrationPage, if_pos ⟨fresh, succeeds⟩]
  · rw [(HttpConn.registers_of_posts posts done).1, users]

/-- A registration of a known name does the first one only, and takes the error page. -/
theorem run_of_posts_known {conn : HttpConn} {env : Env} {reply : Reply}
    {name password : List UInt8} (posts : conn.PostsForm 51 name password)
    (done : conn.doRequest env = .ok reply) (known : env.users name ≠ none)
    (stored : List UInt8 → Row) (registry : Registry) (users : registry.users = env.users) :
    reply.page = some (ascii "/registerError.html") ∧ reply.users = registry.users ∧
      run (step stored) registry [.find name password] = some (registry, []) := by
  obtain ⟨present, isPresent⟩ := Option.ne_none_iff_exists'.mp known
  have found : ¬registry.users name = none := by rwa [users]
  refine ⟨?_, ?_, run_singleton (if_neg found)⟩
  · rw [HttpConn.page_of_posts posts done, registrationPage, if_neg fun new => known new.1]
  · rw [(HttpConn.registers_of_posts posts done).1, insertUser_of_some password isPresent, users]

/-- A name is looked up while no registration of it is between its own look-up and its
insertion, and the table takes a row as it is. -/
def Separate (stored : List UInt8 → Row) (registry : Registry) : RegistryStep → Prop
  | .find name _ => ∀ row ∈ registry.pending, row.1 ≠ name
  | .insert index => ∀ row, registry.pending[index]? = some row →
      stored (HttpConn.sqlInsert row.1 row.2) = row

instance (stored : List UInt8 → Row) (registry : Registry) (label : RegistryStep) :
    Decidable (registry.Separate stored label) :=
  match label with
  | .find name _ => inferInstanceAs (Decidable (∀ row ∈ registry.pending, row.1 ≠ name))
  | .insert index =>
      match isRow : registry.pending[index]? with
      | none => .isTrue fun row same => by rw [isRow] at same; contradiction
      | some row => decidable_of_iff (stored (HttpConn.sqlInsert row.1 row.2) = row)
          ⟨fun keeps other same => by rw [isRow, Option.some.injEq] at same; exact same ▸ keeps,
            fun keeps => keeps row isRow⟩

/-- What the start satisfies and every such step keeps. -/
structure Consistent (registry : Registry) (succeeded : List (List UInt8)) : Prop where
  reload : registry.users = initmysqlResult registry.rows
  free : ∀ row ∈ registry.pending, registry.users row.1 = none
  apart : (registry.pending.map Prod.fst).Nodup
  known : ∀ name ∈ succeeded, registry.users name ≠ none
  once : succeeded.Nodup

theorem Consistent.find {stored : List UInt8 → Row} {registry next : Registry}
    {succeeded effects : List (List UInt8)} {name password : List UInt8}
    (consistent : registry.Consistent succeeded)
    (separate : ∀ row ∈ registry.pending, row.1 ≠ name)
    (stepped : registry.step stored (.find name password) = some (next, effects)) :
    next.Consistent (succeeded ++ effects) := by
  simp only [step] at stepped
  split at stepped
  case isTrue absent =>
      cases stepped
      rw [List.append_nil]
      refine ⟨consistent.reload, ?_, ?_, consistent.known, consistent.once⟩
      · intro row member
        rcases List.mem_append.mp member with before | new
        · exact consistent.free row before
        · rw [List.mem_singleton.mp new]
          exact absent
      · rw [List.map_append, List.nodup_append]
        refine ⟨consistent.apart, List.nodup_singleton _, ?_⟩
        intro other inPending new isNew
        obtain ⟨row, member, rfl⟩ := List.mem_map.mp inPending
        rw [List.map_singleton, List.mem_singleton] at isNew
        rw [isNew]
        exact separate row member
  case isFalse =>
      cases stepped
      rwa [List.append_nil]

theorem Consistent.insert {stored : List UInt8 → Row} {registry next : Registry}
    {succeeded effects : List (List UInt8)} {index : Nat}
    (consistent : registry.Consistent succeeded)
    (separate : ∀ row, registry.pending[index]? = some row →
      stored (HttpConn.sqlInsert row.1 row.2) = row)
    (stepped : registry.step stored (.insert index) = some (next, effects)) :
    next.Consistent (succeeded ++ effects) := by
  simp only [step] at stepped
  split at stepped
  · contradiction
  case _ name password isPending =>
      cases stepped
      have absent := consistent.free (name, password) (List.mem_of_getElem? isPending)
      have others : ∀ row ∈ registry.pending.eraseIdx index, row.1 ≠ name := by
        intro row member same
        obtain ⟨other, different, isOther⟩ := List.mem_eraseIdx_iff_getElem?.mp member
        apply different
        have inside : other < (registry.pending.map Prod.fst).length := by
          rw [List.length_map]
          exact (List.getElem?_eq_some_iff.mp isOther).1
        refine (List.getElem?_inj inside consistent.apart).mp ?_
        rw [List.getElem?_map, List.getElem?_map, isOther, isPending, Option.map_some,
          Option.map_some, same]
      have users : insertUser registry.users name password =
          Function.update registry.users name (some password) :=
        insertUser_of_none password absent
      refine ⟨?_, ?_, ?_, ?_, ?_⟩
      · simp only [users]
        rw [initmysqlResult_append, separate (name, password) isPending, consistent.reload]
      · intro row member
        simp only [users]
        rw [Function.update_of_ne (others row member)]
        exact consistent.free row (List.mem_of_mem_eraseIdx member)
      · exact consistent.apart.sublist ((List.eraseIdx_sublist _ _).map _)
      · intro other member
        simp only [users]
        by_cases same : other = name
        · rw [same, Function.update_self]
          nofun
        · rw [Function.update_of_ne same]
          rcases List.mem_append.mp member with before | new
          · exact consistent.known other before
          · exact absurd (List.mem_singleton.mp new) same
      · rw [List.nodup_append]
        refine ⟨consistent.once, List.nodup_singleton _, ?_⟩
        intro other member new isNew same
        rw [List.mem_singleton.mp isNew] at same
        exact consistent.known other member (same ▸ absent)

/-- **In every run of registrations that look up a name only while no other registration
of it is pending, and whose rows the table takes as they are, each name is answered
with the success page at most once, and the user table is the one a restart makes of
the rows.** -/
theorem registrations_consistent {stored : List UInt8 → Row} {registry last : Registry}
    {labels : List RegistryStep} {succeeded : List (List UInt8)}
    (same : registry.users = initmysqlResult registry.rows) (quiescent : registry.pending = [])
    (meets : RunMeets (step stored) (Separate stored) registry labels)
    (ran : run (step stored) registry labels = some (last, succeeded)) :
    (∀ name, succeeded.count name ≤ 1) ∧ last.users = initmysqlResult last.rows := by
  have start : registry.Consistent [] := by
    refine ⟨same, ?_, ?_, ?_, List.nodup_nil⟩
    · rw [quiescent]
      exact fun _ => nofun
    · rw [quiescent]
      exact List.nodup_nil
    · exact fun _ => nofun
  have kept := run_invariant Consistent
    (fun state log label next effects holds separate stepped => by
      cases label with
      | find name password => exact holds.find separate stepped
      | insert index => exact holds.insert separate stepped) start meets ran
  rw [List.nil_append] at kept
  exact ⟨fun name => List.nodup_iff_count_le_one.mp kept.once name, kept.reload⟩

/-- No users and an empty table. -/
def empty : Registry where
  users := fun _ => none
  rows := []
  pending := []

/-- A table that takes the rows of `bob` and `eve` as they are. -/
def storedPlain (query : List UInt8) : Row :=
  if query = HttpConn.sqlInsert (ascii "bob") (ascii "secret") then (ascii "bob", ascii "secret")
  else if query = HttpConn.sqlInsert (ascii "bob") (ascii "other") then
    (ascii "bob", ascii "other")
  else (ascii "eve", ascii "other")

theorem registrations_consistent_apart :
    ∃ last succeeded, run (step storedPlain) empty [.find (ascii "bob") (ascii "secret"), .insert 0,
        .find (ascii "bob") (ascii "other"), .find (ascii "eve") (ascii "other"), .insert 0] =
          some (last, succeeded) ∧
      (∀ name, succeeded.count name ≤ 1) ∧ last.users = initmysqlResult last.rows := by
  have ran : (run (step storedPlain) empty [.find (ascii "bob") (ascii "secret"), .insert 0,
      .find (ascii "bob") (ascii "other"), .find (ascii "eve") (ascii "other"),
      .insert 0]).isSome = true := by
    decide +kernel
  obtain ⟨⟨last, succeeded⟩, ran⟩ := Option.isSome_iff_exists.mp ran
  exact ⟨last, succeeded, ran, registrations_consistent rfl rfl (by decide +kernel) ran⟩

/-- Two registrations of a name that look it up one right after the other both take the
success page, and a restart changes the password. -/
theorem registrations_overlap :
    ∃ last, run (step storedPlain) empty [.find (ascii "bob") (ascii "secret"),
        .find (ascii "bob") (ascii "other"), .insert 0, .insert 0] =
          some (last, [ascii "bob", ascii "bob"]) ∧
      last.pending = [] ∧ last.users (ascii "bob") = some (ascii "secret") ∧
      initmysqlResult last.rows (ascii "bob") = some (ascii "other") := by
  have ran : (run (step storedPlain) empty [.find (ascii "bob") (ascii "secret"),
      .find (ascii "bob") (ascii "other"), .insert 0, .insert 0]).map (fun last =>
        (last.2, last.1.pending, decide (last.1.users (ascii "bob") = some (ascii "secret")),
          decide (initmysqlResult last.1.rows (ascii "bob") = some (ascii "other")))) =
      some ([ascii "bob", ascii "bob"], [], true, true) := by
    decide +kernel
  obtain ⟨⟨last, succeeded⟩, ran, outcome⟩ := Option.map_eq_some_iff.mp ran
  simp only [Prod.mk.injEq, decide_eq_true_eq] at outcome
  obtain ⟨rfl, quiescent, users, reload⟩ := outcome
  exact ⟨last, ran, quiescent, users, reload⟩

end Registry

end TimeGANWebServer.Http
