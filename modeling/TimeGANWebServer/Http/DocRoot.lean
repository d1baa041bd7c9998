import TimeGANWebServer.Http.Process
import TimeGANWebServer.Support.Paths

/-!
# Files below the document root

`do_request` puts the document root and a name into `m_real_file` and hands the path to
`stat`.  The name is one of the server's own pages, or the URL as the client sent it, cut
off at the end of the buffer.
-/

namespace TimeGANWebServer.Http

open TimeGANWebServer.Support

/-! ## Paths -/

/-- What a segment of a path does. -/
def moveOf (segment : List UInt8) : Move (List UInt8) :=
  if segment = [] ∨ segment = ascii "." then .stay
  else if segment = ascii ".." then .up
  else .down segment

/-- The segments of a path between slashes. -/
def movesOf (path : List UInt8) : List (Move (List UInt8)) :=
  (path.splitOnP (· == 47)).map moveOf

/-- An absolute path with its dot segments resolved. -/
def resolved (path : List UInt8) : Directory (List UInt8) :=
  follow [] (movesOf path)

/-- A path leads to a directory or below it. -/
def Below (root path : List UInt8) : Prop :=
  resolved root <+: resolved path

instance (root path : List UInt8) : Decidable (Below root path) :=
  inferInstanceAs (Decidable (_ <+: _))

/-- A name behind a root: none, or one that begins with a slash. -/
def IsName (name : List UInt8) : Prop :=
  name = [] ∨ ∃ rest, name = 47 :: rest

/-- A path below a root, by the route of the name behind the root. -/
theorem below_append_iff {root name : List UInt8} (isName : IsName name) :
    Below root (root ++ name) ↔ (routeOf (movesOf name)).Returns (resolved root) := by
  rcases isName with rfl | ⟨rest, rfl⟩
  · rw [List.append_nil]
    exact iff_of_true (List.prefix_refl _) (Route.returns_of_ups_eq_zero _ rfl)
  · have whole : movesOf (root ++ 47 :: rest) = movesOf root ++ movesOf rest := by
      rw [movesOf, List.splitOnP_append_cons root rest rfl, List.map_append]
      rfl
    have behind : movesOf (47 :: rest) = .stay :: movesOf rest := by
      have first : (47 :: rest).splitOnP (· == 47) = [] :: rest.splitOnP (· == 47) :=
        List.splitOnP_append_cons [] rest rfl
      rw [movesOf, first]
      rfl
    have same : routeOf (movesOf (47 :: rest)) = routeOf (movesOf rest) := by
      rw [behind]
      rfl
    rw [Below, resolved, resolved, whole, follow_append, prefix_follow_iff, same]

theorem IsName.take {name : List UInt8} (isName : IsName name) (count : Nat) :
    IsName (name.take count) := by
  rcases isName with rfl | ⟨rest, rfl⟩
  · exact .inl List.take_nil
  · cases count with
    | zero => exact .inl rfl
    | succ count => exact .inr ⟨rest.take count, rfl⟩

/-- The pages the server itself names. -/
def ownPages : List (List UInt8) :=
  [ascii "/diagnose.html", ascii "/register.html", ascii "/log.html", ascii "/picture.html",
    ascii "/video.html", ascii "/fans.html", ascii "/registerError.html", ascii "/logError.html"]

/-- A page of the server is below the root, also when its name is cut off. -/
theorem below_ownPage {page : List UInt8} (own : page ∈ ownPages) (root : List UInt8)
    (count : Nat) :
    Below root (root ++ page.take count) := by
  have facts : ∀ page ∈ ownPages, page.head? = some 47 ∧ page.length < 20 ∧
      ∀ count < 20, (routeOf (movesOf (page.take count))).ups = 0 := by
    decide +kernel
  obtain ⟨slash, short, level⟩ := facts page own
  have isName : IsName page := by
    obtain ⟨rest, same⟩ := List.head?_eq_some_iff.mp slash
    exact .inr ⟨rest, same⟩
  rw [below_append_iff (isName.take count)]
  apply Route.returns_of_ups_eq_zero
  by_cases inside : count < 20
  · exact level count inside
  · have whole : page.take count = page.take 19 := by
      rw [List.take_of_length_le (by omega), List.take_of_length_le (by omega)]
    rw [whole]
    exact level 19 (by decide)

/-! ## What is in `m_real_file` -/

theorem holds_append {mem : Memory} {start : Int} {left right : List UInt8}
    (first : mem.Holds start left) (second : mem.Holds (start + left.length) right) :
    mem.Holds start (left ++ right) := by
  intro offset inBounds
  by_cases inLeft : offset < left.length
  · rw [first offset inLeft, List.getElem_append_left]
  · rw [List.length_append] at inBounds
    have behind := second (offset - left.length) (by omega)
    have index : start + (left.length : Int) + ((offset - left.length : Nat) : Int) =
        start + offset := by omega
    rw [index] at behind
    rw [behind, List.getElem_append_right (by omega)]

/-- A text without a NUL is read as it is. -/
theorem takeWhile_text {text : List UInt8} (noNul : (0 : UInt8) ∉ text) :
    text.takeWhile (· ≠ 0) = text := by
  refine List.takeWhile_eq_self_iff.mpr fun byte member => ?_
  simpa using fun zero : byte = 0 => noNul (zero ▸ member)

/-- The path of a name stored behind a root. -/
theorem cstring_path {mem : Memory} {root name : List UInt8} (rootText : (0 : UInt8) ∉ root)
    (nameText : (0 : UInt8) ∉ name) (holdsRoot : mem.Holds 0 root)
    (holdsName : mem.Holds root.length name) (nul : mem (root.length + name.length) = 0)
    (short : root.length + name.length < filenameLen) :
    mem.cstring filenameLen 0 = root ++ name := by
  have behind : mem.Holds (0 + (root.length : Int)) name := by rwa [Int.zero_add]
  have length : (0 : Int) + ((root ++ name).length : Nat) = root.length + name.length := by
    rw [List.length_append]
    omega
  rw [Memory.cstring_of_holds (holds_append holdsRoot behind) (by rw [length]; exact nul)
    (by rw [length]; omega)]
  refine takeWhile_text fun member => ?_
  exact (List.mem_append.mp member).elim rootText nameText

/-- `m_real_file` with the root in it, and its last byte still NUL. -/
structure HasRoot (mem : Memory) (root : List UInt8) : Prop where
  holds : mem.Holds 0 root
  nul : mem 199 = 0

theorem strncpy_length (text : List UInt8) (count : Nat) : (strncpy text count).length = count := by
  simp only [strncpy, List.length_append, List.length_take, List.length_replicate]
  omega

/-- Copying a name with `strncpy` keeps the root. -/
theorem HasRoot.strncpy {mem : Memory} {root : List UInt8} (has : HasRoot mem root)
    (short : root.length < filenameLen) (text : List UInt8) :
    HasRoot (mem.store root.length (strncpy text (filenameLen - root.length - 1))) root where
  holds offset inBounds := by
    have before : (0 : Int) + offset < root.length := by omega
    rw [Memory.store_of_lt before]
    exact has.holds offset inBounds
  nul := by
    have size : filenameLen = 200 := rfl
    rw [Memory.store_of_le (by rw [strncpy_length]; omega)]
    exact has.nul

/-- The path of a name copied with `strncpy`: it is cut off at the end of the buffer. -/
theorem HasRoot.cstring_strncpy {mem : Memory} {root text : List UInt8} (has : HasRoot mem root)
    (short : root.length < filenameLen) (rootText : (0 : UInt8) ∉ root)
    (noNul : (0 : UInt8) ∉ text) :
    (mem.store root.length (Http.strncpy text (filenameLen - root.length - 1))).cstring
      filenameLen 0 = root ++ text.take (filenameLen - root.length - 1) := by
  have stored := mem.holds_store root.length (Http.strncpy text (filenameLen - root.length - 1))
  have length := strncpy_length text (filenameLen - root.length - 1)
  have taken : (text.take (filenameLen - root.length - 1)).length ≤
      filenameLen - root.length - 1 := List.length_take_le _ _
  refine cstring_path rootText (fun member => noNul (List.mem_of_mem_take member))
    (has.strncpy short text).holds stored.append_left ?_ (by omega)
  by_cases padded : text.length < filenameLen - root.length - 1
  · have whole : text.take (filenameLen - root.length - 1) = text :=
      List.take_of_length_le (by omega)
    have nul := stored text.length (by omega)
    rw [whole, nul]
    simp only [Http.strncpy, whole]
    rw [List.getElem_append_right (Nat.le_refl _), List.getElem_replicate]
  · have cut :
        (text.take (filenameLen - root.length - 1)).length = filenameLen - root.length - 1 := by
      rw [List.length_take]
      omega
    have last : (root.length : Int) + ((text.take (filenameLen - root.length - 1)).length : Nat) =
        199 := by
      have size : filenameLen = 200 := rfl
      omega
    rw [last]
    exact (has.strncpy short text).nul

namespace HttpConn

/-! ## The path handed to `stat` -/

/-- The path `do_request` hands to `stat`, if it comes to that. -/
def statPath (conn : HttpConn) (env : Env) : Option (List UInt8) :=
  conn.url.bind fun url =>
    if conn.Guarded url ∧ (env.checkSession conn.cookie).1 = false then
      none
    else if conn.cgi = 0 ∧ conn.str url = ascii "/" then
      if filenameLen ≤ (conn.docRoot ++ ascii "/diagnose.html").length then
        none
      else
        some conn.rootFile.realPath
    else if conn.cgi = 1 ∧ conn.str url = ascii "/diagnose" then
      none
    else
      match conn.resolve env url [] with
      | .ok (.file target _ _) => some target.realPath
      | _ => none

end HttpConn

/-- A reply is made from what `stat` says about a path, or without a path. -/
def Reply.UsesPath (reply : Reply) (env : Env) (path : Option (List UInt8)) : Prop :=
  (∃ (target : HttpConn) (checkDir : Bool) (users : List UInt8 → Option (List UInt8))
      (sessions : List SessionCall),
    path = some target.realPath ∧ reply = target.serveFile env checkDir users sessions) ∨
  path = none ∧ (reply.code = .redirectRequest ∨ reply.code = .diagnoseRequest ∨
    reply.code = .diagnoseCsvRequest)

namespace HttpConn

theorem staticFiles_usesPath {conn : HttpConn} {env : Env} {url : Int}
    {sessions : List SessionCall} {reply : Reply}
    (done : conn.staticFiles env url sessions = .ok reply) :
    reply.UsesPath env (match conn.resolve env url [] with
      | .ok (.file target _ _) => some target.realPath
      | _ => none) := by
  simp only [staticFiles] at done
  split at done
  · contradiction
  case _ redirect resolvedTo =>
      cases done
      rcases resolve_cases resolvedTo with ⟨logs, _, same, isRedirect⟩ | ⟨_, _, _, _, same, _⟩
      · cases same
        refine .inr ⟨?_, .inl isRedirect.code⟩
        split
        case _ target users last file =>
            rcases resolve_cases file with ⟨_, _, same, _⟩ | ⟨logsNot, _⟩
            · cases same
            · exact absurd logs logsNot
        · rfl
      · cases same
  case _ target users last resolvedTo =>
      cases done
      obtain ⟨_, fresh⟩ := resolve_sessions resolvedTo
      exact .inl ⟨target, true, users, last, by rw [fresh], rfl⟩

/-- `do_request` serves the file at the path it hands to `stat`, or does without. -/
theorem doRequest_usesPath {conn : HttpConn} {env : Env} {reply : Reply}
    (done : conn.doRequest env = .ok reply) : reply.UsesPath env (conn.statPath env) := by
  have behind : ∀ url sessions, conn.url = some url →
      ¬(conn.Guarded url ∧ (env.checkSession conn.cookie).1 = false) →
      ¬(conn.cgi = 0 ∧ conn.str url = ascii "/") →
      conn.afterLogin env url sessions = .ok reply →
      reply.UsesPath env (conn.statPath env) := by
    intro url sessions found passed notRoot done
    simp only [statPath, found, Option.bind_some, if_neg passed, if_neg notRoot]
    simp only [afterLogin] at done
    split at done
    case isTrue diagnosis =>
        rw [if_pos diagnosis]
        simp only [diagnosePost] at done
        split at done
        · contradiction
        · split at done
          · contradiction
          · cases done
            exact .inr ⟨rfl, .inr (.inl rfl)⟩
          · cases done
            exact .inr ⟨rfl, .inr (.inr rfl)⟩
    case isFalse notDiagnosis =>
        rw [if_neg notDiagnosis]
        exact staticFiles_usesPath done
  simp only [doRequest] at done
  split at done
  · contradiction
  case _ url found =>
      split at done
      case isTrue guarded =>
          split at done
          case _ sessions refused =>
              cases done
              have denied : conn.Guarded url ∧ (env.checkSession conn.cookie).1 = false :=
                ⟨guarded, by rw [refused]⟩
              refine .inr ⟨?_, .inl rfl⟩
              simp only [statPath, found, Option.bind_some, if_pos denied]
          case _ sessions valid =>
              have passed : ¬(conn.Guarded url ∧ (env.checkSession conn.cookie).1 = false) := by
                rintro ⟨_, refused⟩
                rw [valid] at refused
                contradiction
              split at done
              case isTrue root =>
                  simp only [statPath, found, Option.bind_some, if_neg passed,
                    if_pos (And.intro guarded.1 root)]
                  simp only [rootPage] at done
                  split at done
                  · contradiction
                  case isFalse fits =>
                      cases done
                      rw [if_neg fits]
                      exact .inl ⟨conn.rootFile, false, env.users, sessions, rfl, rfl⟩
              case isFalse notRoot =>
                  exact behind url sessions found passed (fun root => notRoot root.2) done
      case isFalse unguarded =>
          exact behind url [] found (fun refused => unguarded refused.1)
            (fun root => unguarded ⟨root.1, .inl root.2⟩) done

/-! ## The names in the path -/

/-- The URL itself names the file: it is not the root page, and its last segment begins
with none of the digits that stand for a form or a page of the server. -/
def NamesFile (conn : HttpConn) (url : Int) : Prop :=
  ¬(conn.cgi = 0 ∧ conn.str url = ascii "/") ∧ ∃ flag, conn.urlFlag url = some flag ∧
    ¬(conn.cgi = 1 ∧ (flag = 50 ∨ flag = 51)) ∧ shortcutPage flag = none

/-- The path is that of a page of the server, which may be cut off. -/
def OwnPath (conn : HttpConn) (path : List UInt8) : Prop :=
  ∃ page ∈ ownPages, ∃ count, path = conn.docRoot ++ page.take count

/-- The root copied into an empty `m_real_file`. -/
theorem hasRoot_of_fresh {conn : HttpConn} (fresh : conn.realFile = fun _ => 0)
    (short : conn.docRoot.length < filenameLen) :
    HasRoot (conn.realFile.store 0 (conn.docRoot ++ [0])) conn.docRoot ∧
      ∀ index : Int, (conn.docRoot.length : Int) ≤ index →
        (conn.realFile.store 0 (conn.docRoot ++ [0])) index = 0 := by
  have stored := conn.realFile.holds_store 0 (conn.docRoot ++ [0])
  have size : filenameLen = 200 := rfl
  have zero : ∀ index : Int, (conn.docRoot.length : Int) ≤ index →
      (conn.realFile.store 0 (conn.docRoot ++ [0])) index = 0 := by
    intro index behind
    by_cases last : index = conn.docRoot.length
    · subst last
      have nul := stored conn.docRoot.length (by simp)
      rw [Int.zero_add, List.getElem_append_right (Nat.le_refl _)] at nul
      simpa using nul
    · rw [Memory.store_of_le (by rw [List.length_append, List.length_singleton]; omega), fresh]
  exact ⟨⟨stored.append_left, zero 199 (by omega)⟩, zero⟩

theorem shortcutPage_own {flag : UInt8} {page : List UInt8}
    (shortcut : shortcutPage flag = some page) : page ∈ ownPages ∧ page ≠ [] ∧
    (0 : UInt8) ∉ page := by
  simp only [shortcutPage] at shortcut
  repeat' split at shortcut
  all_goals first | contradiction | (cases shortcut; decide)

/-- Behind the form branch: a page of the server, or the name in the URL. -/
theorem route_path {conn target : HttpConn} {env : Env} {url p : Int}
    {users last : List UInt8 → Option (List UInt8)} {sessions calls : List SessionCall}
    (done : conn.route env url p users sessions = .ok (.file target last calls))
    (rootText : (0 : UInt8) ∉ conn.docRoot) (short : conn.docRoot.length < filenameLen)
    (hasRoot : HasRoot conn.realFile conn.docRoot)
    (clear : (shortcutPage (conn.readBuf (p + 1))).isSome →
      ∀ index : Int, (conn.docRoot.length : Int) ≤ index → conn.realFile index = 0)
    (urlText : (0 : UInt8) ∉ conn.str url) :
    (∃ page, shortcutPage (conn.readBuf (p + 1)) = some page ∧
        target.realPath = conn.docRoot ++ page) ∨
      shortcutPage (conn.readBuf (p + 1)) = none ∧
        target.realPath = conn.docRoot ++
          (conn.str url).take (filenameLen - conn.docRoot.length - 1) := by
  simp only [route] at done
  split at done
  · simp at done
  · split at done
    case _ page shortcut =>
        split at done
        · contradiction
        case isFalse fits =>
            cases done
            obtain ⟨_, nonempty, pageText⟩ := shortcutPage_own shortcut
            have positive := List.length_pos_iff.mpr nonempty
            have zero := clear (by rw [shortcut]; rfl)
            have holdsRoot :
                (conn.realFile.store conn.docRoot.length page).Holds 0 conn.docRoot := by
              intro offset inBounds
              have before : (0 : Int) + offset < conn.docRoot.length := by omega
              rw [Memory.store_of_lt before]
              exact hasRoot.holds offset inBounds
            have nul : conn.realFile.store conn.docRoot.length page
                (conn.docRoot.length + page.length) = 0 := by
              rw [Memory.store_of_le (Int.le_refl _)]
              exact zero _ (by omega)
            exact .inl ⟨page, shortcut, cstring_path rootText pageText holdsRoot
              (conn.realFile.holds_store _ page) nul (by omega)⟩
    case _ noShortcut =>
        cases done
        exact .inr ⟨noShortcut, hasRoot.cstring_strncpy short rootText urlText⟩

/-- The pages the form branch rewrites the URL to. -/
def formPages : List (List UInt8) :=
  [ascii "/log.html", ascii "/registerError.html", ascii "/logError.html"]

theorem formPages_noNul : ∀ page ∈ formPages, (0 : UInt8) ∉ page := by
  decide

theorem formPages_own : ∀ page ∈ formPages, page ∈ ownPages := by
  decide

/-- No byte of these pages stands for a page, nor does the digit of the form. -/
theorem shortcutPage_stored {mem : Memory} {url index : Int} {page : List UInt8}
    (isPage : page ∈ formPages) (digit : mem index = 50 ∨ mem index = 51) :
    shortcutPage (mem.store url (page ++ [0]) index) = none := by
  have bytes : ∀ page ∈ formPages, ∀ byte ∈ page ++ [0], shortcutPage byte = none := by decide
  simp only [Memory.store]
  split
  case isTrue inside =>
      have inBounds : (index - url).toNat < (page ++ [0]).length := by omega
      rw [List.getD_eq_getElem?_getD, List.getElem?_eq_getElem inBounds, Option.getD_some]
      exact bytes page isPage _ (List.getElem_mem inBounds)
  case isFalse =>
      rcases digit with digit | digit
      · rw [digit]
        rfl
      · rw [digit]
        rfl

/-- A URL rewritten to a page of the form branch. -/
theorem setUrl_page {conn next : HttpConn} {url : Int} {page : List UInt8}
    (isPage : page ∈ formPages)
    (set : conn.setUrl url page = .ok next) :
    next.str url = page ∧ next = { conn with readBuf := conn.readBuf.store url (page ++ [0]) } := by
  have keeps := setUrl_keeps set
  simp only [setUrl] at set
  split at set
  · contradiction
  case isFalse fits =>
      refine ⟨?_, keeps⟩
      have stored := conn.readBuf.holds_store url (page ++ [0])
      have nul := stored page.length (by simp)
      rw [List.getElem_append_right (Nat.le_refl _)] at nul
      rw [keeps]
      exact (Memory.cstring_of_holds stored.append_left (by simpa using nul) (by omega)).trans
        (takeWhile_text (formPages_noNul page isPage))

/-- The form branch goes on with a page in the URL. -/
theorem form_page {conn next : HttpConn} {env : Env} {url p : Int}
    {users : List UInt8 → Option (List UInt8)}
    (done : conn.form env url p = .ok (.goOn next users)) :
    ∃ page ∈ formPages, next.str url = page ∧
      next = { conn with
        realFile := conn.realFile.store conn.docRoot.length
          (strncpy (47 :: conn.str (url + 2)) (filenameLen - conn.docRoot.length - 1))
        readBuf := conn.readBuf.store url (page ++ [0]) } := by
  simp only [form] at done
  split at done
  · contradiction
  · split at done
    · contradiction
    · split at done
      · simp only [register] at done
        split at done
        · contradiction
        · split at done
          · split at done
            · contradiction
            · split at done
              · contradiction
              case _ _ _ set =>
                  cases done
                  split at set
                  · exact ⟨_, by decide, setUrl_page (by decide) set⟩
                  · exact ⟨_, by decide, setUrl_page (by decide) set⟩
          · split at done
            · contradiction
            case _ _ set =>
                cases done
                exact ⟨_, by decide, setUrl_page (by decide) set⟩
      · simp only [login] at done
        split at done
        · simp at done
        · split at done
          · contradiction
          case _ _ set =>
              cases done
              exact ⟨_, by decide, setUrl_page (by decide) set⟩

/-- A login that goes on shows the page for a failed one. -/
theorem form_login {conn next : HttpConn} {env : Env} {url p : Int}
    {users : List UInt8 → Option (List UInt8)} (done : conn.form env url p = .ok (.goOn next users))
    (login : conn.readBuf (p + 1) ≠ 51) : next.str url = ascii "/logError.html" := by
  simp only [form, if_neg login] at done
  split at done
  · contradiction
  · split at done
    · contradiction
    · simp only [HttpConn.login] at done
      split at done
      · simp at done
      · split at done
        · contradiction
        case _ set =>
            cases done
            exact (setUrl_page (by decide) set).1

/-- The part of a name that is copied behind the root. -/
def copied (conn : HttpConn) (name : List UInt8) : List UInt8 :=
  name.take (filenameLen - conn.docRoot.length - 1)

/-- What `do_request` puts behind the root without a branch of its own, by the byte behind the
last slash. -/
inductive Names (conn : HttpConn) (url : Int) (flag : UInt8) : List UInt8 → Prop where
  | shortcut (page : List UInt8) (same : shortcutPage flag = some page) : Names conn url flag page
  | login (post : conn.cgi = 1) (isLogin : flag = 50) :
      Names conn url flag (conn.copied (ascii "/logError.html"))
  | registration (page : List UInt8) (isPage : page ∈ formPages) (post : conn.cgi = 1)
      (isRegistration : flag = 51) : Names conn url flag (conn.copied page)
  | named (noForm : ¬(conn.cgi = 1 ∧ (flag = 50 ∨ flag = 51)))
    (noShortcut : shortcutPage flag = none) :
      Names conn url flag (conn.copied (conn.str url))

theorem resolve_names {conn target : HttpConn} {env : Env} {url : Int}
    {last : List UInt8 → Option (List UInt8)} {sessions calls : List SessionCall}
    (done : conn.resolve env url sessions = .ok (.file target last calls))
    (rootText : (0 : UInt8) ∉ conn.docRoot) (fresh : conn.realFile = fun _ => 0) :
    ∃ flag name, conn.urlFlag url = some flag ∧ target.realPath = conn.docRoot ++ name ∧
      conn.Names url flag name := by
  have urlText := conn.readBuf.not_mem_cstring readBufferSize url
  simp only [resolve] at done
  split at done
  · contradiction
  case isFalse fits =>
      have short : conn.docRoot.length < filenameLen := by omega
      obtain ⟨hasRoot, clear⟩ := hasRoot_of_fresh fresh short
      split at done
      · contradiction
      case _ slash found =>
          have flag : conn.urlFlag url = some (conn.readBuf (url + slash + 1)) := by
            simp only [urlFlag, found, Option.map_some]
          split at done
          case isTrue isForm =>
              split at done
              · contradiction
              · simp at done
              case _ next users formed =>
                  obtain ⟨page, isPage, urlPage, same⟩ := form_page formed
                  have noShortcut : shortcutPage (next.readBuf (url + slash + 1)) = none := by
                    rw [same]
                    exact shortcutPage_stored isPage isForm.2
                  have named := hasRoot.strncpy short (47 :: conn.str (url + 2))
                  have failed := form_login formed
                  rw [urlPage] at failed
                  rw [same] at noShortcut urlPage done
                  rcases route_path done rootText short named
                      (fun shortcut => by simp [noShortcut] at shortcut)
                      (by rw [urlPage]; exact formPages_noNul page isPage) with
                    ⟨other, shortcut, _⟩ | ⟨_, path⟩
                  · rw [noShortcut] at shortcut
                    contradiction
                  · rw [urlPage] at path
                    refine ⟨_, conn.copied page, flag, path, ?_⟩
                    by_cases registers : conn.readBuf (url + slash + 1) = 51
                    · exact .registration page isPage isForm.1 registers
                    · rw [failed registers]
                      exact .login isForm.1 (isForm.2.resolve_right registers)
          case isFalse notForm =>
              rcases route_path done rootText short hasRoot (fun _ => clear) urlText with
                ⟨page, shortcut, path⟩ | ⟨noShortcut, path⟩
              · exact ⟨_, page, flag, path, .shortcut page shortcut⟩
              · exact ⟨_, _, flag, path, .named notForm noShortcut⟩

/-- The path that `do_request` puts together without a branch of its own. -/
theorem resolve_path {conn target : HttpConn} {env : Env} {url : Int}
    {last : List UInt8 → Option (List UInt8)} {sessions calls : List SessionCall}
    (done : conn.resolve env url sessions = .ok (.file target last calls))
    (notRoot : ¬(conn.cgi = 0 ∧ conn.str url = ascii "/"))
    (rootText : (0 : UInt8) ∉ conn.docRoot) (fresh : conn.realFile = fun _ => 0) :
    (conn.NamesFile url ∧ target.realPath = conn.docRoot ++
        (conn.str url).take (filenameLen - conn.docRoot.length - 1)) ∨
      ¬conn.NamesFile url ∧ conn.OwnPath target.realPath := by
  obtain ⟨flag, name, isFlag, path, names⟩ := resolve_names done rootText fresh
  have form : conn.cgi = 1 → flag = 50 ∨ flag = 51 → ¬conn.NamesFile url := by
    rintro post digit ⟨_, byte, same, notForm, _⟩
    rw [isFlag] at same
    cases same
    exact notForm ⟨post, digit⟩
  rw [path]
  cases names with
  | shortcut page shortcut =>
      refine .inr ⟨?_, name, (shortcutPage_own shortcut).1, name.length, ?_⟩
      · rintro ⟨_, byte, same, _, noShortcut⟩
        rw [isFlag] at same
        cases same
        rw [shortcut] at noShortcut
        contradiction
      · rw [List.take_length]
  | login post isLogin => exact .inr ⟨form post (.inl isLogin), _, by decide, _, rfl⟩
  | registration page isPage post isRegistration =>
      exact .inr ⟨form post (.inr isRegistration), page, formPages_own page isPage, _, rfl⟩
  | named noForm noShortcut => exact .inl ⟨⟨notRoot, flag, isFlag, noForm, noShortcut⟩, rfl⟩

/-- The path of the root page. -/
theorem rootFile_path {conn : HttpConn} (rootText : (0 : UInt8) ∉ conn.docRoot)
    (fits : ¬filenameLen ≤ (conn.docRoot ++ ascii "/diagnose.html").length) :
    conn.rootFile.realPath = conn.docRoot ++ ascii "/diagnose.html" := by
  have stored := conn.realFile.holds_store 0 (conn.docRoot ++ ascii "/diagnose.html" ++ [0])
  have nul := stored (conn.docRoot ++ ascii "/diagnose.html").length (by simp)
  rw [List.getElem_append_right (Nat.le_refl _)] at nul
  refine (Memory.cstring_of_holds stored.append_left (by simpa using nul) (by omega)).trans
    (takeWhile_text fun member => ?_)
  rcases List.mem_append.mp member with inRoot | inPage
  · exact rootText inRoot
  · exact absurd inPage (by decide)

/-- The path handed to `stat` names the file of the URL, or a page of the server. -/
theorem statPath_cases {conn : HttpConn} {env : Env} {url : Int} {path : List UInt8}
    (found : conn.url = some url) (rootText : (0 : UInt8) ∉ conn.docRoot)
    (fresh : conn.realFile = fun _ => 0) (reached : conn.statPath env = some path) :
    (conn.NamesFile url ∧ path = conn.docRoot ++
        (conn.str url).take (filenameLen - conn.docRoot.length - 1)) ∨
      ¬conn.NamesFile url ∧ conn.OwnPath path := by
  simp only [statPath, found, Option.bind_some] at reached
  split at reached
  · contradiction
  · split at reached
    case isTrue root =>
        split at reached
        · contradiction
        case isFalse fits =>
            cases reached
            refine .inr ⟨fun named => named.1 root, ascii "/diagnose.html", by decide,
              (ascii "/diagnose.html").length, ?_⟩
            rw [List.take_length]
            exact rootFile_path rootText fits
    case isFalse notRoot =>
        split at reached
        · contradiction
        · split at reached
          case _ target users last resolvedTo =>
              cases reached
              exact resolve_path resolvedTo notRoot rootText fresh
          · contradiction

/-- A URL that begins with a slash is a name, as long as it is in the buffer. -/
theorem isName_str {conn : HttpConn} {url : Int} (slash : conn.readBuf url = 47) :
    IsName (conn.str url) := by
  by_cases inside : url < readBufferSize
  · have further : conn.readBuf url ≠ 0 := by
      rw [slash]
      decide
    refine .inr ⟨conn.str (url + 1), ?_⟩
    rw [RequestState.str, Memory.cstring_of_ne further inside, slash]
  · exact .inl (Memory.cstring_of_le (by omega))

/-- The file `do_request` looks at is below the document root exactly if the URL does not
name it, or the URL, as far as it is copied, comes back down into the root along every
level it went up. -/
theorem below_root_iff {conn : HttpConn} {env : Env} {url : Int} {reply : Reply}
    {path : List UInt8} (found : conn.url = some url) (slash : conn.readBuf url = 47)
    (rootText : (0 : UInt8) ∉ conn.docRoot) (fresh : conn.realFile = fun _ => 0)
    (done : conn.doRequest env = .ok reply) (reached : conn.statPath env = some path) :
    reply.UsesPath env (some path) ∧
      (Below conn.docRoot path ↔
        (conn.NamesFile url →
          (routeOf (movesOf ((conn.str url).take (filenameLen - conn.docRoot.length - 1)))).Returns
            (resolved conn.docRoot))) := by
  refine ⟨reached ▸ doRequest_usesPath done, ?_⟩
  rcases statPath_cases found rootText fresh reached with
    ⟨named, rfl⟩ | ⟨notNamed, page, own, count, rfl⟩
  · rw [below_append_iff ((isName_str slash).take _)]
    exact ⟨fun returns _ => returns, fun returns => returns named⟩
  · exact iff_of_true (below_ownPage own conn.docRoot count) (fun named => absurd named notNamed)

/-- Parsing keeps the root and `m_real_file`. -/
theorem requested_keeps {conn asked : HttpConn} (isAsked : conn.requested = some asked) :
    asked.realFile = conn.realFile ∧ asked.docRoot = conn.docRoot := by
  simp only [requested] at isAsked
  split at isAsked
  · cases isAsked
    exact ⟨rfl, rfl⟩
  · contradiction

/-- A URL that goes up and comes back stays below the root. -/
theorem below_root_iff_returning :
    ∃ asked, (receiving 7 (ascii "/root")
        (ascii "GET /a/../b.html HTTP/1.1\r\n\r\n")).requested = some asked ∧
      ∃ path, asked.statPath Env.blank = some path ∧ Below (ascii "/root") path := by
  have facts : (receiving 7 (ascii "/root")
      (ascii "GET /a/../b.html HTTP/1.1\r\n\r\n")).requested.map
      (fun asked => (asked.url.map fun url => (asked.readBuf url, asked.str url), asked.docRoot,
        asked.statPath Env.blank)) =
      some (some (47, ascii "/a/../b.html"), ascii "/root", some (ascii "/root/a/../b.html")) := by
    decide +kernel
  have served : ((receiving 7 (ascii "/root")
      (ascii "GET /a/../b.html HTTP/1.1\r\n\r\n")).requested.bind
      fun asked => (asked.doRequest Env.blank).toOption).isSome := by
    decide +kernel
  cases isAsked : (receiving 7 (ascii "/root")
      (ascii "GET /a/../b.html HTTP/1.1\r\n\r\n")).requested with
  | none => simp [isAsked] at facts
  | some asked =>
      simp only [isAsked, Option.map_some, Option.some.injEq, Prod.mk.injEq,
        Option.map_eq_some_iff] at facts
      obtain ⟨⟨url, found, slash, text⟩, root, reached⟩ := facts
      rw [isAsked, Option.bind_some] at served
      cases done : asked.doRequest Env.blank with
      | error fault => simp [done, Except.toOption] at served
      | ok reply =>
          refine ⟨asked, rfl, _, reached, ?_⟩
          rw [← root]
          refine (below_root_iff found slash (by rw [root]; decide) (requested_keeps isAsked).1 done
            reached).2.mpr fun _ => ?_
          rw [root, text]
          decide +kernel

/-- A URL with a dot segment at its start leads out of the root. -/
theorem not_below_root_parent :
    ∃ asked, (receiving 7 (ascii "/root")
        (ascii "GET /../etc/passwd HTTP/1.1\r\n\r\n")).requested = some asked ∧
      asked.statPath Env.blank = some (ascii "/root/../etc/passwd") ∧
      ¬Below (ascii "/root") (ascii "/root/../etc/passwd") := by
  have facts : (receiving 7 (ascii "/root")
      (ascii "GET /../etc/passwd HTTP/1.1\r\n\r\n")).requested.map
      (fun asked => asked.statPath Env.blank) = some (some (ascii "/root/../etc/passwd")) := by
    decide +kernel
  obtain ⟨asked, isAsked, reached⟩ := Option.map_eq_some_iff.mp facts
  exact ⟨asked, isAsked, reached, by decide +kernel⟩

end HttpConn

end TimeGANWebServer.Http
