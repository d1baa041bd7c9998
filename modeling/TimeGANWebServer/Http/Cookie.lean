import TimeGANWebServer.Http.Accounts
import TimeGANWebServer.Http.Formatting

/-!
# The session cookie

A `Cookie` header carries pairs of a name and a value.  The login check and the logout in
`do_request` search it for the text `session_id=`, wherever this text stands.
-/

namespace TimeGANWebServer.Http

open TimeGANWebServer.Support

/-- A pair of a `Cookie` header: its name and its value. -/
abbrev CookiePair := List UInt8 × List UInt8

/-- A pair as the header has it. -/
def CookiePair.text (pair : CookiePair) : List UInt8 :=
  pair.1 ++ ascii "=" ++ pair.2

/-- The value of a `Cookie` header. -/
def cookieText (pairs : List CookiePair) : List UInt8 :=
  (ascii "; ").intercalate (pairs.map CookiePair.text)

/-- The value of the first pair named `session_id`. -/
def sessionValue (pairs : List CookiePair) : Option (List UInt8) :=
  (pairs.find? fun pair => pair.1 = ascii "session_id").map Prod.snd

/-- What a text has behind the first `session_id=` in it. -/
def behindKey (text : List UInt8) : Option (List UInt8) :=
  afterFirst (ascii "session_id=") text

/-- The first pair that has `session_id=` somewhere in its text. -/
def keyPair (pairs : List CookiePair) : Option CookiePair :=
  pairs.find? fun pair => (behindKey pair.text).isSome

/-- The first pair that has `session_id=` somewhere in its text is the one named `session_id`, or
has that one's value behind this text. -/
def KeyFirst (pairs : List CookiePair) : Prop :=
  ∀ pair ∈ keyPair pairs,
    pair.1 = ascii "session_id" ∨ behindKey pair.text = sessionValue pairs

/-- The token a call of the session manager looks up or removes. -/
def SessionCall.token : SessionCall → Option (List UInt8)
  | .verify token _ => some token
  | .create _ => none
  | .remove token => some token

/-- The request has the token of its cookie looked up: for the login check, or for a logout. -/
def HttpConn.UsesToken (conn : HttpConn) : Prop :=
  ∃ url, conn.url = some url ∧ (conn.Guarded url ∨ conn.urlFlag url = some 52)

/-! ## The search -/

/-- A pattern without a byte is not found across this byte. -/
theorem isPrefixOf_append_cons {pattern left right : List UInt8} {stop : UInt8}
    (absent : stop ∉ pattern) (short : pattern.isPrefixOf (left ++ stop :: right) = true) :
    pattern.isPrefixOf left = true := by
  rw [List.isPrefixOf_iff_prefix] at short ⊢
  rcases List.prefix_or_prefix_of_prefix short (List.prefix_append left (stop :: right)) with
    inside | ⟨behind, rfl⟩
  · exact inside
  · rw [List.prefix_append_right_inj] at short
    cases behind with
    | nil =>
        exact ⟨[], by simp only [List.append_nil]⟩
    | cons byte behind =>
        obtain ⟨_, same⟩ := short
        rw [List.cons_append, List.cons.injEq] at same
        exact absurd (same.1 ▸ List.mem_append_right left List.mem_cons_self) absent

/-- The search stays in front of a byte that is not in the pattern, or goes on behind it. -/
theorem afterFirst_append_cons {pattern left right : List UInt8} {stop : UInt8}
    (nonempty : pattern ≠ []) (absent : stop ∉ pattern) :
    afterFirst pattern (left ++ stop :: right) =
      ((afterFirst pattern left).map (· ++ stop :: right)).or (afterFirst pattern right) := by
  induction left with
  | nil =>
      have notHere : ¬pattern.isPrefixOf (stop :: right) = true := fun here =>
        nonempty (List.prefix_nil.mp
          (List.isPrefixOf_iff_prefix.mp
            (@isPrefixOf_append_cons pattern [] right stop absent here)))
      simp only [List.nil_append, afterFirst, if_neg notHere, if_neg nonempty, Option.map_none,
        Option.none_or]
  | cons byte left ih =>
      simp only [List.cons_append, afterFirst]
      by_cases here : pattern.isPrefixOf (byte :: left) = true
      · have front := List.isPrefixOf_iff_prefix.mp here
        have longer : pattern.isPrefixOf (byte :: (left ++ stop :: right)) = true :=
          List.isPrefixOf_iff_prefix.mpr (front.trans (List.prefix_append (byte :: left) _))
        rw [if_pos here, if_pos longer, Option.map_some, Option.some_or, ← List.cons_append,
          List.drop_append_of_le_length front.length_le]
      · have notLonger : ¬pattern.isPrefixOf (byte :: (left ++ stop :: right)) = true :=
          fun longer => here (@isPrefixOf_append_cons _ (byte :: left) _ _ absent longer)
        rw [if_neg here, if_neg notLonger, ih]

theorem afterFirst_prefix {pattern : List UInt8} (rest : List UInt8) (nonempty : pattern ≠ []) :
    afterFirst pattern (pattern ++ rest) = some rest := by
  cases pattern with
  | nil => exact absurd rfl nonempty
  | cons byte pattern =>
      have here : (byte :: pattern).isPrefixOf (byte :: (pattern ++ rest)) = true :=
        List.isPrefixOf_iff_prefix.mpr (List.prefix_append (byte :: pattern) rest)
      rw [List.cons_append, afterFirst, if_pos here, ← List.cons_append, List.drop_left' rfl]

theorem afterFirst_subset {pattern text rest : List UInt8}
    (found : afterFirst pattern text = some rest) : rest ⊆ text := by
  induction text with
  | nil =>
      simp only [afterFirst] at found
      split at found
      · cases found
        exact List.nil_subset _
      · contradiction
  | cons byte text ih =>
      simp only [afterFirst] at found
      split at found
      · cases found
        exact List.drop_subset _ _
      · exact List.subset_cons_of_subset byte (ih found)

/-! ## The token -/

/-- A pair named `session_id` has its value behind the text. -/
theorem behindKey_of_named {pair : CookiePair} (named : pair.1 = ascii "session_id") :
    behindKey pair.text = some pair.2 := by
  have key : pair.text = ascii "session_id=" ++ pair.2 := by
    have joined : ascii "session_id" ++ ascii "=" = ascii "session_id=" := by decide
    rw [CookiePair.text, named, joined]
  rw [behindKey, key, afterFirst_prefix _ (by decide)]

/-- The token is what the first pair with the text has behind it. -/
theorem cookieToken_cookieText {pairs : List CookiePair}
    (clean : ∀ pair ∈ pairs, (59 : UInt8) ∉ pair.text) :
    cookieToken (cookieText pairs) = pairs.findSome? fun pair => behindKey pair.text := by
  have whole : ∀ {text rest : List UInt8}, (59 : UInt8) ∉ text → behindKey text = some rest →
      rest.takeWhile (· ≠ 59) = rest := by
    intro text rest absent found
    refine List.takeWhile_eq_self_iff.mpr fun byte member => ?_
    simpa using fun same : byte = 59 => absent (same ▸ afterFirst_subset found member)
  induction pairs with
  | nil => decide
  | cons pair pairs ih =>
      have first := clean pair List.mem_cons_self
      have later := ih fun other member => clean other (List.mem_cons_of_mem _ member)
      cases pairs with
      | nil =>
          have text : cookieText [pair] = pair.text := by simp [cookieText, List.intercalate]
          rw [text, cookieToken, List.findSome?_cons, List.findSome?_nil]
          cases found : behindKey pair.text with
          | none => rw [← behindKey, found, Option.map_none]
          | some rest => rw [← behindKey, found, Option.map_some, whole first found]
      | cons next pairs =>
          have text : cookieText (pair :: next :: pairs) =
              pair.text ++ 59 :: ([] ++ 32 :: cookieText (next :: pairs)) := by
            have separator : ascii "; " = [59, 32] := by decide
            simp [cookieText, List.intercalate, separator]
          have blank : afterFirst (ascii "session_id=") ([] ++ 32 :: cookieText (next :: pairs)) =
              afterFirst (ascii "session_id=") (cookieText (next :: pairs)) := by
            rw [afterFirst_append_cons (by decide) (by decide)]
            rfl
          rw [List.findSome?_cons, cookieToken, text,
            afterFirst_append_cons (by decide) (by decide), blank, ← behindKey]
          cases found : behindKey pair.text with
          | none =>
              rw [Option.map_none, Option.none_or, ← later]
              rfl
          | some rest =>
              rw [Option.map_some, Option.some_or, Option.map_some,
                List.takeWhile_append_of_pos, List.takeWhile_cons_of_neg (by simp),
                List.append_nil]
              exact List.takeWhile_eq_self_iff.mp (whole first found)

/-- The token is the session's value exactly if no other pair comes first with another one. -/
theorem findSome_eq_sessionValue_iff (pairs : List CookiePair) :
    (pairs.findSome? fun pair => behindKey pair.text) = sessionValue pairs ↔ KeyFirst pairs := by
  have unnamed : ∀ pair : CookiePair, behindKey pair.text = none →
      ¬decide (pair.1 = ascii "session_id") = true := by
    intro pair missing named
    rw [behindKey_of_named (of_decide_eq_true named)] at missing
    contradiction
  cases found : pairs.findSome? fun pair => behindKey pair.text with
  | none =>
      have nowhere := List.findSome?_eq_none_iff.mp found
      have noKey : keyPair pairs = none :=
        List.find?_eq_none.mpr fun pair member => by rw [nowhere pair member]; decide
      have absent : pairs.find? (fun pair => pair.1 = ascii "session_id") = none :=
        List.find?_eq_none.mpr fun pair member => unnamed pair (nowhere pair member)
      refine iff_of_true ?_ ?_
      · rw [sessionValue, absent, Option.map_none]
      · simp [KeyFirst, noKey]
  | some token =>
      obtain ⟨front, pair, rest, split, here, before⟩ := List.findSome?_eq_some_iff.mp found
      have isKey : keyPair pairs = some pair := by
        rw [keyPair, split, List.find?_append, List.find?_eq_none.mpr fun other member => by
          rw [before other member]; decide]
        simp [here]
      have whole : KeyFirst pairs ↔
          pair.1 = ascii "session_id" ∨ some token = sessionValue pairs := by
        simp [KeyFirst, isKey, here]
      rw [whole]
      refine ⟨.inr, fun keyFirst => keyFirst.elim (fun named => ?_) id⟩
      have first : pairs.find? (fun pair => pair.1 = ascii "session_id") = some pair := by
        rw [split, List.find?_append, List.find?_eq_none.mpr fun other member =>
          unnamed other (before other member)]
        simp [named]
      rw [behindKey_of_named named] at here
      rw [sessionValue, first, Option.map_some, here]

/-! ## What is looked up -/

/-- A `Cookie` header is stored without the blanks in front of its value. -/
theorem cookie_parseHeaders {request : RequestState} {text : Int} {value : List UInt8}
    (header : headerValue (ascii "Cookie:") (request.str text) = some value) :
    (request.parseHeaders text).2.cookie = value := by
  have named : strncasecmp (request.str text) (ascii "Cookie:") (ascii "Cookie:").length =
      true := by
    by_contra other
    rw [headerValue, if_neg other] at header
    contradiction
  have nonblank : request.readBuf text ≠ 0 := by
    intro ended
    have long := strncasecmp_length named
    have empty : request.str text = [] := by
      rw [RequestState.str, Memory.cstring_step, if_neg fun within => within.2 ended]
    rw [empty] at long
    exact absurd long (by decide)
  have other : ∀ (name : List UInt8) (index : Nat), index < (ascii "Cookie:").length →
      index < name.length →
      (ascii "Cookie:")[index]?.map tolower ≠ name[index]?.map tolower →
        ¬strncasecmp (request.str text) name name.length = true := by
    intro name index inCookie inName different isName
    have missing := RequestState.named_ne index inCookie inName different named
    rw [headerValue, if_pos isName] at missing
    contradiction
  have notConnection : ¬strncasecmp (request.str text) (ascii "Connection:") 11 = true :=
    other _ 2 (by decide) (by decide) (by decide)
  have notLength : ¬strncasecmp (request.str text) (ascii "Content-length:") 15 = true :=
    other _ 2 (by decide) (by decide) (by decide)
  have notHost : ¬strncasecmp (request.str text) (ascii "Host:") 5 = true :=
    other _ 0 (by decide) (by decide) (by decide)
  have isCookie : strncasecmp (request.str text) (ascii "Cookie:") 7 = true := named
  rw [RequestState.headerValue_of_named named, Option.some.injEq] at header
  simp only [RequestState.parseHeaders, if_neg nonblank, if_neg notConnection, if_neg notLength,
    if_neg notHost, if_pos isCookie]
  exact header

/-- The tokens looked up are that of the cookie. -/
theorem tokens_of_usesToken {conn : HttpConn} {env : Env} {reply : Reply}
    (uses : conn.UsesToken) (done : conn.doRequest env = .ok reply) :
    reply.sessions.filterMap SessionCall.token = (cookieToken conn.cookie).toList := by
  obtain ⟨url, found, guarded | logout⟩ := uses
  · rw [(HttpConn.guarded_checks found guarded done).2, Env.checkSession]
    cases cookieToken conn.cookie <;> rfl
  · cases HttpConn.doRequest_acts done with
    | checks guarded users sessions =>
        rw [sessions, Env.checkSession]
        cases cookieToken conn.cookie <;> rfl
    | registers name password posts =>
        exact absurd ⟨url, found, logout⟩ (posts.not_logout (by decide))
    | logsIn name password posts =>
        exact absurd ⟨url, found, logout⟩ (posts.not_logout (by decide))
    | logsOut flag users sessions =>
        rw [sessions]
        cases cookieToken conn.cookie <;> rfl
    | serves noAccount => exact absurd logout (noAccount url found).1

/-- For a cookie of pairs the token looked up is the session's exactly if the first pair with the
text `session_id=` is the session's, or agrees with it. -/
theorem tokens_eq_sessionValue_iff {pairs : List CookiePair} {request : RequestState} {text : Int}
    {conn : HttpConn} {env : Env} {reply : Reply}
    (clean : ∀ pair ∈ pairs, (59 : UInt8) ∉ pair.1 ∧ (59 : UInt8) ∉ pair.2)
    (header : headerValue (ascii "Cookie:") (request.str text) = some (cookieText pairs))
    (stored : conn.cookie = (request.parseHeaders text).2.cookie)
    (uses : conn.UsesToken) (done : conn.doRequest env = .ok reply) :
    reply.sessions.filterMap SessionCall.token = (sessionValue pairs).toList ↔ KeyFirst pairs := by
  have cleanText : ∀ pair ∈ pairs, (59 : UInt8) ∉ pair.text := by
    intro pair member
    have separator : (59 : UInt8) ∉ ascii "=" := by decide
    simp [CookiePair.text, clean pair member, separator]
  rw [tokens_of_usesToken uses done, stored, cookie_parseHeaders header,
    cookieToken_cookieText cleanText, ← findSome_eq_sessionValue_iff]
  cases pairs.findSome? (fun pair => behindKey pair.text) <;> cases sessionValue pairs <;> simp

/-- A read buffer with a `Cookie` header. -/
def cookieHeader (value : List UInt8) : RequestState :=
  { HttpConn.blank.toRequestState with
    readBuf := Memory.store (fun _ => 0) 0 (ascii "Cookie: " ++ value) }

/-- A request for the root path with a cookie. -/
def rootRequest (cookie : List UInt8) : HttpConn :=
  { HttpConn.blank with
    readBuf := Memory.store (fun _ => 0) 0 (ascii "/")
    url := some 0
    cookie := cookie }

theorem rootRequest_usesToken (cookie : List UInt8) : (rootRequest cookie).UsesToken := by
  have target : (rootRequest []).str 0 = ascii "/" := by decide +kernel
  exact ⟨0, rfl, .inl ⟨rfl, .inl target⟩⟩

theorem rootRequest_replies (cookie : List UInt8) :
    ∃ reply, (rootRequest cookie).doRequest Env.blank = .ok reply := by
  have target : (rootRequest cookie).str 0 = ascii "/" := by
    have same : (rootRequest []).str 0 = ascii "/" := by decide +kernel
    exact same
  have guarded : (rootRequest cookie).Guarded 0 := ⟨rfl, .inl target⟩
  have refused : (Env.blank.checkSession cookie).1 = false := by
    simp only [Env.checkSession]
    split <;> rfl
  refine ⟨(rootRequest cookie).redirect Env.blank notLoggedInHeaders
    (Env.blank.checkSession cookie).2, ?_⟩
  have isUrl : (rootRequest cookie).url = some 0 := rfl
  have isCookie : (rootRequest cookie).cookie = cookie := rfl
  cases checked : Env.blank.checkSession cookie with
  | mk valid sessions =>
      rw [checked] at refused
      cases refused
      simp only [HttpConn.doRequest, isUrl, if_pos guarded, isCookie, checked]

/-- A session cookie behind another cookie. -/
theorem tokens_eq_sessionValue_theme :
    ∃ reply, (rootRequest (ascii "theme=dark; session_id=abc")).doRequest Env.blank = .ok reply ∧
      reply.sessions.filterMap SessionCall.token = [ascii "abc"] := by
  have text : cookieText [(ascii "theme", ascii "dark"), (ascii "session_id", ascii "abc")] =
      ascii "theme=dark; session_id=abc" := by
    decide
  obtain ⟨reply, done⟩ := rootRequest_replies (ascii "theme=dark; session_id=abc")
  refine ⟨reply, done, (@tokens_eq_sessionValue_iff
    [(ascii "theme", ascii "dark"), (ascii "session_id", ascii "abc")]
    (cookieHeader (ascii "theme=dark; session_id=abc")) 0 _ _ _ (by decide) ?_ ?_
    (rootRequest_usesToken _) done).mpr ?_⟩
  · rw [text]
    decide +kernel
  · decide +kernel
  · intro pair isKey
    refine .inl ?_
    have key : keyPair [(ascii "theme", ascii "dark"), (ascii "session_id", ascii "abc")] =
        some (ascii "session_id", ascii "abc") := by
      decide
    rw [key, Option.mem_some_iff] at isKey
    rw [← isKey]

/-- The text can stand in the name of another cookie. -/
theorem not_tokens_eq_sessionValue :
    ∃ reply, (rootRequest (cookieText
        [(ascii "old_session_id", ascii "x"), (ascii "session_id", ascii "abc")])).doRequest
          Env.blank = .ok reply ∧
      sessionValue [(ascii "old_session_id", ascii "x"), (ascii "session_id", ascii "abc")] =
        some (ascii "abc") ∧
      reply.sessions.filterMap SessionCall.token = [ascii "x"] := by
  obtain ⟨reply, done⟩ := rootRequest_replies (cookieText
    [(ascii "old_session_id", ascii "x"), (ascii "session_id", ascii "abc")])
  refine ⟨reply, done, by decide, ?_⟩
  rw [tokens_of_usesToken (rootRequest_usesToken _) done]
  decide

end TimeGANWebServer.Http
