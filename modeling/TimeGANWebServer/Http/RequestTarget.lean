import TimeGANWebServer.Http.RequestLine

/-!
# Which request lines are accepted

A request line is read as a method, blanks, a target, blanks and a version.  The
parser answers every line but those whose target has the scheme `http` and no path:
it then tests the null pointer `strchr` returned for a second scheme.
-/

namespace TimeGANWebServer.Http

open TimeGANWebServer.Support

/-- The blanks between two fields. -/
def Gap (gap : List UInt8) : Prop :=
  gap ≠ [] ∧ ∀ byte ∈ gap, byte ∈ RequestState.blanks

/-- A `GET` or `POST` line of HTTP/1.1 with a target, the letters in any case. -/
def LineFor (line target : List UInt8) : Prop :=
  ∃ method first second version,
    line = method ++ (first ++ (target ++ (second ++ version))) ∧
      (strcasecmp method (ascii "GET") = true ∨ strcasecmp method (ascii "POST") = true) ∧
      Gap first ∧ Gap second ∧ (∀ byte ∈ target, byte ∉ RequestState.blanks) ∧
      strcasecmp version (ascii "HTTP/1.1") = true

/-- A target begins with a scheme. -/
abbrev HasScheme (target scheme : List UInt8) : Prop :=
  strncasecmp target scheme scheme.length = true

/-- A target is a path, or has a scheme and a path behind it. -/
def HasPath (target : List UInt8) : Prop :=
  target.head? = some 47 ∨
    ∃ scheme ∈ [ascii "http://", ascii "https://"],
      HasScheme target scheme ∧ 47 ∈ target.drop scheme.length

/-- A target has the scheme `http` and no path behind it. -/
def Pathless (target : List UInt8) : Prop :=
  HasScheme target (ascii "http://") ∧ 47 ∉ target.drop (ascii "http://").length

/-! ## The code for a target -/

theorem strchr_eq_none_iff {text : List UInt8} {byte : UInt8} :
    strchr text byte = none ↔ byte ∉ text := by
  rw [strchr, List.findIdx?_eq_none_iff]
  constructor
  · intro others member
    simpa using others byte member
  · intro absent other member
    rw [beq_eq_false_iff_ne]
    intro same
    exact absent (same ▸ member)

/-- What `strchr` finds is the first byte from there on. -/
theorem head?_drop_strchr {text : List UInt8} {byte : UInt8} {offset : Nat}
    (found : strchr text byte = some offset) : (text.drop offset).head? = some byte := by
  rw [strchr, List.findIdx?_eq_some_iff_getElem] at found
  obtain ⟨inside, same, _⟩ := found
  rw [List.head?_drop, List.getElem?_eq_getElem inside]
  simpa using same

theorem dropScheme_of_not {url scheme : List UInt8} (other : ¬HasScheme url scheme) :
    dropScheme url scheme = some url := by
  exact if_neg other

theorem dropScheme_of_absent {url scheme : List UInt8} (named : HasScheme url scheme)
    (absent : 47 ∉ url.drop scheme.length) : dropScheme url scheme = none := by
  rw [dropScheme, if_pos named, strchr_eq_none_iff.mpr absent]
  rfl

/-- Behind a scheme with a path stands a slash. -/
theorem dropScheme_of_mem {url scheme : List UInt8} (named : HasScheme url scheme)
    (present : 47 ∈ url.drop scheme.length) :
    ∃ path, dropScheme url scheme = some path ∧ path.head? = some 47 := by
  cases found : strchr (url.drop scheme.length) 47 with
  | none => exact absurd present (strchr_eq_none_iff.mp found)
  | some offset =>
      refine ⟨url.drop (scheme.length + offset), ?_, ?_⟩
      · rw [dropScheme, if_pos named, found]
        rfl
      · rw [← List.drop_drop]
        exact head?_drop_strchr found

/-- A path has no scheme. -/
theorem not_hasScheme_of_slash {url scheme : List UInt8} (slash : url.head? = some 47)
    (letter : scheme.head?.map tolower = some 104) : ¬HasScheme url scheme := by
  intro named
  have inside : 0 < scheme.length := by
    cases scheme with
    | nil => contradiction
    | cons => exact Nat.zero_lt_succ _
  have same := strncasecmp_getElem? named inside
  rw [← List.head?_eq_getElem?, ← List.head?_eq_getElem?, slash, letter] at same
  contradiction

/-- A target has only one of the schemes. -/
theorem not_https_of_http {url : List UInt8} (http : HasScheme url (ascii "http://")) :
    ¬HasScheme url (ascii "https://") := by
  intro https
  have colon := strncasecmp_getElem? http (show 4 < (ascii "http://").length by decide)
  have letter := strncasecmp_getElem? https (show 4 < (ascii "https://").length by decide)
  rw [colon] at letter
  exact absurd letter (by decide)

/-- The code for a target with the first scheme. -/
theorem urlCode_of_http {url : List UInt8} (http : HasScheme url (ascii "http://")) :
    urlCode url = if 47 ∈ url.drop (ascii "http://").length then some .noRequest else none := by
  by_cases present : 47 ∈ url.drop (ascii "http://").length
  · obtain ⟨path, dropped, slash⟩ := dropScheme_of_mem http present
    have second := dropScheme_of_not (not_hasScheme_of_slash slash
      (show (ascii "https://").head?.map tolower = some 104 by decide))
    rw [if_pos present, urlCode, dropped]
    simp only [second, slash, if_true]
  · rw [if_neg present, urlCode, dropScheme_of_absent http present]

/-- The code for a target without the first scheme. -/
theorem urlCode_of_not_http {url : List UInt8} (other : ¬HasScheme url (ascii "http://")) :
    urlCode url = some .badRequest ∧ ¬HasPath url ∨
      urlCode url = some .noRequest ∧ HasPath url := by
  rw [urlCode, dropScheme_of_not other]
  by_cases https : HasScheme url (ascii "https://")
  · by_cases present : 47 ∈ url.drop (ascii "https://").length
    · obtain ⟨path, dropped, slash⟩ := dropScheme_of_mem https present
      refine .inr ⟨?_, .inr ⟨_, List.mem_cons_of_mem _ List.mem_cons_self, https, present⟩⟩
      simp only [dropped, slash, if_true]
    · refine .inl ⟨?_, ?_⟩
      · simp only [dropScheme_of_absent https present]
      · rintro (slash | ⟨scheme, member, named, path⟩)
        · exact not_hasScheme_of_slash slash (by decide) https
        · simp only [List.mem_cons, List.not_mem_nil, or_false] at member
          rcases member with rfl | rfl
          · exact other named
          · exact present path
  · simp only [dropScheme_of_not https]
    by_cases slash : url.head? = some 47
    · exact .inr ⟨by simp only [slash, if_true], .inl slash⟩
    · refine .inl ⟨by simp only [slash, if_false], ?_⟩
      rintro (head | ⟨scheme, member, named, _⟩)
      · exact slash head
      · simp only [List.mem_cons, List.not_mem_nil, or_false] at member
        rcases member with rfl | rfl
        · exact other named
        · exact https named

/-- A target is accepted exactly if it has a path. -/
theorem urlCode_noRequest_iff {url : List UInt8} :
    urlCode url = some .noRequest ↔ HasPath url := by
  by_cases http : HasScheme url (ascii "http://")
  · rw [urlCode_of_http http]
    constructor
    · intro accepted
      split at accepted
      · exact .inr ⟨_, List.mem_cons_self, http, ‹_›⟩
      · contradiction
    · rintro (slash | ⟨scheme, member, named, path⟩)
      · exact absurd http (not_hasScheme_of_slash slash (by decide))
      · simp only [List.mem_cons, List.not_mem_nil, or_false] at member
        rcases member with rfl | rfl
        · exact if_pos path
        · exact absurd named (not_https_of_http http)
  · rcases urlCode_of_not_http http with ⟨bad, pathless⟩ | ⟨accepted, path⟩
    · rw [bad]
      exact iff_of_false (by decide) pathless
    · exact iff_of_true accepted path

/-- A null pointer is read exactly for a target with the scheme `http` and no path. -/
theorem urlCode_none_iff {url : List UInt8} : urlCode url = none ↔ Pathless url := by
  by_cases http : HasScheme url (ascii "http://")
  · rw [urlCode_of_http http]
    by_cases present : 47 ∈ url.drop (ascii "http://").length
    · rw [if_pos present]
      exact iff_of_false nofun fun pathless => pathless.2 present
    · rw [if_neg present]
      exact iff_of_true rfl ⟨http, present⟩
  · refine iff_of_false ?_ fun pathless => http pathless.1
    rcases urlCode_of_not_http http with ⟨bad, _⟩ | ⟨accepted, _⟩
    · simp [bad]
    · simp [accepted]

/-! ## The code for a line -/

/-- Blanks in front of another byte are skipped. -/
theorem strspn_append {gap rest accept : List UInt8} (skipped : ∀ byte ∈ gap, byte ∈ accept)
    (ends : ∀ byte ∈ rest.head?, byte ∉ accept) : strspn (gap ++ rest) accept = gap.length := by
  induction gap with
  | nil =>
      cases rest with
      | nil => rfl
      | cons byte rest => exact strspn_cons (ends byte rfl)
  | cons byte gap ih =>
      have first := skipped byte List.mem_cons_self
      have later := ih fun other member => skipped other (List.mem_cons_of_mem _ member)
      simp only [strspn] at later ⊢
      rw [List.cons_append, List.takeWhile_cons_of_pos (by simpa using first), List.length_cons,
        later, List.length_cons]

/-- A text is cut at the first accepted byte. -/
theorem strpbrk_split {text accept : List UInt8} {gap : Nat}
    (found : strpbrk text accept = some gap) :
    ∃ byte ∈ accept, text = text.take gap ++ byte :: text.drop (gap + 1) ∧
      ∀ other ∈ text.take gap, other ∉ accept := by
  rw [strpbrk, List.findIdx?_eq_some_iff_getElem] at found
  obtain ⟨inside, accepted, others⟩ := found
  refine ⟨text[gap], by simpa using accepted, ?_, ?_⟩
  · rw [← List.drop_eq_getElem_cons inside, List.take_append_drop]
  · intro other member
    obtain ⟨index, within, rfl⟩ := List.getElem_of_mem member
    rw [List.length_take] at within
    rw [List.getElem_take]
    simpa using others index (by omega)

/-- The blanks at the front of a text, and what follows them. -/
theorem strspn_split (text accept : List UInt8) :
    text = text.take (strspn text accept) ++ text.drop (strspn text accept) ∧
      (∀ byte ∈ text.take (strspn text accept), byte ∈ accept) ∧
      ∀ byte ∈ (text.drop (strspn text accept)).head?, byte ∉ accept := by
  refine ⟨(List.take_append_drop _ _).symm, ?_, ?_⟩
  · induction text with
    | nil => simp
    | cons byte text ih =>
        by_cases accepted : byte ∈ accept
        · have step : strspn (byte :: text) accept = strspn text accept + 1 := by
            simp [strspn, accepted]
          rw [step, List.take_succ_cons]
          intro other member
          rcases List.mem_cons.mp member with rfl | later
          · exact accepted
          · exact ih other later
        · rw [strspn_cons accepted]
          simp
  · induction text with
    | nil => simp
    | cons byte text ih =>
        by_cases accepted : byte ∈ accept
        · have step : strspn (byte :: text) accept = strspn text accept + 1 := by
            simp [strspn, accepted]
          rw [step, List.drop_succ_cons]
          exact ih
        · rw [strspn_cons accepted]
          simpa using accepted

theorem tolower_blank {byte : UInt8} (blank : byte ∈ RequestState.blanks) :
    tolower byte = byte := by
  simp only [RequestState.blanks, List.mem_cons, List.not_mem_nil, or_false] at blank
  rcases blank with rfl | rfl <;> decide

/-- A word that equals one without blanks, but for the case of letters, has none. -/
theorem not_blank_of_strcasecmp {left right : List UInt8} (same : strcasecmp left right = true)
    (plain : ∀ byte ∈ right, tolower byte ∉ RequestState.blanks) :
    ∀ byte ∈ left, byte ∉ RequestState.blanks := by
  intro byte member blank
  simp only [strcasecmp, beq_iff_eq] at same
  have lower : tolower byte ∈ right.map tolower := same ▸ List.mem_map_of_mem member
  obtain ⟨other, inRight, equal⟩ := List.mem_map.mp lower
  apply plain other inRight
  rw [equal, tolower_blank blank]
  exact blank

theorem targetCode_of_fields {first target second version : List UInt8}
    (firstBlank : ∀ byte ∈ first, byte ∈ RequestState.blanks) (gap : Gap second)
    (plain : ∀ byte ∈ target, byte ∉ RequestState.blanks) (present : target ≠ [])
    (http : strcasecmp version (ascii "HTTP/1.1") = true) :
    targetCode (first ++ (target ++ (second ++ version))) = urlCode target := by
  obtain ⟨head, target, rfl⟩ := List.exists_cons_of_ne_nil present
  obtain ⟨blank, second, rfl⟩ := List.exists_cons_of_ne_nil gap.1
  have afterFirst : strspn (first ++ (head :: target ++ (blank :: second ++ version)))
      RequestState.blanks = first.length := by
    apply strspn_append firstBlank
    intro byte same
    cases same
    exact plain head List.mem_cons_self
  have afterTarget : strpbrk (head :: target ++ (blank :: second ++ version)) RequestState.blanks =
      some (head :: target).length := by
    rw [List.cons_append]
    exact strpbrk_append plain (gap.2 blank List.mem_cons_self)
  have afterSecond : strspn (second ++ version) RequestState.blanks = second.length := by
    apply strspn_append fun byte member => gap.2 byte (List.mem_cons_of_mem _ member)
    intro byte same
    exact not_blank_of_strcasecmp http (by decide) byte (List.mem_of_mem_head? same)
  have rest : (head :: target ++ (blank :: second ++ version)).drop ((head :: target).length + 1) =
      second ++ version := by
    rw [← List.drop_drop, List.drop_left' rfl]
    rfl
  simp only [targetCode, afterFirst, List.drop_left' rfl, afterTarget, rest, afterSecond, http,
    if_true, List.take_left' rfl]

/-- The code for a line with a target. -/
theorem requestLineCode_of_lineFor {line target : List UInt8} (shaped : LineFor line target)
    (present : target ≠ []) : requestLineCode line = urlCode target := by
  obtain ⟨method, first, second, version, rfl, word, gap, laterGap, plain, http⟩ := shaped
  obtain ⟨blank, first, rfl⟩ := List.exists_cons_of_ne_nil gap.1
  have methodPlain : ∀ byte ∈ method, byte ∉ RequestState.blanks := by
    rcases word with get | post
    · exact not_blank_of_strcasecmp get (by decide)
    · exact not_blank_of_strcasecmp post (by decide)
  have found : strpbrk (method ++ (blank :: first ++ (target ++ (second ++ version))))
      RequestState.blanks = some method.length :=
    strpbrk_append methodPlain (gap.2 blank List.mem_cons_self)
  have rest : (method ++ (blank :: first ++ (target ++ (second ++ version)))).drop
      (method.length + 1) = first ++ (target ++ (second ++ version)) := by
    rw [← List.drop_drop, List.drop_left' rfl]
    rfl
  have named : (strcasecmp method (ascii "GET") || strcasecmp method (ascii "POST")) = true := by
    rw [Bool.or_eq_true]
    exact word
  simp only [requestLineCode, found, List.take_left' rfl, named, if_true, rest]
  exact targetCode_of_fields (fun byte member => gap.2 byte (List.mem_cons_of_mem _ member))
    laterGap plain present http

/-- A line that is not rejected has a target. -/
theorem lineFor_of_requestLineCode {line : List UInt8}
    (notBad : requestLineCode line ≠ some .badRequest) :
    ∃ target, LineFor line target ∧ urlCode target ≠ some .badRequest := by
  simp only [requestLineCode] at notBad
  split at notBad
  · contradiction
  case _ gap found =>
      split at notBad
      case isFalse => contradiction
      case isTrue word =>
          obtain ⟨blank, isBlank, line_eq, _⟩ := strpbrk_split found
          obtain ⟨rest_eq, skipped, _⟩ := strspn_split (line.drop (gap + 1)) RequestState.blanks
          simp only [targetCode] at notBad
          generalize strspn (line.drop (gap + 1)) RequestState.blanks = count at *
          split at notBad
          · contradiction
          case _ nextGap nextFound =>
              obtain ⟨nextBlank, nextIsBlank, target_eq, plain⟩ := strpbrk_split nextFound
              split at notBad
              case isFalse => contradiction
              case isTrue http =>
                  obtain ⟨version_eq, nextSkipped, _⟩ := strspn_split
                    (((line.drop (gap + 1)).drop count).drop (nextGap + 1)) RequestState.blanks
                  generalize strspn (((line.drop (gap + 1)).drop count).drop (nextGap + 1))
                    RequestState.blanks = nextCount at *
                  refine ⟨_, ⟨line.take gap, blank :: (line.drop (gap + 1)).take count,
                    nextBlank :: (((line.drop (gap + 1)).drop count).drop (nextGap + 1)).take
                      nextCount, _, ?_, ?_, ⟨by simp, ?_⟩, ⟨by simp, ?_⟩, plain, http⟩, notBad⟩
                  · rw [List.cons_append, List.cons_append, ← version_eq, ← target_eq, ← rest_eq,
                      ← line_eq]
                  · rwa [Bool.or_eq_true] at word
                  · exact List.forall_mem_cons.mpr ⟨isBlank, skipped⟩
                  · exact List.forall_mem_cons.mpr ⟨nextIsBlank, nextSkipped⟩

/-- A target that is not rejected is not empty. -/
theorem ne_nil_of_urlCode {target : List UInt8} (notBad : urlCode target ≠ some .badRequest) :
    target ≠ [] := by
  rintro rfl
  exact notBad (by decide)

/-- A line has a code other than `BAD_REQUEST` exactly if it has a target with it. -/
theorem requestLineCode_iff {line : List UInt8} {code : Option HttpCode}
    (notBad : code ≠ some .badRequest) :
    requestLineCode line = code ↔ ∃ target, LineFor line target ∧ urlCode target = code := by
  constructor
  · rintro rfl
    obtain ⟨target, shaped, accepted⟩ := lineFor_of_requestLineCode notBad
    exact ⟨target, shaped, (requestLineCode_of_lineFor shaped (ne_nil_of_urlCode accepted)).symm⟩
  · rintro ⟨target, shaped, rfl⟩
    exact requestLineCode_of_lineFor shaped (ne_nil_of_urlCode notBad)

/-- A line is accepted exactly if it has a target with a path. -/
theorem requestLineCode_noRequest_iff {line : List UInt8} :
    requestLineCode line = some .noRequest ↔ ∃ target, LineFor line target ∧ HasPath target := by
  simp only [requestLineCode_iff (show some HttpCode.noRequest ≠ some .badRequest by decide),
    urlCode_noRequest_iff]

/-- A null pointer is read exactly for a line whose target has the scheme `http` and no
path. -/
theorem requestLineCode_none_iff {line : List UInt8} :
    requestLineCode line = none ↔ ∃ target, LineFor line target ∧ Pathless target := by
  simp only [requestLineCode_iff (show none ≠ some HttpCode.badRequest by decide), urlCode_none_iff]

namespace RequestState

/-! ## What the parser does to the line -/

/-- What `parse_request_line` is to do with the line at `text`: it writes inside the
line and leaves its pointers there, rejects the line or goes on to the headers with a
slash at `m_url`, and accepts the lines with a path. -/
structure LineAnswered (request : RequestState) (text : Int) (code : HttpCode)
    (next : RequestState) : Prop where
  inside : ∀ index, index < text ∨ text + (request.str text).length ≤ index →
    next.readBuf index = request.readBuf index
  url : ∀ url, next.url = some url → text ≤ url ∧ url ≤ text + (request.str text).length
  version : next.version = request.version ∨ ∀ version, next.version = some version →
    text ≤ version ∧ version ≤ text + (request.str text).length
  returned : code = .badRequest ∨ code = .noRequest ∧ next.checkState = .header ∧
    ∃ url, next.url = some url ∧ text ≤ url ∧ url < text + (request.str text).length ∧
      next.readBuf url = 47
  exact : code = .noRequest ↔ ∃ target, LineFor (request.str text) target ∧ HasPath target

/-- The part of this that the rest of a line hands on: everything from `text` up to the
NUL at `stop`. -/
structure RestAnswered (text stop : Int) (request : RequestState) (code : HttpCode)
    (next : RequestState) : Prop where
  inside : ∀ index, index < text ∨ stop ≤ index → next.readBuf index = request.readBuf index
  url : ∀ url, next.url = some url → text ≤ url ∧ url ≤ stop
  version : next.version = request.version ∨ ∀ version, next.version = some version →
    text ≤ version ∧ version ≤ stop
  returned : code = .badRequest ∨ code = .noRequest ∧ next.checkState = .header ∧
    ∃ url, next.url = some url ∧ text ≤ url ∧ url < stop ∧ next.readBuf url = 47

/-- What holds of the rest holds of the line, after a NUL was put over a blank in front
of the rest. -/
theorem RestAnswered.after {text rest stop index : Int} {before request next : RequestState}
    {code : HttpCode} (answered : RestAnswered rest stop request code next) (behind : text ≤ rest)
    (inLine : text ≤ index ∧ index < stop)
    (readBuf : request.readBuf = before.readBuf.set index 0)
    (version : request.version = before.version ∨ ∀ version, request.version = some version →
      text ≤ version ∧ version ≤ stop) : RestAnswered text stop before code next where
  inside other outside := by
    rw [answered.inside other (by omega), readBuf]
    apply Memory.set_of_ne
    omega
  url pointer same := by
    have bounds := answered.url pointer same
    exact ⟨Int.le_trans behind bounds.1, bounds.2⟩
  version := by
    rcases answered.version with kept | inside
    · rw [kept]
      exact version
    · refine .inr fun pointer same => ?_
      have bounds := inside pointer same
      exact ⟨Int.le_trans behind bounds.1, bounds.2⟩
  returned := by
    rcases answered.returned with bad | ⟨good, header, pointer, same, low, high, slash⟩
    · exact .inl bad
    · exact .inr ⟨good, header, pointer, same, Int.le_trans behind low, high, slash⟩

theorem parseUrl_answered {request next : RequestState} {url stop : Int} {code : HttpCode}
    (ordered : url ≤ stop) (nul : request.readBuf stop = 0) (room : stop < readBufferSize)
    (parsed : request.parseUrl url = .ok (code, next)) :
    RestAnswered url stop request code next := by
  have whole : request.readBuf.AgreeTo request.readBuf url stop := ⟨nul, fun _ _ _ => rfl⟩
  have first := (skipScheme_congr (ascii "http://") whole ordered room).2
  simp only [parseUrl] at parsed
  split at parsed
  · contradiction
  case _ path httpSkipped =>
      have bounds := first path httpSkipped
      have second :=
        (skipScheme_congr (ascii "https://") (whole.mono path bounds.1) bounds.2 room).2
      split at parsed
      · cases parsed
        exact ⟨fun _ _ => rfl, by simp, .inl rfl, .inl rfl⟩
      case _ target httpsSkipped =>
          have later := second target httpsSkipped
          have inLine : url ≤ target ∧ target ≤ stop := ⟨Int.le_trans bounds.1 later.1, later.2⟩
          have pointer : ∀ other, some target = some other → url ≤ other ∧ other ≤ stop := by
            intro other same
            cases same
            exact inLine
          split at parsed
          case isTrue slash =>
              have further : target ≠ stop := by
                rintro rfl
                rw [nul] at slash
                contradiction
              cases parsed
              exact ⟨fun _ _ => rfl, pointer, .inl rfl,
                .inr ⟨rfl, rfl, target, rfl, inLine.1, by omega, slash⟩⟩
          case isFalse =>
              cases parsed
              exact ⟨fun _ _ => rfl, pointer, .inl rfl, .inl rfl⟩

theorem parseTarget_answered {request next : RequestState} {afterMethod stop : Int}
    {code : HttpCode} (ordered : afterMethod ≤ stop) (nul : request.readBuf stop = 0)
    (room : stop < readBufferSize)
    (parsed : request.parseTarget afterMethod = .ok (code, next)) :
    RestAnswered afterMethod stop request code next := by
  have urlInside := skip_blanks_le ordered nul
  have behind : afterMethod ≤ afterMethod + (strspn (request.str afterMethod) blanks : Int) := by
    omega
  simp only [parseTarget] at parsed
  generalize afterMethod + (strspn (request.str afterMethod) blanks : Int) = url at *
  have pointer : ∀ other, some url = some other → afterMethod ≤ other ∧ other ≤ stop := by
    intro other same
    cases same
    exact ⟨behind, urlInside⟩
  split at parsed
  · cases parsed
    exact ⟨fun _ _ => rfl, pointer, .inr (by simp), .inl rfl⟩
  case _ gap found =>
      have gapInside := blank_lt urlInside nul found
      have nulAfter : (request.readBuf.set (url + gap) 0) stop = 0 :=
        (Memory.set_of_ne 0 (by omega)).trans nul
      have versionInside := @skip_blanks_le
        { request with readBuf := request.readBuf.set (url + gap) 0 } (url + gap + 1) stop
        (by omega) nulAfter
      have version : ∀ other, some (url + gap + 1 + strspn (RequestState.str
          { request with readBuf := request.readBuf.set (url + gap) 0 } (url + gap + 1)) blanks) =
            some other → afterMethod ≤ other ∧ other ≤ stop := by
        intro other same
        cases same
        exact ⟨by omega, versionInside⟩
      split at parsed
      · exact (parseUrl_answered urlInside nulAfter room parsed).after behind
          ⟨by omega, gapInside⟩ rfl (.inr version)
      · cases parsed
        refine ⟨fun other outside => Memory.set_of_ne 0 (by omega), pointer, .inr version, .inl rfl⟩

/-- What `parse_request_line` does when it returns. -/
theorem parseRequestLine_answered {request next : RequestState} {text stop : Int}
    {code : HttpCode} (ordered : text ≤ stop) (nul : request.readBuf stop = 0)
    (room : stop < readBufferSize) (parsed : request.parseRequestLine text = .ok (code, next)) :
    RestAnswered text stop request code next := by
  simp only [parseRequestLine] at parsed
  split at parsed
  · cases parsed
    exact ⟨fun _ _ => rfl, by simp, .inl rfl, .inl rfl⟩
  case _ gap found =>
      have gapInside := blank_lt ordered nul found
      have inLine : text ≤ text + (gap : Int) ∧ text + (gap : Int) < stop :=
        ⟨by omega, gapInside⟩
      have nulAfter : (request.readBuf.set (text + gap) 0) stop = 0 :=
        (Memory.set_of_ne 0 (by omega)).trans nul
      have behind : text ≤ text + (gap : Int) + 1 ∧ text + (gap : Int) + 1 ≤ stop :=
        ⟨by omega, by omega⟩
      split at parsed
      · exact (parseTarget_answered behind.2 nulAfter room parsed).after behind.1 inLine rfl
          (.inl rfl)
      · split at parsed
        · exact (parseTarget_answered behind.2 nulAfter room parsed).after behind.1 inLine rfl
            (.inl rfl)
        · cases parsed
          refine ⟨fun other outside => Memory.set_of_ne 0 (by omega), ?_, .inl rfl, .inl rfl⟩
          intro other same
          cases same
          exact behind

/-- `parse_request_line` answers a line as it should, reading no null pointer, exactly
if the line is not one whose target has the scheme `http` and no path. -/
theorem parseRequestLine_iff {request : RequestState} {text : Int}
    (terminated : text + (request.str text).length < readBufferSize) :
    (∃ code next, request.parseRequestLine text = .ok (code, next) ∧
        LineAnswered request text code next) ↔
      ¬∃ target, LineFor (request.str text) target ∧ Pathless target := by
  have ordered : text ≤ text + ((request.str text).length : Int) := by omega
  have nul := Memory.nul_behind_cstring terminated
  have code := codeOf_parseRequestLine ordered nul terminated
  rw [← requestLineCode_none_iff, ← code]
  constructor
  · rintro ⟨code, next, parsed, _⟩
    rw [parsed]
    nofun
  · intro answers
    cases parsed : request.parseRequestLine text with
    | error fault =>
        rw [parsed] at answers
        exact absurd rfl answers
    | ok outcome =>
        obtain ⟨ret, next⟩ := outcome
        have answered := parseRequestLine_answered ordered nul terminated parsed
        refine ⟨ret, next, rfl, answered.inside, answered.url, answered.version,
          answered.returned, ?_⟩
        rw [parsed] at code
        rw [← requestLineCode_noRequest_iff, ← code]
        exact Option.some_inj.symm

/-- A slot with a line and its NUL at the start of the buffer. -/
def withLine (line : List UInt8) : RequestState :=
  HttpConn.blank.toRequestState.receive line

theorem parseRequestLine_iff_path :
    ∃ code next, (withLine (ascii "GET / HTTP/1.1")).parseRequestLine 0 = .ok (code, next) ∧
      LineAnswered (withLine (ascii "GET / HTTP/1.1")) 0 code next := by
  refine (@parseRequestLine_iff (withLine (ascii "GET / HTTP/1.1")) 0 (by decide +kernel)).mpr ?_
  rw [← requestLineCode_none_iff]
  decide +kernel

/-- A host without a path makes the parser read a null pointer. -/
theorem parseRequestLine_pathless :
    (withLine (ascii "GET http://host HTTP/1.1")).parseRequestLine 0 = .error .nullPointer ∧
      ¬∃ code next, (withLine (ascii "GET http://host HTTP/1.1")).parseRequestLine 0 =
          .ok (code, next) ∧
        LineAnswered (withLine (ascii "GET http://host HTTP/1.1")) 0 code next := by
  have parsed : (withLine (ascii "GET http://host HTTP/1.1")).parseRequestLine 0 =
      .error .nullPointer := by
    have fault : (match (withLine (ascii "GET http://host HTTP/1.1")).parseRequestLine 0 with
        | .error fault => some fault
        | .ok _ => none) = some .nullPointer := by
      decide +kernel
    split at fault
    case _ other returned => rw [returned, Option.some.inj fault]
    case _ => contradiction
  refine ⟨parsed, ?_⟩
  rintro ⟨code, next, returned, _⟩
  rw [parsed] at returned
  contradiction

end RequestState

end TimeGANWebServer.Http
