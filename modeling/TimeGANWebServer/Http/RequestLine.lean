import TimeGANWebServer.Http.Scan

/-!
# The request line as a string

What `parse_request_line` returns and leaves behind, in terms of the string of the line.
The pointers it sets are offsets into the line, and the strings they point to are parts of
it, ended by the NULs it puts over the blanks behind the method and the target.
-/

namespace TimeGANWebServer.Http

open TimeGANWebServer.Support

/-- What is left of a target without its scheme. -/
def dropScheme (url scheme : List UInt8) : Option (List UInt8) :=
  if strncasecmp url scheme scheme.length then
    (strchr (url.drop scheme.length) 47).map fun (offset : Nat) => url.drop (scheme.length + offset)
  else
    some url

/-- The code for a target; there is none when a null pointer is read. -/
def urlCode (url : List UInt8) : Option HttpCode :=
  match dropScheme url (ascii "http://") with
  | none => none
  | some url =>
      match dropScheme url (ascii "https://") with
      | none => some .badRequest
      | some url => some (if url.head? = some 47 then .noRequest else .badRequest)

/-- The code for what follows the method. -/
def targetCode (rest : List UInt8) : Option HttpCode :=
  let url := rest.drop (strspn rest RequestState.blanks)
  match strpbrk url RequestState.blanks with
  | none => some .badRequest
  | some gap =>
      let afterTarget := url.drop (gap + 1)
      let version := afterTarget.drop (strspn afterTarget RequestState.blanks)
      if strcasecmp version (ascii "HTTP/1.1") then urlCode (url.take gap) else some .badRequest

/-- The code for a request line. -/
def requestLineCode (line : List UInt8) : Option HttpCode :=
  match strpbrk line RequestState.blanks with
  | none => some .badRequest
  | some gap =>
      let method := line.take gap
      if strcasecmp method (ascii "GET") || strcasecmp method (ascii "POST") then
        targetCode (line.drop (gap + 1))
      else
        some .badRequest

/-! ## The end of a request line -/

theorem getLast?_of_drop {text : List UInt8} {count : Nat} {byte : UInt8}
    (last : (text.drop count).getLast? = some byte) : text.getLast? = some byte := by
  rw [List.getLast?_drop] at last
  split at last
  · contradiction
  · exact last

theorem strcasecmp_getLast? {left right : List UInt8} (same : strcasecmp left right = true) :
    left.getLast?.map tolower = right.getLast?.map tolower := by
  simp only [strcasecmp, beq_iff_eq] at same
  rw [← List.getLast?_map, ← List.getLast?_map, same]

theorem targetCode_getLast? {rest : List UInt8} (notBad : targetCode rest ≠ some .badRequest) :
    rest.getLast?.map tolower = some 49 := by
  simp only [targetCode] at notBad
  split at notBad
  · contradiction
  · split at notBad
    case isTrue version =>
        have digit : (ascii "HTTP/1.1").getLast?.map tolower = some 49 := by decide
        obtain ⟨byte, last, lower⟩ :=
          Option.map_eq_some_iff.mp ((strcasecmp_getLast? version).trans digit)
        rw [getLast?_of_drop (getLast?_of_drop (getLast?_of_drop last)), Option.map_some, lower]
    case isFalse => contradiction

/-- A request line that is not rejected ends with the version's last digit. -/
theorem requestLineCode_getLast? {line : List UInt8}
    (notBad : requestLineCode line ≠ some .badRequest) : line.getLast?.map tolower = some 49 := by
  simp only [requestLineCode] at notBad
  split at notBad
  · contradiction
  · split at notBad
    · obtain ⟨byte, last, lower⟩ := Option.map_eq_some_iff.mp (targetCode_getLast? notBad)
      rw [getLast?_of_drop last, Option.map_some, lower]
    · contradiction

namespace RequestState

/-! ## Parts of a string -/

theorem str_drop {request : RequestState} {text : Int} {count : Nat}
    (inside : count ≤ (request.str text).length) :
    request.str (text + count) = (request.str text).drop count :=
  Memory.cstring_drop inside

/-- A string starts in front of its NUL. -/
theorem head_str {request : RequestState} {text : Int} (inside : text < readBufferSize) :
    (request.str text).head? = some 47 ↔ request.readBuf text = 47 := by
  rw [str, Memory.cstring_step]
  by_cases ends : request.readBuf text = 0
  · simp [ends]
  · rw [if_pos ⟨inside, ends⟩]
    simp

theorem skipScheme_str (request : RequestState) (url : Int) (scheme : List UInt8) :
    (request.skipScheme url scheme).map request.str = dropScheme (request.str url) scheme := by
  simp only [skipScheme, dropScheme]
  split
  case isTrue named =>
      have long := strncasecmp_length named
      rw [str_drop long]
      cases found : strchr ((request.str url).drop scheme.length) 47 with
      | none => rfl
      | some offset =>
          have within := strchr_lt found
          rw [List.length_drop] at within
          have moved :
              url + scheme.length + (offset : Int) =
                url + ((scheme.length + offset : Nat) : Int) := by
            omega
          rw [Option.map_some, Option.map_some, moved, str_drop (by omega)]
          rfl
  case isFalse => rfl

theorem codeOf_parseUrl {request : RequestState} {url stop : Int} (ordered : url ≤ stop)
    (nul : request.readBuf stop = 0) (room : stop < readBufferSize) :
    codeOf (request.parseUrl url) = urlCode (request.str url) := by
  have whole : request.readBuf.AgreeTo request.readBuf url stop := ⟨nul, fun _ _ _ => rfl⟩
  have first := (skipScheme_congr (ascii "http://") whole ordered room).2
  simp only [parseUrl, urlCode, ← skipScheme_str]
  cases httpSkipped : request.skipScheme url (ascii "http://") with
  | none => rfl
  | some url =>
      have bounds := first url httpSkipped
      have second := (skipScheme_congr (ascii "https://") (whole.mono url bounds.1) bounds.2 room).2
      simp only [Option.map_some, ← skipScheme_str]
      cases httpsSkipped : request.skipScheme url (ascii "https://") with
      | none => rfl
      | some url =>
          have bounds := second url httpsSkipped
          simp only [Option.map_some, head_str (Int.lt_of_le_of_lt bounds.2 room)]
          split <;> rfl

/-- Putting a NUL over a byte of a string cuts it there. -/
theorem str_cut {request : RequestState} {text : Int} {gap : Nat}
    (inside : gap < (request.str text).length) :
    RequestState.str { request with readBuf := request.readBuf.set (text + gap) 0 } text =
        (request.str text).take gap ∧
      RequestState.str { request with readBuf := request.readBuf.set (text + gap) 0 }
        (text + gap + 1) = (request.str text).drop (gap + 1) := by
  have behind : text + (gap : Int) + 1 = text + ((gap + 1 : Nat) : Int) := by omega
  refine ⟨Memory.cstring_set_take inside, ?_⟩
  rw [behind, ← str_drop inside]
  exact Memory.cstring_set_before 0 (by omega)

theorem codeOf_parseTarget {request : RequestState} {afterMethod stop : Int}
    (ordered : afterMethod ≤ stop) (nul : request.readBuf stop = 0) (room : stop < readBufferSize) :
    codeOf (request.parseTarget afterMethod) = targetCode (request.str afterMethod) := by
  have urlInside := skip_blanks_le ordered nul
  have skipped := str_drop (strspn_le (request.str afterMethod) blanks)
  simp only [parseTarget, targetCode, ← skipped]
  generalize afterMethod + (strspn (request.str afterMethod) blanks : Int) = url at *
  cases found : strpbrk (request.str url) blanks with
  | none => rfl
  | some gap =>
      have gapInside := blank_lt urlInside nul found
      obtain ⟨target, rest⟩ := str_cut (strpbrk_lt found)
      have nulAfter : (request.readBuf.set (url + gap) 0) stop = 0 :=
        (Memory.set_of_ne 0 (by omega)).trans nul
      have version := str_drop (strspn_le (RequestState.str
        { request with readBuf := request.readBuf.set (url + gap) 0 } (url + gap + 1)) blanks)
      rw [rest] at version
      simp only [rest, version]
      split
      · exact (codeOf_parseUrl urlInside nulAfter room).trans (congrArg urlCode target)
      · rfl

/-- What `parse_request_line` returns. -/
theorem codeOf_parseRequestLine {request : RequestState} {text stop : Int} (ordered : text ≤ stop)
    (nul : request.readBuf stop = 0) (room : stop < readBufferSize) :
    codeOf (request.parseRequestLine text) = requestLineCode (request.str text) := by
  simp only [parseRequestLine, requestLineCode]
  cases found : strpbrk (request.str text) blanks with
  | none => rfl
  | some gap =>
      have gapInside := blank_lt ordered nul found
      have behind : text + gap + 1 ≤ stop := by omega
      obtain ⟨method, rest⟩ := str_cut (strpbrk_lt found)
      have nulAfter : (request.readBuf.set (text + gap) 0) stop = 0 :=
        (Memory.set_of_ne 0 (by omega)).trans nul
      simp only [str] at method rest ⊢
      simp only [method]
      split
      case isTrue get =>
          rw [get, Bool.true_or, if_pos rfl]
          exact (codeOf_parseTarget behind nulAfter room).trans (congrArg targetCode rest)
      case isFalse notGet =>
          split
          case isTrue post =>
              rw [post, Bool.or_true, if_pos rfl]
              exact (codeOf_parseTarget behind nulAfter room).trans (congrArg targetCode rest)
          case isFalse notPost =>
              simp only [Bool.not_eq_true] at notGet notPost
              rw [notGet, notPost]
              rfl

/-! ## A well-formed request line -/

/-- A path has no scheme. -/
theorem parseUrl_path {request : RequestState} {url : Int} {path : List UInt8}
    (target : request.str url = 47 :: path) (slash : request.readBuf url = 47) :
    request.parseUrl url =
      .ok (.noRequest, { request with url := some url, checkState := .header }) := by
  have noScheme : ∀ scheme : List UInt8, (scheme.map tolower).head? = some 104 →
      request.skipScheme url scheme = some url := by
    intro scheme letter
    refine if_neg fun named => ?_
    cases scheme with
    | nil => contradiction
    | cons first scheme =>
        have same := strncasecmp_getElem? named (Nat.zero_lt_succ _)
        rw [target] at same
        simp only [List.map_cons, List.head?_cons, Option.some.injEq] at letter
        simp only [List.getElem?_cons_zero, Option.map_some, letter, Option.some.injEq] at same
        exact absurd same (by decide)
  simp only [parseUrl, noScheme (ascii "http://") (by decide),
    noScheme (ascii "https://") (by decide),
    slash, if_true]

theorem parseTarget_wellFormed {request : RequestState} {afterMethod : Int} {path : List UInt8}
    (room : afterMethod < readBufferSize) (plain : ∀ byte ∈ path, byte ∉ blanks)
    (rest : request.str afterMethod = 47 :: path ++ 32 :: ascii "HTTP/1.1") :
    ∃ readBuf version, request.parseTarget afterMethod = .ok (.noRequest, { request with
        readBuf := readBuf, url := some afterMethod, version := some version,
        checkState := .header }) ∧
      Memory.cstring readBufferSize readBuf afterMethod = 47 :: path := by
  have noBlank : strspn (request.str afterMethod) blanks = 0 := by
    rw [rest]
    exact strspn_cons (by decide)
  have targetPlain : ∀ byte ∈ 47 :: path, byte ∉ blanks := by
    intro byte member
    rcases List.mem_cons.mp member with rfl | inPath
    · decide
    · exact plain byte inPath
  have found : strpbrk (request.str afterMethod) blanks = some (47 :: path).length := by
    rw [rest]
    exact strpbrk_append targetPlain (by decide)
  obtain ⟨target, version⟩ := str_cut (strpbrk_lt found)
  rw [rest, List.take_left' rfl] at target
  have after : (request.str afterMethod).drop ((47 :: path).length + 1) = ascii "HTTP/1.1" := by
    rw [rest, ← List.drop_drop, List.drop_left' rfl]
    rfl
  rw [after] at version
  have noGap : strspn (ascii "HTTP/1.1") blanks = 0 := by decide
  have accepted : strcasecmp (ascii "HTTP/1.1") (ascii "HTTP/1.1") = true := by decide
  have slash : (request.readBuf.set (afterMethod + ((47 :: path).length : Nat)) 0) afterMethod =
      47 := by
    have head := @head_str request afterMethod room
    rw [rest] at head
    rw [Memory.set_of_ne 0 (by simp only [List.length_cons]; omega)]
    exact head.mp rfl
  refine ⟨request.readBuf.set (afterMethod + ((47 :: path).length : Nat)) 0,
    afterMethod + ((47 :: path).length : Nat) + 1, ?_, target⟩
  simp only [parseTarget, noBlank, found, Int.natCast_zero, Int.add_zero, version, noGap, accepted,
    if_true]
  exact parseUrl_path target slash

/-- What `parse_request_line` leaves behind a well-formed request line. -/
theorem parseRequestLine_wellFormed {request : RequestState} {text stop : Int}
    (ordered : text ≤ stop) (nul : request.readBuf stop = 0) (room : stop < readBufferSize)
    {name path : List UInt8} {method : Method} {cgi : Int}
    (named : name = ascii "GET" ∧ method = .get ∧ cgi = request.cgi ∨
      name = ascii "POST" ∧ method = .post ∧ cgi = 1)
    (plain : ∀ byte ∈ path, byte ∉ blanks)
    (line : request.str text = name ++ 32 :: (47 :: path ++ 32 :: ascii "HTTP/1.1")) :
    ∃ readBuf url version, request.parseRequestLine text = .ok (.noRequest, { request with
        readBuf := readBuf, method := method, cgi := cgi, url := some url, version := some version,
        checkState := .header }) ∧
      text ≤ url ∧ url < stop ∧ Memory.cstring readBufferSize readBuf url = 47 :: path := by
  have nameLine : ∀ byte ∈ name, byte ∉ blanks := by
    rcases named with ⟨rfl, _⟩ | ⟨rfl, _⟩ <;> decide
  have found : strpbrk (request.str text) blanks = some name.length := by
    rw [line]
    exact strpbrk_append nameLine (by decide)
  have gapInside := blank_lt ordered nul found
  obtain ⟨cut, rest⟩ := str_cut (strpbrk_lt found)
  rw [line, List.take_left' rfl] at cut
  have after :
      (request.str text).drop (name.length + 1) = 47 :: path ++ 32 :: ascii "HTTP/1.1" := by
    rw [line, ← List.drop_drop, List.drop_left' rfl]
    rfl
  rw [after] at rest
  have urlRoom : text + (name.length : Int) + 1 < readBufferSize := by omega
  have later : text ≤ text + (name.length : Int) + 1 := by omega
  have inside : text + (name.length : Int) + 1 < stop := by
    have length := str_length_le ordered nul
    rw [line] at length
    simp only [List.length_append, List.length_cons] at length
    omega
  simp only [str] at cut
  rcases named with ⟨rfl, rfl, rfl⟩ | ⟨rfl, rfl, rfl⟩
  · obtain ⟨readBuf, version, parsed, target⟩ := @parseTarget_wellFormed { request with
      readBuf := request.readBuf.set (text + ((ascii "GET").length : Nat)) 0
      url := some (text + ((ascii "GET").length : Nat) + 1)
      method := .get } _ path urlRoom plain rest
    have get : strcasecmp (ascii "GET") (ascii "GET") = true := by decide
    refine ⟨readBuf, _, version, ?_, later, inside, target⟩
    simp only [parseRequestLine, found, str, cut, get, if_true]
    exact parsed
  · obtain ⟨readBuf, version, parsed, target⟩ := @parseTarget_wellFormed { request with
      readBuf := request.readBuf.set (text + ((ascii "POST").length : Nat)) 0
      url := some (text + ((ascii "POST").length : Nat) + 1)
      method := .post
      cgi := 1 } _ path urlRoom plain rest
    have notGet : strcasecmp (ascii "POST") (ascii "GET") = false := by decide
    have post : strcasecmp (ascii "POST") (ascii "POST") = true := by decide
    refine ⟨readBuf, _, version, ?_, later, inside, target⟩
    simp only [parseRequestLine, found, str, cut, notGet, post, if_true, Bool.false_eq_true,
      if_false]
    exact parsed

end RequestState

end TimeGANWebServer.Http
