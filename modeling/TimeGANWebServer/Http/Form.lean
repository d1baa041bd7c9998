import TimeGANWebServer.Http.Process

/-!
# The registration and login forms

The form branch of `do_request` copies a name and a password out of the body into
arrays of 100 bytes, the URL into one of 200, and for a registration both fields into
a query of 200.  It counts on the body having the form the pages send.
-/

namespace TimeGANWebServer.Http

open TimeGANWebServer.Support

/-- A field that ends with its stop byte is copied if it leaves room for the NUL. -/
theorem fieldUntil_of_holds {mem : Memory} {stop : UInt8} {index : Int} {bytes : List UInt8}
    (room : Nat) (holds : mem.Holds index bytes) (absent : stop ∉ bytes)
    (ends : mem (index + bytes.length) = stop) :
    fieldUntil mem stop room index = if bytes.length < room then some bytes else none := by
  induction room generalizing index bytes with
  | zero => rfl
  | succ room ih =>
      cases bytes with
      | nil =>
          have here : mem index = stop := by simpa using ends
          rw [fieldUntil, if_pos here]
          rfl
      | cons byte bytes =>
          rw [List.mem_cons, not_or] at absent
          have first : mem index = byte := by simpa using holds 0 (Nat.zero_lt_succ _)
          have tail : mem.Holds (index + 1) bytes := by
            simpa using (show mem.Holds index ([byte] ++ bytes) from holds).append_right
          have rest : mem (index + 1 + bytes.length) = stop := by
            rw [← ends, List.length_cons]
            congr 1
            omega
          rw [fieldUntil, first, if_neg fun same => absent.1 same.symm, ih tail absent.2 rest,
            List.length_cons]
          by_cases short : bytes.length < room
          · rw [if_pos short, if_pos (Nat.succ_lt_succ short), Option.map_some]
          · rw [if_neg short, if_neg fun less => short (Nat.lt_of_succ_lt_succ less),
              Option.map_none]

/-- Form data with a name and a password, as the pages send them. -/
def IsForm (body name password : List UInt8) : Prop :=
  38 ∉ name ∧ body = ascii "user=" ++ (name ++ (ascii "&password=" ++ password))

/-- The length of the query that inserts a user. -/
theorem sqlInsert_length (name password : List UInt8) :
    (HttpConn.sqlInsert name password).length = name.length + password.length + 49 := by
  have insert : (ascii "INSERT INTO user(username, passwd) VALUES(").length = 42 := by decide
  have between : (ascii "', '").length = 4 := by decide
  have close : (ascii "')").length = 2 := by decide
  have quote : (ascii "'").length = 1 := by decide
  simp only [HttpConn.sqlInsert, List.length_append, insert, between, close, quote]
  omega

namespace HttpConn

/-- The fields of form data the pages send. -/
theorem formFields_of_isForm {conn : HttpConn} {text : Int} {name password : List UInt8}
    (present : conn.string = some text)
    (terminated : text + (conn.str text).length < readBufferSize)
    (isForm : IsForm (conn.str text) name password) :
    conn.formFields = if name.length < 100 ∧ password.length < 100 then
        .ok (name, password)
      else
        .error .bufferOverflow := by
  obtain ⟨noAmp, body⟩ := isForm
  have nul := Memory.nul_behind_cstring terminated
  have noNul := Memory.not_mem_cstring readBufferSize conn.readBuf text
  have whole := Memory.holds_cstring readBufferSize conn.readBuf text
  replace body : conn.readBuf.cstring readBufferSize text = _ := body
  rw [body] at whole nul noNul
  have afterUser : conn.readBuf.Holds (text + 5) (name ++ (ascii "&password=" ++ password)) :=
    whole.append_right
  have afterName : conn.readBuf.Holds (text + 5 + name.length) (ascii "&password=" ++ password) :=
    afterUser.append_right
  have amp : conn.readBuf (text + 5 + name.length) = 38 := by
    have first := afterName 0 (by simp [ascii])
    rwa [Int.natCast_zero, Int.add_zero] at first
  have afterAmp : conn.readBuf.Holds (text + 5 + name.length + 10) password :=
    afterName.append_right
  have ends : conn.readBuf (text + 5 + name.length + 10 + password.length) = 0 := by
    rw [← nul]
    have user : (ascii "user=").length = 5 := by decide
    have key : (ascii "&password=").length = 10 := by decide
    simp only [List.length_append, user, key]
    congr 1
    omega
  simp only [List.mem_append, not_or] at noNul
  have plain : untilNul name = name := untilNul_of_notMem noNul.2.1
  simp only [formFields, present, fieldUntil_of_holds 100 afterUser.append_left noAmp amp]
  by_cases nameFits : name.length < 100
  · simp only [if_pos nameFits, fieldUntil_of_holds 100 afterAmp noNul.2.2.2 ends]
    by_cases passwordFits : password.length < 100
    · simp only [if_pos passwordFits, plain, if_pos (And.intro nameFits passwordFits)]
    · simp only [if_neg passwordFits, if_neg fun both : _ ∧ _ => passwordFits both.2]
  · simp only [if_neg nameFits, if_neg fun both : _ ∧ _ => nameFits both.1]

/-- Form data is rejected: whatever users there are, nobody is logged in or registered. -/
def Rejects (conn : HttpConn) (url p : Int) : Prop :=
  ∀ env, ∃ next, conn.form env url p = .ok (.goOn next env.users)

/-- What the form branch is to do with the body at `text`: the arrays take what is
copied into them, the loops end inside the body, the fields are exact, and a body of
another form is rejected. -/
structure FormHandled (conn : HttpConn) (url p text : Int) : Prop where
  urlReal : (47 :: conn.str (url + 2)).length < 200
  arrays : ∃ name password, conn.formFields = .ok (name, password) ∧
    (conn.readBuf (p + 1) = 51 → (sqlInsert name password).length < 200)
  loops : ∃ amp, strchr ((conn.str text).drop 5) 38 = some amp ∧
    5 + amp + 10 ≤ (conn.str text).length
  exact : ∀ name password, IsForm (conn.str text) name password →
    conn.formFields = .ok (name, password)
  rejects : (¬∃ name password, IsForm (conn.str text) name password) → conn.Rejects url p

/-- No body is rejected. -/
theorem not_rejects (conn : HttpConn) (url p : Int) : ¬conn.Rejects url p := by
  intro rejects
  obtain ⟨next, done⟩ := rejects Env.blank
  simp only [form] at done
  split at done
  · contradiction
  case isFalse short =>
      split at done
      · contradiction
      case _ name password fields =>
          split at done
          case isTrue registers =>
              simp only [register, Env.blank] at done
              split at done
              · contradiction
              · split at done
                · contradiction
                · split at done
                  · contradiction
                  · have users := congrFun (FormOutcome.goOn.inj (Except.ok.inj done)).2 name
                    rw [Function.update_self] at users
                    contradiction
          case isFalse logsIn =>
              obtain ⟨next, done⟩ := rejects { Env.blank with users := fun _ => some password }
              simp only [form, if_neg short, fields, if_neg logsIn, login, if_true,
                Except.ok.injEq, reduceCtorEq] at done

/-- The form branch does what it is to do exactly for form data of the pages that
fit into its arrays, on a URL that does. -/
theorem formHandled_iff {conn : HttpConn} {url p text : Int} (present : conn.string = some text)
    (terminated : text + (conn.str text).length < readBufferSize) :
    conn.FormHandled url p text ↔
      ∃ name password, IsForm (conn.str text) name password ∧
        name.length ≤ 99 ∧ password.length ≤ 99 ∧ (conn.str (url + 2)).length ≤ 198 ∧
        (conn.readBuf (p + 1) = 51 → name.length + password.length ≤ 150) := by
  constructor
  · intro handled
    by_cases formed : ∃ name password, IsForm (conn.str text) name password
    · obtain ⟨name, password, isForm⟩ := formed
      have fields := handled.exact name password isForm
      obtain ⟨copiedName, copiedPassword, copied, fits⟩ := handled.arrays
      rw [fields] at copied
      obtain ⟨rfl, rfl⟩ := Prod.mk.inj (Except.ok.inj copied)
      rw [formFields_of_isForm present terminated isForm] at fields
      have urlReal := handled.urlReal
      rw [List.length_cons] at urlReal
      rw [sqlInsert_length] at fits
      split at fields
      case isTrue short =>
          exact ⟨name, password, isForm, by omega, by omega, by omega,
            fun registers => by have bound := fits registers; omega⟩
      case isFalse => contradiction
    · exact absurd (handled.rejects formed) (not_rejects conn url p)
  · rintro ⟨name, password, isForm, nameFits, passwordFits, urlFits, queryFits⟩
    have fields := formFields_of_isForm present terminated isForm
    rw [if_pos ⟨Nat.lt_succ_of_le nameFits, Nat.lt_succ_of_le passwordFits⟩] at fields
    refine ⟨?_, ⟨name, password, fields, ?_⟩, ?_, ?_, ?_⟩
    · rw [List.length_cons]
      omega
    · intro registers
      have bound := queryFits registers
      rw [sqlInsert_length]
      omega
    · refine ⟨name.length, ?_, ?_⟩
      · rw [isForm.2, List.drop_left' (show (ascii "user=").length = 5 by decide)]
        exact strchr_append isForm.1
      · have user : (ascii "user=").length = 5 := by decide
        have key : (ascii "&password=").length = 10 := by decide
        rw [isForm.2]
        simp only [List.length_append, user, key]
        omega
    · intro otherName otherPassword otherForm
      have other := formFields_of_isForm present terminated otherForm
      rw [fields] at other
      split at other
      · rw [fields]
        exact other
      · contradiction
    · intro unformed
      exact absurd ⟨name, password, isForm⟩ unformed

/-- A slot with the URL of the registration and a body. -/
def withBody (body : List UInt8) : HttpConn :=
  { HttpConn.blank with
    readBuf := HttpConn.blank.readBuf.store 0 (ascii "/3" ++ 0 :: body)
    url := some 0
    string := some 3
    cgi := 1 }

theorem formHandled_iff_bob : (withBody (ascii "user=bob&password=secret")).FormHandled 0 0 3 := by
  have body : (withBody (ascii "user=bob&password=secret")).str 3 =
      ascii "user=bob&password=secret" := by
    decide +kernel
  have url : (withBody (ascii "user=bob&password=secret")).str (0 + 2) = [] := by
    decide +kernel
  refine (@formHandled_iff (withBody (ascii "user=bob&password=secret")) 0 0 3 rfl ?_).mpr ?_
  · rw [body]
    decide
  · refine ⟨ascii "bob", ascii "secret", ⟨by decide, body⟩, by decide, by decide, ?_, ?_⟩
    · rw [url]
      decide
    · exact fun _ => by decide

/-- A `POST` request with a body. -/
def formRequest (page body : List UInt8) : List UInt8 :=
  ascii "POST " ++ page ++ ascii " HTTP/1.1\r\nContent-Length: " ++ decimal body.length ++
    ascii "\r\n\r\n" ++ body

/-- In a body without `&` the name goes on behind the body and out of its array. -/
theorem formHandled_noAmp :
    ∃ asked, (receiving 5 (ascii "root")
        (formRequest (ascii "/2") (ascii "user=bob"))).requested = some asked ∧
      asked.url = some 5 ∧ asked.string = some 39 ∧ asked.str 39 = ascii "user=bob" ∧
      ¬asked.FormHandled 5 5 39 := by
  have parsed : (receiving 5 (ascii "root")
      (formRequest (ascii "/2") (ascii "user=bob"))).requested.map
      (fun asked => (asked.url, asked.string, asked.str 39, asked.formFields.isOk)) =
        some (some 5, some 39, ascii "user=bob", false) := by
    decide +kernel
  obtain ⟨asked, requested, outcome⟩ := Option.map_eq_some_iff.mp parsed
  simp only [Prod.mk.injEq] at outcome
  obtain ⟨url, string, body, fields⟩ := outcome
  refine ⟨asked, requested, url, string, body, ?_⟩
  intro handled
  obtain ⟨name, password, copied, _⟩ := handled.arrays
  simp only [copied, Except.isOk, Except.toBool, reduceCtorEq] at fields

end HttpConn

end TimeGANWebServer.Http
