import TimeGANWebServer.Http.DoRequest

/-!
# Exceptions of a diagnosis

What the `try` block of `do_request` for `POST /diagnose` throws, and what its handler makes of
it.  The handler prints the message of the exception as JSON, which throws again for a message
that is not UTF-8.
-/

namespace TimeGANWebServer.Http

open TimeGANWebServer.Support

/-- The bytes encode a sequence of characters. -/
def IsUtf8 (bytes : List UInt8) : Prop :=
  bytes.toByteArray.IsValidUTF8

instance decidableIsUtf8 (bytes : List UInt8) : Decidable (IsUtf8 bytes) :=
  inferInstanceAs (Decidable bytes.toByteArray.IsValidUTF8)

/-- `dump` throws for the messages that are not UTF-8. -/
def Json.Strict (json : Json) : Prop :=
  ∀ message, (∃ bytes, json.dumpError message = .ok bytes) ↔ IsUtf8 message

/-- A body gets as far as a generator and a number of samples. -/
def Picks (json : Json) (models : Models) (text : List UInt8) (generator : Nat)
    (numSamples : Int) : Prop :=
  ∃ body, json.parse text = .ok body ∧ body.numSamples = .ok numSamples ∧
    (body.csvData = none ∧ generator = 0 ∨
      ∃ content firstSample samples classProbs, body.csvData = some (.ok content) ∧
        models.parseSamples (getlines 10 content) [] 0 [] = .ok (some (firstSample :: samples)) ∧
        models.classify firstSample = .ok classProbs ∧ generator = predClass classProbs)

namespace Models

/-- The generator throws for one of the samples asked for, behind others it yields. -/
def Fails (models : Models) (generator : Nat) (numSamples : Int) (what : List UInt8) : Prop :=
  models.loaded generator = true ∧ ∃ sample < sampleCount numSamples,
    (∀ earlier < sample, ∃ result,
      models.generate generator (models.noise earlier) = .ok result) ∧
    models.generate generator (models.noise sample) = .error what

/-- The generator yields all the samples asked for, and one of them has fewer values than are
read of it. -/
def Short (models : Models) (generator : Nat) (numSamples : Int) : Prop :=
  models.loaded generator = true ∧
    (∀ sample < sampleCount numSamples, ∃ result,
      models.generate generator (models.noise sample) = .ok result) ∧
    ∃ sample < sampleCount numSamples, ∃ result,
      models.generate generator (models.noise sample) = .ok result ∧ result.length < 192

end Models

/-- The `try` block throws an exception with a message, by the call that throws it. -/
inductive Throws (json : Json) (models : Models) (text : List UInt8) : List UInt8 → Prop where
  | parse {what : List UInt8} (rejected : json.parse text = .error what) :
      Throws json models text what
  | csvData {body : DiagnoseBody} {what : List UInt8} (parsed : json.parse text = .ok body)
      (access : body.csvData = some (.error what)) : Throws json models text what
  | numSamples {body : DiagnoseBody} {what : List UInt8} (parsed : json.parse text = .ok body)
      (usable : ∀ other, body.csvData ≠ some (.error other))
      (access : body.numSamples = .error what) : Throws json models text what
  | stof {body : DiagnoseBody} {content what : List UInt8} {numSamples : Int}
      (parsed : json.parse text = .ok body) (upload : body.csvData = some (.ok content))
      (count : body.numSamples = .ok numSamples)
      (rejected : models.parseSamples (getlines 10 content) [] 0 [] = .error what) :
      Throws json models text what
  | classify {body : DiagnoseBody} {content what : List UInt8} {numSamples : Int}
      {firstSample : List UInt32} {samples : List (List UInt32)}
      (parsed : json.parse text = .ok body) (upload : body.csvData = some (.ok content))
      (count : body.numSamples = .ok numSamples)
      (rows : models.parseSamples (getlines 10 content) [] 0 [] =
        .ok (some (firstSample :: samples)))
      (failed : models.classify firstSample = .error what) : Throws json models text what
  | generate {generator : Nat} {numSamples : Int} {what : List UInt8}
      (picks : Picks json models text generator numSamples)
      (failed : models.Fails generator numSamples what) : Throws json models text what

namespace Models

/-- The loop over the samples ends with the first exception. -/
theorem generateAll_error_iff (models : Models) (generator sample left : Nat) (what : List UInt8) :
    models.generateAll generator sample left = .error what ↔
      ∃ index < left,
        (∀ earlier < index, ∃ result,
          models.generate generator (models.noise (sample + earlier)) = .ok result) ∧
        models.generate generator (models.noise (sample + index)) = .error what := by
  induction left generalizing sample with
  | zero => simp [generateAll]
  | succ left ih =>
      have later := ih (sample + 1)
      cases first : models.generate generator (models.noise sample) with
      | error other =>
          have whole : models.generateAll generator sample (left + 1) = .error other := by
            simp only [generateAll, first]
          rw [whole]
          constructor
          · intro same
            cases same
            exact ⟨0, by omega, by simp, first⟩
          · rintro ⟨index, _, before, failed⟩
            cases index with
            | zero =>
                rw [Nat.add_zero, first, Except.error.injEq] at failed
                rw [failed]
            | succ index =>
                obtain ⟨result, made⟩ := before 0 (by omega)
                rw [Nat.add_zero, first] at made
                contradiction
      | ok result =>
          have rest : models.generateAll generator sample (left + 1) = .error what ↔
              models.generateAll generator (sample + 1) left = .error what := by
            simp only [generateAll, first]
            cases models.generateAll generator (sample + 1) left <;> simp
          rw [rest, later]
          constructor
          · rintro ⟨index, below, before, failed⟩
            refine ⟨index + 1, by omega, fun earlier inFront => ?_, ?_⟩
            · cases earlier with
              | zero => exact ⟨result, first⟩
              | succ earlier =>
                  have made := before earlier (by omega)
                  rwa [Nat.add_assoc, Nat.add_comm 1 earlier] at made
            · rwa [Nat.add_assoc, Nat.add_comm 1 index] at failed
          · rintro ⟨index, below, before, failed⟩
            cases index with
            | zero =>
                rw [Nat.add_zero, first] at failed
                contradiction
            | succ index =>
                refine ⟨index, by omega, fun earlier inFront => ?_, ?_⟩
                · have made := before (earlier + 1) (by omega)
                  rwa [Nat.add_comm earlier 1, ← Nat.add_assoc] at made
                · rwa [Nat.add_comm index 1, ← Nat.add_assoc] at failed

/-- The samples of the loop, one by one. -/
theorem generateAll_ok {models : Models} {generator sample left : Nat}
    {results : List (List UInt32)} (made : models.generateAll generator sample left = .ok results) :
    (∀ index < left, ∃ result ∈ results,
      models.generate generator (models.noise (sample + index)) = .ok result) ∧
      ∀ result ∈ results, ∃ index < left,
        models.generate generator (models.noise (sample + index)) = .ok result := by
  induction left generalizing sample results with
  | zero =>
      cases made
      simp
  | succ left ih =>
      simp only [generateAll] at made
      split at made
      · contradiction
      case _ result first =>
          split at made
          · contradiction
          case _ rest following =>
              cases made
              obtain ⟨each, all⟩ := ih following
              constructor
              · intro index below
                cases index with
                | zero => exact ⟨result, List.mem_cons_self, first⟩
                | succ index =>
                    obtain ⟨other, member, yields⟩ := each index (by omega)
                    rw [Nat.add_assoc, Nat.add_comm 1 index] at yields
                    exact ⟨other, List.mem_cons_of_mem _ member, yields⟩
              · intro other member
                rcases List.mem_cons.mp member with rfl | member
                · exact ⟨0, by omega, first⟩
                · obtain ⟨index, below, yields⟩ := all other member
                  rw [Nat.add_assoc, Nat.add_comm 1 index] at yields
                  exact ⟨index + 1, by omega, yields⟩

/-- The generation throws exactly where the generator does. -/
theorem generateCsv_throws_iff (models : Models) (generator : Nat) (missing : List UInt8)
    (numSamples : Int) (what : List UInt8) :
    models.generateCsv generator missing numSamples = .error (.exception what) ↔
      models.Fails generator numSamples what := by
  have failing := models.generateAll_error_iff generator 0 (sampleCount numSamples) what
  simp only [Nat.zero_add] at failing
  simp only [generateCsv, Fails]
  by_cases loaded : models.loaded generator = true
  · rw [if_pos loaded, ← failing]
    simp only [loaded, true_and]
    cases models.generateAll generator 0 (sampleCount numSamples) with
    | error other => simp
    | ok results =>
        by_cases long : (results.all fun sample => 192 ≤ sample.length) = true
        · simp only [putSamples, if_pos long]
          simp
        · simp only [putSamples, if_neg long]
          simp
  · simp [loaded]

/-- The generation reads out of bounds exactly for a sample that is too short. -/
theorem generateCsv_fault_iff (models : Models) (generator : Nat) (missing : List UInt8)
    (numSamples : Int) :
    (∃ fault, models.generateCsv generator missing numSamples = .error (.fault fault)) ↔
      models.Short generator numSamples := by
  have failing := models.generateAll_error_iff generator 0 (sampleCount numSamples)
  simp only [Nat.zero_add] at failing
  simp only [generateCsv, Short]
  by_cases loaded : models.loaded generator = true
  · simp only [loaded, if_true, true_and]
    cases made : models.generateAll generator 0 (sampleCount numSamples) with
    | error what =>
        obtain ⟨sample, below, _, failed⟩ := (failing what).mp made
        refine iff_of_false (by simp) ?_
        rintro ⟨yields, _⟩
        obtain ⟨result, made⟩ := yields sample below
        rw [made] at failed
        contradiction
    | ok results =>
        obtain ⟨each, all⟩ := generateAll_ok made
        simp only [Nat.zero_add] at each all
        by_cases long : (results.all fun sample => 192 ≤ sample.length) = true
        · simp only [putSamples, if_pos long]
          refine iff_of_false (by simp) ?_
          rintro ⟨_, sample, below, result, yields, short⟩
          obtain ⟨other, member, same⟩ := each sample below
          rw [yields, Except.ok.injEq] at same
          subst same
          have enough := of_decide_eq_true (List.all_eq_true.mp long result member)
          omega
        · simp only [putSamples, if_neg long]
          refine iff_of_true ⟨_, rfl⟩ ⟨fun sample below => ?_, ?_⟩
          · obtain ⟨result, _, yields⟩ := each sample below
            exact ⟨result, yields⟩
          · simp only [List.all_eq_true, decide_eq_true_eq] at long
            push Not at long
            obtain ⟨result, member, short⟩ := long
            obtain ⟨sample, below, yields⟩ := all result member
            exact ⟨sample, below, result, yields, short⟩
  · simp [loaded]

theorem generateCsv_message {models : Models} {generator : Nat} {missing message : List UInt8}
    {numSamples : Int}
    (answered : models.generateCsv generator missing numSamples = .ok (.error message)) :
    message = missing := by
  simp only [generateCsv] at answered
  split at answered
  · split at answered
    · contradiction
    · split at answered
      · contradiction
      · cases answered
  · cases answered
    rfl

end Models

/-- Every message of the branch itself is a text. -/
def Known (message : List UInt8) : Prop :=
  message = badRowMessage ∨ message = noSampleMessage ∨ message = noGeneratorMessage ∨
    message = noDefaultMessage

theorem Known.isUtf8 {message : List UInt8} (known : Known message) : IsUtf8 message := by
  rcases known with rfl | rfl | rfl | rfl
  all_goals decide +kernel

/-! ## How the branch ends -/

section

variable {json : Json} {models : Models} {text : List UInt8}

/-- A body that gets to a generator ends with its generation. -/
theorem diagnose_of_picks {generator : Nat} {numSamples : Int}
    (picks : Picks json models text generator numSamples) :
    ∃ missing, Known missing ∧
      diagnose json models text = models.generateCsv generator missing numSamples := by
  obtain ⟨body, parsed, count, ⟨none_, rfl⟩ |
    ⟨content, first, samples, probs, upload, rows, classified, rfl⟩⟩ := picks
  · refine ⟨noDefaultMessage, .inr (.inr (.inr rfl)), ?_⟩
    simp only [diagnose, parsed, none_, count]
  · refine ⟨noGeneratorMessage, .inr (.inr (.inl rfl)), ?_⟩
    simp only [diagnose, parsed, upload, count, Models.diagnoseUpload, rows, classified]

/-- The `try` block ends in front of a generator, with an exception or a message, or with the
generation. -/
theorem diagnose_cases (json : Json) (models : Models) (text : List UInt8) :
    (∃ what, Throws json models text what ∧
        diagnose json models text = .error (.exception what)) ∨
      (∃ message, Known message ∧ diagnose json models text = .ok (.error message)) ∨
      ∃ generator numSamples, Picks json models text generator numSamples := by
  cases parsed : json.parse text with
  | error what => exact .inl ⟨what, .parse parsed, by simp only [diagnose, parsed]⟩
  | ok body =>
      cases data : body.csvData with
      | none =>
          cases count : body.numSamples with
          | error what =>
              refine .inl
                ⟨what, .numSamples parsed ?_ count, by simp only [diagnose, parsed, data, count]⟩
              rw [data]
              simp
          | ok numSamples =>
              exact .inr (.inr ⟨0, numSamples, body, parsed, count, .inl ⟨data, rfl⟩⟩)
      | some access =>
          cases access with
          | error what =>
              exact .inl ⟨what, .csvData parsed data, by simp only [diagnose, parsed, data]⟩
          | ok content =>
              cases count : body.numSamples with
              | error what =>
                  refine .inl ⟨what, .numSamples parsed ?_ count, by
                    simp only [diagnose, parsed, data, count]⟩
                  rw [data]
                  simp
              | ok numSamples =>
                  have upload : diagnose json models text =
                      models.diagnoseUpload content numSamples := by
                    simp only [diagnose, parsed, data, count]
                  rw [upload]
                  cases rows : models.parseSamples (getlines 10 content) [] 0 [] with
                  | error what =>
                      exact .inl ⟨what, .stof parsed data count rows, by
                        simp only [Models.diagnoseUpload, rows]⟩
                  | ok found =>
                      cases found with
                      | none =>
                          exact .inr (.inl ⟨badRowMessage, .inl rfl, by
                            simp only [Models.diagnoseUpload, rows]⟩)
                      | some samples =>
                          cases samples with
                          | nil =>
                              exact .inr (.inl ⟨noSampleMessage, .inr (.inl rfl), by
                                simp only [Models.diagnoseUpload, rows]⟩)
                          | cons first samples =>
                              cases classified : models.classify first with
                              | error what =>
                                  exact .inl ⟨what, .classify parsed data count rows classified, by
                                    simp only [Models.diagnoseUpload, rows, classified]⟩
                              | ok probs =>
                                  exact .inr (.inr ⟨predClass probs, numSamples, body, parsed,
                                    count, .inr ⟨content, first, samples, probs, data, rows,
                                      classified, rfl⟩⟩)

theorem diagnose_of_throws {what : List UInt8} (throws : Throws json models text what) :
    diagnose json models text = .error (.exception what) := by
  cases throws with
  | parse rejected => simp only [diagnose, rejected]
  | csvData parsed access => simp only [diagnose, parsed, access]
  | @numSamples body _ parsed usable access =>
      cases data : body.csvData with
      | none => simp only [diagnose, parsed, data, access]
      | some upload =>
          cases upload with
          | error other => exact absurd data (usable other)
          | ok content => simp only [diagnose, parsed, data, access]
  | stof parsed upload count rejected =>
      simp only [diagnose, parsed, upload, count, Models.diagnoseUpload, rejected]
  | classify parsed upload count rows failed =>
      simp only [diagnose, parsed, upload, count, Models.diagnoseUpload, rows, failed]
  | generate picks failed =>
      obtain ⟨missing, _, same⟩ := diagnose_of_picks picks
      rw [same, Models.generateCsv_throws_iff]
      exact failed

/-- The `try` block is left with an exception exactly by a call that throws it. -/
theorem diagnose_throws_iff (what : List UInt8) :
    diagnose json models text = .error (.exception what) ↔ Throws json models text what := by
  refine ⟨fun thrown => ?_, diagnose_of_throws⟩
  rcases diagnose_cases json models text with
    ⟨other, throws, same⟩ | ⟨_, _, same⟩ | ⟨generator, numSamples, picks⟩
  · rw [thrown] at same
    cases same
    exact throws
  · rw [thrown] at same
    contradiction
  · obtain ⟨missing, _, same⟩ := diagnose_of_picks picks
    rw [same, Models.generateCsv_throws_iff] at thrown
    exact .generate picks thrown

/-- It reads out of bounds exactly for a generated sample that is too short. -/
theorem diagnose_fault_iff :
    (∃ fault, diagnose json models text = .error (.fault fault)) ↔
      ∃ generator numSamples, Picks json models text generator numSamples ∧
        models.Short generator numSamples := by
  constructor
  · rintro ⟨fault, faulted⟩
    rcases diagnose_cases json models text with
      ⟨other, _, same⟩ | ⟨_, _, same⟩ | ⟨generator, numSamples, picks⟩
    · rw [faulted] at same
      cases same
    · rw [faulted] at same
      contradiction
    · obtain ⟨missing, _, same⟩ := diagnose_of_picks picks
      rw [same] at faulted
      exact ⟨generator, numSamples, picks,
        (models.generateCsv_fault_iff generator missing numSamples).mp ⟨fault, faulted⟩⟩
  · rintro ⟨generator, numSamples, picks, short⟩
    obtain ⟨missing, _, same⟩ := diagnose_of_picks picks
    rw [same]
    exact (models.generateCsv_fault_iff generator missing numSamples).mpr short

/-- The messages of its answers are texts. -/
theorem diagnose_known {message : List UInt8}
    (answered : diagnose json models text = .ok (.error message)) : Known message := by
  rcases diagnose_cases json models text with
    ⟨_, _, same⟩ | ⟨other, known, same⟩ | ⟨generator, numSamples, picks⟩
  · rw [answered] at same
    contradiction
  · rw [answered] at same
    cases same
    exact known
  · obtain ⟨missing, known, same⟩ := diagnose_of_picks picks
    rw [same] at answered
    rw [Models.generateCsv_message answered]
    exact known

/-- The branch returns exactly if the message of its exception is UTF-8, and no generated sample
is too short. -/
theorem diagnoseRequest_returns_iff (strict : json.Strict) :
    (∃ result, diagnoseRequest json models text = .ok result) ↔
      (∀ what, Throws json models text what → IsUtf8 what) ∧
        ∀ generator numSamples, Picks json models text generator numSamples →
          ¬models.Short generator numSamples := by
  have caught : ∀ what, (∃ result, catchDiagnose json what = .ok result) ↔ IsUtf8 what := by
    intro what
    rw [← strict what, catchDiagnose]
    cases json.dumpError what <;> simp
  have faults := @diagnose_fault_iff json models text
  have throws := @diagnose_throws_iff json models text
  simp only [diagnoseRequest]
  cases ended : diagnose json models text with
  | error thrown =>
      cases thrown with
      | fault fault =>
          obtain ⟨generator, numSamples, picks, short⟩ := faults.mp ⟨fault, ended⟩
          exact iff_of_false (by simp) fun safe => safe.2 generator numSamples picks short
      | exception what =>
          refine (caught what).trans ⟨fun valid => ⟨fun other thrown => ?_, ?_⟩, fun safe => ?_⟩
          · have same := (throws other).mpr thrown
            rw [ended] at same
            cases same
            exact valid
          · intro generator numSamples picks short
            obtain ⟨fault, faulted⟩ := faults.mpr ⟨generator, numSamples, picks, short⟩
            rw [ended] at faulted
            cases faulted
          · exact safe.1 what ((throws what).mp ended)
  | ok answer =>
      have safe : (∀ what, Throws json models text what → IsUtf8 what) ∧
          ∀ generator numSamples, Picks json models text generator numSamples →
            ¬models.Short generator numSamples := by
        constructor
        · intro what thrown
          rw [(throws what).mpr thrown] at ended
          contradiction
        · intro generator numSamples picks short
          obtain ⟨fault, faulted⟩ := faults.mpr ⟨generator, numSamples, picks, short⟩
          rw [faulted] at ended
          contradiction
      refine iff_of_true ?_ safe
      cases answer with
      | csv bytes => exact ⟨_, rfl⟩
      | error message =>
          obtain ⟨bytes, dumped⟩ := (strict message).mpr (diagnose_known ended).isUtf8
          simp only [dumped]
          exact ⟨_, rfl⟩

end

namespace HttpConn

/-- A diagnosis request returns a code exactly if every exception of the `try` block has a message
in UTF-8, and no generated sample is too short. -/
theorem diagnosis_returns_iff {conn : HttpConn} {env : Env} {url body : Int}
    (strict : env.json.Strict) (found : conn.url = some url) (post : conn.cgi = 1)
    (target : conn.str url = ascii "/diagnose") (string : conn.string = some body) :
    (∃ reply, conn.doRequest env = .ok reply) ↔
      (∀ what, Throws env.json env.models (conn.str body) what → IsUtf8 what) ∧
        ∀ generator numSamples, Picks env.json env.models (conn.str body) generator numSamples →
          ¬env.models.Short generator numSamples := by
  have open_ : ¬conn.Guarded url := by
    rintro ⟨get, _⟩
    rw [post] at get
    exact absurd get (by decide)
  rw [← diagnoseRequest_returns_iff strict]
  simp only [doRequest, found, if_neg open_, afterLogin, if_pos (And.intro post target),
    diagnosePost, string]
  cases diagnoseRequest env.json env.models (conn.str body) with
  | error fault => simp
  | ok result => cases result <;> simp

end HttpConn

/-- A byte in a JSON string. -/
def jsonByte (byte : UInt8) : List UInt8 :=
  if byte = 34 ∨ byte = 92 then [92, byte]
  else if byte = 8 then ascii "\\b"
  else if byte = 9 then ascii "\\t"
  else if byte = 10 then ascii "\\n"
  else if byte = 12 then ascii "\\f"
  else if byte = 13 then ascii "\\r"
  else if byte < 32 then
    ascii "\\u00" ++ [48 + byte / 16, (ascii "0123456789abcdef").getD (byte % 16).toNat 48]
  else [byte]

/-- The message about a body that begins no JSON value. -/
def literalMessage (text : List UInt8) : List UInt8 :=
  ascii "[json.exception.parse_error.101] parse error at line 1, column 1: syntax error while " ++
    ascii "parsing value - invalid literal; last read: '" ++ text ++ ascii "'"

/-- A JSON library that parses no body, and quotes the body in its message. -/
def literalJson : Json where
  parse := fun text => .error (literalMessage text)
  dumpError := fun message =>
    if IsUtf8 message then
      .ok (ascii "\x7b\"message\":\"" ++ message.flatMap jsonByte ++
        ascii "\",\"status\":\"error\"\x7d")
    else
      .error (ascii "[json.exception.type_error.316] invalid UTF-8 byte")
  dumpError_nul := by
    intro message json dumped
    split at dumped
    case isTrue =>
        have each : ∀ value < 256, (0 : UInt8) ∉ jsonByte (UInt8.ofNat value) := by
          decide +kernel
        have clean : ∀ byte : UInt8, (0 : UInt8) ∉ jsonByte byte := by
          intro byte
          have inside := each byte.toNat byte.toNat_lt
          rwa [UInt8.ofNat_toNat] at inside
        have front : (0 : UInt8) ∉ ascii "\x7b\"message\":\"" := by decide
        have back : (0 : UInt8) ∉ ascii "\",\"status\":\"error\"\x7d" := by decide
        cases dumped
        simp only [List.mem_append, List.mem_flatMap, not_or]
        exact ⟨⟨front, fun ⟨byte, _, inside⟩ => clean byte inside⟩, back⟩
    case isFalse => contradiction

theorem literalJson_strict : literalJson.Strict := by
  intro message
  simp only [literalJson]
  split <;> simp_all

/-- An environment with this library. -/
def literalEnv : Env :=
  { Env.blank with json := literalJson }

/-- A request for a diagnosis with a body. -/
def diagnosisSlot (body : List UInt8) : HttpConn :=
  { HttpConn.blank with
    readBuf := Memory.store (fun _ => 0) 0 (ascii "/diagnose" ++ 0 :: body)
    url := some 0
    cgi := 1
    string := some 10 }

namespace HttpConn

/-- A body that is not JSON, in ASCII. -/
theorem diagnosis_returns_ascii :
    ∃ reply, (diagnosisSlot (ascii "x")).doRequest literalEnv = .ok reply := by
  have body : (diagnosisSlot (ascii "x")).str 10 = ascii "x" := by decide +kernel
  refine (@diagnosis_returns_iff _ literalEnv 0 10 literalJson_strict rfl rfl
    (by decide +kernel) rfl).mpr ⟨fun what throws => ?_, fun generator numSamples picks => ?_⟩
  · have thrown : Throws literalEnv.json literalEnv.models
        ((diagnosisSlot (ascii "x")).str 10)
          (literalMessage ((diagnosisSlot (ascii "x")).str 10)) :=
      .parse rfl
    have same := (diagnose_of_throws throws).symm.trans (diagnose_of_throws thrown)
    rw [Except.error.injEq, Thrown.exception.injEq] at same
    rw [same, body]
    decide +kernel
  · obtain ⟨_, parsed, _⟩ := picks
    have rejected : literalEnv.json.parse ((diagnosisSlot (ascii "x")).str 10) =
      .error (literalMessage ((diagnosisSlot (ascii "x")).str 10)) := rfl
    rw [rejected] at parsed
    exact absurd parsed (by simp)

/-- The message for a body that is not UTF-8 is thrown back by its handler. -/
theorem not_diagnosis_returns :
    (diagnosisSlot [255]).doRequest literalEnv = .error .uncaughtException := by
  have body : (diagnosisSlot [255]).str 10 = [255] := by decide +kernel
  have target : (diagnosisSlot [255]).str 0 = ascii "/diagnose" := by decide +kernel
  have found : (diagnosisSlot [255]).url = some 0 := rfl
  have open_ : ¬(diagnosisSlot [255]).Guarded 0 := by
    rintro ⟨get, _⟩
    exact absurd get (by decide)
  have thrown : diagnoseRequest literalEnv.json literalEnv.models [255] =
      .error .uncaughtException := by
    simp only [diagnoseRequest, diagnose, literalEnv, literalJson, catchDiagnose]
    rw [if_neg (by decide +kernel)]
  simp only [doRequest, found, if_neg open_, afterLogin,
    if_pos (show (diagnosisSlot [255]).cgi = 1 ∧ _ from ⟨rfl, target⟩), diagnosePost,
    show (diagnosisSlot [255]).string = some 10 from rfl, body, thrown]

end HttpConn

end TimeGANWebServer.Http
