import TimeGANWebServer.Http.Conn

/-!
# Diagnosis

The branch of `do_request` for `POST /diagnose` in `http/http_conn.cpp`: parse the
body as JSON, pick a generator by classifying the first uploaded sample, generate
samples and print them.  The JSON library, the models, the random noise and the
conversions of floating-point numbers are parameters; a `float` is its bit pattern.
-/

namespace TimeGANWebServer.Http

open TimeGANWebServer.Support

/-- The bytes of a text. -/
def utf8 (text : String) : List UInt8 :=
  text.toUTF8.toList

/-- How an evaluation is left: with an exception and its `what()`, or by undefined
behavior. -/
inductive Thrown where
  | exception (what : List UInt8)
  | fault (fault : Fault)

/-- What `do_request` reads of a parsed body: the text of `csv_data`, if the object
has that key, and the value of `num_samples`, which is 1 where the key is missing.
Either access throws where the value has another type. -/
structure DiagnoseBody where
  csvData : Option (Except (List UInt8) (List UInt8))
  numSamples : Except (List UInt8) Int

/-- The JSON library: parse a body, and print the object with the members `status`
(which is `"error"`) and `message`.  Printed JSON contains no NUL. -/
structure Json where
  parse : List UInt8 → Except (List UInt8) DiagnoseBody
  dumpError : List UInt8 → Except (List UInt8) (List UInt8)
  dumpError_nul : ∀ message json, dumpError message = .ok json → (0 : UInt8) ∉ json

/-- The models and the conversions of numbers: `predict` of the classifier and of a
generator, which generators are loaded, the noise drawn for a sample, `std::stof`, and
the output of a number to a stream. -/
structure Models where
  classify : List UInt32 → Except (List UInt8) (List UInt32)
  loaded : Nat → Bool
  generate : Nat → List UInt32 → Except (List UInt8) (List UInt32)
  noise : Nat → List UInt32
  stof : List UInt8 → Except (List UInt8) UInt32
  putFloat : UInt32 → List UInt8

/-- The lines `std::getline` reads: nothing follows a last delimiter. -/
def getlines (delim : UInt8) (text : List UInt8) : List (List UInt8) :=
  let pieces := text.splitOnP (· == delim)
  if pieces.getLast? = some [] then pieces.dropLast else pieces

/-- `left < right` for numbers of type `float`. -/
def floatLess (left right : UInt32) : Bool :=
  let isNan (value : UInt32) := 0x7f800000 < (value &&& 0x7fffffff)
  let key (value : UInt32) : Int :=
    if value < 0x80000000 then value.toNat else -(value &&& 0x7fffffff).toNat
  !isNan left && !isNan right && key left < key right

/-- `std::max_element`, as the index of the first largest value; 0 if there is none. -/
def maxElement : List UInt32 → Nat
  | [] => 0
  | first :: values =>
      (values.foldl
        (fun (state : Nat × Nat × UInt32) value =>
          let (next, best, largest) := state
          if floatLess largest value then (next + 1, next, value) else (next + 1, best, largest))
        (1, 0, first)).2.1

/-- The generator for the classifier's output. -/
def predClass (classProbs : List UInt32) : Nat :=
  if 8 ≤ maxElement classProbs then 0 else maxElement classProbs

/-- `num_samples`, at least 1. -/
def sampleCount (numSamples : Int) : Nat :=
  if numSamples ≤ 0 then 1 else numSamples.toNat

/-- The message for a row that has not three numbers. -/
def badRowMessage : List UInt8 := utf8 "CSV 每行应为 3 个数值"

/-- The message for too few rows. -/
def noSampleMessage : List UInt8 := utf8 "CSV 中没有完整样本（至少需要64行）"

/-- The message for a missing generator. -/
def noGeneratorMessage : List UInt8 := utf8 "未找到对应生成模型"

/-- The message for a missing default generator. -/
def noDefaultMessage : List UInt8 := utf8 "默认生成模型未加载"

/-- What the branch answers: an error message, or generated CSV. -/
inductive DiagnoseReply where
  | error (message : List UInt8)
  | csv (bytes : List UInt8)

namespace Models

/-- The loop over the lines of the uploaded file: 64 rows of three numbers make a
sample.  `none` for a row of another length. -/
def parseSamples (models : Models) : List (List UInt8) → List UInt32 → Nat →
    List (List UInt32) → Except (List UInt8) (Option (List (List UInt32)))
  | [], _, _, samples => .ok (some samples)
  | line :: lines, currentSample, rowCount, samples =>
      if line = [] then
        models.parseSamples lines currentSample rowCount samples
      else
        match (getlines 44 line).mapM models.stof with
        | .error what => .error what
        | .ok row =>
            if row.length ≠ 3 then
              .ok none
            else if rowCount + 1 = 64 then
              models.parseSamples lines [] 0 (samples ++ [currentSample ++ row])
            else
              models.parseSamples lines (currentSample ++ row) (rowCount + 1) samples

/-- The loop that generates samples, from a first one on. -/
def generateAll (models : Models) (generator : Nat) :
    Nat → Nat → Except (List UInt8) (List (List UInt32))
  | _, 0 => .ok []
  | sample, left + 1 =>
      match models.generate generator (models.noise sample) with
      | .error what => .error what
      | .ok result =>
          match models.generateAll generator (sample + 1) left with
          | .error what => .error what
          | .ok results => .ok (result :: results)

/-- Print a row of a sample. -/
def putRow (models : Models) (sample : List UInt32) (row : Nat) : List UInt8 :=
  models.putFloat (sample.getD (row * 3) 0) ++ ascii "," ++
    models.putFloat (sample.getD (row * 3 + 1) 0) ++ ascii "," ++
    models.putFloat (sample.getD (row * 3 + 2) 0) ++ ascii "\n"

/-- Print the 64 rows of each sample.  A sample with fewer values is read out of
bounds. -/
def putSamples (models : Models) (samples : List (List UInt32)) : Except Thrown (List UInt8) :=
  if samples.all fun sample => 192 ≤ sample.length then
    .ok (samples.flatMap fun sample => (List.range 64).flatMap (models.putRow sample))
  else
    .error (.fault .bufferOverflow)

/-- Generate with a generator and print, or report that it is missing. -/
def generateCsv (models : Models) (generator : Nat) (missing : List UInt8) (numSamples : Int) :
    Except Thrown DiagnoseReply :=
  if models.loaded generator then
    match models.generateAll generator 0 (sampleCount numSamples) with
    | .error what => .error (.exception what)
    | .ok samples =>
        match models.putSamples samples with
        | .error thrown => .error thrown
        | .ok bytes => .ok (.csv bytes)
  else
    .ok (.error missing)

/-- The branch for an uploaded file. -/
def diagnoseUpload (models : Models) (content : List UInt8) (numSamples : Int) :
    Except Thrown DiagnoseReply :=
  match models.parseSamples (getlines 10 content) [] 0 [] with
  | .error what => .error (.exception what)
  | .ok none => .ok (.error badRowMessage)
  | .ok (some []) => .ok (.error noSampleMessage)
  | .ok (some (firstSample :: _)) =>
      match models.classify firstSample with
      | .error what => .error (.exception what)
      | .ok classProbs =>
          models.generateCsv (predClass classProbs) noGeneratorMessage numSamples

end Models

/-- The `try` block of the branch, up to the printing of an error message. -/
def diagnose (json : Json) (models : Models) (text : List UInt8) :
    Except Thrown DiagnoseReply :=
  match json.parse text with
  | .error what => .error (.exception what)
  | .ok body =>
      match body.csvData with
      | some (.error what) => .error (.exception what)
      | some (.ok content) =>
          match body.numSamples with
          | .error what => .error (.exception what)
          | .ok numSamples => models.diagnoseUpload content numSamples
      | none =>
          match body.numSamples with
          | .error what => .error (.exception what)
          | .ok numSamples => models.generateCsv 0 noDefaultMessage numSamples

/-- What the branch returns with: the code and the new `m_response_json` or
`m_response_csv`. -/
inductive DiagnoseResult where
  | json (bytes : List UInt8)
  | csv (bytes : List UInt8)

/-- The `catch` block: print the message of the exception.  An exception thrown here
leaves the function. -/
def catchDiagnose (json : Json) (what : List UInt8) : Except Fault DiagnoseResult :=
  match json.dumpError what with
  | .ok bytes => .ok (.json bytes)
  | .error _ => .error .uncaughtException

/-- The branch of `do_request` for `POST /diagnose`, on the string at `m_string`. -/
def diagnoseRequest (json : Json) (models : Models) (text : List UInt8) :
    Except Fault DiagnoseResult :=
  match diagnose json models text with
  | .error (.fault fault) => .error fault
  | .error (.exception what) => catchDiagnose json what
  | .ok (.csv bytes) => .ok (.csv bytes)
  | .ok (.error message) =>
      match json.dumpError message with
      | .ok bytes => .ok (.json bytes)
      | .error what => catchDiagnose json what

/-! ## When a prediction is made -/

/-- A generator is loaded and yields all the samples asked for, each of full length. -/
def Models.Generates (models : Models) (generator : Nat) (numSamples : Int) : Prop :=
  models.loaded generator = true ∧
    ∀ sample < sampleCount numSamples, ∃ result,
      models.generate generator (models.noise sample) = .ok result ∧ 192 ≤ result.length

/-- An uploaded file has a first sample that can be classified, and the generator of
its class yields the samples. -/
def Models.AcceptsUpload (models : Models) (content : List UInt8) (numSamples : Int) : Prop :=
  ∃ firstSample samples classProbs,
    models.parseSamples (getlines 10 content) [] 0 [] = .ok (some (firstSample :: samples)) ∧
      models.classify firstSample = .ok classProbs ∧
      models.Generates (predClass classProbs) numSamples

/-- A body leads to a prediction: it is JSON with a usable number of samples, and
either uploads a usable file or none. -/
def Predicts (json : Json) (models : Models) (text : List UInt8) : Prop :=
  ∃ body numSamples, json.parse text = .ok body ∧ body.numSamples = .ok numSamples ∧
    (body.csvData = none ∧ models.Generates 0 numSamples ∨
      ∃ content, body.csvData = some (.ok content) ∧ models.AcceptsUpload content numSamples)

namespace Models

theorem generateAll_iff (models : Models) (generator sample left : Nat) :
    (∃ results, models.generateAll generator sample left = .ok results ∧
        ∀ result ∈ results, 192 ≤ result.length) ↔
      ∀ index < left, ∃ result,
        models.generate generator (models.noise (sample + index)) = .ok result ∧
          192 ≤ result.length := by
  induction left generalizing sample with
  | zero => exact ⟨fun _ => nofun, fun _ => ⟨[], rfl, nofun⟩⟩
  | succ left ih =>
      have later := ih (sample + 1)
      constructor
      · rintro ⟨results, generated, long⟩ index below
        simp only [generateAll] at generated
        split at generated
        · contradiction
        case _ result first =>
            split at generated
            · contradiction
            case _ rest following =>
                cases generated
                cases index with
                | zero => exact ⟨result, first, long result List.mem_cons_self⟩
                | succ index =>
                    have usable := later.mp
                      ⟨rest, following, fun other member =>
                        long other (List.mem_cons_of_mem _ member)⟩
                    have entry := usable index (by omega)
                    rwa [Nat.add_assoc, Nat.add_comm 1 index] at entry
      · intro usable
        obtain ⟨result, first, long⟩ := usable 0 (by omega)
        obtain ⟨rest, following, restLong⟩ := later.mpr fun index below => by
          have entry := usable (index + 1) (by omega)
          rwa [Nat.add_comm index 1, ← Nat.add_assoc] at entry
        rw [Nat.add_zero] at first
        refine ⟨result :: rest, by simp only [generateAll, first, following], ?_⟩
        intro other member
        rcases List.mem_cons.mp member with rfl | member
        · exact long
        · exact restLong other member

theorem generateCsv_iff (models : Models) (generator : Nat) (missing : List UInt8)
    (numSamples : Int) :
    (∃ bytes, models.generateCsv generator missing numSamples = .ok (.csv bytes)) ↔
      models.Generates generator numSamples := by
  have all := models.generateAll_iff generator 0 (sampleCount numSamples)
  simp only [Nat.zero_add] at all
  rw [Generates, ← all]
  simp only [generateCsv]
  by_cases loaded : models.loaded generator
  · simp only [loaded, if_true, true_and]
    cases generated : models.generateAll generator 0 (sampleCount numSamples) with
    | error what => simp
    | ok samples =>
        by_cases long : (samples.all fun sample => 192 ≤ sample.length) = true
        · simp only [putSamples, if_pos long]
          simpa using long
        · simp only [putSamples, if_neg long]
          simpa using long
  · simp [loaded]

theorem diagnoseUpload_iff (models : Models) (content : List UInt8) (numSamples : Int) :
    (∃ bytes, models.diagnoseUpload content numSamples = .ok (.csv bytes)) ↔
      models.AcceptsUpload content numSamples := by
  simp only [diagnoseUpload, AcceptsUpload]
  cases parsed : models.parseSamples (getlines 10 content) [] 0 [] with
  | error what => simp
  | ok found =>
      match found with
      | none => simp
      | some [] => simp
      | some (firstSample :: samples) =>
          cases classified : models.classify firstSample with
          | error what => simp [classified]
          | ok classProbs => simp [classified, generateCsv_iff]

end Models

theorem diagnose_csv_iff (json : Json) (models : Models) (text : List UInt8) :
    (∃ bytes, diagnose json models text = .ok (.csv bytes)) ↔ Predicts json models text := by
  simp only [diagnose, Predicts]
  cases parsed : json.parse text with
  | error what => simp
  | ok body =>
      cases data : body.csvData with
      | none =>
          cases number : body.numSamples with
          | error what => simp [data, number]
          | ok numSamples => simp [data, number, Models.generateCsv_iff]
      | some access =>
          cases access with
          | error what => simp [data]
          | ok content =>
              cases number : body.numSamples with
              | error what => simp [data, number]
              | ok numSamples => simp [data, number, Models.diagnoseUpload_iff]

/-- The branch answers with generated CSV exactly for the bodies that lead to a
prediction. -/
theorem diagnoseRequest_csv_iff (json : Json) (models : Models) (text : List UInt8) :
    (∃ bytes, diagnoseRequest json models text = .ok (.csv bytes)) ↔
      Predicts json models text := by
  have caught : ∀ what bytes, catchDiagnose json what ≠ .ok (.csv bytes) := by
    intro what bytes
    simp only [catchDiagnose]
    split <;> simp
  rw [← diagnose_csv_iff]
  simp only [diagnoseRequest]
  cases diagnose json models text with
  | error thrown => cases thrown <;> simp [caught]
  | ok reply =>
      cases reply with
      | csv bytes => simp
      | error message =>
          cases dumped : json.dumpError message with
          | ok bytes => simp [dumped]
          | error what => simp [dumped, caught]

/-- A JSON answer contains no NUL. -/
theorem diagnoseRequest_json_nul {json : Json} {models : Models} {text bytes : List UInt8}
    (answered : diagnoseRequest json models text = .ok (.json bytes)) : (0 : UInt8) ∉ bytes := by
  have caught : ∀ what, catchDiagnose json what = .ok (.json bytes) → (0 : UInt8) ∉ bytes := by
    intro what answered
    simp only [catchDiagnose] at answered
    split at answered
    case _ dumped =>
        cases answered
        exact json.dumpError_nul _ _ dumped
    case _ => contradiction
  simp only [diagnoseRequest] at answered
  split at answered
  · contradiction
  · exact caught _ answered
  · cases answered
  · split at answered
    case _ dumped =>
        cases answered
        exact json.dumpError_nul _ _ dumped
    case _ => exact caught _ answered

end TimeGANWebServer.Http
