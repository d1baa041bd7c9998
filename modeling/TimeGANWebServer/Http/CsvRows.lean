import TimeGANWebServer.Http.Exceptions
import TimeGANWebServer.Support.Pieces

/-!
# Rows of an uploaded file

The loop over the lines of `csv_data` in `do_request`, for a `std::stof` that converts the longest
numeric prefix of a cell.  A strict reading of the file, whose fields are numbers as a whole, is
compared with the loose one of the loop.
-/

namespace TimeGANWebServer.Http

open TimeGANWebServer.Support

/-- The numeric literals and their values.  A literal is not empty, and has no white space. -/
structure Numerals where
  accepts : List UInt8 → Bool
  value : List UInt8 → UInt32
  nonempty : accepts [] = false
  noSpace : ∀ literal, accepts literal = true → ∀ byte ∈ literal, isspace byte = false

/-- `std::stof` converts the longest numeric prefix behind white space, and throws if there is
none. -/
def Models.Converts (models : Models) (numerals : Numerals) : Prop :=
  ∀ text, models.stof text =
    match longestPrefix numerals.accepts (text.dropWhile isspace) with
    | some literal => .ok (numerals.value literal)
    | none => .error (ascii "stof")

/-- A field without the white space around it. -/
def trimmed (field : List UInt8) : List UInt8 :=
  (field.dropWhile isspace).rdropWhile isspace

/-- The lines of a file that are not empty. -/
def nonemptyLines (content : List UInt8) : List (List UInt8) :=
  (content.splitOnP (· == 10)).filter (· ≠ [])

/-- The fields of a line, between commas. -/
def fields (line : List UInt8) : List (List UInt8) :=
  line.splitOnP (· == 44)

namespace Numerals

variable (numerals : Numerals)

/-- A line consists of three numbers. -/
def IsRow (line : List UInt8) : Prop :=
  (fields line).length = 3 ∧ ∀ field ∈ fields line, numerals.accepts (trimmed field) = true

/-- The values of a line. -/
def row (line : List UInt8) : List UInt32 :=
  (fields line).map fun field => numerals.value (trimmed field)

/-- A file has rows of three numbers only, and enough of them for a sample. -/
def WellFormed (content : List UInt8) : Prop :=
  (∀ line ∈ nonemptyLines content, numerals.IsRow line) ∧ 64 ≤ (nonemptyLines content).length

/-- A line is read as three cells, without an empty one behind a last comma, and each of them
begins with a number. -/
def IsLooseRow (line : List UInt8) : Prop :=
  (getlines 44 line).length = 3 ∧ ∀ cell ∈ getlines 44 line,
    ∃ literal, literal <+: cell.dropWhile isspace ∧ numerals.accepts literal = true

/-- A file has such lines only, and enough of them for a sample. -/
def LooselyFormed (content : List UInt8) : Prop :=
  (∀ line ∈ nonemptyLines content, numerals.IsLooseRow line) ∧
    64 ≤ (nonemptyLines content).length

end Numerals

/-- The answer that a prediction from some sample leads to: the classifier is run on the sample, and
the generator of its class for the samples asked for. -/
def Models.prediction (models : Models) (json : Json) (sample : List UInt32) (numSamples : Int) :
    Except Fault DiagnoseResult :=
  match models.classify sample with
  | .error what => catchDiagnose json what
  | .ok classProbs =>
      match models.generateCsv (predClass classProbs) noGeneratorMessage numSamples with
      | .error (.fault fault) => .error fault
      | .error (.exception what) => catchDiagnose json what
      | .ok (.csv bytes) => .ok (.csv bytes)
      | .ok (.error message) =>
          match json.dumpError message with
          | .ok bytes => .ok (.json bytes)
          | .error what => catchDiagnose json what

/-- Every request that uploads the file is answered with the prediction from some sample, whatever
the models are that are run on it. -/
def Models.PredictsFrom (models : Models) (content : List UInt8) (sample : List UInt32) : Prop :=
  ∀ (json : Json) (text : List UInt8) (body : DiagnoseBody) (numSamples : Int),
    json.parse text = .ok body → body.csvData = some (.ok content) →
      body.numSamples = .ok numSamples → ∀ other : Models, other.stof = models.stof →
        diagnoseRequest json other text = other.prediction json sample numSamples

/-- The loop comes to some samples, and the prediction is reached with the first of them. -/
def Models.Reaches (models : Models) (content : List UInt8) (samples : List (List UInt32)) : Prop :=
  models.parseSamples (getlines 10 content) [] 0 [] = .ok (some samples) ∧
    ∃ firstSample later, samples = firstSample :: later ∧ models.PredictsFrom content firstSample

/-- The prediction is reached exactly if the file is well-formed, with the values of its complete
samples; otherwise the answer is an error message that no model has a part in. -/
structure CsvLaw (numerals : Numerals) (models : Models) (content : List UInt8) : Prop where
  reached : (∃ samples, models.Reaches content samples) ↔ numerals.WellFormed content
  samples : ∀ samples, models.Reaches content samples →
    samples.length = (nonemptyLines content).length / 64 ∧
      (∀ sample ∈ samples, sample.length = 192) ∧
      samples.flatten =
        ((nonemptyLines content).take (64 * ((nonemptyLines content).length / 64))).flatMap
          numerals.row
  rejected : (¬∃ samples, models.Reaches content samples) →
    ∀ (json : Json) (text : List UInt8) (body : DiagnoseBody) (numSamples : Int), json.Strict →
      json.parse text = .ok body → body.csvData = some (.ok content) →
        body.numSamples = .ok numSamples →
          ∃ bytes, ∀ other : Models, other.stof = models.stof →
            diagnoseRequest json other text = .ok (.json bytes)

/-! ## The loop over the lines -/

/-- The values of the cells of a line, if they can be converted. -/
def Models.rowValues (models : Models) (line : List UInt8) : List UInt32 :=
  ((getlines 44 line).mapM models.stof).toOption.getD []

/-- The cells of a line are converted to three values. -/
def Models.IsRow (models : Models) (line : List UInt8) : Prop :=
  (getlines 44 line).mapM models.stof = .ok (models.rowValues line) ∧
    (models.rowValues line).length = 3

section

variable {Error Cell Value : Type} {convert : Cell → Except Error Value}

theorem mapM_cons_ok {cell : Cell} {cells : List Cell} {values : List Value} :
    (cell :: cells).mapM convert = .ok values ↔
      ∃ value rest, convert cell = .ok value ∧ cells.mapM convert = .ok rest ∧
        values = value :: rest := by
  rw [List.mapM_cons]
  cases convert cell with
  | error what => simp [bind, Except.bind]
  | ok value =>
      cases cells.mapM convert with
      | error what => simp [bind, Except.bind]
      | ok rest => simp [bind, Except.bind, pure, Except.pure, eq_comm]

/-- The conversion of a list ends with values exactly if each conversion does. -/
theorem mapM_ok_iff (cells : List Cell) :
    (∃ values, cells.mapM convert = .ok values ∧ values.length = cells.length) ↔
      ∀ cell ∈ cells, ∃ value, convert cell = .ok value := by
  induction cells with
  | nil => exact ⟨fun _ => by simp, fun _ => ⟨[], rfl, rfl⟩⟩
  | cons cell cells ih =>
      rw [List.forall_mem_cons, ← ih]
      constructor
      · rintro ⟨values, converted, length⟩
        obtain ⟨value, rest, first, later, rfl⟩ := mapM_cons_ok.mp converted
        exact ⟨⟨value, first⟩, rest, later, Nat.succ.inj length⟩
      · rintro ⟨⟨value, first⟩, rest, later, length⟩
        exact ⟨value :: rest, mapM_cons_ok.mpr ⟨value, rest, first, later, rfl⟩,
          by rw [List.length_cons, length, List.length_cons]⟩

theorem length_of_mapM {cells : List Cell} {values : List Value}
    (converted : cells.mapM convert = .ok values) : values.length = cells.length := by
  induction cells generalizing values with
  | nil =>
      cases converted
      rfl
  | cons cell cells ih =>
      obtain ⟨value, rest, _, later, rfl⟩ := mapM_cons_ok.mp converted
      rw [List.length_cons, ih later, List.length_cons]

theorem mapM_error {cells : List Cell} {what : Error}
    (failed : cells.mapM convert = .error what) : ∃ cell ∈ cells, convert cell = .error what := by
  induction cells with
  | nil => contradiction
  | cons cell cells ih =>
      rw [List.mapM_cons] at failed
      cases first : convert cell with
      | error other =>
          rw [first] at failed
          cases failed
          exact ⟨cell, List.mem_cons_self, first⟩
      | ok value =>
          cases rest : cells.mapM convert with
          | error other =>
              rw [first, rest] at failed
              cases failed
              obtain ⟨later, member, thrown⟩ := ih rest
              exact ⟨later, List.mem_cons_of_mem _ member, thrown⟩
          | ok values =>
              rw [first, rest] at failed
              contradiction

theorem mapM_map {cells : List Cell} {value : Cell → Value}
    (each : ∀ cell ∈ cells, convert cell = .ok (value cell)) :
    cells.mapM convert = .ok (cells.map value) := by
  induction cells with
  | nil => rfl
  | cons cell cells ih =>
      rw [List.forall_mem_cons] at each
      exact mapM_cons_ok.mpr ⟨_, _, each.1, ih each.2, rfl⟩

end

namespace Models

variable {models : Models} {numerals : Numerals}

theorem isRow_of_mapM {line : List UInt8} {row : List UInt32}
    (cells : (getlines 44 line).mapM models.stof = .ok row) (three : row.length = 3) :
    models.IsRow line := by
  have values : models.rowValues line = row := by
    rw [rowValues, cells]
    rfl
  exact ⟨values ▸ cells, values ▸ three⟩

/-- Rows of three values are put together to blocks of 64. -/
theorem parseSamples_rows {lines : List (List UInt8)}
    (each : ∀ line ∈ lines.filter (· ≠ []), models.IsRow line) {currentSample : List UInt32}
    {rowCount : Nat} (samples : List (List UInt32)) (length : currentSample.length = 3 * rowCount)
    (below : rowCount < 64) :
    models.parseSamples lines currentSample rowCount samples =
      .ok (some (samples ++
        blocks 192 (currentSample ++ (lines.filter (· ≠ [])).flatMap models.rowValues))) := by
  induction lines generalizing currentSample rowCount samples with
  | nil =>
      have short : (currentSample ++ ([] : List UInt32)).length < 192 := by
        rw [List.append_nil]
        omega
      rw [parseSamples, List.filter_nil, List.flatMap_nil, blocks_of_lt short, List.append_nil]
  | cons line lines ih =>
      by_cases empty : line = []
      · rw [List.filter_cons_of_neg (by simpa using empty)] at each ⊢
        rw [parseSamples, if_pos empty]
        exact ih each samples length below
      · rw [List.filter_cons_of_pos (by simpa using empty)] at each ⊢
        obtain ⟨⟨cells, three⟩, rest⟩ := List.forall_mem_cons.mp each
        have joined : (currentSample ++ models.rowValues line).length = 3 * (rowCount + 1) := by
          rw [List.length_append, length, three]
          omega
        simp only [parseSamples, if_neg empty, cells, three, ne_eq, not_true, if_false]
        rw [List.flatMap_cons, ← List.append_assoc]
        by_cases full : rowCount + 1 = 64
        · rw [if_pos full, ih rest _ rfl (by decide), List.nil_append,
            blocks_append _ (by decide) (by rw [joined, full]), List.append_assoc]
          rfl
        · rw [if_neg full]
          exact ih rest samples joined (by omega)

/-- Where the loop comes to samples, every line is a row. -/
theorem rows_of_parseSamples {lines : List (List UInt8)} {currentSample : List UInt32}
    {rowCount : Nat} {samples result : List (List UInt32)}
    (done : models.parseSamples lines currentSample rowCount samples = .ok (some result)) :
    ∀ line ∈ lines.filter (· ≠ []), models.IsRow line := by
  induction lines generalizing currentSample rowCount samples with
  | nil => simp
  | cons line lines ih =>
      simp only [parseSamples] at done
      split at done
      case isTrue empty =>
          rw [List.filter_cons_of_neg (by simpa using empty)]
          exact ih done
      case isFalse nonempty =>
          rw [List.filter_cons_of_pos (by simpa using nonempty), List.forall_mem_cons]
          split at done
          · contradiction
          case _ row cells =>
              split at done
              · cases done
              case isFalse three =>
                  have first : models.IsRow line := isRow_of_mapM cells (not_not.mp three)
                  split at done
                  · exact ⟨first, ih done⟩
                  · exact ⟨first, ih done⟩

/-- The exceptions of the loop are those of `std::stof`. -/
theorem parseSamples_error {lines : List (List UInt8)} {currentSample : List UInt32}
    {rowCount : Nat} {samples : List (List UInt32)} {what : List UInt8}
    (thrown : models.parseSamples lines currentSample rowCount samples = .error what) :
    ∃ cell, models.stof cell = .error what := by
  induction lines generalizing currentSample rowCount samples with
  | nil => contradiction
  | cons line lines ih =>
      simp only [parseSamples] at thrown
      split at thrown
      · exact ih thrown
      · split at thrown
        case _ failed =>
            cases thrown
            obtain ⟨cell, _, thrown⟩ := mapM_error failed
            exact ⟨cell, thrown⟩
        · split at thrown
          · cases thrown
          · split at thrown
            · exact ih thrown
            · exact ih thrown

/-- The loop makes use of `std::stof` only. -/
theorem parseSamples_congr {other : Models} (same : other.stof = models.stof)
    (lines : List (List UInt8)) (currentSample : List UInt32) (rowCount : Nat)
    (samples : List (List UInt32)) :
    other.parseSamples lines currentSample rowCount samples =
      models.parseSamples lines currentSample rowCount samples := by
  induction lines generalizing currentSample rowCount samples with
  | nil => rfl
  | cons line lines ih => simp only [parseSamples, same, ih]

/-- A row is what the loose reading accepts. -/
theorem isRow_iff_loose (converts : models.Converts numerals) (line : List UInt8) :
    models.IsRow line ↔ numerals.IsLooseRow line := by
  have cell : ∀ cell, (∃ value, models.stof cell = .ok value) ↔
      ∃ literal, literal <+: cell.dropWhile isspace ∧ numerals.accepts literal = true := by
    intro cell
    rw [← longestPrefix_isSome_iff, converts cell]
    cases longestPrefix numerals.accepts (cell.dropWhile isspace) <;> simp
  have each : (∀ field ∈ getlines 44 line, ∃ value, models.stof field = .ok value) ↔
      ∀ field ∈ getlines 44 line, ∃ literal, literal <+: field.dropWhile isspace ∧
        numerals.accepts literal = true :=
    forall₂_congr fun field _ => cell field
  rw [Numerals.IsLooseRow, ← each, ← mapM_ok_iff]
  constructor
  · rintro ⟨cells, three⟩
    have length := length_of_mapM cells
    exact ⟨length ▸ three, models.rowValues line, cells, length⟩
  · rintro ⟨three, row, cells, length⟩
    exact isRow_of_mapM cells (length.trans three)

/-- A number as a whole is converted to its value. -/
theorem stof_of_accepts (converts : models.Converts numerals) {field : List UInt8}
    (number : numerals.accepts (trimmed field) = true) :
    models.stof field = .ok (numerals.value (trimmed field)) := by
  have split : trimmed field ++ (field.dropWhile isspace).rtakeWhile isspace =
      field.dropWhile isspace :=
    List.rdropWhile_append_rtakeWhile ..
  have longest : longestPrefix numerals.accepts (field.dropWhile isspace) =
      some (trimmed field) := by
    rw [← split]
    refine longestPrefix_eq number fun other inside accepted => ?_
    obtain ⟨behind, same⟩ := inside
    rcases List.append_eq_append_iff.mp same with ⟨more, whole, _⟩ | ⟨more, whole, back⟩
    · rw [whole, List.length_append]
      omega
    · -- What goes beyond the field is white space, which no literal has.
      cases more with
      | nil => rw [whole, List.append_nil]
      | cons byte more =>
          have inBack : byte ∈ (field.dropWhile isspace).rtakeWhile isspace := by
            rw [back]
            simp
          have space : isspace byte = true := List.mem_rtakeWhile_imp inBack
          have notSpace := numerals.noSpace other accepted byte (by rw [whole]; simp)
          rw [space] at notSpace
          contradiction
  rw [converts field, longest]

/-- The loose reading of a row of numbers is the strict one. -/
theorem rowValues_of_isRow (converts : models.Converts numerals) {line : List UInt8}
    (isRow : numerals.IsRow line) :
    models.IsRow line ∧ models.rowValues line = numerals.row line := by
  obtain ⟨three, numbers⟩ := isRow
  have whole : getlines 44 line = fields line := by
    refine if_neg fun empty => ?_
    have last := numbers [] (List.mem_of_getLast? empty)
    have blank : trimmed [] = [] := rfl
    rw [blank, numerals.nonempty] at last
    contradiction
  have cells : (getlines 44 line).mapM models.stof = .ok (numerals.row line) := by
    rw [whole]
    exact mapM_map fun field member => stof_of_accepts converts (numbers field member)
  have length : (numerals.row line).length = 3 := by rw [Numerals.row, List.length_map, three]
  refine ⟨isRow_of_mapM cells length, ?_⟩
  rw [rowValues, cells]
  rfl

/-- The empty line behind a last line feed is skipped like any other. -/
theorem filter_getlines (content : List UInt8) :
    (getlines 10 content).filter (· ≠ []) = nonemptyLines content := by
  simp only [getlines, nonemptyLines]
  split
  case isTrue last =>
      obtain ⟨front, split⟩ := List.getLast?_eq_some_iff.mp last
      rw [split, List.dropLast_concat, List.filter_append]
      simp
  case isFalse => rfl

/-- The samples of a file that is read as rows. -/
theorem parseSamples_of_rows {content : List UInt8}
    (each : ∀ line ∈ nonemptyLines content, models.IsRow line) :
    models.parseSamples (getlines 10 content) [] 0 [] =
      .ok (some (blocks 192 ((nonemptyLines content).flatMap models.rowValues))) := by
  rw [← filter_getlines] at each ⊢
  have done := @parseSamples_rows models _ each [] 0 [] rfl (by decide)
  rwa [List.nil_append, List.nil_append] at done

/-- There are three values for each line. -/
theorem length_rows {lines : List (List UInt8)} (each : ∀ line ∈ lines, models.IsRow line) :
    (lines.flatMap models.rowValues).length = 3 * lines.length := by
  induction lines with
  | nil => rfl
  | cons line lines ih =>
      obtain ⟨first, rest⟩ := List.forall_mem_cons.mp each
      rw [List.flatMap_cons, List.length_append, first.2, ih rest, List.length_cons]
      omega

/-- The first values are those of the first lines. -/
theorem take_rows {lines : List (List UInt8)} (each : ∀ line ∈ lines, models.IsRow line)
    (count : Nat) :
    (lines.flatMap models.rowValues).take (3 * count) =
      (lines.take count).flatMap models.rowValues := by
  induction lines generalizing count with
  | nil => simp
  | cons line lines ih =>
      obtain ⟨first, rest⟩ := List.forall_mem_cons.mp each
      cases count with
      | zero => simp
      | succ count =>
          have behind : 3 * (count + 1) - 3 = 3 * count := by omega
          rw [List.flatMap_cons, List.take_succ_cons, List.flatMap_cons, ← ih rest count,
            List.take_append, List.take_of_length_le (by rw [first.2]; omega), first.2, behind]

/-- The first sample that the loop comes to is classified, and its class picks the generator. -/
theorem predictsFrom_of_parseSamples {content : List UInt8} {firstSample : List UInt32}
    {later : List (List UInt32)}
    (rows : models.parseSamples (getlines 10 content) [] 0 [] = .ok (some (firstSample :: later))) :
    models.PredictsFrom content firstSample := by
  intro json text body numSamples parsed upload count other stof
  rw [← parseSamples_congr stof] at rows
  simp only [diagnoseRequest, diagnose, parsed, upload, count, diagnoseUpload, rows, prediction]
  cases other.classify firstSample with
  | error what => rfl
  | ok classProbs => rfl

theorem reaches_of_parseSamples {content : List UInt8} {samples : List (List UInt32)}
    (rows : models.parseSamples (getlines 10 content) [] 0 [] = .ok (some samples))
    (nonempty : samples ≠ []) : models.Reaches content samples := by
  obtain ⟨firstSample, later, rfl⟩ := List.exists_cons_of_ne_nil nonempty
  exact ⟨rows, firstSample, later, rfl, predictsFrom_of_parseSamples rows⟩

/-- The prediction is reached exactly for a file in which the loose reading finds rows. -/
theorem reaches_iff (converts : models.Converts numerals) (content : List UInt8) :
    (∃ samples, models.Reaches content samples) ↔ numerals.LooselyFormed content := by
  have loose : (∀ line ∈ nonemptyLines content, models.IsRow line) ↔
      ∀ line ∈ nonemptyLines content, numerals.IsLooseRow line :=
    forall₂_congr fun line _ => isRow_iff_loose converts line
  rw [Numerals.LooselyFormed, ← loose]
  constructor
  · rintro ⟨samples, done, firstSample, later, nonempty, _⟩
    have each := rows_of_parseSamples done
    rw [filter_getlines] at each
    rw [parseSamples_of_rows each, Except.ok.injEq, Option.some.injEq] at done
    refine ⟨each, ?_⟩
    by_contra few
    have short : ((nonemptyLines content).flatMap models.rowValues).length < 192 := by
      rw [length_rows each]
      omega
    rw [nonempty, blocks_of_lt short] at done
    contradiction
  · rintro ⟨each, enough⟩
    refine ⟨_, reaches_of_parseSamples (parseSamples_of_rows each) fun empty => ?_⟩
    have count := congrArg List.length empty
    rw [length_blocks, length_rows each, List.length_nil, Nat.div_eq_zero_iff] at count
    omega

end Models

/-- A file that is not read as rows is answered with an error, whatever the models are. -/
theorem diagnoseRequest_rejected {json : Json} {models : Models} {text content : List UInt8}
    {body : DiagnoseBody} {numSamples : Int} (strict : json.Strict)
    (parsed : json.parse text = .ok body) (upload : body.csvData = some (.ok content))
    (count : body.numSamples = .ok numSamples)
    {numerals : Numerals} (converts : models.Converts numerals)
    (missed : ¬∃ samples, models.Reaches content samples) :
    ∃ bytes, ∀ other : Models, other.stof = models.stof →
      diagnoseRequest json other text = .ok (.json bytes) := by
  have same : ∀ other : Models, other.stof = models.stof →
      other.parseSamples (getlines 10 content) [] 0 [] =
        models.parseSamples (getlines 10 content) [] 0 [] :=
    fun other stof => Models.parseSamples_congr stof _ _ _ _
  cases rows : models.parseSamples (getlines 10 content) [] 0 [] with
  | error what =>
      obtain ⟨cell, thrown⟩ := Models.parseSamples_error rows
      have message : what = ascii "stof" := by
        rw [converts cell] at thrown
        split at thrown
        · contradiction
        · cases thrown
          rfl
      have valid : IsUtf8 what := by
        rw [message]
        decide +kernel
      obtain ⟨bytes, dumped⟩ := (strict what).mpr valid
      refine ⟨bytes, fun other stof => ?_⟩
      simp only [diagnoseRequest, diagnose, parsed, upload, count, Models.diagnoseUpload,
        same other stof, rows, catchDiagnose, dumped]
  | ok found =>
      cases found with
      | none =>
          obtain ⟨bytes, dumped⟩ := (strict badRowMessage).mpr (Known.isUtf8 (.inl rfl))
          refine ⟨bytes, fun other stof => ?_⟩
          simp only [diagnoseRequest, diagnose, parsed, upload, count, Models.diagnoseUpload,
            same other stof, rows, dumped]
      | some samples =>
          cases samples with
          | nil =>
              obtain ⟨bytes, dumped⟩ :=
                (strict noSampleMessage).mpr (Known.isUtf8 (.inr (.inl rfl)))
              refine ⟨bytes, fun other stof => ?_⟩
              simp only [diagnoseRequest, diagnose, parsed, upload, count, Models.diagnoseUpload,
                same other stof, rows, dumped]
          | cons first samples =>
              exact absurd ⟨_, Models.reaches_of_parseSamples rows (List.cons_ne_nil _ _)⟩ missed

/-- The law holds exactly for the files of which the loose reading accepts no more than the strict
one. -/
theorem csvLaw_iff {models : Models} {numerals : Numerals} (converts : models.Converts numerals)
    (content : List UInt8) :
    CsvLaw numerals models content ↔
      (numerals.LooselyFormed content → numerals.WellFormed content) := by
  have reaches := Models.reaches_iff converts content
  constructor
  · intro law loose
    exact law.reached.mp (reaches.mpr loose)
  · intro strict
    have each : ∀ line ∈ nonemptyLines content, numerals.IsRow line →
        models.IsRow line ∧ models.rowValues line = numerals.row line :=
      fun line _ isRow => Models.rowValues_of_isRow converts isRow
    constructor
    · rw [reaches]
      refine ⟨strict, fun wellFormed => ⟨fun line member => ?_, wellFormed.2⟩⟩
      exact (Models.isRow_iff_loose converts line).mp
        (each line member (wellFormed.1 line member)).1
    · intro samples reached
      obtain ⟨rows, _⟩ := strict (reaches.mp ⟨samples, reached⟩)
      have done := reached.1
      have isRow : ∀ line ∈ nonemptyLines content, models.IsRow line :=
        fun line member => (each line member (rows line member)).1
      have length := Models.length_rows isRow
      have count : ((nonemptyLines content).flatMap models.rowValues).length / 192 =
          (nonemptyLines content).length / 64 := by
        rw [length]
        omega
      rw [Models.parseSamples_of_rows isRow, Except.ok.injEq, Option.some.injEq] at done
      subst done
      refine ⟨by rw [length_blocks, count], fun sample => length_of_mem_blocks, ?_⟩
      have values : 192 * ((nonemptyLines content).length / 64) =
          3 * (64 * ((nonemptyLines content).length / 64)) := by
        omega
      rw [flatten_blocks (by decide), count, values, Models.take_rows isRow]
      refine List.flatMap_congr fun line member => ?_
      exact (each line (List.mem_of_mem_take member) (rows line (List.mem_of_mem_take member))).2
    · intro missed json text body numSamples jsonStrict parsed upload number
      exact diagnoseRequest_rejected jsonStrict parsed upload number converts missed

/-- The literals that are digits only, with the values of three of them. -/
def digitNumerals : Numerals where
  accepts := fun text => text ≠ [] ∧ text.all isdigit
  value := fun text =>
    if text = ascii "1" then 0x3f800000
    else if text = ascii "2" then 0x40000000
    else if text = ascii "3" then 0x40400000
    else 0
  nonempty := by decide
  noSpace := by
    intro literal accepted byte member
    have digit := List.all_eq_true.mp (of_decide_eq_true accepted).2 byte member
    have each : ∀ value < 256, isdigit (UInt8.ofNat value) = true →
        isspace (UInt8.ofNat value) = false := by
      decide +kernel
    have notSpace := each byte.toNat byte.toNat_lt
    rw [UInt8.ofNat_toNat] at notSpace
    exact notSpace digit

/-- Models with a `std::stof` for these literals. -/
def digitModels : Models :=
  { Env.blank.models with
    stof := fun text =>
      match longestPrefix digitNumerals.accepts (text.dropWhile isspace) with
      | some literal => .ok (digitNumerals.value literal)
      | none => .error (ascii "stof") }

/-- A file that has one line many times. -/
def repeated (line : List UInt8) (count : Nat) : List UInt8 :=
  (List.replicate count (line ++ ascii "\n")).flatten

/-- A file with 64 rows of numbers. -/
theorem csvLaw_rows : CsvLaw digitNumerals digitModels (repeated (ascii "1, 2,3\r") 64) :=
  (csvLaw_iff (fun _ => rfl) _).mpr fun _ => by
    refine ⟨?_, by decide +kernel⟩
    have rows : ∀ line ∈ nonemptyLines (repeated (ascii "1, 2,3\r") 64),
        (fields line).length = 3 ∧ ∀ field ∈ fields line,
          digitNumerals.accepts (trimmed field) = true := by
      decide +kernel
    exact rows

/-- A file whose rows have a letter behind a number is predicted from. -/
theorem not_csvLaw : ¬CsvLaw digitNumerals digitModels (repeated (ascii "1,2,3x") 64) := by
  intro law
  have facts : ((digitModels.parseSamples (getlines 10 (repeated (ascii "1,2,3x") 64)) [] 0 []).map
      fun found => found.map List.length) = .ok (some 1) := by
    decide +kernel
  have reached : ∃ samples, digitModels.Reaches (repeated (ascii "1,2,3x") 64) samples := by
    cases rows : digitModels.parseSamples (getlines 10 (repeated (ascii "1,2,3x") 64)) [] 0 [] with
    | error what =>
        rw [rows] at facts
        contradiction
    | ok found =>
        rw [rows, Except.map, Except.ok.injEq, Option.map_eq_some_iff] at facts
        obtain ⟨samples, rfl, one⟩ := facts
        refine ⟨samples, Models.reaches_of_parseSamples rows ?_⟩
        rintro rfl
        contradiction
  have bad : ascii "1,2,3x" ∈ nonemptyLines (repeated (ascii "1,2,3x") 64) := by decide +kernel
  have number := ((law.reached.mp reached).1 _ bad).2 (ascii "3x") (by decide +kernel)
  exact absurd number (by decide)

end TimeGANWebServer.Http
