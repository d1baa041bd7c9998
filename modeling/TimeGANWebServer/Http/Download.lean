import TimeGANWebServer.Http.CsvRows

/-!
# Uploading what was downloaded

The generated file that `do_request` answers with has the format of the file it takes: 64 rows of
three numbers for each sample.  Here such an answer is uploaded again.
-/

namespace TimeGANWebServer.Http

open TimeGANWebServer.Support

/-- The text a stream prints for a number: it is not empty, and has neither a comma nor a line
feed. -/
def Models.PrintsCells (models : Models) : Prop :=
  ∀ value, models.putFloat value ≠ [] ∧ (44 : UInt8) ∉ models.putFloat value ∧
    (10 : UInt8) ∉ models.putFloat value

/-- A number that has been read from its printed text is printed with the same text: six digits
survive the way through a `float`. -/
def Models.Stable (models : Models) : Prop :=
  ∀ value again, models.stof (models.putFloat value) = .ok again →
    models.putFloat again = models.putFloat value

/-- What is left of a number that is printed and read again. -/
def Models.reread (models : Models) (value : UInt32) : UInt32 :=
  (models.stof (models.putFloat value)).toOption.getD 0

/-- The printed text of a number is read without an exception. -/
def Models.Rereads (models : Models) (value : UInt32) : Prop :=
  ∃ again, models.stof (models.putFloat value) = .ok again

/-! ## Lines and cells -/

section

variable {delim : UInt8}

/-- Lines are split at the delimiters behind them. -/
theorem splitOnP_lines {lines : List (List UInt8)} (plain : ∀ line ∈ lines, delim ∉ line)
    {last : List UInt8} (lastPlain : delim ∉ last) :
    (lines.flatMap (· ++ [delim]) ++ last).splitOnP (· == delim) = lines ++ [last] := by
  have unequal : ∀ {line : List UInt8}, delim ∉ line → ∀ byte ∈ line, (byte == delim) = false := by
    intro line absent byte member
    exact beq_eq_false_iff_ne.mpr fun same => absent (same ▸ member)
  induction lines with
  | nil => exact List.splitOnP_eq_singleton (unequal lastPlain)
  | cons line lines ih =>
      obtain ⟨first, rest⟩ := List.forall_mem_cons.mp plain
      have split := List.splitOnP_append_cons_of_forall_mem (unequal first) delim
        (beq_self_eq_true delim) (lines.flatMap (· ++ [delim]) ++ last)
      rw [ih rest] at split
      simpa [List.flatMap_cons] using split

/-- The cells of a row with a last cell that is not empty. -/
theorem getlines_cells {first second third : List UInt8} (nonempty : third ≠ [])
    (firstPlain : delim ∉ first) (secondPlain : delim ∉ second) (thirdPlain : delim ∉ third) :
    getlines delim (first ++ [delim] ++ second ++ [delim] ++ third) = [first, second, third] := by
  have split := @splitOnP_lines delim [first, second] (by simp [firstPlain, secondPlain]) third
    thirdPlain
  simp only [List.flatMap_cons, List.flatMap_nil, List.append_nil, List.cons_append,
    List.nil_append, ← List.append_assoc] at split
  simp only [getlines, split]
  simp [nonempty]

end

namespace Models

variable {models : Models}

/-- A row of a sample without its end of line. -/
def rowText (models : Models) (sample : List UInt32) (row : Nat) : List UInt8 :=
  models.putFloat (sample.getD (row * 3) 0) ++ ascii "," ++
    models.putFloat (sample.getD (row * 3 + 1) 0) ++ ascii "," ++
    models.putFloat (sample.getD (row * 3 + 2) 0)

/-- The rows of a file. -/
def rowTexts (models : Models) (samples : List (List UInt32)) : List (List UInt8) :=
  samples.flatMap fun sample => (List.range 64).map (models.rowText sample)

theorem putSamples_rows (models : Models) (samples : List (List UInt32)) :
    (samples.flatMap fun sample => (List.range 64).flatMap (models.putRow sample)) =
      (models.rowTexts samples).flatMap (· ++ [10]) := by
  simp only [rowTexts, List.flatMap_assoc, List.flatMap_map]
  rfl

theorem getlines_rowText (prints : models.PrintsCells) (sample : List UInt32) (row : Nat) :
    getlines 44 (models.rowText sample row) =
      (List.range 3).map fun column => models.putFloat (sample.getD (row * 3 + column) 0) :=
  getlines_cells (prints _).1 (prints _).2.1 (prints _).2.1 (prints _).2.1

theorem rowText_plain (prints : models.PrintsCells) (sample : List UInt32) (row : Nat) :
    models.rowText sample row ≠ [] ∧ (10 : UInt8) ∉ models.rowText sample row := by
  have comma : (10 : UInt8) ∉ ascii "," := by decide
  refine ⟨?_, ?_⟩
  · simp [rowText, (prints _).1]
  · simp [rowText, (prints _).2.2, comma]

/-- The lines of the file that is printed are its rows. -/
theorem nonemptyLines_rowTexts (prints : models.PrintsCells) (samples : List (List UInt32)) :
    nonemptyLines ((models.rowTexts samples).flatMap (· ++ [10])) = models.rowTexts samples := by
  have each : ∀ line ∈ models.rowTexts samples, line ≠ [] ∧ (10 : UInt8) ∉ line := by
    intro line member
    simp only [rowTexts, List.mem_flatMap, List.mem_map] at member
    obtain ⟨sample, _, row, _, rfl⟩ := member
    exact rowText_plain prints sample row
  have split := splitOnP_lines (fun line member => (each line member).2)
    (List.not_mem_nil (a := 10))
  rw [List.append_nil] at split
  rw [nonemptyLines, split, List.filter_append, List.filter_eq_self.mpr]
  · simp
  · intro line member
    exact decide_eq_true (each line member).1

/-! ## Numbers -/

/-- A printed row is a row exactly if its numbers are read again. -/
theorem isRow_rowText_iff (prints : models.PrintsCells) (sample : List UInt32) (row : Nat) :
    models.IsRow (models.rowText sample row) ↔
      ∀ column < 3, models.Rereads (sample.getD (row * 3 + column) 0) := by
  have cells := @mapM_ok_iff _ _ _ models.stof (getlines 44 (models.rowText sample row))
  have three : (getlines 44 (models.rowText sample row)).length = 3 := by
    rw [getlines_rowText prints, List.length_map, List.length_range]
  rw [three, getlines_rowText prints, List.forall_mem_map] at cells
  simp only [List.mem_range] at cells
  rw [← getlines_rowText prints] at cells
  refine Iff.trans ⟨?_, ?_⟩ cells
  · rintro ⟨converted, length⟩
    exact ⟨_, converted, length⟩
  · rintro ⟨values, converted, length⟩
    exact isRow_of_mapM converted length

/-- The values of a printed row. -/
theorem rowValues_rowText (prints : models.PrintsCells) {sample : List UInt32} {row : Nat}
    (read : ∀ column < 3, models.Rereads (sample.getD (row * 3 + column) 0)) :
    models.rowValues (models.rowText sample row) =
      (List.range 3).map fun column => models.reread (sample.getD (row * 3 + column) 0) := by
  have converted := @mapM_map _ _ _ models.stof (getlines 44 (models.rowText sample row))
    (fun cell => (models.stof cell).toOption.getD 0) fun cell member => by
      rw [getlines_rowText prints, List.mem_map] at member
      obtain ⟨column, below, rfl⟩ := member
      obtain ⟨again, reads⟩ := read column (List.mem_range.mp below)
      rw [reads]
      rfl
  rw [rowValues, converted, getlines_rowText prints, List.map_map]
  rfl

/-- Rows of three values, one behind the other. -/
theorem flatMap_rows {Value : Type} (value : Nat → Value) (rows : Nat) :
    ((List.range rows).flatMap fun row => (List.range 3).map fun column =>
      value (row * 3 + column)) =
      (List.range (rows * 3)).map value := by
  induction rows with
  | zero => rfl
  | succ rows ih =>
      rw [List.range_succ (n := rows), List.flatMap_append, ih, Nat.succ_mul, List.range_add,
        List.map_append]
      simp [List.range_succ]

/-- The numbers of a sample that are printed, row by row. -/
theorem printed_rows {sample : List UInt32} (long : 192 ≤ sample.length) :
    sample.take 192 = (List.range 64).flatMap fun row =>
      (List.range 3).map fun column => sample.getD (row * 3 + column) 0 := by
  rw [flatMap_rows fun index => sample.getD index 0]
  refine List.ext_getElem (by simp [long]) fun index inside _ => ?_
  have below : index < sample.length := by
    simp only [List.length_take] at inside
    omega
  simp [below]

/-- All the numbers that are printed are read again. -/
def RereadsAll (models : Models) (samples : List (List UInt32)) : Prop :=
  ∀ sample ∈ samples, ∀ value ∈ sample.take 192, models.Rereads value

/-- The samples, each number printed and read again. -/
def rereadAll (models : Models) (samples : List (List UInt32)) : List (List UInt32) :=
  samples.map fun sample => (sample.take 192).map models.reread

theorem rereads_rows {sample : List UInt32} (long : 192 ≤ sample.length) :
    (∀ value ∈ sample.take 192, models.Rereads value) ↔
      ∀ row < 64, ∀ column < 3, models.Rereads (sample.getD (row * 3 + column) 0) := by
  rw [printed_rows long]
  simp only [List.forall_mem_flatMap, List.forall_mem_map, List.mem_range]

/-- The printed rows are rows exactly if all the numbers are read again. -/
theorem isRow_rowTexts_iff (prints : models.PrintsCells) {samples : List (List UInt32)}
    (long : ∀ sample ∈ samples, 192 ≤ sample.length) :
    (∀ line ∈ models.rowTexts samples, models.IsRow line) ↔ models.RereadsAll samples := by
  simp only [rowTexts, List.forall_mem_flatMap, List.forall_mem_map, List.mem_range,
    isRow_rowText_iff prints, RereadsAll]
  exact forall₂_congr fun sample member => (rereads_rows (long sample member)).symm

theorem rowValues_rowTexts (prints : models.PrintsCells) {samples : List (List UInt32)}
    (long : ∀ sample ∈ samples, 192 ≤ sample.length) (read : models.RereadsAll samples) :
    (models.rowTexts samples).flatMap models.rowValues = (models.rereadAll samples).flatten := by
  rw [rowTexts, List.flatMap_assoc, rereadAll, ← List.flatMap_def]
  refine List.flatMap_congr fun sample member => ?_
  have each := (rereads_rows (long sample member)).mp (read sample member)
  rw [printed_rows (long sample member), List.map_flatMap, List.flatMap_map]
  refine List.flatMap_congr fun row below => ?_
  rw [rowValues_rowText prints (each row (List.mem_range.mp below)), List.map_map]
  rfl

/-- Where all numbers are read again, the loop comes to the samples. -/
theorem parseSamples_rowTexts (prints : models.PrintsCells) {samples : List (List UInt32)}
    (long : ∀ sample ∈ samples, 192 ≤ sample.length) (read : models.RereadsAll samples) :
    models.parseSamples (getlines 10 ((models.rowTexts samples).flatMap (· ++ [10]))) [] 0 [] =
      .ok (some (models.rereadAll samples)) := by
  have rows := (isRow_rowTexts_iff prints long).mpr read
  rw [← nonemptyLines_rowTexts prints] at rows
  have lengths : ∀ sample ∈ models.rereadAll samples, sample.length = 192 := by
    intro again member
    obtain ⟨sample, among, rfl⟩ := List.mem_map.mp member
    have enough := long sample among
    simp [enough]
  rw [parseSamples_of_rows rows, nonemptyLines_rowTexts prints, rowValues_rowTexts prints long read,
    blocks_flatten (by decide) lengths]

/-- Every line has three cells, so the loop reports no row of another length. -/
theorem parseSamples_ne_none {lines : List (List UInt8)} {currentSample : List UInt32}
    {rowCount : Nat} {samples : List (List UInt32)}
    (cells : ∀ line ∈ lines, line ≠ [] → (getlines 44 line).length = 3) :
    models.parseSamples lines currentSample rowCount samples ≠ .ok none := by
  induction lines generalizing currentSample rowCount samples with
  | nil => exact nofun
  | cons line lines ih =>
      obtain ⟨first, rest⟩ := List.forall_mem_cons.mp cells
      simp only [parseSamples]
      split
      · exact ih rest
      case isFalse nonempty =>
          split
          · simp
          case _ row converted =>
              have three : row.length = 3 := (length_of_mapM converted).trans (first nonempty)
              rw [if_neg (not_not.mpr three)]
              split
              · exact ih rest
              · exact ih rest

/-- An exception of the loop is one of `std::stof`, for a cell of a line. -/
theorem parseSamples_throws {lines : List (List UInt8)} {currentSample : List UInt32}
    {rowCount : Nat} {samples : List (List UInt32)} {what : List UInt8}
    (thrown : models.parseSamples lines currentSample rowCount samples = .error what) :
    ∃ line ∈ lines, ∃ cell ∈ getlines 44 line, models.stof cell = .error what := by
  induction lines generalizing currentSample rowCount samples with
  | nil => contradiction
  | cons line lines ih =>
      have behind : (∃ line ∈ lines, ∃ cell ∈ getlines 44 line, models.stof cell = .error what) →
          ∃ other ∈ line :: lines, ∃ cell ∈ getlines 44 other, models.stof cell = .error what :=
        fun ⟨other, member, found⟩ => ⟨other, List.mem_cons_of_mem _ member, found⟩
      simp only [parseSamples] at thrown
      split at thrown
      · exact behind (ih thrown)
      · split at thrown
        case _ failed =>
            cases thrown
            obtain ⟨cell, member, thrown⟩ := mapM_error failed
            exact ⟨line, List.mem_cons_self, cell, member, thrown⟩
        · split at thrown
          · cases thrown
          · split at thrown
            · exact behind (ih thrown)
            · exact behind (ih thrown)

/-- Where a number is not read again, the loop throws. -/
theorem parseSamples_rowTexts_throws (prints : models.PrintsCells) {samples : List (List UInt32)}
    (long : ∀ sample ∈ samples, 192 ≤ sample.length) (unread : ¬models.RereadsAll samples) :
    ∃ value what, models.stof (models.putFloat value) = .error what ∧
      models.parseSamples (getlines 10 ((models.rowTexts samples).flatMap (· ++ [10]))) [] 0 [] =
        .error what := by
  have plain : ∀ line ∈ models.rowTexts samples, (10 : UInt8) ∉ line ∧
      ∃ sample row, line = models.rowText sample row := by
    intro line member
    simp only [rowTexts, List.mem_flatMap, List.mem_map] at member
    obtain ⟨sample, _, row, _, rfl⟩ := member
    exact ⟨(rowText_plain prints sample row).2, sample, row, rfl⟩
  have lines : getlines 10 ((models.rowTexts samples).flatMap (· ++ [10])) =
      models.rowTexts samples := by
    have split := splitOnP_lines (fun line member => (plain line member).1)
      (List.not_mem_nil (a := 10))
    rw [List.append_nil] at split
    simp [getlines, split]
  rw [lines]
  cases done : models.parseSamples (models.rowTexts samples) [] 0 [] with
  | error what =>
      obtain ⟨line, member, cell, among, thrown⟩ := parseSamples_throws done
      obtain ⟨-, sample, row, rfl⟩ := plain line member
      rw [getlines_rowText prints, List.mem_map] at among
      obtain ⟨column, _, rfl⟩ := among
      exact ⟨_, what, thrown, rfl⟩
  | ok found =>
      cases found with
      | none =>
          refine absurd done (parseSamples_ne_none fun line member _ => ?_)
          obtain ⟨-, sample, row, rfl⟩ := plain line member
          rw [getlines_rowText prints, List.length_map, List.length_range]
      | some result =>
          have rows := rows_of_parseSamples done
          refine absurd ((isRow_rowTexts_iff prints long).mp fun line member => ?_) unread
          obtain ⟨-, sample, row, same⟩ := plain line member
          have nonempty : line ≠ [] := same ▸ (rowText_plain prints sample row).1
          exact rows line (List.mem_filter.mpr ⟨member, by simpa using nonempty⟩)

/-- A number that is read again is printed as before. -/
theorem putFloat_reread (stable : models.Stable) {value : UInt32} (read : models.Rereads value) :
    models.putFloat (models.reread value) = models.putFloat value := by
  obtain ⟨again, reads⟩ := read
  have same : models.reread value = again := by
    rw [reread, reads]
    rfl
  rw [same, stable value again reads]

/-- Printing again what was read gives the same text. -/
theorem putSamples_rereadAll (stable : models.Stable) {samples : List (List UInt32)}
    (long : ∀ sample ∈ samples, 192 ≤ sample.length) (read : models.RereadsAll samples) :
    models.putSamples (models.rereadAll samples) =
      .ok ((models.rowTexts samples).flatMap (· ++ [10])) := by
  have enough : (models.rereadAll samples).all (fun sample => 192 ≤ sample.length) = true := by
    simp only [rereadAll, List.all_map, List.all_eq_true, Function.comp_apply, decide_eq_true_eq,
      List.length_map, List.length_take]
    exact fun sample member => le_min le_rfl (long sample member)
  rw [putSamples, if_pos enough, ← putSamples_rows, rereadAll, List.flatMap_map]
  refine congrArg Except.ok (List.flatMap_congr fun sample member => ?_)
  have each := (rereads_rows (long sample member)).mp (read sample member)
  refine List.flatMap_congr fun row below => ?_
  have cell : ∀ column < 3, models.putFloat
      (((sample.take 192).map models.reread).getD (row * 3 + column) 0) =
      models.putFloat (sample.getD (row * 3 + column) 0) := by
    intro column inside
    have entry : ((sample.take 192).map models.reread).getD (row * 3 + column) 0 =
        models.reread (sample.getD (row * 3 + column) 0) := by
      have bound := List.mem_range.mp below
      have enough := long sample member
      have index : row * 3 + column < 192 := by omega
      have present : row * 3 + column < sample.length := by omega
      simp [index, present]
    rw [entry, putFloat_reread stable (each row (List.mem_range.mp below) column inside)]
  have first := cell 0 (by decide)
  rw [Nat.add_zero] at first
  rw [putRow, putRow, first, cell 1 (by decide), cell 2 (by decide)]

end Models

/-- A file that is uploaded and was downloaded before, for the samples it was printed from: the loop
over its lines comes to these samples, each number printed and read again, and printing them gives
the same file; or it throws, because one of the numbers is not read again. -/
structure RoundTrip (models : Models) (samples : List (List UInt32)) (bytes : List UInt8) :
    Prop where
  printed : models.putSamples samples = .ok bytes
  reads : models.RereadsAll samples →
    models.parseSamples (getlines 10 bytes) [] 0 [] = .ok (some (models.rereadAll samples))
  throws : ¬models.RereadsAll samples → ∃ value what,
    models.stof (models.putFloat value) = .error what ∧
      models.parseSamples (getlines 10 bytes) [] 0 [] = .error what
  again : models.Stable → models.RereadsAll samples →
    models.putSamples (models.rereadAll samples) = .ok bytes

/-- Every file that is printed makes the round trip. -/
theorem roundTrip_of_putSamples {models : Models} (prints : models.PrintsCells)
    {samples : List (List UInt32)} {bytes : List UInt8}
    (printed : models.putSamples samples = .ok bytes) : RoundTrip models samples bytes := by
  have putting := printed
  simp only [Models.putSamples] at putting
  split at putting
  case isTrue enough =>
      have long : ∀ sample ∈ samples, 192 ≤ sample.length := by simpa using enough
      rw [Models.putSamples_rows, Except.ok.injEq] at putting
      subst putting
      exact ⟨printed, Models.parseSamples_rowTexts prints long,
        Models.parseSamples_rowTexts_throws prints long,
        fun stable read => Models.putSamples_rereadAll stable long read⟩
  case isFalse => contradiction

/-! ## Answers -/

theorem Models.length_generateAll {models : Models} {generator sample left : Nat}
    {samples : List (List UInt32)}
    (generated : models.generateAll generator sample left = .ok samples) :
    samples.length = left := by
  induction left generalizing sample samples with
  | zero =>
      cases generated
      rfl
  | succ left ih =>
      simp only [Models.generateAll] at generated
      split at generated
      · contradiction
      · split at generated
        · contradiction
        case _ rest following =>
            cases generated
            rw [List.length_cons, ih following]

theorem Models.printed_of_generateCsv {models : Models} {generator : Nat} {missing : List UInt8}
    {numSamples : Int} {bytes : List UInt8}
    (generated : models.generateCsv generator missing numSamples = .ok (.csv bytes)) :
    ∃ samples, samples.length = sampleCount numSamples ∧ models.putSamples samples = .ok bytes := by
  simp only [Models.generateCsv] at generated
  split at generated
  · split at generated
    · contradiction
    case _ samples all =>
        split at generated
        · contradiction
        case _ printed =>
            cases generated
            exact ⟨samples, Models.length_generateAll all, printed⟩
  · cases generated

/-- A CSV answer is printed from as many samples as the request asks for. -/
theorem printed_of_diagnoseRequest {json : Json} {models : Models} {text bytes : List UInt8}
    (answered : diagnoseRequest json models text = .ok (.csv bytes)) :
    ∃ body numSamples samples, json.parse text = .ok body ∧ body.numSamples = .ok numSamples ∧
      samples.length = sampleCount numSamples ∧ models.putSamples samples = .ok bytes := by
  have caught : ∀ what, catchDiagnose json what ≠ .ok (.csv bytes) := by
    intro what
    simp only [catchDiagnose]
    split <;> simp
  have replied : diagnose json models text = .ok (.csv bytes) := by
    simp only [diagnoseRequest] at answered
    split at answered
    · contradiction
    · exact absurd answered (caught _)
    case _ same =>
        cases answered
        exact same
    · split at answered
      · cases answered
      · exact absurd answered (caught _)
  simp only [diagnose] at replied
  split at replied
  · contradiction
  case _ body parsed =>
      split at replied
      · contradiction
      case _ content _ =>
          split at replied
          · contradiction
          case _ numSamples number =>
              simp only [Models.diagnoseUpload] at replied
              split at replied
              · contradiction
              · cases replied
              · cases replied
              · split at replied
                · contradiction
                · obtain ⟨samples, length, printed⟩ := Models.printed_of_generateCsv replied
                  exact ⟨body, numSamples, samples, parsed, number, length, printed⟩
      · split at replied
        · contradiction
        case _ numSamples number =>
            obtain ⟨samples, length, printed⟩ := Models.printed_of_generateCsv replied
            exact ⟨body, numSamples, samples, parsed, number, length, printed⟩

/-- **A downloaded file can be uploaded**: the bytes of a CSV answer are the printed text of the
samples asked for; uploaded in a later request they are parsed into these samples, each number
printed and read again, so that the later request is answered with a CSV file exactly if every
number is read again, the first sample is classified, and its generator works. -/
theorem downloaded_uploads {json : Json} {models : Models} (prints : models.PrintsCells)
    {text bytes : List UInt8} (answered : diagnoseRequest json models text = .ok (.csv bytes)) :
    ∃ body numSamples samples, json.parse text = .ok body ∧ body.numSamples = .ok numSamples ∧
      samples.length = sampleCount numSamples ∧ RoundTrip models samples bytes ∧
      ∀ noise later laterBody laterNumber, json.parse later = .ok laterBody →
        laterBody.csvData = some (.ok bytes) → laterBody.numSamples = .ok laterNumber →
        ((∃ csv, diagnoseRequest json { models with noise := noise } later = .ok (.csv csv)) ↔
          models.RereadsAll samples ∧ ∃ first rest classProbs,
            models.rereadAll samples = first :: rest ∧ models.classify first = .ok classProbs ∧
              Models.Generates { models with noise := noise } (predClass classProbs)
                laterNumber) := by
  obtain ⟨body, numSamples, samples, parsed, number, length, printed⟩ :=
    printed_of_diagnoseRequest answered
  refine ⟨body, numSamples, samples, parsed, number, length,
    roundTrip_of_putSamples prints printed, ?_⟩
  intro noise later laterBody laterNumber laterParsed uploaded laterNumbered
  -- reading and printing a file takes no noise
  have roundTrip := @roundTrip_of_putSamples { models with noise := noise } prints samples bytes
    printed
  rw [diagnoseRequest_csv_iff, Predicts]
  constructor
  · rintro ⟨_, _, sameBody, sameNumber, either⟩
    rw [laterParsed] at sameBody
    cases sameBody
    rw [laterNumbered] at sameNumber
    cases sameNumber
    rw [uploaded] at either
    obtain ⟨_, same, first, rest, classProbs, done, classified, generates⟩ :=
      either.resolve_left fun none => Option.some_ne_none _ none.1
    cases same
    have read : Models.RereadsAll { models with noise := noise } samples := by
      by_contra unread
      obtain ⟨_, what, _, thrown⟩ := roundTrip.throws unread
      rw [thrown] at done
      contradiction
    rw [roundTrip.reads read, Except.ok.injEq, Option.some.injEq] at done
    exact ⟨read, first, rest, classProbs, done, classified, generates⟩
  · rintro ⟨read, first, rest, classProbs, samplesAre, classified, generates⟩
    refine ⟨laterBody, laterNumber, laterParsed, laterNumbered, .inr ⟨bytes, uploaded, first, rest,
      classProbs, ?_, classified, generates⟩⟩
    exact (roundTrip.reads read).trans (congrArg (Except.ok ∘ some) samplesAre)

/-- Models that print a number with one digit, and generate a sample of ones. -/
def onesModels : Models :=
  { digitModels with
    classify := fun _ => .ok [0x3f800000]
    loaded := fun generator => generator = 0
    generate := fun _ _ => .ok (List.replicate 192 0x3f800000)
    putFloat := fun value =>
      if value = 0x3f800000 then ascii "1"
      else if value = 0x40000000 then ascii "2"
      else if value = 0x40400000 then ascii "3"
      else ascii "0" }

theorem onesModels_prints : onesModels.PrintsCells := by
  intro value
  simp only [onesModels]
  split
  · decide
  · split
    · decide
    · split <;> decide

/-- The file that is sent, if one is. -/
def sentCsv : Except Fault DiagnoseResult → Option (List UInt8)
  | .ok (.csv bytes) => some bytes
  | _ => none

theorem eq_of_sentCsv {answer : Except Fault DiagnoseResult} {bytes : List UInt8}
    (sent : sentCsv answer = some bytes) : answer = .ok (.csv bytes) := by
  simp only [sentCsv] at sent
  split at sent
  · rw [Option.some.inj sent]
  · contradiction

/-- A library that reads every body as a request for one sample, with a file of ones but for the
empty body. -/
def oneSampleJson : Json :=
  { Env.blank.json with
    parse := fun text => .ok {
      csvData := if text = [] then none else some (.ok (repeated (ascii "1,1,1") 64))
      numSamples := .ok 1 } }

/-- A file of ones, which is uploaded in a request with other noise. -/
theorem downloaded_uploads_ones :
    ∃ samples : List (List UInt32), samples.length = 1 ∧
      RoundTrip onesModels samples (repeated (ascii "1,1,1") 64) ∧
      (∃ csv, diagnoseRequest oneSampleJson { onesModels with noise := fun _ => [0x40000000] }
        (ascii "later") = .ok (.csv csv)) ∧
      onesModels.RereadsAll samples := by
  have answered : diagnoseRequest oneSampleJson onesModels [] =
      .ok (.csv (repeated (ascii "1,1,1") 64)) :=
    eq_of_sentCsv (by decide +kernel)
  have uploaded : ∃ csv, diagnoseRequest oneSampleJson
      { onesModels with noise := fun _ => [0x40000000] } (ascii "later") = .ok (.csv csv) :=
    ⟨repeated (ascii "1,1,1") 64, eq_of_sentCsv (by decide +kernel)⟩
  obtain ⟨body, numSamples, samples, parsed, number, length, roundTrip, later⟩ :=
    downloaded_uploads onesModels_prints answered
  cases parsed
  cases number
  have read := (later (fun _ => [0x40000000]) (ascii "later") _ 1 rfl rfl rfl).mp uploaded
  exact ⟨samples, length, roundTrip, uploaded, read.1⟩

end TimeGANWebServer.Http
