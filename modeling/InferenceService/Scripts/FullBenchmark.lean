import InferenceService.Lib.Python
import Mathlib.Data.List.Perm.Basic

/-!
# `run_gsm8k_full_benchmark.py`: the output file

Runs that append to one CSV file and may be killed. A file is the list of its
rows: `csv.reader` reads back what `csv.writer` wrote. Of a record the two
columns that decide something here have names of their own.
-/

namespace InferenceService

abbrev CsvRow := List String

abbrev CsvFile := List CsvRow

/-! ## `csv.DictReader` -/

/-- `row.get(key)`: of two columns with the key the last one counts, and a
value that the row lacks is `None`. -/
def dictReaderGet (fieldnames row : CsvRow) (key : String) : Option (Option String) :=
  (fieldnames.zipIdx.reverse.find? fun field => field.1 = key).map fun field => row[field.2]?

def dictReader : CsvFile → CsvRow × List CsvRow
  | [] => ([], [])
  | fieldnames :: rows => (fieldnames, rows.filter fun row => row ≠ [])

/-! ## The records -/

def fieldnames : CsvRow :=
  ["case_id", "status_code", "ok", "correct", "expected_answer", "predicted_answer", "client_latency_seconds",
    "server_latency_seconds", "backend", "model_name", "device", "input_tokens", "output_tokens",
    "tokens_per_second", "max_new_tokens", "thinking_budget", "question_preview", "response_preview", "error"]

structure BenchmarkCase where
  caseId : String
  question : String
  expectedAnswer : String
deriving DecidableEq, Repr

/-- A record; `fields` are the columns after the first two. -/
structure BenchmarkRecord where
  caseId : String
  statusCode : Int
  fields : List String
deriving DecidableEq, Repr

def BenchmarkRecord.row (r : BenchmarkRecord) : CsvRow := r.caseId :: toString r.statusCode :: r.fields

/-- What a run makes of a case: the status of `post_generate` and the columns
that follow it. -/
abbrev Evaluation := BenchmarkCase → Int × List String

def Evaluation.record (evaluate : Evaluation) (c : BenchmarkCase) : BenchmarkRecord :=
  ⟨c.caseId, (evaluate c).1, (evaluate c).2⟩

/-! ## `read_completed_case_ids` and `write_summary` -/

/-- `str(row.get("case_id", "")).strip()`. -/
def rowCaseId (fieldnames row : CsvRow) : String :=
  Python.stripText
    (match dictReaderGet fieldnames row "case_id" with
    | none => ""
    | some none => "None"
    | some (some value) => value)

def readCompletedCaseIds : Option CsvFile → List String
  | none => []
  | some file => ((dictReader file).2.map (rowCaseId (dictReader file).1)).filter fun caseId => caseId ≠ ""

/-- `total_cases` of the summary. -/
def totalCases (file : CsvFile) : Nat := (dictReader file).2.length

/-! ## `run_benchmark` -/

/-- Where a run is killed: before it opens the file, before its first flush, or
after the flush of so many records. -/
inductive Kill where
  | beforeOpen
  | unflushed
  | flushed (records : Nat)
deriving DecidableEq, Repr

def evaluateCases (evaluate : Evaluation) (completed : List String) : List BenchmarkCase → List BenchmarkRecord
  | [] => []
  | c :: cases =>
    if c.caseId ∈ completed then evaluateCases evaluate completed cases
    else evaluate.record c :: evaluateCases evaluate completed cases

/-- What is on disk after a run; a run that is not killed closes the file. The
header is written with the first flush. -/
def runBenchmark (cases : List BenchmarkCase) (evaluate : Evaluation) (resume : Bool) (kill : Option Kill)
    (file : Option CsvFile) : Option CsvFile :=
  let completed := if resume then readCompletedCaseIds file else []
  let fileExists := file.isSome && resume
  let opened := if fileExists then file.getD [] else []
  let header := if fileExists then [] else [fieldnames]
  let records := (evaluateCases evaluate completed cases).map BenchmarkRecord.row
  match kill with
  | some .beforeOpen => file
  | some .unflushed => some opened
  | some (.flushed n) => some (opened ++ header ++ records.take n)
  | none => some (opened ++ header ++ records)

/-- Killed runs and a last one that completes; the first is without `--resume`. -/
def benchmarkRuns (cases : List BenchmarkCase) (last : Evaluation) :
    Bool → List (Kill × Evaluation) → Option CsvFile → Option CsvFile
  | resume, [], file => runBenchmark cases last resume none file
  | resume, (kill, evaluate) :: killed, file =>
    benchmarkRuns cases last true killed (runBenchmark cases evaluate resume (some kill) file)

/-! ## What is promised of the file -/

/-- The header once and first, a record for each case, and both readers see all
of them. -/
structure ExactlyOnce (cases : List BenchmarkCase) (file : Option CsvFile) : Prop where
  header : ∃ rows, file = some (fieldnames :: rows) ∧ fieldnames ∉ rows
  records : ∃ records : List BenchmarkRecord, file = some (fieldnames :: records.map BenchmarkRecord.row) ∧
    (records.map BenchmarkRecord.caseId).Perm (cases.map BenchmarkCase.caseId)
  completed : ∀ c ∈ cases, Python.stripText c.caseId ∈ readCompletedCaseIds file
  summarized : ∀ rows ∈ file, totalCases rows = cases.length

def Stripped (caseId : String) : Prop := Python.stripText caseId = caseId

instance (caseId : String) : Decidable (Stripped caseId) := inferInstanceAs (Decidable (_ = _))

/-- The file is absent or as a run leaves it between two flushes: the header
and records of different cases, whose ids have no white space around them. -/
def Resumable (cases : List BenchmarkCase) (file : Option CsvFile) : Prop :=
  ∀ rows ∈ file, ∃ records : List BenchmarkRecord, rows = fieldnames :: records.map BenchmarkRecord.row ∧
    (records.map BenchmarkRecord.caseId).Nodup ∧
    ∀ r ∈ records, r.caseId ∈ cases.map BenchmarkCase.caseId ∧ Stripped r.caseId

/-- The cases that a run with `--resume` evaluates. -/
def remaining (cases : List BenchmarkCase) (file : Option CsvFile) : List BenchmarkCase :=
  cases.filter fun c => c.caseId ∉ readCompletedCaseIds file

def Kill.records : Kill → Nat
  | flushed n => n
  | _ => 0

def saved (cases : List BenchmarkCase) : Option Kill → List BenchmarkCase
  | none => cases
  | some kill => cases.take kill.records

/-! ## Rows -/

theorem row_ne_nil (r : BenchmarkRecord) : r.row ≠ [] := nofun

theorem toString_int_ne (n : Int) : toString n ≠ "status_code" := by
  intro h
  have hint := Python.int_toString n
  rw [h, show Python.int "status_code" = none by decide] at hint
  cases hint

theorem row_ne_fieldnames (r : BenchmarkRecord) : r.row ≠ fieldnames := by
  intro h
  exact toString_int_ne r.statusCode (List.cons.inj (List.cons.inj h).2).1

theorem fieldnames_not_mem (records : List BenchmarkRecord) : fieldnames ∉ records.map BenchmarkRecord.row := by
  intro h
  obtain ⟨r, _, hr⟩ := List.mem_map.mp h
  exact row_ne_fieldnames r hr

theorem map_row_caseId {records records' : List BenchmarkRecord}
    (h : records.map BenchmarkRecord.row = records'.map BenchmarkRecord.row) :
    records.map BenchmarkRecord.caseId = records'.map BenchmarkRecord.caseId := by
  have hhead := congrArg (List.map fun row : CsvRow => row.headD "") h
  simpa [List.map_map, Function.comp_def, BenchmarkRecord.row] using hhead

theorem dictReader_records (records : List BenchmarkRecord) :
    dictReader (fieldnames :: records.map BenchmarkRecord.row) = (fieldnames, records.map BenchmarkRecord.row) := by
  show (fieldnames, (records.map BenchmarkRecord.row).filter _) = _
  rw [List.filter_eq_self.mpr]
  intro row hrow
  obtain ⟨r, _, rfl⟩ := List.mem_map.mp hrow
  exact decide_eq_true (row_ne_nil r)

theorem rowCaseId_row (r : BenchmarkRecord) : rowCaseId fieldnames r.row = Python.stripText r.caseId := by
  have hfind : (fieldnames.zipIdx.reverse.find? fun field => field.1 = "case_id") = some ("case_id", 0) := by decide
  unfold rowCaseId dictReaderGet
  rw [hfind]
  rfl

/-! ## What is completed -/

theorem completed_stripped {file : Option CsvFile} {caseId : String} (h : caseId ∈ readCompletedCaseIds file) :
    Stripped caseId := by
  cases file with
  | none => cases h
  | some file =>
    obtain ⟨row, _, rfl⟩ := List.mem_map.mp (List.mem_filter.mp h).1
    exact Python.stripText_stripText _

theorem completed_records (records : List BenchmarkRecord) :
    readCompletedCaseIds (some (fieldnames :: records.map BenchmarkRecord.row)) =
      (records.map fun r => Python.stripText r.caseId).filter fun caseId => caseId ≠ "" := by
  have hmap : (records.map fun r => rowCaseId fieldnames r.row) = records.map fun r => Python.stripText r.caseId :=
    List.map_congr_left fun r _ => rowCaseId_row r
  simp only [readCompletedCaseIds, dictReader_records, List.map_map, Function.comp_def, hmap]

section
variable {cases : List BenchmarkCase} {file : Option CsvFile} {evaluate : Evaluation}

theorem completed_resumable {records : List BenchmarkRecord} (hblank : ∀ c ∈ cases, Python.stripText c.caseId ≠ "")
    (hr : ∀ r ∈ records, r.caseId ∈ cases.map BenchmarkCase.caseId ∧ Stripped r.caseId) :
    readCompletedCaseIds (some (fieldnames :: records.map BenchmarkRecord.row)) =
      records.map BenchmarkRecord.caseId := by
  rw [completed_records]
  have hmap : (records.map fun r => Python.stripText r.caseId) = records.map BenchmarkRecord.caseId :=
    List.map_congr_left fun r h => (hr r h).2
  rw [hmap, List.filter_eq_self]
  intro caseId h
  obtain ⟨r, hmem, rfl⟩ := List.mem_map.mp h
  obtain ⟨hcase, hstripped⟩ := hr r hmem
  obtain ⟨c, hc, heq⟩ := List.mem_map.mp hcase
  rw [decide_eq_true_eq, ← hstripped, ← heq]
  exact hblank c hc

theorem evaluateCases_eq (completed : List String) (cases : List BenchmarkCase) :
    evaluateCases evaluate completed cases = (cases.filter fun c => c.caseId ∉ completed).map evaluate.record := by
  induction cases with
  | nil => rfl
  | cons c cases ih =>
    rw [evaluateCases, List.filter_cons, ih]
    by_cases h : c.caseId ∈ completed <;> simp [h]

theorem map_record_caseId (evaluate : Evaluation) (cases : List BenchmarkCase) :
    (cases.map evaluate.record).map BenchmarkRecord.caseId = cases.map BenchmarkCase.caseId := by
  rw [List.map_map]
  rfl

/-! ## One run -/

def newRows (evaluate : Evaluation) (cases : List BenchmarkCase) : List CsvRow :=
  (cases.map evaluate.record).map BenchmarkRecord.row

theorem resumed_some (rows : CsvFile) (kill : Option Kill) :
    runBenchmark cases evaluate true kill (some rows) =
      some (rows ++ newRows evaluate (saved (remaining cases (some rows)) kill)) := by
  unfold runBenchmark
  simp only [evaluateCases_eq, Option.isSome_some, Bool.and_self, if_true, Option.getD_some, List.append_nil]
  cases kill with
  | none => rfl
  | some k =>
    cases k with
    | beforeOpen => simp [saved, newRows, Kill.records]
    | unflushed => simp [saved, newRows, Kill.records]
    | flushed n => simp only [saved, newRows, Kill.records, remaining, List.map_take]

theorem resumed_none {kill : Option Kill} (hflush : kill ≠ some .beforeOpen ∧ kill ≠ some .unflushed) :
    runBenchmark cases evaluate true kill none = runBenchmark cases evaluate true kill (some [fieldnames]) := by
  unfold runBenchmark
  cases kill with
  | none => rfl
  | some k =>
    cases k with
    | beforeOpen => exact absurd rfl hflush.1
    | unflushed => exact absurd rfl hflush.2
    | flushed n => rfl

/-- A run without `--resume` that opens the file is one with it where there was no file. -/
theorem fresh_run {kill : Option Kill} (hopen : kill ≠ some .beforeOpen) :
    runBenchmark cases evaluate false kill file = runBenchmark cases evaluate true kill none := by
  unfold runBenchmark
  cases kill with
  | none => simp [readCompletedCaseIds]
  | some k =>
    cases k with
    | beforeOpen => exact absurd rfl hopen
    | unflushed => simp
    | flushed n => simp [readCompletedCaseIds]

/-! ## What a run makes of a resumable file -/

theorem resumable_none : Resumable cases none := nofun

theorem resumable_header : Resumable cases (some [fieldnames]) := by
  intro rows h
  obtain rfl := Option.some.inj h
  exact ⟨[], rfl, List.nodup_nil, nofun⟩

theorem split_rows {rows : CsvFile} {added : List BenchmarkCase} {records : List BenchmarkRecord}
    (h : rows ++ newRows evaluate added = fieldnames :: records.map BenchmarkRecord.row) :
    ∃ before after, records = before ++ after ∧ rows = fieldnames :: before.map BenchmarkRecord.row ∧
      after.map BenchmarkRecord.caseId = added.map BenchmarkCase.caseId := by
  cases rows with
  | nil =>
    have hmem : fieldnames ∈ newRows evaluate added := by
      rw [List.nil_append] at h
      rw [h]
      exact List.mem_cons_self
    exact absurd hmem (fieldnames_not_mem _)
  | cons row rest =>
    obtain ⟨rfl, htail⟩ := List.cons.inj h
    obtain ⟨before, after, rfl, hbefore, hafter⟩ := List.map_eq_append_iff.mp htail.symm
    refine ⟨before, after, rfl, by rw [hbefore], ?_⟩
    rw [← map_record_caseId evaluate added]
    exact map_row_caseId hafter

variable (hnodup : (cases.map BenchmarkCase.caseId).Nodup) (hblank : ∀ c ∈ cases, Python.stripText c.caseId ≠ "")
include hnodup hblank

theorem resumed_nodup {records : List BenchmarkRecord} (hrec : (records.map BenchmarkRecord.caseId).Nodup)
    (hr : ∀ r ∈ records, r.caseId ∈ cases.map BenchmarkCase.caseId ∧ Stripped r.caseId) {added : List BenchmarkCase}
    (hadded : added.Sublist (remaining cases (some (fieldnames :: records.map BenchmarkRecord.row)))) :
    ((records ++ added.map evaluate.record).map BenchmarkRecord.caseId).Nodup := by
  rw [List.map_append, map_record_caseId]
  refine List.nodup_append.mpr ⟨hrec, hnodup.sublist ((hadded.trans List.filter_sublist).map _), ?_⟩
  rintro caseId hcase _ hnew rfl
  obtain ⟨c, hc, rfl⟩ := List.mem_map.mp hnew
  have hrem := of_decide_eq_true (List.mem_filter.mp (hadded.subset hc)).2
  rw [completed_resumable hblank hr] at hrem
  exact hrem hcase

theorem resumable_saved {rows : CsvFile} {added : List BenchmarkCase}
    (hadded : added.Sublist (remaining cases (some rows))) :
    Resumable cases (some (rows ++ newRows evaluate added)) ↔
      Resumable cases (some rows) ∧ ∀ c ∈ added, Stripped c.caseId := by
  constructor
  · intro h
    obtain ⟨records, heq, hrec, hr⟩ := h _ rfl
    obtain ⟨before, after, rfl, hrows, hids⟩ := split_rows heq
    rw [List.map_append] at hrec
    refine ⟨?_, fun c hc => ?_⟩
    · intro rows' hrows'
      obtain rfl := Option.some.inj hrows'
      exact ⟨before, hrows, (List.nodup_append.mp hrec).1, fun r hmem => hr r (List.mem_append_left _ hmem)⟩
    · have hmem : c.caseId ∈ after.map BenchmarkRecord.caseId := hids ▸ List.mem_map_of_mem hc
      obtain ⟨r, hmem, heq⟩ := List.mem_map.mp hmem
      exact heq ▸ (hr r (List.mem_append_right _ hmem)).2
  · rintro ⟨h, hstripped⟩ rows' hrows'
    obtain rfl := Option.some.inj hrows'
    obtain ⟨records, rfl, hrec, hr⟩ := h _ rfl
    refine ⟨records ++ added.map evaluate.record, by simp [newRows], resumed_nodup hnodup hblank hrec hr hadded, ?_⟩
    intro r hmem
    rcases List.mem_append.mp hmem with hmem | hmem
    · exact hr r hmem
    · obtain ⟨c, hc, rfl⟩ := List.mem_map.mp hmem
      exact ⟨List.mem_map_of_mem (List.mem_filter.mp (hadded.subset hc)).1, hstripped c hc⟩

/-- The records of a file that a run completes are those it had and one for
each case that remained. -/
theorem completes {records : List BenchmarkRecord} (hrec : (records.map BenchmarkRecord.caseId).Nodup)
    (hr : ∀ r ∈ records, r.caseId ∈ cases.map BenchmarkCase.caseId ∧ Stripped r.caseId) :
    ExactlyOnce cases (some (fieldnames :: records.map BenchmarkRecord.row ++
      newRows evaluate (remaining cases (some (fieldnames :: records.map BenchmarkRecord.row))))) := by
  have hnew : ((records ++ (remaining cases (some (fieldnames :: records.map BenchmarkRecord.row))).map
      evaluate.record).map BenchmarkRecord.caseId).Nodup :=
    resumed_nodup hnodup hblank hrec hr (List.Sublist.refl _)
  generalize hrest : remaining cases (some (fieldnames :: records.map BenchmarkRecord.row)) = rest at hnew ⊢
  have hids : ∀ caseId, caseId ∈ (records ++ rest.map evaluate.record).map BenchmarkRecord.caseId ↔
      caseId ∈ cases.map BenchmarkCase.caseId := by
    intro caseId
    rw [List.map_append, map_record_caseId, List.mem_append]
    constructor
    · intro hmem
      rcases hmem with h | h
      · obtain ⟨r, hmem, rfl⟩ := List.mem_map.mp h
        exact (hr r hmem).1
      · obtain ⟨c, hc, rfl⟩ := List.mem_map.mp h
        rw [← hrest] at hc
        exact List.mem_map_of_mem (List.mem_filter.mp hc).1
    · intro h
      obtain ⟨c, hc, rfl⟩ := List.mem_map.mp h
      by_cases hdone : c.caseId ∈ records.map BenchmarkRecord.caseId
      · exact .inl hdone
      · refine .inr (List.mem_map_of_mem ?_)
        rw [← hrest, remaining, List.mem_filter, completed_resumable hblank hr]
        exact ⟨hc, decide_eq_true hdone⟩
  have hperm : ((records ++ rest.map evaluate.record).map BenchmarkRecord.caseId).Perm
      (cases.map BenchmarkCase.caseId) := (List.perm_ext_iff_of_nodup hnew hnodup).mpr hids
  have hfile : fieldnames :: records.map BenchmarkRecord.row ++ newRows evaluate rest =
      fieldnames :: (records ++ rest.map evaluate.record).map BenchmarkRecord.row := by simp [newRows]
  rw [hfile]
  refine ⟨⟨_, rfl, fieldnames_not_mem _⟩, ⟨_, rfl, hperm⟩, fun c hc => ?_, fun rows hrows => ?_⟩
  · obtain ⟨r, hmem, heq⟩ := List.mem_map.mp ((hids c.caseId).mpr (List.mem_map_of_mem hc))
    rw [completed_records, List.mem_filter]
    exact ⟨heq ▸ List.mem_map_of_mem hmem, decide_eq_true (hblank c hc)⟩
  · obtain rfl := Option.some.inj hrows
    rw [totalCases, dictReader_records, List.length_map]
    simpa using hperm.length_eq

theorem complete_exactly_once_iff :
    ExactlyOnce cases (runBenchmark cases evaluate true none file) ↔ Resumable cases file := by
  cases file with
  | none =>
    have hnone := @resumed_none cases evaluate none ⟨nofun, nofun⟩
    have hnil : (([] : List BenchmarkRecord).map BenchmarkRecord.caseId).Nodup := List.nodup_nil
    rw [hnone, resumed_some]
    exact ⟨fun _ => resumable_none, fun _ => completes hnodup hblank hnil nofun⟩
  | some rows =>
    rw [resumed_some]
    constructor
    · intro h
      obtain ⟨records, heq, hperm⟩ := h.records
      obtain ⟨before, after, rfl, hrows, hids⟩ := split_rows (Option.some.inj heq)
      have hrec := hperm.nodup_iff.mpr hnodup
      rw [List.map_append] at hrec
      obtain ⟨hbefore, _, hdisjoint⟩ := List.nodup_append.mp hrec
      intro rows' hrows'
      obtain rfl := Option.some.inj hrows'
      refine ⟨before, hrows, hbefore, fun r hmem => ?_⟩
      have hcase : r.caseId ∈ cases.map BenchmarkCase.caseId :=
        hperm.subset (List.mem_map_of_mem (List.mem_append_left _ hmem))
      refine ⟨hcase, ?_⟩
      by_contra hno
      -- an id that is not stripped is never completed, so the run writes it again
      obtain ⟨c, hc, hceq⟩ := List.mem_map.mp hcase
      have hagain : c ∈ remaining cases (some rows) :=
        List.mem_filter.mpr ⟨hc, decide_eq_true fun hdone => hno (hceq ▸ completed_stripped hdone)⟩
      have hafter : c.caseId ∈ after.map BenchmarkRecord.caseId := hids ▸ List.mem_map_of_mem hagain
      exact hdisjoint _ (List.mem_map_of_mem hmem) _ hafter hceq.symm
    · intro h
      obtain ⟨records, rfl, hrec, hr⟩ := h _ rfl
      exact completes hnodup hblank hrec hr

theorem killed_resumable {kill : Kill} (h : Resumable cases (runBenchmark cases evaluate true (some kill) file)) :
    Resumable cases file := by
  cases file with
  | none => exact resumable_none
  | some rows =>
    rw [resumed_some] at h
    exact ((resumable_saved hnodup hblank (List.take_sublist _ _)).mp h).1

omit hblank in
theorem filter_taken (n : Nat) :
    (cases.filter fun c => c.caseId ∉ (cases.take n).map BenchmarkCase.caseId) = cases.drop n := by
  have hsplit : cases.take n ++ cases.drop n = cases := List.take_append_drop n cases
  rw [← hsplit, List.map_append] at hnodup
  have hdisjoint := (List.nodup_append.mp hnodup).2.2
  have htake : ((cases.take n).filter fun c => c.caseId ∉ (cases.take n).map BenchmarkCase.caseId) = [] :=
    List.filter_eq_nil_iff.mpr fun c hc h => of_decide_eq_true h (List.mem_map_of_mem hc)
  have hdrop : ((cases.drop n).filter fun c => c.caseId ∉ (cases.take n).map BenchmarkCase.caseId) = cases.drop n :=
    List.filter_eq_self.mpr fun c hc => decide_eq_true fun hmem =>
      hdisjoint _ hmem _ (List.mem_map_of_mem hc) rfl
  calc (cases.filter fun c => c.caseId ∉ (cases.take n).map BenchmarkCase.caseId)
      = (cases.take n ++ cases.drop n).filter fun c => c.caseId ∉ (cases.take n).map BenchmarkCase.caseId := by
        rw [hsplit]
    _ = cases.drop n := by rw [List.filter_append, htake, hdrop, List.nil_append]

/-- What remains after a run that was killed is what it had not saved. -/
theorem remaining_saved {rows : CsvFile} {n : Nat} (h : Resumable cases (some rows))
    (hstripped : ∀ c ∈ (remaining cases (some rows)).take n, Stripped c.caseId) :
    remaining cases (some (rows ++ newRows evaluate ((remaining cases (some rows)).take n))) =
      (remaining cases (some rows)).drop n := by
  obtain ⟨records, hrows, hrec, hr⟩ := h _ rfl
  have hsub : (remaining cases (some rows)).Sublist cases := List.filter_sublist
  rw [← filter_taken (hnodup.sublist (hsub.map _)) n]
  generalize hadded : (remaining cases (some rows)).take n = added at hstripped ⊢
  have hfile : rows ++ newRows evaluate added =
      fieldnames :: (records ++ added.map evaluate.record).map BenchmarkRecord.row := by
    rw [hrows]
    simp [newRows]
  have hids : ∀ r ∈ records ++ added.map evaluate.record,
      r.caseId ∈ cases.map BenchmarkCase.caseId ∧ Stripped r.caseId := by
    intro r hmem
    rcases List.mem_append.mp hmem with hmem | hmem
    · exact hr r hmem
    · obtain ⟨c, hc, rfl⟩ := List.mem_map.mp hmem
      rw [← hadded] at hc
      exact ⟨List.mem_map_of_mem (hsub.subset (List.mem_of_mem_take hc)), hstripped c (hadded ▸ hc)⟩
  rw [remaining, hfile, completed_resumable hblank hids, remaining, hrows, completed_resumable hblank hr,
    List.filter_filter]
  refine List.filter_congr fun c _ => ?_
  rw [List.map_append, map_record_caseId, ← Bool.decide_and, decide_eq_decide, List.mem_append, not_or, and_comm]

/-! ## All runs -/

/-- Where the runs start from: the first one truncates the file if it opens it. -/
def startFile (killed : List Kill) (file : Option CsvFile) : Option CsvFile :=
  match killed with
  | .beforeOpen :: _ => file
  | _ => none

variable {last : Evaluation}

theorem runs_of_resumable (killed : List (Kill × Evaluation))
    (h : ExactlyOnce cases (benchmarkRuns cases last true killed file)) : Resumable cases file := by
  induction killed generalizing file with
  | nil => exact (complete_exactly_once_iff hnodup hblank).mp h
  | cons k killed ih => exact killed_resumable hnodup hblank (ih h)

/-- A killed run that leaves the new file empty, or that saves an id which is
not stripped, spoils the file for all runs that follow. -/
theorem resumed_runs_iff (killed : List (Kill × Evaluation)) (hfile : Resumable cases file) :
    ExactlyOnce cases (benchmarkRuns cases last true killed file) ↔
      (file = none → (killed.map Prod.fst).find? (fun k => k ≠ .beforeOpen) ≠ some .unflushed) ∧
      ∀ c ∈ (remaining cases file).take ((killed.map Prod.fst).map Kill.records).sum, Stripped c.caseId := by
  induction killed generalizing file with
  | nil =>
    rw [benchmarkRuns, complete_exactly_once_iff hnodup hblank]
    exact ⟨fun _ => ⟨fun _ => nofun, nofun⟩, fun _ => hfile⟩
  | cons k killed ih =>
    obtain ⟨kill, evaluate⟩ := k
    rw [benchmarkRuns]
    simp only [List.map_cons, List.sum_cons]
    cases kill with
    | beforeOpen =>
      rw [List.find?_cons_of_neg (by simp), show Kill.beforeOpen.records = 0 from rfl, Nat.zero_add]
      exact ih hfile
    | unflushed =>
      rw [List.find?_cons_of_pos (by simp), show Kill.unflushed.records = 0 from rfl, Nat.zero_add]
      cases file with
      | none =>
        constructor
        · intro h
          obtain ⟨records, heq, _⟩ := runs_of_resumable hnodup hblank killed h [] rfl
          cases heq
        · exact fun h => absurd rfl (h.1 rfl)
      | some rows =>
        have hsame : runBenchmark cases evaluate true (some .unflushed) (some rows) = some rows := by
          rw [resumed_some]
          simp [saved, Kill.records, newRows]
        rw [hsame, ih hfile]
        exact and_congr_left fun _ => ⟨fun _ h => absurd h nofun, fun _ h => absurd h nofun⟩
    | flushed n =>
      rw [List.find?_cons_of_pos (by simp), show (Kill.flushed n).records = n from rfl]
      obtain ⟨rows, hrun, hrest, hrows⟩ : ∃ rows,
          runBenchmark cases evaluate true (some (.flushed n)) file =
            runBenchmark cases evaluate true (some (.flushed n)) (some rows) ∧
          remaining cases file = remaining cases (some rows) ∧ Resumable cases (some rows) := by
        cases file with
        | none => exact ⟨[fieldnames], resumed_none ⟨nofun, nofun⟩, rfl, resumable_header⟩
        | some rows => exact ⟨rows, rfl, rfl, hfile⟩
      rw [hrun, hrest, resumed_some, List.take_add, List.forall_mem_append]
      have hiff : Resumable cases (some (rows ++ newRows evaluate ((remaining cases (some rows)).take n))) ↔ _ :=
        resumable_saved hnodup hblank (List.take_sublist n _)
      show ExactlyOnce cases (benchmarkRuns cases last true killed
        (some (rows ++ newRows evaluate ((remaining cases (some rows)).take n)))) ↔ _
      by_cases hstripped : ∀ c ∈ (remaining cases (some rows)).take n, Stripped c.caseId
      · rw [ih (hiff.mpr ⟨hrows, hstripped⟩), remaining_saved hnodup hblank hrows hstripped]
        exact ⟨fun h => ⟨fun _ => nofun, hstripped, h.2⟩, fun h => ⟨fun h => absurd h nofun, h.2.2⟩⟩
      · refine ⟨fun h => absurd (hiff.mp (runs_of_resumable hnodup hblank killed h)).2 hstripped, fun h => ?_⟩
        exact absurd h.2.1 hstripped

end

/-- The first run opens the file or the file is already such a partial result;
the run that makes the file is not killed before its first flush; and no id that
a killed run has saved has white space around it. -/
structure Survives (cases : List BenchmarkCase) (killed : List Kill) (file : Option CsvFile) : Prop where
  start : Resumable cases (startFile killed file)
  header : startFile killed file = none → killed.find? (fun k => k ≠ .beforeOpen) ≠ some .unflushed
  stripped : ∀ c ∈ (remaining cases (startFile killed file)).take (killed.map Kill.records).sum, Stripped c.caseId

theorem runs_start (cases : List BenchmarkCase) (last : Evaluation) (killed : List (Kill × Evaluation))
    (file : Option CsvFile) : benchmarkRuns cases last false killed file =
      benchmarkRuns cases last true killed (startFile (killed.map Prod.fst) file) := by
  cases killed with
  | nil => exact fresh_run nofun
  | cons k killed =>
    obtain ⟨kill, evaluate⟩ := k
    by_cases hopen : kill = .beforeOpen
    · rw [hopen]
      rfl
    · rw [benchmarkRuns, fresh_run fun h => hopen (Option.some.inj h)]
      cases kill with
      | beforeOpen => exact absurd rfl hopen
      | unflushed => rfl
      | flushed n => rfl

/-! ## Two cases -/

def twoCases : List BenchmarkCase := [⟨"gsm8k_0001", "1 + 1 = ?", "2"⟩, ⟨"gsm8k_0002", "2 + 2 = ?", "4"⟩]

def answered : Evaluation := fun c => (200, ["True", "True", c.expectedAnswer])

theorem resume_exactly_once_iff (cases : List BenchmarkCase) (hnodup : (cases.map BenchmarkCase.caseId).Nodup)
    (hblank : ∀ c ∈ cases, Python.stripText c.caseId ≠ "") (killed : List (Kill × Evaluation)) (last : Evaluation)
    (file : Option CsvFile) :
    ExactlyOnce cases (benchmarkRuns cases last false killed file) ↔ Survives cases (killed.map Prod.fst) file := by
  rw [runs_start]
  constructor
  · intro h
    have hstart := runs_of_resumable hnodup hblank killed h
    obtain ⟨hheader, hstripped⟩ := (resumed_runs_iff hnodup hblank killed hstart).mp h
    exact ⟨hstart, hheader, hstripped⟩
  · exact fun h => (resumed_runs_iff hnodup hblank killed h.start).mpr ⟨h.header, h.stripped⟩

theorem resume_exactly_once_two :
    ExactlyOnce twoCases (benchmarkRuns twoCases answered false [(.flushed 1, answered), (.unflushed, answered)] none) :=
  (resume_exactly_once_iff twoCases (by decide) (by decide) _ answered none).mpr
    ⟨nofun, fun _ => by decide, by decide⟩

theorem unflushed_header_lost :
    (twoCases.map BenchmarkCase.caseId).Nodup ∧ (∀ c ∈ twoCases, Python.stripText c.caseId ≠ "") ∧
      benchmarkRuns twoCases answered false [(.unflushed, answered)] none =
        some [["gsm8k_0001", "200", "True", "True", "2"], ["gsm8k_0002", "200", "True", "True", "4"]] ∧
      ¬ ExactlyOnce twoCases (benchmarkRuns twoCases answered false [(.unflushed, answered)] none) := by
  have hrun : benchmarkRuns twoCases answered false [(.unflushed, answered)] none =
      some [["gsm8k_0001", "200", "True", "True", "2"], ["gsm8k_0002", "200", "True", "True", "4"]] := by decide
  refine ⟨by decide, by decide, hrun, ?_⟩
  intro h
  obtain ⟨⟨rows, hrows, _⟩, _⟩ := h
  rw [hrun] at hrows
  exact absurd (List.cons.inj (Option.some.inj hrows)).1 (by decide)

end InferenceService
