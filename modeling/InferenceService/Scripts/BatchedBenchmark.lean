import InferenceService.Scripts.FullBenchmark
import InferenceService.Scripts.FinalAnswer
import Mathlib.Data.List.Nodup

/-!
# `run_bnb_int8_gsm8k_batched.py`

The evaluation in batches. A batch that fails has all its cases recorded as
failed and ends the run; a run with `--resume` goes on with the cases that have
no record.
-/

namespace InferenceService

/-! ## The rows -/

def batchedFieldnames : CsvRow :=
  ["case_id", "ok", "correct", "expected_answer", "predicted_answer", "reference_predicted_answer",
    "reference_prediction_match", "batch_index", "batch_size_actual", "batch_latency_seconds",
    "batch_total_output_tokens", "batch_aggregate_tokens_per_second", "input_tokens_padded", "output_tokens",
    "question_preview", "response_preview", "error"]

def pythonBool (b : Bool) : String := if b then "True" else "False"

/-- A record; `columns` are those after the first five. -/
structure BatchedRecord where
  caseId : String
  ok : Bool
  correct : Bool
  expectedAnswer : String
  predictedAnswer : String
  columns : List String
deriving DecidableEq, Repr

def BatchedRecord.row (r : BatchedRecord) : CsvRow :=
  r.caseId :: pythonBool r.ok :: pythonBool r.correct :: r.expectedAnswer :: r.predictedAnswer :: r.columns

/-- `text[:n].replace("\n", "\\n")`. -/
def preview (n : Nat) (text : String) : String :=
  String.ofList ((text.toList.take n).flatMap fun c => if c = '\n' then ['\\', 'n'] else [c])

def loadCompletedCaseIds (file : Option CsvFile) : List String := readCompletedCaseIds file

/-- `reference_rows.get(case_id, {}).get("predicted_answer", "")` on the rows of
`load_reference`, of which the last one with the id counts. -/
def referencePrediction (reference : Option CsvFile) (caseId : String) : String :=
  match reference with
  | none => ""
  | some file =>
    let fields := (dictReader file).1
    match (dictReader file).2.reverse.find? fun row =>
        caseId ≠ "" ∧ dictReaderGet fields row "case_id" = some (some caseId) with
    | none => ""
    | some row => ((dictReaderGet fields row "predicted_answer").getD (some "")).getD ""

/-! ## One batch -/

structure Generation where
  responses : List String
  outputTokens : String → Nat
  inputWidth : Nat
  batchLatency : String
  tokensPerSecond : String

/-- The prompts of the batch are not made, which nothing catches; or an error
is caught, with its text; or there are responses. -/
inductive BatchOutcome where
  | unformatted
  | raised (error : String)
  | generated (g : Generation)

/-- A run, which may raise before it opens the file. `generate` is what becomes of a
numbered batch, `printError` what `print` raises for a case, `errorText` the text of
an error that is raised while responses are scored, and `reports` whether the failure
of a batch has a text that can be printed and written. -/
structure BatchedRun where
  opens : Bool
  batchSize : Nat
  batchSize_pos : 0 < batchSize
  generate : Nat → List BenchmarkCase → BatchOutcome
  printError : String → Option String
  errorText : String → String
  reports : Nat → Bool

section
variable (reference : Option CsvFile) (batchIndex size : Nat)

/-- `none` where `is_correct` raises. -/
def scoredRecord (g : Generation) (c : BenchmarkCase) (response : String) : Option BatchedRecord :=
  let predicted := extractPredictedAnswer response.toList
  let expected := referencePrediction reference c.caseId
  (isCorrect c.expectedAnswer.toList predicted).map fun correct => {
    caseId := c.caseId
    ok := true
    correct
    expectedAnswer := c.expectedAnswer
    predictedAnswer := String.ofList predicted
    columns := [expected, if expected = "" then "" else pythonBool (String.ofList predicted = expected),
      toString batchIndex, toString size, g.batchLatency, toString (g.responses.map g.outputTokens).sum,
      g.tokensPerSecond, toString g.inputWidth, toString (g.outputTokens response), preview 200 c.question,
      preview 500 response, ""] }

def failedRecord (error : String) (c : BenchmarkCase) : BatchedRecord where
  caseId := c.caseId
  ok := false
  correct := false
  expectedAnswer := c.expectedAnswer
  predictedAnswer := ""
  columns := ["", "", toString batchIndex, toString size, "", "", "", "", "", preview 200 c.question, "",
    preview 1500 error]

/-- The loop over `zip(batch_rows, responses, ..., strict=True)`: what it has
written, and what it raises. -/
def scoreBatch (printError : String → Option String) (g : Generation) :
    List BenchmarkCase → List String → List BatchedRecord × Option String
  | [], [] => ([], none)
  | c :: cases, response :: responses =>
    match scoredRecord reference batchIndex size g c response with
    | none => ([], some "InvalidOperation")
    | some record =>
      match printError c.caseId with
      | some raised => ([record], some raised)
      | none =>
        let rest := scoreBatch printError g cases responses
        (record :: rest.1, rest.2)
  | _, _ => ([], some "ValueError")

end

/-- The clause that catches an error. -/
def BatchedRun.failBatch (run : BatchedRun) (batchIndex : Nat) (cases : List BenchmarkCase) (error : String) :
    List BatchedRecord :=
  if run.reports batchIndex then cases.map (failedRecord batchIndex cases.length error) else []

def BatchedRun.batch (run : BatchedRun) (reference : Option CsvFile) (batchIndex : Nat) (cases : List BenchmarkCase) :
    List BatchedRecord × Bool :=
  match run.generate batchIndex cases with
  | .unformatted => ([], true)
  | .raised error => (run.failBatch batchIndex cases error, true)
  | .generated g =>
    match scoreBatch reference batchIndex cases.length run.printError g cases g.responses with
    | (records, none) => (records, false)
    | (records, some raised) => (records ++ run.failBatch batchIndex cases (run.errorText raised), true)

/-! ## `main` -/

def batchStarts (batchSize count : Nat) : List Nat := List.range' 0 ((count + batchSize - 1) / batchSize) batchSize

def BatchedRun.batches (run : BatchedRun) (reference : Option CsvFile) (cases : List BenchmarkCase) :
    List Nat → List BatchedRecord × Bool
  | [] => ([], false)
  | start :: starts =>
    match run.batch reference (start / run.batchSize + 1) ((cases.drop start).take run.batchSize) with
    | (records, true) => (records, true)
    | (records, false) =>
      let rest := run.batches reference cases starts
      (records ++ rest.1, rest.2)

/-- The file after a run on the cases of the dataset, and whether the run fails. -/
def runBatched (reference : Option CsvFile) (cases : List BenchmarkCase) (run : BatchedRun) (resume : Bool)
    (file : Option CsvFile) : Option CsvFile × Bool :=
  if !run.opens then (file, true)
  else
    let completed := if resume then loadCompletedCaseIds file else []
    let rows := cases.filter fun c => c.caseId ∉ completed
    let fileExists := file.isSome && resume
    let opened := if fileExists then file.getD [] else []
    let header := if fileExists then [] else [batchedFieldnames]
    let records := run.batches reference rows (batchStarts run.batchSize rows.length)
    (some (opened ++ header ++ records.1.map BatchedRecord.row), records.2)

def batchedRuns (reference : Option CsvFile) (cases : List BenchmarkCase) (file : Option CsvFile) (first : BatchedRun)
    (resumed : List BatchedRun) : Option CsvFile × Bool :=
  resumed.foldl (fun after run => runBatched reference cases run true after.1)
    (runBatched reference cases first false file)

structure BatchedSummary where
  totalCases : Nat
  successfulCases : Nat
  failedCases : Nat
  correctCases : Nat
deriving DecidableEq, Repr

def batchedSummary (file : CsvFile) : BatchedSummary :=
  let rows := (dictReader file).2
  let has := fun (key : String) (row : CsvRow) => dictReaderGet (dictReader file).1 row key = some (some "True")
  { totalCases := rows.length
    successfulCases := rows.countP fun row => has "ok" row
    failedCases := rows.length - rows.countP fun row => has "ok" row
    correctCases := rows.countP fun row => has "correct" row }

/-! ## What the records say of the cases -/

structure ScoredCase (c : BenchmarkCase) (r : BatchedRecord) : Prop where
  caseId : r.caseId = c.caseId
  ok : r.ok = true
  expected : r.expectedAnswer = c.expectedAnswer
  correct : isCorrect c.expectedAnswer.toList r.predictedAnswer.toList = some r.correct

structure FailedCase (c : BenchmarkCase) (r : BatchedRecord) : Prop where
  caseId : r.caseId = c.caseId
  ok : r.ok = false
  correct : r.correct = false

/-- The records of the cases so far, batch by batch; `dirty` tells that a batch
may fail when some of its responses have been scored. -/
inductive Covers (dirty : Prop) : List BenchmarkCase → List BatchedRecord → Prop
  | nil : Covers dirty [] []
  | scored {cases batch : List BenchmarkCase} {records new : List BatchedRecord} (h : Covers dirty cases records)
      (hnew : List.Forall₂ ScoredCase batch new) : Covers dirty (cases ++ batch) (records ++ new)
  | failed {cases batch : List BenchmarkCase} {records before after : List BatchedRecord} (n : Nat)
      (h : Covers dirty cases records) (hbefore : List.Forall₂ ScoredCase (batch.take n) before)
      (hafter : List.Forall₂ FailedCase batch after) (hn : n = 0 ∨ dirty) :
      Covers dirty (cases ++ batch) (records ++ (before ++ after))

section
variable {reference : Option CsvFile} {batchIndex size : Nat}

theorem scoredRecord_scored {g : Generation} {c : BenchmarkCase} {response : String} {r : BatchedRecord}
    (h : scoredRecord reference batchIndex size g c response = some r) : ScoredCase c r := by
  unfold scoredRecord at h
  dsimp only at h
  obtain ⟨correct, hcorrect, rfl⟩ := Option.map_eq_some_iff.mp h
  refine ⟨rfl, rfl, rfl, ?_⟩
  dsimp only
  rw [String.toList_ofList]
  exact hcorrect

theorem failedRecord_failed (error : String) (cases : List BenchmarkCase) :
    List.Forall₂ FailedCase cases (cases.map (failedRecord batchIndex size error)) := by
  induction cases with
  | nil => exact .nil
  | cons c cases ih => exact .cons ⟨rfl, rfl, rfl⟩ ih

/-- The loop scores the first cases of the batch, and all of them unless it raises. -/
theorem scoreBatch_scored (reference : Option CsvFile) (batchIndex size : Nat) (printError : String → Option String)
    (g : Generation) : ∀ (cases : List BenchmarkCase) (responses : List String), ∃ n,
      List.Forall₂ ScoredCase (cases.take n) (scoreBatch reference batchIndex size printError g cases responses).1 ∧
      ((scoreBatch reference batchIndex size printError g cases responses).2 = none → cases.take n = cases)
  | [], [] => ⟨0, .nil, fun _ => rfl⟩
  | [], _ :: _ => ⟨0, .nil, nofun⟩
  | _ :: _, [] => ⟨0, .nil, nofun⟩
  | c :: cases, response :: responses => by
    unfold scoreBatch
    cases hr : scoredRecord reference batchIndex size g c response with
    | none => exact ⟨0, .nil, nofun⟩
    | some record =>
      dsimp only
      cases printError c.caseId with
      | some raised => exact ⟨1, .cons (scoredRecord_scored hr) .nil, nofun⟩
      | none =>
        obtain ⟨n, hall, hend⟩ := scoreBatch_scored reference batchIndex size printError g cases responses
        refine ⟨n + 1, .cons (scoredRecord_scored hr) hall, fun hnone => ?_⟩
        rw [List.take_succ_cons, hend hnone]

/-- Nothing is raised when there is a response for each case, all compare and all are printed. -/
theorem scoreBatch_none {printError : String → Option String} (hprint : ∀ caseId, printError caseId = none)
    (g : Generation) {cases : List BenchmarkCase} {responses : List String}
    (h : List.Forall₂ (fun c response =>
      (isCorrect c.expectedAnswer.toList (extractPredictedAnswer response.toList)).isSome = true) cases responses) :
    (scoreBatch reference batchIndex size printError g cases responses).2 = none := by
  induction h with
  | nil => rfl
  | @cons c response cases responses hc _ ih =>
    unfold scoreBatch
    cases hr : scoredRecord reference batchIndex size g c response with
    | none =>
      unfold scoredRecord at hr
      rw [Option.map_eq_none_iff.mp hr] at hc
      cases hc
    | some record =>
      dsimp only
      rw [hprint]
      exact ih

/-- The responses are scored and printed whenever there are some. -/
def BatchedRun.Clean (run : BatchedRun) (reference : Option CsvFile) : Prop :=
  ∀ batchIndex cases g, run.generate batchIndex cases = .generated g →
    (scoreBatch reference batchIndex cases.length run.printError g cases g.responses).2 = none

variable {dirty : Prop} {run : BatchedRun} {cases : List BenchmarkCase} {records : List BatchedRecord}

theorem batch_covers (batchIndex : Nat) (hdirty : ¬ run.Clean reference → dirty) (h : Covers dirty cases records)
    (batch : List BenchmarkCase) : ∃ k, Covers dirty (cases ++ batch.take k)
        (records ++ (run.batch reference batchIndex batch).1) ∧
      ((run.batch reference batchIndex batch).2 = false → batch.take k = batch) := by
  unfold BatchedRun.batch
  cases hgen : run.generate batchIndex batch with
  | unformatted => exact ⟨0, by simpa using h, nofun⟩
  | raised error =>
    dsimp only
    unfold BatchedRun.failBatch
    by_cases hreports : run.reports batchIndex = true
    · refine ⟨batch.length, ?_, nofun⟩
      rw [if_pos hreports, List.take_length]
      exact .failed 0 h .nil (failedRecord_failed error batch) (.inl rfl)
    · rw [if_neg hreports]
      exact ⟨0, by simpa using h, nofun⟩
  | generated g =>
    obtain ⟨n, hall, hend⟩ := scoreBatch_scored reference batchIndex batch.length run.printError g batch g.responses
    dsimp only
    cases hscore : scoreBatch reference batchIndex batch.length run.printError g batch g.responses with
    | mk before raised =>
      rw [hscore] at hall hend
      cases raised with
      | none => exact ⟨n, .scored h hall, fun _ => hend rfl⟩
      | some raised =>
        have hunclean : ¬ run.Clean reference := fun hclean => by
          have := hclean batchIndex batch g hgen
          rw [hscore] at this
          cases this
        dsimp only
        unfold BatchedRun.failBatch
        by_cases hreports : run.reports batchIndex = true
        · refine ⟨batch.length, ?_, nofun⟩
          rw [if_pos hreports, List.take_length]
          exact .failed n h hall (failedRecord_failed _ batch) (.inr (hdirty hunclean))
        · rw [if_neg hreports, List.append_nil]
          exact ⟨n, .scored h hall, nofun⟩

theorem batches_covers (hdirty : ¬ run.Clean reference → dirty) {done : List BenchmarkCase} (count : Nat) :
    ∀ start records, cases.length ≤ start + count * run.batchSize →
      Covers dirty (done ++ cases.take start) records →
      ∃ k, Covers dirty (done ++ cases.take k)
          (records ++ (run.batches reference cases (List.range' start count run.batchSize)).1) ∧
        ((run.batches reference cases (List.range' start count run.batchSize)).2 = false → cases.length ≤ k) := by
  induction count with
  | zero =>
    intro start records hlen h
    exact ⟨start, by simpa [BatchedRun.batches] using h, fun _ => by simpa using hlen⟩
  | succ count ih =>
    intro start records hlen h
    rw [List.range'_succ, BatchedRun.batches]
    obtain ⟨k, hcovers, hwhole⟩ := batch_covers (start / run.batchSize + 1) hdirty h
      ((cases.drop start).take run.batchSize)
    cases hbatch : run.batch reference (start / run.batchSize + 1) ((cases.drop start).take run.batchSize) with
    | mk new failed =>
      rw [hbatch] at hcovers hwhole
      cases failed with
      | true =>
        refine ⟨start + min k run.batchSize, ?_, nofun⟩
        rw [List.take_add, ← List.take_take, ← List.append_assoc]
        exact hcovers
      | false =>
        rw [hwhole rfl, List.append_assoc, ← List.take_add] at hcovers
        rw [Nat.succ_mul] at hlen
        obtain ⟨k', hrest, hend⟩ := ih (start + run.batchSize) (records ++ new) (by omega) hcovers
        exact ⟨k', by rw [← List.append_assoc]; exact hrest, hend⟩

/-! ## The records of one case -/

theorem map_ids {R : BenchmarkCase → BatchedRecord → Prop} (hR : ∀ c r, R c r → r.caseId = c.caseId)
    {batch : List BenchmarkCase} {new : List BatchedRecord} (h : List.Forall₂ R batch new) :
    new.map BatchedRecord.caseId = batch.map BenchmarkCase.caseId := by
  induction h with
  | nil => rfl
  | cons hr _ ih => rw [List.map_cons, List.map_cons, hR _ _ hr, ih]

theorem covers_ids (h : Covers dirty cases records) (caseId : String) :
    caseId ∈ records.map BatchedRecord.caseId ↔ caseId ∈ cases.map BenchmarkCase.caseId := by
  induction h with
  | nil => rfl
  | scored _ hnew ih =>
    rw [List.map_append, List.map_append, List.mem_append, List.mem_append, ih,
      map_ids (fun _ _ => ScoredCase.caseId) hnew]
  | failed n _ hbefore hafter _ ih =>
    have hsub := map_ids (fun _ _ => ScoredCase.caseId) hbefore
    simp only [List.map_append, List.mem_append, ih, hsub, map_ids (fun _ _ => FailedCase.caseId) hafter]
    have htake : ∀ batch : List BenchmarkCase, caseId ∈ (batch.take n).map BenchmarkCase.caseId →
        caseId ∈ batch.map BenchmarkCase.caseId := fun batch hmem => (List.take_sublist n batch).map _ |>.subset hmem
    constructor
    · rintro (hold | hmem | hmem)
      · exact .inl hold
      · exact .inr (htake _ hmem)
      · exact .inr hmem
    · exact fun hmem => hmem.imp_right .inr

def recordsOf (c : BenchmarkCase) (records : List BatchedRecord) : List BatchedRecord :=
  records.filter fun r => r.caseId = c.caseId

theorem recordsOf_append (c : BenchmarkCase) (records new : List BatchedRecord) :
    recordsOf c (records ++ new) = recordsOf c records ++ recordsOf c new :=
  List.filter_append ..

theorem recordsOf_none {c : BenchmarkCase} (h : c.caseId ∉ records.map BatchedRecord.caseId) :
    recordsOf c records = [] :=
  List.filter_eq_nil_iff.mpr fun r hr heq => h (List.mem_map.mpr ⟨r, hr, of_decide_eq_true heq⟩)

theorem recordsOf_one {R : BenchmarkCase → BatchedRecord → Prop} (hR : ∀ c r, R c r → r.caseId = c.caseId)
    {batch : List BenchmarkCase} {new : List BatchedRecord} (h : List.Forall₂ R batch new)
    (hnodup : (batch.map BenchmarkCase.caseId).Nodup) {c : BenchmarkCase} (hc : c ∈ batch) :
    ∃ r, recordsOf c new = [r] ∧ R c r := by
  induction h with
  | nil => cases hc
  | @cons c' r batch new hr hrest ih =>
    rw [List.map_cons, List.nodup_cons] at hnodup
    unfold recordsOf
    by_cases hid : c'.caseId = c.caseId
    · obtain rfl : c = c' := by
        rcases List.mem_cons.mp hc with hc | hc
        · exact hc
        · exact absurd (List.mem_map.mpr ⟨c, hc, hid.symm⟩) hnodup.1
      have hno : recordsOf c new = [] := recordsOf_none (by rw [map_ids hR hrest]; exact hnodup.1)
      rw [List.filter_cons, if_pos (decide_eq_true (hR _ _ hr))]
      exact ⟨r, congrArg (r :: ·) hno, hr⟩
    · rw [List.filter_cons, if_neg (by rw [hR _ _ hr]; simpa using hid)]
      exact ih hnodup.2 ((List.mem_cons.mp hc).resolve_left fun heq => hid (heq ▸ rfl))

def CaseRecords (dirty : Prop) (c : BenchmarkCase) (rs : List BatchedRecord) : Prop :=
  (∃ r, rs = [r] ∧ (ScoredCase c r ∨ FailedCase c r)) ∨
    dirty ∧ ∃ r r', rs = [r, r'] ∧ ScoredCase c r ∧ FailedCase c r'

theorem covers_records (h : Covers dirty cases records) (hnodup : (cases.map BenchmarkCase.caseId).Nodup) :
    ∀ c ∈ cases, CaseRecords dirty c (recordsOf c records) := by
  induction h with
  | nil =>
    intro c hc
    cases hc
  | @scored cases batch records new h hnew ih =>
    rw [List.map_append, List.nodup_append] at hnodup
    obtain ⟨hold, hbatch, hdisjoint⟩ := hnodup
    intro c hc
    rw [recordsOf_append]
    rcases List.mem_append.mp hc with hc | hc
    · have hno : c.caseId ∉ new.map BatchedRecord.caseId := fun hmem => by
        rw [map_ids (fun _ _ => ScoredCase.caseId) hnew] at hmem
        exact hdisjoint _ (List.mem_map_of_mem hc) _ hmem rfl
      rw [recordsOf_none hno, List.append_nil]
      exact ih hold c hc
    · have hno : c.caseId ∉ records.map BatchedRecord.caseId := fun hmem =>
        hdisjoint _ ((covers_ids h _).mp hmem) _ (List.mem_map_of_mem hc) rfl
      obtain ⟨r, hr, hscored⟩ := recordsOf_one (fun _ _ => ScoredCase.caseId) hnew hbatch hc
      rw [recordsOf_none hno, List.nil_append]
      exact .inl ⟨r, hr, .inl hscored⟩
  | @failed cases batch records before after n h hbefore hafter hn ih =>
    rw [List.map_append, List.nodup_append] at hnodup
    obtain ⟨hold, hbatch, hdisjoint⟩ := hnodup
    have hbeforeIds := map_ids (fun _ _ => ScoredCase.caseId) hbefore
    intro c hc
    rw [recordsOf_append, recordsOf_append]
    rcases List.mem_append.mp hc with hc | hc
    · have hno : ∀ caseId ∈ batch.map BenchmarkCase.caseId, caseId ≠ c.caseId := fun caseId hmem heq =>
        hdisjoint _ (List.mem_map_of_mem hc) _ hmem heq.symm
      have hnoBefore : c.caseId ∉ before.map BatchedRecord.caseId := fun hmem => by
        rw [hbeforeIds] at hmem
        exact hno _ (((List.take_sublist n batch).map _).subset hmem) rfl
      have hnoAfter : c.caseId ∉ after.map BatchedRecord.caseId := fun hmem => by
        rw [map_ids (fun _ _ => FailedCase.caseId) hafter] at hmem
        exact hno _ hmem rfl
      rw [recordsOf_none hnoBefore, recordsOf_none hnoAfter, List.nil_append, List.append_nil]
      exact ih hold c hc
    · have hno : c.caseId ∉ records.map BatchedRecord.caseId := fun hmem =>
        hdisjoint _ ((covers_ids h _).mp hmem) _ (List.mem_map_of_mem hc) rfl
      obtain ⟨r', hr', hfailed⟩ := recordsOf_one (fun _ _ => FailedCase.caseId) hafter hbatch hc
      rw [recordsOf_none hno, List.nil_append, hr']
      by_cases hscored : c.caseId ∈ (batch.take n).map BenchmarkCase.caseId
      · have hsub := (List.take_sublist n batch).map BenchmarkCase.caseId
        obtain ⟨c', hc', hsame⟩ := List.mem_map.mp hscored
        obtain rfl := List.inj_on_of_nodup_map hbatch (List.mem_of_mem_take hc') hc hsame
        obtain ⟨r, hr, hscored⟩ := recordsOf_one (fun _ _ => ScoredCase.caseId) hbefore (hbatch.sublist hsub) hc'
        have hd : dirty := by
          rcases hn with rfl | hd
          · cases hc'
          · exact hd
        rw [hr]
        exact .inr ⟨hd, r, r', rfl, hscored, hfailed⟩
      · rw [recordsOf_none (by rw [hbeforeIds]; exact hscored), List.nil_append]
        exact .inl ⟨r', rfl, .inr hfailed⟩

theorem covers_clean (h : Covers dirty cases records) (hclean : ¬ dirty) :
    List.Forall₂ (fun c r => ScoredCase c r ∨ FailedCase c r) cases records := by
  induction h with
  | nil => exact .nil
  | scored _ hnew ih => exact List.rel_append ih (hnew.imp fun _ _ h => .inl h)
  | failed n _ hbefore hafter hn ih =>
    obtain rfl := hn.resolve_right hclean
    cases hbefore
    exact List.rel_append ih (hafter.imp fun _ _ h => .inr h)

/-! ## The file -/

theorem batched_row_ne_nil (r : BatchedRecord) : r.row ≠ [] := nofun

theorem dictReader_batched (records : List BatchedRecord) :
    dictReader (batchedFieldnames :: records.map BatchedRecord.row) =
      (batchedFieldnames, records.map BatchedRecord.row) := by
  show (batchedFieldnames, (records.map BatchedRecord.row).filter _) = _
  rw [List.filter_eq_self.mpr]
  intro row hrow
  obtain ⟨r, _, rfl⟩ := List.mem_map.mp hrow
  exact decide_eq_true (batched_row_ne_nil r)

theorem loadCompletedCaseIds_batched (hids : ∀ r ∈ records, Stripped r.caseId ∧ r.caseId ≠ "") :
    loadCompletedCaseIds (some (batchedFieldnames :: records.map BatchedRecord.row)) =
      records.map BatchedRecord.caseId := by
  have hfind : (batchedFieldnames.zipIdx.reverse.find? fun field => field.1 = "case_id") = some ("case_id", 0) := by
    decide
  have hmap : (records.map BatchedRecord.row).map (rowCaseId batchedFieldnames) =
      records.map BatchedRecord.caseId := by
    rw [List.map_map]
    refine List.map_congr_left fun r hr => ?_
    unfold Function.comp rowCaseId dictReaderGet
    rw [hfind]
    exact (hids r hr).1
  unfold loadCompletedCaseIds readCompletedCaseIds
  dsimp only
  rw [dictReader_batched, hmap, List.filter_eq_self]
  intro caseId hmem
  obtain ⟨r, hr, rfl⟩ := List.mem_map.mp hmem
  exact decide_eq_true (hids r hr).2

/-- The file after some runs, as `--resume` takes it up. -/
def CoveredFile (dirty : Prop) (cases : List BenchmarkCase) (file : CsvFile) (failed : Bool) : Prop :=
  ∃ records n, file = batchedFieldnames :: records.map BatchedRecord.row ∧ Covers dirty (cases.take n) records ∧
    (failed = false → cases.take n = cases)

/-- There is such a file, unless every run has failed before it opened one. -/
def CoveredRuns (dirty : Prop) (cases : List BenchmarkCase) (opened : Prop) (after : Option CsvFile × Bool) : Prop :=
  match after.1 with
  | none => ¬ opened ∧ after.2 = true
  | some file => CoveredFile dirty cases file after.2

theorem starts_enough (run : BatchedRun) (count : Nat) :
    count ≤ 0 + (count + run.batchSize - 1) / run.batchSize * run.batchSize := by
  have hdiv := Nat.div_add_mod' (count + run.batchSize - 1) run.batchSize
  have hmod := Nat.mod_lt (count + run.batchSize - 1) run.batchSize_pos
  have := run.batchSize_pos
  omega

/-- A run that writes a header is one that finds the header. -/
theorem fresh_batched (hopens : run.opens = true) {file : Option CsvFile} {resume : Bool}
    (hfresh : resume = false ∨ file = none) :
    runBatched reference cases run resume file = runBatched reference cases run true (some [batchedFieldnames]) := by
  have hnone : loadCompletedCaseIds (some [batchedFieldnames]) = [] := rfl
  have hno : loadCompletedCaseIds none = [] := rfl
  unfold runBatched
  rcases hfresh with rfl | rfl
  · simp [hopens, hnone]
  · cases resume <;> simp [hopens, hnone, hno]

theorem uncovered_cases {n : Nat} (hnodup : (cases.map BenchmarkCase.caseId).Nodup)
    (h : Covers dirty (cases.take n) records) :
    (cases.filter fun c => c.caseId ∉ records.map BatchedRecord.caseId) = cases.drop n := by
  rw [← filter_taken hnodup n]
  refine List.filter_congr fun c _ => ?_
  rw [decide_eq_decide, covers_ids h]

theorem resumed_covered (hnodup : (cases.map BenchmarkCase.caseId).Nodup)
    (hids : ∀ c ∈ cases, Stripped c.caseId ∧ c.caseId ≠ "") (hdirty : ¬ run.Clean reference → dirty)
    (hopens : run.opens = true) {file : CsvFile} {failed : Bool} (h : CoveredFile dirty cases file failed)
    {opened : Prop} :
    CoveredRuns dirty cases opened (runBatched reference cases run true (some file)) := by
  obtain ⟨records, n, rfl, hcovers, _⟩ := h
  have hrecords : ∀ r ∈ records, Stripped r.caseId ∧ r.caseId ≠ "" := by
    intro r hr
    have hmem := (covers_ids hcovers r.caseId).mp (List.mem_map_of_mem hr)
    obtain ⟨c, hc, hsame⟩ := List.mem_map.mp hmem
    exact hsame ▸ hids c (List.mem_of_mem_take hc)
  have hdone : Covers dirty (cases.take n ++ (cases.drop n).take 0) records := by
    rw [List.take_zero, List.append_nil]
    exact hcovers
  obtain ⟨k, hnew, hend⟩ := batches_covers hdirty _ 0 records (starts_enough run (cases.drop n).length) hdone
  unfold runBatched
  rw [if_neg (by simp [hopens])]
  simp only [if_true, loadCompletedCaseIds_batched hrecords, uncovered_cases hnodup hcovers, Option.isSome_some,
    Bool.and_self, Option.getD_some, List.append_nil]
  refine ⟨_, n + k, ?_, List.take_add ▸ hnew, fun hok => ?_⟩
  · rw [List.map_append, List.cons_append]
    rfl
  · have := hend hok
    rw [List.length_drop] at this
    exact List.take_of_length_le (by omega)

theorem next_covered (hnodup : (cases.map BenchmarkCase.caseId).Nodup)
    (hids : ∀ c ∈ cases, Stripped c.caseId ∧ c.caseId ≠ "") (hdirty : ¬ run.Clean reference → dirty)
    {opened : Prop} {after : Option CsvFile × Bool} (h : CoveredRuns dirty cases opened after) :
    CoveredRuns dirty cases (opened ∨ run.opens = true) (runBatched reference cases run true after.1) := by
  have hheader : CoveredFile dirty cases [batchedFieldnames] true := ⟨[], 0, rfl, .nil, nofun⟩
  obtain ⟨file, failed⟩ := after
  by_cases hopens : run.opens = true
  · cases file with
    | none =>
      dsimp only
      rw [fresh_batched hopens (.inr rfl)]
      exact resumed_covered hnodup hids hdirty hopens hheader
    | some file => exact resumed_covered hnodup hids hdirty hopens h
  · unfold runBatched
    rw [if_pos (by simpa using hopens)]
    cases file with
    | none => exact ⟨not_or.mpr ⟨h.1, hopens⟩, rfl⟩
    | some file =>
      obtain ⟨records, n, hfile, hcovers, _⟩ := h
      exact ⟨records, n, hfile, hcovers, nofun⟩

theorem resumed_runs_covered (hnodup : (cases.map BenchmarkCase.caseId).Nodup)
    (hids : ∀ c ∈ cases, Stripped c.caseId ∧ c.caseId ≠ "") (resumed : List BatchedRun)
    (hdirty : ∀ run ∈ resumed, ¬ run.Clean reference → dirty) : ∀ (opened : Prop) (after : Option CsvFile × Bool),
      CoveredRuns dirty cases opened after →
        CoveredRuns dirty cases (opened ∨ ∃ run ∈ resumed, run.opens = true)
          (resumed.foldl (fun after run => runBatched reference cases run true after.1) after) := by
  induction resumed with
  | nil =>
    intro opened after h
    simpa using h
  | cons run resumed ih =>
    intro opened after h
    have hnext := ih (fun run hrun => hdirty run (List.mem_cons_of_mem _ hrun)) _ _
      (next_covered hnodup hids (hdirty run List.mem_cons_self) h)
    rw [or_assoc] at hnext
    simpa using hnext

theorem runs_covered (hnodup : (cases.map BenchmarkCase.caseId).Nodup)
    (hids : ∀ c ∈ cases, Stripped c.caseId ∧ c.caseId ≠ "") {file : Option CsvFile} {first : BatchedRun}
    (hfile : file = none ∨ first.opens = true) (resumed : List BatchedRun)
    (hdirty : ∀ run ∈ first :: resumed, ¬ run.Clean reference → dirty) :
    CoveredRuns dirty cases (∃ run ∈ first :: resumed, run.opens = true)
      (batchedRuns reference cases file first resumed) := by
  have hstart : CoveredRuns dirty cases (first.opens = true) (runBatched reference cases first false file) := by
    by_cases hopens : first.opens = true
    · have hheader : CoveredFile dirty cases [batchedFieldnames] true := ⟨[], 0, rfl, .nil, nofun⟩
      rw [fresh_batched hopens (.inl rfl)]
      exact resumed_covered hnodup hids (hdirty first List.mem_cons_self) hopens hheader
    · obtain rfl := hfile.resolve_right hopens
      unfold runBatched
      rw [if_pos (by simpa using hopens)]
      exact ⟨hopens, rfl⟩
  have h := resumed_runs_covered hnodup hids resumed (fun run hrun => hdirty run (List.mem_cons_of_mem _ hrun)) _ _ hstart
  simpa [batchedRuns] using h

theorem batchedSummary_records (records : List BatchedRecord) :
    batchedSummary (batchedFieldnames :: records.map BatchedRecord.row) =
      ⟨records.length, records.countP BatchedRecord.ok, records.length - records.countP BatchedRecord.ok,
        records.countP BatchedRecord.correct⟩ := by
  have hbool : ∀ b, (some (some (pythonBool b)) = some (some "True")) = (b = true) := by decide
  have hok : ∀ r : BatchedRecord, dictReaderGet batchedFieldnames r.row "ok" = some (some (pythonBool r.ok)) :=
    fun _ => rfl
  have hcorrect : ∀ r : BatchedRecord,
      dictReaderGet batchedFieldnames r.row "correct" = some (some (pythonBool r.correct)) := fun _ => rfl
  unfold batchedSummary
  simp only [dictReader_batched, List.countP_map, List.length_map, Function.comp_def, hok, hcorrect, hbool]
  simp

end

/-- However many runs fail: the cases up to some point have their records, those
after it have none, and a run that does not fail leaves no case after it. -/
theorem batched_runs_record (reference : Option CsvFile) (cases : List BenchmarkCase)
    (hnodup : (cases.map BenchmarkCase.caseId).Nodup) (hids : ∀ c ∈ cases, Stripped c.caseId ∧ c.caseId ≠ "")
    (file : Option CsvFile) (first : BatchedRun) (hfile : file = none ∨ first.opens = true)
    (resumed : List BatchedRun) :
    ((batchedRuns reference cases file first resumed).1 = none →
      (batchedRuns reference cases file first resumed).2 = true ∧ ∀ run ∈ first :: resumed, run.opens = false) ∧
    ∀ rows, (batchedRuns reference cases file first resumed).1 = some rows →
      ∃ records n, rows = batchedFieldnames :: records.map BatchedRecord.row ∧
        ((batchedRuns reference cases file first resumed).2 = false → cases.take n = cases) ∧
        (∀ c ∈ cases.take n,
          CaseRecords (¬ ∀ run ∈ first :: resumed, run.Clean reference) c (recordsOf c records)) ∧
        (∀ c ∈ cases.drop n, recordsOf c records = []) ∧
        ((∀ run ∈ first :: resumed, run.Clean reference) →
          List.Forall₂ (fun c r => ScoredCase c r ∨ FailedCase c r) (cases.take n) records) ∧
        batchedSummary rows =
          ⟨records.length, records.countP BatchedRecord.ok, records.length - records.countP BatchedRecord.ok,
            records.countP BatchedRecord.correct⟩ := by
  have hdirty : ∀ run ∈ first :: resumed, ¬ run.Clean reference →
      ¬ ∀ run ∈ first :: resumed, run.Clean reference := fun run hrun hno hall => hno (hall run hrun)
  have h := runs_covered hnodup hids hfile resumed hdirty
  constructor
  · intro hnone
    unfold CoveredRuns at h
    rw [hnone] at h
    obtain ⟨hopened, hfailed⟩ := h
    exact ⟨hfailed, fun run hrun => Bool.eq_false_iff.mpr fun hopens => hopened ⟨run, hrun, hopens⟩⟩
  · intro rows hrows
    unfold CoveredRuns at h
    rw [hrows] at h
    obtain ⟨records, n, rfl, hcovers, hend⟩ := h
    have hsplit : (cases.take n ++ cases.drop n).map BenchmarkCase.caseId = cases.map BenchmarkCase.caseId := by
      rw [List.take_append_drop]
    rw [← hsplit, List.map_append, List.nodup_append] at hnodup
    obtain ⟨htake, _, hdisjoint⟩ := hnodup
    refine ⟨records, n, rfl, hend, covers_records hcovers htake, fun c hc => ?_, fun hclean => ?_,
      batchedSummary_records records⟩
    · apply recordsOf_none
      rw [covers_ids hcovers]
      exact fun hmem => hdisjoint _ hmem _ (List.mem_map_of_mem hc) rfl
    · exact covers_clean hcovers fun hno => hno hclean

/-! ## A run that fails and one that goes on -/

def secondCase : List BenchmarkCase := [⟨"gsm8k_0002", "2 + 2 = ?", "4"⟩]

def secondGeneration : Generation := ⟨["It is 4."], fun _ => 4, 32, "1.5", "2.666667"⟩

def memoryRunsOut : BatchedRun where
  opens := true
  batchSize := 1
  batchSize_pos := Nat.one_pos
  generate _ _ := .raised "OutOfMemoryError: CUDA out of memory.\n"
  printError _ := none
  errorText := id
  reports _ := true

def answersSecond : BatchedRun where
  opens := true
  batchSize := 10
  batchSize_pos := by simp
  generate _ cases := if cases = secondCase then .generated secondGeneration else .raised "OutOfMemoryError: \n"
  printError _ := none
  errorText := id
  reports _ := true

theorem memoryRunsOut_clean (reference : Option CsvFile) : memoryRunsOut.Clean reference := by
  intro batchIndex cases g h
  cases h

theorem answersSecond_clean : answersSecond.Clean none := by
  intro batchIndex cases g h
  unfold answersSecond at h
  dsimp only at h
  by_cases hc : cases = secondCase
  · rw [if_pos hc] at h
    cases h
    rw [hc]
    have hall : List.Forall₂ (fun (c : BenchmarkCase) (response : String) =>
        (isCorrect c.expectedAnswer.toList (extractPredictedAnswer response.toList)).isSome = true)
        secondCase secondGeneration.responses := .cons (by decide +kernel) .nil
    exact scoreBatch_none (fun _ => rfl) secondGeneration hall
  · rw [if_neg hc] at h
    cases h

theorem batched_runs_record_two : ∃ records, (batchedRuns none twoCases none memoryRunsOut [answersSecond]).1 =
      some (batchedFieldnames :: records.map BatchedRecord.row) ∧
    List.Forall₂ (fun c r => ScoredCase c r ∨ FailedCase c r) twoCases records := by
  have hwritten : (batchedRuns none twoCases none memoryRunsOut [answersSecond]).1.isSome = true := by decide +kernel
  obtain ⟨rows, hrows⟩ := Option.isSome_iff_exists.mp hwritten
  obtain ⟨records, n, rfl, hend, _, _, hclean, _⟩ := (batched_runs_record none twoCases (by decide)
    (by decide) none memoryRunsOut (.inl rfl) [answersSecond]).2 rows hrows
  have hall : ∀ run ∈ [memoryRunsOut, answersSecond], run.Clean none := by
    simpa using ⟨memoryRunsOut_clean none, answersSecond_clean⟩
  have hok : (batchedRuns none twoCases none memoryRunsOut [answersSecond]).2 = false := by decide +kernel
  exact ⟨records, hrows, hend hok ▸ hclean hall⟩

end InferenceService
