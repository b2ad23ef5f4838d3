import InferenceService.Scripts.BagelRecords
import Mathlib.Algebra.BigOperators.Group.List.Lemmas
import Mathlib.Data.List.Dedup

/-!
# `run_bagel_workload_manifest.py`: the summary of the records

What `main` does when the pool has ended, and which records it can sum up.
-/

namespace InferenceService

/-! ## `summarize_records` -/

/-- What an identifier is compared as: a bool and a float count as numbers. -/
inductive SourceKey where
  | null
  | number (x : Python.Float)
  | text (text : Python.Str)
deriving DecidableEq

namespace SourceKey

/-- `sorted` can tell the order of the two, or there is none to tell. -/
def comparable : SourceKey → SourceKey → Bool
  | null, null => true
  | number _, number _ => true
  | text _, text _ => true
  | _, _ => false

def le : SourceKey → SourceKey → Bool
  | number (.finite q), number (.finite q') => q ≤ q'
  | number (.infinite negative), number _ => negative
  | number _, number (.infinite negative) => !negative
  | text s, text s' => s ≤ s'
  | _, _ => false

end SourceKey

structure SourceSummary where
  sourceCaseId : SourceKey
  runsRequested : Nat
  runsSucceeded : Nat

structure BagelSummary where
  runsRequested : Nat
  runsSucceeded : Nat
  errorCounts : List (String × Nat)
  bySourceCase : List SourceSummary

def countError (errors : List (String × Nat)) (key : String) : List (String × Nat) :=
  match errors with
  | [] => [(key, 1)]
  | error :: errors => if error.1 = key then (key, error.2 + 1) :: errors else error :: countError errors key

/-- The class of what `float(value)` raises. -/
def checkFloat : Python.Value → Except String Unit
  | .int n => if |(n : ℚ)| < Python.floatBound then .ok () else .error "OverflowError"
  | .bool _ | .float _ => .ok ()
  | .str text =>
    match Python.encodeUtf8 text with
    | none => .error "ValueError"
    | some text => if (Python.floatText text.toList).isSome then .ok () else .error "ValueError"
  | .none | .list _ | .dict _ => .error "TypeError"

def sourceKey : Python.Value → Except String SourceKey
  | .none => .ok .null
  | .bool b => .ok (.number (.finite (if b then 1 else 0)))
  | .int n => .ok (.number (.finite n))
  | .float x => .ok (.number x)
  | .str text => .ok (.text text)
  | .list _ | .dict _ => .error "TypeError"

def BagelRecord.sourceCaseId (record : BagelRecord) : Python.Value := record.case.record.get "source_case_id"

/-- `sorted` of a set compares until it knows the order, so that it comes upon
two that cannot be compared when there are such. -/
def sortSources (keys : List SourceKey) : Except String (List SourceKey) :=
  if ∀ key ∈ keys, ∀ key' ∈ keys, key.comparable key' = true then .ok (keys.mergeSort SourceKey.le)
  else .error "TypeError"

/-- A NaN is not equal to itself, and its group is empty. -/
def summarizeSource (keyed : List (SourceKey × BagelRecord)) (sourceCaseId : SourceKey) :
    Except String SourceSummary :=
  let group := keyed.filter fun entry => entry.1 = sourceCaseId ∧ sourceCaseId ≠ .number .nan
  if group.isEmpty then .error "ZeroDivisionError"
  else .ok {
    sourceCaseId
    runsRequested := group.length
    runsSucceeded := (group.filter fun entry => entry.2.success).length }

def summarizeRecords (records : List BagelRecord) : Except String BagelSummary := do
  let successful := records.filter BagelRecord.success
  let _ ← (successful.filter fun record => record.serviceLatency ≠ .none).mapM fun record =>
    checkFloat record.serviceLatency
  let errorCounts := (records.filter fun record => !record.success).foldl
    (fun errors record => countError errors (if record.errorType = "" then "unknown" else record.errorType)) []
  let keys ← records.mapM fun record => sourceKey record.sourceCaseId
  let sources ← sortSources keys.dedup
  let bySourceCase ← sources.mapM (summarizeSource (keys.zip records))
  if records.isEmpty then .error "ZeroDivisionError"
  else .ok {
    runsRequested := records.length
    runsSucceeded := successful.length
    errorCounts
    bySourceCase }

/-! ## `main` after the pool -/

def workloadStatus (cases : List BagelCase) (summary : BagelSummary) : String :=
  if summary.runsSucceeded = cases.length then "status=PASS" else "status=PARTIAL_OR_FAILED"

/-- What else raises: the snapshot of the metrics, writing a row of
`records.jsonl`, the other files of the records and samples, and what depends on
the samples and the paths in the summary and the validation summary. -/
structure BagelSteps where
  snapshot : Except String Unit
  write : BagelRecord → Except String Unit
  files : Except String Unit
  report : Except String Unit

def writeRecord (S : BagelSteps) (record : BagelRecord) : Except String Unit :=
  if record.plain then S.write record else .error "UnicodeEncodeError"

def finishWorkload (S : BagelSteps) (cases : List BagelCase) (records : List BagelRecord) : Except String String := do
  S.snapshot
  let _ ← records.mapM (writeRecord S)
  S.files
  let summary ← summarizeRecords records
  S.report
  .ok (workloadStatus cases summary)

/-! ## Which records can be summed up -/

def IsNumber : Python.Value → Prop
  | .bool _ | .int _ => True
  | .float x => x ≠ .nan
  | .none | .str _ | .list _ | .dict _ => False

/-- The identifiers are texts, or numbers, or none is given. -/
def SortableIds (ids : List Python.Value) : Prop :=
  (∀ id ∈ ids, ∃ text, id = .str text) ∨ (∀ id ∈ ids, IsNumber id) ∨ ∀ id ∈ ids, id = .none

/-- Each success has a latency that is a number, or none. -/
def LatenciesKnown (records : List BagelRecord) : Prop :=
  ∀ record ∈ records, record.success = true → record.serviceLatency = .none ∨ checkFloat record.serviceLatency = .ok ()

section
variable {records : List BagelRecord} {keys : List SourceKey}

theorem sourceKey_ok {id : Python.Value} {key : SourceKey} (h : sourceKey id = .ok key) : match key with
    | .null => id = .none
    | .number x => x ≠ .nan → IsNumber id
    | .text text => id = .str text := by
  cases id with
  | none =>
    cases h
    rfl
  | bool b =>
    cases h
    exact fun _ => trivial
  | int n =>
    cases h
    exact fun _ => trivial
  | float x =>
    cases h
    exact id
  | str text =>
    cases h
    rfl
  | list items => cases h
  | dict items => cases h

theorem sourceKey_number {id : Python.Value} (h : IsNumber id) :
    ∃ x, x ≠ .nan ∧ sourceKey id = .ok (.number x) := by
  cases id with
  | bool b => exact ⟨.finite (if b then 1 else 0), nofun, rfl⟩
  | int n => exact ⟨.finite n, nofun, rfl⟩
  | float x => exact ⟨x, h, rfl⟩
  | _ => cases h

/-- The keys of identifiers that can be put in order. -/
structure KeysSorted (keys : List SourceKey) : Prop where
  comparable : ∀ key ∈ keys, ∀ key' ∈ keys, key.comparable key' = true
  equal : .number .nan ∉ keys

theorem sortable_of_keys {ids : List Python.Value} (h : ids.mapM sourceKey = .ok keys) (hkeys : KeysSorted keys) :
    SortableIds ids := by
  have hkey : ∀ id ∈ ids, ∃ key ∈ keys, sourceKey id = .ok key := by
    intro id hid
    obtain ⟨key, hk⟩ := Python.mapM_ok_iff.mp ⟨keys, h⟩ id hid
    exact ⟨key, (Python.mem_of_mapM h).mpr ⟨id, hid, hk⟩, hk⟩
  cases ids with
  | nil => exact .inl nofun
  | cons id₀ ids =>
    obtain ⟨key₀, hmem₀, _⟩ := hkey id₀ List.mem_cons_self
    cases key₀ with
    | null =>
      refine .inr (.inr fun id hid => ?_)
      obtain ⟨key, hmem, hk⟩ := hkey id hid
      have hcomparable := hkeys.comparable _ hmem₀ _ hmem
      cases key with
      | null => exact sourceKey_ok hk
      | number x => cases hcomparable
      | text text => cases hcomparable
    | number x₀ =>
      refine .inr (.inl fun id hid => ?_)
      obtain ⟨key, hmem, hk⟩ := hkey id hid
      have hcomparable := hkeys.comparable _ hmem₀ _ hmem
      cases key with
      | null => cases hcomparable
      | number x =>
        apply sourceKey_ok hk
        rintro rfl
        exact hkeys.equal hmem
      | text text => cases hcomparable
    | text text₀ =>
      refine .inl fun id hid => ?_
      obtain ⟨key, hmem, hk⟩ := hkey id hid
      have hcomparable := hkeys.comparable _ hmem₀ _ hmem
      cases key with
      | null => cases hcomparable
      | number x => cases hcomparable
      | text text => exact ⟨text, sourceKey_ok hk⟩

/-- All keys are of one kind. -/
theorem keys_of_kind {ids : List Python.Value} {kind : SourceKey → Prop}
    (hids : ∀ id ∈ ids, ∃ key, kind key ∧ sourceKey id = .ok key)
    (hcomparable : ∀ key key', kind key → kind key' → key.comparable key' = true) (hnan : ¬ kind (.number .nan)) :
    ∃ keys, ids.mapM sourceKey = .ok keys ∧ KeysSorted keys := by
  obtain ⟨keys, h⟩ := Python.mapM_ok_iff.mpr fun id hid => (hids id hid).imp fun _ hk => hk.2
  have hkind : ∀ key ∈ keys, kind key := by
    intro key hkey
    obtain ⟨id, hid, hk⟩ := (Python.mem_of_mapM h).mp hkey
    obtain ⟨key', hkind, hk'⟩ := hids id hid
    rw [hk] at hk'
    exact Except.ok.inj hk' ▸ hkind
  exact ⟨keys, h, fun key hkey key' hkey' => hcomparable key key' (hkind key hkey) (hkind key' hkey'),
    fun hmem => hnan (hkind _ hmem)⟩

theorem sortable_iff (ids : List Python.Value) :
    (∃ keys, ids.mapM sourceKey = .ok keys ∧ KeysSorted keys) ↔ SortableIds ids := by
  constructor
  · rintro ⟨keys, h, hkeys⟩
    exact sortable_of_keys h hkeys
  · rintro (htexts | hnumbers | hnone)
    · apply @keys_of_kind ids fun key => ∃ text, key = .text text
      · intro id hid
        obtain ⟨text, rfl⟩ := htexts id hid
        exact ⟨_, ⟨text, rfl⟩, rfl⟩
      · rintro _ _ ⟨text, rfl⟩ ⟨text', rfl⟩
        rfl
      · simp
    · apply @keys_of_kind ids fun key => ∃ x, x ≠ .nan ∧ key = .number x
      · intro id hid
        obtain ⟨x, hx, hk⟩ := sourceKey_number (hnumbers id hid)
        exact ⟨_, ⟨x, hx, rfl⟩, hk⟩
      · rintro _ _ ⟨x, _, rfl⟩ ⟨x', _, rfl⟩
        rfl
      · simp
    · apply @keys_of_kind ids fun key => key = .null
      · intro id hid
        obtain rfl := hnone id hid
        exact ⟨_, rfl, rfl⟩
      · rintro _ _ rfl rfl
        rfl
      · simp

/-! ## The groups -/

theorem sum_groups {ks : List SourceKey} (hks : ks.Nodup) {l : List (SourceKey × BagelRecord)}
    (hl : ∀ e ∈ l, e.1 ∈ ks) : (ks.map fun k => (l.filter fun e => e.1 = k).length).sum = l.length := by
  induction l with
  | nil => simp
  | cons e l ih =>
    have hone : (ks.map fun k => if e.1 = k then 1 else 0).sum = 1 := by
      rw [List.sum_map_eq_nsmul_single e.1 _ fun k hk _ => if_neg (Ne.symm hk)]
      simp [List.count_eq_one_of_mem hks (hl e List.mem_cons_self)]
    have hsplit : ∀ k, ((e :: l).filter fun e => e.1 = k).length =
        (l.filter fun e => e.1 = k).length + if e.1 = k then 1 else 0 := by
      intro k
      by_cases h : e.1 = k <;> simp [h]
    simp only [hsplit, List.sum_map_add, hone, List.length_cons]
    rw [ih fun e' he' => hl e' (List.mem_cons_of_mem _ he')]

theorem sortSources_ok_iff : (∃ sources, sortSources keys = .ok sources) ↔
    ∀ key ∈ keys, ∀ key' ∈ keys, key.comparable key' = true := by
  unfold sortSources
  split_ifs with h
  · exact ⟨fun _ => h, fun _ => ⟨_, rfl⟩⟩
  · exact ⟨nofun, fun h' => absurd h' h⟩

theorem sortSources_perm {sources : List SourceKey} (h : sortSources keys = .ok sources) : sources.Perm keys := by
  unfold sortSources at h
  split_ifs at h
  cases h
  exact List.mergeSort_perm ..

theorem keyed_mem (hlength : keys.length = records.length) {key : SourceKey} (hkey : key ∈ keys) :
    ∃ record, (key, record) ∈ keys.zip records := by
  have hkeys : (keys.zip records).map Prod.fst = keys := List.map_fst_zip (le_of_eq hlength)
  rw [← hkeys] at hkey
  obtain ⟨⟨_, record⟩, hmem, rfl⟩ := List.mem_map.mp hkey
  exact ⟨record, hmem⟩

theorem summarizeSource_ok {keyed : List (SourceKey × BagelRecord)} {key : SourceKey} {group : SourceSummary}
    (h : summarizeSource keyed key = .ok group) :
    group.runsRequested = (keyed.filter fun entry => entry.1 = key).length ∧
      group.runsSucceeded = ((keyed.filter fun entry => entry.2.success).filter fun entry => entry.1 = key).length := by
  by_cases hnan : key = .number .nan
  · subst hnan
    simp [summarizeSource] at h
  · simp only [summarizeSource, hnan, ne_eq, not_false_eq_true, and_true] at h
    split_ifs at h
    cases h
    exact ⟨rfl, by rw [List.filter_comm]⟩

theorem summarizeSource_ok_iff (hlength : keys.length = records.length) {key : SourceKey} (hkey : key ∈ keys) :
    (∃ group, summarizeSource (keys.zip records) key = .ok group) ↔ key ≠ .number .nan := by
  by_cases hnan : key = .number .nan
  · subst hnan
    simp [summarizeSource]
  · obtain ⟨record, hmem⟩ := keyed_mem hlength hkey
    have hgroup : ((keys.zip records).filter fun entry => entry.1 = key ∧ key ≠ .number .nan).isEmpty = false := by
      rw [List.isEmpty_eq_false_iff_exists_mem]
      exact ⟨_, List.mem_filter.mpr ⟨hmem, by simp [hnan]⟩⟩
    simp only [summarizeSource, hgroup, Bool.false_eq_true, if_false]
    exact ⟨fun _ => hnan, fun _ => ⟨_, rfl⟩⟩

theorem latenciesKnown_iff : (∃ units, ((records.filter BagelRecord.success).filter fun record =>
      record.serviceLatency ≠ .none).mapM (fun record => checkFloat record.serviceLatency) = .ok units) ↔
    LatenciesKnown records := by
  rw [Python.mapM_ok_iff]
  simp only [List.mem_filter, decide_eq_true_eq, and_imp, LatenciesKnown]
  refine forall_congr' fun record => forall_congr' fun _ => forall_congr' fun _ => ?_
  rw [or_iff_not_imp_left]
  exact forall_congr' fun _ => ⟨fun ⟨_, h⟩ => h, fun h => ⟨_, h⟩⟩

/-- What is computed on the way to a summary. -/
structure SummedUp (records : List BagelRecord) (summary : BagelSummary) (keys sources : List SourceKey) : Prop where
  latencies : LatenciesKnown records
  keyed : (records.map BagelRecord.sourceCaseId).mapM sourceKey = .ok keys
  sorted : sortSources keys.dedup = .ok sources
  groups : sources.mapM (summarizeSource (keys.zip records)) = .ok summary.bySourceCase
  written : records ≠ []
  runsRequested : summary.runsRequested = records.length
  runsSucceeded : summary.runsSucceeded = (records.filter BagelRecord.success).length
  errorCounts : summary.errorCounts = (records.filter fun record => !record.success).foldl
    (fun errors record => countError errors (if record.errorType = "" then "unknown" else record.errorType)) []

theorem summarizeRecords_ok {summary : BagelSummary} (h : summarizeRecords records = .ok summary) :
    ∃ keys sources, SummedUp records summary keys sources := by
  unfold summarizeRecords at h
  obtain ⟨units, hunits, h⟩ := Python.bind_eq_ok.mp h
  obtain ⟨keys, hkeys, h⟩ := Python.bind_eq_ok.mp h
  obtain ⟨sources, hsources, h⟩ := Python.bind_eq_ok.mp h
  obtain ⟨groups, hgroups, h⟩ := Python.bind_eq_ok.mp h
  split_ifs at h with hempty
  cases h
  refine ⟨keys, sources, latenciesKnown_iff.mp ⟨units, hunits⟩, ?_, hsources, hgroups, ?_, rfl, rfl, rfl⟩
  · rw [List.mapM_map]
    exact hkeys
  · rintro rfl
    exact hempty rfl

theorem SummedUp.length {summary : BagelSummary} {sources : List SourceKey}
    (h : SummedUp records summary keys sources) : keys.length = records.length := by
  have hlength := (Python.mapM_eq_ok.mp h.keyed).length_eq
  rw [List.length_map] at hlength
  exact hlength.symm

/-- The records can be summed up unless their identifiers cannot be put in order. -/
theorem summarize_ok_iff : (∃ summary, summarizeRecords records = .ok summary) ↔
    records ≠ [] ∧ LatenciesKnown records ∧ SortableIds (records.map BagelRecord.sourceCaseId) := by
  constructor
  · rintro ⟨summary, h⟩
    obtain ⟨keys, sources, h⟩ := summarizeRecords_ok h
    refine ⟨h.written, h.latencies, (sortable_iff _).mp ⟨keys, h.keyed, ?_, fun hmem => ?_⟩⟩
    · have hcomparable := sortSources_ok_iff.mp ⟨sources, h.sorted⟩
      simpa only [List.mem_dedup] using hcomparable
    · have hsource := (sortSources_perm h.sorted).mem_iff.mpr (List.mem_dedup.mpr hmem)
      have hgroup := Python.mapM_ok_iff.mp ⟨_, h.groups⟩ _ hsource
      exact (summarizeSource_ok_iff h.length hmem).mp hgroup rfl
  · rintro ⟨hwritten, hlatencies, hids⟩
    obtain ⟨units, hunits⟩ := latenciesKnown_iff.mpr hlatencies
    obtain ⟨keys, hkeys, hsorted⟩ := (sortable_iff _).mpr hids
    have hlength := (Python.mapM_eq_ok.mp hkeys).length_eq
    rw [List.length_map] at hlength
    rw [List.mapM_map] at hkeys
    have hcomparable := hsorted.comparable
    simp only [← List.mem_dedup (l := keys)] at hcomparable
    obtain ⟨sources, hsources⟩ := sortSources_ok_iff.mpr hcomparable
    have hgroup : ∀ key ∈ sources, ∃ group, summarizeSource (keys.zip records) key = .ok group := by
      intro key hkey
      have hmem := List.mem_dedup.mp ((sortSources_perm hsources).mem_iff.mp hkey)
      apply (summarizeSource_ok_iff hlength.symm hmem).mpr
      rintro rfl
      exact hsorted.equal hmem
    obtain ⟨groups, hgroups⟩ := Python.mapM_ok_iff.mpr hgroup
    have hempty : ¬ records.isEmpty = true := by simpa using hwritten
    refine ⟨_, Python.bind_eq_ok.mpr ⟨units, hunits, Python.bind_eq_ok.mpr ⟨keys, hkeys, Python.bind_eq_ok.mpr
      ⟨sources, hsources, Python.bind_eq_ok.mpr ⟨groups, hgroups, if_neg hempty⟩⟩⟩⟩⟩

/-! ## The numbers agree with the records -/

theorem countError_sum (errors : List (String × Nat)) (key : String) :
    ((countError errors key).map Prod.snd).sum = (errors.map Prod.snd).sum + 1 := by
  induction errors with
  | nil => rfl
  | cons error errors ih =>
    unfold countError
    by_cases hkey : error.1 = key
    · rw [if_pos hkey, List.map_cons, List.map_cons, List.sum_cons, List.sum_cons]
      omega
    · rw [if_neg hkey, List.map_cons, List.map_cons, List.sum_cons, List.sum_cons, ih]
      omega

theorem foldl_countError (key : BagelRecord → String) (records : List BagelRecord) (errors : List (String × Nat)) :
    ((records.foldl (fun errors record => countError errors (key record)) errors).map Prod.snd).sum =
      (errors.map Prod.snd).sum + records.length := by
  induction records generalizing errors with
  | nil => rfl
  | cons record records ih =>
    rw [List.foldl_cons, ih, countError_sum, List.length_cons]
    omega

/-- The numbers of a summary add up to those of the records. -/
structure SummaryTrue (records : List BagelRecord) (summary : BagelSummary) : Prop where
  runsRequested : summary.runsRequested = records.length
  runsSucceeded : summary.runsSucceeded = (records.filter BagelRecord.success).length
  errorCounts : (summary.errorCounts.map Prod.snd).sum + summary.runsSucceeded = summary.runsRequested
  sourcesRequested : (summary.bySourceCase.map SourceSummary.runsRequested).sum = summary.runsRequested
  sourcesSucceeded : (summary.bySourceCase.map SourceSummary.runsSucceeded).sum = summary.runsSucceeded

theorem groups_counts {keyed : List (SourceKey × BagelRecord)} {sources : List SourceKey} {groups : List SourceSummary}
    {count : SourceSummary → Nat} {f : SourceKey → Nat} (h : sources.mapM (summarizeSource keyed) = .ok groups)
    (hcount : ∀ key group, summarizeSource keyed key = .ok group → count group = f key) :
    (groups.map count).sum = (sources.map f).sum := by
  rw [Python.mapM_eq_ok] at h
  congr 1
  induction h with
  | nil => rfl
  | cons hgroup _ ih => rw [List.map_cons, List.map_cons, hcount _ _ hgroup, ih]

theorem SummedUp.summaryTrue {summary : BagelSummary} {sources : List SourceKey}
    (h : SummedUp records summary keys sources) : SummaryTrue records summary := by
  have hperm := sortSources_perm h.sorted
  have hnodup : sources.Nodup := hperm.nodup_iff.mpr (List.nodup_dedup _)
  have hmem : ∀ e ∈ keys.zip records, e.1 ∈ sources := by
    intro e he
    exact hperm.mem_iff.mpr (List.mem_dedup.mpr (List.of_mem_zip he).1)
  refine ⟨h.runsRequested, h.runsSucceeded, ?_, ?_, ?_⟩
  · rw [h.errorCounts, foldl_countError, h.runsSucceeded, h.runsRequested]
    have hsplit := List.length_eq_length_filter_add (l := records) BagelRecord.success
    simp only [List.map_nil, List.sum_nil]
    omega
  · rw [groups_counts h.groups fun key group hgroup => (summarizeSource_ok hgroup).1, sum_groups hnodup hmem,
      h.runsRequested, List.length_zip, h.length, Nat.min_self]
  · rw [groups_counts h.groups fun key group hgroup => (summarizeSource_ok hgroup).2,
      sum_groups hnodup fun e he => hmem e (List.mem_filter.mp he).1, h.runsSucceeded]
    have hrecords : (keys.zip records).map Prod.snd = records := List.map_snd_zip (le_of_eq h.length.symm)
    conv_rhs => rw [← hrecords, List.filter_map, List.length_map]
    rfl

theorem status_pass {cases : List BagelCase} {summary : BagelSummary} (hlength : records.length = cases.length)
    (h : SummaryTrue records summary) :
    workloadStatus cases summary = "status=PASS" ↔ ∀ record ∈ records, record.success = true := by
  unfold workloadStatus
  rw [← List.length_filter_eq_length_iff, ← h.runsSucceeded, hlength]
  by_cases hall : summary.runsSucceeded = cases.length <;> simp [hall]

/-! ## When there is a status -/

/-- No step but the summary raises. -/
structure BagelSteps.Quiet (S : BagelSteps) (records : List BagelRecord) : Prop where
  snapshot : S.snapshot = .ok ()
  write : ∀ record ∈ records, S.write record = .ok ()
  files : S.files = .ok ()
  report : S.report = .ok ()

theorem writeRecord_ok_iff {S : BagelSteps} {record : BagelRecord} :
    (∃ u, writeRecord S record = .ok u) ↔ record.plain = true ∧ S.write record = .ok () := by
  unfold writeRecord
  by_cases hplain : record.plain = true
  · rw [if_pos hplain]
    exact ⟨fun ⟨_, h⟩ => ⟨hplain, h⟩, fun h => ⟨_, h.2⟩⟩
  · rw [if_neg hplain]
    exact ⟨nofun, fun h => absurd h.1 hplain⟩

theorem finish_ok {S : BagelSteps} {cases : List BagelCase} {status : String}
    (h : finishWorkload S cases records = .ok status) :
    ∃ summary, summarizeRecords records = .ok summary ∧ status = workloadStatus cases summary := by
  obtain ⟨_, _, h⟩ := Python.bind_eq_ok.mp h
  obtain ⟨_, _, h⟩ := Python.bind_eq_ok.mp h
  obtain ⟨_, _, h⟩ := Python.bind_eq_ok.mp h
  obtain ⟨summary, hsummary, h⟩ := Python.bind_eq_ok.mp h
  obtain ⟨_, _, h⟩ := Python.bind_eq_ok.mp h
  cases h
  exact ⟨summary, hsummary, rfl⟩

theorem finish_ok_iff {S : BagelSteps} {cases : List BagelCase} :
    (∃ status, finishWorkload S cases records = .ok status) ↔ S.Quiet records ∧
      (∀ record ∈ records, record.plain = true) ∧ ∃ summary, summarizeRecords records = .ok summary := by
  constructor
  · rintro ⟨status, h⟩
    obtain ⟨_, hsnapshot, h⟩ := Python.bind_eq_ok.mp h
    obtain ⟨units, hwrite, h⟩ := Python.bind_eq_ok.mp h
    obtain ⟨_, hfiles, h⟩ := Python.bind_eq_ok.mp h
    obtain ⟨summary, hsummary, h⟩ := Python.bind_eq_ok.mp h
    obtain ⟨_, hreport, h⟩ := Python.bind_eq_ok.mp h
    have hrecord := fun record hmem => writeRecord_ok_iff.mp (Python.mapM_ok_iff.mp ⟨units, hwrite⟩ record hmem)
    exact ⟨⟨hsnapshot, fun record hmem => (hrecord record hmem).2, hfiles, hreport⟩,
      fun record hmem => (hrecord record hmem).1, summary, hsummary⟩
  · rintro ⟨hquiet, hplain, summary, hsummary⟩
    obtain ⟨units, hunits⟩ := Python.mapM_ok_iff.mpr fun record hmem =>
      writeRecord_ok_iff.mpr ⟨hplain record hmem, hquiet.write record hmem⟩
    exact ⟨_, Python.bind_eq_ok.mpr ⟨_, hquiet.snapshot, Python.bind_eq_ok.mpr ⟨units, hunits, Python.bind_eq_ok.mpr
      ⟨_, hquiet.files, Python.bind_eq_ok.mpr ⟨summary, hsummary, Python.bind_eq_ok.mpr
        ⟨_, hquiet.report, rfl⟩⟩⟩⟩⟩⟩

end

end InferenceService
