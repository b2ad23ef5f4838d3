import InferenceService.Gateway.JobHttp
import InferenceService.Gateway.JobReads

/-!
# `run_text_workload_manifest.py` in mode `jobs`

Runners that submit the cases of their manifests one after the other and poll
each job until it has finished, while the service goes on.
-/

namespace InferenceService

/-! ## The script -/

/-- `build_payload`; `readText` reads a document, and `none` is an exception. -/
def buildPayload (readText : Python.Value → Option Python.Str) (record : Python.Dict) : Option Python.Dict := do
  let prompt ← record.get? (Python.str "prompt")
  let prompt ← match record.get? (Python.str "document_path") with
    | none => some prompt
    | some path => do
      let document ← readText path
      match record.get? (Python.str "prompt_suffix") with
      | some (.str suffix) => some (.str (document ++ suffix))
      | _ => none
  some [(Python.str "prompt", prompt),
    (Python.str "max_new_tokens", (record.get? (Python.str "max_new_tokens")).getD (.int 128)),
    (Python.str "temperature", (record.get? (Python.str "temperature")).getD (.float (.finite 0))),
    (Python.str "thinking_budget", (record.get? (Python.str "thinking_budget")).getD (.int 0))]

def resultColumns : List (String × String) := [
  ("model_latency_seconds", "latency_seconds"), ("input_tokens", "input_tokens"),
  ("output_tokens", "output_tokens"), ("total_tokens", "total_tokens"),
  ("tokens_per_second", "tokens_per_second"), ("route", "route"), ("primary_attempts", "primary_attempts"),
  ("fallback_thinking_budget", "fallback_thinking_budget"), ("request_id", "request_id"),
  ("model_name", "model_name"), ("backend", "backend")]

def itemOrNone (d : Python.Dict) (key : String) : Python.Value := (d.get? (Python.str key)).getD .none

/-- A row of `records.jsonl`, apart from the two latencies that the script measures. -/
structure WorkloadRecord where
  caseId : Python.Value
  scenario : Python.Value
  sequence : Nat
  httpStatusCode : Option Nat
  serviceStatus : Python.Value
  succeeded : Bool
  columns : List (String × Python.Value)
  errorType : Python.Value
  errorMessage : Python.Value
  response : Python.Value
  serviceBody : Python.Dict

/-- The line of `codegen_responses.jsonl`. -/
def WorkloadRecord.codegenLine (record : WorkloadRecord) : Python.Dict := [
  (Python.str "case_id", record.caseId),
  (Python.str "response", if record.response.truthy then record.response else .str []),
  (Python.str "succeeded", .bool record.succeeded),
  (Python.str "http_status_code", .ofInt? (record.httpStatusCode.map Int.ofNat)),
  (Python.str "service_status", record.serviceStatus)]

/-- The line of output. -/
def WorkloadRecord.caseLine (record : WorkloadRecord) : Python.Dict := [
  (Python.str "sequence", .int record.sequence), (Python.str "case_id", record.caseId),
  (Python.str "service_status", record.serviceStatus), (Python.str "succeeded", .bool record.succeeded),
  (Python.str "http_status_code", .ofInt? (record.httpStatusCode.map Int.ofNat))]

def resultFromBody (body : Python.Dict) : Python.Dict :=
  match body.get? (Python.str "result") with
  | some (.dict result) => result
  | _ => []

def workloadRecord (caseId : Python.Value) (source : Python.Dict) (sequence : Nat) (httpStatusCode : Option Nat)
    (body : Python.Dict) (serviceStatus : Python.Value) : WorkloadRecord :=
  let result := resultFromBody body
  let response := itemOrNone result "response"
  { caseId
    scenario := itemOrNone source "scenario"
    sequence
    httpStatusCode
    serviceStatus
    succeeded := serviceStatus = .str (Python.str "succeeded") && match response with
      | .str _ => true
      | _ => false
    columns := resultColumns.map fun column => (column.1, itemOrNone result column.2)
    errorType := itemOrNone body "error_type"
    errorMessage := itemOrNone body "error_message"
    response
    serviceBody := body }

/-- `state.get("status") in {"succeeded", "failed"}`. -/
def isFinalStatus : Python.Value → Except Python.Exception Bool
  | .str text => .ok (text = Python.str "succeeded" || text = Python.str "failed")
  | .list _ => .error ⟨"TypeError", Python.str "unhashable type: 'list'"⟩
  | .dict _ => .error ⟨"TypeError", Python.str "unhashable type: 'dict'"⟩
  | _ => .ok false

/-! ## A runner -/

/-- Where `run_job` is: before its submission, at the head of its loop, or in it;
then which line of the last record is written. -/
inductive JobPhase where
  | submitting (payload : Python.Dict)
  | waiting (jobId : Python.Value)
  | polling (jobId : Python.Value)
  | appending
  | printing

/-- The records so far and the cases to come, of which the first is running while
no line is written; a runner without a phase has ended or raised. -/
structure Runner where
  records : List WorkloadRecord
  rows : List Python.Dict
  phase : Option JobPhase

namespace Runner

variable (readText : Python.Value → Option Python.Str)

def start (records : List WorkloadRecord) (rows : List Python.Dict) : Runner where
  records
  rows
  phase := do
    let row ← rows.head?
    let _ ← row.get? (Python.str "case_id")
    let payload ← buildPayload readText row
    some (.submitting payload)

/-- `records.append`, before the lines of the record are written. -/
def append (r : Runner) (httpStatusCode : Option Nat) (body : Python.Dict) (serviceStatus : Python.Value) : Runner :=
  match r.rows with
  | [] => r
  | row :: rows =>
    let record := workloadRecord (itemOrNone row "case_id") row (r.records.length + 1) httpStatusCode body serviceStatus
    { records := r.records ++ [record]
      rows
      phase := some <|
        if record.scenario = .str (Python.str "code_generation_functional") then .appending else .printing }

def appended (r : Runner) (written : Bool) : Runner := { r with phase := if written then some .printing else none }

/-- The end of the turn, and the next turn. -/
def printed (r : Runner) (written : Bool) : Runner :=
  if written then start readText r.records r.rows else { r with phase := none }

def returned (r : Runner) (httpStatusCode : Option Nat) (body : Python.Dict) : Runner :=
  r.append httpStatusCode body ((body.get? (Python.str "status")).getD (.str (Python.str "unknown")))

def raised (r : Runner) (exc : Python.Exception) : Runner :=
  r.append none [(Python.str "status", .str (Python.str "client_exception")),
    (Python.str "error_type", .str (Python.str exc.typeName)),
    (Python.str "error_message", .str exc.text)] (.str (Python.str "client_exception"))

def submitted (r : Runner) : JsonReply → Runner
  | .error exc => r.raised exc
  | .ok (submitStatus, accepted) =>
    if submitStatus ≠ 202 then r.returned (some submitStatus) accepted
    else
      match accepted.get? (Python.str "job_id") with
      | none => r.raised ⟨"KeyError", Python.str "'job_id'"⟩
      | some jobId => { r with phase := some (.waiting jobId) }

def timed (timeoutText : Python.Str) (r : Runner) (jobId : Python.Value) (early : Bool) : Runner :=
  if early then { r with phase := some (.polling jobId) }
  else r.returned none [(Python.str "job_id", jobId), (Python.str "status", .str (Python.str "poll_timeout")),
    (Python.str "error_message", .str (Python.str "job exceeded " ++ timeoutText ++ Python.str "s"))]

def polled (r : Runner) (jobId : Python.Value) : JsonReply → Runner
  | .error exc => r.raised exc
  | .ok (statusCode, state) =>
    match isFinalStatus (itemOrNone state "status") with
    | .error exc => r.raised exc
    | .ok true => r.returned (some statusCode) state
    | .ok false => { r with phase := some (.waiting jobId) }

def dialogue (timeoutText : Python.Str) : Dialogue Runner JobCall JobCall.Answer where
  view r := r.phase.bind fun
    | .submitting payload => some ⟨.postJobs payload, r.submitted⟩
    | .waiting jobId => some ⟨.beforeDeadline, r.timed timeoutText jobId⟩
    | .polling jobId => some ⟨.getJob jobId, r.polled jobId⟩
    | .appending => r.records.getLast?.map fun record => ⟨.appendLine record.codegenLine, r.appended⟩
    | .printing => r.records.getLast?.map fun record => ⟨.printLine record.caseLine, r.printed readText⟩

end Runner

section
variable {W R : Type} [DecidableEq W] (dumps : Python.Value → Except DumpsError String)
  (loads : String → Except String Python.Value) (A : RequestApi Python.Value R) (P : Pydantic) (M : ResponseModels)
  (readText : Python.Value → Option Python.Str) (timeoutText : Python.Str) (start : W → JobWorker)

abbrev WorkloadState (W R : Type) := Crowd (Service W Python.Value R) Runner (List Python.Dict) JobCall JobCall.Answer

def workload : Lts (WorkloadState W R) (Crowd.Act JobInput (ServiceAct W Python.Value R) (List Python.Dict)) :=
  Crowd.system (Runner.dialogue readText timeoutText) (jobEndpoints dumps loads A P M) (Runner.start readText [])
    (service (valueJson dumps loads) A start).init

end

/-! ## What a record is true of -/

section
variable {W R : Type} (A : RequestApi Python.Value R) (readText : Python.Value → Option Python.Str)

/-- The record tells what `generate_text` did with the request of the case. -/
structure RecordTrue (s : Service W Python.Value R) (row : Python.Dict) (record : WorkloadRecord) : Prop where
  caseId : row.get? (Python.str "case_id") = some record.caseId
  succeeded : record.succeeded = true → ∃ payload request result, buildPayload readText row = some payload ∧
    A.ofPayload (.dict payload) = .ok request ∧ (request, .ok (.dict result)) ∈ s.generated ∧
    Python.Dict.get? result (Python.str "response") = some record.response
  failed : record.serviceStatus = .str (Python.str "failed") → ∃ payload request exc message,
    buildPayload readText row = some payload ∧ A.ofPayload (.dict payload) = .ok request ∧
    record.errorType = .str (Python.str exc.typeName) ∧ exc.message = .ok message ∧
    record.errorMessage = .str (message.take 1000) ∧
    ((request, .error exc) ∈ s.generated ∨ exc = raisedWith "TypeError" "generate_text must return a mapping" ∧
      ∃ result, (request, .ok result) ∈ s.generated ∧ ∀ items, result ≠ .dict items)

def PhaseSubmitted (s : Service W Python.Value R) (payload : Python.Dict) : JobPhase → Prop
  | .submitting payload' => payload' = payload
  | .waiting jobId | .polling jobId => ∃ j request, jobId = .str (Python.str j) ∧
      A.ofPayload (.dict payload) = .ok request ∧ (j, request) ∈ s.submitted
  | .appending | .printing => False

def JobPhase.writes : JobPhase → Bool
  | submitting _ | waiting _ | polling _ => false
  | appending | printing => true

/-- What a runner has done of its manifest. -/
structure RunnerTrue (s : Service W Python.Value R) (manifest : List Python.Dict) (r : Runner) : Prop where
  rows : ∃ done, manifest = done ++ r.rows ∧ List.Forall₂ (RecordTrue A readText s) done r.records
  phase : ∀ phase ∈ r.phase, phase.writes = false → ∃ row rest payload, r.rows = row :: rest ∧
    row.get? (Python.str "case_id") = some (itemOrNone row "case_id") ∧ buildPayload readText row = some payload ∧
    PhaseSubmitted A s payload phase

variable {A readText} {s s' : Service W Python.Value R} {manifest rows : List Python.Dict} {r : Runner}

theorem RecordTrue.mono {row : Python.Dict} {record : WorkloadRecord} (h : RecordTrue A readText s row record)
    (hsub : s.generated ⊆ s'.generated) : RecordTrue A readText s' row record where
  caseId := h.caseId
  succeeded hs := by
    obtain ⟨payload, request, result, hp, ha, hg, hr⟩ := h.succeeded hs
    exact ⟨payload, request, result, hp, ha, hsub hg, hr⟩
  failed hf := by
    obtain ⟨payload, request, exc, message, hp, ha, ht, hm, hcut, hg⟩ := h.failed hf
    refine ⟨payload, request, exc, message, hp, ha, ht, hm, hcut, ?_⟩
    rcases hg with hg | ⟨hexc, result, hg, hdict⟩
    · exact .inl (hsub hg)
    · exact .inr ⟨hexc, result, hsub hg, hdict⟩

theorem PhaseSubmitted.mono {payload : Python.Dict} {phase : JobPhase} (h : PhaseSubmitted A s payload phase)
    (hsub : s.submitted ⊆ s'.submitted) : PhaseSubmitted A s' payload phase := by
  cases phase with
  | submitting payload' => exact h
  | waiting jobId =>
    obtain ⟨j, request, hj, ha, hmem⟩ := h
    exact ⟨j, request, hj, ha, hsub hmem⟩
  | polling jobId =>
    obtain ⟨j, request, hj, ha, hmem⟩ := h
    exact ⟨j, request, hj, ha, hsub hmem⟩
  | appending => exact h
  | printing => exact h

theorem RunnerTrue.mono (h : RunnerTrue A readText s manifest r) (hsubmitted : s.submitted ⊆ s'.submitted)
    (hgenerated : s.generated ⊆ s'.generated) : RunnerTrue A readText s' manifest r where
  rows := by
    obtain ⟨done, hm, hall⟩ := h.rows
    exact ⟨done, hm, hall.imp fun _ _ hrec => hrec.mono hgenerated⟩
  phase phase hp hcase := by
    obtain ⟨row, rest, payload, hr, hid, hb, hphase⟩ := h.phase phase hp hcase
    exact ⟨row, rest, payload, hr, hid, hb, hphase.mono hsubmitted⟩

/-! ## Turns -/

theorem runnerTrue_start {done : List Python.Dict} {records : List WorkloadRecord} (hm : manifest = done ++ rows)
    (hall : List.Forall₂ (RecordTrue A readText s) done records) :
    RunnerTrue A readText s manifest (Runner.start readText records rows) where
  rows := ⟨done, hm, hall⟩
  phase phase hp _ := by
    obtain ⟨row, hrow, hp⟩ := Option.bind_eq_some_iff.mp hp
    obtain ⟨caseId, hid, hp⟩ := Option.bind_eq_some_iff.mp hp
    obtain ⟨payload, hb, hp⟩ := Option.bind_eq_some_iff.mp hp
    obtain rfl := Option.some.inj hp
    obtain ⟨rest, rfl⟩ := List.head?_eq_some_iff.mp hrow
    refine ⟨row, rest, payload, rfl, ?_, hb, rfl⟩
    unfold itemOrNone
    rw [hid]
    rfl

/-- No case is running while lines are written. -/
theorem RunnerTrue.between (h : RunnerTrue A readText s manifest r) {phase : Option JobPhase}
    (hwrites : ∀ p ∈ phase, p.writes = true) : RunnerTrue A readText s manifest { r with phase } where
  rows := h.rows
  phase p hp hcase := by
    rw [hwrites p hp] at hcase
    cases hcase

theorem RunnerTrue.appended (h : RunnerTrue A readText s manifest r) (written : Bool) :
    RunnerTrue A readText s manifest (r.appended written) := by
  apply h.between
  cases written <;> simp [JobPhase.writes]

theorem RunnerTrue.printed (h : RunnerTrue A readText s manifest r) (written : Bool) :
    RunnerTrue A readText s manifest (r.printed readText written) := by
  unfold Runner.printed
  by_cases hw : written = true
  · rw [if_pos hw]
    obtain ⟨done, hm, hall⟩ := h.rows
    exact runnerTrue_start hm hall
  · rw [if_neg hw]
    exact h.between (by simp)

theorem RunnerTrue.append {row : Python.Dict} {rest : List Python.Dict} (h : RunnerTrue A readText s manifest r)
    (hr : r.rows = row :: rest) {code : Option Nat} {body : Python.Dict} {status : Python.Value}
    (hrec : RecordTrue A readText s row
      (workloadRecord (itemOrNone row "case_id") row (r.records.length + 1) code body status)) :
    RunnerTrue A readText s manifest (r.append code body status) := by
  obtain ⟨done, hm, hall⟩ := h.rows
  unfold Runner.append
  rw [hr]
  rw [hr] at hm
  have hall' : List.Forall₂ (RecordTrue A readText s) (done ++ [row]) (r.records ++
      [workloadRecord (itemOrNone row "case_id") row (r.records.length + 1) code body status]) :=
    List.rel_append hall (.cons hrec .nil)
  refine ⟨⟨done ++ [row], by simpa using hm, hall'⟩, fun phase hp hcase => ?_⟩
  obtain rfl := Option.some.inj hp
  split_ifs at hcase <;> cases hcase

theorem succeeded_record {caseId : Python.Value} {source : Python.Dict} {sequence : Nat} {code : Option Nat}
    {body : Python.Dict} {status : Python.Value}
    (h : (workloadRecord caseId source sequence code body status).succeeded = true) :
    status = .str (Python.str "succeeded") ∧
      ∃ text, (workloadRecord caseId source sequence code body status).response = .str text := by
  unfold workloadRecord at h ⊢
  dsimp only at h ⊢
  cases hr : itemOrNone (resultFromBody body) "response" with
  | str text => exact ⟨by simpa [hr] using h, text, rfl⟩
  | _ => simp [hr] at h

theorem recordTrue_idle {row : Python.Dict} {sequence : Nat} {code : Option Nat} {body : Python.Dict}
    {status : Python.Value} (hid : row.get? (Python.str "case_id") = some (itemOrNone row "case_id"))
    (hs : status ≠ .str (Python.str "succeeded")) (hf : status ≠ .str (Python.str "failed")) :
    RecordTrue A readText s row (workloadRecord (itemOrNone row "case_id") row sequence code body status) where
  caseId := hid
  succeeded h := by
    simp [workloadRecord, hs] at h
  failed h := absurd h hf

theorem RunnerTrue.raised (h : RunnerTrue A readText s manifest r) {phase : JobPhase} (hp : phase ∈ r.phase)
    (hcase : phase.writes = false) (exc : Python.Exception) : RunnerTrue A readText s manifest (r.raised exc) := by
  obtain ⟨row, rest, payload, hr, hid, _⟩ := h.phase phase hp hcase
  apply h.append hr
  exact recordTrue_idle hid (by simp [Python.str_inj]) (by simp [Python.str_inj])

theorem RunnerTrue.idle (h : RunnerTrue A readText s manifest r) {phase : JobPhase} (hp : phase ∈ r.phase)
    (hcase : phase.writes = false) {code : Option Nat} {body : Python.Dict}
    (hs : body.get? (Python.str "status") ≠ some (.str (Python.str "succeeded")))
    (hf : body.get? (Python.str "status") ≠ some (.str (Python.str "failed"))) :
    RunnerTrue A readText s manifest (r.returned code body) := by
  obtain ⟨row, rest, payload, hr, hid, _⟩ := h.phase phase hp hcase
  apply h.append hr
  cases hstatus : body.get? (Python.str "status") with
  | none => exact recordTrue_idle hid (by simp [Python.str_inj]) (by simp [Python.str_inj])
  | some status =>
    rw [hstatus] at hs hf
    exact recordTrue_idle hid (fun h => hs (congrArg some h)) (fun h => hf (congrArg some h))

theorem RunnerTrue.phased (h : RunnerTrue A readText s manifest r) {phase phase' : JobPhase} (hp : phase ∈ r.phase)
    (hcase : phase.writes = false)
    (hnext : ∀ payload, PhaseSubmitted A s payload phase → PhaseSubmitted A s payload phase') :
    RunnerTrue A readText s manifest { r with phase := some phase' } where
  rows := h.rows
  phase := by
    intro _ hq _
    obtain rfl := Option.some.inj hq
    obtain ⟨row, rest, payload, hr, hid, hb, hphase⟩ := h.phase phase hp hcase
    exact ⟨row, rest, payload, hr, hid, hb, hnext payload hphase⟩

theorem RunnerTrue.timed (h : RunnerTrue A readText s manifest r) {jobId : Python.Value}
    (hp : JobPhase.waiting jobId ∈ r.phase) (timeoutText : Python.Str) (early : Bool) :
    RunnerTrue A readText s manifest (r.timed timeoutText jobId early) := by
  unfold Runner.timed
  by_cases he : early = true
  · rw [if_pos he]
    exact h.phased hp rfl fun _ hphase => hphase
  · rw [if_neg he]
    exact h.idle hp rfl (by simp [Python.str_inj]) (by simp [Python.str_inj])

end

section
variable {W R : Type} [DecidableEq W] {dumps : Python.Value → Except DumpsError String}
  {loads : String → Except String Python.Value} {A : RequestApi Python.Value R} {P : Pydantic} {M : ResponseModels}
  {readText : Python.Value → Option Python.Str} {start : W → JobWorker} {s s' : Service W Python.Value R}
  {manifest : List Python.Dict} {r : Runner} {input : JobInput}

theorem RunnerTrue.submitted (hM : M.Faithful P) (h : RunnerTrue A readText s' manifest r) {payload : Python.Dict}
    (hp : JobPhase.submitting payload ∈ r.phase) {reply : JsonReply}
    (hserve : postJobsReply dumps loads A M s payload input = some (reply, s')) :
    RunnerTrue A readText s' manifest (r.submitted reply) := by
  cases reply with
  | error exc => exact h.raised hp rfl exc
  | ok reply =>
    obtain ⟨code, body⟩ := reply
    unfold Runner.submitted
    by_cases hcode : code = 202
    · subst hcode
      obtain ⟨j, request, hid, ha, hmem⟩ := postJobs_accepted hM hserve
      dsimp only
      rw [if_neg (by simp), hid]
      refine h.phased hp rfl fun payload' hphase => ?_
      obtain rfl : payload = payload' := hphase
      exact ⟨j, request, rfl, ha, hmem⟩
    · dsimp only
      rw [if_pos hcode]
      have hno := postJobs_status hcode hserve
      exact h.idle hp rfl (by simp [hno]) (by simp [hno])

theorem status_value_inj {status status' : JobStatus} (h : status.value = status'.value) : status = status' := by
  cases status <;> cases status' <;> first | rfl | simp [JobStatus.value] at h

theorem toDict_result (st : JobState Python.Value) : st.toDict.get? (Python.str "result") = st.result := by
  simp [JobState.toDict, Python.Dict.get?_append, Python.str_inj]

theorem toDict_error {st : JobState Python.Value} {errorType errorMessage : String}
    (htype : st.errorType = some errorType) (hmessage : st.errorMessage = some errorMessage) :
    st.toDict.get? (Python.str "error_type") = some (.str (Python.str errorType)) ∧
      st.toDict.get? (Python.str "error_message") = some (.str (Python.str errorMessage)) := by
  simp [JobState.toDict, Python.Dict.get?_append, Python.str_inj, htype, hmessage]

theorem dict_of_isDict {value : Python.Value} (h : (valueJson dumps loads).isDict value = true) :
    ∃ items, value = .dict items := by
  cases value with
  | dict items => exact ⟨items, rfl⟩
  | _ => cases h

theorem recordTrue_of_job (hJ : (valueJson dumps loads).RoundTrips) (hA : A.RoundTrips (valueJson dumps loads))
    (hM : M.Faithful P) (hs : (service (valueJson dumps loads) A start).Reachable s) {row payload : Python.Dict}
    (hid : row.get? (Python.str "case_id") = some (itemOrNone row "case_id"))
    (hb : buildPayload readText row = some payload) {j : String} {request : R}
    (ha : A.ofPayload (.dict payload) = .ok request) (hmem : (j, request) ∈ s.submitted)
    {st : JobState Python.Value} (hst : s.queue.redis.job j = some st)
    (hv : validates (jobStatusResponse P) st.toDict = true) {sequence : Nat} {code : Option Nat} :
    RecordTrue A readText s row (workloadRecord (itemOrNone row "case_id") row sequence code
      (M.jobStatus st.toDict) (.str (Python.str st.status.value))) := by
  obtain ⟨request', hmem', htells⟩ := record_tells hJ hA hs hst
  obtain rfl : request' = request := by
    have hsame := List.inj_on_of_nodup_map (submitted_nodup hs) hmem' hmem rfl
    exact congrArg Prod.snd hsame
  refine ⟨hid, fun hsucceeded => ?_, fun hfailed => ?_⟩
  · obtain ⟨hstatus, response, hresponse⟩ := succeeded_record hsucceeded
    have hst' : st.status = .succeeded := status_value_inj (Python.str_inj.mp (Python.Value.str.inj hstatus))
    rcases htells (.inl hst') with ⟨result, _, hresult, hdict, hgenerated⟩ | ⟨_, _, _, hno, _⟩
    · obtain ⟨items, rfl⟩ := dict_of_isDict hdict
      obtain ⟨items', hsent, hsame⟩ := hM.result _ hv items (by rw [toDict_result, hresult])
      refine ⟨payload, request', items, hb, ha, hgenerated, ?_⟩
      rw [hresponse, ← hsame]
      simp only [workloadRecord, resultFromBody, hsent, itemOrNone] at hresponse
      cases hitem : Python.Dict.get? items' (Python.str "response") with
      | none => simp [hitem] at hresponse
      | some value =>
        rw [hitem] at hresponse
        exact congrArg some hresponse
    · rw [hst'] at hno
      cases hno
  · have hst' : st.status = .failed := status_value_inj (Python.str_inj.mp (Python.Value.str.inj hfailed))
    rcases htells (.inr hst') with ⟨_, hno, _⟩ | ⟨exc, message, text, _, htype, hm, hmessage, hcut, hmade⟩
    · rw [hst'] at hno
      cases hno
    · obtain ⟨hdtype, hdmessage⟩ := toDict_error htype hmessage
      have hsent := fun key hkey => hM.texts _ hv key hkey
      refine ⟨payload, request', exc, message, hb, ha, ?_, hm, ?_, ?_⟩
      · simp [workloadRecord, itemOrNone, hsent "error_type" (by simp) _ hdtype]
      · simp [workloadRecord, itemOrNone, hsent "error_message" (by simp) _ hdmessage, hcut]
      · rcases hmade with hmade | ⟨hexc, result, hmade, hdict⟩
        · exact .inl hmade
        · refine .inr ⟨hexc, result, hmade, ?_⟩
          rintro items rfl
          cases hdict

theorem RunnerTrue.polled (hJ : (valueJson dumps loads).RoundTrips) (hA : A.RoundTrips (valueJson dumps loads))
    (hM : M.Faithful P) (hs : (service (valueJson dumps loads) A start).Reachable s)
    (h : RunnerTrue A readText s manifest r) {jobId : Python.Value} (hp : JobPhase.polling jobId ∈ r.phase)
    {reply : JsonReply} (hserve : getJobReply dumps loads P M s jobId input = some (reply, s')) :
    RunnerTrue A readText s manifest (r.polled jobId reply) := by
  cases reply with
  | error exc => exact h.raised hp rfl exc
  | ok reply =>
    obtain ⟨code, body⟩ := reply
    unfold Runner.polled
    dsimp only
    cases hfinal : isFinalStatus (itemOrNone body "status") with
    | error exc => exact h.raised hp rfl exc
    | ok final =>
      cases final with
      | false => exact h.phased hp rfl fun _ hphase => hphase
      | true =>
        have hsome : body.get? (Python.str "status") = some (itemOrNone body "status") := by
          unfold itemOrNone at hfinal ⊢
          cases hget : body.get? (Python.str "status") with
          | none => simp [hget, isFinalStatus] at hfinal
          | some status => rfl
        obtain ⟨rfl, j, st, rfl, hst, rfl, hv⟩ := getJob_status hJ hserve hsome
        have hstatus : (M.jobStatus st.toDict).get? (Python.str "status") = some (.str (Python.str st.status.value)) :=
          hM.texts _ hv "status" (by simp) _ (toDict_status st)
        obtain ⟨row, rest, payload, hr, hid, hb, j', request, hj, ha, hmem⟩ := h.phase _ hp rfl
        obtain rfl := Python.str_inj.mp (Python.Value.str.inj hj)
        apply h.append hr
        rw [hstatus]
        exact recordTrue_of_job hJ hA hM hs hid hb ha hmem hst hv

end

/-! ## How a runner ends -/

/-- The last call was to write a line of the last record, and failed. -/
def RefusedLine (trace : List ((c : JobCall) × c.Answer)) (record : WorkloadRecord) : Prop :=
  trace.getLast? = some ⟨.appendLine record.codegenLine, false⟩ ∨
    trace.getLast? = some ⟨.printLine record.caseLine, false⟩

section
variable (readText : Python.Value → Option Python.Str)

/-- Why a runner without a phase has none. -/
def Ended (trace : List ((c : JobCall) × c.Answer)) (r : Runner) : Prop :=
  r.phase = none → (∃ record ∈ r.records.getLast?, RefusedLine trace record) ∨
    ∀ row ∈ r.rows.head?, row.get? (Python.str "case_id") = none ∨ buildPayload readText row = none

variable {readText} {trace : List ((c : JobCall) × c.Answer)} {r : Runner}

theorem ended_start (records : List WorkloadRecord) (rows : List Python.Dict) :
    Ended readText trace (Runner.start readText records rows) := by
  intro hp
  refine .inr fun row hrow => ?_
  have hrow' : rows.head? = some row := hrow
  simp only [Runner.start, hrow', Option.bind_eq_bind, Option.bind_some] at hp
  cases hid : row.get? (Python.str "case_id") with
  | none => exact .inl rfl
  | some caseId =>
    cases hb : buildPayload readText row with
    | none => exact .inr rfl
    | some payload => simp [hid, hb] at hp

theorem ended_of_some {phase : JobPhase} (h : r.phase = some phase) : Ended readText trace r := by
  intro hp
  rw [h] at hp
  cases hp

theorem append_phase {phase : JobPhase} (h : r.phase = some phase) (code : Option Nat) (body : Python.Dict)
    (status : Python.Value) : ∃ phase', (r.append code body status).phase = some phase' := by
  unfold Runner.append
  cases r.rows with
  | nil => exact ⟨phase, h⟩
  | cons row rows => exact ⟨_, rfl⟩

theorem submitted_phase {phase : JobPhase} (h : r.phase = some phase) (reply : JsonReply) :
    ∃ phase', (r.submitted reply).phase = some phase' := by
  unfold Runner.submitted
  split
  · exact append_phase h _ _ _
  · split_ifs
    · exact append_phase h _ _ _
    · split
      · exact append_phase h _ _ _
      · exact ⟨_, rfl⟩

theorem timed_phase {phase : JobPhase} (h : r.phase = some phase) (timeoutText : Python.Str) (jobId : Python.Value)
    (early : Bool) : ∃ phase', (r.timed timeoutText jobId early).phase = some phase' := by
  unfold Runner.timed
  split_ifs
  · exact ⟨_, rfl⟩
  · exact append_phase h _ _ _

theorem polled_phase {phase : JobPhase} (h : r.phase = some phase) (jobId : Python.Value) (reply : JsonReply) :
    ∃ phase', (r.polled jobId reply).phase = some phase' := by
  unfold Runner.polled
  split
  · exact append_phase h _ _ _
  · split
    · exact append_phase h _ _ _
    · exact append_phase h _ _ _
    · exact ⟨_, rfl⟩

/-- A runner ends where it cannot go on, whatever it is answered. -/
theorem path_ended {timeoutText : Python.Str} {manifest : List Python.Dict}
    (h : (Runner.dialogue readText timeoutText).Path (Runner.start readText [] manifest) trace r) :
    Ended readText trace r := by
  refine h.invariant (P := Ended readText) (ended_start _ _) fun es q c next a _ hview => ?_
  obtain ⟨phase, hp, heq⟩ := Option.bind_eq_some_iff.mp hview
  cases phase with
  | submitting payload =>
    cases heq
    obtain ⟨_, hphase⟩ := submitted_phase hp a
    exact ended_of_some hphase
  | waiting jobId =>
    cases heq
    obtain ⟨_, hphase⟩ := timed_phase hp timeoutText jobId a
    exact ended_of_some hphase
  | polling jobId =>
    cases heq
    obtain ⟨_, hphase⟩ := polled_phase hp jobId a
    exact ended_of_some hphase
  | appending =>
    obtain ⟨record, hrecord, heq⟩ := Option.map_eq_some_iff.mp heq
    cases heq
    cases a with
    | true => exact ended_of_some rfl
    | false => exact fun _ => .inl ⟨record, hrecord, .inl List.getLast?_concat⟩
  | printing =>
    obtain ⟨record, hrecord, heq⟩ := Option.map_eq_some_iff.mp heq
    cases heq
    cases a with
    | true => exact ended_start _ _
    | false => exact fun _ => .inl ⟨record, hrecord, .inr List.getLast?_concat⟩

end

/-! ## Any number of runners -/

section
variable {W R : Type} [DecidableEq W] {dumps : Python.Value → Except DumpsError String}
  {loads : String → Except String Python.Value} {A : RequestApi Python.Value R} {P : Pydantic} {M : ResponseModels}
  {readText : Python.Value → Option Python.Str} {start : W → JobWorker}

theorem reachable_runnerTrue (hJ : (valueJson dumps loads).RoundTrips) (hA : A.RoundTrips (valueJson dumps loads))
    (hM : M.Faithful P) {timeoutText : Python.Str} {t : WorkloadState W R}
    (ht : (workload dumps loads A P M readText timeoutText start).Reachable t) :
    ∀ client ∈ t.clients, RunnerTrue A readText t.object client.origin client.now := by
  have hmoves : ∀ {o o' : Service W Python.Value R}, (service (valueJson dumps loads) A start).Reachable o →
      (o' = o ∨ ∃ act, o.step (valueJson dumps loads) A act = some o') →
      (service (valueJson dumps loads) A start).Reachable o' ∧ o.submitted ⊆ o'.submitted ∧
        o.generated ⊆ o'.generated := by
    rintro o o' ho (rfl | ⟨act, hact⟩)
    · exact ⟨ho, List.Subset.refl _, List.Subset.refl _⟩
    · have hstep : (service (valueJson dumps loads) A start).step o act = some o' := hact
      exact ⟨ho.step hstep, logs_step (service_moves (reachable_truthful ho).queue hstep)⟩
  refine Crowd.reachable_clients (K := fun o client => RunnerTrue A readText o client.origin client.now)
    (I := (service (valueJson dumps loads) A start).Reachable) ?_ ?_ ?_ ?_ ?_ ht
  · intro u hu
    refine Crowd.reachable_object (service (valueJson dumps loads) A start).reachable_init ?_ ?_ hu
    · exact fun o _ _ _ o' ho hserve => (hmoves ho (jobEndpoints_moves hserve)).1
    · exact fun o act o' ho hact => (hmoves ho (.inr ⟨act, hact⟩)).1
  · exact fun o manifest => runnerTrue_start rfl .nil
  · intro o _ _ _ o' client ho hserve h
    obtain ⟨_, hsubmitted, hgenerated⟩ := hmoves ho (jobEndpoints_moves hserve)
    exact h.mono hsubmitted hgenerated
  · intro o input c a o' client next ho hserve hview h
    obtain ⟨_, hsubmitted, hgenerated⟩ := hmoves ho (jobEndpoints_moves hserve)
    obtain ⟨phase, hp, heq⟩ := Option.bind_eq_some_iff.mp hview
    cases phase with
    | submitting payload =>
      cases heq
      exact (h.mono hsubmitted hgenerated).submitted hM hp hserve
    | waiting jobId =>
      cases heq
      exact (h.mono hsubmitted hgenerated).timed hp _ a
    | polling jobId =>
      cases heq
      obtain rfl := getJob_kept hserve
      exact h.polled hJ hA hM ho hp hserve
    | appending =>
      obtain ⟨record, _, heq⟩ := Option.map_eq_some_iff.mp heq
      cases heq
      exact (h.mono hsubmitted hgenerated).appended a
    | printing =>
      obtain ⟨record, _, heq⟩ := Option.map_eq_some_iff.mp heq
      cases heq
      exact (h.mono hsubmitted hgenerated).printed a
  · intro o act o' client ho hact h
    obtain ⟨_, hsubmitted, hgenerated⟩ := hmoves ho (.inr ⟨act, hact⟩)
    exact h.mono hsubmitted hgenerated

end

/-! ## One question -/

def askRow : Python.Dict :=
  [(Python.str "case_id", .str (Python.str "ask")), (Python.str "prompt", .str (Python.str "hi"))]

def askPayload : Python.Dict := [(Python.str "prompt", .str (Python.str "hi")), (Python.str "max_new_tokens", .int 128),
  (Python.str "temperature", .float (.finite 0)), (Python.str "thinking_budget", .int 0)]

def askTable : List (Python.Value × String) := [
  (.dict askPayload, "\x7b\"prompt\":\"hi\",\"max_new_tokens\":128,\"temperature\":0.0,\"thinking_budget\":0\x7d"),
  (.dict (chatResult hello), chatResultJson "\"hello\""),
  (.dict (chatState hello).toDict, chatStateJson "\"hello\"")]

/-- A request is its payload, with all its fields. -/
def askApi : RequestApi Python.Value Python.Dict where
  ofPayload
    | .dict payload => .ok payload
    | _ => .error (raisedWith "TypeError" "argument after ** must be a mapping")
  prompt payload :=
    match payload.get? (Python.str "prompt") with
    | some (.str text) => (Python.encodeUtf8 text).getD ""
    | _ => ""
  modelDump payload := .dict payload

def modelFields (names : List String) (d : Python.Dict) : Python.Dict :=
  names.map fun name => (Python.str name, itemOrNone d name)

def plainModels : ResponseModels where
  jobAccepted := modelFields ["job_id", "status", "created_at_ms"]
  jobStatus := modelFields ["job_id", "status", "created_at_ms", "updated_at_ms", "attempt_count", "worker", "result",
    "error_type", "error_message"]
  unprocessable _ := .list []

theorem plainModels_faithful (P : Pydantic) : plainModels.Faithful P where
  jobId d text h := by
    simp [plainModels, modelFields, itemOrNone, h]
  texts d _ key hkey text h := by
    simp only [List.mem_cons, List.not_mem_nil, or_false] at hkey
    rcases hkey with rfl | rfl | rfl <;> simp [plainModels, modelFields, itemOrNone, h, Python.str_inj]
  result d _ result h := ⟨result, by simp [plainModels, modelFields, itemOrNone, h, Python.str_inj], rfl⟩

abbrev askWorkload : Lts (WorkloadState Unit Python.Dict) (Crowd.Act JobInput (ServiceAct Unit Python.Value Python.Dict)
    (List Python.Dict)) :=
  workload (tableDumps askTable) (tableLoads askTable) askApi plainPydantic plainModels (fun _ => none)
    (Python.str "600.0") fun _ => plainWorker

def askActs : List (Crowd.Act JobInput (ServiceAct Unit Python.Value Python.Dict) (List Python.Dict)) :=
  [.arrive [askRow], .call 0 (.submit "job" 7 none), .call 0 (.time true)] ++
  [.ensureConsumerGroup (), .reclaimIdle (), .readNew (), .markGet () "token" 8, .markEval (),
    .generate () (fun _ => .ok (.dict (chatResult hello))), .finalizeGet () 9, .finalizeEval ()].map .own ++
  [.call 0 (.read none), .call 0 (.write false)]

theorem ask_runs : (askWorkload.runFrom askWorkload.init askActs).isSome = true := by decide +kernel

def asked : WorkloadState Unit Python.Dict := Option.get _ ask_runs

theorem asked_reachable : askWorkload.Reachable asked := ⟨askActs, (Option.some_get _).symm⟩

theorem askApi_roundTrips (dumps : Python.Value → Except DumpsError String)
    (loads : String → Except String Python.Value) : askApi.RoundTrips (valueJson dumps loads) := fun _ => ⟨rfl, rfl⟩

section
variable {W R : Type} [DecidableEq W] (dumps : Python.Value → Except DumpsError String)
  (loads : String → Except String Python.Value) (A : RequestApi Python.Value R) (P : Pydantic) (M : ResponseModels)
  (readText : Python.Value → Option Python.Str) (timeoutText : Python.Str) (start : W → JobWorker)

/-- Whatever fails and whoever else uses the service: the records of a runner
are of its cases in their order, and tell what `generate_text` did. -/
theorem workload_records_true (hJ : (valueJson dumps loads).RoundTrips) (hA : A.RoundTrips (valueJson dumps loads))
    (hM : M.Faithful P) {t : WorkloadState W R}
    (ht : (workload dumps loads A P M readText timeoutText start).Reachable t) : ∀ client ∈ t.clients,
      (∃ done, client.origin = done ++ client.now.rows ∧
        List.Forall₂ (RecordTrue A readText t.object) done client.now.records) ∧
      (client.now.phase = none → (∃ record ∈ client.now.records.getLast?, RefusedLine client.trace record) ∨
        ∀ row ∈ client.now.rows.head?,
          row.get? (Python.str "case_id") = none ∨ buildPayload readText row = none) := by
  intro client hc
  have h := reachable_runnerTrue hJ hA hM ht client hc
  exact ⟨h.rows, path_ended (Crowd.reachable_paths ht client hc)⟩

end

theorem workload_records_true_asked : ∃ client ∈ asked.clients, ∃ record, client.now.records = [record] ∧
    record.succeeded = true ∧ RecordTrue askApi (fun _ => none) asked.object askRow record := by
  have hrun : asked.clients.map (fun client => (decide (client.origin = [askRow] ∧ client.now.rows = []),
      client.now.records.map WorkloadRecord.succeeded)) = [(true, [true])] := by decide +kernel
  obtain ⟨client, hclient, hfacts⟩ := List.map_eq_singleton_iff.mp hrun
  obtain ⟨hrows, hrecords⟩ := Prod.mk.inj hfacts
  obtain ⟨horigin, hrows⟩ := of_decide_eq_true hrows
  obtain ⟨record, hrecord, hsucceeded⟩ := List.map_eq_singleton_iff.mp hrecords
  have hmem : client ∈ asked.clients := by
    rw [hclient]
    exact List.mem_cons_self
  obtain ⟨⟨done, hdone, hall⟩, _⟩ := workload_records_true (tableDumps askTable) (tableLoads askTable) askApi
    plainPydantic plainModels (fun _ => none) (Python.str "600.0") (fun _ => plainWorker)
    (table_roundTrips (by decide)) (askApi_roundTrips _ _) (plainModels_faithful _) asked_reachable client hmem
  rw [hrows, horigin, List.append_nil] at hdone
  rw [hrecord, ← hdone] at hall
  cases hall with
  | cons htrue _ => exact ⟨client, hmem, record, hrecord, hsucceeded, htrue⟩

end InferenceService
