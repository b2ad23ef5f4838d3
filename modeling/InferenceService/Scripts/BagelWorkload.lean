import InferenceService.Gateway.BagelTruth
import InferenceService.Lib.Pool
import InferenceService.Scripts.BagelSummary

/-!
# `run_bagel_workload_manifest.py`: the pool

A pool of threads sends the cases of a manifest to the BAGEL service, which
serves others too. The records are sorted when all cases have ended.
-/

namespace InferenceService

/-! ## The endpoint -/

/-- What FastAPI reads of the fields of a form, `none` where it rejects one, and
what it sends. -/
structure MultimodalHttp where
  filename : String → Option String
  prompt : String → Option String
  flag : String → Option Bool
  number : String → Option Python.Float
  integer : String → Option Int
  responseModel : MultimodalGenerateResponse → Python.Dict
  rejected : MultimodalForm → Nat × Python.Dict
  dumps : Python.Dict → Python.Str

structure MultimodalHttp.Faithful (H : MultimodalHttp) : Prop where
  prompt : ∀ text prompt, H.prompt text = some prompt → prompt = text
  response : ∀ response, (H.responseModel response).get? (Python.str "response") =
    some (.str (Python.str response.response))
  latency : ∀ response, (H.responseModel response).get? (Python.str "latency_seconds") =
    some (.float (.finite response.latencySeconds))
  rejected : ∀ form, 400 ≤ (H.rejected form).1

namespace MultimodalHttp
variable (H : MultimodalHttp)

def request (form : MultimodalForm) : Option MultimodalRequest := do
  let prompt ← H.prompt form.prompt
  let showThinking ← H.flag form.showThinking
  let doSample ← H.flag form.doSample
  let temperature ← H.number form.temperature
  let maxNewTokens ← H.integer form.maxNewTokens
  some {
    contentType := some form.contentType
    imageBytes := form.imageBytes
    filename := H.filename form.filename
    prompt
    showThinking
    doSample
    temperature
    maxNewTokens }

def jsonResponse (status : Nat) (body : Python.Dict) : HttpResponse := ⟨status, H.dumps body, some (.dict body)⟩

def exchange : Except MultimodalError MultimodalGenerateResponse → HttpResponse
  | .ok response => H.jsonResponse 200 (H.responseModel response)
  | .error (.http exc) =>
    let detail := match exc.detail with
      | .message text => Python.Value.str (Python.str text)
      | .backendError error backend message => .dict [(Python.str "error", .str (Python.str error)),
          (Python.str "backend", .str (Python.str backend)), (Python.str "message", .str (Python.str message))]
    H.jsonResponse exc.statusCode [(Python.str "detail", detail)]
  | .error _ => ⟨500, Python.str "Internal Server Error", none⟩

end MultimodalHttp

/-! ## `main` -/

/-- A case that is about to be sent, or whose request is the `call` of the
service; FastAPI has rejected one without a call. -/
inductive CasePhase where
  | posting
  | posted (form : MultimodalForm) (call : Option Nat)

/-- A case of the pool has no record when `run_case` raises. -/
structure BagelWorkload where
  service : BagelService
  pool : Pool CasePhase (Option BagelRecord)

inductive BagelWorkloadAct where
  | service (act : BagelServiceAct)
  | start
  | post (i : Nat)
  | receive (i : Nat)
  | raise (i : Nat) (exc : Python.Exception)
  | escape (i : Nat)
  | gather (i : Nat)

section
variable (config : MultimodalConfig) (H : MultimodalHttp) (T : ValueTexts) (cases : List BagelCase)

/-- The base record is built first, outside of the block that records exceptions. -/
def beginCase (i : Nat) : PoolTask CasePhase (Option BagelRecord) :=
  match cases[i]?.bind BagelCase.prompt with
  | none => .finished none
  | some _ => .running .posting

def recordCase (i : Nat) (result : Except Python.Exception HttpResponse) : PoolTask CasePhase (Option BagelRecord) :=
  .finished (cases[i]?.map fun case => caseRecord T (i + 1) case result)

namespace BagelWorkload

def post (w : BagelWorkload) (i : Nat) (form : MultimodalForm) : Option BagelWorkload :=
  match H.request form with
  | none => some { w with pool := w.pool.set i (.running (.posted form none)) }
  | some r => (w.service.step config (.arrive r)).map fun service =>
      ⟨service, w.pool.set i (.running (.posted form (some w.service.calls.length)))⟩

/-- The reply to a request, when there is one. -/
def reply (service : BagelService) (form : MultimodalForm) : Option Nat → Option HttpResponse
  | none => some (H.jsonResponse (H.rejected form).1 (H.rejected form).2)
  | some call => (service.calls[call]?.bind BagelCall.reply).map H.exchange

def step (concurrency : Nat) (w : BagelWorkload) : BagelWorkloadAct → Option BagelWorkload
  | .service act => (w.service.step config act).map fun service => { w with service }
  | .start => (w.pool.start concurrency (beginCase cases)).map fun pool => { w with pool }
  | .post i =>
    match w.pool.tasks[i]? with
    | some (.running .posting) => (cases[i]?.bind (caseForm T)).bind (w.post config H i)
    | _ => none
  | .receive i => (w.pool.work i fun
      | .posting => none
      | .posted form call => (reply H w.service form call).map fun response =>
          recordCase T cases i (.ok response)).map fun pool => { w with pool }
  | .raise i exc =>
    (w.pool.work i fun _ => some (recordCase T cases i (.error exc))).map fun pool => { w with pool }
  -- an exception of which there is no text
  | .escape i => (w.pool.work i fun _ => some (.finished none)).map fun pool => { w with pool }
  | .gather i => (w.pool.gather i).map fun pool => { w with pool }

/-- The records that `main` writes; it writes none when a case has raised. -/
def records (w : BagelWorkload) : Option (List BagelRecord) :=
  let results := w.pool.gathered.map fun i => (w.pool.result i).join
  if w.pool.complete ∧ results.all Option.isSome then
    some ((results.filterMap id).mergeSort fun a b => a.manifestIndex ≤ b.manifestIndex)
  else none

end BagelWorkload

def bagelWorkload (gauges : GpuGauges) (concurrency : Nat) : Lts BagelWorkload BagelWorkloadAct where
  init := ⟨(bagelService config gauges).init, .ofTasks cases.length⟩
  step := BagelWorkload.step config H T cases concurrency

end

/-! ## What the service keeps -/

/-- What has been replied and logged stays. -/
structure ServiceGrows (s s' : BagelService) : Prop where
  calls : ∀ {k : Nat} {call : BagelCall}, s.calls[k]? = some call → ∃ call', s'.calls[k]? = some call' ∧
    call'.request = call.request ∧ ∀ reply, call.reply = some reply → call'.reply = some reply
  sent : s.shared.sent ⊆ s'.shared.sent
  answers : s.shared.answers ⊆ s'.shared.answers

section
variable {config : MultimodalConfig} {s s' : BagelService}

theorem grows_set {i : Nat} {call call' : BagelCall} {shared : BagelShared} {m : MultimodalMetrics}
    (hi : s.calls[i]? = some call) (hrequest : call'.request = call.request)
    (hreply : ∀ reply, call.reply = some reply → call'.reply = some reply) (hsent : s.shared.sent ⊆ shared.sent)
    (hanswers : s.shared.answers ⊆ shared.answers) : ServiceGrows s ⟨s.calls.set i call', shared, m⟩ := by
  refine ⟨fun {k other} hk => ?_, hsent, hanswers⟩
  dsimp only
  rw [calls_set hi]
  by_cases hki : k = i
  · subst hki
    rw [hi] at hk
    cases hk
    exact ⟨call', if_pos rfl, hrequest, hreply⟩
  · exact ⟨other, (if_neg hki).trans hk, rfl, fun _ h => h⟩

theorem moves_grow (hm : BagelMoves config s s') : ServiceGrows s s' := by
  cases hm with
  | arrived r =>
    refine ⟨fun {k call} hk => ⟨call, ?_, rfl, fun _ h => h⟩, List.Subset.refl _, List.Subset.refl _⟩
    exact (List.getElem?_append_left (List.getElem?_eq_some_iff.mp hk).1).trans hk
  | thread hi hmove =>
    exact grows_set hi rfl (fun _ h => h) (fun _ h => hmove.sent.mem h) fun _ h => hmove.answers.mem h
  | responded latency smi hi hreply _ =>
    refine grows_set hi rfl (fun reply h => ?_) (List.Subset.refl _) (List.Subset.refl _)
    rw [hreply] at h
    cases h
  | timedOut latency hi hreply =>
    refine grows_set hi rfl (fun reply h => ?_) (List.Subset.refl _) (List.Subset.refl _)
    rw [hreply] at h
    cases h

end

/-! ## What a record is true of -/

/-- BAGEL was asked what the case says. -/
structure AsksFor (H : MultimodalHttp) (T : ValueTexts) (case : BagelCase) (p : Prediction) : Prop where
  image : p.imageBytes = case.imageBytes
  prompt : case.record.get "prompt" = .str (Python.str p.prompt)
  showThinking : (T.flag (case.record.get "show_thinking")).bind H.flag = some p.showThinking
  doSample : (T.flag (case.record.get "do_sample")).bind H.flag = some p.doSample
  temperature : (T.field (case.record.get "temperature")).bind H.number = some p.temperature
  maxNewTokens : (T.field (case.record.get "max_new_tokens")).bind H.integer = some p.maxNewTokens

section
variable (config : MultimodalConfig) (H : MultimodalHttp) (T : ValueTexts)

/-- The request of the case is call `k` of the service. -/
def CallOf (s : BagelService) (case : BagelCase) (k : Nat) (call : BagelCall) : Prop :=
  s.calls[k]? = some call ∧ (caseForm T case).bind H.request = some call.request

structure BagelRecordTrue (s : BagelService) (case : BagelCase) (record : BagelRecord) : Prop where
  own : record.case = case
  success : record.success = true → ∃ k p result, (k, p) ∈ s.shared.sent ∧ AsksFor H T case p ∧
    (k, result) ∈ s.shared.answers ∧ record.response = result
  latency : record.success = true → ∃ x, record.serviceLatency = .float x
  refused : ∀ status, record.httpStatus = some status → record.success = false →
    record.errorType = "http_" ++ toString status ∧
      ((∃ form, caseForm T case = some form ∧ H.request form = none ∧ (H.rejected form).1 = status) ∨
        ∃ k call reply, CallOf H T s case k call ∧ call.reply = some reply ∧ (H.exchange reply).status = status)

def TaskTrue (s : BagelService) (case : BagelCase) (i : Nat) : PoolTask CasePhase (Option BagelRecord) → Prop
  | .waiting | .running .posting | .finished none => True
  | .running (.posted form none) => caseForm T case = some form ∧ H.request form = none
  | .running (.posted form (some k)) => caseForm T case = some form ∧ ∃ call, CallOf H T s case k call
  | .finished (some record) => record.manifestIndex = i + 1 ∧ BagelRecordTrue H T s case record

variable {config H T} {s s' : BagelService} {case : BagelCase} {i : Nat}

theorem BagelRecordTrue.mono {record : BagelRecord} (h : BagelRecordTrue H T s case record) (hs : ServiceGrows s s') :
    BagelRecordTrue H T s' case record where
  own := h.own
  success hsuccess := by
    obtain ⟨k, p, result, hp, hasks, hanswer, hresponse⟩ := h.success hsuccess
    exact ⟨k, p, result, hs.sent hp, hasks, hs.answers hanswer, hresponse⟩
  latency := h.latency
  refused status hstatus hfailed := by
    obtain ⟨htype, hcause⟩ := h.refused status hstatus hfailed
    refine ⟨htype, hcause.imp_right ?_⟩
    rintro ⟨k, call, reply, ⟨hk, hrequest⟩, hreply, hcode⟩
    obtain ⟨call', hk', hsame, hkept⟩ := hs.calls hk
    exact ⟨k, call', reply, ⟨hk', hsame ▸ hrequest⟩, hkept reply hreply, hcode⟩

theorem TaskTrue.mono {task : PoolTask CasePhase (Option BagelRecord)} (h : TaskTrue H T s case i task)
    (hs : ServiceGrows s s') : TaskTrue H T s' case i task := by
  cases task with
  | waiting => trivial
  | running phase =>
    cases phase with
    | posting => trivial
    | posted form call =>
      cases call with
      | none => exact h
      | some k =>
        obtain ⟨hform, call, hk, hrequest⟩ := h
        obtain ⟨call', hk', hsame, _⟩ := hs.calls hk
        exact ⟨hform, call', hk', hsame ▸ hrequest⟩
  | finished record =>
    cases record with
    | none => trivial
    | some record => exact ⟨h.1, h.2.mono hs⟩

theorem request_fields {form : MultimodalForm} {r : MultimodalRequest} (h : H.request form = some r) :
    r.imageBytes = form.imageBytes ∧ H.prompt form.prompt = some r.prompt ∧
      H.flag form.showThinking = some r.showThinking ∧ H.flag form.doSample = some r.doSample ∧
      H.number form.temperature = some r.temperature ∧ H.integer form.maxNewTokens = some r.maxNewTokens := by
  unfold MultimodalHttp.request at h
  obtain ⟨prompt, hprompt, h⟩ := Option.bind_eq_some_iff.mp h
  obtain ⟨showThinking, hshow, h⟩ := Option.bind_eq_some_iff.mp h
  obtain ⟨doSample, hsample, h⟩ := Option.bind_eq_some_iff.mp h
  obtain ⟨temperature, htemperature, h⟩ := Option.bind_eq_some_iff.mp h
  obtain ⟨maxNewTokens, htokens, h⟩ := Option.bind_eq_some_iff.mp h
  cases h
  exact ⟨rfl, hprompt, hshow, hsample, htemperature, htokens⟩

theorem caseForm_fields {form : MultimodalForm} (h : caseForm T case = some form) :
    form.imageBytes = case.imageBytes ∧ case.record.get "prompt" = .str (Python.str form.prompt) ∧
      T.flag (case.record.get "show_thinking") = some form.showThinking ∧
      T.flag (case.record.get "do_sample") = some form.doSample ∧
      T.field (case.record.get "temperature") = some form.temperature ∧
      T.field (case.record.get "max_new_tokens") = some form.maxNewTokens := by
  unfold caseForm at h
  obtain ⟨prompt, hprompt, h⟩ := Option.bind_eq_some_iff.mp h
  obtain ⟨showThinking, hshow, h⟩ := Option.bind_eq_some_iff.mp h
  obtain ⟨doSample, hsample, h⟩ := Option.bind_eq_some_iff.mp h
  obtain ⟨temperature, htemperature, h⟩ := Option.bind_eq_some_iff.mp h
  obtain ⟨maxNewTokens, htokens, h⟩ := Option.bind_eq_some_iff.mp h
  obtain ⟨filename, _, h⟩ := Option.bind_eq_some_iff.mp h
  cases h
  refine ⟨rfl, ?_, hshow, hsample, htemperature, htokens⟩
  unfold BagelCase.prompt at hprompt
  split at hprompt
  · rename_i text hvalue
    rw [hvalue, Python.str_of_encodeUtf8 hprompt]
  · cases hprompt

theorem asks_for (hH : H.Faithful) {r : MultimodalRequest} (h : (caseForm T case).bind H.request = some r)
    {p : Prediction} (hp : AskedFor config r p) : AsksFor H T case p := by
  obtain ⟨form, hform, hrequest⟩ := Option.bind_eq_some_iff.mp h
  obtain ⟨himage, hprompt, hshow, hsample, htemperature, htokens⟩ := request_fields hrequest
  obtain ⟨himage', hprompt', hshow', hsample', htemperature', htokens'⟩ := caseForm_fields hform
  rw [hp.own]
  refine ⟨himage.trans himage', ?_, ?_, ?_, ?_, ?_⟩
  · rw [hprompt', ← hH.prompt _ _ hprompt]
    rfl
  · rw [hshow', Option.bind_some]
    exact hshow
  · rw [hsample', Option.bind_some]
    exact hsample
  · rw [htemperature', Option.bind_some]
    exact htemperature
  · rw [htokens', Option.bind_some]
    exact htokens

theorem multimodalGenerate_code {r : MultimodalRequest} {outcome : BagelOutcome} {latency : ℚ} {smi : NvidiaSmi}
    {m : MultimodalMetrics} {exc : HTTPException}
    (h : (multimodalGenerate config r outcome latency smi m).2 = .error (.http exc)) :
    exc.statusCode ∈ [415, 400, 422, 413, 504, 502] := by
  unfold multimodalGenerate at h
  cases hcheck : checkRequest config r with
  | error exc' =>
    rw [hcheck] at h
    cases h
    have hcode := checkRequest_code hcheck
    simp only [List.mem_cons, List.not_mem_nil, or_false] at hcode ⊢
    omega
  | ok =>
    rw [hcheck] at h
    cases outcome with
    | answered result =>
      dsimp only at h
      split at h
      · cases h
      · exact absurd h multimodalReply_raised
    | timedOut =>
      cases h
      simp
    | clientError text =>
      obtain ⟨_, _, rfl⟩ := upstreamError_http (Except.error.inj h)
      simp
    | raised typeName => cases h

theorem exchange_success {reply : Except MultimodalError MultimodalGenerateResponse} {k : Nat} {r : MultimodalRequest}
    (hreply : ReplyTrue config s.shared k r reply) (h : (H.exchange reply).isSuccess = true) :
    ∃ response, reply = .ok response := by
  obtain ⟨outcome, latency, smi, m, _, rfl⟩ := hreply
  cases hgenerate : (multimodalGenerate config r outcome latency smi m).2 with
  | ok response => exact ⟨response, rfl⟩
  | error e =>
    rw [hgenerate] at h
    cases e with
    | http exc =>
      have hcode := multimodalGenerate_code hgenerate
      have hrange : 200 ≤ exc.statusCode ∧ exc.statusCode < 300 := of_decide_eq_true h
      simp only [List.mem_cons, List.not_mem_nil, or_false] at hcode
      omega
    | gpuMetrics error => cases h
    | validationError => cases h
    | unicodeEncodeError => cases h
    | other typeName => cases h

theorem caseRecord_json {response : HttpResponse} {payload : Python.Dict}
    (h : response.json.getD (.dict []) = .dict payload) :
    caseRecord T i case (.ok response) = receivedCase T i case response payload := by
  unfold caseRecord
  dsimp only
  rw [h]

theorem receivedCase_response {response : HttpResponse} {payload : Python.Dict} (h : response.isSuccess = true) :
    (receivedCase T i case response payload).response =
      T.str ((payload.get? (Python.str "response")).getD (.str [])) :=
  if_pos h

theorem exchange_json (reply : Except MultimodalError MultimodalGenerateResponse) :
    ∃ payload, (H.exchange reply).json.getD (.dict []) = .dict payload := by
  cases reply with
  | ok response => exact ⟨_, rfl⟩
  | error e => cases e <;> exact ⟨_, rfl⟩

/-- The record of a reply of the service. -/
theorem received_true (hH : H.Faithful) (hs : BagelTrue config s) {k : Nat} {call : BagelCall}
    (hcall : CallOf H T s case k call) {reply : Except MultimodalError MultimodalGenerateResponse}
    (hreply : call.reply = some reply) :
    BagelRecordTrue H T s case (caseRecord T (i + 1) case (.ok (H.exchange reply))) := by
  have htrue := hs.calls hcall.1
  obtain ⟨payload, hpayload⟩ := exchange_json (H := H) reply
  rw [caseRecord_json hpayload]
  refine ⟨rfl, fun hsuccess => ?_, fun hsuccess => ?_, fun status hstatus hfailed => ?_⟩
  · have hsuccess : (H.exchange reply).isSuccess = true := hsuccess
    obtain ⟨response, rfl⟩ := exchange_success (htrue.reply reply hreply) hsuccess
    obtain ⟨p, result, latency, hp, hanswer, hresponse⟩ := htrue.answers.ok response hreply
    refine ⟨k, p, result, hp, asks_for hH hcall.2 (htrue.sent p hp), hanswer, ?_⟩
    have hsame : payload = H.responseModel response := (Python.Value.dict.inj hpayload).symm
    rw [receivedCase_response hsuccess, hsame, hH.response response]
    unfold multimodalReply at hresponse
    cases hencode : Python.encodeUtf8 result with
    | none =>
      rw [hencode] at hresponse
      cases hresponse
    | some text =>
      rw [hencode] at hresponse
      cases hresponse
      exact Python.str_of_encodeUtf8 hencode
  · have hsuccess : (H.exchange reply).isSuccess = true := hsuccess
    obtain ⟨response, rfl⟩ := exchange_success (htrue.reply reply hreply) hsuccess
    have hsame : payload = H.responseModel response := (Python.Value.dict.inj hpayload).symm
    refine ⟨.finite response.latencySeconds, ?_⟩
    unfold receivedCase
    dsimp only
    rw [hsame, hH.latency response]
    rfl
  · cases hstatus
    exact ⟨if_neg (ne_true_of_eq_false hfailed), .inr ⟨k, call, reply, hcall, hreply, rfl⟩⟩

theorem failed_true (exc : Python.Exception) : BagelRecordTrue H T s case (failedCase (i + 1) case exc) :=
  ⟨rfl, nofun, nofun, nofun⟩

theorem rejected_true (hH : H.Faithful) {form : MultimodalForm} (hform : caseForm T case = some form)
    (h : H.request form = none) : BagelRecordTrue H T s case
      (caseRecord T (i + 1) case (.ok (H.jsonResponse (H.rejected form).1 (H.rejected form).2))) := by
  have hjson : (H.jsonResponse (H.rejected form).1 (H.rejected form).2).json.getD (.dict []) =
      .dict (H.rejected form).2 := rfl
  rw [caseRecord_json hjson]
  have hfailed : (H.jsonResponse (H.rejected form).1 (H.rejected form).2).isSuccess = false := by
    have hcode := hH.rejected form
    apply decide_eq_false
    rintro ⟨_, hlt⟩
    have hlt : (H.rejected form).1 < 300 := hlt
    omega
  refine ⟨rfl, fun hsuccess => ?_, fun hsuccess => ?_, fun status hstatus _ => ?_⟩
  · cases hfailed.symm.trans hsuccess
  · cases hfailed.symm.trans hsuccess
  · cases hstatus
    exact ⟨if_neg (ne_true_of_eq_false hfailed), .inl ⟨form, hform, h, rfl⟩⟩

end

/-! ## The runs -/

section
variable (config : MultimodalConfig) (H : MultimodalHttp) (T : ValueTexts) (cases : List BagelCase) (gauges : GpuGauges)
  (concurrency : Nat)

structure WorkloadTrue (w : BagelWorkload) : Prop where
  service : (bagelService config gauges).Reachable w.service
  pool : w.pool.Sound concurrency
  length : w.pool.tasks.length = cases.length
  tasks : ∀ {i : Nat} {task : PoolTask CasePhase (Option BagelRecord)} {case : BagelCase},
    w.pool.tasks[i]? = some task → cases[i]? = some case → TaskTrue H T w.service case i task

variable {config H T cases gauges concurrency} {w w' : BagelWorkload} {i : Nat}

theorem WorkloadTrue.case (h : WorkloadTrue config H T cases gauges concurrency w)
    {task : PoolTask CasePhase (Option BagelRecord)} (hi : w.pool.tasks[i]? = some task) :
    ∃ case, cases[i]? = some case ∧ TaskTrue H T w.service case i task := by
  have hlt := (List.getElem?_eq_some_iff.mp hi).1
  rw [h.length] at hlt
  exact ⟨cases[i], List.getElem?_eq_getElem hlt, h.tasks hi (List.getElem?_eq_getElem hlt)⟩

/-- One task changes, and the service goes on. -/
theorem WorkloadTrue.set (h : WorkloadTrue config H T cases gauges concurrency w)
    {task task' : PoolTask CasePhase (Option BagelRecord)} (hi : w.pool.tasks[i]? = some task) {service : BagelService}
    (hservice : (bagelService config gauges).Reachable service) (hgrows : ServiceGrows w.service service)
    (hpool : (w.pool.set i task').Sound concurrency)
    (htask : ∀ case, cases[i]? = some case → TaskTrue H T service case i task') :
    WorkloadTrue config H T cases gauges concurrency ⟨service, w.pool.set i task'⟩ where
  service := hservice
  pool := hpool
  length := (List.length_set).trans h.length
  tasks {j other case} hj hcase := by
    have hj : (w.pool.tasks.set i task')[j]? = some other := hj
    rw [List.getElem?_set] at hj
    by_cases hij : i = j
    · subst hij
      rw [if_pos rfl, if_pos (List.getElem?_eq_some_iff.mp hi).1] at hj
      cases hj
      exact htask case hcase
    · rw [if_neg hij] at hj
      exact (h.tasks hj hcase).mono hgrows

theorem grows_refl (s : BagelService) : ServiceGrows s s :=
  ⟨fun {_ call} hk => ⟨call, hk, rfl, fun _ h => h⟩, List.Subset.refl _, List.Subset.refl _⟩

theorem beginCase_true {case : BagelCase} (s : BagelService) : TaskTrue H T s case i (beginCase cases i) := by
  unfold beginCase
  cases cases[i]?.bind BagelCase.prompt <;> trivial

theorem recordCase_true {case : BagelCase} (hcase : cases[i]? = some case) {s : BagelService}
    {result : Except Python.Exception HttpResponse}
    (h : BagelRecordTrue H T s case (caseRecord T (i + 1) case result)) :
    TaskTrue H T s case i (recordCase T cases i result) := by
  unfold recordCase
  rw [hcase]
  refine ⟨?_, h⟩
  cases result with
  | error exc => rfl
  | ok response =>
    unfold caseRecord
    dsimp only
    split <;> rfl

theorem posted_pool (h : w.pool.Sound concurrency) (hi : w.pool.tasks[i]? = some (.running .posting))
    (form : MultimodalForm) (call : Option Nat) :
    (w.pool.set i (.running (.posted form call))).Sound concurrency := by
  have hwork : w.pool.work i (fun _ => some (.running (.posted form call))) =
      some (w.pool.set i (.running (.posted form call))) := by
    unfold Pool.work
    rw [hi]
    rfl
  exact h.work hwork

theorem workloadTrue_step (hH : H.Faithful) (h : WorkloadTrue config H T cases gauges concurrency w)
    {act : BagelWorkloadAct} (hstep : w.step config H T cases concurrency act = some w') :
    WorkloadTrue config H T cases gauges concurrency w' := by
  cases act with
  | service act =>
    obtain ⟨service, hact, rfl⟩ := Option.map_eq_some_iff.mp hstep
    have hgrows := moves_grow (bagel_moves hact)
    exact ⟨h.service.step hact, h.pool, h.length, fun hi hcase => (h.tasks hi hcase).mono hgrows⟩
  | start =>
    obtain ⟨pool, hstart, rfl⟩ := Option.map_eq_some_iff.mp hstep
    have hpool := h.pool.start hstart
    obtain ⟨i, hi, _, rfl⟩ := Pool.start_eq hstart
    exact h.set hi h.service (grows_refl _) hpool fun _ _ => beginCase_true _
  | post i =>
    unfold BagelWorkload.step at hstep
    dsimp only at hstep
    split at hstep
    · rename_i hi
      obtain ⟨form, hform, hstep⟩ := Option.bind_eq_some_iff.mp hstep
      obtain ⟨case, hcase, hform⟩ := Option.bind_eq_some_iff.mp hform
      unfold BagelWorkload.post at hstep
      cases hrequest : H.request form with
      | none =>
        rw [hrequest] at hstep
        cases hstep
        refine h.set hi h.service (grows_refl _) (posted_pool h.pool hi form none) fun case' hcase' => ?_
        rw [hcase] at hcase'
        cases hcase'
        exact ⟨hform, hrequest⟩
      | some r =>
        rw [hrequest] at hstep
        obtain ⟨service, hact, rfl⟩ := Option.map_eq_some_iff.mp hstep
        have hstep : (bagelService config gauges).step w.service (.arrive r) = some service := hact
        refine h.set hi (h.service.step hstep) (moves_grow (bagel_moves hact)) (posted_pool h.pool hi form _)
          fun case' hcase' => ?_
        rw [hcase] at hcase'
        cases hcase'
        cases hact
        refine ⟨hform, arrived config r, List.getElem?_concat_length, ?_⟩
        rw [hform, Option.bind_some, hrequest]
        unfold arrived
        cases checkRequest config r <;> rfl
    · cases hstep
  | receive i =>
    obtain ⟨pool, hwork, rfl⟩ := Option.map_eq_some_iff.mp hstep
    have hpool := h.pool.work hwork
    obtain ⟨phase, task, hi, hnext, rfl⟩ := Pool.work_eq hwork
    cases phase with
    | posting => cases hnext
    | posted form call =>
      obtain ⟨response, hreply, rfl⟩ := Option.map_eq_some_iff.mp hnext
      refine h.set hi h.service (grows_refl _) hpool fun case hcase => recordCase_true hcase ?_
      have htask := h.tasks hi hcase
      cases call with
      | none =>
        cases hreply
        exact rejected_true hH htask.1 htask.2
      | some k =>
        obtain ⟨hform, call, hcall⟩ := htask
        obtain ⟨reply, hreplied, rfl⟩ := Option.map_eq_some_iff.mp hreply
        rw [hcall.1] at hreplied
        exact received_true hH (reachable_bagelTrue h.service) hcall hreplied
  | raise i exc =>
    obtain ⟨pool, hwork, rfl⟩ := Option.map_eq_some_iff.mp hstep
    have hpool := h.pool.work hwork
    obtain ⟨phase, task, hi, hnext, rfl⟩ := Pool.work_eq hwork
    cases hnext
    exact h.set hi h.service (grows_refl _) hpool fun case hcase => recordCase_true hcase (failed_true exc)
  | escape i =>
    obtain ⟨pool, hwork, rfl⟩ := Option.map_eq_some_iff.mp hstep
    have hpool := h.pool.work hwork
    obtain ⟨phase, task, hi, hnext, rfl⟩ := Pool.work_eq hwork
    cases hnext
    exact h.set hi h.service (grows_refl _) hpool fun _ _ => trivial
  | gather i =>
    obtain ⟨pool, hgather, rfl⟩ := Option.map_eq_some_iff.mp hstep
    have hpool := h.pool.gather hgather
    obtain ⟨_, hgather⟩ := Option.ite_none_right_eq_some.mp hgather
    cases hgather
    exact ⟨h.service, hpool, h.length, h.tasks⟩

theorem reachable_workloadTrue (hH : H.Faithful)
    (hw : (bagelWorkload config H T cases gauges concurrency).Reachable w) :
    WorkloadTrue config H T cases gauges concurrency w := by
  refine hw.invariant (P := WorkloadTrue config H T cases gauges concurrency) ?_
    fun _ _ _ _ h hstep => workloadTrue_step hH h hstep
  refine ⟨Lts.reachable_init _, Pool.sound_ofTasks _ _, List.length_replicate, fun {i task case} hi _ => ?_⟩
  have hmem := List.mem_of_getElem? hi
  obtain rfl := List.eq_of_mem_replicate hmem
  trivial

/-! ## The records -/

theorem written_records (h : WorkloadTrue config H T cases gauges concurrency w) {records : List BagelRecord}
    (hr : w.records = some records) : records.length = cases.length ∧
      ∀ (i : Nat) (case : BagelCase), cases[i]? = some case → ∃ record, records[i]? = some record ∧
        record.manifestIndex = i + 1 ∧ BagelRecordTrue H T w.service case record := by
  obtain ⟨⟨hcomplete, hall⟩, hr⟩ := Option.ite_none_right_eq_some.mp hr
  have hperm := h.pool.perm hcomplete
  rw [h.length] at hperm
  have hsome : ∀ i < cases.length, ((w.pool.result i).join).isSome = true := by
    intro i hi
    have hmem := hperm.symm.subset (List.mem_range.mpr hi)
    exact List.all_eq_true.mp hall _ (List.mem_map_of_mem hmem)
  have htrue : ∀ i record, (w.pool.result i).join = some record →
      record.manifestIndex = i + 1 ∧
        ∀ case, cases[i]? = some case → BagelRecordTrue H T w.service case record := by
    intro i record hrecord
    obtain ⟨task, hi, hresult⟩ := Option.bind_eq_some_iff.mp (Option.join_eq_some_iff.mp hrecord)
    cases task with
    | waiting => cases hresult
    | running phase => cases hresult
    | finished result =>
      cases hresult
      obtain ⟨case, hcase, htask⟩ := h.case hi
      refine ⟨htask.1, fun case' hcase' => ?_⟩
      rw [hcase] at hcase'
      cases hcase'
      exact htask.2
  have hsorted := Pool.mergeSort_gathered hperm (fun _ _ hij => Nat.succ_lt_succ hij)
    fun i record hrecord => (htrue i record hrecord).1
  obtain ⟨hlength, hget⟩ := Pool.getElem?_filterMap_range hsome
  rw [List.filterMap_map, Function.id_comp, hsorted] at hr
  cases hr
  refine ⟨hlength, fun i case hcase => ?_⟩
  have hlt := (List.getElem?_eq_some_iff.mp hcase).1
  obtain ⟨record, hrecord⟩ := Option.isSome_iff_exists.mp (hsome i hlt)
  obtain ⟨hindex, htrue⟩ := htrue i record hrecord
  exact ⟨record, (hget i hlt).trans hrecord, hindex, htrue case hcase⟩

theorem written_true (h : WorkloadTrue config H T cases gauges concurrency w) {records : List BagelRecord}
    (hr : w.records = some records) {record : BagelRecord} (hmem : record ∈ records) :
    ∃ case, BagelRecordTrue H T w.service case record := by
  obtain ⟨hlength, hrecords⟩ := written_records h hr
  obtain ⟨i, hi⟩ := List.getElem?_of_mem hmem
  have hlt := (List.getElem?_eq_some_iff.mp hi).1
  rw [hlength] at hlt
  obtain ⟨record', hi', _, htrue⟩ := hrecords i cases[i] (List.getElem?_eq_getElem hlt)
  rw [hi] at hi'
  cases hi'
  exact ⟨_, htrue⟩

theorem written_latencies (h : WorkloadTrue config H T cases gauges concurrency w) {records : List BagelRecord}
    (hr : w.records = some records) : LatenciesKnown records := by
  intro record hmem hsuccess
  obtain ⟨case, htrue⟩ := written_true h hr hmem
  obtain ⟨x, hx⟩ := htrue.latency hsuccess
  rw [hx]
  exact .inr rfl

/-- Whatever the order in which the cases run and end and whatever else the
service does: at most `concurrency` of them are under way, and the records that
are written are of the lines of the manifest in their order. One that succeeded
has what BAGEL answered when it was asked about the image of the case. They are
summed up, and the numbers agree with them, unless a text cannot be encoded or
the identifiers cannot be put in order. -/
theorem bagel_workload_true (hH : H.Faithful) {F : ImageFiles} {loads : Chars → Except Python.Exception Python.Value}
    {path : String} {text : Chars} {manifest : List ManifestRow} (hload : loadManifest loads path text = .ok manifest)
    (hcases : prepareCases F T manifest = .ok cases)
    (hw : (bagelWorkload config H T cases gauges concurrency).Reachable w) :
    w.pool.inFlight ≤ concurrency ∧ ∀ records, w.records = some records →
      records ≠ [] ∧ records.length = (manifestCases text).length ∧
      (∀ (i : Nat) (line : Chars), (manifestCases text)[i]? = some line → ∃ record, records[i]? = some record ∧
        record.manifestIndex = i + 1 ∧ loads line = .ok (.dict record.case.record.fields) ∧
        record.case.record.get "image_sha256" = .str (Python.str (F.sha256 record.case.imageBytes)) ∧
        BagelRecordTrue H T w.service record.case record) ∧
      (∀ summary, summarizeRecords records = .ok summary → SummaryTrue records summary) ∧
      ∀ S : BagelSteps, ((∃ status, finishWorkload S cases records = .ok status) ↔ S.Quiet records ∧
          (∀ record ∈ records, record.plain = true) ∧ SortableIds (records.map BagelRecord.sourceCaseId)) ∧
        ∀ status, finishWorkload S cases records = .ok status →
          (status = "status=PASS" ↔ ∀ record ∈ records, record.success = true) := by
  have h := reachable_workloadTrue hH hw
  obtain ⟨hmanifest, hloaded⟩ := loadManifest_ok hload
  have hprepared := Python.mapM_eq_ok.mp hcases
  refine ⟨h.pool.inFlight, fun records hr => ?_⟩
  obtain ⟨hlength, hrecords⟩ := written_records h hr
  have hmanifestLength := hlength.trans hprepared.length_eq.symm
  have hsome : records ≠ [] := by
    rintro rfl
    exact hmanifest (List.eq_nil_of_length_eq_zero hmanifestLength.symm)
  have hsummary : ∀ summary, summarizeRecords records = .ok summary → SummaryTrue records summary := by
    intro summary hsummary
    obtain ⟨_, _, hsummed⟩ := summarizeRecords_ok hsummary
    exact hsummed.summaryTrue
  refine ⟨hsome, hmanifestLength.trans hloaded.length_eq.symm, fun i line hline => ?_, hsummary, fun S => ⟨?_, ?_⟩⟩
  · obtain ⟨hlt, hget⟩ := List.getElem?_eq_some_iff.mp hline
    have hlt' : i < manifest.length := hloaded.length_eq ▸ hlt
    have hlt'' : i < cases.length := hprepared.length_eq ▸ hlt'
    obtain ⟨record, hrecord, hindex, htrue⟩ := hrecords i cases[i] (List.getElem?_eq_getElem hlt'')
    have hvalue := hloaded.get hlt hlt'
    have hcase := hprepared.get hlt' hlt''
    simp only [List.get_eq_getElem, hget] at hvalue hcase
    obtain ⟨hrow, hsha⟩ := prepareCase_true hcase
    rw [hrow] at hvalue
    refine ⟨record, hrecord, hindex, ?_⟩
    rw [htrue.own]
    exact ⟨hvalue, hsha, htrue⟩
  · rw [finish_ok_iff, summarize_ok_iff]
    exact and_congr_right fun _ => and_congr_right fun _ =>
      ⟨fun hsum => hsum.2.2, fun hids => ⟨hsome, written_latencies h hr, hids⟩⟩
  · intro status hstatus
    obtain ⟨summary, hsum, rfl⟩ := finish_ok hstatus
    exact status_pass hlength (hsummary summary hsum)

end

/-! ## A manifest of one case -/

def catFields : Python.Dict := [
  (Python.str "case_id", .str (Python.str "cat_1")), (Python.str "source_case_id", .str (Python.str "cat")),
  (Python.str "scenario", .str (Python.str "bagel_reliability")), (Python.str "repeat_index", .int 1),
  (Python.str "image_path", .str (Python.str "data/cat.png")),
  (Python.str "image_sha256",
    .str (Python.str "6e340b9cffb37a989ca544e6bb780a2c78901d3fb33738768511a30617afa01d")),
  (Python.str "prompt", .str (Python.str "What is this?")), (Python.str "show_thinking", .bool false),
  (Python.str "do_sample", .bool false), (Python.str "temperature", .float (.finite (3 / 10))),
  (Python.str "max_new_tokens", .int 512)]

def catRecord : ManifestRecord := ⟨catFields, by decide +kernel⟩

def catLine : Chars :=
  ["\x7b\"case_id\": \"cat_1\", ", "\"source_case_id\": \"cat\", ", "\"scenario\": ", "\"bagel_reliability\", ",
    "\"repeat_index\": 1, ", "\"image_path\": ", "\"data/cat.png\", ", "\"image_sha256\": ",
    "\"6e340b9cffb37a989ca544e6bb780a2c", "78901d3fb33738768511a30617afa01d\", ", "\"prompt\": ",
    "\"What is this?\", ", "\"show_thinking\": false, ", "\"do_sample\": false, ", "\"temperature\": 0.3, ",
    "\"max_new_tokens\": 512\x7d"].flatMap String.toList

def catLoads (line : Chars) : Except Python.Exception Python.Value :=
  if line = catLine then .ok (.dict catFields) else .error ⟨"JSONDecodeError", Python.str "Expecting value"⟩

theorem catManifest_loaded : loadManifest catLoads "manifest.jsonl" (catLine ++ ['\n']) = .ok [.record catRecord] := by
  decide +kernel

def catFiles : ImageFiles where
  image _ := .ok (some [0])
  absolute path := Python.str "/repository/" ++ path
  filename _ := Python.str "cat.png"
  sha256 _ := "6e340b9cffb37a989ca544e6bb780a2c78901d3fb33738768511a30617afa01d"
  guessType _ := some "image/png"

def catTexts : ValueTexts where
  format
    | .bool b => if b then "True" else "False"
    | .int n => toString n
    | _ => "0.3"
  lower text := if text = Python.str "True" then Python.str "true" else if text = Python.str "False" then
    Python.str "false" else text

def catHttp : MultimodalHttp where
  filename := some
  prompt := some
  flag text := if text = "true" then some true else if text = "false" then some false else none
  number text := if text = "0.3" then some (.finite (3 / 10)) else none
  integer text := if text = "512" then some 512 else none
  responseModel response := [(Python.str "response", .str (Python.str response.response)),
    (Python.str "latency_seconds", .float (.finite response.latencySeconds))]
  rejected _ := (422, [])
  dumps _ := []

theorem catHttp_faithful : catHttp.Faithful where
  prompt _ _ h := (Option.some.inj h).symm
  response _ := by simp [catHttp]
  latency _ := by simp [catHttp, Python.str_inj]
  rejected _ := by simp [catHttp]

def catCase : BagelCase := ⟨catRecord, Python.str "cat.png", [0], "image/png", none, none⟩

theorem catCase_prepared : prepareCases catFiles catTexts [.record catRecord] = .ok [catCase] := rfl

def catWorkload : Lts BagelWorkload BagelWorkloadAct := bagelWorkload bagelConfig catHttp catTexts [catCase] noGauges 1

def catActs : List BagelWorkloadAct := [
  .start, .post 0, .service (.thread 0 (.createFile "a")), .service (.thread 0 .write),
  .service (.thread 0 .bagelClient), .service (.thread 0 .construct), .service (.thread 0 .predict),
  .service (.thread 0 (.answer (Python.str "a cat"))), .service (.thread 0 .unlink),
  .service (.respond 0 2 .osError), .receive 0, .gather 0]

theorem cat_runs : (catWorkload.runFrom catWorkload.init catActs).isSome = true := by decide +kernel

def catDone : BagelWorkload := Option.get _ cat_runs

def quietSteps : BagelSteps := ⟨.ok (), fun _ => .ok (), .ok (), .ok ()⟩

theorem bagel_workload_true_cat : ∃ records, catDone.records = some records ∧
    (∃ record, records[0]? = some record ∧ catLoads catLine = .ok (.dict record.case.record.fields) ∧
      BagelRecordTrue catHttp catTexts catDone.service record.case record) ∧
    ∃ status, finishWorkload quietSteps [catCase] records = .ok status := by
  have hwritten : catDone.records.isSome = true := by decide +kernel
  obtain ⟨records, hrecords⟩ := Option.isSome_iff_exists.mp hwritten
  obtain ⟨_, hall⟩ := bagel_workload_true catHttp_faithful catManifest_loaded catCase_prepared
    ⟨catActs, (Option.some_get cat_runs).symm⟩
  obtain ⟨_, _, hcases, _, hfinish⟩ := hall records hrecords
  have hline : (manifestCases (catLine ++ ['\n']))[0]? = some catLine := by decide +kernel
  obtain ⟨record, hrecord, _, hvalue, _, htrue⟩ := hcases 0 catLine hline
  have hplain : (catDone.records.getD []).all BagelRecord.plain = true := by decide +kernel
  have hids : (catDone.records.getD []).map BagelRecord.sourceCaseId = [.str (Python.str "cat")] := by decide +kernel
  rw [hrecords, Option.getD_some] at hplain hids
  refine ⟨records, hrecords, ⟨record, hrecord, hvalue, htrue⟩, (hfinish quietSteps).1.mpr ⟨?_, ?_, .inl ?_⟩⟩
  · exact ⟨rfl, fun _ _ => rfl, rfl, rfl⟩
  · exact List.all_eq_true.mp hplain
  · rw [hids]
    intro id hid
    exact ⟨_, List.mem_singleton.mp hid⟩

end InferenceService
