import InferenceService.Gateway.Classified
import InferenceService.Gateway.JobRecords
import InferenceService.Jobs.Final

/-!
# Finished jobs that can be read

The result of a job goes from the response of the server through `generate`,
`generate_text` and `complete` into the record, unchecked on its way. The
handler of `GET /jobs/{job_id}` validates it, and its response is rendered.
-/

namespace InferenceService

section
variable {P : Pydantic} {latencySeconds : ℚ} {data : Python.Value} {c : VLLMBackend.Completion}

/-! ## From the response to the result -/

/-- `value / latency_seconds`, if it is a number, is a finite one. -/
def FiniteQuotient (latencySeconds : ℚ) : Python.Value → Prop
  | .int n => |Double.nearest n / latencySeconds| < Python.floatBound
  | .bool b => |(if b then 1 else 0) / latencySeconds| < Python.floatBound
  | .float (.finite q) => |q / latencySeconds| < Python.floatBound
  | .float _ => False
  | _ => True

theorem finiteQuotient_iff {outputTokens : Python.Value} {x : Python.Float}
    (h : outputTokens.trueDiv latencySeconds = .ok x) :
    FiniteQuotient latencySeconds outputTokens ↔ x.isFinite = true := by
  cases outputTokens with
  | int n =>
    simp only [Python.Value.trueDiv] at h
    split_ifs at h
    cases h
    exact Python.Float.isFinite_ofRat.symm
  | bool b =>
    cases h
    exact Python.Float.isFinite_ofRat.symm
  | float y =>
    cases y with
    | finite q =>
      cases h
      exact Python.Float.isFinite_ofRat.symm
    | infinite negative =>
      cases h
      simp [FiniteQuotient, Python.Float.isFinite]
    | nan =>
      cases h
      simp [FiniteQuotient, Python.Float.isFinite]
  | _ => cases h

/-- The throughput is a finite number, or it is not computed. -/
def FiniteRate (latencySeconds : ℚ) (outputTokens : Python.Value) : Prop :=
  0 < latencySeconds → FiniteQuotient latencySeconds outputTokens

theorem finiteRate_iff {outputTokens : Python.Value} {rate : Option Python.Float}
    (h : VLLMBackend.tokensPerSecond latencySeconds outputTokens = .ok rate) :
    FiniteRate latencySeconds outputTokens ↔ ∀ x ∈ rate, x.isFinite = true := by
  unfold VLLMBackend.tokensPerSecond at h
  split_ifs at h with hcond
  · cases hdiv : outputTokens.trueDiv latencySeconds with
    | error e => rw [hdiv] at h; cases h
    | ok x =>
      rw [hdiv] at h
      cases h
      simp only [FiniteRate, hcond.2, true_imp_iff, finiteQuotient_iff hdiv, Option.mem_def, Option.some.injEq,
        forall_eq']
  · cases h
    refine ⟨fun _ => nofun, fun _ hpos => ?_⟩
    cases outputTokens with
    | none => trivial
    | _ => exact absurd ⟨rfl, hpos⟩ hcond

/-- A response with a choice whose fields are of the types of the result's and
can be sent as JSON. -/
def BodyFits (P : Pydantic) (latencySeconds : ℚ) (data : Python.Value) : Prop :=
  ∃ items choice choices message usage, data = .dict items ∧ Completes items choice choices message usage ∧
    ResponseFits P message usage ∧ (field message "content" (.str [])).encodes = true ∧
    FiniteRate latencySeconds (field usage "completion_tokens" .none)

/-- What of a result JSON may refuse. -/
def VLLMBackend.Completion.Rendered (c : VLLMBackend.Completion) : Prop :=
  c.response.encodes = true ∧ ∀ x ∈ c.tokensPerSecond, x.isFinite = true

theorem Completes.unique {items choice choice' : Python.Dict} {choices choices' : List Python.Value}
    {message message' usage usage' : Python.Dict} (h : Completes items choice choices message usage)
    (h' : Completes items choice' choices' message' usage') : message = message' ∧ usage = usage' := by
  have hchoices := h.choices.symm.trans h'.choices
  simp only [Python.Value.list.injEq, List.cons.injEq, Python.Value.dict.injEq] at hchoices
  obtain ⟨rfl, rfl⟩ := hchoices
  have hmessage := h.message.symm.trans h'.message
  have husage := h.usage.symm.trans h'.usage
  exact ⟨Python.Value.dict.inj hmessage, Python.Value.dict.inj husage⟩

theorem bodyFits_iff (h : VLLMBackend.readCompletion latencySeconds data = .ok (some c)) :
    BodyFits P latencySeconds data ↔ c.Accepted P ∧ c.Rendered := by
  obtain ⟨items, choice, choices, message, usage, rfl, hc, hresponse, hinput, houtput, htotal, hrate⟩ :=
    readCompletion_some.mp h
  unfold VLLMBackend.Completion.Rendered
  rw [← finiteRate_iff hrate]
  unfold VLLMBackend.Completion.Accepted
  rw [hresponse, hinput, houtput, htotal]
  constructor
  · rintro ⟨items', choice', choices', message', usage', heq, hc', hfits, hencodes, hfinite⟩
    cases heq
    obtain ⟨rfl, rfl⟩ := hc.unique hc'
    exact ⟨⟨hfits.response, hfits.inputTokens, hfits.outputTokens, hfits.totalTokens⟩, hencodes, hfinite⟩
  · rintro ⟨⟨hresponse, hinput, houtput, htotal⟩, hencodes, hfinite⟩
    exact ⟨items, choice, choices, message, usage, rfl, hc, ⟨hresponse, hinput, houtput, htotal⟩, hencodes, hfinite⟩

theorem generate_ok {b : VLLMBackend} {codec : BodyCodec} {call : VLLMCall} {exchange : HttpRequest → Exchange}
    {value : Python.Dict} (h : b.generate codec call exchange latencySeconds = .ok value) :
    ∃ data c, b.receive codec (exchange (b.request call)) = .ok data ∧
      VLLMBackend.readCompletion latencySeconds data = .ok (some c) ∧ value = b.result call latencySeconds c := by
  unfold VLLMBackend.generate at h
  cases hreceive : b.receive codec (exchange (b.request call)) with
  | error raised => simp only [hreceive, reduceCtorEq] at h
  | ok data =>
    simp only [hreceive] at h
    cases hread : VLLMBackend.readCompletion latencySeconds data with
    | error typeName => simp only [hread, reduceCtorEq] at h
    | ok c =>
      cases c with
      | none => simp only [hread, reduceCtorEq] at h
      | some c =>
        simp only [hread, Except.ok.injEq] at h
        exact ⟨data, c, rfl, hread, h.symm⟩

theorem receive_ok {b : VLLMBackend} {codec : BodyCodec} {x : Exchange} (h : b.receive codec x = .ok data) :
    ∃ rawBody, codec.loads rawBody = .ok data := by
  cases x with
  | urlError timedOut => cases timedOut <;> cases h
  | noStatus error => cases h
  | badRedirect typeName => cases h
  | response status body =>
    unfold VLLMBackend.receive at h
    by_cases hs : 200 ≤ status ∧ status < 300
    · simp only [if_pos hs] at h
      cases body with
      | error error => cases h
      | ok bytes =>
        cases hdecode : codec.decode bytes with
        | none => simp only [hdecode, reduceCtorEq] at h
        | some rawBody =>
          refine ⟨rawBody, ?_⟩
          cases hloads : codec.loads rawBody with
          | ok value =>
            simp only [hdecode, hloads] at h
            rw [Except.ok.inj h]
          | error e => cases e <;> simp only [hdecode, hloads, reduceCtorEq] at h
    · simp only [if_neg hs] at h
      cases hread : VLLMBackend.readErrorBody codec body <;> simp only [hread, reduceCtorEq] at h

theorem toDict_accepted (hP : P.Strict) {b : VLLMBackend} {call : VLLMCall}
    {outcome : ResilienceOutcome Python.Dict} (h : outcome.value = b.result call latencySeconds c) :
    validates (generateResponse P) outcome.toDict = true ↔ c.Accepted P := by
  simp only [validates, generateResponse, SchemaField.check_eq, ResilienceOutcome.toDict, Python.Dict.update,
    List.foldl_cons, List.foldl_nil, Python.Dict.get?_set, h, VLLMBackend.result, Python.Dict.get?_cons,
    Python.str_inj, String.reduceEq, if_true, if_false, Option.map_some, Option.getD_some, List.all_cons,
    List.all_nil, hP.float, hP.int, hP.str, optional_ofInt? hP, optional_int hP, optional_str hP, optional_float hP,
    Bool.true_and, Bool.and_true, Bool.and_eq_true, VLLMBackend.Completion.Accepted]

theorem toDict_rendered {b : VLLMBackend} {call : VLLMCall} {outcome : ResilienceOutcome Python.Dict}
    (h : outcome.value = b.result call latencySeconds c) :
    renders (generateResponse P) outcome.toDict = true ↔ c.Rendered := by
  have hrate : ((c.tokensPerSecond.map fun x => Python.Value.float (.round 4 x)).getD .none).isFinite = true ↔
      ∀ x ∈ c.tokensPerSecond, x.isFinite = true := by
    cases c.tokensPerSecond with
    | none => exact ⟨fun _ => nofun, fun _ => rfl⟩
    | some x => simp [Python.Value.isFinite, Python.Float.isFinite_round]
  have hlatency : (Python.Value.float (.round 6 (.finite latencySeconds))).isFinite = true := rfl
  simp only [renders, generateResponse, ResilienceOutcome.toDict, Python.Dict.update, List.foldl_cons, List.foldl_nil,
    Python.Dict.get?_set, h, VLLMBackend.result, Python.Dict.get?_cons, Python.str_inj, String.reduceEq, if_true,
    if_false, Option.map_some, Option.getD_some, List.all_cons, List.all_nil, Python.Value.encodes_str, always,
    hlatency, Bool.true_and, Bool.and_true, Bool.and_eq_true, hrate, VLLMBackend.Completion.Rendered]

/-- The value of an outcome was made of the body of the call that it names. -/
theorem outcome_value {I : VLLMInference} {B : BreakerAnswers} {requestId : String} {call : VLLMCall}
    {outcome : ResilienceOutcome Python.Dict} (h : I.outcome B requestId call = .ok outcome) :
    ∃ data c, I.body call outcome = .ok data ∧ ∃ b call',
      VLLMBackend.readCompletion (I.latencySeconds outcome) data = .ok (some c) ∧
      outcome.value = VLLMBackend.result b call' (I.latencySeconds outcome) c := by
  have horigin := (ResilienceController.result_ok I.controller B (I.request requestId call) h).2
  unfold ResilienceController.Origin at horigin
  unfold VLLMInference.body VLLMInference.latencySeconds
  cases hroute : outcome.route with
  | primary =>
    rw [hroute] at horigin
    obtain ⟨k, hk, hvalue⟩ := horigin
    obtain ⟨data, c, hreceive, hread, hvalue⟩ := generate_ok hvalue
    simp only [hk, Nat.add_sub_cancel, hreceive]
    exact ⟨data, c, rfl, I.backend, call, hread, hvalue⟩
  | fallback =>
    rw [hroute] at horigin
    obtain ⟨b, hb, hvalue⟩ := Option.map_eq_some_iff.mp horigin
    obtain ⟨data, c, hreceive, hread, hvalue⟩ := generate_ok hvalue
    simp only [hb, hreceive]
    exact ⟨data, c, rfl, b, _, hread, hvalue⟩

end

/-! ## From the result to the answer -/

section
variable {P : Pydantic} {J : JsonLib Python.Value} {s : QueueSys Python.Value} {j : String}
  {st : JobState Python.Value}

theorem result_none (hs : (jobQueue J).Reachable s) (h : s.redis.job j = some st) (hst : st.status ≠ .succeeded) :
    st.result = none := by
  have hwf := ((reachable_records hs).job j st h).wellFormed
  cases hstatus : st.status with
  | queued => exact (hwf.queued hstatus).2.2.2.1
  | running => exact (hwf.running hstatus).2.2.2.1
  | succeeded => exact absurd hstatus hst
  | failed => exact (hwf.failed hstatus).2.2.2.2

theorem completed_result (hs : (jobQueue J).Reachable s) {c : FinalizeCall Python.Value} (hc : .finalized c ∈ s.log)
    (hj : c.lease.message.jobId = j) (h : s.redis.job j = some st) {result : Python.Value}
    (houtcome : c.outcome = .complete result) : st.status = .succeeded ∧ st.result = some result := by
  subst hj
  obtain rfl := reachable_kept hs c hc st h
  unfold FinalizeCall.state
  rw [houtcome]
  exact ⟨rfl, rfl⟩

theorem completed_of_succeeded (hs : (jobQueue J).Reachable s) (h : s.redis.job j = some st)
    (hst : st.status = .succeeded) : ∃ c, .finalized c ∈ s.log ∧ c.lease.message.jobId = j ∧
      ∀ result, st.result = some result → c.outcome = .complete result := by
  obtain ⟨ev, hev, rfl⟩ := (reachable_fenced hs).recorded j st h
  obtain ⟨hmem, hj⟩ := lastWrite_mem hev
  cases ev with
  | enqueued q => cases hst
  | marked c => cases hst
  | finalized c =>
    refine ⟨c, hmem, hj, fun result hresult => ?_⟩
    simp only [QueueEvent.state, FinalizeCall.state] at hst hresult
    cases houtcome : c.outcome with
    | complete value =>
      simp only [houtcome, Option.some.injEq] at hresult
      rw [hresult]
    | fail errorType errorMessage => simp only [houtcome, reduceCtorEq] at hst

/-- A completed job whose result `generate_text` returned is read unless the
response that it comes from does not fit; every other record is read. -/
theorem finished_jobs_read_iff (hP : P.Strict) (dumps : Python.Value → Except DumpsError String)
    (loads : String → Except String Python.Value) (hJ : (valueJson dumps loads).RoundTrips)
    (hs : (jobQueue (valueJson dumps loads)).Reachable s) (h : s.redis.job j = some st) (text : String)
    (htext : dumps (.dict st.toDict) = .ok text) (I : VLLMInference) (B : BreakerAnswers) (requestId : String)
    (call : VLLMCall) :
    (st.status ≠ .succeeded → Answers (valueJson dumps loads) P j text st.status) ∧
      ∀ c result, .finalized c ∈ s.log → c.lease.message.jobId = j → c.outcome = .complete (.dict result) →
        I.generateText B requestId call = .ok result → st.status = .succeeded ∧
          ∃ outcome data, I.outcome B requestId call = .ok outcome ∧ I.body call outcome = .ok data ∧
            (Answers (valueJson dumps loads) P j text st.status ↔ BodyFits P (I.latencySeconds outcome) data) := by
  have hiff := answers_iff hP hJ htext j
  constructor
  · intro hst
    rw [hiff, result_none hs h hst]
    exact nofun
  · intro c result hc hj houtcome htext'
    obtain ⟨hstatus, hresult⟩ := completed_result hs hc hj h houtcome
    refine ⟨hstatus, ?_⟩
    unfold VLLMInference.generateText at htext'
    cases hI : I.outcome B requestId call with
    | error e => rw [hI] at htext'; cases htext'
    | ok outcome =>
      rw [hI] at htext'
      obtain rfl := Except.ok.inj htext'
      obtain ⟨data, completion, hbody, b, call', hread, hvalue⟩ := outcome_value hI
      refine ⟨outcome, data, rfl, hbody, ?_⟩
      rw [hiff, hresult, bodyFits_iff hread, ← toDict_accepted hP hvalue, ← @toDict_rendered P _ _ _ _ _ hvalue]
      simp only [Option.mem_def, Option.some.injEq, forall_eq', optional, Python.Value.isNone, Bool.false_or,
        acceptsResult, sendsResult]

end

/-! ## One job, completed with a text or with null -/

section
variable (table : List (Python.Value × String))

/-- The JSON texts of a few values. -/
def tableDumps (value : Python.Value) : Except DumpsError String :=
  match table.find? fun row => row.1 = value with
  | some row => .ok row.2
  | none => .error (.typeOrValueError "Object is not JSON serializable")

def tableLoads (text : String) : Except String Python.Value :=
  match table.find? fun row => row.2 = text with
  | some row => .ok row.1
  | none => .error "Expecting value: line 1 column 1 (char 0)"

variable {table}

theorem mem_of_tableDumps {value : Python.Value} {text : String} (h : tableDumps table value = .ok text) :
    (value, text) ∈ table := by
  unfold tableDumps at h
  cases hfind : table.find? fun row => row.1 = value with
  | none => simp only [hfind, reduceCtorEq] at h
  | some row =>
    simp only [hfind, Except.ok.injEq] at h
    have hvalue : row.1 = value := by simpa using List.find?_some hfind
    exact hvalue ▸ h ▸ List.mem_of_find?_eq_some hfind

theorem tableDumps_of_mem (hnodup : (table.map Prod.fst).Nodup) {value : Python.Value} {text : String}
    (h : (value, text) ∈ table) : tableDumps table value = .ok text := by
  unfold tableDumps
  cases hfind : table.find? fun row => row.1 = value with
  | none =>
    have := List.find?_eq_none.mp hfind _ h
    simp at this
  | some row =>
    have hvalue : row.1 = value := by simpa using List.find?_some hfind
    rw [List.inj_on_of_nodup_map hnodup (List.mem_of_find?_eq_some hfind) h hvalue]

theorem table_roundTrips (hnodup : (table.map Prod.snd).Nodup) :
    (valueJson (tableDumps table) (tableLoads table)).RoundTrips := by
  intro value text _ hdumps
  have hrow := mem_of_tableDumps hdumps
  change tableLoads table text = .ok value
  unfold tableLoads
  cases hfind : table.find? fun row => row.2 = text with
  | none =>
    have := List.find?_eq_none.mp hfind _ hrow
    simp at this
  | some row =>
    have htext : row.2 = text := by simpa using List.find?_some hfind
    rw [List.inj_on_of_nodup_map hnodup (List.mem_of_find?_eq_some hfind) hrow htext]

end

section
variable (content : Python.Value) (contentJson : String)

def chatInference : VLLMInference where
  controller := oneRetry
  backend := localVllm
  fallbackBackend := none
  fallbackThinkingBudget := some 512
  codec := chatCodec content contentJson
  primaryCall _ := ⟨fun _ => chatExchange contentJson, 1⟩
  fallbackCall := ⟨fun _ => chatExchange contentJson, 1⟩

def chatPayload : Python.Value := .dict [(Python.str "prompt", .str (Python.str "hi"))]

def chatResult : Python.Dict := [
  (Python.str "response", content),
  (Python.str "latency_seconds", .float (.finite 1)),
  (Python.str "input_chars", .int 2),
  (Python.str "max_new_tokens", .int 128),
  (Python.str "thinking_budget", .none),
  (Python.str "backend", .str (Python.str "vllm")),
  (Python.str "input_tokens", .none),
  (Python.str "output_tokens", .none),
  (Python.str "tokens_per_second", .none),
  (Python.str "model_name", .str (Python.str "Qwen3-8B")),
  (Python.str "device", .str (Python.str "vllm_server")),
  (Python.str "total_tokens", .none),
  (Python.str "request_id", .str (Python.str "id")),
  (Python.str "route", .str (Python.str "primary")),
  (Python.str "primary_attempts", .int 1),
  (Python.str "fallback_thinking_budget", .none)]

def chatResultJson : String :=
  "\x7b\"response\":" ++ contentJson ++ ",\"latency_seconds\":1.0,\"input_chars\":2,\"max_new_tokens\":128," ++
  "\"thinking_budget\":null,\"backend\":\"vllm\",\"input_tokens\":null,\"output_tokens\":null," ++
  "\"tokens_per_second\":null,\"model_name\":\"Qwen3-8B\",\"device\":\"vllm_server\",\"total_tokens\":null," ++
  "\"request_id\":\"id\",\"route\":\"primary\",\"primary_attempts\":1,\"fallback_thinking_budget\":null\x7d"

def chatState : JobState Python.Value where
  jobId := "job"
  status := .succeeded
  createdAtMs := 7
  updatedAtMs := 9
  attemptCount := 1
  worker := some "worker"
  result := some (.dict (chatResult content))

def chatStateJson : String :=
  "\x7b\"job_id\":\"job\",\"status\":\"succeeded\",\"created_at_ms\":7,\"updated_at_ms\":9," ++
  "\"attempt_count\":1,\"worker\":\"worker\",\"result\":" ++ chatResultJson contentJson ++ "\x7d"

def chatTable : List (Python.Value × String) := [
  (chatPayload, "\x7b\"prompt\":\"hi\"\x7d"),
  (.dict (chatResult content), chatResultJson contentJson),
  (.dict (chatState content).toDict, chatStateJson contentJson)]

def chatJson : JsonLib Python.Value :=
  valueJson (tableDumps (chatTable content contentJson)) (tableLoads (chatTable content contentJson))

def chatRun : List (QueueAct Python.Value) :=
  [.enqueue "job" chatPayload 7, .ensureConsumerGroup, .readNew "worker" 1, .markGet 0 "worker" "token" 8, .markEval 0,
    .finalizeGet 0 (.complete (.dict (chatResult content))) 9, .finalizeEval 0]

variable {content contentJson} in
theorem chat_body {call : VLLMCall} {outcome : ResilienceOutcome Python.Dict} {data : Python.Value}
    (h : (chatInference content contentJson).body call outcome = .ok data) : data = chatData content := by
  have hloads : ∃ rawBody, (chatCodec content contentJson).loads rawBody = .ok data := by
    unfold VLLMInference.body at h
    cases hroute : outcome.route with
    | primary => exact receive_ok (hroute ▸ h)
    | fallback => rw [hroute] at h; cases h
  obtain ⟨rawBody, h⟩ := hloads
  simp only [chatCodec] at h
  split_ifs at h
  exact (Except.ok.inj h).symm

structure ChatCompletes : Prop where
  values : ((chatTable content contentJson).map Prod.fst).Nodup
  texts : ((chatTable content contentJson).map Prod.snd).Nodup
  generated : (chatInference content contentJson).generateText closedAnswers "id" { prompt := Python.str "hi" } =
    .ok (chatResult content)
  stored : ((jobQueue (chatJson content contentJson)).runFrom (jobQueue (chatJson content contentJson)).init
    (chatRun content)).bind (fun s => s.redis.job "job") = some (chatState content)

variable {content contentJson} in
theorem ChatCompletes.text (h : ChatCompletes content contentJson) :
    tableDumps (chatTable content contentJson) (.dict (chatState content).toDict) = .ok (chatStateJson contentJson) := by
  refine tableDumps_of_mem h.values ?_
  unfold chatTable
  exact List.mem_cons_of_mem _ (List.mem_cons_of_mem _ List.mem_cons_self)

end

theorem hello_completes : ChatCompletes hello "\"hello\"" :=
  ⟨by decide, by decide, by decide +kernel, by decide⟩

theorem null_completes : ChatCompletes .none "null" :=
  ⟨by decide, by decide, by decide +kernel, by decide⟩

theorem finished_jobs_read_hello :
    Answers (chatJson hello "\"hello\"") plainPydantic "job" (chatStateJson "\"hello\"") .succeeded := by
  obtain ⟨s, hs, hst⟩ := Option.bind_eq_some_iff.mp hello_completes.stored
  obtain ⟨c, hc, hj, houtcome⟩ := completed_of_succeeded ⟨_, hs⟩ hst rfl
  obtain ⟨-, hcompleted⟩ := finished_jobs_read_iff plainPydantic_strict _ _
    (table_roundTrips hello_completes.texts) ⟨_, hs⟩ hst _ hello_completes.text (chatInference hello "\"hello\"")
    closedAnswers "id" { prompt := Python.str "hi" }
  obtain ⟨-, _, _, -, hbody, hiff⟩ := hcompleted c _ hc hj (houtcome _ rfl) hello_completes.generated
  refine hiff.mpr (chat_body hbody ▸ ⟨_, _, _, _, _, rfl, ⟨rfl, rfl, rfl⟩, ?_, rfl, fun _ => trivial⟩)
  exact ⟨by decide, by decide, by decide, by decide⟩

/-- The record of a job that is completed with a response of null. -/
theorem null_response_not_read : ∃ s c st, (jobQueue (chatJson .none "null")).Reachable s ∧
    .finalized c ∈ s.log ∧ c.lease.message.jobId = "job" ∧ c.outcome = .complete (.dict (chatResult .none)) ∧
    (chatInference .none "null").generateText closedAnswers "id" { prompt := Python.str "hi" } =
      .ok (chatResult .none) ∧
    s.redis.job "job" = some st ∧ tableDumps (chatTable .none "null") (.dict st.toDict) = .ok (chatStateJson "null") ∧
    ¬ Answers (chatJson .none "null") plainPydantic "job" (chatStateJson "null") st.status := by
  obtain ⟨s, hs, hst⟩ := Option.bind_eq_some_iff.mp null_completes.stored
  obtain ⟨c, hc, hj, houtcome⟩ := completed_of_succeeded ⟨_, hs⟩ hst rfl
  refine ⟨s, c, _, ⟨_, hs⟩, hc, hj, houtcome _ rfl, null_completes.generated, hst, null_completes.text, ?_⟩
  intro h
  have hresult := (answers_iff plainPydantic_strict (table_roundTrips null_completes.texts) null_completes.text
    "job").mp h _ rfl
  exact absurd hresult.1 (by decide)

end InferenceService
