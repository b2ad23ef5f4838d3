import InferenceService.Gateway.Schemas
import InferenceService.Jobs.Records

/-!
# `GET /jobs/{job_id}`

A record is read back from its text, validated on the way out and rendered as
JSON.
-/

namespace InferenceService

def JobStatus.value : JobStatus → String
  | queued => "queued"
  | running => "running"
  | succeeded => "succeeded"
  | failed => "failed"

/-- JSON of the values of Python, by its two functions. -/
def valueJson (dumps : Python.Value → Except DumpsError String) (loads : String → Except String Python.Value) :
    JsonLib Python.Value where
  dumps
  loads
  isDict
    | .dict _ => true
    | _ => false

def optionalItem (name : String) (value : Option Python.Value) : Python.Dict :=
  match value with
  | none => []
  | some value => [(Python.str name, value)]

/-- The dict that the text of a record stands for. -/
def JobState.toDict (st : JobState Python.Value) : Python.Dict :=
  [(Python.str "job_id", .str (Python.str st.jobId)),
    (Python.str "status", .str (Python.str st.status.value)),
    (Python.str "created_at_ms", .int st.createdAtMs),
    (Python.str "updated_at_ms", .int st.updatedAtMs),
    (Python.str "attempt_count", .int st.attemptCount)] ++
  (optionalItem "worker" (st.worker.map fun text => .str (Python.str text)) ++
  (optionalItem "delivery_token" (st.deliveryToken.map fun text => .str (Python.str text)) ++
  (optionalItem "result" st.result ++
  (optionalItem "error_type" (st.errorType.map fun text => .str (Python.str text)) ++
  optionalItem "error_message" (st.errorMessage.map fun text => .str (Python.str text))))))

/-! ## Reading -/

section
variable (J : JsonLib Python.Value) (P : Pydantic)

/-- `RedisStreamJobQueue.get_job` on the reply of `GET`. -/
def readJob (reply : Except RedisError (Option String)) : Except JobQueueError (Option Python.Value) :=
  match reply with
  | .error e => .error (.unavailable ("failed to read job status: " ++ e.text))
  | .ok none => .ok none
  | .ok (some rawState) => do
    let state ← decodeJson J rawState
    if J.isDict state then .ok (some state) else .error (.protocol "job state must be a JSON object")

/-- How the request ends: with a dict that is sent as the response, status 503
or 404, an error that the handler does not catch, a dict that does not validate,
or one of which no JSON text is made. -/
inductive JobReply where
  | answered (state : Python.Dict)
  | jobQueueUnavailable (message : String)
  | jobNotFound (jobId : String)
  | raised (error : JobQueueError)
  | invalid
  | unrendered

def respond (state : Python.Dict) : JobReply :=
  if validates (jobStatusResponse P) state then
    if renders (jobStatusResponse P) state then .answered state else .unrendered
  else .invalid

/-- The `get_job` of `app.main` with its response model. -/
def jobReply (jobId : String) (reply : Except RedisError (Option String)) : JobReply :=
  match readJob J reply with
  | .error (.unavailable message) => .jobQueueUnavailable message
  | .error e => .raised e
  | .ok none => .jobNotFound jobId
  | .ok (some (.dict items)) => respond P items
  | .ok (some _) => .invalid

/-- The job can be read: a valid response with its status is sent. -/
def Answers (jobId text : String) (status : JobStatus) : Prop :=
  ∃ state, jobReply J P jobId (.ok (some text)) = .answered state ∧
    state.get? (Python.str "status") = some (.str (Python.str status.value))

end

/-! ## Which records validate -/

section
variable {P : Pydantic} {st : JobState Python.Value}

@[simp] theorem optionalItem_get? (name : String) (value : Option Python.Value) (key : String) :
    (optionalItem name value).get? (Python.str key) = if name = key then value else none := by
  cases value with
  | none => simp [optionalItem]
  | some value => simp [optionalItem, Python.str_inj]

theorem toDict_status (st : JobState Python.Value) :
    st.toDict.get? (Python.str "status") = some (.str (Python.str st.status.value)) := by
  simp only [JobState.toDict, Python.Dict.get?_append, Python.Dict.get?_cons, Python.str_inj, String.reduceEq, if_true,
    if_false, Option.some_or]

theorem acceptsStatus_value (status : JobStatus) : acceptsStatus (.str (Python.str status.value)) = true := by
  cases status <;> decide

theorem optional_text (hP : P.Strict) (text : Option String) :
    ((text.map fun text => Python.Value.str (Python.str text)).map (optional P.str)).getD true = true := by
  cases text with
  | none => rfl
  | some text => exact hP.str text

/-- Only a result can fail the validation. -/
theorem toDict_validates (hP : P.Strict) (st : JobState Python.Value) :
    validates (jobStatusResponse P) st.toDict = true ↔
      ∀ value ∈ st.result, optional (acceptsResult P) value = true := by
  simp only [validates, jobStatusResponse, SchemaField.check_eq, JobState.toDict, Python.Dict.get?_append,
    Python.Dict.get?_cons, Python.Dict.get?_nil, optionalItem_get?, Python.str_inj, String.reduceEq, if_true, if_false,
    Option.none_or, Option.or_none, Option.map_some, Option.getD_some, List.all_cons, List.all_nil,
    hP.str, hP.int, acceptsStatus_value, optional_text hP, Bool.true_and, Bool.and_true, Bool.not_false]
  cases st.result <;> simp

/-- Only a result can fail to be sent. -/
theorem toDict_renders (P : Pydantic) (st : JobState Python.Value) :
    renders (jobStatusResponse P) st.toDict = true ↔ ∀ value ∈ st.result, sendsResult P value = true := by
  have htext : ∀ text : Option String,
      ((text.map fun text => Python.Value.str (Python.str text)).map Python.Value.encodes).getD true = true := by
    intro text
    cases text with
    | none => rfl
    | some text => exact Python.Value.encodes_str text
  simp only [renders, jobStatusResponse, JobState.toDict, Python.Dict.get?_append, Python.Dict.get?_cons,
    Python.Dict.get?_nil, optionalItem_get?, Python.str_inj, String.reduceEq, if_true, if_false, Option.none_or,
    Option.or_none, Option.map_some, Option.getD_some, List.all_cons, List.all_nil, Python.Value.encodes_str, always,
    htext, Bool.true_and, Bool.and_true]
  cases st.result <;> simp

theorem respond_answered {d state : Python.Dict} : respond P d = .answered state ↔
    d = state ∧ validates (jobStatusResponse P) state = true ∧ renders (jobStatusResponse P) state = true := by
  unfold respond
  constructor
  · intro h
    split_ifs at h with hv hr
    cases h
    exact ⟨rfl, hv, hr⟩
  · rintro ⟨rfl, hv, hr⟩
    rw [if_pos hv, if_pos hr]

/-! ## Reading a record back -/

theorem readJob_text {J : JsonLib Python.Value} (hJ : J.RoundTrips) (hdict : J.isDict (.dict st.toDict) = true)
    {text : String} (htext : J.dumps (.dict st.toDict) = .ok text) :
    readJob J (.ok (some text)) = .ok (some (.dict st.toDict)) := by
  have hloads := hJ _ text hdict htext
  simp only [readJob, decodeJson, hloads, bind, Except.bind]
  rw [if_pos hdict]

theorem answers_iff (hP : P.Strict) {dumps : Python.Value → Except DumpsError String}
    {loads : String → Except String Python.Value} (hJ : (valueJson dumps loads).RoundTrips) {text : String}
    (htext : dumps (.dict st.toDict) = .ok text) (jobId : String) :
    Answers (valueJson dumps loads) P jobId text st.status ↔
      ∀ value ∈ st.result, optional (acceptsResult P) value = true ∧ sendsResult P value = true := by
  have hreply : jobReply (valueJson dumps loads) P jobId (.ok (some text)) = respond P st.toDict := by
    unfold jobReply
    rw [@readJob_text st (valueJson dumps loads) hJ rfl text htext]
  unfold Answers
  simp only [hreply, respond_answered, forall_and]
  rw [← toDict_validates hP, ← toDict_renders]
  constructor
  · rintro ⟨_, ⟨rfl, hv, hr⟩, _⟩
    exact ⟨hv, hr⟩
  · rintro ⟨hv, hr⟩
    exact ⟨st.toDict, ⟨rfl, hv, hr⟩, toDict_status st⟩

end

end InferenceService
