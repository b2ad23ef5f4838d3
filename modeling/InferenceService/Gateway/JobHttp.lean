import InferenceService.Gateway.JobRecords
import InferenceService.Worker.ServiceTruth
import InferenceService.Lib.Dialogue

/-!
# The endpoints of the jobs as a client meets them

`POST /jobs` and `GET /jobs/{job_id}` of a service whose workers and other
clients go on. A request may fail on its way, and so may its reply.
-/

namespace InferenceService

/-- What `request_json` gives: the status and the body of a reply, or an exception. -/
abbrev JsonReply := Except Python.Exception (Nat × Python.Dict)

/-- What FastAPI sends of a dict that validates as the response model, and the
`detail` that it gives for a payload that does not validate. -/
structure ResponseModels where
  jobAccepted : Python.Dict → Python.Dict
  jobStatus : Python.Dict → Python.Dict
  unprocessable : PyException → Python.Value

/-- The fields that are texts are sent as they are, and a result as its own model. -/
structure ResponseModels.Faithful (M : ResponseModels) (P : Pydantic) : Prop where
  jobId : ∀ d text, d.get? (Python.str "job_id") = some (.str text) →
    (M.jobAccepted d).get? (Python.str "job_id") = some (.str text)
  texts : ∀ d, validates (jobStatusResponse P) d = true → ∀ key ∈ ["status", "error_type", "error_message"], ∀ text,
    d.get? (Python.str key) = some (.str text) → (M.jobStatus d).get? (Python.str key) = some (.str text)
  result : ∀ d, validates (jobStatusResponse P) d = true →
    ∀ result, d.get? (Python.str "result") = some (.dict result) → ∃ result',
      (M.jobStatus d).get? (Python.str "result") = some (.dict result') ∧
      Python.Dict.get? result' (Python.str "response") = Python.Dict.get? result (Python.str "response")

def rawError (raw : Python.Str) : Python.Dict := [(Python.str "raw_error", .str raw)]

def detail (value : Python.Value) : Python.Dict := [(Python.str "detail", value)]

def queueUnavailableDetail (message : String) : Python.Dict :=
  detail (.dict [(Python.str "error", .str (Python.str "job_queue_unavailable")),
    (Python.str "message", .str (Python.str message))])

def JobReply.exchange (M : ResponseModels) : JobReply → Nat × Python.Dict
  | answered state => (200, M.jobStatus state)
  | jobQueueUnavailable message => (503, queueUnavailableDetail message)
  | jobNotFound jobId => (404, detail (.dict [(Python.str "error", .str (Python.str "job_not_found")),
      (Python.str "job_id", .str (Python.str jobId))]))
  | raised _ | invalid | unrendered => (500, rawError (Python.str "Internal Server Error"))

/-! ## The calls -/

/-- The calls of a client of the jobs: the requests, `time.monotonic() < deadline`,
and the lines that it writes to a file and to its output. -/
inductive JobCall where
  | postJobs (payload : Python.Dict)
  | getJob (jobId : Python.Value)
  | beforeDeadline
  | appendLine (line : Python.Dict)
  | printLine (line : Python.Dict)

/-- Whether it is early, and whether a line has been written; it raises otherwise. -/
def JobCall.Answer : JobCall → Type
  | postJobs _ | getJob _ => JsonReply
  | beforeDeadline | appendLine _ | printLine _ => Bool

/-- What a call meets: an exception, an error that is not of the gateway, what
Redis does when the gateway handles it, or what the file system does. -/
inductive JobInput where
  | failed (exc : Python.Exception)
  | garbled (status : Nat) (raw : Python.Str)
  | submit (jobId : String) (nowMs : Int) (lost : Option RedisError)
  | refuse (error : RedisError)
  | read (error : Option RedisError)
  | time (early : Bool)
  | write (refused : Bool)

def JobInput.early : JobInput → Option Bool
  | time early => some early
  | _ => none

def JobInput.written : JobInput → Option Bool
  | write refused => some (!refused)
  | _ => none

section
variable {W R : Type} (dumps : Python.Value → Except DumpsError String)
  (loads : String → Except String Python.Value) (A : RequestApi Python.Value R) (P : Pydantic) (M : ResponseModels)

def undelivered : JobInput → Option JsonReply
  | .failed exc => some (.error exc)
  | .garbled status raw => if 400 ≤ status then some (.ok (status, rawError raw)) else none
  | _ => none

def postJobsReply [DecidableEq W] (s : Service W Python.Value R) (payload : Python.Dict) :
    JobInput → Option (JsonReply × Service W Python.Value R)
  | .submit jobId nowMs lost =>
    match A.ofPayload (.dict payload) with
    | .error exc => some (.ok (422, detail (M.unprocessable exc)), s)
    | .ok request =>
      (s.step (valueJson dumps loads) A (.submit request jobId nowMs lost.isNone)).map fun s' =>
        if Python.strip (A.prompt request).toList = [] then
          (.ok (400, detail (.str (Python.str "prompt must not be empty"))), s')
        else
          match lost with
          | none => (.ok (202, M.jobAccepted (queuedState jobId nowMs : JobState Python.Value).toDict), s')
          | some e => (.ok (503, queueUnavailableDetail ("failed to enqueue job: " ++ e.text)), s')
  | .refuse e => (s.step (valueJson dumps loads) A .refuse).map fun s' =>
      (.ok (503, queueUnavailableDetail ("failed to enqueue job: " ++ e.text)), s')
  | input => (undelivered input).map fun reply => (reply, s)

/-- The reply of `GET` for the key of the job; a record is a text that was dumped. -/
def storedText (s : Service W Python.Value R) (jobId : String) : Option (Option String) :=
  match s.queue.redis.job jobId with
  | none => some none
  | some st => (dumps (.dict st.toDict)).toOption.map some

def getJobReply (s : Service W Python.Value R) (jobId : Python.Value) :
    JobInput → Option (JsonReply × Service W Python.Value R)
  | .read error =>
    match jobId with
    | .str text => (Python.encodeUtf8 text).bind fun jobId =>
      match error with
      | some e => some (.ok ((jobReply (valueJson dumps loads) P jobId (.error e)).exchange M), s)
      | none => (storedText dumps s jobId).map fun stored =>
        (.ok ((jobReply (valueJson dumps loads) P jobId (.ok stored)).exchange M), s)
    | _ => none
  | input => (undelivered input).map fun reply => (reply, s)

/-- Between the calls of the clients the service goes on. A file is in UTF-8; the
encoding of the output is that of the terminal. -/
def jobEndpoints [DecidableEq W] :
    SharedObject (Service W Python.Value R) JobInput (ServiceAct W Python.Value R) JobCall JobCall.Answer where
  serve s input
    | .postJobs payload => postJobsReply dumps loads A M s payload input
    | .getJob jobId => getJobReply dumps loads P M s jobId input
    | .beforeDeadline => input.early.map fun early => (early, s)
    | .appendLine line => input.written.map fun written => (written && (Python.Value.dict line).plain, s)
    | .printLine _ => input.written.map fun written => (written, s)
  own s act := s.step (valueJson dumps loads) A act

/-! ## Reading -/

variable {dumps loads A P M} {s s' : Service W Python.Value R} {input : JobInput}

theorem undelivered_kept {a : JsonReply} (h : (undelivered input).map (fun reply => (reply, s)) = some (a, s')) :
    s' = s := by
  obtain ⟨_, _, heq⟩ := Option.map_eq_some_iff.mp h
  exact (congrArg Prod.snd heq).symm

theorem undelivered_ok {code : Nat} {body : Python.Dict} (h : undelivered input = some (.ok (code, body))) :
    400 ≤ code ∧ ∃ raw, body = rawError raw := by
  cases input with
  | garbled status raw =>
    obtain ⟨hstatus, heq⟩ := Option.ite_none_right_eq_some.mp h
    cases heq
    exact ⟨hstatus, raw, rfl⟩
  | _ => cases h

theorem undelivered_reply {code : Nat} {body : Python.Dict}
    (h : (undelivered input).map (fun reply => (reply, s)) = some (.ok (code, body), s')) :
    400 ≤ code ∧ ∃ raw, body = rawError raw := by
  obtain ⟨reply, hreply, heq⟩ := Option.map_eq_some_iff.mp h
  obtain rfl : reply = .ok (code, body) := congrArg Prod.fst heq
  exact undelivered_ok hreply

theorem getJob_kept {jobId : Python.Value} {a : JsonReply}
    (h : getJobReply dumps loads P M s jobId input = some (a, s')) : s' = s := by
  unfold getJobReply at h
  cases input with
  | read error =>
    cases jobId with
    | str text =>
      obtain ⟨j, _, h⟩ := Option.bind_eq_some_iff.mp h
      cases error with
      | some e => exact (congrArg Prod.snd (Option.some.inj h)).symm
      | none =>
        obtain ⟨_, _, heq⟩ := Option.map_eq_some_iff.mp h
        exact (congrArg Prod.snd heq).symm
    | _ => cases h
  | _ => exact undelivered_kept h

theorem detail_status (value : Python.Value) : (detail value).get? (Python.str "status") = none := by
  simp [detail, Python.str_inj]

theorem rawError_status (raw : Python.Str) : (rawError raw).get? (Python.str "status") = none := by
  simp [rawError, Python.str_inj]

theorem exchange_status {reply : JobReply} {status : Python.Value}
    (h : (reply.exchange M).2.get? (Python.str "status") = some status) :
    ∃ state, reply = .answered state ∧ reply.exchange M = (200, M.jobStatus state) := by
  cases reply with
  | answered state => exact ⟨state, rfl, rfl⟩
  | jobQueueUnavailable message => exact absurd h (by simp [JobReply.exchange, queueUnavailableDetail, detail_status])
  | jobNotFound jobId => exact absurd h (by simp [JobReply.exchange, detail_status])
  | raised e => exact absurd h (by simp [JobReply.exchange, rawError_status])
  | invalid => exact absurd h (by simp [JobReply.exchange, rawError_status])
  | unrendered => exact absurd h (by simp [JobReply.exchange, rawError_status])

theorem answered_record (hJ : (valueJson dumps loads).RoundTrips) {j : String} {stored : Option String}
    (hstored : storedText dumps s j = some stored) {state : Python.Dict}
    (h : jobReply (valueJson dumps loads) P j (.ok stored) = .answered state) :
    ∃ st, s.queue.redis.job j = some st ∧ state = st.toDict ∧ validates (jobStatusResponse P) st.toDict = true := by
  unfold storedText at hstored
  cases hst : s.queue.redis.job j with
  | none =>
    rw [hst] at hstored
    obtain rfl := Option.some.inj hstored
    cases h
  | some st =>
    simp only [hst] at hstored
    obtain ⟨text, htext, rfl⟩ := Option.map_eq_some_iff.mp hstored
    have hdumps : dumps (.dict st.toDict) = .ok text := by
      cases hd : dumps (.dict st.toDict) with
      | error e => rw [hd] at htext; cases htext
      | ok text' => rw [hd] at htext; rw [Option.some.inj htext]
    unfold jobReply at h
    simp only [@readJob_text st (valueJson dumps loads) hJ rfl text hdumps] at h
    obtain ⟨rfl, hv, _⟩ := respond_answered.mp h
    exact ⟨st, rfl, rfl, hv⟩

/-- A reply with a status is the record, as it is when the call is served. -/
theorem getJob_status (hJ : (valueJson dumps loads).RoundTrips) {jobId status : Python.Value} {code : Nat}
    {body : Python.Dict} (h : getJobReply dumps loads P M s jobId input = some (.ok (code, body), s'))
    (hbody : body.get? (Python.str "status") = some status) :
    code = 200 ∧ ∃ j st, jobId = .str (Python.str j) ∧ s.queue.redis.job j = some st ∧
      body = M.jobStatus st.toDict ∧ validates (jobStatusResponse P) st.toDict = true := by
  unfold getJobReply at h
  cases input with
  | read error =>
    cases jobId with
    | str text =>
      dsimp only at h
      obtain ⟨j, hj, hr⟩ := Option.bind_eq_some_iff.mp h
      obtain rfl := Python.str_of_encodeUtf8 hj
      cases error with
      | some e =>
        have hreply := congrArg Prod.fst (Option.some.inj hr)
        have hexchange : (jobReply (valueJson dumps loads) P j (.error e)).exchange M = (code, body) :=
          Except.ok.inj hreply
        obtain ⟨state, hstate, _⟩ := exchange_status (by rw [hexchange]; exact hbody)
        cases hstate
      | none =>
        obtain ⟨stored, hstored, heq⟩ := Option.map_eq_some_iff.mp hr
        have hexchange : (jobReply (valueJson dumps loads) P j (.ok stored)).exchange M = (code, body) :=
          Except.ok.inj (congrArg Prod.fst heq)
        obtain ⟨state, hstate, h200⟩ := exchange_status (by rw [hexchange]; exact hbody)
        obtain ⟨st, hst, rfl, hv⟩ := answered_record hJ hstored hstate
        rw [hexchange] at h200
        cases h200
        exact ⟨rfl, j, st, rfl, hst, rfl, hv⟩
    | _ => cases h
  | _ =>
    obtain ⟨_, raw, rfl⟩ := undelivered_reply h
    rw [rawError_status] at hbody
    cases hbody

/-! ## Submitting -/

variable [DecidableEq W]

theorem postJobs_moves {payload : Python.Dict} {a : JsonReply}
    (h : postJobsReply dumps loads A M s payload input = some (a, s')) :
    s' = s ∨ ∃ act, s.step (valueJson dumps loads) A act = some s' := by
  unfold postJobsReply at h
  cases input with
  | submit jobId nowMs lost =>
    dsimp only at h
    cases hparse : A.ofPayload (.dict payload) with
    | error exc =>
      rw [hparse] at h
      exact .inl (congrArg Prod.snd (Option.some.inj h)).symm
    | ok request =>
      rw [hparse] at h
      obtain ⟨t, ht, heq⟩ := Option.map_eq_some_iff.mp h
      have hsame : t = s' := by
        split_ifs at heq
        · exact congrArg Prod.snd heq
        · cases lost <;> exact congrArg Prod.snd heq
      exact .inr ⟨_, hsame ▸ ht⟩
  | refuse e =>
    obtain ⟨t, ht, heq⟩ := Option.map_eq_some_iff.mp h
    have hsame : t = s' := congrArg Prod.snd heq
    exact .inr ⟨.refuse, hsame ▸ ht⟩
  | _ => exact .inl (undelivered_kept h)

theorem jobEndpoints_moves {c : JobCall} {a : c.Answer}
    (h : (jobEndpoints dumps loads A P M).serve s input c = some (a, s')) :
    s' = s ∨ ∃ act, s.step (valueJson dumps loads) A act = some s' := by
  cases c with
  | postJobs payload => exact postJobs_moves h
  | getJob jobId => exact .inl (getJob_kept h)
  | beforeDeadline | appendLine _ | printLine _ =>
    obtain ⟨_, _, heq⟩ := Option.map_eq_some_iff.mp h
    exact .inl (congrArg Prod.snd heq).symm

theorem postJobs_status {payload body : Python.Dict} {code : Nat} (hcode : code ≠ 202)
    (h : postJobsReply dumps loads A M s payload input = some (.ok (code, body), s')) :
    body.get? (Python.str "status") = none := by
  have hdetail : ∀ {code' : Nat} {value : Python.Value} {t : Service W Python.Value R},
      ((.ok (code', detail value), t) : JsonReply × _) = (.ok (code, body), s') →
        body.get? (Python.str "status") = none := by
    intro code' value t heq
    cases heq
    exact detail_status value
  unfold postJobsReply at h
  cases input with
  | submit jobId nowMs lost =>
    dsimp only at h
    cases hparse : A.ofPayload (.dict payload) with
    | error exc =>
      rw [hparse] at h
      exact hdetail (Option.some.inj h)
    | ok request =>
      rw [hparse] at h
      obtain ⟨t, _, heq⟩ := Option.map_eq_some_iff.mp h
      by_cases hblank : Python.strip (A.prompt request).toList = []
      · rw [if_pos hblank] at heq
        exact hdetail heq
      · rw [if_neg hblank] at heq
        cases lost with
        | some e => exact hdetail heq
        | none =>
          cases heq
          exact absurd rfl hcode
  | refuse e =>
    obtain ⟨t, _, heq⟩ := Option.map_eq_some_iff.mp h
    exact hdetail heq
  | _ =>
    obtain ⟨_, raw, rfl⟩ := undelivered_reply h
    exact rawError_status raw

theorem postJobs_accepted (hM : M.Faithful P) {payload body : Python.Dict}
    (h : postJobsReply dumps loads A M s payload input = some (.ok (202, body), s')) :
    ∃ jobId request, body.get? (Python.str "job_id") = some (.str (Python.str jobId)) ∧
      A.ofPayload (.dict payload) = .ok request ∧ (jobId, request) ∈ s'.submitted := by
  unfold postJobsReply at h
  cases input with
  | submit jobId nowMs lost =>
    dsimp only at h
    cases hparse : A.ofPayload (.dict payload) with
    | error exc => simp [hparse] at h
    | ok request =>
      rw [hparse] at h
      obtain ⟨t, ht, heq⟩ := Option.map_eq_some_iff.mp h
      by_cases hblank : Python.strip (A.prompt request).toList = []
      · simp [hblank] at heq
      · rw [if_neg hblank] at heq
        cases lost with
        | some e => simp at heq
        | none =>
          simp only [Prod.mk.injEq, Except.ok.injEq, true_and] at heq
          obtain ⟨rfl, rfl⟩ := heq
          refine ⟨jobId, request, ?_, rfl, ?_⟩
          · apply hM.jobId
            simp [JobState.toDict, queuedState]
          · simp only [Service.step, Service.submitJob, if_neg hblank] at ht
            obtain ⟨_, _, rfl⟩ := Option.map_eq_some_iff.mp ht
            exact List.mem_cons_self
  | refuse e =>
    obtain ⟨t, _, heq⟩ := Option.map_eq_some_iff.mp h
    simp at heq
  | _ =>
    have hcode := (undelivered_reply h).1
    omega

end

end InferenceService
