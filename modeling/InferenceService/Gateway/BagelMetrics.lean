import InferenceService.Gateway.BagelTruth

/-!
# The counters of the BAGEL service

They agree with the replies that the clients get, in whatever order the requests
end.
-/

namespace InferenceService

/-- The `outcome` that a reply is counted under. A request that BAGEL has
answered is a success, also when nothing can be made of the answer. -/
def outcomeLabel : Except MultimodalError MultimodalGenerateResponse → Option String
  | .ok _ | .error (.gpuMetrics _) | .error .validationError => some "success"
  | .error (.http exc) =>
    if exc.statusCode = 504 then some "timeout" else if exc.statusCode = 502 then some "upstream_error" else none
  | .error .unicodeEncodeError => some "upstream_error"
  | .error (.other _) => none

def BagelCall.countedAs (label : String) (call : BagelCall) : Bool := call.reply.bind outcomeLabel = some label

def BagelCall.counted (call : BagelCall) : Bool := (call.reply.bind outcomeLabel).isSome

/-! ## One request -/

section
variable {config : MultimodalConfig} {r : MultimodalRequest} {latency : ℚ}

/-- What one reply adds to the counters. -/
structure Adds (m m' : MultimodalMetrics) (counted : Option String) : Prop where
  requests : ∀ label, m'.requestsTotal label = m.requestsTotal label + if counted = some label then 1 else 0
  errors : ∀ label, m'.requestErrorsTotal label =
    m.requestErrorsTotal label + if counted = some label ∧ label ≠ "success" then 1 else 0
  latencies : m'.latencies.length = m.latencies.length + if counted.isSome then 1 else 0

theorem adds_none (m : MultimodalMetrics) : Adds m m none := ⟨by simp, by simp, by simp⟩

theorem adds_success (m : MultimodalMetrics) (latency : ℚ) (gauges : GpuGauges) :
    Adds m { m.request "success" latency with gauges } (some "success") where
  requests label := by
    by_cases h : label = "success" <;> simp [MultimodalMetrics.request, h, eq_comm]
  errors label := by
    have hno : ¬ ((some "success" : Option String) = some label ∧ label ≠ "success") :=
      fun h => h.2 (Option.some.inj h.1).symm
    rw [if_neg hno]
    rfl
  latencies := by simp [MultimodalMetrics.request]

theorem adds_error (m : MultimodalMetrics) (latency : ℚ) {label : String} (hlabel : label ≠ "success") :
    Adds m ((m.request label latency).requestError label) (some label) where
  requests label' := by
    by_cases h : label' = label
    · simp [MultimodalMetrics.request, MultimodalMetrics.requestError, h]
    · simp [MultimodalMetrics.request, MultimodalMetrics.requestError, h, Ne.symm h]
  errors label' := by
    by_cases h : label' = label
    · simp [MultimodalMetrics.request, MultimodalMetrics.requestError, h, hlabel]
    · simp [MultimodalMetrics.request, MultimodalMetrics.requestError, h, Ne.symm h]
  latencies := by simp [MultimodalMetrics.request, MultimodalMetrics.requestError]

theorem rejected_label {exc : HTTPException} (h : checkRequest config r = .error exc) :
    outcomeLabel (.error (.http exc)) = none := by
  have hcode := checkRequest_code h
  simp only [List.mem_cons, List.not_mem_nil, or_false] at hcode
  rcases hcode with hcode | hcode | hcode | hcode <;> simp [outcomeLabel, hcode]

theorem multimodalReply_label (result : Python.Str) :
    outcomeLabel (multimodalReply config r result latency) = some "success" := by
  unfold multimodalReply
  cases Python.encodeUtf8 result <;> rfl

theorem upstreamError_label (text : Python.Str) :
    outcomeLabel (.error (upstreamError text)) = some "upstream_error" := by
  unfold upstreamError
  cases Python.encodeUtf8 text <;> simp [outcomeLabel]

theorem multimodalGenerate_adds (config : MultimodalConfig) (r : MultimodalRequest) (outcome : BagelOutcome)
    (latency : ℚ) (smi : NvidiaSmi) (m : MultimodalMetrics) :
    Adds m (multimodalGenerate config r outcome latency smi m).1
      (outcomeLabel (multimodalGenerate config r outcome latency smi m).2) := by
  unfold multimodalGenerate
  cases hcheck : checkRequest config r with
  | error exc =>
    dsimp only
    rw [rejected_label hcheck]
    exact adds_none m
  | ok =>
    cases outcome with
    | timedOut => exact adds_error m latency (by simp)
    | clientError text =>
      dsimp only
      rw [upstreamError_label]
      exact adds_error m latency (by simp)
    | raised typeName => exact adds_none m
    | answered result =>
      dsimp only
      cases hgpu : updateGpuMetrics smi (m.request "success" latency).gauges with
      | mk gauges sampled =>
        cases sampled with
        | error e => exact adds_success m latency gauges
        | ok =>
          dsimp only
          rw [multimodalReply_label]
          exact adds_success m latency gauges

end

/-! ## All requests -/

section
variable {config : MultimodalConfig} {s t : BagelService} {i : Nat} {call : BagelCall}

theorem countP_set_same (hi : s.calls[i]? = some call) {call' : BagelCall} {p : BagelCall → Bool}
    (h : p call' = p call) :
    (s.calls.set i call').countP p = s.calls.countP p := by
  obtain ⟨hlt, rfl⟩ := List.getElem?_eq_some_iff.mp hi
  rw [List.countP_set hlt, h]
  by_cases hp : p s.calls[i] = true
  · have hpos : 0 < s.calls.countP p := List.countP_pos_iff.mpr ⟨_, List.getElem_mem hlt, hp⟩
    rw [if_pos hp]
    omega
  · rw [if_neg hp]
    omega

theorem countP_set_none (hi : s.calls[i]? = some call) {call' : BagelCall} {p : BagelCall → Bool}
    (h : p call = false) :
    (s.calls.set i call').countP p = s.calls.countP p + if p call' then 1 else 0 := by
  obtain ⟨hlt, rfl⟩ := List.getElem?_eq_some_iff.mp hi
  rw [List.countP_set hlt, h]
  rfl

structure BagelCounted (s : BagelService) : Prop where
  requests : ∀ label, s.metrics.requestsTotal label = s.calls.countP (BagelCall.countedAs label)
  errors : ∀ label, s.metrics.requestErrorsTotal label =
    if label = "success" then 0 else s.calls.countP (BagelCall.countedAs label)
  latencies : s.metrics.latencies.length = s.calls.countP BagelCall.counted

theorem BagelCounted.replied (h : BagelCounted s) (hi : s.calls[i]? = some call) (hreply : call.reply = none)
    (phase : BagelPhase) (outcome : BagelOutcome) (latency : ℚ) (smi : NvidiaSmi) :
    BagelCounted (s.reply config i call phase outcome latency smi) := by
  have hadds := multimodalGenerate_adds config call.request outcome latency smi s.metrics
  have hno : ∀ label, call.countedAs label = false := fun label => by simp [BagelCall.countedAs, hreply]
  have hnone : call.counted = false := by simp [BagelCall.counted, hreply]
  unfold BagelService.reply
  refine ⟨fun label => ?_, fun label => ?_, ?_⟩
  · dsimp only
    rw [countP_set_none hi (hno label), hadds.requests, h.requests]
    simp [BagelCall.countedAs]
  · dsimp only
    rw [countP_set_none hi (hno label), hadds.errors, h.errors]
    by_cases hlabel : label = "success" <;> simp [BagelCall.countedAs, hlabel]
  · dsimp only
    rw [countP_set_none hi hnone, hadds.latencies, h.latencies]
    rfl

theorem arrived_countedAs (config : MultimodalConfig) (r : MultimodalRequest) :
    (arrived config r).reply.bind outcomeLabel = none := by
  unfold arrived
  cases hcheck : checkRequest config r with
  | error exc => exact rejected_label hcheck
  | ok => rfl

theorem bagelCounted_step (h : BagelCounted s) (hm : BagelMoves config s t) : BagelCounted t := by
  cases hm with
  | arrived r =>
    have hno := arrived_countedAs config r
    have hsame : ∀ p : BagelCall → Bool, p (arrived config r) = false →
        (s.calls ++ [arrived config r]).countP p = s.calls.countP p := by
      intro p hp
      rw [List.countP_append, List.countP_singleton, hp]
      rfl
    refine ⟨fun label => ?_, fun label => ?_, ?_⟩
    · rw [hsame _ (by simp [BagelCall.countedAs, hno])]
      exact h.requests label
    · rw [hsame _ (by simp [BagelCall.countedAs, hno])]
      exact h.errors label
    · rw [hsame _ (by simp [BagelCall.counted, hno])]
      exact h.latencies
  | @thread _ call phase _ hi hmove =>
    have hsame : ∀ p : BagelCall → Bool, p { call with phase } = p call →
        (s.calls.set _ { call with phase }).countP p = s.calls.countP p := fun p hp => countP_set_same hi hp
    refine ⟨fun label => ?_, fun label => ?_, ?_⟩
    · exact (h.requests label).trans (hsame _ rfl).symm
    · dsimp only
      rw [hsame (BagelCall.countedAs label) rfl]
      exact h.errors label
    · exact h.latencies.trans (hsame _ rfl).symm
  | responded latency smi hi hreply _ => exact h.replied hi hreply _ _ latency smi
  | timedOut latency hi hreply => exact h.replied hi hreply _ _ latency _

end

/-- Each counter of the requests, of the failures and of the latencies is the
number of the replies of its kind. -/
theorem bagel_metrics_exact (config : MultimodalConfig) (gauges : GpuGauges) {s : BagelService}
    (hs : (bagelService config gauges).Reachable s) :
    (∀ label, s.metrics.requestsTotal label = s.calls.countP (BagelCall.countedAs label)) ∧
      (∀ label, s.metrics.requestErrorsTotal label =
        if label = "success" then 0 else s.calls.countP (BagelCall.countedAs label)) ∧
      s.metrics.latencies.length = s.calls.countP BagelCall.counted := by
  have h : BagelCounted s := by
    refine hs.invariant (P := BagelCounted) ⟨fun _ => rfl, fun label => ?_, rfl⟩
      fun _ _ _ _ h hstep => bagelCounted_step h (bagel_moves hstep)
    exact (ite_self _).symm
  exact ⟨h.requests, h.errors, h.latencies⟩

theorem bagel_metrics_exact_served : bagelServed.metrics.requestsTotal "timeout" = 1 ∧
    bagelServed.metrics.requestsTotal "success" = 1 ∧ bagelServed.metrics.requestErrorsTotal "success" = 0 ∧
      bagelServed.metrics.latencies.length = 2 := by
  obtain ⟨hrequests, herrors, hlatencies⟩ := bagel_metrics_exact bagelConfig noGauges bagelServed_reachable
  rw [hrequests, hrequests, herrors, hlatencies]
  decide +kernel

end InferenceService
