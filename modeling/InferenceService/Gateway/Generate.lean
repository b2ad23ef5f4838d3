import InferenceService.Gateway.Execute
import InferenceService.Lib.Value

/-!
# `generate_text` and the `/generate` handler

One request as a function of what the breaker and the two backends answer. The
metrics are left out, apart from the count of backend failures.
-/

namespace InferenceService

/-! ## Backends -/

inductive BackendErrorKind where
  | unavailable
  | timeout
  | resourceExhausted
  | upstreamProtocol
deriving DecidableEq, Repr

/-- An exception of `app.backends.errors`. -/
structure BackendError where
  kind : BackendErrorKind
  text : String
deriving DecidableEq, Repr

def BackendError.isRetrySafe (error : BackendError) : Bool := error.kind = .unavailable ∨ error.kind = .timeout

def BackendError.isFallbackSafe (error : BackendError) : Bool :=
  error.kind = .unavailable ∨ error.kind = .timeout ∨ error.kind = .resourceExhausted

/-- What a backend raises: an exception of `app.backends.errors`, or another one. -/
inductive BackendException where
  | error (error : BackendError)
  | other (typeName : String)
deriving DecidableEq, Repr

namespace BackendException

def isRetrySafe : BackendException → Bool
  | error e => e.isRetrySafe
  | other _ => false

def isFallbackSafe : BackendException → Bool
  | error e => e.isFallbackSafe
  | other _ => false

/-- No clause of the handler names it. -/
def Unnamed : BackendException → Prop
  | error e => e.kind = .resourceExhausted
  | other _ => True

end BackendException

structure GenerateArgs where
  prompt : String
  maxNewTokens : Int := 128
  temperature : Python.Float := .finite (7 / 10)
  thinkingBudget : Option Int := none
deriving DecidableEq, Repr

/-! ## `generate_text` -/

/-- What `app.inference` holds: the backends answer by the arguments of a call,
the primary also by the number of the calls before it in the request. -/
structure Inference where
  inferenceBackend : String
  controller : ResilienceController
  backend : GenerateArgs → Nat → Except BackendException Python.Dict
  fallbackBackend : Option (GenerateArgs → Except BackendException Python.Dict)
  fallbackThinkingBudget : Option Int

namespace Inference
variable (I : Inference) (B : BreakerAnswers) (requestId : String) (args : GenerateArgs)

def request : ExecuteRequest Python.Dict BackendException where
  requestId
  primaryOperation := I.backend args
  fallbackOperation := I.fallbackBackend.map fun generate =>
    generate { args with thinkingBudget := I.fallbackThinkingBudget }
  fallbackBudget := if I.fallbackBackend.isSome then I.fallbackThinkingBudget else none
  isRetrySafe := BackendException.isRetrySafe
  isFallbackSafe := BackendException.isFallbackSafe
  onRetry := true
  onTransition := true
  onFallback := true

end Inference

/-- `dict(outcome.value)` with what `generate_text` adds to it. -/
def ResilienceOutcome.toDict (outcome : ResilienceOutcome Python.Dict) : Python.Dict :=
  outcome.value.update [
    (Python.str "request_id", .str (Python.str outcome.requestId)),
    (Python.str "route", .str (Python.str outcome.route.value)),
    (Python.str "primary_attempts", .int outcome.primaryAttempts),
    (Python.str "fallback_thinking_budget", .ofInt? outcome.fallbackBudget)]

def Inference.generateText (I : Inference) (B : BreakerAnswers) (requestId : String) (args : GenerateArgs) :
    Except (ExecuteError BackendException) Python.Dict :=
  (I.controller.execute B (I.request requestId args)).result.map ResilienceOutcome.toDict

/-! ## The handler -/

inductive HttpDetail where
  | message (text : String)
  | backendError (error backend message : String)
deriving DecidableEq, Repr

structure HTTPException where
  statusCode : Nat
  detail : HttpDetail
deriving DecidableEq, Repr

structure GenerateReply where
  headers : List (String × Python.Value)
  body : Python.Dict

/-- How the handler ends with an exception: one that FastAPI answers, one of a
backend, or a `KeyError`. -/
inductive GenerateError where
  | http (exc : HTTPException)
  | backend (exc : BackendException)
  | keyError
deriving DecidableEq, Repr

/-- The backend failures that the handler counted, and how it ended. -/
structure Handled where
  backendFailures : List (String × String)
  result : Except GenerateError GenerateReply

def raiseBackendError (inferenceBackend : String) (statusCode : Nat) (errorType message : String) : Handled :=
  ⟨[(inferenceBackend, errorType)], .error (.http ⟨statusCode, .backendError errorType inferenceBackend message⟩)⟩

def CircuitOpenError.text (err : CircuitOpenError) : String :=
  "primary upstream circuit is open; retry after " ++ Python.formatFixed 3 err.retryAfterSeconds ++ "s"

def generateReply (result : Python.Dict) : Except GenerateError GenerateReply :=
  match result.get? (Python.str "request_id"), result.get? (Python.str "route") with
  | some requestId, some route => .ok ⟨[("X-Request-ID", requestId), ("X-Inference-Route", route)], result⟩
  | _, _ => .error .keyError

def generate (I : Inference) (B : BreakerAnswers) (requestId : String) (request : GenerateArgs) : Handled :=
  if Python.strip request.prompt.toList = [] then ⟨[], .error (.http ⟨400, .message "prompt must not be empty"⟩)⟩
  else
    match I.generateText B requestId request with
    | .ok result => ⟨[], generateReply result⟩
    | .error (.circuitOpen err) => raiseBackendError I.inferenceBackend 503 "circuit_open" err.text
    | .error (.raised (.error exc)) =>
      match exc.kind with
      | .unavailable => raiseBackendError I.inferenceBackend 503 "backend_unavailable" exc.text
      | .timeout => raiseBackendError I.inferenceBackend 504 "backend_timeout" exc.text
      | .upstreamProtocol => raiseBackendError I.inferenceBackend 502 "upstream_protocol_error" exc.text
      -- no clause of the handler names it
      | .resourceExhausted => ⟨[], .error (.backend (.error exc))⟩
    | .error (.raised (.other typeName)) => ⟨[], .error (.backend (.other typeName))⟩

section
variable (I : Inference) (B : BreakerAnswers) (requestId : String) (args : GenerateArgs)

/-! ## What the controller makes of the answers -/

theorem toDict_requestId (outcome : ResilienceOutcome Python.Dict) :
    outcome.toDict.get? (Python.str "request_id") = some (.str (Python.str outcome.requestId)) := by
  unfold ResilienceOutcome.toDict Python.Dict.update
  simp only [List.foldl_cons, List.foldl_nil, Python.Dict.get?_set, Python.str_inj, String.reduceEq, if_true, if_false]

theorem toDict_route (outcome : ResilienceOutcome Python.Dict) :
    outcome.toDict.get? (Python.str "route") = some (.str (Python.str outcome.route.value)) := by
  unfold ResilienceOutcome.toDict Python.Dict.update
  simp only [List.foldl_cons, List.foldl_nil, Python.Dict.get?_set, Python.str_inj, String.reduceEq, if_true, if_false]

/-- The exception that ends the request is one that no clause of the handler names:
the fallback's, where one is called, and otherwise that of the primary's last call. -/
def Inference.Escapes : Prop :=
  let q := I.request requestId args
  match B.allowPrimaryCall with
  | .error _ => ∃ exc, q.fallbackOperation = some (.error exc) ∧ exc.Unnamed
  | .ok _ => ∃ k last, I.controller.Last q k ∧ q.primaryOperation k = .error last ∧
      match q.fallbackOperation with
      | none => last.Unnamed
      | some answer => if last.isFallbackSafe then ∃ exc, answer = .error exc ∧ exc.Unnamed else last.Unnamed

theorem generateText_raises (exc : BackendException) : I.generateText B requestId args = .error (.raised exc) ↔
    (I.controller.execute B (I.request requestId args)).result = .error (.raised exc) := by
  unfold Inference.generateText
  cases (I.controller.execute B (I.request requestId args)).result <;> simp [Except.map]

theorem escapes_iff : I.Escapes B requestId args ↔
    ∃ exc, I.generateText B requestId args = .error (.raised exc) ∧ exc.Unnamed := by
  simp only [generateText_raises]
  unfold Inference.Escapes
  cases hallow : B.allowPrimaryCall with
  | error err => simp only [ResilienceController.refused_raises I.controller B _ hallow]
  | ok permit =>
    obtain ⟨k, hk⟩ := ResilienceController.exists_last (c := I.controller) (q := I.request requestId args)
    have hlast : ∀ k', I.controller.Last (I.request requestId args) k' ↔ k' = k :=
      fun k' => ⟨fun h => IsLeast.unique h hk, fun h => h ▸ hk⟩
    have hsafe : (I.request requestId args).isFallbackSafe = BackendException.isFallbackSafe := rfl
    simp only [ResilienceController.granted_raises I.controller B _ hallow hk, hlast, hsafe]
    cases hf : (I.request requestId args).fallbackOperation with
    | none =>
      constructor
      · rintro ⟨_, last, rfl, hp, hnone⟩
        exact ⟨last, ⟨last, hp, by simp⟩, hnone⟩
      · rintro ⟨exc, ⟨last, hp, heq⟩, hnone⟩
        obtain rfl : last = exc := by simpa using heq
        exact ⟨k, last, rfl, hp, hnone⟩
    | some answer =>
      dsimp only
      constructor
      · rintro ⟨_, last, rfl, hp, hends⟩
        by_cases hs : last.isFallbackSafe = true
        · rw [if_pos hs] at hends
          obtain ⟨exc, rfl, hnone⟩ := hends
          exact ⟨exc, ⟨last, hp, by simp [hs]⟩, hnone⟩
        · rw [if_neg hs] at hends
          exact ⟨last, ⟨last, hp, by simp [hs]⟩, hends⟩
      · rintro ⟨exc, ⟨last, hp, heq⟩, hnone⟩
        refine ⟨k, last, rfl, hp, ?_⟩
        by_cases hs : last.isFallbackSafe = true
        · rw [if_pos hs]
          exact ⟨exc, by simpa [hs] using heq, hnone⟩
        · rw [if_neg hs]
          obtain rfl : last = exc := by simpa [hs] using heq
          exact hnone

/-! ## What the handler makes of them -/

/-- The result with its headers, or an error status after one count of the
failure. -/
def Handled.Mapped (x : Handled) : Prop :=
  (∃ result route, I.generateText B requestId args = .ok result ∧ x.backendFailures = [] ∧
    x.result = .ok ⟨[("X-Request-ID", .str (Python.str requestId)),
      ("X-Inference-Route", .str (Python.str (Route.value route)))], result⟩) ∨
  ∃ exc errorType, x.result = .error (.http exc) ∧ exc.statusCode ∈ [502, 503, 504] ∧
    x.backendFailures = [(I.inferenceBackend, errorType)]

theorem generateReply_ok {result : Python.Dict} (h : I.generateText B requestId args = .ok result) :
    ∃ route, generateReply result = .ok ⟨[("X-Request-ID", .str (Python.str requestId)),
      ("X-Inference-Route", .str (Python.str (Route.value route)))], result⟩ := by
  unfold Inference.generateText at h
  cases hx : (I.controller.execute B (I.request requestId args)).result with
  | error e => rw [hx] at h; cases h
  | ok outcome =>
    rw [hx] at h
    obtain rfl := Except.ok.inj h
    have hid : outcome.requestId = requestId :=
      (ResilienceController.result_ok I.controller B (I.request requestId args) hx).1
    refine ⟨outcome.route, ?_⟩
    unfold generateReply
    rw [toDict_requestId, toDict_route, hid]

theorem raiseBackendError_mapped {statusCode : Nat} (errorType message : String)
    (h : statusCode ∈ [502, 503, 504]) :
    (raiseBackendError I.inferenceBackend statusCode errorType message).Mapped I B requestId args :=
  .inr ⟨_, errorType, rfl, h, rfl⟩

theorem generate_mapped_iff (h : Python.strip args.prompt.toList ≠ []) :
    (generate I B requestId args).Mapped I B requestId args ↔ ¬ I.Escapes B requestId args := by
  rw [escapes_iff]
  unfold generate
  rw [if_neg h]
  cases hg : I.generateText B requestId args with
  | ok result =>
    obtain ⟨route, hr⟩ := generateReply_ok I B requestId args hg
    exact ⟨fun _ => nofun, fun _ => .inl ⟨result, route, hg, rfl, hr⟩⟩
  | error e =>
    cases e with
    | circuitOpen err =>
      exact ⟨fun _ => nofun, fun _ => raiseBackendError_mapped I B requestId args _ _ (by decide)⟩
    | raised exc =>
      have hraises : (∃ e, (Except.error (.raised exc) : Except (ExecuteError BackendException) Python.Dict) =
          .error (.raised e) ∧ e.Unnamed) ↔ exc.Unnamed := by simp
      rw [hraises]
      cases exc with
      | other typeName =>
        simp only [BackendException.Unnamed, not_true, iff_false]
        rintro (⟨_, _, _, _, hr⟩ | ⟨_, _, hr, _⟩) <;> cases hr
      | error exc =>
        unfold BackendException.Unnamed
        cases hk : exc.kind with
        | unavailable =>
          simp only [hk, reduceCtorEq, not_false_iff, iff_true]
          exact raiseBackendError_mapped I B requestId args _ _ (by decide)
        | timeout =>
          simp only [hk, reduceCtorEq, not_false_iff, iff_true]
          exact raiseBackendError_mapped I B requestId args _ _ (by decide)
        | upstreamProtocol =>
          simp only [hk, reduceCtorEq, not_false_iff, iff_true]
          exact raiseBackendError_mapped I B requestId args _ _ (by decide)
        | resourceExhausted =>
          simp only [hk, not_true, iff_false]
          rintro (⟨_, _, _, _, hr⟩ | ⟨_, _, hr, _⟩) <;> cases hr

end

/-! ## An exhausted primary without a fallback -/

def oneRetry : ResilienceController := ⟨1, 1 / 5, by decide +kernel⟩

def closedAnswers : BreakerAnswers where
  allowPrimaryCall := .ok { state := .closed }
  recordSuccess _ := none
  recordFailure _ := none
  snapshotRetryAfter := 0
  state := .closed

def outOfMemory : BackendError := ⟨.resourceExhausted, "vLLM upstream resource exhausted: HTTP 500; body=CUDA oom"⟩

def exhausted : Inference where
  inferenceBackend := "vllm"
  controller := oneRetry
  backend _ _ := .error (.error outOfMemory)
  fallbackBackend := none
  fallbackThinkingBudget := some 512

theorem generate_mapped_exhausted :
    (generate exhausted closedAnswers "id" { prompt := "hi" }).Mapped exhausted closedAnswers "id"
        { prompt := "hi" } ↔
      ¬ exhausted.Escapes closedAnswers "id" { prompt := "hi" } :=
  generate_mapped_iff exhausted closedAnswers "id" { prompt := "hi" } (by decide)

theorem exhausted_not_mapped :
    ¬ (generate exhausted closedAnswers "id" { prompt := "hi" }).Mapped exhausted closedAnswers "id"
      { prompt := "hi" } := by
  have hg : generate exhausted closedAnswers "id" { prompt := "hi" } = ⟨[], .error (.backend (.error outOfMemory))⟩ := by
    unfold generate
    rw [if_neg (by decide)]
    rfl
  rw [hg]
  rintro (⟨_, _, _, _, hr⟩ | ⟨_, _, hr, _⟩) <;> cases hr

end InferenceService
