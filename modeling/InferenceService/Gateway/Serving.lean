import InferenceService.Gateway.Generate
import InferenceService.Breaker.LocalCalls
import InferenceService.Lib.Dialogue
import Mathlib.Logic.Function.Basic

/-!
# The requests of one gateway

`execute`, `generate_text` and the `/generate` handler as programs that make one
call at a time, each written as the source has it. Any number of requests run
them on one breaker and one set of metrics.
-/

namespace InferenceService

/-! ## `ResilienceController.execute` -/

/-- What a call answers; a callback answers nothing. -/
@[reducible] def ExecuteCall.Answer (α ε : Type) : ExecuteCall ε → Type
  | allowPrimaryCall => Except CircuitOpenError CircuitPermit
  | primaryOperation | fallbackOperation => Except ε α
  | recordSuccess _ | recordFailure _ => Option CircuitTransition
  | snapshot => ℚ
  | state => CircuitState
  | onRetry _ | sleep _ | onTransition _ | onFallback _ => Unit

/-- The arguments of `execute` without its operations. -/
structure ExecuteArguments (ε : Type) where
  requestId : String
  hasFallback : Bool
  fallbackBudget : Option Int
  isRetrySafe : ε → Bool
  isFallbackSafe : ε → Bool
  onRetry : Bool
  onTransition : Bool
  onFallback : Bool

abbrev ExecuteProgram (α ε : Type) :=
  Program (ExecuteCall ε) (ExecuteCall.Answer α ε) (Except (ExecuteError ε) (ResilienceOutcome α))

namespace ExecuteArguments
section
variable {α ε : Type} (q : ExecuteArguments ε)

def notifyRetry (exc : ε) (p : ExecuteProgram α ε) : ExecuteProgram α ε :=
  if q.onRetry then .call (.onRetry exc) fun _ => p else p

def notifyTransition (transition : Option CircuitTransition) (p : ExecuteProgram α ε) : ExecuteProgram α ε :=
  match transition with
  | some transition => if q.onTransition then .call (.onTransition transition) fun _ => p else p
  | none => p

def notifyFallback (result : String) (p : ExecuteProgram α ε) : ExecuteProgram α ε :=
  if q.onFallback then .call (.onFallback result) fun _ => p else p

def runFallbackProgram (primaryAttempts : Nat) : ExecuteProgram α ε :=
  if q.hasFallback then
    .call .fallbackOperation fun
      | .error exc => q.notifyFallback "failed" (.ret (.error (.raised exc)))
      | .ok value => q.notifyFallback "succeeded" (.call .state fun circuitState => .ret (.ok {
          value
          route := .fallback
          requestId := q.requestId
          primaryAttempts
          circuitState
          fallbackBudget := q.fallbackBudget }))
  else .call .snapshot fun retryAfter => .ret (.error (.circuitOpen (.init retryAfter)))

def raisedProgram (permit : CircuitPermit) (primaryAttempts : Nat) (exc : ε) : ExecuteProgram α ε :=
  .call (.recordFailure permit) fun transition => q.notifyTransition transition <|
    if q.hasFallback && q.isFallbackSafe exc then q.runFallbackProgram primaryAttempts
    else .ret (.error (.raised exc))

def returnedProgram (permit : CircuitPermit) (primaryAttempts : Nat) (value : α) : ExecuteProgram α ε :=
  .call (.recordSuccess permit) fun transition => q.notifyTransition transition <| .ret (.ok {
    value
    route := .primary
    requestId := q.requestId
    primaryAttempts
    circuitState := permit.state })

end
end ExecuteArguments

namespace ResilienceController
section
variable {α ε : Type} (c : ResilienceController) (q : ExecuteArguments ε)

def pause (p : ExecuteProgram α ε) : ExecuteProgram α ε :=
  if 0 < c.retryBackoffSeconds then .call (.sleep c.retryBackoffSeconds) fun _ => p else p

def loopProgram (permit : CircuitPermit) : Nat → Nat → ExecuteProgram α ε
  | 0, made => .call .primaryOperation fun
      | .ok value => q.returnedProgram permit (made + 1) value
      | .error exc => q.raisedProgram permit (made + 1) exc
  | left + 1, made => .call .primaryOperation fun
      | .ok value => q.returnedProgram permit (made + 1) value
      | .error exc =>
        if q.isRetrySafe exc then q.notifyRetry exc (c.pause (loopProgram permit left (made + 1)))
        else q.raisedProgram permit (made + 1) exc

def executeProgram : ExecuteProgram α ε :=
  .call .allowPrimaryCall fun
    | .error _ => q.runFallbackProgram 0
    | .ok permit => c.loopProgram q permit c.retryAttempts 0

end
end ResilienceController

/-! ## `generate_text` and the handler -/

inductive GatewayCall where
  | execute (call : ExecuteCall BackendException)
  | setCircuitState (candidate : CircuitState) (value : Bool)
  | recordBackendFailure (errorType : String)

@[reducible] def GatewayCall.Answer : GatewayCall → Type
  | execute call => call.Answer Python.Dict BackendException
  | setCircuitState _ _ | recordBackendFailure _ => Unit

abbrev GatewayEvent := (c : GatewayCall) × c.Answer

abbrev lifted (es : List ((c : ExecuteCall BackendException) × c.Answer Python.Dict BackendException)) :
    List GatewayEvent :=
  es.map fun e => ⟨.execute e.1, e.2⟩

abbrev GatewayProgram (R : Type) := Program GatewayCall GatewayCall.Answer R

/-- What `app.inference` holds, apart from the breaker and what the backends answer. -/
structure Gateway where
  inferenceBackend : String
  controller : ResilienceController
  hasFallback : Bool
  fallbackThinkingBudget : Option Int

structure GatewayRequest where
  requestId : String
  args : GenerateArgs
deriving DecidableEq, Repr

/-- `record_circuit_state` of the state that the breaker reads. -/
def recordCircuitState {R : Type} (p : GatewayProgram R) : GatewayProgram R :=
  .call (.execute .state) fun state =>
    .call (.setCircuitState .closed (state = .closed)) fun _ =>
      .call (.setCircuitState .open (state = .open)) fun _ =>
        .call (.setCircuitState .halfOpen (state = .halfOpen)) fun _ => p

/-- The calls of `record_circuit_state`. -/
def gauges (state : CircuitState) : List GatewayEvent := [⟨.execute .state, state⟩,
  ⟨.setCircuitState .closed (state = .closed), ()⟩, ⟨.setCircuitState .open (state = .open), ()⟩,
  ⟨.setCircuitState .halfOpen (state = .halfOpen), ()⟩]

theorem gauges_run {R : Type} {p : GatewayProgram R} {es : List GatewayEvent} {x : R}
    (h : (recordCircuitState p).Returns es x) : ∃ state es', es = gauges state ++ es' ∧ p.Returns es' x := by
  obtain ⟨state, _, rfl, h₁⟩ := Program.returns_call.mp h
  obtain ⟨_, _, rfl, h₂⟩ := Program.returns_call.mp h₁
  obtain ⟨_, _, rfl, h₃⟩ := Program.returns_call.mp h₂
  obtain ⟨_, es', rfl, h₄⟩ := Program.returns_call.mp h₃
  exact ⟨state, es', rfl, h₄⟩

namespace Gateway
variable (g : Gateway) (r : GatewayRequest)

def arguments : ExecuteArguments BackendException where
  requestId := r.requestId
  hasFallback := g.hasFallback
  fallbackBudget := if g.hasFallback then g.fallbackThinkingBudget else none
  isRetrySafe := BackendException.isRetrySafe
  isFallbackSafe := BackendException.isFallbackSafe
  onRetry := true
  onTransition := true
  onFallback := true

def generateTextProgram : GatewayProgram (Except (ExecuteError BackendException) Python.Dict) :=
  recordCircuitState <| (Program.embed GatewayCall.execute (g.controller.executeProgram (g.arguments r))).bind fun
    | .error e => .ret (.error e)
    | .ok outcome => recordCircuitState (.ret (.ok outcome.toDict))

def raiseProgram (statusCode : Nat) (errorType message : String) : GatewayProgram (Except GenerateError GenerateReply) :=
  .call (.recordBackendFailure errorType) fun _ =>
    .ret (.error (.http ⟨statusCode, .backendError errorType g.inferenceBackend message⟩))

def answerProgram :
    Except (ExecuteError BackendException) Python.Dict → GatewayProgram (Except GenerateError GenerateReply)
  | .ok result => .ret (generateReply result)
  | .error (.circuitOpen err) => g.raiseProgram 503 "circuit_open" err.text
  | .error (.raised (.error exc)) =>
    match exc.kind with
    | .unavailable => g.raiseProgram 503 "backend_unavailable" exc.text
    | .timeout => g.raiseProgram 504 "backend_timeout" exc.text
    | .upstreamProtocol => g.raiseProgram 502 "upstream_protocol_error" exc.text
    | .resourceExhausted => .ret (.error (.backend (.error exc)))
  | .error (.raised (.other typeName)) => .ret (.error (.backend (.other typeName)))

def generateProgram : GatewayProgram (Except GenerateError GenerateReply) :=
  if Python.strip r.args.prompt.toList = [] then .ret (.error (.http ⟨400, .message "prompt must not be empty"⟩))
  else (g.generateTextProgram r).bind g.answerProgram

end Gateway

/-! ## The metrics -/

structure GatewayMetrics where
  retryAttempts : String → Nat
  circuitState : CircuitState → Bool
  transitions : CircuitTransition → Nat
  fallbackRequests : String → Nat
  fallbackThinkingBudget : Option Int
  backendFailures : String → Nat

def counted {κ : Type} [DecidableEq κ] (m : κ → Nat) (k : κ) : κ → Nat := Function.update m k (m k + 1)

theorem counted_apply {κ : Type} [DecidableEq κ] (m : κ → Nat) (k k' : κ) :
    counted m k k' = m k' + if k = k' then 1 else 0 := by
  unfold counted
  by_cases h : k = k'
  · subst h
    simp
  · simp [h, Function.update_of_ne (Ne.symm h)]

def BackendException.retryReason : BackendException → String
  | .error e =>
    match e.kind with
    | .timeout => "backend_timeout"
    | .unavailable => "backend_unavailable"
    | _ => "unknown"
  | .other _ => "unknown"

namespace GatewayMetrics
variable (m : GatewayMetrics)

def empty : GatewayMetrics := ⟨fun _ => 0, fun _ => false, fun _ => 0, fun _ => 0, none, fun _ => 0⟩

def recordRetry (reason : String) : GatewayMetrics := { m with retryAttempts := counted m.retryAttempts reason }

def setCircuitState (candidate : CircuitState) (value : Bool) : GatewayMetrics :=
  { m with circuitState := Function.update m.circuitState candidate value }

def recordCircuitTransition (transition : CircuitTransition) : GatewayMetrics :=
  { m with transitions := counted m.transitions transition }

def recordFallback (result : String) (thinkingBudget : Option Int) : GatewayMetrics :=
  { m with fallbackRequests := counted m.fallbackRequests result, fallbackThinkingBudget := thinkingBudget }

def recordBackendFailure (errorType : String) : GatewayMetrics :=
  { m with backendFailures := counted m.backendFailures errorType }

end GatewayMetrics

/-! ## The breaker and the metrics as one object -/

inductive BreakerMethod where
  | allowPrimaryCall
  | recordSuccess (permit : CircuitPermit)
  | recordFailure (permit : CircuitPermit)
  | snapshot
  | state
deriving DecidableEq, Repr

@[reducible] def BreakerMethod.Answer : BreakerMethod → Type
  | allowPrimaryCall => Except CircuitOpenError CircuitPermit
  | recordSuccess _ | recordFailure _ => Option CircuitTransition
  | snapshot => ℚ
  | state => CircuitState

/-- A breaker whose methods return, or refuse with `CircuitOpenError`. -/
abbrev BreakerObject (β ι κ : Type) := SharedObject β ι κ BreakerMethod BreakerMethod.Answer

section
variable {β ι κ : Type} (g : Gateway) (breaker : BreakerObject β ι κ)

/-- A call of a backend meets its answer, a call of the breaker what the breaker meets. -/
def Gateway.shared : SharedObject (β × GatewayMetrics) (ι × Except BackendException Python.Dict) κ GatewayCall
    GatewayCall.Answer where
  serve s met
    | .execute .allowPrimaryCall => (breaker.serve s.1 met.1 .allowPrimaryCall).map fun r => (r.1, r.2, s.2)
    | .execute .primaryOperation => some (met.2, s)
    | .execute (.onRetry exc) => some ((), s.1, s.2.recordRetry exc.retryReason)
    | .execute (.sleep _) => some ((), s)
    | .execute (.recordSuccess permit) => (breaker.serve s.1 met.1 (.recordSuccess permit)).map fun r => (r.1, r.2, s.2)
    | .execute (.recordFailure permit) => (breaker.serve s.1 met.1 (.recordFailure permit)).map fun r => (r.1, r.2, s.2)
    | .execute (.onTransition transition) => some ((), s.1, s.2.recordCircuitTransition transition)
    | .execute .fallbackOperation => some (met.2, s)
    | .execute (.onFallback result) => some ((), s.1, s.2.recordFallback result g.fallbackThinkingBudget)
    | .execute .snapshot => (breaker.serve s.1 met.1 .snapshot).map fun r => (r.1, r.2, s.2)
    | .execute .state => (breaker.serve s.1 met.1 .state).map fun r => (r.1, r.2, s.2)
    | .setCircuitState candidate value => some ((), s.1, s.2.setCircuitState candidate value)
    | .recordBackendFailure errorType => some ((), s.1, s.2.recordBackendFailure errorType)
  own s k := (breaker.own s.1 k).map fun b => (b, s.2)

abbrev ServingState (β : Type) :=
  Crowd (β × GatewayMetrics) (GatewayProgram (Except GenerateError GenerateReply)) GatewayRequest GatewayCall
    GatewayCall.Answer

/-- A gateway that any number of requests arrive at, at any time. -/
def Gateway.serving (b₀ : β) :
    Lts (ServingState β) (Crowd.Act (ι × Except BackendException Python.Dict) κ GatewayRequest) :=
  Crowd.system Program.dialogue (g.shared breaker) g.generateProgram (b₀, .empty)

/-- No request is in flight. -/
def ServingState.Quiescent {β : Type} (s : ServingState β) : Prop :=
  ∀ client ∈ s.clients, ∃ reply, client.now = .ret reply

instance {β : Type} (s : ServingState β) : Decidable s.Quiescent :=
  decidable_of_iff (∀ client ∈ s.clients, client.now.isRet = true) <| by
    simp only [ServingState.Quiescent, Program.isRet_iff]

end

/-! ## The process-local breaker -/

def BreakerMethod.toCall : BreakerMethod → BreakerCall
  | allowPrimaryCall => .allowPrimaryCall
  | recordSuccess permit => .recordSuccess (some permit)
  | recordFailure permit => .recordFailure (some permit)
  | snapshot => .snapshot
  | state => .readState

def CircuitBreaker.answer (C : CircuitBreakerConfig) (now later : ℚ) (b : CircuitBreaker) :
    (method : BreakerMethod) → method.Answer
  | .allowPrimaryCall => (b.allowPrimaryCall C now later).1
  | .recordSuccess permit => (b.recordSuccess (some permit)).1
  | .recordFailure permit => (b.recordFailure C now (some permit)).1
  | .snapshot => (b.snapshot C now later).1.retryAfterSeconds
  | .state => (b.readState C now).1

/-- A call starts `met.1` seconds after the one before it ended and looks at the
clock again `met.2` seconds later. -/
def localBreakerObject (C : CircuitBreakerConfig) : BreakerObject CalledBreaker (ℚ × ℚ) Empty where
  serve s met method :=
    if 0 ≤ met.1 ∧ 0 ≤ met.2 then
      some (s.breaker.answer C (s.now + met.1) (s.now + met.1 + met.2) method,
        ⟨s.now + met.1 + met.2, s.breaker.called C (s.now + met.1) (s.now + met.1 + met.2) method.toCall⟩)
    else none
  own _ k := nomatch k

/-! ## Two requests -/

def plainGateway : Gateway := ⟨"vllm", oneRetry, false, some 512⟩

def badResponse : BackendException := .error ⟨.upstreamProtocol, "vLLM upstream returned invalid JSON"⟩

/-- A call at once, with what a backend would answer. -/
def callNow (i : Nat) (answer : Except BackendException Python.Dict) :
    Crowd.Act ((ℚ × ℚ) × Except BackendException Python.Dict) Empty GatewayRequest :=
  .call i ((0, 0), answer)

/-- Both get a permit; the first one fails and opens the breaker, the second one
closes it. -/
def interleaving : List (Crowd.Act ((ℚ × ℚ) × Except BackendException Python.Dict) Empty GatewayRequest) :=
  [.arrive ⟨"first", { prompt := "hi" }⟩, .arrive ⟨"second", { prompt := "hi" }⟩] ++
    List.replicate 5 (callNow 0 (.ok [])) ++ List.replicate 5 (callNow 1 (.ok [])) ++
    List.replicate 4 (callNow 0 (.error badResponse)) ++ List.replicate 7 (callNow 1 (.ok []))

theorem interleaving_runs : ((plainGateway.serving (localBreakerObject tripFirst) ⟨0, {}⟩).runFrom
    (plainGateway.serving (localBreakerObject tripFirst) ⟨0, {}⟩).init interleaving).isSome = true := by
  decide +kernel

def interleaved : ServingState CalledBreaker := Option.get _ interleaving_runs

theorem interleaved_reachable :
    (plainGateway.serving (localBreakerObject tripFirst) ⟨0, {}⟩).Reachable interleaved :=
  ⟨interleaving, (Option.some_get _).symm⟩

theorem interleaved_quiescent : interleaved.Quiescent := by decide +kernel

end InferenceService
