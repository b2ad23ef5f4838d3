import InferenceService.Gateway.Generate
import InferenceService.Gateway.Schemas

/-!
# `VLLMBackend`

One call of `generate` as a function of how the HTTP exchange ends. `urlopen`
raises an `HTTPError` for every status that is not 2xx, but for two kinds of
redirect: one that it follows is not an end, and one whose `Location` is no URL
ends in the error of the URL parser.
-/

namespace InferenceService

/-! ## How an exchange ends -/

/-- What `urllib` lets through unwrapped: a `TimeoutError`, another `OSError`
such as `ConnectionResetError` and `RemoteDisconnected`, or an `HTTPException`
that is no `OSError`, such as `IncompleteRead`. -/
inductive TransportError where
  | timeoutError
  | osError (typeName : String)
  | httpException (typeName : String)
deriving DecidableEq, Repr

inductive Exchange where
  /-- A `URLError`; `timedOut` when its reason is a `TimeoutError`. -/
  | urlError (timedOut : Bool)
  /-- An exception while the status line is awaited. -/
  | noStatus (error : TransportError)
  /-- The `ValueError` or `InvalidURL` that a redirect to a malformed `Location`
  ends in. -/
  | badRedirect (typeName : String)
  | response (status : Nat) (body : Except TransportError (List UInt8))

/-- What `json.loads` raises: the `ValueError` of an integer with too many
digits and a `RecursionError` are no `JSONDecodeError`. -/
inductive LoadsError where
  | jsonDecodeError
  | other (typeName : String)
deriving DecidableEq, Repr

/-- `decode("utf-8")`, `decode("utf-8", errors="replace")` and `json.loads`. -/
structure BodyCodec where
  decode : List UInt8 → Option Python.Str
  decodeReplace : List UInt8 → String
  loads : Python.Str → Except LoadsError Python.Value

/-- How `generate` raises: an exception of `app.backends.errors`, or another. -/
inductive GenerateRaised where
  | backend (error : BackendError)
  | other (typeName : String)
deriving DecidableEq, Repr

/-! ## The request -/

/-- `timeoutSeconds` is `str` of the attribute. -/
structure VLLMBackend where
  baseUrl : String
  modelName : String
  timeoutSeconds : String
  enableSeedThinkingBudget : Bool
  apiKey : String

structure VLLMCall where
  prompt : Python.Str
  maxNewTokens : Int := 128
  temperature : Python.Float := .finite (7 / 10)
  thinkingBudget : Option Int := none

structure HttpRequest where
  url : String
  payload : Python.Dict
  headers : List (String × String)

namespace VLLMBackend

def create (baseUrl modelName : String) (timeoutSeconds : String := "300") (enableSeedThinkingBudget : Bool := false)
    (apiKey : String := "") : VLLMBackend :=
  ⟨String.ofList (baseUrl.toList.reverse.dropWhile (· = '/')).reverse, modelName, timeoutSeconds,
    enableSeedThinkingBudget, apiKey⟩

variable (b : VLLMBackend)

def headers (includeContentType : Bool) : List (String × String) :=
  [("User-Agent", "ai-inference-gateway/1.0")] ++
    (if includeContentType then [("Content-Type", "application/json")] else []) ++
    (if b.apiKey = "" then [] else [("Authorization", "Bearer " ++ b.apiKey)])

def shouldUseSeedThinkingBudget : Bool := b.enableSeedThinkingBudget || Python.contains b.modelName "Seed-OSS"

def normalizeSeedThinkingBudget (thinkingBudget : Option Int) : Option Int :=
  thinkingBudget.map fun n => if 0 < n ∧ n < 512 then 0 else n

def seedKwargs (thinkingBudget : Option Int) : Python.Dict :=
  if b.shouldUseSeedThinkingBudget then
    match normalizeSeedThinkingBudget thinkingBudget with
    | some budget => [(Python.str "chat_template_kwargs", .dict [(Python.str "thinking_budget", .int budget)])]
    | none => []
  else []

def request (call : VLLMCall) : HttpRequest where
  url := b.baseUrl ++ "/chat/completions"
  payload :=
    [(Python.str "model", .str (Python.str b.modelName)),
      (Python.str "messages", .list [.dict [(Python.str "role", .str (Python.str "user")),
        (Python.str "content", .str call.prompt)]]),
      (Python.str "max_tokens", .int call.maxNewTokens),
      (Python.str "temperature", .float call.temperature)] ++ b.seedKwargs call.thinkingBudget
  headers := b.headers true

/-! ## The exceptions -/

def timeout : BackendError := ⟨.timeout, "vLLM request timed out after " ++ b.timeoutSeconds ++ "s"⟩

def unreachable : BackendError := ⟨.unavailable, "vLLM server is unreachable at " ++ b.baseUrl⟩

def resourceExhaustionMarkers : List String :=
  ["out of memory", "cuda oom", "cuda out of memory", "memory exhausted", "insufficient memory", "resource exhausted",
    "kv cache"]

/-- `str.lower`, as far as it can make an ASCII character. -/
def lower (text : String) : String :=
  String.ofList (text.toList.flatMap fun c =>
    if c = Char.ofNat 0x212a then ['k'] else if c = Char.ofNat 0x130 then ['i', Char.ofNat 0x307] else [c.toLower])

def httpError (status : Nat) (errorBody : String) : BackendError :=
  if status = 500 ∧ resourceExhaustionMarkers.any (Python.contains (lower errorBody)) then
    ⟨.resourceExhausted, "vLLM upstream resource exhausted: HTTP " ++ toString status ++ "; body=" ++
      String.ofList (errorBody.toList.take 500)⟩
  else if status ∈ [502, 503, 504] then
    ⟨.unavailable, "vLLM upstream is temporarily unavailable: HTTP " ++ toString status⟩
  else
    ⟨.upstreamProtocol, "vLLM returned HTTP " ++ toString status ++ "; body=" ++
      String.ofList (errorBody.toList.take 500)⟩

/-- An unwrapped exception is caught only when it is a timeout. -/
def unwrapped : TransportError → GenerateRaised
  | .timeoutError => .backend b.timeout
  | .osError typeName => .other typeName
  | .httpException typeName => .other typeName

variable (codec : BodyCodec)

/-- `exc.read()` of an error status, with its `except OSError`. -/
def readErrorBody : Except TransportError (List UInt8) → Except GenerateRaised String
  | .ok bytes => .ok (codec.decodeReplace bytes)
  | .error .timeoutError => .ok ""
  | .error (.osError _) => .ok ""
  | .error (.httpException typeName) => .error (.other typeName)

/-- The `try` statement: the JSON value of the response. -/
def receive : Exchange → Except GenerateRaised Python.Value
  | .urlError true => .error (.backend b.timeout)
  | .urlError false => .error (.backend b.unreachable)
  | .noStatus error => .error (b.unwrapped error)
  | .badRedirect typeName => .error (.other typeName)
  | .response status body =>
    if 200 ≤ status ∧ status < 300 then
      match body with
      | .error error => .error (b.unwrapped error)
      | .ok bytes =>
        match codec.decode bytes with
        | none => .error (.other "UnicodeDecodeError")
        | some rawBody =>
          match codec.loads rawBody with
          | .ok data => .ok data
          | .error .jsonDecodeError => .error (.backend ⟨.upstreamProtocol, "vLLM returned invalid JSON"⟩)
          | .error (.other typeName) => .error (.other typeName)
    else
      match readErrorBody codec body with
      | .error raised => .error raised
      | .ok errorBody => .error (.backend (httpError status errorBody))

/-! ## The result -/

structure Completion where
  response : Python.Value
  inputTokens : Python.Value
  outputTokens : Python.Value
  totalTokens : Python.Value
  tokensPerSecond : Option Python.Float

def tokensPerSecond (latencySeconds : ℚ) (outputTokens : Python.Value) : Except String (Option Python.Float) :=
  if outputTokens.isNone = false ∧ 0 < latencySeconds then (outputTokens.trueDiv latencySeconds).map some
  else .ok none

/-- `none` when there are no choices. -/
def readCompletion (latencySeconds : ℚ) (data : Python.Value) : Except String (Option Completion) := do
  let choices ← data.get (Python.str "choices") (.list [])
  if choices.truthy = false then .ok none
  else do
    let choice ← choices.first
    let message ← choice.get (Python.str "message") (.dict [])
    let response ← message.get (Python.str "content") (.str [])
    let usage ← data.get (Python.str "usage") (.dict [])
    let inputTokens ← usage.get (Python.str "prompt_tokens") .none
    let outputTokens ← usage.get (Python.str "completion_tokens") .none
    let totalTokens ← usage.get (Python.str "total_tokens") .none
    let tokensPerSecond ← tokensPerSecond latencySeconds outputTokens
    .ok (some { response, inputTokens, outputTokens, totalTokens, tokensPerSecond })

def result (call : VLLMCall) (latencySeconds : ℚ) (c : Completion) : Python.Dict := [
  (Python.str "response", c.response),
  (Python.str "latency_seconds", .float (.round 6 (.finite latencySeconds))),
  (Python.str "input_chars", .int call.prompt.length),
  (Python.str "max_new_tokens", .int call.maxNewTokens),
  (Python.str "thinking_budget", .ofInt? call.thinkingBudget),
  (Python.str "backend", .str (Python.str "vllm")),
  (Python.str "input_tokens", c.inputTokens),
  (Python.str "output_tokens", c.outputTokens),
  (Python.str "tokens_per_second", (c.tokensPerSecond.map fun x => .float (.round 4 x)).getD .none),
  (Python.str "model_name", .str (Python.str b.modelName)),
  (Python.str "device", .str (Python.str "vllm_server")),
  (Python.str "total_tokens", c.totalTokens)]

def generate (call : VLLMCall) (exchange : HttpRequest → Exchange) (latencySeconds : ℚ) :
    Except GenerateRaised Python.Dict :=
  match b.receive codec (exchange (b.request call)) with
  | .error raised => .error raised
  | .ok data =>
    match readCompletion latencySeconds data with
    | .error typeName => .error (.other typeName)
    | .ok none => .error (.backend ⟨.upstreamProtocol, "vLLM response contains no choices"⟩)
    | .ok (some c) => .ok (b.result call latencySeconds c)

end VLLMBackend

/-! ## `generate_text` over these backends -/

def GenerateRaised.isRetrySafe : GenerateRaised → Bool
  | backend error => error.isRetrySafe
  | other _ => false

def GenerateRaised.isFallbackSafe : GenerateRaised → Bool
  | backend error => error.isFallbackSafe
  | other _ => false

/-- What a call meets: how its exchange ends, and the latency it measures. -/
structure Meeting where
  exchange : HttpRequest → Exchange
  latencySeconds : ℚ

/-- One request of `app.inference` with backends of this kind. The primary's
calls are numbered from 0. -/
structure VLLMInference where
  controller : ResilienceController
  backend : VLLMBackend
  fallbackBackend : Option VLLMBackend
  fallbackThinkingBudget : Option Int
  codec : BodyCodec
  primaryCall : Nat → Meeting
  fallbackCall : Meeting

namespace VLLMInference
variable (I : VLLMInference) (B : BreakerAnswers) (requestId : String) (call : VLLMCall)

def request : ExecuteRequest Python.Dict GenerateRaised where
  requestId
  primaryOperation k := I.backend.generate I.codec call (I.primaryCall k).exchange (I.primaryCall k).latencySeconds
  fallbackOperation := I.fallbackBackend.map fun b =>
    b.generate I.codec { call with thinkingBudget := I.fallbackThinkingBudget } I.fallbackCall.exchange
      I.fallbackCall.latencySeconds
  fallbackBudget := if I.fallbackBackend.isSome then I.fallbackThinkingBudget else none
  isRetrySafe := GenerateRaised.isRetrySafe
  isFallbackSafe := GenerateRaised.isFallbackSafe
  onRetry := true
  onTransition := true
  onFallback := true

def outcome : Except (ExecuteError GenerateRaised) (ResilienceOutcome Python.Dict) :=
  (I.controller.execute B (I.request requestId call)).result

def body (outcome : ResilienceOutcome Python.Dict) : Except GenerateRaised Python.Value :=
  match outcome.route with
  | .primary =>
    I.backend.receive I.codec ((I.primaryCall (outcome.primaryAttempts - 1)).exchange (I.backend.request call))
  | .fallback =>
    match I.fallbackBackend with
    | none => .error (.other "RuntimeError")
    | some b =>
      b.receive I.codec
        (I.fallbackCall.exchange (b.request { call with thinkingBudget := I.fallbackThinkingBudget }))

def latencySeconds (outcome : ResilienceOutcome Python.Dict) : ℚ :=
  match outcome.route with
  | .primary => (I.primaryCall (outcome.primaryAttempts - 1)).latencySeconds
  | .fallback => I.fallbackCall.latencySeconds

def generateText : Except (ExecuteError GenerateRaised) Python.Dict :=
  (I.outcome B requestId call).map ResilienceOutcome.toDict

end VLLMInference

end InferenceService
