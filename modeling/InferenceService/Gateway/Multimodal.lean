import InferenceService.Gateway.Generate
import InferenceService.Lib.FloatText

/-!
# The BAGEL service

One request of `multimodal_generate` as a function of how its call of BAGEL and
the run of `nvidia-smi` end, with the metrics that it changes.
-/

namespace InferenceService

abbrev Chars := List Char

/-! ## `update_gpu_metrics` -/

/-- How `subprocess.run` ends. With `text=True` it decodes both outputs before
it looks at the exit code; `stdout` is `none` when that fails. -/
inductive NvidiaSmi where
  | osError
  | timedOut
  | exited (returnCode : Int) (stdout : Option Chars)

inductive GpuMetricsError where
  | unicodeDecodeError
  | valueError
deriving DecidableEq, Repr

/-- The children of the two gauges by `gpu_index`. -/
structure GpuGauges where
  memoryUsedMib : Chars → Option Python.Decimal
  utilizationPercent : Chars → Option Python.Decimal

/-- `gauge.labels(gpu_index=…)`: a new child has the value 0. -/
def gaugeLabels (gauge : Chars → Option Python.Decimal) (gpuIndex : Chars) : Chars → Option Python.Decimal :=
  fun index => if index = gpuIndex then some ((gauge index).getD (.finite false 0 0)) else gauge index

def gaugeSet (gauge : Chars → Option Python.Decimal) (gpuIndex : Chars) (value : Python.Decimal) :
    Chars → Option Python.Decimal :=
  fun index => if index = gpuIndex then some value else gauge index

def sampleFields (gpuIndex memoryUsed gpuUtilization : Chars) (g : GpuGauges) : GpuGauges × Except GpuMetricsError Unit :=
  let g := { g with memoryUsedMib := gaugeLabels g.memoryUsedMib gpuIndex }
  match Python.floatText memoryUsed with
  | none => (g, .error .valueError)
  | some memory =>
    let g : GpuGauges := ⟨gaugeSet g.memoryUsedMib gpuIndex memory, gaugeLabels g.utilizationPercent gpuIndex⟩
    match Python.floatText gpuUtilization with
    | none => (g, .error .valueError)
    | some utilization => ({ g with utilizationPercent := gaugeSet g.utilizationPercent gpuIndex utilization }, .ok ())

def lineFields (line : Chars) : List Chars := (line.splitOn ',').map Python.strip

def sampleLine (line : Chars) (g : GpuGauges) : GpuGauges × Except GpuMetricsError Unit :=
  match lineFields line with
  | [gpuIndex, memoryUsed, gpuUtilization] => sampleFields gpuIndex memoryUsed gpuUtilization g
  | _ => (g, .ok ())

def sampleLines : List Chars → GpuGauges → GpuGauges × Except GpuMetricsError Unit
  | [], g => (g, .ok ())
  | line :: lines, g =>
    match sampleLine line g with
    | (g, .ok ()) => sampleLines lines g
    | (g, .error error) => (g, .error error)

def universalNewlines (text : Chars) : Chars := (Python.joinCrLf text).map fun c => if c = '\r' then '\n' else c

def outputLines (stdout : Chars) : List Chars := Python.splitlines (Python.strip (universalNewlines stdout))

def updateGpuMetrics : NvidiaSmi → GpuGauges → GpuGauges × Except GpuMetricsError Unit
  | .osError, g => (g, .ok ())
  | .timedOut, g => (g, .ok ())
  | .exited _ none, g => (g, .error .unicodeDecodeError)
  | .exited returnCode (some stdout), g =>
    -- `check=True`: a `CalledProcessError` is a `SubprocessError`
    if returnCode ≠ 0 then (g, .ok ()) else sampleLines (outputLines stdout) g

/-! ## `multimodal_generate` -/

structure MultimodalConfig where
  bagelMaxImageBytes : Int
  bagelModelName : String

structure MultimodalRequest where
  contentType : Option String
  imageBytes : List UInt8
  filename : Option String
  prompt : String
  showThinking : Bool := false
  doSample : Bool := false
  temperature : Python.Float := .finite (3 / 10)
  maxNewTokens : Int := 512

/-- How the call of BAGEL ends: with `str(result)`, a timeout, a
`BagelClientError`, or another exception. -/
inductive BagelOutcome where
  | answered (result : Python.Str)
  | timedOut
  | clientError (text : Python.Str)
  | raised (typeName : String)

/-- `asyncio.TimeoutError` is `TimeoutError`, also when it is not `wait_for`
that raises it. -/
def BagelOutcome.ofException (typeName : String) : BagelOutcome :=
  if typeName = "TimeoutError" then timedOut else raised typeName

structure MultimodalGenerateResponse where
  response : String
  latencySeconds : ℚ
  backend : String
  modelName : String
  imageFilename : String
  imageBytes : Nat
  maxNewTokens : Int
  temperature : Python.Float
  showThinking : Bool
  doSample : Bool

inductive MultimodalError where
  | http (exc : HTTPException)
  | gpuMetrics (error : GpuMetricsError)
  | validationError
  | unicodeEncodeError
  | other (typeName : String)

/-- The counters by their labels, `backend` apart, and the observed latencies. -/
structure MultimodalMetrics where
  requestsTotal : String → Nat
  requestErrorsTotal : String → Nat
  latencies : List ℚ
  gauges : GpuGauges

namespace MultimodalMetrics

def request (m : MultimodalMetrics) (outcome : String) (latency : ℚ) : MultimodalMetrics :=
  { m with
    requestsTotal := fun label => if label = outcome then m.requestsTotal label + 1 else m.requestsTotal label
    latencies := m.latencies ++ [latency] }

def requestError (m : MultimodalMetrics) (errorType : String) : MultimodalMetrics :=
  { m with
    requestErrorsTotal := fun label =>
      if label = errorType then m.requestErrorsTotal label + 1 else m.requestErrorsTotal label }

end MultimodalMetrics

def allowedTypes : List String := ["image/jpeg", "image/png", "image/webp"]

def temperatureInRange : Python.Float → Bool
  | .finite q => 0 ≤ q ∧ q ≤ 2
  | _ => false

/-- The checks before BAGEL is called, in their order. -/
def checkRequest (config : MultimodalConfig) (r : MultimodalRequest) : Except HTTPException Unit :=
  if ¬ r.contentType.any fun contentType => contentType ∈ allowedTypes then
    .error ⟨415, .message "image must be JPEG, PNG, or WEBP"⟩
  else if Python.strip r.prompt.toList = [] then .error ⟨400, .message "prompt must not be empty"⟩
  else if ¬ temperatureInRange r.temperature then .error ⟨422, .message "temperature must be in [0.0, 2.0]"⟩
  else if ¬ (1 ≤ r.maxNewTokens ∧ r.maxNewTokens ≤ 1024) then
    .error ⟨422, .message "max_new_tokens must be in [1, 1024]"⟩
  else if r.imageBytes = [] then .error ⟨400, .message "image must not be empty"⟩
  else if (r.imageBytes.length : Int) > config.bagelMaxImageBytes then
    .error ⟨413, .message ("image exceeds " ++ toString config.bagelMaxImageBytes ++ " bytes")⟩
  else .ok ()

/-- The response model takes no text with a lone surrogate. -/
def multimodalReply (config : MultimodalConfig) (r : MultimodalRequest) (result : Python.Str) (latency : ℚ) :
    Except MultimodalError MultimodalGenerateResponse :=
  match Python.encodeUtf8 result with
  | none => .error .validationError
  | some response =>
    .ok {
      response
      latencySeconds := latency
      backend := "bagel_gradio"
      modelName := config.bagelModelName
      imageFilename := match r.filename with
        | none => "upload"
        | some filename => if filename = "" then "upload" else filename
      imageBytes := r.imageBytes.length
      maxNewTokens := r.maxNewTokens
      temperature := r.temperature
      showThinking := r.showThinking
      doSample := r.doSample }

/-- Nor does the response to an error, whose text is encoded as it is sent. -/
def upstreamError (text : Python.Str) : MultimodalError :=
  match Python.encodeUtf8 text with
  | none => .unicodeEncodeError
  | some text => .http ⟨502, .message ("BAGEL upstream error: " ++ text)⟩

def multimodalGenerate (config : MultimodalConfig) (r : MultimodalRequest) (bagel : BagelOutcome) (latency : ℚ)
    (smi : NvidiaSmi) (m : MultimodalMetrics) :
    MultimodalMetrics × Except MultimodalError MultimodalGenerateResponse :=
  match checkRequest config r with
  | .error exc => (m, .error (.http exc))
  | .ok () =>
    match bagel with
    | .timedOut =>
      ((m.request "timeout" latency).requestError "timeout", .error (.http ⟨504, .message "BAGEL request timed out"⟩))
    | .clientError text =>
      ((m.request "upstream_error" latency).requestError "upstream_error", .error (upstreamError text))
    | .raised typeName => (m, .error (.other typeName))
    | .answered result =>
      let m := m.request "success" latency
      match updateGpuMetrics smi m.gauges with
      | (gauges, .error error) => ({ m with gauges }, .error (.gpuMetrics error))
      | (gauges, .ok ()) => ({ m with gauges }, multimodalReply config r result latency)

/-! ## When sampling returns -/

/-- If the line has three fields, `float` takes the last two. -/
def NumericLine (line : Chars) : Prop :=
  ∀ gpuIndex memoryUsed gpuUtilization, lineFields line = [gpuIndex, memoryUsed, gpuUtilization] →
    (Python.floatText memoryUsed).isSome = true ∧ (Python.floatText gpuUtilization).isSome = true

def NumericLines (stdout : Chars) : Prop := ∀ line ∈ outputLines stdout, NumericLine line

def NvidiaSmi.Readable : NvidiaSmi → Prop
  | .osError => True
  | .timedOut => True
  | .exited _ none => False
  | .exited returnCode (some stdout) => returnCode = 0 → NumericLines stdout

theorem sampleFields_ok_iff (gpuIndex memoryUsed gpuUtilization : Chars) (g : GpuGauges) :
    (sampleFields gpuIndex memoryUsed gpuUtilization g).2 = .ok () ↔
      (Python.floatText memoryUsed).isSome = true ∧ (Python.floatText gpuUtilization).isSome = true := by
  unfold sampleFields
  cases Python.floatText memoryUsed with
  | none => simp
  | some memory => cases Python.floatText gpuUtilization <;> simp

theorem sampleLine_ok_iff (line : Chars) (g : GpuGauges) : (sampleLine line g).2 = .ok () ↔ NumericLine line := by
  unfold sampleLine
  split
  · rename_i gpuIndex memoryUsed gpuUtilization hfields
    rw [sampleFields_ok_iff]
    constructor
    · intro h i mem util heq
      rw [hfields] at heq
      cases heq
      exact h
    · intro h
      exact h _ _ _ hfields
  · rename_i hother
    exact ⟨fun _ i mem util heq => absurd heq (hother i mem util), fun _ => rfl⟩

theorem sampleLines_ok_iff (lines : List Chars) (g : GpuGauges) :
    (sampleLines lines g).2 = .ok () ↔ ∀ line ∈ lines, NumericLine line := by
  induction lines generalizing g with
  | nil => simp [sampleLines]
  | cons line lines ih =>
    rw [List.forall_mem_cons, ← sampleLine_ok_iff line g, sampleLines]
    obtain ⟨g', outcome⟩ := sampleLine line g
    cases outcome with
    | error error => simp
    | ok u => simp [ih g']

theorem updateGpuMetrics_ok_iff (smi : NvidiaSmi) (g : GpuGauges) :
    (updateGpuMetrics smi g).2 = .ok () ↔ smi.Readable := by
  cases smi with
  | osError => simp [updateGpuMetrics, NvidiaSmi.Readable]
  | timedOut => simp [updateGpuMetrics, NvidiaSmi.Readable]
  | exited returnCode stdout =>
    cases stdout with
    | none => simp [updateGpuMetrics, NvidiaSmi.Readable]
    | some stdout =>
      rw [updateGpuMetrics, NvidiaSmi.Readable]
      by_cases hcode : returnCode = 0
      · simp only [hcode, ne_eq, not_true_eq_false, if_false, forall_const]
        exact sampleLines_ok_iff _ g
      · simp [hcode]

theorem multimodalReply_ok_iff (config : MultimodalConfig) (r : MultimodalRequest) (result : Python.Str) (latency : ℚ) :
    (∃ reply, multimodalReply config r result latency = .ok reply ∧ Python.str reply.response = result) ↔
      (Python.encodeUtf8 result).isSome = true := by
  unfold multimodalReply
  cases hresult : Python.encodeUtf8 result with
  | none => simp
  | some response => simp [Python.str_of_encodeUtf8 hresult]

/-- Sampling returns, and an answer of BAGEL is passed on, if and only if the
output of `nvidia-smi` is readable; an answer must also be a text that the
response model takes. -/
theorem sampling_iff (smi : NvidiaSmi) :
    (∀ g, (updateGpuMetrics smi g).2 = .ok () ↔ smi.Readable) ∧
      ∀ config r result latency m,
        (∃ reply, (multimodalGenerate config r (.answered result) latency smi m).2 = .ok reply ∧
          Python.str reply.response = result) ↔
          checkRequest config r = .ok () ∧ smi.Readable ∧ (Python.encodeUtf8 result).isSome = true := by
  refine ⟨updateGpuMetrics_ok_iff smi, ?_⟩
  intro config r result latency m
  unfold multimodalGenerate
  cases hcheck : checkRequest config r with
  | error exc => simp
  | ok u =>
    simp only
    rw [← updateGpuMetrics_ok_iff smi (m.request "success" latency).gauges]
    obtain ⟨g, outcome⟩ := updateGpuMetrics smi (m.request "success" latency).gauges
    cases outcome with
    | error error => simp
    | ok v => simpa using multimodalReply_ok_iff config r result latency

def bagelConfig : MultimodalConfig := ⟨10485760, "ByteDance-Seed/BAGEL-7B-MoT"⟩

def catRequest : MultimodalRequest where
  contentType := some "image/png"
  imageBytes := [0]
  filename := none
  prompt := "What is this?"
  temperature := .finite 0

def noGauges : GpuGauges := ⟨fun _ => none, fun _ => none⟩

/-- A line without numbers fails a request that BAGEL has answered. -/
theorem sampling_fails :
    (updateGpuMetrics (.exited 0 (some "0, [N/A], [N/A]\n".toList)) noGauges).2 = .error .valueError ∧
      checkRequest bagelConfig catRequest = .ok () ∧
      (multimodalGenerate bagelConfig catRequest (.answered (Python.str "a cat")) 1
        (.exited 0 (some "0, [N/A], [N/A]\n".toList)) ⟨fun _ => 0, fun _ => 0, [], noGauges⟩).2 =
          .error (.gpuMetrics .valueError) := by
  have hcheck : checkRequest bagelConfig catRequest = .ok () := by decide
  refine ⟨rfl, hcheck, ?_⟩
  unfold multimodalGenerate
  rw [hcheck]
  rfl

end InferenceService
