import InferenceService.Gateway.Classified

/-!
# `check_ready` and `GET /readyz`

One check as a function of how the exchange with `/models` ends. A `urllib`
exception is a text to the check; an exception that it does not catch leaves
the handler too, as nothing above it catches any.
-/

namespace InferenceService

structure GetRequest where
  url : String
  headers : List (String × String)

/-! ## One backend -/

namespace VLLMBackend
variable (b : VLLMBackend) (codec : BodyCodec) (detail : Exchange → String)

def modelsRequest : GetRequest := ⟨b.baseUrl ++ "/models", b.headers false⟩

def readyResult (models : Nat) : Python.Dict := [
  (Python.str "ready", .bool true),
  (Python.str "backend", .str (Python.str "vllm")),
  (Python.str "model_name", .str (Python.str b.modelName)),
  (Python.str "models", .int models)]

def unreadyResult (detail : String) : Python.Dict := [
  (Python.str "ready", .bool false),
  (Python.str "backend", .str (Python.str "vllm")),
  (Python.str "model_name", .str (Python.str b.modelName)),
  (Python.str "detail", .str (Python.str detail))]

/-- `len(payload.get("data", []))`; an error is the class of the exception. -/
def modelCount (payload : Python.Value) : Except String Nat := do
  let data ← payload.get (Python.str "data") (.list [])
  data.len

def countModels (bytes : List UInt8) : Except String Nat :=
  match codec.decode bytes with
  | none => .error "UnicodeDecodeError"
  | some text =>
    match codec.loads text with
    | .error .jsonDecodeError => .error "JSONDecodeError"
    | .error (.other typeName) => .error typeName
    | .ok payload => modelCount payload

/-- The `except` clause names `TimeoutError`, no other unwrapped exception. -/
def caughtUnwrapped (detail : String) : TransportError → Except String Python.Dict
  | .timeoutError => .ok (b.unreadyResult detail)
  | .osError typeName => .error typeName
  | .httpException typeName => .error typeName

/-- `detail` is `str` of the exception that an exchange ends with. -/
def checkReady (exchange : GetRequest → Exchange) : Except String Python.Dict :=
  let ended := exchange b.modelsRequest
  match ended with
  | .urlError _ => .ok (b.unreadyResult (detail ended))
  | .noStatus error => b.caughtUnwrapped (detail ended) error
  | .badRedirect typeName => .error typeName
  | .response status body =>
    if 200 ≤ status ∧ status < 300 then
      match body with
      | .error error => b.caughtUnwrapped (detail ended) error
      | .ok bytes => (countModels codec bytes).map b.readyResult
    else .ok (b.unreadyResult (detail ended))

end VLLMBackend

/-! ## The service -/

/-- What `record_backend_readiness` sets. -/
structure ReadinessSample where
  backend : String
  ready : Bool
deriving DecidableEq, Repr

section
variable (inferenceBackend : String)

/-- `checker` is none for a backend without `check_ready`. -/
def checkBackendReadiness (checker : Option (Except String Python.Dict)) (role : String) :
    Except String (Python.Dict × ReadinessSample) := do
  let result : Python.Dict ← match checker with
    | none => .ok [
        (Python.str "ready", .bool true),
        (Python.str "backend", .str (Python.str inferenceBackend)),
        (Python.str "detail", .str (Python.str "backend does not expose an active readiness check"))]
    | some checked => checked
  .ok (result, ⟨inferenceBackend ++ "_" ++ role, ((result.get? (Python.str "ready")).getD (.bool false)).truthy⟩)

/-- `result["ready"]`. -/
def readyItem (result : Python.Dict) : Except String Python.Value :=
  match result.get? (Python.str "ready") with
  | some ready => .ok ready
  | none => .error "KeyError"

def serviceReadiness (backend : Option (Except String Python.Dict))
    (fallbackBackend : Option (Option (Except String Python.Dict))) : Except String Python.Dict := do
  let (primary, _) ← checkBackendReadiness inferenceBackend backend "primary"
  let fallback ← match fallbackBackend with
    | none => .ok none
    | some checker => (checkBackendReadiness inferenceBackend checker "fallback").map fun checked => some checked.1
  let fallbackReady ← match fallback with
    | none => .ok false
    | some result => if result.isEmpty then .ok false else (readyItem result).map Python.Value.truthy
  let primaryReady ← readyItem primary
  .ok [
    (Python.str "ready", .bool (primaryReady.truthy || fallbackReady)),
    (Python.str "backend", (primary.get? (Python.str "backend")).getD (.str (Python.str inferenceBackend))),
    (Python.str "primary", .dict primary),
    (Python.str "fallback", (fallback.map Python.Value.dict).getD .none)]

structure HttpAnswer where
  status : Nat
  body : Python.Dict

/-- `GET /readyz`; an error leaves the handler. -/
def readyz (backend : Option (Except String Python.Dict))
    (fallbackBackend : Option (Option (Except String Python.Dict))) : Except String HttpAnswer := do
  let result ← serviceReadiness inferenceBackend backend fallbackBackend
  let ready ← readyItem result
  if ready.truthy = false then .ok ⟨503, [(Python.str "detail", .dict result)]⟩
  else .ok ⟨200, Python.Dict.update [(Python.str "status", .str (Python.str "ready"))] result⟩

end

/-! ## The exchanges that a check survives -/

/-- A body that is JSON of an object whose `data`, if any, has a length. -/
def ListsModels (codec : BodyCodec) (bytes : List UInt8) : Prop :=
  ∃ text payload, codec.decode bytes = some text ∧ codec.loads text = .ok (.dict payload) ∧
    ∀ data, Python.Dict.get? payload (Python.str "data") = some data → data.Sized

def Exchange.Survived (codec : BodyCodec) : Exchange → Prop
  | .urlError _ => True
  | .noStatus error => error = .timeoutError
  | .badRedirect _ => False
  | .response status (.error error) => 200 ≤ status ∧ status < 300 → error = .timeoutError
  | .response status (.ok bytes) => 200 ≤ status ∧ status < 300 → ListsModels codec bytes

def SaysReady (checked : Except String Python.Dict) (ready : Bool) : Prop :=
  ∃ result, checked = .ok result ∧ result.get? (Python.str "ready") = some (.bool ready)

/-- Both checks say whether their backend is ready, and the endpoint answers
200 when one is and 503 when none is. -/
def ReadinessSound (primary fallback : Except String Python.Dict) (answer : Except String HttpAnswer) : Prop :=
  ∃ p f, SaysReady primary p ∧ SaysReady fallback f ∧ ∃ body, answer = .ok ⟨if p || f then 200 else 503, body⟩

section
variable (b : VLLMBackend) (codec : BodyCodec) (detail : Exchange → String) (exchange : GetRequest → Exchange)

theorem modelCount_ok_iff (payload : Python.Value) : (∃ n, VLLMBackend.modelCount payload = .ok n) ↔
    ∃ items, payload = .dict items ∧
      ∀ data, Python.Dict.get? items (Python.str "data") = some data → data.Sized := by
  unfold VLLMBackend.modelCount
  cases payload with
  | dict items =>
    simp only [Python.Value.get, bind, Except.bind, Python.Value.dict.injEq, exists_eq_left']
    rw [Python.Value.len_ok_iff]
    cases Python.Dict.get? items (Python.str "data") with
    | none => simp [Python.Value.Sized]
    | some data => simp
  | _ => simp [Python.Value.get, bind, Except.bind]

theorem countModels_ok_iff (bytes : List UInt8) :
    (∃ n, VLLMBackend.countModels codec bytes = .ok n) ↔ ListsModels codec bytes := by
  unfold VLLMBackend.countModels ListsModels
  cases hd : codec.decode bytes with
  | none => simp
  | some text =>
    cases hl : codec.loads text with
    | error err => cases err <;> simp [hl]
    | ok payload => simp [hl, modelCount_ok_iff]

theorem ready_readyResult (models : Nat) : SaysReady (.ok (b.readyResult models)) true := ⟨_, rfl, rfl⟩

theorem ready_unreadyResult (text : String) : SaysReady (.ok (b.unreadyResult text)) false := ⟨_, rfl, rfl⟩

theorem caughtUnwrapped_ready_iff (text : String) (error : TransportError) :
    (∃ ready, SaysReady (b.caughtUnwrapped text error) ready) ↔ error = .timeoutError := by
  cases error with
  | timeoutError => exact ⟨fun _ => rfl, fun _ => ⟨_, ready_unreadyResult b text⟩⟩
  | osError typeName => simp [VLLMBackend.caughtUnwrapped, SaysReady]
  | httpException typeName => simp [VLLMBackend.caughtUnwrapped, SaysReady]

/-- When a check says whether its backend is ready. -/
theorem checkReady_iff : (∃ ready, SaysReady (b.checkReady codec detail exchange) ready) ↔
    (exchange b.modelsRequest).Survived codec := by
  unfold VLLMBackend.checkReady
  cases he : exchange b.modelsRequest with
  | urlError timedOut => exact ⟨fun _ => trivial, fun _ => ⟨_, ready_unreadyResult b _⟩⟩
  | noStatus error => exact caughtUnwrapped_ready_iff b _ error
  | badRedirect typeName => exact ⟨fun ⟨_, _, h, _⟩ => (nomatch h), False.elim⟩
  | response status body =>
    by_cases hs : 200 ≤ status ∧ status < 300
    · cases body with
      | error error =>
        simp only [hs, and_self, if_true, Exchange.Survived, true_imp_iff]
        exact caughtUnwrapped_ready_iff b _ error
      | ok bytes =>
        simp only [hs, and_self, if_true, Exchange.Survived, true_imp_iff, ← countModels_ok_iff]
        cases hc : VLLMBackend.countModels codec bytes with
        | error typeName => simp [SaysReady, Except.map]
        | ok models => exact ⟨fun _ => ⟨models, rfl⟩, fun _ => ⟨_, ready_readyResult b models⟩⟩
    · have hready : ∃ ready, SaysReady (.ok (b.unreadyResult (detail (.response status body)))) ready :=
        ⟨_, ready_unreadyResult b _⟩
      cases body with
      | error error => simpa [hs, Exchange.Survived] using hready
      | ok bytes => simpa [hs, Exchange.Survived] using hready

end

/-! ## The endpoint over two of these backends -/

section
variable (inferenceBackend : String) {primary fallback : Except String Python.Dict} {p f : Bool}

theorem readyItem_eq {result : Python.Dict} {ready : Bool}
    (h : result.get? (Python.str "ready") = some (.bool ready)) : readyItem result = .ok (.bool ready) := by
  unfold readyItem
  rw [h]

theorem service_of_ready (hp : SaysReady primary p) (hf : SaysReady fallback f) :
    ∃ result, serviceReadiness inferenceBackend (some primary) (some (some fallback)) = .ok result ∧
      result.get? (Python.str "ready") = some (.bool (p || f)) := by
  obtain ⟨pd, rfl, hpd⟩ := hp
  obtain ⟨fd, rfl, hfd⟩ := hf
  have hne : fd.isEmpty = false := by
    cases fd with
    | nil => cases hfd
    | cons item fd => rfl
  unfold serviceReadiness checkBackendReadiness
  simp only [bind, Except.bind, Except.map, hne, Bool.false_eq_true, if_false, readyItem_eq hpd, readyItem_eq hfd]
  exact ⟨_, rfl, by rw [Python.Dict.get?_cons, if_pos rfl]; rfl⟩

theorem readyz_of_ready (hp : SaysReady primary p) (hf : SaysReady fallback f) :
    ∃ body, readyz inferenceBackend (some primary) (some (some fallback)) =
      .ok ⟨if p || f then 200 else 503, body⟩ := by
  obtain ⟨result, hr, hready⟩ := service_of_ready inferenceBackend hp hf
  unfold readyz
  simp only [hr, bind, Except.bind, readyItem_eq hready, Python.Value.truthy]
  cases p || f with
  | false => exact ⟨_, rfl⟩
  | true => exact ⟨_, rfl⟩

end

def modelsBody : String := "\x7b\"data\": []\x7d"

def modelsCodec : BodyCodec where
  decode bytes := some (bytes.map fun byte => Python.codePoint byte.toNat)
  decodeReplace bytes := String.ofList (bytes.map fun byte => Char.ofNat byte.toNat)
  loads text :=
    if text = Python.str modelsBody then .ok (.dict [(Python.str "data", .list [])]) else .error .jsonDecodeError

def textResponse (body : String) : Exchange := .response 200 (.ok (body.toList.map fun c => UInt8.ofNat c.toNat))

def spareVllm : VLLMBackend := .create "http://localhost:8001/v1" "Qwen3-4B"

end InferenceService
