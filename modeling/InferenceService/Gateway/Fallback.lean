import InferenceService.Gateway.Vllm

/-!
# The primary backend and the fallback

`_build_backend` and `_build_fallback_backend` read the same settings of
`app.config`. A server is addressed by what the constructor of `VLLMBackend`
makes of its URL.
-/

namespace InferenceService

/-- `text.rstrip(c)`. -/
def rstrip (c : Char) (text : String) : String := String.ofList (text.toList.reverse.dropWhile (· = c)).reverse

/-- The environment after `int` and `float` have read it, a float as `str` of
it; a variable that is not set is `none`. -/
structure BackendEnvironment where
  inferenceBackend : Option String := none
  modelName : Option String := none
  vllmBaseUrl : Option String := none
  vllmModelName : Option String := none
  vllmApiKey : Option String := none
  vllmFallbackApiKey : Option String := none
  vllmTimeoutSeconds : Option String := none
  vllmFallbackTimeoutSeconds : Option String := none
  vllmEnableSeedThinkingBudget : Option String := none
  transformersLoadIn8bit : Option String := none
  transformersDeviceMap : Option String := none
  transformersDefaultThinkingBudget : Option Int := none
  vllmFallbackBaseUrl : Option String := none
  vllmFallbackModelName : Option String := none

structure BackendConfig where
  inferenceBackend : String
  modelName : String
  vllmBaseUrl : String
  vllmModelName : String
  vllmApiKey : String
  vllmFallbackApiKey : String
  vllmTimeoutSeconds : String
  vllmFallbackTimeoutSeconds : String
  vllmEnableSeedThinkingBudget : Bool
  transformersLoadIn8bit : Bool
  transformersDeviceMap : String
  transformersDefaultThinkingBudget : Int
  vllmFallbackBaseUrl : String
  vllmFallbackModelName : String

/-- The constants of `app.config`. -/
def BackendEnvironment.config (env : BackendEnvironment) : BackendConfig :=
  let modelName := env.modelName.getD "Qwen/Qwen2.5-0.5B-Instruct"
  let vllmModelName := env.vllmModelName.getD modelName
  let vllmTimeoutSeconds := env.vllmTimeoutSeconds.getD "300.0"
  { inferenceBackend := env.inferenceBackend.getD "mock"
    modelName
    vllmBaseUrl := env.vllmBaseUrl.getD "http://127.0.0.1:8001/v1"
    vllmModelName
    vllmApiKey := env.vllmApiKey.getD ""
    vllmFallbackApiKey := env.vllmFallbackApiKey.getD ""
    vllmTimeoutSeconds
    vllmFallbackTimeoutSeconds := env.vllmFallbackTimeoutSeconds.getD vllmTimeoutSeconds
    vllmEnableSeedThinkingBudget := VLLMBackend.lower (env.vllmEnableSeedThinkingBudget.getD "false") = "true"
    transformersLoadIn8bit := VLLMBackend.lower (env.transformersLoadIn8bit.getD "false") = "true"
    transformersDeviceMap := env.transformersDeviceMap.getD "auto"
    transformersDefaultThinkingBudget := env.transformersDefaultThinkingBudget.getD 0
    vllmFallbackBaseUrl := rstrip '/' (env.vllmFallbackBaseUrl.getD "")
    vllmFallbackModelName := env.vllmFallbackModelName.getD vllmModelName }

structure TransformersBackend where
  modelName : String
  loadIn8bit : Bool
  deviceMap : String
  defaultThinkingBudget : Int

inductive Backend where
  | transformers (b : TransformersBackend)
  | vllm (b : VLLMBackend)
  | mock

/-- The server that the requests of a backend are sent to, if there is one. -/
def Backend.baseUrl : Backend → Option String
  | .vllm b => some b.baseUrl
  | _ => none

namespace BackendConfig
variable (c : BackendConfig)

/-- The text is that of a `ValueError`. -/
def buildBackend : Except String Backend :=
  if c.inferenceBackend = "transformers" then
    .ok (.transformers ⟨c.modelName, c.transformersLoadIn8bit, c.transformersDeviceMap,
      c.transformersDefaultThinkingBudget⟩)
  else if c.inferenceBackend = "vllm" then
    .ok (.vllm (.create c.vllmBaseUrl c.vllmModelName c.vllmTimeoutSeconds c.vllmEnableSeedThinkingBudget
      c.vllmApiKey))
  else if c.inferenceBackend = "mock" then .ok .mock
  else .error ("Unsupported INFERENCE_BACKEND: " ++ c.inferenceBackend)

def buildFallbackBackend : Except String (Option VLLMBackend) :=
  if c.inferenceBackend ≠ "vllm" ∨ c.vllmFallbackBaseUrl = "" then .ok none
  else if c.vllmFallbackBaseUrl = c.vllmBaseUrl then
    .error "VLLM_FALLBACK_BASE_URL must be different from VLLM_BASE_URL"
  else
    .ok (some (.create c.vllmFallbackBaseUrl c.vllmFallbackModelName c.vllmFallbackTimeoutSeconds
      c.vllmEnableSeedThinkingBudget c.vllmFallbackApiKey))

end BackendConfig

/-- No fallback is built that sends its requests where the primary does. -/
def FallbackDiffers (env : BackendEnvironment) : Prop :=
  ∀ fallback primary, env.config.buildFallbackBackend = .ok (some fallback) → env.config.buildBackend = .ok primary →
    primary.baseUrl ≠ some fallback.baseUrl

/-! ## Trailing slashes -/

theorem rstrip_idem (c : Char) (text : String) : rstrip c (rstrip c text) = rstrip c text := by
  unfold rstrip
  rw [String.toList_ofList]
  exact congrArg String.ofList (List.rdropWhile_idempotent _ _)

theorem rstrip_eq_self_iff {c : Char} {text : String} : rstrip c text = text ↔ text.toList.getLast? ≠ some c := by
  have hlist : rstrip c text = text ↔ text.toList.rdropWhile (· = c) = text.toList := by
    constructor
    · intro h
      have := congrArg String.toList h
      unfold rstrip at this
      rwa [String.toList_ofList] at this
    · intro h
      unfold rstrip
      exact (congrArg String.ofList h).trans String.ofList_toList
  rw [hlist, List.rdropWhile_eq_self_iff]
  constructor
  · intro h hlast
    have hne : text.toList ≠ [] := by
      intro hnil
      rw [hnil] at hlast
      cases hlast
    rw [List.getLast?_eq_some_getLast hne] at hlast
    exact h hne (decide_eq_true (Option.some.inj hlast))
  · intro h hne hlast
    apply h
    rw [List.getLast?_eq_some_getLast hne, of_decide_eq_true hlast]

theorem create_baseUrl (baseUrl modelName timeoutSeconds : String) (enable : Bool) (apiKey : String) :
    (VLLMBackend.create baseUrl modelName timeoutSeconds enable apiKey).baseUrl = rstrip '/' baseUrl := rfl

theorem fallbackBaseUrl_rstrip (env : BackendEnvironment) :
    rstrip '/' env.config.vllmFallbackBaseUrl = env.config.vllmFallbackBaseUrl := rstrip_idem _ _

/-! ## When the fallback differs -/

section
variable {c : BackendConfig}

theorem buildBackend_baseUrl (hc : c.inferenceBackend = "vllm") :
    ∃ primary, c.buildBackend = .ok primary ∧ primary.baseUrl = some (rstrip '/' c.vllmBaseUrl) := by
  simp [BackendConfig.buildBackend, hc, Backend.baseUrl, create_baseUrl]

theorem buildFallbackBackend_some {fallback : VLLMBackend} (h : c.buildFallbackBackend = .ok (some fallback)) :
    c.inferenceBackend = "vllm" ∧ c.vllmFallbackBaseUrl ≠ "" ∧ c.vllmFallbackBaseUrl ≠ c.vllmBaseUrl ∧
      fallback.baseUrl = rstrip '/' c.vllmFallbackBaseUrl := by
  unfold BackendConfig.buildFallbackBackend at h
  by_cases hnone : c.inferenceBackend ≠ "vllm" ∨ c.vllmFallbackBaseUrl = ""
  · rw [if_pos hnone] at h
    cases h
  · rw [if_neg hnone] at h
    rw [not_or, not_not] at hnone
    by_cases hsame : c.vllmFallbackBaseUrl = c.vllmBaseUrl
    · rw [if_pos hsame] at h
      cases h
    · rw [if_neg hsame] at h
      cases h
      exact ⟨hnone.1, hnone.2, hsame, rfl⟩

theorem buildFallbackBackend_of_ne (hc : c.inferenceBackend = "vllm") (hset : c.vllmFallbackBaseUrl ≠ "")
    (hne : c.vllmFallbackBaseUrl ≠ c.vllmBaseUrl) :
    ∃ fallback, c.buildFallbackBackend = .ok (some fallback) ∧ fallback.baseUrl = rstrip '/' c.vllmFallbackBaseUrl := by
  simp [BackendConfig.buildFallbackBackend, hc, hset, hne, create_baseUrl]

end

/-- The fallback differs unless the URL of the primary has a slash at its end
that the URL of the fallback has lost. -/
theorem fallbackDiffers_iff (env : BackendEnvironment) :
    FallbackDiffers env ↔
      ¬ (env.inferenceBackend.getD "mock" = "vllm" ∧
        (env.vllmBaseUrl.getD "http://127.0.0.1:8001/v1").toList.getLast? = some '/' ∧
        rstrip '/' (env.vllmFallbackBaseUrl.getD "") ≠ "" ∧
        rstrip '/' (env.vllmFallbackBaseUrl.getD "") = rstrip '/' (env.vllmBaseUrl.getD "http://127.0.0.1:8001/v1")) := by
  constructor
  · intro h hbad
    obtain ⟨hc, hslash, hset, hsame⟩ := hbad
    have hne : env.config.vllmFallbackBaseUrl ≠ env.config.vllmBaseUrl := by
      intro heq
      exact rstrip_eq_self_iff.mp (hsame.symm.trans heq) hslash
    obtain ⟨fallback, hfallback, hfallbackUrl⟩ := buildFallbackBackend_of_ne hc hset hne
    obtain ⟨primary, hprimary, hprimaryUrl⟩ := buildBackend_baseUrl (c := env.config) hc
    apply h fallback primary hfallback hprimary
    rw [hprimaryUrl, hfallbackUrl, fallbackBaseUrl_rstrip]
    exact congrArg some hsame.symm
  · intro h fallback primary hfallback hprimary hurl
    obtain ⟨hc, hset, hne, hfallbackUrl⟩ := buildFallbackBackend_some hfallback
    obtain ⟨p, hp, hprimaryUrl⟩ := buildBackend_baseUrl hc
    obtain rfl := Except.ok.inj (hprimary.symm.trans hp)
    rw [hprimaryUrl, hfallbackUrl, fallbackBaseUrl_rstrip] at hurl
    have hsame : env.config.vllmFallbackBaseUrl = rstrip '/' env.config.vllmBaseUrl := (Option.some.inj hurl).symm
    refine h ⟨hc, ?_, hset, hsame⟩
    by_contra hslash
    exact hne (hsame.trans (rstrip_eq_self_iff.mpr hslash))

theorem fallbackDiffers_fails :
    ¬ FallbackDiffers
      { inferenceBackend := some "vllm"
        vllmBaseUrl := some "http://127.0.0.1:8001/v1/"
        vllmFallbackBaseUrl := some "http://127.0.0.1:8001/v1" } := by
  intro h
  refine h _ _ rfl rfl ?_
  decide

end InferenceService
