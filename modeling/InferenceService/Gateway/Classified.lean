import InferenceService.Gateway.Vllm

/-!
# How `VLLMBackend.generate` ends

An end is classified when it is a response that the API can return, or an error
that the policy of retries and fallback knows. The responses of the server are
followed through `readCompletion`; `Handled` says which exchanges come out
classified.
-/

namespace InferenceService

section
variable {P : Pydantic} (hP : P.Strict)
include hP

/-! ## The schema of the result -/

theorem optional_ofInt? (n : Option Int) : optional P.int (.ofInt? n) = true := by
  cases n with
  | none => rfl
  | some n => exact hP.int n

theorem optional_int (n : Int) : optional P.int (.int n) = true := hP.int n

theorem optional_str (text : String) : optional P.str (.str (Python.str text)) = true := hP.str text

theorem optional_float (x : Option Python.Float) (digits : Nat) :
    optional P.float ((x.map fun x => .float (.round digits x)).getD .none) = true := by
  cases x with
  | none => rfl
  | some x => exact hP.float (.round digits x)

/-- What the server decides of a result; the rest always validates. -/
def VLLMBackend.Completion.Accepted (P : Pydantic) (c : VLLMBackend.Completion) : Prop :=
  P.str c.response = true ∧ optional P.int c.inputTokens = true ∧ optional P.int c.outputTokens = true ∧
    optional P.int c.totalTokens = true

theorem result_validates (b : VLLMBackend) (call : VLLMCall) (latencySeconds : ℚ) (c : VLLMBackend.Completion) :
    validates (generateResponse P) (b.result call latencySeconds c) = true ↔ c.Accepted P := by
  simp only [validates, generateResponse, SchemaField.check_eq, VLLMBackend.result, Python.Dict.get?_cons,
    Python.Dict.get?_nil, Python.str_inj, String.reduceEq, if_true, if_false, Option.map_some, Option.map_none,
    Option.getD_some, Option.getD_none, List.all_cons, List.all_nil, hP.float, hP.int, hP.str, optional_ofInt? hP,
    optional_str hP, optional_float hP, Bool.true_and, Bool.and_true, Bool.not_false, Bool.and_eq_true,
    VLLMBackend.Completion.Accepted]

end

/-! ## What is read of a response -/

/-- `items.get(name, default)` of a dict. -/
def field (items : Python.Dict) (name : String) (default : Python.Value) : Python.Value :=
  (items.get? (Python.str name)).getD default

theorem get_eq_ok {value : Python.Value} {name : String} {default x : Python.Value} :
    value.get (Python.str name) default = .ok x ↔ ∃ items, value = .dict items ∧ field items name default = x := by
  cases value with
  | dict items => simp [Python.Value.get, field]
  | _ => simp [Python.Value.get]

theorem first_dict {value : Python.Value} {choice : Python.Dict} :
    value.first = .ok (.dict choice) ↔ ∃ choices, value = .list (.dict choice :: choices) := by
  cases value with
  | list items =>
    cases items with
    | nil => exact ⟨nofun, fun ⟨_, h⟩ => nomatch h⟩
    | cons item items => simp [Python.Value.first]
  | str text => cases text <;> simp [Python.Value.first]
  | _ => exact ⟨nofun, fun ⟨_, h⟩ => nomatch h⟩

/-- `value / latency_seconds` is a float. -/
def Dividable : Python.Value → Prop
  | .int n => |(n : ℚ)| < Python.floatBound
  | .bool _ => True
  | .float _ => True
  | _ => False

theorem trueDiv_ok_iff (value : Python.Value) (divisor : ℚ) :
    (∃ x, value.trueDiv divisor = .ok x) ↔ Dividable value := by
  cases value with
  | int n =>
    unfold Python.Value.trueDiv Dividable
    by_cases h : |(n : ℚ)| < Python.floatBound <;> simp [h]
  | bool b => exact ⟨fun _ => trivial, fun _ => ⟨_, rfl⟩⟩
  | float x => cases x <;> exact ⟨fun _ => trivial, fun _ => ⟨_, rfl⟩⟩
  | _ => simp [Python.Value.trueDiv, Dividable]

/-- The throughput is computed of a number, or not at all. -/
def Measurable (latencySeconds : ℚ) (outputTokens : Python.Value) : Prop :=
  outputTokens.isNone = true ∨ latencySeconds ≤ 0 ∨ Dividable outputTokens

theorem tokensPerSecond_ok_iff {latencySeconds : ℚ} {outputTokens : Python.Value} :
    (∃ x, VLLMBackend.tokensPerSecond latencySeconds outputTokens = .ok x) ↔
      Measurable latencySeconds outputTokens := by
  unfold VLLMBackend.tokensPerSecond Measurable
  split_ifs with h
  · rw [h.1, ← trueDiv_ok_iff outputTokens latencySeconds]
    simp only [Bool.false_eq_true, not_le.mpr h.2, false_or]
    cases outputTokens.trueDiv latencySeconds <;> simp [Except.map]
  · refine ⟨fun _ => ?_, fun _ => ⟨none, rfl⟩⟩
    by_cases hnone : outputTokens.isNone = true
    · exact .inl hnone
    · exact .inr (.inl (not_lt.mp fun hlt => h ⟨Bool.not_eq_true _ ▸ hnone, hlt⟩))

/-- What a result takes of a response is of the types of its fields. -/
structure ResponseFits (P : Pydantic) (message usage : Python.Dict) : Prop where
  response : P.str (field message "content" (.str [])) = true
  inputTokens : optional P.int (field usage "prompt_tokens" .none) = true
  outputTokens : optional P.int (field usage "completion_tokens" .none) = true
  totalTokens : optional P.int (field usage "total_tokens" .none) = true

/-- A response of which only the first choice counts. -/
structure Completes (items choice : Python.Dict) (choices : List Python.Value) (message usage : Python.Dict) : Prop where
  choices : field items "choices" (.list []) = .list (.dict choice :: choices)
  message : field choice "message" (.dict []) = .dict message
  usage : field items "usage" (.dict []) = .dict usage

open VLLMBackend in
theorem readCompletion_none {latencySeconds : ℚ} {data : Python.Value} :
    readCompletion latencySeconds data = .ok none ↔
      ∃ items, data = .dict items ∧ (field items "choices" (.list [])).truthy = false := by
  simp only [readCompletion, Python.bind_eq_ok, get_eq_ok]
  constructor
  · rintro ⟨choices, ⟨items, rfl, rfl⟩, h⟩
    refine ⟨items, rfl, ?_⟩
    by_contra htruthy
    rw [if_neg htruthy] at h
    simp only [Python.bind_eq_ok] at h
    obtain ⟨_, _, _, _, _, _, _, _, _, _, _, _, _, _, _, _, h⟩ := h
    cases h
  · rintro ⟨items, rfl, h⟩
    exact ⟨_, ⟨items, rfl, rfl⟩, by rw [if_pos h]⟩

open VLLMBackend in
theorem readCompletion_some {latencySeconds : ℚ} {data : Python.Value} {c : Completion} :
    readCompletion latencySeconds data = .ok (some c) ↔
      ∃ items choice choices message usage, data = .dict items ∧ Completes items choice choices message usage ∧
        c.response = field message "content" (.str []) ∧ c.inputTokens = field usage "prompt_tokens" .none ∧
        c.outputTokens = field usage "completion_tokens" .none ∧ c.totalTokens = field usage "total_tokens" .none ∧
        tokensPerSecond latencySeconds c.outputTokens = .ok c.tokensPerSecond := by
  simp only [readCompletion, Python.bind_eq_ok, get_eq_ok]
  constructor
  · rintro ⟨_, ⟨items, rfl, rfl⟩, h⟩
    split_ifs at h with htruthy
    · cases h
    · simp only [Python.bind_eq_ok, get_eq_ok] at h
      obtain ⟨_, hfirst, _, ⟨choice, rfl, rfl⟩, _, ⟨message, hmessage, rfl⟩, _, ⟨_, hitems, rfl⟩, _,
        ⟨usage, husage, rfl⟩, _, ⟨_, husage', rfl⟩, _, ⟨_, husage'', rfl⟩, x, hx, h⟩ := h
      obtain ⟨choices, hchoices⟩ := first_dict.mp hfirst
      cases hitems
      rw [husage] at husage' husage''
      cases husage'
      cases husage''
      cases h
      exact ⟨_, choice, choices, message, usage, rfl, ⟨hchoices, hmessage, husage⟩, rfl, rfl, rfl, rfl, hx⟩
  · rintro ⟨items, choice, choices, message, usage, rfl, h, hresponse, hinput, houtput, htotal, hrate⟩
    refine ⟨_, ⟨items, rfl, rfl⟩, ?_⟩
    rw [if_neg (by simp [h.choices, Python.Value.truthy])]
    simp only [Python.bind_eq_ok, get_eq_ok]
    refine ⟨_, first_dict.mpr ⟨choices, h.choices⟩, _, ⟨choice, rfl, rfl⟩, _, ⟨message, h.message, rfl⟩, _,
      ⟨items, rfl, rfl⟩, _, ⟨usage, h.usage, rfl⟩, _, ⟨usage, h.usage, rfl⟩, _, ⟨usage, h.usage, rfl⟩, c.tokensPerSecond,
      houtput ▸ hrate, ?_⟩
    rw [← hresponse, ← hinput, ← houtput, ← htotal]

/-! ## Classified ends -/

/-- The JSON values that end in a result or in the error of an empty response. -/
def Readable (P : Pydantic) (latencySeconds : ℚ) (data : Python.Value) : Prop :=
  ∃ items, data = .dict items ∧
    ((field items "choices" (.list [])).truthy = false ∨
      ∃ choice choices message usage, Completes items choice choices message usage ∧
        ResponseFits P message usage ∧ Measurable latencySeconds (field usage "completion_tokens" .none))

theorem readable_iff {P : Pydantic} {latencySeconds : ℚ} {data : Python.Value} : Readable P latencySeconds data ↔
    VLLMBackend.readCompletion latencySeconds data = .ok none ∨
      ∃ c, VLLMBackend.readCompletion latencySeconds data = .ok (some c) ∧ c.Accepted P := by
  simp only [readCompletion_none, readCompletion_some]
  constructor
  · rintro ⟨items, rfl, h | ⟨choice, choices, message, usage, h, hfits, hrate⟩⟩
    · exact .inl ⟨items, rfl, h⟩
    · obtain ⟨x, hx⟩ := tokensPerSecond_ok_iff.mpr hrate
      exact .inr ⟨⟨_, _, _, _, x⟩, ⟨items, choice, choices, message, usage, rfl, h, rfl, rfl, rfl, rfl, hx⟩,
        hfits.response, hfits.inputTokens, hfits.outputTokens, hfits.totalTokens⟩
  · rintro (⟨items, rfl, h⟩ | ⟨c, ⟨items, choice, choices, message, usage, rfl, h, hresponse, hinput, houtput, htotal,
      hrate⟩, haccepted⟩)
    · exact ⟨items, rfl, .inl h⟩
    · obtain ⟨response, inputTokens, outputTokens, totalTokens, rate⟩ := c
      subst hresponse hinput houtput htotal
      obtain ⟨hresponse, hinput, houtput, htotal⟩ := haccepted
      exact ⟨items, rfl, .inr ⟨choice, choices, message, usage, h, ⟨hresponse, hinput, houtput, htotal⟩,
        tokensPerSecond_ok_iff.mp ⟨rate, hrate⟩⟩⟩

def TransportError.IsOSError : TransportError → Prop
  | .timeoutError => True
  | .osError _ => True
  | .httpException _ => False

namespace Exchange

/-- A timeout or a failure of the connection. -/
def TransportFails : Exchange → Prop
  | urlError _ => True
  | noStatus _ => True
  | badRedirect _ => False
  | response _ body => ∃ error, body = .error error

/-- Past the connection, only a timeout is caught; the body of an error status
may be lost where the status alone says that the server is unavailable. -/
def Handled (P : Pydantic) (codec : BodyCodec) (latencySeconds : ℚ) : Exchange → Prop
  | urlError _ => True
  | noStatus error => error = .timeoutError
  | badRedirect _ => False
  | response status (.error error) =>
    if 200 ≤ status ∧ status < 300 then error = .timeoutError
    else status ∈ [502, 503, 504] ∧ error.IsOSError
  | response status (.ok bytes) => 200 ≤ status ∧ status < 300 → ∃ rawBody, codec.decode bytes = some rawBody ∧
      (codec.loads rawBody = .error .jsonDecodeError ∨
        ∃ data, codec.loads rawBody = .ok data ∧ Readable P latencySeconds data)

end Exchange

def EndsClassified (P : Pydantic) : Except GenerateRaised Python.Dict → Prop
  | .ok result => validates (generateResponse P) result = true
  | .error (.backend _) => True
  | .error (.other _) => False

/-- A call is classified: it ends in a valid result or a backend's error, and a
failed transport in an error that is retried and may fall back. -/
structure Classified (P : Pydantic) (x : Exchange) (result : Except GenerateRaised Python.Dict) : Prop where
  ends : EndsClassified P result
  transport : x.TransportFails → ∃ error : BackendError, result = .error (.backend error) ∧
    (error.kind = .timeout ∨ error.kind = .unavailable) ∧ error.isRetrySafe = true ∧ error.isFallbackSafe = true

theorem Classified.of_transport {P : Pydantic} (x : Exchange) (error : BackendError)
    (h : error.kind = .timeout ∨ error.kind = .unavailable) : Classified P x (.error (.backend error)) := by
  refine ⟨trivial, fun _ => ⟨error, rfl, h, ?_, ?_⟩⟩
  · rcases h with h | h <;> simp [BackendError.isRetrySafe, h]
  · rcases h with h | h <;> simp [BackendError.isFallbackSafe, h]

theorem not_classified_other {P : Pydantic} {x : Exchange} {typeName : String} :
    ¬ Classified P x (.error (.other typeName)) := fun h => h.ends

section
variable {P : Pydantic} (b : VLLMBackend) (codec : BodyCodec) (call : VLLMCall)
  (exchange : HttpRequest → Exchange) (latencySeconds : ℚ)

theorem receive_error_body (status : Nat) (error : TransportError) (hs : ¬ (200 ≤ status ∧ status < 300)) :
    b.receive codec (.response status (.error error)) =
      match error with
      | .httpException typeName => .error (.other typeName)
      | _ => .error (.backend (VLLMBackend.httpError status "")) := by
  unfold VLLMBackend.receive
  simp only [if_neg hs]
  cases error <;> rfl

theorem httpError_empty_kind (status : Nat) :
    (VLLMBackend.httpError status "").kind = if status ∈ [502, 503, 504] then .unavailable else .upstreamProtocol := by
  have hmarkers : VLLMBackend.resourceExhaustionMarkers.any
      (Python.contains (VLLMBackend.lower "")) = false := by decide
  unfold VLLMBackend.httpError
  rw [hmarkers, if_neg (fun h => Bool.false_ne_true h.2)]
  split_ifs <;> rfl

theorem generate_received (hP : P.Strict) {data : Python.Value}
    (h : b.receive codec (exchange (b.request call)) = .ok data) :
    EndsClassified P (b.generate codec call exchange latencySeconds) ↔ Readable P latencySeconds data := by
  rw [readable_iff]
  unfold VLLMBackend.generate
  simp only [h]
  cases VLLMBackend.readCompletion latencySeconds data with
  | error typeName => exact ⟨False.elim, fun h => by rcases h with h | ⟨_, h, _⟩ <;> cases h⟩
  | ok c =>
    cases c with
    | none => exact ⟨fun _ => .inl rfl, fun _ => trivial⟩
    | some c =>
      constructor
      · intro hv
        exact .inr ⟨c, rfl, (result_validates hP b call latencySeconds c).mp hv⟩
      · rintro (h | ⟨c', h, hc⟩)
        · cases h
        · cases h
          exact (result_validates hP b call latencySeconds c).mpr hc

theorem generate_raised (raised : GenerateRaised) (h : b.receive codec (exchange (b.request call)) = .error raised) :
    b.generate codec call exchange latencySeconds = .error raised := by
  unfold VLLMBackend.generate
  rw [h]

theorem unwrapped_classified_iff (x : Exchange) (error : TransportError) :
    Classified P x (.error (b.unwrapped error)) ↔ error = .timeoutError := by
  cases error with
  | timeoutError => exact ⟨fun _ => rfl, fun _ => .of_transport x b.timeout (.inl rfl)⟩
  | _ => exact ⟨fun h => h.ends.elim, nofun⟩

theorem body_lost_classified_iff (x : Exchange) (hx : x.TransportFails) (status : Nat) :
    Classified P x (.error (.backend (VLLMBackend.httpError status ""))) ↔ status ∈ [502, 503, 504] := by
  have hkind := httpError_empty_kind status
  by_cases hs : status ∈ [502, 503, 504]
  · rw [if_pos hs] at hkind
    exact ⟨fun _ => hs, fun _ => .of_transport x _ (.inr hkind)⟩
  · rw [if_neg hs] at hkind
    refine ⟨fun h => ?_, fun h => absurd h hs⟩
    obtain ⟨error, heq, h, _⟩ := h.transport hx
    cases heq
    rw [hkind] at h
    rcases h with h | h <;> cases h

theorem status_body_lost_classified_iff (x : Exchange) (hx : x.TransportFails) {status : Nat}
    (hs : ¬ (200 ≤ status ∧ status < 300)) (error : TransportError) (result : Except GenerateRaised Python.Dict)
    (h : ∀ raised, b.receive codec (.response status (.error error)) = .error raised → result = .error raised) :
    Classified P x result ↔ status ∈ [502, 503, 504] ∧ error.IsOSError := by
  cases error with
  | httpException typeName =>
    rw [h _ (receive_error_body b codec status _ hs)]
    exact ⟨fun h => h.ends.elim, fun h => h.2.elim⟩
  | timeoutError =>
    rw [h _ (receive_error_body b codec status _ hs), body_lost_classified_iff x hx]
    exact (and_iff_left trivial).symm
  | osError typeName =>
    rw [h _ (receive_error_body b codec status _ hs), body_lost_classified_iff x hx]
    exact (and_iff_left trivial).symm

theorem not_transportFails (status : Nat) (bytes : List UInt8) :
    ¬ (Exchange.response status (.ok bytes)).TransportFails := fun ⟨_, h⟩ => nomatch h

theorem classified_answered_iff (status : Nat) (bytes : List UInt8) (result : Except GenerateRaised Python.Dict) :
    Classified P (.response status (.ok bytes)) result ↔ EndsClassified P result :=
  ⟨fun h => h.ends, fun h => ⟨h, fun hx => absurd hx (not_transportFails status bytes)⟩⟩

theorem success_classified_iff (hP : P.Strict) {status : Nat} (hs : 200 ≤ status ∧ status < 300) (bytes : List UInt8)
    (hx : exchange (b.request call) = .response status (.ok bytes)) :
    EndsClassified P (b.generate codec call exchange latencySeconds) ↔
      ∃ rawBody, codec.decode bytes = some rawBody ∧ (codec.loads rawBody = .error .jsonDecodeError ∨
        ∃ data, codec.loads rawBody = .ok data ∧ Readable P latencySeconds data) := by
  have hraised := generate_raised b codec call exchange latencySeconds
  rw [hx] at hraised
  simp only [VLLMBackend.receive, if_pos hs] at hraised
  cases hdecode : codec.decode bytes with
  | none =>
    rw [hraised (.other "UnicodeDecodeError") (by simp only [hdecode])]
    exact ⟨False.elim, fun ⟨_, h, _⟩ => nomatch h⟩
  | some rawBody =>
    simp only [Option.some.injEq, exists_eq_left']
    cases hloads : codec.loads rawBody with
    | ok data =>
      have hreceive : b.receive codec (exchange (b.request call)) = .ok data := by
        rw [hx]
        simp only [VLLMBackend.receive, if_pos hs, hdecode, hloads]
      rw [generate_received b codec call exchange latencySeconds hP hreceive]
      simp
    | error e =>
      cases e with
      | jsonDecodeError =>
        rw [hraised (.backend ⟨.upstreamProtocol, "vLLM returned invalid JSON"⟩) (by simp only [hdecode, hloads])]
        exact ⟨fun _ => .inl rfl, fun _ => trivial⟩
      | other typeName =>
        rw [hraised (.other typeName) (by simp only [hdecode, hloads])]
        exact ⟨False.elim, fun h => by rcases h with h | ⟨_, h, _⟩ <;> cases h⟩

end

/-! ## One completion, and one connection closed without an answer -/

/-- The values of a field's own type, and the numbers that are read as it. -/
def plainPydantic : Pydantic where
  str
    | .str text => !text.any Python.isSurrogate
    | _ => false
  int
    | .int _ => true
    | .bool _ => true
    | .float (.finite q) => q.isInt
    | _ => false
  float
    | .int _ => true
    | .bool _ => true
    | .float _ => true
    | _ => false

theorem plainPydantic_strict : plainPydantic.Strict where
  str text := by simp only [plainPydantic, Python.any_isSurrogate_str, Bool.not_false]
  int _ := rfl
  float _ := rfl

/-- A chat completion with one choice, by its content and the JSON text of it. -/
def chatBody (contentJson : String) : String :=
  "\x7b\"choices\": [\x7b\"message\": \x7b\"content\": " ++ contentJson ++ "\x7d\x7d]\x7d"

def chatData (content : Python.Value) : Python.Value :=
  .dict [(Python.str "choices", .list [.dict [(Python.str "message", .dict [(Python.str "content", content)])]])]

def chatCodec (content : Python.Value) (contentJson : String) : BodyCodec where
  decode bytes := some (bytes.map fun byte => Python.codePoint byte.toNat)
  decodeReplace bytes := String.ofList (bytes.map fun byte => Char.ofNat byte.toNat)
  loads text := if text = Python.str (chatBody contentJson) then .ok (chatData content) else .error .jsonDecodeError

def chatExchange (contentJson : String) : Exchange :=
  .response 200 (.ok ((chatBody contentJson).toList.map fun c => UInt8.ofNat c.toNat))

def hello : Python.Value := .str (Python.str "hello")

def localVllm : VLLMBackend := .create "http://localhost:8000/v1/" "Qwen3-8B"

end InferenceService
