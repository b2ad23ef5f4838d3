import InferenceService.Lib.Value

/-!
# The response schemas

Which dicts validate as a response model. `Pydantic` tells which values the
`str`, `int` and `float` fields of a model accept.
-/

namespace InferenceService

structure Pydantic where
  str : Python.Value → Bool
  int : Python.Value → Bool
  float : Python.Value → Bool

/-- A field accepts the values of its own type; a `str` must be Unicode text. -/
structure Pydantic.Strict (P : Pydantic) : Prop where
  str : ∀ text : String, P.str (.str (Python.str text)) = true
  int : ∀ n, P.int (.int n) = true
  float : ∀ x, P.float (.float x) = true

def optional (accepts : Python.Value → Bool) (value : Python.Value) : Bool := value.isNone || accepts value

/-- A field with the values that it accepts, and those of them that can be sent
as JSON: `JSONResponse` takes no infinite number and encodes its text. -/
structure SchemaField where
  name : String
  accepts : Python.Value → Bool
  sends : Python.Value → Bool
  required : Bool := true

def SchemaField.check (f : SchemaField) (d : Python.Dict) : Bool :=
  match d.get? (Python.str f.name) with
  | none => !f.required
  | some value => f.accepts value

theorem SchemaField.check_eq (f : SchemaField) (d : Python.Dict) :
    f.check d = ((d.get? (Python.str f.name)).map f.accepts).getD (!f.required) := by
  unfold SchemaField.check
  cases d.get? (Python.str f.name) <;> rfl

/-- Other keys are ignored. -/
def validates (fields : List SchemaField) (d : Python.Dict) : Bool := fields.all fun f => f.check d

/-- The fields of a validated dict make a JSON text. -/
def renders (fields : List SchemaField) (d : Python.Dict) : Bool :=
  fields.all fun f => ((d.get? (Python.str f.name)).map f.sends).getD true

def always (_ : Python.Value) : Bool := true

open Python.Value (encodes isFinite)

section
variable (P : Pydantic)

def generateResponse : List SchemaField := [
  ⟨"response", P.str, encodes, true⟩,
  ⟨"latency_seconds", P.float, isFinite, true⟩,
  ⟨"input_chars", P.int, always, true⟩,
  ⟨"max_new_tokens", P.int, always, true⟩,
  ⟨"thinking_budget", optional P.int, always, false⟩,
  ⟨"backend", P.str, encodes, true⟩,
  ⟨"input_tokens", optional P.int, always, false⟩,
  ⟨"output_tokens", optional P.int, always, false⟩,
  ⟨"tokens_per_second", optional P.float, isFinite, false⟩,
  ⟨"model_name", optional P.str, encodes, false⟩,
  ⟨"device", optional P.str, encodes, false⟩,
  ⟨"total_tokens", optional P.int, always, false⟩,
  ⟨"request_id", optional P.str, encodes, false⟩,
  ⟨"route", optional P.str, encodes, false⟩,
  ⟨"primary_attempts", optional P.int, always, false⟩,
  ⟨"fallback_thinking_budget", optional P.int, always, false⟩]

def jobStatusTexts : List String := ["queued", "running", "succeeded", "failed"]

def acceptsStatus : Python.Value → Bool
  | .str text => jobStatusTexts.any fun status => text = Python.str status
  | _ => false

def acceptsResult : Python.Value → Bool
  | .dict items => validates (generateResponse P) items
  | _ => false

def sendsResult : Python.Value → Bool
  | .dict items => renders (generateResponse P) items
  | _ => true

def jobStatusResponse : List SchemaField := [
  ⟨"job_id", P.str, encodes, true⟩,
  ⟨"status", acceptsStatus, encodes, true⟩,
  ⟨"created_at_ms", P.int, always, true⟩,
  ⟨"updated_at_ms", P.int, always, true⟩,
  ⟨"attempt_count", P.int, always, false⟩,
  ⟨"worker", optional P.str, encodes, false⟩,
  ⟨"result", optional (acceptsResult P), sendsResult P, false⟩,
  ⟨"error_type", optional P.str, encodes, false⟩,
  ⟨"error_message", optional P.str, encodes, false⟩]

end

end InferenceService
