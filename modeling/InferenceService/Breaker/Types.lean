import Mathlib.Algebra.Order.Ring.Unbundled.Rat

/-!
# Circuit states, permits and transitions

The values that the two breakers and the resilience controller exchange.
-/

namespace InferenceService

inductive CircuitState where
  | closed
  | «open»
  | halfOpen
deriving DecidableEq, Repr

namespace CircuitState

def value : CircuitState → String
  | closed => "closed"
  | .open => "open"
  | halfOpen => "half_open"

/-- `CircuitState(value)`; `none` is Python's `ValueError`. -/
def ofValue (s : String) : Option CircuitState :=
  if s = "closed" then some closed
  else if s = "open" then some .open
  else if s = "half_open" then some halfOpen
  else none

@[simp] theorem ofValue_value (c : CircuitState) : ofValue c.value = some c := by
  cases c <;> rfl

theorem value_inj {c d : CircuitState} : c.value = d.value ↔ c = d := by
  cases c <;> cases d <;> decide

end CircuitState

structure CircuitTransition where
  fromState : CircuitState
  toState : CircuitState
deriving DecidableEq, Repr

inductive PermitStore where
  | localStore
  | redis
  | localFallback
deriving DecidableEq, Repr

structure CircuitPermit where
  state : CircuitState
  version : Option Nat := none
  probeToken : Option String := none
  store : PermitStore := .localStore
deriving DecidableEq, Repr

/-- `CircuitOpenError`, which clamps the hint it is given. -/
structure CircuitOpenError where
  retryAfterSeconds : ℚ
deriving DecidableEq, Repr

def CircuitOpenError.init (retryAfterSeconds : ℚ) : CircuitOpenError := ⟨max 0 retryAfterSeconds⟩

end InferenceService
