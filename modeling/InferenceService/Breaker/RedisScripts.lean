import InferenceService.Breaker.Types
import InferenceService.Lib.Double
import InferenceService.Lib.Key
import Mathlib.Tactic.Linarith

/-!
# The scripts of the Redis circuit breaker

`_ALLOW_PRIMARY_LUA`, `_RECORD_SUCCESS_LUA`, `_RECORD_FAILURE_LUA` and
`_SNAPSHOT_LUA` as functions on the circuit hash and the probe key, and the
methods that send them. A script's numbers are exact here, as Lua's are
below `10^14`.
-/

namespace InferenceService

/-- `{prefix}:circuit`; `none` is a field the hash does not have. -/
structure CircuitHash where
  state : Option String := none
  version : Option Nat := none
  consecutiveFailures : Option Nat := none
  openedAtMs : Option Nat := none
deriving DecidableEq, Repr

namespace CircuitHash

def hgetState (h : CircuitHash) : String := h.state.getD "closed"
def hgetVersion (h : CircuitHash) : Nat := h.version.getD 0
def hgetConsecutiveFailures (h : CircuitHash) : Nat := h.consecutiveFailures.getD 0
def hgetOpenedAtMs (h : CircuitHash) : Nat := h.openedAtMs.getD 0

def hincrbyVersion (h : CircuitHash) : CircuitHash := { h with version := some (h.hgetVersion + 1) }

end CircuitHash

structure BreakerStore where
  circuit : CircuitHash
  probe : Redis.Key String
deriving DecidableEq, Repr

structure RedisBreakerConfig where
  failureThreshold : Nat
  recoveryTimeoutMs : Nat
  probeLeaseMs : Nat
  failureThreshold_pos : 0 < failureThreshold
  recoveryTimeoutMs_pos : 0 < recoveryTimeoutMs
  probeLeaseMs_pos : 0 < probeLeaseMs

def RedisBreakerConfig.init (failureThreshold : Int) (recoveryTimeoutSeconds : Double) (keyPrefix : String)
    (socketTimeoutSeconds : ℚ) (probeLeaseMs : Int) : Except String RedisBreakerConfig :=
  if hf : failureThreshold < 1 then .error "failure_threshold must be at least 1"
  else if recoveryTimeoutSeconds ≤ 0 then .error "recovery_timeout_seconds must be positive"
  else if socketTimeoutSeconds ≤ 0 then .error "socket_timeout_seconds must be positive"
  else if hp : probeLeaseMs ≤ 0 then .error "probe_lease_ms must be positive"
  else if keyPrefix = "" then .error "key_prefix must not be empty"
  else .ok {
    failureThreshold := failureThreshold.toNat
    recoveryTimeoutMs := (max 1 (Python.round (recoveryTimeoutSeconds * .ofRat 1000).value)).toNat
    probeLeaseMs := probeLeaseMs.toNat
    failureThreshold_pos := by omega
    recoveryTimeoutMs_pos := by omega
    probeLeaseMs_pos := by omega }

/-- `now_ms` of a script that starts at `us` microseconds: `TIME` returns the
seconds and the microseconds of the current second. -/
def nowMs (us : Nat) : Nat := us / 1000000 * 1000 + us % 1000000 / 1000

theorem nowMs_eq (us : Nat) : nowMs us = us / 1000 := by
  unfold nowMs; omega

theorem nowMs_mono {us us' : Nat} (h : us ≤ us') : nowMs us ≤ nowMs us' := by
  rw [nowMs_eq, nowMs_eq]; exact Nat.div_le_div_right h

inductive Decision where
  | allow
  | block
deriving DecidableEq, Repr

/-- The return statement of `_ALLOW_PRIMARY_LUA` that answered. -/
inductive AllowBranch where
  | closed
  | openWindow
  | acquired
  | probeHeld
  | probeWithoutTtl
  | fallThrough
deriving DecidableEq, Repr

structure AllowReply where
  decision : Decision
  state : String
  remainingMs : Int
  version : Nat
  probeToken : String
  branch : AllowBranch
deriving DecidableEq, Repr

section
variable (C : RedisBreakerConfig) (us : Nat)

/-- `_ALLOW_PRIMARY_LUA`. -/
def allowPrimaryLua (probeToken : String) (st : BreakerStore) : AllowReply × BreakerStore :=
  let state := st.circuit.hgetState
  let version := st.circuit.hgetVersion
  if state = "closed" then
    (⟨.allow, "closed", 0, version, "", .closed⟩, st)
  else
    let remainingMs : Int := C.recoveryTimeoutMs - ((nowMs us : Int) - st.circuit.hgetOpenedAtMs)
    if state = "open" ∧ 0 < remainingMs then
      (⟨.block, "open", remainingMs, version, "", .openWindow⟩, st)
    else if state = "open" ∨ state = "half_open" then
      let set := st.probe.setNxPx probeToken C.probeLeaseMs (nowMs us)
      if set.1 then
        let circuit := { st.circuit.hincrbyVersion with
          state := some "half_open", consecutiveFailures := some 0, openedAtMs := some 0 }
        (⟨.allow, "half_open", 0, circuit.hgetVersion, probeToken, .acquired⟩, ⟨circuit, set.2⟩)
      else
        let pttl := st.probe.pttl (nowMs us)
        if pttl < 0 then
          (⟨.block, "half_open", C.probeLeaseMs, version, "", .probeWithoutTtl⟩, st)
        else
          (⟨.block, "half_open", pttl, version, "", .probeHeld⟩, st)
    else
      (⟨.block, "open", C.recoveryTimeoutMs, version, "", .fallThrough⟩, st)

inductive RecordResult where
  | stale
  | transition
  | noTransition
deriving DecidableEq, Repr

structure RecordReply where
  result : RecordResult
  fromState : String
  toState : String
deriving DecidableEq, Repr

/-- `_RECORD_SUCCESS_LUA`. -/
def recordSuccessLua (permitState : String) (permitVersion : Nat) (probeToken : String)
    (st : BreakerStore) : RecordReply × BreakerStore :=
  let state := st.circuit.hgetState
  let version := st.circuit.hgetVersion
  if state ≠ permitState ∨ version ≠ permitVersion then
    (⟨.stale, state, state⟩, st)
  else if permitState = "half_open" then
    if st.probe.get (nowMs us) ≠ some probeToken then
      (⟨.stale, state, state⟩, st)
    else
      let circuit := { st.circuit with
        state := some "closed", consecutiveFailures := some 0, openedAtMs := some 0 }
      (⟨.transition, "half_open", "closed"⟩, ⟨circuit.hincrbyVersion, none⟩)
  else if permitState = "closed" then
    let circuit := { st.circuit with
      state := some "closed", consecutiveFailures := some 0, openedAtMs := some 0 }
    (⟨.noTransition, "closed", "closed"⟩, { st with circuit })
  else
    (⟨.stale, state, state⟩, st)

/-- `_RECORD_FAILURE_LUA`. -/
def recordFailureLua (permitState : String) (permitVersion : Nat) (probeToken : String)
    (st : BreakerStore) : RecordReply × BreakerStore :=
  let state := st.circuit.hgetState
  let version := st.circuit.hgetVersion
  if state ≠ permitState ∨ version ≠ permitVersion then
    (⟨.stale, state, state⟩, st)
  else if permitState = "half_open" then
    if st.probe.get (nowMs us) ≠ some probeToken then
      (⟨.stale, state, state⟩, st)
    else
      let circuit := { st.circuit with
        state := some "open", consecutiveFailures := some C.failureThreshold,
        openedAtMs := some (nowMs us) }
      (⟨.transition, "half_open", "open"⟩, ⟨circuit.hincrbyVersion, none⟩)
  else if permitState = "closed" then
    let failures := st.circuit.hgetConsecutiveFailures + 1
    let counted := { st.circuit with consecutiveFailures := some failures }
    if C.failureThreshold ≤ failures then
      let circuit := { counted with state := some "open", openedAtMs := some (nowMs us) }
      (⟨.transition, "closed", "open"⟩, { st with circuit := circuit.hincrbyVersion })
    else
      let circuit := { counted with state := some "closed", openedAtMs := some 0 }
      (⟨.noTransition, "closed", "closed"⟩, { st with circuit })
  else
    (⟨.stale, state, state⟩, st)

structure SnapshotReply where
  state : String
  failures : Nat
  remainingMs : Int
deriving DecidableEq, Repr

/-- `_SNAPSHOT_LUA`. -/
def snapshotLua (st : BreakerStore) : SnapshotReply :=
  let state := st.circuit.hgetState
  let remainingMs : Int :=
    if state = "open" then
      let remainingMs : Int := C.recoveryTimeoutMs - ((nowMs us : Int) - st.circuit.hgetOpenedAtMs)
      if remainingMs < 0 then 0 else remainingMs
    else 0
  ⟨state, st.circuit.hgetConsecutiveFailures, remainingMs⟩

end

/-! ## The methods around the scripts -/

inductive AllowError where
  | circuitOpen (e : CircuitOpenError)
  | valueError
deriving DecidableEq, Repr

/-- `allow_primary_call` after Redis answered; the hint is kept as the exact
seconds of its milliseconds. -/
def permitFromReply (r : AllowReply) : Except AllowError CircuitPermit :=
  if r.decision ≠ .allow then
    .error (.circuitOpen (.init ((r.remainingMs : ℚ) / 1000)))
  else
    match CircuitState.ofValue r.state with
    | some state => .ok {
        state, version := some r.version,
        probeToken := if r.probeToken = "" then none else some r.probeToken,
        store := .redis }
    | none => .error .valueError

/-- `_transition_from_response`; an unknown state is a `ValueError`. -/
def transitionFromResponse (r : RecordReply) : Except Unit (Option CircuitTransition) :=
  if r.result ≠ .transition then .ok none
  else
    match CircuitState.ofValue r.fromState, CircuitState.ofValue r.toState with
    | some fromState, some toState => .ok (some ⟨fromState, toState⟩)
    | _, _ => .error ()

/-- `float(remaining_ms) / 1000`. -/
def remainingSeconds (remainingMs : Int) : Double := .ofRat remainingMs / .ofRat 1000

theorem remainingSeconds_zero : remainingSeconds (0 : Nat) = 0 := by
  apply Double.value_injective
  simp [remainingSeconds, Double.value_div, Double.nearest_zero]

/-- `retry_after_seconds` of a snapshot that Redis answered. -/
def SnapshotReply.retryAfterSeconds (r : SnapshotReply) : ℚ := (remainingSeconds r.remainingMs).round6.value

def recordSuccessCall (us : Nat) (permit : CircuitPermit) (st : BreakerStore) : RecordReply × BreakerStore :=
  recordSuccessLua us permit.state.value (permit.version.getD 0) (permit.probeToken.getD "") st

def recordFailureCall (C : RedisBreakerConfig) (us : Nat) (permit : CircuitPermit) (st : BreakerStore) :
    RecordReply × BreakerStore :=
  recordFailureLua C us permit.state.value (permit.version.getD 0) (permit.probeToken.getD "") st

/-! ## A small instance -/

def quickTrip : RedisBreakerConfig := ⟨1, 1000, 500, Nat.one_pos, by decide, by decide⟩

end InferenceService
