import InferenceService.Breaker.Types
import InferenceService.Lib.Double

/-!
# The process-local circuit breaker

`CircuitBreaker`: each method runs under the lock, so it is one function of the
fields and of the times that the clock shows while it runs. `record_success`
and `record_failure` take a permit and do not look at it.

The readings of the clock are doubles, or exact where a result does not depend
on how they are rounded.
-/

namespace InferenceService

/-- Seconds as the clock shows them at an instant. -/
class ClockReading (τ : Type) where
  ofInstant : ℚ → τ
  toSeconds : τ → ℚ
  round6 : τ → τ

namespace ClockReading

instance : ClockReading ℚ where
  ofInstant t := t
  toSeconds x := x
  round6 x := Python.round (x * 1000000) / 1000000

instance : ClockReading Double where
  ofInstant := Double.ofRat
  toSeconds := Double.value
  round6 := Double.round6

@[simp] theorem ofInstant_rat (t : ℚ) : (ofInstant t : ℚ) = t := rfl

@[simp] theorem ofInstant_double (t : ℚ) : ofInstant t = Double.ofRat t := rfl

@[simp] theorem toSeconds_double (x : Double) : toSeconds x = x.value := rfl

end ClockReading

structure CircuitBreakerConfig (τ : Type := ℚ) [LinearOrder τ] [Zero τ] where
  failureThreshold : Nat
  recoveryTimeoutSeconds : τ
  failureThreshold_pos : 0 < failureThreshold
  recoveryTimeoutSeconds_pos : 0 < recoveryTimeoutSeconds

def CircuitBreakerConfig.init {τ : Type} [LinearOrder τ] [Zero τ] (failureThreshold : Int)
    (recoveryTimeoutSeconds : τ) : Except String (CircuitBreakerConfig τ) :=
  if hf : failureThreshold < 1 then .error "failure_threshold must be at least 1"
  else if hr : recoveryTimeoutSeconds ≤ 0 then .error "recovery_timeout_seconds must be positive"
  else .ok {
    failureThreshold := failureThreshold.toNat
    recoveryTimeoutSeconds
    failureThreshold_pos := by omega
    recoveryTimeoutSeconds_pos := not_le.mp hr }

structure CircuitBreaker (τ : Type := ℚ) where
  state : CircuitState := .closed
  consecutiveFailures : Nat := 0
  openedAt : Option τ := none
  halfOpenProbeInFlight : Bool := false
deriving DecidableEq, Repr

structure CircuitSnapshot where
  state : String
  consecutiveFailures : Nat
  retryAfterSeconds : ℚ
deriving DecidableEq, Repr

namespace CircuitBreaker

section
variable {τ : Type} [LinearOrder τ] [Zero τ] [Sub τ] (C : CircuitBreakerConfig τ) (now : τ)

def remainingOpenSeconds (b : CircuitBreaker τ) : τ :=
  match b.openedAt with
  | none => 0
  | some openedAt => max 0 (C.recoveryTimeoutSeconds - (now - openedAt))

def «open» (b : CircuitBreaker τ) : CircuitBreaker τ := { b with state := .open, openedAt := some now }

def advanceOpenStateIfReady (b : CircuitBreaker τ) : CircuitBreaker τ :=
  if b.state ≠ .open then b
  else if 0 < b.remainingOpenSeconds C now then b
  else { b with state := .halfOpen, halfOpenProbeInFlight := false }

/-- The property `state`. -/
def readState (b : CircuitBreaker τ) : CircuitState × CircuitBreaker τ :=
  let b := b.advanceOpenStateIfReady C now
  (b.state, b)

end

section
variable {τ : Type} [LinearOrder τ] [Zero τ] [Sub τ] [ClockReading τ] (C : CircuitBreakerConfig τ) (now later : τ)

def snapshot (b : CircuitBreaker τ) : CircuitSnapshot × CircuitBreaker τ :=
  let b := b.advanceOpenStateIfReady C now
  let retryAfterSeconds := ClockReading.round6 (b.remainingOpenSeconds C later)
  (⟨b.state.value, b.consecutiveFailures, ClockReading.toSeconds retryAfterSeconds⟩, b)

def allowPrimaryCall (b : CircuitBreaker τ) : Except CircuitOpenError CircuitPermit × CircuitBreaker τ :=
  let b := b.advanceOpenStateIfReady C now
  let refusal := CircuitOpenError.init (ClockReading.toSeconds (b.remainingOpenSeconds C later))
  if b.state = .open then (.error refusal, b)
  else if b.state = .halfOpen then
    if b.halfOpenProbeInFlight then (.error refusal, b)
    else (.ok { state := .halfOpen }, { b with halfOpenProbeInFlight := true })
  else (.ok { state := b.state }, b)

end

def recordSuccess {τ : Type} (_permit : Option CircuitPermit) (b : CircuitBreaker τ) :
    Option CircuitTransition × CircuitBreaker τ :=
  let previous := b.state
  let b := { b with state := .closed, consecutiveFailures := 0, openedAt := none, halfOpenProbeInFlight := false }
  if previous ≠ .closed then (some ⟨previous, .closed⟩, b) else (none, b)

def recordFailure {τ : Type} [LinearOrder τ] [Zero τ] (C : CircuitBreakerConfig τ) (now : τ)
    (_permit : Option CircuitPermit) (b : CircuitBreaker τ) :
    Option CircuitTransition × CircuitBreaker τ :=
  let previous := b.state
  let b := { b with halfOpenProbeInFlight := false }
  if previous = .halfOpen then (some ⟨.halfOpen, .open⟩, b.open now)
  else
    let b := { b with consecutiveFailures := b.consecutiveFailures + 1 }
    if C.failureThreshold ≤ b.consecutiveFailures then
      if previous ≠ .open then (some ⟨previous, .open⟩, b.open now) else (none, b.open now)
    else (none, b)

/-! ## What each method does to the fields -/

section
variable {τ : Type} [LinearOrder τ] [Zero τ]

theorem advance_cases [Sub τ] (C : CircuitBreakerConfig τ) (now : τ) (b : CircuitBreaker τ) :
    b.advanceOpenStateIfReady C now = b ∨ b.state = .open ∧ b.advanceOpenStateIfReady C now =
      { b with state := .halfOpen, halfOpenProbeInFlight := false } := by
  unfold advanceOpenStateIfReady
  by_cases hs : b.state = .open
  · by_cases hr : 0 < b.remainingOpenSeconds C now
    · simp [hs, hr]
    · simp [hs, hr]
  · simp [hs]

theorem allow_cases [Sub τ] [ClockReading τ] (C : CircuitBreakerConfig τ) (now later : τ) (b : CircuitBreaker τ) :
    (∃ err, b.allowPrimaryCall C now later = (.error err, b.advanceOpenStateIfReady C now)) ∨
    (b.state = .closed ∧ b.allowPrimaryCall C now later = (.ok { state := .closed }, b)) ∨
    ((b.advanceOpenStateIfReady C now).state = .halfOpen ∧
      (b.advanceOpenStateIfReady C now).halfOpenProbeInFlight = false ∧
      b.allowPrimaryCall C now later = (.ok { state := .halfOpen },
        { b.advanceOpenStateIfReady C now with halfOpenProbeInFlight := true })) := by
  unfold allowPrimaryCall
  cases hs : (b.advanceOpenStateIfReady C now).state with
  | «open» => exact .inl ⟨_, by simp only [hs, if_true]; rfl⟩
  | halfOpen =>
    by_cases hf : (b.advanceOpenStateIfReady C now).halfOpenProbeInFlight = true
    · exact .inl ⟨_, by simp only [hs, hf, if_true]; rfl⟩
    · rw [Bool.not_eq_true] at hf
      exact .inr (.inr ⟨rfl, hf, by simp [hs, hf]⟩)
  | closed =>
    refine .inr (.inl ?_)
    rcases advance_cases C now b with h | ⟨_, h⟩
    · rw [h] at hs ⊢
      exact ⟨hs, by simp [hs]⟩
    · rw [h] at hs; cases hs

theorem recordSuccess_snd {τ : Type} (b : CircuitBreaker τ) (permit : Option CircuitPermit) :
    (b.recordSuccess permit).2 = ⟨.closed, 0, none, false⟩ := by
  unfold recordSuccess
  by_cases hs : b.state = .closed <;> simp [hs]

theorem recordFailure_cases (C : CircuitBreakerConfig τ) (now : τ) (b : CircuitBreaker τ)
    (permit : Option CircuitPermit) :
    (b.recordFailure C now permit).2.state = .open ∧ (b.recordFailure C now permit).2.openedAt = some now ∧
        (b.state ≠ .halfOpen →
          (b.recordFailure C now permit).2.consecutiveFailures = b.consecutiveFailures + 1) ∨
      (b.state ≠ .halfOpen ∧ (b.recordFailure C now permit).2 =
        { b with consecutiveFailures := b.consecutiveFailures + 1, halfOpenProbeInFlight := false }) := by
  unfold recordFailure CircuitBreaker.open
  by_cases hs : b.state = .halfOpen
  · simp [hs]
  · by_cases hth : C.failureThreshold ≤ b.consecutiveFailures + 1
    · by_cases ho : b.state = .open <;> simp [hs, hth, ho]
    · simp [hs, hth]

end

end CircuitBreaker

/-! ## A small instance -/

def tripFirst : CircuitBreakerConfig := ⟨1, 1, Nat.one_pos, one_pos⟩

end InferenceService
