import InferenceService.Breaker.Local
import InferenceService.Lib.Lts

/-!
# Any sequence of calls on one process-local breaker

The calls need not match: a record may come without a permit, twice, or while
the breaker is open. What the four fields say together, after any of them.
-/

namespace InferenceService

inductive BreakerCall where
  | readState
  | snapshot
  | allowPrimaryCall
  | recordSuccess (permit : Option CircuitPermit)
  | recordFailure (permit : Option CircuitPermit)
deriving DecidableEq, Repr

/-- A call that starts `wait` seconds after the one before it ended; between
its two looks at the clock `lag` seconds pass. -/
structure TimedCall where
  wait : ℚ := 0
  lag : ℚ := 0
  call : BreakerCall
deriving DecidableEq, Repr

structure CalledBreaker (τ : Type := ℚ) where
  now : ℚ
  breaker : CircuitBreaker τ
deriving DecidableEq, Repr

/-- The calls of `record_failure` since the last `record_success`. -/
def failuresSinceSuccess (calls : List TimedCall) : Nat :=
  calls.foldl (fun n c => match c.call with
    | .recordSuccess _ => 0
    | .recordFailure _ => n + 1
    | _ => n) 0

/-- The transition that tells a change of the stored state. -/
def CircuitTransition.between {τ : Type} (b b' : CircuitBreaker τ) : Option CircuitTransition :=
  if b.state = b'.state then none else some ⟨b.state, b'.state⟩

section
variable {τ : Type} [LinearOrder τ] [Zero τ] (C : CircuitBreakerConfig τ)

section
variable [Sub τ] [ClockReading τ]

def CircuitBreaker.called (now later : τ) (b : CircuitBreaker τ) : BreakerCall → CircuitBreaker τ
  | .readState => (b.readState C now).2
  | .snapshot => (b.snapshot C now later).2
  | .allowPrimaryCall => (b.allowPrimaryCall C now later).2
  | .recordSuccess permit => (b.recordSuccess permit).2
  | .recordFailure permit => (b.recordFailure C now permit).2

section
variable (now later : τ) (b : CircuitBreaker τ) (permit : Option CircuitPermit)

@[simp] theorem CircuitBreaker.called_readState :
    b.called C now later .readState = b.advanceOpenStateIfReady C now := rfl

@[simp] theorem CircuitBreaker.called_snapshot :
    b.called C now later .snapshot = b.advanceOpenStateIfReady C now := rfl

@[simp] theorem CircuitBreaker.called_allow :
    b.called C now later .allowPrimaryCall = (b.allowPrimaryCall C now later).2 := rfl

@[simp] theorem CircuitBreaker.called_success :
    b.called C now later (.recordSuccess permit) = (b.recordSuccess permit).2 := rfl

@[simp] theorem CircuitBreaker.called_failure :
    b.called C now later (.recordFailure permit) = (b.recordFailure C now permit).2 := rfl

end

def localCalls (start : ℚ) : Lts (CalledBreaker τ) TimedCall where
  init := ⟨start, {}⟩
  step s c :=
    if 0 ≤ c.wait ∧ 0 ≤ c.lag then
      some ⟨s.now + c.wait + c.lag, s.breaker.called C (ClockReading.ofInstant (s.now + c.wait))
        (ClockReading.ofInstant (s.now + c.wait + c.lag)) c.call⟩
    else none

end

/-- What the fields say after calls of which `failures` are the failures
recorded since the last success. -/
structure Represents (b : CircuitBreaker τ) (failures : Nat) : Prop where
  closed : b.state = .closed → b.openedAt = none ∧ b.halfOpenProbeInFlight = false ∧
    b.consecutiveFailures = failures ∧ b.consecutiveFailures < C.failureThreshold
  opened : b.state = .open → b.openedAt.isSome ∧ b.halfOpenProbeInFlight = false ∧
    C.failureThreshold ≤ b.consecutiveFailures
  half : b.state = .halfOpen → b.openedAt.isSome ∧ C.failureThreshold ≤ b.consecutiveFailures
  probe : b.halfOpenProbeInFlight = true → b.state = .halfOpen

variable {C} {b : CircuitBreaker τ} {failures : Nat}

/-! ## What one call keeps -/

theorem represents_init : Represents C {} 0 := by
  refine ⟨fun _ => ⟨rfl, rfl, rfl, C.failureThreshold_pos⟩, ?_, ?_, ?_⟩
  all_goals intro h; cases h

theorem Represents.advance [Sub τ] (h : Represents C b failures) (now : τ) :
    Represents C (b.advanceOpenStateIfReady C now) failures := by
  rcases CircuitBreaker.advance_cases C now b with ha | ⟨hs, ha⟩
  · rw [ha]; exact h
  · obtain ⟨hopened, _, hcount⟩ := h.opened hs
    rw [ha]
    refine ⟨?_, ?_, fun _ => ⟨hopened, hcount⟩, ?_⟩
    all_goals intro h; cases h

theorem Represents.allow [Sub τ] [ClockReading τ] (h : Represents C b failures) (now later : τ) :
    Represents C (b.allowPrimaryCall C now later).2 failures := by
  rcases CircuitBreaker.allow_cases C now later b with ⟨err, ha⟩ | ⟨_, ha⟩ | ⟨hs, hf, ha⟩
  · rw [ha]; exact h.advance now
  · rw [ha]; exact h
  · rw [ha]
    have hadv := h.advance now
    refine ⟨fun hc => ?_, fun ho => ?_, hadv.half, fun _ => hs⟩
    · rw [hs] at hc; cases hc
    · rw [hs] at ho; cases ho

theorem represents_success (permit : Option CircuitPermit) : Represents C (b.recordSuccess permit).2 0 := by
  rw [CircuitBreaker.recordSuccess_snd]
  exact represents_init

theorem Represents.failure (h : Represents C b failures) (now : τ) (permit : Option CircuitPermit) :
    Represents C (b.recordFailure C now permit).2 (failures + 1) := by
  unfold CircuitBreaker.recordFailure CircuitBreaker.open
  cases hs : b.state with
  | halfOpen =>
    obtain ⟨_, hcount⟩ := h.half hs
    refine ⟨?_, fun _ => ⟨rfl, rfl, hcount⟩, ?_, ?_⟩
    all_goals intro h; cases h
  | «open» =>
    obtain ⟨_, _, hcount⟩ := h.opened hs
    have hth : C.failureThreshold ≤ b.consecutiveFailures + 1 := Nat.le_succ_of_le hcount
    simp only [reduceCtorEq, if_false, hth, if_true, ne_eq, not_true_eq_false]
    refine ⟨?_, fun _ => ⟨rfl, rfl, hth⟩, ?_, ?_⟩
    all_goals intro h; cases h
  | closed =>
    obtain ⟨hnone, _, hcount, _⟩ := h.closed hs
    simp only [reduceCtorEq, if_false]
    by_cases hth : C.failureThreshold ≤ b.consecutiveFailures + 1
    · simp only [hth, if_true, ne_eq, reduceCtorEq, not_false_eq_true]
      refine ⟨?_, fun _ => ⟨rfl, rfl, hth⟩, ?_, ?_⟩
      all_goals intro h; cases h
    · simp only [hth, if_false]
      refine ⟨fun _ => ⟨hnone, rfl, ?_, ?_⟩, fun ho => ?_, fun hh => ?_, ?_⟩
      · rw [hcount]
      · exact Nat.not_le.mp hth
      · cases ho
      · cases hh
      · intro h; cases h

/-! ## What a record returns -/

theorem recordSuccess_between {τ : Type} (b : CircuitBreaker τ) (permit : Option CircuitPermit) :
    (b.recordSuccess permit).1 = CircuitTransition.between b (b.recordSuccess permit).2 := by
  unfold CircuitTransition.between
  rw [CircuitBreaker.recordSuccess_snd]
  unfold CircuitBreaker.recordSuccess
  by_cases hs : b.state = .closed <;> simp [hs]

/-- An open breaker has its failures already, so one more opens it again. -/
theorem Represents.recordFailure_between (h : Represents C b failures) (now : τ) (permit : Option CircuitPermit) :
    (b.recordFailure C now permit).1 = CircuitTransition.between b (b.recordFailure C now permit).2 := by
  unfold CircuitTransition.between CircuitBreaker.recordFailure CircuitBreaker.open
  cases hs : b.state with
  | halfOpen => simp
  | closed =>
    by_cases hth : C.failureThreshold ≤ b.consecutiveFailures + 1 <;> simp [hth]
  | «open» =>
    have hth : C.failureThreshold ≤ b.consecutiveFailures + 1 := Nat.le_succ_of_le (h.opened hs).2.2
    simp [hth]

/-! ## Runs -/

theorem failuresSinceSuccess_append (calls : List TimedCall) (c : TimedCall) :
    failuresSinceSuccess (calls ++ [c]) = match c.call with
      | .recordSuccess _ => 0
      | .recordFailure _ => failuresSinceSuccess calls + 1
      | _ => failuresSinceSuccess calls := by
  unfold failuresSinceSuccess
  rw [List.foldl_append]
  rfl

variable [Sub τ] [ClockReading τ]

theorem Represents.called {calls : List TimedCall} (h : Represents C b (failuresSinceSuccess calls))
    (now later : τ) (c : TimedCall) :
    Represents C (b.called C now later c.call) (failuresSinceSuccess (calls ++ [c])) := by
  rw [failuresSinceSuccess_append]
  cases c.call with
  | readState => exact h.advance now
  | snapshot => exact h.advance now
  | allowPrimaryCall => exact h.allow now later
  | recordSuccess permit => exact represents_success permit
  | recordFailure permit => exact h.failure now permit

theorem run_represents (start : ℚ) : ∀ (calls before : List TimedCall) {s u : CalledBreaker τ},
    Represents C s.breaker (failuresSinceSuccess before) → (localCalls C start).runFrom s calls = some u →
    Represents C u.breaker (failuresSinceSuccess (before ++ calls)) := by
  intro calls
  induction calls with
  | nil =>
    intro before s u h hr
    simp only [Lts.runFrom_nil, Option.some.injEq] at hr
    rw [List.append_nil]
    exact hr ▸ h
  | cons c calls ih =>
    intro before s u h hr
    obtain ⟨t, ht, hr⟩ := (localCalls C start).runFrom_cons_iff.mp hr
    simp only [localCalls, Option.ite_none_right_eq_some, Option.some.injEq] at ht
    obtain ⟨_, rfl⟩ := ht
    rw [List.append_cons]
    exact ih (before ++ [c]) (h.called _ _ c) hr

theorem reachable_represents {start : ℚ} {s : CalledBreaker τ} (hs : (localCalls C start).Reachable s) :
    ∃ failures, Represents C s.breaker failures := by
  obtain ⟨calls, hr⟩ := hs
  exact ⟨_, run_represents start calls [] represents_init hr⟩

/-- The four fields stay consistent in every sequence of calls, and a record
tells each change of the stored state. -/
theorem representation_kept (start : ℚ) {calls : List TimedCall} {s : CalledBreaker τ}
    (h : (localCalls C start).runFrom (localCalls C start).init calls = some s) :
    Represents C s.breaker (failuresSinceSuccess calls) ∧ ∀ now permit,
      (s.breaker.recordSuccess permit).1 = CircuitTransition.between s.breaker (s.breaker.recordSuccess permit).2 ∧
      (s.breaker.recordFailure C now permit).1 =
        CircuitTransition.between s.breaker (s.breaker.recordFailure C now permit).2 := by
  have hrep : Represents C s.breaker (failuresSinceSuccess calls) := run_represents start calls [] represents_init h
  exact ⟨hrep, fun now permit => ⟨recordSuccess_between _ permit, hrep.recordFailure_between now permit⟩⟩

end

/-- Two failures without a permit, the second on an open breaker, and a probe
once the window of the second is over. -/
theorem representation_kept_probing :
    Represents tripFirst ⟨.halfOpen, 2, some (1 / 2), true⟩ 2 ∧
      ((⟨.halfOpen, 2, some (1 / 2), true⟩ : CircuitBreaker).recordFailure tripFirst 2 none).1 =
        some ⟨.halfOpen, .open⟩ := by
  have hrun : (localCalls tripFirst 0).runFrom (localCalls tripFirst 0).init
      [⟨0, 0, .recordFailure none⟩, ⟨1 / 2, 0, .recordFailure none⟩, ⟨1, 0, .allowPrimaryCall⟩] =
        some ⟨3 / 2, ⟨.halfOpen, 2, some (1 / 2), true⟩⟩ := by decide +kernel
  have h := representation_kept 0 hrun
  exact ⟨h.1, (h.2 2 none).2⟩

end InferenceService
