import InferenceService.Breaker.Types
import Mathlib.Algebra.Order.Ring.Rat
import Mathlib.Data.Nat.Find
import Mathlib.Order.Bounds.Basic

/-!
# `ResilienceController.execute`

One call as a function of what the breaker and the operations answer: the calls
that it makes, in their order, and how it ends. Callbacks return normally. The
primary operation is asked by the number of the calls before it.
-/

namespace InferenceService

structure ResilienceController where
  retryAttempts : Nat
  retryBackoffSeconds : ℚ
  backoff_nonneg : 0 ≤ retryBackoffSeconds

def ResilienceController.init (retryAttempts : Int) (retryBackoffSeconds : ℚ) :
    Except String ResilienceController :=
  if retryAttempts < 0 then .error "retry_attempts must not be negative"
  else if hb : retryBackoffSeconds < 0 then .error "retry_backoff_seconds must not be negative"
  else .ok ⟨retryAttempts.toNat, retryBackoffSeconds, not_lt.mp hb⟩

inductive Route where
  | primary
  | fallback
deriving DecidableEq, Repr

def Route.value : Route → String
  | primary => "primary"
  | fallback => "fallback"

structure ResilienceOutcome (α : Type) where
  value : α
  route : Route
  requestId : String
  primaryAttempts : Nat
  circuitState : CircuitState
  fallbackBudget : Option Int := none
deriving DecidableEq, Repr

/-- What leaves `execute` as an exception: an operation's own, or the
`CircuitOpenError` of a refusal. -/
inductive ExecuteError (ε : Type) where
  | raised (exc : ε)
  | circuitOpen (err : CircuitOpenError)
deriving DecidableEq, Repr

inductive ExecuteCall (ε : Type) where
  | allowPrimaryCall
  | primaryOperation
  | onRetry (exc : ε)
  | sleep (seconds : ℚ)
  | recordSuccess (permit : CircuitPermit)
  | recordFailure (permit : CircuitPermit)
  | onTransition (transition : CircuitTransition)
  | fallbackOperation
  | onFallback (result : String)
  | snapshot
  | state
deriving DecidableEq, Repr

namespace ExecuteCall
section
variable {ε : Type}

/-- The calls that the breaker and the two operations see, apart from the
breaker's being read. -/
def isOperation : ExecuteCall ε → Bool
  | allowPrimaryCall | primaryOperation | recordSuccess _ | recordFailure _ | fallbackOperation => true
  | onRetry _ | sleep _ | onTransition _ | onFallback _ | snapshot | state => false

@[simp] theorem isOperation_allow : (allowPrimaryCall : ExecuteCall ε).isOperation = true := rfl

@[simp] theorem isOperation_primary : (primaryOperation : ExecuteCall ε).isOperation = true := rfl

@[simp] theorem isOperation_success (p : CircuitPermit) : (recordSuccess p : ExecuteCall ε).isOperation = true := rfl

@[simp] theorem isOperation_failure (p : CircuitPermit) : (recordFailure p : ExecuteCall ε).isOperation = true := rfl

@[simp] theorem isOperation_fallback : (fallbackOperation : ExecuteCall ε).isOperation = true := rfl

@[simp] theorem isOperation_onRetry (exc : ε) : (onRetry exc).isOperation = false := rfl

@[simp] theorem isOperation_sleep (t : ℚ) : (sleep t : ExecuteCall ε).isOperation = false := rfl

@[simp] theorem isOperation_onTransition (t : CircuitTransition) :
    (onTransition t : ExecuteCall ε).isOperation = false := rfl

@[simp] theorem isOperation_onFallback (r : String) : (onFallback r : ExecuteCall ε).isOperation = false := rfl

@[simp] theorem isOperation_snapshot : (snapshot : ExecuteCall ε).isOperation = false := rfl

@[simp] theorem isOperation_state : (state : ExecuteCall ε).isOperation = false := rfl

end
end ExecuteCall

structure BreakerAnswers where
  allowPrimaryCall : Except CircuitOpenError CircuitPermit
  recordSuccess : CircuitPermit → Option CircuitTransition
  recordFailure : CircuitPermit → Option CircuitTransition
  snapshotRetryAfter : ℚ
  state : CircuitState

/-- The arguments of a call. An operation is what its calls return or raise, a
callback is whether one is given. -/
structure ExecuteRequest (α ε : Type) where
  requestId : String
  primaryOperation : Nat → Except ε α
  fallbackOperation : Option (Except ε α)
  fallbackBudget : Option Int
  isRetrySafe : ε → Bool
  isFallbackSafe : ε → Bool
  onRetry : Bool
  onTransition : Bool
  onFallback : Bool

structure Execution (α ε : Type) where
  calls : List (ExecuteCall ε)
  result : Except (ExecuteError ε) (ResilienceOutcome α)

section
variable {α ε : Type}

def Execution.after (before : List (ExecuteCall ε)) (x : Execution α ε) : Execution α ε :=
  { x with calls := before ++ x.calls }

@[simp] theorem Execution.after_after (xs ys : List (ExecuteCall ε)) (x : Execution α ε) :
    (x.after ys).after xs = x.after (xs ++ ys) := by
  simp [Execution.after]

@[simp] theorem Execution.after_calls (xs : List (ExecuteCall ε)) (x : Execution α ε) :
    (x.after xs).calls = xs ++ x.calls := rfl

@[simp] theorem Execution.after_result (xs : List (ExecuteCall ε)) (x : Execution α ε) :
    (x.after xs).result = x.result := rfl

/-! ## The calls of the callbacks -/

namespace ExecuteRequest
variable (q : ExecuteRequest α ε)

def retryCalls (exc : ε) : List (ExecuteCall ε) := if q.onRetry then [.onRetry exc] else []

def transitionCalls (transition : Option CircuitTransition) : List (ExecuteCall ε) :=
  match transition with
  | some transition => if q.onTransition then [.onTransition transition] else []
  | none => []

def fallbackCalls (result : String) : List (ExecuteCall ε) := if q.onFallback then [.onFallback result] else []

end ExecuteRequest

namespace ResilienceController
variable (c : ResilienceController) (B : BreakerAnswers) (q : ExecuteRequest α ε)

def sleepCalls : List (ExecuteCall ε) :=
  if 0 < c.retryBackoffSeconds then [.sleep c.retryBackoffSeconds] else []

/-! ## `execute` -/

def runFallbackOrRaise (primaryAttempts : Nat) : Execution α ε :=
  match q.fallbackOperation with
  | none => ⟨[.snapshot], .error (.circuitOpen (.init B.snapshotRetryAfter))⟩
  | some (.error exc) => ⟨.fallbackOperation :: q.fallbackCalls "failed", .error (.raised exc)⟩
  | some (.ok value) =>
    ⟨.fallbackOperation :: q.fallbackCalls "succeeded" ++ [.state], .ok {
      value
      route := .fallback
      requestId := q.requestId
      primaryAttempts
      circuitState := B.state
      fallbackBudget := q.fallbackBudget }⟩

def primaryRaised (permit : CircuitPermit) (primaryAttempts : Nat) (exc : ε) : Execution α ε :=
  (if q.fallbackOperation.isSome && q.isFallbackSafe exc then runFallbackOrRaise B q primaryAttempts
    else ⟨[], .error (.raised exc)⟩).after
      (.recordFailure permit :: q.transitionCalls (B.recordFailure permit))

def primaryReturned (permit : CircuitPermit) (primaryAttempts : Nat) (value : α) : Execution α ε :=
  ⟨.recordSuccess permit :: q.transitionCalls (B.recordSuccess permit), .ok {
    value
    route := .primary
    requestId := q.requestId
    primaryAttempts
    circuitState := permit.state }⟩

/-- The loop after `made` calls, with `left` retries remaining. -/
def primaryLoop (permit : CircuitPermit) (left made : Nat) : Execution α ε :=
  Execution.after [.primaryOperation] <|
    match q.primaryOperation made with
    | .ok value => primaryReturned B q permit (made + 1) value
    | .error exc =>
      match left with
      | 0 => primaryRaised B q permit (made + 1) exc
      | left + 1 =>
        if q.isRetrySafe exc then (primaryLoop permit left (made + 1)).after (q.retryCalls exc ++ c.sleepCalls)
        else primaryRaised B q permit (made + 1) exc

def execute : Execution α ε :=
  Execution.after [.allowPrimaryCall] <|
    match B.allowPrimaryCall with
    | .error _ => runFallbackOrRaise B q 0
    | .ok permit => c.primaryLoop B q permit c.retryAttempts 0

/-! ## The call that ends the loop -/

/-- The primary's call after `i` others is its last one: it returned, it raised
what must not be retried, or no retry is left. -/
def Settles (i : Nat) : Prop :=
  (∃ value, q.primaryOperation i = .ok value) ∨
    (∃ exc, q.primaryOperation i = .error exc ∧ q.isRetrySafe exc = false) ∨ i = c.retryAttempts

def Last (k : Nat) : Prop := IsLeast {i | c.Settles q i} k

variable {c q}

theorem exists_last : ∃ k, c.Last q k := by
  classical
  have h : ∃ i, c.Settles q i := ⟨c.retryAttempts, .inr (.inr rfl)⟩
  exact ⟨Nat.find h, Nat.find_spec h, fun i hi => Nat.find_min' h hi⟩

theorem Last.le {k : Nat} (hk : c.Last q k) : k ≤ c.retryAttempts := hk.2 (.inr (.inr rfl))

theorem Last.retried {k i : Nat} (hk : c.Last q k) (hi : i < k) :
    ∃ exc, q.primaryOperation i = .error exc ∧ q.isRetrySafe exc = true := by
  have hnot : ¬ c.Settles q i := fun h => absurd (hk.2 h) (not_le.mpr hi)
  unfold Settles at hnot
  cases hp : q.primaryOperation i with
  | ok value => exact absurd (.inl ⟨value, hp⟩) hnot
  | error exc =>
    refine ⟨exc, rfl, ?_⟩
    by_contra hsafe
    exact hnot (.inr (.inl ⟨exc, hp, by simpa using hsafe⟩))

variable (c q)

def retriedCalls (i : Nat) : List (ExecuteCall ε) :=
  .primaryOperation :: match q.primaryOperation i with
    | .ok _ => []
    | .error exc => q.retryCalls exc ++ c.sleepCalls

def lastCall (permit : CircuitPermit) (k : Nat) : Execution α ε :=
  match q.primaryOperation k with
  | .ok value => primaryReturned B q permit (k + 1) value
  | .error exc => primaryRaised B q permit (k + 1) exc

variable {c q}

theorem primaryLoop_eq {permit : CircuitPermit} {k : Nat} (hk : c.Last q k) (left : Nat) :
    ∀ made, made + left = c.retryAttempts → made ≤ k → c.primaryLoop B q permit left made =
      (lastCall B q permit k).after
        ((List.range' made (k - made)).flatMap (c.retriedCalls q) ++ [.primaryOperation]) := by
  -- a call that settles the loop is the last one, as no earlier one does
  have hlast : ∀ made, made ≤ k → c.Settles q made → made = k := fun made hle hs => le_antisymm hle (hk.2 hs)
  induction left with
  | zero =>
    intro made hsum hle
    obtain rfl := hlast made hle (.inr (.inr (by omega)))
    rw [primaryLoop, lastCall]
    cases hp : q.primaryOperation made <;> simp
  | succ left ih =>
    intro made hsum hle
    rw [primaryLoop]
    cases hp : q.primaryOperation made with
    | ok value =>
      obtain rfl := hlast made hle (.inl ⟨value, hp⟩)
      simp [lastCall, hp]
    | error exc =>
      by_cases hsafe : q.isRetrySafe exc = true
      · have hne : made ≠ k := by
          intro heq
          rcases heq ▸ hk.1 with ⟨value, hv⟩ | ⟨exc', he, hs⟩ | heq
          · rw [hp] at hv; cases hv
          · rw [hp] at he
            obtain rfl := Except.error.inj he
            rw [hsafe] at hs; cases hs
          · omega
        have hsplit : k - made = (k - (made + 1)) + 1 := by omega
        simp only [hsafe, if_true]
        rw [ih (made + 1) (by omega) (by omega), hsplit, List.range'_succ, List.flatMap_cons]
        simp [retriedCalls, hp]
      · obtain rfl := hlast made hle (.inr (.inl ⟨exc, hp, by simpa using hsafe⟩))
        simp [hsafe, lastCall, hp]

variable {B}

theorem execute_refused {err : CircuitOpenError} (h : B.allowPrimaryCall = .error err) :
    c.execute B q = (runFallbackOrRaise B q 0).after [.allowPrimaryCall] := by
  rw [execute, h]

theorem execute_granted {permit : CircuitPermit} {k : Nat} (h : B.allowPrimaryCall = .ok permit)
    (hk : c.Last q k) : c.execute B q = (lastCall B q permit k).after
      (.allowPrimaryCall :: (List.range k).flatMap (c.retriedCalls q) ++ [.primaryOperation]) := by
  rw [execute, h]
  simp only [primaryLoop_eq B hk c.retryAttempts 0 (Nat.zero_add _) (Nat.zero_le _), Nat.sub_zero,
    List.range_eq_range', Execution.after_after, List.cons_append, List.nil_append]

/-! ## The operations of a call, in order -/

end ResilienceController

def Execution.operations (x : Execution α ε) : List (ExecuteCall ε) := x.calls.filter ExecuteCall.isOperation

theorem Execution.operations_after (xs : List (ExecuteCall ε)) (x : Execution α ε) :
    (x.after xs).operations = xs.filter ExecuteCall.isOperation ++ x.operations := by
  simp [Execution.operations]

namespace ResilienceController
variable (c : ResilienceController) (B : BreakerAnswers) (q : ExecuteRequest α ε)

theorem operations_retryCalls (exc : ε) :
    (q.retryCalls exc ++ c.sleepCalls).filter ExecuteCall.isOperation = [] := by
  unfold ExecuteRequest.retryCalls sleepCalls
  by_cases hq : q.onRetry = true <;> by_cases hb : 0 < c.retryBackoffSeconds <;>
    simp [hq, hb]

theorem operations_transitionCalls (transition : Option CircuitTransition) :
    (q.transitionCalls transition).filter ExecuteCall.isOperation = [] := by
  unfold ExecuteRequest.transitionCalls
  cases transition with
  | none => rfl
  | some transition => by_cases hq : q.onTransition = true <;> simp [hq]

theorem operations_fallbackCalls (result : String) : (q.fallbackCalls result).filter ExecuteCall.isOperation = [] := by
  unfold ExecuteRequest.fallbackCalls
  by_cases hq : q.onFallback = true <;> simp [hq]

theorem operations_retriedCalls (k : Nat) :
    ((List.range k).flatMap (c.retriedCalls q)).filter ExecuteCall.isOperation = List.replicate k .primaryOperation := by
  induction k with
  | zero => rfl
  | succ k ih =>
    have hcall : (c.retriedCalls q k).filter ExecuteCall.isOperation = [.primaryOperation] := by
      unfold retriedCalls
      cases q.primaryOperation k with
      | ok value => rfl
      | error exc => rw [List.filter_cons_of_pos rfl, operations_retryCalls]
    rw [List.range_succ, List.flatMap_append, List.filter_append, ih, List.replicate_succ', List.flatMap_singleton,
      hcall]

def fallbackResult (primaryAttempts : Nat) : Except ε α → Except (ExecuteError ε) (ResilienceOutcome α)
  | .error exc => .error (.raised exc)
  | .ok value => .ok ⟨value, .fallback, q.requestId, primaryAttempts, B.state, q.fallbackBudget⟩

theorem runFallback_spec {answer : Except ε α} (h : q.fallbackOperation = some answer) (primaryAttempts : Nat) :
    (runFallbackOrRaise B q primaryAttempts).operations = [.fallbackOperation] ∧
      (runFallbackOrRaise B q primaryAttempts).result = fallbackResult B q primaryAttempts answer := by
  have hcalls := operations_fallbackCalls q
  unfold runFallbackOrRaise Execution.operations
  rw [h]
  cases answer with
  | error exc => simp [hcalls, List.filter_cons, fallbackResult]
  | ok value => simp [hcalls, List.filter_cons, fallbackResult]

/-! ## What a call amounts to -/

/-- `x` is what the primary's last call, the one after `k` others, makes of the
loop: the outcome is recorded under the permit, and the fallback is called when
it is there and the exception allows it. -/
def GrantedSpec (permit : CircuitPermit) (k : Nat) (x : Execution α ε) : Prop :=
  match q.primaryOperation k, q.fallbackOperation with
  | .ok value, _ =>
    x.operations = .allowPrimaryCall :: List.replicate (k + 1) .primaryOperation ++ [.recordSuccess permit] ∧
      x.result = .ok ⟨value, .primary, q.requestId, k + 1, permit.state, none⟩
  | .error exc, none =>
    x.operations = .allowPrimaryCall :: List.replicate (k + 1) .primaryOperation ++ [.recordFailure permit] ∧
      x.result = .error (.raised exc)
  | .error exc, some answer =>
    if q.isFallbackSafe exc then
      x.operations = .allowPrimaryCall :: List.replicate (k + 1) .primaryOperation ++
          [.recordFailure permit, .fallbackOperation] ∧
        x.result = fallbackResult B q (k + 1) answer
    else
      x.operations = .allowPrimaryCall :: List.replicate (k + 1) .primaryOperation ++ [.recordFailure permit] ∧
        x.result = .error (.raised exc)

def RefusedSpec (x : Execution α ε) : Prop :=
  match q.fallbackOperation with
  | none => x.operations = [.allowPrimaryCall] ∧ x.result = .error (.circuitOpen (.init B.snapshotRetryAfter))
  | some answer =>
    x.operations = [.allowPrimaryCall, .fallbackOperation] ∧ x.result = fallbackResult B q 0 answer

theorem execute_refusedSpec {err : CircuitOpenError} (h : B.allowPrimaryCall = .error err) :
    RefusedSpec B q (c.execute B q) := by
  rw [execute_refused h]
  unfold RefusedSpec
  cases hf : q.fallbackOperation with
  | none => simp [runFallbackOrRaise, hf, Execution.operations, List.filter_cons]
  | some answer =>
    obtain ⟨hops, hres⟩ := runFallback_spec B q hf 0
    simp only [Execution.operations_after, hops, Execution.after_result, hres]
    simp [List.filter_cons]

theorem lastCall_operations (k : Nat) (x : Execution α ε) :
    (x.after (.allowPrimaryCall :: (List.range k).flatMap (c.retriedCalls q) ++ [.primaryOperation])).operations =
      .allowPrimaryCall :: List.replicate (k + 1) .primaryOperation ++ x.operations := by
  rw [Execution.operations_after, List.filter_append, List.filter_cons_of_pos rfl, operations_retriedCalls,
    List.replicate_succ']
  simp [List.filter_cons]

theorem execute_grantedSpec {permit : CircuitPermit} {k : Nat} (h : B.allowPrimaryCall = .ok permit)
    (hk : c.Last q k) : GrantedSpec B q permit k (c.execute B q) := by
  have htr := operations_transitionCalls q
  rw [execute_granted h hk]
  unfold GrantedSpec lastCall
  simp only [lastCall_operations c q k, Execution.after_result]
  cases hp : q.primaryOperation k with
  | ok value => simp [primaryReturned, Execution.operations, htr, List.filter_cons]
  | error exc =>
    cases hf : q.fallbackOperation with
    | none => simp [primaryRaised, hf, Execution.operations, htr, List.filter_cons]
    | some answer =>
      by_cases hsafe : q.isFallbackSafe exc = true
      · obtain ⟨hops, hres⟩ := runFallback_spec B q hf (k + 1)
        simp [primaryRaised, hf, hsafe, Execution.operations_after, hops, hres, htr,
          List.filter_cons]
      · simp [primaryRaised, hf, hsafe, Execution.operations, htr, List.filter_cons]

/-! ## The exceptions of the operations that leave it -/

theorem refused_raises {err : CircuitOpenError} {exc : ε} (h : B.allowPrimaryCall = .error err) :
    (c.execute B q).result = .error (.raised exc) ↔ q.fallbackOperation = some (.error exc) := by
  rw [execute_refused h, Execution.after_result]
  unfold runFallbackOrRaise
  cases q.fallbackOperation with
  | none => simp
  | some answer => cases answer <;> simp

theorem granted_raises {permit : CircuitPermit} {k : Nat} {exc : ε} (h : B.allowPrimaryCall = .ok permit)
    (hk : c.Last q k) : (c.execute B q).result = .error (.raised exc) ↔
      ∃ last, q.primaryOperation k = .error last ∧
        if q.fallbackOperation.isSome ∧ q.isFallbackSafe last = true then
          q.fallbackOperation = some (.error exc)
        else last = exc := by
  rw [execute_granted h hk, Execution.after_result]
  unfold lastCall
  cases hp : q.primaryOperation k with
  | ok value => simp [primaryReturned]
  | error last =>
    have hinj : ∀ e, (Except.error last : Except ε α) = .error e ↔ e = last := fun e =>
      ⟨fun h => (Except.error.inj h).symm, fun h => h ▸ rfl⟩
    simp only [hinj, exists_eq_left, primaryRaised, Execution.after_result, Bool.and_eq_true]
    by_cases hf : q.fallbackOperation.isSome = true ∧ q.isFallbackSafe last = true
    · rw [if_pos hf, if_pos hf]
      unfold runFallbackOrRaise
      obtain ⟨answer, ha⟩ := Option.isSome_iff_exists.mp hf.1
      rw [ha]
      cases answer <;> simp
    · rw [if_neg hf, if_neg hf]
      simp

/-- The operation that an outcome names as its origin returned its value. -/
def Origin (outcome : ResilienceOutcome α) : Prop :=
  match outcome.route with
  | .primary => ∃ k, outcome.primaryAttempts = k + 1 ∧ q.primaryOperation k = .ok outcome.value
  | .fallback => q.fallbackOperation = some (.ok outcome.value)

theorem result_ok {outcome : ResilienceOutcome α} (h : (c.execute B q).result = .ok outcome) :
    outcome.requestId = q.requestId ∧ Origin q outcome := by
  have hfallback : ∀ n, (runFallbackOrRaise B q n).result = .ok outcome →
      outcome.requestId = q.requestId ∧ Origin q outcome := by
    intro n hr
    unfold runFallbackOrRaise at hr
    cases hf : q.fallbackOperation with
    | none => rw [hf] at hr; cases hr
    | some answer =>
      rw [hf] at hr
      cases answer with
      | error exc => cases hr
      | ok value =>
        obtain rfl := Except.ok.inj hr
        exact ⟨rfl, hf⟩
  cases hallow : B.allowPrimaryCall with
  | error err =>
    rw [execute_refused hallow] at h
    exact hfallback 0 h
  | ok permit =>
    obtain ⟨k, hk⟩ := exists_last (c := c) (q := q)
    rw [execute_granted hallow hk, Execution.after_result] at h
    unfold lastCall at h
    cases hp : q.primaryOperation k with
    | ok value =>
      rw [hp] at h
      obtain rfl := Except.ok.inj h
      exact ⟨rfl, k, rfl, hp⟩
    | error exc =>
      rw [hp] at h
      simp only [primaryRaised, Execution.after_result] at h
      by_cases hsafe : (q.fallbackOperation.isSome && q.isFallbackSafe exc) = true
      · rw [if_pos hsafe] at h
        exact hfallback _ h
      · rw [if_neg hsafe] at h
        cases h

/-! ## The whole of `execute` -/

/-- A refusal costs no call and no record. A permit is used for the primary's
calls up to its last one, each before it raising what may be retried, and is
recorded once. -/
theorem execute_spec :
    match B.allowPrimaryCall with
    | .error _ => RefusedSpec B q (c.execute B q)
    | .ok permit => ∃ k ≤ c.retryAttempts, c.Last q k ∧
        (∀ i < k, ∃ exc, q.primaryOperation i = .error exc ∧ q.isRetrySafe exc = true) ∧
        GrantedSpec B q permit k (c.execute B q) := by
  cases h : B.allowPrimaryCall with
  | error err => exact execute_refusedSpec c B q h
  | ok permit =>
    obtain ⟨k, hk⟩ := exists_last (c := c) (q := q)
    exact ⟨k, hk.le, hk, fun i hi => hk.retried hi, execute_grantedSpec c B q h hk⟩

end ResilienceController

end

end InferenceService
