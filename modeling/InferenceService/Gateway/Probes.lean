import InferenceService.Breaker.RedisRun
import InferenceService.Gateway.Execute
import Mathlib.Algebra.Order.Floor.Semifield
import Mathlib.Tactic.Linarith
import Mathlib.Tactic.Positivity
import Mathlib.Tactic.Ring

/-!
# Gateways and the time their probes take

Any number of calls of `execute` on one Redis circuit breaker, with a clock in
seconds. Redis answers at once; time passes in the primary's attempts and in
the back-offs between them.
-/

namespace InferenceService

/-- The default of `RESILIENCE_REDIS_PROBE_LEASE_MS`. -/
def defaultProbeLeaseMs (timeoutSeconds : ℚ) : Int :=
  max 30000 (Python.trunc (timeoutSeconds * 1000) + 10000)

theorem defaultProbeLeaseMs_pos (timeoutSeconds : ℚ) : 0 < defaultProbeLeaseMs timeoutSeconds :=
  lt_of_lt_of_le (by decide) (le_max_left _ _)

structure ProbeSettings where
  controller : ResilienceController
  timeoutSeconds : ℚ
  failureThreshold : Nat
  recoveryTimeoutMs : Nat
  timeout_pos : 0 < timeoutSeconds
  failureThreshold_pos : 0 < failureThreshold
  recoveryTimeoutMs_pos : 0 < recoveryTimeoutMs

namespace ProbeSettings
variable (p : ProbeSettings)

def breaker : RedisBreakerConfig where
  failureThreshold := p.failureThreshold
  recoveryTimeoutMs := p.recoveryTimeoutMs
  probeLeaseMs := (defaultProbeLeaseMs p.timeoutSeconds).toNat
  failureThreshold_pos := p.failureThreshold_pos
  recoveryTimeoutMs_pos := p.recoveryTimeoutMs_pos
  probeLeaseMs_pos := Int.lt_toNat.mpr (defaultProbeLeaseMs_pos _)

/-- The longest primary phase: every attempt and every back-off between them. -/
def primarySeconds : ℚ :=
  (p.controller.retryAttempts + 1) * p.timeoutSeconds +
    p.controller.retryAttempts * p.controller.retryBackoffSeconds

end ProbeSettings

/-! ## The primary phase of `execute` -/

section
variable {α ε : Type} (p : ProbeSettings) (B : BreakerAnswers) (q : ExecuteRequest α ε)

/-- How long a call of the primary phase lasts at most; the other calls are
answered at once or come after it. -/
def ProbeSettings.callSeconds : ExecuteCall ε → ℚ
  | .primaryOperation => p.timeoutSeconds
  | .sleep seconds => seconds
  | _ => 0

def ProbeSettings.phaseSeconds (calls : List (ExecuteCall ε)) : ℚ := (calls.map p.callSeconds).sum

theorem phaseSeconds_append (xs ys : List (ExecuteCall ε)) :
    p.phaseSeconds (xs ++ ys) = p.phaseSeconds xs + p.phaseSeconds ys := by
  simp [ProbeSettings.phaseSeconds]

theorem phaseSeconds_eq_zero {calls : List (ExecuteCall ε)} (h : ∀ call ∈ calls, p.callSeconds call = 0) :
    p.phaseSeconds calls = 0 := by
  induction calls with
  | nil => rfl
  | cons call calls ih =>
    have hcall := h call List.mem_cons_self
    have hrest := ih fun c hc => h c (List.mem_cons_of_mem _ hc)
    unfold ProbeSettings.phaseSeconds at hrest ⊢
    rw [List.map_cons, List.sum_cons, hcall, hrest, add_zero]

theorem phaseSeconds_retried {exc : ε} {i : Nat} (h : q.primaryOperation i = .error exc) :
    p.phaseSeconds (p.controller.retriedCalls q i) = p.timeoutSeconds + p.controller.retryBackoffSeconds := by
  have hretry : p.phaseSeconds (q.retryCalls exc) = 0 := by
    apply phaseSeconds_eq_zero
    unfold ExecuteRequest.retryCalls
    split_ifs <;> simp [ProbeSettings.callSeconds]
  have hsleep : p.phaseSeconds (p.controller.sleepCalls : List (ExecuteCall ε)) =
      p.controller.retryBackoffSeconds := by
    unfold ResilienceController.sleepCalls
    split_ifs with hb
    · simp [ProbeSettings.phaseSeconds, ProbeSettings.callSeconds]
    · exact le_antisymm p.controller.backoff_nonneg (not_lt.mp hb)
  unfold ResilienceController.retriedCalls
  rw [h]
  show p.phaseSeconds ([.primaryOperation] ++ (q.retryCalls exc ++ p.controller.sleepCalls)) = _
  rw [phaseSeconds_append, phaseSeconds_append, hretry, hsleep, zero_add]
  simp [ProbeSettings.phaseSeconds, ProbeSettings.callSeconds]

theorem phaseSeconds_lastCall (permit : CircuitPermit) (k : Nat) :
    p.phaseSeconds (ResilienceController.lastCall B q permit k).calls = 0 := by
  have htransition : ∀ t, ∀ call ∈ q.transitionCalls t, p.callSeconds call = 0 := by
    intro t
    unfold ExecuteRequest.transitionCalls
    cases t with
    | none => exact fun _ h => absurd h List.not_mem_nil
    | some t => dsimp only; split_ifs <;> simp [ProbeSettings.callSeconds]
  have hfallback : ∀ r, ∀ call ∈ q.fallbackCalls r, p.callSeconds call = 0 := by
    intro r
    unfold ExecuteRequest.fallbackCalls
    split_ifs <;> simp [ProbeSettings.callSeconds]
  have hrun : ∀ n, ∀ call ∈ (ResilienceController.runFallbackOrRaise B q n).calls, p.callSeconds call = 0 := by
    intro n call hc
    unfold ResilienceController.runFallbackOrRaise at hc
    cases hf : q.fallbackOperation with
    | none =>
      rw [hf] at hc
      obtain rfl := List.mem_singleton.mp hc
      rfl
    | some answer =>
      rw [hf] at hc
      cases answer with
      | error exc =>
        rcases List.mem_cons.mp hc with rfl | hc
        · rfl
        · exact hfallback _ call hc
      | ok value =>
        rcases List.mem_append.mp hc with hc | hc
        · rcases List.mem_cons.mp hc with rfl | hc
          · rfl
          · exact hfallback _ call hc
        · obtain rfl := List.mem_singleton.mp hc
          rfl
  apply phaseSeconds_eq_zero
  intro call hc
  unfold ResilienceController.lastCall at hc
  cases hp : q.primaryOperation k with
  | ok value =>
    rw [hp] at hc
    rcases List.mem_cons.mp hc with rfl | hc
    · rfl
    · exact htransition _ call hc
  | error exc =>
    rw [hp] at hc
    rcases List.mem_append.mp hc with hc | hc
    · rcases List.mem_cons.mp hc with rfl | hc
      · rfl
      · exact htransition _ call hc
    · split_ifs at hc
      · exact hrun _ call hc
      · exact absurd hc List.not_mem_nil

/-- A granted call of `execute` is in its primary phase for that long at most. -/
theorem execute_phaseSeconds {permit : CircuitPermit} (h : B.allowPrimaryCall = .ok permit) :
    p.phaseSeconds (p.controller.execute B q).calls ≤ p.primarySeconds := by
  obtain ⟨k, hk⟩ := ResilienceController.exists_last (c := p.controller) (q := q)
  have hretried : ∀ n ≤ k, p.phaseSeconds ((List.range n).flatMap (p.controller.retriedCalls q)) =
      n * (p.timeoutSeconds + p.controller.retryBackoffSeconds) := by
    intro n
    induction n with
    | zero => simp [ProbeSettings.phaseSeconds]
    | succ n ih =>
      intro hn
      obtain ⟨exc, hexc, _⟩ := hk.retried hn
      rw [List.range_succ, List.flatMap_append, phaseSeconds_append, ih (Nat.le_of_succ_le hn), List.flatMap_singleton,
        phaseSeconds_retried p q hexc]
      push_cast
      ring
  have hcalls : p.phaseSeconds (p.controller.execute B q).calls =
      k * (p.timeoutSeconds + p.controller.retryBackoffSeconds) + p.timeoutSeconds := by
    rw [ResilienceController.execute_granted h hk, Execution.after_calls, phaseSeconds_append,
      phaseSeconds_lastCall p B q, phaseSeconds_append]
    show p.phaseSeconds ([.allowPrimaryCall] ++ (List.range k).flatMap (p.controller.retriedCalls q)) + _ + 0 = _
    rw [phaseSeconds_append, hretried k (le_refl k)]
    simp [ProbeSettings.phaseSeconds, ProbeSettings.callSeconds]
  have hle : (k : ℚ) ≤ p.controller.retryAttempts := by exact_mod_cast hk.le
  have hsum : 0 ≤ p.timeoutSeconds + p.controller.retryBackoffSeconds :=
    add_nonneg (le_of_lt p.timeout_pos) p.controller.backoff_nonneg
  have := mul_le_mul_of_nonneg_right hle hsum
  rw [hcalls]
  unfold ProbeSettings.primarySeconds
  linarith

end

/-! ## The system -/

/-- A call of `execute` in its primary phase: since when it is in its present
attempt or, after a failed one, in its back-off. -/
structure PrimaryRun where
  permit : CircuitPermit
  grantedAt : ℚ
  primaryAttempts : Nat
  sleeping : Bool
  since : ℚ
deriving DecidableEq

namespace PrimaryRun
variable (p : ProbeSettings) (now : ℚ) (run : PrimaryRun)

def HalfOpen : Prop := run.permit.state = .halfOpen

instance : Decidable run.HalfOpen := inferInstanceAs (Decidable (_ = _))

def deadline : ℚ :=
  run.since + if run.sleeping then p.controller.retryBackoffSeconds else p.timeoutSeconds

def nextAttempt : PrimaryRun :=
  { run with primaryAttempts := run.primaryAttempts + 1, sleeping := false, since := now }

def retried : PrimaryRun :=
  if 0 < p.controller.retryBackoffSeconds then { run with sleeping := true, since := now }
  else run.nextAttempt now

end PrimaryRun

structure GatewaySys where
  now : ℚ
  breaker : BreakerSys
  runs : List PrimaryRun

inductive GatewayAct where
  | tick (seconds : ℚ)
  | allow (token : String)
  | retry (i : Nat)
  | wake (i : Nat)
  | finish (i : Nat) (success : Bool)
  | crash (i : Nat)

def microsAt (now : ℚ) : Nat := ⌊1000000 * now⌋₊

def recordAct (success : Bool) (permit : CircuitPermit) : BreakerAct :=
  if success then .success permit else .failure permit

namespace GatewaySys
variable (s : GatewaySys)

def nowMs : Nat := ⌊1000 * s.now⌋₊

def step (p : ProbeSettings) : GatewayAct → Option GatewaySys
  | .tick seconds =>
    if 0 ≤ seconds ∧ ∀ run ∈ s.runs, s.now + seconds ≤ run.deadline p then
      some { s with now := s.now + seconds, breaker := { s.breaker with now := microsAt (s.now + seconds) } }
    else none
  | .allow token => do
    let breaker ← (redisBreaker p.breaker).step s.breaker (.allow token)
    let granted := (grantOf p.breaker s.breaker (.allow token)).toList
    some { s with breaker, runs := s.runs ++ granted.map fun permit => ⟨permit, s.now, 1, false, s.now⟩ }
  | .retry i => do
    let run ← s.runs[i]?
    if run.sleeping = false ∧ run.primaryAttempts ≤ p.controller.retryAttempts then
      some { s with runs := s.runs.set i (run.retried p s.now) }
    else none
  | .wake i => do
    let run ← s.runs[i]?
    if run.sleeping ∧ s.now = run.deadline p then some { s with runs := s.runs.set i (run.nextAttempt s.now) }
    else none
  | .finish i success => do
    let run ← s.runs[i]?
    if run.sleeping then none
    else do
      let breaker ← (redisBreaker p.breaker).step s.breaker (recordAct success run.permit)
      some { s with breaker, runs := s.runs.eraseIdx i }
  | .crash i => some { s with runs := s.runs.eraseIdx i }

end GatewaySys

def gateways (p : ProbeSettings) : Lts GatewaySys GatewayAct where
  init := ⟨0, (redisBreaker p.breaker).init, []⟩
  step s a := s.step p a

def InProbe (runs : List PrimaryRun) (i : Nat) : Prop := ∃ run, runs[i]? = some run ∧ run.HalfOpen

/-- A half-open phase is the only one, and its record is not discarded for an
expired lease. -/
def ProbeKept (p : ProbeSettings) (s : GatewaySys) (a : GatewayAct) (s' : GatewaySys) : Prop :=
  (∀ i j, InProbe s'.runs i → InProbe s'.runs j → i = j) ∧
    ∀ i success run, a = .finish i success → s.runs[i]? = some run → run.HalfOpen →
      ¬ (⌊1000 * run.grantedAt⌋₊ + p.breaker.probeLeaseMs ≤ s.nowMs ∧
        ¬ s.breaker.store.Accepts s.breaker.now run.permit)

section
variable {p : ProbeSettings} {s s' : GatewaySys} {a : GatewayAct}

theorem nowMs_microsAt (now : ℚ) : nowMs (microsAt now) = ⌊1000 * now⌋₊ := by
  rw [nowMs_eq, microsAt, ← Nat.floor_div_natCast]
  congr 1
  push_cast
  ring

/-! ## The time a phase has taken -/

/-- What the attempts and the back-offs before the present one took at most. -/
def PrimaryRun.spent (p : ProbeSettings) (run : PrimaryRun) : ℚ :=
  ((run.primaryAttempts : ℚ) - 1) * (p.timeoutSeconds + p.controller.retryBackoffSeconds) +
    if run.sleeping then p.timeoutSeconds else 0

structure Timed (p : ProbeSettings) (now : ℚ) (run : PrimaryRun) : Prop where
  granted_nonneg : 0 ≤ run.grantedAt
  attempts_le : run.primaryAttempts ≤ p.controller.retryAttempts + 1
  sleeping_le : run.sleeping = true → run.primaryAttempts ≤ p.controller.retryAttempts
  since_le : run.since ≤ run.grantedAt + run.spent p
  now_le : now ≤ run.deadline p

theorem Timed.phase {now : ℚ} {run : PrimaryRun} (h : Timed p now run) :
    now ≤ run.grantedAt + p.primarySeconds := by
  have hT := p.timeout_pos
  have hb := p.controller.backoff_nonneg
  have hsince := h.since_le
  have hnow := h.now_le
  have hsum : 0 ≤ p.timeoutSeconds + p.controller.retryBackoffSeconds := by linarith
  unfold PrimaryRun.spent at hsince
  unfold PrimaryRun.deadline at hnow
  unfold ProbeSettings.primarySeconds
  cases hs : run.sleeping with
  | true =>
    simp only [hs, if_true] at hsince hnow
    have hle : (run.primaryAttempts : ℚ) ≤ p.controller.retryAttempts := by exact_mod_cast h.sleeping_le hs
    have := mul_le_mul_of_nonneg_right hle hsum
    linarith
  | false =>
    simp only [hs, Bool.false_eq_true, if_false] at hsince hnow
    have hle : (run.primaryAttempts : ℚ) - 1 ≤ p.controller.retryAttempts := by
      have : (run.primaryAttempts : ℚ) ≤ p.controller.retryAttempts + 1 := by exact_mod_cast h.attempts_le
      linarith
    have := mul_le_mul_of_nonneg_right hle hsum
    linarith

theorem timed_granted {now : ℚ} (h : 0 ≤ now) (permit : CircuitPermit) :
    Timed p now ⟨permit, now, 1, false, now⟩ where
  granted_nonneg := h
  attempts_le := Nat.le_add_left _ _
  sleeping_le := nofun
  since_le := by simp [PrimaryRun.spent]
  now_le := by simpa [PrimaryRun.deadline] using le_of_lt p.timeout_pos

theorem Timed.retried {now : ℚ} {run : PrimaryRun} (h : Timed p now run) (hs : run.sleeping = false)
    (hle : run.primaryAttempts ≤ p.controller.retryAttempts) : Timed p now (run.retried p now) := by
  have hT := p.timeout_pos
  have hsince := h.since_le
  have hnow := h.now_le
  unfold PrimaryRun.spent at hsince
  unfold PrimaryRun.deadline at hnow
  simp only [hs, Bool.false_eq_true, if_false] at hsince hnow
  unfold PrimaryRun.retried
  by_cases hb : 0 < p.controller.retryBackoffSeconds
  · rw [if_pos hb]
    refine ⟨h.granted_nonneg, h.attempts_le, fun _ => hle, ?_, ?_⟩
    · simp only [PrimaryRun.spent, if_true]
      linarith
    · simp only [PrimaryRun.deadline, if_true]
      linarith
  · rw [if_neg hb]
    have hb0 : p.controller.retryBackoffSeconds = 0 := le_antisymm (not_lt.mp hb) p.controller.backoff_nonneg
    refine ⟨h.granted_nonneg, Nat.succ_le_succ hle, nofun, ?_, ?_⟩
    · simp only [PrimaryRun.spent, PrimaryRun.nextAttempt, Bool.false_eq_true, if_false]
      rw [hb0] at hsince ⊢
      push_cast
      linarith
    · simp only [PrimaryRun.deadline, PrimaryRun.nextAttempt, Bool.false_eq_true, if_false]
      linarith

theorem Timed.woken {now : ℚ} {run : PrimaryRun} (h : Timed p now run) (hs : run.sleeping = true) :
    Timed p now (run.nextAttempt now) := by
  have hT := p.timeout_pos
  have hsince := h.since_le
  have hnow := h.now_le
  unfold PrimaryRun.spent at hsince
  unfold PrimaryRun.deadline at hnow
  simp only [hs, if_true] at hsince hnow
  refine ⟨h.granted_nonneg, Nat.succ_le_succ (h.sleeping_le hs), nofun, ?_, ?_⟩
  · simp only [PrimaryRun.spent, PrimaryRun.nextAttempt, Bool.false_eq_true, if_false]
    push_cast
    linarith
  · simp only [PrimaryRun.deadline, PrimaryRun.nextAttempt, Bool.false_eq_true, if_false]
    linarith

/-! ## The probes of an era -/

/-- No two phases are half-open, and the era is that of the one that is. -/
structure Probes (runs : List PrimaryRun) (e : Era String) : Prop where
  unique : ∀ i j, InProbe runs i → InProbe runs j → i = j
  current : ∀ run ∈ runs, run.HalfOpen → ∃ token, e.phase = .probing token ⌊1000 * run.grantedAt⌋₊ ∧
    run.permit = permitOf (.probe e.version token)

variable {runs : List PrimaryRun} {run run' : PrimaryRun} {e e' : Era String}

theorem probes_none (h : ∀ run ∈ runs, ¬ run.HalfOpen) (e : Era String) : Probes runs e where
  unique i j hi hj := by
    obtain ⟨run, hr, hh⟩ := hi
    exact absurd hh (h run (List.mem_of_getElem? hr))
  current run hr hh := absurd hh (h run hr)

/-- A list whose half-open phases are half-open phases of `runs`, in the same
number or less. -/
theorem Probes.of_embedding (h : Probes runs e) {runs' : List PrimaryRun} (f : Nat → Nat)
    (hf : ∀ i j, f i = f j → i = j)
    (hr : ∀ i run', runs'[i]? = some run' → ∃ run, runs[f i]? = some run ∧ run'.permit = run.permit ∧
      run'.grantedAt = run.grantedAt) : Probes runs' e where
  unique i j hi hj := by
    obtain ⟨ri, hi, hhi⟩ := hi
    obtain ⟨rj, hj, hhj⟩ := hj
    obtain ⟨run, hrun, hp, _⟩ := hr i ri hi
    obtain ⟨run', hrun', hp', _⟩ := hr j rj hj
    refine hf i j (h.unique (f i) (f j) ⟨run, hrun, ?_⟩ ⟨run', hrun', ?_⟩)
    · unfold PrimaryRun.HalfOpen; rw [← hp]; exact hhi
    · unfold PrimaryRun.HalfOpen; rw [← hp']; exact hhj
  current run' hmem hh := by
    obtain ⟨i, hi⟩ := List.mem_iff_getElem?.mp hmem
    obtain ⟨run, hrun, hp, hg⟩ := hr i run' hi
    rw [hp, hg]
    refine h.current run (List.mem_of_getElem? hrun) ?_
    unfold PrimaryRun.HalfOpen; rw [← hp]; exact hh

theorem Probes.set (h : Probes runs e) {i : Nat} (hi : runs[i]? = some run) (hp : run'.permit = run.permit)
    (hg : run'.grantedAt = run.grantedAt) : Probes (runs.set i run') e := by
  refine h.of_embedding id (fun _ _ => id) ?_
  intro j r hj
  rw [List.getElem?_set] at hj
  by_cases hij : i = j
  · subst hij
    have hlt := (List.getElem?_eq_some_iff.mp hi).1
    simp only [if_true, hlt, Option.some.injEq] at hj
    exact ⟨run, hi, by rw [← hj, hp], by rw [← hj, hg]⟩
  · rw [if_neg hij] at hj
    exact ⟨r, hj, rfl, rfl⟩

def eraseFrom (i j : Nat) : Nat := if j < i then j else j + 1

theorem eraseFrom_inj {i j k : Nat} (h : eraseFrom i j = eraseFrom i k) : j = k := by
  unfold eraseFrom at h
  split_ifs at h <;> omega

theorem eraseFrom_ne (i j : Nat) : eraseFrom i j ≠ i := by
  unfold eraseFrom
  split_ifs <;> omega

theorem getElem?_eraseFrom (i j : Nat) : (runs.eraseIdx i)[j]? = runs[eraseFrom i j]? := by
  rw [List.getElem?_eraseIdx, eraseFrom]
  split_ifs <;> rfl

theorem Probes.eraseIdx (h : Probes runs e) (i : Nat) : Probes (runs.eraseIdx i) e := by
  refine h.of_embedding (eraseFrom i) (fun _ _ => eraseFrom_inj) ?_
  intro j r hj
  rw [getElem?_eraseFrom] at hj
  exact ⟨r, hj, rfl, rfl⟩

theorem Probes.none_left (h : Probes runs e) {i : Nat} (hi : runs[i]? = some run) (hh : run.HalfOpen) :
    ∀ r ∈ runs.eraseIdx i, ¬ r.HalfOpen := by
  intro r hr hhr
  obtain ⟨j, hj⟩ := List.mem_iff_getElem?.mp hr
  rw [getElem?_eraseFrom] at hj
  exact eraseFrom_ne i j (h.unique _ _ ⟨r, hj, hhr⟩ ⟨run, hi, hh⟩)

theorem Probes.append_closed (h : Probes runs e) (hh : ¬ run.HalfOpen) : Probes (runs ++ [run]) e := by
  have hlast : ∀ (i : Nat) (r : PrimaryRun), (runs ++ [run])[i]? = some r → r.HalfOpen → runs[i]? = some r := by
    intro i r hr hhr
    rw [List.getElem?_append] at hr
    split_ifs at hr
    · exact hr
    · obtain rfl := List.mem_singleton.mp (List.mem_of_getElem? hr)
      exact absurd hhr hh
  refine ⟨?_, ?_⟩
  · rintro i j ⟨ri, hi, hhi⟩ ⟨rj, hj, hhj⟩
    exact h.unique i j ⟨ri, hlast i ri hi hhi, hhi⟩ ⟨rj, hlast j rj hj hhj, hhj⟩
  · intro r hr hhr
    rcases List.mem_append.mp hr with hr | hr
    · exact h.current r hr hhr
    · obtain rfl := List.mem_singleton.mp hr
      exact absurd hhr hh

theorem probes_append_probe (h : ∀ r ∈ runs, ¬ r.HalfOpen) {v : Nat} {token : String}
    (hp : run.permit = permitOf (.probe v token)) :
    Probes (runs ++ [run]) ⟨v, .probing token ⌊1000 * run.grantedAt⌋₊⟩ := by
  have hlast : ∀ i, InProbe (runs ++ [run]) i → i = runs.length := by
    rintro i ⟨r, hr, hhr⟩
    rw [List.getElem?_append] at hr
    split_ifs at hr with hlt
    · exact absurd hhr (h r (List.mem_of_getElem? hr))
    · have := (List.getElem?_eq_some_iff.mp hr).1
      rw [List.length_singleton] at this
      omega
  refine ⟨fun i j hi hj => (hlast i hi).trans (hlast j hj).symm, ?_⟩
  intro r hr hhr
  rcases List.mem_append.mp hr with hr | hr
  · exact absurd hhr (h r hr)
  · obtain rfl := List.mem_singleton.mp hr
    exact ⟨token, rfl, hp⟩

end

end InferenceService
