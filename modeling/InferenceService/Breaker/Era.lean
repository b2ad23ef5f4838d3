import InferenceService.Breaker.Types

/-!
# Eras of a circuit breaker

The purpose of a breaker, apart from any store: a numbered sequence of eras.
A closed era counts failures, an open era remembers when it began, a probing
era has one probe with a token and a lease. An outcome counts only for the
permit of the era it was granted in.
-/

namespace InferenceService

structure Policy where
  threshold : Nat
  window : Nat
  lease : Nat
  threshold_pos : 0 < threshold
  window_pos : 0 < window
  lease_pos : 0 < lease

inductive Phase (τ : Type) where
  | closed (failures : Nat)
  | opened (since : Nat)
  | probing (token : τ) (since : Nat)
deriving DecidableEq, Repr

structure Era (τ : Type) where
  version : Nat
  phase : Phase τ
deriving DecidableEq, Repr

def Phase.state {τ : Type} : Phase τ → CircuitState
  | .closed _ => .closed
  | .opened _ => .open
  | .probing _ _ => .halfOpen

inductive Pass (τ : Type) where
  | normal (version : Nat)
  | probe (version : Nat) (token : τ)
deriving DecidableEq, Repr

inductive Verdict (τ : Type) where
  | pass (p : Pass τ)
  | refuse (retry : Nat)
deriving DecidableEq, Repr

namespace Era

section
variable {τ : Type}

def initial : Era τ := ⟨0, .closed 0⟩

/-- When a probe may be granted: the end of the open window or of the lease. -/
def gate (P : Policy) (e : Era τ) : Nat :=
  match e.phase with
  | .closed _ => 0
  | .opened since => since + P.window
  | .probing _ since => since + P.lease

def acquire (P : Policy) (t : Nat) (token : τ) (e : Era τ) : Verdict τ × Era τ :=
  match e.phase with
  | .closed _ => (.pass (.normal e.version), e)
  | _ =>
    if t < e.gate P then (.refuse (e.gate P - t), e)
    else (.pass (.probe (e.version + 1) token), ⟨e.version + 1, .probing token t⟩)

/-- The pass belongs to this era and, for a probe, its lease has not run out. -/
def Current (P : Policy) (t : Nat) (e : Era τ) : Pass τ → Prop
  | .normal v => v = e.version ∧ e.phase.state = .closed
  | .probe v token => v = e.version ∧ ∃ since, e.phase = .probing token since ∧ t < since + P.lease

def failures (e : Era τ) : Nat :=
  match e.phase with
  | .closed f => f
  | _ => 0

/-- A success with a current pass: the era of a closed breaker forgets its
failures, a probe closes the breaker. -/
def succeed (e : Era τ) : Pass τ → Option CircuitTransition × Era τ
  | .normal _ => (none, ⟨e.version, .closed 0⟩)
  | .probe _ _ => (some ⟨.halfOpen, .closed⟩, ⟨e.version + 1, .closed 0⟩)

/-- A failure with a current pass: the one that reaches the threshold, and a
failed probe, open the breaker. -/
def fail (P : Policy) (t : Nat) (e : Era τ) : Pass τ → Option CircuitTransition × Era τ
  | .normal _ =>
    if P.threshold ≤ e.failures + 1 then (some ⟨.closed, .open⟩, ⟨e.version + 1, .opened t⟩)
    else (none, ⟨e.version, .closed (e.failures + 1)⟩)
  | .probe _ _ => (some ⟨.halfOpen, .open⟩, ⟨e.version + 1, .opened t⟩)

/-! ## What a step can do -/

variable {P : Policy} {t : Nat} {e : Era τ} {token : τ}

theorem acquire_closed {f : Nat} (h : e.phase = .closed f) :
    e.acquire P t token = (.pass (.normal e.version), e) := by
  simp [acquire, h]

theorem acquire_refuse (h : e.phase.state ≠ .closed) (ht : t < e.gate P) :
    e.acquire P t token = (.refuse (e.gate P - t), e) := by
  cases hp : e.phase with
  | closed f => simp [hp, Phase.state] at h
  | opened since => simp [acquire, hp, ht]
  | probing tok since => simp [acquire, hp, ht]

theorem acquire_probe (h : e.phase.state ≠ .closed) (ht : e.gate P ≤ t) :
    e.acquire P t token =
      (.pass (.probe (e.version + 1) token), ⟨e.version + 1, .probing token t⟩) := by
  cases hp : e.phase with
  | closed f => simp [hp, Phase.state] at h
  | opened since => simp [acquire, hp, Nat.not_lt.mpr ht]
  | probing tok since => simp [acquire, hp, Nat.not_lt.mpr ht]

theorem acquire_cases (P : Policy) (t : Nat) (token : τ) (e : Era τ) :
    (∃ f, e.phase = .closed f ∧ e.acquire P t token = (.pass (.normal e.version), e)) ∨
    (e.phase.state ≠ .closed ∧ t < e.gate P ∧ e.acquire P t token = (.refuse (e.gate P - t), e)) ∨
    (e.phase.state ≠ .closed ∧ e.gate P ≤ t ∧ e.acquire P t token =
      (.pass (.probe (e.version + 1) token), ⟨e.version + 1, .probing token t⟩)) := by
  by_cases hc : e.phase.state = .closed
  · cases hp : e.phase with
    | closed f => exact .inl ⟨f, rfl, acquire_closed hp⟩
    | opened since => simp [hp, Phase.state] at hc
    | probing tok since => simp [hp, Phase.state] at hc
  · rcases Nat.lt_or_ge t (e.gate P) with ht | ht
    · exact .inr (.inl ⟨hc, ht, acquire_refuse hc ht⟩)
    · exact .inr (.inr ⟨hc, ht, acquire_probe hc ht⟩)

theorem refusal_pos {r : Nat} (h : (e.acquire P t token).1 = .refuse r) : 0 < r := by
  rcases acquire_cases P t token e with ⟨f, _, ha⟩ | ⟨_, hlt, ha⟩ | ⟨_, _, ha⟩
  · rw [ha] at h; cases h
  · rw [ha, Verdict.refuse.injEq] at h
    omega
  · rw [ha] at h; cases h

theorem acquire_after_refusal {r : Nat} (h : (e.acquire P t token).1 = .refuse r) (t' : Nat) (token' : τ) :
    (∃ p, (e.acquire P t' token').1 = .pass p) ↔ t + r ≤ t' := by
  rcases acquire_cases P t token e with ⟨f, _, ha⟩ | ⟨hc, hlt, ha⟩ | ⟨_, _, ha⟩
  · rw [ha] at h; cases h
  · rw [ha, Verdict.refuse.injEq] at h
    by_cases ht' : t' < e.gate P
    · rw [acquire_refuse hc ht']
      constructor
      · intro ⟨p, hp⟩
        cases hp
      · intro hr
        omega
    · rw [acquire_probe hc (Nat.le_of_not_lt ht')]
      exact ⟨fun _ => by omega, fun _ => ⟨_, rfl⟩⟩
  · rw [ha] at h; cases h

theorem fail_trips (h : P.threshold ≤ e.failures + 1) (v : Nat) :
    e.fail P t (.normal v) = (some ⟨.closed, .open⟩, ⟨e.version + 1, .opened t⟩) := if_pos h

theorem fail_counts (h : e.failures + 1 < P.threshold) (v : Nat) :
    e.fail P t (.normal v) = (none, ⟨e.version, .closed (e.failures + 1)⟩) := if_neg (Nat.not_le.mpr h)

theorem fail_cases (P : Policy) (t : Nat) (e : Era τ) (p : Pass τ) :
    (∃ v, p = .normal v ∧ P.threshold ≤ e.failures + 1 ∧
      e.fail P t p = (some ⟨.closed, .open⟩, ⟨e.version + 1, .opened t⟩)) ∨
    (∃ v, p = .normal v ∧ e.failures + 1 < P.threshold ∧
      e.fail P t p = (none, ⟨e.version, .closed (e.failures + 1)⟩)) ∨
    (∃ v token, p = .probe v token ∧
      e.fail P t p = (some ⟨.halfOpen, .open⟩, ⟨e.version + 1, .opened t⟩)) := by
  cases p with
  | normal v =>
    rcases Nat.lt_or_ge (e.failures + 1) P.threshold with h | h
    · exact .inr (.inl ⟨v, rfl, h, fail_counts h v⟩)
    · exact .inl ⟨v, rfl, h, fail_trips h v⟩
  | probe v token => exact .inr (.inr ⟨v, token, rfl, rfl⟩)

theorem closed_of_current {v : Nat} (h : e.Current P t (.normal v)) : ∃ f, e.phase = .closed f := by
  obtain ⟨_, hs⟩ := h
  cases hp : e.phase with
  | closed f => exact ⟨f, rfl⟩
  | opened since => simp [hp, Phase.state] at hs
  | probing tok since => simp [hp, Phase.state] at hs

end

end Era

end InferenceService
