import InferenceService.Breaker.RedisRun

/-!
# Trip point and open window

The stored failure count of a closed era is the number of its failures since
its last success, the failure that reaches the threshold opens the breaker,
and an open breaker stays shut until its window is over.
-/

namespace InferenceService

/-- The permit was granted by the closed era of version `v`. -/
def CircuitPermit.OfClosedEra (v : Nat) (p : CircuitPermit) : Prop := p.state = .closed ∧ p.version.getD 0 = v

instance (v : Nat) (p : CircuitPermit) : Decidable (p.OfClosedEra v) := inferInstanceAs (Decidable (_ ∧ _))

/-- The failures with permits of the closed era `v` since the last success
with such a permit; the log has the most recent event first. -/
def failuresSince (v : Nat) : List BreakerEvent → Nat
  | [] => 0
  | .failure p :: log => if p.OfClosedEra v then failuresSince v log + 1 else failuresSince v log
  | .success p :: log => if p.OfClosedEra v then 0 else failuresSince v log
  | .granted _ _ :: log => failuresSince v log

theorem failuresSince_eq_zero {v : Nat} {log : List BreakerEvent}
    (h : ∀ p, .failure p ∈ log → ¬ p.OfClosedEra v) : failuresSince v log = 0 := by
  induction log with
  | nil => rfl
  | cons ev log ih =>
    have ih := ih fun p hp => h p (List.mem_cons_of_mem _ hp)
    cases ev with
    | granted p t => exact ih
    | success p =>
      unfold failuresSince
      rw [ih, ite_self]
    | failure p =>
      unfold failuresSince
      rw [if_neg (h p List.mem_cons_self)]
      exact ih

section
variable (C : RedisBreakerConfig)

def CountInv (s : BreakerSys) (e : Era String) : Prop :=
  ∀ f, e.phase = .closed f → f = failuresSince e.version s.log ∧ f < C.failureThreshold

variable {C} {s s' : BreakerSys} {e e' : Era String} {a : BreakerAct}

theorem ofClosedEra_iff {p : CircuitPermit} {v : Nat} : p.OfClosedEra v ↔ p.pass = some (.normal v) := by
  unfold CircuitPermit.OfClosedEra CircuitPermit.pass
  cases p.state <;> simp

theorem failuresSince_future (hl : Linked s e) {v : Nat} (hv : e.version < v) :
    failuresSince v s.log = 0 := by
  apply failuresSince_eq_zero
  intro p hp hera
  obtain ⟨t, hg⟩ := hl.settled p (.inr hp)
  obtain ⟨q, rfl, _, hle, _⟩ := hl.granted p t hg
  rw [ofClosedEra_iff, pass_permitOf, Option.some.injEq] at hera
  subst hera
  exact absurd hle (Nat.not_le.mpr hv)

theorem not_ofClosedEra_of_stale (hh : s.store.Holds C e) {p : CircuitPermit} {f : Nat}
    (hs : ¬ s.store.Accepts s.now p) (hp : e.phase = .closed f) : ¬ p.OfClosedEra e.version := by
  intro hera
  apply hs
  exact (accepts_iff hh).mpr ⟨_, ofClosedEra_iff.mp hera, rfl, by rw [hp]; rfl⟩

theorem countInv_step (hh : s.store.Holds C e) (hl : Linked s e) (hi : CountInv C s e)
    (hm : Moves C s e a s' e') : CountInv C s' e' := by
  intro f hf
  cases hm with
  | tick us => exact hi f hf
  | refused => exact hi f hf
  | normal => exact hi f hf
  | probe => cases hf
  | staleSuccess _ hs _ =>
    unfold failuresSince
    rw [if_neg (not_ofClosedEra_of_stale hh hs hf)]
    exact hi f hf
  | staleFailure _ hs _ =>
    unfold failuresSince
    rw [if_neg (not_ofClosedEra_of_stale hh hs hf)]
    exact hi f hf
  | @success p q _ _ _ hq hc _ =>
    cases q with
    | normal v =>
      obtain ⟨rfl, _⟩ := hc
      obtain rfl := Phase.closed.inj hf
      refine ⟨?_, C.failureThreshold_pos⟩
      exact (if_pos (ofClosedEra_iff.mpr hq)).symm
    | probe v tok =>
      obtain rfl := Phase.closed.inj hf
      refine ⟨?_, C.failureThreshold_pos⟩
      show 0 = failuresSince (e.version + 1) (.success p :: s.log)
      unfold failuresSince
      rw [failuresSince_future hl (Nat.lt_succ_self _), ite_self]
  | @failure p q _ _ _ hq hc _ =>
    rcases Era.fail_cases C.policy s.nowMs e q with ⟨v, _, _, he⟩ | ⟨v, rfl, hlt, he⟩ | ⟨v, tok, _, he⟩
    · rw [he] at hf; cases hf
    · obtain ⟨rfl, hclosed⟩ := hc
      obtain ⟨f', hp⟩ := Era.closed_of_current (P := C.policy) (t := s.nowMs) (show e.Current _ _ _ from ⟨rfl, hclosed⟩)
      have hcount : e.failures = f' := by simp [Era.failures, hp]
      rw [he] at hf ⊢
      obtain rfl := Phase.closed.inj hf
      refine ⟨?_, hlt⟩
      show e.failures + 1 = failuresSince e.version (.failure p :: s.log)
      unfold failuresSince
      rw [if_pos (ofClosedEra_iff.mpr hq), hcount, ← (hi f' hp).1]
    · rw [he] at hf; cases hf

theorem reachable_countInv (hs : (redisBreaker C).Reachable s) :
    ∃ e, s.store.Holds C e ∧ Linked s e ∧ CountInv C s e := by
  refine reachable_era ?_ (fun _ _ _ _ _ => countInv_step) hs
  intro f hf
  obtain rfl := Phase.closed.inj hf
  exact ⟨rfl, C.failureThreshold_pos⟩

/-! ## The step that opens -/

theorem phase_of_closed (hh : s.store.Holds C e) (hs : s.state = "closed") : ∃ f, e.phase = .closed f := by
  have hstate : e.phase.state = .closed := CircuitState.value_inj.mp (hh.state.symm.trans hs)
  cases hp : e.phase with
  | closed f => exact ⟨f, rfl⟩
  | opened since => rw [hp] at hstate; cases hstate
  | probing tok since => rw [hp] at hstate; cases hstate

theorem openedAt_of_opened (hh : s.store.Holds C e) {t : Nat} (hp : e.phase = .opened t) :
    s.store.circuit.hgetOpenedAtMs = t := by
  have hf := hh.fields
  rw [hp] at hf
  exact hf.1

theorem opened_moves {t : Nat} (hp : e.phase = .opened t) (hm : Moves C s e a s' e') :
    (e' = e ∧ grantOf C s a = none ∧ s'.store = s.store) ∨
      (t + C.recoveryTimeoutMs ≤ s.nowMs ∧ e'.phase.state = .halfOpen) := by
  have hcur : ∀ q, ¬ e.Current C.policy s.nowMs q := by
    intro q hc
    cases q with
    | normal v => rw [Era.Current, hp] at hc; cases hc.2
    | probe v tok => rw [Era.Current, hp] at hc; obtain ⟨_, _, hq, _⟩ := hc; cases hq
  cases hm with
  | tick us => exact .inl ⟨rfl, rfl, rfl⟩
  | refused _ _ _ hr => exact .inl ⟨rfl, hr, rfl⟩
  | normal _ hclosed _ => rw [hp] at hclosed; cases hclosed
  | probe _ _ _ ht _ =>
    have hgate : e.gate C.policy = t + C.recoveryTimeoutMs := by simp [Era.gate, hp]
    exact .inr ⟨hgate ▸ ht, rfl⟩
  | staleSuccess => exact .inl ⟨rfl, rfl, rfl⟩
  | staleFailure => exact .inl ⟨rfl, rfl, rfl⟩
  | success _ _ _ hc _ => exact absurd hc (hcur _)
  | failure _ _ _ hc _ => exact absurd hc (hcur _)

theorem opens_now (ho : e.phase.state ≠ .open) (ho' : e'.phase.state = .open) (hm : Moves C s e a s' e') :
    e'.phase = .opened s.nowMs ∧ s'.nowMs = s.nowMs := by
  cases hm with
  | @success p q => cases q <;> cases ho'
  | @failure p q =>
    rcases Era.fail_cases C.policy s.nowMs e q with ⟨v, _, _, he⟩ | ⟨v, _, _, he⟩ | ⟨v, tok, _, he⟩
    · exact ⟨by rw [he], rfl⟩
    · rw [he] at ho'; cases ho'
    · exact ⟨by rw [he], rfl⟩
  | probe => cases ho'
  | _ => exact absurd ho' ho

theorem closed_moves {f : Nat} (hh : s.store.Holds C e) (hi : CountInv C s e) (hp : e.phase = .closed f)
    (hm : Moves C s e a s' e') :
    e'.phase.state = .open ↔ ∃ p, a = .failure p ∧ p.OfClosedEra e.version ∧
      failuresSince e.version s.log + 1 = C.failureThreshold := by
  obtain ⟨hcount, hlt⟩ := hi f hp
  constructor
  · intro ho'
    cases hm with
    | @success p q => cases q <;> cases ho'
    | probe => cases ho'
    | @failure p q _ _ _ hq hc _ =>
      rcases Era.fail_cases C.policy s.nowMs e q with ⟨v, rfl, hle, he⟩ | ⟨v, _, _, he⟩ | ⟨v, tok, rfl, he⟩
      · obtain ⟨rfl, _⟩ := hc
        refine ⟨p, rfl, ofClosedEra_iff.mpr hq, ?_⟩
        rw [Era.failures, hp, policy_threshold] at hle
        simp only at hle
        omega
      · rw [he] at ho'; cases ho'
      · obtain ⟨_, _, hprobe, _⟩ := hc
        rw [hp] at hprobe; cases hprobe
    | _ => rw [hp] at ho'; cases ho'
  · rintro ⟨p, ha, hera, hth⟩
    have hq := ofClosedEra_iff.mp hera
    have hc : e.Current C.policy s.nowMs (.normal e.version) := ⟨rfl, by rw [hp]; rfl⟩
    subst ha
    cases hm with
    | staleFailure _ hs _ => exact absurd hera (not_ofClosedEra_of_stale hh hs hp)
    | @failure p q _ _ _ hq' hc' _ =>
      rw [hq, Option.some.injEq] at hq'
      subst hq'
      have hle : C.policy.threshold ≤ e.failures + 1 := by
        rw [Era.failures, hp, policy_threshold]
        simp only
        omega
      rw [Era.fail_trips hle]
      rfl

/-! ## The open window -/

def Shut (C : RedisBreakerConfig) (t : Nat) (s : BreakerSys) (e : Era String) : Prop :=
  s.nowMs < t + C.recoveryTimeoutMs → e.phase = .opened t

theorem shut_step {t : Nat} (hi : Shut C t s e) (hm : Moves C s e a s' e') : Shut C t s' e' := by
  intro ht
  have ht' : s.nowMs < t + C.recoveryTimeoutMs := Nat.lt_of_le_of_lt hm.now_le ht
  rcases opened_moves (hi ht') hm with ⟨rfl, _⟩ | ⟨hover, _⟩
  · exact hi ht'
  · exact absurd ht' (Nat.not_lt.mpr hover)

theorem openedAt_kept {t : Nat} : ∀ (as : List BreakerAct) {s : BreakerSys} {e : Era String},
    s.store.Holds C e → e.phase = .opened t →
    (redisBreaker C).AllSteps (fun _ _ s' => s'.state = "open") s as → (redisBreaker C).runFrom s as = some s' →
    s'.store.circuit.hgetOpenedAtMs = t := by
  intro as
  induction as with
  | nil =>
    intro s e hh hp _ hr
    simp only [Lts.runFrom_nil, Option.some.injEq] at hr
    subst hr
    exact openedAt_of_opened hh hp
  | cons a as ih =>
    intro s e hh hp hall hr
    obtain ⟨u, hu, hr⟩ := (redisBreaker C).runFrom_cons_iff.mp hr
    obtain ⟨hopen, hall⟩ := hall u hu
    obtain ⟨e', hh', hm⟩ := step_moves hh hu
    have hp' : e'.phase = .opened t := by
      rcases opened_moves hp hm with ⟨rfl, _⟩ | ⟨_, hhalf⟩
      · exact hp
      · rw [BreakerSys.state, hh'.state, hhalf] at hopen
        exact absurd hopen (by decide)
    exact ih hh' hp' hall hr

end

section
variable (C : RedisBreakerConfig)

theorem exact_trip {s : BreakerSys} (hs : (redisBreaker C).Reachable s) :
    (s.state = "closed" →
      s.store.circuit.hgetConsecutiveFailures = failuresSince s.version s.log ∧
        s.store.circuit.hgetConsecutiveFailures < C.failureThreshold) ∧
    (∀ a s', (redisBreaker C).step s a = some s' → s.state = "closed" →
      (s'.state = "open" ↔ ∃ p, a = .failure p ∧ p.OfClosedEra s.version ∧
        failuresSince s.version s.log + 1 = C.failureThreshold)) ∧
    (∀ a s', (redisBreaker C).step s a = some s' → s.state ≠ "open" → s'.state = "open" →
      s'.store.circuit.hgetOpenedAtMs = s.nowMs ∧
      (∀ as u a' p, (redisBreaker C).runFrom s' as = some u → grantOf C u a' = some p →
        (redisBreaker C).step u a' ≠ none → s.nowMs + C.recoveryTimeoutMs ≤ u.nowMs) ∧
      (∀ as u, (redisBreaker C).AllSteps (fun _ _ t => t.state = "open") s' as →
        (redisBreaker C).runFrom s' as = some u → u.store.circuit.hgetOpenedAtMs = s.nowMs)) := by
  obtain ⟨e, hh, hl, hi⟩ := reachable_countInv hs
  refine ⟨?_, ?_, ?_⟩
  · intro hclosed
    obtain ⟨f, hp⟩ := phase_of_closed hh hclosed
    obtain ⟨hcount, hlt⟩ := hi f hp
    have hf := hh.fields
    rw [hp] at hf
    rw [BreakerSys.version, hh.version, hf.1]
    exact ⟨hcount, hlt⟩
  · intro a s' h hclosed
    obtain ⟨f, hp⟩ := phase_of_closed hh hclosed
    obtain ⟨e', hh', hm⟩ := step_moves hh h
    rw [BreakerSys.version, hh.version, ← closed_moves hh hi hp hm, BreakerSys.state, hh'.state]
    exact CircuitState.value_inj (d := .open)
  · intro a s' h ho ho'
    obtain ⟨e', hh', hm⟩ := step_moves hh h
    have hne : e.phase.state ≠ .open := by
      intro hst
      exact ho (hh.state.trans (by rw [hst]; rfl))
    have hst' : e'.phase.state = .open := CircuitState.value_inj.mp (hh'.state.symm.trans ho')
    obtain ⟨hp, hnow⟩ := opens_now hne hst' hm
    refine ⟨openedAt_of_opened hh' hp, ?_, ?_⟩
    · intro as u a' p hr hg hstep
      obtain ⟨e₁, hh₁, _, hshut⟩ := run_era (I := Shut C s.nowMs) (fun _ _ _ _ _ _ _ => shut_step)
        (hs.step h) hr ⟨e', hh', linked_step hl hm, fun _ => hp⟩
      obtain ⟨w, hw⟩ := Option.ne_none_iff_exists'.mp hstep
      obtain ⟨_, _, hm₁⟩ := step_moves hh₁ hw
      refine Nat.not_lt.mp fun hlt => ?_
      rcases opened_moves (hshut hlt) hm₁ with ⟨_, hnone, _⟩ | ⟨hover, _⟩
      · rw [hnone] at hg; cases hg
      · exact absurd hlt (Nat.not_lt.mpr hover)
    · intro as u hall hr
      exact openedAt_kept as hh' hp hall hr

theorem exact_trip_first : tripped.state = "open" ∧ tripped.store.circuit.hgetOpenedAtMs = 0 := by
  obtain ⟨_, htrip, hopen⟩ := exact_trip quickTrip firstGranted_reachable
  have h : tripped.state = "open" :=
    (htrip _ _ tripped_step (by decide)).mpr ⟨firstPermit, rfl, by decide, by decide⟩
  exact ⟨h, (hopen _ _ tripped_step (by decide) h).1⟩

end

end InferenceService
