import InferenceService.Breaker.RedisRun

/-!
# Isolation of eras

The version counts half-open grants and changes of the stored state, an
outcome with an outdated permit is discarded, and the stored state moves only
along the edges of the breaker.
-/

namespace InferenceService

/-- The stored state, version or probe token is not the permit's. -/
def BreakerSys.Outdated (s : BreakerSys) (p : CircuitPermit) : Prop :=
  s.state ≠ p.state.value ∨ s.version ≠ p.version.getD 0 ∨
    (p.state = .halfOpen ∧ s.store.probe.get s.nowMs ≠ some (p.probeToken.getD ""))

def stateMoves : List (String × String) :=
  [("closed", "open"), ("open", "half_open"), ("half_open", "closed"), ("half_open", "open")]

section
variable {C : RedisBreakerConfig} {s s' : BreakerSys} {e e' : Era String} {a : BreakerAct}

theorem not_accepts_of_outdated {p : CircuitPermit} (h : s.Outdated p) : ¬ s.store.Accepts s.now p := by
  intro ⟨h1, h2, _, h4⟩
  rcases h with h | h | ⟨hp, h⟩
  · exact h h1
  · exact h h2
  · exact h (h4 hp)

theorem outdated_discarded {p : CircuitPermit} (h : s.Outdated p) :
    ((recordSuccessCall s.now p s.store).2 = s.store ∧ transitionOf C s (.success p) = .ok none) ∧
      ((recordFailureCall C s.now p s.store).2 = s.store ∧ transitionOf C s (.failure p) = .ok none) := by
  have hacc := not_accepts_of_outdated h
  unfold transitionOf
  simp only [success_rejected hacc, failure_rejected hacc]
  exact ⟨⟨trivial, rfl⟩, trivial, rfl⟩

theorem Moves.versioned (hm : Moves C s e a s' e') :
    (e'.version = e.version ∧ e'.phase.state = e.phase.state ∧
        ∀ p, grantOf C s a = some p → p.state ≠ .halfOpen) ∨
      (e'.version = e.version + 1 ∧
        (e.phase.state ≠ .closed ∧ e'.phase.state = .halfOpen ∧ e.gate C.policy ≤ s.nowMs ∧
            (∃ p, grantOf C s a = some p ∧ p.state = .halfOpen) ∨
          (e.phase.state.value, e'.phase.state.value) ∈ stateMoves ∧ e'.phase.state ≠ .halfOpen ∧
            grantOf C s a = none)) := by
  cases hm with
  | tick us => exact .inl ⟨rfl, rfl, fun p hp => by cases hp⟩
  | refused _ _ _ hr => exact .inl ⟨rfl, rfl, fun p hp => by rw [hr] at hp; cases hp⟩
  | normal _ _ hr =>
    refine .inl ⟨rfl, rfl, fun p hp => ?_⟩
    rw [hr, Option.some.injEq] at hp
    subst hp
    intro h
    cases h
  | probe _ _ hc ht hr => exact .inr ⟨rfl, .inl ⟨hc, rfl, ht, _, hr, rfl⟩⟩
  | staleSuccess => exact .inl ⟨rfl, rfl, fun p hp => by cases hp⟩
  | staleFailure => exact .inl ⟨rfl, rfl, fun p hp => by cases hp⟩
  | @success p q _ _ _ _ hc =>
    cases q with
    | normal v => exact .inl ⟨rfl, hc.2.symm, fun p hp => by cases hp⟩
    | probe v tok =>
      obtain ⟨_, since, hp, _⟩ := hc
      refine .inr ⟨rfl, .inr ⟨?_, (fun h => by cases h), rfl⟩⟩
      rw [hp]
      simp [Era.succeed, Phase.state, CircuitState.value, stateMoves]
  | @failure p q _ _ _ _ hc =>
    rcases Era.fail_cases C.policy s.nowMs e q with ⟨v, rfl, _, hf⟩ | ⟨v, rfl, _, hf⟩ | ⟨v, tok, rfl, hf⟩ <;>
      rw [hf]
    · refine .inr ⟨rfl, .inr ⟨?_, (fun h => by cases h), rfl⟩⟩
      rw [hc.2]
      simp [Phase.state, CircuitState.value, stateMoves]
    · exact .inl ⟨rfl, hc.2.symm, fun p hp => by cases hp⟩
    · obtain ⟨_, since, hp, _⟩ := hc
      refine .inr ⟨rfl, .inr ⟨?_, (fun h => by cases h), rfl⟩⟩
      rw [hp]
      simp [Phase.state, CircuitState.value, stateMoves]

theorem state_of_holds (hh : s.store.Holds C e) : s.state = e.phase.state.value := hh.state

theorem version_of_holds (hh : s.store.Holds C e) : s.version = e.version := hh.version

theorem regrant_expired (hh : s.store.Holds C e) (hs : e.phase.state = .halfOpen)
    (ht : e.gate C.policy ≤ s.nowMs) : ∃ v, s.store.probe = some v ∧ v.expiresAt ≤ s.nowMs := by
  have hf := hh.fields
  cases hp : e.phase with
  | closed f => simp [hp, Phase.state] at hs
  | opened since => simp [hp, Phase.state] at hs
  | probing tok since =>
    rw [hp] at hf
    exact ⟨_, hf, by simpa [Era.gate, hp] using ht⟩

end

section
variable (C : RedisBreakerConfig)

theorem eras_isolated {s s' : BreakerSys} {a : BreakerAct} (hs : (redisBreaker C).Reachable s)
    (h : (redisBreaker C).step s a = some s') :
    (s.version ≤ s'.version ∧
      (s.version < s'.version ↔
        (∃ p, grantOf C s a = some p ∧ p.state = .halfOpen) ∨ s'.state ≠ s.state)) ∧
    (∀ p, a = .success p ∨ a = .failure p → s.Outdated p →
      s'.store = s.store ∧ transitionOf C s a = .ok none) ∧
    ((s'.state = s.state ∨ (s.state, s'.state) ∈ stateMoves) ∧
      (s.state = "half_open" → ∀ p, grantOf C s a = some p →
        ∃ v, s.store.probe = some v ∧ v.expiresAt ≤ s.nowMs)) := by
  obtain ⟨e, hh, _⟩ := reachable_linked hs
  obtain ⟨e', hh', hm⟩ := step_moves hh h
  rw [state_of_holds hh, state_of_holds hh', version_of_holds hh, version_of_holds hh', ne_eq,
    CircuitState.value_inj]
  refine ⟨?_, ?_, ?_⟩
  · rcases hm.versioned with ⟨hv, hst, hg⟩ | ⟨hv, ⟨_, _, _, hg⟩ | ⟨hmove, hnot, _⟩⟩
    · refine ⟨by omega, fun hlt => absurd hlt (by omega), ?_⟩
      intro hor
      rcases hor with ⟨p, hp, hph⟩ | hne
      · exact absurd hph (hg p hp)
      · exact absurd hst hne
    · exact ⟨by omega, fun _ => .inl hg, fun _ => by omega⟩
    · refine ⟨by omega, fun _ => .inr ?_, fun _ => by omega⟩
      intro heq
      rw [heq] at hmove
      cases hp : e.phase.state <;> simp [hp, CircuitState.value, stateMoves] at hmove
  · intro p hp hout
    obtain ⟨⟨h1, h2⟩, h3, h4⟩ := outdated_discarded (C := C) hout
    rcases hp with rfl | rfl
    · simp only [redisBreaker] at h
      split at h
      · simp only [Option.some.injEq] at h
        exact ⟨by rw [← h]; exact h1, h2⟩
      · cases h
    · simp only [redisBreaker] at h
      split at h
      · simp only [Option.some.injEq] at h
        exact ⟨by rw [← h]; exact h3, h4⟩
      · cases h
  · rcases hm.versioned with ⟨_, hst, hg⟩ | ⟨_, ⟨hc, hhalf, ht, _⟩ | ⟨hmove, _, hnone⟩⟩
    · refine ⟨.inl (by rw [hst]), ?_⟩
      intro hhalf p hp
      -- without a new version the only grant is a closed one
      have hstate : e.phase.state = .halfOpen := CircuitState.value_inj.mp hhalf
      cases hm with
      | normal _ hph _ => rw [hph] at hstate; cases hstate
      | probe _ _ _ ht _ => exact regrant_expired hh hstate ht
      | refused _ _ _ hr => rw [hr] at hp; cases hp
      | _ => cases hp
    · refine ⟨?_, fun hst p _ => regrant_expired hh (CircuitState.value_inj.mp hst) ht⟩
      rw [hhalf]
      cases hst : e.phase.state with
      | closed => exact absurd hst hc
      | «open» => exact .inr (by simp [CircuitState.value, stateMoves])
      | halfOpen => exact .inl rfl
    · refine ⟨.inr hmove, ?_⟩
      intro _ p hp
      rw [hnone] at hp; cases hp

theorem eras_isolated_trip : firstGranted.version < tripped.version ∧
    (tripped.state = firstGranted.state ∨ (firstGranted.state, tripped.state) ∈ stateMoves) := by
  obtain ⟨⟨_, hv⟩, _, hst, _⟩ := eras_isolated quickTrip firstGranted_reachable tripped_step
  exact ⟨hv.mpr (.inr (by decide)), hst⟩

end

end InferenceService
