import InferenceService.Breaker.RedisRun
import Mathlib.Tactic.Positivity

/-!
# Refusals and their retry hints

A refused caller knows the exact millisecond at which the gate opens.
-/

namespace InferenceService

def AllowGranted (C : RedisBreakerConfig) (us : Nat) (token : String) (st : BreakerStore) : Prop :=
  (allowPrimaryLua C us token st).1.decision = .allow

instance (C : RedisBreakerConfig) (us : Nat) (token : String) (st : BreakerStore) :
    Decidable (AllowGranted C us token st) := inferInstanceAs (Decidable (_ = _))

section
variable {C : RedisBreakerConfig} {us us' : Nat} {st : BreakerStore} {e : Era String} {token token' : String}

theorem allow_decision (us : Nat) (token : String) (h : st.Holds C e) :
    AllowGranted C us token st ↔ ∃ q, (e.acquire C.policy (nowMs us) token).1 = .pass q := by
  unfold AllowGranted
  rcases Era.acquire_cases C.policy (nowMs us) token e with ⟨f, hp, ha⟩ | ⟨hc, ht, ha⟩ | ⟨hc, ht, ha⟩
  · rw [allow_closed h hp, ha]
    simp
  · rw [ha]
    cases hp : e.phase with
    | closed f => simp [hp, Phase.state] at hc
    | opened since => rw [allow_opened h hp (by simpa [Era.gate, hp] using ht)]; simp
    | probing tok since => rw [allow_probing h hp (by simpa [Era.gate, hp] using ht)]; simp
  · rw [allow_acquired h hc ht, ha]
    simp

theorem allow_cases (h : st.Holds C e) (us : Nat) (token : String) :
    (AllowGranted C us token st ∧ ((allowPrimaryLua C us token st).1.branch = .closed ∨
        (allowPrimaryLua C us token st).1.branch = .acquired)) ∨
      ∃ r : Nat, ¬ AllowGranted C us token st ∧ (e.acquire C.policy (nowMs us) token).1 = .refuse r ∧
        (allowPrimaryLua C us token st).2 = st ∧ (allowPrimaryLua C us token st).1.remainingMs = r ∧
        ((∃ since, e.phase = .opened since ∧ nowMs us < since + C.recoveryTimeoutMs) ∧
            (allowPrimaryLua C us token st).1.branch = .openWindow ∨
          (∃ tok since, e.phase = .probing tok since ∧ nowMs us < since + C.probeLeaseMs) ∧
            (allowPrimaryLua C us token st).1.branch = .probeHeld) := by
  have hd := allow_decision us token h
  rcases Era.acquire_cases C.policy (nowMs us) token e with ⟨f, hp, ha⟩ | ⟨hc, ht, ha⟩ | ⟨hc, ht, ha⟩
  · refine .inl ⟨hd.mpr ⟨_, by rw [ha]⟩, .inl ?_⟩
    rw [allow_closed h hp]
  · have hno : ¬ AllowGranted C us token st := by rw [hd, ha]; simp
    refine .inr ⟨e.gate C.policy - nowMs us, hno, by rw [ha], ?_⟩
    cases hp : e.phase with
    | closed f => simp [hp, Phase.state] at hc
    | opened since =>
      have hg : e.gate C.policy = since + C.recoveryTimeoutMs := by simp [Era.gate, hp]
      rw [hg] at ht ⊢
      rw [allow_opened h hp ht]
      exact ⟨rfl, rfl, .inl ⟨⟨since, rfl, ht⟩, rfl⟩⟩
    | probing tok since =>
      have hg : e.gate C.policy = since + C.probeLeaseMs := by simp [Era.gate, hp]
      rw [hg] at ht ⊢
      rw [allow_probing h hp ht]
      exact ⟨rfl, rfl, .inr ⟨⟨tok, since, rfl, ht⟩, rfl⟩⟩
  · refine .inl ⟨hd.mpr ⟨_, by rw [ha]⟩, .inr ?_⟩
    rw [allow_acquired h hc ht]

theorem refusal_hint {r : Nat} (hno : ¬ AllowGranted C us token st)
    (hr : (allowPrimaryLua C us token st).1.remainingMs = r) :
    permitFromReply (allowPrimaryLua C us token st).1 = .error (.circuitOpen ⟨(r : ℚ) / 1000⟩) := by
  have hblock : (allowPrimaryLua C us token st).1.decision ≠ .allow := hno
  unfold permitFromReply
  rw [if_pos hblock, hr]
  have hpos : (0 : ℚ) ≤ (r : ℚ) / 1000 := by positivity
  simp [CircuitOpenError.init, max_eq_right hpos]

/-- The log keeps every operation but refusals; without a new event the store
is as it was. -/
def Quiet (s s' : BreakerSys) : Prop := ∃ l, s'.log = l ++ s.log ∧ (l = [] → s'.store = s.store)

theorem Quiet.trans {s t u : BreakerSys} (h : Quiet s t) (h' : Quiet t u) : Quiet s u := by
  obtain ⟨l, hl, hs⟩ := h
  obtain ⟨l', hl', hs'⟩ := h'
  refine ⟨l' ++ l, by rw [hl', hl, List.append_assoc], ?_⟩
  intro hnil
  obtain ⟨rfl, rfl⟩ := List.append_eq_nil_iff.mp hnil
  rw [hs' rfl, hs rfl]

theorem Moves.quiet {s s' : BreakerSys} {e' : Era String} {a : BreakerAct} (hm : Moves C s e a s' e') :
    Quiet s s' := by
  cases hm with
  | tick us => exact ⟨[], rfl, fun _ => rfl⟩
  | refused => exact ⟨[], rfl, fun _ => rfl⟩
  | _ => exact ⟨[_], rfl, nofun⟩

theorem run_quiet {s u : BreakerSys} {as : List BreakerAct} (hs : (redisBreaker C).Reachable s)
    (h : (redisBreaker C).runFrom s as = some u) : Quiet s u := by
  refine Lts.run_related (R := Quiet) (fun s => ⟨[], rfl, fun _ => rfl⟩) (fun _ _ _ => Quiet.trans) ?_ hs h
  intro s a t hs h
  obtain ⟨e, hh, _⟩ := reachable_linked hs
  obtain ⟨_, _, hm⟩ := step_moves hh h
  exact hm.quiet

end

section
variable (C : RedisBreakerConfig)

theorem exact_hint {s : BreakerSys} (hs : (redisBreaker C).Reachable s) (token : String) :
    (¬ AllowGranted C s.now token s.store →
      s.state = "open" ∧ s.nowMs < s.store.circuit.hgetOpenedAtMs + C.recoveryTimeoutMs ∨
        s.state = "half_open" ∧ s.store.probe.get s.nowMs ≠ none) ∧
    (allowPrimaryLua C s.now token s.store).1.branch ≠ .fallThrough ∧
    (allowPrimaryLua C s.now token s.store).1.branch ≠ .probeWithoutTtl ∧
    (¬ AllowGranted C s.now token s.store → ∃ r : Nat,
      (allowPrimaryLua C s.now token s.store).1.remainingMs = r ∧ 0 < r ∧
      permitFromReply (allowPrimaryLua C s.now token s.store).1 = .error (.circuitOpen ⟨(r : ℚ) / 1000⟩) ∧
      (allowPrimaryLua C s.now token s.store).2 = s.store ∧
      ∀ as u token', (redisBreaker C).runFrom s as = some u → u.log = s.log →
        (AllowGranted C u.now token' u.store ↔ s.nowMs + r ≤ u.nowMs)) := by
  obtain ⟨e, hh, _⟩ := reachable_linked hs
  have hf := hh.fields
  rcases allow_cases hh s.now token with ⟨hg, hb⟩ | ⟨r, hno, ha, hst, hr, hb⟩
  · refine ⟨fun h => absurd hg h, ?_, ?_, fun h => absurd hg h⟩
    · rcases hb with hb | hb <;> rw [hb] <;> exact nofun
    · rcases hb with hb | hb <;> rw [hb] <;> exact nofun
  · refine ⟨fun _ => ?_, ?_, ?_, fun _ => ⟨r, hr, Era.refusal_pos ha, refusal_hint hno hr, hst, ?_⟩⟩
    · rcases hb with ⟨⟨since, hp, ht⟩, _⟩ | ⟨⟨tok, since, hp, ht⟩, _⟩
      · rw [hp] at hf
        refine .inl ⟨by rw [BreakerSys.state, hh.state, hp]; rfl, ?_⟩
        rw [hf.1]
        exact ht
      · rw [hp] at hf
        refine .inr ⟨by rw [BreakerSys.state, hh.state, hp]; rfl, ?_⟩
        have hk : s.store.probe = some ⟨tok, since + C.probeLeaseMs⟩ := hf
        rw [hk, Redis.Key.get_live ht]
        exact nofun
    · rcases hb with ⟨_, hb⟩ | ⟨_, hb⟩ <;> rw [hb] <;> exact nofun
    · rcases hb with ⟨_, hb⟩ | ⟨_, hb⟩ <;> rw [hb] <;> exact nofun
    · intro as u token' hrun hlog
      obtain ⟨l, hl, hstore⟩ := run_quiet hs hrun
      have hnil : l = [] := List.append_left_eq_self.mp (hl.symm.trans hlog)
      have hu : u.store.Holds C e := by rw [hstore hnil]; exact hh
      rw [allow_decision _ _ hu]
      exact Era.acquire_after_refusal ha _ _

theorem exact_hint_tripped :
    ∃ r : Nat, (allowPrimaryLua quickTrip tripped.now "b" tripped.store).1.remainingMs = r ∧ 0 < r := by
  have hs : (redisBreaker quickTrip).Reachable tripped := firstGranted_reachable.step tripped_step
  obtain ⟨r, hr, hpos, _⟩ := (exact_hint quickTrip hs "b").2.2.2 (by decide)
  exact ⟨r, hr, hpos⟩

end

end InferenceService
