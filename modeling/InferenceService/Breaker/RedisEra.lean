import InferenceService.Breaker.Era
import InferenceService.Breaker.RedisScripts

/-!
# The scripts move the store from era to era

A store holds an era when its hash and its probe key say so. Each script on a
store that holds an era answers as the era does and leaves a store that holds
the next era; a permit that is not current leaves the store alone.
-/

namespace InferenceService

def RedisBreakerConfig.policy (C : RedisBreakerConfig) : Policy :=
  ⟨C.failureThreshold, C.recoveryTimeoutMs, C.probeLeaseMs, C.failureThreshold_pos, C.recoveryTimeoutMs_pos,
    C.probeLeaseMs_pos⟩

section
variable (C : RedisBreakerConfig)
@[simp] theorem policy_threshold : C.policy.threshold = C.failureThreshold := rfl
@[simp] theorem policy_window : C.policy.window = C.recoveryTimeoutMs := rfl
@[simp] theorem policy_lease : C.policy.lease = C.probeLeaseMs := rfl
end

def permitOf : Pass String → CircuitPermit
  | .normal v => { state := .closed, version := some v, store := .redis }
  | .probe v token =>
    { state := .halfOpen, version := some v, probeToken := if token = "" then none else some token,
      store := .redis }

/-- What the scripts read out of a permit; none of them accepts an open one. -/
def CircuitPermit.pass (p : CircuitPermit) : Option (Pass String) :=
  match p.state with
  | .closed => some (.normal (p.version.getD 0))
  | .halfOpen => some (.probe (p.version.getD 0) (p.probeToken.getD ""))
  | .open => none

@[simp] theorem pass_permitOf (q : Pass String) : (permitOf q).pass = some q := by
  cases q with
  | normal v => rfl
  | probe v token => by_cases h : token = "" <;> simp [permitOf, CircuitPermit.pass, h]

theorem permitOf_inj {p q : Pass String} : permitOf p = permitOf q ↔ p = q := by
  constructor
  · intro h
    have := congrArg CircuitPermit.pass h
    simpa using this
  · rintro rfl; rfl

def Verdict.answer : Verdict String → Except AllowError CircuitPermit
  | .pass p => .ok (permitOf p)
  | .refuse r => .error (.circuitOpen (.init ((r : ℚ) / 1000)))

section
variable (C : RedisBreakerConfig)

def PhaseFields (st : BreakerStore) : Phase String → Prop
  | .closed f => st.circuit.hgetConsecutiveFailures = f ∧ st.probe = none
  | .opened since => st.circuit.hgetOpenedAtMs = since ∧ st.probe = none
  | .probing token since => st.probe = some ⟨token, since + C.probeLeaseMs⟩

structure BreakerStore.Holds (st : BreakerStore) (e : Era String) : Prop where
  state : st.circuit.hgetState = e.phase.state.value
  version : st.circuit.hgetVersion = e.version
  fields : PhaseFields C st e.phase

theorem empty_holds : BreakerStore.Holds C ⟨{}, none⟩ Era.initial := ⟨rfl, rfl, rfl, rfl⟩

variable {C} {us : Nat} {st : BreakerStore} {e : Era String} {token : String}

/-! ## `allow_primary_call` -/

theorem allow_closed (h : st.Holds C e) {f : Nat} (hp : e.phase = .closed f) :
    allowPrimaryLua C us token st = (⟨.allow, "closed", 0, e.version, "", .closed⟩, st) := by
  have hs : st.circuit.hgetState = "closed" := by rw [h.state, hp]; rfl
  simp [allowPrimaryLua, hs, h.version]

theorem allow_opened (h : st.Holds C e) {since : Nat} (hp : e.phase = .opened since)
    (ht : nowMs us < since + C.recoveryTimeoutMs) :
    allowPrimaryLua C us token st =
      (⟨.block, "open", ((since + C.recoveryTimeoutMs - nowMs us : Nat) : Int), e.version, "", .openWindow⟩,
        st) := by
  have hs : st.circuit.hgetState = "open" := by rw [h.state, hp]; rfl
  have hf := h.fields
  rw [hp] at hf
  have ho : st.circuit.hgetOpenedAtMs = since := hf.1
  have hr : (C.recoveryTimeoutMs : Int) - ((nowMs us : Int) - since) =
      ((since + C.recoveryTimeoutMs - nowMs us : Nat) : Int) := by omega
  have hpos : (0 : Int) < ((since + C.recoveryTimeoutMs - nowMs us : Nat) : Int) := by omega
  simp only [allowPrimaryLua, hs, ho, hr, hpos, h.version]
  rfl

theorem allow_probing (h : st.Holds C e) {tok : String} {since : Nat} (hp : e.phase = .probing tok since)
    (ht : nowMs us < since + C.probeLeaseMs) :
    allowPrimaryLua C us token st =
      (⟨.block, "half_open", ((since + C.probeLeaseMs - nowMs us : Nat) : Int), e.version, "", .probeHeld⟩,
        st) := by
  have hs : st.circuit.hgetState = "half_open" := by rw [h.state, hp]; rfl
  have hf := h.fields
  rw [hp] at hf
  have hk : st.probe = some ⟨tok, since + C.probeLeaseMs⟩ := hf
  have hlive : st.probe.get (nowMs us) = some tok := by rw [hk]; exact Redis.Key.get_live ht
  have httl : st.probe.pttl (nowMs us) = ((since + C.probeLeaseMs - nowMs us : Nat) : Int) := by
    rw [hk, Redis.Key.pttl_live ht]; simp only; omega
  have hpos : ¬ ((since + C.probeLeaseMs - nowMs us : Nat) : Int) < 0 := by omega
  simp only [allowPrimaryLua, hs, Redis.Key.setNxPx_live hlive, httl, hpos, h.version]
  rfl

theorem allow_acquired (h : st.Holds C e) (hc : e.phase.state ≠ .closed) (ht : e.gate C.policy ≤ nowMs us) :
    allowPrimaryLua C us token st =
      (⟨.allow, "half_open", 0, e.version + 1, token, .acquired⟩,
        ⟨⟨some "half_open", some (e.version + 1), some 0, some 0⟩,
          some ⟨token, nowMs us + C.probeLeaseMs⟩⟩) := by
  have hf := h.fields
  cases hp : e.phase with
  | closed f => simp [hp, Phase.state] at hc
  | opened since =>
    rw [hp] at hf
    have hs : st.circuit.hgetState = "open" := by rw [h.state, hp]; rfl
    have hg : since + C.recoveryTimeoutMs ≤ nowMs us := by simpa [Era.gate, hp] using ht
    have ho : st.circuit.hgetOpenedAtMs = since := hf.1
    have hr : ¬ (0 : Int) < C.recoveryTimeoutMs - ((nowMs us : Int) - since) := by omega
    have hfree : st.probe.get (nowMs us) = none := by rw [hf.2]; rfl
    simp only [allowPrimaryLua, hs, ho, hr, Redis.Key.setNxPx_free hfree, CircuitHash.hincrbyVersion, h.version]
    rfl
  | probing tok since =>
    rw [hp] at hf
    have hs : st.circuit.hgetState = "half_open" := by rw [h.state, hp]; rfl
    have hg : since + C.probeLeaseMs ≤ nowMs us := by simpa [Era.gate, hp] using ht
    have hk : st.probe = some ⟨tok, since + C.probeLeaseMs⟩ := hf
    have hfree : st.probe.get (nowMs us) = none := by rw [hk]; exact Redis.Key.get_expired hg
    simp only [allowPrimaryLua, hs, Redis.Key.setNxPx_free hfree, CircuitHash.hincrbyVersion, h.version]
    rfl

theorem holds_probing (v : Nat) :
    BreakerStore.Holds C
      ⟨⟨some "half_open", some v, some 0, some 0⟩, some ⟨token, nowMs us + C.probeLeaseMs⟩⟩
      ⟨v, .probing token (nowMs us)⟩ := ⟨rfl, rfl, rfl⟩

theorem allow_refines (us : Nat) (token : String) (h : st.Holds C e) :
    permitFromReply (allowPrimaryLua C us token st).1 = (e.acquire C.policy (nowMs us) token).1.answer ∧
      (allowPrimaryLua C us token st).2.Holds C (e.acquire C.policy (nowMs us) token).2 := by
  rcases Era.acquire_cases C.policy (nowMs us) token e with ⟨f, hp, ha⟩ | ⟨hc, ht, ha⟩ | ⟨hc, ht, ha⟩
  · rw [allow_closed h hp, ha]
    exact ⟨rfl, h⟩
  · rw [ha]
    cases hp : e.phase with
    | closed f => simp [hp, Phase.state] at hc
    | opened since =>
      have hg : e.gate C.policy = since + C.recoveryTimeoutMs := by simp [Era.gate, hp]
      rw [hg] at ht ⊢
      rw [allow_opened h hp ht]
      exact ⟨rfl, h⟩
    | probing tok since =>
      have hg : e.gate C.policy = since + C.probeLeaseMs := by simp [Era.gate, hp]
      rw [hg] at ht ⊢
      rw [allow_probing h hp ht]
      exact ⟨rfl, h⟩
  · rw [allow_acquired h hc ht, ha]
    exact ⟨rfl, holds_probing _⟩

/-! ## `record_success` and `record_failure` -/

/-- The checks that both record scripts make before they write. -/
def BreakerStore.Accepts (us : Nat) (st : BreakerStore) (p : CircuitPermit) : Prop :=
  st.circuit.hgetState = p.state.value ∧ st.circuit.hgetVersion = p.version.getD 0 ∧ p.state ≠ .open ∧
    (p.state = .halfOpen → st.probe.get (nowMs us) = some (p.probeToken.getD ""))

instance (us : Nat) (st : BreakerStore) (p : CircuitPermit) : Decidable (st.Accepts us p) :=
  inferInstanceAs (Decidable (_ ∧ _ ∧ _ ∧ _))

/-- Where both record scripts turn a permit down. -/
theorem rejected_cases {p : CircuitPermit} (h : ¬ st.Accepts us p) :
    (st.circuit.hgetState ≠ p.state.value ∨ st.circuit.hgetVersion ≠ p.version.getD 0) ∨
    (¬ (st.circuit.hgetState ≠ p.state.value ∨ st.circuit.hgetVersion ≠ p.version.getD 0) ∧
      (p.state = .open ∨
        p.state = .halfOpen ∧ st.probe.get (nowMs us) ≠ some (p.probeToken.getD ""))) := by
  by_cases hm : st.circuit.hgetState ≠ p.state.value ∨ st.circuit.hgetVersion ≠ p.version.getD 0
  · exact .inl hm
  · refine .inr ⟨hm, ?_⟩
    rw [not_or, not_not, not_not] at hm
    cases hs : p.state with
    | closed => exact absurd ⟨hm.1, hm.2, by simp [hs], by simp [hs]⟩ h
    | «open» => exact .inl rfl
    | halfOpen => exact .inr ⟨rfl, fun ht => h ⟨hm.1, hm.2, by simp [hs], fun _ => ht⟩⟩

theorem success_rejected {p : CircuitPermit} (h : ¬ st.Accepts us p) :
    recordSuccessCall us p st = (⟨.stale, st.circuit.hgetState, st.circuit.hgetState⟩, st) := by
  unfold recordSuccessCall recordSuccessLua
  rcases rejected_cases h with hm | ⟨hm, hs | ⟨hs, ht⟩⟩
  · simp only [hm, if_true]
  · simp only [hm, if_false]
    simp [hs, CircuitState.value]
  · simp only [hm, if_false]
    simp [hs, CircuitState.value, ht]

theorem failure_rejected {p : CircuitPermit} (h : ¬ st.Accepts us p) :
    recordFailureCall C us p st = (⟨.stale, st.circuit.hgetState, st.circuit.hgetState⟩, st) := by
  unfold recordFailureCall recordFailureLua
  rcases rejected_cases h with hm | ⟨hm, hs | ⟨hs, ht⟩⟩
  · simp only [hm, if_true]
  · simp only [hm, if_false]
    simp [hs, CircuitState.value]
  · simp only [hm, if_false]
    simp [hs, CircuitState.value, ht]

theorem accepts_iff (h : st.Holds C e) {p : CircuitPermit} :
    st.Accepts us p ↔ ∃ q, p.pass = some q ∧ e.Current C.policy (nowMs us) q := by
  have hf := h.fields
  unfold BreakerStore.Accepts
  rw [h.state, h.version, CircuitState.value_inj]
  cases hs : p.state with
  | «open» => simp [CircuitPermit.pass, hs]
  | closed =>
    simp only [CircuitPermit.pass, hs, Option.some.injEq, exists_eq_left', Era.Current]
    simp [and_comm, eq_comm]
  | halfOpen =>
    simp only [CircuitPermit.pass, hs, Option.some.injEq, exists_eq_left', Era.Current]
    cases hp : e.phase with
    | closed f => simp [Phase.state]
    | opened since => simp [Phase.state]
    | probing tok since =>
      rw [hp] at hf
      have hk : st.probe = some ⟨tok, since + C.probeLeaseMs⟩ := hf
      have hget : st.probe.get (nowMs us) = some (p.probeToken.getD "") ↔
          nowMs us < since + C.probeLeaseMs ∧ tok = p.probeToken.getD "" := by
        rw [hk, Redis.Key.get_eq_some]; simp
      simp only [Phase.state, hget, policy_lease, Phase.probing.injEq]
      constructor
      · rintro ⟨_, hv, _, ht⟩
        exact ⟨hv.symm, since, ⟨(ht trivial).2, rfl⟩, (ht trivial).1⟩
      · rintro ⟨hv, s', ⟨htok, rfl⟩, ht⟩
        exact ⟨trivial, hv.symm, (fun h => by cases h), fun _ => ⟨ht, htok⟩⟩

/-- What a store that accepts a current permit holds. -/
theorem accepted_cases (h : st.Holds C e) {p : CircuitPermit} {q : Pass String} (hq : p.pass = some q)
    (hc : e.Current C.policy (nowMs us) q) :
    (∃ v f, q = .normal v ∧ p.state = .closed ∧ e.phase = .closed f ∧
      st.circuit.hgetConsecutiveFailures = f ∧ st.probe = none) ∨
    (∃ v token, q = .probe v token ∧ p.state = .halfOpen ∧
      st.probe.get (nowMs us) = some (p.probeToken.getD "")) := by
  obtain ⟨_, _, hopen, hprobe⟩ := (accepts_iff h).mpr ⟨q, hq, hc⟩
  cases hs : p.state with
  | «open» => exact absurd hs hopen
  | closed =>
    simp only [CircuitPermit.pass, hs, Option.some.injEq] at hq
    subst hq
    obtain ⟨f, hp⟩ := Era.closed_of_current hc
    have hf := h.fields
    rw [hp] at hf
    exact .inl ⟨_, f, rfl, rfl, hp, hf⟩
  | halfOpen =>
    simp only [CircuitPermit.pass, hs, Option.some.injEq] at hq
    exact .inr ⟨_, _, hq.symm, rfl, hprobe hs⟩

theorem success_refines (h : st.Holds C e) {p : CircuitPermit} {q : Pass String} (hq : p.pass = some q)
    (hc : e.Current C.policy (nowMs us) q) :
    transitionFromResponse (recordSuccessCall us p st).1 = .ok (e.succeed q).1 ∧
      (recordSuccessCall us p st).2.Holds C (e.succeed q).2 := by
  obtain ⟨hstate, hversion, _⟩ := (accepts_iff h).mpr ⟨q, hq, hc⟩
  unfold recordSuccessCall recordSuccessLua
  simp only [hstate, hversion, ne_eq, not_true, or_self, if_false]
  rcases accepted_cases h hq hc with ⟨v, f, rfl, hs, _, _, hprobe⟩ | ⟨v, token, rfl, hs, hprobe⟩
  · rw [hs]
    exact ⟨rfl, rfl, h.version, rfl, hprobe⟩
  · simp only [hs, CircuitState.value, hprobe, not_true, if_true, if_false]
    exact ⟨rfl, rfl, congrArg (· + 1) h.version, rfl, rfl⟩

theorem failure_refines (h : st.Holds C e) {p : CircuitPermit} {q : Pass String} (hq : p.pass = some q)
    (hc : e.Current C.policy (nowMs us) q) :
    transitionFromResponse (recordFailureCall C us p st).1 = .ok (e.fail C.policy (nowMs us) q).1 ∧
      (recordFailureCall C us p st).2.Holds C (e.fail C.policy (nowMs us) q).2 := by
  obtain ⟨hstate, hversion, _⟩ := (accepts_iff h).mpr ⟨q, hq, hc⟩
  unfold recordFailureCall recordFailureLua
  simp only [hstate, hversion, ne_eq, not_true, or_self, if_false]
  rcases accepted_cases h hq hc with ⟨v, f, rfl, hs, hp, hcf, hprobe⟩ | ⟨v, token, rfl, hs, hprobe⟩
  · simp only [hs, CircuitState.value, Era.fail, Era.failures, hp, hcf, policy_threshold]
    by_cases hth : C.failureThreshold ≤ f + 1
    · simp only [hth, if_true]
      exact ⟨rfl, rfl, congrArg (· + 1) h.version, rfl, hprobe⟩
    · simp only [hth, if_false]
      exact ⟨rfl, rfl, h.version, rfl, hprobe⟩
  · simp only [hs, CircuitState.value, hprobe, not_true, if_true, if_false]
    exact ⟨rfl, rfl, congrArg (· + 1) h.version, rfl, rfl⟩

end

end InferenceService
