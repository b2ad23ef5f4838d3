import InferenceService.Gateway.Probes

/-!
# When a probe keeps its lease

The lease covers one attempt, and a probe holds its permit for all of them.
-/

namespace InferenceService

section
variable {p : ProbeSettings} {s s' : GatewaySys} {a : GatewayAct}

structure PhaseInv (p : ProbeSettings) (s : GatewaySys) : Prop where
  now_nonneg : 0 ≤ s.now
  clock : s.breaker.now = microsAt s.now
  timed : ∀ run ∈ s.runs, Timed p s.now run
  probes : ∃ e, s.breaker.store.Holds p.breaker e ∧ Probes s.runs e

theorem PhaseInv.nowMs_eq (h : PhaseInv p s) : s.breaker.nowMs = s.nowMs := by
  rw [BreakerSys.nowMs, h.clock, nowMs_microsAt, GatewaySys.nowMs]

def ProbeSettings.PhaseFits (p : ProbeSettings) : Prop :=
  p.primarySeconds * 1000 ≤ (p.breaker.probeLeaseMs : ℚ) - 1

theorem lease_live (hfits : p.PhaseFits) {now : ℚ} {run : PrimaryRun} (h : Timed p now run) :
    ⌊1000 * now⌋₊ < ⌊1000 * run.grantedAt⌋₊ + p.breaker.probeLeaseMs := by
  have hlease := p.breaker.probeLeaseMs_pos
  have hle : ⌊1000 * now⌋₊ ≤ ⌊1000 * run.grantedAt⌋₊ + (p.breaker.probeLeaseMs - 1) := by
    have hg := h.granted_nonneg
    have hphase := h.phase
    rw [← Nat.floor_add_natCast (by linarith)]
    apply Nat.floor_le_floor
    unfold ProbeSettings.PhaseFits at hfits
    rw [Nat.cast_sub hlease, Nat.cast_one]
    linarith
  omega

/-! ## What a step keeps -/

theorem phaseInv_tick (h : PhaseInv p s) {seconds : ℚ} (hs : (gateways p).step s (.tick seconds) = some s') :
    PhaseInv p s' := by
  simp only [gateways, GatewaySys.step, Option.ite_none_right_eq_some, Option.some.injEq] at hs
  obtain ⟨⟨hpos, hguard⟩, rfl⟩ := hs
  refine ⟨add_nonneg h.now_nonneg hpos, rfl, ?_, h.probes⟩
  intro run hr
  exact { h.timed run hr with now_le := hguard run hr }

theorem phaseInv_allow (hfits : p.PhaseFits) (h : PhaseInv p s) {token : String}
    (hs : (gateways p).step s (.allow token) = some s') : PhaseInv p s' := by
  simp only [gateways, GatewaySys.step, Option.bind_eq_bind] at hs
  obtain ⟨breaker, hb, hs⟩ := Option.bind_eq_some_iff.mp hs
  obtain rfl := Option.some.inj hs
  obtain ⟨e, hh, hprobes⟩ := h.probes
  obtain ⟨e', hh', hm⟩ := step_moves hh hb
  have htimed : ∀ run ∈ s.runs ++ (grantOf p.breaker s.breaker (.allow token)).toList.map fun permit =>
      (⟨permit, s.now, 1, false, s.now⟩ : PrimaryRun), Timed p s.now run := by
    intro run hr
    rcases List.mem_append.mp hr with hr | hr
    · exact h.timed run hr
    · obtain ⟨permit, _, rfl⟩ := List.mem_map.mp hr
      exact timed_granted h.now_nonneg permit
  cases hm with
  | refused _ _ _ hr =>
    refine ⟨h.now_nonneg, h.clock, htimed, e, hh', ?_⟩
    simpa [hr] using hprobes
  | normal _ _ hr =>
    refine ⟨h.now_nonneg, h.clock, htimed, e, hh', ?_⟩
    simp only [hr, Option.toList_some, List.map_cons, List.map_nil]
    exact hprobes.append_closed nofun
  | probe store _ hc ht hr =>
    have hms := h.nowMs_eq
    have hnone : ∀ run ∈ s.runs, ¬ run.HalfOpen := by
      intro run hrun hhalf
      obtain ⟨tok, hphase, _⟩ := hprobes.current run hrun hhalf
      have hgate : e.gate p.breaker.policy = ⌊1000 * run.grantedAt⌋₊ + p.breaker.probeLeaseMs := by
        simp [Era.gate, hphase]
      have hlive := lease_live hfits (h.timed run hrun)
      rw [hgate, hms, GatewaySys.nowMs] at ht
      omega
    refine ⟨h.now_nonneg, h.clock, htimed, _, hh', ?_⟩
    simp only [hr, Option.toList_some, List.map_cons, List.map_nil]
    rw [hms]
    exact probes_append_probe hnone rfl

theorem phaseInv_set (h : PhaseInv p s) {i : Nat} {run run' : PrimaryRun} (hi : s.runs[i]? = some run)
    (hp : run'.permit = run.permit) (hg : run'.grantedAt = run.grantedAt) (ht : Timed p s.now run') :
    PhaseInv p { s with runs := s.runs.set i run' } := by
  obtain ⟨e, hh, hprobes⟩ := h.probes
  refine ⟨h.now_nonneg, h.clock, ?_, e, hh, hprobes.set hi hp hg⟩
  intro r hr
  rcases List.mem_or_eq_of_mem_set hr with hr | rfl
  · exact h.timed r hr
  · exact ht

theorem phaseInv_retry (h : PhaseInv p s) {i : Nat} (hs : (gateways p).step s (.retry i) = some s') :
    PhaseInv p s' := by
  simp only [gateways, GatewaySys.step, Option.bind_eq_bind] at hs
  obtain ⟨run, hrun, hs⟩ := Option.bind_eq_some_iff.mp hs
  simp only [Option.ite_none_right_eq_some, Option.some.injEq] at hs
  obtain ⟨⟨hsleep, hle⟩, rfl⟩ := hs
  have ht := (h.timed run (List.mem_of_getElem? hrun)).retried hsleep hle
  refine phaseInv_set h hrun ?_ ?_ ht
  · unfold PrimaryRun.retried PrimaryRun.nextAttempt
    split_ifs <;> rfl
  · unfold PrimaryRun.retried PrimaryRun.nextAttempt
    split_ifs <;> rfl

theorem phaseInv_wake (h : PhaseInv p s) {i : Nat} (hs : (gateways p).step s (.wake i) = some s') :
    PhaseInv p s' := by
  simp only [gateways, GatewaySys.step, Option.bind_eq_bind] at hs
  obtain ⟨run, hrun, hs⟩ := Option.bind_eq_some_iff.mp hs
  simp only [Option.ite_none_right_eq_some, Option.some.injEq] at hs
  obtain ⟨⟨hsleep, _⟩, rfl⟩ := hs
  exact phaseInv_set h hrun rfl rfl ((h.timed run (List.mem_of_getElem? hrun)).woken hsleep)

theorem finish_split {i : Nat} {success : Bool} (hs : (gateways p).step s (.finish i success) = some s') :
    ∃ run breaker, s.runs[i]? = some run ∧
      (redisBreaker p.breaker).step s.breaker (recordAct success run.permit) = some breaker ∧
      s' = { s with breaker, runs := s.runs.eraseIdx i } := by
  simp only [gateways, GatewaySys.step, Option.bind_eq_bind] at hs
  obtain ⟨run, hrun, hs⟩ := Option.bind_eq_some_iff.mp hs
  rw [Option.ite_none_left_eq_some] at hs
  obtain ⟨_, hs⟩ := hs
  obtain ⟨breaker, hb, hs⟩ := Option.bind_eq_some_iff.mp hs
  exact ⟨run, breaker, hrun, hb, (Option.some.inj hs).symm⟩

/-- A record moves the era only for a current permit, so an outcome of a closed
era leaves a probe alone. -/
theorem record_keeps {e e' : Era String} {b b' : BreakerSys} {success : Bool} {permit : CircuitPermit}
    (hm : Moves p.breaker b e (recordAct success permit) b' e') (hne : permit.state ≠ .halfOpen) :
    e' = e ∨ e.phase.state = .closed := by
  have hclosed : ∀ q, permit.pass = some q → e.Current p.breaker.policy b.nowMs q → e.phase.state = .closed := by
    intro q hq hc
    cases q with
    | normal v => exact hc.2
    | probe v token =>
      unfold CircuitPermit.pass at hq
      cases hst : permit.state with
      | closed => rw [hst] at hq; cases hq
      | «open» => rw [hst] at hq; cases hq
      | halfOpen => exact absurd hst hne
  cases success with
  | true =>
    cases hm with
    | staleSuccess => exact .inl rfl
    | success _ _ hq hc _ => exact .inr (hclosed _ hq hc)
  | false =>
    cases hm with
    | staleFailure => exact .inl rfl
    | failure _ _ hq hc _ => exact .inr (hclosed _ hq hc)

theorem record_now {e e' : Era String} {b b' : BreakerSys} {success : Bool} {permit : CircuitPermit}
    (hm : Moves p.breaker b e (recordAct success permit) b' e') : b'.now = b.now := by
  cases success with
  | true => cases hm <;> rfl
  | false => cases hm <;> rfl

theorem phaseInv_finish (h : PhaseInv p s) {i : Nat} {success : Bool}
    (hs : (gateways p).step s (.finish i success) = some s') : PhaseInv p s' := by
  obtain ⟨run, breaker, hrun, hb, rfl⟩ := finish_split hs
  obtain ⟨e, hh, hprobes⟩ := h.probes
  obtain ⟨e', hh', hm⟩ := step_moves hh hb
  refine ⟨h.now_nonneg, (record_now hm).trans h.clock, fun r hr => h.timed r (List.mem_of_mem_eraseIdx hr), e', hh', ?_⟩
  by_cases hhalf : run.HalfOpen
  · exact probes_none (hprobes.none_left hrun hhalf) e'
  · rcases record_keeps hm hhalf with rfl | hclosed
    · exact hprobes.eraseIdx i
    · refine probes_none ?_ e'
      intro r hr hhr
      obtain ⟨token, hphase, _⟩ := hprobes.current r (List.mem_of_mem_eraseIdx hr) hhr
      rw [hphase] at hclosed
      cases hclosed

theorem phaseInv_step (hfits : p.PhaseFits) (h : PhaseInv p s) (hs : (gateways p).step s a = some s') :
    PhaseInv p s' := by
  cases a with
  | tick seconds => exact phaseInv_tick h hs
  | allow token => exact phaseInv_allow hfits h hs
  | retry i => exact phaseInv_retry h hs
  | wake i => exact phaseInv_wake h hs
  | finish i success => exact phaseInv_finish h hs
  | crash i =>
    obtain rfl := Option.some.inj hs
    obtain ⟨e, hh, hprobes⟩ := h.probes
    exact ⟨h.now_nonneg, h.clock, fun r hr => h.timed r (List.mem_of_mem_eraseIdx hr), e, hh, hprobes.eraseIdx i⟩

theorem phaseInv_init : PhaseInv p (gateways p).init where
  now_nonneg := le_refl _
  clock := by simp [gateways, redisBreaker, microsAt]
  timed := nofun
  probes := ⟨Era.initial, empty_holds _, probes_none (fun _ h => absurd h List.not_mem_nil) _⟩

theorem reachable_phaseInv (hfits : p.PhaseFits) (hs : (gateways p).Reachable s) : PhaseInv p s :=
  hs.invariant phaseInv_init fun _ _ _ _ h hstep => phaseInv_step hfits h hstep

theorem probeKept_step (hfits : p.PhaseFits) (h : PhaseInv p s) (hs : (gateways p).step s a = some s') :
    ProbeKept p s a s' := by
  obtain ⟨_, _, _, e', _, hprobes⟩ := phaseInv_step hfits h hs
  refine ⟨hprobes.unique, ?_⟩
  intro i success run _ hrun _ ⟨hexpired, _⟩
  have hlive := lease_live hfits (h.timed run (List.mem_of_getElem? hrun))
  rw [GatewaySys.nowMs] at hexpired
  omega

end

/-! ## A probe that outlasts its lease -/

section
variable (p : ProbeSettings)

def tokenOf (k : Nat) : String := String.ofList (List.replicate k 'f')

theorem tokenOf_fresh {tokens : List String} {k : Nat} (h : ∀ t ∈ tokens, t.length < k) : tokenOf k ∉ tokens := by
  intro hmem
  have := h _ hmem
  rw [tokenOf, String.length_ofList, List.length_replicate] at this
  exact absurd this (Nat.lt_irrefl _)

/-- When the probe is granted: the fraction of a millisecond that makes the
whole phase last for a lease by the server's clock. -/
def probeAt : ℚ :=
  (p.recoveryTimeoutMs + max 0 ((p.breaker.probeLeaseMs : ℚ) - p.primarySeconds * 1000)) / 1000

def failRun (k : Nat) : List GatewayAct := [.allow (tokenOf k), .finish 0 false]

def retryRun : List GatewayAct :=
  .tick p.timeoutSeconds :: .retry 0 ::
    if 0 < p.controller.retryBackoffSeconds then [.tick p.controller.retryBackoffSeconds, .wake 0] else []

def outlastRun : List GatewayAct :=
  (List.range p.failureThreshold).flatMap failRun ++ [.tick (probeAt p), .allow (tokenOf p.failureThreshold)] ++
    (List.replicate p.controller.retryAttempts (retryRun p)).flatten ++ [.tick p.timeoutSeconds]

variable {p} {s : GatewaySys}

theorem allow_enabled {C : RedisBreakerConfig} {b : BreakerSys} {token : String} (h : token ∉ b.tokens) :
    ∃ b', (redisBreaker C).step b (.allow token) = some b' := ⟨_, if_neg h⟩

theorem record_enabled {C : RedisBreakerConfig} {b : BreakerSys} {permit : CircuitPermit} {t : Nat}
    (h : .granted permit t ∈ b.log) (success : Bool) :
    ∃ b', (redisBreaker C).step b (recordAct success permit) = some b' := by
  have hmem : permit ∈ (grants b.log).map Prod.fst := List.mem_map.mpr ⟨(permit, t), mem_grants.mpr h, rfl⟩
  cases success with
  | true => exact ⟨_, if_pos hmem⟩
  | false => exact ⟨_, if_pos hmem⟩

theorem closed_failure {C : RedisBreakerConfig} {b : BreakerSys} {token : String} {v f : Nat}
    (hh : b.store.Holds C ⟨v, .closed f⟩) (hfresh : token ∉ b.tokens) :
    ∃ b₁ b₂ permit, (redisBreaker C).step b (.allow token) = some b₁ ∧
      grantOf C b (.allow token) = some permit ∧ (redisBreaker C).step b₁ (.failure permit) = some b₂ ∧
      b₂.now = b.now ∧ b₂.tokens = token :: b.tokens ∧
      b₂.store.Holds C (Era.fail C.policy b.nowMs ⟨v, .closed f⟩ (.normal v : Pass String)).2 := by
  obtain ⟨b₁, hb₁⟩ := allow_enabled (C := C) hfresh
  obtain ⟨e₁, hh₁, hm₁⟩ := step_moves hh hb₁
  cases hm₁ with
  | refused _ hc => exact absurd rfl hc
  | probe _ _ hc => exact absurd rfl hc
  | normal _ _ hr =>
    have hlog : .granted (permitOf (.normal v)) b.nowMs ∈ ({ b with
        tokens := token :: b.tokens
        log := .granted (permitOf (.normal v)) b.nowMs :: b.log } : BreakerSys).log := List.mem_cons_self
    obtain ⟨b₂, hb₂⟩ := record_enabled (C := C) hlog false
    refine ⟨_, b₂, _, hb₁, hr, hb₂, ?_⟩
    have hcur : Era.Current C.policy b.nowMs ⟨v, .closed f⟩ (.normal v : Pass String) := ⟨rfl, rfl⟩
    obtain ⟨e₂, hh₂, hm₂⟩ := step_moves hh₁ hb₂
    cases hm₂ with
    | staleFailure _ hs _ => exact absurd ((accepts_iff hh₁).mpr ⟨_, pass_permitOf _, hcur⟩) hs
    | @failure _ q _ store _ hq _ _ =>
      obtain rfl : .normal v = q := Option.some.inj ((pass_permitOf _).symm.trans hq)
      exact ⟨rfl, rfl, hh₂⟩

theorem opened_grant {C : RedisBreakerConfig} {b : BreakerSys} {token : String} {v since : Nat}
    (hh : b.store.Holds C ⟨v, .opened since⟩) (hfresh : token ∉ b.tokens)
    (ht : since + C.recoveryTimeoutMs ≤ b.nowMs) :
    ∃ b', (redisBreaker C).step b (.allow token) = some b' ∧
      grantOf C b (.allow token) = some (permitOf (.probe (v + 1) token)) ∧ b'.now = b.now ∧
      b'.store.Holds C ⟨v + 1, .probing token b.nowMs⟩ ∧
      .granted (permitOf (.probe (v + 1) token)) b.nowMs ∈ b'.log := by
  obtain ⟨b', hb'⟩ := allow_enabled (C := C) hfresh
  obtain ⟨e, hh', hm⟩ := step_moves hh hb'
  cases hm with
  | normal _ hp _ => cases hp
  | refused _ _ hlt _ =>
    simp only [Era.gate, policy_window] at hlt
    omega
  | probe store _ _ _ hr => exact ⟨_, hb', hr, rfl, hh', List.mem_cons_self⟩

/-- The breaker at time 0, after requests that have all failed. -/
structure Before (p : ProbeSettings) (k : Nat) (e : Era String) (s : GatewaySys) : Prop where
  now : s.now = 0
  runs : s.runs = []
  clock : s.breaker.now = 0
  tokens : ∀ t ∈ s.breaker.tokens, t.length < k
  holds : s.breaker.store.Holds p.breaker e

theorem before_fail {k f : Nat} (h : Before p k ⟨0, .closed f⟩ s) :
    ∃ s', (gateways p).runFrom s (failRun k) = some s' ∧
      Before p (k + 1) (Era.fail p.breaker.policy 0 ⟨0, .closed f⟩ (.normal 0 : Pass String)).2 s' := by
  obtain ⟨b₁, b₂, permit, hb₁, hr, hb₂, hnow, htokens, hh⟩ := closed_failure h.holds (tokenOf_fresh h.tokens)
  have hms : s.breaker.nowMs = 0 := by rw [BreakerSys.nowMs, h.clock]; rfl
  rw [hms] at hh
  refine ⟨{ s with breaker := b₂ }, ?_, h.now, h.runs, hnow.trans h.clock, ?_, hh⟩
  · rw [failRun, Lts.runFrom_cons]
    simp [gateways, GatewaySys.step, hb₁, hr, h.runs, recordAct, hb₂]
  · intro t ht
    rcases List.mem_cons.mp (htokens ▸ ht) with rfl | ht
    · rw [tokenOf, String.length_ofList, List.length_replicate]
      exact Nat.lt_succ_self _
    · exact Nat.lt_succ_of_lt (h.tokens t ht)

theorem before_failures (n : Nat) : n < p.failureThreshold →
    ∃ s, (gateways p).runFrom (gateways p).init ((List.range n).flatMap failRun) = some s ∧
      Before p n ⟨0, .closed n⟩ s := by
  induction n with
  | zero => exact fun _ => ⟨_, rfl, rfl, rfl, rfl, nofun, empty_holds _⟩
  | succ n ih =>
    intro hn
    obtain ⟨s, hs, hbefore⟩ := ih (Nat.lt_of_succ_lt hn)
    obtain ⟨s', hs', hafter⟩ := before_fail hbefore
    have hcount : (⟨0, .closed n⟩ : Era String).failures + 1 < p.breaker.policy.threshold := hn
    rw [Era.fail_counts hcount] at hafter
    refine ⟨s', ?_, hafter⟩
    rw [List.range_succ, List.flatMap_append, Lts.runFrom_append, hs, List.flatMap_singleton]
    exact hs'

theorem before_open : ∃ s, (gateways p).runFrom (gateways p).init
      ((List.range p.failureThreshold).flatMap failRun) = some s ∧
    Before p p.failureThreshold ⟨1, .opened 0⟩ s := by
  have hth := p.failureThreshold_pos
  obtain ⟨n, hn⟩ : ∃ n, p.failureThreshold = n + 1 := ⟨p.failureThreshold - 1, by omega⟩
  obtain ⟨s, hs, hbefore⟩ := before_failures (p := p) n (by omega)
  obtain ⟨s', hs', hafter⟩ := before_fail hbefore
  have htrip : p.breaker.policy.threshold ≤ (⟨0, .closed n⟩ : Era String).failures + 1 := le_of_eq hn
  rw [Era.fail_trips htrip] at hafter
  refine ⟨s', ?_, hn ▸ hafter⟩
  rw [hn, List.range_succ, List.flatMap_append, Lts.runFrom_append, hs, List.flatMap_singleton]
  exact hs'

theorem probeAt_nonneg : 0 ≤ probeAt p := by
  unfold probeAt
  have : (0 : ℚ) ≤ max 0 ((p.breaker.probeLeaseMs : ℚ) - p.primarySeconds * 1000) := le_max_left _ _
  positivity

theorem probeAt_ms : 1000 * probeAt p =
    p.recoveryTimeoutMs + max 0 ((p.breaker.probeLeaseMs : ℚ) - p.primarySeconds * 1000) := by
  unfold probeAt
  ring

theorem floor_probeAt (h : ¬ p.PhaseFits) : ⌊1000 * probeAt p⌋₊ = p.recoveryTimeoutMs := by
  unfold ProbeSettings.PhaseFits at h
  rw [not_le] at h
  rw [probeAt_ms, add_comm, Nat.floor_add_natCast (le_max_left _ _), Nat.floor_eq_zero.mpr, zero_add]
  exact max_lt one_pos (by linarith)

theorem lease_expired : p.recoveryTimeoutMs + p.breaker.probeLeaseMs ≤ ⌊1000 * (probeAt p + p.primarySeconds)⌋₊ := by
  apply Nat.le_floor
  rw [mul_add, probeAt_ms]
  have := le_max_right (0 : ℚ) ((p.breaker.probeLeaseMs : ℚ) - p.primarySeconds * 1000)
  push_cast
  linarith

/-- The probe is in its attempt after `m` retries, each of which took as long
as it may. -/
structure InAttempt (p : ProbeSettings) (token : String) (m : Nat) (s : GatewaySys) : Prop where
  now : s.now = probeAt p + m * (p.timeoutSeconds + p.controller.retryBackoffSeconds)
  run : s.runs = [⟨permitOf (.probe 2 token), probeAt p, m + 1, false, s.now⟩]
  clock : s.breaker.now = microsAt s.now
  holds : s.breaker.store.Holds p.breaker ⟨2, .probing token ⌊1000 * probeAt p⌋₊⟩
  granted : ∃ t, .granted (permitOf (.probe 2 token)) t ∈ s.breaker.log

theorem attempt_granted (hfits : ¬ p.PhaseFits) (h : Before p p.failureThreshold ⟨1, .opened 0⟩ s) :
    ∃ s', (gateways p).runFrom s [.tick (probeAt p), .allow (tokenOf p.failureThreshold)] = some s' ∧
      InAttempt p (tokenOf p.failureThreshold) 0 s' := by
  have htick : (gateways p).step s (.tick (probeAt p)) =
      some { s with now := probeAt p, breaker := { s.breaker with now := microsAt (probeAt p) } } := by
    refine (if_pos ⟨probeAt_nonneg, ?_⟩).trans (by rw [h.now, zero_add])
    intro run hr
    rw [h.runs] at hr
    cases hr
  have hms : ({ s.breaker with now := microsAt (probeAt p) } : BreakerSys).nowMs = ⌊1000 * probeAt p⌋₊ :=
    nowMs_microsAt _
  obtain ⟨b, hb, hr, hnow, hh, hlog⟩ := opened_grant (b := { s.breaker with now := microsAt (probeAt p) }) h.holds
    (tokenOf_fresh h.tokens) (by rw [hms, floor_probeAt hfits, Nat.zero_add]; rfl)
  rw [hms] at hh
  refine ⟨⟨probeAt p, b, [⟨permitOf (.probe 2 (tokenOf p.failureThreshold)), probeAt p, 1, false, probeAt p⟩]⟩, ?_,
    by simp, rfl, hnow, hh, _, hlog⟩
  rw [Lts.runFrom_cons, htick, Option.bind_some, Lts.runFrom_cons]
  simp [gateways, GatewaySys.step, hb, hr, h.runs]

variable {token : String}

theorem attempt_tick {m : Nat} (h : InAttempt p token m s) :
    (gateways p).step s (.tick p.timeoutSeconds) = some { s with
      now := s.now + p.timeoutSeconds
      breaker := { s.breaker with now := microsAt (s.now + p.timeoutSeconds) } } := by
  refine if_pos ⟨le_of_lt p.timeout_pos, ?_⟩
  intro run hr
  rw [h.run] at hr
  obtain rfl := List.mem_singleton.mp hr
  simp [PrimaryRun.deadline]

theorem attempt_next {m : Nat} (h : InAttempt p token m s) (hm : m + 1 ≤ p.controller.retryAttempts) :
    ∃ s', (gateways p).runFrom s (retryRun p) = some s' ∧ InAttempt p token (m + 1) s' := by
  have hnow : s.now + p.timeoutSeconds + p.controller.retryBackoffSeconds =
      probeAt p + ((m + 1 : Nat) : ℚ) * (p.timeoutSeconds + p.controller.retryBackoffSeconds) := by
    rw [h.now]
    push_cast
    ring
  rw [retryRun, Lts.runFrom_cons, attempt_tick h, Option.bind_some, Lts.runFrom_cons]
  refine ⟨⟨s.now + p.timeoutSeconds + p.controller.retryBackoffSeconds, { s.breaker with
    now := microsAt (s.now + p.timeoutSeconds + p.controller.retryBackoffSeconds) },
    [⟨permitOf (.probe 2 token), probeAt p, m + 1 + 1, false,
      s.now + p.timeoutSeconds + p.controller.retryBackoffSeconds⟩]⟩, ?_, hnow, rfl, rfl, h.holds, h.granted⟩
  by_cases hb : 0 < p.controller.retryBackoffSeconds
  · simp [gateways, GatewaySys.step, h.run, hm, hb, PrimaryRun.retried, PrimaryRun.deadline, PrimaryRun.nextAttempt,
      le_of_lt hb]
  · have hb0 : p.controller.retryBackoffSeconds = 0 := le_antisymm (not_lt.mp hb) p.controller.backoff_nonneg
    simp [gateways, GatewaySys.step, h.run, hm, hb0, PrimaryRun.retried, PrimaryRun.nextAttempt]

theorem attempt_last (m : Nat) : m ≤ p.controller.retryAttempts → ∀ {s : GatewaySys}, InAttempt p token 0 s →
    ∃ s', (gateways p).runFrom s (List.replicate m (retryRun p)).flatten = some s' ∧ InAttempt p token m s' := by
  induction m with
  | zero => exact fun _ {s} h => ⟨s, rfl, h⟩
  | succ m ih =>
    intro hm s h
    obtain ⟨t, ht, hattempt⟩ := ih (Nat.le_of_succ_le hm) h
    obtain ⟨u, hu, hnext⟩ := attempt_next hattempt hm
    refine ⟨u, ?_, hnext⟩
    rw [List.replicate_succ', List.flatten_append, Lts.runFrom_append, ht]
    simpa using hu

theorem outlast_not_kept (hfits : ¬ p.PhaseFits) :
    ¬ (gateways p).AllSteps (ProbeKept p) (gateways p).init (outlastRun p ++ [.finish 0 true]) := by
  obtain ⟨s₁, h₁, hopen⟩ := before_open (p := p)
  obtain ⟨s₂, h₂, hprobe⟩ := attempt_granted hfits hopen
  obtain ⟨s₃, h₃, hlast⟩ := attempt_last p.controller.retryAttempts (le_refl _) hprobe
  have htick : (gateways p).runFrom s₃ [.tick p.timeoutSeconds] = some { s₃ with
      now := s₃.now + p.timeoutSeconds
      breaker := { s₃.breaker with now := microsAt (s₃.now + p.timeoutSeconds) } } := by
    rw [Lts.runFrom_cons, attempt_tick hlast]
    rfl
  have hrun : (gateways p).runFrom (gateways p).init (outlastRun p) = some { s₃ with
      now := s₃.now + p.timeoutSeconds
      breaker := { s₃.breaker with now := microsAt (s₃.now + p.timeoutSeconds) } } := by
    simp only [outlastRun, Lts.runFrom_append, h₁, h₂, h₃, htick, Option.bind_some]
  have hend : s₃.now + p.timeoutSeconds = probeAt p + p.primarySeconds := by
    rw [hlast.now]
    unfold ProbeSettings.primarySeconds
    ring
  have hexpired : ⌊1000 * probeAt p⌋₊ + p.breaker.probeLeaseMs ≤ ⌊1000 * (s₃.now + p.timeoutSeconds)⌋₊ := by
    rw [floor_probeAt hfits, hend]
    exact lease_expired
  obtain ⟨t, hlog⟩ := hlast.granted
  obtain ⟨b, hb⟩ := record_enabled (C := p.breaker)
    (b := { s₃.breaker with now := microsAt (s₃.now + p.timeoutSeconds) }) hlog true
  have hstep : (gateways p).step { s₃ with
      now := s₃.now + p.timeoutSeconds
      breaker := { s₃.breaker with now := microsAt (s₃.now + p.timeoutSeconds) } } (.finish 0 true) =
        some ⟨s₃.now + p.timeoutSeconds, b, []⟩ := by
    simp [gateways, GatewaySys.step, hlast.run, hb]
  intro hall
  refine (hall.last hstep hrun).2 0 true ⟨permitOf (.probe 2 (tokenOf p.failureThreshold)), probeAt p,
    p.controller.retryAttempts + 1, false, s₃.now⟩ rfl (by rw [hlast.run]; rfl) rfl ⟨hexpired, ?_⟩
  intro hacc
  obtain ⟨q, hq, hcur⟩ := (accepts_iff hlast.holds).mp hacc
  obtain rfl := Option.some.inj ((pass_permitOf (.probe 2 (tokenOf p.failureThreshold))).symm.trans hq)
  -- the key of the probe has expired
  obtain ⟨_, since, hphase, hlt⟩ := hcur
  obtain ⟨_, rfl⟩ := Phase.probing.inj hphase
  rw [nowMs_microsAt, policy_lease] at hlt
  omega

end

section
variable (p : ProbeSettings)

theorem probe_kept_iff :
    (∀ as, (gateways p).AllSteps (ProbeKept p) (gateways p).init as) ↔
      ((p.controller.retryAttempts + 1) * p.timeoutSeconds +
        p.controller.retryAttempts * p.controller.retryBackoffSeconds) * 1000 ≤
      defaultProbeLeaseMs p.timeoutSeconds - 1 := by
  have hcast : (p.breaker.probeLeaseMs : ℚ) = defaultProbeLeaseMs p.timeoutSeconds := by
    show (((defaultProbeLeaseMs p.timeoutSeconds).toNat : Nat) : ℚ) = _
    rw [← Int.cast_natCast, Int.toNat_of_nonneg (le_of_lt (defaultProbeLeaseMs_pos _))]
  rw [← hcast]
  show _ ↔ p.PhaseFits
  constructor
  · intro hall
    by_contra hnot
    exact outlast_not_kept hnot (hall _)
  · intro hfits as
    refine Lts.allSteps_of_reachable ?_ as (gateways p).reachable_init
    intro s a s' hs hstep
    exact probeKept_step hfits (reachable_phaseInv hfits hs) hstep

end

/-- The settings when nothing is set: one retry, a timeout of 300 seconds, a
back-off of 0.2 seconds, three failures and a window of 20 seconds. -/
def defaultProbeSettings : ProbeSettings :=
  ⟨⟨1, 1 / 5, by norm_num⟩, 300, 3, 20000, by norm_num, by decide, by decide⟩

theorem default_outlasts : ¬ (gateways defaultProbeSettings).AllSteps (ProbeKept defaultProbeSettings)
    (gateways defaultProbeSettings).init (outlastRun defaultProbeSettings ++ [.finish 0 true]) := by
  apply outlast_not_kept
  have hlease : defaultProbeSettings.breaker.probeLeaseMs = 310000 := by
    show (defaultProbeLeaseMs 300).toNat = 310000
    unfold defaultProbeLeaseMs Python.trunc
    norm_num
    rfl
  unfold ProbeSettings.PhaseFits ProbeSettings.primarySeconds
  rw [hlease]
  norm_num [defaultProbeSettings]

end InferenceService
