import InferenceService.Breaker.RedisRun

/-!
# One half-open probe at a time

Half-open grants have increasing versions. Each of them is settled, or its
lease is over, or it is the probe of the present era.
-/

namespace InferenceService

/-- The half-open grants of a log, the most recent first. -/
def probeGrants (log : List BreakerEvent) : List (CircuitPermit × Nat) :=
  (grants log).filter (·.1.state = .halfOpen)

def Settled (log : List BreakerEvent) (p : CircuitPermit) : Prop := .success p ∈ log ∨ .failure p ∈ log

instance (log : List BreakerEvent) (p : CircuitPermit) : Decidable (Settled log p) :=
  inferInstanceAs (Decidable (_ ∨ _))

/-- The half-open permits that are unsettled and younger than the lease. -/
def liveProbes (C : RedisBreakerConfig) (s : BreakerSys) : List (CircuitPermit × Nat) :=
  (probeGrants s.log).filter fun g => ¬ Settled s.log g.1 ∧ s.nowMs < g.2 + C.probeLeaseMs

theorem mem_probeGrants {log : List BreakerEvent} {g : CircuitPermit × Nat} :
    g ∈ probeGrants log ↔ .granted g.1 g.2 ∈ log ∧ g.1.state = .halfOpen := by
  unfold probeGrants
  rw [List.mem_filter, decide_eq_true_eq, ← mem_grants]

theorem probeGrants_probe (log : List BreakerEvent) (v t : Nat) (token : String) :
    probeGrants (.granted (permitOf (.probe v token)) t :: log) =
      (permitOf (.probe v token), t) :: probeGrants log := by
  simp [probeGrants, grants, BreakerEvent.grant, permitOf]

theorem probeGrants_normal (log : List BreakerEvent) (v t : Nat) :
    probeGrants (.granted (permitOf (.normal v)) t :: log) = probeGrants log := by
  simp [probeGrants, grants, BreakerEvent.grant, permitOf]

theorem probeGrants_success (log : List BreakerEvent) (p : CircuitPermit) :
    probeGrants (.success p :: log) = probeGrants log := rfl

theorem probeGrants_failure (log : List BreakerEvent) (p : CircuitPermit) :
    probeGrants (.failure p :: log) = probeGrants log := rfl

theorem Settled.mono {log : List BreakerEvent} {p : CircuitPermit} (ev : BreakerEvent) (h : Settled log p) :
    Settled (ev :: log) p :=
  h.imp (List.mem_cons_of_mem _) (List.mem_cons_of_mem _)

section
variable (C : RedisBreakerConfig)

structure ProbeInv (s : BreakerSys) (e : Era String) : Prop where
  latest : ∀ tok since, e.phase = .probing tok since →
    (probeGrants s.log).head? = some (permitOf (.probe e.version tok), since)
  live : ∀ g ∈ probeGrants s.log, Settled s.log g.1 ∨ g.2 + C.probeLeaseMs ≤ s.nowMs ∨
    ∃ tok, e.phase = .probing tok g.2 ∧ g.1 = permitOf (.probe e.version tok)
  distinct : (probeGrants s.log).Nodup

variable {C} {s s' : BreakerSys} {e e' : Era String} {a : BreakerAct}

theorem current_grant (hl : Linked s e) {p : CircuitPermit} {q : Pass String} {t : Nat}
    (hg : .granted p t ∈ s.log) (hq : p.pass = some q) (hc : e.Current C.policy s.nowMs q) :
    p = permitOf q ∧ Fits q t e.phase := by
  obtain ⟨q', rfl, _, _, hf⟩ := hl.granted p t hg
  rw [pass_permitOf, Option.some.injEq] at hq
  subst hq
  refine ⟨rfl, hf ?_⟩
  cases q' with
  | normal v => exact hc.1
  | probe v tok => exact hc.1

theorem probeInv_settle {ev : BreakerEvent} (hi : ProbeInv C s e)
    (hev : probeGrants (ev :: s.log) = probeGrants s.log) : ProbeInv C { s with log := ev :: s.log } e where
  latest := by intro tok since hp; rw [hev]; exact hi.latest tok since hp
  live := by
    intro g hg
    rw [hev] at hg
    exact (hi.live g hg).imp (Settled.mono ev) id
  distinct := by rw [hev]; exact hi.distinct

theorem probeInv_leave (hl : Linked s e) (hi : ProbeInv C s e) {p : CircuitPermit} {q : Pass String} {t : Nat}
    {store : BreakerStore} {ev : BreakerEvent} (hg : .granted p t ∈ s.log) (hq : p.pass = some q)
    (hc : e.Current C.policy s.nowMs q) (hev : ev = .success p ∨ ev = .failure p)
    (hnot : ∀ tok since, e'.phase ≠ .probing tok since) :
    ProbeInv C { s with store, log := ev :: s.log } e' where
  latest := by intro tok since hp; exact absurd hp (hnot tok since)
  live := by
    intro g hg'
    have hold : g ∈ probeGrants s.log := by rcases hev with rfl | rfl <;> exact hg'
    rcases hi.live g hold with h | h | ⟨tok, hp, hgp⟩
    · exact .inl (h.mono ev)
    · exact .inr (.inl h)
    · refine .inl ?_
      obtain ⟨rfl, _⟩ := current_grant hl hg hq hc
      cases q with
      | normal v => rw [Era.Current, hp] at hc; cases hc.2
      | probe v tok' =>
        obtain ⟨rfl, since, hp', _⟩ := hc
        rw [hp, Phase.probing.injEq] at hp'
        rw [hgp, hp'.1]
        exact hev.imp (fun h => by rw [h]; exact List.mem_cons_self) fun h => by
          rw [h]; exact List.mem_cons_self
  distinct := by rcases hev with rfl | rfl <;> exact hi.distinct

theorem probeInv_step (hl : Linked s e) (hi : ProbeInv C s e) (hm : Moves C s e a s' e') : ProbeInv C s' e' := by
  cases hm with
  | tick us =>
    refine ⟨hi.latest, ?_, hi.distinct⟩
    intro g hg
    have hnow : s.nowMs ≤ nowMs (s.now + us) := nowMs_mono (Nat.le_add_right _ _)
    exact (hi.live g hg).imp id (Or.imp (fun h => Nat.le_trans h hnow) id)
  | refused => exact ⟨hi.latest, hi.live, hi.distinct⟩
  | normal =>
    have hi' := probeInv_settle hi (probeGrants_normal s.log e.version s.nowMs)
    exact ⟨hi'.latest, hi'.live, hi'.distinct⟩
  | @probe token store _ hc ht _ =>
    refine ⟨?_, ?_, ?_⟩
    · intro tok since hp
      obtain ⟨rfl, rfl⟩ := Phase.probing.inj hp
      simp only [probeGrants_probe, List.head?_cons]
    · intro g hg
      simp only [probeGrants_probe] at hg
      rcases List.mem_cons.mp hg with rfl | hg
      · exact .inr (.inr ⟨token, rfl, rfl⟩)
      · rcases hi.live g hg with h | h | ⟨tok, hp, _⟩
        · exact .inl (h.mono _)
        · exact .inr (.inl h)
        · -- the era's own probe gave way, so its lease is over
          have hover : g.2 + C.probeLeaseMs ≤ s.nowMs := by simpa [Era.gate, hp] using ht
          exact .inr (.inl hover)
    · simp only [probeGrants_probe]
      refine List.nodup_cons.mpr ⟨?_, hi.distinct⟩
      intro hmem
      obtain ⟨q, hq, _, hle, _⟩ := hl.granted _ _ (mem_probeGrants.mp hmem).1
      rw [permitOf_inj] at hq
      subst hq
      exact absurd hle (Nat.not_succ_le_self _)
  | staleSuccess _ _ _ => exact probeInv_settle hi (probeGrants_success _ _)
  | staleFailure _ _ _ => exact probeInv_settle hi (probeGrants_failure _ _)
  | @success p q t store hg hq hc _ =>
    refine probeInv_leave hl hi hg hq hc (.inl rfl) ?_
    intro tok since hphase
    cases q <;> cases hphase
  | @failure p q t store hg hq hc _ =>
    refine probeInv_leave hl hi hg hq hc (.inr rfl) ?_
    intro tok since hphase
    rcases Era.fail_cases C.policy s.nowMs e q with ⟨v, _, _, hf⟩ | ⟨v, _, _, hf⟩ | ⟨v, tok', _, hf⟩ <;>
      rw [hf] at hphase <;> cases hphase

theorem probeInv_init : ProbeInv C (redisBreaker C).init Era.initial where
  latest := by intro tok since hp; cases hp
  live := by intro g hg; cases hg
  distinct := List.nodup_nil

theorem reachable_probeInv (hs : (redisBreaker C).Reachable s) :
    ∃ e, s.store.Holds C e ∧ Linked s e ∧ ProbeInv C s e :=
  reachable_era probeInv_init (fun _ _ _ _ _ _ => probeInv_step) hs

theorem live_probe_le_one (hi : ProbeInv C s e) : (liveProbes C s).length ≤ 1 := by
  have hnd : (liveProbes C s).Nodup := hi.distinct.filter _
  have hcur : ∀ g ∈ liveProbes C s, ∃ tok, e.phase = .probing tok g.2 ∧ g.1 = permitOf (.probe e.version tok) := by
    intro g hg
    obtain ⟨hg, hlive⟩ := List.mem_filter.mp hg
    rw [decide_eq_true_eq] at hlive
    rcases hi.live g hg with h | h | h
    · exact absurd h hlive.1
    · exact absurd hlive.2 (Nat.not_lt.mpr h)
    · exact h
  cases hl : liveProbes C s with
  | nil => exact Nat.zero_le _
  | cons g l =>
    rw [hl] at hnd hcur
    have hall : ∀ g' ∈ g :: l, g' = g := by
      intro g' hg'
      obtain ⟨tok, hp, h1⟩ := hcur g List.mem_cons_self
      obtain ⟨tok', hp', h1'⟩ := hcur g' hg'
      rw [hp, Phase.probing.injEq] at hp'
      refine Prod.ext ?_ hp'.2.symm
      rw [h1, h1', hp'.1]
    have := List.eq_replicate_of_mem hall
    rw [this, List.nodup_replicate] at hnd
    exact hnd

end

section
variable (C : RedisBreakerConfig)

theorem single_probe {s : BreakerSys} (hs : (redisBreaker C).Reachable s) :
    (liveProbes C s).length ≤ 1 ∧
    (∀ token, s.store.probe.get s.nowMs = some token → s.state = "half_open" ∧
      ∃ g, (probeGrants s.log).head? = some g ∧ g.1.probeToken.getD "" = token) ∧
    (s.state = "half_open" → ∀ p t, .granted p t ∈ s.log →
      (recordSuccessCall s.now p s.store).2.circuit.hgetState ≠ s.state ∨
        (recordFailureCall C s.now p s.store).2.circuit.hgetState ≠ s.state →
      (probeGrants s.log).head? = some (p, t) ∧ s.nowMs < t + C.probeLeaseMs) := by
  obtain ⟨e, hh, hl, hi⟩ := reachable_probeInv hs
  have hf := hh.fields
  refine ⟨live_probe_le_one hi, ?_, ?_⟩
  · intro token hget
    cases hp : e.phase with
    | closed f => rw [hp] at hf; rw [hf.2] at hget; cases hget
    | opened since => rw [hp] at hf; rw [hf.2] at hget; cases hget
    | probing tok since =>
      rw [hp] at hf
      have hk : s.store.probe = some ⟨tok, since + C.probeLeaseMs⟩ := hf
      rw [hk, Redis.Key.get_eq_some] at hget
      obtain ⟨v, hv, _, htok⟩ := hget
      obtain rfl := Option.some.inj hv
      subst htok
      refine ⟨by rw [BreakerSys.state, hh.state, hp]; rfl, _, hi.latest tok since hp, ?_⟩
      by_cases htok : tok = "" <;> simp [permitOf, htok]
  · intro hstate p t hg hchange
    have hacc : s.store.Accepts s.now p := by
      refine Classical.byContradiction fun hn => ?_
      rw [success_rejected hn, failure_rejected hn] at hchange
      exact hchange.elim (fun h => h rfl) fun h => h rfl
    obtain ⟨q, hq, hc⟩ := (accepts_iff hh).mp hacc
    obtain ⟨rfl, hfit⟩ := current_grant hl hg hq hc
    have hhalf : e.phase.state = .halfOpen := CircuitState.value_inj.mp (hh.state ▸ hstate)
    cases q with
    | normal v => rw [Era.Current, hhalf] at hc; cases hc.2
    | probe v tok =>
      obtain ⟨rfl, since, hp, hlt⟩ := hc
      rw [hp] at hfit
      obtain ⟨_, _, rfl⟩ := hfit
      exact ⟨hi.latest tok t hp, hlt⟩

theorem single_probe_granted : (liveProbes quickTrip probed).length ≤ 1 ∧
    ∃ g, (probeGrants probed.log).head? = some g ∧ g.1.probeToken.getD "" = "b" := by
  obtain ⟨hle, hkey, _⟩ := single_probe quickTrip probed_reachable
  exact ⟨hle, (hkey "b" (by decide)).2⟩

end

end InferenceService
