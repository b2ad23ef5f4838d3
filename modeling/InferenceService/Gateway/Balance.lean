import InferenceService.Breaker.OutageSafety
import InferenceService.Gateway.Totals
import Mathlib.Algebra.Order.BigOperators.Group.List

/-!
# A gateway on its own breaker

How the transitions that a gateway counts fit together, and that a gateway in
which no request is in flight has no probe out: it lets a request through again
when the window is over.
-/

namespace InferenceService

/-! ## What a call does to the breaker -/

/-- The breaker after the call, with what the call answered. -/
def BreakerMoved (C : CircuitBreakerConfig) (b b' : CircuitBreaker) : GatewayEvent → Prop
  | ⟨.execute .allowPrimaryCall, a⟩ => ∃ now later, a = (b.allowPrimaryCall C now later).1 ∧
      b' = (b.allowPrimaryCall C now later).2
  | ⟨.execute (.recordSuccess permit), a⟩ => a = (b.recordSuccess (some permit)).1 ∧
      b' = (b.recordSuccess (some permit)).2
  | ⟨.execute (.recordFailure permit), a⟩ => ∃ now, a = (b.recordFailure C now (some permit)).1 ∧
      b' = (b.recordFailure C now (some permit)).2
  | ⟨.execute .snapshot, _⟩ | ⟨.execute .state, _⟩ => ∃ now, b' = b.advanceOpenStateIfReady C now
  | _ => b' = b

section
variable {C : CircuitBreakerConfig} {g : Gateway} {o o' : CalledBreaker × GatewayMetrics}
  {met : (ℚ × ℚ) × Except BackendException Python.Dict} {c : GatewayCall} {a : c.Answer}

theorem local_serve {method : BreakerMethod} {x : method.Answer} {b b' : CalledBreaker} {m : ℚ × ℚ}
    (h : (localBreakerObject C).serve b m method = some (x, b')) : 0 ≤ m.1 ∧ 0 ≤ m.2 ∧
      x = b.breaker.answer C (b.now + m.1) (b.now + m.1 + m.2) method ∧
      b' = ⟨b.now + m.1 + m.2, b.breaker.called C (b.now + m.1) (b.now + m.1 + m.2) method.toCall⟩ := by
  simp only [localBreakerObject, Option.ite_none_right_eq_some, Option.some.injEq, Prod.mk.injEq] at h
  obtain ⟨⟨hwait, hlag⟩, hx, hb⟩ := h
  exact ⟨hwait, hlag, hx.symm, hb.symm⟩

theorem shared_moved (h : (g.shared (localBreakerObject C)).serve o met c = some (a, o')) :
    BreakerMoved C o.1.breaker o'.1.breaker ⟨c, a⟩ := by
  have hbreaker : ∀ {method : BreakerMethod} {x : method.Answer},
      (((localBreakerObject C).serve o.1 met.1 method).map fun r => (r.1, r.2, o.2)) = some (x, o') →
        ∃ now later, x = o.1.breaker.answer C now later method ∧
          o'.1.breaker = o.1.breaker.called C now later method.toCall := by
    intro method x hx
    obtain ⟨r, hr, heq⟩ := Option.map_eq_some_iff.mp hx
    obtain ⟨_, _, hanswer, hcalled⟩ := local_serve hr
    cases heq
    rw [hcalled]
    exact ⟨_, _, hanswer, rfl⟩
  cases c with
  | setCircuitState candidate value => exact congrArg (fun p => p.2.1.breaker) (Option.some.inj h).symm
  | recordBackendFailure errorType => exact congrArg (fun p => p.2.1.breaker) (Option.some.inj h).symm
  | execute call =>
    cases call with
    | allowPrimaryCall => exact hbreaker h
    | recordSuccess permit =>
      obtain ⟨_, _, ha, hb⟩ := hbreaker h
      exact ⟨ha, hb⟩
    | recordFailure permit =>
      obtain ⟨now, _, ha, hb⟩ := hbreaker h
      exact ⟨now, ha, hb⟩
    | snapshot =>
      obtain ⟨now, _, _, hb⟩ := hbreaker h
      exact ⟨now, hb⟩
    | state =>
      obtain ⟨now, _, _, hb⟩ := hbreaker h
      exact ⟨now, hb⟩
    | _ => exact congrArg (fun p => p.2.1.breaker) (Option.some.inj h).symm

/-! ## The transitions -/

theorem recordFailure_told (b : CircuitBreaker) (now : ℚ) (permit : Option CircuitPermit) :
    (b.recordFailure C now permit).1 = CircuitTransition.between b (b.recordFailure C now permit).2 := by
  unfold CircuitTransition.between CircuitBreaker.recordFailure CircuitBreaker.open
  cases hs : b.state with
  | halfOpen => simp
  | closed => by_cases hth : C.failureThreshold ≤ b.consecutiveFailures + 1 <;> simp [hth]
  | «open» => by_cases hth : C.failureThreshold ≤ b.consecutiveFailures + 1 <;> simp [hth]

/-- A failure leaves the breaker in its state or opens it. -/
theorem recordFailure_state (b : CircuitBreaker) (now : ℚ) (permit : Option CircuitPermit) :
    (b.recordFailure C now permit).2.state = b.state ∨ (b.recordFailure C now permit).2.state = .open := by
  rcases CircuitBreaker.recordFailure_cases C now b permit with ⟨h, _⟩ | ⟨_, h⟩
  · exact .inr h
  · rw [h]
    exact .inl rfl

def outOfService (b : CircuitBreaker) : Nat := if b.state = .closed then 0 else 1

/-- A record that closed the breaker. -/
def closedBreaker (e : GatewayEvent) : Nat := moved ⟨.open, .closed⟩ e + moved ⟨.halfOpen, .closed⟩ e

theorem moved_between {b b' : CircuitBreaker} {x : Option CircuitTransition} (hx : x = CircuitTransition.between b b')
    (h : b'.state = b.state ∨ b'.state = .open ∨ b'.state = .closed) :
    outOfService b' + ((if x = some ⟨.open, .closed⟩ then 1 else 0) + if x = some ⟨.halfOpen, .closed⟩ then 1 else 0) =
      outOfService b + if x = some ⟨.closed, .open⟩ then 1 else 0 := by
  rw [hx]
  unfold outOfService CircuitTransition.between
  rcases h with h | h | h
  · simp [h]
  · cases hb : b.state <;> simp [h]
  · cases hb : b.state <;> simp [h]

theorem outOfService_advance (b : CircuitBreaker) (now : ℚ) :
    outOfService (b.advanceOpenStateIfReady C now) = outOfService b := by
  unfold outOfService
  rcases CircuitBreaker.advance_cases C now b with h | ⟨hs, h⟩
  · rw [h]
  · rw [h]
    simp [hs]

theorem outOfService_allow (b : CircuitBreaker) (now later : ℚ) :
    outOfService (b.allowPrimaryCall C now later).2 = outOfService b := by
  rcases CircuitBreaker.allow_cases C now later b with ⟨err, h⟩ | ⟨_, h⟩ | ⟨_, _, h⟩
  · rw [h]
    exact outOfService_advance b now
  · rw [h]
  · rw [h]
    exact outOfService_advance b now

theorem outOfService_moved (h : BreakerMoved C o.1.breaker o'.1.breaker ⟨c, a⟩) :
    outOfService o'.1.breaker + closedBreaker ⟨c, a⟩ = outOfService o.1.breaker + moved ⟨.closed, .open⟩ ⟨c, a⟩ := by
  cases c with
  | setCircuitState candidate value => exact congrArg outOfService h
  | recordBackendFailure errorType => exact congrArg outOfService h
  | execute call =>
    cases call with
    | allowPrimaryCall =>
      obtain ⟨now, later, _, hb⟩ := h
      rw [hb]
      exact outOfService_allow _ now later
    | recordSuccess permit =>
      obtain ⟨ha, hb⟩ := h
      have htold := ha.trans (recordSuccess_between o.1.breaker (some permit))
      rw [hb]
      exact moved_between htold (.inr (.inr (by rw [CircuitBreaker.recordSuccess_snd])))
    | recordFailure permit =>
      obtain ⟨now, ha, hb⟩ := h
      have htold := ha.trans (recordFailure_told o.1.breaker now (some permit))
      rw [hb]
      exact moved_between htold ((recordFailure_state o.1.breaker now (some permit)).imp_right .inl)
    | snapshot =>
      obtain ⟨now, hb⟩ := h
      rw [hb]
      exact outOfService_advance _ now
    | state =>
      obtain ⟨now, hb⟩ := h
      rw [hb]
      exact outOfService_advance _ now
    | _ => exact congrArg outOfService h

/-- A probe that is out was let through by this call, or before it and not recorded since. -/
theorem probe_moved (h : BreakerMoved C o.1.breaker o'.1.breaker ⟨c, a⟩)
    (hf : o'.1.breaker.halfOpenProbeInFlight = true) :
    recorded ⟨c, a⟩ = 0 ∧ (o.1.breaker.halfOpenProbeInFlight = true ∨ permits ⟨c, a⟩ = 1) := by
  cases c with
  | setCircuitState candidate value => exact ⟨rfl, .inl (h ▸ hf)⟩
  | recordBackendFailure errorType => exact ⟨rfl, .inl (h ▸ hf)⟩
  | execute call =>
    cases call with
    | allowPrimaryCall =>
      obtain ⟨now, later, rfl, hb⟩ := h
      refine ⟨rfl, ?_⟩
      rcases CircuitBreaker.allow_cases C now later o.1.breaker with ⟨err, ha⟩ | ⟨_, ha⟩ | ⟨_, _, ha⟩
      · rw [hb, ha] at hf
        exact .inl (advance_probe hf)
      · rw [hb, ha] at hf
        exact .inl hf
      · rw [ha]
        exact .inr rfl
    | recordSuccess permit =>
      obtain ⟨_, hb⟩ := h
      rw [hb, CircuitBreaker.recordSuccess_snd] at hf
      cases hf
    | recordFailure permit =>
      obtain ⟨now, _, hb⟩ := h
      rw [hb, recordFailure_probe] at hf
      cases hf
    | snapshot =>
      obtain ⟨now, hb⟩ := h
      exact ⟨rfl, .inl (advance_probe (hb ▸ hf))⟩
    | state =>
      obtain ⟨now, hb⟩ := h
      exact ⟨rfl, .inl (advance_probe (hb ▸ hf))⟩
    | _ => exact ⟨rfl, .inl (h ▸ hf)⟩

end

/-! ## Any interleaving -/

section
variable {C : CircuitBreakerConfig} {g : Gateway} {start : ℚ} {s : ServingState CalledBreaker}

theorem records_le_permits {β ι κ : Type} {breaker : BreakerObject β ι κ} {b₀ : β} {s : ServingState β}
    (hs : (g.serving breaker b₀).Reachable s) : s.tally recorded ≤ s.tally permits := by
  apply List.sum_le_sum
  intro client hc
  exact records_within g client.origin _ _ (Crowd.reachable_paths hs client hc)

theorem probe_unrecorded (hs : (g.serving (localBreakerObject C) ⟨start, {}⟩).Reachable s)
    (hf : s.object.1.breaker.halfOpenProbeInFlight = true) : s.tally recorded < s.tally permits := by
  refine hs.invariant (P := fun s => s.object.1.breaker.halfOpenProbeInFlight = true →
    s.tally recorded < s.tally permits) ?_ ?_ hf
  · intro hf
    cases hf
  · intro s act t hs ih hstep hf
    cases Crowd.moves hstep with
    | arrive p =>
      rw [Crowd.tally_arrive, Crowd.tally_arrive]
      exact ih hf
    | @call i client c next input a object hi _ hserve =>
      obtain ⟨hrec, hwhy⟩ := probe_moved (shared_moved hserve) hf
      rw [Crowd.tally_call recorded hi, Crowd.tally_call permits hi, hrec]
      have hle := records_le_permits hs
      rcases hwhy with hold | hnew
      · have := ih hold
        omega
      · omega
    | @own k => cases k

/-- A call leaves the breaker alone or is one of its methods. -/
theorem shared_breaker {β ι κ : Type} {breaker : BreakerObject β ι κ} {o o' : β × GatewayMetrics}
    {met : ι × Except BackendException Python.Dict} {c : GatewayCall} {a : c.Answer}
    (h : (g.shared breaker).serve o met c = some (a, o')) :
    o'.1 = o.1 ∨ ∃ method x, breaker.serve o.1 met.1 method = some (x, o'.1) := by
  have hbreaker : ∀ {method : BreakerMethod} {x : method.Answer},
      ((breaker.serve o.1 met.1 method).map fun r => (r.1, r.2, o.2)) = some (x, o') →
        ∃ method x, breaker.serve o.1 met.1 method = some (x, o'.1) := by
    intro method x hx
    obtain ⟨r, hr, heq⟩ := Option.map_eq_some_iff.mp hx
    cases heq
    exact ⟨method, r.1, hr⟩
  cases c with
  | setCircuitState candidate value => exact .inl (congrArg (fun p => p.2.1) (Option.some.inj h).symm)
  | recordBackendFailure errorType => exact .inl (congrArg (fun p => p.2.1) (Option.some.inj h).symm)
  | execute call =>
    cases call with
    | allowPrimaryCall => exact .inr (hbreaker h)
    | recordSuccess permit => exact .inr (hbreaker h)
    | recordFailure permit => exact .inr (hbreaker h)
    | snapshot => exact .inr (hbreaker h)
    | state => exact .inr (hbreaker h)
    | _ => exact .inl (congrArg (fun p => p.2.1) (Option.some.inj h).symm)

theorem local_reachable (hs : (g.serving (localBreakerObject C) ⟨start, {}⟩).Reachable s) :
    (localCalls C start).Reachable s.object.1 := by
  refine Crowd.reachable_object (I := fun o => (localCalls C start).Reachable o.1) (localCalls C start).reachable_init
    ?_ ?_ hs
  · intro o met c a o' ho h
    rcases shared_breaker h with heq | ⟨method, x, hserve⟩
    · rw [heq]
      exact ho
    · obtain ⟨hwait, hlag, _, hcalled⟩ := local_serve hserve
      have hstep : (localCalls C start).step o.1 ⟨met.1.1, met.1.2, method.toCall⟩ = some o'.1 := by
        rw [hcalled]
        exact if_pos ⟨hwait, hlag⟩
      exact ho.step hstep
  · intro o k
    cases k

theorem told_moved {o o' : CalledBreaker × GatewayMetrics} {c : GatewayCall} {a : c.Answer}
    (h : BreakerMoved C o.1.breaker o'.1.breaker ⟨c, a⟩) {t : CircuitTransition}
    (ht : t ∉ [⟨.closed, .open⟩, ⟨.open, .closed⟩, ⟨.halfOpen, .closed⟩, ⟨.halfOpen, .open⟩]) :
    moved t ⟨c, a⟩ = 0 := by
  have hbetween : ∀ {b b' : CircuitBreaker} {x : Option CircuitTransition}, x = CircuitTransition.between b b' →
      b'.state = b.state ∨ b'.state = .open ∨ b'.state = .closed → (if x = some t then 1 else 0) = 0 := by
    intro b b' x hx hstate
    refine if_neg ?_
    rintro rfl
    unfold CircuitTransition.between at hx
    rcases hstate with hs | hs | hs
    · simp [hs] at hx
    · cases hb : b.state <;> simp_all
    · cases hb : b.state <;> simp_all
  cases c with
  | execute call =>
    cases call with
    | recordSuccess permit =>
      obtain ⟨ha, _⟩ := h
      exact hbetween (ha.trans (recordSuccess_between o.1.breaker (some permit)))
        (.inr (.inr (by rw [CircuitBreaker.recordSuccess_snd])))
    | recordFailure permit =>
      obtain ⟨now, ha, _⟩ := h
      exact hbetween (ha.trans (recordFailure_told o.1.breaker now (some permit)))
        ((recordFailure_state o.1.breaker now (some permit)).imp_right .inl)
    | _ => rfl
  | _ => rfl

theorem serving_balance (hs : (g.serving (localBreakerObject C) ⟨start, {}⟩).Reachable s) :
    outOfService s.object.1.breaker + s.tally closedBreaker = s.tally (moved ⟨.closed, .open⟩) := by
  have h := Crowd.reachable_balance (m := fun o : CalledBreaker × GatewayMetrics => outOfService o.1.breaker)
    (v := closedBreaker) (w := moved ⟨.closed, .open⟩) (fun o met c a o' h => outOfService_moved (shared_moved h))
    (fun o k => by cases k) hs
  simpa [outOfService] using h

end

theorem circuit_transitions_balance (g : Gateway) (C : CircuitBreakerConfig) (start : ℚ)
    {s : ServingState CalledBreaker} (hs : (g.serving (localBreakerObject C) ⟨start, {}⟩).Reachable s)
    (hq : s.Quiescent) :
    s.object.2.transitions ⟨.closed, .open⟩ = s.object.2.transitions ⟨.open, .closed⟩ +
        s.object.2.transitions ⟨.halfOpen, .closed⟩ + (if s.object.1.breaker.state = .closed then 0 else 1) ∧
      ∀ t, t ∉ [⟨.closed, .open⟩, ⟨.open, .closed⟩, ⟨.halfOpen, .closed⟩, ⟨.halfOpen, .open⟩] →
        s.object.2.transitions t = 0 := by
  have htold : ∀ t, s.object.2.transitions t = s.tally (moved t) := by
    intro t
    rw [counter_eq (m := fun x => x.transitions t) g (localBreakerObject C) rfl (transitions_after g t) hs]
    exact tally_congr hs hq fun es reply h => h.transitions t
  constructor
  · have hbalance := serving_balance hs
    have hclosed : s.tally closedBreaker = s.tally (moved ⟨.open, .closed⟩) + s.tally (moved ⟨.halfOpen, .closed⟩) :=
      tally_add _ _ s
    rw [htold, htold, htold]
    unfold outOfService at hbalance
    omega
  · intro t ht
    rw [htold]
    have := Crowd.reachable_tally (m := fun _ => 0) (w := moved t)
      (fun o met c a o' h => by rw [told_moved (shared_moved h) ht]) (fun o k => by cases k) hs
    omega

theorem circuit_transitions_balance_interleaved : interleaved.object.2.transitions ⟨.closed, .open⟩ = 1 ∧
    1 = interleaved.object.2.transitions ⟨.open, .closed⟩ +
      interleaved.object.2.transitions ⟨.halfOpen, .closed⟩ := by
  have h := (circuit_transitions_balance plainGateway tripFirst 0 interleaved_reachable interleaved_quiescent).1
  have hopened : interleaved.object.2.transitions ⟨.closed, .open⟩ = 1 := by decide +kernel
  have hclosed : interleaved.object.1.breaker.state = .closed := by decide +kernel
  rw [hopened, if_pos hclosed] at h
  exact ⟨hopened, h⟩

/-- When no request is in flight no probe is out, and whoever comes after the
window is let through. -/
theorem resting_gateway_recovers (g : Gateway) (C : CircuitBreakerConfig) (start : ℚ) {s : ServingState CalledBreaker}
    (hs : (g.serving (localBreakerObject C) ⟨start, {}⟩).Reachable s) (hq : s.Quiescent) :
    s.object.1.breaker.halfOpenProbeInFlight = false ∧ ∀ wait lag, C.recoveryTimeoutSeconds ≤ wait →
      ∃ permit, (s.object.1.breaker.allowPrimaryCall C (s.object.1.now + wait) (s.object.1.now + wait + lag)).1 =
        .ok permit := by
  have hfree : s.object.1.breaker.halfOpenProbeInFlight = false := by
    by_contra hf
    have hlt := probe_unrecorded hs (Bool.eq_true_of_not_eq_false hf)
    have heq : s.tally recorded = s.tally permits := tally_congr hs hq fun es reply h => h.recorded_eq
    omega
  refine ⟨hfree, fun wait lag hwait => ?_⟩
  obtain ⟨gs, hgrants⟩ : ∃ gs, (localGrants C start).Reachable (s.object.1, gs) := (local_reachable hs).recorded
  cases ha : (s.object.1.breaker.allowPrimaryCall C (s.object.1.now + wait) (s.object.1.now + wait + lag)).1 with
  | ok permit => exact ⟨permit, rfl⟩
  | error err =>
    obtain ⟨_, hsoon | hprobe⟩ := refused_because (reachable_localPaced hgrants) ha
    · dsimp only at hsoon
      linarith
    · rw [hfree] at hprobe
      cases hprobe

theorem resting_gateway_recovers_interleaved :
    ∃ permit, (interleaved.object.1.breaker.allowPrimaryCall tripFirst (interleaved.object.1.now + 1)
      (interleaved.object.1.now + 1 + 0)).1 = .ok permit :=
  (resting_gateway_recovers plainGateway tripFirst 0 interleaved_reachable interleaved_quiescent).2 1 0
    (by decide +kernel)

end InferenceService
