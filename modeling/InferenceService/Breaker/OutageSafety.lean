import InferenceService.Breaker.Outages

/-!
# What a pod may rely on in an outage

A refusal of the fallback ends with its window, or with a request of the same
pod that has the probe.
-/

namespace InferenceService

/-! ## No lock-out -/

section
variable {C : CircuitBreakerConfig} {b : CircuitBreaker} {t now later : ℚ} {probes : List ℚ}

theorem remaining_le_recovery (h : LocalPaced C t b probes) (ht : t ≤ now) :
    b.remainingOpenSeconds C now ≤ C.recoveryTimeoutSeconds := by
  have hpos := C.recoveryTimeoutSeconds_pos
  unfold CircuitBreaker.remainingOpenSeconds
  cases ho : b.openedAt with
  | none => exact hpos.le
  | some o =>
    have := h.since o ho
    exact max_le hpos.le (by linarith)

/-- A refusal means that the window is not over, or that a probe is out. -/
theorem refused_because (h : LocalPaced C t b probes) {err : CircuitOpenError}
    (hr : (b.allowPrimaryCall C now later).1 = .error err) :
    err = .init ((b.advanceOpenStateIfReady C now).remainingOpenSeconds C later) ∧
      (now < t + C.recoveryTimeoutSeconds ∨ b.halfOpenProbeInFlight = true) := by
  have hadv := CircuitBreaker.advance_cases C now b
  unfold CircuitBreaker.allowPrimaryCall at hr
  cases hs : (b.advanceOpenStateIfReady C now).state with
  | closed => simp [hs] at hr
  | «open» =>
    simp only [hs, if_true, Except.error.injEq] at hr
    refine ⟨hr.symm, .inl ?_⟩
    have hopen : b.state = .open := by
      rcases hadv with ha | ⟨ho, _⟩
      · rwa [ha] at hs
      · exact ho
    obtain ⟨o, ho, _⟩ := h.opened hopen
    have hot := h.since o ho
    by_contra hlate
    have hwaited : ¬ 0 < b.remainingOpenSeconds C now := by
      simp only [CircuitBreaker.remainingOpenSeconds, ho, lt_max_iff, lt_irrefl, false_or, not_lt]
      linarith
    have hready : (b.advanceOpenStateIfReady C now).state = .halfOpen := by
      simp [CircuitBreaker.advanceOpenStateIfReady, hopen, hwaited]
    rw [hs] at hready
    cases hready
  | halfOpen =>
    simp only [hs, reduceCtorEq, if_false, if_true] at hr
    by_cases hf : (b.advanceOpenStateIfReady C now).halfOpenProbeInFlight = true
    · simp only [hf, if_true, Except.error.injEq] at hr
      refine ⟨hr.symm, .inr ?_⟩
      rcases hadv with ha | ⟨_, ha⟩
      · rwa [ha] at hf
      · rw [ha] at hf
        cases hf
    · simp [hf] at hr

theorem recordFailure_probe (permit : Option CircuitPermit) :
    (b.recordFailure C now permit).2.halfOpenProbeInFlight = false := by
  unfold CircuitBreaker.recordFailure CircuitBreaker.open
  by_cases hs : b.state = .halfOpen
  · simp [hs]
  · by_cases hth : C.failureThreshold ≤ b.consecutiveFailures + 1
    · by_cases ho : b.state = .open <;> simp [hs, hth, ho]
    · simp [hs, hth]

theorem advance_probe (h : (b.advanceOpenStateIfReady C now).halfOpenProbeInFlight = true) :
    b.halfOpenProbeInFlight = true := by
  rcases CircuitBreaker.advance_cases C now b with ha | ⟨_, ha⟩
  · rwa [ha] at h
  · rw [ha] at h
    cases h

end

/-- A probe of the fallback that no request of the pod has settled. -/
def Pod.ProbeOut (p : Pod) : Prop := ∃ permit ∈ p.permits, permit.store = .localFallback ∧ permit.state = .halfOpen

theorem mem_eraseIdx_of_ne {α : Type} {l : List α} {k : Nat} {x y : α} (hk : l[k]? = some x) (hy : y ∈ l)
    (hne : y ≠ x) : y ∈ l.eraseIdx k := by
  obtain ⟨hlt, rfl⟩ := List.getElem?_eq_some_iff.mp hk
  exact (List.mem_cons.mp ((List.getElem_cons_eraseIdx_perm hlt).mem_iff.mpr hy)).resolve_left hne

section
variable {G : Type} [DecidableEq G] {R : RedisBreakerConfig} {C : CircuitBreakerConfig} {start : G → ℚ}
  {s s' : OutageSys G} {a : OutageAct G}

theorem probeOut_step (h : ∀ g, (s.pod g).fallback.halfOpenProbeInFlight = true → (s.pod g).ProbeOut)
    (hs : (outages R C start).step s a = some s') :
    ∀ g, (s'.pod g).fallback.halfOpenProbeInFlight = true → (s'.pod g).ProbeOut := by
  cases a with
  | tick us =>
    obtain rfl := Option.some.inj hs
    exact h
  | late k =>
    obtain ⟨script, _, rfl⟩ := Option.map_eq_some_iff.mp hs
    exact h
  | allow g wait lag answered token =>
    simp only [outages, OutageSys.step, Option.ite_none_right_eq_some, Option.some.injEq] at hs
    obtain ⟨_, rfl⟩ := hs
    have hsame : (s.send R answered (.allow token)).pod = s.pod := by cases answered <;> rfl
    refine (Function.forall_update_iff _ fun _ (p : Pod) => p.fallback.halfOpenProbeInFlight = true → p.ProbeOut).mpr
      ⟨fun hf => ?_, fun g _ => hsame ▸ h g⟩
    have hold : (s.pod g).fallback.halfOpenProbeInFlight = true → ∃ permit ∈
        (s.allowed R C g wait lag answered token).1.toOption.toList ++ (s.pod g).permits,
          permit.store = .localFallback ∧ permit.state = .halfOpen := by
      intro hf
      obtain ⟨permit, hmem, hp⟩ := h g hf
      exact ⟨permit, List.mem_append_right _ hmem, hp⟩
    cases answered with
    | true => exact hold hf
    | false =>
      simp only [OutageSys.allowed, RedisCircuitBreaker.allowPrimaryCall, Bool.false_eq_true, if_false,
        localFallbackPermit_snd] at hf
      rcases CircuitBreaker.allow_cases C ((s.pod g).now + wait) ((s.pod g).now + wait + lag) (s.pod g).fallback with
        ⟨err, ha⟩ | ⟨_, ha⟩ | ⟨_, _, ha⟩
      · rw [ha] at hf
        exact hold (advance_probe hf)
      · rw [ha] at hf
        exact hold hf
      · refine ⟨CircuitPermit.fellBack { state := .halfOpen }, List.mem_append_left _ ?_, rfl, rfl⟩
        simp only [OutageSys.allowed, RedisCircuitBreaker.allowPrimaryCall, Bool.false_eq_true, if_false,
          localFallbackPermit_granted, ha]
        exact List.mem_singleton_self _
  | settle g wait answered k success =>
    simp only [outages, OutageSys.step, Option.ite_none_right_eq_some] at hs
    obtain ⟨_, hs⟩ := hs
    obtain ⟨permit, hk, rfl⟩ := Option.map_eq_some_iff.mp hs
    have hsame : (if permit.store = .redis then s.send R answered (.ofRecord permit success) else s).pod = s.pod := by
      by_cases hp : permit.store = .redis
      · cases answered <;> simp [hp, OutageSys.send]
      · simp [hp]
    refine (Function.forall_update_iff _ fun _ (p : Pod) => p.fallback.halfOpenProbeInFlight = true → p.ProbeOut).mpr
      ⟨fun hf => ?_, fun g _ => hsame ▸ h g⟩
    by_cases hq : permit.store = .redis ∧ answered = true
    · obtain ⟨hp, rfl⟩ := hq
      rw [recorded_answered hp] at hf
      obtain ⟨holder, hmem, hstore, hstate⟩ := h g hf
      refine ⟨holder, mem_eraseIdx_of_ne hk hmem ?_, hstore, hstate⟩
      rintro rfl
      rw [hp] at hstore
      cases hstore
    · -- every record of the fallback takes its probe back
      rw [recorded_fallback (by simpa [imp_iff_not_or] using hq) ((s.pod g).now + wait + 0)] at hf
      cases success with
      | true =>
        rw [if_pos rfl, CircuitBreaker.called_success, CircuitBreaker.recordSuccess_snd] at hf
        cases hf
      | false =>
        rw [if_neg (by decide), CircuitBreaker.called_failure, recordFailure_probe] at hf
        cases hf
  | snapshot g wait lag answered =>
    simp only [outages, OutageSys.step, Option.ite_none_right_eq_some, Option.some.injEq] at hs
    obtain ⟨_, rfl⟩ := hs
    refine (Function.forall_update_iff _ fun _ (p : Pod) => p.fallback.halfOpenProbeInFlight = true → p.ProbeOut).mpr
      ⟨fun hf => ?_, fun g _ => h g⟩
    cases answered with
    | true => exact h g hf
    | false => exact h g (advance_probe hf)

theorem reachable_probeOut (hs : (outages R C start).Reachable s) (g : G)
    (hf : (s.pod g).fallback.halfOpenProbeInFlight = true) : (s.pod g).ProbeOut := by
  refine hs.invariant (P := fun s => ∀ g, (s.pod g).fallback.halfOpenProbeInFlight = true → (s.pod g).ProbeOut) ?_
    (fun _ _ _ _ h hs => probeOut_step h hs) g hf
  exact fun _ hf => by cases hf

/-- In an outage a pod gets a permit of its own, or a refusal with a usable hint
that lasts no longer than a window unless a probe of the pod itself is out. -/
theorem outage_available (R : RedisBreakerConfig) (C : CircuitBreakerConfig) (start : G → ℚ) {s : OutageSys G}
    (hs : (outages R C start).Reachable s) (g : G) (wait lag : ℚ) (hwait : 0 ≤ wait) (hlag : 0 ≤ lag) :
    (∃ permit, (RedisCircuitBreaker.allowPrimaryCall C ((s.pod g).now + wait) ((s.pod g).now + wait + lag)
        (s.pod g).fallback none).1 = .ok permit ∧ permit.store = .localFallback) ∨
    ∃ err, (RedisCircuitBreaker.allowPrimaryCall C ((s.pod g).now + wait) ((s.pod g).now + wait + lag)
        (s.pod g).fallback none).1 = .error (.circuitOpen err) ∧
      0 ≤ err.retryAfterSeconds ∧ err.retryAfterSeconds ≤ C.recoveryTimeoutSeconds ∧
      (wait < C.recoveryTimeoutSeconds ∨
        ∃ permit ∈ (s.pod g).permits, permit.store = .localFallback ∧ permit.state = .halfOpen) := by
  obtain ⟨t, gs, ht, hr, _⟩ := reachable_podFollows hs g
  have hpaced := reachable_localPaced hr
  simp only at hpaced
  unfold RedisCircuitBreaker.allowPrimaryCall RedisCircuitBreaker.localFallbackPermit
  cases ha : (s.pod g).fallback.allowPrimaryCall C ((s.pod g).now + wait) ((s.pod g).now + wait + lag) with
  | mk reply b =>
    cases reply with
    | ok permit => exact .inl ⟨_, rfl, rfl⟩
    | error err =>
      obtain ⟨rfl, hwhy⟩ := refused_because hpaced (congrArg Prod.fst ha)
      have hnow : LocalPaced C ((s.pod g).now + wait) (s.pod g).fallback (halfOpenTimes gs) :=
        hpaced.idle (by linarith)
      have hhint : ((s.pod g).fallback.advanceOpenStateIfReady C ((s.pod g).now + wait)).remainingOpenSeconds C
          ((s.pod g).now + wait + lag) ≤ C.recoveryTimeoutSeconds :=
        remaining_le_recovery hnow.advance (by linarith)
      refine .inr ⟨_, rfl, le_max_left _ _, max_le C.recoveryTimeoutSeconds_pos.le hhint, ?_⟩
      rcases hwhy with hsoon | hf
      · exact .inl (by linarith)
      · exact .inr (reachable_probeOut hs g hf)

end

theorem outage_available_cutOff : (RedisCircuitBreaker.allowPrimaryCall tripFirst ((cutOff.pod true).now + 1)
      ((cutOff.pod true).now + 1 + 1 / 2) (cutOff.pod true).fallback none).1.isOk = false ∧
    ∃ permit ∈ (cutOff.pod true).permits, permit.store = .localFallback ∧ permit.state = .halfOpen := by
  have hrefused : (RedisCircuitBreaker.allowPrimaryCall tripFirst ((cutOff.pod true).now + 1)
      ((cutOff.pod true).now + 1 + 1 / 2) (cutOff.pod true).fallback none).1.isOk = false := by decide +kernel
  refine ⟨hrefused, ?_⟩
  rcases outage_available quickTrip tripFirst (fun _ : Bool => 0) cutOff_reachable true 1 (1 / 2)
    (by decide +kernel) (by decide +kernel) with ⟨_, hok, _⟩ | ⟨_, _, _, _, hwait | hout⟩
  · rw [hok] at hrefused
    cases hrefused
  · exact absurd hwait (by decide +kernel)
  · exact hout

end InferenceService
