import InferenceService.Breaker.RedisProbe
import InferenceService.Breaker.LocalCalls
import InferenceService.Lib.Spacing

/-!
# How often a breaker lets a probe through

A probe that is granted ends the episode in which it was: the next one waits
for the lease or for a whole open window. This holds for every order of calls,
also for the process-local breaker, whose records do not look at their permit.
-/

namespace InferenceService

/-- The times of the half-open grants. -/
def halfOpenTimes {τ : Type} (granted : List (CircuitPermit × τ)) : List τ :=
  (granted.filter fun g => g.1.state = .halfOpen).map Prod.snd

theorem halfOpenTimes_cons {τ : Type} (g : CircuitPermit × τ) (granted : List (CircuitPermit × τ)) :
    halfOpenTimes (g :: granted) = if g.1.state = .halfOpen then g.2 :: halfOpenTimes granted
      else halfOpenTimes granted := by
  unfold halfOpenTimes
  by_cases h : g.1.state = .halfOpen <;> simp [h]

/-! ## The Redis breaker -/

def RedisBreakerConfig.probeDistance (C : RedisBreakerConfig) : Nat := min C.recoveryTimeoutMs C.probeLeaseMs

section
variable (C : RedisBreakerConfig)

theorem probeDistance_pos : 0 < C.probeDistance := lt_min C.recoveryTimeoutMs_pos C.probeLeaseMs_pos

/-- An open or probing era is not older than the latest probe. -/
structure RedisPaced (s : BreakerSys) (e : Era String) : Prop where
  spaced : Spaced C.probeDistance (halfOpenTimes (grants s.log))
  before : e.phase.state ≠ .closed → ∀ t ∈ halfOpenTimes (grants s.log), t ≤ e.since

variable {C} {s s' : BreakerSys} {e e' : Era String} {a : BreakerAct}

theorem halfOpenTimes_probe (log : List BreakerEvent) (v t : Nat) (token : String) :
    halfOpenTimes (grants (.granted (permitOf (.probe v token)) t :: log)) = t :: halfOpenTimes (grants log) :=
  halfOpenTimes_cons (permitOf (.probe v token), t) (grants log)

theorem halfOpenTimes_normal (log : List BreakerEvent) (v t : Nat) :
    halfOpenTimes (grants (.granted (permitOf (.normal v)) t :: log)) = halfOpenTimes (grants log) :=
  halfOpenTimes_cons (permitOf (.normal v), t) (grants log)

theorem granted_past (hl : Linked s e) {t : Nat} (ht : t ∈ halfOpenTimes (grants s.log)) : t ≤ s.nowMs := by
  obtain ⟨⟨p, t'⟩, hg, rfl⟩ := List.mem_map.mp ht
  obtain ⟨_, _, hle, _⟩ := hl.granted p t' (mem_grants.mp (List.mem_filter.mp hg).1)
  exact hle

theorem distance_le_gate (hc : e.phase.state ≠ .closed) : e.since + C.probeDistance ≤ e.gate C.policy := by
  unfold Era.since Era.gate RedisBreakerConfig.probeDistance
  cases hp : e.phase with
  | closed f => exact absurd (by rw [hp]; rfl) hc
  | opened since => simp
  | probing token since => simp

theorem redisPaced_step (hl : Linked s e) (hi : RedisPaced C s e) (hm : Moves C s e a s' e') : RedisPaced C s' e' := by
  cases hm with
  | tick us => exact ⟨hi.spaced, hi.before⟩
  | refused => exact ⟨hi.spaced, hi.before⟩
  | normal =>
    refine ⟨?_, ?_⟩
    · rw [halfOpenTimes_normal]
      exact hi.spaced
    · rw [halfOpenTimes_normal]
      exact hi.before
  | probe _ _ hc ht _ =>
    refine ⟨?_, ?_⟩
    · rw [halfOpenTimes_probe]
      apply hi.spaced.cons
      intro u hu
      calc u + C.probeDistance
          ≤ e.since + C.probeDistance := Nat.add_le_add_right (hi.before hc u hu) _
        _ ≤ e.gate C.policy := distance_le_gate hc
        _ ≤ s.nowMs := ht
    · rw [halfOpenTimes_probe]
      intro _ u hu
      rcases List.mem_cons.mp hu with rfl | hu
      · exact Nat.le_refl _
      · exact granted_past hl hu
  | staleSuccess => exact ⟨hi.spaced, hi.before⟩
  | staleFailure => exact ⟨hi.spaced, hi.before⟩
  | @success p q => exact ⟨hi.spaced, fun hc => by cases q <;> exact absurd rfl hc⟩
  | @failure p q =>
    refine ⟨hi.spaced, ?_⟩
    rcases Era.fail_cases C.policy s.nowMs e q with ⟨_, _, _, hf⟩ | ⟨_, _, _, hf⟩ | ⟨_, _, _, hf⟩
    · rw [hf]
      exact fun _ u hu => granted_past hl hu
    · rw [hf]
      exact fun hc => absurd rfl hc
    · rw [hf]
      exact fun _ u hu => granted_past hl hu

theorem reachable_redisPaced (hs : (redisBreaker C).Reachable s) :
    Spaced C.probeDistance (halfOpenTimes (grants s.log)) := by
  obtain ⟨_, _, _, hi⟩ := reachable_era (I := RedisPaced C) ⟨Spaced.nil, nofun⟩
    (fun _ _ _ _ _ _ hl hi hm => redisPaced_step hl hi hm) hs
  exact hi.spaced

end

/-- However many gateways share the store, a window of `L` milliseconds has at
most one probe more than whole distances. -/
theorem redis_probe_rate (C : RedisBreakerConfig) {s : BreakerSys} (hs : (redisBreaker C).Reachable s) (a L : Nat) :
    (halfOpenTimes (grants s.log)).countP (fun t => decide (a ≤ t ∧ t ≤ a + L)) ≤
      L / min C.recoveryTimeoutMs C.probeLeaseMs + 1 :=
  (reachable_redisPaced hs).countP_le_nat (probeDistance_pos C) a L

theorem redis_probe_rate_probed :
    (halfOpenTimes (grants probed.log)).countP (fun t => decide (1000 ≤ t ∧ t ≤ 1000 + 400)) ≤
      400 / min quickTrip.recoveryTimeoutMs quickTrip.probeLeaseMs + 1 :=
  redis_probe_rate quickTrip probed_reachable 1000 400

/-! ## The process-local breaker -/

section
variable (C : CircuitBreakerConfig)

/-- The permit that a call is granted, with the time of the call. -/
def grantedPermit (s : CalledBreaker) (c : TimedCall) : Option (CircuitPermit × ℚ) :=
  match c.call with
  | .allowPrimaryCall =>
    (s.breaker.allowPrimaryCall C (s.now + c.wait) (s.now + c.wait + c.lag)).1.toOption.map (·, s.now + c.wait)
  | _ => none

/-- The calls on a breaker with the permits that they were granted. -/
def localGrants (start : ℚ) : Lts (CalledBreaker × List (CircuitPermit × ℚ)) TimedCall :=
  (localCalls C start).recording (grantedPermit C)

/-- What the fields say about the probes at the times `probes`. -/
structure LocalPaced (now : ℚ) (b : CircuitBreaker) (probes : List ℚ) : Prop where
  spaced : Spaced C.recoveryTimeoutSeconds probes
  past : ∀ t ∈ probes, t ≤ now
  since : ∀ o ∈ b.openedAt, o ≤ now
  opened : b.state = .open → ∃ o, b.openedAt = some o ∧ ∀ t ∈ probes, t ≤ o
  ready : b.state = .halfOpen → b.halfOpenProbeInFlight = false → ∀ t ∈ probes, t + C.recoveryTimeoutSeconds ≤ now

variable {C} {now now' later : ℚ} {b : CircuitBreaker} {probes : List ℚ}

theorem localPaced_init (start : ℚ) : LocalPaced C start {} [] := ⟨Spaced.nil, nofun, nofun, nofun, nofun⟩

theorem LocalPaced.idle (h : LocalPaced C now b probes) (hnow : now ≤ now') : LocalPaced C now' b probes where
  spaced := h.spaced
  past t ht := (h.past t ht).trans hnow
  since o ho := (h.since o ho).trans hnow
  opened := h.opened
  ready hs hf t ht := (h.ready hs hf t ht).trans hnow

/-- An open breaker that becomes half-open has waited out its window. -/
theorem advance_waited {o : ℚ} (hs : b.state = .open) (ho : b.openedAt = some o)
    (ha : (b.advanceOpenStateIfReady C now).state = .halfOpen) : o + C.recoveryTimeoutSeconds ≤ now := by
  unfold CircuitBreaker.advanceOpenStateIfReady at ha
  by_cases hr : 0 < b.remainingOpenSeconds C now
  · simp [hs, hr] at ha
  · unfold CircuitBreaker.remainingOpenSeconds at hr
    simp only [ho, lt_max_iff, lt_irrefl, false_or, not_lt] at hr
    linarith

theorem LocalPaced.advance (h : LocalPaced C now b probes) :
    LocalPaced C now (b.advanceOpenStateIfReady C now) probes := by
  rcases CircuitBreaker.advance_cases C now b with ha | ⟨hs, ha⟩
  · rw [ha]
    exact h
  · obtain ⟨o, ho, hle⟩ := h.opened hs
    have hwaited : o + C.recoveryTimeoutSeconds ≤ now := advance_waited hs ho (by rw [ha])
    rw [ha]
    refine ⟨h.spaced, h.past, h.since, nofun, fun _ _ t ht => ?_⟩
    have := hle t ht
    linarith

/-- The probe that is granted is a whole window after the others. -/
theorem LocalPaced.allow (h : LocalPaced C now b probes) :
    LocalPaced C now (b.allowPrimaryCall C now later).2
      (halfOpenTimes ((b.allowPrimaryCall C now later).1.toOption.map (·, now)).toList ++ probes) := by
  rcases CircuitBreaker.allow_cases C now later b with ⟨err, ha⟩ | ⟨_, ha⟩ | ⟨hs, hf, ha⟩
  · rw [ha]
    exact h.advance
  · rw [ha]
    exact h
  · rw [ha]
    have hadv := h.advance
    have hready := hadv.ready hs hf
    refine ⟨h.spaced.cons hready, ?_, hadv.since, fun ho => ?_, nofun⟩
    · intro t ht
      rcases List.mem_cons.mp ht with rfl | ht
      · exact le_refl _
      · exact h.past t ht
    · rw [hs] at ho
      cases ho

theorem LocalPaced.success (h : LocalPaced C now b probes) (permit : Option CircuitPermit) :
    LocalPaced C now (b.recordSuccess permit).2 probes := by
  rw [CircuitBreaker.recordSuccess_snd]
  exact ⟨h.spaced, h.past, nofun, nofun, nofun⟩

theorem LocalPaced.failure (h : LocalPaced C now b probes) (permit : Option CircuitPermit) :
    LocalPaced C now (b.recordFailure C now permit).2 probes := by
  rcases CircuitBreaker.recordFailure_cases C now b permit with ⟨hs, ho, _⟩ | ⟨hs, hb⟩
  · refine ⟨h.spaced, h.past, ?_, fun _ => ⟨now, ho, h.past⟩, fun hh => ?_⟩
    · rw [ho]
      rintro o ⟨⟩
      exact le_refl _
    · rw [hs] at hh
      cases hh
  · rw [hb]
    exact ⟨h.spaced, h.past, h.since, h.opened, fun hh => absurd hh hs⟩

theorem localPaced_step {start : ℚ} {s t : CalledBreaker × List (CircuitPermit × ℚ)} {c : TimedCall}
    (h : LocalPaced C s.1.now s.1.breaker (halfOpenTimes s.2)) (ht : (localGrants C start).step s c = some t) :
    LocalPaced C t.1.now t.1.breaker (halfOpenTimes t.2) := by
  obtain ⟨hstep, hnote⟩ := Lts.recording_step.mp ht
  simp only [localCalls, Option.ite_none_right_eq_some, Option.some.injEq] at hstep
  obtain ⟨⟨hwait, hlag⟩, hstep⟩ := hstep
  rw [← hstep, hnote]
  have hnow : LocalPaced C (s.1.now + c.wait) s.1.breaker (halfOpenTimes s.2) := h.idle (by linarith)
  suffices hcalled : LocalPaced C (s.1.now + c.wait)
      (s.1.breaker.called C (s.1.now + c.wait) (s.1.now + c.wait + c.lag) c.call)
      (halfOpenTimes ((grantedPermit C s.1 c).toList ++ s.2)) from hcalled.idle (by linarith)
  unfold grantedPermit
  cases c.call with
  | readState => exact hnow.advance
  | snapshot => exact hnow.advance
  | allowPrimaryCall =>
    unfold halfOpenTimes
    rw [List.filter_append, List.map_append]
    exact hnow.allow
  | recordSuccess permit => exact hnow.success permit
  | recordFailure permit => exact hnow.failure permit

theorem reachable_localPaced {start : ℚ} {s : CalledBreaker × List (CircuitPermit × ℚ)}
    (hs : (localGrants C start).Reachable s) : LocalPaced C s.1.now s.1.breaker (halfOpenTimes s.2) :=
  hs.invariant (localPaced_init start) fun _ _ _ _ h ht => localPaced_step h ht

end

/-- Calls in any order, matched or not: a window of `L` seconds has at most one
probe more than whole recovery timeouts. -/
theorem local_probe_rate (C : CircuitBreakerConfig) (start : ℚ) {s : CalledBreaker × List (CircuitPermit × ℚ)}
    (hs : (localGrants C start).Reachable s) (a L : ℚ) :
    (halfOpenTimes s.2).countP (fun t => decide (a ≤ t ∧ t ≤ a + L)) ≤ ⌊L / C.recoveryTimeoutSeconds⌋₊ + 1 :=
  (reachable_localPaced hs).spaced.countP_le C.recoveryTimeoutSeconds_pos a L

/-- A breaker that opens, lets a probe through, and another one a window after
a failure without a permit. -/
theorem local_probe_rate_reopened : ∃ s, (localGrants tripFirst 0).runFrom (localGrants tripFirst 0).init
      [⟨0, 0, .recordFailure none⟩, ⟨1, 0, .allowPrimaryCall⟩, ⟨1 / 2, 0, .recordFailure none⟩,
        ⟨1, 0, .allowPrimaryCall⟩] = some s ∧ halfOpenTimes s.2 = [5 / 2, 1] ∧
      (halfOpenTimes s.2).countP (fun t => decide (0 ≤ t ∧ t ≤ 0 + 2)) ≤
        ⌊2 / tripFirst.recoveryTimeoutSeconds⌋₊ + 1 := by
  refine ⟨⟨⟨5 / 2, ⟨.halfOpen, 1, some (3 / 2), true⟩⟩, [({ state := .halfOpen }, 5 / 2), ({ state := .halfOpen }, 1)]⟩,
    by decide +kernel, by decide +kernel, ?_⟩
  exact local_probe_rate tripFirst 0 ⟨[⟨0, 0, .recordFailure none⟩, ⟨1, 0, .allowPrimaryCall⟩,
    ⟨1 / 2, 0, .recordFailure none⟩, ⟨1, 0, .allowPrimaryCall⟩], by decide +kernel⟩ 0 2

end InferenceService
