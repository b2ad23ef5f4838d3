import InferenceService.Breaker.ProbeRate
import InferenceService.Breaker.RedisFallback

/-!
# Outages of Redis

Whatever commands fail, the store goes through states of the shared breaker and
each pod's fallback through states of a process-local one. What is known of the
two breakers therefore holds through outages.
-/

namespace InferenceService

def CircuitPermit.fellBack (permit : CircuitPermit) : CircuitPermit := { permit with store := .localFallback }

def tagged (g : CircuitPermit × ℚ) : CircuitPermit × ℚ := (g.1.fellBack, g.2)

theorem halfOpenTimes_tagged (gs : List (CircuitPermit × ℚ)) :
    halfOpenTimes (gs.map tagged) = halfOpenTimes gs := by
  induction gs with
  | nil => rfl
  | cons g gs ih =>
    rw [List.map_cons, halfOpenTimes_cons, halfOpenTimes_cons, ih]
    rfl

/-! ## What the methods do to the fallback -/

section
variable (C : CircuitBreakerConfig) (now later : ℚ) (b : CircuitBreaker)

theorem localFallbackPermit_snd :
    (RedisCircuitBreaker.localFallbackPermit C now later b).2 = (b.allowPrimaryCall C now later).2 := by
  unfold RedisCircuitBreaker.localFallbackPermit
  rcases b.allowPrimaryCall C now later with ⟨_ | _, _⟩ <;> rfl

theorem localFallbackPermit_granted : (RedisCircuitBreaker.localFallbackPermit C now later b).1.toOption =
    (b.allowPrimaryCall C now later).1.toOption.map CircuitPermit.fellBack := by
  unfold RedisCircuitBreaker.localFallbackPermit
  rcases b.allowPrimaryCall C now later with ⟨_ | _, _⟩ <;> rfl

end

section
variable {G : Type} {R : RedisBreakerConfig} {C : CircuitBreakerConfig} {s : OutageSys G} {g : G} {wait : ℚ}

theorem recorded_answered {permit : CircuitPermit} (hp : permit.store = .redis) (success : Bool) :
    (s.recorded R C g wait true permit success).2 = (s.pod g).fallback := by
  cases success <;>
    simp [OutageSys.recorded, RedisCircuitBreaker.recordSuccess, RedisCircuitBreaker.recordFailure, hp]

/-- A record that Redis does not answer, or that is not for Redis, is one of the
fallback, without the permit. -/
theorem recorded_fallback {permit : CircuitPermit} {answered success : Bool}
    (h : permit.store ≠ .redis ∨ answered = false) (later : ℚ) :
    (s.recorded R C g wait answered permit success).2 =
      (s.pod g).fallback.called C ((s.pod g).now + wait) later
        (if success then .recordSuccess none else .recordFailure none) := by
  by_cases hp : permit.store = .redis
  · obtain rfl : answered = false := h.resolve_left (not_not.mpr hp)
    cases success <;>
      simp [OutageSys.recorded, RedisCircuitBreaker.recordSuccess, RedisCircuitBreaker.recordFailure, hp]
  · cases success <;>
      simp [OutageSys.recorded, RedisCircuitBreaker.recordSuccess, RedisCircuitBreaker.recordFailure, hp]

end

/-! ## A pod follows a process-local breaker -/

section
variable {G : Type} [DecidableEq G] {R : RedisBreakerConfig} {C : CircuitBreakerConfig} {start : G → ℚ}
  {s s' : OutageSys G} {a : OutageAct G}

/-- The fallback was last called at some time in the past; since then the pod
has had to do with Redis only. -/
def Pod.Follows (C : CircuitBreakerConfig) (start : ℚ) (p : Pod) : Prop :=
  ∃ t gs, t ≤ p.now ∧ (localGrants C start).Reachable (⟨t, p.fallback⟩, gs) ∧ p.granted = gs.map tagged

theorem Pod.Follows.idle {start : ℚ} {p : Pod} (h : p.Follows C start) {now : ℚ} (hnow : p.now ≤ now)
    (permits : List CircuitPermit) : Pod.Follows C start { p with now, permits } := by
  obtain ⟨t, gs, ht, hr, hg⟩ := h
  exact ⟨t, gs, ht.trans hnow, hr, hg⟩

theorem Pod.Follows.called {start : ℚ} {p : Pod} (h : p.Follows C start) {c : TimedCall} (hwait : 0 ≤ c.wait)
    (hlag : 0 ≤ c.lag) (permits : List CircuitPermit) : Pod.Follows C start {
      now := p.now + c.wait + c.lag
      fallback := p.fallback.called C (p.now + c.wait) (p.now + c.wait + c.lag) c.call
      permits
      granted := ((grantedPermit C ⟨p.now, p.fallback⟩ c).map tagged).toList ++ p.granted } := by
  obtain ⟨t, gs, ht, hr, hg⟩ := h
  -- the call as the fallback sees it: it has waited since its last call
  let c' : TimedCall := { c with wait := p.now - t + c.wait }
  have hstart : t + c'.wait = p.now + c.wait := by
    show t + (p.now - t + c.wait) = p.now + c.wait
    ring
  have hnote : grantedPermit C ⟨t, p.fallback⟩ c' = grantedPermit C ⟨p.now, p.fallback⟩ c := by
    unfold grantedPermit
    simp only [hstart]
    rfl
  have hstep : (localCalls C start).step ⟨t, p.fallback⟩ c' = some ⟨p.now + c.wait + c.lag,
      p.fallback.called C (p.now + c.wait) (p.now + c.wait + c.lag) c.call⟩ := by
    have hwait' : 0 ≤ c'.wait := by
      show 0 ≤ p.now - t + c.wait
      linarith
    simp only [localCalls, hstart, hwait', hlag, c', and_self, if_true, ClockReading.ofInstant_rat]
  refine ⟨_, _, le_refl _, hr.step (Lts.recording_step.mpr ⟨hstep, rfl⟩), ?_⟩
  rw [List.map_append, hg, hnote]
  cases grantedPermit C ⟨p.now, p.fallback⟩ c <;> rfl

theorem podFollows_step (h : ∀ g, (s.pod g).Follows C (start g)) (hs : (outages R C start).step s a = some s') :
    ∀ g, (s'.pod g).Follows C (start g) := by
  cases a with
  | tick us =>
    obtain rfl := Option.some.inj hs
    exact h
  | late k =>
    obtain ⟨script, _, rfl⟩ := Option.map_eq_some_iff.mp hs
    exact h
  | allow g wait lag answered token =>
    simp only [outages, OutageSys.step, Option.ite_none_right_eq_some, Option.some.injEq] at hs
    obtain ⟨⟨hwait, hlag, _⟩, rfl⟩ := hs
    have hsame : (s.send R answered (.allow token)).pod = s.pod := by cases answered <;> rfl
    refine (Function.forall_update_iff _ fun g p => Pod.Follows C (start g) p).mpr ⟨?_, fun g _ => hsame ▸ h g⟩
    cases answered with
    | true => exact (h g).idle (by linarith) _
    | false =>
      have := (h g).called (c := ⟨wait, lag, .allowPrimaryCall⟩) hwait hlag
        (((s.allowed R C g wait lag false token).1.toOption).toList ++ (s.pod g).permits)
      simp only [OutageSys.allowed, RedisCircuitBreaker.allowPrimaryCall, Bool.false_eq_true, if_false,
        localFallbackPermit_snd, localFallbackPermit_granted, Option.map_map] at this ⊢
      simp only [grantedPermit, CircuitBreaker.called_allow, Option.map_map] at this
      exact this
  | settle g wait answered k success =>
    simp only [outages, OutageSys.step, Option.ite_none_right_eq_some] at hs
    obtain ⟨hwait, hs⟩ := hs
    obtain ⟨permit, _, rfl⟩ := Option.map_eq_some_iff.mp hs
    have hsame : (if permit.store = .redis then s.send R answered (.ofRecord permit success) else s).pod = s.pod := by
      by_cases hp : permit.store = .redis
      · cases answered <;> simp [hp, OutageSys.send]
      · simp [hp]
    refine (Function.forall_update_iff _ fun g p => Pod.Follows C (start g) p).mpr ⟨?_, fun g _ => hsame ▸ h g⟩
    by_cases hq : permit.store = .redis ∧ answered = true
    · obtain ⟨hp, rfl⟩ := hq
      rw [recorded_answered hp]
      exact (h g).idle (by linarith) _
    · rw [recorded_fallback (by simpa [imp_iff_not_or] using hq) ((s.pod g).now + wait + 0)]
      have := (h g).called (c := ⟨wait, 0, if success then .recordSuccess none else .recordFailure none⟩) hwait
        (le_refl 0) ((s.pod g).permits.eraseIdx k)
      cases success <;> simpa [grantedPermit] using this
  | snapshot g wait lag answered =>
    simp only [outages, OutageSys.step, Option.ite_none_right_eq_some, Option.some.injEq] at hs
    obtain ⟨⟨hwait, hlag⟩, rfl⟩ := hs
    refine (Function.forall_update_iff _ fun g p => Pod.Follows C (start g) p).mpr ⟨?_, fun g _ => h g⟩
    cases answered with
    | true => exact (h g).idle (by linarith) _
    | false => exact (h g).called (c := ⟨wait, lag, .snapshot⟩) hwait hlag (s.pod g).permits

theorem reachable_podFollows (hs : (outages R C start).Reachable s) (g : G) : (s.pod g).Follows C (start g) := by
  refine hs.invariant (P := fun s => ∀ g, (s.pod g).Follows C (start g)) ?_ (fun _ _ _ _ h hs => podFollows_step h hs) g
  intro g
  exact ⟨start g, [], le_refl _, (localGrants C (start g)).reachable_init, rfl⟩

end

/-! ## The store follows a shared breaker -/

namespace Script

def act : Script → BreakerAct
  | allow token => .allow token
  | success permit => .success permit
  | failure permit => .failure permit

def token : Script → Option String
  | allow token => some token
  | _ => none

/-- The shared breaker has the step that runs the script. -/
def Sendable (r : BreakerSys) : Script → Prop
  | allow token => token ∉ r.tokens
  | success permit => permit ∈ (grants r.log).map Prod.fst
  | failure permit => permit ∈ (grants r.log).map Prod.fst

theorem ofRecord_sendable {r : BreakerSys} {permit : CircuitPermit} (h : permit ∈ (grants r.log).map Prod.fst)
    (success : Bool) : (ofRecord permit success).Sendable r := by
  cases success <;> exact h

theorem ofRecord_token (permit : CircuitPermit) (success : Bool) : (ofRecord permit success).token = none := by
  cases success <;> rfl

theorem token_eq_some {c : Script} {token : String} : c.token = some token ↔ c = .allow token := by
  cases c <;> simp [Script.token]

theorem run_step {R : RedisBreakerConfig} {r : BreakerSys} {c : Script} (hc : c.Sendable r) :
    ∃ r', (redisBreaker R).step r c.act = some r' ∧ r'.now = r.now ∧ r'.store = c.run R r.now r.store ∧
      r'.tokens = c.token.toList ++ r.tokens ∧
      grants r'.log = (grantOf R r c.act).toList.map (·, r.nowMs) ++ grants r.log := by
  cases c with
  | allow token =>
    refine ⟨_, if_neg hc, rfl, rfl, rfl, ?_⟩
    simp only [act]
    cases grantOf R r (.allow token) <;> rfl
  | success permit => exact ⟨_, if_pos hc, rfl, rfl, rfl, rfl⟩
  | failure permit => exact ⟨_, if_pos hc, rfl, rfl, rfl, rfl⟩

end Script

section
variable {G : Type} (R : RedisBreakerConfig)

/-- The shared breaker `r` has the clock and the store of `s`, and has granted
what the pods hold and settle. -/
structure StoreFollows (s : OutageSys G) (r : BreakerSys) : Prop where
  reachable : (redisBreaker R).Reachable r
  now : r.now = s.us
  store : r.store = s.store
  granted : s.granted.Sublist (grants r.log)
  held : ∀ g, ∀ p ∈ (s.pod g).permits, p.store = .redis → p ∈ (grants r.log).map Prod.fst
  sendable : ∀ c ∈ s.inFlight, c.Sendable r
  used : ∀ token ∈ r.tokens, token ∈ s.tokens
  made : ∀ token, .allow token ∈ s.inFlight → token ∈ s.tokens
  once : (s.inFlight.filterMap Script.token).Nodup

variable {R} {s s' : OutageSys G} {r : BreakerSys} {c : Script}

theorem Script.Sendable.later {r' : BreakerSys} (h : c.Sendable r) {new : List (CircuitPermit × Nat)}
    {tokens : List String} (hg : grants r'.log = new ++ grants r.log) (ht : r'.tokens = tokens ++ r.tokens)
    (hc : ∀ token ∈ tokens, c ≠ .allow token) : c.Sendable r' := by
  cases c with
  | allow token =>
    intro hmem
    rw [ht] at hmem
    exact (List.mem_append.mp hmem).elim (fun hnew => hc token hnew rfl) h
  | success permit =>
    unfold Sendable at h ⊢
    rw [hg, List.map_append]
    exact List.mem_append_right _ h
  | failure permit =>
    unfold Sendable at h ⊢
    rw [hg, List.map_append]
    exact List.mem_append_right _ h

/-- Redis runs a script, for a client that waits or for one that has given up. -/
theorem StoreFollows.run (h : StoreFollows R s r) (hc : c.Sendable r) (hus : s'.us = s.us)
    (hstore : s'.store = c.run R s.us s.store)
    (hgranted : s'.granted.Sublist ((grantOf R r c.act).toList.map (·, r.nowMs) ++ s.granted))
    (hheld : ∀ g, ∀ p ∈ (s'.pod g).permits, p.store = .redis →
      (∃ g', p ∈ (s.pod g').permits) ∨ p ∈ (grantOf R r c.act).toList)
    (hflight : ∀ c' ∈ s'.inFlight, c' ∈ s.inFlight ∧ ∀ token, c.token = some token → c' ≠ .allow token)
    (htokens : ∀ token ∈ s.tokens, token ∈ s'.tokens) (hnew : ∀ token, c.token = some token → token ∈ s'.tokens)
    (honce : (s'.inFlight.filterMap Script.token).Nodup) : ∃ r', StoreFollows R s' r' := by
  obtain ⟨r', hstep, hnow, hst, htok, hg⟩ := Script.run_step (R := R) hc
  refine ⟨r', h.reachable.step hstep, ?_, ?_, ?_, ?_, ?_, ?_, ?_, honce⟩
  · rw [hnow, h.now, hus]
  · rw [hst, h.now, h.store, hstore]
  · rw [hg]
    exact hgranted.trans (h.granted.append_left _)
  · intro g p hp hredis
    rw [hg, List.map_append]
    rcases hheld g p hp hredis with ⟨g', hold⟩ | hnew
    · exact List.mem_append_right _ (h.held g' p hold hredis)
    · apply List.mem_append_left
      simpa using hnew
  · intro c' hc'
    obtain ⟨hold, hne⟩ := hflight c' hc'
    apply (h.sendable c' hold).later hg htok
    intro token ht
    exact hne token (by simpa using ht)
  · intro token ht
    rw [htok] at ht
    rcases List.mem_append.mp ht with ht | ht
    · exact hnew token (by simpa using ht)
    · exact htokens token (h.used token ht)
  · intro token ht
    exact htokens token (h.made token (hflight _ ht).1)

end

section
variable {G : Type} [DecidableEq G] {R : RedisBreakerConfig} {C : CircuitBreakerConfig} {start : G → ℚ}
  {s s' : OutageSys G} {r : BreakerSys} {a : OutageAct G}

theorem mem_setPod {s : OutageSys G} {g g' : G} {p : Pod} {permit : CircuitPermit}
    (h : permit ∈ ((s.setPod g p).pod g').permits) : permit ∈ p.permits ∨ permit ∈ (s.pod g').permits := by
  have hpod : (s.setPod g p).pod = Function.update s.pod g p := rfl
  by_cases hg : g' = g
  · subst hg
    rw [hpod, Function.update_self] at h
    exact .inl h
  · rw [hpod, Function.update_of_ne hg] at h
    exact .inr h

theorem follows_allow (h : StoreFollows R s r) {g : G} {wait lag : ℚ} {answered : Bool} {token : String}
    (hs : (outages R C start).step s (.allow g wait lag answered token) = some s') :
    ∃ r', StoreFollows R s' r' := by
  simp only [outages, OutageSys.step, Option.ite_none_right_eq_some, Option.some.injEq] at hs
  obtain ⟨⟨_, _, hfresh⟩, rfl⟩ := hs
  cases answered with
  | true =>
    have hgrant : (s.allowed R C g wait lag true token).1.toOption = grantOf R r (.allow token) := by
      simp only [grantOf, h.now, h.store]
      rfl
    have hms : r.nowMs = nowMs s.us := congrArg nowMs h.now
    rw [hgrant]
    refine h.run (c := .allow token) (fun hr => hfresh (h.used token hr)) rfl rfl ?_ ?_ ?_ ?_ ?_ h.once
    · rw [hms, ← Option.toList_map]
      exact List.Sublist.refl _
    · intro g' p hp _
      rcases mem_setPod hp with hp | hp
      · rcases List.mem_append.mp hp with hnew | hold
        · exact .inr hnew
        · exact .inl ⟨g, hold⟩
      · exact .inl ⟨g', hp⟩
    · intro c' hc'
      refine ⟨hc', ?_⟩
      rintro token' ⟨⟩ rfl
      exact hfresh (h.made token hc')
    · exact fun t ht => List.mem_cons_of_mem _ ht
    · rintro token' ⟨⟩
      exact List.mem_cons_self
  | false =>
    refine ⟨r, h.reachable, h.now, h.store, h.granted, ?_, ?_, ?_, ?_, ?_⟩
    · intro g' p hp hredis
      rcases mem_setPod hp with hp | hp
      · rcases List.mem_append.mp hp with hnew | hold
        · -- the fallback marks its permits as its own
          have hnone : p ∈ (s.allowed R C g wait lag false token).1.toOption := by simpa using hnew
          simp only [OutageSys.allowed, RedisCircuitBreaker.allowPrimaryCall, Bool.false_eq_true, if_false,
            localFallbackPermit_granted, Option.mem_def, Option.map_eq_some_iff] at hnone
          obtain ⟨q, _, rfl⟩ := hnone
          cases hredis
        · exact h.held g p hold hredis
      · exact h.held g' p hp hredis
    · intro c hc
      rcases List.mem_cons.mp hc with rfl | hc
      · exact fun hr => hfresh (h.used token hr)
      · exact h.sendable c hc
    · exact fun t ht => List.mem_cons_of_mem _ (h.used t ht)
    · intro t ht
      rcases List.mem_cons.mp ht with heq | ht
      · obtain rfl := Script.allow.inj heq
        exact List.mem_cons_self
      · exact List.mem_cons_of_mem _ (h.made t ht)
    · refine List.nodup_cons.mpr ⟨?_, h.once⟩
      intro hmem
      obtain ⟨c, hc, ht⟩ := List.mem_filterMap.mp hmem
      rw [Script.token_eq_some.mp ht] at hc
      exact hfresh (h.made token hc)

theorem follows_settle (h : StoreFollows R s r) {g : G} {wait : ℚ} {answered success : Bool} {k : Nat}
    (hs : (outages R C start).step s (.settle g wait answered k success) = some s') :
    ∃ r', StoreFollows R s' r' := by
  simp only [outages, OutageSys.step, Option.ite_none_right_eq_some] at hs
  obtain ⟨_, hs⟩ := hs
  obtain ⟨permit, hk, rfl⟩ := Option.map_eq_some_iff.mp hs
  have hmem : permit ∈ (s.pod g).permits := List.mem_of_getElem? hk
  have hrest : ∀ (sent : OutageSys G) (_ : sent.pod = s.pod) (now : ℚ) (fallback : CircuitBreaker) (g' : G)
      (p : CircuitPermit), p ∈ ((sent.setPod g { s.pod g with
        now, fallback, permits := (s.pod g).permits.eraseIdx k }).pod g').permits → ∃ g', p ∈ (s.pod g').permits := by
    intro sent hsame now fallback g' p hp
    rcases mem_setPod hp with hp | hp
    · exact ⟨g, List.mem_of_mem_eraseIdx hp⟩
    · exact ⟨g', hsame ▸ hp⟩
  by_cases hp : permit.store = .redis
  · have hgranted := h.held g permit hmem hp
    simp only [hp, if_true]
    cases answered with
    | true =>
      have htoken := Script.ofRecord_token permit success
      refine h.run (c := .ofRecord permit success) (Script.ofRecord_sendable hgranted success) rfl rfl ?_ ?_ ?_ ?_ ?_
        h.once
      · exact List.sublist_append_right _ _
      · exact fun g' p hmem _ => .inl (hrest (s.send R true (.ofRecord permit success)) rfl _ _ g' p hmem)
      · refine fun c' hc' => ⟨hc', ?_⟩
        intro token ht
        rw [htoken] at ht
        cases ht
      · exact fun t ht => ht
      · intro token ht
        rw [htoken] at ht
        cases ht
    | false =>
      refine ⟨r, h.reachable, h.now, h.store, h.granted, ?_, ?_, h.used, ?_, ?_⟩
      · intro g' p hmem hredis
        obtain ⟨g'', hold⟩ := hrest (s.send R false (.ofRecord permit success)) rfl _ _ g' p hmem
        exact h.held g'' p hold hredis
      · intro c hc
        rcases List.mem_cons.mp hc with rfl | hc
        · exact Script.ofRecord_sendable hgranted success
        · exact h.sendable c hc
      · intro token ht
        rcases List.mem_cons.mp ht with heq | ht
        · cases success <;> cases heq
        · exact h.made token ht
      · have hnone : (Script.ofRecord permit success :: s.inFlight).filterMap Script.token =
            s.inFlight.filterMap Script.token := List.filterMap_cons_none (Script.ofRecord_token permit success)
        exact hnone ▸ h.once
  · simp only [hp, if_false]
    refine ⟨r, h.reachable, h.now, h.store, h.granted, ?_, h.sendable, h.used, h.made, h.once⟩
    intro g' p hmem hredis
    obtain ⟨g'', hold⟩ := hrest s rfl _ _ g' p hmem
    exact h.held g'' p hold hredis

theorem follows_late (h : StoreFollows R s r) {k : Nat} (hs : (outages R C start).step s (.late k) = some s') :
    ∃ r', StoreFollows R s' r' := by
  obtain ⟨c, hk, rfl⟩ := Option.map_eq_some_iff.mp hs
  obtain ⟨hlt, hget⟩ := List.getElem?_eq_some_iff.mp hk
  have hmem : c ∈ s.inFlight := List.mem_of_getElem? hk
  have hperm : (c :: s.inFlight.eraseIdx k).Perm s.inFlight := hget ▸ List.getElem_cons_eraseIdx_perm hlt
  have honce : ((c :: s.inFlight.eraseIdx k).filterMap Script.token).Nodup :=
    (hperm.filterMap Script.token).nodup_iff.mpr h.once
  refine h.run (c := c) (h.sendable c hmem) rfl rfl (List.sublist_append_right _ _) ?_ ?_ ?_ ?_ ?_
  · exact fun g p hp _ => .inl ⟨g, hp⟩
  · intro c' hc'
    refine ⟨List.mem_of_mem_eraseIdx hc', ?_⟩
    rintro token ht rfl
    rw [List.filterMap_cons_some ht] at honce
    exact (List.nodup_cons.mp honce).1 (List.mem_filterMap.mpr ⟨_, hc', rfl⟩)
  · exact fun t ht => ht
  · intro token ht
    exact h.made token (Script.token_eq_some.mp ht ▸ hmem)
  · exact List.Nodup.sublist ((List.sublist_cons_self _ _).filterMap Script.token) honce

theorem follows_step (h : StoreFollows R s r) (hs : (outages R C start).step s a = some s') :
    ∃ r', StoreFollows R s' r' := by
  cases a with
  | tick us =>
    obtain rfl := Option.some.inj hs
    exact ⟨{ r with now := r.now + us }, h.reachable.step (a := .tick us) rfl,
      congrArg (· + us) h.now, h.store, h.granted, h.held, h.sendable, h.used, h.made, h.once⟩
  | allow g wait lag answered token => exact follows_allow h hs
  | settle g wait answered k success => exact follows_settle h hs
  | snapshot g wait lag answered =>
    simp only [outages, OutageSys.step, Option.ite_none_right_eq_some, Option.some.injEq] at hs
    obtain ⟨_, rfl⟩ := hs
    refine ⟨r, h.reachable, h.now, h.store, h.granted, ?_, h.sendable, h.used, h.made, h.once⟩
    intro g' p hp hredis
    rcases mem_setPod hp with hp | hp
    · exact h.held g p hp hredis
    · exact h.held g' p hp hredis
  | late k => exact follows_late h hs

theorem reachable_follows (hs : (outages R C start).Reachable s) : ∃ r, StoreFollows R s r := by
  refine hs.invariant (P := fun s => ∃ r, StoreFollows R s r) ?_ (fun _ _ _ _ ⟨_, h⟩ hs => follows_step h hs)
  refine ⟨(redisBreaker R).init, (redisBreaker R).reachable_init, rfl, rfl, List.Sublist.refl _, ?_, ?_, ?_, ?_, ?_⟩
  · exact fun _ _ hp => absurd hp List.not_mem_nil
  · exact fun _ hc => absurd hc List.not_mem_nil
  · exact fun _ ht => absurd ht List.not_mem_nil
  · exact fun _ ht => absurd ht List.not_mem_nil
  · exact List.nodup_nil

end

/-! ## What outages do not change -/

section
variable {G : Type} [DecidableEq G]

/-- The store is one that the shared breaker reaches without outages, the pods
hold what it granted, and each fallback is one that its own calls reach. -/
theorem outages_refine (R : RedisBreakerConfig) (C : CircuitBreakerConfig) (start : G → ℚ) {s : OutageSys G}
    (hs : (outages R C start).Reachable s) :
    (∃ r, (redisBreaker R).Reachable r ∧ r.now = s.us ∧ r.store = s.store ∧ s.granted.Sublist (grants r.log) ∧
      ∀ g, ∀ p ∈ (s.pod g).permits, p.store = .redis → p ∈ (grants r.log).map Prod.fst) ∧
    ∀ g, ∃ t gs, t ≤ (s.pod g).now ∧ (localGrants C (start g)).Reachable (⟨t, (s.pod g).fallback⟩, gs) ∧
      (s.pod g).granted = gs.map tagged := by
  obtain ⟨r, h⟩ := reachable_follows hs
  exact ⟨⟨r, h.reachable, h.now, h.store, h.granted, h.held⟩, reachable_podFollows hs⟩

theorem outages_refine_cutOff : cutOff.granted.length = 2 ∧
    ∃ r, (redisBreaker quickTrip).Reachable r ∧ r.now = cutOff.us ∧ r.store = cutOff.store := by
  obtain ⟨⟨r, hr, hnow, hstore, _⟩, _⟩ := outages_refine quickTrip tripFirst (fun _ : Bool => 0) cutOff_reachable
  exact ⟨by decide +kernel, r, hr, hnow, hstore⟩

/-- Redis lets probes through at its rate, and every pod at that of its
fallback, whatever commands fail. -/
theorem outage_probe_rate (R : RedisBreakerConfig) (C : CircuitBreakerConfig) (start : G → ℚ) {s : OutageSys G}
    (hs : (outages R C start).Reachable s) :
    (∀ a L, (halfOpenTimes s.granted).countP (fun t => decide (a ≤ t ∧ t ≤ a + L)) ≤
      L / min R.recoveryTimeoutMs R.probeLeaseMs + 1) ∧
    ∀ g a L, (halfOpenTimes (s.pod g).granted).countP (fun t => decide (a ≤ t ∧ t ≤ a + L)) ≤
      ⌊L / C.recoveryTimeoutSeconds⌋₊ + 1 := by
  refine ⟨fun a L => ?_, fun g a L => ?_⟩
  · obtain ⟨r, h⟩ := reachable_follows hs
    have hsub : (halfOpenTimes s.granted).Sublist (halfOpenTimes (grants r.log)) :=
      (h.granted.filter _).map Prod.snd
    exact ((reachable_redisPaced h.reachable).sublist hsub).countP_le_nat (probeDistance_pos R) a L
  · obtain ⟨t, gs, _, hr, hg⟩ := reachable_podFollows hs g
    rw [hg, halfOpenTimes_tagged]
    exact (reachable_localPaced hr).spaced.countP_le C.recoveryTimeoutSeconds_pos a L

end

/-- Redis has a probe out at 1000 ms, and the pod that cannot reach it one of
its own. -/
theorem outage_probe_rate_cutOff : halfOpenTimes cutOff.granted = [1000] ∧
    halfOpenTimes (cutOff.pod true).granted = [1] ∧
    (halfOpenTimes cutOff.granted).countP (fun t => decide (1000 ≤ t ∧ t ≤ 1000 + 400)) ≤
      400 / min quickTrip.recoveryTimeoutMs quickTrip.probeLeaseMs + 1 :=
  ⟨by decide +kernel, by decide +kernel,
    (outage_probe_rate quickTrip tripFirst (fun _ : Bool => 0) cutOff_reachable).1 1000 400⟩

end InferenceService
