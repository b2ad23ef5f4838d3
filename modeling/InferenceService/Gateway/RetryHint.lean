import InferenceService.Breaker.LocalCalls
import InferenceService.Breaker.RedisHint
import InferenceService.Gateway.Execute

/-!
# The retry hint that `execute` surfaces

A refused `execute` without a fallback drops the hint of the refusal and asks
the breaker for a snapshot, which does not know the probe. Between the two
calls other requests may do anything to the breaker.
-/

namespace InferenceService

/-- What a caller may expect of a hint of `r` seconds: `granted w` says that
`allow_primary_call` is granted `w` seconds later, if nothing else happens, and
`owed` that waiting is to help. -/
structure HintUsable (granted : ℚ → Prop) (owed : Prop) (r : ℚ) : Prop where
  positive : ¬ granted 0 → 0 < r
  enough : owed → ∀ w, r ≤ w → granted w

/-- A request without a fallback, on a breaker that refused it with `err` and
whose snapshot then said `snapshotRetryAfter`. -/
def ResilienceController.refusedExecute {α ε : Type} (c : ResilienceController) (B : BreakerAnswers)
    (q : ExecuteRequest α ε) (err : CircuitOpenError) (snapshotRetryAfter : ℚ) : Execution α ε :=
  c.execute { B with allowPrimaryCall := .error err, snapshotRetryAfter } { q with fallbackOperation := none }

theorem refusedExecute_result {α ε : Type} (c : ResilienceController) (B : BreakerAnswers) (q : ExecuteRequest α ε)
    (err : CircuitOpenError) {r : ℚ} (hr : 0 ≤ r) :
    (c.refusedExecute B q err r).result = .error (.circuitOpen ⟨r⟩) := by
  unfold ResilienceController.refusedExecute
  rw [ResilienceController.execute_refused rfl]
  simp [ResilienceController.runFallbackOrRaise, CircuitOpenError.init, max_eq_right hr]

/-! ## The process-local breaker -/

/-- A refusal of `allow_primary_call` and the snapshot that `execute` takes
after it. -/
structure LocalRefusal (C : CircuitBreakerConfig Double) where
  start : ℚ
  before : CalledBreaker Double
  reachable : (localCalls C start).Reachable before
  allow : TimedCall
  isAllow : allow.call = .allowPrimaryCall
  err : CircuitOpenError
  refused : (before.breaker.allowPrimaryCall C (.ofRat (before.now + allow.wait))
    (.ofRat (before.now + allow.wait + allow.lag))).1 = .error err
  others : List TimedCall
  asked : CalledBreaker Double
  run : (localCalls C start).runFrom before (allow :: others) = some asked
  wait : ℚ
  lag : ℚ
  wait_nonneg : 0 ≤ wait
  lag_nonneg : 0 ≤ lag

namespace LocalRefusal
variable {C : CircuitBreakerConfig Double} (R : LocalRefusal C)

def askedAt : ℚ := R.asked.now + R.wait

def raisedAt : ℚ := R.askedAt + R.lag

def snapshot : CircuitSnapshot × CircuitBreaker Double :=
  R.asked.breaker.snapshot C (.ofRat R.askedAt) (.ofRat R.raisedAt)

/-- The refusal found the window open. -/
def ForOpenWindow : Prop :=
  (R.before.breaker.advanceOpenStateIfReady C (.ofRat (R.before.now + R.allow.wait))).state = .open

/-- The clock shows the double nearest to the instant at which the caller has
waited. -/
def GrantedAfter (w : ℚ) : Prop :=
  ∃ permit, (R.snapshot.2.allowPrimaryCall C (.ofRat (R.raisedAt + w)) (.ofRat (R.raisedAt + w))).1 = .ok permit

/-- What the window still has when the snapshot returns, in doubles. -/
def secondsLeft (openedAt : Double) : Double := C.recoveryTimeoutSeconds - (.ofRat R.raisedAt - openedAt)

/-- No probe is in flight, and what is left of the window neither rounds to zero
microseconds nor to less than the doubles need to see the window over. -/
structure Sound : Prop where
  noProbe : R.asked.breaker.halfOpenProbeInFlight = false
  rounds : ∀ o, R.asked.breaker.openedAt = some o → 0 < R.secondsLeft o →
    1 / 2 < (R.secondsLeft o).value * 1000000 ∧
      (R.ForOpenWindow → C.recoveryTimeoutSeconds ≤ .ofRat (R.raisedAt + (R.secondsLeft o).round6.value) - o)

end LocalRefusal

section
variable {C : CircuitBreakerConfig Double} {b : CircuitBreaker Double} {now later o : Double}

/-- A breaker leaves OPEN by itself only when its window is over. -/
def WindowOver (C : CircuitBreakerConfig Double) (now : Double) (b : CircuitBreaker Double) : Prop :=
  b.state = .halfOpen → ∀ o, b.openedAt = some o → C.recoveryTimeoutSeconds ≤ now - o

theorem WindowOver.mono (h : WindowOver C now b) (hle : now ≤ later) : WindowOver C later b :=
  fun hs o ho => le_trans (h hs o ho) (Double.sub_le_sub_right hle o)

theorem remaining_some (ho : b.openedAt = some o) :
    b.remainingOpenSeconds C now = max 0 (C.recoveryTimeoutSeconds - (now - o)) := by
  unfold CircuitBreaker.remainingOpenSeconds
  rw [ho]

theorem remaining_pos_iff (ho : b.openedAt = some o) :
    0 < b.remainingOpenSeconds C now ↔ now - o < C.recoveryTimeoutSeconds := by
  rw [remaining_some ho, lt_max_iff, Double.sub_pos]
  simp

theorem WindowOver.advance (h : WindowOver C now b) : WindowOver C now (b.advanceOpenStateIfReady C now) := by
  intro hs o ho
  by_cases hopen : b.state = .open
  · by_cases hr : 0 < b.remainingOpenSeconds C now
    · simp [CircuitBreaker.advanceOpenStateIfReady, hopen, hr] at hs
    · have hb : b.openedAt = some o := by
        simpa [CircuitBreaker.advanceOpenStateIfReady, hopen, hr] using ho
      rw [remaining_pos_iff hb] at hr
      exact not_lt.mp hr
  · have hb : b.advanceOpenStateIfReady C now = b := by simp [CircuitBreaker.advanceOpenStateIfReady, hopen]
    rw [hb] at hs ho
    exact h hs o ho

theorem WindowOver.called (h : WindowOver C now b) (later : Double) (call : BreakerCall) :
    WindowOver C now (b.called C now later call) := by
  cases call with
  | readState => exact h.advance
  | snapshot => exact h.advance
  | allowPrimaryCall =>
    rw [CircuitBreaker.called_allow]
    rcases CircuitBreaker.allow_cases C now later b with ⟨err, ha⟩ | ⟨_, ha⟩ | ⟨_, _, ha⟩
    · rw [ha]; exact h.advance
    · rw [ha]; exact h
    · rw [ha]; exact h.advance
  | recordSuccess permit =>
    rw [CircuitBreaker.called_success, CircuitBreaker.recordSuccess_snd]
    intro hs; cases hs
  | recordFailure permit =>
    rw [CircuitBreaker.called_failure]
    rcases CircuitBreaker.recordFailure_cases C now b permit with ⟨ho, _, _⟩ | ⟨hne, ha⟩
    · intro hs; rw [ho] at hs; cases hs
    · intro hs; rw [ha] at hs; exact absurd hs hne

theorem run_windowOver {start : ℚ} {s u : CalledBreaker Double} {calls : List TimedCall}
    (hs : (localCalls C start).Reachable s) (hr : (localCalls C start).runFrom s calls = some u)
    (h : WindowOver C (.ofRat s.now) s.breaker) : WindowOver C (.ofRat u.now) u.breaker := by
  refine Lts.run_preserves (P := fun s : CalledBreaker Double => WindowOver C (.ofRat s.now) s.breaker) ?_ calls hs h hr
  intro s c t _ h ht
  simp only [localCalls, ClockReading.ofInstant_double, Option.ite_none_right_eq_some, Option.some.injEq] at ht
  obtain ⟨⟨hwait, hlag⟩, rfl⟩ := ht
  have hasked := h.mono (Double.ofRat_mono (le_add_of_nonneg_right hwait))
  have hcalled := hasked.called (.ofRat (s.now + c.wait + c.lag)) c.call
  exact hcalled.mono (Double.ofRat_mono (le_add_of_nonneg_right hlag))

theorem reachable_windowOver {start : ℚ} {s : CalledBreaker Double} (hs : (localCalls C start).Reachable s) :
    WindowOver C (.ofRat s.now) s.breaker := by
  obtain ⟨calls, hr⟩ := hs
  exact run_windowOver (localCalls C start).reachable_init hr fun h => by cases h

/-- When `allow_primary_call` is granted. -/
theorem allow_granted_iff {failures : Nat} (h : Represents C b failures) (hw : WindowOver C now b) (hle : now ≤ later) :
    (∃ permit, (b.allowPrimaryCall C later later).1 = .ok permit) ↔
      b.halfOpenProbeInFlight = false ∧ ∀ o, b.openedAt = some o → C.recoveryTimeoutSeconds ≤ later - o := by
  unfold CircuitBreaker.allowPrimaryCall CircuitBreaker.advanceOpenStateIfReady
  cases hs : b.state with
  | closed =>
    obtain ⟨hnone, hf, _⟩ := h.closed hs
    simp [hs, hnone, hf]
  | halfOpen =>
    have hover : ∀ o, b.openedAt = some o → C.recoveryTimeoutSeconds ≤ later - o := (hw.mono hle) hs
    cases hf : b.halfOpenProbeInFlight with
    | false => simpa [hs, hf] using hover
    | true => simp [hs, hf]
  | «open» =>
    obtain ⟨hsome, hf, _⟩ := h.opened hs
    obtain ⟨o, ho⟩ := Option.isSome_iff_exists.mp hsome
    have hpos : 0 < b.remainingOpenSeconds C later ↔ later - o < C.recoveryTimeoutSeconds := remaining_pos_iff ho
    by_cases hr : 0 < b.remainingOpenSeconds C later
    · have hlt := hpos.mp hr
      simp [hs, hr, hf, ho, hlt]
    · have hge := not_lt.mp fun hlt => hr (hpos.mpr hlt)
      simp [hr, hf, ho, hge]

end

namespace LocalRefusal
variable {C : CircuitBreakerConfig Double} (R : LocalRefusal C)

theorem snapshot_snd : R.snapshot.2 = R.asked.breaker.advanceOpenStateIfReady C (.ofRat R.askedAt) := rfl

theorem snapshot_openedAt : R.snapshot.2.openedAt = R.asked.breaker.openedAt := by
  rw [snapshot_snd]
  rcases CircuitBreaker.advance_cases C (.ofRat R.askedAt) R.asked.breaker with h | ⟨_, h⟩ <;> rw [h]

theorem asked_reachable : (localCalls C R.start).Reachable R.asked := R.reachable.run R.run

theorem asked_windowOver : WindowOver C (.ofRat R.askedAt) R.asked.breaker :=
  (reachable_windowOver R.asked_reachable).mono (Double.ofRat_mono (le_add_of_nonneg_right R.wait_nonneg))

theorem askedAt_le : R.askedAt ≤ R.raisedAt := le_add_of_nonneg_right R.lag_nonneg

theorem snapshot_probe : R.snapshot.2.halfOpenProbeInFlight = R.asked.breaker.halfOpenProbeInFlight := by
  obtain ⟨failures, hrep⟩ := reachable_represents R.asked_reachable
  rw [snapshot_snd]
  rcases CircuitBreaker.advance_cases C (.ofRat R.askedAt) R.asked.breaker with h | ⟨hs, h⟩
  · rw [h]
  · rw [h, (hrep.opened hs).2.1]

theorem grantedAfter_iff {w : ℚ} (hw : 0 ≤ w) : R.GrantedAfter w ↔
    R.asked.breaker.halfOpenProbeInFlight = false ∧
      ∀ o, R.asked.breaker.openedAt = some o → C.recoveryTimeoutSeconds ≤ .ofRat (R.raisedAt + w) - o := by
  obtain ⟨failures, hrep⟩ := reachable_represents R.asked_reachable
  have hadv : Represents C R.snapshot.2 failures := hrep.advance _
  have hover : WindowOver C (.ofRat R.askedAt) R.snapshot.2 := R.asked_windowOver.advance
  have hle : R.askedAt ≤ R.raisedAt + w := le_trans R.askedAt_le (le_add_of_nonneg_right hw)
  unfold GrantedAfter
  rw [allow_granted_iff hadv hover (Double.ofRat_mono hle), R.snapshot_probe, R.snapshot_openedAt]

/-- Waiting longer does not close the gate again. -/
theorem grantedAfter_mono {v w : ℚ} (hv : 0 ≤ v) (h : v ≤ w) (hg : R.GrantedAfter v) : R.GrantedAfter w := by
  rw [R.grantedAfter_iff hv] at hg
  rw [R.grantedAfter_iff (le_trans hv h)]
  refine ⟨hg.1, fun o ho => le_trans (hg.2 o ho) ?_⟩
  exact Double.sub_le_sub_right (Double.ofRat_mono (by linarith)) o

theorem secondsLeft_pos_iff (o : Double) :
    0 < R.secondsLeft o ↔ .ofRat R.raisedAt - o < C.recoveryTimeoutSeconds := Double.sub_pos

/-- While the window has time left, the breaker is open and has no probe. -/
theorem noProbe_of_left {o : Double} (ho : R.asked.breaker.openedAt = some o) (hx : 0 < R.secondsLeft o) :
    R.asked.breaker.halfOpenProbeInFlight = false := by
  obtain ⟨failures, hrep⟩ := reachable_represents R.asked_reachable
  cases hf : R.asked.breaker.halfOpenProbeInFlight with
  | false => rfl
  | true =>
    have hover := R.asked_windowOver.mono (Double.ofRat_mono R.askedAt_le) (hrep.probe hf) o ho
    exact absurd ((R.secondsLeft_pos_iff o).mp hx) (not_lt.mpr hover)

theorem hint_eq : R.snapshot.1.retryAfterSeconds =
    (R.asked.breaker.openedAt.elim 0 fun o => max 0 (R.secondsLeft o)).round6.value := by
  have hrem : R.snapshot.2.remainingOpenSeconds C (.ofRat R.raisedAt) =
      R.asked.breaker.openedAt.elim 0 fun o => max 0 (R.secondsLeft o) := by
    cases ho : R.asked.breaker.openedAt with
    | none =>
      unfold CircuitBreaker.remainingOpenSeconds
      rw [snapshot_openedAt, ho]
      rfl
    | some o =>
      rw [remaining_some (by rw [snapshot_openedAt, ho])]
      rfl
  rw [← hrem]
  rfl

theorem hint_nonneg : 0 ≤ R.snapshot.1.retryAfterSeconds := by
  rw [hint_eq]
  apply Double.round6_nonneg
  cases R.asked.breaker.openedAt with
  | none => exact le_refl _
  | some o => exact le_max_left _ _

/-- Without time left in a window the hint is zero, and only a probe refuses. -/
theorem usable_iff_closed (hx : ∀ o, R.asked.breaker.openedAt = some o → ¬ 0 < R.secondsLeft o) :
    HintUsable R.GrantedAfter R.ForOpenWindow R.snapshot.1.retryAfterSeconds ↔ R.Sound := by
  have hhint : R.snapshot.1.retryAfterSeconds = 0 := by
    rw [hint_eq]
    cases ho : R.asked.breaker.openedAt with
    | none => exact Double.round6_zero
    | some o =>
      rw [Option.elim_some, max_eq_left (not_lt.mp (hx o ho))]
      exact Double.round6_zero
  have hgranted : ∀ w, 0 ≤ w → (R.GrantedAfter w ↔ R.asked.breaker.halfOpenProbeInFlight = false) := by
    intro w hw
    rw [R.grantedAfter_iff hw]
    refine ⟨fun h => h.1, fun h => ⟨h, fun o ho => ?_⟩⟩
    have hover := not_lt.mp fun hlt => hx o ho ((R.secondsLeft_pos_iff o).mpr hlt)
    exact le_trans hover (Double.sub_le_sub_right (Double.ofRat_mono (le_add_of_nonneg_right hw)) o)
  rw [hhint]
  constructor
  · intro h
    refine ⟨?_, fun o ho hpos => absurd hpos (hx o ho)⟩
    by_contra hprobe
    exact lt_irrefl _ (h.positive fun hg => hprobe ((hgranted 0 le_rfl).mp hg))
  · intro h
    exact ⟨fun hno => absurd ((hgranted 0 le_rfl).mpr h.noProbe) hno, fun _ w hw => (hgranted w hw).mpr h.noProbe⟩

/-- With time left in the window the hint is that time, rounded. -/
theorem usable_iff_open {o : Double} (ho : R.asked.breaker.openedAt = some o) (hx : 0 < R.secondsLeft o) :
    HintUsable R.GrantedAfter R.ForOpenWindow R.snapshot.1.retryAfterSeconds ↔ R.Sound := by
  have hprobe := R.noProbe_of_left ho hx
  have hhint : R.snapshot.1.retryAfterSeconds = (R.secondsLeft o).round6.value := by
    rw [hint_eq, ho, Option.elim_some, max_eq_right hx.le]
  have hgranted : ∀ w, 0 ≤ w → (R.GrantedAfter w ↔ C.recoveryTimeoutSeconds ≤ .ofRat (R.raisedAt + w) - o) := by
    intro w hw
    rw [R.grantedAfter_iff hw]
    refine ⟨fun h => h.2 o ho, fun h => ⟨hprobe, fun o' ho' => ?_⟩⟩
    rw [ho, Option.some.injEq] at ho'
    exact ho' ▸ h
  have hnow : ¬ R.GrantedAfter 0 := by
    rw [hgranted 0 le_rfl, add_zero, not_le]
    exact (R.secondsLeft_pos_iff o).mp hx
  have hpos : 0 < R.snapshot.1.retryAfterSeconds ↔ 1 / 2 < (R.secondsLeft o).value * 1000000 := by
    rw [hhint]
    exact Double.round6_pos_iff hx.le
  constructor
  · intro h
    refine ⟨hprobe, fun o' ho' _ => ?_⟩
    rw [ho, Option.some.injEq] at ho'
    subst ho'
    refine ⟨hpos.mp (h.positive hnow), fun howed => ?_⟩
    rw [← hhint]
    exact (hgranted _ R.hint_nonneg).mp (h.enough howed _ le_rfl)
  · intro h
    obtain ⟨hhalf, hreaches⟩ := h.rounds o ho hx
    refine ⟨fun _ => hpos.mpr hhalf, fun howed w hw => ?_⟩
    refine R.grantedAfter_mono R.hint_nonneg hw ((hgranted _ R.hint_nonneg).mpr ?_)
    rw [hhint]
    exact hreaches howed

theorem usable_iff :
    HintUsable R.GrantedAfter R.ForOpenWindow R.snapshot.1.retryAfterSeconds ↔ R.Sound := by
  by_cases h : ∃ o, R.asked.breaker.openedAt = some o ∧ 0 < R.secondsLeft o
  · obtain ⟨o, ho, hx⟩ := h
    exact R.usable_iff_open ho hx
  · exact R.usable_iff_closed fun o ho hx => h ⟨o, ho, hx⟩

end LocalRefusal

/-! ## The breaker in Redis -/

section
variable {C : RedisBreakerConfig} {st : BreakerStore} {e : Era String}

theorem snapshot_opened (hh : st.Holds C e) {since : Nat} (hp : e.phase = .opened since) (us : Nat) :
    (snapshotLua C us st).remainingMs = ((since + C.recoveryTimeoutMs - nowMs us : Nat) : Int) := by
  have hs : st.circuit.hgetState = "open" := by rw [hh.state, hp]; rfl
  have hf := hh.fields
  rw [hp] at hf
  unfold snapshotLua
  simp only [hs, hf.1, if_true]
  split <;> omega

theorem snapshot_unopened (hh : st.Holds C e) (hp : e.phase.state ≠ .open) (us : Nat) :
    (snapshotLua C us st).remainingMs = (0 : Nat) := by
  have hs : st.circuit.hgetState ≠ "open" := by
    rw [hh.state]
    exact fun h => hp (CircuitState.value_inj.mp h)
  unfold snapshotLua
  simp only [hs, if_false, Nat.cast_zero]

theorem SnapshotReply.retryAfter_eq {r : SnapshotReply} {ms : Nat} (h : r.remainingMs = ms) :
    r.retryAfterSeconds = (remainingSeconds ms).round6.value := by
  unfold SnapshotReply.retryAfterSeconds
  rw [h]

theorem remainingSeconds_le (ms : Nat) : (0 : Double) ≤ remainingSeconds ms := by
  have hms := Double.nearest_nonneg (x := ((ms : Int) : ℚ)) (by positivity)
  have h1000 := Double.nearest_nonneg (x := 1000) (by norm_num)
  exact Double.nearest_nonneg (div_nonneg hms h1000)

/-- A millisecond is many microseconds, so no rest of the window rounds to zero. -/
theorem retryAfter_pos {ms : Nat} (h : 0 < ms) : 0 < (remainingSeconds ms).round6.value := by
  have hone : Double.ofRat 1 ≤ Double.ofRat ((ms : Int) : ℚ) := Double.ofRat_mono (by exact_mod_cast h)
  have hleast : 1 / 2 < Double.nearest (1 / 1000) * 1000000 := by decide +kernel
  have h1000 : Double.nearest 1000 = 1000 := by decide +kernel
  have h1 : Double.nearest 1 = 1 := by decide +kernel
  rw [Double.round6_pos_iff (remainingSeconds_le ms)]
  refine lt_of_lt_of_le hleast (mul_le_mul_of_nonneg_right ?_ (by norm_num))
  unfold remainingSeconds
  rw [Double.value_div, Double.value_ofRat 1000, h1000]
  refine Double.nearest_mono (div_le_div_of_nonneg_right ?_ (by norm_num))
  rwa [Double.le_iff, Double.value_ofRat 1, h1] at hone

/-- The gate `ms` milliseconds ahead is open for a clock that counts whole
microseconds from `us`. -/
theorem gate_le_iff {us gate ms m : Nat} (h : nowMs us + ms = gate) :
    gate ≤ nowMs (us + m) ↔ ms * 1000 ≤ us % 1000 + m := by
  rw [nowMs_eq] at h
  rw [nowMs_eq]
  omega

end

/-- A refusal of the script and the snapshot that `execute` takes after it. -/
structure RedisRefusal (C : RedisBreakerConfig) where
  before : BreakerSys
  reachable : (redisBreaker C).Reachable before
  token : String
  err : CircuitOpenError
  refused : permitFromReply (allowPrimaryLua C before.now token before.store).1 = .error (.circuitOpen err)
  others : List BreakerAct
  asked : BreakerSys
  run : (redisBreaker C).runFrom before (.allow token :: others) = some asked

namespace RedisRefusal
variable {C : RedisBreakerConfig} (R : RedisRefusal C)

def snapshot : SnapshotReply := snapshotLua C R.asked.now R.asked.store

/-- The refusal found the window open or a live probe lease. -/
def ForWindowOrProbe : Prop :=
  (allowPrimaryLua C R.before.now R.token R.before.store).1.branch = .openWindow ∨
    (allowPrimaryLua C R.before.now R.token R.before.store).1.branch = .probeHeld

def GrantedAfter (w : ℚ) : Prop :=
  ∀ token, AllowGranted C (R.asked.now + ⌊w * 1000000⌋.toNat) token R.asked.store

/-- The milliseconds that an open window still has when the script runs. -/
def msLeft : Nat := R.asked.store.circuit.hgetOpenedAtMs + C.recoveryTimeoutMs - R.asked.nowMs

/-- The snapshot does not find the lease of a probe alive, and the double of
what is left of an open window is not too small, the microseconds of the
current millisecond counted in. -/
structure Sound : Prop where
  noProbe : ¬ (R.asked.state = "half_open" ∧ R.asked.store.probe.get R.asked.nowMs ≠ none)
  rounds : R.asked.state = "open" → R.ForWindowOrProbe →
    R.msLeft * 1000 ≤ R.asked.now % 1000 + ⌊(remainingSeconds R.msLeft).round6.value * 1000000⌋.toNat

theorem asked_holds : ∃ e, R.asked.store.Holds C e := by
  obtain ⟨e, hh, _⟩ := reachable_linked (R.reachable.run R.run)
  exact ⟨e, hh⟩

theorem hint_nonneg : 0 ≤ R.snapshot.retryAfterSeconds := by
  obtain ⟨e, hh⟩ := R.asked_holds
  have hms : ∃ ms : Nat, R.snapshot.remainingMs = ms := by
    by_cases hp : e.phase.state = .open
    · cases h : e.phase with
      | closed f => rw [h] at hp; cases hp
      | opened since => exact ⟨_, snapshot_opened hh h R.asked.now⟩
      | probing tok since => rw [h] at hp; cases hp
    · exact ⟨_, snapshot_unopened hh hp R.asked.now⟩
  obtain ⟨ms, hms⟩ := hms
  rw [SnapshotReply.retryAfter_eq hms]
  exact Double.round6_nonneg (remainingSeconds_le ms)

theorem granted_iff {e : Era String} (hh : R.asked.store.Holds C e) (us : Nat) :
    (∀ token, AllowGranted C us token R.asked.store) ↔ e.phase.state = .closed ∨ e.gate C.policy ≤ nowMs us := by
  have hone : ∀ token, AllowGranted C us token R.asked.store ↔
      e.phase.state = .closed ∨ e.gate C.policy ≤ nowMs us := by
    intro token
    rw [allow_decision us token hh]
    rcases Era.acquire_cases C.policy (nowMs us) token e with ⟨f, hp, ha⟩ | ⟨hc, ht, ha⟩ | ⟨hc, ht, ha⟩
    · simp [ha, hp, Phase.state]
    · simp [ha, hc, ht]
    · simp [ha, ht]
  exact ⟨fun h => (hone "").mp (h ""), fun h token => (hone token).mpr h⟩

theorem granted_zero {e : Era String} (hh : R.asked.store.Holds C e) :
    R.GrantedAfter 0 ↔ e.phase.state = .closed ∨ e.gate C.policy ≤ R.asked.nowMs := by
  unfold GrantedAfter
  rw [granted_iff R hh, zero_mul]
  rfl

/-- A snapshot of an open window. -/
theorem usable_iff_open {e : Era String} (hh : R.asked.store.Holds C e) {since : Nat} (hp : e.phase = .opened since) :
    HintUsable R.GrantedAfter R.ForWindowOrProbe R.snapshot.retryAfterSeconds ↔ R.Sound := by
  have hstate : R.asked.state = "open" := by rw [BreakerSys.state, hh.state, hp]; rfl
  have hnotClosed : e.phase.state ≠ .closed := by rw [hp]; intro h; cases h
  have hgate : e.gate C.policy = since + C.recoveryTimeoutMs := by simp [Era.gate, hp]
  have hat : R.asked.store.circuit.hgetOpenedAtMs = since := by
    have hf := hh.fields
    rw [hp] at hf
    exact hf.1
  have hms : R.msLeft = since + C.recoveryTimeoutMs - R.asked.nowMs := by rw [msLeft, hat]
  have hhint : R.snapshot.retryAfterSeconds = (remainingSeconds R.msLeft).round6.value := by
    rw [hms]
    exact SnapshotReply.retryAfter_eq (snapshot_opened hh hp R.asked.now)
  have hgranted : ∀ w, R.GrantedAfter w ↔
      since + C.recoveryTimeoutMs ≤ nowMs (R.asked.now + ⌊w * 1000000⌋.toNat) := by
    intro w
    unfold GrantedAfter
    rw [granted_iff R hh, hgate]
    simp [hnotClosed]
  have hnoProbe : ¬ (R.asked.state = "half_open" ∧ R.asked.store.probe.get R.asked.nowMs ≠ none) := by
    rintro ⟨hhalf, _⟩
    rw [hstate] at hhalf
    exact absurd hhalf (by decide)
  have hpositive : ¬ R.GrantedAfter 0 → 0 < R.snapshot.retryAfterSeconds := by
    intro hno
    rw [hgranted, zero_mul, Int.floor_zero, Int.toNat_zero, Nat.add_zero, Nat.not_le] at hno
    rw [hhint, hms]
    exact retryAfter_pos (Nat.sub_pos_of_lt hno)
  have hat_hint : R.GrantedAfter R.snapshot.retryAfterSeconds ↔
      R.msLeft * 1000 ≤ R.asked.now % 1000 + ⌊(remainingSeconds R.msLeft).round6.value * 1000000⌋.toNat := by
    rw [hgranted, hhint]
    by_cases hover : since + C.recoveryTimeoutMs ≤ R.asked.nowMs
    · have hzero : R.msLeft = 0 := by rw [hms, Nat.sub_eq_zero_of_le hover]
      rw [hzero, Nat.zero_mul]
      exact ⟨fun _ => Nat.zero_le _, fun _ => le_trans hover (nowMs_mono (Nat.le_add_right _ _))⟩
    · exact gate_le_iff (by rw [hms, BreakerSys.nowMs] at *; omega)
  constructor
  · intro h
    exact ⟨hnoProbe, fun _ howed => hat_hint.mp (h.enough howed _ le_rfl)⟩
  · intro h
    refine ⟨hpositive, fun howed w hw => ?_⟩
    have hat := (hgranted _).mp (hat_hint.mpr (h.rounds hstate howed))
    rw [hgranted]
    refine le_trans hat (nowMs_mono ?_)
    have hfloor : ⌊R.snapshot.retryAfterSeconds * 1000000⌋ ≤ ⌊w * 1000000⌋ :=
      Int.floor_le_floor (mul_le_mul_of_nonneg_right hw (by norm_num))
    omega

theorem usable_iff : HintUsable R.GrantedAfter R.ForWindowOrProbe R.snapshot.retryAfterSeconds ↔ R.Sound := by
  obtain ⟨e, hh⟩ := R.asked_holds
  have hstate : R.asked.state = e.phase.state.value := hh.state
  have hzero := R.granted_zero hh
  cases hp : e.phase with
  | opened since => exact R.usable_iff_open hh hp
  | closed f =>
    have hgranted : ∀ w, R.GrantedAfter w := fun w => (R.granted_iff hh _).mpr (.inl (by rw [hp]; rfl))
    rw [hp] at hstate
    have hsound : R.Sound := by
      refine ⟨?_, fun hs => ?_⟩
      · rintro ⟨hs, _⟩
        rw [hstate] at hs
        simp [Phase.state, CircuitState.value] at hs
      · rw [hstate] at hs
        simp [Phase.state, CircuitState.value] at hs
    exact ⟨fun _ => hsound, fun _ => ⟨fun hno => absurd (hgranted 0) hno, fun _ w _ => hgranted w⟩⟩
  | probing tok since =>
    have hgate : e.gate C.policy = since + C.probeLeaseMs := by simp [Era.gate, hp]
    have hshut : e.phase.state ≠ .open := by
      rw [hp]
      intro h
      cases h
    have hhint : R.snapshot.retryAfterSeconds = 0 := by
      rw [snapshot, SnapshotReply.retryAfter_eq (snapshot_unopened hh hshut R.asked.now), remainingSeconds_zero]
      exact Double.round6_zero
    have hfields := hh.fields
    rw [hp] at hfields
    have hkey : R.asked.store.probe = some ⟨tok, since + C.probeLeaseMs⟩ := hfields
    have hsound : R.Sound ↔ since + C.probeLeaseMs ≤ R.asked.nowMs := by
      have hprobe : ¬ (R.asked.state = "half_open" ∧ R.asked.store.probe.get R.asked.nowMs ≠ none) ↔
          since + C.probeLeaseMs ≤ R.asked.nowMs := by
        rw [hstate, hp, hkey, Redis.Key.get_some]
        by_cases ht : R.asked.nowMs < since + C.probeLeaseMs
        · simp [Phase.state, CircuitState.value, ht]
        · simp [not_lt.mp ht, Nat.not_lt.mpr (not_lt.mp ht)]
      rw [← hprobe]
      refine ⟨fun h => h.noProbe, fun h => ⟨h, fun hs => ?_⟩⟩
      rw [hstate, hp] at hs
      simp [Phase.state, CircuitState.value] at hs
    rw [hp, hgate] at hzero
    have hnow : R.GrantedAfter 0 ↔ since + C.probeLeaseMs ≤ R.asked.nowMs := by simpa [Phase.state] using hzero
    rw [hsound, hhint]
    constructor
    · intro h
      by_contra hlive
      exact lt_irrefl _ (h.positive fun hg => hlive (hnow.mp hg))
    · intro hover
      refine ⟨fun hno => absurd (hnow.mpr hover) hno, fun _ w _ => (R.granted_iff hh _).mpr (.inr ?_)⟩
      rw [hgate]
      exact le_trans hover (nowMs_mono (Nat.le_add_right _ _))

end RedisRefusal

/-! ## Both breakers -/

/-- The hint that `execute` raises is usable exactly when the snapshot behind
it meets no probe and rounding takes nothing off it that is missed. -/
theorem retry_hint_usable_iff {α ε : Type} (c : ResilienceController) (B : BreakerAnswers) (q : ExecuteRequest α ε) :
    (∀ (C : CircuitBreakerConfig Double) (R : LocalRefusal C),
      (c.refusedExecute B q R.err R.snapshot.1.retryAfterSeconds).result =
          .error (.circuitOpen ⟨R.snapshot.1.retryAfterSeconds⟩) ∧
        (HintUsable R.GrantedAfter R.ForOpenWindow R.snapshot.1.retryAfterSeconds ↔ R.Sound)) ∧
    (∀ (C : RedisBreakerConfig) (R : RedisRefusal C),
      (c.refusedExecute B q R.err R.snapshot.retryAfterSeconds).result =
          .error (.circuitOpen ⟨R.snapshot.retryAfterSeconds⟩) ∧
        (HintUsable R.GrantedAfter R.ForWindowOrProbe R.snapshot.retryAfterSeconds ↔ R.Sound)) := by
  refine ⟨fun C R => ⟨?_, R.usable_iff⟩, fun C R => ⟨?_, R.usable_iff⟩⟩
  · exact refusedExecute_result c B q R.err R.hint_nonneg
  · exact refusedExecute_result c B q R.err R.hint_nonneg

def tripDoubles : CircuitBreakerConfig Double := ⟨1, .ofRat 1, Nat.one_pos, by decide +kernel⟩

/-- The breaker opened at 0 for one second; at 1 a request became the probe,
and another is refused. -/
def secondAtProbe : LocalRefusal tripDoubles where
  start := 0
  before := ⟨1, ⟨.halfOpen, 1, some (.ofRat 0), true⟩⟩
  reachable := ⟨[⟨0, 0, .recordFailure none⟩, ⟨1, 0, .allowPrimaryCall⟩], by decide +kernel⟩
  allow := ⟨0, 0, .allowPrimaryCall⟩
  isAllow := rfl
  err := ⟨0⟩
  refused := by decide +kernel
  others := []
  asked := ⟨1, ⟨.halfOpen, 1, some (.ofRat 0), true⟩⟩
  run := by decide +kernel
  wait := 0
  lag := 0
  wait_nonneg := le_rfl
  lag_nonneg := le_rfl

def secondAtLease : RedisRefusal quickTrip where
  before := probed
  reachable := probed_reachable
  token := "c"
  err := ⟨1 / 2⟩
  refused := by decide +kernel
  others := []
  asked := { probed with tokens := ["c", "b", "a"] }
  run := by decide +kernel

theorem probe_hint_unusable :
    (¬ HintUsable secondAtProbe.GrantedAfter secondAtProbe.ForOpenWindow
        secondAtProbe.snapshot.1.retryAfterSeconds) ∧
      ¬ HintUsable secondAtLease.GrantedAfter secondAtLease.ForWindowOrProbe
        secondAtLease.snapshot.retryAfterSeconds := by
  rw [secondAtProbe.usable_iff, secondAtLease.usable_iff]
  refine ⟨fun h => ?_, fun h => h.noProbe ⟨by decide, by decide⟩⟩
  have hprobe : true = false := h.noProbe
  cases hprobe

end InferenceService
