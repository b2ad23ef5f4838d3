import InferenceService.Breaker.Local
import InferenceService.Breaker.RedisEra
import InferenceService.Lib.Mealy
import Mathlib.Tactic.Positivity
import Mathlib.Tactic.Ring
import Mathlib.Tactic.Linarith

/-!
# The two breakers on sequential runs

A turn asks for a permit and settles it, if there is one, before the next turn.
Both breakers see one clock, which shows whole milliseconds and stands still
during a call. The local breaker keeps a count of failures that the scripts
reset and opens lazily where they do so at once; on sequential runs no answer
shows that. What an answer can show is how the local breaker measures an open
window: in doubles, where the scripts count milliseconds.
-/

namespace InferenceService

/-- One `allow_primary_call`, `wait` milliseconds after the last call, and the
record that settles its permit `held` milliseconds later. -/
structure Turn where
  wait : Nat
  probeToken : String
  held : Nat
  success : Bool
deriving DecidableEq, Repr

inductive TurnAnswer where
  | refused (retryAfterSeconds : ℚ)
  | granted (state : CircuitState) (recorded : Option CircuitTransition)
  | valueError
deriving DecidableEq, Repr

/-- Milliseconds as a clock in seconds shows them. -/
def seconds (ms : Nat) : Double := .ofRat (ms / 1000)

section
variable (C : CircuitBreakerConfig Double) (R : RedisBreakerConfig)

/-! ## The machines -/

def CircuitBreaker.record (now : Double) (success : Bool) (permit : CircuitPermit) (b : CircuitBreaker Double) :
    Option CircuitTransition × CircuitBreaker Double :=
  if success then b.recordSuccess (some permit) else b.recordFailure C now (some permit)

def localTurns : Mealy (Nat × CircuitBreaker Double) Turn TurnAnswer where
  step s t :=
    let allowAt := s.1 + t.wait
    let allowed := s.2.allowPrimaryCall C (seconds allowAt) (seconds allowAt)
    match allowed.1 with
    | .error err => (.refused err.retryAfterSeconds, allowAt, allowed.2)
    | .ok permit =>
      let recorded := allowed.2.record C (seconds (allowAt + t.held)) t.success permit
      (.granted permit.state recorded.1, allowAt + t.held, recorded.2)

def micros (ms : Nat) : Nat := ms * 1000

def recordCall (us : Nat) (success : Bool) (permit : CircuitPermit) (st : BreakerStore) :
    RecordReply × BreakerStore :=
  if success then recordSuccessCall us permit st else recordFailureCall R us permit st

def redisTurns : Mealy (Nat × BreakerStore) Turn TurnAnswer where
  step s t :=
    let allowAt := s.1 + t.wait
    let allowed := allowPrimaryLua R (micros allowAt) t.probeToken s.2
    match permitFromReply allowed.1 with
    | .error (.circuitOpen _) =>
      (.refused (CircuitOpenError.init (remainingSeconds allowed.1.remainingMs).value).retryAfterSeconds,
        allowAt, allowed.2)
    | .error .valueError => (.valueError, allowAt, allowed.2)
    | .ok permit =>
      let recorded := recordCall R (micros (allowAt + t.held)) t.success permit allowed.2
      match transitionFromResponse recorded.1 with
      | .error () => (.valueError, allowAt + t.held, recorded.2)
      | .ok transition => (.granted permit.state transition, allowAt + t.held, recorded.2)

/-- A probe is settled before its lease expires. -/
def Turn.InLease (s : Nat × BreakerStore) (t : Turn) : Prop :=
  ∀ permit, permitFromReply (allowPrimaryLua R (micros (s.1 + t.wait)) t.probeToken s.2).1 = .ok permit →
    permit.state = .halfOpen → t.held < R.probeLeaseMs

/-- What is left of the open window at `now`, in the doubles of the local
breaker. -/
def localRest (since now : Nat) : Double := max 0 (C.recoveryTimeoutSeconds - (seconds now - seconds since))

/-- The same in the milliseconds of the scripts, in seconds. -/
def redisRest (since now : Nat) : Double := remainingSeconds ((since + R.recoveryTimeoutMs - now : Nat) : Int)

/-- If the turn asks while the breaker is open, the doubles lose nothing of
what is left of the window. -/
def Turn.Unrounded (s : Nat × BreakerStore) (t : Turn) : Prop :=
  s.2.circuit.hgetState = "open" →
    localRest C s.2.circuit.hgetOpenedAtMs (s.1 + t.wait) = redisRest R s.2.circuit.hgetOpenedAtMs (s.1 + t.wait)

/-- The turn does not ask in the very millisecond that ends an open window. -/
def Turn.OffEdge (s : Nat × BreakerStore) (t : Turn) : Prop :=
  s.2.circuit.hgetState = "open" → s.1 + t.wait ≠ s.2.circuit.hgetOpenedAtMs + R.recoveryTimeoutMs

/-- The two answers differ at most in the hints of refusals, by `ε`. -/
inductive TurnAnswer.Near (ε : ℚ) : TurnAnswer → TurnAnswer → Prop
  | refused {x y : ℚ} (h : |x - y| ≤ ε) : Near ε (.refused x) (.refused y)
  | same (a : TurnAnswer) : Near ε a a

/-! ## The relation between the stores -/

/-- The local breaker's fields tell the phase; unless it is closed, it may have
any count of failures. -/
def CircuitBreaker.Shows (b : CircuitBreaker Double) : Phase String → Prop
  | .closed failures => b.state = .closed ∧ b.consecutiveFailures = failures
  | .opened since => b.state = .open ∧ b.openedAt = some (seconds since)
  | .probing _ _ => b.state = .halfOpen

/-- Between two turns no probe is out. -/
structure Related (s : Nat × BreakerStore) (l : Nat × CircuitBreaker Double) (e : Era String) : Prop where
  clock : s.1 = l.1
  holds : s.2.Holds R e
  shows : l.2.Shows e.phase
  settled : e.phase.state ≠ .halfOpen
  since_le : ∀ since, e.phase = .opened since → since ≤ s.1

variable {C R}

@[simp] theorem nowMs_micros (ms : Nat) : nowMs (micros ms) = ms := by
  rw [nowMs_eq, micros, Nat.mul_div_cancel _ (by decide)]

/-! ## Asking for a permit -/

section
variable {b : CircuitBreaker Double} {since now : Nat}

theorem local_remaining (ho : b.openedAt = some (seconds since)) :
    b.remainingOpenSeconds C (seconds now) = localRest C since now := by
  unfold CircuitBreaker.remainingOpenSeconds
  rw [ho]
  rfl

theorem local_allow_closed (hs : b.state = .closed) (now : Double) :
    b.allowPrimaryCall C now now = (.ok { state := .closed }, b) := by
  simp [CircuitBreaker.allowPrimaryCall, CircuitBreaker.advanceOpenStateIfReady, hs]

theorem local_allow_open (hs : b.state = .open) (ho : b.openedAt = some (seconds since))
    (hr : 0 < localRest C since now) :
    b.allowPrimaryCall C (seconds now) (seconds now) = (.error (.init (localRest C since now).value), b) := by
  rw [← local_remaining ho] at hr ⊢
  simp [CircuitBreaker.allowPrimaryCall, CircuitBreaker.advanceOpenStateIfReady, hs, hr]

theorem local_allow_ready (hs : b.state = .open) (ho : b.openedAt = some (seconds since))
    (hr : ¬ 0 < localRest C since now) :
    b.allowPrimaryCall C (seconds now) (seconds now) =
      (.ok { state := .halfOpen }, { b with state := .halfOpen, halfOpenProbeInFlight := true }) := by
  rw [← local_remaining ho] at hr
  simp [CircuitBreaker.allowPrimaryCall, CircuitBreaker.advanceOpenStateIfReady, hs, hr]

theorem localRest_nonneg (since now : Nat) : 0 ≤ localRest C since now := le_max_left _ _

theorem redisRest_of_le (h : since + R.recoveryTimeoutMs ≤ now) : redisRest R since now = 0 := by
  unfold redisRest remainingSeconds
  apply Double.value_injective
  rw [Nat.sub_eq_zero_of_le h, Double.value_div, Nat.cast_zero, Int.cast_zero, Double.ofRat_zero, Double.value_zero,
    zero_div, Double.nearest_zero]

/-- A whole millisecond does not vanish when it is rounded. -/
theorem remainingSeconds_pos {ms : Nat} (h : 0 < ms) : 0 < remainingSeconds ms := by
  have hone : Double.ofRat 1 ≤ Double.ofRat ((ms : Int) : ℚ) := Double.ofRat_mono (by exact_mod_cast h)
  have hleast : (0 : ℚ) < Double.nearest (1 / 1000) := by decide +kernel
  have h1000 : Double.nearest 1000 = 1000 := by decide +kernel
  have h1 : Double.nearest 1 = 1 := by decide +kernel
  unfold remainingSeconds
  rw [Double.lt_iff, Double.value_zero, Double.value_div]
  refine lt_of_lt_of_le hleast (Double.nearest_mono ?_)
  rw [Double.value_ofRat 1000, h1000]
  rw [Double.le_iff, Double.value_ofRat 1, h1] at hone
  linarith

theorem redisRest_pos (h : now < since + R.recoveryTimeoutMs) : 0 < redisRest R since now :=
  remainingSeconds_pos (Nat.sub_pos_of_lt h)

end

/-! ## Settling it -/

section
variable {st : BreakerStore} {b : CircuitBreaker Double} {e : Era String} {now : Nat}

/-- What the era after an outcome asks of the local breaker. -/
structure Settles (b' : CircuitBreaker Double) (now : Nat) (e' : Era String) : Prop where
  shows : b'.Shows e'.phase
  settled : e'.phase.state ≠ .halfOpen
  since_le : ∀ since, e'.phase = .opened since → since ≤ now

theorem success_settles {q : Pass String} (hb : b.Shows e.phase) (hq : e.Current R.policy now q)
    (permit : CircuitPermit) : (b.recordSuccess (some permit)).1 = (e.succeed q).1 ∧
      Settles (b.recordSuccess (some permit)).2 now (e.succeed q).2 := by
  have hsnd := CircuitBreaker.recordSuccess_snd b (some permit)
  have hclosed : ∀ v : Nat, Settles (b.recordSuccess (some permit)).2 now ⟨v, .closed 0⟩ := by
    intro v
    rw [hsnd]
    exact ⟨⟨rfl, rfl⟩, nofun, nofun⟩
  cases q with
  | normal v =>
    obtain ⟨f, hp⟩ := Era.closed_of_current hq
    rw [hp] at hb
    exact ⟨by simp [CircuitBreaker.recordSuccess, Era.succeed, hb.1], hclosed _⟩
  | probe v token =>
    obtain ⟨_, since, hp, _⟩ := hq
    rw [hp] at hb
    have hs : b.state = .halfOpen := hb
    exact ⟨by simp [CircuitBreaker.recordSuccess, Era.succeed, hs], hclosed _⟩

theorem failure_settles {q : Pass String} (hth : C.failureThreshold = R.failureThreshold) (hb : b.Shows e.phase)
    (hq : e.Current R.policy now q) (permit : CircuitPermit) :
    (b.recordFailure C (seconds now) (some permit)).1 = (e.fail R.policy now q).1 ∧
      Settles (b.recordFailure C (seconds now) (some permit)).2 now (e.fail R.policy now q).2 := by
  cases q with
  | normal v =>
    obtain ⟨f, hp⟩ := Era.closed_of_current hq
    rw [hp] at hb
    obtain ⟨hs, hf⟩ := hb
    have hfail : e.failures = f := by rw [Era.failures, hp]
    by_cases hf' : R.failureThreshold ≤ f + 1
    · rw [Era.fail_trips (by rw [hfail]; exact hf')]
      refine ⟨?_, ⟨?_, ?_⟩, (fun h => by cases h), ?_⟩
      · simp [CircuitBreaker.recordFailure, hs, hf, hth, hf']
      · simp [CircuitBreaker.recordFailure, CircuitBreaker.open, hs, hf, hth, hf']
      · simp [CircuitBreaker.recordFailure, CircuitBreaker.open, hs, hf, hth, hf']
      · rintro since ⟨⟩
        exact Nat.le_refl _
    · rw [Era.fail_counts (by rw [hfail]; exact Nat.not_le.mp hf'), hfail]
      refine ⟨?_, ⟨?_, ?_⟩, (fun h => by cases h), fun since h => by cases h⟩
      · simp [CircuitBreaker.recordFailure, hs, hf, hth, hf']
      · simp [CircuitBreaker.recordFailure, hs, hf, hth, hf']
      · simp [CircuitBreaker.recordFailure, hs, hf, hth, hf']
  | probe v token =>
    obtain ⟨_, since, hp, _⟩ := hq
    rw [hp] at hb
    have hs : b.state = .halfOpen := hb
    refine ⟨?_, ⟨?_, ?_⟩, (fun h => by cases h), ?_⟩
    · simp [CircuitBreaker.recordFailure, Era.fail, hs]
    · simp [CircuitBreaker.recordFailure, CircuitBreaker.open, hs]
    · simp [CircuitBreaker.recordFailure, CircuitBreaker.open, hs]
    · rintro since' ⟨⟩
      exact Nat.le_refl _

theorem settle_agrees {q : Pass String} (hth : C.failureThreshold = R.failureThreshold) (hh : st.Holds R e)
    (hb : b.Shows e.phase)
    (hq : e.Current R.policy now q) (success : Bool) (permit : CircuitPermit) :
    transitionFromResponse (recordCall R (micros now) success (permitOf q) st).1 =
        .ok (b.record C (seconds now) success permit).1 ∧
      ∃ e', Related R (now, (recordCall R (micros now) success (permitOf q) st).2)
        (now, (b.record C (seconds now) success permit).2) e' := by
  have hcur : e.Current R.policy (nowMs (micros now)) q := by rw [nowMs_micros]; exact hq
  cases success with
  | true =>
    obtain ⟨hr, hh'⟩ := success_refines hh (pass_permitOf q) hcur
    obtain ⟨hl, hs⟩ := success_settles hb hq permit
    exact ⟨hr.trans (congrArg Except.ok hl.symm), _, rfl, hh', hs.shows, hs.settled, hs.since_le⟩
  | false =>
    obtain ⟨hr, hh'⟩ := failure_refines hh (pass_permitOf q) hcur
    rw [nowMs_micros] at hr hh'
    obtain ⟨hl, hs⟩ := failure_settles hth hb hq permit
    exact ⟨hr.trans (congrArg Except.ok hl.symm), _, rfl, hh', hs.shows, hs.settled, hs.since_le⟩

end

/-! ## A turn -/

section
variable {now since : Nat} {st : BreakerStore} {b : CircuitBreaker Double} {e : Era String} {t : Turn}

/-- The two breakers see alike whether the window is over. -/
def Turn.Decided (C : CircuitBreakerConfig Double) (R : RedisBreakerConfig) (s : Nat × BreakerStore) (t : Turn) : Prop :=
  s.2.circuit.hgetState = "open" → (0 < localRest C s.2.circuit.hgetOpenedAtMs (s.1 + t.wait) ↔
    s.1 + t.wait < s.2.circuit.hgetOpenedAtMs + R.recoveryTimeoutMs)

theorem opened_fields (hh : st.Holds R e) (hp : e.phase = .opened since) :
    st.circuit.hgetState = "open" ∧ st.circuit.hgetOpenedAtMs = since := by
  have hf := hh.fields
  rw [hp] at hf
  exact ⟨by rw [hh.state, hp]; rfl, hf.1⟩

theorem opened_of_open (hh : st.Holds R e) (ho : st.circuit.hgetState = "open") : ∃ since, e.phase = .opened since := by
  rw [hh.state] at ho
  cases hp : e.phase with
  | closed f =>
    rw [hp] at ho
    simp [Phase.state, CircuitState.value] at ho
  | opened since => exact ⟨since, rfl⟩
  | probing token since =>
    rw [hp] at ho
    simp [Phase.state, CircuitState.value] at ho

theorem init_value {x : Double} (h : 0 < x) : (CircuitOpenError.init x.value).retryAfterSeconds = x.value :=
  max_eq_right (le_of_lt h)

theorem redis_turn_refused (hh : st.Holds R e) (hp : e.phase = .opened since)
    (ht : now + t.wait < since + R.recoveryTimeoutMs) :
    (redisTurns R).step (now, st) t = (.refused (redisRest R since (now + t.wait)).value, now + t.wait, st) := by
  have hms : nowMs (micros (now + t.wait)) < since + R.recoveryTimeoutMs := by
    rw [nowMs_micros]
    exact ht
  have ha := @allow_opened _ (micros (now + t.wait)) _ _ t.probeToken hh _ hp hms
  have hinit := init_value (redisRest_pos (R := R) ht)
  unfold redisRest at hinit ⊢
  simp only [redisTurns, ha, permitFromReply, nowMs_micros]
  exact congrArg (fun x => (TurnAnswer.refused x, now + t.wait, st)) hinit

/-- The script lets the request through when the window is over. -/
theorem redis_turn_passes (hh : st.Holds R e) (hp : e.phase = .opened since)
    (ht : since + R.recoveryTimeoutMs ≤ now + t.wait) (x : ℚ) : ((redisTurns R).step (now, st) t).1 ≠ .refused x := by
  have hgate : e.gate R.policy = since + R.recoveryTimeoutMs := by simp [Era.gate, hp]
  have hopen : e.phase.state ≠ .closed := by rw [hp]; intro h; cases h
  obtain ⟨hreply, _⟩ := allow_refines (C := R) (micros (now + t.wait)) t.probeToken hh
  rw [nowMs_micros, Era.acquire_probe hopen (by rw [hgate]; exact ht)] at hreply
  simp only [redisTurns, hreply, Verdict.answer]
  cases transitionFromResponse (recordCall R (micros (now + t.wait + t.held)) t.success
    (permitOf (.probe (e.version + 1) t.probeToken)) (allowPrimaryLua R (micros (now + t.wait)) t.probeToken st).2).1 with
  | error u =>
    intro h
    cases h
  | ok transition =>
    intro h
    cases h

theorem local_turn_refused (hs : b.state = .open) (ho : b.openedAt = some (seconds since))
    (hr : 0 < localRest C since (now + t.wait)) :
    (localTurns C).step (now, b) t = (.refused (localRest C since (now + t.wait)).value, now + t.wait, b) := by
  simp only [localTurns, local_allow_open hs ho hr, init_value hr]

theorem local_turn_passes (hs : b.state = .open) (ho : b.openedAt = some (seconds since))
    (hr : ¬ 0 < localRest C since (now + t.wait)) (x : ℚ) : ((localTurns C).step (now, b) t).1 ≠ .refused x := by
  simp only [localTurns, local_allow_ready hs ho hr]
  exact nofun

/-- A permit is settled alike, whatever the two stores made of the request. -/
theorem granted_agrees {q : Pass String} {st' : BreakerStore} {b' : CircuitBreaker Double} {permit : CircuitPermit}
    (hth : C.failureThreshold = R.failureThreshold)
    (hr : permitFromReply (allowPrimaryLua R (micros (now + t.wait)) t.probeToken st).1 = .ok (permitOf q))
    (hst : (allowPrimaryLua R (micros (now + t.wait)) t.probeToken st).2 = st')
    (hl : b.allowPrimaryCall C (seconds (now + t.wait)) (seconds (now + t.wait)) = (.ok permit, b'))
    (hstate : (permitOf q).state = permit.state) (hh : st'.Holds R e) (hb : b'.Shows e.phase)
    (hq : e.Current R.policy (now + t.wait + t.held) q) :
    ((redisTurns R).step (now, st) t).1 = ((localTurns C).step (now, b) t).1 ∧
      ∃ e', Related R ((redisTurns R).step (now, st) t).2 ((localTurns C).step (now, b) t).2 e' := by
  obtain ⟨htr, e', hrel⟩ := settle_agrees hth hh hb hq t.success permit
  have hlocal : (localTurns C).step (now, b) t =
      (.granted permit.state (b'.record C (seconds (now + t.wait + t.held)) t.success permit).1,
        now + t.wait + t.held, (b'.record C (seconds (now + t.wait + t.held)) t.success permit).2) := by
    simp only [localTurns, hl]
  have hredis : (redisTurns R).step (now, st) t =
      (.granted (permitOf q).state (b'.record C (seconds (now + t.wait + t.held)) t.success permit).1,
        now + t.wait + t.held, (recordCall R (micros (now + t.wait + t.held)) t.success (permitOf q) st').2) := by
    simp only [redisTurns, hr, hst, htr]
  rw [hlocal, hredis, hstate]
  exact ⟨rfl, e', hrel⟩

/-- Where both see alike whether the window is over, only the hint of a refusal
can tell the two breakers apart. -/
theorem turn_agrees (hth : C.failureThreshold = R.failureThreshold) (h : Related R (now, st) (now, b) e)
    (ht : t.InLease R (now, st)) (hd : t.Decided C R (now, st)) :
    (((redisTurns R).step (now, st) t).1 = ((localTurns C).step (now, b) t).1 ∨
      ∃ since, e.phase = .opened since ∧ since ≤ now ∧ now + t.wait < since + R.recoveryTimeoutMs ∧
        ((redisTurns R).step (now, st) t).1 = .refused (redisRest R since (now + t.wait)).value ∧
        ((localTurns C).step (now, b) t).1 = .refused (localRest C since (now + t.wait)).value) ∧
      ∃ e', Related R ((redisTurns R).step (now, st) t).2 ((localTurns C).step (now, b) t).2 e' := by
  obtain ⟨_, hh, hb, hsettled, hsince⟩ := h
  obtain ⟨hreply, hh'⟩ := allow_refines (C := R) (micros (now + t.wait)) t.probeToken hh
  rw [nowMs_micros] at hreply hh'
  cases hp : e.phase with
  | closed f =>
    rw [Era.acquire_closed hp] at hreply hh'
    have hst : (allowPrimaryLua R (micros (now + t.wait)) t.probeToken st).2 = st := by rw [allow_closed hh hp]
    rw [hp] at hb
    obtain ⟨hout, hrel⟩ := granted_agrees hth hreply hst (local_allow_closed hb.1 _) rfl hh (by rw [hp]; exact hb)
      ⟨rfl, by rw [hp]; rfl⟩
    exact ⟨.inl hout, hrel⟩
  | opened since =>
    rw [hp] at hb
    obtain ⟨hs, ho⟩ := hb
    have hle := hsince since hp
    have hgate : e.gate R.policy = since + R.recoveryTimeoutMs := by simp [Era.gate, hp]
    have hopen : e.phase.state ≠ .closed := by rw [hp]; intro h; cases h
    obtain ⟨hstate, hat⟩ := opened_fields hh hp
    have hdecided := hd hstate
    rw [hat] at hdecided
    by_cases hlt : now + t.wait < since + R.recoveryTimeoutMs
    · rw [redis_turn_refused hh hp hlt, local_turn_refused hs ho (hdecided.mpr hlt)]
      refine ⟨.inr ⟨since, rfl, hle, hlt, rfl, rfl⟩, e, rfl, hh, by rw [hp]; exact ⟨hs, ho⟩, hsettled, ?_⟩
      exact fun since' h' => Nat.le_trans (hsince since' h') (Nat.le_add_right _ _)
    · have hge := Nat.not_lt.mp hlt
      rw [Era.acquire_probe hopen (by rw [hgate]; exact hge)] at hreply hh'
      have hheld : t.held < R.probeLeaseMs := ht _ hreply rfl
      obtain ⟨hout, hrel⟩ := granted_agrees hth hreply rfl (local_allow_ready hs ho fun hr => hlt (hdecided.mp hr)) rfl
        hh' rfl ⟨rfl, _, rfl, by rw [policy_lease]; omega⟩
      exact ⟨.inl hout, hrel⟩
  | probing token since => exact absurd (by rw [hp]; rfl) hsettled

/-- Without rounding the window is over at the same time. -/
theorem Turn.Unrounded.decided {s : Nat × BreakerStore} (h : t.Unrounded C R s) : t.Decided C R s := by
  intro ho
  rw [h ho]
  constructor
  · intro hpos
    by_contra hge
    rw [redisRest_of_le (Nat.not_lt.mp hge)] at hpos
    exact lt_irrefl _ hpos
  · exact redisRest_pos

theorem turn_unrounded (hth : C.failureThreshold = R.failureThreshold) (h : Related R (now, st) (now, b) e)
    (ht : t.InLease R (now, st)) (hu : t.Unrounded C R (now, st)) :
    ((redisTurns R).step (now, st) t).1 = ((localTurns C).step (now, b) t).1 ∧
      ∃ e', Related R ((redisTurns R).step (now, st) t).2 ((localTurns C).step (now, b) t).2 e' := by
  obtain ⟨hout | ⟨since, hp, _, _, hr, hl⟩, hrel⟩ := turn_agrees hth h ht hu.decided
  · exact ⟨hout, hrel⟩
  · obtain ⟨hstate, hat⟩ := opened_fields h.holds hp
    have heq := hu hstate
    simp only [hat] at heq
    exact ⟨by rw [hr, hl, heq], hrel⟩

/-- What rounding changes of an open window, the answer shows. -/
theorem turn_rounded (h : Related R (now, st) (now, b) e) (hu : ¬ t.Unrounded C R (now, st)) :
    ((redisTurns R).step (now, st) t).1 ≠ ((localTurns C).step (now, b) t).1 := by
  unfold Turn.Unrounded at hu
  push Not at hu
  obtain ⟨hstate, hne⟩ := hu
  obtain ⟨since, hp⟩ := opened_of_open h.holds hstate
  have hat := (opened_fields h.holds hp).2
  simp only [hat] at hne
  have hb := h.shows
  rw [hp] at hb
  obtain ⟨hs, ho⟩ := hb
  by_cases hr : 0 < localRest C since (now + t.wait)
  · rw [local_turn_refused hs ho hr]
    by_cases hlt : now + t.wait < since + R.recoveryTimeoutMs
    · rw [redis_turn_refused h.holds hp hlt]
      intro heq
      exact hne (Double.value_injective (TurnAnswer.refused.inj heq).symm)
    · exact redis_turn_passes h.holds hp (Nat.not_lt.mp hlt) _
  · by_cases hlt : now + t.wait < since + R.recoveryTimeoutMs
    · rw [redis_turn_refused h.holds hp hlt]
      exact (local_turn_passes hs ho hr _).symm
    · have hzero : localRest C since (now + t.wait) = 0 := le_antisymm (not_lt.mp hr) (localRest_nonneg _ _)
      rw [hzero, redisRest_of_le (Nat.not_lt.mp hlt)] at hne
      exact absurd rfl hne

end

theorem fresh_related (start : Nat) : Related R (start, ⟨{}, none⟩) (start, {}) Era.initial where
  clock := rfl
  holds := empty_holds R
  shows := ⟨rfl, rfl⟩
  settled := nofun
  since_le := nofun

/-! ## How far rounding goes -/

section
variable {k ms since now : Nat} {st : BreakerStore} {b : CircuitBreaker Double} {e : Era String} {t : Turn}

theorem ms_le (h : ms ≤ 1000 * 2 ^ k) : (ms : ℚ) / 1000 ≤ 2 ^ (k : ℤ) := by
  have hcast : (ms : ℚ) ≤ 1000 * 2 ^ k := by exact_mod_cast h
  rw [div_le_iff₀ (by norm_num), zpow_natCast]
  linarith

theorem seconds_near (h : ms ≤ 1000 * 2 ^ k) : |(seconds ms).value - (ms : ℚ) / 1000| ≤ 2 ^ ((k : ℤ) - 53) := by
  refine Double.abs_nearest_sub_le ?_ (by omega)
  rw [abs_of_nonneg (by positivity)]
  exact ms_le h

theorem seconds_nonneg (ms : Nat) : 0 ≤ (seconds ms).value := Double.nearest_nonneg (by positivity)

theorem seconds_le (h : ms ≤ 1000 * 2 ^ k) : (seconds ms).value ≤ 2 ^ (k : ℤ) := by
  have hrep : Double.Representable ((2 : ℚ) ^ (k : ℤ)) := ⟨1, k, by omega, by decide, by rw [Int.cast_one, one_mul]⟩
  have := Double.nearest_mono (ms_le h)
  rw [Double.nearest_of_representable hrep] at this
  exact this

theorem seconds_mono (h : since ≤ now) : (seconds since).value ≤ (seconds now).value := by
  have hcast : (since : ℚ) ≤ now := by exact_mod_cast h
  exact Double.nearest_mono (by linarith)

theorem sub_near {x y : Double} (hx : 0 ≤ x.value ∧ x.value ≤ 2 ^ (k : ℤ)) (hy : 0 ≤ y.value ∧ y.value ≤ 2 ^ (k : ℤ)) :
    |(x - y).value - (x.value - y.value)| ≤ 2 ^ ((k : ℤ) - 53) := by
  refine Double.abs_nearest_sub_le ?_ (by omega)
  rw [abs_le]
  constructor <;> linarith [hx.1, hx.2, hy.1, hy.2]

/-- Five roundings stand between the local breaker's rest and the exact one. -/
theorem rest_near (hwindow : C.recoveryTimeoutSeconds = seconds R.recoveryTimeoutMs)
    (hR : R.recoveryTimeoutMs ≤ 1000 * 2 ^ k) (hsince : since ≤ now) (hnow : now ≤ 1000 * 2 ^ k) :
    |(C.recoveryTimeoutSeconds - (seconds now - seconds since)).value -
      ((since : ℚ) + R.recoveryTimeoutMs - now) / 1000| ≤ 5 * 2 ^ ((k : ℤ) - 53) := by
  have hle := seconds_mono hsince
  have hn := abs_le.mp (seconds_near hnow)
  have hs := abs_le.mp (seconds_near (Nat.le_trans hsince hnow))
  have hw := abs_le.mp (seconds_near hR)
  have helapsed := abs_le.mp (sub_near (k := k) ⟨seconds_nonneg now, seconds_le hnow⟩
    ⟨seconds_nonneg since, seconds_le (Nat.le_trans hsince hnow)⟩)
  have hwithin : 0 ≤ (seconds now - seconds since).value ∧ (seconds now - seconds since).value ≤ 2 ^ (k : ℤ) := by
    refine ⟨Double.nearest_nonneg (by linarith), ?_⟩
    have hrep : Double.Representable ((2 : ℚ) ^ (k : ℤ)) := ⟨1, k, by omega, by decide, by rw [Int.cast_one, one_mul]⟩
    have hdiff : (seconds now).value - (seconds since).value ≤ 2 ^ (k : ℤ) := by
      linarith [seconds_le hnow, seconds_nonneg since]
    have := Double.nearest_mono hdiff
    rw [Double.nearest_of_representable hrep] at this
    exact this
  have hrest := abs_le.mp (sub_near (k := k) ⟨seconds_nonneg R.recoveryTimeoutMs, seconds_le hR⟩ hwithin)
  have hexact : ((since : ℚ) + R.recoveryTimeoutMs - now) / 1000 =
      (R.recoveryTimeoutMs : ℚ) / 1000 - ((now : ℚ) / 1000 - (since : ℚ) / 1000) := by ring
  rw [hwindow, hexact, abs_le]
  constructor <;> linarith [hn.1, hn.2, hs.1, hs.2, hw.1, hw.2, helapsed.1, helapsed.2, hrest.1, hrest.2]

theorem rounding_le (hk : k ≤ 40) : (2 : ℚ) ^ ((k : ℤ) - 53) ≤ 1 / 8192 := by
  calc (2 : ℚ) ^ ((k : ℤ) - 53) ≤ 2 ^ (-13 : ℤ) := Double.two_zpow_le (by omega)
    _ = 1 / 8192 := by norm_num

theorem localRest_pos_iff : 0 < localRest C since now ↔
    0 < (C.recoveryTimeoutSeconds - (seconds now - seconds since)).value := by
  unfold localRest
  rw [lt_max_iff]
  simp [Double.lt_iff]

/-- A millisecond away from the end of the window the roundings do not reach. -/
theorem localRest_decides (hk : k ≤ 40) (hwindow : C.recoveryTimeoutSeconds = seconds R.recoveryTimeoutMs)
    (hR : R.recoveryTimeoutMs ≤ 1000 * 2 ^ k) (hsince : since ≤ now) (hnow : now ≤ 1000 * 2 ^ k)
    (hoff : now ≠ since + R.recoveryTimeoutMs) :
    0 < localRest C since now ↔ now < since + R.recoveryTimeoutMs := by
  have hnear := abs_le.mp (rest_near hwindow hR hsince hnow)
  have hsmall := rounding_le hk
  rw [localRest_pos_iff]
  rcases Nat.lt_or_gt_of_ne hoff with hlt | hgt
  · have hone : (now : ℚ) + 1 ≤ since + R.recoveryTimeoutMs := by exact_mod_cast hlt
    refine ⟨fun _ => hlt, fun _ => ?_⟩
    linarith [hnear.1]
  · have hone : (since : ℚ) + R.recoveryTimeoutMs + 1 ≤ now := by exact_mod_cast hgt
    refine ⟨fun hpos => ?_, fun hlt => absurd hlt (Nat.not_lt.mpr (Nat.le_of_lt hgt))⟩
    linarith [hnear.2]

theorem redisRest_near (hk : k ≤ 40) (hR : R.recoveryTimeoutMs ≤ 1000 * 2 ^ k) (hsince : since ≤ now) :
    |(redisRest R since now).value - ((since + R.recoveryTimeoutMs - now : Nat) : ℚ) / 1000| ≤ 2 ^ ((k : ℤ) - 53) := by
  have hle : since + R.recoveryTimeoutMs - now ≤ 1000 * 2 ^ k := by omega
  have hbig : since + R.recoveryTimeoutMs - now ≤ 2 ^ 53 := by
    have hpow : 2 ^ k ≤ 2 ^ 40 := Nat.pow_le_pow_right (by decide) hk
    omega
  have hms : Double.nearest (((since + R.recoveryTimeoutMs - now : Nat) : Int) : ℚ) =
      (((since + R.recoveryTimeoutMs - now : Nat) : Int) : ℚ) := by
    apply Double.nearest_of_representable
    apply Double.representable_intCast
    rw [abs_of_nonneg (by omega)]
    exact_mod_cast hbig
  have h1000 : Double.nearest 1000 = 1000 := by decide +kernel
  unfold redisRest remainingSeconds
  rw [Double.value_div, Double.value_ofRat, Double.value_ofRat, hms, h1000, Int.cast_natCast]
  exact seconds_near hle

theorem hints_near (hk : k ≤ 40) (hwindow : C.recoveryTimeoutSeconds = seconds R.recoveryTimeoutMs)
    (hR : R.recoveryTimeoutMs ≤ 1000 * 2 ^ k) (hsince : since ≤ now) (hnow : now ≤ 1000 * 2 ^ k)
    (hlt : now < since + R.recoveryTimeoutMs) :
    |(redisRest R since now).value - (localRest C since now).value| ≤ 6 * 2 ^ ((k : ℤ) - 53) := by
  have hpos := (localRest_decides hk hwindow hR hsince hnow (Nat.ne_of_lt hlt)).mpr hlt
  have hmax : (localRest C since now).value = (C.recoveryTimeoutSeconds - (seconds now - seconds since)).value := by
    unfold localRest
    rw [max_eq_right]
    exact le_of_lt (localRest_pos_iff.mp hpos)
  have hcast : ((since + R.recoveryTimeoutMs - now : Nat) : ℚ) = (since : ℚ) + R.recoveryTimeoutMs - now := by
    rw [Nat.cast_sub (Nat.le_of_lt hlt), Nat.cast_add]
  have hlocal := abs_le.mp (rest_near hwindow hR hsince hnow)
  have hredis := abs_le.mp (redisRest_near hk hR hsince)
  rw [hcast] at hredis
  rw [hmax, abs_le]
  constructor <;> linarith [hlocal.1, hlocal.2, hredis.1, hredis.2]

theorem turn_near (hk : k ≤ 40) (hth : C.failureThreshold = R.failureThreshold)
    (hwindow : C.recoveryTimeoutSeconds = seconds R.recoveryTimeoutMs) (hR : R.recoveryTimeoutMs ≤ 1000 * 2 ^ k)
    (h : Related R (now, st) (now, b) e) (ht : t.InLease R (now, st)) (hnow : now + t.wait ≤ 1000 * 2 ^ k)
    (hoff : t.OffEdge R (now, st)) :
    TurnAnswer.Near (6 * 2 ^ ((k : ℤ) - 53)) ((redisTurns R).step (now, st) t).1 ((localTurns C).step (now, b) t).1 ∧
      ∃ e', Related R ((redisTurns R).step (now, st) t).2 ((localTurns C).step (now, b) t).2 e' := by
  have hd : t.Decided C R (now, st) := by
    intro ho
    obtain ⟨since, hp⟩ := opened_of_open h.holds ho
    have hle := h.since_le since hp
    have hne := hoff ho
    rw [(opened_fields h.holds hp).2] at hne ⊢
    exact localRest_decides hk hwindow hR (Nat.le_trans hle (Nat.le_add_right _ _)) hnow hne
  obtain ⟨hout | ⟨since, _, hle, hlt, hr, hl⟩, hrel⟩ := turn_agrees hth h ht hd
  · rw [hout]
    exact ⟨.same _, hrel⟩
  · rw [hr, hl]
    exact ⟨.refused (hints_near hk hwindow hR (Nat.le_trans hle (Nat.le_add_right _ _)) hnow hlt), hrel⟩

end

section
variable {failureThreshold probeLeaseMs : Int} {recoveryMs k : Nat} {keyPrefix : String} {socketTimeoutSeconds : ℚ}
  {recoverySeconds : Double}

theorem CircuitBreakerConfig.init_ok (h : CircuitBreakerConfig.init failureThreshold recoverySeconds = .ok C) :
    C.failureThreshold = failureThreshold.toNat ∧ C.recoveryTimeoutSeconds = recoverySeconds := by
  unfold CircuitBreakerConfig.init at h
  split_ifs at h
  obtain rfl := Except.ok.inj h
  exact ⟨rfl, rfl⟩

theorem RedisBreakerConfig.init_ok (h : RedisBreakerConfig.init failureThreshold recoverySeconds keyPrefix
      socketTimeoutSeconds probeLeaseMs = .ok R) :
    R.failureThreshold = failureThreshold.toNat ∧ 0 < recoverySeconds ∧
      R.recoveryTimeoutMs = (max 1 (Python.round (recoverySeconds * .ofRat 1000).value)).toNat := by
  unfold RedisBreakerConfig.init at h
  split_ifs at h with _ hpos
  obtain rfl := Except.ok.inj h
  exact ⟨rfl, not_le.mp hpos, rfl⟩

/-- The milliseconds of a timeout survive its way through seconds. -/
theorem round_seconds (hk : k ≤ 40) (h : recoveryMs ≤ 1000 * 2 ^ k) :
    Python.round (seconds recoveryMs * .ofRat 1000).value = recoveryMs := by
  have h1000 : Double.nearest 1000 = 1000 := by decide +kernel
  have hsmall := rounding_le hk
  have hnear := abs_le.mp (seconds_near h)
  have hprod : |(seconds recoveryMs).value * 1000| ≤ 2 ^ (50 : ℤ) := by
    rw [abs_of_nonneg (mul_nonneg (seconds_nonneg _) (by norm_num))]
    calc (seconds recoveryMs).value * 1000 ≤ 2 ^ (40 : ℤ) * 1000 := by
          refine mul_le_mul_of_nonneg_right ?_ (by norm_num)
          exact le_trans (seconds_le h) (Double.two_zpow_le (by omega))
      _ ≤ 2 ^ (50 : ℤ) := by norm_num
  have hmul := abs_le.mp (Double.abs_nearest_sub_le hprod (by norm_num))
  have heighth : (2 : ℚ) ^ ((50 : ℤ) - 53) = 1 / 8 := by norm_num
  rw [heighth] at hmul
  rw [Double.value_mul, Double.value_ofRat, h1000]
  refine Python.round_eq_of_near ?_
  rw [abs_lt, Int.cast_natCast]
  constructor <;> linarith [hnear.1, hnear.2, hmul.1, hmul.2]

end

end

section
variable (C : CircuitBreakerConfig Double) (R : RedisBreakerConfig)

def quickLocal : CircuitBreakerConfig Double := ⟨1, seconds 1000, Nat.one_pos, by decide +kernel⟩

theorem quickLocal_init : CircuitBreakerConfig.init 1 (seconds 1000) = .ok quickLocal := by
  unfold CircuitBreakerConfig.init
  rw [dif_neg (by decide), dif_neg (by decide +kernel)]
  rfl

theorem quickTrip_init : RedisBreakerConfig.init 1 (seconds 1000) "breaker" 1 500 = .ok quickTrip := by
  have hround := @round_seconds 1000 0 (by decide) (by decide)
  unfold RedisBreakerConfig.init
  rw [dif_neg (by decide), if_neg (by decide +kernel), if_neg (by norm_num), dif_neg (by decide), if_neg (by decide)]
  simp only [hround]
  rfl

/-- A failure that opens the breakers, a refusal, a failed and a successful
probe, on a grid of eighths of a second. -/
def tripAndRecover : List Turn :=
  [⟨0, "a", 125, false⟩, ⟨375, "b", 0, true⟩, ⟨625, "c", 375, false⟩, ⟨1000, "d", 375, true⟩, ⟨7, "e", 1, true⟩]

theorem tripAndRecover_inLease : (redisTurns quickTrip).Along (fun s t => t.InLease quickTrip s) (0, ⟨{}, none⟩)
    tripAndRecover := by
  refine Mealy.along_of_forall ?_
  intro t ht s permit _ _
  have hall : ∀ t ∈ tripAndRecover, t.held < 500 := by decide
  exact hall t ht

/-- Opened after 5 milliseconds for a second, the local breaker refuses at 1005:
`1.0 - (1.005 - 0.005)` is not 0 in doubles. -/
def askAtEnd : List Turn := [⟨0, "a", 5, false⟩, ⟨1000, "b", 0, true⟩]

end

end InferenceService
