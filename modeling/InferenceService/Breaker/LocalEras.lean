import InferenceService.Breaker.Local
import InferenceService.Lib.Lts

/-!
# Concurrent requests on one process-local breaker

A request holds its permit until it settles, once, with a success or a failure.
The count of changes to OPEN tells which permits an outcome may still speak
for; the breaker itself does not know it.
-/

namespace InferenceService

/-- An unsettled request: its permit, and how often the breaker had changed to
OPEN when it was granted. -/
structure LocalRequest where
  permit : CircuitPermit
  opens : Nat
deriving DecidableEq, Repr

structure LocalSys where
  now : ℚ
  breaker : CircuitBreaker
  requests : List LocalRequest
  opens : Nat
deriving DecidableEq, Repr

inductive LocalAct where
  | tick (dt : ℚ)
  | readState
  | snapshot (lag : ℚ)
  | allow (lag : ℚ)
  | success (k : Nat)
  | failure (k : Nat)
deriving DecidableEq, Repr

def LocalAct.settled : LocalAct → Option Nat
  | .success k => some k
  | .failure k => some k
  | _ => none

def opensAfter (n : Nat) (b b' : CircuitBreaker) : Nat :=
  if b.state ≠ .open ∧ b'.state = .open then n + 1 else n

def outstandingProbes (rs : List LocalRequest) : Nat := rs.countP fun r => r.permit.state = .halfOpen

section
variable (C : CircuitBreakerConfig)

namespace LocalSys

def put (s : LocalSys) (lag : ℚ) (b : CircuitBreaker) : LocalSys :=
  { s with now := s.now + lag, breaker := b, opens := opensAfter s.opens s.breaker b }

def step (s : LocalSys) : LocalAct → Option LocalSys
  | .tick dt => if 0 ≤ dt then some { s with now := s.now + dt } else none
  | .readState => some (s.put 0 (s.breaker.readState C s.now).2)
  | .snapshot lag => if 0 ≤ lag then some (s.put lag (s.breaker.snapshot C s.now (s.now + lag)).2) else none
  | .allow lag =>
    if 0 ≤ lag then
      let (reply, b) := s.breaker.allowPrimaryCall C s.now (s.now + lag)
      match reply with
      | .ok permit => some { s.put lag b with requests := ⟨permit, s.opens⟩ :: s.requests }
      | .error _ => some (s.put lag b)
    else none
  | .success k => s.requests[k]?.map fun r =>
      { s.put 0 (s.breaker.recordSuccess (some r.permit)).2 with requests := s.requests.eraseIdx k }
  | .failure k => s.requests[k]?.map fun r =>
      { s.put 0 (s.breaker.recordFailure C s.now (some r.permit)).2 with requests := s.requests.eraseIdx k }

end LocalSys

def localBreaker (start : ℚ) : Lts LocalSys LocalAct where
  init := ⟨start, {}, [], 0⟩
  step s a := s.step C a

/-- The kinds of step. -/
inductive LocalMoves (s : LocalSys) : LocalAct → LocalSys → Prop where
  | tick (dt : ℚ) : LocalMoves s (.tick dt) { s with now := s.now + dt }
  | advance {a : LocalAct} (lag : ℚ) (ha : a.settled = none) :
      LocalMoves s a (s.put lag (s.breaker.advanceOpenStateIfReady C s.now))
  | normal (lag : ℚ) (hs : s.breaker.state = .closed) :
      LocalMoves s (.allow lag)
        { s.put lag s.breaker with requests := ⟨{ state := .closed }, s.opens⟩ :: s.requests }
  | probe (lag : ℚ) (hs : (s.breaker.advanceOpenStateIfReady C s.now).state = .halfOpen)
      (hf : (s.breaker.advanceOpenStateIfReady C s.now).halfOpenProbeInFlight = false) :
      LocalMoves s (.allow lag)
        { s.put lag { s.breaker.advanceOpenStateIfReady C s.now with halfOpenProbeInFlight := true } with
          requests := ⟨{ state := .halfOpen }, s.opens⟩ :: s.requests }
  | success {k : Nat} {r : LocalRequest} (hr : s.requests[k]? = some r) :
      LocalMoves s (.success k) { s.put 0 ⟨.closed, 0, none, false⟩ with requests := s.requests.eraseIdx k }
  | failure {k : Nat} {r : LocalRequest} (hr : s.requests[k]? = some r) :
      LocalMoves s (.failure k)
        { s.put 0 (s.breaker.recordFailure C s.now (some r.permit)).2 with requests := s.requests.eraseIdx k }

/-- What isolation of eras asks of a step. -/
structure LocalIsolated (s : LocalSys) (a : LocalAct) (s' : LocalSys) : Prop where
  outdated : ∀ k r, a.settled = some k → s.requests[k]? = some r → r.opens < s.opens → s'.breaker = s.breaker
  closes : s.breaker.state ≠ .closed → s'.breaker.state = .closed →
    ∃ k r, a = .success k ∧ s.requests[k]? = some r ∧ r.permit.state = .halfOpen
  single : outstandingProbes s'.requests ≤ 1

/-- A permit from before the latest change to OPEN settles only as a success,
while the breaker is closed and has no failures. -/
def SettlesInEra (s : LocalSys) (a : LocalAct) (_ : LocalSys) : Prop :=
  ∀ k r, a.settled = some k → s.requests[k]? = some r → r.opens < s.opens →
    a = .success k ∧ s.breaker.state = .closed ∧ s.breaker.consecutiveFailures = 0

/-- The fields, unsettled requests and number of changes to OPEN of a breaker
whose requests all settle in their era. -/
structure LocalInv (b : CircuitBreaker) (rs : List LocalRequest) (n : Nat) : Prop where
  old : ∀ r ∈ rs, r.opens ≤ n
  closed : b.state = .closed → outstandingProbes rs = 0 ∧ b.openedAt = none ∧ b.halfOpenProbeInFlight = false
  opened : b.state = .open → outstandingProbes rs = 0 ∧ ∀ r ∈ rs, r.opens < n
  half : b.state = .halfOpen → outstandingProbes rs ≤ 1 ∧
    (b.halfOpenProbeInFlight = false → outstandingProbes rs = 0) ∧
    ∀ r ∈ rs, r.opens = n → r.permit.state = .halfOpen

variable {C} {b : CircuitBreaker} {rs : List LocalRequest} {n k : Nat} {r : LocalRequest}

theorem local_moves {s s' : LocalSys} {a : LocalAct} (h : s.step C a = some s') : LocalMoves C s a s' := by
  cases a with
  | tick dt =>
    simp only [LocalSys.step, Option.ite_none_right_eq_some, Option.some.injEq] at h
    rw [← h.2]
    exact .tick dt
  | readState =>
    simp only [LocalSys.step, Option.some.injEq] at h
    rw [← h]
    exact .advance 0 rfl
  | snapshot lag =>
    simp only [LocalSys.step, Option.ite_none_right_eq_some, Option.some.injEq] at h
    rw [← h.2]
    exact .advance lag rfl
  | allow lag =>
    simp only [LocalSys.step, Option.ite_none_right_eq_some] at h
    obtain ⟨_, h⟩ := h
    rcases CircuitBreaker.allow_cases C s.now (s.now + lag) s.breaker with
      ⟨err, ha⟩ | ⟨hs, ha⟩ | ⟨hs, hf, ha⟩
    · simp only [ha, Option.some.injEq] at h
      rw [← h]
      exact .advance lag rfl
    · simp only [ha, Option.some.injEq] at h
      rw [← h]
      exact .normal lag hs
    · simp only [ha, Option.some.injEq] at h
      rw [← h]
      exact .probe lag hs hf
  | success k =>
    simp only [LocalSys.step, Option.map_eq_some_iff] at h
    obtain ⟨r, hr, h⟩ := h
    rw [← h, CircuitBreaker.recordSuccess_snd]
    exact .success hr
  | failure k =>
    simp only [LocalSys.step, Option.map_eq_some_iff] at h
    obtain ⟨r, hr, h⟩ := h
    rw [← h]
    exact .failure hr

theorem probes_eraseIdx (h : rs[k]? = some r) :
    outstandingProbes (rs.eraseIdx k) + (if r.permit.state = .halfOpen then 1 else 0) = outstandingProbes rs := by
  obtain ⟨hk, rfl⟩ := List.getElem?_eq_some_iff.mp h
  unfold outstandingProbes
  rw [← (List.getElem_cons_eraseIdx_perm hk).countP_eq, List.countP_cons]
  simp

theorem probes_le_one (hi : LocalInv b rs n) : outstandingProbes rs ≤ 1 := by
  cases hs : b.state with
  | closed => rw [(hi.closed hs).1]; exact Nat.zero_le _
  | «open» => rw [(hi.opened hs).1]; exact Nat.zero_le _
  | halfOpen => exact (hi.half hs).1

theorem LocalInv.fresh (hi : LocalInv b rs n) (hr : rs[k]? = some r) (h : ¬ r.opens < n) : r.opens = n :=
  Nat.le_antisymm (hi.old r (List.mem_of_getElem? hr)) (Nat.not_lt.mp h)

theorem LocalInv.fresh_permit (hi : LocalInv b rs n) (hr : rs[k]? = some r) (hfresh : r.opens = n) :
    b.state ≠ .open ∧ (b.state = .halfOpen → r.permit.state = .halfOpen) := by
  have hmem := List.mem_of_getElem? hr
  refine ⟨fun hs => ?_, fun hs => (hi.half hs).2.2 r hmem hfresh⟩
  exact Nat.lt_irrefl n (hfresh ▸ (hi.opened hs).2 r hmem)

/-- With the settled permit goes the only outstanding probe. -/
theorem LocalInv.none_left (hi : LocalInv b rs n) (hr : rs[k]? = some r)
    (hprobe : b.state = .halfOpen → r.permit.state = .halfOpen) : outstandingProbes (rs.eraseIdx k) = 0 := by
  have hcount := probes_eraseIdx hr
  cases hs : b.state with
  | closed => have := (hi.closed hs).1; omega
  | «open» => have := (hi.opened hs).1; omega
  | halfOpen =>
    have := (hi.half hs).1
    rw [if_pos (hprobe hs)] at hcount
    omega

/-! ## Steps that settle nothing -/

theorem localInv_advance (hi : LocalInv b rs n) (now : ℚ) : LocalInv (b.advanceOpenStateIfReady C now) rs n := by
  rcases CircuitBreaker.advance_cases C now b with h | ⟨hs, h⟩
  · rw [h]; exact hi
  · rw [h]
    refine ⟨hi.old, nofun, nofun, fun _ => ?_⟩
    obtain ⟨hnone, hold⟩ := hi.opened hs
    refine ⟨by rw [hnone]; exact Nat.zero_le _, fun _ => hnone, ?_⟩
    intro r hr heq
    exact absurd (hold r hr) (by omega)

theorem localInv_normal (hi : LocalInv b rs n) (hs : b.state = .closed) :
    LocalInv b (⟨{ state := .closed }, n⟩ :: rs) n := by
  refine ⟨?_, fun _ => ?_, fun h => absurd (hs.symm.trans h) nofun, fun h => absurd (hs.symm.trans h) nofun⟩
  · intro r hr
    rcases List.mem_cons.mp hr with rfl | hr
    · exact Nat.le_refl _
    · exact hi.old r hr
  · exact hi.closed hs

theorem localInv_probe (hi : LocalInv b rs n) (hs : b.state = .halfOpen)
    (hf : b.halfOpenProbeInFlight = false) :
    LocalInv { b with halfOpenProbeInFlight := true } (⟨{ state := .halfOpen }, n⟩ :: rs) n := by
  obtain ⟨_, hnone, hfresh⟩ := hi.half hs
  refine ⟨?_, fun h => absurd (hs.symm.trans h) nofun, fun h => absurd (hs.symm.trans h) nofun, fun _ => ?_⟩
  · intro r hr
    rcases List.mem_cons.mp hr with rfl | hr
    · exact Nat.le_refl _
    · exact hi.old r hr
  · refine ⟨?_, nofun, ?_⟩
    · have hone : outstandingProbes (⟨{ state := .halfOpen }, n⟩ :: rs) = outstandingProbes rs + 1 := by
        simp [outstandingProbes]
      rw [hone, hnone hf]
    · intro r hr heq
      rcases List.mem_cons.mp hr with rfl | hr
      · rfl
      · exact hfresh r hr heq

/-! ## Settlements -/

theorem localInv_success (hi : LocalInv b rs n) (hr : rs[k]? = some r)
    (hq : r.opens < n → b.state = .closed ∧ b.consecutiveFailures = 0) :
    LocalInv ⟨.closed, 0, none, false⟩ (rs.eraseIdx k) n := by
  refine ⟨fun r' hr' => hi.old r' (List.mem_of_mem_eraseIdx hr'), fun _ => ⟨?_, rfl, rfl⟩, nofun, nofun⟩
  apply hi.none_left hr
  intro hs
  -- only the probe itself is of this era
  refine (hi.fresh_permit hr (hi.fresh hr fun hlt => ?_)).2 hs
  exact absurd (hs.symm.trans (hq hlt).1) nofun

theorem localInv_failure (hi : LocalInv b rs n) (hr : rs[k]? = some r) (hfresh : r.opens = n) (now : ℚ)
    (permit : Option CircuitPermit) :
    LocalInv (b.recordFailure C now permit).2 (rs.eraseIdx k)
      (opensAfter n b (b.recordFailure C now permit).2) := by
  have hold : ∀ r' ∈ rs.eraseIdx k, r'.opens ≤ n := fun r' h => hi.old r' (List.mem_of_mem_eraseIdx h)
  obtain ⟨hne, hprobe⟩ := hi.fresh_permit hr hfresh
  have hnone := hi.none_left hr hprobe
  unfold opensAfter
  rcases CircuitBreaker.recordFailure_cases C now b permit with ⟨ho, _, _⟩ | ⟨hnh, h⟩
  · rw [if_pos ⟨hne, ho⟩]
    refine ⟨fun r' h => Nat.le_succ_of_le (hold r' h), ?_, fun _ => ⟨hnone, ?_⟩, ?_⟩
    · intro h; rw [ho] at h; cases h
    · exact fun r' h => Nat.lt_succ_of_le (hold r' h)
    · intro h; rw [ho] at h; cases h
  · rw [h, if_neg fun hor => hne hor.2]
    cases hs : b.state with
    | «open» => exact absurd hs hne
    | halfOpen => exact absurd hs hnh
    | closed =>
      exact ⟨hold, fun _ => ⟨hnone, (hi.closed hs).2.1, rfl⟩, nofun, nofun⟩

/-! ## Runs -/

def LocalSys.Inv (s : LocalSys) : Prop := LocalInv s.breaker s.requests s.opens

theorem opensAfter_of_ne {b' : CircuitBreaker} (h : b'.state = .open → b.state = .open) : opensAfter n b b' = n :=
  if_neg fun hor => hor.1 (h hor.2)

theorem advance_open (now : ℚ) (h : (b.advanceOpenStateIfReady C now).state = .open) : b.state = .open := by
  rcases CircuitBreaker.advance_cases C now b with h' | ⟨hs, _⟩
  · rw [h'] at h; exact h
  · exact hs

variable {s s' : LocalSys} {a : LocalAct}

theorem inv_put_advance (hi : s.Inv) (lag : ℚ) : (s.put lag (s.breaker.advanceOpenStateIfReady C s.now)).Inv := by
  unfold LocalSys.Inv LocalSys.put
  simp only [opensAfter_of_ne (advance_open s.now)]
  exact localInv_advance hi s.now

theorem inv_step (hi : s.Inv) (h : s.step C a = some s') (hq : SettlesInEra s a s') : s'.Inv := by
  cases local_moves h with
  | tick dt => exact hi
  | advance lag _ => exact inv_put_advance hi lag
  | normal lag hs =>
    have hn : opensAfter s.opens s.breaker s.breaker = s.opens := opensAfter_of_ne id
    unfold LocalSys.Inv LocalSys.put
    simp only [hn]
    exact localInv_normal hi hs
  | probe lag hs hf =>
    have hn : opensAfter s.opens s.breaker
        { s.breaker.advanceOpenStateIfReady C s.now with halfOpenProbeInFlight := true } = s.opens :=
      opensAfter_of_ne fun ho => advance_open s.now ho
    unfold LocalSys.Inv LocalSys.put
    simp only [hn]
    exact localInv_probe (localInv_advance hi s.now) hs hf
  | success hr =>
    have hn : opensAfter s.opens s.breaker ⟨.closed, 0, none, false⟩ = s.opens := opensAfter_of_ne nofun
    unfold LocalSys.Inv LocalSys.put
    simp only [hn]
    exact localInv_success hi hr fun hlt => (hq _ _ rfl hr hlt).2
  | failure hr =>
    refine localInv_failure hi hr (hi.fresh hr fun hlt => ?_) s.now _
    exact absurd (hq _ _ rfl hr hlt).1 nofun

theorem closes_by_success (h : s.step C a = some s') (hs : s.breaker.state ≠ .closed)
    (hs' : s'.breaker.state = .closed) : ∃ k r, a = .success k ∧ s.requests[k]? = some r := by
  have hadv : (s.breaker.advanceOpenStateIfReady C s.now).state ≠ .closed := by
    rcases CircuitBreaker.advance_cases C s.now s.breaker with h | ⟨_, h⟩
    · rw [h]; exact hs
    · rw [h]; exact nofun
  cases local_moves h with
  | tick dt => exact absurd hs' hs
  | advance lag _ => exact absurd hs' hadv
  | normal lag hc => exact absurd hc hs
  | probe lag _ _ => exact absurd hs' hadv
  | success hr => exact ⟨_, _, rfl, hr⟩
  | @failure k r hr =>
    simp only [LocalSys.put] at hs'
    rcases CircuitBreaker.recordFailure_cases C s.now s.breaker (some r.permit) with ⟨ho, _, _⟩ | ⟨_, hf⟩
    · exact absurd (ho.symm.trans hs') nofun
    · rw [hf] at hs'
      exact absurd hs' hs

theorem isolated_of_inv (hi : s.Inv) (h : s.step C a = some s') (hq : SettlesInEra s a s') :
    LocalIsolated s a s' := by
  refine ⟨?_, ?_, probes_le_one (inv_step hi h hq)⟩
  · intro k r hk hr hlt
    obtain ⟨rfl, hs, hf⟩ := hq k r hk hr hlt
    obtain ⟨_, hopened, hprobe⟩ := hi.closed hs
    simp only [LocalSys.step, hr, Option.map_some, Option.some.injEq] at h
    rw [← h]
    simp only [LocalSys.put, CircuitBreaker.recordSuccess_snd]
    rw [← hs, ← hf, ← hopened, ← hprobe]
  · intro hs hs'
    obtain ⟨k, r, rfl, hr⟩ := closes_by_success h hs hs'
    refine ⟨k, r, rfl, hr, ?_⟩
    obtain ⟨hne, hprobe⟩ := hi.fresh_permit hr (hi.fresh hr fun hlt => hs (hq k r rfl hr hlt).2.1)
    cases hst : s.breaker.state with
    | closed => exact absurd hst hs
    | «open» => exact absurd hst hne
    | halfOpen => exact hprobe hst

theorem inEra_of_isolated (h : s.step C a = some s') (hp : LocalIsolated s a s') : SettlesInEra s a s' := by
  intro k r hk hr hlt
  have hkeep := hp.outdated k r hk hr hlt
  cases a with
  | success j =>
    obtain rfl := Option.some.inj hk
    simp only [LocalSys.step, hr, Option.map_some, Option.some.injEq] at h
    rw [← h] at hkeep
    simp only [LocalSys.put, CircuitBreaker.recordSuccess_snd] at hkeep
    rw [← hkeep]
    exact ⟨rfl, rfl, rfl⟩
  | failure j =>
    obtain rfl := Option.some.inj hk
    simp only [LocalSys.step, hr, Option.map_some, Option.some.injEq] at h
    rw [← h] at hkeep
    simp only [LocalSys.put] at hkeep
    rcases CircuitBreaker.recordFailure_cases C s.now s.breaker (some r.permit) with ⟨ho, _, hc⟩ | ⟨_, hf⟩
    · rw [hkeep] at ho hc
      exact absurd (hc (by rw [ho]; exact nofun)) (Nat.ne_of_lt (Nat.lt_succ_self _))
    · rw [hf] at hkeep
      exact absurd (congrArg CircuitBreaker.consecutiveFailures hkeep) (Nat.succ_ne_self _)
  | _ => cases hk

theorem inv_init (start : ℚ) : (localBreaker C start).init.Inv :=
  ⟨nofun, fun _ => ⟨rfl, rfl, rfl⟩, nofun, nofun⟩

end

section
variable (C : CircuitBreakerConfig)

theorem local_isolated_iff (start : ℚ) (as : List LocalAct) :
    (localBreaker C start).AllSteps LocalIsolated (localBreaker C start).init as ↔
      (localBreaker C start).AllSteps SettlesInEra (localBreaker C start).init as := by
  constructor
  · exact Lts.AllSteps.imp fun s a s' h => inEra_of_isolated h
  · exact Lts.AllSteps.of_invariant (I := LocalSys.Inv) (fun s a s' hi h hq => inv_step hi h hq)
      (fun s a s' hi h hq => isolated_of_inv hi h hq) (inv_init start)

theorem local_not_isolated : ¬ ∀ (C : CircuitBreakerConfig) (start : ℚ) (as : List LocalAct),
    (localBreaker C start).AllSteps LocalIsolated (localBreaker C start).init as := by
  intro h
  have hrun := h tripFirst 0 [.allow 0, .allow 0, .failure 0, .success 0]
  obtain ⟨hlast, _⟩ := (((hrun _ rfl).2 _ rfl).2 _ rfl).2 _ rfl
  have hkeep := hlast.outdated 0 ⟨{ state := .closed }, 0⟩ rfl rfl (by decide)
  exact absurd (congrArg CircuitBreaker.state hkeep) (by decide)

end

end InferenceService
