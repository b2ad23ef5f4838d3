import InferenceService.Breaker.RedisEra
import InferenceService.Lib.Lts

/-!
# Gateways sharing one Redis circuit breaker

Any number of gateways send the scripts in any order. A permit that Redis has
granted may be settled any number of times, at any later time, or never: this
covers lost calls, lost replies and crashed gateways. The log is a history
that no script reads.
-/

namespace InferenceService

inductive BreakerEvent where
  | granted (permit : CircuitPermit) (atMs : Nat)
  | success (permit : CircuitPermit)
  | failure (permit : CircuitPermit)
deriving DecidableEq, Repr

structure BreakerSys where
  now : Nat
  store : BreakerStore
  tokens : List String
  log : List BreakerEvent
deriving DecidableEq, Repr

inductive BreakerAct where
  | tick (us : Nat)
  | allow (token : String)
  | success (permit : CircuitPermit)
  | failure (permit : CircuitPermit)
deriving DecidableEq, Repr

def BreakerEvent.grant : BreakerEvent → Option (CircuitPermit × Nat)
  | .granted p t => some (p, t)
  | _ => none

def grants (log : List BreakerEvent) : List (CircuitPermit × Nat) := log.filterMap BreakerEvent.grant

namespace BreakerSys

def state (s : BreakerSys) : String := s.store.circuit.hgetState
def version (s : BreakerSys) : Nat := s.store.circuit.hgetVersion
def nowMs (s : BreakerSys) : Nat := InferenceService.nowMs s.now

end BreakerSys

section
variable (C : RedisBreakerConfig)

def grantOf (s : BreakerSys) : BreakerAct → Option CircuitPermit
  | .allow token => (permitFromReply (allowPrimaryLua C s.now token s.store).1).toOption
  | _ => none

def transitionOf (s : BreakerSys) : BreakerAct → Except Unit (Option CircuitTransition)
  | .success p => transitionFromResponse (recordSuccessCall s.now p s.store).1
  | .failure p => transitionFromResponse (recordFailureCall C s.now p s.store).1
  | _ => .ok none

def redisBreaker : Lts BreakerSys BreakerAct where
  init := ⟨0, ⟨{}, none⟩, [], []⟩
  step s a :=
    match a with
    | .tick us => some { s with now := s.now + us }
    | .allow token =>
      if token ∈ s.tokens then none
      else some { s with
        store := (allowPrimaryLua C s.now token s.store).2
        tokens := token :: s.tokens
        log := (grantOf C s (.allow token)).toList.map (.granted · s.nowMs) ++ s.log }
    | .success p =>
      if p ∈ (grants s.log).map Prod.fst then
        some { s with store := (recordSuccessCall s.now p s.store).2, log := .success p :: s.log }
      else none
    | .failure p =>
      if p ∈ (grants s.log).map Prod.fst then
        some { s with store := (recordFailureCall C s.now p s.store).2, log := .failure p :: s.log }
      else none

theorem mem_grants {log : List BreakerEvent} {p : CircuitPermit} {t : Nat} :
    (p, t) ∈ grants log ↔ .granted p t ∈ log := by
  unfold grants
  rw [List.mem_filterMap]
  constructor
  · rintro ⟨ev, hev, h⟩
    cases ev with
    | granted p' t' => simp only [BreakerEvent.grant, Option.some.injEq, Prod.mk.injEq] at h; rw [← h.1, ← h.2]; exact hev
    | success _ => cases h
    | failure _ => cases h
  · intro h; exact ⟨_, h, rfl⟩

/-! ## The kinds of step -/

/-- What one step can do while the store holds the era `e`: the new state, the
new store apart, the new era, and what the caller is told. -/
inductive Moves (s : BreakerSys) (e : Era String) : BreakerAct → BreakerSys → Era String → Prop where
  | tick (us : Nat) : Moves s e (.tick us) { s with now := s.now + us } e
  | refused {token : String} (hfresh : token ∉ s.tokens) (hc : e.phase.state ≠ .closed)
      (ht : s.nowMs < e.gate C.policy) (hr : grantOf C s (.allow token) = none) :
      Moves s e (.allow token) { s with tokens := token :: s.tokens } e
  | normal {token : String} {f : Nat} (hfresh : token ∉ s.tokens) (hp : e.phase = .closed f)
      (hr : grantOf C s (.allow token) = some (permitOf (.normal e.version))) :
      Moves s e (.allow token)
        { s with tokens := token :: s.tokens, log := .granted (permitOf (.normal e.version)) s.nowMs :: s.log } e
  | probe {token : String} (store : BreakerStore) (hfresh : token ∉ s.tokens) (hc : e.phase.state ≠ .closed)
      (ht : e.gate C.policy ≤ s.nowMs)
      (hr : grantOf C s (.allow token) = some (permitOf (.probe (e.version + 1) token))) :
      Moves s e (.allow token)
        { s with store, tokens := token :: s.tokens,
                 log := .granted (permitOf (.probe (e.version + 1) token)) s.nowMs :: s.log }
        ⟨e.version + 1, .probing token s.nowMs⟩
  | staleSuccess {p : CircuitPermit} {t : Nat} (hg : .granted p t ∈ s.log) (hs : ¬ s.store.Accepts s.now p)
      (hr : transitionOf C s (.success p) = .ok none) :
      Moves s e (.success p) { s with log := .success p :: s.log } e
  | success {p : CircuitPermit} {q : Pass String} {t : Nat} (store : BreakerStore) (hg : .granted p t ∈ s.log)
      (hq : p.pass = some q) (hc : e.Current C.policy s.nowMs q)
      (hr : transitionOf C s (.success p) = .ok (e.succeed q).1) :
      Moves s e (.success p) { s with store, log := .success p :: s.log } (e.succeed q).2
  | staleFailure {p : CircuitPermit} {t : Nat} (hg : .granted p t ∈ s.log) (hs : ¬ s.store.Accepts s.now p)
      (hr : transitionOf C s (.failure p) = .ok none) :
      Moves s e (.failure p) { s with log := .failure p :: s.log } e
  | failure {p : CircuitPermit} {q : Pass String} {t : Nat} (store : BreakerStore) (hg : .granted p t ∈ s.log)
      (hq : p.pass = some q) (hc : e.Current C.policy s.nowMs q)
      (hr : transitionOf C s (.failure p) = .ok (e.fail C.policy s.nowMs q).1) :
      Moves s e (.failure p) { s with store, log := .failure p :: s.log } (e.fail C.policy s.nowMs q).2

variable {C} {s s' : BreakerSys} {e e' : Era String} {a : BreakerAct}

theorem granted_of_fst {p : CircuitPermit} (h : p ∈ (grants s.log).map Prod.fst) :
    ∃ t, .granted p t ∈ s.log := by
  obtain ⟨⟨p', t⟩, hm, rfl⟩ := List.mem_map.mp h
  exact ⟨t, mem_grants.mp hm⟩

theorem allow_moves (hh : s.store.Holds C e) {token : String} (hfresh : token ∉ s.tokens) :
    ∃ e', (allowPrimaryLua C s.now token s.store).2.Holds C e' ∧ Moves C s e (.allow token)
      { s with
        store := (allowPrimaryLua C s.now token s.store).2
        tokens := token :: s.tokens
        log := (grantOf C s (.allow token)).toList.map (.granted · s.nowMs) ++ s.log } e' := by
  obtain ⟨hreply, hhold⟩ := allow_refines s.now token hh
  rcases Era.acquire_cases C.policy (nowMs s.now) token e with ⟨f, hp, ha⟩ | ⟨hc, ht, ha⟩ | ⟨hc, ht, ha⟩
  · have hst : (allowPrimaryLua C s.now token s.store).2 = s.store := by rw [allow_closed hh hp]
    rw [ha] at hreply
    have hr : grantOf C s (.allow token) = some (permitOf (.normal e.version)) := by
      simp only [grantOf, hreply]; rfl
    refine ⟨e, by rw [hst]; exact hh, ?_⟩
    rw [hr, hst]
    exact .normal hfresh hp hr
  · rw [ha] at hreply hhold
    have hst : (allowPrimaryLua C s.now token s.store).2 = s.store := by
      cases hp : e.phase with
      | closed f => simp [hp, Phase.state] at hc
      | opened since => rw [allow_opened hh hp (by simpa [Era.gate, hp] using ht)]
      | probing tok since => rw [allow_probing hh hp (by simpa [Era.gate, hp] using ht)]
    have hr : grantOf C s (.allow token) = none := by simp only [grantOf, hreply]; rfl
    refine ⟨e, hhold, ?_⟩
    rw [hr, hst]
    exact .refused hfresh hc ht hr
  · rw [ha] at hreply hhold
    have hr : grantOf C s (.allow token) = some (permitOf (.probe (e.version + 1) token)) := by
      simp only [grantOf, hreply]; rfl
    refine ⟨_, hhold, ?_⟩
    rw [hr]
    exact .probe _ hfresh hc ht hr

theorem success_moves (hh : s.store.Holds C e) {p : CircuitPermit} {t : Nat} (hg : .granted p t ∈ s.log) :
    ∃ e', (recordSuccessCall s.now p s.store).2.Holds C e' ∧ Moves C s e (.success p)
      { s with store := (recordSuccessCall s.now p s.store).2, log := .success p :: s.log } e' := by
  by_cases hacc : s.store.Accepts s.now p
  · obtain ⟨q, hq, hc⟩ := (accepts_iff hh).mp hacc
    obtain ⟨hr, hh'⟩ := success_refines hh hq hc
    exact ⟨_, hh', .success _ hg hq hc hr⟩
  · have hr : transitionOf C s (.success p) = .ok none := by
      simp only [transitionOf, success_rejected hacc]; rfl
    rw [success_rejected hacc]
    exact ⟨e, hh, .staleSuccess hg hacc hr⟩

theorem failure_moves (hh : s.store.Holds C e) {p : CircuitPermit} {t : Nat} (hg : .granted p t ∈ s.log) :
    ∃ e', (recordFailureCall C s.now p s.store).2.Holds C e' ∧ Moves C s e (.failure p)
      { s with store := (recordFailureCall C s.now p s.store).2, log := .failure p :: s.log } e' := by
  by_cases hacc : s.store.Accepts s.now p
  · obtain ⟨q, hq, hc⟩ := (accepts_iff hh).mp hacc
    obtain ⟨hr, hh'⟩ := failure_refines hh hq hc
    exact ⟨_, hh', .failure _ hg hq hc hr⟩
  · have hr : transitionOf C s (.failure p) = .ok none := by
      simp only [transitionOf, failure_rejected hacc]; rfl
    rw [failure_rejected hacc]
    exact ⟨e, hh, .staleFailure hg hacc hr⟩

theorem step_moves (hh : s.store.Holds C e) (h : (redisBreaker C).step s a = some s') :
    ∃ e', s'.store.Holds C e' ∧ Moves C s e a s' e' := by
  cases a with
  | tick us =>
    obtain rfl := Option.some.inj h
    exact ⟨e, hh, .tick us⟩
  | allow token =>
    simp only [redisBreaker, Option.ite_none_left_eq_some, Option.some.injEq] at h
    obtain ⟨hfresh, rfl⟩ := h
    exact allow_moves hh hfresh
  | success p =>
    simp only [redisBreaker, Option.ite_none_right_eq_some, Option.some.injEq] at h
    obtain ⟨hg, rfl⟩ := h
    obtain ⟨t, hg⟩ := granted_of_fst hg
    exact success_moves hh hg
  | failure p =>
    simp only [redisBreaker, Option.ite_none_right_eq_some, Option.some.injEq] at h
    obtain ⟨hg, rfl⟩ := h
    obtain ⟨t, hg⟩ := granted_of_fst hg
    exact failure_moves hh hg

/-! ## Grants and the era -/

def Pass.version {τ : Type} : Pass τ → Nat
  | .normal v => v
  | .probe v _ => v

def Era.since {τ : Type} (e : Era τ) : Nat :=
  match e.phase with
  | .closed _ => 0
  | .opened since => since
  | .probing _ since => since

def Fits (q : Pass String) (t : Nat) : Phase String → Prop
  | .closed _ => ∃ v, q = .normal v
  | .opened _ => False
  | .probing token since => ∃ v, q = .probe v token ∧ t = since

/-- Every grant in the log is of the present era or of an earlier version. -/
structure Linked (s : BreakerSys) (e : Era String) : Prop where
  since_le : e.since ≤ s.nowMs
  granted : ∀ p t, .granted p t ∈ s.log → ∃ q, p = permitOf q ∧ t ≤ s.nowMs ∧ q.version ≤ e.version ∧
    (q.version = e.version → Fits q t e.phase)
  settled : ∀ p, .success p ∈ s.log ∨ .failure p ∈ s.log → ∃ t, .granted p t ∈ s.log

theorem succeed_era {q : Pass String} {t : Nat} (hc : e.Current C.policy t q) :
    ((e.succeed q).2.version = e.version ∧ ∀ q' t', Fits q' t' e.phase → Fits q' t' (e.succeed q).2.phase) ∨
      (e.succeed q).2.version = e.version + 1 := by
  cases q with
  | probe v tok => exact .inr rfl
  | normal v =>
    obtain ⟨f, hp⟩ := Era.closed_of_current hc
    exact .inl ⟨rfl, fun q' t' hf => by rw [hp] at hf; exact hf⟩

theorem fail_era {q : Pass String} {t : Nat} (hc : e.Current C.policy t q) :
    ((e.fail C.policy t q).2.version = e.version ∧
        ∀ q' t', Fits q' t' e.phase → Fits q' t' (e.fail C.policy t q).2.phase) ∨
      (e.fail C.policy t q).2.version = e.version + 1 := by
  rcases Era.fail_cases C.policy t e q with ⟨v, rfl, _, hf⟩ | ⟨v, rfl, _, hf⟩ | ⟨v, tok, rfl, hf⟩
  · rw [hf]; exact .inr rfl
  · obtain ⟨f, hp⟩ := Era.closed_of_current hc
    rw [hf]
    exact .inl ⟨rfl, fun q' t' hf' => by rw [hp] at hf'; exact hf'⟩
  · exact .inr rfl

theorem Moves.era (hm : Moves C s e a s' e') :
    (e'.version = e.version ∧ ∀ q t, Fits q t e.phase → Fits q t e'.phase) ∨ e'.version = e.version + 1 := by
  cases hm with
  | success _ _ _ hc _ => exact succeed_era hc
  | failure _ _ _ hc _ => exact fail_era hc
  | probe => exact .inr rfl
  | _ => exact .inl ⟨rfl, fun _ _ h => h⟩

theorem Moves.now_le (hm : Moves C s e a s' e') : s.nowMs ≤ s'.nowMs := by
  cases hm with
  | tick us => exact nowMs_mono (Nat.le_add_right _ _)
  | _ => exact Nat.le_refl _

theorem Moves.since_le (hm : Moves C s e a s' e') (h : e.since ≤ s.nowMs) : e'.since ≤ s'.nowMs := by
  cases hm with
  | tick us => exact Nat.le_trans h (nowMs_mono (Nat.le_add_right _ _))
  | probe => exact Nat.le_refl _
  | @success p q => cases q <;> exact Nat.zero_le _
  | @failure p q =>
    rcases Era.fail_cases C.policy s.nowMs e q with ⟨v, _, _, hf⟩ | ⟨v, _, _, hf⟩ | ⟨v, tok, _, hf⟩ <;> rw [hf]
    · exact Nat.le_refl _
    · exact Nat.zero_le _
    · exact Nat.le_refl _
  | _ => exact h

theorem Moves.log_new (hm : Moves C s e a s' e') {ev : BreakerEvent} (h : ev ∈ s'.log) :
    ev ∈ s.log ∨
      (∃ q, ev = .granted (permitOf q) s.nowMs ∧ q.version = e'.version ∧ Fits q s.nowMs e'.phase) ∨
      (∃ p t, (ev = .success p ∨ ev = .failure p) ∧ .granted p t ∈ s.log) := by
  cases hm with
  | tick us => exact .inl h
  | refused => exact .inl h
  | normal _ hp _ =>
    rcases List.mem_cons.mp h with rfl | h
    · exact .inr (.inl ⟨_, rfl, rfl, by rw [hp]; exact ⟨_, rfl⟩⟩)
    · exact .inl h
  | probe =>
    rcases List.mem_cons.mp h with rfl | h
    · exact .inr (.inl ⟨_, rfl, rfl, _, rfl, rfl⟩)
    · exact .inl h
  | staleSuccess hg _ _ => exact (List.mem_cons.mp h).elim (fun heq => .inr (.inr ⟨_, _, .inl heq, hg⟩)) .inl
  | success _ hg _ _ _ => exact (List.mem_cons.mp h).elim (fun heq => .inr (.inr ⟨_, _, .inl heq, hg⟩)) .inl
  | staleFailure hg _ _ => exact (List.mem_cons.mp h).elim (fun heq => .inr (.inr ⟨_, _, .inr heq, hg⟩)) .inl
  | failure _ hg _ _ _ => exact (List.mem_cons.mp h).elim (fun heq => .inr (.inr ⟨_, _, .inr heq, hg⟩)) .inl

theorem Moves.log_mono (hm : Moves C s e a s' e') {ev : BreakerEvent} (h : ev ∈ s.log) : ev ∈ s'.log := by
  cases hm with
  | tick us => exact h
  | refused => exact h
  | _ => exact List.mem_cons_of_mem _ h

theorem linked_step (hl : Linked s e) (hm : Moves C s e a s' e') : Linked s' e' where
  since_le := hm.since_le hl.since_le
  granted := by
    intro p t h
    rcases hm.log_new h with h | ⟨q, heq, hv, hf⟩ | ⟨_, _, heq | heq, _⟩
    · obtain ⟨q, rfl, ht, hle, hf⟩ := hl.granted p t h
      refine ⟨q, rfl, Nat.le_trans ht hm.now_le, ?_⟩
      rcases hm.era with ⟨hv, hfit⟩ | hv
      · exact ⟨hv ▸ hle, fun heq => hfit q t (hf (hv ▸ heq))⟩
      · exact ⟨by omega, fun heq => by omega⟩
    · obtain ⟨rfl, rfl⟩ := BreakerEvent.granted.inj heq
      exact ⟨q, rfl, hm.now_le, Nat.le_of_eq hv, fun _ => hf⟩
    · cases heq
    · cases heq
  settled := by
    intro p h
    have key : ∀ ev, ev ∈ s'.log → ev = .success p ∨ ev = .failure p →
        ∃ t, .granted p t ∈ s'.log := by
      intro ev hev hp
      rcases hm.log_new hev with h | ⟨q, heq, _⟩ | ⟨p', t, heq, hg⟩
      · have hold : .success p ∈ s.log ∨ .failure p ∈ s.log := by
          rcases hp with rfl | rfl
          · exact .inl h
          · exact .inr h
        obtain ⟨t, h⟩ := hl.settled p hold
        exact ⟨t, hm.log_mono h⟩
      · rcases hp with rfl | rfl <;> cases heq
      · have : p' = p := by
          rcases hp with rfl | rfl <;> rcases heq with heq | heq <;> cases heq <;> rfl
        exact ⟨t, hm.log_mono (this ▸ hg)⟩
    exact h.elim (fun h => key _ h (.inl rfl)) fun h => key _ h (.inr rfl)

theorem linked_init : Linked (redisBreaker C).init Era.initial where
  since_le := Nat.zero_le _
  granted := by intro p t h; cases h
  settled := by intro p h; rcases h with h | h <;> cases h

/-- The invariant rule of the shared breaker: what the moves of an era
preserve holds along a run, for the eras that the stores hold. -/
theorem run_era {I : BreakerSys → Era String → Prop}
    (hI : ∀ s e a s' e', s.store.Holds C e → Linked s e → I s e → Moves C s e a s' e' → I s' e')
    (hs : (redisBreaker C).Reachable s) {as : List BreakerAct} (hr : (redisBreaker C).runFrom s as = some s')
    (h : ∃ e, s.store.Holds C e ∧ Linked s e ∧ I s e) : ∃ e, s'.store.Holds C e ∧ Linked s' e ∧ I s' e := by
  refine Lts.run_preserves (P := fun s => ∃ e, s.store.Holds C e ∧ Linked s e ∧ I s e) ?_ as hs h hr
  intro s a s' _ ⟨e, hh, hl, hi⟩ h
  obtain ⟨e', hh', hm⟩ := step_moves hh h
  exact ⟨e', hh', linked_step hl hm, hI s e a s' e' hh hl hi hm⟩

theorem reachable_era {I : BreakerSys → Era String → Prop} (h₀ : I (redisBreaker C).init Era.initial)
    (hI : ∀ s e a s' e', s.store.Holds C e → Linked s e → I s e → Moves C s e a s' e' → I s' e')
    (hs : (redisBreaker C).Reachable s) : ∃ e, s.store.Holds C e ∧ Linked s e ∧ I s e := by
  obtain ⟨as, h⟩ := hs
  exact run_era hI (redisBreaker C).reachable_init h ⟨Era.initial, empty_holds C, linked_init, h₀⟩

theorem reachable_linked (hs : (redisBreaker C).Reachable s) : ∃ e, s.store.Holds C e ∧ Linked s e := by
  obtain ⟨e, hh, hl, _⟩ := reachable_era (I := fun _ _ => True) trivial (fun _ _ _ _ _ _ _ _ _ => trivial) hs
  exact ⟨e, hh, hl⟩

end

/-! ## A run of the small instance -/

def firstPermit : CircuitPermit := permitOf (.normal 0)

def firstGranted : BreakerSys := ⟨0, ⟨{}, none⟩, ["a"], [.granted firstPermit 0]⟩

theorem firstGranted_reachable : (redisBreaker quickTrip).Reachable firstGranted := ⟨[.allow "a"], by decide⟩

def tripped : BreakerSys :=
  ⟨0, ⟨⟨some "open", some 1, some 1, some 0⟩, none⟩, ["a"], [.failure firstPermit, .granted firstPermit 0]⟩

theorem tripped_step : (redisBreaker quickTrip).step firstGranted (.failure firstPermit) = some tripped := by
  decide

def probed : BreakerSys where
  now := 1000000
  store := ⟨⟨some "half_open", some 2, some 0, some 0⟩, some ⟨"b", 1500⟩⟩
  tokens := ["b", "a"]
  log := [.granted (permitOf (.probe 2 "b")) 1000, .failure firstPermit, .granted firstPermit 0]

theorem probed_reachable : (redisBreaker quickTrip).Reachable probed :=
  ⟨[.allow "a", .failure firstPermit, .tick 1000000, .allow "b"], by decide⟩

end InferenceService
