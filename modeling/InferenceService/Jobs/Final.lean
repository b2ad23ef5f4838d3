import InferenceService.Jobs.Fencing

/-!
# Terminal states are final

A job whose finalize script returned 1 has no pending entry, so no script can
write its record again.
-/

namespace InferenceService

/-- The step writes a terminal record of the job. -/
def BecomesTerminal {V : Type} (j : String) (s s' : QueueSys V) : Prop :=
  ∃ st, s'.redis.job j = some st ∧ st.status.Terminal ∧ s.redis.job j ≠ some st

section
variable {V : Type} {J : JsonLib V} {s s' : QueueSys V} {a : QueueAct V} {j : String}

theorem queued_not_terminal (jobId : String) (nowMs : Int) :
    ¬ (queuedState jobId nowMs : JobState V).status.Terminal := by
  intro h
  rcases h with h | h <;> cases h

theorem running_not_terminal (c : MarkCall V) : ¬ c.state.status.Terminal := by
  intro h
  rcases h with h | h <;> cases h

theorem update_cases (job : String → Option (JobState V)) (jobId j : String) (o : Option (JobState V)) :
    (jobId = j ∧ Function.update job jobId o j = o) ∨ (jobId ≠ j ∧ Function.update job jobId o j = job j) := by
  by_cases h : jobId = j
  · subst h
    exact .inl ⟨rfl, Function.update_self _ _ _⟩
  · exact .inr ⟨h, Function.update_of_ne (Ne.symm h) _ _⟩

theorem finalized_of_becomesTerminal (hm : JobMoves J s a s') (h : BecomesTerminal j s s') :
    j ∈ finalizedJobs s'.log := by
  obtain ⟨st, hst, hterm, hne⟩ := h
  cases hm with
  | expire jobId =>
    rcases update_cases s.redis.job jobId j none with ⟨_, h⟩ | ⟨_, h⟩
    · exact absurd (h.symm.trans hst) nofun
    · exact absurd (h.symm.trans hst) hne
  | @enqueue jobId payload payloadJson nowMs =>
    rcases update_cases s.redis.job jobId j (some (queuedState jobId nowMs)) with
      ⟨_, h⟩ | ⟨_, h⟩
    · obtain rfl := Option.some.inj (h.symm.trans hst)
      exact absurd hterm (queued_not_terminal jobId nowMs)
    · exact absurd (h.symm.trans hst) hne
  | @marked k c =>
    rcases update_cases s.redis.job c.message.jobId j (some c.state) with
      ⟨_, h⟩ | ⟨_, h⟩
    · obtain rfl := Option.some.inj (h.symm.trans hst)
      exact absurd hterm (running_not_terminal c)
    · exact absurd (h.symm.trans hst) hne
  | @finalized k c =>
    rcases update_cases s.redis.job c.lease.message.jobId j (some c.state) with
      ⟨rfl, _⟩ | ⟨_, h⟩
    · exact List.mem_cons_self
    · exact absurd (h.symm.trans hst) hne
  | _ => exact absurd hst hne

theorem becomesTerminal_of_finalize {k : Nat} {c : FinalizeCall V} (hc : s.finalizing[k]? = some c)
    (h : (jobQueue J).step s (.finalizeEval k) = some s') (hyes : (finalizeLua c s.redis).1.toOption = some 1) :
    BecomesTerminal c.lease.message.jobId s s' := by
  simp only [jobQueue, QueueSys.step, hc, Option.map_some, Option.some.injEq] at h
  rcases finalize_cases c s.redis with ⟨⟨_, current, hj, ht⟩, hlua⟩ | ⟨_, hno, _⟩
  · rw [← h, hlua]
    refine ⟨c.state, Function.update_self _ _ _, finalized_terminal c, ?_⟩
    intro heq
    obtain rfl := Option.some.inj (hj.symm.trans heq)
    rw [finalized_token] at ht
    cases ht
  · exact absurd hyes hno

theorem finalizedJobs_mono (hm : JobMoves J s a s') (h : j ∈ finalizedJobs s.log) : j ∈ finalizedJobs s'.log := by
  cases hm with
  | finalized => exact List.mem_cons_of_mem _ h
  | _ => exact h

theorem finished_record (hp : Placed J s) (hfin : j ∈ finalizedJobs s.log) (hm : JobMoves J s a s') :
    s'.redis.job j = s.redis.job j ∨ a = .expire j ∧ s'.redis.job j = none := by
  cases hm with
  | expire jobId =>
    rcases update_cases s.redis.job jobId j none with ⟨rfl, h⟩ | ⟨_, h⟩
    · exact .inr ⟨rfl, h⟩
    · exact .inl h
  | enqueue hid hfresh =>
    refine .inl (Function.update_of_ne ?_ _ _)
    intro heq
    exact hfresh (heq ▸ hp.finalized_known j hfin)
  | @marked k c hc howner =>
    refine .inl (Function.update_of_ne ?_ _ _)
    intro heq
    exact hp.unfinished (hp.marking c (List.mem_of_getElem? hc)) howner (heq ▸ hfin)
  | @finalized k c hc hpass =>
    refine .inl (Function.update_of_ne ?_ _ _)
    intro heq
    have hlease := hp.finalizing c (List.mem_of_getElem? hc)
    exact hp.unfinished (hp.leases _ hlease) hpass.1 (heq ▸ hfin)
  | _ => exact .inl rfl

/-! ## The record of a finished job -/

theorem mem_finalizedJobs {log : List (QueueEvent V)} {c : FinalizeCall V} (h : .finalized c ∈ log) :
    c.lease.message.jobId ∈ finalizedJobs log := List.mem_filterMap.mpr ⟨_, h, rfl⟩

/-- A finished job has the record that its finalize script wrote, or none. -/
def Kept (s : QueueSys V) : Prop :=
  ∀ c, .finalized c ∈ s.log → ∀ st, s.redis.job c.lease.message.jobId = some st → st = c.state

theorem finalized_cases (hm : JobMoves J s a s') {c : FinalizeCall V} (h : .finalized c ∈ s'.log) :
    .finalized c ∈ s.log ∨ s'.redis.job c.lease.message.jobId = some c.state := by
  cases hm with
  | enqueue =>
    rcases List.mem_cons.mp h with h | h
    · cases h
    · exact .inl h
  | marked =>
    rcases List.mem_cons.mp h with h | h
    · cases h
    · exact .inl h
  | finalized =>
    rcases List.mem_cons.mp h with h | h
    · cases h
      exact .inr (Function.update_self _ _ _)
    · exact .inl h
  | _ => exact .inl h

theorem kept_step (hp : Placed J s) (hk : Kept s) (hm : JobMoves J s a s') : Kept s' := by
  intro c hc st hst
  rcases finalized_cases hm hc with hc | hnew
  · rcases finished_record hp (mem_finalizedJobs hc) hm with hsame | ⟨_, hnone⟩
    · exact hk c hc st (hsame ▸ hst)
    · rw [hnone] at hst
      cases hst
  · exact Option.some.inj (hst.symm.trans hnew)

theorem reachable_kept (hs : (jobQueue J).Reachable s) : Kept s :=
  hs.invariant (fun _ h => absurd h List.not_mem_nil) fun _ _ _ hu hk h =>
    kept_step (reachable_placed hu) hk (job_moves (reachable_placed hu).intact h)

end

section
variable {V : Type} (J : JsonLib V)

theorem terminal_is_final {s s' : QueueSys V} {a : QueueAct V} {j : String} (hs : (jobQueue J).Reachable s)
    (h : (jobQueue J).step s a = some s') (ht : BecomesTerminal j s s') (as : List (QueueAct V)) (u : QueueSys V)
    (hr : (jobQueue J).runFrom s' as = some u) (b : QueueAct V) (u' : QueueSys V)
    (hb : (jobQueue J).step u b = some u') :
    ¬ BecomesTerminal j u u' ∧ (u'.redis.job j = u.redis.job j ∨ b = .expire j ∧ u'.redis.job j = none) := by
  have hm := job_moves (reachable_placed hs).intact h
  have hu : (jobQueue J).Reachable u := (hs.step h).run hr
  have hfin : j ∈ finalizedJobs u.log := by
    refine Lts.run_preserves (P := fun u => j ∈ finalizedJobs u.log) ?_ as (hs.step h)
      (finalized_of_becomesTerminal hm ht) hr
    intro u b u' hu hfin hb
    exact finalizedJobs_mono (job_moves (reachable_placed hu).intact hb) hfin
  have hrec := finished_record (reachable_placed hu) hfin (job_moves (reachable_placed hu).intact hb)
  refine ⟨?_, hrec⟩
  intro ⟨st, hst, _, hne⟩
  rcases hrec with hsame | ⟨_, hnone⟩
  · exact hne (hsame.symm.trans hst)
  · rw [hnone] at hst; cases hst

theorem terminal_is_final_completed : ∃ s s' : QueueSys Unit, ∃ j, BecomesTerminal j s s' ∧
    ∀ u', (jobQueue emptyDicts).step s' (.expire j) = some u' → ¬ BecomesTerminal j s' u' := by
  obtain ⟨s, c, s', hs, hc, h, hyes⟩ := completing_run
  have ht := becomesTerminal_of_finalize hc h hyes
  exact ⟨s, s', _, ht, fun u' hb => (terminal_is_final emptyDicts ⟨completing, hs⟩ h ht [] s' rfl _ u' hb).1⟩

end

end InferenceService
