import InferenceService.Worker.Service

/-!
# What a step of the service can do

Most steps send one command that writes no record, and change at most one
process. The others are a submission, a mark, an attempt and the two halves of
a finalization.
-/

namespace InferenceService

/-! ## Commands that neither submit nor finalize -/

section
variable {V : Type} {J : JsonLib V} {q q' : QueueSys V} {a : QueueAct V}

def QueueAct.isInterim : QueueAct V → Bool
  | enqueue _ _ _ => false
  | finalizeGet _ _ _ => false
  | _ => true

structure Interim (J : JsonLib V) (q q' : QueueSys V) : Prop where
  reachable : (jobQueue J).Reachable q → (jobQueue J).Reachable q'
  jobs : enqueuedJobs q'.log = enqueuedJobs q.log
  leases : leases q.log ⊆ leases q'.log
  finalizing : ∀ c ∈ q'.finalizing, c ∈ q.finalizing
  finalized : ∀ c, .finalized c ∈ q'.log → .finalized c ∈ q.log ∨ c ∈ q.finalizing

theorem Interim.refl (q : QueueSys V) : Interim J q q := ⟨id, rfl, List.Subset.refl _, fun _ h => h, fun _ h => .inl h⟩

theorem interim_step (hq : (jobQueue J).Reachable q) (h : (jobQueue J).step q a = some q') (ha : a.isInterim = true) :
    Interim J q q' := by
  have hreach : (jobQueue J).Reachable q → (jobQueue J).Reachable q' := fun hq => hq.step h
  cases job_moves (reachable_placed hq).intact h with
  | enqueue => cases ha
  | finalizeGet => cases ha
  | marked hc =>
    refine ⟨hreach, rfl, List.subset_cons_of_subset _ (List.Subset.refl _), fun _ h => h, fun c hc => ?_⟩
    rcases List.mem_cons.mp hc with hc | hc
    · cases hc
    · exact .inl hc
  | finalized hc =>
    refine ⟨hreach, rfl, List.Subset.refl _, fun c h => List.mem_of_mem_eraseIdx h, fun c hmem => ?_⟩
    rcases List.mem_cons.mp hmem with hmem | hmem
    · obtain rfl := QueueEvent.finalized.inj hmem
      exact .inr (List.mem_of_getElem? hc)
    · exact .inl hmem
  | finalizeRefused =>
    exact ⟨hreach, rfl, List.Subset.refl _, fun c h => List.mem_of_mem_eraseIdx h, fun _ h => .inl h⟩
  | _ => exact ⟨hreach, rfl, List.Subset.refl _, fun _ h => h, fun _ h => .inl h⟩

/-- The commands that write no record. -/
def QueueAct.isSilent : QueueAct V → Bool
  | enqueue _ _ _ => false
  | markEval _ => false
  | finalizeEval _ => false
  | _ => true

theorem silent_log (hq : (jobQueue J).Reachable q) (h : (jobQueue J).step q a = some q') (ha : a.isSilent = true) :
    q'.log = q.log := by
  cases job_moves (reachable_placed hq).intact h with
  | enqueue => cases ha
  | marked => cases ha
  | finalized => cases ha
  | _ => rfl

theorem log_grows (hq : (jobQueue J).Reachable q) (h : (jobQueue J).step q a = some q') :
    ∃ new, q'.log = new ++ q.log := by
  cases job_moves (reachable_placed hq).intact h with
  | enqueue => exact ⟨[_], rfl⟩
  | marked => exact ⟨[_], rfl⟩
  | finalized => exact ⟨[_], rfl⟩
  | _ => exact ⟨[], rfl⟩

theorem isInterim_of_mayBeLate (h : a.mayBeLate = true) : a.isInterim = true := by
  cases a with
  | enqueue => cases h
  | finalizeGet => cases h
  | _ => rfl

theorem finalizeGet_call {k : Nat} {outcome : JobOutcome V} {nowMs : Int}
    (h : (jobQueue J).step q (.finalizeGet k outcome nowMs) = some q') : ∃ c : FinalizeCall V,
      (leases q.log)[k]? = some c.lease ∧ c.outcome = outcome ∧ encodeOutcome J outcome = .ok () ∧
        q' = { q with finalizing := q.finalizing ++ [c] } := by
  simp only [jobQueue, QueueSys.step, Option.bind_eq_bind] at h
  obtain ⟨lease, hlease, h⟩ := Option.bind_eq_some_iff.mp h
  obtain ⟨c, hc, h⟩ := Option.bind_eq_some_iff.mp h
  unfold finalizeCall at hc
  cases hread : stateForTerminalUpdate lease (q.redis.job lease.message.jobId) with
  | none => simp [hread, Except.toOption] at hc
  | some state =>
    cases henc : encodeOutcome J outcome with
    | error e => simp [hread, henc, Except.map, Except.toOption] at hc
    | ok u =>
      simp only [hread, henc, Except.map, Except.toOption, Option.join_some, Option.some.injEq] at hc
      subst hc
      exact ⟨_, hlease, rfl, rfl, (Option.some.inj h).symm⟩

theorem enqueue_job {jobId : String} {payload : V} {nowMs : Int}
    (h : (jobQueue J).step q (.enqueue jobId payload nowMs) = some q') : ∃ job : Enqueued V,
      job.jobId = jobId ∧ job.payload = payload ∧ q'.log = .enqueued job :: q.log ∧ q'.finalizing = q.finalizing := by
  simp only [jobQueue, QueueSys.step] at h
  obtain ⟨_, h⟩ := Option.ite_none_left_eq_some.mp h
  cases hj : encodeJson J payload with
  | error e => simp [hj] at h
  | ok text =>
    simp only [hj, Option.some.injEq] at h
    subst h
    exact ⟨_, rfl, rfl, rfl, rfl⟩

end

/-! ## What the scripts' steps do -/

section
variable {V : Type}

theorem markRunning_reply (c : MarkCall V) (r : JobRedis V) : (markRunningLua c r).1 = .error noGroup ∨
    (markRunningLua c r).1 = .ok 0 ∨ (markRunningLua c r).1 = .ok 1 := by
  unfold markRunningLua
  split
  · exact .inl rfl
  · exact .inr (.inl rfl)
  · split
    · exact .inr (.inl rfl)
    · exact .inr (.inr rfl)

theorem finalize_reply (c : FinalizeCall V) (r : JobRedis V) : (finalizeLua c r).1 = .error noGroup ∨
    (finalizeLua c r).1 = .ok 0 ∨ (finalizeLua c r).1 = .ok 1 := by
  unfold finalizeLua
  split
  · exact .inl rfl
  · exact .inr (.inl rfl)
  · split
    · exact .inr (.inl rfl)
    · split
      · exact .inr (.inl rfl)
      · split
        · exact .inr (.inl rfl)
        · exact .inr (.inr rfl)

theorem markEval_log {J : JsonLib V} {q q' : QueueSys V} {k : Nat} {c : MarkCall V} (hc : q.marking[k]? = some c)
    (h : (jobQueue J).step q (.markEval k) = some q') :
    q'.log = if (markRunningLua c q.redis).1.toOption = some 1 then .marked c :: q.log else q.log := by
  simp only [jobQueue, QueueSys.step, hc, Option.map_some, Option.some.injEq] at h
  rw [← h]

theorem finalizeEval_log {J : JsonLib V} {q q' : QueueSys V} {k : Nat} {c : FinalizeCall V}
    (hc : q.finalizing[k]? = some c) (h : (jobQueue J).step q (.finalizeEval k) = some q') :
    q'.log = if (finalizeLua c q.redis).1.toOption = some 1 then .finalized c :: q.log else q.log := by
  simp only [jobQueue, QueueSys.step, hc, Option.map_some, Option.some.injEq] at h
  rw [← h]

end

/-! ## The kinds of step -/

/-- No lease is held. -/
def WorkerPhase.Free {V : Type} : WorkerPhase V → Prop
  | .leased _ _ => False
  | .attempted _ _ _ => False
  | _ => True

structure JobMetrics.SameCounts (m m' : JobMetrics) : Prop where
  accepted : m'.accepted = m.accepted
  transitions : m'.transitions = m.transitions
  succeeded : m'.results.succeeded = m.results.succeeded
  failed : m'.results.failed = m.results.failed

theorem JobMetrics.SameCounts.refl (m : JobMetrics) : m.SameCounts m := ⟨rfl, rfl, rfl, rfl⟩

theorem command_eq {W V R : Type} {J : JsonLib V} {s s' : Service W V R} {a : QueueAct V} : s.command J a = some s' ↔
    ∃ queue, (jobQueue J).step s.queue a = some queue ∧ { s with queue } = s' := by
  unfold Service.command
  exact Option.map_eq_some_iff

section
variable {W V R : Type} [DecidableEq W] (J : JsonLib V) (A : RequestApi V R)

inductive ServiceMoves (s : Service W V R) : Service W V R → Prop where
  | environment (queue : QueueSys V) (metrics : JobMetrics) (hq : Interim J s.queue queue)
      (hlog : queue.log = s.queue.log) (hm : s.metrics.SameCounts metrics) :
      ServiceMoves s { s with queue, metrics }
  | process (w : W) (p : Process V) (queue : QueueSys V) (metrics : JobMetrics) (hq : Interim J s.queue queue)
      (hlog : queue.log = s.queue.log) (hp : p.phase.Free) (hm : s.metrics.SameCounts metrics) :
      ServiceMoves s { s.setProcess w p with queue, metrics }
  | late (queue : QueueSys V) (hq : Interim J s.queue queue) (new : List (QueueEvent V))
      (hlog : queue.log = new ++ s.queue.log) : ServiceMoves s { s with queue, unanswered := new ++ s.unanswered }
  | submit (request : R) (job : Enqueued V) (nowMs : Int) (answered : Bool) (queue : QueueSys V)
      (hstep : (jobQueue J).step s.queue (.enqueue job.jobId (A.modelDump request) nowMs) = some queue)
      (hblank : Python.strip (A.prompt request).toList ≠ []) (hpayload : job.payload = A.modelDump request)
      (hlog : queue.log = .enqueued job :: s.queue.log) (hfin : queue.finalizing = s.queue.finalizing) :
      ServiceMoves s { s with
        queue
        submitted := (job.jobId, request) :: s.submitted
        unanswered := if answered then s.unanswered else .enqueued job :: s.unanswered
        metrics := if answered then s.metrics.recordAccepted else s.metrics.recordUnavailable }
  | marked (w : W) (c : MarkCall V) (todo : List Nat) (queue : QueueSys V) (hq : Interim J s.queue queue)
      (hlog : queue.log = .marked c :: s.queue.log) :
      ServiceMoves s { s.setPhase w (.leased c.lease todo) with
        queue, metrics := s.metrics.recordTransition .running }
  | attempted (w : W) (lease : JobLease V) (todo : List Nat) (generateText : R → Except PyException V)
      (hphase : (s.process w).phase = .leased lease todo) :
      ServiceMoves s { s.setPhase w (.attempted lease
          (attempt J A.toRequestModel generateText lease.message.payload) todo) with
        generated := ((A.requested lease.message.payload).map fun request => (request, generateText request)).toList ++
          s.generated }
  | sent (w : W) (lease : JobLease V) (result : Except PyException V) (outcome : JobOutcome V) (todo : List Nat)
      (k : Nat) (nowMs : Int) (queue : QueueSys V) (hphase : (s.process w).phase = .attempted lease result todo)
      (hsettled : settled result = .ok outcome)
      (hk : k = (leases s.queue.log).findIdx fun l => l.deliveryToken = lease.deliveryToken)
      (hstep : (jobQueue J).step s.queue (.finalizeGet k outcome nowMs) = some queue) :
      ServiceMoves s { s.setPhase w (.finalizing lease.deliveryToken todo) with queue }
  | finalized (w : W) (c : FinalizeCall V) (todo : List Nat) (queue : QueueSys V) (hq : Interim J s.queue queue)
      (hlog : queue.log = .finalized c :: s.queue.log) :
      ServiceMoves s { s.setPhase w (.batch todo) with
        queue, metrics := s.metrics.recordOutcome c.outcome.reported }

variable {J A} {s s' : Service W V R} {w : W}

theorem ServiceMoves.raised {queue : QueueSys V} (hq : Interim J s.queue queue) (hlog : queue.log = s.queue.log)
    (e : JobQueueError) : ServiceMoves J A s (Service.raised w e { s with queue }) := by
  cases e with
  | unavailable message => exact .process w ⟨(s.process w).worker, .idle⟩ queue _ hq hlog trivial (.refl _)
  | protocol message => exact .process w ⟨(s.process w).worker, .dead⟩ queue _ hq hlog trivial (.refl _)
  | valueError message => exact .process w ⟨(s.process w).worker, .dead⟩ queue _ hq hlog trivial (.refl _)
  | other typeName => exact .process w ⟨(s.process w).worker, .dead⟩ queue _ hq hlog trivial (.refl _)

theorem ServiceMoves.skipped {queue : QueueSys V} (hq : Interim J s.queue queue) (hlog : queue.log = s.queue.log)
    (todo : List Nat) : ServiceMoves J A s (Service.counted w .skipped todo { s with queue }) :=
  .process w ⟨(s.process w).worker, .batch todo⟩ queue _ hq hlog trivial ⟨rfl, rfl, rfl, rfl⟩

theorem ServiceMoves.reclaimed {queue : QueueSys V} (hq : Interim J s.queue queue) (hlog : queue.log = s.queue.log)
    (old : Nat) (result : Except JobQueueError (StreamId × List (JobMessage V))) :
    ServiceMoves J A s (Service.reclaimed w old result { s with queue }) := by
  cases result with
  | error e => exact .raised hq hlog e
  | ok r => exact .process w _ queue _ hq hlog trivial ⟨rfl, rfl, rfl, rfl⟩

theorem ServiceMoves.phase {queue : QueueSys V} (hq : Interim J s.queue queue) (hlog : queue.log = s.queue.log)
    (phase : WorkerPhase V) (hp : phase.Free) : ServiceMoves J A s (Service.setPhase w phase { s with queue }) :=
  .process w ⟨(s.process w).worker, phase⟩ queue _ hq hlog hp (.refl _)

theorem submit_moves {request : R} {jobId : String} {nowMs : Int} {answered : Bool}
    (h : s.submitJob J A request jobId nowMs answered = some s') : ServiceMoves J A s s' := by
  unfold Service.submitJob at h
  by_cases hblank : Python.strip (A.prompt request).toList = []
  · rw [if_pos hblank] at h
    obtain rfl := Option.some.inj h
    exact .environment _ _ (.refl _) rfl (.refl _)
  · rw [if_neg hblank] at h
    obtain ⟨t, ht, rfl⟩ := Option.map_eq_some_iff.mp h
    obtain ⟨queue, hstep, rfl⟩ := command_eq.mp ht
    obtain ⟨job, rfl, hpayload, hlog, hfin⟩ := enqueue_job hstep
    have hnew : newEvents s.queue.log queue.log = [.enqueued job] := by simp [newEvents, hlog]
    simp only [hnew]
    exact .submit request job nowMs answered queue hstep hblank hpayload hlog hfin

theorem finalizeGet_moves {nowMs : Int} (h : s.finalizeGet J w nowMs = some s') : ServiceMoves J A s s' := by
  unfold Service.finalizeGet at h
  split at h
  · rename_i lease result todo hphase
    split at h
    · obtain rfl := Option.some.inj h
      exact .raised (.refl _) rfl _
    · rename_i outcome hsettled
      split at h
      · obtain rfl := Option.some.inj h
        exact .raised (.refl _) rfl _
      · obtain rfl := Option.some.inj h
        exact .skipped (.refl _) rfl _
      · obtain ⟨t, ht, rfl⟩ := Option.map_eq_some_iff.mp h
        obtain ⟨queue, hstep, rfl⟩ := command_eq.mp ht
        exact .sent w lease result outcome todo _ nowMs queue hphase hsettled rfl hstep
  · cases h

section
variable (hr : (jobQueue J).Reachable s.queue)
include hr

theorem ensureGroup_moves (h : s.ensureGroup J w = some s') : ServiceMoves J A s s' := by
  unfold Service.ensureGroup at h
  split at h
  · obtain rfl := Option.some.inj h
    have hq : Interim J s.queue (ensured J (s.process w).worker s.queue) ∧
        (ensured J (s.process w).worker s.queue).log = s.queue.log := by
      unfold ensured
      by_cases hw : (s.process w).worker.consumerGroupReady = true
      · rw [if_pos hw]
        exact ⟨.refl _, rfl⟩
      · rw [if_neg hw]
        cases hstep : (jobQueue J).step s.queue .ensureConsumerGroup with
        | none => exact ⟨.refl _, rfl⟩
        | some queue => exact ⟨interim_step hr hstep rfl, silent_log hr hstep rfl⟩
    exact .process w _ _ _ hq.1 hq.2 trivial (.refl _)
  · cases h

theorem autoclaim_moves (h : s.autoclaim J w = some s') : ServiceMoves J A s s' := by
  unfold Service.autoclaim at h
  split at h
  · obtain ⟨t, ht, rfl⟩ := Option.map_eq_some_iff.mp h
    obtain ⟨queue, hstep, rfl⟩ := command_eq.mp ht
    exact .reclaimed (interim_step hr hstep rfl) (silent_log hr hstep rfl) _ _
  · cases h

theorem legacyScan_moves (h : s.legacyScan J w = some s') : ServiceMoves J A s s' := by
  unfold Service.legacyScan at h
  split at h
  · obtain ⟨t, ht, rfl⟩ := Option.map_eq_some_iff.mp h
    obtain ⟨queue, hstep, rfl⟩ := command_eq.mp ht
    have hq := interim_step hr hstep rfl
    have hlog := silent_log hr hstep rfl
    split
    · exact .phase hq hlog _ trivial
    · exact .reclaimed hq hlog _ _
    · split
      · exact .reclaimed hq hlog _ _
      · exact .phase hq hlog _ trivial
  · cases h

theorem legacyClaim_moves {k : Nat} (h : s.legacyClaim J w k = some s') : ServiceMoves J A s s' := by
  unfold Service.legacyClaim at h
  split at h
  · obtain ⟨_, h⟩ := Option.ite_none_right_eq_some.mp h
    obtain ⟨t, ht, rfl⟩ := Option.map_eq_some_iff.mp h
    obtain ⟨queue, hstep, rfl⟩ := command_eq.mp ht
    have hq := interim_step hr hstep rfl
    have hlog := silent_log hr hstep rfl
    split
    · exact .phase hq hlog _ trivial
    · exact .reclaimed hq hlog _ _
  · cases h

theorem readMessages_moves (h : s.readMessages J w = some s') : ServiceMoves J A s s' := by
  unfold Service.readMessages at h
  split at h
  · dsimp only at h
    split at h
    · obtain rfl := Option.some.inj h
      exact .phase (.refl _) rfl _ trivial
    · obtain ⟨t, ht, rfl⟩ := Option.map_eq_some_iff.mp h
      obtain ⟨queue, hstep, rfl⟩ := command_eq.mp ht
      have hq := interim_step hr hstep rfl
      have hlog := silent_log hr hstep rfl
      split
      · exact .raised hq hlog _
      · exact .phase hq hlog _ trivial
  · cases h

theorem markGet_moves {token : String} {nowMs : Int} (h : s.markGet J w token nowMs = some s') :
    ServiceMoves J A s s' := by
  unfold Service.markGet at h
  split at h
  · obtain ⟨t, ht, rfl⟩ := Option.map_eq_some_iff.mp h
    obtain ⟨queue, hstep, rfl⟩ := command_eq.mp ht
    exact .phase (interim_step hr hstep rfl) (silent_log hr hstep rfl) _ trivial
  · cases h

theorem markEval_moves (h : s.markEval J w = some s') : ServiceMoves J A s s' := by
  unfold Service.markEval at h
  split at h
  · dsimp only at h
    split at h
    · cases h
    · rename_i c hc
      obtain ⟨t, ht, rfl⟩ := Option.map_eq_some_iff.mp h
      obtain ⟨queue, hstep, rfl⟩ := command_eq.mp ht
      have hq := interim_step hr hstep rfl
      have hlog := markEval_log hc hstep
      rcases markRunning_reply c s.queue.redis with hreply | hreply | hreply
      · rw [hreply] at hlog ⊢
        exact .raised hq hlog _
      · rw [hreply] at hlog ⊢
        exact .skipped hq hlog _
      · rw [hreply] at hlog ⊢
        exact .marked w c _ queue hq hlog
  · cases h

theorem finalizeEval_moves (h : s.finalizeEval J w = some s') : ServiceMoves J A s s' := by
  unfold Service.finalizeEval at h
  split at h
  · dsimp only at h
    split at h
    · cases h
    · rename_i c hc
      obtain ⟨t, ht, rfl⟩ := Option.map_eq_some_iff.mp h
      obtain ⟨queue, hstep, rfl⟩ := command_eq.mp ht
      have hq := interim_step hr hstep rfl
      have hlog := finalizeEval_log hc hstep
      rcases finalize_reply c s.queue.redis with hreply | hreply | hreply
      · rw [hreply] at hlog ⊢
        exact .raised hq hlog _
      · rw [hreply] at hlog ⊢
        exact .skipped hq hlog _
      · rw [hreply] at hlog ⊢
        exact .finalized w c _ queue hq hlog
  · cases h

theorem service_moves {start : W → JobWorker} {a : ServiceAct W V R} (h : (service J A start).step s a = some s') :
    ServiceMoves J A s s' := by
  cases a with
  | tick ms =>
    change s.command J (.tick ms) = some s' at h
    obtain ⟨queue, hstep, rfl⟩ := command_eq.mp h
    exact .environment queue _ (interim_step hr hstep rfl) (silent_log hr hstep rfl) (.refl _)
  | expire jobId =>
    change s.command J (.expire jobId) = some s' at h
    obtain ⟨queue, hstep, rfl⟩ := command_eq.mp h
    exact .environment queue _ (interim_step hr hstep rfl) (silent_log hr hstep rfl) (.refl _)
  | submit request jobId nowMs answered => exact submit_moves h
  | refuse =>
    obtain rfl := Option.some.inj h
    exact .environment _ _ (.refl _) rfl ⟨rfl, rfl, rfl, rfl⟩
  | ensureConsumerGroup w => exact ensureGroup_moves hr h
  | reclaimIdle w => exact autoclaim_moves hr h
  | legacyScan w => exact legacyScan_moves hr h
  | legacyClaim w k => exact legacyClaim_moves hr h
  | readNew w => exact readMessages_moves hr h
  | markGet w token nowMs => exact markGet_moves hr h
  | markEval w => exact markEval_moves hr h
  | generate w generateText =>
    simp only [service, Service.step, Service.generateText] at h
    split at h
    · rename_i lease todo hphase
      obtain rfl := Option.some.inj h
      exact .attempted w lease todo generateText hphase
    · cases h
  | finalizeGet w nowMs => exact finalizeGet_moves h
  | finalizeEval w => exact finalizeEval_moves hr h
  | finish w =>
    simp only [service, Service.step, Service.finish] at h
    split at h
    · obtain rfl := Option.some.inj h
      exact .phase (.refl _) rfl _ trivial
    · cases h
  | fail w =>
    simp only [service, Service.step] at h
    split at h
    · cases h
    · obtain rfl := Option.some.inj h
      exact .phase (.refl _) rfl _ trivial
  | replace w worker =>
    obtain rfl := Option.some.inj h
    exact .process w _ _ _ (.refl _) rfl trivial (.refl _)
  | late a =>
    simp only [service, Service.step] at h
    obtain ⟨ha, h⟩ := Option.ite_none_right_eq_some.mp h
    obtain ⟨t, ht, rfl⟩ := Option.map_eq_some_iff.mp h
    obtain ⟨queue, hstep, rfl⟩ := command_eq.mp ht
    obtain ⟨new, hlog⟩ := log_grows hr hstep
    have hnew : newEvents s.queue.log queue.log = new := by simp [newEvents, hlog]
    simp only [hnew]
    exact .late queue (interim_step hr hstep (isInterim_of_mayBeLate ha)) new hlog

end
end

end InferenceService
