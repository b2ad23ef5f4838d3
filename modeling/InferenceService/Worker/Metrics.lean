import InferenceService.Worker.ServiceSteps

/-!
# The counters of the job queue

Each counted transition is one write of a record, and each write is counted or
its reply was lost. As no job is finished twice, none is counted twice.
-/

namespace InferenceService

section
variable {V : Type}

def QueueEvent.wrote (status : JobStatus) (ev : QueueEvent V) : Bool := ev.state.status = status

instance (status : JobStatus) : Decidable status.Terminal := inferInstanceAs (Decidable (_ ∨ _))

/-- How many records have been written with the status. -/
def written (status : JobStatus) (log : List (QueueEvent V)) : Nat := log.countP (QueueEvent.wrote status)

theorem written_cons (status : JobStatus) (ev : QueueEvent V) (log : List (QueueEvent V)) :
    written status (ev :: log) = written status log + if ev.state.status = status then 1 else 0 := by
  unfold written QueueEvent.wrote
  rw [List.countP_cons]
  simp only [decide_eq_true_eq]

theorem written_append (status : JobStatus) (new log : List (QueueEvent V)) :
    written status (new ++ log) = written status new + written status log := List.countP_append

theorem JobOutcome.reported_status (c : FinalizeCall V) : c.state.status =
    match c.outcome.reported with
    | .succeeded => .succeeded
    | .failed => .failed
    | .skipped => c.state.status := by
  unfold FinalizeCall.state JobOutcome.reported
  cases c.outcome <;> rfl

theorem written_finished (log : List (QueueEvent V)) :
    written .succeeded log + written .failed log = (finalizedJobs log).length := by
  induction log with
  | nil => rfl
  | cons ev log ih =>
    have hlen : (finalizedJobs (ev :: log)).length = (finalizedJobs log).length + ev.outcomeOf.toList.length := by
      cases ev <;> rfl
    rw [written_cons, written_cons, hlen]
    cases ev with
    | enqueued q => simpa [QueueEvent.state, queuedState, QueueEvent.outcomeOf] using ih
    | marked c => simpa [QueueEvent.state, MarkCall.state, QueueEvent.outcomeOf] using ih
    | finalized c =>
      have hone : (QueueEvent.finalized c).outcomeOf.toList.length = 1 := rfl
      rw [hone, ← ih]
      rcases finalized_terminal c with h | h
      · simp only [QueueEvent.state, h, if_true, reduceCtorEq, if_false]
        omega
      · simp only [QueueEvent.state, h, if_true, reduceCtorEq, if_false]
        omega

/-- The writes that finish a job are those of its finalize scripts. -/
theorem finishes_once {log : List (QueueEvent V)} (h : (finalizedJobs log).Nodup) (j : String) :
    (log.countP fun ev => ev.jobId = j ∧ ev.state.status.Terminal) ≤ 1 := by
  have hcount : (log.countP fun ev => ev.jobId = j ∧ ev.state.status.Terminal) = (finalizedJobs log).count j := by
    clear h
    induction log with
    | nil => rfl
    | cons ev log ih =>
      rw [List.countP_cons, ih]
      cases ev with
      | enqueued q =>
        have hno : ¬ (QueueEvent.enqueued q).state.status.Terminal := queued_not_terminal _ _
        rw [if_neg (by simp [hno])]
        rfl
      | marked c =>
        have hno : ¬ (QueueEvent.marked c).state.status.Terminal := running_not_terminal c
        rw [if_neg (by simp [hno])]
        rfl
      | finalized c =>
        have hyes : (QueueEvent.finalized c).state.status.Terminal := finalized_terminal c
        have hcons : finalizedJobs (.finalized c :: log) = c.lease.message.jobId :: finalizedJobs log := rfl
        simp [hcons, List.count_cons, QueueEvent.jobId, hyes]
  rw [hcount]
  exact List.nodup_iff_count_le_one.mp h j

end

theorem recordTransition_transitions (m : JobMetrics) (status status' : JobStatus) :
    (m.recordTransition status).transitions status' = m.transitions status' + if status = status' then 1 else 0 := by
  unfold JobMetrics.recordTransition
  by_cases h : status = status'
  · subst h
    simp
  · simp [h, Function.update_of_ne (Ne.symm h)]

section
variable {W V R : Type} {s : Service W V R}

/-- A counted transition is a write, and a write that is not counted is one
whose reply was lost. -/
structure Ledger (s : Service W V R) : Prop where
  exact : ∀ status, s.metrics.transitions status + written status s.unanswered = written status s.queue.log
  accepted : s.metrics.accepted = s.metrics.transitions .queued
  succeeded : s.metrics.results.succeeded = s.metrics.transitions .succeeded
  failed : s.metrics.results.failed = s.metrics.transitions .failed
  unanswered : s.unanswered.Sublist s.queue.log

theorem Ledger.silent (h : Ledger s) {t : Service W V R} (hlog : t.queue.log = s.queue.log)
    (hun : t.unanswered = s.unanswered) (hm : s.metrics.SameCounts t.metrics) : Ledger t where
  exact status := by
    rw [hm.transitions, hun, hlog]
    exact h.exact status
  accepted := by
    rw [hm.accepted, hm.transitions]
    exact h.accepted
  succeeded := by
    rw [hm.succeeded, hm.transitions]
    exact h.succeeded
  failed := by
    rw [hm.failed, hm.transitions]
    exact h.failed
  unanswered := by
    rw [hun, hlog]
    exact h.unanswered

/-- A write whose reply is read, and counted. -/
theorem Ledger.answered (h : Ledger s) {t : Service W V R} {ev : QueueEvent V} (hlog : t.queue.log = ev :: s.queue.log)
    (hun : t.unanswered = s.unanswered)
    (ht : t.metrics.transitions = (s.metrics.recordTransition ev.state.status).transitions) (status : JobStatus) :
    t.metrics.transitions status + written status t.unanswered = written status t.queue.log := by
  have := h.exact status
  rw [ht, recordTransition_transitions, hun, hlog, written_cons]
  omega

theorem Ledger.kept (h : Ledger s) {t : Service W V R} {ev : QueueEvent V} (hlog : t.queue.log = ev :: s.queue.log)
    (hun : t.unanswered = s.unanswered) : t.unanswered.Sublist t.queue.log := by
  rw [hun, hlog]
  exact h.unanswered.cons ev

theorem ledger_submit (h : Ledger s) {t : Service W V R} {job : Enqueued V} {answered : Bool}
    (hlog : t.queue.log = .enqueued job :: s.queue.log)
    (hun : t.unanswered = if answered then s.unanswered else .enqueued job :: s.unanswered)
    (hm : t.metrics = if answered then s.metrics.recordAccepted else s.metrics.recordUnavailable) : Ledger t := by
  cases answered with
  | true =>
    rw [if_pos rfl] at hun hm
    have hqueued : t.metrics.transitions = (s.metrics.recordTransition .queued).transitions := by rw [hm]; rfl
    have hone : ∀ status, t.metrics.transitions status =
        s.metrics.transitions status + if JobStatus.queued = status then 1 else 0 := by
      intro status
      rw [hqueued, recordTransition_transitions]
    refine ⟨h.answered hlog hun hqueued, ?_, ?_, ?_, h.kept hlog hun⟩
    · rw [hone, if_pos rfl, ← h.accepted, hm]
      rfl
    · rw [hone, if_neg (by simp), Nat.add_zero, ← h.succeeded, hm]
      rfl
    · rw [hone, if_neg (by simp), Nat.add_zero, ← h.failed, hm]
      rfl
  | false =>
    rw [if_neg (by decide)] at hun hm
    refine ⟨fun status => ?_, ?_, ?_, ?_, ?_⟩
    · have := h.exact status
      have htrans : t.metrics.transitions status = s.metrics.transitions status := by rw [hm]; rfl
      rw [htrans, hun, hlog, written_cons, written_cons]
      omega
    · rw [hm]
      exact h.accepted
    · rw [hm]
      exact h.succeeded
    · rw [hm]
      exact h.failed
    · rw [hun, hlog]
      exact h.unanswered.cons_cons _

theorem ledger_finalized (h : Ledger s) {t : Service W V R} {c : FinalizeCall V}
    (hlog : t.queue.log = .finalized c :: s.queue.log) (hun : t.unanswered = s.unanswered)
    (hm : t.metrics = s.metrics.recordOutcome c.outcome.reported) : Ledger t := by
  have hstatus := JobOutcome.reported_status c
  have hone : ∀ status, t.metrics.transitions = (s.metrics.recordTransition status).transitions →
      ∀ status', t.metrics.transitions status' = s.metrics.transitions status' + if status = status' then 1 else 0 := by
    intro status heq status'
    rw [heq, recordTransition_transitions]
  cases ho : c.outcome with
  | complete result =>
    rw [ho] at hm hstatus
    have hs : t.metrics.transitions = (s.metrics.recordTransition .succeeded).transitions := by rw [hm]; rfl
    refine ⟨h.answered hlog hun (by rw [hs, QueueEvent.state, hstatus]; rfl), ?_, ?_, ?_, h.kept hlog hun⟩
    · rw [hone _ hs, if_neg (by simp), Nat.add_zero, ← h.accepted, hm]
      rfl
    · rw [hone _ hs, if_pos rfl, ← h.succeeded, hm]
      rfl
    · rw [hone _ hs, if_neg (by simp), Nat.add_zero, ← h.failed, hm]
      rfl
  | fail errorType errorMessage =>
    rw [ho] at hm hstatus
    have hs : t.metrics.transitions = (s.metrics.recordTransition .failed).transitions := by rw [hm]; rfl
    refine ⟨h.answered hlog hun (by rw [hs, QueueEvent.state, hstatus]; rfl), ?_, ?_, ?_, h.kept hlog hun⟩
    · rw [hone _ hs, if_neg (by simp), Nat.add_zero, ← h.accepted, hm]
      rfl
    · rw [hone _ hs, if_neg (by simp), Nat.add_zero, ← h.succeeded, hm]
      rfl
    · rw [hone _ hs, if_pos rfl, ← h.failed, hm]
      rfl

end

section
variable {W V R : Type} [DecidableEq W] {J : JsonLib V} {A : RequestApi V R} {start : W → JobWorker}
  {s s' : Service W V R}

theorem ledger_step (h : Ledger s) (hm : ServiceMoves J A s s') : Ledger s' := by
  cases hm with
  | environment queue metrics _ hlog hsame => exact h.silent hlog rfl hsame
  | process w p queue metrics _ hlog _ hsame => exact h.silent hlog rfl hsame
  | late queue _ new hlog =>
    refine ⟨fun status => ?_, h.accepted, h.succeeded, h.failed, ?_⟩
    · have := h.exact status
      simp only [hlog, written_append]
      omega
    · rw [hlog]
      exact h.unanswered.append_left new
  | submit request job nowMs answered queue _ _ _ hlog _ => exact ledger_submit h hlog rfl rfl
  | marked w c todo queue _ hlog =>
    have hone : ∀ status, (s.metrics.recordTransition .running).transitions status =
        s.metrics.transitions status + if JobStatus.running = status then 1 else 0 :=
      recordTransition_transitions s.metrics .running
    refine ⟨h.answered hlog rfl rfl, ?_, ?_, ?_, h.kept hlog rfl⟩
    · exact h.accepted.trans ((hone .queued).trans (by simp)).symm
    · exact h.succeeded.trans ((hone .succeeded).trans (by simp)).symm
    · exact h.failed.trans ((hone .failed).trans (by simp)).symm
  | attempted => exact h.silent rfl rfl (.refl _)
  | sent w lease result outcome todo k nowMs queue _ _ _ hstep =>
    obtain ⟨c, _, _, _, rfl⟩ := finalizeGet_call hstep
    exact h.silent rfl rfl (.refl _)
  | finalized w c todo queue _ hlog => exact ledger_finalized h hlog rfl rfl

theorem ledger_init : Ledger (service J A start).init :=
  ⟨fun _ => rfl, rfl, rfl, rfl, List.Sublist.slnil⟩

theorem reachable_ledger (hs : (service J A start).Reachable s) : (jobQueue J).Reachable s.queue ∧ Ledger s := by
  refine hs.invariant (P := fun s => (jobQueue J).Reachable s.queue ∧ Ledger s)
    ⟨(jobQueue J).reachable_init, ledger_init⟩ ?_
  intro s a t _ ⟨hq, hl⟩ hstep
  have hm := service_moves hq hstep
  refine ⟨?_, ledger_step hl hm⟩
  cases hm with
  | environment queue metrics h => exact h.reachable hq
  | process w p queue metrics h => exact h.reachable hq
  | late queue h => exact h.reachable hq
  | submit request job nowMs answered queue h => exact hq.step h
  | marked w c todo queue h => exact h.reachable hq
  | attempted => exact hq
  | sent w lease result outcome todo k nowMs queue _ _ _ h => exact hq.step h
  | finalized w c todo queue h => exact h.reachable hq

end

section
variable {W V R : Type} [DecidableEq W] (J : JsonLib V) (A : RequestApi V R) (start : W → JobWorker)

/-- The counters are exact but for the writes whose replies were lost, and a job
that is delivered many times is reported finished at most once. -/
theorem job_metrics_exact {s : Service W V R} (hs : (service J A start).Reachable s) :
    (∀ status, s.metrics.transitions status + written status s.unanswered = written status s.queue.log) ∧
    s.unanswered.Sublist s.queue.log ∧
    (∀ j, (s.queue.log.countP fun ev => ev.jobId = j ∧ ev.state.status.Terminal) ≤ 1) ∧
    s.metrics.accepted = s.metrics.transitions .queued ∧
    s.metrics.results.succeeded = s.metrics.transitions .succeeded ∧
    s.metrics.results.failed = s.metrics.transitions .failed ∧
    s.metrics.results.succeeded + s.metrics.results.failed ≤ (enqueuedJobs s.queue.log).length := by
  obtain ⟨hq, hl⟩ := reachable_ledger hs
  have hp := reachable_placed hq
  refine ⟨hl.exact, hl.unanswered, finishes_once hp.finalized_nodup, hl.accepted, hl.succeeded, hl.failed, ?_⟩
  have hsucceeded := hl.exact .succeeded
  have hfailed := hl.exact .failed
  have hfinished := written_finished s.queue.log
  have hjobs : (finalizedJobs s.queue.log).length ≤ s.queue.jobIds.length :=
    (List.subperm_of_subset hp.finalized_nodup hp.finalized_known).length_le
  have hlen : s.queue.jobIds.length = (enqueuedJobs s.queue.log).length := by
    rw [← hp.jobIds, List.length_map]
  rw [hl.succeeded, hl.failed]
  omega

end

/-- The first job succeeds; the reply for the second one is lost. -/
theorem job_metrics_exact_lost : servedTwo.metrics.results.succeeded = 1 ∧ written .succeeded servedTwo.unanswered = 1 ∧
    servedTwo.metrics.transitions .succeeded + written .succeeded servedTwo.unanswered =
      written .succeeded servedTwo.queue.log :=
  ⟨by decide, by decide, (job_metrics_exact wordJson wordApi (fun _ => plainWorker) servedTwo_reachable).1 .succeeded⟩

end InferenceService
