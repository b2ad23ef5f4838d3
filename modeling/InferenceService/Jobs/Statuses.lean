import InferenceService.Jobs.Records
import InferenceService.Jobs.Final

/-!
# A job's status never goes back

Each write of a record goes on from the write before it, also when the record
has expired in between and a worker builds it anew.
-/

namespace InferenceService

def JobStatus.rank : JobStatus → Nat
  | .queued => 0
  | .running => 1
  | .succeeded => 2
  | .failed => 2

section
variable {V : Type} {J : JsonLib V} {s s' : QueueSys V} {a : QueueAct V} {j : String}

/-- How far the writes have brought a job, whether its record is still there or not. -/
def writtenRank (log : List (QueueEvent V)) (j : String) : Nat :=
  ((lastWrite log j).map fun ev => ev.state.status.rank).getD 0

theorem rank_le_two (status : JobStatus) : status.rank ≤ 2 := by
  cases status <;> decide

theorem finalized_rank (c : FinalizeCall V) : c.state.status.rank = 2 := by
  rcases finalized_terminal c with h | h <;> rw [h] <;> rfl

theorem writtenRank_cons (ev : QueueEvent V) (log : List (QueueEvent V)) (j : String) :
    writtenRank (ev :: log) j = if ev.jobId = j then ev.state.status.rank else writtenRank log j := by
  unfold writtenRank
  rw [lastWrite_cons]
  by_cases h : ev.jobId = j <;> simp [h]

theorem writtenRank_le_two (log : List (QueueEvent V)) (j : String) : writtenRank log j ≤ 2 := by
  unfold writtenRank
  cases lastWrite log j with
  | none => exact Nat.zero_le _
  | some ev => exact rank_le_two _

theorem writtenRank_recorded (hf : Fenced s) {st : JobState V} (h : s.redis.job j = some st) :
    writtenRank s.log j = st.status.rank := by
  obtain ⟨ev, hev, rfl⟩ := hf.recorded j st h
  unfold writtenRank
  rw [hev]
  rfl

theorem Placed.mem_log (hp : Placed J s) {ev : QueueEvent V} (h : ev ∈ s.log) : ev.jobId ∈ s.jobIds := by
  cases ev with
  | enqueued q => exact hp.mem_jobIds (List.mem_filterMap.mpr ⟨_, h, rfl⟩)
  | marked c =>
    obtain ⟨q, hq, _, hjob⟩ := hp.leases c.lease (mem_leases h)
    have hmem := hp.mem_jobIds hq
    rw [hjob] at hmem
    exact hmem
  | finalized c => exact hp.finalized_known _ (mem_finalizedJobs h)

theorem writtenRank_fresh (hp : Placed J s) (h : j ∉ s.jobIds) : writtenRank s.log j = 0 := by
  unfold writtenRank
  cases hev : lastWrite s.log j with
  | none => rfl
  | some ev =>
    obtain ⟨hmem, rfl⟩ := lastWrite_mem hev
    exact absurd (hp.mem_log hmem) h

theorem writtenRank_unfinished (h : j ∉ finalizedJobs s.log) : writtenRank s.log j ≤ 1 := by
  unfold writtenRank
  cases hev : lastWrite s.log j with
  | none => exact Nat.zero_le _
  | some ev =>
    obtain ⟨hmem, rfl⟩ := lastWrite_mem hev
    cases ev with
    | enqueued q => exact Nat.zero_le _
    | marked c => exact Nat.le_refl _
    | finalized c => exact absurd (mem_finalizedJobs hmem) h

theorem writtenRank_step (hp : Placed J s) (hm : JobMoves J s a s') (j : String) :
    writtenRank s.log j ≤ writtenRank s'.log j := by
  cases hm with
  | @enqueue jobId payload payloadJson nowMs _ hfresh =>
    rw [writtenRank_cons]
    by_cases h : jobId = j
    · subst h
      rw [writtenRank_fresh hp hfresh]
      exact Nat.zero_le _
    · exact le_of_eq (if_neg h).symm
  | @marked k c hc howner =>
    rw [writtenRank_cons]
    by_cases h : c.message.jobId = j
    · subst h
      rw [if_pos (show (QueueEvent.marked c).jobId = c.message.jobId from rfl)]
      exact writtenRank_unfinished (hp.unfinished (hp.marking c (List.mem_of_getElem? hc)) howner)
    · exact le_of_eq (if_neg h).symm
  | @finalized k c hc hpass =>
    rw [writtenRank_cons]
    by_cases h : c.lease.message.jobId = j
    · subst h
      rw [if_pos (show (QueueEvent.finalized c).jobId = c.lease.message.jobId from rfl)]
      exact (writtenRank_le_two _ _).trans (le_of_eq (finalized_rank c).symm)
    · exact le_of_eq (if_neg h).symm
  | _ => exact Nat.le_refl _

theorem enqueued_step (hm : JobMoves J s a s') : enqueuedJobs s.log ⊆ enqueuedJobs s'.log := by
  cases hm with
  | enqueue => exact List.subset_cons_of_subset _ (List.Subset.refl _)
  | _ => exact List.Subset.refl _

end

section
variable {V : Type} (J : JsonLib V)

/-- Two reads of one job, however far apart: the status has not gone back, and
the job's id and time of submission are the same. -/
theorem status_never_back {s s' : QueueSys V} (hs : (jobQueue J).Reachable s) {as : List (QueueAct V)}
    (h : (jobQueue J).runFrom s as = some s') {j : String} {st st' : JobState V} (hst : s.redis.job j = some st)
    (hst' : s'.redis.job j = some st') :
    st.status.rank ≤ st'.status.rank ∧ st'.jobId = st.jobId ∧ st'.createdAtMs = st.createdAtMs := by
  have hs' := hs.run h
  have hrun : writtenRank s.log j ≤ writtenRank s'.log j ∧ enqueuedJobs s.log ⊆ enqueuedJobs s'.log := by
    refine Lts.run_related (R := fun s t : QueueSys V => writtenRank s.log j ≤ writtenRank t.log j ∧
      enqueuedJobs s.log ⊆ enqueuedJobs t.log) (fun _ => ⟨Nat.le_refl _, List.Subset.refl _⟩) ?_ ?_ hs h
    · exact fun _ _ _ h h' => ⟨h.1.trans h'.1, List.Subset.trans h.2 h'.2⟩
    · intro s a t hs h
      have hm := job_moves (reachable_placed hs).intact h
      exact ⟨writtenRank_step (reachable_placed hs) hm j, enqueued_step hm⟩
  obtain ⟨hrank, hjobs⟩ := hrun
  rw [writtenRank_recorded (reachable_fenced hs) hst, writtenRank_recorded (reachable_fenced hs') hst'] at hrank
  obtain ⟨q, hq, hjob, hid, hcreated⟩ := ((reachable_records hs).job j st hst).origin
  obtain ⟨q', hq', hjob', hid', hcreated'⟩ := ((reachable_records hs').job j st' hst').origin
  have hsame : q' = q := (reachable_placed hs').same_job hq' (hjobs hq) (hjob'.trans hjob.symm)
  refine ⟨hrank, hid'.trans hid.symm, ?_⟩
  rw [hcreated', hcreated, hsame]

/-- The record is read while the job waits, expires, and is built anew. -/
theorem status_never_back_rebuilt : ∃ s s' : QueueSys Unit, ∃ st st', s.redis.job "job" = some st ∧
    s'.redis.job "job" = some st' ∧ st.status = .queued ∧ st'.status = .running ∧ st'.createdAtMs = st.createdAtMs := by
  have hrun : ((jobQueue emptyDicts).runFrom (jobQueue emptyDicts).init (rebuilding.take 1)).bind (fun s =>
      ((jobQueue emptyDicts).runFrom s (rebuilding.drop 1)).map fun s' =>
        decide ((s.redis.job "job").map JobState.status = some .queued ∧
          (s'.redis.job "job").map JobState.status = some .running)) = some true := by decide
  obtain ⟨s, hs, hrun⟩ := Option.bind_eq_some_iff.mp hrun
  obtain ⟨s', hs', hst⟩ := Option.map_eq_some_iff.mp hrun
  obtain ⟨hst, hst'⟩ := of_decide_eq_true hst
  obtain ⟨st, hst, hqueued⟩ := Option.map_eq_some_iff.mp hst
  obtain ⟨st', hst', hrunning⟩ := Option.map_eq_some_iff.mp hst'
  exact ⟨s, s', st, st', hst, hst', hqueued, hrunning,
    (status_never_back emptyDicts ⟨_, hs⟩ hs' hst hst').2.2⟩

end

end InferenceService
