import InferenceService.Jobs.Final
import InferenceService.Jobs.Records
import InferenceService.Lib.StreamOwners

/-!
# `attempt_count` loses no update

`mark_running` reads the record in one command and writes it in a later one.
A worker is known by its consumer name and sends one command at a time; of this
we use that its script of `mark_running` runs, if at all, before its next
command. No record expires here.
-/

namespace InferenceService

/-- The queue, and for each consumer name the token of the `mark_running` whose
script is the worker's next command. -/
structure WorkersSys (V : Type) where
  queue : QueueSys V
  awaiting : String → Option String

section
variable {V : Type}

/-- The consumer name of the worker that sends a command. -/
def QueueSys.sender (s : QueueSys V) : QueueAct V → Option String
  | .readNew consumer _ => some consumer
  | .reclaimIdle consumer _ _ _ => some consumer
  | .legacyScan consumer _ _ _ => some consumer
  | .legacyClaim k => s.claiming[k]?.map ClaimCall.consumerName
  | .markGet _ workerName _ _ => some workerName
  | .markEval k => s.marking[k]?.map MarkCall.workerName
  | .finalizeGet k _ _ => (leases s.log)[k]?.map JobLease.workerName
  | .finalizeEval k => s.finalizing[k]?.map fun c => c.lease.workerName
  | _ => none

namespace WorkersSys

def awaited : QueueAct V → Option String
  | .markGet _ _ token _ => some token
  | _ => none

def awaitingAfter (s : WorkersSys V) (a : QueueAct V) : String → Option String :=
  match s.queue.sender a with
  | none => s.awaiting
  | some worker => Function.update s.awaiting worker (awaited a)

def enabled (s : WorkersSys V) : QueueAct V → Bool
  | .expire _ => false
  | .markEval k =>
    match s.queue.marking[k]? with
    | none => true
    | some c => s.awaiting c.workerName = some c.deliveryToken
  | _ => true

end WorkersSys

def workers (J : JsonLib V) : Lts (WorkersSys V) (QueueAct V) where
  init := ⟨(jobQueue J).init, fun _ => none⟩
  step s a :=
    if s.enabled a then ((jobQueue J).step s.queue a).map fun queue => ⟨queue, s.awaitingAfter a⟩ else none

def QueueEvent.markCall : QueueEvent V → Option (MarkCall V)
  | marked c => some c
  | _ => none

/-- The `mark_running` scripts that have returned 1. -/
def markedCalls (log : List (QueueEvent V)) : List (MarkCall V) := log.filterMap QueueEvent.markCall

def attempts (log : List (QueueEvent V)) (jobId : String) : Nat :=
  (markedCalls log).countP fun c => c.message.jobId = jobId

/-! ## The queue of the workers -/

variable {J : JsonLib V} {s s' : WorkersSys V} {a : QueueAct V}

theorem workers_step (h : (workers J).step s a = some s') :
    s.enabled a = true ∧ (jobQueue J).step s.queue a = some s'.queue ∧ s'.awaiting = s.awaitingAfter a := by
  simp only [workers] at h
  by_cases he : s.enabled a = true
  · rw [if_pos he] at h
    obtain ⟨queue, hq, rfl⟩ := Option.map_eq_some_iff.mp h
    exact ⟨he, hq, rfl⟩
  · rw [if_neg he] at h
    cases h

theorem reachable_queue (hs : (workers J).Reachable s) : (jobQueue J).Reachable s.queue := by
  refine hs.invariant (P := fun s => (jobQueue J).Reachable s.queue) (jobQueue J).reachable_init ?_
  intro s a t _ hq h
  exact hq.step (workers_step h).2.1

/-! ## What a command cannot change -/

variable {q q' : QueueSys V}

theorem step_gains (h : (jobQueue J).step q a = some q') {id : StreamId} {worker : String}
    (ho : q'.redis.stream.owner id = some worker) :
    q.sender a = some worker ∨ q.redis.stream.owner id = some worker := by
  cases a with
  | tick ms =>
    obtain rfl := Option.some.inj h
    exact .inr ho
  | expire jobId =>
    obtain rfl := Option.some.inj h
    exact .inr ho
  | ensureConsumerGroup =>
    obtain ⟨stream, hs, rfl⟩ := Option.map_eq_some_iff.mp h
    rw [show (q.withStream stream).redis.stream.owner id = none from Redis.Stream.owner_xgroupCreate hs] at ho
    cases ho
  | enqueue jobId payload nowMs =>
    simp only [jobQueue, QueueSys.step] at h
    split at h
    · cases h
    · split at h
      · cases h
      · obtain rfl := Option.some.inj h
        exact .inr ho
  | readNew consumer count =>
    simp only [jobQueue, QueueSys.step] at h
    split at h
    · cases h
    · obtain ⟨⟨entries, stream⟩, hr, rfl⟩ := Option.map_eq_some_iff.mp h
      rcases Redis.Stream.gains_xreadgroup hr id worker ho with rfl | ho
      · exact .inl rfl
      · exact .inr ho
  | reclaimIdle consumer minIdle startId count =>
    simp only [jobQueue, QueueSys.step] at h
    split at h
    · cases h
    · obtain ⟨⟨scan, stream⟩, hr, rfl⟩ := Option.map_eq_some_iff.mp h
      rcases Redis.Stream.gains_xautoclaim hr id worker ho with rfl | ho
      · exact .inl rfl
      · exact .inr ho
  | legacyScan consumer minIdle startId count =>
    simp only [jobQueue, QueueSys.step] at h
    split at h
    · cases h
    · obtain ⟨nacks, _, rfl⟩ := Option.map_eq_some_iff.mp h
      exact .inr ho
  | legacyClaim k =>
    simp only [jobQueue, QueueSys.step, Option.bind_eq_bind] at h
    obtain ⟨c, hc, h⟩ := Option.bind_eq_some_iff.mp h
    obtain ⟨⟨records, stream⟩, hr, h⟩ := Option.bind_eq_some_iff.mp h
    obtain rfl := Option.some.inj h
    rcases Redis.Stream.gains_xclaim hr id worker ho with rfl | ho
    · exact .inl (by simp only [QueueSys.sender, hc, Option.map_some])
    · exact .inr ho
  | markGet k workerName token nowMs =>
    simp only [jobQueue, QueueSys.step] at h
    split at h
    · cases h
    · obtain ⟨message, _, rfl⟩ := Option.map_eq_some_iff.mp h
      exact .inr ho
  | markEval k =>
    obtain ⟨c, hc, rfl⟩ := Option.map_eq_some_iff.mp h
    rcases markRunning_cases c q.redis with ⟨_, hl⟩ | ⟨_, _, hr⟩
    · simp only [hl] at ho
      exact .inr ho
    · simp only [hr] at ho
      exact .inr ho
  | finalizeGet k outcome nowMs =>
    simp only [jobQueue, QueueSys.step, Option.bind_eq_bind] at h
    obtain ⟨lease, _, h⟩ := Option.bind_eq_some_iff.mp h
    obtain ⟨c, _, h⟩ := Option.bind_eq_some_iff.mp h
    obtain rfl := Option.some.inj h
    exact .inr ho
  | finalizeEval k =>
    obtain ⟨c, hc, rfl⟩ := Option.map_eq_some_iff.mp h
    rcases finalize_cases c q.redis with ⟨_, hl⟩ | ⟨_, _, hr⟩
    · simp only [hl] at ho
      exact .inr (Redis.Stream.owner_settle ho)
    · simp only [hr] at ho
      exact .inr ho

theorem Placed.same_stream (hp : Placed J q) {m m' : JobMessage V} (hm : Known q.log m) (hm' : Known q.log m')
    (h : m.jobId = m'.jobId) : m.streamId = m'.streamId := by
  obtain ⟨x, hx, hid, hjob⟩ := hm
  obtain ⟨x', hx', hid', hjob'⟩ := hm'
  obtain rfl := hp.same_job hx hx' (by rw [hjob, hjob', h])
  exact hid.symm.trans hid'

/-- The record of a message that another worker owns stays as it is. -/
theorem record_kept (hp : Placed J q) (hm : JobMoves J q a q') {m : JobMessage V} (hk : Known q.log m)
    {worker : String} (ho : q.redis.stream.owner m.streamId = some worker) (hne : q.sender a ≠ some worker)
    (hexp : ∀ jobId, a ≠ .expire jobId) : q'.redis.job m.jobId = q.redis.job m.jobId := by
  cases hm with
  | expire jobId => exact absurd rfl (hexp jobId)
  | enqueue hid hfresh =>
    refine Function.update_of_ne ?_ _ _
    intro heq
    obtain ⟨x, hx, _, hjob⟩ := hk
    exact hfresh (heq ▸ hjob ▸ hp.mem_jobIds hx)
  | @marked k c hc howner =>
    refine Function.update_of_ne ?_ _ _
    intro heq
    rw [hp.same_stream hk (hp.marking c (List.mem_of_getElem? hc)) heq, howner] at ho
    exact hne (by simp only [QueueSys.sender, hc, Option.map_some, ho])
  | @finalized k c hc hpass =>
    refine Function.update_of_ne ?_ _ _
    intro heq
    have hlease := hp.leases _ (hp.finalizing c (List.mem_of_getElem? hc))
    rw [hp.same_stream hk hlease heq, hpass.1] at ho
    exact hne (by simp only [QueueSys.sender, hc, Option.map_some, ho])
  | _ => rfl

/-! ## The record that a lease's mark wrote -/

theorem mem_markedCalls {log : List (QueueEvent V)} {c : MarkCall V} : c ∈ markedCalls log ↔ .marked c ∈ log := by
  unfold markedCalls
  rw [List.mem_filterMap]
  constructor
  · intro h
    obtain ⟨ev, hev, hc⟩ := h
    cases ev with
    | marked c' => obtain rfl := Option.some.inj hc; exact hev
    | enqueued job => cases hc
    | finalized call => cases hc
  · exact fun h => ⟨_, h, rfl⟩

theorem leases_eq (log : List (QueueEvent V)) : leases log = (markedCalls log).map MarkCall.lease := by
  unfold leases markedCalls
  rw [List.map_filterMap]
  congr 1
  funext ev
  cases ev <;> rfl

theorem Fenced.same_mark (hf : Fenced q) {c c' : MarkCall V} (hc : .marked c ∈ q.log) (hc' : .marked c' ∈ q.log)
    (h : c.deliveryToken = c'.deliveryToken) : c = c' := by
  have hnodup := hf.leases_nodup
  rw [leases_eq, List.map_map] at hnodup
  exact List.inj_on_of_nodup_map hnodup (mem_markedCalls.mpr hc) (mem_markedCalls.mpr hc') h

theorem Fenced.marked_record (hf : Fenced q) {j : String} {st : JobState V} (hj : q.redis.job j = some st)
    {token : String} (ht : st.deliveryToken = some token) :
    ∃ c, .marked c ∈ q.log ∧ c.deliveryToken = token ∧ c.message.jobId = j ∧ c.state = st := by
  obtain ⟨ev, hev, rfl⟩ := hf.recorded _ _ hj
  obtain ⟨hmem, hjob⟩ := lastWrite_mem hev
  cases ev with
  | enqueued job => cases ht
  | finalized call =>
    rw [QueueEvent.state, finalized_token] at ht
    cases ht
  | marked c => exact ⟨c, hmem, Option.some.inj ht, hjob, rfl⟩

/-! ## Counting -/

theorem attempts_marked (c : MarkCall V) (log : List (QueueEvent V)) (j : String) :
    attempts (.marked c :: log) j = attempts log j + if c.message.jobId = j then 1 else 0 := by
  show (c :: markedCalls log).countP _ = _
  rw [List.countP_cons]
  simp [attempts]

theorem attempts_fresh (hp : Placed J q) {jobId : String} (hfresh : jobId ∉ q.jobIds) : attempts q.log jobId = 0 := by
  unfold attempts
  rw [List.countP_eq_zero]
  intro c hc hjob
  have hlease : c.lease ∈ leases q.log := mem_leases (mem_markedCalls.mp hc)
  obtain ⟨x, hx, _, heq⟩ := hp.leases _ hlease
  exact hfresh (of_decide_eq_true hjob ▸ heq ▸ hp.mem_jobIds hx)

theorem finalized_attemptCount (c : FinalizeCall V) : c.state.attemptCount = c.read.attemptCount := by
  unfold FinalizeCall.state
  cases c.outcome <;> rfl

structure Counted (s : WorkersSys V) : Prop where
  recorded : ∀ x ∈ enqueuedJobs s.queue.log, s.queue.redis.job x.jobId ≠ none
  counts : ∀ j st, s.queue.redis.job j = some st → st.attemptCount = attempts s.queue.log j
  current : ∀ c ∈ s.queue.marking, s.awaiting c.workerName = some c.deliveryToken →
    s.queue.redis.stream.owner c.message.streamId = some c.workerName →
      c.read = s.queue.redis.job c.message.jobId
  read : ∀ c ∈ s.queue.finalizing, ∃ m, .marked m ∈ s.queue.log ∧ m.deliveryToken = c.lease.deliveryToken ∧
    m.state = c.read

theorem not_expire (he : s.enabled a = true) (jobId : String) : a ≠ .expire jobId := by
  intro heq
  subst heq
  cases he

theorem awaited_fresh (hq : (jobQueue J).Reachable q) (h : (jobQueue J).step q a = some q') {c : MarkCall V}
    (hc : c ∈ q.marking) : WorkersSys.awaited a ≠ some c.deliveryToken := by
  intro ha
  cases a with
  | markGet k workerName token nowMs =>
    obtain rfl := Option.some.inj ha
    simp only [jobQueue, QueueSys.step] at h
    split at h
    · cases h
    · rename_i hfresh
      exact hfresh ((reachable_fenced hq).issued _ (List.mem_append_right _ (List.mem_map_of_mem hc)))
  | _ => cases ha

theorem awaiting_other {worker : String} (hne : s.queue.sender a ≠ some worker) :
    s.awaitingAfter a worker = s.awaiting worker := by
  unfold WorkersSys.awaitingAfter
  cases hs : s.queue.sender a with
  | none => rfl
  | some w => exact Function.update_of_ne (fun heq => hne (by rw [hs, heq])) _ _

theorem marking_cases (hm : JobMoves J q a q') {c : MarkCall V} (hc : c ∈ q'.marking) :
    c ∈ q.marking ∨ c.read = q.redis.job c.message.jobId ∧ q'.redis = q.redis := by
  cases hm with
  | markGet =>
    rcases List.mem_append.mp hc with hc | hc
    · exact .inl hc
    · obtain rfl := List.mem_singleton.mp hc
      exact .inr ⟨rfl, rfl⟩
  | marked => exact .inl (List.mem_of_mem_eraseIdx hc)
  | markRefused => exact .inl (List.mem_of_mem_eraseIdx hc)
  | _ => exact .inl hc

/-- A read stays current while its worker waits and owns the message: another
worker that wrote the record would own the message, and only a command of this
worker would bring it back. -/
theorem counted_current (hq : (jobQueue J).Reachable s.queue) (hi : Counted s) (h : (workers J).step s a = some s') :
    ∀ c ∈ s'.queue.marking, s'.awaiting c.workerName = some c.deliveryToken →
      s'.queue.redis.stream.owner c.message.streamId = some c.workerName →
        c.read = s'.queue.redis.job c.message.jobId := by
  obtain ⟨he, hstep, haw⟩ := workers_step h
  have hp := reachable_placed hq
  have hm := job_moves hp.intact hstep
  intro c hc hwaits howner
  rw [haw] at hwaits
  rcases marking_cases hm hc with hc | ⟨hread, hsame⟩
  · by_cases hsend : s.queue.sender a = some c.workerName
    · unfold WorkersSys.awaitingAfter at hwaits
      simp only [hsend, Function.update_self] at hwaits
      exact absurd hwaits (awaited_fresh hq hstep hc)
    · rw [awaiting_other hsend] at hwaits
      have howned := (step_gains hstep howner).resolve_left hsend
      rw [hi.current c hc hwaits howned, record_kept hp hm (hp.marking c hc) howned hsend (not_expire he)]
  · rw [hread, hsame]

theorem counted_counts (hq : (jobQueue J).Reachable s.queue) (hi : Counted s) (h : (workers J).step s a = some s') :
    ∀ j st, s'.queue.redis.job j = some st → st.attemptCount = attempts s'.queue.log j := by
  obtain ⟨he, hstep, _⟩ := workers_step h
  have hp := reachable_placed hq
  have hm := job_moves hp.intact hstep
  intro j st hst
  generalize s'.queue = q' at hm hst ⊢
  cases hm with
  | expire jobId => exact absurd rfl (not_expire he jobId)
  | @enqueue jobId payload payloadJson nowMs hid hfresh =>
    rcases update_cases s.queue.redis.job jobId j (some (queuedState jobId nowMs)) with ⟨rfl, hu⟩ | ⟨_, hu⟩
    · obtain rfl := Option.some.inj (hu.symm.trans hst)
      exact (attempts_fresh hp hfresh).symm
    · exact hi.counts j st (hu.symm.trans hst)
  | @marked k c hc howner =>
    have hmem := List.mem_of_getElem? hc
    rw [attempts_marked]
    rcases update_cases s.queue.redis.job c.message.jobId j (some c.state) with ⟨rfl, hu⟩ | ⟨hne, hu⟩
    · obtain rfl := Option.some.inj (hu.symm.trans hst)
      have hwaits : s.awaiting c.workerName = some c.deliveryToken := by
        simp only [WorkersSys.enabled, hc] at he
        exact of_decide_eq_true he
      obtain ⟨x, hx, _, hjob⟩ := hp.marking c hmem
      obtain ⟨current, hcurrent⟩ := Option.ne_none_iff_exists'.mp (hjob ▸ hi.recorded x hx)
      have hbase : c.base = current := by
        unfold MarkCall.base
        rw [hi.current c hmem hwaits howner, hcurrent]
        rfl
      rw [if_pos rfl, ← hi.counts _ _ hcurrent, ← hbase]
      rfl
    · rw [if_neg hne]
      exact hi.counts j st (hu.symm.trans hst)
  | @finalized k c hc hpass =>
    show st.attemptCount = attempts s.queue.log j
    rcases update_cases s.queue.redis.job c.lease.message.jobId j (some c.state) with ⟨rfl, hu⟩ | ⟨_, hu⟩
    · obtain rfl := Option.some.inj (hu.symm.trans hst)
      have hf := reachable_fenced hq
      obtain ⟨_, current, hcurrent, htoken⟩ := hpass
      obtain ⟨m, hmark, hread, hstate⟩ := hi.read c (List.mem_of_getElem? hc)
      obtain ⟨m', hmark', htoken', _, hstate'⟩ := hf.marked_record hcurrent htoken
      obtain rfl := hf.same_mark hmark hmark' (hread.trans htoken'.symm)
      rw [finalized_attemptCount, ← hstate, hstate']
      exact hi.counts _ _ hcurrent
    · exact hi.counts j st (hu.symm.trans hst)
  | _ => exact hi.counts j st hst

theorem counted_recorded (hq : (jobQueue J).Reachable s.queue) (hi : Counted s) (h : (workers J).step s a = some s') :
    ∀ x ∈ enqueuedJobs s'.queue.log, s'.queue.redis.job x.jobId ≠ none := by
  obtain ⟨he, hstep, _⟩ := workers_step h
  have hm := job_moves (reachable_placed hq).intact hstep
  have hset : ∀ (jobId j : String) (st : JobState V), s.queue.redis.job j ≠ none →
      Function.update s.queue.redis.job jobId (some st) j ≠ none := by
    intro jobId j st hj
    rcases update_cases s.queue.redis.job jobId j (some st) with ⟨_, hu⟩ | ⟨_, hu⟩
    · rw [hu]; exact nofun
    · rw [hu]; exact hj
  intro x hx
  generalize s'.queue = q' at hm hx ⊢
  cases hm with
  | expire jobId => exact absurd rfl (not_expire he jobId)
  | @enqueue jobId payload payloadJson nowMs =>
    rcases List.mem_cons.mp hx with rfl | hx
    · have hnew : Function.update s.queue.redis.job jobId (some (queuedState jobId nowMs)) jobId =
          some (queuedState jobId nowMs) := Function.update_self ..
      exact fun hnone => absurd (hnew.symm.trans hnone) nofun
    · exact hset _ _ _ (hi.recorded x hx)
  | marked => exact hset _ _ _ (hi.recorded x hx)
  | finalized => exact hset _ _ _ (hi.recorded x hx)
  | _ => exact hi.recorded x hx

theorem counted_read (hq : (jobQueue J).Reachable s.queue) (hi : Counted s) (h : (workers J).step s a = some s') :
    ∀ c ∈ s'.queue.finalizing, ∃ m, .marked m ∈ s'.queue.log ∧ m.deliveryToken = c.lease.deliveryToken ∧
      m.state = c.read := by
  obtain ⟨_, hstep, _⟩ := workers_step h
  have hm := job_moves (reachable_placed hq).intact hstep
  have hgrow : ∀ (ev : QueueEvent V) (c : FinalizeCall V), c ∈ s.queue.finalizing →
      ∃ m, .marked m ∈ ev :: s.queue.log ∧ m.deliveryToken = c.lease.deliveryToken ∧ m.state = c.read := by
    intro ev c hc
    obtain ⟨m, hmark, hm⟩ := hi.read c hc
    exact ⟨m, List.mem_cons_of_mem _ hmark, hm⟩
  intro c hc
  generalize s'.queue = q' at hstep hm hc ⊢
  cases hm with
  | enqueue => exact hgrow _ c hc
  | marked => exact hgrow _ c hc
  | finalized => exact hgrow _ c (List.mem_of_mem_eraseIdx hc)
  | finalizeRefused => exact hi.read c (List.mem_of_mem_eraseIdx hc)
  | finalizeGet =>
    obtain ⟨c₀, hs', hjob, htoken⟩ := new_finalizing hstep
    rw [hs'] at hc ⊢
    rcases List.mem_append.mp hc with hc | hc
    · exact hi.read c hc
    · obtain rfl := List.mem_singleton.mp hc
      obtain ⟨m, hmark, hread, _, hstate⟩ := (reachable_fenced hq).marked_record hjob htoken
      exact ⟨m, hmark, hread, hstate⟩
  | _ => exact hi.read c hc

theorem counted_step (hq : (jobQueue J).Reachable s.queue) (hi : Counted s) (h : (workers J).step s a = some s') :
    Counted s' :=
  ⟨counted_recorded hq hi h, counted_counts hq hi h, counted_current hq hi h, counted_read hq hi h⟩

theorem counted_init : Counted (workers J).init where
  recorded _ h := absurd h List.not_mem_nil
  counts _ _ h := by cases h
  current _ h := absurd h List.not_mem_nil
  read _ h := absurd h List.not_mem_nil

theorem reachable_counted (hs : (workers J).Reachable s) : Counted s :=
  hs.invariant counted_init fun _ _ _ hr hi h => counted_step (reachable_queue hr) hi h

end

section
variable {V : Type} (J : JsonLib V)

theorem attempt_count_exact {s : WorkersSys V} (hs : (workers J).Reachable s) {j : String} {st : JobState V}
    (h : s.queue.redis.job j = some st) : st.attemptCount = attempts s.queue.log j :=
  (reachable_counted hs).counts j st h

end

/-- Two workers that have both read the record before either writes it. -/
def overlapping : List (QueueAct Unit) :=
  [.enqueue "job" () 7, .ensureConsumerGroup, .readNew "worker-a" 1, .markGet 0 "worker-a" "token-a" 8, .tick 5,
    .reclaimIdle "worker-b" 5 ⊥ 1, .markGet 1 "worker-b" "token-b" 9, .markEval 1, .markEval 0]

theorem attempt_count_exact_overlapping : ∃ s st, (workers emptyDicts).runFrom (workers emptyDicts).init overlapping =
    some s ∧ s.queue.redis.job "job" = some st ∧ s.queue.marking.length = 0 ∧ st.attemptCount = 1 ∧
      st.attemptCount = attempts s.queue.log "job" := by
  have h : ((workers emptyDicts).runFrom (workers emptyDicts).init overlapping).bind (fun s =>
      (s.queue.redis.job "job").map fun st => decide (s.queue.marking.length = 0 ∧ st.attemptCount = 1)) =
        some true := by decide
  obtain ⟨s, hs, h⟩ := Option.bind_eq_some_iff.mp h
  obtain ⟨st, hst, h⟩ := Option.map_eq_some_iff.mp h
  obtain ⟨hmarking, hcount⟩ := of_decide_eq_true h
  exact ⟨s, st, hs, hst, hmarking, hcount, attempt_count_exact emptyDicts ⟨overlapping, hs⟩ hst⟩

end InferenceService
