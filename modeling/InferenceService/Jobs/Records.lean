import InferenceService.Jobs.Fencing

/-!
# What a stored record looks like

Every write starts from a record that was read earlier. A read that is still
used when its script passes was of an unfinished job, so it has no field of a
terminal record.
-/

namespace InferenceService

section
variable {V : Type}

/-- The fields that each status has and has not. -/
structure JobState.WellFormed (st : JobState V) : Prop where
  queued : st.status = .queued → st.attemptCount = 0 ∧ st.worker = none ∧ st.deliveryToken = none ∧
    st.result = none ∧ st.errorType = none ∧ st.errorMessage = none
  running : st.status = .running → st.worker ≠ none ∧ st.deliveryToken ≠ none ∧ 1 ≤ st.attemptCount ∧
    st.result = none ∧ st.errorType = none ∧ st.errorMessage = none
  succeeded : st.status = .succeeded → st.worker ≠ none ∧ st.result ≠ none ∧ st.deliveryToken = none ∧
    st.errorType = none ∧ st.errorMessage = none
  failed : st.status = .failed → st.worker ≠ none ∧ st.errorType ≠ none ∧
    (∃ message, st.errorMessage = some message ∧ message.length ≤ 1000) ∧ st.deliveryToken = none ∧ st.result = none

/-- The id and the time are those of the job's `enqueue`. -/
def JobState.Originates (log : List (QueueEvent V)) (j : String) (st : JobState V) : Prop :=
  ∃ q ∈ enqueuedJobs log, q.jobId = j ∧ st.jobId = j ∧ st.createdAtMs = q.createdAtMs

structure Stored (log : List (QueueEvent V)) (j : String) (st : JobState V) : Prop where
  wellFormed : st.WellFormed
  finished : st.status.Terminal → j ∈ finalizedJobs log
  origin : st.Originates log j

def Dated (log : List (QueueEvent V)) (m : JobMessage V) : Prop :=
  ∃ q ∈ enqueuedJobs log, q.jobId = m.jobId ∧ q.createdAtMs = m.createdAtMs

structure Records (s : QueueSys V) : Prop where
  job : ∀ j st, s.redis.job j = some st → Stored s.log j st
  messages : ∀ m ∈ s.messages, Dated s.log m
  marking : ∀ c ∈ s.marking, Dated s.log c.message ∧ ∀ st ∈ c.read, Stored s.log c.message.jobId st
  finalizing : ∀ c ∈ s.finalizing, Stored s.log c.lease.message.jobId c.read ∧ c.read.deliveryToken ≠ none

/-! ## The records that are written -/

theorem queued_wellFormed (jobId : String) (nowMs : Int) : (queuedState jobId nowMs : JobState V).WellFormed :=
  ⟨fun _ => ⟨rfl, rfl, rfl, rfl, rfl, rfl⟩, nofun, nofun, nofun⟩

/-- A record of an unfinished job has no field of a terminal one. -/
theorem JobState.WellFormed.unfinished {st : JobState V} (h : st.WellFormed) (hst : ¬ st.status.Terminal) :
    st.result = none ∧ st.errorType = none ∧ st.errorMessage = none := by
  cases hs : st.status with
  | queued =>
    obtain ⟨_, _, _, h⟩ := h.queued hs
    exact h
  | running =>
    obtain ⟨_, _, _, h⟩ := h.running hs
    exact h
  | succeeded => exact absurd (.inl hs) hst
  | failed => exact absurd (.inr hs) hst

theorem JobState.WellFormed.running_of_token {st : JobState V} (h : st.WellFormed) (ht : st.deliveryToken ≠ none) :
    st.status = .running := by
  cases hs : st.status with
  | queued => exact absurd (h.queued hs).2.2.1 ht
  | running => rfl
  | succeeded => exact absurd (h.succeeded hs).2.2.1 ht
  | failed => exact absurd (h.failed hs).2.2.2.1 ht

theorem marked_wellFormed {c : MarkCall V}
    (h : c.base.result = none ∧ c.base.errorType = none ∧ c.base.errorMessage = none) : c.state.WellFormed := by
  refine ⟨nofun, fun _ => ⟨nofun, nofun, ?_, h⟩, nofun, nofun⟩
  exact Nat.succ_le_succ (Nat.zero_le _)

theorem finalized_wellFormed {c : FinalizeCall V} (h : c.read.WellFormed) (ht : c.read.deliveryToken ≠ none) :
    c.state.WellFormed := by
  obtain ⟨_, _, _, _, herr⟩ := h.running (h.running_of_token ht)
  unfold FinalizeCall.state
  cases c.outcome with
  | complete result => exact ⟨nofun, nofun, fun _ => ⟨nofun, nofun, rfl, rfl, rfl⟩, nofun⟩
  | fail errorType errorMessage =>
    refine ⟨nofun, nofun, nofun, fun _ => ⟨nofun, nofun, ⟨_, rfl, ?_⟩, rfl, rfl⟩⟩
    rw [Python.text_length]
    exact List.length_take_le _ _

/-! ## What a step keeps -/

variable {J : JsonLib V} {s s' : QueueSys V} {a : QueueAct V} {log : List (QueueEvent V)} {j : String}
  {st : JobState V}

theorem Stored.write (h : Stored log j st) (ev : QueueEvent V) : Stored (ev :: log) j st := by
  obtain ⟨q, hq, horigin⟩ := h.origin
  refine ⟨h.wellFormed, fun ht => ?_, q, ?_, horigin⟩
  · exact ((List.sublist_cons_self ev log).filterMap _).subset (h.finished ht)
  · exact ((List.sublist_cons_self ev log).filterMap _).subset hq

theorem Dated.write {m : JobMessage V} (h : Dated log m) (ev : QueueEvent V) : Dated (ev :: log) m := by
  obtain ⟨q, hq, h⟩ := h
  exact ⟨q, ((List.sublist_cons_self ev log).filterMap _).subset hq, h⟩

theorem stored_update {job : String → Option (JobState V)} (h : ∀ j st, job j = some st → Stored log j st)
    {jobId : String} {o : Option (JobState V)} (ho : ∀ st ∈ o, Stored log jobId st) :
    ∀ j st, Function.update job jobId o j = some st → Stored log j st := by
  intro j st hj
  by_cases heq : j = jobId
  · subst heq
    rw [Function.update_self] at hj
    exact ho st hj
  · rw [Function.update_of_ne heq] at hj
    exact h j st hj

theorem received_dated (hp : Placed J s) {entries : List (StreamId × List (String × String))} {reclaimed : Bool}
    (hm : ∀ e ∈ entries, e ∈ s.redis.stream.entries) {m : JobMessage V}
    (h : m ∈ received J reclaimed (entries.map some)) : Dated s.log m := by
  obtain ⟨e, he, hd⟩ := received_decodes h
  obtain ⟨q, hq, rfl⟩ := hp.entries e (hm e he)
  obtain ⟨_, hjob, hcreated⟩ := decodeRecord_fields hd
  rw [Enqueued.entry, fields_jobId, Option.some.injEq] at hjob
  rw [Enqueued.entry, fields_createdAtMs, Option.bind_some, Python.int_toString, Option.some.injEq] at hcreated
  exact ⟨q, hq, hjob, hcreated⟩

/-- A finalize call carries the record that it read, with its lease's token. -/
theorem new_finalizing {k : Nat} {outcome : JobOutcome V} {nowMs : Int}
    (h : (jobQueue J).step s (.finalizeGet k outcome nowMs) = some s') : ∃ c, s' = { s with
      finalizing := s.finalizing ++ [c] } ∧ s.redis.job c.lease.message.jobId = some c.read ∧
      c.read.deliveryToken = some c.lease.deliveryToken := by
  simp only [jobQueue, QueueSys.step, Option.bind_eq_bind] at h
  obtain ⟨lease, _, h⟩ := Option.bind_eq_some_iff.mp h
  obtain ⟨c, hc, h⟩ := Option.bind_eq_some_iff.mp h
  obtain rfl := Option.some.inj h
  refine ⟨c, rfl, ?_⟩
  cases hread : s.redis.job lease.message.jobId with
  | none => rw [hread] at hc; cases hc
  | some st =>
    rw [hread] at hc
    unfold finalizeCall stateForTerminalUpdate at hc
    by_cases ht : st.deliveryToken = some lease.deliveryToken
    · simp only [ht, ne_eq, not_true_eq_false, if_false] at hc
      cases he : encodeOutcome J outcome with
      | error e => rw [he] at hc; cases hc
      | ok u =>
        rw [he] at hc
        obtain rfl := Option.some.inj hc
        exact ⟨hread, ht⟩
    · simp only [ht, ne_eq, not_false_eq_true, if_true] at hc
      cases hc

theorem marked_stored (hp : Placed J s) (hr : Records s) {k : Nat} {c : MarkCall V} (hc : s.marking[k]? = some c)
    (howner : s.redis.stream.owner c.message.streamId = some c.workerName) :
    Stored (.marked c :: s.log) c.message.jobId c.state := by
  have hmem := List.mem_of_getElem? hc
  have hunfinished := hp.unfinished (hp.marking c hmem) howner
  obtain ⟨⟨q, hq, hjob, hcreated⟩, hread⟩ := hr.marking c hmem
  have hbase : (c.base.result = none ∧ c.base.errorType = none ∧ c.base.errorMessage = none) ∧
      c.base.Originates s.log c.message.jobId := by
    unfold MarkCall.base
    cases hst : c.read with
    | none => exact ⟨⟨rfl, rfl, rfl⟩, q, hq, hjob, rfl, hcreated.symm⟩
    | some st =>
      have hstored := hread st hst
      exact ⟨hstored.wellFormed.unfinished fun ht => hunfinished (hstored.finished ht), hstored.origin⟩
  refine ⟨marked_wellFormed hbase.1, fun ht => ?_, hbase.2⟩
  rcases ht with ht | ht <;> cases ht

theorem finalized_stored (hr : Records s) {k : Nat} {c : FinalizeCall V} (hc : s.finalizing[k]? = some c) :
    Stored (.finalized c :: s.log) c.lease.message.jobId c.state := by
  obtain ⟨hread, ht⟩ := hr.finalizing c (List.mem_of_getElem? hc)
  obtain ⟨q, hq, hjob, hid, hcreated⟩ := hread.origin
  refine ⟨finalized_wellFormed hread.wellFormed ht, fun _ => List.mem_cons_self, q, hq, hjob, ?_⟩
  unfold FinalizeCall.state
  cases c.outcome <;> exact ⟨hid, hcreated⟩

theorem Records.write (hr : Records s) (ev : QueueEvent V) : Records { s with log := ev :: s.log } where
  job j st h := (hr.job j st h).write ev
  messages m hm := (hr.messages m hm).write ev
  marking c hc := ⟨(hr.marking c hc).1.write ev, fun st h => ((hr.marking c hc).2 st h).write ev⟩
  finalizing c hc := ⟨(hr.finalizing c hc).1.write ev, (hr.finalizing c hc).2⟩

theorem records_step (hp : Placed J s) (hr : Records s) (h : (jobQueue J).step s a = some s')
    (hm : JobMoves J s a s') : Records s' := by
  cases hm with
  | tick ms => exact { hr with }
  | expire jobId =>
    refine { hr with job := stored_update hr.job ?_ }
    intro st hst
    cases hst
  | serve stream entries reclaimed claiming _ _ _ _ hentries =>
    refine { hr with messages := ?_ }
    intro m hm
    rcases List.mem_append.mp hm with hm | hm
    · exact hr.messages m hm
    · exact received_dated hp hentries hm
  | @enqueue jobId payload payloadJson nowMs hid hfresh hd hj =>
    have hr' := hr.write (.enqueued ⟨(enqueueExec jobId payloadJson nowMs s.redis).stream.lastId, jobId, payload,
      payloadJson, nowMs⟩)
    refine { hr' with job := stored_update hr'.job ?_ }
    intro st hst
    obtain rfl := Option.some.inj hst
    refine ⟨queued_wellFormed jobId nowMs, fun ht => ?_, _, List.mem_cons_self, rfl, rfl, rfl⟩
    rcases ht with ht | ht <;> cases ht
  | markGet hm hfresh =>
    refine { hr with marking := ?_ }
    intro c hc
    rcases List.mem_append.mp hc with hc | hc
    · exact hr.marking c hc
    · obtain rfl := List.mem_singleton.mp hc
      exact ⟨hr.messages _ hm, hr.job _⟩
  | @marked k c hc howner =>
    have hr' := hr.write (.marked c)
    refine { hr' with job := stored_update hr'.job ?_, marking := ?_ }
    · intro st hst
      obtain rfl := Option.some.inj hst
      exact marked_stored hp hr hc howner
    · exact fun c' hc' => hr'.marking c' (List.mem_of_mem_eraseIdx hc')
  | markRefused => exact { hr with marking := fun c hc => hr.marking c (List.mem_of_mem_eraseIdx hc) }
  | finalizeGet =>
    obtain ⟨c₀, hs', hread, ht⟩ := new_finalizing h
    rw [hs']
    refine { hr with finalizing := ?_ }
    intro c hc
    rcases List.mem_append.mp hc with hc | hc
    · exact hr.finalizing c hc
    · obtain rfl := List.mem_singleton.mp hc
      exact ⟨hr.job _ _ hread, by rw [ht]; exact nofun⟩
  | @finalized k c hc hpass =>
    have hr' := hr.write (.finalized c)
    refine { hr' with job := stored_update hr'.job ?_, finalizing := ?_ }
    · intro st hst
      obtain rfl := Option.some.inj hst
      exact finalized_stored hr hc
    · exact fun c' hc' => hr'.finalizing c' (List.mem_of_mem_eraseIdx hc')
  | finalizeRefused => exact { hr with finalizing := fun c hc => hr.finalizing c (List.mem_of_mem_eraseIdx hc) }

theorem records_init : Records (jobQueue J).init where
  job _ _ h := by cases h
  messages _ h := absurd h List.not_mem_nil
  marking _ h := absurd h List.not_mem_nil
  finalizing _ h := absurd h List.not_mem_nil

theorem reachable_records (hs : (jobQueue J).Reachable s) : Records s := by
  refine hs.invariant records_init fun u b v hu hr h => ?_
  exact records_step (reachable_placed hu) hr h (job_moves (reachable_placed hu).intact h)

end

section
variable {V : Type} (J : JsonLib V)

theorem record_invariant {s : QueueSys V} (hs : (jobQueue J).Reachable s) {j : String} {st : JobState V}
    (h : s.redis.job j = some st) :
    st.WellFormed ∧ ∃ q ∈ enqueuedJobs s.log, (∀ q' ∈ enqueuedJobs s.log, q'.jobId = j → q' = q) ∧
      q.jobId = j ∧ st.jobId = j ∧ st.createdAtMs = q.createdAtMs := by
  have hstored := (reachable_records hs).job j st h
  obtain ⟨q, hq, hjob, horigin⟩ := hstored.origin
  refine ⟨hstored.wellFormed, q, hq, ?_, hjob, horigin⟩
  intro q' hq' hjob'
  exact (reachable_placed hs).same_job hq' hq (hjob'.trans hjob.symm)

/-- A job whose record expires before it is marked. -/
def rebuilding : List (QueueAct Unit) :=
  [.enqueue "job" () 7, .ensureConsumerGroup, .readNew "worker" 1, .expire "job", .markGet 0 "worker" "token" 9,
    .markEval 0]

theorem record_invariant_rebuilt : ∃ s st, (jobQueue emptyDicts).runFrom (jobQueue emptyDicts).init rebuilding = some s ∧
    s.redis.job "job" = some st ∧ st.createdAtMs = 7 ∧ st.WellFormed := by
  have h : ((jobQueue emptyDicts).runFrom (jobQueue emptyDicts).init rebuilding).bind (fun s =>
      (s.redis.job "job").map fun st => decide (st.createdAtMs = 7)) = some true := by decide
  obtain ⟨s, hs, h⟩ := Option.bind_eq_some_iff.mp h
  obtain ⟨st, hst, h⟩ := Option.map_eq_some_iff.mp h
  exact ⟨s, st, hs, hst, of_decide_eq_true h, (record_invariant emptyDicts ⟨rebuilding, hs⟩ hst).1⟩

end

end InferenceService
