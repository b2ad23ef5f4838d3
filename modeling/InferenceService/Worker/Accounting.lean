import InferenceService.Jobs.Final
import InferenceService.Jobs.Records
import InferenceService.Worker.Attempts
import InferenceService.Worker.Calls
import Mathlib.Data.Set.Card

/-!
# What `process_once` accounts for

The counts of a call that returns, against the calls that it made and, on a
`RedisStreamJobQueue`, against the records that its scripts moved.
-/

namespace InferenceService

section
variable {V R : Type}

/-! ## The accounts -/

def granted (answers : Nat → JobMessage V → MessageAnswers V R) (ms : List (JobMessage V)) : List (JobLease V) :=
  ms.zipIdx.filterMap fun x => (answers x.2 x.1).grantedLease

/-- The requests of the granted leases whose payload validates. -/
def requested (G : RequestModel V R) (answers : Nat → JobMessage V → MessageAnswers V R) (ms : List (JobMessage V)) :
    List R :=
  ms.zipIdx.filterMap fun x => (answers x.2 x.1).grantedLease.bind fun _ => validRequest G x.1.payload

variable (J : JsonLib V) (G : RequestModel V R)

structure Accounts (w : JobWorker) (a : BatchAnswers V R) (reclaimed new : List (JobMessage V))
    (r : WorkerBatchResult) : Prop where
  counted : r.reclaimed = reclaimed.length ∧ r.receivedNew = new.length
  capacity : (r.reclaimed + r.receivedNew : Int) ≤ w.batchSize
  marked : (w.calls J G a).filterMap WorkerCall.markedMessage = reclaimed ++ new
  generated : (w.calls J G a).filterMap WorkerCall.request = requested G a.message (reclaimed ++ new)
  settled : (w.calls J G a).filterMap WorkerCall.settledLease = granted a.message (reclaimed ++ new)
  total : r.succeeded + r.failed + r.skipped = r.reclaimed + r.receivedNew
  succeeded : r.succeeded = (movedTo .succeeded (w.calls J G a)).length
  failed : r.failed = (movedTo .failed (w.calls J G a)).length

/-! ## Counting -/

variable {J G} {workerName : String} {answers : Nat → JobMessage V → MessageAnswers V R}

theorem movedTo_append (status : JobStatus) (calls calls' : List (WorkerCall V R)) :
    movedTo status (calls ++ calls') = movedTo status calls ++ movedTo status calls' := by
  simp [movedTo]

theorem not_granted {a : MessageAnswers V R} {m : JobMessage V} {outcome : MessageOutcome}
    (h : processMessage J G a m = .ok outcome) (hno : a.grantedLease = none) : outcome = .skipped := by
  unfold MessageAnswers.grantedLease at hno
  unfold processMessage at h
  cases hmark : a.markRunning with
  | error e => rw [hmark] at h; cases h
  | ok o =>
    rw [hmark] at h hno
    obtain rfl : o = none := hno
    exact (Except.ok.inj h).symm

theorem movedTo_message {a : MessageAnswers V R} {m : JobMessage V} {outcome : MessageOutcome}
    (h : processMessage J G a m = .ok outcome) (status : JobStatus) :
    (movedTo status (messageCalls J G workerName a m).1).length = if outcome.status = some status then 1 else 0 := by
  unfold movedTo
  rw [messageCalls_moved workerName h]
  cases hlease : a.grantedLease with
  | none =>
    obtain rfl := not_granted h hlease
    simp [MessageOutcome.status]
  | some lease =>
    cases hstatus : outcome.status with
    | none => simp
    | some s =>
      by_cases hs : s = status
      · simp [hs]
      · simp [hs]

theorem Tally.add_counts (t : Tally) (outcome : MessageOutcome) :
    (t.add outcome).succeeded = t.succeeded + (if outcome.status = some .succeeded then 1 else 0) ∧
    (t.add outcome).failed = t.failed + (if outcome.status = some .failed then 1 else 0) ∧
    (t.add outcome).succeeded + (t.add outcome).failed + (t.add outcome).skipped =
      t.succeeded + t.failed + t.skipped + 1 := by
  cases outcome <;> simp [Tally.add, MessageOutcome.status] <;> omega

/-- The loop adds every move and every message to the counts. -/
theorem batchCalls_counts {k : Nat} {ms : List (JobMessage V)} {t u : Tally}
    (h : (batchCalls J G workerName answers k ms t).2 = .ok u) :
    u.succeeded = t.succeeded + (movedTo .succeeded (batchCalls J G workerName answers k ms t).1).length ∧
    u.failed = t.failed + (movedTo .failed (batchCalls J G workerName answers k ms t).1).length ∧
    u.succeeded + u.failed + u.skipped = t.succeeded + t.failed + t.skipped + ms.length := by
  induction ms generalizing k t with
  | nil =>
    obtain rfl := Except.ok.inj h
    exact ⟨rfl, rfl, rfl⟩
  | cons m ms ih =>
    rw [batchCalls] at h ⊢
    cases hm : (messageCalls J G workerName (answers k m) m).2 with
    | error e => simp only [hm] at h; cases h
    | ok outcome =>
      simp only [hm] at h ⊢
      obtain ⟨hs, hf, htotal⟩ := ih h
      obtain ⟨hadds, haddf, haddt⟩ := t.add_counts outcome
      rw [messageCalls_snd] at hm
      rw [movedTo_append, movedTo_append, List.length_append, List.length_append, movedTo_message hm,
        movedTo_message hm, List.length_cons]
      omega

/-! ## A call that returns -/

theorem ensured_readNew {w w' : JobWorker} {a : BatchAnswers V R} (h : w.ensureConsumerGroup a = .ok w')
    (reclaimed : List (JobMessage V)) :
    w'.readNew a reclaimed = w.readNew a reclaimed ∧ w'.consumerName = w.consumerName := by
  unfold JobWorker.ensureConsumerGroup at h
  by_cases hready : w.consumerGroupReady = true
  · rw [if_pos hready] at h
    obtain rfl := Except.ok.inj h
    exact ⟨rfl, rfl⟩
  · rw [if_neg hready] at h
    cases hgroup : a.ensureConsumerGroup with
    | error e => rw [hgroup] at h; cases h
    | ok u =>
      rw [hgroup] at h
      obtain rfl := Except.ok.inj h
      exact ⟨rfl, rfl⟩

theorem processOnce_ok {w : JobWorker} {a : BatchAnswers V R} {r : WorkerBatchResult}
    (h : (w.processOnce J G a).result = .ok r) :
    ∃ next reclaimed new t, a.reclaimIdle = .ok (next, reclaimed) ∧ w.readNew a reclaimed = .ok new ∧
      w.calls J G a = (batchCalls J G w.consumerName a.message 0 (reclaimed ++ new) {}).1 ∧
      (batchCalls J G w.consumerName a.message 0 (reclaimed ++ new) {}).2 = .ok t ∧
      r = ⟨reclaimed.length, new.length, t.succeeded, t.failed, t.skipped⟩ := by
  unfold JobWorker.processOnce at h
  unfold JobWorker.calls
  cases hw : w.ensureConsumerGroup a with
  | error e => rw [hw] at h; cases h
  | ok w' =>
    simp only [hw] at h ⊢
    cases hreclaim : a.reclaimIdle with
    | error e => rw [hreclaim] at h; cases h
    | ok scan =>
      obtain ⟨next, reclaimed⟩ := scan
      obtain ⟨hread, hname⟩ := ensured_readNew hw reclaimed
      have hread' : ({ w' with reclaimStartId := next } : JobWorker).readNew a reclaimed = w.readNew a reclaimed :=
        hread
      simp only [hreclaim, JobWorker.processBatch, hread', hread] at h ⊢
      cases hnew : w.readNew a reclaimed with
      | error e => rw [hnew] at h; cases h
      | ok new =>
        simp only [hnew] at h ⊢
        cases ht : (processAll J G a.message 0 (reclaimed ++ new) {}).2 with
        | error e => rw [ht] at h; cases h
        | ok t =>
          rw [ht] at h
          obtain rfl := Except.ok.inj h
          exact ⟨next, reclaimed, new, t, rfl, hnew, by rw [hname], by rw [batchCalls_snd, ht], rfl⟩

theorem read_capacity {w : JobWorker} {a : BatchAnswers V R} {reclaimed new : List (JobMessage V)}
    (hreclaim : (reclaimed.length : Int) ≤ w.batchSize)
    (hnew : ∀ count blockMs new, 0 < count → a.readNew count blockMs = .ok new → (new.length : Int) ≤ count)
    (h : w.readNew a reclaimed = .ok new) : (reclaimed.length + new.length : Int) ≤ w.batchSize := by
  unfold JobWorker.readNew JobWorker.remainingCapacity at h
  rw [max_eq_left (by omega)] at h
  by_cases hfull : w.batchSize - reclaimed.length = 0
  · rw [if_pos hfull] at h
    obtain rfl := Except.ok.inj h
    simpa using hreclaim
  · rw [if_neg hfull] at h
    have := hnew _ _ _ (by omega) h
    omega

theorem returns_accounts {w : JobWorker} {a : BatchAnswers V R} {reclaimed new : List (JobMessage V)} {t : Tally}
    (hcapacity : (reclaimed.length + new.length : Int) ≤ w.batchSize)
    (hcalls : w.calls J G a = (batchCalls J G w.consumerName a.message 0 (reclaimed ++ new) {}).1)
    (hok : (batchCalls J G w.consumerName a.message 0 (reclaimed ++ new) {}).2 = .ok t) :
    Accounts J G w a reclaimed new ⟨reclaimed.length, new.length, t.succeeded, t.failed, t.skipped⟩ := by
  obtain ⟨hs, hf, htotal⟩ := batchCalls_counts hok
  refine ⟨⟨rfl, rfl⟩, hcapacity, ?_, ?_, ?_, ?_, ?_, ?_⟩
  · rw [hcalls, batchCalls_filterMap _ _ (fun _ _ _ _ => messageCalls_marked _ _ _) hok]
    rw [← List.map_eq_flatMap, List.zipIdx_map_fst]
  · rw [hcalls, batchCalls_filterMap _ _ (fun _ _ _ _ => messageCalls_request _ _ _) hok, requested,
      List.filterMap_eq_flatMap_toList]
  · rw [hcalls, batchCalls_filterMap _ _ (fun _ _ _ hm => messageCalls_settled _ hm) hok, granted,
      List.filterMap_eq_flatMap_toList]
  · simpa using htotal
  · rw [hcalls, hs]
    exact Nat.zero_add _
  · rw [hcalls, hf]
    exact Nat.zero_add _

/-! ## On Redis -/

def JobOutcome.status : JobOutcome V → JobStatus
  | .complete _ => .succeeded
  | .fail _ _ => .failed

/-- Between the two states the record of the job takes the status. -/
def MovesTo (status : JobStatus) (j : String) (s t : QueueSys V) : Prop :=
  (∃ st, s.redis.job j = some st ∧ st.status ≠ status) ∧ ∃ st, t.redis.job j = some st ∧ st.status = status

/-- A call of `complete` or `fail`: what it returns, the state in which its
script arrives and the state after it. The caller that gets an exception does
not learn whether the script has run. -/
inductive Finalizes (J : JsonLib V) (lease : JobLease V) (outcome : JobOutcome V) :
    Except JobQueueError Bool → QueueSys V → QueueSys V → Prop where
  | unsent {read : Option (JobState V)} {nowMs : Int} {evalReply : Except RedisError Nat} {s : QueueSys V}
      (hno : ∀ c, finalizeCall J lease read outcome nowMs ≠ .ok (some c)) :
      Finalizes J lease outcome (finalize J lease outcome nowMs (.ok read) evalReply) s s
  | sent {read : Option (JobState V)} {nowMs : Int} {c : FinalizeCall V} {i : Nat} {s t : QueueSys V}
      (hcall : finalizeCall J lease read outcome nowMs = .ok (some c)) (hc : s.finalizing[i]? = some c)
      (ht : (jobQueue J).step s (.finalizeEval i) = some t) :
      Finalizes J lease outcome (finalize J lease outcome nowMs (.ok read) (finalizeLua c s.redis).1) s t
  | raised {e : JobQueueError} {s t : QueueSys V} (h : Later J s t) : Finalizes J lease outcome (.error e) s t

def WorkerCall.On (J : JsonLib V) (s t : QueueSys V) : WorkerCall V R → Prop
  | complete lease result finalized => Finalizes J lease (.complete result) finalized s t
  | fail lease errorType errorMessage finalized => Finalizes J lease (.fail errorType errorMessage) finalized s t
  | _ => s = t

/-- The queue of the calls is a `RedisStreamJobQueue`: the message at `k` is
settled between `before k` and `after k`, with any steps of other clients
between the messages. -/
structure OnRedis (J : JsonLib V) (G : RequestModel V R) (answers : Nat → JobMessage V → MessageAnswers V R)
    (k : Nat) (ms : List (JobMessage V)) (before after : Nat → QueueSys V) : Prop where
  start : (jobQueue J).Reachable (before k)
  later : ∀ i, Later J (after i) (before (i + 1))
  settles : ∀ x ∈ ms.zipIdx k, ∀ lease, (answers x.2 x.1).grantedLease = some lease →
    ∀ call ∈ settleCall J G (answers x.2 x.1) lease x.1.payload, call.On J (before x.2) (after x.2)
  skips : ∀ x ∈ ms.zipIdx k, (answers x.2 x.1).grantedLease = none → before x.2 = after x.2

section
variable {lease : JobLease V} {outcome : JobOutcome V} {reply : Except JobQueueError Bool} {s t : QueueSys V}

theorem Finalizes.later (h : Finalizes J lease outcome reply s t) : Later J s t := by
  cases h with
  | unsent => exact ⟨[], rfl⟩
  | sent _ _ ht => exact ⟨[_], by rw [Lts.runFrom_cons, ht]; rfl⟩
  | raised h => exact h

theorem not_moves {status : JobStatus} {j : String} (h : s.redis.job j = t.redis.job j) : ¬ MovesTo status j s t := by
  intro ⟨⟨st, hst, hne⟩, st', hst', heq⟩
  rw [h, hst'] at hst
  obtain rfl := Option.some.inj hst
  exact hne heq

theorem finalized_status (c : FinalizeCall V) : c.state.status = c.outcome.status := by
  unfold FinalizeCall.state JobOutcome.status
  cases c.outcome <;> rfl

theorem finalizeCall_eq {read : Option (JobState V)} {nowMs : Int} {c : FinalizeCall V}
    (h : finalizeCall J lease read outcome nowMs = .ok (some c)) : c.lease = lease ∧ c.outcome = outcome := by
  refine ⟨finalizeCall_lease h, ?_⟩
  unfold finalizeCall at h
  split at h
  · cases h
  · cases he : encodeOutcome J outcome with
    | error e => rw [he] at h; cases h
    | ok u =>
      rw [he] at h
      obtain rfl := Option.some.inj (Except.ok.inj h)
      rfl

theorem finalize_sent {read : Option (JobState V)} {nowMs : Int} {c : FinalizeCall V}
    (h : finalizeCall J lease read outcome nowMs = .ok (some c)) (evalReply : Except RedisError Nat) :
    finalize J lease outcome nowMs (.ok read) evalReply = finalizeResult evalReply := by
  unfold finalize
  simp only [getJob, h]

theorem finalize_unsent {read : Option (JobState V)} {nowMs : Int} {evalReply : Except RedisError Nat}
    (h : ∀ c, finalizeCall J lease read outcome nowMs ≠ .ok (some c)) :
    finalize J lease outcome nowMs (.ok read) evalReply ≠ .ok true := by
  unfold finalize
  simp only [getJob]
  cases hcall : finalizeCall J lease read outcome nowMs with
  | error e =>
    intro hok
    cases hok
  | ok o =>
    cases o with
    | none =>
      intro hok
      cases hok
    | some c => exact absurd hcall (h c)

/-- A call that returns `True` has written the running record of its job; one
that returns `False` has written nothing. -/
theorem Finalizes.cases (h : Finalizes J lease outcome reply s t) (hs : (jobQueue J).Reachable s) {finalized : Bool}
    (hok : reply = .ok finalized) :
    (finalized = false ∧ t.redis = s.redis) ∨
      (finalized = true ∧ ∃ c current, c.lease = lease ∧ c.outcome = outcome ∧
        s.redis.job lease.message.jobId = some current ∧ current.status = .running ∧
        t.redis = c.finalized s.redis ∧ t.log = .finalized c :: s.log) := by
  cases h with
  | unsent hno =>
    cases finalized with
    | false => exact .inl ⟨rfl, rfl⟩
    | true => exact absurd hok (finalize_unsent hno)
  | raised => cases hok
  | @sent read nowMs c i _ _ hcall hc ht =>
    obtain ⟨hlease, houtcome⟩ := finalizeCall_eq hcall
    rw [finalize_sent hcall] at hok
    have hleases := (reachable_placed hs).finalizing c (List.mem_of_getElem? hc)
    simp only [jobQueue, QueueSys.step, hc, Option.map_some, Option.some.injEq] at ht
    rcases finalize_cases c s.redis with ⟨⟨howner, current, hjob, htoken⟩, hlua⟩ | ⟨hno, _⟩
    · rw [hlua] at hok ht
      obtain rfl := Except.ok.inj hok
      rw [hlease] at hjob htoken
      have hwell := ((reachable_records hs).job _ _ hjob).wellFormed
      refine .inr ⟨rfl, c, current, hlease, houtcome, hjob, hwell.running_of_token ?_, ?_, ?_⟩
      · rw [htoken]
        exact Option.some_ne_none _
      · rw [← ht]
      · rw [← ht]
        rfl
    · have hlua := finalize_zero ((reachable_fenced hs).grouped (List.ne_nil_of_mem hleases)) hno
      rw [hlua] at hok ht
      obtain rfl := Except.ok.inj hok
      exact .inl ⟨rfl, by rw [← ht]⟩

/-- The call that returns `True` is the one whose script moves the job. -/
theorem Finalizes.moves_iff (h : Finalizes J lease outcome reply s t) (hs : (jobQueue J).Reachable s) {finalized : Bool}
    (hok : reply = .ok finalized) (status : JobStatus) (j : String) :
    MovesTo status j s t ↔ finalized = true ∧ outcome.status = status ∧ lease.message.jobId = j := by
  rcases h.cases hs hok with ⟨rfl, hsame⟩ | ⟨rfl, c, current, hlease, houtcome, hjob, hrun, hredis, _⟩
  · exact ⟨fun hm => absurd hm (not_moves (by rw [hsame])), fun hno => absurd hno.1 Bool.false_ne_true⟩
  · have hwrite : t.redis.job = Function.update s.redis.job lease.message.jobId (some c.state) := by
      rw [hredis, ← hlease]
      rfl
    constructor
    · intro hm
      by_cases hj : lease.message.jobId = j
      · obtain ⟨_, st, hst, hstatus⟩ := hm
        rw [hwrite, ← hj, Function.update_self] at hst
        obtain rfl := Option.some.inj hst
        exact ⟨rfl, by rw [← houtcome, ← finalized_status, hstatus], hj⟩
      · exact absurd hm (not_moves (by rw [hwrite, Function.update_of_ne (Ne.symm hj)]))
    · intro h
      obtain ⟨_, rfl, rfl⟩ := h
      refine ⟨⟨current, hjob, ?_⟩, c.state, ?_, by rw [finalized_status, houtcome]⟩
      · rw [hrun]
        cases outcome <;> exact nofun
      · rw [hwrite, Function.update_self]

/-- A job that the call moves was not finished before and is after. -/
theorem Finalizes.finishes (h : Finalizes J lease outcome reply s t) (hs : (jobQueue J).Reachable s)
    (hok : reply = .ok true) :
    lease.message.jobId ∉ finalizedJobs s.log ∧ lease.message.jobId ∈ finalizedJobs t.log := by
  obtain ⟨as, hrun⟩ := h.later
  have hnodup := (reachable_placed (hs.run hrun)).finalized_nodup
  rcases h.cases hs hok with ⟨hno, _⟩ | ⟨_, c, _, rfl, _, _, _, _, hlog⟩
  · cases hno
  · rw [hlog] at hnodup ⊢
    exact ⟨(List.nodup_cons.mp hnodup).1, List.mem_cons_self⟩

end

theorem Later.reachable {s t : QueueSys V} (h : Later J s t) (hs : (jobQueue J).Reachable s) :
    (jobQueue J).Reachable t := by
  obtain ⟨as, hr⟩ := h
  exact hs.run hr

theorem Later.finalizedJobs {s t : QueueSys V} (h : Later J s t) (hs : (jobQueue J).Reachable s) {j : String}
    (hj : j ∈ finalizedJobs s.log) : j ∈ finalizedJobs t.log := by
  obtain ⟨as, hr⟩ := h
  refine Lts.run_preserves (P := fun u => j ∈ InferenceService.finalizedJobs u.log) ?_ as hs hj hr
  intro u a v hu hfin hstep
  exact finalizedJobs_mono (job_moves (reachable_placed hu).intact hstep) hfin

theorem settleCall_settles {a : MessageAnswers V R} {m : JobMessage V} {outcome : MessageOutcome}
    {lease : JobLease V} {s t : QueueSys V} (hok : processMessage J G a m = .ok outcome)
    (hlease : a.grantedLease = some lease) (hon : ∀ call ∈ settleCall J G a lease m.payload, call.On J s t) :
    ∃ final finalized, Finalizes J lease final (.ok finalized) s t ∧
      (settleCall J G a lease m.payload).bind WorkerCall.moved =
        if finalized then some (lease.message.jobId, final.status) else none := by
  obtain ⟨call, hcall, _, _⟩ := settleCall_ok hok hlease
  have hsettles := hon call hcall
  have hmark : a.markRunning = .ok (some lease) := by
    unfold MessageAnswers.grantedLease at hlease
    cases hm : a.markRunning with
    | error e => rw [hm] at hlease; cases hlease
    | ok o => rw [hm] at hlease; exact congrArg Except.ok hlease
  rw [hcall, Option.bind_some]
  unfold processMessage at hok
  simp only [hmark] at hok
  rcases settleCall_cases hcall with ⟨exc, message, hmessage, hattempt, rfl⟩ | ⟨result, hattempt, rfl⟩
  · simp only [hattempt, hmessage] at hok
    obtain ⟨finalized, hfail, _⟩ := map_eq_ok.mp hok
    rw [hfail] at hsettles ⊢
    refine ⟨_, finalized, hsettles, ?_⟩
    cases finalized <;> rfl
  · simp only [hattempt] at hok
    obtain ⟨finalized, hcomplete, _⟩ := map_eq_ok.mp hok
    rw [hcomplete] at hsettles ⊢
    refine ⟨_, finalized, hsettles, ?_⟩
    cases finalized <;> rfl

/-- The move of the message at a position. -/
def moveAt (J : JsonLib V) (G : RequestModel V R) (answers : Nat → JobMessage V → MessageAnswers V R)
    (x : JobMessage V × Nat) : Option (String × JobStatus) :=
  (answers x.2 x.1).grantedLease.bind fun lease =>
    (settleCall J G (answers x.2 x.1) lease x.1.payload).bind WorkerCall.moved

section
variable {k : Nat} {ms : List (JobMessage V)} {before after : Nat → QueueSys V} {x : JobMessage V × Nat}
  {outcome : MessageOutcome}

theorem OnRedis.at_message (h : OnRedis J G answers k ms before after) (hx : x ∈ ms.zipIdx k)
    (hok : processMessage J G (answers x.2 x.1) x.1 = .ok outcome) :
    (before x.2 = after x.2 ∧ moveAt J G answers x = none) ∨
      ∃ lease final finalized, Finalizes J lease final (.ok finalized) (before x.2) (after x.2) ∧
        moveAt J G answers x = if finalized then some (lease.message.jobId, final.status) else none := by
  unfold moveAt
  cases hlease : (answers x.2 x.1).grantedLease with
  | none => exact .inl ⟨h.skips x hx hlease, rfl⟩
  | some lease =>
    obtain ⟨final, finalized, hsettles, hmoved⟩ := settleCall_settles hok hlease (h.settles x hx lease hlease)
    exact .inr ⟨lease, final, finalized, hsettles, hmoved⟩

theorem OnRedis.moves_iff (h : OnRedis J G answers k ms before after) (hx : x ∈ ms.zipIdx k)
    (hok : processMessage J G (answers x.2 x.1) x.1 = .ok outcome) (hs : (jobQueue J).Reachable (before x.2))
    (status : JobStatus) (j : String) :
    moveAt J G answers x = some (j, status) ↔ MovesTo status j (before x.2) (after x.2) := by
  rcases h.at_message hx hok with ⟨hsame, hnone⟩ | ⟨lease, final, finalized, hsettles, hmoved⟩
  · rw [hnone]
    exact ⟨nofun, fun hm => absurd hm (not_moves (by rw [hsame]))⟩
  · rw [hmoved, hsettles.moves_iff hs rfl]
    cases finalized <;> simp [and_comm]

theorem OnRedis.finishes (h : OnRedis J G answers k ms before after) (hx : x ∈ ms.zipIdx k)
    (hok : processMessage J G (answers x.2 x.1) x.1 = .ok outcome) (hs : (jobQueue J).Reachable (before x.2))
    {move : String × JobStatus} (hmove : moveAt J G answers x = some move) :
    move.1 ∉ finalizedJobs (before x.2).log ∧ move.1 ∈ finalizedJobs (after x.2).log := by
  rcases h.at_message hx hok with ⟨_, hnone⟩ | ⟨lease, final, finalized, hsettles, hmoved⟩
  · rw [hnone] at hmove
    cases hmove
  · cases finalized with
    | false => rw [hmoved] at hmove; cases hmove
    | true =>
      rw [hmoved] at hmove
      obtain rfl := Option.some.inj hmove
      exact hsettles.finishes hs rfl

theorem OnRedis.passes (h : OnRedis J G answers k ms before after) (hx : x ∈ ms.zipIdx k)
    (hok : processMessage J G (answers x.2 x.1) x.1 = .ok outcome) : Later J (before x.2) (after x.2) := by
  rcases h.at_message hx hok with ⟨hsame, _⟩ | ⟨_, _, _, hsettles, _⟩
  · exact ⟨[], by rw [hsame]; rfl⟩
  · exact hsettles.later

theorem OnRedis.tail {m : JobMessage V} (h : OnRedis J G answers k (m :: ms) before after)
    (hok : processMessage J G (answers k m) m = .ok outcome) : OnRedis J G answers (k + 1) ms before after := by
  have hafter := h.passes (x := (m, k)) (by simp) hok
  have hmem : ∀ x ∈ ms.zipIdx (k + 1), x ∈ (m :: ms).zipIdx k := by
    intro x hx
    rw [List.zipIdx_cons]
    exact List.mem_cons_of_mem _ hx
  exact ⟨(h.later k).reachable (hafter.reachable h.start), h.later, fun x hx => h.settles x (hmem x hx),
    fun x hx => h.skips x (hmem x hx)⟩

theorem exists_position_cons {P : Nat → Prop} {k n : Nat} :
    (∃ i, k ≤ i ∧ i < k + (n + 1) ∧ P i) ↔ P k ∨ ∃ i, k + 1 ≤ i ∧ i < k + 1 + n ∧ P i := by
  constructor
  · intro h
    obtain ⟨i, hle, hlt, hi⟩ := h
    rcases Nat.eq_or_lt_of_le hle with rfl | hlt'
    · exact .inl hi
    · exact .inr ⟨i, hlt', by omega, hi⟩
  · intro h
    rcases h with hk | ⟨i, hle, hlt, hi⟩
    · exact ⟨k, le_refl k, by omega, hk⟩
    · exact ⟨i, by omega, by omega, hi⟩

/-- The moves of a batch are of different jobs, none of them finished before,
and they are the jobs whose records the scripts moved. -/
theorem OnRedis.moves (h : OnRedis J G answers k ms before after)
    (hok : ∀ x ∈ ms.zipIdx k, ∃ outcome, processMessage J G (answers x.2 x.1) x.1 = .ok outcome) :
    (((ms.zipIdx k).filterMap (moveAt J G answers)).map Prod.fst).Nodup ∧
    (∀ move ∈ (ms.zipIdx k).filterMap (moveAt J G answers), move.1 ∉ finalizedJobs (before k).log) ∧
    ∀ status j, (j, status) ∈ (ms.zipIdx k).filterMap (moveAt J G answers) ↔
      ∃ i, k ≤ i ∧ i < k + ms.length ∧ MovesTo status j (before i) (after i) := by
  induction ms generalizing k with
  | nil =>
    refine ⟨List.nodup_nil, fun move hm => absurd hm List.not_mem_nil, fun status j => ⟨nofun, ?_⟩⟩
    intro h
    obtain ⟨i, hle, hlt, _⟩ := h
    rw [List.length_nil] at hlt
    omega
  | cons m ms ih =>
    rw [List.zipIdx_cons, List.forall_mem_cons] at hok
    obtain ⟨⟨outcome, hm⟩, hrest⟩ := hok
    have hmem : (m, k) ∈ (m :: ms).zipIdx k := by simp
    obtain ⟨hnodup, hfresh, hiff⟩ := ih (h.tail hm) hrest
    have hafter := h.passes hmem hm
    have hkeep : ∀ j ∈ finalizedJobs (after k).log, j ∈ finalizedJobs (before (k + 1)).log := fun j hj =>
      (h.later k).finalizedJobs (hafter.reachable h.start) hj
    have hback : ∀ move ∈ (ms.zipIdx (k + 1)).filterMap (moveAt J G answers),
        move.1 ∉ finalizedJobs (before k).log := fun move hmove hfin =>
      hfresh move hmove (hkeep _ (hafter.finalizedJobs h.start hfin))
    have hhead := h.moves_iff hmem hm h.start
    have hcons : ∀ status j, (∃ i, k ≤ i ∧ i < k + (m :: ms).length ∧ MovesTo status j (before i) (after i)) ↔
        moveAt J G answers (m, k) = some (j, status) ∨
          (j, status) ∈ (ms.zipIdx (k + 1)).filterMap (moveAt J G answers) := by
      intro status j
      rw [hhead, hiff, List.length_cons, exists_position_cons]
    rw [List.zipIdx_cons]
    cases hmove : moveAt J G answers (m, k) with
    | none =>
      rw [List.filterMap_cons_none hmove]
      refine ⟨hnodup, hback, fun status j => ?_⟩
      rw [hcons, hmove]
      exact ⟨.inr, fun hor => hor.resolve_left nofun⟩
    | some move =>
      obtain ⟨hnot, hfin⟩ := h.finishes hmem hm h.start hmove
      rw [List.filterMap_cons_some hmove, List.map_cons, List.nodup_cons, List.forall_mem_cons]
      refine ⟨⟨?_, hnodup⟩, ⟨hnot, hback⟩, fun status j => ?_⟩
      · intro hdup
        obtain ⟨move', hmove', heq⟩ := List.mem_map.mp hdup
        exact hfresh move' hmove' (hkeep _ (heq ▸ hfin))
      · rw [hcons, hmove, List.mem_cons, Option.some.injEq, eq_comm]

/-- On Redis a count is the number of jobs that the call has moved. -/
theorem OnRedis.moved_ncard (h : OnRedis J G answers 0 ms before after) {t u : Tally}
    (hok : (batchCalls J G workerName answers 0 ms t).2 = .ok u) (status : JobStatus) :
    (movedTo status (batchCalls J G workerName answers 0 ms t).1).length =
      {j | ∃ i < ms.length, MovesTo status j (before i) (after i)}.ncard := by
  obtain ⟨hnodup, _, hiff⟩ := h.moves (batchCalls_ok hok).1
  have hmoves : (batchCalls J G workerName answers 0 ms t).1.filterMap WorkerCall.moved =
      ms.zipIdx.filterMap (moveAt J G answers) := by
    rw [batchCalls_filterMap _ _ (fun _ _ _ _ => messageCalls_moved_eq _ _ _) hok, List.filterMap_eq_flatMap_toList]
    rfl
  have hsub : (movedTo status (batchCalls J G workerName answers 0 ms t).1).Nodup := by
    unfold movedTo
    rw [hmoves]
    exact hnodup.sublist (List.filter_sublist.map _)
  have hset : {j | ∃ i < ms.length, MovesTo status j (before i) (after i)} =
      ↑(movedTo status (batchCalls J G workerName answers 0 ms t).1).toFinset := by
    ext j
    show (∃ i < ms.length, MovesTo status j (before i) (after i)) ↔ j ∈ (_ : Finset String)
    rw [List.mem_toFinset, movedTo, hmoves, List.mem_map]
    constructor
    · intro h
      obtain ⟨i, hlt, hmove⟩ := h
      refine ⟨(j, status), List.mem_filter.mpr ⟨?_, decide_eq_true rfl⟩, rfl⟩
      exact (hiff status j).mpr ⟨i, Nat.zero_le i, by omega, hmove⟩
    · intro h
      obtain ⟨⟨j', status'⟩, hmove, rfl⟩ := h
      obtain ⟨hmem, hstatus⟩ := List.mem_filter.mp hmove
      obtain rfl : status' = status := of_decide_eq_true hstatus
      obtain ⟨i, _, hlt, hmove⟩ := (hiff status' j').mp hmem
      exact ⟨i, by omega, hmove⟩
  rw [hset, Set.ncard_coe_finset, List.toFinset_card_of_nodup hsub]

end

end

/-! ## A batch of two -/

def finishing : QueueSys Unit :=
  ((jobQueue emptyDicts).runFrom (jobQueue emptyDicts).init completing).getD (jobQueue emptyDicts).init

def finished : QueueSys Unit := ((jobQueue emptyDicts).step finishing (.finalizeEval 0)).getD finishing

def lostMessage : JobMessage Unit := ⟨⟨0, 7⟩, "lost", (), 7, true⟩

def finishingMessage : JobMessage Unit := ⟨⟨0, 1⟩, "job", (), 7, false⟩

def finishingAnswers : BatchAnswers Unit Unit where
  ensureConsumerGroup := .ok ()
  reclaimIdle := .ok (⊥, [lostMessage])
  readNew count _ := .ok ([finishingMessage].take count.toNat)
  message k message :=
    { markRunning := .ok (if k = 0 then none else some ⟨message, "worker", "token"⟩)
      generateText := fun _ => .ok ()
      complete := fun lease result =>
        finalize emptyDicts lease (.complete result) 9 (.ok (finishing.redis.job "job")) (.ok 1)
      fail := fun _ _ _ => .ok false }

theorem worker_name_ne : "worker" ≠ "" := by decide

def finishingWorker : JobWorker := ⟨"worker", 2, 2, 3, true, ⊥, worker_name_ne, by decide, by decide, by decide⟩

def finishingCall : FinalizeCall Unit where
  lease := ⟨finishingMessage, "worker", "token"⟩
  read := ⟨"job", .running, 7, 8, 1, some "worker", some "token", none, none, none⟩
  outcome := .complete ()
  nowMs := 9

def finishingBefore : Nat → QueueSys Unit
  | 0 => finishing
  | 1 => finishing
  | _ => finished

theorem finishing_onRedis : OnRedis emptyDicts anyPrompt finishingAnswers.message 0 [lostMessage, finishingMessage]
    finishingBefore (fun i => finishingBefore (i + 1)) where
  start := ⟨completing, rfl⟩
  later i := ⟨[], rfl⟩
  settles := by
    intro x hx lease hlease
    simp only [List.zipIdx_cons, List.zipIdx_nil, List.mem_cons, List.not_mem_nil, or_false] at hx
    rcases hx with rfl | rfl
    · cases hlease
    · obtain rfl := Option.some.inj hlease
      intro call hsettle
      obtain rfl := Option.some.inj hsettle
      have hcall : finalizeCall emptyDicts finishingCall.lease (finishing.redis.job "job") finishingCall.outcome 9 =
          .ok (some finishingCall) := rfl
      have ht : (jobQueue emptyDicts).step finishing (.finalizeEval 0) = some finished := rfl
      exact .sent hcall rfl ht
  skips := by
    intro x hx hnone
    simp only [List.zipIdx_cons, List.zipIdx_nil, List.mem_cons, List.not_mem_nil, or_false] at hx
    rcases hx with rfl | rfl
    · rfl
    · cases hnone

section
variable {V R : Type} (J : JsonLib V) (G : RequestModel V R)

theorem process_once_accounted (w : JobWorker) (a : BatchAnswers V R)
    (hreclaim : ∀ next reclaimed, a.reclaimIdle = .ok (next, reclaimed) → (reclaimed.length : Int) ≤ w.batchSize)
    (hnew : ∀ count blockMs new, 0 < count → a.readNew count blockMs = .ok new → (new.length : Int) ≤ count)
    {r : WorkerBatchResult} (hr : (w.processOnce J G a).result = .ok r) :
    ∃ next reclaimed new, a.reclaimIdle = .ok (next, reclaimed) ∧ w.readNew a reclaimed = .ok new ∧
      Accounts J G w a reclaimed new r ∧
      ∀ before after, OnRedis J G a.message 0 (reclaimed ++ new) before after →
        r.succeeded = {j | ∃ i < (reclaimed ++ new).length, MovesTo .succeeded j (before i) (after i)}.ncard ∧
        r.failed = {j | ∃ i < (reclaimed ++ new).length, MovesTo .failed j (before i) (after i)}.ncard := by
  obtain ⟨next, reclaimed, new, t, hreclaimed, hread, hcalls, hok, rfl⟩ := processOnce_ok hr
  have hacc := returns_accounts (read_capacity (hreclaim _ _ hreclaimed) hnew hread) hcalls hok
  refine ⟨next, reclaimed, new, hreclaimed, hread, hacc, fun before after h => ⟨?_, ?_⟩⟩
  · rw [hacc.succeeded, hcalls, h.moved_ncard hok]
  · rw [hacc.failed, hcalls, h.moved_ncard hok]

end

theorem process_once_accounted_pair :
    ∃ r, (finishingWorker.processOnce emptyDicts anyPrompt finishingAnswers).result = .ok r ∧ r = ⟨1, 1, 1, 0, 1⟩ ∧
      r.succeeded = {j | ∃ i < 2, MovesTo .succeeded j (finishingBefore i) (finishingBefore (i + 1))}.ncard := by
  have hnew : ∀ count blockMs new, 0 < count → finishingAnswers.readNew count blockMs = .ok new →
      (new.length : Int) ≤ count := by
    intro count blockMs new hpos h
    cases h
    rw [List.length_take]
    omega
  refine ⟨_, rfl, rfl, ?_⟩
  obtain ⟨next, reclaimed, new, hreclaim, hread, _, hredis⟩ := process_once_accounted emptyDicts anyPrompt
    finishingWorker finishingAnswers (fun next reclaimed h => by cases h; decide) hnew rfl
  cases hreclaim
  cases hread
  exact (hredis _ _ finishing_onRedis).1

end InferenceService
