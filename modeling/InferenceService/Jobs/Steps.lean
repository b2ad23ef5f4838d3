import InferenceService.Jobs.System

/-!
# What a step of the job queue can do

The two scripts by their outcome, then one constructor for each kind of step.
-/

namespace InferenceService

section
variable {V : Type}

theorem xpending_owner {s : JobStream} {id : StreamId} {c : String} (h : s.owner id = some c) :
    ∃ n, s.xpending id = some [n] ∧ n.consumer = c := by
  unfold Redis.Stream.owner at h
  obtain ⟨g, hg, h⟩ := Option.bind_eq_some_iff.mp h
  obtain ⟨n, hn, rfl⟩ := Option.map_eq_some_iff.mp h
  exact ⟨n, by simp [Redis.Stream.xpending, hg, hn], rfl⟩

theorem owner_of_xpending {s : JobStream} {id : StreamId} {n : Redis.Nack StreamId String}
    {ns : List (Redis.Nack StreamId String)} (h : s.xpending id = some (n :: ns)) :
    s.owner id = some n.consumer := by
  unfold Redis.Stream.xpending at h
  obtain ⟨g, hg, h⟩ := Option.map_eq_some_iff.mp h
  cases hf : g.find id with
  | none => rw [hf] at h; cases h
  | some m =>
    rw [hf] at h
    obtain ⟨rfl, _⟩ := List.cons.inj h
    simp [Redis.Stream.owner, hg, hf]

theorem markRunning_cases (c : MarkCall V) (r : JobRedis V) :
    (r.stream.owner c.message.streamId = some c.workerName ∧
        markRunningLua c r = (.ok 1, r.set c.message.jobId c.state)) ∨
      (r.stream.owner c.message.streamId ≠ some c.workerName ∧
        (markRunningLua c r).1.toOption ≠ some 1 ∧ (markRunningLua c r).2 = r) := by
  by_cases h : r.stream.owner c.message.streamId = some c.workerName
  · obtain ⟨n, hn, hc⟩ := xpending_owner h
    refine .inl ⟨h, ?_⟩
    simp [markRunningLua, hn, hc]
  · refine .inr ⟨h, ?_⟩
    unfold markRunningLua
    split
    · exact ⟨nofun, rfl⟩
    · exact ⟨nofun, rfl⟩
    · rename_i n ns hn
      have hne : n.consumer ≠ c.workerName := fun heq => h (by rw [owner_of_xpending hn, heq])
      rw [if_pos hne]
      exact ⟨nofun, rfl⟩

def FinalizeCall.Passes (c : FinalizeCall V) (r : JobRedis V) : Prop :=
  r.stream.owner c.lease.message.streamId = some c.lease.workerName ∧
    ∃ current, r.job c.lease.message.jobId = some current ∧
      current.deliveryToken = some c.lease.deliveryToken

def FinalizeCall.finalized (c : FinalizeCall V) (r : JobRedis V) : JobRedis V :=
  { r.set c.lease.message.jobId c.state with
    stream := (r.stream.xack c.lease.message.streamId).xdel c.lease.message.streamId }

theorem finalize_cases (c : FinalizeCall V) (r : JobRedis V) :
    (c.Passes r ∧ finalizeLua c r = (.ok 1, c.finalized r)) ∨
      (¬ c.Passes r ∧ (finalizeLua c r).1.toOption ≠ some 1 ∧ (finalizeLua c r).2 = r) := by
  by_cases h : c.Passes r
  · obtain ⟨howner, current, hj, ht⟩ := h
    obtain ⟨n, hn, hc⟩ := xpending_owner howner
    refine .inl ⟨⟨howner, current, hj, ht⟩, ?_⟩
    simp [finalizeLua, hn, hc, hj, ht, FinalizeCall.finalized, JobRedis.set]
  · refine .inr ⟨h, ?_⟩
    unfold finalizeLua
    split
    · exact ⟨nofun, rfl⟩
    · exact ⟨nofun, rfl⟩
    · rename_i n ns hn
      by_cases hc : n.consumer = c.lease.workerName
      · rw [if_neg (not_not.mpr hc)]
        split
        · exact ⟨nofun, rfl⟩
        · rename_i current hj
          have ht : current.deliveryToken ≠ some c.lease.deliveryToken := fun ht =>
            h ⟨by rw [owner_of_xpending hn, hc], current, hj, ht⟩
          rw [if_pos ht]
          exact ⟨nofun, rfl⟩
      · rw [if_pos hc]
        exact ⟨nofun, rfl⟩

/-! ## The kinds of step -/

variable (J : JsonLib V)

inductive JobMoves (s : QueueSys V) : QueueAct V → QueueSys V → Prop where
  | tick (ms : Nat) : JobMoves s (.tick ms) { s with redis := { s.redis with now := s.redis.now + ms } }
  | expire (jobId : String) :
      JobMoves s (.expire jobId) { s with redis := { s.redis with job := Function.update s.redis.job jobId none } }
  | serve {a : QueueAct V} (stream : JobStream) (entries : List (StreamId × List (String × String)))
      (reclaimed : Bool) (claiming : List ClaimCall) (he : stream.entries = s.redis.stream.entries)
      (hl : stream.lastId = s.redis.stream.lastId) (hi : stream.Intact)
      (hg : s.redis.stream.group.isSome = true → stream.group.isSome = true)
      (hm : ∀ e ∈ entries, e ∈ s.redis.stream.entries) :
      JobMoves s a { s.withStream stream with
        messages := s.messages ++ received J reclaimed (entries.map some), claiming }
  | enqueue {jobId : String} {payload : V} {payloadJson : String} {nowMs : Int} (hid : jobId ≠ "")
      (hfresh : jobId ∉ s.jobIds) (hd : J.isDict payload = true) (hj : J.dumps payload = .ok payloadJson) :
      JobMoves s (.enqueue jobId payload nowMs) { s with
        redis := enqueueExec jobId payloadJson nowMs s.redis
        jobIds := jobId :: s.jobIds
        log := .enqueued ⟨(enqueueExec jobId payloadJson nowMs s.redis).stream.lastId, jobId, payload,
          payloadJson, nowMs⟩ :: s.log }
  | markGet {k : Nat} {message : JobMessage V} {workerName token : String} {nowMs : Int}
      (hm : message ∈ s.messages) (hfresh : token ∉ s.tokens) :
      JobMoves s (.markGet k workerName token nowMs) { s with
        tokens := token :: s.tokens
        marking := s.marking ++ [⟨message, workerName, token, s.redis.job message.jobId, nowMs⟩] }
  | marked {k : Nat} {c : MarkCall V} (hc : s.marking[k]? = some c)
      (howner : s.redis.stream.owner c.message.streamId = some c.workerName) :
      JobMoves s (.markEval k) { s with
        redis := s.redis.set c.message.jobId c.state
        marking := s.marking.eraseIdx k
        log := .marked c :: s.log }
  | markRefused {k : Nat} : JobMoves s (.markEval k) { s with marking := s.marking.eraseIdx k }
  | finalizeGet {k : Nat} {c : FinalizeCall V} {outcome : JobOutcome V} {nowMs : Int}
      (hc : c.lease ∈ leases s.log) :
      JobMoves s (.finalizeGet k outcome nowMs) { s with finalizing := s.finalizing ++ [c] }
  | finalized {k : Nat} {c : FinalizeCall V} (hc : s.finalizing[k]? = some c) (hp : c.Passes s.redis) :
      JobMoves s (.finalizeEval k) { s with
        redis := c.finalized s.redis
        finalizing := s.finalizing.eraseIdx k
        log := .finalized c :: s.log }
  | finalizeRefused {k : Nat} : JobMoves s (.finalizeEval k) { s with finalizing := s.finalizing.eraseIdx k }

variable {J} {s s' : QueueSys V} {a : QueueAct V}

theorem finalizeCall_lease {lease : JobLease V} {read : Option (JobState V)} {outcome : JobOutcome V} {nowMs : Int}
    {c : FinalizeCall V} (h : finalizeCall J lease read outcome nowMs = .ok (some c)) : c.lease = lease := by
  unfold finalizeCall at h
  split at h
  · cases h
  · cases he : encodeOutcome J outcome with
    | error e => rw [he] at h; cases h
    | ok u =>
      rw [he] at h
      obtain rfl := Option.some.inj (Except.ok.inj h)
      rfl

theorem received_nil (reclaimed : Bool) : received J reclaimed [] = [] := rfl

/-- A step that changes at most what a client remembers of its scans. -/
theorem JobMoves.idle (hi : s.redis.stream.Intact) (claiming : List ClaimCall) :
    JobMoves J s a { s with claiming } := by
  have := JobMoves.serve (J := J) (a := a) s.redis.stream [] false claiming rfl rfl hi id nofun
  simpa [received_nil, QueueSys.withStream] using this

theorem JobMoves.ensured (hi : s.redis.stream.Intact) {stream : JobStream}
    (hs : s.redis.stream.xgroupCreate = some stream) : JobMoves J s a (s.withStream stream) := by
  have hgroup := Redis.Stream.xgroupCreate_group hs
  have hi' := hi.xgroupCreate hs
  obtain ⟨_, rfl⟩ := Redis.Stream.xgroupCreate_eq hs
  have := JobMoves.serve (J := J) (s := s) (a := a) (s.redis.stream.withGroup (.startAt ⊥) bot_le) [] false s.claiming
    rfl rfl hi' (fun _ => hgroup) nofun
  simpa [received_nil, QueueSys.withStream] using this

theorem job_moves (hi : s.redis.stream.Intact) (h : (jobQueue J).step s a = some s') : JobMoves J s a s' := by
  cases a with
  | tick ms =>
    obtain rfl := Option.some.inj h
    exact .tick ms
  | expire jobId =>
    obtain rfl := Option.some.inj h
    exact .expire jobId
  | ensureConsumerGroup =>
    obtain ⟨stream, hs, rfl⟩ := Option.map_eq_some_iff.mp h
    exact .ensured hi hs
  | enqueue jobId payload nowMs =>
    simp only [jobQueue, QueueSys.step] at h
    split at h
    · cases h
    · rename_i hn
      rw [not_or, not_or, Bool.not_eq_false] at hn
      cases hj : encodeJson J payload with
      | error e => simp [hj] at h
      | ok text =>
        simp only [hj, Option.some.injEq] at h
        subst h
        exact .enqueue hn.1 hn.2.1 hn.2.2 (encodeJson_ok.mp hj)
  | readNew consumer count =>
    simp only [jobQueue, QueueSys.step] at h
    split at h
    · cases h
    · obtain ⟨⟨entries, stream⟩, hr, rfl⟩ := Option.map_eq_some_iff.mp h
      obtain ⟨he, hl, _, hm, _⟩ := Redis.Stream.xreadgroup_spec hr
      exact .serve stream entries false s.claiming he hl (hi.xreadgroup hr)
        (fun _ => Redis.Stream.xreadgroup_group hr) fun e hin => (hm e hin).1
  | reclaimIdle consumer minIdle startId count =>
    simp only [jobQueue, QueueSys.step] at h
    split at h
    · cases h
    · obtain ⟨⟨scan, stream⟩, hr, rfl⟩ := Option.map_eq_some_iff.mp h
      obtain ⟨he, hi', hl, _, hm⟩ := Redis.Stream.xautoclaim_spec hi hr
      exact .serve stream scan.claimed true s.claiming he hl hi' (fun _ => Redis.Stream.xautoclaim_group hr) hm
  | legacyScan consumer minIdle startId count =>
    simp only [jobQueue, QueueSys.step] at h
    split at h
    · cases h
    · obtain ⟨nacks, _, rfl⟩ := Option.map_eq_some_iff.mp h
      exact .idle hi _
  | legacyClaim k =>
    simp only [jobQueue, QueueSys.step, Option.bind_eq_bind] at h
    obtain ⟨c, _, h⟩ := Option.bind_eq_some_iff.mp h
    obtain ⟨⟨records, stream⟩, hr, h⟩ := Option.bind_eq_some_iff.mp h
    obtain rfl := Option.some.inj h
    obtain ⟨he, hi', hl, hg, entries, rfl, hm⟩ := Redis.Stream.xclaim_spec hi hr
    exact .serve stream entries true _ he hl hi' (fun _ => hg) hm
  | markGet k workerName token nowMs =>
    simp only [jobQueue, QueueSys.step] at h
    split at h
    · cases h
    · rename_i hfresh
      obtain ⟨message, hm, rfl⟩ := Option.map_eq_some_iff.mp h
      exact .markGet (List.mem_of_getElem? hm) hfresh
  | markEval k =>
    obtain ⟨c, hc, rfl⟩ := Option.map_eq_some_iff.mp h
    rcases markRunning_cases c s.redis with ⟨howner, hl⟩ | ⟨_, hne, hr⟩
    · simp only [hl]
      exact .marked hc howner
    · simp only [hr, if_neg hne]
      exact .markRefused
  | finalizeGet k outcome nowMs =>
    simp only [jobQueue, QueueSys.step, Option.bind_eq_bind] at h
    obtain ⟨lease, hlease, h⟩ := Option.bind_eq_some_iff.mp h
    obtain ⟨c, hc, h⟩ := Option.bind_eq_some_iff.mp h
    obtain rfl := Option.some.inj h
    refine .finalizeGet ?_
    cases hcall : finalizeCall J lease (s.redis.job lease.message.jobId) outcome nowMs with
    | error e => rw [hcall] at hc; cases hc
    | ok o =>
      rw [hcall] at hc
      cases o with
      | none => cases hc
      | some c' =>
        obtain rfl := Option.some.inj hc
        rw [finalizeCall_lease hcall]
        exact List.mem_of_getElem? hlease
  | finalizeEval k =>
    obtain ⟨c, hc, rfl⟩ := Option.map_eq_some_iff.mp h
    rcases finalize_cases c s.redis with ⟨hp, hl⟩ | ⟨_, hne, hr⟩
    · simp only [hl]
      exact .finalized hc hp
    · simp only [hr, if_neg hne]
      exact .finalizeRefused

/-! ## The consumer group -/

theorem JobMoves.group (h : JobMoves J s a s') (hg : s.redis.stream.group.isSome = true) :
    s'.redis.stream.group.isSome = true := by
  cases h with
  | tick ms => exact hg
  | expire jobId => exact hg
  | serve stream entries reclaimed claiming _ _ _ hkeep _ => exact hkeep hg
  | enqueue _ _ _ _ => exact hg
  | markGet _ _ => exact hg
  | marked _ _ => exact hg
  | markRefused => exact hg
  | finalizeGet _ => exact hg
  | finalized _ _ => exact (Redis.Stream.settle_group _ _).trans hg
  | finalizeRefused => exact hg

end

end InferenceService
