import InferenceService.Jobs.Places

/-!
# Fencing of leases

Delivery tokens tell the marks of a job apart, and a record carries the token
of the mark that wrote it. So a lease finalizes its job only while nobody has
written the record after it.
-/

namespace InferenceService

section
variable {V : Type}

def markTokens (s : QueueSys V) : List String :=
  (leases s.log).map JobLease.deliveryToken ++ s.marking.map MarkCall.deliveryToken

def Recorded (job : String → Option (JobState V)) (log : List (QueueEvent V)) : Prop :=
  ∀ j st, job j = some st → ∃ ev, lastWrite log j = some ev ∧ ev.state = st

structure Fenced (s : QueueSys V) : Prop where
  recorded : Recorded s.redis.job s.log
  distinct : (markTokens s).Nodup
  issued : ∀ t ∈ markTokens s, t ∈ s.tokens
  grouped : leases s.log ≠ [] → s.redis.stream.group.isSome = true

variable {J : JsonLib V} {s s' : QueueSys V} {a : QueueAct V}

theorem lastWrite_cons (ev : QueueEvent V) (log : List (QueueEvent V)) (j : String) :
    lastWrite (ev :: log) j = if ev.jobId = j then some ev else lastWrite log j := by
  unfold lastWrite
  rw [List.find?_cons]
  by_cases h : ev.jobId = j <;> simp [h]

theorem lastWrite_mem {log : List (QueueEvent V)} {j : String} {ev : QueueEvent V} (h : lastWrite log j = some ev) :
    ev ∈ log ∧ ev.jobId = j :=
  ⟨List.mem_of_find?_eq_some h, by simpa using List.find?_some h⟩

theorem Recorded.write {job : String → Option (JobState V)} {log : List (QueueEvent V)} (h : Recorded job log)
    (ev : QueueEvent V) : Recorded (Function.update job ev.jobId (some ev.state)) (ev :: log) := by
  intro j st hj
  rw [lastWrite_cons]
  by_cases heq : ev.jobId = j
  · subst heq
    rw [Function.update_self, Option.some.injEq] at hj
    exact ⟨ev, if_pos rfl, hj⟩
  · rw [Function.update_of_ne (Ne.symm heq)] at hj
    rw [if_neg heq]
    exact h j st hj

theorem Recorded.expire {job : String → Option (JobState V)} {log : List (QueueEvent V)} (h : Recorded job log)
    (jobId : String) : Recorded (Function.update job jobId none) log := by
  intro j st hj
  by_cases heq : j = jobId
  · subst heq
    rw [Function.update_self] at hj
    cases hj
  · rw [Function.update_of_ne heq] at hj
    exact h j st hj

theorem fenced_step (hf : Fenced s) (hm : JobMoves J s a s') : Fenced s' := by
  cases hm with
  | tick ms => exact { hf with }
  | expire jobId => exact { hf with recorded := hf.recorded.expire jobId }
  | serve stream entries reclaimed claiming _ _ _ hg _ =>
    exact { hf with grouped := fun h => hg (hf.grouped h) }
  | @enqueue jobId payload payloadJson nowMs =>
    exact { hf with recorded := hf.recorded.write (.enqueued ⟨_, jobId, payload, payloadJson, nowMs⟩) }
  | @markGet k message workerName token nowMs _ hfresh =>
    have hperm : ∀ (A B : List String), (token :: (A ++ B)).Perm (A ++ (B ++ [token])) := by
      intro A B
      rw [← List.append_assoc]
      exact (List.perm_append_singleton token (A ++ B)).symm
    have hmap : markTokens { s with
        tokens := token :: s.tokens
        marking := s.marking ++ [⟨message, workerName, token, s.redis.job message.jobId, nowMs⟩] } =
        (leases s.log).map JobLease.deliveryToken ++ (s.marking.map MarkCall.deliveryToken ++ [token]) := by
      simp [markTokens]
    refine { hf with distinct := ?_, issued := ?_ }
    · rw [hmap]
      refine (hperm _ _).nodup (List.nodup_cons.mpr ⟨?_, hf.distinct⟩)
      exact fun h => hfresh (hf.issued token h)
    · intro t ht
      rw [hmap, ← (hperm _ _).mem_iff] at ht
      rcases List.mem_cons.mp ht with rfl | ht
      · exact List.mem_cons_self
      · exact List.mem_cons_of_mem _ (hf.issued t ht)
  | @marked k c hc howner =>
    have hperm : (markTokens { s with
        redis := s.redis.set c.message.jobId c.state
        marking := s.marking.eraseIdx k
        log := .marked c :: s.log }).Perm (markTokens s) := by
      obtain ⟨hk, rfl⟩ := List.getElem?_eq_some_iff.mp hc
      have hp := (List.getElem_cons_eraseIdx_perm hk).map MarkCall.deliveryToken
      exact List.perm_middle.symm.trans (hp.append_left ((leases s.log).map JobLease.deliveryToken))
    refine ⟨hf.recorded.write (.marked c), hperm.nodup_iff.mpr hf.distinct, ?_, fun _ => ?_⟩
    · intro t ht
      exact hf.issued t (hperm.mem_iff.mp ht)
    · unfold Redis.Stream.owner at howner
      obtain ⟨g, hg, _⟩ := Option.bind_eq_some_iff.mp howner
      show s.redis.stream.group.isSome = true
      rw [hg]
      rfl
  | @markRefused k =>
    have hsub : (markTokens { s with marking := s.marking.eraseIdx k }).Sublist (markTokens s) :=
      (List.Sublist.refl _).append ((List.eraseIdx_sublist _ _).map _)
    exact { hf with distinct := hf.distinct.sublist hsub, issued := fun t ht => hf.issued t (hsub.subset ht) }
  | finalizeGet => exact { hf with }
  | @finalized k c =>
    refine { hf with recorded := hf.recorded.write (.finalized c), grouped := fun h => ?_ }
    have hg := hf.grouped h
    exact (s.redis.stream.settle_group c.lease.message.streamId).trans hg
  | finalizeRefused => exact { hf with }

theorem fenced_init : Fenced (jobQueue J).init where
  recorded j st h := by cases h
  distinct := List.nodup_nil
  issued t h := by cases h
  grouped h := absurd rfl h

theorem reachable_fenced (hs : (jobQueue J).Reachable s) : Fenced s :=
  hs.invariant fenced_init fun _ _ _ hr hf h => fenced_step hf (job_moves (reachable_placed hr).intact h)

/-! ## Who may finalize -/

theorem mem_leases {log : List (QueueEvent V)} {m : MarkCall V} (h : .marked m ∈ log) : m.lease ∈ leases log :=
  List.mem_filterMap.mpr ⟨_, h, rfl⟩

theorem Fenced.leases_nodup (hf : Fenced s) : ((leases s.log).map JobLease.deliveryToken).Nodup :=
  (List.nodup_append.mp hf.distinct).1

theorem Fenced.same_token (hf : Fenced s) {l l' : JobLease V} (hl : l ∈ leases s.log) (hl' : l' ∈ leases s.log)
    (h : l.deliveryToken = l'.deliveryToken) : l = l' :=
  List.inj_on_of_nodup_map hf.leases_nodup hl hl' h

theorem finalized_token (c : FinalizeCall V) : c.state.deliveryToken = none := by
  unfold FinalizeCall.state
  cases c.outcome <;> rfl

theorem finalized_terminal (c : FinalizeCall V) : c.state.status.Terminal := by
  unfold FinalizeCall.state
  cases c.outcome
  · exact .inl rfl
  · exact .inr rfl

/-- The job's record exists and the mark that issued the lease wrote it last. -/
def WrittenBy (s : QueueSys V) (l : JobLease V) : Prop :=
  s.redis.job l.message.jobId ≠ none ∧
    ∃ m, lastWrite s.log l.message.jobId = some (.marked m) ∧ m.lease = l

theorem Fenced.passes_iff (hf : Fenced s) {c : FinalizeCall V} (hl : c.lease ∈ leases s.log) :
    c.Passes s.redis ↔
      WrittenBy s c.lease ∧ s.redis.stream.owner c.lease.message.streamId = some c.lease.workerName := by
  constructor
  · intro ⟨ho, current, hj, ht⟩
    obtain ⟨ev, hev, rfl⟩ := hf.recorded _ _ hj
    refine ⟨⟨by rw [hj]; exact nofun, ?_⟩, ho⟩
    cases ev with
    | enqueued q => cases ht
    | finalized c' =>
      rw [QueueEvent.state, finalized_token] at ht
      cases ht
    | marked m =>
      have htoken : m.lease.deliveryToken = c.lease.deliveryToken := Option.some.inj ht
      exact ⟨m, hev, hf.same_token (mem_leases (lastWrite_mem hev).1) hl htoken⟩
  · intro ⟨⟨hne, m, hev, hm⟩, ho⟩
    obtain ⟨current, hj⟩ := Option.ne_none_iff_exists'.mp hne
    obtain ⟨ev, hev', rfl⟩ := hf.recorded _ _ hj
    obtain rfl := Option.some.inj (hev.symm.trans hev')
    exact ⟨ho, _, hj, by rw [← hm]; rfl⟩

theorem finalize_zero {c : FinalizeCall V} {r : JobRedis V} (hg : r.stream.group.isSome = true)
    (h : ¬ c.Passes r) : finalizeLua c r = (.ok 0, r) := by
  obtain ⟨g, hg⟩ := Option.isSome_iff_exists.mp hg
  unfold finalizeLua
  split
  · rename_i hnone
    simp [Redis.Stream.xpending, hg] at hnone
  · rfl
  · rename_i n ns hn
    by_cases hc : n.consumer = c.lease.workerName
    · rw [if_neg (not_not.mpr hc)]
      split
      · rfl
      · rename_i current hj
        have ht : current.deliveryToken ≠ some c.lease.deliveryToken := fun ht =>
          h ⟨by rw [owner_of_xpending hn, hc], current, hj, ht⟩
        rw [if_pos ht]
    · rw [if_pos hc]

theorem Fenced.remarked (hf : Fenced s) {l : JobLease V} {pre post : List (QueueEvent V)} {m : MarkCall V}
    (hlog : s.log = pre ++ .marked m :: post) (hjob : m.message.jobId = l.message.jobId)
    (hl : l ∈ leases post) : ¬ WrittenBy s l := by
  intro hw
  obtain ⟨_, m', hm', rfl⟩ := hw
  have hmem : .marked m' ∈ pre ++ [.marked m] := by
    unfold lastWrite at hm'
    rw [hlog, List.find?_append] at hm'
    cases hpre : pre.find? fun ev => ev.jobId = m'.lease.message.jobId with
    | some ev =>
      rw [hpre, Option.some_or] at hm'
      obtain rfl := Option.some.inj hm'
      exact List.mem_append_left _ (List.mem_of_find?_eq_some hpre)
    | none =>
      have hthis : decide ((QueueEvent.marked m).jobId = m'.lease.message.jobId) = true := decide_eq_true hjob
      simp only [hpre, Option.none_or, List.find?_cons, hthis, Option.some.injEq] at hm'
      rw [← hm']
      exact List.mem_append_right _ List.mem_cons_self
  have hnd := hf.leases_nodup
  have hlist : s.log = (pre ++ [.marked m]) ++ post := by rw [hlog, List.append_assoc]; rfl
  rw [hlist, leases, List.filterMap_append, List.map_append] at hnd
  exact (List.nodup_append.mp hnd).2.2 _ (List.mem_map_of_mem (mem_leases hmem)) _ (List.mem_map_of_mem hl) rfl

end

section
variable {V : Type} (J : JsonLib V)

theorem lease_fenced {s s' : QueueSys V} {k : Nat} {c : FinalizeCall V} (hs : (jobQueue J).Reachable s)
    (hc : s.finalizing[k]? = some c) (h : (jobQueue J).step s (.finalizeEval k) = some s') :
    ((finalizeLua c s.redis).1.toOption = some 1 ↔
      WrittenBy s c.lease ∧ s.redis.stream.owner c.lease.message.streamId = some c.lease.workerName) ∧
    ((finalizeLua c s.redis).1.toOption = some 1 →
      c.state.status.Terminal ∧
      s'.redis.job = Function.update s.redis.job c.lease.message.jobId (some c.state) ∧
      (∀ id, id ∈ s'.redis.stream.pendingIds ↔
        id ∈ s.redis.stream.pendingIds ∧ id ≠ c.lease.message.streamId) ∧
      (∀ e, e ∈ s'.redis.stream.entries ↔ e ∈ s.redis.stream.entries ∧ e.1 ≠ c.lease.message.streamId)) ∧
    ((finalizeLua c s.redis).1.toOption ≠ some 1 →
      s'.redis = s.redis ∧ finalizeResult (finalizeLua c s.redis).1 = .ok false) ∧
    (∀ pre post m, s.log = pre ++ .marked m :: post → m.message.jobId = c.lease.message.jobId →
      c.lease ∈ leases post → (finalizeLua c s.redis).1.toOption ≠ some 1) := by
  have hp := reachable_placed hs
  have hf := reachable_fenced hs
  have hlease := hp.finalizing c (List.mem_of_getElem? hc)
  have hpass := hf.passes_iff hlease
  simp only [jobQueue, QueueSys.step, hc, Option.map_some, Option.some.injEq] at h
  by_cases hyes : c.Passes s.redis
  · have hlua : finalizeLua c s.redis = (.ok 1, c.finalized s.redis) := by
      rcases finalize_cases c s.redis with ⟨_, hlua⟩ | ⟨hno, _⟩
      · exact hlua
      · exact absurd hyes hno
    rw [hlua] at h ⊢
    refine ⟨⟨fun _ => hpass.mp hyes, fun _ => rfl⟩, fun _ => ?_, fun hne => absurd rfl hne, ?_⟩
    · rw [← h]
      refine ⟨finalized_terminal c, rfl, fun id => Redis.Stream.mem_xack_pendingIds, fun e => ?_⟩
      simp [FinalizeCall.finalized, Redis.Stream.xdel, Redis.Stream.xack, Redis.Stream.mapGroup]
    · intro pre post m hlog hjob hl
      exact absurd (hpass.mp hyes).1 (hf.remarked hlog hjob hl)
  · have hlua := finalize_zero (hf.grouped (List.ne_nil_of_mem hlease)) hyes
    rw [hlua] at h ⊢
    refine ⟨⟨fun heq => ?_, fun hw => absurd (hpass.mpr hw) hyes⟩, fun heq => ?_, fun _ => ⟨by rw [← h], rfl⟩,
      fun _ _ _ _ _ _ heq => ?_⟩
    all_goals cases heq

def completing : List (QueueAct Unit) :=
  [.enqueue "job" () 7, .ensureConsumerGroup, .readNew "worker" 1, .markGet 0 "worker" "token" 8, .markEval 0,
    .finalizeGet 0 (.complete ()) 9]

theorem completing_run : ∃ s c s', (jobQueue emptyDicts).runFrom (jobQueue emptyDicts).init completing = some s ∧
    s.finalizing[0]? = some c ∧ (jobQueue emptyDicts).step s (.finalizeEval 0) = some s' ∧
    (finalizeLua c s.redis).1.toOption = some 1 := by
  have h : ((jobQueue emptyDicts).runFrom (jobQueue emptyDicts).init completing).bind (fun s =>
      s.finalizing[0]?.map fun c => decide ((finalizeLua c s.redis).1.toOption = some 1)) = some true := by decide
  obtain ⟨s, hs, h⟩ := Option.bind_eq_some_iff.mp h
  obtain ⟨c, hc, h⟩ := Option.map_eq_some_iff.mp h
  exact ⟨s, c, _, hs, hc, congrArg (Option.map _) hc, of_decide_eq_true h⟩

theorem lease_fenced_completed : ∃ s s' : QueueSys Unit, ∃ c, s.finalizing[0]? = some c ∧ WrittenBy s c.lease ∧
    s'.redis.job = Function.update s.redis.job c.lease.message.jobId (some c.state) := by
  obtain ⟨s, c, s', hs, hc, h, hyes⟩ := completing_run
  obtain ⟨hiff, heff, _⟩ := lease_fenced emptyDicts ⟨completing, hs⟩ hc h
  exact ⟨s, s', c, hc, (hiff.mp hyes).1, (heff hyes).2.1⟩

end

end InferenceService
