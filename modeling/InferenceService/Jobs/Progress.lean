import InferenceService.Jobs.Fencing
import InferenceService.Lib.StreamOwners
import Mathlib.Data.Fintype.EquivFin

/-!
# No dead ends

Whatever the clients of the queue have left behind, one worker that claims,
reads, marks and finalizes can still finish every job.
-/

namespace InferenceService

section
variable {V : Type} (J : JsonLib V) (worker : String) (count minIdle : Nat) (outcome : V → JobOutcome V)

/-- What one worker does, and that time passes. -/
def OfWorker : QueueAct V → Prop
  | .tick _ => True
  | .ensureConsumerGroup => True
  | .readNew consumer n => consumer = worker ∧ n = count
  | .reclaimIdle consumer idle _ n => consumer = worker ∧ idle = minIdle ∧ n = count
  | .markGet _ workerName _ _ => workerName = worker
  | .markEval _ => True
  | .finalizeGet _ o _ => ∃ payload, o = outcome payload
  | .finalizeEval _ => True
  | _ => False

/-- The worker gets from `s` to `t`, where nothing but finished jobs is new, and
they have the outcomes of their payloads. -/
structure Advances (s t : QueueSys V) : Prop where
  leads : (jobQueue J).Leads (OfWorker worker count minIdle outcome) s t
  jobs : enqueuedJobs t.log = enqueuedJobs s.log
  finalized : ∀ c, .finalized c ∈ t.log → .finalized c ∈ s.log ∨
    ∃ q ∈ enqueuedJobs s.log, c.lease.message.jobId = q.jobId ∧ c.outcome = outcome q.payload

variable {J worker count minIdle outcome} {s t u : QueueSys V} {q : Enqueued V}

theorem Advances.refl (s : QueueSys V) : Advances J worker count minIdle outcome s s :=
  ⟨Lts.Leads.refl s, rfl, fun _ h => .inl h⟩

theorem Advances.trans (h : Advances J worker count minIdle outcome s t)
    (h' : Advances J worker count minIdle outcome t u) : Advances J worker count minIdle outcome s u := by
  refine ⟨h.leads.trans h'.leads, h'.jobs.trans h.jobs, fun c hc => ?_⟩
  rcases h'.finalized c hc with hc | ⟨q, hq, hc⟩
  · exact h.finalized c hc
  · exact .inr ⟨q, h.jobs ▸ hq, hc⟩

/-- A step that writes no record. -/
theorem Advances.silent {a : QueueAct V} (h : (jobQueue J).step s a = some t) (hlog : t.log = s.log)
    (ha : OfWorker worker count minIdle outcome a) : Advances J worker count minIdle outcome s t :=
  ⟨Lts.Leads.step h ha, congrArg enqueuedJobs hlog, fun _ hc => .inl (hlog ▸ hc)⟩

/-! ## The worker gets a message -/

/-- The message of an entry that a reply of the queue holds. -/
theorem received_message (hJ : J.RoundTrips) (hp : Placed J s) (reclaimed : Bool)
    {entries : List (StreamId × List (String × String))} (hall : ∀ e ∈ entries, e ∈ s.redis.stream.entries)
    {e : StreamId × List (String × String)} (he : e ∈ entries) :
    ∃ q ∈ enqueuedJobs s.log, q.id = e.1 ∧ q.message reclaimed ∈ received J reclaimed (entries.map some) := by
  obtain ⟨qs, hqs, hreply, hdec⟩ := hp.decodes hJ reclaimed hall
  have hin : some e ∈ qs.map fun q => some q.entry := hreply ▸ List.mem_map_of_mem he
  obtain ⟨q, hq, heq⟩ := List.mem_map.mp hin
  obtain rfl := Option.some.inj heq
  refine ⟨q, hqs q hq, rfl, ?_⟩
  unfold received
  rw [hdec]
  exact List.mem_map_of_mem hq

section
variable (worker count minIdle outcome)

theorem exists_group (J : JsonLib V) (s : QueueSys V) : ∃ t g, Advances J worker count minIdle outcome s t ∧
    t.log = s.log ∧ t.redis.stream.entries = s.redis.stream.entries ∧ t.redis.stream.group = some g := by
  cases hg : s.redis.stream.group with
  | some g => exact ⟨s, g, .refl s, rfl, rfl, hg⟩
  | none =>
    have hstep : (jobQueue J).step s .ensureConsumerGroup =
        some (s.withStream (s.redis.stream.withGroup (.startAt ⊥) bot_le)) := by
      simp only [jobQueue, QueueSys.step, Redis.Stream.xgroupCreate, hg, Option.map_some]
    exact ⟨_, _, .silent hstep rfl trivial, rfl, rfl, rfl⟩

theorem exists_message (hJ : J.RoundTrips) (hcount : 0 < count) (hs : (jobQueue J).Reachable s)
    (hne : s.redis.stream.entries ≠ []) : ∃ t, ∃ q ∈ enqueuedJobs s.log, ∃ reclaimed,
      Advances J worker count minIdle outcome s t ∧ t.log = s.log ∧
      t.redis.stream.entries = s.redis.stream.entries ∧ q.message reclaimed ∈ t.messages ∧
      t.redis.stream.owner q.id = some worker := by
  obtain ⟨s₁, g, hadv, hlog, hentries, hg⟩ := exists_group worker count minIdle outcome J s
  have hp := reachable_placed (hadv.leads.reachable hs)
  have hcount' : count ≠ 0 := Nat.pos_iff_ne_zero.mp hcount
  cases hpend : g.pending with
  | cons n rest =>
    -- once it has been idle for long enough, the first pending entry is the worker's
    let s₂ : QueueSys V := { s₁ with redis := { s₁.redis with now := s₁.redis.now + (n.deliveredAt + minIdle) } }
    have htick : (jobQueue J).step s₁ (.tick (n.deliveredAt + minIdle)) = some s₂ := rfl
    have hidle : n.deliveredAt + minIdle ≤ s₂.redis.now := Nat.le_add_left _ _
    obtain ⟨r, stream, fields, hclaim, hin⟩ := Redis.Stream.xautoclaim_head hp.intact hg hpend hcount hidle worker
    have hstep : (jobQueue J).step s₂ (.reclaimIdle worker minIdle ⊥ count) = some { s₂.withStream stream with
        messages := s₂.messages ++ received J true (r.claimed.map some) } := by
      simp only [jobQueue, QueueSys.step, if_neg hcount']
      exact congrArg (Option.map _) hclaim
    obtain ⟨hsame, _, _, _, hall⟩ := Redis.Stream.xautoclaim_spec hp.intact hclaim
    obtain ⟨q, hq, hid, hm⟩ := received_message hJ hp true hall hin
    refine ⟨_, q, hlog ▸ hq, true, (hadv.trans (.silent htick rfl trivial)).trans (.silent hstep rfl ⟨rfl, rfl, rfl⟩),
      hlog, hsame.trans hentries, List.mem_append_right _ hm, ?_⟩
    rw [hid]
    exact Redis.Stream.xautoclaim_owner hp.intact hclaim hin
  | nil =>
    -- nothing is pending, so the entries are still to be read
    obtain ⟨e, es, hes⟩ : ∃ e es, s₁.redis.stream.undelivered g count = e :: es := by
      cases hu : s₁.redis.stream.undelivered g count with
      | cons e es => exact ⟨e, es, rfl⟩
      | nil =>
        obtain ⟨e, he⟩ := List.exists_mem_of_ne_nil _ (hentries ▸ hne)
        have hnot : e.1 ∉ s₁.redis.stream.pendingIds := by simp [Redis.Stream.pendingIds, hg, Redis.Group.ids, hpend]
        have hlt : g.lastDelivered < e.1 := by
          by_contra hle
          refine hnot ((hp.intact e.1).mpr ⟨Redis.Stream.mem_ids_of_entry he, ?_⟩)
          simpa [Redis.Stream.lastDelivered, hg] using hle
        have hfilter := List.take_eq_nil_iff.mp hu
        rcases hfilter with h | h
        · exact absurd h hcount'
        · exact absurd (h ▸ List.mem_filter.mpr ⟨he, decide_eq_true hlt⟩) List.not_mem_nil
    obtain ⟨stream, hread⟩ : ∃ stream, s₁.redis.stream.xreadgroup worker count s₁.redis.now =
        some (s₁.redis.stream.undelivered g count, stream) := ⟨_, Redis.Stream.xreadgroup_eq hg worker count _⟩
    have hin : e ∈ s₁.redis.stream.undelivered g count := hes ▸ List.mem_cons_self
    have hstep : (jobQueue J).step s₁ (.readNew worker count) = some { s₁.withStream stream with
        messages := s₁.messages ++ received J false ((s₁.redis.stream.undelivered g count).map some) } := by
      simp only [jobQueue, QueueSys.step, if_neg hcount']
      exact congrArg (Option.map _) hread
    obtain ⟨hsame, _, _, hall, _⟩ := Redis.Stream.xreadgroup_spec hread
    obtain ⟨q, hq, hid, hm⟩ := received_message hJ hp false (fun e he => (hall e he).1) hin
    refine ⟨_, q, hlog ▸ hq, false, hadv.trans (.silent hstep rfl ⟨rfl, rfl⟩), hlog, hsame.trans hentries,
      List.mem_append_right _ hm, ?_⟩
    rw [hid]
    exact Redis.Stream.xreadgroup_owner hread hin

/-! ## The worker finishes the job -/

theorem exists_fresh (tokens : List String) : ∃ token, token ∉ tokens := by
  obtain ⟨token, h⟩ := Infinite.exists_notMem_finset tokens.toFinset
  exact ⟨token, by simpa using h⟩

theorem exists_finished (hp : Placed J s) (hq : q ∈ enqueuedJobs s.log) {reclaimed : Bool}
    (hout : encodeOutcome J (outcome q.payload) = .ok ()) (hm : q.message reclaimed ∈ s.messages)
    (howner : s.redis.stream.owner q.id = some worker) :
    ∃ t, Advances J worker count minIdle outcome s t ∧
      t.redis.stream.entries.length < s.redis.stream.entries.length := by
  obtain ⟨token, hfresh⟩ := exists_fresh s.tokens
  obtain ⟨k, hk⟩ := List.getElem?_of_mem hm
  let mark : MarkCall V := ⟨q.message reclaimed, worker, token, s.redis.job q.jobId, 0⟩
  let s₁ : QueueSys V := { s with tokens := token :: s.tokens, marking := s.marking ++ [mark] }
  have h₁ : (jobQueue J).step s (.markGet k worker token 0) = some s₁ := by
    simp only [jobQueue, QueueSys.step, if_neg hfresh, hk, Option.map_some]
    rfl
  let s₂ : QueueSys V := { s₁ with
    redis := s.redis.set q.jobId mark.state
    marking := s₁.marking.eraseIdx s.marking.length
    log := .marked mark :: s.log }
  have h₂ : (jobQueue J).step s₁ (.markEval s.marking.length) = some s₂ := by
    have hlast : s₁.marking[s.marking.length]? = some mark := List.getElem?_concat_length
    rcases markRunning_cases mark s.redis with ⟨_, hlua⟩ | ⟨hno, _⟩
    · have hlua' : markRunningLua mark s₁.redis = (.ok 1, s.redis.set q.jobId mark.state) := hlua
      simp only [jobQueue, QueueSys.step, hlast, Option.map_some, hlua']
      rfl
    · exact absurd howner hno
  let call : FinalizeCall V := ⟨mark.lease, mark.state, outcome q.payload, 0⟩
  let s₃ : QueueSys V := { s₂ with finalizing := s₂.finalizing ++ [call] }
  have hjob : s₂.redis.job q.jobId = some mark.state := Function.update_self _ _ _
  have h₃ : (jobQueue J).step s₂ (.finalizeGet 0 (outcome q.payload) 0) = some s₃ := by
    have hread : s₂.redis.job mark.lease.message.jobId = some mark.state := hjob
    have hcall : finalizeCall J mark.lease (s₂.redis.job mark.lease.message.jobId) (outcome q.payload) 0 =
        .ok (some call) := by
      have htoken : mark.state.deliveryToken = some mark.lease.deliveryToken := rfl
      simp only [hread, finalizeCall, stateForTerminalUpdate, htoken, ne_eq, not_true_eq_false, if_false, hout]
      rfl
    simp only [jobQueue, QueueSys.step]
    exact congrArg (Option.bind · _) (congrArg (fun o => o.toOption.join) hcall)
  let s₄ : QueueSys V := { s₃ with
    redis := call.finalized s₂.redis
    finalizing := s₃.finalizing.eraseIdx s₂.finalizing.length
    log := .finalized call :: s₂.log }
  have h₄ : (jobQueue J).step s₃ (.finalizeEval s₂.finalizing.length) = some s₄ := by
    have hlast : s₃.finalizing[s₂.finalizing.length]? = some call := List.getElem?_concat_length
    rcases finalize_cases call s₂.redis with ⟨_, hlua⟩ | ⟨hno, _⟩
    · have hlua' : finalizeLua call s₃.redis = (.ok 1, call.finalized s₂.redis) := hlua
      simp only [jobQueue, QueueSys.step, hlast, Option.map_some, hlua']
      rfl
    · exact absurd ⟨howner, _, hjob, rfl⟩ hno
  have hmarked : (jobQueue J).Leads (OfWorker worker count minIdle outcome) s s₂ :=
    .trans (.step h₁ rfl) (.step h₂ trivial)
  have hleads : (jobQueue J).Leads (OfWorker worker count minIdle outcome) s s₄ :=
    .trans (hmarked.trans (.step h₃ ⟨_, rfl⟩)) (.step h₄ trivial)
  refine ⟨s₄, ⟨hleads, rfl, fun c hc => ?_⟩, ?_⟩
  · rcases List.mem_cons.mp hc with hc | hc
    · obtain rfl := QueueEvent.finalized.inj hc
      exact .inr ⟨q, hq, rfl, rfl⟩
    · rcases List.mem_cons.mp hc with hc | hc
      · cases hc
      · exact .inl hc
  · -- its entry is deleted
    have hstored : q.id ∈ s.redis.stream.ids :=
      ((hp.intact q.id).mp (Redis.Stream.mem_pendingIds_iff_owner.mpr ⟨worker, howner⟩)).1
    obtain ⟨e, he, hid⟩ := List.mem_map.mp hstored
    refine List.length_filter_lt_length_iff_exists.mpr ⟨e, he, ?_⟩
    have hsame : e.1 = call.lease.message.streamId := hid
    simp [hsame]

end

end

section
variable {V : Type} (J : JsonLib V)

/-- From every reachable state one worker can finish every job, with the outcome
that its payload has: leases of crashed workers, expired records and scripts
that are still to run are no obstacle. -/
theorem always_finishable (hJ : J.RoundTrips) (worker : String) {count : Nat} (hcount : 0 < count) (minIdle : Nat)
    (outcome : V → JobOutcome V) (hout : ∀ payload, encodeOutcome J (outcome payload) = .ok ()) {s : QueueSys V}
    (hs : (jobQueue J).Reachable s) :
    ∃ t, Advances J worker count minIdle outcome s t ∧
      ∀ q ∈ enqueuedJobs s.log, q.jobId ∈ finalizedJobs t.log := by
  have hround : ∀ s, (jobQueue J).Reachable s → s.redis.stream.entries.length ≠ 0 →
      ∃ t, Advances J worker count minIdle outcome s t ∧ (jobQueue J).Reachable t ∧
        t.redis.stream.entries.length < s.redis.stream.entries.length := by
    intro s hs hne
    obtain ⟨t, q, hq, reclaimed, hadv, hlog, hentries, hm, howner⟩ := exists_message worker count minIdle outcome hJ
      hcount hs (fun h => hne (congrArg List.length h))
    obtain ⟨u, hadv', hlt⟩ := exists_finished worker count minIdle outcome
      (reachable_placed (hadv.leads.reachable hs)) (hlog ▸ hq) (hout q.payload) hm howner
    have hadv'' := hadv.trans hadv'
    exact ⟨u, hadv'', hadv''.leads.reachable hs, hentries ▸ hlt⟩
  obtain ⟨t, hadv, ht, hzero⟩ := Lts.exists_zero Advances.refl (fun _ _ _ h h' => Advances.trans h h') _ hround s hs
  refine ⟨t, hadv, fun q hq => ?_⟩
  have hp := reachable_placed ht
  by_contra hno
  have hid := (hp.stored q (hadv.jobs ▸ hq)).mpr hno
  have hnil : t.redis.stream.entries = [] := List.eq_nil_of_length_eq_zero hzero
  simp [Redis.Stream.ids, hnil] at hid

/-- A worker has crashed with a lease whose record has expired, and a second job
has come. -/
def crashed : List (QueueAct Unit) :=
  [.enqueue "job" () 7, .ensureConsumerGroup, .readNew "worker" 1, .markGet 0 "worker" "token" 8, .markEval 0,
    .expire "job", .enqueue "other" () 9]

theorem always_finishable_crashed : ∃ s, (jobQueue emptyDicts).runFrom (jobQueue emptyDicts).init crashed = some s ∧
    ∃ t, (jobQueue emptyDicts).Reachable t ∧ "job" ∈ finalizedJobs t.log ∧ "other" ∈ finalizedJobs t.log := by
  have h : ((jobQueue emptyDicts).runFrom (jobQueue emptyDicts).init crashed).map (fun s =>
      decide ((enqueuedJobs s.log).map Enqueued.jobId = ["other", "job"])) = some true := by decide
  obtain ⟨s, hs, hjobs⟩ := Option.map_eq_some_iff.mp h
  have hjobs := of_decide_eq_true hjobs
  obtain ⟨t, hadv, hall⟩ := always_finishable emptyDicts emptyDicts_roundTrips "second" Nat.one_pos 1000
    JobOutcome.complete (fun _ => rfl) ⟨crashed, hs⟩
  have hfinished : ∀ j ∈ (enqueuedJobs s.log).map Enqueued.jobId, j ∈ finalizedJobs t.log := by
    intro j hj
    obtain ⟨q, hq, rfl⟩ := List.mem_map.mp hj
    exact hall q hq
  rw [hjobs] at hfinished
  exact ⟨s, hs, t, hadv.leads.reachable ⟨crashed, hs⟩, hfinished "job" (by decide), hfinished "other" (by decide)⟩

end

end InferenceService
