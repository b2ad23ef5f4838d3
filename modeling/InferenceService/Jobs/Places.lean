import InferenceService.Jobs.Steps
import Mathlib.Data.List.Nodup

/-!
# Where a job is

Every job that was enqueued is waiting in the stream, pending with one
consumer, or finished by one finalize script.
-/

namespace InferenceService

section
variable {V : Type} (J : JsonLib V)

/-! ## Replies decode to what was enqueued -/

variable {J}

theorem decodeRecord_fields {reclaimed : Bool} {e : StreamId × List (String × String)} {m : JobMessage V}
    (h : decodeRecord J reclaimed (some e) = .ok m) :
    m.streamId = e.1 ∧ Python.dictGet e.2 "job_id" = some m.jobId ∧
      (Python.dictGet e.2 "created_at_ms").bind Python.int = some m.createdAtMs := by
  obtain ⟨streamId, fields⟩ := e
  simp only [decodeRecord] at h
  split at h
  · cases h
  rename_i jobId hjob
  split at h
  · cases h
  split at h
  · cases h
  rename_i payloadRaw _
  split at h
  · cases h
  rename_i createdAtMs hcreated
  cases hd : decodeJson J payloadRaw with
  | error e => rw [hd] at h; cases h
  | ok payload =>
    rw [hd] at h
    simp only [bind, Except.bind] at h
    split at h
    · obtain rfl := Except.ok.inj h
      exact ⟨rfl, hjob, hcreated⟩
    · cases h

theorem decodeRecord_ids {reclaimed : Bool} {e : StreamId × List (String × String)} {m : JobMessage V}
    (h : decodeRecord J reclaimed (some e) = .ok m) :
    m.streamId = e.1 ∧ Python.dictGet e.2 "job_id" = some m.jobId :=
  ⟨(decodeRecord_fields h).1, (decodeRecord_fields h).2.1⟩

theorem decodeRecords_cons {reclaimed : Bool} {entry : RawEntry} {entries : List RawEntry}
    {ms : List (JobMessage V)} :
    decodeRecords J reclaimed (entry :: entries) = .ok ms ↔
      ∃ m ms', decodeRecord J reclaimed entry = .ok m ∧ decodeRecords J reclaimed entries = .ok ms' ∧
        ms = m :: ms' := by
  rw [decodeRecords]
  cases decodeRecord J reclaimed entry with
  | error e => simp [bind, Except.bind]
  | ok m =>
    cases decodeRecords J reclaimed entries with
    | error e => simp [bind, Except.bind]
    | ok ms' => simp [bind, Except.bind, eq_comm]

theorem received_decodes {reclaimed : Bool} {entries : List (StreamId × List (String × String))} {m : JobMessage V}
    (h : m ∈ received J reclaimed (entries.map some)) :
    ∃ e ∈ entries, decodeRecord J reclaimed (some e) = .ok m := by
  have key : ∀ (entries : List (StreamId × List (String × String))) (ms : List (JobMessage V)),
      decodeRecords J reclaimed (entries.map some) = .ok ms → m ∈ ms →
      ∃ e ∈ entries, decodeRecord J reclaimed (some e) = .ok m := by
    intro entries
    induction entries with
    | nil =>
      intro ms hd hm
      obtain rfl := Except.ok.inj hd
      cases hm
    | cons e entries ih =>
      intro ms hd hm
      obtain ⟨m', ms', he, hrest, rfl⟩ := decodeRecords_cons.mp hd
      rcases List.mem_cons.mp hm with rfl | hm
      · exact ⟨e, List.mem_cons_self, he⟩
      · obtain ⟨e', he', hd'⟩ := ih ms' hrest hm
        exact ⟨e', List.mem_cons_of_mem _ he', hd'⟩
  unfold received at h
  split at h
  · rename_i ms hd
    exact key entries ms hd h
  · cases h

theorem mem_received {reclaimed : Bool} {entries : List (StreamId × List (String × String))} {m : JobMessage V}
    (h : m ∈ received J reclaimed (entries.map some)) :
    ∃ e ∈ entries, m.streamId = e.1 ∧ Python.dictGet e.2 "job_id" = some m.jobId := by
  obtain ⟨e, he, hd⟩ := received_decodes h
  exact ⟨e, he, decodeRecord_ids hd⟩

@[simp] theorem fields_jobId (q : Enqueued V) : Python.dictGet q.fields "job_id" = some q.jobId := by
  simp [Python.dictGet, Enqueued.fields, enqueueFields]

@[simp] theorem fields_payload (q : Enqueued V) : Python.dictGet q.fields "payload" = some q.payloadJson := by
  simp [Python.dictGet, Enqueued.fields, enqueueFields]

@[simp] theorem fields_createdAtMs (q : Enqueued V) :
    Python.dictGet q.fields "created_at_ms" = some (toString q.createdAtMs) := by
  simp [Python.dictGet, Enqueued.fields, enqueueFields]

def Enqueued.Valid (J : JsonLib V) (q : Enqueued V) : Prop :=
  q.jobId ≠ "" ∧ J.isDict q.payload = true ∧ J.dumps q.payload = .ok q.payloadJson

theorem decodeRecord_entry (hJ : J.RoundTrips) (reclaimed : Bool) {q : Enqueued V} (hq : q.Valid J) :
    decodeRecord J reclaimed (some q.entry) = .ok (q.message reclaimed) := by
  obtain ⟨hid, hd, hj⟩ := hq
  simp only [decodeRecord, Enqueued.entry, fields_jobId, hid, if_false, fields_payload, fields_createdAtMs,
    Option.bind_some, Python.int_toString, decodeJson, hJ _ _ hd hj, bind, Except.bind, hd, if_true]
  rfl

theorem decodeRecords_entries (hJ : J.RoundTrips) (reclaimed : Bool) (qs : List (Enqueued V))
    (h : ∀ q ∈ qs, q.Valid J) :
    decodeRecords J reclaimed (qs.map fun q => some q.entry) = .ok (qs.map (Enqueued.message reclaimed)) := by
  induction qs with
  | nil => rfl
  | cons q qs ih =>
    refine decodeRecords_cons.mpr ⟨_, _, decodeRecord_entry hJ reclaimed (h q List.mem_cons_self),
      ih fun q hq => h q (List.mem_cons_of_mem _ hq), rfl⟩

/-! ## The invariant -/

/-- The message names a job that was enqueued under its stream id. -/
def Known (log : List (QueueEvent V)) (m : JobMessage V) : Prop :=
  ∃ q ∈ enqueuedJobs log, q.id = m.streamId ∧ q.jobId = m.jobId

variable (J) in
structure Placed (s : QueueSys V) : Prop where
  intact : s.redis.stream.Intact
  jobIds : (enqueuedJobs s.log).map Enqueued.jobId = s.jobIds
  jobIds_nodup : s.jobIds.Nodup
  ids_nodup : ((enqueuedJobs s.log).map Enqueued.id).Nodup
  ids_le : ∀ q ∈ enqueuedJobs s.log, q.id ≤ s.redis.stream.lastId
  valid : ∀ q ∈ enqueuedJobs s.log, q.Valid J
  entries : ∀ e ∈ s.redis.stream.entries, ∃ q ∈ enqueuedJobs s.log, e = q.entry
  stored : ∀ q ∈ enqueuedJobs s.log, q.id ∈ s.redis.stream.ids ↔ q.jobId ∉ finalizedJobs s.log
  finalized_nodup : (finalizedJobs s.log).Nodup
  finalized_known : ∀ j ∈ finalizedJobs s.log, j ∈ s.jobIds
  messages : ∀ m ∈ s.messages, Known s.log m
  marking : ∀ c ∈ s.marking, Known s.log c.message
  leases : ∀ l ∈ leases s.log, Known s.log l.message
  finalizing : ∀ c ∈ s.finalizing, c.lease ∈ InferenceService.leases s.log

variable {s s' : QueueSys V} {a : QueueAct V}

theorem Known.enqueued {log : List (QueueEvent V)} {m : JobMessage V} (q : Enqueued V) (h : Known log m) :
    Known (.enqueued q :: log) m := by
  obtain ⟨q', hq', h⟩ := h
  exact ⟨q', List.mem_cons_of_mem _ hq', h⟩

theorem Placed.same_id (hp : Placed J s) {q q' : Enqueued V} (hq : q ∈ enqueuedJobs s.log)
    (hq' : q' ∈ enqueuedJobs s.log) (h : q.id = q'.id) : q = q' :=
  List.inj_on_of_nodup_map hp.ids_nodup hq hq' h

theorem Placed.same_job (hp : Placed J s) {q q' : Enqueued V} (hq : q ∈ enqueuedJobs s.log)
    (hq' : q' ∈ enqueuedJobs s.log) (h : q.jobId = q'.jobId) : q = q' := by
  have hnd : ((enqueuedJobs s.log).map Enqueued.jobId).Nodup := by rw [hp.jobIds]; exact hp.jobIds_nodup
  exact List.inj_on_of_nodup_map hnd hq hq' h

theorem Placed.mem_jobIds (hp : Placed J s) {q : Enqueued V} (hq : q ∈ enqueuedJobs s.log) : q.jobId ∈ s.jobIds :=
  hp.jobIds ▸ List.mem_map_of_mem hq

theorem Placed.unfinished (hp : Placed J s) {m : JobMessage V} (hm : Known s.log m) {c : String}
    (ho : s.redis.stream.owner m.streamId = some c) : m.jobId ∉ finalizedJobs s.log := by
  obtain ⟨q, hq, hid, hjob⟩ := hm
  have hpend := Redis.Stream.mem_pendingIds_iff_owner.mpr ⟨c, ho⟩
  have hids := ((hp.intact _).mp hpend).1
  rw [← hjob]
  exact (hp.stored q hq).mp (hid ▸ hids)

theorem placed_serve (hp : Placed J s) {stream : JobStream} {entries : List (StreamId × List (String × String))}
    {reclaimed : Bool} {claiming : List ClaimCall} (he : stream.entries = s.redis.stream.entries)
    (hl : stream.lastId = s.redis.stream.lastId) (hi : stream.Intact)
    (hm : ∀ e ∈ entries, e ∈ s.redis.stream.entries) :
    Placed J { s.withStream stream with
      messages := s.messages ++ received J reclaimed (entries.map some), claiming } := by
  have hids : stream.ids = s.redis.stream.ids := by unfold Redis.Stream.ids; rw [he]
  refine { hp with intact := hi, ids_le := ?_, entries := ?_, stored := ?_, messages := ?_ }
  · intro q hq
    show q.id ≤ stream.lastId
    rw [hl]
    exact hp.ids_le q hq
  · intro e hin
    exact hp.entries e (he ▸ hin)
  · intro q hq
    show q.id ∈ stream.ids ↔ _
    rw [hids]
    exact hp.stored q hq
  · intro m hin
    rcases List.mem_append.mp hin with hin | hin
    · exact hp.messages m hin
    · obtain ⟨e, hin, hid, hjob⟩ := mem_received hin
      obtain ⟨q, hq, rfl⟩ := hp.entries e (hm e hin)
      refine ⟨q, hq, hid.symm, ?_⟩
      rw [Enqueued.entry, fields_jobId, Option.some.injEq] at hjob
      exact hjob

theorem placed_enqueue (hp : Placed J s) {jobId : String} {payload : V} {payloadJson : String} {nowMs : Int}
    (hid : jobId ≠ "") (hfresh : jobId ∉ s.jobIds) (hd : J.isDict payload = true)
    (hj : J.dumps payload = .ok payloadJson) :
    Placed J { s with
      redis := enqueueExec jobId payloadJson nowMs s.redis
      jobIds := jobId :: s.jobIds
      log := .enqueued ⟨(enqueueExec jobId payloadJson nowMs s.redis).stream.lastId, jobId, payload,
        payloadJson, nowMs⟩ :: s.log } := by
  have hlt : s.redis.stream.lastId < (enqueueExec jobId payloadJson nowMs s.redis).stream.lastId :=
    StreamId.lt_next _ _
  have hnew : ∀ q ∈ enqueuedJobs s.log, q.id ≠ (enqueueExec jobId payloadJson nowMs s.redis).stream.lastId :=
    fun q hq => ne_of_lt (lt_of_le_of_lt (hp.ids_le q hq) hlt)
  have hids : (enqueueExec jobId payloadJson nowMs s.redis).stream.ids =
      s.redis.stream.ids ++ [(enqueueExec jobId payloadJson nowMs s.redis).stream.lastId] := by
    simp [enqueueExec, Redis.Stream.ids, Redis.Stream.xadd, JobRedis.set]
  refine ⟨hp.intact.xadd (StreamId.lt_next _ _), ?_, List.nodup_cons.mpr ⟨hfresh, hp.jobIds_nodup⟩, ?_, ?_, ?_, ?_, ?_,
    hp.finalized_nodup, ?_, fun m hm => (hp.messages m hm).enqueued _, fun c hc => (hp.marking c hc).enqueued _,
    fun l hl => (hp.leases l hl).enqueued _, hp.finalizing⟩
  · show jobId :: (enqueuedJobs s.log).map Enqueued.jobId = jobId :: s.jobIds
    rw [hp.jobIds]
  · refine List.nodup_cons.mpr ⟨?_, hp.ids_nodup⟩
    intro hmem
    obtain ⟨q, hq, heq⟩ := List.mem_map.mp hmem
    exact hnew q hq heq
  · intro q hq
    rcases List.mem_cons.mp hq with rfl | hq
    · exact le_refl _
    · exact le_of_lt (lt_of_le_of_lt (hp.ids_le q hq) hlt)
  · intro q hq
    rcases List.mem_cons.mp hq with rfl | hq
    · exact ⟨hid, hd, hj⟩
    · exact hp.valid q hq
  · intro e he
    rcases List.mem_append.mp he with he | he
    · obtain ⟨q, hq, h⟩ := hp.entries e he
      exact ⟨q, List.mem_cons_of_mem _ hq, h⟩
    · exact ⟨_, List.mem_cons_self, List.mem_singleton.mp he⟩
  · intro q hq
    show q.id ∈ (enqueueExec jobId payloadJson nowMs s.redis).stream.ids ↔ q.jobId ∉ finalizedJobs s.log
    rw [hids, List.mem_append, List.mem_singleton]
    rcases List.mem_cons.mp hq with rfl | hq
    · exact ⟨fun _ hfin => hfresh (hp.finalized_known _ hfin), fun _ => .inr rfl⟩
    · rw [or_iff_left (hnew q hq)]
      exact hp.stored q hq
  · intro j hfin
    exact List.mem_cons_of_mem _ (hp.finalized_known j hfin)

theorem placed_finalized (hp : Placed J s) {k : Nat} {c : FinalizeCall V} (hc : s.finalizing[k]? = some c)
    (hpass : c.Passes s.redis) :
    Placed J { s with
      redis := c.finalized s.redis
      finalizing := s.finalizing.eraseIdx k
      log := .finalized c :: s.log } := by
  have hlease := hp.finalizing c (List.mem_of_getElem? hc)
  have hknown := hp.leases _ hlease
  have hnot := hp.unfinished hknown hpass.1
  obtain ⟨q₀, hq₀, hid, hjob⟩ := hknown
  refine { hp with intact := hp.intact.settle _, entries := ?_, stored := ?_, finalized_nodup := ?_,
                   finalized_known := ?_, finalizing := ?_ }
  · intro e he
    exact hp.entries e (List.mem_filter.mp he).1
  · intro q hq
    show q.id ∈ ((s.redis.stream.xack c.lease.message.streamId).xdel c.lease.message.streamId).ids ↔
      q.jobId ∉ c.lease.message.jobId :: finalizedJobs s.log
    have hsame : q.id = c.lease.message.streamId ↔ q.jobId = c.lease.message.jobId := by
      rw [← hid, ← hjob]
      exact ⟨fun h => by rw [hp.same_id hq hq₀ h], fun h => by rw [hp.same_job hq hq₀ h]⟩
    rw [Redis.Stream.mem_xdel_ids, List.mem_cons, not_or, ← hp.stored q hq, ne_eq, hsame]
    exact and_comm
  · exact List.nodup_cons.mpr ⟨hnot, hp.finalized_nodup⟩
  · intro j hj
    rcases List.mem_cons.mp hj with rfl | hj
    · rw [← hjob]; exact hp.mem_jobIds hq₀
    · exact hp.finalized_known j hj
  · intro c' hc'
    exact hp.finalizing c' (List.mem_of_mem_eraseIdx hc')

theorem placed_step (hp : Placed J s) (hm : JobMoves J s a s') : Placed J s' := by
  cases hm with
  | tick ms => exact { hp with }
  | expire jobId => exact { hp with }
  | serve stream entries reclaimed claiming he hl hi _ hm => exact placed_serve hp he hl hi hm
  | enqueue hid hfresh hd hj => exact placed_enqueue hp hid hfresh hd hj
  | markGet hm hfresh =>
    refine { hp with marking := ?_ }
    intro c hc
    rcases List.mem_append.mp hc with hc | hc
    · exact hp.marking c hc
    · rw [List.mem_singleton.mp hc]
      exact hp.messages _ hm
  | @marked k c hc howner =>
    refine { hp with marking := ?_, leases := ?_, finalizing := ?_ }
    · intro c' hc'
      exact hp.marking c' (List.mem_of_mem_eraseIdx hc')
    · intro l hl
      rcases List.mem_cons.mp hl with rfl | hl
      · exact hp.marking c (List.mem_of_getElem? hc)
      · exact hp.leases l hl
    · intro c' hc'
      exact List.mem_cons_of_mem _ (hp.finalizing c' hc')
  | markRefused =>
    exact { hp with marking := fun c hc => hp.marking c (List.mem_of_mem_eraseIdx hc) }
  | finalizeGet hlease =>
    refine { hp with finalizing := ?_ }
    intro c hc
    rcases List.mem_append.mp hc with hc | hc
    · exact hp.finalizing c hc
    · rw [List.mem_singleton.mp hc]
      exact hlease
  | finalized hc hpass => exact placed_finalized hp hc hpass
  | finalizeRefused =>
    exact { hp with finalizing := fun c hc => hp.finalizing c (List.mem_of_mem_eraseIdx hc) }

theorem placed_init : Placed J (jobQueue J).init where
  intact := Redis.Stream.intact_empty
  jobIds := rfl
  jobIds_nodup := List.nodup_nil
  ids_nodup := List.nodup_nil
  ids_le _ hq := absurd hq List.not_mem_nil
  valid _ hq := absurd hq List.not_mem_nil
  entries _ he := absurd he List.not_mem_nil
  stored _ hq := absurd hq List.not_mem_nil
  finalized_nodup := List.nodup_nil
  finalized_known _ hj := absurd hj List.not_mem_nil
  messages _ hm := absurd hm List.not_mem_nil
  marking _ hc := absurd hc List.not_mem_nil
  leases _ hl := absurd hl List.not_mem_nil
  finalizing _ hc := absurd hc List.not_mem_nil

theorem reachable_placed (hs : (jobQueue J).Reachable s) : Placed J s :=
  hs.invariant placed_init fun _ _ _ _ hp h => placed_step hp (job_moves hp.intact h)

/-! ## The three places -/

def jobEntries (s : QueueSys V) (jobId : String) : List (StreamId × List (String × String)) :=
  s.redis.stream.entries.filter fun e => Python.dictGet e.2 "job_id" = some jobId

/-- One entry, not yet delivered, and not pending. -/
def Waiting (s : QueueSys V) (q : Enqueued V) : Prop :=
  jobEntries s q.jobId = [q.entry] ∧ s.redis.stream.lastDelivered < q.id ∧ q.id ∉ s.redis.stream.pendingIds

/-- One entry, pending once and with one owner. -/
def Held (s : QueueSys V) (q : Enqueued V) : Prop :=
  jobEntries s q.jobId = [q.entry] ∧ s.redis.stream.pendingIds.count q.id = 1 ∧
    ∃ consumer, s.redis.stream.owner q.id = some consumer

/-- No entry, not pending, and one finalize script returned 1. -/
def Finished (s : QueueSys V) (q : Enqueued V) : Prop :=
  jobEntries s q.jobId = [] ∧ q.id ∉ s.redis.stream.pendingIds ∧ (finalizedJobs s.log).count q.jobId = 1

theorem Placed.mem_jobEntries (hp : Placed J s) {q : Enqueued V} (hq : q ∈ enqueuedJobs s.log)
    {e : StreamId × List (String × String)} :
    e ∈ jobEntries s q.jobId ↔ e = q.entry ∧ q.id ∈ s.redis.stream.ids := by
  unfold jobEntries
  rw [List.mem_filter, decide_eq_true_eq]
  constructor
  · intro ⟨he, hjob⟩
    obtain ⟨q', hq', rfl⟩ := hp.entries e he
    rw [Enqueued.entry, fields_jobId, Option.some.injEq] at hjob
    obtain rfl := hp.same_job hq' hq hjob
    exact ⟨rfl, Redis.Stream.mem_ids_of_entry he⟩
  · intro ⟨heq, hid⟩
    obtain ⟨e', he', hid'⟩ := List.mem_map.mp hid
    obtain ⟨q', hq', rfl⟩ := hp.entries e' he'
    obtain rfl := hp.same_id hq' hq hid'
    subst heq
    exact ⟨he', fields_jobId q'⟩

theorem Placed.jobEntries_eq (hp : Placed J s) {q : Enqueued V} (hq : q ∈ enqueuedJobs s.log) :
    jobEntries s q.jobId = if q.id ∈ s.redis.stream.ids then [q.entry] else [] := by
  have hnd : (jobEntries s q.jobId).Nodup := (List.Nodup.of_map Prod.fst s.redis.stream.ids_nodup).filter _
  by_cases h : q.id ∈ s.redis.stream.ids
  · rw [if_pos h]
    have hall : ∀ e ∈ jobEntries s q.jobId, e = q.entry := fun e he => ((hp.mem_jobEntries hq).mp he).1
    have hrep := List.eq_replicate_of_mem hall
    have hpos : 0 < (jobEntries s q.jobId).length :=
      List.length_pos_of_mem ((hp.mem_jobEntries hq).mpr ⟨rfl, h⟩)
    rw [hrep, List.nodup_replicate] at hnd
    rw [hrep, Nat.le_antisymm hnd hpos]
    rfl
  · rw [if_neg h, List.eq_nil_iff_forall_not_mem]
    intro e he
    exact h ((hp.mem_jobEntries hq).mp he).2

theorem Placed.place (hp : Placed J s) {q : Enqueued V} (hq : q ∈ enqueuedJobs s.log) :
    (q.id ∈ s.redis.stream.ids ∧ s.redis.stream.lastDelivered < q.id ∧ Waiting s q) ∨
      (q.id ∈ s.redis.stream.ids ∧ q.id ∈ s.redis.stream.pendingIds ∧ Held s q) ∨
      (q.id ∉ s.redis.stream.ids ∧ Finished s q) := by
  have hentries := hp.jobEntries_eq hq
  by_cases hid : q.id ∈ s.redis.stream.ids
  · rw [if_pos hid] at hentries
    by_cases hle : q.id ≤ s.redis.stream.lastDelivered
    · have hpend := (hp.intact _).mpr ⟨hid, hle⟩
      exact .inr (.inl ⟨hid, hpend, hentries, List.count_eq_one_of_mem s.redis.stream.pendingIds_nodup hpend,
        Redis.Stream.mem_pendingIds_iff_owner.mp hpend⟩)
    · have hlt := not_le.mp hle
      exact .inl ⟨hid, hlt, hentries, hlt, fun hpend => hle (Redis.Stream.pending_le hpend)⟩
  · rw [if_neg hid] at hentries
    have hfin : q.jobId ∈ finalizedJobs s.log := Classical.not_not.mp fun h => hid ((hp.stored q hq).mpr h)
    exact .inr (.inr ⟨hid, hentries, fun hpend => hid ((hp.intact _).mp hpend).1,
      List.count_eq_one_of_mem hp.finalized_nodup hfin⟩)

/-- The reply decodes, to the messages of jobs as they were enqueued. -/
def DecodesTo (J : JsonLib V) (s : QueueSys V) (reclaimed : Bool) (reply : List RawEntry) : Prop :=
  ∃ qs : List (Enqueued V), (∀ q ∈ qs, q ∈ enqueuedJobs s.log) ∧ reply = qs.map (fun q => some q.entry) ∧
    decodeRecords J reclaimed reply = .ok (qs.map (Enqueued.message reclaimed))

theorem Placed.decodes (hp : Placed J s) (hJ : J.RoundTrips) (reclaimed : Bool)
    {entries : List (StreamId × List (String × String))} (h : ∀ e ∈ entries, e ∈ s.redis.stream.entries) :
    DecodesTo J s reclaimed (entries.map some) := by
  have hsome : ∃ qs : List (Enqueued V), (∀ q ∈ qs, q ∈ enqueuedJobs s.log) ∧
      entries = qs.map Enqueued.entry := by
    induction entries with
    | nil => exact ⟨[], nofun, rfl⟩
    | cons e entries ih =>
      obtain ⟨qs, hqs, rfl⟩ := ih fun e he => h e (List.mem_cons_of_mem _ he)
      obtain ⟨q, hq, rfl⟩ := hp.entries e (h e List.mem_cons_self)
      exact ⟨q :: qs, List.forall_mem_cons.mpr ⟨hq, hqs⟩, rfl⟩
  obtain ⟨qs, hqs, rfl⟩ := hsome
  have hmap : (qs.map Enqueued.entry).map some = qs.map fun q => some q.entry := by rw [List.map_map]; rfl
  refine ⟨qs, hqs, hmap, ?_⟩
  rw [hmap]
  exact decodeRecords_entries hJ reclaimed qs fun q hq => hp.valid q (hqs q hq)

theorem Placed.read_decodes (hp : Placed J s) (hJ : J.RoundTrips) {consumer : String} {count now : Nat}
    {entries : List (StreamId × List (String × String))} {stream : JobStream}
    (h : s.redis.stream.xreadgroup consumer count now = some (entries, stream)) :
    DecodesTo J s false (entries.map some) := by
  obtain ⟨_, _, _, hm, _⟩ := Redis.Stream.xreadgroup_spec h
  exact hp.decodes hJ false fun e he => (hm e he).1

theorem Placed.autoclaim_decodes (hp : Placed J s) (hJ : J.RoundTrips) {consumer : String} {minIdle count now : Nat}
    {startId : StreamId} {scan : Redis.Stream.Scan StreamId (List (String × String))} {stream : JobStream}
    (h : s.redis.stream.xautoclaim consumer minIdle startId count now = some (scan, stream)) :
    DecodesTo J s true (scan.claimed.map some) := by
  obtain ⟨_, _, _, _, hm⟩ := Redis.Stream.xautoclaim_spec hp.intact h
  exact hp.decodes hJ true hm

theorem Placed.claim_decodes (hp : Placed J s) (hJ : J.RoundTrips) {consumer : String} {minIdle now : Nat}
    {ids : List StreamId} {reply : List RawEntry} {stream : JobStream}
    (h : s.redis.stream.xclaim consumer minIdle now ids = some (reply, stream)) : DecodesTo J s true reply := by
  obtain ⟨_, _, _, _, entries, rfl, hm⟩ := Redis.Stream.xclaim_spec hp.intact h
  exact hp.decodes hJ true hm

end

section
variable {V : Type} (J : JsonLib V)

theorem no_job_lost (hJ : J.RoundTrips) {s : QueueSys V} (hs : (jobQueue J).Reachable s) :
    (∀ q ∈ enqueuedJobs s.log,
      (Waiting s q ∧ ¬ Held s q ∧ ¬ Finished s q) ∨ (¬ Waiting s q ∧ Held s q ∧ ¬ Finished s q) ∨
        (¬ Waiting s q ∧ ¬ Held s q ∧ Finished s q)) ∧
    (∀ id ∈ s.redis.stream.pendingIds, id ∈ s.redis.stream.ids) ∧
    (∀ consumer count now entries stream,
      s.redis.stream.xreadgroup consumer count now = some (entries, stream) →
      DecodesTo J s false (entries.map some)) ∧
    (∀ consumer minIdle startId count now scan stream,
      s.redis.stream.xautoclaim consumer minIdle startId count now = some (scan, stream) →
      DecodesTo J s true (scan.claimed.map some)) ∧
    (∀ consumer minIdle now ids reply stream,
      s.redis.stream.xclaim consumer minIdle now ids = some (reply, stream) → DecodesTo J s true reply) := by
  have hp := reachable_placed hs
  refine ⟨?_, fun id h => ((hp.intact id).mp h).1, ?_, ?_, ?_⟩
  · intro q hq
    rcases hp.place hq with ⟨_, hlt, hw⟩ | ⟨_, hpend, hh⟩ | ⟨_, hf⟩
    · refine .inl ⟨hw, fun hh => ?_, fun hf => ?_⟩
      · exact hw.2.2 (List.count_pos_iff.mp (by rw [hh.2.1]; exact Nat.one_pos))
      · exact absurd (hw.1.symm.trans hf.1) (List.cons_ne_nil _ _)
    · refine .inr (.inl ⟨fun hw => hw.2.2 hpend, hh, fun hf => ?_⟩)
      exact hf.2.1 hpend
    · refine .inr (.inr ⟨fun hw => ?_, fun hh => ?_, hf⟩)
      · exact absurd (hw.1.symm.trans hf.1) (List.cons_ne_nil _ _)
      · exact absurd (hh.1.symm.trans hf.1) (List.cons_ne_nil _ _)
  · intro consumer count now entries stream h
    exact hp.read_decodes hJ h
  · intro consumer minIdle startId count now scan stream h
    exact hp.autoclaim_decodes hJ h
  · intro consumer minIdle now ids reply stream h
    exact hp.claim_decodes hJ h

end

/-! ## A queue whose payloads are empty dicts -/

def emptyTexts : JsonText Unit where
  dumps _ := .ok (Python.str "\x7b\x7d")
  loads text := if text = "\x7b\x7d" then .ok () else .error "Expecting value"
  isDict _ := true

def emptyDicts : JsonLib Unit := emptyTexts.lib

theorem emptyDicts_roundTrips : emptyDicts.RoundTrips := by
  intro v text _ h
  obtain rfl : "\x7b\x7d" = text := Except.ok.inj h
  rfl

theorem no_job_lost_read : ∃ s, (jobQueue emptyDicts).runFrom (jobQueue emptyDicts).init
      [.enqueue "job" () 7, .ensureConsumerGroup, .readNew "worker" 1] = some s ∧
    s.redis.stream.pendingIds = [⟨0, 1⟩] ∧ ∀ id ∈ s.redis.stream.pendingIds, id ∈ s.redis.stream.ids :=
  ⟨_, rfl, rfl, (no_job_lost emptyDicts emptyDicts_roundTrips
    ⟨[.enqueue "job" () 7, .ensureConsumerGroup, .readNew "worker" 1], rfl⟩).2.1⟩

end InferenceService
