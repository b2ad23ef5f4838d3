import InferenceService.Lib.StreamStamps
import InferenceService.Worker.Config
import InferenceService.Worker.Replies

/-!
# Workers and the time their messages take

Any number of workers, each of which runs `process_once` again and again, on
one stream with a clock in seconds. Redis answers at once; time passes in the
`generate_text` calls, which a worker makes one after another, and while a
worker has nothing to do.
-/

namespace InferenceService

structure LeaseSettings where
  batchSize : Nat
  retryAttempts : Nat
  timeoutSeconds : Double
  fallbackTimeoutSeconds : Double
  backoffSeconds : Double
  batch_pos : 0 < batchSize
  timeout_pos : 0 < timeoutSeconds
  fallback_pos : 0 < fallbackTimeoutSeconds
  backoff_nonneg : 0 ≤ backoffSeconds

namespace LeaseSettings
variable (p : LeaseSettings)

/-- The longest `generate_text` call: every attempt and every back-off of the
retry loop, then the fallback. -/
def callSeconds : ℚ :=
  (p.retryAttempts + 1) * p.timeoutSeconds.value + p.retryAttempts * p.backoffSeconds.value +
    p.fallbackTimeoutSeconds.value

def reclaimIdleMs : Nat := (defaultReclaimIdleMs p.retryAttempts p.timeoutSeconds p.fallbackTimeoutSeconds).toNat

end LeaseSettings

/-- A batch that a worker is in: the messages it has claimed or read and not
finished, since when it works on the first of them, and whether `read_new` is
still to come. -/
structure BatchRun where
  messageIds : List StreamId
  callStartedAt : ℚ
  reading : Bool
deriving DecidableEq

/-- The rest of a batch, the first call of which starts `now`; `process_once`
has returned when nothing is left. -/
def BatchRun.rest (now : ℚ) (messageIds : List StreamId) : Option BatchRun :=
  if messageIds = [] then none else some ⟨messageIds, now, false⟩

structure LeaseSys where
  now : ℚ
  stream : JobStream
  runs : String → Option BatchRun

/-- How `reclaim_idle` claims: with `XAUTOCLAIM` from a cursor, or with
`XCLAIM` of ids that an `XPENDING` has shown. -/
inductive Reclaim where
  | auto (startId : StreamId)
  | legacy (messageIds : List StreamId)

inductive LeaseAct where
  | tick (seconds : ℚ)
  | enqueue (fields : List (String × String))
  | ensureConsumerGroup
  | reclaimIdle (worker : String) (how : Reclaim)
  | readNew (worker : String)
  | finish (worker : String) (finalized : Bool)
  | leave (worker : String)

namespace LeaseSys
variable (s : LeaseSys)

def nowMs : Nat := ⌊1000 * s.now⌋₊

def setRun (worker : String) (run : Option BatchRun) : LeaseSys :=
  { s with runs := Function.update s.runs worker run }

@[simp] theorem setRun_self (worker : String) (run : Option BatchRun) : (s.setRun worker run).runs worker = run :=
  Function.update_self ..

@[simp] theorem setRun_of_ne {worker w : String} (h : w ≠ worker) (run : Option BatchRun) :
    (s.setRun worker run).runs w = s.runs w :=
  Function.update_of_ne h ..

def claim (p : LeaseSettings) (worker : String) : Reclaim → Option (List StreamId × JobStream)
  | .auto startId =>
    (s.stream.xautoclaim worker p.reclaimIdleMs startId p.batchSize s.nowMs).map fun r =>
      (r.1.claimed.map Prod.fst, r.2)
  | .legacy messageIds =>
    if p.batchSize < messageIds.length then none
    else (s.stream.xclaim worker p.reclaimIdleMs s.nowMs messageIds).map fun r => (Redis.claimedIds r.1, r.2)

def read (worker : String) (capacity : Nat) : Option (List StreamId × JobStream) :=
  if capacity = 0 then some ([], s.stream)
  else (s.stream.xreadgroup worker capacity s.nowMs).map fun r => (r.1.map Prod.fst, r.2)

/-- A worker that waits with nothing claimed may wait; any other worker is in a
call, which ends in time. -/
def MayPass (p : LeaseSettings) (seconds : ℚ) (run : BatchRun) : Prop :=
  run.messageIds = [] ∨ (run.reading = false ∧ s.now + seconds ≤ run.callStartedAt + p.callSeconds)

instance (p : LeaseSettings) (seconds : ℚ) (run : BatchRun) : Decidable (s.MayPass p seconds run) :=
  inferInstanceAs (Decidable (_ ∨ _))

def step (p : LeaseSettings) (workers : List String) : LeaseAct → Option LeaseSys
  | .tick seconds =>
    if 0 ≤ seconds ∧ ∀ w ∈ workers, ∀ run ∈ s.runs w, s.MayPass p seconds run then
      some { s with now := s.now + seconds }
    else none
  | .enqueue fields =>
    some { s with stream := s.stream.xadd _ fields (StreamId.lt_next s.nowMs s.stream.lastId) }
  | .ensureConsumerGroup => s.stream.xgroupCreate.map fun stream => { s with stream }
  | .reclaimIdle worker how =>
    if worker ∈ workers ∧ s.runs worker = none then
      (s.claim p worker how).map fun r =>
        { s with stream := r.2 }.setRun worker (some ⟨r.1, s.now, true⟩)
    else none
  | .readNew worker => do
    let run ← s.runs worker
    if run.reading then
      let r ← s.read worker (p.batchSize - run.messageIds.length)
      some ({ s with stream := r.2 }.setRun worker (BatchRun.rest s.now (run.messageIds ++ r.1)))
    else none
  | .finish worker finalized => do
    let run ← s.runs worker
    match run.messageIds with
    | [] => none
    | id :: rest =>
      if run.reading then none
      else
        -- the finalize script acknowledges the message of its owner only
        let stream := if finalized ∧ s.stream.owner id = some worker then (s.stream.xack id).xdel id else s.stream
        some ({ s with stream }.setRun worker (BatchRun.rest s.now rest))
  | .leave worker => some (s.setRun worker none)

end LeaseSys

def leaseSys (p : LeaseSettings) (workers : List String) : Lts LeaseSys LeaseAct where
  init := ⟨0, .empty, fun _ => none⟩
  step s a := s.step p workers a

def LeaseSys.WorksOn (s : LeaseSys) (worker : String) (id : StreamId) : Prop :=
  ∃ run, s.runs worker = some run ∧ id ∈ run.messageIds

def NoTakeover (s : LeaseSys) (a : LeaseAct) (s' : LeaseSys) : Prop :=
  ∀ worker how, a = .reclaimIdle worker how → ∀ id, s'.WorksOn worker id → ∀ other ≠ worker, ¬ s.WorksOn other id

/-! ## The commands are those of `process_once` -/

section
variable {V R : Type} {p : LeaseSettings} {s : LeaseSys} {w : JobWorker} {ids : List StreamId} {stream : JobStream}

def JobWorker.Has (w : JobWorker) (p : LeaseSettings) : Prop :=
  w.batchSize = p.batchSize ∧ w.reclaimIdleMs = p.reclaimIdleMs

theorem claimedIds_some (entries : List (StreamId × List (String × String))) :
    Redis.claimedIds (entries.map some) = entries.map Prod.fst := by
  unfold Redis.claimedIds
  rw [List.filterMap_map, ← List.filterMap_eq_map']
  rfl

theorem claim_reclaimedEntries {c : Course V R} (hw : w.Has p) (hx : c.hasXautoclaim = true)
    (hstream : c.reclaim.redis.stream = s.stream) (hnow : c.reclaim.redis.now = s.nowMs)
    (h : s.claim p w.consumerName (.auto w.reclaimStartId) = some (ids, stream)) :
    Redis.claimedIds (c.reclaimedEntries w) = ids := by
  obtain ⟨⟨scan, stream'⟩, hr, heq⟩ := Option.map_eq_some_iff.mp h
  obtain ⟨rfl, rfl⟩ := Prod.mk.inj heq
  have hreply : c.xautoclaimReply w = .ok (.claimed (scan.next.getD ⊥) (scan.claimed.map some) scan.deleted) := by
    unfold Course.xautoclaimReply
    rw [if_pos hx, hw.1, hw.2, hstream, hnow, Int.toNat_natCast, Int.toNat_natCast, hr]
  unfold Course.reclaimedEntries
  simp only [hreply]
  exact claimedIds_some _

theorem read_xreadgroupReply {t : QueueSys V} {worker : String} {capacity : Nat} (hcap : 0 < capacity)
    (hstream : t.redis.stream = s.stream) (hnow : t.redis.now = s.nowMs)
    (h : s.read worker capacity = some (ids, stream)) :
    ∃ records, xreadgroupReply worker capacity t = .ok records ∧ Redis.claimedIds records = ids := by
  unfold LeaseSys.read at h
  rw [if_neg (Nat.ne_of_gt hcap)] at h
  obtain ⟨⟨entries, stream'⟩, hr, heq⟩ := Option.map_eq_some_iff.mp h
  obtain ⟨rfl, rfl⟩ := Prod.mk.inj heq
  refine ⟨entries.map some, ?_, claimedIds_some _⟩
  unfold xreadgroupReply
  rw [hstream, hnow, Int.toNat_natCast, hr]

end

end InferenceService
