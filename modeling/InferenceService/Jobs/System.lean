import InferenceService.Jobs.Queue
import InferenceService.Lib.Lts
import InferenceService.Lib.StreamIntact

/-!
# Clients sharing one job queue

Any number of clients send commands in any order. `mark_running`, `complete`
and `fail` read the record in one step and send their script in a later one,
once or never; a reply that is not used stands for a lost reply, an error or a
crash. The log is a history that no command reads.
-/

namespace InferenceService

structure Enqueued (V : Type) where
  id : StreamId
  jobId : String
  payload : V
  payloadJson : String
  createdAtMs : Int

inductive QueueEvent (V : Type) where
  | enqueued (job : Enqueued V)
  | marked (call : MarkCall V)
  | finalized (call : FinalizeCall V)

structure ClaimCall where
  consumerName : String
  minIdleTimeMs : Nat
  messageIds : List StreamId

structure QueueSys (V : Type) where
  redis : JobRedis V
  jobIds : List String
  tokens : List String
  messages : List (JobMessage V)
  marking : List (MarkCall V)
  finalizing : List (FinalizeCall V)
  claiming : List ClaimCall
  log : List (QueueEvent V)

inductive QueueAct (V : Type) where
  | tick (ms : Nat)
  | expire (jobId : String)
  | ensureConsumerGroup
  | enqueue (jobId : String) (payload : V) (nowMs : Int)
  | readNew (consumer : String) (count : Nat)
  | reclaimIdle (consumer : String) (minIdle : Nat) (startId : StreamId) (count : Nat)
  | legacyScan (consumer : String) (minIdle : Nat) (startId : StreamId) (count : Nat)
  | legacyClaim (k : Nat)
  | markGet (k : Nat) (workerName token : String) (nowMs : Int)
  | markEval (k : Nat)
  | finalizeGet (k : Nat) (outcome : JobOutcome V) (nowMs : Int)
  | finalizeEval (k : Nat)

section
variable {V : Type}

namespace Enqueued

def fields (q : Enqueued V) : List (String × String) := enqueueFields q.jobId q.payloadJson q.createdAtMs

def entry (q : Enqueued V) : StreamId × List (String × String) := (q.id, q.fields)

def message (reclaimed : Bool) (q : Enqueued V) : JobMessage V :=
  ⟨q.id, q.jobId, q.payload, q.createdAtMs, reclaimed⟩

end Enqueued

namespace QueueEvent

def jobId : QueueEvent V → String
  | enqueued q => q.jobId
  | marked c => c.message.jobId
  | finalized c => c.lease.message.jobId

def state : QueueEvent V → JobState V
  | enqueued q => queuedState q.jobId q.createdAtMs
  | marked c => c.state
  | finalized c => c.state

def job : QueueEvent V → Option (Enqueued V)
  | enqueued q => some q
  | _ => none

def lease : QueueEvent V → Option (JobLease V)
  | marked c => some c.lease
  | _ => none

def outcomeOf : QueueEvent V → Option String
  | finalized c => some c.lease.message.jobId
  | _ => none

end QueueEvent

def enqueuedJobs (log : List (QueueEvent V)) : List (Enqueued V) := log.filterMap QueueEvent.job

def leases (log : List (QueueEvent V)) : List (JobLease V) := log.filterMap QueueEvent.lease

/-- The jobs that a finalize script has finished, once for each script that returned 1. -/
def finalizedJobs (log : List (QueueEvent V)) : List String := log.filterMap QueueEvent.outcomeOf

def lastWrite (log : List (QueueEvent V)) (jobId : String) : Option (QueueEvent V) :=
  log.find? fun ev => ev.jobId = jobId

/-- The messages a client holds after a reply: none when decoding raises. -/
def received (J : JsonLib V) (reclaimed : Bool) (records : List RawEntry) : List (JobMessage V) :=
  match decodeRecords J reclaimed records with
  | .ok messages => messages
  | .error _ => []

variable (J : JsonLib V)

def QueueSys.withStream (s : QueueSys V) (stream : JobStream) : QueueSys V :=
  { s with redis := { s.redis with stream } }

def QueueSys.step (s : QueueSys V) : QueueAct V → Option (QueueSys V)
  | .tick ms => some { s with redis := { s.redis with now := s.redis.now + ms } }
  | .expire jobId => some { s with redis := { s.redis with job := Function.update s.redis.job jobId none } }
  | .ensureConsumerGroup => s.redis.stream.xgroupCreate.map s.withStream
  | .enqueue jobId payload nowMs =>
    -- `uuid4().hex` is not empty and never repeats; `dict(payload)` is a dict
    if jobId = "" ∨ jobId ∈ s.jobIds ∨ J.isDict payload = false then none
    else
      match encodeJson J payload with
      | .error _ => none
      | .ok payloadJson =>
        let redis := enqueueExec jobId payloadJson nowMs s.redis
        some { s with
          redis
          jobIds := jobId :: s.jobIds
          log := .enqueued ⟨redis.stream.lastId, jobId, payload, payloadJson, nowMs⟩ :: s.log }
  | .readNew consumer count =>
    if count = 0 then none
    else (s.redis.stream.xreadgroup consumer count s.redis.now).map fun r =>
      { s.withStream r.2 with messages := s.messages ++ received J false (r.1.map some) }
  | .reclaimIdle consumer minIdle startId count =>
    if count = 0 then none
    else (s.redis.stream.xautoclaim consumer minIdle startId count s.redis.now).map fun r =>
      { s.withStream r.2 with messages := s.messages ++ received J true (r.1.claimed.map some) }
  | .legacyScan consumer minIdle startId count =>
    if count = 0 then none
    else (s.redis.stream.xpendingRange (scanStart startId) count).map fun nacks =>
      let pending := nacks.map fun n => ⟨n.id, (s.redis.now : Int) - n.deliveredAt⟩
      { s with claiming := s.claiming ++ [⟨consumer, minIdle, candidateIds minIdle pending⟩] }
  | .legacyClaim k => do
    let c ← s.claiming[k]?
    let r ← s.redis.stream.xclaim c.consumerName c.minIdleTimeMs s.redis.now c.messageIds
    some { s.withStream r.2 with
      messages := s.messages ++ received J true r.1
      claiming := s.claiming.eraseIdx k }
  | .markGet k workerName token nowMs =>
    if token ∈ s.tokens then none
    else s.messages[k]?.map fun message =>
      { s with
        tokens := token :: s.tokens
        marking := s.marking ++ [⟨message, workerName, token, s.redis.job message.jobId, nowMs⟩] }
  | .markEval k =>
    s.marking[k]?.map fun c =>
      let (reply, redis) := markRunningLua c s.redis
      { s with
        redis
        marking := s.marking.eraseIdx k
        log := if reply.toOption = some 1 then .marked c :: s.log else s.log }
  | .finalizeGet k outcome nowMs => do
    let lease ← (leases s.log)[k]?
    let c ← (finalizeCall J lease (s.redis.job lease.message.jobId) outcome nowMs).toOption.join
    some { s with finalizing := s.finalizing ++ [c] }
  | .finalizeEval k =>
    s.finalizing[k]?.map fun c =>
      let (reply, redis) := finalizeLua c s.redis
      { s with
        redis
        finalizing := s.finalizing.eraseIdx k
        log := if reply.toOption = some 1 then .finalized c :: s.log else s.log }

def jobQueue : Lts (QueueSys V) (QueueAct V) where
  init := ⟨⟨fun _ => none, .empty, 0⟩, [], [], [], [], [], [], []⟩
  step := QueueSys.step J

end

end InferenceService
