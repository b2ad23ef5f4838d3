import InferenceService.Jobs.Types

/-!
# The methods of `RedisStreamJobQueue`

Each method is split where it waits for Redis: the commands and scripts are
functions on the server's data, the rest are functions of the replies.
-/

namespace InferenceService

section
variable {V : Type} (J : JsonLib V)

/-! ## JSON -/

def encodeJson (value : V) : Except JobQueueError String :=
  match J.dumps value with
  | .ok text => .ok text
  | .error (.typeOrValueError exc) => .error (.protocol ("value is not JSON serializable: " ++ exc))
  | .error (.other typeName) => .error (.other typeName)

variable {J} in
theorem encodeJson_ok {value : V} {text : String} : encodeJson J value = .ok text ↔ J.dumps value = .ok text := by
  unfold encodeJson
  cases J.dumps value with
  | ok text' => simp
  | error e => cases e <;> exact ⟨nofun, nofun⟩

def decodeJson (rawValue : String) : Except JobQueueError V :=
  match J.loads rawValue with
  | .ok value => .ok value
  | .error exc => .error (.protocol ("invalid JSON payload: " ++ exc))

/-! ## `_decode_records` -/

/-- An entry of a reply; `none` is the nil of a deleted entry. -/
abbrev RawEntry := Option (StreamId × List (String × String))

def decodeRecord (reclaimed : Bool) (entry : RawEntry) : Except JobQueueError (JobMessage V) :=
  match entry with
  | none => .error (.protocol "stream fields must be a mapping: None")
  | some (streamId, fields) =>
    match Python.dictGet fields "job_id" with
    | none => .error (.protocol "stream message missing job_id")
    | some jobId =>
      if jobId = "" then .error (.protocol "stream message missing job_id")
      else
        match Python.dictGet fields "payload" with
        | none => .error (.protocol "stream message missing JSON payload")
        | some payloadRaw =>
          match (Python.dictGet fields "created_at_ms").bind Python.int with
          | none => .error (.protocol "stream message has invalid created_at_ms")
          | some createdAtMs => do
            let payload ← decodeJson J payloadRaw
            if J.isDict payload then .ok { streamId, jobId, payload, createdAtMs, reclaimed }
            else .error (.protocol "stream payload must be a JSON object")

def decodeRecords (reclaimed : Bool) : List RawEntry → Except JobQueueError (List (JobMessage V))
  | [] => .ok []
  | entry :: entries => do
    let message ← decodeRecord J reclaimed entry
    let messages ← decodeRecords reclaimed entries
    .ok (message :: messages)

end

/-! ## The server's data -/

abbrev JobStream := Redis.Stream StreamId (List (String × String)) String

/-- The records by job id, the stream with its group, and the server's clock. -/
structure JobRedis (V : Type) where
  job : String → Option (JobState V)
  stream : JobStream
  now : Nat

section
variable {V : Type}

def JobRedis.set (r : JobRedis V) (jobId : String) (state : JobState V) : JobRedis V :=
  { r with job := Function.update r.job jobId (some state) }

/-! ## `enqueue` -/

def queuedState (jobId : String) (createdAtMs : Int) : JobState V where
  jobId
  status := .queued
  createdAtMs
  updatedAtMs := createdAtMs
  attemptCount := 0

def enqueueFields (jobId payloadJson : String) (nowMs : Int) : List (String × String) :=
  [("job_id", jobId), ("payload", payloadJson), ("created_at_ms", toString nowMs)]

def enqueueExec (jobId payloadJson : String) (nowMs : Int) (r : JobRedis V) : JobRedis V :=
  let r := r.set jobId (queuedState jobId nowMs)
  { r with stream := r.stream.xadd _ (enqueueFields jobId payloadJson nowMs) (StreamId.lt_next r.now r.stream.lastId) }

/-! ## `mark_running` -/

structure MarkCall (V : Type) where
  message : JobMessage V
  workerName : String
  deliveryToken : String
  read : Option (JobState V)
  nowMs : Int

namespace MarkCall

def base (c : MarkCall V) : JobState V := c.read.getD (queuedState c.message.jobId c.message.createdAtMs)

def state (c : MarkCall V) : JobState V :=
  { c.base with
    status := .running
    updatedAtMs := c.nowMs
    attemptCount := c.base.attemptCount + 1
    worker := some c.workerName
    deliveryToken := some c.deliveryToken }

def lease (c : MarkCall V) : JobLease V := ⟨c.message, c.workerName, c.deliveryToken⟩

end MarkCall

def noGroup : RedisError := .responseError "NOGROUP No such key or consumer group"

/-- `_MARK_RUNNING_LUA`. -/
def markRunningLua (c : MarkCall V) (r : JobRedis V) : Except RedisError Nat × JobRedis V :=
  match r.stream.xpending c.message.streamId with
  | none => (.error noGroup, r)
  | some [] => (.ok 0, r)
  | some (n :: _) =>
    if n.consumer ≠ c.workerName then (.ok 0, r)
    else (.ok 1, r.set c.message.jobId c.state)

def markRunningResult (c : MarkCall V) (reply : Except RedisError Nat) : Except JobQueueError (Option (JobLease V)) :=
  match reply with
  | .error e => .error (.unavailable ("failed to mark job as running: " ++ e.text))
  | .ok claimed => .ok (if claimed = 0 then none else some c.lease)

/-! ## `complete` and `fail` -/

inductive JobOutcome (V : Type) where
  | complete (result : V)
  | fail (errorType : String) (errorMessage : Python.Str)

def stateForTerminalUpdate (lease : JobLease V) (read : Option (JobState V)) : Option (JobState V) :=
  match read with
  | none => none
  | some state => if state.deliveryToken ≠ some lease.deliveryToken then none else some state

structure FinalizeCall (V : Type) where
  lease : JobLease V
  read : JobState V
  outcome : JobOutcome V
  nowMs : Int

namespace FinalizeCall

def state (c : FinalizeCall V) : JobState V :=
  match c.outcome with
  | .complete result =>
    { c.read with
      status := .succeeded
      updatedAtMs := c.nowMs
      worker := some c.lease.workerName
      result := some result
      deliveryToken := none
      errorType := none
      errorMessage := none }
  | .fail errorType errorMessage =>
    { c.read with
      status := .failed
      updatedAtMs := c.nowMs
      worker := some c.lease.workerName
      errorType := some errorType
      errorMessage := some (Python.text (errorMessage.take 1000))
      deliveryToken := none
      result := none }

end FinalizeCall

/-- `_encode_json` of the new state and the client's encoding of its text: only
a result and a message can be refused. -/
def encodeOutcome (J : JsonLib V) : JobOutcome V → Except JobQueueError Unit
  | .complete result => (encodeJson J result).map fun _ => ()
  | .fail _ errorMessage =>
    match Python.encodeUtf8 (errorMessage.take 1000) with
    | none => .error (.other "UnicodeEncodeError")
    | some _ => .ok ()

/-- The part of `complete` and `fail` after the record is read: the script call
to make, if any. -/
def finalizeCall (J : JsonLib V) (lease : JobLease V) (read : Option (JobState V)) (outcome : JobOutcome V)
    (nowMs : Int) : Except JobQueueError (Option (FinalizeCall V)) :=
  match stateForTerminalUpdate lease read with
  | none => .ok none
  | some state => (encodeOutcome J outcome).map fun _ => some ⟨lease, state, outcome, nowMs⟩

/-- `_FINALIZE_LUA`; the record it decodes is the text of a state. -/
def finalizeLua (c : FinalizeCall V) (r : JobRedis V) : Except RedisError Nat × JobRedis V :=
  match r.stream.xpending c.lease.message.streamId with
  | none => (.error noGroup, r)
  | some [] => (.ok 0, r)
  | some (n :: _) =>
    if n.consumer ≠ c.lease.workerName then (.ok 0, r)
    else
      match r.job c.lease.message.jobId with
      | none => (.ok 0, r)
      | some current =>
        if current.deliveryToken ≠ some c.lease.deliveryToken then (.ok 0, r)
        else
          let r := r.set c.lease.message.jobId c.state
          (.ok 1, { r with stream :=
            (r.stream.xack c.lease.message.streamId).xdel c.lease.message.streamId })

def finalizeResult (reply : Except RedisError Nat) : Except JobQueueError Bool :=
  match reply with
  | .error e => .error (.unavailable ("failed to finalize job: " ++ e.text))
  | .ok result => .ok (decide (result ≠ 0))

/-! ## `get_job`, `ensure_consumer_group`, `read_new` and `reclaim_idle` -/

def getJob (reply : Except RedisError (Option (JobState V))) : Except JobQueueError (Option (JobState V)) :=
  match reply with
  | .error e => .error (.unavailable ("failed to read job status: " ++ e.text))
  | .ok state => .ok state

def ensureConsumerGroup (reply : Except RedisError Unit) : Except JobQueueError Unit :=
  match reply with
  | .ok _ => .ok ()
  | .error (.responseError text) =>
    if Python.contains text "BUSYGROUP" then .ok ()
    else .error (.unavailable ("failed to create consumer group: " ++ text))
  | .error (.other text) => .error (.unavailable ("failed to create consumer group: " ++ text))

def markRunning (message : JobMessage V) (workerName deliveryToken : String) (nowMs : Int)
    (getReply : Except RedisError (Option (JobState V))) (evalReply : Except RedisError Nat) :
    Except JobQueueError (Option (JobLease V)) :=
  match getJob getReply with
  | .error e => .error e
  | .ok read => markRunningResult ⟨message, workerName, deliveryToken, read, nowMs⟩ evalReply

def finalize (J : JsonLib V) (lease : JobLease V) (outcome : JobOutcome V) (nowMs : Int)
    (getReply : Except RedisError (Option (JobState V))) (evalReply : Except RedisError Nat) :
    Except JobQueueError Bool :=
  match getJob getReply with
  | .error e => .error e
  | .ok read =>
    match finalizeCall J lease read outcome nowMs with
    | .error e => .error e
    | .ok none => .ok false
    | .ok (some _) => finalizeResult evalReply

/-- `read_new`; no entries stand for the nil of a read that timed out. -/
def readNew (J : JsonLib V) (count blockMs : Int) (reply : Except RedisError (List RawEntry)) :
    Except JobQueueError (List (JobMessage V)) :=
  if count ≤ 0 then .error (.valueError "count must be positive")
  else if blockMs < 0 then .error (.valueError "block_ms must not be negative")
  else
    match reply with
    | .error e => .error (.unavailable ("failed to read new jobs: " ++ e.text))
    | .ok records => decodeRecords J false records

inductive AutoclaimReply where
  | claimed (nextStartId : StreamId) (records : List RawEntry) (deletedMessageIds : List StreamId)
  | malformed (repr : String)

structure PendingEntry where
  messageId : StreamId
  timeSinceDelivered : Int
deriving DecidableEq, Repr

def isXautoclaimUnsupported (text : String) : Bool :=
  Python.contains text.toLower "unknown command" && Python.contains text.toLower "xautoclaim"

/-- The lower end of the `XPENDING` range, exclusive; `none` is `-`. -/
def scanStart (startId : StreamId) : Option StreamId := if startId = ⊥ then none else some startId

def candidateIds (minIdleTimeMs : Int) (pending : List PendingEntry) : List StreamId :=
  (pending.filter fun entry => minIdleTimeMs ≤ entry.timeSinceDelivered).map PendingEntry.messageId

def legacyNextStartId (count : Int) (pending : List PendingEntry) : StreamId :=
  if (pending.length : Int) ≤ count then ⊥ else (pending.getLast?.map PendingEntry.messageId).getD ⊥

def reclaimIdleLegacy (J : JsonLib V) (minIdleTimeMs count : Int) (pending : Except RedisError (List PendingEntry))
    (xclaim : List StreamId → Except RedisError (List RawEntry)) :
    Except JobQueueError (StreamId × List (JobMessage V)) :=
  match pending with
  | .error e => .error (.unavailable ("failed to inspect pending jobs for legacy reclaim: " ++ e.text))
  | .ok [] => .ok (⊥, [])
  | .ok pending =>
    match candidateIds minIdleTimeMs pending with
    | [] => .ok (legacyNextStartId count pending, [])
    | ids =>
      match xclaim ids with
      | .error e => .error (.unavailable ("failed to legacy-claim pending jobs: " ++ e.text))
      | .ok records => (decodeRecords J true records).map fun ms => (legacyNextStartId count pending, ms)

/-- `reclaim_idle`; `legacy` is what `_reclaim_idle_legacy` does after it. -/
def reclaimIdle (J : JsonLib V) (minIdleTimeMs count : Int) (reply : Except RedisError AutoclaimReply)
    (legacy : Except JobQueueError (StreamId × List (JobMessage V))) :
    Except JobQueueError (StreamId × List (JobMessage V)) :=
  if minIdleTimeMs < 0 then .error (.valueError "min_idle_time_ms must not be negative")
  else if count ≤ 0 then .error (.valueError "count must be positive")
  else
    match reply with
    | .error (.responseError text) =>
      if isXautoclaimUnsupported text then legacy
      else .error (.unavailable ("failed to reclaim pending jobs: " ++ text))
    | .error (.other text) => .error (.unavailable ("failed to reclaim pending jobs: " ++ text))
    | .ok (.malformed repr) => .error (.protocol ("unexpected XAUTOCLAIM response: " ++ repr))
    | .ok (.claimed nextStartId records _) =>
      (decodeRecords J true records).map fun messages => (nextStartId, messages)

end

end InferenceService
