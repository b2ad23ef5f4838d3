import InferenceService.Jobs.System
import InferenceService.Worker.ProcessOnce

/-!
# `JobWorker` on a `RedisStreamJobQueue`

The answers that one call of `process_once` gets from a Redis that answers
every command. Other clients act between the commands, so each command comes
with the state in which it arrives.
-/

namespace InferenceService

section
variable {V R : Type}

def backlog (r : JobRedis V) : List (StreamId × List (String × String)) :=
  r.stream.entries.filter fun e => r.stream.lastDelivered < e.1

structure Arrival (V : Type) where
  after : ℚ
  state : QueueSys V
  waited : 0 ≤ after
  backlog_ne : backlog state.redis ≠ []

/-- What Redis, the clock and `generate_text` answer for one message. -/
structure MessageReplies (V R : Type) where
  markGet : Option (JobState V)
  deliveryToken : String
  markNowMs : Int
  markEval : Nat
  generateText : R → Except PyException V
  finalGet : Option (JobState V)
  finalNowMs : Int
  finalEval : Nat

/-- What Redis holds as the commands of a call arrive, and the replies for the
messages by their position. -/
structure Course (V R : Type) where
  hasXautoclaim : Bool
  reclaim : QueueSys V
  legacyClaim : QueueSys V
  read : QueueSys V
  arrival : Option (Arrival V)
  message : Nat → MessageReplies V R

/-! ## A read that waits -/

/-- When `XREADGROUP .. BLOCK blockMs` is answered, in seconds, and from which
state: `none` is never, and no state is the nil of a read whose time is up.
`BLOCK 0` has no limit. -/
def blockingRead (blockMs : Int) (s : QueueSys V) (arrival : Option (Arrival V)) : Option (ℚ × Option (QueueSys V)) :=
  if s.redis.stream.group.isNone ∨ backlog s.redis ≠ [] then some (0, some s)
  else
    match arrival with
    | none => if blockMs = 0 then none else some ((blockMs : ℚ) / 1000, none)
    | some a =>
      if blockMs = 0 ∨ a.after ≤ (blockMs : ℚ) / 1000 then some (a.after, some a.state)
      else some ((blockMs : ℚ) / 1000, none)

def timedOut : RedisError := .other "Timeout reading from socket"

def xreadgroupReply (consumer : String) (count : Int) (s : QueueSys V) : Except RedisError (List RawEntry) :=
  match s.redis.stream.xreadgroup consumer count.toNat s.redis.now with
  | none => .error noGroup
  | some r => .ok (r.1.map some)

def blockingReadReply (socketTimeoutSeconds : ℚ) (consumer : String) (count : Int) :
    Option (ℚ × Option (QueueSys V)) → Except RedisError (List RawEntry)
  | none => .error timedOut
  | some (after, served) =>
    if socketTimeoutSeconds < after then .error timedOut
    else
      match served with
      | none => .ok []
      | some s => xreadgroupReply consumer count s

/-! ## The replies of a call -/

def xgroupCreateReply (s : QueueSys V) : Except RedisError Unit :=
  match s.redis.stream.xgroupCreate with
  | none => .error (.responseError "BUSYGROUP Consumer Group name already exists")
  | some _ => .ok ()

def unknownXautoclaim : RedisError := .responseError "unknown command 'XAUTOCLAIM', with args beginning with: "

namespace Course
variable (c : Course V R) (w : JobWorker)

def xautoclaimReply : Except RedisError AutoclaimReply :=
  if c.hasXautoclaim then
    match c.reclaim.redis.stream.xautoclaim w.consumerName w.reclaimIdleMs.toNat w.reclaimStartId w.batchSize.toNat
      c.reclaim.redis.now with
    | none => .error noGroup
    | some r => .ok (.claimed (r.1.next.getD ⊥) (r.1.claimed.map some) r.1.deleted)
  else .error unknownXautoclaim

def xpendingReply : Except RedisError (List PendingEntry) :=
  match c.reclaim.redis.stream.xpendingRange (scanStart w.reclaimStartId) w.batchSize.toNat with
  | none => .error noGroup
  | some nacks => .ok (nacks.map fun n => ⟨n.id, (c.reclaim.redis.now : Int) - n.deliveredAt⟩)

def xclaimReply (ids : List StreamId) : Except RedisError (List RawEntry) :=
  match c.legacyClaim.redis.stream.xclaim w.consumerName w.reclaimIdleMs.toNat c.legacyClaim.redis.now ids with
  | none => .error noGroup
  | some r => .ok r.1

end Course

def MessageReplies.answers (J : JsonLib V) (w : JobWorker) (x : MessageReplies V R) (message : JobMessage V) :
    MessageAnswers V R where
  markRunning := markRunning message w.consumerName x.deliveryToken x.markNowMs (.ok x.markGet) (.ok x.markEval)
  generateText := x.generateText
  complete lease result := finalize J lease (.complete result) x.finalNowMs (.ok x.finalGet) (.ok x.finalEval)
  fail lease errorType errorMessage :=
    finalize J lease (.fail errorType errorMessage) x.finalNowMs (.ok x.finalGet) (.ok x.finalEval)

def Course.answers (J : JsonLib V) (socketTimeoutSeconds : ℚ) (w : JobWorker) (s : QueueSys V) (c : Course V R) :
    BatchAnswers V R where
  ensureConsumerGroup := ensureConsumerGroup (xgroupCreateReply s)
  reclaimIdle := reclaimIdle J w.reclaimIdleMs w.batchSize (c.xautoclaimReply w)
    (reclaimIdleLegacy J w.reclaimIdleMs w.batchSize (c.xpendingReply w) (c.xclaimReply w))
  readNew count blockMs := readNew J count blockMs
    (blockingReadReply socketTimeoutSeconds w.consumerName count (blockingRead blockMs c.read c.arrival))
  message k := (c.message k).answers J w

/-! ## Courses that happen -/

def ensured (J : JsonLib V) (w : JobWorker) (s : QueueSys V) : QueueSys V :=
  if w.consumerGroupReady then s else ((jobQueue J).step s .ensureConsumerGroup).getD s

def Later (J : JsonLib V) (s t : QueueSys V) : Prop := ∃ as, (jobQueue J).runFrom s as = some t

/-- The commands of a call that starts in `s` arrive in this order, with any
steps of any client in between. A worker that is ready made the group before. -/
structure Course.Happens (J : JsonLib V) (w : JobWorker) (s : QueueSys V) (c : Course V R) : Prop where
  ready : w.consumerGroupReady = true → s.redis.stream.group.isSome = true
  reclaim : Later J (ensured J w s) c.reclaim
  legacyClaim : Later J c.reclaim c.legacyClaim
  read : Later J c.legacyClaim c.read
  arrival : ∀ a ∈ c.arrival, Later J c.read a.state

end

end InferenceService
