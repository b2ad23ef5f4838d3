import InferenceService.Jobs.Statuses
import InferenceService.Worker.ReclaimScan

/-!
# Gateways and workers on one queue

`submit_job` and any number of processes that call `process_once` for ever, one
command of one of them at a time. A command may fail, or run after its client
has given up; a process may be killed and replaced at any moment.
-/

namespace InferenceService

/-- `GenerateRequest`, with `model_dump`. -/
structure RequestApi (V R : Type) extends RequestModel V R where
  modelDump : R → V

/-- A request is built again from what it is dumped to, which is a dict. -/
def RequestApi.RoundTrips {V R : Type} (A : RequestApi V R) (J : JsonLib V) : Prop :=
  ∀ request, A.ofPayload (A.modelDump request) = .ok request ∧ J.isDict (A.modelDump request) = true

/-- Where a process is in `process_once`; `todo` are the positions of the
messages still to come among those that Redis has handed out. A script that has
been sent is known by its token. -/
inductive WorkerPhase (V : Type) where
  | idle
  | scanning
  | claiming (messageIds : List StreamId) (nextStartId : StreamId)
  | reading (reclaimed : List Nat)
  | batch (todo : List Nat)
  | marking (deliveryToken : String) (todo : List Nat)
  | leased (lease : JobLease V) (todo : List Nat)
  | attempted (lease : JobLease V) (result : Except PyException V) (todo : List Nat)
  | finalizing (deliveryToken : String) (todo : List Nat)
  | dead

structure Process (V : Type) where
  worker : JobWorker
  phase : WorkerPhase V

/-- The counters of the job queue, each the sum over all processes that there
have been. -/
structure JobMetrics where
  accepted : Nat := 0
  queueUnavailable : Nat := 0
  transitions : JobStatus → Nat := fun _ => 0
  results : Tally := {}
  reclaims : Nat := 0

namespace JobMetrics

def recordTransition (status : JobStatus) (m : JobMetrics) : JobMetrics :=
  { m with transitions := Function.update m.transitions status (m.transitions status + 1) }

def recordAccepted (m : JobMetrics) : JobMetrics :=
  recordTransition .queued { m with accepted := m.accepted + 1 }

def recordUnavailable (m : JobMetrics) : JobMetrics := { m with queueUnavailable := m.queueUnavailable + 1 }

def recordOutcome (outcome : MessageOutcome) (m : JobMetrics) : JobMetrics :=
  let m := { m with results := m.results.add outcome }
  match outcome with
  | .succeeded => m.recordTransition .succeeded
  | .failed => m.recordTransition .failed
  | .skipped => m

end JobMetrics

/-- `submitted` are the requests by job id, `generated` the calls of
`generate_text` with what they returned, `unanswered` the writes of scripts whose
replies nobody has read. -/
structure Service (W V R : Type) where
  queue : QueueSys V
  process : W → Process V
  submitted : List (String × R)
  generated : List (R × Except PyException V)
  unanswered : List (QueueEvent V)
  metrics : JobMetrics

inductive ServiceAct (W V R : Type) where
  | tick (ms : Nat)
  | expire (jobId : String)
  | submit (request : R) (jobId : String) (nowMs : Int) (answered : Bool)
  | refuse
  | ensureConsumerGroup (w : W)
  | reclaimIdle (w : W)
  | legacyScan (w : W)
  | legacyClaim (w : W) (k : Nat)
  | readNew (w : W)
  | markGet (w : W) (deliveryToken : String) (nowMs : Int)
  | markEval (w : W)
  | generate (w : W) (generateText : R → Except PyException V)
  | finalizeGet (w : W) (nowMs : Int)
  | finalizeEval (w : W)
  | finish (w : W)
  | fail (w : W)
  | replace (w : W) (worker : JobWorker)
  | late (command : QueueAct V)

section
variable {V R : Type}

/-- The request that `generate_text` is called with, if any. -/
def RequestModel.requested (G : RequestModel V R) (payload : V) : Option R :=
  match G.ofPayload payload with
  | .error _ => none
  | .ok request => if Python.strip (G.prompt request).toList = [] then none else some request

def JobOutcome.reported : JobOutcome V → MessageOutcome
  | complete _ => .succeeded
  | fail _ _ => .failed

/-- The commands that may run when nobody waits for them any more. -/
def QueueAct.mayBeLate : QueueAct V → Bool
  | ensureConsumerGroup => true
  | readNew _ _ => true
  | reclaimIdle _ _ _ _ => true
  | legacyClaim _ => true
  | markEval _ => true
  | finalizeEval _ => true
  | _ => false

def newEvents (old new : List (QueueEvent V)) : List (QueueEvent V) := new.take (new.length - old.length)

end

namespace Service
section
variable {W V R : Type} [DecidableEq W] (J : JsonLib V) (A : RequestApi V R)

def command (s : Service W V R) (a : QueueAct V) : Option (Service W V R) :=
  ((jobQueue J).step s.queue a).map fun queue => { s with queue }

def setProcess (w : W) (p : Process V) (s : Service W V R) : Service W V R :=
  { s with process := Function.update s.process w p }

def setPhase (w : W) (phase : WorkerPhase V) (s : Service W V R) : Service W V R :=
  s.setProcess w { s.process w with phase }

/-- `main` catches `JobQueueUnavailableError` only. -/
def raised (w : W) (e : JobQueueError) (s : Service W V R) : Service W V R :=
  match e with
  | .unavailable _ => s.setPhase w .idle
  | _ => s.setPhase w .dead

def counted (w : W) (outcome : MessageOutcome) (todo : List Nat) (s : Service W V R) : Service W V R :=
  { s.setPhase w (.batch todo) with metrics := s.metrics.recordOutcome outcome }

/-! ## The gateway -/

def submitJob (request : R) (jobId : String) (nowMs : Int) (answered : Bool) (s : Service W V R) :
    Option (Service W V R) :=
  if Python.strip (A.prompt request).toList = [] then some s
  else
    (s.command J (.enqueue jobId (A.modelDump request) nowMs)).map fun s' =>
      { s' with
        submitted := (jobId, request) :: s.submitted
        unanswered := if answered then s.unanswered else newEvents s.queue.log s'.queue.log ++ s.unanswered
        metrics := if answered then s.metrics.recordAccepted else s.metrics.recordUnavailable }

/-! ## `process_once` -/

def ensureGroup (w : W) (s : Service W V R) : Option (Service W V R) :=
  match (s.process w).phase with
  | .idle => some ({ s with queue := ensured J (s.process w).worker s.queue }.setProcess w
      ⟨{ (s.process w).worker with consumerGroupReady := true }, .scanning⟩)
  | _ => none

/-- The rest of `reclaim_idle` and of its caller, on what it returns or raises;
`old` messages had been handed out before. -/
def reclaimed (w : W) (old : Nat) (result : Except JobQueueError (StreamId × List (JobMessage V)))
    (s : Service W V R) : Service W V R :=
  match result with
  | .error e => s.raised w e
  | .ok (nextStartId, messages) =>
    { s.setProcess w ⟨{ (s.process w).worker with reclaimStartId := nextStartId },
        .reading (List.range' old messages.length)⟩ with
      metrics := { s.metrics with reclaims := s.metrics.reclaims + messages.length } }

def autoclaim (w : W) (s : Service W V R) : Option (Service W V R) :=
  match (s.process w).phase with
  | .scanning =>
    let worker := (s.process w).worker
    let reply := worker.reclaimCall.xautoclaim true s.queue.redis.now worker.reclaimStartId s.queue.redis.stream
    (s.command J (.reclaimIdle worker.consumerName worker.reclaimIdleMs.toNat worker.reclaimStartId
      worker.batchSize.toNat)).map fun s' =>
        s'.reclaimed w s.queue.messages.length
          (InferenceService.reclaimIdle J worker.reclaimIdleMs worker.batchSize reply.1 (.ok (⊥, [])))
  | _ => none

def legacyScan (w : W) (s : Service W V R) : Option (Service W V R) :=
  match (s.process w).phase with
  | .scanning =>
    let worker := (s.process w).worker
    (s.command J (.legacyScan worker.consumerName worker.reclaimIdleMs.toNat worker.reclaimStartId
      worker.batchSize.toNat)).map fun s' =>
        match worker.reclaimCall.xpendingRange s.queue.redis.now worker.reclaimStartId s.queue.redis.stream with
        | .error _ => s'.setPhase w .idle
        | .ok [] => s'.reclaimed w s.queue.messages.length (.ok (⊥, []))
        | .ok pending =>
          match candidateIds worker.reclaimIdleMs pending with
          | [] => s'.reclaimed w s.queue.messages.length (.ok (legacyNextStartId worker.batchSize pending, []))
          | ids => s'.setPhase w (.claiming ids (legacyNextStartId worker.batchSize pending))
  | _ => none

/-- `k` is the place of the claim among those that may still run. -/
def legacyClaim (w : W) (k : Nat) (s : Service W V R) : Option (Service W V R) :=
  match (s.process w).phase, s.queue.claiming[k]? with
  | .claiming messageIds nextStartId, some call =>
    let worker := (s.process w).worker
    if call.consumerName = worker.consumerName ∧ call.minIdleTimeMs = worker.reclaimIdleMs.toNat ∧
        call.messageIds = messageIds then
      let reply := worker.reclaimCall.xclaim s.queue.redis.now messageIds s.queue.redis.stream
      (s.command J (.legacyClaim k)).map fun s' =>
        match reply.1 with
        | .error _ => s'.setPhase w .idle
        | .ok records => s'.reclaimed w s.queue.messages.length
            ((decodeRecords J true records).map fun messages => (nextStartId, messages))
    else none
  | _, _ => none

def readMessages (w : W) (s : Service W V R) : Option (Service W V R) :=
  match (s.process w).phase with
  | .reading reclaimed =>
    let worker := (s.process w).worker
    -- `max(self._batch_size - len(reclaimed_messages), 0)`
    let capacity := (worker.batchSize - reclaimed.length).toNat
    if capacity = 0 then some (s.setPhase w (.batch reclaimed))
    else
      let reply := xreadgroupReply worker.consumerName capacity s.queue
      (s.command J (.readNew worker.consumerName capacity)).map fun s' =>
        match InferenceService.readNew J capacity (if reclaimed = [] then worker.blockMs else 0) reply with
        | .error e => s'.raised w e
        | .ok messages =>
          s'.setPhase w (.batch (reclaimed ++ List.range' s.queue.messages.length messages.length))
  | _ => none

/-! ## `_process_message` -/

def markGet (w : W) (deliveryToken : String) (nowMs : Int) (s : Service W V R) : Option (Service W V R) :=
  match (s.process w).phase with
  | .batch (k :: todo) => (s.command J (.markGet k (s.process w).worker.consumerName deliveryToken nowMs)).map
      (setPhase w (.marking deliveryToken todo))
  | _ => none

def markEval (w : W) (s : Service W V R) : Option (Service W V R) :=
  match (s.process w).phase with
  | .marking deliveryToken todo =>
    let k := s.queue.marking.findIdx fun c => c.deliveryToken = deliveryToken
    match s.queue.marking[k]? with
    | none => none
    | some c => (s.command J (.markEval k)).map fun s' =>
      match markRunningResult c (markRunningLua c s.queue.redis).1 with
      | .error e => s'.raised w e
      | .ok none => s'.counted w .skipped todo
      | .ok (some lease) =>
        { s'.setPhase w (.leased lease todo) with metrics := s.metrics.recordTransition .running }
  | _ => none

def generateText (w : W) (generateText : R → Except PyException V) (s : Service W V R) : Option (Service W V R) :=
  match (s.process w).phase with
  | .leased lease todo =>
    let payload := lease.message.payload
    some { s.setPhase w (.attempted lease (attempt J A.toRequestModel generateText payload) todo) with
      generated := ((A.requested payload).map fun request => (request, generateText request)).toList ++ s.generated }
  | _ => none

def finalizeGet (w : W) (nowMs : Int) (s : Service W V R) : Option (Service W V R) :=
  match (s.process w).phase with
  | .attempted lease result todo =>
    match settled result with
    | .error typeName => some (s.raised w (.other typeName))
    | .ok outcome =>
      match finalizeCall J lease (s.queue.redis.job lease.message.jobId) outcome nowMs with
      | .error e => some (s.raised w e)
      | .ok none => some (s.counted w .skipped todo)
      | .ok (some _) =>
        let k := (leases s.queue.log).findIdx fun l => l.deliveryToken = lease.deliveryToken
        (s.command J (.finalizeGet k outcome nowMs)).map (setPhase w (.finalizing lease.deliveryToken todo))
  | _ => none

def finalizeEval (w : W) (s : Service W V R) : Option (Service W V R) :=
  match (s.process w).phase with
  | .finalizing deliveryToken todo =>
    let k := s.queue.finalizing.findIdx fun c => c.lease.deliveryToken = deliveryToken
    match s.queue.finalizing[k]? with
    | none => none
    | some c => (s.command J (.finalizeEval k)).map fun s' =>
      match finalizeResult (finalizeLua c s.queue.redis).1 with
      | .error e => s'.raised w e
      | .ok finalized => s'.counted w (if finalized then c.outcome.reported else .skipped) todo
  | _ => none

def finish (w : W) (s : Service W V R) : Option (Service W V R) :=
  match (s.process w).phase with
  | .batch [] => some (s.setPhase w .idle)
  | _ => none

def step (s : Service W V R) : ServiceAct W V R → Option (Service W V R)
  | .tick ms => s.command J (.tick ms)
  | .expire jobId => s.command J (.expire jobId)
  | .submit request jobId nowMs answered => s.submitJob J A request jobId nowMs answered
  | .refuse => some { s with metrics := s.metrics.recordUnavailable }
  | .ensureConsumerGroup w => s.ensureGroup J w
  | .reclaimIdle w => s.autoclaim J w
  | .legacyScan w => s.legacyScan J w
  | .legacyClaim w k => s.legacyClaim J w k
  | .readNew w => s.readMessages J w
  | .markGet w deliveryToken nowMs => s.markGet J w deliveryToken nowMs
  | .markEval w => s.markEval J w
  | .generate w generateText => s.generateText J A w generateText
  | .finalizeGet w nowMs => s.finalizeGet J w nowMs
  | .finalizeEval w => s.finalizeEval J w
  | .finish w => s.finish w
  -- a command that fails; a process that is dead stays so
  | .fail w => match (s.process w).phase with
    | .dead => none
    | _ => some (s.setPhase w .idle)
  | .replace w worker => some (s.setProcess w ⟨worker, .idle⟩)
  | .late a =>
    if a.mayBeLate then (s.command J a).map fun s' =>
      { s' with unanswered := newEvents s.queue.log s'.queue.log ++ s.unanswered }
    else none

end
end Service

def service {W V R : Type} [DecidableEq W] (J : JsonLib V) (A : RequestApi V R) (start : W → JobWorker) :
    Lts (Service W V R) (ServiceAct W V R) where
  init := ⟨(jobQueue J).init, fun w => ⟨start w, .idle⟩, [], [], [], {}⟩
  step s a := s.step J A a

/-! ## Two jobs -/

/-- Payloads are words, and a request is its prompt. -/
def wordJson : JsonLib String where
  dumps word := .ok word
  loads text := .ok text
  isDict _ := true

def wordApi : RequestApi String String where
  ofPayload word := .ok word
  prompt request := request
  modelDump request := request

theorem wordJson_roundTrips : wordJson.RoundTrips := by
  intro v text _ h
  obtain rfl := Except.ok.inj h
  rfl

theorem wordApi_roundTrips : wordApi.RoundTrips wordJson := fun _ => ⟨rfl, rfl⟩

def plainWorker : JobWorker := ⟨"worker", 2, 1000, 1200000, false, ⊥, by simp, by simp, by simp, by simp⟩

/-- The reply to the last script is lost. -/
def serveTwo : List (ServiceAct Unit String String) :=
  [.submit "hi" "first" 7 true, .submit "there" "second" 8 true, .ensureConsumerGroup (), .reclaimIdle (),
    .readNew (), .markGet () "a" 9, .markEval (), .generate () (.ok <| · ++ "!"), .finalizeGet () 10, .finalizeEval (),
    .markGet () "b" 11, .markEval (), .generate () (.ok <| · ++ "?"), .finalizeGet () 12, .late (.finalizeEval 0),
    .fail ()]

theorem serveTwo_runs : ((service wordJson wordApi fun _ => plainWorker).runFrom
    (service wordJson wordApi fun _ => plainWorker).init serveTwo).isSome = true := by
  decide

def servedTwo : Service Unit String String := Option.get _ serveTwo_runs

theorem servedTwo_reachable : (service wordJson wordApi fun _ => plainWorker).Reachable servedTwo :=
  ⟨serveTwo, (Option.some_get _).symm⟩

end InferenceService
