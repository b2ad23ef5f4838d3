import InferenceService.Jobs.Types

/-!
# `JobWorker`

One call of `process_once` as a function of what the queue and `generate_text`
answer. `R` is the type of a `GenerateRequest`. The metrics are left out.
-/

namespace InferenceService

theorem map_eq_ok {ε α β : Type} {f : α → β} {x : Except ε α} {b : β} :
    x.map f = .ok b ↔ ∃ a, x = .ok a ∧ f a = b := by
  cases x with
  | error e => exact ⟨nofun, fun ⟨_, h, _⟩ => nomatch h⟩
  | ok a => exact ⟨fun h => ⟨a, rfl, Except.ok.inj h⟩, fun ⟨_, h, h'⟩ => Except.ok.inj h ▸ congrArg Except.ok h'⟩

/-- An `Exception`: `type(exc).__name__` and `str(exc)`, where an error is the
class of what `__str__` raises itself. -/
structure PyException where
  typeName : String
  text : Except String Python.Str

def PyException.message (exc : PyException) : Except String Python.Str :=
  exc.text.map fun text => if text = [] then Python.str exc.typeName else text

def raisedWith (typeName text : String) : PyException := ⟨typeName, .ok (Python.str text)⟩

/-- `GenerateRequest(**payload)` and the prompt of a request. -/
structure RequestModel (V R : Type) where
  ofPayload : V → Except PyException R
  prompt : R → String

structure WorkerBatchResult where
  reclaimed : Nat
  receivedNew : Nat
  succeeded : Nat
  failed : Nat
  skipped : Nat
deriving DecidableEq, Repr

/-! ## The worker -/

structure JobWorker where
  consumerName : String
  batchSize : Int
  blockMs : Int
  reclaimIdleMs : Int
  consumerGroupReady : Bool
  reclaimStartId : StreamId
  name_ne : consumerName ≠ ""
  batch_pos : 0 < batchSize
  block_nonneg : 0 ≤ blockMs
  reclaim_pos : 0 < reclaimIdleMs

def JobWorker.create (consumerName : String) (batchSize blockMs reclaimIdleMs : Int) : Except String JobWorker :=
  let name := String.ofList (Python.strip consumerName.toList)
  if hname : name = "" then .error "consumer_name must not be empty"
  else if hbatch : batchSize ≤ 0 then .error "batch_size must be positive"
  else if hblock : blockMs < 0 then .error "block_ms must not be negative"
  else if hreclaim : reclaimIdleMs ≤ 0 then .error "reclaim_idle_ms must be positive"
  else .ok ⟨name, batchSize, blockMs, reclaimIdleMs, false, ⊥, hname, not_le.mp hbatch, not_lt.mp hblock,
    not_le.mp hreclaim⟩

section
variable {V R : Type}

/-! ## What the worker is answered -/

structure MessageAnswers (V R : Type) where
  markRunning : Except JobQueueError (Option (JobLease V))
  generateText : R → Except PyException V
  complete : JobLease V → V → Except JobQueueError Bool
  fail : JobLease V → String → Python.Str → Except JobQueueError Bool

/-- The answers to one call of `process_once`; a message's are by its position
in the batch. -/
structure BatchAnswers (V R : Type) where
  ensureConsumerGroup : Except JobQueueError Unit
  reclaimIdle : Except JobQueueError (StreamId × List (JobMessage V))
  readNew : Int → Int → Except JobQueueError (List (JobMessage V))
  message : Nat → JobMessage V → MessageAnswers V R

/-! ## `_process_message` -/

inductive MessageOutcome where
  | succeeded
  | failed
  | skipped
deriving DecidableEq, Repr

def attempt (J : JsonLib V) (G : RequestModel V R) (generateText : R → Except PyException V) (payload : V) :
    Except PyException V := do
  let request ← G.ofPayload payload
  if Python.strip (G.prompt request).toList = [] then .error (raisedWith "ValueError" "prompt must not be empty")
  else do
    let result ← generateText request
    if J.isDict result then .ok result else .error (raisedWith "TypeError" "generate_text must return a mapping")

def processMessage (J : JsonLib V) (G : RequestModel V R) (a : MessageAnswers V R) (message : JobMessage V) :
    Except JobQueueError MessageOutcome :=
  match a.markRunning with
  | .error e => .error e
  | .ok none => .ok .skipped
  | .ok (some lease) =>
    match attempt J G a.generateText message.payload with
    | .error exc =>
      match exc.message with
      -- what is raised in the `except` clause is caught by nobody
      | .error typeName => .error (.other typeName)
      | .ok message =>
        (a.fail lease exc.typeName message).map fun finalized => if finalized then .failed else .skipped
    | .ok result => (a.complete lease result).map fun finalized => if finalized then .succeeded else .skipped

/-! ## `process_once` -/

structure Tally where
  succeeded : Nat := 0
  failed : Nat := 0
  skipped : Nat := 0

def Tally.add (t : Tally) : MessageOutcome → Tally
  | .succeeded => { t with succeeded := t.succeeded + 1 }
  | .failed => { t with failed := t.failed + 1 }
  | .skipped => { t with skipped := t.skipped + 1 }

/-- The loop from position `k` on: the messages passed to `mark_running`, and
the counts. An exception ends it. -/
def processAll (J : JsonLib V) (G : RequestModel V R) (answers : Nat → JobMessage V → MessageAnswers V R) :
    Nat → List (JobMessage V) → Tally → List (JobMessage V) × Except JobQueueError Tally
  | _, [], t => ([], .ok t)
  | k, message :: messages, t =>
    match processMessage J G (answers k message) message with
    | .error e => ([message], .error e)
    | .ok outcome =>
      let rest := processAll J G answers (k + 1) messages (t.add outcome)
      (message :: rest.1, rest.2)

/-- What a call leaves: the worker, the messages that it claimed, those that it
passed to `mark_running`, and its result. -/
structure Batch (V : Type) where
  worker : JobWorker
  claimed : List (JobMessage V)
  marked : List (JobMessage V)
  result : Except JobQueueError WorkerBatchResult

def JobWorker.remainingCapacity (w : JobWorker) (reclaimed : List (JobMessage V)) : Int :=
  max (w.batchSize - reclaimed.length) 0

def JobWorker.readBlockMs (w : JobWorker) (reclaimed : List (JobMessage V)) : Int :=
  if reclaimed = [] then w.blockMs else 0

def JobWorker.readNew (w : JobWorker) (a : BatchAnswers V R) (reclaimed : List (JobMessage V)) :
    Except JobQueueError (List (JobMessage V)) :=
  if w.remainingCapacity reclaimed = 0 then .ok []
  else a.readNew (w.remainingCapacity reclaimed) (w.readBlockMs reclaimed)

def JobWorker.ensureConsumerGroup (w : JobWorker) (a : BatchAnswers V R) : Except JobQueueError JobWorker :=
  if w.consumerGroupReady then .ok w
  else a.ensureConsumerGroup.map fun _ => { w with consumerGroupReady := true }

def JobWorker.processBatch (J : JsonLib V) (G : RequestModel V R) (a : BatchAnswers V R) (w : JobWorker)
    (reclaimed : List (JobMessage V)) : Batch V :=
  match w.readNew a reclaimed with
  | .error e => ⟨w, reclaimed, [], .error e⟩
  | .ok new =>
    let processed := processAll J G a.message 0 (reclaimed ++ new) {}
    ⟨w, reclaimed ++ new, processed.1, processed.2.map fun t =>
      ⟨reclaimed.length, new.length, t.succeeded, t.failed, t.skipped⟩⟩

def JobWorker.processOnce (J : JsonLib V) (G : RequestModel V R) (a : BatchAnswers V R) (w : JobWorker) : Batch V :=
  match w.ensureConsumerGroup a with
  | .error e => ⟨w, [], [], .error e⟩
  | .ok w =>
    match a.reclaimIdle with
    | .error e => ⟨w, [], [], .error e⟩
    | .ok (nextStartId, reclaimed) => processBatch J G a { w with reclaimStartId := nextStartId } reclaimed

/-! ## How the loop ends -/

variable {J : JsonLib V} {G : RequestModel V R} (answers : Nat → JobMessage V → MessageAnswers V R)

theorem processAll_marked_iff (k : Nat) (ms : List (JobMessage V)) (t : Tally) :
    (processAll J G answers k ms t).1 = ms ↔
      ∀ i m, ms[i]? = some m → i + 1 < ms.length →
        ∃ outcome, processMessage J G (answers (k + i) m) m = .ok outcome := by
  induction ms generalizing k t with
  | nil => simp [processAll]
  | cons m ms ih =>
    rw [processAll]
    cases h : processMessage J G (answers k m) m with
    | error e =>
      simp only [List.cons.injEq, true_and, List.length_cons]
      constructor
      · intro hnil i m' _ hi
        rw [← hnil, List.length_nil] at hi
        omega
      · intro hall
        by_contra hne
        have hlen : 0 < ms.length := List.length_pos_iff.mpr (Ne.symm hne)
        obtain ⟨outcome, ho⟩ := hall 0 m rfl (by omega)
        rw [Nat.add_zero, h] at ho
        cases ho
    | ok outcome =>
      simp only [List.cons.injEq, true_and]
      rw [ih]
      constructor
      · intro hall i m' hm hi
        cases i with
        | zero =>
          obtain rfl := Option.some.inj hm
          exact ⟨outcome, h⟩
        | succ i =>
          obtain ⟨o, ho⟩ := hall i m' hm (by simpa using hi)
          exact ⟨o, by rw [← ho]; congr 2; omega⟩
      · intro hall i m' hm hi
        obtain ⟨o, ho⟩ := hall (i + 1) m' hm (by simpa using hi)
        exact ⟨o, by rw [← ho]; congr 2; omega⟩

theorem processAll_error (k : Nat) (ms : List (JobMessage V)) (t : Tally) {e : JobQueueError}
    (h : (processAll J G answers k ms t).2 = .error e) :
    ∃ i m, ms[i]? = some m ∧ processMessage J G (answers (k + i) m) m = .error e := by
  induction ms generalizing k t with
  | nil => cases h
  | cons m ms ih =>
    rw [processAll] at h
    cases hm : processMessage J G (answers k m) m with
    | error e' =>
      rw [hm] at h
      obtain rfl := Except.error.inj h
      exact ⟨0, m, rfl, hm⟩
    | ok outcome =>
      rw [hm] at h
      obtain ⟨i, m', hi, he⟩ := ih (k + 1) (t.add outcome) h
      exact ⟨i + 1, m', hi, by rw [← he]; congr 2; omega⟩

end

end InferenceService
