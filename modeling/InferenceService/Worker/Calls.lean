import InferenceService.Worker.ProcessOnce

/-!
# The calls of `process_once`

The loop again, with the calls that it makes for its messages on the queue and
on `generate_text`, in their order.
-/

namespace InferenceService

/-- A call for a message; `complete` and `fail` with what they returned. -/
inductive WorkerCall (V R : Type) where
  | markRunning (message : JobMessage V) (workerName : String)
  | generateText (request : R)
  | complete (lease : JobLease V) (result : V) (finalized : Except JobQueueError Bool)
  | fail (lease : JobLease V) (errorType : String) (errorMessage : Python.Str) (finalized : Except JobQueueError Bool)

section
variable {V R : Type}

namespace WorkerCall

def markedMessage : WorkerCall V R → Option (JobMessage V)
  | markRunning message _ => some message
  | _ => none

def request : WorkerCall V R → Option R
  | generateText request => some request
  | _ => none

def settledLease : WorkerCall V R → Option (JobLease V)
  | complete lease _ _ => some lease
  | fail lease _ _ _ => some lease
  | _ => none

/-- The job that the call reports to have moved, with its new status. -/
def moved : WorkerCall V R → Option (String × JobStatus)
  | complete lease _ (.ok true) => some (lease.message.jobId, .succeeded)
  | fail lease _ _ (.ok true) => some (lease.message.jobId, .failed)
  | _ => none

end WorkerCall

/-- The jobs that the calls moved to a status. -/
def movedTo (status : JobStatus) (calls : List (WorkerCall V R)) : List String :=
  ((calls.filterMap WorkerCall.moved).filter fun move => move.2 = status).map Prod.fst

variable (J : JsonLib V) (G : RequestModel V R)

def attemptCalls (generateText : R → Except PyException V) (payload : V) :
    List (WorkerCall V R) × Except PyException V :=
  match G.ofPayload payload with
  | .error exc => ([], .error exc)
  | .ok request =>
    if Python.strip (G.prompt request).toList = [] then ([], .error (raisedWith "ValueError" "prompt must not be empty"))
    else ([.generateText request],
      match generateText request with
      | .error exc => .error exc
      | .ok result =>
        if J.isDict result then .ok result else .error (raisedWith "TypeError" "generate_text must return a mapping"))

def messageCalls (workerName : String) (a : MessageAnswers V R) (message : JobMessage V) :
    List (WorkerCall V R) × Except JobQueueError MessageOutcome :=
  match a.markRunning with
  | .error e => ([.markRunning message workerName], .error e)
  | .ok none => ([.markRunning message workerName], .ok .skipped)
  | .ok (some lease) =>
    let tried := attemptCalls J G a.generateText message.payload
    match tried.2 with
    | .error exc =>
      match exc.message with
      | .error typeName => (.markRunning message workerName :: tried.1, .error (.other typeName))
      | .ok errorMessage =>
        let finalized := a.fail lease exc.typeName errorMessage
        (.markRunning message workerName :: tried.1 ++ [.fail lease exc.typeName errorMessage finalized],
          finalized.map fun finalized => if finalized then .failed else .skipped)
    | .ok result =>
      let finalized := a.complete lease result
      (.markRunning message workerName :: tried.1 ++ [.complete lease result finalized],
        finalized.map fun finalized => if finalized then .succeeded else .skipped)

def batchCalls (workerName : String) (answers : Nat → JobMessage V → MessageAnswers V R) :
    Nat → List (JobMessage V) → Tally → List (WorkerCall V R) × Except JobQueueError Tally
  | _, [], t => ([], .ok t)
  | k, message :: messages, t =>
    let one := messageCalls J G workerName (answers k message) message
    match one.2 with
    | .error e => (one.1, .error e)
    | .ok outcome =>
      let rest := batchCalls workerName answers (k + 1) messages (t.add outcome)
      (one.1 ++ rest.1, rest.2)

/-- The calls of `process_once` for its messages. -/
def JobWorker.calls (a : BatchAnswers V R) (w : JobWorker) : List (WorkerCall V R) :=
  match w.ensureConsumerGroup a with
  | .error _ => []
  | .ok w =>
    match a.reclaimIdle with
    | .error _ => []
    | .ok (_, reclaimed) =>
      match w.readNew a reclaimed with
      | .error _ => []
      | .ok new => (batchCalls J G w.consumerName a.message 0 (reclaimed ++ new) {}).1

/-! ## The loop without its calls -/

variable {J G}

theorem attemptCalls_snd (generateText : R → Except PyException V) (payload : V) :
    (attemptCalls J G generateText payload).2 = attempt J G generateText payload := by
  unfold attemptCalls attempt
  cases G.ofPayload payload with
  | error exc => rfl
  | ok request =>
    by_cases hblank : Python.strip (G.prompt request).toList = []
    · simp [bind, Except.bind, hblank]
    · cases hgen : generateText request <;> simp [bind, Except.bind, hblank, hgen]

theorem messageCalls_snd (workerName : String) (a : MessageAnswers V R) (message : JobMessage V) :
    (messageCalls J G workerName a message).2 = processMessage J G a message := by
  unfold messageCalls processMessage
  cases a.markRunning with
  | error e => rfl
  | ok granted =>
    cases granted with
    | none => rfl
    | some lease =>
      simp only [attemptCalls_snd]
      cases attempt J G a.generateText message.payload with
      | ok result => rfl
      | error exc => cases hmessage : exc.message <;> simp only [hmessage]

theorem batchCalls_snd (workerName : String) (answers : Nat → JobMessage V → MessageAnswers V R) (k : Nat)
    (ms : List (JobMessage V)) (t : Tally) :
    (batchCalls J G workerName answers k ms t).2 = (processAll J G answers k ms t).2 := by
  induction ms generalizing k t with
  | nil => rfl
  | cons m ms ih =>
    rw [batchCalls, processAll]
    simp only [messageCalls_snd]
    cases processMessage J G (answers k m) m with
    | error e => rfl
    | ok outcome => exact ih (k + 1) (t.add outcome)

/-! ## The calls of one message -/

/-- The request of a payload that validates with a prompt that is not blank. -/
def validRequest (G : RequestModel V R) (payload : V) : Option R :=
  match G.ofPayload payload with
  | .error _ => none
  | .ok request => if Python.strip (G.prompt request).toList = [] then none else some request

def MessageAnswers.grantedLease (a : MessageAnswers V R) : Option (JobLease V) :=
  match a.markRunning with
  | .ok granted => granted
  | .error _ => none

def MessageOutcome.status : MessageOutcome → Option JobStatus
  | .succeeded => some .succeeded
  | .failed => some .failed
  | .skipped => none

variable (J G) in
/-- The call that settles a lease, if it comes to one. -/
def settleCall (a : MessageAnswers V R) (lease : JobLease V) (payload : V) : Option (WorkerCall V R) :=
  match attempt J G a.generateText payload with
  | .error exc =>
    exc.message.toOption.map fun message => .fail lease exc.typeName message (a.fail lease exc.typeName message)
  | .ok result => some (.complete lease result (a.complete lease result))

theorem attemptCalls_fst (generateText : R → Except PyException V) (payload : V) :
    (attemptCalls J G generateText payload).1 = (validRequest G payload).toList.map .generateText := by
  unfold attemptCalls validRequest
  cases G.ofPayload payload with
  | error exc => rfl
  | ok request =>
    by_cases hblank : Python.strip (G.prompt request).toList = []
    · simp [hblank]
    · simp [hblank]

theorem messageCalls_fst (workerName : String) (a : MessageAnswers V R) (m : JobMessage V) :
    (messageCalls J G workerName a m).1 = .markRunning m workerName ::
      match a.grantedLease with
      | none => []
      | some lease =>
        (validRequest G m.payload).toList.map .generateText ++ (settleCall J G a lease m.payload).toList := by
  unfold messageCalls MessageAnswers.grantedLease settleCall
  cases a.markRunning with
  | error e => rfl
  | ok granted =>
    cases granted with
    | none => rfl
    | some lease =>
      simp only [attemptCalls_snd, attemptCalls_fst]
      cases attempt J G a.generateText m.payload with
      | ok result => rfl
      | error exc => cases hmessage : exc.message <;> simp [hmessage, Except.toOption]

theorem settleCall_cases {a : MessageAnswers V R} {lease : JobLease V} {payload : V} {call : WorkerCall V R}
    (h : settleCall J G a lease payload = some call) :
    (∃ exc message, exc.message = .ok message ∧ attempt J G a.generateText payload = .error exc ∧
        call = .fail lease exc.typeName message (a.fail lease exc.typeName message)) ∨
      ∃ result, attempt J G a.generateText payload = .ok result ∧
        call = .complete lease result (a.complete lease result) := by
  unfold settleCall at h
  cases hattempt : attempt J G a.generateText payload with
  | ok result =>
    rw [hattempt] at h
    exact .inr ⟨result, rfl, (Option.some.inj h).symm⟩
  | error exc =>
    simp only [hattempt] at h
    cases hmessage : exc.message with
    | error typeName => rw [hmessage] at h; cases h
    | ok message =>
      rw [hmessage] at h
      exact .inl ⟨exc, message, hmessage, rfl, (Option.some.inj h).symm⟩

theorem settleCall_marked (a : MessageAnswers V R) (lease : JobLease V) (payload : V) :
    (settleCall J G a lease payload).bind WorkerCall.markedMessage = none := by
  cases h : settleCall J G a lease payload with
  | none => rfl
  | some call => rcases settleCall_cases h with ⟨_, _, _, _, rfl⟩ | ⟨_, _, rfl⟩ <;> rfl

theorem settleCall_request (a : MessageAnswers V R) (lease : JobLease V) (payload : V) :
    (settleCall J G a lease payload).bind WorkerCall.request = none := by
  cases h : settleCall J G a lease payload with
  | none => rfl
  | some call => rcases settleCall_cases h with ⟨_, _, _, _, rfl⟩ | ⟨_, _, rfl⟩ <;> rfl

section
variable (workerName : String) (a : MessageAnswers V R) (m : JobMessage V)

theorem messageCalls_filterMap {β : Type} (f : WorkerCall V R → Option β) :
    (messageCalls J G workerName a m).1.filterMap f = (f (.markRunning m workerName)).toList ++
      match a.grantedLease with
      | none => []
      | some lease => ((validRequest G m.payload).bind fun request => f (.generateText request)).toList ++
          ((settleCall J G a lease m.payload).bind f).toList := by
  have hsingle : ∀ {α : Type} (o : Option α) (g : α → Option β), o.toList.filterMap g = (o.bind g).toList := by
    intro α o g
    cases o with
    | none => rfl
    | some x => cases hg : g x <;> simp [hg]
  have hmark : ∀ call : WorkerCall V R, [call].filterMap f = (f call).toList := fun call => hsingle (some call) f
  rw [messageCalls_fst, ← List.singleton_append, List.filterMap_append, hmark]
  cases a.grantedLease with
  | none => rfl
  | some lease =>
    simp only [List.filterMap_append, List.filterMap_map, hsingle]
    rfl

theorem messageCalls_marked : (messageCalls J G workerName a m).1.filterMap WorkerCall.markedMessage = [m] := by
  rw [messageCalls_filterMap]
  simp only [settleCall_marked]
  cases a.grantedLease with
  | none => rfl
  | some lease => cases validRequest G m.payload <;> rfl

theorem messageCalls_request : (messageCalls J G workerName a m).1.filterMap WorkerCall.request =
    (a.grantedLease.bind fun _ => validRequest G m.payload).toList := by
  rw [messageCalls_filterMap]
  simp only [settleCall_request]
  cases a.grantedLease with
  | none => rfl
  | some lease => cases validRequest G m.payload <;> rfl

theorem messageCalls_moved_eq : (messageCalls J G workerName a m).1.filterMap WorkerCall.moved =
    (a.grantedLease.bind fun lease => (settleCall J G a lease m.payload).bind WorkerCall.moved).toList := by
  rw [messageCalls_filterMap]
  cases a.grantedLease with
  | none => rfl
  | some lease => cases validRequest G m.payload <;> rfl

variable {a m}

/-- A message that does not end in an exception settles the lease that it was
granted, and its outcome is the status to which that call moved the job. -/
theorem settleCall_ok {outcome : MessageOutcome} (h : processMessage J G a m = .ok outcome) {lease : JobLease V}
    (hlease : a.grantedLease = some lease) : ∃ call, settleCall J G a lease m.payload = some call ∧
      call.settledLease = some lease ∧
      call.moved = outcome.status.map fun status => (lease.message.jobId, status) := by
  unfold MessageAnswers.grantedLease at hlease
  unfold processMessage at h
  unfold settleCall
  cases hmark : a.markRunning with
  | error e => rw [hmark] at hlease; cases hlease
  | ok granted =>
    rw [hmark] at h hlease
    obtain rfl : granted = some lease := hlease
    simp only at h
    cases hattempt : attempt J G a.generateText m.payload with
    | error exc =>
      simp only [hattempt] at h ⊢
      cases hmessage : exc.message with
      | error typeName => simp only [hmessage, reduceCtorEq] at h
      | ok message =>
        simp only [hmessage] at h ⊢
        obtain ⟨finalized, hfail, rfl⟩ := map_eq_ok.mp h
        refine ⟨_, rfl, rfl, ?_⟩
        show WorkerCall.moved (.fail lease exc.typeName message (a.fail lease exc.typeName message)) = _
        rw [hfail]
        cases finalized <;> rfl
    | ok result =>
      simp only [hattempt] at h ⊢
      obtain ⟨finalized, hcomplete, rfl⟩ := map_eq_ok.mp h
      refine ⟨_, rfl, rfl, ?_⟩
      rw [hcomplete]
      cases finalized <;> rfl

theorem messageCalls_settled {outcome : MessageOutcome} (h : processMessage J G a m = .ok outcome) :
    (messageCalls J G workerName a m).1.filterMap WorkerCall.settledLease = a.grantedLease.toList := by
  rw [messageCalls_filterMap]
  cases hlease : a.grantedLease with
  | none => rfl
  | some lease =>
    obtain ⟨call, hcall, hsettled, _⟩ := settleCall_ok h hlease
    simp only [hcall, Option.bind_some, hsettled]
    cases validRequest G m.payload <;> rfl

theorem messageCalls_moved {outcome : MessageOutcome} (h : processMessage J G a m = .ok outcome) :
    (messageCalls J G workerName a m).1.filterMap WorkerCall.moved =
      (a.grantedLease.bind fun lease => outcome.status.map fun status => (lease.message.jobId, status)).toList := by
  rw [messageCalls_moved_eq]
  cases hlease : a.grantedLease with
  | none => rfl
  | some lease =>
    obtain ⟨call, hcall, _, hmoved⟩ := settleCall_ok h hlease
    simp only [Option.bind_some, hcall, hmoved]

end

/-! ## The calls of a batch -/

section
variable {workerName : String} {answers : Nat → JobMessage V → MessageAnswers V R}

/-- In a loop that ends normally no message ends in an exception, and the calls
are those of every message in order. -/
theorem batchCalls_ok {k : Nat} {ms : List (JobMessage V)} {t u : Tally}
    (h : (batchCalls J G workerName answers k ms t).2 = .ok u) :
    (∀ x ∈ ms.zipIdx k, ∃ outcome, processMessage J G (answers x.2 x.1) x.1 = .ok outcome) ∧
      (batchCalls J G workerName answers k ms t).1 =
        (ms.zipIdx k).flatMap fun x => (messageCalls J G workerName (answers x.2 x.1) x.1).1 := by
  induction ms generalizing k t with
  | nil => exact ⟨fun x hx => absurd hx List.not_mem_nil, rfl⟩
  | cons m ms ih =>
    rw [batchCalls] at h ⊢
    cases hm : (messageCalls J G workerName (answers k m) m).2 with
    | error e => simp only [hm] at h; cases h
    | ok outcome =>
      simp only [hm] at h ⊢
      obtain ⟨hall, heq⟩ := ih h
      rw [heq, List.zipIdx_cons, List.flatMap_cons, List.forall_mem_cons]
      exact ⟨⟨⟨outcome, messageCalls_snd workerName _ m ▸ hm⟩, hall⟩, rfl⟩

/-- The calls are those of the loop: they mark the same messages, also when an
exception ends it. -/
theorem batchCalls_marked (k : Nat) (ms : List (JobMessage V)) (t : Tally) :
    (batchCalls J G workerName answers k ms t).1.filterMap WorkerCall.markedMessage =
      (processAll J G answers k ms t).1 := by
  induction ms generalizing k t with
  | nil => rfl
  | cons m ms ih =>
    rw [batchCalls, processAll]
    simp only [messageCalls_snd]
    cases processMessage J G (answers k m) m with
    | error e => exact messageCalls_marked workerName (answers k m) m
    | ok outcome =>
      simp only [List.filterMap_append, messageCalls_marked, ih]
      rfl

theorem batchCalls_filterMap {β : Type} (f : WorkerCall V R → Option β) (g : Nat → JobMessage V → List β)
    (hg : ∀ k m outcome, processMessage J G (answers k m) m = .ok outcome →
      (messageCalls J G workerName (answers k m) m).1.filterMap f = g k m) {k : Nat}
    {ms : List (JobMessage V)} {t u : Tally} (h : (batchCalls J G workerName answers k ms t).2 = .ok u) :
    (batchCalls J G workerName answers k ms t).1.filterMap f = (ms.zipIdx k).flatMap fun x => g x.2 x.1 := by
  obtain ⟨hall, heq⟩ := batchCalls_ok h
  rw [heq, List.filterMap_flatMap]
  apply List.flatMap_congr
  intro x hx
  obtain ⟨outcome, hok⟩ := hall x hx
  exact hg _ _ _ hok

end

end

end InferenceService
