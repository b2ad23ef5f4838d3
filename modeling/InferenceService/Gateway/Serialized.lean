import InferenceService.Gateway.Serving

/-!
# A request among others is a request alone

Whatever other requests do between its calls, a finished request made the calls
and gave the reply of `generate` under the answers that it was given.
-/

namespace InferenceService

/-- What the breaker and the two operations answer one request; the primary's
answers are numbered. -/
structure GivenAnswers (α ε : Type) where
  breaker : BreakerAnswers
  primary : Nat → Except ε α
  fallback : Except ε α

/-- What all the calls of one request are answered: the two readings of the state
around `execute`, and the calls of `execute`. -/
structure RequestAnswers where
  before : CircuitState
  execute : GivenAnswers Python.Dict BackendException
  after : CircuitState

def ExecuteCall.attempts {ε : Type} : ExecuteCall ε → Nat
  | primaryOperation => 1
  | _ => 0

section
variable {α ε : Type}

abbrev ExecuteEvents (α ε : Type) := List ((c : ExecuteCall ε) × c.Answer α ε)

namespace GivenAnswers

/-- The answer to a call that follows so many of the primary's. -/
def toCall (A : GivenAnswers α ε) (made : Nat) : (c : ExecuteCall ε) → c.Answer α ε
  | .allowPrimaryCall => A.breaker.allowPrimaryCall
  | .primaryOperation => A.primary made
  | .recordSuccess permit => A.breaker.recordSuccess permit
  | .recordFailure permit => A.breaker.recordFailure permit
  | .fallbackOperation => A.fallback
  | .snapshot => A.breaker.snapshotRetryAfter
  | .state => A.breaker.state
  | .onRetry _ | .sleep _ | .onTransition _ | .onFallback _ => ()

def Gave (A : GivenAnswers α ε) : Nat → ExecuteEvents α ε → Prop
  | _, [] => True
  | made, e :: es => e.2 = A.toCall made e.1 ∧ A.Gave (made + e.1.attempts) es

/-- The calls with their answers. -/
def answered (A : GivenAnswers α ε) : Nat → List (ExecuteCall ε) → ExecuteEvents α ε
  | _, [] => []
  | made, c :: cs => ⟨c, A.toCall made c⟩ :: A.answered (made + c.attempts) cs

theorem Gave.answered {A : GivenAnswers α ε} {es : ExecuteEvents α ε} :
    ∀ {made : Nat}, A.Gave made es → A.answered made (es.map Sigma.fst) = es := by
  induction es with
  | nil => exact fun _ => rfl
  | cons e es ih =>
    intro made ⟨he, hes⟩
    rw [List.map_cons, GivenAnswers.answered, ih hes, ← he]

end GivenAnswers

def ExecuteArguments.request (q : ExecuteArguments ε) (A : GivenAnswers α ε) : ExecuteRequest α ε where
  requestId := q.requestId
  primaryOperation := A.primary
  fallbackOperation := if q.hasFallback then some A.fallback else none
  fallbackBudget := q.fallbackBudget
  isRetrySafe := q.isRetrySafe
  isFallbackSafe := q.isFallbackSafe
  onRetry := q.onRetry
  onTransition := q.onTransition
  onFallback := q.onFallback

/-! ## The program makes the calls of the function -/

/-- Under these answers the program is this execution. -/
def Runs (A : GivenAnswers α ε) (made : Nat) (p : ExecuteProgram α ε) (x : Execution α ε) : Prop :=
  p.Meets fun es r => A.Gave made es → x = ⟨es.map Sigma.fst, r⟩

section
variable {A : GivenAnswers α ε} {made : Nat} {p : ExecuteProgram α ε} {x : Execution α ε} (c : ResilienceController)
  (q : ExecuteArguments ε)

theorem runs_ret (r : Except (ExecuteError ε) (ResilienceOutcome α)) : Runs A made (.ret r) ⟨[], r⟩ :=
  Program.meets_ret fun _ => rfl

theorem runs_call {call : ExecuteCall ε} {a : call.Answer α ε} {next : call.Answer α ε → ExecuteProgram α ε}
    (ha : A.toCall made call = a) (h : Runs A (made + call.attempts) (next a) x) :
    Runs A made (.call call next) (x.after [call]) := by
  apply Program.meets_call
  intro a' es r hr ⟨ha', hes⟩
  obtain rfl : a' = a := ha'.trans ha
  rw [h es r hr hes]
  rfl

theorem Runs.of_eq {y : Execution α ε} (h : Runs A made p x) (hx : x = y) : Runs A made p y := hx ▸ h

theorem runs_notifyRetry (exc : ε) (h : Runs A made p x) :
    Runs A made (q.notifyRetry exc p) (x.after ((q.request A).retryCalls exc)) := by
  unfold ExecuteArguments.notifyRetry ExecuteRequest.retryCalls
  by_cases hq : q.onRetry = true
  · rw [if_pos hq, if_pos (show (q.request A).onRetry = true from hq)]
    apply runs_call rfl
    exact h
  · rw [if_neg hq, if_neg (show ¬ (q.request A).onRetry = true from hq)]
    exact h

theorem runs_notifyTransition (t : Option CircuitTransition) (h : Runs A made p x) :
    Runs A made (q.notifyTransition t p) (x.after ((q.request A).transitionCalls t)) := by
  unfold ExecuteArguments.notifyTransition ExecuteRequest.transitionCalls
  cases t with
  | none => exact h
  | some t =>
    by_cases hq : q.onTransition = true
    · simp only [if_pos hq, if_pos (show (q.request A).onTransition = true from hq)]
      apply runs_call rfl
      exact h
    · simp only [if_neg hq, if_neg (show ¬ (q.request A).onTransition = true from hq)]
      exact h

theorem runs_notifyFallback (result : String) (h : Runs A made p x) :
    Runs A made (q.notifyFallback result p) (x.after ((q.request A).fallbackCalls result)) := by
  unfold ExecuteArguments.notifyFallback ExecuteRequest.fallbackCalls
  by_cases hq : q.onFallback = true
  · rw [if_pos hq, if_pos (show (q.request A).onFallback = true from hq)]
    apply runs_call rfl
    exact h
  · rw [if_neg hq, if_neg (show ¬ (q.request A).onFallback = true from hq)]
    exact h

theorem runs_pause (h : Runs A made p x) : Runs A made (c.pause p) (x.after c.sleepCalls) := by
  unfold ResilienceController.pause ResilienceController.sleepCalls
  by_cases hb : 0 < c.retryBackoffSeconds
  · rw [if_pos hb, if_pos hb]
    apply runs_call rfl
    exact h
  · rw [if_neg hb, if_neg hb]
    exact h

theorem runs_fallback (attempts : Nat) : Runs A made (q.runFallbackProgram attempts)
    (ResilienceController.runFallbackOrRaise A.breaker (q.request A) attempts) := by
  unfold ExecuteArguments.runFallbackProgram ResilienceController.runFallbackOrRaise
  by_cases hf : q.hasFallback = true
  · rw [if_pos hf, show (q.request A).fallbackOperation = some A.fallback from if_pos hf]
    cases ha : A.fallback with
    | error exc =>
      have ha' : A.toCall made .fallbackOperation = .error exc := ha
      exact (runs_call ha' (runs_notifyFallback q "failed" (runs_ret _))).of_eq (by simp [Execution.after])
    | ok value =>
      have ha' : A.toCall made .fallbackOperation = .ok value := ha
      exact (runs_call ha' (runs_notifyFallback q "succeeded" (runs_call rfl (runs_ret _)))).of_eq
        (by simp [Execution.after, GivenAnswers.toCall, ExecuteArguments.request])
  · rw [if_neg hf, show (q.request A).fallbackOperation = none from if_neg hf]
    exact (runs_call rfl (runs_ret _)).of_eq rfl

theorem runs_returned (permit : CircuitPermit) (attempts : Nat) (value : α) :
    Runs A made (q.returnedProgram permit attempts value)
      (ResilienceController.primaryReturned A.breaker (q.request A) permit attempts value) :=
  (runs_call rfl (runs_notifyTransition q _ (runs_ret _))).of_eq
    (by simp [Execution.after, ResilienceController.primaryReturned, GivenAnswers.toCall, ExecuteArguments.request])

theorem runs_raised (permit : CircuitPermit) (attempts : Nat) (exc : ε) :
    Runs A made (q.raisedProgram permit attempts exc)
      (ResilienceController.primaryRaised A.breaker (q.request A) permit attempts exc) := by
  unfold ExecuteArguments.raisedProgram ResilienceController.primaryRaised
  have hsome : (q.request A).fallbackOperation.isSome = q.hasFallback := by
    unfold ExecuteArguments.request
    by_cases hf : q.hasFallback = true <;> simp [hf]
  rw [hsome, show (q.request A).isFallbackSafe = q.isFallbackSafe from rfl]
  by_cases hs : (q.hasFallback && q.isFallbackSafe exc) = true
  · rw [if_pos hs, if_pos hs]
    exact (runs_call rfl (runs_notifyTransition q _ (runs_fallback q attempts))).of_eq (by simp [GivenAnswers.toCall])
  · rw [if_neg hs, if_neg hs]
    exact (runs_call rfl (runs_notifyTransition q _ (runs_ret _))).of_eq (by simp [GivenAnswers.toCall])

theorem runs_loop (permit : CircuitPermit) (left : Nat) : ∀ made, Runs A made (c.loopProgram q permit left made)
    (c.primaryLoop A.breaker (q.request A) permit left made) := by
  induction left with
  | zero =>
    intro made
    unfold ResilienceController.loopProgram ResilienceController.primaryLoop
    rw [show (q.request A).primaryOperation made = A.primary made from rfl]
    cases ha : A.primary made with
    | ok value => exact runs_call ha (runs_returned q permit (made + 1) value)
    | error exc => exact runs_call ha (runs_raised q permit (made + 1) exc)
  | succ left ih =>
    intro made
    unfold ResilienceController.loopProgram ResilienceController.primaryLoop
    rw [show (q.request A).primaryOperation made = A.primary made from rfl]
    cases ha : A.primary made with
    | ok value => exact runs_call ha (runs_returned q permit (made + 1) value)
    | error exc =>
      dsimp only
      rw [show (q.request A).isRetrySafe = q.isRetrySafe from rfl]
      by_cases hs : q.isRetrySafe exc = true
      · rw [if_pos hs]
        have hretry := runs_notifyRetry q exc (runs_pause c (ih (made + 1)))
        refine runs_call ha ?_
        simpa [hs, ExecuteCall.attempts] using hretry
      · rw [if_neg hs]
        refine runs_call ha ?_
        simpa [hs] using runs_raised q permit (made + 1) exc

theorem runs_execute : Runs A 0 (c.executeProgram q) (c.execute A.breaker (q.request A)) := by
  unfold ResilienceController.executeProgram ResilienceController.execute
  cases ha : A.breaker.allowPrimaryCall with
  | error err => exact runs_call ha (runs_fallback q 0)
  | ok permit => exact runs_call ha (runs_loop c q permit c.retryAttempts 0)

end

/-! ## The answers of a run -/

/-- Of every complete run, the answers can be taken from `A`, changed at most
where `keep` allows it. -/
def Answerable (keep : GivenAnswers α ε → GivenAnswers α ε → Prop) (made : Nat) (p : ExecuteProgram α ε) : Prop :=
  p.Meets fun es _ => ∀ A, ∃ A', A'.Gave made es ∧ keep A A'

section
variable {made : Nat} {p : ExecuteProgram α ε} {keep : GivenAnswers α ε → GivenAnswers α ε → Prop}
  (c : ResilienceController)
  (q : ExecuteArguments ε)

theorem answerable_ret (hkeep : ∀ A, keep A A) (r : Except (ExecuteError ε) (ResilienceOutcome α)) :
    Answerable keep made (.ret r) :=
  Program.meets_ret fun A => ⟨A, trivial, hkeep A⟩

/-- A call whose answer is put in first, and then kept. -/
theorem answerable_call {K : GivenAnswers α ε → GivenAnswers α ε → Prop} {call : ExecuteCall ε}
    {next : call.Answer α ε → ExecuteProgram α ε} (put : call.Answer α ε → GivenAnswers α ε → GivenAnswers α ε)
    (hput : ∀ a A A', K (put a A) A' → A'.toCall made call = a ∧ keep A A')
    (h : ∀ a, Answerable K (made + call.attempts) (next a)) : Answerable keep made (.call call next) := by
  apply Program.meets_call
  intro a es r hr A
  obtain ⟨A', hgave, hkeep⟩ := h a es r hr (put a A)
  obtain ⟨ha, hk⟩ := hput a A A' hkeep
  exact ⟨A', ⟨ha.symm, hgave⟩, hk⟩

theorem Answerable.imp {K : GivenAnswers α ε → GivenAnswers α ε → Prop} (h : Answerable K made p)
    (himp : ∀ A A', K A A' → keep A A') : Answerable keep made p := by
  intro es r hr A
  obtain ⟨A', hgave, hk⟩ := h es r hr A
  exact ⟨A', hgave, himp A A' hk⟩

/-- A callback has nothing to answer. -/
theorem answerable_callback {call : ExecuteCall ε} {next : call.Answer α ε → ExecuteProgram α ε}
    (hunit : ∀ (A : GivenAnswers α ε) a, A.toCall made call = a) (hz : call.attempts = 0)
    (h : ∀ a, Answerable keep made (next a)) :
    Answerable keep made (.call call next) := by
  apply answerable_call (fun _ A => A)
  · exact fun a _ A' hk => ⟨hunit A' a, hk⟩
  · rw [hz]
    exact h

theorem answerable_notifyFallback (result : String) (h : Answerable keep made p) :
    Answerable keep made (q.notifyFallback result p) := by
  unfold ExecuteArguments.notifyFallback
  by_cases hq : q.onFallback = true
  · rw [if_pos hq]
    exact answerable_callback (fun _ _ => rfl) rfl fun _ => h
  · rw [if_neg hq]
    exact h

theorem answerable_notifyTransition (t : Option CircuitTransition) (h : Answerable keep made p) :
    Answerable keep made (q.notifyTransition t p) := by
  unfold ExecuteArguments.notifyTransition
  cases t with
  | none => exact h
  | some t =>
    by_cases hq : q.onTransition = true
    · simp only [if_pos hq]
      exact answerable_callback (fun _ _ => rfl) rfl fun _ => h
    · simp only [if_neg hq]
      exact h

theorem answerable_notifyRetry (exc : ε) (h : Answerable keep made p) :
    Answerable keep made (q.notifyRetry exc p) := by
  unfold ExecuteArguments.notifyRetry
  by_cases hq : q.onRetry = true
  · rw [if_pos hq]
    exact answerable_callback (fun _ _ => rfl) rfl fun _ => h
  · rw [if_neg hq]
    exact h

theorem answerable_pause (h : Answerable keep made p) : Answerable keep made (c.pause p) := by
  unfold ResilienceController.pause
  by_cases hb : 0 < c.retryBackoffSeconds
  · rw [if_pos hb]
    exact answerable_callback (fun _ _ => rfl) rfl fun _ => h
  · rw [if_neg hb]
    exact h

/-- Up to a fallback the answers stay as they are. -/
def KeepsRecords (A A' : GivenAnswers α ε) : Prop :=
  A'.primary = A.primary ∧ A'.breaker.allowPrimaryCall = A.breaker.allowPrimaryCall ∧
    A'.breaker.recordSuccess = A.breaker.recordSuccess ∧ A'.breaker.recordFailure = A.breaker.recordFailure

def KeepsPrimary (n : Nat) (A A' : GivenAnswers α ε) : Prop :=
  (∀ i < n, A'.primary i = A.primary i) ∧ A'.breaker.allowPrimaryCall = A.breaker.allowPrimaryCall

theorem answerable_fallback (attempts : Nat) : Answerable KeepsRecords made (q.runFallbackProgram attempts (α := α)) := by
  unfold ExecuteArguments.runFallbackProgram
  by_cases hf : q.hasFallback = true
  · rw [if_pos hf]
    apply answerable_call (K := fun A A' => KeepsRecords A A' ∧ A'.fallback = A.fallback)
      (fun a A => { A with fallback := a })
    · exact fun a A A' hk => ⟨hk.2, hk.1⟩
    · intro a
      cases a with
      | error exc => exact answerable_notifyFallback q _ (answerable_ret (fun A => ⟨⟨rfl, rfl, rfl, rfl⟩, rfl⟩) _)
      | ok value =>
        apply answerable_notifyFallback q
        apply answerable_call (K := (· = ·)) (fun a A => { A with breaker := { A.breaker with state := a } })
        · rintro a A _ rfl
          exact ⟨rfl, ⟨rfl, rfl, rfl, rfl⟩, rfl⟩
        · exact fun a => answerable_ret (fun _ => rfl) _
  · rw [if_neg hf]
    apply answerable_call (K := (· = ·)) (fun a A => { A with breaker := { A.breaker with snapshotRetryAfter := a } })
    · rintro a A _ rfl
      exact ⟨rfl, rfl, rfl, rfl, rfl⟩
    · exact fun a => answerable_ret (fun _ => rfl) _

theorem answerable_returned (n : Nat) (permit : CircuitPermit) (attempts : Nat) (value : α) :
    Answerable (KeepsPrimary n) made (q.returnedProgram permit attempts value) := by
  apply answerable_call (K := (· = ·))
    (fun a A => { A with breaker := { A.breaker with recordSuccess := fun _ => a } })
  · rintro a A _ rfl
    exact ⟨rfl, fun _ _ => rfl, rfl⟩
  · exact fun a => answerable_notifyTransition q _ (answerable_ret (fun _ => rfl) _)

theorem answerable_raised (n : Nat) (permit : CircuitPermit) (attempts : Nat) (exc : ε) :
    Answerable (KeepsPrimary n) made (q.raisedProgram permit attempts exc (α := α)) := by
  apply answerable_call (K := KeepsRecords)
    (fun a A => { A with breaker := { A.breaker with recordFailure := fun _ => a } })
  · rintro a A A' ⟨hp, hallow, _, hfailure⟩
    refine ⟨?_, fun i _ => congrFun hp i, hallow⟩
    simp [GivenAnswers.toCall, hfailure]
  · intro a
    apply answerable_notifyTransition q
    by_cases hs : (q.hasFallback && q.isFallbackSafe exc) = true
    · rw [if_pos hs]
      exact answerable_fallback q attempts
    · rw [if_neg hs]
      exact answerable_ret (fun _ => ⟨rfl, rfl, rfl, rfl⟩) _

/-- The answer to the primary's call after `made` others, which no later call changes. -/
def GivenAnswers.putPrimary (made : Nat) (a : Except ε α) (A : GivenAnswers α ε) : GivenAnswers α ε :=
  { A with primary := Function.update A.primary made a }

theorem putPrimary_kept (a : Except ε α) (A A' : GivenAnswers α ε) (h : KeepsPrimary (made + 1) (A.putPrimary made a) A') :
    A'.toCall made .primaryOperation = a ∧ KeepsPrimary made A A' := by
  obtain ⟨hp, hallow⟩ := h
  refine ⟨?_, fun i hi => ?_, hallow⟩
  · show A'.primary made = a
    rw [hp made (Nat.lt_succ_self made)]
    simp [GivenAnswers.putPrimary]
  · rw [hp i (Nat.lt_succ_of_lt hi)]
    simp [GivenAnswers.putPrimary, Function.update_of_ne (Nat.ne_of_lt hi)]

theorem answerable_loop (permit : CircuitPermit) (left : Nat) :
    ∀ made, Answerable (KeepsPrimary made) made (c.loopProgram q permit left made (α := α)) := by
  induction left with
  | zero =>
    intro made
    unfold ResilienceController.loopProgram
    apply answerable_call (GivenAnswers.putPrimary made) putPrimary_kept
    intro a
    cases a with
    | ok value => exact answerable_returned q (made + 1) permit (made + 1) value
    | error exc => exact answerable_raised q (made + 1) permit (made + 1) exc
  | succ left ih =>
    intro made
    unfold ResilienceController.loopProgram
    apply answerable_call (GivenAnswers.putPrimary made) putPrimary_kept
    intro a
    cases a with
    | ok value => exact answerable_returned q (made + 1) permit (made + 1) value
    | error exc =>
      by_cases hs : q.isRetrySafe exc = true
      · simp only [if_pos hs]
        exact answerable_notifyRetry q exc (answerable_pause c (ih (made + 1)))
      · simp only [if_neg hs]
        exact answerable_raised q (made + 1) permit (made + 1) exc

theorem answerable_execute : Answerable (fun _ _ => True) 0 (c.executeProgram q (α := α)) := by
  unfold ResilienceController.executeProgram
  apply answerable_call (K := fun A A' => A'.breaker.allowPrimaryCall = A.breaker.allowPrimaryCall)
    (fun a A => { A with breaker := { A.breaker with allowPrimaryCall := a } })
  · exact fun a A A' hk => ⟨hk, trivial⟩
  · intro a
    cases a with
    | error err => exact (answerable_fallback q 0).imp fun A A' hk => hk.2.1
    | ok permit => exact (answerable_loop c q permit c.retryAttempts 0).imp fun A A' hk => hk.2

/-- A complete run of the program is the function under the answers of the run. -/
theorem execute_of_run [Inhabited α] {es : ExecuteEvents α ε} {r : Except (ExecuteError ε) (ResilienceOutcome α)}
    (h : (c.executeProgram q).Returns es r) :
    ∃ A : GivenAnswers α ε, A.Gave 0 es ∧ c.execute A.breaker (q.request A) = ⟨es.map Sigma.fst, r⟩ := by
  obtain ⟨A, hgave, _⟩ := answerable_execute c q es r h
    ⟨⟨.error (.init 0), fun _ => none, fun _ => none, 0, .closed⟩, fun _ => .ok default, .ok default⟩
  exact ⟨A, hgave, runs_execute c q es r h hgave⟩

end

end

/-! ## The handler -/

def Gateway.inference (g : Gateway) (A : GivenAnswers Python.Dict BackendException) : Inference where
  inferenceBackend := g.inferenceBackend
  controller := g.controller
  backend _ made := A.primary made
  fallbackBackend := if g.hasFallback then some fun _ => A.fallback else none
  fallbackThinkingBudget := g.fallbackThinkingBudget

section
variable (g : Gateway) (r : GatewayRequest)

/-- All that `generate` does for the request under these answers: the calls of the
breaker, the backends and the callbacks, and the metrics that it records. -/
def Gateway.events (A : RequestAnswers) : List GatewayEvent :=
  if Python.strip r.args.prompt.toList = [] then []
  else
    let x := g.controller.execute A.execute.breaker ((g.inference A.execute).request r.requestId r.args)
    gauges A.before ++ lifted (A.execute.answered 0 x.calls) ++ (if x.result.isOk then gauges A.after else []) ++
      (generate (g.inference A.execute) A.execute.breaker r.requestId r.args).backendFailures.map fun failure =>
        ⟨.recordBackendFailure failure.2, ()⟩

/-- The request is `generate` under the answers `A`: it did all that `generate`
does, in that order and with those answers, and gave its reply. -/
structure Serial (A : RequestAnswers) (es : List GatewayEvent) (reply : Except GenerateError GenerateReply) : Prop where
  events : es = g.events r A
  handled : (generate (g.inference A.execute) A.execute.breaker r.requestId r.args).result = reply

theorem inference_request (A : GivenAnswers Python.Dict BackendException) :
    (g.inference A).request r.requestId r.args = (g.arguments r).request A := by
  unfold Inference.request Gateway.inference ExecuteArguments.request Gateway.arguments
  by_cases hf : g.hasFallback = true <;> simp [hf]

/-- A run of `generate_text` on these answers. -/
theorem generateText_of_run {es : List GatewayEvent} {x : Except (ExecuteError BackendException) Python.Dict}
    (h : (g.generateTextProgram r).Returns es x) : ∃ A : RequestAnswers,
      (let y := g.controller.execute A.execute.breaker ((g.inference A.execute).request r.requestId r.args)
      es = gauges A.before ++ lifted (A.execute.answered 0 y.calls) ++ if y.result.isOk then gauges A.after else []) ∧
        (g.inference A.execute).generateText A.execute.breaker r.requestId r.args = x := by
  obtain ⟨before, _, rfl, hbind⟩ := gauges_run h
  obtain ⟨_, es₂, outcome, rfl, hembed, htail⟩ := Program.returns_bind.mp hbind
  obtain ⟨es₁, rfl, hrun⟩ := Program.returns_embed.mp hembed
  obtain ⟨A, hgave, hexec⟩ := execute_of_run g.controller (g.arguments r) hrun
  have htext : (g.inference A).generateText A.breaker r.requestId r.args = outcome.map ResilienceOutcome.toDict := by
    rw [Inference.generateText, inference_request]
    show (g.controller.execute A.breaker ((g.arguments r).request A)).result.map ResilienceOutcome.toDict = _
    rw [hexec]
  cases outcome with
  | error e =>
    obtain ⟨rfl, rfl⟩ := Program.returns_ret.mp htail
    refine ⟨⟨before, A, .closed⟩, ?_, htext⟩
    dsimp only
    rw [inference_request, hexec, hgave.answered]
    simp [Except.isOk, Except.toBool]
  | ok outcome =>
    obtain ⟨after, _, rfl, hret⟩ := gauges_run htail
    obtain ⟨rfl, rfl⟩ := Program.returns_ret.mp hret
    refine ⟨⟨before, A, after⟩, ?_, htext⟩
    dsimp only
    rw [inference_request, hexec, hgave.answered]
    simp [Except.isOk, Except.toBool]

theorem raise_run {es : List GatewayEvent} {statusCode : Nat} {errorType message : String}
    {reply : Except GenerateError GenerateReply} (h : (g.raiseProgram statusCode errorType message).Returns es reply) :
    es = [⟨.recordBackendFailure errorType, ()⟩] ∧
      (raiseBackendError g.inferenceBackend statusCode errorType message).result = reply := by
  obtain ⟨_, _, rfl, hret⟩ := Program.returns_call.mp h
  obtain ⟨rfl, rfl⟩ := Program.returns_ret.mp hret
  exact ⟨rfl, rfl⟩

theorem answer_run {es : List GatewayEvent} {x : Except (ExecuteError BackendException) Python.Dict}
    {reply : Except GenerateError GenerateReply} (h : (g.answerProgram x).Returns es reply)
    (hne : Python.strip r.args.prompt.toList ≠ []) {I : Inference} (hI : I.inferenceBackend = g.inferenceBackend)
    {B : BreakerAnswers} (hx : I.generateText B r.requestId r.args = x) :
    es = (generate I B r.requestId r.args).backendFailures.map
        (fun failure => (⟨.recordBackendFailure failure.2, ()⟩ : GatewayEvent)) ∧
      (generate I B r.requestId r.args).result = reply := by
  unfold generate
  rw [if_neg hne, hx, hI]
  cases x with
  | ok result =>
    obtain ⟨rfl, rfl⟩ := Program.returns_ret.mp h
    exact ⟨rfl, rfl⟩
  | error e =>
    cases e with
    | circuitOpen err => exact raise_run g h
    | raised exc =>
      cases exc with
      | other typeName =>
        obtain ⟨rfl, rfl⟩ := Program.returns_ret.mp h
        exact ⟨rfl, rfl⟩
      | error exc =>
        unfold Gateway.answerProgram at h
        cases hk : exc.kind with
        | resourceExhausted =>
          simp only [hk] at h ⊢
          obtain ⟨rfl, rfl⟩ := Program.returns_ret.mp h
          exact ⟨rfl, rfl⟩
        | _ =>
          simp only [hk] at h ⊢
          exact raise_run g h

theorem generate_of_run {es : List GatewayEvent} {reply : Except GenerateError GenerateReply}
    (h : (g.generateProgram r).Returns es reply) : ∃ A, Serial g r A es reply := by
  unfold Gateway.generateProgram at h
  by_cases hblank : Python.strip r.args.prompt.toList = []
  · rw [if_pos hblank] at h
    obtain ⟨rfl, rfl⟩ := Program.returns_ret.mp h
    let A : RequestAnswers := ⟨.closed, ⟨⟨.error (.init 0), fun _ => none, fun _ => none, 0, .closed⟩, fun _ => .ok [],
      .ok []⟩, .closed⟩
    refine ⟨A, ?_, ?_⟩
    · unfold Gateway.events
      rw [if_pos hblank]
    · unfold generate
      rw [if_pos hblank]
  · rw [if_neg hblank] at h
    obtain ⟨es₁, es₂, x, rfl, htext, hanswer⟩ := Program.returns_bind.mp h
    obtain ⟨A, hes₁, hx⟩ := generateText_of_run g r htext
    obtain ⟨hes₂, hreply⟩ := answer_run g r hanswer hblank (show (g.inference A.execute).inferenceBackend = _ from rfl) hx
    refine ⟨A, ?_, hreply⟩
    unfold Gateway.events
    rw [if_neg hblank, hes₁, hes₂]

end

/-! ## Any interleaving -/

end InferenceService
