import InferenceService.Gateway.Serving

/-!
# The metrics of a gateway at rest

Each counter is the sum of what the requests did, and what one request did is
accounted for when it has finished. So the counters of a gateway in which no
request is in flight fit together, and fit the replies.
-/

namespace InferenceService

/-! ## What one call weighs -/

def retried (reason : String) : GatewayEvent → Nat
  | ⟨.execute (.onRetry exc), _⟩ => if exc.retryReason = reason then 1 else 0
  | _ => 0

def fellBack (result : String) : GatewayEvent → Nat
  | ⟨.execute (.onFallback result'), _⟩ => if result' = result then 1 else 0
  | _ => 0

def told (transition : CircuitTransition) : GatewayEvent → Nat
  | ⟨.execute (.onTransition transition'), _⟩ => if transition' = transition then 1 else 0
  | _ => 0

def failed (errorType : String) : GatewayEvent → Nat
  | ⟨.recordBackendFailure errorType', _⟩ => if errorType' = errorType then 1 else 0
  | _ => 0

def attempted : GatewayEvent → Nat
  | ⟨.execute .primaryOperation, _⟩ => 1
  | _ => 0

def permits : GatewayEvent → Nat
  | ⟨.execute .allowPrimaryCall, .ok _⟩ => 1
  | _ => 0

def recorded : GatewayEvent → Nat
  | ⟨.execute (.recordSuccess _), _⟩ | ⟨.execute (.recordFailure _), _⟩ => 1
  | _ => 0

def permitGranted : GatewayEvent → Option CircuitPermit
  | ⟨.execute .allowPrimaryCall, .ok permit⟩ => some permit
  | _ => none

def permitRecorded : GatewayEvent → Option CircuitPermit
  | ⟨.execute (.recordSuccess permit), _⟩ | ⟨.execute (.recordFailure permit), _⟩ => some permit
  | _ => none

/-- A record that moved the breaker. -/
def moved (transition : CircuitTransition) : GatewayEvent → Nat
  | ⟨.execute (.recordSuccess _), a⟩ => if a = some transition then 1 else 0
  | ⟨.execute (.recordFailure _), a⟩ => if a = some transition then 1 else 0
  | _ => 0

def askedFallback : GatewayEvent → Nat
  | ⟨.execute .fallbackOperation, _⟩ => 1
  | _ => 0

/-! ## The counters are sums over the requests -/

def GatewayMetrics.after (g : Gateway) (m : GatewayMetrics) : GatewayEvent → GatewayMetrics
  | ⟨.execute (.onRetry exc), _⟩ => m.recordRetry exc.retryReason
  | ⟨.execute (.onTransition transition), _⟩ => m.recordCircuitTransition transition
  | ⟨.execute (.onFallback result), _⟩ => m.recordFallback result g.fallbackThinkingBudget
  | ⟨.setCircuitState candidate value, _⟩ => m.setCircuitState candidate value
  | ⟨.recordBackendFailure errorType, _⟩ => m.recordBackendFailure errorType
  | _ => m

section
variable {β ι κ : Type} (g : Gateway) (breaker : BreakerObject β ι κ) {b₀ : β}

theorem shared_metrics {o o' : β × GatewayMetrics} {met : ι × Except BackendException Python.Dict} {c : GatewayCall}
    {a : c.Answer} (h : (g.shared breaker).serve o met c = some (a, o')) : o'.2 = o.2.after g ⟨c, a⟩ := by
  have hbreaker : ∀ {method : BreakerMethod} {x : method.Answer},
      ((breaker.serve o.1 met.1 method).map fun r => (r.1, r.2, o.2)) = some (x, o') → o'.2 = o.2 := by
    intro method x hx
    obtain ⟨r, _, hr⟩ := Option.map_eq_some_iff.mp hx
    exact congrArg (fun p => p.2.2) hr.symm
  cases c with
  | setCircuitState candidate value => exact congrArg (fun p => p.2.2) (Option.some.inj h).symm
  | recordBackendFailure errorType => exact congrArg (fun p => p.2.2) (Option.some.inj h).symm
  | execute call =>
    cases call with
    | allowPrimaryCall => exact hbreaker h
    | recordSuccess permit => exact hbreaker h
    | recordFailure permit => exact hbreaker h
    | snapshot => exact hbreaker h
    | state => exact hbreaker h
    | _ => exact congrArg (fun p => p.2.2) (Option.some.inj h).symm

/-- A counter that every call moves by its weight. -/
theorem counter_eq {m : GatewayMetrics → Nat} {w : GatewayEvent → Nat} (h₀ : m .empty = 0)
    (hm : ∀ x e, m (x.after g e) = m x + w e) {s : ServingState β} (hs : (g.serving breaker b₀).Reachable s) :
    m s.object.2 = s.tally w := by
  have htally := Crowd.reachable_tally (m := fun o : β × GatewayMetrics => m o.2) (w := w) (fun o met c a o' h => by
    rw [shared_metrics g breaker h]
    exact hm o.2 ⟨c, a⟩) (fun o k o' h => by
    obtain ⟨b, _, rfl⟩ := Option.map_eq_some_iff.mp h
    rfl) hs
  rw [htally, h₀, Nat.zero_add]

theorem retryAttempts_after (reason : String) (x : GatewayMetrics) (e : GatewayEvent) :
    (x.after g e).retryAttempts reason = x.retryAttempts reason + retried reason e := by
  obtain ⟨c, a⟩ := e
  cases c with
  | execute call =>
    cases call with
    | onRetry exc => exact counted_apply x.retryAttempts exc.retryReason reason
    | _ => rfl
  | _ => rfl

theorem transitions_after (transition : CircuitTransition) (x : GatewayMetrics) (e : GatewayEvent) :
    (x.after g e).transitions transition = x.transitions transition + told transition e := by
  obtain ⟨c, a⟩ := e
  cases c with
  | execute call =>
    cases call with
    | onTransition t => exact counted_apply x.transitions t transition
    | _ => rfl
  | _ => rfl

theorem fallbackRequests_after (result : String) (x : GatewayMetrics) (e : GatewayEvent) :
    (x.after g e).fallbackRequests result = x.fallbackRequests result + fellBack result e := by
  obtain ⟨c, a⟩ := e
  cases c with
  | execute call =>
    cases call with
    | onFallback r => exact counted_apply x.fallbackRequests r result
    | _ => rfl
  | _ => rfl

theorem backendFailures_after (errorType : String) (x : GatewayMetrics) (e : GatewayEvent) :
    (x.after g e).backendFailures errorType = x.backendFailures errorType + failed errorType e := by
  obtain ⟨c, a⟩ := e
  cases c with
  | recordBackendFailure t => exact counted_apply x.backendFailures t errorType
  | setCircuitState _ _ => rfl
  | execute call => cases call <;> rfl

end

/-! ## What one request comes to -/

def total (w : GatewayEvent → Nat) (es : List GatewayEvent) : Nat := (es.map w).sum

@[simp] theorem total_nil (w : GatewayEvent → Nat) : total w [] = 0 := rfl

@[simp] theorem total_cons (w : GatewayEvent → Nat) (e : GatewayEvent) (es : List GatewayEvent) :
    total w (e :: es) = w e + total w es := by
  simp [total]

@[simp] theorem total_append (w : GatewayEvent → Nat) (es es' : List GatewayEvent) :
    total w (es ++ es') = total w es + total w es' := by
  simp [total]

theorem lifted_cons (e : (c : ExecuteCall BackendException) × c.Answer Python.Dict BackendException)
    (es : List ((c : ExecuteCall BackendException) × c.Answer Python.Dict BackendException)) :
    lifted (e :: es) = ⟨.execute e.1, e.2⟩ :: lifted es := rfl

theorem total_permits (es : List GatewayEvent) : total permits es = (es.filterMap permitGranted).length := by
  induction es with
  | nil => rfl
  | cons e es ih =>
    have he : permits e = (permitGranted e).toList.length := by
      unfold permits permitGranted
      split <;> rfl
    rw [total_cons, he, ih]
    cases hg : permitGranted e <;> simp [hg, Nat.add_comm]

theorem total_recorded (es : List GatewayEvent) : total recorded es = (es.filterMap permitRecorded).length := by
  induction es with
  | nil => rfl
  | cons e es ih =>
    have he : recorded e = (permitRecorded e).toList.length := by
      unfold recorded permitRecorded
      split <;> rfl
    rw [total_cons, he, ih]
    cases hr : permitRecorded e <;> simp [hr, Nat.add_comm]

/-- What the calls come to, when so many attempts belong to a permit granted
before them; `granted` and `owned` are the permits that they get and record, and
`routed` counts an answer of the fallback. -/
structure Account (tries : Nat) (granted owned : List CircuitPermit) (routed : Nat) (es : List GatewayEvent) :
    Prop where
  attempts : total attempted es = total (retried "backend_timeout") es + total (retried "backend_unavailable") es +
    total permits es + tries
  reasons : ∀ reason, reason ≠ "backend_timeout" → reason ≠ "backend_unavailable" → total (retried reason) es = 0
  grants : es.filterMap permitGranted = granted
  records : es.filterMap permitRecorded = owned
  transitions : ∀ t, total (told t) es = total (moved t) es
  fallbacks : total askedFallback es = total (fellBack "succeeded") es + total (fellBack "failed") es
  route : total (fellBack "succeeded") es = routed
  failures : ∀ errorType, total (failed errorType) es = 0

/-- The call is neither of the fallback nor about a record, a transition or a failure. -/
structure Plain (e : GatewayEvent) : Prop where
  recorded : permitRecorded e = none
  told : ∀ t, told t e = 0
  moved : ∀ t, moved t e = 0
  asked : askedFallback e = 0
  fellBack : ∀ result, fellBack result e = 0
  failed : ∀ errorType, failed errorType e = 0

section
variable {tries routed : Nat} {granted owned : List CircuitPermit} {es : List GatewayEvent}

theorem account_nil : Account 0 [] [] 0 [] where
  attempts := rfl
  reasons _ _ _ := rfl
  grants := rfl
  records := rfl
  transitions _ := rfl
  fallbacks := rfl
  route := rfl
  failures _ := rfl

theorem Account.plain (h : Account tries granted owned routed es) {e : GatewayEvent} (hp : Plain e)
    {tries' : Nat} {granted' : List CircuitPermit}
    (ha : attempted e + tries = retried "backend_timeout" e + retried "backend_unavailable" e + permits e + tries')
    (hr : ∀ reason, reason ≠ "backend_timeout" → reason ≠ "backend_unavailable" → retried reason e = 0)
    (hg : granted' = (permitGranted e).toList ++ granted) : Account tries' granted' owned routed (e :: es) := by
  have hattempts := h.attempts
  constructor
  · simp only [total_cons]
    omega
  · intro reason h₁ h₂
    simpa [hr reason h₁ h₂] using h.reasons reason h₁ h₂
  · rw [hg, ← h.grants]
    cases hp : permitGranted e <;> simp [hp]
  · rw [List.filterMap_cons_none hp.recorded]
    exact h.records
  · intro t
    simpa [hp.told, hp.moved] using h.transitions t
  · simpa [hp.asked, hp.fellBack] using h.fallbacks
  · simpa [hp.fellBack] using h.route
  · intro errorType
    simpa [hp.failed] using h.failures errorType

theorem Account.state (h : Account tries granted owned routed es) (a : CircuitState) :
    Account tries granted owned routed (⟨.execute .state, a⟩ :: es) :=
  h.plain ⟨rfl, fun _ => rfl, fun _ => rfl, rfl, fun _ => rfl, fun _ => rfl⟩ (by simp [attempted, retried, permits])
    (fun _ _ _ => rfl) rfl

theorem Account.snapshot (h : Account tries granted owned routed es) (a : ℚ) :
    Account tries granted owned routed (⟨.execute .snapshot, a⟩ :: es) :=
  h.plain ⟨rfl, fun _ => rfl, fun _ => rfl, rfl, fun _ => rfl, fun _ => rfl⟩ (by simp [attempted, retried, permits])
    (fun _ _ _ => rfl) rfl

theorem Account.sleep (h : Account tries granted owned routed es) (seconds : ℚ) (a : Unit) :
    Account tries granted owned routed (⟨.execute (.sleep seconds), a⟩ :: es) :=
  h.plain ⟨rfl, fun _ => rfl, fun _ => rfl, rfl, fun _ => rfl, fun _ => rfl⟩ (by simp [attempted, retried, permits])
    (fun _ _ _ => rfl) rfl

theorem Account.gauge (h : Account tries granted owned routed es) (candidate : CircuitState) (value : Bool) (a : Unit) :
    Account tries granted owned routed (⟨.setCircuitState candidate value, a⟩ :: es) :=
  h.plain ⟨rfl, fun _ => rfl, fun _ => rfl, rfl, fun _ => rfl, fun _ => rfl⟩ (by simp [attempted, retried, permits])
    (fun _ _ _ => rfl) rfl

theorem Account.refused (h : Account tries granted owned routed es) (err : CircuitOpenError) :
    Account tries granted owned routed (⟨.execute .allowPrimaryCall, .error err⟩ :: es) :=
  h.plain ⟨rfl, fun _ => rfl, fun _ => rfl, rfl, fun _ => rfl, fun _ => rfl⟩ (by simp [attempted, retried, permits])
    (fun _ _ _ => rfl) rfl

theorem Account.permitted (h : Account 1 granted owned routed es) (permit : CircuitPermit) :
    Account 0 (permit :: granted) owned routed (⟨.execute .allowPrimaryCall, .ok permit⟩ :: es) :=
  h.plain ⟨rfl, fun _ => rfl, fun _ => rfl, rfl, fun _ => rfl, fun _ => rfl⟩ rfl (fun _ _ _ => rfl) rfl

theorem Account.tried (h : Account 0 granted owned routed es) (a : Except BackendException Python.Dict) :
    Account 1 granted owned routed (⟨.execute .primaryOperation, a⟩ :: es) :=
  h.plain ⟨rfl, fun _ => rfl, fun _ => rfl, rfl, fun _ => rfl, fun _ => rfl⟩ rfl (fun _ _ _ => rfl) rfl

/-- What may be retried has one of the two reasons. -/
theorem retryReason_of_safe {exc : BackendException} (hs : exc.isRetrySafe = true) :
    exc.retryReason = "backend_timeout" ∨ exc.retryReason = "backend_unavailable" := by
  cases exc with
  | other typeName => cases hs
  | error e =>
    unfold BackendException.retryReason
    cases hk : e.kind <;> simp_all [BackendException.isRetrySafe, BackendError.isRetrySafe]

theorem Account.retry (h : Account 1 granted owned routed es) {exc : BackendException} (hs : exc.isRetrySafe = true)
    (a : Unit) : Account 0 granted owned routed (⟨.execute (.onRetry exc), a⟩ :: es) := by
  have hreason := retryReason_of_safe hs
  refine h.plain ⟨rfl, fun _ => rfl, fun _ => rfl, rfl, fun _ => rfl, fun _ => rfl⟩ ?_ ?_ rfl
  · rcases hreason with hreason | hreason <;> simp [attempted, retried, permits, hreason]
  · intro reason h₁ h₂
    rcases hreason with hreason | hreason <;> simp [retried, hreason, h₁.symm, h₂.symm]

/-- The callback of a record that answered `t`. -/
def tellings : Option CircuitTransition → List GatewayEvent
  | some t => [⟨.execute (.onTransition t), ()⟩]
  | none => []

/-- A record and, where it moved the breaker, the callback. -/
theorem Account.settled (h : Account 0 granted owned routed es) {e : GatewayEvent} {permit : CircuitPermit}
    {t : Option CircuitTransition}
    (he : e = ⟨.execute (.recordSuccess permit), t⟩ ∨ e = ⟨.execute (.recordFailure permit), t⟩) :
    Account 0 granted (permit :: owned) routed (e :: (tellings t ++ es)) := by
  constructor
  · rcases he with rfl | rfl <;> cases t <;> simpa [tellings, attempted, retried, permits] using h.attempts
  · intro reason h₁ h₂
    rcases he with rfl | rfl <;> cases t <;> simpa [tellings, retried] using h.reasons reason h₁ h₂
  · rcases he with rfl | rfl <;> cases t <;> simpa [tellings, permitGranted, List.filterMap_cons] using h.grants
  · rcases he with rfl | rfl <;> cases t <;> simpa [tellings, permitRecorded, List.filterMap_cons] using h.records
  · intro t'
    have ht := h.transitions t'
    rcases he with rfl | rfl <;> cases t <;> simp [tellings, told, moved] <;> omega
  · rcases he with rfl | rfl <;> cases t <;> simpa [tellings, askedFallback, fellBack] using h.fallbacks
  · rcases he with rfl | rfl <;> cases t <;> simpa [tellings, fellBack] using h.route
  · intro errorType
    rcases he with rfl | rfl <;> cases t <;> simpa [tellings, failed] using h.failures errorType

/-- A call of the fallback with its callback. -/
theorem account_fallback {result : String} (hr : result = "failed" ∨ result = "succeeded")
    (a : Except BackendException Python.Dict) :
    Account 0 [] [] (if result = "succeeded" then 1 else 0)
      [⟨.execute .fallbackOperation, a⟩, ⟨.execute (.onFallback result), ()⟩] := by
  constructor
  · rfl
  · exact fun _ _ _ => rfl
  · rfl
  · rfl
  · exact fun _ => rfl
  · rcases hr with rfl | rfl <;> simp [askedFallback, fellBack]
  · rcases hr with rfl | rfl <;> simp [fellBack]
  · exact fun _ => rfl

theorem Account.then_state (h : Account tries granted owned routed es) (a : CircuitState) :
    Account tries granted owned routed (es ++ [⟨.execute .state, a⟩]) := by
  constructor
  · simpa [attempted, retried, permits] using h.attempts
  · intro reason h₁ h₂
    simpa [retried] using h.reasons reason h₁ h₂
  · simpa [permitGranted, List.filterMap_cons] using h.grants
  · simpa [permitRecorded, List.filterMap_cons] using h.records
  · intro t
    simpa [told, moved] using h.transitions t
  · simpa [askedFallback, fellBack] using h.fallbacks
  · simpa [fellBack] using h.route
  · intro errorType
    simpa [failed] using h.failures errorType

end

/-! ## The programs -/

/-- Whether the fallback answered. -/
def routedByFallback : Except (ExecuteError BackendException) (ResilienceOutcome Python.Dict) → Nat
  | .ok outcome => if outcome.route = .fallback then 1 else 0
  | .error _ => 0

/-- Every complete run of the program, which gets no permit, has the account. -/
def AccountsFor (tries : Nat) (owned : List CircuitPermit) (p : ExecuteProgram Python.Dict BackendException) : Prop :=
  p.Meets fun es r => Account tries [] owned (routedByFallback r) (lifted es)

section
variable (g : Gateway) (r : GatewayRequest)

theorem accounts_fallback (attempts : Nat) : AccountsFor 0 [] ((g.arguments r).runFallbackProgram attempts) := by
  unfold ExecuteArguments.runFallbackProgram
  by_cases hf : (g.arguments r).hasFallback = true
  · rw [if_pos hf]
    apply Program.meets_call
    intro a
    cases a with
    | error exc =>
      apply Program.meets_call
      intro _
      apply Program.meets_ret
      exact account_fallback (.inl rfl) _
    | ok value =>
      apply Program.meets_call
      intro _
      apply Program.meets_call
      intro state
      apply Program.meets_ret
      exact (account_fallback (.inr rfl) _).then_state state
  · rw [if_neg hf]
    apply Program.meets_call
    intro a
    apply Program.meets_ret
    exact account_nil.snapshot a

theorem accounts_notify {p : ExecuteProgram Python.Dict BackendException} (h : AccountsFor 0 [] p)
    (t : Option CircuitTransition) : ((g.arguments r).notifyTransition t p).Meets fun es x =>
      ∃ es', lifted es = tellings t ++ es' ∧ Account 0 [] [] (routedByFallback x) es' := by
  cases t with
  | none => exact h.imp fun es x hx => ⟨lifted es, rfl, hx⟩
  | some t =>
    apply Program.meets_call
    intro _
    exact h.imp fun es x hx => ⟨lifted es, rfl, hx⟩

theorem accounts_returned (permit : CircuitPermit) (attempts : Nat) (value : Python.Dict) :
    AccountsFor 0 [permit] ((g.arguments r).returnedProgram permit attempts value) := by
  have hrest : AccountsFor 0 [] (.ret (.ok ⟨value, .primary, r.requestId, attempts, permit.state, none⟩)) :=
    Program.meets_ret account_nil
  apply Program.meets_call
  intro t
  refine (accounts_notify g r hrest t).imp ?_
  rintro es x ⟨es', hes, h⟩
  rw [lifted_cons, hes]
  exact h.settled (.inl rfl)

theorem accounts_raised (permit : CircuitPermit) (attempts : Nat) (exc : BackendException) :
    AccountsFor 0 [permit] ((g.arguments r).raisedProgram permit attempts exc) := by
  have hrest : AccountsFor 0 [] (if (g.arguments r).hasFallback && (g.arguments r).isFallbackSafe exc then
      (g.arguments r).runFallbackProgram attempts else .ret (.error (.raised exc))) := by
    by_cases hs : ((g.arguments r).hasFallback && (g.arguments r).isFallbackSafe exc) = true
    · rw [if_pos hs]
      exact accounts_fallback g r attempts
    · rw [if_neg hs]
      exact Program.meets_ret account_nil
  apply Program.meets_call
  intro t
  refine (accounts_notify g r hrest t).imp ?_
  rintro es x ⟨es', hes, h⟩
  rw [lifted_cons, hes]
  exact h.settled (.inr rfl)

theorem accounts_loop (c : ResilienceController) (permit : CircuitPermit) (left : Nat) :
    ∀ made, AccountsFor 1 [permit] (c.loopProgram (g.arguments r) permit left made) := by
  induction left with
  | zero =>
    intro made
    unfold ResilienceController.loopProgram
    apply Program.meets_call
    intro a
    cases a with
    | ok value => exact (accounts_returned g r permit (made + 1) value).imp fun es x h => h.tried _
    | error exc => exact (accounts_raised g r permit (made + 1) exc).imp fun es x h => h.tried _
  | succ left ih =>
    intro made
    unfold ResilienceController.loopProgram
    apply Program.meets_call
    intro a
    cases a with
    | ok value => exact (accounts_returned g r permit (made + 1) value).imp fun es x h => h.tried _
    | error exc =>
      by_cases hs : (g.arguments r).isRetrySafe exc = true
      · simp only [if_pos hs]
        apply Program.meets_call
        intro _
        unfold ResilienceController.pause
        by_cases hb : 0 < c.retryBackoffSeconds
        · rw [if_pos hb]
          apply Program.meets_call
          intro _
          exact (ih (made + 1)).imp fun es x h => ((h.sleep _ _).retry hs _).tried _
        · rw [if_neg hb]
          exact (ih (made + 1)).imp fun es x h => (h.retry hs _).tried _
      · simp only [if_neg hs]
        exact (accounts_raised g r permit (made + 1) exc).imp fun es x h => h.tried _

/-- What a whole request comes to: it records the permits that it gets, and gets
at most one. -/
def Paid (routed : Nat) (es : List GatewayEvent) : Prop :=
  ∃ granted, granted.length ≤ 1 ∧ Account 0 granted granted routed es

theorem paid_execute (c : ResilienceController) :
    (c.executeProgram (g.arguments r)).Meets fun es x => Paid (routedByFallback x) (lifted es) := by
  apply Program.meets_call
  intro a
  cases a with
  | error err => exact (accounts_fallback g r 0).imp fun es x h => ⟨[], Nat.zero_le 1, h.refused err⟩
  | ok permit =>
    exact (accounts_loop g r c permit c.retryAttempts 0).imp fun es x h => ⟨[permit], le_rfl, h.permitted permit⟩

end

/-! ## The handler -/

/-- The fallback answered the request. -/
def byFallback : Except GenerateError GenerateReply → Bool
  | .ok reply => reply.headers.lookup "X-Inference-Route" = some (.str (Python.str "fallback"))
  | .error _ => false

/-- The `error` of a reply that tells a backend's failure. -/
def failureOf : Except GenerateError GenerateReply → Option String
  | .error (.http ⟨_, .backendError errorType _ _⟩) => some errorType
  | _ => none

section
variable (g : Gateway) (r : GatewayRequest)

theorem Account.after_gauges {tries routed : Nat} {granted owned : List CircuitPermit} {es : List GatewayEvent}
    (h : Account tries granted owned routed es) (state : CircuitState) :
    Account tries granted owned routed (gauges state ++ es) :=
  (((h.gauge _ _ _).gauge _ _ _).gauge _ _ _).state state

theorem Account.then_gauges {tries routed : Nat} {granted owned : List CircuitPermit} {es : List GatewayEvent}
    (h : Account tries granted owned routed es) (state : CircuitState) :
    Account tries granted owned routed (es ++ gauges state) := by
  unfold gauges
  constructor
  · simpa [attempted, retried, permits] using h.attempts
  · intro reason h₁ h₂
    simpa [retried] using h.reasons reason h₁ h₂
  · simpa [permitGranted, List.filterMap_cons] using h.grants
  · simpa [permitRecorded, List.filterMap_cons] using h.records
  · intro t
    simpa [told, moved] using h.transitions t
  · simpa [askedFallback, fellBack] using h.fallbacks
  · simpa [fellBack] using h.route
  · intro errorType
    simpa [failed] using h.failures errorType

theorem paid_text {es : List GatewayEvent} {x : Except (ExecuteError BackendException) Python.Dict}
    (h : (g.generateTextProgram r).Returns es x) :
    ∃ outcome, outcome.map ResilienceOutcome.toDict = x ∧ Paid (routedByFallback outcome) es := by
  obtain ⟨state, _, rfl, hbind⟩ := gauges_run h
  obtain ⟨es₁, es₂, outcome, rfl, hexec, htail⟩ := Program.returns_bind.mp hbind
  have hembed : (Program.embed GatewayCall.execute (g.controller.executeProgram (g.arguments r))).Meets fun es x =>
      Paid (routedByFallback x) es := Program.meets_embed (paid_execute g r g.controller)
  obtain ⟨granted, hsingle, h₁⟩ := hembed es₁ outcome hexec
  cases outcome with
  | error e =>
    obtain ⟨rfl, rfl⟩ := Program.returns_ret.mp htail
    rw [List.append_nil]
    exact ⟨.error e, rfl, granted, hsingle, h₁.after_gauges state⟩
  | ok outcome =>
    obtain ⟨state', es₃, rfl, hret⟩ := gauges_run htail
    obtain ⟨rfl, rfl⟩ := Program.returns_ret.mp hret
    rw [List.append_nil]
    exact ⟨.ok outcome, rfl, granted, hsingle, (h₁.then_gauges state').after_gauges state⟩

/-- What a finished request comes to: the account of its `execute`, and the one
failure that its reply tells. -/
structure SettledRequest (es : List GatewayEvent) (reply : Except GenerateError GenerateReply) : Prop where
  attempts : total attempted es = total (retried "backend_timeout") es + total (retried "backend_unavailable") es +
    total permits es
  reasons : ∀ reason, reason ≠ "backend_timeout" → reason ≠ "backend_unavailable" → total (retried reason) es = 0
  records : es.filterMap permitRecorded = es.filterMap permitGranted
  single : (es.filterMap permitGranted).length ≤ 1
  transitions : ∀ t, total (told t) es = total (moved t) es
  fallbacks : total askedFallback es = total (fellBack "succeeded") es + total (fellBack "failed") es
  route : total (fellBack "succeeded") es = if byFallback reply then 1 else 0
  failures : ∀ errorType, total (failed errorType) es = if failureOf reply = some errorType then 1 else 0

theorem SettledRequest.recorded_eq {es : List GatewayEvent} {reply : Except GenerateError GenerateReply}
    (h : SettledRequest es reply) : total recorded es = total permits es := by
  rw [total_recorded, total_permits, h.records]

theorem Paid.recorded_eq {routed : Nat} {es : List GatewayEvent} (h : Paid routed es) :
    total recorded es = total permits es := by
  obtain ⟨granted, _, haccount⟩ := h
  rw [total_recorded, total_permits, haccount.records, haccount.grants]

theorem Paid.settle {routed : Nat} {es : List GatewayEvent} {reply : Except GenerateError GenerateReply}
    (hpaid : Paid routed es) (hroute : routed = if byFallback reply then 1 else 0) (hno : failureOf reply = none) :
    SettledRequest es reply := by
  obtain ⟨granted, hsingle, h⟩ := hpaid
  constructor
  · exact h.attempts
  · exact h.reasons
  · exact h.records.trans h.grants.symm
  · rw [h.grants]
    exact hsingle
  · exact h.transitions
  · exact h.fallbacks
  · exact h.route.trans hroute
  · intro errorType
    rw [h.failures, if_neg]
    simp [hno]

theorem Paid.settle_raised {es es' : List GatewayEvent} {reply : Except GenerateError GenerateReply}
    (hpaid : Paid 0 es) {statusCode : Nat} {errorType message : String}
    (hr : (g.raiseProgram statusCode errorType message).Returns es' reply) : SettledRequest (es ++ es') reply := by
  obtain ⟨granted, hsingle, h⟩ := hpaid
  obtain ⟨_, _, rfl, hret⟩ := Program.returns_call.mp hr
  obtain ⟨rfl, rfl⟩ := Program.returns_ret.mp hret
  constructor
  · simpa [attempted, retried, permits] using h.attempts
  · intro reason h₁ h₂
    simpa [retried] using h.reasons reason h₁ h₂
  · simpa [permitRecorded, permitGranted, List.filterMap_cons] using h.records.trans h.grants.symm
  · simpa [permitGranted, List.filterMap_cons, h.grants] using hsingle
  · intro t
    simpa [told, moved] using h.transitions t
  · simpa [askedFallback, fellBack] using h.fallbacks
  · simpa [fellBack, byFallback] using h.route
  · intro errorType'
    simp [h.failures errorType', failed, failureOf]

theorem byFallback_toDict (outcome : ResilienceOutcome Python.Dict) :
    ∃ reply, generateReply outcome.toDict = .ok reply ∧ (byFallback (.ok reply) = true ↔ outcome.route = .fallback) := by
  unfold generateReply
  rw [toDict_requestId, toDict_route]
  refine ⟨_, rfl, ?_⟩
  cases outcome.route with
  | primary => simp [byFallback, List.lookup_cons, Route.value, Python.str_inj]
  | fallback => simp [byFallback, List.lookup_cons, Route.value]

theorem settled_answer {es es' : List GatewayEvent}
    {outcome : Except (ExecuteError BackendException) (ResilienceOutcome Python.Dict)}
    {reply : Except GenerateError GenerateReply} (h : Paid (routedByFallback outcome) es)
    (hr : (g.answerProgram (outcome.map ResilienceOutcome.toDict)).Returns es' reply) :
    SettledRequest (es ++ es') reply := by
  cases outcome with
  | ok outcome =>
    obtain ⟨rfl, rfl⟩ := Program.returns_ret.mp hr
    obtain ⟨reply, hreply, hroute⟩ := byFallback_toDict outcome
    rw [List.append_nil, hreply]
    refine h.settle ?_ rfl
    by_cases hf : outcome.route = .fallback
    · simp [routedByFallback, hf, hroute.mpr hf]
    · simp [routedByFallback, hf, hroute]
  | error e =>
    cases e with
    | circuitOpen err => exact h.settle_raised g hr
    | raised exc =>
      cases exc with
      | other typeName =>
        obtain ⟨rfl, rfl⟩ := Program.returns_ret.mp hr
        rw [List.append_nil]
        exact h.settle rfl rfl
      | error exc =>
        unfold Gateway.answerProgram at hr
        cases hk : exc.kind with
        | resourceExhausted =>
          simp only [Except.map, hk] at hr
          obtain ⟨rfl, rfl⟩ := Program.returns_ret.mp hr
          rw [List.append_nil]
          exact h.settle rfl rfl
        | _ =>
          simp only [Except.map, hk] at hr
          exact h.settle_raised g hr

theorem settled_generate {es : List GatewayEvent} {reply : Except GenerateError GenerateReply}
    (h : (g.generateProgram r).Returns es reply) : SettledRequest es reply := by
  unfold Gateway.generateProgram at h
  by_cases hblank : Python.strip r.args.prompt.toList = []
  · rw [if_pos hblank] at h
    obtain ⟨rfl, rfl⟩ := Program.returns_ret.mp h
    have hpaid : Paid 0 [] := ⟨[], Nat.zero_le 1, account_nil⟩
    exact hpaid.settle rfl rfl
  · rw [if_neg hblank] at h
    obtain ⟨es₁, es₂, x, rfl, htext, hanswer⟩ := Program.returns_bind.mp h
    obtain ⟨outcome, rfl, hpaid⟩ := paid_text g r htext
    exact settled_answer g hpaid hanswer

end

/-! ## No record without a permit -/

/-- At every moment of a run the records exceed the permits by at most `n`. -/
def RecordsWithin (n : Nat) (p : ExecuteProgram Python.Dict BackendException) : Prop :=
  p.Always fun es => total recorded (lifted es) ≤ total permits (lifted es) + n

section
variable {n : Nat} {p : ExecuteProgram Python.Dict BackendException} (g : Gateway) (r : GatewayRequest)

theorem within_ret (x : Except (ExecuteError BackendException) (ResilienceOutcome Python.Dict)) :
    RecordsWithin n (.ret x) :=
  Program.always_ret (Nat.zero_le _)

theorem within_call {call : ExecuteCall BackendException}
    {next : call.Answer Python.Dict BackendException → ExecuteProgram Python.Dict BackendException}
    (he : ∀ a, recorded ⟨.execute call, a⟩ = 0) (h : ∀ a, RecordsWithin n (next a)) :
    RecordsWithin n (.call call next) := by
  refine Program.always_call (Nat.zero_le _) fun a => ?_
  exact (h a).imp fun es hes => by
    rw [lifted_cons, total_cons, total_cons, he]
    omega

theorem within_record {call : ExecuteCall BackendException}
    {next : call.Answer Python.Dict BackendException → ExecuteProgram Python.Dict BackendException}
    (he : ∀ a, recorded ⟨.execute call, a⟩ = 1) (h : ∀ a, RecordsWithin 0 (next a)) :
    RecordsWithin 1 (.call call next) := by
  refine Program.always_call (Nat.zero_le _) fun a => ?_
  exact (h a).imp fun es hes => by
    rw [lifted_cons, total_cons, total_cons, he]
    omega

theorem within_fallback (attempts : Nat) : RecordsWithin 0 ((g.arguments r).runFallbackProgram attempts) := by
  unfold ExecuteArguments.runFallbackProgram
  by_cases hf : (g.arguments r).hasFallback = true
  · rw [if_pos hf]
    apply within_call (fun _ => rfl)
    intro a
    cases a with
    | error exc => exact within_call (fun _ => rfl) fun _ => within_ret _
    | ok value =>
      apply within_call (fun _ => rfl)
      intro _
      exact within_call (fun _ => rfl) fun _ => within_ret _
  · rw [if_neg hf]
    exact within_call (fun _ => rfl) fun _ => within_ret _

theorem within_notify (h : RecordsWithin n p) (t : Option CircuitTransition) :
    RecordsWithin n ((g.arguments r).notifyTransition t p) := by
  cases t with
  | none => exact h
  | some t => exact within_call (fun _ => rfl) fun _ => h

theorem within_returned (permit : CircuitPermit) (attempts : Nat) (value : Python.Dict) :
    RecordsWithin 1 ((g.arguments r).returnedProgram permit attempts value) :=
  within_record (fun _ => rfl) fun t => within_notify g r (within_ret _) t

theorem within_raised (permit : CircuitPermit) (attempts : Nat) (exc : BackendException) :
    RecordsWithin 1 ((g.arguments r).raisedProgram permit attempts exc) := by
  apply within_record (fun _ => rfl)
  intro t
  apply within_notify g r
  by_cases hs : ((g.arguments r).hasFallback && (g.arguments r).isFallbackSafe exc) = true
  · rw [if_pos hs]
    exact within_fallback g r attempts
  · rw [if_neg hs]
    exact within_ret _

theorem within_loop (c : ResilienceController) (permit : CircuitPermit) (left : Nat) :
    ∀ made, RecordsWithin 1 (c.loopProgram (g.arguments r) permit left made) := by
  induction left with
  | zero =>
    intro made
    apply within_call (fun _ => rfl)
    intro a
    cases a with
    | ok value => exact within_returned g r permit (made + 1) value
    | error exc => exact within_raised g r permit (made + 1) exc
  | succ left ih =>
    intro made
    apply within_call (fun _ => rfl)
    intro a
    cases a with
    | ok value => exact within_returned g r permit (made + 1) value
    | error exc =>
      by_cases hs : (g.arguments r).isRetrySafe exc = true
      · simp only [if_pos hs]
        apply within_call (fun _ => rfl)
        intro _
        unfold ResilienceController.pause
        by_cases hb : 0 < c.retryBackoffSeconds
        · rw [if_pos hb]
          exact within_call (fun _ => rfl) fun _ => ih (made + 1)
        · rw [if_neg hb]
          exact ih (made + 1)
      · simp only [if_neg hs]
        exact within_raised g r permit (made + 1) exc

/-- A refusal gives no permit, so the rest of the request makes no record. -/
theorem within_execute (c : ResilienceController) : RecordsWithin 0 (c.executeProgram (g.arguments r)) := by
  refine Program.always_call (Nat.zero_le _) fun a => ?_
  cases a with
  | error err => exact (within_fallback g r 0).imp fun es h => by simpa [lifted, recorded, permits] using h
  | ok permit =>
    exact (within_loop g r c permit c.retryAttempts 0).imp fun es h => by
      rw [lifted_cons, total_cons, total_cons]
      simp only [recorded, permits]
      omega

/-- What makes no record may follow. -/
theorem quiet_after {R : Type} {q : GatewayProgram R} {es : List GatewayEvent}
    (hes : total recorded es ≤ total permits es) (h : q.Always fun es' => total recorded es' = 0) :
    q.Always fun es' => total recorded (es ++ es') ≤ total permits (es ++ es') :=
  h.imp fun es' hes' => by
    rw [total_append, total_append]
    omega

theorem quiet_gauges {R : Type} {p : GatewayProgram R} (h : p.Always fun es => total recorded es = 0) :
    (recordCircuitState p).Always fun es => total recorded es = 0 := by
  refine Program.always_call rfl fun _ => ?_
  refine Program.always_call rfl fun _ => ?_
  refine Program.always_call rfl fun _ => ?_
  refine Program.always_call rfl fun _ => ?_
  exact h.imp fun es hes => by simpa [recorded] using hes

theorem quiet_prefix {R : Type} {p : GatewayProgram R}
    (h : p.Always fun es => total recorded es ≤ total permits es) :
    (recordCircuitState p).Always fun es => total recorded es ≤ total permits es := by
  refine Program.always_call (Nat.le_refl 0) fun _ => ?_
  refine Program.always_call (Nat.le_refl 0) fun _ => ?_
  refine Program.always_call (Nat.le_refl 0) fun _ => ?_
  refine Program.always_call (Nat.le_refl 0) fun _ => ?_
  exact h.imp fun es hes => by simpa [recorded, permits] using hes

theorem quiet_answer (x : Except (ExecuteError BackendException) Python.Dict) :
    (g.answerProgram x).Always fun es => total recorded es = 0 := by
  have hraise : ∀ statusCode errorType message, (g.raiseProgram statusCode errorType message).Always fun es =>
      total recorded es = 0 := fun _ _ _ => Program.always_call rfl fun _ => Program.always_ret rfl
  cases x with
  | ok result => exact Program.always_ret rfl
  | error e =>
    cases e with
    | circuitOpen err => exact hraise _ _ _
    | raised exc =>
      cases exc with
      | other typeName => exact Program.always_ret rfl
      | error exc =>
        unfold Gateway.answerProgram
        cases hk : exc.kind with
        | resourceExhausted =>
          simp only [hk]
          exact Program.always_ret rfl
        | _ =>
          simp only [hk]
          exact hraise _ _ _

theorem records_within : (g.generateProgram r).Always fun es => total recorded es ≤ total permits es := by
  unfold Gateway.generateProgram
  by_cases hblank : Python.strip r.args.prompt.toList = []
  · rw [if_pos hblank]
    exact Program.always_ret (Nat.le_refl 0)
  · rw [if_neg hblank]
    apply Program.always_bind
    · -- the readings of the state before `execute` and after it are no records
      apply quiet_prefix
      apply Program.always_bind
      · exact Program.always_embed (within_execute g r g.controller)
      · intro es x hx
        have hembed : (Program.embed GatewayCall.execute (g.controller.executeProgram (g.arguments r))).Meets fun es x =>
            Paid (routedByFallback x) es := Program.meets_embed (paid_execute g r g.controller)
        have hrecords := (hembed es x hx).recorded_eq
        cases x with
        | error e => exact quiet_after (le_of_eq hrecords) (Program.always_ret rfl)
        | ok outcome => exact quiet_after (le_of_eq hrecords) (quiet_gauges (Program.always_ret rfl))
    · intro es x hx
      obtain ⟨outcome, _, hpaid⟩ := paid_text g r hx
      exact quiet_after (le_of_eq hpaid.recorded_eq) (quiet_answer g x)

end

/-! ## The whole gateway -/

/-- The replies of the requests that have finished. -/
def ServingState.replies {β : Type} (s : ServingState β) : List (Except GenerateError GenerateReply) :=
  s.clients.filterMap fun client => match client.now with
    | .ret reply => some reply
    | .call _ _ => none

section
variable {β ι κ : Type} {g : Gateway} {breaker : BreakerObject β ι κ} {b₀ : β} {s : ServingState β}

theorem reachable_settled (hs : (g.serving breaker b₀).Reachable s) {client} (h : client ∈ s.clients)
    {reply : Except GenerateError GenerateReply} (hdone : client.now = .ret reply) :
    SettledRequest client.trace reply := by
  have hpath := Crowd.reachable_paths hs client h
  rw [hdone] at hpath
  exact settled_generate g client.origin hpath

theorem tally_congr (hs : (g.serving breaker b₀).Reachable s) (hq : s.Quiescent) {w w' : GatewayEvent → Nat}
    (h : ∀ es reply, SettledRequest es reply → total w es = total w' es) : s.tally w = s.tally w' := by
  unfold Crowd.tally
  refine congrArg List.sum (List.map_congr_left fun client hc => ?_)
  obtain ⟨reply, hdone⟩ := hq client hc
  exact h _ _ (reachable_settled hs hc hdone)

/-- A weight that a finished request has by its reply, over all of them. -/
theorem tally_replies (hs : (g.serving breaker b₀).Reachable s) (hq : s.Quiescent) {w : GatewayEvent → Nat}
    {P : Except GenerateError GenerateReply → Bool}
    (h : ∀ es reply, SettledRequest es reply → total w es = if P reply then 1 else 0) :
    s.tally w = s.replies.countP P := by
  have hall : ∀ l : List (Client (GatewayProgram (Except GenerateError GenerateReply)) GatewayRequest GatewayCall
      GatewayCall.Answer), (∀ client ∈ l, ∃ reply, client.now = .ret reply ∧ SettledRequest client.trace reply) →
      (l.map fun client => (client.trace.map w).sum).sum =
        (l.filterMap fun client => match client.now with
          | .ret reply => some reply
          | .call _ _ => none).countP P := by
    intro l hl
    induction l with
    | nil => rfl
    | cons client l ih =>
      obtain ⟨reply, hdone, hsettled⟩ := hl client List.mem_cons_self
      have hw : (client.trace.map w).sum = if P reply then 1 else 0 := h _ _ hsettled
      rw [List.map_cons, List.sum_cons, hw, ih fun c hc => hl c (List.mem_cons_of_mem _ hc)]
      simp only [List.filterMap_cons, hdone, List.countP_cons]
      omega
  exact hall s.clients fun client hc => by
    obtain ⟨reply, hdone⟩ := hq client hc
    exact ⟨reply, hdone, reachable_settled hs hc hdone⟩

end

theorem tally_add {σ Q P Call : Type} {Answer : Call → Type} (w w' : (c : Call) × Answer c → Nat)
    (s : Crowd σ Q P Call Answer) : s.tally (fun e => w e + w' e) = s.tally w + s.tally w' := by
  unfold Crowd.tally
  simp only [List.sum_map_add]

theorem gateway_metrics_exact {β ι κ : Type} (g : Gateway) (breaker : BreakerObject β ι κ) (b₀ : β)
    {s : ServingState β} (hs : (g.serving breaker b₀).Reachable s) (hq : s.Quiescent) :
    s.object.2.retryAttempts "backend_timeout" + s.object.2.retryAttempts "backend_unavailable" + s.tally permits =
        s.tally attempted ∧
      (∀ reason, reason ≠ "backend_timeout" → reason ≠ "backend_unavailable" → s.object.2.retryAttempts reason = 0) ∧
      s.tally recorded = s.tally permits ∧
      (∀ client ∈ s.clients, client.trace.filterMap permitRecorded = client.trace.filterMap permitGranted ∧
        (client.trace.filterMap permitGranted).length ≤ 1) ∧
      (∀ t, s.object.2.transitions t = s.tally (moved t)) ∧
      s.object.2.fallbackRequests "succeeded" + s.object.2.fallbackRequests "failed" = s.tally askedFallback ∧
      s.object.2.fallbackRequests "succeeded" = s.replies.countP byFallback ∧
      ∀ errorType, s.object.2.backendFailures errorType =
        s.replies.countP fun reply => failureOf reply = some errorType := by
  have hretries : ∀ reason, s.object.2.retryAttempts reason = s.tally (retried reason) := fun reason =>
    counter_eq (m := fun x => x.retryAttempts reason) g breaker rfl (retryAttempts_after g reason) hs
  have hfallbacks : ∀ result, s.object.2.fallbackRequests result = s.tally (fellBack result) := fun result =>
    counter_eq (m := fun x => x.fallbackRequests result) g breaker rfl (fallbackRequests_after g result) hs
  refine ⟨?_, fun reason h₁ h₂ => ?_, ?_, fun client hc => ?_, fun t => ?_, ?_, ?_, fun errorType => ?_⟩
  · rw [hretries, hretries, ← tally_add, ← tally_add]
    apply tally_congr hs hq
    intro es reply h
    have := h.attempts
    simp only [total, List.sum_map_add] at this ⊢
    exact this.symm
  · have hzero : s.tally (fun _ => 0) = 0 := by simp [Crowd.tally]
    rw [hretries, ← hzero]
    apply tally_congr hs hq
    intro es reply h
    rw [h.reasons reason h₁ h₂]
    simp [total]
  · exact tally_congr hs hq fun es reply h => h.recorded_eq
  · obtain ⟨reply, hdone⟩ := hq client hc
    have h := reachable_settled hs hc hdone
    exact ⟨h.records, h.single⟩
  · rw [counter_eq (m := fun x => x.transitions t) g breaker rfl (transitions_after g t) hs]
    exact tally_congr hs hq fun es reply h => h.transitions t
  · rw [hfallbacks, hfallbacks, ← tally_add]
    apply tally_congr hs hq
    intro es reply h
    have := h.fallbacks
    simp only [total, List.sum_map_add] at this ⊢
    exact this.symm
  · rw [hfallbacks]
    exact tally_replies hs hq fun es reply h => h.route
  · rw [counter_eq (m := fun x => x.backendFailures errorType) g breaker rfl (backendFailures_after g errorType) hs]
    apply tally_replies hs hq
    intro es reply h
    rw [h.failures errorType]
    simp only [decide_eq_true_eq]

theorem gateway_metrics_exact_interleaved :
    interleaved.object.2.backendFailures "upstream_protocol_error" = 1 ∧
      interleaved.object.2.backendFailures "upstream_protocol_error" =
        interleaved.replies.countP fun reply => failureOf reply = some "upstream_protocol_error" := by
  refine ⟨by decide +kernel, ?_⟩
  exact (gateway_metrics_exact plainGateway (localBreakerObject tripFirst) ⟨0, {}⟩ interleaved_reachable
    interleaved_quiescent).2.2.2.2.2.2.2 _

end InferenceService
