import InferenceService.Breaker.RedisRun
import InferenceService.Breaker.LocalCalls
import Mathlib.Logic.Function.Basic

/-!
# `RedisCircuitBreaker` and its process-local fallback

Each method as a function of what `_eval` returned, `none` when Redis raised.
Then any number of pods on one Redis that may fail at every command: a command
whose client has given up is in flight, and Redis runs it later, once, or never.
-/

namespace InferenceService

structure StoreSnapshot where
  snapshot : CircuitSnapshot
  store : String
deriving DecidableEq, Repr

/-! ## The methods -/

namespace RedisCircuitBreaker
section
variable (C : CircuitBreakerConfig) (now later : ℚ) (permit : Option CircuitPermit) (fallback : CircuitBreaker)

def localFallbackPermit : Except AllowError CircuitPermit × CircuitBreaker :=
  match fallback.allowPrimaryCall C now later with
  | (.ok permit, fallback) => (.ok { permit with store := .localFallback }, fallback)
  | (.error err, fallback) => (.error (.circuitOpen err), fallback)

def allowPrimaryCall (response : Option AllowReply) : Except AllowError CircuitPermit × CircuitBreaker :=
  match response with
  | none => localFallbackPermit C now later fallback
  | some reply => (permitFromReply reply, fallback)

def recordSuccess (response : Option RecordReply) : Except Unit (Option CircuitTransition) × CircuitBreaker :=
  if permit.map CircuitPermit.store ≠ some .redis then
    (.ok (fallback.recordSuccess none).1, (fallback.recordSuccess none).2)
  else
    match response with
    | none => (.ok (fallback.recordSuccess none).1, (fallback.recordSuccess none).2)
    | some reply => (transitionFromResponse reply, fallback)

def recordFailure (response : Option RecordReply) : Except Unit (Option CircuitTransition) × CircuitBreaker :=
  if permit.map CircuitPermit.store ≠ some .redis then
    (.ok (fallback.recordFailure C now none).1, (fallback.recordFailure C now none).2)
  else
    match response with
    | none => (.ok (fallback.recordFailure C now none).1, (fallback.recordFailure C now none).2)
    | some reply => (transitionFromResponse reply, fallback)

def snapshot (response : Option SnapshotReply) : StoreSnapshot × CircuitBreaker :=
  match response with
  | none => (⟨(fallback.snapshot C now later).1, "local_fallback"⟩, (fallback.snapshot C now later).2)
  | some reply => (⟨⟨reply.state, reply.failures, reply.retryAfterSeconds⟩, "redis"⟩, fallback)

/-- The property `state`; `none` is Python's `ValueError`. -/
def readState (response : Option SnapshotReply) : Option CircuitState × CircuitBreaker :=
  let s := snapshot C now later fallback response
  (CircuitState.ofValue s.1.snapshot.state, s.2)

end
end RedisCircuitBreaker

/-! ## Pods on a Redis that fails -/

inductive Script where
  | allow (probeToken : String)
  | success (permit : CircuitPermit)
  | failure (permit : CircuitPermit)
deriving DecidableEq, Repr

/-- One process: its clock, the fallback breaker, the permits that its requests
have not settled, and what the fallback has granted. -/
structure Pod where
  now : ℚ
  fallback : CircuitBreaker
  permits : List CircuitPermit
  granted : List (CircuitPermit × ℚ)

/-- The clock of Redis in microseconds, the store, the tokens made so far, the
commands in flight, and the permits that Redis has granted. -/
structure OutageSys (G : Type) where
  us : Nat
  store : BreakerStore
  tokens : List String
  inFlight : List Script
  pod : G → Pod
  granted : List (CircuitPermit × Nat)

/-- `answered` says whether the reply of Redis reaches the client. -/
inductive OutageAct (G : Type) where
  | tick (us : Nat)
  | allow (pod : G) (wait lag : ℚ) (answered : Bool) (probeToken : String)
  | settle (pod : G) (wait : ℚ) (answered : Bool) (k : Nat) (success : Bool)
  | snapshot (pod : G) (wait lag : ℚ) (answered : Bool)
  | late (k : Nat)

section
variable {G : Type} [DecidableEq G] (R : RedisBreakerConfig) (C : CircuitBreakerConfig)

def Script.run (us : Nat) (st : BreakerStore) : Script → BreakerStore
  | allow token => (allowPrimaryLua R us token st).2
  | success permit => (recordSuccessCall us permit st).2
  | failure permit => (recordFailureCall R us permit st).2

def Script.ofRecord (permit : CircuitPermit) (success : Bool) : Script :=
  if success then .success permit else .failure permit

namespace OutageSys

def send (answered : Bool) (script : Script) (s : OutageSys G) : OutageSys G :=
  if answered then { s with store := script.run R s.us s.store }
  else { s with inFlight := script :: s.inFlight }

def setPod (g : G) (p : Pod) (s : OutageSys G) : OutageSys G := { s with pod := Function.update s.pod g p }

def allowed (s : OutageSys G) (g : G) (wait lag : ℚ) (answered : Bool) (token : String) :
    Except AllowError CircuitPermit × CircuitBreaker :=
  RedisCircuitBreaker.allowPrimaryCall C ((s.pod g).now + wait) ((s.pod g).now + wait + lag) (s.pod g).fallback
    (if answered then some (allowPrimaryLua R s.us token s.store).1 else none)

def recorded (s : OutageSys G) (g : G) (wait : ℚ) (answered : Bool) (permit : CircuitPermit) (success : Bool) :
    Except Unit (Option CircuitTransition) × CircuitBreaker :=
  if success then
    RedisCircuitBreaker.recordSuccess (some permit) (s.pod g).fallback
      (if answered then some (recordSuccessCall s.us permit s.store).1 else none)
  else
    RedisCircuitBreaker.recordFailure C ((s.pod g).now + wait) (some permit) (s.pod g).fallback
      (if answered then some (recordFailureCall R s.us permit s.store).1 else none)

def step (s : OutageSys G) : OutageAct G → Option (OutageSys G)
  | .tick us => some { s with us := s.us + us }
  | .allow g wait lag answered token =>
    if 0 ≤ wait ∧ 0 ≤ lag ∧ token ∉ s.tokens then
      let allowed := s.allowed R C g wait lag answered token
      let permit := allowed.1.toOption
      let s' := (s.send R answered (.allow token)).setPod g {
        now := (s.pod g).now + wait + lag
        fallback := allowed.2
        permits := permit.toList ++ (s.pod g).permits
        granted := if answered then (s.pod g).granted
          else (permit.map (·, (s.pod g).now + wait)).toList ++ (s.pod g).granted }
      some { s' with
        tokens := token :: s.tokens
        granted := if answered then (permit.map (·, nowMs s.us)).toList ++ s.granted else s.granted }
    else none
  | .settle g wait answered k success =>
    if 0 ≤ wait then
      (s.pod g).permits[k]?.map fun permit =>
        -- a permit of the fallback is settled without a command
        let sent := if permit.store = .redis then s.send R answered (.ofRecord permit success) else s
        sent.setPod g { s.pod g with
          now := (s.pod g).now + wait
          fallback := (s.recorded R C g wait answered permit success).2
          permits := (s.pod g).permits.eraseIdx k }
    else none
  | .snapshot g wait lag answered =>
    if 0 ≤ wait ∧ 0 ≤ lag then
      some (s.setPod g { s.pod g with
        now := (s.pod g).now + wait + lag
        fallback := (RedisCircuitBreaker.snapshot C ((s.pod g).now + wait) ((s.pod g).now + wait + lag)
          (s.pod g).fallback (if answered then some (snapshotLua R s.us s.store) else none)).2 })
    else none
  | .late k => s.inFlight[k]?.map fun script =>
      { s with store := script.run R s.us s.store, inFlight := s.inFlight.eraseIdx k }

end OutageSys

def outages (start : G → ℚ) : Lts (OutageSys G) (OutageAct G) where
  init := ⟨0, ⟨{}, none⟩, [], [], fun g => ⟨start g, {}, [], []⟩, []⟩
  step s a := s.step R C a

end

/-- One pod trips the breaker of Redis and asks for the probe; the other cannot
reach Redis, trips its fallback, and holds a probe of its own. -/
def cutOffRun : List (OutageAct Bool) :=
  [.allow false 0 0 true "a", .settle false 0 true 0 false, .tick 1000000, .allow false 0 0 true "b",
    .allow true 0 0 false "c", .settle true 0 false 0 false, .allow true 1 0 false "d", .late 1]

theorem cutOff_runs : ((outages quickTrip tripFirst fun _ => 0).runFrom
    (outages quickTrip tripFirst fun _ => 0).init cutOffRun).isSome = true := by
  decide +kernel

def cutOff : OutageSys Bool := Option.get _ cutOff_runs

theorem cutOff_reachable : (outages quickTrip tripFirst fun _ => 0).Reachable cutOff :=
  ⟨cutOffRun, (Option.some_get _).symm⟩

end InferenceService
