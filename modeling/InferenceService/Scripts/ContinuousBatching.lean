import InferenceService.Scripts.Requests
import InferenceService.Lib.Loop

/-!
# Continuous batching

Requests enter free slots one prefill after the other, and every decode step
serves all active ones. The loop of the simulation, with a log of what the GPU
does that nothing in it reads.
-/

namespace InferenceService

structure ActiveItem where
  request : Request
  remainingOutputTokens : Int
deriving DecidableEq, Repr

def ActiveItem.step (item : ActiveItem) : ActiveItem :=
  { item with remainingOutputTokens := item.remainingOutputTokens - 1 }

inductive GpuEvent where
  | prefill (request : Request) (startTime : ℚ)
  | decode (requests : List Request)
  | idle (since upTo : ℚ)
deriving DecidableEq, Repr

/-- `startTimes` is a dict whose absent keys are never read. -/
structure ContinuousState where
  pending : List Request
  waiting : List Request
  active : List ActiveItem
  completed : List Completion
  clock : GpuClock
  startTimes : Int → ℚ
  log : List GpuEvent

structure ContinuousConfig where
  maxActiveRequests : Nat
  prefillTimePerToken : ℚ
  decodeStepTimeBase : ℚ
  decodeStepTimePerRequest : ℚ

namespace ContinuousState

/-- The loop that moves the arrived requests from pending to waiting. -/
def arrive (s : ContinuousState) : ContinuousState :=
  { s with
    waiting := s.waiting ++ s.pending.takeWhile fun r => r.arrivalTime ≤ s.clock.currentTime
    pending := s.pending.dropWhile fun r => r.arrivalTime ≤ s.clock.currentTime }

section
variable (C : ContinuousConfig)

/-- The prefill of the request that is popped, before anything arrives. -/
def start (s : ContinuousState) (request : Request) (waiting : List Request) : ContinuousState :=
  { s with
    waiting
    startTimes := Function.update s.startTimes request.requestId s.clock.currentTime
    clock := s.clock.work (request.promptTokens * C.prefillTimePerToken)
    log := s.log ++ [.prefill request s.clock.currentTime] }

def activate (s : ContinuousState) (request : Request) : ContinuousState :=
  { s with active := s.active ++ [⟨request, request.outputTokens⟩] }

/-- The loop that fills the `slots` free slots. -/
def admitWaiting : Nat → ContinuousState → ContinuousState
  | 0, s => s
  | slots + 1, s =>
    match s.waiting with
    | [] => s
    | request :: waiting => admitWaiting slots (((s.start C request waiting).arrive).activate request)

def admission (s : ContinuousState) : ContinuousState :=
  let s := s.arrive
  s.admitWaiting C (C.maxActiveRequests - s.active.length)

def idleUntil (s : ContinuousState) (nextArrival : ℚ) : ContinuousState :=
  if s.clock.currentTime < nextArrival then
    { s with clock := s.clock.waitUntil nextArrival, log := s.log ++ [.idle s.clock.currentTime nextArrival] }
  else s

/-- One decode step for all active requests. -/
def decode (s : ContinuousState) : ContinuousState :=
  let clock := s.clock.work (C.decodeStepTimeBase + C.decodeStepTimePerRequest * s.active.length)
  let stepped := s.active.map ActiveItem.step
  { s with
    clock
    completed := s.completed ++ (stepped.filter (·.remainingOutputTokens ≤ 0)).map fun item =>
      ⟨item.request, s.startTimes item.request.requestId, clock.currentTime⟩
    active := stepped.filter (0 < ·.remainingOutputTokens)
    log := s.log ++ [.decode (s.active.map ActiveItem.request)] }

def body (total : Nat) (s : ContinuousState) : Loop.Round ContinuousState :=
  if s.completed.length < total then
    let s := s.admission C
    if s.active = [] then
      match s.pending with
      | next :: _ => .next (s.idleUntil next.arrivalTime)
      | [] => .leave s
    else .next (s.decode C)
  else .leave s

end

end ContinuousState

section
variable (C : ContinuousConfig) (requests : List Request)

def continuousInit : ContinuousState := ⟨sortedRequests requests, [], [], [], {}, fun _ => 0, []⟩

def continuousRun (fuel : Nat) : Option ContinuousState :=
  Loop.run (ContinuousState.body C (sortedRequests requests).length) fuel (continuousInit requests)

def simulateContinuousBatching (fuel : Nat) : Option (List Result × PolicySummary) :=
  (continuousRun C requests fuel).map fun s =>
    let results := s.completed.map (Completion.result "continuous_batching")
    (results, summarizePolicy "continuous_batching" results s.clock.gpuBusyTime s.clock.gpuIdleTime)

end

/-! ## What a log says -/

/-- The requests in the order of their prefills, with their start times. -/
def starts (log : List GpuEvent) : List (Request × ℚ) := log.filterMap fun
  | .prefill r t => some (r, t)
  | _ => none

def started (log : List GpuEvent) : List Request := (starts log).map Prod.fst

def decodeSets (log : List GpuEvent) : List (List Request) := log.filterMap fun
  | .decode rs => some rs
  | _ => none

def GpuEvent.idleTime : GpuEvent → ℚ
  | .idle since upTo => upTo - since
  | _ => 0

/-- After its prefill, `r` takes part in `k` decode steps on end; the ones
after these are `later`, and before the prefill it takes part in none. -/
def TakesPart (r : Request) (k : Nat) (later : List (List Request)) (log : List GpuEvent) : Prop :=
  ∃ before after t, log = before ++ .prefill r t :: after ∧ (∀ rs ∈ decodeSets before, r ∉ rs) ∧
    ∃ own, decodeSets after = own ++ later ∧ own.length = k ∧ ∀ rs ∈ own, r ∈ rs

/-- `r` takes part in exactly `k` decode steps, on end and after its prefill. -/
def Served (r : Request) (k : Nat) (log : List GpuEvent) : Prop :=
  ∃ later, TakesPart r k later log ∧ ∀ rs ∈ later, r ∉ rs

section
variable {log : List GpuEvent} {r : Request} {k : Nat} {later : List (List Request)}

@[simp] theorem starts_append (log log' : List GpuEvent) : starts (log ++ log') = starts log ++ starts log' :=
  List.filterMap_append

@[simp] theorem decodeSets_append (log log' : List GpuEvent) :
    decodeSets (log ++ log') = decodeSets log ++ decodeSets log' := List.filterMap_append

@[simp] theorem starts_prefill (r : Request) (t : ℚ) : starts [.prefill r t] = [(r, t)] := rfl

@[simp] theorem starts_decode (rs : List Request) : starts [.decode rs] = [] := rfl

@[simp] theorem starts_idle (since upTo : ℚ) : starts [.idle since upTo] = [] := rfl

@[simp] theorem decodeSets_prefill (r : Request) (t : ℚ) : decodeSets [.prefill r t] = [] := rfl

@[simp] theorem decodeSets_decode (rs : List Request) : decodeSets [.decode rs] = [rs] := rfl

@[simp] theorem decodeSets_idle (since upTo : ℚ) : decodeSets [.idle since upTo] = [] := rfl

@[simp] theorem started_append (log log' : List GpuEvent) : started (log ++ log') = started log ++ started log' := by
  simp [started]

theorem takesPart_fresh (h : ∀ rs ∈ decodeSets log, r ∉ rs) (t : ℚ) : TakesPart r 0 [] (log ++ [.prefill r t]) :=
  ⟨log, [], t, rfl, h, [], rfl, rfl, fun _ hrs => absurd hrs List.not_mem_nil⟩

theorem TakesPart.append (h : TakesPart r k later log) (e : GpuEvent) :
    TakesPart r k (later ++ decodeSets [e]) (log ++ [e]) := by
  obtain ⟨before, after, t, rfl, hbefore, own, hown, hlen, hmem⟩ := h
  refine ⟨before, after ++ [e], t, by simp, hbefore, own, ?_, hlen, hmem⟩
  rw [decodeSets_append, hown, List.append_assoc]

theorem TakesPart.join (h : TakesPart r k [] log) {rs : List Request} (hr : r ∈ rs) :
    TakesPart r (k + 1) [] (log ++ [.decode rs]) := by
  obtain ⟨before, after, t, rfl, hbefore, own, hown, hlen, hmem⟩ := h
  refine ⟨before, after ++ [.decode rs], t, by simp, hbefore, own ++ [rs], ?_, by simp [hlen], ?_⟩
  · rw [decodeSets_append, hown]
    simp
  · intro rs' hrs'
    rcases List.mem_append.mp hrs' with hrs' | hrs'
    · exact hmem rs' hrs'
    · rw [List.mem_singleton.mp hrs']
      exact hr

theorem Served.append (h : Served r k log) {e : GpuEvent} (he : ∀ rs ∈ decodeSets [e], r ∉ rs) :
    Served r k (log ++ [e]) := by
  obtain ⟨later, hpart, hlater⟩ := h
  refine ⟨_, hpart.append e, fun rs hrs => ?_⟩
  rcases List.mem_append.mp hrs with hrs | hrs
  · exact hlater rs hrs
  · exact he rs hrs

end

end InferenceService
