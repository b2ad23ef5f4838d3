import InferenceService.Lib.Python
import Mathlib.Data.List.Sort
import Mathlib.Tactic.Linarith
import Mathlib.Tactic.Ring

/-!
# Requests and results of the scheduler simulation

Times are exact; a `Completion` has them as they are, a `Result` rounded.
-/

namespace InferenceService

structure Request where
  requestId : Int
  arrivalTime : ℚ
  promptTokens : Nat
  outputTokens : Nat
deriving DecidableEq, Repr

structure Completion where
  request : Request
  startTime : ℚ
  finishTime : ℚ
deriving DecidableEq, Repr

structure Result where
  policy : String
  requestId : Int
  arrivalTime : ℚ
  promptTokens : Nat
  outputTokens : Nat
  startTime : ℚ
  finishTime : ℚ
  waitTime : ℚ
  latency : ℚ
deriving DecidableEq, Repr

def roundTo (digits : Nat) (x : ℚ) : ℚ := Python.round (x * 10 ^ digits) / 10 ^ digits

def Completion.result (policy : String) (c : Completion) : Result where
  policy
  requestId := c.request.requestId
  arrivalTime := c.request.arrivalTime
  promptTokens := c.request.promptTokens
  outputTokens := c.request.outputTokens
  startTime := roundTo 6 c.startTime
  finishTime := roundTo 6 c.finishTime
  waitTime := roundTo 6 (c.startTime - c.request.arrivalTime)
  latency := roundTo 6 (c.finishTime - c.request.arrivalTime)

/-- `sorted(requests, key=lambda r: r.arrival_time)`, which is stable. -/
def sortedRequests (requests : List Request) : List Request :=
  requests.insertionSort fun a b => a.arrivalTime ≤ b.arrivalTime

/-! ## `summarize_policy` -/

def percentile (values : List ℚ) (p : ℚ) : ℚ :=
  let sortedValues := values.insertionSort (· ≤ ·)
  match sortedValues with
  | [] => 0
  | [value] => value
  | _ =>
    let index : ℚ := (sortedValues.length - 1) * p
    let lower := (Python.trunc index).toNat
    let upper := min (lower + 1) (sortedValues.length - 1)
    let weight : ℚ := index - lower
    sortedValues.getD lower 0 * (1 - weight) + sortedValues.getD upper 0 * weight

def mean (values : List ℚ) : ℚ := values.sum / values.length

structure PolicySummary where
  policy : String
  numRequests : Nat
  avgWaitTime : ℚ
  p50WaitTime : ℚ
  p95WaitTime : ℚ
  avgLatency : ℚ
  p50Latency : ℚ
  p95Latency : ℚ
  finishTime : ℚ
  gpuBusyTime : ℚ
  gpuIdleTime : ℚ
  gpuUtilization : ℚ
  outputTokensPerTime : ℚ
deriving DecidableEq, Repr

def summarizePolicy (policy : String) (results : List Result) (gpuBusyTime gpuIdleTime : ℚ) : PolicySummary :=
  let latencies := results.map Result.latency
  let waitTimes := results.map Result.waitTime
  let finishTime := ((results.map Result.finishTime).max?).getD 0
  let totalOutputTokens := (results.map Result.outputTokens).sum
  let totalTime := gpuBusyTime + gpuIdleTime
  let gpuUtilization := if 0 < totalTime then gpuBusyTime / totalTime else 0
  let throughput : ℚ := if 0 < finishTime then totalOutputTokens / finishTime else 0
  { policy
    numRequests := results.length
    avgWaitTime := if waitTimes.isEmpty then 0 else roundTo 6 (mean waitTimes)
    p50WaitTime := roundTo 6 (percentile waitTimes (1 / 2))
    p95WaitTime := roundTo 6 (percentile waitTimes (95 / 100))
    avgLatency := if latencies.isEmpty then 0 else roundTo 6 (mean latencies)
    p50Latency := roundTo 6 (percentile latencies (1 / 2))
    p95Latency := roundTo 6 (percentile latencies (95 / 100))
    finishTime := roundTo 6 finishTime
    gpuBusyTime := roundTo 6 gpuBusyTime
    gpuIdleTime := roundTo 6 gpuIdleTime
    gpuUtilization := roundTo 6 gpuUtilization
    outputTokensPerTime := roundTo 6 throughput }

/-! ## The clock -/

structure GpuClock where
  currentTime : ℚ := 0
  gpuBusyTime : ℚ := 0
  gpuIdleTime : ℚ := 0
deriving DecidableEq, Repr

namespace GpuClock

def waitUntil (c : GpuClock) (time : ℚ) : GpuClock :=
  if c.currentTime < time then
    { c with gpuIdleTime := c.gpuIdleTime + (time - c.currentTime), currentTime := time }
  else c

def work (c : GpuClock) (duration : ℚ) : GpuClock :=
  { c with currentTime := c.currentTime + duration, gpuBusyTime := c.gpuBusyTime + duration }

/-- All time is either busy or idle. -/
def Accounted (c : GpuClock) : Prop := c.currentTime = c.gpuBusyTime + c.gpuIdleTime

theorem waitUntil_of_le {c : GpuClock} {time : ℚ} (h : time ≤ c.currentTime) : c.waitUntil time = c :=
  if_neg (not_lt.mpr h)

theorem waitUntil_currentTime (c : GpuClock) (time : ℚ) : (c.waitUntil time).currentTime = max c.currentTime time := by
  unfold waitUntil
  by_cases h : c.currentTime < time
  · rw [if_pos h, max_eq_right h.le]
  · rw [if_neg h, max_eq_left (not_lt.mp h)]

theorem waitUntil_waitUntil (c : GpuClock) {time later : ℚ} (h : time ≤ later) :
    (c.waitUntil time).waitUntil later = c.waitUntil later := by
  by_cases hc : c.currentTime < time
  · have hl : c.currentTime < later := lt_of_lt_of_le hc h
    rcases lt_or_eq_of_le h with hlt | rfl
    · simp only [waitUntil, hc, hl, hlt, if_true]
      congr 1
      ring
    · exact waitUntil_of_le (by rw [waitUntil_currentTime]; exact le_max_right _ _)
  · rw [waitUntil_of_le (not_lt.mp hc)]

theorem Accounted.waitUntil {c : GpuClock} (h : c.Accounted) (time : ℚ) : (c.waitUntil time).Accounted := by
  unfold Accounted GpuClock.waitUntil at *
  by_cases hc : c.currentTime < time
  · simp only [hc, if_true]
    linarith
  · simp only [hc, if_false]
    exact h

theorem Accounted.work {c : GpuClock} (h : c.Accounted) (duration : ℚ) : (c.work duration).Accounted := by
  unfold Accounted GpuClock.work at *
  simp only
  linarith

end GpuClock

/-! ## The order of the requests -/

section
variable (requests : List Request)

theorem sorted_perm : (sortedRequests requests).Perm requests := List.perm_insertionSort _ requests

theorem sorted_pairwise : (sortedRequests requests).Pairwise fun a b => a.arrivalTime ≤ b.arrivalTime := by
  have : Std.Total fun a b : Request => a.arrivalTime ≤ b.arrivalTime := ⟨fun a b => le_total _ _⟩
  have : IsTrans Request fun a b => a.arrivalTime ≤ b.arrivalTime := ⟨fun _ _ _ => le_trans⟩
  exact List.pairwise_insertionSort _ requests

/-- Of two requests, the one that arrives first comes first, and of two that
arrive together the one that was given first. -/
theorem sorted_stable {a b : Request} (h : [a, b].Sublist requests) (hab : a.arrivalTime ≤ b.arrivalTime) :
    [a, b].Sublist (sortedRequests requests) :=
  List.pair_sublist_insertionSort hab h

end

/-! ## A small instance -/

def threeRequests : List Request := [⟨1, 1 / 2, 8, 3⟩, ⟨2, 0, 4, 1⟩, ⟨3, 2, 16, 0⟩]

end InferenceService
