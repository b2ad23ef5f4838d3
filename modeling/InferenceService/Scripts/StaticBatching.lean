import InferenceService.Scripts.Requests
import InferenceService.Lib.Loop

/-!
# Static batching

A batch takes the requests that have arrived and then waits for others until it
is full or none is left. The simulation against the recurrence over consecutive
chunks of the sorted requests.
-/

namespace InferenceService

structure StaticState where
  pending : List Request
  clock : GpuClock
  completed : List Completion
deriving DecidableEq, Repr

section
variable (batchSize : Nat) (prefillTimePerToken decodeTimePerTokenPerBatch : ℚ)

/-- The requests that have arrived, at most `room` of them, and the others. -/
def takeArrived (now : ℚ) : Nat → List Request → List Request × List Request
  | 0, pending => ([], pending)
  | _ + 1, [] => ([], [])
  | room + 1, request :: pending =>
    if request.arrivalTime ≤ now then
      let taken := takeArrived now room pending
      (request :: taken.1, taken.2)
    else ([], request :: pending)

/-- Waits for `room` requests more. -/
def fillBatch : Nat → GpuClock → List Request → List Request × List Request × GpuClock
  | 0, clock, pending => ([], pending, clock)
  | _ + 1, clock, [] => ([], [], clock)
  | room + 1, clock, request :: pending =>
    let filled := fillBatch room (clock.waitUntil request.arrivalTime) pending
    (request :: filled.1, filled.2)

/-- The batch, the requests after it, and the clock when it starts. -/
def formBatch (clock : GpuClock) (request : Request) (pending : List Request) :
    List Request × List Request × GpuClock :=
  let clock := clock.waitUntil request.arrivalTime
  let arrived := takeArrived clock.currentTime batchSize (request :: pending)
  let filled := fillBatch (batchSize - arrived.1.length) clock arrived.2
  (arrived.1 ++ filled.1, filled.2)

/-- `max(..)` of a batch, which is never empty. -/
def maxTokens (tokens : Request → Nat) (batch : List Request) : Nat := (batch.map tokens).foldr max 0

def batchDuration (batch : List Request) : ℚ :=
  maxTokens Request.promptTokens batch * prefillTimePerToken +
    maxTokens Request.outputTokens batch * decodeTimePerTokenPerBatch * batch.length

def staticBody (s : StaticState) : Loop.Round StaticState :=
  match s.pending with
  | [] => .leave s
  | request :: pending =>
    let (available, pending, clock) := formBatch batchSize s.clock request pending
    let finished := clock.work (batchDuration prefillTimePerToken decodeTimePerTokenPerBatch available)
    .next {
      pending
      clock := finished
      completed := s.completed ++ available.map fun r => ⟨r, clock.currentTime, finished.currentTime⟩ }

def staticRun (requests : List Request) (fuel : Nat) : Option StaticState :=
  Loop.run (staticBody batchSize prefillTimePerToken decodeTimePerTokenPerBatch) fuel
    ⟨sortedRequests requests, {}, []⟩

def simulateStaticBatching (requests : List Request) (fuel : Nat) : Option (List Result × PolicySummary) :=
  (staticRun batchSize prefillTimePerToken decodeTimePerTokenPerBatch requests fuel).map fun s =>
    let results := s.completed.map (Completion.result "static_batching")
    (results, summarizePolicy "static_batching" results s.clock.gpuBusyTime s.clock.gpuIdleTime)

/-! ## The recurrence -/

def lastArrival (batch : List Request) : ℚ := (batch.getLast?.map Request.arrivalTime).getD 0

/-- The chunks of the sorted requests, from 0 on. -/
def chunk (sorted : List Request) (k : Nat) : List Request := (sorted.drop (k * batchSize)).take batchSize

/-- When the first `k` chunks are finished. -/
def finishAfter (sorted : List Request) : Nat → ℚ
  | 0 => 0
  | k + 1 => max (finishAfter sorted k) (lastArrival (chunk batchSize sorted k)) +
    (maxTokens Request.promptTokens (chunk batchSize sorted k) * prefillTimePerToken +
      maxTokens Request.outputTokens (chunk batchSize sorted k) * decodeTimePerTokenPerBatch *
        (chunk batchSize sorted k).length)

def startOf (sorted : List Request) (k : Nat) : ℚ :=
  max (finishAfter batchSize prefillTimePerToken decodeTimePerTokenPerBatch sorted k)
    (lastArrival (chunk batchSize sorted k))

def chunkCompletions (sorted : List Request) (k : Nat) : List Completion :=
  (chunk batchSize sorted k).map fun r =>
    ⟨r, startOf batchSize prefillTimePerToken decodeTimePerTokenPerBatch sorted k,
      finishAfter batchSize prefillTimePerToken decodeTimePerTokenPerBatch sorted (k + 1)⟩

def numChunks (requests : List Request) : Nat := (requests.length + batchSize - 1) / batchSize

end

/-! ## One batch -/

section
variable {batchSize : Nat}

theorem takeArrived_eq (now : ℚ) : ∀ (room : Nat) (pending : List Request), ∃ k ≤ room, k ≤ pending.length ∧
    takeArrived now room pending = (pending.take k, pending.drop k) ∧
      ∀ r ∈ pending.take k, r.arrivalTime ≤ now := by
  intro room
  induction room with
  | zero => intro pending; exact ⟨0, le_rfl, Nat.zero_le _, rfl, by simp⟩
  | succ room ih =>
    intro pending
    cases pending with
    | nil => exact ⟨0, Nat.zero_le _, le_rfl, rfl, by simp⟩
    | cons request pending =>
      by_cases h : request.arrivalTime ≤ now
      · obtain ⟨k, hk, hlen, heq, harr⟩ := ih pending
        refine ⟨k + 1, Nat.succ_le_succ hk, Nat.succ_le_succ hlen, by simp [takeArrived, h, heq], ?_⟩
        intro r hr
        rcases List.mem_cons.mp hr with rfl | hr
        · exact h
        · exact harr r hr
      · exact ⟨0, Nat.zero_le _, Nat.zero_le _, by simp [takeArrived, h], by simp⟩

theorem lastArrival_append (batch more : List Request) (h : more ≠ []) :
    lastArrival (batch ++ more) = lastArrival more := by
  unfold lastArrival
  rw [List.getLast?_append_of_ne_nil batch h]

theorem lastArrival_spec {batch : List Request} (h : batch ≠ []) :
    ∃ init last, batch = init ++ [last] ∧ lastArrival batch = last.arrivalTime := by
  obtain ⟨init, last, rfl⟩ := (List.eq_nil_or_concat' batch).resolve_left h
  exact ⟨init, last, rfl, by simp [lastArrival]⟩

theorem le_lastArrival {batch : List Request} (hsorted : batch.Pairwise fun a b => a.arrivalTime ≤ b.arrivalTime)
    {r : Request} (hr : r ∈ batch) : r.arrivalTime ≤ lastArrival batch := by
  obtain ⟨init, last, rfl, hlast⟩ := lastArrival_spec (List.ne_nil_of_mem hr)
  rw [hlast]
  rcases List.mem_append.mp hr with hr | hr
  · exact (List.pairwise_append.mp hsorted).2.2 r hr last (List.mem_singleton_self last)
  · rw [List.mem_singleton.mp hr]

/-- Waiting for one request after the other is waiting for the last. -/
theorem fillBatch_eq : ∀ (room : Nat) (clock : GpuClock) (pending : List Request),
    pending.Pairwise (fun a b => a.arrivalTime ≤ b.arrivalTime) →
    fillBatch room clock pending = (pending.take room, pending.drop room,
      if pending.take room = [] then clock else clock.waitUntil (lastArrival (pending.take room))) := by
  intro room
  induction room with
  | zero => intro clock pending _; simp [fillBatch]
  | succ room ih =>
    intro clock pending hsorted
    cases pending with
    | nil => simp [fillBatch]
    | cons request pending =>
      obtain ⟨hle, hsorted⟩ := List.pairwise_cons.mp hsorted
      simp only [fillBatch, ih _ pending hsorted, List.take_succ_cons, List.drop_succ_cons, reduceCtorEq, if_false]
      refine congrArg (Prod.mk _) (congrArg (Prod.mk _) ?_)
      by_cases hnil : pending.take room = []
      · rw [if_pos hnil, hnil]
        rfl
      · rw [if_neg hnil]
        have hlast : lastArrival (request :: pending.take room) = lastArrival (pending.take room) :=
          lastArrival_append [request] _ hnil
        rw [hlast]
        obtain ⟨init, last, hsplit, harr⟩ := lastArrival_spec hnil
        have hmem : last ∈ pending := List.mem_of_mem_take (i := room) (by rw [hsplit]; simp)
        exact GpuClock.waitUntil_waitUntil clock (harr ▸ hle last hmem)

/-- The two loops make one chunk, which starts when its last member is there. -/
theorem formBatch_eq (hB : 0 < batchSize) (clock : GpuClock) {request : Request} {pending : List Request}
    (hsorted : (request :: pending).Pairwise fun a b => a.arrivalTime ≤ b.arrivalTime) :
    formBatch batchSize clock request pending = ((request :: pending).take batchSize,
      (request :: pending).drop batchSize, clock.waitUntil (lastArrival ((request :: pending).take batchSize))) := by
  unfold formBatch
  obtain ⟨k, hk, hlen, htaken, harrived⟩ := takeArrived_eq (clock.waitUntil request.arrivalTime).currentTime batchSize
    (request :: pending)
  have hroom : batchSize - ((request :: pending).take k).length = batchSize - k := by
    rw [List.length_take, Nat.min_eq_left hlen]
  have hsplit : (request :: pending).take batchSize =
      (request :: pending).take k ++ ((request :: pending).drop k).take (batchSize - k) := by
    rw [← List.take_add, Nat.add_sub_cancel' hk]
  have hdrop : ((request :: pending).drop k).drop (batchSize - k) = (request :: pending).drop batchSize := by
    rw [List.drop_drop, Nat.add_sub_cancel' hk]
  have hmem : request ∈ (request :: pending).take batchSize := by
    obtain ⟨n, rfl⟩ := Nat.exists_eq_succ_of_ne_zero hB.ne'
    exact List.mem_cons_self
  have hfirst : request.arrivalTime ≤ lastArrival ((request :: pending).take batchSize) :=
    le_lastArrival (hsorted.sublist (List.take_sublist _ _)) hmem
  simp only [htaken, hroom, fillBatch_eq _ _ _ (hsorted.sublist (List.drop_sublist k _)), hdrop, ← hsplit]
  refine congrArg (Prod.mk _) (congrArg (Prod.mk _) ?_)
  rw [← GpuClock.waitUntil_waitUntil clock hfirst]
  by_cases hmore : ((request :: pending).drop k).take (batchSize - k) = []
  · -- nobody is waited for: the last member of the batch has arrived
    rw [if_pos hmore]
    rw [hmore, List.append_nil] at hsplit
    obtain ⟨init, last, hend, hlast⟩ := lastArrival_spec (List.ne_nil_of_mem hmem)
    rw [hlast]
    refine (GpuClock.waitUntil_of_le (harrived last ?_)).symm
    rw [← hsplit, hend]
    simp
  · rw [if_neg hmore, hsplit, lastArrival_append _ _ hmore]

end

/-! ## The loop -/

section
variable (batchSize : Nat) (prefillTimePerToken decodeTimePerTokenPerBatch : ℚ) (requests : List Request)

/-- The state before round `k`. -/
structure BatchesDone (k : Nat) (s : StaticState) : Prop where
  count : k ≤ numChunks batchSize requests
  pending : s.pending = (sortedRequests requests).drop (k * batchSize)
  currentTime : s.clock.currentTime =
    finishAfter batchSize prefillTimePerToken decodeTimePerTokenPerBatch (sortedRequests requests) k
  accounted : s.clock.Accounted
  completed : s.completed = (List.range k).flatMap
    (chunkCompletions batchSize prefillTimePerToken decodeTimePerTokenPerBatch (sortedRequests requests))

variable {batchSize prefillTimePerToken decodeTimePerTokenPerBatch requests} {s t : StaticState} {k : Nat}

theorem batchesDone_init :
    BatchesDone batchSize prefillTimePerToken decodeTimePerTokenPerBatch requests 0
      ⟨sortedRequests requests, {}, []⟩ :=
  ⟨Nat.zero_le _, by simp, rfl, by simp [GpuClock.Accounted], rfl⟩

theorem lt_numChunks (hB : 0 < batchSize) (h : k * batchSize < requests.length) : k < numChunks batchSize requests := by
  unfold numChunks
  rw [Nat.lt_div_iff_mul_lt hB]
  omega

theorem batchesDone_round (hB : 0 < batchSize)
    (h : BatchesDone batchSize prefillTimePerToken decodeTimePerTokenPerBatch requests k s)
    (hs : staticBody batchSize prefillTimePerToken decodeTimePerTokenPerBatch s = .next t) :
    BatchesDone batchSize prefillTimePerToken decodeTimePerTokenPerBatch requests (k + 1) t := by
  unfold staticBody at hs
  cases hp : s.pending with
  | nil => rw [hp] at hs; cases hs
  | cons request pending =>
    have hdrop := h.pending
    rw [hp] at hdrop
    have hsorted : (request :: pending).Pairwise fun a b => a.arrivalTime ≤ b.arrivalTime := by
      rw [hdrop]; exact (sorted_pairwise requests).sublist (List.drop_sublist _ _)
    have hlt : k * batchSize < requests.length := by
      have hlen := congrArg List.length hdrop
      rw [List.length_drop, (sorted_perm requests).length_eq, List.length_cons] at hlen
      omega
    simp only [hp, formBatch_eq hB s.clock hsorted, Loop.Round.next.injEq] at hs
    have hchunk : (request :: pending).take batchSize = chunk batchSize (sortedRequests requests) k := by
      rw [hdrop]; rfl
    have hstart : (s.clock.waitUntil (lastArrival (chunk batchSize (sortedRequests requests) k))).currentTime =
        startOf batchSize prefillTimePerToken decodeTimePerTokenPerBatch (sortedRequests requests) k := by
      rw [GpuClock.waitUntil_currentTime, h.currentTime]
      rfl
    rw [hchunk] at hs
    subst hs
    refine ⟨lt_numChunks hB hlt, ?_, ?_, (h.accounted.waitUntil _).work _, ?_⟩
    · simp only [hdrop, List.drop_drop, Nat.succ_mul]
    · simp only [GpuClock.work, hstart]
      rfl
    · simp only [GpuClock.work, hstart, h.completed, List.range_succ, List.flatMap_append, List.flatMap_singleton]
      rfl

theorem round_shortens (hB : 0 < batchSize)
    (h : BatchesDone batchSize prefillTimePerToken decodeTimePerTokenPerBatch requests k s)
    (hs : staticBody batchSize prefillTimePerToken decodeTimePerTokenPerBatch s = .next t) :
    t.pending.length < s.pending.length := by
  have hnext := batchesDone_round hB h hs
  have hne : s.pending ≠ [] := by
    intro hnil
    unfold staticBody at hs
    rw [hnil] at hs
    cases hs
  have hpos := List.length_pos_iff.mpr hne
  rw [hnext.pending, Nat.succ_mul, ← List.drop_drop, ← h.pending, List.length_drop]
  omega

theorem batches_all (hB : 0 < batchSize)
    (h : BatchesDone batchSize prefillTimePerToken decodeTimePerTokenPerBatch requests k s)
    (hs : staticBody batchSize prefillTimePerToken decodeTimePerTokenPerBatch s = .leave t) :
    t = s ∧ k = numChunks batchSize requests := by
  obtain ⟨rfl, hnil⟩ : t = s ∧ s.pending = [] := by
    cases hp : s.pending with
    | nil =>
      simp only [staticBody, hp, Loop.Round.leave.injEq] at hs
      exact ⟨hs.symm, rfl⟩
    | cons request pending => simp [staticBody, hp] at hs
  have hlen := h.pending
  rw [hnil, eq_comm, List.drop_eq_nil_iff, (sorted_perm requests).length_eq] at hlen
  have hle : numChunks batchSize requests ≤ k := by
    unfold numChunks
    rw [Nat.div_le_iff_le_mul_add_pred hB]
    rw [Nat.mul_comm] at hlen
    omega
  exact ⟨rfl, Nat.le_antisymm h.count hle⟩

theorem flatMap_chunk (sorted : List Request) (n : Nat) :
    (List.range n).flatMap (chunk batchSize sorted) = sorted.take (n * batchSize) := by
  induction n with
  | zero => simp
  | succ n ih =>
    rw [List.range_succ, List.flatMap_append, ih, List.flatMap_singleton, Nat.succ_mul, List.take_add]
    rfl

theorem length_le_chunks (hB : 0 < batchSize) : requests.length ≤ numChunks batchSize requests * batchSize := by
  unfold numChunks
  have := Nat.lt_div_mul_add hB (a := requests.length + batchSize - 1)
  omega

theorem chunkCompletions_request (sorted : List Request) (n : Nat) :
    ((List.range n).flatMap (chunkCompletions batchSize prefillTimePerToken decodeTimePerTokenPerBatch sorted)).map
      Completion.request = sorted.take (n * batchSize) := by
  rw [← flatMap_chunk, List.map_flatMap]
  refine List.flatMap_congr fun k _ => ?_
  unfold chunkCompletions
  rw [List.map_map]
  exact List.map_id _

theorem arrival_le_start {c : Completion}
    (hc : c ∈ chunkCompletions batchSize prefillTimePerToken decodeTimePerTokenPerBatch (sortedRequests requests) k) :
    c.request.arrivalTime ≤ c.startTime := by
  obtain ⟨r, hr, rfl⟩ := List.mem_map.mp hc
  refine le_trans (le_lastArrival ?_ hr) (le_max_right _ _)
  exact (sorted_pairwise requests).sublist ((List.take_sublist _ _).trans (List.drop_sublist _ _))

/-- The last chunk has a member, and it finishes last. -/
theorem last_finish (hB : 0 < batchSize) {c : Completion} (hc : ((List.range (numChunks batchSize requests)).flatMap
      (chunkCompletions batchSize prefillTimePerToken decodeTimePerTokenPerBatch (sortedRequests requests))).getLast? =
        some c) :
    c.finishTime = finishAfter batchSize prefillTimePerToken decodeTimePerTokenPerBatch (sortedRequests requests)
      (numChunks batchSize requests) := by
  cases hn : numChunks batchSize requests with
  | zero => rw [hn] at hc; cases hc
  | succ n =>
    have hlt : n * batchSize < (sortedRequests requests).length := by
      rw [(sorted_perm requests).length_eq]
      unfold numChunks at hn
      have hle := Nat.div_mul_le_self (requests.length + batchSize - 1) batchSize
      rw [hn, Nat.succ_mul] at hle
      omega
    have hne : chunkCompletions batchSize prefillTimePerToken decodeTimePerTokenPerBatch (sortedRequests requests) n ≠
        [] := by
      intro hnil
      have hlen := congrArg List.length hnil
      simp only [chunkCompletions, chunk, List.length_map, List.length_take, List.length_drop, List.length_nil] at hlen
      omega
    rw [hn, List.range_succ, List.flatMap_append, List.flatMap_singleton, List.getLast?_append_of_ne_nil _ hne] at hc
    obtain ⟨r, _, rfl⟩ := List.mem_map.mp (List.mem_of_getLast? hc)
    rfl

end

end InferenceService
