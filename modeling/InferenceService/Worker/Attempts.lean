import InferenceService.Worker.Config
import InferenceService.Worker.Replies

/-!
# Which calls attempt everything they claim

A call of `process_once` passes every message that it claimed to
`mark_running`, unless its read outlasts the socket timeout or a message before
the last ends the loop.
-/

namespace InferenceService

section
variable {V R : Type}

def JobWorker.Runs (w : JobWorker) (cfg : WorkerConfig) : Prop :=
  w.batchSize = cfg.batchSize ∧ w.blockMs = cfg.blockMs ∧ w.reclaimIdleMs = cfg.reclaimIdleMs

/-- Every claimed message went to `mark_running`, and no `JobQueueUnavailableError`. -/
def Batch.Attempted (b : Batch V) : Prop :=
  b.marked = b.claimed ∧ ∀ text, b.result ≠ .error (.unavailable text)

/-- The batch is full, an entry is there, or one comes before the socket
timeout; or nothing was reclaimed, and the read waits `block_ms` only. -/
def Course.ReadReturns (c : Course V R) (w : JobWorker) (J : JsonLib V) (socketTimeoutSeconds : ℚ) : Prop :=
  w.remainingCapacity (c.reclaimed w J) = 0 ∨ backlog c.read.redis ≠ [] ∨
    (c.reclaimed w J = [] ∧ 0 < w.blockMs) ∨ ∃ a, c.arrival = some a ∧ a.after ≤ socketTimeoutSeconds

variable {T : JsonText V} {J : JsonLib V} {G : RequestModel V R} {w : JobWorker} {s : QueueSys V} {c : Course V R}

/-! ## One call -/

theorem processOnce_eq (hJ : J.RoundTrips) (hs : (jobQueue J).Reachable s) (hc : c.Happens J w s) (timeout : ℚ) :
    ∃ w' : JobWorker, w'.batchSize = w.batchSize ∧ w'.blockMs = w.blockMs ∧
      w.processOnce J G (c.answers J timeout w s) =
        w'.processBatch J G (c.answers J timeout w s) (c.reclaimed w J) := by
  obtain ⟨hreclaim, hlegacy, _, _⟩ := hc.ready_at hs
  obtain ⟨next, hnext⟩ := reclaimIdle_ok (w := w) hJ hreclaim hlegacy
  obtain ⟨w₁, hw₁, hbatch, hblock⟩ : ∃ w₁, w.ensureConsumerGroup (c.answers J timeout w s) = .ok w₁ ∧
      w₁.batchSize = w.batchSize ∧ w₁.blockMs = w.blockMs := by
    unfold JobWorker.ensureConsumerGroup
    by_cases hw : w.consumerGroupReady = true
    · exact ⟨w, if_pos hw, rfl, rfl⟩
    · have hok : (c.answers J timeout w s).ensureConsumerGroup = .ok () := by
        show ensureConsumerGroup (xgroupCreateReply s) = .ok ()
        unfold xgroupCreateReply
        cases s.redis.stream.xgroupCreate with
        | none =>
          have hbusy : Python.contains "BUSYGROUP Consumer Group name already exists" "BUSYGROUP" = true := by decide
          simp only [ensureConsumerGroup, hbusy, if_true]
        | some t => rfl
      rw [if_neg hw, hok]
      exact ⟨_, rfl, rfl, rfl⟩
  refine ⟨{ w₁ with reclaimStartId := next }, hbatch, hblock, ?_⟩
  have hreclaimed : (c.answers J timeout w s).reclaimIdle (R := R) = .ok (next, c.reclaimed w J) := hnext
  simp only [JobWorker.processOnce, hw₁, hreclaimed]

theorem batch_readNew_cases (hJ : J.RoundTrips) (hs : (jobQueue J).Reachable s) (hc : c.Happens J w s) {timeout : ℚ}
    (hlt : (w.blockMs : ℚ) / 1000 < timeout) {w' : JobWorker} (hbatch : w'.batchSize = w.batchSize)
    (hblock : w'.blockMs = w.blockMs) :
    (c.ReadReturns w J timeout ∧ w'.readNew (c.answers J timeout w s) (c.reclaimed w J) = .ok (c.new w J)) ∨
      (¬ c.ReadReturns w J timeout ∧
        ∃ text, w'.readNew (c.answers J timeout w s) (c.reclaimed w J) = .error (.unavailable text)) := by
  have hcap : w'.remainingCapacity (c.reclaimed w J) = w.remainingCapacity (c.reclaimed w J) := by
    unfold JobWorker.remainingCapacity
    rw [hbatch]
  have hms : w'.readBlockMs (c.reclaimed w J) = w.readBlockMs (c.reclaimed w J) := by
    unfold JobWorker.readBlockMs
    rw [hblock]
  unfold JobWorker.readNew Course.new
  rw [hcap, hms]
  by_cases hfull : w.remainingCapacity (c.reclaimed w J) = 0
  · rw [if_pos hfull, if_pos hfull]
    exact .inl ⟨.inl hfull, rfl⟩
  · rw [if_neg hfull, if_neg hfull]
    obtain ⟨_, _, hread, harrival⟩ := hc.ready_at hs
    have hcount : 0 < w.remainingCapacity (c.reclaimed w J) := lt_of_le_of_ne (le_max_right _ _) (Ne.symm hfull)
    -- the read waits `block_ms` when nothing was reclaimed, and has no limit otherwise
    have hpos : 0 < w.readBlockMs (c.reclaimed w J) ↔ c.reclaimed w J = [] ∧ 0 < w.blockMs := by
      unfold JobWorker.readBlockMs
      by_cases hnil : c.reclaimed w J = []
      · simp [hnil]
      · simp [hnil]
    have hnonneg : 0 ≤ w.readBlockMs (c.reclaimed w J) := by
      unfold JobWorker.readBlockMs
      by_cases hnil : c.reclaimed w J = []
      · rw [if_pos hnil]; exact w.block_nonneg
      · rw [if_neg hnil]
    have hwait : (w.readBlockMs (c.reclaimed w J) : ℚ) / 1000 < timeout := by
      unfold JobWorker.readBlockMs
      by_cases hnil : c.reclaimed w J = []
      · rw [if_pos hnil]; exact hlt
      · rw [if_neg hnil, Int.cast_zero, zero_div]
        exact lt_of_le_of_lt (div_nonneg (Int.cast_nonneg w.block_nonneg) (by norm_num)) hlt
    have hreturns : c.ReadReturns w J timeout ↔ Answered c (w.readBlockMs (c.reclaimed w J)) timeout := by
      unfold Course.ReadReturns Answered
      rw [hpos, or_iff_right hfull]
    rw [hreturns]
    exact readNew_cases hJ hread harrival hcount hnonneg hwait

theorem batch_attempted_iff (s : QueueSys V) (timeout : ℚ) {w' : JobWorker} {ms : List (JobMessage V)}
    {new : List (JobMessage V)} (hnew : w'.readNew (c.answers T.lib timeout w s) ms = .ok new) :
    (w'.processBatch T.lib G (c.answers T.lib timeout w s) ms).Attempted ↔
      ∀ i m, (ms ++ new)[i]? = some m → i + 1 < (ms ++ new).length → ¬ (c.message i).Escapes T G m := by
  have hmarked := processAll_marked_iff (J := T.lib) (G := G) (c.answers T.lib timeout w s).message 0 (ms ++ new) {}
  have hcases := fun i m => processMessage_cases (T := T) (G := G) (w := w) (c.message i) m
  have hended : ∀ text, (processAll T.lib G (c.answers T.lib timeout w s).message 0 (ms ++ new) {}).2 ≠
      .error (.unavailable text) := by
    intro text h
    obtain ⟨i, m, _, he⟩ := processAll_error _ 0 _ _ h
    rcases hcases (0 + i) m with ⟨_, e, hp, hne⟩ | ⟨_, o, ho⟩
    · exact hne text (Except.error.inj (hp.symm.trans he))
    · cases he.symm.trans ho
  unfold Batch.Attempted JobWorker.processBatch
  simp only [hnew]
  rw [hmarked]
  constructor
  · intro ⟨hall, _⟩ i m hm hi hescapes
    obtain ⟨o, ho⟩ := hall i m hm hi
    rw [Nat.zero_add] at ho
    rcases hcases i m with ⟨_, e, hp, _⟩ | ⟨hno, _⟩
    · cases hp.symm.trans ho
    · exact hno hescapes
  · intro hall
    refine ⟨?_, ?_⟩
    · intro i m hm hi
      rw [Nat.zero_add]
      rcases hcases i m with ⟨hescapes, _⟩ | ⟨_, o, ho⟩
      · exact absurd hescapes (hall i m hm hi)
      · exact ⟨o, ho⟩
    · intro text h
      refine hended text ?_
      cases hp : (processAll T.lib G (c.answers T.lib timeout w s).message 0 (ms ++ new) {}).2 with
      | ok t => rw [hp] at h; cases h
      | error e =>
        rw [hp] at h
        injection h with h
        rw [h]

end

section
variable {V R : Type} (T : JsonText V) (G : RequestModel V R)

theorem reclaimed_attempted_iff (hT : T.lib.RoundTrips) (cfg : WorkerConfig) (w : JobWorker) (hw : w.Runs cfg)
    {s : QueueSys V} (hs : (jobQueue T.lib).Reachable s) (c : Course V R) (hc : c.Happens T.lib w s) :
    (w.processOnce T.lib G (c.answers T.lib cfg.socketTimeoutSeconds w s)).Attempted ↔
      c.ReadReturns w T.lib cfg.socketTimeoutSeconds ∧
        ∀ i m, (c.reclaimed w T.lib ++ c.new w T.lib)[i]? = some m →
          i + 1 < (c.reclaimed w T.lib ++ c.new w T.lib).length → ¬ (c.message i).Escapes T G m := by
  have hlt : (w.blockMs : ℚ) / 1000 < cfg.socketTimeoutSeconds := by rw [hw.2.1]; exact cfg.block_lt
  obtain ⟨w', hbatch, hblock, heq⟩ := processOnce_eq (G := G) hT hs hc cfg.socketTimeoutSeconds
  rw [heq]
  rcases batch_readNew_cases hT hs hc hlt hbatch hblock with ⟨hreturns, hnew⟩ | ⟨hno, text, herr⟩
  · rw [batch_attempted_iff s _ hnew]
    exact (and_iff_right hreturns).symm
  · refine iff_of_false ?_ fun h => hno h.1
    intro ⟨_, hun⟩
    apply hun text
    unfold JobWorker.processBatch
    simp only [herr]

end

/-! ## A worker that died -/

def anyPrompt : RequestModel Unit Unit := ⟨fun _ => .ok (), fun _ => "prompt"⟩

def abandonedRun : List (QueueAct Unit) :=
  [.enqueue "job" () 7, .ensureConsumerGroup, .readNew "worker-a" 1, .tick 1200000]

def abandoned : QueueSys Unit :=
  ((jobQueue emptyDicts).runFrom (jobQueue emptyDicts).init abandonedRun).getD (jobQueue emptyDicts).init

theorem abandoned_reachable : (jobQueue emptyDicts).Reachable abandoned := ⟨abandonedRun, rfl⟩

def takeover (batchSize : Nat) : Course Unit Unit where
  hasXautoclaim := true
  reclaim := abandoned
  legacyClaim := abandoned
  read := ((jobQueue emptyDicts).step abandoned (.reclaimIdle "worker-b" 1200000 ⊥ batchSize)).getD abandoned
  arrival := none
  message _ := ⟨none, "token", 8, 1, fun _ => .ok (), none, 9, 1⟩

def idleWorker (batchSize : Int) (h : 0 < batchSize) : JobWorker :=
  ⟨"worker-b", batchSize, 1000, 1200000, false, ⊥, by decide, h, defaultConfig.block_nonneg,
    defaultConfig.reclaim_pos⟩

theorem takeover_happens : (takeover 1).Happens emptyDicts (idleWorker 1 (by decide)) abandoned where
  ready := nofun
  reclaim := ⟨[], rfl⟩
  legacyClaim := ⟨[], rfl⟩
  read := ⟨[.reclaimIdle "worker-b" 1200000 ⊥ 1], rfl⟩
  arrival := nofun

theorem reclaimed_attempted_full : ((idleWorker 1 (by decide)).processOnce emptyDicts anyPrompt
      ((takeover 1).answers emptyDicts 6 (idleWorker 1 (by decide)) abandoned)).Attempted := by
  refine (reclaimed_attempted_iff emptyTexts anyPrompt emptyDicts_roundTrips
    ⟨1000, 1200000, 1, 6, by decide, by decide, by decide, by norm_num⟩ (idleWorker 1 (by decide)) ⟨rfl, rfl, rfl⟩
    abandoned_reachable (takeover 1) takeover_happens).mpr ⟨.inl rfl, ?_⟩
  intro i m _ hi
  exact absurd hi (Nat.not_lt.mpr (Nat.le_add_left 1 i))

theorem reclaimed_not_attempted :
    ({} : Environment).workerConfig = .ok defaultConfig ∧ (idleWorker 10 (by decide)).Runs defaultConfig ∧
      (jobQueue emptyDicts).Reachable abandoned ∧
      (takeover 10).Happens emptyDicts (idleWorker 10 (by decide)) abandoned ∧
      ∃ batch, batch = (idleWorker 10 (by decide)).processOnce emptyDicts anyPrompt ((takeover 10).answers emptyDicts
          defaultConfig.socketTimeoutSeconds (idleWorker 10 (by decide)) abandoned) ∧
        batch.claimed.length = 1 ∧ batch.marked = [] ∧
        batch.result = .error (.unavailable "failed to read new jobs: Timeout reading from socket") ∧
        ¬ batch.Attempted := by
  refine ⟨workerConfig_default, ⟨rfl, rfl, rfl⟩, abandoned_reachable, ?_, _, rfl, by decide, by decide, rfl, ?_⟩
  · exact ⟨nofun, ⟨[], rfl⟩, ⟨[], rfl⟩, ⟨[.reclaimIdle "worker-b" 1200000 ⊥ 10], rfl⟩, nofun⟩
  · intro h
    exact h.2 _ rfl

end InferenceService
