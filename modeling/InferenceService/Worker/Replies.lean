import InferenceService.Jobs.Places
import InferenceService.Worker.RedisQueue

/-!
# What the queue answers a worker

In a state that is reached and has its group, `reclaim_idle` succeeds, a read is
answered or times out, and a message ends the loop only when what its attempt
gave cannot be written.
-/

namespace InferenceService

section
variable {V R : Type}

/-! ## What a call claims -/

namespace Course
variable (c : Course V R) (w : JobWorker) (J : JsonLib V)

def reclaimedEntries : List RawEntry :=
  match c.xautoclaimReply w with
  | .ok (.claimed _ records _) => records
  | .ok (.malformed _) => []
  | .error _ =>
    match c.xpendingReply w with
    | .error _ => []
    | .ok pending =>
      match candidateIds w.reclaimIdleMs pending with
      | [] => []
      | ids => (c.xclaimReply w ids).toOption.getD []

def reclaimed : List (JobMessage V) := received J true (c.reclaimedEntries w)

def readEntries (count blockMs : Int) : List RawEntry :=
  match blockingRead blockMs c.read c.arrival with
  | some (_, some s) => (xreadgroupReply w.consumerName count s).toOption.getD []
  | _ => []

def new : List (JobMessage V) :=
  if w.remainingCapacity (c.reclaimed w J) = 0 then []
  else received J false
    (c.readEntries w (w.remainingCapacity (c.reclaimed w J)) (w.readBlockMs (c.reclaimed w J)))

end Course

/-- `str` of what the body of the `try` raises, itself raises. -/
def Unprintable (body : Except PyException V) : Prop :=
  ∃ exc typeName, body = .error exc ∧ exc.message = .error typeName

/-- `json.dumps` refuses the result, or what is to be written of the result or of
the exception holds a lone surrogate. -/
def Unwritable (T : JsonText V) : Except PyException V → Prop
  | .ok result => ∀ text, T.dumps result = .ok text → Python.encodeUtf8 text = none
  | .error exc => ∃ message, exc.message = .ok message ∧ Python.encodeUtf8 (message.take 1000) = none

/-- The job is granted a lease, and no text can be made of the exception that it
ends in, or none can be written of its end while the record still carries the
lease's token. -/
def MessageReplies.Escapes (T : JsonText V) (G : RequestModel V R) (m : JobMessage V) (x : MessageReplies V R) : Prop :=
  x.markEval ≠ 0 ∧ (Unprintable (attempt T.lib G x.generateText m.payload) ∨
    Unwritable T (attempt T.lib G x.generateText m.payload) ∧
      ∃ state, x.finalGet = some state ∧ state.deliveryToken = some x.deliveryToken)

/-! ## One message -/

variable {T : JsonText V} {J : JsonLib V} {G : RequestModel V R} {w : JobWorker}

theorem stateForTerminalUpdate_some {lease : JobLease V} {read : Option (JobState V)} {state : JobState V} :
    stateForTerminalUpdate lease read = some state ↔
      read = some state ∧ state.deliveryToken = some lease.deliveryToken := by
  unfold stateForTerminalUpdate
  cases read with
  | none => simp
  | some st =>
    by_cases h : st.deliveryToken = some lease.deliveryToken
    · simp only [h, ne_eq, not_true_eq_false, if_false, Option.some.injEq]
      exact ⟨fun heq => ⟨heq, heq ▸ h⟩, And.left⟩
    · simp only [ne_eq, h, not_false_eq_true, if_true, Option.some.injEq]
      exact ⟨nofun, fun ⟨heq, ht⟩ => absurd (heq ▸ ht) h⟩

/-- The outcome that an attempt is settled with; an error is of `str(exc)`. -/
def settled : Except PyException V → Except String (JobOutcome V)
  | .ok result => .ok (.complete result)
  | .error exc => exc.message.map (.fail exc.typeName)

theorem unprintable_iff {body : Except PyException V} : Unprintable body ↔ ∃ typeName, settled body = .error typeName := by
  unfold Unprintable settled
  cases body with
  | ok result =>
    constructor
    · rintro ⟨_, _, h, _⟩
      cases h
    · rintro ⟨_, h⟩
      cases h
  | error exc => cases hmessage : exc.message <;> simp [hmessage, Except.map]

theorem unwritable_iff {body : Except PyException V} {outcome : JobOutcome V} (h : settled body = .ok outcome) :
    Unwritable T body ↔ ∃ e, encodeOutcome T.lib outcome = .error e := by
  unfold settled at h
  cases body with
  | ok result =>
    cases h
    unfold Unwritable encodeOutcome encodeJson JsonText.lib
    cases hd : T.dumps result with
    | error e => cases e <;> simp [hd, Except.map]
    | ok text => cases hu : Python.encodeUtf8 text <;> simp [hd, hu, Except.map]
  | error exc =>
    obtain ⟨message, hmessage, rfl⟩ := map_eq_ok.mp h
    unfold Unwritable encodeOutcome
    cases hu : Python.encodeUtf8 (message.take 1000) <;> simp [hmessage, hu]

theorem encodeOutcome_available {outcome : JobOutcome V} {e : JobQueueError} (h : encodeOutcome J outcome = .error e)
    (text : String) : e ≠ .unavailable text := by
  rintro rfl
  cases outcome with
  | complete result =>
    unfold encodeOutcome encodeJson at h
    cases hd : J.dumps result with
    | ok encoded => simp only [hd] at h; cases h
    | error e => cases e <;> simp only [hd] at h <;> cases h
  | fail errorType errorMessage =>
    unfold encodeOutcome at h
    cases hu : Python.encodeUtf8 (errorMessage.take 1000) <;> simp only [hu] at h <;> cases h

theorem finalize_reply_cases (lease : JobLease V) {body : Except PyException V} {outcome : JobOutcome V}
    (h : settled body = .ok outcome) (nowMs : Int) (read : Option (JobState V)) (evalReply : Nat) :
    ((Unwritable T body ∧ ∃ state, read = some state ∧ state.deliveryToken = some lease.deliveryToken) ∧
        ∃ e, finalize T.lib lease outcome nowMs (.ok read) (.ok evalReply) = .error e ∧ ∀ text, e ≠ .unavailable text) ∨
      (¬ (Unwritable T body ∧ ∃ state, read = some state ∧ state.deliveryToken = some lease.deliveryToken) ∧
        ∃ finalized, finalize T.lib lease outcome nowMs (.ok read) (.ok evalReply) = .ok finalized) := by
  rw [unwritable_iff h]
  simp only [finalize, getJob, finalizeCall]
  cases hs : stateForTerminalUpdate lease read with
  | none =>
    refine .inr ⟨?_, false, rfl⟩
    rintro ⟨_, state, hread⟩
    rw [stateForTerminalUpdate_some.mpr hread] at hs
    cases hs
  | some state =>
    have hstate := stateForTerminalUpdate_some.mp hs
    cases hencode : encodeOutcome T.lib outcome with
    | error e =>
      have hne := encodeOutcome_available hencode
      exact .inl ⟨⟨⟨e, rfl⟩, state, hstate⟩, e, rfl, hne⟩
    | ok u =>
      refine .inr ⟨?_, _, rfl⟩
      rintro ⟨⟨_, he⟩, _⟩
      cases he

/-- A message ends the loop only by escaping, and never in a `JobQueueUnavailableError`. -/
theorem processMessage_cases (x : MessageReplies V R) (m : JobMessage V) :
    (x.Escapes T G m ∧ ∃ e, processMessage T.lib G (x.answers T.lib w m) m = .error e ∧ ∀ text, e ≠ .unavailable text) ∨
      (¬ x.Escapes T G m ∧ ∃ outcome, processMessage T.lib G (x.answers T.lib w m) m = .ok outcome) := by
  by_cases hmark : x.markEval = 0
  · refine .inr ⟨fun h => h.1 hmark, .skipped, ?_⟩
    simp [processMessage, MessageReplies.answers, markRunning, getJob, markRunningResult, hmark]
  have hlease : (x.answers T.lib w m).markRunning = .ok (some ⟨m, w.consumerName, x.deliveryToken⟩) := by
    simp [MessageReplies.answers, markRunning, getJob, markRunningResult, hmark, MarkCall.lease]
  unfold processMessage MessageReplies.Escapes
  rw [hlease]
  simp only [MessageReplies.answers]
  generalize hbody : attempt T.lib G x.generateText m.payload = body
  cases hsettled : settled body with
  | error typeName =>
    refine .inl ⟨⟨hmark, .inl (unprintable_iff.mpr ⟨_, hsettled⟩)⟩, .other typeName, ?_, nofun⟩
    cases body with
    | ok result => cases hsettled
    | error exc => cases hmessage : exc.message <;> simp_all [settled, Except.map]
  | ok outcome =>
    have hprintable : ¬ Unprintable body := by
      rw [unprintable_iff, hsettled]
      exact fun ⟨_, h⟩ => nomatch h
    rw [or_iff_right hprintable]
    rcases finalize_reply_cases (T := T) ⟨m, w.consumerName, x.deliveryToken⟩ hsettled x.finalNowMs x.finalGet
      x.finalEval with ⟨hescapes, e, he, hne⟩ | ⟨hno, finalized, hok⟩
    · refine .inl ⟨⟨hmark, hescapes⟩, e, ?_, hne⟩
      cases body with
      | ok result =>
        cases hsettled
        simp only [he]
        rfl
      | error exc =>
        obtain ⟨message, hmessage, rfl⟩ := map_eq_ok.mp hsettled
        simp only [hmessage, he]
        rfl
    · refine .inr ⟨fun h => hno h.2, ?_⟩
      cases body with
      | ok result =>
        cases hsettled
        simp only [hok]
        exact ⟨_, rfl⟩
      | error exc =>
        obtain ⟨message, hmessage, rfl⟩ := map_eq_ok.mp hsettled
        simp only [hmessage, hok]
        exact ⟨_, rfl⟩

/-! ## The states of a course -/

variable {s t : QueueSys V} {c : Course V R}

def Ready (J : JsonLib V) (s : QueueSys V) : Prop :=
  (jobQueue J).Reachable s ∧ s.redis.stream.group.isSome = true

theorem Ready.later (h : Ready J s) (hl : Later J s t) : Ready J t := by
  obtain ⟨as, hr⟩ := hl
  refine ⟨h.1.run hr, ?_⟩
  refine Lts.run_preserves (P := fun s => s.redis.stream.group.isSome = true) ?_ as h.1 h.2 hr
  intro s a t hs hg hstep
  exact (job_moves (reachable_placed hs).intact hstep).group hg

theorem ensured_ready (hs : (jobQueue J).Reachable s)
    (hready : w.consumerGroupReady = true → s.redis.stream.group.isSome = true) : Ready J (ensured J w s) := by
  unfold ensured
  by_cases hw : w.consumerGroupReady = true
  · rw [if_pos hw]
    exact ⟨hs, hready hw⟩
  · rw [if_neg hw]
    cases hstep : (jobQueue J).step s .ensureConsumerGroup with
    | some t =>
      obtain ⟨stream, hstream, rfl⟩ := Option.map_eq_some_iff.mp hstep
      exact ⟨hs.step hstep, Redis.Stream.xgroupCreate_group hstream⟩
    | none =>
      refine ⟨hs, ?_⟩
      have hnone := Option.map_eq_none_iff.mp hstep
      unfold Redis.Stream.xgroupCreate at hnone
      show s.redis.stream.group.isSome = true
      cases hg : s.redis.stream.group with
      | some g => rfl
      | none => rw [hg] at hnone; cases hnone

theorem Course.Happens.ready_at (hc : c.Happens J w s) (hs : (jobQueue J).Reachable s) :
    Ready J c.reclaim ∧ Ready J c.legacyClaim ∧ Ready J c.read ∧ ∀ a ∈ c.arrival, Ready J a.state := by
  have hreclaim := (ensured_ready hs hc.ready).later hc.reclaim
  have hlegacy := hreclaim.later hc.legacyClaim
  have hread := hlegacy.later hc.read
  exact ⟨hreclaim, hlegacy, hread, fun a ha => hread.later (hc.arrival a ha)⟩

theorem DecodesTo.eq_received {reclaimed : Bool} {reply : List RawEntry} (h : DecodesTo J s reclaimed reply) :
    decodeRecords J reclaimed reply = .ok (received J reclaimed reply) := by
  obtain ⟨qs, _, _, hd⟩ := h
  unfold received
  rw [hd]

/-! ## `reclaim_idle` succeeds -/

theorem isXautoclaimUnsupported_unknown : isXautoclaimUnsupported unknownXautoclaim.text = true := by
  unfold isXautoclaimUnsupported Python.contains String.toLower
  rw [String.toList_map]
  decide

theorem reclaimIdleLegacy_ok (hJ : J.RoundTrips) (hr : Ready J c.reclaim) (hl : Ready J c.legacyClaim)
    (hx : c.hasXautoclaim = false) :
    ∃ next, reclaimIdleLegacy J w.reclaimIdleMs w.batchSize (c.xpendingReply w) (c.xclaimReply w) =
      .ok (next, c.reclaimed w J) := by
  obtain ⟨pending, hp⟩ : ∃ pending, c.xpendingReply w = .ok pending := by
    obtain ⟨g, hg⟩ := Option.isSome_iff_exists.mp hr.2
    unfold Course.xpendingReply Redis.Stream.xpendingRange
    rw [hg]
    exact ⟨_, rfl⟩
  have hun : c.xautoclaimReply w = .error unknownXautoclaim := by
    unfold Course.xautoclaimReply
    rw [hx]
    rfl
  have hentries : c.reclaimedEntries w =
      match candidateIds w.reclaimIdleMs pending with
      | [] => []
      | ids => (c.xclaimReply w ids).toOption.getD [] := by
    unfold Course.reclaimedEntries
    rw [hun, hp]
  unfold reclaimIdleLegacy Course.reclaimed
  rw [hentries, hp]
  cases pending with
  | nil => exact ⟨⊥, rfl⟩
  | cons e es =>
    simp only
    cases hids : candidateIds w.reclaimIdleMs (e :: es) with
    | nil => exact ⟨_, rfl⟩
    | cons id ids =>
      obtain ⟨g, hg⟩ := Option.isSome_iff_exists.mp hl.2
      obtain ⟨⟨reply, stream⟩, hclaim⟩ : ∃ r, c.legacyClaim.redis.stream.xclaim w.consumerName w.reclaimIdleMs.toNat
          c.legacyClaim.redis.now (id :: ids) = some r := by
        unfold Redis.Stream.xclaim
        rw [hg]
        exact ⟨_, rfl⟩
      have hreply : c.xclaimReply w (id :: ids) = .ok reply := by
        unfold Course.xclaimReply
        rw [hclaim]
      have hd := ((reachable_placed hl.1).claim_decodes hJ hclaim).eq_received
      simp only [hreply, hd]
      exact ⟨_, rfl⟩

theorem reclaimIdle_ok (hJ : J.RoundTrips) (hr : Ready J c.reclaim) (hl : Ready J c.legacyClaim) :
    ∃ next, reclaimIdle J w.reclaimIdleMs w.batchSize (c.xautoclaimReply w)
      (reclaimIdleLegacy J w.reclaimIdleMs w.batchSize (c.xpendingReply w) (c.xclaimReply w)) =
        .ok (next, c.reclaimed w J) := by
  unfold reclaimIdle
  rw [if_neg (not_lt.mpr (le_of_lt w.reclaim_pos)), if_neg (not_le.mpr w.batch_pos)]
  by_cases hx : c.hasXautoclaim = true
  · obtain ⟨g, hg⟩ := Option.isSome_iff_exists.mp hr.2
    obtain ⟨⟨scan, stream⟩, hclaim⟩ : ∃ r, c.reclaim.redis.stream.xautoclaim w.consumerName w.reclaimIdleMs.toNat
        w.reclaimStartId w.batchSize.toNat c.reclaim.redis.now = some r := by
      unfold Redis.Stream.xautoclaim
      rw [hg]
      exact ⟨_, rfl⟩
    have hreply : c.xautoclaimReply w = .ok (.claimed (scan.next.getD ⊥) (scan.claimed.map some) scan.deleted) := by
      unfold Course.xautoclaimReply
      rw [if_pos hx, hclaim]
    have hd := ((reachable_placed hr.1).autoclaim_decodes hJ hclaim).eq_received
    refine ⟨scan.next.getD ⊥, ?_⟩
    unfold Course.reclaimed Course.reclaimedEntries
    simp only [hreply, hd]
    rfl
  · have hun : c.xautoclaimReply w = .error unknownXautoclaim := by
      unfold Course.xautoclaimReply
      rw [if_neg hx]
    rw [hun]
    show ∃ next, (if isXautoclaimUnsupported unknownXautoclaim.text = true then _ else _) = _
    rw [if_pos isXautoclaimUnsupported_unknown]
    exact reclaimIdleLegacy_ok hJ hr hl (by simpa using hx)

/-! ## The read -/

theorem xreadgroupReply_ok (hJ : J.RoundTrips) (hs : Ready J s) (consumer : String) (count : Int) :
    ∃ records, xreadgroupReply consumer count s = .ok records ∧
      decodeRecords J false records = .ok (received J false records) := by
  obtain ⟨g, hg⟩ := Option.isSome_iff_exists.mp hs.2
  have hread := Redis.Stream.xreadgroup_eq hg consumer count.toNat s.redis.now
  unfold xreadgroupReply
  rw [hread]
  exact ⟨_, rfl, ((reachable_placed hs.1).read_decodes hJ hread).eq_received⟩

def Answered (c : Course V R) (blockMs : Int) (socketTimeoutSeconds : ℚ) : Prop :=
  backlog c.read.redis ≠ [] ∨ 0 < blockMs ∨ ∃ a, c.arrival = some a ∧ a.after ≤ socketTimeoutSeconds

/-- A finite wait ends in time, with or without an entry. -/
theorem blockingRead_waits (ha : ∀ a ∈ c.arrival, Ready J a.state)
    (hnow : ¬ (c.read.redis.stream.group.isNone ∨ backlog c.read.redis ≠ [])) {blockMs : Int} (hpos : 0 < blockMs)
    {timeout : ℚ} (hlt : (blockMs : ℚ) / 1000 < timeout) :
    ∃ after served, blockingRead blockMs c.read c.arrival = some (after, served) ∧ after ≤ timeout ∧
      ∀ s ∈ served, Ready J s := by
  have hne : blockMs ≠ 0 := ne_of_gt hpos
  unfold blockingRead
  rw [if_neg hnow]
  cases harr : c.arrival with
  | none => exact ⟨_, none, if_neg hne, le_of_lt hlt, nofun⟩
  | some a =>
    by_cases hin : a.after ≤ (blockMs : ℚ) / 1000
    · refine ⟨a.after, some a.state, if_pos (.inr hin), le_trans hin (le_of_lt hlt), ?_⟩
      intro s hs
      exact Option.some.inj hs ▸ ha a harr
    · refine ⟨_, none, if_neg ?_, le_of_lt hlt, nofun⟩
      exact not_or.mpr ⟨hne, hin⟩

/-- `BLOCK 0` ends with the next entry, if there is one. -/
theorem blockingRead_forever (hnow : ¬ (c.read.redis.stream.group.isNone ∨ backlog c.read.redis ≠ [])) :
    blockingRead 0 c.read c.arrival = c.arrival.map fun a => (a.after, some a.state) := by
  unfold blockingRead
  rw [if_neg hnow]
  cases c.arrival with
  | none => rfl
  | some a => exact if_pos (.inl rfl)

theorem blockingRead_cases (hr : Ready J c.read) (ha : ∀ a ∈ c.arrival, Ready J a.state) {blockMs : Int}
    (hblock : 0 ≤ blockMs) {timeout : ℚ} (hlt : (blockMs : ℚ) / 1000 < timeout) :
    (Answered c blockMs timeout ∧ ∃ after served,
        blockingRead blockMs c.read c.arrival = some (after, served) ∧ after ≤ timeout ∧ ∀ s ∈ served, Ready J s) ∨
      (¬ Answered c blockMs timeout ∧
        ∀ after served, blockingRead blockMs c.read c.arrival = some (after, served) → timeout < after) := by
  have hwait : (0 : ℚ) ≤ (blockMs : ℚ) / 1000 := div_nonneg (Int.cast_nonneg hblock) (by norm_num)
  by_cases hback : backlog c.read.redis ≠ []
  · refine .inl ⟨.inl hback, 0, some c.read, if_pos (.inr hback), le_of_lt (lt_of_le_of_lt hwait hlt), ?_⟩
    intro s hs
    exact Option.some.inj hs ▸ hr
  have hnow : ¬ (c.read.redis.stream.group.isNone ∨ backlog c.read.redis ≠ []) := by
    intro h
    rcases h with h | h
    · rw [← Option.not_isSome, hr.2] at h
      cases h
    · exact hback h
  by_cases hpos : 0 < blockMs
  · exact .inl ⟨.inr (.inl hpos), blockingRead_waits ha hnow hpos hlt⟩
  obtain rfl : blockMs = 0 := by omega
  rw [blockingRead_forever hnow]
  by_cases hin : ∃ a, c.arrival = some a ∧ a.after ≤ timeout
  · obtain ⟨a, harr, hle⟩ := hin
    refine .inl ⟨.inr (.inr ⟨a, harr, hle⟩), a.after, some a.state, by rw [harr]; rfl, hle, ?_⟩
    intro s hs
    exact Option.some.inj hs ▸ ha a harr
  · refine .inr ⟨?_, ?_⟩
    · intro h
      rcases h with h | h | h
      · exact hback h
      · exact hpos h
      · exact hin h
    · intro after served h
      obtain ⟨a, harr, heq⟩ := Option.map_eq_some_iff.mp h
      obtain ⟨rfl, _⟩ := Prod.mk.inj heq
      exact not_le.mp fun hle => hin ⟨a, harr, hle⟩

theorem readNew_cases (hJ : J.RoundTrips) (hr : Ready J c.read) (ha : ∀ a ∈ c.arrival, Ready J a.state)
    {count blockMs : Int} (hcount : 0 < count) (hblock : 0 ≤ blockMs) {timeout : ℚ}
    (hlt : (blockMs : ℚ) / 1000 < timeout) :
    (Answered c blockMs timeout ∧
        (c.answers J timeout w s).readNew count blockMs = .ok (received J false (c.readEntries w count blockMs))) ∨
      (¬ Answered c blockMs timeout ∧
        ∃ text, (c.answers J timeout w s).readNew count blockMs = .error (.unavailable text)) := by
  show (_ ∧ readNew J count blockMs _ = _) ∨ (_ ∧ ∃ text, readNew J count blockMs _ = _)
  unfold readNew
  rw [if_neg (not_le.mpr hcount), if_neg (not_lt.mpr hblock)]
  rcases blockingRead_cases hr ha hblock hlt with ⟨hans, after, served, heq, hle, hready⟩ | ⟨hno, hlate⟩
  · refine .inl ⟨hans, ?_⟩
    unfold Course.readEntries
    cases served with
    | none => simp only [heq, blockingReadReply, if_neg (not_lt.mpr hle)]; rfl
    | some t =>
      obtain ⟨records, hrec, hd⟩ := xreadgroupReply_ok hJ (hready t rfl) w.consumerName count
      simp only [heq, blockingReadReply, if_neg (not_lt.mpr hle), hrec]
      exact hd
  · refine .inr ⟨hno, "failed to read new jobs: " ++ timedOut.text, ?_⟩
    have hreply : blockingReadReply timeout w.consumerName count (blockingRead blockMs c.read c.arrival) =
        .error timedOut := by
      cases heq : blockingRead blockMs c.read c.arrival with
      | none => rfl
      | some r => exact if_pos (hlate r.1 r.2 heq)
    rw [hreply]

end

end InferenceService
