import InferenceService.Worker.LeaseBound

/-!
# When a worker's message is taken over

A run in which a batch outlasts its lease: one worker reads a full batch, each
of its calls lasts as long as it may, and another worker reclaims the last
message before the first worker has finished it.
-/

namespace InferenceService

section
variable (p : LeaseSettings)

/-- When the batch is read: the fraction of a millisecond that makes the whole
batch last for a lease by the server's clock. -/
def readAt : ℚ := max 0 ((p.reclaimIdleMs - (p.batchSize : ℚ) * p.callSeconds * 1000) / 1000)

abbrev twoWorkers : Lts LeaseSys LeaseAct := leaseSys p ["a", "b"]

def fillRun : List LeaseAct := .ensureConsumerGroup :: List.replicate p.batchSize (.enqueue [])

def readRun : List LeaseAct := [.tick (readAt p), .reclaimIdle "a" (.auto ⊥), .readNew "a"]

def workRun (m : Nat) : List LeaseAct := (List.replicate m [.tick p.callSeconds, .finish "a" true]).flatten

def takeoverRun : List LeaseAct :=
  fillRun p ++ readRun p ++ workRun p (p.batchSize - 1) ++ [.tick p.callSeconds]

variable {s : LeaseSys}

structure Filled (k : Nat) (s : LeaseSys) : Prop where
  now : s.now = 0
  runs : s.runs = fun _ => none
  group : s.stream.group = some (.startAt ⊥)
  length : s.stream.ids.length = k

theorem filled_enqueue {k : Nat} (h : Filled k s) :
    ∃ s', (twoWorkers p).step s (.enqueue []) = some s' ∧ Filled (k + 1) s' := by
  refine ⟨_, rfl, h.now, h.runs, h.group, ?_⟩
  rw [Redis.Stream.xadd_ids, List.length_append, h.length]
  rfl

theorem filled_replicate (m : Nat) : ∀ {k : Nat} {s : LeaseSys}, Filled k s →
    ∃ s', (twoWorkers p).runFrom s (List.replicate m (.enqueue [])) = some s' ∧ Filled (k + m) s' := by
  induction m with
  | zero => exact fun {k s} h => ⟨s, rfl, h⟩
  | succ m ih =>
    intro k s h
    obtain ⟨t, ht, hfilled⟩ := filled_enqueue p h
    obtain ⟨u, hu, hdone⟩ := ih hfilled
    refine ⟨u, (twoWorkers p).runFrom_cons_iff.mpr ⟨t, ht, hu⟩, ?_⟩
    rw [show k + (m + 1) = k + 1 + m by omega]
    exact hdone

theorem filled_fillRun :
    ∃ s, (twoWorkers p).runFrom (twoWorkers p).init (fillRun p) = some s ∧ Filled p.batchSize s := by
  have hstart : ∃ s, (twoWorkers p).step (twoWorkers p).init .ensureConsumerGroup = some s ∧ Filled 0 s :=
    ⟨_, rfl, rfl, rfl, rfl, rfl⟩
  obtain ⟨s, hs, h0⟩ := hstart
  obtain ⟨t, ht, hfilled⟩ := filled_replicate p p.batchSize h0
  rw [Nat.zero_add] at hfilled
  exact ⟨t, (twoWorkers p).runFrom_cons_iff.mpr ⟨s, hs, ht⟩, hfilled⟩

/-! ## The batch -/

/-- Worker `a` has read the messages at the server's time 0 and starts to work
on the first of them. -/
structure Working (ids : List StreamId) (s : LeaseSys) : Prop where
  run : s.runs "a" = some ⟨ids, s.now, false⟩
  others : ∀ w ≠ "a", s.runs w = none
  pending : ∃ g, s.stream.group = some g ∧ g.pending = ids.map (Redis.Nack.fresh "a" 0)
  stored : ∀ id ∈ ids, id ∈ s.stream.ids

theorem readAt_nonneg : 0 ≤ readAt p := le_max_left _ _

theorem floor_readAt (h : ¬ p.BatchFits) : ⌊1000 * readAt p⌋₊ = 0 := by
  unfold LeaseSettings.BatchFits at h
  rw [not_le] at h
  apply Nat.floor_eq_zero.mpr
  unfold readAt
  rcases max_cases (0 : ℚ) ((p.reclaimIdleMs - (p.batchSize : ℚ) * p.callSeconds * 1000) / 1000) with ⟨heq, _⟩ | ⟨heq, _⟩
  · rw [heq]
    norm_num
  · rw [heq]
    linarith

theorem lease_over : p.reclaimIdleMs ≤ ⌊1000 * (readAt p + p.batchSize * p.callSeconds)⌋₊ := by
  apply Nat.le_floor
  have h := le_max_right (0 : ℚ) ((p.reclaimIdleMs - (p.batchSize : ℚ) * p.callSeconds * 1000) / 1000)
  unfold readAt
  linarith

theorem others_may_pass {ids : List StreamId} (h : Working ids s) {seconds : ℚ} (hle : seconds ≤ p.callSeconds) :
    ∀ w ∈ ["a", "b"], ∀ run ∈ s.runs w, s.MayPass p seconds run := by
  intro w _ run hrun
  by_cases hw : w = "a"
  · subst hw
    obtain rfl := Option.some.inj (h.run.symm.trans hrun)
    exact .inr ⟨rfl, by simpa using hle⟩
  · rw [h.others w hw] at hrun
    cases hrun

structure Reading (s : LeaseSys) : Prop where
  run : s.runs "a" = some ⟨[], s.now, true⟩
  others : ∀ w ≠ "a", s.runs w = none
  group : ∃ g, s.stream.group = some g ∧ g.pending = [] ∧ g.lastDelivered = ⊥

theorem reading_step (hruns : s.runs = fun _ => none)
    (hgroup : s.stream.group = some (.startAt ⊥)) :
    ∃ s', (twoWorkers p).step s (.reclaimIdle "a" (.auto ⊥)) = some s' ∧ Reading s' ∧ s'.now = s.now ∧
      s'.stream.ids = s.stream.ids := by
  obtain ⟨stream, hclaim, hentries, hg⟩ := Redis.Stream.xautoclaim_nil hgroup rfl "a" ⊥ p.reclaimIdleMs p.batchSize
    s.nowMs
  refine ⟨{ s with stream }.setRun "a" (some ⟨[], s.now, true⟩), ?_, ⟨LeaseSys.setRun_self .., ?_, hg⟩, rfl, ?_⟩
  · refine (if_pos ⟨by decide, by rw [hruns]⟩).trans ?_
    simp only [LeaseSys.claim, hclaim]
    rfl
  · intro w hne
    rw [LeaseSys.setRun_of_ne _ hne, hruns]
  · exact congrArg (List.map Prod.fst) hentries

theorem working_of_reading (h : Reading s) (hlen : s.stream.ids.length = p.batchSize)
    (hms : s.nowMs = 0) :
    ∃ s', (twoWorkers p).step s (.readNew "a") = some s' ∧ Working s.stream.ids s' ∧ s'.now = s.now := by
  obtain ⟨g, hg, hpending, hlast⟩ := h.group
  obtain ⟨stream, hread, hentries, g', hg', hpending'⟩ := Redis.Stream.xreadgroup_all hg hpending hlast
    (le_of_eq hlen) "a" s.nowMs
  have hids : stream.ids = s.stream.ids := congrArg (List.map Prod.fst) hentries
  have hne : s.stream.ids ≠ [] := List.ne_nil_of_length_pos (hlen ▸ p.batch_pos)
  have hrest : BatchRun.rest s.now s.stream.ids = some ⟨s.stream.ids, s.now, false⟩ := if_neg hne
  refine ⟨{ s with stream }.setRun "a" (some ⟨s.stream.ids, s.now, false⟩), ?_,
    ⟨LeaseSys.setRun_self .., ?_, ⟨g', hg', ?_⟩, ?_⟩, rfl⟩
  · have hcap : s.read "a" p.batchSize = some (s.stream.ids, stream) := by
      unfold LeaseSys.read
      rw [if_neg (Nat.ne_of_gt p.batch_pos), hread]
      rfl
    show (twoWorkers p).step s (.readNew "a") = _
    simp only [leaseSys, LeaseSys.step, h.run, Option.bind_eq_bind, Option.bind_some, if_true, List.length_nil,
      Nat.sub_zero, hcap, List.nil_append, hrest]
  · intro w hw
    rw [LeaseSys.setRun_of_ne _ hw]
    exact h.others w hw
  · rw [hpending', hms]
  · intro id hid
    show id ∈ stream.ids
    rw [hids]
    exact hid

theorem working_readRun (h : Filled p.batchSize s)
    (hms : ⌊1000 * readAt p⌋₊ = 0) :
    ∃ s' ids, (twoWorkers p).runFrom s (readRun p) = some s' ∧ Working ids s' ∧ ids.length = p.batchSize ∧
      s'.now = readAt p := by
  have htick : (twoWorkers p).step s (.tick (readAt p)) = some { s with now := readAt p } := by
    refine (if_pos ⟨readAt_nonneg p, ?_⟩).trans (by rw [h.now, zero_add])
    intro w _ run hrun
    rw [h.runs] at hrun
    cases hrun
  obtain ⟨t, ht, hreading, hnow, hids⟩ := reading_step p (s := { s with now := readAt p }) h.runs h.group
  obtain ⟨u, hu, hworking, hnow'⟩ := working_of_reading p hreading
    (by rw [hids]; exact h.length) (by unfold LeaseSys.nowMs; rw [hnow]; exact hms)
  refine ⟨u, t.stream.ids, ?_, hworking, by rw [hids]; exact h.length, by rw [hnow', hnow]⟩
  rw [readRun, Lts.runFrom_cons, htick, Option.bind_some, Lts.runFrom_cons, ht, Option.bind_some, Lts.runFrom_cons, hu]
  rfl

theorem working_next {id : StreamId} {rest : List StreamId} (h : Working (id :: rest) s)
    (hne : rest ≠ []) :
    ∃ s', (twoWorkers p).runFrom s [.tick p.callSeconds, .finish "a" true] = some s' ∧ Working rest s' ∧
      s'.now = s.now + p.callSeconds := by
  obtain ⟨g, hg, hpending⟩ := h.pending
  have htick : (twoWorkers p).step s (.tick p.callSeconds) = some { s with now := s.now + p.callSeconds } :=
    if_pos ⟨le_of_lt (callSeconds_pos p), others_may_pass p h (le_refl _)⟩
  have howner : s.stream.owner id = some "a" := by
    unfold Redis.Stream.owner Redis.Group.find
    rw [hg, Option.bind_some, hpending, List.map_cons, List.find?_cons_of_pos (by simp [Redis.Nack.fresh])]
    rfl
  have hnodup : (id :: rest).Nodup := by
    have := g.ids_nodup
    rw [Redis.Group.ids, hpending, Redis.Nack.map_fresh_id] at this
    exact this
  have hrest : BatchRun.rest (s.now + p.callSeconds) rest = some ⟨rest, s.now + p.callSeconds, false⟩ := if_neg hne
  refine ⟨({ now := s.now + p.callSeconds, stream := (s.stream.xack id).xdel id, runs := s.runs } : LeaseSys).setRun "a"
    (some ⟨rest, s.now + p.callSeconds, false⟩), ?_, ⟨LeaseSys.setRun_self .., ?_, ?_, ?_⟩, rfl⟩
  · rw [Lts.runFrom_cons, htick, Option.bind_some, Lts.runFrom_cons]
    simp [leaseSys, LeaseSys.step, h.run, howner, hrest]
  · intro w hw
    rw [LeaseSys.setRun_of_ne _ hw]
    exact h.others w hw
  · exact Redis.Stream.settle_head (n := Redis.Nack.fresh "a" 0 id) hg hpending
  · intro x hx
    exact Redis.Stream.mem_xdel_ids.mpr ⟨h.stored x (List.mem_cons_of_mem _ hx),
      fun heq => (List.nodup_cons.mp hnodup).1 (heq ▸ hx)⟩

theorem working_workRun (m : Nat) : ∀ {ids : List StreamId} {s : LeaseSys}, Working ids s →
    ids.length = m + 1 → ∃ s' id, (twoWorkers p).runFrom s (workRun p m) = some s' ∧ Working [id] s' ∧
      s'.now = s.now + m * p.callSeconds := by
  induction m with
  | zero =>
    intro ids s h hlen
    obtain ⟨id, rfl⟩ := List.length_eq_one_iff.mp hlen
    exact ⟨s, id, rfl, h, by simp⟩
  | succ m ih =>
    intro ids s h hlen
    obtain ⟨id, rest, rfl⟩ := List.exists_cons_of_length_eq_add_one hlen
    have hrest : rest.length = m + 1 := by simpa using hlen
    have hne : rest ≠ [] := List.ne_nil_of_length_pos (by omega)
    obtain ⟨t, ht, hworking, hnow⟩ := working_next p h hne
    obtain ⟨u, last, hu, hlast, hnow'⟩ := ih hworking hrest
    refine ⟨u, last, ?_, hlast, ?_⟩
    · rw [workRun, List.replicate_succ, List.flatten_cons, Lts.runFrom_append, ht]
      exact hu
    · rw [hnow', hnow]
      push_cast
      ring

theorem takeover_step {id : StreamId} (h : Working [id] s)
    (hover : p.reclaimIdleMs ≤ ⌊1000 * (s.now + p.callSeconds)⌋₊) :
    ∃ t u, (twoWorkers p).runFrom s [.tick p.callSeconds] = some t ∧
      (twoWorkers p).step t (.reclaimIdle "b" (.auto ⊥)) = some u ∧ t.WorksOn "a" id ∧ u.WorksOn "b" id := by
  obtain ⟨g, hg, hpending⟩ := h.pending
  have htick : (twoWorkers p).step s (.tick p.callSeconds) = some { s with now := s.now + p.callSeconds } :=
    if_pos ⟨le_of_lt (callSeconds_pos p), others_may_pass p h (le_refl _)⟩
  obtain ⟨fields, hl⟩ := Redis.Stream.lookup_isSome.mpr (h.stored id (List.mem_singleton.mpr rfl))
  have hidle : (Redis.Nack.fresh "a" 0 id).deliveredAt + p.reclaimIdleMs ≤ ⌊1000 * (s.now + p.callSeconds)⌋₊ := by
    simpa [Redis.Nack.fresh] using hover
  obtain ⟨stream, hclaim⟩ := Redis.Stream.xautoclaim_single (n := Redis.Nack.fresh "a" 0 id) hg hpending hl
    hidle p.batch_pos "b"
  refine ⟨{ s with now := s.now + p.callSeconds },
    ({ now := s.now + p.callSeconds, stream, runs := s.runs } : LeaseSys).setRun "b"
      (some ⟨[id], s.now + p.callSeconds, true⟩), ?_, ?_, ?_, ?_⟩
  · rw [Lts.runFrom_cons, htick]
    rfl
  · refine (if_pos ⟨by decide, h.others "b" (by decide)⟩).trans ?_
    simp only [LeaseSys.claim, LeaseSys.nowMs, hclaim]
    rfl
  · exact ⟨_, h.run, List.mem_singleton.mpr rfl⟩
  · exact ⟨_, LeaseSys.setRun_self .., List.mem_singleton.mpr rfl⟩

theorem takeoverRun_takes_over (h : ¬ p.BatchFits) :
    ¬ (twoWorkers p).AllSteps NoTakeover (twoWorkers p).init
      (takeoverRun p ++ [.reclaimIdle "b" (.auto ⊥)]) := by
  obtain ⟨s₁, h₁, hfilled⟩ := filled_fillRun p
  obtain ⟨s₂, ids, h₂, hworking, hlen, hnow₂⟩ := working_readRun p hfilled (floor_readAt p h)
  have hbatch := p.batch_pos
  obtain ⟨s₃, id, h₃, hlast, hnow₃⟩ := working_workRun p (p.batchSize - 1) hworking (by omega)
  have hend : s₃.now + p.callSeconds = readAt p + p.batchSize * p.callSeconds := by
    rw [hnow₃, hnow₂, Nat.cast_sub hbatch, Nat.cast_one]
    ring
  obtain ⟨t, u, ht, hu, ha, hb⟩ := takeover_step p hlast (by rw [hend]; exact lease_over p)
  have hrun : (twoWorkers p).runFrom (twoWorkers p).init (takeoverRun p) = some t := by
    simp only [takeoverRun, Lts.runFrom_append, h₁, h₂, h₃, ht, Option.bind_some]
  intro hall
  exact hall.last hu hrun "b" (.auto ⊥) rfl id hb "a" (by decide) ha

theorem no_takeover_iff :
    (∀ workers as, (leaseSys p workers).AllSteps NoTakeover (leaseSys p workers).init as) ↔
      (p.batchSize : ℚ) * ((p.retryAttempts + 1) * p.timeoutSeconds.value +
        p.retryAttempts * p.backoffSeconds.value + p.fallbackTimeoutSeconds.value) * 1000 ≤
      defaultReclaimIdleMs p.retryAttempts p.timeoutSeconds p.fallbackTimeoutSeconds - 1 := by
  have hcast : (p.reclaimIdleMs : ℚ) =
      defaultReclaimIdleMs p.retryAttempts p.timeoutSeconds p.fallbackTimeoutSeconds := by
    unfold LeaseSettings.reclaimIdleMs
    rw [← Int.cast_natCast, Int.toNat_of_nonneg (le_of_lt (default_reclaimIdleMs_pos _ _ _))]
  rw [← hcast]
  show _ ↔ p.BatchFits
  constructor
  · intro hall
    by_contra hnot
    exact takeoverRun_takes_over p hnot (hall _ _)
  · intro hfits workers as
    refine Lts.allSteps_of_reachable ?_ as (leaseSys p workers).reachable_init
    intro s a t hs hstep
    exact noTakeover_step hfits (reachable_leaseInv hs) hstep

end

theorem default_timeout_pos : 0 < Double.ofRat 300 := by decide +kernel

theorem default_backoff_nonneg : 0 ≤ Double.ofRat (1 / 5) := Double.nearest_nonneg (by norm_num)

/-- The settings when nothing is set: batches of 10, one retry, timeouts of 300
seconds and a back-off of 0.2 seconds. -/
def defaultLeaseSettings : LeaseSettings :=
  ⟨10, 1, .ofRat 300, .ofRat 300, .ofRat (1 / 5), by decide, default_timeout_pos, default_timeout_pos,
    default_backoff_nonneg⟩

theorem default_takes_over :
    ¬ (leaseSys defaultLeaseSettings ["a", "b"]).AllSteps NoTakeover (leaseSys defaultLeaseSettings ["a", "b"]).init
      (takeoverRun defaultLeaseSettings ++ [.reclaimIdle "b" (.auto ⊥)]) := by
  apply takeoverRun_takes_over
  have hidle : defaultLeaseSettings.reclaimIdleMs = 1200000 := by decide +kernel
  have hcall : defaultLeaseSettings.callSeconds ≥ 900 := by decide +kernel
  unfold LeaseSettings.BatchFits
  rw [hidle, not_le]
  show ((1200000 : Nat) : ℚ) - 1 < ((10 : Nat) : ℚ) * defaultLeaseSettings.callSeconds * 1000
  push_cast
  linarith

end InferenceService
