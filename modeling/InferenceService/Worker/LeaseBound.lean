import InferenceService.Worker.Leases
import Mathlib.Tactic.Linarith

/-!
# When no worker's message is taken over

A message of a batch waits behind the messages before it, so its idle time can
reach the length of a whole batch.
-/

namespace InferenceService

section
variable {p : LeaseSettings} {workers : List String} {s s' : LeaseSys} {a : LeaseAct}

theorem callSeconds_pos (p : LeaseSettings) : 0 < p.callSeconds := by
  unfold LeaseSettings.callSeconds
  have h1 : (0 : ℚ) ≤ p.retryAttempts := Nat.cast_nonneg _
  have h2 := mul_pos (lt_of_lt_of_le one_pos (le_add_of_nonneg_left h1)) (Double.value_pos p.timeout_pos)
  have h3 := mul_nonneg h1 (Double.value_nonneg p.backoff_nonneg)
  have h4 := Double.value_pos p.fallback_pos
  linarith

theorem reclaimIdleMs_pos (p : LeaseSettings) : 0 < p.reclaimIdleMs :=
  (Int.lt_toNat).mpr (default_reclaimIdleMs_pos _ _ _)

/-! ## What a step does to the batches -/

/-- The messages were claimed at `since`: they are at most a batch, the calls
before them took their time at most, and no pending entry of theirs is older. -/
structure Fresh (p : LeaseSettings) (s : LeaseSys) (run : BatchRun) : Prop where
  since : ∃ (t : ℚ) (k : Nat), k + run.messageIds.length ≤ p.batchSize ∧ 0 ≤ t ∧ t ≤ s.now ∧
    run.callStartedAt ≤ t + k * p.callSeconds ∧
    ∀ n ∈ s.stream.nacks, n.id ∈ run.messageIds → ⌊1000 * t⌋₊ ≤ n.deliveredAt
  inCall : run.messageIds ≠ [] → s.now ≤ run.callStartedAt + p.callSeconds
  claimed : run.reading = true → ∀ n ∈ s.stream.nacks, n.id ∈ run.messageIds → s.nowMs ≤ n.deliveredAt

structure LeaseInv (p : LeaseSettings) (workers : List String) (s : LeaseSys) : Prop where
  now_nonneg : 0 ≤ s.now
  known : ∀ w run, s.runs w = some run → w ∈ workers
  fresh : ∀ w run, s.runs w = some run → Fresh p s run

theorem Fresh.restream {run : BatchRun} (h : Fresh p s run) {stream : JobStream}
    (hst : ∀ n ∈ stream.nacks, n ∈ s.stream.nacks ∨ n.deliveredAt = s.nowMs) :
    Fresh p { s with stream } run := by
  obtain ⟨⟨t, k, hlen, h0, hle, hcall, hnacks⟩, hin, hclaimed⟩ := h
  refine ⟨⟨t, k, hlen, h0, hle, hcall, ?_⟩, hin, ?_⟩
  · intro n hn hid
    rcases hst n hn with hn | hnow
    · exact hnacks n hn hid
    · rw [hnow]
      exact Nat.floor_le_floor (by linarith)
  · intro hreading n hn hid
    rcases hst n hn with hn | hnow
    · exact hclaimed hreading n hn hid
    · exact le_of_eq hnow.symm

theorem leaseInv_put (h : LeaseInv p workers s) {worker : String} (hw : worker ∈ workers) {stream : JobStream}
    (hst : ∀ n ∈ stream.nacks, n ∈ s.stream.nacks ∨ n.deliveredAt = s.nowMs) {run : Option BatchRun}
    (hrun : ∀ r ∈ run, Fresh p { s with stream } r) :
    LeaseInv p workers ({ s with stream }.setRun worker run) := by
  refine ⟨h.now_nonneg, ?_, ?_⟩
  · intro w r hr
    by_cases hww : w = worker
    · exact hww ▸ hw
    · rw [LeaseSys.setRun_of_ne _ hww] at hr
      exact h.known w r hr
  · intro w r hr
    by_cases hww : w = worker
    · subst hww
      rw [LeaseSys.setRun_self] at hr
      exact { hrun r hr with }
    · rw [LeaseSys.setRun_of_ne _ hww] at hr
      exact { (h.fresh w r hr).restream hst with }

theorem leaseInv_stream (h : LeaseInv p workers s) {stream : JobStream}
    (hst : ∀ n ∈ stream.nacks, n ∈ s.stream.nacks ∨ n.deliveredAt = s.nowMs) :
    LeaseInv p workers { s with stream } :=
  ⟨h.now_nonneg, h.known, fun w r hr => (h.fresh w r hr).restream hst⟩

theorem fresh_now {s : LeaseSys} (h0 : 0 ≤ s.now) {ids : List StreamId} (hlen : ids.length ≤ p.batchSize)
    (hst : ∀ n ∈ s.stream.nacks, n.id ∈ ids → s.nowMs ≤ n.deliveredAt) (reading : Bool) :
    Fresh p s ⟨ids, s.now, reading⟩ := by
  refine ⟨⟨s.now, 0, by simpa using hlen, h0, le_refl _, by simp, hst⟩, ?_, fun _ => hst⟩
  intro _
  exact le_add_of_nonneg_right (le_of_lt (callSeconds_pos p))

theorem mem_rest {now : ℚ} {ids : List StreamId} {run : BatchRun} (h : run ∈ BatchRun.rest now ids) :
    run = ⟨ids, now, false⟩ := by
  unfold BatchRun.rest at h
  by_cases hids : ids = []
  · rw [if_pos hids] at h
    cases h
  · rw [if_neg hids] at h
    exact (Option.some.inj h).symm

theorem claim_claims {worker : String} {how : Reclaim} {ids : List StreamId} {stream : JobStream}
    (h : s.claim p worker how = some (ids, stream)) :
    ids.length ≤ p.batchSize ∧ Redis.Stream.Claims s.stream stream p.reclaimIdleMs s.nowMs ids := by
  cases how with
  | auto startId =>
    obtain ⟨⟨scan, stream'⟩, hr, heq⟩ := Option.map_eq_some_iff.mp h
    obtain ⟨rfl, rfl⟩ := Prod.mk.inj heq
    have hclaims := Redis.Stream.xautoclaim_claims hr
    rw [List.length_map]
    exact hclaims
  | legacy messageIds =>
    simp only [LeaseSys.claim] at h
    by_cases hlen : p.batchSize < messageIds.length
    · rw [if_pos hlen] at h
      cases h
    · rw [if_neg hlen] at h
      obtain ⟨⟨reply, stream'⟩, hr, heq⟩ := Option.map_eq_some_iff.mp h
      obtain ⟨rfl, rfl⟩ := Prod.mk.inj heq
      have hclaims := Redis.Stream.xclaim_claims (reclaimIdleMs_pos p) hr
      exact ⟨le_trans hclaims.1 (not_lt.mp hlen), hclaims.2⟩

theorem read_nacks {worker : String} {capacity : Nat} {ids : List StreamId} {stream : JobStream}
    (h : s.read worker capacity = some (ids, stream)) :
    ids.length ≤ capacity ∧ ∀ n ∈ stream.nacks,
      (n ∈ s.stream.nacks ∧ n.id ∉ ids) ∨ (n.id ∈ ids ∧ n.deliveredAt = s.nowMs) := by
  unfold LeaseSys.read at h
  by_cases hc : capacity = 0
  · rw [if_pos hc] at h
    obtain ⟨rfl, rfl⟩ := Prod.mk.inj (Option.some.inj h)
    exact ⟨Nat.zero_le _, fun n hn => .inl ⟨hn, List.not_mem_nil⟩⟩
  · rw [if_neg hc] at h
    obtain ⟨⟨entries, stream'⟩, hr, heq⟩ := Option.map_eq_some_iff.mp h
    obtain ⟨rfl, rfl⟩ := Prod.mk.inj heq
    refine ⟨?_, fun n hn => Redis.Stream.nacks_xreadgroup hr hn⟩
    rw [List.length_map]
    exact Redis.Stream.xreadgroup_length hr

theorem leaseInv_tick (h : LeaseInv p workers s) {seconds : ℚ}
    (hs : (leaseSys p workers).step s (.tick seconds) = some s') : LeaseInv p workers s' := by
  simp only [leaseSys, LeaseSys.step, Option.ite_none_right_eq_some, Option.some.injEq] at hs
  obtain ⟨⟨hpos, hguard⟩, rfl⟩ := hs
  refine ⟨add_nonneg h.now_nonneg hpos, h.known, ?_⟩
  intro w run hr
  obtain ⟨⟨t, k, hlen, h0, hle, hcall, hnacks⟩, _, _⟩ := h.fresh w run hr
  have hpass := hguard w (h.known w run hr) run hr
  refine ⟨⟨t, k, hlen, h0, le_trans hle (le_add_of_nonneg_right hpos), hcall, hnacks⟩, ?_, ?_⟩
  · intro hne
    exact (hpass.resolve_left hne).2
  · intro hreading n _ hid
    rcases hpass with hnil | ⟨hno, _⟩
    · rw [hnil] at hid
      cases hid
    · rw [hno] at hreading
      cases hreading

theorem leaseInv_reclaimIdle (h : LeaseInv p workers s) {worker : String} {how : Reclaim}
    (hs : (leaseSys p workers).step s (.reclaimIdle worker how) = some s') : LeaseInv p workers s' := by
  simp only [leaseSys, LeaseSys.step, Option.ite_none_right_eq_some] at hs
  obtain ⟨hguard, hs⟩ := hs
  obtain ⟨⟨ids, stream⟩, hclaim, rfl⟩ := Option.map_eq_some_iff.mp hs
  obtain ⟨hlen, hclaims⟩ := claim_claims hclaim
  refine leaseInv_put h hguard.1 (fun n hn => (hclaims.stamped n hn).imp_left And.left) ?_
  intro run hrun
  obtain rfl := Option.some.inj hrun
  refine fresh_now (s := { s with stream }) h.now_nonneg hlen ?_ true
  intro n hn hid
  rcases hclaims.stamped n hn with ⟨_, hnot⟩ | hnow
  · exact absurd hid hnot
  · exact le_of_eq hnow.symm

theorem leaseInv_readNew (h : LeaseInv p workers s) {worker : String}
    (hs : (leaseSys p workers).step s (.readNew worker) = some s') : LeaseInv p workers s' := by
  simp only [leaseSys, LeaseSys.step, Option.bind_eq_bind] at hs
  obtain ⟨run, hrun, hs⟩ := Option.bind_eq_some_iff.mp hs
  rw [Option.ite_none_right_eq_some] at hs
  obtain ⟨hreading, hs⟩ := hs
  obtain ⟨⟨ids, stream⟩, hread, hs⟩ := Option.bind_eq_some_iff.mp hs
  obtain rfl := Option.some.inj hs
  obtain ⟨hlen, hnacks⟩ := read_nacks hread
  have hfresh := h.fresh worker run hrun
  obtain ⟨t, k, hbatch, _⟩ := hfresh.since
  refine leaseInv_put h (h.known worker run hrun) (fun n hn => (hnacks n hn).imp And.left And.right) ?_
  intro run' hrun'
  obtain rfl := mem_rest hrun'
  refine fresh_now (s := { s with stream }) h.now_nonneg ?_ ?_ false
  · show (run.messageIds ++ ids).length ≤ p.batchSize
    rw [List.length_append]
    omega
  · intro n hn hid
    rcases hnacks n hn with ⟨hold, hnot⟩ | ⟨_, hnow⟩
    · rcases List.mem_append.mp hid with hid | hid
      · exact hfresh.claimed hreading n hold hid
      · exact absurd hid hnot
    · exact le_of_eq hnow.symm

theorem leaseInv_finish (h : LeaseInv p workers s) {worker : String} {finalized : Bool}
    (hs : (leaseSys p workers).step s (.finish worker finalized) = some s') : LeaseInv p workers s' := by
  simp only [leaseSys, LeaseSys.step, Option.bind_eq_bind] at hs
  obtain ⟨run, hrun, hs⟩ := Option.bind_eq_some_iff.mp hs
  split at hs
  · cases hs
  rename_i id rest hids
  split at hs
  · cases hs
  obtain rfl := Option.some.inj hs
  have hsub : ∀ n ∈ (if finalized = true ∧ s.stream.owner id = some worker then (s.stream.xack id).xdel id
      else s.stream).nacks, n ∈ s.stream.nacks := by
    intro n hn
    split at hn
    · exact Redis.Stream.nacks_settle id hn
    · exact hn
  refine leaseInv_put h (h.known worker run hrun) (fun n hn => .inl (hsub n hn)) ?_
  intro run' hrun'
  obtain rfl := mem_rest hrun'
  obtain ⟨⟨t, k, hlen, h0, hle, hcall, hnacks⟩, hin, _⟩ := h.fresh worker run hrun
  rw [hids] at hlen hnacks hin
  refine ⟨⟨t, k + 1, ?_, h0, hle, ?_, ?_⟩, ?_, nofun⟩
  · rw [List.length_cons] at hlen
    show k + 1 + rest.length ≤ p.batchSize
    omega
  · -- the call that ends here took its time at most
    have hnow := hin (List.cons_ne_nil _ _)
    show s.now ≤ t + ((k + 1 : Nat) : ℚ) * p.callSeconds
    push_cast
    linarith
  · intro n hn hid
    exact hnacks n (hsub n hn) (List.mem_cons_of_mem _ hid)
  · intro _
    exact le_add_of_nonneg_right (le_of_lt (callSeconds_pos p))

theorem leaseInv_leave (h : LeaseInv p workers s) (worker : String) :
    LeaseInv p workers (s.setRun worker none) := by
  refine ⟨h.now_nonneg, ?_, ?_⟩
  · intro w run hr
    by_cases hww : w = worker
    · simp [hww] at hr
    · rw [LeaseSys.setRun_of_ne _ hww] at hr
      exact h.known w run hr
  · intro w run hr
    by_cases hww : w = worker
    · simp [hww] at hr
    · rw [LeaseSys.setRun_of_ne _ hww] at hr
      exact { h.fresh w run hr with }

theorem leaseInv_step (h : LeaseInv p workers s) (hs : (leaseSys p workers).step s a = some s') :
    LeaseInv p workers s' := by
  cases a with
  | tick seconds => exact leaseInv_tick h hs
  | enqueue fields =>
    obtain rfl := Option.some.inj hs
    exact leaseInv_stream h fun n hn => .inl hn
  | ensureConsumerGroup =>
    obtain ⟨stream, hstream, rfl⟩ := Option.map_eq_some_iff.mp hs
    refine leaseInv_stream h fun n hn => ?_
    rw [Redis.Stream.nacks_xgroupCreate hstream] at hn
    cases hn
  | reclaimIdle worker how => exact leaseInv_reclaimIdle h hs
  | readNew worker => exact leaseInv_readNew h hs
  | finish worker finalized => exact leaseInv_finish h hs
  | leave worker =>
    obtain rfl := Option.some.inj hs
    exact leaseInv_leave h worker

theorem leaseInv_init : LeaseInv p workers (leaseSys p workers).init :=
  ⟨le_refl _, nofun, nofun⟩

theorem reachable_leaseInv (hs : (leaseSys p workers).Reachable s) : LeaseInv p workers s :=
  hs.invariant leaseInv_init fun _ _ _ _ h hstep => leaseInv_step h hstep

/-! ## Short enough batches -/

/-- A whole batch of calls is over before its lease is. -/
def LeaseSettings.BatchFits (p : LeaseSettings) : Prop :=
  (p.batchSize : ℚ) * p.callSeconds * 1000 ≤ p.reclaimIdleMs - 1

theorem not_wasIdle (hfits : p.BatchFits) (h : LeaseInv p workers s) {w : String} {run : BatchRun}
    (hrun : s.runs w = some run) {id : StreamId} (hid : id ∈ run.messageIds) :
    ¬ Redis.Stream.WasIdle s.stream.nacks p.reclaimIdleMs s.nowMs id := by
  intro ⟨n, hn, hnid, hidle⟩
  obtain ⟨⟨t, k, hlen, h0, _, hcall, hnacks⟩, hin, _⟩ := h.fresh w run hrun
  have hstamp := hnacks n hn (hnid ▸ hid)
  have hpos : 0 < run.messageIds.length := List.length_pos_of_mem hid
  have hk : ((k + 1 : Nat) : ℚ) ≤ p.batchSize := by exact_mod_cast (by omega : k + 1 ≤ p.batchSize)
  have hnow : s.now ≤ t + p.batchSize * p.callSeconds := by
    have hend := hin (List.ne_nil_of_mem hid)
    have hcalls := mul_le_mul_of_nonneg_right hk (le_of_lt (callSeconds_pos p))
    push_cast at hcalls
    linarith
  have hlease := reclaimIdleMs_pos p
  have hms : s.nowMs ≤ ⌊1000 * t⌋₊ + (p.reclaimIdleMs - 1) := by
    unfold LeaseSys.nowMs
    rw [← Nat.floor_add_natCast (by linarith)]
    apply Nat.floor_le_floor
    unfold LeaseSettings.BatchFits at hfits
    rw [Nat.cast_sub hlease, Nat.cast_one]
    linarith
  omega

theorem noTakeover_step (hfits : p.BatchFits) (h : LeaseInv p workers s)
    (hs : (leaseSys p workers).step s a = some s') : NoTakeover s a s' := by
  intro worker how ha id hworks other hother hheld
  subst ha
  simp only [leaseSys, LeaseSys.step] at hs
  split at hs
  · obtain ⟨⟨ids, stream⟩, hclaim, rfl⟩ := Option.map_eq_some_iff.mp hs
    obtain ⟨run, hrun, hid⟩ := hworks
    rw [LeaseSys.setRun_self] at hrun
    obtain rfl := Option.some.inj hrun
    obtain ⟨run', hrun', hid'⟩ := hheld
    exact not_wasIdle hfits h hrun' hid' ((claim_claims hclaim).2.wasIdle id hid)
  · cases hs

end

end InferenceService
