import InferenceService.Lib.Cursor
import InferenceService.Lib.StreamPages
import InferenceService.Worker.Replies

/-!
# The pages of `reclaim_idle`

`reclaim_idle` is called with the cursor that it returned before, until it
returns `0-0`. The clock stands still and no other client acts.
-/

namespace InferenceService

open Redis (idleIds)

structure ReclaimCall where
  consumerName : String
  minIdleTimeMs : Int
  count : Int

namespace ReclaimCall
variable {V : Type} (J : JsonLib V) (c : ReclaimCall) (hasXautoclaim : Bool) (now : Nat)

/-! ## One call -/

def xautoclaim (startId : StreamId) (s : JobStream) : Except RedisError AutoclaimReply × JobStream :=
  if hasXautoclaim then
    match s.xautoclaim c.consumerName c.minIdleTimeMs.toNat startId c.count.toNat now with
    | none => (.error noGroup, s)
    | some r => (.ok (.claimed (r.1.next.getD ⊥) (r.1.claimed.map some) r.1.deleted), r.2)
  else (.error unknownXautoclaim, s)

def xpendingRange (startId : StreamId) (s : JobStream) : Except RedisError (List PendingEntry) :=
  match s.xpendingRange (scanStart startId) c.count.toNat with
  | none => .error noGroup
  | some nacks => .ok (nacks.map fun n => ⟨n.id, (now : Int) - n.deliveredAt⟩)

def xclaim (ids : List StreamId) (s : JobStream) : Except RedisError (List RawEntry) × JobStream :=
  match s.xclaim c.consumerName c.minIdleTimeMs.toNat now ids with
  | none => (.error noGroup, s)
  | some r => (.ok r.1, r.2)

/-- The stream after `_reclaim_idle_legacy`. -/
def legacyStream (startId : StreamId) (s : JobStream) : JobStream :=
  match c.xpendingRange now startId s with
  | .error _ => s
  | .ok pending =>
    match candidateIds c.minIdleTimeMs pending with
    | [] => s
    | ids => (c.xclaim now ids s).2

def reclaimIdle (startId : StreamId) (s : JobStream) :
    Except JobQueueError (StreamId × List (JobMessage V)) × JobStream :=
  (InferenceService.reclaimIdle J c.minIdleTimeMs c.count (c.xautoclaim hasXautoclaim now startId s).1
      (reclaimIdleLegacy J c.minIdleTimeMs c.count (c.xpendingRange now startId s) fun ids => (c.xclaim now ids s).1),
    if c.minIdleTimeMs < 0 ∨ c.count ≤ 0 then s
    else if hasXautoclaim then (c.xautoclaim hasXautoclaim now startId s).2
    else c.legacyStream now startId s)

/-- The loop over the pages, from `0-0`. -/
def sweep (fuel : Nat) (s : JobStream) : Option (Except JobQueueError (List (JobMessage V)) × JobStream) :=
  Cursor.drain (c.reclaimIdle J hasXautoclaim now) ⊥ fuel ⊥ s

end ReclaimCall

/-! ## The worker's calls are such calls -/

section
variable {V R : Type} {J : JsonLib V} {w : JobWorker} {c : Course V R}

def JobWorker.reclaimCall (w : JobWorker) : ReclaimCall := ⟨w.consumerName, w.reclaimIdleMs, w.batchSize⟩

theorem course_reclaimIdle (h : c.legacyClaim = c.reclaim) :
    reclaimIdle J w.reclaimIdleMs w.batchSize (c.xautoclaimReply w)
      (reclaimIdleLegacy J w.reclaimIdleMs w.batchSize (c.xpendingReply w) (c.xclaimReply w)) =
    (w.reclaimCall.reclaimIdle J c.hasXautoclaim c.reclaim.redis.now w.reclaimStartId c.reclaim.redis.stream).1 := by
  have hauto : (w.reclaimCall.xautoclaim c.hasXautoclaim c.reclaim.redis.now w.reclaimStartId
      c.reclaim.redis.stream).1 = c.xautoclaimReply w := by
    unfold ReclaimCall.xautoclaim Course.xautoclaimReply
    dsimp only [JobWorker.reclaimCall]
    by_cases hx : c.hasXautoclaim = true
    · rw [if_pos hx, if_pos hx]
      cases c.reclaim.redis.stream.xautoclaim w.consumerName w.reclaimIdleMs.toNat w.reclaimStartId w.batchSize.toNat
        c.reclaim.redis.now <;> rfl
    · rw [if_neg hx, if_neg hx]
  have hclaim : (fun ids => (w.reclaimCall.xclaim c.reclaim.redis.now ids c.reclaim.redis.stream).1) =
      c.xclaimReply w := by
    funext ids
    unfold ReclaimCall.xclaim Course.xclaimReply
    rw [h]
    dsimp only [JobWorker.reclaimCall]
    cases c.reclaim.redis.stream.xclaim w.consumerName w.reclaimIdleMs.toNat c.reclaim.redis.now ids <;> rfl
  unfold ReclaimCall.reclaimIdle
  rw [hauto, hclaim]
  rfl

end

/-! ## Streams that can be reclaimed -/

section
variable {V : Type} {J : JsonLib V} {s : JobStream}

/-- Every pending entry is in the stream, with the fields of a message. -/
structure Reclaimable (J : JsonLib V) (s : JobStream) : Prop where
  stored : s.Stored
  decodes : ∀ e ∈ s.entries, e.1 ∈ s.nacks.map Redis.Nack.id → ∃ m, decodeRecord J true (some e) = .ok m

theorem Placed.reclaimable {s : QueueSys V} (hp : Placed J s) (hJ : J.RoundTrips) : Reclaimable J s.redis.stream where
  stored := hp.intact.stored
  decodes := by
    intro e he _
    obtain ⟨q, hq, rfl⟩ := hp.entries e he
    exact ⟨_, decodeRecord_entry hJ true (hp.valid q hq)⟩

theorem decodeRecords_claimed (hs : Reclaimable J s) :
    ∀ {entries : List (StreamId × List (String × String))}, (∀ e ∈ entries, e ∈ s.entries) →
      (∀ id ∈ entries.map Prod.fst, id ∈ s.nacks.map Redis.Nack.id) →
      ∃ messages, decodeRecords J true (entries.map some) = .ok messages ∧
        messages.map JobMessage.streamId = entries.map Prod.fst := by
  intro entries
  induction entries with
  | nil => exact fun _ _ => ⟨[], rfl, rfl⟩
  | cons e entries ih =>
    intro he hp
    rw [List.map_cons, List.forall_mem_cons] at hp
    obtain ⟨m, hm⟩ := hs.decodes e (he e List.mem_cons_self) hp.1
    obtain ⟨messages, hd, hids⟩ := ih (fun x hx => he x (List.mem_cons_of_mem _ hx)) hp.2
    refine ⟨m :: messages, decodeRecords_cons.mpr ⟨m, messages, hm, hd, rfl⟩, ?_⟩
    rw [List.map_cons, List.map_cons, hids, (decodeRecord_ids hm).1]

theorem candidateIds_page {minIdleTimeMs : Int} (hmin : 0 ≤ minIdleTimeMs) (now : Nat)
    (page : List (Redis.Nack StreamId String)) :
    candidateIds minIdleTimeMs (page.map fun n => ⟨n.id, (now : Int) - n.deliveredAt⟩) =
      idleIds minIdleTimeMs.toNat now page := by
  unfold candidateIds idleIds
  rw [List.filter_map, List.map_map]
  refine congrArg (List.map Redis.Nack.id) (List.filter_congr ?_)
  intro n _
  unfold Redis.Nack.idleAt
  rw [Function.comp_apply, decide_eq_decide]
  dsimp only
  omega

end

/-! ## The loop -/

section
variable {V : Type} {J : JsonLib V} {c : ReclaimCall} {now : Nat} {s : JobStream}

def ReclaimCall.claimIdle (c : ReclaimCall) (now : Nat) : Redis.Nack StreamId String → Redis.Nack StreamId String :=
  Redis.Nack.claimIdle c.consumerName c.minIdleTimeMs.toNat now

/-- A walk over the pending entries of `s`: those of `done` were looked at, and
`t` is the stream now. -/
structure Walk (c : ReclaimCall) (now : Nat) (s : JobStream) (done todo : List (Redis.Nack StreamId String))
    (start : StreamId) (t : JobStream) : Prop where
  entries : t.entries = s.entries
  group : t.group.isSome = true
  pending : s.nacks = done ++ todo
  nacks : t.nacks = done.map (c.claimIdle now) ++ todo
  scanned : (t.nacks.filter fun n => start ≤ n.id) = todo

def Claimed (c : ReclaimCall) (now : Nat) (nacks : List (Redis.Nack StreamId String)) (messages : List (JobMessage V)) :
    Prop := messages.map JobMessage.streamId = idleIds c.minIdleTimeMs.toNat now nacks

theorem Claimed.append {xs ys : List (Redis.Nack StreamId String)} {ms ms' : List (JobMessage V)}
    (h : Claimed c now xs ms) (h' : Claimed c now ys ms') : Claimed c now (xs ++ ys) (ms ++ ms') := by
  unfold Claimed at h h' ⊢
  rw [List.map_append, h, h', Redis.idleIds_append]

theorem Walk.ids {done todo : List (Redis.Nack StreamId String)} {start : StreamId} {t : JobStream}
    (h : Walk c now s done todo start t) : t.nacks.map Redis.Nack.id = s.nacks.map Redis.Nack.id := by
  rw [h.nacks, h.pending, List.map_append, List.map_append]
  exact congrArg₂ _ (Redis.Nack.map_claimIdle_id _ _ _ done) rfl

theorem Walk.stored {done todo : List (Redis.Nack StreamId String)} {start : StreamId} {t : JobStream}
    (h : Walk c now s done todo start t) (hs : s.Stored) : t.Stored := by
  intro n hn
  have hid : n.id ∈ s.nacks.map Redis.Nack.id := h.ids ▸ List.mem_map_of_mem hn
  obtain ⟨m, hm, heq⟩ := List.mem_map.mp hid
  obtain ⟨f, hf⟩ := hs m hm
  exact ⟨f, by rw [Redis.Stream.Stored.lookup_eq h.entries, ← heq]; exact hf⟩

theorem walk_start (hgroup : s.group.isSome = true) : Walk c now s [] s.nacks ⊥ s :=
  ⟨rfl, hgroup, rfl, rfl, List.filter_eq_self.mpr fun _ _ => decide_eq_true bot_le⟩

theorem Walk.reclaimable {done todo : List (Redis.Nack StreamId String)} {start : StreamId} {t : JobStream}
    (h : Walk c now s done todo start t) (hs : Reclaimable J s) : Reclaimable J t where
  stored := h.stored hs.stored
  decodes := by rw [h.entries, h.ids]; exact hs.decodes

theorem idleIds_pending {done page rest : List (Redis.Nack StreamId String)} {minIdle : Nat}
    (h : s.nacks = done ++ (page ++ rest)) : ∀ id ∈ idleIds minIdle now page, id ∈ s.nacks.map Redis.Nack.id := by
  intro id hid
  obtain ⟨n, hn, rfl⟩ := List.mem_map.mp hid
  rw [h]
  exact List.mem_map_of_mem (List.mem_append_right _ (List.mem_append_left _ (List.mem_filter.mp hn).1))

theorem Walk.autoclaim_page {done todo : List (Redis.Nack StreamId String)} {start : StreamId} {t : JobStream}
    (h : Walk c now s done todo start t) (hs : Reclaimable J s) (hmin : 0 ≤ c.minIdleTimeMs) (hcount : 1 ≤ c.count) :
    ∃ page rest next messages t', c.reclaimIdle J true now start t = (.ok (next, messages), t') ∧
      todo = page ++ rest ∧ Claimed c now page messages ∧
      (next = ⊥ ∧ rest = [] ∧ t'.nacks = (done ++ page).map (c.claimIdle now) ∨
        next ≠ ⊥ ∧ page ≠ [] ∧ Walk c now s (done ++ page) rest next t') := by
  have hst := h.reclaimable hs
  obtain ⟨page, rest, scan, t', hx, htodo, hne, hclaimed, hmem, hnext, hpaged⟩ :=
    Redis.Stream.xautoclaim_page hst.stored h.group h.nacks h.scanned (show 0 < c.count.toNat by omega)
      c.consumerName c.minIdleTimeMs.toNat now
  obtain ⟨messages, hdec, hids⟩ := decodeRecords_claimed hst hmem (by
    rw [hclaimed]
    exact idleIds_pending (htodo ▸ h.nacks))
  have hauto : c.xautoclaim true now start t =
      (.ok (.claimed (scan.next.getD ⊥) (scan.claimed.map some) scan.deleted), t') := by
    unfold ReclaimCall.xautoclaim
    rw [if_pos rfl, hx]
  have hcall : c.reclaimIdle J true now start t = (.ok (scan.next.getD ⊥, messages), t') := by
    unfold ReclaimCall.reclaimIdle InferenceService.reclaimIdle
    rw [hauto, if_neg (not_lt.mpr hmin), if_neg (not_le.mpr (by omega)), if_neg (by omega), if_pos rfl]
    dsimp only
    rw [hdec]
    rfl
  have hnacks : t'.nacks = (done ++ page).map (c.claimIdle now) ++ rest := by
    rw [hpaged.nacks, List.map_append, List.append_assoc]
    rfl
  refine ⟨page, rest, _, messages, t', hcall, htodo, hids.trans hclaimed, ?_⟩
  cases rest with
  | nil => exact .inl ⟨by rw [hnext]; rfl, rfl, by simpa using hnacks⟩
  | cons n rest =>
    have hn : n ∈ t.nacks := by
      rw [h.nacks, htodo]
      exact List.mem_append_right _ (List.mem_append_right _ List.mem_cons_self)
    obtain ⟨f, hf⟩ := hst.stored n hn
    have hbot : ⊥ < n.id := Redis.Stream.bot_lt_of_lookup hf
    have hpage : page ≠ [] := hne (by rw [htodo]; simp)
    rw [hnext]
    refine .inr ⟨hbot.ne', hpage, hpaged.entries.trans h.entries, hpaged.group, ?_, hnacks, ?_⟩
    · rw [List.append_assoc, ← htodo]
      exact h.pending
    · have hsorted := t'.nacks_sorted
      rw [hnacks] at hsorted ⊢
      exact Redis.filter_from hsorted

/-- The `XAUTOCLAIM` loop ends, and claims every idle entry once. -/
theorem sweep_autoclaim (now : Nat) (hs : Reclaimable J s) (hgroup : s.group.isSome = true) (hmin : 0 ≤ c.minIdleTimeMs)
    (hcount : 1 ≤ c.count) :
    ∃ messages t, c.sweep J true now (s.nacks.length + 1) s = some (.ok messages, t) ∧
      Claimed c now s.nacks messages ∧ t.nacks = s.nacks.map (c.claimIdle now) :=
  Cursor.drain_complete (fun done t => t.nacks = done.map (c.claimIdle now)) (fun _ _ _ _ => Claimed.append)
    (fun _ _ _ _ h => h.autoclaim_page hs hmin hcount) _ (Nat.lt_succ_self _) (walk_start hgroup)

/-! ## The legacy page -/

theorem reclaimIdleLegacy_last {minIdleTimeMs count : Int} {pending : List PendingEntry}
    (h : (pending.length : Int) ≤ count) (xclaim : List StreamId → Except RedisError (List RawEntry)) :
    reclaimIdleLegacy J minIdleTimeMs count (.ok pending) xclaim =
      match candidateIds minIdleTimeMs pending with
      | [] => .ok (⊥, [])
      | ids =>
        match xclaim ids with
        | .error e => .error (.unavailable ("failed to legacy-claim pending jobs: " ++ e.text))
        | .ok records => (decodeRecords J true records).map fun ms => (⊥, ms) := by
  have hnext : legacyNextStartId count pending = ⊥ := if_pos h
  unfold reclaimIdleLegacy
  cases pending with
  | nil => rfl
  | cons p ps =>
    cases hids : candidateIds minIdleTimeMs (p :: ps) with
    | nil => simp only [hids, hnext]
    | cons id ids => cases hclaim : xclaim (id :: ids) <;> simp only [hids, hclaim, hnext]

theorem xpendingRange_start (c : ReclaimCall) (now : Nat) {g : Redis.Group StreamId String} (hg : s.group = some g) :
    c.xpendingRange now ⊥ s =
      .ok ((s.nacks.take c.count.toNat).map fun n => ⟨n.id, (now : Int) - n.deliveredAt⟩) := by
  have hfilter : (g.pending.filter fun n => decide (∀ id ∈ scanStart ⊥, id < n.id)) = g.pending := by
    apply List.filter_eq_self.mpr
    intro n _
    exact decide_eq_true fun id hid => by simp [scanStart] at hid
  unfold ReclaimCall.xpendingRange Redis.Stream.xpendingRange
  rw [Redis.Stream.nacks_of_group hg, hg, Option.map_some, hfilter]

theorem reclaimIdle_legacy (hmin : 0 ≤ c.minIdleTimeMs) (hcount : 1 ≤ c.count) (startId : StreamId) :
    c.reclaimIdle J false now startId s =
      (reclaimIdleLegacy J c.minIdleTimeMs c.count (c.xpendingRange now startId s) fun ids => (c.xclaim now ids s).1,
        c.legacyStream now startId s) := by
  have hauto : (c.xautoclaim false now startId s).1 = .error unknownXautoclaim := rfl
  unfold ReclaimCall.reclaimIdle InferenceService.reclaimIdle
  rw [hauto, if_neg (not_lt.mpr hmin), if_neg (not_le.mpr (by omega)), if_neg (by omega), if_neg Bool.false_ne_true]
  exact congrArg₂ Prod.mk (if_pos isXautoclaimUnsupported_unknown) rfl

theorem map_claimIdle_of_none {page : List (Redis.Nack StreamId String)}
    (h : idleIds c.minIdleTimeMs.toNat now page = []) : page.map (c.claimIdle now) = page := by
  refine (List.map_congr_left fun n hn => if_neg ?_).trans (List.map_id' page)
  rw [Redis.idleIds_eq_nil.mp h n hn]
  exact Bool.false_ne_true

/-- `XPENDING` gives at most `count` entries, so the first page is always taken
for the last. -/
theorem legacy_page (hs : Reclaimable J s) (hgroup : s.group.isSome = true) (hmin : 0 ≤ c.minIdleTimeMs)
    (hcount : 1 ≤ c.count) (now : Nat) {page rest : List (Redis.Nack StreamId String)}
    (hpage : s.nacks.take c.count.toNat = page) (hnacks : s.nacks = page ++ rest) :
    ∃ messages t, c.reclaimIdle J false now ⊥ s = (.ok (⊥, messages), t) ∧ Claimed c now page messages ∧
      t.nacks = page.map (c.claimIdle now) ++ rest := by
  obtain ⟨g, hg⟩ := Option.isSome_iff_exists.mp hgroup
  have hpending := hpage ▸ xpendingRange_start c now hg
  have hids := candidateIds_page hmin now page
  have hlen : ((page.map fun n => (⟨n.id, (now : Int) - n.deliveredAt⟩ : PendingEntry)).length : Int) ≤ c.count := by
    have := List.length_take_le c.count.toNat s.nacks
    rw [List.length_map, ← hpage]
    omega
  rw [reclaimIdle_legacy hmin hcount]
  unfold ReclaimCall.legacyStream
  rw [hpending, reclaimIdleLegacy_last hlen]
  dsimp only
  rw [hids]
  cases hidle : idleIds c.minIdleTimeMs.toNat now page with
  | nil => exact ⟨[], s, rfl, hidle.symm, by rw [map_claimIdle_of_none hidle]; exact hnacks⟩
  | cons id ids =>
    obtain ⟨entries, t, hx, hclaimed, hmem, hpaged⟩ :=
      Redis.Stream.xclaim_page hs.stored hgroup hnacks c.consumerName c.minIdleTimeMs.toNat now
    obtain ⟨messages, hdec, hmessages⟩ := decodeRecords_claimed hs hmem (by
      rw [hclaimed]
      exact idleIds_pending (hnacks.trans (List.nil_append _).symm))
    have hreply : c.xclaim now (id :: ids) s = (.ok (entries.map some), t) := by
      unfold ReclaimCall.xclaim
      rw [← hidle, hx]
    dsimp only
    rw [hreply]
    dsimp only
    rw [hdec]
    exact ⟨messages, t, rfl, hmessages.trans hclaimed, hpaged.nacks⟩

theorem sweep_legacy (now : Nat) (hs : Reclaimable J s) (hgroup : s.group.isSome = true) (hmin : 0 ≤ c.minIdleTimeMs)
    (hcount : 1 ≤ c.count) :
    ∃ messages t, c.sweep J false now 1 s = some (.ok messages, t) ∧
      Claimed c now (s.nacks.take c.count.toNat) messages ∧
      t.nacks = (s.nacks.take c.count.toNat).map (c.claimIdle now) ++ s.nacks.drop c.count.toNat := by
  obtain ⟨messages, t, hcall, hclaimed, hnacks⟩ :=
    legacy_page hs hgroup hmin hcount now rfl (List.take_append_drop _ _).symm
  refine ⟨messages, t, ?_, hclaimed, hnacks⟩
  unfold ReclaimCall.sweep Cursor.drain
  rw [hcall]
  exact if_pos rfl

/-! ## What the legacy loop leaves behind -/

/-- The legacy loop ends, and it claims every entry that was idle once and no
other, as the loop with `XAUTOCLAIM` does. -/
def LegacyScansAll (J : JsonLib V) (c : ReclaimCall) (now : Nat) (s : JobStream) : Prop :=
  ∃ fuel messages t fuel' messages' t',
    c.sweep J false now fuel s = some (.ok messages, t) ∧ c.sweep J true now fuel' s = some (.ok messages', t') ∧
      messages.map JobMessage.streamId = idleIds c.minIdleTimeMs.toNat now s.nacks ∧
      t.nacks = s.nacks.map (c.claimIdle now) ∧
      messages'.map JobMessage.streamId = messages.map JobMessage.streamId ∧ t'.nacks = t.nacks

theorem idleIds_pages (count : Nat) (minIdle now : Nat) (l : List (Redis.Nack StreamId String)) :
    idleIds minIdle now l = idleIds minIdle now (l.take count) ++ idleIds minIdle now (l.drop count) := by
  rw [← Redis.idleIds_append, List.take_append_drop]

theorem idle_of_scansAll (hs : Reclaimable J s) (hgroup : s.group.isSome = true) (hmin : 0 ≤ c.minIdleTimeMs)
    (hcount : 1 ≤ c.count) (h : LegacyScansAll J c now s) :
    idleIds c.minIdleTimeMs.toNat now (s.nacks.drop c.count.toNat) = [] := by
  obtain ⟨_, messages, _, _, _, _, hsweep, _, hids, _⟩ := h
  obtain ⟨first, _, hfirst, hclaimed, _⟩ := sweep_legacy now hs hgroup hmin hcount
  obtain ⟨heq, _⟩ := Prod.mk.inj (Cursor.drain_unique hsweep hfirst)
  obtain rfl := Except.ok.inj heq
  unfold Claimed at hclaimed
  rw [hclaimed, idleIds_pages c.count.toNat _ now s.nacks] at hids
  exact List.append_right_eq_self.mp hids.symm

theorem scansAll_of_idle (hs : Reclaimable J s) (hgroup : s.group.isSome = true) (hmin : 0 ≤ c.minIdleTimeMs)
    (hcount : 1 ≤ c.count) (h : idleIds c.minIdleTimeMs.toNat now (s.nacks.drop c.count.toNat) = []) :
    LegacyScansAll J c now s := by
  obtain ⟨messages, t, hsweep, hclaimed, hnacks⟩ := sweep_legacy now hs hgroup hmin hcount
  obtain ⟨messages', t', hsweep', hclaimed', hnacks'⟩ := sweep_autoclaim now hs hgroup hmin hcount
  have hall : Claimed c now s.nacks messages := by
    unfold Claimed at hclaimed ⊢
    rw [hclaimed, idleIds_pages c.count.toNat _ now s.nacks, h, List.append_nil]
  have hsame : t.nacks = s.nacks.map (c.claimIdle now) := by
    rw [hnacks, ← map_claimIdle_of_none h, ← List.map_append, List.take_append_drop]
  exact ⟨1, messages, t, _, messages', t', hsweep, hsweep', hall, hsame, hclaimed'.trans hall.symm,
    hnacks'.trans hsame.symm⟩

end

section
variable {V : Type} (J : JsonLib V) (c : ReclaimCall) (now : Nat) (s : JobStream)

theorem legacy_scans_all_iff (hs : Reclaimable J s) (hgroup : s.group.isSome = true) (hmin : 0 ≤ c.minIdleTimeMs)
    (hcount : 1 ≤ c.count) :
    LegacyScansAll J c now s ↔
      ∀ n ∈ s.nacks.drop c.count.toNat, n.idleAt c.minIdleTimeMs.toNat now = false := by
  rw [← Redis.idleIds_eq_nil]
  exact ⟨idle_of_scansAll hs hgroup hmin hcount, scansAll_of_idle hs hgroup hmin hcount⟩

end

def twoPending : List (QueueAct Unit) :=
  [.enqueue "a" () 0, .enqueue "b" () 0, .ensureConsumerGroup, .readNew "worker" 2, .tick 1000]

theorem legacy_scans_all_two : ∃ s, (jobQueue emptyDicts).runFrom (jobQueue emptyDicts).init twoPending = some s ∧
    LegacyScansAll emptyDicts ⟨"other", 1000, 2⟩ 1000 s.redis.stream := by
  refine ⟨_, rfl, ?_⟩
  have hplaced := reachable_placed (J := emptyDicts) ⟨twoPending, rfl⟩
  exact (legacy_scans_all_iff emptyDicts ⟨"other", 1000, 2⟩ 1000 _ (hplaced.reclaimable emptyDicts_roundTrips) rfl
    (by decide) (by decide)).mpr (by decide)

/-- Both are idle, and with a page of one entry the second is never reached. -/
theorem second_page_unreached : ∃ s, (jobQueue emptyDicts).runFrom (jobQueue emptyDicts).init twoPending = some s ∧
    Reclaimable emptyDicts s.redis.stream ∧ s.redis.stream.group.isSome = true ∧
    ¬ LegacyScansAll emptyDicts ⟨"other", 1000, 1⟩ 1000 s.redis.stream := by
  refine ⟨_, rfl, ?_⟩
  have hplaced := reachable_placed (J := emptyDicts) ⟨twoPending, rfl⟩
  have hs := hplaced.reclaimable emptyDicts_roundTrips
  refine ⟨hs, rfl, fun h => ?_⟩
  have hidle := idle_of_scansAll hs rfl (by decide) (by decide) h
  exact absurd hidle (by decide)

end InferenceService
