import InferenceService.Lib.Stream

/-!
# Nothing lost, nothing delivered twice

A stream is intact when exactly the delivered entries are pending. Every
command keeps it so, as long as an entry that is acknowledged is deleted with
it. On an intact stream no claim finds a deleted entry.
-/

namespace Redis

namespace Stream
variable {ι φ κ : Type} [LinearOrder ι] [OrderBot ι] {s s' : Stream ι φ κ} {id : ι} {fields : φ} {consumer : κ}
  {now minIdle count : Nat}

theorem ids_nodup (s : Stream ι φ κ) : s.ids.Nodup := s.sorted.imp ne_of_lt

theorem mem_ids_of_entry {e : ι × φ} (h : e ∈ s.entries) : e.1 ∈ s.ids := List.mem_map_of_mem h

theorem entry_of_lookup (h : s.lookup id = some fields) : (id, fields) ∈ s.entries := by
  unfold lookup at h
  obtain ⟨e, he, rfl⟩ := Option.map_eq_some_iff.mp h
  have hid : e.1 = id := by simpa using List.find?_some he
  rw [← hid]
  exact List.mem_of_find?_eq_some he

theorem lookup_isSome : (∃ f, s.lookup id = some f) ↔ id ∈ s.ids := by
  unfold lookup ids
  rw [← Option.isSome_iff_exists, Option.isSome_map, List.find?_isSome, List.mem_map]
  simp

theorem lastDelivered_le (s : Stream ι φ κ) : s.lastDelivered ≤ s.lastId := by
  unfold lastDelivered
  cases hg : s.group with
  | none => exact bot_le
  | some g => exact s.reached g hg

theorem pending_le (h : id ∈ s.pendingIds) : id ≤ s.lastDelivered := by
  unfold pendingIds at h
  unfold lastDelivered
  cases hg : s.group with
  | none => rw [hg] at h; cases h
  | some g =>
    rw [hg] at h
    obtain ⟨n, hn, rfl⟩ := List.mem_map.mp h
    exact g.delivered n hn

theorem pendingIds_nodup (s : Stream ι φ κ) : s.pendingIds.Nodup := by
  unfold pendingIds
  cases s.group with
  | none => exact List.nodup_nil
  | some g => exact g.ids_nodup

theorem mem_pendingIds_iff_owner : id ∈ s.pendingIds ↔ ∃ c, s.owner id = some c := by
  unfold pendingIds owner
  cases s.group with
  | none => simp
  | some g => simp [g.mem_ids_iff_find]

/-! ## What the commands leave alone -/

theorem mapGroup_lastDelivered (f : Group ι κ → Group ι κ) (hf : ∀ g, (f g).lastDelivered = g.lastDelivered) :
    (s.mapGroup f hf).lastDelivered = s.lastDelivered := by
  unfold mapGroup lastDelivered
  dsimp only
  cases s.group with
  | none => rfl
  | some g => exact hf g

theorem drop_ids (p : ι → Bool) : (s.mapGroup (·.drop p) fun _ => rfl).ids = s.ids := rfl

@[simp] theorem claim_ids (p : ι → Bool) : (s.claim p consumer now).ids = s.ids := rfl

theorem claim_lastDelivered (p : ι → Bool) : (s.claim p consumer now).lastDelivered = s.lastDelivered :=
  mapGroup_lastDelivered _ _

theorem claim_pendingIds (p : ι → Bool) : (s.claim p consumer now).pendingIds = s.pendingIds := by
  unfold claim mapGroup pendingIds
  dsimp only
  cases s.group with
  | none => rfl
  | some g => exact g.claim_ids p consumer now

theorem drop_lastDelivered (p : ι → Bool) :
    (s.mapGroup (·.drop p) fun _ => rfl).lastDelivered = s.lastDelivered :=
  mapGroup_lastDelivered (·.drop p) fun _ => rfl

theorem mem_drop_pendingIds (p : ι → Bool) :
    id ∈ (s.mapGroup (·.drop p) fun _ => rfl).pendingIds ↔ id ∈ s.pendingIds ∧ p id = false := by
  unfold mapGroup pendingIds
  dsimp only
  cases s.group with
  | none => simp
  | some g => exact g.mem_drop_ids p

theorem mem_xack_pendingIds {x : ι} : x ∈ (s.xack id).pendingIds ↔ x ∈ s.pendingIds ∧ x ≠ id := by
  unfold xack
  rw [mem_drop_pendingIds, decide_eq_false_iff_not]

theorem mem_xdel_ids {x : ι} : x ∈ (s.xdel id).ids ↔ x ∈ s.ids ∧ x ≠ id := by
  unfold xdel ids
  simp only [List.mem_map, List.mem_filter, decide_eq_true_eq]
  constructor
  · rintro ⟨e, ⟨he, hne⟩, rfl⟩; exact ⟨⟨e, he, rfl⟩, hne⟩
  · rintro ⟨⟨e, he, rfl⟩, hne⟩; exact ⟨e, ⟨he, hne⟩, rfl⟩

/-! ## The group stays -/

theorem mapGroup_group (f : Group ι κ → Group ι κ) (hf : ∀ g, (f g).lastDelivered = g.lastDelivered) :
    (s.mapGroup f hf).group.isSome = s.group.isSome := by
  unfold mapGroup
  exact Option.isSome_map

theorem settle_group (s : Stream ι φ κ) (id : ι) : ((s.xack id).xdel id).group.isSome = s.group.isSome :=
  mapGroup_group (·.drop (· = id)) fun _ => rfl

theorem xgroupCreate_eq (h : s.xgroupCreate = some s') :
    s.group = none ∧ s' = s.withGroup (.startAt ⊥) bot_le := by
  unfold xgroupCreate at h
  cases hg : s.group with
  | some g => rw [hg] at h; cases h
  | none =>
    rw [hg] at h
    exact ⟨rfl, (Option.some.inj h).symm⟩

theorem xgroupCreate_group (h : s.xgroupCreate = some s') : s'.group.isSome = true := by
  obtain ⟨_, rfl⟩ := xgroupCreate_eq h
  rfl

theorem xreadgroup_group {entries : List (ι × φ)} (h : s.xreadgroup consumer count now = some (entries, s')) :
    s'.group.isSome = true := by
  unfold xreadgroup at h
  split at h
  · cases h
  · obtain ⟨_, rfl⟩ := Prod.mk.inj (Option.some.inj h)
    rfl

theorem xclaimIds_group (consumer : κ) (minIdle now : Nat) : ∀ (ids : List ι) (s : Stream ι φ κ),
    (xclaimIds consumer minIdle now ids s).2.group.isSome = s.group.isSome := by
  intro ids
  induction ids with
  | nil => intro s; rfl
  | cons id ids ih =>
    intro s
    unfold xclaimIds
    by_cases hi : s.idle minIdle now id = true
    · rw [if_pos hi]
      exact (ih _).trans (mapGroup_group _ _)
    · rw [if_neg hi]
      exact ih s

theorem xautoclaim_group {start : ι} {r : Scan ι φ}
    (h : s.xautoclaim consumer minIdle start count now = some (r, s')) : s'.group.isSome = true := by
  unfold xautoclaim at h
  obtain ⟨g, hg, h⟩ := Option.map_eq_some_iff.mp h
  obtain ⟨_, rfl⟩ := Prod.mk.inj h
  exact (mapGroup_group _ _).trans ((mapGroup_group _ _).trans (by rw [hg]; rfl))

/-! ## Intact streams -/

def Intact (s : Stream ι φ κ) : Prop := ∀ id, id ∈ s.pendingIds ↔ id ∈ s.ids ∧ id ≤ s.lastDelivered

theorem Intact.lookup (h : s.Intact) (hid : id ∈ s.pendingIds) : ∃ f, s.lookup id = some f :=
  lookup_isSome.mpr ((h id).mp hid).1

theorem intact_empty : (empty : Stream ι φ κ).Intact := by
  intro id
  simp [empty, pendingIds, ids]

theorem xadd_ids (hid : s.lastId < id) : (s.xadd id fields hid).ids = s.ids ++ [id] := List.map_append

theorem Intact.xadd (h : s.Intact) (hid : s.lastId < id) : (s.xadd id fields hid).Intact := by
  intro x
  have hnew : ¬ id ≤ s.lastDelivered := not_le.mpr (lt_of_le_of_lt s.lastDelivered_le hid)
  show x ∈ s.pendingIds ↔ x ∈ (s.xadd id fields hid).ids ∧ x ≤ s.lastDelivered
  rw [h x, xadd_ids, List.mem_append, List.mem_singleton]
  constructor
  · exact fun hx => ⟨.inl hx.1, hx.2⟩
  · intro ⟨hx, hle⟩
    rcases hx with hx | rfl
    · exact ⟨hx, hle⟩
    · exact absurd hle hnew

theorem Intact.xgroupCreate (h : s.Intact) (hc : s.xgroupCreate = some s') : s'.Intact := by
  obtain ⟨hg, rfl⟩ := xgroupCreate_eq hc
  intro x
  have hx := h x
  simp only [pendingIds, lastDelivered, hg] at hx
  exact hx

theorem Intact.settle (h : s.Intact) (id : ι) : ((s.xack id).xdel id).Intact := by
  intro x
  have hlast : ((s.xack id).xdel id).lastDelivered = s.lastDelivered := drop_lastDelivered _
  have hpend : x ∈ ((s.xack id).xdel id).pendingIds ↔ x ∈ s.pendingIds ∧ x ≠ id := mem_xack_pendingIds
  rw [hlast, hpend, mem_xdel_ids, h x]
  exact ⟨fun ⟨⟨h1, h2⟩, h3⟩ => ⟨⟨h1, h3⟩, h2⟩, fun ⟨⟨h1, h3⟩, h2⟩ => ⟨⟨h1, h2⟩, h3⟩⟩

theorem Intact.claim (h : s.Intact) (p : ι → Bool) (consumer : κ) (now : Nat) : (s.claim p consumer now).Intact := by
  intro x
  rw [claim_pendingIds, claim_lastDelivered, claim_ids]
  exact h x

theorem xreadgroup_eq {g : Group ι κ} (hg : s.group = some g) (consumer : κ) (count now : Nat) :
    s.xreadgroup consumer count now = some (s.undelivered g count,
      s.withGroup (g.deliver consumer now _ (s.sorted_undelivered g count))
        (s.deliver_reached (s.reached g hg) consumer count now)) := by
  unfold Stream.xreadgroup
  split
  · rename_i hnone
    exact absurd (hg.symm.trans hnone) nofun
  · rename_i g' hg'
    obtain rfl : g' = g := Option.some.inj (hg'.symm.trans hg)
    rfl

/-- A read hands out entries that are not pending yet, and all of them become
pending. -/
theorem xreadgroup_spec {entries : List (ι × φ)} (h : s.xreadgroup consumer count now = some (entries, s')) :
    s'.entries = s.entries ∧ s'.lastId = s.lastId ∧ s'.pendingIds = s.pendingIds ++ entries.map Prod.fst ∧
      (∀ e ∈ entries, e ∈ s.entries ∧ s.lastDelivered < e.1) ∧
      ∀ id ∈ s.ids, s.lastDelivered < id → (id ∈ entries.map Prod.fst ↔ id ≤ s'.lastDelivered) := by
  cases hg : s.group with
  | none =>
    unfold Stream.xreadgroup at h
    split at h
    · cases h
    · rename_i g hg'
      exact absurd (hg.symm.trans hg') nofun
  | some g =>
    rw [xreadgroup_eq hg consumer count now] at h
    obtain ⟨rfl, rfl⟩ := Prod.mk.inj (Option.some.inj h)
    refine ⟨rfl, rfl, ?_, ?_, ?_⟩
    · unfold pendingIds
      rw [hg]
      exact g.deliver_ids _ _ _ _
    · intro e he
      obtain ⟨hmem, hlt⟩ := List.mem_filter.mp (List.mem_of_mem_take he)
      unfold lastDelivered
      rw [hg]
      exact ⟨hmem, of_decide_eq_true hlt⟩
    · intro id hid hlt
      unfold lastDelivered at hlt
      rw [hg] at hlt
      have hin : id ∈ s.ids.filter fun id => g.lastDelivered < id :=
        List.mem_filter.mpr ⟨hid, decide_eq_true hlt⟩
      show id ∈ (s.undelivered g count).map Prod.fst ↔
        id ≤ (g.lastDelivered :: (s.undelivered g count).map Prod.fst).getLast (List.cons_ne_nil _ _)
      simp only [undelivered_ids]
      exact mem_take_iff (s.sorted_after g) count hin

theorem Intact.xreadgroup (h : s.Intact) {entries : List (ι × φ)}
    (hr : s.xreadgroup consumer count now = some (entries, s')) : s'.Intact := by
  obtain ⟨he, _, hp, hmem, hnew⟩ := xreadgroup_spec hr
  have hids : s'.ids = s.ids := by unfold ids; rw [he]
  intro x
  rw [hp, hids, List.mem_append, h x]
  constructor
  · intro hx
    rcases hx with ⟨hx, hle⟩ | hx
    · -- an entry delivered before stays so
      refine ⟨hx, pending_le ?_⟩
      rw [hp]
      exact List.mem_append_left _ ((h x).mpr ⟨hx, hle⟩)
    · obtain ⟨e, hin, rfl⟩ := List.mem_map.mp hx
      obtain ⟨hent, hlt⟩ := hmem e hin
      exact ⟨mem_ids_of_entry hent, (hnew _ (mem_ids_of_entry hent) hlt).mp hx⟩
  · intro ⟨hx, hle⟩
    by_cases hold : x ≤ s.lastDelivered
    · exact .inl ⟨hx, hold⟩
    · exact .inr ((hnew x hx (not_le.mp hold)).mpr hle)

theorem idle_pending (h : s.idle minIdle now id = true) : id ∈ s.pendingIds := by
  unfold idle at h
  unfold pendingIds
  cases hg : s.group with
  | none => simp [hg] at h
  | some g =>
    rw [g.mem_ids_iff_find]
    cases hf : g.find id with
    | none => simp [hg, hf] at h
    | some n => exact ⟨n, rfl⟩

/-- `XCLAIM` changes owners only, and on an intact stream it answers with
entries of the stream. -/
theorem xclaimIds_spec (consumer : κ) (minIdle now : Nat) : ∀ (ids : List ι) {s : Stream ι φ κ}, s.Intact →
    (xclaimIds consumer minIdle now ids s).2.entries = s.entries ∧
      (xclaimIds consumer minIdle now ids s).2.Intact ∧
      (xclaimIds consumer minIdle now ids s).2.lastId = s.lastId ∧
      ∃ entries : List (ι × φ), (xclaimIds consumer minIdle now ids s).1 = entries.map some ∧
        ∀ e ∈ entries, e ∈ s.entries := by
  intro ids
  induction ids with
  | nil => intro s h; exact ⟨rfl, h, rfl, [], rfl, fun _ h => absurd h List.not_mem_nil⟩
  | cons id ids ih =>
    intro s h
    unfold xclaimIds
    by_cases hi : s.idle minIdle now id = true
    · rw [if_pos hi]
      obtain ⟨h1, h2, h3, entries, h4, h5⟩ := ih (h.claim (· = id) consumer now)
      obtain ⟨f, hf⟩ := h.lookup (idle_pending hi)
      refine ⟨h1, h2, h3, (id, f) :: entries, ?_, ?_⟩
      · simp only [hf, h4]; rfl
      · intro e he
        rcases List.mem_cons.mp he with rfl | he
        · exact entry_of_lookup hf
        · exact h5 e he
    · rw [if_neg hi]
      exact ih h

theorem xclaim_spec (h : s.Intact) {ids : List ι} {reply : List (Option (ι × φ))}
    (hr : s.xclaim consumer minIdle now ids = some (reply, s')) :
    s'.entries = s.entries ∧ s'.Intact ∧ s'.lastId = s.lastId ∧ s'.group.isSome = true ∧
      ∃ entries : List (ι × φ), reply = entries.map some ∧ ∀ e ∈ entries, e ∈ s.entries := by
  unfold xclaim at hr
  obtain ⟨g, hg, hr⟩ := Option.map_eq_some_iff.mp hr
  obtain ⟨he, hi, hl, hreply⟩ := xclaimIds_spec consumer minIdle now ids h
  have hgroup := xclaimIds_group consumer minIdle now ids s
  rw [hr] at he hi hl hreply hgroup
  exact ⟨he, hi, hl, hgroup.trans (by rw [hg]; rfl), hreply⟩

theorem scan_spec (s : Stream ι φ κ) (minIdle now : Nat) : ∀ (attempts count : Nat) (l : List (Nack ι κ)),
    (∀ n ∈ l, ∃ f, s.lookup n.id = some f) →
    (s.scan minIdle now attempts count l).deleted = [] ∧
      ∀ e ∈ (s.scan minIdle now attempts count l).claimed, e ∈ s.entries
  | _, _, [], _ => by unfold scan; exact ⟨rfl, nofun⟩
  | 0, _, n :: _, _ => by unfold scan; exact ⟨rfl, nofun⟩
  | a + 1, 0, n :: _, _ => by unfold scan; exact ⟨rfl, nofun⟩
  | a + 1, c + 1, n :: rest, h => by
    obtain ⟨f, hf⟩ := h n List.mem_cons_self
    have hrest : ∀ m ∈ rest, ∃ f, s.lookup m.id = some f := fun m hm => h m (List.mem_cons_of_mem _ hm)
    unfold scan
    simp only [hf]
    by_cases hi : n.deliveredAt + minIdle ≤ now
    · rw [if_pos hi]
      obtain ⟨h1, h2⟩ := scan_spec s minIdle now a c rest hrest
      refine ⟨h1, ?_⟩
      intro e he
      rcases List.mem_cons.mp he with rfl | he
      · exact entry_of_lookup hf
      · exact h2 e he
    · rw [if_neg hi]
      exact scan_spec s minIdle now a (c + 1) rest hrest

theorem xautoclaim_spec (h : s.Intact) {start : ι} {r : Scan ι φ}
    (hr : s.xautoclaim consumer minIdle start count now = some (r, s')) :
    s'.entries = s.entries ∧ s'.Intact ∧ s'.lastId = s.lastId ∧ r.deleted = [] ∧ ∀ e ∈ r.claimed, e ∈ s.entries := by
  unfold xautoclaim at hr
  obtain ⟨g, hg, hr⟩ := Option.map_eq_some_iff.mp hr
  obtain ⟨rfl, rfl⟩ := Prod.mk.inj hr
  have hfound : ∀ n ∈ g.pending.filter fun n => start ≤ n.id, ∃ f, s.lookup n.id = some f := by
    intro n hn
    apply h.lookup
    unfold pendingIds
    rw [hg]
    exact List.mem_map_of_mem (List.mem_filter.mp hn).1
  obtain ⟨hdel, hclaimed⟩ := s.scan_spec minIdle now (count * 10) count _ hfound
  refine ⟨rfl, ?_, rfl, hdel, hclaimed⟩
  apply Intact.claim
  intro x
  rw [mem_drop_pendingIds, drop_lastDelivered, drop_ids, hdel]
  simpa using h x

end Stream

end Redis
