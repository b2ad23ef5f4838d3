import InferenceService.Lib.StreamPages
import Mathlib.Data.List.Nodup

/-!
# Who gains pending entries

A command makes at most the consumer that sends it the owner of an entry; the
other consumers keep entries or lose them. Its consumer owns what it answers.
-/

namespace Redis

namespace Group
variable {ι κ : Type} [LinearOrder ι] {g : Group ι κ} {consumer : κ} {now : Nat} {id : ι} {n : Nack ι κ}

theorem find_claim (p : ι → Bool) (h : (g.claim p consumer now).find id = some n) :
    n.consumer = consumer ∨ g.find id = some n := by
  have hid : ∀ m : Nack ι κ, (if p m.id then m.claimed consumer now else m).id = m.id := by
    intro m
    by_cases hp : p m.id <;> simp [hp, Nack.claimed]
  unfold claim find at h
  simp only [List.find?_map, Function.comp_def, hid] at h
  obtain ⟨m, hm, rfl⟩ := Option.map_eq_some_iff.mp h
  by_cases hp : p m.id = true
  · rw [if_pos hp]
    exact .inl rfl
  · rw [if_neg hp]
    exact .inr hm

theorem find_drop (p : ι → Bool) (h : (g.drop p).find id = some n) : g.find id = some n := by
  unfold drop find at h
  unfold find
  rw [List.find?_filter] at h
  have hn := List.find?_some h
  simp only [Bool.not_eq_true', decide_eq_true_eq] at hn
  obtain ⟨hp, rfl⟩ := hn
  rw [← h]
  congr 1
  funext m
  by_cases hm : m.id = n.id <;> simp [hm, hp]

theorem find_deliver {ids : List ι} (hids : (g.lastDelivered :: ids).Pairwise (· < ·))
    (h : (g.deliver consumer now ids hids).find id = some n) : n.consumer = consumer ∨ g.find id = some n := by
  unfold deliver find at h
  unfold find
  rw [List.find?_append] at h
  rcases Option.or_eq_some_iff.mp h with hold | ⟨_, hnew⟩
  · exact .inr hold
  · obtain ⟨x, _, rfl⟩ := List.mem_map.mp (List.mem_of_find?_eq_some hnew)
    exact .inl rfl

end Group

namespace Stream
variable {ι φ κ : Type} [LinearOrder ι] [OrderBot ι] {s s' : Stream ι φ κ} {id : ι} {consumer c : κ}
  {now minIdle count : Nat}

/-- Nobody but the consumer gains an entry. -/
def Gains (consumer : κ) (s s' : Stream ι φ κ) : Prop :=
  ∀ id c, s'.owner id = some c → c = consumer ∨ s.owner id = some c

theorem Gains.trans {u : Stream ι φ κ} (h : Gains consumer s s') (h' : Gains consumer s' u) : Gains consumer s u := by
  intro id c hc
  rcases h' id c hc with rfl | hc
  · exact .inl rfl
  · exact h id c hc

theorem owner_of_group {g : Group ι κ} (hg : s.group = some g) (id : ι) :
    s.owner id = (g.find id).map Nack.consumer := by
  unfold owner
  rw [hg, Option.bind_some]

theorem group_of_owner (h : s.owner id = some c) : ∃ g n, s.group = some g ∧ g.find id = some n ∧ n.consumer = c := by
  unfold owner at h
  obtain ⟨g, hg, h⟩ := Option.bind_eq_some_iff.mp h
  obtain ⟨n, hn, hc⟩ := Option.map_eq_some_iff.mp h
  exact ⟨g, n, hg, hn, hc⟩

theorem owner_mapGroup {f : Group ι κ → Group ι κ} {hf : ∀ g, (f g).lastDelivered = g.lastDelivered}
    (h : (s.mapGroup f hf).owner id = some c) :
    ∃ g n, s.group = some g ∧ (f g).find id = some n ∧ n.consumer = c := by
  obtain ⟨_, n, hmap, hn, hc⟩ := group_of_owner h
  obtain ⟨g, hg, rfl⟩ := Option.map_eq_some_iff.mp hmap
  exact ⟨g, n, hg, hn, hc⟩

theorem gains_claim (p : ι → Bool) (consumer : κ) (now : Nat) : Gains consumer s (s.claim p consumer now) := by
  intro id c h
  obtain ⟨g, n, hg, hn, rfl⟩ := owner_mapGroup h
  rw [owner_of_group hg]
  rcases Group.find_claim p hn with hc | hn
  · exact .inl hc
  · exact .inr (by rw [hn]; rfl)

theorem owner_drop (p : ι → Bool) (h : (s.mapGroup (·.drop p) fun _ => rfl).owner id = some c) :
    s.owner id = some c := by
  obtain ⟨g, n, hg, hn, rfl⟩ := owner_mapGroup h
  rw [owner_of_group hg, Group.find_drop p hn]
  rfl

theorem owner_settle {x : ι} (h : ((s.xack x).xdel x).owner id = some c) : s.owner id = some c := owner_drop _ h

theorem gains_xreadgroup {entries : List (ι × φ)} (h : s.xreadgroup consumer count now = some (entries, s')) :
    Gains consumer s s' := by
  intro id c hc
  cases hg : s.group with
  | none =>
    unfold Stream.xreadgroup at h
    split at h
    · cases h
    · rename_i g hg'
      exact absurd (hg.symm.trans hg') nofun
  | some g =>
    rw [xreadgroup_eq hg consumer count now] at h
    obtain ⟨_, rfl⟩ := Prod.mk.inj (Option.some.inj h)
    obtain ⟨_, n, hg', hn, rfl⟩ := group_of_owner hc
    obtain rfl := Option.some.inj hg'
    rw [owner_of_group hg]
    rcases Group.find_deliver _ hn with hc | hn
    · exact .inl hc
    · exact .inr (by rw [hn]; rfl)

theorem owner_xgroupCreate (h : s.xgroupCreate = some s') : s'.owner id = none := by
  obtain ⟨_, rfl⟩ := xgroupCreate_eq h
  rfl

theorem gains_xautoclaim {start : ι} {r : Scan ι φ}
    (h : s.xautoclaim consumer minIdle start count now = some (r, s')) : Gains consumer s s' := by
  unfold xautoclaim at h
  obtain ⟨g, _, h⟩ := Option.map_eq_some_iff.mp h
  obtain ⟨_, rfl⟩ := Prod.mk.inj h
  exact Gains.trans (fun _ _ h => .inr (owner_drop _ h)) (gains_claim _ consumer now)

theorem gains_xclaimIds (consumer : κ) (minIdle now : Nat) : ∀ (ids : List ι) (s : Stream ι φ κ),
    Gains consumer s (xclaimIds consumer minIdle now ids s).2 := by
  intro ids
  induction ids with
  | nil => exact fun s id c h => .inr h
  | cons id ids ih =>
    intro s
    unfold xclaimIds
    by_cases hi : s.idle minIdle now id = true
    · rw [if_pos hi]
      exact (gains_claim _ consumer now).trans (ih _)
    · rw [if_neg hi]
      exact ih s

theorem gains_xclaim {ids : List ι} {reply : List (Option (ι × φ))}
    (h : s.xclaim consumer minIdle now ids = some (reply, s')) : Gains consumer s s' := by
  unfold xclaim at h
  obtain ⟨g, _, h⟩ := Option.map_eq_some_iff.mp h
  have hgains := gains_xclaimIds consumer minIdle now ids s
  rw [h] at hgains
  exact hgains

/-! ## What the consumer has -/

theorem owner_of_nack {n : Nack ι κ} (h : n ∈ s.nacks) : s.owner n.id = some n.consumer := by
  unfold nacks at h
  unfold owner
  cases hg : s.group with
  | none => simp [hg] at h
  | some g =>
    simp only [hg, Option.map_some, Option.getD_some] at h
    rw [Option.bind_some]
    have hin : n.id ∈ g.ids := List.mem_map_of_mem h
    obtain ⟨m, hm⟩ := g.mem_ids_iff_find.mp hin
    have hid : m.id = n.id := by simpa using List.find?_some hm
    obtain rfl : m = n := List.inj_on_of_nodup_map g.ids_nodup (List.mem_of_find?_eq_some hm) h hid
    rw [hm]
    rfl

theorem xreadgroup_owner {entries : List (ι × φ)} (h : s.xreadgroup consumer count now = some (entries, s'))
    {e : ι × φ} (he : e ∈ entries) : s'.owner e.1 = some consumer := by
  cases hg : s.group with
  | none =>
    unfold Stream.xreadgroup at h
    split at h
    · cases h
    · rename_i g hg'
      exact absurd (hg.symm.trans hg') nofun
  | some g =>
    rw [xreadgroup_eq hg consumer count now] at h
    obtain ⟨rfl, rfl⟩ := Prod.mk.inj (Option.some.inj h)
    apply owner_of_nack (n := Nack.fresh consumer now e.1)
    exact List.mem_append_right _ (List.mem_map_of_mem (List.mem_map_of_mem he))

theorem claim_owner {n : Nack ι κ} (p : ι → Bool) (h : n ∈ s.nacks) (hp : p n.id = true) :
    (s.claim p consumer now).owner n.id = some consumer := by
  apply owner_of_nack (n := n.claimed consumer now)
  rw [nacks_claim_eq]
  exact List.mem_map.mpr ⟨n, h, if_pos hp⟩

theorem xautoclaim_owner {start : ι} {r : Scan ι φ} (hi : s.Intact)
    (h : s.xautoclaim consumer minIdle start count now = some (r, s')) {e : ι × φ} (he : e ∈ r.claimed) :
    s'.owner e.1 = some consumer := by
  obtain ⟨_, _, _, hdel, _⟩ := xautoclaim_spec hi h
  obtain ⟨n, hn, hid, _⟩ := (xautoclaim_claims h).2.wasIdle e.1 (List.mem_map_of_mem he)
  unfold xautoclaim at h
  obtain ⟨g, _, h⟩ := Option.map_eq_some_iff.mp h
  obtain ⟨rfl, rfl⟩ := Prod.mk.inj h
  rw [← hid]
  apply claim_owner
  · rw [hdel, nacks_drop_none]
    exact hn
  · rw [hid]
    exact decide_eq_true (List.mem_map_of_mem he)

/-- An entry that has been idle for long enough can be claimed. -/
theorem xautoclaim_head (hi : s.Intact) {g : Group ι κ} {n : Nack ι κ} {rest : List (Nack ι κ)}
    (hg : s.group = some g) (hp : g.pending = n :: rest) (hcount : 0 < count)
    (hidle : n.deliveredAt + minIdle ≤ now) (consumer : κ) :
    ∃ r s' fields, s.xautoclaim consumer minIdle ⊥ count now = some (r, s') ∧ (n.id, fields) ∈ r.claimed := by
  obtain ⟨count, rfl⟩ := Nat.exists_eq_add_of_lt hcount
  have hpend : n.id ∈ s.pendingIds := by
    unfold pendingIds
    rw [hg]
    exact List.mem_map_of_mem (hp ▸ List.mem_cons_self)
  obtain ⟨fields, hf⟩ := hi.lookup hpend
  have hall : (g.pending.filter fun m => ⊥ ≤ m.id) = n :: rest := by
    rw [hp]
    exact List.filter_eq_self.mpr fun m _ => decide_eq_true bot_le
  refine ⟨_, _, fields, by unfold xautoclaim; rw [hg]; rfl, ?_⟩
  have htries : (0 + count + 1) * 10 = (count * 10 + 9) + 1 := by omega
  rw [hall, htries]
  unfold scan
  simp [hf, hidle]

end Stream

end Redis
