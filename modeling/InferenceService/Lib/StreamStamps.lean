import InferenceService.Lib.StreamIntact

/-!
# When pending entries were delivered

A command leaves the stamp of a pending entry as it is, or sets it to the
moment of the command. It sets it for every entry that it hands out, and a
claim hands out an entry only when the entry was idle for long enough.
-/

namespace Redis

def claimedIds {ι φ : Type} (reply : List (Option (ι × φ))) : List ι := reply.filterMap fun e => e.map Prod.fst

theorem claimedIds_cons {ι φ : Type} {e : Option (ι × φ)} {reply : List (Option (ι × φ))} {x : ι}
    (h : x ∈ claimedIds (e :: reply)) : (∃ fields, e = some (x, fields)) ∨ x ∈ claimedIds reply := by
  unfold claimedIds at h
  obtain ⟨e', he, hx⟩ := List.mem_filterMap.mp h
  obtain ⟨⟨y, fields⟩, rfl, rfl⟩ := Option.map_eq_some_iff.mp hx
  rcases List.mem_cons.mp he with rfl | he
  · exact .inl ⟨fields, rfl⟩
  · exact .inr (List.mem_filterMap.mpr ⟨_, he, rfl⟩)

namespace Stream
variable {ι φ κ : Type} [LinearOrder ι] [OrderBot ι] {s s' : Stream ι φ κ} {id : ι} {consumer : κ}
  {now minIdle count : Nat} {n : Nack ι κ}

def nacks (s : Stream ι φ κ) : List (Nack ι κ) := (s.group.map Group.pending).getD []

theorem nacks_of_group {g : Group ι κ} (hg : s.group = some g) : s.nacks = g.pending := by
  unfold nacks
  rw [hg]
  rfl

theorem nacks_claim (p : ι → Bool) (h : n ∈ (s.claim p consumer now).nacks) :
    (p n.id = false ∧ n ∈ s.nacks) ∨ (p n.id = true ∧ n.deliveredAt = now) := by
  unfold claim mapGroup nacks at h
  unfold nacks
  dsimp only at h
  cases hg : s.group with
  | none => rw [hg] at h; cases h
  | some g =>
    rw [hg] at h
    obtain ⟨m, hm, rfl⟩ := List.mem_map.mp h
    by_cases hp : p m.id = true
    · rw [if_pos hp]
      exact .inr ⟨hp, rfl⟩
    · rw [if_neg hp]
      exact .inl ⟨by simpa using hp, hm⟩

theorem nacks_drop (p : ι → Bool) (h : n ∈ (s.mapGroup (·.drop p) fun _ => rfl).nacks) : n ∈ s.nacks := by
  unfold mapGroup nacks at h
  unfold nacks
  dsimp only at h
  cases hg : s.group with
  | none => rw [hg] at h; cases h
  | some g =>
    rw [hg] at h
    exact (List.mem_filter.mp h).1

theorem nacks_settle (id : ι) (h : n ∈ ((s.xack id).xdel id).nacks) : n ∈ s.nacks := nacks_drop _ h

theorem settle_head {g : Group ι κ} (hg : s.group = some g) {rest : List (Nack ι κ)} (hp : g.pending = n :: rest) :
    ∃ g', ((s.xack n.id).xdel n.id).group = some g' ∧ g'.pending = rest := by
  have hnodup := g.ids_nodup
  rw [Group.ids, hp, List.map_cons, List.nodup_cons] at hnodup
  refine ⟨g.drop (· = n.id), ?_, ?_⟩
  · show s.group.map _ = _
    rw [hg]
    rfl
  · show g.pending.filter _ = _
    rw [hp, List.filter_cons_of_neg (by simp)]
    apply List.filter_eq_self.mpr
    intro m hm
    have hne : m.id ≠ n.id := fun heq => hnodup.1 (heq ▸ List.mem_map_of_mem hm)
    simpa using hne

theorem nacks_xgroupCreate (h : s.xgroupCreate = some s') : s'.nacks = [] := by
  obtain ⟨_, rfl⟩ := xgroupCreate_eq h
  rfl

theorem xreadgroup_length {entries : List (ι × φ)} (h : s.xreadgroup consumer count now = some (entries, s')) :
    entries.length ≤ count := by
  unfold Stream.xreadgroup at h
  split at h
  · cases h
  · obtain ⟨rfl, _⟩ := Prod.mk.inj (Option.some.inj h)
    exact List.length_take_le _ _

/-- What a read hands out is stamped with its moment, and nothing else changes. -/
theorem nacks_xreadgroup {entries : List (ι × φ)} (h : s.xreadgroup consumer count now = some (entries, s'))
    (hn : n ∈ s'.nacks) :
    (n ∈ s.nacks ∧ n.id ∉ entries.map Prod.fst) ∨ (n.id ∈ entries.map Prod.fst ∧ n.deliveredAt = now) := by
  cases hg : s.group with
  | none =>
    unfold Stream.xreadgroup at h
    split at h
    · cases h
    · rename_i g hg'
      exact absurd (hg.symm.trans hg') nofun
  | some g =>
    rw [xreadgroup_eq hg consumer count now] at h
    obtain ⟨rfl, rfl⟩ := Prod.mk.inj (Option.some.inj h)
    rw [nacks_of_group hg]
    rcases List.mem_append.mp hn with hn | hn
    · refine .inl ⟨hn, ?_⟩
      intro hin
      obtain ⟨e, he, heq⟩ := List.mem_map.mp hin
      have hlt : g.lastDelivered < e.1 := of_decide_eq_true (List.mem_filter.mp (List.mem_of_mem_take he)).2
      exact absurd (g.delivered n hn) (not_le.mpr (heq ▸ hlt))
    · obtain ⟨x, hx, rfl⟩ := List.mem_map.mp hn
      exact .inr ⟨hx, rfl⟩

theorem xreadgroup_all {g : Group ι κ} (hg : s.group = some g) (hp : g.pending = []) (hlast : g.lastDelivered = ⊥)
    (hlen : s.ids.length ≤ count) (consumer : κ) (now : Nat) :
    ∃ s', s.xreadgroup consumer count now = some (s.entries, s') ∧ s'.entries = s.entries ∧
      ∃ g', s'.group = some g' ∧ g'.pending = s.ids.map (Nack.fresh consumer now) := by
  have hfilter : (s.entries.filter fun e => g.lastDelivered < e.1) = s.entries := by
    apply List.filter_eq_self.mpr
    intro e he
    rw [hlast]
    exact decide_eq_true (s.bounded e he).1
  have hall : s.undelivered g count = s.entries := by
    unfold undelivered
    rw [hfilter]
    apply List.take_of_length_le
    rw [ids, List.length_map] at hlen
    exact hlen
  refine ⟨_, (xreadgroup_eq hg consumer count now).trans (congrArg (fun e => some (e, _)) hall), rfl, _, rfl, ?_⟩
  show g.pending ++ ((s.undelivered g count).map Prod.fst).map (Nack.fresh consumer now) = _
  rw [hp, hall]
  rfl

/-! ## What a claim hands out -/

def WasIdle (l : List (Nack ι κ)) (minIdle now : Nat) (id : ι) : Prop :=
  ∃ n ∈ l, n.id = id ∧ n.deliveredAt + minIdle ≤ now

theorem wasIdle_of_idle (h : s.idle minIdle now id = true) : WasIdle s.nacks minIdle now id := by
  unfold idle at h
  unfold nacks
  cases hg : s.group with
  | none => simp [hg] at h
  | some g =>
    simp only [hg, Option.bind_some] at h
    cases hf : g.find id with
    | none => simp [hf] at h
    | some m =>
      simp only [hf, decide_eq_true_eq] at h
      unfold Group.find at hf
      exact ⟨m, List.mem_of_find?_eq_some hf, by simpa using List.find?_some hf, h⟩

theorem scan_claimed (s : Stream ι φ κ) (minIdle now : Nat) : ∀ (attempts count : Nat) (l : List (Nack ι κ)),
    (s.scan minIdle now attempts count l).claimed.length ≤ count ∧
      ∀ e ∈ (s.scan minIdle now attempts count l).claimed, WasIdle l minIdle now e.1
  | _, _, [] => by unfold scan; exact ⟨Nat.zero_le _, fun _ h => absurd h List.not_mem_nil⟩
  | 0, _, _ :: _ => by unfold scan; exact ⟨Nat.zero_le _, fun _ h => absurd h List.not_mem_nil⟩
  | _ + 1, 0, _ :: _ => by unfold scan; exact ⟨Nat.zero_le _, fun _ h => absurd h List.not_mem_nil⟩
  | a + 1, c + 1, m :: rest => by
    have later : ∀ c', (∀ e ∈ (s.scan minIdle now a c' rest).claimed, WasIdle (m :: rest) minIdle now e.1) := by
      intro c' e he
      obtain ⟨x, hx, h⟩ := (scan_claimed s minIdle now a c' rest).2 e he
      exact ⟨x, List.mem_cons_of_mem _ hx, h⟩
    unfold scan
    cases s.lookup m.id with
    | none => exact ⟨Nat.le_succ_of_le (scan_claimed s minIdle now a c rest).1, later c⟩
    | some fields =>
      by_cases hi : m.deliveredAt + minIdle ≤ now
      · simp only [if_pos hi]
        refine ⟨Nat.succ_le_succ (scan_claimed s minIdle now a c rest).1, ?_⟩
        intro e he
        rcases List.mem_cons.mp he with rfl | he
        · exact ⟨m, List.mem_cons_self, rfl, hi⟩
        · exact later c e he
      · simp only [if_neg hi]
        exact ⟨(scan_claimed s minIdle now a (c + 1) rest).1, later (c + 1)⟩

/-- What a claim does to the stamps: `claimed` are the ids that it hands out. -/
structure Claims (s s' : Stream ι φ κ) (minIdle now : Nat) (claimed : List ι) : Prop where
  wasIdle : ∀ id ∈ claimed, WasIdle s.nacks minIdle now id
  stamped : ∀ n ∈ s'.nacks, (n ∈ s.nacks ∧ n.id ∉ claimed) ∨ n.deliveredAt = now

theorem xautoclaim_claims {start : ι} {r : Scan ι φ}
    (h : s.xautoclaim consumer minIdle start count now = some (r, s')) :
    r.claimed.length ≤ count ∧ Claims s s' minIdle now (r.claimed.map Prod.fst) := by
  unfold xautoclaim at h
  obtain ⟨g, hg, h⟩ := Option.map_eq_some_iff.mp h
  obtain ⟨rfl, rfl⟩ := Prod.mk.inj h
  have hscan := s.scan_claimed minIdle now (count * 10) count (g.pending.filter fun n => start ≤ n.id)
  refine ⟨hscan.1, ?_, ?_⟩
  · intro id hid
    obtain ⟨e, he, rfl⟩ := List.mem_map.mp hid
    obtain ⟨n, hn, hidle⟩ := hscan.2 e he
    rw [nacks_of_group hg]
    exact ⟨n, (List.mem_filter.mp hn).1, hidle⟩
  · intro n hn
    rcases nacks_claim _ hn with ⟨hp, hn⟩ | ⟨_, hnow⟩
    · exact .inl ⟨nacks_drop _ hn, of_decide_eq_false hp⟩
    · exact .inr hnow

theorem scan_nil (s : Stream ι φ κ) (minIdle now attempts count : Nat) :
    s.scan minIdle now attempts count [] = ⟨[], [], none⟩ := by
  unfold scan
  rfl

theorem xautoclaim_nil {g : Group ι κ} (hg : s.group = some g) (hp : g.pending = []) (consumer : κ) (start : ι)
    (minIdle count now : Nat) :
    ∃ s', s.xautoclaim consumer minIdle start count now = some (⟨[], [], none⟩, s') ∧ s'.entries = s.entries ∧
      ∃ g', s'.group = some g' ∧ g'.pending = [] ∧ g'.lastDelivered = g.lastDelivered := by
  unfold xautoclaim
  rw [hg]
  simp only [Option.map_some, hp, List.filter_nil, scan_nil]
  refine ⟨_, rfl, rfl, (g.drop (· ∈ [])).claim (· ∈ []) consumer now, ?_, ?_, rfl⟩
  · unfold claim mapGroup
    simp [hg]
  · simp [Group.claim, Group.drop, hp]

theorem xautoclaim_single {g : Group ι κ} {fields : φ} (hg : s.group = some g) (hp : g.pending = [n])
    (hl : s.lookup n.id = some fields) (hidle : n.deliveredAt + minIdle ≤ now) (hcount : 0 < count) (consumer : κ) :
    ∃ s', s.xautoclaim consumer minIdle ⊥ count now = some (⟨[(n.id, fields)], [], none⟩, s') := by
  obtain ⟨c, rfl⟩ := Nat.exists_eq_add_of_lt hcount
  have hscan : s.scan minIdle now ((0 + c + 1) * 10) (0 + c + 1) [n] = ⟨[(n.id, fields)], [], none⟩ := by
    rw [show (0 + c + 1) * 10 = (c * 10 + 9) + 1 by omega]
    unfold scan
    simp only [hl, if_pos hidle, scan_nil]
  unfold xautoclaim
  rw [hg]
  have hfilter : ([n].filter fun m => decide (⊥ ≤ m.id)) = [n] := by simp
  simp only [Option.map_some, hp, hfilter, hscan]
  exact ⟨_, rfl⟩

theorem xclaimIds_length (consumer : κ) (minIdle now : Nat) : ∀ (ids : List ι) (s : Stream ι φ κ),
    (xclaimIds consumer minIdle now ids s).1.length ≤ ids.length := by
  intro ids
  induction ids with
  | nil => intro s; exact Nat.le_refl _
  | cons id ids ih =>
    intro s
    unfold xclaimIds
    by_cases hi : s.idle minIdle now id = true
    · rw [if_pos hi]
      exact Nat.succ_le_succ (ih _)
    · rw [if_neg hi]
      exact Nat.le_succ_of_le (ih s)

theorem xclaimIds_claims (consumer : κ) (now : Nat) (hmin : 0 < minIdle) : ∀ (ids : List ι) (s : Stream ι φ κ),
    Claims s (xclaimIds consumer minIdle now ids s).2 minIdle now
      (claimedIds (xclaimIds consumer minIdle now ids s).1) := by
  intro ids
  induction ids with
  | nil => intro s; exact ⟨nofun, fun n hn => .inl ⟨hn, List.not_mem_nil⟩⟩
  | cons id ids ih =>
    intro s
    unfold xclaimIds
    by_cases hi : s.idle minIdle now id = true
    · rw [if_pos hi]
      obtain ⟨hidle, hst⟩ := ih (s.claim (· = id) consumer now)
      have hhead : ∀ x fields, (s.lookup id).map (id, ·) = some (x, fields) → x = id := by
        intro x fields h
        obtain ⟨f, _, heq⟩ := Option.map_eq_some_iff.mp h
        exact (Prod.mk.inj heq).1.symm
      refine ⟨?_, ?_⟩
      · intro x hx
        rcases claimedIds_cons hx with ⟨fields, h⟩ | hx
        · rw [hhead x fields h]
          exact wasIdle_of_idle hi
        · -- an entry that is idle after the first claim was not stamped by it
          obtain ⟨n, hn, hid, hle⟩ := hidle x hx
          rcases nacks_claim _ hn with ⟨_, hn⟩ | ⟨_, hnow⟩
          · exact ⟨n, hn, hid, hle⟩
          · omega
      · intro n hn
        rcases hst n hn with ⟨hn, hnot⟩ | hnow
        · rcases nacks_claim _ hn with ⟨hp, hn⟩ | ⟨_, hnow⟩
          · refine .inl ⟨hn, fun hx => ?_⟩
            rcases claimedIds_cons hx with ⟨fields, h⟩ | hx
            · exact of_decide_eq_false hp (hhead n.id fields h)
            · exact hnot hx
          · exact .inr hnow
        · exact .inr hnow
    · rw [if_neg hi]
      exact ih s

theorem xclaim_claims (hmin : 0 < minIdle) {ids : List ι} {reply : List (Option (ι × φ))}
    (h : s.xclaim consumer minIdle now ids = some (reply, s')) :
    (claimedIds reply).length ≤ ids.length ∧ Claims s s' minIdle now (claimedIds reply) := by
  unfold xclaim at h
  obtain ⟨g, _, h⟩ := Option.map_eq_some_iff.mp h
  have hclaims := xclaimIds_claims consumer now hmin ids s
  have hlen := xclaimIds_length consumer minIdle now ids s
  rw [h] at hclaims hlen
  exact ⟨Nat.le_trans (List.length_filterMap_le _ _) hlen, hclaims⟩

end Stream

end Redis
