import InferenceService.Lib.StreamStamps
import Mathlib.Data.List.Nodup

/-!
# Pages of pending entries

A client walks the pending entries with `XAUTOCLAIM`, or with `XPENDING` and
`XCLAIM`. What one page claims, and where it ends, when every pending entry is
still in the stream.
-/

namespace Redis

namespace Nack
variable {ι κ : Type}

def idleAt (minIdle now : Nat) (n : Nack ι κ) : Bool := n.deliveredAt + minIdle ≤ now

def claimIdle (consumer : κ) (minIdle now : Nat) (n : Nack ι κ) : Nack ι κ :=
  if n.idleAt minIdle now then n.claimed consumer now else n

@[simp] theorem claimIdle_id (consumer : κ) (minIdle now : Nat) (n : Nack ι κ) :
    (n.claimIdle consumer minIdle now).id = n.id := by
  unfold claimIdle
  by_cases h : n.idleAt minIdle now = true <;> simp [h, claimed]

theorem map_claimIdle_id (consumer : κ) (minIdle now : Nat) (l : List (Nack ι κ)) :
    (l.map (claimIdle consumer minIdle now)).map id = l.map id := by
  rw [List.map_map]
  exact List.map_congr_left fun n _ => n.claimIdle_id consumer minIdle now

end Nack

def idleIds {ι κ : Type} (minIdle now : Nat) (l : List (Nack ι κ)) : List ι :=
  (l.filter (Nack.idleAt minIdle now)).map Nack.id

theorem idleIds_append {ι κ : Type} (minIdle now : Nat) (l l' : List (Nack ι κ)) :
    idleIds minIdle now (l ++ l') = idleIds minIdle now l ++ idleIds minIdle now l' := by
  unfold idleIds
  rw [List.filter_append, List.map_append]

theorem idleIds_eq_nil {ι κ : Type} {minIdle now : Nat} {l : List (Nack ι κ)} :
    idleIds minIdle now l = [] ↔ ∀ n ∈ l, n.idleAt minIdle now = false := by
  unfold idleIds
  rw [List.map_eq_nil_iff, List.filter_eq_nil_iff]
  simp only [Bool.not_eq_true]

theorem mem_idleIds {ι κ : Type} {minIdle now : Nat} {l : List (Nack ι κ)} (hnodup : (l.map Nack.id).Nodup)
    {n : Nack ι κ} (hn : n ∈ l) : n.id ∈ idleIds minIdle now l ↔ n.idleAt minIdle now = true := by
  unfold idleIds
  constructor
  · intro h
    obtain ⟨m, hm, hid⟩ := List.mem_map.mp h
    obtain ⟨hml, hidle⟩ := List.mem_filter.mp hm
    rw [← List.inj_on_of_nodup_map hnodup hml hn hid]
    exact hidle
  · exact fun h => List.mem_map_of_mem (List.mem_filter.mpr ⟨hn, h⟩)

theorem filter_from {ι κ : Type} [LinearOrder ι] {l l' : List (Nack ι κ)} {n : Nack ι κ}
    (h : ((l ++ n :: l').map Nack.id).Pairwise (· < ·)) :
    ((l ++ n :: l').filter fun m => n.id ≤ m.id) = n :: l' := by
  rw [List.map_append, List.map_cons] at h
  obtain ⟨_, hright, hlt⟩ := List.pairwise_append.mp h
  have hl : (l.filter fun m => decide (n.id ≤ m.id)) = [] := by
    apply List.filter_eq_nil_iff.mpr
    intro m hm hle
    exact absurd (of_decide_eq_true hle) (not_le.mpr (hlt _ (List.mem_map_of_mem hm) _ List.mem_cons_self))
  have hr : ((n :: l').filter fun m => decide (n.id ≤ m.id)) = n :: l' := by
    apply List.filter_eq_self.mpr
    intro m hm
    rcases List.mem_cons.mp hm with rfl | hm
    · exact decide_eq_true (le_refl _)
    · exact decide_eq_true (le_of_lt ((List.pairwise_cons.mp hright).1 _ (List.mem_map_of_mem hm)))
  rw [List.filter_append, hl, hr, List.nil_append]

theorem claim_idleIds {ι κ : Type} [DecidableEq ι] (minIdle now : Nat) {l page rest : List (Nack ι κ)}
    (hnodup : ((l ++ (page ++ rest)).map Nack.id).Nodup)
    (consumer : κ) :
    ((l ++ (page ++ rest)).map fun n => if n.id ∈ idleIds minIdle now page then n.claimed consumer now else n) =
      l ++ (page.map (Nack.claimIdle consumer minIdle now) ++ rest) := by
  have hout : ∀ m, (∃ n ∈ page, n.id = m) → (m ∉ l.map Nack.id ∧ m ∉ rest.map Nack.id) := by
    rintro _ ⟨n, hn, rfl⟩
    rw [List.map_append, List.map_append, List.nodup_append] at hnodup
    obtain ⟨_, hright, hdis⟩ := hnodup
    have hmem := List.mem_map_of_mem (f := Nack.id) hn
    refine ⟨fun hl => hdis _ hl _ (List.mem_append_left _ hmem) rfl, fun hr => ?_⟩
    exact (List.nodup_append.mp hright).2.2 _ hmem _ hr rfl
  have hidle : ∀ m ∈ idleIds minIdle now page, ∃ n ∈ page, n.id = m := by
    intro m hm
    obtain ⟨n, hn, rfl⟩ := List.mem_map.mp hm
    exact ⟨n, (List.mem_filter.mp hn).1, rfl⟩
  have hpage : (page.map Nack.id).Nodup := by
    rw [List.map_append, List.map_append] at hnodup
    exact (hnodup.of_append_right).of_append_left
  rw [List.map_append, List.map_append]
  refine congrArg₂ _ ?_ (congrArg₂ _ ?_ ?_)
  · refine (List.map_congr_left fun n hn => if_neg fun hid => ?_).trans (List.map_id' _)
    exact (hout _ (hidle _ hid)).1 (List.mem_map_of_mem hn)
  · apply List.map_congr_left
    intro n hn
    unfold Nack.claimIdle
    exact if_congr (mem_idleIds hpage hn) rfl rfl
  · refine (List.map_congr_left fun n hn => if_neg fun hid => ?_).trans (List.map_id' _)
    exact (hout _ (hidle _ hid)).2 (List.mem_map_of_mem hn)

namespace Stream
variable {ι φ κ : Type} [LinearOrder ι] [OrderBot ι] {s : Stream ι φ κ} {consumer : κ} {now minIdle count : Nat}

/-- Every pending entry is still in the stream. -/
def Stored (s : Stream ι φ κ) : Prop := ∀ n ∈ s.nacks, ∃ f, s.lookup n.id = some f

theorem Intact.stored (h : s.Intact) : s.Stored := by
  intro n hn
  apply h.lookup
  unfold nacks at hn
  unfold pendingIds
  cases hg : s.group with
  | none => rw [hg] at hn; cases hn
  | some g =>
    rw [hg] at hn
    exact List.mem_map_of_mem hn

theorem nacks_sorted (s : Stream ι φ κ) : (s.nacks.map Nack.id).Pairwise (· < ·) := by
  unfold nacks
  cases s.group with
  | none => exact List.Pairwise.nil
  | some g => exact g.sorted

theorem nacks_ids_nodup (s : Stream ι φ κ) : (s.nacks.map Nack.id).Nodup := s.nacks_sorted.imp ne_of_lt

theorem bot_lt_of_lookup {id : ι} {fields : φ} (h : s.lookup id = some fields) : ⊥ < id :=
  (s.bounded _ (entry_of_lookup h)).1

/-! ## `XAUTOCLAIM` -/

theorem nacks_claim_eq (s : Stream ι φ κ) (p : ι → Bool) (consumer : κ) (now : Nat) :
    (s.claim p consumer now).nacks = s.nacks.map fun n => if p n.id then n.claimed consumer now else n := by
  unfold claim mapGroup nacks
  dsimp only
  cases s.group with
  | none => rfl
  | some g => rfl

/-- The scan looks at a prefix of the list, claims what is idle there, and the
next one starts behind it. -/
theorem scan_page (s : Stream ι φ κ) (minIdle now : Nat) : ∀ (attempts count : Nat) (l : List (Nack ι κ)),
    (∀ n ∈ l, ∃ f, s.lookup n.id = some f) →
    ∃ page rest, l = page ++ rest ∧ (0 < attempts → 0 < count → l ≠ [] → page ≠ []) ∧
      (s.scan minIdle now attempts count l).claimed.map Prod.fst = idleIds minIdle now page ∧
      (s.scan minIdle now attempts count l).next = rest.head?.map Nack.id
  | _, _, [], _ => ⟨[], [], rfl, fun _ _ h => h, by unfold scan; rfl, by unfold scan; rfl⟩
  | 0, _, n :: rest, _ =>
    ⟨[], n :: rest, rfl, fun h => absurd h (Nat.lt_irrefl 0), by unfold scan; rfl, by unfold scan; rfl⟩
  | _ + 1, 0, n :: rest, _ =>
    ⟨[], n :: rest, rfl, fun _ h => absurd h (Nat.lt_irrefl 0), by unfold scan; rfl, by unfold scan; rfl⟩
  | a + 1, c + 1, n :: l, h => by
    obtain ⟨f, hf⟩ := h n List.mem_cons_self
    have hl : ∀ m ∈ l, ∃ f, s.lookup m.id = some f := fun m hm => h m (List.mem_cons_of_mem _ hm)
    unfold scan
    simp only [hf]
    by_cases hi : n.deliveredAt + minIdle ≤ now
    · obtain ⟨page, rest, rfl, _, hclaimed, hnext⟩ := scan_page s minIdle now a c l hl
      refine ⟨n :: page, rest, rfl, fun _ _ _ => List.cons_ne_nil _ _, ?_, ?_⟩
      · rw [if_pos hi]
        unfold idleIds at hclaimed ⊢
        rw [List.filter_cons_of_pos (by simpa [Nack.idleAt] using hi), List.map_cons, List.map_cons, hclaimed]
      · rw [if_pos hi]
        exact hnext
    · obtain ⟨page, rest, rfl, _, hclaimed, hnext⟩ := scan_page s minIdle now a (c + 1) l hl
      refine ⟨n :: page, rest, rfl, fun _ _ _ => List.cons_ne_nil _ _, ?_, ?_⟩
      · rw [if_neg hi]
        unfold idleIds at hclaimed ⊢
        rw [List.filter_cons_of_neg (by simpa [Nack.idleAt] using hi), hclaimed]
      · rw [if_neg hi]
        exact hnext

theorem nacks_drop_none (s : Stream ι φ κ) :
    (s.mapGroup (·.drop (· ∈ ([] : List ι))) fun _ => rfl).nacks = s.nacks := by
  unfold mapGroup nacks
  dsimp only
  cases s.group with
  | none => rfl
  | some g => exact List.filter_eq_self.mpr fun n _ => by simp

/-- What one page leaves: the idle entries of the page are claimed. -/
structure Paged (s s' : Stream ι φ κ) (consumer : κ) (minIdle now : Nat) (before page rest : List (Nack ι κ)) : Prop where
  entries : s'.entries = s.entries
  group : s'.group.isSome = true
  nacks : s'.nacks = before ++ (page.map (Nack.claimIdle consumer minIdle now) ++ rest)

theorem Stored.lookup_eq {s' : Stream ι φ κ} (h : s'.entries = s.entries) (id : ι) : s'.lookup id = s.lookup id := by
  unfold lookup
  rw [h]

theorem xautoclaim_page {start : ι} {before todo : List (Nack ι κ)} (hs : s.Stored) (hgroup : s.group.isSome = true)
    (hnacks : s.nacks = before ++ todo) (hstart : (s.nacks.filter fun n => start ≤ n.id) = todo) (hcount : 0 < count)
    (consumer : κ) (minIdle now : Nat) :
    ∃ page rest scan s', s.xautoclaim consumer minIdle start count now = some (scan, s') ∧ todo = page ++ rest ∧
      (todo ≠ [] → page ≠ []) ∧ scan.claimed.map Prod.fst = idleIds minIdle now page ∧
      (∀ e ∈ scan.claimed, e ∈ s.entries) ∧ scan.next = rest.head?.map Nack.id ∧
      Paged s s' consumer minIdle now before page rest := by
  obtain ⟨g, hg⟩ := Option.isSome_iff_exists.mp hgroup
  have hpending := nacks_of_group hg
  rw [hpending] at hnacks hstart
  have hstored : ∀ n ∈ todo, ∃ f, s.lookup n.id = some f := by
    intro n hn
    rw [← hstart] at hn
    exact hs n (hpending ▸ (List.mem_filter.mp hn).1)
  obtain ⟨page, rest, htodo, hne, hclaimed, hnext⟩ := s.scan_page minIdle now (count * 10) count todo hstored
  obtain ⟨hdel, hin⟩ := s.scan_spec minIdle now (count * 10) count todo hstored
  unfold xautoclaim
  rw [hg]
  simp only [Option.map_some, hstart]
  refine ⟨page, rest, _, _, rfl, htodo, hne (by omega) hcount, hclaimed, hin, hnext, rfl, ?_, ?_⟩
  · exact (mapGroup_group _ _).trans ((mapGroup_group _ _).trans (by rw [hg]; rfl))
  · have hdrop : (s.mapGroup (·.drop (· ∈ (s.scan minIdle now (count * 10) count todo).deleted)) fun _ => rfl).nacks =
        s.nacks := by
      rw [hdel]
      exact nacks_drop_none s
    rw [nacks_claim_eq, hdrop, hpending, hclaimed, hnacks, htodo]
    refine Eq.trans ?_ (claim_idleIds minIdle now ?_ consumer)
    · exact List.map_congr_left fun n _ => if_congr (decide_eq_true_iff) rfl rfl
    · rw [← htodo, ← hnacks, ← hpending]
      exact s.nacks_ids_nodup

/-! ## `XPENDING` and `XCLAIM` -/

theorem idle_iff {id : ι} : s.idle minIdle now id = true ↔ ∃ n ∈ s.nacks, n.id = id ∧ n.idleAt minIdle now = true := by
  constructor
  · intro h
    obtain ⟨n, hn, hid, hle⟩ := wasIdle_of_idle h
    exact ⟨n, hn, hid, decide_eq_true hle⟩
  · rintro ⟨n, hn, rfl, hidle⟩
    unfold nacks at hn
    unfold idle
    cases hg : s.group with
    | none => rw [hg] at hn; cases hn
    | some g =>
      rw [hg] at hn
      obtain ⟨m, hm⟩ := g.mem_ids_iff_find.mp (List.mem_map_of_mem hn)
      have hmem : m ∈ g.pending := List.mem_of_find?_eq_some hm
      have hid : m.id = n.id := by simpa using List.find?_some hm
      obtain rfl := List.inj_on_of_nodup_map g.ids_nodup hmem hn hid
      simp only [Option.bind_some, hm]
      exact hidle

theorem idle_claim_ne {id x : ι} (hne : x ≠ id) (h : s.idle minIdle now x = true) :
    (s.claim (· = id) consumer now).idle minIdle now x = true := by
  obtain ⟨n, hn, rfl, hidle⟩ := idle_iff.mp h
  refine idle_iff.mpr ⟨n, ?_, rfl, hidle⟩
  rw [nacks_claim_eq]
  exact List.mem_map.mpr ⟨n, hn, if_neg (by simpa using hne)⟩

/-- An `XCLAIM` of ids that are all idle hands out all of them. -/
theorem xclaimIds_all (consumer : κ) (minIdle now : Nat) : ∀ (ids : List ι) (s : Stream ι φ κ), ids.Nodup →
    (∀ id ∈ ids, s.idle minIdle now id = true ∧ ∃ f, s.lookup id = some f) →
    ∃ entries : List (ι × φ), (xclaimIds consumer minIdle now ids s).1 = entries.map some ∧
      entries.map Prod.fst = ids ∧ (∀ e ∈ entries, e ∈ s.entries) ∧
      (xclaimIds consumer minIdle now ids s).2.entries = s.entries ∧
      (xclaimIds consumer minIdle now ids s).2.nacks =
        s.nacks.map fun n => if n.id ∈ ids then n.claimed consumer now else n := by
  intro ids
  induction ids with
  | nil => exact fun s _ _ => ⟨[], rfl, rfl, fun _ h => absurd h List.not_mem_nil, rfl, by simp [xclaimIds]⟩
  | cons id ids ih =>
    intro s hnodup h
    obtain ⟨hnot, hnodup⟩ := List.nodup_cons.mp hnodup
    obtain ⟨hidle, f, hf⟩ := h id List.mem_cons_self
    obtain ⟨entries, h1, h2, h3, h4, h5⟩ := ih (s.claim (· = id) consumer now) hnodup (by
      intro x hx
      obtain ⟨hidle, hf⟩ := h x (List.mem_cons_of_mem _ hx)
      exact ⟨idle_claim_ne (fun heq => hnot (heq ▸ hx)) hidle, hf⟩)
    unfold xclaimIds
    simp only [if_pos hidle, hf, h1, h4, h5]
    refine ⟨(id, f) :: entries, rfl, by rw [List.map_cons, h2], ?_, rfl, ?_⟩
    · exact List.forall_mem_cons.mpr ⟨entry_of_lookup hf, h3⟩
    · rw [nacks_claim_eq, List.map_map]
      apply List.map_congr_left
      intro n _
      by_cases hid : n.id = id
      · simp [hid, hnot, Nack.claimed]
      · simp [hid]

/-- A page of `XPENDING` from the start, and the `XCLAIM` of what is idle in it. -/
theorem xclaim_page {page rest : List (Nack ι κ)} (hs : s.Stored) (hgroup : s.group.isSome = true)
    (hnacks : s.nacks = page ++ rest) (consumer : κ) (minIdle now : Nat) :
    ∃ (entries : List (ι × φ)) (s' : Stream ι φ κ),
      s.xclaim consumer minIdle now (idleIds minIdle now page) = some (entries.map some, s') ∧
      entries.map Prod.fst = idleIds minIdle now page ∧ (∀ e ∈ entries, e ∈ s.entries) ∧
      Paged s s' consumer minIdle now [] page rest := by
  obtain ⟨g, hg⟩ := Option.isSome_iff_exists.mp hgroup
  have hpage : ∀ n ∈ page, n ∈ s.nacks := fun n hn => hnacks ▸ List.mem_append_left _ hn
  have hnodup : (idleIds minIdle now page).Nodup := by
    have h := s.nacks_ids_nodup
    rw [hnacks, List.map_append] at h
    exact h.of_append_left.sublist (List.filter_sublist.map _)
  obtain ⟨entries, h1, h2, h3, h4, h5⟩ := xclaimIds_all consumer minIdle now (idleIds minIdle now page) s hnodup (by
    intro id hid
    obtain ⟨n, hn, rfl⟩ := List.mem_map.mp hid
    obtain ⟨hn, hidle⟩ := List.mem_filter.mp hn
    exact ⟨idle_iff.mpr ⟨n, hpage n hn, rfl, hidle⟩, hs n (hpage n hn)⟩)
  have hgroup' := xclaimIds_group consumer minIdle now (idleIds minIdle now page) s
  have hnacks' := claim_idleIds minIdle now (l := []) (hnacks ▸ s.nacks_ids_nodup) consumer
  refine ⟨entries, (xclaimIds consumer minIdle now (idleIds minIdle now page) s).2, ?_, h2, h3, h4,
    hgroup'.trans hgroup, ?_⟩
  · unfold xclaim
    rw [hg, ← h1]
    rfl
  · rw [h5, hnacks]
    exact hnacks'

end Stream

end Redis
