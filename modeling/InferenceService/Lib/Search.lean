import Mathlib.Data.List.Infix

/-!
# Words in lists

A word is the list of the classes that its characters belong to, so that it can
stand for texts in any letter case. `cut` finds its first place, and `delete`
goes through a list from the left and leaves pieces out.
-/

namespace Search

variable {α : Type}

def startsWith : List (α → Bool) → List α → Bool
  | [], _ => true
  | _ :: _, [] => false
  | p :: ps, c :: s => p c && startsWith ps s

def cut (ps : List (α → Bool)) : List α → Option (List α × List α)
  | [] => if startsWith ps [] then some ([], []) else none
  | c :: s =>
    if startsWith ps (c :: s) then some ([], (c :: s).drop ps.length)
    else (cut ps s).map fun x => (c :: x.1, x.2)

/-- The word has a place in the list with `K` of what comes after it. -/
def OccursThen (ps : List (α → Bool)) (K : List α → Prop) (s : List α) : Prop :=
  ∃ t, t <:+ s ∧ startsWith ps t = true ∧ K (t.drop ps.length)

def Occurs (ps : List (α → Bool)) : List α → Prop := OccursThen ps fun _ => True

/-- `len` is the length of the piece to leave out, `skip` what is left of the
last one. -/
def deleteFrom (len : List α → Nat) : Nat → List α → List α
  | _, [] => []
  | skip + 1, _ :: s => deleteFrom len skip s
  | 0, c :: s =>
    match len (c :: s) with
    | 0 => c :: deleteFrom len 0 s
    | n + 1 => deleteFrom len n s

def delete (len : List α → Nat) (s : List α) : List α := deleteFrom len 0 s

/-! ## The beginning of a list -/

section
variable {ps : List (α → Bool)} {s t : List α}

theorem startsWith_length (h : startsWith ps s = true) : ps.length ≤ s.length := by
  induction ps generalizing s with
  | nil => exact Nat.zero_le _
  | cons p ps ih =>
    cases s with
    | nil => cases h
    | cons c s => exact Nat.succ_le_succ (ih (Bool.and_eq_true_iff.mp h).2)

theorem startsWith_append (h : startsWith ps s = true) (t : List α) : startsWith ps (s ++ t) = true := by
  induction ps generalizing s with
  | nil => rfl
  | cons p ps ih =>
    cases s with
    | nil => cases h
    | cons c s =>
      obtain ⟨hp, hs⟩ := Bool.and_eq_true_iff.mp h
      exact Bool.and_eq_true_iff.mpr ⟨hp, ih hs⟩

theorem startsWith_of_length (h : ps.length ≤ s.length) (t : List α) : startsWith ps (s ++ t) = startsWith ps s := by
  induction ps generalizing s with
  | nil => rfl
  | cons p ps ih =>
    cases s with
    | nil => exact absurd h (Nat.not_succ_le_zero _)
    | cons c s => rw [List.cons_append, startsWith, startsWith, ih (Nat.le_of_succ_le_succ h)]

theorem exists_mem_of_startsWith {p : α → Bool} (hp : p ∈ ps) (h : startsWith ps s = true) : ∃ c ∈ s, p c = true := by
  induction ps generalizing s with
  | nil => exact absurd hp List.not_mem_nil
  | cons q ps ih =>
    cases s with
    | nil => cases h
    | cons c s =>
      obtain ⟨hq, hs⟩ := Bool.and_eq_true_iff.mp h
      rcases List.mem_cons.mp hp with rfl | hp
      · exact ⟨c, List.mem_cons_self, hq⟩
      · obtain ⟨d, hd, hpd⟩ := ih hp hs
        exact ⟨d, List.mem_cons_of_mem c hd, hpd⟩

theorem exists_class_of_startsWith {c : α} (h : startsWith ps s = true) (hc : c ∈ s.take ps.length) :
    ∃ p ∈ ps, p c = true := by
  induction ps generalizing s with
  | nil => exact absurd hc List.not_mem_nil
  | cons p ps ih =>
    cases s with
    | nil => cases h
    | cons d s =>
      obtain ⟨hp, hs⟩ := Bool.and_eq_true_iff.mp h
      rw [List.length_cons, List.take_succ_cons] at hc
      rcases List.mem_cons.mp hc with rfl | hc
      · exact ⟨p, List.mem_cons_self, hp⟩
      · obtain ⟨q, hq, hqc⟩ := ih hs hc
        exact ⟨q, List.mem_cons_of_mem p hq, hqc⟩

/-- The character can stand at the end of the word only. -/
def Ends (ps : List (α → Bool)) (c : α) : Prop := ∀ p ∈ ps.dropLast, p c = false

/-- A beginning with such a character has the whole word or none of it. -/
theorem startsWith_of_ends {c : α} (hc : c ∈ s) (hends : Ends ps c) (t : List α) :
    startsWith ps (s ++ t) = startsWith ps s := by
  induction ps generalizing s with
  | nil => rfl
  | cons p ps ih =>
    cases s with
    | nil => exact absurd hc List.not_mem_nil
    | cons d s =>
      rw [List.cons_append, startsWith, startsWith]
      cases ps with
      | nil => rfl
      | cons q ps =>
        rw [Ends, List.dropLast_cons_cons, List.forall_mem_cons] at hends
        rcases List.mem_cons.mp hc with rfl | hc
        · rw [hends.1, Bool.false_and, Bool.false_and]
        · rw [ih hc hends.2]

theorem startsWith_append_cons {c : α} (hc : ∀ p ∈ ps, p c = false) (s t : List α) :
    startsWith ps (s ++ c :: t) = startsWith ps s := by
  induction ps generalizing s with
  | nil => rfl
  | cons p ps ih =>
    rw [List.forall_mem_cons] at hc
    cases s with
    | nil => simp [startsWith, hc.1]
    | cons d s => rw [List.cons_append, startsWith, startsWith, ih hc.2]

/-- The character can stand at the beginning of the word only. -/
theorem startsWith_append_of_tail {c : α} (hc : ∀ p ∈ ps.tail, p c = false) (hs : s ≠ []) (t : List α) :
    startsWith ps (s ++ c :: t) = startsWith ps s := by
  cases s with
  | nil => exact absurd rfl hs
  | cons d s =>
    cases ps with
    | nil => rfl
    | cons p ps => exact congrArg (p d && ·) (startsWith_append_cons hc s t)

theorem forall_false {c : α} (h : ps.all (fun p => !p c) = true) : ∀ p ∈ ps, p c = false := by
  simpa using h

theorem startsWith_cons_false {c : α} (h : ∀ p ∈ ps.head?, p c = false) (hps : ps ≠ []) (s : List α) :
    startsWith ps (c :: s) = false := by
  cases ps with
  | nil => exact absurd rfl hps
  | cons p ps => rw [startsWith, h p rfl, Bool.false_and]

end

/-! ## The first place -/

section
variable {ps : List (α → Bool)} {s t : List α} {x : List α × List α}

theorem cut_of_startsWith (h : startsWith ps s = true) : cut ps s = some ([], s.drop ps.length) := by
  cases s with
  | nil => rw [cut, if_pos h, List.drop_nil]
  | cons c s => rw [cut, if_pos h]

theorem cut_cons_of_not {c : α} (h : startsWith ps (c :: s) = false) :
    cut ps (c :: s) = (cut ps s).map fun x => (c :: x.1, x.2) := by
  rw [cut, if_neg (by rw [h]; exact Bool.false_ne_true)]

theorem cut_spec (h : cut ps s = some x) :
    ∃ t, s = x.1 ++ t ∧ startsWith ps t = true ∧ x.2 = t.drop ps.length ∧
      ∀ c u, c :: u <:+ x.1 → startsWith ps (c :: u ++ t) = false := by
  induction s generalizing x with
  | nil =>
    by_cases hs : startsWith ps ([] : List α) = true
    · rw [cut_of_startsWith hs] at h
      obtain rfl := Option.some.inj h
      exact ⟨[], rfl, hs, rfl, fun c u hu => absurd (List.eq_nil_of_suffix_nil hu) (List.cons_ne_nil c u)⟩
    · simp [cut, hs] at h
  | cons c s ih =>
    by_cases hs : startsWith ps (c :: s) = true
    · rw [cut_of_startsWith hs] at h
      obtain rfl := Option.some.inj h
      exact ⟨c :: s, rfl, hs, rfl, fun d u hu => absurd (List.eq_nil_of_suffix_nil hu) (List.cons_ne_nil d u)⟩
    · have hno := Bool.eq_false_iff.mpr hs
      rw [cut_cons_of_not hno] at h
      obtain ⟨y, hy, rfl⟩ := Option.map_eq_some_iff.mp h
      obtain ⟨t, rfl, ht, hdrop, hfirst⟩ := ih hy
      refine ⟨t, rfl, ht, hdrop, fun d u hu => ?_⟩
      rcases List.suffix_cons_iff.mp hu with heq | hu
      · rw [heq]
        exact hno
      · exact hfirst d u hu

theorem cut_eq_none_iff : cut ps s = none ↔ ¬ Occurs ps s := by
  constructor
  · intro h hoccurs
    obtain ⟨t, ⟨w, rfl⟩, hword, _⟩ := hoccurs
    induction w with
    | nil => rw [List.nil_append, cut_of_startsWith hword] at h; cases h
    | cons c w ih =>
      by_cases hs : startsWith ps (c :: (w ++ t)) = true
      · rw [List.cons_append, cut_of_startsWith hs] at h
        cases h
      · rw [List.cons_append, cut_cons_of_not (Bool.eq_false_iff.mpr hs), Option.map_eq_none_iff] at h
        exact ih h
  · intro h
    by_contra hsome
    obtain ⟨x, hx⟩ := Option.ne_none_iff_exists'.mp hsome
    obtain ⟨t, hs, hword, _⟩ := cut_spec hx
    exact h ⟨t, ⟨x.1, hs.symm⟩, hword, trivial⟩

theorem cut_of_occurs (h : Occurs ps s) : ∃ x, cut ps s = some x := by
  by_contra hno
  rw [not_exists] at hno
  exact cut_eq_none_iff.mp (Option.eq_none_iff_forall_ne_some.mpr hno) h

instance : Decidable (Occurs ps s) :=
  decidable_of_iff ((cut ps s).isSome = true) (by rw [← Option.ne_none_iff_isSome, Ne, cut_eq_none_iff, not_not])

theorem cut_length (h : cut ps s = some x) : ps.length ≤ s.length := by
  obtain ⟨t, rfl, ht, _, _⟩ := cut_spec h
  rw [List.length_append]
  exact Nat.le_add_left_of_le (startsWith_length ht)

theorem cut_append (h : cut ps s = some x) (t : List α) : cut ps (s ++ t) = some (x.1, x.2 ++ t) := by
  induction s generalizing x with
  | nil =>
    obtain rfl : ps = [] := List.eq_nil_of_length_eq_zero (Nat.le_zero.mp (cut_length h))
    obtain rfl := Option.some.inj h
    exact cut_of_startsWith rfl
  | cons c s ih =>
    have hlength := cut_length h
    cases hs : startsWith ps (c :: s) with
    | true =>
      rw [cut_of_startsWith hs] at h
      obtain rfl := Option.some.inj h
      rw [cut_of_startsWith (startsWith_append hs t), List.drop_append_of_le_length hlength]
    | false =>
      rw [cut_cons_of_not hs] at h
      obtain ⟨y, hy, rfl⟩ := Option.map_eq_some_iff.mp h
      rw [List.cons_append, cut_cons_of_not, ih hy]
      · rfl
      · rw [← List.cons_append, startsWith_of_length hlength, hs]

/-- The word has no place that begins in `s`. -/
theorem cut_append_right (h : ∀ c u, c :: u <:+ s → startsWith ps (c :: u ++ t) = false) :
    cut ps (s ++ t) = (cut ps t).map fun x => (s ++ x.1, x.2) := by
  induction s with
  | nil =>
    rw [List.nil_append]
    cases cut ps t <;> rfl
  | cons c s ih =>
    have hno : startsWith ps (c :: (s ++ t)) = false := h c s (List.suffix_refl _)
    rw [List.cons_append, cut_cons_of_not hno, ih fun d u hu => h d u (hu.trans (List.suffix_cons c s)),
      Option.map_map]
    rfl

end

/-! ## Occurrences -/

section
variable {ps : List (α → Bool)} {K : List α → Prop} {s t : List α}

theorem occursThen_of_suffix (h : s <:+ t) (hs : OccursThen ps K s) : OccursThen ps K t := by
  obtain ⟨u, hu, hword⟩ := hs
  exact ⟨u, hu.trans h, hword⟩

theorem occursThen_append (h : OccursThen ps K s) (t : List α) (hK : ∀ u, K u → K (u ++ t)) :
    OccursThen ps K (s ++ t) := by
  obtain ⟨u, ⟨v, rfl⟩, hword, hthen⟩ := h
  refine ⟨u ++ t, ⟨v, (List.append_assoc v u t).symm⟩, startsWith_append hword t, ?_⟩
  rw [List.drop_append_of_le_length (startsWith_length hword)]
  exact hK _ hthen

theorem occurs_append (h : Occurs ps s) (t : List α) : Occurs ps (s ++ t) :=
  occursThen_append h t fun _ _ => trivial

theorem not_occurs_of_class {p : α → Bool} (hp : p ∈ ps) (h : ∀ c ∈ s, p c = false) : ¬ Occurs ps s := by
  intro hoccurs
  obtain ⟨t, ht, hword, _⟩ := hoccurs
  obtain ⟨c, hc, hpc⟩ := exists_mem_of_startsWith hp hword
  rw [h c (ht.mem hc)] at hpc
  cases hpc

/-- No character of `s` begins the word. -/
theorem occursThen_append_right (h : ∀ c ∈ s, ∀ p ∈ ps.head?, p c = false) (hps : ps ≠ [])
    (ht : OccursThen ps K (s ++ t)) : OccursThen ps K t := by
  induction s with
  | nil => exact ht
  | cons c s ih =>
    rw [List.forall_mem_cons] at h
    obtain ⟨u, hu, hword, hthen⟩ := ht
    rcases List.suffix_cons_iff.mp hu with rfl | hu
    · rw [startsWith_cons_false h.1 hps] at hword
      cases hword
    · exact ih h.2 ⟨u, hu, hword, hthen⟩

theorem occursThen_of_append_singleton {c : α} (hc : ∀ p ∈ ps, p c = false) (hps : ps ≠ [])
    (hK : ∀ u, K (u ++ [c]) → K u) (h : OccursThen ps K (s ++ [c])) : OccursThen ps K s := by
  obtain ⟨t, ht, hword, hthen⟩ := h
  rcases List.eq_nil_or_concat t with rfl | ⟨u, d, rfl⟩
  · cases ps with
    | nil => exact absurd rfl hps
    | cons p ps => cases hword
  · obtain ⟨v, hv⟩ := ht
    rw [List.concat_eq_append, ← List.append_assoc] at hv
    obtain ⟨rfl, hd⟩ := List.append_inj' hv rfl
    obtain rfl := List.singleton_inj.mp hd
    rw [List.concat_eq_append, startsWith_append_cons hc] at hword
    rw [List.concat_eq_append, List.drop_append_of_le_length (startsWith_length hword)] at hthen
    exact ⟨u, List.suffix_append v u, hword, hK _ hthen⟩

theorem occurs_of_append_singleton {c : α} (hc : ∀ p ∈ ps, p c = false) (hps : ps ≠ []) :
    Occurs ps (s ++ [c]) → Occurs ps s :=
  occursThen_of_append_singleton hc hps fun _ _ => trivial

end

/-! ## Deleting pieces -/

section
variable {len : List α → Nat} {s t : List α}

theorem deleteFrom_eq (len : List α → Nat) (n : Nat) (s : List α) : deleteFrom len n s = delete len (s.drop n) := by
  induction n generalizing s with
  | zero => rfl
  | succ n ih =>
    cases s with
    | nil => rfl
    | cons c s => exact ih s

theorem delete_keep {c : α} (h : len (c :: s) = 0) : delete len (c :: s) = c :: delete len s := by
  unfold delete
  rw [deleteFrom, h]

theorem delete_skip (hpos : 0 < len s) : delete len s = delete len (s.drop (len s)) := by
  cases s with
  | nil => rw [List.drop_nil]
  | cons c s =>
    obtain ⟨n, hn⟩ := Nat.exists_eq_add_one.mpr hpos
    rw [hn]
    show deleteFrom len 0 (c :: s) = _
    rw [deleteFrom, hn]
    exact deleteFrom_eq len n s

theorem delete_sublist (s : List α) : (delete len s).Sublist s := by
  induction hn : s.length using Nat.strong_induction_on generalizing s with
  | _ n ih =>
    cases s with
    | nil => exact List.Sublist.refl _
    | cons c s =>
      by_cases hlen : len (c :: s) = 0
      · rw [delete_keep hlen]
        exact (ih s.length (by rw [← hn]; exact Nat.lt_succ_self _) s rfl).cons_cons c
      · have hpos := Nat.pos_of_ne_zero hlen
        rw [delete_skip hpos]
        have hshort : ((c :: s).drop (len (c :: s))).length < n := by
          rw [← hn, List.length_drop]
          exact Nat.sub_lt (Nat.succ_pos _) hpos
        exact (ih _ hshort _ rfl).trans (List.drop_sublist _ _)

theorem delete_eq_self (h : ∀ c u, c :: u <:+ s → len (c :: u) = 0) : delete len s = s := by
  induction s with
  | nil => rfl
  | cons c s ih =>
    rw [delete_keep (h c s (List.suffix_refl _)), ih fun d u hu => h d u (hu.trans (List.suffix_cons c s))]

theorem delete_word_of_not {ps : List (α → Bool)} (h : ¬ Occurs ps s) :
    delete (fun s => if startsWith ps s then ps.length else 0) s = s := by
  exact delete_eq_self fun c u hu => if_neg fun hword => h ⟨c :: u, hu, hword, trivial⟩

/-- Every piece begins with a character of the class, so that leaving out a
piece leaves out one of them. -/
theorem countP_delete_lt {p : α → Bool} (hp : ∀ c u, 0 < len (c :: u) → p c = true)
    (h : ∃ c u, c :: u <:+ s ∧ 0 < len (c :: u)) : (delete len s).countP p < s.countP p := by
  induction s with
  | nil =>
    obtain ⟨c, u, hu, _⟩ := h
    exact absurd (List.eq_nil_of_suffix_nil hu) (List.cons_ne_nil c u)
  | cons c s ih =>
    by_cases hlen : 0 < len (c :: s)
    · obtain ⟨n, hn⟩ := Nat.exists_eq_add_one.mpr hlen
      have hrest : (delete len (s.drop n)).Sublist s := (delete_sublist _).trans (List.drop_sublist n s)
      rw [delete_skip hlen, hn, List.drop_succ_cons, List.countP_cons_of_pos (hp c s hlen)]
      exact Nat.lt_succ_of_le (hrest.countP_le)
    · obtain ⟨d, u, hu, hpos⟩ := h
      have hlater : d :: u <:+ s := by
        rcases List.suffix_cons_iff.mp hu with heq | hu
        · rw [heq] at hpos
          exact absurd hpos hlen
        · exact hu
      rw [delete_keep (Nat.eq_zero_of_not_pos hlen), List.countP_cons, List.countP_cons]
      exact Nat.add_lt_add_right (ih ⟨d, u, hlater, hpos⟩) _

/-- Pieces that begin in `s` end there, whatever follows. -/
theorem delete_append (h : ∀ c u, c :: u <:+ s → len (c :: u ++ t) = len (c :: u) ∧ len (c :: u) ≤ u.length + 1) :
    delete len (s ++ t) = delete len s ++ delete len t := by
  induction hn : s.length using Nat.strong_induction_on generalizing s with
  | _ n ih =>
    cases s with
    | nil => rfl
    | cons c s =>
      obtain ⟨hsame, hle⟩ := h c s (List.suffix_refl _)
      have hsuffix : ∀ u, u <:+ c :: s → u.length < n → delete len (u ++ t) = delete len u ++ delete len t :=
        fun u hu hlt => ih u.length hlt (fun d v hv => h d v (hv.trans hu)) rfl
      by_cases hlen : len (c :: s) = 0
      · rw [delete_keep hlen, List.cons_append, delete_keep (by rw [← List.cons_append, hsame, hlen]),
          hsuffix s (List.suffix_cons c s) (by rw [← hn]; exact Nat.lt_succ_self _)]
        rfl
      · have hpos := Nat.pos_of_ne_zero hlen
        rw [delete_skip (hsame ▸ hpos), hsame, List.drop_append_of_le_length hle, delete_skip hpos,
          hsuffix _ (List.drop_suffix _ _)]
        rw [← hn, List.length_drop]
        exact Nat.sub_lt (Nat.succ_pos _) hpos

end

end Search
