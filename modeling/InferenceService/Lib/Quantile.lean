import Mathlib.Algebra.Order.Floor.Ring
import Mathlib.Algebra.Order.Floor.Semiring
import Mathlib.Data.List.GetD
import Mathlib.Data.List.Sort
import Mathlib.Order.Bounds.Basic
import Mathlib.Tactic.Linarith

/-!
# Quantiles of a sorted list

Two notions: the value at a rational place, linear between the entries, and the
entry of a rank, which is the least one that enough entries do not exceed.
-/

namespace Quantile

/-! ## Interpolation -/

section
variable {α : Type} [Field α] [LinearOrder α] [IsStrictOrderedRing α] [FloorRing α]

/-- The function that is linear between the points of a sequence. -/
def interpolate (f : ℕ → α) (x : α) : α := f ⌊x⌋₊ + (f (⌊x⌋₊ + 1) - f ⌊x⌋₊) * (x - ⌊x⌋₊)

variable {f : ℕ → α} {x y : α}

theorem interpolate_natCast (f : ℕ → α) (n : ℕ) : interpolate f (n : α) = f n := by
  simp [interpolate]

theorem le_interpolate (hf : Monotone f) (hx : 0 ≤ x) : f ⌊x⌋₊ ≤ interpolate f x := by
  have hstep : 0 ≤ f (⌊x⌋₊ + 1) - f ⌊x⌋₊ := sub_nonneg.mpr (hf (Nat.le_succ _))
  have hweight : 0 ≤ x - ⌊x⌋₊ := sub_nonneg.mpr (Nat.floor_le hx)
  exact le_add_of_nonneg_right (mul_nonneg hstep hweight)

theorem interpolate_le (hf : Monotone f) : interpolate f x ≤ f (⌊x⌋₊ + 1) := by
  have hstep : 0 ≤ f (⌊x⌋₊ + 1) - f ⌊x⌋₊ := sub_nonneg.mpr (hf (Nat.le_succ _))
  have hweight : x - ⌊x⌋₊ ≤ 1 := by
    have := (Nat.lt_floor_add_one x).le
    linarith
  have := mul_le_mul_of_nonneg_left hweight hstep
  unfold interpolate
  linarith

theorem interpolate_mono (hf : Monotone f) (hx : 0 ≤ x) (hxy : x ≤ y) : interpolate f x ≤ interpolate f y := by
  rcases (Nat.floor_mono hxy).eq_or_lt with hfloor | hfloor
  · have hstep : 0 ≤ f (⌊y⌋₊ + 1) - f ⌊y⌋₊ := sub_nonneg.mpr (hf (Nat.le_succ _))
    have := mul_le_mul_of_nonneg_left (sub_le_sub_right hxy (⌊y⌋₊ : α)) hstep
    unfold interpolate
    rw [hfloor]
    linarith
  · calc interpolate f x
        ≤ f (⌊x⌋₊ + 1) := interpolate_le hf
      _ ≤ f ⌊y⌋₊ := hf hfloor
      _ ≤ interpolate f y := le_interpolate hf (hx.trans hxy)

end

/-! ## Entries of a sorted list -/

/-- The entries as a sequence; the last one repeats. -/
def entry {α : Type} (s : List α) (d : α) (i : ℕ) : α := s.getD (min i (s.length - 1)) d

section
variable {α : Type} {s : List α}

theorem entry_of_lt {i : ℕ} (hi : i < s.length) (d : α) : entry s d i = s[i] := by
  have hmin : min i (s.length - 1) = i := by omega
  simp [entry, hmin, hi]

theorem entry_mem (hs : s ≠ []) (d : α) (i : ℕ) : entry s d i ∈ s := by
  have hpos := List.length_pos_of_ne_nil hs
  have hlt : min i (s.length - 1) < s.length := by omega
  unfold entry
  rw [List.getD_eq_getElem _ _ hlt]
  exact List.getElem_mem hlt

variable [LinearOrder α]

theorem entry_mono (hs : s.SortedLE) (d : α) : Monotone (entry s d) := by
  intro i j hij
  by_cases hnil : s = []
  · simp [entry, hnil]
  · have hpos := List.length_pos_of_ne_nil hnil
    have hi : min i (s.length - 1) < s.length := by omega
    have hj : min j (s.length - 1) < s.length := by omega
    unfold entry
    rw [List.getD_eq_getElem _ _ hi, List.getD_eq_getElem _ _ hj]
    exact hs.getElem_le_getElem_of_le (by omega)

theorem entry_zero_isLeast (hs : s.SortedLE) (hne : s ≠ []) (d : α) : IsLeast {x | x ∈ s} (entry s d 0) := by
  refine ⟨entry_mem hne d 0, ?_⟩
  intro x hx
  obtain ⟨i, hi, rfl⟩ := List.getElem_of_mem hx
  rw [← entry_of_lt hi d]
  exact entry_mono hs d (Nat.zero_le i)

theorem entry_last_isGreatest (hs : s.SortedLE) (hne : s ≠ []) (d : α) :
    IsGreatest {x | x ∈ s} (entry s d (s.length - 1)) := by
  refine ⟨entry_mem hne d _, ?_⟩
  intro x hx
  obtain ⟨i, hi, rfl⟩ := List.getElem_of_mem hx
  rw [← entry_of_lt hi d]
  exact entry_mono hs d (by omega)

/-- The entry of a rank is the least one that so many entries do not exceed. -/
theorem getElem_isLeast (hs : s.SortedLE) {k : ℕ} (hk : k < s.length) :
    IsLeast {x | x ∈ s ∧ k < s.countP fun y => y ≤ x} s[k] := by
  constructor
  · refine ⟨List.getElem_mem hk, ?_⟩
    have htake : (s.take (k + 1)).countP (fun y => y ≤ s[k]) = k + 1 := by
      have hall : ∀ y ∈ s.take (k + 1), decide (y ≤ s[k]) = true := by
        intro y hy
        obtain ⟨i, hi, rfl⟩ := List.getElem_of_mem hy
        rw [List.getElem_take]
        rw [List.length_take] at hi
        exact decide_eq_true (hs.getElem_le_getElem_of_le (by omega))
      rw [List.countP_eq_length.mpr hall, List.length_take]
      omega
    have hsub := (List.take_sublist (k + 1) s).countP_le (p := fun y => decide (y ≤ s[k]))
    omega
  · intro x hx
    obtain ⟨_, hcount⟩ := hx
    by_contra hlt
    have hdrop : (s.drop k).countP (fun y => y ≤ x) = 0 := by
      rw [List.countP_eq_zero]
      intro y hy
      obtain ⟨i, hi, rfl⟩ := List.getElem_of_mem hy
      rw [List.getElem_drop, decide_eq_true_iff]
      have hki : k + i < s.length := by
        rw [List.length_drop] at hi
        omega
      have hle : s[k] ≤ s[k + i] := hs.getElem_le_getElem_of_le (Nat.le_add_right k i)
      exact fun h => hlt (hle.trans h)
    have hsplit : s.countP (fun y => y ≤ x) =
        (s.take k).countP (fun y => y ≤ x) + (s.drop k).countP (fun y => y ≤ x) := by
      rw [← List.countP_append, List.take_append_drop]
    have hle : (s.take k).countP (fun y => y ≤ x) ≤ k := List.countP_le_length.trans (List.length_take_le k s)
    omega

end

end Quantile
