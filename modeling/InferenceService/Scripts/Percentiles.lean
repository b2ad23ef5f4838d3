import InferenceService.Lib.Quantile
import InferenceService.Scripts.Requests

/-!
# The percentile functions

Four scripts interpolate between the sorted samples, three take the sample of a
rank. Samples and positions are rationals.
-/

namespace InferenceService

open Python (item IndexError)
open Quantile

def sorted (values : List ℚ) : List ℚ := values.insertionSort (· ≤ ·)

/-! ## `run_gsm8k_full_benchmark.py` -/

namespace Gsm8k

def percentile (values : List ℚ) (p : ℚ) : Except IndexError ℚ :=
  if values = [] then .ok 0
  else do
    let valuesSorted := sorted values
    if valuesSorted.length = 1 then item valuesSorted 0
    else
      let rank : ℚ := (valuesSorted.length - 1) * p
      let lower := Python.trunc rank
      let upper := min (lower + 1) (valuesSorted.length - 1)
      let weight := rank - lower
      let low ← item valuesSorted lower
      let high ← item valuesSorted upper
      return low * (1 - weight) + high * weight

end Gsm8k

/-! ## `run_bagel_workload_manifest.py` -/

namespace BagelWorkload

def percentile (values : List ℚ) (quantile : ℚ) : Except IndexError (Option ℚ) :=
  if values = [] then .ok none
  else do
    let values := sorted values
    if values.length = 1 then
      let value ← item values 0
      return some value
    else
      let position : ℚ := (values.length - 1) * quantile
      let lower := Python.trunc position
      let upper := min (lower + 1) (values.length - 1)
      let fraction := position - lower
      let low ← item values lower
      let high ← item values upper
      return some (low + (high - low) * fraction)

end BagelWorkload

/-! ## `analyze_benchmark.py` -/

namespace AnalyzeBenchmark

def percentile (values : List ℚ) (p : ℚ) : Except IndexError (Option ℚ) :=
  if values = [] then .ok none
  else do
    let sortedValues := sorted values
    let k : ℚ := (sortedValues.length - 1) * (p / 100)
    let lower := Python.trunc k
    let upper := min (lower + 1) (sortedValues.length - 1)
    if lower = upper then
      let value ← item sortedValues lower
      return some value
    else
      let weight := k - lower
      let low ← item sortedValues lower
      let high ← item sortedValues upper
      return some (low * (1 - weight) + high * weight)

end AnalyzeBenchmark

/-! ## The load tests -/

/-- The index for a position among the samples. -/
def rankIndex (x : ℚ) : Int := max 0 (⌈x⌉ - 1)

/-- `place` gives the position for the number of samples. -/
def rankedSample (place : ℚ → ℚ) (values : List ℚ) : Except IndexError (Option ℚ) :=
  if values = [] then .ok none
  else do
    let ordered := sorted values
    let value ← item ordered (rankIndex (place ordered.length))
    return some value

def ValidateLoadProfile.percentile (values : List ℚ) (ratio : ℚ) : Except IndexError (Option ℚ) :=
  rankedSample (fun length => length * ratio) values

def SummarizeJtl.percentile (values : List ℚ) (ratio : ℚ) : Except IndexError (Option ℚ) :=
  rankedSample (fun length => length * ratio) values

def GatewayCapacity.percentile (values : List ℚ) (percentileValue : ℚ) : Except IndexError (Option ℚ) :=
  rankedSample (fun length => percentileValue * length) values

/-! ## Interpolated percentiles -/

def position (v : List ℚ) (p : ℚ) : ℚ := (v.length - 1) * p

def IndicesInRange (v : List ℚ) (x : ℚ) : Prop :=
  (0 ≤ Python.trunc x ∧ Python.trunc x < v.length) ∧
    0 ≤ min (Python.trunc x + 1) (v.length - 1) ∧ min (Python.trunc x + 1) ((v.length : Int) - 1) < v.length

section
variable {v w : List ℚ} {p : ℚ}

theorem sortedLE_sorted (v : List ℚ) : (sorted v).SortedLE := List.sortedLE_insertionSort

theorem length_sorted (v : List ℚ) : (sorted v).length = v.length := List.length_insertionSort _ v

theorem sorted_perm_eq (h : v.Perm w) : sorted v = sorted w :=
  List.Perm.eq_of_sortedLE (sortedLE_sorted v) (sortedLE_sorted w)
    ((List.perm_insertionSort _ v).trans (h.trans (List.perm_insertionSort _ w).symm))

theorem position_eq (v : List ℚ) (p : ℚ) : ((sorted v).length - 1 : ℚ) * p = position v p := by
  rw [length_sorted]
  rfl

theorem trunc_eq_floor {x : ℚ} (hx : 0 ≤ x) : Python.trunc x = ⌊x⌋₊ := by
  rw [Python.trunc, if_pos hx, Int.natCast_floor_eq_floor hx]

theorem cast_trunc {x : ℚ} (hx : 0 ≤ x) : (Python.trunc x : ℚ) = ⌊x⌋₊ := by
  rw [trunc_eq_floor hx, Int.cast_natCast]

/-- The value that is linear between the sorted samples. -/
def interpolated (v : List ℚ) (x : ℚ) : ℚ := interpolate (entry (sorted v) 0) x

theorem interpolated_eq (v : List ℚ) (x : ℚ) :
    interpolated v x = entry (sorted v) 0 ⌊x⌋₊ * (1 - (x - ⌊x⌋₊)) +
      entry (sorted v) 0 (⌊x⌋₊ + 1) * (x - ⌊x⌋₊) := by
  unfold interpolated interpolate
  ring

theorem percentile_def (v : List ℚ) (p : ℚ) :
    percentile v p = match sorted v with
      | [] => 0
      | [value] => value
      | _ =>
        let index : ℚ := ((sorted v).length - 1) * p
        let lower := (Python.trunc index).toNat
        let upper := min (lower + 1) ((sorted v).length - 1)
        let weight : ℚ := index - lower
        (sorted v).getD lower 0 * (1 - weight) + (sorted v).getD upper 0 * weight := rfl

theorem interpolated_of_singleton {value : ℚ} (h : sorted v = [value]) (x : ℚ) : interpolated v x = value := by
  have hentry : ∀ i, entry (sorted v) 0 i = value := by
    intro i
    simp [entry, h]
  rw [interpolated_eq, hentry, hentry]
  ring

variable (hv : v ≠ []) (hp0 : 0 ≤ p) (hp1 : p ≤ 1)
include hv hp0

theorem position_nonneg : 0 ≤ position v p := by
  have hlength : (1 : ℚ) ≤ v.length := by exact_mod_cast List.length_pos_of_ne_nil hv
  exact mul_nonneg (by linarith) hp0

theorem item_upper :
    item (sorted v) (min (Python.trunc (position v p) + 1) ((sorted v).length - 1)) =
      .ok (entry (sorted v) 0 (⌊position v p⌋₊ + 1)) := by
  have hpos : 0 < (sorted v).length := by
    rw [length_sorted]
    exact List.length_pos_of_ne_nil hv
  have hlt : min (⌊position v p⌋₊ + 1) ((sorted v).length - 1) < (sorted v).length := by omega
  have hcast : min ((⌊position v p⌋₊ : Int) + 1) ((sorted v).length - 1) =
      (min (⌊position v p⌋₊ + 1) ((sorted v).length - 1) : ℕ) := by omega
  rw [trunc_eq_floor (position_nonneg hv hp0), hcast, Python.item_of_lt hlt]
  unfold entry
  rw [List.getD_eq_getElem _ _ hlt]

include hp1

theorem floor_position_lt : ⌊position v p⌋₊ < v.length := by
  have hlength : (1 : ℚ) ≤ v.length := by exact_mod_cast List.length_pos_of_ne_nil hv
  have hle : position v p ≤ v.length - 1 := by
    have := mul_le_mul_of_nonneg_left hp1 (by linarith : (0 : ℚ) ≤ v.length - 1)
    unfold position
    linarith
  rw [Nat.floor_lt (position_nonneg hv hp0)]
  linarith

theorem indicesInRange_position : IndicesInRange v (position v p) := by
  have hlt := floor_position_lt hv hp0 hp1
  unfold IndicesInRange
  rw [trunc_eq_floor (position_nonneg hv hp0)]
  omega

theorem item_lower :
    item (sorted v) (Python.trunc (position v p)) = .ok (entry (sorted v) 0 ⌊position v p⌋₊) := by
  have hlt : ⌊position v p⌋₊ < (sorted v).length := by
    rw [length_sorted]
    exact floor_position_lt hv hp0 hp1
  rw [trunc_eq_floor (position_nonneg hv hp0), Python.item_of_lt hlt, entry_of_lt hlt]

/-! ## The four copies agree -/

theorem percentile_eq : percentile v p = interpolated v (position v p) := by
  have hlt : ⌊position v p⌋₊ < (sorted v).length := by
    rw [length_sorted]
    exact floor_position_lt hv hp0 hp1
  rw [percentile_def]
  split
  · rename_i hnil
    rw [hnil] at hlt
    cases hlt
  · rename_i value hsingle
    exact (interpolated_of_singleton hsingle _).symm
  · have hentry : (sorted v).getD ⌊position v p⌋₊ 0 = entry (sorted v) 0 ⌊position v p⌋₊ := by
      rw [List.getD_eq_getElem _ _ hlt, entry_of_lt hlt]
    simp only [position_eq, trunc_eq_floor (position_nonneg hv hp0), Int.toNat_natCast, hentry]
    rw [interpolated_eq]
    rfl

theorem gsm8k_percentile_eq : Gsm8k.percentile v p = .ok (interpolated v (position v p)) := by
  unfold Gsm8k.percentile
  simp only [if_neg hv]
  by_cases hone : (sorted v).length = 1
  · obtain ⟨value, hsingle⟩ := List.length_eq_one_iff.mp hone
    rw [if_pos hone, interpolated_of_singleton hsingle, hsingle]
    rfl
  · rw [if_neg hone, interpolated_eq]
    simp only [position_eq, item_lower hv hp0 hp1, item_upper hv hp0, cast_trunc (position_nonneg hv hp0)]
    rfl

theorem bagel_percentile_eq : BagelWorkload.percentile v p = .ok (some (interpolated v (position v p))) := by
  unfold BagelWorkload.percentile
  simp only [if_neg hv]
  by_cases hone : (sorted v).length = 1
  · obtain ⟨value, hsingle⟩ := List.length_eq_one_iff.mp hone
    rw [if_pos hone, interpolated_of_singleton hsingle, hsingle]
    rfl
  · rw [if_neg hone]
    simp only [position_eq, item_lower hv hp0 hp1, item_upper hv hp0, cast_trunc (position_nonneg hv hp0)]
    rfl

/-- The early return for equal indices is what the sum would be there. -/
theorem analyze_percentile_eq : AnalyzeBenchmark.percentile v (100 * p) = .ok (some (interpolated v (position v p))) := by
  have hpercent : 100 * p / 100 = p := by ring
  have hlower := item_lower hv hp0 hp1
  have hupper := item_upper hv hp0
  unfold AnalyzeBenchmark.percentile
  simp only [if_neg hv, hpercent, position_eq]
  by_cases hsame : Python.trunc (position v p) = min (Python.trunc (position v p) + 1) ((sorted v).length - 1)
  · rw [if_pos hsame, hlower]
    rw [← hsame, hlower] at hupper
    have hflat := Except.ok.inj hupper
    rw [interpolated_eq, ← hflat, ← mul_add, sub_add_cancel, mul_one]
    rfl
  · rw [if_neg hsame, interpolated_eq]
    simp only [hlower, hupper, cast_trunc (position_nonneg hv hp0)]
    rfl

end

/-! ## Soundness -/

section
variable {v w : List ℚ}

theorem interpolated_perm (h : v.Perm w) (x : ℚ) : interpolated v x = interpolated w x := by
  unfold interpolated
  rw [sorted_perm_eq h]

theorem sorted_ne_nil (hv : v ≠ []) : sorted v ≠ [] := by
  intro hnil
  have := length_sorted v
  rw [hnil] at this
  exact hv (List.eq_nil_of_length_eq_zero this.symm)

theorem mem_sorted {x : ℚ} : x ∈ sorted v ↔ x ∈ v := List.mem_insertionSort _

theorem interpolated_zero_isLeast (hv : v ≠ []) : IsLeast {x | x ∈ v} (interpolated v (position v 0)) := by
  have hleast := entry_zero_isLeast (sortedLE_sorted v) (sorted_ne_nil hv) 0
  have hzero : position v 0 = ((0 : ℕ) : ℚ) := by simp [position]
  simp only [mem_sorted] at hleast
  unfold interpolated
  rw [hzero, interpolate_natCast]
  exact hleast

theorem interpolated_one_isGreatest (hv : v ≠ []) : IsGreatest {x | x ∈ v} (interpolated v (position v 1)) := by
  have hgreatest := entry_last_isGreatest (sortedLE_sorted v) (sorted_ne_nil hv) 0
  have hpos := List.length_pos_of_ne_nil hv
  have hone : position v 1 = ((v.length - 1 : ℕ) : ℚ) := by
    rw [Nat.cast_sub hpos]
    simp [position]
  simp only [mem_sorted, length_sorted] at hgreatest
  unfold interpolated
  rw [hone, interpolate_natCast]
  exact hgreatest

theorem interpolated_mono (hv : v ≠ []) {p q : ℚ} (hp0 : 0 ≤ p) (hpq : p ≤ q) :
    interpolated v (position v p) ≤ interpolated v (position v q) := by
  have hlength : (1 : ℚ) ≤ v.length := by exact_mod_cast List.length_pos_of_ne_nil hv
  have hposition : position v p ≤ position v q := mul_le_mul_of_nonneg_left hpq (by linarith)
  exact interpolate_mono (entry_mono (sortedLE_sorted v) 0) (position_nonneg hv hp0) hposition

end

/-- The copies return one value without an index outside the list; it is the
least sample at 0, the greatest at 1, monotone between, and the same for every
order of the samples. -/
theorem percentile_copies {v : List ℚ} (hv : v ≠ []) :
    (∀ p, 0 ≤ p → p ≤ 1 →
      (Gsm8k.percentile v p = .ok (percentile v p) ∧ BagelWorkload.percentile v p = .ok (some (percentile v p)) ∧
        AnalyzeBenchmark.percentile v (100 * p) = .ok (some (percentile v p))) ∧
      (IndicesInRange v ((v.length - 1) * p) ∧ IndicesInRange v ((v.length - 1) * (100 * p / 100))) ∧
      (∀ w, w.Perm v → percentile w p = percentile v p) ∧
      ∀ lo hi, IsLeast {x | x ∈ v} lo → IsGreatest {x | x ∈ v} hi → lo ≤ percentile v p ∧ percentile v p ≤ hi) ∧
    (∀ p q, 0 ≤ p → p ≤ q → q ≤ 1 → percentile v p ≤ percentile v q) ∧
    IsLeast {x | x ∈ v} (percentile v 0) ∧ IsGreatest {x | x ∈ v} (percentile v 1) := by
  have hleast := interpolated_zero_isLeast hv
  have hgreatest := interpolated_one_isGreatest hv
  rw [← percentile_eq hv le_rfl zero_le_one] at hleast
  rw [← percentile_eq hv zero_le_one le_rfl] at hgreatest
  have hmono : ∀ p q, 0 ≤ p → p ≤ q → q ≤ 1 → percentile v p ≤ percentile v q := by
    intro p q hp hpq hq
    rw [percentile_eq hv hp (hpq.trans hq), percentile_eq hv (hp.trans hpq) hq]
    exact interpolated_mono hv hp hpq
  refine ⟨fun p hp0 hp1 => ⟨?_, ?_, ?_, ?_⟩, hmono, hleast, hgreatest⟩
  · rw [percentile_eq hv hp0 hp1]
    exact ⟨gsm8k_percentile_eq hv hp0 hp1, bagel_percentile_eq hv hp0 hp1, analyze_percentile_eq hv hp0 hp1⟩
  · have hpercent : 100 * p / 100 = p := by ring
    rw [hpercent]
    exact ⟨indicesInRange_position hv hp0 hp1, indicesInRange_position hv hp0 hp1⟩
  · intro w hw
    have hw' : w ≠ [] := fun hnil => hv (List.perm_nil.mp (hnil ▸ hw).symm)
    have hposition : position w p = position v p := by
      unfold position
      rw [hw.length_eq]
    rw [percentile_eq hv hp0 hp1, percentile_eq hw' hp0 hp1, hposition, interpolated_perm hw]
  · intro lo hi hlo hhi
    rw [hlo.unique hleast, hhi.unique hgreatest]
    exact ⟨hmono 0 p le_rfl hp0 hp1, hmono p 1 hp0 hp1 le_rfl⟩

theorem percentile_copies_latencies :
    percentile [3, 1, 2] 0 ≤ percentile [3, 1, 2] (1 / 2) ∧
      Gsm8k.percentile [3, 1, 2] (1 / 2) = .ok (percentile [3, 1, 2] (1 / 2)) := by
  obtain ⟨hall, hmono, _⟩ := percentile_copies (v := [3, 1, 2]) (by decide)
  exact ⟨hmono 0 (1 / 2) le_rfl (by norm_num) (by norm_num), (hall (1 / 2) (by norm_num) (by norm_num)).1.1⟩

/-! ## Nearest rank -/

section
variable {v : List ℚ} {ratio : ℚ} (hv : v ≠ []) (hr0 : 0 < ratio) (hr1 : ratio ≤ 1)
include hv hr0

theorem ceil_pos : 0 < ⌈v.length * ratio⌉ := by
  have hlength : (1 : ℚ) ≤ v.length := by exact_mod_cast List.length_pos_of_ne_nil hv
  exact Int.ceil_pos.mpr (mul_pos (by linarith) hr0)

theorem rankIndex_eq : rankIndex (v.length * ratio) = (⌈v.length * ratio⌉.toNat - 1 : ℕ) := by
  have hpos := ceil_pos hv hr0
  unfold rankIndex
  omega

include hr1

theorem rankIndex_lt : ⌈v.length * ratio⌉.toNat - 1 < v.length := by
  have hlength : (1 : ℚ) ≤ v.length := by exact_mod_cast List.length_pos_of_ne_nil hv
  have hpos := ceil_pos hv hr0
  have hle : ⌈v.length * ratio⌉ ≤ v.length := by
    rw [Int.ceil_le]
    have := mul_le_mul_of_nonneg_left hr1 (by linarith : (0 : ℚ) ≤ v.length)
    push_cast
    linarith
  omega

theorem rank_isLeast : ∃ x, item (sorted v) (rankIndex (v.length * ratio)) = .ok x ∧
    IsLeast {y | y ∈ v ∧ ratio * v.length ≤ (v.countP fun z => z ≤ y)} x := by
  have hlt : ⌈v.length * ratio⌉.toNat - 1 < (sorted v).length := by
    rw [length_sorted]
    exact rankIndex_lt hv hr0 hr1
  have hpos := ceil_pos hv hr0
  refine ⟨_, by rw [rankIndex_eq hv hr0, Python.item_of_lt hlt], ?_⟩
  have hset : {y | y ∈ v ∧ ratio * v.length ≤ (v.countP fun z => z ≤ y)} =
      {y | y ∈ sorted v ∧ ⌈v.length * ratio⌉.toNat - 1 < (sorted v).countP fun z => z ≤ y} := by
    ext y
    have hcount : (sorted v).countP (fun z => z ≤ y) = v.countP fun z => z ≤ y :=
      (List.perm_insertionSort _ v).countP_eq _
    have hceil : ratio * v.length ≤ (v.countP fun z => z ≤ y) ↔
        ⌈v.length * ratio⌉ ≤ ((v.countP fun z => z ≤ y : ℕ) : Int) := by
      rw [Int.ceil_le, mul_comm]
      push_cast
      exact Iff.rfl
    refine and_congr mem_sorted.symm ?_
    rw [hceil, hcount]
    omega
  rw [hset]
  exact getElem_isLeast (sortedLE_sorted v) hlt

end

/-- The three functions return the exact quantile, with an index in the list,
for every order of the samples. -/
theorem nearest_rank {v : List ℚ} {ratio : ℚ} (hv : v ≠ []) (hr0 : 0 < ratio) (hr1 : ratio ≤ 1) :
    (∃ x, IsLeast {y | y ∈ v ∧ ratio * v.length ≤ (v.countP fun z => z ≤ y)} x ∧ ∀ w, w.Perm v →
      ValidateLoadProfile.percentile w ratio = .ok (some x) ∧ SummarizeJtl.percentile w ratio = .ok (some x) ∧
        GatewayCapacity.percentile w ratio = .ok (some x)) ∧
      (0 ≤ rankIndex (v.length * ratio) ∧ rankIndex (v.length * ratio) < v.length) ∧
      0 ≤ rankIndex (ratio * v.length) ∧ rankIndex (ratio * v.length) < v.length := by
  have hrange : 0 ≤ rankIndex (v.length * ratio) ∧ rankIndex (v.length * ratio) < v.length := by
    have hlt := rankIndex_lt hv hr0 hr1
    rw [rankIndex_eq hv hr0]
    omega
  refine ⟨?_, hrange, by rwa [mul_comm]⟩
  obtain ⟨x, hx, hleast⟩ := rank_isLeast hv hr0 hr1
  refine ⟨x, hleast, fun w hw => ?_⟩
  have hw' : w ≠ [] := fun hnil => hv (List.perm_nil.mp (hnil ▸ hw).symm)
  have hranked : ∀ place : ℚ → ℚ, place v.length = v.length * ratio → rankedSample place w = .ok (some x) := by
    intro place hplace
    unfold rankedSample
    simp only [if_neg hw', sorted_perm_eq hw, length_sorted, hplace, hx]
    rfl
  exact ⟨hranked _ rfl, hranked _ rfl, hranked _ (mul_comm _ _)⟩

theorem nearest_rank_latencies :
    ∃ x : ℚ, IsLeast {y | y ∈ [3, 1, 2] ∧ (95 / 100 : ℚ) * [3, 1, 2].length ≤ ([3, 1, 2].countP fun z => z ≤ y)} x ∧
      SummarizeJtl.percentile [2, 3, 1] (95 / 100) = .ok (some x) := by
  obtain ⟨x, hx, hall⟩ := (nearest_rank (v := [3, 1, 2]) (by decide) (by norm_num : (0 : ℚ) < 95 / 100) (by norm_num)).1
  exact ⟨x, hx, (hall [2, 3, 1] (by decide)).2.1⟩

end InferenceService
