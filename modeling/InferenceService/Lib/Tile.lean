import Mathlib.Algebra.Order.Field.Basic
import Mathlib.Algebra.BigOperators.Group.List.Basic
import Mathlib.Data.List.Nodup
import Mathlib.Logic.Function.Basic

/-!
# Tiles

A program of a grid loads a tile of a fixed size under a mask, reduces it and
stores it under the mask. What the masked-out lanes do to the reductions, and
what a grid whose programs store to distinct addresses leaves in memory.
-/

namespace Tile

/-! ## Masked loads and reductions -/

section
variable {α : Type}

/-- `load(ptr + offset, mask=offset < size, other=0)`, lane by lane. -/
def load [Zero α] (size : Nat) (mem : Nat → α) (offset : Nat) : α := if offset < size then mem offset else 0

def lanes (block : Nat) (f : Nat → α) : List α := (List.range block).map f

theorem load_of_lt [Zero α] {size offset : Nat} (mem : Nat → α) (h : offset < size) : load size mem offset = mem offset :=
  if_pos h

theorem load_of_le [Zero α] {size offset : Nat} (mem : Nat → α) (h : size ≤ offset) : load size mem offset = 0 :=
  if_neg (not_lt.mpr h)

theorem lanes_inj {block : Nat} {f g : Nat → α} : lanes block f = lanes block g ↔ ∀ i < block, f i = g i := by
  unfold lanes
  rw [List.map_inj_left]
  simp only [List.mem_range]

theorem lanes_congr {block : Nat} {f g : Nat → α} (h : ∀ i < block, f i = g i) : lanes block f = lanes block g :=
  lanes_inj.mpr h

theorem lanes_add (size pad : Nat) (f : Nat → α) :
    lanes (size + pad) f = lanes size f ++ lanes pad fun i => f (size + i) := by
  unfold lanes
  rw [List.range_add, List.map_append, List.map_map]
  rfl

theorem mem_lanes {block : Nat} {f : Nat → α} {a : α} : a ∈ lanes block f ↔ ∃ i < block, f i = a := by
  unfold lanes
  simp only [List.mem_map, List.mem_range]

/-- Lanes that hold zero do not count in a sum. -/
theorem sum_padded [AddMonoid α] {size block : Nat} (hle : size ≤ block) {f : Nat → α}
    (h : ∀ i, size ≤ i → f i = 0) : (lanes block f).sum = (lanes size f).sum := by
  obtain ⟨pad, rfl⟩ := Nat.exists_eq_add_of_le hle
  rw [lanes_add, List.sum_append]
  have hzero : (lanes pad fun i => f (size + i)).sum = 0 := by
    apply List.sum_eq_zero
    intro a ha
    obtain ⟨i, _, rfl⟩ := mem_lanes.mp ha
    exact h _ (Nat.le_add_right _ _)
  rw [hzero, add_zero]

/-- The maximum of a list; of no elements it is zero. -/
def amax [LinearOrder α] [Zero α] (l : List α) : α := l.max?.getD 0

theorem amax_spec [LinearOrder α] [Zero α] {l : List α} (h : l ≠ []) : amax l ∈ l ∧ ∀ a ∈ l, a ≤ amax l := by
  unfold amax
  cases hm : l.max? with
  | none => exact absurd (List.max?_eq_none_iff.mp hm) h
  | some a => exact List.max?_eq_some_iff.mp hm

theorem le_amax_iff [LinearOrder α] [Zero α] {l : List α} (h : l ≠ []) {a : α} : a ≤ amax l ↔ ∃ b ∈ l, a ≤ b :=
  ⟨fun hle => ⟨amax l, (amax_spec h).1, hle⟩, fun ⟨b, hb, hab⟩ => le_trans hab ((amax_spec h).2 b hb)⟩

theorem lanes_ne_nil {block : Nat} (h : 1 ≤ block) (f : Nat → α) : lanes block f ≠ [] := by
  unfold lanes
  rw [Ne, List.map_eq_nil_iff, List.range_eq_nil]
  omega

/-- Lanes that hold zero do not count in the maximum of what is not negative. -/
theorem amax_padded [LinearOrder α] [Zero α] {size block : Nat} (hsize : 1 ≤ size) (hle : size ≤ block) {f : Nat → α}
    (hzero : ∀ i, size ≤ i → f i = 0) (hnonneg : ∀ i, 0 ≤ f i) : amax (lanes block f) = amax (lanes size f) := by
  have hsmall := amax_spec (lanes_ne_nil hsize f)
  have hbig := amax_spec (lanes_ne_nil (le_trans hsize hle) f)
  apply le_antisymm
  · obtain ⟨i, _, hi⟩ := mem_lanes.mp hbig.1
    rw [← hi]
    by_cases h : i < size
    · exact hsmall.2 _ (mem_lanes.mpr ⟨i, h, rfl⟩)
    · rw [hzero i (not_lt.mp h)]
      exact le_trans (hnonneg 0) (hsmall.2 _ (mem_lanes.mpr ⟨0, hsize, rfl⟩))
  · obtain ⟨i, hi, heq⟩ := mem_lanes.mp hsmall.1
    exact hbig.2 _ (mem_lanes.mpr ⟨i, lt_of_lt_of_le hi hle, heq⟩)

end

/-- A lower bound put on the dividend is the bound put on the quotient only
where neither matters. -/
theorem max_div_eq_iff {α : Type} [Field α] [LinearOrder α] [IsStrictOrderedRing α] {a c n : α} (hc : 0 < c)
    (hn : 1 < n) : max a c / n = max (a / n) c ↔ n * c ≤ a := by
  have hpos : 0 < n := lt_trans zero_lt_one hn
  have hlt : c / n < c := div_lt_self hc hn
  constructor
  · intro h
    by_contra hlow
    have hquot : a / n < c := (div_lt_iff₀ hpos).mpr (by rw [mul_comm]; exact not_le.mp hlow)
    have hmax : max a c / n < c := by
      rcases max_cases a c with ⟨heq, _⟩ | ⟨heq, _⟩ <;> rw [heq]
      · exact hquot
      · exact hlt
    exact absurd (le_max_right (a / n) c) (not_le.mpr (h ▸ hmax))
  · intro h
    have hca : c ≤ a := le_trans (le_of_lt (lt_mul_of_one_lt_left hc hn)) h
    rw [max_eq_left hca, max_eq_left ((le_div_iff₀ hpos).mpr (by rw [mul_comm]; exact h))]

/-! ## Stores of a grid -/

section
variable {α : Type}

def store (mem : Nat → α) (writes : List (Nat × α)) : Nat → α :=
  writes.foldl (fun mem w => Function.update mem w.1 w.2) mem

theorem store_of_notMem {writes : List (Nat × α)} {address : Nat} (h : address ∉ writes.map Prod.fst) (mem : Nat → α) :
    store mem writes address = mem address := by
  induction writes generalizing mem with
  | nil => rfl
  | cons w writes ih =>
    rw [List.map_cons, List.mem_cons, not_or] at h
    exact (ih h.2 _).trans (Function.update_of_ne h.1 _ _)

theorem store_of_mem {writes : List (Nat × α)} (hnodup : (writes.map Prod.fst).Nodup) {w : Nat × α} (hw : w ∈ writes)
    (mem : Nat → α) : store mem writes w.1 = w.2 := by
  induction writes generalizing mem with
  | nil => cases hw
  | cons v writes ih =>
    obtain ⟨hnot, hnodup⟩ := List.nodup_cons.mp hnodup
    rcases List.mem_cons.mp hw with rfl | hw
    · exact (store_of_notMem hnot _).trans (Function.update_self ..)
    · exact ih hnodup hw _

end

end Tile
