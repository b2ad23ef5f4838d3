import Mathlib.Algebra.Order.Floor.Ring
import Mathlib.Algebra.Order.Floor.Semifield
import Mathlib.Algebra.Order.Field.Basic
import Mathlib.Data.List.Pairwise
import Mathlib.Data.Rat.Floor
import Mathlib.Tactic.Linarith
import Mathlib.Tactic.Ring

/-!
# Events that keep a distance

Times of events, the most recent first. When any two of them are a distance
apart, a window of time holds only so many.
-/

def Spaced {α : Type} [Add α] [LE α] (d : α) (times : List α) : Prop := times.Pairwise fun t u => u + d ≤ t

namespace Spaced

section
variable {α : Type} [Add α] [LE α] {d t : α} {times : List α}

theorem nil : Spaced d ([] : List α) := List.Pairwise.nil

theorem cons (h : Spaced d times) (ht : ∀ u ∈ times, u + d ≤ t) : Spaced d (t :: times) :=
  List.pairwise_cons.mpr ⟨ht, h⟩

theorem sublist {times' : List α} (h : Spaced d times) (hs : times'.Sublist times) : Spaced d times' :=
  List.Pairwise.sublist hs h

end

section
variable {α : Type} [Field α] [LinearOrder α] [IsStrictOrderedRing α] {d e t : α} {times : List α}

theorem mono (h : Spaced d times) (he : e ≤ d) : Spaced e times := by
  apply List.Pairwise.imp _ h
  intro t u htu
  linarith

/-- The first event is later than the others by their number of distances. -/
theorem length_mul_le {a : α} (h : Spaced d (t :: times)) (ha : ∀ u ∈ t :: times, a ≤ u) :
    a + times.length * d ≤ t := by
  induction times generalizing t with
  | nil => simpa using ha t List.mem_cons_self
  | cons u times ih =>
    obtain ⟨hfirst, hrest⟩ := List.pairwise_cons.mp h
    have hu := hfirst u List.mem_cons_self
    have := ih hrest fun v hv => ha v (List.mem_cons_of_mem t hv)
    push_cast [List.length_cons]
    linarith

/-- A window of length `L` holds at most one event more than distances. -/
theorem countP_le [FloorRing α] (hd : 0 < d) (h : Spaced d times) (a L : α) :
    times.countP (fun t => decide (a ≤ t ∧ t ≤ a + L)) ≤ ⌊L / d⌋₊ + 1 := by
  rw [List.countP_eq_length_filter]
  have hin : ∀ t ∈ times.filter (fun t => decide (a ≤ t ∧ t ≤ a + L)), a ≤ t ∧ t ≤ a + L := by
    intro t ht
    simpa using (List.mem_filter.mp ht).2
  have hspaced := h.sublist (List.filter_sublist (p := fun t => decide (a ≤ t ∧ t ≤ a + L)))
  cases hw : times.filter (fun t => decide (a ≤ t ∧ t ≤ a + L)) with
  | nil => simp
  | cons t rest =>
    rw [hw] at hin hspaced
    have hlower := hspaced.length_mul_le fun u hu => (hin u hu).1
    have hupper := (hin t List.mem_cons_self).2
    have hfits : (rest.length : α) ≤ L / d := by
      rw [le_div_iff₀ hd]
      linarith
    exact Nat.succ_le_succ (Nat.le_floor hfits)

end

theorem countP_le_nat {times : List ℕ} {d : ℕ} (hd : 0 < d) (h : Spaced d times) (a L : ℕ) :
    times.countP (fun t => decide (a ≤ t ∧ t ≤ a + L)) ≤ L / d + 1 := by
  have hcast : Spaced (d : ℚ) (times.map (Nat.cast : ℕ → ℚ)) := by
    apply List.Pairwise.map
    · intro t u htu
      exact_mod_cast htu
    · exact h
  have hcount := hcast.countP_le (by exact_mod_cast hd) a L
  rw [List.countP_map, Nat.floor_div_eq_div] at hcount
  have hsame : ((fun t : ℚ => decide ((a : ℚ) ≤ t ∧ t ≤ a + L)) ∘ (Nat.cast : ℕ → ℚ)) =
      fun t => decide (a ≤ t ∧ t ≤ a + L) := by
    funext t
    rw [Function.comp, decide_eq_decide]
    norm_cast
  rwa [hsame] at hcount

end Spaced
