import Mathlib.Logic.Function.Basic
import Mathlib.Data.Option.Basic

/-!
# Holders of the keys of a store

Each holder has one key of a store or none. A key is in the store while somebody
holds it, and stays there when its holder leaves it behind.
-/

structure Holders (I K V : Type) where
  held : I → Option K
  store : K → Option V
  left : List K

namespace Holders

section
variable {I K V : Type}

structure Sound (h : Holders I K V) : Prop where
  stored : ∀ k, (h.store k).isSome = true ↔ (∃ i, h.held i = some k) ∨ k ∈ h.left
  alone : ∀ {i j k}, h.held i = some k → h.held j = some k → i = j
  kept : ∀ {i k}, h.held i = some k → k ∉ h.left

variable {h : Holders I K V} {i : I} {k : K}

theorem Sound.fresh (hs : h.Sound) (hk : h.store k = none) : (∀ j, h.held j ≠ some k) ∧ k ∉ h.left := by
  have hno : ¬ ((∃ j, h.held j = some k) ∨ k ∈ h.left) := by
    rw [← hs.stored, hk]
    simp
  exact ⟨fun j hj => hno (.inl ⟨j, hj⟩), fun hmem => hno (.inr hmem)⟩

section
variable [DecidableEq K]

def put (k : K) (v : V) (h : Holders I K V) : Holders I K V := { h with store := Function.update h.store k (some v) }

theorem Sound.put (hs : h.Sound) (hi : h.held i = some k) (v : V) : (h.put k v).Sound where
  stored k' := by
    by_cases hkk : k' = k
    · subst hkk
      simpa [Holders.put] using .inl ⟨i, hi⟩
    · simp only [Holders.put, Function.update_of_ne hkk]
      exact hs.stored k'
  alone := hs.alone
  kept := hs.kept

end

variable [DecidableEq I]

def leave (i : I) (k : K) (h : Holders I K V) : Holders I K V :=
  { h with held := Function.update h.held i none, left := k :: h.left }

theorem held_take (hi : h.held i = none) {j : I} {k' : K} :
    Function.update h.held i (some k) j = some k' ↔ (j = i ∧ k' = k) ∨ h.held j = some k' := by
  rw [Function.update_apply]
  by_cases hij : j = i
  · subst hij
    simp [hi, eq_comm]
  · simp [hij]

theorem Sound.held_release (hs : h.Sound) (hi : h.held i = some k) {j : I} {k' : K} :
    Function.update h.held i none j = some k' ↔ h.held j = some k' ∧ k' ≠ k := by
  rw [Function.update_apply]
  by_cases hij : j = i
  · subst hij
    simp [hi, eq_comm]
  · rw [if_neg hij]
    refine ⟨fun hj => ⟨hj, ?_⟩, And.left⟩
    rintro rfl
    exact hij (hs.alone hj hi)

theorem Sound.leave (hs : h.Sound) (hi : h.held i = some k) : (h.leave i k).Sound where
  stored k' := by
    simp only [Holders.leave, hs.held_release hi, List.mem_cons, hs.stored]
    by_cases hkk : k' = k
    · subst hkk
      simpa using .inl ⟨i, hi⟩
    · simp [hkk]
  alone hj hj' := hs.alone ((hs.held_release hi).mp hj).1 ((hs.held_release hi).mp hj').1
  kept {j k'} hj := by
    obtain ⟨hj, hkk⟩ := (hs.held_release hi).mp hj
    simpa [Holders.leave, hkk] using hs.kept hj

variable [DecidableEq K]

def take (i : I) (k : K) (v : V) (h : Holders I K V) : Holders I K V :=
  { h with held := Function.update h.held i (some k), store := Function.update h.store k (some v) }

def give (i : I) (k : K) (h : Holders I K V) : Holders I K V :=
  { h with held := Function.update h.held i none, store := Function.update h.store k none }

theorem Sound.take (hs : h.Sound) (hi : h.held i = none) (hk : h.store k = none) (v : V) : (h.take i k v).Sound where
  stored k' := by
    simp only [Holders.take, held_take hi]
    by_cases hkk : k' = k
    · subst hkk
      simp
    · simp [hkk, hs.stored k']
  alone {j j' k'} hj hj' := by
    rcases (held_take hi).mp hj with ⟨rfl, rfl⟩ | hold
    · rcases (held_take hi).mp hj' with ⟨rfl, _⟩ | hold'
      · rfl
      · exact absurd hold' ((hs.fresh hk).1 j')
    · rcases (held_take hi).mp hj' with ⟨rfl, rfl⟩ | hold'
      · exact absurd hold ((hs.fresh hk).1 j)
      · exact hs.alone hold hold'
  kept {j k'} hj := by
    rcases (held_take hi).mp hj with ⟨rfl, rfl⟩ | hj
    · exact (hs.fresh hk).2
    · exact hs.kept hj

theorem Sound.give (hs : h.Sound) (hi : h.held i = some k) : (h.give i k).Sound where
  stored k' := by
    simp only [Holders.give, hs.held_release hi]
    by_cases hkk : k' = k
    · subst hkk
      simpa using hs.kept hi
    · simp [hkk, hs.stored k']
  alone hj hj' := hs.alone ((hs.held_release hi).mp hj).1 ((hs.held_release hi).mp hj').1
  kept hj := hs.kept ((hs.held_release hi).mp hj).1

end

end Holders
