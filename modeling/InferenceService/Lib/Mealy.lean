import Mathlib.Data.List.Basic

/-!
# Machines that answer

A machine answers every input and moves on. Two machines whose states stay
related answer alike, or as closely as they do from related states.
-/

structure Mealy (σ ι ω : Type) where
  step : σ → ι → ω × σ

namespace Mealy

section
variable {σ τ ι ω : Type} (M : Mealy σ ι ω) (N : Mealy τ ι ω)

def outputs : σ → List ι → List ω
  | _, [] => []
  | s, i :: is => (M.step s i).1 :: outputs (M.step s i).2 is

/-- Each input meets `P` in the state in which the machine gets it. -/
def Along (P : σ → ι → Prop) : σ → List ι → Prop
  | _, [] => True
  | s, i :: is => P s i ∧ Along P (M.step s i).2 is

variable {M} in
theorem along_of_forall {P : σ → ι → Prop} :
    ∀ {is : List ι} {s : σ}, (∀ i ∈ is, ∀ s, P s i) → M.Along P s is := by
  intro is
  induction is with
  | nil => intro s _; trivial
  | cons i is ih =>
    intro s h
    exact ⟨h i List.mem_cons_self s, ih fun j hj => h j (List.mem_cons_of_mem i hj)⟩

variable {M N} in
theorem Along.and {P Q : σ → ι → Prop} : ∀ {is : List ι} {s : σ}, M.Along P s is → M.Along Q s is →
    M.Along (fun s i => P s i ∧ Q s i) s is := by
  intro is
  induction is with
  | nil => intro s _ _; trivial
  | cons i is ih =>
    intro s hp hq
    exact ⟨⟨hp.1, hq.1⟩, ih hp.2 hq.2⟩

/-- Answers related by `Q` at every input are so along the whole run. -/
theorem outputs_forall₂_of_related {ω' : Type} {N : Mealy τ ι ω'} {R : σ → τ → Prop} {P : σ → ι → Prop}
    {Q : ω → ω' → Prop}
    (hstep : ∀ s t i, R s t → P s i → Q (M.step s i).1 (N.step t i).1 ∧ R (M.step s i).2 (N.step t i).2) :
    ∀ (is : List ι) {s : σ} {t : τ}, R s t → M.Along P s is → List.Forall₂ Q (M.outputs s is) (N.outputs t is) := by
  intro is
  induction is with
  | nil => intro s t _ _; exact .nil
  | cons i is ih =>
    intro s t h hp
    obtain ⟨hout, hrel⟩ := hstep s t i h hp.1
    exact .cons hout (ih hrel hp.2)

/-- `P` is exactly what keeps the two machines together. -/
theorem outputs_eq_iff_of_related {R : σ → τ → Prop} {A P : σ → ι → Prop}
    (hkeep : ∀ s t i, R s t → A s i → P s i → (M.step s i).1 = (N.step t i).1 ∧ R (M.step s i).2 (N.step t i).2)
    (hpart : ∀ s t i, R s t → A s i → ¬ P s i → (M.step s i).1 ≠ (N.step t i).1) :
    ∀ (is : List ι) {s : σ} {t : τ}, R s t → M.Along A s is →
      (M.outputs s is = N.outputs t is ↔ M.Along P s is) := by
  intro is
  induction is with
  | nil =>
    intro s t _ _
    exact ⟨fun _ => trivial, fun _ => rfl⟩
  | cons i is ih =>
    intro s t h ha
    rw [outputs, outputs, List.cons.injEq]
    by_cases hp : P s i
    · obtain ⟨hout, hrel⟩ := hkeep s t i h ha.1 hp
      rw [ih hrel ha.2]
      exact ⟨fun hq => ⟨hp, hq.2⟩, fun hq => ⟨hout, hq.2⟩⟩
    · exact ⟨fun hq => absurd hq.1 (hpart s t i h ha.1 hp), fun hq => absurd hq.1 hp⟩

end

end Mealy
