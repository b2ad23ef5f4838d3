import Mathlib.Data.Nat.Basic

/-!
# Loops with fuel

A loop is its body: a round either leaves the loop with a state or goes on with
the next one. A run has fuel for the rounds it may take and is `none` when the
fuel is used up.
-/

namespace Loop

inductive Round (σ : Type) where
  | leave (s : σ)
  | next (s : σ)
deriving DecidableEq, Repr

variable {σ : Type} (body : σ → Round σ)

def run : Nat → σ → Option σ
  | 0, _ => none
  | fuel + 1, s =>
    match body s with
    | .leave u => some u
    | .next t => run fuel t

/-- The states that the rounds from `s` lead to. -/
inductive Reached (s : σ) : σ → Prop where
  | start : Reached s s
  | next {t u : σ} (h : Reached s t) (hb : body t = .next u) : Reached s u

variable {body}

theorem Reached.invariant {I : σ → Prop} (hI : ∀ s t, I s → body s = .next t → I t) {s t : σ} (h : Reached body s t)
    (hs : I s) : I t := by
  induction h with
  | start => exact hs
  | next _ hb ih => exact hI _ _ ih hb

theorem run_leave {s u : σ} (h : body s = .leave u) {fuel : Nat} (hf : 0 < fuel) : run body fuel s = some u := by
  obtain ⟨fuel, rfl⟩ := Nat.exists_eq_add_one.mpr hf
  rw [run, h]

theorem run_next {s t : σ} (h : body s = .next t) (fuel : Nat) : run body (fuel + 1) s = run body fuel t := by
  rw [run, h]

theorem run_of_reached {s t u : σ} (h : Reached body s t) (hb : body t = .leave u) :
    ∃ n, ∀ fuel, n < fuel → run body fuel s = some u := by
  have hend : ∃ n, ∀ fuel, n < fuel → run body fuel t = some u := ⟨0, fun fuel hf => run_leave hb hf⟩
  clear hb
  induction h with
  | start => exact hend
  | next _ hb ih =>
    obtain ⟨n, hn⟩ := hend
    refine ih ⟨n + 1, fun fuel hf => ?_⟩
    obtain ⟨fuel, rfl⟩ := Nat.exists_eq_add_one.mpr (Nat.zero_lt_of_lt hf)
    rw [run_next hb]
    exact hn fuel (Nat.lt_of_succ_lt_succ hf)

theorem Reached.trans {s t u : σ} (h : Reached body s t) (h' : Reached body t u) : Reached body s u := by
  induction h' with
  | start => exact h
  | next _ hb ih => exact .next ih hb

/-- What every round preserves holds in the round that leaves the loop. -/
theorem run_invariant {I : σ → Prop} (hI : ∀ s t, I s → body s = .next t → I t) :
    ∀ (fuel : Nat) {s u : σ}, I s → run body fuel s = some u → ∃ t, I t ∧ body t = .leave u := by
  intro fuel
  induction fuel with
  | zero => intro s u _ h; cases h
  | succ fuel ih =>
    intro s u hs h
    cases hb : body s with
    | leave v =>
      rw [run_leave hb (Nat.succ_pos fuel), Option.some.injEq] at h
      exact ⟨s, hs, h ▸ hb⟩
    | next t =>
      rw [run_next hb] at h
      exact ih (hI s t hs hb) h

/-- A loop whose rounds lower a measure needs no more fuel than that. -/
theorem run_terminates {I : σ → Prop} (hI : ∀ s t, I s → body s = .next t → I t) {measure : σ → Nat}
    (hlt : ∀ s t, I s → body s = .next t → measure t < measure s) :
    ∀ (n : Nat) {s : σ}, I s → measure s ≤ n → ∃ u, ∀ fuel, n < fuel → run body fuel s = some u := by
  intro n
  induction n with
  | zero =>
    intro s hs hn
    cases hb : body s with
    | leave u => exact ⟨u, fun fuel hf => run_leave hb hf⟩
    | next t => exact absurd (hlt s t hs hb) (by omega)
  | succ n ih =>
    intro s hs hn
    cases hb : body s with
    | leave u => exact ⟨u, fun fuel hf => run_leave hb (Nat.zero_lt_of_lt hf)⟩
    | next t =>
      have hlower := hlt s t hs hb
      obtain ⟨u, hu⟩ := ih (hI s t hs hb) (by omega)
      refine ⟨u, fun fuel hf => ?_⟩
      obtain ⟨fuel, rfl⟩ := Nat.exists_eq_add_one.mpr (Nat.zero_lt_of_lt hf)
      rw [run_next hb]
      exact hu fuel (by omega)

end Loop
