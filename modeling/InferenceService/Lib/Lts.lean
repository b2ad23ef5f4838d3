import Mathlib.Data.List.Basic

/-!
# Guarded transition systems

A system is an initial state and an executable step: `step s a` is `none` when
the action `a` is not enabled in `s`. Runs, reachable states and the rules that
carry a property of one step to a whole run.
-/

structure Lts (σ α : Type) where
  init : σ
  step : σ → α → Option σ

namespace Lts

section
variable {σ α : Type} (M : Lts σ α)

/-- The state after the actions of a run, when every one of them is enabled. -/
def runFrom (s : σ) (as : List α) : Option σ := as.foldlM M.step s

def Reachable (s : σ) : Prop := ∃ as, M.runFrom M.init as = some s

def AllSteps (P : σ → α → σ → Prop) : σ → List α → Prop
  | _, [] => True
  | s, a :: as => ∀ s', M.step s a = some s' → P s a s' ∧ AllSteps P s' as

@[simp] theorem runFrom_nil (s : σ) : M.runFrom s [] = some s := rfl

@[simp] theorem runFrom_cons (s : σ) (a : α) (as : List α) :
    M.runFrom s (a :: as) = (M.step s a).bind fun s' => M.runFrom s' as := by
  simp [runFrom, List.foldlM_cons]

theorem runFrom_cons_iff {s u : σ} {a : α} {as : List α} :
    M.runFrom s (a :: as) = some u ↔ ∃ t, M.step s a = some t ∧ M.runFrom t as = some u := by
  rw [runFrom_cons, Option.bind_eq_some_iff]

theorem runFrom_append (s : σ) (as bs : List α) :
    M.runFrom s (as ++ bs) = (M.runFrom s as).bind fun t => M.runFrom t bs := by
  simp [runFrom, List.foldlM_append]

theorem reachable_init : M.Reachable M.init := ⟨[], rfl⟩

variable {M}

theorem Reachable.run {s t : σ} {as : List α} (hs : M.Reachable s) (h : M.runFrom s as = some t) :
    M.Reachable t := by
  obtain ⟨bs, hb⟩ := hs
  exact ⟨bs ++ as, by rw [runFrom_append, hb]; exact h⟩

theorem Reachable.step {s t : σ} {a : α} (hs : M.Reachable s) (h : M.step s a = some t) : M.Reachable t :=
  @Reachable.run _ _ M s t [a] hs (by rw [runFrom_cons, h]; rfl)

/-- What every step from a reachable state preserves, a run from a reachable
state preserves. -/
theorem run_preserves {P : σ → Prop}
    (hP : ∀ s a t, M.Reachable s → P s → M.step s a = some t → P t) :
    ∀ (as : List α) {s t : σ}, M.Reachable s → P s → M.runFrom s as = some t → P t := by
  intro as
  induction as with
  | nil =>
    intro s t _ h hr
    simp only [runFrom_nil, Option.some.injEq] at hr
    exact hr ▸ h
  | cons a as ih =>
    intro s t hs h hr
    obtain ⟨u, hu, hr⟩ := M.runFrom_cons_iff.mp hr
    exact ih (hs.step hu) (hP s a u hs h hu) hr

theorem Reachable.invariant {P : σ → Prop} (h₀ : P M.init)
    (hP : ∀ s a t, M.Reachable s → P s → M.step s a = some t → P t) {s : σ} (hs : M.Reachable s) : P s := by
  obtain ⟨as, h⟩ := hs
  exact run_preserves hP as M.reachable_init h₀ h

/-- A preorder that every step from a reachable state respects relates the two
ends of a run. -/
theorem run_related {R : σ → σ → Prop} (hrefl : ∀ s, R s s) (htrans : ∀ s t u, R s t → R t u → R s u)
    (hR : ∀ s a t, M.Reachable s → M.step s a = some t → R s t) {s t : σ} {as : List α}
    (hs : M.Reachable s) (h : M.runFrom s as = some t) : R s t :=
  run_preserves (fun u a v hu hsu hv => htrans s u v hsu (hR u a v hu hv)) as hs (hrefl s) h

theorem allSteps_of_reachable {P : σ → α → σ → Prop}
    (hP : ∀ s a t, M.Reachable s → M.step s a = some t → P s a t) :
    ∀ (as : List α) {s : σ}, M.Reachable s → M.AllSteps P s as := by
  intro as
  induction as with
  | nil => intro s _; trivial
  | cons a as ih => intro s hs t ht; exact ⟨hP s a t hs ht, ih (hs.step ht)⟩

theorem AllSteps.last {P : σ → α → σ → Prop} {t u : σ} {a : α} (ht : M.step t a = some u) :
    ∀ {as : List α} {s : σ}, M.runFrom s as = some t → M.AllSteps P s (as ++ [a]) → P t a u := by
  intro as
  induction as with
  | nil =>
    intro s hr h
    simp only [runFrom_nil, Option.some.injEq] at hr
    subst hr
    exact (h u ht).1
  | cons b bs ih =>
    intro s hr h
    obtain ⟨v, hv, hr⟩ := M.runFrom_cons_iff.mp hr
    exact ih hr (h v hv).2

theorem AllSteps.imp {P Q : σ → α → σ → Prop} (hPQ : ∀ s a t, M.step s a = some t → P s a t → Q s a t) :
    ∀ {as : List α} {s : σ}, M.AllSteps P s as → M.AllSteps Q s as := by
  intro as
  induction as with
  | nil => intro s _; trivial
  | cons a as ih => intro s h t ht; exact ⟨hPQ s a t ht (h t ht).1, ih (h t ht).2⟩

/-- An invariant that a step keeps only when the step meets `Q` holds along a
run all of whose steps meet `Q`, and there gives `P` at each of them. -/
theorem AllSteps.of_invariant {I : σ → Prop} {P Q : σ → α → σ → Prop}
    (hI : ∀ s a t, I s → M.step s a = some t → Q s a t → I t)
    (hP : ∀ s a t, I s → M.step s a = some t → Q s a t → P s a t) :
    ∀ {as : List α} {s : σ}, I s → M.AllSteps Q s as → M.AllSteps P s as := by
  intro as
  induction as with
  | nil => intro s _ _; trivial
  | cons a as ih =>
    intro s hs h t ht
    obtain ⟨hq, h⟩ := h t ht
    exact ⟨hP s a t hs ht hq, ih (hI s a t hs ht hq) h⟩

end

/-! ## What a run can still reach -/

section
variable {σ α : Type} (M : Lts σ α) (P : α → Prop)

/-- Actions that satisfy `P` lead from `s` to `t`. -/
def Leads (s t : σ) : Prop := ∃ as, (∀ a ∈ as, P a) ∧ M.runFrom s as = some t

variable {M P}

theorem Leads.refl (s : σ) : M.Leads P s s := ⟨[], nofun, rfl⟩

theorem Leads.trans {s t u : σ} (h : M.Leads P s t) (h' : M.Leads P t u) : M.Leads P s u := by
  obtain ⟨as, hp, hr⟩ := h
  obtain ⟨bs, hp', hr'⟩ := h'
  refine ⟨as ++ bs, List.forall_mem_append.mpr ⟨hp, hp'⟩, ?_⟩
  rw [runFrom_append, hr]
  exact hr'

theorem Leads.step {s t : σ} {a : α} (h : M.step s a = some t) (ha : P a) : M.Leads P s t :=
  ⟨[a], by simpa using ha, by simp [h]⟩

theorem Leads.reachable {s t : σ} (h : M.Leads P s t) (hs : M.Reachable s) : M.Reachable t := by
  obtain ⟨as, _, hr⟩ := h
  exact hs.run hr

/-- What can always be lowered can be lowered to zero. -/
theorem exists_zero {I : σ → Prop} {R : σ → σ → Prop} (hrefl : ∀ s, R s s) (htrans : ∀ s t u, R s t → R t u → R s u)
    (μ : σ → Nat) (h : ∀ s, I s → μ s ≠ 0 → ∃ t, R s t ∧ I t ∧ μ t < μ s) (s : σ) (hs : I s) :
    ∃ t, R s t ∧ I t ∧ μ t = 0 := by
  induction hn : μ s using Nat.strongRecOn generalizing s with
  | _ n ih =>
    by_cases hz : μ s = 0
    · exact ⟨s, hrefl s, hs, hz⟩
    · obtain ⟨t, hst, ht, hlt⟩ := h s hs hz
      obtain ⟨u, htu, hu, hzero⟩ := ih (μ t) (hn ▸ hlt) t ht rfl
      exact ⟨u, htrans s t u hst htu, hu, hzero⟩

end

/-! ## Histories -/

section
variable {σ α β : Type} (M : Lts σ α) (note : σ → α → Option β)

/-- The system with a history of what `note` says of its steps, the most recent
first. -/
def recording : Lts (σ × List β) α where
  init := (M.init, [])
  step s a := (M.step s.1 a).map fun t => (t, (note s.1 a).toList ++ s.2)

variable {M note}

theorem recording_step {s t : σ × List β} {a : α} :
    (M.recording note).step s a = some t ↔ M.step s.1 a = some t.1 ∧ t.2 = (note s.1 a).toList ++ s.2 := by
  obtain ⟨t, bs⟩ := t
  simp only [recording, Option.map_eq_some_iff, Prod.mk.injEq]
  constructor
  · rintro ⟨u, hu, rfl, rfl⟩
    exact ⟨hu, rfl⟩
  · rintro ⟨hu, rfl⟩
    exact ⟨t, hu, rfl, rfl⟩

/-- Every state that can be reached has a history. -/
theorem Reachable.recorded {s : σ} (hs : M.Reachable s) : ∃ bs, (M.recording note).Reachable (s, bs) := by
  refine hs.invariant (P := fun s => ∃ bs, (M.recording note).Reachable (s, bs)) ⟨[], reachable_init _⟩ ?_
  rintro s a t _ ⟨bs, h⟩ ht
  exact ⟨_, h.step (recording_step.mpr ⟨ht, rfl⟩)⟩

end

end Lts
