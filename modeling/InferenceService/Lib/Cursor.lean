import Mathlib.Data.List.Basic

/-!
# Reading page by page

A client asks for a page at a cursor and gets items and the next cursor, until
it gets the cursor that says that the end is reached. Each page may change the
server's state.
-/

namespace Cursor

section
variable {σ κ ε α : Type} [DecidableEq κ] (page : κ → σ → Except ε (κ × List α) × σ) (last : κ)

/-- The items of all the pages, or the error that ended the loop; `none` is a
loop that asks for more than `fuel` pages. -/
def drain : Nat → κ → σ → Option (Except ε (List α) × σ)
  | 0, _, _ => none
  | fuel + 1, start, s =>
    match page start s with
    | (.error e, s) => some (.error e, s)
    | (.ok (next, items), s) =>
      if next = last then some (.ok items, s)
      else (drain fuel next s).map fun r => (r.1.map (items ++ ·), r.2)

variable {page last}

theorem drain_succ {fuel : Nat} {start : κ} {s : σ} {r : Except ε (List α) × σ}
    (h : drain page last fuel start s = some r) : drain page last (fuel + 1) start s = some r := by
  induction fuel generalizing start s r with
  | zero => cases h
  | succ fuel ih =>
    rw [drain] at h ⊢
    split at h
    · exact h
    · rename_i next items s' hp
      by_cases hl : next = last
      · rw [if_pos hl] at h ⊢
        exact h
      · rw [if_neg hl] at h ⊢
        obtain ⟨r', hr, rfl⟩ := Option.map_eq_some_iff.mp h
        rw [ih hr]
        rfl

theorem drain_mono {fuel fuel' : Nat} (hle : fuel ≤ fuel') {start : κ} {s : σ} {r : Except ε (List α) × σ}
    (h : drain page last fuel start s = some r) : drain page last fuel' start s = some r := by
  induction hle with
  | refl => exact h
  | step _ ih => exact drain_succ ih

theorem drain_unique {fuel fuel' : Nat} {start : κ} {s : σ} {r r' : Except ε (List α) × σ}
    (h : drain page last fuel start s = some r) (h' : drain page last fuel' start s = some r') : r = r' := by
  rcases Nat.le_total fuel fuel' with hle | hle
  · exact Option.some.inj ((drain_mono hle h).symm.trans h')
  · exact Option.some.inj (h.symm.trans (drain_mono hle h'))

/-- When every page takes a nonempty part of what is left and gives the cursor
behind it, and the last page takes all of it, then the loop ends and takes
everything in order. `done` and `todo` are what was and what is to be read. -/
theorem drain_complete {β : Type} {I : List β → List β → κ → σ → Prop} {R : List β → List α → Prop}
    (End : List β → σ → Prop) (happ : ∀ xs ys as bs, R xs as → R ys bs → R (xs ++ ys) (as ++ bs))
    (hpage : ∀ done todo start s, I done todo start s → ∃ taken rest next items s',
      page start s = (.ok (next, items), s') ∧ todo = taken ++ rest ∧ R taken items ∧
        (next = last ∧ rest = [] ∧ End (done ++ taken) s' ∨
          next ≠ last ∧ taken ≠ [] ∧ I (done ++ taken) rest next s')) :
    ∀ (fuel : Nat) {done todo : List β} {start : κ} {s : σ}, todo.length < fuel → I done todo start s →
      ∃ items s', drain page last fuel start s = some (.ok items, s') ∧ R todo items ∧ End (done ++ todo) s' := by
  intro fuel
  induction fuel with
  | zero => exact fun hlen _ => absurd hlen (Nat.not_lt_zero _)
  | succ fuel ih =>
    intro done todo start s hlen hi
    obtain ⟨taken, rest, next, items, s', hp, rfl, hr, hend⟩ := hpage done todo start s hi
    rw [drain, hp]
    dsimp only
    rcases hend with ⟨rfl, rfl, he⟩ | ⟨hnext, hne, hi'⟩
    · rw [if_pos rfl, List.append_nil]
      exact ⟨items, s', rfl, hr, he⟩
    · have hpos := List.length_pos_of_ne_nil hne
      rw [List.length_append] at hlen
      obtain ⟨items', t, hd, hr', he⟩ := ih (by omega) hi'
      rw [if_neg hnext, hd]
      exact ⟨items ++ items', t, rfl, happ _ _ _ _ hr hr', by rwa [← List.append_assoc]⟩

end

end Cursor
