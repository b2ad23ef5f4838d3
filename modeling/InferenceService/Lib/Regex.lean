import InferenceService.Lib.Search
import Mathlib.Data.List.Forall2

/-!
# Regular expressions with a backtracking matcher

A match of an expression at a position is found by trying the choices in a
fixed order: an option and a greedy repetition take as much as they can first.
`run` lists all matches in that order; the first of them is the result. The
repetitions are those of a class of characters, and there is one group.
-/

inductive Regex (α : Type) where
  | empty
  | char (p : α → Bool)
  | seq (r t : Regex α)
  | opt (r : Regex α)
  | many (p : α → Bool)
  | lazy (p : α → Bool)
  | group (r : Regex α)

namespace Regex

variable {α β : Type}

/-- A match: its text, what the group matched, and the input after it. -/
structure Match (α : Type) where
  text : List α
  group : Option (List α)
  rest : List α

def Match.append (m k : Match α) : Match α := ⟨m.text ++ k.text, k.group.or m.group, k.rest⟩

def Match.cons (c : α) (m : Match α) : Match α := { m with text := c :: m.text }

def nothing (s : List α) : Match α := ⟨[], none, s⟩

/-- The beginnings of the input within a class, the longest first. -/
def repeats (p : α → Bool) : List α → List (Match α)
  | [] => [nothing []]
  | c :: s => if p c then (repeats p s).map (Match.cons c) ++ [nothing (c :: s)] else [nothing (c :: s)]

def run : Regex α → List α → List (Match α)
  | empty, s => [nothing s]
  | char _, [] => []
  | char p, c :: s => if p c then [⟨[c], none, s⟩] else []
  | seq r t, s => (run r s).flatMap fun m => (run t m.rest).map m.append
  | opt r, s => run r s ++ [nothing s]
  | many p, s => repeats p s
  | lazy p, s => (repeats p s).reverse
  | group r, s => (run r s).map fun m => { m with group := some m.text }

def first (r : Regex α) (s : List α) : Option (Match α) := (run r s).head?

/-- The first match that the input has at any position. -/
def search (r : Regex α) : List α → Option (Match α)
  | [] => first r []
  | c :: s => (first r (c :: s)).or (search r s)

/-- The texts of the matches that follow each other, of an expression that
does not match the empty text; `skip` counts what is left of the last match. -/
def findallFrom (r : Regex α) : Nat → List α → List (List α)
  | _, [] => []
  | skip + 1, _ :: s => findallFrom r skip s
  | 0, c :: s =>
    match first r (c :: s) with
    | some m => m.text :: findallFrom r (m.text.length - 1) s
    | none => findallFrom r 0 s

def findall (r : Regex α) (s : List α) : List (List α) := findallFrom r 0 s

def firstLength (r : Regex α) (s : List α) : Nat := ((first r s).map fun m => m.text.length).getD 0

/-- The input without the matches that follow each other, of an expression
that does not match the empty text. -/
def sub (r : Regex α) : List α → List α := Search.delete (firstLength r)

def chars : List (α → Bool) → Regex α
  | [] => empty
  | p :: ps => seq (char p) (chars ps)

/-! ## The language -/

def Lang : Regex α → List α → Prop
  | empty, w => w = []
  | char p, w => ∃ c, p c = true ∧ w = [c]
  | seq r t, w => ∃ u v, Lang r u ∧ Lang t v ∧ w = u ++ v
  | opt r, w => w = [] ∨ Lang r w
  | many p, w => ∀ c ∈ w, p c = true
  | lazy p, w => ∀ c ∈ w, p c = true
  | group r, w => Lang r w

theorem repeats_sound {p : α → Bool} {s : List α} {m : Match α} (h : m ∈ repeats p s) :
    s = m.text ++ m.rest ∧ ∀ c ∈ m.text, p c = true := by
  induction s generalizing m with
  | nil =>
    obtain rfl := List.mem_singleton.mp h
    exact ⟨rfl, fun _ hc => absurd hc List.not_mem_nil⟩
  | cons c s ih =>
    unfold repeats at h
    have hnothing : m = nothing (c :: s) → c :: s = m.text ++ m.rest ∧ ∀ c ∈ m.text, p c = true := by
      intro heq
      subst heq
      exact ⟨rfl, fun _ hc => absurd hc List.not_mem_nil⟩
    by_cases hp : p c = true
    · rw [if_pos hp] at h
      rcases List.mem_append.mp h with h | h
      · obtain ⟨k, hk, rfl⟩ := List.mem_map.mp h
        obtain ⟨hs, hall⟩ := ih hk
        refine ⟨by rw [hs]; rfl, fun d hd => ?_⟩
        rcases List.mem_cons.mp hd with rfl | hd
        · exact hp
        · exact hall d hd
      · exact hnothing (List.mem_singleton.mp h)
    · rw [if_neg hp] at h
      exact hnothing (List.mem_singleton.mp h)

theorem repeats_complete {p : α → Bool} {w : List α} (h : ∀ c ∈ w, p c = true) (s : List α) :
    ∃ m ∈ repeats p (w ++ s), m.text = w ∧ m.rest = s := by
  induction w with
  | nil =>
    refine ⟨nothing s, ?_, rfl, rfl⟩
    cases s with
    | nil => exact List.mem_singleton_self _
    | cons c s =>
      rw [List.nil_append, repeats]
      by_cases hp : p c = true
      · rw [if_pos hp]
        exact List.mem_append_right _ (List.mem_singleton_self _)
      · rw [if_neg hp]
        exact List.mem_singleton_self _
  | cons c w ih =>
    obtain ⟨m, hm, htext, hrest⟩ := ih fun d hd => h d (List.mem_cons_of_mem c hd)
    refine ⟨m.cons c, ?_, by rw [← htext]; rfl, hrest⟩
    rw [List.cons_append, repeats, if_pos (h c List.mem_cons_self)]
    exact List.mem_append_left _ (List.mem_map_of_mem hm)

/-- A match is a beginning of the input, and in the language. -/
theorem run_sound {r : Regex α} {s : List α} {m : Match α} (h : m ∈ run r s) :
    s = m.text ++ m.rest ∧ Lang r m.text := by
  induction r generalizing s m with
  | empty =>
    obtain rfl := List.mem_singleton.mp h
    exact ⟨rfl, rfl⟩
  | char p =>
    cases s with
    | nil => exact absurd h List.not_mem_nil
    | cons c s =>
      unfold run at h
      by_cases hp : p c = true
      · rw [if_pos hp] at h
        obtain rfl := List.mem_singleton.mp h
        exact ⟨rfl, c, hp, rfl⟩
      · rw [if_neg hp] at h
        exact absurd h List.not_mem_nil
  | seq r t ihr iht =>
    obtain ⟨a, ha, h⟩ := List.mem_flatMap.mp h
    obtain ⟨b, hb, rfl⟩ := List.mem_map.mp h
    obtain ⟨hs, hra⟩ := ihr ha
    obtain ⟨hrest, htb⟩ := iht hb
    refine ⟨?_, a.text, b.text, hra, htb, rfl⟩
    rw [hs, hrest, ← List.append_assoc]
    rfl
  | opt r ih =>
    rcases List.mem_append.mp h with h | h
    · exact ⟨(ih h).1, .inr (ih h).2⟩
    · obtain rfl := List.mem_singleton.mp h
      exact ⟨rfl, .inl rfl⟩
  | many p => exact repeats_sound h
  | lazy p => exact repeats_sound (List.mem_reverse.mp h)
  | group r ih =>
    obtain ⟨k, hk, rfl⟩ := List.mem_map.mp h
    have := ih (m := k) hk
    exact this

/-- Every beginning of the input that is in the language is a match. -/
theorem run_complete {r : Regex α} {w : List α} (h : Lang r w) (s : List α) :
    ∃ m ∈ run r (w ++ s), m.text = w ∧ m.rest = s := by
  induction r generalizing w s with
  | empty =>
    cases h
    exact ⟨nothing s, List.mem_singleton_self _, rfl, rfl⟩
  | char p =>
    obtain ⟨c, hp, rfl⟩ := h
    refine ⟨⟨[c], none, s⟩, ?_, rfl, rfl⟩
    rw [List.singleton_append, run, if_pos hp]
    exact List.mem_singleton_self _
  | seq r t ihr iht =>
    obtain ⟨u, v, hu, hv, rfl⟩ := h
    obtain ⟨a, ha, hatext, harest⟩ := ihr hu (v ++ s)
    obtain ⟨b, hb, hbtext, hbrest⟩ := iht hv s
    refine ⟨a.append b, ?_, by rw [← hatext, ← hbtext]; rfl, hbrest⟩
    rw [List.append_assoc]
    refine List.mem_flatMap.mpr ⟨a, ha, List.mem_map_of_mem ?_⟩
    rw [harest]
    exact hb
  | opt r ih =>
    rcases h with rfl | h
    · exact ⟨nothing s, List.mem_append_right _ (List.mem_singleton_self _), rfl, rfl⟩
    · obtain ⟨m, hm, hmatch⟩ := ih h s
      exact ⟨m, List.mem_append_left _ hm, hmatch⟩
  | many p => exact repeats_complete h s
  | lazy p =>
    obtain ⟨m, hm, hmatch⟩ := repeats_complete h s
    exact ⟨m, List.mem_reverse.mpr hm, hmatch⟩
  | group r ih =>
    obtain ⟨m, hm, htext, hrest⟩ := ih h s
    exact ⟨_, List.mem_map_of_mem hm, htext, hrest⟩

theorem lang_chars {ps : List (α → Bool)} {w : List α} :
    Lang (chars ps) w ↔ List.Forall₂ (fun p c => p c = true) ps w := by
  induction ps generalizing w with
  | nil =>
    rw [List.forall₂_nil_left_iff]
    rfl
  | cons p ps ih =>
    constructor
    · intro h
      obtain ⟨_, v, ⟨c, hp, rfl⟩, hv, rfl⟩ := h
      exact .cons hp (ih.mp hv)
    · intro h
      cases h with
      | cons hp hps => exact ⟨_, _, ⟨_, hp, rfl⟩, ih.mpr hps, rfl⟩

theorem lang_opt_char {p : α → Bool} {w : List α} :
    Lang (opt (char p)) w ↔ ∃ o : Option α, w = o.toList ∧ ∀ c ∈ o, p c = true := by
  constructor
  · intro h
    rcases h with rfl | ⟨c, hp, rfl⟩
    · exact ⟨none, rfl, fun c h => absurd h nofun⟩
    · exact ⟨some c, rfl, fun d h => Option.some.inj h ▸ hp⟩
  · intro hw
    obtain ⟨o, rfl, h⟩ := hw
    cases o with
    | none => exact .inl rfl
    | some c => exact .inr ⟨c, h c rfl, rfl⟩

theorem first_sound {r : Regex α} {s : List α} {m : Match α} (h : first r s = some m) :
    s = m.text ++ m.rest ∧ Lang r m.text :=
  run_sound (List.mem_of_head? h)

theorem firstLength_le (r : Regex α) (s : List α) : firstLength r s ≤ s.length := by
  unfold firstLength
  cases h : first r s with
  | none => exact Nat.zero_le _
  | some m =>
    obtain ⟨hs, _⟩ := first_sound h
    exact (congrArg List.length hs).symm ▸ List.length_append ▸ Nat.le_add_right _ _

theorem first_complete {r : Regex α} {s : List α} (h : first r s = none) {w : List α} (hw : w <+: s) :
    ¬ Lang r w := by
  intro hlang
  obtain ⟨t, rfl⟩ := hw
  obtain ⟨m, hm, _⟩ := run_complete hlang t
  rw [List.head?_eq_none_iff.mp h] at hm
  exact absurd hm List.not_mem_nil

theorem first_seq (r t : Regex α) (s : List α) :
    first (seq r t) s = (run r s).findSome? fun m => (first t m.rest).map m.append := by
  unfold first
  rw [run, List.head?_flatMap]
  simp only [List.head?_map]

theorem first_seq_some {r t : Regex α} {s : List α} {k : Match α} (h : first (seq r t) s = some k) :
    ∃ m ∈ run r s, ∃ n, first t m.rest = some n ∧ k = m.append n := by
  rw [first_seq] at h
  obtain ⟨m, hm, h⟩ := List.exists_of_findSome?_eq_some h
  obtain ⟨n, hn, rfl⟩ := Option.map_eq_some_iff.mp h
  exact ⟨m, hm, n, hn, rfl⟩

theorem nothing_append (s : List α) (k : Match α) : (nothing s).append k = k := by
  cases k
  simp [Match.append, nothing]

theorem singleton_append (c : α) (s : List α) (k : Match α) : (Match.mk [c] none s).append k = k.cons c := by
  cases k
  simp [Match.append, Match.cons]

theorem flatMap_nothing (t : Regex α) (s : List α) :
    ([nothing s].flatMap fun m => (run t m.rest).map m.append) = run t s := by
  rw [List.flatMap_singleton, funext (nothing_append s)]
  exact List.map_id _

theorem run_char_seq {p : α → Bool} {c : α} (hp : p c = true) (t : Regex α) (s : List α) :
    run (seq (char p) t) (c :: s) = (run t s).map (Match.cons c) := by
  rw [run, run, if_pos hp, List.flatMap_singleton, funext (singleton_append c s)]

theorem first_group (r : Regex α) (s : List α) :
    first (group r) s = (first r s).map fun m => { m with group := some m.text } := by
  unfold first
  rw [run, List.head?_map]

/-! ## Matches of words -/

/-- The first match of `r` that `t` goes on from. -/
theorem first_seq_of_run {r t : Regex α} {s : List α} {ms ks : List (Match α)} {m k : Match α}
    (hr : run r s = ms ++ m :: ks) (hms : ∀ m ∈ ms, first t m.rest = none) (ht : first t m.rest = some k) :
    first (seq r t) s = some (m.append k) := by
  have hnone : (ms.findSome? fun m => (first t m.rest).map m.append) = none :=
    List.findSome?_eq_none_iff.mpr fun m hm => by rw [hms m hm]; rfl
  rw [first_seq, hr, List.findSome?_append, hnone, List.findSome?_cons, ht]
  rfl

theorem first_seq_of_first {r t : Regex α} {s : List α} {m k : Match α} (hr : first r s = some m)
    (ht : first t m.rest = some k) : first (seq r t) s = some (m.append k) := by
  obtain ⟨ms, hms⟩ := List.head?_eq_some_iff.mp hr
  have hrun : run r s = [] ++ m :: ms := hms
  exact first_seq_of_run hrun (fun m hm => absurd hm List.not_mem_nil) ht

theorem first_opt (r : Regex α) (s : List α) : first (opt r) s = (first r s).or (some (nothing s)) := by
  unfold first
  rw [run, List.head?_append]
  rfl

theorem first_many (p : α → Bool) (s : List α) :
    first (many p) s = some ⟨s.takeWhile p, none, s.dropWhile p⟩ := by
  unfold first
  rw [run]
  induction s with
  | nil => rfl
  | cons c s ih =>
    by_cases hp : p c = true
    · simp [repeats, hp, ih, Match.cons]
    · simp [repeats, hp, nothing]

section
variable {ps : List (α → Bool)} {s : List α}

theorem run_chars (h : Search.startsWith ps s = true) :
    run (chars ps) s = [⟨s.take ps.length, none, s.drop ps.length⟩] := by
  induction ps generalizing s with
  | nil => rfl
  | cons p ps ih =>
    cases s with
    | nil => cases h
    | cons c s =>
      obtain ⟨hp, hs⟩ := Bool.and_eq_true_iff.mp h
      rw [chars, run_char_seq hp, ih hs]
      rfl

theorem run_chars_of_not (h : Search.startsWith ps s = false) : run (chars ps) s = [] := by
  induction ps generalizing s with
  | nil => cases h
  | cons p ps ih =>
    cases s with
    | nil => rfl
    | cons c s =>
      by_cases hp : p c = true
      · rw [Search.startsWith, hp, Bool.true_and] at h
        rw [chars, run_char_seq hp, ih h]
        rfl
      · simp [chars, run, hp]

theorem first_chars (h : Search.startsWith ps s = true) :
    first (chars ps) s = some ⟨s.take ps.length, none, s.drop ps.length⟩ := by
  rw [first, run_chars h]
  rfl

theorem first_chars_of_not (h : Search.startsWith ps s = false) : first (chars ps) s = none := by
  rw [first, run_chars_of_not h]
  rfl

theorem first_chars_seq (h : Search.startsWith ps s = true) (t : Regex α) :
    first (seq (chars ps) t) s =
      (first t (s.drop ps.length)).map (Match.append ⟨s.take ps.length, none, s.drop ps.length⟩) := by
  rw [first_seq, run_chars h, List.findSome?_singleton]

theorem first_chars_seq_of_not (h : Search.startsWith ps s = false) (t : Regex α) :
    first (seq (chars ps) t) s = none := by
  rw [first_seq, run_chars_of_not h, List.findSome?_nil]

/-- The shortest beginning of the input that the word follows is tried before
all that come after it. -/
theorem run_lazy {x : List α × List α} (h : Search.cut ps s = some x) :
    ∃ ms ks, run (lazy fun _ => true) s = ms ++ ⟨x.1, none, s.drop x.1.length⟩ :: ks ∧
      Search.startsWith ps (s.drop x.1.length) = true ∧ ∀ m ∈ ms, Search.startsWith ps m.rest = false := by
  rw [run]
  induction s generalizing x with
  | nil =>
    obtain ⟨t, hs, ht, _, _⟩ := Search.cut_spec h
    obtain ⟨hx, rfl⟩ := List.append_eq_nil_iff.mp hs.symm
    rw [hx]
    exact ⟨[], [], rfl, ht, fun m hm => absurd hm List.not_mem_nil⟩
  | cons c s ih =>
    simp only [repeats, if_true, List.reverse_append, List.reverse_singleton, ← List.map_reverse]
    by_cases hs : Search.startsWith ps (c :: s) = true
    · rw [Search.cut_of_startsWith hs] at h
      obtain rfl := Option.some.inj h
      exact ⟨[], _, rfl, hs, fun m hm => absurd hm List.not_mem_nil⟩
    · have hno := Bool.eq_false_iff.mpr hs
      rw [Search.cut_cons_of_not hno] at h
      obtain ⟨y, hy, rfl⟩ := Option.map_eq_some_iff.mp h
      obtain ⟨ms, ks, heq, hword, hms⟩ := ih hy
      refine ⟨nothing (c :: s) :: ms.map (Match.cons c), ks.map (Match.cons c), ?_, hword, ?_⟩
      · rw [heq]
        simp [Match.cons]
      · simp only [List.forall_mem_cons, List.forall_mem_map]
        exact ⟨hno, hms⟩

theorem first_lazy {x : List α × List α} (h : Search.cut ps s = some x) :
    ∃ m, first (seq (lazy fun _ => true) (chars ps)) s = some m ∧ m.text.length = x.1.length + ps.length := by
  obtain ⟨ms, ks, hrun, hword, hms⟩ := run_lazy h
  refine ⟨_, first_seq_of_run hrun (fun m hm => first_chars_of_not (hms m hm)) (first_chars hword), ?_⟩
  simp only [Match.append, List.length_append, List.length_take, Nat.min_eq_left (Search.startsWith_length hword)]

theorem first_group_lazy {x : List α × List α} (h : Search.cut ps s = some x) :
    ∃ m, first (seq (group (lazy fun _ => true)) (chars ps)) s = some m ∧ m.group = some x.1 := by
  obtain ⟨ms, ks, hrun, hword, hms⟩ := run_lazy h
  have hgroup : run (group (lazy fun _ => true)) s =
      (ms.map fun m => { m with group := some m.text }) ++
        ⟨x.1, some x.1, s.drop x.1.length⟩ :: ks.map fun m => { m with group := some m.text } := by
    rw [run, hrun, List.map_append, List.map_cons]
  refine ⟨_, first_seq_of_run hgroup (fun m hm => ?_) (first_chars hword), rfl⟩
  obtain ⟨k, hk, rfl⟩ := List.mem_map.mp hm
  exact first_chars_of_not (hms k hk)

theorem first_lazy_of_not (h : Search.cut ps s = none) : first (seq (lazy fun _ => true) (chars ps)) s = none := by
  by_contra hsome
  obtain ⟨k, hk⟩ := Option.ne_none_iff_exists'.mp hsome
  obtain ⟨m, hm, n, hn, _⟩ := first_seq_some hk
  obtain ⟨hs, _⟩ := run_sound hm
  refine Search.cut_eq_none_iff.mp h ⟨m.rest, ⟨m.text, hs.symm⟩, ?_, trivial⟩
  by_contra hword
  rw [first_chars_of_not (Bool.eq_false_iff.mpr hword)] at hn
  cases hn

end

/-! ## What a match can start with -/

def nullable : Regex α → Bool
  | empty => true
  | char _ => false
  | seq r t => nullable r && nullable t
  | opt _ => true
  | many _ => true
  | lazy _ => true
  | group r => nullable r

/-- The characters that a text of the language can start with. -/
def starts : Regex α → α → Bool
  | empty, _ => false
  | char p, c => p c
  | seq r t, c => starts r c || nullable r && starts t c
  | opt r, c => starts r c
  | many p, c => p c
  | lazy p, c => p c
  | group r, c => starts r c

theorem nullable_of_lang {r : Regex α} (h : Lang r []) : nullable r = true := by
  induction r with
  | empty => rfl
  | char p =>
    obtain ⟨c, _, h⟩ := h
    cases h
  | seq r t ihr iht =>
    obtain ⟨u, v, hu, hv, h⟩ := h
    obtain ⟨rfl, rfl⟩ := List.append_eq_nil_iff.mp h.symm
    rw [nullable, ihr hu, iht hv]
    rfl
  | opt r _ => rfl
  | many p => rfl
  | lazy p => rfl
  | group r ih => exact ih h

theorem starts_of_lang {r : Regex α} {c : α} {w : List α} (h : Lang r (c :: w)) : starts r c = true := by
  induction r generalizing w with
  | empty => cases h
  | char p =>
    obtain ⟨d, hp, h⟩ := h
    obtain ⟨rfl, _⟩ := List.cons.inj h
    exact hp
  | seq r t ihr iht =>
    obtain ⟨u, v, hu, hv, h⟩ := h
    cases u with
    | nil =>
      rw [List.nil_append] at h
      rw [starts, nullable_of_lang hu, iht (h ▸ hv), Bool.and_self, Bool.or_true]
    | cons d u =>
      obtain ⟨rfl, _⟩ := List.cons.inj h
      rw [starts, ihr hu, Bool.true_or]
  | opt r ih =>
    rcases h with h | h
    · cases h
    · exact ih h
  | many p => exact h c List.mem_cons_self
  | lazy p => exact h c List.mem_cons_self
  | group r ih => exact ih h

theorem text_eq_nil {r : Regex α} {c : α} {s : List α} (hc : starts r c = false) {m : Match α}
    (h : m ∈ run r (c :: s)) : m.text = [] := by
  obtain ⟨hs, hlang⟩ := run_sound h
  cases htext : m.text with
  | nil => rfl
  | cons d w =>
    rw [htext] at hs hlang
    obtain ⟨rfl, _⟩ := List.cons.inj hs
    rw [starts_of_lang hlang] at hc
    cases hc

/-! ## Expressions whose first match is the longest -/

def LongestFirst (ms : List (Match α)) : Prop :=
  ∀ m, ms.head? = some m → ∀ k ∈ ms, k.text.length ≤ m.text.length

def Greedy (r : Regex α) : Prop := ∀ s, LongestFirst (run r s)

theorem longestFirst_cons {c : α} {ms : List (Match α)} (h : LongestFirst ms) :
    LongestFirst (ms.map (Match.cons c)) := by
  intro m hm k hk
  rw [List.head?_map] at hm
  obtain ⟨a, ha, rfl⟩ := Option.map_eq_some_iff.mp hm
  obtain ⟨b, hb, rfl⟩ := List.mem_map.mp hk
  exact Nat.succ_le_succ (h a ha b hb)

theorem longestFirst_append {ms ks : List (Match α)} (hms : LongestFirst ms) (hks : ∀ k ∈ ks, k.text = []) :
    LongestFirst (ms ++ ks) := by
  intro m hm k hk
  cases ms with
  | nil =>
    rw [hks k hk]
    exact Nat.zero_le _
  | cons a ms =>
    rcases List.mem_append.mp hk with hk | hk
    · exact hms m hm k hk
    · rw [hks k hk]
      exact Nat.zero_le _

theorem run_opt_seq {p : α → Bool} {c : α} (hp : p c = true) (t : Regex α) (s : List α) :
    run (seq (opt (char p)) t) (c :: s) = (run t s).map (Match.cons c) ++ run t (c :: s) := by
  rw [run, run, List.flatMap_append, flatMap_nothing, ← run_char_seq hp t s]
  rfl

theorem run_many_seq {p : α → Bool} {c : α} (hp : p c = true) (t : Regex α) (s : List α) :
    run (seq (many p) t) (c :: s) = (run (seq (many p) t) s).map (Match.cons c) ++ run t (c :: s) := by
  show (repeats p (c :: s)).flatMap _ = ((repeats p s).flatMap _).map _ ++ _
  rw [repeats, if_pos hp, List.flatMap_append, flatMap_nothing, List.flatMap_map, List.map_flatMap]
  simp only [List.map_map]
  rfl

section
variable {p : α → Bool} {t : Regex α} (ht : Greedy t)
include ht

theorem greedy_char_seq : Greedy (seq (char p) t) := by
  intro s
  cases s with
  | nil => exact fun _ h => absurd h nofun
  | cons c s =>
    by_cases hp : p c = true
    · rw [run_char_seq hp]
      exact longestFirst_cons (ht s)
    · rw [run, run, if_neg hp]
      exact fun _ h => absurd h nofun

theorem greedy_opt : Greedy (opt t) := fun s =>
  longestFirst_append (ht s) fun k hk => by rw [List.mem_singleton.mp hk]; rfl

variable (hdisjoint : ∀ c, p c = true → starts t c = false)
include hdisjoint

/-- What follows an option does not start as the option does. -/
theorem greedy_opt_seq : Greedy (seq (opt (char p)) t) := by
  intro s
  cases s with
  | nil =>
    rw [run, run, run, List.nil_append, flatMap_nothing]
    exact ht []
  | cons c s =>
    by_cases hp : p c = true
    · rw [run_opt_seq hp]
      exact longestFirst_append (longestFirst_cons (ht s)) fun k hk => text_eq_nil (hdisjoint c hp) hk
    · rw [run, run, run, if_neg hp, List.nil_append, flatMap_nothing]
      exact ht (c :: s)

theorem greedy_many_seq : Greedy (seq (many p) t) := by
  intro s
  induction s with
  | nil =>
    rw [run, run, repeats, flatMap_nothing]
    exact ht []
  | cons c s ih =>
    by_cases hp : p c = true
    · rw [run_many_seq hp]
      exact longestFirst_append (longestFirst_cons ih) fun k hk => text_eq_nil (hdisjoint c hp) hk
    · rw [run, run, repeats, if_neg hp, flatMap_nothing]
      exact ht (c :: s)

end

theorem greedy_many {p : α → Bool} : Greedy (many p) := by
  intro s
  induction s with
  | nil => exact fun m hm k hk => by rw [List.mem_singleton.mp hk]; exact Nat.zero_le _
  | cons c s ih =>
    rw [run, repeats]
    have hnothing : ∀ k ∈ [nothing (c :: s)], k.text = [] := fun k hk => by rw [List.mem_singleton.mp hk]; rfl
    by_cases hp : p c = true
    · rw [if_pos hp]
      exact longestFirst_append (longestFirst_cons ih) hnothing
    · rw [if_neg hp]
      intro m _ k hk
      rw [hnothing k hk]
      exact Nat.zero_le _

/-- The match of a greedy expression is the longest text of the language that
the input begins with. -/
theorem Greedy.longest {r : Regex α} (hr : Greedy r) {s : List α} {m : Match α} (h : first r s = some m)
    {w : List α} (hw : w <+: s) (hlang : Lang r w) : w.length ≤ m.text.length := by
  obtain ⟨t, rfl⟩ := hw
  obtain ⟨k, hk, rfl, _⟩ := run_complete hlang t
  exact hr _ m h k hk

/-! ## The leftmost match -/

/-- `b` belongs to the first place of the input that has anything. -/
inductive Leftmost (P : List α → β → Prop) : List α → β → Prop where
  | here {s : List α} {b : β} (h : P s b) : Leftmost P s b
  | later {c : α} {s : List α} {b : β} (hc : ∀ d, ¬ P (c :: s) d) (h : Leftmost P s b) : Leftmost P (c :: s) b

theorem search_leftmost {r : Regex α} {s : List α} {m : Match α} (h : search r s = some m) :
    Leftmost (fun s m => first r s = some m) s m := by
  induction s with
  | nil => exact .here h
  | cons c s ih =>
    rw [search] at h
    cases hfirst : first r (c :: s) with
    | some k =>
      rw [hfirst] at h
      obtain rfl := Option.some.inj h
      exact .here hfirst
    | none =>
      rw [hfirst] at h
      refine .later (fun k hk => ?_) (ih h)
      rw [hfirst] at hk
      cases hk

theorem search_isSome {r : Regex α} {s : List α} {m : Match α} (before : List α) (h : first r s = some m) :
    ∃ k, search r (before ++ s) = some k := by
  induction before with
  | nil =>
    cases s with
    | nil => exact ⟨m, h⟩
    | cons c s => exact ⟨m, by rw [List.nil_append, search, h]; rfl⟩
  | cons c before ih =>
    obtain ⟨k, hk⟩ := ih
    rw [List.cons_append, search, hk]
    cases first r (c :: (before ++ s)) with
    | none => exact ⟨k, rfl⟩
    | some n => exact ⟨n, rfl⟩

theorem search_of_first {r : Regex α} {s : List α} {m : Match α} (h : first r s = some m) : search r s = some m := by
  cases s with
  | nil => exact h
  | cons c s =>
    rw [search, h]
    rfl

theorem search_append {r : Regex α} {s t : List α} (h : ∀ c u, c :: u <:+ s → first r (c :: u ++ t) = none) :
    search r (s ++ t) = search r t := by
  induction s with
  | nil => rfl
  | cons c s ih =>
    have hno : first r (c :: (s ++ t)) = none := h c s (List.suffix_refl _)
    rw [List.cons_append, search, hno, Option.none_or, ih fun d u hu => h d u (hu.trans (List.suffix_cons c s))]

namespace Leftmost

variable {γ : Type} {P : List α → β → Prop} {Q : List α → γ → Prop} {R : β → γ → Prop} {s t : List α} {b : β}

theorem imp (h : Leftmost P s b) (himp : ∀ s b, P s b → ∃ c, Q s c ∧ R b c) (hback : ∀ s c, Q s c → ∃ b, P s b) :
    ∃ c, Leftmost Q s c ∧ R b c := by
  induction h with
  | here h =>
    obtain ⟨c, hc, hr⟩ := himp _ _ h
    exact ⟨c, .here hc, hr⟩
  | later hno _ ih =>
    obtain ⟨c, hc, hr⟩ := ih
    refine ⟨c, .later (fun d hd => ?_) hc, hr⟩
    obtain ⟨b, hb⟩ := hback _ _ hd
    exact hno b hb

theorem unique {R : β → β → Prop} {c : β} (h : Leftmost P s b) (h' : Leftmost P s c)
    (hR : ∀ s b c, P s b → P s c → R b c) : R b c := by
  induction h with
  | here h =>
    cases h' with
    | here h' => exact hR _ _ _ h h'
    | later hno _ => exact absurd h (hno _)
  | later hno _ ih =>
    cases h' with
    | here h' => exact absurd h' (hno _)
    | later _ h' => exact ih h'

/-! The input may go on where nothing that begins before goes on with it. -/

variable (hext : ∀ c u b, P (c :: u ++ t) b ↔ P (c :: u) b)
include hext

theorem append (hnil : ∀ b, ¬ P [] b) (h : Leftmost P s b) : Leftmost P (s ++ t) b := by
  induction h with
  | @here s b h =>
    cases s with
    | nil => exact absurd h (hnil b)
    | cons c s => exact .here ((hext c s b).mpr h)
  | later hno _ ih => exact .later (fun d hd => hno d ((hext _ _ d).mp hd)) ih

theorem append_right (hno : ∀ b, ¬ Leftmost P s b) (h : P t b) : Leftmost P (s ++ t) b := by
  induction s with
  | nil => exact .here h
  | cons c s ih =>
    have hhere : ∀ d, ¬ P (c :: s) d := fun d hd => hno d (.here hd)
    exact .later (fun d hd => hhere d ((hext c s d).mp hd)) (ih fun d hd => hno d (.later hhere hd))

end Leftmost

end Regex
