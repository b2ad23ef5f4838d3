import Mathlib.Data.Rat.Floor
import Mathlib.Data.List.Basic
import Mathlib.Data.List.DropRight
import Mathlib.Data.List.TakeWhile

/-!
# Built-in functions of Python

The few built-ins that the programs here rely on, as the language defines them.
-/

namespace Python

/-- `round(x)`: to the nearest integer, ties to the even one. -/
def round (x : ℚ) : Int :=
  let f := ⌊x⌋
  if x - f < 1 / 2 then f
  else if 1 / 2 < x - f then f + 1
  else if f % 2 = 0 then f else f + 1

theorem round_intCast (n : Int) : round (n : ℚ) = n := by
  simp [round]

@[simp] theorem round_zero : round 0 = 0 := by
  rw [← Int.cast_zero, round_intCast]

theorem round_cases (x : ℚ) :
    (round x = ⌊x⌋ ∧ (Int.fract x < 1 / 2 ∨ Int.fract x = 1 / 2 ∧ ⌊x⌋ % 2 = 0)) ∨
      (round x = ⌊x⌋ + 1 ∧ (1 / 2 < Int.fract x ∨ Int.fract x = 1 / 2 ∧ ⌊x⌋ % 2 ≠ 0)) := by
  unfold round
  have hf : x - ⌊x⌋ = Int.fract x := rfl
  simp only [hf]
  rcases lt_trichotomy (Int.fract x) (1 / 2) with h | h | h
  · exact .inl ⟨if_pos h, .inl h⟩
  · rw [if_neg (by rw [h]; exact lt_irrefl _), if_neg (by rw [h]; exact lt_irrefl _)]
    by_cases he : ⌊x⌋ % 2 = 0
    · exact .inl ⟨if_pos he, .inr ⟨h, he⟩⟩
    · exact .inr ⟨if_neg he, .inr ⟨h, he⟩⟩
  · rw [if_neg (not_lt.mpr h.le), if_pos h]
    exact .inr ⟨rfl, .inl h⟩

theorem round_nonneg {x : ℚ} (h : 0 ≤ x) : 0 ≤ round x := by
  have hfloor : 0 ≤ ⌊x⌋ := Int.floor_nonneg.mpr h
  rcases round_cases x with ⟨hr, _⟩ | ⟨hr, _⟩ <;> omega

theorem round_pos_iff {x : ℚ} (h : 0 ≤ x) : 0 < round x ↔ 1 / 2 < x := by
  have hx : (⌊x⌋ : ℚ) + Int.fract x = x := Int.floor_add_fract x
  have hfloor : 0 ≤ ⌊x⌋ := Int.floor_nonneg.mpr h
  rcases lt_or_ge 0 ⌊x⌋ with hpos | hzero
  · have hone : (1 : ℚ) ≤ ⌊x⌋ := by exact_mod_cast hpos
    have hround : 0 < round x := by rcases round_cases x with ⟨hr, _⟩ | ⟨hr, _⟩ <;> omega
    exact ⟨fun _ => by linarith [Int.fract_nonneg x], fun _ => hround⟩
  · have hz : ⌊x⌋ = 0 := le_antisymm hzero hfloor
    rw [hz, Int.cast_zero, zero_add] at hx
    rcases round_cases x with ⟨hr, hf⟩ | ⟨hr, hf⟩
    · rw [hr, hz, ← hx]
      refine ⟨fun h => absurd h (lt_irrefl _), fun h => ?_⟩
      rcases hf with hf | ⟨hf, _⟩
      · exact absurd h (not_lt.mpr hf.le)
      · rw [hf] at h; exact absurd h (lt_irrefl _)
    · rw [hr, hz, ← hx]
      refine ⟨fun _ => ?_, fun _ => by decide⟩
      rcases hf with hf | ⟨_, hodd⟩
      · exact hf
      · rw [hz] at hodd; exact absurd rfl hodd

/-- `int(x)` of a float: towards zero. -/
def trunc (x : ℚ) : Int := if 0 ≤ x then ⌊x⌋ else ⌈x⌉

/-- `d.get(key)` on a dict built from pairs: the last value of a key counts. -/
def dictGet (pairs : List (String × String)) (key : String) : Option String :=
  (pairs.reverse.find? fun p => p.1 = key).map Prod.snd

def contains (text needle : String) : Bool := text.toList.tails.any needle.toList.isPrefixOf

/-! ## Indexing -/

structure IndexError
deriving DecidableEq, Repr

/-- `xs[i]`: a negative index counts from the end. -/
def item {α : Type} (xs : List α) (i : Int) : Except IndexError α :=
  let j := if i < 0 then i + xs.length else i
  if j < 0 then .error ⟨⟩
  else match xs[j.toNat]? with
    | some x => .ok x
    | none => .error ⟨⟩

theorem item_of_lt {α : Type} {xs : List α} {i : Nat} (hi : i < xs.length) : item xs i = .ok xs[i] := by
  have hnonneg : ¬ (i : Int) < 0 := by omega
  unfold item
  simp only [if_neg hnonneg, Int.toNat_natCast, List.getElem?_eq_getElem hi]

/-! ## `str.strip` and `int(text)` -/

def isSpace (c : Char) : Bool :=
  let n := c.toNat
  (9 ≤ n ∧ n ≤ 13) ∨ (28 ≤ n ∧ n ≤ 32) ∨ n = 0x85 ∨ n = 0xa0 ∨ n = 0x1680 ∨ (0x2000 ≤ n ∧ n ≤ 0x200a) ∨
    n = 0x2028 ∨ n = 0x2029 ∨ n = 0x202f ∨ n = 0x205f ∨ n = 0x3000

def strip (cs : List Char) : List Char := ((cs.dropWhile isSpace).reverse.dropWhile isSpace).reverse

/-- `text.strip()`. -/
def stripText (text : String) : String := String.ofList (strip text.toList)

def digits (cs : List Char) : Option Nat :=
  let groups := cs.splitOn '_'
  if groups.all fun g => !g.isEmpty && g.all Char.isDigit then some (Nat.ofDigitChars 10 groups.flatten 0)
  else none

/-- `int(text)` of an ASCII text; `none` is a `ValueError`. -/
def int (text : String) : Option Int :=
  let cs := strip text.toList
  if cs.head? = some '-' then (digits cs.tail).map fun n => -(n : Int)
  else if cs.head? = some '+' then (digits cs.tail).map fun n => (n : Int)
  else (digits cs).map fun n => (n : Int)

theorem dropWhile_eq_self {cs : List Char} (h : ∀ c ∈ cs, isSpace c = false) : cs.dropWhile isSpace = cs := by
  cases cs with
  | nil => rfl
  | cons c cs => rw [List.dropWhile_cons, h c List.mem_cons_self]; rfl

theorem strip_eq_self {cs : List Char} (h : ∀ c ∈ cs, isSpace c = false) : strip cs = cs := by
  unfold strip
  rw [dropWhile_eq_self h, dropWhile_eq_self fun c hc => h c (List.mem_reverse.mp hc), List.reverse_reverse]

theorem strip_eq (cs : List Char) : strip cs = (cs.dropWhile isSpace).rdropWhile isSpace := rfl

theorem dropWhile_strip (cs : List Char) : (strip cs).dropWhile isSpace = strip cs := by
  rw [List.dropWhile_eq_self_iff]
  intro hlen
  have hbegin : strip cs <+: cs.dropWhile isSpace := List.rdropWhile_prefix ..
  have hdrop : 0 < (cs.dropWhile isSpace).length := Nat.lt_of_lt_of_le hlen hbegin.length_le
  rw [hbegin.getElem hlen]
  exact List.dropWhile_eq_self_iff.mp (List.dropWhile_idempotent ..) hdrop

theorem strip_strip (cs : List Char) : strip (strip cs) = strip cs := by
  rw [strip_eq (strip cs), dropWhile_strip, strip_eq, List.rdropWhile_idempotent]

theorem stripText_stripText (text : String) : stripText (stripText text) = stripText text := by
  unfold stripText
  rw [String.toList_ofList, strip_strip]

theorem not_isSpace_of_isDigit {c : Char} (h : c.isDigit = true) : isSpace c = false := by
  have hc : 48 ≤ c.toNat ∧ c.toNat ≤ 57 := by
    simpa [Char.isDigit, UInt32.le_iff_toNat_le] using h
  unfold isSpace
  simp only [decide_eq_false_iff_not]
  omega

theorem isDigit_of_mem {n : Nat} {c : Char} (h : c ∈ Nat.toDigits 10 n) : c.isDigit = true :=
  Nat.isDigit_of_mem_toDigits (by decide) (by decide) h

theorem digits_toDigits (n : Nat) : digits (Nat.toDigits 10 n) = some n := by
  have hsplit : (Nat.toDigits 10 n).splitOn '_' = [Nat.toDigits 10 n] := by
    unfold List.splitOn
    apply List.splitOnP_eq_singleton
    intro c hc
    by_cases heq : c = '_'
    · subst heq
      exact absurd (isDigit_of_mem hc) (by decide)
    · simp [heq]
  have hall : (Nat.toDigits 10 n).all Char.isDigit = true := List.all_eq_true.mpr fun c hc => isDigit_of_mem hc
  unfold digits
  rw [hsplit]
  simp [hall, Nat.toDigits_ne_nil, Nat.ofDigitChars_ten_toDigits]

theorem int_toString (n : Int) : int (toString n) = some n := by
  have hspace : ∀ (m : Nat), ∀ c ∈ Nat.toDigits 10 m, isSpace c = false := fun m c hc =>
    not_isSpace_of_isDigit (isDigit_of_mem hc)
  cases n with
  | ofNat m =>
    have hlist : (toString (Int.ofNat m)).toList = Nat.toDigits 10 m := Nat.toList_repr
    have hhead : ∀ c : Char, c.isDigit = false → (Nat.toDigits 10 m).head? ≠ some c := by
      intro c hc heq
      have := isDigit_of_mem (List.mem_of_head? heq)
      rw [hc] at this
      cases this
    unfold int
    simp only [hlist, strip_eq_self (hspace m)]
    rw [if_neg (hhead '-' (by decide)), if_neg (hhead '+' (by decide)), digits_toDigits]
    rfl
  | negSucc m =>
    have hlist : (toString (Int.negSucc m)).toList = '-' :: Nat.toDigits 10 (m + 1) := by
      show ("-" ++ (m + 1).repr).toList = _
      rw [String.toList_append, Nat.toList_repr]
      rfl
    have hstrip : strip ('-' :: Nat.toDigits 10 (m + 1)) = '-' :: Nat.toDigits 10 (m + 1) := by
      apply strip_eq_self
      intro c hc
      rcases List.mem_cons.mp hc with rfl | hc
      · decide
      · exact hspace (m + 1) c hc
    unfold int
    simp only [hlist, hstrip, List.head?_cons, List.tail_cons, if_true, digits_toDigits]
    rfl

end Python
