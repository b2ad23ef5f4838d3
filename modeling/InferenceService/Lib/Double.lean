import InferenceService.Lib.Python
import Mathlib.Algebra.Order.Field.Power
import Mathlib.Data.Int.Log
import Mathlib.Tactic.GCongr
import Mathlib.Tactic.Linarith
import Mathlib.Tactic.Positivity
import Mathlib.Tactic.Ring

/-!
# Double precision arithmetic

The numbers of the format binary64 with rounding to the nearest one, ties to
the even significand. The exponent has its lower bound and no upper one, so
subnormal numbers are here and infinities are not.
-/

namespace Python

/-! ## `round` as a function on the line -/

theorem round_mono {x y : ℚ} (h : x ≤ y) : round x ≤ round y := by
  have hfloor : ⌊x⌋ ≤ ⌊y⌋ := Int.floor_le_floor h
  have hx := round_cases x
  have hy := round_cases y
  rcases Int.lt_or_eq_of_le hfloor with hlt | heq
  · omega
  · have hfract : Int.fract x ≤ Int.fract y := by
      unfold Int.fract
      rw [heq]
      linarith
    rcases hx with ⟨hx, _⟩ | ⟨hx, hfx⟩
    · omega
    · rcases hy with ⟨_, hfy⟩ | ⟨hy, _⟩
      · exfalso
        rcases hfx with hfx | ⟨hfx, hodd⟩ <;> rcases hfy with hfy | ⟨hfy, heven⟩
        · linarith
        · linarith
        · linarith
        · rw [heq] at hodd
          exact hodd heven
      · omega

/-- The nearest integer is at most a half away. -/
theorem abs_round_sub_le (x : ℚ) : |round x - x| ≤ 1 / 2 := by
  have hx : (⌊x⌋ : ℚ) + Int.fract x = x := Int.floor_add_fract x
  have hnonneg := Int.fract_nonneg x
  have hlt := Int.fract_lt_one x
  rw [abs_le]
  rcases round_cases x with ⟨hr, hf⟩ | ⟨hr, hf⟩
  · rw [hr]
    rcases hf with hf | ⟨hf, _⟩ <;> constructor <;> linarith
  · rw [hr, Int.cast_add, Int.cast_one]
    rcases hf with hf | ⟨hf, _⟩ <;> constructor <;> linarith

theorem round_eq_of_near {x : ℚ} {n : Int} (h : |x - n| < 1 / 2) : round x = n := by
  have hround := abs_le.mp (abs_round_sub_le x)
  obtain ⟨hlow, hhigh⟩ := abs_lt.mp h
  have hlt : (n : ℚ) < round x + 1 := by linarith [hround.1, hround.2]
  have hgt : (round x : ℚ) < n + 1 := by linarith [hround.1, hround.2]
  have hlt' : n < round x + 1 := by exact_mod_cast hlt
  have hgt' : round x < n + 1 := by exact_mod_cast hgt
  omega

theorem round_neg (x : ℚ) : round (-x) = -round x := by
  by_cases hz : Int.fract x = 0
  · obtain ⟨n, rfl⟩ : ∃ n : Int, (n : ℚ) = x := ⟨⌊x⌋, by linarith [Int.floor_add_fract x]⟩
    rw [← Int.cast_neg, round_intCast, round_intCast]
  · have hfract : Int.fract (-x) = 1 - Int.fract x := Int.fract_neg hz
    have hfloor : ⌊-x⌋ = -⌊x⌋ - 1 := by
      have h : ((⌊-x⌋ : Int) : ℚ) = ((-⌊x⌋ - 1 : Int) : ℚ) := by
        push_cast
        linarith [Int.floor_add_fract x, Int.floor_add_fract (-x)]
      exact_mod_cast h
    rcases round_cases x with ⟨hx, hfx⟩ | ⟨hx, hfx⟩ <;> rcases round_cases (-x) with ⟨hy, hfy⟩ | ⟨hy, hfy⟩
    · exfalso
      rw [hfract, hfloor] at hfy
      rcases hfx with hfx | ⟨hfx, heven⟩ <;> rcases hfy with hfy | ⟨hfy, heven'⟩
      · linarith
      · linarith
      · linarith
      · omega
    · omega
    · omega
    · exfalso
      rw [hfract, hfloor] at hfy
      rcases hfx with hfx | ⟨hfx, hodd⟩ <;> rcases hfy with hfy | ⟨hfy, hodd'⟩
      · linarith
      · linarith
      · linarith
      · omega

end Python

namespace Double

/-! ## Rounding a rational -/

/-- The exponent of the last place that a double near `x` has. -/
def lastPlace (x : ℚ) : ℤ := max (Int.log 2 |x| - 52) (-1074)

def nearest (x : ℚ) : ℚ := Python.round (x / 2 ^ lastPlace x) * 2 ^ lastPlace x

/-- A significand of at most 53 bits and an exponent that is not too low. -/
def Representable (x : ℚ) : Prop := ∃ (m e : ℤ), -1074 ≤ e ∧ |m| ≤ 2 ^ 53 ∧ x = m * 2 ^ e

section
variable {x y : ℚ}

theorem lastPlace_ge (x : ℚ) : -1074 ≤ lastPlace x := le_max_right _ _

theorem lastPlace_neg (x : ℚ) : lastPlace (-x) = lastPlace x := by rw [lastPlace, lastPlace, abs_neg]

theorem two_zpow_pos (k : ℤ) : (0 : ℚ) < 2 ^ k := zpow_pos (by norm_num) k

theorem two_zpow_le {a b : ℤ} (h : a ≤ b) : (2 : ℚ) ^ a ≤ 2 ^ b := zpow_le_zpow_right₀ (by norm_num) h

theorem abs_lt_lastPlace (x : ℚ) : |x| < 2 ^ 53 * 2 ^ lastPlace x := by
  have hlog : |x| < (2 : ℚ) ^ (Int.log 2 |x| + 1) := by exact_mod_cast Int.lt_zpow_succ_log_self (by decide) |x|
  have hle : Int.log 2 |x| + 1 ≤ 53 + lastPlace x := by
    have := le_max_left (Int.log 2 |x| - 52) (-1074)
    unfold lastPlace
    omega
  calc |x| < 2 ^ (Int.log 2 |x| + 1) := hlog
    _ ≤ 2 ^ (53 + lastPlace x) := two_zpow_le hle
    _ = 2 ^ 53 * 2 ^ lastPlace x := by rw [zpow_add₀ (by norm_num)]; norm_num

/-- Above the lowest exponent a number fills its significand. -/
theorem lastPlace_le_abs (hx : x ≠ 0) (h : -1074 < lastPlace x) : 2 ^ 52 * 2 ^ lastPlace x ≤ |x| := by
  have hlog : (2 : ℚ) ^ Int.log 2 |x| ≤ |x| := by exact_mod_cast Int.zpow_log_le_self (by decide) (abs_pos.mpr hx)
  have heq : lastPlace x = Int.log 2 |x| - 52 := by
    unfold lastPlace at h ⊢
    omega
  rw [heq]
  calc (2 : ℚ) ^ 52 * 2 ^ (Int.log 2 |x| - 52) = 2 ^ Int.log 2 |x| := by
        rw [zpow_sub₀ (by norm_num)]
        norm_num
        ring
    _ ≤ |x| := hlog

theorem lastPlace_le {k : ℤ} (hx : x ≠ 0) (h : |x| < 2 ^ (k + 53)) (hk : -1074 ≤ k) : lastPlace x ≤ k := by
  have hlog := (Int.lt_zpow_iff_log_lt (b := 2) (by decide) (abs_pos.mpr hx)).mp (by exact_mod_cast h)
  unfold lastPlace
  omega

theorem nearest_zero : nearest 0 = 0 := by simp [nearest]

theorem nearest_neg (x : ℚ) : nearest (-x) = -nearest x := by
  unfold nearest
  rw [lastPlace_neg, neg_div, Python.round_neg, Int.cast_neg, neg_mul]

/-- The significand that `nearest` finds. -/
theorem abs_round_le (x : ℚ) : |Python.round (x / 2 ^ lastPlace x)| ≤ 2 ^ 53 := by
  have hpos := two_zpow_pos (lastPlace x)
  have habs : |x / 2 ^ lastPlace x| ≤ 2 ^ 53 := by
    rw [abs_div, abs_of_pos hpos, div_le_iff₀ hpos]
    exact (abs_lt_lastPlace x).le
  obtain ⟨hlow, hhigh⟩ := abs_le.mp habs
  have hlow' := Python.round_mono hlow
  have hhigh' := Python.round_mono hhigh
  have hbound : Python.round ((2 : ℚ) ^ 53) = 2 ^ 53 := by
    rw [← Python.round_intCast (2 ^ 53)]
    norm_num
  rw [Python.round_neg, hbound] at hlow'
  rw [hbound] at hhigh'
  exact abs_le.mpr ⟨hlow', hhigh'⟩

theorem representable_nearest (x : ℚ) : Representable (nearest x) :=
  ⟨_, _, lastPlace_ge x, abs_round_le x, rfl⟩

theorem nearest_of_integer {n : ℤ} (h : x = n * 2 ^ lastPlace x) : nearest x = x := by
  have hdiv : x / 2 ^ lastPlace x = n := by
    rw [div_eq_iff (two_zpow_pos _).ne']
    exact h
  unfold nearest
  rw [hdiv, Python.round_intCast]
  exact h.symm

theorem nearest_of_representable (h : Representable x) : nearest x = x := by
  obtain ⟨m, e, he, hm, rfl⟩ := h
  by_cases hx : (m : ℚ) * 2 ^ e = 0
  · rw [hx, nearest_zero]
  · -- a significand of 2 ^ 53 is one of 2 ^ 52 at the next exponent
    have habs : |(m : ℚ) * 2 ^ e| = |(m : ℚ)| * 2 ^ e := by rw [abs_mul, abs_of_pos (two_zpow_pos e)]
    have hcast : |(m : ℚ)| = ((|m| : ℤ) : ℚ) := by rw [Int.cast_abs]
    rcases Int.lt_or_eq_of_le hm with hlt | heq
    · have hle : lastPlace ((m : ℚ) * 2 ^ e) ≤ e := by
        refine lastPlace_le hx ?_ he
        rw [habs, add_comm, zpow_add₀ (by norm_num), hcast]
        refine mul_lt_mul_of_pos_right ?_ (two_zpow_pos e)
        exact_mod_cast hlt
      obtain ⟨d, hd⟩ := Int.le.dest hle
      refine nearest_of_integer (n := m * 2 ^ d) ?_
      conv_lhs => rw [← hd, zpow_add₀ (by norm_num)]
      push_cast
      rw [zpow_natCast]
      ring
    · have hle : lastPlace ((m : ℚ) * 2 ^ e) ≤ e + 1 := by
        refine lastPlace_le hx ?_ (by omega)
        rw [habs, hcast, heq]
        rw [show e + 1 + 53 = 54 + e by ring, zpow_add₀ (by norm_num)]
        refine mul_lt_mul_of_pos_right ?_ (two_zpow_pos e)
        norm_num
      obtain ⟨d, hd⟩ := Int.le.dest hle
      obtain ⟨n, hn⟩ : ∃ n : ℤ, m = 2 * n := by
        rcases abs_choice m with h | h
        · exact ⟨2 ^ 52, by omega⟩
        · exact ⟨-2 ^ 52, by omega⟩
      refine nearest_of_integer (n := n * 2 ^ d) ?_
      have hpow : (2 : ℚ) ^ e * 2 = 2 ^ lastPlace ((m : ℚ) * 2 ^ e) * 2 ^ d := by
        rw [← zpow_natCast, ← zpow_add₀ (by norm_num), hd, zpow_add₀ (by norm_num), zpow_one]
      calc (m : ℚ) * 2 ^ e = n * (2 ^ e * 2) := by rw [hn]; push_cast; ring
        _ = ((n * 2 ^ d : ℤ) : ℚ) * 2 ^ lastPlace ((m : ℚ) * 2 ^ e) := by rw [hpow]; push_cast; ring

@[simp] theorem nearest_nearest (x : ℚ) : nearest (nearest x) = nearest x :=
  nearest_of_representable (representable_nearest x)

theorem representable_intCast {n : ℤ} (h : |n| ≤ 2 ^ 53) : Representable n := ⟨n, 0, by decide, h, by simp⟩

theorem nearest_nonneg (h : 0 ≤ x) : 0 ≤ nearest x := by
  have hpos := two_zpow_pos (lastPlace x)
  have hround : (0 : ℚ) ≤ Python.round (x / 2 ^ lastPlace x) := by exact_mod_cast Python.round_nonneg (by positivity)
  unfold nearest
  positivity

/-- On one binade rounding is monotone as `round` is; a number of a higher
binade keeps above all of a lower one. -/
theorem nearest_mono_of_pos (hx : 0 < x) (h : x ≤ y) : nearest x ≤ nearest y := by
  have hy : 0 < y := lt_of_lt_of_le hx h
  have hplace : lastPlace x ≤ lastPlace y := by
    have hlog : Int.log 2 |x| ≤ Int.log 2 |y| := by
      rw [abs_of_pos hx, abs_of_pos hy]
      exact Int.log_mono_right hx h
    unfold lastPlace
    omega
  rcases Int.lt_or_eq_of_le hplace with hlt | heq
  · have hfill := lastPlace_le_abs hy.ne' (by have := lastPlace_ge x; omega)
    have hposx := two_zpow_pos (lastPlace x)
    have hposy := two_zpow_pos (lastPlace y)
    have hleast : (2 : ℤ) ^ 52 ≤ Python.round (y / 2 ^ lastPlace y) := by
      have hdiv : (((2 : ℤ) ^ 52 : ℤ) : ℚ) ≤ y / 2 ^ lastPlace y := by
        rw [le_div_iff₀ hposy]
        rw [abs_of_pos hy] at hfill
        exact_mod_cast hfill
      have := Python.round_mono hdiv
      rwa [Python.round_intCast] at this
    have hmost := (abs_le.mp (abs_round_le x)).2
    calc nearest x ≤ 2 ^ 53 * 2 ^ lastPlace x := by
          unfold nearest
          refine mul_le_mul_of_nonneg_right ?_ hposx.le
          exact_mod_cast hmost
      _ = 2 ^ 52 * 2 ^ (lastPlace x + 1) := by rw [zpow_add₀ (by norm_num)]; ring
      _ ≤ 2 ^ 52 * 2 ^ lastPlace y := by
          refine mul_le_mul_of_nonneg_left (two_zpow_le (by omega)) (by norm_num)
      _ ≤ nearest y := by
          unfold nearest
          refine mul_le_mul_of_nonneg_right ?_ hposy.le
          exact_mod_cast hleast
  · unfold nearest
    rw [heq]
    have hpos := two_zpow_pos (lastPlace y)
    refine mul_le_mul_of_nonneg_right ?_ hpos.le
    exact_mod_cast Python.round_mono (div_le_div_of_nonneg_right h hpos.le)

theorem nearest_mono (h : x ≤ y) : nearest x ≤ nearest y := by
  rcases lt_or_ge 0 x with hx | hx
  · exact nearest_mono_of_pos hx h
  · rcases lt_or_ge 0 (-y) with hy | hy
    · have := nearest_mono_of_pos hy (neg_le_neg h)
      rw [nearest_neg, nearest_neg] at this
      exact neg_le_neg_iff.mp this
    · have hxneg : nearest x ≤ 0 := by
        have := nearest_nonneg (neg_nonneg.mpr hx)
        rw [nearest_neg] at this
        linarith
      exact le_trans hxneg (nearest_nonneg (by linarith))

/-- How far rounding may move a number of at most `2 ^ k`. -/
theorem abs_nearest_sub_le {k : ℤ} (h : |x| ≤ 2 ^ k) (hk : -1022 ≤ k) : |nearest x - x| ≤ 2 ^ (k - 53) := by
  by_cases hx : x = 0
  · subst hx
    rw [nearest_zero, sub_zero, abs_zero]
    exact (two_zpow_pos _).le
  · have hle : lastPlace x ≤ k - 52 := by
      refine lastPlace_le hx (lt_of_le_of_lt h ?_) (by omega)
      rw [show k - 52 + 53 = k + 1 by ring]
      exact zpow_lt_zpow_right₀ (by norm_num) (by omega)
    have hpos := two_zpow_pos (lastPlace x)
    have heq : nearest x - x = (Python.round (x / 2 ^ lastPlace x) - x / 2 ^ lastPlace x) * 2 ^ lastPlace x := by
      unfold nearest
      rw [sub_mul, div_mul_cancel₀ _ hpos.ne']
    calc |nearest x - x| = |Python.round (x / 2 ^ lastPlace x) - x / 2 ^ lastPlace x| * 2 ^ lastPlace x := by
          rw [heq, abs_mul, abs_of_pos hpos]
      _ ≤ 1 / 2 * 2 ^ (k - 52) := by
          gcongr
          · exact Python.abs_round_sub_le _
          · norm_num
      _ = 2 ^ (k - 53) := by
          rw [show k - 52 = k - 53 + 1 by ring, zpow_add₀ (by norm_num)]
          ring

end

end Double

/-! ## The doubles -/

structure Double where
  value : ℚ
  nearest_value : Double.nearest value = value
deriving DecidableEq, Repr

namespace Double

theorem value_injective : Function.Injective value := by
  rintro ⟨x, hx⟩ ⟨y, hy⟩ h
  simp only at h
  subst h
  rfl

def ofRat (x : ℚ) : Double := ⟨nearest x, nearest_nearest x⟩

instance : Zero Double := ⟨⟨0, nearest_zero⟩⟩

instance : LinearOrder Double := LinearOrder.lift' value value_injective

instance : Add Double := ⟨fun a b => ofRat (a.value + b.value)⟩

instance : Sub Double := ⟨fun a b => ofRat (a.value - b.value)⟩

instance : Mul Double := ⟨fun a b => ofRat (a.value * b.value)⟩

instance : Div Double := ⟨fun a b => ofRat (a.value / b.value)⟩

/-- `round(x, 6)`. -/
def round6 (x : Double) : Double := ofRat (Python.round (x.value * 1000000) / 1000000)

section
variable {a b c : Double} {x y : ℚ}

@[simp] theorem value_ofRat (x : ℚ) : (ofRat x).value = nearest x := rfl

@[simp] theorem value_zero : (0 : Double).value = 0 := rfl

theorem value_sub (a b : Double) : (a - b).value = nearest (a.value - b.value) := rfl

theorem value_mul (a b : Double) : (a * b).value = nearest (a.value * b.value) := rfl

theorem value_div (a b : Double) : (a / b).value = nearest (a.value / b.value) := rfl

theorem le_iff : a ≤ b ↔ a.value ≤ b.value := Iff.rfl

theorem lt_iff : a < b ↔ a.value < b.value := Iff.rfl

theorem value_nonneg (h : 0 ≤ a) : 0 ≤ a.value := h

theorem value_pos (h : 0 < a) : 0 < a.value := h

theorem representable (a : Double) : Representable a.value := by
  rw [← a.nearest_value]
  exact representable_nearest _

@[simp] theorem ofRat_value (a : Double) : ofRat a.value = a := value_injective a.nearest_value

theorem ofRat_mono (h : x ≤ y) : ofRat x ≤ ofRat y := nearest_mono h

@[simp] theorem ofRat_zero : ofRat 0 = 0 := value_injective nearest_zero

/-- Doubles lie on one grid, the finest that there is. -/
theorem exists_grid (a : Double) : ∃ n : ℤ, a.value = n * 2 ^ (-1074 : ℤ) := by
  obtain ⟨m, e, he, _, h⟩ := a.representable
  obtain ⟨d, hd⟩ := Int.le.dest he
  refine ⟨m * 2 ^ d, ?_⟩
  rw [h, ← hd, zpow_add₀ (by norm_num), zpow_natCast, Int.cast_mul, Int.cast_pow, Int.cast_ofNat]
  ring_nf

/-- Two doubles that differ have a difference that does not round to zero. -/
theorem sub_pos : 0 < a - b ↔ b < a := by
  rw [lt_iff, lt_iff, value_sub, value_zero]
  constructor
  · intro h
    by_contra hle
    have hneg : a.value - b.value ≤ 0 := by linarith
    have := nearest_mono hneg
    rw [nearest_zero] at this
    exact absurd h (not_lt.mpr this)
  · intro h
    obtain ⟨m, hm⟩ := a.exists_grid
    obtain ⟨n, hn⟩ := b.exists_grid
    have hpos := two_zpow_pos (-1074)
    have hlt : n < m := by
      rw [hm, hn] at h
      exact_mod_cast lt_of_mul_lt_mul_right h hpos.le
    have hleast : (2 : ℚ) ^ (-1074 : ℤ) ≤ a.value - b.value := by
      rw [hm, hn, ← sub_mul]
      refine le_mul_of_one_le_left hpos.le ?_
      have : n + 1 ≤ m := hlt
      have : ((n + 1 : ℤ) : ℚ) ≤ m := by exact_mod_cast this
      push_cast at this
      linarith
    have hrep : Representable ((2 : ℚ) ^ (-1074 : ℤ)) := ⟨1, -1074, le_refl _, by decide, by rw [Int.cast_one, one_mul]⟩
    have := nearest_mono hleast
    rw [nearest_of_representable hrep] at this
    exact lt_of_lt_of_le hpos this

theorem sub_le_sub_right (h : a ≤ b) (c : Double) : a - c ≤ b - c :=
  nearest_mono (by have := le_iff.mp h; linarith)

/-! ## Rounding to microseconds -/

theorem round6_zero : (0 : Double).round6.value = 0 := by simp [round6]

theorem round6_nonneg (h : 0 ≤ a) : 0 ≤ a.round6.value := by
  have hx : 0 ≤ a.value * 1000000 := mul_nonneg (value_nonneg h) (by norm_num)
  have hround : (0 : ℚ) ≤ Python.round (a.value * 1000000) := by exact_mod_cast Python.round_nonneg hx
  exact nearest_nonneg (by positivity)

theorem round6_pos_iff (h : 0 ≤ a) : 0 < a.round6.value ↔ 1 / 2 < a.value * 1000000 := by
  have hx : 0 ≤ a.value * 1000000 := mul_nonneg (value_nonneg h) (by norm_num)
  rw [← Python.round_pos_iff hx]
  constructor
  · intro hpos
    by_contra hzero
    have heq : Python.round (a.value * 1000000) = 0 := le_antisymm (not_lt.mp hzero) (Python.round_nonneg hx)
    have hvalue : a.round6.value = 0 := by simp [round6, heq]
    rw [hvalue] at hpos
    exact lt_irrefl _ hpos
  · intro hpos
    -- a whole microsecond rounds to a positive double
    have hleast : (0 : ℚ) < nearest (1 / 1000000) := by decide +kernel
    have hone : (1 : ℚ) ≤ Python.round (a.value * 1000000) := by exact_mod_cast hpos
    refine lt_of_lt_of_le hleast (nearest_mono ?_)
    exact div_le_div_of_nonneg_right hone (by norm_num)

end

end Double
