import InferenceService.Kernels.RmsNorm

/-!
# What quantisation to INT8 loses

The quantisation of one row of normalised values, as the reference does it, and
`dequantize_per_row_int8`, in exact arithmetic.
-/

namespace InferenceService

open Tile (lanes amax)

/-! ## Rounding half away from zero -/

theorem roundHalf_neg (x : ℚ) : roundHalfAwayFromZero (-x) = -roundHalfAwayFromZero x := by
  unfold roundHalfAwayFromZero
  rcases lt_trichotomy x 0 with h | h | h
  · rw [if_pos (by linarith), if_neg (by linarith), ← Int.floor_neg]
    congr 1
    ring
  · subst h
    decide +kernel
  · rw [if_neg (by linarith), if_pos h.le, ← Int.ceil_neg]
    congr 1
    ring

theorem abs_roundHalf_sub_le (x : ℚ) : |(roundHalfAwayFromZero x : ℚ) - x| ≤ 1 / 2 := by
  unfold roundHalfAwayFromZero
  rw [abs_le]
  by_cases h : 0 ≤ x
  · have hle := Int.floor_le (x + 1 / 2)
    have hlt := Int.lt_floor_add_one (x + 1 / 2)
    rw [if_pos h]
    constructor <;> linarith
  · have hle := Int.le_ceil (x - 1 / 2)
    have hlt := Int.ceil_lt_add_one (x - 1 / 2)
    rw [if_neg h]
    constructor <;> linarith

theorem roundHalf_intCast (k : Int) : roundHalfAwayFromZero (k : ℚ) = k := by
  have hclose := abs_roundHalf_sub_le (k : ℚ)
  rw [← Int.cast_sub, ← Int.cast_abs] at hclose
  have hlt : |roundHalfAwayFromZero (k : ℚ) - k| < 1 := by
    have : (|roundHalfAwayFromZero (k : ℚ) - k| : ℚ) < ((1 : Int) : ℚ) := by push_cast at hclose ⊢; linarith
    exact_mod_cast this
  exact sub_eq_zero.mp (Int.abs_lt_one_iff.mp hlt)

/-- Rounding cannot pass an integer bound: it would have to move by half. -/
theorem abs_roundHalf_le {x : ℚ} {k : Int} (h : |x| ≤ k) : |roundHalfAwayFromZero x| ≤ k := by
  have hclose := abs_roundHalf_sub_le x
  have hle : |(roundHalfAwayFromZero x : ℚ)| ≤ |(roundHalfAwayFromZero x : ℚ) - x| + |x| := by
    have := abs_add_le ((roundHalfAwayFromZero x : ℚ) - x) x
    rwa [sub_add_cancel] at this
  have hlt : ((|roundHalfAwayFromZero x| : Int) : ℚ) < ((k + 1 : Int) : ℚ) := by push_cast; linarith
  have : |roundHalfAwayFromZero x| < k + 1 := by exact_mod_cast hlt
  omega

/-! ## One row -/

def quantizeRow (hiddenSize : Nat) (normalized : Nat → ℚ) : QuantizedRow :=
  let scale := max (amax (lanes hiddenSize fun i => |normalized i|)) minScale / 127
  { scale
    quantized := fun i => min (max (roundHalfAwayFromZero (normalized i / scale)) (-127)) 127 }

/-- The reference quantises its normalised rows so. -/
theorem reference_quantizes (rsqrt : ℚ → ℚ) {x weight : Tensor} {eps : ℚ} {rows hiddenSize : Nat}
    (h : validateInputs x weight eps = .ok (rows, hiddenSize)) (hsize : hiddenSize ≠ 0) :
    rmsnormInt8Reference rsqrt x weight eps =
      let row i := quantizeRow hiddenSize (normalizedRow rsqrt hiddenSize (x.row i) weight.vector eps)
      .ok (lanes rows fun i => lanes hiddenSize (row i).quantized, lanes rows fun i => (row i).scale) := by
  unfold rmsnormInt8Reference
  simp only [h, bind, Except.bind, hsize, if_false]
  rfl

section
variable {hiddenSize : Nat} {n : Nat → ℚ} {i : Nat}

theorem scale_eq (hiddenSize : Nat) (n : Nat → ℚ) :
    127 * (quantizeRow hiddenSize n).scale = max (amax (lanes hiddenSize fun i => |n i|)) minScale := by
  unfold quantizeRow
  dsimp only
  ring

theorem scale_pos (hiddenSize : Nat) (n : Nat → ℚ) : 0 < (quantizeRow hiddenSize n).scale := by
  have h := scale_eq hiddenSize n
  have hpos : 0 < max (amax (lanes hiddenSize fun i => |n i|)) minScale := lt_max_of_lt_right minScale_pos
  linarith

theorem abs_le_amax (hi : i < hiddenSize) : |n i| ≤ amax (lanes hiddenSize fun i => |n i|) :=
  (Tile.amax_spec (Tile.lanes_ne_nil (Nat.one_le_of_lt hi) _)).2 _ (Tile.mem_lanes.mpr ⟨i, hi, rfl⟩)

theorem abs_scaled_le (hi : i < hiddenSize) : |n i / (quantizeRow hiddenSize n).scale| ≤ ((127 : Int) : ℚ) := by
  have hpos := scale_pos hiddenSize n
  rw [abs_div, abs_of_pos hpos, div_le_iff₀ hpos]
  push_cast
  rw [scale_eq]
  exact le_trans (abs_le_amax hi) (le_max_left _ _)

theorem abs_rounded_le (hi : i < hiddenSize) :
    |roundHalfAwayFromZero (n i / (quantizeRow hiddenSize n).scale)| ≤ 127 := abs_roundHalf_le (abs_scaled_le hi)

/-- The clamp changes nothing. -/
theorem quantized_eq (hi : i < hiddenSize) :
    (quantizeRow hiddenSize n).quantized i = roundHalfAwayFromZero (n i / (quantizeRow hiddenSize n).scale) := by
  obtain ⟨hlo, hhi⟩ := abs_le.mp (abs_rounded_le hi)
  have hclamp : (quantizeRow hiddenSize n).quantized i =
      min (max (roundHalfAwayFromZero (n i / (quantizeRow hiddenSize n).scale)) (-127)) 127 := rfl
  rw [hclamp, max_eq_left hlo, min_eq_left hhi]

theorem restored_close (hi : i < hiddenSize) :
    |((quantizeRow hiddenSize n).quantized i : ℚ) * (quantizeRow hiddenSize n).scale - n i| ≤
      (quantizeRow hiddenSize n).scale / 2 := by
  have hpos := scale_pos hiddenSize n
  have hclose := abs_roundHalf_sub_le (n i / (quantizeRow hiddenSize n).scale)
  rw [quantized_eq hi]
  generalize hx : n i / (quantizeRow hiddenSize n).scale = x at hclose
  have hn : n i = x * (quantizeRow hiddenSize n).scale := by rw [← hx, div_mul_cancel₀ _ hpos.ne']
  rw [hn, ← sub_mul, abs_mul, abs_of_pos hpos]
  calc |(roundHalfAwayFromZero x : ℚ) - x| * (quantizeRow hiddenSize n).scale
      ≤ 1 / 2 * (quantizeRow hiddenSize n).scale := mul_le_mul_of_nonneg_right hclose hpos.le
    _ = (quantizeRow hiddenSize n).scale / 2 := by ring

/-- An entry of largest magnitude takes the last level on its side. -/
theorem quantized_extreme (hi : i < hiddenSize) (hmax : ∀ j < hiddenSize, |n j| ≤ |n i|) (hmin : minScale ≤ |n i|) :
    (quantizeRow hiddenSize n).quantized i = if 0 ≤ n i then 127 else -127 := by
  have hamax : amax (lanes hiddenSize fun i => |n i|) = |n i| := by
    obtain ⟨hmem, _⟩ := Tile.amax_spec (Tile.lanes_ne_nil (Nat.one_le_of_lt hi) fun i => |n i|)
    obtain ⟨j, hj, heq⟩ := Tile.mem_lanes.mp hmem
    exact le_antisymm (heq ▸ hmax j hj) (abs_le_amax hi)
  have hscale : (quantizeRow hiddenSize n).scale = |n i| / 127 := by
    have h := scale_eq hiddenSize n
    rw [hamax, max_eq_left hmin] at h
    linarith
  have hpos : 0 < |n i| := lt_of_lt_of_le minScale_pos hmin
  rw [quantized_eq hi, hscale]
  by_cases h : 0 ≤ n i
  · have hx : n i / (|n i| / 127) = ((127 : Int) : ℚ) := by
      rw [abs_of_nonneg h] at hpos ⊢
      push_cast
      field_simp
    rw [hx, roundHalf_intCast, if_pos h]
  · have hneg : n i < 0 := not_le.mp h
    have hne : n i ≠ 0 := hneg.ne
    have hx : n i / (|n i| / 127) = ((-127 : Int) : ℚ) := by
      rw [abs_of_neg hneg]
      push_cast
      field_simp
    rw [hx, roundHalf_intCast, if_neg h]

theorem scale_neg (hiddenSize : Nat) (n : Nat → ℚ) :
    (quantizeRow hiddenSize fun i => -n i).scale = (quantizeRow hiddenSize n).scale := by
  unfold quantizeRow
  simp only [abs_neg]

theorem quantized_neg (hi : i < hiddenSize) :
    (quantizeRow hiddenSize fun i => -n i).quantized i = -(quantizeRow hiddenSize n).quantized i := by
  rw [quantized_eq hi, quantized_eq hi, scale_neg, neg_div, roundHalf_neg]

end

/-! ## `dequantize_per_row_int8` -/

def dequantizePerRowInt8 (quantized scales : Tensor) : Except TensorError (List (List ℚ)) :=
  match quantized.shape with
  | [rows, hiddenSize] =>
    match scales.shape with
    | [size] =>
      if size ≠ rows then .error (.valueError "scales must have shape [M]")
      else .ok (lanes rows fun i => lanes hiddenSize fun j => quantized.row i j * scales.vector i)
    | _ => .error (.valueError "scales must have shape [M]")
  | _ => .error (.valueError "quantized must have shape [M, H]")

/-- A dense matrix. -/
def Tensor.matrix (rows hiddenSize : Nat) (dtype : DType) (device : Option Nat) (f : Nat → Nat → ℚ) : Tensor where
  shape := [rows, hiddenSize]
  stride := [hiddenSize, 1]
  dtype
  device
  storage k := f (k / hiddenSize) (k % hiddenSize)
  strided := rfl

def Tensor.dense (size : Nat) (dtype : DType) (device : Option Nat) (f : Nat → ℚ) : Tensor where
  shape := [size]
  stride := [1]
  dtype
  device
  storage := f
  strided := rfl

/-- The two tensors that quantising the rows of `n` yields. -/
def quantizedTensors (rows hiddenSize : Nat) (device : Option Nat) (n : Nat → Nat → ℚ) : Tensor × Tensor :=
  (.matrix rows hiddenSize (.other "torch.int8") device fun i j => (quantizeRow hiddenSize (n i)).quantized j,
    .dense rows .float32 device fun i => (quantizeRow hiddenSize (n i)).scale)

section
variable {rows hiddenSize : Nat} (device : Option Nat)

theorem matrix_row (dtype : DType) (f : Nat → Nat → ℚ) (i : Nat) {j : Nat} (hj : j < hiddenSize) :
    (Tensor.matrix rows hiddenSize dtype device f).row i j = f i j := by
  have hdiv : (i * hiddenSize + j) / hiddenSize = i := by
    rw [Nat.mul_comm, Nat.mul_add_div (by omega), Nat.div_eq_of_lt hj, Nat.add_zero]
  have hmod : (i * hiddenSize + j) % hiddenSize = j := by
    rw [Nat.mul_comm, Nat.mul_add_mod, Nat.mod_eq_of_lt hj]
  unfold Tensor.row Tensor.matrix
  simp only [List.getD_cons_zero, List.getD_cons_succ, Nat.mul_one, hdiv, hmod]

theorem dequantize_quantized (n : Nat → Nat → ℚ) :
    dequantizePerRowInt8 (quantizedTensors rows hiddenSize device n).1 (quantizedTensors rows hiddenSize device n).2 =
      .ok (lanes rows fun i => lanes hiddenSize fun j =>
        (quantizeRow hiddenSize (n i)).quantized j * (quantizeRow hiddenSize (n i)).scale) := by
  unfold dequantizePerRowInt8 quantizedTensors
  simp only [Tensor.matrix, Tensor.dense, ne_eq, not_true_eq_false, if_false]
  refine congrArg Except.ok (Tile.lanes_congr fun i _ => Tile.lanes_congr fun j hj => ?_)
  have hrow := @matrix_row rows hiddenSize device (.other "torch.int8")
    (fun i j => ((quantizeRow hiddenSize (n i)).quantized j : ℚ)) i j hj
  rw [Tensor.matrix] at hrow
  rw [hrow]
  simp [Tensor.vector]

end

/-! ## The bound -/

/-- What a row keeps when it is quantised. -/
structure QuantizedWell (hiddenSize : Nat) (n : Nat → ℚ) : Prop where
  unclamped : ∀ i < hiddenSize, |roundHalfAwayFromZero (n i / (quantizeRow hiddenSize n).scale)| ≤ 127 ∧
    (quantizeRow hiddenSize n).quantized i = roundHalfAwayFromZero (n i / (quantizeRow hiddenSize n).scale)
  extreme : ∀ i < hiddenSize, (∀ j < hiddenSize, |n j| ≤ |n i|) → minScale ≤ |n i| →
    (quantizeRow hiddenSize n).quantized i = if 0 ≤ n i then 127 else -127
  sameScale : (quantizeRow hiddenSize fun i => -n i).scale = (quantizeRow hiddenSize n).scale
  negated : ∀ i < hiddenSize,
    (quantizeRow hiddenSize fun i => -n i).quantized i = -(quantizeRow hiddenSize n).quantized i

/-- Dequantised, every value is back within half a level. -/
theorem quantization_bounded (rows hiddenSize : Nat) (device : Option Nat) (n : Nat → Nat → ℚ) :
    (∃ restored : Nat → Nat → ℚ,
      dequantizePerRowInt8 (quantizedTensors rows hiddenSize device n).1 (quantizedTensors rows hiddenSize device n).2 =
          .ok (lanes rows fun i => lanes hiddenSize (restored i)) ∧
        ∀ i < rows, ∀ j < hiddenSize, |restored i j - n i j| ≤ (quantizeRow hiddenSize (n i)).scale / 2) ∧
    ∀ i < rows, QuantizedWell hiddenSize (n i) := by
  refine ⟨⟨_, dequantize_quantized device n, fun i _ j hj => restored_close hj⟩, fun i _ => ?_⟩
  refine ⟨fun j hj => ⟨abs_rounded_le hj, quantized_eq hj⟩, fun j hj => quantized_extreme hj, scale_neg _ _, ?_⟩
  exact fun j hj => quantized_neg hj

end InferenceService
