import InferenceService.Lib.Tile
import Mathlib.Data.Nat.Log
import Mathlib.Data.Rat.Floor
import Mathlib.Tactic.Linarith
import Mathlib.Tactic.Positivity

/-!
# RMSNorm with quantisation to INT8

The reference and the fused kernel, in exact arithmetic. `rsqrt` is the same
function in both. A tensor is its storage with a shape and strides.
-/

namespace InferenceService

open Tile (lanes amax)

inductive DType where
  | float16
  | bfloat16
  | float32
  | other (name : String)
deriving DecidableEq, Repr

def DType.text : DType → String
  | float16 => "torch.float16"
  | bfloat16 => "torch.bfloat16"
  | float32 => "torch.float32"
  | other name => name

def DType.supported : DType → Bool
  | other _ => false
  | _ => true

/-- `device` is the index of a CUDA device, or none for another device. -/
structure Tensor where
  shape : List Nat
  stride : List Nat
  dtype : DType
  device : Option Nat
  storage : Nat → ℚ
  strided : stride.length = shape.length

inductive TensorError where
  | valueError (message : String)
  | typeError (message : String)
  | runtimeError (message : String)
  | indexError (message : String)
  | compilationError (message : String)
deriving DecidableEq, Repr

def tupleText : List Nat → String
  | [n] => "(" ++ toString n ++ ",)"
  | ns => "(" ++ ", ".intercalate (ns.map toString) ++ ")"

/-- From the last dimension on, each that has more than one element must have
the stride of a dense layout. -/
def Tensor.isContiguous (t : Tensor) : Bool :=
  t.shape.prod = 0 ∨
    ((t.shape.zip t.stride).foldr (fun d acc => if d.1 = 1 then acc else (acc.1 && d.2 = acc.2, acc.2 * d.1))
      (true, 1)).1

def maxFusedHiddenSize : Nat := 8192

def minScale : ℚ := 1 / 10 ^ 8

def validateInputs (x weight : Tensor) (eps : ℚ) : Except TensorError (Nat × Nat) :=
  match x.shape with
  | [rows, hiddenSize] =>
    match weight.shape with
    | [size] =>
      if hiddenSize ≠ size then
        .error (.valueError ("x hidden dimension and weight length must match: " ++ toString hiddenSize ++ " != " ++
          toString size))
      else if x.dtype.supported = false then .error (.typeError ("unsupported x dtype: " ++ x.dtype.text))
      else if weight.dtype.supported = false then
        .error (.typeError ("unsupported weight dtype: " ++ weight.dtype.text))
      else if eps ≤ 0 then .error (.valueError "eps must be positive")
      else .ok (rows, hiddenSize)
    | shape => .error (.valueError ("weight must have shape [H], got " ++ tupleText shape))
  | shape => .error (.valueError ("x must have shape [M, H], got " ++ tupleText shape))

def roundHalfAwayFromZero (value : ℚ) : Int := if 0 ≤ value then ⌊value + 1 / 2⌋ else ⌈value - 1 / 2⌉

/-! ## The reference -/

section
variable (rsqrt : ℚ → ℚ)

structure QuantizedRow where
  scale : ℚ
  quantized : Nat → Int

def normalizedRow (hiddenSize : Nat) (x weight : Nat → ℚ) (eps : ℚ) (i : Nat) : ℚ :=
  x i * rsqrt ((lanes hiddenSize fun j => x j ^ 2).sum / hiddenSize + eps) * weight i

def referenceRow (hiddenSize : Nat) (x weight : Nat → ℚ) (eps : ℚ) : QuantizedRow :=
  let normalized := normalizedRow rsqrt hiddenSize x weight eps
  let scale := max (amax (lanes hiddenSize fun i => |normalized i|)) minScale / 127
  { scale
    quantized := fun i => min (max (roundHalfAwayFromZero (normalized i / scale)) (-127)) 127 }

def Tensor.row (t : Tensor) (i j : Nat) : ℚ := t.storage (i * t.stride.getD 0 0 + j * t.stride.getD 1 0)

def Tensor.vector (t : Tensor) (j : Nat) : ℚ := t.storage (j * t.stride.getD 0 0)

def rmsnormInt8Reference (x weight : Tensor) (eps : ℚ) : Except TensorError (List (List Int) × List ℚ) := do
  let (rows, hiddenSize) ← validateInputs x weight eps
  if hiddenSize = 0 then
    .error (.indexError "amax(): Expected reduction dim 1 to have non-zero size.")
  else
    let row i := referenceRow rsqrt hiddenSize (x.row i) weight.vector eps
    .ok (lanes rows fun i => lanes hiddenSize (row i).quantized, lanes rows fun i => (row i).scale)

/-! ## The kernel -/

structure KernelMemory where
  quantized : Nat → Int
  scale : Nat → ℚ

/-- The program of one row; the pointers are the memory from them on. -/
def rmsnormInt8Kernel (xPtr weightPtr : Nat → ℚ) (strideM hiddenSize : Nat) (eps : ℚ) (blockSize row : Nat)
    (mem : KernelMemory) : KernelMemory :=
  let x := Tile.load hiddenSize fun offset => xPtr (row * strideM + offset)
  let weight := Tile.load hiddenSize weightPtr
  let sumSquares := (lanes blockSize fun o => x o * x o).sum
  let inverseRms := rsqrt (sumSquares / hiddenSize + eps)
  let normalized o := x o * inverseRms * weight o
  let scale := max (amax (lanes blockSize fun o => |normalized o|) / 127) minScale
  let scaled o := normalized o / scale
  let rounded o := if 0 ≤ scaled o then ⌊scaled o + 1 / 2⌋ else ⌈scaled o - 1 / 2⌉
  let clipped o := max (min (rounded o) 127) (-127)
  { quantized := Tile.store mem.quantized
      (((List.range blockSize).filter (· < hiddenSize)).map fun o => (row * strideM + o, clipped o))
    scale := Tile.store mem.scale [(row, scale)] }

def nextPowerOf2 (n : Nat) : Nat := 2 ^ Nat.clog 2 n

/-- The programs of a launch, one after another. -/
def launch (xPtr weightPtr : Nat → ℚ) (strideM hiddenSize : Nat) (eps : ℚ) (blockSize : Nat) (order : List Nat)
    (mem : KernelMemory) : KernelMemory :=
  order.foldl (fun mem row => rmsnormInt8Kernel rsqrt xPtr weightPtr strideM hiddenSize eps blockSize row mem) mem

/-- `order` is the order in which the programs of the grid run, and `mem` is
what `torch.empty` found in memory. -/
def rmsnormInt8Fused (tritonIsAvailable : Bool) (x weight : Tensor) (eps : ℚ) (order : List Nat) (mem : KernelMemory) :
    Except TensorError (List (List Int) × List ℚ) := do
  let (rows, hiddenSize) ← validateInputs x weight eps
  if tritonIsAvailable = false then
    .error (.runtimeError ("Triton CUDA runtime is unavailable. " ++
      "Use rmsnorm_int8_reference for CPU/local validation."))
  else if x.device = none ∨ weight.device = none then
    .error (.valueError "fused kernel requires CUDA x and weight tensors")
  else if x.device ≠ weight.device then .error (.valueError "x and weight must be on the same CUDA device")
  else if x.isContiguous = false ∨ weight.isContiguous = false then
    .error (.valueError "fused kernel requires contiguous x and weight")
  else if maxFusedHiddenSize < hiddenSize then
    .error (.valueError ("hidden_size=" ++ toString hiddenSize ++ " exceeds MAX_FUSED_HIDDEN_SIZE=" ++
      toString maxFusedHiddenSize))
  else if hiddenSize = 0 then
    .error (.compilationError "arange's end argument must be greater than the start argument")
  else
    let strideM := x.stride.getD 0 0
    let mem := launch rsqrt x.storage weight.storage strideM hiddenSize eps (nextPowerOf2 hiddenSize) order mem
    .ok (lanes rows fun i => lanes hiddenSize fun j => mem.quantized (i * strideM + j), lanes rows mem.scale)

def KernelMemory.Holds (mem : KernelMemory) (strideM hiddenSize row : Nat) (r : QuantizedRow) : Prop :=
  mem.scale row = r.scale ∧ ∀ o < hiddenSize, mem.quantized (row * strideM + o) = r.quantized o

/-! ## One row -/

variable {rsqrt} {xPtr weightPtr : Nat → ℚ} {strideM hiddenSize blockSize row : Nat} {eps : ℚ}

/-- What the kernel computes for its row, lane by lane. -/
def kernelRow (rsqrt : ℚ → ℚ) (hiddenSize : Nat) (x weight : Nat → ℚ) (eps : ℚ) : QuantizedRow :=
  let normalized := normalizedRow rsqrt hiddenSize x weight eps
  let scale := max (amax (lanes hiddenSize fun i => |normalized i|) / 127) minScale
  { scale
    quantized := fun i => max (min (roundHalfAwayFromZero (normalized i / scale)) 127) (-127) }

theorem minScale_pos : 0 < minScale := by
  unfold minScale
  positivity

theorem le_nextPowerOf2 (n : Nat) : n ≤ nextPowerOf2 n := Nat.le_pow_clog (by decide) n

theorem clamp_comm (n : Int) : min (max n (-127)) 127 = max (min n 127) (-127) := by omega

/-- The kernel's row is the reference's where the clamp of the scale is not
felt, and nowhere else. -/
theorem kernelRow_scale_iff (hsize : 1 ≤ hiddenSize) (x weight : Nat → ℚ) :
    (kernelRow rsqrt hiddenSize x weight eps).scale = (referenceRow rsqrt hiddenSize x weight eps).scale ↔
      ∃ i < hiddenSize, 127 * minScale ≤ |normalizedRow rsqrt hiddenSize x weight eps i| := by
  have hiff := Tile.max_div_eq_iff (a := amax (lanes hiddenSize fun i => |normalizedRow rsqrt hiddenSize x weight eps i|))
    minScale_pos (show (1 : ℚ) < 127 by norm_num)
  rw [Tile.le_amax_iff (Tile.lanes_ne_nil hsize _)] at hiff
  refine eq_comm.trans (hiff.trans ?_)
  constructor
  · rintro ⟨b, hb, hle⟩
    obtain ⟨i, hi, rfl⟩ := Tile.mem_lanes.mp hb
    exact ⟨i, hi, hle⟩
  · rintro ⟨i, hi, hle⟩
    exact ⟨_, Tile.mem_lanes.mpr ⟨i, hi, rfl⟩, hle⟩

theorem kernelRow_quantized {x weight : Nat → ℚ}
    (h : (kernelRow rsqrt hiddenSize x weight eps).scale = (referenceRow rsqrt hiddenSize x weight eps).scale) :
    (kernelRow rsqrt hiddenSize x weight eps).quantized = (referenceRow rsqrt hiddenSize x weight eps).quantized := by
  funext i
  unfold kernelRow referenceRow at h ⊢
  dsimp only at h ⊢
  rw [h, clamp_comm]

/-- The lanes of the padding add nothing to the sum of squares. -/
theorem kernel_sumSquares (hblock : hiddenSize ≤ blockSize) (x : Nat → ℚ) :
    (lanes blockSize fun o => Tile.load hiddenSize x o * Tile.load hiddenSize x o).sum =
      (lanes hiddenSize fun j => x j ^ 2).sum := by
  rw [Tile.sum_padded hblock fun i hi => by rw [Tile.load_of_le x hi, zero_mul]]
  refine congrArg List.sum (Tile.lanes_congr fun i hi => ?_)
  rw [Tile.load_of_lt x hi, pow_two]

theorem kernel_amax (hsize : 1 ≤ hiddenSize) (hblock : hiddenSize ≤ blockSize) (x weight : Nat → ℚ) (inverseRms : ℚ) :
    amax (lanes blockSize fun o => |Tile.load hiddenSize x o * inverseRms * Tile.load hiddenSize weight o|) =
      amax (lanes hiddenSize fun i => |x i * inverseRms * weight i|) := by
  rw [Tile.amax_padded hsize hblock]
  · refine congrArg amax (Tile.lanes_congr fun i hi => ?_)
    rw [Tile.load_of_lt x hi, Tile.load_of_lt weight hi]
  · intro i hi
    rw [Tile.load_of_le x hi, zero_mul, zero_mul, abs_zero]
  · exact fun i => abs_nonneg _

def rowAddresses (strideM hiddenSize blockSize row : Nat) : List Nat :=
  ((List.range blockSize).filter (· < hiddenSize)).map (row * strideM + ·)

theorem mem_rowAddresses (hblock : hiddenSize ≤ blockSize) {address : Nat} :
    address ∈ rowAddresses strideM hiddenSize blockSize row ↔ ∃ o < hiddenSize, address = row * strideM + o := by
  unfold rowAddresses
  simp only [List.mem_map, List.mem_filter, List.mem_range, decide_eq_true_eq]
  constructor
  · rintro ⟨o, ⟨_, ho⟩, rfl⟩
    exact ⟨o, ho, rfl⟩
  · rintro ⟨o, ho, rfl⟩
    exact ⟨o, ⟨lt_of_lt_of_le ho hblock, ho⟩, rfl⟩

theorem kernel_spec (hsize : 1 ≤ hiddenSize) (hblock : hiddenSize ≤ blockSize) (mem : KernelMemory) :
    rmsnormInt8Kernel rsqrt xPtr weightPtr strideM hiddenSize eps blockSize row mem =
      let r := kernelRow rsqrt hiddenSize (fun o => xPtr (row * strideM + o)) weightPtr eps
      { quantized := Tile.store mem.quantized
          (((List.range blockSize).filter (· < hiddenSize)).map fun o => (row * strideM + o, r.quantized o))
        scale := Tile.store mem.scale [(row, r.scale)] } := by
  unfold rmsnormInt8Kernel kernelRow normalizedRow roundHalfAwayFromZero
  dsimp only
  rw [kernel_sumSquares hblock, kernel_amax hsize hblock]
  refine congrArg₂ KernelMemory.mk (congrArg (Tile.store mem.quantized) (List.map_congr_left fun o ho => ?_)) rfl
  have hlt : o < hiddenSize := of_decide_eq_true (List.mem_filter.mp ho).2
  simp only [Tile.load_of_lt _ hlt]

theorem kernel_own (hsize : 1 ≤ hiddenSize) (hblock : hiddenSize ≤ blockSize) (mem : KernelMemory) :
    (rmsnormInt8Kernel rsqrt xPtr weightPtr strideM hiddenSize eps blockSize row mem).Holds strideM hiddenSize row
      (kernelRow rsqrt hiddenSize (fun o => xPtr (row * strideM + o)) weightPtr eps) := by
  rw [kernel_spec hsize hblock]
  refine ⟨Function.update_self .., fun o ho => ?_⟩
  refine Tile.store_of_mem (w := (row * strideM + o, _)) ?_ ?_ mem.quantized
  · rw [List.map_map]
    refine ((List.nodup_range).filter _).map_on ?_
    intro a _ b _ hab
    exact Nat.add_left_cancel hab
  · exact List.mem_map.mpr ⟨o, List.mem_filter.mpr ⟨List.mem_range.mpr (lt_of_lt_of_le ho hblock),
      decide_eq_true ho⟩, rfl⟩

theorem kernel_frame (hsize : 1 ≤ hiddenSize) (hblock : hiddenSize ≤ blockSize) (mem : KernelMemory) :
    let mem' := rmsnormInt8Kernel rsqrt xPtr weightPtr strideM hiddenSize eps blockSize row mem
    (∀ i, i ≠ row → mem'.scale i = mem.scale i) ∧
      ∀ address, address ∉ rowAddresses strideM hiddenSize blockSize row →
        mem'.quantized address = mem.quantized address := by
  rw [kernel_spec hsize hblock]
  refine ⟨fun i hi => Function.update_of_ne hi _ _, fun address h => ?_⟩
  apply Tile.store_of_notMem
  rw [List.map_map]
  exact h

/-! ## The launch -/

theorem rowAddresses_disjoint (hstride : hiddenSize ≤ strideM) {a b : Nat} (hne : a ≠ b) {o : Nat} (ho : o < hiddenSize)
    (hblock : hiddenSize ≤ blockSize) : b * strideM + o ∉ rowAddresses strideM hiddenSize blockSize a := by
  intro h
  obtain ⟨o', ho', heq⟩ := (mem_rowAddresses hblock).mp h
  rcases Nat.lt_or_gt_of_ne hne with hlt | hlt
  · have := Nat.mul_le_mul_right strideM hlt
    rw [Nat.succ_mul] at this
    omega
  · have := Nat.mul_le_mul_right strideM hlt
    rw [Nat.succ_mul] at this
    omega

theorem launch_frame (hsize : 1 ≤ hiddenSize) (hblock : hiddenSize ≤ blockSize) (hstride : hiddenSize ≤ strideM) :
    ∀ (order : List Nat) (mem : KernelMemory), row ∉ order →
      let mem' := launch rsqrt xPtr weightPtr strideM hiddenSize eps blockSize order mem
      mem'.scale row = mem.scale row ∧
        ∀ o < hiddenSize, mem'.quantized (row * strideM + o) = mem.quantized (row * strideM + o) := by
  intro order
  induction order with
  | nil => exact fun mem _ => ⟨rfl, fun _ _ => rfl⟩
  | cons a order ih =>
    intro mem hrow
    rw [List.mem_cons, not_or] at hrow
    obtain ⟨hscale, hquantized⟩ := ih
      (rmsnormInt8Kernel rsqrt xPtr weightPtr strideM hiddenSize eps blockSize a mem) hrow.2
    obtain ⟨hscale', hquantized'⟩ := @kernel_frame rsqrt xPtr weightPtr strideM hiddenSize blockSize a eps hsize hblock mem
    refine ⟨hscale.trans (hscale' row hrow.1), fun o ho => ?_⟩
    exact (hquantized o ho).trans (hquantized' _ (rowAddresses_disjoint hstride (Ne.symm hrow.1) ho hblock))

/-- In every order of its programs, a launch leaves each row's result. -/
theorem launch_own (hsize : 1 ≤ hiddenSize) (hblock : hiddenSize ≤ blockSize) (hstride : hiddenSize ≤ strideM) :
    ∀ (order : List Nat) (mem : KernelMemory), order.Nodup → row ∈ order →
      (launch rsqrt xPtr weightPtr strideM hiddenSize eps blockSize order mem).Holds strideM hiddenSize row
        (kernelRow rsqrt hiddenSize (fun o => xPtr (row * strideM + o)) weightPtr eps) := by
  intro order
  induction order with
  | nil => exact fun _ _ h => absurd h List.not_mem_nil
  | cons a order ih =>
    intro mem hnodup hrow
    obtain ⟨hnot, hnodup⟩ := List.nodup_cons.mp hnodup
    by_cases hin : row ∈ order
    · exact ih _ hnodup hin
    · obtain rfl : row = a := (List.mem_cons.mp hrow).resolve_right hin
      obtain ⟨hscale, hquantized⟩ := @kernel_own rsqrt xPtr weightPtr strideM hiddenSize blockSize row eps hsize hblock mem
      obtain ⟨hscale', hquantized'⟩ := @launch_frame rsqrt xPtr weightPtr strideM hiddenSize blockSize row eps hsize hblock
        hstride order (rmsnormInt8Kernel rsqrt xPtr weightPtr strideM hiddenSize eps blockSize row mem) hnot
      exact ⟨hscale'.trans hscale, fun o ho => (hquantized' o ho).trans (hquantized o ho)⟩

end

/-! ## The fused function -/

section
variable {rsqrt : ℚ → ℚ} {x weight : Tensor} {eps : ℚ} {rows hiddenSize : Nat}

theorem validate_shapes (h : validateInputs x weight eps = .ok (rows, hiddenSize)) :
    x.shape = [rows, hiddenSize] ∧ weight.shape = [hiddenSize] := by
  unfold validateInputs at h
  split at h
  · rename_i r n hx
    split at h
    · rename_i size hw
      by_cases hne : n ≠ size
      · rw [if_pos hne] at h
        cases h
      · rw [if_neg hne] at h
        split_ifs at h
        obtain ⟨rfl, rfl⟩ := Prod.mk.inj (Except.ok.inj h)
        exact ⟨hx, by rw [hw, not_not.mp hne]⟩
    · cases h
  · cases h

theorem contiguous_matrix (hshape : x.shape = [rows, hiddenSize]) (hc : x.isContiguous = true) (hrows : 1 ≤ rows)
    (hsize : 1 ≤ hiddenSize) :
    (∀ j < hiddenSize, j * x.stride.getD 1 0 = j) ∧ (rows = 1 ∨ x.stride.getD 0 0 = hiddenSize) := by
  obtain ⟨s0, s1, hs⟩ : ∃ s0 s1, x.stride = [s0, s1] := by
    have hlen := x.strided
    rw [hshape] at hlen
    obtain ⟨s0, s1, hs⟩ := List.length_eq_two.mp hlen
    exact ⟨s0, s1, hs⟩
  have hprod : rows * hiddenSize ≠ 0 := Nat.mul_ne_zero (by omega) (by omega)
  unfold Tensor.isContiguous at hc
  rw [hshape, hs] at hc
  rw [hs]
  by_cases h1 : hiddenSize = 1
  · subst h1
    have hs0 : rows = 1 ∨ s0 = 1 := by
      by_cases hr : rows = 1
      · exact .inl hr
      · simp [hr] at hc
        exact .inr (by omega)
    refine ⟨fun j hj => ?_, hs0⟩
    obtain rfl : j = 0 := by omega
    exact Nat.zero_mul _
  · by_cases hr : rows = 1
    · subst hr
      simp [h1] at hc
      obtain rfl : s1 = 1 := of_decide_eq_true (hc.resolve_left (by omega))
      exact ⟨fun j _ => Nat.mul_one j, .inl rfl⟩
    · simp [h1, hr] at hc
      obtain ⟨hone, rfl⟩ := hc.resolve_left (by omega)
      obtain rfl : s1 = 1 := of_decide_eq_true hone
      exact ⟨fun j _ => Nat.mul_one j, .inr rfl⟩

theorem contiguous_vector (hshape : weight.shape = [hiddenSize]) (hc : weight.isContiguous = true)
    (hsize : 1 ≤ hiddenSize) : ∀ j < hiddenSize, weight.vector j = weight.storage j := by
  obtain ⟨s0, hs⟩ : ∃ s0, weight.stride = [s0] := by
    have hlen := weight.strided
    rw [hshape] at hlen
    exact List.length_eq_one_iff.mp hlen
  unfold Tensor.isContiguous at hc
  rw [hshape, hs] at hc
  intro j hj
  unfold Tensor.vector
  rw [hs]
  by_cases h1 : hiddenSize = 1
  · obtain rfl : j = 0 := by omega
    rw [Nat.zero_mul]
  · simp [h1] at hc
    obtain rfl : s0 = 1 := of_decide_eq_true (hc.resolve_left (by omega))
    exact congrArg weight.storage (Nat.mul_one j)

theorem normalizedRow_congr {x x' w w' : Nat → ℚ} (hx : ∀ j < hiddenSize, x j = x' j) (hw : ∀ j < hiddenSize, w j = w' j)
    {i : Nat} (hi : i < hiddenSize) :
    normalizedRow rsqrt hiddenSize x w eps i = normalizedRow rsqrt hiddenSize x' w' eps i := by
  unfold normalizedRow
  rw [hx i hi, hw i hi, Tile.lanes_congr fun j hj => by rw [hx j hj]]

theorem kernelRow_congr {x x' w w' : Nat → ℚ} (hx : ∀ j < hiddenSize, x j = x' j) (hw : ∀ j < hiddenSize, w j = w' j) :
    (kernelRow rsqrt hiddenSize x w eps).scale = (kernelRow rsqrt hiddenSize x' w' eps).scale ∧
      ∀ i < hiddenSize, (kernelRow rsqrt hiddenSize x w eps).quantized i =
        (kernelRow rsqrt hiddenSize x' w' eps).quantized i := by
  have hlanes : (lanes hiddenSize fun i => |normalizedRow rsqrt hiddenSize x w eps i|) =
      lanes hiddenSize fun i => |normalizedRow rsqrt hiddenSize x' w' eps i| :=
    Tile.lanes_congr fun i hi => by rw [normalizedRow_congr hx hw hi]
  unfold kernelRow
  dsimp only
  rw [hlanes]
  exact ⟨rfl, fun i hi => by rw [normalizedRow_congr hx hw hi]⟩

theorem reference_eq (hv : validateInputs x weight eps = .ok (rows, hiddenSize)) (hsize : 1 ≤ hiddenSize) :
    rmsnormInt8Reference rsqrt x weight eps =
      .ok (lanes rows fun i => lanes hiddenSize (referenceRow rsqrt hiddenSize (x.row i) weight.vector eps).quantized,
        lanes rows fun i => (referenceRow rsqrt hiddenSize (x.row i) weight.vector eps).scale) := by
  unfold rmsnormInt8Reference
  rw [hv]
  exact if_neg (by omega)

/-- On contiguous tensors the fused function returns what its programs compute
for the rows, in whatever order they run. -/
theorem fused_eq (hv : validateInputs x weight eps = .ok (rows, hiddenSize)) (hsize : 1 ≤ hiddenSize)
    (hmax : hiddenSize ≤ maxFusedHiddenSize) (hdevice : x.device ≠ none) (hsame : x.device = weight.device)
    (hx : x.isContiguous = true) (hw : weight.isContiguous = true) {order : List Nat}
    (horder : order.Perm (List.range rows)) (mem : KernelMemory) :
    rmsnormInt8Fused rsqrt true x weight eps order mem =
      .ok (lanes rows fun i => lanes hiddenSize (kernelRow rsqrt hiddenSize (x.row i) weight.vector eps).quantized,
        lanes rows fun i => (kernelRow rsqrt hiddenSize (x.row i) weight.vector eps).scale) := by
  obtain ⟨hshape, hwshape⟩ := validate_shapes hv
  have hrow : ∀ i < rows,
      (launch rsqrt x.storage weight.storage (x.stride.getD 0 0) hiddenSize eps (nextPowerOf2 hiddenSize) order
        mem).Holds (x.stride.getD 0 0) hiddenSize i (kernelRow rsqrt hiddenSize (x.row i) weight.vector eps) := by
    intro i hi
    obtain ⟨hcols, hstride⟩ := contiguous_matrix hshape hx (by omega) hsize
    have hxrow : ∀ j < hiddenSize, x.storage (i * x.stride.getD 0 0 + j) = x.row i j := by
      intro j hj
      unfold Tensor.row
      rw [hcols j hj]
    obtain ⟨hscale, hquantized⟩ := @kernelRow_congr rsqrt eps _ _ _ _ _ hxrow
      (fun j hj => (contiguous_vector hwshape hw hsize j hj).symm)
    have hlaunch : (launch rsqrt x.storage weight.storage (x.stride.getD 0 0) hiddenSize eps (nextPowerOf2 hiddenSize)
        order mem).Holds (x.stride.getD 0 0) hiddenSize i
          (kernelRow rsqrt hiddenSize (fun o => x.storage (i * x.stride.getD 0 0 + o)) weight.storage eps) := by
      rcases hstride with rfl | hstride
      · -- a launch of one program
        obtain rfl : i = 0 := by omega
        rw [List.perm_singleton.mp horder]
        exact kernel_own hsize (le_nextPowerOf2 hiddenSize) mem
      · exact launch_own hsize (le_nextPowerOf2 hiddenSize) (le_of_eq hstride.symm) order mem
          (horder.nodup_iff.mpr List.nodup_range) (horder.mem_iff.mpr (List.mem_range.mpr hi))
    exact ⟨hlaunch.1.trans hscale, fun j hj => (hlaunch.2 j hj).trans (hquantized j hj)⟩
  unfold rmsnormInt8Fused
  rw [hv]
  dsimp only [bind, Except.bind]
  rw [if_neg (by decide : ¬ true = false), if_neg (not_or.mpr ⟨hdevice, hsame ▸ hdevice⟩), if_neg (not_not.mpr hsame),
    if_neg (by simp [hx, hw]), if_neg (not_lt.mpr hmax), if_neg (by omega)]
  exact congrArg Except.ok (congrArg₂ Prod.mk
    (Tile.lanes_congr fun i hi => Tile.lanes_congr fun j hj => (hrow i hi).2 j hj)
    (Tile.lanes_congr fun i hi => (hrow i hi).1))

/-- The fused function agrees with the reference when the clamp of the scale is
felt in no row. -/
theorem fused_eq_reference_iff (hv : validateInputs x weight eps = .ok (rows, hiddenSize)) (hsize : 1 ≤ hiddenSize)
    (hmax : hiddenSize ≤ maxFusedHiddenSize) (hdevice : x.device ≠ none) (hsame : x.device = weight.device)
    (hx : x.isContiguous = true) (hw : weight.isContiguous = true) {order : List Nat}
    (horder : order.Perm (List.range rows)) (mem : KernelMemory) :
    rmsnormInt8Fused rsqrt true x weight eps order mem = rmsnormInt8Reference rsqrt x weight eps ↔
      ∀ i < rows, ∃ j < hiddenSize,
        127 * minScale ≤ |normalizedRow rsqrt hiddenSize (x.row i) weight.vector eps j| := by
  rw [fused_eq hv hsize hmax hdevice hsame hx hw horder mem, reference_eq hv hsize]
  constructor
  · intro h i hi
    have hscales := (Prod.mk.inj (Except.ok.inj h)).2
    exact (kernelRow_scale_iff hsize _ _).mp (Tile.lanes_inj.mp hscales i hi)
  · intro h
    have hscale := fun i hi => (@kernelRow_scale_iff rsqrt hiddenSize eps hsize _ _).mpr (h i hi)
    refine congrArg Except.ok (congrArg₂ Prod.mk ?_ (Tile.lanes_inj.mpr hscale))
    exact Tile.lanes_congr fun i hi => by rw [kernelRow_quantized (hscale i hi)]

end

/-! ## Kernel and reference -/

section
variable (rsqrt : ℚ → ℚ) (xPtr weightPtr : Nat → ℚ) (strideM hiddenSize row : Nat) (eps : ℚ) (mem : KernelMemory)

theorem kernel_eq_reference_iff (hsize : 1 ≤ hiddenSize) :
    (rmsnormInt8Kernel rsqrt xPtr weightPtr strideM hiddenSize eps (nextPowerOf2 hiddenSize) row mem).Holds
        strideM hiddenSize row (referenceRow rsqrt hiddenSize (fun o => xPtr (row * strideM + o)) weightPtr eps) ↔
    ∃ i < hiddenSize, 127 * minScale ≤
      |xPtr (row * strideM + i) *
        rsqrt ((lanes hiddenSize fun j => xPtr (row * strideM + j) ^ 2).sum / hiddenSize + eps) * weightPtr i| := by
  obtain ⟨hscale, hquantized⟩ := @kernel_own rsqrt xPtr weightPtr strideM hiddenSize (nextPowerOf2 hiddenSize) row eps
    hsize (le_nextPowerOf2 hiddenSize) mem
  unfold KernelMemory.Holds
  rw [hscale]
  refine Iff.trans ⟨fun h => h.1, fun h => ⟨h, fun o ho => ?_⟩⟩ (kernelRow_scale_iff hsize _ _)
  rw [hquantized o ho, kernelRow_quantized h]

end

def emptyMemory : KernelMemory := ⟨fun _ => 0, fun _ => 0⟩

theorem kernel_eq_reference_ones :
    (rmsnormInt8Kernel (fun _ => 1 / 2) (fun _ => 1) (fun _ => 1) 3 3 3 (nextPowerOf2 3) 0 emptyMemory).Holds 3 3 0
      (referenceRow (fun _ => 1 / 2) 3 (fun _ => 1) (fun _ => 1) 3) :=
  (kernel_eq_reference_iff (fun _ => 1 / 2) (fun _ => 1) (fun _ => 1) 3 3 0 3 emptyMemory (by decide)).mpr
    ⟨0, by decide, by norm_num [minScale]⟩

/-- The scales of a row of zeros are 1e-8 and 1e-8 / 127. -/
theorem zeros_not_reference :
    ¬ (rmsnormInt8Kernel (fun _ => 1000) (fun _ => 0) (fun _ => 1) 1 1 (1 / 10 ^ 6) (nextPowerOf2 1) 0
        emptyMemory).Holds 1 1 0 (referenceRow (fun _ => 1000) 1 (fun _ => 0) (fun _ => 1) (1 / 10 ^ 6)) := by
  intro h
  have hown := @kernel_own (fun _ => 1000) (fun _ => 0) (fun _ => 1) 1 1 (nextPowerOf2 1) 0 (1 / 10 ^ 6) (by decide)
    (le_nextPowerOf2 1) emptyMemory
  obtain ⟨i, _, hle⟩ := (kernelRow_scale_iff (by decide) _ _).mp (hown.1.symm.trans h.1)
  have hpos := minScale_pos
  simp only [normalizedRow, zero_mul, abs_zero] at hle
  linarith

end InferenceService
