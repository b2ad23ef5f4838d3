import InferenceService.Lib.Python
import Mathlib.Data.Nat.Digits.Defs

/-!
# `decimal.Decimal` of Python

Construction from a text and `==`, of numbers whose coefficient and exponent
have no bound.
-/

namespace Python

/-! ## The decimal digits of Unicode -/

/-- The zeros of the category Nd; each is followed by the other nine digits. -/
def digitZeros : List Nat :=
  [0x30, 0x660, 0x6f0, 0x7c0, 0x966, 0x9e6, 0xa66, 0xae6, 0xb66, 0xbe6, 0xc66, 0xce6, 0xd66, 0xde6, 0xe50, 0xed0,
    0xf20, 0x1040, 0x1090, 0x17e0, 0x1810, 0x1946, 0x19d0, 0x1a80, 0x1a90, 0x1b50, 0x1bb0, 0x1c40, 0x1c50, 0xa620,
    0xa8d0, 0xa900, 0xa9d0, 0xa9f0, 0xaa50, 0xabf0, 0xff10, 0x104a0, 0x10d30, 0x11066, 0x110f0, 0x11136, 0x111d0,
    0x112f0, 0x11450, 0x114d0, 0x11650, 0x116c0, 0x11730, 0x118e0, 0x11950, 0x11c50, 0x11d50, 0x11da0, 0x16a60,
    0x16ac0, 0x16b50, 0x1d7ce, 0x1d7d8, 0x1d7e2, 0x1d7ec, 0x1d7f6, 0x1e140, 0x1e2f0, 0x1e950, 0x1fbf0]

def digitValue (c : Char) : Option Nat :=
  (digitZeros.find? fun z => z ≤ c.toNat ∧ c.toNat < z + 10).map (c.toNat - ·)

/-- `\d` of a text pattern. -/
def isDecimal (c : Char) : Bool := (digitValue c).isSome

/-- The number that a list of digits denotes. -/
def natOf (cs : List Char) : Nat := Nat.ofDigits 10 (cs.map fun c => (digitValue c).getD 0).reverse

theorem natOf_append (cs ds : List Char) : natOf (cs ++ ds) = natOf cs * 10 ^ ds.length + natOf ds := by
  unfold natOf
  rw [List.map_append, List.reverse_append, Nat.ofDigits_append, List.length_reverse, List.length_map]
  ring

theorem isDecimal_range {c : Char} (h : isDecimal c = true) :
    ∃ z ∈ digitZeros, ∃ i ∈ List.range 10, c.toNat = z + i := by
  unfold isDecimal digitValue at h
  rw [Option.isSome_map, List.find?_isSome] at h
  obtain ⟨z, hz, h⟩ := h
  obtain ⟨hle, hlt⟩ := of_decide_eq_true h
  exact ⟨z, hz, c.toNat - z, List.mem_range.mpr (by omega), by omega⟩

theorem not_isSpace_of_isDecimal {c : Char} (h : isDecimal c = true) : isSpace c = false := by
  have hzeros : ∀ z ∈ digitZeros, ∀ i ∈ List.range 10,
      ¬ ((9 ≤ z + i ∧ z + i ≤ 13) ∨ (28 ≤ z + i ∧ z + i ≤ 32) ∨ z + i = 0x85 ∨ z + i = 0xa0 ∨ z + i = 0x1680 ∨
        (0x2000 ≤ z + i ∧ z + i ≤ 0x200a) ∨ z + i = 0x2028 ∨ z + i = 0x2029 ∨ z + i = 0x202f ∨ z + i = 0x205f ∨
        z + i = 0x3000) := by decide +kernel
  obtain ⟨z, hz, i, hi, hc⟩ := isDecimal_range h
  unfold isSpace
  rw [hc]
  exact decide_eq_false (hzeros z hz i hi)

/-! ## `Decimal(text)` and `==` -/

inductive Decimal where
  | finite (negative : Bool) (coefficient : Nat) (exponent : Int)
  | infinity (negative : Bool)
  | nan (signaling : Bool)
deriving DecidableEq, Repr

namespace Decimal

/-- The exponent part, and nothing after it. -/
def exponentOf : List Char → Option Int
  | [] => some 0
  | c :: cs =>
    let digits := if cs.head? = some '-' ∨ cs.head? = some '+' then cs.tail else cs
    if (c = 'e' ∨ c = 'E') ∧ digits ≠ [] ∧ digits.all isDecimal then
      some (if cs.head? = some '-' then -(natOf digits : Int) else natOf digits)
    else none

def ofNumber (negative : Bool) (cs : List Char) : Option Decimal :=
  let whole := cs.takeWhile isDecimal
  let rest := cs.dropWhile isDecimal
  let fraction := if rest.head? = some '.' then rest.tail.takeWhile isDecimal else []
  let rest := if rest.head? = some '.' then rest.tail.dropWhile isDecimal else rest
  if whole ++ fraction = [] then none
  else (exponentOf rest).map fun e => finite negative (natOf (whole ++ fraction)) (e - fraction.length)

def ofWord (negative : Bool) (cs : List Char) : Option Decimal :=
  let word := String.ofList (cs.map Char.toLower)
  if word = "inf" ∨ word = "infinity" then some (infinity negative)
  else if word.toList.take 3 = "nan".toList ∧ (cs.drop 3).all isDecimal then some (nan false)
  else if word.toList.take 4 = "snan".toList ∧ (cs.drop 4).all isDecimal then some (nan true)
  else none

def unsigned (negative : Bool) (cs : List Char) : Option Decimal :=
  if cs.head?.any fun c => c = '.' ∨ isDecimal c then ofNumber negative cs else ofWord negative cs

/-- `Decimal(text)`; `none` is `InvalidOperation`. -/
def ofText (text : List Char) : Option Decimal :=
  let cs := (strip text).filter fun c => c ≠ '_'
  if cs.head? = some '-' then unsigned true cs.tail
  else if cs.head? = some '+' then unsigned false cs.tail
  else unsigned false cs

def number (negative : Bool) (coefficient : Nat) (exponent : Int) : ℚ :=
  (if negative then -1 else 1) * coefficient * 10 ^ exponent

/-- `a == b`; `none` is `InvalidOperation`, which a signaling NaN raises. -/
def equal : Decimal → Decimal → Option Bool
  | nan true, _ => none
  | _, nan true => none
  | nan false, _ => some false
  | _, nan false => some false
  | infinity n, infinity n' => some (n = n')
  | infinity _, finite .. => some false
  | finite .., infinity _ => some false
  | finite n c e, finite n' c' e' => some (number n c e = number n' c' e')

/-! ## Numbers without an exponent part -/

/-- A fraction with its point; without digits the point is left out. -/
def pointed : List Char → List Char
  | [] => []
  | c :: cs => '.' :: c :: cs

theorem takeWhile_pointed {whole : List Char} (hw : ∀ c ∈ whole, isDecimal c = true) (fraction : List Char) :
    (whole ++ pointed fraction).takeWhile isDecimal = whole ∧
      (whole ++ pointed fraction).dropWhile isDecimal = pointed fraction := by
  rw [List.takeWhile_append_of_pos hw, List.dropWhile_append_of_pos hw]
  cases fraction with
  | nil => exact ⟨List.append_nil whole, rfl⟩
  | cons c cs =>
    have hpoint : ¬ isDecimal '.' = true := by decide
    rw [pointed, List.takeWhile_cons_of_neg hpoint, List.dropWhile_cons_of_neg hpoint]
    exact ⟨List.append_nil whole, rfl⟩

theorem ofNumber_pointed (negative : Bool) {whole fraction : List Char} (hne : whole ≠ [])
    (hw : ∀ c ∈ whole, isDecimal c = true) (hf : ∀ c ∈ fraction, isDecimal c = true) :
    ofNumber negative (whole ++ pointed fraction) =
      some (finite negative (natOf (whole ++ fraction)) (-(fraction.length : Int))) := by
  obtain ⟨htake, hdrop⟩ := takeWhile_pointed hw fraction
  unfold ofNumber
  rw [htake, hdrop]
  cases fraction with
  | nil =>
    simp [pointed, exponentOf, hne]
  | cons c cs =>
    have hne' : whole ++ (c :: cs) ≠ [] := List.append_ne_nil_of_left_ne_nil hne _
    have htail : (c :: cs).takeWhile isDecimal = c :: cs := List.takeWhile_eq_self_iff.mpr hf
    have hrest : (c :: cs).dropWhile isDecimal = [] := List.dropWhile_eq_nil_iff.mpr hf
    simp only [pointed, List.head?_cons, List.tail_cons, if_true, htail, hrest, if_neg hne', exponentOf,
      Option.map_some, zero_sub]

theorem number_neg_length (negative : Bool) (whole fraction : List Char) :
    number negative (natOf (whole ++ fraction)) (-(fraction.length : Int)) =
      (if negative then -1 else 1) * (natOf whole + natOf fraction / 10 ^ fraction.length) := by
  unfold number
  rw [natOf_append, zpow_neg, zpow_natCast]
  push_cast
  field_simp

end Decimal

end Python
