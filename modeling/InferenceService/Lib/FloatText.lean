import InferenceService.Lib.Decimal

/-!
# `float(text)` and `str.splitlines` of Python

A float is kept as the decimal number that its text denotes, before it is
rounded to a double.
-/

namespace Python

/-! ## `float(text)` -/

/-- `float` does not take the separators U+001C to U+001F for white space. -/
def isFloatSpace (c : Char) : Bool := isSpace c && !(28 ≤ c.toNat && c.toNat ≤ 31)

/-- Each `_` stands between two digits; `digit` tells what comes before the text. -/
def underscored (digit : Bool) : List Char → Bool
  | [] => true
  | c :: cs =>
    if c = '_' then digit && cs.head?.any isDecimal && underscored false cs
    else underscored (isDecimal c) cs

def floatWord (negative : Bool) (cs : List Char) : Option Decimal :=
  let word := String.ofList (cs.map Char.toLower)
  if word = "inf" ∨ word = "infinity" then some (.infinity negative)
  else if word = "nan" then some (.nan false)
  else none

def floatUnsigned (negative : Bool) (cs : List Char) : Option Decimal :=
  if cs.head?.any fun c => c = '.' ∨ isDecimal c then Decimal.ofNumber negative cs else floatWord negative cs

/-- `float(text)`; `none` is a `ValueError`. -/
def floatText (text : List Char) : Option Decimal :=
  let cs := (text.dropWhile isFloatSpace).rdropWhile isFloatSpace
  if underscored false cs then
    let ds := cs.filter fun c => c ≠ '_'
    if ds.head? = some '-' then floatUnsigned true ds.tail
    else if ds.head? = some '+' then floatUnsigned false ds.tail
    else floatUnsigned false ds
  else none

/-! ## `str.splitlines` -/

def isLineEnd (c : Char) : Bool :=
  let n := c.toNat
  (10 ≤ n ∧ n ≤ 13) ∨ (28 ≤ n ∧ n ≤ 30) ∨ n = 0x85 ∨ n = 0x2028 ∨ n = 0x2029

/-- `text.replace("\r\n", "\n")`. -/
def joinCrLf : List Char → List Char
  | [] => []
  | c :: s => if c = '\r' ∧ s.head? = some '\n' then joinCrLf s else c :: joinCrLf s

def splitAtEnds : List Char → List (List Char)
  | [] => []
  | c :: s =>
    if isLineEnd c then [] :: splitAtEnds s
    else match splitAtEnds s with
      | [] => [[c]]
      | line :: lines => (c :: line) :: lines

def splitlines (text : List Char) : List (List Char) := splitAtEnds (joinCrLf text)

end Python
