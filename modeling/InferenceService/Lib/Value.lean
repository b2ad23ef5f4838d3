import InferenceService.Lib.Double

/-!
# Values of Python

The values that JSON texts stand for, with the operations on them that the
programs here use. A text may hold lone surrogates. A dict is the list of its
items; a key that occurs twice counts by its first item.
-/

namespace Python

abbrev Str := List (Fin 0x110000)

def codePoint (n : Nat) : Fin 0x110000 := Fin.ofNat 0x110000 n

def str (text : String) : Str := text.toList.map fun c => codePoint c.toNat

theorem str_inj {text text' : String} : str text = str text' ↔ text = text' := by
  constructor
  · intro h
    have hinj : Function.Injective fun c : Char => codePoint c.toNat := by
      intro c c' hc
      have hlt : ∀ c : Char, c.toNat < 0x110000 := fun c => by
        have : c.toNat < 0xd800 ∨ 0xdfff < c.toNat ∧ c.toNat < 0x110000 := c.valid
        omega
      have hval := congrArg Fin.val hc
      simp only [codePoint, Fin.val_ofNat, Nat.mod_eq_of_lt (hlt _)] at hval
      exact Char.toNat_inj.mp hval
    exact String.toList_inj.mp (List.map_injective_iff.mpr hinj h)
  · exact congrArg str

def isSurrogate (c : Fin 0x110000) : Bool := 0xd800 ≤ c.val && c.val < 0xe000

/-- The text of a string without lone surrogates. -/
def text (s : Str) : String := String.ofList (s.map fun c => Char.ofNat c.val)

theorem text_length (s : Str) : (text s).length = s.length := by
  rw [text, String.length_ofList, List.length_map]

/-- `text.encode("utf-8")`; `none` is a `UnicodeEncodeError`. -/
def encodeUtf8 (s : Str) : Option String := if s.any isSurrogate then none else some (text s)

theorem encodeUtf8_some {s : Str} {encoded : String} (h : encodeUtf8 s = some encoded) : encoded = text s := by
  obtain ⟨_, h⟩ := Option.ite_none_left_eq_some.mp h
  exact (Option.some.inj h).symm

/-- What is encoded is the text. -/
theorem str_of_encodeUtf8 {s : Str} {encoded : String} (h : encodeUtf8 s = some encoded) : str encoded = s := by
  obtain ⟨hno, h⟩ := Option.ite_none_left_eq_some.mp h
  rw [← Option.some.inj h, str, text, String.toList_ofList, List.map_map]
  have hpoint : ∀ c ∈ s, codePoint (Char.ofNat c.val).toNat = c := by
    intro c hc
    have hsurrogate : ¬ (0xd800 ≤ c.val ∧ c.val < 0xe000) := by
      intro hbad
      refine hno (List.any_eq_true.mpr ⟨c, hc, ?_⟩)
      simpa [isSurrogate] using hbad
    have hvalid : c.val.isValidChar := by
      have hlt := c.isLt
      unfold Nat.isValidChar
      omega
    have hnat : (Char.ofNat c.val).toNat = c.val := by
      rw [Char.ofNat, dif_pos hvalid]
      rfl
    rw [hnat]
    exact Fin.ext (Nat.mod_eq_of_lt c.isLt)
  calc s.map ((fun c => codePoint c.toNat) ∘ fun c => Char.ofNat c.val)
      = s.map id := List.map_congr_left hpoint
    _ = s := List.map_id s

theorem not_isSurrogate (c : Char) : isSurrogate (codePoint c.toNat) = false := by
  have hc : c.toNat < 0xd800 ∨ 0xdfff < c.toNat ∧ c.toNat < 0x110000 := c.valid
  have hval : (codePoint c.toNat).val = c.toNat := Nat.mod_eq_of_lt (by omega)
  unfold isSurrogate
  rw [hval]
  simp only [Bool.and_eq_false_iff, decide_eq_false_iff_not]
  omega

theorem not_isSurrogate_of_mem {text : String} {c : Fin 0x110000} (h : c ∈ str text) : isSurrogate c = false := by
  obtain ⟨char, _, rfl⟩ := List.mem_map.mp h
  exact not_isSurrogate char

theorem any_isSurrogate_str (text : String) : (str text).any isSurrogate = false := by
  simp only [List.any_eq_false, Bool.not_eq_true]
  exact fun c hc => not_isSurrogate_of_mem hc

/-- A `float`; a finite one is taken as a rational. -/
inductive Float where
  | finite (q : ℚ)
  | infinite (negative : Bool)
  | nan
deriving DecidableEq, Repr

inductive Value where
  | none
  | bool (b : Bool)
  | int (n : Int)
  | float (x : Float)
  | str (text : Str)
  | list (items : List Value)
  | dict (items : List (Str × Value))
deriving Repr

namespace Value

mutual

protected def decEq : (v w : Value) → Decidable (v = w)
  | none, w => match w with
    | none => isTrue rfl
    | bool _ | int _ | float _ | str _ | list _ | dict _ => isFalse nofun
  | bool b, w => match w with
    | bool c => decidable_of_iff (b = c) (by simp)
    | none | int _ | float _ | str _ | list _ | dict _ => isFalse nofun
  | int n, w => match w with
    | int m => decidable_of_iff (n = m) (by simp)
    | none | bool _ | float _ | str _ | list _ | dict _ => isFalse nofun
  | float x, w => match w with
    | float y => decidable_of_iff (x = y) (by simp)
    | none | bool _ | int _ | str _ | list _ | dict _ => isFalse nofun
  | str text, w => match w with
    | str text' => decidable_of_iff (text = text') (by simp)
    | none | bool _ | int _ | float _ | list _ | dict _ => isFalse nofun
  | list vs, w => match w with
    | list ws => @decidable_of_iff _ (vs = ws) (by simp) (Value.decEqList vs ws)
    | none | bool _ | int _ | float _ | str _ | dict _ => isFalse nofun
  | dict d, w => match w with
    | dict e => @decidable_of_iff _ (d = e) (by simp) (Value.decEqItems d e)
    | none | bool _ | int _ | float _ | str _ | list _ => isFalse nofun

protected def decEqList : (vs ws : List Value) → Decidable (vs = ws)
  | [], [] => isTrue rfl
  | [], _ :: _ => isFalse nofun
  | _ :: _, [] => isFalse nofun
  | v :: vs, w :: ws =>
    @decidable_of_iff _ (v = w ∧ vs = ws) (by simp) (@instDecidableAnd _ _ (Value.decEq v w) (Value.decEqList vs ws))

protected def decEqItems : (d e : List (Str × Value)) → Decidable (d = e)
  | [], [] => isTrue rfl
  | [], _ :: _ => isFalse nofun
  | _ :: _, [] => isFalse nofun
  | (k, v) :: d, (l, w) :: e =>
    @decidable_of_iff _ (k = l ∧ v = w ∧ d = e) (by simp [and_assoc])
      (@instDecidableAnd _ _ _ (@instDecidableAnd _ _ (Value.decEq v w) (Value.decEqItems d e)))

end

instance : DecidableEq Value := Value.decEq

end Value

abbrev Dict := List (Str × Value)

namespace Dict

def get? (d : Dict) (key : Str) : Option Value := (d.find? fun item => item.1 = key).map Prod.snd

def set (d : Dict) (key : Str) (value : Value) : Dict :=
  match d with
  | [] => [(key, value)]
  | item :: d => if item.1 = key then (key, value) :: d else item :: set d key value

def update (d : Dict) (items : Dict) : Dict := items.foldl (fun d item => d.set item.1 item.2) d

@[simp] theorem get?_nil (key : Str) : get? [] key = none := rfl

@[simp] theorem get?_cons (key' : Str) (value : Value) (d : Dict) (key : Str) :
    get? ((key', value) :: d) key = if key' = key then some value else d.get? key := by
  by_cases h : key' = key <;> simp [get?, h]

theorem get?_append (d d' : Dict) (key : Str) : get? (d ++ d') key = (get? d key).or (d'.get? key) := by
  unfold get?
  rw [List.find?_append]
  cases d.find? fun item => item.1 = key <;> rfl

theorem get?_set_self (d : Dict) (key : Str) (value : Value) : (d.set key value).get? key = some value := by
  induction d with
  | nil => simp [set, get?]
  | cons item d ih =>
    by_cases h : item.1 = key
    · simp [set, get?, h]
    · simpa [set, get?, h] using ih

theorem get?_set_of_ne (d : Dict) {key key' : Str} (h : key' ≠ key) (value : Value) :
    (d.set key value).get? key' = d.get? key' := by
  induction d with
  | nil => simp [set, get?, Ne.symm h]
  | cons item d ih =>
    by_cases hk : item.1 = key
    · simp [set, get?, hk, Ne.symm h]
    · by_cases hk' : item.1 = key'
      · simp [set, get?, hk', h]
      · simpa [set, get?, hk, hk'] using ih

theorem get?_set (d : Dict) (key : Str) (value : Value) (key' : Str) :
    (d.set key value).get? key' = if key = key' then some value else d.get? key' := by
  by_cases h : key' = key
  · rw [h, get?_set_self, if_pos rfl]
  · rw [get?_set_of_ne d h, if_neg (Ne.symm h)]

end Dict

/-! ## Operations on values -/

/-- `2 ** 1024 - 2 ** 970`: what is at least as large has no nearest float. -/
def floatBound : ℚ := 2 ^ 1024 - 2 ^ 970

namespace Float

def ofRat (q : ℚ) : Float := if |q| < floatBound then .finite (Double.nearest q) else .infinite (q < 0)

/-- `round(x, digits)`. -/
def round (digits : Nat) : Float → Float
  | finite q => finite (Double.nearest (Python.round (q * 10 ^ digits) / 10 ^ digits))
  | x => x

def isFinite : Float → Bool
  | finite _ => true
  | infinite _ => false
  | nan => false

theorem isFinite_ofRat {q : ℚ} : (ofRat q).isFinite = true ↔ |q| < floatBound := by
  unfold ofRat
  split_ifs with h <;> simp [isFinite, h]

theorem isFinite_round (digits : Nat) (x : Float) : (x.round digits).isFinite = x.isFinite := by
  cases x <;> rfl

end Float

namespace Value

def truthy : Value → Bool
  | none => false
  | bool b => b
  | int n => n ≠ 0
  | float (.finite q) => q ≠ 0
  | float _ => true
  | str text => !text.isEmpty
  | list items => !items.isEmpty
  | dict items => !items.isEmpty

/-- `value.get(key, default)`; an error is the class of the exception. -/
def get (value : Value) (key : Str) (default : Value) : Except String Value :=
  match value with
  | dict items => .ok ((Dict.get? items key).getD default)
  | _ => .error "AttributeError"

/-- `value[0]`. -/
def first : Value → Except String Value
  | list (item :: _) => .ok item
  | list [] => .error "IndexError"
  | str (c :: _) => .ok (.str [c])
  | str [] => .error "IndexError"
  | dict _ => .error "KeyError"
  | _ => .error "TypeError"

/-- `value / divisor` for a positive finite divisor. -/
def trueDiv (divisor : ℚ) : Value → Except String Float
  | int n =>
    if |(n : ℚ)| < floatBound then .ok (.ofRat (Double.nearest n / divisor)) else .error "OverflowError"
  | bool b => .ok (.ofRat ((if b then 1 else 0) / divisor))
  | float (.finite q) => .ok (.ofRat (q / divisor))
  | float x => .ok x
  | _ => .error "TypeError"

/-- `len(value)`. -/
def len : Value → Except String Nat
  | str text => .ok text.length
  | list items => .ok items.length
  | dict items => .ok (items.map Prod.fst).dedup.length
  | _ => .error "TypeError"

/-- The values that have a length. -/
def Sized : Value → Prop
  | str _ | list _ | dict _ => True
  | none | bool _ | int _ | float _ => False

theorem len_ok_iff (value : Value) : (∃ n, value.len = .ok n) ↔ value.Sized := by
  cases value <;> simp [len, Sized]

def isNone : Value → Bool
  | none => true
  | _ => false

/-- What is a text can be encoded. -/
def encodes : Value → Bool
  | str text => !text.any isSurrogate
  | _ => true

/-- What is a float is finite. -/
def isFinite : Value → Bool
  | float x => x.isFinite
  | _ => true

@[simp] theorem encodes_str (text : String) : encodes (str (Python.str text)) = true := by
  simp only [encodes, any_isSurrogate_str, Bool.not_false]

mutual

/-- No text in the value has a lone surrogate. -/
def plain : Value → Bool
  | str text => !text.any isSurrogate
  | list items => plainList items
  | dict items => plainItems items
  | none | bool _ | int _ | float _ => true

def plainList : List Value → Bool
  | [] => true
  | v :: vs => v.plain && plainList vs

def plainItems : List (Str × Value) → Bool
  | [] => true
  | (key, v) :: items => !key.any isSurrogate && v.plain && plainItems items

end

end Value

/-! ## Code that may raise -/

section
variable {ε α β : Type}

theorem bind_eq_ok {x : Except ε α} {f : α → Except ε β} {b : β} :
    x >>= f = .ok b ↔ ∃ a, x = .ok a ∧ f a = .ok b := by
  cases x with
  | error e => exact ⟨nofun, fun ⟨_, h, _⟩ => nomatch h⟩
  | ok a => exact ⟨fun h => ⟨a, rfl, h⟩, fun ⟨_, h, h'⟩ => Except.ok.inj h ▸ h'⟩

theorem mapM_eq_ok {f : α → Except ε β} {as : List α} {bs : List β} :
    as.mapM f = .ok bs ↔ List.Forall₂ (fun a b => f a = .ok b) as bs := by
  induction as generalizing bs with
  | nil => simp [pure, Except.pure, eq_comm]
  | cons a as ih =>
    rw [List.mapM_cons, bind_eq_ok, List.forall₂_cons_left_iff]
    apply exists_congr
    intro b
    rw [bind_eq_ok]
    simp only [ih, pure, Except.pure, Except.ok.injEq]
    constructor
    · rintro ⟨hb, bs', hbs, rfl⟩
      exact ⟨bs', hb, hbs, rfl⟩
    · rintro ⟨bs', hb, hbs, rfl⟩
      exact ⟨hb, bs', hbs, rfl⟩

theorem mapM_ok_iff {f : α → Except ε β} {as : List α} :
    (∃ bs, as.mapM f = .ok bs) ↔ ∀ a ∈ as, ∃ b, f a = .ok b := by
  simp only [mapM_eq_ok]
  induction as with
  | nil => simp
  | cons a as ih =>
    rw [List.forall_mem_cons, ← ih]
    constructor
    · rintro ⟨bs, h⟩
      cases h with
      | cons hb hbs => exact ⟨⟨_, hb⟩, _, hbs⟩
    · rintro ⟨⟨b, hb⟩, bs, hbs⟩
      exact ⟨b :: bs, .cons hb hbs⟩

theorem mem_of_mapM {f : α → Except ε β} {as : List α} {bs : List β} (h : as.mapM f = .ok bs) {b : β} :
    b ∈ bs ↔ ∃ a ∈ as, f a = .ok b := by
  rw [mapM_eq_ok] at h
  induction h with
  | nil => simp
  | cons ha _ ih => simp [ih, ha, eq_comm]

end

/-- An exception as a script tells it, with its class and its text. -/
structure Exception where
  typeName : String
  text : Str
deriving DecidableEq

def Value.ofInt? : Option Int → Value
  | .none => .none
  | .some n => .int n

/-- `f"{x:.nf}"` with `n` as `digits`. -/
def formatFixed (digits : Nat) (x : ℚ) : String :=
  let n := (round (|x| * 10 ^ digits)).toNat
  let fraction := String.ofList (List.leftpad digits '0' (Nat.toDigits 10 (n % 10 ^ digits)))
  (if x < 0 then "-" else "") ++ toString (n / 10 ^ digits) ++ "." ++ fraction

end Python
