import InferenceService.Lib.Decimal
import InferenceService.Lib.Regex

/-!
# `run_gsm8k_full_benchmark.py`: the score of a response

The predicted answer is found in the response with regular expressions and
compared with the expected one as a decimal number. Texts are lists of
characters here.
-/

namespace InferenceService

open Regex

abbrev Text := List Char

/-! ## Numbers -/

def normalizeNumberString (text : Text) : Text :=
  (((Python.strip text).filter fun c => c ≠ '$').filter fun c => c ≠ ',').rdropWhile fun c => c = '.'

def toDecimalOrNone (value : Text) : Option Python.Decimal := Python.Decimal.ofText (normalizeNumberString value)

/-- `none` where the comparison raises. -/
def isCorrect (expected predicted : Text) : Option Bool :=
  match toDecimalOrNone expected, toDecimalOrNone predicted with
  | some e, some p => e.equal p
  | _, _ => some (normalizeNumberString expected = normalizeNumberString predicted)

/-! ## `extract_predicted_answer` -/

/-- `[-+]?\$?\d[\d,]*(?:\.\d+)?`. -/
def numeral : Regex Char :=
  seq (opt (char fun c => c = '-' ∨ c = '+')) <| seq (opt (char fun c => c = '$')) <|
    seq (char Python.isDecimal) <| seq (many fun c => c = ',' ∨ Python.isDecimal c) <|
      opt <| seq (char fun c => c = '.') <| seq (char Python.isDecimal) (many Python.isDecimal)

/-- A character that matches `c` under `re.IGNORECASE`, for `c` that is of
ASCII or has no case. -/
def ignoreCase (c d : Char) : Bool :=
  c.toLower = d.toLower ∨ c.toLower = 'i' ∧ (d = '\u0130' ∨ d = '\u0131') ∨ c.toLower = 's' ∧ d = '\u017f' ∨
    c.toLower = 'k' ∧ d = '\u212a'

/-- The phrase and `\s*[:：]\s*`. -/
def marker (phrase : String) : Regex Char :=
  seq (chars (phrase.toList.map ignoreCase)) <| seq (many Python.isSpace) <|
    seq (char fun c => c = ':' ∨ c = '：') (many Python.isSpace)

def answerPattern (phrase : String) : Regex Char := seq (marker phrase) (group numeral)

def answerPatterns : List (Regex Char) := ["Final answer", "final answer", "答案", "最终答案"].map answerPattern

def extractPredictedAnswer (responseText : Text) : Text :=
  if responseText = [] then []
  else match answerPatterns.findSome? fun pattern => search pattern responseText with
    | some m => normalizeNumberString (m.group.getD [])
    | none => ((findall numeral responseText).getLast?.map normalizeNumberString).getD []

/-! ## Numeric literals -/

/-- An optional sign and dollar sign, digits of Unicode with commas among them,
and the digits of an optional decimal part. -/
structure Literal where
  sign : Option Char
  dollar : Bool
  lead : Char
  tail : List Char
  decimals : List Char
  sign_mem : ∀ c ∈ sign, c = '-' ∨ c = '+'
  lead_decimal : Python.isDecimal lead = true
  tail_mem : ∀ c ∈ tail, c = ',' ∨ Python.isDecimal c = true
  decimals_decimal : ∀ c ∈ decimals, Python.isDecimal c = true

namespace Literal

def dollars (l : Literal) : Text := if l.dollar then ['$'] else []

def text (l : Literal) : Text :=
  l.sign.toList ++ (l.dollars ++ (l.lead :: l.tail ++ Python.Decimal.pointed l.decimals))

/-- The digits before the point. -/
def whole (l : Literal) : List Char := l.lead :: l.tail.filter fun c => c ≠ ','

def value (l : Literal) : ℚ :=
  (if l.sign = some '-' then -1 else 1) *
    (Python.natOf l.whole + Python.natOf l.decimals / 10 ^ l.decimals.length)

end Literal

/-! ## The answers that a text marks -/

/-- The longest literal that the text begins with. -/
def Reads (s : Text) (m : Literal) : Prop :=
  m.text <+: s ∧ ∀ l : Literal, l.text <+: s → l.text.length ≤ m.text.length

/-- The text begins with `Final answer:`, up to case and white space, and a literal. -/
def Marked (s : Text) (m : Literal) : Prop :=
  ∃ word gap colon gap' t, s = word ++ (gap ++ colon :: (gap' ++ t)) ∧
    List.Forall₂ (fun c d => ignoreCase c d = true) "Final answer".toList word ∧
    (∀ c ∈ gap, Python.isSpace c = true) ∧ (colon = ':' ∨ colon = '：') ∧
    (∀ c ∈ gap', Python.isSpace c = true) ∧ Reads t m

def FirstMarked : Text → Literal → Prop := Leftmost Marked

def responseEnd (n : Literal) (period : Bool) : Text :=
  "Final answer: ".toList ++ (n.text ++ if period then ['.'] else [])

/-- The response is scored by the literal that it ends with. -/
def ScoredByFinalAnswer (before : Text) (e n : Literal) (period : Bool) : Prop :=
  isCorrect e.text (extractPredictedAnswer (before ++ responseEnd n period)) = some true ↔ e.value = n.value

/-! ## Characters of a literal -/

namespace Literal

variable {l m : Literal}

theorem mem_dollars {c : Char} (h : c ∈ l.dollars) : c = '$' := by
  unfold dollars at h
  cases hd : l.dollar with
  | true =>
    rw [hd] at h
    exact List.mem_singleton.mp h
  | false =>
    rw [hd] at h
    exact absurd h List.not_mem_nil

theorem mem_pointed {cs : List Char} {c : Char} (h : c ∈ Python.Decimal.pointed cs) : c = '.' ∨ c ∈ cs := by
  cases cs with
  | nil => exact .inr h
  | cons d ds => exact List.mem_cons.mp h

theorem text_mem {c : Char} (h : c ∈ l.text) :
    c ∈ ['-', '+', '$', ',', '.'] ∨ Python.isDecimal c = true := by
  rcases List.mem_append.mp h with h | h
  · rcases l.sign_mem c (Option.mem_toList.mp h) with rfl | rfl
    · exact .inl (by decide)
    · exact .inl (by decide)
  · rcases List.mem_append.mp h with h | h
    · obtain rfl := mem_dollars h
      exact .inl (by decide)
    · rcases List.mem_append.mp h with h | h
      · rcases List.mem_cons.mp h with rfl | h
        · exact .inr l.lead_decimal
        · rcases l.tail_mem c h with rfl | h
          · exact .inl (by decide)
          · exact .inr h
      · rcases mem_pointed h with rfl | h
        · exact .inl (by decide)
        · exact .inr (l.decimals_decimal c h)

theorem not_mem_text {c : Char} (hmark : c ∉ ['-', '+', '$', ',', '.']) (hc : Python.isDecimal c = false) :
    c ∉ l.text := by
  intro h
  rcases text_mem h with h | h
  · exact hmark h
  · rw [hc] at h
    cases h

theorem not_isSpace_text {c : Char} (h : c ∈ l.text) : Python.isSpace c = false := by
  have hmarks : ∀ d ∈ ['-', '+', '$', ',', '.'], (!Python.isSpace d) = true := List.all_eq_true.mp (by decide)
  rcases text_mem h with h | h
  · simpa using hmarks c h
  · exact Python.not_isSpace_of_isDecimal h

/-- The last character of a literal is the last of its decimal part, or of what
stands before that. -/
theorem getLast?_text : l.text.getLast? = l.decimals.getLast?.or (l.lead :: l.tail).getLast? := by
  have hdigits : (l.lead :: l.tail).getLast? = some ((l.lead :: l.tail).getLast (List.cons_ne_nil _ _)) :=
    List.getLast?_eq_some_getLast _
  unfold text
  rw [List.getLast?_append, List.getLast?_append, List.getLast?_append, hdigits]
  cases l.decimals with
  | nil => rfl
  | cons d ds =>
    rw [Python.Decimal.pointed, List.getLast?_cons_cons, List.getLast?_eq_some_getLast (List.cons_ne_nil d ds)]
    rfl

theorem text_ne_nil (l : Literal) : l.text ≠ [] := by
  intro h
  have hlast := l.getLast?_text
  rw [h, List.getLast?_eq_some_getLast (List.cons_ne_nil l.lead l.tail)] at hlast
  cases hd : l.decimals.getLast? with
  | none => rw [hd] at hlast; cases hlast
  | some c => rw [hd] at hlast; cases hlast

theorem getLast?_ne_point : l.text.getLast? ≠ some '.' := by
  have hdigit : ¬ Python.isDecimal '.' = true := by decide
  intro h
  rw [getLast?_text, Option.or_eq_some_iff] at h
  rcases h with h | ⟨_, h⟩
  · exact hdigit (l.decimals_decimal _ (List.mem_of_getLast? h))
  · rcases List.mem_cons.mp (List.mem_of_getLast? h) with h | h
    · exact hdigit (h ▸ l.lead_decimal)
    · rcases l.tail_mem _ h with h | h
      · revert h
        decide
      · exact hdigit h

/-! ## What is left of a literal when it is normalized -/

def bare (l : Literal) : Literal :=
  { l with
    dollar := false
    tail := l.tail.filter fun c => c ≠ ','
    tail_mem := fun c h => l.tail_mem c (List.mem_of_mem_filter h) }

theorem whole_decimal {c : Char} (h : c ∈ l.whole) : Python.isDecimal c = true := by
  rcases List.mem_cons.mp h with rfl | h
  · exact l.lead_decimal
  · obtain ⟨hmem, hcomma⟩ := List.mem_filter.mp h
    rcases l.tail_mem c hmem with rfl | h
    · exact absurd rfl (of_decide_eq_true hcomma)
    · exact h

theorem bare_bare : l.bare.bare = l.bare := by
  unfold bare
  simp only [List.filter_filter, Bool.and_self]

theorem bare_text : l.bare.text = l.sign.toList ++ (l.whole ++ Python.Decimal.pointed l.decimals) := rfl

end Literal

theorem ne_of_isDecimal {c d : Char} (hc : Python.isDecimal c = true) (hd : Python.isDecimal d = false) : c ≠ d := by
  intro heq
  subst heq
  rw [hc] at hd
  cases hd

theorem filter_text (l : Literal) :
    ((l.text.filter fun c => c ≠ '$').filter fun c => c ≠ ',') = l.bare.text := by
  have hdigit : ∀ c, Python.isDecimal c = true → c ≠ '$' ∧ c ≠ ',' := fun c hc =>
    ⟨ne_of_isDecimal hc (by decide), ne_of_isDecimal hc (by decide)⟩
  have hsign : ∀ c ∈ l.sign.toList, c ≠ '$' ∧ c ≠ ',' := by
    intro c hc
    rcases l.sign_mem c (Option.mem_toList.mp hc) with rfl | rfl <;> decide
  have hpointed : ∀ c ∈ Python.Decimal.pointed l.decimals, c ≠ '$' ∧ c ≠ ',' := by
    intro c hc
    rcases Literal.mem_pointed hc with rfl | hc
    · decide
    · exact hdigit c (l.decimals_decimal c hc)
  have hkept : ∀ cs : List Char, (∀ c ∈ cs, c ≠ '$' ∧ c ≠ ',') →
      ((cs.filter fun c => c ≠ '$').filter fun c => c ≠ ',') = cs := by
    intro cs h
    rw [List.filter_eq_self.mpr fun c hc => decide_eq_true (h c hc).1,
      List.filter_eq_self.mpr fun c hc => decide_eq_true (h c hc).2]
  have hdollars : (l.dollars.filter fun c => c ≠ '$') = [] :=
    List.filter_eq_nil_iff.mpr fun c hc => by simp [Literal.mem_dollars hc]
  have hwhole : (((l.lead :: l.tail).filter fun c => c ≠ '$').filter fun c => c ≠ ',') = l.whole := by
    have htail : ∀ c ∈ l.lead :: l.tail, c ≠ '$' := by
      intro c hc
      rcases List.mem_cons.mp hc with rfl | hc
      · exact (hdigit _ l.lead_decimal).1
      · rcases l.tail_mem c hc with rfl | hc
        · decide
        · exact (hdigit c hc).1
    rw [List.filter_eq_self.mpr fun c hc => decide_eq_true (htail c hc)]
    exact List.filter_cons_of_pos (decide_eq_true (hdigit _ l.lead_decimal).2)
  rw [Literal.bare_text, Literal.text]
  simp only [List.filter_append, hkept _ hsign, hkept _ hpointed, hdollars, hwhole, List.nil_append]

theorem normalize_text (l : Literal) : normalizeNumberString l.text = l.bare.text := by
  unfold normalizeNumberString
  rw [Python.strip_eq_self fun c h => Literal.not_isSpace_text h, filter_text, List.rdropWhile_eq_self_iff]
  intro hne hpoint
  have hlast := List.getLast?_eq_some_getLast hne
  rw [of_decide_eq_true hpoint] at hlast
  exact Literal.getLast?_ne_point hlast

/-! ## Literals as decimal numbers -/

def Literal.decimal (l : Literal) : Python.Decimal :=
  .finite (l.sign = some '-') (Python.natOf (l.whole ++ l.decimals)) (-(l.decimals.length : Int))

theorem unsigned_whole (negative : Bool) (l : Literal) :
    Python.Decimal.unsigned negative (l.whole ++ Python.Decimal.pointed l.decimals) =
      some (.finite negative (Python.natOf (l.whole ++ l.decimals)) (-(l.decimals.length : Int))) := by
  have hhead : ((l.whole ++ Python.Decimal.pointed l.decimals).head?.any fun c => c = '.' ∨ Python.isDecimal c) =
      true := decide_eq_true (.inr l.lead_decimal)
  unfold Python.Decimal.unsigned
  rw [if_pos hhead]
  exact Python.Decimal.ofNumber_pointed negative (List.cons_ne_nil _ _) (fun _ h => Literal.whole_decimal h)
    l.decimals_decimal

theorem ofText_bare (l : Literal) : Python.Decimal.ofText l.bare.text = some l.decimal := by
  have hfilter : (l.bare.text.filter fun c => c ≠ '_') = l.bare.text := by
    refine List.filter_eq_self.mpr fun c hc => decide_eq_true ?_
    intro heq
    subst heq
    exact Literal.not_mem_text (by decide) (by decide) hc
  unfold Python.Decimal.ofText Literal.decimal
  rw [Python.strip_eq_self fun c h => Literal.not_isSpace_text h]
  simp only [hfilter]
  rw [Literal.bare_text]
  cases hsign : l.sign with
  | none =>
    have hminus : l.lead ≠ '-' := ne_of_isDecimal l.lead_decimal (by decide)
    have hplus : l.lead ≠ '+' := ne_of_isDecimal l.lead_decimal (by decide)
    have hhead : ∀ d, l.lead ≠ d → ¬ (l.whole ++ Python.Decimal.pointed l.decimals).head? = some d :=
      fun d hd h => hd (Option.some.inj h)
    rw [Option.toList_none, List.nil_append, if_neg (hhead _ hminus), if_neg (hhead _ hplus), unsigned_whole]
    rfl
  | some c =>
    rw [Option.toList_some, List.singleton_append, List.head?_cons, List.tail_cons]
    rcases l.sign_mem c hsign with rfl | rfl
    · rw [if_pos rfl, unsigned_whole]
      rfl
    · rw [if_neg (by decide), if_pos rfl, unsigned_whole]
      rfl

theorem toDecimalOrNone_text (l : Literal) : toDecimalOrNone l.text = some l.decimal := by
  unfold toDecimalOrNone
  rw [normalize_text, ofText_bare]

theorem toDecimalOrNone_normalized (l : Literal) :
    toDecimalOrNone (normalizeNumberString l.text) = some l.decimal := by
  unfold toDecimalOrNone
  rw [normalize_text, normalize_text, Literal.bare_bare, ofText_bare]

theorem number_decimal (l : Literal) :
    Python.Decimal.number (l.sign = some '-') (Python.natOf (l.whole ++ l.decimals)) (-(l.decimals.length : Int)) =
      l.value := by
  rw [Python.Decimal.number_neg_length]
  simp only [Literal.value, decide_eq_true_eq]

theorem isCorrect_normalized (e m : Literal) :
    isCorrect e.text (normalizeNumberString m.text) = some (decide (e.value = m.value)) := by
  unfold isCorrect
  rw [toDecimalOrNone_text, toDecimalOrNone_normalized]
  simp only [Literal.decimal, Python.Decimal.equal, number_decimal]

theorem value_of_text {l m : Literal} (h : l.text = m.text) : l.value = m.value := by
  have hdecimal : l.decimal = m.decimal := by
    rw [← Option.some.injEq, ← toDecimalOrNone_text, ← toDecimalOrNone_text, h]
  unfold Literal.decimal at hdecimal
  obtain ⟨hsign, hcoefficient, hexponent⟩ := Python.Decimal.finite.inj hdecimal
  rw [← number_decimal l, ← number_decimal m, hsign, hcoefficient, hexponent]

/-! ## The numerals that the pattern reads -/

theorem greedy_numeral : Greedy numeral := by
  have hsign : ∀ c : Char, (c = '-' ∨ c = '+') → c ≠ '$' ∧ ¬ Python.isDecimal c = true := by
    rintro c (rfl | rfl) <;> decide
  unfold numeral
  refine greedy_opt_seq (greedy_opt_seq (greedy_char_seq (greedy_many_seq (greedy_opt
    (greedy_char_seq (greedy_char_seq greedy_many))) ?_)) ?_) ?_
  · intro c hc
    have hpoint : c ≠ '.' := by
      intro heq
      subst heq
      revert hc
      decide
    simpa [starts, nullable] using hpoint
  · intro c hc
    have hdollar : ¬ Python.isDecimal c = true := by
      rw [of_decide_eq_true hc]
      decide
    simpa [starts, nullable] using hdollar
  · intro c hc
    simpa [starts, nullable] using hsign c (of_decide_eq_true hc)

theorem lang_pointed {w : Text} :
    Lang (opt (seq (char fun c => c = '.') (seq (char Python.isDecimal) (many Python.isDecimal)))) w ↔
      ∃ cs, w = Python.Decimal.pointed cs ∧ ∀ c ∈ cs, Python.isDecimal c = true := by
  constructor
  · intro h
    rcases h with rfl | ⟨_, _, ⟨point, hpoint, rfl⟩, hdigits, rfl⟩
    · exact ⟨[], rfl, fun c h => absurd h List.not_mem_nil⟩
    · obtain ⟨_, cs, ⟨c, hc, rfl⟩, hcs, rfl⟩ := hdigits
      refine ⟨c :: cs, ?_, List.forall_mem_cons.mpr ⟨hc, hcs⟩⟩
      rw [of_decide_eq_true hpoint]
      rfl
  · intro hw
    obtain ⟨cs, rfl, h⟩ := hw
    cases cs with
    | nil => exact .inl rfl
    | cons c cs =>
      obtain ⟨hc, hcs⟩ := List.forall_mem_cons.mp h
      exact .inr ⟨['.'], _, ⟨'.', rfl, rfl⟩, ⟨[c], cs, ⟨c, hc, rfl⟩, hcs, rfl⟩, rfl⟩

theorem lang_numeral {w : Text} : Lang numeral w ↔ ∃ l : Literal, l.text = w := by
  constructor
  · intro h
    obtain ⟨_, _, hsign, hrest, rfl⟩ := h
    obtain ⟨_, _, hdollar, hrest, rfl⟩ := hrest
    obtain ⟨_, _, ⟨lead, hlead, rfl⟩, hrest, rfl⟩ := hrest
    obtain ⟨tail, _, htail, hpoint, rfl⟩ := hrest
    obtain ⟨sign, rfl, hsigns⟩ := lang_opt_char.mp hsign
    obtain ⟨dollar, rfl, hdollars⟩ := lang_opt_char.mp hdollar
    obtain ⟨decimals, rfl, hdecimals⟩ := lang_pointed.mp hpoint
    have htext : dollar.toList = if dollar.isSome then ['$'] else [] := by
      cases dollar with
      | none => rfl
      | some c => rw [of_decide_eq_true (hdollars c rfl)]; rfl
    refine ⟨⟨sign, dollar.isSome, lead, tail, decimals, fun c h => of_decide_eq_true (hsigns c h), hlead,
      fun c h => of_decide_eq_true (htail c h), hdecimals⟩, ?_⟩
    rw [htext]
    simp [Literal.text, Literal.dollars]
  · intro h
    obtain ⟨l, rfl⟩ := h
    have hsign : Lang (opt (char fun c => c = '-' ∨ c = '+')) l.sign.toList :=
      lang_opt_char.mpr ⟨l.sign, rfl, fun c h => decide_eq_true (l.sign_mem c h)⟩
    have hdollar : Lang (opt (char fun c => c = '$')) l.dollars := by
      unfold Literal.dollars
      cases l.dollar with
      | true => exact .inr ⟨'$', rfl, rfl⟩
      | false => exact .inl rfl
    have htail : Lang (many fun c => c = ',' ∨ Python.isDecimal c) l.tail :=
      fun c h => decide_eq_true (l.tail_mem c h)
    have hpoint := lang_pointed.mpr ⟨l.decimals, rfl, l.decimals_decimal⟩
    exact ⟨_, _, hsign, ⟨_, _, hdollar, ⟨[l.lead], _, ⟨l.lead, l.lead_decimal, rfl⟩,
      ⟨l.tail, _, htail, hpoint, rfl⟩, rfl⟩, rfl⟩, rfl⟩

theorem first_numeral {s : Text} {k : Match Char} (h : first numeral s = some k) :
    ∃ m : Literal, k.text = m.text ∧ Reads s m := by
  obtain ⟨hs, hlang⟩ := first_sound h
  obtain ⟨m, hm⟩ := lang_numeral.mp hlang
  refine ⟨m, hm.symm, ⟨k.rest, by rw [hm]; exact hs.symm⟩, fun l hl => ?_⟩
  rw [hm]
  exact greedy_numeral.longest h hl (lang_numeral.mpr ⟨l, rfl⟩)

/-! ## The marker pattern -/

theorem lang_marker {phrase : String} {w : Text} :
    Lang (marker phrase) w ↔ ∃ word gap colon gap', w = word ++ (gap ++ colon :: gap') ∧
      List.Forall₂ (fun c d => ignoreCase c d = true) phrase.toList word ∧
      (∀ c ∈ gap, Python.isSpace c = true) ∧ (colon = ':' ∨ colon = '：') ∧
      ∀ c ∈ gap', Python.isSpace c = true := by
  constructor
  · intro h
    obtain ⟨word, _, hword, hrest, rfl⟩ := h
    obtain ⟨gap, _, hgap, hrest, rfl⟩ := hrest
    obtain ⟨_, gap', ⟨colon, hcolon, rfl⟩, hgap', rfl⟩ := hrest
    exact ⟨word, gap, colon, gap', rfl, List.forall₂_map_left_iff.mp (lang_chars.mp hword), hgap,
      of_decide_eq_true hcolon, hgap'⟩
  · intro h
    obtain ⟨word, gap, colon, gap', rfl, hword, hgap, hcolon, hgap'⟩ := h
    exact ⟨word, _, lang_chars.mpr (List.forall₂_map_left_iff.mpr hword), ⟨gap, _, hgap,
      ⟨[colon], gap', ⟨colon, decide_eq_true hcolon, rfl⟩, hgap', rfl⟩, rfl⟩, rfl⟩

/-- Where the first pattern matches a literal is marked, and it is the group. -/
theorem first_answerPattern {s : Text} {k : Match Char} (h : first (answerPattern "Final answer") s = some k) :
    ∃ m, Marked s m ∧ k.group = some m.text := by
  obtain ⟨a, ha, b, hb, rfl⟩ := first_seq_some h
  rw [first_group] at hb
  obtain ⟨j, hj, rfl⟩ := Option.map_eq_some_iff.mp hb
  obtain ⟨hs, hlang⟩ := run_sound ha
  obtain ⟨word, gap, colon, gap', htext, hword, hgap, hcolon, hgap'⟩ := lang_marker.mp hlang
  obtain ⟨m, hm, hreads⟩ := first_numeral hj
  refine ⟨m, ⟨word, gap, colon, gap', a.rest, ?_, hword, hgap, hcolon, hgap', hreads⟩, by rw [← hm]; rfl⟩
  rw [hs, htext, List.append_assoc, List.append_assoc, List.cons_append]

theorem answerPattern_of_marked {s : Text} {m : Literal} (h : Marked s m) :
    ∃ k, first (answerPattern "Final answer") s = some k := by
  obtain ⟨word, gap, colon, gap', t, hs, hword, hgap, hcolon, hgap', hbegin, _⟩ := h
  cases hfirst : first (answerPattern "Final answer") s with
  | some k => exact ⟨k, rfl⟩
  | none =>
    have hmarker := lang_marker.mpr ⟨word, gap, colon, gap', rfl, hword, hgap, hcolon, hgap'⟩
    obtain ⟨rest, rfl⟩ := hbegin
    refine absurd ⟨_, m.text, hmarker, lang_numeral.mpr ⟨m, rfl⟩, rfl⟩ (first_complete hfirst ⟨rest, ?_⟩)
    rw [hs]
    simp

/-! ## What a text marks -/

theorem text_of_reads {s : Text} {l m : Literal} (hl : Reads s l) (hm : Reads s m) : l.text = m.text :=
  (List.prefix_of_prefix_length_le hl.1 hm.1 (hm.2 l hl.1)).eq_of_length
    (Nat.le_antisymm (hm.2 l hl.1) (hl.2 m hm.1))

theorem dropWhile_gap {gap t : Text} {c : Char} (hgap : ∀ c ∈ gap, Python.isSpace c = true)
    (hc : Python.isSpace c = false) : (gap ++ c :: t).dropWhile Python.isSpace = c :: t := by
  rw [List.dropWhile_append_of_pos hgap, List.dropWhile_cons_of_neg (by rw [hc]; nofun)]

def afterMarker (s : Text) : Text :=
  (((s.drop "Final answer".length).dropWhile Python.isSpace).tail).dropWhile Python.isSpace

theorem reads_afterMarker {s : Text} {m : Literal} (h : Marked s m) : Reads (afterMarker s) m := by
  obtain ⟨word, gap, colon, gap', t, rfl, hword, hgap, hcolon, hgap', hreads⟩ := h
  have hspace : Python.isSpace colon = false := by
    rcases hcolon with rfl | rfl <;> decide
  have ht : t.dropWhile Python.isSpace = t := by
    obtain ⟨rest, rfl⟩ := hreads.1
    obtain ⟨c, u, htext⟩ := List.exists_cons_of_ne_nil m.text_ne_nil
    have hc : Python.isSpace c = false := Literal.not_isSpace_text (htext ▸ List.mem_cons_self)
    rw [htext, List.cons_append, List.dropWhile_cons_of_neg (by rw [hc]; nofun)]
  have hlength : word.length = "Final answer".length := hword.length_eq.symm
  unfold afterMarker
  rw [List.drop_left' hlength, dropWhile_gap hgap hspace, List.tail_cons, List.dropWhile_append_of_pos hgap', ht]
  exact hreads

/-- A text marks one number at most. -/
theorem value_of_marked {s : Text} {l m : Literal} (hl : Marked s l) (hm : Marked s m) : l.value = m.value :=
  value_of_text (text_of_reads (reads_afterMarker hl) (reads_afterMarker hm))

/-! ## The text before the last marker -/

theorem append_of_avoids {u rest s t : Text} {c : Char} (h : u ++ rest = s ++ c :: t)
    (hc : ∀ v, u ≠ s ++ c :: v) : ∃ v, s = u ++ v ∧ rest = v ++ c :: t := by
  rcases List.append_eq_append_iff.mp h with ⟨v, hs, hrest⟩ | ⟨v, hu, hrest⟩
  · exact ⟨v, hs, hrest⟩
  · cases v with
    | nil => exact ⟨[], by rw [hu]; simp, by rw [hrest]; rfl⟩
    | cons d v =>
      obtain ⟨rfl, _⟩ := List.cons.inj hrest
      exact absurd hu (hc v)

theorem reads_append {s t : Text} {c : Char} (hc : ∀ l : Literal, c ∉ l.text) {m : Literal} :
    Reads (s ++ c :: t) m ↔ Reads s m := by
  have hbegin : ∀ l : Literal, l.text <+: s ++ c :: t ↔ l.text <+: s := by
    intro l
    constructor
    · intro hl
      obtain ⟨rest, h⟩ := hl
      obtain ⟨v, hs, _⟩ := append_of_avoids h fun v hv => hc l (hv ▸ by simp)
      exact ⟨v, hs.symm⟩
    · exact fun h => h.trans (List.prefix_append _ _)
  unfold Reads
  simp only [hbegin]

theorem exists_of_forall₂ {R : Char → Char → Prop} {cs ds : Text} (h : List.Forall₂ R cs ds) {d : Char}
    (hd : d ∈ ds) : ∃ c ∈ cs, R c d := by
  induction h with
  | nil => exact absurd hd List.not_mem_nil
  | cons hcd _ ih =>
    rcases List.mem_cons.mp hd with rfl | hd
    · exact ⟨_, List.mem_cons_self, hcd⟩
    · obtain ⟨c, hc, hr⟩ := ih hd
      exact ⟨c, List.mem_cons_of_mem _ hc, hr⟩

theorem not_mem_text_F (l : Literal) : 'F' ∉ l.text := Literal.not_mem_text (by decide) (by decide)

/-- A marker has an `F` nowhere but at its beginning. -/
theorem marker_avoids {c : Char} {word gap gap' s v : Text} {colon : Char} {m : Literal}
    (hword : List.Forall₂ (fun c d => ignoreCase c d = true) "Final answer".toList word)
    (hgap : ∀ c ∈ gap, Python.isSpace c = true) (hcolon : colon = ':' ∨ colon = '：')
    (hgap' : ∀ c ∈ gap', Python.isSpace c = true) :
    word ++ (gap ++ colon :: (gap' ++ m.text)) ≠ c :: s ++ 'F' :: v := by
  intro h
  have hspace : ¬ Python.isSpace 'F' = true := by decide
  have hletters : ∀ d ∈ "inal answer".toList, (!ignoreCase d 'F') = true := List.all_eq_true.mp (by decide)
  have hphrase : "Final answer".toList = 'F' :: "inal answer".toList := by decide
  rw [hphrase] at hword
  cases hword with
  | @cons _ d _ word _ hword =>
    have htail : word ++ (gap ++ colon :: (gap' ++ m.text)) = s ++ 'F' :: v := (List.cons.inj h).2
    have hmem : 'F' ∈ word ++ (gap ++ colon :: (gap' ++ m.text)) := by
      rw [htail]
      exact List.mem_append_right _ List.mem_cons_self
    rcases List.mem_append.mp hmem with hmem | hmem
    · obtain ⟨d, hd, hfold⟩ := exists_of_forall₂ hword hmem
      have hno := hletters d hd
      rw [hfold] at hno
      cases hno
    · rcases List.mem_append.mp hmem with hmem | hmem
      · exact hspace (hgap _ hmem)
      · rcases List.mem_cons.mp hmem with rfl | hmem
        · revert hcolon
          decide
        · rcases List.mem_append.mp hmem with hmem | hmem
          · exact hspace (hgap' _ hmem)
          · exact not_mem_text_F m hmem

/-- The last marker changes nothing that is marked before it. -/
theorem marked_append {c : Char} {s t : Text} {m : Literal} :
    Marked (c :: s ++ 'F' :: t) m ↔ Marked (c :: s) m := by
  constructor
  · intro h
    obtain ⟨word, gap, colon, gap', u, hs, hword, hgap, hcolon, hgap', hreads⟩ := h
    obtain ⟨rest, rfl⟩ := hreads.1
    have hsplit : word ++ (gap ++ colon :: (gap' ++ m.text)) ++ rest = c :: s ++ 'F' :: t := by
      rw [hs]
      simp
    obtain ⟨v, hv, rfl⟩ := append_of_avoids hsplit fun v => marker_avoids hword hgap hcolon hgap'
    refine ⟨word, gap, colon, gap', m.text ++ v, ?_, hword, hgap, hcolon, hgap', ?_⟩
    · rw [hv]
      simp
    · rw [← List.append_assoc] at hreads
      exact (reads_append not_mem_text_F).mp hreads
  · intro h
    obtain ⟨word, gap, colon, gap', u, hs, hword, hgap, hcolon, hgap', hreads⟩ := h
    refine ⟨word, gap, colon, gap', u ++ 'F' :: t, ?_, hword, hgap, hcolon, hgap',
      (reads_append not_mem_text_F).mpr hreads⟩
    rw [hs]
    simp

theorem not_marked_nil (m : Literal) : ¬ Marked [] m := by
  intro h
  obtain ⟨word, gap, colon, gap', u, hs, hword, _⟩ := h
  obtain rfl := (List.append_eq_nil_iff.mp hs.symm).1
  cases hword

theorem reads_responseEnd (n : Literal) (period : Bool) : Reads (n.text ++ if period then ['.'] else []) n := by
  refine ⟨List.prefix_append _ _, fun l hl => ?_⟩
  cases period with
  | false =>
    have := hl.length_le
    rwa [if_neg nofun, List.append_nil] at this
  | true =>
    rw [if_pos rfl] at hl
    by_contra hlonger
    have hlength : (n.text ++ ['.']).length ≤ l.text.length := by
      rw [List.length_append]
      exact Nat.lt_of_not_le hlonger
    have hpoint : l.text.getLast? = some '.' := by
      rw [hl.eq_of_length_le hlength, List.getLast?_append]
      rfl
    exact Literal.getLast?_ne_point hpoint

theorem marked_responseEnd (n : Literal) (period : Bool) : Marked (responseEnd n period) n := by
  have hword : List.Forall₂ (fun c d => ignoreCase c d = true) "Final answer".toList "Final answer".toList :=
    List.forall₂_same.mpr (List.all_eq_true.mp (by decide))
  have hspace : ∀ c ∈ [' '], Python.isSpace c = true := List.all_eq_true.mp (by decide)
  exact ⟨"Final answer".toList, [], ':', [' '], _, rfl, hword, fun _ h => absurd h List.not_mem_nil, .inl rfl,
    hspace, reads_responseEnd n period⟩

section
variable (before : Text) (n : Literal) (period : Bool)

theorem extract_marked : ∃ m, FirstMarked (before ++ responseEnd n period) m ∧
    extractPredictedAnswer (before ++ responseEnd n period) = normalizeNumberString m.text := by
  obtain ⟨_, hend⟩ := answerPattern_of_marked (marked_responseEnd n period)
  obtain ⟨k, hk⟩ := search_isSome before hend
  obtain ⟨m, hm, hgroup⟩ := (search_leftmost hk).imp (fun _ _ h => first_answerPattern h)
    fun _ _ h => answerPattern_of_marked h
  refine ⟨m, hm, ?_⟩
  have hne : before ++ responseEnd n period ≠ [] := List.append_ne_nil_of_right_ne_nil _ nofun
  unfold extractPredictedAnswer answerPatterns
  rw [if_neg hne, List.map_cons, List.findSome?_cons, hk]
  simp only [hgroup, Option.getD_some]

theorem isCorrect_marked (e : Literal) : ∃ m, FirstMarked (before ++ responseEnd n period) m ∧
    isCorrect e.text (extractPredictedAnswer (before ++ responseEnd n period)) = some (decide (e.value = m.value)) := by
  obtain ⟨m, hm, hextract⟩ := extract_marked before n period
  refine ⟨m, hm, ?_⟩
  rw [hextract]
  exact isCorrect_normalized e m

theorem value_of_firstMarked {s : Text} {l m : Literal} (hl : FirstMarked s l) (hm : FirstMarked s m) :
    l.value = m.value :=
  Leftmost.unique (R := fun l m => l.value = m.value) hl hm fun _ _ _ => value_of_marked

theorem firstMarked_before {m : Literal} (h : FirstMarked before m) :
    FirstMarked (before ++ responseEnd n period) m :=
  h.append (fun _ _ _ => marked_append) not_marked_nil

theorem firstMarked_end (h : ∀ m, ¬ FirstMarked before m) : FirstMarked (before ++ responseEnd n period) n :=
  Leftmost.append_right (fun _ _ _ => marked_append) h (marked_responseEnd n period)

end

/-- A response is scored by its final answer where no answer is marked before,
or the first one that is agrees with the final one. -/
theorem scored_by_final_answer_iff (before : Text) (e n : Literal) (period : Bool) :
    ScoredByFinalAnswer before e n period ↔
      ∀ m, FirstMarked before m → (e.value = m.value ↔ e.value = n.value) := by
  obtain ⟨k, hk, hcorrect⟩ := isCorrect_marked before n period e
  unfold ScoredByFinalAnswer
  rw [hcorrect, Option.some.injEq, decide_eq_true_eq]
  constructor
  · intro h m hm
    rw [value_of_firstMarked (firstMarked_before before n period hm) hk]
    exact h
  · intro h
    by_cases hbefore : ∃ m, FirstMarked before m
    · obtain ⟨m, hm⟩ := hbefore
      rw [← value_of_firstMarked (firstMarked_before before n period hm) hk]
      exact h m hm
    · rw [value_of_firstMarked (firstMarked_end before n period (not_exists.mp hbefore)) hk]

def oneDigit (c : Char) (h : Python.isDecimal c = true) : Literal :=
  ⟨none, false, c, [], [], fun _ h => absurd h nofun, h, fun _ h => absurd h List.not_mem_nil,
    fun _ h => absurd h List.not_mem_nil⟩

/-- A response that ends with the expected `7` after it had marked `5`. -/
theorem earlier_marker_scored :
    ¬ ScoredByFinalAnswer "Final answer: 5. No, I forgot two. ".toList (oneDigit '7' rfl) (oneDigit '7' rfl) true := by
  unfold ScoredByFinalAnswer
  decide +kernel

end InferenceService
