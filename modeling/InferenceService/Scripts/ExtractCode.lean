import InferenceService.Scripts.FinalAnswer

/-!
# `evaluate_codegen_functional.py`: the program in a response

The program is looked for in three rewrites of the response: the first fenced
block, what is outside the thinking blocks, and what begins with a definition.
-/

namespace InferenceService

open Regex Search

def exactly (word : String) : List (Char → Bool) := word.toList.map fun c d => c = d

def anyCase (word : String) : List (Char → Bool) := word.toList.map ignoreCase

def fence : List (Char → Bool) := exactly "```"

/-- "```(?:python)?\s*(.*?)```". -/
def fencePattern : Regex Char :=
  seq (chars fence) <| seq (opt (chars (anyCase "python"))) <| seq (many Python.isSpace) <|
    seq (group (lazy fun _ => true)) (chars fence)

def openTag : String := "<seed:think>"

def closeTag : String := "</seed:think>"

/-- `<seed:think>.*?</seed:think>`. -/
def thinkPattern : Regex Char :=
  seq (chars (anyCase openTag)) <| seq (lazy fun _ => true) (chars (anyCase closeTag))

def find (word : List (Char → Bool)) (text : Text) : Option Nat := (cut word text).map fun x => x.1.length

/-- `text.replace(word, "")`. -/
def replace (word : List (Char → Bool)) : Text → Text :=
  delete fun s => if startsWith word s then word.length else 0

/-- `text.split(word)[0]`. -/
def splitHead (word : List (Char → Bool)) (text : Text) : Text := ((cut word text).map fun x => x.1).getD text

def fenced (text : Text) : Text :=
  match search fencePattern text with
  | some m => m.group.getD []
  | none => text

def removeTags (text : Text) : Text :=
  replace (exactly closeTag) (replace (exactly openTag) (sub thinkPattern text))

def definitions (text : Text) : Text :=
  match find (exactly "def ") text with
  | some start => Python.strip (splitHead fence (text.drop start))
  | none => Python.strip text

def extractCode (text : Text) : Text := definitions (removeTags (fenced text))

/-! ## The first fenced block -/

/-- What `(?:python)?` leaves of the text behind a fence. -/
def afterLanguage (text : Text) : Text :=
  if startsWith (anyCase "python") text then text.drop 6 else text

theorem first_language (s : Text) :
    ∃ m, first (opt (chars (anyCase "python"))) s = some m ∧ m.rest = afterLanguage s := by
  unfold afterLanguage
  by_cases h : startsWith (anyCase "python") s = true
  · rw [first_opt, first_chars h, if_pos h]
    exact ⟨_, rfl, rfl⟩
  · rw [first_opt, first_chars_of_not (Bool.eq_false_iff.mpr h), if_neg h]
    exact ⟨_, rfl, rfl⟩

theorem first_fencePattern {s : Text} {x : Text × Text} (hs : startsWith fence s = true)
    (hx : cut fence ((afterLanguage (s.drop 3)).dropWhile Python.isSpace) = some x) :
    ∃ m, first fencePattern s = some m ∧ m.group = some x.1 := by
  obtain ⟨l, hl, hrest⟩ := first_language (s.drop 3)
  obtain ⟨k, hk, hgroup⟩ := first_group_lazy hx
  rw [← hrest] at hk
  refine ⟨_, first_seq_of_first (first_chars hs) (first_seq_of_first hl (first_seq_of_first (first_many _ _) hk)), ?_⟩
  simp only [Match.append, hgroup, Option.some_or]

theorem fenced_of_cut {s w rest : Text} {x : Text × Text} (hs : cut fence s = some (w, rest))
    (hx : cut fence ((afterLanguage rest).dropWhile Python.isSpace) = some x) : fenced s = x.1 := by
  obtain ⟨t, rfl, ht, rfl, hfirst⟩ := cut_spec hs
  obtain ⟨m, hm, hgroup⟩ := first_fencePattern ht hx
  have hsearch : search fencePattern (w ++ t) = some m :=
    (search_append fun c u hu => first_chars_seq_of_not (hfirst c u hu) _).trans (search_of_first hm)
  unfold fenced
  rw [hsearch]
  simp only [hgroup, Option.getD_some]

theorem fenced_of_not {s : Text} (hs : ¬ Occurs fence s) : fenced s = s := by
  have hsearch : search fencePattern (s ++ []) = search fencePattern [] := by
    refine search_append fun c u hu => first_chars_seq_of_not (Bool.eq_false_iff.mpr fun h => hs ?_) _
    rw [List.append_nil] at h
    exact ⟨c :: u, hu, h, trivial⟩
  rw [List.append_nil] at hsearch
  unfold fenced
  rw [hsearch]
  rfl

/-! ## Thinking blocks -/

/-- An opening tag and, after it, a closing one, in any letter case. -/
def HasBlock : Text → Prop := OccursThen (anyCase openTag) (Occurs (anyCase closeTag))

/-- No tag, as `replace` looks for it. -/
def Untagged (text : Text) : Prop := ¬ Occurs (exactly openTag) text ∧ ¬ Occurs (exactly closeTag) text

theorem firstLength_thinkPattern (s : Text) :
    firstLength thinkPattern s =
      if startsWith (anyCase openTag) s then
        ((cut (anyCase closeTag) (s.drop 12)).map fun x => 12 + (x.1.length + 13)).getD 0
      else 0 := by
  unfold firstLength thinkPattern
  by_cases h : startsWith (anyCase openTag) s = true
  · rw [if_pos h, first_chars_seq h]
    cases hcut : cut (anyCase closeTag) (s.drop 12) with
    | none =>
      rw [show (anyCase openTag).length = 12 from rfl, first_lazy_of_not hcut]
      rfl
    | some x =>
      obtain ⟨m, hm, hlength⟩ := first_lazy hcut
      have hshort : 12 ≤ s.length := startsWith_length h
      rw [show (anyCase openTag).length = 12 from rfl, hm]
      simp only [Option.map_some, Option.getD_some, Match.append, List.length_append, List.length_take, hlength,
        Nat.min_eq_left hshort]
      rfl
  · rw [if_neg h, first_chars_seq_of_not (Bool.eq_false_iff.mpr h)]
    rfl

theorem firstLength_of_not {s : Text} (h : startsWith (anyCase openTag) s = false) :
    firstLength thinkPattern s = 0 := by
  rw [firstLength_thinkPattern, h]
  rfl

theorem firstLength_pos {s : Text} :
    0 < firstLength thinkPattern s ↔ startsWith (anyCase openTag) s = true ∧ Occurs (anyCase closeTag) (s.drop 12) := by
  rw [firstLength_thinkPattern]
  by_cases h : startsWith (anyCase openTag) s = true
  · cases hcut : cut (anyCase closeTag) (s.drop 12) with
    | none =>
      have := cut_eq_none_iff.mp hcut
      simp [h, this]
    | some x =>
      have : Occurs (anyCase closeTag) (s.drop 12) := by
        by_contra hno
        rw [cut_eq_none_iff.mpr hno] at hcut
        cases hcut
      simp [h, this]
  · simp [h]

theorem sub_of_not_hasBlock {s : Text} (h : ¬ HasBlock s) : sub thinkPattern s = s :=
  delete_eq_self fun c u hu => Nat.eq_zero_of_not_pos fun hpos => h ⟨c :: u, hu, firstLength_pos.mp hpos⟩

/-! ## Visible characters -/

def ink (s : Text) : Nat := s.countP fun c => !Python.isSpace c

theorem ink_dropWhile (s : Text) : ink (s.dropWhile Python.isSpace) = ink s := by
  unfold ink
  induction s with
  | nil => rfl
  | cons c s ih =>
    by_cases hc : Python.isSpace c = true
    · simp [hc, ih]
    · simp [hc]

theorem ink_strip (s : Text) : ink (Python.strip s) = ink s := by
  unfold Python.strip
  have hreverse : ∀ t : Text, ink t.reverse = ink t := fun t => List.countP_reverse
  rw [hreverse, ink_dropWhile, hreverse, ink_dropWhile]

theorem ink_sublist {s t : Text} (h : s.Sublist t) : ink s ≤ ink t := h.countP_le

theorem eq_of_ignoreCase {c : Char} (h : ignoreCase '<' c = true) : c = '<' := by
  have hlower : c.toLower = '<' := by
    have hletters : ('<'.toLower = 'i') = False ∧ ('<'.toLower = 's') = False ∧ ('<'.toLower = 'k') = False := by
      decide
    simpa [ignoreCase, hletters, eq_comm] using h
  unfold Char.toLower at hlower
  split at hlower
  · rename_i hupper
    have hval := congrArg (fun d : Char => d.val.toNat) hlower
    simp [UInt32.le_iff_toNat_le, UInt32.toNat_add] at hupper hval
    omega
  · exact hlower

theorem ink_sub_lt {s : Text} (h : HasBlock s) : ink (sub thinkPattern s) < ink s := by
  refine countP_delete_lt (fun c u hpos => ?_) ?_
  · have hc : ignoreCase '<' c = true := (Bool.and_eq_true_iff.mp (firstLength_pos.mp hpos).1).1
    rw [eq_of_ignoreCase hc]
    rfl
  · obtain ⟨t, ht, hopen, hclose⟩ := h
    cases t with
    | nil => cases hopen
    | cons c u => exact ⟨c, u, ht, firstLength_pos.mpr ⟨hopen, hclose⟩⟩

/-! ## What a definition begins -/

theorem ink_splitHead_le (s : Text) : ink (splitHead fence s) ≤ ink s := by
  unfold splitHead
  cases hcut : cut fence s with
  | none => exact le_rfl
  | some x =>
    obtain ⟨t, rfl, _⟩ := cut_spec hcut
    exact ink_sublist (List.sublist_append_left x.1 t)

theorem ink_definitions_le_drop {s : Text} {start : Nat} (h : find (exactly "def ") s = some start) :
    ink (definitions s) ≤ ink (s.drop start) := by
  unfold definitions
  rw [h]
  exact (ink_strip _).trans_le (ink_splitHead_le _)

theorem ink_definitions_le (s : Text) : ink (definitions s) ≤ ink s := by
  cases h : find (exactly "def ") s with
  | none =>
    unfold definitions
    rw [h]
    exact (ink_strip s).le
  | some start => exact (ink_definitions_le_drop h).trans (ink_sublist (List.drop_sublist start s))

theorem splitHead_of_not {s : Text} (h : ¬ Occurs fence s) : splitHead fence s = s := by
  unfold splitHead
  rw [cut_eq_none_iff.mpr h]
  rfl

theorem definitions_of_not {s : Text} (h : ¬ Occurs (exactly "def ") s) : definitions s = Python.strip s := by
  unfold definitions find
  rw [cut_eq_none_iff.mpr h]
  rfl

theorem definitions_of_startsWith {s : Text} (h : startsWith (exactly "def ") s = true) (hs : ¬ Occurs fence s) :
    definitions s = Python.strip s := by
  unfold definitions find
  rw [cut_of_startsWith h]
  show Python.strip (splitHead fence (s.drop 0)) = _
  rw [List.drop_zero, splitHead_of_not hs]

/-- The text that comes before the first definition is lost. -/
theorem ink_definitions_lt {c : Char} {s : Text} (hc : Python.isSpace c = false)
    (hoccurs : Occurs (exactly "def ") (c :: s)) (hs : startsWith (exactly "def ") (c :: s) = false) :
    ink (definitions (c :: s)) < ink (c :: s) := by
  obtain ⟨x, hx⟩ := cut_of_occurs hoccurs
  have hfind := congrArg (Option.map fun x => x.1.length) hx
  rw [cut_cons_of_not hs] at hx
  obtain ⟨y, _, rfl⟩ := Option.map_eq_some_iff.mp hx
  have hlost : ink (c :: s) = ink s + 1 := by simp [ink, hc]
  calc ink (definitions (c :: s))
      ≤ ink (s.drop y.1.length) := ink_definitions_le_drop hfind
    _ ≤ ink s := ink_sublist (List.drop_sublist _ s)
    _ < ink (c :: s) := hlost ▸ Nat.lt_succ_self _

theorem ink_replace_le (word : List (Char → Bool)) (s : Text) : ink (replace word s) ≤ ink s :=
  ink_sublist (delete_sublist s)

theorem removeTags_of_untagged {s : Text} (h : ¬ HasBlock s) (huntagged : Untagged s) : removeTags s = s := by
  unfold removeTags replace
  rw [sub_of_not_hasBlock h, delete_word_of_not huntagged.1, delete_word_of_not huntagged.2]

theorem ink_removeTags_lt {s : Text} (h : HasBlock s) : ink (removeTags s) < ink s :=
  ((ink_replace_le _ _).trans (ink_replace_le _ _)).trans_lt (ink_sub_lt h)

/-- A text that does not begin with white space is kept whole by the last two
rewrites if and only if nothing is in it that they cut out. -/
theorem definitions_removeTags_iff {s : Text} (hs : s.dropWhile Python.isSpace = s) (hfence : ¬ Occurs fence s)
    (huntagged : Untagged s) :
    definitions (removeTags s) = Python.strip s ↔
      ¬ HasBlock s ∧ (Occurs (exactly "def ") s → startsWith (exactly "def ") s = true) := by
  constructor
  · intro h
    have hink : ink (definitions (removeTags s)) = ink s := by rw [h, ink_strip]
    have hblock : ¬ HasBlock s := fun hblock =>
      absurd hink ((ink_definitions_le _).trans_lt (ink_removeTags_lt hblock)).ne
    rw [removeTags_of_untagged hblock huntagged] at hink
    refine ⟨hblock, fun hdef => ?_⟩
    by_contra hno
    cases s with
    | nil => exact absurd (cut_eq_none_iff.mp rfl) (not_not_intro hdef)
    | cons c s =>
      have hc : Python.isSpace c = false := by
        simpa using List.dropWhile_eq_self_iff.mp hs (Nat.succ_pos _)
      exact absurd hink (ink_definitions_lt hc hdef (Bool.eq_false_iff.mpr hno)).ne
  · intro h
    obtain ⟨hblock, hdef⟩ := h
    rw [removeTags_of_untagged hblock huntagged]
    by_cases hoccurs : Occurs (exactly "def ") s
    · exact definitions_of_startsWith (hdef hoccurs) hfence
    · exact definitions_of_not hoccurs

/-! ## A fenced program -/

def fencedResponse (before program after : Text) : Text :=
  before ++ ("```python\n".toList ++ (program ++ ("\n```".toList ++ after)))

theorem exactly_false {word : String} {c : Char} (hc : c ∉ word.toList) : ∀ p ∈ exactly word, p c = false := by
  intro p hp
  obtain ⟨d, hd, rfl⟩ := List.mem_map.mp hp
  exact decide_eq_false fun h => hc (h ▸ hd)

theorem not_occurs_fence {s : Text} (h : '`' ∉ s) : ¬ Occurs fence s := by
  have hclass : (fun d => '`' = d : Char → Bool) ∈ fence := List.mem_cons_self
  exact not_occurs_of_class hclass fun c hc => decide_eq_false fun heq => h (heq ▸ hc)

theorem cut_fence_append {s : Text} (h : '`' ∉ s) (t : Text) :
    cut fence (s ++ t) = (cut fence t).map fun x => (s ++ x.1, x.2) := by
  refine cut_append_right fun c u hu => startsWith_cons_false (fun p hp => ?_) (List.cons_ne_nil _ _) _
  obtain rfl := Option.some.inj hp
  refine decide_eq_false fun heq : '`' = c => h ?_
  rw [heq]
  exact hu.mem List.mem_cons_self

theorem dropWhile_append_cons {c : Char} (hc : Python.isSpace c = false) (s t : Text) :
    (s ++ c :: t).dropWhile Python.isSpace = s.dropWhile Python.isSpace ++ c :: t := by
  induction s with
  | nil => simp [hc]
  | cons d s ih =>
    by_cases hd : Python.isSpace d = true
    · simpa [hd] using ih
    · simp [hd]

theorem backtick_not_mem_line {s : Text} (h : '`' ∉ s) : '`' ∉ (s ++ ['\n']).dropWhile Python.isSpace := by
  intro hmem
  rcases List.mem_append.mp ((List.dropWhile_suffix Python.isSpace).mem hmem) with hmem | hmem
  · exact h hmem
  · cases List.mem_singleton.mp hmem

theorem fenced_fencedResponse {before program : Text} (hbefore : '`' ∉ before) (hprogram : '`' ∉ program)
    (after : Text) :
    fenced (fencedResponse before program after) = (program ++ ['\n']).dropWhile Python.isSpace := by
  have hdrop : (program ++ ("\n```".toList ++ after)).dropWhile Python.isSpace =
      (program ++ ['\n']).dropWhile Python.isSpace ++ ("```".toList ++ after) := by
    have hfence := dropWhile_append_cons (c := '`') rfl (program ++ ['\n']) ("``".toList ++ after)
    rw [List.append_assoc] at hfence
    exact hfence
  have hopen : cut fence (fencedResponse before program after) =
      some (before, "python\n".toList ++ (program ++ ("\n```".toList ++ after))) := by
    unfold fencedResponse
    rw [cut_fence_append hbefore, cut_of_startsWith rfl]
    simp
    rfl
  refine fenced_of_cut hopen (x := (_, after)) ?_
  show cut fence ((program ++ ("\n```".toList ++ after)).dropWhile Python.isSpace) = _
  rw [hdrop, cut_fence_append (backtick_not_mem_line hprogram), cut_of_startsWith rfl]
  simp
  rfl

section
variable {ps : List (Char → Bool)} {K : Text → Prop} (hps : ps ≠ [])
  (hspace : ∀ p ∈ ps.head?, ∀ c, Python.isSpace c = true → p c = false) (hline : ∀ p ∈ ps, p '\n' = false)
include hps hspace hline

/-- White space around a text does not matter for the words in it. -/
theorem occursThen_dropWhile (hK : ∀ u, K (u ++ ['\n']) ↔ K u) (s : Text) :
    OccursThen ps K ((s ++ ['\n']).dropWhile Python.isSpace) ↔ OccursThen ps K s := by
  constructor
  · intro h
    exact occursThen_of_append_singleton hline hps (fun u => (hK u).mp)
      (occursThen_of_suffix (List.dropWhile_suffix _) h)
  · intro h
    have hline := occursThen_append h ['\n'] fun u => (hK u).mpr
    rw [← List.takeWhile_append_dropWhile (p := Python.isSpace) (l := s ++ ['\n'])] at hline
    exact occursThen_append_right (fun c hc p hp => hspace p hp c (List.mem_takeWhile_imp hc)) hps hline

end

theorem dropWhile_line (s : Text) :
    (s ++ ['\n']).dropWhile Python.isSpace =
      if s.dropWhile Python.isSpace = [] then [] else s.dropWhile Python.isSpace ++ ['\n'] := by
  rw [List.dropWhile_append]
  simp only [List.isEmpty_iff]
  rfl

theorem strip_line (s : Text) : Python.strip ((s ++ ['\n']).dropWhile Python.isSpace) = Python.strip s := by
  rw [Python.strip_eq, Python.strip_eq, List.dropWhile_idempotent, dropWhile_line]
  by_cases hs : s.dropWhile Python.isSpace = []
  · rw [if_pos hs, hs]
  · rw [if_neg hs, List.rdropWhile_concat_pos _ _ _ rfl]

theorem startsWith_line {ps : List (Char → Bool)} (hline : ∀ p ∈ ps, p '\n' = false) (s : Text) :
    startsWith ps ((s ++ ['\n']).dropWhile Python.isSpace) = startsWith ps (s.dropWhile Python.isSpace) := by
  rw [dropWhile_line]
  by_cases hs : s.dropWhile Python.isSpace = []
  · rw [if_pos hs, hs]
  · rw [if_neg hs, startsWith_append_cons hline]

theorem not_isSpace_of_ignoreCase {c : Char} (hc : Python.isSpace c = true) : ignoreCase '<' c = false := by
  by_contra h
  obtain rfl := eq_of_ignoreCase (Bool.not_eq_false _ ▸ h)
  cases hc

theorem hasBlock_line (s : Text) : HasBlock ((s ++ ['\n']).dropWhile Python.isSpace) ↔ HasBlock s := by
  refine occursThen_dropWhile (List.cons_ne_nil _ _) (fun p hp c hc => ?_) (forall_false (by decide)) (fun u => ?_) s
  · obtain rfl := Option.some.inj hp
    exact not_isSpace_of_ignoreCase hc
  · exact ⟨occurs_of_append_singleton (forall_false (by decide)) (List.cons_ne_nil _ _), fun h => occurs_append h _⟩

theorem occurs_line {word : String} {c : Char} (hhead : word.toList.head? = some c) (hc : Python.isSpace c = false)
    (hline : '\n' ∉ word.toList) (s : Text) :
    Occurs (exactly word) ((s ++ ['\n']).dropWhile Python.isSpace) ↔ Occurs (exactly word) s := by
  have hfirst : (exactly word).head? = some fun d => decide (c = d) := by
    unfold exactly
    rw [List.head?_map, hhead]
    rfl
  refine occursThen_dropWhile (fun h => ?_) (fun p hp d hd => ?_) (exactly_false hline) (fun _ => Iff.rfl) s
  · rw [h] at hfirst
    cases hfirst
  · obtain rfl := Option.some.inj (hfirst.symm.trans hp)
    refine decide_eq_false fun heq => ?_
    rw [← heq, hc] at hd
    cases hd

theorem program_extracted_iff {before program : Text} (hbefore : '`' ∉ before) (hprogram : '`' ∉ program)
    (huntagged : Untagged program) (after : Text) :
    extractCode (fencedResponse before program after) = Python.strip program ↔
      ¬ HasBlock program ∧
        (Occurs (exactly "def ") program → startsWith (exactly "def ") (program.dropWhile Python.isSpace) = true) := by
  have hfence := backtick_not_mem_line hprogram
  unfold extractCode
  rw [fenced_fencedResponse hbefore hprogram, ← strip_line,
    definitions_removeTags_iff (List.dropWhile_idempotent _ _) (not_occurs_fence hfence), hasBlock_line,
    occurs_line rfl rfl (by decide), startsWith_line (forall_false rfl)]
  constructor
  · rw [occurs_line rfl rfl (by decide)]
    exact huntagged.1
  · rw [occurs_line rfl rfl (by decide)]
    exact huntagged.2

theorem program_extracted_import :
    extractCode (fencedResponse "hi\n".toList "import math\ndef f(): return math.pi".toList "bye".toList) =
        Python.strip "import math\ndef f(): return math.pi".toList ↔
      ¬ HasBlock "import math\ndef f(): return math.pi".toList ∧
        (Occurs (exactly "def ") "import math\ndef f(): return math.pi".toList →
          startsWith (exactly "def ") ("import math\ndef f(): return math.pi".toList.dropWhile Python.isSpace) = true) :=
  program_extracted_iff (by decide) (by decide) ⟨by decide, by decide⟩ "bye".toList

/-- The import before the first definition is not in the extracted program. -/
theorem import_lost :
    '`' ∉ "import math\ndef f(): return math.pi".toList ∧ Untagged "import math\ndef f(): return math.pi".toList ∧
      Occurs (exactly "def ") "import math\ndef f(): return math.pi".toList ∧
      extractCode (fencedResponse "hi\n".toList "import math\ndef f(): return math.pi".toList "\nbye".toList) =
        "def f(): return math.pi".toList ∧
      Python.strip "import math\ndef f(): return math.pi".toList = "import math\ndef f(): return math.pi".toList :=
  ⟨by decide, ⟨by decide, by decide⟩, by decide, by decide +kernel, by decide⟩

end InferenceService
