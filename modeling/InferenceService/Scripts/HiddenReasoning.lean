import InferenceService.Scripts.ExtractCode

/-!
# The thinking block before an answer

A response may begin with a thinking block. It is removed after the fenced block
has been looked for, so that a fence inside it is found first.
-/

namespace InferenceService

open Regex Search

def hidden (t : Text) : Text := openTag.toList ++ (t ++ closeTag.toList)

def Blank (s : Text) : Prop := ∀ c ∈ s, Python.isSpace c = true

/-- The text of a fenced block behind its opening fence. -/
def opened (rest : Text) : Text := (afterLanguage rest).dropWhile Python.isSpace

/-- The fenced block that begins in the thinking text, if it ends in it or in the answer. -/
def block (t a : Text) : Option Text :=
  (cut fence t).bind fun x => (cut fence (opened x.2 ++ (closeTag.toList ++ a))).map Prod.fst

def SameProgram (s s' : Text) : Prop := definitions (removeTags s) = definitions (removeTags s')

/-- No fenced block begins in the thinking text, or it holds the program of the
answer. A closing tag in another letter case may leave text in front of an
answer without a fenced block. -/
def Harmless (t a : Text) : Prop :=
  match block t a with
  | some code => SameProgram code (fenced a)
  | none => Occurs (anyCase closeTag) t → search fencePattern a = none → SameProgram (hidden t ++ a) a

/-- The block does not change what is extracted from any answer after it. -/
def Invisible (t : Text) : Prop := ∀ a, Untagged a → extractCode (hidden t ++ a) = extractCode a

/-! ## Matches in the block end there -/

theorem mem_of_suffix {z w : Text} (hw : w <:+ z ++ closeTag.toList) (hne : w ≠ []) : '>' ∈ w := by
  obtain ⟨v, hv⟩ := hw
  rcases List.eq_nil_or_concat w with rfl | ⟨u, d, rfl⟩
  · exact absurd rfl hne
  · have hz : z ++ closeTag.toList = z ++ "</seed:think".toList ++ ['>'] := by
      rw [List.append_assoc]
      rfl
    rw [hz, List.concat_eq_append, ← List.append_assoc] at hv
    obtain ⟨_, hd⟩ := List.append_inj' hv rfl
    simp [hd]

theorem openTag_closeTag {w : Text} (hw : w <:+ closeTag.toList) (hne : w ≠ []) (a : Text) :
    startsWith (anyCase openTag) (w ++ a) = false := by
  have hmem : '>' ∈ w := mem_of_suffix (z := []) hw hne
  have hends : Ends (anyCase openTag) '>' := forall_false (by decide)
  have htails : closeTag.toList.tails.all (fun w => w.isEmpty || !startsWith (anyCase openTag) w) = true := by decide
  rw [startsWith_of_ends hmem hends]
  simpa [hne] using List.all_eq_true.mp htails w ((List.mem_tails _ _).mpr hw)

theorem firstLength_append {z : Text} (a : Text) {c : Char} {u : Text} (hu : c :: u <:+ z ++ closeTag.toList) :
    firstLength thinkPattern (c :: u ++ a) = firstLength thinkPattern (c :: u) := by
  by_cases hclose : c :: u <:+ closeTag.toList
  · have hno := openTag_closeTag hclose (List.cons_ne_nil c u)
    have hnil := hno []
    rw [List.append_nil] at hnil
    rw [firstLength_of_not (hno a), firstLength_of_not hnil]
  · obtain ⟨v, hv⟩ :=
      (List.suffix_or_suffix_of_suffix hu (List.suffix_append z closeTag.toList)).resolve_left hclose
    have hne : v ≠ [] := by
      intro hnil
      rw [hnil, List.nil_append] at hv
      exact hclose (hv ▸ List.suffix_refl _)
    have htail : ∀ p ∈ (anyCase openTag).tail, p '<' = false := forall_false (by decide)
    have hsame : ∀ b, startsWith (anyCase openTag) (v ++ (closeTag.toList ++ b)) = startsWith (anyCase openTag) v :=
      fun b => startsWith_append_of_tail htail hne _
    have hend := hsame []
    rw [List.append_nil] at hend
    rw [← hv, List.append_assoc]
    by_cases hopen : startsWith (anyCase openTag) v = true
    · have hlength : 12 ≤ v.length := startsWith_length hopen
      have hoccurs : Occurs (anyCase closeTag) (v.drop 12 ++ closeTag.toList) :=
        ⟨closeTag.toList, List.suffix_append _ _, by decide, trivial⟩
      obtain ⟨x, hx⟩ := cut_of_occurs hoccurs
      rw [firstLength_thinkPattern, firstLength_thinkPattern, hsame a, hend,
        List.drop_append_of_le_length hlength, List.drop_append_of_le_length hlength, ← List.append_assoc,
        cut_append hx, hx]
      rfl
    · have hno := Bool.eq_false_iff.mpr hopen
      rw [firstLength_of_not ((hsame a).trans hno), firstLength_of_not (hend.trans hno)]

theorem sub_append (z a : Text) :
    sub thinkPattern (z ++ closeTag.toList ++ a) = sub thinkPattern (z ++ closeTag.toList) ++ sub thinkPattern a :=
  delete_append fun c u hu => ⟨firstLength_append a hu, firstLength_le thinkPattern (c :: u)⟩

/-! ## Tags in what is left of the block -/

def Tag (word : String) : Prop := word = openTag ∨ word = closeTag

/-- The words of the tags have `<` at the beginning and `>` at the end only. -/
theorem tag_shape {word : String} (h : Tag word) :
    (∀ p ∈ (exactly word).tail, p '<' = false) ∧ Ends (exactly word) '>' ∧
      (fun c => decide ('>' = c)) ∈ exactly word ∧ ∀ c, c ≠ '<' → ∀ s, startsWith (exactly word) (c :: s) = false := by
  have hhead : ∀ c : Char, c ≠ '<' → decide ('<' = c) = false := fun c hc => decide_eq_false fun h => hc h.symm
  rcases h with rfl | rfl
  · refine ⟨forall_false (by decide), forall_false (by decide), ?_, fun c hc s => ?_⟩
    · exact List.mem_map.mpr ⟨'>', by decide, rfl⟩
    · exact Bool.and_eq_false_iff.mpr (.inl (hhead c hc))
  · refine ⟨forall_false (by decide), forall_false (by decide), ?_, fun c hc s => ?_⟩
    · exact List.mem_map.mpr ⟨'>', by decide, rfl⟩
    · exact Bool.and_eq_false_iff.mpr (.inl (hhead c hc))

def Closed (s : Text) : Prop := ∀ u, '<' :: u <:+ s → '>' ∈ u

theorem closed_of_blank {s : Text} (h : Blank s) : Closed s := by
  intro u hu
  have := h '<' (hu.mem List.mem_cons_self)
  cases this

theorem replace_append {word : String} {s : Text} (t : Text)
    (h : ∀ c u, c :: u <:+ s → startsWith (exactly word) (c :: u ++ t) = startsWith (exactly word) (c :: u)) :
    replace (exactly word) (s ++ t) = replace (exactly word) s ++ replace (exactly word) t := by
  refine delete_append fun c u hu => ⟨by rw [h c u hu], ?_⟩
  by_cases hstarts : startsWith (exactly word) (c :: u) = true
  · rw [if_pos hstarts]
    exact startsWith_length hstarts
  · rw [if_neg hstarts]
    exact Nat.zero_le _

section
variable {word : String} (hword : Tag word)
include hword

theorem replace_append_of_closed {s : Text} (h : Closed s) (t : Text) :
    replace (exactly word) (s ++ t) = replace (exactly word) s ++ replace (exactly word) t := by
  obtain ⟨_, hends, _, hhead⟩ := tag_shape hword
  refine replace_append t fun c u hu => ?_
  by_cases hc : c = '<'
  · subst hc
    exact startsWith_of_ends (List.mem_cons_of_mem _ (h u hu)) hends t
  · rw [List.cons_append, hhead c hc, hhead c hc]

/-- A `<` that nothing closes is not deleted. -/
theorem closed_of_replace {s : Text} (h : Closed (replace (exactly word) s)) : Closed s := by
  obtain ⟨htail, _, hlast, _⟩ := tag_shape hword
  intro u hu
  obtain ⟨x, rfl⟩ := hu
  by_contra hno
  have hkept : replace (exactly word) ('<' :: u) = '<' :: u := by
    refine delete_word_of_not (not_occurs_of_class hlast fun c hc => decide_eq_false fun heq => ?_)
    rcases List.mem_cons.mp hc with rfl | hc
    · cases heq
    · exact hno (heq ▸ hc)
  rw [replace_append _ fun c v _ => startsWith_append_of_tail htail (List.cons_ne_nil c v) u, hkept] at h
  exact hno (h u (List.suffix_append _ _))

end

/-! ## Removing the block -/

theorem removeTags_append {z : Text} (h : Blank (removeTags (z ++ closeTag.toList))) (a : Text) :
    removeTags (z ++ closeTag.toList ++ a) = removeTags (z ++ closeTag.toList) ++ removeTags a := by
  have hopened : Closed (replace (exactly openTag) (sub thinkPattern (z ++ closeTag.toList))) :=
    closed_of_replace (.inr rfl) (closed_of_blank h)
  unfold removeTags
  rw [sub_append, replace_append_of_closed (.inl rfl) (closed_of_replace (.inl rfl) hopened),
    replace_append_of_closed (.inr rfl) hopened]

theorem hidden_eq (t : Text) : hidden t = openTag.toList ++ t ++ closeTag.toList := (List.append_assoc _ _ _).symm

/-- A block that nothing closes before its end is removed whole. -/
theorem removeTags_hidden {t : Text} (h : ¬ Occurs (anyCase closeTag) t) : removeTags (hidden t) = [] := by
  have hcut : cut (anyCase closeTag) (t ++ closeTag.toList) = some (t, []) := by
    have htail : ∀ p ∈ (anyCase closeTag).tail, p '<' = false := forall_false (by decide)
    have hno : ∀ c u, c :: u <:+ t → startsWith (anyCase closeTag) (c :: u ++ closeTag.toList) = false := by
      intro c u hu
      refine (startsWith_append_of_tail htail (List.cons_ne_nil c u) _).trans (Bool.eq_false_iff.mpr fun hs => ?_)
      exact h ⟨c :: u, hu, hs, trivial⟩
    have hend : cut (anyCase closeTag) closeTag.toList = some ([], []) := by decide
    rw [cut_append_right hno, hend, Option.map_some, List.append_nil]
  have hlength : firstLength thinkPattern (hidden t) = (hidden t).length := by
    have hopen : startsWith (anyCase openTag) (hidden t) = true := startsWith_append (by decide) _
    have hdrop : (hidden t).drop 12 = t ++ closeTag.toList := List.drop_left' rfl
    rw [firstLength_thinkPattern, if_pos hopen, hdrop, hcut]
    simp [hidden]
    rfl
  have hsub : sub thinkPattern (hidden t) = [] := by
    have hpos : 0 < firstLength thinkPattern (hidden t) := hlength ▸ Nat.succ_pos _
    unfold sub
    rw [delete_skip hpos, hlength, List.drop_length]
    rfl
  unfold removeTags
  rw [hsub]
  rfl

/-! ## What is before the first definition -/

theorem strip_append_of_blank {s : Text} (hs : Blank s) (t : Text) : Python.strip (s ++ t) = Python.strip t := by
  rw [Python.strip_eq, List.dropWhile_append_of_pos hs]
  rfl

theorem definitions_append_of_blank {s : Text} (hs : Blank s) (t : Text) : definitions (s ++ t) = definitions t := by
  have hno : ∀ c u, c :: u <:+ s → startsWith (exactly "def ") (c :: u ++ t) = false := by
    intro c u hu
    have hc := hs c (hu.mem List.mem_cons_self)
    refine Bool.and_eq_false_iff.mpr (.inl (decide_eq_false fun heq => ?_))
    rw [← heq] at hc
    cases hc
  unfold definitions find
  rw [cut_append_right hno, Option.map_map]
  cases cut (exactly "def ") t with
  | none => exact strip_append_of_blank hs t
  | some x =>
    have hdrop : (s ++ t).drop (s.length + x.1.length) = t.drop x.1.length := List.drop_length_add_append _
    simp [hdrop]

theorem strip_eq_nil {s : Text} (h : Python.strip s = []) : Blank s := by
  intro c hc
  have hink : ink s = 0 := by
    rw [← ink_strip, h]
    rfl
  simpa using List.countP_eq_zero.mp hink c hc

theorem definitions_ne_nil {s : Text} (h : Occurs (exactly "def ") s) : definitions s ≠ [] := by
  obtain ⟨x, hx⟩ := cut_of_occurs h
  obtain ⟨t, rfl, ht, _⟩ := cut_spec hx
  unfold definitions find
  rw [hx]
  show Python.strip (splitHead fence ((x.1 ++ t).drop x.1.length)) ≠ []
  rw [List.drop_left]
  intro hnil
  cases t with
  | nil => cases ht
  | cons c t =>
    have hc : 'd' = c := of_decide_eq_true (Bool.and_eq_true_iff.mp ht).1
    have hfence : startsWith fence (c :: t) = false := by
      rw [← hc]
      rfl
    have hhead : c ∈ splitHead fence (c :: t) := by
      unfold splitHead
      rw [cut_cons_of_not hfence]
      cases cut fence t with
      | none => exact List.mem_cons_self
      | some y => exact List.mem_cons_self
    have hspace := strip_eq_nil hnil c hhead
    rw [← hc] at hspace
    cases hspace

theorem blank_of_definitions {s : Text} (h : definitions s = []) : Blank s := by
  by_cases hoccurs : Occurs (exactly "def ") s
  · exact absurd h (definitions_ne_nil hoccurs)
  · rw [definitions_of_not hoccurs] at h
    exact strip_eq_nil h

/-! ## Fences in the block -/

theorem not_occurs_fence_hidden {t : Text} (h : ¬ Occurs fence t) : ¬ Occurs fence (hidden t) := by
  have hno : ∀ c u, c :: u <:+ t → startsWith fence (c :: u ++ closeTag.toList) = false := by
    intro c u hu
    refine (startsWith_append_cons (forall_false (by decide)) _ _).trans (Bool.eq_false_iff.mpr fun hs => ?_)
    exact h ⟨c :: u, hu, hs, trivial⟩
  have hend : cut fence closeTag.toList = none := by decide
  rw [← cut_eq_none_iff, hidden, cut_fence_append (by decide), cut_append_right hno, hend]
  rfl

theorem search_hidden {t : Text} (h : ¬ Occurs fence t) (a : Text) :
    search fencePattern (hidden t ++ a) = search fencePattern a := by
  refine search_append fun c u hu => first_chars_seq_of_not (Bool.eq_false_iff.mpr fun hs => ?_) _
  have hmem : '>' ∈ c :: u := by
    rw [hidden_eq] at hu
    exact mem_of_suffix hu (List.cons_ne_nil c u)
  rw [startsWith_of_ends hmem (forall_false (by decide))] at hs
  exact not_occurs_fence_hidden h ⟨c :: u, hu, hs, trivial⟩

theorem afterLanguage_append (s t : Text) : afterLanguage (s ++ '<' :: t) = afterLanguage s ++ '<' :: t := by
  unfold afterLanguage
  rw [startsWith_append_cons (forall_false (by decide))]
  by_cases h : startsWith (anyCase "python") s = true
  · have hlength : 6 ≤ s.length := startsWith_length h
    rw [if_pos h, if_pos h, List.drop_append_of_le_length hlength]
  · rw [if_neg h, if_neg h]

theorem opened_append (s a : Text) : opened (s ++ (closeTag.toList ++ a)) = opened s ++ (closeTag.toList ++ a) := by
  unfold opened
  exact (congrArg _ (afterLanguage_append s _)).trans (dropWhile_append_cons (c := '<') rfl _ _)

theorem cut_hidden {t : Text} {x : Text × Text} (h : cut fence t = some x) (a : Text) :
    cut fence (hidden t ++ a) = some (openTag.toList ++ x.1, x.2 ++ (closeTag.toList ++ a)) := by
  rw [hidden, List.append_assoc, List.append_assoc, cut_fence_append (by decide), cut_append h]
  rfl

theorem fenced_of_block {t a code : Text} (h : block t a = some code) : fenced (hidden t ++ a) = code := by
  obtain ⟨x, hx, h⟩ := Option.bind_eq_some_iff.mp h
  obtain ⟨y, hy, rfl⟩ := Option.map_eq_some_iff.mp h
  rw [← opened_append] at hy
  exact fenced_of_cut (cut_hidden hx a) hy

/-- A fence in the block begins the first fenced block, whatever the answer
holds behind its own first fence. -/
theorem block_of_occurs {t : Text} (h : Occurs fence t) : ∃ code, ∀ x, block t ("```".toList ++ x) = some code := by
  obtain ⟨y, hy⟩ := cut_of_occurs h
  have hoccurs : Occurs fence (opened y.2 ++ (closeTag.toList ++ "```".toList)) :=
    ⟨"```".toList, by rw [← List.append_assoc]; exact List.suffix_append _ _, rfl, trivial⟩
  obtain ⟨z, hz⟩ := cut_of_occurs hoccurs
  refine ⟨z.1, fun x => ?_⟩
  have hrest := cut_append hz x
  rw [List.append_assoc, List.append_assoc] at hrest
  unfold block
  rw [hy, Option.bind_some, hrest]
  rfl

/-! ## Where no fenced block begins in it -/

theorem backtick_not_mem_language {s : Text} (h : startsWith (anyCase "python") s = true) : '`' ∉ s.take 6 := by
  have hclass : ∀ p ∈ anyCase "python", p '`' = false := forall_false (by decide)
  intro hmem
  obtain ⟨p, hp, hc⟩ := exists_class_of_startsWith h hmem
  rw [hclass p hp] at hc
  cases hc

theorem occurs_opened {s : Text} (h : Occurs fence s) : Occurs fence (opened s) := by
  have hskip : ∀ {u v : Text}, '`' ∉ u → Occurs fence (u ++ v) → Occurs fence v := by
    intro u v hu
    refine occursThen_append_right (fun c hc p hp => ?_) (List.cons_ne_nil _ _)
    obtain rfl := Option.some.inj hp
    refine decide_eq_false fun heq : '`' = c => hu ?_
    rw [heq]
    exact hc
  unfold opened
  have hlanguage : Occurs fence (afterLanguage s) := by
    unfold afterLanguage
    by_cases hp : startsWith (anyCase "python") s = true
    · rw [if_pos hp]
      rw [← List.take_append_drop 6 s] at h
      exact hskip (backtick_not_mem_language hp) h
    · rw [if_neg hp]
      exact h
  rw [← List.takeWhile_append_dropWhile (p := Python.isSpace) (l := afterLanguage s)] at hlanguage
  refine hskip (fun hmem => ?_) hlanguage
  cases List.mem_takeWhile_imp hmem

theorem suffix_drop {u v : Text} (h : u <:+ v) (n : Nat) : u.drop n <:+ v.drop n := by
  obtain ⟨d, rfl⟩ := h
  rw [List.drop_append]
  exact (List.drop_suffix_drop_left u (Nat.sub_le n d.length)).trans (List.suffix_append _ _)

/-- Where the pattern matches, a fence follows another one. -/
theorem occursThen_of_search {s : Text} (h : search fencePattern s ≠ none) : OccursThen fence (Occurs fence) s := by
  by_contra hno
  refine h ((congrArg _ (List.append_nil s).symm).trans ((search_append fun c u hu => ?_).trans rfl))
  rw [List.append_nil]
  by_contra hfirst
  by_cases hs : startsWith fence (c :: u) = true
  · obtain ⟨m, hm⟩ := Option.ne_none_iff_exists'.mp hfirst
    unfold fencePattern at hm
    rw [first_chars_seq hs] at hm
    obtain ⟨k, hk, _⟩ := Option.map_eq_some_iff.mp hm
    obtain ⟨hrest, _, v, _, ⟨_, v', _, ⟨w, e, _, he, rfl⟩, rfl⟩, htext⟩ := first_sound hk
    refine hno ⟨c :: u, hu, hs, e ++ k.rest, ?_, ?_, trivial⟩
    · have hrest : (c :: u).drop fence.length = k.text ++ k.rest := hrest
      rw [hrest, htext]
      simp only [← List.append_assoc]
      rw [List.append_assoc _ e]
      exact List.suffix_append _ _
    · by_contra hword
      obtain ⟨n, hn, _⟩ := run_complete he k.rest
      rw [run_chars_of_not (Bool.eq_false_iff.mpr hword)] at hn
      exact absurd hn List.not_mem_nil
  · exact hfirst (first_chars_seq_of_not (Bool.eq_false_iff.mpr hs) _)

theorem search_of_no_block {t a : Text} (h : block t a = none) :
    search fencePattern (hidden t ++ a) = search fencePattern a := by
  cases hx : cut fence t with
  | none => exact search_hidden (cut_eq_none_iff.mp hx) a
  | some x =>
    unfold block at h
    rw [hx, Option.bind_some, Option.map_eq_none_iff, ← opened_append] at h
    have hrest : ¬ Occurs fence (x.2 ++ (closeTag.toList ++ a)) := fun hoccurs =>
      cut_eq_none_iff.mp h (occurs_opened hoccurs)
    have hanswer : search fencePattern a = none := by
      by_contra hsome
      obtain ⟨u, hu, hs, _⟩ := occursThen_of_search hsome
      refine hrest ⟨u, ?_, hs, trivial⟩
      rw [← List.append_assoc]
      exact hu.trans (List.suffix_append _ _)
    rw [hanswer]
    by_contra hsome
    obtain ⟨u, hu, hs, hthen⟩ := occursThen_of_search hsome
    obtain ⟨v, hv, _, hdrop, hfirst⟩ := cut_spec (cut_hidden hx a)
    dsimp only at hv hdrop hfirst
    rw [hv] at hu
    rw [hdrop] at hrest
    rcases List.suffix_or_suffix_of_suffix hu (List.suffix_append _ v) with huv | hvu
    · exact hrest (occursThen_of_suffix (suffix_drop huv _) hthen)
    · obtain ⟨d, rfl⟩ := hvu
      cases d with
      | nil => exact hrest hthen
      | cons c d =>
        obtain ⟨e, he⟩ := hu
        rw [← List.append_assoc] at he
        have hd : c :: d <:+ openTag.toList ++ x.1 := ⟨e, List.append_cancel_right he⟩
        rw [hfirst c d hd] at hs
        cases hs

theorem removeTags_of_blank {t : Text} (h : Blank (removeTags (hidden t))) (a : Text) : SameProgram (hidden t ++ a) a := by
  unfold SameProgram
  rw [hidden_eq] at h ⊢
  rw [removeTags_append h, definitions_append_of_blank h]

theorem blank_hidden {t : Text} (h : ¬ Occurs (anyCase closeTag) t) : Blank (removeTags (hidden t)) := by
  rw [removeTags_hidden h]
  exact fun c hc => absurd hc List.not_mem_nil

theorem harmless_iff (t a : Text) : extractCode (hidden t ++ a) = extractCode a ↔ Harmless t a := by
  unfold Harmless
  cases hb : block t a with
  | some code =>
    unfold extractCode
    rw [fenced_of_block hb]
    rfl
  | none =>
    have hsearch := search_of_no_block hb
    unfold extractCode fenced
    rw [hsearch]
    cases hm : search fencePattern a with
    | some m =>
      dsimp only
      exact iff_of_true rfl fun _ hno => absurd hno (by simp)
    | none =>
      by_cases hclose : Occurs (anyCase closeTag) t
      · exact ⟨fun h _ _ => h, fun h => h hclose rfl⟩
      · exact iff_of_true (removeTags_of_blank (blank_hidden hclose) a) fun h => absurd h hclose

end InferenceService
