import InferenceService.Gateway.BagelService

/-!
# What the BAGEL service answers, and the files it leaves

Each thread works on its own request and its own file, whatever the others do.
-/

namespace InferenceService

/-! ## What a thread can do -/

inductive ThreadMoves (i : Nat) (r : MultimodalRequest) (sh : BagelShared) :
    BagelPhase → BagelPhase → BagelShared → Prop
  | created {path : TemporaryPath} (hsuffix : r.suffix = some path.suffix) (hfree : sh.files path = none) :
      ThreadMoves i r sh .queued (.opened path) { sh with files := Function.update sh.files path (some []) }
  | uncreated (typeName : String) : ThreadMoves i r sh .queued (.ended (.ofException typeName)) sh
  | wrote (path : TemporaryPath) : ThreadMoves i r sh (.opened path) (.written path)
      { sh with files := Function.update sh.files path (some r.imageBytes) }
  | spoiled (path : TemporaryPath) (typeName : String) (written : List UInt8) :
      ThreadMoves i r sh (.opened path) (.ended (.ofException typeName))
        { sh with files := Function.update sh.files path (some written), left := path :: sh.left }
  | looked (path : TemporaryPath) {phase : BagelPhase} (h : phase = .constructing path ∨ phase = .connected path) :
      ThreadMoves i r sh (.written path) phase sh
  | constructed (path : TemporaryPath) :
      ThreadMoves i r sh (.constructing path) (.connected path) { sh with cached := true }
  | asked (path : TemporaryPath) {imageBytes : List UInt8} (h : sh.files path = some imageBytes) :
      ThreadMoves i r sh (.connected path) (.predicting path)
        { sh with sent := (i, r.prediction path.suffix imageBytes) :: sh.sent }
  | answered (path : TemporaryPath) (result : Python.Str) :
      ThreadMoves i r sh (.predicting path) (.unlinking path (.answered result))
        { sh with answers := (i, result) :: sh.answers }
  | failed {phase : BagelPhase} (path : TemporaryPath) (text : Python.Str)
      (h : phase = .constructing path ∨ phase = .connected path ∨ phase = .predicting path) :
      ThreadMoves i r sh phase (.unlinking path (.clientError text)) { sh with errors := (i, text) :: sh.errors }
  | untold {phase : BagelPhase} (path : TemporaryPath) (typeName : String)
      (h : phase = .constructing path ∨ phase = .connected path ∨ phase = .predicting path) :
      ThreadMoves i r sh phase (.unlinking path (.ofException typeName)) sh
  | unlinked (path : TemporaryPath) (outcome : BagelOutcome) :
      ThreadMoves i r sh (.unlinking path outcome) (.ended outcome)
        { sh with files := Function.update sh.files path none }
  | remained (path : TemporaryPath) (outcome : BagelOutcome) (typeName : String) :
      ThreadMoves i r sh (.unlinking path outcome) (.ended (.ofException typeName)) { sh with left := path :: sh.left }

section
variable {i : Nat} {r : MultimodalRequest} {sh sh' : BagelShared} {phase phase' : BagelPhase}

theorem failBagel_moves {path : TemporaryPath} {text : Except String Python.Str}
    (hphase : phase = .constructing path ∨ phase = .connected path ∨ phase = .predicting path)
    (h : some (failBagel i path sh text) = some (phase', sh')) : ThreadMoves i r sh phase phase' sh' := by
  cases text with
  | ok text =>
    cases h
    exact .failed path text hphase
  | error typeName =>
    cases h
    exact .untold path typeName hphase

theorem callBagel_moves {act : BagelAct} (h : callBagel i r sh phase act = some (phase', sh')) :
    ThreadMoves i r sh phase phase' sh' := by
  cases phase with
  | queued =>
    cases act with
    | createFile name =>
      simp only [callBagel] at h
      cases hsuffix : r.suffix with
      | none =>
        rw [hsuffix] at h
        cases h
        exact .uncreated _
      | some suffix =>
        rw [hsuffix] at h
        obtain ⟨hfree, h⟩ := Option.ite_none_right_eq_some.mp h
        cases h
        exact .created hsuffix hfree
    | createFails typeName =>
      cases h
      exact .uncreated _
    | _ => cases h
  | opened path =>
    cases act with
    | write =>
      cases h
      exact .wrote path
    | writeFails typeName written =>
      cases h
      exact .spoiled path typeName written
    | _ => cases h
  | written path =>
    cases act with
    | bagelClient =>
      cases h
      apply ThreadMoves.looked path
      by_cases hc : sh.cached = true
      · exact .inr (if_pos hc)
      · exact .inl (if_neg hc)
    | _ => cases h
  | constructing path =>
    cases act with
    | construct =>
      cases h
      exact .constructed path
    | fail text => exact failBagel_moves (.inl rfl) h
    | _ => cases h
  | connected path =>
    cases act with
    | predict =>
      obtain ⟨imageBytes, hfile, h⟩ := Option.map_eq_some_iff.mp h
      cases h
      exact .asked path hfile
    | fail text => exact failBagel_moves (.inr (.inl rfl)) h
    | _ => cases h
  | predicting path =>
    cases act with
    | answer result =>
      cases h
      exact .answered path result
    | fail text => exact failBagel_moves (.inr (.inr rfl)) h
    | _ => cases h
  | unlinking path outcome =>
    cases act with
    | unlink =>
      cases h
      exact .unlinked path outcome
    | unlinkFails typeName =>
      cases h
      exact .remained path outcome typeName
    | _ => cases h
  | ended outcome => cases act <;> cases h
  | skipped => cases act <;> cases h

/-! ## One request and its thread -/

def BagelPhase.path : BagelPhase → Option TemporaryPath
  | opened path | written path | constructing path | connected path | predicting path | unlinking path _ => some path
  | queued | ended _ | skipped => none

def OutcomeTrue (sh : BagelShared) (i : Nat) : BagelOutcome → Prop
  | .answered result => (∃ p, (i, p) ∈ sh.sent) ∧ (i, result) ∈ sh.answers
  | .clientError text => (i, text) ∈ sh.errors
  | .timedOut | .raised _ => True

/-- The file of a thread, when it is written. -/
structure HasImage (files : TemporaryPath → Option (List UInt8)) (r : MultimodalRequest) (path : TemporaryPath) :
    Prop where
  suffix : r.suffix = some path.suffix
  bytes : files path = some r.imageBytes

structure Unlogged (sent : List (Nat × Prediction)) (answers : List (Nat × Python.Str)) (i : Nat) : Prop where
  unasked : ∀ p, (i, p) ∉ sent
  unanswered : ∀ result, (i, result) ∉ answers

def ThreadTrue (config : MultimodalConfig) (sh : BagelShared) (i : Nat) (r : MultimodalRequest) : BagelPhase → Prop
  | .queued => checkRequest config r = .ok () ∧ Unlogged sh.sent sh.answers i
  | .opened path => checkRequest config r = .ok () ∧ r.suffix = some path.suffix ∧ Unlogged sh.sent sh.answers i
  | .written path | .constructing path | .connected path =>
    checkRequest config r = .ok () ∧ HasImage sh.files r path ∧ Unlogged sh.sent sh.answers i
  | .predicting _ =>
    checkRequest config r = .ok () ∧ (∃ p, (i, p) ∈ sh.sent) ∧ ∀ result, (i, result) ∉ sh.answers
  | .unlinking _ outcome | .ended outcome => checkRequest config r = .ok () ∧ OutcomeTrue sh i outcome
  | .skipped => Unlogged sh.sent sh.answers i

/-- What a request may have asked BAGEL. -/
structure AskedFor (config : MultimodalConfig) (r : MultimodalRequest) (p : Prediction) : Prop where
  checked : checkRequest config r = .ok ()
  suffix : r.suffix = some p.suffix
  own : p = r.prediction p.suffix r.imageBytes

variable {config : MultimodalConfig}

theorem outcomeTrue_ofException (sh : BagelShared) (i : Nat) (typeName : String) :
    OutcomeTrue sh i (.ofException typeName) := by
  unfold BagelOutcome.ofException
  by_cases htimeout : typeName = "TimeoutError"
  · rw [if_pos htimeout]
    trivial
  · rw [if_neg htimeout]
    trivial

theorem ThreadTrue.moved (h : ThreadTrue config sh i r phase) (hmove : ThreadMoves i r sh phase phase' sh') :
    ThreadTrue config sh' i r phase' := by
  cases hmove with
  | created hsuffix _ => exact ⟨h.1, hsuffix, h.2⟩
  | uncreated typeName => exact ⟨h.1, outcomeTrue_ofException _ i typeName⟩
  | wrote path => exact ⟨h.1, ⟨h.2.1, Function.update_self ..⟩, h.2.2⟩
  | spoiled path typeName written => exact ⟨h.1, outcomeTrue_ofException _ i typeName⟩
  | looked path hphase =>
    rcases hphase with rfl | rfl
    · exact h
    · exact h
  | constructed path => exact h
  | asked path _ => exact ⟨h.1, ⟨_, List.mem_cons_self⟩, h.2.2.unanswered⟩
  | answered path result => exact ⟨h.1, h.2.1, List.mem_cons_self⟩
  | failed path text hphase =>
    rcases hphase with rfl | rfl | rfl <;> exact ⟨h.1, List.mem_cons_self⟩
  | untold path typeName hphase =>
    rcases hphase with rfl | rfl | rfl <;> exact ⟨h.1, outcomeTrue_ofException _ i typeName⟩
  | unlinked path outcome => exact h
  | remained path outcome typeName => exact ⟨h.1, outcomeTrue_ofException _ i typeName⟩

theorem moved_sent (h : ThreadTrue config sh i r phase) (hsent : ∀ p, (i, p) ∈ sh.sent → AskedFor config r p)
    (hmove : ThreadMoves i r sh phase phase' sh') : ∀ p, (i, p) ∈ sh'.sent → AskedFor config r p := by
  cases hmove with
  | asked path hfile =>
    intro p hp
    rcases List.mem_cons.mp hp with hp | hp
    · cases hp
      obtain ⟨hcheck, himage, _⟩ := h
      rw [himage.bytes] at hfile
      obtain rfl := Option.some.inj hfile
      exact ⟨hcheck, himage.suffix, rfl⟩
    · exact hsent p hp
  | _ => exact hsent

/-! ## What the other threads see -/

/-- A log that grows by entries of request `i` only. -/
def LogGrows {α : Type} (i : Nat) (l l' : List (Nat × α)) : Prop := l' = l ∨ ∃ x, l' = (i, x) :: l

theorem LogGrows.mem {α : Type} {l l' : List (Nat × α)} (h : LogGrows i l l') {e : Nat × α} (he : e ∈ l) :
    e ∈ l' := by
  rcases h with rfl | ⟨x, rfl⟩
  · exact he
  · exact List.mem_cons_of_mem _ he

theorem LogGrows.other {α : Type} {l l' : List (Nat × α)} (h : LogGrows i l l') {j : Nat} (hj : j ≠ i) {x : α} :
    (j, x) ∈ l' ↔ (j, x) ∈ l := by
  rcases h with rfl | ⟨y, rfl⟩
  · rfl
  · simp [hj]

theorem ThreadMoves.sent (h : ThreadMoves i r sh phase phase' sh') : LogGrows i sh.sent sh'.sent := by
  cases h with
  | asked path _ => exact .inr ⟨_, rfl⟩
  | _ => exact .inl rfl

theorem ThreadMoves.answers (h : ThreadMoves i r sh phase phase' sh') : LogGrows i sh.answers sh'.answers := by
  cases h with
  | answered path result => exact .inr ⟨_, rfl⟩
  | _ => exact .inl rfl

theorem ThreadMoves.errors (h : ThreadMoves i r sh phase phase' sh') : LogGrows i sh.errors sh'.errors := by
  cases h with
  | failed path text _ => exact .inr ⟨_, rfl⟩
  | _ => exact .inl rfl

theorem ThreadMoves.files (h : ThreadMoves i r sh phase phase' sh') {path : TemporaryPath}
    (hpath : phase.path ≠ some path) (hfile : sh.files path ≠ none) : sh'.files path = sh.files path := by
  cases h with
  | created _ hfree =>
    apply Function.update_of_ne
    rintro rfl
    exact hfile hfree
  | wrote path' =>
    apply Function.update_of_ne
    rintro rfl
    exact hpath rfl
  | spoiled path' _ _ =>
    apply Function.update_of_ne
    rintro rfl
    exact hpath rfl
  | unlinked path' _ =>
    apply Function.update_of_ne
    rintro rfl
    exact hpath rfl
  | _ => rfl

theorem OutcomeTrue.grown {outcome : BagelOutcome} {j : Nat} (h : OutcomeTrue sh j outcome)
    (hmove : ThreadMoves i r sh phase phase' sh') : OutcomeTrue sh' j outcome := by
  cases outcome with
  | answered result =>
    obtain ⟨⟨p, hp⟩, hanswer⟩ := h
    exact ⟨⟨p, hmove.sent.mem hp⟩, hmove.answers.mem hanswer⟩
  | clientError text => exact hmove.errors.mem h
  | timedOut => trivial
  | raised typeName => trivial

theorem Unlogged.other {j : Nat} (h : Unlogged sh.sent sh.answers j) (hj : j ≠ i)
    (hmove : ThreadMoves i r sh phase phase' sh') :
    Unlogged sh'.sent sh'.answers j where
  unasked p := by
    rw [hmove.sent.other hj]
    exact h.unasked p
  unanswered result := by
    rw [hmove.answers.other hj]
    exact h.unanswered result

theorem ThreadTrue.other {j : Nat} {r' : MultimodalRequest} {other : BagelPhase} (h : ThreadTrue config sh j r' other)
    (hj : j ≠ i) (hpath : ∀ path, other.path = some path → phase.path ≠ some path)
    (hmove : ThreadMoves i r sh phase phase' sh') : ThreadTrue config sh' j r' other := by
  have himage : ∀ path, other.path = some path → HasImage sh.files r' path → HasImage sh'.files r' path := by
    intro path hother h
    refine ⟨h.suffix, ?_⟩
    rw [hmove.files (hpath path hother) (by simp [h.bytes])]
    exact h.bytes
  cases other with
  | queued => exact ⟨h.1, h.2.other hj hmove⟩
  | opened path => exact ⟨h.1, h.2.1, h.2.2.other hj hmove⟩
  | written path => exact ⟨h.1, himage path rfl h.2.1, h.2.2.other hj hmove⟩
  | constructing path => exact ⟨h.1, himage path rfl h.2.1, h.2.2.other hj hmove⟩
  | connected path => exact ⟨h.1, himage path rfl h.2.1, h.2.2.other hj hmove⟩
  | predicting path =>
    obtain ⟨hcheck, ⟨p, hp⟩, hno⟩ := h
    refine ⟨hcheck, ⟨p, hmove.sent.mem hp⟩, fun result => ?_⟩
    rw [hmove.answers.other hj]
    exact hno result
  | unlinking path outcome => exact ⟨h.1, h.2.grown hmove⟩
  | ended outcome => exact ⟨h.1, h.2.grown hmove⟩
  | skipped => exact Unlogged.other h hj hmove

theorem not_logged {α : Type} {l : List (Nat × α)} (h : ∀ x, (i, x) ∉ l) : i ∉ l.map Prod.fst := by
  rw [List.mem_map]
  rintro ⟨⟨j, x⟩, hmem, rfl⟩
  exact h x hmem

theorem ThreadMoves.sent_nodup (h : ThreadMoves i r sh phase phase' sh') (hp : ThreadTrue config sh i r phase)
    (hnodup : (sh.sent.map Prod.fst).Nodup) : (sh'.sent.map Prod.fst).Nodup := by
  cases h with
  | asked path _ => exact List.nodup_cons.mpr ⟨not_logged hp.2.2.unasked, hnodup⟩
  | _ => exact hnodup

theorem ThreadMoves.answers_nodup (h : ThreadMoves i r sh phase phase' sh') (hp : ThreadTrue config sh i r phase)
    (hnodup : (sh.answers.map Prod.fst).Nodup) : (sh'.answers.map Prod.fst).Nodup := by
  cases h with
  | answered path result => exact List.nodup_cons.mpr ⟨not_logged hp.2.2, hnodup⟩
  | _ => exact hnodup

end

/-! ## What the service can do -/

inductive BagelMoves (config : MultimodalConfig) (s : BagelService) : BagelService → Prop
  | arrived (r : MultimodalRequest) : BagelMoves config s { s with calls := s.calls ++ [arrived config r] }
  | thread {i : Nat} {call : BagelCall} {phase : BagelPhase} {shared : BagelShared} (hi : s.calls[i]? = some call)
      (hmove : ThreadMoves i call.request s.shared call.phase phase shared) :
      BagelMoves config s { s with calls := s.calls.set i { call with phase }, shared }
  | responded {i : Nat} {call : BagelCall} {outcome : BagelOutcome} (latency : ℚ) (smi : NvidiaSmi)
      (hi : s.calls[i]? = some call) (hreply : call.reply = none) (hphase : call.phase = .ended outcome) :
      BagelMoves config s (s.reply config i call call.phase outcome latency smi)
  | timedOut {i : Nat} {call : BagelCall} (latency : ℚ) (hi : s.calls[i]? = some call) (hreply : call.reply = none) :
      BagelMoves config s (s.reply config i call call.phase.timedOut .timedOut latency .osError)

theorem bagel_moves {config : MultimodalConfig} {s s' : BagelService} {act : BagelServiceAct}
    (h : s.step config act = some s') : BagelMoves config s s' := by
  cases act with
  | arrive r =>
    cases h
    exact .arrived r
  | thread i act =>
    obtain ⟨call, hi, h⟩ := Option.bind_eq_some_iff.mp h
    obtain ⟨⟨phase, shared⟩, hmove, h⟩ := Option.map_eq_some_iff.mp h
    cases h
    exact .thread hi (callBagel_moves hmove)
  | respond i latency smi =>
    obtain ⟨call, hi, h⟩ := Option.bind_eq_some_iff.mp h
    split at h
    · rename_i outcome hreply hphase
      cases h
      exact .responded latency smi hi hreply hphase
    · cases h
  | timeOut i latency =>
    obtain ⟨call, hi, h⟩ := Option.bind_eq_some_iff.mp h
    split at h
    · rename_i hreply
      cases h
      exact .timedOut latency hi hreply
    · cases h

/-! ## The invariant -/

def BagelService.holders (s : BagelService) : Holders Nat TemporaryPath (List UInt8) where
  held i := s.calls[i]?.bind fun call => call.phase.path
  store := s.shared.files
  left := s.shared.left

/-- The reply is the one to an outcome of the request's own thread, or to a timeout. -/
def ReplyTrue (config : MultimodalConfig) (sh : BagelShared) (i : Nat) (r : MultimodalRequest)
    (reply : Except MultimodalError MultimodalGenerateResponse) : Prop :=
  ∃ outcome latency smi m, OutcomeTrue sh i outcome ∧ (multimodalGenerate config r outcome latency smi m).2 = reply

structure CallTrue (config : MultimodalConfig) (sh : BagelShared) (i : Nat) (call : BagelCall) : Prop where
  phase : ThreadTrue config sh i call.request call.phase
  sent : ∀ p, (i, p) ∈ sh.sent → AskedFor config call.request p
  reply : ∀ reply ∈ call.reply, ReplyTrue config sh i call.request reply

structure BagelTrue (config : MultimodalConfig) (s : BagelService) : Prop where
  files : s.holders.Sound
  calls : ∀ {i call}, s.calls[i]? = some call → CallTrue config s.shared i call
  sentOnce : (s.shared.sent.map Prod.fst).Nodup
  answersOnce : (s.shared.answers.map Prod.fst).Nodup
  sentKnown : ∀ e ∈ s.shared.sent, e.1 < s.calls.length
  answersKnown : ∀ e ∈ s.shared.answers, e.1 < s.calls.length

section
variable {config : MultimodalConfig} {s s' : BagelService} {i : Nat} {call : BagelCall}

theorem holders_held (hi : s.calls[i]? = some call) : s.holders.held i = call.phase.path := by
  simp [BagelService.holders, hi]

theorem calls_set (hi : s.calls[i]? = some call) {call' : BagelCall} (j : Nat) :
    (s.calls.set i call')[j]? = if j = i then some call' else s.calls[j]? := by
  rw [List.getElem?_set]
  by_cases hij : i = j
  · subst hij
    rw [if_pos rfl, if_pos rfl, if_pos (List.getElem?_eq_some_iff.mp hi).1]
  · rw [if_neg hij, if_neg (Ne.symm hij)]

theorem holders_set (hi : s.calls[i]? = some call) (call' : BagelCall) (shared : BagelShared) (m : MultimodalMetrics) :
    BagelService.holders ⟨s.calls.set i call', shared, m⟩ =
      ⟨Function.update s.holders.held i call'.phase.path, shared.files, shared.left⟩ := by
  unfold BagelService.holders
  rw [Holders.mk.injEq]
  refine ⟨?_, rfl, rfl⟩
  funext j
  rw [calls_set hi, Function.update_apply]
  by_cases hij : j = i
  · rw [if_pos hij, if_pos hij]
    rfl
  · rw [if_neg hij, if_neg hij]

theorem holders_same (hi : s.calls[i]? = some call) {call' : BagelCall} (hpath : call'.phase.path = call.phase.path)
    (shared : BagelShared) (m : MultimodalMetrics) :
    BagelService.holders ⟨s.calls.set i call', shared, m⟩ = ⟨s.holders.held, shared.files, shared.left⟩ := by
  rw [holders_set hi, hpath, ← holders_held hi, Function.update_eq_self]

theorem holders_moved (hs : s.holders.Sound) (hi : s.calls[i]? = some call) {phase : BagelPhase} {shared : BagelShared}
    (hmove : ThreadMoves i call.request s.shared call.phase phase shared) (m : MultimodalMetrics) :
    (BagelService.holders ⟨s.calls.set i { call with phase }, shared, m⟩).Sound := by
  have hheld := holders_held hi
  by_cases hpath : phase.path = call.phase.path
  · rw [holders_same hi hpath]
    revert hheld hpath
    generalize call.phase = before at hmove
    intro hheld hpath
    cases hmove with
    | wrote path => exact hs.put hheld _
    | created _ _ => cases hpath
    | spoiled _ _ _ => cases hpath
    | unlinked _ _ => cases hpath
    | remained _ _ _ => cases hpath
    | _ => exact hs
  · rw [holders_set hi]
    revert hheld hpath
    generalize call.phase = before at hmove
    intro hheld hpath
    cases hmove with
    | created _ hfree => exact hs.take hheld hfree _
    | spoiled path _ written => exact (hs.put hheld written).leave hheld
    | unlinked path _ => exact hs.give hheld
    | remained path _ _ => exact hs.leave hheld
    | looked path h =>
      rcases h with rfl | rfl <;> exact absurd rfl hpath
    | failed path _ h =>
      rcases h with rfl | rfl | rfl <;> exact absurd rfl hpath
    | untold path _ h =>
      rcases h with rfl | rfl | rfl <;> exact absurd rfl hpath
    | _ => exact absurd rfl hpath

theorem timedOut_path (phase : BagelPhase) : phase.timedOut.path = phase.path := by
  cases phase <;> rfl

theorem arrived_path (config : MultimodalConfig) (r : MultimodalRequest) : (arrived config r).phase.path = none := by
  unfold arrived
  cases checkRequest config r <;> rfl

theorem holders_arrived (s : BagelService) (r : MultimodalRequest) :
    BagelService.holders { s with calls := s.calls ++ [arrived config r] } = s.holders := by
  unfold BagelService.holders
  rw [Holders.mk.injEq]
  refine ⟨?_, rfl, rfl⟩
  funext j
  dsimp only
  rcases Nat.lt_trichotomy j s.calls.length with hj | hj | hj
  · rw [List.getElem?_append_left hj]
  · subst hj
    rw [List.getElem?_concat_length, List.getElem?_eq_none (Nat.le_refl _)]
    exact arrived_path config r
  · rw [List.getElem?_eq_none (by simp; omega), List.getElem?_eq_none (by omega)]

theorem arrived_true (h : BagelTrue config s) (r : MultimodalRequest) :
    CallTrue config s.shared s.calls.length (arrived config r) := by
  have hlogs : Unlogged s.shared.sent s.shared.answers s.calls.length :=
    ⟨fun p hp => Nat.lt_irrefl _ (h.sentKnown _ hp), fun result hr => Nat.lt_irrefl _ (h.answersKnown _ hr)⟩
  unfold arrived
  cases hcheck : checkRequest config r with
  | error exc =>
    refine ⟨hlogs, fun p hp => absurd hp (hlogs.unasked p), ?_⟩
    rintro reply ⟨⟩
    refine ⟨.timedOut, 0, .osError, s.metrics, trivial, ?_⟩
    unfold multimodalGenerate
    dsimp only
    rw [hcheck]
  | ok => exact ⟨⟨hcheck, hlogs⟩, fun p hp => absurd hp (hlogs.unasked p), nofun⟩

theorem CallTrue.moved (h : CallTrue config s.shared i call) {phase : BagelPhase} {shared : BagelShared}
    (hmove : ThreadMoves i call.request s.shared call.phase phase shared) :
    CallTrue config shared i { call with phase } where
  phase := h.phase.moved hmove
  sent := moved_sent h.phase h.sent hmove
  reply reply hreply := by
    obtain ⟨outcome, latency, smi, m, htrue, heq⟩ := h.reply reply hreply
    exact ⟨outcome, latency, smi, m, htrue.grown hmove, heq⟩

theorem CallTrue.other {j : Nat} {other : BagelCall} (h : CallTrue config s.shared j other) (hj : j ≠ i)
    {phase : BagelPhase} {shared : BagelShared}
    (hpath : ∀ path, other.phase.path = some path → call.phase.path ≠ some path)
    (hmove : ThreadMoves i call.request s.shared call.phase phase shared) : CallTrue config shared j other where
  phase := h.phase.other hj hpath hmove
  sent p hp := h.sent p ((hmove.sent.other hj).mp hp)
  reply reply hreply := by
    obtain ⟨outcome, latency, smi, m, htrue, heq⟩ := h.reply reply hreply
    exact ⟨outcome, latency, smi, m, htrue.grown hmove, heq⟩

theorem ThreadTrue.timedOut {sh : BagelShared} {r : MultimodalRequest} {phase : BagelPhase}
    (h : ThreadTrue config sh i r phase) : ThreadTrue config sh i r phase.timedOut := by
  cases phase with
  | queued => exact h.2
  | _ => exact h

theorem replied_true (h : BagelTrue config s) (hi : s.calls[i]? = some call) {phase : BagelPhase}
    {outcome : BagelOutcome} {latency : ℚ} {smi : NvidiaSmi} (hpath : phase.path = call.phase.path)
    (hphase : ThreadTrue config s.shared i call.request phase) (houtcome : OutcomeTrue s.shared i outcome) :
    BagelTrue config (s.reply config i call phase outcome latency smi) := by
  unfold BagelService.reply
  refine ⟨?_, ?_, h.sentOnce, h.answersOnce, ?_, ?_⟩
  · dsimp only
    rw [holders_same hi hpath]
    exact h.files
  · intro j other hj
    dsimp only at hj ⊢
    rw [calls_set hi] at hj
    by_cases hij : j = i
    · subst hij
      rw [if_pos rfl] at hj
      cases hj
      refine ⟨hphase, (h.calls hi).sent, ?_⟩
      rintro reply ⟨⟩
      exact ⟨outcome, latency, smi, s.metrics, houtcome, rfl⟩
    · rw [if_neg hij] at hj
      exact h.calls hj
  · simpa using h.sentKnown
  · simpa using h.answersKnown

theorem LogGrows.known {α : Type} {l l' : List (Nat × α)} (h : LogGrows i l l') {n : Nat} (hi : i < n)
    (hl : ∀ e ∈ l, e.1 < n) : ∀ e ∈ l', e.1 < n := by
  rcases h with rfl | ⟨x, rfl⟩
  · exact hl
  · exact List.forall_mem_cons.mpr ⟨hi, hl⟩

theorem bagelTrue_step (h : BagelTrue config s) (hm : BagelMoves config s s') : BagelTrue config s' := by
  cases hm with
  | arrived r =>
    have hlonger : ∀ {k : Nat}, k < s.calls.length → k < (s.calls ++ [arrived config r]).length := by
      intro k hk
      rw [List.length_append]
      exact Nat.lt_add_right _ hk
    refine ⟨?_, ?_, h.sentOnce, h.answersOnce, fun e he => hlonger (h.sentKnown e he),
      fun e he => hlonger (h.answersKnown e he)⟩
    · rw [holders_arrived]
      exact h.files
    · intro j other hj
      dsimp only at hj
      rcases Nat.lt_or_ge j s.calls.length with hlt | hge
      · rw [List.getElem?_append_left hlt] at hj
        exact h.calls hj
      · rw [List.getElem?_append_right hge] at hj
        have hzero : j - s.calls.length = 0 := by simpa using (List.getElem?_eq_some_iff.mp hj).1
        rw [hzero] at hj
        cases hj
        obtain rfl : j = s.calls.length := by omega
        exact arrived_true h r
  | thread hi hmove =>
    rename_i i call phase shared
    have htrue := h.calls hi
    have hlength := (List.getElem?_eq_some_iff.mp hi).1
    refine ⟨holders_moved h.files hi hmove s.metrics, ?_, hmove.sent_nodup htrue.phase h.sentOnce,
      hmove.answers_nodup htrue.phase h.answersOnce, ?_, ?_⟩
    · intro j other hj
      dsimp only at hj ⊢
      rw [calls_set hi] at hj
      by_cases hij : j = i
      · subst hij
        rw [if_pos rfl] at hj
        cases hj
        exact htrue.moved hmove
      · rw [if_neg hij] at hj
        refine (h.calls hj).other hij (fun path hother hpath => hij ?_) hmove
        apply h.files.alone (k := path)
        · rw [holders_held hj, hother]
        · rw [holders_held hi, hpath]
    · rw [List.length_set]
      exact hmove.sent.known hlength h.sentKnown
    · rw [List.length_set]
      exact hmove.answers.known hlength h.answersKnown
  | responded latency smi hi hreply hphase =>
    have htrue := (h.calls hi).phase
    apply replied_true h hi rfl htrue
    rw [hphase] at htrue
    exact htrue.2
  | timedOut latency hi hreply => exact replied_true h hi (timedOut_path _) (h.calls hi).phase.timedOut trivial

theorem reachable_bagelTrue {gauges : GpuGauges} (hs : (bagelService config gauges).Reachable s) :
    BagelTrue config s := by
  refine hs.invariant (P := BagelTrue config) ?_ fun s act t _ h hstep => bagelTrue_step h (bagel_moves hstep)
  refine ⟨⟨?_, ?_, ?_⟩, ?_, List.nodup_nil, List.nodup_nil, nofun, nofun⟩
  · simp [BagelService.holders, bagelService]
  · simp [BagelService.holders, bagelService]
  · simp [BagelService.holders, bagelService]
  · simp [bagelService]

/-! ## What a reply tells -/

variable {r : MultimodalRequest} {outcome : BagelOutcome} {latency : ℚ} {smi : NvidiaSmi} {m : MultimodalMetrics}

theorem multimodalGenerate_ok {response : MultimodalGenerateResponse}
    (h : (multimodalGenerate config r outcome latency smi m).2 = .ok response) :
    ∃ result, outcome = .answered result ∧ multimodalReply config r result latency = .ok response := by
  unfold multimodalGenerate at h
  cases hcheck : checkRequest config r with
  | error exc =>
    rw [hcheck] at h
    cases h
  | ok =>
    rw [hcheck] at h
    cases outcome with
    | answered result =>
      dsimp only at h
      split at h
      · cases h
      · exact ⟨result, rfl, h⟩
    | timedOut => cases h
    | clientError text => cases h
    | raised typeName => cases h

theorem checkRequest_code {exc : HTTPException} (h : checkRequest config r = .error exc) :
    exc.statusCode ∈ [415, 400, 422, 413] := by
  unfold checkRequest at h
  split_ifs at h <;> cases h <;> simp

theorem multimodalReply_raised {result : Python.Str} {exc : HTTPException} :
    multimodalReply config r result latency ≠ .error (.http exc) := by
  unfold multimodalReply
  cases Python.encodeUtf8 result <;> simp

theorem upstreamError_http {text : Python.Str} {exc : HTTPException} (h : upstreamError text = .http exc) :
    ∃ encoded, Python.encodeUtf8 text = some encoded ∧
      exc = ⟨502, .message ("BAGEL upstream error: " ++ encoded)⟩ := by
  unfold upstreamError at h
  cases hencode : Python.encodeUtf8 text with
  | none =>
    rw [hencode] at h
    cases h
  | some encoded =>
    rw [hencode] at h
    cases h
    exact ⟨encoded, rfl, rfl⟩

theorem multimodalGenerate_badGateway {exc : HTTPException} (hcode : exc.statusCode = 502)
    (h : (multimodalGenerate config r outcome latency smi m).2 = .error (.http exc)) :
    ∃ text, outcome = .clientError (Python.str text) ∧ exc.detail = .message ("BAGEL upstream error: " ++ text) := by
  unfold multimodalGenerate at h
  cases hcheck : checkRequest config r with
  | error exc' =>
    rw [hcheck] at h
    cases h
    simpa [hcode] using checkRequest_code hcheck
  | ok =>
    rw [hcheck] at h
    cases outcome with
    | answered result =>
      dsimp only at h
      split at h
      · cases h
      · exact absurd h multimodalReply_raised
    | timedOut =>
      cases h
      cases hcode
    | clientError text =>
      have h : upstreamError text = .http exc := Except.error.inj h
      obtain ⟨encoded, hencode, rfl⟩ := upstreamError_http h
      refine ⟨encoded, ?_, rfl⟩
      rw [Python.str_of_encodeUtf8 hencode]
    | raised typeName => cases h

/-- The reply that `i` has got tells what its own thread met. -/
structure AnswersTrue (config : MultimodalConfig) (sh : BagelShared) (i : Nat) (call : BagelCall) : Prop where
  ok : ∀ response, call.reply = some (.ok response) → ∃ p result latency,
    (i, p) ∈ sh.sent ∧ (i, result) ∈ sh.answers ∧
    multimodalReply config call.request result latency = .ok response
  badGateway : ∀ exc, call.reply = some (.error (.http exc)) → exc.statusCode = 502 →
    ∃ text, (i, Python.str text) ∈ sh.errors ∧ exc.detail = .message ("BAGEL upstream error: " ++ text)

theorem CallTrue.answers (h : CallTrue config s.shared i call) : AnswersTrue config s.shared i call where
  ok response hreply := by
    obtain ⟨outcome, latency, smi, m, htrue, heq⟩ := h.reply _ hreply
    obtain ⟨result, rfl, hresponse⟩ := multimodalGenerate_ok heq
    obtain ⟨⟨p, hp⟩, hanswer⟩ := htrue
    exact ⟨p, result, latency, hp, hanswer, hresponse⟩
  badGateway exc hreply hcode := by
    obtain ⟨outcome, latency, smi, m, htrue, heq⟩ := h.reply _ hreply
    obtain ⟨text, rfl, hdetail⟩ := multimodalGenerate_badGateway hcode heq
    exact ⟨text, htrue, hdetail⟩

theorem BagelTrue.asked (h : BagelTrue config s) {p : Prediction} (hp : (i, p) ∈ s.shared.sent) :
    ∃ call, s.calls[i]? = some call ∧ AskedFor config call.request p := by
  have hi := h.sentKnown _ hp
  exact ⟨s.calls[i], List.getElem?_eq_getElem hi, (h.calls (List.getElem?_eq_getElem hi)).sent p hp⟩

/-- BAGEL is asked at most once for a request, and only for one that passes the
checks, with the request's own image and prompt; what the client gets is the
answer to that. -/
theorem bagel_answers_true (config : MultimodalConfig) (gauges : GpuGauges) {s : BagelService}
    (hs : (bagelService config gauges).Reachable s) :
    (s.shared.sent.map Prod.fst).Nodup ∧ (s.shared.answers.map Prod.fst).Nodup ∧
      (∀ i p, (i, p) ∈ s.shared.sent → ∃ call, s.calls[i]? = some call ∧ AskedFor config call.request p) ∧
      ∀ i call, s.calls[i]? = some call → AnswersTrue config s.shared i call := by
  have h := reachable_bagelTrue hs
  exact ⟨h.sentOnce, h.answersOnce, fun _ _ hp => h.asked hp, fun _ _ hi => (h.calls hi).answers⟩

end

/-! ## Two requests at once -/

def dogRequest : MultimodalRequest := { catRequest with contentType := some "image/jpeg", imageBytes := [1, 2] }

/-- The request for the cat times out, and its thread goes on. -/
def bagelActs : List BagelServiceAct := [
  .arrive catRequest, .arrive dogRequest, .thread 0 (.createFile "a"), .thread 1 (.createFile "b"), .thread 1 .write,
  .thread 0 .write, .thread 1 .bagelClient, .thread 1 .construct, .timeOut 0 240, .thread 0 .bagelClient,
  .thread 0 .predict, .thread 1 .predict, .thread 1 (.answer (Python.str "a dog")), .thread 1 .unlink,
  .respond 1 2 .osError, .thread 0 (.answer (Python.str "a cat"))]

theorem bagel_runs :
    ((bagelService bagelConfig noGauges).runFrom (bagelService bagelConfig noGauges).init bagelActs).isSome = true := by
  decide +kernel

def bagelServed : BagelService := Option.get _ bagel_runs

theorem bagelServed_reachable : (bagelService bagelConfig noGauges).Reachable bagelServed :=
  ⟨bagelActs, (Option.some_get _).symm⟩

theorem bagel_answers_true_dog : ∃ call response, bagelServed.calls[1]? = some call ∧
    call.reply = some (.ok response) ∧ ∃ p result latency, (1, p) ∈ bagelServed.shared.sent ∧
      (1, result) ∈ bagelServed.shared.answers ∧
      multimodalReply bagelConfig call.request result latency = .ok response := by
  have hrun : (bagelServed.calls[1]?.bind fun call => call.reply.bind Except.toOption).isSome = true := by
    decide +kernel
  obtain ⟨response, hresponse⟩ := Option.isSome_iff_exists.mp hrun
  obtain ⟨call, hcall, hreply⟩ := Option.bind_eq_some_iff.mp hresponse
  obtain ⟨reply, hreply, hok⟩ := Option.bind_eq_some_iff.mp hreply
  cases reply with
  | error e => cases hok
  | ok response' =>
    cases hok
    obtain ⟨_, _, _, hall⟩ := bagel_answers_true bagelConfig noGauges bagelServed_reachable
    exact ⟨call, response, hcall, hreply, (hall 1 call hcall).ok response hreply⟩

end InferenceService
