import InferenceService.Gateway.BagelTruth
import InferenceService.Lib.Dialogue

/-!
# The temporary files of the BAGEL service

A file is there while its thread works on it, also when the request has timed
out. What stays is what could not be written or removed.
-/

namespace InferenceService

/-- The thread loses its file. -/
def BagelAct.leaves : BagelAct → Bool
  | writeFails _ _ | unlinkFails _ => true
  | _ => false

def BagelServiceAct.leaves : BagelServiceAct → Bool
  | thread _ act => act.leaves
  | _ => false

section
variable {i : Nat} {r : MultimodalRequest} {sh sh' : BagelShared} {phase phase' : BagelPhase}

theorem failBagel_left {path : TemporaryPath} {text : Except String Python.Str}
    (h : some (failBagel i path sh text) = some (phase', sh')) : sh'.left = sh.left := by
  cases text <;> cases h <;> rfl

theorem callBagel_left {act : BagelAct} (h : callBagel i r sh phase act = some (phase', sh')) :
    if act.leaves then ∃ path, sh'.left = path :: sh.left else sh'.left = sh.left := by
  unfold callBagel at h
  split at h
  · split at h
    · cases h
      rfl
    · obtain ⟨_, h⟩ := Option.ite_none_right_eq_some.mp h
      cases h
      rfl
  all_goals first
    | (cases h; done)
    | (cases h; rfl)
    | (cases h; exact ⟨_, rfl⟩)
    | exact failBagel_left h
    | (obtain ⟨_, _, h⟩ := Option.map_eq_some_iff.mp h; cases h; rfl)

end

section
variable {config : MultimodalConfig} {s t : BagelService}

theorem step_left {act : BagelServiceAct} (h : s.step config act = some t) :
    t.shared.left.length = s.shared.left.length + if act.leaves then 1 else 0 := by
  cases act with
  | arrive r =>
    cases h
    rfl
  | thread i act =>
    obtain ⟨call, _, h⟩ := Option.bind_eq_some_iff.mp h
    obtain ⟨⟨phase, shared⟩, hmove, h⟩ := Option.map_eq_some_iff.mp h
    cases h
    have hleft := callBagel_left hmove
    unfold BagelServiceAct.leaves
    by_cases hact : act.leaves = true
    · rw [if_pos hact] at hleft ⊢
      obtain ⟨path, hleft⟩ := hleft
      exact congrArg List.length hleft
    · rw [if_neg hact] at hleft ⊢
      exact congrArg List.length hleft
  | respond i latency smi =>
    obtain ⟨call, _, h⟩ := Option.bind_eq_some_iff.mp h
    split at h <;> cases h
    rfl
  | timeOut i latency =>
    obtain ⟨call, _, h⟩ := Option.bind_eq_some_iff.mp h
    split at h <;> cases h
    rfl

theorem run_left (gauges : GpuGauges) {acts : List BagelServiceAct}
    (h : (bagelService config gauges).runFrom s acts = some t) :
    t.shared.left.length = s.shared.left.length + acts.countP BagelServiceAct.leaves := by
  induction acts generalizing s with
  | nil =>
    cases h
    rfl
  | cons act acts ih =>
    obtain ⟨u, hstep, hrun⟩ := Lts.runFrom_cons_iff _ |>.mp h
    rw [ih hrun, step_left hstep, List.countP_cons]
    omega

/-! ## The threads can always finish -/

/-- How much a thread that has a file still has to do. -/
def BagelPhase.work : BagelPhase → Nat
  | opened _ => 6
  | written _ => 5
  | constructing _ => 4
  | connected _ => 3
  | predicting _ => 2
  | unlinking _ _ => 1
  | queued | ended _ | skipped => 0

def BagelService.work (s : BagelService) : Nat := (s.calls.map fun call => call.phase.work).sum

def BagelServiceAct.FinishesThread : BagelServiceAct → Prop
  | thread _ act => act.leaves = false
  | _ => False

theorem work_path {phase : BagelPhase} : phase.work = 0 ↔ phase.path = none := by
  cases phase <;> simp [BagelPhase.work, BagelPhase.path]

theorem thread_works {i : Nat} {r : MultimodalRequest} {sh : BagelShared} {phase : BagelPhase}
    (h : ThreadTrue config sh i r phase) (hwork : phase.work ≠ 0) : ∃ act phase' sh',
      callBagel i r sh phase act = some (phase', sh') ∧ act.leaves = false ∧ phase'.work < phase.work := by
  cases phase with
  | opened path => exact ⟨.write, _, _, rfl, rfl, by simp [BagelPhase.work]⟩
  | written path =>
    refine ⟨.bagelClient, _, _, rfl, rfl, ?_⟩
    by_cases hc : sh.cached = true <;> simp [hc, BagelPhase.work]
  | constructing path => exact ⟨.construct, _, _, rfl, rfl, by simp [BagelPhase.work]⟩
  | connected path =>
    have hstep := congrArg (Option.map fun imageBytes => (BagelPhase.predicting path,
      { sh with sent := (i, r.prediction path.suffix imageBytes) :: sh.sent })) h.2.1.bytes
    exact ⟨.predict, _, _, hstep, rfl, by simp [BagelPhase.work]⟩
  | predicting path => exact ⟨.answer [], _, _, rfl, rfl, by simp [BagelPhase.work]⟩
  | unlinking path outcome => exact ⟨.unlink, _, _, rfl, rfl, by simp [BagelPhase.work]⟩
  | queued => exact absurd rfl hwork
  | ended outcome => exact absurd rfl hwork
  | skipped => exact absurd rfl hwork

theorem exists_working (hwork : s.work ≠ 0) :
    ∃ (i : Nat) (call : BagelCall), s.calls[i]? = some call ∧ call.phase.work ≠ 0 := by
  by_contra hno
  apply hwork
  apply List.sum_eq_zero_iff_forall_eq_nat.mpr
  intro n hn
  obtain ⟨call, hcall, rfl⟩ := List.mem_map.mp hn
  obtain ⟨i, hi⟩ := List.getElem?_of_mem hcall
  by_contra hpos
  exact hno ⟨i, call, hi, hpos⟩

theorem no_work (hwork : s.work = 0) {i : Nat} {call : BagelCall} (hi : s.calls[i]? = some call) :
    call.phase.path = none := by
  apply work_path.mp
  exact List.sum_eq_zero_iff_forall_eq_nat.mp hwork _ (List.mem_map_of_mem (List.mem_of_getElem? hi))

theorem thread_step (config : MultimodalConfig) {i : Nat} {call : BagelCall} (hi : s.calls[i]? = some call)
    {act : BagelAct} {phase : BagelPhase} {shared : BagelShared}
    (h : callBagel i call.request s.shared call.phase act = some (phase, shared)) :
    s.step config (.thread i act) = some { s with calls := s.calls.set i { call with phase }, shared } := by
  simp only [BagelService.step, hi, Option.bind_some, h, Option.map_some]

/-- The threads go on, and none of them loses its file. -/
structure Finishing (config : MultimodalConfig) (gauges : GpuGauges) (s t : BagelService) : Prop where
  leads : (bagelService config gauges).Leads BagelServiceAct.FinishesThread s t
  left : t.shared.left = s.shared.left

variable {gauges : GpuGauges}

theorem works_on (hs : (bagelService config gauges).Reachable s) (hwork : s.work ≠ 0) :
    ∃ t, Finishing config gauges s t ∧ (bagelService config gauges).Reachable t ∧ t.work < s.work := by
  obtain ⟨i, call, hi, hpos⟩ := exists_working hwork
  obtain ⟨act, phase, shared, hcall, hleaves, hless⟩ :=
    thread_works ((reachable_bagelTrue hs).calls hi).phase hpos
  have hstep : (bagelService config gauges).step s (.thread i act) = _ := thread_step config hi hcall
  refine ⟨_, ⟨.step hstep hleaves, ?_⟩, hs.step hstep, ?_⟩
  · have hleft := callBagel_left hcall
    rw [hleaves] at hleft
    exact hleft
  · have hsum := Crowd.sum_map_set (fun call : BagelCall => call.phase.work) hi { call with phase }
    unfold BagelService.work
    dsimp only at hsum ⊢
    omega

/-- From every state the threads alone can remove all files but those that were
left behind. -/
theorem files_removable (hs : (bagelService config gauges).Reachable s) :
    ∃ t, Finishing config gauges s t ∧
      ∀ path, (t.shared.files path).isSome = true ↔ path ∈ s.shared.left := by
  obtain ⟨t, hfinishing, ht, hzero⟩ := Lts.exists_zero (I := (bagelService config gauges).Reachable)
    (R := Finishing config gauges) (fun s => ⟨.refl s, rfl⟩)
    (fun _ _ _ h h' => ⟨h.leads.trans h'.leads, h'.left.trans h.left⟩) BagelService.work
    (fun _ hu hne => works_on hu hne) s hs
  refine ⟨t, hfinishing, fun path => ?_⟩
  have hstored := (reachable_bagelTrue ht).files.stored path
  rw [← hfinishing.left]
  refine hstored.trans (or_iff_right ?_)
  rintro ⟨i, hheld⟩
  obtain ⟨call, hi, hpath⟩ := Option.bind_eq_some_iff.mp hheld
  rw [no_work hzero hi] at hpath
  cases hpath

end

/-- The files are those that the threads work on, each on its own, and one for
each write or removal that has failed; the threads can remove all the others,
whatever has timed out. -/
theorem bagel_files_removed (config : MultimodalConfig) (gauges : GpuGauges) {acts : List BagelServiceAct}
    {s : BagelService}
    (h : (bagelService config gauges).runFrom (bagelService config gauges).init acts = some s) :
    s.shared.left.length = acts.countP BagelServiceAct.leaves ∧
      (∀ path, (s.shared.files path).isSome = true ↔
        (∃ (i : Nat) (call : BagelCall), s.calls[i]? = some call ∧ call.phase.path = some path) ∨
          path ∈ s.shared.left) ∧
      (∀ (i j : Nat) (call call' : BagelCall) (path : TemporaryPath), s.calls[i]? = some call →
        s.calls[j]? = some call' → call.phase.path = some path → call'.phase.path = some path → i = j) ∧
      ∃ t, (bagelService config gauges).Leads BagelServiceAct.FinishesThread s t ∧
        ∀ path, (t.shared.files path).isSome = true ↔ path ∈ s.shared.left := by
  have hs : (bagelService config gauges).Reachable s := ⟨acts, h⟩
  have hfiles := (reachable_bagelTrue hs).files
  refine ⟨?_, fun path => ?_, fun i j call call' path hi hj hpath hpath' => ?_, ?_⟩
  · rw [run_left gauges h]
    exact Nat.zero_add _
  · refine (hfiles.stored path).trans (or_congr_left (exists_congr fun i => ?_))
    exact Option.bind_eq_some_iff
  · apply hfiles.alone (k := path)
    · rw [holders_held hi, hpath]
    · rw [holders_held hj, hpath']
  · obtain ⟨t, hfinishing, hall⟩ := files_removable hs
    exact ⟨t, hfinishing.leads, hall⟩

/-- The thread of the request that has timed out can still remove its file. -/
theorem bagel_files_removed_cat : bagelServed.shared.files ⟨"a", ".png"⟩ = some [0] ∧
    (bagelServed.calls[0]?.bind fun call => call.reply).isSome = true ∧
    ∃ t, (bagelService bagelConfig noGauges).Leads BagelServiceAct.FinishesThread bagelServed t ∧
      ∀ path, t.shared.files path = none := by
  refine ⟨by decide +kernel, by decide +kernel, ?_⟩
  obtain ⟨hleft, _, _, t, hleads, hall⟩ :=
    @bagel_files_removed bagelConfig noGauges bagelActs bagelServed (Option.some_get _).symm
  refine ⟨t, hleads, fun path => ?_⟩
  have hnone : bagelServed.shared.left = [] := List.eq_nil_of_length_eq_zero hleft
  rw [← Option.not_isSome_iff_eq_none, hall path, hnone]
  exact List.not_mem_nil

end InferenceService
