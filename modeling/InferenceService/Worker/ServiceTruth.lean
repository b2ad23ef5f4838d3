import InferenceService.Worker.ServiceSteps

/-!
# What a finished job's record says is what happened

A terminal record holds what `generate_text` returned or raised for the request
that was submitted under the job's id.
-/

namespace InferenceService

/-! ## Messages carry what was enqueued -/

section
variable {V : Type} {J : JsonLib V} {q q' : QueueSys V} {a : QueueAct V}

def Carried (log : List (QueueEvent V)) (m : JobMessage V) : Prop :=
  ∃ job ∈ enqueuedJobs log, job.jobId = m.jobId ∧ job.payload = m.payload

structure Carrying (q : QueueSys V) : Prop where
  messages : ∀ m ∈ q.messages, Carried q.log m
  marking : ∀ c ∈ q.marking, Carried q.log c.message
  leases : ∀ l ∈ leases q.log, Carried q.log l.message
  finalized : ∀ c, .finalized c ∈ q.log → Carried q.log c.lease.message

theorem Carried.mono {log log' : List (QueueEvent V)} {m : JobMessage V} (h : Carried log m)
    (hsub : enqueuedJobs log ⊆ enqueuedJobs log') : Carried log' m := by
  obtain ⟨job, hjob, h⟩ := h
  exact ⟨job, hsub hjob, h⟩

theorem received_carried (hJ : J.RoundTrips) (hp : Placed J q) {reclaimed : Bool}
    {entries : List (StreamId × List (String × String))} (hall : ∀ e ∈ entries, e ∈ q.redis.stream.entries)
    {m : JobMessage V} (hm : m ∈ received J reclaimed (entries.map some)) : Carried q.log m := by
  obtain ⟨jobs, hjobs, _, hdec⟩ := hp.decodes hJ reclaimed hall
  unfold received at hm
  rw [hdec] at hm
  obtain ⟨job, hjob, rfl⟩ := List.mem_map.mp hm
  exact ⟨job, hjobs job hjob, rfl, rfl⟩

theorem carrying_step (hJ : J.RoundTrips) (hp : Placed J q) (h : Carrying q) (hm : JobMoves J q a q') :
    Carrying q' := by
  cases hm with
  | serve stream entries reclaimed claiming _ _ _ _ hentries =>
    refine { h with messages := ?_ }
    intro m hm
    rcases List.mem_append.mp hm with hm | hm
    · exact h.messages m hm
    · exact received_carried hJ hp hentries hm
  | enqueue =>
    have hsub : ∀ job, enqueuedJobs q.log ⊆ enqueuedJobs (.enqueued job :: q.log) :=
      fun job => List.subset_cons_of_subset job (List.Subset.refl _)
    refine ⟨fun m hm => (h.messages m hm).mono (hsub _), fun c hc => (h.marking c hc).mono (hsub _),
      fun l hl => (h.leases l hl).mono (hsub _), fun c hc => ?_⟩
    exact (h.finalized c ((List.mem_cons.mp hc).resolve_left nofun)).mono (hsub _)
  | markGet hm =>
    refine { h with marking := ?_ }
    intro c hc
    rcases List.mem_append.mp hc with hc | hc
    · exact h.marking c hc
    · rw [List.mem_singleton.mp hc]
      exact h.messages _ hm
  | marked hc =>
    refine ⟨h.messages, fun c hc => h.marking c (List.mem_of_mem_eraseIdx hc), ?_, fun c hc => ?_⟩
    · intro l hl
      rcases List.mem_cons.mp hl with rfl | hl
      · exact h.marking _ (List.mem_of_getElem? hc)
      · exact h.leases l hl
    · exact h.finalized c ((List.mem_cons.mp hc).resolve_left nofun)
  | markRefused => exact { h with marking := fun c hc => h.marking c (List.mem_of_mem_eraseIdx hc) }
  | tick ms => exact { h with }
  | expire jobId => exact { h with }
  | finalizeGet => exact { h with }
  | finalized hc =>
    refine { h with finalized := ?_ }
    intro c' hc'
    rcases List.mem_cons.mp hc' with hc' | hc'
    · obtain rfl := QueueEvent.finalized.inj hc'
      exact h.leases _ (hp.finalizing _ (List.mem_of_getElem? hc))
    · exact h.finalized c' hc'
  | finalizeRefused => exact { h with }

theorem reachable_carrying (hJ : J.RoundTrips) (hs : (jobQueue J).Reachable q) : Carrying q := by
  refine hs.invariant ⟨?_, ?_, ?_, ?_⟩ fun _ _ _ hu h hstep =>
    carrying_step hJ (reachable_placed hu) h (job_moves (reachable_placed hu).intact hstep)
  · exact fun _ hm => absurd hm List.not_mem_nil
  · exact fun _ hc => absurd hc List.not_mem_nil
  · exact fun _ hl => absurd hl List.not_mem_nil
  · exact fun _ hc => absurd hc List.not_mem_nil

end

/-! ## The invariant -/

section
variable {W V R : Type} (J : JsonLib V) (A : RequestApi V R)

/-- What an attempt at a payload gave, by the calls of `generate_text` that there
have been. -/
def AttemptMade (generated : List (R × Except PyException V)) (payload : V) (result : Except PyException V) : Prop :=
  ∃ generateText, result = attempt J A.toRequestModel generateText payload ∧
    ∀ request, A.requested payload = some request → (request, generateText request) ∈ generated

def FinalizeTrue (generated : List (R × Except PyException V)) (c : FinalizeCall V) : Prop :=
  encodeOutcome J c.outcome = .ok () ∧
    ∃ result, settled result = .ok c.outcome ∧ AttemptMade J A generated c.lease.message.payload result

def PhaseTrue (log : List (QueueEvent V)) (generated : List (R × Except PyException V)) : WorkerPhase V → Prop
  | .leased lease _ => lease ∈ leases log
  | .attempted lease result _ => lease ∈ leases log ∧ AttemptMade J A generated lease.message.payload result
  | _ => True

structure Truthful (s : Service W V R) : Prop where
  queue : (jobQueue J).Reachable s.queue
  submitted : s.submitted.map Prod.fst = (enqueuedJobs s.queue.log).map Enqueued.jobId
  requests : ∀ job ∈ enqueuedJobs s.queue.log, ∃ request, (job.jobId, request) ∈ s.submitted ∧
    job.payload = A.modelDump request ∧ Python.strip (A.prompt request).toList ≠ []
  phases : ∀ w, PhaseTrue J A s.queue.log s.generated (s.process w).phase
  finalizing : ∀ c ∈ s.queue.finalizing, FinalizeTrue J A s.generated c
  finalized : ∀ c, .finalized c ∈ s.queue.log → FinalizeTrue J A s.generated c

variable {J A} {generated generated' : List (R × Except PyException V)} {log log' : List (QueueEvent V)}

theorem AttemptMade.mono {payload : V} {result : Except PyException V} (h : AttemptMade J A generated payload result)
    (hsub : generated ⊆ generated') : AttemptMade J A generated' payload result := by
  obtain ⟨generateText, hresult, hmade⟩ := h
  exact ⟨generateText, hresult, fun request hr => hsub (hmade request hr)⟩

theorem FinalizeTrue.mono {c : FinalizeCall V} (h : FinalizeTrue J A generated c) (hsub : generated ⊆ generated') :
    FinalizeTrue J A generated' c := by
  obtain ⟨hencode, result, hsettled, hmade⟩ := h
  exact ⟨hencode, result, hsettled, hmade.mono hsub⟩

theorem PhaseTrue.mono {phase : WorkerPhase V} (h : PhaseTrue J A log generated phase)
    (hlog : leases log ⊆ leases log') (hsub : generated ⊆ generated') : PhaseTrue J A log' generated' phase := by
  cases phase with
  | leased lease todo => exact hlog h
  | attempted lease result todo => exact ⟨hlog h.1, h.2.mono hsub⟩
  | _ => trivial

end

/-! ## Every step keeps it -/

section
variable {W V R : Type} {J : JsonLib V} {A : RequestApi V R} {s : Service W V R}

/-- A command that neither submits nor finalizes. -/
theorem Truthful.interim (h : Truthful J A s) {queue : QueueSys V} (hq : Interim J s.queue queue)
    {process : W → Process V} (hp : ∀ w, PhaseTrue J A queue.log s.generated (process w).phase)
    (unanswered : List (QueueEvent V)) (metrics : JobMetrics) :
    Truthful J A { s with queue, process, unanswered, metrics } where
  queue := hq.reachable h.queue
  submitted := by
    show s.submitted.map Prod.fst = (enqueuedJobs queue.log).map Enqueued.jobId
    rw [hq.jobs]
    exact h.submitted
  requests job hjob := h.requests job (hq.jobs ▸ hjob)
  phases := hp
  finalizing c hc := h.finalizing c (hq.finalizing c hc)
  finalized c hc := (hq.finalized c hc).elim (h.finalized c) (h.finalizing c)

theorem phaseTrue_of_free {log : List (QueueEvent V)} {generated : List (R × Except PyException V)}
    {phase : WorkerPhase V} (h : phase.Free) : PhaseTrue J A log generated phase := by
  cases phase with
  | leased => exact h.elim
  | attempted => exact h.elim
  | _ => trivial

theorem truthful_submit (h : Truthful J A s) {request : R} {job : Enqueued V} {queue : QueueSys V}
    (hreach : (jobQueue J).Reachable queue) (hblank : Python.strip (A.prompt request).toList ≠ [])
    (hpayload : job.payload = A.modelDump request) (hlog : queue.log = .enqueued job :: s.queue.log)
    (hfin : queue.finalizing = s.queue.finalizing) (unanswered : List (QueueEvent V)) (metrics : JobMetrics) :
    Truthful J A { s with queue, submitted := (job.jobId, request) :: s.submitted, unanswered, metrics } := by
  have hjobs : enqueuedJobs queue.log = job :: enqueuedJobs s.queue.log := by rw [hlog]; rfl
  have hleases : leases queue.log = leases s.queue.log := by rw [hlog]; rfl
  refine ⟨hreach, ?_, ?_, ?_, ?_, ?_⟩
  · show job.jobId :: s.submitted.map Prod.fst = (enqueuedJobs queue.log).map Enqueued.jobId
    rw [hjobs, List.map_cons, h.submitted]
  · intro job' hjob'
    rcases List.mem_cons.mp (hjobs ▸ hjob') with rfl | hold
    · exact ⟨request, List.mem_cons_self, hpayload, hblank⟩
    · obtain ⟨request', hr, hrest⟩ := h.requests job' hold
      exact ⟨request', List.mem_cons_of_mem _ hr, hrest⟩
  · exact fun w => (h.phases w).mono (fun l hl => hleases ▸ hl) (List.Subset.refl _)
  · exact fun c hc => h.finalizing c (hfin ▸ hc)
  · intro c hc
    have hc' : QueueEvent.finalized c ∈ QueueEvent.enqueued job :: s.queue.log := hlog ▸ hc
    exact h.finalized c ((List.mem_cons.mp hc').resolve_left nofun)

end

section
variable {W V R : Type} [DecidableEq W] {J : JsonLib V} {A : RequestApi V R} {start : W → JobWorker}
  {s s' : Service W V R}

theorem Truthful.others (h : Truthful J A s) {log : List (QueueEvent V)} (hlog : leases s.queue.log ⊆ leases log)
    {generated : List (R × Except PyException V)} (hsub : s.generated ⊆ generated) {w : W} {p : Process V}
    (hp : PhaseTrue J A log generated p.phase) :
    ∀ w', PhaseTrue J A log generated (Function.update s.process w p w').phase :=
  (Function.forall_update_iff _ fun _ (p : Process V) => PhaseTrue J A log generated p.phase).mpr
    ⟨hp, fun w' _ => (h.phases w').mono hlog hsub⟩

/-- The lease that is finalized is the one whose attempt the process has made. -/
theorem truthful_sent (h : Truthful J A s) {w : W} {lease : JobLease V} {result : Except PyException V}
    {outcome : JobOutcome V} {todo : List Nat} {k : Nat} {nowMs : Int} {queue : QueueSys V}
    (hphase : (s.process w).phase = .attempted lease result todo) (hsettled : settled result = .ok outcome)
    (hk : k = (leases s.queue.log).findIdx fun l => l.deliveryToken = lease.deliveryToken)
    (hstep : (jobQueue J).step s.queue (.finalizeGet k outcome nowMs) = some queue) :
    Truthful J A { s.setPhase w (.finalizing lease.deliveryToken todo) with queue } := by
  have hp := h.phases w
  rw [hphase] at hp
  obtain ⟨hlease, hmade⟩ := hp
  obtain ⟨c, hc, rfl, hencode, rfl⟩ := finalizeGet_call hstep
  obtain ⟨hlt, hget⟩ := List.getElem?_eq_some_iff.mp hc
  have htoken : c.lease.deliveryToken = lease.deliveryToken := by
    subst hk
    have := @List.findIdx_getElem _ _ (leases s.queue.log) hlt
    rw [hget] at this
    simpa using this
  have hsame : c.lease = lease :=
    (reachable_fenced h.queue).same_token (List.mem_of_getElem? hc) hlease htoken
  refine ⟨h.queue.step hstep, h.submitted, h.requests, h.others (List.Subset.refl _) (List.Subset.refl _) trivial,
    ?_, h.finalized⟩
  intro c' hc'
  rcases List.mem_append.mp hc' with hc' | hc'
  · exact h.finalizing c' hc'
  · rw [List.mem_singleton.mp hc']
    exact ⟨hencode, result, hsettled, hsame ▸ hmade⟩

theorem truthful_attempted (h : Truthful J A s) {w : W} {lease : JobLease V} {todo : List Nat}
    (hphase : (s.process w).phase = .leased lease todo) (generateText : R → Except PyException V) :
    Truthful J A { s.setPhase w (.attempted lease
        (attempt J A.toRequestModel generateText lease.message.payload) todo) with
      generated := ((A.requested lease.message.payload).map fun request => (request, generateText request)).toList ++
        s.generated } := by
  have hsub : s.generated ⊆ ((A.requested lease.message.payload).map fun request =>
      (request, generateText request)).toList ++ s.generated := List.subset_append_right _ _
  have hlease := h.phases w
  rw [hphase] at hlease
  refine ⟨h.queue, h.submitted, h.requests, h.others (List.Subset.refl _) hsub ⟨hlease, generateText, rfl, ?_⟩,
    fun c hc => (h.finalizing c hc).mono hsub, fun c hc => (h.finalized c hc).mono hsub⟩
  intro request hr
  rw [hr]
  exact List.mem_append_left _ List.mem_cons_self

theorem truthful_step (h : Truthful J A s) (hm : ServiceMoves J A s s') : Truthful J A s' := by
  cases hm with
  | environment queue metrics hq =>
    exact h.interim hq (fun w => (h.phases w).mono hq.leases (List.Subset.refl _)) _ _
  | process w p queue metrics hq _ hp =>
    exact h.interim hq (h.others hq.leases (List.Subset.refl _) (phaseTrue_of_free hp)) _ _
  | late queue hq =>
    exact h.interim hq (fun w => (h.phases w).mono hq.leases (List.Subset.refl _)) _ _
  | submit request job nowMs answered queue hstep hblank hpayload hlog hfin =>
    exact truthful_submit h (h.queue.step hstep) hblank hpayload hlog hfin _ _
  | marked w c todo queue hq hlog =>
    refine h.interim hq (h.others hq.leases (List.Subset.refl _) ?_) _ _
    exact mem_leases (hlog ▸ List.mem_cons_self)
  | attempted w lease todo generateText hphase => exact truthful_attempted h hphase generateText
  | sent w lease result outcome todo k nowMs queue hphase hsettled hk hstep =>
    exact truthful_sent h hphase hsettled hk hstep
  | finalized w c todo queue hq =>
    refine h.interim hq (h.others hq.leases (List.Subset.refl _) ?_) _ _
    exact phaseTrue_of_free trivial

theorem truthful_init : Truthful J A (service J A start).init where
  queue := (jobQueue J).reachable_init
  submitted := rfl
  requests _ hjob := absurd hjob List.not_mem_nil
  phases _ := trivial
  finalizing _ hc := absurd hc List.not_mem_nil
  finalized _ hc := absurd hc List.not_mem_nil

theorem reachable_truthful (hs : (service J A start).Reachable s) : Truthful J A s :=
  hs.invariant truthful_init fun _ _ _ _ h hstep => truthful_step h (service_moves h.queue hstep)

end

/-! ## The record -/

section
variable {V R : Type} {J : JsonLib V} {A : RequestApi V R}

theorem FinalizeCall.state_completed {c : FinalizeCall V} {result : V} (h : c.outcome = .complete result) :
    c.state.status = .succeeded ∧ c.state.result = some result := by
  unfold FinalizeCall.state
  rw [h]
  exact ⟨rfl, rfl⟩

/-- What is written of a message is its beginning. -/
theorem FinalizeCall.state_failed {c : FinalizeCall V} {errorType : String} {errorMessage : Python.Str}
    (h : c.outcome = .fail errorType errorMessage) (hencode : encodeOutcome J c.outcome = .ok ()) :
    c.state.status = .failed ∧ c.state.errorType = some errorType ∧
      ∃ text, c.state.errorMessage = some text ∧ Python.str text = errorMessage.take 1000 := by
  rw [h] at hencode
  unfold FinalizeCall.state
  rw [h]
  refine ⟨rfl, rfl, _, rfl, ?_⟩
  unfold encodeOutcome at hencode
  cases hu : Python.encodeUtf8 (errorMessage.take 1000) with
  | none => simp only [hu, reduceCtorEq] at hencode
  | some encoded => rw [← Python.encodeUtf8_some hu, Python.str_of_encodeUtf8 hu]

theorem requested_dump (hA : A.RoundTrips J) {request : R} (hblank : Python.strip (A.prompt request).toList ≠ []) :
    A.requested (A.modelDump request) = some request := by
  simp only [RequestModel.requested, (hA request).1, if_neg hblank]

theorem attempt_dump (hA : A.RoundTrips J) {request : R} (hblank : Python.strip (A.prompt request).toList ≠ [])
    (generateText : R → Except PyException V) :
    attempt J A.toRequestModel generateText (A.modelDump request) = (do
      let result ← generateText request
      if J.isDict result then .ok result else .error (raisedWith "TypeError" "generate_text must return a mapping")) := by
  simp only [attempt, (hA request).1, bind, Except.bind, if_neg hblank]

end

section
variable {W V R : Type} [DecidableEq W] {J : JsonLib V} {A : RequestApi V R} {start : W → JobWorker}
  {s s' : Service W V R}

theorem submitted_nodup (hs : (service J A start).Reachable s) : (s.submitted.map Prod.fst).Nodup := by
  have ht := reachable_truthful hs
  have hp := reachable_placed ht.queue
  rw [ht.submitted, hp.jobIds]
  exact hp.jobIds_nodup

/-- What has been submitted and generated stays so. -/
theorem logs_step (hm : ServiceMoves J A s s') : s.submitted ⊆ s'.submitted ∧ s.generated ⊆ s'.generated := by
  cases hm with
  | submit => exact ⟨List.subset_cons_of_subset _ (List.Subset.refl _), List.Subset.refl _⟩
  | attempted => exact ⟨List.Subset.refl _, List.subset_append_right _ _⟩
  | _ => exact ⟨List.Subset.refl _, List.Subset.refl _⟩

/-- The record of a finished job tells what `generate_text` did with the request
that was submitted. -/
theorem record_tells (hJ : J.RoundTrips) (hA : A.RoundTrips J) (hs : (service J A start).Reachable s) {j : String}
    {st : JobState V} (h : s.queue.redis.job j = some st) : ∃ request, (j, request) ∈ s.submitted ∧
      (st.status.Terminal → (∃ result, st.status = .succeeded ∧ st.result = some result ∧ J.isDict result = true ∧
          (request, .ok result) ∈ s.generated) ∨
        ∃ exc message text, st.status = .failed ∧ st.errorType = some exc.typeName ∧ exc.message = .ok message ∧
          st.errorMessage = some text ∧ Python.str text = message.take 1000 ∧
          ((request, .error exc) ∈ s.generated ∨ exc = raisedWith "TypeError" "generate_text must return a mapping" ∧
            ∃ result, (request, .ok result) ∈ s.generated ∧ J.isDict result = false)) := by
  have ht := reachable_truthful hs
  have hp := reachable_placed ht.queue
  obtain ⟨job, hjob, hid, _⟩ := ((reachable_records ht.queue).job j st h).origin
  obtain ⟨request, hr, hpayload, hblank⟩ := ht.requests job hjob
  refine ⟨request, hid ▸ hr, fun hterm => ?_⟩
  -- the write that finished the job, the attempt before it, and the payload of its lease
  have hwritten : ∃ c : FinalizeCall V, st = c.state ∧ encodeOutcome J c.outcome = .ok () ∧ ∃ generateText,
      settled (attempt J A.toRequestModel generateText (A.modelDump request)) = .ok c.outcome ∧
        (request, generateText request) ∈ s.generated := by
    obtain ⟨ev, hev, rfl⟩ := (reachable_fenced ht.queue).recorded j st h
    obtain ⟨hmem, hj⟩ := lastWrite_mem hev
    cases ev with
    | enqueued q => exact absurd hterm (queued_not_terminal _ _)
    | marked c => exact absurd hterm (running_not_terminal c)
    | finalized c =>
      obtain ⟨hencode, result, hsettled, generateText, hresult, hmade⟩ := ht.finalized c hmem
      obtain ⟨job', hjob', hid', hpayload'⟩ := (reachable_carrying hJ ht.queue).finalized c hmem
      obtain rfl : job' = job := hp.same_job hjob' hjob (hid'.trans (hj.trans hid.symm))
      rw [← hpayload', hpayload] at hresult hmade
      exact ⟨c, rfl, hencode, generateText, hresult ▸ hsettled, hmade request (requested_dump hA hblank)⟩
  obtain ⟨c, rfl, hencode, generateText, hsettled, hmade⟩ := hwritten
  rw [attempt_dump hA hblank] at hsettled
  have hfailed : ∀ exc, settled (.error exc : Except PyException V) = .ok c.outcome → ∃ message text,
      c.state.status = .failed ∧ c.state.errorType = some exc.typeName ∧ exc.message = .ok message ∧
        c.state.errorMessage = some text ∧ Python.str text = message.take 1000 := by
    intro exc hexc
    obtain ⟨message, hmessage, ho⟩ := map_eq_ok.mp hexc
    obtain ⟨hst, htype, text, htext, hcut⟩ := FinalizeCall.state_failed ho.symm hencode
    exact ⟨message, text, hst, htype, hmessage, htext, hcut⟩
  cases hgen : generateText request with
  | error exc =>
    rw [hgen] at hsettled hmade
    obtain ⟨message, text, hst, htype, hmessage, htext, hcut⟩ := hfailed exc hsettled
    exact .inr ⟨exc, message, text, hst, htype, hmessage, htext, hcut, .inl hmade⟩
  | ok result =>
    rw [hgen] at hsettled hmade
    simp only [bind, Except.bind] at hsettled
    by_cases hdict : J.isDict result = true
    · rw [if_pos hdict] at hsettled
      obtain ⟨hst, hresult⟩ := FinalizeCall.state_completed (Except.ok.inj hsettled).symm
      exact .inl ⟨result, hst, hresult, hdict, hmade⟩
    · rw [if_neg hdict] at hsettled
      obtain ⟨message, text, hst, htype, hmessage, htext, hcut⟩ := hfailed _ hsettled
      exact .inr ⟨_, message, text, hst, htype, hmessage, htext, hcut, .inr ⟨rfl, result, hmade,
        eq_false_of_ne_true hdict⟩⟩

end

section
variable {W V R : Type} [DecidableEq W] (J : JsonLib V) (A : RequestApi V R) (start : W → JobWorker)

/-- What a client reads of a finished job is what `generate_text` did with the
client's own request. -/
theorem terminal_record_true (hJ : J.RoundTrips) (hA : A.RoundTrips J) {s : Service W V R}
    (hs : (service J A start).Reachable s) {j : String} {st : JobState V} (h : s.queue.redis.job j = some st) :
    (s.submitted.map Prod.fst).Nodup ∧ ∃ request, (j, request) ∈ s.submitted ∧
      (st.status = .succeeded → ∃ result, st.result = some result ∧ J.isDict result = true ∧
        (request, .ok result) ∈ s.generated) ∧
      (st.status = .failed → ∃ exc message text, st.errorType = some exc.typeName ∧ exc.message = .ok message ∧
        st.errorMessage = some text ∧ Python.str text = message.take 1000 ∧
        ((request, .error exc) ∈ s.generated ∨ exc = raisedWith "TypeError" "generate_text must return a mapping" ∧
          ∃ result, (request, .ok result) ∈ s.generated ∧ J.isDict result = false)) := by
  obtain ⟨request, hr, htells⟩ := record_tells hJ hA hs h
  refine ⟨submitted_nodup hs, request, hr, fun hst => ?_, fun hst => ?_⟩
  · rcases htells (.inl hst) with ⟨result, _, h⟩ | ⟨_, _, _, hfailed, _⟩
    · exact ⟨result, h⟩
    · rw [hst] at hfailed
      cases hfailed
  · rcases htells (.inr hst) with ⟨_, hsucceeded, _⟩ | ⟨exc, message, text, _, h⟩
    · rw [hst] at hsucceeded
      cases hsucceeded
    · exact ⟨exc, message, text, h⟩

end

theorem terminal_record_true_second : ∃ st request, servedTwo.queue.redis.job "second" = some st ∧
    ("second", request) ∈ servedTwo.submitted ∧ ∃ result, st.result = some result ∧
      (request, .ok result) ∈ servedTwo.generated := by
  have h : (servedTwo.queue.redis.job "second").map (fun st => decide (st.status = .succeeded)) = some true := by decide
  obtain ⟨st, hst, hsucceeded⟩ := Option.map_eq_some_iff.mp h
  obtain ⟨_, request, hr, hresult, _⟩ := terminal_record_true wordJson wordApi (fun _ => plainWorker)
    wordJson_roundTrips wordApi_roundTrips servedTwo_reachable hst
  obtain ⟨result, hres, _, hgen⟩ := hresult (of_decide_eq_true hsucceeded)
  exact ⟨st, request, hst, hr, result, hres, hgen⟩

end InferenceService
