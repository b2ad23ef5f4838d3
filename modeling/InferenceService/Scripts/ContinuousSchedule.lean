import InferenceService.Scripts.ContinuousBatching

/-!
# The schedule that continuous batching makes

Every request is pending, waiting, active or completed, and in this order of
stages the sorted requests move on. What each operation of the loop keeps, the
measure that ends the loop, and the schedule that is left.
-/

namespace InferenceService

structure ContinuousConfig.Nonneg (C : ContinuousConfig) : Prop where
  slots : 0 < C.maxActiveRequests
  prefill : 0 ≤ C.prefillTimePerToken
  base : 0 ≤ C.decodeStepTimeBase
  perRequest : 0 ≤ C.decodeStepTimePerRequest

/-- What holds between any two operations of the loop. -/
structure Scheduled (C : ContinuousConfig) (requests : List Request) (s : ContinuousState) : Prop where
  fifo : started s.log ++ (s.waiting ++ s.pending) = sortedRequests requests
  placed : (s.completed.map Completion.request ++ s.active.map ActiveItem.request).Perm (started s.log)
  arrived : ∀ r ∈ s.waiting, r.arrivalTime ≤ s.clock.currentTime
  startTimes : ∀ p ∈ starts s.log, p.1.arrivalTime ≤ p.2 ∧ p.2 ≤ s.clock.currentTime ∧
    s.startTimes p.1.requestId = p.2
  ordered : ((starts s.log).map Prod.snd).Pairwise (· ≤ ·)
  completed : ∀ c ∈ s.completed, (c.request, c.startTime) ∈ starts s.log ∧ c.startTime ≤ c.finishTime ∧
    c.finishTime ≤ s.clock.currentTime
  accounted : s.clock.Accounted
  idleTime : s.clock.gpuIdleTime = (s.log.map GpuEvent.idleTime).sum
  capacity : s.active.length ≤ C.maxActiveRequests
  sets : ∀ rs ∈ decodeSets s.log, rs.length ≤ C.maxActiveRequests ∧ ∀ r ∈ rs, r ∈ started s.log
  active : ∀ item ∈ s.active, ∃ k : Nat, TakesPart item.request k [] s.log ∧
    item.remainingOutputTokens = item.request.outputTokens - k ∧ (k = 0 ∨ 0 < item.remainingOutputTokens)
  served : ∀ c ∈ s.completed, Served c.request (max 1 c.request.outputTokens) s.log
  idles : ∀ since upTo, .idle since upTo ∈ s.log → ∀ r ∈ requests, r.arrivalTime < upTo →
    ∃ c ∈ s.completed, c.request = r ∧ c.finishTime ≤ since

section
variable {C : ContinuousConfig} {requests : List Request} {s : ContinuousState}

theorem scheduled_init (C : ContinuousConfig) (requests : List Request) :
    Scheduled C requests (continuousInit requests) where
  fifo := rfl
  placed := List.Perm.refl _
  arrived := fun _ h => absurd h List.not_mem_nil
  startTimes := fun _ h => absurd h List.not_mem_nil
  ordered := List.Pairwise.nil
  completed := fun _ h => absurd h List.not_mem_nil
  accounted := by simp [GpuClock.Accounted, continuousInit]
  idleTime := rfl
  capacity := Nat.zero_le _
  sets := fun _ h => absurd h List.not_mem_nil
  active := fun _ h => absurd h List.not_mem_nil
  served := fun _ h => absurd h List.not_mem_nil
  idles := fun _ _ h => absurd h List.not_mem_nil

/-! ## Who is where -/

theorem Scheduled.sorted_nodup (hids : (requests.map Request.requestId).Nodup) :
    ((sortedRequests requests).map Request.requestId).Nodup :=
  ((sorted_perm requests).map Request.requestId).nodup_iff.mpr hids

/-- A waiting request and a started one have different ids. -/
theorem Scheduled.fresh_id (h : Scheduled C requests s) (hids : (requests.map Request.requestId).Nodup)
    {r r' : Request} (hr : r ∈ s.waiting) (hr' : r' ∈ started s.log) : r'.requestId ≠ r.requestId := by
  have hnodup := Scheduled.sorted_nodup hids
  rw [← h.fifo, List.map_append] at hnodup
  intro heq
  refine (List.nodup_append.mp hnodup).2.2 _ (List.mem_map_of_mem hr') _ (List.mem_map_of_mem ?_) heq
  exact List.mem_append_left _ hr

theorem Scheduled.fresh (h : Scheduled C requests s) (hids : (requests.map Request.requestId).Nodup) {r : Request}
    (hr : r ∈ s.waiting) : r ∉ started s.log := fun hmem => h.fresh_id hids hr hmem rfl

/-- A completed request is not active. -/
theorem Scheduled.not_active (h : Scheduled C requests s) (hids : (requests.map Request.requestId).Nodup)
    {c : Completion} (hc : c ∈ s.completed) : c.request ∉ s.active.map ActiveItem.request := by
  have hnodup := List.Nodup.of_map _ (Scheduled.sorted_nodup hids)
  rw [← h.fifo] at hnodup
  have hstarted := (List.nodup_append.mp hnodup).1
  rw [← h.placed.nodup_iff] at hstarted
  intro hmem
  exact (List.nodup_append.mp hstarted).2.2 _ (List.mem_map_of_mem hc) _ hmem rfl

/-! ## The operations -/

theorem scheduled_arrive (h : Scheduled C requests s) : Scheduled C requests s.arrive := by
  refine { h with fifo := ?_, arrived := ?_ }
  · unfold ContinuousState.arrive
    rw [← h.fifo, List.append_assoc s.waiting, List.takeWhile_append_dropWhile]
  · intro r hr
    rcases List.mem_append.mp hr with hr | hr
    · exact h.arrived r hr
    · exact of_decide_eq_true (List.all_eq_true.mp List.all_takeWhile r hr)

theorem scheduled_start (hC : C.Nonneg) (hids : (requests.map Request.requestId).Nodup) (h : Scheduled C requests s)
    {request : Request} {waiting : List Request} (hw : s.waiting = request :: waiting)
    (hfree : s.active.length < C.maxActiveRequests) :
    Scheduled C requests ((s.start C request waiting).activate request) := by
  have hmem : request ∈ s.waiting := by rw [hw]; exact List.mem_cons_self
  have hclock : s.clock.currentTime ≤ (s.clock.work (request.promptTokens * C.prefillTimePerToken)).currentTime :=
    le_add_of_nonneg_right (mul_nonneg (Nat.cast_nonneg _) hC.prefill)
  dsimp only [ContinuousState.start, ContinuousState.activate]
  constructor
  case fifo =>
    rw [← h.fifo, hw, started_append, List.append_assoc]
    rfl
  case placed =>
    rw [started_append, List.map_append, ← List.append_assoc]
    exact h.placed.append_right [request]
  case arrived => exact fun r hr => le_trans (h.arrived r (by rw [hw]; exact List.mem_cons_of_mem _ hr)) hclock
  case startTimes =>
    intro p hp
    simp only [starts_append, starts_prefill, List.mem_append, List.mem_singleton] at hp
    rcases hp with hp | rfl
    · obtain ⟨harr, hle, hdict⟩ := h.startTimes p hp
      have hne := h.fresh_id hids hmem (List.mem_map_of_mem hp)
      exact ⟨harr, le_trans hle hclock, (Function.update_of_ne hne _ _).trans hdict⟩
    · exact ⟨h.arrived request hmem, hclock, Function.update_self ..⟩
  case ordered =>
    simp only [starts_append, starts_prefill, List.map_append, List.map_cons, List.map_nil]
    refine List.pairwise_append.mpr ⟨h.ordered, List.pairwise_singleton _ _, ?_⟩
    intro t ht t' ht'
    obtain ⟨p, hp, rfl⟩ := List.mem_map.mp ht
    rw [List.mem_singleton.mp ht']
    exact (h.startTimes p hp).2.1
  case completed =>
    intro c hc
    obtain ⟨hstart, hle, hnow⟩ := h.completed c hc
    refine ⟨?_, hle, le_trans hnow hclock⟩
    rw [starts_append]
    exact List.mem_append_left _ hstart
  case accounted => exact h.accounted.work _
  case idleTime => simpa [GpuClock.work, GpuEvent.idleTime] using h.idleTime
  case capacity =>
    rw [List.length_append]
    exact hfree
  case sets =>
    intro rs hrs
    simp only [decodeSets_append, decodeSets_prefill, List.append_nil] at hrs
    obtain ⟨hlen, hstarted⟩ := h.sets rs hrs
    refine ⟨hlen, fun r hr => ?_⟩
    rw [started_append]
    exact List.mem_append_left _ (hstarted r hr)
  case active =>
    intro item hitem
    rcases List.mem_append.mp hitem with hitem | hitem
    · obtain ⟨k, hpart, hrem⟩ := h.active item hitem
      exact ⟨k, hpart.append _, hrem⟩
    · rw [List.mem_singleton.mp hitem]
      refine ⟨0, takesPart_fresh (fun rs hrs hr => ?_) _, by simp, .inl rfl⟩
      exact h.fresh hids hmem ((h.sets rs hrs).2 request hr)
  case served => exact fun c hc => (h.served c hc).append fun rs hrs => absurd hrs List.not_mem_nil
  case idles =>
    intro since upTo hidle
    rcases List.mem_append.mp hidle with hidle | hidle
    · exact h.idles since upTo hidle
    · cases List.mem_singleton.mp hidle

theorem scheduled_admitWaiting (hC : C.Nonneg) (hids : (requests.map Request.requestId).Nodup) :
    ∀ (slots : Nat) {s : ContinuousState}, Scheduled C requests s → s.active.length + slots ≤ C.maxActiveRequests →
      Scheduled C requests (s.admitWaiting C slots) := by
  intro slots
  induction slots with
  | zero => intro s h _; exact h
  | succ slots ih =>
    intro s h hroom
    unfold ContinuousState.admitWaiting
    cases hw : s.waiting with
    | nil => exact h
    | cons request waiting =>
      -- what arrives during the prefill does not depend on the active requests
      have hstep : ((s.start C request waiting).arrive).activate request =
          ((s.start C request waiting).activate request).arrive := rfl
      simp only [hstep]
      refine ih (scheduled_arrive (scheduled_start hC hids h hw (by omega))) ?_
      simp only [ContinuousState.arrive, ContinuousState.activate, ContinuousState.start, List.length_append,
        List.length_singleton]
      omega

theorem scheduled_idleUntil (h : Scheduled C requests s) (hactive : s.active = []) (hwaiting : s.waiting = [])
    {next : Request} {pending : List Request} (hp : s.pending = next :: pending) :
    Scheduled C requests (s.idleUntil next.arrivalTime) := by
  unfold ContinuousState.idleUntil
  by_cases hlt : s.clock.currentTime < next.arrivalTime
  · rw [if_pos hlt]
    have hclock : s.clock.currentTime ≤ (s.clock.waitUntil next.arrivalTime).currentTime := by
      rw [GpuClock.waitUntil_currentTime]; exact le_max_left _ _
    constructor
    case fifo => simpa [started] using h.fifo
    case placed => simpa [started] using h.placed
    case arrived => exact fun r hr => le_trans (h.arrived r hr) hclock
    case startTimes =>
      intro p hp
      simp only [starts_append, starts_idle, List.append_nil] at hp
      obtain ⟨harr, hle, hdict⟩ := h.startTimes p hp
      exact ⟨harr, le_trans hle hclock, hdict⟩
    case ordered => simpa using h.ordered
    case completed =>
      intro c hc
      obtain ⟨hstart, hle, hnow⟩ := h.completed c hc
      exact ⟨by simpa using hstart, hle, le_trans hnow hclock⟩
    case accounted => exact h.accounted.waitUntil _
    case idleTime => simp [GpuClock.waitUntil, hlt, GpuEvent.idleTime, h.idleTime]
    case capacity => exact h.capacity
    case sets => simpa [started] using h.sets
    case active =>
      intro item hitem
      obtain ⟨k, hpart, hrem⟩ := h.active item hitem
      exact ⟨k, hpart.append _, hrem⟩
    case served => exact fun c hc => (h.served c hc).append fun rs hrs => absurd hrs List.not_mem_nil
    case idles =>
      intro since upTo hidle r hr harr
      rcases List.mem_append.mp hidle with hidle | hidle
      · exact h.idles since upTo hidle r hr harr
      · obtain ⟨rfl, rfl⟩ := GpuEvent.idle.inj (List.mem_singleton.mp hidle)
        -- a request that arrives before the next one is completed already
        have hsorted := sorted_pairwise requests
        have hmem : r ∈ sortedRequests requests := (sorted_perm requests).mem_iff.mpr hr
        rw [← h.fifo, hwaiting, hp, List.nil_append] at hsorted hmem
        rcases List.mem_append.mp hmem with hmem | hmem
        · rw [← h.placed.mem_iff, hactive, List.map_nil, List.append_nil] at hmem
          obtain ⟨c, hc, rfl⟩ := List.mem_map.mp hmem
          exact ⟨c, hc, rfl, (h.completed c hc).2.2⟩
        · have hle : next.arrivalTime ≤ r.arrivalTime := by
            rcases List.mem_cons.mp hmem with rfl | hmem
            · exact le_rfl
            · exact (List.pairwise_cons.mp (List.pairwise_append.mp hsorted).2.1).1 r hmem
          exact absurd harr (not_lt.mpr hle)
  · rw [if_neg hlt]
    exact h

theorem stepped_perm (items : List ActiveItem) :
    (((items.map ActiveItem.step).filter (·.remainingOutputTokens ≤ 0)).map ActiveItem.request ++
      ((items.map ActiveItem.step).filter (0 < ·.remainingOutputTokens)).map ActiveItem.request).Perm
      (items.map ActiveItem.request) := by
  have hsplit := List.filter_append_perm (fun item : ActiveItem => decide (item.remainingOutputTokens ≤ 0))
    (items.map ActiveItem.step)
  have hnot : (fun item : ActiveItem => !decide (item.remainingOutputTokens ≤ 0)) =
      fun item => decide (0 < item.remainingOutputTokens) := by
    funext item
    rw [← decide_not, decide_eq_decide, not_le]
  rw [hnot] at hsplit
  have hmap := hsplit.map ActiveItem.request
  rw [List.map_append, List.map_map (f := ActiveItem.step)] at hmap
  exact hmap

/-- A start time read out of the dict is the one of the log. -/
theorem Scheduled.dict_start (h : Scheduled C requests s) {item : ActiveItem} (hitem : item ∈ s.active) :
    (item.request, s.startTimes item.request.requestId) ∈ starts s.log ∧
      s.startTimes item.request.requestId ≤ s.clock.currentTime := by
  have hmem : item.request ∈ started s.log :=
    h.placed.mem_iff.mp (List.mem_append_right _ (List.mem_map_of_mem hitem))
  obtain ⟨p, hp, hreq⟩ := List.mem_map.mp hmem
  obtain ⟨_, hle, hdict⟩ := h.startTimes p hp
  rw [← hreq, hdict]
  exact ⟨hp, hle⟩

/-- After one more token an active request is either done with its steps or
goes on. -/
theorem Scheduled.stepped (h : Scheduled C requests s) {item : ActiveItem} (hitem : item ∈ s.active) :
    ∃ k : Nat, TakesPart item.request k [] (s.log ++ [.decode (s.active.map ActiveItem.request)]) ∧
      (ActiveItem.step item).remainingOutputTokens = item.request.outputTokens - k ∧
      ((ActiveItem.step item).remainingOutputTokens ≤ 0 → k = max 1 item.request.outputTokens) := by
  obtain ⟨k, hpart, hrem, hleft⟩ := h.active item hitem
  refine ⟨k + 1, hpart.join (List.mem_map_of_mem hitem), ?_, fun hdone => ?_⟩
  · simp only [ActiveItem.step, hrem]
    omega
  · simp only [ActiveItem.step] at hdone
    omega

/-- A decode step takes each active request one token further. -/
theorem scheduled_decode (hC : C.Nonneg) (hids : (requests.map Request.requestId).Nodup)
    (h : Scheduled C requests s) : Scheduled C requests (s.decode C) := by
  have hclock : s.clock.currentTime ≤
      (s.clock.work (C.decodeStepTimeBase + C.decodeStepTimePerRequest * s.active.length)).currentTime :=
    le_add_of_nonneg_right (add_nonneg hC.base (mul_nonneg hC.perRequest (Nat.cast_nonneg _)))
  have hstepped : ∀ item ∈ s.active.map ActiveItem.step, ∃ item₀ ∈ s.active,
      ActiveItem.step item₀ = item := fun item hitem => List.mem_map.mp hitem
  dsimp only [ContinuousState.decode]
  constructor
  case fifo => simpa [started] using h.fifo
  case placed =>
    rw [List.map_append, List.map_map, List.append_assoc, started_append]
    simp only [started, starts_decode, List.map_nil, List.append_nil]
    exact ((stepped_perm s.active).append_left _).trans h.placed
  case arrived => exact fun r hr => le_trans (h.arrived r hr) hclock
  case startTimes =>
    intro p hp
    simp only [starts_append, starts_decode, List.append_nil] at hp
    obtain ⟨harr, hle, hdict⟩ := h.startTimes p hp
    exact ⟨harr, le_trans hle hclock, hdict⟩
  case ordered => simpa using h.ordered
  case completed =>
    intro c hc
    simp only [starts_append, starts_decode, List.append_nil]
    rcases List.mem_append.mp hc with hc | hc
    · obtain ⟨hstart, hle, hnow⟩ := h.completed c hc
      exact ⟨hstart, hle, le_trans hnow hclock⟩
    · obtain ⟨item, hitem, rfl⟩ := List.mem_map.mp hc
      obtain ⟨item₀, hitem₀, rfl⟩ := hstepped item (List.mem_filter.mp hitem).1
      obtain ⟨hstart, hle⟩ := h.dict_start hitem₀
      exact ⟨hstart, le_trans hle hclock, le_rfl⟩
  case accounted => exact h.accounted.work _
  case idleTime => simpa [GpuClock.work, GpuEvent.idleTime] using h.idleTime
  case capacity =>
    refine le_trans (List.length_filter_le _ _) ?_
    rw [List.length_map]
    exact h.capacity
  case sets =>
    intro rs hrs
    simp only [decodeSets_append, decodeSets_decode, List.mem_append, List.mem_singleton] at hrs
    simp only [started_append, List.mem_append]
    rcases hrs with hrs | rfl
    · obtain ⟨hlen, hstarted⟩ := h.sets rs hrs
      exact ⟨hlen, fun r hr => .inl (hstarted r hr)⟩
    · refine ⟨by rw [List.length_map]; exact h.capacity, fun r hr => .inl ?_⟩
      exact h.placed.mem_iff.mp (List.mem_append_right _ hr)
  case active =>
    intro item hitem
    obtain ⟨hitem, hpos⟩ := List.mem_filter.mp hitem
    obtain ⟨item₀, hitem₀, rfl⟩ := hstepped item hitem
    obtain ⟨k, hpart, hrem, _⟩ := h.stepped hitem₀
    exact ⟨k, hpart, hrem, .inr (of_decide_eq_true hpos)⟩
  case served =>
    intro c hc
    rcases List.mem_append.mp hc with hc | hc
    · refine (h.served c hc).append fun rs hrs hmem => ?_
      rw [decodeSets_decode, List.mem_singleton] at hrs
      exact h.not_active hids hc (hrs ▸ hmem)
    · obtain ⟨item, hitem, rfl⟩ := List.mem_map.mp hc
      obtain ⟨hitem, hle⟩ := List.mem_filter.mp hitem
      obtain ⟨item₀, hitem₀, rfl⟩ := hstepped item hitem
      obtain ⟨k, hpart, _, hdone⟩ := h.stepped hitem₀
      obtain rfl := hdone (of_decide_eq_true hle)
      exact ⟨[], hpart, fun _ hrs => absurd hrs List.not_mem_nil⟩
  case idles =>
    intro since upTo hidle r hr harr
    rcases List.mem_append.mp hidle with hidle | hidle
    · obtain ⟨c, hc, hreq⟩ := h.idles since upTo hidle r hr harr
      exact ⟨c, List.mem_append_left _ hc, hreq⟩
    · cases List.mem_singleton.mp hidle

/-! ## One round -/

theorem admitWaiting_active : ∀ (slots : Nat) (s : ContinuousState),
    s.active.length ≤ (s.admitWaiting C slots).active.length := by
  intro slots
  induction slots with
  | zero => exact fun s => le_rfl
  | succ slots ih =>
    intro s
    unfold ContinuousState.admitWaiting
    cases hw : s.waiting with
    | nil => exact le_rfl
    | cons request waiting =>
      refine le_trans ?_ (ih _)
      simp [ContinuousState.activate, ContinuousState.arrive, ContinuousState.start]

/-- Without an active request after the admission, nobody was there to admit. -/
theorem admission_idle (hslots : 0 < C.maxActiveRequests) (h : (s.admission C).active = []) :
    s.active = [] ∧ s.arrive.waiting = [] ∧ s.admission C = s.arrive := by
  unfold ContinuousState.admission at h ⊢
  simp only at h ⊢
  have hactive : s.arrive.active = [] := by
    have hle := admitWaiting_active (C := C) (C.maxActiveRequests - s.arrive.active.length) s.arrive
    rw [h] at hle
    exact List.length_eq_zero_iff.mp (Nat.le_zero.mp hle)
  obtain ⟨slots, hs⟩ := Nat.exists_eq_add_one_of_ne_zero hslots.ne'
  rw [hactive, List.length_nil, Nat.sub_zero, hs] at h ⊢
  unfold ContinuousState.admitWaiting at h ⊢
  cases hw : s.arrive.waiting with
  | nil => exact ⟨hactive, rfl, by simp⟩
  | cons request waiting =>
    simp only [hw] at h
    have hle := admitWaiting_active (C := C) slots (((s.arrive.start C request waiting).arrive).activate request)
    rw [h] at hle
    simp [ContinuousState.activate] at hle

theorem scheduled_admission (hC : C.Nonneg) (hids : (requests.map Request.requestId).Nodup)
    (h : Scheduled C requests s) : Scheduled C requests (s.admission C) := by
  have harrive := scheduled_arrive h
  exact scheduled_admitWaiting hC hids _ harrive (by have := harrive.capacity; omega)

theorem scheduled_body (hC : C.Nonneg) (hids : (requests.map Request.requestId).Nodup) (total : Nat)
    {t : ContinuousState} (h : Scheduled C requests s) (hs : s.body C total = .next t) : Scheduled C requests t := by
  have hadmitted := scheduled_admission hC hids h
  unfold ContinuousState.body at hs
  by_cases htotal : s.completed.length < total
  · rw [if_pos htotal] at hs
    by_cases hactive : (s.admission C).active = []
    · simp only [hactive, if_true] at hs
      cases hp : (s.admission C).pending with
      | nil => rw [hp] at hs; cases hs
      | cons next pending =>
        simp only [hp, Loop.Round.next.injEq] at hs
        rw [← hs]
        refine scheduled_idleUntil hadmitted hactive ?_ hp
        obtain ⟨_, hwaiting, hsame⟩ := admission_idle hC.slots hactive
        rw [hsame, hwaiting]
    · simp only [hactive, if_false, Loop.Round.next.injEq] at hs
      rw [← hs]
      exact scheduled_decode hC hids hadmitted
  · rw [if_neg htotal] at hs
    cases hs

/-! ## The measure -/

/-- The decode steps that a request is in. -/
def Request.steps (r : Request) : Nat := max 1 r.outputTokens

def ActiveItem.stepsLeft (item : ActiveItem) : Nat := max 1 item.remainingOutputTokens.toNat

def ContinuousState.stepsLeft (s : ContinuousState) : Nat :=
  (s.waiting.map Request.steps).sum + (s.pending.map Request.steps).sum + (s.active.map ActiveItem.stepsLeft).sum

/-- The loop is about to be idle. -/
def ContinuousState.Stalled (s : ContinuousState) : Prop :=
  s.active = [] ∧ s.waiting = [] ∧ ∀ r ∈ s.pending.head?, s.clock.currentTime < r.arrivalTime

instance : DecidablePred ContinuousState.Stalled := fun _ => inferInstanceAs (Decidable (_ ∧ _ ∧ _))

/-- A round decodes a token or ends a stall. -/
def ContinuousState.measure (s : ContinuousState) : Nat :=
  2 * s.stepsLeft + if s.Stalled then 1 else 0

theorem stepsLeft_arrive (s : ContinuousState) : s.arrive.stepsLeft = s.stepsLeft := by
  have hsplit : (s.pending.map Request.steps).sum =
      ((s.pending.takeWhile fun r => r.arrivalTime ≤ s.clock.currentTime).map Request.steps).sum +
        ((s.pending.dropWhile fun r => r.arrivalTime ≤ s.clock.currentTime).map Request.steps).sum := by
    rw [← List.sum_append, ← List.map_append, List.takeWhile_append_dropWhile]
  unfold ContinuousState.stepsLeft ContinuousState.arrive
  simp only [List.map_append, List.sum_append]
  omega

theorem stepsLeft_admitWaiting : ∀ (slots : Nat) (s : ContinuousState),
    (s.admitWaiting C slots).stepsLeft = s.stepsLeft := by
  intro slots
  induction slots with
  | zero => exact fun s => rfl
  | succ slots ih =>
    intro s
    unfold ContinuousState.admitWaiting
    cases hw : s.waiting with
    | nil => rfl
    | cons request waiting =>
      have hstep : ((s.start C request waiting).arrive).activate request =
          ((s.start C request waiting).activate request).arrive := rfl
      simp only [ih, hstep, stepsLeft_arrive]
      simp only [ContinuousState.stepsLeft, ContinuousState.activate, ContinuousState.start, hw, List.map_append,
        List.map_cons, List.map_nil, List.sum_append, List.sum_cons, List.sum_nil, ActiveItem.stepsLeft, Request.steps,
        Int.toNat_natCast]
      omega

theorem stepsLeft_admission (s : ContinuousState) : (s.admission C).stepsLeft = s.stepsLeft := by
  unfold ContinuousState.admission
  rw [stepsLeft_admitWaiting, stepsLeft_arrive]

theorem stepsLeft_step (items : List ActiveItem) :
    (((items.map ActiveItem.step).filter (0 < ·.remainingOutputTokens)).map ActiveItem.stepsLeft).sum + items.length ≤
      (items.map ActiveItem.stepsLeft).sum := by
  induction items with
  | nil => exact le_rfl
  | cons item items ih =>
    simp only [List.map_cons, List.filter_cons, List.length_cons, List.sum_cons]
    by_cases h : 0 < item.step.remainingOutputTokens
    · simp only [h, decide_true, if_true, List.map_cons, List.sum_cons]
      simp only [ActiveItem.step, ActiveItem.stepsLeft] at h ih ⊢
      omega
    · simp only [h, decide_false, Bool.false_eq_true, if_false]
      simp only [ActiveItem.stepsLeft] at ih ⊢
      omega

theorem stepsLeft_decode (h : s.active ≠ []) : (s.decode C).stepsLeft < s.stepsLeft := by
  have hpos := List.length_pos_iff.mpr h
  have hle := stepsLeft_step s.active
  unfold ContinuousState.stepsLeft ContinuousState.decode
  dsimp only
  omega

theorem stalled_of_idle (hactive : s.active = []) (hwaiting : s.arrive.waiting = []) {next : Request}
    {pending : List Request} (hp : s.arrive.pending = next :: pending) : s.Stalled := by
  obtain ⟨hnone, htaken⟩ := List.append_eq_nil_iff.mp hwaiting
  have hpending : s.pending = next :: pending := by
    have hsplit := List.takeWhile_append_dropWhile (p := fun r : Request => decide (r.arrivalTime ≤ s.clock.currentTime))
      (l := s.pending)
    rw [htaken, List.nil_append] at hsplit
    exact hsplit.symm.trans hp
  refine ⟨hactive, hnone, ?_⟩
  rw [hpending] at htaken ⊢
  intro r hr
  obtain rfl := Option.some.inj hr
  by_contra hle
  simp [not_lt.mp hle] at htaken

theorem not_stalled_idleUntil {next : Request} {pending : List Request} (hp : s.pending = next :: pending) :
    ¬ (s.idleUntil next.arrivalTime).Stalled := by
  intro h
  obtain ⟨_, _, hhead⟩ := h
  have hpending : (s.idleUntil next.arrivalTime).pending = next :: pending := by
    unfold ContinuousState.idleUntil
    split_ifs <;> exact hp
  have htime : next.arrivalTime ≤ (s.idleUntil next.arrivalTime).clock.currentTime := by
    unfold ContinuousState.idleUntil
    split_ifs with h
    · rw [GpuClock.waitUntil_currentTime]; exact le_max_right _ _
    · exact not_lt.mp h
  rw [hpending] at hhead
  exact absurd (hhead next rfl) (not_lt.mpr htime)

theorem stepsLeft_idleUntil (time : ℚ) : (s.idleUntil time).stepsLeft = s.stepsLeft := by
  unfold ContinuousState.idleUntil
  split_ifs <;> rfl

theorem measure_body (hC : C.Nonneg) (total : Nat) {t : ContinuousState} (hs : s.body C total = .next t) :
    t.measure < s.measure := by
  have hsteps := stepsLeft_admission (C := C) s
  unfold ContinuousState.body at hs
  by_cases htotal : s.completed.length < total
  · rw [if_pos htotal] at hs
    by_cases hactive : (s.admission C).active = []
    · simp only [hactive, if_true] at hs
      cases hp : (s.admission C).pending with
      | nil => rw [hp] at hs; cases hs
      | cons next pending =>
        simp only [hp, Loop.Round.next.injEq] at hs
        obtain ⟨hnone, hwaiting, hsame⟩ := admission_idle hC.slots hactive
        have hbefore := stalled_of_idle hnone hwaiting (hsame ▸ hp)
        have hafter := not_stalled_idleUntil hp
        have hidle := stepsLeft_idleUntil (s := s.admission C) next.arrivalTime
        unfold ContinuousState.measure
        rw [← hs, if_pos hbefore, if_neg hafter]
        omega
    · simp only [hactive, if_false, Loop.Round.next.injEq] at hs
      have hlt := stepsLeft_decode (C := C) hactive
      unfold ContinuousState.measure
      rw [hs] at hlt
      split_ifs <;> omega
  · rw [if_neg htotal] at hs
    cases hs

/-! ## The schedule -/

structure CorrectSchedule (C : ContinuousConfig) (requests : List Request) (u : ContinuousState) : Prop where
  once : (u.completed.map Completion.request).Perm requests
  times : ∀ c ∈ u.completed, c.request.arrivalTime ≤ c.startTime ∧ c.startTime ≤ c.finishTime
  inOrder : ∀ c ∈ u.completed, ∀ d ∈ u.completed, (c.request.arrivalTime < d.request.arrivalTime ∨
    c.request.arrivalTime = d.request.arrivalTime ∧ [c.request, d.request].Sublist requests) → c.startTime ≤ d.startTime
  capacity : ∀ rs ∈ decodeSets u.log, rs.length ≤ C.maxActiveRequests
  served : ∀ c ∈ u.completed, Served c.request (max 1 c.request.outputTokens) u.log
  accounted : u.clock.currentTime = u.clock.gpuBusyTime + u.clock.gpuIdleTime
  idleTime : u.clock.gpuIdleTime = (u.log.map GpuEvent.idleTime).sum
  idles : ∀ since upTo, .idle since upTo ∈ u.log → ∀ r ∈ requests, r.arrivalTime < upTo →
    ∃ c ∈ u.completed, c.request = r ∧ c.finishTime ≤ since

/-- Where the loop is left, everything is completed. -/
theorem all_completed (hC : C.Nonneg) (hids : (requests.map Request.requestId).Nodup) {u : ContinuousState}
    (h : Scheduled C requests s) (hs : s.body C (sortedRequests requests).length = .leave u) :
    Scheduled C requests u ∧ u.active = [] ∧ u.waiting = [] ∧ u.pending = [] := by
  unfold ContinuousState.body at hs
  by_cases htotal : s.completed.length < (sortedRequests requests).length
  · rw [if_pos htotal] at hs
    by_cases hactive : (s.admission C).active = []
    · simp only [hactive, if_true] at hs
      cases hp : (s.admission C).pending with
      | nil =>
        simp only [hp, Loop.Round.leave.injEq] at hs
        obtain ⟨_, hwaiting, hsame⟩ := admission_idle hC.slots hactive
        rw [← hs]
        exact ⟨scheduled_admission hC hids h, hactive, by rw [hsame, hwaiting], hp⟩
      | cons next pending => rw [hp] at hs; cases hs
    · simp only [hactive, if_false] at hs
      cases hs
  · rw [if_neg htotal, Loop.Round.leave.injEq] at hs
    subst hs
    have hlength := congrArg List.length h.fifo
    have hplaced := h.placed.length_eq
    simp only [List.length_append, List.length_map] at hlength hplaced
    exact ⟨h, List.length_eq_zero_iff.mp (by omega), List.length_eq_zero_iff.mp (by omega),
      List.length_eq_zero_iff.mp (by omega)⟩

theorem pair_cons_iff {α : Type} {x a b : α} {l : List α} :
    [a, b].Sublist (x :: l) ↔ [a, b].Sublist l ∨ a = x ∧ b ∈ l := by
  rw [List.sublist_cons_iff]
  simp

theorem not_both_orders {α : Type} {a b : α} {l : List α} (hnodup : l.Nodup) (h : [a, b].Sublist l) :
    ¬ [b, a].Sublist l := by
  induction l with
  | nil => cases h
  | cons x l ih =>
    obtain ⟨hx, hnodup⟩ := List.nodup_cons.mp hnodup
    rw [pair_cons_iff] at h ⊢
    intro h
    rcases h with h' | ⟨rfl, ha⟩
    · rcases h with h | ⟨rfl, _⟩
      · exact ih hnodup h h'
      · exact hx (h'.subset (List.mem_cons_of_mem _ List.mem_cons_self))
    · rcases h with h | ⟨rfl, hb⟩
      · exact hx (h.subset (List.mem_cons_of_mem _ List.mem_cons_self))
      · exact hx ha

theorem pair_or_pair {α : Type} {a b : α} {l : List α} (ha : a ∈ l) (hb : b ∈ l) :
    a = b ∨ [a, b].Sublist l ∨ [b, a].Sublist l := by
  induction l with
  | nil => exact absurd ha List.not_mem_nil
  | cons x l ih =>
    rw [pair_cons_iff, pair_cons_iff]
    rcases List.mem_cons.mp ha with rfl | ha'
    · rcases List.mem_cons.mp hb with rfl | hb'
      · exact .inl rfl
      · exact .inr (.inl (.inr ⟨rfl, hb'⟩))
    · rcases List.mem_cons.mp hb with rfl | hb'
      · exact .inr (.inr (.inr ⟨rfl, ha'⟩))
      · rcases ih ha' hb' with h | h | h
        · exact .inl h
        · exact .inr (.inl (.inl h))
        · exact .inr (.inr (.inl h))

/-- Start times follow the order in which requests are started. -/
theorem Scheduled.inOrder (h : Scheduled C requests s) {p q : Request × ℚ} (hp : p ∈ starts s.log)
    (hq : q ∈ starts s.log) (hnot : ¬ [q.1, p.1].Sublist (started s.log)) : p.2 ≤ q.2 := by
  have hordered : ∀ p q, [p, q].Sublist (starts s.log) → p.2 ≤ q.2 :=
    fun _ _ => List.pairwise_iff_forall_sublist.mp (List.pairwise_map.mp h.ordered)
  rcases pair_or_pair hp hq with rfl | hsub | hsub
  · exact le_rfl
  · exact hordered p q hsub
  · exact absurd (hsub.map Prod.fst) hnot

theorem correct_of_done (hids : (requests.map Request.requestId).Nodup) {u : ContinuousState}
    (h : Scheduled C requests u) (hactive : u.active = []) (hwaiting : u.waiting = []) (hpending : u.pending = []) :
    CorrectSchedule C requests u := by
  have hstarted : started u.log = sortedRequests requests := by
    rw [← h.fifo, hwaiting, hpending, List.append_nil, List.append_nil]
  have hplaced := h.placed
  rw [hactive, List.map_nil, List.append_nil, hstarted] at hplaced
  refine ⟨hplaced.trans (sorted_perm requests), fun c hc => ?_, fun c hc d hd horder => ?_,
    fun rs hrs => (h.sets rs hrs).1, h.served, h.accounted, h.idleTime, h.idles⟩
  · obtain ⟨hstart, hle, _⟩ := h.completed c hc
    exact ⟨(h.startTimes _ hstart).1, hle⟩
  · refine h.inOrder (h.completed c hc).1 (h.completed d hd).1 ?_
    rw [hstarted]
    rcases horder with hlt | ⟨heq, hsub⟩
    · intro hsub
      have hle := List.pairwise_iff_forall_sublist.mp (sorted_pairwise requests) hsub
      exact absurd hlt (not_lt.mpr hle)
    · exact not_both_orders (List.Nodup.of_map _ (Scheduled.sorted_nodup hids)) (sorted_stable requests hsub heq.le)

end

end InferenceService
