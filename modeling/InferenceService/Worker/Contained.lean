import InferenceService.Jobs.Fencing
import InferenceService.Worker.Replies

/-!
# A job's own failure

One message from `mark_running` to the final write, with every value that
`generate_text` can return and every `Exception` that it can raise.
-/

namespace InferenceService

section
variable {V R : Type} (T : JsonText V)

/-- The states in which the commands of a message arrive, and what the clock,
`uuid4` and `generate_text` answer. -/
structure MessageRun (V R : Type) where
  markGet : QueueSys V
  deliveryToken : String
  markNowMs : Int
  markEval : QueueSys V
  generateText : R → Except PyException V
  finalGet : QueueSys V
  finalNowMs : Int
  finalEval : QueueSys V

variable (G : RequestModel V R) (w : JobWorker) (m : JobMessage V)

namespace MessageRun
variable (c : MessageRun V R)

def markCall : MarkCall V := ⟨m, w.consumerName, c.deliveryToken, c.markGet.redis.job m.jobId, c.markNowMs⟩

/-- `complete` or `fail`, and the server after it. -/
def finish (lease : JobLease V) (outcome : JobOutcome V) : Except JobQueueError Bool × JobRedis V :=
  match finalizeCall T.lib lease (c.finalGet.redis.job m.jobId) outcome c.finalNowMs with
  | .error e => (.error e, c.finalEval.redis)
  | .ok none => (.ok false, c.finalEval.redis)
  | .ok (some call) => (finalizeResult (finalizeLua call c.finalEval.redis).1, (finalizeLua call c.finalEval.redis).2)

def answers : MessageAnswers V R where
  markRunning := markRunningResult (c.markCall w m) (markRunningLua (c.markCall w m) c.markEval.redis).1
  generateText := c.generateText
  complete lease result := (c.finish T m lease (.complete result)).1
  fail lease errorType errorMessage := (c.finish T m lease (.fail errorType errorMessage)).1

/-- The server after the last command of the message. -/
def after : JobRedis V :=
  match (c.answers T w m).markRunning with
  | .ok (some lease) =>
    match settled (attempt T.lib G c.generateText m.payload) with
    | .ok outcome => (c.finish T m lease outcome).2
    | .error _ => c.finalEval.redis
  | _ => c.finalEval.redis

/-- `_process_message`, and the server after it. -/
def processMessage : Except JobQueueError MessageOutcome × JobRedis V :=
  (InferenceService.processMessage T.lib G (c.answers T w m) m, c.after T G w m)

/-- The commands arrive in this order, with any steps of any client in between. -/
structure Happens (J : JsonLib V) : Prop where
  markGet : Ready J c.markGet
  markEval : Later J c.markGet c.markEval
  finalGet : Later J c.markEval c.finalGet
  finalEval : Later J c.finalGet c.finalEval

/-! ## What a contained failure is -/

/-- The worker owns the entry when the scripts run, and the record is there
with the token of the lease. -/
structure Retained : Prop where
  markEval : c.markEval.redis.stream.owner m.streamId = some w.consumerName
  finalGet : ∃ state, c.finalGet.redis.job m.jobId = some state ∧ state.deliveryToken = some c.deliveryToken
  finalEval : ∃ state, c.finalEval.redis.job m.jobId = some state ∧ state.deliveryToken = some c.deliveryToken
  owner : c.finalEval.redis.stream.owner m.streamId = some w.consumerName

def Matches (body : Except PyException V) (outcome : MessageOutcome) (state : JobState V) : Prop :=
  match body with
  | .ok result => outcome = .succeeded ∧ state.status = .succeeded ∧ state.result = some result
  | .error exc => outcome = .failed ∧ state.status = .failed ∧ state.errorType = some exc.typeName ∧
      ∃ message, exc.message = .ok message ∧ state.errorMessage = Python.encodeUtf8 (message.take 1000)

structure Contained : Prop where
  retained : c.Retained w m → ∃ outcome state, (c.processMessage T G w m).1 = .ok outcome ∧
    (c.processMessage T G w m).2.job m.jobId = some state ∧
    Matches (attempt T.lib G c.generateText m.payload) outcome state ∧
    m.streamId ∉ (c.processMessage T G w m).2.stream.pendingIds ∧
    m.streamId ∉ (c.processMessage T G w m).2.stream.ids
  lost : ¬ c.Retained w m → c.processMessage T G w m = (.ok .skipped, c.finalEval.redis)

/-- The lease is granted, and no text can be made of the exception in which the
body ends, or none can be written of its end while the record still carries the
lease's token. -/
def Escapes : Prop :=
  c.markEval.redis.stream.owner m.streamId = some w.consumerName ∧
    (Unprintable (attempt T.lib G c.generateText m.payload) ∨
      Unwritable T (attempt T.lib G c.generateText m.payload) ∧
        ∃ state, c.finalGet.redis.job m.jobId = some state ∧ state.deliveryToken = some c.deliveryToken)

/-! ## The steps of one message -/

variable {T G w m c}

theorem mark_zero {call : MarkCall V} {r : JobRedis V} (hg : r.stream.group.isSome = true)
    (h : r.stream.owner call.message.streamId ≠ some call.workerName) : (markRunningLua call r).1 = .ok 0 := by
  obtain ⟨g, hg⟩ := Option.isSome_iff_exists.mp hg
  unfold markRunningLua
  split
  · rename_i hnone
    simp [Redis.Stream.xpending, hg] at hnone
  · rfl
  · rename_i n ns hn
    exact congrArg Prod.fst (if_pos fun heq => h (by rw [owner_of_xpending hn, heq]))

theorem processMessage_refused (hg : c.markEval.redis.stream.group.isSome = true)
    (h : c.markEval.redis.stream.owner m.streamId ≠ some w.consumerName) :
    c.processMessage T G w m = (.ok .skipped, c.finalEval.redis) := by
  have hmark : (c.answers T w m).markRunning = .ok none := by
    unfold answers
    rw [mark_zero hg h]
    rfl
  unfold processMessage after InferenceService.processMessage
  rw [hmark]

def reported (body : Except PyException V) (finalized : Bool) : MessageOutcome :=
  if finalized then
    match body with
    | .ok _ => .succeeded
    | .error _ => .failed
  else .skipped

theorem processMessage_granted (h : c.markEval.redis.stream.owner m.streamId = some w.consumerName)
    {body : Except PyException V} (hbody : attempt T.lib G c.generateText m.payload = body) :
    c.processMessage T G w m =
      match settled body with
      | .error typeName => (.error (.other typeName), c.finalEval.redis)
      | .ok outcome => ((c.finish T m ⟨m, w.consumerName, c.deliveryToken⟩ outcome).1.map (reported body),
          (c.finish T m ⟨m, w.consumerName, c.deliveryToken⟩ outcome).2) := by
  have hmark : (c.answers T w m).markRunning = .ok (some ⟨m, w.consumerName, c.deliveryToken⟩) := by
    unfold answers
    rcases markRunning_cases (c.markCall w m) c.markEval.redis with ⟨_, hlua⟩ | ⟨hne, _⟩
    · rw [hlua]
      rfl
    · exact absurd h hne
  have hgen : (c.answers T w m).generateText = c.generateText := rfl
  unfold processMessage after InferenceService.processMessage
  rw [hmark]
  simp only [hgen, hbody]
  cases body with
  | ok result => rfl
  | error exc =>
    unfold settled
    cases hmessage : exc.message with
    | error typeName => simp only [Except.map, hmessage]
    | ok message =>
      simp only [Except.map, hmessage]
      rfl

theorem finish_stale {lease : JobLease V} {outcome : JobOutcome V}
    (h : ¬ ∃ state, c.finalGet.redis.job m.jobId = some state ∧ state.deliveryToken = some lease.deliveryToken) :
    c.finish T m lease outcome = (.ok false, c.finalEval.redis) := by
  have hcall : finalizeCall T.lib lease (c.finalGet.redis.job m.jobId) outcome c.finalNowMs = .ok none := by
    unfold finalizeCall
    cases hs : stateForTerminalUpdate lease (c.finalGet.redis.job m.jobId) with
    | none => rfl
    | some state => exact absurd ⟨state, stateForTerminalUpdate_some.mp hs⟩ h
  unfold finish
  rw [hcall]

section
variable {lease : JobLease V} {outcome : JobOutcome V} {state : JobState V}
  (hread : c.finalGet.redis.job m.jobId = some state ∧ state.deliveryToken = some lease.deliveryToken)
include hread

theorem finish_unwritable {e : JobQueueError} (h : encodeOutcome T.lib outcome = .error e) :
    c.finish T m lease outcome = (.error e, c.finalEval.redis) := by
  have hcall : finalizeCall T.lib lease (c.finalGet.redis.job m.jobId) outcome c.finalNowMs = .error e := by
    unfold finalizeCall
    rw [stateForTerminalUpdate_some.mpr hread, h]
    rfl
  unfold finish
  rw [hcall]

theorem finish_written (h : encodeOutcome T.lib outcome = .ok ()) (hg : c.finalEval.redis.stream.group.isSome = true) :
    ((FinalizeCall.mk lease state outcome c.finalNowMs).Passes c.finalEval.redis → c.finish T m lease outcome =
        (.ok true, (FinalizeCall.mk lease state outcome c.finalNowMs).finalized c.finalEval.redis)) ∧
      (¬ (FinalizeCall.mk lease state outcome c.finalNowMs).Passes c.finalEval.redis →
        c.finish T m lease outcome = (.ok false, c.finalEval.redis)) := by
  have hcall : finalizeCall T.lib lease (c.finalGet.redis.job m.jobId) outcome c.finalNowMs =
      .ok (some ⟨lease, state, outcome, c.finalNowMs⟩) := by
    unfold finalizeCall
    rw [stateForTerminalUpdate_some.mpr hread, h]
    rfl
  unfold finish
  rw [hcall]
  constructor
  · intro hp
    rcases finalize_cases ⟨lease, state, outcome, c.finalNowMs⟩ c.finalEval.redis with ⟨_, hlua⟩ | ⟨hno, _⟩
    · dsimp only
      rw [hlua]
      rfl
    · exact absurd hp hno
  · intro hp
    dsimp only
    rw [finalize_zero hg hp]
    rfl

end

theorem matches_finalized {body : Except PyException V} {outcome : JobOutcome V} (hsettled : settled body = .ok outcome)
    (hencode : encodeOutcome T.lib outcome = .ok ()) (lease : JobLease V) (read : JobState V) (nowMs : Int) :
    Matches body (reported body true) (FinalizeCall.mk lease read outcome nowMs).state := by
  cases body with
  | ok result =>
    cases hsettled
    exact ⟨rfl, rfl, rfl⟩
  | error exc =>
    obtain ⟨message, hmessage, rfl⟩ := map_eq_ok.mp hsettled
    refine ⟨rfl, rfl, rfl, message, hmessage, ?_⟩
    unfold encodeOutcome at hencode
    cases hu : Python.encodeUtf8 (message.take 1000) with
    | none => simp only [hu, reduceCtorEq] at hencode
    | some encoded => exact congrArg some (Python.encodeUtf8_some hu).symm

theorem escapes_raises (h : c.Escapes T G w m) :
    ∃ e, (c.processMessage T G w m).1 = .error e ∧ ∀ text, e ≠ .unavailable text := by
  obtain ⟨howner, hends⟩ := h
  generalize hbody : attempt T.lib G c.generateText m.payload = body at hends
  rw [processMessage_granted howner hbody]
  cases hsettled : settled body with
  | error typeName => exact ⟨.other typeName, rfl, nofun⟩
  | ok outcome =>
    rcases hends with hun | ⟨hun, state, hread⟩
    · obtain ⟨typeName, herror⟩ := unprintable_iff.mp hun
      rw [hsettled] at herror
      cases herror
    · obtain ⟨e, he⟩ := (unwritable_iff hsettled).mp hun
      refine ⟨e, ?_, encodeOutcome_available he⟩
      simp only [@finish_unwritable _ _ T m c ⟨m, w.consumerName, c.deliveryToken⟩ outcome state hread e he]
      rfl

/-- A body that does not escape by its text has an outcome that can be written. -/
theorem exists_outcome {body : Except PyException V} (hprintable : ¬ Unprintable body) (hwritable : ¬ Unwritable T body) :
    ∃ outcome, settled body = .ok outcome ∧ encodeOutcome T.lib outcome = .ok () := by
  cases hsettled : settled body with
  | error typeName => exact absurd (unprintable_iff.mpr ⟨typeName, hsettled⟩) hprintable
  | ok outcome =>
    refine ⟨outcome, rfl, ?_⟩
    cases hencode : encodeOutcome T.lib outcome with
    | error e => exact absurd ((unwritable_iff hsettled).mpr ⟨e, hencode⟩) hwritable
    | ok u => rfl

theorem retained_finishes (hr : c.Retained w m) (hno : ¬ c.Escapes T G w m)
    (hg : c.finalEval.redis.stream.group.isSome = true) :
    ∃ outcome state, (c.processMessage T G w m).1 = .ok outcome ∧
      (c.processMessage T G w m).2.job m.jobId = some state ∧
      Matches (attempt T.lib G c.generateText m.payload) outcome state ∧
      m.streamId ∉ (c.processMessage T G w m).2.stream.pendingIds ∧
      m.streamId ∉ (c.processMessage T G w m).2.stream.ids := by
  obtain ⟨read, hread⟩ := hr.finalGet
  generalize hbody : attempt T.lib G c.generateText m.payload = body
  obtain ⟨outcome, hsettled, hencode⟩ : ∃ outcome, settled body = .ok outcome ∧ encodeOutcome T.lib outcome = .ok () := by
    subst hbody
    exact exists_outcome (fun h => hno ⟨hr.markEval, .inl h⟩) fun h => hno ⟨hr.markEval, .inr ⟨h, read, hread⟩⟩
  obtain ⟨hyes, _⟩ := @finish_written _ _ T m c ⟨m, w.consumerName, c.deliveryToken⟩ outcome read hread hencode hg
  rw [processMessage_granted hr.markEval hbody, hsettled]
  simp only [hyes ⟨hr.owner, hr.finalEval⟩]
  refine ⟨_, _, rfl, Function.update_self .., matches_finalized hsettled hencode _ _ _, ?_, ?_⟩
  · exact fun h => (Redis.Stream.mem_xack_pendingIds.mp h).2 rfl
  · exact fun h => (Redis.Stream.mem_xdel_ids.mp h).2 rfl

theorem lost_skips (hr : ¬ c.Retained w m) (hno : ¬ c.Escapes T G w m)
    (hmark : c.markEval.redis.stream.group.isSome = true) (hg : c.finalEval.redis.stream.group.isSome = true) :
    c.processMessage T G w m = (.ok .skipped, c.finalEval.redis) := by
  by_cases howner : c.markEval.redis.stream.owner m.streamId = some w.consumerName
  · generalize hbody : attempt T.lib G c.generateText m.payload = body
    have hprintable : ¬ Unprintable body := fun h => hno ⟨howner, .inl (hbody ▸ h)⟩
    have hskips : ∀ outcome, settled body = .ok outcome →
        c.finish T m ⟨m, w.consumerName, c.deliveryToken⟩ outcome = (.ok false, c.finalEval.redis) := by
      intro outcome hsettled
      by_cases hread : ∃ state, c.finalGet.redis.job m.jobId = some state ∧ state.deliveryToken = some c.deliveryToken
      · have hwritable : ¬ Unwritable T body := fun h => hno ⟨howner, .inr ⟨hbody ▸ h, hread⟩⟩
        obtain ⟨outcome', hsettled', hencode⟩ := exists_outcome hprintable hwritable
        rw [hsettled] at hsettled'
        cases hsettled'
        obtain ⟨state, hstate⟩ := hread
        obtain ⟨_, hskip⟩ := @finish_written _ _ T m c ⟨m, w.consumerName, c.deliveryToken⟩ outcome state hstate hencode hg
        exact hskip fun ⟨hown, hcur⟩ => hr ⟨howner, ⟨state, hstate⟩, hcur, hown⟩
      · exact finish_stale hread
    rw [processMessage_granted howner hbody]
    cases hsettled : settled body with
    | error typeName => exact absurd (unprintable_iff.mpr ⟨typeName, hsettled⟩) hprintable
    | ok outcome =>
      simp only [hskips outcome hsettled]
      rfl
  · exact processMessage_refused hmark howner

end MessageRun

end

section
variable {V R : Type} (T : JsonText V) (G : RequestModel V R) (w : JobWorker)

theorem MessageRun.not_contained {T : JsonText V} {G : RequestModel V R} {w : JobWorker} {m : JobMessage V}
    {c : MessageRun V R} (h : c.Escapes T G w m) : ¬ c.Contained T G w m := by
  intro hcont
  obtain ⟨e, he, _⟩ := MessageRun.escapes_raises h
  by_cases hr : c.Retained w m
  · obtain ⟨outcome, _, hok, _⟩ := hcont.retained hr
    rw [he] at hok
    cases hok
  · rw [hcont.lost hr] at he
    cases he

theorem MessageRun.Happens.contained {T : JsonText V} {G : RequestModel V R} {w : JobWorker} {m : JobMessage V}
    {c : MessageRun V R} (hc : c.Happens T.lib) (h : ¬ c.Escapes T G w m) : c.Contained T G w m := by
  have hmark := hc.markGet.later hc.markEval
  have hfinal := (hmark.later hc.finalGet).later hc.finalEval
  refine ⟨fun hr => ?_, fun hr => lost_skips hr h hmark.2 hfinal.2⟩
  exact retained_finishes hr h hfinal.2

/-! ## The batch and the main loop -/

/-- The loop of `process_once` over its messages. -/
def processMessages : List (JobMessage V × MessageRun V R) → Except JobQueueError (List MessageOutcome)
  | [] => .ok []
  | x :: batch => do
    let outcome ← (x.2.processMessage T G w x.1).1
    let outcomes ← processMessages batch
    .ok (outcome :: outcomes)

/-- `main` goes on to its next call of `process_once`. -/
def MainContinues {α : Type} : Except JobQueueError α → Prop
  | .ok _ => True
  | .error (.unavailable _) => True
  | .error _ => False

variable {T G w}

theorem MessageRun.Contained.finishes {m : JobMessage V} {c : MessageRun V R} (h : c.Contained T G w m) :
    ∃ outcome, (c.processMessage T G w m).1 = .ok outcome := by
  by_cases hr : c.Retained w m
  · obtain ⟨outcome, _, hok, _⟩ := h.retained hr
    exact ⟨outcome, hok⟩
  · exact ⟨.skipped, by rw [h.lost hr]⟩

/-- A message that escapes stops its batch and the main loop, and nothing else does. -/
theorem batch_continues_iff : ∀ {batch : List (JobMessage V × MessageRun V R)},
    (∀ x ∈ batch, x.2.Happens T.lib) →
      (MainContinues (processMessages T G w batch) ↔ ∀ x ∈ batch, ¬ x.2.Escapes T G w x.1) := by
  intro batch
  induction batch with
  | nil => exact fun _ => ⟨fun _ x hx => absurd hx List.not_mem_nil, fun _ => trivial⟩
  | cons x batch ih =>
    intro hc
    obtain ⟨hx, hrest⟩ := List.forall_mem_cons.mp hc
    rw [List.forall_mem_cons, ← ih hrest, processMessages]
    by_cases h : x.2.Escapes T G w x.1
    · obtain ⟨e, he, hne⟩ := MessageRun.escapes_raises h
      rw [he]
      refine ⟨fun hmain => ?_, fun hno => absurd h hno.1⟩
      match e, hne, hmain with
      | .unavailable text, hne, _ => exact absurd rfl (hne text)
    · obtain ⟨outcome, hok⟩ := MessageRun.Contained.finishes (hx.contained h)
      rw [hok]
      cases processMessages T G w batch with
      | ok outcomes => exact ⟨fun _ => ⟨h, trivial⟩, fun _ => trivial⟩
      | error e => exact ⟨fun hmain => ⟨h, hmain⟩, fun hmain => hmain.2⟩

end

/-! ## The replies of a run -/

section
variable {V R : Type} {T : JsonText V} {w : JobWorker} {m : JobMessage V} {c : MessageRun V R}

/-- The replies that a run gives a call of `process_once`. -/
structure MessageRun.Replies (c : MessageRun V R) (w : JobWorker) (m : JobMessage V) (x : MessageReplies V R) :
    Prop where
  deliveryToken : x.deliveryToken = c.deliveryToken
  markEval : x.markEval ≠ 0 ↔ c.markEval.redis.stream.owner m.streamId = some w.consumerName
  generateText : x.generateText = c.generateText
  finalGet : x.finalGet = c.finalGet.redis.job m.jobId

theorem MessageRun.Replies.escapes_iff {x : MessageReplies V R} (G : RequestModel V R) (h : c.Replies w m x) :
    x.Escapes T G m ↔ c.Escapes T G w m := by
  unfold MessageRun.Escapes MessageReplies.Escapes
  rw [h.markEval, h.generateText, h.finalGet, h.deliveryToken]

end

/-! ## Runs of one message -/

/-- Two dicts; `json.dumps` refuses the second. -/
def twoDicts : JsonText Bool where
  dumps v :=
    if v then .ok (Python.str "\x7b\x7d")
    else .error (.typeOrValueError "Object of type set is not JSON serializable")
  loads text := if text = "\x7b\x7d" then .ok true else .error "Expecting value"
  isDict _ := true

def anyRequest : RequestModel Bool Unit := ⟨fun _ => .ok (), fun _ => "hi"⟩

def claimedJob : List (QueueAct Bool) := [.enqueue "job" true 7, .ensureConsumerGroup, .readNew "worker" 1]

def stateAfter (as : List (QueueAct Bool)) : QueueSys Bool :=
  ((jobQueue twoDicts.lib).runFrom (jobQueue twoDicts.lib).init as).getD (jobQueue twoDicts.lib).init

def claimedMessage : JobMessage Bool := ⟨⟨0, 1⟩, "job", true, 7, false⟩

def worker : JobWorker := ⟨"worker", 1, 1, 1, true, ⊥, by decide, by decide, by decide, by decide⟩

def aloneRun (generateText : Unit → Except PyException Bool) : MessageRun Bool Unit where
  markGet := stateAfter claimedJob
  deliveryToken := "token"
  markNowMs := 8
  markEval := stateAfter (claimedJob ++ [.markGet 0 "worker" "token" 8])
  generateText
  finalGet := stateAfter (claimedJob ++ [.markGet 0 "worker" "token" 8, .markEval 0])
  finalNowMs := 9
  finalEval := stateAfter (claimedJob ++ [.markGet 0 "worker" "token" 8, .markEval 0])

theorem aloneRun_happens (generateText : Unit → Except PyException Bool) :
    (aloneRun generateText).Happens twoDicts.lib where
  markGet := ⟨⟨claimedJob, rfl⟩, rfl⟩
  markEval := ⟨[.markGet 0 "worker" "token" 8], rfl⟩
  finalGet := ⟨[.markEval 0], rfl⟩
  finalEval := ⟨[], rfl⟩

theorem aloneRun_retained (generateText : Unit → Except PyException Bool) :
    (aloneRun generateText).Retained worker claimedMessage where
  markEval := rfl
  finalGet := ⟨_, rfl, rfl⟩
  finalEval := ⟨_, rfl, rfl⟩
  owner := rfl

section
variable {V R : Type} (T : JsonText V) (G : RequestModel V R) (w : JobWorker) (m : JobMessage V) (c : MessageRun V R)

theorem message_contained_iff (hc : c.Happens T.lib) :
    c.Contained T G w m ↔ ¬ c.Escapes T G w m :=
  ⟨fun h hesc => MessageRun.not_contained hesc h, fun h => hc.contained h⟩

end

theorem message_contained_failed :
    let c := aloneRun fun _ => .error (raisedWith "RuntimeError" "boom")
    c.Retained worker claimedMessage ∧ c.Contained twoDicts anyRequest worker claimedMessage := by
  refine ⟨aloneRun_retained _, (message_contained_iff twoDicts anyRequest worker claimedMessage _
    (aloneRun_happens _)).mpr ?_⟩
  rintro ⟨_, hun | ⟨⟨message, hmessage, hnone⟩, _⟩⟩
  · obtain ⟨_, herror⟩ := unprintable_iff.mp hun
    cases herror
  · obtain rfl : Python.str "boom" = message := Except.ok.inj hmessage
    exact absurd hnone (by decide)

theorem refused_not_contained :
    let c := aloneRun fun _ => .ok false
    c.Happens twoDicts.lib ∧ c.Retained worker claimedMessage ∧ ¬ c.Contained twoDicts anyRequest worker claimedMessage :=
  ⟨aloneRun_happens _, aloneRun_retained _, MessageRun.not_contained ⟨rfl, .inr ⟨nofun, _, rfl, rfl⟩⟩⟩

end InferenceService
