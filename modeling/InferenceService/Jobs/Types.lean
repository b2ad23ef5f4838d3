import InferenceService.Lib.Stream
import InferenceService.Lib.Value
import Mathlib.Data.Prod.Lex

/-!
# Jobs, messages and leases

The values of the job queue. `V` is the type of JSON values; a record stands
for the JSON text of its state.
-/

namespace InferenceService

structure StreamId where
  ms : Nat
  seq : Nat
deriving DecidableEq, Repr

namespace StreamId

def lex (i : StreamId) : ℕ ×ₗ ℕ := toLex (i.ms, i.seq)

theorem lex_injective : Function.Injective lex := by
  intro i j h
  obtain ⟨h1, h2⟩ := Prod.mk.inj (toLex.injective h)
  cases i
  cases j
  simp only at h1 h2
  rw [h1, h2]

instance : LinearOrder StreamId := LinearOrder.lift' lex lex_injective

theorem lt_iff {i j : StreamId} : i < j ↔ i.ms < j.ms ∨ i.ms = j.ms ∧ i.seq < j.seq :=
  Prod.Lex.toLex_lt_toLex

instance : OrderBot StreamId where
  bot := ⟨0, 0⟩
  bot_le i := by
    refine not_lt.mp fun h => ?_
    rcases lt_iff.mp h with h | ⟨_, h⟩ <;> exact absurd h (Nat.not_lt_zero _)

/-- The id that `XADD *` takes at `now` after `last`. -/
def next (now : Nat) (last : StreamId) : StreamId :=
  if last.ms < now then ⟨now, 0⟩ else ⟨last.ms, last.seq + 1⟩

theorem lt_next (now : Nat) (last : StreamId) : last < last.next now := by
  unfold next
  by_cases h : last.ms < now
  · rw [if_pos h]; exact lt_iff.mpr (.inl h)
  · rw [if_neg h]; exact lt_iff.mpr (.inr ⟨rfl, Nat.lt_succ_self _⟩)

end StreamId

/-- What the copy of a mapping, `json.dumps` and the encoding of its text raise: what
`_encode_json` catches, or anything else, such as a `RecursionError`. -/
inductive DumpsError where
  | typeOrValueError (text : String)
  | other (typeName : String)

/-- `json.dumps` with the encoding of its text, `json.loads` and
`isinstance(_, dict)`. -/
structure JsonLib (V : Type) where
  dumps : V → Except DumpsError String
  loads : String → Except String V
  isDict : V → Bool

/-- `json` by itself: `json.dumps` passes lone surrogates on, and the client that
encodes its commands in UTF-8 does not. -/
structure JsonText (V : Type) where
  dumps : V → Except DumpsError Python.Str
  loads : String → Except String V
  isDict : V → Bool

def JsonText.lib {V : Type} (T : JsonText V) : JsonLib V where
  dumps v :=
    match T.dumps v with
    | .error e => .error e
    | .ok text =>
      match Python.encodeUtf8 text with
      | none => .error (.other "UnicodeEncodeError")
      | some encoded => .ok encoded
  loads := T.loads
  isDict := T.isDict

def JsonLib.RoundTrips {V : Type} (J : JsonLib V) : Prop :=
  ∀ v text, J.isDict v = true → J.dumps v = .ok text → J.loads text = .ok v

inductive JobStatus where
  | queued
  | running
  | succeeded
  | failed
deriving DecidableEq, Repr

def JobStatus.Terminal (s : JobStatus) : Prop := s = .succeeded ∨ s = .failed

structure JobState (V : Type) where
  jobId : String
  status : JobStatus
  createdAtMs : Int
  updatedAtMs : Int
  attemptCount : Nat
  worker : Option String := none
  deliveryToken : Option String := none
  result : Option V := none
  errorType : Option String := none
  errorMessage : Option String := none
deriving DecidableEq, Repr

structure JobMessage (V : Type) where
  streamId : StreamId
  jobId : String
  payload : V
  createdAtMs : Int
  reclaimed : Bool := false
deriving DecidableEq, Repr

structure JobLease (V : Type) where
  message : JobMessage V
  workerName : String
  deliveryToken : String
deriving DecidableEq, Repr

/-- What a method of the queue raises: an error of its own, or another exception. -/
inductive JobQueueError where
  | unavailable (message : String)
  | protocol (message : String)
  | valueError (message : String)
  | other (typeName : String)
deriving DecidableEq, Repr

/-- What redis-py raises: an error reply of the server, or any other
`RedisError`, such as a timeout. -/
inductive RedisError where
  | responseError (text : String)
  | other (text : String)
deriving DecidableEq, Repr

def RedisError.text : RedisError → String
  | responseError text => text
  | other text => text

end InferenceService
