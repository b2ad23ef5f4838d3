import InferenceService.Gateway.Multimodal
import InferenceService.Lib.Holders
import InferenceService.Lib.Lts
import Mathlib.Data.List.Nodup

/-!
# The BAGEL service over whole runs

Any number of requests of `multimodal_generate`, each with a thread that runs
`_call_bagel` for it. When a request has timed out its thread goes on, unless it
has not begun.
-/

namespace InferenceService

/-! ## `_call_bagel` -/

def suffixByContentType : List (String × String) :=
  [("image/jpeg", ".jpg"), ("image/png", ".png"), ("image/webp", ".webp")]

structure TemporaryPath where
  name : String
  suffix : String
deriving DecidableEq, Repr

/-- What `predict` is given, the file by its suffix and its bytes. -/
structure Prediction where
  suffix : String
  imageBytes : List UInt8
  prompt : String
  showThinking : Bool
  doSample : Bool
  temperature : Python.Float
  maxNewTokens : Int
deriving DecidableEq, Repr

namespace MultimodalRequest

def suffix (r : MultimodalRequest) : Option String := r.contentType.bind fun t => suffixByContentType.lookup t

def prediction (r : MultimodalRequest) (suffix : String) (imageBytes : List UInt8) : Prediction where
  suffix
  imageBytes
  prompt := r.prompt
  showThinking := r.showThinking
  doSample := r.doSample
  temperature := r.temperature
  maxNewTokens := r.maxNewTokens

end MultimodalRequest

/-- Where a thread is; it has `skipped` a request that is rejected, or that has
timed out before the thread began. -/
inductive BagelPhase where
  | queued
  | opened (path : TemporaryPath)
  | written (path : TemporaryPath)
  | constructing (path : TemporaryPath)
  | connected (path : TemporaryPath)
  | predicting (path : TemporaryPath)
  | unlinking (path : TemporaryPath) (outcome : BagelOutcome)
  | ended (outcome : BagelOutcome)
  | skipped

inductive BagelAct where
  | createFile (name : String)
  | createFails (typeName : String)
  | write
  | writeFails (typeName : String) (written : List UInt8)
  | bagelClient
  | construct
  | predict
  | answer (result : Python.Str)
  | fail (text : Except String Python.Str)
  | unlink
  | unlinkFails (typeName : String)

/-- What the threads share: the temporary files with those that nobody will
remove, the cache of `_bagel_client`, and by request what BAGEL was asked, what
it answered and the texts of the exceptions. -/
structure BagelShared where
  files : TemporaryPath → Option (List UInt8)
  left : List TemporaryPath
  cached : Bool
  sent : List (Nat × Prediction)
  answers : List (Nat × Python.Str)
  errors : List (Nat × Python.Str)

/-- `raise BagelClientError(str(exc))`, where `str` itself may raise. -/
def failBagel (i : Nat) (path : TemporaryPath) (sh : BagelShared) : Except String Python.Str → BagelPhase × BagelShared
  | .ok text => (.unlinking path (.clientError text), { sh with errors := (i, text) :: sh.errors })
  | .error typeName => (.unlinking path (.ofException typeName), sh)

def callBagel (i : Nat) (r : MultimodalRequest) (sh : BagelShared) :
    BagelPhase → BagelAct → Option (BagelPhase × BagelShared)
  | .queued, .createFile name =>
    match r.suffix with
    | none => some (.ended (.ofException "KeyError"), sh)
    | some suffix =>
      -- the name is one that no file has
      if sh.files ⟨name, suffix⟩ = none then
        some (.opened ⟨name, suffix⟩, { sh with files := Function.update sh.files ⟨name, suffix⟩ (some []) })
      else none
  | .queued, .createFails typeName => some (.ended (.ofException typeName), sh)
  | .opened path, .write =>
    some (.written path, { sh with files := Function.update sh.files path (some r.imageBytes) })
  | .opened path, .writeFails typeName written =>
    -- `delete=False`, and not yet in the block that unlinks
    some (.ended (.ofException typeName),
      { sh with files := Function.update sh.files path (some written), left := path :: sh.left })
  | .written path, .bagelClient => some (if sh.cached then .connected path else .constructing path, sh)
  | .constructing path, .construct => some (.connected path, { sh with cached := true })
  | .connected path, .predict =>
    (sh.files path).map fun imageBytes =>
      (.predicting path, { sh with sent := (i, r.prediction path.suffix imageBytes) :: sh.sent })
  | .predicting path, .answer result =>
    some (.unlinking path (.answered result), { sh with answers := (i, result) :: sh.answers })
  | .constructing path, .fail text | .connected path, .fail text | .predicting path, .fail text =>
    some (failBagel i path sh text)
  | .unlinking path outcome, .unlink =>
    some (.ended outcome, { sh with files := Function.update sh.files path none })
  | .unlinking path _, .unlinkFails typeName =>
    some (.ended (.ofException typeName), { sh with left := path :: sh.left })
  | _, _ => none

/-! ## The service -/

/-- `reply` is `none` while the handler waits. -/
structure BagelCall where
  request : MultimodalRequest
  phase : BagelPhase
  reply : Option (Except MultimodalError MultimodalGenerateResponse)

structure BagelService where
  calls : List BagelCall
  shared : BagelShared
  metrics : MultimodalMetrics

inductive BagelServiceAct where
  | arrive (r : MultimodalRequest)
  | thread (i : Nat) (act : BagelAct)
  | respond (i : Nat) (latency : ℚ) (smi : NvidiaSmi)
  | timeOut (i : Nat) (latency : ℚ)

def BagelPhase.timedOut : BagelPhase → BagelPhase
  | queued => skipped
  | phase => phase

def arrived (config : MultimodalConfig) (r : MultimodalRequest) : BagelCall :=
  match checkRequest config r with
  | .error exc => ⟨r, .skipped, some (.error (.http exc))⟩
  | .ok () => ⟨r, .queued, none⟩

namespace BagelService

/-- The handler of call `i` goes on after `wait_for`. -/
def reply (config : MultimodalConfig) (s : BagelService) (i : Nat) (call : BagelCall) (phase : BagelPhase)
    (outcome : BagelOutcome) (latency : ℚ) (smi : NvidiaSmi) : BagelService :=
  let handled := multimodalGenerate config call.request outcome latency smi s.metrics
  { s with calls := s.calls.set i { call with phase, reply := some handled.2 }, metrics := handled.1 }

def step (config : MultimodalConfig) (s : BagelService) : BagelServiceAct → Option BagelService
  | .arrive r => some { s with calls := s.calls ++ [arrived config r] }
  | .thread i act =>
    s.calls[i]?.bind fun call => (callBagel i call.request s.shared call.phase act).map fun (phase, shared) =>
      { s with calls := s.calls.set i { call with phase }, shared }
  | .respond i latency smi =>
    s.calls[i]?.bind fun call =>
      match call.reply, call.phase with
      | none, .ended outcome => some (s.reply config i call call.phase outcome latency smi)
      | _, _ => none
  | .timeOut i latency =>
    s.calls[i]?.bind fun call =>
      match call.reply with
      | none => some (s.reply config i call call.phase.timedOut .timedOut latency .osError)
      | some _ => none

end BagelService

def bagelService (config : MultimodalConfig) (gauges : GpuGauges) : Lts BagelService BagelServiceAct where
  init := ⟨[], ⟨fun _ => none, [], false, [], [], []⟩, ⟨fun _ => 0, fun _ => 0, [], gauges⟩⟩
  step s act := s.step config act

end InferenceService
