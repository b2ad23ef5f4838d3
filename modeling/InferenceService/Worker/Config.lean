import InferenceService.Lib.Double
import Mathlib.Algebra.Order.Field.Rat
import Mathlib.Tactic.NormNum

/-!
# The worker settings of `app.config`

The environment after `int` and `float` have read it; a variable that is not
set is `none`. The lease is computed in doubles, as `app.config` does; the
socket time-outs are exact.
-/

namespace InferenceService

structure Environment where
  vllmTimeoutSeconds : Option Double := none
  vllmFallbackTimeoutSeconds : Option Double := none
  resilienceRetryAttempts : Option Int := none
  jobQueueSocketTimeoutSeconds : Option ℚ := none
  jobWorkerBlockMs : Option Int := none
  jobWorkerReclaimIdleMs : Option Int := none
  jobWorkerBatchSize : Option Int := none
  jobWorkerSocketTimeoutSeconds : Option ℚ := none

/-- `_DEFAULT_JOB_WORKER_RECLAIM_IDLE_MS`. -/
def defaultReclaimIdleMs (retryAttempts : Int) (timeoutSeconds fallbackTimeoutSeconds : Double) : Int :=
  let attempts : Double := .ofRat ((retryAttempts + 2 : Int) : ℚ)
  max 1200000
    (Python.trunc (attempts * max timeoutSeconds fallbackTimeoutSeconds * .ofRat 1000 + .ofRat 60000).value)

structure WorkerConfig where
  blockMs : Int
  reclaimIdleMs : Int
  batchSize : Int
  socketTimeoutSeconds : ℚ
  block_nonneg : 0 ≤ blockMs
  reclaim_pos : 0 < reclaimIdleMs
  batch_pos : 0 < batchSize
  block_lt : (blockMs : ℚ) / 1000 < socketTimeoutSeconds

namespace Environment
variable (env : Environment)

def vllmTimeout : Double := env.vllmTimeoutSeconds.getD (.ofRat 300)

def vllmFallbackTimeout : Double := env.vllmFallbackTimeoutSeconds.getD env.vllmTimeout

def retryAttempts : Int := env.resilienceRetryAttempts.getD 1

def queueSocketTimeout : ℚ := env.jobQueueSocketTimeoutSeconds.getD (1 / 2)

def blockMs : Int := env.jobWorkerBlockMs.getD 1000

def reclaimIdleMs : Int :=
  env.jobWorkerReclaimIdleMs.getD
    (defaultReclaimIdleMs env.retryAttempts env.vllmTimeout env.vllmFallbackTimeout)

def batchSize : Int := env.jobWorkerBatchSize.getD 10

def socketTimeout : ℚ :=
  env.jobWorkerSocketTimeoutSeconds.getD (max env.queueSocketTimeout ((env.blockMs : ℚ) / 1000 + 5))

/-- The checks, in the order in which `app.config` makes them. -/
def workerConfig : Except String WorkerConfig :=
  if env.queueSocketTimeout ≤ 0 then .error "JOB_QUEUE_SOCKET_TIMEOUT_SECONDS must be positive"
  else if hblock : env.blockMs < 0 then .error "JOB_WORKER_BLOCK_MS must not be negative"
  else if hreclaim : env.reclaimIdleMs ≤ 0 then .error "JOB_WORKER_RECLAIM_IDLE_MS must be positive"
  else if hbatch : env.batchSize ≤ 0 then .error "JOB_WORKER_BATCH_SIZE must be positive"
  else if hsocket : env.socketTimeout ≤ (env.blockMs : ℚ) / 1000 then
    .error "JOB_WORKER_SOCKET_TIMEOUT_SECONDS must exceed JOB_WORKER_BLOCK_MS / 1000"
  else
    .ok ⟨env.blockMs, env.reclaimIdleMs, env.batchSize, env.socketTimeout, not_lt.mp hblock, not_le.mp hreclaim,
      not_le.mp hbatch, not_le.mp hsocket⟩

end Environment

/-! ## The defaults pass their checks -/

theorem default_reclaimIdleMs_pos (retryAttempts : Int) (timeoutSeconds fallbackTimeoutSeconds : Double) :
    0 < defaultReclaimIdleMs retryAttempts timeoutSeconds fallbackTimeoutSeconds :=
  lt_of_lt_of_le (by decide) (le_max_left _ _)

theorem defaultReclaimIdleMs_default : defaultReclaimIdleMs 1 (.ofRat 300) (.ofRat 300) = 1200000 := by
  decide +kernel

def defaultConfig : WorkerConfig := ⟨1000, 1200000, 10, 6, by decide, by decide, by decide, by norm_num⟩

theorem workerConfig_default : ({} : Environment).workerConfig = .ok defaultConfig := by
  have hblock : ({} : Environment).blockMs = 1000 := rfl
  have hreclaim : ({} : Environment).reclaimIdleMs = 1200000 := defaultReclaimIdleMs_default
  have hbatch : ({} : Environment).batchSize = 10 := rfl
  have hsocket : ({} : Environment).socketTimeout = 6 := by
    show max (1 / 2 : ℚ) (((1000 : Int) : ℚ) / 1000 + 5) = 6
    norm_num
  unfold Environment.workerConfig
  simp only [hblock, hreclaim, hbatch, hsocket]
  norm_num [Environment.queueSocketTimeout, defaultConfig]

end InferenceService
