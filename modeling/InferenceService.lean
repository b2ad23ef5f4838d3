import InferenceService.Lib.Lts
import InferenceService.Lib.Mealy
import InferenceService.Lib.Dialogue
import InferenceService.Lib.Holders
import InferenceService.Lib.Pool
import InferenceService.Lib.Spacing
import InferenceService.Lib.Loop
import InferenceService.Lib.Cursor
import InferenceService.Lib.Key
import InferenceService.Lib.Stream
import InferenceService.Lib.StreamIntact
import InferenceService.Lib.StreamStamps
import InferenceService.Lib.StreamPages
import InferenceService.Lib.StreamOwners
import InferenceService.Lib.Tile
import InferenceService.Lib.Regex
import InferenceService.Lib.Python
import InferenceService.Lib.Decimal
import InferenceService.Lib.FloatText
import InferenceService.Lib.Quantile
import InferenceService.Lib.Value
import InferenceService.Breaker.Types
import InferenceService.Breaker.Era
import InferenceService.Breaker.RedisScripts
import InferenceService.Breaker.RedisEra
import InferenceService.Breaker.RedisRun
import InferenceService.Breaker.RedisEras
import InferenceService.Breaker.RedisProbe
import InferenceService.Breaker.RedisTrip
import InferenceService.Breaker.RedisHint
import InferenceService.Breaker.Local
import InferenceService.Breaker.LocalEras
import InferenceService.Breaker.Agreement
import InferenceService.Breaker.LocalCalls
import InferenceService.Breaker.ProbeRate
import InferenceService.Breaker.RedisFallback
import InferenceService.Breaker.Outages
import InferenceService.Breaker.OutageSafety
import InferenceService.Jobs.Types
import InferenceService.Jobs.Queue
import InferenceService.Jobs.System
import InferenceService.Jobs.Steps
import InferenceService.Jobs.Places
import InferenceService.Jobs.Fencing
import InferenceService.Jobs.Final
import InferenceService.Jobs.Records
import InferenceService.Jobs.AttemptCount
import InferenceService.Jobs.Progress
import InferenceService.Jobs.Statuses
import InferenceService.Worker.Config
import InferenceService.Worker.ProcessOnce
import InferenceService.Worker.RedisQueue
import InferenceService.Worker.Replies
import InferenceService.Worker.Attempts
import InferenceService.Worker.Leases
import InferenceService.Worker.LeaseBound
import InferenceService.Worker.Takeover
import InferenceService.Worker.ReclaimScan
import InferenceService.Worker.Contained
import InferenceService.Worker.Calls
import InferenceService.Worker.Accounting
import InferenceService.Worker.Service
import InferenceService.Worker.ServiceSteps
import InferenceService.Worker.ServiceTruth
import InferenceService.Worker.Metrics
import InferenceService.Gateway.Execute
import InferenceService.Gateway.Generate
import InferenceService.Gateway.Probes
import InferenceService.Gateway.ProbeLease
import InferenceService.Gateway.Schemas
import InferenceService.Gateway.Vllm
import InferenceService.Gateway.Fallback
import InferenceService.Gateway.Multimodal
import InferenceService.Gateway.BagelService
import InferenceService.Gateway.BagelTruth
import InferenceService.Gateway.BagelFiles
import InferenceService.Gateway.BagelMetrics
import InferenceService.Gateway.Classified
import InferenceService.Gateway.JobRecords
import InferenceService.Gateway.JobReads
import InferenceService.Gateway.RetryHint
import InferenceService.Gateway.Readiness
import InferenceService.Gateway.JobHttp
import InferenceService.Gateway.Serving
import InferenceService.Gateway.Serialized
import InferenceService.Gateway.Totals
import InferenceService.Gateway.Balance
import InferenceService.Kernels.RmsNorm
import InferenceService.Kernels.Quantize
import InferenceService.Scripts.Requests
import InferenceService.Scripts.StaticBatching
import InferenceService.Scripts.ContinuousBatching
import InferenceService.Scripts.ContinuousSchedule
import InferenceService.Scripts.FullBenchmark
import InferenceService.Scripts.FinalAnswer
import InferenceService.Scripts.BatchedBenchmark
import InferenceService.Scripts.ExtractCode
import InferenceService.Scripts.HiddenReasoning
import InferenceService.Scripts.ImageDimensions
import InferenceService.Scripts.Percentiles
import InferenceService.Scripts.TextWorkload
import InferenceService.Scripts.BagelWorkload
