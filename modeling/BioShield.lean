import BioShield.Machinery.Machine
import BioShield.Machinery.Fifo
import BioShield.Machinery.Process
import BioShield.Core.LockFreeQueue
import BioShield.Core.QueueRefinement
import BioShield.Api.PaymentOrders
import BioShield.Api.Paypal
import BioShield.Api.PaypalCredits
import BioShield.Api.PaypalInterleaved
import BioShield.Api.DeepfakeService
import BioShield.Api.VoiceAudit
import BioShield.Api.EnsembleVoting
import BioShield.Api.VerdictCache
import BioShield.Machinery.TokenBucket
import BioShield.Api.RateLimiter
import BioShield.Machinery.Dict
import BioShield.Api.AuthMiddleware
import BioShield.Api.BilledKey
import BioShield.Machinery.BoundedMap
import BioShield.Core.NicXdp
import BioShield.Core.NicXdpPolicy
import BioShield.Core.NicXdpRace
import BioShield.Api.Compression
import BioShield.Api.EngineAgreement
import BioShield.Api.MajorityVoters
import BioShield.Api.PaypalCheckout
import BioShield.Api.PaypalRefunds
import BioShield.Api.TenantIsolation
import BioShield.Core.MemoryPool
import BioShield.Core.QueueObservers
import BioShield.Core.KernelReads
import BioShield.Core.MainEngine
import BioShield.Core.ZeroCrossings
import BioShield.Core.FrequencyAnalyzer
import BioShield.Core.CrossCorrelation
import BioShield.Core.NicXdpPayload
import BioShield.Core.NicXdpCounters
import BioShield.Api.RiskRanking
import BioShield.Api.WaitTime
import BioShield.Api.Responses
import BioShield.Api.AuthResponses
import BioShield.Api.RetryAfter
import BioShield.Api.PaypalToken
import BioShield.Machinery.Regex
import BioShield.Api.Validators
import BioShield.Monitoring.EbpfExporter
import BioShield.Core.SpectralFlatness
import BioShield.Core.CapacityRounding
import BioShield.Machinery.Tiling
import BioShield.Core.MemoryTiling
import BioShield.Machinery.Statistics
import BioShield.Db.DetectAnomaly
import BioShield.Core.QueueProgress
import BioShield.Core.EngineThreads
import BioShield.Core.EngineReports
import BioShield.Core.EngineShutdown
import BioShield.Core.Tones
import BioShield.Api.MiddlewareStack
import BioShield.Machinery.ParallelFor
import BioShield.Core.MultiChannelProcessor
import BioShield.Machinery.JsonText
import BioShield.Machinery.Json
import BioShield.Api.CacheText
import BioShield.Api.AuditInterleaved
import BioShield.Api.Logger
import BioShield.Api.RequestLogging
import BioShield.Core.EbpfLoader
import BioShield.Core.PoolLifetimes
import BioShield.Db.AuditTrail
