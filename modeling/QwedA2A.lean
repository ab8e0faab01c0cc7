import QwedA2A.PyValue
import QwedA2A.EventRun
import QwedA2A.ExpiringTable
import QwedA2A.ArrivalCurve
import QwedA2A.TrustBoundary
import QwedA2A.TrustHistory
import QwedA2A.TrustRestriction
import QwedA2A.RateLimit
import QwedA2A.JtiRegistry
import QwedA2A.PyJson
import QwedA2A.DecimalRounding
import QwedA2A.PyDecimal
import QwedA2A.Schema
import QwedA2A.Finance
import QwedA2A.FinanceExact
import QwedA2A.LogicGuard
import QwedA2A.LogicOutcome
import QwedA2A.ClaimKeys
import QwedA2A.CodeGuard
import QwedA2A.Radix64
import QwedA2A.CryptoLib
import QwedA2A.Jwk
import QwedA2A.TrustedIssuers
import QwedA2A.Attestation
import QwedA2A.AttestationChecks
import QwedA2A.TokenLaws
import QwedA2A.SignedClaims
import QwedA2A.JwkExport
import QwedA2A.IssuerBinding
import QwedA2A.AuditContinuity
import QwedA2A.Replay
import QwedA2A.ReplayOnce
import QwedA2A.InjectedRegistry
import QwedA2A.ReplayKeys
import QwedA2A.Issuance
import QwedA2A.IssuanceUnique
import QwedA2A.Interceptor
import QwedA2A.PayloadDomain
import QwedA2A.PermitPool
import QwedA2A.EnginePool
import QwedA2A.EngineSlots
import QwedA2A.EngineReports
import QwedA2A.UniqueReading
import QwedA2A.CanonicalJson
import QwedA2A.JsonReading
import QwedA2A.PayloadBinding
import QwedA2A.Worklist
import QwedA2A.CodeBindings
import QwedA2A.CodeScan
import QwedA2A.CodeScanSound
import QwedA2A.Base64Strict
import QwedA2A.JtiHistory
import QwedA2A.CandidateOrder
import QwedA2A.Binary64
import QwedA2A.PyFloat
import QwedA2A.JsonLoads
import QwedA2A.JsonScan
import QwedA2A.TrustEnv
import QwedA2A.EnvGrants
import QwedA2A.AgentIds
import QwedA2A.StreamBudget
import QwedA2A.BodyLimit
import QwedA2A.Gateway
import QwedA2A.GatewayLoad
import QwedA2A.VerifyReturns
import QwedA2A.BucketAge
import QwedA2A.Telemetry
import QwedA2A.InterceptRun
import QwedA2A.InterceptLaws
import QwedA2A.InterceptIssuance
import QwedA2A.Handoff
import QwedA2A.ParsedJson
import QwedA2A.ParsedPayload
import QwedA2A.JsonRoundTrip
import QwedA2A.ApiKeys
import QwedA2A.Endpoints
import QwedA2A.RequestIdentity
import QwedA2A.RequestAnswers
import QwedA2A.TextPattern
import QwedA2A.RegexScan
import QwedA2A.OnceCell
import QwedA2A.KeyLoading
import QwedA2A.Monitor
import QwedA2A.BoundaryLock
import QwedA2A.BoundaryThreads
import QwedA2A.RegistryThreads
import QwedA2A.Throttle
import QwedA2A.WarnThrottle
import QwedA2A.PublishedKeys
