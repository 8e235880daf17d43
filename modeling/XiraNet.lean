import XiraNet.Gateway.Probes
import XiraNet.Lib.Table
import XiraNet.Lib.Text
import XiraNet.Registry.Models
import XiraNet.Registry.Registry
import XiraNet.Bus
import XiraNet.Gateway.EntryPoints
import XiraNet.Identity.Authenticator
import XiraNet.Identity.Cluster
import XiraNet.Identity.DisableUser
import XiraNet.Identity.Revocation
import XiraNet.Identity.SessionIndex
import XiraNet.Lib.Path
import XiraNet.Middleware.ApiKey
import XiraNet.Middleware.Jwt
import XiraNet.Registry.Durability
import XiraNet.Gateway.BreakerContract
import XiraNet.Gateway.HalfOpen
import XiraNet.Identity.Logout
import XiraNet.Identity.Restart
import XiraNet.Lib.Broadcast
import XiraNet.Middleware.WafRules
import XiraNet.Gateway.Credentials
import XiraNet.Gateway.Retry
import XiraNet.Lib.LruCache
import XiraNet.Gateway.Versions
import XiraNet.Gateway.RoutedCache
import XiraNet.Registry.Transparency
import XiraNet.Identity.UserRestart
import XiraNet.Identity.Lockout
import XiraNet.Identity.MfaBinding
import XiraNet.Identity.Registration
import XiraNet.Middleware.WafCounter
import XiraNet.Middleware.RateLimit
import XiraNet.Gateway.EndToEnd
import XiraNet.Gateway.Accounting
import XiraNet.Middleware.ClientIp
import XiraNet.Alerting.UrlGuard
import XiraNet.Alerting.Connections
import XiraNet.Alerting.Deliveries
import XiraNet.Automation.Cron
import XiraNet.Lib.Toml
import XiraNet.Config.XiraConfig
import XiraNet.Config.Boot
import XiraNet.Config.Runtime
import XiraNet.Observability.Incidents
import XiraNet.Health.Checker
import XiraNet.Health.Findings
import XiraNet.Lib.Cyclic
import XiraNet.Gateway.RoundRobin
import XiraNet.Gateway.InFlight
import XiraNet.Gateway.RetryLoop
import XiraNet.Gateway.RetryBranch
import XiraNet.Gateway.Transforms
import XiraNet.Registry.Prefixes
import XiraNet.Registry.Lookup
import XiraNet.Registry.Discovery
import XiraNet.Lib.PercentRounds
import XiraNet.Middleware.WafNormalize
import XiraNet.Lib.AnchoredWindow
import XiraNet.Identity.LockoutRate
import XiraNet.Middleware.NormalizedPaths
import XiraNet.Middleware.WafVerdicts
import XiraNet.Lib.IpNetwork
import XiraNet.Middleware.IpFilter
import XiraNet.Alerting.GuardedAddresses
import XiraNet.Automation.Schedules
import XiraNet.Automation.CronRemoval
import XiraNet.Automation.CronOverlap
import XiraNet.Automation.CronRestart
import XiraNet.Lib.KeyedList
import XiraNet.Gateway.RequestQueue
import XiraNet.Deployment.Releases
import XiraNet.Observability.IncidentRecord
import XiraNet.Middleware.OAuth2Gateway
import XiraNet.Lib.SortedMap
import XiraNet.Lib.KeyMoves
import XiraNet.Gateway.BodyTransform
import XiraNet.Automation.Workflows
import XiraNet.Automation.WorkflowReports
import XiraNet.Lib.Patterns
import XiraNet.Plugins.LuaEngine
import XiraNet.Plugins.ScriptRoundTrip
import XiraNet.Lib.RegExp
import XiraNet.Dbgateway.SqlText
import XiraNet.Dbgateway.QueryFirewall
import XiraNet.Dbgateway.FullTableWrites
import XiraNet.Dbgateway.Routing
import XiraNet.Gateway.EdgeCache
import XiraNet.Datapipeline.Pipeline
import XiraNet.Metrics.Sla
import XiraNet.Deployment.FeatureFlags
import XiraNet.Lib.RwLock
import XiraNet.Middleware.ApiKeys
import XiraNet.Identity.SecretBox
import XiraNet.Identity.SecretsBoot
import XiraNet.Cli.TokenStore
import XiraNet.Lib.ExpiringCounters
import XiraNet.Middleware.RedisRateLimit
import XiraNet.Lib.BoundedQueue
import XiraNet.Middleware.AuditSink
import XiraNet.Middleware.AuditIsolation
import XiraNet.Lib.Postings
import XiraNet.Observability.LogAggregator
import XiraNet.Lib.CumulativePick
import XiraNet.Gateway.Canary
import XiraNet.Lib.BitGroups
import XiraNet.Identity.Base32
import XiraNet.Identity.Totp
import XiraNet.Lib.Utf8Offsets
import XiraNet.Middleware.UnicodeEscapes
import XiraNet.Lib.DashCount
import XiraNet.Identity.AuthScope
import XiraNet.Identity.Authority
import XiraNet.Identity.Authenticity
import XiraNet.Lib.Relay
import XiraNet.Gateway.WebSocket
import XiraNet.Lib.LossyChannel
import XiraNet.Automation.EventBus
import XiraNet.Middleware.Layers
import XiraNet.Middleware.RequestLog
import XiraNet.Bus.RedisBus
import XiraNet.Lib.LruRecency
import XiraNet.Gateway.CacheRetention
import XiraNet.Cli.ExportImport
import XiraNet.Bus.RedisRevocation
import XiraNet.Registry.Concurrent
import XiraNet.Registry.Consistency
import XiraNet.Middleware.WafReload
import XiraNet.Middleware.BotDetect
import XiraNet.Datapipeline.JsonPointer
import XiraNet.Datapipeline.Transforms
import XiraNet.Registry.DockerDiscovery
