import AiProtect.Lib.Runs
import AiProtect.Core.Action
import AiProtect.Lib.RankIndex
import AiProtect.Policy.History
import AiProtect.Lib.Window
import AiProtect.Store.Anchor
import AiProtect.Policy.Threshold
import AiProtect.Policy.ActivityIndex
import AiProtect.Policy.ExactWindow
import AiProtect.Policy.Chain
import AiProtect.Policy.BlastRadius
import AiProtect.Store.Sqlite
import AiProtect.Policy.StateSync
import AiProtect.Policy.Merge
import AiProtect.Policy.SharedBudget
import AiProtect.Policy.PrivateStore
import AiProtect.Lib.SortedSets
import AiProtect.Store.Valkey
import AiProtect.Core.Text
import AiProtect.Ldap.Connector
import AiProtect.Proxy.BindState
import AiProtect.Ldap.Frame
import AiProtect.Lib.Interleaving
import AiProtect.Lib.SharedWriter
import AiProtect.Proxy.Relay
import AiProtect.Policy.Capacity
import AiProtect.Policy.SortedPast
import AiProtect.Ldap.LockChange
import AiProtect.Proxy.BindTracking
import AiProtect.Lib.CappedStore
import AiProtect.Proxy.Serve
import AiProtect.Store.Contract
import AiProtect.Store.ValkeyAlone
import AiProtect.Store.Backends
import AiProtect.Core.Lowercase
import AiProtect.Ldap.Spelling
import AiProtect.Ldap.Framing
import AiProtect.Proxy.StartTls
import AiProtect.Proxy.Rejection
import AiProtect.Core.Address
import AiProtect.Policy.Identities
import AiProtect.Lib.Ordering
import AiProtect.Upstream.Pool
import AiProtect.Upstream.Guards
import AiProtect.Upstream.Failover
import AiProtect.Upstream.Dial
import AiProtect.Store.AnchorRange
import AiProtect.Lib.Search
import AiProtect.Policy.Redaction
import AiProtect.Core.Audit
import AiProtect.Policy.Eviction
import AiProtect.Core.Health
import AiProtect.Lib.Glob
import AiProtect.Store.KeyScope
import AiProtect.Core.Metrics
import AiProtect.Policy.Config
import AiProtect.Proxy.Process
import AiProtect.Lib.Places
import AiProtect.Proxy.Reload
import AiProtect.Proxy.Mediation
import AiProtect.Proxy.UpstreamBudget
import AiProtect.Proxy.AuditTrail
import AiProtect.Proxy.Lifetimes
import AiProtect.Proxy.Restart
import AiProtect.Proxy.Supervisor
import AiProtect.Proxy.Probes
import AiProtect.Proxy.Exactness
import AiProtect.Proxy.Attribution
import AiProtect.Proxy.Outcomes
import AiProtect.Proxy.Startup
import AiProtect.Proxy.Refinement
