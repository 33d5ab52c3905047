import EdoPlugin.Interleaving
import EdoPlugin.FirstMatch
import EdoPlugin.LeastValues
import EdoPlugin.ListFrames
import EdoPlugin.KeyedSums
import EdoPlugin.SlidingWindow
import EdoPlugin.Streams
import EdoPlugin.Text
import EdoPlugin.ConfigParser
import EdoPlugin.DatabaseInvariant
import EdoPlugin.DatabaseManager
import EdoPlugin.ConcurrentRebuilds
import EdoPlugin.FirewallPostcondition
import EdoPlugin.OwnerNetworks
import EdoPlugin.NetworkRaces
import EdoPlugin.FirewallCoherence
import EdoPlugin.NetworkOwnership
import EdoPlugin.PublicAccess
import EdoPlugin.Adoption
import EdoPlugin.KillSwitch
import EdoPlugin.DaemonReconcile
import EdoPlugin.IdleNetworks
import EdoPlugin.SpawnRollback
import EdoPlugin.TrackedSpawns
import EdoPlugin.FailedSpawn
import EdoPlugin.ContainerAddresses
import EdoPlugin.PublishedPorts
import EdoPlugin.ConflictRetry
import EdoPlugin.DoubleSpawn
import EdoPlugin.ServerFile
import EdoPlugin.ServerFileRaces
import EdoPlugin.PeerRollback
import EdoPlugin.VpnMembership
import EdoPlugin.PeerAgreement
import EdoPlugin.RpcWire
import EdoPlugin.AnsweredRequests
import EdoPlugin.RateLimiter
import EdoPlugin.RetryAfter
import EdoPlugin.Completion
import EdoPlugin.ConcurrentSubmissions
import EdoPlugin.AttemptLimit
import EdoPlugin.NativeDispatch
import EdoPlugin.ProgressFrame
import EdoPlugin.ResetReplay
import EdoPlugin.DynamicScoring
import EdoPlugin.RoundedScores
import EdoPlugin.RowRemoval
import EdoPlugin.KilledRows
import EdoPlugin.TtlEnforcement
import EdoPlugin.ContainerCap
import EdoPlugin.FlagOverlap
import EdoPlugin.SweepExtension
import EdoPlugin.SpawnsInFlight
import EdoPlugin.Lifetimes
import EdoPlugin.WorkerLease
import EdoPlugin.BackgroundJobs
import EdoPlugin.FlagWeights
import EdoPlugin.CleanupByName
import EdoPlugin.OwnerIsolation
import EdoPlugin.RpcService
import EdoPlugin.ContainerRecords
import EdoPlugin.AdoptedRows
import EdoPlugin.Restarts
import EdoPlugin.Confidentiality
import EdoPlugin.FirewallRemoval
import EdoPlugin.ServerIdentity
