import Elura.Core.FrameStream
import Elura.Core.SnapshotBroadcast
import Elura.Realtime.ReplayPlayer
import Elura.Realtime.ReplicationPublisher
import Elura.Netcode.InputStream
import Elura.Adapters.RedisOutboxRun
import Elura.Runtime.DispatcherLeaseLoss
import Elura.Core.CredentialRun
import Elura.Gateway.ProtectionProbes
import Elura.Gateway.ProtectionEvidence
import Elura.Gateway.ProtectionPermits
import Elura.Adapters.RedisPresenceRun
import Elura.Gateway.ClusterDisplaced
import Elura.Gateway.WorldClientTimeout
import Elura.Adapters.OwnershipRun
import Elura.Adapters.LeaderElectionRun
import Elura.Sdk.SessionControl
import Elura.Sdk.Errors
import Elura.Gateway.ProxyHeader
import Elura.Gateway.RateLimiter
import Elura.Adapters.RedisDiscovery
import Elura.Gateway.Drain
import Elura.Core.CredentialUse
import Elura.Gateway.PushStream
import Elura.Gateway.Topics
import Elura.Realtime.RoomLoop
import Elura.Netcode.EntityPrediction
import Elura.Replication.Bookkeeping
import Elura.Adapters.StreamKey
import Elura.Gateway.SessionTables
import Elura.World.Builder
