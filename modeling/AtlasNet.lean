import AtlasNet.Foundation.System
import AtlasNet.Foundation.Ledger
import AtlasNet.Foundation.Table
import AtlasNet.Foundation.KeyedQueue
import AtlasNet.HeuristicManifest
import AtlasNet.ManifestStore
import AtlasNet.WatchDog
import AtlasNet.BoundOwnership
import AtlasNet.ManifestReaders
import AtlasNet.BoundClaims
import AtlasNet.Connection
import AtlasNet.Packet
import AtlasNet.Registries
import AtlasNet.Interlink
import AtlasNet.InterlinkEffects
import AtlasNet.InterlinkRuns
import AtlasNet.ConnectionTable
import AtlasNet.PacketOrder
import AtlasNet.Admission
import AtlasNet.Reception
import AtlasNet.ClientIdentity
import AtlasNet.Foundation.Format
import AtlasNet.PacketFormat
import AtlasNet.ByteWriting
import AtlasNet.ByteFields
import AtlasNet.PacketWriting
import AtlasNet.GridAuthority
import AtlasNet.ClientIndex
import AtlasNet.Foundation.Streams
import AtlasNet.Telemetry
import AtlasNet.HealthManifest
import AtlasNet.HealthRuns
import AtlasNet.HandleAccounts
import AtlasNet.BoundLeaser
import AtlasNet.BoundLeases
import AtlasNet.ShardLookup
import AtlasNet.ContainerSizes
import AtlasNet.PacketManager
import AtlasNet.Subscriptions
import AtlasNet.EventSystem
import AtlasNet.EntityLedger
import AtlasNet.ByteCursor
import AtlasNet.EntityLedgersView
import AtlasNet.HardcodedDecoders
import AtlasNet.HeuristicShapes
import AtlasNet.NetworkTelemetry
import AtlasNet.IdentityOrder
import AtlasNet.ReaderOperations
import AtlasNet.Varints
import AtlasNet.BitFields
import AtlasNet.TlvStreams
import AtlasNet.AABB
import AtlasNet.RayTest
import AtlasNet.PushedHeuristic
import AtlasNet.Foundation.Register
import AtlasNet.ServerRegistry
import AtlasNet.CenterExtents
import AtlasNet.ReaderObjects
import AtlasNet.BinaryTelemetry
import AtlasNet.Foundation.Rewriting
import AtlasNet.MacroParse
import AtlasNet.Foundation.Dictionary
import AtlasNet.ServerHandoff
import AtlasNet.HandoffCustody
import AtlasNet.HandoffRuns
import AtlasNet.Foundation.Scripts
import AtlasNet.TransferManifest
import AtlasNet.ActiveTransfers
import AtlasNet.OwnershipElection
import AtlasNet.ClientRegistrations
import AtlasNet.ClaimedOwners
import AtlasNet.EntityRows
import AtlasNet.Foundation.Expiring
import AtlasNet.HandoffConnections
import AtlasNet.AuthorityTelemetry
