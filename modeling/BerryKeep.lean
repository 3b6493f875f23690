import BerryKeep.StatefulProgram
import BerryKeep.FiniteTable
import BerryKeep.TextOperations
import BerryKeep.ClusterPlacement
import BerryKeep.ReplicationPlanning
import BerryKeep.ReplicationCleanup
import BerryKeep.ContentCodec
import BerryKeep.FaultInjection
import BerryKeep.StoragePool
import BerryKeep.StorageRelocation
import BerryKeep.VersionGraph
import BerryKeep.CurrentNamespace
import BerryKeep.Catalog
import BerryKeep.NodeStore
import BerryKeep.StoreOperations
import BerryKeep.LineageResolution
import BerryKeep.PathMutations
import BerryKeep.BundleExchange
import BerryKeep.StoreCalls
import BerryKeep.HeadInvariant
import BerryKeep.ObjectIdentity
import BerryKeep.NamespaceAgreement
import BerryKeep.ConfirmationMonotone
import BerryKeep.SnapshotHistory
import BerryKeep.ContentCleanup
import BerryKeep.SnapshotCompaction
import BerryKeep.ReplicationSubjects
import BerryKeep.ClientRequestAuth
import BerryKeep.MutationIdempotency
import BerryKeep.S3RequestAuth
import BerryKeep.UploadAssembly
import BerryKeep.UploadSessions
import BerryKeep.UploadOutcome
import BerryKeep.FileTree
import BerryKeep.FolderPaths
import BerryKeep.FolderSync
import BerryKeep.FolderConfinement
import BerryKeep.FolderSafety
import BerryKeep.ClusterLifecycle
import BerryKeep.ReplicationConvergence
import BerryKeep.S3BulkDelete
import BerryKeep.KeyListing
import BerryKeep.RelayTickets
import BerryKeep.GlobalRegistration
import BerryKeep.RegistrationSafety
import BerryKeep.ReferenceCount
import BerryKeep.ClientCache
import BerryKeep.CacheReferences
import BerryKeep.CacheExactness
import BerryKeep.DownloadDelivery
import BerryKeep.ResumableDownload
import BerryKeep.ObjectRanges
import BerryKeep.PlacementSelection
import BerryKeep.SubjectReconciliation
import BerryKeep.ObjectIdMigration
import BerryKeep.BaselineStore
import BerryKeep.SyncPlanning
import BerryKeep.QueuedMutations
import BerryKeep.CursorPaging
import BerryKeep.ModificationLog
import BerryKeep.ContentRepair
import BerryKeep.RepairSafety
import BerryKeep.ImportCommutation
import BerryKeep.ListingPages
