import Ciss.Framework.Machine
import Ciss.Framework.HashTable
import Ciss.Framework.Tally
import Ciss.Framework.Lexical
import Ciss.Chain.Tamper
import Ciss.Chain.Compaction
import Ciss.Server.Metering
import Ciss.Server.Quota
import Ciss.Server.StoredBytes
import Ciss.Server.DialBinding
import Ciss.Server.Retry
import Ciss.Server.Preimages
import Ciss.Server.AntiRollback
import Ciss.Server.Sessions
import Ciss.Server.ServiceAuth
import Ciss.Server.ManifestBinding
import Ciss.Server.ManifestRun
import Ciss.Sync.FoldContent
import Ciss.Sync.Refold
import Ciss.Server.Countersign
import Ciss.Sync.CommitRace
import Ciss.Sync.StaleHead
import Ciss.Sync.Spend
import Ciss.Sync.Restore
import Ciss.Sync.Evicted
import Ciss.Sync.Reconcile
import Ciss.Sync.FoldChoice
import Ciss.Sync.FoldNames
import Ciss.Sync.ScanIndex
import Ciss.Sync.ScanRestore
import Ciss.Sync.ConvergeDisk
import Ciss.Sync.EvictDisk
import Ciss.Sync.Containment
import Ciss.Mesh.Identity
import Ciss.Mesh.Peer
import Ciss.Sync.SpendLine
import Ciss.Server.Subkeys
import Ciss.Server.PeriodBaseline
import Ciss.Sync.HeadBinding
import Ciss.Server.BlobStore
import Ciss.Sync.ChunkCache
import Ciss.Server.SignedLedger
import Ciss.Server.Statements
import Ciss.Framework.Recency
import Ciss.Framework.Shuffle
import Ciss.Trust.Audit
import Ciss.Usage.Compute
import Ciss.Trust.ReceiptProofs
import Ciss.Trust.Resolver
