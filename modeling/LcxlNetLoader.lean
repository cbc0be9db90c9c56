import LcxlNetLoader.Proofs.Deferred
import LcxlNetLoader.Proofs.Detach
import LcxlNetLoader.Proofs.FilterList
import LcxlNetLoader.Proofs.LeastConnection
import LcxlNetLoader.Proofs.Opening
import LcxlNetLoader.Proofs.RouteMemory
import LcxlNetLoader.Proofs.ServerStores
import LcxlNetLoader.Proofs.Tagged
import LcxlNetLoader.Proofs.Exchange
import LcxlNetLoader.Proofs.Receivers
import LcxlNetLoader.Proofs.Shutdown
import LcxlNetLoader.Proofs.Allocations
import LcxlNetLoader.Proofs.NblMemory
import LcxlNetLoader.Proofs.NetBuffers
import LcxlNetLoader.Proofs.Simulated
import LcxlNetLoader.Proofs.Names
import LcxlNetLoader.Proofs.Messages
import LcxlNetLoader.Proofs.JsonLocations
import LcxlNetLoader.Proofs.VipCheck
import LcxlNetLoader.Proofs.Cancellations
import LcxlNetLoader.Proofs.Restarts
import LcxlNetLoader.Proofs.Cluster
import LcxlNetLoader.Proofs.Failover
import LcxlNetLoader.Proofs.Audit
