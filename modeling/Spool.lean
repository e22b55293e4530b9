import Spool.Config.Format
import Spool.Depot
import Spool.Proofs.Cache.Clearing
import Spool.Proofs.Config.Directory
import Spool.Proofs.Config.Overlay
import Spool.Proofs.Log.Damage
import Spool.Proofs.Log.Entries
import Spool.Proofs.Log.Failing
import Spool.Proofs.Page.History
import Spool.Proofs.Page.Naming
import Spool.Proofs.Queue.Circling
import Spool.Proofs.Queue.Closing
import Spool.Proofs.Queue.Faults
import Spool.Proofs.Queue.Fifo
import Spool.Proofs.Queue.Footprint
import Spool.Proofs.Queue.Handles
import Spool.Proofs.Queue.Paths
import Spool.Proofs.Queue.Reclaiming
import Spool.Proofs.Queue.Reopening
import Spool.Proofs.Waiting.Vigil
