import EosBase.Procmgr.Sessions
import EosBase.Procmgr.Lineage
import EosBase.Procmgr.Ownership
import EosBase.Procmgr.Terminations
import EosBase.Procmgr.Waiters
import EosBase.Procmgr.ExitProgress
import EosBase.Procmgr.QueueRuns
import EosBase.Initfs.RoundTrip
import EosBase.Nsmgr.Authority
import EosBase.Uds.DgramRegistry
import EosBase.Uds.StreamPaths
import EosBase.Uds.StreamBytes
import EosBase.Uds.StreamFds
import EosBase.Chan.Bytes
import EosBase.Chan.Waiting
import EosBase.Shm.Naming
import EosBase.Block.Confinement
import EosBase.Block.Exclusive
import EosBase.Ramfs.Resolution
import EosBase.Ramfs.Failure
import EosBase.Ramfs.Unlink
import EosBase.Ramfs.Accounting
import EosBase.Netstack.Ports
import EosBase.Xhci.Fifo
import EosBase.Xhci.Delivery
import EosBase.Nvme.Commands
import EosBase.Virtio.Completion
import EosBase.Virtio.Descriptors
import EosBase.Executor.Completions
import EosBase.Executor.Wakeups
import EosBase.Units.Scheduler
import EosBase.Netstack.Tcp
import EosBase.Netstack.RouteTable
import EosBase.Procmgr.SilentWait
import EosBase.Xhci.Endpoints
import EosBase.Procmgr.Sigchld
import EosBase.Initfs.Paths
import EosBase.Initfs.Listing
import EosBase.Uds.StreamBorrows
import EosBase.Usbscsid.Bot
import EosBase.Ptyd.Pty
import EosBase.Acpid.Dmar
import EosBase.Redox.Wrapping
import EosBase.Logd.Lines
