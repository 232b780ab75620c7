import BetterCpu.StateBackup.RoundTrip
import BetterCpu.StateBackup.Truncated
import BetterCpu.PolicyEngine.Thermal
import BetterCpu.PolicyEngine.Cache
import BetterCpu.PolicyEngine.Hotter
import BetterCpu.PolicyEngine.PlainWrites
import BetterCpu.PolicyEngine.Frame
import BetterCpu.PolicyEngine.DirtyRatio
import BetterCpu.PolicyEngine.UnreadableZones
import BetterCpu.PolicyEngine.Recovery
import BetterCpu.PolicyEngine.FourteenSteps
import BetterCpu.PolicyEngine.Schedulers
import BetterCpu.PolicyEngine.FastTicks
import BetterCpu.PolicyEngine.Stress
import BetterCpu.PolicyEngine.CachePressure
import BetterCpu.PolicyEngine.Exceptions
import BetterCpu.PolicyEngine.ClosedForms
import BetterCpu.PolicyEngine.KernelFiles
import BetterCpu.PolicyEngine.DirectoryOrder
import BetterCpu.MemGuard.Pressure
import BetterCpu.MemGuard.Consumers
import BetterCpu.IoStorage.DiskStats
import BetterCpu.Topology.Siblings
import BetterCpu.Topology.Discovery
import BetterCpu.StartCommand.Restoration
import BetterCpu.StartCommand.StopPath
import BetterCpu.StartCommand.Coverage
import BetterCpu.StartCommand.Preference
import BetterCpu.StartCommand.Launch
import BetterCpu.StartCommand.FailedStart
import BetterCpu.StartCommand.Lives
import BetterCpu.Lifecycle
import BetterCpu.DaemonControl.SingleDaemon
import BetterCpu.DaemonControl.Shutdown
import BetterCpu.DaemonControl.StopLatency
import BetterCpu.DaemonControl.Clean
import BetterCpu.DaemonControl.PidReuse
import BetterCpu.DaemonControl.Daemonize
import BetterCpu.Persistence
import BetterCpu.ProcessManager.Grouping
import BetterCpu.ProcessCommand.TemporaryId
import BetterCpu.ProcessManager.StatFile
import BetterCpu.ProcessManager.StatLine
import BetterCpu.ProcessCommand.Grammar
import BetterCpu.ProcessCommand.KillCommand
import BetterCpu.ProcessCommand.Overflow
import BetterCpu.ProcessCommand.Listing
import BetterCpu.ProcessCommand.Options
import BetterCpu.ProcessCommand.Signals
import BetterCpu.ProcessCommand.Reading
import BetterCpu.Main
import BetterCpu.Main.Refinement
