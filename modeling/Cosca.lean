import Cosca.Ports.PosixRoundTrip
import Cosca.Ports.RawCommandLine
import Cosca.Ports.BatchRejection
import Cosca.Ports.Win32Files
import Cosca.Ports.BatchSpellings
import Cosca.Ports.BatchLoads
import Cosca.Verified.Utf16
import Cosca.Ports.AppleScriptLiteral
import Cosca.Ports.Elevation
import Cosca.Ports.ElevationPlan
import Cosca.Ports.EnvSanitizer
import Cosca.Ports.MacosScript
import Cosca.Ports.MacosElevation
import Cosca.Ports.PosixElevation
import Cosca.Ports.ElevationVerdict
import Cosca.Ports.Identity
import Cosca.Ports.TreeWalk
import Cosca.Ports.ProcessHost
import Cosca.Ports.TreeWalkStrangers
import Cosca.Ports.FdMarker
import Cosca.Ports.FdMarkerPass
import Cosca.Ports.FdMarkerSweep
import Cosca.Ports.UnixSignals
import Cosca.Ports.NoBroadcast
import Cosca.Ports.ChildRelease
import Cosca.Ports.DetachKills
import Cosca.Ports.IdentityRecord
import Cosca.Ports.StartToken
import Cosca.Ports.RecordRoundTrip
import Cosca.Ports.RecordWire
import Cosca.Ports.Shutdown
import Cosca.Ports.ShutdownAgreement
import Cosca.Ports.ShutdownTree
import Cosca.Verified.Block
import Cosca.Ports.SpawnEnv
import Cosca.Ports.NestedMarker
import Cosca.Ports.StdioEnds
import Cosca.Ports.AsyncStdio
import Cosca.Verified.Rely
import Cosca.Ports.PinnedHost
import Cosca.Ports.IdentityKill
import Cosca.Verified.Interleave
import Cosca.Ports.JobDrain
import Cosca.Ports.JobHandle
import Cosca.Ports.JobOwnership
import Cosca.Ports.JobLifetime
import Cosca.Verified.Unwind
import Cosca.Verified.Words
import Cosca.Ports.ReaperWorker
import Cosca.Ports.ReaperPool
import Cosca.Ports.ReaperInvariant
import Cosca.Ports.ReaperCaller
import Cosca.Ports.ReaperOutline
import Cosca.Ports.ReaperProgress
import Cosca.Ports.ReaperSafety
import Cosca.Ports.PosixGrammar
import Cosca.Ports.PosixSplitErrors
import Cosca.Ports.WindowsRuns
import Cosca.Ports.TreeWalkExact
import Cosca.Ports.GroupVerdict
import Cosca.Ports.SweepSeverity
import Cosca.Verified.Clocks
import Cosca.Ports.DrainRounds
import Cosca.Ports.DrainSound
import Cosca.Ports.DrainDeadline
import Cosca.Ports.WindowsWaits
import Cosca.Ports.EarlyTimeouts
import Cosca.Verified.Journal
import Cosca.Ports.EnvBlock
import Cosca.Verified.Table
import Cosca.Ports.CrtFds
import Cosca.Ports.StdioOrder
import Cosca.Ports.StatParse
import Cosca.Verified.Checked
import Cosca.Ports.CreatedAt
import Cosca.Ports.ListPidsComplete
import Cosca.Ports.PasswordDelivery
import Cosca.Verified.Options
import Cosca.Ports.ElevationArgv
import Cosca.Ports.ElevationRewrite
import Cosca.Ports.EnvForwarding
import Cosca.Ports.KqueueVerdicts
import Cosca.Ports.Deadlines
import Cosca.Ports.CgroupDrain
import Cosca.Ports.CgroupWatch
import Cosca.Ports.PidfdVerdicts
import Cosca.Ports.PumpCompletes
import Cosca.Ports.PumpOutput
import Cosca.Ports.ForkedExec
import Cosca.Ports.FleetHolders
import Cosca.Verified.Flags
import Cosca.Ports.CreationFlags
import Cosca.Ports.SpawnTail
import Cosca.Ports.PipeFds
import Cosca.Ports.PipeHolders
