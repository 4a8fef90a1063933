import Aurora.Thermos.Common.Ckpt
import Aurora.Library.Replay
import Aurora.Thermos.Common.CkptDispatch
import Aurora.Thermos.Common.CkptErrors
import Aurora.Thermos.Common.CkptTruncate
import Aurora.Library.Precedence
import Aurora.Thermos.Common.Planner
import Aurora.Thermos.Common.PlannerSteps
import Aurora.Thermos.Common.PlannerTask
import Aurora.Thermos.Common.PlannerRuns
import Aurora.Library.Framing
import Aurora.Thermos.Monitoring.Monitor
import Aurora.Library.Guarantee
import Aurora.Thermos.Core.Muxer
import Aurora.Thermos.Core.Handlers
import Aurora.Thermos.Core.World
import Aurora.Thermos.Core.Runner
import Aurora.Thermos.Core.Steps
import Aurora.Thermos.Core.Reads
import Aurora.Thermos.Core.Dispatches
import Aurora.Thermos.Core.Handling
import Aurora.Thermos.Core.Kills
import Aurora.Thermos.Core.TaskStates
import Aurora.Thermos.Core.Launches
import Aurora.Thermos.Core.Loop
import Aurora.Thermos.Core.Recovery
import Aurora.Thermos.Core.Lockstep
import Aurora.Thermos.Core.Lives
import Aurora.Thermos.Core.Rebuild
import Aurora.Thermos.Core.CrashRecovery
import Aurora.Thermos.Core.PlanAgreement
import Aurora.Thermos.Core.StartedRuns
import Aurora.Thermos.Core.Verdict
import Aurora.Thermos.Common.CkptExits
import Aurora.Thermos.Core.Delivery
import Aurora.Thermos.Core.HelperKill
import Aurora.Client.Api.Sla
import Aurora.Client.Api.SafeHosts
import Aurora.Admin.DrainedHosts
import Aurora.Client.Api.SchedulerClient
import Aurora.Client.Api.SentOnce
import Aurora.Executor.AuroraExecutor
import Aurora.Executor.Moves
import Aurora.Executor.OneTask
import Aurora.Executor.StatusProtocol
import Aurora.Thermos.Core.Control
import Aurora.Thermos.Core.Attendance
import Aurora.Thermos.Core.Adoption
import Aurora.Thermos.Core.Promises
import Aurora.Thermos.Core.ControlSteps
import Aurora.Thermos.Core.SoleControl
import Aurora.Client.Cli.Jobs
import Aurora.Client.Cli.KillBatches
import Aurora.Client.Cli.KillPartition
import Aurora.Library.ExpiringDict
import Aurora.Thermos.Observer.HttpObserver
import Aurora.Thermos.Observer.Plugins
import Aurora.Thermos.Observer.Credentials
import Aurora.Thermos.Observer.BearerTokens
import Aurora.Thermos.Observer.Union
import Aurora.Common.Auth.AuthModule
import Aurora.Common.Auth.RefreshChain
import Aurora.Config.Ports
import Aurora.Library.Alias
import Aurora.Config.PortAgreement
import Aurora.Library.Shards
import Aurora.Thermos.Observer.Detector
import Aurora.Thermos.Observer.Tracks
import Aurora.Thermos.Observer.Lifecycle
import Aurora.Thermos.Observer.TaskObserver
import Aurora.Thermos.Observer.Tables
import Aurora.Executor.Announcer
import Aurora.Executor.Membership
import Aurora.Thermos.Core.Concurrency
import Aurora.Client.Api.Uptimes
import Aurora.Executor.CompositeStatus
import Aurora.Executor.HealthChecker
import Aurora.Executor.HealthVerdict
import Aurora.Executor.StartUp
import Aurora.Client.Api.InstanceWatcher
import Aurora.Client.Api.JobMonitor
import Aurora.Client.Api.RestartBounds
import Aurora.Client.Api.Stability
import Aurora.Client.Api.WaitUntil
import Aurora.Library.Pathname
import Aurora.Thermos.Observer.FileBrowser
import Aurora.Client.Cli.RestartCommand
import Aurora.Client.Api.UpdaterUtil
import Aurora.Client.Cli.Options
import Aurora.Config.PortEnds
import Aurora.Library.History
import Aurora.Thermos.Common.PlannerCounts
import Aurora.Thermos.Common.Schedulable
import Aurora.Thermos.Monitoring.Resource
import Aurora.Thermos.Core.ControlWait
import Aurora.Library.Layers
import Aurora.Thermos.Common.PlannerOrder
import Aurora.Thermos.Config.SchemaHelpers
import Aurora.Thermos.Monitoring.Polls
import Aurora.Client.Api.ProbeHosts
import Aurora.Admin.Hostnames
import Aurora.Client.Cli.CommandHooks
import Aurora.Client.Cli.MatchingJobs
import Aurora.Client.Hooks.HookedApi
import Aurora.Common.RingBuffer
import Aurora.Library.Bisect
import Aurora.Library.Files
import Aurora.Library.PercentFormat
import Aurora.Library.Pipe
import Aurora.Library.Regex
import Aurora.Library.Utf8
import Aurora.Thermos.Common.TaskPath
import Aurora.Thermos.Core.PipedWait
import Aurora.Thermos.Core.RotatingFile
import Aurora.Thermos.Monitoring.ResourceHistory
import Aurora.Thermos.Monitoring.TaskDetector
import Aurora.Thermos.Observer.ReadChunk
import Aurora.Thermos.Common.PlannerWait
import Aurora.Thermos.Core.StandingClock
import Aurora.Client.Api.StructHash
import Aurora.Common.RecordIo
import Aurora.Common.RecordStrings
import Aurora.Common.RecordTail
import Aurora.Common.Zookeeper.JoinSteps
import Aurora.Common.Zookeeper.Joins
import Aurora.Executor.HttpLifecycle
import Aurora.Executor.RunnerWaits
import Aurora.Executor.Teardown
import Aurora.Client.Cli.InstanceSpecifier
import Aurora.Executor.ResourceManager
import Aurora.Client.Api.Resolve
