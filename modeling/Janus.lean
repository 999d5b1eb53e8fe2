import Janus.Concurrency.Pool
import Janus.Server.Order
import Janus.Server.Finalization
import Janus.Server.Atomicity
import Janus.Server.Rounds
import Janus.Server.PipelineEnds
import Janus.Server.Bindings
import Janus.Server.Stamps
import Janus.Runner.Replay
import Janus.Runner.Admission
import Janus.Runner.Idempotency
import Janus.Runner.Progress
import Janus.Runner.Shutdown
import Janus.Runner.Literals
import Janus.Network.Redispatch
import Janus.Network.Authenticity
import Janus.Server.Convergence
import Janus.Server.ObservedRuns
import Janus.Server.Reachability
import Janus.Server.Integrity
import Janus.Server.Budgets
import Janus.Server.Compatibility
import Janus.Web.Triggers
import Janus.Server.SchemaReport
import Janus.Server.Rejections
import Janus.Server.StuckCancellations
import Janus.Runner.Environment
import Janus.Runner.Creation
import Janus.Runner.Redaction
import Janus.Runner.Recovery
import Janus.Runner.Release
import Janus.Runner.RateLimit
import Janus.Web.RunnerUrls
import Janus.Web.PushRefs
import Janus.Runner.ArtifactCleanup
import Janus.Runner.ArtifactRecovery
import Janus.Runner.Outputs
import Janus.Runner.LogLimits
import Janus.Web.Reopening
import Janus.Web.EditedBindings
import Janus.Web.Downloads
import Janus.Runner.Capture
import Janus.Runner.AtomicWrites
import Janus.Server.Cancellations
import Janus.Web.Versions
import Janus.Web.RunnerCatalogs
import Janus.Server.StoredSchemas
import Janus.Server.RetrySpacing
import Janus.Web.RunSelections
import Janus.Web.PushesOnce
import Janus.Web.LoginAttempts
