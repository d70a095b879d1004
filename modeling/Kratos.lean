import Kratos.Schema.CodePointOrder
import Kratos.Workflow.PolicyUpgrade
import Kratos.Workflow.GateRecording
import Kratos.Workflow.Redelivery
import Kratos.Locks.Trail
import Kratos.Locks.ClaimReading
import Kratos.Locks.RunNames
import Kratos.Transactions.Preview
import Kratos.Host.Delivery
import Kratos.Memory.Adoption
import Kratos.Memory.CurationBatch
import Kratos.Hooks.Capture
import Kratos.Hooks.Accounting
import Kratos.Acceptance.EventSize
import Kratos.Acceptance.Lineage
import Kratos.WriteGuard.GlobMeaning
import Kratos.WriteGuard.ScopeRoundTrip
import Kratos.Relay.PreToolUse
import Kratos.WriteGuard.Spelling
import Kratos.WriteGuard.Admission
import Kratos.Measurements.Conservation
import Kratos.Migration.Repetition
import Kratos.Agent.RoundTrip
import Kratos.Extensions.Shadow
import Kratos.Extensions.Reordering
import Kratos.Approvals.Validity
import Kratos.Initialization.ManagedSection
import Kratos.Initialization.WorkflowExactness
import Kratos.Initialization.DeriveStorage
import Kratos.Gaps.WriteOnce
import Kratos.Cli.Replay
import Kratos.Cli.Displays
import Kratos.Git.StatusReading
import Kratos.Differential.Comparison
