import Vimla.Artifacts.Access
import Vimla.Artifacts.AppendOnly
import Vimla.Billing.FinanceQuery
import Vimla.Billing.PolicyLifecycle
import Vimla.Billing.ReserveOnce
import Vimla.Billing.Revocations
import Vimla.Billing.StatusTable
import Vimla.Billing.VerifiedAmounts
import Vimla.Context.Budgets
import Vimla.Context.CompactionRuns
import Vimla.Context.Fingerprint
import Vimla.Context.PackingOrder
import Vimla.DirectChats.CancelledGc
import Vimla.DirectChats.Fencing
import Vimla.DirectChats.HumanWire
import Vimla.DirectChats.SessionRuns
import Vimla.DirectMessages.Coverage
import Vimla.DirectMessages.ReadPosition
import Vimla.E2ee.FirstContact
import Vimla.Handles.Ownership
import Vimla.Inference.Chunking
import Vimla.Inference.ProviderHolds
import Vimla.Notifications.Window
import Vimla.Operator.DirectChat
import Vimla.Operator.Effects
import Vimla.Orchestration.Approval
import Vimla.Orchestration.Authority
import Vimla.Orchestration.ExactlyOnce
import Vimla.Orchestration.PlanningRuns
import Vimla.Orchestration.Progress
import Vimla.Orchestration.RetryBudget
import Vimla.Orchestration.Workflow
import Vimla.Projects.PlanLimits
import Vimla.Realtime.Client
import Vimla.Realtime.OutboxDispatch
import Vimla.Semantic.Admission
import Vimla.Semantic.Chunks
import Vimla.Semantic.LeasesHold
import Vimla.Sync.Passes
import Vimla.Sync.StreamRuns
import Vimla.TextChat.Concurrency
import Vimla.TextChat.OneMessage
import Vimla.Workspace.Edits
