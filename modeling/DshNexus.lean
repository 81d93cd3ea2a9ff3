import DshNexus.Config.FailedAttempt
import DshNexus.Config.HomeProtection
import DshNexus.Document.Tree
import DshNexus.Snapshot.RestoreSession
import DshNexus.Snapshot.ResumeSession
import DshNexus.Snapshot.OmittedSession
import DshNexus.Snapshot.RestoreEdits
import DshNexus.Snapshot.Staging
import DshNexus.Snapshot.RingSession
import DshNexus.Release.Effective
import DshNexus.Release.Runs
import DshNexus.Agent.Authorization
import DshNexus.Agent.SignedMessages
import DshNexus.Agent.Quiescence
import DshNexus.Agent.Receipts
import DshNexus.Agent.ReleaseControl
import DshNexus.Agent.ColdOwner
import DshNexus.Agent.RuntimePatches
import DshNexus.Agent.CanarySearch
import DshNexus.Agent.LegacyIsolation
import DshNexus.Agent.ConfigDisplay
import DshNexus.Agent.MoveUndo
import DshNexus.Agent.DeadGroup
import DshNexus.Agent.DependencyLinks
import DshNexus.Release.NodeRange
import DshNexus.Release.Confirmation
import DshNexus.Release.Removal
import DshNexus.Agent.LoopbackAuthority
import DshNexus.Agent.CommandTail
import DshNexus.Agent.OwnedRemoval
import DshNexus.Agent.ExternalHarness
import DshNexus.Agent.LaunchPreferences
import DshNexus.Console.HarnessConfig
import DshNexus.Console.RequestClient
import DshNexus.Desktop.Updater
import DshNexus.Agent.PreservedPublication
import DshNexus.Agent.ArchiveRecovery
import DshNexus.Agent.RepairHistory
import DshNexus.Agent.StatePublication
import DshNexus.Checkpoint.ProfileHistory
import DshNexus.Checkpoint.Progress
import DshNexus.Checkpoint.Diagnostics
import DshNexus.Checkpoint.Committed
import DshNexus.Snapshot.RingProgress
import DshNexus.Snapshot.RingNewest
import DshNexus.Snapshot.Limits
import DshNexus.Snapshot.MergeAbsent
import DshNexus.Snapshot.RestoreLedger
import DshNexus.Agent.DiagnosticCollection
import DshNexus.Agent.PluginDrop
import DshNexus.Agent.LogRetention
