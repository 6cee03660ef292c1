import Qontinui.Collaboration.ComposeConnections
import Qontinui.Collaboration.SyncConvergence
import Qontinui.Collaboration.PassTermination
import Qontinui.Collaboration.FailedRetries
import Qontinui.Collaboration.OneSidedChanges
import Qontinui.Collaboration.FalseConflicts
import Qontinui.Layout.NodeGraph
import Qontinui.Layout.WorkflowLayers
import Qontinui.Offline.RetryBound
import Qontinui.Offline.Stranded
import Qontinui.Offline.PassOrder
import Qontinui.Offline.BatchUploads
import Qontinui.Optimization.ConnectionRepair
import Qontinui.Optimization.SafeDeletion
import Qontinui.Sync.PendingTimers
import Qontinui.Sync.UnsavedEdits
import Qontinui.Sync.PerformSave
import Qontinui.Sync.LockExclusion
import Qontinui.Sync.EditLedger
import Qontinui.Sync.VersionBooks
import Qontinui.Workflow.VerticalLayout
import Qontinui.Workflow.ConverterRoundTrip
import Qontinui.Canvas.CopyPaste
import Qontinui.Canvas.PendingRecords
import Qontinui.Devenv.InSync
import Qontinui.Images.ShortLocations
import Qontinui.Images.JpegHeader
import Qontinui.Images.GifStructure
import Qontinui.PlanStatus.EvidenceRead
import Qontinui.PlanStatus.StampReaders
import Qontinui.ConfigMigration.CacheTransparency
import Qontinui.Conditions.ParsesGrammar
import Qontinui.Auth.RefreshOwnership
import Qontinui.MergeService.OneSidedMerge
import Qontinui.Locks.BackendExclusion
import Qontinui.Relay.Scrollbacks
import Qontinui.Relay.System
import Qontinui.Workflow.FormatConverter
import Qontinui.Overview.ScheduleSpan
import Qontinui.Overview.DueDates
import Qontinui.ScanRoots.Ordering
import Qontinui.ScanRoots.Health
import Qontinui.Execution.LostNodes
import Qontinui.Folders.Filing
import Qontinui.Folders.Paths
import Qontinui.StateMachines.MergeIntegrity
import Qontinui.Vga.CanonicalParity
import Qontinui.BuildRecords.MessageLeaks
import Qontinui.Snapshots.CloneIsomorphism
import Qontinui.Dependencies.CycleFlags
import Qontinui.Dependencies.CriticalPaths
