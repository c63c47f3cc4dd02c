import Crewplane.Lib.Dict
import Crewplane.Lib.Lists
import Crewplane.Lib.Checks
import Crewplane.Lib.Runs
import Crewplane.Lib.Text
import Crewplane.Lib.Verbatim
import Crewplane.Lib.Lines
import Crewplane.Lib.Scan
import Crewplane.Plan.Records
import Crewplane.Plan.Template
import Crewplane.Plan.Contract
import Crewplane.Plan.Expansion
import Crewplane.Plan.Shape
import Crewplane.Scheduler.State
import Crewplane.Scheduler.Step
import Crewplane.Scheduler.Invariant
import Crewplane.Scheduler.Safety
import Crewplane.Scheduler.Failure
import Crewplane.Scheduler.Assignment
import Crewplane.Scheduler.Confluence
import Crewplane.Scheduler.Replay
import Crewplane.Review.Records
import Crewplane.Review.Progress
import Crewplane.Review.Validators
import Crewplane.Review.Checkpoint
import Crewplane.Review.Loop
import Crewplane.Review.Rounds
import Crewplane.Review.Boundary
import Crewplane.Review.Stored
import Crewplane.Review.Acceptance
import Crewplane.Review.Invariant
import Crewplane.Review.Gate
import Crewplane.Review.Resume
import Crewplane.Launch.Powershell
import Crewplane.Launch.Batch
import Crewplane.Workflow.Markdown
import Crewplane.Workflow.Segments
import Crewplane.Prompt.Tokens
import Crewplane.Prompt.Validation
import Crewplane.Prompt.Compile
import Crewplane.Prompt.Policies
import Crewplane.Prompt.Streams
import Crewplane.Prompt.Assembly
import Crewplane.Composition.Rewrites
import Crewplane.Composition.Passes
import Crewplane.Composition.Traversal
import Crewplane.Composition.Instances
import Crewplane.Composition.Fuel
import Crewplane.Composition.Hygiene
import Crewplane.Composition.Composed
import Crewplane.Composition.Prerequisites
import Crewplane.Invocation.Retry
import Crewplane.Invocation.Transitions
import Crewplane.Invocation.Loop
import Crewplane.Composition.Worktrees
import Crewplane.Composition.Selection
import Crewplane.Lib.Json
import Crewplane.Lib.Paths
import Crewplane.Workspace.RefNames
import Crewplane.Workspace.DistinctRefs
import Crewplane.Workspace.ReuseCache
import Crewplane.Workspace.Ownership
import Crewplane.Workspace.Cleanup
import Crewplane.Workspace.Leases
import Crewplane.Lib.Rfc8259
import Crewplane.Claude.Parser
import Crewplane.Claude.Chunks
import Crewplane.Claude.Fuel
import Crewplane.Claude.Numbers
import Crewplane.Claude.Scan
import Crewplane.Claude.Strings
import Crewplane.Claude.Values
import Crewplane.Claude.Derivations
import Crewplane.Claude.Result
import Crewplane.Execution.PublicationRegistry
import Crewplane.Execution.RecoverySpool
import Crewplane.Observability.Dashboard
import Crewplane.Review.Status
import Crewplane.Review.StatusEntries
import Crewplane.Review.StatusAgreement
import Crewplane.Review.StatusRuns
import Crewplane.Workflow.Collections
import Crewplane.Workflow.CollectionCodec
import Crewplane.Plan.TopologicalOrder
import Crewplane.Workflow.GraphWaves
import Crewplane.Review.StructuredText
import Crewplane.Execution.EventDrift
import Crewplane.Artifacts.GeneratedFiles
import Crewplane.Review.Cursor
import Crewplane.Review.Stall
import Crewplane.Process.StreamCapture
import Crewplane.Observability.Layout
import Crewplane.Observability.DagPruning
import Crewplane.Observability.DagLanes
import Crewplane.Observability.DisplayLines
import Crewplane.Artifacts.Overlap
import Crewplane.Process.LogRewrites
import Crewplane.Lib.Calendar
import Crewplane.Lib.Regex
import Crewplane.Quota.Survival
import Crewplane.Workflow.JoinBound
import Crewplane.Workspace.LineageChain
import Crewplane.Workspace.RefSafety
import Crewplane.Workspace.BranchExport
import Crewplane.Workspace.BranchExportSafety
