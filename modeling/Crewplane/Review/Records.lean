import Crewplane.Lib.Dict
import Crewplane.Lib.Text
import Crewplane.Plan.Records
/-
# Records of the review loop (review_loop/types.py, core/review_checkpoint_state.py)

| here | there |
|------|-------|
| `ReviewNode`             | compiled_records.py:392, with the fields a review stage reads |
| `EvaluatedReviewResult`  | reviews/types.py:21 |
| `ExecutorRoundArtifact`, `ReviewerRoundArtifact` | review_loop/types.py:208, 223 |
| `AuditRoundProgress`, `AuditRoundResult`, `ReviewLoopProgress` | types.py:284-398 |
| `Checkpoint…`            | core/review_checkpoint_state.py, core/review_checkpoint.py:84 |

A path is the list of its components, relative to the run's stage root. The
active audit shares its loop's stall object; here that state is stored once, in
the loop's progress. An artifact's producer defaults to its own coordinates
wherever it is read (`producer_audit or audit_round_num or 1`); here the default
is filled in when the artifact is made.
-/
namespace Crewplane.Review

open Crewplane.Lib Crewplane.Plan

abbrev TaskId := String

/-- A path below the stage root, component by component. -/
abbrev RelPath := List String

inductive ProviderRole
  | executor | reviewer
  deriving DecidableEq, Repr

structure ProviderRecord where
  provider : String
  role : ProviderRole
  taskId : TaskId
  deriving DecidableEq, Repr

inductive ExhaustionPolicy
  | «continue» | fatal
  deriving DecidableEq, Repr

structure ExecutionPolicy where
  depth : Option Nat
  auditRounds : Option Nat
  continueOnFailure : Bool
  consensusOnExhaustion : Option ExhaustionPolicy
  reviewStartsWith : ProviderRole
  deriving DecidableEq, Repr

structure WorkspacePolicy where
  enabled : Bool
  setup : Bool
  deriving DecidableEq, Repr

/-- A node as a review stage reads it. -/
structure ReviewNode extends PreflightExecutionNode where
  providerRecords : List ProviderRecord
  executionPolicy : ExecutionPolicy
  workspacePolicy : Option WorkspacePolicy
  stagePath : Option RelPath

/-- `(size, sha256)` of a published file. -/
structure ContentSignature where
  size : Nat
  sha256 : String
  deriving DecidableEq, Repr, Inhabited

inductive IdentityKind
  | document | files | unverified
  deriving DecidableEq, Repr

/-- `CandidateIdentity` (candidate_identity.py:34). -/
structure CandidateIdentity where
  kind : IdentityKind
  fingerprint : Option String
  sourceFingerprint : Option String
  reason : Option String
  deriving DecidableEq, Repr

inductive EvaluationKind
  | structured | plainLanguageApproval | plainLanguageChangesRequested | unstructuredFeedback
  deriving DecidableEq, Repr

structure EvaluatedReviewResult where
  verdict : Option String
  approved : Bool
  majorIssues : String
  minorIssues : String
  nitpicks : String
  unresolvedFingerprints : List String
  unresolvedIssueCount : Nat
  normalizedMarkdown : String
  rawText : String
  evaluationKind : EvaluationKind
  warnings : List String
  originalVerdict : Option String
  hadLeadingText : Bool
  hadTrailingText : Bool
  unstructuredFeedback : Option String
  deriving DecidableEq, Repr

structure ExecutorRoundArtifact where
  provider : ProviderRecord
  taskId : TaskId
  content : String
  outputFile : RelPath
  auditRoundNum : Option Nat
  roundNum : Nat
  outputSignature : Option ContentSignature
  candidateIdentity : Option CandidateIdentity
  producerAudit : Nat
  producerRound : Nat
  deriving DecidableEq, Repr

structure ReviewerRoundArtifact where
  provider : ProviderRecord
  taskId : TaskId
  evaluation : EvaluatedReviewResult
  outputFile : RelPath
  auditRoundNum : Option Nat
  roundNum : Nat
  outputSignature : Option ContentSignature
  deriving DecidableEq, Repr

/-- `CheckpointInvocation` (review_checkpoint_state.py:50). -/
structure CheckpointInvocation where
  taskId : TaskId
  role : ProviderRole
  audit : Nat
  localRound : Nat
  deriving DecidableEq, Repr

/-- The failure of one reviewer invocation, in memory and in checkpoints. -/
structure CheckpointReviewerFailure extends CheckpointInvocation where
  failureKind : String
  warning : String
  deriving DecidableEq, Repr

/-- `ReviewLoopStopReason` (core/review_contract.py:7). -/
inductive ReviewLoopStopReason
  | consensus | consensusExhausted | noProgress | noValidCandidate | cancelled | failed
  deriving DecidableEq, Repr

inductive CheckpointPhase
  | executors | reviewers | finalize
  deriving DecidableEq, Repr

/-- The feedback of one review, as the stall detector compares it. -/
abbrev Feedback := TaskId × String × String × Option String

/-- `ReviewStallState` (stall.py:12). -/
structure ReviewStallState where
  consecutiveRoundCount : Nat := 0
  candidateFingerprint : Option String := none
  reviewFeedback : List Feedback := []
  deriving DecidableEq, Repr

structure ExecutorRoundRunResult where
  outputs : List ExecutorRoundArtifact
  driftWarningCount : Nat

structure ReviewerRoundRunResult where
  outputs : List ReviewerRoundArtifact
  driftWarningCount : Nat
  reviewerFailureCount : Nat
  failures : List CheckpointReviewerFailure

structure AuditRoundResult where
  consensusReached : Bool
  cleanFreshApproval : Bool
  latestExecutorOutputs : Option (List ExecutorRoundArtifact)
  latestReviewerOutputs : List ReviewerRoundArtifact
  invalidCandidateRoundCount : Nat
  noProgressRoundCount : Nat
  artifactDriftWarningCount : Nat
  lastRoundNum : Nat
  selectedRoundNum : Nat
  stopReason : Option ReviewLoopStopReason
  reviewerFailures : List CheckpointReviewerFailure

structure AuditRoundProgress where
  executorOutputs : List ExecutorRoundArtifact
  previousExecutorOutputs : Option (List ExecutorRoundArtifact) := none
  previousReviewPacket : Option String := none
  previousUnresolvedFingerprints : List String := []
  previousExecutorFingerprint : Option String := none
  latestValidExecutorOutputs : Option (List ExecutorRoundArtifact) := none
  latestReviewerOutputs : List ReviewerRoundArtifact := []
  invalidCandidateRoundCount : Nat := 0
  noProgressRoundCount : Nat := 0
  artifactDriftWarningCount : Nat := 0
  lastRoundNum : Nat := 0
  selectedRoundNum : Nat := 0
  stopReason : Option ReviewLoopStopReason := none
  reviewerFailures : List CheckpointReviewerFailure := []
  deriving DecidableEq, Repr

structure ReviewLoopProgress where
  latestExecutorOutputs : Option (List ExecutorRoundArtifact) := none
  latestReviewerOutputs : List ReviewerRoundArtifact := []
  executedAuditRounds : Nat := 0
  lastRoundNum : Nat := 0
  consensusReached : Bool := false
  continuedAfterExhaustion : Bool := false
  invalidCandidateRoundCount : Nat := 0
  noProgressRoundCount : Nat := 0
  artifactDriftWarningCount : Nat := 0
  selectedRoundNum : Nat := 0
  stopReason : Option ReviewLoopStopReason := none
  continuedAfterStop : Bool := false
  stall : ReviewStallState := {}
  activeAudit : Option AuditRoundProgress := none
  reviewerFailures : List CheckpointReviewerFailure := []
  initialReviewCompleted : Bool := false
  initialReviews : List ReviewerRoundArtifact := []
  initialFailures : List CheckpointReviewerFailure := []
  cursorAudit : Nat := 1
  cursorRound : Nat := 1
  nextPhase : CheckpointPhase := .executors
  deriving DecidableEq, Repr

/-! ## Checkpoint records -/

structure CheckpointCandidate extends CheckpointInvocation where
  outputPath : RelPath
  producerAudit : Nat
  producerRound : Nat
  identity : CandidateIdentity
  deriving DecidableEq, Repr

structure CheckpointEvaluation where
  verdict : Option String
  approved : Bool
  majorIssues : String
  minorIssues : String
  nitpicks : String
  unresolvedFingerprints : List String
  unresolvedIssueCount : Nat
  normalizedMarkdown : String
  rawText : String
  evaluationKind : EvaluationKind
  warnings : List String
  originalVerdict : Option String
  hadLeadingText : Bool
  hadTrailingText : Bool
  unstructuredFeedback : Option String
  deriving DecidableEq, Repr

structure CheckpointReview extends CheckpointInvocation where
  outputPath : RelPath
  evaluation : CheckpointEvaluation
  deriving DecidableEq, Repr

structure CheckpointStall where
  consecutiveRoundCount : Nat
  candidateFingerprint : Option String
  reviewFeedback : List Feedback
  deriving DecidableEq, Repr

structure CheckpointCounters where
  invalidCandidateRoundCount : Nat
  noProgressRoundCount : Nat
  artifactDriftWarningCount : Nat
  lastRoundNum : Nat
  selectedRoundNum : Nat
  stopReason : Option ReviewLoopStopReason
  deriving DecidableEq, Repr

structure CheckpointAuditProgress extends CheckpointCounters where
  executorOutputs : List CheckpointCandidate
  previousExecutorOutputs : Option (List CheckpointCandidate)
  previousUnresolvedFingerprints : List String
  previousExecutorFingerprint : Option String
  latestValidExecutorOutputs : Option (List CheckpointCandidate)
  latestReviewerOutputs : List CheckpointReview
  reviewerFailures : List CheckpointReviewerFailure
  deriving DecidableEq, Repr

structure CheckpointProgress extends CheckpointCounters where
  latestExecutorOutputs : Option (List CheckpointCandidate)
  latestReviewerOutputs : List CheckpointReview
  reviewerFailures : List CheckpointReviewerFailure
  executedAuditRounds : Nat
  consensusReached : Bool
  continuedAfterExhaustion : Bool
  continuedAfterStop : Bool
  stall : CheckpointStall
  activeAudit : Option CheckpointAuditProgress
  initialReviewCompleted : Bool
  initialReviews : List CheckpointReview
  initialFailures : List CheckpointReviewerFailure
  deriving DecidableEq, Repr

namespace CheckpointProgress

def candidates (progress : CheckpointProgress) : List CheckpointCandidate :=
  progress.latestExecutorOutputs.getD [] ++
    match progress.activeAudit with
    | none => []
    | some active => active.executorOutputs ++ active.previousExecutorOutputs.getD [] ++
        active.latestValidExecutorOutputs.getD []

def reviews (progress : CheckpointProgress) : List CheckpointReview :=
  progress.initialReviews ++ progress.latestReviewerOutputs ++
    match progress.activeAudit with
    | none => []
    | some active => active.latestReviewerOutputs

def failures (progress : CheckpointProgress) : List CheckpointReviewerFailure :=
  progress.initialFailures ++ progress.reviewerFailures ++
    match progress.activeAudit with
    | none => []
    | some active => active.reviewerFailures

end CheckpointProgress

inductive FilePurpose
  | executorOutput | reviewerOutput | reviewState | reviewMetadata | reviewFailure | candidateIdentity
  | generatedFile | generatedMetadata | workspaceState | workspaceSetup | workspaceBundle
  deriving DecidableEq, Repr

structure CheckpointFile extends CheckpointInvocation where
  purpose : FilePurpose
  relativePath : RelPath
  signature : ContentSignature
  deriving DecidableEq, Repr

structure CheckpointGeneratedMapping where
  outputPath : RelPath
  snapshotPath : Option RelPath
  deriving DecidableEq, Repr

structure CheckpointWorkspace extends CheckpointInvocation where
  snapshotPath : RelPath
  destinationPath : RelPath
  deriving DecidableEq, Repr

structure CheckpointTask where
  taskId : TaskId
  role : ProviderRole
  deriving DecidableEq, Repr

/-- `OpenReviewCheckpoint` (review_checkpoint.py:84). Of the identity, the parts
`validate_checkpoint_node` compares with the node. -/
structure OpenReviewCheckpoint where
  nodeId : NodeId
  expansion : Option ExpansionProvenance
  tasks : List CheckpointTask
  audit : Nat
  localRound : Nat
  nextPhase : CheckpointPhase
  progress : CheckpointProgress
  files : List CheckpointFile
  generatedMappings : List CheckpointGeneratedMapping
  workspaces : List CheckpointWorkspace
  deriving DecidableEq, Repr

end Crewplane.Review
