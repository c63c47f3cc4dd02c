import Crewplane.Review.Records
/-
# What the review loop does to its progress

| here | there |
|------|-------|
| `auditRoundsOrDefault`, `maximumReviewRound`, `auditRoundContext` | core/review_policy.py |
| `ReviewStallState.*`     | stall.py:13 |
| `classifyExecutorOutput`, `validateExecutorOutputs` | validation.py:291, 299 |
| `buildExecutorOutputFingerprint`, `isNoProgressCandidate` | validation.py:69, 83 |
| `renderUnresolvedReviewPacket` | state.py:74 |
| `AuditRoundProgress.*`, `ReviewLoopProgress.*` | types.py:292-437 |
| `consensusFailureAllowsContinuation`, `reviewLoopCanFinish` | policy.py:78, 88 |

The two textual tests on a candidate (a synthetic failure text, a text that only
redirects to other files), the hash behind `content_fingerprint` and the bytes
behind a signature are fields of the `Context`: the loop never looks inside them.
-/
namespace Crewplane.Review

open Crewplane.Lib Crewplane.Plan

def remediationDepthOrDefault : Option Nat → Nat
  | none | some 0 => 1
  | some depth => depth

def auditRoundsOrDefault : Option Nat → Nat
  | none | some 0 => 1
  | some rounds => rounds

/-- The initial review, and one more for each remediation. -/
def maximumReviewRound (remediationDepth : Nat) : Nat := remediationDepth + 1

def auditRoundContext (auditRounds : Option Nat) (audit : Nat) : Option Nat :=
  if 1 < auditRoundsOrDefault auditRounds then some audit else none

/-- What a stage knows before it runs (`ReviewLoopRunContext`, types.py:520). -/
structure Context where
  node : ReviewNode
  isSyntheticInvocationFailure : String → Bool
  /-- `_looks_like_redirected_candidate` (validation.py:265). -/
  looksLikeRedirectedCandidate : String → Bool
  contentFingerprint : List (TaskId × String) → String
  /-- The text of the bytes that have this signature. -/
  readOutput : ContentSignature → String

namespace Context

variable (ctx : Context)

def policy : ExecutionPolicy := ctx.node.executionPolicy
def auditRounds : Nat := auditRoundsOrDefault ctx.policy.auditRounds
def maxRound : Nat := maximumReviewRound (remediationDepthOrDefault ctx.policy.depth)
def executors : List ProviderRecord := ctx.node.providerRecords.filter fun p => p.role = .executor
def reviewers : List ProviderRecord := ctx.node.providerRecords.filter fun p => p.role = .reviewer

end Context

/-! ## Names -/

def buildReviewAuditDirectoryName (audit : Nat) : String := "review-audit-round-" ++ Nat.repr audit

def buildTaskRoundFilename (task : TaskId) (round : Nat) : String := task ++ "_round" ++ Nat.repr round ++ ".md"

/-- `audit_round_dir` (policy.py:44). -/
def auditRoundDir (ctx : Context) (audit : Nat) : RelPath :=
  ctx.node.stagePath.getD [] ++ if ctx.auditRounds = 1 then [] else [buildReviewAuditDirectoryName audit]

def outputPath (ctx : Context) (audit : Nat) (task : TaskId) (round : Nat) : RelPath :=
  auditRoundDir ctx audit ++ [buildTaskRoundFilename task round]

/-! ## Candidates -/

/-- Why a text is no candidate. -/
def classifyExecutorOutput (ctx : Context) (content : String) : Option String :=
  if strip content = "" || ctx.isSyntheticInvocationFailure content then some "invalid_candidate.empty"
  else if ctx.looksLikeRedirectedCandidate content then some "invalid_candidate.redirected"
  else none

structure CandidateValidationResult where
  valid : Bool
  reason : Option String
  invalidTaskIds : List TaskId
  deriving DecidableEq, Repr

/-- Any invalid executor makes the whole round invalid. -/
def validateExecutorOutputs (ctx : Context) (outputs : List ExecutorRoundArtifact) : CandidateValidationResult :=
  let invalid := outputs.filterMap fun a => (classifyExecutorOutput ctx a.content).map fun reason => (reason, a.taskId)
  match (invalid.map Prod.fst).mergeSort with
  | [] => ⟨true, none, []⟩
  | reason :: _ => ⟨false, some reason, ((invalid.filter fun e => e.1 = reason).map Prod.snd).mergeSort⟩

/-- `build_executor_output_fingerprint`: no fingerprint when an identity has none. -/
def buildExecutorOutputFingerprint (ctx : Context) (outputs : List ExecutorRoundArtifact) : Option String :=
  let identity := fun (a : ExecutorRoundArtifact) =>
    match a.candidateIdentity with
    | none => some (a.taskId, a.content)
    | some i => i.fingerprint.map fun f => (a.taskId, f)
  (outputs.mapM identity).map ctx.contentFingerprint

/-- `tuple(sorted(set(values)))`. -/
def sortedSet (values : List String) : List String := values.dedup.mergeSort

def collectUnresolvedFingerprints (reviews : List ReviewerRoundArtifact) : List String :=
  sortedSet (reviews.flatMap fun r => r.evaluation.unresolvedFingerprints)

/-! ## Reviews -/

/-- `check_consensus` (reviews/consensus.py:197). -/
def checkConsensus (evaluations : List EvaluatedReviewResult) : Bool :=
  !evaluations.isEmpty && evaluations.all fun e => e.approved

def emptySentinel : String := "None"

def hasUnresolvedReviewIssues (e : EvaluatedReviewResult) : Bool :=
  e.majorIssues ≠ emptySentinel || e.minorIssues ≠ emptySentinel

def hasFeedbackForExecutor (e : EvaluatedReviewResult) : Bool :=
  hasUnresolvedReviewIssues e || e.unstructuredFeedback.isSome

def reviewSections (artifact : ReviewerRoundArtifact) : List String :=
  let e := artifact.evaluation
  if !hasFeedbackForExecutor e then [] else
    ["### " ++ artifact.provider.provider ++ " reviewer (" ++ artifact.taskId ++ ")",
      "Source artifact: " ++ artifact.outputFile.getLastD "", ""] ++
    (if e.majorIssues ≠ emptySentinel then ["#### Major Issues", e.majorIssues, ""] else []) ++
    (if e.minorIssues ≠ emptySentinel then ["#### Minor Issues", e.minorIssues, ""] else []) ++
    match e.unstructuredFeedback with
    | none => []
    | some feedback =>
      ["#### Unstructured Feedback",
        "The runtime could not normalize this reviewer response into " ++
          "Major Issues, Minor Issues, or Nitpicks. Treat this as raw " ++
          "reviewer feedback, not as normalized candidate findings.", "", feedback, ""]

def renderUnresolvedReviewPacket (reviews : List ReviewerRoundArtifact) : Option String :=
  match reviews.flatMap reviewSections with
  | [] => none
  | sections => some (strip ("\n".intercalate (["## Reviewer Feedback", ""] ++ sections)))

/-! ## Stalls -/

def maxConsecutiveNoProgressRounds : Nat := 2

namespace ReviewStallState

def observeReview (stall : ReviewStallState) (fingerprint : Option String) (reviews : List ReviewerRoundArtifact) :
    ReviewStallState :=
  let feedback := reviews.map fun r =>
    (r.taskId, r.evaluation.majorIssues, r.evaluation.minorIssues, r.evaluation.unstructuredFeedback)
  { consecutiveRoundCount :=
      if fingerprint = none ∨ fingerprint ≠ stall.candidateFingerprint ∨ feedback ≠ stall.reviewFeedback then 0
      else stall.consecutiveRoundCount
    candidateFingerprint := fingerprint
    reviewFeedback := feedback }

/-- The new state, and whether the limit is reached. -/
def recordUnchangedAttempt (stall : ReviewStallState) : ReviewStallState × Bool :=
  let count := stall.consecutiveRoundCount + 1
  ({ stall with consecutiveRoundCount := count }, maxConsecutiveNoProgressRounds ≤ count)

end ReviewStallState

/-! ## Progress -/

namespace AuditRoundProgress

def recordCompletedReview (p : AuditRoundProgress) (run : ReviewerRoundRunResult) (round : Nat) : AuditRoundProgress :=
  { p with
    latestValidExecutorOutputs := some p.executorOutputs
    selectedRoundNum := round
    artifactDriftWarningCount := p.artifactDriftWarningCount + run.driftWarningCount
    latestReviewerOutputs := run.outputs
    reviewerFailures := run.failures }

/-- `advance_review_state`, less the stall it also updates. -/
def advanceReviewState (p : AuditRoundProgress) (packet : Option String) (fingerprints : List String)
    (fingerprint : Option String) : AuditRoundProgress :=
  { p with
    previousExecutorOutputs := some p.executorOutputs
    previousReviewPacket := packet
    previousUnresolvedFingerprints := fingerprints
    previousExecutorFingerprint := fingerprint }

def toResult (p : AuditRoundProgress) (consensusReached cleanFreshApproval : Bool) : AuditRoundResult :=
  { consensusReached, cleanFreshApproval
    latestExecutorOutputs := p.latestValidExecutorOutputs
    latestReviewerOutputs := p.latestReviewerOutputs
    invalidCandidateRoundCount := p.invalidCandidateRoundCount
    noProgressRoundCount := p.noProgressRoundCount
    artifactDriftWarningCount := p.artifactDriftWarningCount
    lastRoundNum := p.lastRoundNum
    selectedRoundNum := p.selectedRoundNum
    stopReason := p.stopReason
    reviewerFailures := p.reviewerFailures }

end AuditRoundProgress

def isNoProgressCandidate (p : AuditRoundProgress) (fingerprint : Option String) (round : Nat) : Bool :=
  1 < round && fingerprint.isSome && p.previousReviewPacket.isSome && p.previousExecutorFingerprint = fingerprint

namespace ReviewLoopProgress

def recordInitialReviewerRun (p : ReviewLoopProgress) (run : ReviewerRoundRunResult) : ReviewLoopProgress :=
  { p with
    artifactDriftWarningCount := p.artifactDriftWarningCount + run.driftWarningCount
    initialReviewCompleted := true
    initialReviews := run.outputs
    initialFailures := run.failures }

def recordAuditResult (p : ReviewLoopProgress) (r : AuditRoundResult) : ReviewLoopProgress :=
  let selected := if 0 < r.selectedRoundNum then r.selectedRoundNum else p.selectedRoundNum
  { p with
    activeAudit := none
    invalidCandidateRoundCount := p.invalidCandidateRoundCount + r.invalidCandidateRoundCount
    noProgressRoundCount := p.noProgressRoundCount + r.noProgressRoundCount
    artifactDriftWarningCount := p.artifactDriftWarningCount + r.artifactDriftWarningCount
    lastRoundNum := r.lastRoundNum
    selectedRoundNum :=
      match r.latestExecutorOutputs with
      | some outputs => if r.selectedRoundNum = 0 then (outputs.head?.map (·.roundNum)).getD 0 else selected
      | none => selected
    consensusReached := r.consensusReached
    continuedAfterExhaustion := false
    stopReason := r.stopReason
    latestExecutorOutputs := r.latestExecutorOutputs.or p.latestExecutorOutputs
    latestReviewerOutputs := r.latestReviewerOutputs
    reviewerFailures := r.reviewerFailures }

def markConsensusExhausted (p : ReviewLoopProgress) (continued : Bool) : ReviewLoopProgress :=
  { p with
    consensusReached := false
    continuedAfterExhaustion := continued
    continuedAfterStop := continued
    stopReason := some .consensusExhausted }

end ReviewLoopProgress

/-! ## Policy -/

def consensusFailureAllowsContinuation (node : ReviewNode) : Bool :=
  node.executionPolicy.continueOnFailure || node.executionPolicy.consensusOnExhaustion = some .continue

def reviewLoopCanFinish (ctx : Context) (r : AuditRoundResult) (audit : Nat) : Bool :=
  if r.cleanFreshApproval then true
  else if r.consensusReached && audit < ctx.auditRounds then false
  else r.consensusReached

/-- `_completed_review_requires_failure` (audit_round.py:104). -/
def completedReviewRequiresFailure (ctx : Context) (audit : Nat) (p : AuditRoundProgress) : Bool :=
  audit = ctx.auditRounds && p.lastRoundNum = ctx.maxRound && p.selectedRoundNum = p.lastRoundNum &&
    !consensusFailureAllowsContinuation ctx.node &&
    !checkConsensus (p.latestReviewerOutputs.map (·.evaluation))

end Crewplane.Review
