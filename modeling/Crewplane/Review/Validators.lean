import Crewplane.Lib.Checks
import Crewplane.Review.Progress
/-
# Checkpoint validators (core/review_checkpoint.py, core/review_checkpoint_progress.py)

| here | there |
|------|-------|
| `OpenReviewCheckpoint.validate` and its parts | review_checkpoint_state.py:50-95, review_checkpoint.py:100-199 |
| `validateCheckpointNode`     | review_checkpoint.py:232 |
| `validateNodeCursor`, `validateInvocationCoordinates`, `validateArtifactPaths` | :264, 281, 318 |
| `validateCheckpointProgress` and its parts | review_checkpoint_progress.py:24-272 |

`sorted(a) != sorted(b)` is written as a permutation, tuple comparison as
`atMost`, and `path.startswith(stage + "/")` as a proper prefix of components.
-/
namespace Crewplane.Review

open Crewplane.Lib Crewplane.Plan

/-- `x <= y` for tuples `(audit, round)`. -/
def atMost (x y : Nat × Nat) : Prop := x.1 < y.1 ∨ (x.1 = y.1 ∧ x.2 ≤ y.2)

instance (x y : Nat × Nat) : Decidable (atMost x y) := inferInstanceAs (Decidable (_ ∨ _))

def CheckpointInvocation.coordinates (i : CheckpointInvocation) : Nat × Nat := (i.audit, i.localRound)

namespace OpenReviewCheckpoint

variable (cp : OpenReviewCheckpoint)

def byPath : Dict RelPath CheckpointFile := Dict.ofPairs (cp.files.map fun f => (f.relativePath, f))

def coordinates : Nat × Nat := (cp.audit, cp.localRound)

def validateCandidateEvidence : Except String Unit :=
  checkAll cp.progress.candidates fun c =>
    match cp.byPath.get? c.outputPath with
    | none => .error "Candidate lacks matching producer evidence."
    | some d => require (d.purpose = .executorOutput ∧ d.taskId = c.taskId ∧ d.role = .executor ∧
        d.audit = c.producerAudit ∧ d.localRound = c.producerRound ∧ c.role = .executor ∧
        atMost (c.producerAudit, c.producerRound) c.coordinates) "Candidate lacks matching producer evidence."

def validateReviewEvidence : Except String Unit :=
  checkAll cp.progress.reviews fun r =>
    match cp.byPath.get? r.outputPath with
    | none => .error "Review lacks matching invocation evidence."
    | some d => require (d.purpose = .reviewerOutput ∧ d.taskId = r.taskId ∧ d.role = .reviewer ∧
        d.audit = r.audit ∧ d.localRound = r.localRound ∧ r.role = .reviewer)
        "Review lacks matching invocation evidence."

def validateGeneratedMappings : Except String Unit :=
  let outputs := cp.progress.candidates.map (·.outputPath) ++ cp.progress.reviews.map (·.outputPath)
  let mappings := cp.generatedMappings.map (·.outputPath)
  require (mappings.Nodup ∧ ∀ m ∈ mappings, m ∈ outputs) "Generated mappings must uniquely reference carried outputs."

def validateWorkspaceEvidence : Except String Unit := do
  require (cp.workspaces.map (·.destinationPath)).Nodup "Workspace destinations must be unique."
  checkAll cp.workspaces fun w =>
    match cp.byPath.get? w.snapshotPath with
    | none => .error "Workspace snapshot lacks matching invocation evidence."
    | some d => require (d.purpose = .workspaceState ∧ d.toCheckpointInvocation = w.toCheckpointInvocation)
        "Workspace snapshot lacks matching invocation evidence."

def validatePhaseRequirements : Except String Unit := do
  require (cp.nextPhase = .finalize → cp.progress.activeAudit = none ∧ cp.progress.latestExecutorOutputs.getD [] ≠ [] ∧
      1 ≤ cp.progress.selectedRoundNum) "Finalization requires a settled selected candidate."
  require (cp.nextPhase = .reviewers → 0 < cp.localRound →
      (cp.progress.activeAudit.map (·.executorOutputs)).getD [] ≠ []) "Reviewers require a complete active candidate."
  require (cp.nextPhase = .executors → 1 < cp.localRound → cp.progress.activeAudit.isSome = true)
    "Remediation executors require active audit progress."

def validateReferences : Except String Unit := do
  require (cp.files.map (·.relativePath)).Nodup "Checkpoint file paths must be unique."
  cp.validateCandidateEvidence
  cp.validateReviewEvidence
  cp.validateGeneratedMappings
  cp.validateWorkspaceEvidence
  cp.validatePhaseRequirements

/-- Every record of the checkpoint that names an invocation. -/
def invocationRecords : List CheckpointInvocation :=
  cp.files.map (·.toCheckpointInvocation) ++ cp.progress.candidates.map (·.toCheckpointInvocation) ++
    cp.progress.reviews.map (·.toCheckpointInvocation) ++ cp.progress.failures.map (·.toCheckpointInvocation) ++
    cp.workspaces.map (·.toCheckpointInvocation)

/-- The bounds the fields declare (`ge=1`). -/
def validateFields : Except String Unit :=
  require (1 ≤ cp.audit ∧ (∀ i ∈ cp.invocationRecords, 1 ≤ i.audit) ∧
      ∀ c ∈ cp.progress.candidates, 1 ≤ c.producerAudit ∧ 1 ≤ c.producerRound)
    "Input should be greater than or equal to 1"

/-- What constructing the model checks. -/
def validate : Except String Unit := do
  cp.validateFields
  cp.validateReferences

end OpenReviewCheckpoint

/-! ## Progress -/

section Progress

variable (cp : OpenReviewCheckpoint) (node : ReviewNode)

def nodeMaxRound : Nat := maximumReviewRound (remediationDepthOrDefault node.executionPolicy.depth)

def tasksOf (role : ProviderRole) : List TaskId := (cp.tasks.filter fun t => t.role = role).map (·.taskId)

def validateExecutorGroup (group : List CheckpointCandidate) (executors : List TaskId) : Except String Unit :=
  require (group.map (·.taskId) = executors ∧ (group.map (·.coordinates)).dedup.length = 1)
    "Checkpoint candidates require the complete ordered executor phase."

def validateCandidateIdentity (byPath : Dict RelPath CheckpointCandidate) (c : CheckpointCandidate) :
    Except String (Dict RelPath CheckpointCandidate) := do
  require (∀ d ∈ byPath.get? c.outputPath, d = c) "Checkpoint contains conflicting candidate identities."
  require ((c.producerAudit, c.producerRound) = c.coordinates ∨ (c.producerAudit < c.audit ∧ c.localRound = 1))
    "Only fresh audits may seed an earlier producer candidate."
  return byPath.setItem c.outputPath c

def candidateGroups : List (Option (List CheckpointCandidate)) :=
  cp.progress.latestExecutorOutputs ::
    match cp.progress.activeAudit with
    | none => []
    | some active => [some active.executorOutputs, active.previousExecutorOutputs, active.latestValidExecutorOutputs]

def validateGroup (byPath : Dict RelPath CheckpointCandidate) (group : Option (List CheckpointCandidate)) :
    Except String (Dict RelPath CheckpointCandidate) :=
  match group with
  | none => .ok byPath
  | some candidates => do
    validateExecutorGroup candidates (tasksOf cp .executor)
    candidates.foldlM validateCandidateIdentity byPath

def validateCandidateGroups : Except String Unit := do
  let _ ← (candidateGroups cp).foldlM (validateGroup cp) []
  return ()

def unresolvedFingerprints (reviews : List CheckpointReview) : List String :=
  sortedSet (reviews.flatMap fun r => r.evaluation.unresolvedFingerprints)

def validateExecutorCursor : Except String Unit :=
  if cp.localRound = 1 then
    require (cp.progress.activeAudit = none) "Initial executors cannot carry active audit progress."
  else
    match cp.progress.activeAudit with
    | none => .error "Remediation cursor disagrees with settled active progress."
    | some active => require (active.lastRoundNum = cp.localRound - 1 ∧ 1 ≤ active.selectedRoundNum ∧
        active.selectedRoundNum < cp.localRound ∧ active.previousExecutorOutputs.getD [] ≠ [] ∧
        active.previousExecutorOutputs = active.latestValidExecutorOutputs ∧
        some active.executorOutputs = active.latestValidExecutorOutputs ∧
        (∀ c ∈ active.previousExecutorOutputs.getD [], c.audit = cp.audit) ∧
        active.previousUnresolvedFingerprints = unresolvedFingerprints active.latestReviewerOutputs)
        "Remediation cursor disagrees with settled active progress."

def validateProgressCursor : Except String Unit := do
  require (cp.progress.executedAuditRounds = cp.audit) "Checkpoint progress and audit cursor disagree."
  if cp.nextPhase = .executors then validateExecutorCursor cp
  checkAll (cp.progress.toCheckpointCounters :: (cp.progress.activeAudit.map (·.toCheckpointCounters)).toList)
    fun counters => require (max counters.selectedRoundNum counters.lastRoundNum ≤ nodeMaxRound node)
      "Checkpoint progress exceeds configured round bounds."
  require (cp.nextPhase = .reviewers → ∀ active ∈ cp.progress.activeAudit, ∀ c ∈ active.executorOutputs,
      c.coordinates = cp.coordinates) "Reviewer cursor does not match the active candidate."

def validateBatch (reviews : List CheckpointReview) (failures : List CheckpointReviewerFailure)
    (coordinates : Nat × Nat) : Except String Unit := do
  let expected := tasksOf cp .reviewer
  let invocations := reviews.map (·.toCheckpointInvocation) ++ failures.map (·.toCheckpointInvocation)
  require ((invocations.map (·.taskId)).Perm expected ∧
      ∀ i ∈ invocations, i.coordinates = coordinates ∧ i.role = .reviewer)
    "Checkpoint requires a complete settled reviewer batch."
  let failed := failures.map (·.taskId)
  require (reviews.map (·.taskId) = expected.filter fun t => t ∉ failed)
    "Checkpoint reviewer order does not match the compiled node."

def validateSelectedBatch (candidates : Option (List CheckpointCandidate)) (reviews : List CheckpointReview)
    (failures : List CheckpointReviewerFailure) (selectedRound : Nat) : Except String Unit :=
  if selectedRound = 0 then
    require (reviews = [] ∧ failures = []) "Unselected progress cannot carry a settled review batch."
  else
    match candidates.getD [] with
    | [] => .error "Selected candidate and round disagree."
    | first :: rest => do
      require (∀ c ∈ first :: rest, c.localRound = selectedRound) "Selected candidate and round disagree."
      validateBatch cp reviews failures (first.audit, selectedRound)

def validateSelectedReviews : Except String Unit := do
  validateSelectedBatch cp cp.progress.latestExecutorOutputs cp.progress.latestReviewerOutputs
    cp.progress.reviewerFailures cp.progress.selectedRoundNum
  match cp.progress.activeAudit with
  | none => return ()
  | some active =>
    validateSelectedBatch cp active.latestValidExecutorOutputs active.latestReviewerOutputs
      active.reviewerFailures active.selectedRoundNum

def validateInitialReviews : Except String Unit :=
  if cp.progress.initialReviewCompleted then do
    require (node.executionPolicy.reviewStartsWith = .reviewer) "Initial review is not configured for this node."
    validateBatch cp cp.progress.initialReviews cp.progress.initialFailures (1, 0)
  else
    require (cp.progress.initialReviews = [] ∧ cp.progress.initialFailures = [])
      "Unsettled initial reviews cannot be checkpointed."

def validateReviewPolicy : Except String Unit := do
  require (cp.progress.failures = [] ∨ node.executionPolicy.continueOnFailure = true)
    "Reviewer failures require continuation policy."
  require (cp.progress.consensusReached = true → cp.progress.reviewerFailures = [])
    "Reviewer failures prevent consensus."

/-- The stop reasons with which the loop may end, and what has to be recorded with each. -/
def finalizationPermitted : Prop :=
  match cp.progress.stopReason with
  | some .consensus => cp.progress.consensusReached = true ∧
      (∀ r ∈ cp.progress.latestReviewerOutputs, r.evaluation.approved = true) ∧
      cp.progress.continuedAfterStop = false ∧ cp.progress.continuedAfterExhaustion = false
  | some .noProgress => node.executionPolicy.continueOnFailure = true ∧ cp.progress.continuedAfterStop = true ∧
      cp.progress.consensusReached = false ∧ cp.progress.continuedAfterExhaustion = false
  | some .consensusExhausted => consensusFailureAllowsContinuation node = true ∧
      cp.progress.continuedAfterExhaustion = true ∧ cp.progress.continuedAfterStop = true ∧
      cp.progress.consensusReached = false
  | _ => False

instance : Decidable (finalizationPermitted cp node) := by
  unfold finalizationPermitted
  split <;> infer_instance

def validateFinalization : Except String Unit := do
  require (cp.localRound = cp.progress.lastRoundNum) "Finalization cursor and attempted round disagree."
  require (finalizationPermitted cp node) "Checkpoint finalization is not permitted by the settled review policy."

def validateCheckpointProgress : Except String Unit := do
  validateCandidateGroups cp
  validateProgressCursor cp node
  validateSelectedReviews cp
  validateInitialReviews cp node
  validateReviewPolicy cp node
  if cp.nextPhase = .finalize then validateFinalization cp node

/-! ## Node -/

/-- `provider_role_segments_are_contiguous` (keywords.py:73): no executor follows a reviewer. -/
def roleSegmentsAreContiguous : List ProviderRole → Bool
  | left :: right :: roles =>
    (left ≠ .reviewer || right ≠ .executor) && roleSegmentsAreContiguous (right :: roles)
  | _ => true

def checkpointNodeIsEligible : Bool :=
  let roles := node.providerRecords.map (·.role)
  node.mode = .sequential && roles.contains .executor && roles.contains .reviewer && roleSegmentsAreContiguous roles

def nodeTasks : List CheckpointTask := node.providerRecords.map fun p => ⟨p.taskId, p.role⟩

def validateNodeCursor : Except String Unit := do
  require (cp.audit ≤ auditRoundsOrDefault node.executionPolicy.auditRounds ∧ cp.localRound ≤ nodeMaxRound node)
    "Checkpoint cursor exceeds configured review bounds."
  require (cp.localRound = 0 → cp.audit = 1 ∧ cp.nextPhase = .reviewers ∧
      node.executionPolicy.reviewStartsWith = .reviewer) "Round zero is only valid for initial pre-review."

def validateInvocationCoordinates : Except String Unit :=
  let identities := Dict.ofPairs (cp.tasks.map fun t => (t.taskId, t.role))
  checkAll (cp.invocationRecords) fun i => do
    require (identities.get? i.taskId = some i.role ∧ i.audit ≤ cp.audit ∧ i.localRound ≤ nodeMaxRound node ∧
        atMost i.coordinates cp.coordinates) "Checkpoint invocation identity or coordinates mismatch."
    require (i.localRound = 0 → i.audit = 1 ∧ i.role = .reviewer ∧ node.executionPolicy.reviewStartsWith = .reviewer)
      "Invalid round-zero invocation."

def validateArtifactPaths : Except String Unit :=
  match node.stagePath with
  | none => .error "Checkpoint dependencies must belong to the compiled node stage."
  | some stage => do
    require (∀ f ∈ cp.files, stage <+: f.relativePath ∧ stage.length < f.relativePath.length)
      "Checkpoint dependencies must belong to the compiled node stage."
    let outputs := cp.progress.candidates.map (fun c => (c.toCheckpointInvocation, c.outputPath)) ++
      cp.progress.reviews.map fun r => (r.toCheckpointInvocation, r.outputPath)
    checkAll outputs fun o =>
      let directory := if 1 < auditRoundsOrDefault node.executionPolicy.auditRounds then
        [buildReviewAuditDirectoryName o.1.audit] else []
      require (o.2 = stage ++ directory ++ [buildTaskRoundFilename o.1.taskId o.1.localRound])
        "Checkpoint output path does not match its selected coordinates."

def validateCheckpointNode : Except String Unit := do
  require (cp.expansion = node.expansion) "Checkpoint expansion provenance does not match concrete node"
  require (checkpointNodeIsEligible node = true ∧ cp.nodeId = node.id ∧ cp.tasks = nodeTasks node)
    "Checkpoint node identity or provider topology mismatch."
  validateCheckpointProgress cp node
  validateNodeCursor cp node
  validateInvocationCoordinates cp node
  validateArtifactPaths cp node

end Progress

end Crewplane.Review
