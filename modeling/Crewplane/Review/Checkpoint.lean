import Crewplane.Review.Validators
/-
# Writing and restoring checkpoints

| here | there |
|------|-------|
| `encodeProgress`, `restore`   | review_loop/checkpoint_progress.py:120, 296 |
| `collectCheckpointDependencies` and its parts | review_loop/checkpoint_dependencies.py:25-106 |
| `describeReviewEvidence`      | artifacts/resume/checkpoint_files.py:165 |
| `describeGeneratedMapping`    | artifacts/resume/checkpoint_generated_files.py:24 |
| `prepareCheckpointWorkspaces` | artifacts/workspace/checkpoint_state.py:196 |
| `prepareCheckpoint`           | review_loop/checkpoint.py:129 |

`Evidence` is what the writer finds on disk and in the registries: the current
signature of each file, the generated-file captures, and the recorded workspace
state of the invocations and of the workspaces they came from. The registry of
publications is only asked for the outputs the progress carries, each of which
was published under the signature its artifact is bound to.
-/
namespace Crewplane.Review

open Crewplane.Lib Crewplane.Plan

/-! ## Encoding -/

def ReviewLoopProgress.counters (p : ReviewLoopProgress) : CheckpointCounters :=
  ⟨p.invalidCandidateRoundCount, p.noProgressRoundCount, p.artifactDriftWarningCount, p.lastRoundNum,
    p.selectedRoundNum, p.stopReason⟩

def AuditRoundProgress.counters (p : AuditRoundProgress) : CheckpointCounters :=
  ⟨p.invalidCandidateRoundCount, p.noProgressRoundCount, p.artifactDriftWarningCount, p.lastRoundNum,
    p.selectedRoundNum, p.stopReason⟩

def encodeCandidate (a : ExecutorRoundArtifact) : Except String CheckpointCandidate :=
  match a.candidateIdentity with
  | none => .error "Checkpoint candidate lacks a bound identity."
  | some identity => .ok
      { taskId := a.taskId, role := .executor, audit := a.auditRoundNum.getD 1, localRound := a.roundNum
        producerAudit := a.producerAudit, producerRound := a.producerRound, outputPath := a.outputFile, identity }

def encodeCandidates (outputs : List ExecutorRoundArtifact) : Except String (List CheckpointCandidate) :=
  outputs.mapM encodeCandidate

def encodeOptional (outputs : Option (List ExecutorRoundArtifact)) :
    Except String (Option (List CheckpointCandidate)) :=
  match outputs with
  | none => .ok none
  | some outputs => (encodeCandidates outputs).map some

def encodeEvaluation (e : EvaluatedReviewResult) : CheckpointEvaluation :=
  { verdict := e.verdict, approved := e.approved, majorIssues := e.majorIssues, minorIssues := e.minorIssues
    nitpicks := e.nitpicks, unresolvedFingerprints := e.unresolvedFingerprints
    unresolvedIssueCount := e.unresolvedIssueCount, normalizedMarkdown := e.normalizedMarkdown, rawText := e.rawText
    evaluationKind := e.evaluationKind, warnings := e.warnings, originalVerdict := e.originalVerdict
    hadLeadingText := e.hadLeadingText, hadTrailingText := e.hadTrailingText
    unstructuredFeedback := e.unstructuredFeedback }

def encodeReview (a : ReviewerRoundArtifact) : CheckpointReview :=
  { taskId := a.taskId, role := .reviewer, audit := a.auditRoundNum.getD 1, localRound := a.roundNum
    outputPath := a.outputFile, evaluation := encodeEvaluation a.evaluation }

def encodeAudit (active : AuditRoundProgress) : Except String CheckpointAuditProgress := do
  let executorOutputs ← encodeCandidates active.executorOutputs
  let previous ← encodeOptional active.previousExecutorOutputs
  let latestValid ← encodeOptional active.latestValidExecutorOutputs
  return { active.counters with
    executorOutputs
    previousExecutorOutputs := previous
    previousUnresolvedFingerprints := active.previousUnresolvedFingerprints
    previousExecutorFingerprint := active.previousExecutorFingerprint
    latestValidExecutorOutputs := latestValid
    latestReviewerOutputs := active.latestReviewerOutputs.map encodeReview
    reviewerFailures := active.reviewerFailures }

def encodeActive (active : Option AuditRoundProgress) : Except String (Option CheckpointAuditProgress) :=
  match active with
  | none => .ok none
  | some active => (encodeAudit active).map some

def encodeProgress (p : ReviewLoopProgress) : Except String CheckpointProgress := do
  let activeAudit ← encodeActive p.activeAudit
  let latest ← encodeOptional p.latestExecutorOutputs
  return { p.counters with
    latestExecutorOutputs := latest
    latestReviewerOutputs := p.latestReviewerOutputs.map encodeReview
    reviewerFailures := p.reviewerFailures
    executedAuditRounds := p.executedAuditRounds
    consensusReached := p.consensusReached
    continuedAfterExhaustion := p.continuedAfterExhaustion
    continuedAfterStop := p.continuedAfterStop
    stall := ⟨p.stall.consecutiveRoundCount, p.stall.candidateFingerprint, p.stall.reviewFeedback⟩
    activeAudit
    initialReviewCompleted := p.initialReviewCompleted
    initialReviews := p.initialReviews.map encodeReview
    initialFailures := p.initialFailures }

/-! ## Evidence -/

/-- A captured generated-file workspace: the invocation whose output it belongs to,
its directory name and the files in it. -/
structure GeneratedSnapshot where
  owner : CheckpointInvocation
  directory : String
  files : List (RelPath × ContentSignature)

/-- The semantic workspace state recorded for one invocation. -/
structure WorkspacePayload where
  invocation : CheckpointInvocation
  provider : String
  /-- `checkpoint_invocation_is_valid`: the recorded evidence matches the plan and the repository. -/
  valid : Bool
  /-- Signature of the encoded state. -/
  signature : ContentSignature
  slug : String
  bundle : Option String

structure Evidence where
  fileSignature : RelPath → Option ContentSignature
  /-- `generated_file_workspaces.roots_for_node`, by output file. -/
  generatedRoots : RelPath → Option (Option GeneratedSnapshot)
  /-- `_load_workspace_payloads`: the recorded states by destination. -/
  workspacePayloads : CheckpointProgress → Except String (List (RelPath × WorkspacePayload))
  /-- `invocation_slug` (core/workspace/invocation_identity.py:23), a hashed name. -/
  invocationSlug : TaskId → Option Nat → Nat → String

def describeCheckpointFile (ev : Evidence) (path : RelPath) (i : CheckpointInvocation) (purpose : FilePurpose)
    (expected : Option ContentSignature) : Except String CheckpointFile :=
  match ev.fileSignature path with
  | none => .error ("Checkpoint dependency is missing or unsafe: " ++ "/".intercalate path)
  | some actual =>
    if expected.all (· = actual) then .ok { i with purpose, relativePath := path, signature := actual }
    else .error ("Checkpoint dependency changed: " ++ "/".intercalate path)

/-- Descriptors by path: first-seen order, the last descriptor wins. -/
def dedupByPath (files : List CheckpointFile) : List CheckpointFile :=
  (Dict.ofPairs (files.map fun f => (f.relativePath, f))).values

/-- What the registry holds for the outputs of this progress. -/
def ReviewLoopProgress.publications (p : ReviewLoopProgress) : Dict RelPath ContentSignature :=
  let ofExecutors := fun (outputs : List ExecutorRoundArtifact) =>
    outputs.filterMap fun a => a.outputSignature.map fun s => (a.outputFile, s)
  let ofReviewers := fun (outputs : List ReviewerRoundArtifact) =>
    outputs.filterMap fun a => a.outputSignature.map fun s => (a.outputFile, s)
  Dict.ofPairs (ofExecutors (p.latestExecutorOutputs.getD []) ++ ofReviewers p.initialReviews ++
    ofReviewers p.latestReviewerOutputs ++
    match p.activeAudit with
    | none => []
    | some active => ofExecutors active.executorOutputs ++ ofExecutors (active.previousExecutorOutputs.getD []) ++
        ofExecutors (active.latestValidExecutorOutputs.getD []) ++ ofReviewers active.latestReviewerOutputs)

/-- The carried outputs: who produced them, where they are, and what they are. -/
def carriedOutputs (stored : CheckpointProgress) : List (CheckpointInvocation × RelPath × FilePurpose) :=
  stored.candidates.map (fun c =>
    (⟨c.taskId, c.role, c.producerAudit, c.producerRound⟩, c.outputPath, FilePurpose.executorOutput)) ++
  stored.reviews.map fun r => (r.toCheckpointInvocation, r.outputPath, FilePurpose.reviewerOutput)

def outputDependencies (ev : Evidence) (published : Dict RelPath ContentSignature) (stored : CheckpointProgress) :
    Except String (List CheckpointFile) := do
  let files ← (carriedOutputs stored).mapM fun o =>
    match published.get? o.2.1 with
    | none => .error ("Checkpoint output has no runtime publication: " ++ "/".intercalate o.2.1)
    | some signature => describeCheckpointFile ev o.2.1 o.1 o.2.2 (some signature)
  return dedupByPath files

/-- The part of a file name before its last dot. -/
def fileStem (name : String) : String :=
  match name.toList.reverse.dropWhile (· ≠ '.') with
  | _ :: c :: stem => String.ofList (c :: stem).reverse
  | _ => name

/-- `path.with_suffix(suffix)`. -/
def withSuffix (path : RelPath) (suffix : String) : RelPath := path.dropLast ++ [fileStem (path.getLastD "") ++ suffix]

/-- `safe_artifact_name` (contracts/artifacts.py:137); task ids are in lower case already. -/
def safeArtifactName (name : String) : String :=
  let step := fun (slug : List Char) (c : Char) =>
    if c.isLower || c.isDigit then c :: slug else if slug.head? = some '-' then slug else '-' :: slug
  let slug := ((strip name).toLower.toList.foldl step []).dropWhile (· = '-')
  let slug := slug.reverse.dropWhile (· = '-')
  if slug.isEmpty then "task" else String.ofList slug

def buildReviewerStateFilename (task : TaskId) (round : Nat) : String :=
  safeArtifactName task ++ "-round-" ++ Nat.repr round ++ ".state.json"

def reviewStateRelativePath (directory : RelPath) (i : CheckpointInvocation) : RelPath :=
  directory ++ ["review-state", buildReviewerStateFilename i.taskId i.localRound]

/-- Paths and purposes of the sidecars of a progress, in the order they are described. -/
def reviewEvidencePaths (ctx : Context) (stored : CheckpointProgress) :
    List (CheckpointInvocation × RelPath × FilePurpose) :=
  stored.reviews.flatMap (fun r =>
    [(r.toCheckpointInvocation, withSuffix r.outputPath ".review.json", .reviewMetadata),
      (r.toCheckpointInvocation, withSuffix r.outputPath ".raw.txt", .reviewMetadata),
      (r.toCheckpointInvocation, reviewStateRelativePath r.outputPath.dropLast r.toCheckpointInvocation,
        .reviewState)]) ++
  stored.failures.map (fun f =>
    (f.toCheckpointInvocation, reviewStateRelativePath (auditRoundDir ctx f.audit) f.toCheckpointInvocation,
      .reviewFailure)) ++
  stored.candidates.map fun c =>
    (⟨c.taskId, c.role, c.producerAudit, c.producerRound⟩, withSuffix c.outputPath ".candidate.json",
      .candidateIdentity)

def describeReviewEvidence (ctx : Context) (ev : Evidence) (stored : CheckpointProgress) :
    Except String (List CheckpointFile) := do
  let files ← (reviewEvidencePaths ctx stored).mapM fun e => describeCheckpointFile ev e.2.1 e.1 e.2.2 none
  return dedupByPath files

/-- `generated_file_source_root` (artifacts/generated_files/catalog.py:321). -/
def generatedFileSourceRoot (ctx : Context) (snapshot : GeneratedSnapshot) : RelPath :=
  auditRoundDir ctx snapshot.owner.audit ++ ["generated-file-sources", snapshot.directory]

def describeGeneratedMapping (ctx : Context) (ev : Evidence) (output : CheckpointFile)
    (snapshot : Option GeneratedSnapshot) : Except String (CheckpointGeneratedMapping × List CheckpointFile) :=
  match snapshot with
  | none => .ok (⟨output.relativePath, none⟩, [])
  | some snapshot => do
    let root := generatedFileSourceRoot ctx snapshot
    let metadata ← [".crewplane-generated-file-source.json", ".crewplane-generated-file-snapshot.json"].mapM fun name =>
      describeCheckpointFile ev (root ++ [name]) output.toCheckpointInvocation .generatedMetadata none
    let files ← snapshot.files.mapM fun f =>
      describeCheckpointFile ev (root ++ f.1) output.toCheckpointInvocation .generatedFile (some f.2)
    return (⟨output.relativePath, some root⟩, metadata ++ files)

def generatedDependencies (ctx : Context) (ev : Evidence) (files : List CheckpointFile) :
    Except String (List CheckpointGeneratedMapping × List CheckpointFile) := do
  let outputs := files.filter fun f => f.purpose = .executorOutput ∨ f.purpose = .reviewerOutput
  let captured := outputs.filterMap fun f => (ev.generatedRoots f.relativePath).map fun snapshot => (f, snapshot)
  let described ← captured.mapM fun c => describeGeneratedMapping ctx ev c.1 c.2
  return (described.map Prod.fst, described.flatMap Prod.snd)

/-! ## Workspaces -/

def stageDir (ctx : Context) : RelPath := ctx.node.stagePath.getD []

/-- `invocation_destination` (checkpoint_state.py:124). -/
def invocationDestination (ctx : Context) (ev : Evidence) (i : CheckpointInvocation) : RelPath :=
  stageDir ctx ++ ["workspace-state-" ++
    ev.invocationSlug i.taskId (auditRoundContext ctx.policy.auditRounds i.audit) i.localRound ++ ".json"]

def snapshotPath (ctx : Context) (payload : WorkspacePayload) : RelPath :=
  stageDir ctx ++ ["review-state", "checkpoints", "workspaces",
    payload.slug ++ "--" ++ String.ofList (payload.signature.sha256.toList.take 16) ++ ".json"]

/-- The identity part of `_validate_payloads` (checkpoint_state.py:354), and its verdict on the rest. -/
def validatePayload (ctx : Context) (ev : Evidence) (entry : RelPath × WorkspacePayload) : Except String Unit := do
  let payload := entry.2
  match ctx.node.providerRecords.reverse.find? (·.taskId = payload.invocation.taskId) with
  | none => .error "Checkpoint workspace invocation identity mismatch."
  | some provider =>
    require (payload.provider = provider.provider ∧ payload.invocation.role = provider.role ∧
        entry.1 = invocationDestination ctx ev payload.invocation ∧
        -- the stem of the destination is what the snapshot is named after
        payload.slug = ev.invocationSlug payload.invocation.taskId
          (auditRoundContext ctx.policy.auditRounds payload.invocation.audit) payload.invocation.localRound)
      "Checkpoint workspace invocation identity mismatch."
    require (payload.valid = true)
      ("Invalid checkpoint workspace invocation: " ++ "/".intercalate entry.1)

def bundleDependencies (ctx : Context) (ev : Evidence) (payload : WorkspacePayload) :
    Except String (List CheckpointFile) :=
  payload.bundle.toList.mapM fun name =>
    describeCheckpointFile ev (stageDir ctx ++ ["workspace-bundles", name ++ ".bundle"]) payload.invocation
      .workspaceBundle none

def setupDependencies (ctx : Context) (ev : Evidence) (payload : WorkspacePayload) :
    Except String (List CheckpointFile) :=
  if (ctx.node.workspacePolicy.map (·.setup)).getD false then
    ["workspace-state-" ++ payload.slug ++ ".json", "workspace-state-" ++ payload.slug ++ ".log"].mapM fun name =>
      describeCheckpointFile ev (stageDir ctx ++ ["workspace-setup", name]) payload.invocation .workspaceSetup none
  else .ok []

def workspaceDependencies (ctx : Context) (ev : Evidence) (payload : WorkspacePayload) :
    Except String (List CheckpointFile) := do
  let bundle ← bundleDependencies ctx ev payload
  let setup ← setupDependencies ctx ev payload
  return bundle ++ setup

def workspaceFiles (ctx : Context) (ev : Evidence) (entry : RelPath × WorkspacePayload) :
    Except String (List CheckpointFile) := do
  let dependencies ← workspaceDependencies ctx ev entry.2
  return { entry.2.invocation with
    purpose := .workspaceState, relativePath := snapshotPath ctx entry.2, signature := entry.2.signature } ::
    dependencies

def prepareCheckpointWorkspaces (ctx : Context) (ev : Evidence) (stored : CheckpointProgress) :
    Except String (List CheckpointWorkspace × List CheckpointFile) :=
  if (ctx.node.workspacePolicy.map (·.enabled)).getD false then do
    let payloads ← ev.workspacePayloads stored
    checkAll payloads (validatePayload ctx ev)
    let files ← payloads.mapM (workspaceFiles ctx ev)
    return (payloads.map fun e =>
      { e.2.invocation with snapshotPath := snapshotPath ctx e.2, destinationPath := e.1 }, dedupByPath files.flatten)
  else .ok ([], [])

/-! ## The checkpoint -/

def prepareCheckpoint (ctx : Context) (ev : Evidence) (p : ReviewLoopProgress) (phase : CheckpointPhase)
    (localRound : Nat) : Except String OpenReviewCheckpoint := do
  let stored ← encodeProgress p
  let outputs ← outputDependencies ev p.publications stored
  let evidence ← describeReviewEvidence ctx ev stored
  let (mappings, generated) ← generatedDependencies ctx ev (outputs ++ evidence)
  let (workspaces, workspaceFiles) ← prepareCheckpointWorkspaces ctx ev stored
  return {
    nodeId := ctx.node.id
    expansion := ctx.node.expansion
    tasks := nodeTasks ctx.node
    audit := p.cursorAudit
    localRound
    nextPhase := phase
    progress := stored
    files := dedupByPath (outputs ++ evidence ++ generated ++ workspaceFiles)
    generatedMappings := mappings
    workspaces }

/-! ## Restoring -/

section Restore

variable (ctx : Context) (cp : OpenReviewCheckpoint)

/-- `providers[task_id]`. -/
def restoreProvider (task : TaskId) : Except String ProviderRecord :=
  match (Dict.ofPairs (ctx.node.providerRecords.map fun p => (p.taskId, p))).get? task with
  | some provider => .ok provider
  | none => .error task

/-- `files[output_path]`. -/
def restoreFile (path : RelPath) : Except String CheckpointFile :=
  match cp.byPath.get? path with
  | some file => .ok file
  | none => .error ("/".intercalate path)

def restoreAuditNumber (audit : Nat) : Option Nat := if 1 < ctx.auditRounds then some audit else none

def restoreCandidate (c : CheckpointCandidate) : Except String ExecutorRoundArtifact := do
  let descriptor ← restoreFile cp c.outputPath
  let provider ← restoreProvider ctx c.taskId
  return { provider, taskId := c.taskId, content := ctx.readOutput descriptor.signature, outputFile := c.outputPath
           auditRoundNum := restoreAuditNumber ctx c.audit, roundNum := c.localRound
           outputSignature := some descriptor.signature
           candidateIdentity := some ⟨c.identity.kind, c.identity.fingerprint, c.identity.sourceFingerprint,
             c.identity.reason⟩
           producerAudit := c.producerAudit, producerRound := c.producerRound }

def restoreCandidates (items : List CheckpointCandidate) : Except String (List ExecutorRoundArtifact) :=
  items.mapM (restoreCandidate ctx cp)

def restoreOptional (items : Option (List CheckpointCandidate)) :
    Except String (Option (List ExecutorRoundArtifact)) :=
  match items with
  | none => .ok none
  | some items => (restoreCandidates ctx cp items).map some

def restoreEvaluation (e : CheckpointEvaluation) : EvaluatedReviewResult :=
  { verdict := e.verdict, approved := e.approved, majorIssues := e.majorIssues, minorIssues := e.minorIssues
    nitpicks := e.nitpicks, unresolvedFingerprints := e.unresolvedFingerprints
    unresolvedIssueCount := e.unresolvedIssueCount, normalizedMarkdown := e.normalizedMarkdown, rawText := e.rawText
    evaluationKind := e.evaluationKind, warnings := e.warnings, originalVerdict := e.originalVerdict
    hadLeadingText := e.hadLeadingText, hadTrailingText := e.hadTrailingText
    unstructuredFeedback := e.unstructuredFeedback }

def restoreReview (r : CheckpointReview) : Except String ReviewerRoundArtifact := do
  let provider ← restoreProvider ctx r.taskId
  let descriptor ← restoreFile cp r.outputPath
  return { provider, taskId := r.taskId, evaluation := restoreEvaluation r.evaluation, outputFile := r.outputPath
           auditRoundNum := restoreAuditNumber ctx r.audit, roundNum := r.localRound
           outputSignature := some descriptor.signature }

def restoreReviews (items : List CheckpointReview) : Except String (List ReviewerRoundArtifact) :=
  items.mapM (restoreReview ctx cp)

/-- The feedback handed to the next executors is rendered again from the saved reviews. -/
def restoreAudit (active : CheckpointAuditProgress) : Except String AuditRoundProgress := do
  let reviews ← restoreReviews ctx cp active.latestReviewerOutputs
  let executorOutputs ← restoreCandidates ctx cp active.executorOutputs
  let previous ← restoreOptional ctx cp active.previousExecutorOutputs
  let latestValid ← restoreOptional ctx cp active.latestValidExecutorOutputs
  return { executorOutputs
           previousExecutorOutputs := previous
           previousReviewPacket :=
             if active.previousExecutorOutputs.isSome then renderUnresolvedReviewPacket reviews else none
           previousUnresolvedFingerprints := active.previousUnresolvedFingerprints
           previousExecutorFingerprint := active.previousExecutorFingerprint
           latestValidExecutorOutputs := latestValid
           latestReviewerOutputs := reviews
           invalidCandidateRoundCount := active.invalidCandidateRoundCount
           noProgressRoundCount := active.noProgressRoundCount
           artifactDriftWarningCount := active.artifactDriftWarningCount
           lastRoundNum := active.lastRoundNum
           selectedRoundNum := active.selectedRoundNum
           stopReason := active.stopReason
           reviewerFailures := active.reviewerFailures }

def restoreActive (active : Option CheckpointAuditProgress) : Except String (Option AuditRoundProgress) :=
  match active with
  | none => .ok none
  | some active => (restoreAudit ctx cp active).map some

/-- `ProgressRestorer(checkpoint, …).restore()`. -/
def restore : Except String ReviewLoopProgress := do
  let stored := cp.progress
  let latest ← restoreOptional ctx cp stored.latestExecutorOutputs
  let reviews ← restoreReviews ctx cp stored.latestReviewerOutputs
  let initialReviews ← restoreReviews ctx cp stored.initialReviews
  let activeAudit ← restoreActive ctx cp stored.activeAudit
  return { latestExecutorOutputs := latest
           latestReviewerOutputs := reviews
           executedAuditRounds := stored.executedAuditRounds
           lastRoundNum := stored.lastRoundNum
           consensusReached := stored.consensusReached
           continuedAfterExhaustion := stored.continuedAfterExhaustion
           invalidCandidateRoundCount := stored.invalidCandidateRoundCount
           noProgressRoundCount := stored.noProgressRoundCount
           artifactDriftWarningCount := stored.artifactDriftWarningCount
           selectedRoundNum := stored.selectedRoundNum
           stopReason := stored.stopReason
           continuedAfterStop := stored.continuedAfterStop
           stall := ⟨stored.stall.consecutiveRoundCount, stored.stall.candidateFingerprint,
             stored.stall.reviewFeedback⟩
           activeAudit
           reviewerFailures := stored.reviewerFailures
           initialReviewCompleted := stored.initialReviewCompleted
           initialReviews
           initialFailures := stored.initialFailures
           cursorAudit := cp.audit
           cursorRound := cp.localRound
           nextPhase := cp.nextPhase }

end Restore

end Crewplane.Review
