import Crewplane.Lib.Runs
import Crewplane.Review.Checkpoint
/-
# The review loop as a machine (orchestration.py, audit_round.py, initial_candidate.py)

| here | there |
|------|-------|
| `enterStage`            | `execute_review_loop_stage` (orchestration.py:89) |
| `startAudit`, `settleAudit`, `finishExhausted` | `execute_review_loop_audits` (:205), `_finish_exhausted_review_loop` (:251) |
| `preReview`, `seedAudit`| `initial_pre_review_handoff`, `initial_audit_executor_outputs` (initial_candidate.py:128, 80) |
| `startRound`, `reviewRound`, `advanceRound` | `execute_audit_round_iterations`, `_execute_audit_iteration` (audit_round.py:126, 152) |
| `prepareReviewCandidate`| audit_round.py:266 |
| `runReviewerRound`      | reviewer_round.py:66 |
| `commitTransition`      | `_commit_transition` (orchestration.py:462), `commit_checkpoint` (checkpoint.py:160) |

One step runs the code between two places where the loop can be left: a provider
round, a commit, the end of an audit. An `Environment` answers every provider
round by its coordinates, which no run visits twice, and says which awaited
operation raises, and what; cancellation is one such exception. Prompts,
diagnostics and the discarding of rejected workspaces leave the progress alone.
-/
namespace Crewplane.Review

open Crewplane.Lib Crewplane.Plan

inductive Fault
  | cancelled
  | invocation (kind : String)
  | policy (message : String)
  | other (message : String)
  deriving DecidableEq, Repr

/-- The answer of one executor: its bound output, if it left one. -/
structure ExecutorResponse where
  output : Option ContentSignature
  identity : CandidateIdentity
  driftWarnings : Nat

inductive ReviewerOutcome
  | evaluated (evaluation : EvaluatedReviewResult) (signature : ContentSignature)
  | unusable (kind warning : String)

inductive ReviewerResponse
  | failed (kind warning : String)
  | answered (driftWarnings : Nat) (outcome : ReviewerOutcome)

/-- Where an awaited operation can raise. -/
inductive Point
  | entry | auditStart | preReview | seeding | roundStatus | recovery | candidate | reviewRequest | reviewed
  | auditStatus | findings
  | commit (phase : CheckpointPhase)
  deriving DecidableEq, Repr

/-- Everything outside the loop, by audit and round. -/
structure Environment where
  executors : Nat → Nat → Except Fault (TaskId → ExecutorResponse)
  reviewers : Nat → Nat → Except Fault (TaskId → ReviewerResponse)
  fault : Point → Nat → Nat → Option Fault
  evidence : Evidence

inductive Control
  | entry
  | audit (a : Nat)
  | preReview (a : Nat)
  | seed (a : Nat)
  /-- `due`: the checkpoint was taken before the reviewers of this round. -/
  | round (a r : Nat) (due : Bool)
  | review (a r : Nat) (fingerprint : Option String)
  | advance (a r : Nat)
  | settled (a : Nat) (consensus clean : Bool)
  | exhausted
  | finalize
  | returned
  | raised (fault : Fault)
  deriving DecidableEq, Repr

/-- `prepared` and `committed` list the checkpoints in the order they were made. -/
structure Session where
  control : Control
  progress : ReviewLoopProgress
  prepared : List OpenReviewCheckpoint := []
  committed : List OpenReviewCheckpoint := []

/-! ## Provider rounds -/

section Rounds

variable (ctx : Context)

def executorArtifact (audit round : Nat) (response : TaskId → ExecutorResponse) (p : ProviderRecord) :
    ExecutorRoundArtifact :=
  let r := response p.taskId
  { provider := p, taskId := p.taskId
    content := (r.output.map ctx.readOutput).getD ""
    outputFile := outputPath ctx audit p.taskId round
    auditRoundNum := auditRoundContext ctx.policy.auditRounds audit
    roundNum := round
    outputSignature := r.output
    candidateIdentity := some r.identity
    producerAudit := audit, producerRound := round }

def runExecutorRound (audit round : Nat) (response : TaskId → ExecutorResponse) : ExecutorRoundRunResult :=
  { outputs := ctx.executors.map (executorArtifact ctx audit round response)
    driftWarningCount := (ctx.executors.map fun p => (response p.taskId).driftWarnings).sum }

/-- `seed_executor_outputs` (initial_candidate.py:241). -/
def seedExecutorOutputs (audit : Nat) (outputs : List ExecutorRoundArtifact) :
    Except String (List ExecutorRoundArtifact) :=
  outputs.mapM fun a =>
    match a.outputSignature with
    | none => .error ("Cannot seed an executor output without a bound runtime publication: " ++
        "/".intercalate a.outputFile)
    | some signature =>
      if ctx.readOutput signature ≠ a.content then
        .error ("Executor content does not match its bound output bytes: " ++ "/".intercalate a.outputFile)
      else .ok
        { a with
          outputFile := outputPath ctx audit a.taskId 1
          auditRoundNum := auditRoundContext ctx.policy.auditRounds audit
          roundNum := 1 }

def reviewerFailure (audit round : Nat) (p : ProviderRecord) (kind warning : String) : CheckpointReviewerFailure :=
  { taskId := p.taskId, role := p.role, audit, localRound := round, failureKind := kind, warning }

def invocationFailure? (audit round : Nat) (response : TaskId → ReviewerResponse) (p : ProviderRecord) :
    Option CheckpointReviewerFailure :=
  match response p.taskId with
  | .failed kind warning => some (reviewerFailure audit round p kind warning)
  | .answered _ _ => none

def outputFailure? (audit round : Nat) (response : TaskId → ReviewerResponse) (p : ProviderRecord) :
    Option CheckpointReviewerFailure :=
  match response p.taskId with
  | .answered _ (.unusable kind warning) => some (reviewerFailure audit round p kind warning)
  | _ => none

def reviewerArtifact? (audit round : Nat) (response : TaskId → ReviewerResponse) (p : ProviderRecord) :
    Option ReviewerRoundArtifact :=
  match response p.taskId with
  | .answered _ (.evaluated evaluation signature) => some
      { provider := p, taskId := p.taskId, evaluation
        outputFile := outputPath ctx audit p.taskId round
        auditRoundNum := auditRoundContext ctx.policy.auditRounds audit
        roundNum := round, outputSignature := some signature }
  | _ => none

def reviewerDrift (response : TaskId → ReviewerResponse) (p : ProviderRecord) : Nat :=
  match response p.taskId with
  | .failed _ _ => 0
  | .answered driftWarnings _ => driftWarnings

/-- Failures raise unless the node continues on failure. -/
def runReviewerRound (audit round : Nat) (response : TaskId → ReviewerResponse) :
    Except Fault ReviewerRoundRunResult :=
  let failures := ctx.reviewers.filterMap (invocationFailure? audit round response) ++
    ctx.reviewers.filterMap (outputFailure? audit round response)
  if failures ≠ [] ∧ ctx.policy.continueOnFailure = false then .error (.other "Reviewer invocation failed for node")
  else .ok
    { outputs := ctx.reviewers.filterMap (reviewerArtifact? ctx audit round response)
      driftWarningCount := (ctx.reviewers.map (reviewerDrift response)).sum
      reviewerFailureCount := failures.length
      failures }

end Rounds

/-! ## Candidates -/

inductive CandidateOutcome
  | «continue» | stop | review (fingerprint : Option String)
  deriving DecidableEq, Repr

/-- `_prepare_review_candidate` with `record_invalid_candidate_and_should_stop` and
`record_no_progress_candidate` (audit_round.py:266, 469, 503). -/
def prepareReviewCandidate (ctx : Context) (p : AuditRoundProgress) (stall : ReviewStallState) (round : Nat) :
    AuditRoundProgress × ReviewStallState × CandidateOutcome :=
  if !(validateExecutorOutputs ctx p.executorOutputs).valid then
    let p := { p with invalidCandidateRoundCount := p.invalidCandidateRoundCount + 1 }
    let stall := { stall with consecutiveRoundCount := 0 }
    match p.latestValidExecutorOutputs with
    | none => (p, stall, .stop)
    | some latest => if round = 1 then (p, stall, .stop) else ({ p with executorOutputs := latest }, stall, .continue)
  else
    let fingerprint := buildExecutorOutputFingerprint ctx p.executorOutputs
    if isNoProgressCandidate p fingerprint round then
      let p := { p with
        noProgressRoundCount := p.noProgressRoundCount + 1
        executorOutputs := p.latestValidExecutorOutputs.getD [] }
      let (stall, reached) := stall.recordUnchangedAttempt
      if reached then ({ p with stopReason := some .noProgress }, stall, .stop) else (p, stall, .continue)
    else
      let stall := if fingerprint = none ∨ fingerprint ≠ stall.candidateFingerprint then
        { stall with consecutiveRoundCount := 0 } else stall
      (p, stall, .review fingerprint)

/-- `_completed_rejection_survives_cancellation` (audit_round.py:240). -/
def completedRejectionSurvivesCancellation (ctx : Context) (p : AuditRoundProgress) (audit round : Nat)
    (outcome : CandidateOutcome) : Bool :=
  (p.stopReason = some .noProgress && !ctx.policy.continueOnFailure) ||
  (audit = ctx.auditRounds && (outcome = .stop || (outcome = .continue && round = ctx.maxRound)) &&
    (p.latestValidExecutorOutputs = none || !consensusFailureAllowsContinuation ctx.node))

/-! ## Messages of the policy errors (completion_policy.py) -/

def noCandidateMessage (id : NodeId) : String :=
  "Sequential node '" ++ id ++ "' did not produce a valid canonical candidate."

def exhaustedMessage (id : NodeId) (executed : Nat) : String :=
  "Sequential node '" ++ id ++ "' failed to reach consensus after " ++ Nat.repr executed ++ " audit rounds."

def stalledMessage (id : NodeId) (consecutive : Nat) : String :=
  "Sequential node '" ++ id ++ "' stopped with no_progress after " ++ Nat.repr consecutive ++
    " consecutive unchanged remediation attempts. Review feedback remains unresolved."

def rejectionMessage (id : NodeId) (p : ReviewLoopProgress) : String :=
  if p.latestExecutorOutputs = none then noCandidateMessage id else exhaustedMessage id p.executedAuditRounds

/-! ## Steps -/

section Steps

variable (ctx : Context) (env : Environment)

def Session.raise (s : Session) (fault : Fault) : Session := { s with control := .raised fault }

def Session.withAudit (s : Session) (active : AuditRoundProgress) : Session :=
  { s with progress := { s.progress with activeAudit := some active } }

/-- An exception inside `execute_single_audit_round` (audit_round.py:73): a cancelled
last review that policy rejects still ends the audit. -/
def raiseInAudit (s : Session) (a : Nat) (active : AuditRoundProgress) (fault : Fault) : Session :=
  let s := s.withAudit active
  if fault = .cancelled ∧ completedReviewRequiresFailure ctx a active = true then
    { s with control := .settled a false false }
  else s.raise fault

/-- Validate and publish the checkpoint of this transition, then go on. -/
def commitTransition (s : Session) (phase : CheckpointPhase) (localRound : Nat) (next : Control)
    (raise : Session → Fault → Session) : Session :=
  match prepareCheckpoint ctx env.evidence s.progress phase localRound with
  | .error message => raise s (.other message)
  | .ok cp =>
    let s := { s with prepared := s.prepared ++ [cp] }
    match cp.validate >>= fun _ => validateCheckpointNode cp ctx.node with
    | .error message => raise s (.other message)
    | .ok _ =>
      match env.fault (.commit phase) s.progress.cursorAudit localRound with
      | some fault => raise s fault
      | none =>
        { s with
          control := next
          progress := { s.progress with nextPhase := phase, cursorRound := localRound }
          committed := s.committed ++ [cp] }

def enterStage (s : Session) : Session :=
  match env.fault .entry 0 0 with
  | some fault => s.raise fault
  | none => if s.progress.nextPhase = .finalize then { s with control := .returned }
      else { s with control := .audit s.progress.cursorAudit }

/-- The head of `for audit_round_num in range(...)`. -/
def startAudit (s : Session) (a : Nat) : Session :=
  if ctx.auditRounds < a then { s with control := .exhausted } else
    let s := { s with progress := { s.progress with cursorAudit := a, executedAuditRounds := a } }
    match env.fault .auditStart a 0 with
    | some fault => s.raise fault
    | none =>
      match s.progress.activeAudit with
      | some _ => { s with control := .round a s.progress.cursorRound (s.progress.nextPhase = .reviewers) }
      | none =>
        if 1 < a ∧ s.progress.latestExecutorOutputs = none then
          commitTransition ctx env s .executors 1 (.preReview a) Session.raise
        else { s with control := .preReview a }

def preReview (s : Session) (a : Nat) : Session :=
  if ctx.policy.reviewStartsWith = .reviewer ∧ a = 1 ∧ s.progress.latestExecutorOutputs = none ∧
      s.progress.initialReviewCompleted = false then
    match env.fault .preReview a 0, env.reviewers a 0 with
    | some fault, _ => s.raise fault
    | none, .error fault => s.raise fault
    | none, .ok response =>
      match runReviewerRound ctx a 0 response with
      | .error fault => s.raise fault
      | .ok run =>
        commitTransition ctx env { s with progress := s.progress.recordInitialReviewerRun run } .executors 1 (.seed a)
          Session.raise
  else { s with control := .seed a }

/-- The audit starts from the latest valid candidate, or from a fresh executor round. -/
def initialAudit (outputs : List ExecutorRoundArtifact) : AuditRoundProgress :=
  { executorOutputs := outputs
    latestValidExecutorOutputs := if (validateExecutorOutputs ctx outputs).valid then some outputs else none }

def openAudit (s : Session) (a : Nat) (outputs : List ExecutorRoundArtifact) : Session :=
  { s.withAudit (initialAudit ctx outputs) with
    control := .round a s.progress.cursorRound (s.progress.nextPhase = .reviewers) }

def seedAudit (s : Session) (a : Nat) : Session :=
  let s := { s with progress := { s.progress with lastRoundNum := 1 } }
  match s.progress.latestExecutorOutputs with
  | some latest =>
    match env.fault .seeding a 1, seedExecutorOutputs ctx a latest with
    | some fault, _ => s.raise fault
    | none, .error message => s.raise (.other message)
    | none, .ok outputs => openAudit ctx s a outputs
  | none =>
    match env.executors a 1 with
    | .error fault => s.raise fault
    | .ok response =>
      let run := runExecutorRound ctx a 1 response
      let s := { s with progress := { s.progress with
        artifactDriftWarningCount := s.progress.artifactDriftWarningCount + run.driftWarningCount } }
      openAudit ctx s a run.outputs

/-- The candidate of this round is there: validate it, and hand it to the reviewers. -/
def offerCandidate (s : Session) (a r : Nat) (active : AuditRoundProgress) : Session :=
  let (active, stall, outcome) := prepareReviewCandidate ctx active s.progress.stall r
  let s := { s with progress := { s.progress with activeAudit := some active, stall } }
  match env.fault .candidate a r with
  | some fault =>
    if fault = .cancelled ∧ completedRejectionSurvivesCancellation ctx active a r outcome = true then
      { s with control := .settled a false false }
    else raiseInAudit ctx s a active fault
  | none =>
    match outcome with
    | .stop => { s with control := .settled a false false }
    | .continue => { s with control := .advance a r }
    | .review fingerprint =>
      commitTransition ctx env s .reviewers r (.review a r fingerprint) fun s => raiseInAudit ctx s a active

/-- `recover_after_remediation_context_exhaustion` (audit_round.py:407): stop with the last valid candidate. -/
def recoverOrRaise (s : Session) (a r : Nat) (active : AuditRoundProgress) (fault : Fault) : Session :=
  match active.latestValidExecutorOutputs with
  | some latest =>
    if r ≠ 1 ∧ fault = .invocation "provider_session_context_exhausted" then
      let active := { active with executorOutputs := latest }
      let stopped := { s.withAudit active with control := .settled a false false }
      match env.fault .recovery a r with
      | none => stopped
      | some fault =>
        if fault = .cancelled ∧ a = ctx.auditRounds ∧ consensusFailureAllowsContinuation ctx.node = false then stopped
        else raiseInAudit ctx s a active fault
    else raiseInAudit ctx s a active fault
  | none => raiseInAudit ctx s a active fault

/-- The head of `for round_num in range(...)`, and the executors of the round. -/
def startRound (s : Session) (a r : Nat) (due : Bool) : Session :=
  match s.progress.activeAudit with
  | none => s.raise (.other "no active audit")
  | some active =>
    if ctx.maxRound < r then { s with control := .settled a false false } else
      let active := { active with lastRoundNum := r }
      match env.fault .roundStatus a r with
      | some fault => raiseInAudit ctx s a active fault
      | none =>
        if due then
          { s.withAudit active with
            control := .review a r (buildExecutorOutputFingerprint ctx active.executorOutputs) }
        else if r = 1 then offerCandidate ctx env s a r active
        else
          match env.executors a r with
          | .error fault => recoverOrRaise ctx env s a r active fault
          | .ok response =>
            let run := runExecutorRound ctx a r response
            offerCandidate ctx env s a r { active with
              executorOutputs := run.outputs
              artifactDriftWarningCount := active.artifactDriftWarningCount + run.driftWarningCount }

/-- `run_review_phase` and the verdict on it. -/
def reviewRound (s : Session) (a r : Nat) (fingerprint : Option String) : Session :=
  match s.progress.activeAudit with
  | none => s.raise (.other "no active audit")
  | some active =>
    match env.fault .reviewRequest a r, env.reviewers a r with
    | some fault, _ => raiseInAudit ctx s a active fault
    | none, .error fault => raiseInAudit ctx s a active fault
    | none, .ok response =>
      match runReviewerRound ctx a r response with
      | .error fault => raiseInAudit ctx s a active fault
      | .ok run =>
        let active := active.recordCompletedReview run r
        match env.fault .reviewed a r with
        | some fault => raiseInAudit ctx s a active fault
        | none =>
          let stall := s.progress.stall.observeReview fingerprint run.outputs
          if run.reviewerFailureCount = 0 ∧ checkConsensus (run.outputs.map (·.evaluation)) = true then
            { s with
              control := .settled a true (r = 1)
              progress := { s.progress with activeAudit := some active, stall } }
          else
            let active := active.advanceReviewState (renderUnresolvedReviewPacket run.outputs)
              (collectUnresolvedFingerprints run.outputs) fingerprint
            { s with
              control := .advance a r
              progress := { s.progress with activeAudit := some active, stall } }

def advanceRound (s : Session) (a r : Nat) : Session :=
  match s.progress.activeAudit with
  | none => s.raise (.other "no active audit")
  | some active =>
    if r < ctx.maxRound then
      commitTransition ctx env s .executors (r + 1) (.round a (r + 1) false) fun s => raiseInAudit ctx s a active
    else { s with control := .round a (r + 1) false }

/-- What `execute_review_loop_audits` does with an audit's result. -/
def settleAudit (s : Session) (a : Nat) (consensus clean : Bool) : Session :=
  match s.progress.activeAudit with
  | none => s.raise (.other "no active audit")
  | some active =>
    let result := active.toResult consensus clean
    let s := { s with progress := s.progress.recordAuditResult result }
    if result.stopReason = some .noProgress then
      if ctx.policy.continueOnFailure = false then
        s.raise (.policy (stalledMessage ctx.node.id s.progress.stall.consecutiveRoundCount))
      else
        match env.fault .auditStatus a 0 with
        | some fault => s.raise fault
        | none => { s with control := .finalize, progress := { s.progress with continuedAfterStop := true } }
    else
      let canFinish := reviewLoopCanFinish ctx result a
      if a = ctx.auditRounds ∧ canFinish = false ∧
          (s.progress.latestExecutorOutputs = none ∨ consensusFailureAllowsContinuation ctx.node = false) then
        s.raise (.policy (rejectionMessage ctx.node.id s.progress))
      else
        match env.fault .auditStatus a 0 with
        | some fault => s.raise fault
        | none =>
          let s := { s with progress := { s.progress with cursorRound := 1, nextPhase := .executors } }
          if canFinish then
            { s with control := .finalize, progress := { s.progress with stopReason := some .consensus } }
          else { s with control := .audit (a + 1) }

def finishExhausted (s : Session) : Session :=
  if s.progress.latestExecutorOutputs = none ∨ consensusFailureAllowsContinuation ctx.node = false then
    s.raise (.policy (rejectionMessage ctx.node.id s.progress))
  else
    match env.fault .auditStatus 0 0 with
    | some fault => s.raise fault
    | none => { s with control := .finalize, progress := s.progress.markConsensusExhausted true }

def finalizeStage (s : Session) : Session :=
  match env.fault .findings 0 0 with
  | some fault => s.raise fault
  | none => commitTransition ctx env s .finalize s.progress.lastRoundNum .returned Session.raise

def step (s : Session) : Session :=
  match s.control with
  | .entry => enterStage env s
  | .audit a => startAudit ctx env s a
  | .preReview a => preReview ctx env s a
  | .seed a => seedAudit ctx env s a
  | .round a r due => startRound ctx env s a r due
  | .review a r fingerprint => reviewRound ctx env s a r fingerprint
  | .advance a r => advanceRound ctx env s a r
  | .settled a consensus clean => settleAudit ctx env s a consensus clean
  | .exhausted => finishExhausted ctx env s
  | .finalize => finalizeStage ctx env s
  | .returned => s
  | .raised _ => s

end Steps

/-- A stage that starts with this progress. -/
def entrySession (p : ReviewLoopProgress) : Session := { control := .entry, progress := p }

/-- The session after `n` steps. -/
def runSteps (ctx : Context) (env : Environment) (p : ReviewLoopProgress) (n : Nat) : Session :=
  (step ctx env)^[n] (entrySession p)

/-- The progress a stage can start with: a fresh one, or one restored from a
checkpoint that an earlier run committed. -/
inductive Started (ctx : Context) : ReviewLoopProgress → Prop
  | fresh : Started ctx {}
  | resumed {env : Environment} {p q : ReviewLoopProgress} {n : Nat} {cp : OpenReviewCheckpoint} :
      Started ctx p → cp ∈ (runSteps ctx env p n).committed → restore ctx cp = .ok q → Started ctx q

end Crewplane.Review
