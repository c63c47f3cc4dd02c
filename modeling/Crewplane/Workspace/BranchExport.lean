import Crewplane.Lib.Threads
import Crewplane.Workspace.BranchExportRecord
import Crewplane.Workspace.RefRepository
/-
# Branch export attempts (runtime/workspace/branch_export/attempts.py, git.py, orchestration.py)

One attempt to fulfil one branch export, command by command, on two stores without a transaction: the record file of the
export and the branches of the repository.

| here | there |
| --- | --- |
| `fulfillmentPayload` … `reconciledFailureMessage` | attempts.py:90-258 |
| `createBranchExportRefWithSource`                 | attempts.py:410-457 |
| `createOrVerifyBranchRef` … `branchCommit`        | git.py:54-190 |
| `fulfillBranchExport`                             | orchestration.py:163-200, of one worktree |

A command can fail; an update of a ref that timed out, and a write that failed, can have been carried out. The commands that
touch neither store (locks, imports of the source, the node's manifest) are `other`; what the workspace state says of the
checkpoint is the answer of `checkpoint`. A branch holds a commit.
-/
namespace Crewplane.Workspace

open Crewplane.Lib

/-! ## The request -/

structure BranchExportPolicy where
  createBranch : Bool
  branchName : Option Text
  contract : WorktreeContract

structure BranchExportAttempt where
  identity : BranchExportIdentity
  nodeId : Text
  policy : BranchExportPolicy
  operationOrigin : BranchExportOrigin

section Request

variable (sha256 : Text → Text)

def generatedBranchName (workflowName logicalWorktreeName runKeyName : Text) : Text :=
  "crewplane/".toList ++ safeRefComponent sha256 workflowName ++ ['/'] ++ safeRefComponent sha256 logicalWorktreeName ++ ['/'] ++
    safeRefComponent sha256 runKeyName

/-- `branch_name`: an empty name counts as none. -/
def BranchExportAttempt.branchName (request : BranchExportAttempt) : Text :=
  match request.policy.branchName with
  | some (c :: name) => c :: name
  | _ => generatedBranchName sha256 request.identity.workflowName request.identity.logicalWorktreeName request.identity.runKeyName

theorem generatedBranchName_ne_nil (workflowName logicalWorktreeName runKeyName : Text) :
    generatedBranchName sha256 workflowName logicalWorktreeName runKeyName ≠ [] := by
  have hparts : ∀ a b c : Text, "crewplane/".toList ++ a ++ ['/'] ++ b ++ ['/'] ++ c ≠ [] := by simp
  exact hparts _ _ _

theorem branchName_ne_nil (request : BranchExportAttempt) : request.branchName sha256 ≠ [] := by
  unfold BranchExportAttempt.branchName
  cases request.policy.branchName with
  | none => exact generatedBranchName_ne_nil sha256 _ _ _
  | some name =>
    cases name with
    | nil => exact generatedBranchName_ne_nil sha256 _ _ _
    | cons c name => exact List.cons_ne_nil c name

def BranchExportAttempt.branchRef (request : BranchExportAttempt) : Text := headsRef (request.branchName sha256)

def BranchExportAttempt.expectation (request : BranchExportAttempt) (checkpoint : BranchExportCheckpoint) :
    BranchExportRecordExpectation :=
  ⟨request.identity, request.branchName sha256, request.branchRef sha256, checkpoint, request.policy.contract⟩

end Request

/-! ## The commands -/

inductive ExportError
  /-- `BranchExportOperationCompletedError`. -/
  | completed (message : String)
  /-- `_BranchRefUpdateOutcomeAmbiguousError`. -/
  | ambiguous (message : String)
  /-- `_SymbolicBranchRefError`. -/
  | symbolic (message : String)
  | other (message : String)

def ExportError.message : ExportError → String
  | completed message | ambiguous message | symbolic message | other message => message

inductive UpdateOutcome
  | done
  /-- `CalledProcessError`. -/
  | failed (message : String)
  /-- `TimeoutExpired`. -/
  | timedOut (message : String)

inductive ExportCommand
  | recordExists
  | loadRecord
  | writeRecord (payload : BranchExportPayload)
  /-- `validated_checkpoint`, but for the node id. -/
  | checkpoint
  /-- `git check-ref-format --normalize`. -/
  | normalizedRef (ref : Text)
  /-- `git symbolic-ref -q`. -/
  | symbolicRef (ref : Text)
  /-- `git show-ref --verify --quiet`. -/
  | showRef (ref : Text)
  /-- `git rev-parse --verify`. -/
  | revParse (ref : Text)
  /-- `git update-ref --no-deref`, with an empty old value. -/
  | updateRef (ref : Text) (commit : Text)
  | other
  | now

abbrev ExportCommand.Answer : ExportCommand → Type
  | recordExists => Bool
  | loadRecord => Except String BranchExportPayload
  | writeRecord _ | other => Except String Unit
  | checkpoint => Except String BranchExportCheckpoint
  | normalizedRef _ | revParse _ => Except String Text
  | symbolicRef _ => Except String (Option Text)
  | showRef _ => Except String Bool
  | updateRef _ _ => UpdateOutcome
  | now => Text

abbrev ExportProg (α : Type) := Prog ExportCommand ExportCommand.Answer ExportError α

namespace ExportProg

/-- A failure of a command is an error of no special kind. -/
def answered {α : Type} (answer : Except String α) : ExportProg α := .ofExcept (answer.mapError .other)

def recordExists : ExportProg Bool := .call .recordExists .ret
def loadRecord : ExportProg BranchExportPayload := .call .loadRecord answered
def writeRecord (payload : BranchExportPayload) : ExportProg Unit := .call (.writeRecord payload) answered
def checkpoint : ExportProg BranchExportCheckpoint := .call .checkpoint answered
def normalizedRef (ref : Text) : ExportProg Text := .call (.normalizedRef ref) answered
def symbolicRef (ref : Text) : ExportProg (Option Text) := .call (.symbolicRef ref) answered
def showRef (ref : Text) : ExportProg Bool := .call (.showRef ref) answered
def revParse (ref : Text) : ExportProg Text := .call (.revParse ref) answered
def updateRef (ref commit : Text) : ExportProg UpdateOutcome := .call (.updateRef ref commit) .ret
def other : ExportProg Unit := .call .other answered
def now : ExportProg Text := .call .now .ret

end ExportProg

open ExportProg

/-! ## The branch -/

def existingBranchMessage (branchRef : Text) : String :=
  "Workspace branch export refuses to overwrite existing branch '" ++ String.ofList (branchRef.drop "refs/heads/".length) ++ "'."

def symbolicBranchMessage (branchRef target : Text) : String :=
  "Workspace branch export destination is symbolic and was retained: " ++ String.ofList branchRef ++ " -> " ++
    String.ofList target ++ "."

def branchCommit (branchRef : Text) : ExportProg (Option Text) := do
  let target ← symbolicRef branchRef
  match target with
  | some target => .raise (.symbolic (symbolicBranchMessage branchRef target))
  | none => do
    let present ← showRef branchRef
    if !present then return none
    else do
      let commit ← revParse branchRef
      return some commit

/-- `_create_missing_branch_ref`. -/
def createMissingBranchRef (branchRef resultCommit : Text) (allowExisting : Bool) : ExportProg BranchExportOperation := do
  let outcome ← updateRef branchRef resultCommit
  match outcome with
  | .done => return .created
  | .timedOut message => .raise (.ambiguous message)
  | .failed message => do
    let racedCommit ← branchCommit branchRef
    if allowExisting && racedCommit = some resultCommit then return .verifiedExisting
    else if racedCommit.isSome then .raise (.other (existingBranchMessage branchRef))
    else .raise (.other message)

/-- `_create_or_verify_locked_branch_ref`. -/
def createOrVerifyLockedBranchRef (branchRef resultCommit : Text) (allowExisting allowCreate : Bool) :
    ExportProg BranchExportOperation := do
  let currentCommit ← branchCommit branchRef
  match currentCommit with
  | some current =>
    if allowExisting && current = resultCommit then return .verifiedExisting
    else .raise (.other (existingBranchMessage branchRef))
  | none =>
    if !allowCreate then
      .raise (.other "Workspace branch export destination branch disappeared before locked verification.")
    else createMissingBranchRef branchRef resultCommit allowExisting

/-- `with context: body`, where leaving the context can fail. From then on a failure says that the operation may have been
carried out, if the body has returned or has failed with such an error. -/
def guardedOperation (carriedOut : ExportError → Bool) (body : ExportProg BranchExportOperation) :
    ExportProg BranchExportOperation := do
  let outcome ← body.attempt
  let leaving ← other.attempt
  match outcome, leaving with
  | .ok operation, .ok _ => return operation
  | .ok _, .error failure => .raise (.completed failure.message)
  | .error error, .ok _ => .raise (if carriedOut error then .completed error.message else error)
  | .error error, .error failure => .raise (if carriedOut error then .completed failure.message else failure)

def ExportError.isAmbiguous : ExportError → Bool
  | .ambiguous _ => true
  | _ => false

def ExportError.isCompleted : ExportError → Bool
  | .completed _ => true
  | _ => false

def createOrVerifyBranchRef (branchRef resultCommit : Text) (allowExisting allowCreate : Bool) :
    ExportProg BranchExportOperation := do
  other
  guardedOperation ExportError.isAmbiguous (createOrVerifyLockedBranchRef branchRef resultCommit allowExisting allowCreate)

/-- `planned_branch_operation`, by its failure message. -/
def plannedFailureMessage (branchRef resultCommit : Text) : ExportProg (Option String) := do
  let probe ← (branchCommit branchRef).attempt
  match probe with
  | .error (.symbolic message) => return some message
  | .error error => .raise error
  | .ok none => return none
  | .ok (some current) => return if current = resultCommit then none else some (existingBranchMessage branchRef)

/-! ## The attempt -/

section Attempt

variable (sha256 : Text → Text)

structure ValidatedBranchExportAttempt where
  request : BranchExportAttempt
  checkpoint : BranchExportCheckpoint
  reconciliation : BranchExportReconciliation

def ValidatedBranchExportAttempt.operationOrigin (attempt : ValidatedBranchExportAttempt) : BranchExportOrigin :=
  attempt.reconciliation.operationOrigin.getD attempt.request.operationOrigin

def skippedRecord (request : BranchExportAttempt) : ExportProg BranchExportPayload := do
  let time ← now
  return skippedBranchExportRecord request.identity request.nodeId false request.operationOrigin time

def failedRecord (request : BranchExportAttempt) (branchRef : Option Text) (checkpoint : Option BranchExportCheckpoint)
    (branchExistsBefore : Option Bool) (failureMessage : String) (operationOrigin : BranchExportOrigin)
    (recoveryMode : BranchExportRecoveryMode) : ExportProg BranchExportPayload := do
  let time ← now
  return failedBranchExportRecord request.identity request.nodeId (some (request.branchName sha256)) branchRef checkpoint
    branchExistsBefore failureMessage false operationOrigin recoveryMode time

def preparedRecord (attempt : ValidatedBranchExportAttempt) : ExportProg BranchExportPayload := do
  let time ← now
  return preparedBranchExportRecord attempt.request.identity (attempt.request.branchName sha256)
    (attempt.request.branchRef sha256) attempt.checkpoint attempt.request.policy.contract attempt.operationOrigin
    attempt.reconciliation.recoveryMode time

def fulfilledRecord (attempt : ValidatedBranchExportAttempt) (operation : BranchExportOperation) :
    ExportProg BranchExportPayload := do
  let time ← now
  return branchExportRecord attempt.request.identity (attempt.request.branchName sha256) (attempt.request.branchRef sha256)
    attempt.checkpoint attempt.request.policy.contract operation (operation == .verifiedExisting) true attempt.operationOrigin
    attempt.reconciliation.recoveryMode false time

/-- The node id of a checkpoint is the node's. -/
def validatedCheckpoint (request : BranchExportAttempt) : ExportProg BranchExportCheckpoint := do
  let found ← checkpoint
  return { found with nodeId := request.nodeId }

def validatedBranchRef (branchName : Text) : ExportProg Text := do
  if "refs/".toList.isPrefixOf branchName then .raise (.other "Branch export branch_name must not include refs/.")
  else do
    let normalized ← normalizedRef (headsRef branchName)
    if normalized ≠ headsRef branchName then
      .raise (.other ("Unsafe branch export branch name '" ++ String.ofList branchName ++ "'."))
    else return normalized

/-- `classify_branch_export_record`. -/
def classifyBranchExportRecord (expectation : BranchExportRecordExpectation) : ExportProg BranchExportReconciliation := do
  let present ← recordExists
  if !present then return { recoveryMode := .initial }
  else do
    let payload ← loadRecord
    answered (classifyPayload payload expectation)

/-- `_create_branch_export_ref_with_source`: the source is read, made available, and let go of. -/
def createBranchExportRefWithSource (attempt : ValidatedBranchExportAttempt) (allowExisting allowCreate : Bool) :
    ExportProg BranchExportOperation := do
  other
  other
  guardedOperation ExportError.isCompleted
    (createOrVerifyBranchRef (attempt.request.branchRef sha256) attempt.checkpoint.resultCommit allowExisting allowCreate)

/-- `_should_skip_reconciled_attempt`. -/
def shouldSkipReconciledAttempt (attempt : ValidatedBranchExportAttempt) : Bool :=
  !attempt.request.policy.createBranch && attempt.reconciliation.recoveryMode ≠ .preparedRecord

/-- The record that announces the branch, before it is created. -/
def announce (attempt : ValidatedBranchExportAttempt) : ExportProg Unit := do
  let payload ← preparedRecord sha256 attempt
  writeRecord payload

/-- The branch is created or found, and the record says so. -/
def operate (attempt : ValidatedBranchExportAttempt) (allowCreate : Bool) : ExportProg BranchExportPayload := do
  let operation ← createBranchExportRefWithSource sha256 attempt
    (attempt.operationOrigin = .verifiedHistory || attempt.reconciliation.recoveryMode = .preparedRecord) allowCreate
  fulfilledRecord sha256 attempt operation

/-- `_fulfill_after_branch_probe`, of a record that is not given back. -/
def fulfillProbed (attempt : ValidatedBranchExportAttempt) (branchExistsBefore : Bool) : ExportProg BranchExportPayload := do
  let allowCreate := attempt.reconciliation.recoveryMode = .preparedRecord || !branchExistsBefore
  (if allowCreate && attempt.reconciliation.recoveryMode = .initial then announce sha256 attempt else return () :
    ExportProg Unit)
  operate sha256 attempt allowCreate

/-- `_fulfill_after_branch_probe`. -/
def fulfillAfterBranchProbe (attempt : ValidatedBranchExportAttempt) (branchExistsBefore : Bool) :
    ExportProg BranchExportPayload :=
  match attempt.reconciliation.idempotentPayload, branchExistsBefore with
  | some payload, true => do
    let _ ← createBranchExportRefWithSource sha256 attempt true false
    return payload
  | _, _ => fulfillProbed sha256 attempt branchExistsBefore

/-- `_reconciled_failure_message`. -/
def reconciledFailureMessage (attempt : ValidatedBranchExportAttempt) (error : ExportError) : ExportProg (Option String) :=
  match attempt.reconciliation.idempotentPayload with
  | none => return some error.message
  | some _ => plannedFailureMessage (attempt.request.branchRef sha256) attempt.checkpoint.resultCommit

/-- The handlers of `_fulfill_validated_attempt`. -/
def failedAttempt (attempt : ValidatedBranchExportAttempt) (branchExistsBefore : Option Bool) (error : ExportError) :
    ExportProg BranchExportPayload :=
  if error.isCompleted then .raise error
  else do
    let failureMessage ← reconciledFailureMessage sha256 attempt error
    match failureMessage with
    | none => .raise error
    | some message =>
      failedRecord sha256 attempt.request (some (attempt.request.branchRef sha256)) (some attempt.checkpoint) branchExistsBefore
        message attempt.operationOrigin attempt.reconciliation.recoveryMode

/-- `_fulfill_validated_attempt`. -/
def fulfillValidatedAttempt (attempt : ValidatedBranchExportAttempt) : ExportProg BranchExportPayload :=
  if shouldSkipReconciledAttempt attempt then skippedRecord attempt.request
  else do
    let probe ← (branchCommit (attempt.request.branchRef sha256)).attempt
    match probe with
    | .error error => failedAttempt sha256 attempt none error
    | .ok commit => do
      let outcome ← (fulfillAfterBranchProbe sha256 attempt commit.isSome).attempt
      match outcome with
      | .ok payload => return payload
      | .error error => failedAttempt sha256 attempt (some commit.isSome) error

/-- The checkpoint and the ref, or what was found before the failure. -/
def validated (request : BranchExportAttempt) :
    ExportProg (Except (ExportError × Option BranchExportCheckpoint) BranchExportCheckpoint) := do
  let found ← (validatedCheckpoint request).attempt
  match found with
  | .error error => return .error (error, none)
  | .ok checkpoint => do
    let ref ← (validatedBranchRef (request.branchName sha256)).attempt
    match ref with
    | .error error => return .error (error, some checkpoint)
    | .ok _ => return .ok checkpoint

/-- `fulfillment_payload`. -/
def fulfillmentPayload (request : BranchExportAttempt) : ExportProg BranchExportPayload := do
  let recordExistsAtEntry ← recordExists
  if !request.policy.createBranch && !recordExistsAtEntry then skippedRecord request
  else do
    let found ← validated sha256 request
    match found with
    | .error (error, checkpoint) => do
      let recordExistsNow ← recordExists
      if recordExistsAtEntry || recordExistsNow then .raise error
      else failedRecord sha256 request none checkpoint none error.message request.operationOrigin .initial
    | .ok checkpoint => do
      let reconciliation ← classifyBranchExportRecord (request.expectation sha256 checkpoint)
      fulfillValidatedAttempt sha256 ⟨request, checkpoint, reconciliation⟩

def isFailed (payload : BranchExportPayload) : Bool := payload.has .status (word "failed_verification")

/-- One worktree of `_fulfill_branch_export_batch`. -/
def fulfillBranchExport (request : BranchExportAttempt) : ExportProg Unit := do
  let payload ← fulfillmentPayload sha256 request
  writeRecord payload
  other
  if isFailed payload then .raise (.other "Workspace branch export failed.") else return ()

end Attempt

end Crewplane.Workspace
