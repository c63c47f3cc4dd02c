import Mathlib.Data.Rat.Defs
import Crewplane.Lib.Dict
import Crewplane.Workspace.RefNames
/-
# Branch export records (runtime/workspace/branch_export/records.py, reconciliation.py)

The record of a branch export as a JSON object, the builders of its four kinds, and the classifier that the next attempt
reads it with.

| here | there |
| --- | --- |
| `preparedBranchExportRecord`, `branchExportRecord`, … | records.py:23-185 |
| `classifyPayload`                                     | reconciliation.py:65-322 |

A record holds further fields only if somebody else wrote them; nothing reads them. A number is its exact value, since Python
compares `1`, `1.0` and `True` as equal.
-/
namespace Crewplane.Workspace

open Crewplane.Lib

/-! ## JSON values -/

inductive RecordValue
  | null
  | bool (b : Bool)
  | number (q : ℚ)
  | text (t : Text)
  | items (xs : List RecordValue)
  | members (entries : List (Text × RecordValue))

namespace RecordValue

/-- A value that Python compares as a number. -/
def asNumber : RecordValue → Option ℚ
  | bool b => some (if b then 1 else 0)
  | number q => some q
  | _ => none

mutual

/-- Python's `==`. Objects are equal if they have the same keys with equal values, in any order. -/
def same : RecordValue → RecordValue → Bool
  | null, w => match w with
    | null => true
    | _ => false
  | text s, w => match w with
    | text t => s == t
    | _ => false
  | bool b, w => w.asNumber == some (if b then 1 else 0)
  | number q, w => w.asNumber == some q
  | items xs, w => match w with
    | items ys => sameItems xs ys
    | _ => false
  | members a, w => match w with
    | members b => a.length == b.length && sameMembers b a
    | _ => false

def sameItems : List RecordValue → List RecordValue → Bool
  | [], ys => ys.isEmpty
  | x :: xs, ys => match ys with
    | [] => false
    | y :: ys => x.same y && sameItems xs ys

def sameMembers (b : List (Text × RecordValue)) : List (Text × RecordValue) → Bool
  | [] => true
  | entry :: rest => sameMember b entry && sameMembers b rest

def sameMember (b : List (Text × RecordValue)) : Text × RecordValue → Bool
  | (k, v) => match Dict.get? b k with
    | none => false
    | some w => v.same w

end

@[simp] theorem same_text (t : Text) (v : RecordValue) : v.same (text t) = true ↔ v = text t := by
  cases v with
  | text s => simp [same]
  | null | items | members => simp [same]
  | bool | number => simp [same, asNumber]

end RecordValue

/-! ## The record -/

inductive RecordField
  | version | runId | runKeyName | workflowName | workflowSignature | logicalWorktreeName | branchName | branchRef | status
  | operationOrigin | recoveryMode | repositoryId | operation | branchExistsBefore | branchExistsAfter | dryRun | createdAt
  | worktreeContract | nodeId | taskId | workspaceStateArtifact | resultCommit | resultTree | resultRef | bundle | skipReason
  | failureMessage | expectedOldOid | targetOid
  deriving DecidableEq, Repr

abbrev BranchExportPayload := Dict RecordField RecordValue

/-- `payload.get(field)`: `None` for a missing field as for `null`. -/
def BranchExportPayload.get (payload : BranchExportPayload) (field : RecordField) : RecordValue :=
  (Dict.get? payload field).getD .null

def word (s : String) : RecordValue := .text s.toList

def schemaVersion : String := "1.0"

/-- The plan and the run, by what a record names of them. -/
structure BranchExportIdentity where
  runId : Text
  runKeyName : Text
  workflowName : Text
  workflowSignature : Text
  logicalWorktreeName : Text
  repositoryId : Text
  deriving DecidableEq

structure BranchExportCheckpoint where
  stateRelativePath : Text
  nodeId : Text
  taskId : Text
  resultCommit : Text
  resultTree : Text
  resultRef : Text
  bundleRelativePath : Text
  bundleSha256 : Text
  bundleSizeBytes : Nat
  deriving DecidableEq

structure WorktreeContract where
  mode : Text
  schemaVersion : Text
  deriving DecidableEq

inductive BranchExportOrigin
  | currentRun | verifiedHistory
  deriving DecidableEq, Repr

inductive BranchExportRecoveryMode
  | initial | preparedRecord
  deriving DecidableEq, Repr

inductive BranchExportOperation
  | created | verifiedExisting
  deriving DecidableEq, Repr

def BranchExportOrigin.value : BranchExportOrigin → RecordValue
  | currentRun => word "current_run"
  | verifiedHistory => word "verified_history"

def BranchExportRecoveryMode.value : BranchExportRecoveryMode → RecordValue
  | initial => word "initial"
  | preparedRecord => word "prepared_record"

def BranchExportOperation.value : BranchExportOperation → RecordValue
  | created => word "created"
  | verifiedExisting => word "verified_existing"

/-- `None` or a truth value. -/
def known : Option Bool → RecordValue
  | none => .null
  | some b => .bool b

def WorktreeContract.dump (contract : WorktreeContract) : RecordValue :=
  .members [("mode".toList, .text contract.mode), ("schema_version".toList, .text contract.schemaVersion)]

def branchExportIdentity (identity : BranchExportIdentity) : BranchExportPayload := [
  (.version, word schemaVersion),
  (.runId, .text identity.runId),
  (.runKeyName, .text identity.runKeyName),
  (.workflowName, .text identity.workflowName),
  (.workflowSignature, .text identity.workflowSignature),
  (.logicalWorktreeName, .text identity.logicalWorktreeName)]

def checkpointRecord (checkpoint : BranchExportCheckpoint) : BranchExportPayload := [
  (.nodeId, .text checkpoint.nodeId),
  (.taskId, .text checkpoint.taskId),
  (.workspaceStateArtifact, .text checkpoint.stateRelativePath),
  (.resultCommit, .text checkpoint.resultCommit),
  (.resultTree, .text checkpoint.resultTree),
  (.resultRef, .text checkpoint.resultRef),
  (.bundle, .members [
    ("path".toList, .text checkpoint.bundleRelativePath),
    ("sha256".toList, .text checkpoint.bundleSha256),
    ("size_bytes".toList, .number checkpoint.bundleSizeBytes)])]

def branchExportRecord (identity : BranchExportIdentity) (branchName branchRef : Text) (checkpoint : BranchExportCheckpoint)
    (contract : WorktreeContract) (operation : BranchExportOperation) (branchExistsBefore branchExistsAfter : Bool)
    (operationOrigin : BranchExportOrigin) (recoveryMode : BranchExportRecoveryMode) (dryRun : Bool) (now : Text) :
    BranchExportPayload :=
  Dict.update (branchExportIdentity identity ++ ([
    (.branchName, .text branchName),
    (.branchRef, .text branchRef),
    (.status, word "fulfilled"),
    (.operationOrigin, operationOrigin.value),
    (.recoveryMode, recoveryMode.value),
    (.repositoryId, .text identity.repositoryId),
    (.operation, operation.value),
    (.branchExistsBefore, .bool branchExistsBefore),
    (.branchExistsAfter, .bool branchExistsAfter),
    (.dryRun, .bool dryRun),
    (.createdAt, .text now),
    (.worktreeContract, contract.dump)] : BranchExportPayload)) (checkpointRecord checkpoint)

def skippedBranchExportRecord (identity : BranchExportIdentity) (nodeId : Text) (dryRun : Bool)
    (operationOrigin : BranchExportOrigin) (now : Text) : BranchExportPayload :=
  branchExportIdentity identity ++ ([
    (.branchName, .null),
    (.branchRef, .null),
    (.status, word "skipped"),
    (.operationOrigin, operationOrigin.value),
    (.recoveryMode, word "initial"),
    (.repositoryId, .text identity.repositoryId),
    (.operation, word "skipped"),
    (.skipReason, word "create_branch_false"),
    (.branchExistsBefore, .null),
    (.branchExistsAfter, .null),
    (.dryRun, .bool dryRun),
    (.createdAt, .text now),
    (.nodeId, .text nodeId)] : BranchExportPayload)

def failedBranchExportRecord (identity : BranchExportIdentity) (nodeId : Text) (branchName branchRef : Option Text)
    (checkpoint : Option BranchExportCheckpoint) (branchExistsBefore : Option Bool) (failureMessage : String) (dryRun : Bool)
    (operationOrigin : BranchExportOrigin) (recoveryMode : BranchExportRecoveryMode) (now : Text) : BranchExportPayload :=
  Dict.update (branchExportIdentity identity ++ ([
    (.branchName, branchName.elim .null .text),
    (.branchRef, branchRef.elim .null .text),
    (.status, word "failed_verification"),
    (.operationOrigin, operationOrigin.value),
    (.recoveryMode, recoveryMode.value),
    (.repositoryId, .text identity.repositoryId),
    (.operation, word "failed_verification"),
    (.failureMessage, word failureMessage),
    (.branchExistsBefore, known branchExistsBefore),
    (.branchExistsAfter, known branchExistsBefore),
    (.dryRun, .bool dryRun),
    (.createdAt, .text now),
    (.nodeId, .text nodeId)] : BranchExportPayload)) (checkpoint.elim [] checkpointRecord)

def preparedBranchExportRecord (identity : BranchExportIdentity) (branchName branchRef : Text)
    (checkpoint : BranchExportCheckpoint) (contract : WorktreeContract) (operationOrigin : BranchExportOrigin)
    (recoveryMode : BranchExportRecoveryMode) (now : Text) : BranchExportPayload :=
  Dict.update (branchExportIdentity identity ++ ([
    (.repositoryId, .text identity.repositoryId),
    (.branchName, .text branchName),
    (.branchRef, .text branchRef),
    (.status, word "prepared"),
    (.operation, word "prepared"),
    (.operationOrigin, operationOrigin.value),
    (.recoveryMode, recoveryMode.value),
    (.expectedOldOid, .null),
    (.targetOid, .text checkpoint.resultCommit),
    (.dryRun, .bool false),
    (.createdAt, .text now),
    (.worktreeContract, contract.dump)] : BranchExportPayload)) (checkpointRecord checkpoint)

/-- `f"refs/heads/{branch_name}"`. -/
def headsRef (branchName : Text) : Text := "refs/heads/".toList ++ branchName

/-! ## The classifier -/

structure BranchExportRecordExpectation where
  identity : BranchExportIdentity
  branchName : Text
  branchRef : Text
  checkpoint : BranchExportCheckpoint
  contract : WorktreeContract

structure BranchExportReconciliation where
  recoveryMode : BranchExportRecoveryMode
  operationOrigin : Option BranchExportOrigin := none
  idempotentPayload : Option BranchExportPayload := none

section Classifier

variable (payload : BranchExportPayload) (expectation : BranchExportRecordExpectation)

/-- `payload.get(field) == value`. -/
def BranchExportPayload.has (field : RecordField) (value : RecordValue) : Bool := (payload.get field).same value

/-- `payload.get(field) is None`. -/
def BranchExportPayload.lacks (field : RecordField) : Bool :=
  match payload.get field with
  | .null => true
  | _ => false

/-- `payload.get(field) is b`. -/
def BranchExportPayload.is (field : RecordField) (b : Bool) : Bool :=
  match payload.get field with
  | .bool c => c == b
  | _ => false

def BranchExportPayload.isText (field : RecordField) : Bool :=
  match payload.get field with
  | .text _ => true
  | _ => false

def recordIdentityMatches : Bool :=
  payload.has .version (word schemaVersion) &&
  payload.has .runId (.text expectation.identity.runId) &&
  payload.has .runKeyName (.text expectation.identity.runKeyName) &&
  payload.has .workflowName (.text expectation.identity.workflowName) &&
  payload.has .workflowSignature (.text expectation.identity.workflowSignature) &&
  payload.has .logicalWorktreeName (.text expectation.identity.logicalWorktreeName) &&
  payload.has .repositoryId (.text expectation.identity.repositoryId) &&
  payload.has .nodeId (.text expectation.checkpoint.nodeId) &&
  payload.is .dryRun false

def checkpointMatches (checkpoint : BranchExportCheckpoint) : Bool :=
  (checkpointRecord checkpoint).all fun entry => payload.has entry.1 entry.2

def worktreeContractMatches (contract : WorktreeContract) : Bool := payload.has .worktreeContract contract.dump

def preparedRecordMatches : Bool :=
  recordIdentityMatches payload expectation &&
  payload.has .branchName (.text expectation.branchName) &&
  payload.has .branchRef (.text expectation.branchRef) &&
  payload.has .operation (word "prepared") &&
  payload.has .recoveryMode (word "initial") &&
  payload.lacks .expectedOldOid &&
  payload.has .targetOid (.text expectation.checkpoint.resultCommit) &&
  checkpointMatches payload expectation.checkpoint &&
  worktreeContractMatches payload expectation.contract

/-- `_prepared_operation_origin`. -/
def preparedOperationOrigin : Except String BranchExportOrigin :=
  if payload.has .operationOrigin (word "current_run") then .ok .currentRun
  else if payload.has .operationOrigin (word "verified_history") then .ok .verifiedHistory
  else .error "Workspace branch export prepared evidence has an invalid origin."

def reconcilePreparedRecord : Except String BranchExportReconciliation :=
  if !preparedRecordMatches payload expectation then
    .error "Workspace branch export has unresolved conflicting prepared evidence."
  else do
    let origin ← preparedOperationOrigin payload
    return { recoveryMode := .preparedRecord, operationOrigin := some origin }

def terminalIdentityMatches : Bool :=
  recordIdentityMatches payload expectation &&
  (payload.has .operationOrigin (word "current_run") || payload.has .operationOrigin (word "verified_history")) &&
  (payload.has .recoveryMode (word "initial") || payload.has .recoveryMode (word "prepared_record"))

def skippedTerminalRecordMatches : Bool :=
  terminalIdentityMatches payload expectation &&
  payload.has .operation (word "skipped") &&
  payload.has .skipReason (word "create_branch_false") &&
  payload.lacks .branchName &&
  payload.lacks .branchRef &&
  payload.lacks .branchExistsBefore &&
  payload.lacks .branchExistsAfter &&
  payload.has .recoveryMode (word "initial")

/-- `_CHECKPOINT_FIELDS`. -/
def checkpointFields : List RecordField := [.workspaceStateArtifact, .taskId, .resultCommit, .resultTree, .resultRef, .bundle]

def terminalCheckpointMatches (checkpoint : BranchExportCheckpoint) : Bool :=
  if !(checkpointFields.any fun field => (Dict.get? payload field).isSome) then true else checkpointMatches payload checkpoint

def terminalCheckpointIsPresent : Bool := checkpointFields.all fun field => (Dict.get? payload field).isSome

def failedTerminalRecordMatches : Bool :=
  terminalIdentityMatches payload expectation &&
  payload.has .operation (word "failed_verification") &&
  payload.isText .failureMessage &&
  payload.has .branchExistsAfter (payload.get .branchExistsBefore) &&
  terminalCheckpointMatches payload expectation.checkpoint &&
  (!payload.has .recoveryMode (word "prepared_record") || terminalCheckpointIsPresent payload)

def fulfilledOperationMatches : Bool :=
  payload.has .operation (word "created") && payload.is .branchExistsBefore false ||
  payload.has .operation (word "verified_existing") && payload.is .branchExistsBefore true

def terminalBranchIdentityIsValid : Bool :=
  match payload.get .branchName with
  | .text branchName => !branchName.isEmpty && payload.has .branchRef (.text (headsRef branchName))
  | _ => false

def terminalOperationTupleIsValid : Bool :=
  if payload.has .recoveryMode (word "initial") && payload.has .operation (word "verified_existing") then
    payload.has .operationOrigin (word "verified_history")
  else payload.has .recoveryMode (word "initial") || payload.has .recoveryMode (word "prepared_record")

def fulfilledTerminalRecordMatches : Bool :=
  terminalIdentityMatches payload expectation &&
  terminalBranchIdentityIsValid payload &&
  fulfilledOperationMatches payload &&
  payload.is .branchExistsAfter true &&
  terminalOperationTupleIsValid payload &&
  checkpointMatches payload expectation.checkpoint &&
  worktreeContractMatches payload expectation.contract

/-- `_terminal_record_matches`. -/
def terminalRecordMatches : Bool :=
  if payload.has .status (word "skipped") then skippedTerminalRecordMatches payload expectation
  else if payload.has .status (word "failed_verification") then failedTerminalRecordMatches payload expectation
  else if payload.has .status (word "fulfilled") then fulfilledTerminalRecordMatches payload expectation
  else false

def reconcileTerminalRecord : Except String BranchExportReconciliation :=
  if !terminalRecordMatches payload expectation then
    .error "Workspace branch export terminal history contradicts the current run."
  else if payload.has .status (word "fulfilled") && payload.has .branchRef (.text expectation.branchRef) &&
      payload.has .resultCommit (.text expectation.checkpoint.resultCommit) &&
      payload.has .resultTree (.text expectation.checkpoint.resultTree) then
    .ok { recoveryMode := .initial, idempotentPayload := some payload }
  else .ok { recoveryMode := .initial }

/-- `classify_branch_export_record`, of the object that was read. -/
def classifyPayload : Except String BranchExportReconciliation :=
  if payload.has .status (word "prepared") then reconcilePreparedRecord payload expectation
  else if payload.has .status (word "fulfilled") || payload.has .status (word "skipped") ||
      payload.has .status (word "failed_verification") then reconcileTerminalRecord payload expectation
  else .error "Workspace branch export record is malformed; rerun or regenerate the workspace artifacts."

end Classifier

/-! ## What is written is accepted -/

section Accepted

variable (identity : BranchExportIdentity) (branchName branchRef nodeId now : Text) (checkpoint : BranchExportCheckpoint)
  (contract : WorktreeContract) (origin : BranchExportOrigin)

@[simp] theorem has_text (payload : BranchExportPayload) (field : RecordField) (t : Text) :
    payload.has field (.text t) = true ↔ payload.get field = .text t := RecordValue.same_text t _

@[simp] theorem has_word (payload : BranchExportPayload) (field : RecordField) (w : String) :
    payload.has field (word w) = true ↔ payload.get field = word w := has_text payload field w.toList

@[simp] theorem word_inj (v w : String) : word v = word w ↔ v = w := by
  simp [word, String.toList_inj]

theorem same_dump : contract.dump.same contract.dump = true := by
  simp [WorktreeContract.dump, RecordValue.same, RecordValue.sameMembers, RecordValue.sameMember, Dict.get?]

/-- Every entry of the checkpoint equals itself. -/
theorem same_checkpoint : ∀ entry ∈ checkpointRecord checkpoint, entry.2.same entry.2 = true := by
  simp [checkpointRecord, RecordValue.same, RecordValue.sameMembers, RecordValue.sameMember, RecordValue.asNumber, Dict.get?]

theorem keys_checkpointRecord : Dict.keys (checkpointRecord checkpoint) =
    [.nodeId, .taskId, .workspaceStateArtifact, .resultCommit, .resultTree, .resultRef, .bundle] := rfl

theorem checkpointMatches_update (payload : BranchExportPayload) :
    checkpointMatches (Dict.update payload (checkpointRecord checkpoint)) checkpoint = true := by
  refine List.all_eq_true.2 fun entry hentry => ?_
  have hnodup : (Dict.keys (checkpointRecord checkpoint)).Nodup := by simp [keys_checkpointRecord]
  have hget : Dict.get? (Dict.update payload (checkpointRecord checkpoint)) entry.1 = some entry.2 :=
    (Dict.get?_update_of_mem _ hnodup (List.mem_map_of_mem hentry)).trans (Dict.get?_of_mem hnodup hentry)
  simp only [BranchExportPayload.has, BranchExportPayload.get, hget, Option.getD_some]
  exact same_checkpoint checkpoint entry hentry

@[simp] theorem get_nil (field : RecordField) : BranchExportPayload.get [] field = .null := rfl

@[simp] theorem get_cons (entry : RecordField × RecordValue) (payload : BranchExportPayload) (field : RecordField) :
    BranchExportPayload.get (entry :: payload) field = if entry.1 = field then entry.2 else BranchExportPayload.get payload field := by
  obtain ⟨key, value⟩ := entry
  simp only [BranchExportPayload.get, Dict.get?]
  split <;> rfl

/-- The checkpoint's entries win. -/
@[simp] theorem get_update (payload : BranchExportPayload) (field : RecordField) :
    BranchExportPayload.get (Dict.update payload (checkpointRecord checkpoint)) field =
      if field ∈ [.nodeId, .taskId, .workspaceStateArtifact, .resultCommit, .resultTree, .resultRef, RecordField.bundle] then
        BranchExportPayload.get (checkpointRecord checkpoint) field
      else BranchExportPayload.get payload field := by
  rw [← keys_checkpointRecord checkpoint]
  unfold BranchExportPayload.get
  split
  next h => rw [Dict.get?_update_of_mem _ (by simp [keys_checkpointRecord]) h]
  next h => rw [Dict.get?_update_of_not_mem _ _ h]

@[simp] theorem get_checkpoint_nodeId : BranchExportPayload.get (checkpointRecord checkpoint) .nodeId = .text checkpoint.nodeId :=
  rfl

@[simp] theorem get_checkpoint_resultCommit :
    BranchExportPayload.get (checkpointRecord checkpoint) .resultCommit = .text checkpoint.resultCommit := rfl

theorem contractMatches_of_get {payload : BranchExportPayload} (h : payload.get .worktreeContract = contract.dump) :
    worktreeContractMatches payload contract = true := by
  rw [worktreeContractMatches, BranchExportPayload.has, h]
  exact same_dump contract

theorem classify_prepared : classifyPayload
    (preparedBranchExportRecord identity branchName branchRef checkpoint contract origin .initial now)
    ⟨identity, branchName, branchRef, checkpoint, contract⟩ =
      .ok { recoveryMode := .preparedRecord, operationOrigin := some origin } := by
  have hcheckpoint : checkpointMatches
      (preparedBranchExportRecord identity branchName branchRef checkpoint contract origin .initial now) checkpoint = true :=
    checkpointMatches_update checkpoint _
  have hcontract : worktreeContractMatches
      (preparedBranchExportRecord identity branchName branchRef checkpoint contract origin .initial now) contract = true :=
    contractMatches_of_get contract (by simp [preparedBranchExportRecord, branchExportIdentity])
  have hmatches : preparedRecordMatches
      (preparedBranchExportRecord identity branchName branchRef checkpoint contract origin .initial now)
      ⟨identity, branchName, branchRef, checkpoint, contract⟩ = true := by
    simp only [preparedRecordMatches, hcheckpoint, hcontract, Bool.and_true]
    simp [recordIdentityMatches, BranchExportPayload.is, BranchExportPayload.lacks, preparedBranchExportRecord,
      branchExportIdentity, BranchExportRecoveryMode.value]
  have horigin : preparedOperationOrigin
      (preparedBranchExportRecord identity branchName branchRef checkpoint contract origin .initial now) = .ok origin := by
    cases origin <;> simp [preparedOperationOrigin, preparedBranchExportRecord, branchExportIdentity, BranchExportOrigin.value]
  have hstatus : (preparedBranchExportRecord identity branchName branchRef checkpoint contract origin .initial now).has .status
      (word "prepared") = true := by simp [preparedBranchExportRecord, branchExportIdentity]
  simp only [classifyPayload, hstatus, if_true, reconcilePreparedRecord, hmatches, horigin]
  rfl

@[simp] theorem update_nil (payload : BranchExportPayload) : Dict.update payload [] = payload := rfl

/-- The next attempt reads the record without an error. -/
def RecordAccepted (payload : BranchExportPayload) (expectation : BranchExportRecordExpectation) : Prop :=
  ∃ reconciliation, classifyPayload payload expectation = .ok reconciliation

theorem classify_terminal {payload : BranchExportPayload} {expectation : BranchExportRecordExpectation} {status : String}
    (hstatus : payload.get .status = word status) (hkind : status = "fulfilled" ∨ status = "skipped" ∨ status = "failed_verification") :
    classifyPayload payload expectation = reconcileTerminalRecord payload expectation := by
  rcases hkind with rfl | rfl | rfl <;> simp [classifyPayload, hstatus]

theorem accepted_terminal {payload : BranchExportPayload} {expectation : BranchExportRecordExpectation} {status : String}
    (hstatus : payload.get .status = word status) (hkind : status = "fulfilled" ∨ status = "skipped" ∨ status = "failed_verification")
    (hmatches : terminalRecordMatches payload expectation = true) : RecordAccepted payload expectation := by
  rw [RecordAccepted, classify_terminal hstatus hkind, reconcileTerminalRecord, hmatches]
  simp only [Bool.not_true, Bool.false_eq_true, if_false]
  split
  · exact ⟨_, rfl⟩
  · exact ⟨_, rfl⟩

theorem accepted_fulfilled {operation : BranchExportOperation} {recoveryMode : BranchExportRecoveryMode} {before : Bool}
    (hname : branchName ≠ []) (hbefore : before = (operation == .verifiedExisting))
    (horigin : recoveryMode = .initial → operation = .verifiedExisting → origin = .verifiedHistory) :
    RecordAccepted
      (branchExportRecord identity branchName (headsRef branchName) checkpoint contract operation before true origin
        recoveryMode false now) ⟨identity, branchName, headsRef branchName, checkpoint, contract⟩ := by
  generalize hpayload : branchExportRecord identity branchName (headsRef branchName) checkpoint contract operation before true
    origin recoveryMode false now = payload
  have hcheckpoint : checkpointMatches payload checkpoint = true := hpayload ▸ checkpointMatches_update checkpoint _
  have hcontract : worktreeContractMatches payload contract = true :=
    contractMatches_of_get contract (by simp [← hpayload, branchExportRecord, branchExportIdentity])
  have hstatus : payload.get .status = word "fulfilled" := by simp [← hpayload, branchExportRecord, branchExportIdentity]
  have hidentity : terminalIdentityMatches payload ⟨identity, branchName, headsRef branchName, checkpoint, contract⟩ = true := by
    cases origin <;> cases recoveryMode <;>
      simp [terminalIdentityMatches, recordIdentityMatches, BranchExportPayload.is, ← hpayload, branchExportRecord,
        branchExportIdentity, BranchExportOrigin.value, BranchExportRecoveryMode.value]
  have hbranch : terminalBranchIdentityIsValid payload = true := by
    simp [terminalBranchIdentityIsValid, ← hpayload, branchExportRecord, branchExportIdentity, hname]
  have hoperation : fulfilledOperationMatches payload = true := by
    cases operation <;>
      simp [fulfilledOperationMatches, BranchExportPayload.is, ← hpayload, branchExportRecord, branchExportIdentity, hbefore,
        BranchExportOperation.value]
  have hafter : payload.is .branchExistsAfter true = true := by
    simp [BranchExportPayload.is, ← hpayload, branchExportRecord, branchExportIdentity]
  have htuple : terminalOperationTupleIsValid payload = true := by
    cases recoveryMode <;> cases operation <;>
      simp [terminalOperationTupleIsValid, ← hpayload, branchExportRecord, branchExportIdentity, BranchExportOperation.value,
        BranchExportRecoveryMode.value]
    exact horigin rfl rfl ▸ rfl
  refine accepted_terminal hstatus (.inl rfl) ?_
  simp [terminalRecordMatches, hstatus, fulfilledTerminalRecordMatches, hidentity, hbranch, hoperation, hafter, htuple,
    hcheckpoint, hcontract]

theorem accepted_skipped {expectation : BranchExportRecordExpectation} (hidentity : expectation.identity = identity)
    (hnode : expectation.checkpoint.nodeId = nodeId) :
    RecordAccepted (skippedBranchExportRecord identity nodeId false origin now) expectation := by
  generalize hpayload : skippedBranchExportRecord identity nodeId false origin now = payload
  have hstatus : payload.get .status = word "skipped" := by simp [← hpayload, skippedBranchExportRecord, branchExportIdentity]
  have hterminal : terminalIdentityMatches payload expectation = true := by
    cases origin <;>
      simp [terminalIdentityMatches, recordIdentityMatches, BranchExportPayload.is, ← hpayload, skippedBranchExportRecord,
        branchExportIdentity, BranchExportOrigin.value, hidentity, hnode]
  refine accepted_terminal hstatus (.inr (.inl rfl)) ?_
  simp only [terminalRecordMatches, has_word, hstatus, if_true, skippedTerminalRecordMatches, hterminal, Bool.true_and]
  simp [BranchExportPayload.lacks, ← hpayload, skippedBranchExportRecord, branchExportIdentity]

/-- A failure that knows its checkpoint is accepted with that one, a failure without any with every checkpoint. -/
theorem accepted_failed {branchName branchRef : Option Text} {before : Option Bool} {message : String}
    {recoveryMode : BranchExportRecoveryMode} {expectation : BranchExportRecordExpectation} {found : Option BranchExportCheckpoint}
    (hidentity : expectation.identity = identity) (hnode : expectation.checkpoint.nodeId = nodeId)
    (hfound : ∀ c, found = some c → expectation.checkpoint = c) (hmode : found = none → recoveryMode = .initial) :
    RecordAccepted (failedBranchExportRecord identity nodeId branchName branchRef found before message false origin recoveryMode now)
      expectation := by
  generalize hpayload : failedBranchExportRecord identity nodeId branchName branchRef found before message false origin recoveryMode
    now = payload
  have hstatus : payload.get .status = word "failed_verification" := by
    cases found <;> simp [← hpayload, failedBranchExportRecord, branchExportIdentity]
  have hterminal : terminalIdentityMatches payload expectation = true := by
    cases found with
    | none =>
      cases origin <;> cases recoveryMode <;>
        simp [terminalIdentityMatches, recordIdentityMatches, BranchExportPayload.is, ← hpayload, failedBranchExportRecord,
          branchExportIdentity, BranchExportOrigin.value, BranchExportRecoveryMode.value, hidentity, hnode]
    | some c =>
      obtain rfl := hfound c rfl
      cases origin <;> cases recoveryMode <;>
        simp [terminalIdentityMatches, recordIdentityMatches, BranchExportPayload.is, ← hpayload, failedBranchExportRecord,
          branchExportIdentity, BranchExportOrigin.value, BranchExportRecoveryMode.value, hidentity]
  have hoperation : payload.get .operation = word "failed_verification" := by
    cases found <;> simp [← hpayload, failedBranchExportRecord, branchExportIdentity]
  have hmessage : payload.isText .failureMessage = true := by
    cases found <;> simp [BranchExportPayload.isText, ← hpayload, failedBranchExportRecord, branchExportIdentity, word]
  have hexists : payload.has .branchExistsAfter (payload.get .branchExistsBefore) = true := by
    cases found <;> cases before <;>
      simp [BranchExportPayload.has, ← hpayload, failedBranchExportRecord, branchExportIdentity, known, RecordValue.same,
        RecordValue.asNumber]
  have hcheckpoint : terminalCheckpointMatches payload expectation.checkpoint = true := by
    cases found with
    | none => simp [terminalCheckpointMatches, checkpointFields, ← hpayload, failedBranchExportRecord, branchExportIdentity, Dict.get?]
    | some c =>
      obtain rfl := hfound c rfl
      have hmatches : checkpointMatches payload expectation.checkpoint = true := hpayload ▸ checkpointMatches_update _ _
      simp [terminalCheckpointMatches, hmatches]
  have hpresent : payload.get .recoveryMode = word "prepared_record" → terminalCheckpointIsPresent payload = true := by
    intro hprepared
    cases found with
    | none =>
      obtain rfl := hmode rfl
      simp [← hpayload, failedBranchExportRecord, branchExportIdentity, BranchExportRecoveryMode.value] at hprepared
    | some c =>
      refine List.all_eq_true.2 fun field hfield => ?_
      rw [← hpayload]
      refine (Dict.mem_keys_iff _ _).1 ((Dict.mem_keys_update _ _ _).2 (.inr ?_))
      rw [Option.elim, keys_checkpointRecord]
      revert hfield
      cases field <;> decide
  refine accepted_terminal hstatus (.inr (.inr rfl)) ?_
  have hoptional : (!payload.has .recoveryMode (word "prepared_record") || terminalCheckpointIsPresent payload) = true := by
    by_cases hprepared : payload.get .recoveryMode = word "prepared_record"
    · simp [hpresent hprepared]
    · simp [Bool.eq_false_iff.2 ((has_word payload _ _).not.2 hprepared)]
  simp [terminalRecordMatches, hstatus, failedTerminalRecordMatches, hterminal, hoperation, hmessage, hexists, hcheckpoint,
    hoptional]

end Accepted

/-! ## What an accepted record says -/

section Classified

variable {payload : BranchExportPayload} {expectation : BranchExportRecordExpectation} {r : BranchExportReconciliation}

/-- The record is complete: fulfilled for this branch at this commit. -/
structure Completed (branchRef commit : Text) (payload : BranchExportPayload) : Prop where
  status : payload.get .status = word "fulfilled"
  branchRef : payload.get .branchRef = .text branchRef
  resultCommit : payload.get .resultCommit = .text commit

/-- The record announces the creation of this branch at this commit. -/
structure Announced (branchRef commit : Text) (payload : BranchExportPayload) : Prop where
  status : payload.get .status = word "prepared"
  branchRef : payload.get .branchRef = .text branchRef
  targetOid : payload.get .targetOid = .text commit

theorem Completed.unique {branch branch' commit commit' : Text} (h : Completed branch commit payload)
    (h' : Completed branch' commit' payload) : branch = branch' ∧ commit = commit' :=
  ⟨by simpa using h.branchRef.symm.trans h'.branchRef, by simpa using h.resultCommit.symm.trans h'.resultCommit⟩

theorem completed_fulfilled {identity : BranchExportIdentity} {branchName branchRef now : Text}
    {checkpoint : BranchExportCheckpoint} {contract : WorktreeContract} {operation : BranchExportOperation} {before : Bool}
    {origin : BranchExportOrigin} {mode : BranchExportRecoveryMode} : Completed branchRef checkpoint.resultCommit
      (branchExportRecord identity branchName branchRef checkpoint contract operation before true origin mode false now) := by
  refine ⟨?_, ?_, ?_⟩ <;> simp [branchExportRecord, branchExportIdentity]

theorem checkpoint_commit {checkpoint : BranchExportCheckpoint} (h : checkpointMatches payload checkpoint = true) :
    payload.get .resultCommit = .text checkpoint.resultCommit ∧ payload.get .resultTree = .text checkpoint.resultTree := by
  have hall := List.all_eq_true.1 h
  exact ⟨(has_text _ _ _).1 (hall (.resultCommit, .text checkpoint.resultCommit) (by simp [checkpointRecord])),
    (has_text _ _ _).1 (hall (.resultTree, .text checkpoint.resultTree) (by simp [checkpointRecord]))⟩

/-- A prepared record that is accepted announces what is expected. -/
theorem classified_prepared (h : classifyPayload payload expectation = .ok r) (hmode : r.recoveryMode = .preparedRecord) :
    Announced expectation.branchRef expectation.checkpoint.resultCommit payload ∧ r.idempotentPayload = none := by
  unfold classifyPayload at h
  split at h
  next hstatus =>
    unfold reconcilePreparedRecord at h
    split at h
    next => cases h
    next hmatches =>
      have hprepared : preparedRecordMatches payload expectation = true := by simpa using hmatches
      simp only [preparedRecordMatches, Bool.and_eq_true, has_text] at hprepared
      cases horigin : preparedOperationOrigin payload with
      | error e => simp [horigin, bind, Except.bind] at h
      | ok origin =>
        simp only [horigin, bind, Except.bind, pure, Except.pure, Except.ok.injEq] at h
        exact ⟨⟨(has_word _ _ _).1 hstatus, by tauto, by tauto⟩, by rw [← h]⟩
  next =>
    split at h
    · unfold reconcileTerminalRecord at h
      split at h
      · cases h
      · split at h
        · simp [← Except.ok.inj h] at hmode
        · simp [← Except.ok.inj h] at hmode
    · cases h

/-- A completed record is found out as such. -/
theorem classified_completed {commit : Text} (h : classifyPayload payload expectation = .ok r)
    (hcompleted : Completed expectation.branchRef commit payload) :
    commit = expectation.checkpoint.resultCommit ∧ r = { recoveryMode := .initial, idempotentPayload := some payload } := by
  have hstatus := hcompleted.status
  rw [classify_terminal hstatus (.inl rfl)] at h
  unfold reconcileTerminalRecord at h
  split at h
  · cases h
  next hmatches =>
    have hterminal : terminalRecordMatches payload expectation = true := by simpa using hmatches
    simp [terminalRecordMatches, hstatus, fulfilledTerminalRecordMatches] at hterminal
    obtain ⟨hcommit, htree⟩ := checkpoint_commit hterminal.1.2
    have hsame : commit = expectation.checkpoint.resultCommit := by
      simpa using hcompleted.resultCommit.symm.trans hcommit
    have hidempotent : (payload.has .status (word "fulfilled") && payload.has .branchRef (.text expectation.branchRef) &&
        payload.has .resultCommit (.text expectation.checkpoint.resultCommit) &&
        payload.has .resultTree (.text expectation.checkpoint.resultTree)) = true := by
      simp [hstatus, hcompleted.branchRef, hcommit, htree]
    rw [hidempotent, if_pos rfl] at h
    exact ⟨hsame, (Except.ok.inj h).symm⟩

/-- Only a completed record is given back. -/
theorem classified_idempotent {given : BranchExportPayload} (h : classifyPayload payload expectation = .ok r)
    (hgiven : r.idempotentPayload = some given) :
    given = payload ∧ r.recoveryMode = .initial ∧ Completed expectation.branchRef expectation.checkpoint.resultCommit payload := by
  unfold classifyPayload at h
  split at h
  · unfold reconcilePreparedRecord at h
    split at h
    · cases h
    · cases horigin : preparedOperationOrigin payload with
      | error e => simp [horigin, bind, Except.bind] at h
      | ok origin =>
        simp only [horigin, bind, Except.bind, pure, Except.pure, Except.ok.injEq] at h
        simp [← h] at hgiven
  · split at h
    · unfold reconcileTerminalRecord at h
      split at h
      · cases h
      · split at h
        next hidempotent =>
          obtain rfl := Except.ok.inj h
          simp only [Bool.and_eq_true, has_word, has_text] at hidempotent
          exact ⟨(Option.some.inj hgiven).symm, rfl, hidempotent.1.1.1, hidempotent.1.1.2, hidempotent.1.2⟩
        next =>
          obtain rfl := Except.ok.inj h
          cases hgiven
    · cases h

end Classified

end Crewplane.Workspace
