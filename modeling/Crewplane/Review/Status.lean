import Crewplane.Lib.Json
import Crewplane.Lib.Paths
import Crewplane.Plan.Contract
import Crewplane.Review.Progress
/-
# The status of a review loop

| here | there |
|------|-------|
| `ReviewLoopProgress.snapshot` | review_loop/types.py:353 |
| `statusOutputEntry`, `buildReviewLoopStatusPayload` | review_loop/state.py:248, 289 |
| `resolveReviewLoopStatus` and its parts | artifacts/results/review_loop_status.py |
| `isSafePathComponent`, `relativePathParts`, `containedRegularFile` | architecture/safe_file_paths.py, safe_files.py |

The payload is a JSON object; its text is not modelled. `StageFiles` are the single-link regular files below
the directory of the stage, with their bytes.
-/
namespace Crewplane.Review

open Crewplane.Lib Crewplane.Plan

/-! ## JSON records -/

namespace Json

def ofString (s : String) : Json := .str s.toList

def ofNat (n : Nat) : Json := .int n

def ofOptionalNat : Option Nat → Json
  | none => .null
  | some n => .int n

def record (fields : List (String × Json)) : Json := .obj (fields.map fun field => (field.1.toList, field.2))

/-- `payload.get(key)`, with `None` for an absent key. -/
def field (payload : Json) (key : String) : Json :=
  match payload with
  | .obj members => (Dict.get? members key.toList).getD .null
  | _ => .null

def hasField (payload : Json) (key : String) : Bool :=
  match payload with
  | .obj members => (Dict.get? members key.toList).isSome
  | _ => false

/-- `is_nonnegative_int`. -/
def nat? : Json → Option Nat
  | .int (.ofNat n) => some n
  | _ => none

def bool? : Json → Option Bool
  | .bool b => some b
  | _ => none

def string? : Json → Option String
  | .str s => some (String.ofList s)
  | _ => none

def items? : Json → Option (List Json)
  | .arr items => some items
  | _ => none

end Json

/-! ## Paths -/

def foldCase (c : Char) : Char := if c = 'ı' || c = 'İ' then 'i' else c.toLower

def windowsDevices : List String :=
  ["con", "prn", "aux", "nul", "conin$", "conout$"] ++
    ["1", "2", "3", "4", "5", "6", "7", "8", "9", "¹", "²", "³"].flatMap fun n => ["com" ++ n, "lpt" ++ n]

/-- A device name, blanks, and the end or a dot. -/
def isWindowsDeviceName (name : List Char) : Bool :=
  windowsDevices.any fun device =>
    device.toList.isPrefixOf (name.map foldCase) &&
      match (name.drop device.toList.length).dropWhile (· = ' ') with
      | [] => true
      | c :: _ => c = '.'

def isSafePathComponent (component : List Char) : Bool :=
  !component.isEmpty && component ≠ ['.'] && component ≠ ['.', '.'] &&
    !(component.getLast? = some '.' || component.getLast? = some ' ') && !isWindowsDeviceName component &&
    component.all fun c => 32 ≤ c.toNat && !"<>:\"/\\|?*".toList.contains c

def relativePathParts (path : List Char) : Option (List (List Char)) :=
  if path = [] ∨ path = ['.'] then some []
  else if (path.splitOn '/').all isSafePathComponent then some (path.splitOn '/')
  else none

/-- The parts of `Path(text)` for a relative path. -/
def pathParts (path : List Char) : List (List Char) := (path.splitOn '/').filter fun part => part ≠ [] && part ≠ ['.']

/-- `stem` of a file name: what stands before the last dot, where something stands on both sides. -/
def pathStem (name : List Char) : List Char :=
  match name.reverse.dropWhile (· ≠ '.') with
  | _ :: c :: rest => if name.getLast? = some '.' then name else (c :: rest).reverse
  | _ => name

abbrev StageFiles := RelPath → Option (List UInt8)

def containedRegularFile (files : StageFiles) (path : List Char) : Option (RelPath × List UInt8) :=
  match relativePathParts path with
  | none => none
  | some [] => none
  | some parts => (files (parts.map String.ofList)).map fun bytes => (parts.map String.ofList, bytes)

/-! ## Snapshots -/

/-- What a status shows while an audit is active: the audit's candidate, or the selected one until the audit has reviewed its own. -/
def ReviewLoopProgress.snapshot (p : ReviewLoopProgress) : ReviewLoopProgress :=
  let snapshot := { p with activeAudit := none }
  let snapshot := match p.activeAudit with
    | none => snapshot
    | some active =>
      let recorded := snapshot.recordAuditResult (active.toResult false false)
      if active.selectedRoundNum = 0 ∧ p.latestExecutorOutputs ≠ none ∧ p.latestExecutorOutputs ≠ some [] then
        { recorded with
          latestExecutorOutputs := p.latestExecutorOutputs
          latestReviewerOutputs := p.latestReviewerOutputs
          selectedRoundNum := p.selectedRoundNum }
      else recorded
  if p.stopReason.isSome then { snapshot with stopReason := p.stopReason } else snapshot

/-! ## The writer -/

/-- What a status says of an output. -/
structure StatusArtifact where
  taskId : TaskId
  provider : String
  outputFile : RelPath
  outputSignature : Option ContentSignature
  auditRoundNum : Option Nat
  roundNum : Nat

def ExecutorRoundArtifact.status (a : ExecutorRoundArtifact) : StatusArtifact :=
  ⟨a.taskId, a.provider.provider, a.outputFile, a.outputSignature, a.auditRoundNum, a.roundNum⟩

def ReviewerRoundArtifact.status (a : ReviewerRoundArtifact) : StatusArtifact :=
  ⟨a.taskId, a.provider.provider, a.outputFile, a.outputSignature, a.auditRoundNum, a.roundNum⟩

def ProviderRole.value : ProviderRole → String
  | executor => "executor"
  | reviewer => "reviewer"

def ReviewLoopStopReason.value : ReviewLoopStopReason → String
  | consensus => "consensus"
  | consensusExhausted => "consensus_exhausted"
  | noProgress => "no_progress"
  | noValidCandidate => "no_valid_candidate"
  | cancelled => "cancelled"
  | failed => "failed"

def stopReasons : List String :=
  [ReviewLoopStopReason.consensus, .consensusExhausted, .noProgress, .noValidCandidate, .cancelled, .failed].map
    ReviewLoopStopReason.value

/-- `relative_to`. -/
def relativeTo (root : RelPath) (path : RelPath) : Option RelPath :=
  if root.isPrefixOf path then some (path.drop root.length) else none

/-- `as_posix`. -/
def asPosix (path : RelPath) : List Char := joinPath (path.map String.toList)

def contentSignature (sha256 : List UInt8 → String) (bytes : List UInt8) : ContentSignature := ⟨bytes.length, sha256 bytes⟩

section Writer

variable (sha256 : List UInt8 → String) (stage : RelPath) (files : StageFiles)

def statusOutputEntry (role : ProviderRole) (artifact : StatusArtifact) : Except String Json := do
  let output := "Review output for task '" ++ artifact.taskId ++ "'"
  match relativeTo stage artifact.outputFile with
  | none => .error (output ++ " is outside its node stage.")
  | some relativePath =>
    match containedRegularFile files (asPosix relativePath) with
    | none => .error (output ++ " is not a safe regular file.")
    | some (_, bytes) =>
      match artifact.outputSignature with
      | none => .error (output ++ " has no bound runtime publication.")
      | some signature =>
        if contentSignature sha256 bytes ≠ signature then
          .error (output ++ " does not match its bound runtime publication.")
        else .ok (Json.record
          [("task_id", Json.ofString artifact.taskId), ("provider", Json.ofString artifact.provider),
            ("role", Json.ofString role.value), ("path", .str (asPosix relativePath)),
            ("sha256", Json.ofString signature.sha256), ("size_bytes", Json.ofNat signature.size),
            ("audit_round_num", Json.ofOptionalNat artifact.auditRoundNum), ("round_num", Json.ofNat artifact.roundNum)])

/-- `_selected_round_num`, which stands in where no round is selected. -/
def selectedRoundNum (p : ReviewLoopProgress) : Nat :=
  match p.latestExecutorOutputs, p.latestReviewerOutputs with
  | some (output :: _), _ => output.roundNum
  | _, review :: _ => review.roundNum
  | _, [] => 0

def finalRoundNum (p : ReviewLoopProgress) : Nat :=
  if p.selectedRoundNum ≠ 0 then p.selectedRoundNum else selectedRoundNum p

/-- The fields of a payload, less the outputs' checks. -/
def statusFields (nodeId : NodeId) (p : ReviewLoopProgress) (executors reviewers : List Json) : List (String × Json) :=
  [("node_id", Json.ofString nodeId), ("executed_audit_rounds", Json.ofNat p.executedAuditRounds),
    ("attempted_local_round_num", Json.ofNat p.lastRoundNum), ("final_local_round_num", Json.ofNat (finalRoundNum p)),
    ("consensus_reached", .bool p.consensusReached),
    ("continued_after_consensus_exhaustion", .bool p.continuedAfterExhaustion),
    ("invalid_candidate_round_count", Json.ofNat p.invalidCandidateRoundCount),
    ("no_progress_round_count", Json.ofNat p.noProgressRoundCount),
    ("artifact_drift_warning_count", Json.ofNat p.artifactDriftWarningCount),
    ("stop_reason", (p.stopReason.map fun reason => Json.ofString reason.value).getD .null),
    ("continued_after_stop", .bool p.continuedAfterStop),
    ("consecutive_no_progress_round_count", Json.ofNat p.stall.consecutiveRoundCount),
    ("canonical_executor_outputs", .arr executors), ("reviewer_outputs", .arr reviewers)]

def buildReviewLoopStatusPayload (nodeId : NodeId) (progress : ReviewLoopProgress) : Except String Json := do
  let p := progress.snapshot
  let executors ← ((p.latestExecutorOutputs.getD []).map (·.status)).mapM (statusOutputEntry sha256 stage files .executor)
  let reviewers ← (p.latestReviewerOutputs.map (·.status)).mapM (statusOutputEntry sha256 stage files .reviewer)
  return Json.record (statusFields nodeId p executors reviewers)

end Writer

/-! ## The reader -/

structure ReviewLoopStatusEntry where
  taskId : TaskId
  provider : String
  role : ProviderRole
  relativePath : List Char
  outputFile : RelPath
  sha256 : String
  sizeBytes : Nat
  auditRoundNum : Option Nat
  roundNum : Nat
deriving DecidableEq

structure ResolvedReviewLoopStatus where
  canonicalExecutorOutputs : List ReviewLoopStatusEntry
  reviewerOutputs : List ReviewLoopStatusEntry

structure StageTaskSpec where
  taskId : TaskId
  role : ProviderRole
  provider : Option String

def taskSpecsForProducers (producers : List ProviderRecord) : List StageTaskSpec :=
  producers.map fun producer => ⟨producer.taskId, producer.role, some producer.provider⟩

def statusError {α : Type} (message : String) : Except String α :=
  .error ("Invalid review-loop status artifact: " ++ message)

/-- `if not b: raise status_error(message)`. -/
def requireStatus (b : Prop) [Decidable b] (message : String) : Except String Unit :=
  require b ("Invalid review-loop status artifact: " ++ message)

section Reader

variable (sha256 : List UInt8 → String) (files : StageFiles)

def validateStatusIdentity (payload : Json) (stageName : NodeId) : Except String Unit :=
  match Json.string? (Json.field payload "node_id") with
  | none => statusError "node_id must be a non-empty string"
  | some nodeId => do
    requireStatus (isBlank nodeId = false) "node_id must be a non-empty string"
    requireStatus (nodeId = stageName) ("node_id '" ++ nodeId ++ "' does not match finalized stage '" ++ stageName ++ "'")

def requiredCounterFields : List String :=
  ["executed_audit_rounds", "attempted_local_round_num", "final_local_round_num", "invalid_candidate_round_count",
    "no_progress_round_count", "artifact_drift_warning_count"]

def requiredBooleanFields : List String := ["consensus_reached", "continued_after_consensus_exhaustion"]

def validateStatusCounters (payload : Json) : Except String Unit :=
  checkAll requiredCounterFields fun name =>
    requireStatus ((Json.nat? (Json.field payload name)).isSome) (name ++ " must be a non-negative integer")

def validateStatusBooleans (payload : Json) : Except String Unit :=
  checkAll requiredBooleanFields fun name =>
    requireStatus ((Json.bool? (Json.field payload name)).isSome) (name ++ " must be a boolean")

def isStopReason : Json → Bool
  | .null => true
  | .str s => stopReasons.contains (String.ofList s)
  | _ => false

def validateStatusMetadata (payload : Json) (stageName : NodeId) : Except String Unit := do
  validateStatusIdentity payload stageName
  validateStatusCounters payload
  validateStatusBooleans payload
  requireStatus (isStopReason (Json.field payload "stop_reason"))
    "stop_reason is not a recognized review-loop stop reason"
  requireStatus (Json.hasField payload "consecutive_no_progress_round_count" →
      (Json.nat? (Json.field payload "consecutive_no_progress_round_count")).isSome)
    "consecutive_no_progress_round_count must be non-negative"
  requireStatus (Json.hasField payload "continued_after_stop" →
      (Json.bool? (Json.field payload "continued_after_stop")).isSome)
    "continued_after_stop must be a boolean"

def entryLabel (fieldName : String) (index : Nat) : String := fieldName ++ "[" ++ Nat.repr index ++ "]"

def nonEmptyEntryString (entry : Json) (fieldName : String) (index : Nat) (key : String) : Except String String :=
  match Json.string? (Json.field entry key) with
  | none => statusError (entryLabel fieldName index ++ "." ++ key ++ " must be a non-empty string")
  | some value =>
    if isBlank value then statusError (entryLabel fieldName index ++ "." ++ key ++ " must be a non-empty string") else .ok value

def nonNegativeEntryInt (entry : Json) (fieldName : String) (index : Nat) (key : String) : Except String Nat :=
  match Json.nat? (Json.field entry key) with
  | none => statusError (entryLabel fieldName index ++ "." ++ key ++ " must be non-negative")
  | some value => .ok value

def positiveEntryInt (entry : Json) (fieldName : String) (index : Nat) (key : String) : Except String Nat := do
  let value ← nonNegativeEntryInt entry fieldName index key
  if value = 0 then statusError (entryLabel fieldName index ++ "." ++ key ++ " must be positive") else return value

def isNone : Json → Bool
  | .null => true
  | _ => false

def optionalPositiveEntryInt (entry : Json) (fieldName : String) (index : Nat) (key : String) :
    Except String (Option Nat) :=
  if isNone (Json.field entry key) then .ok none else some <$> positiveEntryInt entry fieldName index key

def validateEntryLocatorAttribution (path : List Char) (auditRoundNum : Option Nat) (roundNum : Nat) (fieldName : String)
    (index : Nat) : Except String Unit :=
  let expectedParent := match auditRoundNum with
    | none => []
    | some audit => [(buildReviewAuditDirectoryName audit).toList]
  requireStatus ((pathParts path).dropLast = expectedParent ∧
      ("_round" ++ Nat.repr roundNum).toList <:+ pathStem ((pathParts path).getLastD []))
    (entryLabel fieldName index ++ ".path conflicts with its audit/round attribution")

def resolveStatusOutputFile (path : List Char) (fieldName : String) (index : Nat) : Except String (RelPath × List UInt8) := do
  requireStatus (path.head? ≠ some '/') (entryLabel fieldName index ++ ".path must be relative")
  requireStatus (".md".toList <:+ path) (entryLabel fieldName index ++ ".path must point to a .md file")
  match containedRegularFile files path with
  | none => statusError (entryLabel fieldName index ++ ".path must point to a safe regular file")
  | some found => return found

/-- `parse_status_entry` of an object. -/
def parseStatusObject (fieldName : String) (expectedRole : ProviderRole) (entry : Json) (index : Nat) :
    Except String ReviewLoopStatusEntry := do
  let taskId ← nonEmptyEntryString entry fieldName index "task_id"
  let provider ← nonEmptyEntryString entry fieldName index "provider"
  let rawRole ← nonEmptyEntryString entry fieldName index "role"
  let path ← nonEmptyEntryString entry fieldName index "path"
  let digest ← nonEmptyEntryString entry fieldName index "sha256"
  let size ← nonNegativeEntryInt entry fieldName index "size_bytes"
  let roundNum ← positiveEntryInt entry fieldName index "round_num"
  let auditRoundNum ← optionalPositiveEntryInt entry fieldName index "audit_round_num"
  requireStatus (rawRole = expectedRole.value)
    (entryLabel fieldName index ++ ".role must be '" ++ expectedRole.value ++ "', got '" ++ rawRole ++ "'")
  validateEntryLocatorAttribution path.toList auditRoundNum roundNum fieldName index
  let found ← resolveStatusOutputFile files path.toList fieldName index
  requireStatus (found.2.length = size ∧ sha256 found.2 = digest)
    (entryLabel fieldName index ++ " bytes do not match its descriptor")
  return ⟨taskId, provider, expectedRole, path.toList, found.1, digest, size, auditRoundNum, roundNum⟩

def parseStatusEntry (fieldName : String) (expectedRole : ProviderRole) (entry : Json) (index : Nat) :
    Except String ReviewLoopStatusEntry :=
  match entry with
  | .obj _ => parseStatusObject sha256 files fieldName expectedRole entry index
  | _ => statusError (entryLabel fieldName index ++ " must be an object")

def parseStatusEntries (payload : Json) (fieldName : String) (expectedRole : ProviderRole) :
    Except String (List ReviewLoopStatusEntry) :=
  match Json.items? (Json.field payload fieldName) with
  | none => statusError (fieldName ++ " must be a list")
  | some entries => entries.zipIdx.mapM fun entry => parseStatusEntry sha256 files fieldName expectedRole entry.1 entry.2

/-- The loop with its `seen`. -/
def validateUniqueTaskIds : List TaskId → List ReviewLoopStatusEntry → Except String Unit
  | _, [] => .ok ()
  | seen, entry :: entries => do
    requireStatus (entry.taskId ∉ seen) ("duplicate task_id '" ++ entry.taskId ++ "'")
    validateUniqueTaskIds (entry.taskId :: seen) entries

def validateExpectedTaskProducers (entries : List ReviewLoopStatusEntry) (taskSpecs : List StageTaskSpec) :
    Except String Unit :=
  if taskSpecs.isEmpty then .ok ()
  else
    let expected := Dict.ofPairs (taskSpecs.map fun task => (task.taskId, task))
    checkAll entries fun entry =>
      match Dict.get? expected entry.taskId with
      | none => statusError ("unknown task_id '" ++ entry.taskId ++ "'")
      | some task => do
        requireStatus (task.role = entry.role) ("task_id '" ++ entry.taskId ++ "' has an unexpected producer role")
        requireStatus (∀ provider ∈ task.provider, provider = entry.provider)
          ("task_id '" ++ entry.taskId ++ "' has an unexpected producer provider")

def validateRoundAttribution (payload : Json) (entries : List ReviewLoopStatusEntry) : Except String Unit := do
  requireStatus ((entries.map fun entry => (entry.auditRoundNum, entry.roundNum)).dedup.length ≤ 1)
    "selected outputs must belong to one audit and local round"
  let finalRound := Json.nat? (Json.field payload "final_local_round_num")
  let attemptedRound := Json.nat? (Json.field payload "attempted_local_round_num")
  let executedAudits := Json.nat? (Json.field payload "executed_audit_rounds")
  requireStatus (∀ entry ∈ entries.head?, some entry.roundNum = finalRound)
    "selected output round does not match final_local_round_num"
  let selectedEarlierAudit := ∃ entry ∈ entries.head?, ∃ audit ∈ entry.auditRoundNum, ∃ executed ∈ executedAudits, audit < executed
  requireStatus (∀ final ∈ finalRound, ∀ attempted ∈ attemptedRound, attempted < final → selectedEarlierAudit)
    "final_local_round_num cannot exceed attempted_local_round_num"

def resolveReviewLoopStatus (stageName : NodeId) (payload : Json) (taskSpecs : List StageTaskSpec) :
    Except String ResolvedReviewLoopStatus := do
  validateStatusMetadata payload stageName
  let canonicalOutputs ← parseStatusEntries sha256 files payload "canonical_executor_outputs" .executor
  let reviewerOutputs ← parseStatusEntries sha256 files payload "reviewer_outputs" .reviewer
  validateUniqueTaskIds [] (canonicalOutputs ++ reviewerOutputs)
  validateExpectedTaskProducers (canonicalOutputs ++ reviewerOutputs) taskSpecs
  validateRoundAttribution payload (canonicalOutputs ++ reviewerOutputs)
  return ⟨canonicalOutputs, reviewerOutputs⟩

end Reader

end Crewplane.Review
