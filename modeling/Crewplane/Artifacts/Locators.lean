import Crewplane.Review.Status
import Crewplane.Review.Structured
import Crewplane.Workspace.RefNames
/-
# Artifact locators (architecture/contracts/artifacts.py, core/preflight/plan_contract_artifacts.py)

| here | there |
|------|-------|
| `windowsSafeGeneratedName`, `safeStageName`, `boundedArtifactName` | contracts/artifacts.py:165, 177, 187 |
| `artifactContractForNode` | contracts/artifacts.py:80 |
| `validateArtifactContractUniqueness` | plan_contract_artifacts.py:19 |

Node ids are ASCII (`NODE_ID_PATTERN`), and a stage name keeps ASCII only, so `casefold` of such a locator is
the lower case of its ASCII letters. A persisted locator may be any text, and its validation takes `str.casefold` as an
argument. `sha256` is the hexadecimal digest of a text.
-/
namespace Crewplane.Artifacts

open Crewplane.Lib Crewplane.Review
open Crewplane.Workspace (Text safeChar edgeChar)

def maxArtifactPathComponentChars : Nat := 180

/-- `[a-z0-9._-]`. -/
def stageChar (c : Char) : Bool := tokenChar c || c = '.' || c = '_' || c = '-'

/-- `NODE_ID_PATTERN.fullmatch`, and neither `.` nor `..`. -/
def validNodeId (id : Text) : Bool := !id.isEmpty && id.all stageChar && id ≠ ['.'] && id ≠ ['.', '.']

/-- What `rstrip(". ")` takes off. -/
def dotOrBlank (c : Char) : Bool := c = '.' || c = ' '

def taskName : Text := ['t', 'a', 's', 'k']
def safePrefix : Text := ['s', 'a', 'f', 'e', '-']

/-- A name that Windows keeps for a device gets `safe-` in front. -/
def deviceSafe (slug : Text) : Text := if isWindowsDeviceName slug then safePrefix ++ slug else slug

section Names

variable (sha256 : Text → Text)

def artifactNameHash (value : Text) : Text := (sha256 value).take 12

def windowsSafeGeneratedName (slug original : Text) : Text :=
  deviceSafe <|
    if slug.getLast?.any dotOrBlank then
      (if rstrip dotOrBlank slug = [] then taskName else rstrip dotOrBlank slug) ++ ['-', '-'] ++
        artifactNameHash sha256 original
    else slug

def safeStageName (name : Text) : Text :=
  let stripped := lowerChars (stripChars name)
  if stripped = [] ∨ stripped = ['.'] ∨ stripped = ['.', '.'] then taskName
  else
    let slug := dashRuns stageChar stripped
    if slug = ['.'] ∨ slug = ['.', '.'] then taskName
    else windowsSafeGeneratedName sha256 (if slug = [] then taskName else slug) name

/-- What a cut prefix is stripped of: `rstrip("-._")`. -/
def cutEdge (c : Char) : Bool := c = '-' || c = '.' || c = '_'

/-- The prefix of a file name, renamed where the name is that of a device. -/
def deviceSafeFront (front suffix : Text) : Text :=
  if isWindowsDeviceName (front ++ suffix) then safePrefix ++ front else front

def boundedArtifactName (front suffix : Text) : Except String Text :=
  if maxArtifactPathComponentChars ≤ suffix.length then .error "Generated suffix exceeds path component budget."
  else
    let available := maxArtifactPathComponentChars - suffix.length
    let cut := rstrip cutEdge ((deviceSafeFront front suffix).take available)
    .ok ((if cut = [] then "artifact".toList.take available else cut) ++ suffix)

def boundedArtifactFilename (name front suffix : Text) : Except String Text :=
  let front := deviceSafeFront front suffix
  if (front ++ suffix).length ≤ maxArtifactPathComponentChars then .ok (front ++ suffix)
  else boundedArtifactName front (['-', '-'] ++ artifactNameHash sha256 name ++ suffix)

def buildStageDirectoryName (nodeId : Text) : Except String Text :=
  let safeName := safeStageName sha256 nodeId
  if safeName.length ≤ maxArtifactPathComponentChars then .ok safeName
  else boundedArtifactName safeName (['-', '-'] ++ artifactNameHash sha256 nodeId)

def buildResultFilename (nodeId : Text) : Except String Text :=
  boundedArtifactFilename sha256 nodeId (safeStageName sha256 nodeId) "-result.md".toList

def buildFindingsFilename (nodeId : Text) : Except String Text :=
  boundedArtifactFilename sha256 nodeId (safeStageName sha256 nodeId) "-findings.md".toList

end Names

/-! ## The contract of a node -/

structure ArtifactContract where
  stagePath : Option Text := none
  outputPath : Text
  findingsPath : Option Text := none
  logPath : Option Text := none
  manifestPath : Option Text := none
  resultPath : Option Text := none
deriving DecidableEq

def isSafeRelativePath (path : Text) : Bool := (path.splitOn '/').all isSafePathComponent

def ArtifactContract.locators (contract : ArtifactContract) : List Text :=
  contract.stagePath.toList ++ [contract.outputPath] ++ contract.findingsPath.toList ++ contract.logPath.toList ++
    contract.manifestPath.toList ++ contract.resultPath.toList

/-- The validator of the model: a contract exists only with safe locators. -/
def ArtifactContract.validated (contract : ArtifactContract) : Except String ArtifactContract :=
  if contract.locators.all isSafeRelativePath then .ok contract
  else .error "Artifact locators must be nonblank safe relative paths."

/-- `build_findings_filename(node_id) if findings_enabled else None`. -/
def findingsPathFor (sha256 : Text → Text) (nodeId : Text) : Bool → Except String (Option Text)
  | true => some <$> buildFindingsFilename sha256 nodeId
  | false => .ok none

def artifactContractForNode (sha256 : Text → Text) (nodeId : Text) (findingsEnabled : Bool) :
    Except String ArtifactContract := do
  let stagePath ← buildStageDirectoryName sha256 nodeId
  let outputPath ← buildResultFilename sha256 nodeId
  let findingsPath ← findingsPathFor sha256 nodeId findingsEnabled
  ArtifactContract.validated
    { stagePath := some stagePath, outputPath := outputPath, findingsPath := findingsPath,
      logPath := some (stagePath ++ "/logs".toList), resultPath := some outputPath }

/-- The part of a persisted node that names artifacts. -/
structure PlanNode where
  id : Text
  findings : Bool
  artifactContract : ArtifactContract
  /-- `provider_records`, by task id. -/
  taskIds : List Text
deriving DecidableEq

/-! ## No two locators overlap -/

def reservedStageRoots : List Text :=
  ["logs".toList, "manifests".toList, "preflight".toList, "workspace-exports".toList]

/-- `str.casefold` of ASCII. -/
def casefold (path : Text) : Text := path.map Char.toLower

structure Occupied where
  root : Text
  parts : List Text
  path : Text
  nodeId : Text
deriving DecidableEq

def textLt (a b : Text) : Bool := a.lex b fun c d => decide (c < d)

/-- The order of the tuples. -/
def Occupied.lt (a b : Occupied) : Bool :=
  if a.root ≠ b.root then textLt a.root b.root
  else if a.parts ≠ b.parts then a.parts.lex b.parts textLt
  else if a.path ≠ b.path then textLt a.path b.path
  else textLt a.nodeId b.nodeId

def sortedOccupied (occupied : List Occupied) : List Occupied :=
  occupied.insertionSort fun a b => b.lt a = false

section Folding

-- `str.casefold`
variable (fold : Text → Text)

def occupiedBy (node : PlanNode) : List Occupied :=
  let entry (root : String) (path : Text) : Occupied := ⟨root.toList, pathParts (fold path), path, node.id⟩
  node.artifactContract.stagePath.toList.map (entry "stages") ++
    [entry "results" node.artifactContract.outputPath] ++
    node.artifactContract.findingsPath.toList.map (entry "results")

def quoted (text : Text) : String := "'" ++ String.ofList text ++ "'"

/-- The checks of one node. -/
def validateArtifactContract (node : PlanNode) : Except String Unit :=
  match node.artifactContract.stagePath with
  | none => .error s!"Persisted node {quoted node.id} is missing its stage locator."
  | some stagePath =>
    let root := (stagePath.splitOn '/').headD []
    if fold root ∈ reservedStageRoots then
      .error s!"Persisted node {quoted node.id} uses reserved stage root {quoted root}."
    else if node.artifactContract.resultPath ≠ some node.artifactContract.outputPath then
      .error s!"Persisted node {quoted node.id} has conflicting output locators."
    else if node.findings ≠ node.artifactContract.findingsPath.isSome then
      .error s!"Persisted node {quoted node.id} has an inconsistent findings locator."
    else if node.artifactContract.logPath ≠ some (stagePath ++ "/logs".toList) then
      .error s!"Persisted node {quoted node.id} has a log locator outside its stage."
    else .ok ()

/-- The scan of the neighbours in the sorted list. -/
def validateNeighbours : List Occupied → Except String Unit
  | previous :: current :: rest =>
    if current.root = previous.root ∧ previous.parts <+: current.parts then
      .error (s!"Persisted nodes {quoted previous.nodeId} and {quoted current.nodeId} have overlapping " ++
        s!"{String.ofList current.root} artifact locators: {quoted previous.path} and {quoted current.path}.")
    else validateNeighbours (current :: rest)
  | _ => .ok ()

def validateArtifactContractUniqueness (nodes : List PlanNode) : Except String Unit := do
  nodes.forM (validateArtifactContract fold)
  validateNeighbours (sortedOccupied (nodes.flatMap (occupiedBy fold)))

end Folding

end Crewplane.Artifacts
