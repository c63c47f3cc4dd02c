import Crewplane.Lib.PyJsonWidth
import Crewplane.Plan.Template
import Crewplane.Workflow.CollectionCodec
/-
# The result index of a foreach group (core/preflight/foreach/index.py, runtime/execution/workflow/join.py)

Before a group is expanded, `projectedIndex` writes the index that its join will publish, with the largest size and a
digest of zeros for every artifact, and refuses the expansion when that is over a limit. `joinIndex` writes the real one
when all children have finished, from the collection as it was stored and the artifacts as they are read.

| here | there |
| --- | --- |
| `projectedIndex`, `terminalNodes` | index.py:15-43 |
| `projectedTerminalResult` | index.py:46-64 |
| `joinIndex`, `indexEntries` | join.py:26-86 |
| `verifiedChildArtifacts` | join.py:89-109 |

The records of the nodes are the same at both times: an expansion changes the dependencies of a group only. The locators
are safe relative paths, so a path is its components.
-/
namespace Crewplane.Workflow

open Crewplane.Lib Crewplane.Lib.PyJson Crewplane.Plan

/-- `MAX_INDEX_SIZE`. -/
def maxIndexSize : Nat := 2 ^ 64 - 1

inductive ArtifactKind
  | output | findings
  deriving DecidableEq, Repr

def ArtifactKind.key : ArtifactKind → Str
  | .output => Str.of "output"
  | .findings => Str.of "findings"

/-- `ArtifactContract` (contracts/artifacts.py:22), by the locators of what a node publishes. -/
structure ArtifactContract where
  outputPath : String
  findingsPath : Option String
  deriving DecidableEq, Repr

def ArtifactContract.path? (contract : ArtifactContract) : ArtifactKind → Option String
  | .output => some contract.outputPath
  | .findings => contract.findingsPath

/-- `PreflightExecutionNode`, by the fields the index reads. -/
structure IndexedNode where
  id : NodeId
  findings : Bool
  artifactContract : ArtifactContract
  deriving DecidableEq, Repr

def hexDigits : List Char := ['0', '1', '2', '3', '4', '5', '6', '7', '8', '9', 'a', 'b', 'c', 'd', 'e', 'f']

/-- `VerifiedNodeArtifact` (contracts/artifacts.py:66): the size of the payload and its SHA-256 in hexadecimal. -/
structure VerifiedNodeArtifact where
  sizeBytes : Nat
  sha256 : List Char
  hex : sha256.length = 64 ∧ ∀ c ∈ sha256, hexDigits.contains c = true

inductive IndexError where
  | unknownNode (id : NodeId)
  /-- A child whose expansion or artifact is not what its state says. -/
  | artifact (message : String)
  | oversized
  | collection (error : CollectionError)

/-- What the artifact store answers about finished children. -/
structure JoinStore where
  verifyNodeExpansion : NodeId → Except String Unit
  readVerifiedNodeArtifact : NodeId → ArtifactKind → Except String VerifiedNodeArtifact

/-! ## Paths -/

def pathComponents (path : String) : List (List Char) := path.toList.splitOn '/'

/-- The length of `os.path.commonprefix([start, path])`. -/
def commonLength : List (List Char) → List (List Char) → Nat
  | a :: start, b :: path => if a = b then commonLength start path + 1 else 0
  | _, _ => 0

/-- `posixpath.relpath(path, posixpath.dirname(output) or ".")`. -/
def relpathFrom (output path : String) : Str :=
  let start := (pathComponents output).dropLast
  let common := commonLength start (pathComponents path)
  let relative := List.replicate (start.length - common) ['.', '.'] ++ (pathComponents path).drop common
  Str.ofChars (if relative = [] then ['.'] else ['/'].intercalate relative)

/-! ## The entries -/

def lookupNode (nodes : NodeId → Option IndexedNode) (id : NodeId) : Except IndexError IndexedNode :=
  match nodes id with
  | some node => .ok node
  | none => .error (.unknownNode id)

def terminalNodes (template : CompiledForeach) : List NodeId :=
  template.executionOrder.filter (terminalNodeIds template).contains

/-- The record of one artifact. -/
def artifactEntry (group : IndexedNode) (path : String) (sizeBytes : Nat) (sha256 : List Char) : PyJson.Value :=
  .obj [(Str.of "path", .str (relpathFrom group.artifactContract.outputPath path)), (Str.of "size_bytes", .int sizeBytes),
    (Str.of "sha256", .str (Str.ofChars sha256))]

/-- The fields that name a child. -/
def childEntry (template : CompiledForeach) (localId : NodeId) (node : IndexedNode) : List (Str × PyJson.Value) :=
  [(Str.of "local_node_id", .str (Str.of (removePrefix localId (template.namespace ++ ".")))), (Str.of "node_id", .str (Str.of node.id))]

def projectedArtifact (node group : IndexedNode) (kind : ArtifactKind) : Option (Str × PyJson.Value) :=
  (node.artifactContract.path? kind).map fun path =>
    (kind.key, artifactEntry group path maxIndexSize (List.replicate 64 '0'))

/-- `_projected_terminal_result`. -/
def projectedTerminalResult (template : CompiledForeach) (localId : NodeId) (node group : IndexedNode) : PyJson.Value :=
  .obj (childEntry template localId node ++ [ArtifactKind.output, .findings].filterMap (projectedArtifact node group))

def readArtifact (store : JoinStore) (node group : IndexedNode) (kind : ArtifactKind) :
    Except IndexError (Str × PyJson.Value) := do
  let path ← match node.artifactContract.path? kind with
    | some path => .ok path
    | none => .error (.artifact ("Node '" ++ node.id ++ "' does not publish findings."))
  let artifact ← (store.readVerifiedNodeArtifact node.id kind).mapError .artifact
  if maxIndexSize < artifact.sizeBytes then .error .oversized
  else .ok (kind.key, artifactEntry group path artifact.sizeBytes artifact.sha256)

/-- `_verified_child_artifacts`. -/
def verifiedChildArtifacts (store : JoinStore) (node group : IndexedNode) : Except IndexError (List (Str × PyJson.Value)) := do
  (store.verifyNodeExpansion node.id).mapError .artifact
  (if node.findings then [ArtifactKind.output, .findings] else [.output]).mapM (readArtifact store node group)

/-- `{"index": index, "item": item, "results": results}`. -/
def indexEntry (index : Nat) (item : PyJson.Value) (results : List PyJson.Value) : PyJson.Value :=
  .obj [(Str.of "index", .int index), (Str.of "item", item), (Str.of "results", .arr results)]

/-- `for index, item in enumerate(items)`, with the results of one item. -/
def entriesFrom (results : Nat → Except IndexError (List PyJson.Value)) :
    Nat → List PyJson.Value → Except IndexError (List PyJson.Value)
  | _, [] => .ok []
  | index, item :: items => do
    let found ← results index
    let entries ← entriesFrom results (index + 1) items
    return indexEntry index item found :: entries

section Index

variable (nodes : NodeId → Option IndexedNode) (template : CompiledForeach)

def projectedResult (group : IndexedNode) (index : Nat) (localId : NodeId) : Except IndexError PyJson.Value := do
  let node ← lookupNode nodes (generatedId template localId index)
  return projectedTerminalResult template localId node group

def projectedIndex (items : List PyJson.Value) : Except IndexError ByteArray := do
  let group ← lookupNode nodes template.groupId
  let entries ← entriesFrom (fun index => (terminalNodes template).mapM (projectedResult nodes template group index)) 0 items
  (collectionBytes (.arr entries) template.maxItems template.groupId "projected result index").mapError .collection

/-- One child in the loop of `_index_entries`: every child is verified, a terminal one has a result. -/
def childResult (store : JoinStore) (group : IndexedNode) (index : Nat) (localId : NodeId) :
    Except IndexError (Option PyJson.Value) := do
  let node ← lookupNode nodes (generatedId template localId index)
  let artifacts ← verifiedChildArtifacts store node group
  return if (terminalNodes template).contains localId then some (.obj (childEntry template localId node ++ artifacts)) else none

/-- The loop over the children of one item (join.py:74-84). -/
def itemResults (store : JoinStore) (group : IndexedNode) (index : Nat) : Except IndexError (List PyJson.Value) := do
  let results ← template.executionOrder.mapM (childResult nodes template store group index)
  return results.filterMap id

def indexEntries (store : JoinStore) (items : List PyJson.Value) : Except IndexError (List PyJson.Value) := do
  let group ← lookupNode nodes template.groupId
  entriesFrom (itemResults nodes template store group) 0 items

/-- `join_group` up to the bytes it publishes, from the stored collection. -/
def joinIndex (store : JoinStore) (stored : ByteArray) : Except IndexError ByteArray := do
  let value ← (decodeCollection stored template.maxItems template.groupId "items").mapError .collection
  match value with
  | .arr items =>
    let entries ← indexEntries nodes template store items
    (collectionBytes (.arr entries) template.maxItems template.groupId "result index").mapError .collection
  | _ => .error (.artifact "not an array")

end Index

end Crewplane.Workflow
