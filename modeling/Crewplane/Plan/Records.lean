import Mathlib
import Crewplane.Lib.Dict
/-
# Compiled plan records (core/preflight/compiled_records.py, models.py, core/expansion_state.py)

The records the scheduler, the foreach expansion and the plan validators read.

| here | there |
| --- | --- |
| `ExpansionState`, `ExpansionArtifact`, `ExpansionProvenance` | core/expansion_state.py:11-79 |
| `DependencyEdge`         | compiled_records.py:196 |
| `PreflightExecutionNode` | compiled_records.py:392 |
| `CompiledForeach`        | models.py:44 |
| `PreflightExecutionPlan` | models.py:129 |
| `ExpansionBatch`         | foreach/models.py:13 |

What no modelled function reads is left out: render plans, prompt tokens,
workspace locators and policies, provider records, and every signature that is a
hash of the rest. `runtime_config_snapshot["execution"]` is read through its two
limits only, which are fields of the plan here.
-/
namespace Crewplane.Plan

open Crewplane.Lib

abbrev NodeId := String

inductive NodeMode
  | input | parallel | sequential | foreach
  deriving DecidableEq, Repr

/-- core/expansion_state.py:11; `ordinal` is `None` on the group itself. -/
structure ExpansionProvenance where
  groupId : NodeId
  digest : String
  ordinal : Option Nat
  deriving DecidableEq, Repr

structure ExpansionArtifact where
  relativePath : String
  sizeBytes : Nat
  sha256 : String
  deriving DecidableEq, Repr

/-- core/expansion_state.py:63: the evidence of one committed expansion. -/
structure ExpansionState where
  groupId : NodeId
  workflowSignature : String
  templateDigest : String
  digest : String
  collection : ExpansionArtifact
  items : List ExpansionArtifact
  callerArtifacts : Dict String ExpansionArtifact
  deriving DecidableEq, Repr

/-- `ExpansionState.provenance` (core/expansion_state.py:76). -/
def ExpansionState.provenance (state : ExpansionState) (ordinal : Option Nat) : ExpansionProvenance :=
  { groupId := state.groupId, digest := state.digest, ordinal := ordinal }

structure DependencyEdge where
  sourceNode : NodeId
  targetNode : NodeId
  artifactName : Option String
  targetLocator : Option String
  artifactKey : Option String
  deriving DecidableEq, Repr

structure PreflightExecutionNode where
  id : NodeId
  mode : NodeMode
  findings : Bool
  dependencies : List NodeId
  expansion : Option ExpansionProvenance
  inputItemSlot : Bool
  inputContentRef : Option String
  deriving DecidableEq, Repr

/-- `items: list[JsonObject] | str`: an inline array (each object by its JSON
text), or the parsed `node.output` / `node.findings` reference. -/
inductive ForeachItems
  | literal (objects : List String)
  | reference (source : NodeId) (findings : Bool)
  deriving DecidableEq, Repr

/-- `CompiledForeach` (models.py:44): the frozen child template of one group. -/
structure CompiledForeach where
  groupId : NodeId
  «namespace» : String
  items : ForeachItems
  maxItems : Nat
  itemNodeId : NodeId
  originalDependencies : List NodeId
  templateDigest : String
  executionOrder : List NodeId
  nodes : List PreflightExecutionNode
  dependencyGraph : List DependencyEdge
  deriving DecidableEq, Repr

/-- `CompiledForeach.node_bound` (models.py:92). -/
def CompiledForeach.nodeBound (template : CompiledForeach) : Nat :=
  let count := match template.items with
    | .literal objects => objects.length
    | .reference _ _ => template.maxItems
  count * template.nodes.length

structure PreflightExecutionPlan where
  workflowName : String
  workflowSignature : String
  executionOrder : List NodeId
  expansions : Dict NodeId ExpansionState
  foreachTemplates : List CompiledForeach
  nodes : List PreflightExecutionNode
  dependencyGraph : List DependencyEdge
  maxExpandedNodes : Option Int
  maxConcurrentNodes : Option Int
  deriving DecidableEq, Repr

structure ExpansionBatch where
  state : ExpansionState
  nodes : List PreflightExecutionNode
  dependencyGraph : List DependencyEdge
  groupDependencies : List NodeId
  deriving DecidableEq, Repr

def PreflightExecutionPlan.nodeIds (plan : PreflightExecutionPlan) : List NodeId := plan.nodes.map (·.id)

def PreflightExecutionPlan.template? (plan : PreflightExecutionPlan) (groupId : NodeId) : Option CompiledForeach :=
  plan.foreachTemplates.find? (·.groupId = groupId)

def PreflightExecutionPlan.node? (plan : PreflightExecutionPlan) (id : NodeId) : Option PreflightExecutionNode :=
  plan.nodes.find? (·.id = id)

end Crewplane.Plan
