import Crewplane.Lib.Countdown
import Crewplane.Lib.DependencyOrder
/-
# The workflow graph (core/workflow/graph.py)

`orderedGraphWaves` takes the nodes wave by wave, `analyzeWorkflowGraph` then collects the ancestors along the waves.
`Waves` is the invariant of the loop: the waves so far are the levels of the longest dependency chains, and the next
wave is what is ready (`workflow_graph_waves`).

A set is a list without repetition; no result depends on its order, since `sorted` orders what the loop walks.
-/
namespace Crewplane.Workflow

open Crewplane.Lib Dict

/-- `workflow.nodes` by `(node.id, node.needs)`. -/
abbrev WorkflowGraph := List (String × List String)

inductive GraphError
  | unknownNode (nodeId needed : String)
  | cycle
  deriving DecidableEq, Repr

def GraphError.message : GraphError → String
  | unknownNode nodeId needed => "Node '" ++ nodeId ++ "' depends on unknown node '" ++ needed ++ "'."
  | cycle => "Workflow graph contains a cycle."

/-! ## The maps -/

/-- `dependents[needed].add(node_id)` for the needs of one node. -/
def addDependents (nodeId : String) : List String → Dict String (List String) → Except GraphError (Dict String (List String))
  | [], dependents => .ok dependents
  | needed :: rest, dependents =>
    if needed ∈ keys dependents then addDependents nodeId rest (modify dependents needed (List.insert nodeId))
    else .error (.unknownNode nodeId needed)

def collectDependents : WorkflowGraph → Dict String (List String) → Except GraphError (Dict String (List String))
  | [], dependents => .ok dependents
  | (nodeId, needs) :: rest, dependents => do
    let dependents ← addDependents nodeId needs dependents
    collectDependents rest dependents

def buildGraphDependencyMaps (nodes : WorkflowGraph) :
    Except GraphError (Dict String (List String) × Dict String (List String)) := do
  let dependencies := ofPairs (nodes.map fun node => (node.1, node.2.dedup))
  let dependents ← collectDependents nodes (ofPairs (nodes.map fun node => (node.1, [])))
  return (dependencies, dependents)

/-! ## The waves -/

/-- `sorted(ids, key=node_order.__getitem__)`. -/
def sortByOrder (nodeOrder : Dict String Nat) (ids : List String) : List String :=
  ids.mergeSort fun a b => getItem nodeOrder a ≤ getItem nodeOrder b

structure WaveState where
  remaining : Dict String Int
  ready : List String
  waves : List (List String)
  visited : Nat

def releaseDependent (acc : Dict String Int × List String) (dependentId : String) : Dict String Int × List String :=
  let remaining := modify acc.1 dependentId (· - 1)
  if getItem remaining dependentId = 0 then (remaining, acc.2 ++ [dependentId]) else (remaining, acc.2)

/-- `for dependent_id in sorted(dependents[node_id], ...)`. -/
def releaseNode (nodeOrder : Dict String Nat) (dependents : Dict String (List String)) (acc : Dict String Int × List String)
    (nodeId : String) : Dict String Int × List String :=
  (sortByOrder nodeOrder (getItem dependents nodeId)).foldl releaseDependent acc

/-- The body of `while ready`. -/
def runWave (nodeOrder : Dict String Nat) (dependents : Dict String (List String)) (s : WaveState) : WaveState :=
  let acc := s.ready.foldl (releaseNode nodeOrder dependents) (s.remaining, [])
  { remaining := acc.1, ready := sortByOrder nodeOrder acc.2, waves := s.waves ++ [s.ready]
    visited := s.visited + s.ready.length }

/-- `while ready`, for at most so many rounds; one round for each node is enough (`waveLoop_spec`). -/
def waveLoop (nodeOrder : Dict String Nat) (dependents : Dict String (List String)) : Nat → WaveState → WaveState
  | 0, s => s
  | fuel + 1, s => if s.ready = [] then s else waveLoop nodeOrder dependents fuel (runWave nodeOrder dependents s)

/-- The state in front of the loop. -/
def waveStart (nodeOrder : Dict String Nat) (dependencies : Dict String (List String)) : WaveState :=
  let remaining := dependencies.map fun entry => (entry.1, (entry.2.length : Int))
  { remaining := remaining, ready := sortByOrder nodeOrder ((remaining.filter fun entry => entry.2 = 0).map (·.1))
    waves := [], visited := 0 }

def orderedGraphWaves (nodeIds : List String) (dependencies dependents : Dict String (List String)) :
    Except GraphError (List (List String)) :=
  let nodeOrder := ofPairs nodeIds.zipIdx
  let final := waveLoop nodeOrder dependents nodeIds.length (waveStart nodeOrder dependencies)
  if final.visited ≠ nodeIds.length then .error .cycle else .ok final.waves

/-! ## The ancestors -/

structure WorkflowGraphAnalysis where
  waves : List (List String)
  ancestors : Dict String (List String)
  deriving DecidableEq, Repr

/-- `for needed in dependencies[node_id]`. -/
def addAncestors (dependencies ancestors : Dict String (List String)) (nodeId : String) : Dict String (List String) :=
  (getItem dependencies nodeId).foldl
    (fun ancestors needed => modify ancestors nodeId fun own => List.insert needed (own ∪ getItem ancestors needed)) ancestors

def analyzeWorkflowGraph (nodes : WorkflowGraph) : Except GraphError WorkflowGraphAnalysis := do
  let maps ← buildGraphDependencyMaps nodes
  let waves ← orderedGraphWaves (nodes.map (·.1)) maps.1 maps.2
  let ancestors := waves.foldl (fun ancestors wave => wave.foldl (addAncestors maps.1) ancestors)
    (maps.1.map fun entry => (entry.1, []))
  return { waves := waves, ancestors := ancestors }

end Crewplane.Workflow
