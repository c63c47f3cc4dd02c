import Crewplane.Observability.Layout
import Mathlib.Data.List.DropRight
/-
# The rendered graph (observability/dag_graph.py)

`renderDependencyMaps` drops dependencies that longer paths imply, in two passes; `buildGraphStates` then walks the nodes
in order and keeps one column for each edge that is still open. The searches are `while` loops on fuel: an answer is
none where the fuel does not last.
-/
namespace Crewplane.Observability

open Crewplane.Lib Dict Crewplane.Workflow
open Crewplane.Plan (NodeId)

inductive RenderError
  | keyError (nodeId : NodeId)
  | outOfFuel
  deriving DecidableEq, Repr

def shortTransitivePathLength : Nat := 2

/-- `mapping.get(node_id, ())`. -/
def getIds (mapping : Dict NodeId (List NodeId)) (nodeId : NodeId) : List NodeId := (get? mapping nodeId).getD []

/-! ## The searches -/

/-- The loop of `alternate_path_length`; the stack's last entry comes first. -/
def alternatePathLoop (nodeId : NodeId) (dependents : Dict NodeId (List NodeId)) :
    Nat → List (NodeId × Nat) → Dict NodeId Nat → Nat → Except RenderError Nat
  | _, [], _, maxDistance => .ok maxDistance
  | 0, _ :: _, _, _ => .error .outOfFuel
  | fuel + 1, (current, distance) :: stack, bestDistanceByNode, maxDistance =>
    if (get? bestDistanceByNode current).getD 0 ≥ distance then
      alternatePathLoop nodeId dependents fuel stack bestDistanceByNode maxDistance
    else if current = nodeId then
      alternatePathLoop nodeId dependents fuel stack (setItem bestDistanceByNode current distance) (max maxDistance distance)
    else
      alternatePathLoop nodeId dependents fuel (((getIds dependents current).map fun id => (id, distance + 1)).reverse ++ stack)
        (setItem bestDistanceByNode current distance) maxDistance

def alternatePathLength (fuel : Nat) (dependencyId nodeId : NodeId) (dependents : Dict NodeId (List NodeId)) :
    Except RenderError Nat :=
  alternatePathLoop nodeId dependents fuel
    (((getIds dependents dependencyId).filter (· ≠ nodeId)).map fun id => (id, 1)).reverse [] 0

/-- The loop of `has_alternate_path_through_fanin`. -/
def faninPathLoop (nodeId : NodeId) (dependents : Dict NodeId (List NodeId)) (faninNodes : List NodeId) :
    Nat → List (NodeId × Bool) → List (NodeId × Bool) → Except RenderError Bool
  | _, [], _ => .ok false
  | 0, _ :: _, _ => .error .outOfFuel
  | fuel + 1, (current, passedFanin) :: stack, visited =>
    if current = nodeId then
      if passedFanin then .ok true else faninPathLoop nodeId dependents faninNodes fuel stack visited
    else if (current, passedFanin) ∈ visited then faninPathLoop nodeId dependents faninNodes fuel stack visited
    else
      let nextPassedFanin := passedFanin || current ∈ faninNodes
      faninPathLoop nodeId dependents faninNodes fuel
        (((getIds dependents current).map fun id => (id, nextPassedFanin)).reverse ++ stack) ((current, passedFanin) :: visited)

def hasAlternatePathThroughFanin (fuel : Nat) (dependencyId nodeId : NodeId) (dependents : Dict NodeId (List NodeId))
    (faninNodes : List NodeId) : Except RenderError Bool :=
  faninPathLoop nodeId dependents faninNodes fuel
    (((getIds dependents dependencyId).filter (· ≠ nodeId)).map fun id => (id, false)).reverse []

/-! ## The passes -/

/-- `{node_id: tuple(d for d in dependency_ids if keep(d, node_id)) for ...}`. -/
def keepDependencies (keep : NodeId → NodeId → Except RenderError Bool) (dependencies : Dict NodeId (List NodeId)) :
    Except RenderError (Dict NodeId (List NodeId)) :=
  dependencies.mapM fun entry => do
    let kept ← entry.2.filterM fun dependencyId => keep dependencyId entry.1
    return (entry.1, kept)

def pruneShortTransitiveDependencies (fuel : Nat) (layout : TopologyLayout) : Except RenderError (Dict NodeId (List NodeId)) :=
  keepDependencies (fun dependencyId nodeId => do
    let length ← alternatePathLength fuel dependencyId nodeId layout.dependents
    return length ≠ shortTransitivePathLength) layout.dependencies

/-- `for dependency_id in dependency_ids: dependents[dependency_id].append(node_id)`. -/
def appendDependent (nodeId : NodeId) (dependents : Dict NodeId (List NodeId)) (dependencyId : NodeId) :
    Except RenderError (Dict NodeId (List NodeId)) :=
  if dependencyId ∈ keys dependents then .ok (modify dependents dependencyId (· ++ [nodeId]))
  else .error (.keyError dependencyId)

def dependentMapFor (dependencies : Dict NodeId (List NodeId)) (layout : TopologyLayout) :
    Except RenderError (Dict NodeId (List NodeId)) := do
  let dependents ← dependencies.foldlM (fun dependents entry => entry.2.foldlM (appendDependent entry.1) dependents)
    (layout.nodeOrder.map fun entry => (entry.1, []))
  return dependents.map fun entry => (entry.1, sortByOrder layout.nodeOrder entry.2)

def prunePostFaninTransitiveDependencies (fuel : Nat) (dependencies : Dict NodeId (List NodeId)) (layout : TopologyLayout) :
    Except RenderError (Dict NodeId (List NodeId)) := do
  let dependents ← dependentMapFor dependencies layout
  let faninNodes := (dependencies.filter fun entry => entry.2.length > 1).map (·.1)
  keepDependencies (fun dependencyId nodeId => do
    let implied ← hasAlternatePathThroughFanin fuel dependencyId nodeId dependents faninNodes
    return !implied) dependencies

def renderDependencyMaps (fuel : Nat) (layout : TopologyLayout) :
    Except RenderError (Dict NodeId (List NodeId) × Dict NodeId (List NodeId)) := do
  let dependencies ← pruneShortTransitiveDependencies fuel layout
  let dependencies ← prunePostFaninTransitiveDependencies fuel dependencies layout
  let dependents ← dependentMapFor dependencies layout
  return (dependencies, dependents)

/-! ## The columns -/

abbrev GraphColumn := Option NodeId

structure NodeGraphState where
  nodeId : NodeId
  nodeColumn : Nat
  beforeColumns : List GraphColumn
  afterColumns : List GraphColumn
  dependentColumns : List Nat
  dependents : List NodeId
  deriving DecidableEq, Repr

def isFreshRoot (nodeId : NodeId) (activeColumns : List GraphColumn) (dependencies : Dict NodeId (List NodeId)) : Bool :=
  getIds dependencies nodeId = [] ∧ some nodeId ∉ activeColumns

/-- The first column of the node, or the one after the last. -/
def nodeColumnFor (activeColumns : List GraphColumn) (nodeId : NodeId) (freshRoot : Bool) : Nat :=
  if freshRoot then activeColumns.length else activeColumns.idxOf (some nodeId)

def existingColumnFor (columns : List GraphColumn) (targetId : NodeId) : Option Nat := columns.idxOf? (some targetId)

/-- The columns with the lane, and the column it got: the first that is free from `columnIndex` on. -/
def placeActiveColumn (columns : List GraphColumn) (columnIndex : Nat) (targetId : NodeId) : List GraphColumn × Nat :=
  let columnIndex := columnIndex + ((columns.drop columnIndex).takeWhile Option.isSome).length
  if columnIndex < columns.length then (columns.set columnIndex (some targetId), columnIndex)
  else (columns ++ [some targetId], columnIndex)

def trimTrailingEmptyColumns (columns : List GraphColumn) : List GraphColumn := columns.rdropWhile Option.isNone

/-- `(wave_index, lane_start, node_order)` of a dependent. -/
def dependentKey (layout : TopologyLayout) (dependentId : NodeId) : Except RenderError (NodeId × List Nat) :=
  match get? layout.placements dependentId, get? layout.nodeOrder dependentId with
  | some placement, some order => .ok (dependentId, [placement.waveIndex, placement.laneStart, order])
  | _, _ => .error (.keyError dependentId)

/-- The first of the least. -/
def leastDependent : NodeId × List Nat → List (NodeId × List Nat) → NodeId × List Nat
  | best, [] => best
  | best, entry :: rest => leastDependent (if entry.2 < best.2 then entry else best) rest

/-- `primary_dependent_for` of the dependents `first :: rest`. -/
def primaryDependentFor (first : NodeId) (rest : List NodeId) (layout : TopologyLayout) : Except RenderError NodeId :=
  if rest = [] then .ok first
  else do
    let best ← dependentKey layout first
    let others ← rest.mapM (dependentKey layout)
    return (leastDependent best others).1

/-- The variables of the loop over the dependents. -/
structure Placing where
  nextColumns : List GraphColumn
  insertAt : Nat
  dependentColumns : List Nat

def placeDependent (reuseExistingDependents : Bool) (s : Placing) (dependentId : NodeId) : Placing :=
  match if reuseExistingDependents then existingColumnFor s.nextColumns dependentId else none with
  | some existingColumn => { s with dependentColumns := s.dependentColumns ++ [existingColumn] }
  | none =>
    let placed := placeActiveColumn s.nextColumns s.insertAt dependentId
    { nextColumns := placed.1, insertAt := placed.2 + 1, dependentColumns := s.dependentColumns ++ [placed.2] }

def advanceColumns (activeColumns : List GraphColumn) (nodeId : NodeId) (nodeColumn : Nat)
    (dependents : Dict NodeId (List NodeId)) (freshRoot : Bool) (layout : TopologyLayout) :
    Except RenderError (List GraphColumn × List Nat) :=
  let nextColumns := if freshRoot then activeColumns
    else activeColumns.map fun target => if target = some nodeId then none else target
  match getIds dependents nodeId with
  | [] => .ok (trimTrailingEmptyColumns nextColumns, [])
  | first :: rest => do
    let primaryDependent ← primaryDependentFor first rest layout
    let orderedDependents := primaryDependent :: (first :: rest).filter (· ≠ primaryDependent)
    let placing := orderedDependents.foldl (placeDependent (freshRoot && rest.length + 1 > 1)) ⟨nextColumns, nodeColumn, []⟩
    let dependentColumns :=
      if nodeColumn ∉ placing.dependentColumns ∧ nodeColumn ≥ placing.nextColumns.length then
        placing.dependentColumns ++ [nodeColumn]
      else placing.dependentColumns
    return (trimTrailingEmptyColumns placing.nextColumns, dependentColumns)

/-- The row of one node. -/
def graphState (dependencies dependents : Dict NodeId (List NodeId)) (layout : TopologyLayout)
    (activeColumns : List GraphColumn) (nodeId : NodeId) : Except RenderError NodeGraphState := do
  let freshRoot := isFreshRoot nodeId activeColumns dependencies
  let nodeColumn := nodeColumnFor activeColumns nodeId freshRoot
  let advanced ← advanceColumns activeColumns nodeId nodeColumn dependents freshRoot layout
  return {
    nodeId := nodeId, nodeColumn := nodeColumn, beforeColumns := activeColumns, afterColumns := advanced.1
    dependentColumns := advanced.2, dependents := getIds dependents nodeId }

/-- The loop over the nodes. -/
def graphStates (dependencies dependents : Dict NodeId (List NodeId)) (layout : TopologyLayout) :
    List GraphColumn → List NodeId → Except RenderError (List NodeGraphState)
  | _, [] => .ok []
  | activeColumns, nodeId :: rest => do
    let state ← graphState dependencies dependents layout activeColumns nodeId
    let states ← graphStates dependencies dependents layout state.afterColumns rest
    return state :: states

def buildGraphStates (fuel : Nat) (orderedNodeIds : List NodeId) (layout : TopologyLayout) :
    Except RenderError (List NodeGraphState) := do
  let maps ← renderDependencyMaps fuel layout
  graphStates maps.1 maps.2 layout [] orderedNodeIds

end Crewplane.Observability
