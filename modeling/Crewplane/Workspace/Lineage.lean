import Crewplane.Composition.Selection
import Crewplane.Lib.Chains
import Crewplane.Lib.Checks
import Crewplane.Lib.Worklist
import Crewplane.Workflow.Graph
/-
# The source lines of worktrees (core/workspace/selection.py, core/preflight/plan_contract_workspace_lineage.py)

A logical worktree is one source line: each node that writes it starts from what the writer before it left.
`logicalWorkspaceSelections` chooses that writer when the workflow is compiled, `unorderedWriterDiagnostics` reports
writers that no order of the graph separates, and `validateWorkspaceSourceLineage` chooses again from a plan that was
read back.

| here | there |
| --- | --- |
| `logicalWorkspaceSelections`         | selection.py:41-207 |
| `unorderedWriterDiagnostics`         | workspace_diagnostics.py:225-289 |
| `sourceLineageDiagnostics`           | workspace_diagnostics.py:209-222, 292-322 |
| `validateWorkspaceSourceLineage`     | plan_contract_workspace_lineage.py |
| `persistedNodes`                     | preflight/workspace/records.py:20, execution_nodes.py:76, 106 |
-/
namespace Crewplane.Workspace

open Crewplane.Lib Dict Crewplane.Composition Crewplane.Workflow

inductive WorkspaceMaterialization
  | projectRoot | snapshotCheckout | worktreeCheckout
  deriving DecidableEq, Repr

inductive WorkspaceSourceKind
  | project | node
  deriving DecidableEq, Repr

/-- `LogicalWorkspaceSelection`, by the fields of the lineage. -/
structure LogicalWorkspaceSelection where
  nodeId : String
  enabled : Bool
  logicalWorktreeName : Option String
  declarationKind : Option String
  materialization : WorkspaceMaterialization
  sourceKind : WorkspaceSourceKind
  sourceNodeId : Option String
  writable : Bool
  lineageProducer : Bool
  deriving DecidableEq, Repr

inductive SelectionError
  | graph (error : GraphError)
  /-- The `KeyError` of `workflow.worktrees[selector]`. -/
  | undeclared (selector : String)
  deriving DecidableEq, Repr

/-! ## The selections -/

def workflowGraph (workflow : WorkflowPlan) : WorkflowGraph := workflow.nodes.map fun node => (node.id, node.needs)

def ancestorMap (workflow : WorkflowPlan) : Except GraphError (Dict String (List String)) :=
  (analyzeWorkflowGraph (workflowGraph workflow)).map (·.ancestors)

/-- `{node.id: index for index, node in enumerate(workflow.nodes)}`. -/
def nodeOrder (ids : List String) : Dict String Nat := ofPairs ids.zipIdx

def rankKey (counts nodeOrder : Dict String Nat) (nodeId : String) : ℕ ×ₗ ℕ :=
  toLex (getItem counts nodeId, getItem nodeOrder nodeId)

def latestLineageSource (candidateAncestorCounts nodeOrder : Dict String Nat) : Option String :=
  Chains.latest (rankKey candidateAncestorCounts nodeOrder) (keys candidateAncestorCounts)

def selectionForNode (workflow : WorkflowPlan) (node : WorkflowNode) : Except SelectionError LogicalWorkspaceSelection :=
  match selectedWorktreeName workflow node with
  | none =>
    .ok { nodeId := node.id, enabled := false, logicalWorktreeName := none, declarationKind := none
          materialization := .projectRoot, sourceKind := .project, sourceNodeId := none, writable := false
          lineageProducer := false }
  | some selector =>
    match get? workflow.worktrees selector with
    | none => .error (.undeclared selector)
    | some declaration =>
      .ok { nodeId := node.id, enabled := true, logicalWorktreeName := some selector
            declarationKind := some declaration.kind
            materialization := if declaration.kind = "worktree" then .worktreeCheckout else .snapshotCheckout
            sourceKind := .project, sourceNodeId := none, writable := true
            lineageProducer := declaration.kind = "worktree" }

def baseLogicalWorkspaceSelections (workflow : WorkflowPlan) : Except SelectionError (Dict String LogicalWorkspaceSelection) := do
  let nodes := workflow.nodes.filter fun node => !(node.mode = .input || node.mode = .foreach)
  let selections ← nodes.mapM (selectionForNode workflow)
  return ofPairs (selections.map fun selection => (selection.nodeId, selection))

def sameLineageWorktree (selection : LogicalWorkspaceSelection) (upstream : Option LogicalWorkspaceSelection) : Bool :=
  upstream.any fun upstream => upstream.lineageProducer && upstream.logicalWorktreeName = selection.logicalWorktreeName

def latestSameWorktreeDependency (node : WorkflowNode) (selection : LogicalWorkspaceSelection)
    (selections : Dict String LogicalWorkspaceSelection) (ancestors : Dict String (List String)) (order : Dict String Nat) :
    Option String :=
  let candidates := (getItem ancestors node.id).filter fun ancestor => sameLineageWorktree selection (get? selections ancestor)
  latestLineageSource (ofKeys candidates fun ancestor => (getItem ancestors ancestor).length) order

/-- The body of the loop of `_with_source_nodes`. -/
def withSourceNode (ancestors : Dict String (List String)) (order : Dict String Nat)
    (updated : Dict String LogicalWorkspaceSelection) (node : WorkflowNode) : Dict String LogicalWorkspaceSelection :=
  match get? updated node.id with
  | none => updated
  | some selection =>
    if selection.declarationKind ≠ some "worktree" then updated
    else
      match latestSameWorktreeDependency node selection updated ancestors order with
      | none => updated
      | some source => setItem updated node.id { selection with sourceKind := .node, sourceNodeId := some source }

def logicalWorkspaceSelections (workflow : WorkflowPlan) : Except SelectionError (Dict String LogicalWorkspaceSelection) := do
  let selections ← baseLogicalWorkspaceSelections workflow
  let ancestors ← (ancestorMap workflow).mapError .graph
  return workflow.nodes.foldl (withSourceNode ancestors (nodeOrder (workflow.nodes.map (·.id)))) selections

/-! ## The diagnostics -/

/-- The body of the loop of `_lineage_writers_by_worktree`. -/
def addWriter (writers : Dict String (List String)) (selection : LogicalWorkspaceSelection) : Dict String (List String) :=
  match selection.logicalWorktreeName with
  | some name => if selection.lineageProducer then modify writers name (· ++ [selection.nodeId]) else writers
  | none => writers

def lineageWritersByWorktree (selections : Dict String LogicalWorkspaceSelection) : Dict String (List String) :=
  (values selections).foldl addWriter []

/-- `zip(ordered, ordered[1:])`: the first neighbours that are not in order. -/
def firstUnordered (ancestors : Dict String (List String)) : List String → Option (String × String)
  | left :: right :: rest =>
    if (getItem ancestors right).contains left then firstUnordered ancestors (right :: rest) else some (left, right)
  | _ => none

def firstUnorderedWriterPair (nodeIds : List String) (ancestors : Dict String (List String)) (order : Dict String Nat) :
    Option (String × String) :=
  let rank := rankKey (ancestors.map fun entry => (entry.1, entry.2.length)) order
  firstUnordered ancestors (nodeIds.mergeSort fun a b => rank a ≤ rank b)

def unorderedWriterDiagnostic (worktreeName left right : String) : WorkflowValidationDiagnostic :=
  { workspaceDiagnostic ("Nodes '" ++ left ++ "' and '" ++ right ++ "' both select logical worktree '" ++ worktreeName ++
      "' but they are not ordered by the DAG. One mutable source line cannot have unordered writers; add a needs edge to " ++
      "serialize the source line or use separate worktrees.") (some right) with
    metadata := [("left_node", left), ("right_node", right), ("worktree", worktreeName)] }

def unorderedWriterDiagnostics (workflow : WorkflowPlan) (selections : Dict String LogicalWorkspaceSelection) :
    Except GraphError (List WorkflowValidationDiagnostic) := do
  let ancestors ← ancestorMap workflow
  let order := nodeOrder (workflow.nodes.map (·.id))
  return (lineageWritersByWorktree selections).filterMap fun entry =>
    (firstUnorderedWriterPair entry.2 ancestors order).map fun pair => unorderedWriterDiagnostic entry.1 pair.1 pair.2

def pythonName (name : Option String) : String := name.getD "None"

def crossWorktreeDependencyDiagnostic (node : WorkflowNode) (selection : LogicalWorkspaceSelection)
    (selections : Dict String LogicalWorkspaceSelection) (dependency : String) : Option WorkflowValidationDiagnostic :=
  match get? selections dependency with
  | none => none
  | some upstream =>
    if upstream.lineageProducer && upstream.logicalWorktreeName ≠ selection.logicalWorktreeName then
      some { workspaceDiagnostic ("Node '" ++ node.id ++ "' depends directly on worktree '" ++
          pythonName upstream.logicalWorktreeName ++ "' while selecting worktree '" ++ pythonName selection.logicalWorktreeName ++
          "'. Automatic merge between logical worktrees is not supported; pass artifacts or select worktree: none.")
          (some node.id) with
        metadata := [("dependency", dependency), ("source_worktree", pythonName upstream.logicalWorktreeName),
          ("target_worktree", pythonName selection.logicalWorktreeName)] }
    else none

def sourceLineageDiagnostics (workflow : WorkflowPlan) (selections : Dict String LogicalWorkspaceSelection) :
    List WorkflowValidationDiagnostic :=
  workflow.nodes.flatMap fun node =>
    match get? selections node.id with
    | none => []
    | some selection =>
      if selection.declarationKind ≠ some "worktree" then []
      else node.needs.filterMap (crossWorktreeDependencyDiagnostic node selection selections)

/-! ## The plan that is read back -/

/-- `WorkspaceSelectionRecord`, by the fields of the lineage. -/
structure WorkspaceSelectionRecord where
  enabled : Bool
  logicalWorktreeName : Option String
  declarationKind : Option String
  sourceKind : WorkspaceSourceKind
  sourceNodeId : Option String
  materialization : WorkspaceMaterialization
  writable : Bool
  lineageProducer : Bool
  deriving DecidableEq, Repr

/-- `PreflightExecutionNode`, by the fields of the lineage. -/
structure LineageNode where
  id : String
  dependencies : List String
  workspacePolicy : Option WorkspaceSelectionRecord
  deriving DecidableEq, Repr, Inhabited

/-- `_record_from_selection`. -/
def recordFromSelection (selection : LogicalWorkspaceSelection) : WorkspaceSelectionRecord where
  enabled := selection.enabled
  logicalWorktreeName := selection.logicalWorktreeName
  declarationKind := selection.declarationKind
  sourceKind := selection.sourceKind
  sourceNodeId := selection.sourceNodeId
  materialization := selection.materialization
  writable := selection.writable
  lineageProducer := selection.lineageProducer

def workspacePolicyRecords (selections : Dict String LogicalWorkspaceSelection) : Dict String WorkspaceSelectionRecord :=
  (selections.filter fun entry => entry.2.enabled).map fun entry => (entry.1, recordFromSelection entry.2)

/-- `nodes_with_graph_dependencies`: the sources of the edges into a node, in the order of the nodes. -/
def graphDependencies (ids : List String) (edges : List (String × String)) (id : String) : List String :=
  ids.filter fun source => edges.contains (source, id)

/-- The compiled nodes with the edges of the compiled graph. -/
def persistedNodes (workflow : WorkflowPlan) (selections : Dict String LogicalWorkspaceSelection)
    (edges : List (String × String)) : List LineageNode :=
  workflow.nodes.map fun node =>
    { id := node.id, dependencies := graphDependencies (workflow.nodes.map (·.id)) edges node.id
      workspacePolicy := get? (workspacePolicyRecords selections) node.id }

def isLineageWorktree (policy : Option WorkspaceSelectionRecord) : Bool :=
  policy.any fun policy => policy.enabled && policy.materialization = .worktreeCheckout && policy.lineageProducer

def dependenciesOf (nodesById : Dict String LineageNode) (id : String) : List String :=
  ((get? nodesById id).map (·.dependencies)).getD []

/-- `_ancestor_node_ids`; every round takes one pending id, so one for each edge is enough. -/
def ancestorNodeIds (node : LineageNode) (nodesById : Dict String LineageNode) : List String :=
  let fuel := node.dependencies.length + ((keys nodesById).map fun id => (dependenciesOf nodesById id).length).sum + 1
  (Worklist.collect (dependenciesOf nodesById) fuel node.dependencies.reverse []).filter (keys nodesById).contains

def validateDeclaredWorkspaceSource (node : LineageNode) (nodesById : Dict String LineageNode) (order : Dict String Nat) :
    Except String Unit := do
  match node.workspacePolicy with
  | none => .ok ()
  | some policy =>
    if policy.sourceKind ≠ .node then .ok ()
    else
      match policy.sourceNodeId.bind fun source => (get? nodesById source).map fun upstream => (source, upstream) with
      | none => .error ("Persisted node '" ++ node.id ++ "' workspace policy references an unknown source node.")
      | some (source, upstream) => do
        require ((ancestorNodeIds node nodesById).contains source = true)
          ("Persisted node '" ++ node.id ++ "' workspace source '" ++ source ++ "' must be an upstream dependency.")
        require (getItem order source < getItem order node.id)
          ("Persisted node '" ++ node.id ++ "' workspace source '" ++ source ++ "' is not upstream.")
        require (upstream.workspacePolicy.any fun source => source.enabled && source.lineageProducer)
          ("Persisted node '" ++ node.id ++ "' workspace source '" ++ source ++ "' must be an enabled lineage producer.")
        require (upstream.workspacePolicy.bind (·.logicalWorktreeName) = policy.logicalWorktreeName)
          ("Persisted node '" ++ node.id ++ "' workspace source '" ++ source ++ "' must use the same logical worktree.")

def validateDirectWorktreeDependencies (node : LineageNode) (nodesById : Dict String LineageNode) : Except String Unit :=
  if isLineageWorktree node.workspacePolicy then
    checkAll node.dependencies fun dependency =>
      let upstream := (get? nodesById dependency).bind (·.workspacePolicy)
      require (isLineageWorktree upstream = true →
          upstream.bind (·.logicalWorktreeName) = node.workspacePolicy.bind (·.logicalWorktreeName))
        ("Persisted node '" ++ node.id ++ "' directly depends on lineage producer '" ++ dependency ++
          "' from a different logical worktree; dependencies between worktrees must use the same logical worktree.")
  else .ok ()

def latestSameWorktreeSource (node : LineageNode) (nodesById : Dict String LineageNode) (order : Dict String Nat) : Option String :=
  let candidates := (ancestorNodeIds node nodesById).filter fun id =>
    let policy := (get? nodesById id).bind (·.workspacePolicy)
    isLineageWorktree policy && policy.bind (·.logicalWorktreeName) = node.workspacePolicy.bind (·.logicalWorktreeName)
  latestLineageSource (ofKeys candidates fun id => (ancestorNodeIds (getItem nodesById id) nodesById).length) order

def validateWorkspaceSourceLineage (node : LineageNode) (nodesById : Dict String LineageNode) (order : Dict String Nat) :
    Except String Unit := do
  match node.workspacePolicy with
  | none => .ok ()
  | some policy => do
    validateDeclaredWorkspaceSource node nodesById order
    validateDirectWorktreeDependencies node nodesById
    if isLineageWorktree (some policy) then
      match latestSameWorktreeSource node nodesById order with
      | none =>
        require (policy.sourceKind = .project ∧ policy.sourceNodeId = none)
          ("Persisted node '" ++ node.id ++ "' must use project workspace source without a same-worktree lineage ancestor.")
      | some expected =>
        require (policy.sourceKind = .node ∧ policy.sourceNodeId = some expected)
          ("Persisted node '" ++ node.id ++ "' must use latest same-worktree lineage source '" ++ expected ++ "'.")
    else .ok ()

/-- `validate_node_relationships`, by the lineage of every node. -/
def validateLineages (nodes : List LineageNode) (executionOrder : List String) : Except String Unit :=
  let nodesById := ofPairs (nodes.map fun node => (node.id, node))
  checkAll nodes fun node => validateWorkspaceSourceLineage node nodesById (nodeOrder executionOrder)

end Crewplane.Workspace
