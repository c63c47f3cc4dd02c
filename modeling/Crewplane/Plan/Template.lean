import Crewplane.Plan.Records
/-
# Instantiating a frozen foreach template (core/preflight/foreach/expansion.py)

`concrete_batch` derives the nodes and edges one expansion adds: each item gets
a copy of the template's nodes under the prefix `group.i<ordinal>.`, the item
node takes over the group's original dependencies, and every node without a
dependency inside the template hangs off its item node. The group itself waits
for the terminal nodes of every copy. `topological_order` is the Kahn loop that
orders the enlarged inventory (reconstruction.py:219).
-/
namespace Crewplane.Plan

open Crewplane.Lib

/-- `str.removeprefix`. -/
def removePrefix (s p : String) : String :=
  if p.toList.isPrefixOf s.toList then String.ofList (s.toList.drop p.toList.length) else s

/-- `generated_id` (expansion.py:53). -/
def generatedId (template : CompiledForeach) (nodeId : NodeId) (ordinal : Nat) : NodeId :=
  template.groupId ++ ".i" ++ toString ordinal ++ "." ++ removePrefix nodeId (template.namespace ++ ".")

/-- `scheduling_edge` (expansion.py:156). -/
def schedulingEdge (source target : NodeId) (artifact : Option String) : DependencyEdge :=
  { sourceNode := source, targetNode := target, artifactName := artifact, artifactKey := artifact
    targetLocator := some (match artifact with | some name => source ++ "." ++ name | none => source) }

/-- `terminal_node_ids` (expansion.py:170), as a duplicate-free list in node order. -/
def terminalNodeIds (template : CompiledForeach) : List NodeId :=
  let localIds := template.nodes.map (·.id)
  let sources := template.dependencyGraph.map (·.sourceNode)
  let terminals := localIds.dedup.filter fun id => !(sources.contains id)
  if localIds.dedup.length > 1 then terminals.filter (· ≠ template.itemNodeId) else terminals

/-- `instance.node_ids.get(dep, dep)`: names of the template are qualified, others are kept. -/
def instanceId (template : CompiledForeach) (ordinal : Nat) (id : NodeId) : NodeId :=
  if id ∈ template.nodes.map (·.id) then generatedId template id ordinal else id

/-- `_instance_dependencies` (expansion.py:263). -/
def instanceDependencies (template : CompiledForeach) (ordinal : Nat) (original : PreflightExecutionNode) :
    List NodeId :=
  let dependencies := original.dependencies.map (instanceId template ordinal)
  let dependencies :=
    if original.id = template.itemNodeId then template.originalDependencies
    else if original.dependencies.all fun dep => !((template.nodes.map (·.id)).contains dep) then
      dependencies ++ [generatedId template template.itemNodeId ordinal]
    else dependencies
  dependencies.eraseDups

/-- `_remap_node` (expansion.py:236). -/
def remapNode (template : CompiledForeach) (state : ExpansionState) (ordinal : Nat)
    (original : PreflightExecutionNode) : PreflightExecutionNode :=
  { original with
    id := generatedId template original.id ordinal
    dependencies := instanceDependencies template ordinal original
    expansion := some (state.provenance (some ordinal))
    inputItemSlot := false
    inputContentRef :=
      if original.id = template.itemNodeId then (state.items[ordinal]?).map (·.relativePath)
      else original.inputContentRef }

/-- `_append_nodes` and `_append_artifact_edges` (expansion.py:226, 291): one item's copy. -/
def appendInstance (template : CompiledForeach) (batch : ExpansionBatch) (ordinal : Nat) : ExpansionBatch :=
  let nodes := template.nodes.map (remapNode template batch.state ordinal)
  let terminals := (template.nodes.filter fun original => original.id ∈ terminalNodeIds template).map
    fun original => generatedId template original.id ordinal
  let schedulingEdges := nodes.flatMap fun node =>
    node.dependencies.map fun dependency => schedulingEdge dependency node.id none
  let artifactEdges := (template.dependencyGraph.filter fun edge => edge.artifactName.isSome).map
    fun edge => schedulingEdge (instanceId template ordinal edge.sourceNode)
      (generatedId template edge.targetNode ordinal) edge.artifactName
  { batch with
    nodes := batch.nodes ++ nodes
    dependencyGraph := batch.dependencyGraph ++ schedulingEdges ++ artifactEdges
    groupDependencies := batch.groupDependencies ++ terminals }

/-- `concrete_batch` (expansion.py:129). -/
def concreteBatch (template : CompiledForeach) (state : ExpansionState) (dependencies : List NodeId) :
    ExpansionBatch :=
  (List.range state.items.length).foldl (appendInstance template)
    { state := state, nodes := [], dependencyGraph := [], groupDependencies := dependencies }

/-! ## Ordering the enlarged inventory -/

/-- `heapq.heappush` on `(position, id)` pairs, the heap kept as a sorted list. -/
def heapPush (entry : Nat × NodeId) : List (Nat × NodeId) → List (Nat × NodeId)
  | [] => [entry]
  | e :: heap => if entry.1 < e.1 then entry :: e :: heap else e :: heapPush entry heap

/-- The release of one dependent inside the loop (reconstruction.py:251-254). -/
def releaseDependent (order : Dict NodeId Nat) (acc : Dict NodeId Int × List (Nat × NodeId)) (dependent : NodeId) :
    Dict NodeId Int × List (Nat × NodeId) :=
  let remaining := acc.1.modify dependent (· - 1)
  if remaining.getItem dependent = 0 then (remaining, heapPush (order.getItem dependent, dependent) acc.2)
  else (remaining, acc.2)

/-- `while ready` (reconstruction.py:248-254), with one unit of fuel for each node. -/
def kahnLoop (order : Dict NodeId Nat) (dependents : Dict NodeId (List NodeId)) :
    Nat → Dict NodeId Int → List (Nat × NodeId) → List NodeId → List NodeId
  | 0, _, _, result => result
  | _ + 1, _, [], result => result
  | fuel + 1, remaining, (_, nodeId) :: ready, result =>
    let released := (dependents.getItem nodeId).foldl (releaseDependent order) (remaining, ready)
    kahnLoop order dependents fuel released.1 released.2 (result ++ [nodeId])

/-- `topological_order` (reconstruction.py:219). -/
def topologicalOrder (nodes : List PreflightExecutionNode) : Except String (List NodeId) :=
  let ids := nodes.map (·.id)
  if ids.dedup.length ≠ nodes.length then .error "Expansion contains colliding node identities"
  else
    match (nodes.flatMap (·.dependencies)).find? fun dependency => !(ids.contains dependency) with
    | some dependency => .error ("Expansion references unknown dependency '" ++ dependency ++ "'")
    | none =>
      let order : Dict NodeId Nat := ids.zip (List.range ids.length)
      let remaining : Dict NodeId Int := nodes.map fun node => (node.id, (node.dependencies.length : Int))
      let dependents : Dict NodeId (List NodeId) := Dict.ofKeys ids fun id =>
        nodes.flatMap fun node => (node.dependencies.filter (· = id)).map fun _ => node.id
      let ready := (remaining.filter fun entry => entry.2 = 0).map fun entry => (order.getItem entry.1, entry.1)
      let result := kahnLoop order dependents nodes.length remaining ready []
      if result.length ≠ nodes.length then .error "Expansion introduces a dependency cycle"
      else .ok result

/-! ## What a batch contains -/

theorem foldl_appendInstance_nodes (template : CompiledForeach) (ordinals : List Nat) (batch : ExpansionBatch) :
    (ordinals.foldl (appendInstance template) batch).state = batch.state ∧
    (ordinals.foldl (appendInstance template) batch).nodes =
      batch.nodes ++ ordinals.flatMap fun ordinal => template.nodes.map (remapNode template batch.state ordinal) := by
  induction ordinals generalizing batch with
  | nil => simp
  | cons ordinal ordinals ih =>
    rw [List.foldl_cons, (ih _).1, (ih _).2]
    exact ⟨rfl, by simp [appendInstance, List.append_assoc]⟩

@[simp] theorem concreteBatch_state (template : CompiledForeach) (state : ExpansionState) (deps : List NodeId) :
    (concreteBatch template state deps).state = state :=
  (foldl_appendInstance_nodes template _ _).1

/-- The nodes of a batch: the template's nodes remapped, item after item. They do not depend on the gate. -/
theorem concreteBatch_nodes (template : CompiledForeach) (state : ExpansionState) (deps : List NodeId) :
    (concreteBatch template state deps).nodes =
      (List.range state.items.length).flatMap fun ordinal => template.nodes.map (remapNode template state ordinal) := by
  unfold concreteBatch
  rw [(foldl_appendInstance_nodes template _ _).2, List.nil_append]

theorem mem_concreteBatch_nodes {template : CompiledForeach} {state : ExpansionState} {deps : List NodeId}
    {node : PreflightExecutionNode} :
    node ∈ (concreteBatch template state deps).nodes ↔
      ∃ ordinal < state.items.length, ∃ original ∈ template.nodes, remapNode template state ordinal original = node := by
  simp [concreteBatch_nodes]

theorem foldl_appendInstance_groupDependencies (template : CompiledForeach) (ordinals : List Nat)
    (batch : ExpansionBatch) :
    ∃ extra, (ordinals.foldl (appendInstance template) batch).groupDependencies = batch.groupDependencies ++ extra ∧
      ∀ id ∈ extra, ∃ node ∈ (ordinals.foldl (appendInstance template) batch).nodes, node.id = id := by
  induction ordinals generalizing batch with
  | nil => exact ⟨[], by simp, by simp⟩
  | cons ordinal ordinals ih =>
    obtain ⟨extra, heq, hmem⟩ := ih (appendInstance template batch ordinal)
    rw [List.foldl_cons]
    refine ⟨(template.nodes.filter fun original => original.id ∈ terminalNodeIds template).map
      (fun original => generatedId template original.id ordinal) ++ extra, ?_, ?_⟩
    · rw [heq, ← List.append_assoc]
      rfl
    · intro id hid
      rcases List.mem_append.mp hid with hid | hid
      · obtain ⟨original, horig, rfl⟩ := List.mem_map.mp hid
        refine ⟨remapNode template batch.state ordinal original, ?_, rfl⟩
        rw [(foldl_appendInstance_nodes template _ _).2]
        refine List.mem_append_left _ ?_
        exact List.mem_append_right _ (List.mem_map_of_mem (List.mem_of_mem_filter horig))
      · exact hmem id hid

/-- The gate of a group keeps its dependencies and adds only nodes of the batch. -/
theorem concreteBatch_groupDependencies (template : CompiledForeach) (state : ExpansionState) (deps : List NodeId) :
    ∃ extra, (concreteBatch template state deps).groupDependencies = deps ++ extra ∧
      ∀ id ∈ extra, ∃ node ∈ (concreteBatch template state deps).nodes, node.id = id :=
  foldl_appendInstance_groupDependencies template _ _

end Crewplane.Plan
