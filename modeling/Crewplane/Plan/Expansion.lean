import Crewplane.Lib.Lists
import Crewplane.Plan.Contract
/-
# Expanding a foreach group (foreach/expansion.py:73-126, foreach/reconstruction.py:130-216)

`instantiate_foreach` builds the batch of one group from the committed evidence;
`apply_expansion` inserts it before the group, makes the group wait for the
terminal children and validates the enlarged plan again. `Expands` is the
relation between the plan, the batch and the effective plan that the scheduler's
proofs use (`expands_of_ok`): old nodes keep their records, except the group's
gate; the added nodes have fresh names, are no foreach nodes, and depend on what
the frozen template says whatever plan they are inserted into.
-/
namespace Crewplane.Plan

open Crewplane.Lib

/-- What `_expansion_state` (expansion.py:103) computes from the item and caller bytes. -/
structure ExpansionEvidence where
  digest : String
  collection : ExpansionArtifact
  items : List ExpansionArtifact
  callerArtifacts : Dict String ExpansionArtifact
  deriving DecidableEq, Repr

/-- `_expansion_state` (expansion.py:103). -/
def expansionState (plan : PreflightExecutionPlan) (template : CompiledForeach) (evidence : ExpansionEvidence) :
    ExpansionState :=
  { groupId := template.groupId, workflowSignature := plan.workflowSignature
    templateDigest := template.templateDigest, digest := evidence.digest, collection := evidence.collection
    items := evidence.items, callerArtifacts := evidence.callerArtifacts }

/-- `restored` (expansion.py:96): nodes the stored expansions already generated. -/
def restoredNodes (plan : PreflightExecutionPlan) : Nat :=
  (plan.expansions.map fun entry =>
    entry.2.items.length * ((plan.template? entry.1).map (·.nodes.length)).getD 0).sum

/-- `_validate_expansion` (expansion.py:90). -/
def validateExpansion (plan : PreflightExecutionPlan) (template : CompiledForeach) (count : Nat) :
    Except String Unit := do
  validateItemCount template count
  require (template.groupId ∉ Dict.keys plan.expansions)
    ("Foreach '" ++ template.groupId ++ "' is already expanded")
  let limit ← expansionLimit plan
  require ((restoredNodes plan + count * template.nodes.length : Int) ≤ limit)
    ("Foreach '" ++ template.groupId ++ "' exceeds cumulative max_expanded_nodes")

/-- `instantiate_foreach` (expansion.py:73). -/
def instantiateForeach (plan : PreflightExecutionPlan) (template : CompiledForeach) (evidence : ExpansionEvidence) :
    Except String ExpansionBatch := do
  validateExpansion plan template evidence.items.length
  match plan.node? template.groupId with
  | none => .error "StopIteration"
  | some group => .ok (concreteBatch template (expansionState plan template evidence) group.dependencies)

/-- `_validate_expansion_batch` (reconstruction.py:165). -/
def validateExpansionBatch (plan : PreflightExecutionPlan) (batch : ExpansionBatch) : Except String Unit := do
  let groupId := batch.state.groupId
  require (groupId ∉ Dict.keys plan.expansions) ("Duplicate expansion '" ++ groupId ++ "'")
  require (∃ template ∈ plan.template? groupId, ∃ group ∈ plan.node? groupId,
      batch = concreteBatch template batch.state group.dependencies)
    "Expansion additions differ from the frozen child template"

/-- `_expanded_nodes` (reconstruction.py:189). -/
def expandedNodes (plan : PreflightExecutionPlan) (batch : ExpansionBatch) : List PreflightExecutionNode :=
  plan.nodes.flatMap fun node =>
    if node.id = batch.state.groupId then
      batch.nodes ++ [{ node with
        dependencies := batch.groupDependencies, expansion := some (batch.state.provenance none) }]
    else [node]

/-- `_expanded_dependency_graph` (reconstruction.py:206). -/
def expandedDependencyGraph (plan : PreflightExecutionPlan) (batch : ExpansionBatch) : List DependencyEdge :=
  let groupId := batch.state.groupId
  let edges := plan.dependencyGraph ++ batch.dependencyGraph
  let existing := edges.map fun edge => (edge.sourceNode, edge.targetNode)
  edges ++ (batch.groupDependencies.filter fun dependency => (dependency, groupId) ∉ existing).map
    fun dependency => schedulingEdge dependency groupId none

/-- `apply_expansion` (reconstruction.py:130). -/
def applyExpansion (plan : PreflightExecutionPlan) (batch : ExpansionBatch) :
    Except String PreflightExecutionPlan := do
  validateExpansionBatch plan batch
  let nodes := expandedNodes plan batch
  let executionOrder ← topologicalOrder nodes
  let updated := { plan with
    nodes := nodes, executionOrder := executionOrder
    dependencyGraph := expandedDependencyGraph plan batch
    expansions := Dict.setItem plan.expansions batch.state.groupId batch.state }
  validateExecutionPlanSemantics updated
  return updated

/-! ## Reading a plan -/

/-- The dependencies of a node in the graph of a plan. -/
def PreflightExecutionPlan.deps (plan : PreflightExecutionPlan) (id : NodeId) : List NodeId :=
  graphDependencies plan.dependencyGraph id

/-- `nodes_by_id[id].mode == "foreach"`. -/
def PreflightExecutionPlan.isForeach (plan : PreflightExecutionPlan) (id : NodeId) : Bool :=
  (plan.node? id).any (·.mode = .foreach)

section Reading

variable {plan : PreflightExecutionPlan} {id : NodeId} {node : PreflightExecutionNode}

theorem node?_eq_some (hv : ValidGraph plan) : plan.node? id = some node ↔ node ∈ plan.nodes ∧ node.id = id :=
  find?_key_eq_some hv.nodup

theorem mem_nodeIds : id ∈ plan.nodeIds ↔ ∃ node ∈ plan.nodes, node.id = id := by
  simp [PreflightExecutionPlan.nodeIds]

theorem node_unique (hv : ValidGraph plan) {a b : PreflightExecutionNode} (ha : a ∈ plan.nodes) (hb : b ∈ plan.nodes)
    (h : a.id = b.id) : a = b := by
  have h1 := (node?_eq_some hv).mpr ⟨ha, h⟩
  have h2 := (node?_eq_some hv).mpr ⟨hb, rfl⟩
  rw [h1] at h2
  exact Option.some.inj h2

theorem isForeach_iff (hv : ValidGraph plan) (hn : node ∈ plan.nodes) :
    plan.isForeach node.id = true ↔ node.mode = .foreach := by
  unfold PreflightExecutionPlan.isForeach
  rw [(node?_eq_some hv).mpr ⟨hn, rfl⟩]
  simp

theorem mem_deps (hv : ValidGraph plan) (hn : node ∈ plan.nodes) : id ∈ plan.deps node.id ↔ id ∈ node.dependencies :=
  (hv.dependencies node hn id).symm

theorem deps_nodup (plan : PreflightExecutionPlan) (id : NodeId) : (plan.deps id).Nodup := graphDependencies_nodup _ _

theorem deps_mem_nodeIds (hv : ValidGraph plan) {d : NodeId} (h : d ∈ plan.deps id) : d ∈ plan.nodeIds := by
  obtain ⟨edge, hedge, -, rfl⟩ := mem_graphDependencies.mp h
  exact (hv.edge edge hedge).1

/-- Dependencies come earlier in the execution order: the graph is acyclic. -/
theorem deps_position (hv : ValidGraph plan) {d : NodeId} (h : d ∈ plan.deps id) :
    position plan.executionOrder d < position plan.executionOrder id := by
  obtain ⟨edge, hedge, rfl, rfl⟩ := mem_graphDependencies.mp h
  exact (hv.edge edge hedge).2.2

theorem template?_eq_some (hv : ValidPlan plan) {template : CompiledForeach} :
    plan.template? id = some template ↔ template ∈ plan.foreachTemplates ∧ template.groupId = id :=
  find?_key_eq_some hv.templates

/-- Every foreach node has its frozen template. -/
theorem template_of_foreach (hv : ValidPlan plan) (hid : id ∈ plan.nodeIds) (hf : plan.isForeach id = true) :
    ∃ template, plan.template? id = some template := by
  obtain ⟨node, hnode, rfl⟩ := mem_nodeIds.mp hid
  have howner := (hv.owner node.id).mpr ⟨node, hnode, (isForeach_iff hv.graph hnode).mp hf, rfl⟩
  obtain ⟨template, ht, hid⟩ := List.mem_map.mp howner
  exact ⟨template, (template?_eq_some hv).mpr ⟨ht, hid⟩⟩

end Reading

/-! ## The effective plan -/

/-- The generated nodes of a template under some evidence; no plan is involved. -/
def children (template : CompiledForeach) (state : ExpansionState) : List PreflightExecutionNode :=
  (concreteBatch template state []).nodes

theorem concreteBatch_nodes_eq_children (template : CompiledForeach) (state : ExpansionState) (deps : List NodeId) :
    (concreteBatch template state deps).nodes = children template state := by
  rw [children, concreteBatch_nodes, concreteBatch_nodes]

theorem children_provenance {template : CompiledForeach} {state : ExpansionState} {node : PreflightExecutionNode}
    (h : node ∈ children template state) : ∃ ordinal, node.expansion = some (state.provenance (some ordinal)) := by
  obtain ⟨ordinal, -, original, -, rfl⟩ := mem_concreteBatch_nodes.mp h
  exact ⟨ordinal, rfl⟩

/-- The group's record after the expansion. -/
def gatedGroup (template : CompiledForeach) (state : ExpansionState) (group : PreflightExecutionNode) :
    PreflightExecutionNode :=
  { group with
    dependencies := (concreteBatch template state group.dependencies).groupDependencies
    expansion := some (state.provenance none) }

/-- `effective` is `plan` with `group` expanded from `template` under the evidence `state`. -/
structure Expands (plan effective : PreflightExecutionPlan) (template : CompiledForeach) (state : ExpansionState)
    (group : PreflightExecutionNode) : Prop where
  valid : ValidPlan effective
  unexpanded : group.id ∉ Dict.keys plan.expansions
  owner : state.groupId = group.id
  node : plan.node? group.id = some group
  frozen : plan.template? group.id = some template
  templates : effective.foreachTemplates = plan.foreachTemplates
  signature : effective.workflowSignature = plan.workflowSignature
  name : effective.workflowName = plan.workflowName
  expansions : effective.expansions = Dict.setItem plan.expansions group.id state
  nodes : effective.nodes = expandedNodes plan (concreteBatch template state group.dependencies)

/-- **An accepted expansion `Expands` the plan.** -/
theorem expands_of_ok {plan effective : PreflightExecutionPlan} {batch : ExpansionBatch}
    (h : applyExpansion plan batch = .ok effective) :
    ∃ template group, plan.template? batch.state.groupId = some template ∧
      Expands plan effective template batch.state group := by
  simp only [applyExpansion, do_eq_ok] at h
  obtain ⟨⟨⟩, hbatch, order, -, ⟨⟩, hvalid, hret⟩ := h
  cases hret
  simp only [validateExpansionBatch, check_then_eq_ok, require_eq_ok, Option.mem_def] at hbatch
  obtain ⟨hnew, template, ht, group, hg, heq⟩ := hbatch
  have hid : group.id = batch.state.groupId := by simpa using List.find?_some hg
  refine ⟨template, group, ht, ?_⟩
  refine ⟨validPlan_of_ok hvalid, ?_, hid.symm, ?_, ?_, rfl, rfl, rfl, ?_, ?_⟩
  · rwa [hid]
  · rw [hid]; exact hg
  · rw [hid]; exact ht
  · rw [hid]
  · exact congrArg (expandedNodes plan) heq

section Effective

variable {plan effective : PreflightExecutionPlan} {template : CompiledForeach} {state : ExpansionState}
  {group : PreflightExecutionNode}

theorem Expands.group_mem (h : Expands plan effective template state group) : group ∈ plan.nodes :=
  List.mem_of_find?_eq_some h.node

/-- The records of the effective plan: the old ones, the children, and the group with its new gate. -/
theorem Expands.mem_nodes (hv : ValidGraph plan) (h : Expands plan effective template state group)
    {node : PreflightExecutionNode} :
    node ∈ effective.nodes ↔ (node ∈ plan.nodes ∧ node.id ≠ group.id) ∨ node ∈ children template state ∨
      node = gatedGroup template state group := by
  rw [h.nodes, expandedNodes, List.mem_flatMap]
  have hstate : (concreteBatch template state group.dependencies).state.groupId = group.id := by
    rw [concreteBatch_state, h.owner]
  constructor
  · rintro ⟨old, hold, hmem⟩
    rw [hstate] at hmem
    split at hmem
    · rename_i hid
      have hog : old = group := node_unique hv hold h.group_mem hid
      subst hog
      rcases List.mem_append.mp hmem with hmem | hmem
      · exact Or.inr (Or.inl (concreteBatch_nodes_eq_children template state old.dependencies ▸ hmem))
      · rw [List.mem_singleton, concreteBatch_state] at hmem
        exact Or.inr (Or.inr hmem)
    · rename_i hid
      rw [List.mem_singleton] at hmem
      subst hmem
      exact Or.inl ⟨hold, hid⟩
  · rintro (⟨hmem, hid⟩ | hmem | rfl)
    · exact ⟨node, hmem, by rw [hstate, if_neg hid]; exact List.mem_singleton_self node⟩
    · refine ⟨group, h.group_mem, ?_⟩
      rw [hstate, if_pos rfl, concreteBatch_nodes_eq_children]
      exact List.mem_append_left _ hmem
    · refine ⟨group, h.group_mem, ?_⟩
      rw [hstate, if_pos rfl, concreteBatch_state]
      exact List.mem_append_right _ (List.mem_singleton_self _)

theorem Expands.gate_mem (hv : ValidGraph plan) (h : Expands plan effective template state group) :
    gatedGroup template state group ∈ effective.nodes := (h.mem_nodes hv).mpr (Or.inr (Or.inr rfl))

theorem Expands.mem_nodeIds (hv : ValidGraph plan) (h : Expands plan effective template state group) {id : NodeId} :
    id ∈ effective.nodeIds ↔ id ∈ plan.nodeIds ∨ id ∈ (children template state).map (·.id) := by
  simp only [Plan.mem_nodeIds, List.mem_map]
  constructor
  · rintro ⟨node, hnode, rfl⟩
    rcases (h.mem_nodes hv).mp hnode with ⟨hmem, -⟩ | hmem | rfl
    · exact Or.inl ⟨node, hmem, rfl⟩
    · exact Or.inr ⟨node, hmem, rfl⟩
    · exact Or.inl ⟨group, h.group_mem, rfl⟩
  · rintro (⟨node, hnode, rfl⟩ | ⟨node, hnode, rfl⟩)
    · by_cases hid : node.id = group.id
      · exact ⟨gatedGroup template state group, h.gate_mem hv, hid.symm⟩
      · exact ⟨node, (h.mem_nodes hv).mpr (Or.inl ⟨hnode, hid⟩), rfl⟩
    · exact ⟨node, (h.mem_nodes hv).mpr (Or.inr (Or.inl hnode)), rfl⟩

/-- Generated names are new: a clash would show in the provenance the validators check. -/
theorem Expands.fresh (hv : ValidPlan plan) (h : Expands plan effective template state group) {id : NodeId}
    (hid : id ∈ (children template state).map (·.id)) : id ∉ plan.nodeIds := by
  intro hold
  obtain ⟨child, hchild, rfl⟩ := List.mem_map.mp hid
  obtain ⟨node, hnode, hid⟩ := Plan.mem_nodeIds.mp hold
  obtain ⟨ordinal, hprov⟩ := children_provenance hchild
  have hchild' := (h.mem_nodes hv.graph).mpr (Or.inr (Or.inl hchild))
  by_cases hgroup : node.id = group.id
  · have heq : child = gatedGroup template state group :=
      node_unique h.valid.graph hchild' (h.gate_mem hv.graph) (hid.symm.trans hgroup)
    rw [heq] at hprov
    cases hprov
  · have hnode' := (h.mem_nodes hv.graph).mpr (Or.inl ⟨hnode, hgroup⟩)
    have heq : child = node := node_unique h.valid.graph hchild' hnode' hid.symm
    subst heq
    have hexp := hv.generated child hnode _ hprov
    rw [show (state.provenance (some ordinal)).groupId = state.groupId from rfl, h.owner] at hexp
    exact h.unexpanded hexp

theorem Expands.deps_old (hv : ValidPlan plan) (h : Expands plan effective template state group) {id d : NodeId}
    (hid : id ∈ plan.nodeIds) (hne : id ≠ group.id) : d ∈ effective.deps id ↔ d ∈ plan.deps id := by
  obtain ⟨node, hnode, rfl⟩ := Plan.mem_nodeIds.mp hid
  rw [mem_deps hv.graph hnode, mem_deps h.valid.graph ((h.mem_nodes hv.graph).mpr (Or.inl ⟨hnode, hne⟩))]

theorem Expands.deps_child (hv : ValidPlan plan) (h : Expands plan effective template state group)
    {child : PreflightExecutionNode} (hc : child ∈ children template state) {d : NodeId} :
    d ∈ effective.deps child.id ↔ d ∈ child.dependencies :=
  mem_deps h.valid.graph ((h.mem_nodes hv.graph).mpr (Or.inr (Or.inl hc)))

theorem Expands.deps_group (hv : ValidPlan plan) (h : Expands plan effective template state group) {d : NodeId} :
    d ∈ effective.deps group.id ↔ d ∈ (gatedGroup template state group).dependencies :=
  mem_deps h.valid.graph (h.gate_mem hv.graph)

/-- The gate keeps what the group waited for and adds generated nodes only. -/
theorem Expands.deps_gate (hv : ValidPlan plan) (h : Expands plan effective template state group) {d : NodeId} :
    (d ∈ plan.deps group.id → d ∈ effective.deps group.id) ∧
    (d ∈ effective.deps group.id → d ∈ plan.deps group.id ∨ d ∈ (children template state).map (·.id)) := by
  rw [h.deps_group hv, mem_deps hv.graph h.group_mem]
  obtain ⟨extra, heq, hextra⟩ := concreteBatch_groupDependencies template state group.dependencies
  rw [show (gatedGroup template state group).dependencies = group.dependencies ++ extra from heq, List.mem_append]
  refine ⟨Or.inl, ?_⟩
  rintro (hd | hd)
  · exact Or.inl hd
  · obtain ⟨node, hnode, rfl⟩ := hextra d hd
    rw [concreteBatch_nodes_eq_children] at hnode
    exact Or.inr (List.mem_map_of_mem hnode)

theorem Expands.isForeach_old (hv : ValidPlan plan) (h : Expands plan effective template state group) {id : NodeId}
    (hid : id ∈ plan.nodeIds) : effective.isForeach id = plan.isForeach id := by
  obtain ⟨node, hnode, rfl⟩ := Plan.mem_nodeIds.mp hid
  rw [Bool.eq_iff_iff, isForeach_iff hv.graph hnode]
  by_cases hne : node.id = group.id
  · have heq : node = group := node_unique hv.graph hnode h.group_mem hne
    have hgate := isForeach_iff h.valid.graph (h.gate_mem hv.graph)
    subst heq
    exact hgate
  · exact isForeach_iff h.valid.graph ((h.mem_nodes hv.graph).mpr (Or.inl ⟨hnode, hne⟩))

theorem Expands.isForeach_child (hv : ValidPlan plan) (h : Expands plan effective template state group) {id : NodeId}
    (hid : id ∈ (children template state).map (·.id)) : effective.isForeach id = false := by
  obtain ⟨child, hchild, rfl⟩ := List.mem_map.mp hid
  obtain ⟨ordinal, -, original, horig, rfl⟩ := mem_concreteBatch_nodes.mp hchild
  have hmode := hv.child template ((template?_eq_some hv).mp h.frozen).1 original horig
  rw [← Bool.not_eq_true, isForeach_iff h.valid.graph ((h.mem_nodes hv.graph).mpr (Or.inr (Or.inl hchild)))]
  exact hmode

theorem Expands.group_isForeach (hv : ValidPlan plan) (h : Expands plan effective template state group) :
    plan.isForeach group.id = true := by
  have ht := (template?_eq_some hv).mp h.frozen
  obtain ⟨node, hnode, hmode, hid⟩ := (hv.owner group.id).mp (ht.2 ▸ List.mem_map_of_mem ht.1)
  rw [← hid, isForeach_iff hv.graph hnode]
  exact hmode

end Effective

end Crewplane.Plan
