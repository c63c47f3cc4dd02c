import Crewplane.Lib.Checks
import Crewplane.Plan.Template
/-
# Plan validation (core/preflight/plan_contract*.py, foreach/reconstruction.py)

`PreflightExecutionPlan.model_validate` runs `validate_execution_plan_semantics`
(plan_contract.py:54): stored expansions against their templates, the frozen
templates, then the execution graph. Every check here carries the source's
message; checks over records that are not modelled (render plans, workspace
policies, provider records, artifact paths, content digests) are left out, so a
plan the source accepts is accepted here.

`ValidPlan` packs the conclusions the scheduler relies on; `validPlan_of_ok`
reads them off an accepted plan.
-/
namespace Crewplane.Plan

open Crewplane.Lib

/-! ## Record identity (plan_contract_records.py) -/

/-- `not key.strip()`. -/
def isBlank (s : String) : Bool := s.toList.all Char.isWhitespace

/-- `unique_records` (plan_contract_records.py:18), on the list of keys. -/
def uniqueRecords (label fieldName : String) : List String → List String → Except String Unit
  | _, [] => .ok ()
  | indexed, key :: keys => do
    require (isBlank key = false) ("Persisted " ++ label ++ " records require nonblank " ++ fieldName ++ ".")
    require (key ∉ indexed) ("Persisted plan contains duplicate " ++ label ++ " '" ++ key ++ "'.")
    uniqueRecords label fieldName (indexed ++ [key]) keys

/-- `validate_execution_order` (plan_contract_records.py:36). -/
def validateExecutionOrder (executionOrder nodeIds : List NodeId) : Except String Unit := do
  require executionOrder.Nodup "Persisted plan execution_order contains duplicate nodes."
  require ((∀ id ∈ executionOrder, id ∈ nodeIds) ∧ ∀ id ∈ nodeIds, id ∈ executionOrder)
    "Persisted plan execution_order must contain every node exactly once."

/-! ## The dependency graph (plan_contract_dependencies.py) -/

/-- `ALLOWED_NODE_ARTIFACT_NAMES` (core/workflow/keywords.py:18-27). -/
def allowedNodeArtifactNames : List String :=
  ["output", "findings", "output_path", "findings_path", "output_size", "findings_size", "output_sha256",
    "findings_sha256"]

/-- `{node_id: index for index, node_id in enumerate(order)}`, read at one id. -/
def position (order : List NodeId) (id : NodeId) : Nat := order.idxOf id

/-- `_validate_dependency_edge` (plan_contract_dependencies.py:78). -/
def validateDependencyEdge (plan : PreflightExecutionPlan) (edge : DependencyEdge) : Except String Unit := do
  require (isBlank edge.sourceNode = false ∧ isBlank edge.targetNode = false)
    "Persisted dependency graph node ids cannot be blank."
  require (edge.sourceNode ∈ plan.nodeIds)
    ("Persisted dependency graph references unknown source node '" ++ edge.sourceNode ++ "'.")
  require (edge.targetNode ∈ plan.nodeIds)
    ("Persisted dependency graph references unknown target node '" ++ edge.targetNode ++ "'.")
  require (position plan.executionOrder edge.sourceNode < position plan.executionOrder edge.targetNode)
    ("Persisted dependency graph edge must point from an upstream node: '" ++ edge.sourceNode ++ "' -> '"
      ++ edge.targetNode ++ "'.")
  require (∀ name ∈ edge.artifactName, name ∈ allowedNodeArtifactNames)
    ("Persisted dependency graph contains unknown artifact '" ++ edge.artifactName.getD "None" ++ "'.")
  require (∀ name ∈ edge.artifactName, "findings".toList.isPrefixOf name.toList = true →
      ∃ node ∈ plan.nodes, node.id = edge.sourceNode ∧ node.findings = true)
    ("Persisted dependency graph requests findings from node '" ++ edge.sourceNode
      ++ "', which does not publish findings.")
  require (edge.artifactKey = edge.artifactName) "Persisted dependency graph artifact_key is inconsistent."
  require (edge.targetLocator =
      some (match edge.artifactName with | some name => edge.sourceNode ++ "." ++ name | none => edge.sourceNode))
    "Persisted dependency graph target_locator is inconsistent."

def edgeKey (edge : DependencyEdge) : NodeId × NodeId × Option String :=
  (edge.sourceNode, edge.targetNode, edge.artifactName)

/-- The edge loop of `validate_dependency_graph` with its `seen_edges`. -/
def validateEdges (plan : PreflightExecutionPlan) :
    List (NodeId × NodeId × Option String) → List DependencyEdge → Except String Unit
  | _, [] => .ok ()
  | seen, edge :: edges => do
    validateDependencyEdge plan edge
    require (edgeKey edge ∉ seen)
      ("Persisted dependency graph contains duplicate edge '" ++ edge.sourceNode ++ "' -> '" ++ edge.targetNode
        ++ "'.")
    validateEdges plan (edgeKey edge :: seen) edges

/-- `graph_dependencies[id]`: the sources of the edges into a node. -/
def graphDependencies (graph : List DependencyEdge) (id : NodeId) : List NodeId :=
  ((graph.filter fun edge => edge.targetNode = id).map (·.sourceNode)).dedup

/-- `validate_dependency_graph` (plan_contract_dependencies.py:14). -/
def validateDependencyGraph (plan : PreflightExecutionPlan) : Except String Unit := do
  validateEdges plan [] plan.dependencyGraph
  checkAll plan.nodes fun node =>
    require ((∀ id ∈ graphDependencies plan.dependencyGraph node.id, id ∈ node.dependencies) ∧
        ∀ id ∈ node.dependencies, id ∈ graphDependencies plan.dependencyGraph node.id)
      ("Persisted node '" ++ node.id ++ "' dependencies disagree with the compiled dependency graph.")

/-- `validate_node_relationships` (plan_contract_nodes.py:20): duplicate
dependencies, and the shape of input and foreach nodes. -/
def validateNodeRelationships (plan : PreflightExecutionPlan) : Except String Unit :=
  checkAll plan.nodes fun node => do
    require node.dependencies.Nodup ("Persisted node '" ++ node.id ++ "' contains duplicate dependencies.")
    require (¬((node.mode = .input ∨ node.mode = .foreach) ∧
        (node.findings = true ∨ (node.dependencies ≠ [] ∧ node.mode = .input ∧ node.expansion = none))))
      ("Persisted input node '" ++ node.id ++ "' cannot define findings or dependencies.")

/-- `validate_execution_graph_semantics` (plan_contract.py:68). -/
def validateExecutionGraphSemantics (plan : PreflightExecutionPlan) : Except String Unit := do
  uniqueRecords "node" "id" [] plan.nodeIds
  validateExecutionOrder plan.executionOrder plan.nodeIds
  validateNodeRelationships plan
  validateDependencyGraph plan

/-! ## Frozen templates and stored expansions (foreach/reconstruction.py) -/

/-- `expansion_limit` (foreach/expansion.py:63). -/
def expansionLimit (plan : PreflightExecutionPlan) : Except String Int :=
  match plan.maxExpandedNodes with
  | some limit =>
    if limit > 0 then .ok limit else .error "Foreach requires a compiled positive max_expanded_nodes"
  | none => .error "Foreach requires a compiled positive max_expanded_nodes"

/-- `_validate_frozen_limits` (reconstruction.py:52). -/
def validateFrozenLimits (plan : PreflightExecutionPlan) : Except String Unit := do
  let limit ← expansionLimit plan
  require (∃ concurrency ∈ plan.maxConcurrentNodes, 0 < concurrency) "Foreach requires finite node concurrency"
  require (((plan.foreachTemplates.map CompiledForeach.nodeBound).sum : Int) ≤ limit)
    "Frozen foreach bounds exceed max_expanded_nodes"

/-- `validate_collection`'s count check (core/workflow/collections.py:57). -/
def validateItemCount (template : CompiledForeach) (count : Nat) : Except String Unit :=
  require (count ≤ template.maxItems)
    ("Foreach '" ++ template.groupId ++ "' items: " ++ toString count ++ " items exceeds max_items "
      ++ toString template.maxItems)

/-- The `items` branch of `_validate_frozen_template` (reconstruction.py:68-75). -/
def validateTemplateItems (template : CompiledForeach) : Except String Unit :=
  match template.items with
  | .literal objects => validateItemCount template objects.length
  | .reference _ _ =>
    require (0 < template.maxItems)
      ("Foreach '" ++ template.groupId ++ "' artifact reference requires positive max_items")

/-- `_validate_frozen_template` (reconstruction.py:67). -/
def validateFrozenTemplate (template : CompiledForeach) : Except String Unit := do
  validateTemplateItems template
  require (template.namespace = template.groupId ++ ".template") "Frozen child template identity changed"
  uniqueRecords "child node" "id" [] (template.nodes.map (·.id))
  validateExecutionOrder template.executionOrder (template.nodes.map (·.id))
  require ((template.nodes.filter fun node => node.inputItemSlot ∧ node.mode = .input).map (·.id) =
      [template.itemNodeId])
    "Frozen child requires exactly one declared item input slot"
  require (∀ node ∈ template.nodes, (template.namespace ++ ".").toList.isPrefixOf node.id.toList = true ∧
      node.mode ≠ .foreach ∧ node.expansion = none)
    "Frozen child contains invalid node identity, expansion, or nested foreach"
  require (∀ node ∈ template.nodes, node.inputItemSlot = true → node.mode = .input)
    "Only input nodes can declare frozen item slots"

/-- `_frozen_template_inventory` (reconstruction.py:102). -/
def frozenTemplateInventory (plan : PreflightExecutionPlan) : Except String PreflightExecutionPlan := do
  let nodes := plan.nodes ++ plan.foreachTemplates.flatMap (·.nodes)
  let executionOrder ← topologicalOrder nodes
  return { plan with
    nodes := nodes, executionOrder := executionOrder
    dependencyGraph := plan.dependencyGraph ++ plan.foreachTemplates.flatMap (·.dependencyGraph) }

/-- `validate_frozen_templates` (reconstruction.py:29). -/
def validateFrozenTemplates (plan : PreflightExecutionPlan) : Except String Unit := do
  let templateIds := plan.foreachTemplates.map (·.groupId)
  let groupIds := (plan.nodes.filter (·.mode = .foreach)).map (·.id)
  uniqueRecords "foreach template" "group_id" [] templateIds
  require ((∀ id ∈ templateIds, id ∈ groupIds) ∧ ∀ id ∈ groupIds, id ∈ templateIds)
    "Every foreach node requires exactly one frozen child template"
  if plan.foreachTemplates = [] then .ok ()
  else do
    validateFrozenLimits plan
    checkAll plan.foreachTemplates validateFrozenTemplate
    let inventory ← frozenTemplateInventory plan
    validateExecutionGraphSemantics inventory

/-- `_reconstruct_expansion` (reconstruction.py:340). -/
def reconstructExpansion (template : CompiledForeach) (state : ExpansionState) : ExpansionBatch :=
  let original := match template.items with
    | .reference source _ =>
      if source ∈ template.originalDependencies then template.originalDependencies
      else template.originalDependencies ++ [source]
    | .literal _ => template.originalDependencies
  concreteBatch template state original

/-- One iteration over `plan.expansions` (reconstruction.py:280-289). -/
def validateStoredExpansion (plan : PreflightExecutionPlan) (groupId : NodeId) (state : ExpansionState) :
    Except String ExpansionBatch := do
  match plan.template? groupId with
  | none => .error "Expansion does not match its frozen template and root signature"
  | some template =>
    require (state.groupId = groupId ∧ state.templateDigest = template.templateDigest ∧
        state.workflowSignature = plan.workflowSignature)
      "Expansion does not match its frozen template and root signature"
    require (state.items.length ≤ template.maxItems)
      "Expansion item count or locators differ from the compiled contract"
    let derived := reconstructExpansion template state
    match plan.node? groupId with
    | none => .error groupId
    | some group =>
      require ((∀ id ∈ group.dependencies, id ∈ derived.groupDependencies) ∧
          ∀ id ∈ derived.groupDependencies, id ∈ group.dependencies)
        "Foreach completion gate differs from its instance terminals"
      checkAll derived.nodes fun node =>
        require (plan.node? node.id = some node)
          ("Generated node '" ++ node.id ++ "' differs from its frozen template")
      return derived

/-- The loop over `plan.expansions`, collecting the derived batches. -/
def validateStoredExpansions (plan : PreflightExecutionPlan) :
    List (NodeId × ExpansionState) → Except String (List ExpansionBatch)
  | [] => .ok []
  | (groupId, state) :: rest => do
    let derived ← validateStoredExpansion plan groupId state
    let others ← validateStoredExpansions plan rest
    return derived :: others

/-- The writes of one expansion into `expected` (reconstruction.py:286-288), read at `id`: the group's own
provenance first, then its generated nodes'. -/
def recordExpected (id : NodeId) (expected : Option ExpansionProvenance) (derived : ExpansionBatch) :
    Option ExpansionProvenance :=
  match derived.nodes.reverse.find? (·.id = id) with
  | some generated => generated.expansion
  | none => if derived.state.groupId = id then some (derived.state.provenance none) else expected

/-- `expected.get(id)` after the loop. -/
def expectedProvenance (batches : List ExpansionBatch) (id : NodeId) : Option ExpansionProvenance :=
  batches.foldl (recordExpected id) none

/-- The cumulative budget (reconstruction.py:290). -/
def validateRestoredBudget (plan : PreflightExecutionPlan) (batches : List ExpansionBatch) : Except String Unit :=
  if plan.expansions = [] then .ok ()
  else do
    let limit ← expansionLimit plan
    require (((batches.map (·.nodes.length)).sum : Int) ≤ limit) "Restored expansions exceed max_expanded_nodes"

/-- `validate_expansion_provenance` (reconstruction.py:263). -/
def validateExpansionProvenance (plan : PreflightExecutionPlan) : Except String Unit := do
  let batches ← validateStoredExpansions plan plan.expansions
  validateRestoredBudget plan batches
  checkAll plan.nodes fun node => do
    require (node.expansion = expectedProvenance batches node.id)
      ("Node '" ++ node.id ++ "' has invalid expansion provenance")
    require (node.inputItemSlot = false) "Uninstantiated item slots cannot enter an executable graph"

/-- `validate_execution_plan_semantics` (plan_contract.py:54). -/
def validateExecutionPlanSemantics (plan : PreflightExecutionPlan) : Except String Unit := do
  validateExpansionProvenance plan
  validateFrozenTemplates plan
  validateExecutionGraphSemantics plan

/-! ## What an accepted plan satisfies -/

theorem uniqueRecords_ok {label fieldName : String} {indexed keys : List String}
    (h : uniqueRecords label fieldName indexed keys = .ok ()) :
    keys.Nodup ∧ (∀ key ∈ keys, key ∉ indexed) ∧ ∀ key ∈ keys, isBlank key = false := by
  induction keys generalizing indexed with
  | nil => simp
  | cons key keys ih =>
    simp only [uniqueRecords, check_then_eq_ok, require_eq_ok] at h
    obtain ⟨hblank, hnew, hrest⟩ := h
    obtain ⟨hnodup, hout, hblanks⟩ := ih hrest
    have hkey : key ∉ keys := fun hk => hout key hk (by simp)
    refine ⟨List.nodup_cons.mpr ⟨hkey, hnodup⟩, ?_, ?_⟩
    · intro k hk
      rcases List.mem_cons.mp hk with rfl | hk
      · exact hnew
      · exact fun hmem => hout k hk (List.mem_append_left _ hmem)
    · intro k hk
      rcases List.mem_cons.mp hk with rfl | hk
      · exact hblank
      · exact hblanks k hk

theorem validateEdges_ok {plan : PreflightExecutionPlan} {seen : List (NodeId × NodeId × Option String)}
    {edges : List DependencyEdge} (h : validateEdges plan seen edges = .ok ()) :
    ∀ edge ∈ edges, validateDependencyEdge plan edge = .ok () := by
  induction edges generalizing seen with
  | nil => simp
  | cons edge edges ih =>
    simp only [validateEdges, check_then_eq_ok] at h
    intro e he
    rcases List.mem_cons.mp he with rfl | he
    · exact h.1
    · exact ih h.2.2 e he

theorem mem_graphDependencies {graph : List DependencyEdge} {target id : NodeId} :
    id ∈ graphDependencies graph target ↔ ∃ edge ∈ graph, edge.targetNode = target ∧ edge.sourceNode = id := by
  simp [graphDependencies, and_assoc]

theorem graphDependencies_nodup (graph : List DependencyEdge) (target : NodeId) :
    (graphDependencies graph target).Nodup := List.nodup_dedup _

/-- What the scheduler relies on in a validated graph. -/
structure ValidGraph (plan : PreflightExecutionPlan) : Prop where
  nodup : plan.nodeIds.Nodup
  order : ∀ id, id ∈ plan.executionOrder ↔ id ∈ plan.nodeIds
  edge : ∀ edge ∈ plan.dependencyGraph, edge.sourceNode ∈ plan.nodeIds ∧ edge.targetNode ∈ plan.nodeIds ∧
    position plan.executionOrder edge.sourceNode < position plan.executionOrder edge.targetNode
  dependencies : ∀ node ∈ plan.nodes, ∀ id,
    id ∈ node.dependencies ↔ id ∈ graphDependencies plan.dependencyGraph node.id

theorem validGraph_of_ok {plan : PreflightExecutionPlan} (h : validateExecutionGraphSemantics plan = .ok ()) :
    ValidGraph plan := by
  simp only [validateExecutionGraphSemantics, validateExecutionOrder, validateDependencyGraph, check_then_eq_ok,
    require_eq_ok, checkAll_eq_ok] at h
  obtain ⟨hids, ⟨-, horder⟩, -, hedges, hdeps⟩ := h
  refine ⟨(uniqueRecords_ok hids).1, fun id => ⟨horder.1 id, horder.2 id⟩, ?_, ?_⟩
  · intro edge hedge
    have hok := validateEdges_ok hedges edge hedge
    simp only [validateDependencyEdge, check_then_eq_ok, require_eq_ok] at hok
    exact ⟨hok.2.1, hok.2.2.1, hok.2.2.2.1⟩
  · intro node hnode id
    exact ⟨(hdeps node hnode).2 id, (hdeps node hnode).1 id⟩

/-- `ValidPlan`: the graph, one template for each foreach node, children that
are not foreach nodes themselves, and generated nodes only of stored expansions. -/
structure ValidPlan (plan : PreflightExecutionPlan) : Prop where
  graph : ValidGraph plan
  templates : (plan.foreachTemplates.map (·.groupId)).Nodup
  owner : ∀ id, id ∈ plan.foreachTemplates.map (·.groupId) ↔ ∃ node ∈ plan.nodes, node.mode = .foreach ∧ node.id = id
  child : ∀ template ∈ plan.foreachTemplates, ∀ node ∈ template.nodes, node.mode ≠ .foreach
  expansion : ∀ entry ∈ plan.expansions, entry.2.groupId = entry.1
  generated : ∀ node ∈ plan.nodes, ∀ provenance ∈ node.expansion, provenance.groupId ∈ Dict.keys plan.expansions

theorem validateStoredExpansions_ok {plan : PreflightExecutionPlan} {entries : List (NodeId × ExpansionState)}
    {batches : List ExpansionBatch} (h : validateStoredExpansions plan entries = .ok batches) :
    (∀ entry ∈ entries, ∃ derived, validateStoredExpansion plan entry.1 entry.2 = .ok derived) ∧
    ∀ derived ∈ batches, ∃ entry ∈ entries, validateStoredExpansion plan entry.1 entry.2 = .ok derived := by
  induction entries generalizing batches with
  | nil =>
    simp only [validateStoredExpansions, Except.ok.injEq] at h
    subst h
    simp
  | cons entry entries ih =>
    obtain ⟨groupId, state⟩ := entry
    simp only [validateStoredExpansions, do_eq_ok] at h
    obtain ⟨derived, hd, others, ho, hr⟩ := h
    cases hr
    obtain ⟨hleft, hright⟩ := ih ho
    constructor
    · intro entry hentry
      rcases List.mem_cons.mp hentry with rfl | hentry
      · exact ⟨derived, hd⟩
      · exact hleft entry hentry
    · intro other hother
      rcases List.mem_cons.mp hother with rfl | hother
      · exact ⟨_, List.mem_cons_self, hd⟩
      · obtain ⟨entry, hentry, hok⟩ := hright other hother
        exact ⟨entry, List.mem_cons_of_mem _ hentry, hok⟩

/-- A stored expansion belongs to the group it is stored under, and its derived batch carries it. -/
theorem validateStoredExpansion_ok {plan : PreflightExecutionPlan} {groupId : NodeId} {state : ExpansionState}
    {derived : ExpansionBatch} (h : validateStoredExpansion plan groupId state = .ok derived) :
    state.groupId = groupId ∧ ∃ template ∈ plan.foreachTemplates, template.groupId = groupId ∧
      derived = reconstructExpansion template state := by
  unfold validateStoredExpansion at h
  cases ht : plan.template? groupId with
  | none => simp [ht] at h
  | some template =>
    simp only [ht, check_then_eq_ok, require_eq_ok] at h
    obtain ⟨hid, -, hrest⟩ := h
    cases hn : plan.node? groupId with
    | none => simp [hn] at hrest
    | some group =>
      simp only [hn, check_then_eq_ok] at hrest
      refine ⟨hid.1, template, List.mem_of_find?_eq_some ht, by simpa using List.find?_some ht, ?_⟩
      have hret := hrest.2.2
      cases hret
      rfl

theorem reconstructExpansion_nodes (template : CompiledForeach) (state : ExpansionState) :
    (reconstructExpansion template state).state = state ∧
    ∀ node ∈ (reconstructExpansion template state).nodes,
      ∃ ordinal, node.expansion = some (state.provenance (some ordinal)) := by
  refine ⟨concreteBatch_state .., ?_⟩
  intro node hnode
  obtain ⟨ordinal, -, original, -, rfl⟩ := mem_concreteBatch_nodes.mp hnode
  exact ⟨ordinal, rfl⟩

theorem recordExpected_groupId {id : NodeId} {expected : Option ExpansionProvenance} {derived : ExpansionBatch}
    {p : ExpansionProvenance}
    (hgen : ∀ node ∈ derived.nodes, ∃ o, node.expansion = some (derived.state.provenance o))
    (h : recordExpected id expected derived = some p) : p.groupId = derived.state.groupId ∨ expected = some p := by
  unfold recordExpected at h
  split at h
  · rename_i generated hf
    obtain ⟨o, ho⟩ := hgen generated (List.mem_reverse.mp (List.mem_of_find?_eq_some hf))
    rw [ho] at h
    cases h
    exact Or.inl rfl
  · split at h
    · cases h
      exact Or.inl rfl
    · exact Or.inr h

/-- Every provenance the loop leaves in `expected` names the group of some derived batch. -/
theorem foldl_recordExpected_groupId {id : NodeId} {batches : List ExpansionBatch}
    {acc : Option ExpansionProvenance} {p : ExpansionProvenance}
    (hgen : ∀ derived ∈ batches, ∀ node ∈ derived.nodes, ∃ o, node.expansion = some (derived.state.provenance o))
    (h : batches.foldl (recordExpected id) acc = some p) :
    (∃ derived ∈ batches, p.groupId = derived.state.groupId) ∨ acc = some p := by
  induction batches generalizing acc with
  | nil => exact Or.inr h
  | cons b bs ih =>
    rcases ih (fun d hd => hgen d (List.mem_cons_of_mem b hd)) h with ⟨d, hd, hp⟩ | hacc
    · exact Or.inl ⟨d, List.mem_cons_of_mem b hd, hp⟩
    · rcases recordExpected_groupId (hgen b List.mem_cons_self) hacc with hp | hacc
      · exact Or.inl ⟨b, List.mem_cons_self, hp⟩
      · exact Or.inr hacc

/-- **An accepted plan is a `ValidPlan`.** -/
theorem validPlan_of_ok {plan : PreflightExecutionPlan} (h : validateExecutionPlanSemantics plan = .ok ()) :
    ValidPlan plan := by
  simp only [validateExecutionPlanSemantics, check_then_eq_ok] at h
  obtain ⟨hprov, htemplates, hgraph⟩ := h
  simp only [validateExpansionProvenance, do_eq_ok] at hprov
  obtain ⟨batches, hbatches, -, -, hnodes⟩ := hprov
  simp only [checkAll_eq_ok, check_then_eq_ok, require_eq_ok] at hnodes
  have hstored := validateStoredExpansions_ok hbatches
  simp only [validateFrozenTemplates, check_then_eq_ok, require_eq_ok] at htemplates
  obtain ⟨hunique, howner, hrest⟩ := htemplates
  refine ⟨validGraph_of_ok hgraph, (uniqueRecords_ok hunique).1, ?_, ?_, ?_, ?_⟩
  · intro id
    rw [show (∃ node ∈ plan.nodes, node.mode = NodeMode.foreach ∧ node.id = id) ↔
        id ∈ (plan.nodes.filter (·.mode = .foreach)).map (·.id) by simp [and_assoc]]
    exact ⟨howner.1 id, howner.2 id⟩
  · intro template ht
    have hne : plan.foreachTemplates ≠ [] := List.ne_nil_of_mem ht
    simp only [if_neg hne, check_then_eq_ok, checkAll_eq_ok] at hrest
    have hok := hrest.2.1 template ht
    simp only [validateFrozenTemplate, check_then_eq_ok, require_eq_ok] at hok
    exact fun node hnode => (hok.2.2.2.2.2.1 node hnode).2.1
  · intro entry hentry
    obtain ⟨derived, hd⟩ := hstored.1 entry hentry
    exact (validateStoredExpansion_ok hd).1
  · intro node hnode provenance hp
    have hgen : ∀ derived ∈ batches, ∀ node ∈ derived.nodes,
        ∃ o, node.expansion = some (derived.state.provenance o) := by
      intro derived hderived node hnode
      obtain ⟨entry, -, hok⟩ := hstored.2 derived hderived
      obtain ⟨-, template, -, -, rfl⟩ := validateStoredExpansion_ok hok
      obtain ⟨hstate, hgenerated⟩ := reconstructExpansion_nodes template entry.2
      obtain ⟨ordinal, ho⟩ := hgenerated node hnode
      exact ⟨some ordinal, by rw [ho, hstate]⟩
    rw [(hnodes node hnode).1] at hp
    obtain ⟨derived, hderived, hgroup⟩ := (foldl_recordExpected_groupId hgen hp).resolve_right (by simp)
    obtain ⟨entry, hentry, hok⟩ := hstored.2 derived hderived
    obtain ⟨hid, template, -, -, rfl⟩ := validateStoredExpansion_ok hok
    rw [hgroup, (reconstructExpansion_nodes template entry.2).1, hid]
    exact List.mem_map_of_mem hentry

end Crewplane.Plan
