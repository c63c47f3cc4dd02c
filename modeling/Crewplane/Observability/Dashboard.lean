import Crewplane.Plan.Shape
/-
# The dashboard's topology (observability/events/reducer.py, dashboard_state.py)

The run emits one event for each expansion (runtime/execution/workflow/expansion.py); the dashboard started
from the plan and splices the children in before their group. It never sees the effective plan:
`dashboard_follows_plan` says that it shows it all the same, after every sequence of expansions. Providers and
statuses are not modelled.
-/
namespace Crewplane.Observability

open Crewplane.Lib Crewplane.Plan

/-! ## Topologies (architecture/contracts/observer.py, cli/run/topology.py) -/

structure TopologyNode where
  id : NodeId
  mode : NodeMode
  dependencies : List NodeId
deriving DecidableEq

structure WorkflowTopology where
  workflowName : String
  nodes : List TopologyNode

def WorkflowTopology.nodeOrder (topology : WorkflowTopology) : Dict NodeId Nat :=
  Dict.ofPairs (topology.nodes.zipIdx.map fun entry => (entry.1.id, entry.2))

def topologyNode (node : PreflightExecutionNode) : TopologyNode :=
  ⟨node.id, node.mode, node.dependencies⟩

def workflowTopologyFromPlan (plan : PreflightExecutionPlan) : WorkflowTopology :=
  ⟨plan.workflowName, plan.nodes.map topologyNode⟩

/-! ## Events (architecture/contracts/execution_event.py) -/

/-- `TopologyExpansionPayload`, with what `__post_init__` checks. -/
structure TopologyExpansionPayload where
  groupId : NodeId
  itemCount : Nat
  additions : List TopologyNode
  groupDependencies : List NodeId
  identified : groupId ≠ ""
  distinct : (additions.map (·.id)).Nodup

def topologyExpansionPayload (groupId : NodeId) (itemCount : Nat) (additions : List TopologyNode)
    (groupDependencies : List NodeId) : Except String TopologyExpansionPayload :=
  if identified : groupId ≠ "" then
    if distinct : (additions.map (·.id)).Nodup then
      .ok ⟨groupId, itemCount, additions, groupDependencies, identified, distinct⟩
    else .error "Expansion event contains duplicate nodes"
  else .error "Expansion events require group identity and nonnegative item count"

/-- An event with a topology payload. -/
structure ExecutionEvent where
  workflowName : String
  runId : String
  payload : TopologyExpansionPayload

/-! ## The run (runtime/execution/workflow/expansion.py) -/

/-- `expand_group` up to the installation of the effective plan. -/
def installGroup (plan : PreflightExecutionPlan) (groupId : NodeId) (evidence : ExpansionEvidence) :
    Except String (ExpansionBatch × PreflightExecutionPlan) := do
  match plan.template? groupId with
  | none => .error "StopIteration"
  | some template =>
    let batch ← instantiateForeach plan template evidence
    let effective ← applyExpansion plan batch
    return (batch, effective)

/-- The event that `expand_group` emits then. -/
def expansionEvent (plan : PreflightExecutionPlan) (runId : String) (evidence : ExpansionEvidence) (batch : ExpansionBatch) :
    Except String ExecutionEvent := do
  let payload ← topologyExpansionPayload batch.state.groupId evidence.items.length (batch.nodes.map topologyNode)
    batch.groupDependencies
  return ⟨plan.workflowName, runId, payload⟩

/-- Expansions one after the other: the effective plan, and the events in order. -/
def expandGroups (runId : String) (plan : PreflightExecutionPlan) :
    List (NodeId × ExpansionEvidence) → Except String (PreflightExecutionPlan × List ExecutionEvent)
  | [] => .ok (plan, [])
  | (groupId, evidence) :: rest => do
    let (batch, effective) ← installGroup plan groupId evidence
    let event ← expansionEvent plan runId evidence batch
    let (last, events) ← expandGroups runId effective rest
    return (last, event :: events)

/-! ## The reducer -/

structure NodeRuntimeState where
  nodeId : NodeId
  mode : NodeMode

structure RunDashboardState where
  workflowName : String
  runId : String
  nodeOrder : Dict NodeId Nat
  nodes : Dict NodeId NodeRuntimeState
  topologyNodes : Dict NodeId TopologyNode

def buildInitialState (topology : WorkflowTopology) (runId : String) : RunDashboardState where
  workflowName := topology.workflowName
  runId := runId
  nodeOrder := topology.nodeOrder
  nodes := Dict.ofPairs (topology.nodes.map fun node => (node.id, ⟨node.id, node.mode⟩))
  topologyNodes := Dict.ofPairs (topology.nodes.map fun node => (node.id, node))

/-- One round of the loop over `topology_nodes`. -/
def spliceNode (payload : TopologyExpansionPayload) (additions ordered : Dict NodeId TopologyNode)
    (entry : NodeId × TopologyNode) : Dict NodeId TopologyNode :=
  if entry.1 = payload.groupId then
    Dict.setItem (Dict.update ordered additions) entry.1 { entry.2 with dependencies := payload.groupDependencies }
  else Dict.setItem ordered entry.1 entry.2

/-- `nodes.setdefault`. -/
def setdefault (nodes : Dict NodeId NodeRuntimeState) (node : TopologyNode) : Dict NodeId NodeRuntimeState :=
  if node.id ∈ Dict.keys nodes then nodes else Dict.setItem nodes node.id ⟨node.id, node.mode⟩

def applyTopologyExpansion (state : RunDashboardState) (payload : TopologyExpansionPayload) :
    Except String RunDashboardState :=
  match Dict.get? state.topologyNodes payload.groupId with
  | none => .error ("Unknown expansion group '" ++ payload.groupId ++ "'")
  | some _ =>
    let additions := Dict.ofPairs (payload.additions.map fun node => (node.id, node))
    let ordered := state.topologyNodes.foldl (spliceNode payload additions) []
    .ok { state with
      topologyNodes := ordered
      nodeOrder := Dict.ofPairs ((Dict.keys ordered).zipIdx)
      nodes := payload.additions.foldl setdefault state.nodes }

def applyEvent (state : RunDashboardState) (event : ExecutionEvent) : Except String RunDashboardState := do
  require (event.workflowName = state.workflowName)
    ("Execution event workflow mismatch: expected '" ++ state.workflowName ++ "', got '" ++ event.workflowName ++ "'.")
  require (event.runId = state.runId)
    ("Execution event run_id mismatch: expected '" ++ state.runId ++ "', got '" ++ event.runId ++ "'.")
  applyTopologyExpansion state event.payload

def applyEvents (state : RunDashboardState) (events : List ExecutionEvent) : Except String RunDashboardState :=
  events.foldlM applyEvent state

/-! ## The splice -/

def topologyEntries (nodes : List TopologyNode) : Dict NodeId TopologyNode := nodes.map fun node => (node.id, node)

theorem keys_topologyEntries (nodes : List TopologyNode) : Dict.keys (topologyEntries nodes) = nodes.map (·.id) := by
  simp [Dict.keys, topologyEntries]

theorem ofPairs_topologyEntries {nodes : List TopologyNode} (h : (nodes.map (·.id)).Nodup) :
    Dict.ofPairs (topologyEntries nodes) = topologyEntries nodes := by
  rw [← keys_topologyEntries] at h
  exact Dict.update_of_disjoint h (List.disjoint_nil_left _)

/-- The records of a splice: the children, and the group with its new dependencies, in the group's place. -/
def splicedNode (groupId : NodeId) (additions : List TopologyNode) (groupDependencies : List NodeId) (node : TopologyNode) :
    List TopologyNode :=
  if node.id = groupId then additions ++ [{ node with dependencies := groupDependencies }] else [node]

theorem foldl_spliceNode (payload : TopologyExpansionPayload) (nodes : List TopologyNode) (ordered : Dict NodeId TopologyNode) :
    (topologyEntries nodes).foldl (spliceNode payload (topologyEntries payload.additions)) ordered =
      Dict.update ordered
        (topologyEntries (nodes.flatMap (splicedNode payload.groupId payload.additions payload.groupDependencies))) := by
  induction nodes generalizing ordered with
  | nil => rfl
  | cons node nodes ih =>
    have happend : ∀ a b : List TopologyNode, topologyEntries (a ++ b) = topologyEntries a ++ topologyEntries b := by
      simp [topologyEntries]
    have hstep : spliceNode payload (topologyEntries payload.additions) ordered (node.id, node) = Dict.update ordered
        (topologyEntries (splicedNode payload.groupId payload.additions payload.groupDependencies node)) := by
      simp only [spliceNode, splicedNode]
      split
      · rw [happend, Dict.update_append]
        rfl
      · rfl
    rw [List.flatMap_cons, happend, Dict.update_append, ← hstep]
    exact ih _

theorem topologyNodes_expandedNodes (plan : PreflightExecutionPlan) (batch : ExpansionBatch) :
    (expandedNodes plan batch).map topologyNode = (plan.nodes.map topologyNode).flatMap
      (splicedNode batch.state.groupId (batch.nodes.map topologyNode) batch.groupDependencies) := by
  rw [expandedNodes, List.map_flatMap, List.flatMap_map]
  congr 1
  funext node
  have hid : (topologyNode node).id = node.id := rfl
  simp only [splicedNode, hid]
  split
  · rw [List.map_append]
    rfl
  · rfl

/-! ## The dashboard shows the plan -/

/-- What the dashboard shows of a plan: its records in their order. -/
structure Shows (state : RunDashboardState) (plan : PreflightExecutionPlan) (runId : String) : Prop where
  workflow : state.workflowName = plan.workflowName
  run : state.runId = runId
  topology : state.topologyNodes = topologyEntries (plan.nodes.map topologyNode)
  order : state.nodeOrder = (workflowTopologyFromPlan plan).nodeOrder
  rows : ∀ id, id ∈ Dict.keys state.nodes ↔ id ∈ plan.nodeIds

variable {plan effective : PreflightExecutionPlan} {batch : ExpansionBatch} {evidence : ExpansionEvidence}
  {groupId : NodeId} {runId : String} {state : RunDashboardState} {event : ExecutionEvent}

theorem topologyIds (plan : PreflightExecutionPlan) : (plan.nodes.map topologyNode).map (·.id) = plan.nodeIds := by
  simp [PreflightExecutionPlan.nodeIds, topologyNode, Function.comp_def]

theorem shows_initial (h : plan.nodeIds.Nodup) (runId : String) :
    Shows (buildInitialState (workflowTopologyFromPlan plan) runId) plan runId where
  workflow := rfl
  run := rfl
  topology := ofPairs_topologyEntries (by rwa [workflowTopologyFromPlan, topologyIds])
  order := rfl
  rows id := by
    simp only [buildInitialState, Dict.mem_keys_ofPairs]
    rw [← topologyIds, Dict.keys, List.map_map]
    rfl

theorem mem_keys_setdefault (nodes : Dict NodeId NodeRuntimeState) (added : List TopologyNode) (id : NodeId) :
    id ∈ Dict.keys (added.foldl setdefault nodes) ↔ id ∈ Dict.keys nodes ∨ id ∈ added.map (·.id) := by
  induction added generalizing nodes with
  | nil => simp
  | cons node added ih =>
    have hstep : id ∈ Dict.keys (setdefault nodes node) ↔ id = node.id ∨ id ∈ Dict.keys nodes := by
      simp only [setdefault]
      split
      next hmem =>
        constructor
        · exact .inr
        · rintro (rfl | h)
          · exact hmem
          · exact h
      next => exact Dict.mem_keys_setItem _ _ _ _
    rw [List.foldl_cons, ih, hstep]
    simp only [List.map_cons, List.mem_cons]
    tauto

/-- What an installed expansion says about its batch. -/
structure Installed (plan : PreflightExecutionPlan) (batch : ExpansionBatch) (effective : PreflightExecutionPlan) : Prop where
  valid : validateExecutionPlanSemantics effective = .ok ()
  workflow : effective.workflowName = plan.workflowName
  nodes : effective.nodes = expandedNodes plan batch
  group : batch.state.groupId ∈ plan.nodeIds

theorem installed_of_ok (h : installGroup plan groupId evidence = .ok (batch, effective)) : Installed plan batch effective := by
  simp only [installGroup] at h
  split at h
  · cases h
  · simp only [do_eq_ok] at h
    obtain ⟨batch', -, effective', happly, hreturn⟩ := h
    cases hreturn
    have hvalid := applyExpansion_valid happly
    simp only [applyExpansion, do_eq_ok] at happly
    obtain ⟨⟨⟩, hbatch, order, -, ⟨⟩, -, hupdated⟩ := happly
    cases hupdated
    simp only [validateExpansionBatch, check_then_eq_ok, require_eq_ok, Option.mem_def] at hbatch
    obtain ⟨-, template, -, group, hgroup, -⟩ := hbatch
    refine ⟨hvalid, rfl, rfl, mem_nodeIds.mpr ⟨group, List.mem_of_find?_eq_some hgroup, ?_⟩⟩
    simpa using List.find?_some hgroup

theorem valid_ids (h : validateExecutionPlanSemantics plan = .ok ()) :
    plan.nodeIds.Nodup ∧ ∀ id ∈ plan.nodeIds, isBlank id = false := by
  simp only [validateExecutionPlanSemantics, validateExecutionGraphSemantics, check_then_eq_ok] at h
  obtain ⟨-, -, hids, -⟩ := h
  obtain ⟨hnodup, -, hblank⟩ := uniqueRecords_ok hids
  exact ⟨hnodup, hblank⟩

/-- The records of the effective plan, as the reducer splices them. -/
theorem Installed.spliced (h : Installed plan batch effective) : effective.nodes.map topologyNode =
    (plan.nodes.map topologyNode).flatMap
      (splicedNode batch.state.groupId (batch.nodes.map topologyNode) batch.groupDependencies) := by
  rw [h.nodes, topologyNodes_expandedNodes]

theorem Installed.nodup (h : Installed plan batch effective) :
    ((batch.nodes.map topologyNode).map (·.id)).Nodup := by
  obtain ⟨group, hgroup, hid⟩ := mem_nodeIds.mp h.group
  have heffective := (valid_ids h.valid).1
  rw [← topologyIds, h.spliced, List.map_flatMap] at heffective
  have hblock := (List.nodup_flatMap.mp heffective).1 _ (List.mem_map_of_mem hgroup)
  rw [splicedNode, if_pos (show (topologyNode group).id = _ from hid), List.map_append] at hblock
  exact (List.nodup_append.mp hblock).1

/-- The payload of the event passes its own checks. -/
theorem expansionEvent_ok (hplan : validateExecutionPlanSemantics plan = .ok ()) (h : Installed plan batch effective)
    (evidence : ExpansionEvidence) (runId : String) : ∃ event, expansionEvent plan runId evidence batch = .ok event := by
  have hid : batch.state.groupId ≠ "" := by
    intro hempty
    have hblank := (valid_ids hplan).2 _ h.group
    rw [hempty] at hblank
    cases hblank
  simp only [expansionEvent, topologyExpansionPayload, dif_pos hid, dif_pos h.nodup]
  exact ⟨_, rfl⟩

theorem mem_nodeIds_effective (h : Installed plan batch effective) (id : NodeId) :
    id ∈ effective.nodeIds ↔ id ∈ plan.nodeIds ∨ id ∈ (batch.nodes.map topologyNode).map (·.id) := by
  rw [← topologyIds, h.spliced, ← topologyIds]
  simp only [List.mem_map, List.mem_flatMap, splicedNode]
  constructor
  · rintro ⟨node, ⟨old, hold, hmem⟩, rfl⟩
    split at hmem
    · rcases List.mem_append.mp hmem with hmem | hmem
      · exact .inr ⟨node, List.mem_map.mp hmem, rfl⟩
      · rw [List.mem_singleton] at hmem
        exact .inl ⟨old, hold, by rw [hmem]⟩
    · rw [List.mem_singleton] at hmem
      exact .inl ⟨old, hold, by rw [hmem]⟩
  · rintro (⟨old, hold, rfl⟩ | ⟨node, hnode, rfl⟩)
    · by_cases hgroup : old.id = batch.state.groupId
      · exact ⟨{ old with dependencies := batch.groupDependencies }, ⟨old, hold, by simp [hgroup]⟩, rfl⟩
      · exact ⟨old, ⟨old, hold, by simp [hgroup]⟩, rfl⟩
    · obtain ⟨group, hgroup, hid⟩ := mem_nodeIds.mp h.group
      refine ⟨node, ⟨topologyNode group, ⟨group, hgroup, rfl⟩, ?_⟩, rfl⟩
      rw [if_pos (show (topologyNode group).id = _ from hid)]
      exact List.mem_append_left _ (List.mem_map.mpr hnode)

theorem shows_step (hshows : Shows state plan runId) (h : Installed plan batch effective)
    (hevent : expansionEvent plan runId evidence batch = .ok event) :
    ∃ state', applyEvent state event = .ok state' ∧ Shows state' effective runId := by
  simp only [expansionEvent, do_eq_ok, topologyExpansionPayload] at hevent
  obtain ⟨payload, hpayload, hreturn⟩ := hevent
  cases hreturn
  split at hpayload
  next hid =>
    split at hpayload
    next hdistinct =>
      cases hpayload
      have hgroup : ∃ node, Dict.get? (topologyEntries (plan.nodes.map topologyNode)) batch.state.groupId = some node := by
        apply Dict.get?_isSome_of_mem_keys
        rw [keys_topologyEntries, topologyIds]
        exact h.group
      obtain ⟨node, hnode⟩ := hgroup
      have hordered : (topologyEntries (plan.nodes.map topologyNode)).foldl
          (spliceNode ⟨batch.state.groupId, evidence.items.length, batch.nodes.map topologyNode, batch.groupDependencies, hid,
            hdistinct⟩ (Dict.ofPairs ((batch.nodes.map topologyNode).map fun node => (node.id, node)))) [] =
          topologyEntries (effective.nodes.map topologyNode) := by
        have hadditions := ofPairs_topologyEntries hdistinct
        simp only [topologyEntries] at hadditions
        rw [hadditions]
        have hfold := foldl_spliceNode ⟨batch.state.groupId, evidence.items.length, batch.nodes.map topologyNode,
          batch.groupDependencies, hid, hdistinct⟩ (plan.nodes.map topologyNode) []
        simp only [← h.spliced] at hfold
        refine hfold.trans (ofPairs_topologyEntries ?_)
        rw [topologyIds]
        exact (valid_ids h.valid).1
      simp only [applyEvent, hshows.workflow, hshows.run, require, if_true, applyTopologyExpansion, hshows.topology, hnode,
        hordered]
      refine ⟨_, rfl, ?_⟩
      constructor
      · exact h.workflow.symm
      · rfl
      · rfl
      · simp only [keys_topologyEntries, List.zipIdx_map, workflowTopologyFromPlan, WorkflowTopology.nodeOrder]
        rfl
      · intro id
        rw [mem_keys_setdefault, hshows.rows, mem_nodeIds_effective h]
    · cases hpayload
  · cases hpayload

/-- After every sequence of expansions the dashboard shows the effective plan: its nodes in their order, each with its
dependencies, as if it had been started from it; and whatever is expanded next emits its event. -/
theorem dashboard_follows_plan {steps : List (NodeId × ExpansionEvidence)} {events : List ExecutionEvent}
    (hplan : validateExecutionPlanSemantics plan = .ok ()) (hrun : expandGroups runId plan steps = .ok (effective, events)) :
    (∃ state, applyEvents (buildInitialState (workflowTopologyFromPlan plan) runId) events = .ok state ∧
      Dict.keys state.topologyNodes = effective.nodeIds ∧
      state.nodeOrder = (workflowTopologyFromPlan effective).nodeOrder ∧
      state.topologyNodes = (buildInitialState (workflowTopologyFromPlan effective) runId).topologyNodes ∧
      (∀ id, id ∈ Dict.keys state.nodes ↔ id ∈ effective.nodeIds) ∧
      ∀ node ∈ effective.nodes, ∃ shown, Dict.get? state.topologyNodes node.id = some shown ∧
        shown.dependencies = node.dependencies) ∧
    ∀ groupId evidence batch next, installGroup effective groupId evidence = .ok (batch, next) →
      ∃ event, expansionEvent effective runId evidence batch = .ok event := by
  suffices hshows : ∀ state, Shows state plan runId →
      (∃ state', applyEvents state events = .ok state' ∧ Shows state' effective runId) ∧
        validateExecutionPlanSemantics effective = .ok () by
    obtain ⟨⟨state, happly, hstate⟩, hvalid⟩ := hshows _ (shows_initial (valid_ids hplan).1 runId)
    have hnodup := (valid_ids hvalid).1
    refine ⟨⟨state, happly, ?_, hstate.order, ?_, hstate.rows, fun node hnode => ?_⟩, fun groupId evidence batch next hnext =>
      expansionEvent_ok hvalid (installed_of_ok hnext) evidence runId⟩
    · rw [hstate.topology, keys_topologyEntries, topologyIds]
    · rw [hstate.topology, (shows_initial hnodup runId).topology]
    · refine ⟨topologyNode node, ?_, rfl⟩
      rw [hstate.topology]
      apply Dict.get?_of_mem
      · rwa [keys_topologyEntries, topologyIds]
      · exact List.mem_map_of_mem (List.mem_map_of_mem hnode)
  induction steps generalizing plan events with
  | nil =>
    cases hrun
    exact fun state hstate => ⟨⟨state, rfl, hstate⟩, hplan⟩
  | cons step steps ih =>
    obtain ⟨groupId, evidence⟩ := step
    simp only [expandGroups, do_eq_ok] at hrun
    obtain ⟨⟨batch, next⟩, hinstall, event, hevent, ⟨last, rest⟩, hrest, hreturn⟩ := hrun
    cases hreturn
    have hinstalled := installed_of_ok hinstall
    intro state hstate
    obtain ⟨state', hstep, hstate'⟩ := shows_step hstate hinstalled hevent
    obtain ⟨⟨last, happly, hlast⟩, hvalid⟩ := ih hinstalled.valid hrest state' hstate'
    refine ⟨⟨last, ?_, hlast⟩, hvalid⟩
    simp only [applyEvents, List.foldlM_cons, hstep]
    exact happly

theorem dashboard_follows_chunks : ∃ effective events state,
    expandGroups "r" chunkPlan [("g", chunkEvidence)] = .ok (effective, events) ∧
    applyEvents (buildInitialState (workflowTopologyFromPlan chunkPlan) "r") events = .ok state ∧
    Dict.keys state.topologyNodes = effective.nodeIds := by
  obtain ⟨effective, events, hrun⟩ : ∃ effective events,
      expandGroups "r" chunkPlan [("g", chunkEvidence)] = .ok (effective, events) := by
    have hok : (expandGroups "r" chunkPlan [("g", chunkEvidence)]).isOk = true := by decide +kernel
    cases h : expandGroups "r" chunkPlan [("g", chunkEvidence)] with
    | error e =>
      rw [h] at hok
      cases hok
    | ok result => exact ⟨result.1, result.2, rfl⟩
  obtain ⟨⟨state, happly, hkeys, -⟩, -⟩ := dashboard_follows_plan (by decide +kernel) hrun
  exact ⟨effective, events, state, hrun, happly, hkeys⟩

end Crewplane.Observability
