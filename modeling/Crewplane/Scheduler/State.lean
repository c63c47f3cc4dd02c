import Crewplane.Plan.Expansion
/-
# Scheduler state (runtime/execution/workflow/state.py)

`WorkflowExecutionState` (activity/telemetry.py:13) and
`initialize_workflow_execution_state`, which builds it from a plan and the nodes
a resume already completed. The same function rebuilds the state in the middle
of a run, when a foreach group expands.

The set a Python loop fills edge by edge is written here as the list of its
elements (`deps`, `buildDependentsMap`): the loops only ever add, and the lists
they append to come out in the order of the comprehension.
-/
namespace Crewplane.Scheduler

open Crewplane.Lib Crewplane.Plan

inductive ExecutionStatus
  | pending | running | succeeded | failed | blocked
  deriving DecidableEq, Repr, Inhabited

/-- activity/telemetry.py:13; `running` keeps the ids of the task dictionary. -/
structure WorkflowExecutionState where
  ready : List NodeId
  running : List NodeId
  statuses : Dict NodeId ExecutionStatus
  nodeErrors : Dict NodeId String
  failedDependencies : Dict NodeId (List NodeId)
  remainingDependencies : Dict NodeId Int
  dependents : Dict NodeId (List NodeId)
  dependenciesByNode : Dict NodeId (List NodeId)
  nodeOrder : Dict NodeId Nat
  deriving DecidableEq, Repr

/-- `sorted(ids, key=node_order.__getitem__)`. -/
def sortByOrder (nodeOrder : Dict NodeId Nat) (ids : List NodeId) : List NodeId :=
  ids.insertionSort fun a b => nodeOrder.getItem a ≤ nodeOrder.getItem b

/-- `validate_dependency_edge` (state.py:64). -/
def validateGraphEdge (nodeIds : List NodeId) (edge : DependencyEdge) : Except String Unit := do
  require (edge.sourceNode ∈ nodeIds)
    ("Compiled dependency graph references unknown source node '" ++ edge.sourceNode ++ "'.")
  require (edge.targetNode ∈ nodeIds)
    ("Compiled dependency graph references unknown target node '" ++ edge.targetNode ++ "'.")

/-- `dependencies_by_node_from_plan` (state.py:53). -/
def dependenciesByNodeFromPlan (plan : PreflightExecutionPlan) : Except String (Dict NodeId (List NodeId)) := do
  checkAll plan.dependencyGraph (validateGraphEdge plan.nodeIds)
  return Dict.ofKeys plan.nodeIds plan.deps

/-- `build_dependents_map` (state.py:77). -/
def buildDependentsMap (dependencies : Dict NodeId (List NodeId)) : Dict NodeId (List NodeId) :=
  Dict.ofKeys dependencies.keys fun needed => (dependencies.filter fun entry => needed ∈ entry.2).map Prod.fst

/-- `validated_resumed_nodes` (state.py:87). -/
def validatedResumedNodes (resumedNodeIds : List NodeId) (nodeOrder : Dict NodeId Nat) :
    Except String (List NodeId) := do
  let resumed := resumedNodeIds.dedup
  let unknown := (resumed.filter (· ∉ nodeOrder.keys)).insertionSort (· ≤ ·)
  require (unknown = [])
    ("Resumed node ids are not in the plan: [" ++ ", ".intercalate (unknown.map fun id => "'" ++ id ++ "'") ++ "]")
  return resumed

/-- The first lines of `initialize_workflow_execution_state` (state.py:14-16). -/
def nodeOrderOf (plan : PreflightExecutionPlan) : Dict NodeId Nat :=
  plan.nodes.foldl (fun order node =>
      if node.id ∈ Dict.keys order then order else Dict.setItem order node.id order.length)
    (plan.executionOrder.zip (List.range plan.executionOrder.length))

/-- `remaining_dependencies` (state.py:19-26): every count, less the completed dependencies. -/
def remainingDependenciesOf (nodeOrder : Dict NodeId Nat) (dependencies : Dict NodeId (List NodeId))
    (resumed : List NodeId) : Dict NodeId Int :=
  (sortByOrder nodeOrder resumed).foldl
    (fun counts id => counts.decrementAll ((buildDependentsMap dependencies).getItem id))
    (dependencies.map fun entry => (entry.1, (entry.2.length : Int)))

/-- `ready` (state.py:27-34). -/
def readyNodes (nodeOrder : Dict NodeId Nat) (remaining : Dict NodeId Int) (resumed : List NodeId) : List NodeId :=
  sortByOrder nodeOrder ((remaining.filter fun entry => entry.2 = 0 ∧ entry.1 ∉ resumed).map Prod.fst)

/-- The record `initialize_workflow_execution_state` returns (state.py:35-52). -/
def buildState (plan : PreflightExecutionPlan) (dependencies : Dict NodeId (List NodeId)) (resumed : List NodeId) :
    WorkflowExecutionState :=
  let nodeOrder := nodeOrderOf plan
  let remaining := remainingDependenciesOf nodeOrder dependencies resumed
  { ready := readyNodes nodeOrder remaining resumed, running := []
    statuses := Dict.ofKeys plan.nodeIds fun id => if id ∈ resumed then .succeeded else .pending
    nodeErrors := [], failedDependencies := Dict.ofKeys plan.nodeIds fun _ => []
    remainingDependencies := remaining, dependents := buildDependentsMap dependencies
    dependenciesByNode := dependencies, nodeOrder := nodeOrder }

/-- `initialize_workflow_execution_state` (state.py:10). -/
def initializeWorkflowExecutionState (plan : PreflightExecutionPlan) (resumedNodeIds : List NodeId) :
    Except String WorkflowExecutionState := do
  let dependencies ← dependenciesByNodeFromPlan plan
  let resumed ← validatedResumedNodes resumedNodeIds (nodeOrderOf plan)
  return buildState plan dependencies resumed

/-! ## What the initial state contains -/

section Initial

variable {plan : PreflightExecutionPlan}

theorem mem_sortByOrder {nodeOrder : Dict NodeId Nat} {ids : List NodeId} {id : NodeId} :
    id ∈ sortByOrder nodeOrder ids ↔ id ∈ ids := List.mem_insertionSort _

theorem perm_sortByOrder (nodeOrder : Dict NodeId Nat) (ids : List NodeId) :
    (sortByOrder nodeOrder ids).Perm ids := List.perm_insertionSort _ _

theorem nodup_sortByOrder {nodeOrder : Dict NodeId Nat} {ids : List NodeId} :
    (sortByOrder nodeOrder ids).Nodup ↔ ids.Nodup := (perm_sortByOrder nodeOrder ids).nodup_iff

theorem dependenciesByNodeFromPlan_eq (hv : ValidGraph plan) :
    dependenciesByNodeFromPlan plan = .ok (Dict.ofKeys plan.nodeIds plan.deps) := by
  have hedges : checkAll plan.dependencyGraph (validateGraphEdge plan.nodeIds) = .ok () := by
    rw [checkAll_eq_ok]
    intro edge hedge
    simp only [validateGraphEdge, check_then_eq_ok, require_eq_ok]
    exact ⟨(hv.edge edge hedge).1, (hv.edge edge hedge).2.1⟩
  simp only [dependenciesByNodeFromPlan, do_eq_ok]
  exact ⟨(), hedges, rfl⟩

/-- The dependents of a node, each once. -/
theorem getItem_buildDependentsMap {ids : List NodeId} {deps : NodeId → List NodeId} {needed : NodeId}
    (h : needed ∈ ids) :
    (buildDependentsMap (Dict.ofKeys ids deps)).getItem needed = ids.filter fun id => needed ∈ deps id := by
  unfold buildDependentsMap
  rw [Dict.getItem_ofKeys _ _ (by simpa using h)]
  simp [Dict.ofKeys, List.filter_map, Function.comp_def]

theorem keys_nodeOrderOf (hv : ValidGraph plan) (id : NodeId) : id ∈ (nodeOrderOf plan).keys ↔ id ∈ plan.nodeIds := by
  have hbase : Dict.keys (plan.executionOrder.zip (List.range plan.executionOrder.length)) = plan.executionOrder := by
    simp [Dict.keys, List.map_fst_zip]
  have hfold : ∀ (nodes : List PreflightExecutionNode) (order : Dict NodeId Nat),
      (∀ node ∈ nodes, node.id ∈ Dict.keys order) →
      nodes.foldl (fun order node =>
        if node.id ∈ Dict.keys order then order else Dict.setItem order node.id order.length) order = order := by
    intro nodes
    induction nodes with
    | nil => simp
    | cons node nodes ih =>
      intro order h
      rw [List.foldl_cons, if_pos (h node List.mem_cons_self)]
      exact ih order fun n hn => h n (List.mem_cons_of_mem node hn)
  rw [nodeOrderOf, hfold, hbase, hv.order]
  intro node hnode
  rw [hbase, hv.order]
  exact mem_nodeIds.mpr ⟨node, hnode, rfl⟩

theorem validatedResumedNodes_eq (hv : ValidGraph plan) {resumed : List NodeId}
    (hr : ∀ id ∈ resumed, id ∈ plan.nodeIds) :
    validatedResumedNodes resumed (nodeOrderOf plan) = .ok resumed.dedup := by
  have hunknown : resumed.dedup.filter (· ∉ (nodeOrderOf plan).keys) = [] := by
    rw [List.filter_eq_nil_iff]
    intro id hid
    simpa using (keys_nodeOrderOf hv id).mpr (hr id (List.mem_dedup.mp hid))
  simp only [validatedResumedNodes, hunknown]
  rfl

/-- A state built for `plan` with the nodes `done` completed and nothing running. -/
structure InitialState (plan : PreflightExecutionPlan) (done : List NodeId) (st : WorkflowExecutionState) : Prop where
  running : st.running = []
  nodeErrors : st.nodeErrors = []
  statuses : st.statuses = Dict.ofKeys plan.nodeIds fun id => if id ∈ done then .succeeded else .pending
  failed : st.failedDependencies = Dict.ofKeys plan.nodeIds fun _ => []
  dependencies : st.dependenciesByNode = Dict.ofKeys plan.nodeIds plan.deps
  dependents : st.dependents = buildDependentsMap (Dict.ofKeys plan.nodeIds plan.deps)
  remaining : ∀ id ∈ plan.nodeIds, st.remainingDependencies.getItem id = ((plan.deps id).countP (· ∉ done) : Int)
  ready : ∀ id, id ∈ st.ready ↔ id ∈ plan.nodeIds ∧ id ∉ done ∧ ∀ d ∈ plan.deps id, d ∈ done
  readyNodup : st.ready.Nodup

/-- How often a node is released while the completed nodes are counted down: once for each completed dependency. -/
theorem count_dependents {ids done : List NodeId} {deps : NodeId → List NodeId} (hids : ids.Nodup)
    (hdone : done.Nodup) (hsub : ∀ d ∈ done, d ∈ ids) {id : NodeId} (hid : id ∈ ids) (hdeps : (deps id).Nodup) :
    (done.flatMap (buildDependentsMap (Dict.ofKeys ids deps)).getItem).count id = (deps id).countP (· ∈ done) := by
  have hcount : ∀ d ∈ done, ((buildDependentsMap (Dict.ofKeys ids deps)).getItem d).count id
      = if d ∈ deps id then 1 else 0 := by
    intro d hd
    rw [getItem_buildDependentsMap (hsub d hd)]
    by_cases h : d ∈ deps id
    · rw [if_pos h, List.count_filter (by simpa using h), List.count_eq_one_of_mem hids hid]
    · rw [if_neg h, List.count_eq_zero]
      simp [h]
  rw [List.count_flatMap, List.map_congr_left (f := List.count id ∘ _) hcount]
  have hsum : ∀ xs : List NodeId, (xs.map fun d => if d ∈ deps id then 1 else 0).sum = xs.countP (· ∈ deps id) := by
    intro xs
    induction xs with
    | nil => rfl
    | cons x xs ih =>
      rw [List.map_cons, List.sum_cons, ih, List.countP_cons]
      by_cases hx : x ∈ deps id <;> simp [hx, Nat.add_comm]
  -- both sides count the common elements of two duplicate-free lists
  rw [hsum, List.countP_eq_length_filter, List.countP_eq_length_filter]
  have hperm : (done.filter (· ∈ deps id)).Perm ((deps id).filter (· ∈ done)) := by
    rw [List.perm_ext_iff_of_nodup (hdone.filter _) (hdeps.filter _)]
    intro d
    simp [and_comm]
  exact hperm.length_eq

theorem countP_not_mem (xs done : List NodeId) :
    (xs.countP (· ∉ done) : Int) = (xs.length : Int) - (xs.countP (· ∈ done) : Int) := by
  have h : xs.length = xs.countP (fun x => decide (x ∈ done)) + xs.countP (fun x => decide (x ∉ done)) := by
    simpa using List.length_eq_countP_add_countP (fun x => decide (x ∈ done))
  omega

theorem getItem_remainingDependenciesOf (hv : ValidGraph plan) (nodeOrder : Dict NodeId Nat) {done : List NodeId}
    (hdone : done.Nodup) (hsub : ∀ d ∈ done, d ∈ plan.nodeIds) {id : NodeId} (hid : id ∈ plan.nodeIds) :
    (remainingDependenciesOf nodeOrder (Dict.ofKeys plan.nodeIds plan.deps) done).getItem id
      = ((plan.deps id).countP (· ∉ done) : Int) := by
  have hcounts : ((Dict.ofKeys plan.nodeIds plan.deps).map fun entry => (entry.1, (entry.2.length : Int)))
      = Dict.ofKeys plan.nodeIds fun id => ((plan.deps id).length : Int) := by
    simp [Dict.ofKeys]
  have hsorted := perm_sortByOrder nodeOrder done
  rw [remainingDependenciesOf, hcounts, Dict.decrementAll_flatMap, Dict.getItem_decrementAll,
    Dict.getItem_ofKeys _ _ hid,
    count_dependents hv.nodup (hsorted.nodup_iff.mpr hdone) (fun d hd => hsub d (hsorted.mem_iff.mp hd)) hid
      (deps_nodup plan id), countP_not_mem]
  simp [hsorted.mem_iff]

theorem keys_decrementAll {d : Dict NodeId Int} {ks : List NodeId} (h : ∀ k ∈ ks, k ∈ d.keys) :
    (d.decrementAll ks).keys = d.keys := by
  induction ks generalizing d with
  | nil => rfl
  | cons k ks ih =>
    have hk : (Dict.modify d k (· - 1)).keys = d.keys := by
      rw [Dict.modify, Dict.keys_setItem, if_pos (h k List.mem_cons_self)]
    have hstep : d.decrementAll (k :: ks) = (Dict.modify d k (· - 1)).decrementAll ks := rfl
    rw [hstep, ih, hk]
    intro x hx
    rw [hk]
    exact h x (List.mem_cons_of_mem k hx)

theorem keys_remainingDependenciesOf (nodeOrder : Dict NodeId Nat) {done : List NodeId}
    (hsub : ∀ d ∈ done, d ∈ plan.nodeIds) :
    (remainingDependenciesOf nodeOrder (Dict.ofKeys plan.nodeIds plan.deps) done).keys = plan.nodeIds := by
  have hkeys : Dict.keys ((Dict.ofKeys plan.nodeIds plan.deps).map fun entry => (entry.1, (entry.2.length : Int)))
      = plan.nodeIds := by
    simp [Dict.ofKeys, Dict.keys, Function.comp_def]
  rw [remainingDependenciesOf, Dict.decrementAll_flatMap, keys_decrementAll, hkeys]
  intro k hk
  rw [hkeys]
  obtain ⟨d, hd, hk⟩ := List.mem_flatMap.mp hk
  rw [getItem_buildDependentsMap (hsub d (mem_sortByOrder.mp hd))] at hk
  exact List.mem_of_mem_filter hk

theorem initializeWorkflowExecutionState_ok (hv : ValidGraph plan) {resumed : List NodeId}
    (hr : ∀ id ∈ resumed, id ∈ plan.nodeIds) :
    ∃ st, initializeWorkflowExecutionState plan resumed = .ok st ∧ InitialState plan resumed st := by
  have hsub : ∀ d ∈ resumed.dedup, d ∈ plan.nodeIds := fun d hd => hr d (List.mem_dedup.mp hd)
  refine ⟨buildState plan (Dict.ofKeys plan.nodeIds plan.deps) resumed.dedup, ?_, ?_⟩
  · simp only [initializeWorkflowExecutionState, dependenciesByNodeFromPlan_eq hv, validatedResumedNodes_eq hv hr]
    rfl
  · have hremaining := fun (id : NodeId) (hid : id ∈ plan.nodeIds) =>
      getItem_remainingDependenciesOf hv (nodeOrderOf plan) (List.nodup_dedup resumed) hsub hid
    have hkeys : (remainingDependenciesOf (nodeOrderOf plan) (Dict.ofKeys plan.nodeIds plan.deps)
        resumed.dedup).keys = plan.nodeIds := keys_remainingDependenciesOf _ hsub
    refine ⟨rfl, rfl, ?_, rfl, rfl, rfl, ?_, ?_, ?_⟩
    · simp [buildState]
    · intro id hid
      exact (hremaining id hid).trans (by simp)
    · intro id
      rw [buildState, readyNodes, mem_sortByOrder,
        Dict.mem_filter_keys (by rw [hkeys]; exact hv.nodup) (fun k v => decide (v = 0 ∧ k ∉ resumed.dedup)), hkeys]
      constructor
      · rintro ⟨hid, hp⟩
        rw [hremaining id hid] at hp
        simpa [hid, and_comm] using hp
      · rintro ⟨hid, hnot, hall⟩
        refine ⟨hid, ?_⟩
        rw [hremaining id hid]
        simpa [hnot] using hall
    · rw [buildState, readyNodes, nodup_sortByOrder]
      have hnodup : (remainingDependenciesOf (nodeOrderOf plan) (Dict.ofKeys plan.nodeIds plan.deps)
          resumed.dedup).keys.Nodup := by
        rw [hkeys]
        exact hv.nodup
      exact hnodup.sublist (List.filter_sublist.map Prod.fst)

/-- Only known nodes can be resumed. -/
theorem initializeWorkflowExecutionState_spec (hv : ValidGraph plan) {resumed : List NodeId}
    {st : WorkflowExecutionState} (h : initializeWorkflowExecutionState plan resumed = .ok st) :
    (∀ id ∈ resumed, id ∈ plan.nodeIds) ∧ InitialState plan resumed st := by
  have hknown : ∀ id ∈ resumed, id ∈ plan.nodeIds := by
    simp only [initializeWorkflowExecutionState, validatedResumedNodes, do_eq_ok] at h
    obtain ⟨-, -, known, ⟨⟨⟩, hunknown, -⟩, -⟩ := h
    rw [require_eq_ok] at hunknown
    intro id hid
    by_contra hnot
    have hmem : id ∈ (resumed.dedup.filter (· ∉ (nodeOrderOf plan).keys)).insertionSort (· ≤ ·) := by
      rw [List.mem_insertionSort, List.mem_filter]
      refine ⟨List.mem_dedup.mpr hid, ?_⟩
      rw [decide_eq_true_eq, keys_nodeOrderOf hv]
      exact hnot
    rw [hunknown] at hmem
    simp at hmem
  obtain ⟨st', hst', hspec⟩ := initializeWorkflowExecutionState_ok hv hknown
  rw [h] at hst'
  cases hst'
  exact ⟨hknown, hspec⟩

end Initial

end Crewplane.Scheduler
