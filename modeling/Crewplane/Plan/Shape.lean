import Crewplane.Plan.Expansion
/-
# The shape of an expanded group (foreach/expansion.py:139-281, reconstruction.py:192-221)

Ancestors in the dependency graph before and after one expansion. Inside a copy
of the template every node comes after the item node and before the group; the
item node carries the group's original dependencies. Seen from the other nodes
of the plan, the group is what it was.

`Frozen` is what the compiler promises of a template beyond what the persisted
plan is checked for (foreach/compilation.py): the edges of the template are those
into its own nodes, and the nodes of the caller it reads are ancestors of the
group.
-/
namespace Crewplane.Plan

open Crewplane.Lib

/-- `a` is an ancestor of `b` in the dependency graph. -/
def PreflightExecutionPlan.Ancestor (plan : PreflightExecutionPlan) : NodeId → NodeId → Prop :=
  Relation.TransGen fun a b => a ∈ plan.deps b

/-- The promises of `_compile_foreach_template` (compilation.py:244, edges by target) and
`_validate_collection_sources` (compilation.py:96, sources are ancestors of the group). -/
structure Frozen (plan : PreflightExecutionPlan) (template : CompiledForeach) : Prop where
  targets : ∀ edge ∈ template.dependencyGraph, edge.targetNode ∈ template.nodes.map (·.id)
  sources : ∀ node ∈ template.nodes, ∀ d ∈ node.dependencies, d ∉ template.nodes.map (·.id) →
    plan.Ancestor d template.groupId

/-! ## What the validators know of a template -/

/-- The checks of a frozen template that its copies rely on. -/
structure ValidTemplate (template : CompiledForeach) : Prop where
  nodup : (template.nodes.map (·.id)).Nodup
  item : ∃ node ∈ template.nodes, node.id = template.itemNodeId
  itemFree : ∀ node ∈ template.nodes, node.id = template.itemNodeId → node.dependencies = []
  ranked : ∃ (rank : NodeId → Nat) (bound : Nat), ∀ node ∈ template.nodes,
    rank node.id ≤ bound ∧ ∀ d ∈ node.dependencies, rank d < rank node.id
  edges : ∀ edge ∈ template.dependencyGraph, ∀ node ∈ template.nodes, node.id = edge.targetNode →
    edge.sourceNode ∈ node.dependencies

theorem position_le_length (order : List NodeId) (id : NodeId) : position order id ≤ order.length :=
  List.idxOf_le_length

theorem validTemplate_of_ok {plan : PreflightExecutionPlan} (h : validateExecutionPlanSemantics plan = .ok ())
    {template : CompiledForeach} (ht : template ∈ plan.foreachTemplates) : ValidTemplate template := by
  simp only [validateExecutionPlanSemantics, validateFrozenTemplates, check_then_eq_ok, require_eq_ok] at h
  obtain ⟨-, ⟨-, -, hrest⟩, -⟩ := h
  have hne : plan.foreachTemplates ≠ [] := List.ne_nil_of_mem ht
  simp only [if_neg hne, check_then_eq_ok, checkAll_eq_ok] at hrest
  obtain ⟨-, hfrozen, hrest⟩ := hrest
  obtain ⟨inventory, hinventory, hgraph⟩ := (do_eq_ok _ _ _).mp hrest
  have hok := hfrozen template ht
  simp only [validateFrozenTemplate, check_then_eq_ok, require_eq_ok] at hok
  obtain ⟨-, -, hids, -, hslots, hnodes, -⟩ := hok
  have hvalid := validGraph_of_ok hgraph
  simp only [validateExecutionGraphSemantics, check_then_eq_ok] at hgraph
  obtain ⟨-, -, hrelations, -⟩ := hgraph
  simp only [validateNodeRelationships, checkAll_eq_ok, check_then_eq_ok, require_eq_ok] at hrelations
  simp only [frozenTemplateInventory, do_eq_ok] at hinventory
  obtain ⟨order, -, hreturn⟩ := hinventory
  cases hreturn
  have hmem : ∀ node ∈ template.nodes, node ∈ plan.nodes ++ plan.foreachTemplates.flatMap (·.nodes) := by
    intro node hnode
    exact List.mem_append_right _ (List.mem_flatMap.mpr ⟨template, ht, hnode⟩)
  have hslot : ∃ node ∈ template.nodes, node.id = template.itemNodeId ∧ node.mode = .input := by
    have : template.itemNodeId ∈
        (template.nodes.filter fun node => node.inputItemSlot ∧ node.mode = .input).map (·.id) := by
      rw [hslots]
      simp
    obtain ⟨node, hnode, hid⟩ := List.mem_map.mp this
    have hfilter := List.mem_filter.mp hnode
    exact ⟨node, hfilter.1, hid, (of_decide_eq_true hfilter.2).2⟩
  obtain ⟨item, hitem, hitemId, hitemMode⟩ := hslot
  have hnodup := (uniqueRecords_ok hids).1
  refine ⟨hnodup, ⟨item, hitem, hitemId⟩, ?_, ?_, ?_⟩
  · intro node hnode hid
    have hsame : node = item := List.inj_on_of_nodup_map hnodup hnode hitem (hid.trans hitemId.symm)
    subst hsame
    have hpolicy := (hrelations node (hmem node hnode)).2
    by_contra hdeps
    exact hpolicy ⟨Or.inl hitemMode, Or.inr ⟨hdeps, hitemMode, (hnodes node hnode).2.2⟩⟩
  · refine ⟨position order, order.length, ?_⟩
    intro node hnode
    refine ⟨position_le_length order node.id, ?_⟩
    intro d hd
    obtain ⟨edge, hedge, htarget, rfl⟩ :=
      mem_graphDependencies.mp ((hvalid.dependencies node (hmem node hnode) d).mp hd)
    rw [← htarget]
    exact (hvalid.edge edge hedge).2.2
  · intro edge hedge node hnode hid
    refine (hvalid.dependencies node (hmem node hnode) _).mpr (mem_graphDependencies.mpr ⟨edge, ?_, hid.symm, rfl⟩)
    exact List.mem_append_right _ (List.mem_flatMap.mpr ⟨template, ht, hedge⟩)

/-! ## One copy of the template -/

section Copy

variable {template : CompiledForeach} {state : ExpansionState} {ordinal : Nat} {node : PreflightExecutionNode}

theorem remap_mem_children (ho : ordinal < state.items.length) (hn : node ∈ template.nodes) :
    remapNode template state ordinal node ∈ children template state :=
  mem_concreteBatch_nodes.mpr ⟨ordinal, ho, node, hn, rfl⟩

/-- A local dependency is kept under its generated name. -/
theorem mem_instanceDependencies_local {d : NodeId} (hitem : node.id ≠ template.itemNodeId) (hd : d ∈ node.dependencies)
    (hlocal : d ∈ template.nodes.map (·.id)) :
    generatedId template d ordinal ∈ instanceDependencies template ordinal node := by
  have hmapped : generatedId template d ordinal ∈ node.dependencies.map (instanceId template ordinal) := by
    refine List.mem_map.mpr ⟨d, hd, ?_⟩
    rw [instanceId, if_pos hlocal]
  unfold instanceDependencies
  simp only [if_neg hitem, List.mem_eraseDups]
  split
  · exact List.mem_append_left _ hmapped
  · exact hmapped

/-- A node without local dependencies hangs off the item node. -/
theorem item_mem_instanceDependencies (hitem : node.id ≠ template.itemNodeId)
    (hroot : ∀ d ∈ node.dependencies, d ∉ template.nodes.map (·.id)) :
    generatedId template template.itemNodeId ordinal ∈ instanceDependencies template ordinal node := by
  have hall : (node.dependencies.all fun dep => !((template.nodes.map (·.id)).contains dep)) = true := by
    simpa using hroot
  unfold instanceDependencies
  simp only [if_neg hitem, List.mem_eraseDups, hall, if_true]
  exact List.mem_append_right _ (List.mem_singleton_self _)

theorem instanceDependencies_item (hitem : node.id = template.itemNodeId) {d : NodeId} :
    d ∈ instanceDependencies template ordinal node ↔ d ∈ template.originalDependencies := by
  unfold instanceDependencies
  simp only [if_pos hitem, List.mem_eraseDups]

/-- Where the dependencies of a copy come from. -/
theorem mem_instanceDependencies {d : NodeId} (hd : d ∈ instanceDependencies template ordinal node) :
    d ∈ template.originalDependencies ∨ (∃ m ∈ template.nodes.map (·.id), d = generatedId template m ordinal) ∨
      (d ∈ node.dependencies ∧ d ∉ template.nodes.map (·.id)) ∨
      d = generatedId template template.itemNodeId ordinal := by
  have hmapped : d ∈ node.dependencies.map (instanceId template ordinal) →
      (∃ m ∈ template.nodes.map (·.id), d = generatedId template m ordinal) ∨
      (d ∈ node.dependencies ∧ d ∉ template.nodes.map (·.id)) := by
    intro h
    obtain ⟨m, hm, rfl⟩ := List.mem_map.mp h
    unfold instanceId
    split
    · rename_i hlocal
      exact Or.inl ⟨m, hlocal, rfl⟩
    · rename_i hlocal
      exact Or.inr ⟨hm, hlocal⟩
  unfold instanceDependencies at hd
  simp only [List.mem_eraseDups] at hd
  split at hd
  · exact Or.inl hd
  · split at hd
    · rcases List.mem_append.mp hd with hd | hd
      · rcases hmapped hd with h | h
        · exact Or.inr (Or.inl h)
        · exact Or.inr (Or.inr (Or.inl h))
      · exact Or.inr (Or.inr (Or.inr (List.mem_singleton.mp hd)))
    · rcases hmapped hd with h | h
      · exact Or.inr (Or.inl h)
      · exact Or.inr (Or.inr (Or.inl h))

theorem foldl_appendInstance_gate {ordinals : List Nat} {batch : ExpansionBatch} (ho : ordinal ∈ ordinals)
    (hn : node ∈ template.nodes) (hterminal : node.id ∈ terminalNodeIds template) :
    generatedId template node.id ordinal ∈ (ordinals.foldl (appendInstance template) batch).groupDependencies := by
  induction ordinals generalizing batch with
  | nil => simp at ho
  | cons first ordinals ih =>
    rw [List.foldl_cons]
    rcases List.mem_cons.mp ho with rfl | ho
    · obtain ⟨extra, heq, -⟩ :=
        foldl_appendInstance_groupDependencies template ordinals (appendInstance template batch ordinal)
      rw [heq]
      refine List.mem_append_left _ (List.mem_append_right _ (List.mem_map.mpr ⟨node, ?_, rfl⟩))
      exact List.mem_filter.mpr ⟨hn, by simpa using hterminal⟩
    · exact ih ho

/-- The gate waits for the terminal nodes of every copy. -/
theorem terminal_mem_gate {deps : List NodeId} (ho : ordinal < state.items.length) (hn : node ∈ template.nodes)
    (hterminal : node.id ∈ terminalNodeIds template) :
    generatedId template node.id ordinal ∈ (concreteBatch template state deps).groupDependencies :=
  foldl_appendInstance_gate (List.mem_range.mpr ho) hn hterminal

/-- A node that no edge of the template starts from is terminal, the item node only when it is alone. -/
theorem mem_terminalNodeIds (hn : node ∈ template.nodes)
    (hsource : ∀ edge ∈ template.dependencyGraph, edge.sourceNode ≠ node.id)
    (hitem : node.id = template.itemNodeId → ∀ other ∈ template.nodes, other.id = node.id) :
    node.id ∈ terminalNodeIds template := by
  have hmem : node.id ∈ (template.nodes.map (·.id)).dedup.filter
      fun id => !((template.dependencyGraph.map (·.sourceNode)).contains id) := by
    refine List.mem_filter.mpr ⟨List.mem_dedup.mpr (List.mem_map_of_mem hn), ?_⟩
    simpa using hsource
  unfold terminalNodeIds
  simp only
  split
  · rename_i hmany
    refine List.mem_filter.mpr ⟨hmem, ?_⟩
    rw [decide_eq_true_eq]
    intro heq
    have hall := hitem heq
    have hone : (template.nodes.map (·.id)).dedup.length ≤ 1 := by
      have hsub : (template.nodes.map (·.id)).dedup ⊆ [node.id] := by
        intro id hid
        obtain ⟨other, hother, rfl⟩ := List.mem_map.mp (List.mem_dedup.mp hid)
        simp [hall other hother]
      exact ((List.nodup_dedup _).subperm hsub).length_le
    omega
  · exact hmem

end Copy

/-! ## Ancestors in the effective plan -/

/-- Ancestors come first in the execution order. -/
theorem Ancestor.position_lt {plan : PreflightExecutionPlan} (hv : ValidGraph plan) {a b : NodeId}
    (h : plan.Ancestor a b) : position plan.executionOrder a < position plan.executionOrder b := by
  induction h with
  | single hab => exact deps_position hv hab
  | tail _ hbc ih => exact Nat.lt_trans ih (deps_position hv hbc)

section Effective

variable {plan effective : PreflightExecutionPlan} {template : CompiledForeach} {state : ExpansionState}
  {group : PreflightExecutionNode}

theorem Expands.groupId (h : Expands plan effective template state group) : template.groupId = group.id := by
  simpa using List.find?_some h.frozen

theorem Expands.copy_deps (hv : ValidPlan plan) (h : Expands plan effective template state group) {ordinal : Nat}
    (ho : ordinal < state.items.length) {node : PreflightExecutionNode} (hn : node ∈ template.nodes) {d : NodeId} :
    d ∈ effective.deps (generatedId template node.id ordinal) ↔ d ∈ instanceDependencies template ordinal node :=
  h.deps_child hv (remap_mem_children ho hn)

/-- Inside a copy, the item node comes before every other node. -/
theorem Expands.item_ancestor (hv : ValidPlan plan) (ht : ValidTemplate template)
    (h : Expands plan effective template state group) {ordinal : Nat} (ho : ordinal < state.items.length)
    {node : PreflightExecutionNode} (hn : node ∈ template.nodes) (hitem : node.id ≠ template.itemNodeId) :
    effective.Ancestor (generatedId template template.itemNodeId ordinal) (generatedId template node.id ordinal) := by
  obtain ⟨rank, bound, hrank⟩ := ht.ranked
  -- on the rank of the node: a local dependency ranks lower
  induction hr : rank node.id using Nat.strong_induction_on generalizing node with
  | _ r ih =>
    by_cases hroot : ∀ d ∈ node.dependencies, d ∉ template.nodes.map (·.id)
    · exact .single ((h.copy_deps hv ho hn).mpr (item_mem_instanceDependencies hitem hroot))
    · simp only [not_forall, not_not] at hroot
      obtain ⟨d, hd, hlocal⟩ := hroot
      have hedge := (h.copy_deps hv ho hn).mpr (@mem_instanceDependencies_local _ ordinal _ _ hitem hd hlocal)
      obtain ⟨dep, hdep, rfl⟩ := List.mem_map.mp hlocal
      by_cases hfirst : dep.id = template.itemNodeId
      · rw [← hfirst]
        exact .single hedge
      · have hlower := (hrank node hn).2 dep.id hd
        exact (ih (rank dep.id) (by omega) hdep hfirst rfl).tail hedge

/-- The original dependencies of the group come before every generated node. -/
theorem Expands.original_ancestor (hv : ValidPlan plan) (ht : ValidTemplate template)
    (h : Expands plan effective template state group) {child : PreflightExecutionNode}
    (hchild : child ∈ children template state) {d : NodeId} (hd : d ∈ template.originalDependencies) :
    effective.Ancestor d child.id := by
  obtain ⟨ordinal, ho, node, hn, rfl⟩ := mem_concreteBatch_nodes.mp hchild
  obtain ⟨item, hitem, hitemId⟩ := ht.item
  have hfirst : d ∈ effective.deps (generatedId template template.itemNodeId ordinal) := by
    rw [← hitemId]
    exact (h.copy_deps hv ho hitem).mpr ((instanceDependencies_item hitemId).mpr hd)
  by_cases hnode : node.id = template.itemNodeId
  · refine .single ?_
    change d ∈ effective.deps (generatedId template node.id ordinal)
    rwa [hnode]
  · exact Relation.TransGen.head hfirst (h.item_ancestor hv ht ho hn hnode)

theorem Expands.terminal_ancestor (hv : ValidPlan plan) (h : Expands plan effective template state group)
    {ordinal : Nat} (ho : ordinal < state.items.length) {node : PreflightExecutionNode} (hn : node ∈ template.nodes)
    (hterminal : node.id ∈ terminalNodeIds template) :
    effective.Ancestor (generatedId template node.id ordinal) group.id :=
  .single ((h.deps_group hv).mpr (terminal_mem_gate ho hn hterminal))

theorem Expands.inner_ancestor (hv : ValidPlan plan) (ht : ValidTemplate template) (hf : Frozen plan template)
    (h : Expands plan effective template state group) {ordinal : Nat} (ho : ordinal < state.items.length)
    {node : PreflightExecutionNode} (hn : node ∈ template.nodes) (hitem : node.id ≠ template.itemNodeId) :
    effective.Ancestor (generatedId template node.id ordinal) group.id := by
  obtain ⟨rank, bound, hrank⟩ := ht.ranked
  -- on the distance from the top rank: an edge of the template leads up
  induction hr : bound - rank node.id using Nat.strong_induction_on generalizing node with
  | _ r ih =>
    by_cases hsource : ∀ edge ∈ template.dependencyGraph, edge.sourceNode ≠ node.id
    · exact h.terminal_ancestor hv ho hn (mem_terminalNodeIds hn hsource fun heq => absurd heq hitem)
    · simp only [not_forall, not_not] at hsource
      obtain ⟨edge, hedge, hid⟩ := hsource
      obtain ⟨target, htarget, htargetId⟩ := List.mem_map.mp (hf.targets edge hedge)
      have hdep : node.id ∈ target.dependencies := by
        rw [← hid]
        exact ht.edges edge hedge target htarget htargetId
      have htargetItem : target.id ≠ template.itemNodeId := by
        intro heq
        rw [ht.itemFree target htarget heq] at hdep
        simp at hdep
      have hstep := (h.copy_deps hv ho htarget).mpr
        (@mem_instanceDependencies_local _ ordinal _ _ htargetItem hdep (List.mem_map_of_mem hn))
      have hup := (hrank target htarget).2 node.id hdep
      have htop := (hrank target htarget).1
      exact Relation.TransGen.head hstep (ih (bound - rank target.id) (by omega) htarget htargetItem rfl)

/-- Every generated node comes before the group. -/
theorem Expands.child_ancestor (hv : ValidPlan plan) (ht : ValidTemplate template) (hf : Frozen plan template)
    (h : Expands plan effective template state group) {child : PreflightExecutionNode}
    (hchild : child ∈ children template state) : effective.Ancestor child.id group.id := by
  obtain ⟨ordinal, ho, node, hn, rfl⟩ := mem_concreteBatch_nodes.mp hchild
  change effective.Ancestor (generatedId template node.id ordinal) group.id
  by_cases hitem : node.id = template.itemNodeId
  · by_cases halone : ∀ other ∈ template.nodes, other.id = node.id
    · refine h.terminal_ancestor hv ho hn (mem_terminalNodeIds hn ?_ fun _ => halone)
      intro edge hedge hsource
      obtain ⟨target, htarget, htargetId⟩ := List.mem_map.mp (hf.targets edge hedge)
      have hdep := ht.edges edge hedge target htarget htargetId
      rw [ht.itemFree target htarget ((halone target htarget).trans hitem)] at hdep
      simp at hdep
    · simp only [not_forall] at halone
      obtain ⟨other, hother, hne⟩ := halone
      have hne' : other.id ≠ template.itemNodeId := fun heq => hne (heq.trans hitem.symm)
      rw [hitem]
      exact (h.item_ancestor hv ht ho hother hne').trans (h.inner_ancestor hv ht hf ho hother hne')
  · exact h.inner_ancestor hv ht hf ho hn hitem

theorem mem_gate_of_mem {deps : List NodeId} {d : NodeId} (hd : d ∈ deps) :
    d ∈ (concreteBatch template state deps).groupDependencies := by
  obtain ⟨extra, heq, -⟩ := concreteBatch_groupDependencies template state deps
  rw [heq]
  exact List.mem_append_left _ hd

theorem original_mem_reconstruct {d : NodeId} (hd : d ∈ template.originalDependencies) :
    d ∈ (reconstructExpansion template state).groupDependencies := by
  refine mem_gate_of_mem ?_
  split
  · split
    · exact hd
    · exact List.mem_append_left _ hd
  · exact hd

/-- The gate the validators derive is the gate that was installed. -/
theorem Expands.gate_checked (hok : validateExecutionPlanSemantics effective = .ok ())
    (h : Expands plan effective template state group) {d : NodeId} (hd : d ∈ template.originalDependencies) :
    d ∈ effective.deps group.id := by
  simp only [validateExecutionPlanSemantics, check_then_eq_ok] at hok
  obtain ⟨hprovenance, -⟩ := hok
  simp only [validateExpansionProvenance, do_eq_ok] at hprovenance
  obtain ⟨batches, hbatches, -⟩ := hprovenance
  have hentry : (group.id, state) ∈ effective.expansions := by
    rw [h.expansions]
    exact Dict.mem_of_get? (by rw [Dict.get?_setItem, if_pos rfl])
  obtain ⟨derived, hderived⟩ := (validateStoredExpansions_ok hbatches).1 _ hentry
  have hfrozen : effective.template? group.id = some template := by
    unfold PreflightExecutionPlan.template?
    rw [h.templates]
    exact h.frozen
  unfold validateStoredExpansion at hderived
  simp only [hfrozen, check_then_eq_ok] at hderived
  obtain ⟨-, -, hgate⟩ := hderived
  cases hnode : effective.node? group.id with
  | none => simp [hnode] at hgate
  | some gated =>
    simp only [hnode, check_then_eq_ok, require_eq_ok] at hgate
    have hmem := (node?_eq_some h.valid.graph).mp hnode
    rw [← hmem.2]
    exact (mem_deps h.valid.graph hmem.1).mpr (hgate.1.2 d (original_mem_reconstruct hd))

theorem Expands.original_mem_deps (hv : ValidPlan plan) (ht : ValidTemplate template)
    (hok : validateExecutionPlanSemantics effective = .ok ()) (h : Expands plan effective template state group)
    {d : NodeId} (hd : d ∈ template.originalDependencies) : d ∈ plan.deps group.id := by
  rcases (h.deps_gate hv).2 (h.gate_checked hok hd) with hold | hchild
  · exact hold
  · -- a generated name among the original dependencies would make its node its own ancestor
    obtain ⟨child, hmem, rfl⟩ := List.mem_map.mp hchild
    have hcycle := Ancestor.position_lt h.valid.graph (h.original_ancestor hv ht hmem hd)
    omega

/-- An original node that comes before a generated one came before the group. -/
theorem Expands.dep_of_child (hv : ValidPlan plan) (ht : ValidTemplate template) (hf : Frozen plan template)
    (hok : validateExecutionPlanSemantics effective = .ok ()) (h : Expands plan effective template state group)
    {child : PreflightExecutionNode} (hchild : child ∈ children template state) {d : NodeId}
    (hd : d ∈ effective.deps child.id) :
    d ∈ (children template state).map (·.id) ∨ plan.Ancestor d group.id := by
  obtain ⟨ordinal, ho, node, hn, rfl⟩ := mem_concreteBatch_nodes.mp hchild
  have hcopy : ∀ m ∈ template.nodes.map (·.id), generatedId template m ordinal ∈ (children template state).map (·.id) := by
    intro m hm
    obtain ⟨original, horiginal, rfl⟩ := List.mem_map.mp hm
    exact List.mem_map.mpr ⟨_, remap_mem_children ho horiginal, rfl⟩
  rcases mem_instanceDependencies ((h.copy_deps hv ho hn).mp hd) with hd | ⟨m, hm, rfl⟩ | ⟨hd, hout⟩ | rfl
  · exact Or.inr (.single (h.original_mem_deps hv ht hok hd))
  · exact Or.inl (hcopy m hm)
  · refine Or.inr ?_
    have := hf.sources node hn d hd hout
    rwa [h.groupId] at this
  · obtain ⟨item, hitem, hitemId⟩ := ht.item
    exact Or.inl (hcopy _ (hitemId ▸ List.mem_map_of_mem hitem))

/-- No node of the plan loses an ancestor. -/
theorem Expands.ancestor_mono (hv : ValidPlan plan) (h : Expands plan effective template state group) {a b : NodeId}
    (hab : plan.Ancestor a b) : effective.Ancestor a b := by
  have hstep : ∀ a b, a ∈ plan.deps b → a ∈ effective.deps b := by
    intro a b hab
    by_cases hb : b = group.id
    · subst hb
      exact (h.deps_gate hv).1 hab
    · obtain ⟨edge, hedge, htarget, -⟩ := mem_graphDependencies.mp hab
      exact (h.deps_old hv (htarget ▸ (hv.graph.edge edge hedge).2.1) hb).mpr hab
  exact Relation.TransGen.mono hstep _ _ hab

/-- And none gains one: what a path through generated nodes reaches was behind the group before. -/
theorem Expands.ancestor_old (hv : ValidPlan plan) (ht : ValidTemplate template) (hf : Frozen plan template)
    (hok : validateExecutionPlanSemantics effective = .ok ()) (h : Expands plan effective template state group)
    {a b : NodeId} (ha : a ∈ plan.nodeIds) (hab : effective.Ancestor a b) :
    (b ∈ plan.nodeIds → plan.Ancestor a b) ∧
      (b ∈ (children template state).map (·.id) → plan.Ancestor a group.id) := by
  have hnew : a ∉ (children template state).map (·.id) := fun hmem => h.fresh hv hmem ha
  induction hab with
  | @single b hdep =>
    refine ⟨?_, ?_⟩
    · intro hb
      by_cases hgroup : b = group.id
      · subst hgroup
        exact .single (((h.deps_gate hv).2 hdep).resolve_right hnew)
      · exact .single ((h.deps_old hv hb hgroup).mp hdep)
    · intro hb
      obtain ⟨child, hchild, rfl⟩ := List.mem_map.mp hb
      exact (h.dep_of_child hv ht hf hok hchild hdep).resolve_left hnew
  | @tail b c hab hdep ih =>
    have hsource : b ∈ plan.nodeIds ∨ b ∈ (children template state).map (·.id) :=
      (h.mem_nodeIds hv.graph).mp (deps_mem_nodeIds h.valid.graph hdep)
    refine ⟨?_, ?_⟩
    · intro hc
      by_cases hgroup : c = group.id
      · subst hgroup
        rcases (h.deps_gate hv).2 hdep with hold | hchild
        · exact (ih.1 (deps_mem_nodeIds hv.graph hold)).tail hold
        · exact ih.2 hchild
      · have hold := (h.deps_old hv hc hgroup).mp hdep
        exact (ih.1 (deps_mem_nodeIds hv.graph hold)).tail hold
    · intro hc
      obtain ⟨child, hchild, rfl⟩ := List.mem_map.mp hc
      rcases h.dep_of_child hv ht hf hok hchild hdep with hchild' | hbefore
      · exact ih.2 hchild'
      · rcases hsource with hb | hb
        · exact (ih.1 hb).trans hbefore
        · exact ih.2 hb

end Effective

/-! ## The shape of an expansion -/

theorem instantiateForeach_ok {plan : PreflightExecutionPlan} {template : CompiledForeach} {evidence : ExpansionEvidence}
    {batch : ExpansionBatch} (h : instantiateForeach plan template evidence = .ok batch) :
    ∃ group, plan.node? template.groupId = some group ∧
      batch = concreteBatch template (expansionState plan template evidence) group.dependencies := by
  unfold instantiateForeach at h
  simp only [check_then_eq_ok] at h
  obtain ⟨-, h⟩ := h
  cases hnode : plan.node? template.groupId with
  | none => simp [hnode] at h
  | some group =>
    rw [hnode] at h
    cases h
    exact ⟨group, rfl, rfl⟩

theorem applyExpansion_valid {plan effective : PreflightExecutionPlan} {batch : ExpansionBatch}
    (h : applyExpansion plan batch = .ok effective) : validateExecutionPlanSemantics effective = .ok () := by
  simp only [applyExpansion, do_eq_ok] at h
  obtain ⟨⟨⟩, -, order, -, ⟨⟩, hvalid, hreturn⟩ := h
  cases hreturn
  exact hvalid

/-- Every generated node comes after the original dependencies of its group and before the
group; the generated names are new and distinct; the nodes of the plan have the ancestors
among themselves that they had. -/
theorem foreach_shape {plan effective : PreflightExecutionPlan} {template : CompiledForeach}
    {evidence : ExpansionEvidence} {batch : ExpansionBatch} (hplan : validateExecutionPlanSemantics plan = .ok ())
    (ht : template ∈ plan.foreachTemplates) (hf : Frozen plan template)
    (hbatch : instantiateForeach plan template evidence = .ok batch)
    (happly : applyExpansion plan batch = .ok effective) :
    (∀ child ∈ batch.nodes, ∀ d ∈ template.originalDependencies, effective.Ancestor d child.id) ∧
    (∀ child ∈ batch.nodes, effective.Ancestor child.id template.groupId) ∧
    (batch.nodes.map (·.id)).Nodup ∧
    (∀ child ∈ batch.nodes, child.id ∉ plan.nodeIds) ∧
    ∀ a ∈ plan.nodeIds, ∀ b ∈ plan.nodeIds, effective.Ancestor a b ↔ plan.Ancestor a b := by
  have hv := validPlan_of_ok hplan
  have hvt := validTemplate_of_ok hplan ht
  have hok := applyExpansion_valid happly
  obtain ⟨node, -, hconcrete⟩ := instantiateForeach_ok hbatch
  obtain ⟨template', group, htemplate, h⟩ := expands_of_ok happly
  have hstate : batch.state.groupId = template.groupId := by
    rw [hconcrete, concreteBatch_state]
    rfl
  have hsame : template' = template := by
    rw [hstate, (template?_eq_some hv).mpr ⟨ht, rfl⟩] at htemplate
    exact (Option.some.inj htemplate).symm
  subst hsame
  have hnodes : batch.nodes = children template' batch.state := by
    conv_lhs => rw [hconcrete]
    rw [concreteBatch_nodes_eq_children, hconcrete, concreteBatch_state]
  rw [hnodes, h.groupId]
  refine ⟨fun child hchild d hd => h.original_ancestor hv hvt hchild hd,
    fun child hchild => h.child_ancestor hv hvt hf hchild, ?_, ?_, ?_⟩
  · have hsub : (children template' batch.state).Sublist effective.nodes := by
      have hblock : children template' batch.state ++ [gatedGroup template' batch.state group] ∈
          plan.nodes.map fun node => if node.id = (concreteBatch template' batch.state group.dependencies).state.groupId then
            (concreteBatch template' batch.state group.dependencies).nodes ++
              [{ node with
                dependencies := (concreteBatch template' batch.state group.dependencies).groupDependencies
                expansion := some ((concreteBatch template' batch.state group.dependencies).state.provenance none) }]
          else [node] := by
        refine List.mem_map.mpr ⟨group, h.group_mem, ?_⟩
        rw [concreteBatch_state, h.owner, if_pos rfl, concreteBatch_nodes_eq_children]
        rfl
      rw [h.nodes, expandedNodes, List.flatMap_def]
      exact (List.sublist_append_left _ _).trans (List.sublist_flatten_of_mem hblock)
    exact (hsub.map _).nodup h.valid.graph.nodup
  · intro child hchild
    exact h.fresh hv (List.mem_map_of_mem hchild)
  · intro a ha b hb
    exact ⟨fun hab => (h.ancestor_old hv hvt hf hok ha hab).1 hb, h.ancestor_mono hv⟩

/-! ### Two items, and a child that also reads a node of the caller -/

def chunkTemplate : CompiledForeach :=
  { groupId := "g", «namespace» := "g.template", items := .reference "a" false, maxItems := 2
    itemNodeId := "g.template.item", originalDependencies := ["a"], templateDigest := "t"
    executionOrder := ["g.template.item", "g.template.work"]
    nodes :=
      [ { id := "g.template.item", mode := .input, findings := false, dependencies := [], expansion := none
          inputItemSlot := true, inputContentRef := none },
        { id := "g.template.work", mode := .sequential, findings := false
          dependencies := ["g.template.item", "a"], expansion := none, inputItemSlot := false
          inputContentRef := none } ]
    dependencyGraph := [schedulingEdge "g.template.item" "g.template.work" none,
      schedulingEdge "a" "g.template.work" (some "output"), schedulingEdge "a" "g.template.work" none] }

def chunkPlan : PreflightExecutionPlan :=
  { workflowName := "chunks", workflowSignature := "w", executionOrder := ["a", "g", "report"], expansions := []
    foreachTemplates := [chunkTemplate]
    nodes :=
      [ { id := "a", mode := .input, findings := false, dependencies := [], expansion := none
          inputItemSlot := false, inputContentRef := some "a.md" },
        { id := "g", mode := .foreach, findings := false, dependencies := ["a"], expansion := none
          inputItemSlot := false, inputContentRef := none },
        { id := "report", mode := .sequential, findings := false, dependencies := ["g"], expansion := none
          inputItemSlot := false, inputContentRef := none } ]
    dependencyGraph := [schedulingEdge "a" "g" none, schedulingEdge "g" "report" none]
    maxExpandedNodes := some 8, maxConcurrentNodes := some 2 }

def chunkEvidence : ExpansionEvidence :=
  { digest := "d", collection := ⟨"items.json", 4, "c"⟩, items := [⟨"items/0.json", 2, "i"⟩, ⟨"items/1.json", 2, "j"⟩]
    callerArtifacts := [] }

theorem chunkTemplate_frozen : Frozen chunkPlan chunkTemplate := by
  refine ⟨by decide, ?_⟩
  intro node hnode d hd hout
  have hd : d = "a" := by
    revert hout
    fin_cases hnode
    · simp at hd
    · fin_cases hd
      · intro hout
        exact absurd (by decide) hout
      · exact fun _ => rfl
  subst hd
  exact .single (by decide)

theorem foreach_shape_sample : ∃ batch effective, instantiateForeach chunkPlan chunkTemplate chunkEvidence = .ok batch ∧
    applyExpansion chunkPlan batch = .ok effective ∧ batch.nodes.length = 4 ∧
    (∀ child ∈ batch.nodes, effective.Ancestor "a" child.id ∧ effective.Ancestor child.id "g") ∧
    (effective.Ancestor "a" "report" ↔ chunkPlan.Ancestor "a" "report") := by
  obtain ⟨batch, hbatch⟩ : ∃ batch, instantiateForeach chunkPlan chunkTemplate chunkEvidence = .ok batch := ⟨_, rfl⟩
  have hsize : (instantiateForeach chunkPlan chunkTemplate chunkEvidence).map (·.nodes.length) = .ok 4 := rfl
  have hexists : ((instantiateForeach chunkPlan chunkTemplate chunkEvidence).bind (applyExpansion chunkPlan)).isOk = true := by
    decide +kernel
  rw [hbatch] at hsize hexists
  change (applyExpansion chunkPlan batch).isOk = true at hexists
  obtain ⟨effective, happly⟩ : ∃ effective, applyExpansion chunkPlan batch = .ok effective := by
    cases h : applyExpansion chunkPlan batch with
    | error e => rw [h] at hexists; cases hexists
    | ok effective => exact ⟨effective, rfl⟩
  obtain ⟨hafter, hbefore, -, -, hsame⟩ := foreach_shape (by decide +kernel) (by decide) chunkTemplate_frozen hbatch happly
  refine ⟨batch, effective, hbatch, happly, Except.ok.inj hsize, ?_, hsame "a" (by decide) "report" (by decide)⟩
  intro child hchild
  exact ⟨hafter child hchild "a" (by decide), hbefore child hchild⟩

end Crewplane.Plan
