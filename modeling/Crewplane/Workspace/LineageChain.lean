import Crewplane.Workflow.GraphWaves
import Crewplane.Workspace.Lineage
/-
# A worktree is one chain of writers

No unordered writers are reported exactly when the writers of each worktree are ordered by the graph. Then the source of
a writer is the writer just before it, and the plan that is read back comes to the same choice, whatever more edges
artifacts have added to its graph.
-/
namespace Crewplane.Workspace

open Crewplane.Lib Dict Crewplane.Composition Crewplane.Workflow Relation

/-! ## Ancestors -/

/-- What the analysis of a graph says about its ancestors. -/
structure Ancestry (nodes : WorkflowGraph) (ancestors : Dict String (List String)) : Prop where
  ids_nodup : (nodes.map (·.1)).Nodup
  known : ∀ n ∈ nodes, ∀ d ∈ n.2, d ∈ nodes.map (·.1)
  acyclic : ¬Cyclic (Needs nodes)
  mem : ∀ a x, a ∈ getItem ancestors x ↔ TransGen (Needs nodes) a x
  nodup : ∀ x, (getItem ancestors x).Nodup

theorem nodup_addAncestors {dependencies ancestors : Dict String (List String)} (h : ∀ x, (getItem ancestors x).Nodup)
    (nodeId x : String) : (getItem (addAncestors dependencies ancestors nodeId) x).Nodup := by
  rw [addAncestors]
  generalize getItem dependencies nodeId = needs
  induction needs generalizing ancestors with
  | nil => exact h x
  | cons needed needs ih =>
    refine ih fun y => ?_
    rw [getItem_modify]
    split
    · exact (List.Nodup.union _ (h needed)).insert
    · exact h y

theorem ancestry_of_ok {nodes : WorkflowGraph} {analysis : WorkflowGraphAnalysis} (h : analyzeWorkflowGraph nodes = .ok analysis) :
    Ancestry nodes analysis.ancestors := by
  unfold analyzeWorkflowGraph at h
  rcases graph_cases nodes with ⟨⟨e, herror | ⟨maps, hbuild, herror⟩⟩, -⟩ |
    ⟨dependencies, dependents, s, hbuild, hmaps, hnodup, hwaves, hperm, heq⟩
  · simp [herror, bind, Except.bind] at h
  · simp [hbuild, herror, bind, Except.bind] at h
  · simp only [hbuild, heq, bind, Except.bind, pure, Except.pure, Except.ok.injEq] at h
    subst h
    have hfine := hwaves.faultless hmaps hnodup hperm
    have hempty : ∀ y, getItem (dependencies.map fun entry => (entry.1, ([] : List String))) y = [] := by
      intro y
      rw [getItem, get?_map (fun _ : List String => ([] : List String))]
      cases get? dependencies y <;> rfl
    have hstart : AncestorsOf nodes [] (dependencies.map fun entry => (entry.1, ([] : List String))) :=
      ⟨by simp, fun y _ => hempty y⟩
    have hwalk : AncestorsOf nodes s.waves.flatten (s.waves.flatten.foldl (addAncestors dependencies) _) :=
      ancestors_walk hmaps hnodup hstart hwaves.nodup (fun y hy => ((hwaves.mem_flatten y).mp hy).1) hwaves.inOrder
    rw [← List.foldl_flatten]
    refine ⟨hnodup, fun n hn d hd => ?_, fun hcyclic => hfine (.inr (.inl hcyclic)), fun a x => ?_, ?_⟩
    · by_contra hunknown
      exact hfine (.inl ⟨n, hn, d, hd, hunknown⟩)
    · by_cases hx : x ∈ nodes.map (·.1)
      · exact hwalk.1 x (hperm.mem_iff.mpr hx) a
      · rw [hwalk.2 x fun hwalked => hx (hperm.mem_iff.mp hwalked)]
        refine iff_of_false List.not_mem_nil fun ha => hx ?_
        obtain ⟨d, -, hlast⟩ := TransGen.tail'_iff.mp ha
        exact (hmaps.need_mem hlast).2
    · have hkeep : ∀ (ids : List String) (start : Dict String (List String)), (∀ x, (getItem start x).Nodup) →
          ∀ x, (getItem (ids.foldl (addAncestors dependencies) start) x).Nodup := by
        intro ids
        induction ids with
        | nil => exact fun start hstart => hstart
        | cons id ids ih => exact fun start hstart => ih _ (nodup_addAncestors hstart id)
      refine hkeep _ _ fun y => ?_
      rw [hempty]
      exact List.nodup_nil

section Order

variable {nodes : WorkflowGraph} {ancestors : Dict String (List String)}

theorem Ancestry.ids_of_needs (h : Ancestry nodes ancestors) {d x : String} (hd : TransGen (Needs nodes) d x) :
    d ∈ nodes.map (·.1) ∧ x ∈ nodes.map (·.1) := by
  have hone : ∀ {d x}, Needs nodes d x → d ∈ nodes.map (·.1) ∧ x ∈ nodes.map (·.1) := by
    rintro d x ⟨n, hn, rfl, hd⟩
    exact ⟨h.known n hn d hd, List.mem_map_of_mem hn⟩
  induction hd with
  | single hd => exact hone hd
  | tail _ hlast ih => exact ⟨ih.1, (hone hlast).2⟩

/-- An ancestor has fewer ancestors, however they are counted. -/
theorem Ancestry.length_lt (h : Ancestry nodes ancestors) {counted : String → List String}
    (hmem : ∀ x ∈ nodes.map (·.1), ∀ a, a ∈ counted x ↔ TransGen (Needs nodes) a x) (hnodup : ∀ x, (counted x).Nodup)
    {a x : String} (ha : TransGen (Needs nodes) a x) : (counted a).length < (counted x).length := by
  obtain ⟨haid, hxid⟩ := h.ids_of_needs ha
  have hsub : a :: counted a ⊆ counted x := by
    intro b hb
    rcases List.mem_cons.mp hb with rfl | hb
    · exact (hmem x hxid b).mpr ha
    · exact (hmem x hxid b).mpr (((hmem a haid b).mp hb).trans ha)
  have hself : a ∉ counted a := fun hmem' => h.acyclic ⟨a, (hmem a haid a).mp hmem'⟩
  have hle := (List.subperm_of_subset (List.nodup_cons.mpr ⟨hself, hnodup a⟩) hsub).length_le
  rwa [List.length_cons] at hle

end Order

/-! ## The selections -/

/-- The selection before its source is chosen. -/
def LogicalWorkspaceSelection.line (selection : LogicalWorkspaceSelection) : LogicalWorkspaceSelection :=
  { selection with sourceKind := .project, sourceNodeId := none }

/-- The selections are the same but for the sources. -/
def SameLines (a b : Dict String LogicalWorkspaceSelection) : Prop := ∀ id, (get? a id).map (·.line) = (get? b id).map (·.line)

theorem sameLineageWorktree_congr {selection selection' : LogicalWorkspaceSelection} {a b : Option LogicalWorkspaceSelection}
    (hselection : selection.line = selection'.line) (h : a.map (·.line) = b.map (·.line)) :
    sameLineageWorktree selection a = sameLineageWorktree selection' b := by
  have hname : selection.logicalWorktreeName = selection'.logicalWorktreeName := congrArg (·.logicalWorktreeName) hselection
  have hany : ∀ upstream : Option LogicalWorkspaceSelection, sameLineageWorktree selection upstream =
      (upstream.map (·.line)).any fun upstream => upstream.lineageProducer && upstream.logicalWorktreeName = selection.logicalWorktreeName := by
    intro upstream
    cases upstream <;> rfl
  rw [hany a, h]
  cases b <;> simp [sameLineageWorktree, LogicalWorkspaceSelection.line, hname]

/-- What is chosen for the node of a selection. -/
def sourced (ancestors : Dict String (List String)) (order : Dict String Nat) (base : Dict String LogicalWorkspaceSelection)
    (node : WorkflowNode) (selection : LogicalWorkspaceSelection) : LogicalWorkspaceSelection :=
  if selection.declarationKind ≠ some "worktree" then selection
  else
    match latestSameWorktreeDependency node selection base ancestors order with
    | none => selection
    | some source => { selection with sourceKind := .node, sourceNodeId := some source }

theorem sourced_line (ancestors : Dict String (List String)) (order : Dict String Nat) (base : Dict String LogicalWorkspaceSelection)
    (node : WorkflowNode) (selection : LogicalWorkspaceSelection) :
    (sourced ancestors order base node selection).line = selection.line := by
  unfold sourced
  split
  · rfl
  · split <;> rfl

section Fold

variable {ancestors : Dict String (List String)} {order : Dict String Nat} {base updated : Dict String LogicalWorkspaceSelection}

theorem latestSameWorktreeDependency_congr (h : SameLines updated base) (node : WorkflowNode) (selection : LogicalWorkspaceSelection) :
    latestSameWorktreeDependency node selection updated ancestors order =
      latestSameWorktreeDependency node selection base ancestors order := by
  have hfilter : ((getItem ancestors node.id).filter fun ancestor => sameLineageWorktree selection (get? updated ancestor)) =
      (getItem ancestors node.id).filter fun ancestor => sameLineageWorktree selection (get? base ancestor) :=
    List.filter_congr fun ancestor _ => sameLineageWorktree_congr rfl (h ancestor)
  rw [latestSameWorktreeDependency, latestSameWorktreeDependency, hfilter]

/-- One round of the loop settles one node. -/
theorem withSourceNode_get? (h : SameLines updated base) {node : WorkflowNode} (hnode : get? updated node.id = get? base node.id)
    (id : String) : get? (withSourceNode ancestors order updated node) id =
      if node.id = id then (get? base node.id).map (sourced ancestors order base node) else get? updated id := by
  unfold withSourceNode
  cases hbase : get? base node.id with
  | none =>
    simp only [hnode, hbase, Option.map_none]
    split
    next hid => rw [← hid, hnode, hbase]
    next => rfl
  | some selection =>
    simp only [hnode, hbase, Option.map_some, sourced, latestSameWorktreeDependency_congr h]
    split
    next hkind =>
      split
      next hid => rw [← hid, hnode, hbase]
      next => rfl
    next hkind =>
      cases latestSameWorktreeDependency node selection base ancestors order with
      | none =>
        dsimp only
        split
        next hid => rw [← hid, hnode, hbase]
        next => rfl
      | some source =>
        dsimp only
        rw [get?_setItem]

theorem withSourceNode_lines (h : SameLines updated base) {node : WorkflowNode} (hnode : get? updated node.id = get? base node.id) :
    SameLines (withSourceNode ancestors order updated node) base := by
  intro id
  rw [withSourceNode_get? h hnode]
  split
  next hid =>
    subst hid
    cases get? base node.id with
    | none => rfl
    | some selection => simp [sourced_line]
  next => exact h id

theorem withSourceNodes_get? {nodes : List WorkflowNode} (hnodup : (nodes.map (·.id)).Nodup) (h : SameLines updated base)
    (hnodes : ∀ node ∈ nodes, get? updated node.id = get? base node.id) :
    SameLines (nodes.foldl (withSourceNode ancestors order) updated) base ∧
    (∀ node ∈ nodes, get? (nodes.foldl (withSourceNode ancestors order) updated) node.id =
      (get? base node.id).map (sourced ancestors order base node)) ∧
    ∀ id ∉ nodes.map (·.id), get? (nodes.foldl (withSourceNode ancestors order) updated) id = get? updated id := by
  induction nodes generalizing updated with
  | nil => exact ⟨h, by simp, fun _ _ => rfl⟩
  | cons node nodes ih =>
    rw [List.map_cons, List.nodup_cons] at hnodup
    have hnode := hnodes node List.mem_cons_self
    have hother : ∀ id, id ≠ node.id → get? (withSourceNode ancestors order updated node) id = get? updated id := by
      intro id hid
      rw [withSourceNode_get? h hnode, if_neg (Ne.symm hid)]
    have hrest : ∀ m ∈ nodes, m.id ≠ node.id := fun m hm hid => hnodup.1 (hid ▸ List.mem_map_of_mem hm)
    obtain ⟨hlines, hmem, hout⟩ := ih hnodup.2 (withSourceNode_lines h hnode) fun m hm =>
      (hother m.id (hrest m hm)).trans (hnodes m (List.mem_cons_of_mem node hm))
    refine ⟨hlines, fun m hm => ?_, fun id hid => ?_⟩
    · rcases List.mem_cons.mp hm with rfl | hm
      · rw [List.foldl_cons, hout m.id hnodup.1, withSourceNode_get? h hnode, if_pos rfl]
      · exact hmem m hm
    · rw [List.map_cons, List.mem_cons, not_or] at hid
      rw [List.foldl_cons, hout id hid.2, hother id hid.1]

end Fold

/-- The node writes the worktree. -/
def Writes (selections : Dict String LogicalWorkspaceSelection) (name id : String) : Prop :=
  ∃ selection, get? selections id = some selection ∧ selection.lineageProducer = true ∧ selection.logicalWorktreeName = some name

theorem Writes.congr {a b : Dict String LogicalWorkspaceSelection} (h : SameLines a b) (name id : String) :
    Writes a name id ↔ Writes b name id := by
  have hline : ∀ selections : Dict String LogicalWorkspaceSelection, Writes selections name id ↔
      ∃ line, (get? selections id).map (·.line) = some line ∧ line.lineageProducer = true ∧ line.logicalWorktreeName = some name := by
    intro selections
    cases hget : get? selections id with
    | none => simp [Writes, hget]
    | some selection => simp [Writes, hget, LogicalWorkspaceSelection.line]
  rw [hline, hline, h id]

section Base

variable {workflow : WorkflowPlan} {node : WorkflowNode} {selection : LogicalWorkspaceSelection}

/-- What every selection is like before its source is chosen. -/
structure Plain (selection : LogicalWorkspaceSelection) : Prop where
  kind : selection.declarationKind = some "worktree" ↔ selection.lineageProducer = true
  producer : selection.lineageProducer = true →
    selection.enabled = true ∧ selection.materialization = .worktreeCheckout ∧ ∃ name, selection.logicalWorktreeName = some name
  project : selection.sourceKind = .project ∧ selection.sourceNodeId = none

theorem selectionForNode_plain (h : selectionForNode workflow node = .ok selection) :
    selection.nodeId = node.id ∧ Plain selection := by
  unfold selectionForNode at h
  split at h
  · cases h
    exact ⟨rfl, ⟨by simp, by simp, ⟨rfl, rfl⟩⟩⟩
  · split at h
    · cases h
    next declaration _ =>
      cases h
      refine ⟨rfl, ⟨by simp, fun hproducer => ?_, ⟨rfl, rfl⟩⟩⟩
      have hkind : declaration.kind = "worktree" := by simpa using hproducer
      exact ⟨rfl, if_pos hkind, _, rfl⟩

theorem base_plain {base : Dict String LogicalWorkspaceSelection} (h : baseLogicalWorkspaceSelections workflow = .ok base) :
    (keys base).Nodup ∧ ∀ id selection, get? base id = some selection →
      selection.nodeId = id ∧ id ∈ workflow.nodes.map (·.id) ∧ Plain selection := by
  simp only [baseLogicalWorkspaceSelections, do_eq_ok, pure, Except.pure, Except.ok.injEq] at h
  obtain ⟨selections, hselections, rfl⟩ := h
  refine ⟨nodup_keys_ofPairs _, fun id selection hget => ?_⟩
  obtain ⟨selected, hselected, hentry⟩ := List.mem_map.mp (mem_of_mem_ofPairs (mem_of_get? hget))
  cases hentry
  obtain ⟨node, hnode, hselection⟩ := exists_of_mapM hselections _ hselected
  obtain ⟨hid, hplain⟩ := selectionForNode_plain hselection
  exact ⟨rfl, hid ▸ List.mem_map_of_mem (List.mem_of_mem_filter hnode), hplain⟩

end Base

/-- What the chosen selections are like. -/
structure Chosen (workflow : WorkflowPlan) (ancestors : Dict String (List String)) (base selections : Dict String LogicalWorkspaceSelection) :
    Prop where
  ancestry : Ancestry (workflowGraph workflow) ancestors
  keys_nodup : (keys selections).Nodup
  lines : SameLines selections base
  plain : ∀ id selection, get? base id = some selection → selection.nodeId = id ∧ id ∈ workflow.nodes.map (·.id) ∧ Plain selection
  chosen : ∀ node ∈ workflow.nodes, get? selections node.id =
    (get? base node.id).map (sourced ancestors (nodeOrder (workflow.nodes.map (·.id))) base node)

theorem workflowGraph_ids (workflow : WorkflowPlan) : (workflowGraph workflow).map (·.1) = workflow.nodes.map (·.id) := by
  rw [workflowGraph, List.map_map]
  rfl

theorem nodup_withSourceNode {ancestors : Dict String (List String)} {order : Dict String Nat}
    {updated : Dict String LogicalWorkspaceSelection} (h : (keys updated).Nodup) (node : WorkflowNode) :
    (keys (withSourceNode ancestors order updated node)).Nodup := by
  unfold withSourceNode
  split
  · exact h
  · split
    · exact h
    · split
      · exact h
      · exact nodup_keys_setItem h _ _

theorem chosen_of_ok {workflow : WorkflowPlan} {selections : Dict String LogicalWorkspaceSelection}
    (h : logicalWorkspaceSelections workflow = .ok selections) :
    ∃ ancestors base, ancestorMap workflow = .ok ancestors ∧ Chosen workflow ancestors base selections := by
  simp only [logicalWorkspaceSelections, do_eq_ok, pure, Except.pure, Except.ok.injEq] at h
  obtain ⟨base, hbase, ancestors, hancestors, rfl⟩ := h
  cases hanalysis : analyzeWorkflowGraph (workflowGraph workflow) with
  | error e => simp [ancestorMap, hanalysis, Except.map, Except.mapError] at hancestors
  | ok analysis =>
    simp only [ancestorMap, hanalysis, Except.map, Except.mapError, Except.ok.injEq] at hancestors
    subst hancestors
    have hancestry := ancestry_of_ok hanalysis
    obtain ⟨hkeys, hplain⟩ := base_plain hbase
    have hids := workflowGraph_ids workflow ▸ hancestry.ids_nodup
    obtain ⟨hlines, hchosen, -⟩ := @withSourceNodes_get? analysis.ancestors (nodeOrder (workflow.nodes.map (·.id))) base base
      workflow.nodes hids (fun _ => rfl) fun _ _ => rfl
    refine ⟨analysis.ancestors, base, by rw [ancestorMap, hanalysis, Except.map], hancestry, ?_, hlines, hplain, hchosen⟩
    exact List.foldlRecOn (motive := fun updated => (keys updated).Nodup) workflow.nodes _ hkeys fun updated hupdated node _ =>
      nodup_withSourceNode hupdated node

/-! ## The writers of a worktree -/

section Writers

variable {workflow : WorkflowPlan} {ancestors : Dict String (List String)} {base selections : Dict String LogicalWorkspaceSelection}

theorem foldl_writers (entries : List LogicalWorkspaceSelection) (writers : Dict String (List String)) (hnodup : (keys writers).Nodup) :
    (keys (entries.foldl addWriter writers)).Nodup ∧ ∀ name, getItem (entries.foldl addWriter writers) name =
      getItem writers name ++
        (entries.filter fun selection => selection.lineageProducer && selection.logicalWorktreeName = some name).map (·.nodeId) := by
  induction entries generalizing writers with
  | nil => exact ⟨hnodup, by simp⟩
  | cons selection entries ih =>
    have hone : (keys (addWriter writers selection)).Nodup ∧ ∀ name, getItem (addWriter writers selection) name = getItem writers name ++
        if selection.lineageProducer && selection.logicalWorktreeName = some name then [selection.nodeId] else [] := by
      unfold addWriter
      cases hname : selection.logicalWorktreeName with
      | none => exact ⟨hnodup, by simp⟩
      | some own =>
        cases hproducer : selection.lineageProducer with
        | false => exact ⟨hnodup, by simp⟩
        | true =>
          refine ⟨nodup_keys_setItem hnodup _ _, fun name => ?_⟩
          simp only [if_true, getItem_modify, Option.some.injEq, Bool.true_and, decide_eq_true_eq]
          by_cases hsame : own = name <;> simp [hsame]
    obtain ⟨hkeys, hget⟩ := ih _ hone.1
    refine ⟨hkeys, fun name => ?_⟩
    rw [List.foldl_cons, hget name, hone.2 name, List.append_assoc, List.filter_cons]
    split <;> simp

theorem Chosen.nodeId (h : Chosen workflow ancestors base selections) {id : String} {selection : LogicalWorkspaceSelection}
    (hget : get? selections id = some selection) :
    selection.nodeId = id ∧ id ∈ workflow.nodes.map (·.id) ∧ ∃ plain, get? base id = some plain ∧ selection.line = plain.line := by
  have hline := h.lines id
  rw [hget, Option.map_some] at hline
  cases hbase : get? base id with
  | none => simp [hbase] at hline
  | some plain =>
    rw [hbase, Option.map_some, Option.some.injEq] at hline
    obtain ⟨hid, hmem, -⟩ := h.plain id plain hbase
    exact ⟨(congrArg (·.nodeId) hline).trans hid, hmem, plain, rfl, hline⟩

/-- The writers of a worktree, each once. -/
theorem Chosen.writers (h : Chosen workflow ancestors base selections) (name : String) :
    (getItem (lineageWritersByWorktree selections) name).Nodup ∧
    ∀ id, id ∈ getItem (lineageWritersByWorktree selections) name ↔ Writes selections name id := by
  have hwriters := (foldl_writers (values selections) [] List.nodup_nil).2 name
  have heq : getItem (lineageWritersByWorktree selections) name =
      (selections.filter fun entry => entry.2.lineageProducer && entry.2.logicalWorktreeName = some name).map (·.1) := by
    rw [lineageWritersByWorktree, hwriters, values, List.filter_map, List.map_map]
    refine List.map_congr_left fun entry hentry => ?_
    have hget := get?_of_mem h.keys_nodup (List.mem_of_mem_filter hentry)
    exact (h.nodeId hget).1
  rw [heq]
  refine ⟨h.keys_nodup.sublist (List.filter_sublist.map _), fun id => ?_⟩
  rw [List.mem_map]
  constructor
  · rintro ⟨entry, hentry, rfl⟩
    obtain ⟨hmem, hp⟩ := List.mem_filter.mp hentry
    rw [Bool.and_eq_true, decide_eq_true_eq] at hp
    exact ⟨entry.2, get?_of_mem h.keys_nodup hmem, hp⟩
  · rintro ⟨selection, hget, hproducer, hname⟩
    exact ⟨(id, selection), List.mem_filter.mpr ⟨mem_of_get? hget, by simp [hproducer, hname]⟩, rfl⟩

theorem firstUnordered_eq_none {ids : List String} :
    firstUnordered ancestors ids = none ↔ ids.IsChain fun left right => left ∈ getItem ancestors right := by
  induction ids with
  | nil => simp [firstUnordered]
  | cons left ids ih =>
    cases ids with
    | nil => simp [firstUnordered]
    | cons right rest =>
      rw [firstUnordered, List.isChain_cons_cons]
      split
      next hmem => rw [ih, and_iff_right (List.contains_iff_mem.mp hmem)]
      next hmem => exact iff_of_false (by simp) fun hlink => hmem (List.contains_iff_mem.mpr hlink.1)

/-- Comparing neighbours misses no pair. -/
theorem firstUnorderedWriterPair_eq_none {nodes : WorkflowGraph} (h : Ancestry nodes ancestors) (order : Dict String Nat)
    {ids : List String} (hnodup : ids.Nodup) :
    firstUnorderedWriterPair ids ancestors order = none ↔
      ∀ a ∈ ids, ∀ b ∈ ids, a ≠ b → TransGen (Needs nodes) a b ∨ TransGen (Needs nodes) b a := by
  have hcount : ∀ x, getItem (ancestors.map fun entry => (entry.1, entry.2.length)) x = (getItem ancestors x).length := by
    intro x
    rw [getItem, get?_map (fun own : List String => own.length), getItem]
    cases get? ancestors x <;> rfl
  have hsorted : (ids.mergeSort fun a b => rankKey (ancestors.map fun entry => (entry.1, entry.2.length)) order a ≤
      rankKey (ancestors.map fun entry => (entry.1, entry.2.length)) order b).Pairwise
      fun a b => (getItem ancestors a).length ≤ (getItem ancestors b).length := by
    refine (List.pairwise_mergeSort (fun a b c => ?_) (fun a b => ?_) ids).imp fun {a b} hab => ?_
    · simp only [decide_eq_true_eq]
      exact le_trans
    · simp only [Bool.or_eq_true, decide_eq_true_eq]
      exact le_total _ _
    · rw [← hcount a, ← hcount b]
      exact (Prod.Lex.monotone_fst_ofLex : Monotone _) (of_decide_eq_true hab)
  have hperm := List.mergeSort_perm ids fun a b => rankKey (ancestors.map fun entry => (entry.1, entry.2.length)) order a ≤
      rankKey (ancestors.map fun entry => (entry.1, entry.2.length)) order b
  have hchain := Chains.isChain_iff_total (r := TransGen (Needs nodes)) (fun hab hbc => hab.trans hbc)
    (fun hab => h.length_lt (fun x _ a => h.mem a x) h.nodup hab) hsorted (hperm.nodup_iff.mpr hnodup)
  simp only [hperm.mem_iff] at hchain
  rw [firstUnorderedWriterPair, firstUnordered_eq_none, ← hchain]
  simp only [h.mem]

theorem unorderedWriterDiagnostics_eq_nil (h : Chosen workflow ancestors base selections)
    (hancestors : ancestorMap workflow = .ok ancestors) :
    unorderedWriterDiagnostics workflow selections = .ok [] ↔ ∀ name a b, Writes selections name a → Writes selections name b →
      a ≠ b → TransGen (Needs (workflowGraph workflow)) a b ∨ TransGen (Needs (workflowGraph workflow)) b a := by
  have hone : ∀ name, firstUnorderedWriterPair (getItem (lineageWritersByWorktree selections) name) ancestors
      (nodeOrder (workflow.nodes.map (·.id))) = none ↔ ∀ a b, Writes selections name a → Writes selections name b → a ≠ b →
        TransGen (Needs (workflowGraph workflow)) a b ∨ TransGen (Needs (workflowGraph workflow)) b a := by
    intro name
    obtain ⟨hnodup, hmem⟩ := h.writers name
    rw [firstUnorderedWriterPair_eq_none h.ancestry _ hnodup]
    simp only [hmem]
    exact ⟨fun htotal a b ha hb => htotal a ha b hb, fun htotal a ha b hb => htotal a b ha hb⟩
  have hkeys := (foldl_writers (values selections) [] List.nodup_nil).1
  simp only [unorderedWriterDiagnostics, hancestors, bind, Except.bind, pure, Except.pure, Except.ok.injEq,
    List.filterMap_eq_nil_iff, Option.map_eq_none_iff]
  constructor
  · intro hnone name
    refine (hone name).mp ?_
    by_cases hname : name ∈ keys (lineageWritersByWorktree selections)
    · obtain ⟨ids, hids⟩ := get?_isSome_of_mem_keys hname
      have := hnone (name, ids) (mem_of_get? hids)
      rwa [getItem, hids]
    · have hget : getItem (lineageWritersByWorktree selections) name = [] := by
        have hisNone := mt (mem_keys_iff _ _).mpr hname
        rw [getItem, Option.not_isSome_iff_eq_none.mp hisNone]
        rfl
      rw [hget]
      simp [firstUnorderedWriterPair, firstUnordered]
  · rintro htotal ⟨name, ids⟩ hentry
    have hget : getItem (lineageWritersByWorktree selections) name = ids := by
      have hids : get? (lineageWritersByWorktree selections) name = some ids := get?_of_mem hkeys hentry
      rw [getItem, hids]
      rfl
    exact hget ▸ (hone name).mpr (htotal name)

end Writers

/-! ## The writer before -/

/-- `p` is the last writer of the worktree above `x`. -/
structure WriterBefore (workflow : WorkflowPlan) (selections : Dict String LogicalWorkspaceSelection) (name p x : String) : Prop where
  writes : Writes selections name p
  above : TransGen (Needs (workflowGraph workflow)) p x
  last : ∀ q, Writes selections name q → TransGen (Needs (workflowGraph workflow)) q x → q ≠ p →
    TransGen (Needs (workflowGraph workflow)) q p

section Source

variable {workflow : WorkflowPlan} {ancestors : Dict String (List String)} {base selections : Dict String LogicalWorkspaceSelection}

/-- However the ancestors are collected and the nodes ordered, the latest of the writers above a node is the one before it. -/
theorem latestLineageSource_eq (h : Ancestry (workflowGraph workflow) ancestors) {name x : String} {counted : String → List String}
    (hmem : ∀ y ∈ (workflowGraph workflow).map (·.1), ∀ a, a ∈ counted y ↔ TransGen (Needs (workflowGraph workflow)) a y)
    (hnodup : ∀ y, (counted y).Nodup) {candidates : List String}
    (hcandidates : ∀ a, a ∈ candidates ↔ Writes selections name a ∧ TransGen (Needs (workflowGraph workflow)) a x)
    (htotal : ∀ a b, Writes selections name a → Writes selections name b → a ≠ b →
      TransGen (Needs (workflowGraph workflow)) a b ∨ TransGen (Needs (workflowGraph workflow)) b a)
    (order : Dict String Nat) (p : String) :
    latestLineageSource (ofKeys candidates fun a => (counted a).length) order = some p ↔
      WriterBefore workflow selections name p x := by
  have hkey : ∀ a ∈ candidates, ∀ b ∈ candidates, TransGen (Needs (workflowGraph workflow)) a b →
      rankKey (ofKeys candidates fun a => (counted a).length) order a < rankKey (ofKeys candidates fun a => (counted a).length) order b := by
    intro a ha b hb hab
    rw [rankKey, rankKey, getItem_ofKeys _ _ ha, getItem_ofKeys _ _ hb]
    exact Prod.Lex.toLex_lt_toLex.mpr (.inl (h.length_lt hmem hnodup hab))
  rw [latestLineageSource, keys_ofKeys, Chains.latest_eq_iff hkey fun a ha b hb hab =>
    htotal a b ((hcandidates a).mp ha).1 ((hcandidates b).mp hb).1 hab]
  constructor
  · rintro ⟨hp, hbefore⟩
    obtain ⟨hwrites, habove⟩ := (hcandidates p).mp hp
    exact ⟨hwrites, habove, fun q hq hqx hne => hbefore q ((hcandidates q).mpr ⟨hq, hqx⟩) hne⟩
  · intro hp
    refine ⟨(hcandidates p).mpr ⟨hp.writes, hp.above⟩, fun q hq hne => ?_⟩
    obtain ⟨hwrites, hqx⟩ := (hcandidates q).mp hq
    exact hp.last q hwrites hqx hne

theorem sameLineageWorktree_iff {selection : LogicalWorkspaceSelection} {name : String}
    (hname : selection.logicalWorktreeName = some name) (id : String) :
    sameLineageWorktree selection (get? selections id) = true ↔ Writes selections name id := by
  cases hget : get? selections id with
  | none => simp [sameLineageWorktree, Writes, hget]
  | some upstream => simp [sameLineageWorktree, Writes, hget, hname]

/-- The source that is chosen is the writer before. -/
theorem Chosen.source_iff (h : Chosen workflow ancestors base selections)
    (htotal : ∀ name a b, Writes selections name a → Writes selections name b → a ≠ b →
      TransGen (Needs (workflowGraph workflow)) a b ∨ TransGen (Needs (workflowGraph workflow)) b a)
    {name x : String} {selection : LogicalWorkspaceSelection} (hget : get? selections x = some selection)
    (hproducer : selection.lineageProducer = true) (hname : selection.logicalWorktreeName = some name) :
    (∀ p, selection.sourceNodeId = some p ↔ WriterBefore workflow selections name p x) ∧
      (selection.sourceKind = .node ↔ selection.sourceNodeId ≠ none) := by
  obtain ⟨-, hx, plain, hbase, hline⟩ := h.nodeId hget
  obtain ⟨node, hnode, rfl⟩ := List.mem_map.mp hx
  have hplain := (h.plain _ _ hbase).2.2
  have hproducer' : plain.lineageProducer = true := (congrArg (·.lineageProducer) hline) ▸ hproducer
  have hname' : plain.logicalWorktreeName = some name := (congrArg (·.logicalWorktreeName) hline) ▸ hname
  have hchosen := h.chosen node hnode
  rw [hget, hbase, Option.map_some, Option.some.injEq, sourced, if_neg (by rw [not_not]; exact hplain.kind.mpr hproducer')] at hchosen
  have hcandidates : ∀ a, a ∈ (getItem ancestors node.id).filter (fun ancestor => sameLineageWorktree plain (get? base ancestor)) ↔
      Writes selections name a ∧ TransGen (Needs (workflowGraph workflow)) a node.id := by
    intro a
    rw [List.mem_filter, h.ancestry.mem, sameLineageWorktree_iff hname', Writes.congr h.lines, and_comm]
  have hlatest := latestLineageSource_eq h.ancestry (fun y _ a => h.ancestry.mem a y) h.ancestry.nodup hcandidates (htotal name)
    (nodeOrder (workflow.nodes.map (·.id)))
  rw [latestSameWorktreeDependency] at hchosen
  constructor
  · intro p
    rw [← hlatest p, hchosen]
    split
    next hnone => simp [hnone, hplain.project.2]
    next source hsource => simp [hsource]
  · rw [hchosen]
    split
    next hnone => simp [hplain.project]
    next source hsource => simp

end Source

/-! ## The plan that is read back -/

/-- The edges of the compiled graph: the needs, and artifacts that are read from nodes above. -/
structure CompiledEdges (workflow : WorkflowPlan) (edges : List (String × String)) : Prop where
  needs : ∀ d x, Needs (workflowGraph workflow) d x → (d, x) ∈ edges
  above : ∀ e ∈ edges, TransGen (Needs (workflowGraph workflow)) e.1 e.2

section Persisted

variable {workflow : WorkflowPlan} {ancestors : Dict String (List String)} {base selections : Dict String LogicalWorkspaceSelection}
  {edges : List (String × String)}

/-- The plan by the ids of its nodes. -/
def persistedById (workflow : WorkflowPlan) (selections : Dict String LogicalWorkspaceSelection) (edges : List (String × String)) :
    Dict String LineageNode :=
  ofPairs ((persistedNodes workflow selections edges).map fun node => (node.id, node))

/-- The node of an id as it was written. -/
def persistedNode (workflow : WorkflowPlan) (selections : Dict String LogicalWorkspaceSelection) (edges : List (String × String))
    (id : String) : LineageNode :=
  { id := id, dependencies := graphDependencies (workflow.nodes.map (·.id)) edges id
    workspacePolicy := get? (workspacePolicyRecords selections) id }

theorem persistedNodes_eq : persistedNodes workflow selections edges =
    (workflow.nodes.map (·.id)).map (persistedNode workflow selections edges) := by
  rw [persistedNodes, List.map_map]
  rfl

theorem persistedById_get? (h : Chosen workflow ancestors base selections) (id : String) :
    get? (persistedById workflow selections edges) id =
      if id ∈ workflow.nodes.map (·.id) then some (persistedNode workflow selections edges id) else none := by
  have hentries : (persistedNodes workflow selections edges).map (fun node => (node.id, node)) =
      (workflow.nodes.map (·.id)).map fun id => (id, persistedNode workflow selections edges id) := by
    rw [persistedNodes_eq, List.map_map]
    rfl
  rw [persistedById, hentries]
  split
  next hid =>
    refine get?_of_mem (nodup_keys_ofPairs _) ?_
    have hnodup := workflowGraph_ids workflow ▸ h.ancestry.ids_nodup
    rw [ofPairs, update_of_disjoint (by simpa [keys, Function.comp_def] using hnodup) (by simp [keys])]
    exact List.mem_map_of_mem hid
  next hid =>
    rw [← Option.not_isSome_iff_eq_none, ← mem_keys_iff, mem_keys_ofPairs]
    simpa [keys] using hid

theorem mem_keys_persisted (h : Chosen workflow ancestors base selections) (id : String) :
    id ∈ keys (persistedById workflow selections edges) ↔ id ∈ workflow.nodes.map (·.id) := by
  rw [mem_keys_iff, persistedById_get? h]
  split <;> simp_all

theorem mem_graphDependencies_iff (h : Chosen workflow ancestors base selections) (hedges : CompiledEdges workflow edges) {d x : String} :
    d ∈ graphDependencies (workflow.nodes.map (·.id)) edges x ↔ (d, x) ∈ edges := by
  rw [graphDependencies, List.mem_filter, List.contains_iff_mem]
  exact and_iff_right_of_imp fun hedge => workflowGraph_ids workflow ▸ (h.ancestry.ids_of_needs (hedges.above _ hedge)).1

theorem mem_dependenciesOf (h : Chosen workflow ancestors base selections) (hedges : CompiledEdges workflow edges) {d x : String} :
    d ∈ dependenciesOf (persistedById workflow selections edges) x ↔ (d, x) ∈ edges := by
  rw [dependenciesOf, persistedById_get? h]
  split
  next => exact mem_graphDependencies_iff h hedges
  next hx =>
    refine iff_of_false List.not_mem_nil fun hedge => hx ?_
    exact workflowGraph_ids workflow ▸ (h.ancestry.ids_of_needs (hedges.above _ hedge)).2

/-- The ancestors in the plan are those in the workflow. -/
theorem mem_ancestorNodeIds (h : Chosen workflow ancestors base selections) (hedges : CompiledEdges workflow edges) (x a : String) :
    a ∈ ancestorNodeIds (persistedNode workflow selections edges x) (persistedById workflow selections edges) ↔
      TransGen (Needs (workflowGraph workflow)) a x := by
  have huniv : ∀ y, dependenciesOf (persistedById workflow selections edges) y ≠ [] →
      y ∈ keys (persistedById workflow selections edges) := by
    intro y hy
    rw [mem_keys_iff]
    unfold dependenciesOf at hy
    cases hget : get? (persistedById workflow selections edges) y with
    | none => simp [hget] at hy
    | some node => rfl
  have hreach : ∀ p b, ReflTransGen (fun a b => b ∈ dependenciesOf (persistedById workflow selections edges) a) p b ↔
      ReflTransGen (fun d x => (d, x) ∈ edges) b p := by
    intro p b
    rw [← reflTransGen_swap]
    simp only [mem_dependenciesOf h hedges]
  have hedge : ∀ b, TransGen (fun d x => (d, x) ∈ edges) b x ↔ TransGen (Needs (workflowGraph workflow)) b x := by
    intro b
    constructor
    · exact fun hb => hb.lift' id fun d x hdx => hedges.above (d, x) hdx
    · exact TransGen.mono (fun d x hdx => hedges.needs d x hdx) b x
  rw [ancestorNodeIds, List.mem_filter, Worklist.mem_collect huniv (nodup_keys_ofPairs _) (by
    rw [List.length_reverse]
    exact Nat.lt_succ_self _)]
  simp only [hreach, List.mem_reverse, List.contains_iff_mem, mem_keys_persisted h]
  rw [← hedge a, TransGen.tail'_iff]
  constructor
  · rintro ⟨⟨p, hp, hap⟩, -⟩
    exact ⟨p, hap, (mem_graphDependencies_iff h hedges).mp hp⟩
  · rintro ⟨p, hap, hp⟩
    refine ⟨⟨p, (mem_graphDependencies_iff h hedges).mpr hp, hap⟩, ?_⟩
    exact workflowGraph_ids workflow ▸ (h.ancestry.ids_of_needs ((hedge a).mp (TransGen.tail'_iff.mpr ⟨p, hap, hp⟩))).1

theorem nodup_ancestorNodeIds (node : LineageNode) (nodesById : Dict String LineageNode) : (ancestorNodeIds node nodesById).Nodup :=
  (Worklist.nodup_collect List.nodup_nil).filter _

/-! ### The policies -/

theorem get?_policyRecords (h : Chosen workflow ancestors base selections) (id : String) :
    get? (workspacePolicyRecords selections) id =
      ((get? selections id).filter (·.enabled)).map recordFromSelection := by
  have hkeys : (keys (selections.filter fun entry => entry.2.enabled)).Nodup :=
    h.keys_nodup.sublist (List.filter_sublist.map _)
  rw [workspacePolicyRecords, get?_map recordFromSelection]
  congr 1
  cases hget : get? selections id with
  | none =>
    rw [Option.filter_none, ← Option.not_isSome_iff_eq_none, ← mem_keys_iff, keys, List.mem_map]
    rintro ⟨entry, hentry, rfl⟩
    have := get?_of_mem h.keys_nodup (List.mem_of_mem_filter hentry)
    rw [hget] at this
    cases this
  | some selection =>
    cases henabled : selection.enabled with
    | true =>
      rw [Option.filter_some, if_pos henabled]
      exact get?_of_mem hkeys (List.mem_filter.mpr ⟨mem_of_get? hget, henabled⟩)
    | false =>
      rw [Option.filter_some, if_neg (by simp [henabled]), ← Option.not_isSome_iff_eq_none, ← mem_keys_iff, keys, List.mem_map]
      rintro ⟨entry, hentry, rfl⟩
      obtain ⟨hmem, hp⟩ := List.mem_filter.mp hentry
      have := get?_of_mem h.keys_nodup hmem
      rw [hget, Option.some.injEq] at this
      rw [← this, henabled] at hp
      cases hp

/-- What the record of a node says about its line. -/
theorem Chosen.policy_cases (h : Chosen workflow ancestors base selections) (id : String) :
    (isLineageWorktree (get? (workspacePolicyRecords selections) id) = false ∧
      (∀ name, ¬Writes selections name id) ∧
      ∀ policy, get? (workspacePolicyRecords selections) id = some policy →
        policy.sourceKind = .project ∧ policy.lineageProducer = false) ∨
    ∃ selection name, get? selections id = some selection ∧ selection.lineageProducer = true ∧
      selection.logicalWorktreeName = some name ∧ isLineageWorktree (get? (workspacePolicyRecords selections) id) = true ∧
      get? (workspacePolicyRecords selections) id = some (recordFromSelection selection) := by
  rw [get?_policyRecords h]
  cases hget : get? selections id with
  | none => exact .inl ⟨rfl, by simp [Writes, hget], by simp⟩
  | some selection =>
    obtain ⟨-, hid, plain, hbase, hline⟩ := h.nodeId hget
    obtain ⟨node, hnode, rfl⟩ := List.mem_map.mp hid
    have hplain := (h.plain _ _ hbase).2.2
    have hproducer : selection.lineageProducer = plain.lineageProducer := congrArg (·.lineageProducer) hline
    have henabled : selection.enabled = plain.enabled := congrArg (·.enabled) hline
    have hname : selection.logicalWorktreeName = plain.logicalWorktreeName := congrArg (·.logicalWorktreeName) hline
    have hmaterial : selection.materialization = plain.materialization := congrArg (·.materialization) hline
    cases hp : plain.lineageProducer with
    | true =>
      obtain ⟨hon, hcheckout, name, hplainName⟩ := hplain.producer hp
      refine .inr ⟨selection, name, rfl, hproducer.trans hp, hname.trans hplainName, ?_, ?_⟩
      · simp [Option.filter, henabled, hon, isLineageWorktree, recordFromSelection, hproducer, hp, hmaterial, hcheckout]
      · simp [Option.filter, henabled, hon]
    | false =>
      refine .inl ⟨?_, ?_, fun policy hpolicy => ?_⟩
      · cases hon : selection.enabled <;> simp [Option.filter, hon, isLineageWorktree, recordFromSelection, hproducer, hp]
      · rintro name ⟨found, hfound, hwrites, -⟩
        rw [hget, Option.some.injEq] at hfound
        rw [← hfound, hproducer, hp] at hwrites
        cases hwrites
      · have hchosen := h.chosen node hnode
        have hkind : plain.declarationKind ≠ some "worktree" := fun hkind => by simp [hplain.kind.mp hkind] at hp
        rw [hget, hbase, Option.map_some, Option.some.injEq, sourced, if_pos hkind] at hchosen
        have hrecord : policy = recordFromSelection selection := by
          cases hon : selection.enabled <;> simp [Option.filter, hon] at hpolicy
          exact hpolicy.symm
        rw [hrecord, hchosen]
        exact ⟨hplain.project.1, hp⟩

theorem isLineageWorktree_iff (h : Chosen workflow ancestors base selections) (name id : String) :
    (isLineageWorktree (get? (workspacePolicyRecords selections) id) = true ∧
      (get? (workspacePolicyRecords selections) id).bind (·.logicalWorktreeName) = some name) ↔ Writes selections name id := by
  rcases h.policy_cases id with ⟨hnot, hnone, -⟩ | ⟨selection, own, hget, hproducer, hname, hlineage, hpolicy⟩
  · exact iff_of_false (fun hboth => by simp [hnot] at hboth) (hnone name)
  · rw [and_iff_right hlineage, hpolicy, Option.bind_some, recordFromSelection, hname, Option.some.injEq]
    constructor
    · rintro rfl
      exact ⟨selection, hget, hproducer, hname⟩
    · rintro ⟨found, hfound, -, hfoundName⟩
      rw [hget, Option.some.injEq] at hfound
      rw [← hfound, hname, Option.some.injEq] at hfoundName
      exact hfoundName

/-- The nodes of a compiled plan in an order of execution. -/
def OrderedEdges (edges : List (String × String)) (executionOrder : List String) : Prop :=
  ∀ e ∈ edges, getItem (nodeOrder executionOrder) e.1 < getItem (nodeOrder executionOrder) e.2

/-- No edge leads from a writer of one worktree to a writer of another one. -/
def KeepsLines (selections : Dict String LogicalWorkspaceSelection) (edges : List (String × String)) (x : String) : Prop :=
  ∀ d, (d, x) ∈ edges → ∀ name name', Writes selections name d → Writes selections name' x → name = name'

theorem validateDirect_iff (h : Chosen workflow ancestors base selections) (hedges : CompiledEdges workflow edges) (x : String) :
    validateDirectWorktreeDependencies (persistedNode workflow selections edges x) (persistedById workflow selections edges) = .ok () ↔
      KeepsLines selections edges x := by
  have hpolicy : ∀ d, (d, x) ∈ edges → (get? (persistedById workflow selections edges) d).bind (·.workspacePolicy) =
      get? (workspacePolicyRecords selections) d := by
    intro d hd
    have hid := workflowGraph_ids workflow ▸ (h.ancestry.ids_of_needs (hedges.above _ hd)).1
    rw [persistedById_get? h, if_pos hid, Option.bind_some, persistedNode]
  unfold validateDirectWorktreeDependencies
  split
  next hlineage =>
    rw [checkAll_eq_ok]
    simp only [require_eq_ok, KeepsLines]
    refine forall_congr' fun d => ?_
    constructor
    · intro hsame hd name name' hwrites hwrites'
      obtain ⟨hline, hname⟩ := (isLineageWorktree_iff h name d).mpr hwrites
      obtain ⟨-, hname'⟩ := (isLineageWorktree_iff h name' x).mpr hwrites'
      have := hsame ((mem_graphDependencies_iff h hedges).mpr hd)
      rw [hpolicy d hd] at this
      have := this hline
      rw [hname, persistedNode, hname', Option.some.injEq] at this
      exact this
    · intro hkeeps hd
      have hd := (mem_graphDependencies_iff h hedges).mp hd
      rw [hpolicy d hd]
      intro hline
      rcases h.policy_cases d with ⟨hnot, -, -⟩ | ⟨upstream, name, hget, hproducer, hname, -, hrecord⟩
      · simp [hnot] at hline
      rcases h.policy_cases x with ⟨hnot, -, -⟩ | ⟨own, name', hget', hproducer', hname', -, hrecord'⟩
      · simp [persistedNode, hnot] at hlineage
      have hsame := hkeeps hd name name' ⟨upstream, hget, hproducer, hname⟩ ⟨own, hget', hproducer', hname'⟩
      rw [persistedNode, hrecord, hrecord', Option.bind_some, Option.bind_some, recordFromSelection, recordFromSelection, hname,
        hname', hsame]
  next hlineage =>
    refine iff_of_true rfl fun d _ name name' _ hwrites' => ?_
    exact absurd ((isLineageWorktree_iff h name' x).mpr hwrites').1 hlineage

/-- The plan comes to the choice that was made when it was compiled. -/
theorem latestSameWorktreeSource_eq (h : Chosen workflow ancestors base selections) (hedges : CompiledEdges workflow edges)
    (htotal : ∀ name a b, Writes selections name a → Writes selections name b → a ≠ b →
      TransGen (Needs (workflowGraph workflow)) a b ∨ TransGen (Needs (workflowGraph workflow)) b a)
    {name x : String} (hx : Writes selections name x) (order : Dict String Nat) (p : String) :
    latestSameWorktreeSource (persistedNode workflow selections edges x) (persistedById workflow selections edges) order = some p ↔
      WriterBefore workflow selections name p x := by
  have hcandidates : ∀ a, a ∈ (ancestorNodeIds (persistedNode workflow selections edges x) (persistedById workflow selections edges)).filter
      (fun id => isLineageWorktree ((get? (persistedById workflow selections edges) id).bind (·.workspacePolicy)) &&
        ((get? (persistedById workflow selections edges) id).bind (·.workspacePolicy)).bind (·.logicalWorktreeName) =
          (persistedNode workflow selections edges x).workspacePolicy.bind (·.logicalWorktreeName)) ↔
      Writes selections name a ∧ TransGen (Needs (workflowGraph workflow)) a x := by
    intro a
    rw [List.mem_filter, mem_ancestorNodeIds h hedges, and_comm]
    refine and_congr_left fun habove => ?_
    have hid := workflowGraph_ids workflow ▸ (h.ancestry.ids_of_needs habove).1
    have hname := ((isLineageWorktree_iff h name x).mpr hx).2
    rw [persistedById_get? h, if_pos hid, Option.bind_some, persistedNode, persistedNode, hname, Bool.and_eq_true,
      decide_eq_true_eq]
    exact isLineageWorktree_iff h name a
  have hget : ∀ y ∈ (workflowGraph workflow).map (·.1), getItem (persistedById workflow selections edges) y =
      persistedNode workflow selections edges y := by
    intro y hy
    rw [getItem, persistedById_get? h, if_pos (workflowGraph_ids workflow ▸ hy), Option.getD_some]
  have hmem : ∀ y ∈ (workflowGraph workflow).map (·.1), ∀ a,
      a ∈ ancestorNodeIds (getItem (persistedById workflow selections edges) y) (persistedById workflow selections edges) ↔
        TransGen (Needs (workflowGraph workflow)) a y := by
    intro y hy a
    rw [hget y hy]
    exact mem_ancestorNodeIds h hedges y a
  exact latestLineageSource_eq h.ancestry hmem (fun y => nodup_ancestorNodeIds _ _) hcandidates (htotal name) order p

theorem order_lt_of_above (hedges : CompiledEdges workflow edges) {executionOrder : List String}
    (horder : OrderedEdges edges executionOrder) {a x : String} (h : TransGen (Needs (workflowGraph workflow)) a x) :
    getItem (nodeOrder executionOrder) a < getItem (nodeOrder executionOrder) x := by
  induction h with
  | single hax => exact horder _ (hedges.needs _ _ hax)
  | tail _ hlast ih => exact ih.trans (horder _ (hedges.needs _ _ hlast))

/-- A node that names the writer before it passes the checks on declared sources. -/
theorem validateDeclared_ok (h : Chosen workflow ancestors base selections) (hedges : CompiledEdges workflow edges)
    {executionOrder : List String} (horder : OrderedEdges edges executionOrder) {name x p : String}
    {selection : LogicalWorkspaceSelection}
    (hpolicy : get? (workspacePolicyRecords selections) x = some (recordFromSelection selection))
    (hname : selection.logicalWorktreeName = some name) (hsource : selection.sourceNodeId = some p)
    (hbefore : WriterBefore workflow selections name p x) :
    validateDeclaredWorkspaceSource (persistedNode workflow selections edges x) (persistedById workflow selections edges)
      (nodeOrder executionOrder) = .ok () := by
  have hid := workflowGraph_ids workflow ▸ (h.ancestry.ids_of_needs hbefore.above).1
  obtain ⟨hline, hpname⟩ := (isLineageWorktree_iff h name p).mpr hbefore.writes
  cases hupstream : get? (workspacePolicyRecords selections) p with
  | none => simp [hupstream, isLineageWorktree] at hline
  | some upstream =>
    rw [hupstream] at hline hpname
    simp only [isLineageWorktree, Option.any_some, Bool.and_eq_true, decide_eq_true_eq] at hline
    have hget : get? (persistedById workflow selections edges) p = some (persistedNode workflow selections edges p) := by
      rw [persistedById_get? h, if_pos hid]
    have hmem : p ∈ ancestorNodeIds (persistedNode workflow selections edges x) (persistedById workflow selections edges) :=
      (mem_ancestorNodeIds h hedges x p).mpr hbefore.above
    have hx : (persistedNode workflow selections edges x).workspacePolicy = some (recordFromSelection selection) := hpolicy
    have hp : (persistedNode workflow selections edges p).workspacePolicy = some upstream := hupstream
    unfold validateDeclaredWorkspaceSource
    simp only [hx, recordFromSelection, hsource, Option.bind_some, hget, Option.map_some, hp, hname]
    split
    · rfl
    · simp only [check_then_eq_ok, require_eq_ok, Option.any_some, Bool.and_eq_true]
      exact ⟨List.contains_iff_mem.mpr hmem, order_lt_of_above hedges horder hbefore.above, ⟨hline.1.1, hline.2⟩, hpname⟩

theorem validateLineage_iff (h : Chosen workflow ancestors base selections) (hedges : CompiledEdges workflow edges)
    (htotal : ∀ name a b, Writes selections name a → Writes selections name b → a ≠ b →
      TransGen (Needs (workflowGraph workflow)) a b ∨ TransGen (Needs (workflowGraph workflow)) b a)
    {executionOrder : List String} (horder : OrderedEdges edges executionOrder) (x : String) :
    validateWorkspaceSourceLineage (persistedNode workflow selections edges x) (persistedById workflow selections edges)
      (nodeOrder executionOrder) = .ok () ↔ KeepsLines selections edges x := by
  rw [← validateDirect_iff h hedges]
  unfold validateWorkspaceSourceLineage
  rcases h.policy_cases x with ⟨hnot, -, hproject⟩ | ⟨selection, name, hget, hproducer, hname, hlineage, hpolicy⟩
  · have hdirect : validateDirectWorktreeDependencies (persistedNode workflow selections edges x)
        (persistedById workflow selections edges) = .ok () := by
      rw [validateDirectWorktreeDependencies, if_neg (by simp [persistedNode, hnot])]
    rw [hdirect]
    cases hpolicy : get? (workspacePolicyRecords selections) x with
    | none => simp [persistedNode, hpolicy]
    | some policy =>
      have hx : (persistedNode workflow selections edges x).workspacePolicy = some policy := hpolicy
      rw [hpolicy] at hnot
      simp [hx, validateDeclaredWorkspaceSource, (hproject policy hpolicy).1, hnot, bind, Except.bind]
  · have hx : (persistedNode workflow selections edges x).workspacePolicy = some (recordFromSelection selection) := hpolicy
    obtain ⟨hsource, hkind⟩ := h.source_iff htotal hget hproducer hname
    have hwrites : Writes selections name x := ⟨selection, hget, hproducer, hname⟩
    have hlatest := latestSameWorktreeSource_eq h hedges htotal hwrites (nodeOrder executionOrder)
    simp only [hx, check_then_eq_ok, if_pos (hpolicy ▸ hlineage)]
    cases hnode : selection.sourceNodeId with
    | none =>
      have hnone : latestSameWorktreeSource (persistedNode workflow selections edges x) (persistedById workflow selections edges)
          (nodeOrder executionOrder) = none := by
        refine Option.eq_none_iff_forall_ne_some.mpr fun p hp => ?_
        have := (hsource p).mpr ((hlatest p).mp hp)
        rw [hnode] at this
        cases this
      have hprojectKind : selection.sourceKind = .project := by
        cases hcase : selection.sourceKind with
        | project => rfl
        | node => exact absurd hnode (hkind.mp hcase)
      have hdeclared : validateDeclaredWorkspaceSource (persistedNode workflow selections edges x)
          (persistedById workflow selections edges) (nodeOrder executionOrder) = .ok () := by
        simp [validateDeclaredWorkspaceSource, hx, recordFromSelection, hprojectKind]
      simp [hdeclared, hnone, recordFromSelection, hprojectKind, hnode]
    | some p =>
      have hbefore := (hsource p).mp hnode
      have hnodeKind : selection.sourceKind = .node := hkind.mpr (by simp [hnode])
      have hdeclared := validateDeclared_ok h hedges horder hpolicy hname hnode hbefore
      simp [hdeclared, (hlatest p).mpr hbefore, recordFromSelection, hnodeKind, hnode]

end Persisted

/-! ## The chain -/

theorem mem_of_writes {workflow : WorkflowPlan} {ancestors : Dict String (List String)} {base selections : Dict String LogicalWorkspaceSelection}
    (h : Chosen workflow ancestors base selections) {name id : String} (hwrites : Writes selections name id) :
    id ∈ workflow.nodes.map (·.id) := by
  obtain ⟨selection, hget, -⟩ := hwrites
  exact (h.nodeId hget).2.1

/-- No unordered writers are reported exactly when the graph orders the writers of each worktree. Then each of them starts
from the one just before it, and the compiled plan is accepted when it is read back exactly when none of its edges leads
from one worktree into another. -/
theorem worktree_lineage (workflow : WorkflowPlan) (selections : Dict String LogicalWorkspaceSelection)
    (h : logicalWorkspaceSelections workflow = .ok selections) :
    (unorderedWriterDiagnostics workflow selections = .ok [] ↔ ∀ name a b, Writes selections name a → Writes selections name b →
      a ≠ b → TransGen (Needs (workflowGraph workflow)) a b ∨ TransGen (Needs (workflowGraph workflow)) b a) ∧
    (unorderedWriterDiagnostics workflow selections = .ok [] →
      (∀ name x selection, get? selections x = some selection → selection.lineageProducer = true →
        selection.logicalWorktreeName = some name →
        (∀ p, selection.sourceNodeId = some p ↔ WriterBefore workflow selections name p x) ∧
          (selection.sourceKind = .node ↔ selection.sourceNodeId ≠ none)) ∧
      ∀ edges executionOrder, CompiledEdges workflow edges → OrderedEdges edges executionOrder →
        (validateLineages (persistedNodes workflow selections edges) executionOrder = .ok () ↔
          ∀ e ∈ edges, ∀ name name', Writes selections name e.1 → Writes selections name' e.2 → name = name')) := by
  obtain ⟨ancestors, base, hancestors, hchosen⟩ := chosen_of_ok h
  have hordered := unorderedWriterDiagnostics_eq_nil hchosen hancestors
  refine ⟨hordered, fun hnil => ?_⟩
  have htotal := hordered.mp hnil
  refine ⟨fun name x selection hget hproducer hname => hchosen.source_iff htotal hget hproducer hname, ?_⟩
  intro edges executionOrder hedges horder
  rw [validateLineages, checkAll_eq_ok, persistedNodes_eq]
  simp only [List.forall_mem_map]
  have hone : ∀ node ∈ workflow.nodes, validateWorkspaceSourceLineage (persistedNode workflow selections edges node.id)
      (ofPairs (((workflow.nodes.map (·.id)).map (persistedNode workflow selections edges)).map fun node => (node.id, node)))
      (nodeOrder executionOrder) = .ok () ↔ KeepsLines selections edges node.id := by
    intro node _
    rw [← persistedNodes_eq]
    exact validateLineage_iff hchosen hedges htotal horder node.id
  constructor
  · rintro hall ⟨d, x⟩ he name name' hwrites hwrites'
    obtain ⟨node, hnode, rfl⟩ := List.mem_map.mp (mem_of_writes hchosen hwrites')
    exact (hone node hnode).mp (hall node hnode) d he name name' hwrites hwrites'
  · intro hkeeps node hnode
    exact (hone node hnode).mpr fun d hd name name' hwrites hwrites' => hkeeps _ hd name name' hwrites hwrites'

/-- Two writers of one worktree with a node between them. -/
def lineWorkflow : WorkflowPlan where
  nodes := [{ id := "draft", mode := .sequential }, { id := "notes", mode := .sequential, needs := ["draft"], worktree := some "none" },
    { id := "ship", mode := .sequential, needs := ["notes"] }]
  worktrees := [("main", { kind := "worktree" })]

def writer (id : String) (source : Option String) : LogicalWorkspaceSelection where
  nodeId := id
  enabled := true
  logicalWorktreeName := some "main"
  declarationKind := some "worktree"
  materialization := .worktreeCheckout
  sourceKind := if source = none then .project else .node
  sourceNodeId := source
  writable := true
  lineageProducer := true

def lineSelections : Dict String LogicalWorkspaceSelection :=
  [("draft", writer "draft" none),
   ("notes", { nodeId := "notes", enabled := false, logicalWorktreeName := none, declarationKind := none, materialization := .projectRoot
               sourceKind := .project, sourceNodeId := none, writable := false, lineageProducer := false }),
   ("ship", writer "ship" (some "draft"))]

theorem worktree_lineage_line : WriterBefore lineWorkflow lineSelections "main" "draft" "ship" := by
  have hselections : logicalWorkspaceSelections lineWorkflow = .ok lineSelections := by decide +kernel
  have hlineage := worktree_lineage lineWorkflow lineSelections hselections
  have hneeds : TransGen (Needs (workflowGraph lineWorkflow)) "draft" "ship" :=
    .tail (.single ⟨("notes", ["draft"]), by decide, rfl, by decide⟩) ⟨("ship", ["notes"]), by decide, rfl, by decide⟩
  have hwriters : ∀ name id, Writes lineSelections name id → id = "draft" ∨ id = "ship" := by
    rintro name id ⟨selection, hget, hproducer, -⟩
    have hmem := mem_of_get? hget
    simp only [lineSelections, List.mem_cons, Prod.mk.injEq, List.not_mem_nil, or_false] at hmem
    rcases hmem with ⟨hid, -⟩ | ⟨-, rfl⟩ | ⟨hid, -⟩
    · exact .inl hid
    · cases hproducer
    · exact .inr hid
  have hordered : unorderedWriterDiagnostics lineWorkflow lineSelections = .ok [] := by
    refine hlineage.1.mpr fun name a b ha hb hne => ?_
    rcases hwriters name a ha with rfl | rfl <;> rcases hwriters name b hb with rfl | rfl
    · exact absurd rfl hne
    · exact .inl hneeds
    · exact .inr hneeds
    · exact absurd rfl hne
  have hsource := ((hlineage.2 hordered).1 "main" "ship" (writer "ship" (some "draft")) rfl rfl rfl).1 "draft"
  exact hsource.mp rfl

end Crewplane.Workspace
