import Crewplane.Composition.Instances
/-
# What a traversal composes

One invariant says what a part of a traversal has done (`Traversed`): which local
nodes of which instances it composed, what it registered and which bindings it
consumed. It holds of the empty part, of two parts after one another, of an import
with the prerequisites attached and of a foreach node with its template, and so, by
induction on the fuel, of every file (`composeFile_traversed`).
-/
namespace Crewplane.Composition

open Crewplane.Lib Crewplane.Workflow Crewplane.Prompt

def idsOf (nodes : List ComposedNode) : List String := nodes.map (·.payload.id)

def templateNodes (templates : Dict String ComposedForeach) : List ComposedNode := templates.flatMap (·.2.nodes)

@[simp] theorem idsOf_append (first second : List ComposedNode) : idsOf (first ++ second) = idsOf first ++ idsOf second :=
  List.map_append

@[simp] theorem templateNodes_append (first second : Dict String ComposedForeach) :
    templateNodes (first ++ second) = templateNodes first ++ templateNodes second := List.flatMap_append

/-- The composer knows each node once, and each template by a node. -/
structure Composer.Registered (composer : Composer) : Prop where
  nodup : (Dict.keys composer.nodeSources).Nodup
  groups : ∀ group ∈ Dict.keys composer.foreachTemplates, group ∈ Dict.keys composer.nodeSources

section Parts

variable (project : Project) (root : CompositionContext)

/-- A `needs` entry of an import that the instance is part of, as the importing instance reads it. -/
def Prerequisite (context : CompositionContext) (nodeId : String) : Prop :=
  ∃ outer importer spec path child inner, Descends project root outer importer ∧ spec ∈ importer.workflow.imports ∧
    resolveImportFile project spec = .ok path ∧ contextOf project (importArgs importer spec path) = .ok child ∧
    Descends project child inner context ∧ ∃ need ∈ spec.needs, nodeId = importer.resolve need

/-- A composed node is a local node of an instance, with prerequisites added and a worktree selected. -/
structure Derived (context : CompositionContext) (written : NodeSpec) (node : ComposedNode) : Prop where
  payload : ∃ payload consumed, updatedNode context written.sourcePath written.payload = .ok (payload, consumed) ∧
    node.payload = { payload with needs := node.payload.needs, worktree := node.payload.worktree }
  source : node.sourcePath = written.sourcePath
  needs : ∀ need ∈ written.payload.needs, context.resolve need ∈ node.payload.needs
  only : ∀ nodeId ∈ node.payload.needs, (∃ need ∈ written.payload.needs, nodeId = context.resolve need) ∨
    Prerequisite project root context nodeId

/-- The bindings that the prompt of a local node consumes. -/
def Consumes (context : CompositionContext) (written : NodeSpec) (bindingId : String) : Prop :=
  ∃ payload consumed, updatedNode context written.sourcePath written.payload = .ok (payload, consumed) ∧
    bindingId ∈ consumed

/-- A composed node with what it was composed from. -/
structure Site where
  context : CompositionContext
  written : NodeSpec
  node : ComposedNode

structure Traversed (covered : CompositionContext → NodeSpec → Prop) (before after : Composer)
    (nodes : List ComposedNode) (consumed : List String) (templates : Dict String ComposedForeach) : Prop where
  registered : after.Registered
  templates_eq : after.foreachTemplates = before.foreachTemplates ++ templates
  perm : (Dict.keys after.nodeSources).Perm
    (Dict.keys before.nodeSources ++ (idsOf nodes ++ idsOf (templateNodes templates)))
  groups : ∀ group ∈ Dict.keys templates, group ∈ idsOf nodes ++ idsOf (templateNodes templates)
  sites : ∃ kept templated : List Site, kept.map Site.node = nodes ∧ templated.map Site.node = templateNodes templates ∧
    (∀ site ∈ kept ++ templated, Derived project root site.context site.written site.node) ∧
    ∀ context written, covered context written ↔
      ∃ site ∈ kept ++ templated, site.context = context ∧ site.written = written
  consumes : ∀ bindingId, bindingId ∈ consumed ↔ ∃ context written, covered context written ∧
    Consumes context written bindingId

variable {project root}

variable {covered covered' : CompositionContext → NodeSpec → Prop} {before middle after : Composer}
  {nodes nodes' : List ComposedNode} {consumed consumed' : List String} {templates templates' : Dict String ComposedForeach}

theorem Traversed.congr (h : Traversed project root covered before after nodes consumed templates)
    (hcovered : ∀ context written, covered context written ↔ covered' context written) :
    Traversed project root covered' before after nodes consumed templates := by
  have : covered = covered' := by
    funext context written
    exact propext (hcovered context written)
  rwa [← this]

theorem Traversed.nil (hbefore : before.Registered) :
    Traversed project root (fun _ _ => False) before before [] [] [] := by
  refine ⟨hbefore, by simp, by simp [idsOf, templateNodes], by simp [Dict.keys], ⟨[], [], ?_⟩, by simp⟩
  simp [templateNodes]

theorem Traversed.append (hfirst : Traversed project root covered before middle nodes consumed templates)
    (hthen : Traversed project root covered' middle after nodes' consumed' templates') :
    Traversed project root (fun context written => covered context written ∨ covered' context written) before after
      (nodes ++ nodes') (consumed ++ consumed') (templates ++ templates') where
  registered := hthen.registered
  templates_eq := by rw [hthen.templates_eq, hfirst.templates_eq, List.append_assoc]
  perm := by
    refine hthen.perm.trans ((hfirst.perm.append_right _).trans ?_)
    rw [idsOf_append, templateNodes_append, idsOf_append, List.append_assoc, List.perm_append_left_iff]
    have hswap : (idsOf (templateNodes templates) ++ idsOf nodes').Perm (idsOf nodes' ++ idsOf (templateNodes templates)) :=
      List.perm_append_comm
    simpa using (hswap.append_right (idsOf (templateNodes templates'))).append_left (idsOf nodes)
  groups := by
    intro group hgroup
    rw [Dict.keys, List.map_append] at hgroup
    have hone := hfirst.groups group
    have htwo := hthen.groups group
    simp only [idsOf_append, templateNodes_append, List.mem_append] at hone htwo ⊢
    rcases List.mem_append.mp hgroup with hgroup | hgroup
    · exact (hone hgroup).elim (fun h => Or.inl (Or.inl h)) fun h => Or.inr (Or.inl h)
    · exact (htwo hgroup).elim (fun h => Or.inl (Or.inr h)) fun h => Or.inr (Or.inr h)
  sites := by
    obtain ⟨kept, templated, hkept, htemplated, hderived, hcovered⟩ := hfirst.sites
    obtain ⟨kept', templated', hkept', htemplated', hderived', hcovered'⟩ := hthen.sites
    have hmem : ∀ site, site ∈ (kept ++ kept') ++ (templated ++ templated') ↔
        site ∈ kept ++ templated ∨ site ∈ kept' ++ templated' := by
      intro site
      simp only [List.mem_append]
      tauto
    refine ⟨kept ++ kept', templated ++ templated', by rw [List.map_append, hkept, hkept'],
      by rw [List.map_append, htemplated, htemplated', templateNodes_append], ?_, ?_⟩
    · intro site hsite
      rcases (hmem site).mp hsite with hsite | hsite
      · exact hderived site hsite
      · exact hderived' site hsite
    · intro context written
      rw [hcovered, hcovered']
      simp only [hmem, or_and_right, exists_or]
  consumes := by
    intro bindingId
    rw [List.mem_append, hfirst.consumes, hthen.consumes]
    constructor
    · rintro (⟨context, written, hcovered, h⟩ | ⟨context, written, hcovered, h⟩)
      · exact ⟨context, written, Or.inl hcovered, h⟩
      · exact ⟨context, written, Or.inr hcovered, h⟩
    · rintro ⟨context, written, hcovered | hcovered, h⟩
      · exact Or.inl ⟨context, written, hcovered, h⟩
      · exact Or.inr ⟨context, written, hcovered, h⟩

/-- Changing the nodes of a part without their ids. -/
theorem Traversed.map (h : Traversed project root covered before after nodes consumed templates)
    {f : ComposedNode → ComposedNode} (hid : ∀ node, (f node).payload.id = node.payload.id)
    (hf : ∀ context written node, covered context written → Derived project root context written node →
      Derived project root context written (f node)) :
    Traversed project root covered before after (nodes.map f) consumed templates := by
  have hids : idsOf (nodes.map f) = idsOf nodes := by
    unfold idsOf
    rw [List.map_map]
    exact List.map_congr_left fun node _ => hid node
  refine ⟨h.registered, h.templates_eq, by rw [hids]; exact h.perm, by rw [hids]; exact h.groups, ?_, h.consumes⟩
  obtain ⟨kept, templated, rfl, htemplated, hderived, hcovered⟩ := h.sites
  refine ⟨kept.map fun site => { site with node := f site.node }, templated, by simp [Function.comp_def], htemplated,
    ?_, ?_⟩
  · intro site hsite
    rcases List.mem_append.mp hsite with hsite | hsite
    · obtain ⟨site', hsite', rfl⟩ := List.mem_map.mp hsite
      have hmem := List.mem_append_left templated hsite'
      exact hf _ _ _ ((hcovered _ _).mpr ⟨site', hmem, rfl, rfl⟩) (hderived site' hmem)
    · exact hderived site (List.mem_append_right _ hsite)
  · intro context written
    rw [hcovered]
    simp only [List.mem_append, List.mem_map, or_and_right, exists_or]
    refine or_congr_left ⟨?_, ?_⟩
    · rintro ⟨site, hsite, h⟩
      exact ⟨_, ⟨site, hsite, rfl⟩, h⟩
    · rintro ⟨_, ⟨site, hsite, rfl⟩, h⟩
      exact ⟨site, hsite, h⟩

theorem derived_materializeSelector {context : CompositionContext} {written : NodeSpec} {node : ComposedNode}
    (composedCount rootCount : Nat) (h : Derived project root context written node) :
    Derived project root context written (materializeSelector composedCount rootCount node) := by
  unfold materializeSelector
  split
  · obtain ⟨payload, consumed, hupdated, hnode⟩ := h.payload
    refine ⟨⟨payload, consumed, hupdated, ?_⟩, h.source, h.needs, h.only⟩
    dsimp only
    rw [hnode]
  · exact h

theorem materializeSelector_id (composedCount rootCount : Nat) (node : ComposedNode) :
    (materializeSelector composedCount rootCount node).payload.id = node.payload.id := by
  unfold materializeSelector
  split <;> rfl

theorem materializeSelectors_eq_map (nodes : List ComposedNode) (composedCount rootCount : Nat) :
    ∃ f : ComposedNode → ComposedNode, materializeSelectors nodes composedCount rootCount = nodes.map f ∧
      (∀ node, (f node).payload.id = node.payload.id) ∧
      ∀ (project : Project) root context written node, Derived project root context written node →
        Derived project root context written (f node) := by
  unfold materializeSelectors
  split
  · exact ⟨id, by simp, fun _ => rfl, fun _ _ _ _ _ h => h⟩
  · exact ⟨_, rfl, materializeSelector_id _ _, fun _ _ _ _ _ h => derived_materializeSelector _ _ h⟩

theorem mem_addNeeds (needs prerequisites : List String) (need : String) :
    need ∈ addNeeds needs prerequisites ↔ need ∈ needs ∨ need ∈ prerequisites := by
  have hfold : ∀ (more kept : List String),
      need ∈ more.foldl (fun kept need => if need ∈ kept then kept else kept ++ [need]) kept ↔
        need ∈ kept ∨ need ∈ more := by
    intro more
    induction more with
    | nil => simp
    | cons first more ih =>
      intro kept
      rw [List.foldl_cons, ih, List.mem_cons]
      by_cases hfirst : first ∈ kept
      · rw [if_pos hfirst]
        constructor
        · exact fun h => h.imp id Or.inr
        · rintro (h | rfl | h)
          · exact Or.inl h
          · exact Or.inl hfirst
          · exact Or.inr h
      · rw [if_neg hfirst, List.mem_append, List.mem_singleton, or_assoc]
  unfold addNeeds
  rw [hfold]
  simp

theorem derived_attachPrerequisites {context : CompositionContext} {written : NodeSpec} {node : ComposedNode}
    {entries prerequisites : List String}
    (hall : ∀ nodeId ∈ prerequisites, Prerequisite project root context nodeId)
    (h : Derived project root context written node) :
    Derived project root context written (attachPrerequisites entries prerequisites node) := by
  unfold attachPrerequisites
  split
  · obtain ⟨payload, consumed, hupdated, hnode⟩ := h.payload
    refine ⟨⟨payload, consumed, hupdated, ?_⟩, h.source, ?_, ?_⟩
    · dsimp only
      rw [hnode]
    · intro need hneed
      exact (mem_addNeeds _ _ _).mpr (Or.inl (h.needs need hneed))
    · intro nodeId hnodeId
      rcases (mem_addNeeds _ _ _).mp hnodeId with hnodeId | hnodeId
      · exact h.only nodeId hnodeId
      · exact Or.inr (hall nodeId hnodeId)
  · exact h

theorem attachPrerequisites_id (entries prerequisites : List String) (node : ComposedNode) :
    (attachPrerequisites entries prerequisites node).payload.id = node.payload.id := by
  unfold attachPrerequisites
  split <;> rfl

theorem Traversed.attach (h : Traversed project root covered before after nodes consumed templates)
    {childResult attached : CompositionResult} {prerequisites : List String} {spec : ImportSpec}
    (hnodes : childResult.nodes = nodes) (hconsumed : childResult.consumedParamBindings = consumed)
    (hall : ∀ context written, covered context written →
      ∀ nodeId ∈ prerequisites, Prerequisite project root context nodeId)
    (hattached : attachImportPrerequisites childResult prerequisites spec = .ok attached) :
    Traversed project root covered before after attached.nodes attached.consumedParamBindings templates := by
  unfold attachImportPrerequisites at hattached
  subst hnodes hconsumed
  split at hattached
  · cases hattached
    exact h
  · split at hattached
    · simp at hattached
    · cases hattached
      exact h.map (attachPrerequisites_id _ _) fun context written node hcovered =>
        derived_attachPrerequisites (hall context written hcovered)

/-! ## One node -/

theorem registerNode_eq_ok {composer composer' : Composer} {node : ComposedNode}
    (h : registerNode composer node = .ok composer') :
    node.payload.id ∉ Dict.keys composer.nodeSources ∧
      composer' = { composer with nodeSources := composer.nodeSources ++ [(node.payload.id, node.sourcePath)] } := by
  unfold registerNode at h
  split at h
  · simp at h
  · rename_i hget
    have hfresh : node.payload.id ∉ Dict.keys composer.nodeSources := by
      rw [Dict.mem_keys_iff, hget]
      simp
    cases h
    exact ⟨hfresh, by rw [Dict.setItem_of_not_mem hfresh]⟩

theorem derived_composeLocalNode {context : CompositionContext} {written : NodeSpec} {composed : ComposedNode}
    {consumed : List String} (h : composeLocalNode context written = .ok (composed, consumed)) :
    Derived project root context written composed := by
  obtain ⟨hupdated, hsource⟩ := composeLocalNode_eq_ok h
  have hneeds := (updatedNode_payload hupdated).2.2.1
  refine ⟨⟨composed.payload, consumed, hupdated, rfl⟩, hsource, ?_, ?_⟩
  · intro need hneed
    rw [hneeds]
    exact List.mem_map_of_mem hneed
  · intro nodeId hnodeId
    rw [hneeds] at hnodeId
    obtain ⟨need, hneed, rfl⟩ := List.mem_map.mp hnodeId
    exact Or.inl ⟨need, hneed, rfl⟩

theorem consumes_iff {context : CompositionContext} {written : NodeSpec} {composed : ComposedNode}
    {consumed : List String} (h : composeLocalNode context written = .ok (composed, consumed)) (bindingId : String) :
    Consumes context written bindingId ↔ bindingId ∈ consumed := by
  obtain ⟨hupdated, -⟩ := composeLocalNode_eq_ok h
  constructor
  · rintro ⟨payload, consumed', hupdated', hmem⟩
    rw [hupdated] at hupdated'
    cases hupdated'
    exact hmem
  · exact fun hmem => ⟨composed.payload, consumed, hupdated, hmem⟩

/-- A node without a template. -/
theorem traversed_node {context : CompositionContext} {written : NodeSpec} {composed : ComposedNode}
    {consumed : List String} (hbefore : before.Registered) (hnode : composeLocalNode context written = .ok (composed, consumed))
    (hregister : registerNode before composed = .ok after) :
    Traversed project root (fun context' written' => context' = context ∧ written' = written) before after [composed]
      consumed [] := by
  obtain ⟨hfresh, rfl⟩ := registerNode_eq_ok hregister
  have hkeys : Dict.keys (before.nodeSources ++ [(composed.payload.id, composed.sourcePath)]) =
      Dict.keys before.nodeSources ++ [composed.payload.id] := by
    simp [Dict.keys]
  refine ⟨⟨?_, ?_⟩, by simp, by simp [hkeys, idsOf, templateNodes], by simp [Dict.keys],
    ⟨[⟨context, written, composed⟩], [], rfl, rfl, ?_, ?_⟩, ?_⟩
  · rw [hkeys]
    refine List.nodup_append.mpr ⟨hbefore.nodup, by simp, ?_⟩
    intro nodeId hnodeId other hother
    rw [List.mem_singleton.mp hother]
    rintro rfl
    exact hfresh hnodeId
  · intro group hgroup
    rw [hkeys]
    exact List.mem_append_left _ (hbefore.groups group hgroup)
  · intro site hsite
    obtain rfl : site = ⟨context, written, composed⟩ := by simpa using hsite
    exact derived_composeLocalNode hnode
  · intro context' written'
    simp [eq_comm]
  · intro bindingId
    rw [← consumes_iff hnode]
    constructor
    · exact fun h => ⟨context, written, ⟨rfl, rfl⟩, h⟩
    · rintro ⟨_, _, ⟨rfl, rfl⟩, h⟩
      exact h

/-! ## Whole subtrees -/

/-- The local nodes of an instance and of all below it. -/
def Below (project : Project) (context below : CompositionContext) (written : NodeSpec) : Prop :=
  (∃ frames, Descends project context frames below) ∧ below.Keeps written

def BelowImport (project : Project) (context : CompositionContext) (spec : ImportSpec) (below : CompositionContext)
    (written : NodeSpec) : Prop :=
  ∃ path child, resolveImportFile project spec = .ok path ∧
    contextOf project (importArgs context spec path) = .ok child ∧ Below project child below written

/-- The template of a foreach node. -/
def BelowNode (project : Project) (context : CompositionContext) (node : NodeSpec) (below : CompositionContext)
    (written : NodeSpec) : Prop :=
  ∃ group consumed rawPath path child, composeLocalNode context node = .ok (group, consumed) ∧
    group.payload.mode = .foreach ∧ group.payload.workflow = some rawPath ∧
    resolveImportFile project (foreachSpec group rawPath) = .ok path ∧
    contextOf project (templateArgs context group.payload path) = .ok child ∧ Below project child below written

theorem below_iff {context below : CompositionContext} {written : NodeSpec} :
    Below project context below written ↔ (∃ spec ∈ context.workflow.imports, BelowImport project context spec below written) ∨
      ∃ node, context.Keeps node ∧ ((below = context ∧ written = node) ∨ BelowNode project context node below written) := by
  constructor
  · rintro ⟨⟨frames, hdescends⟩, hkeeps⟩
    cases hdescends with
    | here => exact Or.inr ⟨written, hkeeps, Or.inl ⟨rfl, rfl⟩⟩
    | step hchild hbelow =>
      cases hchild with
      | imported hspec hpath hcontext => exact Or.inl ⟨_, hspec, _, _, hpath, hcontext, ⟨_, hbelow⟩, hkeeps⟩
      | template hnode hgroup hmode hworkflow hpath hcontext =>
        exact Or.inr ⟨_, hnode, Or.inr ⟨_, _, _, _, _, hgroup, hmode, hworkflow, hpath, hcontext, ⟨_, hbelow⟩, hkeeps⟩⟩
  · rintro (⟨spec, hspec, path, child, hpath, hcontext, ⟨frames, hbelow⟩, hkeeps⟩ | ⟨node, hnode, h⟩)
    · exact ⟨⟨_, Descends.step (Child.imported hspec hpath hcontext) hbelow⟩, hkeeps⟩
    · rcases h with ⟨rfl, rfl⟩ | ⟨group, consumed, rawPath, path, child, hgroup, hmode, hworkflow, hpath, hcontext,
        ⟨frames, hbelow⟩, hkeeps⟩
      · exact ⟨⟨_, Descends.here _⟩, hnode⟩
      · exact ⟨⟨_, Descends.step (Child.template hnode hgroup hmode hworkflow hpath hcontext) hbelow⟩, hkeeps⟩

variable (project root) in
/-- What a traversal of a file promises to the file that imports it. -/
def TraverseOk (traverse : Traverse) : Prop :=
  ∀ args before result after, before.Registered → traverse args before = .ok (result, after) →
    ∃ context, contextOf project args = .ok context ∧ ∀ outer, Descends project root outer context →
      ∃ templates, Traversed project root (Below project context) before after result.nodes result.consumedParamBindings
        templates

variable {traverse : Traverse} {context : CompositionContext} {outer : List Frame}

theorem composeImport_traversed (htraverse : TraverseOk project root traverse) (hcontext : Descends project root outer context)
    {spec : ImportSpec} (hspec : spec ∈ context.workflow.imports) (hbefore : before.Registered) {result : CompositionResult}
    (h : composeImport project traverse context spec before = .ok (result, after)) :
    ∃ templates, Traversed project root (BelowImport project context spec) before after result.nodes
      result.consumedParamBindings templates := by
  unfold composeImport at h
  obtain ⟨path, hpath, h⟩ := (do_eq_ok ..).mp h
  obtain ⟨⟨childResult, composer⟩, hchild, h⟩ := (do_eq_ok ..).mp h
  obtain ⟨-, h⟩ := (check_then_eq_ok ..).mp h
  obtain ⟨attached, hattached, h⟩ := (do_eq_ok ..).mp h
  cases h
  obtain ⟨child, hargs, hbelow⟩ := htraverse _ _ _ _ hbefore hchild
  have hstep : Child project context _ child := Child.imported hspec hpath hargs
  obtain ⟨templates, htraversed⟩ := hbelow _ (hcontext.trans (Descends.step hstep (Descends.here child)))
  refine ⟨templates, (htraversed.attach rfl rfl ?_ hattached).congr ?_⟩
  · rintro below written ⟨⟨inner, hinner⟩, -⟩ nodeId hnodeId
    obtain ⟨need, hneed, rfl⟩ := List.mem_map.mp hnodeId
    exact ⟨outer, context, spec, path, child, inner, hcontext, hspec, hpath, hargs, hinner, need, hneed, rfl⟩
  · intro below written
    constructor
    · exact fun h => ⟨path, child, hpath, hargs, h⟩
    · rintro ⟨path', child', hpath', hargs', h⟩
      rw [hpath] at hpath'
      cases hpath'
      rw [hargs] at hargs'
      cases hargs'
      exact h

theorem composeImports_traversed (htraverse : TraverseOk project root traverse)
    (hcontext : Descends project root outer context) : ∀ (specs : List ImportSpec) (composed result : CompositionResult)
    (start : Composer), (∀ spec ∈ specs, spec ∈ context.workflow.imports) →
    Traversed project root covered start before composed.nodes composed.consumedParamBindings templates →
    composeImports project traverse context specs composed before = .ok (result, after) →
    ∃ templates', Traversed project root
      (fun below written => covered below written ∨ ∃ spec ∈ specs, BelowImport project context spec below written)
      start after result.nodes result.consumedParamBindings templates' := by
  intro specs
  induction specs generalizing before templates covered with
  | nil =>
    intro composed result start _ hstart h
    cases h
    exact ⟨templates, hstart.congr (by simp)⟩
  | cons spec specs ih =>
    intro composed result start hspecs hstart h
    rw [composeImports] at h
    obtain ⟨⟨childResult, composer⟩, hchild, h⟩ := (do_eq_ok ..).mp h
    obtain ⟨worktrees, -, h⟩ := (do_eq_ok ..).mp h
    obtain ⟨templates', htraversed⟩ := composeImport_traversed htraverse hcontext (hspecs spec List.mem_cons_self)
      hstart.registered hchild
    obtain ⟨templates'', hend⟩ := ih _ result start (fun other hother => hspecs other (List.mem_cons_of_mem _ hother))
      (hstart.append htraversed) h
    refine ⟨templates'', hend.congr ?_⟩
    intro below written
    simp only [List.mem_cons, exists_eq_or_imp, or_assoc]

/-- Moving the last nodes of a part into a template. -/
theorem Traversed.close {inner : List ComposedNode} {group : String} {template : ComposedForeach} {composer : Composer}
    (h : Traversed project root covered before after (nodes ++ inner) consumed templates)
    (hinner : template.nodes = inner) (hgroup : group ∈ idsOf nodes) (hfresh : group ∉ Dict.keys after.foreachTemplates)
    (hsources : composer.nodeSources = after.nodeSources)
    (htemplates : composer.foreachTemplates = after.foreachTemplates.setItem group template) :
    Traversed project root covered before composer nodes consumed (templates ++ [(group, template)]) := by
  rw [Dict.setItem_of_not_mem hfresh] at htemplates
  have hnodes : templateNodes (templates ++ [(group, template)]) = templateNodes templates ++ inner := by
    simp [templateNodes, hinner]
  have hlast : group ∈ Dict.keys after.nodeSources :=
    h.perm.mem_iff.mpr (List.mem_append_right _ (List.mem_append_left _ (by simp [hgroup])))
  refine ⟨⟨by rw [hsources]; exact h.registered.nodup, ?_⟩, ?_, ?_, ?_, ?_, h.consumes⟩
  · intro other hother
    rw [htemplates, Dict.keys, List.map_append] at hother
    rw [hsources]
    rcases List.mem_append.mp hother with hother | hother
    · exact h.registered.groups other hother
    · obtain rfl : other = group := by simpa using hother
      exact hlast
  · rw [htemplates, h.templates_eq, List.append_assoc]
  · rw [hsources, hnodes]
    refine h.perm.trans (List.Perm.append_left _ ?_)
    rw [idsOf_append, idsOf_append, List.append_assoc]
    exact List.Perm.append_left _ List.perm_append_comm
  · intro other hother
    rw [hnodes]
    rw [Dict.keys, List.map_append] at hother
    rcases List.mem_append.mp hother with hother | hother
    · have := h.groups other hother
      simp only [idsOf_append, List.mem_append] at this ⊢
      tauto
    · obtain rfl : other = group := by simpa using hother
      exact List.mem_append_left _ hgroup
  · obtain ⟨kept, templated, hkept, htemplated, hderived, hcovered⟩ := h.sites
    obtain ⟨front, back, rfl, hfront, hback⟩ := List.map_eq_append_iff.mp hkept
    have hmem : ∀ site, site ∈ front ++ (templated ++ back) ↔ site ∈ (front ++ back) ++ templated := by
      intro site
      simp only [List.mem_append]
      tauto
    refine ⟨front, templated ++ back, hfront, by rw [List.map_append, htemplated, hback, hnodes], ?_, ?_⟩
    · intro site hsite
      exact hderived site ((hmem site).mp hsite)
    · intro context written
      simp only [hcovered, hmem]

/-- No template below a foreach node has its name: a template of the child is named by a node registered later. -/
theorem fresh_group {group : ComposedNode} {active : Option String} (hbefore : before.Registered)
    (hregister : registerNode before group = .ok middle)
    (h : Traversed project root covered { middle with activeForeach := active } after nodes consumed templates) :
    group.payload.id ∉ Dict.keys after.foreachTemplates := by
  obtain ⟨hfresh, rfl⟩ := registerNode_eq_ok hregister
  rw [h.templates_eq, Dict.keys, List.map_append]
  intro hmem
  rcases List.mem_append.mp hmem with hmem | hmem
  · exact hfresh (hbefore.groups _ hmem)
  · have hnew := h.groups group.payload.id hmem
    have hnodup := h.perm.nodup_iff.mp h.registered.nodup
    exact (List.nodup_append.mp hnodup).2.2 _ (by simp [Dict.keys]) _ hnew rfl

/-- A foreach node with its template. -/
theorem traversed_foreach (htraverse : TraverseOk project root traverse) (hcontext : Descends project root outer context)
    {node : NodeSpec} {group : ComposedNode} (hkeeps : context.Keeps node) (hbefore : before.Registered)
    (hnode : composeLocalNode context node = .ok (group, consumed)) (hmode : group.payload.mode = .foreach)
    (hregister : registerNode before group = .ok middle)
    (h : composeForeach project traverse context group middle = .ok (consumed', after)) :
    ∃ templates, Traversed project root
      (fun below written => (below = context ∧ written = node) ∨ BelowNode project context node below written)
      before after [group] (consumed ++ consumed') templates := by
  have hfirst := @traversed_node project root before middle _ _ _ _ hbefore hnode hregister
  unfold composeForeach at h
  dsimp only at h
  split at h
  · simp at h
  · rename_i rawPath itemInput _ hworkflow _
    obtain ⟨path, hpath, h⟩ := (do_eq_ok ..).mp h
    obtain ⟨childWorkflow, -, h⟩ := (do_eq_ok ..).mp h
    obtain ⟨⟨itemId, shared⟩, -, h⟩ := (do_eq_ok ..).mp h
    obtain ⟨⟨result, composer⟩, hresult, h⟩ := (do_eq_ok ..).mp h
    obtain ⟨-, h⟩ := (check_then_eq_ok ..).mp h
    cases h
    obtain ⟨child, hargs, hbelow⟩ := htraverse _ { middle with activeForeach := some group.payload.id } _ _
      ⟨hfirst.registered.nodup, hfirst.registered.groups⟩ hresult
    have hstep : Child project context _ child := Child.template hkeeps hnode hmode hworkflow hpath hargs
    obtain ⟨templates', hsecond⟩ := hbelow _ (hcontext.trans (Descends.step hstep (Descends.here child)))
    obtain ⟨f, hf, hid, hderived⟩ := materializeSelectors_eq_map result.nodes result.worktrees.length
      childWorkflow.worktrees.length
    have hinner : Traversed project root (Below project child) middle composer (result.nodes.map f)
        result.consumedParamBindings templates' := by
      obtain ⟨hregistered, htemplates, hperm, hgroups, hsites, hconsumes⟩ :=
        hsecond.map hid fun below written node _ => hderived project root below written node
      exact ⟨hregistered, htemplates, hperm, hgroups, hsites, hconsumes⟩
    have hmapped := hfirst.append hinner
    have hgroup := fresh_group hbefore hregister hsecond
    let template := materializeForeachTemplate group.payload.id itemId childWorkflow
      (templateArgs context group.payload path).inheritedParams shared result
    have hclosed := @Traversed.close project root _ before composer [group] (consumed ++ result.consumedParamBindings)
      ([] ++ templates') (result.nodes.map f) group.payload.id template
      { composer with
        activeForeach := none
        foreachTemplates := composer.foreachTemplates.setItem group.payload.id template }
      hmapped hf (by simp [idsOf]) hgroup rfl rfl
    refine ⟨_, hclosed.congr ?_⟩
    intro below written
    refine or_congr_right ⟨fun h => ⟨group, consumed, rawPath, path, child, hnode, hmode, hworkflow, hpath, hargs, h⟩, ?_⟩
    rintro ⟨group', consumed', rawPath', path', child', hnode', -, hworkflow', hpath', hargs', h⟩
    rw [hnode] at hnode'
    cases hnode'
    rw [hworkflow] at hworkflow'
    cases hworkflow'
    rw [hpath] at hpath'
    cases hpath'
    rw [hargs] at hargs'
    cases hargs'
    exact h
  · simp at h

/-- A node without a template has nothing below it. -/
theorem not_belowNode {node : NodeSpec} {composed : ComposedNode}
    (hnode : composeLocalNode context node = .ok (composed, consumed)) (hmode : composed.payload.mode ≠ .foreach)
    (below : CompositionContext) (written : NodeSpec) : ¬BelowNode project context node below written := by
  rintro ⟨group, consumed', rawPath, path, child, hgroup, hforeach, -⟩
  rw [hnode] at hgroup
  cases hgroup
  exact hmode hforeach

/-- A local node that composition keeps, with its template if it has one. -/
theorem traversed_kept (htraverse : TraverseOk project root traverse) (hcontext : Descends project root outer context)
    {node : NodeSpec} {composed : ComposedNode} (hkeeps : context.Keeps node) (hbefore : before.Registered)
    (hnode : composeLocalNode context node = .ok (composed, consumed))
    (hregister : registerNode before composed = .ok middle)
    (h : composeTemplate project traverse context composed middle = .ok (consumed', after)) :
    ∃ templates, Traversed project root
      (fun below written => (below = context ∧ written = node) ∨ BelowNode project context node below written)
      before after [composed] (consumed ++ consumed') templates := by
  unfold composeTemplate at h
  split at h
  · rename_i hmode
    exact traversed_foreach htraverse hcontext hkeeps hbefore hnode hmode hregister h
  · rename_i hmode
    cases h
    refine ⟨[], ?_⟩
    rw [List.append_nil]
    refine (traversed_node hbefore hnode hregister).congr ?_
    intro below written
    simp [not_belowNode hnode hmode]

theorem composeNodes_traversed (htraverse : TraverseOk project root traverse)
    (hcontext : Descends project root outer context) : ∀ (specs : List NodeSpec) (composed result : CompositionResult)
    (start : Composer), (∀ node ∈ specs, node ∈ context.workflow.nodes) →
    Traversed project root covered start before composed.nodes composed.consumedParamBindings templates →
    composeNodes project traverse context specs composed before = .ok (result, after) →
    ∃ templates', Traversed project root
      (fun below written => covered below written ∨ ∃ node ∈ specs, node.payload.id ∉ Dict.keys context.boundInputNodes ∧
        ((below = context ∧ written = node) ∨ BelowNode project context node below written))
      start after result.nodes result.consumedParamBindings templates' := by
  intro specs
  induction specs generalizing before templates covered with
  | nil =>
    intro composed result start _ hstart h
    cases h
    exact ⟨templates, hstart.congr (by simp)⟩
  | cons node specs ih =>
    intro composed result start hspecs hstart h
    have hrest : ∀ other ∈ specs, other ∈ context.workflow.nodes := fun other hother =>
      hspecs other (List.mem_cons_of_mem _ hother)
    rw [composeNodes] at h
    split at h
    · rename_i hbound
      obtain ⟨templates', hend⟩ := ih composed result start hrest hstart h
      refine ⟨templates', hend.congr ?_⟩
      intro below written
      simp only [List.mem_cons, exists_eq_or_imp, hbound, not_true_eq_false, false_and, false_or]
    · rename_i hbound
      have hkeeps : context.Keeps node := ⟨hspecs node List.mem_cons_self, hbound⟩
      obtain ⟨⟨composedNode, consumedHere⟩, hnode, h⟩ := (do_eq_ok ..).mp h
      obtain ⟨composer, hregister, h⟩ := (do_eq_ok ..).mp h
      obtain ⟨⟨consumedBelow, composer'⟩, hbelow, h⟩ := (do_eq_ok ..).mp h
      have hone := traversed_kept htraverse hcontext hkeeps hstart.registered hnode hregister hbelow
      obtain ⟨templates', hone⟩ := hone
      have hboth := hstart.append hone
      rw [← List.append_assoc] at hboth
      obtain ⟨templates'', hend⟩ := ih _ result start hrest hboth h
      refine ⟨templates'', hend.congr ?_⟩
      intro below written
      simp only [List.mem_cons, exists_eq_or_imp, or_assoc, hbound, not_false_eq_true, true_and]

/-- The parts of a traversal. -/
theorem composeFile_eq_ok {fuel : Nat} {args : FileArgs} {result : CompositionResult}
    (h : composeFile project (fuel + 1) args before = .ok (result, after)) :
    ∃ context composer importResult composer' localResult worktrees, contextOf project args = .ok context ∧
      (before.Registered → composer.Registered) ∧
      Dict.keys composer.nodeSources = Dict.keys before.nodeSources ∧
      composer.foreachTemplates = before.foreachTemplates ∧
      composeImports project (composeFile project fuel) context context.workflow.imports {} composer =
        .ok (importResult, composer') ∧
      composeLocalNodes project (composeFile project fuel) context composer' = .ok (localResult, after) ∧
      mergeWorktrees importResult.worktrees localResult.worktrees = .ok worktrees ∧
      result = ⟨importResult.nodes ++ localResult.nodes, worktrees,
        importResult.consumedParamBindings ++ localResult.consumedParamBindings⟩ := by
  rw [composeFile] at h
  obtain ⟨-, h⟩ := (check_then_eq_ok ..).mp h
  obtain ⟨⟨context, composer⟩, hcontext, h⟩ := (do_eq_ok ..).mp h
  obtain ⟨⟨importResult, composer'⟩, himports, h⟩ := (do_eq_ok ..).mp h
  obtain ⟨⟨localResult, composer''⟩, hlocal, h⟩ := (do_eq_ok ..).mp h
  obtain ⟨worktrees, hmerged, h⟩ := (do_eq_ok ..).mp h
  cases h
  unfold buildContext at hcontext
  obtain ⟨workflow, -, hcontext⟩ := (do_eq_ok ..).mp hcontext
  obtain ⟨schemaComposer, hschema, hcontext⟩ := (do_eq_ok ..).mp hcontext
  obtain ⟨context', hargs, hcontext⟩ := (do_eq_ok ..).mp hcontext
  cases hcontext
  refine ⟨context, composer, importResult, composer', localResult, worktrees, hargs, ?_, ?_, ?_, himports, hlocal, hmerged,
    rfl⟩
  all_goals
    unfold setOrValidateRootSchema at hschema
    split at hschema
  · cases hschema
    exact fun hbefore => ⟨hbefore.nodup, hbefore.groups⟩
  · split at hschema
    · cases hschema
      exact id
    · simp at hschema
  · cases hschema
    rfl
  · split at hschema
    · cases hschema
      rfl
    · simp at hschema
  · cases hschema
    rfl
  · split at hschema
    · cases hschema
      rfl
    · simp at hschema

/-- Every file is traversed as a whole: its imports, its local nodes and their templates. -/
theorem composeFile_traversed (fuel : Nat) : TraverseOk project root (composeFile project fuel) := by
  induction fuel with
  | zero =>
    intro args before result after _ h
    simp [composeFile] at h
  | succ fuel ih =>
    intro args before result after hbefore h
    obtain ⟨context, composer, importResult, composer', localResult, worktrees, hargs, hregistered, hkeys, htemplates,
      himports, hlocal, -, rfl⟩ := composeFile_eq_ok h
    refine ⟨context, hargs, fun outer houter => ?_⟩
    obtain ⟨templates, hone⟩ := composeImports_traversed ih houter _ {} importResult composer (fun _ h => h)
      (Traversed.nil (hregistered hbefore)) himports
    obtain ⟨templates', htwo⟩ := composeNodes_traversed ih houter _ { worktrees := composeWorktreeDeclarations context }
      localResult composer' (fun _ h => h) (Traversed.nil hone.registered) hlocal
    have hall := hone.append htwo
    refine ⟨templates ++ templates', Traversed.congr ⟨hall.registered, ?_, ?_, hall.groups, hall.sites, hall.consumes⟩ ?_⟩
    · rw [hall.templates_eq, htemplates]
    · rw [← hkeys]
      exact hall.perm
    · intro below written
      rw [below_iff]
      simp only [false_or, CompositionContext.Keeps, and_assoc]

/-! ## Every child was traversed -/

theorem exists_composeImport (htraverse : TraverseOk project root traverse) (hcontext : Descends project root outer context)
    {spec : ImportSpec} : ∀ (specs : List ImportSpec) (composed result : CompositionResult) (before : Composer),
    (∀ spec ∈ specs, spec ∈ context.workflow.imports) → before.Registered →
    composeImports project traverse context specs composed before = .ok (result, after) → spec ∈ specs →
    ∃ before' result' after', before'.Registered ∧
      composeImport project traverse context spec before' = .ok (result', after') := by
  intro specs
  induction specs with
  | nil => simp
  | cons first specs ih =>
    intro composed result before hspecs hbefore h hmem
    rw [composeImports] at h
    obtain ⟨⟨childResult, composer⟩, hchild, h⟩ := (do_eq_ok ..).mp h
    obtain ⟨worktrees, -, h⟩ := (do_eq_ok ..).mp h
    rcases List.mem_cons.mp hmem with rfl | hmem
    · exact ⟨before, childResult, composer, hbefore, hchild⟩
    · obtain ⟨templates, htraversed⟩ := composeImport_traversed htraverse hcontext (hspecs first List.mem_cons_self)
        hbefore hchild
      exact ih _ result composer (fun other hother => hspecs other (List.mem_cons_of_mem _ hother))
        htraversed.registered h hmem

theorem exists_composeTemplate (htraverse : TraverseOk project root traverse)
    (hcontext : Descends project root outer context) {node : NodeSpec} (hbound : node.payload.id ∉ Dict.keys context.boundInputNodes) :
    ∀ (specs : List NodeSpec) (composed result : CompositionResult) (before : Composer),
    (∀ node ∈ specs, node ∈ context.workflow.nodes) → before.Registered →
    composeNodes project traverse context specs composed before = .ok (result, after) → node ∈ specs →
    ∃ before' middle' after' composed' consumed consumed', before'.Registered ∧
      composeLocalNode context node = .ok (composed', consumed) ∧ registerNode before' composed' = .ok middle' ∧
      composeTemplate project traverse context composed' middle' = .ok (consumed', after') := by
  intro specs
  induction specs with
  | nil => simp
  | cons first specs ih =>
    intro composed result before hspecs hbefore h hmem
    have hrest : ∀ other ∈ specs, other ∈ context.workflow.nodes := fun other hother =>
      hspecs other (List.mem_cons_of_mem _ hother)
    rw [composeNodes] at h
    split at h
    · rename_i hfirst
      rcases List.mem_cons.mp hmem with rfl | hmem
      · exact absurd hfirst hbound
      · exact ih composed result before hrest hbefore h hmem
    · rename_i hfirst
      obtain ⟨⟨composedNode, consumedHere⟩, hnode, h⟩ := (do_eq_ok ..).mp h
      obtain ⟨composer, hregister, h⟩ := (do_eq_ok ..).mp h
      obtain ⟨⟨consumedBelow, composer'⟩, hbelow, h⟩ := (do_eq_ok ..).mp h
      rcases List.mem_cons.mp hmem with rfl | hmem
      · exact ⟨before, composer, composer', composedNode, consumedHere, consumedBelow, hbefore, hnode, hregister, hbelow⟩
      · obtain ⟨templates, htraversed⟩ := traversed_kept htraverse hcontext ⟨hspecs first List.mem_cons_self, hfirst⟩
          hbefore hnode hregister hbelow
        exact ih _ result composer' hrest htraversed.registered h hmem

/-- What the traversal of a file did for each child: it traversed it, and found every parameter used. -/
def Validated (project : Project) (frame : Frame) (child : CompositionContext) : Prop :=
  ∃ fuel args before result after, contextOf project args = .ok child ∧ before.Registered ∧
    composeFile project fuel args before = .ok (result, after) ∧
    unusedKeys frame.withParams frame.bindingNamespace result.consumedParamBindings = []

/-- One step down. -/
theorem composeFile_child {fuel : Nat} {args : FileArgs} {result : CompositionResult} (hbefore : before.Registered)
    (h : composeFile project fuel args before = .ok (result, after)) (hargs : contextOf project args = .ok context)
    {frame : Frame} {child : CompositionContext} (hchild : Child project context frame child) :
    Validated project frame child := by
  cases fuel with
  | zero => simp [composeFile] at h
  | succ fuel =>
    obtain ⟨context', composer, importResult, composer', localResult, worktrees, hargs', hregistered, -, -, himports, hlocal,
      -, rfl⟩ := composeFile_eq_ok h
    rw [hargs] at hargs'
    obtain rfl := Except.ok.inj hargs'
    have htraverse : TraverseOk project context (composeFile project fuel) := composeFile_traversed fuel
    have hcontext : Descends project context [] context := Descends.here context
    cases hchild with
    | imported hspec hpath hchildArgs =>
      obtain ⟨before', result', after', hbefore', himport⟩ := exists_composeImport htraverse hcontext _ _ _ _
        (fun _ h => h) (hregistered hbefore) himports hspec
      unfold composeImport at himport
      obtain ⟨path', hpath', himport⟩ := (do_eq_ok ..).mp himport
      rw [hpath] at hpath'
      obtain rfl := Except.ok.inj hpath'
      obtain ⟨⟨childResult, composer''⟩, hresult, himport⟩ := (do_eq_ok ..).mp himport
      obtain ⟨hunused, -⟩ := (check_then_eq_ok ..).mp himport
      exact ⟨fuel, _, before', childResult, composer'', hchildArgs, hbefore', hresult, (require_eq_ok _ _).mp hunused⟩
    | template hkeeps hnode hmode hworkflow hpath hchildArgs =>
      obtain ⟨templates, himportsTraversed⟩ := composeImports_traversed htraverse hcontext _ {} importResult composer
        (fun _ h => h) (Traversed.nil (hregistered hbefore)) himports
      obtain ⟨before', middle', after', composed', consumed, consumed', hbefore', hnode', hregister, htemplate⟩ :=
        exists_composeTemplate htraverse hcontext hkeeps.2 _ _ _ _ (fun _ h => h) himportsTraversed.registered hlocal hkeeps.1
      rw [hnode] at hnode'
      cases hnode'
      have hmiddle := (@traversed_node project context before' middle' _ _ _ _ hbefore' hnode hregister).registered
      unfold composeTemplate at htemplate
      rw [if_pos hmode] at htemplate
      unfold composeForeach at htemplate
      dsimp only at htemplate
      split at htemplate
      · simp at htemplate
      · rename_i rawPath itemInput _ hworkflow' _
        rw [hworkflow] at hworkflow'
        obtain rfl := Option.some.inj hworkflow'
        obtain ⟨path', hpath', htemplate⟩ := (do_eq_ok ..).mp htemplate
        rw [hpath] at hpath'
        obtain rfl := Except.ok.inj hpath'
        obtain ⟨childWorkflow, -, htemplate⟩ := (do_eq_ok ..).mp htemplate
        obtain ⟨⟨itemId, shared⟩, -, htemplate⟩ := (do_eq_ok ..).mp htemplate
        obtain ⟨⟨childResult, composer''⟩, hresult, htemplate⟩ := (do_eq_ok ..).mp htemplate
        obtain ⟨hunused, -⟩ := (check_then_eq_ok ..).mp htemplate
        exact ⟨fuel, _, { middle' with activeForeach := some _ }, childResult, composer'', hchildArgs, ⟨hmiddle.nodup, hmiddle.groups⟩, hresult,
          (require_eq_ok _ _).mp hunused⟩
      · simp at htemplate

/-- Every child of every instance of a composed file has been validated. -/
theorem composeFile_validated {below child : CompositionContext} {frames : List Frame} {frame : Frame}
    (hdescends : Descends project context frames below) (hchild : Child project below frame child) :
    ∀ {fuel : Nat} {args : FileArgs} {before after : Composer} {result : CompositionResult}, before.Registered →
    composeFile project fuel args before = .ok (result, after) → contextOf project args = .ok context →
    Validated project frame child := by
  induction hdescends with
  | here =>
    intro fuel args before after result hbefore h hargs
    exact composeFile_child hbefore h hargs hchild
  | step hstep _ ih =>
    intro fuel args before after result hbefore h hargs
    obtain ⟨fuel', args', before', result', after', hargs', hbefore', h', -⟩ := composeFile_child hbefore h hargs hstep
    exact ih hchild hbefore' h' hargs'

end Parts

end Crewplane.Composition
