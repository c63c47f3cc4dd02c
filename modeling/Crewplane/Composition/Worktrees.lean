import Crewplane.Composition.Hygiene
/-
# Which worktree a node is composed with

The worktree of a node is scoped by files. A file that declares one worktree puts
it in force for itself and for the imports below; a file that declares none leaves
in force what its importer has; a file that declares several puts none in force,
its nodes choose. Nothing is inherited into the template of a foreach node.

`Enclosing` says what is in force where a file is imported, by the import tree
alone. Composition carries it in the context of a file and copies it to each node;
`FilePart` is what a traversal of a file does with it.
-/
namespace Crewplane.Composition

open Crewplane.Lib Crewplane.Workflow Crewplane.Prompt

/-- What is in force inside an instance, given what is in force where its file is imported. -/
def inForceWithin (context : CompositionContext) (inForce : Option String) : Option String :=
  match context.workflow.worktrees with
  | [] => inForce
  | [declared] => some (qualifyId context.namespacePrefix declared.1)
  | _ => none

/-- An instance, with the implicit worktree in force where its file is imported. -/
inductive Enclosing (project : Project) (path : String) : CompositionContext → Option String → Prop
  | root {context : CompositionContext} : contextOf project (rootArgs path) = .ok context →
    Enclosing project path context none
  | imported {context child : CompositionContext} {inForce : Option String} {spec : ImportSpec} {file : String} :
    Enclosing project path context inForce → spec ∈ context.workflow.imports →
    resolveImportFile project spec = .ok file → contextOf project (importArgs context spec file) = .ok child →
    Enclosing project path child (inForceWithin context inForce)
  | template {context child : CompositionContext} {inForce : Option String} {node : NodeSpec} {group : ComposedNode}
      {consumed : List String} {rawPath file : String} :
    Enclosing project path context inForce → context.Keeps node →
    composeLocalNode context node = .ok (group, consumed) → group.payload.mode = .foreach →
    group.payload.workflow = some rawPath → resolveImportFile project (foreachSpec group rawPath) = .ok file →
    contextOf project (templateArgs context group.payload file) = .ok child →
    Enclosing project path child none

/-- The worktree a node means: `none` when its file declares several and it chooses none of them, else the
name of the worktree, or `some none` for the project root. -/
def lexicalSelection (context : CompositionContext) (inForce : Option String) (written : WorkflowNode) :
    Option (Option String) :=
  match written.worktree with
  | some selector =>
    some (if selector = projectRootWorktreeSelector then none else some (qualifyId context.namespacePrefix selector))
  | none => match context.workflow.worktrees with
    | [] => some inForce
    | [declared] => some (some (qualifyId context.namespacePrefix declared.1))
    | _ => none

/-- The worktrees an instance declares, under the names they have in the whole. -/
def CompositionContext.declared (context : CompositionContext) : List String :=
  (Dict.keys context.workflow.worktrees).map (qualifyId context.namespacePrefix)

/-- A composed node is a local node of the instance, as far as worktrees go. -/
structure Placed (context : CompositionContext) (written : NodeSpec) (node : ComposedNode) : Prop where
  keeps : context.Keeps written
  id : node.payload.id = qualifyId context.namespacePrefix written.payload.id
  mode : node.payload.mode = written.payload.mode
  worktree : node.payload.worktree = (qualifiedNode context written.payload).worktree
  count : node.localWorktreeCount = context.workflow.worktrees.length
  implicit : node.implicitWorktreeSelector = implicitSelector context written.payload

section Contexts

variable {project : Project} {path : String} {context child : CompositionContext} {inForce : Option String}

theorem contextOf_implicit {args : FileArgs} (h : contextOf project args = .ok context) :
    context.implicitWorktreeSelector = contextImplicitWorktreeSelector context.namespacePrefix
      context.workflow.worktrees args.inheritedImplicitWorktreeSelector := by
  unfold contextOf at h
  obtain ⟨workflow, -, h⟩ := (do_eq_ok ..).mp h
  obtain ⟨boundInputNodes, -, h⟩ := (do_eq_ok ..).mp h
  cases h
  rfl

theorem contextImplicit_eq (context : CompositionContext) (inForce : Option String) :
    contextImplicitWorktreeSelector context.namespacePrefix context.workflow.worktrees inForce =
      inForceWithin context inForce := rfl

/-- The context of an instance carries what is in force in it. -/
theorem Enclosing.implicit (h : Enclosing project path context inForce) :
    context.implicitWorktreeSelector = inForceWithin context inForce := by
  induction h with
  | root hcontext => exact contextOf_implicit hcontext
  | imported _ _ _ hcontext ih =>
    rw [contextOf_implicit hcontext, ← ih]
    rfl
  | template _ _ _ _ _ _ hcontext _ => exact contextOf_implicit hcontext

theorem Enclosing.instance (h : Enclosing project path context inForce) :
    ∃ root frames, contextOf project (rootArgs path) = .ok root ∧ Descends project root frames context := by
  induction h with
  | root hcontext => exact ⟨_, [], hcontext, Descends.here _⟩
  | imported _ hspec hfile hcontext ih =>
    obtain ⟨root, frames, hroot, hdescends⟩ := ih
    exact ⟨root, _, hroot, hdescends.trans (Descends.step (Child.imported hspec hfile hcontext) (Descends.here _))⟩
  | template _ hkeeps hnode hmode hworkflow hfile hcontext ih =>
    obtain ⟨root, frames, hroot, hdescends⟩ := ih
    exact ⟨root, _, hroot, hdescends.trans
      (Descends.step (Child.template hkeeps hnode hmode hworkflow hfile hcontext) (Descends.here _))⟩

theorem Enclosing.step {frame : Frame} (h : Enclosing project path context inForce)
    (hchild : Child project context frame child) : ∃ inForce', Enclosing project path child inForce' := by
  cases hchild with
  | imported hspec hfile hcontext => exact ⟨_, h.imported hspec hfile hcontext⟩
  | template hkeeps hnode hmode hworkflow hfile hcontext =>
    exact ⟨none, h.template hkeeps hnode hmode hworkflow hfile hcontext⟩

theorem Enclosing.descends {below : CompositionContext} {frames : List Frame}
    (h : Enclosing project path context inForce) (hdescends : Descends project context frames below) :
    ∃ inForce', Enclosing project path below inForce' := by
  induction hdescends generalizing inForce with
  | here => exact ⟨inForce, h⟩
  | step hchild _ ih =>
    obtain ⟨_, h'⟩ := h.step hchild
    exact ih h'

/-- What a node means depends on its instance alone. -/
theorem lexicalSelection_eq (h : Enclosing project path context inForce) (written : WorkflowNode) :
    lexicalSelection context inForce written = lexicalSelection context context.implicitWorktreeSelector written := by
  unfold lexicalSelection
  cases written.worktree with
  | some selector => rfl
  | none =>
    rw [h.implicit]
    unfold inForceWithin
    cases context.workflow.worktrees with
    | nil => rfl
    | cons first rest =>
      cases rest with
      | nil => rfl
      | cons second rest => rfl

end Contexts

/-! ## The nodes of a traversal -/

section Parts

variable (project : Project) (path : String)

/-- Some local node of some instance. -/
def PlacedNode (node : ComposedNode) : Prop :=
  ∃ context inForce written, Enclosing project path context inForce ∧ Placed context written node

/-- A composed node among the worktrees of a file, where `implicit` is in force: what the node inherits is one of
the file's or comes from outside, and a node that may choose nothing has nothing to inherit or several to choose from. -/
structure NodeOk (implicit : Option String) (worktrees : Dict String WorktreeDeclaration) (node : ComposedNode) : Prop where
  placed : PlacedNode project path node
  inherits : ∀ name, node.implicitWorktreeSelector = some name → implicit = some name ∨ name ∈ Dict.keys worktrees
  free : node.payload.mode ≠ .input → node.payload.mode ≠ .foreach → node.payload.worktree = none →
    node.localWorktreeCount = 0 → node.implicitWorktreeSelector = none → implicit = none ∨ 2 ≤ worktrees.length
  counted : node.localWorktreeCount ≤ worktrees.length

/-- The declarations of an instance and of all below it. -/
def DeclaredBelow (context : CompositionContext) (name : String) : Prop :=
  ∃ frames below, Descends project context frames below ∧ name ∈ below.declared

def DeclaredImport (context : CompositionContext) (spec : ImportSpec) (name : String) : Prop :=
  ∃ file child, resolveImportFile project spec = .ok file ∧
    contextOf project (importArgs context spec file) = .ok child ∧ DeclaredBelow project child name

def DeclaredTemplate (context : CompositionContext) (node : NodeSpec) (name : String) : Prop :=
  ∃ group consumed rawPath file child, composeLocalNode context node = .ok (group, consumed) ∧
    group.payload.mode = .foreach ∧ group.payload.workflow = some rawPath ∧
    resolveImportFile project (foreachSpec group rawPath) = .ok file ∧
    contextOf project (templateArgs context group.payload file) = .ok child ∧ DeclaredBelow project child name

/-- A part of the traversal of a file: its nodes, its worktrees and the templates it adds. -/
structure Part (implicit : Option String) (declared : String → Prop) (nodes : List ComposedNode)
    (worktrees : Dict String WorktreeDeclaration) (templates : Dict String ComposedForeach) : Prop where
  ok : ∀ node ∈ nodes, NodeOk project path implicit worktrees node
  nodup : (Dict.keys worktrees).Nodup
  children : ∀ entry ∈ templates, ∀ node ∈ entry.2.nodes, ∃ before composedCount rootCount,
    PlacedNode project path before ∧ node = materializeSelector composedCount rootCount before
  template_of_node : ∀ node ∈ nodes, node.payload.mode = .foreach → templates ≠ []
  node_of_template : templates ≠ [] → ∃ node ∈ nodes, node.payload.mode = .foreach
  covers : ∀ name, declared name ↔ name ∈ Dict.keys worktrees ∨ ∃ entry ∈ templates, name ∈ Dict.keys entry.2.worktrees

variable {project path}

variable {implicit implicit' : Option String} {declared declared' : String → Prop} {nodes nodes' : List ComposedNode}
  {worktrees worktrees' merged : Dict String WorktreeDeclaration} {templates templates' : Dict String ComposedForeach}

theorem declaredBelow_iff {context : CompositionContext} {name : String} :
    DeclaredBelow project context name ↔ name ∈ context.declared ∨
      (∃ spec ∈ context.workflow.imports, DeclaredImport project context spec name) ∨
      ∃ node, context.Keeps node ∧ DeclaredTemplate project context node name := by
  constructor
  · rintro ⟨frames, below, hdescends, hname⟩
    cases hdescends with
    | here => exact Or.inl hname
    | step hchild hbelow =>
      cases hchild with
      | imported hspec hfile hcontext => exact Or.inr (Or.inl ⟨_, hspec, _, _, hfile, hcontext, _, _, hbelow, hname⟩)
      | template hnode hgroup hmode hworkflow hfile hcontext =>
        exact Or.inr (Or.inr ⟨_, hnode, _, _, _, _, _, hgroup, hmode, hworkflow, hfile, hcontext, _, _, hbelow, hname⟩)
  · rintro (hname | ⟨spec, hspec, file, child, hfile, hcontext, frames, below, hbelow, hname⟩ |
      ⟨node, hnode, group, consumed, rawPath, file, child, hgroup, hmode, hworkflow, hfile, hcontext, frames, below,
        hbelow, hname⟩)
    · exact ⟨_, _, Descends.here context, hname⟩
    · exact ⟨_, _, Descends.step (Child.imported hspec hfile hcontext) hbelow, hname⟩
    · exact ⟨_, _, Descends.step (Child.template hnode hgroup hmode hworkflow hfile hcontext) hbelow, hname⟩

/-- More worktrees around a node, and the same or less in force. -/
theorem NodeOk.mono {node : ComposedNode} (h : NodeOk project path implicit worktrees node)
    (hkeys : ∀ name ∈ Dict.keys worktrees, name ∈ Dict.keys worktrees') (hlength : worktrees.length ≤ worktrees'.length)
    (hsome : ∀ name, implicit = some name → implicit' = some name ∨ name ∈ Dict.keys worktrees')
    (hnone : implicit = none → implicit' = none ∨ 2 ≤ worktrees'.length) :
    NodeOk project path implicit' worktrees' node where
  placed := h.placed
  inherits := by
    intro name hname
    rcases h.inherits name hname with himplicit | hmem
    · exact hsome name himplicit
    · exact Or.inr (hkeys name hmem)
  free := by
    intro hinput hforeach hworktree hcount hselector
    rcases h.free hinput hforeach hworktree hcount hselector with himplicit | htwo
    · exact hnone himplicit
    · exact Or.inr (by omega)
  counted := h.counted.trans hlength

theorem Part.congr (h : Part project path implicit declared nodes worktrees templates)
    (hdeclared : ∀ name, declared name ↔ declared' name) :
    Part project path implicit declared' nodes worktrees templates :=
  { h with covers := fun name => (hdeclared name).symm.trans (h.covers name) }

theorem Part.nil : Part project path implicit (fun _ => False) [] [] [] where
  ok := by simp
  nodup := List.nodup_nil
  children := by simp
  template_of_node := by simp
  node_of_template := fun h => absurd rfl h
  covers := by simp [Dict.keys]

/-- Dictionaries with no key in common are put one after the other. -/
theorem mergeWorktrees_eq_ok (hnodup : (Dict.keys worktrees').Nodup)
    (h : mergeWorktrees worktrees worktrees' = .ok merged) :
    merged = worktrees ++ worktrees' ∧ List.Disjoint (Dict.keys worktrees) (Dict.keys worktrees') := by
  unfold mergeWorktrees at h
  obtain ⟨hcollisions, h⟩ := (check_then_eq_ok ..).mp h
  cases h
  have hdisjoint : List.Disjoint (Dict.keys worktrees) (Dict.keys worktrees') := by
    intro name hfirst hsecond
    have hmem : name ∈ ((Dict.keys worktrees).filter fun name => name ∈ Dict.keys worktrees').mergeSort :=
      List.mem_mergeSort.mpr (List.mem_filter.mpr ⟨hfirst, by simpa using hsecond⟩)
    rw [require_eq_ok] at hcollisions
    rw [hcollisions] at hmem
    cases hmem
  exact ⟨Dict.update_of_disjoint hnodup hdisjoint, hdisjoint⟩

theorem Part.append (h : Part project path implicit declared nodes worktrees templates)
    (h' : Part project path implicit declared' nodes' worktrees' templates')
    (hmerged : mergeWorktrees worktrees worktrees' = .ok merged) :
    Part project path implicit (fun name => declared name ∨ declared' name) (nodes ++ nodes') merged
      (templates ++ templates') := by
  obtain ⟨rfl, hdisjoint⟩ := mergeWorktrees_eq_ok h'.nodup hmerged
  have hkeys : Dict.keys (worktrees ++ worktrees') = Dict.keys worktrees ++ Dict.keys worktrees' := List.map_append
  constructor
  · intro node hnode
    rcases List.mem_append.mp hnode with hnode | hnode
    · exact (h.ok node hnode).mono (by simp [hkeys]; tauto) (by simp) (fun _ => Or.inl) Or.inl
    · exact (h'.ok node hnode).mono (by simp [hkeys]; tauto) (by simp) (fun _ => Or.inl) Or.inl
  · rw [hkeys]
    exact List.nodup_append'.mpr ⟨h.nodup, h'.nodup, hdisjoint⟩
  · intro entry hentry
    rcases List.mem_append.mp hentry with hentry | hentry
    · exact h.children entry hentry
    · exact h'.children entry hentry
  · intro node hnode hmode
    rcases List.mem_append.mp hnode with hnode | hnode
    · simp [h.template_of_node node hnode hmode]
    · simp [h'.template_of_node node hnode hmode]
  · intro hne
    by_cases hfirst : templates = []
    · obtain ⟨node, hnode, hmode⟩ := h'.node_of_template (by simpa [hfirst] using hne)
      exact ⟨node, List.mem_append_right _ hnode, hmode⟩
    · obtain ⟨node, hnode, hmode⟩ := h.node_of_template hfirst
      exact ⟨node, List.mem_append_left _ hnode, hmode⟩
  · intro name
    rw [h.covers, h'.covers, hkeys]
    simp only [List.mem_append, or_and_right, exists_or]
    exact or_or_or_comm

/-- One more local node, with the templates it brings, among the worktrees of its file. -/
theorem Part.snoc (h : Part project path implicit declared nodes worktrees templates) {node : ComposedNode}
    (hnode : NodeOk project path implicit worktrees node)
    (hchildren : ∀ entry ∈ templates', ∀ child ∈ entry.2.nodes, ∃ before composedCount rootCount,
      PlacedNode project path before ∧ child = materializeSelector composedCount rootCount before)
    (hforeach : node.payload.mode = .foreach ↔ templates' ≠ [])
    (hcovers : ∀ name, declared' name ↔ ∃ entry ∈ templates', name ∈ Dict.keys entry.2.worktrees) :
    Part project path implicit (fun name => declared name ∨ declared' name) (nodes ++ [node]) worktrees
      (templates ++ templates') where
  ok := by
    intro other hother
    rcases List.mem_append.mp hother with hother | hother
    · exact h.ok other hother
    · rw [List.mem_singleton.mp hother]
      exact hnode
  nodup := h.nodup
  children := by
    intro entry hentry
    rcases List.mem_append.mp hentry with hentry | hentry
    · exact h.children entry hentry
    · exact hchildren entry hentry
  template_of_node := by
    intro other hother hmode
    rcases List.mem_append.mp hother with hother | hother
    · simp [h.template_of_node other hother hmode]
    · rw [List.mem_singleton.mp hother] at hmode
      simp [hforeach.mp hmode]
  node_of_template := by
    intro hne
    by_cases hlast : templates' = []
    · obtain ⟨other, hother, hmode⟩ := h.node_of_template (by simpa [hlast] using hne)
      exact ⟨other, List.mem_append_left _ hother, hmode⟩
    · exact ⟨node, by simp, hforeach.mpr hlast⟩
  covers := by
    intro name
    rw [h.covers, hcovers]
    simp only [List.mem_append, or_and_right, exists_or]
    exact or_assoc

theorem Part.map (h : Part project path implicit declared nodes worktrees templates) {f : ComposedNode → ComposedNode}
    (hok : ∀ node, NodeOk project path implicit worktrees node → NodeOk project path implicit worktrees (f node))
    (hmode : ∀ node, (f node).payload.mode = node.payload.mode) :
    Part project path implicit declared (nodes.map f) worktrees templates where
  ok := by
    intro node hnode
    obtain ⟨inner, hinner, rfl⟩ := List.mem_map.mp hnode
    exact hok inner (h.ok inner hinner)
  nodup := h.nodup
  children := h.children
  template_of_node := by
    intro node hnode hforeach
    obtain ⟨inner, hinner, rfl⟩ := List.mem_map.mp hnode
    exact h.template_of_node inner hinner ((hmode inner).symm.trans hforeach)
  node_of_template := by
    intro hne
    obtain ⟨node, hnode, hforeach⟩ := h.node_of_template hne
    exact ⟨f node, List.mem_map_of_mem hnode, (hmode node).trans hforeach⟩
  covers := h.covers

/-- Prerequisites leave the worktree of a node alone. -/
theorem NodeOk.attach {node : ComposedNode} (h : NodeOk project path implicit worktrees node)
    (entries prerequisites : List String) :
    NodeOk project path implicit worktrees (attachPrerequisites entries prerequisites node) := by
  unfold attachPrerequisites
  split
  · obtain ⟨context, inForce, written, henclosing, hplaced⟩ := h.placed
    exact ⟨⟨context, inForce, written, henclosing, hplaced.keeps, hplaced.id, hplaced.mode, hplaced.worktree,
      hplaced.count, hplaced.implicit⟩, h.inherits, h.free, h.counted⟩
  · exact h

theorem Part.attach {childResult attached : CompositionResult} {prerequisites : List String} {spec : ImportSpec}
    (h : Part project path implicit declared childResult.nodes childResult.worktrees templates)
    (hattached : attachImportPrerequisites childResult prerequisites spec = .ok attached) :
    Part project path implicit declared attached.nodes attached.worktrees templates := by
  unfold attachImportPrerequisites at hattached
  split at hattached
  · cases hattached
    exact h
  · split at hattached
    · simp at hattached
    · cases hattached
      refine h.map (fun node hnode => hnode.attach _ _) fun node => ?_
      unfold attachPrerequisites
      split <;> rfl

end Parts

/-! ## One local node -/

theorem placed_composeLocalNode {context : CompositionContext} {written : NodeSpec} {node : ComposedNode}
    {consumed : List String} (hkeeps : context.Keeps written)
    (h : composeLocalNode context written = .ok (node, consumed)) : Placed context written node := by
  have hupdated := (composeLocalNode_eq_ok h).1
  obtain ⟨hid, hmode, -⟩ := updatedNode_payload hupdated
  unfold composeLocalNode at h
  obtain ⟨⟨payload, consumed'⟩, -, h⟩ := (do_eq_ok ..).mp h
  cases h
  refine ⟨hkeeps, hid, hmode, ?_, rfl, rfl⟩
  unfold updatedNode at hupdated
  split at hupdated
  · cases hupdated
    rfl
  · cases hupdated
    rfl
  all_goals
    obtain ⟨⟨segments, consumed'⟩, -, hupdated⟩ := (do_eq_ok ..).mp hupdated
    cases hupdated
    rfl

theorem implicitSelector_eq_some {context : CompositionContext} {written : WorkflowNode} {name : String}
    (h : implicitSelector context written = some name) : context.implicitWorktreeSelector = some name := by
  unfold implicitSelector at h
  split at h
  · cases h
  · exact h

theorem composeWorktreeSelector_eq_none {context : CompositionContext} {written : WorkflowNode} :
    composeWorktreeSelector context written = none ↔ written.worktree = none := by
  unfold composeWorktreeSelector
  cases written.worktree with
  | none => simp
  | some selector =>
    simp only [reduceCtorEq, iff_false]
    split <;> simp

/-- A provider node that carries a selector as it is written. -/
theorem Placed.worktree_eq_none {context : CompositionContext} {written : NodeSpec} {node : ComposedNode}
    (h : Placed context written node) (hmode : node.payload.mode ≠ .foreach) :
    node.payload.worktree = none ↔ written.payload.worktree = none := by
  rw [h.mode] at hmode
  rw [h.worktree]
  simp only [qualifiedNode, if_neg hmode, composeWorktreeSelector_eq_none]

theorem Placed.implicit_eq {context : CompositionContext} {written : NodeSpec} {node : ComposedNode}
    (h : Placed context written node) (hinput : node.payload.mode ≠ .input) (hforeach : node.payload.mode ≠ .foreach)
    (hworktree : written.payload.worktree = none) :
    node.implicitWorktreeSelector = context.implicitWorktreeSelector := by
  rw [h.mode] at hinput hforeach
  rw [h.implicit]
  simp [implicitSelector, hinput, hforeach, hworktree]

section Traversals

variable {project : Project} {path : String} {root context : CompositionContext} {inForce : Option String}
  {outer : List Frame} {before middle after : Composer} {traverse : Traverse}

theorem Placed.nodeOk {written : NodeSpec} {node : ComposedNode} (henclosing : Enclosing project path context inForce)
    (h : Placed context written node) :
    NodeOk project path context.implicitWorktreeSelector (composeWorktreeDeclarations context) node where
  placed := ⟨context, inForce, written, henclosing, h⟩
  inherits := fun _ hname => Or.inl (implicitSelector_eq_some (h.implicit ▸ hname))
  free := by
    intro hinput hforeach hworktree _ hselector
    rw [h.implicit_eq hinput hforeach ((h.worktree_eq_none hforeach).mp hworktree)] at hselector
    exact Or.inl hselector
  counted := by simp [h.count, composeWorktreeDeclarations]

variable (project path) in
/-- What a traversal of a file does with worktrees. -/
def TraversePlaced (traverse : Traverse) : Prop :=
  ∀ args before result after, before.Registered → traverse args before = .ok (result, after) →
    ∀ context inForce, contextOf project args = .ok context → Enclosing project path context inForce →
      ∃ templates, after.foreachTemplates = before.foreachTemplates ++ templates ∧
        Part project path context.implicitWorktreeSelector (DeclaredBelow project context) result.nodes
          result.worktrees templates ∧
        (∀ name ∈ context.declared, name ∈ Dict.keys result.worktrees) ∧
        context.workflow.worktrees.length ≤ result.worktrees.length

/-- What a file has in force, for a file imported by it that declares its own worktrees. -/
theorem Part.of_import {child : CompositionContext} {declared : String → Prop} {nodes : List ComposedNode}
    {worktrees : Dict String WorktreeDeclaration} {templates : Dict String ComposedForeach}
    (h : Part project path child.implicitWorktreeSelector declared nodes worktrees templates)
    (himplicit : child.implicitWorktreeSelector = inForceWithin child context.implicitWorktreeSelector)
    (hdeclared : ∀ name ∈ child.declared, name ∈ Dict.keys worktrees)
    (hcount : child.workflow.worktrees.length ≤ worktrees.length) :
    Part project path context.implicitWorktreeSelector declared nodes worktrees templates := by
  refine { h with ok := fun node hnode => (h.ok node hnode).mono (fun _ => id) le_rfl ?_ ?_ }
  · intro name hname
    rw [himplicit] at hname
    unfold inForceWithin at hname
    split at hname
    next => exact Or.inl hname
    next declared heq =>
      refine Or.inr (hdeclared name ?_)
      cases hname
      simp [CompositionContext.declared, Dict.keys, heq]
    next => cases hname
  · intro hnone
    rw [himplicit] at hnone
    unfold inForceWithin at hnone
    split at hnone
    next => exact Or.inl hnone
    next => cases hnone
    next hempty hone =>
      right
      refine le_trans ?_ hcount
      cases hlist : child.workflow.worktrees with
      | nil => exact absurd hlist hempty
      | cons first rest =>
        cases rest with
        | nil => exact absurd hlist (hone first)
        | cons second rest => simp

theorem composeImport_part (htraverse : TraverseOk project root traverse) (hplaced : TraversePlaced project path traverse)
    (hcontext : Descends project root outer context) (henclosing : Enclosing project path context inForce)
    {spec : ImportSpec} (hspec : spec ∈ context.workflow.imports) (hbefore : before.Registered)
    {result : CompositionResult} (h : composeImport project traverse context spec before = .ok (result, after)) :
    ∃ templates, after.Registered ∧ after.foreachTemplates = before.foreachTemplates ++ templates ∧
      Part project path context.implicitWorktreeSelector (DeclaredImport project context spec) result.nodes
        result.worktrees templates := by
  obtain ⟨_, htraversed⟩ := composeImport_traversed htraverse hcontext hspec hbefore h
  unfold composeImport at h
  obtain ⟨file, hfile, h⟩ := (do_eq_ok ..).mp h
  obtain ⟨⟨childResult, composer⟩, hchild, h⟩ := (do_eq_ok ..).mp h
  obtain ⟨-, h⟩ := (check_then_eq_ok ..).mp h
  obtain ⟨attached, hattached, h⟩ := (do_eq_ok ..).mp h
  cases h
  obtain ⟨child, hargs, -⟩ := htraverse _ _ _ _ hbefore hchild
  obtain ⟨templates, htemplates, hpart, hdeclared, hcount⟩ := hplaced _ _ _ _ hbefore hchild child _ hargs
    (henclosing.imported hspec hfile hargs)
  refine ⟨templates, htraversed.registered, htemplates,
    ((hpart.of_import (contextOf_implicit hargs) hdeclared hcount).attach hattached).congr ?_⟩
  intro name
  constructor
  · exact fun h => ⟨file, child, hfile, hargs, h⟩
  · rintro ⟨file', child', hfile', hargs', h⟩
    rw [hfile] at hfile'
    cases hfile'
    rw [hargs] at hargs'
    cases hargs'
    exact h

theorem composeImports_part (htraverse : TraverseOk project root traverse)
    (hplaced : TraversePlaced project path traverse) (hcontext : Descends project root outer context)
    (henclosing : Enclosing project path context inForce) {declared : String → Prop} :
    ∀ (specs : List ImportSpec) (composed result : CompositionResult) (start before : Composer)
      (templates : Dict String ComposedForeach), (∀ spec ∈ specs, spec ∈ context.workflow.imports) →
    before.Registered → before.foreachTemplates = start.foreachTemplates ++ templates →
    Part project path context.implicitWorktreeSelector declared composed.nodes composed.worktrees templates →
    composeImports project traverse context specs composed before = .ok (result, after) →
    ∃ templates', after.Registered ∧ after.foreachTemplates = start.foreachTemplates ++ templates' ∧
      Part project path context.implicitWorktreeSelector
        (fun name => declared name ∨ ∃ spec ∈ specs, DeclaredImport project context spec name) result.nodes
        result.worktrees templates' := by
  intro specs
  induction specs generalizing declared with
  | nil =>
    intro composed result start before templates _ hbefore htemplates hpart h
    cases h
    exact ⟨templates, hbefore, htemplates, hpart.congr (by simp)⟩
  | cons spec specs ih =>
    intro composed result start before templates hspecs hbefore htemplates hpart h
    rw [composeImports] at h
    obtain ⟨⟨childResult, composer⟩, hchild, h⟩ := (do_eq_ok ..).mp h
    obtain ⟨worktrees, hmerged, h⟩ := (do_eq_ok ..).mp h
    obtain ⟨templates', hregistered, htemplates', hone⟩ :=
      composeImport_part htraverse hplaced hcontext henclosing (hspecs spec List.mem_cons_self) hbefore hchild
    obtain ⟨templates'', hregistered', htemplates'', hend⟩ := ih _ result start composer (templates ++ templates')
      (fun other hother => hspecs other (List.mem_cons_of_mem _ hother)) hregistered
      (by rw [htemplates', htemplates, List.append_assoc]) (hpart.append hone hmerged) h
    refine ⟨templates'', hregistered', htemplates'', hend.congr ?_⟩
    intro name
    simp only [List.mem_cons, exists_eq_or_imp, or_assoc]

/-- What a foreach node adds: one template, its nodes placed below it, and all that is declared below it. -/
theorem composeForeach_part (htraverse : TraverseOk project root traverse)
    (hplaced : TraversePlaced project path traverse) (henclosing : Enclosing project path context inForce)
    {node : NodeSpec} {group : ComposedNode} {consumed consumed' : List String} (hkeeps : context.Keeps node)
    (hcontext : Descends project root outer context)
    (hbefore : before.Registered) (hnode : composeLocalNode context node = .ok (group, consumed))
    (hmode : group.payload.mode = .foreach) (hregister : registerNode before group = .ok middle)
    (h : composeForeach project traverse context group middle = .ok (consumed', after)) :
    ∃ templates, templates ≠ [] ∧ after.foreachTemplates = before.foreachTemplates ++ templates ∧
      (∀ entry ∈ templates, ∀ child ∈ entry.2.nodes, ∃ source composedCount rootCount,
        PlacedNode project path source ∧ child = materializeSelector composedCount rootCount source) ∧
      ∀ name, DeclaredTemplate project context node name ↔
        ∃ entry ∈ templates, name ∈ Dict.keys entry.2.worktrees := by
  have hfirst := @traversed_node project root before middle _ _ _ _ hbefore hnode hregister
  have hmiddle : middle.foreachTemplates = before.foreachTemplates := by
    simpa using hfirst.templates_eq
  unfold composeForeach at h
  dsimp only at h
  split at h
  · simp at h
  · rename_i rawPath itemInput _ hworkflow _
    obtain ⟨file, hfile, h⟩ := (do_eq_ok ..).mp h
    obtain ⟨childWorkflow, -, h⟩ := (do_eq_ok ..).mp h
    obtain ⟨⟨itemId, shared⟩, -, h⟩ := (do_eq_ok ..).mp h
    obtain ⟨⟨result, composer⟩, hresult, h⟩ := (do_eq_ok ..).mp h
    obtain ⟨-, h⟩ := (check_then_eq_ok ..).mp h
    cases h
    have hregistered : Composer.Registered { middle with activeForeach := some group.payload.id } :=
      ⟨hfirst.registered.nodup, hfirst.registered.groups⟩
    obtain ⟨child, hargs, hbelow⟩ := htraverse _ _ _ _ hregistered hresult
    have hstep : Child project context _ child := Child.template hkeeps hnode hmode hworkflow hfile hargs
    obtain ⟨_, hsecond⟩ := hbelow _ (hcontext.trans (Descends.step hstep (Descends.here child)))
    obtain ⟨templates, htemplates, hpart, -, -⟩ := hplaced _ _ _ _ hregistered hresult child _ hargs
      (henclosing.template hkeeps hnode hmode hworkflow hfile hargs)
    have hgroup := fresh_group hbefore hregister hsecond
    let template := materializeForeachTemplate group.payload.id itemId childWorkflow
      (templateArgs context group.payload file).inheritedParams shared result
    refine ⟨templates ++ [(group.payload.id, template)], by simp, ?_, ?_, ?_⟩
    · rw [Dict.setItem_of_not_mem hgroup, htemplates, hmiddle, List.append_assoc]
    · intro entry hentry inner hinner
      rcases List.mem_append.mp hentry with hentry | hentry
      · exact hpart.children entry hentry inner hinner
      · rw [List.mem_singleton.mp hentry] at hinner
        change inner ∈ materializeSelectors result.nodes result.worktrees.length childWorkflow.worktrees.length at hinner
        unfold materializeSelectors at hinner
        split at hinner
        next =>
          -- nothing is declared below, and nothing is selected
          exact ⟨inner, 0, 1, (hpart.ok inner hinner).placed, by simp [materializeSelector, needsMaterializedSelector]⟩
        next =>
          obtain ⟨source, hsource, rfl⟩ := List.mem_map.mp hinner
          exact ⟨source, _, _, (hpart.ok source hsource).placed, rfl⟩
    · intro name
      have hcovers : (∃ entry ∈ templates ++ [(group.payload.id, template)], name ∈ Dict.keys entry.2.worktrees) ↔
          DeclaredBelow project child name := by
        rw [hpart.covers]
        simp only [List.mem_append, List.mem_singleton, or_and_right, exists_or, exists_eq_left]
        exact or_comm
      rw [hcovers]
      constructor
      · rintro ⟨group', consumed'', rawPath', file', child', hnode', -, hworkflow', hfile', hargs', h⟩
        rw [hnode] at hnode'
        cases hnode'
        rw [hworkflow] at hworkflow'
        cases hworkflow'
        rw [hfile] at hfile'
        cases hfile'
        rw [hargs] at hargs'
        cases hargs'
        exact h
      · exact fun h => ⟨group, consumed, rawPath, file, child, hnode, hmode, hworkflow, hfile, hargs, h⟩
  · simp at h

theorem composeNodes_part (htraverse : TraverseOk project root traverse)
    (hplaced : TraversePlaced project path traverse) (hcontext : Descends project root outer context)
    (henclosing : Enclosing project path context inForce) {declared : String → Prop} :
    ∀ (specs : List NodeSpec) (composed result : CompositionResult) (start before : Composer)
      (templates : Dict String ComposedForeach), (∀ node ∈ specs, node ∈ context.workflow.nodes) →
    before.Registered → before.foreachTemplates = start.foreachTemplates ++ templates →
    composed.worktrees = composeWorktreeDeclarations context →
    Part project path context.implicitWorktreeSelector declared composed.nodes composed.worktrees templates →
    composeNodes project traverse context specs composed before = .ok (result, after) →
    ∃ templates', after.foreachTemplates = start.foreachTemplates ++ templates' ∧
      result.worktrees = composeWorktreeDeclarations context ∧
      Part project path context.implicitWorktreeSelector
        (fun name => declared name ∨ ∃ node ∈ specs, node.payload.id ∉ Dict.keys context.boundInputNodes ∧
          DeclaredTemplate project context node name) result.nodes result.worktrees templates' := by
  intro specs
  induction specs generalizing declared with
  | nil =>
    intro composed result start before templates _ _ htemplates hworktrees hpart h
    cases h
    exact ⟨templates, htemplates, hworktrees, hpart.congr (by simp)⟩
  | cons node specs ih =>
    intro composed result start before templates hspecs hbefore htemplates hworktrees hpart h
    have hrest : ∀ other ∈ specs, other ∈ context.workflow.nodes := fun other hother =>
      hspecs other (List.mem_cons_of_mem _ hother)
    rw [composeNodes] at h
    split at h
    · rename_i hbound
      obtain ⟨templates', htemplates', hworktrees', hend⟩ :=
        ih composed result start before templates hrest hbefore htemplates hworktrees hpart h
      refine ⟨templates', htemplates', hworktrees', hend.congr ?_⟩
      intro name
      simp only [List.mem_cons, exists_eq_or_imp, hbound, not_true_eq_false, false_and, false_or]
    · rename_i hbound
      have hkeeps : context.Keeps node := ⟨hspecs node List.mem_cons_self, hbound⟩
      obtain ⟨⟨composedNode, consumedHere⟩, hnode, h⟩ := (do_eq_ok ..).mp h
      obtain ⟨composer, hregister, h⟩ := (do_eq_ok ..).mp h
      obtain ⟨⟨consumedBelow, composer'⟩, hbelow, h⟩ := (do_eq_ok ..).mp h
      obtain ⟨_, htraversed⟩ := traversed_kept htraverse hcontext hkeeps hbefore hnode hregister hbelow
      have hregistered := (registerNode_eq_ok hregister).2
      have hok : NodeOk project path context.implicitWorktreeSelector composed.worktrees composedNode := by
        rw [hworktrees]
        exact (placed_composeLocalNode hkeeps hnode).nodeOk henclosing
      have hsnoc : ∃ templates', composer'.foreachTemplates = before.foreachTemplates ++ templates' ∧
          Part project path context.implicitWorktreeSelector
            (fun name => declared name ∨ DeclaredTemplate project context node name) (composed.nodes ++ [composedNode])
            composed.worktrees (templates ++ templates') := by
        unfold composeTemplate at hbelow
        split at hbelow
        next hmode =>
          obtain ⟨templates', hne, htemplates', hchildren, hcovers⟩ :=
            composeForeach_part htraverse hplaced henclosing hkeeps hcontext hbefore hnode hmode hregister hbelow
          exact ⟨templates', htemplates', hpart.snoc hok hchildren (by simp [hmode, hne]) hcovers⟩
        next hmode =>
          cases hbelow
          refine ⟨[], by rw [hregistered, List.append_nil], hpart.snoc hok (by simp) (by simp [hmode]) ?_⟩
          intro name
          simp only [List.not_mem_nil, false_and, exists_false, iff_false]
          rintro ⟨group, consumed', rawPath, file, child, hgroup, hforeach, -⟩
          rw [hnode] at hgroup
          cases hgroup
          exact hmode hforeach
      obtain ⟨templates', htemplates', hone⟩ := hsnoc
      obtain ⟨templates'', htemplates'', hworktrees'', hend⟩ := ih
        { composed with
          nodes := composed.nodes ++ [composedNode]
          consumedParamBindings := composed.consumedParamBindings ++ consumedHere ++ consumedBelow }
        result start composer' (templates ++ templates') hrest htraversed.registered (by rw [htemplates', htemplates, List.append_assoc]) hworktrees hone h
      refine ⟨templates'', htemplates'', hworktrees'', hend.congr ?_⟩
      intro name
      simp only [List.mem_cons, exists_eq_or_imp, or_assoc, hbound, not_false_eq_true, true_and]

theorem keys_composeWorktreeDeclarations (context : CompositionContext) :
    Dict.keys (composeWorktreeDeclarations context) = context.declared := by
  simp [Dict.keys, composeWorktreeDeclarations, CompositionContext.declared]

variable (project) in
/-- The names of worktrees are distinct within a file, as keys of a mapping, and none is the word for the project
root; nodes that cannot carry a selector do not. Parsing checks each. -/
structure Project.WorktreesParsed : Prop where
  nodup : ∀ path workflow, project.load path = .ok workflow → (Dict.keys workflow.worktrees).Nodup
  named : ∀ path workflow, project.load path = .ok workflow → ∀ name ∈ Dict.keys workflow.worktrees,
    name ≠ projectRootWorktreeSelector
  selectors : ∀ path workflow, project.load path = .ok workflow → ∀ node ∈ workflow.nodes,
    node.payload.mode = .input ∨ node.payload.mode = .foreach → node.payload.worktree = none

theorem qualifyId_inj {namePrefix first second : String} (h : qualifyId namePrefix first = qualifyId namePrefix second) :
    first = second := by
  unfold qualifyId at h
  split at h
  · exact h
  · have := congrArg String.toList h
    simp only [String.toList_append, List.append_cancel_left_eq] at this
    exact String.ext this

theorem declared_nodup {args : FileArgs} (hparsed : Project.WorktreesParsed project)
    (h : contextOf project args = .ok context) : context.declared.Nodup := by
  have hload := loadWorkflowFile_eq_ok (contextOf_eq_ok h).1
  exact (hparsed.nodup _ _ hload).map fun first second => qualifyId_inj

/-- Every file is traversed as a whole. -/
theorem composeFile_placed (hparsed : Project.WorktreesParsed project) (hroot : contextOf project (rootArgs path) = .ok root)
    (fuel : Nat) : TraversePlaced project path (composeFile project fuel) := by
  induction fuel with
  | zero =>
    intro args before result after _ h
    simp [composeFile] at h
  | succ fuel ih =>
    intro args before result after hbefore h context inForce hargs henclosing
    obtain ⟨context', composer, importResult, composer', localResult, worktrees, hargs', hregistered, -, htemplates,
      himports, hlocal, hmerged, rfl⟩ := composeFile_eq_ok h
    rw [hargs] at hargs'
    obtain rfl := Except.ok.inj hargs'
    obtain ⟨root', frames, hroot', hdescends⟩ := henclosing.instance
    rw [hroot] at hroot'
    obtain rfl := Except.ok.inj hroot'
    have htraverse := @composeFile_traversed project root fuel
    obtain ⟨templates, hregistered', htemplates', hone⟩ := composeImports_part htraverse ih hdescends henclosing _ {}
      importResult composer composer [] (fun _ h => h) (hregistered hbefore) (by simp) Part.nil himports
    have hstart : Part project path context.implicitWorktreeSelector (· ∈ context.declared) []
        (composeWorktreeDeclarations context) [] := by
      refine ⟨by simp, ?_, by simp, by simp, fun h => absurd rfl h, by simp [keys_composeWorktreeDeclarations]⟩
      rw [keys_composeWorktreeDeclarations]
      exact declared_nodup hparsed hargs
    obtain ⟨templates', htemplates'', hworktrees, htwo⟩ := composeNodes_part htraverse ih hdescends henclosing _
      { worktrees := composeWorktreeDeclarations context } localResult composer' composer' [] (fun _ h => h) hregistered'
      (by simp) rfl hstart hlocal
    have hkeys := (mergeWorktrees_eq_ok htwo.nodup hmerged).1
    refine ⟨templates ++ templates', by rw [htemplates'', htemplates', htemplates, List.append_assoc],
      (hone.append htwo hmerged).congr ?_, ?_, ?_⟩
    · intro name
      rw [declaredBelow_iff]
      simp only [false_or, CompositionContext.Keeps, and_assoc]
      exact or_left_comm
    · intro name hname
      rw [hkeys, hworktrees, Dict.keys, List.map_append]
      refine List.mem_append_right _ ?_
      change name ∈ Dict.keys (composeWorktreeDeclarations context)
      rw [keys_composeWorktreeDeclarations]
      exact hname
    · rw [hkeys, hworktrees]
      simp [composeWorktreeDeclarations]

end Traversals

end Crewplane.Composition
