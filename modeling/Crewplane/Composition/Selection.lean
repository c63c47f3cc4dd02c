import Crewplane.Composition.Composed
import Crewplane.Composition.Worktrees
/-
# Worktree selection after composition

| here | there |
| --- | --- |
| `selectedWorktreeName`         | core/workspace/selection.py:50 |
| `inventoryWorkflow`            | core/preflight/foreach/compilation.py:126 |
| `missingSelectorDiagnostics`   | core/workflow/validation/workspace_diagnostics.py:142 |

Validation and preflight read the inventory: the composed nodes and those of the
foreach templates, among all worktrees. Worktree names and selectors are never
empty, so Python's `or` is `getD` here. Selection agrees with the scoping of files
(`SelectsLexically`). The diagnostic about a missing selector does not: it takes a
foreach node, which cannot carry a selector, for a provider node.
-/
namespace Crewplane.Composition

open Crewplane.Lib Crewplane.Workflow Crewplane.Prompt

/-- `WorkflowPlan`, by the fields selection reads. -/
structure WorkflowPlan where
  nodes : List WorkflowNode
  worktrees : Dict String WorktreeDeclaration

inductive WorkflowDiagnosticSeverity
  | error | warning
  deriving DecidableEq, Repr

/-- core/workflow/diagnostics.py:16 -/
structure WorkflowValidationDiagnostic where
  code : String
  phase : String
  message : String
  severity : WorkflowDiagnosticSeverity
  nodeId : Option String
  metadata : Dict String String := []
  deriving DecidableEq, Repr

def ComposedWorkflowDocument.workflow (document : ComposedWorkflowDocument) : WorkflowPlan where
  nodes := document.nodes.map (·.payload)
  worktrees := document.worktrees

def selectedWorktreeName (workflow : WorkflowPlan) (node : WorkflowNode) : Option String :=
  if node.mode = .input ∨ node.mode = .foreach then none
  else match node.worktree with
    | some selector => if selector = projectRootWorktreeSelector then none else some selector
    | none => match workflow.worktrees with
      | [declared] => some declared.1
      | _ => none

def inventoryParentNode (workflow : WorkflowPlan) (node : WorkflowNode) : WorkflowNode :=
  if node.mode = .input ∨ node.mode = .foreach then node
  else { node with worktree := some ((selectedWorktreeName workflow node).getD projectRootWorktreeSelector) }

def inventoryChildNode (node : ComposedNode) : WorkflowNode :=
  if node.payload.mode = .input then node.payload
  else { node.payload with
    worktree := some (node.payload.worktree.getD (node.implicitWorktreeSelector.getD projectRootWorktreeSelector)) }

def inventoryWorktrees (worktrees : Dict String WorktreeDeclaration) (templates : Dict String ComposedForeach) :
    Dict String WorktreeDeclaration :=
  templates.foldl (fun worktrees entry => worktrees.update entry.2.worktrees) worktrees

def inventoryWorkflow (document : ComposedWorkflowDocument) : WorkflowPlan :=
  if document.foreachTemplates = [] then document.workflow
  else
    { nodes := document.workflow.nodes.map (inventoryParentNode document.workflow) ++
        document.foreachTemplates.flatMap fun entry => entry.2.nodes.map inventoryChildNode
      worktrees := inventoryWorktrees document.worktrees document.foreachTemplates }

/-- `_diagnostic` (workspace_diagnostics.py:340). -/
def workspaceDiagnostic (message : String) (nodeId : Option String) : WorkflowValidationDiagnostic where
  code := "WORKFLOW-WORKSPACE"
  phase := "workspace_policy"
  message := message
  severity := .error
  nodeId := nodeId

def missingSelectorDiagnostics (workflow : WorkflowPlan) : List WorkflowValidationDiagnostic :=
  if workflow.worktrees.length ≤ 1 then []
  else (workflow.nodes.filter fun node => node.mode ≠ .input && node.worktree = none).map fun node =>
    workspaceDiagnostic ("Node '" ++ node.id ++ "' must select a worktree or set worktree: none because the " ++
      "workflow declares multiple worktrees.") (some node.id)

/-! ## Names of worktrees -/

section Names

variable {project : Project} {path : String} {context : CompositionContext} {inForce : Option String}

theorem qualifyId_ne_root {namePrefix name : String} (h : name ≠ projectRootWorktreeSelector) :
    qualifyId namePrefix name ≠ projectRootWorktreeSelector := by
  unfold qualifyId
  split
  · exact h
  · intro heq
    have hdot : '.' ∈ projectRootWorktreeSelector.toList := by
      rw [← heq]
      simp
    exact absurd hdot (by decide)

theorem mem_declared_of_single {declared : String × WorktreeDeclaration} (h : context.workflow.worktrees = [declared]) :
    qualifyId context.namespacePrefix declared.1 ∈ context.declared := by
  simp [CompositionContext.declared, Dict.keys, h]

theorem Enclosing.load (h : Enclosing project path context inForce) :
    ∃ file, project.load file = .ok context.workflow := by
  cases h with
  | root hcontext => exact ⟨_, loadWorkflowFile_eq_ok (contextOf_eq_ok hcontext).1⟩
  | imported _ _ _ hcontext => exact ⟨_, loadWorkflowFile_eq_ok (contextOf_eq_ok hcontext).1⟩
  | template _ _ _ _ _ _ hcontext => exact ⟨_, loadWorkflowFile_eq_ok (contextOf_eq_ok hcontext).1⟩

theorem Enclosing.declared_ne_root (hparsed : project.WorktreesParsed) (h : Enclosing project path context inForce)
    {name : String} (hname : name ∈ context.declared) : name ≠ projectRootWorktreeSelector := by
  obtain ⟨file, hload⟩ := h.load
  obtain ⟨declared, hdeclared, rfl⟩ := List.mem_map.mp hname
  exact qualifyId_ne_root (hparsed.named _ _ hload _ hdeclared)

/-- What is in force is a worktree that some instance declares. -/
theorem Enclosing.inForce_ne_root (hparsed : project.WorktreesParsed) (h : Enclosing project path context inForce) :
    (∀ name, inForce = some name → name ≠ projectRootWorktreeSelector) ∧
      ∀ name, inForceWithin context inForce = some name → name ≠ projectRootWorktreeSelector := by
  have hwithin : ∀ {context inForce}, Enclosing project path context inForce →
      (∀ name, inForce = some name → name ≠ projectRootWorktreeSelector) →
      ∀ name, inForceWithin context inForce = some name → name ≠ projectRootWorktreeSelector := by
    intro context inForce henclosing hin name hname
    unfold inForceWithin at hname
    split at hname
    next => exact hin name hname
    next declared heq =>
      cases hname
      exact henclosing.declared_ne_root hparsed (mem_declared_of_single heq)
    next => cases hname
  have hin : ∀ name, inForce = some name → name ≠ projectRootWorktreeSelector := by
    induction h with
    | root _ => simp
    | imported henclosing _ _ _ ih => exact hwithin henclosing ih
    | template _ _ _ _ _ _ _ _ => simp
  exact ⟨hin, hwithin h hin⟩

/-- Without a selector of its own, and with at most one worktree in its file, a node means what is in force. -/
theorem lexicalSelection_none {written : WorkflowNode} (hworktree : written.worktree = none) :
    (context.workflow.worktrees.length ≤ 1 →
      lexicalSelection context inForce written = some (inForceWithin context inForce)) ∧
    (2 ≤ context.workflow.worktrees.length →
      lexicalSelection context inForce written = none ∧ inForceWithin context inForce = none) := by
  unfold lexicalSelection inForceWithin
  rw [hworktree]
  cases context.workflow.worktrees with
  | nil => simp
  | cons first rest =>
    cases rest with
    | nil => simp
    | cons second rest => simp

theorem lexicalSelection_ne_root (hparsed : project.WorktreesParsed) (h : Enclosing project path context inForce)
    {written : WorkflowNode} {name : String} (hlexical : lexicalSelection context inForce written = some (some name)) :
    name ≠ projectRootWorktreeSelector := by
  cases hwritten : written.worktree with
  | some selector =>
    simp only [lexicalSelection, hwritten, Option.some.injEq] at hlexical
    split at hlexical
    next => cases hlexical
    next hselector =>
      rw [← Option.some.inj hlexical]
      exact qualifyId_ne_root hselector
  | none =>
    obtain ⟨hone, hmany⟩ := @lexicalSelection_none context inForce written hwritten
    by_cases hcount : context.workflow.worktrees.length ≤ 1
    · rw [hone hcount] at hlexical
      exact (h.inForce_ne_root hparsed).2 name (Option.some.inj hlexical)
    · rw [(hmany (by omega)).1] at hlexical
      cases hlexical

/-- The selector a selection is written as. -/
theorem selectedWorktreeName_selector (workflow : WorkflowPlan) {node : WorkflowNode} {selection : Option String}
    (hmode : ¬(node.mode = .input ∨ node.mode = .foreach))
    (hworktree : node.worktree = some (selection.getD projectRootWorktreeSelector))
    (hroot : ∀ name, selection = some name → name ≠ projectRootWorktreeSelector) :
    selectedWorktreeName workflow node = selection := by
  unfold selectedWorktreeName
  rw [if_neg hmode, hworktree]
  cases selection with
  | none => simp
  | some name => simp [hroot name rfl]

/-- How a composed node carries what it means. -/
structure Carries (node : ComposedNode) (lexical : Option (Option String)) : Prop where
  selector : ∀ selection, lexical = some selection →
    node.payload.worktree = some (selection.getD projectRootWorktreeSelector) ∨
      (node.payload.worktree = none ∧ node.implicitWorktreeSelector = selection ∧ node.localWorktreeCount ≤ 1 ∧
        (selection = none → node.localWorktreeCount = 0))
  missing : lexical = none → node.payload.worktree = none ∧ node.implicitWorktreeSelector = none ∧
    2 ≤ node.localWorktreeCount

theorem Placed.carries (henclosing : Enclosing project path context inForce)
    {written : NodeSpec} {node : ComposedNode} (h : Placed context written node)
    (hmode : ¬(node.payload.mode = .input ∨ node.payload.mode = .foreach)) :
    Carries node (lexicalSelection context inForce written.payload) := by
  have hinput : node.payload.mode ≠ .input := fun heq => hmode (Or.inl heq)
  have hforeach : node.payload.mode ≠ .foreach := fun heq => hmode (Or.inr heq)
  have hworktree := h.worktree
  simp only [qualifiedNode, ← h.mode, if_neg hforeach, composeWorktreeSelector] at hworktree
  cases hwritten : written.payload.worktree with
  | some selector =>
    rw [hwritten] at hworktree
    have hlexical : lexicalSelection context inForce written.payload =
        some (if selector = projectRootWorktreeSelector then none
          else some (qualifyId context.namespacePrefix selector)) := by
      simp [lexicalSelection, hwritten]
    rw [hlexical]
    refine ⟨?_, by simp⟩
    intro selection hselection
    cases hselection
    left
    by_cases hselector : selector = projectRootWorktreeSelector
    · simp [hworktree, hselector]
    · simp [hworktree, hselector]
  | none =>
    rw [hwritten] at hworktree
    have himplicit : node.implicitWorktreeSelector = inForceWithin context inForce := by
      rw [h.implicit_eq hinput hforeach hwritten, henclosing.implicit]
    obtain ⟨hone, hmany⟩ := @lexicalSelection_none context inForce written.payload hwritten
    by_cases hcount : context.workflow.worktrees.length ≤ 1
    · rw [hone hcount]
      refine ⟨?_, by simp⟩
      intro selection hselection
      cases hselection
      refine Or.inr ⟨hworktree, himplicit, by rw [h.count]; exact hcount, ?_⟩
      intro hnone
      rw [h.count]
      cases hlist : context.workflow.worktrees with
      | nil => rfl
      | cons first rest =>
        have hrest : rest = [] := List.eq_nil_of_length_eq_zero (by simpa [hlist] using hcount)
        simp [inForceWithin, hlist, hrest] at hnone
    · obtain ⟨hnone, hforce⟩ := hmany (by omega)
      rw [hnone]
      exact ⟨by simp, fun _ => ⟨hworktree, himplicit.trans hforce, by rw [h.count]; omega⟩⟩

end Names

/-! ## Selection in the composed workflow -/

section Root

variable {project : Project} {path : String} {root : CompositionContext} {worktrees : Dict String WorktreeDeclaration}
  {node : ComposedNode} {lexical : Option (Option String)}

/-- The root file, among the worktrees of the whole: what it puts in force is one of them. -/
structure RootOf (root : CompositionContext) (worktrees : Dict String WorktreeDeclaration) : Prop where
  implicit : root.implicitWorktreeSelector = inForceWithin root none
  declared : ∀ name ∈ root.declared, name ∈ Dict.keys worktrees
  counted : root.workflow.worktrees.length ≤ worktrees.length

theorem RootOf.mem_keys (h : RootOf root worktrees) {name : String} (hname : root.implicitWorktreeSelector = some name) :
    name ∈ Dict.keys worktrees := by
  rw [h.implicit] at hname
  unfold inForceWithin at hname
  split at hname
  next => cases hname
  next declared heq =>
    cases hname
    exact h.declared _ (mem_declared_of_single heq)
  next => cases hname

/-- With one worktree in the whole, a node that no file gives one to was under a root without any. -/
theorem RootOf.count_ne_one (h : RootOf root worktrees)
    (hfree : root.implicitWorktreeSelector = none ∨ 2 ≤ worktrees.length) (hone : worktrees.length = 1) :
    root.workflow.worktrees.length ≠ 1 := by
  intro hroot
  have hnone := hfree.resolve_right (by omega)
  obtain ⟨declared, hdeclared⟩ := List.length_eq_one_iff.mp hroot
  rw [h.implicit] at hnone
  simp [inForceWithin, hdeclared] at hnone

/-- The selection of a node of the composed workflow, after its selector is materialized. -/
theorem selected_materialized (hrootOf : RootOf root worktrees)
    (hok : NodeOk project path root.implicitWorktreeSelector worktrees node)
    (hmode : ¬(node.payload.mode = .input ∨ node.payload.mode = .foreach)) (hcarries : Carries node lexical)
    {nodes : List WorkflowNode} {selection : Option String} (hlexical : lexical = some selection)
    (hnamed : ∀ name, selection = some name → name ≠ projectRootWorktreeSelector) :
    selectedWorktreeName ⟨nodes, worktrees⟩
      (if worktrees = [] then node
        else materializeSelector worktrees.length root.workflow.worktrees.length node).payload = selection := by
  have hinput : node.payload.mode ≠ .input := fun heq => hmode (Or.inl heq)
  have hforeach : node.payload.mode ≠ .foreach := fun heq => hmode (Or.inr heq)
  rcases hcarries.selector selection hlexical with hworktree | ⟨hworktree, himplicit, hcount, hzero⟩
  · -- an explicit selector is left as it is
    have hsame : (if worktrees = [] then node
        else materializeSelector worktrees.length root.workflow.worktrees.length node) = node := by
      simp [materializeSelector, needsMaterializedSelector, hworktree]
    rw [hsame]
    exact selectedWorktreeName_selector _ hmode hworktree hnamed
  · have hkeys : ∀ name, selection = some name → name ∈ Dict.keys worktrees := by
      rintro name rfl
      exact (hok.inherits name himplicit).elim hrootOf.mem_keys id
    cases worktrees with
    | nil =>
      have hnone : selection = none := by
        cases selection with
        | none => rfl
        | some name => simpa [Dict.keys] using hkeys name rfl
      rw [hnone]
      simp [selectedWorktreeName, hinput, hforeach, hworktree]
    | cons first rest =>
      rw [if_neg (List.cons_ne_nil first rest)]
      by_cases hneeds : needsMaterializedSelector node (first :: rest).length root.workflow.worktrees.length = true
      · -- the selector is written out
        rw [materializeSelector, if_pos hneeds, himplicit]
        exact selectedWorktreeName_selector _ hmode rfl hnamed
      · rw [materializeSelector, if_neg hneeds]
        have hrest : rest = [] := by
          by_contra hne
          have hlength : 0 < rest.length := List.length_pos_iff.mpr hne
          apply hneeds
          cases selection with
          | none => simp [needsMaterializedSelector, hinput, hforeach, hworktree, himplicit, hzero rfl, hlength]
          | some name => simp [needsMaterializedSelector, hinput, hforeach, hworktree, himplicit, hlength]
        subst hrest
        cases selection with
        | none =>
          have hroot := hrootOf.count_ne_one (hok.free hinput hforeach hworktree (hzero rfl) himplicit) rfl
          refine absurd ?_ hneeds
          simp [needsMaterializedSelector, hinput, hforeach, hworktree, himplicit, hzero rfl, hroot]
        | some name =>
          have hname : name = first.1 := by simpa [Dict.keys] using hkeys name rfl
          simp [selectedWorktreeName, hinput, hforeach, hworktree, hname]

/-- A node that had to choose and did not is left as it is. -/
theorem materialized_missing (composedCount rootCount : Nat) (hcarries : Carries node none) :
    materializeSelector composedCount rootCount node = node := by
  obtain ⟨-, himplicit, hcount⟩ := hcarries.missing rfl
  have hzero : node.localWorktreeCount ≠ 0 := by omega
  simp [materializeSelector, needsMaterializedSelector, himplicit, hzero]

/-- Among several worktrees, a node that means something has a selector. -/
theorem materialized_selector (hmode : ¬(node.payload.mode = .input ∨ node.payload.mode = .foreach))
    (hcarries : Carries node lexical) {selection : Option String} (hlexical : lexical = some selection)
    {composedCount : Nat} (hmany : 1 < composedCount) (rootCount : Nat) :
    (materializeSelector composedCount rootCount node).payload.worktree =
      some (selection.getD projectRootWorktreeSelector) := by
  have hinput : node.payload.mode ≠ .input := fun heq => hmode (Or.inl heq)
  have hforeach : node.payload.mode ≠ .foreach := fun heq => hmode (Or.inr heq)
  rcases hcarries.selector selection hlexical with hworktree | ⟨hworktree, himplicit, hcount, hzero⟩
  · simp [materializeSelector, needsMaterializedSelector, hworktree]
  · have hneeds : needsMaterializedSelector node composedCount rootCount = true := by
      cases selection with
      | none => simp [needsMaterializedSelector, hinput, hforeach, hworktree, himplicit, hzero rfl, hmany]
      | some name => simp [needsMaterializedSelector, hinput, hforeach, hworktree, himplicit, hmany]
    rw [materializeSelector, if_pos hneeds, himplicit]

/-- A node of a template has its selector written out, whatever was materialized before. -/
theorem inventoryChildNode_worktree (hmode : ¬(node.payload.mode = .input ∨ node.payload.mode = .foreach))
    (hcarries : Carries node lexical) {selection : Option String} (hlexical : lexical = some selection)
    (composedCount rootCount : Nat) :
    (inventoryChildNode (materializeSelector composedCount rootCount node)).worktree =
      some (selection.getD projectRootWorktreeSelector) := by
  have hinput : node.payload.mode ≠ .input := fun heq => hmode (Or.inl heq)
  rcases hcarries.selector selection hlexical with hworktree | ⟨hworktree, himplicit, -⟩
  · simp [materializeSelector, needsMaterializedSelector, inventoryChildNode, hworktree, hinput]
  · unfold materializeSelector
    split
    · simp [inventoryChildNode, himplicit, hinput]
    · simp [inventoryChildNode, himplicit, hinput, hworktree]

end Root

/-! ## The composed document -/

section Document

variable {project : Project} {path : String} {document : ComposedWorkflowDocument}

theorem compose_part (hparsed : project.WorktreesParsed) (h : compose project path = .ok document) :
    ∃ root nodes, contextOf project (rootArgs path) = .ok root ∧ RootOf root document.worktrees ∧
      document.nodes = materializeSelectors nodes document.worktrees.length root.workflow.worktrees.length ∧
      Part project path root.implicitWorktreeSelector (DeclaredBelow project root) nodes document.worktrees
        document.foreachTemplates := by
  unfold compose at h
  obtain ⟨workflow, hload, h⟩ := (do_eq_ok ..).mp h
  obtain ⟨start, hstart, h⟩ := (do_eq_ok ..).mp h
  obtain ⟨⟨composition, composer⟩, hfile, h⟩ := (do_eq_ok ..).mp h
  cases h
  obtain ⟨hregistered, -, htemplates⟩ := registered_start _ _ hstart
  obtain ⟨root, -, -, -, -, -, hroot, -⟩ := composeFile_eq_ok hfile
  obtain ⟨templates, hafter, hpart, hdeclared, hcount⟩ := composeFile_placed hparsed hroot _ _ _ _ _ hregistered hfile
    root none hroot (Enclosing.root hroot)
  rw [htemplates, List.nil_append] at hafter
  have hworkflow : workflow = root.workflow := by
    have hloaded := (contextOf_eq_ok hroot).1
    change loadWorkflowFile project path = .ok root.workflow at hloaded
    rw [hload] at hloaded
    exact Except.ok.inj hloaded
  rw [hworkflow]
  refine ⟨root, composition.nodes, hroot, ⟨contextOf_implicit hroot, hdeclared, hcount⟩, rfl, ?_⟩
  rw [hafter]
  exact hpart

/-- The nodes of a document, each as what it was before materialization. -/
theorem mem_materializeSelectors {nodes : List ComposedNode} {worktrees : Dict String WorktreeDeclaration}
    {rootCount : Nat} {node : ComposedNode} :
    node ∈ materializeSelectors nodes worktrees.length rootCount ↔ ∃ source ∈ nodes,
      (if worktrees = [] then source else materializeSelector worktrees.length rootCount source) = node := by
  unfold materializeSelectors
  by_cases hempty : worktrees = []
  · simp [hempty]
  · have hlength : worktrees.length ≠ 0 := fun hzero => hempty (List.eq_nil_of_length_eq_zero hzero)
    simp [hempty]

theorem materializeSelector_id_mode (composedCount rootCount : Nat) (source : ComposedNode) :
    (materializeSelector composedCount rootCount source).payload.id = source.payload.id ∧
      (materializeSelector composedCount rootCount source).payload.mode = source.payload.mode := by
  unfold materializeSelector
  split
  · exact ⟨rfl, rfl⟩
  · exact ⟨rfl, rfl⟩

theorem materialized_id_mode (worktrees : Dict String WorktreeDeclaration) (rootCount : Nat) (source : ComposedNode) :
    (if worktrees = [] then source else materializeSelector worktrees.length rootCount source).payload.id =
        source.payload.id ∧
      (if worktrees = [] then source else materializeSelector worktrees.length rootCount source).payload.mode =
        source.payload.mode := by
  split
  · exact ⟨rfl, rfl⟩
  · exact materializeSelector_id_mode _ _ _

theorem inventoryParentNode_id_mode (workflow : WorkflowPlan) (node : WorkflowNode) :
    (inventoryParentNode workflow node).id = node.id ∧ (inventoryParentNode workflow node).mode = node.mode := by
  unfold inventoryParentNode
  split
  · exact ⟨rfl, rfl⟩
  · exact ⟨rfl, rfl⟩

theorem inventoryChildNode_id_mode (node : ComposedNode) :
    (inventoryChildNode node).id = node.payload.id ∧ (inventoryChildNode node).mode = node.payload.mode := by
  unfold inventoryChildNode
  split
  · exact ⟨rfl, rfl⟩
  · exact ⟨rfl, rfl⟩

/-- The inventory has the nodes of the document and of its templates, under the same ids. -/
theorem inventory_ids (document : ComposedWorkflowDocument) :
    (inventoryWorkflow document).nodes.map (·.id) = idsOf document.composedNodes := by
  unfold inventoryWorkflow
  split
  next hempty =>
    simp [ComposedWorkflowDocument.workflow, ComposedWorkflowDocument.composedNodes, hempty, idsOf, templateNodes]
  next =>
    have hparent : ∀ nodes : List WorkflowNode,
        (nodes.map (inventoryParentNode document.workflow)).map (·.id) = nodes.map (·.id) := by
      intro nodes
      rw [List.map_map]
      exact List.map_congr_left fun node _ => (inventoryParentNode_id_mode _ node).1
    have hchild : ∀ nodes : List ComposedNode, (nodes.map inventoryChildNode).map (·.id) = nodes.map (·.payload.id) := by
      intro nodes
      rw [List.map_map]
      exact List.map_congr_left fun node _ => (inventoryChildNode_id_mode node).1
    rw [List.map_append, hparent, List.map_flatMap]
    simp [hchild, ComposedWorkflowDocument.workflow, ComposedWorkflowDocument.composedNodes, idsOf, templateNodes,
      List.map_flatMap]

theorem mem_keys_inventoryWorktrees (worktrees : Dict String WorktreeDeclaration)
    (templates : Dict String ComposedForeach) (name : String) :
    name ∈ Dict.keys (inventoryWorktrees worktrees templates) ↔
      name ∈ Dict.keys worktrees ∨ ∃ entry ∈ templates, name ∈ Dict.keys entry.2.worktrees := by
  unfold inventoryWorktrees
  induction templates generalizing worktrees with
  | nil => simp
  | cons entry templates ih =>
    rw [List.foldl_cons, ih, Dict.mem_keys_update]
    simp only [List.mem_cons, exists_eq_or_imp, or_assoc]

theorem nodup_inventoryWorktrees {worktrees : Dict String WorktreeDeclaration} (h : (Dict.keys worktrees).Nodup)
    (templates : Dict String ComposedForeach) : (Dict.keys (inventoryWorktrees worktrees templates)).Nodup := by
  unfold inventoryWorktrees
  induction templates generalizing worktrees with
  | nil => exact h
  | cons entry templates ih => exact ih (Dict.nodup_keys_update h _)

/-- A node of the inventory, with the local node it was composed from and what that one means. -/
structure Resolved (project : Project) (path : String) (workflow : WorkflowPlan) (node : WorkflowNode)
    (context : CompositionContext) (inForce : Option String) (written : NodeSpec) : Prop where
  enclosing : Enclosing project path context inForce
  keeps : context.Keeps written
  id : node.id = qualifyId context.namespacePrefix written.payload.id
  mode : node.mode = written.payload.mode
  selected : ¬(node.mode = .input ∨ node.mode = .foreach) → ∀ selection,
    lexicalSelection context inForce written.payload = some selection → selectedWorktreeName workflow node = selection

theorem inventory_resolved (hparsed : project.WorktreesParsed) (h : compose project path = .ok document) :
    ∀ node ∈ (inventoryWorkflow document).nodes, ∃ context inForce written,
      Resolved project path (inventoryWorkflow document) node context inForce written := by
  obtain ⟨root, nodes, -, hrootOf, hnodes, hpart⟩ := compose_part hparsed h
  -- a node of the document, before the inventory is taken
  have hparent : ∀ node ∈ document.workflow.nodes, ∃ context inForce written,
      Resolved project path document.workflow node context inForce written := by
    intro node hnode
    obtain ⟨composed, hcomposed, rfl⟩ := List.mem_map.mp hnode
    rw [hnodes] at hcomposed
    obtain ⟨source, hsource, rfl⟩ := mem_materializeSelectors.mp hcomposed
    obtain ⟨hid, hmode⟩ := materialized_id_mode document.worktrees root.workflow.worktrees.length source
    have hok := hpart.ok source hsource
    obtain ⟨context, inForce, written, henclosing, hplaced⟩ := hok.placed
    refine ⟨context, inForce, written, henclosing, hplaced.keeps, hid.trans hplaced.id, hmode.trans hplaced.mode, ?_⟩
    intro hprovider selection hselection
    rw [hmode] at hprovider
    refine selected_materialized hrootOf hok hprovider (hplaced.carries henclosing hprovider) hselection ?_
    rintro name rfl
    exact lexicalSelection_ne_root hparsed henclosing hselection
  unfold inventoryWorkflow
  split
  next => exact hparent
  next =>
    intro node hnode
    rcases List.mem_append.mp hnode with hnode | hnode
    · obtain ⟨source, hsource, rfl⟩ := List.mem_map.mp hnode
      obtain ⟨context, inForce, written, hresolved⟩ := hparent source hsource
      obtain ⟨hid, hmode⟩ := inventoryParentNode_id_mode document.workflow source
      refine ⟨context, inForce, written, hresolved.enclosing, hresolved.keeps, hid.trans hresolved.id,
        hmode.trans hresolved.mode, ?_⟩
      intro hprovider selection hselection
      refine selectedWorktreeName_selector _ hprovider ?_ ?_
      · rw [hmode] at hprovider
        rw [inventoryParentNode, if_neg hprovider, hresolved.selected hprovider selection hselection]
      · rintro name rfl
        exact lexicalSelection_ne_root hparsed hresolved.enclosing hselection
    · obtain ⟨entry, hentry, hnode⟩ := List.mem_flatMap.mp hnode
      obtain ⟨child, hchild, rfl⟩ := List.mem_map.mp hnode
      obtain ⟨source, composedCount, rootCount, ⟨context, inForce, written, henclosing, hplaced⟩, rfl⟩ :=
        hpart.children entry hentry child hchild
      obtain ⟨hid, hmode⟩ := inventoryChildNode_id_mode (materializeSelector composedCount rootCount source)
      obtain ⟨hid', hmode'⟩ := materializeSelector_id_mode composedCount rootCount source
      refine ⟨context, inForce, written, henclosing, hplaced.keeps, hid.trans (hid'.trans hplaced.id),
        hmode.trans (hmode'.trans hplaced.mode), ?_⟩
      intro hprovider selection hselection
      refine selectedWorktreeName_selector _ hprovider ?_ ?_
      · rw [hmode, hmode'] at hprovider
        exact inventoryChildNode_worktree hprovider (hplaced.carries henclosing hprovider) hselection _ _
      · rintro name rfl
        exact lexicalSelection_ne_root hparsed henclosing hselection

/-- Selection is lexical: every node of the workflow is a local node of an instance, and every provider node of
every instance is in the workflow once and selects what it means there. -/
structure SelectsLexically (project : Project) (path : String) (workflow : WorkflowPlan) : Prop where
  origin : ∀ node ∈ workflow.nodes, ∃ context inForce written, Enclosing project path context inForce ∧
    context.Keeps written ∧ node.id = qualifyId context.namespacePrefix written.payload.id ∧
    node.mode = written.payload.mode
  selected : ∀ context inForce written, Enclosing project path context inForce → context.Keeps written →
    IsPrompt written.payload → ∃ node ∈ workflow.nodes,
      node.id = qualifyId context.namespacePrefix written.payload.id ∧
      (∀ other ∈ workflow.nodes, other.id = node.id → other = node) ∧
      ∀ selection, lexicalSelection context inForce written.payload = some selection →
        selectedWorktreeName workflow node = selection

/-- The missing-selector diagnostic is about the provider nodes that have to choose a worktree and do not. -/
def DiagnosesExactly (project : Project) (path : String) (workflow : WorkflowPlan) : Prop :=
  ∀ nodeId, (∃ diagnostic ∈ missingSelectorDiagnostics workflow, diagnostic.nodeId = some nodeId) ↔
    ∃ context inForce written, Enclosing project path context inForce ∧ context.Keeps written ∧
      IsPrompt written.payload ∧ lexicalSelection context inForce written.payload = none ∧
      nodeId = qualifyId context.namespacePrefix written.payload.id

/-- A foreach node is kept somewhere in the import tree. -/
def HasForeach (project : Project) (path : String) : Prop :=
  ∃ context inForce written, Enclosing project path context inForce ∧ context.Keeps written ∧
    written.payload.mode = .foreach

/-- All files of the import tree, those of templates included, declare at most one worktree together. -/
def AtMostOneWorktree (project : Project) (path : String) : Prop :=
  ∀ context inForce context' inForce' name name', Enclosing project path context inForce →
    Enclosing project path context' inForce' → name ∈ context.declared → name' ∈ context'.declared → name = name'

theorem isPrompt_iff {node : WorkflowNode} : IsPrompt node ↔ ¬(node.mode = .input ∨ node.mode = .foreach) := by
  unfold IsPrompt
  cases node.mode <;> simp

theorem Enclosing.asInstance {context : CompositionContext} {inForce : Option String}
    (h : Enclosing project path context inForce) : ∃ frames, Instance project path frames context := by
  obtain ⟨root, frames, hroot, hdescends⟩ := h.instance
  exact ⟨frames, root, hroot, hdescends⟩

theorem inventory_selectsLexically (hparsed : project.WorktreesParsed) (h : compose project path = .ok document) :
    SelectsLexically project path (inventoryWorkflow document) where
  origin := by
    intro node hnode
    obtain ⟨context, inForce, written, hresolved⟩ := inventory_resolved hparsed h node hnode
    exact ⟨context, inForce, written, hresolved.enclosing, hresolved.keeps, hresolved.id, hresolved.mode⟩
  selected := by
    intro context inForce written henclosing hkeeps hprompt
    obtain ⟨hnodup, root, hroot, sites, hsites, hderived, hcovered⟩ := compose_sites h
    obtain ⟨frames, hinstance⟩ := henclosing.asInstance
    obtain ⟨root', hroot', hdescends⟩ := hinstance
    rw [hroot] at hroot'
    obtain rfl := Except.ok.inj hroot'
    obtain ⟨site, hsite, rfl, rfl⟩ := (hcovered context written).mp ⟨⟨frames, hdescends⟩, hkeeps⟩
    have hid := (composedFrom_of_derived hroot hdescends hkeeps (hderived site hsite)).id
    have hmem : site.node.payload.id ∈ (inventoryWorkflow document).nodes.map (·.id) := by
      rw [inventory_ids, ← hsites]
      exact List.mem_map_of_mem (List.mem_map_of_mem hsite)
    obtain ⟨node, hnode, hnodeId⟩ := List.mem_map.mp hmem
    refine ⟨node, hnode, hnodeId.trans hid, ?_, ?_⟩
    · intro other hother heq
      rw [← inventory_ids] at hnodup
      exact List.inj_on_of_nodup_map hnodup hother hnode heq
    · intro selection hselection
      obtain ⟨context', inForce', written', hresolved⟩ := inventory_resolved hparsed h node hnode
      obtain ⟨frames', hinstance'⟩ := hresolved.enclosing.asInstance
      obtain ⟨rfl, rfl⟩ := instance_unique h ⟨_, hroot, hdescends⟩ hkeeps hinstance' hresolved.keeps
        (hresolved.id.symm.trans (hnodeId.trans hid))
      rw [lexicalSelection_eq henclosing, ← lexicalSelection_eq hresolved.enclosing] at hselection
      refine hresolved.selected ?_ selection hselection
      rw [hresolved.mode]
      exact isPrompt_iff.mp hprompt

theorem mem_missingSelectorDiagnostics {workflow : WorkflowPlan} {nodeId : String} :
    (∃ diagnostic ∈ missingSelectorDiagnostics workflow, diagnostic.nodeId = some nodeId) ↔
      1 < workflow.worktrees.length ∧ ∃ node ∈ workflow.nodes, node.mode ≠ .input ∧ node.worktree = none ∧
        node.id = nodeId := by
  unfold missingSelectorDiagnostics
  by_cases hmany : workflow.worktrees.length ≤ 1
  · simp [hmany, Nat.not_lt.mpr hmany]
  · rw [if_neg hmany]
    simp [workspaceDiagnostic, Nat.lt_of_not_le hmany, and_assoc]

/-- Every worktree of the inventory is declared by an instance, and the other way round. -/
theorem mem_keys_inventory (hparsed : project.WorktreesParsed) (h : compose project path = .ok document)
    (name : String) : name ∈ Dict.keys (inventoryWorkflow document).worktrees ↔
      ∃ context inForce, Enclosing project path context inForce ∧ name ∈ context.declared := by
  obtain ⟨root, nodes, hroot, -, -, hpart⟩ := compose_part hparsed h
  have hall : DeclaredBelow project root name ↔
      ∃ context inForce, Enclosing project path context inForce ∧ name ∈ context.declared := by
    constructor
    · rintro ⟨frames, below, hdescends, hname⟩
      obtain ⟨inForce, henclosing⟩ := (Enclosing.root hroot).descends hdescends
      exact ⟨below, inForce, henclosing, hname⟩
    · rintro ⟨context, inForce, henclosing, hname⟩
      obtain ⟨root', frames, hroot', hdescends⟩ := henclosing.instance
      rw [hroot] at hroot'
      obtain rfl := Except.ok.inj hroot'
      exact ⟨frames, context, hdescends, hname⟩
  rw [← hall, hpart.covers]
  unfold inventoryWorkflow
  split
  next hempty => simp [hempty, ComposedWorkflowDocument.workflow]
  next => exact mem_keys_inventoryWorktrees _ _ _

theorem nodup_inventory (hparsed : project.WorktreesParsed) (h : compose project path = .ok document) :
    (Dict.keys (inventoryWorkflow document).worktrees).Nodup := by
  obtain ⟨root, nodes, -, -, -, hpart⟩ := compose_part hparsed h
  unfold inventoryWorkflow
  split
  next => exact hpart.nodup
  next => exact nodup_inventoryWorktrees hpart.nodup _

theorem atMostOneWorktree_iff (hparsed : project.WorktreesParsed) (h : compose project path = .ok document) :
    AtMostOneWorktree project path ↔ (inventoryWorkflow document).worktrees.length ≤ 1 := by
  have hkeys := mem_keys_inventory hparsed h
  have hnodup := nodup_inventory hparsed h
  have hlength : (inventoryWorkflow document).worktrees.length = (Dict.keys (inventoryWorkflow document).worktrees).length := by
    simp [Dict.keys]
  rw [hlength]
  generalize Dict.keys (inventoryWorkflow document).worktrees = keys at hkeys hnodup
  constructor
  · intro hone
    cases keys with
    | nil => simp
    | cons first rest =>
      cases rest with
      | nil => simp
      | cons second rest =>
        obtain ⟨context, inForce, henclosing, hname⟩ := (hkeys first).mp (by simp)
        obtain ⟨context', inForce', henclosing', hname'⟩ := (hkeys second).mp (by simp)
        have := hone _ _ _ _ _ _ henclosing henclosing' hname hname'
        simp [this] at hnodup
  · intro hlength context inForce context' inForce' name name' henclosing henclosing' hname hname'
    have hmem := (hkeys name).mpr ⟨context, inForce, henclosing, hname⟩
    have hmem' := (hkeys name').mpr ⟨context', inForce', henclosing', hname'⟩
    cases keys with
    | nil => cases hmem
    | cons first rest =>
      have hrest : rest = [] := List.eq_nil_of_length_eq_zero (by simpa using hlength)
      rw [hrest, List.mem_singleton] at hmem hmem'
      rw [hmem, hmem']

/-- A node that has to choose is in a file that declares several worktrees. -/
theorem not_atMostOneWorktree (hparsed : project.WorktreesParsed) {context : CompositionContext}
    {inForce : Option String} (henclosing : Enclosing project path context inForce) {written : WorkflowNode}
    (hlexical : lexicalSelection context inForce written = none) : ¬AtMostOneWorktree project path := by
  intro hone
  obtain ⟨file, hload⟩ := henclosing.load
  have hnodup := hparsed.nodup _ _ hload
  unfold lexicalSelection at hlexical
  split at hlexical
  next => cases hlexical
  next =>
    split at hlexical
    next => cases hlexical
    next => cases hlexical
    next hempty hsingle =>
      cases hlist : context.workflow.worktrees with
      | nil => exact hempty hlist
      | cons first rest =>
        cases rest with
        | nil => exact hsingle first hlist
        | cons second rest =>
          have heq := hone _ _ _ _ (qualifyId context.namespacePrefix first.1)
            (qualifyId context.namespacePrefix second.1) henclosing henclosing
            (by simp [CompositionContext.declared, Dict.keys, hlist])
            (by simp [CompositionContext.declared, Dict.keys, hlist])
          rw [hlist] at hnodup
          simp [Dict.keys, qualifyId_inj heq] at hnodup

/-- Without foreach nodes there are no templates, and with them there is one at least. -/
theorem hasForeach_iff (h : compose project path = .ok document) {root : CompositionContext}
    {nodes : List ComposedNode} {rootCount : Nat} (hroot : contextOf project (rootArgs path) = .ok root)
    (hnodes : document.nodes = materializeSelectors nodes document.worktrees.length rootCount)
    (hpart : Part project path root.implicitWorktreeSelector (DeclaredBelow project root) nodes document.worktrees
      document.foreachTemplates) :
    HasForeach project path ↔ document.foreachTemplates ≠ [] := by
  constructor
  · rintro ⟨context, inForce, written, henclosing, hkeeps, hmode⟩ hempty
    obtain ⟨-, root', hroot', sites, hsites, hderived, hcovered⟩ := compose_sites h
    rw [hroot] at hroot'
    obtain rfl := Except.ok.inj hroot'
    obtain ⟨root', frames, hroot', hdescends⟩ := henclosing.instance
    rw [hroot] at hroot'
    obtain rfl := Except.ok.inj hroot'
    obtain ⟨site, hsite, rfl, rfl⟩ := (hcovered context written).mp ⟨⟨frames, hdescends⟩, hkeeps⟩
    have hfrom := composedFrom_of_derived hroot hdescends hkeeps (hderived site hsite)
    have hmem : site.node ∈ document.composedNodes := by
      rw [← hsites]
      exact List.mem_map_of_mem hsite
    rw [ComposedWorkflowDocument.composedNodes, hempty] at hmem
    simp only [templateNodes, List.flatMap_nil, List.append_nil] at hmem
    rw [hnodes] at hmem
    obtain ⟨source, hsource, heq⟩ := mem_materializeSelectors.mp hmem
    have hforeach := (materialized_id_mode document.worktrees rootCount source).2
    rw [heq, hfrom.mode, hmode] at hforeach
    exact hpart.template_of_node source hsource hforeach.symm hempty
  · intro hne
    obtain ⟨node, hnode, hmode⟩ := hpart.node_of_template hne
    obtain ⟨context, inForce, written, henclosing, hplaced⟩ := (hpart.ok node hnode).placed
    exact ⟨context, inForce, written, henclosing, hplaced.keeps, hplaced.mode.symm.trans hmode⟩

/-- A foreach node of the inventory has no selector. -/
theorem exists_foreach_unselected (hparsed : project.WorktreesParsed) (h : compose project path = .ok document)
    (hforeach : HasForeach project path) : ∃ node ∈ (inventoryWorkflow document).nodes, node.mode = .foreach ∧
      node.worktree = none := by
  obtain ⟨root, nodes, hroot, -, hnodes, hpart⟩ := compose_part hparsed h
  have hne := (hasForeach_iff h hroot hnodes hpart).mp hforeach
  obtain ⟨source, hsource, hmode⟩ := hpart.node_of_template hne
  obtain ⟨context, inForce, written, henclosing, hplaced⟩ := (hpart.ok source hsource).placed
  obtain ⟨file, hload⟩ := henclosing.load
  have hworktree : source.payload.worktree = none := by
    have hwritten := hplaced.mode.symm.trans hmode
    rw [hplaced.worktree]
    simp only [qualifiedNode, hwritten, if_true]
    exact hparsed.selectors _ _ hload written hplaced.keeps.1 (Or.inr hwritten)
  have hsame : (if document.worktrees = [] then source
      else materializeSelector document.worktrees.length root.workflow.worktrees.length source) = source := by
    simp [materializeSelector, needsMaterializedSelector, hmode]
  have hmem : source ∈ document.nodes := by
    rw [hnodes]
    exact mem_materializeSelectors.mpr ⟨source, hsource, hsame⟩
  refine ⟨source.payload, ?_, hmode, hworktree⟩
  have hinventory : inventoryParentNode document.workflow source.payload = source.payload := by
    simp [inventoryParentNode, hmode]
  rw [inventoryWorkflow, if_neg hne]
  refine List.mem_append_left _ ?_
  rw [← hinventory]
  exact List.mem_map_of_mem (List.mem_map_of_mem hmem)

/-- Without foreach nodes, and among several worktrees, exactly the nodes that have to choose have no selector. -/
theorem unselected_iff (hparsed : project.WorktreesParsed) (h : compose project path = .ok document)
    (hforeach : ¬HasForeach project path) (hmany : 1 < document.worktrees.length) (nodeId : String) :
    (∃ node ∈ document.workflow.nodes, node.mode ≠ .input ∧ node.worktree = none ∧ node.id = nodeId) ↔
      ∃ context inForce written, Enclosing project path context inForce ∧ context.Keeps written ∧
        IsPrompt written.payload ∧ lexicalSelection context inForce written.payload = none ∧
        nodeId = qualifyId context.namespacePrefix written.payload.id := by
  obtain ⟨root, nodes, hroot, -, hnodes, hpart⟩ := compose_part hparsed h
  have hempty : document.foreachTemplates = [] := by
    by_contra hne
    exact hforeach ((hasForeach_iff h hroot hnodes hpart).mpr hne)
  have hworktrees : document.worktrees ≠ [] := by
    rintro hnil
    simp [hnil] at hmany
  constructor
  · rintro ⟨node, hnode, hinput, hworktree, hid⟩
    obtain ⟨composed, hcomposed, rfl⟩ := List.mem_map.mp hnode
    rw [hnodes] at hcomposed
    obtain ⟨source, hsource, rfl⟩ := mem_materializeSelectors.mp hcomposed
    obtain ⟨hsourceId, hmode⟩ := materialized_id_mode document.worktrees root.workflow.worktrees.length source
    obtain ⟨context, inForce, written, henclosing, hplaced⟩ := (hpart.ok source hsource).placed
    have hprovider : ¬(source.payload.mode = .input ∨ source.payload.mode = .foreach) := by
      rintro (hsourceMode | hsourceMode)
      · exact hinput (hmode.trans hsourceMode)
      · exact hforeach ⟨context, inForce, written, henclosing, hplaced.keeps, hplaced.mode.symm.trans hsourceMode⟩
    refine ⟨context, inForce, written, henclosing, hplaced.keeps, ?_, ?_, ?_⟩
    · rw [isPrompt_iff, ← hplaced.mode]
      exact hprovider
    · cases hlexical : lexicalSelection context inForce written.payload with
      | none => rfl
      | some selection =>
        have hselector := materialized_selector hprovider (hplaced.carries henclosing hprovider) hlexical hmany
          root.workflow.worktrees.length
        rw [if_neg hworktrees, hselector] at hworktree
        cases hworktree
    · rw [← hid, hsourceId, hplaced.id]
  · rintro ⟨context, inForce, written, henclosing, hkeeps, hprompt, hlexical, rfl⟩
    obtain ⟨node, hnode, hid, -⟩ :=
      (inventory_selectsLexically hparsed h).selected context inForce written henclosing hkeeps hprompt
    rw [inventoryWorkflow, if_pos hempty] at hnode
    obtain ⟨composed, hcomposed, rfl⟩ := List.mem_map.mp hnode
    rw [hnodes] at hcomposed
    obtain ⟨source, hsource, rfl⟩ := mem_materializeSelectors.mp hcomposed
    obtain ⟨hsourceId, hmode⟩ := materialized_id_mode document.worktrees root.workflow.worktrees.length source
    obtain ⟨context', inForce', written', henclosing', hplaced⟩ := (hpart.ok source hsource).placed
    obtain ⟨frames, hinstance⟩ := henclosing.asInstance
    obtain ⟨frames', hinstance'⟩ := henclosing'.asInstance
    obtain ⟨rfl, rfl⟩ := instance_unique h hinstance hkeeps hinstance' hplaced.keeps
      (hplaced.id.symm.trans (hsourceId.symm.trans hid))
    rw [lexicalSelection_eq henclosing, ← lexicalSelection_eq henclosing'] at hlexical
    have hprovider : ¬(source.payload.mode = .input ∨ source.payload.mode = .foreach) := by
      rw [hplaced.mode]
      exact isPrompt_iff.mp hprompt
    have hcarries := hplaced.carries henclosing' hprovider
    rw [hlexical] at hcarries
    have hsame := materialized_missing document.worktrees.length root.workflow.worktrees.length hcarries
    refine ⟨source.payload, ?_, fun hinput => hprovider (Or.inl hinput), (hcarries.missing rfl).1, hplaced.id⟩
    rw [if_neg hworktrees, hsame] at hnode
    exact hnode

/-- The diagnostic is exact where no foreach node is kept, and where it never appears. -/
theorem diagnosesExactly_iff (hparsed : project.WorktreesParsed) (h : compose project path = .ok document) :
    DiagnosesExactly project path (inventoryWorkflow document) ↔
      ¬HasForeach project path ∨ AtMostOneWorktree project path := by
  have hone := atMostOneWorktree_iff hparsed h
  constructor
  · intro hexact
    by_contra hnot
    rw [not_or, not_not, hone, not_le] at hnot
    obtain ⟨hforeach, hmany⟩ := hnot
    obtain ⟨node, hnode, hmode, hworktree⟩ := exists_foreach_unselected hparsed h hforeach
    -- the foreach node is reported, and it is no provider node
    obtain ⟨context, inForce, written, henclosing, hkeeps, hprompt, -, hid⟩ := (hexact node.id).mp
      (mem_missingSelectorDiagnostics.mpr ⟨hmany, node, hnode, by simp [hmode], hworktree, rfl⟩)
    obtain ⟨context', inForce', written', hresolved⟩ := inventory_resolved hparsed h node hnode
    obtain ⟨frames, hinstance⟩ := henclosing.asInstance
    obtain ⟨frames', hinstance'⟩ := hresolved.enclosing.asInstance
    obtain ⟨rfl, rfl⟩ := instance_unique h hinstance hkeeps hinstance' hresolved.keeps (hresolved.id.symm.trans hid)
    exact isPrompt_iff.mp hprompt (Or.inr (hresolved.mode.symm.trans hmode))
  · intro hcondition nodeId
    rw [mem_missingSelectorDiagnostics]
    by_cases hmany : 1 < (inventoryWorkflow document).worktrees.length
    · have hnotOne : ¬AtMostOneWorktree project path := by
        rw [hone]
        omega
      have hforeach := hcondition.resolve_right hnotOne
      obtain ⟨root, nodes, hroot, -, hnodes, hpart⟩ := compose_part hparsed h
      have hempty : document.foreachTemplates = [] := by
        by_contra hne
        exact hforeach ((hasForeach_iff h hroot hnodes hpart).mpr hne)
      rw [inventoryWorkflow, if_pos hempty] at hmany ⊢
      rw [unselected_iff hparsed h hforeach hmany]
      exact and_iff_right hmany
    · have hatMost : AtMostOneWorktree project path := by
        rw [hone]
        omega
      constructor
      · exact fun hboth => absurd hboth.1 hmany
      · rintro ⟨context, inForce, written, henclosing, -, -, hlexical, -⟩
        exact absurd hatMost (not_atMostOneWorktree hparsed henclosing hlexical)

end Document

/-- Selection is lexical in every workflow that composes; the missing-selector diagnostic is about exactly the provider
nodes that have to choose if and only if the import tree has no foreach node or at most one worktree. -/
theorem worktree_selection_lexical (project : Project) (path : String) (document : ComposedWorkflowDocument)
    (hparsed : project.WorktreesParsed) (h : compose project path = .ok document) :
    SelectsLexically project path (inventoryWorkflow document) ∧
      (SelectsLexically project path (inventoryWorkflow document) ∧
        DiagnosesExactly project path (inventoryWorkflow document) ↔
        ¬HasForeach project path ∨ AtMostOneWorktree project path) := by
  have hlexical := inventory_selectsLexically hparsed h
  refine ⟨hlexical, ?_⟩
  rw [and_iff_right hlexical]
  exact diagnosesExactly_iff hparsed h

/-! ## A foreach node among several worktrees

The root file declares two worktrees. Its provider node selects one, its foreach node cannot select any. -/

def chunksNode : NodeSpec where
  payload :=
    { id := "chunks", mode := .foreach, items := some (.literal 1), workflow := some "child.md"
      itemInput := some "item" }
  sourcePath := "root.md"

theorem aliases_ok_nil : ∀ spec ∈ ([] : List ImportSpec), matchesNodeId spec.importAlias = true := by simp

theorem import_keys_nil : ∀ spec ∈ ([] : List ImportSpec),
    (Dict.keys spec.withParams).Nodup ∧ (Dict.keys spec.inputs).Nodup := by simp

def foreachRootFile : ParsedWorkflow where
  schemaVersion := "1.0"
  worktrees := [("first", { kind := "worktree" }), ("second", { kind := "worktree" })]
  nodes := [{ payload := { id := "plan", mode := .parallel, worktree := some "first" }, sourcePath := "root.md" },
    chunksNode]
  aliases_ok := aliases_ok_nil
  import_keys := import_keys_nil
  foreach_keys := by simp [chunksNode, Dict.keys]
  foreach_inputs := by simp [chunksNode]

def foreachChildFile : ParsedWorkflow where
  schemaVersion := "1.0"
  inputs := [("item", "item")]
  nodes := [{ payload := { id := "item", mode := .input }, sourcePath := "child.md" },
    { payload := { id := "work", mode := .parallel }, sourcePath := "child.md" }]
  aliases_ok := aliases_ok_nil
  import_keys := import_keys_nil
  foreach_keys := by simp [Dict.keys]
  foreach_inputs := by simp

def foreachLoad (path : String) : Except String ParsedWorkflow :=
  if path = "root.md" then .ok foreachRootFile
  else if path = "child.md" then .ok foreachChildFile
  else .error "Workflow file does not exist"

theorem foreachLoad_eq_ok {path : String} {workflow : ParsedWorkflow} (h : foreachLoad path = .ok workflow) :
    (path = "root.md" ∧ workflow = foreachRootFile) ∨ (path = "child.md" ∧ workflow = foreachChildFile) := by
  unfold foreachLoad at h
  split at h
  next hpath =>
    cases h
    exact Or.inl ⟨hpath, rfl⟩
  next =>
    split at h
    next hpath =>
      cases h
      exact Or.inr ⟨hpath, rfl⟩
    next => cases h

def foreachProject : Project where
  files := ["root.md", "child.md"]
  load := foreachLoad
  resolveImportFile _ rawPath := .ok rawPath
  mem_files := by
    intro path workflow h
    rcases foreachLoad_eq_ok h with ⟨rfl, -⟩ | ⟨rfl, -⟩
    · simp
    · simp

theorem foreachProject_parsed : foreachProject.WorktreesParsed where
  nodup := by
    intro path workflow h
    rcases foreachLoad_eq_ok h with ⟨-, rfl⟩ | ⟨-, rfl⟩
    · simp [foreachRootFile, Dict.keys]
    · simp [foreachChildFile, Dict.keys]
  named := by
    intro path workflow h
    rcases foreachLoad_eq_ok h with ⟨-, rfl⟩ | ⟨-, rfl⟩
    · simp [foreachRootFile, Dict.keys, projectRootWorktreeSelector]
    · simp [foreachChildFile, Dict.keys]
  selectors := by
    intro path workflow h
    rcases foreachLoad_eq_ok h with ⟨-, rfl⟩ | ⟨-, rfl⟩
    · simp [foreachRootFile, chunksNode]
    · simp [foreachChildFile]

def foreachRootContext : CompositionContext :=
  { workflow := foreachRootFile, namespacePrefix := "", inheritedParams := [], boundInputNodes := []
    importStack := ["root.md"] }

theorem foreachProject_composes : ∃ document, compose foreachProject "root.md" = .ok document := by
  cases h : compose foreachProject "root.md" with
  | ok document => exact ⟨document, rfl⟩
  | error e =>
    have : (compose foreachProject "root.md").toOption.isSome = true := by decide +kernel
    rw [h] at this
    simp [Except.toOption] at this

/-- No provider node has to choose here, and the foreach node is told to. -/
theorem foreach_node_reported : ∃ document, compose foreachProject "root.md" = .ok document ∧
    (missingSelectorDiagnostics (inventoryWorkflow document)).map (·.nodeId) = [some "chunks"] ∧
    ¬(SelectsLexically foreachProject "root.md" (inventoryWorkflow document) ∧
      DiagnosesExactly foreachProject "root.md" (inventoryWorkflow document)) := by
  obtain ⟨document, hdocument⟩ := foreachProject_composes
  have hreported : (compose foreachProject "root.md").toOption.map (fun document =>
      (missingSelectorDiagnostics (inventoryWorkflow document)).map (·.nodeId)) = some [some "chunks"] := by
    decide +kernel
  rw [hdocument] at hreported
  refine ⟨document, hdocument, Option.some.inj hreported, ?_⟩
  rintro ⟨-, hexact⟩
  have hroot : Enclosing foreachProject "root.md" foreachRootContext none := Enclosing.root rfl
  rcases (diagnosesExactly_iff foreachProject_parsed hdocument).mp hexact with hnone | hone
  · refine hnone ⟨foreachRootContext, none, chunksNode, hroot, ⟨?_, ?_⟩, rfl⟩
    · simp [foreachRootContext, foreachRootFile]
    · simp [foreachRootContext, Dict.keys]
  · have heq := hone _ _ _ _ "first" "second" hroot hroot
      (by simp [CompositionContext.declared, foreachRootContext, foreachRootFile, Dict.keys, qualifyId])
      (by simp [CompositionContext.declared, foreachRootContext, foreachRootFile, Dict.keys, qualifyId])
    exact absurd heq (by decide)

theorem foreachProject_selection : ∃ document, compose foreachProject "root.md" = .ok document ∧
    SelectsLexically foreachProject "root.md" (inventoryWorkflow document) := by
  obtain ⟨document, hdocument⟩ := foreachProject_composes
  exact ⟨document, hdocument,
    (worktree_selection_lexical foreachProject "root.md" document foreachProject_parsed hdocument).1⟩

end Crewplane.Composition
