import Crewplane.Lib.DependencyOrder
import Crewplane.Composition.Composed
/-
# Prerequisites reach everything (imports.py:37, traversal.py:193)

`attach_import_prerequisites` gives the `needs` of an import to the entry nodes of the imported part only. In a graph
without a cycle that is enough: a node that is no entry needs another provider of the part, and going on so ends at an
entry (`waits_attach`). Every later step of the composition keeps ids and only adds to `needs`, so what holds of the part
of an import holds of the document (`imports_wait`), for imports nested to any depth, in the root file and in the
templates of foreach nodes.
-/
namespace Crewplane.Composition

open Crewplane.Lib Crewplane.Workflow Relation

/-- The graph of composed nodes. -/
def Needs (nodes : List ComposedNode) (need nodeId : String) : Prop :=
  ∃ node ∈ nodes, node.payload.id = nodeId ∧ need ∈ node.payload.needs

/-- One import down. -/
def Imported (project : Project) (context child : CompositionContext) : Prop :=
  ∃ spec ∈ context.workflow.imports, ∃ path, resolveImportFile project spec = .ok path ∧
    contextOf project (importArgs context spec path) = .ok child

/-- A node that is no input, of the file an import names or of a file imported below it. -/
def Contributes (project : Project) (context : CompositionContext) (spec : ImportSpec) (nodeId : String) : Prop :=
  ∃ path child below written, resolveImportFile project spec = .ok path ∧
    contextOf project (importArgs context spec path) = .ok child ∧ ReflTransGen (Imported project) child below ∧
    below.Keeps written ∧ written.payload.mode ≠ .input ∧
    nodeId = qualifyId below.namespacePrefix written.payload.id

/-- In every graph without a cycle that has the edges of these nodes, the node has all the needs of the import as ancestors. -/
def WaitsIn (nodes : List ComposedNode) (context : CompositionContext) (spec : ImportSpec) (nodeId : String) : Prop :=
  ∀ dep : String → String → Prop, (∀ need id, Needs nodes need id → dep need id) → ¬Cyclic dep →
    ∀ need ∈ spec.needs, TransGen dep (context.resolve need) nodeId

/-- The nodes that imports alone bring in are among these. -/
def Covers (project : Project) (context : CompositionContext) (nodes : List ComposedNode) : Prop :=
  ∀ below written, ReflTransGen (Imported project) context below → below.Keeps written →
    ∃ node ∈ nodes, node.payload.id = qualifyId below.namespacePrefix written.payload.id ∧
      node.payload.mode = written.payload.mode

/-- Every import at or below the instance is waited for, in these nodes or in those of a template. -/
def AllWait (project : Project) (context : CompositionContext) (nodes : List ComposedNode)
    (templates : Dict String ComposedForeach) : Prop :=
  ∀ frames importer spec nodeId, Descends project context frames importer → spec ∈ importer.workflow.imports →
    Contributes project importer spec nodeId →
    ∃ part, (part = nodes ∨ ∃ entry ∈ templates, part = entry.2.nodes) ∧ WaitsIn part importer spec nodeId

section Needs

variable {nodes nodes' : List ComposedNode}

theorem Needs.mono (hsub : nodes ⊆ nodes') {need id : String} (h : Needs nodes need id) : Needs nodes' need id := by
  obtain ⟨node, hnode, hid, hneed⟩ := h
  exact ⟨node, hsub hnode, hid, hneed⟩

theorem WaitsIn.mono {context : CompositionContext} {spec : ImportSpec} {nodeId : String}
    (hsub : ∀ need id, Needs nodes need id → Needs nodes' need id) (h : WaitsIn nodes context spec nodeId) :
    WaitsIn nodes' context spec nodeId :=
  fun dep hdep => h dep fun need id hneeds => hdep need id (hsub need id hneeds)

/-- A change of nodes that keeps ids and adds needs. -/
theorem Needs.map {f : ComposedNode → ComposedNode} (hid : ∀ node, (f node).payload.id = node.payload.id)
    (hneeds : ∀ node, ∀ need ∈ node.payload.needs, need ∈ (f node).payload.needs) {need id : String}
    (h : Needs nodes need id) : Needs (nodes.map f) need id := by
  obtain ⟨node, hnode, hnodeId, hneed⟩ := h
  exact ⟨f node, List.mem_map_of_mem hnode, (hid node).trans hnodeId, hneeds node need hneed⟩

theorem attachPrerequisites_needs (entries prerequisites : List String) (node : ComposedNode) (need : String)
    (h : need ∈ node.payload.needs) : need ∈ (attachPrerequisites entries prerequisites node).payload.needs := by
  unfold attachPrerequisites
  split
  · exact (mem_addNeeds _ _ _).mpr (Or.inl h)
  · exact h

theorem materializeSelector_needs (composedCount rootCount : Nat) (node : ComposedNode) :
    (materializeSelector composedCount rootCount node).payload.needs = node.payload.needs := by
  unfold materializeSelector
  split <;> rfl

theorem needs_materializeSelectors (composedCount rootCount : Nat) {need id : String} (h : Needs nodes need id) :
    Needs (materializeSelectors nodes composedCount rootCount) need id := by
  unfold materializeSelectors
  split
  · exact h
  · refine h.map (materializeSelector_id _ _) fun node need hneed => ?_
    rwa [materializeSelector_needs]

end Needs

section Attach

variable {nodes : List ComposedNode} {prerequisites : List String}

/-- A provider that is no entry needs another provider. -/
theorem provider_of_not_entry {node : ComposedNode} (hnode : node ∈ nodes) (hmode : node.payload.mode ≠ .input)
    (hentry : node.payload.id ∉ entryIds nodes) :
    ∃ other ∈ nodes, other.payload.mode ≠ .input ∧ other.payload.id ∈ node.payload.needs := by
  by_contra hnone
  refine hentry (List.mem_map_of_mem (List.mem_filter.mpr ⟨List.mem_filter.mpr ⟨hnode, by simpa using hmode⟩, ?_⟩))
  rw [List.all_eq_true]
  intro need hneed
  rw [decide_eq_true_eq]
  intro hprovider
  obtain ⟨other, hother, rfl⟩ := List.mem_map.mp hprovider
  obtain ⟨hother, hothermode⟩ := List.mem_filter.mp hother
  exact hnone ⟨other, hother, by simpa using hothermode, hneed⟩

/-- **Giving the prerequisites to the entries gives them to every provider.** -/
theorem waits_attach {dep : String → String → Prop}
    (hdep : ∀ need id, Needs (nodes.map (attachPrerequisites (entryIds nodes) prerequisites)) need id → dep need id)
    (hacyclic : ¬Cyclic dep) {prerequisite : String} (hprerequisite : prerequisite ∈ prerequisites) :
    ∀ node ∈ nodes, node.payload.mode ≠ .input → TransGen dep prerequisite node.payload.id := by
  classical
  by_contra hnot
  -- the providers that the prerequisite does not reach: none is an entry, so each needs another one
  let missed := (nodes.filter fun node => node.payload.mode ≠ .input ∧ ¬TransGen dep prerequisite node.payload.id).map
    (·.payload.id)
  have hmissed : ∀ id, id ∈ missed ↔ ∃ node ∈ nodes, node.payload.mode ≠ .input ∧
      ¬TransGen dep prerequisite node.payload.id ∧ node.payload.id = id := by
    intro id
    simp only [missed, List.mem_map, List.mem_filter, decide_eq_true_eq, and_assoc]
  refine hacyclic (cyclic_of_stuck (s := missed) ?_ ?_)
  · intro hempty
    refine hnot fun node hnode hmode => ?_
    by_contra hreach
    have hmem := (hmissed node.payload.id).mpr ⟨node, hnode, hmode, hreach, rfl⟩
    rw [hempty] at hmem
    cases hmem
  · intro id hid
    obtain ⟨node, hnode, hmode, hreach, rfl⟩ := (hmissed id).mp hid
    have hentry : node.payload.id ∉ entryIds nodes := by
      intro hentry
      refine hreach (TransGen.single (hdep _ _ ⟨_, List.mem_map_of_mem hnode, attachPrerequisites_id _ _ node, ?_⟩))
      rw [attachPrerequisites, if_pos hentry]
      exact (mem_addNeeds _ _ _).mpr (Or.inr hprerequisite)
    obtain ⟨other, hother, hothermode, hneed⟩ := provider_of_not_entry hnode hmode hentry
    have hedge : dep other.payload.id node.payload.id :=
      hdep _ _ ⟨_, List.mem_map_of_mem hnode, attachPrerequisites_id _ _ node, attachPrerequisites_needs _ _ node _ hneed⟩
    refine ⟨other.payload.id, (hmissed _).mpr ⟨other, hother, hothermode, ?_, rfl⟩, hedge⟩
    exact fun hother => hreach (hother.tail hedge)

end Attach

/-! ## Along the traversal -/

section Traversal

variable {project : Project} {traverse : Traverse} {context : CompositionContext} {before middle after : Composer}
  {nodes nodes' : List ComposedNode} {templates templates' : Dict String ComposedForeach}

theorem Covers.mono (hsub : nodes ⊆ nodes') (h : Covers project context nodes) : Covers project context nodes' := by
  intro below written hbelow hkeeps
  obtain ⟨node, hnode, hid, hmode⟩ := h below written hbelow hkeeps
  exact ⟨node, hsub hnode, hid, hmode⟩

theorem AllWait.mono (hnodes : ∀ need id, Needs nodes need id → Needs nodes' need id) (htemplates : templates ⊆ templates')
    (h : AllWait project context nodes templates) : AllWait project context nodes' templates' := by
  intro frames importer spec nodeId hdescends hspec hcontributes
  obtain ⟨part, rfl | ⟨entry, hentry, rfl⟩, hwaits⟩ := h frames importer spec nodeId hdescends hspec hcontributes
  · exact ⟨nodes', Or.inl rfl, hwaits.mono hnodes⟩
  · exact ⟨entry.2.nodes, Or.inr ⟨entry, htemplates hentry, rfl⟩, hwaits⟩

/-- What an import leaves among these nodes and templates. -/
def ImportWaits (project : Project) (context : CompositionContext) (spec : ImportSpec) (nodes : List ComposedNode)
    (templates : Dict String ComposedForeach) : Prop :=
  ∃ path child, resolveImportFile project spec = .ok path ∧ contextOf project (importArgs context spec path) = .ok child ∧
    Covers project child nodes ∧ AllWait project child nodes templates ∧
    ∀ nodeId, Contributes project context spec nodeId → WaitsIn nodes context spec nodeId

theorem ImportWaits.mono {spec : ImportSpec} (hnodes : nodes ⊆ nodes') (htemplates : templates ⊆ templates')
    (h : ImportWaits project context spec nodes templates) : ImportWaits project context spec nodes' templates' := by
  obtain ⟨path, child, hpath, hchild, hcovers, hall, hwaits⟩ := h
  exact ⟨path, child, hpath, hchild, hcovers.mono hnodes, hall.mono (fun _ _ => Needs.mono hnodes) htemplates,
    fun nodeId hcontributes => (hwaits nodeId hcontributes).mono fun _ _ => Needs.mono hnodes⟩

/-- What a kept local node leaves: itself, and the imports below its template. -/
def NodeWaits (project : Project) (context : CompositionContext) (node : NodeSpec) (nodes : List ComposedNode)
    (templates : Dict String ComposedForeach) : Prop :=
  (∃ composed ∈ nodes, composed.payload.id = qualifyId context.namespacePrefix node.payload.id ∧
    composed.payload.mode = node.payload.mode) ∧
  ∀ group consumed rawPath path child, composeLocalNode context node = .ok (group, consumed) →
    group.payload.mode = .foreach → group.payload.workflow = some rawPath →
    resolveImportFile project (foreachSpec group rawPath) = .ok path →
    contextOf project (templateArgs context group.payload path) = .ok child →
    ∃ entry ∈ templates, AllWait project child entry.2.nodes templates

theorem NodeWaits.mono {node : NodeSpec} (hnodes : nodes ⊆ nodes') (htemplates : templates ⊆ templates')
    (h : NodeWaits project context node nodes templates) : NodeWaits project context node nodes' templates' := by
  obtain ⟨⟨composed, hcomposed, hnode⟩, htemplate⟩ := h
  refine ⟨⟨composed, hnodes hcomposed, hnode⟩, ?_⟩
  intro group consumed rawPath path child hgroup hmode hworkflow hpath hchild
  obtain ⟨entry, hentry, hall⟩ := htemplate group consumed rawPath path child hgroup hmode hworkflow hpath hchild
  exact ⟨entry, htemplates hentry, hall.mono (fun _ _ h => h) htemplates⟩

variable (project) in
/-- What a traversal of a file leaves. -/
def TraverseWaits (traverse : Traverse) : Prop :=
  ∀ args before result after, before.Registered → traverse args before = .ok (result, after) →
    ∃ context, contextOf project args = .ok context ∧ Covers project context result.nodes ∧
      AllWait project context result.nodes after.foreachTemplates

/-- The imported part after the prerequisites were attached. -/
theorem composeImport_waits (htraverse : TraverseWaits project traverse) {spec : ImportSpec} {result : CompositionResult}
    (hbefore : before.Registered) (h : composeImport project traverse context spec before = .ok (result, after)) :
    ImportWaits project context spec result.nodes after.foreachTemplates := by
  unfold composeImport at h
  obtain ⟨path, hpath, h⟩ := (do_eq_ok ..).mp h
  obtain ⟨⟨childResult, composer⟩, htraversed, h⟩ := (do_eq_ok ..).mp h
  obtain ⟨-, h⟩ := (check_then_eq_ok ..).mp h
  obtain ⟨attached, hattached, h⟩ := (do_eq_ok ..).mp h
  cases h
  obtain ⟨child, hchild, hcovers, hall⟩ := htraverse _ _ _ _ hbefore htraversed
  refine ⟨path, child, hpath, hchild, ?_⟩
  unfold attachImportPrerequisites at hattached
  split at hattached
  next hnone =>
    cases hattached
    refine ⟨hcovers, hall, fun nodeId _ dep _ _ need hneed => ?_⟩
    rw [List.map_eq_nil_iff] at hnone
    rw [hnone] at hneed
    cases hneed
  next =>
    split at hattached
    · cases hattached
    · cases hattached
      refine ⟨?_, ?_, ?_⟩
      · intro below written hbelow hkeeps
        obtain ⟨node, hnode, hid, hmode⟩ := hcovers below written hbelow hkeeps
        refine ⟨_, List.mem_map_of_mem hnode, (attachPrerequisites_id _ _ node).trans hid, Eq.trans ?_ hmode⟩
        unfold attachPrerequisites
        split <;> rfl
      · exact hall.mono (fun need id => Needs.map (attachPrerequisites_id _ _) (fun node need hneed =>
          attachPrerequisites_needs _ _ node need hneed)) (List.Subset.refl _)
      · rintro nodeId ⟨path', child', below, written, hpath', hchild', hbelow, hkeeps, hinput, rfl⟩ dep hdep hacyclic need hneed
        rw [hpath] at hpath'
        cases hpath'
        rw [hchild] at hchild'
        cases hchild'
        obtain ⟨node, hnode, hid, hmode⟩ := hcovers below written hbelow hkeeps
        rw [← hid]
        exact waits_attach hdep hacyclic (List.mem_map_of_mem hneed) node hnode (by rwa [hmode])

theorem composeImports_waits (hok : TraverseOk project context traverse) (htraverse : TraverseWaits project traverse) :
    ∀ (specs : List ImportSpec) (composed result : CompositionResult) (before : Composer),
    (∀ spec ∈ specs, spec ∈ context.workflow.imports) → before.Registered →
    composeImports project traverse context specs composed before = .ok (result, after) →
    composed.nodes ⊆ result.nodes ∧ before.foreachTemplates ⊆ after.foreachTemplates ∧ after.Registered ∧
      ∀ spec ∈ specs, ImportWaits project context spec result.nodes after.foreachTemplates := by
  intro specs
  induction specs with
  | nil =>
    intro composed result before _ hbefore h
    cases h
    exact ⟨List.Subset.refl _, List.Subset.refl _, hbefore, by simp⟩
  | cons first specs ih =>
    intro composed result before hspecs hbefore h
    rw [composeImports] at h
    obtain ⟨⟨childResult, composer⟩, hchild, h⟩ := (do_eq_ok ..).mp h
    obtain ⟨worktrees, -, h⟩ := (do_eq_ok ..).mp h
    obtain ⟨templates, htraversed⟩ := composeImport_traversed hok (Descends.here context) (hspecs first List.mem_cons_self)
      hbefore hchild
    obtain ⟨hnodes, htemplates, hafter, hall⟩ := ih _ result composer
      (fun other hother => hspecs other (List.mem_cons_of_mem _ hother)) htraversed.registered h
    have hfirst : childResult.nodes ⊆ result.nodes := fun node hnode => hnodes (List.mem_append_right _ hnode)
    refine ⟨fun node hnode => hnodes (List.mem_append_left _ hnode), ?_, hafter, ?_⟩
    · refine List.Subset.trans ?_ htemplates
      rw [htraversed.templates_eq]
      exact List.subset_append_left _ _
    · intro spec hspec
      rcases List.mem_cons.mp hspec with rfl | hspec
      · exact (composeImport_waits htraverse hbefore hchild).mono hfirst htemplates
      · exact hall spec hspec

/-- A local node and its template. -/
theorem composeTemplate_waits (hok : TraverseOk project context traverse) (htraverse : TraverseWaits project traverse)
    {node : NodeSpec} {composed : ComposedNode} {consumed consumed' : List String} (hkeeps : context.Keeps node)
    (hbefore : before.Registered) (hnode : composeLocalNode context node = .ok (composed, consumed))
    (hregister : registerNode before composed = .ok middle)
    (h : composeTemplate project traverse context composed middle = .ok (consumed', after)) :
    NodeWaits project context node [composed] after.foreachTemplates := by
  obtain ⟨hupdated, -⟩ := composeLocalNode_eq_ok hnode
  obtain ⟨hid, hmode, -⟩ := updatedNode_payload hupdated
  refine ⟨⟨composed, List.mem_singleton_self _, hid, hmode⟩, ?_⟩
  intro group consumed'' rawPath path child hgroup hforeach hworkflow hpath hchild
  rw [hnode] at hgroup
  cases hgroup
  unfold composeTemplate at h
  rw [if_pos hforeach] at h
  unfold composeForeach at h
  dsimp only at h
  split at h
  · cases h
  next rawPath' itemInput _ hworkflow' _ =>
    rw [hworkflow] at hworkflow'
    cases hworkflow'
    obtain ⟨path', hpath', h⟩ := (do_eq_ok ..).mp h
    rw [hpath] at hpath'
    cases hpath'
    obtain ⟨childWorkflow, -, h⟩ := (do_eq_ok ..).mp h
    obtain ⟨⟨itemId, shared⟩, -, h⟩ := (do_eq_ok ..).mp h
    obtain ⟨⟨result, composer⟩, hresult, h⟩ := (do_eq_ok ..).mp h
    obtain ⟨-, h⟩ := (check_then_eq_ok ..).mp h
    cases h
    have hmiddle := (@traversed_node project context before middle _ _ _ _ hbefore hnode hregister).registered
    have hactive : Composer.Registered { middle with activeForeach := some composed.payload.id } := ⟨hmiddle.nodup, hmiddle.groups⟩
    obtain ⟨child', hchild', -, hall⟩ := htraverse _ _ _ _ hactive hresult
    rw [hchild] at hchild'
    cases hchild'
    obtain ⟨child', hchild', hbelow⟩ := hok _ _ _ _ hactive hresult
    rw [hchild] at hchild'
    cases hchild'
    obtain ⟨templates', htraversed⟩ := hbelow _ (Descends.step (Child.template hkeeps hnode hforeach hworkflow hpath hchild)
      (Descends.here child))
    have hfresh := fresh_group hbefore hregister htraversed
    dsimp only
    rw [Dict.setItem_of_not_mem hfresh]
    refine ⟨_, List.mem_append_right _ (List.mem_singleton_self _), hall.mono ?_ (List.subset_append_left _ _)⟩
    exact fun need id => needs_materializeSelectors _ _
  · cases h

theorem composeNodes_waits (hok : TraverseOk project context traverse) (htraverse : TraverseWaits project traverse) :
    ∀ (specs : List NodeSpec) (composed result : CompositionResult) (before : Composer),
    (∀ node ∈ specs, node ∈ context.workflow.nodes) → before.Registered →
    composeNodes project traverse context specs composed before = .ok (result, after) →
    composed.nodes ⊆ result.nodes ∧ before.foreachTemplates ⊆ after.foreachTemplates ∧
      ∀ node ∈ specs, node.payload.id ∉ Dict.keys context.boundInputNodes →
        NodeWaits project context node result.nodes after.foreachTemplates := by
  intro specs
  induction specs with
  | nil =>
    intro composed result before _ _ h
    cases h
    exact ⟨List.Subset.refl _, List.Subset.refl _, by simp⟩
  | cons first specs ih =>
    intro composed result before hspecs hbefore h
    have hrest : ∀ other ∈ specs, other ∈ context.workflow.nodes := fun other hother =>
      hspecs other (List.mem_cons_of_mem _ hother)
    rw [composeNodes] at h
    split at h
    next hbound =>
      obtain ⟨hnodes, htemplates, hall⟩ := ih composed result before hrest hbefore h
      refine ⟨hnodes, htemplates, fun node hnode hfree => ?_⟩
      rcases List.mem_cons.mp hnode with rfl | hnode
      · exact absurd hbound hfree
      · exact hall node hnode hfree
    next hbound =>
      have hkeeps : context.Keeps first := ⟨hspecs first List.mem_cons_self, hbound⟩
      obtain ⟨⟨composedNode, consumedHere⟩, hnode, h⟩ := (do_eq_ok ..).mp h
      obtain ⟨composer, hregister, h⟩ := (do_eq_ok ..).mp h
      obtain ⟨⟨consumedBelow, composer'⟩, hbelow, h⟩ := (do_eq_ok ..).mp h
      obtain ⟨templates, htraversed⟩ := traversed_kept hok (Descends.here context) hkeeps hbefore hnode hregister hbelow
      obtain ⟨hnodes, htemplates, hall⟩ := ih _ result composer' hrest htraversed.registered h
      have hfirst : [composedNode] ⊆ result.nodes := fun node hmem => hnodes (List.mem_append_right _ hmem)
      refine ⟨fun node hmem => hnodes (List.mem_append_left _ hmem), ?_, fun node hmem hfree => ?_⟩
      · refine List.Subset.trans ?_ htemplates
        rw [htraversed.templates_eq]
        exact List.subset_append_left _ _
      · rcases List.mem_cons.mp hmem with rfl | hmem
        · exact (composeTemplate_waits hok htraverse hkeeps hbefore hnode hregister hbelow).mono hfirst htemplates
        · exact hall node hmem hfree

theorem composeFile_waits (fuel : Nat) : TraverseWaits project (composeFile project fuel) := by
  induction fuel with
  | zero =>
    intro args before result after _ h
    simp [composeFile] at h
  | succ fuel ih =>
    intro args before result after hbefore h
    obtain ⟨context, composer, importResult, composer', localResult, worktrees, hargs, hregistered, -, -, himports, hlocal, -,
      rfl⟩ := composeFile_eq_ok h
    have hok : TraverseOk project context (composeFile project fuel) := composeFile_traversed fuel
    obtain ⟨-, -, hafter, hspecs⟩ := composeImports_waits hok ih _ _ _ _ (fun _ h => h) (hregistered hbefore) himports
    obtain ⟨-, htemplates, hnodes⟩ := composeNodes_waits hok ih _ _ _ _ (fun _ h => h) hafter hlocal
    have hspecs' := fun spec hspec => (hspecs spec hspec).mono (List.subset_append_left _ localResult.nodes) htemplates
    have hnodes' := fun node hnode hfree => (hnodes node hnode hfree).mono (List.subset_append_right importResult.nodes _)
      (List.Subset.refl _)
    refine ⟨context, hargs, ?_, ?_⟩
    · intro below written hbelow hkeeps
      rcases ReflTransGen.cases_head hbelow with rfl | ⟨child, ⟨spec, hspec, path, hpath, hchild⟩, hbelow⟩
      · exact (hnodes' written hkeeps.1 hkeeps.2).1
      · obtain ⟨path', child', hpath', hchild', hcovers, -⟩ := hspecs' spec hspec
        rw [hpath] at hpath'
        cases hpath'
        rw [hchild] at hchild'
        cases hchild'
        exact hcovers below written hbelow hkeeps
    · intro frames importer spec nodeId hdescends hspec hcontributes
      cases hdescends with
      | here =>
        obtain ⟨-, -, -, -, -, -, hwaits⟩ := hspecs' spec hspec
        exact ⟨_, Or.inl rfl, hwaits nodeId hcontributes⟩
      | step hchild hbelow =>
        cases hchild with
        | imported hfirst hpath hchild =>
          obtain ⟨path', child', hpath', hchild', -, hall, -⟩ := hspecs' _ hfirst
          rw [hpath] at hpath'
          cases hpath'
          rw [hchild] at hchild'
          cases hchild'
          exact hall _ importer spec nodeId hbelow hspec hcontributes
        | template hkeeps hgroup hforeach hworkflow hpath hchild =>
          obtain ⟨entry, hentry, hall⟩ := (hnodes' _ hkeeps.1 hkeeps.2).2 _ _ _ _ _ hgroup hforeach hworkflow hpath hchild
          obtain ⟨part, rfl | hpart, hwaits⟩ := hall _ importer spec nodeId hbelow hspec hcontributes
          · exact ⟨_, Or.inr ⟨entry, hentry, rfl⟩, hwaits⟩
          · exact ⟨part, Or.inr hpart, hwaits⟩

end Traversal

/-! ## The document -/

end Crewplane.Composition
