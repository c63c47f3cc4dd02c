import Crewplane.Composition.Fuel
import Crewplane.Composition.Hygiene
/-
# The composed workflow

What a composed node is, in terms of the file it was written in and of the instance
it belongs to: its id, its `needs`, the references of its prompts and its parameters
(`ComposedFrom`). The prompts are read as they were written under `Project.Plain`;
without it the two rewriting passes see each other's text.
-/
namespace Crewplane.Composition

open Crewplane.Lib Crewplane.Workflow Crewplane.Prompt

/-- The ids of the files are node ids, which validation checks after composition, and no parameter key holds a brace. -/
structure Project.Plain (project : Project) : Prop where
  ids : ∀ path workflow, project.load path = .ok workflow → ∀ node ∈ workflow.nodes, matchesNodeId node.payload.id = true
  inputs : ∀ path workflow, project.load path = .ok workflow → ∀ spec ∈ workflow.imports, ∀ binding ∈ spec.inputs,
    matchesNodeId binding.2 = true
  keys : ∀ path workflow, project.load path = .ok workflow → ∀ node ∈ workflow.nodes,
    ∀ segment ∈ node.payload.promptSegments, keysPlain segment.content.toList = true

def Instance (project : Project) (path : String) (frames : List Frame) (context : CompositionContext) : Prop :=
  ∃ root, contextOf project (rootArgs path) = .ok root ∧ Descends project root frames context

def ComposedWorkflowDocument.composedNodes (document : ComposedWorkflowDocument) : List ComposedNode :=
  document.nodes ++ templateNodes document.foreachTemplates

/-- What a piece of a prompt means in an instance: a reference names a node of the instance or its caller, a
parameter has its innermost value, other text is as it is. -/
def instanceText (frames : List Frame) (context : CompositionContext) :
    Piece Char ((String × String) ⊕ String) → List Char
  | .literal text => text
  | .found _ it => match it.capture with
    | .inl (id, name) =>
      openBraces.toList ++ (context.resolve id).toList ++ ".".toList ++ name.toList ++ closeBraces.toList
    | .inr rawKey => match innermost frames (strip rawKey) with
      | none => openBraces.toList ++ "var:".toList ++ (strip rawKey).toList ++ closeBraces.toList
      | some binding => binding.value.toList

structure PromptOf (frames : List Frame) (context : CompositionContext) (written composed : Segment) : Prop where
  role : composed.role = written.role
  content : composed.content.toList = (writtenPieces written.content).flatMap (instanceText frames context)
  reads : ∀ id name, (id, name) ∈ writtenReferences written.content →
    ∃ reference ∈ iterTemplateReferences composed.content, reference.kind = .node ∧
      reference.nodeId = some (context.resolve id) ∧ reference.artifactName = some name

def IsPrompt (node : WorkflowNode) : Prop := node.mode = .parallel ∨ node.mode = .sequential

structure ComposedFrom (project : Project) (path : String) (frames : List Frame) (context : CompositionContext)
    (written : NodeSpec) (node : ComposedNode) : Prop where
  id : node.payload.id = qualifyId context.namespacePrefix written.payload.id
  mode : node.payload.mode = written.payload.mode
  source : node.sourcePath = written.sourcePath
  needs : ∀ need ∈ written.payload.needs, context.resolve need ∈ node.payload.needs
  only : ∀ nodeId ∈ node.payload.needs, (∃ need ∈ written.payload.needs, nodeId = context.resolve need) ∨
    ∃ root, contextOf project (rootArgs path) = .ok root ∧ Prerequisite project root context nodeId
  inputs : written.payload.mode = .foreach →
    node.payload.inputs = written.payload.inputs.map fun binding => (binding.1, context.resolve binding.2)
  items : written.payload.mode = .foreach → ∀ text n id name, written.payload.items = some (.reference text) →
    artifactReferenceAt text.toList = some (n, id, name) → text.toList.length = n + 1 →
    ∃ text', node.payload.items = some (.reference text') ∧ text'.toList =
      openBraces.toList ++ (context.resolve id).toList ++ ".".toList ++ name.toList ++ closeBraces.toList
  prompt : project.Plain → IsPrompt written.payload →
    List.Forall₂ (PromptOf frames context) written.payload.promptSegments node.payload.promptSegments

/-- A prompt of the instance reads the parameter. -/
def ReadsParam (context : CompositionContext) (key : String) : Prop :=
  ∃ written, context.Keeps written ∧ IsPrompt written.payload ∧
    ∃ segment ∈ written.payload.promptSegments, key ∈ writtenParams segment.content

section Reading

variable {project : Project}

theorem matchesNodeId_iff {id : String} :
    matchesNodeId id = true ↔ id.toList ≠ [] ∧ ∀ c ∈ id.toList, isMarkerChar c = true := by
  simp [matchesNodeId]

/-- The namespace and the bound nodes of an instance are ids. -/
structure PlainContext (context : CompositionContext) : Prop where
  namespace_ok : context.namespacePrefix = "" ∨ matchesNodeId context.namespacePrefix = true
  bound_ok : ∀ nodeId target, context.boundInputNodes.get? nodeId = some target → matchesNodeId target = true

theorem matchesNodeId_append {first second : String} (hfirst : matchesNodeId first = true)
    (hsecond : ∀ c ∈ second.toList, isMarkerChar c = true) : matchesNodeId (first ++ second) = true := by
  rw [matchesNodeId_iff] at hfirst ⊢
  rw [String.toList_append]
  refine ⟨by simp [hfirst.1], fun c hc => ?_⟩
  rcases List.mem_append.mp hc with hc | hc
  · exact hfirst.2 c hc
  · exact hsecond c hc

theorem matchesNodeId_qualifyId {namePrefix nodeId : String} (hpre : namePrefix = "" ∨ matchesNodeId namePrefix = true)
    (hid : matchesNodeId nodeId = true) : matchesNodeId (qualifyId namePrefix nodeId) = true := by
  unfold qualifyId
  split
  · exact hid
  · rename_i hne
    rw [String.append_assoc]
    apply matchesNodeId_append (hpre.resolve_left hne)
    intro c hc
    rw [String.toList_append] at hc
    rcases List.mem_append.mp hc with hc | hc
    · obtain rfl : c = '.' := by simpa using hc
      decide
    · exact (matchesNodeId_iff.mp hid).2 c hc

theorem PlainContext.resolve {context : CompositionContext} (h : PlainContext context) {id : String}
    (hid : matchesNodeId id = true) : matchesNodeId (context.resolve id) = true := by
  unfold CompositionContext.resolve resolveDependencyId
  split
  · rename_i target htarget
    exact h.bound_ok id target htarget
  · exact matchesNodeId_qualifyId h.namespace_ok hid

theorem PlainContext.resolvesPlain {context : CompositionContext} (h : PlainContext context) :
    ResolvesPlain context.namespacePrefix context.boundInputNodes := by
  intro id hne hmarker
  exact matchesNodeId_iff.mp (h.resolve (matchesNodeId_iff.mpr ⟨hne, hmarker⟩))

theorem Child.loaded {context child : CompositionContext} {frame : Frame} (h : Child project context frame child) :
    ∃ path, project.load path = .ok child.workflow := by
  cases h with
  | imported _ _ hcontext => exact ⟨_, loadWorkflowFile_eq_ok (contextOf_eq_ok hcontext).1⟩
  | template _ _ _ _ _ hcontext => exact ⟨_, loadWorkflowFile_eq_ok (contextOf_eq_ok hcontext).1⟩

theorem isMarkerChar_template : ".template".toList.all isMarkerChar = true := by decide +kernel

theorem Child.plain (hplain : project.Plain) {context child : CompositionContext} {frame : Frame}
    (h : Child project context frame child) (hloaded : ∃ path, project.load path = .ok context.workflow)
    (hcontext : PlainContext context) : PlainContext child := by
  obtain ⟨path, hload⟩ := hloaded
  constructor
  · right
    rw [h.namespace_eq]
    cases h with
    | imported hspec _ _ => exact matchesNodeId_qualifyId hcontext.namespace_ok (context.workflow.aliases_ok _ hspec)
    | template hnode hgroup _ _ _ _ =>
      rw [(updatedNode_payload (composeLocalNode_eq_ok hgroup).1).1]
      refine matchesNodeId_append (matchesNodeId_qualifyId hcontext.namespace_ok (hplain.ids path _ hload _ hnode.1)) ?_
      exact List.all_eq_true.mp isMarkerChar_template
  · intro nodeId target htarget
    obtain ⟨inputName, sourceId, hbinding, -, rfl⟩ := (h.bound nodeId target).mp htarget
    apply hcontext.resolve
    cases h with
    | imported hspec _ _ => exact hplain.inputs path _ hload _ hspec _ hbinding
    | template hnode _ _ _ _ _ => exact context.workflow.foreach_inputs _ hnode.1 _ hbinding

theorem Descends.plain (hplain : project.Plain) {context below : CompositionContext} {frames : List Frame}
    (h : Descends project context frames below) (hloaded : ∃ path, project.load path = .ok context.workflow)
    (hcontext : PlainContext context) : PlainContext below ∧ ∃ path, project.load path = .ok below.workflow := by
  induction h with
  | here => exact ⟨hcontext, hloaded⟩
  | step hchild _ ih => exact ih hchild.loaded (hchild.plain hplain hloaded hcontext)

variable {path : String} {frames : List Frame} {context root : CompositionContext}

theorem rootContext (h : contextOf project (rootArgs path) = .ok root) :
    (∃ file, project.load file = .ok root.workflow) ∧ PlainContext root ∧
      ∀ key, root.inheritedParams.get? key = none := by
  obtain ⟨hload, hbound, hname, hparams, -⟩ := contextOf_eq_ok h
  have hbound : root.boundInputNodes = [] := by
    have : Except.ok [] = Except.ok root.boundInputNodes := hbound
    exact (Except.ok.inj this).symm
  refine ⟨⟨_, loadWorkflowFile_eq_ok hload⟩, ⟨Or.inl hname, ?_⟩, ?_⟩
  · intro nodeId target htarget
    simp [hbound] at htarget
  · intro key
    rw [hparams]
    rfl

theorem Instance.plain (hplain : project.Plain) (h : Instance project path frames context) :
    PlainContext context ∧ ∃ file, project.load file = .ok context.workflow := by
  obtain ⟨root, hroot, hdescends⟩ := h
  obtain ⟨hloaded, hrootPlain, -⟩ := rootContext hroot
  exact hdescends.plain hplain hloaded hrootPlain

theorem Instance.params (h : Instance project path frames context) (key : String) :
    context.inheritedParams.get? key = innermost frames key := by
  obtain ⟨root, hroot, hdescends⟩ := h
  rw [hdescends.params, (rootContext hroot).2.2, Option.or_none]

theorem pieceText_eq_instanceText (h : Instance project path frames context) :
    pieceText context.namespacePrefix context.boundInputNodes context.inheritedParams = instanceText frames context := by
  funext piece
  cases piece with
  | literal text => rfl
  | found k it =>
    cases hcapture : it.capture with
    | inl reference => simp [pieceText, instanceText, hcapture, rewrittenReference, CompositionContext.resolve]
    | inr key =>
      have hget := h.params (strip key)
      cases hcase : innermost frames (strip key) with
      | none =>
        rw [hcase] at hget
        simp [pieceText, instanceText, hcapture, paramText, hget, hcase]
      | some binding =>
        rw [hcase] at hget
        simp [pieceText, instanceText, hcapture, paramText, hget, hcase]

theorem promptOf_of_rewriteSegment (h : Instance project path frames context) (hcontext : PlainContext context)
    {sourcePath nodeId : String} {segment segment' : Segment} {consumed : List String}
    (hkeys : keysPlain segment.content.toList = true)
    (hsegment : rewriteSegment context.namespacePrefix context.boundInputNodes context.inheritedParams sourcePath nodeId
      segment = .ok (segment', consumed)) : PromptOf frames context segment segment' := by
  obtain ⟨hrole, hcontent⟩ := rewriteSegment_content hcontext.resolvesPlain hkeys hsegment
  refine ⟨hrole, by rw [hcontent, pieceText_eq_instanceText h], ?_⟩
  intro id name hreference
  exact exists_templateReference hcontext.resolvesPlain hcontent hreference

theorem forall₂_of_rewritePromptSegments (h : Instance project path frames context) (hcontext : PlainContext context)
    {sourcePath nodeId : String} {segments segments' : List Segment} {consumed : List String}
    (hkeys : ∀ segment ∈ segments, keysPlain segment.content.toList = true)
    (hsegments : rewritePromptSegments segments context.namespacePrefix context.boundInputNodes context.inheritedParams
      sourcePath nodeId = .ok (segments', consumed)) :
    List.Forall₂ (PromptOf frames context) segments segments' ∧ ∀ bindingId, bindingId ∈ consumed ↔
      ∃ segment ∈ segments, ∃ key ∈ writtenParams segment.content, ∃ binding,
        context.inheritedParams.get? key = some binding ∧ binding.bindingId = bindingId := by
  unfold rewritePromptSegments at hsegments
  obtain ⟨rewritten, hrewritten, hresult⟩ := (do_eq_ok ..).mp hsegments
  cases hresult
  clear hsegments
  induction segments generalizing rewritten with
  | nil =>
    rw [mapM_eq_ok_nil.mp hrewritten]
    simp
  | cons segment segments ih =>
    obtain ⟨⟨first, consumedHere⟩, rest, hfirst, hrest, rfl⟩ := mapM_eq_ok_cons.mp hrewritten
    have hkey := hkeys segment List.mem_cons_self
    obtain ⟨hforall, hconsumed⟩ := ih (fun other hother => hkeys other (List.mem_cons_of_mem _ hother)) rest hrest
    refine ⟨List.Forall₂.cons (promptOf_of_rewriteSegment h hcontext hkey hfirst) hforall, ?_⟩
    intro bindingId
    rw [List.flatMap_cons, List.mem_append, hconsumed]
    simp only [List.mem_cons, exists_eq_or_imp]
    refine or_congr_left ?_
    rw [rewriteSegment_consumed hcontext.resolvesPlain hkey hfirst, List.mem_filterMap]
    simp only [Option.map_eq_some_iff]

/-- What a prompt consumes, by the keys it was written with. -/
theorem consumes_iff_readsParam (hplain : project.Plain) (h : Instance project path frames context) {bindingId : String}
    (hall : ∀ written, context.Keeps written → ∃ payload consumed,
      updatedNode context written.sourcePath written.payload = .ok (payload, consumed)) :
    (∃ written, context.Keeps written ∧ Consumes context written bindingId) ↔
      ∃ key binding, ReadsParam context key ∧ context.inheritedParams.get? key = some binding ∧
        binding.bindingId = bindingId := by
  obtain ⟨hcontext, file, hload⟩ := h.plain hplain
  have hone : ∀ written, context.Keeps written → (Consumes context written bindingId ↔ IsPrompt written.payload ∧
      ∃ segment ∈ written.payload.promptSegments, ∃ key ∈ writtenParams segment.content, ∃ binding,
        context.inheritedParams.get? key = some binding ∧ binding.bindingId = bindingId) := by
    intro written hkeeps
    obtain ⟨payload, consumed, hupdated⟩ := hall written hkeeps
    have hconsumes : Consumes context written bindingId ↔ bindingId ∈ consumed := by
      constructor
      · rintro ⟨payload', consumed', hupdated', hmem⟩
        rw [hupdated] at hupdated'
        cases hupdated'
        exact hmem
      · exact fun hmem => ⟨payload, consumed, hupdated, hmem⟩
    rw [hconsumes]
    by_cases hprompt : IsPrompt written.payload
    · rw [(forall₂_of_rewritePromptSegments h hcontext (hplain.keys file _ hload written hkeeps.1)
        (updatedNode_prompt hupdated hprompt)).2]
      exact (and_iff_right hprompt).symm
    · rw [updatedNode_consumed_nil hupdated hprompt]
      simp [hprompt]
  constructor
  · rintro ⟨written, hkeeps, hconsumes⟩
    obtain ⟨hprompt, segment, hsegment, key, hkey, binding, hbinding, hid⟩ := (hone written hkeeps).mp hconsumes
    exact ⟨key, binding, ⟨written, hkeeps, hprompt, segment, hsegment, hkey⟩, hbinding, hid⟩
  · rintro ⟨key, binding, ⟨written, hkeeps, hprompt, segment, hsegment, hkey⟩, hbinding, hid⟩
    exact ⟨written, hkeeps, (hone written hkeeps).mpr ⟨hprompt, segment, hsegment, key, hkey, binding, hbinding, hid⟩⟩

/-- A derived node is what its file says. -/
theorem composedFrom_of_derived {written : NodeSpec} {node : ComposedNode}
    (hroot : contextOf project (rootArgs path) = .ok root) (hdescends : Descends project root frames context)
    (hkeeps : context.Keeps written) (h : Derived project root context written node) :
    ComposedFrom project path frames context written node := by
  have hinstance : Instance project path frames context := ⟨root, hroot, hdescends⟩
  obtain ⟨payload, consumed, hupdated, hnode⟩ := h.payload
  obtain ⟨hid, hmode, -, -, -, -⟩ := updatedNode_payload hupdated
  refine ⟨by rw [hnode]; exact hid, by rw [hnode]; exact hmode, h.source, h.needs, ?_, ?_, ?_, ?_⟩
  · intro nodeId hnodeId
    exact (h.only nodeId hnodeId).imp id fun hprerequisite => ⟨root, hroot, hprerequisite⟩
  · intro hforeach
    rw [hnode]
    exact (updatedNode_foreach hupdated hforeach).1
  · intro hforeach text n id name hitems hreference hlength
    rw [hnode]
    refine ⟨_, by rw [(updatedNode_foreach hupdated hforeach).2, hitems]; rfl, ?_⟩
    cases htext : text.toList with
    | nil => simp [htext] at hlength
    | cons c rest =>
      rw [htext] at hreference hlength
      rw [rewriteArtifactReferences, String.toList_ofList, htext, sub_some hreference, List.drop_of_length_le (by simpa using hlength.le)]
      simp [rewrittenReference, CompositionContext.resolve]
  · intro hplain hprompt
    obtain ⟨hcontext, file, hload⟩ := hinstance.plain hplain
    rw [hnode]
    exact (forall₂_of_rewritePromptSegments hinstance hcontext (hplain.keys file _ hload written hkeeps.1)
      (updatedNode_prompt hupdated hprompt)).1

/-! ## Unused parameters -/

/-- A prompt in the subtree of a frame reads the key, and no frame further in binds it. -/
def Used (project : Project) (child : CompositionContext) (key : String) : Prop :=
  ∃ inner below, Descends project child inner below ∧ ReadsParam below key ∧ innermost inner key = none

theorem mem_unusedKeys_iff (hplain : project.Plain) (h : Instance project path frames context) {frame : Frame}
    {child : CompositionContext} (hchild : Child project context frame child) {fuel : Nat} {args : FileArgs}
    {before after : Composer} {result : CompositionResult} (hargs : contextOf project args = .ok child)
    (hbefore : before.Registered) (hresult : composeFile project fuel args before = .ok (result, after)) (key : String) :
    key ∈ unusedKeys frame.withParams frame.bindingNamespace result.consumedParamBindings ↔
      key ∈ Dict.keys frame.withParams ∧ ¬Used project child key := by
  obtain ⟨root, hroot, hdescends⟩ := h
  have hparams := (rootContext hroot).2.2
  have hdown : Descends project root ([frame] ++ frames) child :=
    hdescends.trans (Descends.step hchild (Descends.here child))
  obtain ⟨child', hargs', hbelow⟩ := @composeFile_traversed project root fuel args before result after hbefore hresult
  rw [hargs] at hargs'
  obtain rfl := Except.ok.inj hargs'
  obtain ⟨templates, htraversed⟩ := hbelow _ hdown
  have hconsumed : parameterBindingId frame.bindingNamespace key ∈ result.consumedParamBindings ↔
      key ∈ Dict.keys frame.withParams ∧ Used project child key := by
    have hreads : ∀ inner below, Descends project child inner below →
        ((∃ written, below.Keeps written ∧ Consumes below written (parameterBindingId frame.bindingNamespace key)) ↔
          key ∈ Dict.keys frame.withParams ∧ ReadsParam below key ∧ innermost inner key = none) := by
      intro inner below hinner
      have hinstance : Instance project path (inner ++ ([frame] ++ frames)) below := ⟨root, hroot, hdown.trans hinner⟩
      rw [consumes_iff_readsParam hplain hinstance]
      · constructor
        · rintro ⟨key', binding, hread, hget, hid⟩
          obtain ⟨rfl, hkey, hnone⟩ := (binding_eq_iff hparams hdescends hchild hinner hget).mp hid
          exact ⟨hkey, hread, hnone⟩
        · rintro ⟨hkey, hread, hnone⟩
          obtain ⟨value, hvalue⟩ := Dict.get?_isSome_of_mem_keys hkey
          have hget : below.inheritedParams.get? key =
              some ⟨value, parameterBindingId frame.bindingNamespace key⟩ := by
            rw [hinner.params, hchild.params, hnone]
            simp [Frame.binding, hvalue]
          exact ⟨key, _, hread, hget, rfl⟩
      · intro written hkeeps
        obtain ⟨kept, templated, -, -, hderived, hcovered⟩ := htraversed.sites
        obtain ⟨site, hsite, rfl, rfl⟩ := (hcovered below written).mp ⟨⟨inner, hinner⟩, hkeeps⟩
        obtain ⟨payload, consumed, hupdated, -⟩ := (hderived site hsite).payload
        exact ⟨payload, consumed, hupdated⟩
    rw [htraversed.consumes]
    constructor
    · rintro ⟨below, written, ⟨⟨inner, hinner⟩, hkeeps⟩, hconsumes⟩
      obtain ⟨hkey, hread, hnone⟩ := (hreads inner below hinner).mp ⟨written, hkeeps, hconsumes⟩
      exact ⟨hkey, inner, below, hinner, hread, hnone⟩
    · rintro ⟨hkey, inner, below, hinner, hread, hnone⟩
      obtain ⟨written, hkeeps, hconsumes⟩ := (hreads inner below hinner).mpr ⟨hkey, hread, hnone⟩
      exact ⟨below, written, ⟨⟨inner, hinner⟩, hkeeps⟩, hconsumes⟩
  unfold unusedKeys
  rw [List.mem_mergeSort, List.mem_filter, decide_eq_true_eq, hconsumed]
  tauto

/-! ## Composition -/

theorem registered_start (path version : String) {composer : Composer}
    (h : setOrValidateRootSchema path version {} = .ok composer) : composer.Registered ∧
      composer.nodeSources = [] ∧ composer.foreachTemplates = [] := by
  cases h
  exact ⟨⟨List.nodup_nil, by simp [Dict.keys]⟩, rfl, rfl⟩

/-- A composed document holds each local node of each instance once. -/
theorem compose_sites {document : ComposedWorkflowDocument} (h : compose project path = .ok document) :
    (idsOf document.composedNodes).Nodup ∧ ∃ root, contextOf project (rootArgs path) = .ok root ∧
      ∃ sites : List Site, sites.map Site.node = document.composedNodes ∧
        (∀ site ∈ sites, Derived project root site.context site.written site.node) ∧
        ∀ context written, Below project root context written ↔
          ∃ site ∈ sites, site.context = context ∧ site.written = written := by
  unfold compose at h
  obtain ⟨workflow, -, h⟩ := (do_eq_ok ..).mp h
  obtain ⟨start, hstart, h⟩ := (do_eq_ok ..).mp h
  obtain ⟨⟨composition, composer⟩, hfile, h⟩ := (do_eq_ok ..).mp h
  cases h
  obtain ⟨hregistered, hsources, htemplates⟩ := registered_start _ _ hstart
  obtain ⟨root, -, -, -, -, -, hroot, -⟩ := composeFile_eq_ok hfile
  obtain ⟨root', hroot', hbelow⟩ := @composeFile_traversed project root _ _ _ _ _ hregistered hfile
  rw [hroot] at hroot'
  obtain rfl := Except.ok.inj hroot'
  obtain ⟨templates, htraversed⟩ := hbelow [] (Descends.here root)
  obtain ⟨f, hf, hid, hderived⟩ := materializeSelectors_eq_map composition.nodes composition.worktrees.length
    workflow.worktrees.length
  have hmapped := htraversed.map hid fun context written node _ => hderived project root context written node
  have hnodes : ComposedWorkflowDocument.composedNodes
      { nodes := materializeSelectors composition.nodes composition.worktrees.length workflow.worktrees.length
        worktrees := composition.worktrees
        nodeSourcePaths := composer.nodeSources
        foreachTemplates := composer.foreachTemplates } = composition.nodes.map f ++ templateNodes templates := by
    rw [ComposedWorkflowDocument.composedNodes, hf, hmapped.templates_eq, htemplates, List.nil_append]
  rw [hnodes]
  constructor
  · have hnodup := hmapped.perm.nodup_iff.mp hmapped.registered.nodup
    rw [hsources] at hnodup
    rw [idsOf_append]
    exact hnodup
  · obtain ⟨kept, templated, hkept, htemplated, hsites, hcovered⟩ := hmapped.sites
    exact ⟨root, hroot, kept ++ templated, by rw [List.map_append, hkept, htemplated], hsites, hcovered⟩

/-- An id belongs to one local node of one instance. -/
theorem instance_unique {document : ComposedWorkflowDocument} (h : compose project path = .ok document)
    {context' : CompositionContext} {frames' : List Frame} {written written' : NodeSpec}
    (hinstance : Instance project path frames context) (hkeeps : context.Keeps written)
    (hinstance' : Instance project path frames' context') (hkeeps' : context'.Keeps written')
    (hid : qualifyId context'.namespacePrefix written'.payload.id = qualifyId context.namespacePrefix written.payload.id) :
    context' = context ∧ written' = written := by
  obtain ⟨hnodup, root, hroot, sites, hnodes, hderived, hcovered⟩ := compose_sites h
  obtain ⟨root', hroot', hdescends⟩ := hinstance
  rw [hroot] at hroot'
  obtain rfl := Except.ok.inj hroot'
  obtain ⟨root', hroot', hdescends'⟩ := hinstance'
  rw [hroot] at hroot'
  obtain rfl := Except.ok.inj hroot'
  obtain ⟨site, hsite, rfl, rfl⟩ := (hcovered context written).mp ⟨⟨frames, hdescends⟩, hkeeps⟩
  obtain ⟨site', hsite', rfl, rfl⟩ := (hcovered context' written').mp ⟨⟨frames', hdescends'⟩, hkeeps'⟩
  have hfrom := composedFrom_of_derived hroot hdescends hkeeps (hderived site hsite)
  have hfrom' := composedFrom_of_derived hroot hdescends' hkeeps' (hderived site' hsite')
  -- two sites of one id are one site
  have hinj : (sites.map fun site => site.node.payload.id).Nodup := by
    have : idsOf document.composedNodes = sites.map fun site => site.node.payload.id := by
      rw [← hnodes, idsOf, List.map_map]
      rfl
    rw [← this]
    exact hnodup
  have := List.inj_on_of_nodup_map hinj hsite' hsite (by rw [hfrom'.id, hid, hfrom.id])
  rw [this]
  exact ⟨rfl, rfl⟩

theorem compose_validated {document : ComposedWorkflowDocument} (h : compose project path = .ok document)
    (hinstance : Instance project path frames context) {frame : Frame} {child : CompositionContext}
    (hchild : Child project context frame child) : Validated project frame child := by
  obtain ⟨root, hroot, hdescends⟩ := hinstance
  unfold compose at h
  obtain ⟨workflow, -, h⟩ := (do_eq_ok ..).mp h
  obtain ⟨start, hstart, h⟩ := (do_eq_ok ..).mp h
  obtain ⟨⟨composition, composer⟩, hfile, -⟩ := (do_eq_ok ..).mp h
  exact composeFile_validated hdescends hchild (registered_start _ _ hstart).1 hfile hroot

/-- A kept node is what its own id is read as. -/
theorem resolve_of_keeps {written : NodeSpec} (h : context.Keeps written) :
    context.resolve written.payload.id = qualifyId context.namespacePrefix written.payload.id := by
  unfold CompositionContext.resolve resolveDependencyId
  have hnone : context.boundInputNodes.get? written.payload.id = none := by
    cases hget : context.boundInputNodes.get? written.payload.id with
    | none => rfl
    | some target => exact absurd ((Dict.mem_keys_iff _ _).mpr (by rw [hget]; rfl)) h.2
  rw [hnone]

end Reading

/-- Composition returns, and what it returns is hygienic: the ids are distinct; a composed node is one kept node of
one instance, whose needs, references and parameters are read in that instance (`ComposedFrom`); a node's own id
leads to it and to no node of another instance; a bound input leads to its source, as the caller reads it; and the
parameters reported unused are those that no prompt below reads. -/
theorem composition_hygienic (project : Project) (path : String) :
    Returns (compose project path) ∧
    (∀ document, compose project path = .ok document →
      (idsOf document.composedNodes).Nodup ∧
      (∀ node ∈ document.composedNodes, ∃ frames context written, Instance project path frames context ∧
        context.Keeps written ∧ ComposedFrom project path frames context written node) ∧
      (∀ frames context written, Instance project path frames context → context.Keeps written →
        ∃ node ∈ document.composedNodes, node.payload.id = context.resolve written.payload.id ∧
          ComposedFrom project path frames context written node ∧
          ∀ frames' context' written', Instance project path frames' context' → context'.Keeps written' →
            qualifyId context'.namespacePrefix written'.payload.id = node.payload.id →
            context' = context ∧ written' = written) ∧
      (project.Plain → ∀ frames context frame child, Instance project path frames context →
        Child project context frame child → ∀ key ∈ Dict.keys frame.withParams, Used project child key)) ∧
    (∀ context frame child, Child project context frame child → ∀ nodeId target,
      child.boundInputNodes.get? nodeId = some target ↔ ∃ inputName sourceId, (inputName, sourceId) ∈ frame.inputs ∧
        child.workflow.inputs.get? inputName = some nodeId ∧ target = context.resolve sourceId) ∧
    (project.Plain → ∀ frames context frame child, Instance project path frames context →
      Child project context frame child → ∀ fuel args before after result, contextOf project args = .ok child →
      before.Registered → composeFile project fuel args before = .ok (result, after) →
      ∀ spec : ImportSpec, spec.withParams = frame.withParams → ∃ unused,
        (∀ key, key ∈ unused ↔ key ∈ Dict.keys frame.withParams ∧ ¬Used project child key) ∧
        validateImportParamsConsumed spec frame.bindingNamespace result =
          if unused = [] then .ok () else .error (.unusedParams spec.importAlias spec.sourcePath unused)) := by
  refine ⟨compose_returns path, ?_, fun context frame child hchild => hchild.bound, ?_⟩
  · intro document h
    obtain ⟨hnodup, root, hroot, sites, hnodes, hderived, hcovered⟩ := compose_sites h
    refine ⟨hnodup, ?_, ?_, ?_⟩
    · intro node hnode
      rw [← hnodes] at hnode
      obtain ⟨site, hsite, rfl⟩ := List.mem_map.mp hnode
      obtain ⟨⟨frames, hdescends⟩, hkeeps⟩ := (hcovered _ _).mpr ⟨site, hsite, rfl, rfl⟩
      exact ⟨frames, _, _, ⟨root, hroot, hdescends⟩, hkeeps,
        composedFrom_of_derived hroot hdescends hkeeps (hderived site hsite)⟩
    · rintro frames context written ⟨root', hroot', hdescends⟩ hkeeps
      rw [hroot] at hroot'
      obtain rfl := Except.ok.inj hroot'
      obtain ⟨site, hsite, rfl, rfl⟩ := (hcovered context written).mp ⟨⟨frames, hdescends⟩, hkeeps⟩
      have hfrom := composedFrom_of_derived hroot hdescends hkeeps (hderived site hsite)
      refine ⟨site.node, by rw [← hnodes]; exact List.mem_map_of_mem hsite, ?_, hfrom, ?_⟩
      · rw [hfrom.id, resolve_of_keeps hkeeps]
      · intro frames' context' written' hinstance' hkeeps' hid
        exact instance_unique h ⟨_, hroot, hdescends⟩ hkeeps hinstance' hkeeps' (hid.trans hfrom.id)
    · intro hplain frames context frame child hinstance hchild key hkey
      obtain ⟨fuel, args, before, result, after, hargs, hbefore, hresult, hunused⟩ := compose_validated h hinstance hchild
      by_contra hnot
      have := (mem_unusedKeys_iff hplain hinstance hchild hargs hbefore hresult key).mpr ⟨hkey, hnot⟩
      rw [hunused] at this
      simp at this
  · intro hplain frames context frame child hinstance hchild fuel args before after result hargs hbefore hresult spec hspec
    refine ⟨unusedKeys frame.withParams frame.bindingNamespace result.consumedParamBindings,
      mem_unusedKeys_iff hplain hinstance hchild hargs hbefore hresult, ?_⟩
    unfold validateImportParamsConsumed require
    rw [hspec]

/-! ## A value is not read again

The middle file hands its own node to the leaf, inside a value. The value is put in verbatim, and after composition
the reference names the node of the root file instead. -/

def promptNode (id content sourcePath : String) : NodeSpec :=
  { payload := { id, mode := .sequential, promptSegments := [⟨.shared, content⟩] }, sourcePath }

def leafFile : ParsedWorkflow where
  schemaVersion := "1.0"
  nodes := [promptNode "n" "{{param:k}}" "leaf.md"]
  aliases_ok := by simp
  import_keys := by simp
  foreach_keys := by simp [promptNode, Dict.keys]
  foreach_inputs := by simp [promptNode]

def leafImport : ImportSpec :=
  { importAlias := "l", rawPath := "leaf.md", sourcePath := "middle.md", withParams := [("k", "{{a.output}}")], needs := ["a"] }

def middleFile : ParsedWorkflow where
  schemaVersion := "1.0"
  imports := [leafImport]
  nodes := [promptNode "a" "Plan." "middle.md"]
  aliases_ok := by simp [leafImport]; decide +kernel
  import_keys := by simp [leafImport, Dict.keys]
  foreach_keys := by simp [promptNode, Dict.keys]
  foreach_inputs := by simp [promptNode]

def middleImport : ImportSpec :=
  { importAlias := "m", rawPath := "middle.md", sourcePath := "root.md", needs := ["a"] }

def rootFile : ParsedWorkflow where
  schemaVersion := "1.0"
  imports := [middleImport]
  nodes := [promptNode "a" "Draft." "root.md"]
  aliases_ok := by simp [middleImport]; decide +kernel
  import_keys := by simp [middleImport, Dict.keys]
  foreach_keys := by simp [promptNode, Dict.keys]
  foreach_inputs := by simp [promptNode]

def sampleLoad (path : String) : Except String ParsedWorkflow :=
  if path = "root.md" then .ok rootFile
  else if path = "middle.md" then .ok middleFile
  else if path = "leaf.md" then .ok leafFile
  else .error "Workflow file does not exist"

def sampleProject : Project where
  files := ["root.md", "middle.md", "leaf.md"]
  load := sampleLoad
  resolveImportFile _ rawPath := .ok rawPath
  mem_files := by
    intro path workflow h
    unfold sampleLoad at h
    split at h
    · simp_all
    · split at h
      · simp_all
      · split at h <;> simp_all

def rootContextSample : CompositionContext :=
  { workflow := rootFile, namespacePrefix := "", inheritedParams := [], boundInputNodes := [], importStack := ["root.md"] }

def middleContextSample : CompositionContext :=
  { workflow := middleFile, namespacePrefix := "m", inheritedParams := [], boundInputNodes := []
    importStack := ["root.md", "middle.md"] }

/-- The reference that `middle.md` writes into a value names `m.a` there, and `a` of the root file after composition. -/
theorem value_reference_escapes : ∃ frames context document, Instance sampleProject "root.md" frames context ∧
    leafImport ∈ context.workflow.imports ∧ ("k", "{{a.output}}") ∈ leafImport.withParams ∧
    (∃ written, context.Keeps written ∧ written.payload.id = "a") ∧ context.resolve "a" = "m.a" ∧
    compose sampleProject "root.md" = .ok document ∧ idsOf document.composedNodes = ["m.l.n", "m.a", "a"] ∧
    ∃ node ∈ document.composedNodes, node.payload.id = "m.l.n" ∧ ∃ segment ∈ node.payload.promptSegments,
      (iterTemplateReferences segment.content).map (·.nodeId) = [some "a"] := by
  have hroot : contextOf sampleProject (rootArgs "root.md") = .ok rootContextSample := rfl
  have hchild : Child sampleProject rootContextSample ⟨qualifyId "" "m", [], []⟩ middleContextSample :=
    @Child.imported sampleProject rootContextSample middleImport "middle.md" middleContextSample (by simp [rootContextSample, rootFile]) rfl rfl
  have hdocument : ∃ document, compose sampleProject "root.md" = .ok document := by
    cases h : compose sampleProject "root.md" with
    | ok document => exact ⟨document, rfl⟩
    | error e =>
      have : (compose sampleProject "root.md").toOption.isSome = true := by decide +kernel
      rw [h] at this
      simp [Except.toOption] at this
  obtain ⟨document, hdocument⟩ := hdocument
  have hnodes : (compose sampleProject "root.md").toOption.map (fun document => document.composedNodes.map fun node =>
      (node.payload.id, node.payload.promptSegments.map (·.content))) =
      some [("m.l.n", ["{{a.output}}"]), ("m.a", ["Plan."]), ("a", ["Draft."])] := by decide +kernel
  rw [hdocument] at hnodes
  have hnodes := Option.some.inj hnodes
  dsimp only at hnodes
  have hids : idsOf document.composedNodes = ["m.l.n", "m.a", "a"] := by
    have := congrArg (List.map Prod.fst) hnodes
    simpa [idsOf, Function.comp_def] using this
  have hmem : ("m.l.n", ["{{a.output}}"]) ∈ document.composedNodes.map fun node =>
      (node.payload.id, node.payload.promptSegments.map (·.content)) := by
    rw [hnodes]
    exact List.mem_cons_self
  obtain ⟨node, hnode, hpair⟩ := List.mem_map.mp hmem
  obtain ⟨hid, hsegments⟩ := Prod.mk.inj hpair
  have hsegment : "{{a.output}}" ∈ node.payload.promptSegments.map (·.content) := by
    rw [hsegments]
    exact List.mem_cons_self
  obtain ⟨segment, hsegment, hcontent⟩ := List.mem_map.mp hsegment
  have hreads : (iterTemplateReferences "{{a.output}}").map (·.nodeId) = [some "a"] := by decide +kernel
  refine ⟨_, middleContextSample, document,
    ⟨rootContextSample, hroot, Descends.step hchild (Descends.here middleContextSample)⟩, by simp [middleContextSample, middleFile],
    by simp [leafImport], ⟨promptNode "a" "Plan." "middle.md", ⟨by simp [middleContextSample, middleFile],
      by simp [middleContextSample, Dict.keys]⟩, rfl⟩, by decide +kernel, hdocument, hids, node, hnode, hid, segment, hsegment, ?_⟩
  rw [hcontent]
  exact hreads

end Crewplane.Composition
