import Crewplane.Composition.Traversal
/-
# Instances of a workflow file

A composition unfolds the import graph into a tree: every import of a file, and
every foreach node, is an instance of its own, with the namespace, the bound inputs
and the parameters of the way it was reached. `Descends` is that way, as the list of
frames that bind parameters, the innermost first; `innermost` looks a key up in it.
-/
namespace Crewplane.Composition

open Crewplane.Lib Crewplane.Workflow Crewplane.Prompt

/-- A node that composition keeps: a bound input is left to its caller. -/
def CompositionContext.Keeps (context : CompositionContext) (node : NodeSpec) : Prop :=
  node ∈ context.workflow.nodes ∧ node.payload.id ∉ Dict.keys context.boundInputNodes

/-- The `with` values of an import or a foreach node, under the namespace they are bound in, and its `inputs` as
they are written. -/
structure Frame where
  bindingNamespace : String
  withParams : Dict String String
  inputs : Dict String String
  deriving DecidableEq, Repr

def Frame.binding (frame : Frame) (key : String) : Option ParamBinding :=
  (frame.withParams.get? key).map fun value => ⟨value, parameterBindingId frame.bindingNamespace key⟩

/-- The binding of the innermost frame that binds the key. -/
def innermost (frames : List Frame) (key : String) : Option ParamBinding := frames.findSome? (·.binding key)

section Tree

variable (project : Project)

/-- One import, or one foreach node, down. -/
inductive Child (context : CompositionContext) : Frame → CompositionContext → Prop
  | imported {spec : ImportSpec} {path : String} {child : CompositionContext} :
    spec ∈ context.workflow.imports → resolveImportFile project spec = .ok path →
    contextOf project (importArgs context spec path) = .ok child →
    Child context ⟨qualifyId context.namespacePrefix spec.importAlias, spec.withParams, spec.inputs⟩ child
  | template {node : NodeSpec} {group : ComposedNode} {consumed : List String} {rawPath path : String}
      {child : CompositionContext} :
    context.Keeps node → composeLocalNode context node = .ok (group, consumed) → group.payload.mode = .foreach →
    group.payload.workflow = some rawPath → resolveImportFile project (foreachSpec group rawPath) = .ok path →
    contextOf project (templateArgs context group.payload path) = .ok child →
    Child context ⟨group.payload.id ++ ".template", group.payload.withParams, node.payload.inputs⟩ child

inductive Descends : CompositionContext → List Frame → CompositionContext → Prop
  | here (context : CompositionContext) : Descends context [] context
  | step {context child below : CompositionContext} {frame : Frame} {frames : List Frame} :
    Child project context frame child → Descends child frames below → Descends context (frames ++ [frame]) below

variable {project}

theorem Descends.trans {above context below : CompositionContext} {frames frames' : List Frame}
    (hfirst : Descends project above frames context) (hthen : Descends project context frames' below) :
    Descends project above (frames' ++ frames) below := by
  induction hfirst with
  | here => simpa using hthen
  | step hchild _ ih =>
    rw [← List.append_assoc]
    exact Descends.step hchild (ih hthen)

theorem loadWorkflowFile_eq_ok {path : String} {workflow : ParsedWorkflow} (h : loadWorkflowFile project path = .ok workflow) :
    project.load path = .ok workflow := by
  unfold loadWorkflowFile at h
  cases hload : project.load path with
  | error message => simp [hload, Except.mapError] at h
  | ok loaded =>
    rw [hload] at h
    cases h
    rfl

/-- What a prompt of an instance is read with. -/
theorem contextOf_eq_ok {args : FileArgs} {context : CompositionContext} (h : contextOf project args = .ok context) :
    loadWorkflowFile project args.path = .ok context.workflow ∧
      resolveBoundInputNodes args.path context.workflow.inputs args.boundInputs = .ok context.boundInputNodes ∧
      context.namespacePrefix = args.namespacePrefix ∧ context.inheritedParams = args.inheritedParams ∧
      context.importStack = args.importStack ++ [args.path] := by
  unfold contextOf at h
  obtain ⟨workflow, hload, h⟩ := (do_eq_ok ..).mp h
  obtain ⟨boundInputNodes, hbound, h⟩ := (do_eq_ok ..).mp h
  cases h
  exact ⟨hload, hbound, rfl, rfl, rfl⟩

theorem updatedNode_payload {context : CompositionContext} {sourcePath : String} {node payload : WorkflowNode}
    {consumed : List String} (h : updatedNode context sourcePath node = .ok (payload, consumed)) :
    payload.id = qualifyId context.namespacePrefix node.id ∧ payload.mode = node.mode ∧
      payload.needs = node.needs.map context.resolve ∧ payload.withParams = node.withParams ∧
      payload.workflow = node.workflow ∧ payload.itemInput = node.itemInput := by
  unfold updatedNode at h
  split at h
  · cases h
    exact ⟨rfl, rfl, rfl, rfl, rfl, rfl⟩
  · cases h
    exact ⟨rfl, rfl, rfl, rfl, rfl, rfl⟩
  all_goals
    obtain ⟨⟨segments, consumed'⟩, -, h⟩ := (do_eq_ok ..).mp h
    cases h
    exact ⟨rfl, rfl, rfl, rfl, rfl, rfl⟩

theorem updatedNode_foreach {context : CompositionContext} {sourcePath : String} {node payload : WorkflowNode}
    {consumed : List String} (h : updatedNode context sourcePath node = .ok (payload, consumed))
    (hmode : node.mode = .foreach) :
    payload.inputs = (node.inputs.map fun binding => (binding.1, context.resolve binding.2)) ∧
      payload.items = node.items.map (rewriteItems context) := by
  unfold updatedNode at h
  rw [hmode] at h
  cases h
  exact ⟨rfl, rfl⟩

theorem updatedNode_prompt {context : CompositionContext} {sourcePath : String} {node payload : WorkflowNode}
    {consumed : List String} (h : updatedNode context sourcePath node = .ok (payload, consumed))
    (hmode : node.mode = .parallel ∨ node.mode = .sequential) :
    rewritePromptSegments node.promptSegments context.namespacePrefix context.boundInputNodes context.inheritedParams
      sourcePath node.id = .ok (payload.promptSegments, consumed) := by
  unfold updatedNode at h
  rcases hmode with hmode | hmode
  all_goals
    rw [hmode] at h
    obtain ⟨⟨segments, consumed'⟩, hsegments, h⟩ := (do_eq_ok ..).mp h
    cases h
    exact hsegments

theorem updatedNode_consumed_nil {context : CompositionContext} {sourcePath : String} {node payload : WorkflowNode}
    {consumed : List String} (h : updatedNode context sourcePath node = .ok (payload, consumed))
    (hmode : ¬(node.mode = .parallel ∨ node.mode = .sequential)) : consumed = [] := by
  unfold updatedNode at h
  cases hcase : node.mode <;> rw [hcase] at h
  · cases h
    rfl
  · exact absurd (Or.inl hcase) hmode
  · exact absurd (Or.inr hcase) hmode
  · cases h
    rfl

theorem composeLocalNode_eq_ok {context : CompositionContext} {node : NodeSpec} {composed : ComposedNode}
    {consumed : List String} (h : composeLocalNode context node = .ok (composed, consumed)) :
    updatedNode context node.sourcePath node.payload = .ok (composed.payload, consumed) ∧
      composed.sourcePath = node.sourcePath := by
  unfold composeLocalNode at h
  obtain ⟨⟨payload, consumed'⟩, hupdated, h⟩ := (do_eq_ok ..).mp h
  cases h
  exact ⟨hupdated, rfl⟩

/-! ## Parameters -/

theorem get?_bindImportParams (inheritedParams : Dict String ParamBinding) {frame : Frame}
    (hkeys : (Dict.keys frame.withParams).Nodup) (key : String) :
    (bindImportParams inheritedParams frame.bindingNamespace frame.withParams).get? key =
      (frame.binding key).or (inheritedParams.get? key) := by
  have hmap : Dict.keys (frame.withParams.map fun param =>
      (param.1, (⟨param.2, parameterBindingId frame.bindingNamespace param.1⟩ : ParamBinding))) =
      Dict.keys frame.withParams := by
    simp [Dict.keys, Function.comp_def]
  have hget : ∀ d : Dict String String, Dict.get? (d.map fun param =>
      (param.1, (⟨param.2, parameterBindingId frame.bindingNamespace param.1⟩ : ParamBinding))) key =
      (d.get? key).map fun value => ⟨value, parameterBindingId frame.bindingNamespace key⟩ := by
    intro d
    induction d with
    | nil => rfl
    | cons param d ih =>
      simp only [List.map_cons, Dict.get?]
      by_cases hkey : param.1 = key
      · simp [hkey]
      · simpa [hkey] using ih
  unfold bindImportParams Frame.binding
  by_cases hmem : key ∈ Dict.keys frame.withParams
  · rw [Dict.get?_update_of_mem _ (by rw [hmap]; exact hkeys) (by rw [hmap]; exact hmem), hget]
    obtain ⟨value, hvalue⟩ := Dict.get?_isSome_of_mem_keys hmem
    rw [hvalue]
    rfl
  · rw [Dict.get?_update_of_not_mem _ _ (by rw [hmap]; exact hmem)]
    have hnone : frame.withParams.get? key = none := by
      cases hvalue : frame.withParams.get? key with
      | none => rfl
      | some value => exact absurd ((Dict.mem_keys_iff _ _).mpr (by rw [hvalue]; rfl)) hmem
    rw [hnone]
    rfl

theorem Child.params {context child : CompositionContext} {frame : Frame} (h : Child project context frame child)
    (key : String) : child.inheritedParams.get? key = (frame.binding key).or (context.inheritedParams.get? key) := by
  cases h with
  | imported hspec _ hcontext =>
    obtain ⟨-, -, -, hparams, -⟩ := contextOf_eq_ok hcontext
    rw [hparams]
    exact @get?_bindImportParams _ ⟨_, _, _⟩ (context.workflow.import_keys _ hspec).1 key
  | template hnode hgroup _ _ _ hcontext =>
    obtain ⟨-, -, -, hparams, -⟩ := contextOf_eq_ok hcontext
    have hwith := (updatedNode_payload (composeLocalNode_eq_ok hgroup).1).2.2.2.1
    have hkeys := (context.workflow.foreach_keys _ hnode.1).1
    rw [← hwith] at hkeys
    rw [hparams]
    exact @get?_bindImportParams _ ⟨_, _, _⟩ hkeys key

theorem innermost_append (frames : List Frame) (frame : Frame) (key : String) :
    innermost (frames ++ [frame]) key = (innermost frames key).or (frame.binding key) := by
  unfold innermost
  rw [List.findSome?_append]
  cases hbinding : frame.binding key <;> simp [List.findSome?, hbinding]

theorem exists_of_innermost {frames : List Frame} {key : String} {binding : ParamBinding}
    (h : innermost frames key = some binding) : ∃ frame ∈ frames, frame.binding key = some binding :=
  List.exists_of_findSome?_eq_some h

theorem binding_id {frame : Frame} {key : String} {binding : ParamBinding} (h : frame.binding key = some binding) :
    binding.bindingId = parameterBindingId frame.bindingNamespace key := by
  unfold Frame.binding at h
  obtain ⟨value, -, rfl⟩ := Option.map_eq_some_iff.mp h
  rfl

theorem mem_keys_of_binding {frame : Frame} {key : String} {binding : ParamBinding}
    (h : frame.binding key = some binding) : key ∈ Dict.keys frame.withParams := by
  unfold Frame.binding at h
  obtain ⟨value, hvalue, -⟩ := Option.map_eq_some_iff.mp h
  rw [Dict.mem_keys_iff, hvalue]
  rfl

/-- A key has its innermost binding on the way down, or the one it had above. -/
theorem Descends.params {context below : CompositionContext} {frames : List Frame}
    (h : Descends project context frames below) (key : String) :
    below.inheritedParams.get? key = (innermost frames key).or (context.inheritedParams.get? key) := by
  induction h with
  | here => rfl
  | step hchild _ ih =>
    rw [ih, hchild.params key, innermost_append, Option.or_assoc]

/-! ## Namespaces -/

/-- A namespace under another one. -/
def Under (above below : String) : Prop := ∃ rest : String, below = above ++ "." ++ rest

theorem Under.trans {above middle below : String} (hfirst : Under above middle) (hthen : Under middle below) :
    Under above below := by
  obtain ⟨rest, rfl⟩ := hfirst
  obtain ⟨rest', rfl⟩ := hthen
  exact ⟨rest ++ "." ++ rest', by simp [String.append_assoc]⟩

theorem Under.ne_empty {above below : String} (h : Under above below) : below ≠ "" := by
  obtain ⟨rest, rfl⟩ := h
  intro hempty
  have := congrArg String.toList hempty
  simp at this

theorem under_qualifyId {namePrefix : String} (hpre : namePrefix ≠ "") (nodeId : String) :
    Under namePrefix (qualifyId namePrefix nodeId) := by
  unfold qualifyId
  rw [if_neg hpre]
  exact ⟨nodeId, rfl⟩

theorem under_template (groupId : String) : Under groupId (groupId ++ ".template") := by
  refine ⟨"template", ?_⟩
  rw [String.append_assoc]
  rfl

theorem Child.namespace_eq {context child : CompositionContext} {frame : Frame} (h : Child project context frame child) :
    child.namespacePrefix = frame.bindingNamespace := by
  cases h with
  | imported _ _ hcontext => exact (contextOf_eq_ok hcontext).2.2.1
  | template _ _ _ _ _ hcontext => exact (contextOf_eq_ok hcontext).2.2.1

theorem Child.namespace_ne_empty {context child : CompositionContext} {frame : Frame}
    (h : Child project context frame child) : frame.bindingNamespace ≠ "" := by
  cases h with
  | imported hspec _ _ =>
    have halias := context.workflow.aliases_ok _ hspec
    by_cases hpre : context.namespacePrefix = ""
    · rintro hempty
      simp only [qualifyId, if_pos hpre] at hempty
      rw [hempty] at halias
      simp [matchesNodeId] at halias
    · exact (under_qualifyId hpre _).ne_empty
  | template _ _ _ _ _ _ => exact (under_template _).ne_empty

theorem Child.under {context child : CompositionContext} {frame : Frame} (h : Child project context frame child)
    (hpre : context.namespacePrefix ≠ "") : Under context.namespacePrefix frame.bindingNamespace := by
  cases h with
  | imported _ _ _ => exact under_qualifyId hpre _
  | template _ hgroup _ _ _ _ =>
    rw [(updatedNode_payload (composeLocalNode_eq_ok hgroup).1).1]
    exact (under_qualifyId hpre _).trans (under_template _)

/-- Every namespace below a named one is under it. -/
theorem Descends.under {context below : CompositionContext} {frames : List Frame}
    (h : Descends project context frames below) (hpre : context.namespacePrefix ≠ "") :
    (∀ frame ∈ frames, Under context.namespacePrefix frame.bindingNamespace) ∧
      (below.namespacePrefix = context.namespacePrefix ∨ Under context.namespacePrefix below.namespacePrefix) := by
  induction h with
  | here => simp
  | step hchild hbelow ih =>
    have hname := hchild.namespace_eq
    have hunder := hchild.under hpre
    obtain ⟨hframes, hend⟩ := ih (by rw [hname]; exact hchild.namespace_ne_empty)
    rw [hname] at hframes hend
    constructor
    · intro frame hframe
      rcases List.mem_append.mp hframe with hframe | hframe
      · exact hunder.trans (hframes frame hframe)
      · rw [List.mem_singleton.mp hframe]
        exact hunder
    · right
      rcases hend with hend | hend
      · rw [hend]
        exact hunder
      · exact hunder.trans hend

/-- Every frame on the way is at the namespace of its end or above it. -/
theorem Descends.above {context below : CompositionContext} {frames : List Frame}
    (h : Descends project context frames below) : ∀ frame ∈ frames, frame.bindingNamespace ≠ "" ∧
      (below.namespacePrefix = frame.bindingNamespace ∨ Under frame.bindingNamespace below.namespacePrefix) := by
  induction h with
  | here => simp
  | step hchild hbelow ih =>
    intro frame hframe
    rcases List.mem_append.mp hframe with hframe | hframe
    · exact ih frame hframe
    · rw [List.mem_singleton.mp hframe, ← hchild.namespace_eq]
      have hne : _ ≠ "" := hchild.namespace_eq ▸ hchild.namespace_ne_empty
      exact ⟨hne, (hbelow.under hne).2⟩

theorem parameterBindingId_inj {name key key' : String} (hname : name ≠ "")
    (h : parameterBindingId name key = parameterBindingId name key') : key = key' := by
  unfold parameterBindingId at h
  rw [if_neg hname, if_neg hname] at h
  have := congrArg String.toList h
  simp only [String.toList_append] at this
  exact String.toList_inj.mp (List.append_cancel_left this)

/-- Bindings of a namespace and of one under it are told apart. -/
theorem parameterBindingId_ne {above below key key' : String} (habove : above ≠ "") (h : Under above below) :
    parameterBindingId below key ≠ parameterBindingId above key' := by
  have hbelow := h.ne_empty
  obtain ⟨rest, rfl⟩ := h
  unfold parameterBindingId
  rw [if_neg hbelow, if_neg habove]
  intro heq
  have := congrArg String.toList heq
  simp only [String.toList_append, List.append_assoc] at this
  have := List.append_cancel_left this
  simp at this

/-- A binding read in the subtree of a frame is that frame's exactly when no frame further in binds the key. -/
theorem binding_eq_iff {context child below : CompositionContext} {frame : Frame} {outer inner : List Frame}
    {root : CompositionContext} (hroot : ∀ key, root.inheritedParams.get? key = none)
    (houter : Descends project root outer context) (hchild : Child project context frame child)
    (hinner : Descends project child inner below) {key key' : String} {binding : ParamBinding}
    (hget : below.inheritedParams.get? key = some binding) :
    binding.bindingId = parameterBindingId frame.bindingNamespace key' ↔
      key = key' ∧ key ∈ Dict.keys frame.withParams ∧ innermost inner key = none := by
  have hne := hchild.namespace_ne_empty
  rw [hinner.params, hchild.params, houter.params, hroot, Option.or_none] at hget
  cases hin : innermost inner key with
  | some further =>
    obtain ⟨other, hother, hfurther⟩ := exists_of_innermost hin
    have hunder : Under frame.bindingNamespace other.bindingNamespace := by
      have := (hinner.under (by rw [hchild.namespace_eq]; exact hne)).1 other hother
      rwa [hchild.namespace_eq] at this
    rw [hin] at hget
    obtain rfl := Option.some.inj hget
    have hid := binding_id hfurther
    simp only [reduceCtorEq, and_false, iff_false]
    rw [hid]
    exact parameterBindingId_ne hne hunder
  | none =>
    rw [hin, Option.none_or] at hget
    cases hown : frame.binding key with
    | some own =>
      rw [hown] at hget
      obtain rfl := Option.some.inj hget
      have hmem := mem_keys_of_binding hown
      rw [binding_id hown]
      constructor
      · intro h
        exact ⟨parameterBindingId_inj hne h, hmem, rfl⟩
      · rintro ⟨rfl, -, -⟩
        rfl
    | none =>
      rw [hown, Option.none_or] at hget
      obtain ⟨other, hother, houtside⟩ := exists_of_innermost hget
      obtain ⟨hotherne, hplace⟩ := houter.above other hother
      have hunder : Under other.bindingNamespace frame.bindingNamespace := by
        rcases hplace with hplace | hplace
        · have := hchild.under (by rw [hplace]; exact hotherne)
          rwa [hplace] at this
        · exact hplace.trans (hchild.under hplace.ne_empty)
      have hnotmem : key ∉ Dict.keys frame.withParams := by
        intro hmem
        obtain ⟨value, hvalue⟩ := Dict.get?_isSome_of_mem_keys hmem
        simp [Frame.binding, hvalue] at hown
      rw [binding_id houtside]
      constructor
      · intro h
        exact absurd h.symm (parameterBindingId_ne hotherne hunder)
      · rintro ⟨-, hmem, -⟩
        exact absurd hmem hnotmem

/-! ## Bound inputs -/

/-- The bound nodes are those that the inputs name, each with the source of its inputs. -/
theorem get?_bindInputNodes {sourcePath : String} {workflowInputs : Dict String String} :
    ∀ {bindings : List (String × String)} {resolved origins out : Dict String String},
    bindInputNodes sourcePath workflowInputs bindings resolved origins = .ok out → ∀ nodeId target,
    out.get? nodeId = some target ↔ resolved.get? nodeId = some target ∨
      ∃ inputName, (inputName, target) ∈ bindings ∧ workflowInputs.get? inputName = some nodeId := by
  intro bindings
  induction bindings with
  | nil =>
    intro resolved origins out h nodeId target
    cases h
    simp
  | cons binding bindings ih =>
    obtain ⟨inputName, sourceId⟩ := binding
    intro resolved origins out h nodeId target
    rw [bindInputNodes] at h
    split at h
    · simp at h
    rename_i rawNodeId hraw
    have hhead : ∀ d : Dict String String, (∀ value, d.get? rawNodeId = some value → value = sourceId) →
        (((d.setItem rawNodeId sourceId).get? nodeId = some target ∨
          ∃ name, (name, target) ∈ bindings ∧ workflowInputs.get? name = some nodeId) ↔
        (d.get? nodeId = some target ∨
          ∃ name, (name, target) ∈ (inputName, sourceId) :: bindings ∧ workflowInputs.get? name = some nodeId)) := by
      intro d hd
      rw [Dict.get?_setItem]
      simp only [List.mem_cons, Prod.mk.injEq, or_and_right, exists_or]
      by_cases hnode : rawNodeId = nodeId
      · subst hnode
        rw [if_pos rfl]
        constructor
        · rintro (h | h)
          · exact Or.inr (Or.inl ⟨inputName, ⟨rfl, (Option.some.inj h).symm⟩, hraw⟩)
          · exact Or.inr (Or.inr h)
        · rintro (h | ⟨name, ⟨-, rfl⟩, -⟩ | h)
          · exact Or.inl (by rw [hd target h])
          · exact Or.inl rfl
          · exact Or.inr h
      · rw [if_neg hnode]
        constructor
        · exact fun h => h.imp id Or.inr
        · rintro (h | ⟨name, ⟨rfl, -⟩, hname⟩ | h)
          · exact Or.inl h
          · rw [hraw] at hname
            exact absurd (Option.some.inj hname) hnode
          · exact Or.inr h
    split at h
    · rename_i hnone
      rw [ih h nodeId target, hhead resolved (by simp [hnone])]
    · rename_i existing hsome
      split at h
      · simp at h
      · rename_i hsame
        have hsame : existing = sourceId := by simpa using hsame
        rw [ih h nodeId target, hhead resolved (by rw [hsome, hsame]; simp)]

/-- An input of an instance is bound to what its caller reads the source as. -/
theorem Child.bound {context child : CompositionContext} {frame : Frame} (h : Child project context frame child)
    (nodeId target : String) : child.boundInputNodes.get? nodeId = some target ↔
      ∃ inputName sourceId, (inputName, sourceId) ∈ frame.inputs ∧ child.workflow.inputs.get? inputName = some nodeId ∧
        target = context.resolve sourceId := by
  have hresolved : ∀ inputs : Dict String String,
      (∃ inputName, (inputName, target) ∈ (inputs.map fun binding => (binding.1, context.resolve binding.2)) ∧
        child.workflow.inputs.get? inputName = some nodeId) ↔
      ∃ inputName sourceId, (inputName, sourceId) ∈ inputs ∧ child.workflow.inputs.get? inputName = some nodeId ∧
        target = context.resolve sourceId := by
    intro inputs
    constructor
    · rintro ⟨inputName, hmem, hname⟩
      obtain ⟨⟨name, sourceId⟩, hbinding, hpair⟩ := List.mem_map.mp hmem
      obtain ⟨rfl, rfl⟩ := Prod.mk.inj hpair
      exact ⟨_, sourceId, hbinding, hname, rfl⟩
    · rintro ⟨inputName, sourceId, hbinding, hname, rfl⟩
      exact ⟨inputName, List.mem_map.mpr ⟨_, hbinding, rfl⟩, hname⟩
  cases h with
  | imported _ _ hcontext =>
    obtain ⟨-, hbound, -⟩ := contextOf_eq_ok hcontext
    rw [get?_bindInputNodes hbound nodeId target, ← hresolved]
    simp [importArgs]
  | template _ hgroup hmode _ _ hcontext =>
    obtain ⟨-, hbound, -⟩ := contextOf_eq_ok hcontext
    have hupdated := (composeLocalNode_eq_ok hgroup).1
    have hinputs := (updatedNode_foreach hupdated (by rw [← (updatedNode_payload hupdated).2.1]; exact hmode)).1
    rw [get?_bindInputNodes hbound nodeId target, ← hresolved]
    simp [templateArgs, hinputs]

end Tree

end Crewplane.Composition
