import Crewplane.Prompt.Compile
/-
# What the policies leave in the state

When no policy reports an error, every `file`, `env` and `var` occurrence of the
workflow has its resolution in the compile state, under its own occurrence id:
ids of different occurrences differ, so no resolution overwrites another.
-/
namespace Crewplane.Prompt

open Crewplane.Lib Crewplane.Workflow

/-! ## Occurrence ids -/

theorem toList_roleValue : ∀ role : ProviderRole,
    role.value.toList = match role with
      | .executor => ['e', 'x', 'e', 'c', 'u', 't', 'o', 'r']
      | .reviewer => ['r', 'e', 'v', 'i', 'e', 'w', 'e', 'r']
  | .executor => by decide +kernel
  | .reviewer => by decide +kernel

theorem toList_occurrenceId (nodeId : String) (role : ProviderRole) (i j : Nat) :
    (renderTokenOccurrenceId nodeId role i j).toList =
      (nodeId.toList ++ (':' :: role.value.toList) ++ [':'] ++ (Nat.repr i).toList) ++ [':'] ++ (Nat.repr j).toList := by
  simp [renderTokenOccurrenceId, toString]

theorem occurrenceId_inj {n n' : String} {r r' : ProviderRole} {i i' j j' : Nat}
    (h : renderTokenOccurrenceId n r i j = renderTokenOccurrenceId n' r' i' j') : n = n' ∧ r = r' ∧ i = i' ∧ j = j' := by
  have hlist := congrArg String.toList h
  rw [toList_occurrenceId, toList_occurrenceId] at hlist
  obtain ⟨hlist, hj⟩ := append_repr_inj (by decide) hlist
  obtain ⟨hlist, hi⟩ := append_repr_inj (by decide) hlist
  -- both roles have eight letters
  rw [toList_roleValue, toList_roleValue] at hlist
  cases r <;> cases r'
  · exact ⟨String.toList_inj.mp (List.append_cancel_right hlist), rfl, hi, hj⟩
  · have := (List.append_inj' hlist rfl).2
    simp at this
  · have := (List.append_inj' hlist rfl).2
    simp at this
  · exact ⟨String.toList_inj.mp (List.append_cancel_right hlist), rfl, hi, hj⟩

theorem occurrenceId_ne_input (n : String) (r : ProviderRole) (i j : Nat) (node : WorkflowNode) :
    renderTokenOccurrenceId n r i j ≠ inputOccurrenceId node := by
  intro h
  have hlist := congrArg String.toList h
  have hinput : (inputOccurrenceId node).toList = (node.id.toList ++ ":input".toList) ++ [':'] ++ (Nat.repr 0).toList := by
    simp [inputOccurrenceId]
  rw [toList_occurrenceId, hinput] at hlist
  obtain ⟨hlist, -⟩ := append_repr_inj (by decide) hlist
  have hlast : 't' ∈ (Nat.repr i).toList := by
    have hne : (Nat.repr i).toList ≠ [] := by simp [Nat.repr, Nat.toDigits_ne_nil]
    have := congrArg List.getLast? hlist
    rw [List.getLast?_append_of_ne_nil _ hne, List.getLast?_append_of_ne_nil _ (by decide +kernel)] at this
    exact List.mem_of_getLast? (this.trans (by decide +kernel))
  have := repr_toList_isDigit i 't' hlast
  simp at this

/-- Numbered entries have different numbers. -/
theorem pairwise_zipIdx {α : Type} (l : List α) (n : Nat) : (l.zipIdx n).Pairwise fun a b => a.2 ≠ b.2 := by
  have : ((l.zipIdx n).map Prod.snd).Nodup := by
    rw [List.zipIdx_map_snd]
    exact List.nodup_range'
  exact List.pairwise_map.mp this

theorem mem_segmentOccurrences {node : WorkflowNode} {i : Nat} {segment : Segment} {occurrence : RenderTokenOccurrence}
    (h : occurrence ∈ iterSegmentRenderTokenOccurrences node i segment) :
    occurrence.node = node ∧ occurrence.segmentIndex = i ∧ occurrence.reference ∈ iterTemplateReferences segment.content ∧
      ∃ j, occurrence.occurrenceId = renderTokenOccurrenceId node.id occurrence.targetRole i j := by
  obtain ⟨entry, hentry, hrole⟩ := List.mem_flatMap.mp h
  obtain ⟨role, -, rfl⟩ := List.mem_map.mp hrole
  exact ⟨rfl, rfl, List.fst_mem_of_mem_zipIdx hentry, entry.2, rfl⟩

theorem nodup_segmentOccurrences (node : WorkflowNode) (i : Nat) (segment : Segment) :
    ((iterSegmentRenderTokenOccurrences node i segment).map (·.occurrenceId)).Nodup := by
  unfold iterSegmentRenderTokenOccurrences
  rw [List.map_flatMap, List.nodup_flatMap]
  constructor
  · rintro entry -
    rw [List.map_map]
    refine List.Nodup.map ?_ ?_
    · intro role role' h
      exact (occurrenceId_inj h).2.1
    · unfold targetRolesForSegment
      cases segment.role <;> decide
  · refine (pairwise_zipIdx _ 0).imp ?_
    intro entry entry' hne id hid hid'
    simp only [List.map_map, List.mem_map, Function.comp_apply] at hid hid'
    obtain ⟨role, -, rfl⟩ := hid
    obtain ⟨role', -, h⟩ := hid'
    exact hne (occurrenceId_inj h).2.2.2.symm

theorem nodup_nodeOccurrences (node : WorkflowNode) :
    ((iterNodeRenderTokenOccurrences node).map (·.occurrenceId)).Nodup := by
  unfold iterNodeRenderTokenOccurrences
  rw [List.map_flatMap, List.nodup_flatMap]
  refine ⟨fun entry _ => nodup_segmentOccurrences node entry.2 entry.1, (pairwise_zipIdx _ 0).imp ?_⟩
  intro entry entry' hne id hid hid'
  obtain ⟨occurrence, hocc, rfl⟩ := List.mem_map.mp hid
  obtain ⟨occurrence', hocc', h⟩ := List.mem_map.mp hid'
  obtain ⟨-, -, -, j, hj⟩ := mem_segmentOccurrences hocc
  obtain ⟨-, -, -, j', hj'⟩ := mem_segmentOccurrences hocc'
  rw [hj, hj'] at h
  exact hne (occurrenceId_inj h).2.2.1.symm

theorem mem_nodeOccurrences {node : WorkflowNode} {occurrence : RenderTokenOccurrence}
    (h : occurrence ∈ iterNodeRenderTokenOccurrences node) :
    occurrence.node = node ∧ (∃ segment ∈ node.promptSegments, occurrence.reference ∈ iterTemplateReferences segment.content) ∧
      ∃ i j, occurrence.occurrenceId = renderTokenOccurrenceId node.id occurrence.targetRole i j := by
  obtain ⟨entry, hentry, hocc⟩ := List.mem_flatMap.mp h
  obtain ⟨hnode, -, href, j, hj⟩ := mem_segmentOccurrences hocc
  exact ⟨hnode, ⟨entry.1, List.fst_mem_of_mem_zipIdx hentry, href⟩, entry.2, j, hj⟩

theorem nodup_occurrences {workflow : WorkflowPlan} (hids : (workflow.nodes.map (·.id)).Nodup) :
    ((iterRenderTokenOccurrences workflow).map (·.occurrenceId)).Nodup := by
  unfold iterRenderTokenOccurrences
  rw [List.map_flatMap, List.nodup_flatMap]
  refine ⟨fun node _ => nodup_nodeOccurrences node, ?_⟩
  have hsub : ((workflow.nodes.filter (·.mode ≠ .input)).map (·.id)).Nodup := hids.sublist (List.filter_sublist.map _)
  refine (List.pairwise_map.mp hsub).imp ?_
  intro node node' hne id hid hid'
  obtain ⟨occurrence, hocc, rfl⟩ := List.mem_map.mp hid
  obtain ⟨occurrence', hocc', h⟩ := List.mem_map.mp hid'
  obtain ⟨-, -, i, j, hj⟩ := mem_nodeOccurrences hocc
  obtain ⟨-, -, i', j', hj'⟩ := mem_nodeOccurrences hocc'
  rw [hj, hj'] at h
  exact hne (occurrenceId_inj h).1.symm

/-! ## Files -/

@[simp] theorem hasErrors_appendDiagnostic (state : CompileState) (diagnostic : PreflightDiagnostic) :
    hasErrors (appendDiagnostic state diagnostic) = true := by
  unfold appendDiagnostic hasErrors
  split
  · rename_i hmem
    simpa using List.ne_nil_of_mem hmem
  · simp

/-- A loop without errors at its end has none at its start, if no step clears them. -/
theorem noErrors_of_foldl {α : Type} {step : CompileState → α → CompileState}
    (hstep : ∀ state x, hasErrors (step state x) = false → hasErrors state = false) :
    ∀ (xs : List α) (state : CompileState), hasErrors (xs.foldl step state) = false → hasErrors state = false := by
  intro xs
  induction xs with
  | nil => exact fun _ h => h
  | cons x xs ih => exact fun state h => hstep state x (ih _ h)

/-- What `file_reference_fragment` finds under an occurrence id. -/
def fileLookup (state : CompileState) (occurrenceId : String) : Option FragmentPayload :=
  match Dict.get? state.workspaceFileReferences occurrenceId with
  | some locatorId => some (.workspaceFileLocator locatorId)
  | none => (Dict.get? state.staticFileReferences occurrenceId).map .staticFileContent

/-- What a captured file compiles to. -/
def StaticFileResult.payload : StaticFileResult → Except PreflightDiagnostic FragmentPayload
  | .captured contentRef => .ok (.staticFileContent contentRef)
  | .rejected diagnostic => .error diagnostic

/-- The resolution of a file token: the terminal history first, then the workspace, then the file itself. -/
def resolvedFile (options : CompileOptions) (occurrence : RenderTokenOccurrence) :
    Except PreflightDiagnostic FragmentPayload :=
  let key := occurrence.reference.key.getD ""
  match options.terminalResultFile occurrence.node.id key with
  | some result => result.payload
  | none =>
    if options.usesWorkspaceFile occurrence.node.id occurrence.reference then
      (options.workspaceFile occurrence.node.id (workspaceFileTargetForRole occurrence.targetRole)
        (some occurrence.segmentIndex) occurrence.reference occurrence.occurrenceId).map .workspaceFileLocator
    else (options.staticFile occurrence.node.id key).payload

/-- The part of the state that the file policy does not touch. -/
def SameValues (state state' : CompileState) : Prop :=
  state'.staticValueReferences = state.staticValueReferences ∧ state'.secretContext = state.secretContext ∧
    state'.valueFingerprints = state.valueFingerprints ∧ state'.tokenCatalog = state.tokenCatalog

theorem SameValues.refl (state : CompileState) : SameValues state state := ⟨rfl, rfl, rfl, rfl⟩

theorem SameValues.trans {a b c : CompileState} (hab : SameValues a b) (hbc : SameValues b c) : SameValues a c :=
  ⟨hbc.1.trans hab.1, hbc.2.1.trans hab.2.1, hbc.2.2.1.trans hab.2.2.1, hbc.2.2.2.trans hab.2.2.2⟩

/-- `state'` is `state` with one more file under `id`, where there was none. -/
structure FileStep (state state' : CompileState) (id : String) (payload : FragmentPayload) : Prop where
  noErrors : hasErrors state = false
  found : fileLookup state' id = some payload
  others : ∀ other, other ≠ id → fileLookup state' other = fileLookup state other
  inputs : state'.inputSourceTokens = state.inputSourceTokens
  values : SameValues state state'

theorem noErrors_recordStatic {state : CompileState} {id : String} {result : StaticFileResult}
    (h : hasErrors (recordStaticFileReference state id result) = false) : hasErrors state = false := by
  cases result with
  | rejected diagnostic => simp [recordStaticFileReference] at h
  | captured contentRef => exact h

theorem noErrors_recordWorkspace {state : CompileState} {id : String} {result : Except PreflightDiagnostic String}
    (h : hasErrors (recordWorkspaceFileReference state id result) = false) : hasErrors state = false := by
  cases result with
  | error diagnostic => simp [recordWorkspaceFileReference] at h
  | ok locatorId => exact h

theorem noErrors_resolveFileOccurrence {options : CompileOptions} (state : CompileState)
    (occurrence : RenderTokenOccurrence) (h : hasErrors (resolveFileOccurrence options state occurrence) = false) :
    hasErrors state = false := by
  unfold resolveFileOccurrence at h
  dsimp only at h
  split at h
  · exact h
  · split at h
    · exact noErrors_recordStatic h
    · split at h
      · exact noErrors_recordWorkspace h
      · exact noErrors_recordStatic h

theorem recordStatic_step {state : CompileState} {id : String} {result : StaticFileResult}
    (hfree : fileLookup state id = none) (h : hasErrors (recordStaticFileReference state id result) = false) :
    ∃ payload, result.payload = .ok payload ∧ FileStep state (recordStaticFileReference state id result) id payload := by
  cases result with
  | rejected diagnostic => simp [recordStaticFileReference] at h
  | captured contentRef =>
    refine ⟨_, rfl, h, ?_, ?_, rfl, rfl, rfl, rfl, rfl⟩
    · unfold fileLookup at hfree
      cases hws : Dict.get? state.workspaceFileReferences id with
      | some locatorId => simp [hws] at hfree
      | none => simp [fileLookup, recordStaticFileReference, hws, Dict.get?_setItem]
    · intro other hne
      simp [fileLookup, recordStaticFileReference, Dict.get?_setItem, hne.symm]

theorem recordWorkspace_step {state : CompileState} {id : String} {result : Except PreflightDiagnostic String}
    (h : hasErrors (recordWorkspaceFileReference state id result) = false) :
    ∃ payload, result.map FragmentPayload.workspaceFileLocator = .ok payload ∧
      FileStep state (recordWorkspaceFileReference state id result) id payload := by
  cases result with
  | error diagnostic => simp [recordWorkspaceFileReference] at h
  | ok locatorId =>
    refine ⟨_, rfl, h, ?_, ?_, rfl, rfl, rfl, rfl, rfl⟩
    · simp [fileLookup, recordWorkspaceFileReference, Dict.get?_setItem]
    · intro other hne
      simp [fileLookup, recordWorkspaceFileReference, Dict.get?_setItem, hne.symm]

theorem resolveFileOccurrence_step {options : CompileOptions} {state : CompileState}
    {occurrence : RenderTokenOccurrence} (hfree : fileLookup state occurrence.occurrenceId = none)
    (hkind : occurrence.reference.kind = .file)
    (h : hasErrors (resolveFileOccurrence options state occurrence) = false) :
    ∃ payload, resolvedFile options occurrence = .ok payload ∧
      FileStep state (resolveFileOccurrence options state occurrence) occurrence.occurrenceId payload := by
  unfold resolveFileOccurrence at h ⊢
  unfold resolvedFile
  simp only [hkind, ne_eq, not_true_eq_false, if_false] at h ⊢
  cases hterminal : options.terminalResultFile occurrence.node.id (occurrence.reference.key.getD "") with
  | some result =>
    simp only [hterminal] at h
    exact recordStatic_step hfree h
  | none =>
    simp only [hterminal] at h
    by_cases huses : options.usesWorkspaceFile occurrence.node.id occurrence.reference = true
    · simp only [huses, if_true] at h ⊢
      exact recordWorkspace_step h
    · simp only [huses] at h ⊢
      exact recordStatic_step hfree h

/-- What a run of the file policy over the occurrences leaves. -/
structure FilesResolved (options : CompileOptions) (occurrences : List RenderTokenOccurrence)
    (state state' : CompileState) : Prop where
  noErrors : hasErrors state = false
  found : ∀ occurrence ∈ occurrences, occurrence.reference.kind = .file →
    ∃ payload, resolvedFile options occurrence = .ok payload ∧ fileLookup state' occurrence.occurrenceId = some payload
  others : ∀ id, (∀ occurrence ∈ occurrences, occurrence.occurrenceId ≠ id) → fileLookup state' id = fileLookup state id
  inputs : state'.inputSourceTokens = state.inputSourceTokens
  values : SameValues state state'

theorem filesResolved_foldl {options : CompileOptions} : ∀ (occurrences : List RenderTokenOccurrence)
    (state : CompileState), (occurrences.map (·.occurrenceId)).Nodup →
    (∀ occurrence ∈ occurrences, fileLookup state occurrence.occurrenceId = none) →
    hasErrors (occurrences.foldl (resolveFileOccurrence options) state) = false →
    FilesResolved options occurrences state (occurrences.foldl (resolveFileOccurrence options) state) := by
  intro occurrences
  induction occurrences with
  | nil =>
    intro state _ _ h
    exact ⟨h, by simp, fun _ _ => rfl, rfl, SameValues.refl state⟩
  | cons occurrence rest ih =>
    intro state hnodup hfree h
    rw [List.map_cons, List.nodup_cons] at hnodup
    rw [List.foldl_cons] at h ⊢
    have hother : ∀ other ∈ rest, other.occurrenceId ≠ occurrence.occurrenceId := by
      intro other hmem heq
      exact hnodup.1 (List.mem_map.mpr ⟨other, hmem, heq⟩)
    by_cases hkind : occurrence.reference.kind = .file
    · have hone := noErrors_of_foldl noErrors_resolveFileOccurrence rest _ h
      obtain ⟨payload, hpayload, hstep⟩ := resolveFileOccurrence_step (hfree occurrence (by simp)) hkind hone
      have hrest := ih _ hnodup.2 (fun other hmem => by
        rw [hstep.others _ (hother other hmem)]
        exact hfree other (List.mem_cons_of_mem _ hmem)) h
      refine ⟨hstep.noErrors, ?_, ?_, hrest.inputs.trans hstep.inputs, hstep.values.trans hrest.values⟩
      · intro other hmem hfile
        rcases List.mem_cons.mp hmem with rfl | hmem
        · exact ⟨payload, hpayload, by rw [hrest.others _ hother, hstep.found]⟩
        · exact hrest.found other hmem hfile
      · intro id hid
        rw [hrest.others id fun other hmem => hid other (List.mem_cons_of_mem _ hmem),
          hstep.others id (Ne.symm (hid occurrence (by simp)))]
    · have hsame : resolveFileOccurrence options state occurrence = state := by
        simp [resolveFileOccurrence, hkind]
      rw [hsame] at h ⊢
      have hrest := ih state hnodup.2 (fun other hmem => hfree other (List.mem_cons_of_mem _ hmem)) h
      refine ⟨hrest.noErrors, ?_, ?_, hrest.inputs, hrest.values⟩
      · intro other hmem hfile
        rcases List.mem_cons.mp hmem with rfl | hmem
        · exact absurd hfile hkind
        · exact hrest.found other hmem hfile
      · intro id hid
        exact hrest.others id fun other hmem => hid other (List.mem_cons_of_mem _ hmem)

/-! ## Inputs -/

/-- `state'` is `state` with the source of an input node resolved. -/
structure InputStep (state state' : CompileState) (node : WorkflowNode) : Prop where
  noErrors : hasErrors state = false
  token : ∃ reference, state'.inputSourceTokens = Dict.setItem state.inputSourceTokens node.id reference
  found : (fileLookup state' (inputOccurrenceId node)).isSome = true
  others : ∀ id, id ≠ inputOccurrenceId node → fileLookup state' id = fileLookup state id
  values : SameValues state state'

theorem recordStaticInput_step {node : WorkflowNode} {reference : TemplateReference} {state : CompileState}
    {result : StaticFileResult} (h : hasErrors (recordStaticInputSource node reference state result) = false) :
    InputStep state (recordStaticInputSource node reference state result) node := by
  cases result with
  | rejected diagnostic => simp [recordStaticInputSource] at h
  | captured contentRef =>
    refine ⟨h, ⟨reference, rfl⟩, ?_, ?_, rfl, rfl, rfl, rfl⟩
    · unfold fileLookup recordStaticInputSource
      cases Dict.get? state.workspaceFileReferences (inputOccurrenceId node) <;> simp [Dict.get?_setItem]
    · intro other hne
      simp [fileLookup, recordStaticInputSource, Dict.get?_setItem, hne.symm]

theorem recordWorkspaceInput_step {node : WorkflowNode} {reference : TemplateReference} {state : CompileState}
    {result : Except PreflightDiagnostic String}
    (h : hasErrors (recordWorkspaceInputSource node reference state result) = false) :
    InputStep state (recordWorkspaceInputSource node reference state result) node := by
  cases result with
  | error diagnostic => simp [recordWorkspaceInputSource] at h
  | ok locatorId =>
    refine ⟨h, ⟨reference, rfl⟩, ?_, ?_, rfl, rfl, rfl, rfl⟩
    · simp [fileLookup, recordWorkspaceInputSource, Dict.get?_setItem]
    · intro other hne
      simp [fileLookup, recordWorkspaceInputSource, Dict.get?_setItem, hne.symm]

theorem resolveInputSource_step {options : CompileOptions} {state : CompileState} {node : WorkflowNode}
    (h : hasErrors (resolveInputSource options state node) = false) :
    InputStep state (resolveInputSource options state node) node := by
  unfold resolveInputSource at h ⊢
  dsimp only at h ⊢
  split at h
  · split at h
    · simp at h
    · rename_i reference href hkind
      simp only [hkind, if_false]
      split at h
      · exact recordStaticInput_step h
      · split at h
        · rename_i huses
          simp only [huses, if_true] at h ⊢
          exact recordWorkspaceInput_step h
        · rename_i huses
          rw [if_neg huses]
          exact recordStaticInput_step h
  · simp at h

/-- What the loop over the input nodes leaves. -/
structure InputsResolved (nodes : List WorkflowNode) (state state' : CompileState) : Prop where
  noErrors : hasErrors state = false
  tokens : ∀ node ∈ nodes, (Dict.get? state'.inputSourceTokens node.id).isSome = true
  kept : ∀ id, (Dict.get? state.inputSourceTokens id).isSome = true → (Dict.get? state'.inputSourceTokens id).isSome = true
  found : ∀ node ∈ nodes, (fileLookup state' (inputOccurrenceId node)).isSome = true
  stays : ∀ id, (fileLookup state id).isSome = true → (fileLookup state' id).isSome = true
  others : ∀ id, (∀ node ∈ nodes, inputOccurrenceId node ≠ id) → fileLookup state' id = fileLookup state id
  values : SameValues state state'

theorem inputsResolved_foldl {options : CompileOptions} : ∀ (nodes : List WorkflowNode) (state : CompileState),
    hasErrors (nodes.foldl (resolveInputSource options) state) = false →
    InputsResolved nodes state (nodes.foldl (resolveInputSource options) state) := by
  intro nodes
  induction nodes with
  | nil => exact fun state h => ⟨h, by simp, fun _ h => h, by simp, fun _ h => h, fun _ _ => rfl, SameValues.refl state⟩
  | cons node rest ih =>
    intro state h
    rw [List.foldl_cons] at h ⊢
    have hrest := ih _ h
    have hstep := resolveInputSource_step hrest.noErrors
    obtain ⟨reference, htoken⟩ := hstep.token
    refine ⟨hstep.noErrors, ?_, ?_, ?_, ?_, ?_, hstep.values.trans hrest.values⟩
    · intro other hmem
      rcases List.mem_cons.mp hmem with rfl | hmem
      · exact hrest.kept _ (by simp [htoken, Dict.get?_setItem])
      · exact hrest.tokens other hmem
    · intro id hid
      refine hrest.kept id ?_
      rw [htoken, Dict.get?_setItem]
      split
      · rfl
      · exact hid
    · intro other hmem
      rcases List.mem_cons.mp hmem with rfl | hmem
      · exact hrest.stays _ hstep.found
      · exact hrest.found other hmem
    · intro id hid
      refine hrest.stays id ?_
      by_cases heq : id = inputOccurrenceId node
      · rw [heq]
        exact hstep.found
      · rw [hstep.others id heq]
        exact hid
    · intro id hid
      rw [hrest.others id fun other hmem => hid other (List.mem_cons_of_mem _ hmem),
        hstep.others id (Ne.symm (hid node (by simp)))]

/-! ## Static values -/

def handleOf (kind : StaticKind) (key : String) : String := kind.value ++ ":" ++ key

theorem lookupStaticValue_eq_ok {kind : StaticKind} {key nodeId value : String} {options : CompileOptions}
    (h : lookupStaticValue kind key options nodeId = .ok value) : staticValueOf options kind key = some value := by
  unfold lookupStaticValue at h
  split at h
  · simp at h
  · cases hvalue : staticValueOf options kind key with
    | none => simp [hvalue] at h
    | some found => simpa [hvalue] using h

theorem toList_handleOf (kind : StaticKind) (key : String) :
    (handleOf kind key).toList = (match kind with
      | .env => ['e', 'n', 'v', ':']
      | .var => ['v', 'a', 'r', ':']) ++ key.toList := by
  cases kind <;> simp [handleOf, StaticKind.value]

theorem handleOf_inj {kind kind' : StaticKind} {key key' : String} (h : handleOf kind key = handleOf kind' key') :
    kind = kind' ∧ key = key' := by
  have hlist := congrArg String.toList h
  rw [toList_handleOf, toList_handleOf] at hlist
  cases kind <;> cases kind'
  · exact ⟨rfl, String.toList_inj.mp (List.append_cancel_left hlist)⟩
  · simp at hlist
  · simp at hlist
  · exact ⟨rfl, String.toList_inj.mp (List.append_cancel_left hlist)⟩

theorem handleOf_ne_config (kind : StaticKind) (key path : String) : handleOf kind key ≠ "config:" ++ path := by
  intro h
  have hlist := congrArg String.toList h
  rw [toList_handleOf] at hlist
  cases kind <;> simp at hlist

/-- How a state keeps the value of a key. -/
def Held (state : CompileState) (kind : StaticKind) (key value : String) : StaticValue → Prop
  | .stored stored => stored = value
  | .handle handle _ =>
    handle = handleOf kind key ∧ Dict.get? state.secretContext handle = some (.text value) ∧
      ∃ record ∈ state.valueFingerprints, record.kind = kind ∧ record.key = key

def ValueResolved (options : CompileOptions) (state : CompileState) (kind : StaticKind)
    (occurrence : RenderTokenOccurrence) : Prop :=
  ∃ value held, staticValueOf options kind (occurrence.reference.key.getD "") = some value ∧
    Dict.get? state.staticValueReferences occurrence.occurrenceId =
      some ⟨kind, occurrence.reference.key.getD "", held⟩ ∧
    Held state kind (occurrence.reference.key.getD "") value held

/-- The part of the state that the value policies do not touch. -/
def SameFiles (state state' : CompileState) : Prop :=
  state'.workspaceFileReferences = state.workspaceFileReferences ∧
    state'.staticFileReferences = state.staticFileReferences ∧ state'.inputSourceTokens = state.inputSourceTokens ∧
    state'.tokenCatalog = state.tokenCatalog

theorem SameFiles.refl (state : CompileState) : SameFiles state state := ⟨rfl, rfl, rfl, rfl⟩

theorem SameFiles.trans {a b c : CompileState} (hab : SameFiles a b) (hbc : SameFiles b c) : SameFiles a c :=
  ⟨hbc.1.trans hab.1, hbc.2.1.trans hab.2.1, hbc.2.2.1.trans hab.2.2.1, hbc.2.2.2.trans hab.2.2.2⟩

/-- Values held before are still held. -/
def Keeps (options : CompileOptions) (state state' : CompileState) : Prop :=
  ∀ kind key value held, staticValueOf options kind key = some value → Held state kind key value held →
    Held state' kind key value held

theorem putStaticValue_keeps {options : CompileOptions} {kind : StaticKind} {key value id : String}
    {state : CompileState} (hvalue : staticValueOf options kind key = some value) :
    Keeps options state (putStaticValue kind key value id state) := by
  intro kind' key' value' held hvalue' hheld
  unfold putStaticValue
  split
  · cases held with
    | stored stored => exact hheld
    | handle handle fingerprint =>
      obtain ⟨rfl, hsecret, record, hrecord, hkind, hkey⟩ := hheld
      refine ⟨rfl, ?_, record, List.mem_append_left _ hrecord, hkind, hkey⟩
      show Dict.get? (Dict.setItem state.secretContext (handleOf kind key) (.text value)) _ = _
      rw [Dict.get?_setItem]
      split
      · rename_i heq
        -- the same handle is put again with the same value
        obtain ⟨rfl, rfl⟩ := handleOf_inj heq
        rw [hvalue] at hvalue'
        rw [Option.some.inj hvalue']
      · exact hsecret
  · cases held with
    | stored stored => exact hheld
    | handle handle fingerprint => exact hheld

theorem putStaticValue_held (kind : StaticKind) (key value id : String) (state : CompileState) :
    ∃ held, Dict.get? (putStaticValue kind key value id state).staticValueReferences id = some ⟨kind, key, held⟩ ∧
      Held (putStaticValue kind key value id state) kind key value held := by
  unfold putStaticValue
  split
  · refine ⟨.handle (handleOf kind key) none, ?_, rfl, ?_, ⟨kind, key, value⟩, by simp, rfl, rfl⟩
    · simp [Dict.get?_setItem, handleOf]
    · simp [Dict.get?_setItem, handleOf]
  · exact ⟨.stored value, by simp [Dict.get?_setItem], rfl⟩

theorem putStaticValue_others (kind : StaticKind) (key value id : String) (state : CompileState) {other : String}
    (hne : other ≠ id) :
    Dict.get? (putStaticValue kind key value id state).staticValueReferences other =
      Dict.get? state.staticValueReferences other := by
  unfold putStaticValue
  split <;> simp [Dict.get?_setItem, hne.symm]

theorem putStaticValue_files (kind : StaticKind) (key value id : String) (state : CompileState) :
    SameFiles state (putStaticValue kind key value id state) := by
  unfold putStaticValue
  split <;> exact SameFiles.refl _

theorem putStaticValue_diagnostics (kind : StaticKind) (key value id : String) (state : CompileState) :
    (putStaticValue kind key value id state).diagnostics = state.diagnostics := by
  unfold putStaticValue
  split <;> rfl

theorem noErrors_resolveStaticValueOccurrence {kind : StaticKind} {options : CompileOptions} (state : CompileState)
    (occurrence : RenderTokenOccurrence)
    (h : hasErrors (resolveStaticValueOccurrence kind options state occurrence) = false) : hasErrors state = false := by
  unfold resolveStaticValueOccurrence at h
  dsimp only at h
  split at h
  · exact h
  · split at h
    · simp at h
    · unfold hasErrors at h ⊢
      rwa [putStaticValue_diagnostics] at h

/-- What a value policy over the occurrences leaves. -/
structure ValuesResolved (options : CompileOptions) (kind : StaticKind) (occurrences : List RenderTokenOccurrence)
    (state state' : CompileState) : Prop where
  noErrors : hasErrors state = false
  found : ∀ occurrence ∈ occurrences, occurrence.reference.kind = kind.reference →
    ValueResolved options state' kind occurrence
  others : ∀ id, (∀ occurrence ∈ occurrences, occurrence.reference.kind = kind.reference → occurrence.occurrenceId ≠ id) →
    Dict.get? state'.staticValueReferences id = Dict.get? state.staticValueReferences id
  keeps : Keeps options state state'
  files : SameFiles state state'

theorem valuesResolved_foldl {options : CompileOptions} {kind : StaticKind} :
    ∀ (occurrences : List RenderTokenOccurrence) (state : CompileState),
    (occurrences.map (·.occurrenceId)).Nodup →
    hasErrors (occurrences.foldl (resolveStaticValueOccurrence kind options) state) = false →
    ValuesResolved options kind occurrences state
      (occurrences.foldl (resolveStaticValueOccurrence kind options) state) := by
  intro occurrences
  induction occurrences with
  | nil =>
    intro state _ h
    exact ⟨h, by simp, fun _ _ => rfl, fun _ _ _ _ _ held => held, SameFiles.refl state⟩
  | cons occurrence rest ih =>
    intro state hnodup h
    rw [List.map_cons, List.nodup_cons] at hnodup
    rw [List.foldl_cons] at h ⊢
    have hrest := ih _ hnodup.2 h
    by_cases hkind : occurrence.reference.kind = kind.reference
    · have hone := hrest.noErrors
      have hbefore := noErrors_resolveStaticValueOccurrence state occurrence hone
      unfold resolveStaticValueOccurrence at hone hrest ⊢
      simp only [hkind, ne_eq, not_true_eq_false, if_false] at hone hrest ⊢
      cases hlookup : lookupStaticValue kind (occurrence.reference.key.getD "") options occurrence.node.id with
      | error diagnostic => simp [hlookup] at hone
      | ok value =>
        simp only [hlookup] at hrest ⊢
        have hvalue := lookupStaticValue_eq_ok hlookup
        obtain ⟨held, hget, hheld⟩ :=
          putStaticValue_held kind (occurrence.reference.key.getD "") value occurrence.occurrenceId state
        refine ⟨hbefore, ?_, ?_, ?_, (putStaticValue_files ..).trans hrest.files⟩
        · intro other hmem hother
          rcases List.mem_cons.mp hmem with rfl | hmem
          · refine ⟨value, held, hvalue, ?_, hrest.keeps _ _ _ _ hvalue hheld⟩
            rw [hrest.others, hget]
            intro later hlater _ heq
            exact hnodup.1 (List.mem_map.mpr ⟨later, hlater, heq⟩)
          · exact hrest.found other hmem hother
        · intro id hid
          rw [hrest.others id fun other hmem => hid other (List.mem_cons_of_mem _ hmem),
            putStaticValue_others _ _ _ _ _ (Ne.symm (hid occurrence (by simp) hkind))]
        · intro kind' key' value' held' hvalue' hheld'
          exact hrest.keeps _ _ _ _ hvalue' (putStaticValue_keeps hvalue _ _ _ _ hvalue' hheld')
    · have hsame : resolveStaticValueOccurrence kind options state occurrence = state := by
        simp [resolveStaticValueOccurrence, hkind]
      rw [hsame] at hrest ⊢
      refine ⟨hrest.noErrors, ?_, ?_, hrest.keeps, hrest.files⟩
      · intro other hmem hother
        rcases List.mem_cons.mp hmem with rfl | hmem
        · exact absurd hother hkind
        · exact hrest.found other hmem hother
      · intro id hid
        exact hrest.others id fun other hmem => hid other (List.mem_cons_of_mem _ hmem)

/-! ## All policies -/

/-- How the assembler gets a value back: a handle has its fingerprint and its value in the secret context. -/
def Ready (secrets : Dict String SecretValue) (value : String) : StaticValue → Prop
  | .stored stored => stored = value
  | .handle _ none => False
  | .handle handle (some _) => Dict.get? secrets handle = some (.text value)

/-- A static value occurrence has its reference, and the reference leads to its value. -/
def ValueReady (options : CompileOptions) (state : CompileState) (kind : StaticKind)
    (occurrence : RenderTokenOccurrence) : Prop :=
  ∃ value ready, staticValueOf options kind (occurrence.reference.key.getD "") = some value ∧
    Dict.get? state.staticValueReferences occurrence.occurrenceId =
      some ⟨kind, occurrence.reference.key.getD "", ready⟩ ∧
    Ready state.secretContext value ready

theorem get?_captured {secrets : Dict String SecretValue} {kind : StaticKind} {key : String} :
    ∀ configSecrets : List (String × String),
    Dict.get? (configSecrets.foldl
      (fun secrets entry => Dict.setItem secrets ("config:" ++ entry.1) (.config entry.2)) secrets) (handleOf kind key) =
      Dict.get? secrets (handleOf kind key) := by
  intro configSecrets
  induction configSecrets generalizing secrets with
  | nil => rfl
  | cons entry rest ih =>
    rw [List.foldl_cons, ih, Dict.get?_setItem, if_neg (handleOf_ne_config kind key entry.1).symm]

theorem fingerprintOf_isSome {options : CompileOptions} {fingerprintKey key : String} {kind : StaticKind}
    {records : List ValueFingerprintRecord} (h : ∃ record ∈ records, record.kind = kind ∧ record.key = key) :
    ∃ fingerprint, fingerprintOf options fingerprintKey records kind key = some fingerprint := by
  obtain ⟨record, hmem, hkind, hkey⟩ := h
  have hfound : (records.reverse.find? fun record => record.kind = kind ∧ record.key = key).isSome = true := by
    rw [List.find?_isSome]
    exact ⟨record, List.mem_reverse.mpr hmem, by simp [hkind, hkey]⟩
  obtain ⟨found, hfound⟩ := Option.isSome_iff_exists.mp hfound
  exact ⟨_, by rw [fingerprintOf, hfound]; rfl⟩

theorem finalize_ready {options : CompileOptions} {state : CompileState} {kind : StaticKind}
    {occurrence : RenderTokenOccurrence} (h : ValueResolved options state kind occurrence)
    (hok : hasErrors (finalizeFingerprints options state) = false) :
    ValueReady options (finalizeFingerprints options state) kind occurrence := by
  obtain ⟨value, held, hvalue, hget, hheld⟩ := h
  unfold finalizeFingerprints at hok ⊢
  split
  · rename_i hnone
    -- without sensitive values nothing is behind a handle
    refine ⟨value, held, hvalue, hget, ?_⟩
    cases held with
    | stored stored => exact hheld
    | handle handle fingerprint =>
      obtain ⟨-, -, record, hrecord, -⟩ := hheld
      rw [hnone.1] at hrecord
      simp at hrecord
  · rename_i hsome
    rw [if_neg hsome] at hok
    cases hkey : options.fingerprintKey with
    | error diagnostic => simp [hkey] at hok
    | ok fingerprintKey =>
      simp only [captureRuntimeConfigSecrets, backfillValueFingerprints]
      cases held with
      | stored stored =>
        refine ⟨value, .stored stored, hvalue, ?_, hheld⟩
        simp only [Dict.get?_map, hget]
        rfl
      | handle handle old =>
        obtain ⟨rfl, hsecret, hrecord⟩ := hheld
        obtain ⟨fingerprint, hfingerprint⟩ := @fingerprintOf_isSome options fingerprintKey _ _ _ hrecord
        refine ⟨value, .handle (handleOf kind (occurrence.reference.key.getD "")) (some fingerprint), hvalue, ?_, ?_⟩
        · simp only [Dict.get?_map, hget]
          simp [backfillReference, hfingerprint]
        · simpa [Ready, get?_captured] using hsecret

theorem finalize_files {options : CompileOptions} {state : CompileState}
    (hok : hasErrors (finalizeFingerprints options state) = false) :
    hasErrors state = false ∧ SameFiles state (finalizeFingerprints options state) := by
  unfold finalizeFingerprints at hok ⊢
  split at hok
  · rename_i hnone
    rw [if_pos hnone]
    exact ⟨hok, SameFiles.refl _⟩
  · rename_i hsome
    rw [if_neg hsome]
    cases hkey : options.fingerprintKey with
    | error diagnostic => simp [hkey] at hok
    | ok fingerprintKey =>
      simp only [hkey] at hok
      exact ⟨hok, rfl, rfl, rfl, rfl⟩

/-- An occurrence whose fragment can be compiled from the state. -/
def Resolved (options : CompileOptions) (state : CompileState) (occurrence : RenderTokenOccurrence) : Prop :=
  match occurrence.reference.kind with
  | .file => ∃ payload, resolvedFile options occurrence = .ok payload ∧
      fileLookup state occurrence.occurrenceId = some payload
  | .env => ValueReady options state .env occurrence
  | .var => ValueReady options state .var occurrence
  | _ => True

/-- What the policies leave when none of them reported an error. -/
structure PoliciesDone (workflow : WorkflowPlan) (options : CompileOptions) (state : CompileState) : Prop where
  noErrors : hasErrors state = false
  resolved : ∀ occurrence ∈ iterRenderTokenOccurrences workflow, Resolved options state occurrence
  inputs : ∀ node ∈ workflow.nodes, isResolvedInput options node = true →
    (Dict.get? state.inputSourceTokens node.id).isSome = true ∧ (fileLookup state (inputOccurrenceId node)).isSome = true
  catalog : state.tokenCatalog = []

theorem fileLookup_of_sameFiles {state state' : CompileState} (h : SameFiles state state') (id : String) :
    fileLookup state' id = fileLookup state id := by
  rw [fileLookup, fileLookup, h.1, h.2.1]

theorem occurrenceId_ne_inputs {workflow : WorkflowPlan} {occurrence : RenderTokenOccurrence}
    (h : occurrence ∈ iterRenderTokenOccurrences workflow) (node : WorkflowNode) :
    occurrence.occurrenceId ≠ inputOccurrenceId node := by
  obtain ⟨owner, -, hocc⟩ := List.mem_flatMap.mp h
  obtain ⟨-, -, i, j, hj⟩ := mem_nodeOccurrences hocc
  rw [hj]
  exact occurrenceId_ne_input _ _ _ _ node

theorem filePolicy_done {workflow : WorkflowPlan} {options : CompileOptions}
    (hids : (workflow.nodes.map (·.id)).Nodup)
    (h : hasErrors (applyFilePolicy workflow options {}) = false) :
    FilesResolved options (iterRenderTokenOccurrences workflow)
      ((workflow.nodes.filter (isResolvedInput options)).foldl (resolveInputSource options) {})
      (applyFilePolicy workflow options {}) ∧
    InputsResolved (workflow.nodes.filter (isResolvedInput options)) {}
      ((workflow.nodes.filter (isResolvedInput options)).foldl (resolveInputSource options) {}) := by
  unfold applyFilePolicy at h ⊢
  have hinputs := inputsResolved_foldl _ _ (noErrors_of_foldl noErrors_resolveFileOccurrence _ _ h)
  refine ⟨filesResolved_foldl _ _ (nodup_occurrences hids) ?_ h, hinputs⟩
  intro occurrence hmem
  rw [hinputs.others _ fun node _ => (occurrenceId_ne_inputs hmem node).symm]
  rfl

theorem ValueResolved.mono {options : CompileOptions} {state state' : CompileState} {kind : StaticKind}
    {occurrence : RenderTokenOccurrence} (h : ValueResolved options state kind occurrence)
    (hsame : Dict.get? state'.staticValueReferences occurrence.occurrenceId =
      Dict.get? state.staticValueReferences occurrence.occurrenceId)
    (hkeeps : Keeps options state state') : ValueResolved options state' kind occurrence := by
  obtain ⟨value, held, hvalue, hget, hheld⟩ := h
  exact ⟨value, held, hvalue, hsame.trans hget, hkeeps _ _ _ _ hvalue hheld⟩

theorem occurrence_eq_of_id {occurrences : List RenderTokenOccurrence}
    (hnodup : (occurrences.map (·.occurrenceId)).Nodup) {a b : RenderTokenOccurrence} (ha : a ∈ occurrences)
    (hb : b ∈ occurrences) (h : a.occurrenceId = b.occurrenceId) : a = b :=
  List.inj_on_of_nodup_map hnodup ha hb h

theorem policiesDone {workflow : WorkflowPlan} {options : CompileOptions} (hids : (workflow.nodes.map (·.id)).Nodup)
    (h : hasErrors (applyPolicies workflow options) = false) :
    PoliciesDone workflow options (applyPolicies workflow options) := by
  have hnodup := nodup_occurrences hids
  unfold applyPolicies at h ⊢
  dsimp only at h ⊢
  split at h
  · simp_all
  rename_i hfiled
  rw [if_neg hfiled]
  split at h
  · simp_all
  rename_i henv
  rw [if_neg henv]
  split at h
  · simp_all
  rename_i hvar
  rw [if_neg hvar]
  obtain ⟨hfiles, hinputs⟩ := filePolicy_done hids (by simpa using hfiled)
  have henvs := valuesResolved_foldl _ _ hnodup (show hasErrors (applyStaticValuePolicy .env workflow options _) = false by
    simpa using henv)
  have hvars := valuesResolved_foldl _ _ hnodup (show hasErrors (applyStaticValuePolicy .var workflow options _) = false by
    simpa using hvar)
  obtain ⟨-, hfinal⟩ := finalize_files h
  have hsame := (henvs.files.trans hvars.files).trans hfinal
  refine ⟨h, ?_, ?_, ?_⟩
  · intro occurrence hmem
    unfold Resolved
    cases hkind : occurrence.reference.kind with
    | file =>
      obtain ⟨payload, hpayload, hfound⟩ := hfiles.found occurrence hmem hkind
      exact ⟨payload, hpayload, (fileLookup_of_sameFiles hsame _).trans hfound⟩
    | env =>
      refine finalize_ready ((henvs.found occurrence hmem hkind).mono (hvars.others _ ?_) hvars.keeps) h
      intro other hother hvarkind heq
      rw [occurrence_eq_of_id hnodup hother hmem heq, hkind] at hvarkind
      simp [StaticKind.reference] at hvarkind
    | var => exact finalize_ready (hvars.found occurrence hmem hkind) h
    | node => trivial
    | param => trivial
    | unknown => trivial
  · intro node hnode hinput
    have hmem := List.mem_filter.mpr ⟨hnode, hinput⟩
    constructor
    · rw [hsame.2.2.1, hfiles.inputs]
      exact hinputs.tokens node hmem
    · rw [fileLookup_of_sameFiles hsame, hfiles.others _ fun occurrence hocc => occurrenceId_ne_inputs hocc node]
      exact hinputs.found node hmem
  · rw [hsame.2.2.2, hfiles.values.2.2.2, hinputs.values.2.2.2]

end Crewplane.Prompt
