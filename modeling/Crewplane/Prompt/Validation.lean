import Crewplane.Lib.Dict
import Crewplane.Prompt.Tokens
/-
# Template validation (`core/workflow/validation/{nodes,templates}.py`)

The checks of a workflow that bear on its prompts: the node ids and the tokens
of every prompt segment and input source. `ancestors` is the ancestor set of the
node, or `none` where the graph is not valid and the check is left to others.
-/
namespace Crewplane.Prompt

open Crewplane.Lib Crewplane.Workflow

/-- `items` of a foreach node: authored objects, or a reference to a collection artifact. -/
inductive ForeachItems
  | literal (count : Nat)
  | reference (text : String)
  deriving DecidableEq, Repr

structure Segment where
  role : PromptSegmentRole
  content : String
  deriving DecidableEq, Repr

/-- `WorkflowNode`, by the fields that validation and prompt compilation read. -/
structure WorkflowNode where
  id : String
  mode : NodeMode
  findings : Bool := false
  promptSegments : List Segment := []
  source : Option String := none
  needs : List String := []
  items : Option ForeachItems := none
  maxItems : Nat := 0
  deriving DecidableEq, Repr

structure WorkflowPlan where
  nodes : List WorkflowNode
  deriving DecidableEq, Repr

/-! ## Node ids (nodes.py) -/

/-- `RESERVED_RUN_ROOT_NAMES`, sorted. -/
def reservedRunRootNames : List String := ["logs", "manifests", "preflight", "workspace-exports"]

/-- `_unique_node_id_diagnostics`. -/
def uniqueNodeIdDiagnostics (workflow : WorkflowPlan) : List String :=
  let ids := workflow.nodes.map (·.id)
  let duplicates := (ids.dedup.filter fun id => 1 < ids.count id).mergeSort
  if duplicates = [] then [] else ["Duplicate node IDs found: " ++ ", ".intercalate duplicates]

/-- `NODE_ID_PATTERN.fullmatch`. -/
def matchesNodeId (id : String) : Bool := id.toList ≠ [] && id.toList.all isMarkerChar

/-- `_node_id_diagnostics`. -/
def nodeIdDiagnostics (node : WorkflowNode) : List String :=
  (if matchesNodeId node.id then [] else
    ["Node id '" ++ node.id ++ "' is invalid. IDs must match '[a-z0-9._-]+'."]) ++
  (if node.id ∈ [".", ".."] then
    ["Node id '" ++ node.id ++ "' is invalid. IDs cannot be '.' or '..'."] else []) ++
  (if node.id ∈ reservedRunRootNames then
    ["Node id '" ++ node.id ++ "' is reserved. IDs cannot be any of: " ++ ", ".intercalate reservedRunRootNames ++ "."]
    else [])

/-! ## Tokens (templates.py) -/

/-- `ALLOWED_NODE_ARTIFACT_NAMES`. -/
def allowedNodeArtifactNames : List String :=
  ["output", "findings", "output_path", "findings_path", "output_size", "findings_size", "output_sha256",
    "findings_sha256"]

/-- `str.lower()` of a name whose characters are ASCII. -/
def lower (text : String) : String := String.ofList (text.toList.map Char.toLower)

/-- `_node_artifact_name_error`. -/
def nodeArtifactNameError (artifactName : String) : Option String :=
  if artifactName ∈ allowedNodeArtifactNames then none
  else if lower artifactName ∈ allowedNodeArtifactNames then
    some ("node artifact name must be lower-case and one of: " ++ ", ".intercalate allowedNodeArtifactNames)
  else some ("node artifact name must be one of: " ++ ", ".intercalate allowedNodeArtifactNames)

/-- `_artifact_reference_error`. -/
def artifactReferenceError (nodeId referenceId artifactName : String) (nodesById : Dict String WorkflowNode)
    (ancestors : Option (List String)) : Option String :=
  let artifactTemplate := openBraces ++ referenceId ++ "." ++ artifactName ++ closeBraces
  match nodeArtifactNameError artifactName with
  | some error =>
    some ("Node '" ++ nodeId ++ "' references unsupported artifact '" ++ artifactTemplate ++ "'. " ++ error)
  | none =>
    match nodesById.get? referenceId with
    | none =>
      some ("Node '" ++ nodeId ++ "' references unknown " ++ artifactName ++ " '" ++ artifactTemplate ++ "'.")
    | some referenced =>
      if referenceId = nodeId then
        some ("Node '" ++ nodeId ++ "' cannot reference its own " ++ artifactName ++ " '" ++ artifactTemplate ++ "'.")
      else
        match ancestors with
        | none => none
        | some ancestors =>
          if referenceId ∉ ancestors then
            some ("Node '" ++ nodeId ++ "' references '" ++ artifactTemplate ++ "' but '" ++ referenceId
              ++ "' is not an upstream dependency.")
          else if ¬ "findings".toList.isPrefixOf artifactName.toList then none
          else if referenced.findings then none
          else some ("Node '" ++ nodeId ++ "' references '" ++ artifactTemplate ++ "' but upstream node '"
            ++ referenceId ++ "' does not define findings: true.")

/-- `_unsupported_template_error`. -/
def unsupportedTemplateError (nodeId token : String) : String :=
  let form := fun (text : String) => openBraces ++ text ++ closeBraces
  "Node '" ++ nodeId ++ "' references unsupported template '" ++ token ++ "'. Supported forms are " ++ form "env:KEY"
    ++ ", " ++ form "file:PATH" ++ ", " ++ form "var:KEY" ++ ", " ++ form "node.output" ++ ", "
    ++ form "node.findings" ++ ", " ++ form "node.output_path" ++ ", and " ++ form "node.findings_path" ++ ", plus "
    ++ form "node.output_size" ++ ", " ++ form "node.findings_size" ++ ", " ++ form "node.output_sha256" ++ ", and "
    ++ form "node.findings_sha256" ++ " for artifact metadata. " ++ form "param:KEY"
    ++ " is only valid during Markdown workflow composition."

/-- `SUPPORTED_TEMPLATE_TYPES`. -/
def supportedTemplateTypes : List String := ["env", "file", "var"]

/-- `COMPOSITION_ONLY_TEMPLATE_TYPES`. -/
def compositionOnlyTemplateTypes : List String := ["param"]

/-- `_template_reference_error`. -/
def templateReferenceError (nodeId : String) (token : List Char) (nodesById : Dict String WorkflowNode)
    (ancestors : Option (List String)) : Option String :=
  let text := String.ofList token
  match matchTemplateToken token with
  | some (.nodeArtifact referenceId artifactName) =>
    artifactReferenceError nodeId referenceId artifactName nodesById ancestors
  | none => some (unsupportedTemplateError nodeId text)
  | some (.keyValue templateType value) =>
    if templateType ∈ supportedTemplateTypes then
      if strip value ≠ "" then none
      else some ("Node '" ++ nodeId ++ "' references invalid template '" ++ text
        ++ "'. Template values must be non-empty.")
    else if templateType ∈ compositionOnlyTemplateTypes then
      some ("Node '" ++ nodeId ++ "' references composition-only template '" ++ text
        ++ "'. \x7bparam:KEY\x7d templates are only valid in Markdown workflow composition and must be resolved "
        ++ "before runtime validation.")
    else if lower templateType ∈ supportedTemplateTypes ∨ lower templateType ∈ compositionOnlyTemplateTypes then
      some ("Node '" ++ nodeId ++ "' references unsupported template '" ++ text
        ++ "'. Template types are case-sensitive and must be lower-case exactly.")
    else some (unsupportedTemplateError nodeId text)

/-- `extract_template_tokens`. -/
def extractTemplateTokens (prompt : String) : List (List Char) :=
  (findIter templateTokenAt 0 0 prompt.toList).map (·.capture)

/-- `_node_template_texts`. -/
def nodeTemplateTexts (node : WorkflowNode) : List String :=
  node.promptSegments.map (·.content) ++ (node.source.toList.filter (· ≠ ""))

/-- `_node_template_diagnostics`. -/
def nodeTemplateDiagnostics (node : WorkflowNode) (nodesById : Dict String WorkflowNode)
    (ancestors : Option (List String)) : List String :=
  (nodeTemplateTexts node).flatMap fun text =>
    (extractTemplateTokens text).filterMap fun token => templateReferenceError node.id token nodesById ancestors

/-- What `collect_workflow_validation_diagnostics` reports on node ids and templates; `ancestors` is
`_ancestor_map_if_available`. -/
def collectWorkflowValidationDiagnostics (workflow : WorkflowPlan) (ancestors : Option (String → List String)) :
    List String :=
  let nodesById := Dict.ofPairs (workflow.nodes.map fun node => (node.id, node))
  uniqueNodeIdDiagnostics workflow ++ workflow.nodes.flatMap nodeIdDiagnostics ++
    workflow.nodes.flatMap fun node =>
      nodeTemplateDiagnostics node nodesById (ancestors.map fun ancestorsOf => ancestorsOf node.id)

/-! ## What an accepted token is -/

theorem supported_kind {templateType : String} (h : templateType ∈ supportedTemplateTypes) :
    keyValueKind (strip templateType) = .file ∨ keyValueKind (strip templateType) = .env ∨
      keyValueKind (strip templateType) = .var := by
  simp only [supportedTemplateTypes, List.mem_cons, List.not_mem_nil, or_false] at h
  rcases h with rfl | rfl | rfl
  · exact .inr (.inl (by decide +kernel))
  · exact .inl (by decide +kernel)
  · exact .inr (.inr (by decide +kernel))

/-- A reference the compiler has a handler for, with what the handler reads. -/
def TemplateReference.Supported (reference : TemplateReference) : Prop :=
  (reference.kind = .node ∧ ∃ id name, reference.nodeId = some id ∧ reference.artifactName = some name ∧
    id ≠ "" ∧ name ∈ allowedNodeArtifactNames) ∨
  ((reference.kind = .file ∨ reference.kind = .env ∨ reference.kind = .var) ∧
    ∃ key, reference.key = some key ∧ key ≠ "")

theorem nodeArtifactNameError_eq_none {artifactName : String} (h : nodeArtifactNameError artifactName = none) :
    artifactName ∈ allowedNodeArtifactNames := by
  by_contra hnot
  unfold nodeArtifactNameError at h
  rw [if_neg hnot] at h
  split at h <;> simp at h

theorem artifactReferenceError_eq_none {nodeId referenceId artifactName : String}
    {nodesById : Dict String WorkflowNode} {ancestors : Option (List String)}
    (h : artifactReferenceError nodeId referenceId artifactName nodesById ancestors = none) :
    artifactName ∈ allowedNodeArtifactNames := by
  unfold artifactReferenceError at h
  cases hname : nodeArtifactNameError artifactName with
  | none => exact nodeArtifactNameError_eq_none hname
  | some error => simp [hname] at h

theorem matchTemplateToken_id {token : List Char} {id name : String}
    (h : matchTemplateToken token = some (.nodeArtifact id name)) : id ≠ "" := by
  unfold matchTemplateToken at h
  cases hinner : unbraced token with
  | none => simp [hinner] at h
  | some inner =>
    simp only [hinner] at h
    unfold nodeArtifactToken at h
    cases hsplit : splitLastDot (stripChars inner) with
    | none =>
      simp only [hsplit] at h
      split at h <;> simp_all
    | some parts =>
      obtain ⟨front, back⟩ := parts
      simp only [hsplit] at h
      split_ifs at h with hchars
      · simp only [Option.some.injEq, TemplateToken.nodeArtifact.injEq] at h
        rw [← h.1]
        intro hempty
        exact hchars.1 (by simpa using congrArg String.toList hempty)
      · split at h <;> simp_all

/-- The compiler has a handler for every token that validation accepts. -/
theorem supported_of_accepted {nodeId : String} {token : List Char} {nodesById : Dict String WorkflowNode}
    {ancestors : Option (List String)} (h : templateReferenceError nodeId token nodesById ancestors = none)
    (start stop : Nat) : (referenceOf start stop token).Supported := by
  unfold templateReferenceError at h
  unfold referenceOf TemplateReference.Supported
  cases htoken : matchTemplateToken token with
  | none => simp [htoken] at h
  | some parsed =>
    cases parsed with
    | nodeArtifact referenceId artifactName =>
      rw [htoken] at h
      exact .inl ⟨rfl, _, _, rfl, rfl, matchTemplateToken_id htoken, artifactReferenceError_eq_none h⟩
    | keyValue templateType value =>
      simp only [htoken] at h
      split at h
      · rename_i htype
        split at h
        · rename_i hvalue
          exact .inr ⟨supported_kind htype, _, rfl, hvalue⟩
        · simp at h
      · split at h
        · simp at h
        · split at h <;> simp at h

/-! ## What a validated workflow is -/

section Validated

variable {workflow : WorkflowPlan} {ancestors : Option (String → List String)}

theorem nodup_ids (h : collectWorkflowValidationDiagnostics workflow ancestors = []) :
    (workflow.nodes.map (·.id)).Nodup := by
  simp only [collectWorkflowValidationDiagnostics, List.append_eq_nil_iff] at h
  have hunique := h.1.1
  unfold uniqueNodeIdDiagnostics at hunique
  simp only [ite_eq_left_iff, List.cons_ne_self, imp_false, not_not] at hunique
  have hnone := congrArg List.length hunique
  rw [List.length_mergeSort, List.length_nil, List.length_eq_zero_iff] at hnone
  rw [List.nodup_iff_count_le_one]
  intro id
  by_contra hcount
  have hmem : id ∈ workflow.nodes.map (·.id) := List.count_pos_iff.mp (by omega)
  have := List.filter_eq_nil_iff.mp hnone id (List.mem_dedup.mpr hmem)
  simp only [decide_eq_true_eq] at this
  omega

theorem matchesNodeId_of_mem (h : collectWorkflowValidationDiagnostics workflow ancestors = []) {node : WorkflowNode}
    (hnode : node ∈ workflow.nodes) : matchesNodeId node.id = true := by
  simp only [collectWorkflowValidationDiagnostics, List.append_eq_nil_iff] at h
  have hids := List.flatMap_eq_nil_iff.mp h.1.2 node hnode
  by_contra hnot
  simp [nodeIdDiagnostics, hnot] at hids

theorem supported_of_mem (h : collectWorkflowValidationDiagnostics workflow ancestors = []) {node : WorkflowNode}
    (hnode : node ∈ workflow.nodes) {segment : Segment} (hsegment : segment ∈ node.promptSegments)
    {reference : TemplateReference} (hreference : reference ∈ iterTemplateReferences segment.content) :
    reference.Supported := by
  simp only [collectWorkflowValidationDiagnostics, List.append_eq_nil_iff] at h
  have htexts := List.flatMap_eq_nil_iff.mp h.2 node hnode
  obtain ⟨found, hfound, rfl⟩ := List.mem_map.mp hreference
  have htokens := List.flatMap_eq_nil_iff.mp htexts segment.content
    (List.mem_append_left _ (List.mem_map_of_mem hsegment))
  have haccepted := List.filterMap_eq_nil_iff.mp htokens found.capture (List.mem_map_of_mem hfound)
  exact supported_of_accepted haccepted found.start found.stop

end Validated

end Crewplane.Prompt
