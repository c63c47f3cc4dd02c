import Crewplane.Lib.Checks
import Crewplane.Prompt.Validation
/-
# Prompt compilation (`core/preflight/{compiler,render_plans,fragment_handlers,input_sources}.py`)

The policies resolve every `file`, `env` and `var` token of a workflow into the
compile state, under the id of its occurrence; the template plan then cuts each
segment at its tokens and looks the resolutions up again. An error is a
diagnostic in the state, and no phase runs after one that reported an error.

What the file system, git and the terminal history answer is in `CompileOptions`;
a rejected file carries its diagnostic (`StaticFileResult`). Signatures and
source spans of the token catalog are left out.
-/
namespace Crewplane.Prompt

open Crewplane.Lib Crewplane.Workflow

inductive DiagnosticCode
  | fileEncoding | filePolicy | fingerprintKey | inputSource | nodeReference | paramToken | templatePlan
  | templateToken | templateValue | workspaceFileLocator
  deriving DecidableEq, Repr

inductive DiagnosticPhase
  | envPolicy | filePolicy | reference | templatePlan | varPolicy | workspaceFileLocatorPolicy
  deriving DecidableEq, Repr

/-- `PreflightDiagnostic` of severity `error`. -/
structure PreflightDiagnostic where
  code : DiagnosticCode
  phase : DiagnosticPhase
  nodeId : Option String := none
  message : String
  deriving DecidableEq, Repr

/-- The two kinds of a static value token. -/
inductive StaticKind
  | env | var
  deriving DecidableEq, Repr

def StaticKind.value : StaticKind → String
  | .env => "env"
  | .var => "var"

/-- A sensitive value is kept behind a handle, any other one is stored: never both, never neither. -/
inductive StaticValue
  | handle (handle : String) (fingerprint : Option String)
  | stored (value : String)
  deriving DecidableEq, Repr

structure ResolvedStaticValueReference where
  kind : StaticKind
  key : String
  value : StaticValue
  deriving DecidableEq, Repr

inductive FragmentPayload
  | literal (text : String)
  | staticFileContent (contentRef : String)
  | workspaceFileLocator (locatorId : String)
  | staticValue (kind : StaticKind) (key : String) (value : StaticValue)
  | runtimeLocatorLookup (nodeId artifactName : String)
  deriving DecidableEq, Repr

structure Fragment where
  fragmentIndex : Nat
  sourceRole : PromptSegmentRole
  payload : FragmentPayload
  deriving DecidableEq, Repr

structure RenderStream where
  targetRole : ProviderRole
  fragments : List Fragment
  deriving DecidableEq, Repr

structure RenderPlan where
  renderPlanId : String
  streams : List RenderStream
  deriving DecidableEq, Repr

structure TokenCatalogEntry where
  occurrenceId : String
  nodeId : String
  targetRole : ProviderRole
  sourceRole : PromptSegmentRole
  rawToken : List Char
  tokenKind : ReferenceKind
  fragmentIndex : Nat
  canonicalLocator : String
  deriving DecidableEq, Repr

/-- A value of the secret context: put by a token, or taken from the runtime configuration. -/
inductive SecretValue
  | text (value : String)
  | config (json : String)
  deriving DecidableEq, Repr

structure ValueFingerprintRecord where
  kind : StaticKind
  key : String
  value : String
  deriving DecidableEq, Repr

structure CompileState where
  diagnostics : List PreflightDiagnostic := []
  tokenCatalog : List TokenCatalogEntry := []
  staticFileReferences : Dict String String := []
  workspaceFileReferences : Dict String String := []
  staticValueReferences : Dict String ResolvedStaticValueReference := []
  inputSourceTokens : Dict String TemplateReference := []
  dependencyEdges : List (String × String × Option String) := []
  secretContext : Dict String SecretValue := []
  valueFingerprints : List ValueFingerprintRecord := []
  deriving Repr

/-- `StaticFileResult`: captured content, or the diagnostic of a rejected file. -/
inductive StaticFileResult
  | captured (contentRef : String)
  | rejected (diagnostic : PreflightDiagnostic)
  deriving DecidableEq, Repr

inductive WorkspaceFileTarget
  | executorPrompt | reviewerPrompt | inputOutput
  deriving DecidableEq, Repr

/-- The compile options and the outside world they are resolved in; a node of the workflow is given by its id. -/
structure CompileOptions where
  itemInputIds : List String
  /-- `resolve_terminal_result_file`. -/
  terminalResultFile : String → String → Option StaticFileResult
  /-- `resolve_static_file`. -/
  staticFile : String → String → StaticFileResult
  /-- `should_use_workspace_file_locator`. -/
  usesWorkspaceFile : String → TemplateReference → Bool
  /-- `should_use_input_workspace_file_locator`. -/
  usesWorkspaceInput : TemplateReference → Bool
  /-- `resolve_workspace_file_reference`: the id of the locator. -/
  workspaceFile : String → WorkspaceFileTarget → Option Nat → TemplateReference → String →
    Except PreflightDiagnostic String
  environment : String → Option String
  /-- The built-in template variables and the runtime variables. -/
  templateVariables : String → Option String
  /-- `FingerprintKeyProvider.load_key`. -/
  fingerprintKey : Except PreflightDiagnostic String
  /-- `fingerprint_payload` of a value under a key. -/
  fingerprintPayload : String → ValueFingerprintRecord → String
  /-- The sensitive paths of the runtime configuration with their values. -/
  configSecrets : List (String × String)

def appendDiagnostic (state : CompileState) (diagnostic : PreflightDiagnostic) : CompileState :=
  if diagnostic ∈ state.diagnostics then state
  else { state with diagnostics := state.diagnostics ++ [diagnostic] }

def hasErrors (state : CompileState) : Bool := state.diagnostics ≠ []

/-! ## Occurrences (render_plans.py:96-179) -/

structure RenderTokenOccurrence where
  node : WorkflowNode
  reference : TemplateReference
  occurrenceId : String
  targetRole : ProviderRole
  sourceRole : PromptSegmentRole
  segmentIndex : Nat
  deriving DecidableEq, Repr

def targetRolesForSegment (segment : Segment) : List ProviderRole :=
  match segment.role with
  | .shared => [.executor, .reviewer]
  | .executor => [.executor]
  | .reviewer => [.reviewer]

def renderTokenOccurrenceId (nodeId : String) (targetRole : ProviderRole) (segmentIndex referenceIndex : Nat) :
    String :=
  nodeId ++ ":" ++ targetRole.value ++ ":" ++ toString segmentIndex ++ ":" ++ toString referenceIndex

def iterSegmentRenderTokenOccurrences (node : WorkflowNode) (segmentIndex : Nat) (segment : Segment) :
    List RenderTokenOccurrence :=
  (iterTemplateReferences segment.content).zipIdx.flatMap fun entry =>
    (targetRolesForSegment segment).map fun targetRole =>
      { node, reference := entry.1, targetRole, sourceRole := segment.role, segmentIndex
        occurrenceId := renderTokenOccurrenceId node.id targetRole segmentIndex entry.2 }

def iterNodeRenderTokenOccurrences (node : WorkflowNode) : List RenderTokenOccurrence :=
  node.promptSegments.zipIdx.flatMap fun entry => iterSegmentRenderTokenOccurrences node entry.2 entry.1

def iterRenderTokenOccurrences (workflow : WorkflowPlan) : List RenderTokenOccurrence :=
  (workflow.nodes.filter (·.mode ≠ .input)).flatMap iterNodeRenderTokenOccurrences

/-! ## Policies -/

def workspaceFileTargetForRole : ProviderRole → WorkspaceFileTarget
  | .executor => .executorPrompt
  | .reviewer => .reviewerPrompt

/-- `record_static_file_reference` (fragment_handlers.py:247). -/
def recordStaticFileReference (state : CompileState) (occurrenceId : String) : StaticFileResult → CompileState
  | .rejected diagnostic => appendDiagnostic state diagnostic
  | .captured contentRef =>
    { state with staticFileReferences := Dict.setItem state.staticFileReferences occurrenceId contentRef }

def recordWorkspaceFileReference (state : CompileState) (occurrenceId : String) :
    Except PreflightDiagnostic String → CompileState
  | .error diagnostic => appendDiagnostic state diagnostic
  | .ok locatorId =>
    { state with workspaceFileReferences := Dict.setItem state.workspaceFileReferences occurrenceId locatorId }

/-- One iteration over the occurrences of `apply_file_policy` (render_plans.py:48-81). -/
def resolveFileOccurrence (options : CompileOptions) (state : CompileState) (occurrence : RenderTokenOccurrence) :
    CompileState :=
  if occurrence.reference.kind ≠ .file then state
  else
    let key := occurrence.reference.key.getD ""
    match options.terminalResultFile occurrence.node.id key with
    | some result => recordStaticFileReference state occurrence.occurrenceId result
    | none =>
      if options.usesWorkspaceFile occurrence.node.id occurrence.reference then
        recordWorkspaceFileReference state occurrence.occurrenceId
          (options.workspaceFile occurrence.node.id (workspaceFileTargetForRole occurrence.targetRole)
            (some occurrence.segmentIndex) occurrence.reference occurrence.occurrenceId)
      else
        recordStaticFileReference state occurrence.occurrenceId (options.staticFile occurrence.node.id key)

def inputOccurrenceId (node : WorkflowNode) : String := node.id ++ ":input:0"

/-- `record_static_input_source` (input_sources.py:129). -/
def recordStaticInputSource (node : WorkflowNode) (reference : TemplateReference) (state : CompileState) :
    StaticFileResult → CompileState
  | .rejected diagnostic => appendDiagnostic state diagnostic
  | .captured contentRef =>
    { state with
      inputSourceTokens := Dict.setItem state.inputSourceTokens node.id reference
      staticFileReferences := Dict.setItem state.staticFileReferences (inputOccurrenceId node) contentRef }

/-- `resolve_workspace_input_source` (input_sources.py:86). -/
def recordWorkspaceInputSource (node : WorkflowNode) (reference : TemplateReference) (state : CompileState) :
    Except PreflightDiagnostic String → CompileState
  | .error diagnostic => appendDiagnostic state diagnostic
  | .ok locatorId =>
    { state with
      inputSourceTokens := Dict.setItem state.inputSourceTokens node.id reference
      workspaceFileReferences := Dict.setItem state.workspaceFileReferences (inputOccurrenceId node) locatorId }

/-- `resolve_input_source` (input_sources.py:39). -/
def resolveInputSource (options : CompileOptions) (state : CompileState) (node : WorkflowNode) : CompileState :=
  match iterTemplateReferences (node.source.getD "") with
  | [reference] =>
    if reference.kind ≠ .file then
      appendDiagnostic state ⟨.inputSource, .filePolicy, some node.id,
        "Input node '" ++ node.id ++ "' source must be one file token."⟩
    else
      let key := reference.key.getD ""
      match options.terminalResultFile node.id key with
      | some result => recordStaticInputSource node reference state result
      | none =>
        if options.usesWorkspaceInput reference then
          recordWorkspaceInputSource node reference state
            (options.workspaceFile node.id .inputOutput none reference (inputOccurrenceId node))
        else recordStaticInputSource node reference state (options.staticFile node.id key)
  | _ =>
    appendDiagnostic state ⟨.inputSource, .filePolicy, some node.id,
      "Input node '" ++ node.id ++ "' source must be one file token."⟩

/-- The nodes whose source is resolved as an input. -/
def isResolvedInput (options : CompileOptions) (node : WorkflowNode) : Bool :=
  node.mode = .input && node.id ∉ options.itemInputIds

def applyFilePolicy (workflow : WorkflowPlan) (options : CompileOptions) (state : CompileState) : CompileState :=
  let state := (workflow.nodes.filter (isResolvedInput options)).foldl (resolveInputSource options) state
  (iterRenderTokenOccurrences workflow).foldl (resolveFileOccurrence options) state

/-- `re.IGNORECASE` on the letters of a pattern: ASCII case, and the four letters that fold to ASCII ones. -/
def foldCase (c : Char) : Char :=
  if c = 'ſ' then 's' else if c = 'K' then 'k' else if c = 'İ' ∨ c = 'ı' then 'i' else c.toLower

/-- `_SENSITIVE_NAME_PATTERN`, with the optional separator of `api[_-]?key` spelled out. -/
def sensitiveWords : List String :=
  ["secret", "token", "password", "passwd", "apikey", "api_key", "api-key", "credential", "private"]

def isSensitiveName (name : String) : Bool :=
  sensitiveWords.any fun word => (name.toList.map foldCase).tails.any fun rest => word.toList.isPrefixOf rest

/-- `static_value_phase`. -/
def staticValuePhase : StaticKind → DiagnosticPhase
  | .env => .envPolicy
  | .var => .varPolicy

/-- The value of a key in the environment or among the template variables. -/
def staticValueOf (options : CompileOptions) : StaticKind → String → Option String
  | .env, key => options.environment key
  | .var, key => options.templateVariables key

def StaticKind.label : StaticKind → String
  | .env => "Environment variable"
  | .var => "Template variable"

/-- `lookup_static_value` (fragment_handlers.py:374), with its diagnostic. -/
def lookupStaticValue (kind : StaticKind) (key : String) (options : CompileOptions) (nodeId : String) :
    Except PreflightDiagnostic String :=
  if key = "" then
    .error ⟨.templateValue, staticValuePhase kind, some nodeId, kind.value ++ " template key is empty."⟩
  else
    match staticValueOf options kind key with
    | some value => .ok value
    | none => .error ⟨.templateValue, staticValuePhase kind, some nodeId, kind.label ++ " not set: " ++ key⟩

/-- `resolve_static_value_reference` (fragment_handlers.py:320), for a value that was found. -/
def putStaticValue (kind : StaticKind) (key value occurrenceId : String) (state : CompileState) : CompileState :=
  if kind = .env ∨ isSensitiveName key then
    let handle := kind.value ++ ":" ++ key
    { state with
      secretContext := Dict.setItem state.secretContext handle (.text value)
      valueFingerprints := state.valueFingerprints ++ [⟨kind, key, value⟩]
      staticValueReferences :=
        Dict.setItem state.staticValueReferences occurrenceId ⟨kind, key, .handle handle none⟩ }
  else
    { state with
      staticValueReferences := Dict.setItem state.staticValueReferences occurrenceId ⟨kind, key, .stored value⟩ }

def StaticKind.reference : StaticKind → ReferenceKind
  | .env => .env
  | .var => .var

/-- One iteration of `apply_static_value_policy` (render_plans.py:211-221). -/
def resolveStaticValueOccurrence (kind : StaticKind) (options : CompileOptions) (state : CompileState)
    (occurrence : RenderTokenOccurrence) : CompileState :=
  if occurrence.reference.kind ≠ kind.reference then state
  else
    let key := occurrence.reference.key.getD ""
    match lookupStaticValue kind key options occurrence.node.id with
    | .error diagnostic => appendDiagnostic state diagnostic
    | .ok value => putStaticValue kind key value occurrence.occurrenceId state

def applyStaticValuePolicy (kind : StaticKind) (workflow : WorkflowPlan) (options : CompileOptions)
    (state : CompileState) : CompileState :=
  (iterRenderTokenOccurrences workflow).foldl (resolveStaticValueOccurrence kind options) state

/-! ## Fingerprints (value_fingerprints.py, runtime_config/capture.py) -/

/-- `fingerprints_by_value.get`: the last record of a value wins. -/
def fingerprintOf (options : CompileOptions) (fingerprintKey : String) (records : List ValueFingerprintRecord)
    (kind : StaticKind) (key : String) : Option String :=
  (records.reverse.find? fun record => record.kind = kind ∧ record.key = key).map
    (options.fingerprintPayload fingerprintKey)

def backfillReference (options : CompileOptions) (fingerprintKey : String) (records : List ValueFingerprintRecord)
    (reference : ResolvedStaticValueReference) : ResolvedStaticValueReference :=
  match reference.value with
  | .stored _ => reference
  | .handle handle _ =>
    match fingerprintOf options fingerprintKey records reference.kind reference.key with
    | none => reference
    | some fingerprint => { reference with value := .handle handle (some fingerprint) }

def backfillValueFingerprints (options : CompileOptions) (fingerprintKey : String) (state : CompileState) :
    CompileState :=
  { state with
    staticValueReferences := state.staticValueReferences.map fun entry =>
      (entry.1, backfillReference options fingerprintKey state.valueFingerprints entry.2) }

def captureRuntimeConfigSecrets (options : CompileOptions) (state : CompileState) : CompileState :=
  { state with
    secretContext := options.configSecrets.foldl
      (fun secrets entry => Dict.setItem secrets ("config:" ++ entry.1) (.config entry.2)) state.secretContext }

/-- `finalize_fingerprints`; the key is loaded when there is a sensitive value. -/
def finalizeFingerprints (options : CompileOptions) (state : CompileState) : CompileState :=
  if state.valueFingerprints = [] ∧ options.configSecrets = [] then state
  else
    match options.fingerprintKey with
    | .error diagnostic => appendDiagnostic state diagnostic
    | .ok fingerprintKey => captureRuntimeConfigSecrets options (backfillValueFingerprints options fingerprintKey state)

/-! ## The template plan -/

/-- `append_dependency_edge`, by the key of the edge. -/
def appendDependencyEdge (state : CompileState) (source target : String) (artifactName : Option String) :
    CompileState :=
  if (source, target, artifactName) ∈ state.dependencyEdges then state
  else { state with dependencyEdges := state.dependencyEdges ++ [(source, target, artifactName)] }

def appendTokenCatalog (state : CompileState) (occurrence : RenderTokenOccurrence) (fragmentIndex : Nat)
    (canonicalLocator : String) : CompileState :=
  { state with
    tokenCatalog := state.tokenCatalog ++ [
      { occurrenceId := occurrence.occurrenceId, nodeId := occurrence.node.id, targetRole := occurrence.targetRole
        sourceRole := occurrence.sourceRole, rawToken := occurrence.reference.rawToken
        tokenKind := occurrence.reference.kind, fragmentIndex, canonicalLocator }] }

def templatePlanDiagnostic (occurrence : RenderTokenOccurrence) (label : String) : PreflightDiagnostic :=
  ⟨.templatePlan, .templatePlan, some occurrence.node.id,
    label ++ " '" ++ String.ofList occurrence.reference.rawToken ++ "' was not resolved."⟩

/-- `node_reference_fragment` (fragment_handlers.py:44). -/
def nodeReferenceFragment (occurrence : RenderTokenOccurrence) (state : CompileState) (fragmentIndex : Nat) :
    CompileState × Option FragmentPayload :=
  let artifactName := occurrence.reference.artifactName.getD ""
  let targetNode := occurrence.reference.nodeId.getD ""
  if artifactName ∉ allowedNodeArtifactNames then
    (appendDiagnostic state ⟨.nodeReference, .reference, some occurrence.node.id,
      "Unsupported node artifact token '" ++ String.ofList occurrence.reference.rawToken ++ "'."⟩, none)
  else
    let state := appendTokenCatalog state occurrence fragmentIndex (targetNode ++ "." ++ artifactName)
    (appendDependencyEdge state targetNode occurrence.node.id (some artifactName),
      some (.runtimeLocatorLookup targetNode artifactName))

/-- `file_reference_fragment` (fragment_handlers.py:124). -/
def fileReferenceFragment (occurrence : RenderTokenOccurrence) (state : CompileState) (fragmentIndex : Nat) :
    CompileState × Option FragmentPayload :=
  match Dict.get? state.workspaceFileReferences occurrence.occurrenceId with
  | some locatorId => (appendTokenCatalog state occurrence fragmentIndex locatorId, some (.workspaceFileLocator locatorId))
  | none =>
    match Dict.get? state.staticFileReferences occurrence.occurrenceId with
    | none => (appendDiagnostic state (templatePlanDiagnostic occurrence "File token"), none)
    | some contentRef => (appendTokenCatalog state occurrence fragmentIndex contentRef, some (.staticFileContent contentRef))

/-- `static_value_fragment` (fragment_handlers.py:259); a handle without a fingerprint raises. -/
def staticValueFragment (occurrence : RenderTokenOccurrence) (state : CompileState) (fragmentIndex : Nat) :
    Except String (CompileState × Option FragmentPayload) :=
  match Dict.get? state.staticValueReferences occurrence.occurrenceId with
  | none => .ok (appendDiagnostic state (templatePlanDiagnostic occurrence "Static value token"), none)
  | some resolution =>
    match resolution.value with
    | .handle _ none =>
      .error ("Sensitive " ++ resolution.kind.value ++ " token '" ++ resolution.key ++ "' is missing a fingerprint.")
    | _ =>
      .ok (appendTokenCatalog state occurrence fragmentIndex (resolution.kind.value ++ ":" ++ resolution.key),
        some (.staticValue resolution.kind resolution.key resolution.value))

/-- `fragment_for_occurrence` (render_plans.py:332). -/
def fragmentForOccurrence (occurrence : RenderTokenOccurrence) (state : CompileState) (fragmentIndex : Nat) :
    Except String (CompileState × Option FragmentPayload) :=
  let rawToken := String.ofList occurrence.reference.rawToken
  match occurrence.reference.kind with
  | .node => .ok (nodeReferenceFragment occurrence state fragmentIndex)
  | .file => .ok (fileReferenceFragment occurrence state fragmentIndex)
  | .env | .var => staticValueFragment occurrence state fragmentIndex
  | .param =>
    .ok (appendDiagnostic state ⟨.paramToken, .templatePlan, some occurrence.node.id,
      "Composition-only token '" ++ rawToken ++ "' reached preflight."⟩, none)
  | .unknown =>
    .ok (appendDiagnostic state ⟨.templateToken, .templatePlan, some occurrence.node.id,
      "Unsupported template token '" ++ rawToken ++ "'."⟩, none)

/-- Appending a fragment, at the index it has in the stream. -/
def appendFragment (fragments : List Fragment) (sourceRole : PromptSegmentRole) (payload : FragmentPayload) :
    List Fragment :=
  fragments ++ [⟨fragments.length, sourceRole, payload⟩]

/-- The literal text from the cursor to `stop`, if there is any. -/
def appendLiteral (segment : Segment) (cursor stop : Nat) (fragments : List Fragment) : List Fragment :=
  if cursor < stop then
    appendFragment fragments segment.role (.literal (String.ofList (slice segment.content.toList cursor stop)))
  else fragments

/-- The loop of `append_segment_fragments` (render_plans.py:279-329). -/
def segmentFragments (segment : Segment) : Nat → List RenderTokenOccurrence → CompileState → List Fragment →
    Except String (CompileState × List Fragment)
  | cursor, [], state, fragments => .ok (state, appendLiteral segment cursor segment.content.toList.length fragments)
  | cursor, occurrence :: rest, state, fragments => do
    let fragments := appendLiteral segment cursor occurrence.reference.start fragments
    let (state, payload) ← fragmentForOccurrence occurrence state fragments.length
    let fragments := match payload with
      | none => fragments
      | some payload => appendFragment fragments segment.role payload
    segmentFragments segment occurrence.reference.stop rest state fragments

def appendSegmentFragments (node : WorkflowNode) (targetRole : ProviderRole) (segmentIndex : Nat) (segment : Segment)
    (state : CompileState) (fragments : List Fragment) : Except String (CompileState × List Fragment) :=
  segmentFragments segment 0
    ((iterSegmentRenderTokenOccurrences node segmentIndex segment).filter (·.targetRole = targetRole)) state fragments

/-- The loop of `compile_render_stream`, over the segments from an index on. -/
def streamFragments (node : WorkflowNode) (targetRole : ProviderRole) : Nat → List Segment → CompileState →
    List Fragment → Except String (CompileState × List Fragment)
  | _, [], state, fragments => .ok (state, fragments)
  | segmentIndex, segment :: rest, state, fragments =>
    if targetRole ∉ targetRolesForSegment segment then streamFragments node targetRole (segmentIndex + 1) rest state fragments
    else do
      let (state, fragments) ← appendSegmentFragments node targetRole segmentIndex segment state fragments
      streamFragments node targetRole (segmentIndex + 1) rest state fragments

def compileRenderStream (node : WorkflowNode) (targetRole : ProviderRole) (state : CompileState) :
    Except String (CompileState × RenderStream) := do
  let (state, fragments) ← streamFragments node targetRole 0 node.promptSegments state []
  return (state, ⟨targetRole, fragments⟩)

/-- `append_input_source_token_catalog` (input_sources.py:146). -/
def appendInputSourceTokenCatalog (node : WorkflowNode) (state : CompileState) : CompileState :=
  let unresolved : PreflightDiagnostic :=
    ⟨.templatePlan, .templatePlan, some node.id, "Input node '" ++ node.id ++ "' source was not resolved."⟩
  match Dict.get? state.inputSourceTokens node.id with
  | none => appendDiagnostic state unresolved
  | some reference =>
    let occurrence : RenderTokenOccurrence :=
      { node, reference, occurrenceId := inputOccurrenceId node, targetRole := .executor, sourceRole := .shared
        segmentIndex := 0 }
    match Dict.get? state.workspaceFileReferences (inputOccurrenceId node),
      Dict.get? state.staticFileReferences (inputOccurrenceId node) with
    | some locatorId, _ => appendTokenCatalog state occurrence 0 locatorId
    | none, some contentRef => appendTokenCatalog state occurrence 0 contentRef
    | none, none => appendDiagnostic state unresolved

def compileRenderPlan (options : CompileOptions) (node : WorkflowNode) (state : CompileState) :
    Except String (CompileState × Option RenderPlan) :=
  match node.mode with
  | .foreach => .ok (state, none)
  | .input =>
    if node.id ∈ options.itemInputIds then .ok (state, none)
    else .ok (appendInputSourceTokenCatalog node state, none)
  | _ => do
    let (state, executor) ← compileRenderStream node .executor state
    let (state, reviewer) ← compileRenderStream node .reviewer state
    return (state, some ⟨node.id, [executor, reviewer]⟩)

/-- `collection_reference` (collections.py:17). -/
def collectionReference (value : String) : Except String (String × String) :=
  let parsed := do
    let inner ← unbraced (stripChars value.toList)
    let (id, name) ← splitLastDot inner
    if id ≠ [] ∧ id.all isMarkerChar ∧ (name = "output".toList ∨ name = "findings".toList) then
      some (String.ofList id, String.ofList name)
    else none
  match parsed with
  | some reference => .ok reference
  | none => .error ("items must be an array of objects or exactly one " ++ openBraces ++ "node.output" ++ closeBraces
      ++ " or " ++ openBraces ++ "node.findings" ++ closeBraces ++ " reference")

/-- One iteration of `_producer_limits` (foreach/prompts.py:34). -/
def producerLimit (limits : Dict String Nat) (group : WorkflowNode) : Except String (Dict String Nat) :=
  match group.mode, group.items with
  | .foreach, some (.reference text) => do
    let (producer, artifact) ← collectionReference text
    if artifact = "findings" then
      return Dict.setItem limits producer (min ((Dict.get? limits producer).getD group.maxItems) group.maxItems)
    else return limits
  | _, _ => return limits

/-- `COLLECTION_CONSTRAINT_INSTRUCTION.format(max_items=...)`. -/
def collectionConstraintInstruction (maxItems : Nat) : String :=
  "\n\nExecutor findings: JSON array with at most " ++ toString maxItems ++ " items.\n"

def constrained (limits : Dict String Nat) (node : WorkflowNode) : WorkflowNode :=
  match Dict.get? limits node.id with
  | none => node
  | some maxItems =>
    { node with promptSegments := node.promptSegments ++ [⟨.shared, collectionConstraintInstruction maxItems⟩] }

/-- `with_collection_constraints` (foreach/prompts.py:12). -/
def withCollectionConstraints (workflow : WorkflowPlan) : Except String WorkflowPlan := do
  let limits ← workflow.nodes.foldlM producerLimit []
  return ⟨workflow.nodes.map (constrained limits)⟩

/-- The edges that `_compile_template_plan` adds before a node's prompts are compiled. -/
def appendNodeEdges (node : WorkflowNode) (state : CompileState) : Except String CompileState := do
  let state := node.needs.foldl (fun state dependency => appendDependencyEdge state dependency node.id none) state
  match node.mode, node.items with
  | .foreach, some (.reference text) => do
    let (producer, artifact) ← collectionReference text
    return appendDependencyEdge state producer node.id (some artifact)
  | _, _ => return state

/-- The loop of `_compile_template_plan` (compiler.py:249-286). -/
def templatePlan (options : CompileOptions) : List WorkflowNode → CompileState → List RenderPlan →
    Except String (CompileState × List RenderPlan)
  | [], state, renderPlans => .ok (state, renderPlans)
  | node :: rest, state, renderPlans => do
    let state ← appendNodeEdges node state
    let (state, renderPlan) ← compileRenderPlan options node state
    templatePlan options rest state (renderPlans ++ renderPlan.toList)

/-- The policy phases of `_compile_preflight_inventory` (compiler.py:131-183); each runs when the one before it
reported no error. -/
def applyPolicies (workflow : WorkflowPlan) (options : CompileOptions) : CompileState :=
  let filed := applyFilePolicy workflow options {}
  if hasErrors filed then filed
  else
    let env := applyStaticValuePolicy .env workflow options filed
    if hasErrors env then env
    else
      let var := applyStaticValuePolicy .var workflow options env
      if hasErrors var then var else finalizeFingerprints options var

/-- `_compile_preflight_inventory` (compiler.py:107), for a workflow without validation errors. -/
def compilePreflightInventory (workflow : WorkflowPlan) (options : CompileOptions) :
    Except String (CompileState × List RenderPlan) :=
  let state := applyPolicies workflow options
  if hasErrors state then .ok (state, [])
  else do
    let compiled ← withCollectionConstraints workflow
    templatePlan options compiled.nodes state []

end Crewplane.Prompt
