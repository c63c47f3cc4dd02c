import Crewplane.Prompt.Streams
/-
# Prompt assembly (`runtime/execution/fragment_assembler.py`)

The assembler follows the fragments of a render stream; it never looks at a
resolved value again. What it reads (static files, workspace files, node
artifacts) is in `ArtifactStore`. The module proves that a compiled workflow
keeps its prompts: the fragments spell the prompt, and assembly substitutes the
tokens and nothing else.
-/
namespace Crewplane.Prompt

open Crewplane.Lib Crewplane.Workflow

/-- A `ValueError`, which names the node once it leaves the assembler, or another exception. -/
inductive AssemblyFault
  | value (message : String)
  | lookup (message : String)
  deriving DecidableEq, Repr

inductive ArtifactKind
  | output | findings
  deriving DecidableEq, Repr

/-- `VerifiedNodeArtifact`; `text` is the decoded payload. -/
structure VerifiedNodeArtifact where
  path : String
  sizeBytes : Nat
  sha256 : String
  text : Except AssemblyFault String

structure ArtifactStore where
  /-- `read_verified_static_text`. -/
  staticText : String → Except AssemblyFault String
  /-- `resolve_workspace_file(...).text`. -/
  workspaceText : String → Except AssemblyFault String
  /-- The artifact contract of a plan node, by its findings path. -/
  findingsPath : String → Option (Option String)
  /-- `read_verified_node_artifact`. -/
  readVerifiedNodeArtifact : String → ArtifactKind → Except AssemblyFault VerifiedNodeArtifact

def outputArtifactKeys : List String := ["output", "output_path", "output_size", "output_sha256"]

def findingsArtifactKeys : List String := ["findings", "findings_path", "findings_size", "findings_sha256"]

/-- `_artifact` (fragment_assembler.py:184). -/
def artifactOf (store : ArtifactStore) (nodeId artifactName : String) : Except AssemblyFault VerifiedNodeArtifact :=
  match store.findingsPath nodeId with
  | none => .error (.value ("Compiled plan has no node artifact contract for '" ++ nodeId ++ "'."))
  | some findingsPath =>
    if artifactName ∈ outputArtifactKeys then store.readVerifiedNodeArtifact nodeId .output
    else if artifactName ∈ findingsArtifactKeys then
      match findingsPath with
      | none => .error (.value ("Node '" ++ nodeId ++ "' has no findings artifact locator."))
      | some _ => store.readVerifiedNodeArtifact nodeId .findings
    else .error (.value ("Unsupported artifact locator '" ++ nodeId ++ "." ++ artifactName ++ "'."))

def endsWith (text suffix : String) : Bool := suffix.toList.isSuffixOf text.toList

/-- `_resolve_runtime_locator` (fragment_assembler.py:167). -/
def resolveRuntimeLocator (store : ArtifactStore) (nodeId artifactName : String) : Except AssemblyFault String := do
  let artifact ← artifactOf store nodeId artifactName
  if endsWith artifactName "_path" then return artifact.path
  else if endsWith artifactName "_size" then return toString artifact.sizeBytes
  else if endsWith artifactName "_sha256" then return artifact.sha256
  else artifact.text

/-- `SecretContext.get`. -/
def getSecret (secrets : Dict String SecretValue) (handle : String) : Except AssemblyFault String :=
  match Dict.get? secrets handle with
  | none => .error (.lookup ("Secret handle '" ++ handle ++ "' is not available."))
  | some (.config _) => .error (.lookup ("Secret handle '" ++ handle ++ "' does not contain text."))
  | some (.text value) => .ok value

/-- `_resolve_fragment` (fragment_assembler.py:118); the checks of missing payload fields are the constructors. -/
def resolveFragment (store : ArtifactStore) (secrets : Dict String SecretValue) (fragment : Fragment) :
    Except AssemblyFault String :=
  match fragment.payload with
  | .literal text => .ok text
  | .staticFileContent contentRef => store.staticText contentRef
  | .workspaceFileLocator locatorId => store.workspaceText locatorId
  | .staticValue _ _ (.stored value) => .ok value
  | .staticValue _ _ (.handle handle _) => getSecret secrets handle
  | .runtimeLocatorLookup nodeId artifactName =>
    if nodeId = "" ∨ artifactName = "" then
      .error (.value "Runtime locator fragment has incomplete locator metadata.")
    else resolveRuntimeLocator store nodeId artifactName

/-- `except ValueError as exc: raise ValueError(f"Node '{node.id}': {exc}")`. -/
def withNode (nodeId : String) : Except AssemblyFault String → Except AssemblyFault String
  | .error (.value message) => .error (.value ("Node '" ++ nodeId ++ "': " ++ message))
  | result => result

/-- `_find_stream` (fragment_assembler.py:102), for a node with a render plan. -/
def findStream (renderPlans : List RenderPlan) (renderPlanId nodeId : String) (targetRole : ProviderRole) :
    Except AssemblyFault RenderStream :=
  let streams := (renderPlans.filter (·.renderPlanId = renderPlanId)).flatMap (·.streams)
  match streams.find? (·.targetRole = targetRole) with
  | some stream => .ok stream
  | none => .error (.value ("Render stream '" ++ targetRole.value ++ "' not found for node '" ++ nodeId ++ "'."))

/-- `assemble_prompt_details` (fragment_assembler.py:46): the text. -/
def assemblePrompt (renderPlans : List RenderPlan) (nodeId : String) (targetRole : ProviderRole)
    (store : ArtifactStore) (secrets : Dict String SecretValue) : Except AssemblyFault String := do
  let stream ← findStream renderPlans nodeId nodeId targetRole
  let sorted := stream.fragments.mergeSort fun a b => a.fragmentIndex ≤ b.fragmentIndex
  let parts ← sorted.mapM fun fragment => withNode nodeId (resolveFragment store secrets fragment)
  return String.join parts

/-- `render_prompt_segments`. -/
def renderPromptSegments (segments : List Segment) (role : ProviderRole) : String :=
  String.join ((segments.filter fun segment => role ∈ targetRolesForSegment segment).map (·.content))

/-! ## What a token stands for -/

/-- The resolved value of an occurrence. -/
def tokenValue (options : CompileOptions) (store : ArtifactStore) (occurrence : RenderTokenOccurrence) :
    Except AssemblyFault String :=
  let key := occurrence.reference.key.getD ""
  let known (value : Option String) : Except AssemblyFault String :=
    match value with
    | some value => .ok value
    | none => .error (.lookup key)
  match occurrence.reference.kind with
  | .node => resolveRuntimeLocator store (occurrence.reference.nodeId.getD "") (occurrence.reference.artifactName.getD "")
  | .env => known (staticValueOf options .env key)
  | .var => known (staticValueOf options .var key)
  | .file =>
    match resolvedFile options occurrence with
    | .ok (.staticFileContent contentRef) => store.staticText contentRef
    | .ok (.workspaceFileLocator locatorId) => store.workspaceText locatorId
    | _ => .error (.lookup key)
  | .param | .unknown => .error (.lookup key)

/-- The prompt for a role with each token replaced by a value and nothing else changed, from a segment on. -/
def substituteFrom (value : RenderTokenOccurrence → Except AssemblyFault String) (node : WorkflowNode)
    (role : ProviderRole) : Nat → List Segment → Except AssemblyFault (List Char)
  | _, [] => return []
  | i, segment :: rest =>
    if role ∈ targetRolesForSegment segment then do
      let head ← subM templateTokenAt
        (fun k found => String.toList <$> value (segmentOccurrence node role i segment k found)) 0 0 0
        segment.content.toList
      let tail ← substituteFrom value node role (i + 1) rest
      return head ++ tail
    else substituteFrom value node role (i + 1) rest

/-- The text of a fragment with a token fragment replaced by the raw token that the catalog records for it. -/
def rawText (catalog : List TokenCatalogEntry) (nodeId : String) (role : ProviderRole) (fragment : Fragment) :
    List Char :=
  match fragment.payload with
  | .literal text => text.toList
  | _ =>
    match catalog.find? fun entry =>
      entry.nodeId = nodeId ∧ entry.targetRole = role ∧ entry.fragmentIndex = fragment.fragmentIndex with
    | some entry => entry.rawToken
    | none => []

/-- A fragment of the kind that a reference calls for. -/
def FragmentPayload.matches : FragmentPayload → ReferenceKind → Bool
  | .runtimeLocatorLookup _ _, .node => true
  | .staticFileContent _, .file => true
  | .workspaceFileLocator _, .file => true
  | .staticValue .env _ _, .env => true
  | .staticValue .var _ _, .var => true
  | _, _ => false

/-! ## Assembling the pieces -/

section Assembling

variable {options : CompileOptions} {secrets : Dict String SecretValue} {store : ArtifactStore}

/-- A static value fragment gives the value of its key. -/
theorem resolveFragment_ready {value key : String} {ready : StaticValue} (h : Ready secrets value ready) (i : Nat)
    (role : PromptSegmentRole) (kind : StaticKind) :
    resolveFragment store secrets ⟨i, role, .staticValue kind key ready⟩ = .ok value := by
  cases ready with
  | stored stored => rw [show stored = value from h]; rfl
  | handle handle fingerprint =>
    cases fingerprint with
    | none => exact absurd h (by simp [Ready])
    | some fingerprint =>
      have hget : Dict.get? secrets handle = some (.text value) := h
      simp [resolveFragment, getSecret, hget]

theorem resolvedFile_payload {occurrence : RenderTokenOccurrence} {payload : FragmentPayload}
    (h : resolvedFile options occurrence = .ok payload) :
    (∃ contentRef, payload = .staticFileContent contentRef) ∨ ∃ locatorId, payload = .workspaceFileLocator locatorId := by
  have hstatic : ∀ result : StaticFileResult, result.payload = .ok payload →
      ∃ contentRef, payload = .staticFileContent contentRef := by
    intro result hresult
    cases result with
    | captured contentRef => exact ⟨contentRef, (Except.ok.inj hresult).symm⟩
    | rejected diagnostic => cases hresult
  unfold resolvedFile at h
  dsimp only at h
  split at h
  · exact .inl (hstatic _ h)
  · split at h
    · cases hworkspace : options.workspaceFile occurrence.node.id (workspaceFileTargetForRole occurrence.targetRole)
        (some occurrence.segmentIndex) occurrence.reference occurrence.occurrenceId with
      | error diagnostic => rw [hworkspace] at h; cases h
      | ok locatorId =>
        rw [hworkspace] at h
        exact .inr ⟨locatorId, (Except.ok.inj h).symm⟩
    · exact .inl (hstatic _ h)

theorem compiled_matches {occurrence : RenderTokenOccurrence} {payload : FragmentPayload}
    (h : Compiled options secrets occurrence payload) : payload.matches occurrence.reference.kind = true := by
  unfold Compiled at h
  cases hkind : occurrence.reference.kind with
  | node =>
    simp only [hkind] at h
    obtain ⟨id, name, -, -, -, -, rfl⟩ := h
    rfl
  | file =>
    simp only [hkind] at h
    rcases resolvedFile_payload h with ⟨contentRef, rfl⟩ | ⟨locatorId, rfl⟩ <;> rfl
  | env =>
    simp only [hkind] at h
    obtain ⟨value, ready, -, rfl, -⟩ := h
    rfl
  | var =>
    simp only [hkind] at h
    obtain ⟨value, ready, -, rfl, -⟩ := h
    rfl
  | param => simp [hkind] at h
  | unknown => simp [hkind] at h

/-- A compiled fragment resolves to the value of its token. -/
theorem resolveFragment_compiled {occurrence : RenderTokenOccurrence} {payload : FragmentPayload}
    (h : Compiled options secrets occurrence payload) (i : Nat) (role : PromptSegmentRole) :
    resolveFragment store secrets ⟨i, role, payload⟩ = tokenValue options store occurrence := by
  unfold Compiled at h
  unfold tokenValue
  cases hkind : occurrence.reference.kind with
  | node =>
    simp only [hkind] at h ⊢
    obtain ⟨id, name, hid, hname, hne, hallowed, rfl⟩ := h
    have hname' : name ≠ "" := by
      rintro rfl
      simp [allowedNodeArtifactNames] at hallowed
    simp [resolveFragment, hid, hname, hne, hname']
  | file =>
    simp only [hkind] at h ⊢
    rw [h]
    rcases resolvedFile_payload h with ⟨contentRef, rfl⟩ | ⟨locatorId, rfl⟩ <;> rfl
  | env =>
    simp only [hkind] at h ⊢
    obtain ⟨value, ready, hvalue, rfl, hready⟩ := h
    rw [resolveFragment_ready hready, hvalue]
  | var =>
    simp only [hkind] at h ⊢
    obtain ⟨value, ready, hvalue, rfl, hready⟩ := h
    rw [resolveFragment_ready hready, hvalue]
  | param => simp [hkind] at h
  | unknown => simp [hkind] at h

/-- The text of a piece, with the value of its token. -/
def pieceText (value : RenderTokenOccurrence → Except AssemblyFault String) :
    StreamPiece → Except AssemblyFault (List Char)
  | .literal _ text => return text
  | .token occurrence => String.toList <$> value occurrence

theorem resolveFragments_placed {nodeId : String} {i : Nat} {ps : List StreamPiece} {fs : List Fragment}
    {es : List TokenCatalogEntry} (h : Placed options secrets i ps fs es) :
    (fs.mapM fun fragment => String.toList <$> withNode nodeId (resolveFragment store secrets fragment)) =
      ps.mapM (pieceText fun occurrence => withNode nodeId (tokenValue options store occurrence)) := by
  induction h with
  | nil => rfl
  | @literal i role text _ _ _ rest ih =>
    have hliteral : String.toList <$> withNode nodeId
        (resolveFragment store secrets ⟨i, role, .literal (String.ofList text)⟩) = .ok text := by
      simp [resolveFragment, withNode]
    rw [List.mapM_cons, List.mapM_cons, ih, hliteral]
    rfl
  | token compiled catalogued rest ih =>
    rw [List.mapM_cons, List.mapM_cons, ih, resolveFragment_compiled compiled]
    rfl

end Assembling

section Substituting

variable {value : RenderTokenOccurrence → Except AssemblyFault String} {node : WorkflowNode} {role : ProviderRole}

theorem fill_segmentPieces (i : Nat) (segment : Segment) :
    List.flatten <$> (segmentPieces node role i segment).mapM (pieceText value) =
      subM templateTokenAt (fun k found => String.toList <$> value (segmentOccurrence node role i segment k found)) 0 0 0
        segment.content.toList := by
  have hfill := fill_pieces templateTokenAt_lawful
    (fun k found => String.toList <$> value (segmentOccurrence node role i segment k found)) segment.content.toList
    segment.content.toList 0 0 0 0 rfl (Nat.zero_le _) (Nat.le_refl _) (fun h => absurd rfl h)
  have hslice : slice segment.content.toList 0 (0 + 0) = [] := rfl
  simp only [hslice, List.nil_append, id_map'] at hfill
  rw [← hfill]
  unfold segmentPieces segmentMatches
  rw [List.mapM_map]
  congr 2
  funext piece
  cases piece <;> rfl

theorem substituteFrom_eq : ∀ (segments : List Segment) (i : Nat),
    substituteFrom value node role i segments =
      List.flatten <$> (streamPiecesFrom node role i segments).mapM (pieceText value) := by
  intro segments
  induction segments with
  | nil => intro i; rfl
  | cons segment rest ih =>
    intro i
    unfold substituteFrom streamPiecesFrom
    split
    · rw [List.mapM_append, ih, ← fill_segmentPieces]
      simp
    · rw [ih]
      simp

end Substituting

/-! ## The raw text of a stream -/

/-- The text of a piece as it stands in the prompt. -/
def pieceRaw : StreamPiece → List Char
  | .literal _ text => text
  | .token occurrence => occurrence.reference.rawToken

/-- The catalog gives each token fragment its raw token back. -/
theorem rawText_placed {options : CompileOptions} {secrets : Dict String SecretValue} {catalog : List TokenCatalogEntry}
    {nodeId : String} {role : ProviderRole} {i : Nat} {ps : List StreamPiece} {fs : List Fragment}
    {es : List TokenCatalogEntry} (h : Placed options secrets i ps fs es) (before : List TokenCatalogEntry)
    (hbefore : ∀ entry ∈ before, entry.fragmentIndex < i)
    (hfilter : (catalog.filter fun entry => entry.nodeId = nodeId ∧ entry.targetRole = role) = before ++ es) :
    fs.map (rawText catalog nodeId role) = ps.map pieceRaw := by
  induction h generalizing before with
  | nil => rfl
  | @literal i sourceRole text _ _ _ rest ih =>
    rw [List.map_cons, List.map_cons, ih before (fun entry hentry => Nat.lt_succ_of_lt (hbefore entry hentry)) hfilter]
    simp [rawText, pieceRaw]
  | @token i occurrence payload entry _ _ _ compiled catalogued rest ih =>
    have hfind : (catalog.find? fun entry => entry.nodeId = nodeId ∧ entry.targetRole = role ∧ entry.fragmentIndex = i) =
        some entry := by
      have hsplit : (catalog.find? fun entry =>
            entry.nodeId = nodeId ∧ entry.targetRole = role ∧ entry.fragmentIndex = i) =
          (catalog.filter fun entry => entry.nodeId = nodeId ∧ entry.targetRole = role).find? fun entry =>
            entry.fragmentIndex = i := by
        rw [List.find?_filter]
        congr 1
        funext entry
        simp [and_assoc]
      rw [hsplit, hfilter, List.find?_append, List.find?_eq_none.mpr, Option.none_or, List.find?_cons_of_pos]
      · simpa using catalogued.2.2.2.2.2
      · intro other hother
        have := hbefore other hother
        simp only [decide_eq_true_eq]
        omega
    have hrest := ih (before ++ [entry]) (fun other hother => by
      rcases List.mem_append.mp hother with hother | hother
      · exact Nat.lt_succ_of_lt (hbefore other hother)
      · rw [List.mem_singleton.mp hother, catalogued.2.2.2.2.2]
        exact Nat.lt_succ_self i) (by rw [hfilter, List.append_assoc]; rfl)
    rw [List.map_cons, List.map_cons, hrest]
    congr 1
    have hmatches := compiled_matches compiled
    have hraw := catalogued.2.2.2.1
    cases payload with
    | literal text => simp [FragmentPayload.matches] at hmatches
    | _ => simp only [rawText, hfind, hraw, pieceRaw]

/-- The pieces of a segment spell its content. -/
theorem raw_segmentPieces {node : WorkflowNode} {role : ProviderRole} (i : Nat) (segment : Segment) :
    ((segmentPieces node role i segment).map pieceRaw).flatten = segment.content.toList := by
  have hfill := @fill_segmentPieces (fun occurrence => .ok (String.ofList occurrence.reference.rawToken)) node role i
    segment
  have hpiece : pieceText (fun occurrence => .ok (String.ofList occurrence.reference.rawToken)) =
      fun piece => (pure (pieceRaw piece) : Except AssemblyFault (List Char)) := by
    funext piece
    cases piece with
    | literal role text => rfl
    | token occurrence =>
      show Except.ok (String.ofList occurrence.reference.rawToken).toList = Except.ok occurrence.reference.rawToken
      rw [String.toList_ofList]
  have hvalue : (fun (k : Nat) (found : Match Char (List Char)) => String.toList <$>
        (Except.ok (String.ofList (segmentOccurrence node role i segment k found).reference.rawToken) :
          Except AssemblyFault String)) = fun _ found => pure found.capture := by
    funext k found
    show Except.ok (String.ofList (referenceOf _ _ _).rawToken).toList = Except.ok found.capture
    rw [String.toList_ofList, referenceOf_rawToken]
  rw [hpiece, hvalue, subM_self templateTokenAt_raw, List.mapM_pure] at hfill
  exact Except.ok.inj hfill

theorem raw_pieces {node : WorkflowNode} {role : ProviderRole} (segments : List Segment) (i : Nat) :
    ((streamPiecesFrom node role i segments).map pieceRaw).flatten = (renderPromptSegments segments role).toList := by
  unfold renderPromptSegments
  rw [String.toList_join]
  induction segments generalizing i with
  | nil => rfl
  | cons segment rest ih =>
    rw [streamPiecesFrom, List.map_append, List.flatten_append, ih (i + 1), List.filter_cons]
    by_cases hrole : role ∈ targetRolesForSegment segment
    · simp only [hrole, if_true, decide_true, List.map_cons, raw_segmentPieces]
      rfl
    · simp [hrole]

/-! ## The template plan of a workflow -/

/-- A node whose tokens and source are resolved in the state. -/
structure NodeReady (options : CompileOptions) (state : CompileState) (node : WorkflowNode) : Prop where
  streams : node.mode ≠ .input → ∀ role, StreamResolved options state node role 0 node.promptSegments
  source : isResolvedInput options node = true →
    (Dict.get? state.inputSourceTokens node.id).isSome = true ∧ (fileLookup state (inputOccurrenceId node)).isSome = true

theorem NodeReady.advance {options : CompileOptions} {state state' : CompileState} {node : WorkflowNode}
    {entries : List TokenCatalogEntry} (h : NodeReady options state node) (ha : Advance state state' entries) :
    NodeReady options state' node := by
  constructor
  · intro hmode role part hpart hrole entry hentry
    obtain ⟨hresolved, hsupported⟩ := h.streams hmode role part hpart hrole entry hentry
    exact ⟨hresolved.advance ha, hsupported⟩
  · intro hinput
    obtain ⟨htoken, hfound⟩ := h.source hinput
    unfold fileLookup at hfound ⊢
    rw [ha.files.1, ha.files.2.1, ha.files.2.2]
    exact ⟨htoken, hfound⟩

/-- The ids of the occurrences of a node, its source included. -/
def Owned (node : WorkflowNode) (id : String) : Prop :=
  (∃ role i j, id = renderTokenOccurrenceId node.id role i j) ∨ id = inputOccurrenceId node

theorem owned_inj {node node' : WorkflowNode} {id : String} (h : Owned node id) (h' : Owned node' id) :
    node.id = node'.id := by
  rcases h with ⟨role, i, j, rfl⟩ | rfl <;> rcases h' with ⟨role', i', j', h'⟩ | h'
  · exact (occurrenceId_inj h').1
  · exact absurd h' (occurrenceId_ne_input _ _ _ _ node')
  · exact absurd h'.symm (occurrenceId_ne_input _ _ _ _ node)
  · have hlist := congrArg String.toList h'
    simp only [inputOccurrenceId, String.toList_append] at hlist
    exact String.toList_inj.mp (List.append_cancel_right hlist)

def IsProvider (node : WorkflowNode) : Prop := node.mode = .parallel ∨ node.mode = .sequential

/-- The render plan and the catalog entries of a node. -/
structure NodePlaced (options : CompileOptions) (secrets : Dict String SecretValue) (node : WorkflowNode)
    (plan : Option RenderPlan) (entries : List TokenCatalogEntry) : Prop where
  owned : ∀ entry ∈ entries, entry.nodeId = node.id ∧ Owned node entry.occurrenceId
  nodup : (entries.map (·.occurrenceId)).Nodup
  planId : ∀ renderPlan ∈ plan, renderPlan.renderPlanId = node.id
  streams : IsProvider node → ∃ executor reviewer executorEntries reviewerEntries,
    plan = some ⟨node.id, [⟨.executor, executor⟩, ⟨.reviewer, reviewer⟩]⟩ ∧
    Placed options secrets 0 (streamPieces node .executor) executor executorEntries ∧
    Placed options secrets 0 (streamPieces node .reviewer) reviewer reviewerEntries ∧
    entries = executorEntries ++ reviewerEntries

theorem stream_ids {options : CompileOptions} {secrets : Dict String SecretValue} {node : WorkflowNode}
    {role : ProviderRole} {fs : List Fragment} {es : List TokenCatalogEntry}
    (h : Placed options secrets 0 (streamPieces node role) fs es) :
    (es.map (·.occurrenceId)).Nodup ∧ ∀ id ∈ es.map (·.occurrenceId), ∃ i j, id = renderTokenOccurrenceId node.id role i j := by
  rw [h.entryIds, tokens_streamPieces]
  refine ⟨(nodup_nodeOccurrences node).sublist (List.filter_sublist.map _), ?_⟩
  intro id hid
  obtain ⟨occurrence, hocc, rfl⟩ := List.mem_map.mp hid
  obtain ⟨hocc, hrole⟩ := List.mem_filter.mp hocc
  obtain ⟨-, -, i, j, hij⟩ := mem_nodeOccurrences hocc
  simp only [decide_eq_true_eq] at hrole
  exact ⟨i, j, by rw [hij, hrole]⟩

theorem streams_placed {options : CompileOptions} {state : CompileState} {node : WorkflowNode}
    (h : NodeReady options state node) (hmode : node.mode ≠ .input) :
    ∃ state' executor reviewer entries,
      (do
        let (state, executor) ← compileRenderStream node .executor state
        let (state, reviewer) ← compileRenderStream node .reviewer state
        return (state, some (⟨node.id, [executor, reviewer]⟩ : RenderPlan)) : Except String _) =
        .ok (state', some ⟨node.id, [⟨.executor, executor⟩, ⟨.reviewer, reviewer⟩]⟩) ∧
      Advance state state' entries ∧
      NodePlaced options state.secretContext node (some ⟨node.id, [⟨.executor, executor⟩, ⟨.reviewer, reviewer⟩]⟩)
        entries := by
  obtain ⟨state₁, executor, es, hexecutor, hplaced, hadvance⟩ := stream_placed (h.streams hmode .executor)
  obtain ⟨state₂, reviewer, ds, hreviewer, hplaced₂, hadvance₂⟩ :=
    stream_placed ((h.advance hadvance).streams hmode .reviewer)
  rw [hadvance.secrets] at hplaced₂
  refine ⟨state₂, executor, reviewer, es ++ ds, ?_, hadvance.trans hadvance₂, ?_⟩
  · rw [hexecutor]
    show (compileRenderStream node .reviewer state₁ >>= _) = _
    rw [hreviewer]
    rfl
  · obtain ⟨hnodup, hids⟩ := stream_ids hplaced
    obtain ⟨hnodup₂, hids₂⟩ := stream_ids hplaced₂
    refine ⟨?_, ?_, ?_, fun _ => ⟨executor, reviewer, es, ds, rfl, hplaced, hplaced₂, rfl⟩⟩
    · intro entry hentry
      rcases List.mem_append.mp hentry with hentry | hentry
      · obtain ⟨i, j, hij⟩ := hids _ (List.mem_map_of_mem hentry)
        exact ⟨(stream_entry hplaced entry hentry).1, .inl ⟨_, i, j, hij⟩⟩
      · obtain ⟨i, j, hij⟩ := hids₂ _ (List.mem_map_of_mem hentry)
        exact ⟨(stream_entry hplaced₂ entry hentry).1, .inl ⟨_, i, j, hij⟩⟩
    · rw [List.map_append, List.nodup_append']
      refine ⟨hnodup, hnodup₂, ?_⟩
      intro id hid hid₂
      obtain ⟨i, j, hij⟩ := hids id hid
      obtain ⟨i₂, j₂, hij₂⟩ := hids₂ id hid₂
      have := (occurrenceId_inj (hij.symm.trans hij₂)).2.1
      simp at this
    · intro renderPlan hplan
      rw [← Option.some.inj hplan]

theorem inputSource_placed {options : CompileOptions} {state : CompileState} {node : WorkflowNode}
    (h : NodeReady options state node) (hinput : isResolvedInput options node = true) :
    ∃ entry, Advance state (appendInputSourceTokenCatalog node state) [entry] ∧ entry.nodeId = node.id ∧
      entry.occurrenceId = inputOccurrenceId node := by
  obtain ⟨htoken, hfound⟩ := h.source hinput
  obtain ⟨reference, htoken⟩ := Option.isSome_iff_exists.mp htoken
  unfold appendInputSourceTokenCatalog
  unfold fileLookup at hfound
  simp only [htoken]
  cases hworkspace : Dict.get? state.workspaceFileReferences (inputOccurrenceId node) with
  | some locatorId =>
    obtain ⟨entry, hentry, hadvance⟩ := appendTokenCatalog_advance state
      { node, reference, occurrenceId := inputOccurrenceId node, targetRole := .executor, sourceRole := .shared
        segmentIndex := 0 } 0 locatorId
    exact ⟨entry, hadvance, hentry.2.1, hentry.1⟩
  | none =>
    simp only [hworkspace, Option.isSome_map] at hfound
    obtain ⟨contentRef, hstatic⟩ := Option.isSome_iff_exists.mp hfound
    simp only [hstatic]
    obtain ⟨entry, hentry, hadvance⟩ := appendTokenCatalog_advance state
      { node, reference, occurrenceId := inputOccurrenceId node, targetRole := .executor, sourceRole := .shared
        segmentIndex := 0 } 0 contentRef
    exact ⟨entry, hadvance, hentry.2.1, hentry.1⟩

theorem nodePlaced_nil {options : CompileOptions} {secrets : Dict String SecretValue} {node : WorkflowNode}
    (hmode : ¬ IsProvider node) : NodePlaced options secrets node none [] :=
  ⟨by simp, by simp, by simp, fun h => absurd h hmode⟩

/-- `compile_render_plan` on a node that is ready. -/
theorem compileRenderPlan_placed {options : CompileOptions} {state : CompileState} {node : WorkflowNode}
    (h : NodeReady options state node) :
    ∃ state' plan entries, compileRenderPlan options node state = .ok (state', plan) ∧ Advance state state' entries ∧
      NodePlaced options state.secretContext node plan entries := by
  unfold compileRenderPlan
  cases hmode : node.mode with
  | foreach =>
    exact ⟨state, none, [], rfl, Advance.refl state, nodePlaced_nil (by simp [IsProvider, hmode])⟩
  | input =>
    dsimp only
    split
    · exact ⟨state, none, [], rfl, Advance.refl state, nodePlaced_nil (by simp [IsProvider, hmode])⟩
    · rename_i hitem
      obtain ⟨entry, hadvance, hnode, hid⟩ := inputSource_placed h (by simp [isResolvedInput, hmode, hitem])
      refine ⟨_, none, [entry], rfl, hadvance, ?_, by simp, by simp, fun hp => absurd hp (by simp [IsProvider, hmode])⟩
      intro other hother
      rw [List.mem_singleton.mp hother]
      exact ⟨hnode, .inr hid⟩
  | parallel =>
    obtain ⟨state', executor, reviewer, entries, hok, hadvance, hplaced⟩ := streams_placed h (by simp [hmode])
    exact ⟨state', _, entries, hok, hadvance, hplaced⟩
  | sequential =>
    obtain ⟨state', executor, reviewer, entries, hok, hadvance, hplaced⟩ := streams_placed h (by simp [hmode])
    exact ⟨state', _, entries, hok, hadvance, hplaced⟩

theorem appendNodeEdges_advance {node : WorkflowNode} {state state' : CompileState}
    (h : appendNodeEdges node state = .ok state') : Advance state state' [] := by
  have hneeds : ∀ (needs : List String) (state : CompileState), Advance state
      (needs.foldl (fun state dependency => appendDependencyEdge state dependency node.id none) state) [] := by
    intro needs
    induction needs with
    | nil => exact Advance.refl
    | cons dependency rest ih => exact fun state => (advance_appendDependencyEdge ..).trans (ih _)
  unfold appendNodeEdges at h
  dsimp only at h
  split at h
  · obtain ⟨⟨producer, artifact⟩, -, h⟩ := (do_eq_ok ..).mp h
    rw [← Except.ok.inj h]
    exact (hneeds _ _).trans (advance_appendDependencyEdge ..)
  · rw [← Except.ok.inj h]
    exact hneeds _ _

/-- What the loop over the nodes adds to the state and the render plans. -/
structure PlanPlaced (options : CompileOptions) (secrets : Dict String SecretValue) (nodes : List WorkflowNode)
    (plans : List RenderPlan) (entries : List TokenCatalogEntry) : Prop where
  owned : ∀ entry ∈ entries, ∃ node ∈ nodes, entry.nodeId = node.id ∧ Owned node entry.occurrenceId
  nodup : (entries.map (·.occurrenceId)).Nodup
  planIds : ∀ renderPlan ∈ plans, ∃ node ∈ nodes, renderPlan.renderPlanId = node.id
  streams : ∀ node ∈ nodes, IsProvider node → ∃ executor reviewer executorEntries reviewerEntries,
    plans.filter (·.renderPlanId = node.id) = [⟨node.id, [⟨.executor, executor⟩, ⟨.reviewer, reviewer⟩]⟩] ∧
    Placed options secrets 0 (streamPieces node .executor) executor executorEntries ∧
    Placed options secrets 0 (streamPieces node .reviewer) reviewer reviewerEntries ∧
    entries.filter (·.nodeId = node.id) = executorEntries ++ reviewerEntries

/-- One more node in front. -/
theorem PlanPlaced.cons {options : CompileOptions} {secrets : Dict String SecretValue} {node : WorkflowNode}
    {nodes : List WorkflowNode} {plan : Option RenderPlan} {plans : List RenderPlan} {es ds : List TokenCatalogEntry}
    (hnode : NodePlaced options secrets node plan es) (hrest : PlanPlaced options secrets nodes plans ds)
    (hne : ∀ other ∈ nodes, other.id ≠ node.id) :
    PlanPlaced options secrets (node :: nodes) (plan.toList ++ plans) (es ++ ds) := by
  constructor
  · intro entry hentry
    rcases List.mem_append.mp hentry with hentry | hentry
    · exact ⟨node, by simp, hnode.owned entry hentry⟩
    · obtain ⟨other, hother, howned⟩ := hrest.owned entry hentry
      exact ⟨other, List.mem_cons_of_mem _ hother, howned⟩
  · rw [List.map_append, List.nodup_append']
    refine ⟨hnode.nodup, hrest.nodup, ?_⟩
    intro id hid hid'
    obtain ⟨entry, hentry, rfl⟩ := List.mem_map.mp hid
    obtain ⟨entry', hentry', heq⟩ := List.mem_map.mp hid'
    obtain ⟨other, hother, -, howned⟩ := hrest.owned entry' hentry'
    rw [heq] at howned
    exact hne other hother (owned_inj howned (hnode.owned entry hentry).2)
  · intro renderPlan hplan
    rcases List.mem_append.mp hplan with hplan | hplan
    · exact ⟨node, by simp, hnode.planId renderPlan (Option.mem_toList.mp hplan)⟩
    · obtain ⟨other, hother, hid⟩ := hrest.planIds renderPlan hplan
      exact ⟨other, List.mem_cons_of_mem _ hother, hid⟩
  · intro other hother hprovider
    rw [List.filter_append, List.filter_append]
    rcases List.mem_cons.mp hother with rfl | hother
    · obtain ⟨executor, reviewer, ee, er, hplan, hexecutor, hreviewer, hentries⟩ := hnode.streams hprovider
      refine ⟨executor, reviewer, ee, er, ?_, hexecutor, hreviewer, ?_⟩
      · have hlater : plans.filter (·.renderPlanId = other.id) = [] := by
          rw [List.filter_eq_nil_iff]
          intro renderPlan hmem
          obtain ⟨later, hlater, hid⟩ := hrest.planIds renderPlan hmem
          simpa [hid] using hne later hlater
        rw [hlater, hplan]
        simp
      · have hlater : ds.filter (·.nodeId = other.id) = [] := by
          rw [List.filter_eq_nil_iff]
          intro entry hmem
          obtain ⟨later, hlater, hid, -⟩ := hrest.owned entry hmem
          simpa [hid] using hne later hlater
        rw [hlater, List.append_nil, ← hentries, List.filter_eq_self]
        intro entry hentry
        simpa using (hnode.owned entry hentry).1
    · obtain ⟨executor, reviewer, ee, er, hplan, hexecutor, hreviewer, hentries⟩ := hrest.streams other hother hprovider
      refine ⟨executor, reviewer, ee, er, ?_, hexecutor, hreviewer, ?_⟩
      · have hfirst : plan.toList.filter (·.renderPlanId = other.id) = [] := by
          rw [List.filter_eq_nil_iff]
          intro renderPlan hmem
          rw [hnode.planId renderPlan (Option.mem_toList.mp hmem)]
          simpa using (hne other hother).symm
        rw [hfirst, hplan]
        rfl
      · have hfirst : es.filter (·.nodeId = other.id) = [] := by
          rw [List.filter_eq_nil_iff]
          intro entry hmem
          rw [(hnode.owned entry hmem).1]
          simpa using (hne other hother).symm
        rw [hfirst, hentries]
        rfl

theorem templatePlan_placed {options : CompileOptions} : ∀ (nodes : List WorkflowNode) (state : CompileState)
    (before : List RenderPlan) (state' : CompileState) (plans : List RenderPlan),
    templatePlan options nodes state before = .ok (state', plans) → (nodes.map (·.id)).Nodup →
    (∀ node ∈ nodes, NodeReady options state node) →
    ∃ added entries, plans = before ++ added ∧ Advance state state' entries ∧
      PlanPlaced options state.secretContext nodes added entries := by
  intro nodes
  induction nodes with
  | nil =>
    intro state before state' plans h _ _
    obtain ⟨rfl, rfl⟩ := Prod.mk.inj (Except.ok.inj h)
    exact ⟨[], [], by simp, Advance.refl state, by simp, by simp, by simp, by simp⟩
  | cons node rest ih =>
    intro state before state' plans h hids hready
    rw [List.map_cons, List.nodup_cons] at hids
    rw [templatePlan] at h
    obtain ⟨state₁, hedges, h⟩ := (do_eq_ok ..).mp h
    have hadvance₁ := appendNodeEdges_advance hedges
    obtain ⟨state₂, plan, es, hcompiled, hadvance₂, hplaced⟩ :=
      compileRenderPlan_placed ((hready node (by simp)).advance hadvance₁)
    have hadvance := hadvance₁.trans hadvance₂
    rw [hcompiled] at h
    obtain ⟨added, ds, hplans, hadvance₃, hrest⟩ := ih state₂ (before ++ plan.toList) state' plans h hids.2
      fun other hother => (hready other (List.mem_cons_of_mem _ hother)).advance hadvance
    rw [hadvance₁.secrets] at hplaced
    rw [hadvance.secrets] at hrest
    refine ⟨plan.toList ++ added, es ++ ds, by rw [hplans, List.append_assoc], hadvance.trans hadvance₃, ?_⟩
    refine PlanPlaced.cons hplaced hrest ?_
    intro other hother heq
    exact hids.1 (List.mem_map.mpr ⟨other, hother, heq⟩)

/-! ## Compilation and assembly preserve the prompt -/

theorem nodesReady {workflow compiled : WorkflowPlan} {ancestors : Option (String → List String)}
    {options : CompileOptions} (hvalid : collectWorkflowValidationDiagnostics workflow ancestors = [])
    (hpolicies : hasErrors (applyPolicies workflow options) = false)
    (hcompiled : withCollectionConstraints workflow = .ok compiled) :
    (compiled.nodes.map (·.id)).Nodup ∧ ∀ node ∈ compiled.nodes, NodeReady options (applyPolicies workflow options) node := by
  obtain ⟨limits, -, hcompiled⟩ := (do_eq_ok ..).mp hcompiled
  obtain rfl := Except.ok.inj hcompiled
  have hids := nodup_ids hvalid
  have hdone := policiesDone hids hpolicies
  constructor
  · simpa [Function.comp_def] using hids
  · intro node hnode
    obtain ⟨authored, hauthored, rfl⟩ := List.mem_map.mp hnode
    constructor
    · intro hmode role
      exact streamResolved_constrained hvalid hdone.resolved hauthored (by simpa using hmode) limits role
    · intro hinput
      have := hdone.inputs authored hauthored (by simpa [isResolvedInput] using hinput)
      simpa [inputOccurrenceId] using this

/-- The stream of a node, found again by the assembler. -/
theorem findStream_ok {plans : List RenderPlan} {node : WorkflowNode} {executor reviewer : List Fragment}
    (h : plans.filter (·.renderPlanId = node.id) = [⟨node.id, [⟨.executor, executor⟩, ⟨.reviewer, reviewer⟩]⟩])
    (role : ProviderRole) :
    findStream plans node.id node.id role = .ok ⟨role, match role with
      | .executor => executor
      | .reviewer => reviewer⟩ := by
  unfold findStream
  rw [h]
  cases role <;> rfl

theorem mapM_map_result {ε α β γ : Type} (g : β → γ) (f : α → Except ε β) (xs : List α) :
    (xs.mapM fun x => g <$> f x) = List.map g <$> xs.mapM f := by
  induction xs with
  | nil => rfl
  | cons x xs ih =>
    rw [List.mapM_cons, List.mapM_cons, ih]
    simp

theorem assemble_placed {options : CompileOptions} {secrets : Dict String SecretValue} {store : ArtifactStore}
    {plans : List RenderPlan} {node : WorkflowNode} {role : ProviderRole} {fragments : List Fragment}
    {entries : List TokenCatalogEntry} (hstream : findStream plans node.id node.id role = .ok ⟨role, fragments⟩)
    (hplaced : Placed options secrets 0 (streamPieces node role) fragments entries) :
    assemblePrompt plans node.id role store secrets =
      String.ofList <$> substituteFrom (fun occurrence => withNode node.id (tokenValue options store occurrence)) node
        role 0 node.promptSegments := by
  have hsorted : (fragments.mergeSort fun a b => a.fragmentIndex ≤ b.fragmentIndex) = fragments := by
    refine List.mergeSort_of_pairwise ?_
    have hlt : (fragments.map (·.fragmentIndex)).Pairwise (· < ·) := by
      rw [hplaced.indices]
      exact List.pairwise_lt_range'
    exact (List.pairwise_map.mp hlt).imp fun hlt => by simpa using Nat.le_of_lt hlt
  rw [substituteFrom_eq]
  have hparts := @resolveFragments_placed options secrets store node.id _ _ _ _ hplaced
  unfold assemblePrompt
  rw [hstream]
  show (do
    let parts ← (fragments.mergeSort _).mapM fun fragment => withNode node.id (resolveFragment store secrets fragment)
    return String.join parts) = _
  rw [hsorted]
  show _ = String.ofList <$> List.flatten <$> (streamPieces node role).mapM _
  rw [← hparts]
  rw [mapM_map_result]
  simp [String.join_eq]

/-- Of the catalog entries of a node, those of one role are the entries of its stream. -/
theorem role_entries {options : CompileOptions} {secrets : Dict String SecretValue} {node : WorkflowNode}
    {catalog : List TokenCatalogEntry} {executor reviewer : List Fragment} {ee er : List TokenCatalogEntry}
    (hexecutor : Placed options secrets 0 (streamPieces node .executor) executor ee)
    (hreviewer : Placed options secrets 0 (streamPieces node .reviewer) reviewer er)
    (hentries : catalog.filter (·.nodeId = node.id) = ee ++ er) (role : ProviderRole) :
    ∃ es, Placed options secrets 0 (streamPieces node role)
        (match role with
          | .executor => executor
          | .reviewer => reviewer) es ∧
      (catalog.filter fun entry => entry.nodeId = node.id ∧ entry.targetRole = role) = es := by
  have hsplit : (catalog.filter fun entry => entry.nodeId = node.id ∧ entry.targetRole = role) =
      (ee ++ er).filter (·.targetRole = role) := by
    rw [← hentries, List.filter_filter]
    congr 1
    funext entry
    simp [Bool.and_comm]
  have hall : ∀ (es : List TokenCatalogEntry) (r : ProviderRole), (∀ entry ∈ es, entry.targetRole = r) →
      es.filter (·.targetRole = role) = if r = role then es else [] := by
    intro es r hes
    split
    · rename_i heq
      exact List.filter_eq_self.mpr fun entry hentry => by simp [hes entry hentry, heq]
    · rename_i hne
      exact List.filter_eq_nil_iff.mpr fun entry hentry => by simp [hes entry hentry, hne]
  rw [List.filter_append, hall ee .executor fun entry hentry => (stream_entry hexecutor entry hentry).2,
    hall er .reviewer fun entry hentry => (stream_entry hreviewer entry hentry).2] at hsplit
  cases role with
  | executor => exact ⟨ee, hexecutor, by simpa using hsplit⟩
  | reviewer => exact ⟨er, hreviewer, by simpa using hsplit⟩

/-- Every prompt of a validated workflow survives compilation and assembly: token by token the catalog ids differ,
the fragments spell the rendered prompt, each token has a fragment of its kind, and assembly is substitution. The
nodes are those compiled, which have the collection guidance appended where `with_collection_constraints` adds it. -/
theorem prompt_preserved {workflow compiled : WorkflowPlan} {ancestors : Option (String → List String)}
    {options : CompileOptions} {state : CompileState} {plans : List RenderPlan}
    (hvalid : collectWorkflowValidationDiagnostics workflow ancestors = [])
    (hpolicies : hasErrors (applyPolicies workflow options) = false)
    (hcompiled : withCollectionConstraints workflow = .ok compiled)
    (hplan : compilePreflightInventory workflow options = .ok (state, plans)) :
    hasErrors state = false ∧ (state.tokenCatalog.map (·.occurrenceId)).Nodup ∧
    ∀ node ∈ compiled.nodes, IsProvider node → ∀ role, ∃ stream,
      findStream plans node.id node.id role = .ok stream ∧
      (stream.fragments.map (rawText state.tokenCatalog node.id role)).flatten =
        (renderPromptSegments node.promptSegments role).toList ∧
      (∀ occurrence ∈ iterNodeRenderTokenOccurrences node, occurrence.targetRole = role →
        ∃ entry ∈ state.tokenCatalog, entry.occurrenceId = occurrence.occurrenceId ∧
          ∃ fragment ∈ stream.fragments, fragment.fragmentIndex = entry.fragmentIndex ∧
            fragment.payload.matches occurrence.reference.kind = true) ∧
      ∀ store, assemblePrompt plans node.id role store state.secretContext =
        String.ofList <$> substituteFrom (fun occurrence => withNode node.id (tokenValue options store occurrence)) node
          role 0 node.promptSegments := by
  obtain ⟨hids, hready⟩ := nodesReady hvalid hpolicies hcompiled
  have hdone := policiesDone (nodup_ids hvalid) hpolicies
  unfold compilePreflightInventory at hplan
  simp only [hpolicies, hcompiled] at hplan
  obtain ⟨added, entries, hplans, hadvance, hplaced⟩ := templatePlan_placed compiled.nodes _ [] _ _ hplan hids hready
  have hcatalog : state.tokenCatalog = entries := by
    rw [hadvance.catalog, hdone.catalog, List.nil_append]
  obtain rfl : plans = added := hplans
  refine ⟨?_, hcatalog ▸ hplaced.nodup, ?_⟩
  · have := hdone.noErrors
    unfold hasErrors at this ⊢
    rwa [hadvance.diagnostics]
  intro node hnode hprovider role
  obtain ⟨executor, reviewer, ee, er, hfilter, hexecutor, hreviewer, hentries⟩ := hplaced.streams node hnode hprovider
  obtain ⟨es, hstream, hcatalogued⟩ := role_entries hexecutor hreviewer hentries role
  rw [← hcatalog] at hcatalogued
  refine ⟨_, findStream_ok hfilter role, ?_, ?_, ?_⟩
  · rw [rawText_placed hstream [] (by simp) hcatalogued]
    exact raw_pieces node.promptSegments 0
  · intro occurrence hocc htarget
    obtain ⟨entry, hentry, fragment, hfragment, hof, hcompiled⟩ := hstream.token_compiled occurrence (by
      rw [tokens_streamPieces, List.mem_filter]
      exact ⟨hocc, by simpa using htarget⟩)
    rw [← hcatalogued] at hentry
    exact ⟨entry, List.mem_of_mem_filter hentry, hof.1, fragment, hfragment, hof.2.2.2.2.2.symm, compiled_matches hcompiled⟩
  · intro store
    rw [hadvance.secrets]
    exact assemble_placed (findStream_ok hfilter role) hstream

/-! ## A sample workflow -/

def samplePlan : WorkflowNode :=
  { id := "plan", mode := .parallel
    promptSegments := [⟨.shared, "Plan " ++ openBraces ++ "var:goal" ++ closeBraces ++ "."⟩] }

def sampleBuild : WorkflowNode :=
  { id := "build", mode := .sequential, needs := ["plan"]
    promptSegments :=
      [ ⟨.shared, "Do \x7b" ++ openBraces ++ " plan.output " ++ closeBraces ++ "\x7d with "⟩,
        ⟨.reviewer, openBraces ++ "env:API_KEY" ++ closeBraces ++ openBraces ++ "file:a.md" ++ closeBraces⟩ ] }

def sampleOptions : CompileOptions :=
  { itemInputIds := []
    terminalResultFile := fun _ _ => none
    staticFile := fun _ key => .captured ("static/" ++ key)
    usesWorkspaceFile := fun _ _ => false
    usesWorkspaceInput := fun _ => false
    workspaceFile := fun _ _ _ _ _ => .ok "workspace-file-0"
    environment := fun key => if key = "API_KEY" then some "k" else none
    templateVariables := fun key => if key = "goal" then some "it" else none
    fingerprintKey := .ok "key"
    fingerprintPayload := fun key record => key ++ record.value
    configSecrets := [] }

/-- The output of `plan` looks like a token. -/
def sampleStore : ArtifactStore :=
  { staticText := fun contentRef => .ok ("<" ++ contentRef ++ ">")
    workspaceText := fun _ => .ok ""
    findingsPath := fun _ => some none
    readVerifiedNodeArtifact := fun _ _ =>
      .ok ⟨"out", 12, "0", .ok (openBraces ++ "var:goal" ++ closeBraces)⟩ }

def sampleResult : CompileState × List RenderPlan :=
  match compilePreflightInventory ⟨[samplePlan, sampleBuild]⟩ sampleOptions with
  | .ok result => result
  | .error _ => ({}, [])

theorem prompt_preserved_sample :
    hasErrors sampleResult.1 = false ∧
      assemblePrompt sampleResult.2 "build" .reviewer sampleStore sampleResult.1.secretContext =
        .ok ("Do \x7b" ++ openBraces ++ "var:goal" ++ closeBraces ++ "\x7d with k<static/a.md>") := by
  have hplan : compilePreflightInventory ⟨[samplePlan, sampleBuild]⟩ sampleOptions = .ok (sampleResult.1, sampleResult.2) := by rfl
  obtain ⟨herrors, -, hnodes⟩ :=
    @prompt_preserved _ _ (some fun id => if id = "build" then ["plan"] else []) _ _ _ (by decide +kernel)
      (by decide +kernel) rfl hplan
  obtain ⟨stream, -, -, -, hassemble⟩ := hnodes sampleBuild (.tail _ (.head _)) (.inr rfl) .reviewer
  refine ⟨herrors, (hassemble sampleStore).trans ?_⟩
  rfl

end Crewplane.Prompt
