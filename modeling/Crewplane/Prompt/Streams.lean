import Crewplane.Prompt.Policies
/-
# Render streams

A compiled stream holds one fragment for every piece of the prompt, in order:
the text between tokens as it stands, and for each token a fragment of its kind,
with an entry in the token catalog under the token's own occurrence id
(`Placed`). `compileRenderStream` builds such a stream whenever the policies have
resolved the tokens (`stream_placed`).
-/
namespace Crewplane.Prompt

open Crewplane.Lib Crewplane.Workflow

/-- A stretch of prompt text, or the occurrence of a token. -/
inductive StreamPiece
  | literal (role : PromptSegmentRole) (text : List Char)
  | token (occurrence : RenderTokenOccurrence)

/-- The occurrence of the `k`-th token of a segment, for one target role. -/
def segmentOccurrence (node : WorkflowNode) (role : ProviderRole) (i : Nat) (segment : Segment) (k : Nat)
    (found : Match Char (List Char)) : RenderTokenOccurrence :=
  { node, reference := referenceOf found.start found.stop found.capture, targetRole := role
    sourceRole := segment.role, segmentIndex := i, occurrenceId := renderTokenOccurrenceId node.id role i k }

def streamPiece (node : WorkflowNode) (role : ProviderRole) (i : Nat) (segment : Segment) :
    Piece Char (List Char) → StreamPiece
  | .literal text => .literal segment.role text
  | .found k it => .token (segmentOccurrence node role i segment k it)

def segmentMatches (segment : Segment) : List (Match Char (List Char)) :=
  findIter templateTokenAt 0 0 segment.content.toList

def segmentPieces (node : WorkflowNode) (role : ProviderRole) (i : Nat) (segment : Segment) : List StreamPiece :=
  (pieces segment.content.toList 0 0 (segmentMatches segment)).map (streamPiece node role i segment)

/-- The pieces of the prompt for a role, over the segments from an index on. -/
def streamPiecesFrom (node : WorkflowNode) (role : ProviderRole) : Nat → List Segment → List StreamPiece
  | _, [] => []
  | i, segment :: rest =>
    (if role ∈ targetRolesForSegment segment then segmentPieces node role i segment else []) ++
      streamPiecesFrom node role (i + 1) rest

def streamPieces (node : WorkflowNode) (role : ProviderRole) : List StreamPiece :=
  streamPiecesFrom node role 0 node.promptSegments

/-! ## One fragment -/

/-- A fragment payload of the kind of the token, that leads to the token's value. -/
def Compiled (options : CompileOptions) (secrets : Dict String SecretValue) (occurrence : RenderTokenOccurrence)
    (payload : FragmentPayload) : Prop :=
  let key := occurrence.reference.key.getD ""
  match occurrence.reference.kind with
  | .node => ∃ id name, occurrence.reference.nodeId = some id ∧ occurrence.reference.artifactName = some name ∧
      id ≠ "" ∧ name ∈ allowedNodeArtifactNames ∧ payload = .runtimeLocatorLookup id name
  | .file => resolvedFile options occurrence = .ok payload
  | .env => ∃ value ready, staticValueOf options .env key = some value ∧ payload = .staticValue .env key ready ∧
      Ready secrets value ready
  | .var => ∃ value ready, staticValueOf options .var key = some value ∧ payload = .staticValue .var key ready ∧
      Ready secrets value ready
  | .param | .unknown => False

/-- The catalog entry of an occurrence whose fragment has an index. -/
def EntryOf (occurrence : RenderTokenOccurrence) (fragmentIndex : Nat) (entry : TokenCatalogEntry) : Prop :=
  entry.occurrenceId = occurrence.occurrenceId ∧ entry.nodeId = occurrence.node.id ∧
    entry.targetRole = occurrence.targetRole ∧ entry.rawToken = occurrence.reference.rawToken ∧
    entry.tokenKind = occurrence.reference.kind ∧ entry.fragmentIndex = fragmentIndex

/-- The state goes on with more catalog entries, and perhaps more dependency edges. -/
structure Advance (state state' : CompileState) (entries : List TokenCatalogEntry) : Prop where
  diagnostics : state'.diagnostics = state.diagnostics
  files : state'.workspaceFileReferences = state.workspaceFileReferences ∧
    state'.staticFileReferences = state.staticFileReferences ∧ state'.inputSourceTokens = state.inputSourceTokens
  values : state'.staticValueReferences = state.staticValueReferences
  secrets : state'.secretContext = state.secretContext
  catalog : state'.tokenCatalog = state.tokenCatalog ++ entries

theorem Advance.refl (state : CompileState) : Advance state state [] := ⟨rfl, ⟨rfl, rfl, rfl⟩, rfl, rfl, by simp⟩

theorem Advance.trans {a b c : CompileState} {es fs : List TokenCatalogEntry} (hab : Advance a b es)
    (hbc : Advance b c fs) : Advance a c (es ++ fs) := by
  refine ⟨hbc.diagnostics.trans hab.diagnostics, ⟨hbc.files.1.trans hab.files.1, hbc.files.2.1.trans hab.files.2.1,
    hbc.files.2.2.trans hab.files.2.2⟩, hbc.values.trans hab.values, hbc.secrets.trans hab.secrets, ?_⟩
  rw [hbc.catalog, hab.catalog, List.append_assoc]

theorem advance_appendDependencyEdge (state : CompileState) (source target : String) (artifactName : Option String) :
    Advance state (appendDependencyEdge state source target artifactName) [] := by
  unfold appendDependencyEdge
  split
  · exact Advance.refl state
  · exact ⟨rfl, ⟨rfl, rfl, rfl⟩, rfl, rfl, by simp⟩

theorem appendTokenCatalog_advance (state : CompileState) (occurrence : RenderTokenOccurrence) (fragmentIndex : Nat)
    (canonicalLocator : String) :
    ∃ entry, EntryOf occurrence fragmentIndex entry ∧
      Advance state (appendTokenCatalog state occurrence fragmentIndex canonicalLocator) [entry] :=
  ⟨_, ⟨rfl, rfl, rfl, rfl, rfl, rfl⟩, rfl, ⟨rfl, rfl, rfl⟩, rfl, rfl, rfl⟩

theorem Resolved.advance {options : CompileOptions} {state state' : CompileState} {entries : List TokenCatalogEntry}
    {occurrence : RenderTokenOccurrence} (h : Resolved options state occurrence) (ha : Advance state state' entries) :
    Resolved options state' occurrence := by
  unfold Resolved ValueReady fileLookup at h ⊢
  rw [ha.files.1, ha.files.2.1, ha.values, ha.secrets]
  exact h

theorem staticValueFragment_compiled {options : CompileOptions} {state : CompileState} {kind : StaticKind}
    {occurrence : RenderTokenOccurrence} (h : ValueReady options state kind occurrence) (fragmentIndex : Nat) :
    ∃ state' value ready entry, staticValueFragment occurrence state fragmentIndex =
        .ok (state', some (.staticValue kind (occurrence.reference.key.getD "") ready)) ∧
      staticValueOf options kind (occurrence.reference.key.getD "") = some value ∧
      Ready state.secretContext value ready ∧ EntryOf occurrence fragmentIndex entry ∧ Advance state state' [entry] := by
  obtain ⟨value, ready, hvalue, hget, hready⟩ := h
  obtain ⟨entry, hentry, hadvance⟩ := appendTokenCatalog_advance state occurrence fragmentIndex
    (kind.value ++ ":" ++ occurrence.reference.key.getD "")
  refine ⟨_, value, ready, entry, ?_, hvalue, hready, hentry, hadvance⟩
  unfold staticValueFragment
  rw [hget]
  cases ready with
  | stored stored => rfl
  | handle handle fingerprint =>
    cases fingerprint with
    | none => exact absurd hready (by simp [Ready])
    | some fingerprint => rfl

/-- A supported token that the policies resolved compiles. -/
theorem fragment_compiled {options : CompileOptions} {state : CompileState} {occurrence : RenderTokenOccurrence}
    (hresolved : Resolved options state occurrence) (hsupported : occurrence.reference.Supported)
    (fragmentIndex : Nat) :
    ∃ state' payload entry, fragmentForOccurrence occurrence state fragmentIndex = .ok (state', some payload) ∧
      Compiled options state.secretContext occurrence payload ∧ EntryOf occurrence fragmentIndex entry ∧
      Advance state state' [entry] := by
  unfold fragmentForOccurrence Compiled
  unfold Resolved at hresolved
  rcases hsupported with ⟨hkind, id, name, hid, hname, hne, hallowed⟩ | ⟨hkind, -⟩
  · obtain ⟨entry, hentry, hadvance⟩ := appendTokenCatalog_advance state occurrence fragmentIndex (id ++ "." ++ name)
    refine ⟨_, .runtimeLocatorLookup id name, entry, ?_, ?_, hentry,
      hadvance.trans (advance_appendDependencyEdge _ id occurrence.node.id (some name))⟩
    · simp [hkind, nodeReferenceFragment, hid, hname, hallowed]
    · simp [hkind, hid, hname, hne, hallowed]
  · rcases hkind with hkind | hkind | hkind
    · simp only [hkind] at hresolved ⊢
      obtain ⟨payload, hpayload, hfound⟩ := hresolved
      unfold fileLookup at hfound
      unfold fileReferenceFragment
      cases hws : Dict.get? state.workspaceFileReferences occurrence.occurrenceId with
      | some locatorId =>
        obtain ⟨entry, hentry, hadvance⟩ := appendTokenCatalog_advance state occurrence fragmentIndex locatorId
        simp only [hws, Option.some.injEq] at hfound
        exact ⟨_, payload, entry, by rw [← hfound], hpayload, hentry, hadvance⟩
      | none =>
        simp only [hws, Option.map_eq_some_iff] at hfound
        obtain ⟨contentRef, hstatic, rfl⟩ := hfound
        obtain ⟨entry, hentry, hadvance⟩ := appendTokenCatalog_advance state occurrence fragmentIndex contentRef
        exact ⟨_, _, entry, by rw [hstatic], hpayload, hentry, hadvance⟩
    · simp only [hkind] at hresolved ⊢
      obtain ⟨state', value, ready, entry, hfragment, hvalue, hready, hentry, hadvance⟩ :=
        staticValueFragment_compiled hresolved fragmentIndex
      exact ⟨state', _, entry, hfragment, ⟨value, ready, hvalue, rfl, hready⟩, hentry, hadvance⟩
    · simp only [hkind] at hresolved ⊢
      obtain ⟨state', value, ready, entry, hfragment, hvalue, hready, hentry, hadvance⟩ :=
        staticValueFragment_compiled hresolved fragmentIndex
      exact ⟨state', _, entry, hfragment, ⟨value, ready, hvalue, rfl, hready⟩, hentry, hadvance⟩

/-! ## The stream -/

/-- The fragments and catalog entries of a list of pieces, from a fragment index on. -/
inductive Placed (options : CompileOptions) (secrets : Dict String SecretValue) :
    Nat → List StreamPiece → List Fragment → List TokenCatalogEntry → Prop
  | nil (i : Nat) : Placed options secrets i [] [] []
  | literal {i : Nat} {role : PromptSegmentRole} {text : List Char} {pieces : List StreamPiece}
      {fragments : List Fragment} {entries : List TokenCatalogEntry}
      (rest : Placed options secrets (i + 1) pieces fragments entries) :
      Placed options secrets i (.literal role text :: pieces) (⟨i, role, .literal (String.ofList text)⟩ :: fragments)
        entries
  | token {i : Nat} {occurrence : RenderTokenOccurrence} {payload : FragmentPayload} {entry : TokenCatalogEntry}
      {pieces : List StreamPiece} {fragments : List Fragment} {entries : List TokenCatalogEntry}
      (compiled : Compiled options secrets occurrence payload) (catalogued : EntryOf occurrence i entry)
      (rest : Placed options secrets (i + 1) pieces fragments entries) :
      Placed options secrets i (.token occurrence :: pieces) (⟨i, occurrence.sourceRole, payload⟩ :: fragments)
        (entry :: entries)

section Placing

variable {options : CompileOptions} {secrets : Dict String SecretValue}

theorem Placed.append {i : Nat} {ps qs : List StreamPiece} {fs gs : List Fragment} {es ds : List TokenCatalogEntry}
    (h : Placed options secrets i ps fs es) (h' : Placed options secrets (i + fs.length) qs gs ds) :
    Placed options secrets i (ps ++ qs) (fs ++ gs) (es ++ ds) := by
  induction h with
  | nil i => simpa using h'
  | literal rest ih =>
    refine .literal (ih ?_)
    rwa [List.length_cons, Nat.add_comm _ 1, ← Nat.add_assoc] at h'
  | token compiled catalogued rest ih =>
    refine .token compiled catalogued (ih ?_)
    rwa [List.length_cons, Nat.add_comm _ 1, ← Nat.add_assoc] at h'

theorem placed_literal {i : Nat} {segment : Segment} {cursor stop : Nat} {fragments : List Fragment}
    (hi : fragments.length = i) (node : WorkflowNode) (role : ProviderRole) (n : Nat) :
    ∃ fs, appendLiteral segment cursor stop fragments = fragments ++ fs ∧
      Placed options secrets i
        ((if cursor < stop then [Piece.literal (slice segment.content.toList cursor stop)] else []).map
          (streamPiece node role n segment)) fs [] := by
  unfold appendLiteral appendFragment
  split
  · rw [hi]
    exact ⟨_, rfl, .literal (.nil _)⟩
  · exact ⟨[], by simp, .nil _⟩

/-- The loop over the occurrences of a segment places its pieces. -/
theorem segmentFragments_placed {node : WorkflowNode} {role : ProviderRole} {n : Nat} {segment : Segment} :
    ∀ (found : List (Match Char (List Char))) (cursor k : Nat) (state : CompileState) (fragments : List Fragment),
    (∀ entry ∈ found.zipIdx k, Resolved options state (segmentOccurrence node role n segment entry.2 entry.1) ∧
      (segmentOccurrence node role n segment entry.2 entry.1).reference.Supported) →
    ∃ state' fs es,
      segmentFragments segment cursor
        ((found.zipIdx k).map fun entry => segmentOccurrence node role n segment entry.2 entry.1) state fragments =
        .ok (state', fragments ++ fs) ∧
      Placed options state.secretContext fragments.length
        ((pieces segment.content.toList cursor k found).map (streamPiece node role n segment)) fs es ∧
      Advance state state' es := by
  intro found
  induction found with
  | nil =>
    intro cursor k state fragments _
    obtain ⟨fs, hfs, hplaced⟩ := @placed_literal options state.secretContext _ segment cursor
      segment.content.toList.length fragments rfl node role n
    refine ⟨state, fs, [], ?_, ?_, Advance.refl state⟩
    · simp [segmentFragments, hfs]
    · rw [slice, List.take_length] at hplaced
      exact hplaced
  | cons it rest ih =>
    intro cursor k state fragments hresolved
    obtain ⟨fs, hfs, hplaced⟩ := @placed_literal options state.secretContext _ segment cursor it.start fragments rfl
      node role n
    obtain ⟨hone, hsupported⟩ := hresolved (it, k) (by simp)
    obtain ⟨state₁, payload, entry, hfragment, hcompiled, hentry, hadvance⟩ :=
      fragment_compiled hone hsupported (fragments ++ fs).length
    have hrest := ih it.stop (k + 1) state₁ (fragments ++ fs ++ [⟨(fragments ++ fs).length, segment.role, payload⟩])
      (fun later hlater => by
        obtain ⟨hr, hs⟩ := hresolved later (by rw [List.zipIdx_cons]; exact List.mem_cons_of_mem _ hlater)
        exact ⟨hr.advance hadvance, hs⟩)
    obtain ⟨state₂, gs, ds, hloop, hplaced₂, hadvance₂⟩ := hrest
    refine ⟨state₂, fs ++ ⟨(fragments ++ fs).length, segment.role, payload⟩ :: gs, [] ++ entry :: ds, ?_, ?_, ?_⟩
    · rw [List.zipIdx_cons, List.map_cons, segmentFragments]
      have hstart : (segmentOccurrence node role n segment k it).reference.start = it.start := referenceOf_start ..
      have hstop : (segmentOccurrence node role n segment k it).reference.stop = it.stop := referenceOf_stop ..
      simp only [hstart, hstop, hfs, hfragment]
      show segmentFragments segment it.stop _ state₁ (appendFragment _ _ _) = _
      rw [appendFragment, hloop]
      simp
    · rw [pieces, List.map_append, List.map_cons]
      refine hplaced.append ?_
      rw [← List.length_append]
      refine .token hcompiled hentry ?_
      rw [hadvance.secrets] at hplaced₂
      simpa [Nat.add_assoc] using hplaced₂
    · exact (hadvance.trans hadvance₂)

/-- The occurrences of a segment for a role are those of its tokens, in order. -/
theorem filter_segmentOccurrences {node : WorkflowNode} {role : ProviderRole} {n : Nat} {segment : Segment}
    (hrole : role ∈ targetRolesForSegment segment) :
    (iterSegmentRenderTokenOccurrences node n segment).filter (·.targetRole = role) =
      ((segmentMatches segment).zipIdx 0).map fun entry => segmentOccurrence node role n segment entry.2 entry.1 := by
  have hone : (targetRolesForSegment segment).filter (fun target => target = role) = [role] := by
    unfold targetRolesForSegment at hrole ⊢
    cases hsegment : segment.role <;> cases role <;> simp_all
  unfold iterSegmentRenderTokenOccurrences iterTemplateReferences
  rw [List.filter_flatMap, List.zipIdx_map, List.flatMap_map, List.map_eq_flatMap]
  refine List.flatMap_congr fun entry _ => ?_
  rw [List.filter_map]
  simp only [Function.comp_def, hone]
  rfl

theorem appendSegment_placed {node : WorkflowNode} {role : ProviderRole} {n : Nat} {segment : Segment}
    {state : CompileState} {fragments : List Fragment} (hrole : role ∈ targetRolesForSegment segment)
    (hresolved : ∀ entry ∈ (segmentMatches segment).zipIdx 0,
      Resolved options state (segmentOccurrence node role n segment entry.2 entry.1) ∧
        (segmentOccurrence node role n segment entry.2 entry.1).reference.Supported) :
    ∃ state' fs es, appendSegmentFragments node role n segment state fragments = .ok (state', fragments ++ fs) ∧
      Placed options state.secretContext fragments.length (segmentPieces node role n segment) fs es ∧
      Advance state state' es := by
  unfold appendSegmentFragments segmentPieces
  rw [filter_segmentOccurrences hrole]
  exact segmentFragments_placed _ 0 0 state fragments hresolved

/-- The tokens of a stream are resolved and supported. -/
def StreamResolved (options : CompileOptions) (state : CompileState) (node : WorkflowNode) (role : ProviderRole)
    (n : Nat) (segments : List Segment) : Prop :=
  ∀ part ∈ segments.zipIdx n, role ∈ targetRolesForSegment part.1 → ∀ entry ∈ (segmentMatches part.1).zipIdx 0,
    Resolved options state (segmentOccurrence node role part.2 part.1 entry.2 entry.1) ∧
      (segmentOccurrence node role part.2 part.1 entry.2 entry.1).reference.Supported

theorem streamFragments_placed {node : WorkflowNode} {role : ProviderRole} :
    ∀ (segments : List Segment) (n : Nat) (state : CompileState) (fragments : List Fragment),
    StreamResolved options state node role n segments →
    ∃ state' fs es, streamFragments node role n segments state fragments = .ok (state', fragments ++ fs) ∧
      Placed options state.secretContext fragments.length (streamPiecesFrom node role n segments) fs es ∧
      Advance state state' es := by
  intro segments
  induction segments with
  | nil =>
    intro n state fragments _
    exact ⟨state, [], [], by simp [streamFragments], .nil _, Advance.refl state⟩
  | cons segment rest ih =>
    intro n state fragments hresolved
    unfold StreamResolved at hresolved
    rw [List.zipIdx_cons] at hresolved
    by_cases hrole : role ∈ targetRolesForSegment segment
    · obtain ⟨state₁, fs, es, hsegment, hplaced, hadvance⟩ := @appendSegment_placed options node role n segment state
        fragments hrole (hresolved (segment, n) (by simp) hrole)
      obtain ⟨state₂, gs, ds, hrest, hplaced₂, hadvance₂⟩ := ih (n + 1) state₁ (fragments ++ fs) fun part hpart hpr entry he => by
        obtain ⟨hr, hs⟩ := hresolved part (List.mem_cons_of_mem _ hpart) hpr entry he
        exact ⟨hr.advance hadvance, hs⟩
      refine ⟨state₂, fs ++ gs, es ++ ds, ?_, ?_, hadvance.trans hadvance₂⟩
      · simp only [streamFragments, hrole, not_true_eq_false, if_false, hsegment]
        show streamFragments node role (n + 1) rest state₁ (fragments ++ fs) = _
        rw [hrest, List.append_assoc]
      · rw [streamPiecesFrom, if_pos hrole]
        rw [hadvance.secrets, List.length_append] at hplaced₂
        exact hplaced.append hplaced₂
    · obtain ⟨state₂, gs, ds, hrest, hplaced₂, hadvance₂⟩ := ih (n + 1) state fragments fun part hpart hpr entry he =>
        hresolved part (List.mem_cons_of_mem _ hpart) hpr entry he
      refine ⟨state₂, gs, ds, ?_, ?_, hadvance₂⟩
      · simp only [streamFragments, hrole, not_false_eq_true, if_true, hrest]
      · rw [streamPiecesFrom, if_neg hrole]
        exact hplaced₂

/-- `compile_render_stream` on resolved tokens. -/
theorem stream_placed {node : WorkflowNode} {role : ProviderRole} {state : CompileState}
    (h : StreamResolved options state node role 0 node.promptSegments) :
    ∃ state' fragments entries, compileRenderStream node role state = .ok (state', ⟨role, fragments⟩) ∧
      Placed options state.secretContext 0 (streamPieces node role) fragments entries ∧ Advance state state' entries := by
  obtain ⟨state', fs, es, hloop, hplaced, hadvance⟩ := streamFragments_placed node.promptSegments 0 state [] h
  refine ⟨state', fs, es, ?_, hplaced, hadvance⟩
  unfold compileRenderStream
  rw [hloop]
  rfl

end Placing

/-! ## The tokens of a stream -/

def StreamPiece.token? : StreamPiece → Option RenderTokenOccurrence
  | .literal _ _ => none
  | .token occurrence => some occurrence

theorem tokens_pieces {node : WorkflowNode} {role : ProviderRole} {n : Nat} {segment : Segment} :
    ∀ (found : List (Match Char (List Char))) (cursor k : Nat),
    ((pieces segment.content.toList cursor k found).map (streamPiece node role n segment)).filterMap StreamPiece.token? =
      (found.zipIdx k).map fun entry => segmentOccurrence node role n segment entry.2 entry.1 := by
  intro found
  induction found with
  | nil =>
    intro cursor k
    rw [pieces]
    split <;> simp [streamPiece, StreamPiece.token?]
  | cons it rest ih =>
    intro cursor k
    rw [pieces, List.map_append, List.filterMap_append, List.map_cons]
    have hliteral : ((if cursor < it.start then [Piece.literal (slice segment.content.toList cursor it.start)] else []).map
        (streamPiece node role n segment)).filterMap StreamPiece.token? = [] := by
      split <;> simp [streamPiece, StreamPiece.token?]
    rw [hliteral, List.nil_append]
    have hone : (streamPiece node role n segment (.found k it)).token? =
        some (segmentOccurrence node role n segment k it) := rfl
    rw [List.filterMap_cons_some hone, ih it.stop (k + 1)]
    rfl

theorem filter_segmentOccurrences_nil {node : WorkflowNode} {role : ProviderRole} {n : Nat} {segment : Segment}
    (hrole : role ∉ targetRolesForSegment segment) :
    (iterSegmentRenderTokenOccurrences node n segment).filter (·.targetRole = role) = [] := by
  rw [List.filter_eq_nil_iff]
  intro occurrence hocc
  obtain ⟨entry, -, hmem⟩ := List.mem_flatMap.mp hocc
  obtain ⟨target, htarget, rfl⟩ := List.mem_map.mp hmem
  simp only [decide_eq_true_eq]
  rintro rfl
  exact hrole htarget

/-- The tokens of the pieces are the occurrences for the role. -/
theorem tokens_streamPiecesFrom {node : WorkflowNode} {role : ProviderRole} : ∀ (segments : List Segment) (n : Nat),
    (streamPiecesFrom node role n segments).filterMap StreamPiece.token? =
      ((segments.zipIdx n).flatMap fun part => iterSegmentRenderTokenOccurrences node part.2 part.1).filter
        (·.targetRole = role) := by
  intro segments
  induction segments with
  | nil => intro n; rfl
  | cons segment rest ih =>
    intro n
    rw [streamPiecesFrom, List.filterMap_append, ih, List.zipIdx_cons, List.flatMap_cons, List.filter_append]
    congr 1
    by_cases hrole : role ∈ targetRolesForSegment segment
    · rw [if_pos hrole, filter_segmentOccurrences hrole]
      exact tokens_pieces _ 0 0
    · rw [if_neg hrole, filter_segmentOccurrences_nil hrole]
      rfl

theorem tokens_streamPieces (node : WorkflowNode) (role : ProviderRole) :
    (streamPieces node role).filterMap StreamPiece.token? =
      (iterNodeRenderTokenOccurrences node).filter (·.targetRole = role) :=
  tokens_streamPiecesFrom node.promptSegments 0

section Entries

variable {options : CompileOptions} {secrets : Dict String SecretValue} {i : Nat} {ps : List StreamPiece}
  {fs : List Fragment} {es : List TokenCatalogEntry}

theorem Placed.entryIds (h : Placed options secrets i ps fs es) :
    es.map (·.occurrenceId) = (ps.filterMap StreamPiece.token?).map (·.occurrenceId) := by
  induction h with
  | nil => rfl
  | literal rest ih => exact ih
  | token compiled catalogued rest ih =>
    rw [List.map_cons, ih, catalogued.1]
    rfl

/-- Every entry of a stream is the entry of one of its tokens, and has a compiled fragment. -/
theorem Placed.entry_mem (h : Placed options secrets i ps fs es) :
    ∀ entry ∈ es, ∃ occurrence ∈ ps.filterMap StreamPiece.token?, ∃ fragment ∈ fs,
      EntryOf occurrence fragment.fragmentIndex entry := by
  induction h with
  | nil => simp
  | literal rest ih =>
    intro entry hentry
    obtain ⟨occurrence, hocc, fragment, hfragment, hof⟩ := ih entry hentry
    exact ⟨occurrence, hocc, fragment, List.mem_cons_of_mem _ hfragment, hof⟩
  | token compiled catalogued rest ih =>
    intro entry hentry
    rcases List.mem_cons.mp hentry with rfl | hentry
    · exact ⟨_, List.mem_cons_self, _, List.mem_cons_self, catalogued⟩
    · obtain ⟨occurrence, hocc, fragment, hfragment, hof⟩ := ih entry hentry
      exact ⟨occurrence, List.mem_cons_of_mem _ hocc, fragment, List.mem_cons_of_mem _ hfragment, hof⟩

theorem Placed.token_compiled (h : Placed options secrets i ps fs es) :
    ∀ occurrence ∈ ps.filterMap StreamPiece.token?, ∃ entry ∈ es, ∃ fragment ∈ fs,
      EntryOf occurrence fragment.fragmentIndex entry ∧ Compiled options secrets occurrence fragment.payload := by
  induction h with
  | nil => simp
  | literal rest ih =>
    intro occurrence hocc
    obtain ⟨entry, hentry, fragment, hfragment, hof⟩ := ih occurrence hocc
    exact ⟨entry, hentry, fragment, List.mem_cons_of_mem _ hfragment, hof⟩
  | token compiled catalogued rest ih =>
    intro occurrence hocc
    rcases List.mem_cons.mp hocc with rfl | hocc
    · exact ⟨_, List.mem_cons_self, _, List.mem_cons_self, catalogued, compiled⟩
    · obtain ⟨entry, hentry, fragment, hfragment, hof⟩ := ih occurrence hocc
      exact ⟨entry, List.mem_cons_of_mem _ hentry, fragment, List.mem_cons_of_mem _ hfragment, hof⟩

theorem Placed.indices (h : Placed options secrets i ps fs es) :
    fs.map (·.fragmentIndex) = List.range' i fs.length := by
  induction h with
  | nil => rfl
  | literal rest ih => simp [ih, List.range'_succ]
  | token compiled catalogued rest ih => simp [ih, List.range'_succ]

end Entries

theorem stream_entry {node : WorkflowNode} {role : ProviderRole} {options : CompileOptions}
    {secrets : Dict String SecretValue} {fs : List Fragment} {es : List TokenCatalogEntry}
    (h : Placed options secrets 0 (streamPieces node role) fs es) :
    ∀ entry ∈ es, entry.nodeId = node.id ∧ entry.targetRole = role := by
  intro entry hentry
  obtain ⟨occurrence, hocc, fragment, -, hof⟩ := h.entry_mem entry hentry
  rw [tokens_streamPieces, List.mem_filter] at hocc
  obtain ⟨hnode, -⟩ := mem_nodeOccurrences hocc.1
  rw [hof.2.1, hof.2.2.1, hnode]
  exact ⟨rfl, by simpa using hocc.2⟩

/-! ## The nodes as they are compiled -/

theorem Resolved.congr {options : CompileOptions} {state : CompileState} {a b : RenderTokenOccurrence}
    (h : Resolved options state a) (hreference : b.reference = a.reference) (hid : b.node.id = a.node.id)
    (hrole : b.targetRole = a.targetRole) (hindex : b.segmentIndex = a.segmentIndex)
    (hocc : b.occurrenceId = a.occurrenceId) : Resolved options state b := by
  unfold Resolved ValueReady resolvedFile at h ⊢
  rw [hreference, hid, hrole, hindex, hocc]
  exact h

@[simp] theorem constrained_id (limits : Dict String Nat) (node : WorkflowNode) :
    (constrained limits node).id = node.id := by
  unfold constrained
  split <;> rfl

@[simp] theorem constrained_mode (limits : Dict String Nat) (node : WorkflowNode) :
    (constrained limits node).mode = node.mode := by
  unfold constrained
  split <;> rfl

theorem instruction_front : ("\n\nExecutor findings: JSON array with at most ".toList.all fun c => c != '\x7b') = true := by
  decide +kernel

theorem instruction_back : (" items.\n".toList.all fun c => c != '\x7b') = true := by decide +kernel

/-- The guidance appended to a producer's prompt has no tokens. -/
theorem segmentMatches_instruction (maxItems : Nat) (role : PromptSegmentRole) :
    segmentMatches ⟨role, collectionConstraintInstruction maxItems⟩ = [] := by
  have hfront := List.all_eq_true.mp instruction_front
  have hback := List.all_eq_true.mp instruction_back
  refine findIter_eq_nil ?_ 0
  intro c hc
  unfold collectionConstraintInstruction at hc
  rw [String.toList_append, String.toList_append, List.mem_append, List.mem_append] at hc
  rcases hc with (hc | hc) | hc
  · simpa using hfront c hc
  · rintro rfl
    have := repr_toList_isDigit maxItems _ hc
    simp at this
  · simpa using hback c hc

theorem mem_constrained_segments {limits : Dict String Nat} {node : WorkflowNode} {part : Segment × Nat}
    (h : part ∈ (constrained limits node).promptSegments.zipIdx 0) :
    part ∈ node.promptSegments.zipIdx 0 ∨ segmentMatches part.1 = [] := by
  unfold constrained at h
  split at h
  · exact .inl h
  · rw [List.zipIdx_append, List.mem_append] at h
    rcases h with h | h
    · exact .inl h
    · rw [List.zipIdx_singleton, List.mem_singleton] at h
      rw [h]
      exact .inr (segmentMatches_instruction _ _)

theorem streamResolved_constrained {workflow : WorkflowPlan} {ancestors : Option (String → List String)}
    {options : CompileOptions} {state : CompileState}
    (hvalid : collectWorkflowValidationDiagnostics workflow ancestors = [])
    (hresolved : ∀ occurrence ∈ iterRenderTokenOccurrences workflow, Resolved options state occurrence)
    {node : WorkflowNode} (hnode : node ∈ workflow.nodes) (hmode : node.mode ≠ .input) (limits : Dict String Nat)
    (role : ProviderRole) :
    StreamResolved options state (constrained limits node) role 0 (constrained limits node).promptSegments := by
  intro part hpart hrole entry hentry
  rcases mem_constrained_segments hpart with hpart | hnone
  · have hsegment : part.1 ∈ node.promptSegments := List.fst_mem_of_mem_zipIdx hpart
    have hmem : segmentOccurrence node role part.2 part.1 entry.2 entry.1 ∈ iterRenderTokenOccurrences workflow := by
      refine List.mem_flatMap.mpr ⟨node, List.mem_filter.mpr ⟨hnode, by simpa using hmode⟩, ?_⟩
      have hfiltered := @filter_segmentOccurrences node role part.2 part.1 hrole
      have hin : segmentOccurrence node role part.2 part.1 entry.2 entry.1 ∈ ((segmentMatches part.1).zipIdx 0).map
          fun entry => segmentOccurrence node role part.2 part.1 entry.2 entry.1 := List.mem_map_of_mem hentry
      rw [← hfiltered] at hin
      exact List.mem_flatMap.mpr ⟨part, hpart, List.mem_of_mem_filter hin⟩
    refine ⟨(hresolved _ hmem).congr rfl (constrained_id limits node) rfl rfl ?_, ?_⟩
    · simp [segmentOccurrence]
    · refine supported_of_mem hvalid hnode hsegment ?_
      exact List.mem_map.mpr ⟨entry.1, List.fst_mem_of_mem_zipIdx hentry, rfl⟩
  · rw [hnone] at hentry
    simp at hentry

end Crewplane.Prompt
