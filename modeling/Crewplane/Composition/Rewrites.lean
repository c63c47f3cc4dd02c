import Crewplane.Lib.Dict
import Crewplane.Prompt.Validation
/-
# Reference and parameter rewriting (`core/workflow/composition/rewrites.py`)

Composition rewrites a prompt twice: first every artifact reference, with the ids
qualified by the namespace of the importing instance or replaced by the node that
is bound to the input, then every `param` token, with its value. The patterns are
given by what they match at the head of a text; their character classes leave one
way to read a token, so no backtracking is modelled.

The `CompositionError`s of the whole package stand here too, since both passes and
the traversal raise them.
-/
namespace Crewplane.Composition

open Crewplane.Lib Crewplane.Workflow Crewplane.Prompt

/-- Every `ValueError` of composition; `outOfFuel` is the model's own. -/
inductive CompositionError
  | load (message : String)
  | outOfFuel
  | cycle (chain : List String)
  | schemaVersion (source version root : String)
  | unknownInput (source input : String)
  | conflictingBindings (source fallback firstInput firstTarget input target : String)
  | emptyParamKey (source nodeId : String)
  | unusedParams (importAlias source : String) (keys : List String)
  | noEntryNodes (importAlias source : String)
  | nodeCollision (nodeId first second : String)
  | worktreeCollision (names : List String)
  | nestedForeach (active group : String)
  | incompleteForeach (group : String)
  | unknownChildInput (group input : String)
  | sameChildNode (group first second nodeId : String)
  deriving DecidableEq, Repr

def CompositionError.message : CompositionError → String
  | .load message => message
  | .outOfFuel => ""
  | .cycle chain => "Workflow import cycle detected: " ++ " -> ".intercalate chain
  | .schemaVersion source version root =>
    "Workflow '" ++ source ++ "' has schema_version '" ++ version ++ "', but root workflow uses '" ++ root ++ "'."
  | .unknownInput source input => "Workflow '" ++ source ++ "' does not declare input '" ++ input ++ "'."
  | .conflictingBindings source fallback firstInput firstTarget input target =>
    "Workflow '" ++ source ++ "' fallback '" ++ fallback ++ "' has conflicting bindings: input '" ++ firstInput ++
      "' uses '" ++ firstTarget ++ "', but input '" ++ input ++ "' uses '" ++ target ++ "'."
  | .emptyParamKey source nodeId =>
    "Workflow import parameter template has an empty key in '" ++ source ++ "' node '" ++ nodeId ++ "'."
  | .unusedParams importAlias source keys =>
    "Workflow import '" ++ importAlias ++ "' in '" ++ source ++ "' defines unused parameter(s): " ++ ", ".intercalate keys
  | .noEntryNodes importAlias source =>
    "Workflow import '" ++ importAlias ++ "' in '" ++ source ++ "' declares 'needs' but has no provider entry nodes."
  | .nodeCollision nodeId first second =>
    "Node ID collision after workflow composition for '" ++ nodeId ++ "': '" ++ first ++ "' and '" ++ second ++ "'."
  | .worktreeCollision names => "Worktree declaration collision after composition: " ++ ", ".intercalate names
  | .nestedForeach active group => "Foreach '" ++ active ++ "' cannot contain nested foreach '" ++ group ++ "'"
  | .incompleteForeach group => "Incomplete foreach '" ++ group ++ "'"
  | .unknownChildInput group input => "Foreach '" ++ group ++ "' has unknown child input '" ++ input ++ "'"
  | .sameChildNode group first second nodeId =>
    "Foreach '" ++ group ++ "' inputs '" ++ first ++ "' and '" ++ second ++ "' bind the same child node '" ++ nodeId ++ "'"

structure ParamBinding where
  value : String
  bindingId : String
  deriving DecidableEq, Repr

/-! ## Tokens -/

def isReferenceChar (c : Char) : Bool := isMarkerChar c || isArtifactChar c

/-- `NODE_ARTIFACT_REFERENCE_PATTERN` (syntax.py:8) at the head of a text; the capture is the id and the artifact. -/
def artifactReferenceAt : Pattern Char (String × String) := fun text =>
  match after openBraces text with
  | none => none
  | some inner =>
    let body := inner.dropWhile isSpace
    let word := body.takeWhile isReferenceChar
    match splitLastDot word with
    | none => none
    | some (id, name) =>
      match after closeBraces ((body.drop word.length).dropWhile isSpace) with
      | none => none
      | some tail =>
        if id ≠ [] ∧ name ≠ [] ∧ id.all isMarkerChar ∧ name.all isArtifactChar then
          some (text.length - tail.length - 1, String.ofList id, String.ofList name)
        else none

def paramLead : String := "param:"

/-- `PARAM_TEMPLATE_PATTERN` (syntax.py:13) at the head of a text; the capture is the key as it is written. -/
def paramTemplateAt : Pattern Char String := fun text =>
  match after openBraces text with
  | none => none
  | some inner =>
    match after paramLead (inner.dropWhile isSpace) with
    | none => none
    | some body =>
      let key := body.takeWhile fun c => c ≠ '\x7d'
      match after closeBraces (body.drop key.length) with
      | none => none
      | some tail =>
        if key ≠ [] then some (text.length - tail.length - 1, String.ofList key) else none

/-! ## Rewriting -/

def qualifyId (namePrefix nodeId : String) : String :=
  if namePrefix = "" then nodeId else namePrefix ++ "." ++ nodeId

def resolveDependencyId (dependencyId namespacePrefix : String) (boundInputNodes : Dict String String) : String :=
  match boundInputNodes.get? dependencyId with
  | some boundTarget => boundTarget
  | none => qualifyId namespacePrefix dependencyId

/-- The replacement of a reference (rewrites.py:26-34). -/
def rewrittenReference (namespacePrefix : String) (boundInputNodes : Dict String String)
    (reference : String × String) : List Char :=
  openBraces.toList ++ (resolveDependencyId reference.1 namespacePrefix boundInputNodes).toList ++
    ".".toList ++ reference.2.toList ++ closeBraces.toList

def rewriteArtifactReferences (prompt namespacePrefix : String) (boundInputNodes : Dict String String) : String :=
  String.ofList (sub artifactReferenceAt (rewrittenReference namespacePrefix boundInputNodes) 0 prompt.toList)

/-- The replacement of a parameter (rewrites.py:59-69). -/
def resolvedParam (params : Dict String ParamBinding) (sourcePath nodeId : String) (rawKey : String) :
    Except CompositionError (List Char) :=
  let key := strip rawKey
  if key = "" then .error (.emptyParamKey sourcePath nodeId)
  else match params.get? key with
    | none => .ok (openBraces.toList ++ "var:".toList ++ key.toList ++ closeBraces.toList)
    | some binding => .ok binding.value.toList

/-- The bindings that `consumed` collects: one for each bound key of the prompt. -/
def consumedBindings (params : Dict String ParamBinding) (prompt : String) : List String :=
  (findIter paramTemplateAt 0 0 prompt.toList).filterMap fun found =>
    (params.get? (strip found.capture)).map ParamBinding.bindingId

def resolveParamTemplates (prompt : String) (params : Dict String ParamBinding) (sourcePath nodeId : String) :
    Except CompositionError (String × List String) := do
  let resolved ← subM paramTemplateAt (fun _ found => resolvedParam params sourcePath nodeId found.capture) 0 0 0
    prompt.toList
  return (String.ofList resolved, consumedBindings params prompt)

/-- One iteration over the segments (rewrites.py:85-100). -/
def rewriteSegment (namespacePrefix : String) (boundInputNodes : Dict String String) (params : Dict String ParamBinding)
    (sourcePath nodeId : String) (segment : Segment) : Except CompositionError (Segment × List String) := do
  let rewrittenPrompt := rewriteArtifactReferences segment.content namespacePrefix boundInputNodes
  let (resolvedPrompt, consumed) ← resolveParamTemplates rewrittenPrompt params sourcePath nodeId
  return ({ role := segment.role, content := resolvedPrompt }, consumed)

def rewritePromptSegments (promptSegments : List Segment) (namespacePrefix : String)
    (boundInputNodes : Dict String String) (params : Dict String ParamBinding) (sourcePath nodeId : String) :
    Except CompositionError (List Segment × List String) := do
  let rewritten ← promptSegments.mapM (rewriteSegment namespacePrefix boundInputNodes params sourcePath nodeId)
  return (rewritten.map Prod.fst, rewritten.flatMap Prod.snd)

/-! ## What the patterns match -/

theorem drop_length_takeWhile (p : Char → Bool) (text : List Char) :
    text.drop (text.takeWhile p).length = text.dropWhile p := by
  have h : text.takeWhile p ++ text.dropWhile p = text := List.takeWhile_append_dropWhile
  calc text.drop (text.takeWhile p).length = (text.takeWhile p ++ text.dropWhile p).drop (text.takeWhile p).length := by
        rw [h]
    _ = text.dropWhile p := List.drop_left' rfl

theorem splitLastDot_eq_some {text id name : List Char} :
    splitLastDot text = some (id, name) ↔ text = id ++ '.' :: name ∧ '.' ∉ name := by
  unfold splitLastDot
  simp only [drop_length_takeWhile]
  constructor
  · intro h
    have hsplit := List.takeWhile_append_dropWhile (p := fun c => decide (c ≠ '.')) (l := text.reverse)
    split at h
    · simp at h
    · rename_i dot front hback
      obtain ⟨rfl, rfl⟩ := Prod.mk.inj (Option.some.inj h)
      have hdot : dot = '.' := by
        have := List.head?_dropWhile_not (fun c => decide (c ≠ '.')) text.reverse
        rw [hback] at this
        simpa using this
      rw [hback, hdot] at hsplit
      constructor
      · have := congrArg List.reverse hsplit
        simpa using this.symm
      · intro hmem
        have := List.mem_takeWhile_imp (List.mem_reverse.mp hmem)
        simp at this
  · rintro ⟨rfl, hname⟩
    have hreverse : (id ++ '.' :: name).reverse = name.reverse ++ '.' :: id.reverse := by simp
    have hfree : ∀ c ∈ name.reverse, decide (c ≠ '.') = true := by
      intro c hc
      have hc := List.mem_reverse.mp hc
      simp only [decide_eq_true_eq]
      rintro rfl
      exact hname hc
    rw [hreverse, List.dropWhile_append_of_pos hfree, List.takeWhile_append_of_pos hfree]
    simp

/-- Two braces, an id, a dot, an artifact name and two braces, with spaces inside the braces. -/
theorem artifactReferenceAt_eq_some {text : List Char} {n : Nat} {id name : String}
    (h : artifactReferenceAt text = some (n, id, name)) :
    ∃ left right tail, (∀ c ∈ left, isSpace c = true) ∧ (∀ c ∈ right, isSpace c = true) ∧
      id.toList ≠ [] ∧ name.toList ≠ [] ∧ (∀ c ∈ id.toList, isMarkerChar c = true) ∧
      (∀ c ∈ name.toList, isArtifactChar c = true) ∧
      text = openBraces.toList ++ (left ++ (id.toList ++ '.' :: name.toList) ++ right) ++ closeBraces.toList ++ tail ∧
      n + 1 + tail.length = text.length := by
  unfold artifactReferenceAt at h
  split at h
  · simp at h
  rename_i inner hopen
  rw [after_eq_some] at hopen
  dsimp only at h
  split at h
  · simp at h
  rename_i i a hword
  split at h
  · simp at h
  rename_i tail hclose
  rw [after_eq_some, drop_length_takeWhile] at hclose
  split at h
  · rename_i hparts
    obtain ⟨hi, ha, hmarker, hartifact⟩ := hparts
    simp only [Option.some.injEq, Prod.mk.injEq] at h
    obtain ⟨hn, rfl, rfl⟩ := h
    have hword := (splitLastDot_eq_some.mp hword).1
    have htext : text = openBraces.toList ++ (inner.takeWhile isSpace ++ (i ++ '.' :: a) ++
        ((inner.dropWhile isSpace).dropWhile isReferenceChar).takeWhile isSpace) ++ closeBraces.toList ++ tail := by
      calc text = openBraces.toList ++ inner := hopen
        _ = openBraces.toList ++ (inner.takeWhile isSpace ++ ((inner.dropWhile isSpace).takeWhile isReferenceChar ++
              (((inner.dropWhile isSpace).dropWhile isReferenceChar).takeWhile isSpace ++
                ((inner.dropWhile isSpace).dropWhile isReferenceChar).dropWhile isSpace))) := by
          simp only [List.takeWhile_append_dropWhile]
        _ = _ := by
          rw [hclose, hword]
          simp
    refine ⟨_, _, tail, fun c => List.mem_takeWhile_imp, fun c => List.mem_takeWhile_imp, by simpa using hi,
      by simpa using ha, by simpa using hmarker, by simpa using hartifact, by simpa using htext, ?_⟩
    have hlen := congrArg List.length htext
    simp only [List.length_append, openBraces, closeBraces] at hlen
    simp at hlen
    omega
  · simp at h

theorem paramTemplateAt_eq_some {text : List Char} {n : Nat} {key : String} :
    paramTemplateAt text = some (n, key) ↔
      ∃ left tail, (∀ c ∈ left, isSpace c = true) ∧ key.toList ≠ [] ∧ (∀ c ∈ key.toList, c ≠ '\x7d') ∧
        text = openBraces.toList ++ (left ++ paramLead.toList ++ key.toList) ++ closeBraces.toList ++ tail ∧
        n + 1 + tail.length = text.length := by
  unfold paramTemplateAt
  constructor
  · intro h
    split at h
    · simp at h
    rename_i inner hopen
    rw [after_eq_some] at hopen
    split at h
    · simp at h
    rename_i body hlead
    rw [after_eq_some] at hlead
    dsimp only at h
    split at h
    · simp at h
    rename_i tail hclose
    rw [after_eq_some, drop_length_takeWhile] at hclose
    split at h
    · rename_i hkey
      simp only [Option.some.injEq, Prod.mk.injEq] at h
      obtain ⟨hn, rfl⟩ := h
      have htext : text = openBraces.toList ++ (inner.takeWhile isSpace ++ paramLead.toList ++
          body.takeWhile fun c => decide (c ≠ '\x7d')) ++ closeBraces.toList ++ tail := by
        calc text = openBraces.toList ++ (inner.takeWhile isSpace ++ inner.dropWhile isSpace) := by
              rw [List.takeWhile_append_dropWhile, hopen]
          _ = openBraces.toList ++ (inner.takeWhile isSpace ++ (paramLead.toList ++
                (body.takeWhile (fun c => decide (c ≠ '\x7d')) ++ body.dropWhile fun c => decide (c ≠ '\x7d')))) := by
            rw [List.takeWhile_append_dropWhile (l := body), hlead]
          _ = _ := by
            rw [hclose]
            simp
      refine ⟨_, tail, fun c => List.mem_takeWhile_imp, by simpa using hkey, ?_, by simpa using htext, ?_⟩
      · intro c hc
        rw [String.toList_ofList] at hc
        simpa using List.mem_takeWhile_imp hc
      · have hlen := congrArg List.length htext
        simp only [List.length_append, openBraces, closeBraces] at hlen
        simp at hlen
        omega
    · simp at h
  · rintro ⟨left, tail, hleft, hkey, hclean, rfl, hn⟩
    have hopen : after openBraces (openBraces.toList ++ (left ++ paramLead.toList ++ key.toList) ++
        closeBraces.toList ++ tail) = some (left ++ (paramLead.toList ++ (key.toList ++ (closeBraces.toList ++ tail)))) := by
      rw [after_eq_some]
      simp
    have hlead : (left ++ (paramLead.toList ++ (key.toList ++ (closeBraces.toList ++ tail)))).dropWhile isSpace =
        paramLead.toList ++ (key.toList ++ (closeBraces.toList ++ tail)) := by
      rw [List.dropWhile_append_of_pos hleft]
      rfl
    have hafter : after paramLead (paramLead.toList ++ (key.toList ++ (closeBraces.toList ++ tail))) =
        some (key.toList ++ (closeBraces.toList ++ tail)) := after_eq_some.mpr rfl
    have hclean' : ∀ c ∈ key.toList, decide (c ≠ '\x7d') = true := by simpa using hclean
    have htake : (key.toList ++ (closeBraces.toList ++ tail)).takeWhile (fun c => decide (c ≠ '\x7d')) = key.toList := by
      rw [List.takeWhile_append_of_pos hclean']
      simp [closeBraces]
    have hclose : after closeBraces (closeBraces.toList ++ tail) = some tail := after_eq_some.mpr rfl
    simp only [hopen, hlead, hafter, htake, List.drop_left' rfl, hclose, if_pos hkey, String.ofList_toList]
    congr 2
    omega

end Crewplane.Composition
