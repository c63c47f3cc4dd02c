import Crewplane.Composition.Passes
/-
# Composing a workflow (`core/workflow/composition/`)

A workflow file imports others; composition walks the imports depth first, before
the local nodes of each file, and gives every node the id of its instance: the
aliases on the way down, joined by dots. A foreach node compiles its child
workflow into a template of its own, under `<group>.template`.

| here | there |
| --- | --- |
| `composeLocalNode`, `resolveBoundInputNodes` | nodes.py:17, 74 |
| `bindImportParams`, `validateImportParamsConsumed`, `attachImportPrerequisites` | imports.py:44-113 |
| `resolveForeachInputs` | foreach.py:6 |
| `materializeSelectors` | materialization.py:107 |
| `composeFile`, `composeImport`, `composeForeach` | traversal.py:113, 207, 274 |

The project is what the file system answers: which path a reference resolves to and
what a file parses to. The composer caches parsed files, hashes and source
spans; these are left out. A traversal gets one unit of fuel for each file that may
stand on the stack of imports.
-/
namespace Crewplane.Composition

open Crewplane.Lib Crewplane.Workflow Crewplane.Prompt

/-- `WorkflowNode`, by the fields composition reads or carries over. -/
structure WorkflowNode where
  id : String
  mode : NodeMode
  needs : List String := []
  worktree : Option String := none
  promptSegments : List Segment := []
  inputs : Dict String String := []
  items : Option ForeachItems := none
  workflow : Option String := none
  itemInput : Option String := none
  withParams : Dict String String := []
  deriving DecidableEq, Repr

structure WorktreeDeclaration where
  kind : String
  setupProfile : Option String := none
  createBranch : Bool := false
  branchName : Option String := none
  deriving DecidableEq, Repr

structure ImportSpec where
  importAlias : String
  rawPath : String
  withParams : Dict String String := []
  inputs : Dict String String := []
  sourcePath : String
  needs : List String := []
  deriving DecidableEq, Repr

structure NodeSpec where
  payload : WorkflowNode
  sourcePath : String
  deriving DecidableEq, Repr

/-- A parsed file; the proofs are what the frontmatter models and `parsing.py` check. -/
structure ParsedWorkflow where
  schemaVersion : String
  inputs : Dict String String := []
  worktrees : Dict String WorktreeDeclaration := []
  imports : List ImportSpec := []
  nodes : List NodeSpec
  aliases_ok : ∀ spec ∈ imports, matchesNodeId spec.importAlias = true
  import_keys : ∀ spec ∈ imports, (Dict.keys spec.withParams).Nodup ∧ (Dict.keys spec.inputs).Nodup
  foreach_keys : ∀ node ∈ nodes, (Dict.keys node.payload.withParams).Nodup ∧ (Dict.keys node.payload.inputs).Nodup
  foreach_inputs : ∀ node ∈ nodes, ∀ binding ∈ node.payload.inputs, matchesNodeId binding.2 = true

structure Project where
  files : List String
  load : String → Except String ParsedWorkflow
  resolveImportFile : String → String → Except String String
  mem_files : ∀ path workflow, load path = .ok workflow → path ∈ files

structure ComposedNode where
  payload : WorkflowNode
  sourcePath : String
  localWorktreeCount : Nat := 0
  implicitWorktreeSelector : Option String := none
  deriving DecidableEq, Repr

structure CompositionContext where
  workflow : ParsedWorkflow
  namespacePrefix : String
  inheritedParams : Dict String ParamBinding
  boundInputNodes : Dict String String
  importStack : List String
  implicitWorktreeSelector : Option String := none

structure CompositionResult where
  nodes : List ComposedNode := []
  worktrees : Dict String WorktreeDeclaration := []
  consumedParamBindings : List String := []
  deriving DecidableEq, Repr

structure ComposedForeach where
  groupId : String
  templateNamespace : String
  itemNodeId : String
  nodes : List ComposedNode
  worktrees : Dict String WorktreeDeclaration
  sharedBindings : Dict String String
  parameters : Dict String String
  deriving DecidableEq, Repr

/-- What the composer collects across files. -/
structure Composer where
  nodeSources : Dict String String := []
  rootSchemaVersion : Option String := none
  foreachTemplates : Dict String ComposedForeach := []
  activeForeach : Option String := none
  deriving DecidableEq, Repr

structure FileArgs where
  path : String
  namespacePrefix : String
  inheritedParams : Dict String ParamBinding
  boundInputs : Dict String String
  inheritedImplicitWorktreeSelector : Option String
  importStack : List String

abbrev Traverse := FileArgs → Composer → Except CompositionError (CompositionResult × Composer)

/-! ## Local nodes (nodes.py) -/

def projectRootWorktreeSelector : String := "none"

def CompositionContext.resolve (context : CompositionContext) (dependencyId : String) : String :=
  resolveDependencyId dependencyId context.namespacePrefix context.boundInputNodes

def composeWorktreeSelector (context : CompositionContext) (node : WorkflowNode) : Option String :=
  match node.worktree with
  | none => none
  | some selector =>
    if selector = projectRootWorktreeSelector then some selector
    else some (qualifyId context.namespacePrefix selector)

/-- `_implicit_worktree_selector`. -/
def implicitSelector (context : CompositionContext) (node : WorkflowNode) : Option String :=
  if node.mode = .input ∨ node.mode = .foreach ∨ node.worktree ≠ none then none else context.implicitWorktreeSelector

def rewriteItems (context : CompositionContext) : ForeachItems → ForeachItems
  | .literal count => .literal count
  | .reference text => .reference (rewriteArtifactReferences text context.namespacePrefix context.boundInputNodes)

/-- What every mode updates; a foreach node has no worktree to qualify. -/
def qualifiedNode (context : CompositionContext) (node : WorkflowNode) : WorkflowNode :=
  { node with
    id := qualifyId context.namespacePrefix node.id
    needs := node.needs.map context.resolve
    worktree := if node.mode = .foreach then node.worktree else composeWorktreeSelector context node }

/-- The `updates` of `compose_local_node` (nodes.py:33-62). -/
def updatedNode (context : CompositionContext) (sourcePath : String) (node : WorkflowNode) :
    Except CompositionError (WorkflowNode × List String) :=
  match node.mode with
  | .foreach => .ok
      ({ qualifiedNode context node with
          inputs := node.inputs.map fun binding => (binding.1, context.resolve binding.2)
          items := node.items.map (rewriteItems context) }, [])
  | .input => .ok (qualifiedNode context node, [])
  | .parallel | .sequential => do
    let (promptSegments, consumed) ← rewritePromptSegments node.promptSegments context.namespacePrefix
      context.boundInputNodes context.inheritedParams sourcePath node.id
    return ({ qualifiedNode context node with promptSegments }, consumed)

def composeLocalNode (context : CompositionContext) (node : NodeSpec) :
    Except CompositionError (ComposedNode × List String) := do
  let (payload, consumed) ← updatedNode context node.sourcePath node.payload
  return ({ payload
            sourcePath := node.sourcePath
            localWorktreeCount := context.workflow.worktrees.length
            implicitWorktreeSelector := implicitSelector context node.payload }, consumed)

/-- The loop of `resolve_bound_input_nodes` (nodes.py:84-97). -/
def bindInputNodes (sourcePath : String) (workflowInputs : Dict String String) :
    List (String × String) → Dict String String → Dict String String → Except CompositionError (Dict String String)
  | [], resolved, _ => .ok resolved
  | (inputName, sourceId) :: rest, resolved, origins =>
    match workflowInputs.get? inputName with
    | none => .error (.unknownInput sourcePath inputName)
    | some rawNodeId =>
      match resolved.get? rawNodeId with
      | none => bindInputNodes sourcePath workflowInputs rest (resolved.setItem rawNodeId sourceId)
          (origins.setItem rawNodeId inputName)
      | some target =>
        if target ≠ sourceId then
          .error (.conflictingBindings sourcePath rawNodeId (origins.getItem rawNodeId) target inputName sourceId)
        else bindInputNodes sourcePath workflowInputs rest (resolved.setItem rawNodeId sourceId) origins

def resolveBoundInputNodes (sourcePath : String) (workflowInputs boundInputs : Dict String String) :
    Except CompositionError (Dict String String) :=
  bindInputNodes sourcePath workflowInputs boundInputs [] []

/-! ## Imports (imports.py) -/

def parameterBindingId (namespacePrefix key : String) : String :=
  if namespacePrefix = "" then key else namespacePrefix ++ ":" ++ key

def bindImportParams (inheritedParams : Dict String ParamBinding) (childNamespace : String)
    (importParams : Dict String String) : Dict String ParamBinding :=
  inheritedParams.update (importParams.map fun param => (param.1, ⟨param.2, parameterBindingId childNamespace param.1⟩))

def unusedKeys (withParams : Dict String String) (childNamespace : String) (consumed : List String) : List String :=
  ((Dict.keys withParams).filter fun key => decide (parameterBindingId childNamespace key ∉ consumed)).mergeSort

def validateImportParamsConsumed (spec : ImportSpec) (childNamespace : String) (childResult : CompositionResult) :
    Except CompositionError Unit :=
  let unused := unusedKeys spec.withParams childNamespace childResult.consumedParamBindings
  require (unused = []) (.unusedParams spec.importAlias spec.sourcePath unused)

def entryIds (nodes : List ComposedNode) : List String :=
  let providers := nodes.filter fun node => node.payload.mode ≠ .input
  (providers.filter fun node => node.payload.needs.all fun need =>
    need ∉ providers.map (·.payload.id)).map (·.payload.id)

/-- `list(dict.fromkeys([*needs, *prerequisites]))`. -/
def addNeeds (needs prerequisites : List String) : List String :=
  (needs ++ prerequisites).foldl (fun kept need => if need ∈ kept then kept else kept ++ [need]) []

def attachPrerequisites (entries prerequisites : List String) (node : ComposedNode) : ComposedNode :=
  if node.payload.id ∈ entries then
    { node with payload := { node.payload with needs := addNeeds node.payload.needs prerequisites } }
  else node

def attachImportPrerequisites (childResult : CompositionResult) (prerequisites : List String) (spec : ImportSpec) :
    Except CompositionError CompositionResult :=
  if prerequisites = [] then .ok childResult
  else if entryIds childResult.nodes = [] then .error (.noEntryNodes spec.importAlias spec.sourcePath)
  else .ok { childResult with
    nodes := childResult.nodes.map (attachPrerequisites (entryIds childResult.nodes) prerequisites) }

/-! ## Foreach inputs (foreach.py) and worktrees -/

/-- The loop of `resolve_foreach_inputs` (foreach.py:10-18). -/
def checkForeachInputs (inputs : Dict String String) (group : String) :
    List String → Dict String String → Except CompositionError Unit
  | [], _ => .ok ()
  | name :: names, boundNodes =>
    match inputs.get? name with
    | none => .error (.unknownChildInput group name)
    | some nodeId =>
      match boundNodes.get? nodeId with
      | some other => .error (.sameChildNode group name other nodeId)
      | none => checkForeachInputs inputs group names (boundNodes.setItem nodeId name)

def resolveForeachInputs (workflow : ParsedWorkflow) (itemInput : String) (shared : Dict String String)
    (group : String) : Except CompositionError (String × Dict String String) := do
  checkForeachInputs workflow.inputs group (itemInput :: Dict.keys shared) []
  return (workflow.inputs.getItem itemInput,
    Dict.ofPairs (shared.map fun binding => (workflow.inputs.getItem binding.1, binding.2)))

def mergeWorktrees (first second : Dict String WorktreeDeclaration) :
    Except CompositionError (Dict String WorktreeDeclaration) := do
  let collisions := ((Dict.keys first).filter fun name => name ∈ Dict.keys second).mergeSort
  require (collisions = []) (.worktreeCollision collisions)
  return first.update second

def composeWorktreeDeclarations (context : CompositionContext) : Dict String WorktreeDeclaration :=
  context.workflow.worktrees.map fun declared => (qualifyId context.namespacePrefix declared.1, declared.2)

def contextImplicitWorktreeSelector (namespacePrefix : String) (worktrees : Dict String WorktreeDeclaration)
    (inheritedSelector : Option String) : Option String :=
  match worktrees with
  | [] => inheritedSelector
  | [declared] => some (qualifyId namespacePrefix declared.1)
  | _ => none

def needsMaterializedSelector (node : ComposedNode) (composedCount rootCount : Nat) : Bool :=
  if node.payload.mode = .input ∨ node.payload.mode = .foreach then false
  else if node.payload.worktree ≠ none then false
  else if node.localWorktreeCount = 0 then
    if node.implicitWorktreeSelector ≠ none then 1 < composedCount
    else rootCount ≠ 1 || 1 < composedCount
  else node.implicitWorktreeSelector ≠ none && 1 < composedCount

def materializeSelector (composedCount rootCount : Nat) (node : ComposedNode) : ComposedNode :=
  if needsMaterializedSelector node composedCount rootCount then
    { node with payload := { node.payload with
        worktree := some (node.implicitWorktreeSelector.getD projectRootWorktreeSelector) } }
  else node

def materializeSelectors (nodes : List ComposedNode) (composedCount rootCount : Nat) : List ComposedNode :=
  if composedCount = 0 then nodes else nodes.map (materializeSelector composedCount rootCount)

def materializeForeachTemplate (groupId itemId : String) (workflow : ParsedWorkflow) (params : Dict String ParamBinding)
    (sharedBindings : Dict String String) (composition : CompositionResult) : ComposedForeach :=
  let templateNamespace := groupId ++ ".template"
  { groupId, templateNamespace
    itemNodeId := qualifyId templateNamespace itemId
    nodes := materializeSelectors composition.nodes composition.worktrees.length workflow.worktrees.length
    worktrees := composition.worktrees
    sharedBindings
    parameters := (params.filter fun param => param.2.bindingId ∈ composition.consumedParamBindings).map fun param =>
      (param.1, param.2.value) }

/-! ## Traversal (traversal.py) -/

section Walk

variable (project : Project)

def loadWorkflowFile (path : String) : Except CompositionError ParsedWorkflow :=
  (project.load path).mapError .load

def resolveImportFile (spec : ImportSpec) : Except CompositionError String :=
  (project.resolveImportFile spec.sourcePath spec.rawPath).mapError .load

def setOrValidateRootSchema (sourcePath schemaVersion : String) (composer : Composer) :
    Except CompositionError Composer :=
  match composer.rootSchemaVersion with
  | none => .ok { composer with rootSchemaVersion := some schemaVersion }
  | some root =>
    if schemaVersion = root then .ok composer else .error (.schemaVersion sourcePath schemaVersion root)

/-- The context of a file, its schema version apart. -/
def contextOf (args : FileArgs) : Except CompositionError CompositionContext := do
  let workflow ← loadWorkflowFile project args.path
  let boundInputNodes ← resolveBoundInputNodes args.path workflow.inputs args.boundInputs
  return { workflow, boundInputNodes
           namespacePrefix := args.namespacePrefix
           inheritedParams := args.inheritedParams
           importStack := args.importStack ++ [args.path]
           implicitWorktreeSelector := contextImplicitWorktreeSelector args.namespacePrefix workflow.worktrees
             args.inheritedImplicitWorktreeSelector }

def buildContext (args : FileArgs) (composer : Composer) : Except CompositionError (CompositionContext × Composer) := do
  let workflow ← loadWorkflowFile project args.path
  let composer ← setOrValidateRootSchema args.path workflow.schemaVersion composer
  let context ← contextOf project args
  return (context, composer)

/-- `_append_node`, with the list it appends to left to the caller. -/
def registerNode (composer : Composer) (node : ComposedNode) : Except CompositionError Composer :=
  match composer.nodeSources.get? node.payload.id with
  | some existing => .error (.nodeCollision node.payload.id existing node.sourcePath)
  | none => .ok { composer with nodeSources := composer.nodeSources.setItem node.payload.id node.sourcePath }

/-- The arguments an import is traversed with (traversal.py:215-226). -/
def importArgs (context : CompositionContext) (spec : ImportSpec) (path : String) : FileArgs :=
  let childNamespace := qualifyId context.namespacePrefix spec.importAlias
  { path
    namespacePrefix := childNamespace
    inheritedParams := bindImportParams context.inheritedParams childNamespace spec.withParams
    boundInputs := spec.inputs.map fun binding => (binding.1, context.resolve binding.2)
    inheritedImplicitWorktreeSelector := context.implicitWorktreeSelector
    importStack := context.importStack }

/-- The arguments the child of a composed foreach node is traversed with (traversal.py:310-317). -/
def templateArgs (context : CompositionContext) (node : WorkflowNode) (path : String) : FileArgs :=
  let childNamespace := node.id ++ ".template"
  { path
    namespacePrefix := childNamespace
    inheritedParams := bindImportParams context.inheritedParams childNamespace node.withParams
    boundInputs := node.inputs
    inheritedImplicitWorktreeSelector := none
    importStack := context.importStack }

def foreachSpec (group : ComposedNode) (rawPath : String) : ImportSpec :=
  { importAlias := group.payload.id
    rawPath
    withParams := group.payload.withParams
    inputs := group.payload.inputs
    sourcePath := group.sourcePath }

variable (traverse : Traverse)

def composeImport (context : CompositionContext) (spec : ImportSpec) (composer : Composer) :
    Except CompositionError (CompositionResult × Composer) := do
  let path ← resolveImportFile project spec
  let prerequisites := spec.needs.map context.resolve
  let (childResult, composer) ← traverse (importArgs context spec path) composer
  validateImportParamsConsumed spec (qualifyId context.namespacePrefix spec.importAlias) childResult
  let attached ← attachImportPrerequisites childResult prerequisites spec
  return (attached, composer)

def composeImports (context : CompositionContext) :
    List ImportSpec → CompositionResult → Composer → Except CompositionError (CompositionResult × Composer)
  | [], composed, composer => .ok (composed, composer)
  | spec :: specs, composed, composer => do
    let (childResult, composer) ← composeImport project traverse context spec composer
    let worktrees ← mergeWorktrees composed.worktrees childResult.worktrees
    composeImports context specs
      { nodes := composed.nodes ++ childResult.nodes
        worktrees
        consumedParamBindings := composed.consumedParamBindings ++ childResult.consumedParamBindings } composer

def composeForeach (context : CompositionContext) (group : ComposedNode) (composer : Composer) :
    Except CompositionError (List String × Composer) :=
  let node := group.payload
  match composer.activeForeach, node.workflow, node.itemInput with
  | some active, _, _ => .error (.nestedForeach active node.id)
  | none, some rawPath, some itemInput => do
    let spec := foreachSpec group rawPath
    let path ← resolveImportFile project spec
    let child ← loadWorkflowFile project path
    let (itemId, shared) ← resolveForeachInputs child itemInput node.inputs node.id
    let args := templateArgs context node path
    let (result, composer) ← traverse args { composer with activeForeach := some node.id }
    validateImportParamsConsumed spec args.namespacePrefix result
    let template := materializeForeachTemplate node.id itemId child args.inheritedParams shared result
    return (result.consumedParamBindings,
      { composer with
          activeForeach := none
          foreachTemplates := composer.foreachTemplates.setItem node.id template })
  | none, _, _ => .error (.incompleteForeach node.id)

/-- What a composed node brings along (traversal.py:255-258). -/
def composeTemplate (context : CompositionContext) (node : ComposedNode) (composer : Composer) :
    Except CompositionError (List String × Composer) :=
  if node.payload.mode = .foreach then composeForeach project traverse context node composer else .ok ([], composer)

/-- The loop of `compose_local_nodes` (traversal.py:246-258). -/
def composeNodes (context : CompositionContext) :
    List NodeSpec → CompositionResult → Composer → Except CompositionError (CompositionResult × Composer)
  | [], composed, composer => .ok (composed, composer)
  | node :: nodes, composed, composer =>
    if node.payload.id ∈ Dict.keys context.boundInputNodes then composeNodes context nodes composed composer
    else do
      let (composedNode, consumedHere) ← composeLocalNode context node
      let composer ← registerNode composer composedNode
      let (consumedBelow, composer) ← composeTemplate project traverse context composedNode composer
      composeNodes context nodes
        { composed with
            nodes := composed.nodes ++ [composedNode]
            consumedParamBindings := composed.consumedParamBindings ++ consumedHere ++ consumedBelow } composer

def composeLocalNodes (context : CompositionContext) (composer : Composer) :
    Except CompositionError (CompositionResult × Composer) :=
  composeNodes project traverse context context.workflow.nodes { worktrees := composeWorktreeDeclarations context } composer

end Walk

def composeFile (project : Project) : Nat → Traverse
  | 0, _, _ => .error .outOfFuel
  | fuel + 1, args, composer => do
    require (args.path ∉ args.importStack) (.cycle (args.importStack ++ [args.path]))
    let (context, composer) ← buildContext project args composer
    let (importResult, composer) ← composeImports project (composeFile project fuel) context context.workflow.imports {} composer
    let (localResult, composer) ← composeLocalNodes project (composeFile project fuel) context composer
    let worktrees ← mergeWorktrees importResult.worktrees localResult.worktrees
    return ({ nodes := importResult.nodes ++ localResult.nodes
              worktrees
              consumedParamBindings := importResult.consumedParamBindings ++ localResult.consumedParamBindings }, composer)

def rootArgs (path : String) : FileArgs :=
  { path
    namespacePrefix := ""
    inheritedParams := []
    boundInputs := []
    inheritedImplicitWorktreeSelector := none
    importStack := [] }

structure ComposedWorkflowDocument where
  nodes : List ComposedNode
  worktrees : Dict String WorktreeDeclaration
  nodeSourcePaths : Dict String String
  foreachTemplates : Dict String ComposedForeach
  deriving DecidableEq, Repr

def compose (project : Project) (path : String) : Except CompositionError ComposedWorkflowDocument := do
  let rootWorkflow ← loadWorkflowFile project path
  let composer ← setOrValidateRootSchema path rootWorkflow.schemaVersion {}
  let (composition, composer) ← composeFile project (project.files.length + 1) (rootArgs path) composer
  return { nodes := materializeSelectors composition.nodes composition.worktrees.length rootWorkflow.worktrees.length
           worktrees := composition.worktrees
           nodeSourcePaths := composer.nodeSources
           foreachTemplates := composer.foreachTemplates }

end Crewplane.Composition
