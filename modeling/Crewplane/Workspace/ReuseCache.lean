import Crewplane.Lib.Text
import Crewplane.Lib.Dict
import Crewplane.Lib.Effects
/-
# The reuse cache of worktree checkouts (runtime/workspace/worktree/cache.py)

A checkout is stored after a success, leased to the next invocation that asks for the same
logical worktree, and cleaned up in the end. The cache keeps five tables: `entries` by
cache key, the leases and the failed clean-ups by resolved workspace path, the state paths
recorded for each workspace, and the workspaces whose removal has completed.

What the cache calls (`path_is_absent`, `remove_worktree_workspace`,
`update_workspace_retention`, `Path.exists`) may answer anything or raise at any point: a
`World` fixes the answers for one call of the cache. A path is its text, and the identity
of a workspace is its path after `Path.resolve(strict=False)`, the parameter `resolve`. The trace
records what the calls did outside the cache.
-/
namespace Crewplane.Workspace

open Crewplane.Lib

abbrev Path := String
abbrev CacheKey := String × String × String

/-- The text of an exception. -/
abbrev Failure := String

structure WorktreeSourceRef where
  sourceCommit : String
  sourceTree : String
deriving DecidableEq, Repr

structure ReusableWorktreeCheckout where
  nodeId : String
  logicalWorktreeName : String
  workspacePath : Path
  checkoutRoot : Path
  sourceCommit : String
  sourceTree : String
  statePath : Path
  cleanupOnSuccess : Bool
  repositoryId : String
  runKeyName : String
deriving DecidableEq, Repr

structure WorktreeReuseCleanupResult where
  errors : List Failure
  updatedStatePaths : List Path
deriving DecidableEq, Repr

/-- The tables; the sets are lists without order. -/
structure WorktreeReuseCache where
  entries : Dict CacheKey ReusableWorktreeCheckout
  leasedEntries : Dict Path ReusableWorktreeCheckout
  failedCleanupEntries : Dict Path ReusableWorktreeCheckout
  statePathsByWorkspace : Dict Path (List Path)
  physicallyRemovedWorkspaces : List Path
  pendingUpdatedStatePaths : List Path
deriving DecidableEq, Repr

/-- What a call did outside the cache: it asked git to remove a workspace, saw the removal
completed, marked a state path deleted, or returned as a clean-up of a workspace. -/
inductive Event where
  | attempted (workspace : Path)
  | removed (workspace : Path)
  | marked (statePath : Path)
  | reported (workspace : Path)
deriving DecidableEq, Repr

structure Machine where
  cache : WorktreeReuseCache
  trace : List Event
deriving DecidableEq, Repr

/-- The answers of the outside to one call: of a checkout's `exists()`, of the two looks at a
workspace path around its removal, of the removal, and of the update of a state path. -/
structure World where
  checkoutExists : Path → Except Failure Bool
  absentBefore : Path → Except Failure Bool
  removal : Path → Except Failure Unit
  absentAfter : Path → Except Failure Bool
  update : Path → Path → Except Failure Unit

abbrev Act := EStateM Failure Machine

def WorktreeReuseCache.init : WorktreeReuseCache := ⟨[], [], [], [], [], []⟩

def Machine.init : Machine := ⟨.init, []⟩

def modifyCache (f : WorktreeReuseCache → WorktreeReuseCache) : Act Unit :=
  modify fun s => { s with cache := f s.cache }

def emit (event : Event) : Act Unit := modify fun s => { s with trace := s.trace ++ [event] }

/-- `tuple(sorted(set(paths), key=as_posix))`. -/
def sortedUniquePaths (paths : List Path) : List Path := paths.dedup.insertionSort fun a b => a.toList ≤ b.toList

def matchesSource (entry : ReusableWorktreeCheckout) (sourceRef : WorktreeSourceRef) : Bool :=
  entry.sourceCommit = sourceRef.sourceCommit && entry.sourceTree = sourceRef.sourceTree

def entryCacheKey (entry : ReusableWorktreeCheckout) : Except Failure CacheKey :=
  if entry.repositoryId = "" ∨ entry.runKeyName = "" then
    throw "Reusable workspace lacks repository and run ownership."
  else pure (entry.repositoryId, entry.runKeyName, entry.logicalWorktreeName)

section Operations

variable (resolve : Path → Path)

def workspaceKey (entry : ReusableWorktreeCheckout) : Path := resolve entry.workspacePath

/-- `_unique_entries`: the last entry of a workspace, at the place of the first. -/
def uniqueEntries (entries : List ReusableWorktreeCheckout) : List ReusableWorktreeCheckout :=
  (Dict.ofPairs (entries.map fun entry => (workspaceKey resolve entry, entry))).values

/-! ## The tables -/

def WorktreeReuseCache.statePaths (c : WorktreeReuseCache) (entryKey : Path) : List Path :=
  c.statePathsByWorkspace.getItem entryKey

def WorktreeReuseCache.rememberStatePath (c : WorktreeReuseCache) (entryKey statePath : Path) : WorktreeReuseCache :=
  { c with statePathsByWorkspace := c.statePathsByWorkspace.setItem entryKey ((c.statePaths entryKey).insert statePath) }

def WorktreeReuseCache.statePathsForEntry (c : WorktreeReuseCache) (entry : ReusableWorktreeCheckout) : List Path :=
  (c.statePaths (workspaceKey resolve entry)).insert entry.statePath

def WorktreeReuseCache.entryForWorkspace (c : WorktreeReuseCache) (workspacePath : Path) :
    Option ReusableWorktreeCheckout :=
  (c.leasedEntries.get? (resolve workspacePath)).or <|
    (c.failedCleanupEntries.get? (resolve workspacePath)).or <|
      c.entries.values.find? fun entry => workspaceKey resolve entry = resolve workspacePath

def WorktreeReuseCache.retainFailedCleanupEntry (c : WorktreeReuseCache) (entry : ReusableWorktreeCheckout) :
    WorktreeReuseCache :=
  { c with
    leasedEntries := c.leasedEntries.erase (workspaceKey resolve entry)
    failedCleanupEntries := c.failedCleanupEntries.setItem (workspaceKey resolve entry) entry }

def WorktreeReuseCache.rememberPendingUpdatedStatePaths (c : WorktreeReuseCache) (paths : List Path) :
    WorktreeReuseCache :=
  { c with pendingUpdatedStatePaths := c.pendingUpdatedStatePaths ∪ paths }

/-- `_forget_entry`, once the entry has a cache key. -/
def WorktreeReuseCache.forget (c : WorktreeReuseCache) (cacheKey : CacheKey) (entry : ReusableWorktreeCheckout) :
    WorktreeReuseCache :=
  let entryKey := workspaceKey resolve entry
  let cached := (c.entries.get? cacheKey).any fun cached => cached.workspacePath = entry.workspacePath
  { c with
    entries := if cached then c.entries.erase cacheKey else c.entries
    leasedEntries := c.leasedEntries.erase entryKey
    failedCleanupEntries := c.failedCleanupEntries.erase entryKey
    statePathsByWorkspace := c.statePathsByWorkspace.erase entryKey
    physicallyRemovedWorkspaces := c.physicallyRemovedWorkspaces.filter (· ≠ entryKey) }

/-- `discard_workspace`. -/
def WorktreeReuseCache.discard (c : WorktreeReuseCache) (resolved : Path) : WorktreeReuseCache :=
  { c with
    entries := c.entries.filter fun cached => workspaceKey resolve cached.2 ≠ resolved
    leasedEntries := c.leasedEntries.erase resolved
    failedCleanupEntries := c.failedCleanupEntries.erase resolved
    statePathsByWorkspace := c.statePathsByWorkspace.erase resolved
    physicallyRemovedWorkspaces := c.physicallyRemovedWorkspaces.filter (· ≠ resolved) }

/-- The part of `take` under the lock that leases an entry. -/
def WorktreeReuseCache.lease (c : WorktreeReuseCache) (entry : ReusableWorktreeCheckout) : WorktreeReuseCache :=
  WorktreeReuseCache.rememberStatePath
    { c with leasedEntries := c.leasedEntries.setItem (workspaceKey resolve entry) entry }
    (workspaceKey resolve entry) entry.statePath

/-- The part of `store` under the lock. -/
def WorktreeReuseCache.put (c : WorktreeReuseCache) (cacheKey : CacheKey) (entry : ReusableWorktreeCheckout) :
    WorktreeReuseCache :=
  let entryKey := workspaceKey resolve entry
  let remembered := match c.leasedEntries.get? entryKey with
    | some leased => c.rememberStatePath entryKey leased.statePath
    | none => c
  let remembered := remembered.rememberStatePath entryKey entry.statePath
  { remembered with
    entries := c.entries.setItem cacheKey entry
    leasedEntries := c.leasedEntries.erase entryKey }

/-! ## Clean-up of one entry -/

variable (world : World)

def forgetEntry (entry : ReusableWorktreeCheckout) : Act Unit := do
  let cacheKey ← answer (entryCacheKey entry)
  modifyCache fun c => c.forget resolve cacheKey entry

def requireAbsent (absent : Except Failure Bool) (expected : Bool) (message : Failure) : Act Unit := do
  let seen ← answer absent
  if seen = expected then pure () else throw message

def removeEntryWorkspace (entry : ReusableWorktreeCheckout) : Act Unit := do
  let entryKey := workspaceKey resolve entry
  let s ← get
  if entryKey ∈ s.cache.physicallyRemovedWorkspaces then
    requireAbsent (world.absentBefore entry.workspacePath) true
      "Reusable workspace reappeared after physical cleanup."
  else
    requireAbsent (world.absentBefore entry.workspacePath) false
      "Reusable workspace is absent without completed cleanup evidence."
    emit (.attempted entryKey)
    answer (world.removal entry.workspacePath)
    requireAbsent (world.absentAfter entry.workspacePath) true "Reusable workspace cleanup left its path present."
    emit (.removed entryKey)
    modifyCache fun c =>
      { c with physicallyRemovedWorkspaces := c.physicallyRemovedWorkspaces.insert entryKey }

def markDeleted (entryKey statePath : Path) : Act Unit := do
  answer (world.update entryKey statePath)
  emit (.marked statePath)

def updateDeletedStatePaths (entryKey : Path) (statePaths : List Path) : Act (List Path) := do
  let ordered := sortedUniquePaths statePaths
  let _ ← ordered.mapM (markDeleted world entryKey)
  pure ordered

/-- The removal of an entry's workspace and the update of its state paths. -/
def removeAndMark (entry : ReusableWorktreeCheckout) (statePaths : List Path) : Act (List Path) := do
  removeEntryWorkspace resolve world entry
  updateDeletedStatePaths world (workspaceKey resolve entry) statePaths

def cleanupEntry (entry : ReusableWorktreeCheckout) : Act (List Path) := do
  let s ← get
  let statePaths := s.cache.statePathsForEntry resolve entry
  if entry.cleanupOnSuccess then
    let updated ← removeAndMark resolve world entry statePaths
    forgetEntry resolve entry
    emit (.reported (workspaceKey resolve entry))
    pure updated
  else
    forgetEntry resolve entry
    pure []

/-- `cleanup_entry` in a `try` whose handler retains the entry. -/
def cleanupRetaining (entry : ReusableWorktreeCheckout) : Act (Except Failure (List Path)) :=
  tryCatch (do
    let updated ← cleanupEntry resolve world entry
    pure (.ok updated)) fun failure => do
      modifyCache fun c => c.retainFailedCleanupEntry resolve entry
      pure (.error failure)

def cleanupEntryBestEffort (entry : ReusableWorktreeCheckout) : Act (Option Failure) := do
  match ← cleanupRetaining resolve world entry with
  | .ok updated =>
    modifyCache fun c => c.rememberPendingUpdatedStatePaths updated
    pure none
  | .error failure => pure (some failure)

/-! ## The operations -/

/-- Whether `take` may hand the entry out. -/
def reusable (entry : ReusableWorktreeCheckout) (sourceRef : WorktreeSourceRef) : Act Bool :=
  if matchesSource entry sourceRef then answer (world.checkoutExists entry.checkoutRoot) else pure false

def takeEntry (cacheKey : CacheKey) (sourceRef : WorktreeSourceRef) (entry : ReusableWorktreeCheckout) :
    Act (Option ReusableWorktreeCheckout) := do
  modifyCache fun c => { c with entries := c.entries.erase cacheKey }
  let fits ← reusable world entry sourceRef
  if fits then
    modifyCache fun c => c.lease resolve entry
    pure (some entry)
  else
    let _ ← cleanupEntryBestEffort resolve world entry
    pure none

def take (logicalWorktreeName : String) (sourceRef : WorktreeSourceRef) (repositoryId runKeyName : String) :
    Act (Option ReusableWorktreeCheckout) := do
  let cacheKey := (repositoryId, runKeyName, logicalWorktreeName)
  let s ← get
  match s.cache.entries.get? cacheKey with
  | none => pure none
  | some entry => takeEntry resolve world cacheKey sourceRef entry

def store (entry : ReusableWorktreeCheckout) : Act Unit := do
  let cacheKey ← answer (entryCacheKey entry)
  let s ← get
  modifyCache fun c => c.put resolve cacheKey entry
  match s.cache.entries.get? cacheKey with
  | none => pure ()
  | some previous =>
    if previous.workspacePath ≠ entry.workspacePath then
      let _ ← cleanupEntryBestEffort resolve world previous
      pure ()
    else pure ()

/-- The entry of a workspace that the cache owns, the given state path recorded for it. -/
def ownedEntry (workspacePath : Path) (statePath : Option Path) : Act (Option ReusableWorktreeCheckout) := do
  let s ← get
  match s.cache.entryForWorkspace resolve workspacePath, statePath with
  | some entry, some statePath =>
    modifyCache fun c => c.rememberStatePath (workspaceKey resolve entry) statePath
    pure (some entry)
  | found, _ => pure found

def cleanupOwned (entry : ReusableWorktreeCheckout) : Act (List Path) := do
  let s ← get
  let statePaths := s.cache.statePathsForEntry resolve entry
  let updated ← tryCatch (removeAndMark resolve world entry statePaths) fun failure => do
    modifyCache fun c => c.retainFailedCleanupEntry resolve entry
    throw failure
  forgetEntry resolve entry
  emit (.reported (workspaceKey resolve entry))
  modifyCache fun c => c.rememberPendingUpdatedStatePaths updated
  pure updated

def cleanupWorkspace (workspacePath : Path) (statePath : Option Path) : Act (List Path) := do
  match ← ownedEntry resolve workspacePath statePath with
  | none => pure []
  | some entry => cleanupOwned resolve world entry

def deferWorkspaceCleanup (workspacePath statePath : Path) : Act Bool := do
  match ← ownedEntry resolve workspacePath (some statePath) with
  | none => pure false
  | some entry =>
    modifyCache fun c => c.retainFailedCleanupEntry resolve entry
    pure true

def discardWorkspace (workspacePath : Path) : Act Unit :=
  modifyCache fun c => c.discard resolve (resolve workspacePath)

def WorktreeReuseCache.cleanable (c : WorktreeReuseCache) : List ReusableWorktreeCheckout :=
  uniqueEntries resolve (c.entries.values ++ c.failedCleanupEntries.values)

def leasedMessage (entry : ReusableWorktreeCheckout) : Failure :=
  "Reusable workspace remains leased by an unresolved invocation: " ++ entry.workspacePath ++ "."

def cleanupAll : Act WorktreeReuseCleanupResult := do
  let s ← get
  modifyCache fun c => { c with pendingUpdatedStatePaths := [] }
  let outcomes ← (s.cache.cleanable resolve).mapM (cleanupRetaining resolve world)
  let failures := outcomes.filterMap fun outcome => match outcome with
    | .ok _ => none
    | .error failure => some failure
  let updated := outcomes.flatMap fun outcome => match outcome with
    | .ok updated => updated
    | .error _ => []
  pure {
    errors := (uniqueEntries resolve s.cache.leasedEntries.values).map leasedMessage ++ failures
    updatedStatePaths := sortedUniquePaths (s.cache.pendingUpdatedStatePaths ++ updated) }

def cleanupNodeBestEffort (nodeId : String) : Act (List Failure) := do
  let s ← get
  let outcomes ← ((s.cache.cleanable resolve).filter fun entry => entry.nodeId = nodeId).mapM
    (cleanupEntryBestEffort resolve world)
  pure (outcomes.filterMap id)

end Operations

/-! ## Runs -/

inductive Request where
  | take (logicalWorktreeName : String) (sourceRef : WorktreeSourceRef) (repositoryId runKeyName : String)
  | store (entry : ReusableWorktreeCheckout)
  | deferWorkspaceCleanup (workspacePath statePath : Path)
  | cleanupWorkspace (workspacePath : Path) (statePath : Option Path)
  | cleanupEntry (entry : ReusableWorktreeCheckout)
  | cleanupNodeBestEffort (nodeId : String)
  | cleanupAll
  | discardWorkspace (workspacePath : Path)
deriving DecidableEq, Repr

structure Call where
  request : Request
  world : World

/-- What a call answers. -/
inductive Reply where
  | checkout (entry : Option ReusableWorktreeCheckout)
  | done
  | deferred (owned : Bool)
  | updated (statePaths : List Path)
  | failures (errors : List Failure)
  | cleanup (result : WorktreeReuseCleanupResult)
deriving DecidableEq, Repr

def Call.perform (resolve : Path → Path) (call : Call) : Act Reply :=
  match call.request with
  | .take name sourceRef repositoryId runKeyName =>
    .checkout <$> take resolve call.world name sourceRef repositoryId runKeyName
  | .store entry => do
    store resolve call.world entry
    pure .done
  | .deferWorkspaceCleanup workspacePath statePath => .deferred <$> deferWorkspaceCleanup resolve workspacePath statePath
  | .cleanupWorkspace workspacePath statePath =>
    .updated <$> cleanupWorkspace resolve call.world workspacePath statePath
  | .cleanupEntry entry => .updated <$> cleanupEntry resolve call.world entry
  | .cleanupNodeBestEffort nodeId => .failures <$> cleanupNodeBestEffort resolve call.world nodeId
  | .cleanupAll => .cleanup <$> cleanupAll resolve call.world
  | .discardWorkspace workspacePath => do
    discardWorkspace resolve workspacePath
    pure .done

/-- The machine after a call, whether it returned or raised. -/
def step (resolve : Path → Path) (s : Machine) (call : Call) : Machine :=
  match call.perform resolve s with
  | .ok _ s' => s'
  | .error _ s' => s'

end Crewplane.Workspace
