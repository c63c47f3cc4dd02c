import Crewplane.Lib.Threads
import Crewplane.Workspace.RefNames
/-
# Internal refs and their evidence (runtime/workspace/worktree/ref_publication.py, temporary_refs.py, lineage.py)

The programs that create and delete refs of a run, command by command. A command is a step on the repository and on the
state file of the invocation (or the evidence file of an artifact consumer) that the program belongs to. Every command can
fail; a transaction or a write can be carried out and be reported as failed all the same.

| here | there |
| --- | --- |
| `publishResultRefs`                                | ref_publication.py:50-119, 300-400 |
| `reconcileResultRefPublication`                    | ref_publication.py:122-257 |
| `importSourceBundle`, `deleteTemporaryImportRefs`  | temporary_refs.py:73-201 |
| `reconcileTemporaryImportRefs`                     | temporary_refs.py:204-309 |
| `withSourceCommit`                                 | lineage.py:36-195 |
| `reconcileRefCleanupRecord`                        | ref_cleanup.py:133-188 |

The payload of a state file is what the program itself wrote, so its fields have their types. Locks do not keep third
parties from the refs; taking one is a command that can fail.
-/
namespace Crewplane.Workspace

open Crewplane.Lib

/-! ## The evidence -/

inductive RefPublicationPhase
  | prepared | published | removed
  deriving DecidableEq, Repr

structure RefPublicationDestination where
  name : Text
  targetOid : Text
  expectedOldOid : Option Text
  deriving DecidableEq, Repr

/-- The `ref_publication` of a state; its identity fields are those of the state. -/
structure RefPublication where
  phase : RefPublicationPhase
  candidate : RefPublicationDestination
  result : RefPublicationDestination
  deriving DecidableEq, Repr

def RefPublication.destinations (publication : RefPublication) : List RefPublicationDestination :=
  [publication.candidate, publication.result]

inductive ClaimPhase
  | prepared | removed
  deriving DecidableEq, Repr

/-- A claim of `temporary_refs`; its owner fields are those of the state. -/
structure TemporaryRefClaim where
  phase : ClaimPhase
  name : Text
  targetOid : Text
  deriving DecidableEq, Repr

/-- A state file, by what the refs need. -/
structure WorkspaceState where
  runKeyName : Text
  invocation : InvocationIdentity
  repositoryId : Text
  refPublication : Option RefPublication := none
  temporaryRefs : Option (List TemporaryRefClaim) := none
  deriving DecidableEq

/-! ## The commands -/

inductive RefValue
  | direct (oid : Text)
  | symbolic (target : Text)
  deriving DecidableEq, Repr

/-- One line of `git update-ref --stdin` with `option no-deref`; no old value is the zero oid. -/
inductive RefOperation
  | verify (name : Text) (old : Option Text)
  | create (name : Text) (new : Text)
  | delete (name : Text) (old : Text)
  deriving DecidableEq, Repr

inductive RefCommand
  | readState
  | stateExists
  | writeState (payload : WorkspaceState)
  /-- `edit_workspace_state`. -/
  | editState (edit : WorkspaceState → Except String WorkspaceState)
  | unlinkState
  /-- `direct_ref_oid`. -/
  | refOid (name : Text)
  | transaction (operations : List RefOperation)
  /-- A command that changes neither refs nor evidence: a lock, a check of git, a bundle, what a consumer does. -/
  | other
  | newImportId

abbrev RefCommand.Answer : RefCommand → Type
  | readState => Except String WorkspaceState
  | stateExists => Bool
  | writeState _ | editState _ | unlinkState | transaction _ => Except String Unit
  | refOid _ => Except String (Option Text)
  | other => Except String Bool
  | newImportId => Text

abbrev RefProg (α : Type) := Prog RefCommand RefCommand.Answer String α

namespace RefProg

def readState : RefProg WorkspaceState := .call .readState .ofExcept
def stateExists : RefProg Bool := .call .stateExists .ret
def writeState (payload : WorkspaceState) : RefProg Unit := .call (.writeState payload) .ofExcept
def editState (edit : WorkspaceState → Except String WorkspaceState) : RefProg Unit := .call (.editState edit) .ofExcept
def unlinkState : RefProg Unit := .call .unlinkState .ofExcept
def refOid (name : Text) : RefProg (Option Text) := .call (.refOid name) .ofExcept
def transaction (operations : List RefOperation) : RefProg Unit := .call (.transaction operations) .ofExcept
def newImportId : RefProg Text := .call .newImportId .ret

/-- A command whose answer does not matter, such as taking a lock. -/
def other : RefProg Unit := .call .other fun answer => match answer with
  | .ok _ => .ret ()
  | .error e => .raise e

/-- `if not <answer of git>: raise RuntimeError(message)`. -/
def check (message : String) : RefProg Unit := .call .other fun answer => match answer with
  | .ok true => .ret ()
  | .ok false => .raise message
  | .error e => .raise e

end RefProg

open RefProg

/-- `checked_ref`. -/
def checkedRef (ref : Text) : RefProg Text := do
  check ("Unsafe workspace ref name: " ++ String.ofList ref)
  return ref

/-! ## The evidence of publications (runtime/workspace/state_evidence.py) -/

/-- `update_workspace_ref_publication`. -/
def setRefPublication (publication : RefPublication) (payload : WorkspaceState) : Except String WorkspaceState :=
  match payload.refPublication with
  | none => .ok { payload with refPublication := some publication }
  | some existing =>
    if existing = publication then .ok payload else .error "Workspace ref publication evidence is immutable."

def phaseTransition (current phase : RefPublicationPhase) : Bool :=
  match current, phase with
  | .prepared, .published | .prepared, .removed | .published, .removed => true
  | _, _ => false

/-- `update_workspace_ref_publication_phase`, to `published` or `removed`. -/
def setRefPublicationPhase (phase : RefPublicationPhase) (payload : WorkspaceState) : Except String WorkspaceState :=
  match payload.refPublication with
  | none => .error "Workspace state lacks ref publication evidence."
  | some publication =>
    if phase ≠ publication.phase && !phaseTransition publication.phase phase then .error "Invalid ref publication phase transition."
    else .ok { payload with refPublication := some { publication with phase := phase } }

/-- `record_workspace_temporary_ref`. -/
def recordTemporaryRef (refName targetOid : Text) (payload : WorkspaceState) : Except String WorkspaceState :=
  let claims := payload.temporaryRefs.getD []
  if claims.any fun claim => claim.name = [] || claim.targetOid = [] then .error "Workspace temporary ref evidence is invalid."
  else
    match claims.filter fun claim => claim.name = refName with
    | [] => .ok { payload with temporaryRefs := some (claims ++ [⟨.prepared, refName, targetOid⟩]) }
    | [claim] =>
      if claim.targetOid ≠ targetOid then .error "Workspace temporary ref evidence conflicts."
      else .ok { payload with temporaryRefs := some claims }
    | _ => .error "Workspace temporary ref evidence is ambiguous."

/-- `mark_workspace_temporary_ref_removed`. -/
def markTemporaryRefRemoved (refName : Text) (payload : WorkspaceState) : Except String WorkspaceState :=
  match payload.temporaryRefs with
  | none => .error "Workspace temporary ref evidence is missing."
  | some claims =>
    if claims.any fun claim => claim.name = [] || claim.targetOid = [] then .error "Workspace temporary ref evidence is invalid."
    else if (claims.filter fun claim => claim.name = refName).length ≠ 1 then .error "Workspace temporary ref evidence is ambiguous."
    else .ok { payload with
      temporaryRefs := some (claims.map fun claim => if claim.name = refName then { claim with phase := .removed } else claim) }

/-! ## Result refs -/

/-- `WorktreeCaptureRequest`, by what a publication needs; `protectedRefs` are the scopes with what they must be. -/
structure WorktreeCaptureRequest where
  runKeyName : Text
  invocation : InvocationIdentity
  repositoryId : Text
  protectedRefs : List (Text × Option Text)

section Publication

variable (sha256 : Text → Text)

/-- `_result_ref_destinations`. -/
def resultRefDestinations (request : WorktreeCaptureRequest) (candidateCommit resultCommit : Text) :
    RefProg (RefPublicationDestination × RefPublicationDestination) := do
  let names := resultRefNames sha256 request.runKeyName request.invocation.nodeId (invocationSlug sha256 request.invocation)
  let candidateRef ← checkedRef names.1
  let resultRef ← checkedRef names.2
  return (⟨candidateRef, candidateCommit, none⟩, ⟨resultRef, resultCommit, none⟩)

/-- `_persist_prepared_publication`. -/
def persistPreparedPublication (request : WorktreeCaptureRequest)
    (destinations : RefPublicationDestination × RefPublicationDestination) : RefProg Unit := do
  let state ← readState
  check "Workspace state contract."
  if ¬(state.runKeyName = request.runKeyName ∧ state.invocation.nodeId = request.invocation.nodeId ∧
      state.invocation.taskId = request.invocation.taskId) then
    .raise "Workspace ref publication identity is contradictory."
  else
    editState (setRefPublication ⟨.prepared, destinations.1, destinations.2⟩)

def requireAbsentDestination (destination : RefPublicationDestination) : RefProg Unit := do
  let current ← refOid destination.name
  if current.isSome then .raise ("Workspace result ref already exists: " ++ String.ofList destination.name ++ ".") else return ()

def protectedRefVerifications (destinations : List RefPublicationDestination) (protectedRefs : List (Text × Option Text)) :
    List RefOperation :=
  (protectedRefs.filter fun scope => !((destinations.map (·.name)).contains scope.1)).map fun scope => .verify scope.1 scope.2

/-- `_publish_destinations`. -/
def publishDestinations (request : WorktreeCaptureRequest) (destinations : List RefPublicationDestination) : RefProg Unit := do
  other
  Prog.each requireAbsentDestination destinations
  transaction (protectedRefVerifications destinations request.protectedRefs ++
    destinations.map fun destination => .create destination.name destination.targetOid)

/-- `_matching_destinations`. -/
def matchingDestination (destination : RefPublicationDestination) : RefProg Bool := do
  let current ← refOid destination.name
  return current = some destination.targetOid

/-- `_mismatched_destinations`. -/
def mismatchedDestination (destination : RefPublicationDestination) : RefProg Bool := do
  let current ← refOid destination.name
  return current.isSome && current ≠ some destination.targetOid

/-- `_remaining_destinations`. -/
def remainingDestination (destination : RefPublicationDestination) : RefProg Bool := do
  let current ← refOid destination.name
  return current.isSome

/-- `tuple(d for d in destinations if <test with commands>)`. -/
def select (test : RefPublicationDestination → RefProg Bool) :
    List RefPublicationDestination → RefProg (List RefPublicationDestination)
  | [] => return []
  | destination :: rest => do
    let chosen ← test destination
    let others ← select test rest
    return if chosen then destination :: others else others

/-- `_require_owned_publication_destinations`. -/
def requireOwnedDestinations (payload : WorkspaceState) (publication : RefPublication) : RefProg Unit := do
  let expected := resultRefNames sha256 payload.runKeyName payload.invocation.nodeId (invocationSlug sha256 payload.invocation)
  if (publication.candidate.name, publication.result.name) ≠ expected then
    .raise "Workspace result refs escape their invocation scope."
  else do
    check ("Unsafe workspace ref name: " ++ String.ofList expected.1)
    check ("Unsafe workspace ref name: " ++ String.ofList expected.2)

def deleteTransaction (destinations : List RefPublicationDestination) : RefProg Unit :=
  transaction (destinations.map fun destination => .delete destination.name destination.targetOid)

/-- `reconcile_result_ref_publication`. -/
def reconcileResultRefPublication : RefProg Nat := do
  let payload ← readState
  check "Workspace ref publication repository identity changed."
  match payload.refPublication with
  | none => return 0
  | some publication => do
    other
    requireOwnedDestinations sha256 payload publication
    let matching ← select matchingDestination publication.destinations
    let mismatched ← select mismatchedDestination publication.destinations
    (if matching = [] then return () else deleteTransaction matching : RefProg Unit)
    let remaining ← select remainingDestination publication.destinations
    if mismatched ++ remaining ≠ [] then
      .raise "Workspace result refs moved or remain after exact-OID cleanup."
    else do
      editState (setRefPublicationPhase .removed)
      return matching.length

/-- `publish_result_refs`. -/
def publishResultRefs (request : WorktreeCaptureRequest) (candidateCommit resultCommit : Text) : RefProg (Text × Text) := do
  let destinations ← resultRefDestinations sha256 request candidateCommit resultCommit
  persistPreparedPublication request destinations
  publishDestinations request [destinations.1, destinations.2]
  (editState (setRefPublicationPhase .published)).rescue fun phaseError => do
    ((do let _ ← reconcileResultRefPublication sha256) : RefProg Unit).rescue fun _ => .ret ()
    .raise phaseError
  return (destinations.1.name, destinations.2.name)

/-- `_publish_capture_result`: a bundle of the result is written afterwards. -/
def publishCaptureResult (request : WorktreeCaptureRequest) (resultCommit : Text) : RefProg Unit := do
  let _ ← publishResultRefs sha256 request resultCommit resultCommit
  other.rescue fun failure => do
    ((do let _ ← reconcileResultRefPublication sha256) : RefProg Unit).rescue fun _ => .ret ()
    .raise failure

/-! ## Temporary refs -/

structure TemporaryImportRef where
  name : Text
  targetOid : Text
  deriving DecidableEq, Repr

/-- `TemporaryRefOwner`: what an evidence file that has no state of its own starts with. -/
structure TemporaryRefOwner where
  initialPayload : Option WorkspaceState

def TemporaryRefOwner.prepare (owner : TemporaryRefOwner) : RefProg Unit :=
  match owner.initialPayload with
  | none => return ()
  | some payload => do
    let present ← stateExists
    if present then return () else writeState payload

/-- `discard_resolved_evidence`. -/
def TemporaryRefOwner.discardResolvedEvidence (owner : TemporaryRefOwner) : RefProg Unit :=
  match owner.initialPayload with
  | none => return ()
  | some _ => do
    let present ← stateExists
    if !present then return ()
    else do
      let payload ← readState
      match payload.temporaryRefs with
      | none => return ()
      | some claims => if claims.all fun claim => claim.phase = .removed then unlinkState else return ()

/-- `_delete_exact_temporary_import_ref`. -/
def deleteExactTemporaryImportRef (refName targetOid : Text) : RefProg Nat := do
  let current ← refOid refName
  if current = some targetOid then do
    transaction [.delete refName targetOid]
    return 1
  else if current.isSome then
    .raise ("Workspace temporary import ref moved and was retained: " ++ String.ofList refName ++ ".")
  else return 0

/-- `_delete_temporary_import_ref`. -/
def deleteTemporaryImportRef (ref : TemporaryImportRef) : RefProg Unit := do
  other
  let _ ← deleteExactTemporaryImportRef ref.name ref.targetOid
  editState (markTemporaryRefRemoved ref.name)

/-- `_prepare_temporary_import_ref`. -/
def prepareTemporaryImportRef (owner : TemporaryRefOwner) (sourceCommit : Text) : RefProg TemporaryImportRef := do
  owner.prepare
  let state ← readState
  let importId ← newImportId
  let refName ← checkedRef (importRefForSourceCommit sha256 state.runKeyName state.invocation.nodeId
    (invocationSlug sha256 state.invocation) sourceCommit importId)
  editState (recordTemporaryRef refName sourceCommit)
  return ⟨refName, sourceCommit⟩

/-- `_create_temporary_import_ref`. -/
def createTemporaryImportRef (ref : TemporaryImportRef) : RefProg Unit := do
  other
  let current ← refOid ref.name
  if current.isSome then .raise ("Workspace temporary import ref already exists: " ++ String.ofList ref.name ++ ".")
  else do
    other
    transaction [.create ref.name ref.targetOid]

/-- `import_source_bundle`. -/
def importSourceBundle (owner : TemporaryRefOwner) (sourceCommit : Text) : RefProg TemporaryImportRef := do
  let ref ← prepareTemporaryImportRef sha256 owner sourceCommit
  ((do
    createTemporaryImportRef ref
    check "Workspace source import did not provide its target.") : RefProg Unit).rescue fun failure => do
      (deleteTemporaryImportRef ref).rescue fun _ => .ret ()
      .raise failure
  return ref

/-- `delete_temporary_import_refs`: the loop, with the first failure so far. -/
def deleteImportRefs (firstFailure : Option String) : List TemporaryImportRef → RefProg Unit
  | [] => match firstFailure with
    | none => return ()
    | some failure => .raise failure
  | ref :: rest => do
    let outcome ← ((do
      deleteTemporaryImportRef ref
      return none) : RefProg (Option String)).rescue fun failure => .ret (some failure)
    deleteImportRefs (firstFailure <|> outcome) rest

def deleteTemporaryImportRefs (refs : List TemporaryImportRef) : RefProg Unit := deleteImportRefs none refs.reverse

/-- `WorktreeSourceRef`, by what an import needs: a commit, whether it comes in a bundle, and the sources it was made from. -/
inductive SourceChain
  | mk (sourceCommit : Text) (bundled : Bool) (upstreamSources : List SourceChain)

/-- `_ensure_source_ref_available`, with the refs that were imported so far; a failure leaves them known. -/
def ensureSourceRefAvailable (owner : TemporaryRefOwner) (sourceCommit : Text) (bundled : Bool)
    (imported : List TemporaryImportRef) : RefProg (List TemporaryImportRef × Option String) :=
  if bundled then
    ((do
      other
      let ref ← importSourceBundle sha256 owner sourceCommit
      ((do
        check "Workspace lineage source bundle import did not provide the expected commit."
        return (imported ++ [ref], none)) : RefProg _).rescue fun failure => .ret (imported ++ [ref], some failure)) :
      RefProg (List TemporaryImportRef × Option String)).rescue fun failure => .ret (imported, some failure)
  else
    ((do
      check "Workspace lineage source commit is unavailable and no bundle descriptor was recorded."
      return (imported, none)) : RefProg _).rescue fun failure => .ret (imported, some failure)

mutual

/-- `_ensure_source_commit_available`. -/
def ensureSourceCommitAvailable (owner : TemporaryRefOwner) (activeCommits : List Text) (imported : List TemporaryImportRef) :
    SourceChain → RefProg (List TemporaryImportRef × Option String)
  | .mk sourceCommit bundled upstreamSources =>
    if activeCommits.contains sourceCommit then .ret (imported, some "Workspace lineage source chain contains a cycle.")
    else do
      let upstream ← ensureUpstreamAvailable owner (sourceCommit :: activeCommits) imported upstreamSources
      if upstream.2.isSome then return upstream
      else do
        let own ← ensureSourceRefAvailable sha256 owner sourceCommit bundled upstream.1
        if own.2.isSome then return own
        else
          ((do
            check "Workspace source tree mismatch."
            return own) : RefProg _).rescue fun failure => .ret (own.1, some failure)

/-- The loop over the upstream sources. -/
def ensureUpstreamAvailable (owner : TemporaryRefOwner) (activeCommits : List Text) (imported : List TemporaryImportRef) :
    List SourceChain → RefProg (List TemporaryImportRef × Option String)
  | [] => .ret (imported, none)
  | source :: rest => do
    let first ← ensureSourceCommitAvailable owner activeCommits imported source
    if first.2.isSome then return first else ensureUpstreamAvailable owner activeCommits first.1 rest

end

/-- The body of the `with` statement: the consumer, unless the source did not become available. -/
def consume (failure : Option String) : RefProg (Option String) :=
  match failure with
  | some failure => .ret (some failure)
  | none => ((do
      other
      return none) : RefProg (Option String)).rescue fun failure => .ret (some failure)

/-- `ensure_source_commit_available` around its consumer, which changes neither refs nor evidence. -/
def withSourceCommit (owner : TemporaryRefOwner) (source : SourceChain) : RefProg Unit := do
  other
  let body : RefProg Unit := do
    let available ← ensureSourceCommitAvailable sha256 owner [] [] source
    let consumed ← consume available.2
    match consumed with
    | some failure => do
      (deleteTemporaryImportRefs available.1).rescue fun _ => .ret ()
      .raise failure
    | none => deleteTemporaryImportRefs available.1
  -- `finally`: whatever comes of the body, the evidence is discarded when it is resolved
  let outcome ← ((do
    body
    return none) : RefProg (Option String)).rescue fun failure => .ret (some failure)
  owner.discardResolvedEvidence
  match outcome with
  | none => return ()
  | some failure => .raise failure

/-! ## Cleanup from the evidence -/

/-- `_reconcile_temporary_import_ref_claim`. -/
def reconcileTemporaryImportRefClaim (ownerPrefix : Text) (claim : TemporaryRefClaim) : RefProg Unit :=
  if claim.phase = .removed then return ()
  else if ¬ownerPrefix.isPrefixOf claim.name then
    .raise "Workspace temporary ref cleanup claim escapes its invocation scope."
  else do
    other
    check "Workspace temporary ref cleanup name is unsafe."
    let _ ← deleteExactTemporaryImportRef claim.name claim.targetOid
    editState (markTemporaryRefRemoved claim.name)

/-- `reconcile_temporary_import_refs`. -/
def reconcileTemporaryImportRefs : RefProg Unit := do
  let payload ← readState
  check "Workspace temporary ref cleanup repository identity changed."
  match payload.temporaryRefs with
  | none => return ()
  | some claims =>
    Prog.each (reconcileTemporaryImportRefClaim
      (temporaryImportRefPrefix sha256 payload.runKeyName payload.invocation.nodeId (invocationSlug sha256 payload.invocation)))
      claims

/-- `_reconcile_ref_cleanup_record`, of a state file or of an evidence file. -/
def reconcileRefCleanupRecord (dedicated : Bool) : RefProg Unit := do
  (if dedicated then return () else do let _ ← reconcileResultRefPublication sha256 : RefProg Unit)
  reconcileTemporaryImportRefs sha256
  if dedicated then unlinkState else return ()

end Publication

end Crewplane.Workspace
