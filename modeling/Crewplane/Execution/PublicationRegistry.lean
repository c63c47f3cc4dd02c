import Crewplane.Lib.Dict
import Crewplane.Lib.Effects
/-
# The registry of runtime publications (runtime/execution/publication_registry.py)

A publication may keep a recovery copy of its file. All copies stand in one spool file, each as a slice
of it; a failing append takes back what it wrote. The methods run under one lock, so the registry is a
state and a method a computation over it that may raise. What the file system answers is part of a
call: the rounds of the copying loop, what a failed write left in the spool, whether the rollback
itself works (`Copying`). `sha256` is a parameter, and so are paths and owners.
-/
namespace Crewplane.Execution

open Crewplane.Lib

variable {Path Owner Digest : Type} [DecidableEq Path] [DecidableEq Digest]

/-- `ContentSignature`: size and digest. -/
abbrev ContentSignature (Digest : Type) := Nat × Digest

def contentSignature (sha256 : List UInt8 → Digest) (bytes : List UInt8) : ContentSignature Digest :=
  (bytes.length, sha256 bytes)

structure RuntimeEventPublication (Owner : Type) where
  ownerId : Owner
  line : List UInt8

structure RecoverySlice where
  offset : Nat
  size : Nat
deriving DecidableEq

structure RuntimePublicationRegistry (Path Owner Digest : Type) where
  publishedSignatures : Dict Path (ContentSignature Digest)
  recoverySlices : Dict Path RecoverySlice
  recoverySignatures : Dict Path (ContentSignature Digest)
  recoverySpool : Option (List UInt8)
  eventPublications : List (RuntimeEventPublication Owner)
  publicationOwners : Dict Path Owner
  version : Nat
  eventPublicationDepth : Nat
  closed : Bool

inductive RegistryError where
  | closed
  | spoolUnavailable
  | snapshotEnded
  | snapshotChanged
  | notSingleLink
  | sourceMismatch
  | partialWrite
  | partialDestinationWrite
  | invalidCursor
  | io
deriving DecidableEq

/-- The text of a raised error; `path` is the path it names. An `OSError` has the system's text. -/
def RegistryError.message (path : String) : RegistryError → String
  | closed => "Runtime publication registry is closed."
  | spoolUnavailable => "Runtime publication recovery spool is unavailable."
  | snapshotEnded => "Runtime publication recovery snapshot ended unexpectedly: " ++ path
  | snapshotChanged => "Runtime publication recovery snapshot no longer matches its registered signature: " ++ path
  | notSingleLink => "Runtime publication recovery source must be a single-link regular file: " ++ path
  | sourceMismatch => "Runtime publication recovery source does not match its signature."
  | partialWrite => "Runtime publication recovery spool accepted a partial write."
  | partialDestinationWrite => "Runtime publication recovery destination accepted a partial write."
  | invalidCursor => "Runtime event publication cursor is invalid."
  | io => ""

/-- One round of the copying loop: the chunk that was read, what the write answered (`none` where it raised)
and what it put into the spool where that answer is not the length of the chunk. -/
structure Round where
  chunk : List UInt8
  written : Option Nat
  stored : List UInt8

/-- What the file system answers while a recovery copy is appended. -/
structure Copying where
  spoolOpens : Bool
  seekEnd : Bool
  opens : Bool
  singleLink : Bool
  /-- The rounds up to the empty chunk, or up to a read that raises. -/
  rounds : List Round
  readsToEnd : Bool
  flushes : Bool
  /-- `some junk` where the rollback raises: what it leaves in the spool behind the old end. -/
  rollback : Option (List UInt8)

abbrev RegistryM (Path Owner Digest : Type) := EStateM RegistryError (RuntimePublicationRegistry Path Owner Digest)

/-! ## The spool -/

def ensureOpen : RegistryM Path Owner Digest Unit := do
  if (← get).closed then throw .closed

def ensureRecoverySpool (opens : Bool) : RegistryM Path Owner Digest (List UInt8) := do
  match (← get).recoverySpool with
  | some spool => pure spool
  | none =>
    if opens then
      modify fun st => { st with recoverySpool := some [] }
      pure []
    else throw .io

def setSpool (spool : List UInt8) : RegistryM Path Owner Digest Unit :=
  modify fun st => { st with recoverySpool := some spool }

/-- The `while chunk` loop of the append: `spool` holds what was there and has been written, `bytes` what has been
read so far, which is all the source keeps of it in the digest and the size. -/
def copyRounds (spool bytes : List UInt8) : List Round → RegistryM Path Owner Digest (List UInt8)
  | [] => pure bytes
  | round :: rounds => do
    match round.written with
    | none =>
      setSpool (spool ++ round.stored)
      throw .io
    | some written =>
      if written ≠ round.chunk.length then
        setSpool (spool ++ round.stored)
        throw .partialWrite
      else
        setSpool (spool ++ round.chunk)
        copyRounds (spool ++ round.chunk) (bytes ++ round.chunk) rounds

/-- The body of the `try` of `_append_recovery_source`. -/
def copySource (sha256 : List UInt8 → Digest) (spool : List UInt8) (copying : Copying)
    (expected : ContentSignature Digest) : RegistryM Path Owner Digest RecoverySlice := do
  if !copying.opens then throw .io
  else if !copying.singleLink then throw .notSingleLink
  else
    let bytes ← copyRounds spool [] copying.rounds
    if !copying.readsToEnd then throw .io
    else if contentSignature sha256 bytes ≠ expected then throw .sourceMismatch
    else if !copying.flushes then throw .io
    else pure ⟨spool.length, bytes.length⟩

/-- `_append_recovery_source`, with `_ensure_recovery_spool` before it. -/
def appendRecoverySource (sha256 : List UInt8 → Digest) (copying : Copying) (expected : ContentSignature Digest) :
    RegistryM Path Owner Digest RecoverySlice := do
  let spool ← ensureRecoverySpool copying.spoolOpens
  if !copying.seekEnd then throw .io
  else
    tryCatch (copySource sha256 spool copying expected) fun e => do
      match copying.rollback with
      | none =>
        setSpool spool
        throw e
      | some junk =>
        setSpool (spool ++ junk)
        throw .io

/-! ## Methods -/

def publish (sha256 : List UInt8 → Digest) (path : Path) (signature : ContentSignature Digest) (owner : Option Owner)
    (recoverySource : Option Copying) : RegistryM Path Owner Digest Unit := do
  ensureOpen
  match recoverySource with
  | none =>
    modify fun st => { st with
      recoverySignatures := Dict.erase st.recoverySignatures path
      recoverySlices := Dict.erase st.recoverySlices path }
  | some copying =>
    let slice ← appendRecoverySource sha256 copying signature
    modify fun st => { st with
      recoverySignatures := Dict.setItem st.recoverySignatures path signature
      recoverySlices := Dict.setItem st.recoverySlices path slice }
  modify fun st => { st with
    publishedSignatures := Dict.setItem st.publishedSignatures path signature
    publicationOwners := match owner with
      | none => Dict.erase st.publicationOwners path
      | some owner => Dict.setItem st.publicationOwners path owner
    version := st.version + 1 }

def captureRecoverySnapshot (sha256 : List UInt8 → Digest) (path : Path) (signature : ContentSignature Digest)
    (copying : Copying) : RegistryM Path Owner Digest Unit := do
  ensureOpen
  let st ← get
  if Dict.get? st.recoverySignatures path = some signature ∧ path ∈ Dict.keys st.recoverySlices then pure ()
  else
    let slice ← appendRecoverySource sha256 copying signature
    modify fun st => { st with
      recoverySignatures := Dict.setItem st.recoverySignatures path signature
      recoverySlices := Dict.setItem st.recoverySlices path slice }

/-- The entry of `event_publication`: whether it is the outermost one. -/
def enterEventPublication : RegistryM Path Owner Digest Bool := do
  ensureOpen
  let st ← get
  modify fun st => { st with eventPublicationDepth := st.eventPublicationDepth + 1 }
  pure (st.eventPublicationDepth == 0)

/-- The exit of `event_publication`; `raised` where the body raised. -/
def exitEventPublication (ownerId : Owner) (line : List UInt8) (outermost raised : Bool) : RegistryM Path Owner Digest Unit := do
  if !raised && outermost then
    modify fun st => { st with
      eventPublications := st.eventPublications ++ [⟨ownerId, line⟩]
      version := st.version + 1 }
  modify fun st => { st with eventPublicationDepth := st.eventPublicationDepth - 1 }

def close : RegistryM Path Owner Digest Unit :=
  modify fun st =>
    if st.closed then st
    else { st with recoverySpool := none, recoverySlices := [], recoverySignatures := [], publicationOwners := [], closed := true }

/-! ## Reading a recovery copy -/

def recoveryCopyChunkBytes : Nat := 1024 * 1024

/-- The `while remaining_bytes` loop: `accept` is what the destination's write answers, `copied` what it has got. A round
takes at least one byte, so `remaining` is fuel enough. -/
def copyPayload (accept : List UInt8 → Nat) (spool : List UInt8) :
    Nat → Nat → Nat → List UInt8 → Except RegistryError (List UInt8)
  | _, _, 0, copied => .ok copied
  | 0, _, _ + 1, _ => .error .snapshotEnded
  | fuel + 1, position, remaining + 1, copied =>
    let chunk := (spool.drop position).take (min (remaining + 1) recoveryCopyChunkBytes)
    if chunk = [] then .error .snapshotEnded
    else if accept chunk ≠ chunk.length then .error .partialDestinationWrite
    else copyPayload accept spool fuel (position + chunk.length) (remaining + 1 - chunk.length) (copied ++ chunk)

/-- `copy_recovery_payload_to`: what the destination gets, `none` where the method answers `False`. -/
def copyRecoveryPayloadTo (sha256 : List UInt8 → Digest) (accept : List UInt8 → Nat)
    (st : RuntimePublicationRegistry Path Owner Digest) (path : Path) : Except RegistryError (Option (List UInt8)) := do
  if st.closed then throw .closed
  match Dict.get? st.recoverySlices path with
  | none => pure none
  | some slice =>
    match st.recoverySpool with
    | none => throw .spoolUnavailable
    | some spool =>
      let copied ← copyPayload accept spool slice.size slice.offset slice.size []
      if some (contentSignature sha256 copied) ≠ Dict.get? st.recoverySignatures path then throw .snapshotChanged
      else pure (some copied)

/-! ## Runs -/

inductive Operation (Path Owner Digest : Type) where
  | publish (path : Path) (signature : ContentSignature Digest) (owner : Option Owner) (recoverySource : Option Copying)
  | capture (path : Path) (signature : ContentSignature Digest) (copying : Copying)
  | enterEvent
  | exitEvent (ownerId : Owner) (line : List UInt8) (outermost raised : Bool)
  | close

def Operation.method (sha256 : List UInt8 → Digest) : Operation Path Owner Digest → RegistryM Path Owner Digest Unit
  | publish path signature owner recoverySource => Execution.publish sha256 path signature owner recoverySource
  | capture path signature copying => captureRecoverySnapshot sha256 path signature copying
  | enterEvent => discard enterEventPublication
  | exitEvent ownerId line outermost raised => exitEventPublication ownerId line outermost raised
  | close => Execution.close

/-- The registry after a call, whether it raised or not. -/
def Operation.after (sha256 : List UInt8 → Digest) (st : RuntimePublicationRegistry Path Owner Digest)
    (op : Operation Path Owner Digest) : RuntimePublicationRegistry Path Owner Digest :=
  match op.method sha256 st with
  | .ok _ st' => st'
  | .error _ st' => st'

def initialRegistry : RuntimePublicationRegistry Path Owner Digest :=
  ⟨[], [], [], none, [], [], 0, 0, false⟩

end Crewplane.Execution
