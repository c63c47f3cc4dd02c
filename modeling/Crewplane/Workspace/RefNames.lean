import Crewplane.Lib.Json
import Crewplane.Lib.Paths
/-
# Internal ref names (core/workspace/naming.py, core/workspace/invocation_identity.py)

The refs of an invocation are named after its run key, its node and a slug of its identity. Every
component goes through `safeRefComponent`, the slug through `boundedInvocationSlug` before. The slug ends in a
hash and both normalisations keep an ending of that form, which is what tells the
refs of two invocations apart.

`sha256` is the hexadecimal digest of a text, cut to a few characters wherever it is used. A text is the
list of its code points.
-/
namespace Crewplane.Workspace

open Crewplane.Lib

abbrev Text := List Char

def maxRefComponentChars : Nat := 96
def safeComponentHashChars : Nat := 12
def fallbackHashChars : Nat := 16
def maxInvocationSlugChars : Nat := 160
def invocationSlugHashChars : Nat := 12

/-- `[A-Za-z0-9._-]`. -/
def safeChar (c : Char) : Bool := c.isAlphanum || c = '.' || c = '_' || c = '-'

/-- What a slug is stripped of. -/
def edgeChar (c : Char) : Bool := c = '.' || c = '-'

/-- What a ref component is stripped of: dots, dashes and slashes. -/
def refEdgeChar (c : Char) : Bool := c = '.' || c = '-' || c = '/'

def dotLock : Text := ['.', 'l', 'o', 'c', 'k']

structure InvocationIdentity where
  nodeId : Text
  taskId : Text
  auditRoundNum : Option Int
  roundNum : Int
deriving DecidableEq

section Names

variable (sha256 : Text → Text)

def shortHash (value : Text) : Text := (sha256 value).take safeComponentHashChars

def fallbackHash (value : Text) : Text := (sha256 value).take fallbackHashChars

def boundedComponent (slug original : Text) (maxChars : Nat) (separator : Text) : Text :=
  if slug.length ≤ maxChars then slug
  else
    let suffix := separator ++ shortHash sha256 original
    let available := maxChars - suffix.length
    let front := rstrip edgeChar (slug.take available)
    (if front = [] then (fallbackHash sha256 original).take available else front) ++ suffix

def safeRefComponent (value : Text) : Text :=
  let slug := collapseDots (stripChar refEdgeChar (dashRuns safeChar value))
  let slug := if slug = [] ∨ ['.'] <:+ slug ∨ dotLock <:+ slug then fallbackHash sha256 value else slug
  boundedComponent sha256 slug value maxRefComponentChars ['-']

def resultRefNames (runKeyName nodeId slug : Text) : Text × Text :=
  let base := "refs/crewplane/runs/".toList ++ safeRefComponent sha256 runKeyName ++ ['/'] ++
    safeRefComponent sha256 nodeId ++ ['/'] ++ safeRefComponent sha256 slug
  (base ++ "/candidate".toList, base ++ "/result".toList)

def temporaryImportRefPrefix (runKeyName nodeId slug : Text) : Text :=
  "refs/crewplane/runs/".toList ++ safeRefComponent sha256 runKeyName ++ "/imports/".toList ++
    safeRefComponent sha256 nodeId ++ ['/'] ++ safeRefComponent sha256 slug ++ ['/']

/-- `_import_ref_for_source_commit`, with the random `import_id`. -/
def importRefForSourceCommit (runKeyName nodeId slug sourceCommit importId : Text) : Text :=
  temporaryImportRefPrefix sha256 runKeyName nodeId slug ++ safeRefComponent sha256 (sourceCommit.take 24) ++ ['-'] ++
    importId

def shortSlugHash (value : Text) : Text := (sha256 value).take invocationSlugHashChars

def boundedInvocationSlug (value : Text) : Text :=
  let slug := stripChar edgeChar (dashRuns safeChar value)
  if slug = [] then shortSlugHash sha256 value
  else if slug.length ≤ maxInvocationSlugChars then slug
  else
    let suffix := ['-', '-'] ++ shortSlugHash sha256 value
    let front := rstrip edgeChar (slug.take (maxInvocationSlugChars - suffix.length))
    (if front = [] then "workspace".toList else front) ++ suffix

/-- `json.dumps((node_id, task_id, audit_round_num, round_num))`. -/
def identityJson (id : InvocationIdentity) : Text :=
  Json.encode .default (.arr [.str id.nodeId, .str id.taskId,
    match id.auditRoundNum with
    | some audit => .int audit
    | none => .null, .int id.roundNum])

def auditText : Option Int → Text
  | some audit => "audit".toList ++ (Int.repr audit).toList ++ ['-']
  | none => []

/-- The text that `invocation_slug` bounds. -/
def slugSource (id : InvocationIdentity) : Text :=
  id.nodeId ++ ['-'] ++ id.taskId ++ ['-'] ++ auditText id.auditRoundNum ++ "round".toList ++
    (Int.repr id.roundNum).toList ++ ['-', '-'] ++ shortSlugHash sha256 (identityJson id)

def invocationSlug (id : InvocationIdentity) : Text := boundedInvocationSlug sha256 (slugSource sha256 id)

/-- The refs derived for an invocation; every temporary import has an id of its own. -/
inductive RefKind where
  | candidate
  | result
  | temporaryImport (sourceCommit importId : Text)
deriving DecidableEq

def refName (runKeyName : Text) (id : InvocationIdentity) : RefKind → Text
  | .candidate => (resultRefNames sha256 runKeyName id.nodeId (invocationSlug sha256 id)).1
  | .result => (resultRefNames sha256 runKeyName id.nodeId (invocationSlug sha256 id)).2
  | .temporaryImport sourceCommit importId =>
    importRefForSourceCommit sha256 runKeyName id.nodeId (invocationSlug sha256 id) sourceCommit importId

end Names

/-! ## git's syntax of refs (core/workspace/git_policy.py) -/

inductive GitRefSyntaxIssue where
  | syntaxIssue
  | characters
  | component
deriving DecidableEq, Repr

def forbiddenRefChar (c : Char) : Bool :=
  c.toNat < 32 || c.toNat = 127 || c ∈ [' ', '~', '^', ':', '?', '*', '[', '\\']

def validRefPart (part : Text) : Bool :=
  part ≠ [] && part ≠ ['.'] && part ≠ ['.', '.'] && !(['.'] <+: part) && !(['.'] <:+ part || dotLock <:+ part)

def gitRefSyntaxIssue (ref : Text) : Option GitRefSyntaxIssue :=
  if ['/'] <:+ ref ∨ ['.'] <:+ ref ∨ hasPair '.' '.' ref ∨ hasPair '/' '/' ref ∨ hasPair '@' '\x7b' ref then some .syntaxIssue
  else if ref.any forbiddenRefChar then some .characters
  else if !(ref.splitOn '/').all validRefPart then some .component
  else none

end Crewplane.Workspace
