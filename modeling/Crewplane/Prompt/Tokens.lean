import Crewplane.Lib.Scan
import Crewplane.Workflow.Markdown
/-
# Template tokens (`core/workflow/syntax.py`, `core/preflight/references.py`)

The validator and the compiler both find tokens with `TEMPLATE_TOKEN_PATTERN` and
read each one with `match_template_token`. The patterns are given by what they
match at the head of a text (`templateTokenAt`) or in full (`nodeArtifactToken`,
`keyValueToken`); inside the braces the character classes leave one way to read
a token, so no backtracking is modelled.
-/
namespace Crewplane.Prompt

open Crewplane.Lib Crewplane.Workflow

def isBrace (c : Char) : Bool := c = '\x7b' || c = '\x7d'

/-- `[A-Za-z0-9_-]`. -/
def isArtifactChar (c : Char) : Bool := c.isAlphanum || c = '_' || c = '-'

/-- `[a-zA-Z_]`. -/
def isTypeChar (c : Char) : Bool := c.isAlpha || c = '_'

def openBraces : String := "\x7b\x7b"

def closeBraces : String := "\x7d\x7d"

/-- `TEMPLATE_TOKEN_PATTERN` (syntax.py:11) at the head of a text, with the whole match as its capture. -/
def templateTokenAt : Pattern Char (List Char) := fun text =>
  match after openBraces text with
  | none => none
  | some rest =>
    match after closeBraces (rest.dropWhile fun c => !isBrace c) with
    | none => none
    | some _ =>
      let inner := rest.takeWhile fun c => !isBrace c
      some (inner.length + 3, openBraces.toList ++ inner ++ closeBraces.toList)

inductive TemplateToken
  | nodeArtifact (nodeId artifactName : String)
  | keyValue (templateType value : String)
  deriving DecidableEq, Repr

/-- What stands between the double braces. -/
def unbraced (token : List Char) : Option (List Char) := do
  let inner ← after openBraces token
  let reversed ← after closeBraces inner.reverse
  return reversed.reverse

/-- The text before and after the last dot. -/
def splitLastDot (text : List Char) : Option (List Char × List Char) :=
  let name := text.reverse.takeWhile fun c => c ≠ '.'
  match text.reverse.drop name.length with
  | [] => none
  | _ :: front => some (front.reverse, name.reverse)

/-- `NODE_ARTIFACT_REFERENCE_PATTERN` (syntax.py:8): the artifact name has no dot, so the last dot ends the id. -/
def nodeArtifactToken (inner : List Char) : Option (String × String) :=
  match splitLastDot (stripChars inner) with
  | none => none
  | some (id, name) =>
    if id ≠ [] ∧ name ≠ [] ∧ id.all isMarkerChar ∧ name.all isArtifactChar then
      some (String.ofList id, String.ofList name)
    else none

/-- `KEY_VALUE_TEMPLATE_PATTERN` (syntax.py:12): the type has no colon, so the first colon ends it. -/
def keyValueToken (inner : List Char) : Option (String × String) :=
  let kind := inner.takeWhile fun c => c ≠ ':'
  match inner.drop kind.length with
  | [] => none
  | _ :: value =>
    if kind ≠ [] ∧ value ≠ [] ∧ kind.all isTypeChar ∧ value.all (fun c => c ≠ '\x7d') then
      some (String.ofList kind, String.ofList value)
    else none

def matchTemplateToken (token : List Char) : Option TemplateToken :=
  match unbraced token with
  | none => none
  | some inner =>
    match nodeArtifactToken inner, keyValueToken inner with
    | some (nodeId, artifactName), _ => some (.nodeArtifact nodeId artifactName)
    | none, some (templateType, value) => some (.keyValue templateType value)
    | none, none => none

/-! ## References (references.py) -/

inductive ReferenceKind
  | node | file | env | var | param | unknown
  deriving DecidableEq, Repr

structure TemplateReference where
  rawToken : List Char
  start : Nat
  stop : Nat
  kind : ReferenceKind
  key : Option String := none
  nodeId : Option String := none
  artifactName : Option String := none
  deriving DecidableEq, Repr

/-- `_KEY_VALUE_REFERENCE_KINDS` (references.py:14). -/
def keyValueKind (templateType : String) : ReferenceKind :=
  if templateType = "file" then .file
  else if templateType = "env" then .env
  else if templateType = "var" then .var
  else if templateType = "param" then .param
  else .unknown

/-- One iteration over the matches (references.py:36-82). -/
def referenceOf (start stop : Nat) (rawToken : List Char) : TemplateReference :=
  match matchTemplateToken rawToken with
  | some (.nodeArtifact nodeId artifactName) =>
    { rawToken, start, stop, kind := .node, nodeId := some nodeId, artifactName := some artifactName }
  | none => { rawToken, start, stop, kind := .unknown }
  | some (.keyValue templateType value) =>
    { rawToken, start, stop, kind := keyValueKind (strip templateType), key := some (strip value) }

@[simp] theorem referenceOf_start (start stop : Nat) (raw : List Char) : (referenceOf start stop raw).start = start := by
  unfold referenceOf
  split <;> rfl

@[simp] theorem referenceOf_stop (start stop : Nat) (raw : List Char) : (referenceOf start stop raw).stop = stop := by
  unfold referenceOf
  split <;> rfl

@[simp] theorem referenceOf_rawToken (start stop : Nat) (raw : List Char) :
    (referenceOf start stop raw).rawToken = raw := by
  unfold referenceOf
  split <;> rfl

def iterTemplateReferences (text : String) : List TemplateReference :=
  (findIter templateTokenAt 0 0 text.toList).map fun found => referenceOf found.start found.stop found.capture

/-! ## What the scanner finds -/

theorem after_eq_some {lead : String} {text rest : List Char} :
    after lead text = some rest ↔ text = lead.toList ++ rest := by
  unfold after
  constructor
  · intro h
    split at h
    · rename_i hlead
      obtain ⟨tail, rfl⟩ := List.isPrefixOf_iff_prefix.mp hlead
      simpa using h
    · simp at h
  · rintro rfl
    simp

/-- A token is two braces, a text without braces and two braces. -/
theorem templateTokenAt_eq_some {text raw : List Char} {n : Nat} :
    templateTokenAt text = some (n, raw) ↔
      ∃ inner tail, (∀ c ∈ inner, isBrace c = false) ∧ raw = openBraces.toList ++ inner ++ closeBraces.toList ∧
        text = raw ++ tail ∧ n = inner.length + 3 := by
  unfold templateTokenAt
  constructor
  · intro h
    split at h
    · simp at h
    rename_i rest hopen
    rw [after_eq_some] at hopen
    split at h
    · simp at h
    rename_i tail hclose
    rw [after_eq_some] at hclose
    obtain ⟨rfl, rfl⟩ := Prod.mk.inj (Option.some.inj h)
    refine ⟨_, tail, ?_, rfl, ?_, rfl⟩
    · intro c hc
      simpa using List.mem_takeWhile_imp hc
    · rw [hopen, List.append_assoc, List.append_assoc, List.append_right_inj, ← hclose,
        List.takeWhile_append_dropWhile]
  · rintro ⟨inner, tail, hinner, rfl, rfl, rfl⟩
    have hrest : after openBraces (openBraces.toList ++ inner ++ closeBraces.toList ++ tail) =
        some (inner ++ (closeBraces.toList ++ tail)) := by
      rw [after_eq_some]
      simp
    have hbrace : ∀ c ∈ inner, (!isBrace c) = true := by
      intro c hc
      rw [hinner c hc]
      rfl
    have hstop : ((closeBraces.toList ++ tail).dropWhile fun c => !isBrace c) = closeBraces.toList ++ tail := rfl
    have htake : ((closeBraces.toList ++ tail).takeWhile fun c => !isBrace c) = [] := rfl
    have hclose : after closeBraces (closeBraces.toList ++ tail) = some tail := after_eq_some.mpr rfl
    simp only [hrest, List.dropWhile_append_of_pos hbrace, List.takeWhile_append_of_pos hbrace, hstop, htake, hclose,
      List.append_nil]

theorem templateTokenAt_lawful : templateTokenAt.Lawful := by
  intro c rest n raw h
  obtain ⟨inner, tail, -, rfl, htext, rfl⟩ := templateTokenAt_eq_some.mp h
  have := congrArg List.length htext
  simp [openBraces, closeBraces] at this
  omega

theorem templateTokenAt_raw (c : Char) (rest : List Char) (n : Nat) (raw : List Char)
    (h : templateTokenAt (c :: rest) = some (n, raw)) : raw = (c :: rest).take (n + 1) := by
  obtain ⟨inner, tail, -, rfl, htext, rfl⟩ := templateTokenAt_eq_some.mp h
  rw [htext, List.take_left' (by simp [openBraces, closeBraces])]

/-- A text without an opening brace has no token. -/
theorem findIter_eq_nil {text : List Char} (h : ∀ c ∈ text, c ≠ '\x7b') (pos : Nat) :
    findIter templateTokenAt pos 0 text = [] := by
  induction text generalizing pos with
  | nil => simp
  | cons c rest ih =>
    have hnone : templateTokenAt (c :: rest) = none := by
      cases hsome : templateTokenAt (c :: rest) with
      | none => rfl
      | some found =>
        obtain ⟨inner, tail, -, hraw, htext, -⟩ := templateTokenAt_eq_some.mp hsome
        have hhead := congrArg List.head? htext
        rw [hraw] at hhead
        simp [openBraces] at hhead
        exact absurd hhead (h c (by simp))
    rw [findIter_none hnone]
    exact ih (fun c hc => h c (List.mem_cons_of_mem _ hc)) (pos + 1)

theorem open_not_mem_closed {inner : List Char} (hinner : ∀ c ∈ inner, isBrace c = false) :
    '\x7b' ∉ inner ++ closeBraces.toList := by
  intro hmem
  rcases List.mem_append.mp hmem with hmem | hmem
  · have := hinner _ hmem
    simp [isBrace] at this
  · simp [closeBraces] at hmem

/-- A token stands in every text that holds it: no other token runs into it. -/
theorem mem_findIter_token {inner : List Char} (hinner : ∀ c ∈ inner, isBrace c = false) (back : List Char) :
    ∀ (front : List Char) (pos skip : Nat), skip ≤ front.length →
    ∃ found ∈ findIter templateTokenAt pos skip
        (front ++ (openBraces.toList ++ inner ++ closeBraces.toList ++ back)),
      found.capture = openBraces.toList ++ inner ++ closeBraces.toList := by
  intro front
  induction front with
  | nil =>
    intro pos skip hskip
    obtain rfl : skip = 0 := Nat.le_zero.mp hskip
    have hsome : templateTokenAt (openBraces.toList ++ inner ++ closeBraces.toList ++ back) =
        some (inner.length + 3, openBraces.toList ++ inner ++ closeBraces.toList) :=
      templateTokenAt_eq_some.mpr ⟨inner, back, hinner, rfl, rfl, rfl⟩
    cases htext : openBraces.toList ++ inner ++ closeBraces.toList ++ back with
    | nil => simp [openBraces] at htext
    | cons c rest =>
      rw [htext] at hsome
      rw [List.nil_append, findIter_some hsome]
      exact ⟨_, List.mem_cons_self, rfl⟩
  | cons c front ih =>
    intro pos skip hskip
    cases skip with
    | succ skip =>
      rw [List.cons_append, findIter_skip]
      exact ih (pos + 1) skip (by simpa using hskip)
    | zero =>
      rw [List.cons_append]
      cases h : templateTokenAt (c :: (front ++ (openBraces.toList ++ inner ++ closeBraces.toList ++ back))) with
      | none =>
        rw [findIter_none h]
        exact ih (pos + 1) 0 (Nat.zero_le _)
      | some found =>
        obtain ⟨n, raw⟩ := found
        rw [findIter_some h]
        obtain ⟨inner', tail, hinner', rfl, htext, rfl⟩ := templateTokenAt_eq_some.mp h
        have hfits : inner'.length + 3 ≤ front.length := by
          by_contra hlong
          refine absurd ?_ (open_not_mem_closed hinner')
          -- an open brace of the token would stand inside the other one
          simp only [openBraces, closeBraces, List.append_assoc] at htext ⊢
          simp only [String.reduceToList, List.cons_append, List.nil_append] at htext ⊢
          obtain ⟨-, htext⟩ := List.cons.inj htext
          cases front with
          | nil =>
            obtain ⟨-, htext⟩ := List.cons.inj htext
            cases inner' with
            | nil => simp at htext
            | cons x inner' =>
              rw [List.cons_append] at htext
              rw [(List.cons.inj htext).1]
              simp
          | cons d front =>
            have htext : front ++ '\x7b' :: '\x7b' :: (inner ++ '\x7d' :: '\x7d' :: back) =
                (inner' ++ ['\x7d', '\x7d']) ++ tail := by
              simpa using (List.cons.inj htext).2
            simp only [List.length_cons] at hlong
            rcases List.append_eq_append_iff.mp htext with ⟨more, hmore, hrest⟩ | ⟨more, hmore, -⟩
            · cases more with
              | nil =>
                have := congrArg List.length hmore
                simp at this
                omega
              | cons x more =>
                rw [hmore, ← (List.cons.inj hrest).1]
                simp
            · have := congrArg List.length hmore
              simp at this
              omega
        obtain ⟨found, hfound, hcapture⟩ := ih (pos + 1) (inner'.length + 3) hfits
        exact ⟨found, List.mem_cons_of_mem _ hfound, hcapture⟩

end Crewplane.Prompt
