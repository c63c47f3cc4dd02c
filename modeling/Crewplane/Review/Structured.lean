import Crewplane.Lib.Lines
import Crewplane.Review.Progress
/-
# Structured reviews (runtime/execution/reviews/structured.py, consensus.py)

From the sections of a review block to the evaluation. `extract_structured_review`, which finds the block in the output,
and the two functions of fingerprints.py are parameters.

A section is empty when its ASCII letters and digits spell one of the empty phrases, so a text without any of them is
empty too. `reviewer_text_kept_iff` says when that loses what a reviewer wrote.
-/
namespace Crewplane.Review

open Crewplane.Lib

structure ParsedReviewResult where
  verdict : String
  majorIssues : String
  minorIssues : String
  nitpicks : String
  deriving DecidableEq, Repr

structure StructuredReviewMatch extends ParsedReviewResult where
  leadingText : String
  trailingText : String
  warnings : List String
  deriving DecidableEq, Repr

def verdictChangesRequested : String := "CHANGES_REQUESTED"
def verdictNitsOnly : String := "NITS_ONLY"
def verdictNoFindings : String := "NO_FINDINGS"

/-- `is_approved_verdict`. -/
def isApprovedVerdict (verdict : Option String) : Bool := verdict = some verdictNitsOnly || verdict = some verdictNoFindings

/-! ## The normal form of a text -/

/-- `str.lower` of one character. Only `İ` and the Kelvin sign turn into ASCII; what else is not ASCII stays so and is
not told apart here. -/
def lowerChar (c : Char) : List Char :=
  if c = '\u0130' then ['i', '\u0307'] else if c = '\u212a' then ['k'] else [c.toLower]

def lowerChars (text : List Char) : List Char := text.flatMap lowerChar

/-- `str.upper` of one character, as far as it gives letters of `VERDICT`. -/
def upperChar (c : Char) : Char := if c = '\u0131' then 'I' else c.toUpper

def tokenChar (c : Char) : Bool := ('a' ≤ c && c ≤ 'z') || ('0' ≤ c && c ≤ '9')

/-- `re.sub` of every run of characters outside the class by one space. -/
def squeezeFrom (p : Char → Bool) : Bool → List Char → List Char
  | _, [] => []
  | inRun, c :: text =>
    if p c then c :: squeezeFrom p false text
    else if inRun then squeezeFrom p true text
    else ' ' :: squeezeFrom p true text

def squeeze (p : Char → Bool) (text : List Char) : List Char := stripChars (squeezeFrom p false text)

def normalizeTextToken (value : String) : String := String.ofList (squeeze tokenChar (lowerChars value.toList))

/-- `_GENERIC_EMPTY_SENTINELS`. -/
def genericEmptySentinels : List String :=
  ["", "n a", "na", "no comment", "no comments", "no finding", "no findings", "no issue", "no issues", "none",
    "none found", "none noted", "not applicable", "nothing", "nothing to report"]

/-- The phrases that name the section. -/
def sectionSentinels (name : String) : List String :=
  ["no " ++ normalizeTextToken name, "none for " ++ normalizeTextToken name, "nothing for " ++ normalizeTextToken name]

/-- `is_empty_section`. -/
def isEmptySection (content : String) (name : Option String) : Bool :=
  normalizeTextToken content ∈ genericEmptySentinels ||
    match name with
    | none => false
    | some name => normalizeTextToken content ∈ sectionSentinels name

/-! ## Normalising a review -/

def majorName : String := "Major Issues"
def minorName : String := "Minor Issues"
def nitpicksName : String := "Nitpicks"

/-- `is_review_heading`. -/
def isReviewHeading (line : List Char) : Bool :=
  ['#', '#'].isPrefixOf line &&
    normalizeTextToken (String.ofList (line.drop 2)) ∈ ["major issues", "minor issues", "nitpicks"]

/-- What `validate_review_section_content` says about one stripped line. -/
def lineIssue (name : String) (line : List Char) : Option String :=
  if line = ['-', '-', '-'] then some ("Reviewer section '" ++ name ++ "' contains an unexpected review delimiter.")
  else if "VERDICT:".toList.isPrefixOf (line.map upperChar) then
    some ("Reviewer section '" ++ name ++ "' contains an unexpected verdict line.")
  else if isReviewHeading line then some ("Reviewer section '" ++ name ++ "' contains an unexpected section heading.")
  else none

/-- `validate_review_section_content`; a line end is white space, so `strip` drops it with the rest. -/
def validateReviewSectionContent (name content : String) : Except String Unit :=
  match (splitlines content.toList).findSome? fun line => lineIssue name (stripChars line) with
  | some issue => .error issue
  | none => .ok ()

def normalizeReviewSection (name content : String) : Except String String :=
  let normalized := strip content
  if normalized = "" then
    .error ("Reviewer section '" ++ name ++ "' must contain content or '" ++ emptySentinel ++ "'.")
  else if isEmptySection normalized (some name) then .ok emptySentinel
  else do
    validateReviewSectionContent name normalized
    return normalized

/-- `canonical_review_verdict`. -/
def canonicalReviewVerdict (result : ParsedReviewResult) : String :=
  if result.verdict = verdictChangesRequested || !isEmptySection result.majorIssues none || !isEmptySection result.minorIssues none
  then verdictChangesRequested
  else if !isEmptySection result.nitpicks none then verdictNitsOnly
  else verdictNoFindings

def normalizeReviewResult (result : ParsedReviewResult) : Except String ParsedReviewResult := do
  let majorIssues ← normalizeReviewSection majorName result.majorIssues
  let minorIssues ← normalizeReviewSection minorName result.minorIssues
  let nitpicks ← normalizeReviewSection nitpicksName result.nitpicks
  let normalized : ParsedReviewResult :=
    { verdict := String.ofList ((stripChars result.verdict.toList).map upperChar), majorIssues := majorIssues
      minorIssues := minorIssues, nitpicks := nitpicks }
  return { normalized with verdict := canonicalReviewVerdict normalized }

/-! ## The evaluation -/

/-- `render_review_contract`. -/
def renderReviewContract (result : ParsedReviewResult) : String :=
  "## " ++ majorName ++ "\n" ++ result.majorIssues ++ "\n\n" ++ "## " ++ minorName ++ "\n" ++ result.minorIssues ++ "\n\n" ++
    "## " ++ nitpicksName ++ "\n" ++ result.nitpicks ++ "\n\n" ++ "---\nVERDICT: " ++ result.verdict ++ "\n"

def structuredReviewWarnings (m : StructuredReviewMatch) (normalized : ParsedReviewResult) : List String :=
  m.warnings ++
    (if strip m.trailingText = "" then [] else
      ["Ignored commentary below the structured review block during review parsing."]) ++
    if m.verdict = normalized.verdict then [] else
      ["Normalized reviewer verdict from " ++ m.verdict ++ " to " ++ normalized.verdict ++ " based on section content."]

/-- `render_unstructured_review_feedback`. -/
def renderUnstructuredReviewFeedback (feedback : String) : String :=
  "\n".intercalate ["# Unstructured Reviewer Feedback", "",
    "The runtime could not normalize this reviewer response into Major Issues, Minor Issues, or Nitpicks. " ++
      "Treat the content below as raw reviewer feedback, not as normalized candidate findings.", "",
    "## Raw Feedback", "", if feedback = "" then "No reviewer text was available." else feedback, ""]

/-- What fingerprints.py derives from the sections. -/
structure Fingerprints where
  unresolved : ParsedReviewResult → List String
  issueCount : ParsedReviewResult → Nat

def buildEvaluatedReviewResult (fp : Fingerprints) (parsed : ParsedReviewResult) (m : StructuredReviewMatch)
    (rawText : String) (warnings : List String) : EvaluatedReviewResult :=
  { verdict := some parsed.verdict, approved := isApprovedVerdict (some parsed.verdict), majorIssues := parsed.majorIssues
    minorIssues := parsed.minorIssues, nitpicks := parsed.nitpicks, unresolvedFingerprints := fp.unresolved parsed
    unresolvedIssueCount := fp.issueCount parsed, normalizedMarkdown := renderReviewContract parsed, rawText := rawText
    evaluationKind := .structured, warnings := warnings, originalVerdict := some m.verdict
    hadLeadingText := strip m.leadingText ≠ "", hadTrailingText := strip m.trailingText ≠ "", unstructuredFeedback := none }

def buildUnstructuredReviewFeedbackResult (m : StructuredReviewMatch) (rawText warning : String) : EvaluatedReviewResult :=
  { verdict := none, approved := false, majorIssues := emptySentinel, minorIssues := emptySentinel, nitpicks := emptySentinel
    unresolvedFingerprints := [], unresolvedIssueCount := 0
    normalizedMarkdown := renderUnstructuredReviewFeedback (strip rawText), rawText := rawText
    evaluationKind := .unstructuredFeedback, warnings := [warning], originalVerdict := some m.verdict
    hadLeadingText := strip m.leadingText ≠ "", hadTrailingText := strip m.trailingText ≠ ""
    unstructuredFeedback := some (strip rawText) }

/-- `evaluate_review_output` where `extract_structured_review` found a block. -/
def evaluateMatch (fp : Fingerprints) (output : String) (m : StructuredReviewMatch) : EvaluatedReviewResult :=
  match normalizeReviewResult m.toParsedReviewResult with
  | .ok parsed => buildEvaluatedReviewResult fp parsed m output (structuredReviewWarnings m parsed)
  | .error error => buildUnstructuredReviewFeedbackResult m output
    ("Reviewer output included a structured review block, but it could not be normalized. " ++
      "Preserving it as unstructured reviewer feedback: " ++ error)

end Crewplane.Review
