import Crewplane.Lib.Checks
import Crewplane.Lib.Lines
import Crewplane.Lib.Text
/-
# Workflow bodies (core/workflow/markdown/)

The body of a workflow file is cut at the level-2 headings that name declared
nodes; each node's section is cut again at its role markers, which are HTML
comments of their own. Both cuts use the line numbers of a CommonMark block
parser, which is a parameter here.

| here | there |
| --- | --- |
| `collectDocumentRootSections` | sections.py:17 |
| `parseWorkflowBody`           | sections.py:57 |
| `validateNodeSections`        | sections.py:94 |
| `collectMarkerEvents`         | markers.py:45 |
| `extractPromptSegmentPayloads` | markers.py:92 |
| `buildNodePromptSegments`     | payloads.py:122 |
| `buildWorkflowPayload`        | payloads.py:32 |

The source groups the sections in three dictionaries by their header; here they
are one list, and `ParsedWorkflowBody.nodeSections` reads a group off it.
-/
namespace Crewplane.Workflow

open Crewplane.Lib

/-! ## The block parser -/

inductive BlockType
  | headingOpen | inline | htmlBlock | other
  deriving DecidableEq, Repr

/-- What is read of a markdown-it token; `map` is its range of source lines. -/
structure BlockToken where
  type : BlockType
  tag : String := ""
  level : Nat := 0
  map : Option (Nat × Nat) := none
  content : String := ""
  deriving DecidableEq, Repr

/-- `COMMONMARK_PARSER.parse`. -/
abbrev BlockParser := String → List BlockToken

/-- The line ranges of the blocks at the root of the document, in token order. -/
def rootRanges (tokens : List BlockToken) : List (Nat × Nat) :=
  (tokens.filter fun token => token.level = 0).filterMap (·.map)

/-- Ranges that follow each other from `start` on, none empty, up to `stop`. -/
def Consecutive (start stop : Nat) : List (Nat × Nat) → Prop
  | [] => start ≤ stop
  | range :: ranges => start ≤ range.1 ∧ range.1 < range.2 ∧ Consecutive range.2 stop ranges

instance decidableConsecutive : (start stop : Nat) → (ranges : List (Nat × Nat)) →
    Decidable (Consecutive start stop ranges)
  | start, stop, [] => inferInstanceAs (Decidable (start ≤ stop))
  | start, stop, range :: ranges =>
    have := decidableConsecutive range.2 stop ranges
    inferInstanceAs (Decidable (start ≤ range.1 ∧ range.1 < range.2 ∧ Consecutive range.2 stop ranges))

/-- What is taken for granted of the parser: the root blocks of a document are consecutive
ranges of its lines. -/
def LineMapsOk (parse : BlockParser) : Prop :=
  ∀ text : String, Consecutive 0 (sourceLines text.toList).length (rootRanges (parse text))

/-! ## Sections -/

structure MarkdownSection where
  header : String
  headerStartLine : Nat
  contentStartLine : Nat
  contentEndLine : Nat
  deriving DecidableEq, Repr

/-- One iteration over the tokens (sections.py:24-32), on a token and its successor. -/
def headingAt (pair : BlockToken × BlockToken) : Option (String × Nat × Nat) :=
  if pair.1.type = .headingOpen ∧ pair.1.tag = "h2" ∧ pair.1.level = 0 ∧ pair.2.type = .inline then
    pair.1.map.map fun range => (strip pair.2.content, range.1, range.2)
  else none

def declaredHeadings (tokens : List BlockToken) (declaredNodeIds : List String) : List (String × Nat × Nat) :=
  ((tokens.zip tokens.tail).filterMap headingAt).filter fun heading => heading.1 ∈ declaredNodeIds

/-- Each section runs to the next declared heading, the last one to the end of the body. -/
def sectionRanges (bodyLineCount : Nat) : List (String × Nat × Nat) → List MarkdownSection
  | [] => []
  | [heading] => [⟨heading.1, heading.2.1, heading.2.2, bodyLineCount⟩]
  | heading :: next :: rest =>
    ⟨heading.1, heading.2.1, heading.2.2, next.2.1⟩ :: sectionRanges bodyLineCount (next :: rest)

def collectDocumentRootSections (parse : BlockParser) (body : String) (declaredNodeIds : List String) :
    List MarkdownSection :=
  sectionRanges (splitlines body.toList).length (declaredHeadings (parse body) declaredNodeIds)

structure ParsedSection where
  header : String
  text : String
  contentStartLine : Nat
  span : Nat × Nat
  deriving DecidableEq, Repr

structure ParsedWorkflowBody where
  sections : List ParsedSection
  deriving DecidableEq, Repr

/-- `node_sections.get(node_id, [])`, with the start lines and spans. -/
def ParsedWorkflowBody.nodeSections (body : ParsedWorkflowBody) (nodeId : String) : List ParsedSection :=
  body.sections.filter fun part => part.header = nodeId

def parseWorkflowBody (parse : BlockParser) (body : String) (declaredNodeIds : List String) (bodyStartLine : Nat) :
    ParsedWorkflowBody :=
  let lines := splitlines body.toList
  { sections := (collectDocumentRootSections parse body declaredNodeIds).map fun part =>
      { header := part.header
        text := String.ofList (slice lines part.contentStartLine part.contentEndLine).flatten
        contentStartLine := bodyStartLine + part.contentStartLine
        span := (bodyStartLine + part.headerStartLine, bodyStartLine + part.contentEndLine) } }

/-! ## Declared nodes -/

inductive NodeMode
  | input | parallel | sequential | foreach
  deriving DecidableEq, Repr

/-- `WorkflowNodeConfig`, by the fields the body is read for. -/
structure WorkflowNodeConfig where
  id : String
  mode : NodeMode
  deriving DecidableEq, Repr

def missingOrDuplicate (nodes : List WorkflowNodeConfig) (body : ParsedWorkflowBody) (nodeId : String) :
    List String :=
  let count := (body.nodeSections nodeId).length
  if count = 0 then
    if (nodes.reverse.find? (·.id = nodeId)).any (·.mode = .input) then []
    else ["Missing node section '## " ++ nodeId ++ "' in markdown body."]
  else if 1 < count then
    ["Duplicate node section '## " ++ nodeId ++ "' found " ++ toString count ++ " times."]
  else []

def validateNodeSections (nodes : List WorkflowNodeConfig) (body : ParsedWorkflowBody) (source : String) :
    Except String Unit :=
  let declared := (nodes.map (·.id)).dedup.mergeSort
  let inputs := ((nodes.filter (·.mode = .input)).map (·.id)).dedup.mergeSort
  let errors := declared.flatMap (missingOrDuplicate nodes body) ++
    (inputs.filter fun id => (body.nodeSections id).length ≠ 0).map fun id =>
      "Input node '" ++ id ++ "' must not define a markdown section."
  require (errors = []) (source ++ " is invalid:\n" ++ "\n".intercalate errors)

/-! ## Role markers -/

inductive ProviderRole
  | executor | reviewer
  deriving DecidableEq, Repr

inductive PromptSegmentRole
  | shared | executor | reviewer
  deriving DecidableEq, Repr

inductive MarkerKind
  | opening | closing
  deriving DecidableEq, Repr

structure MarkerEvent where
  markerKind : MarkerKind
  role : ProviderRole
  startLine : Nat
  endLine : Nat
  deriving DecidableEq, Repr

def ProviderRole.value : ProviderRole → String
  | .executor => "executor"
  | .reviewer => "reviewer"

/-- `segment_role` (markers.py:39). -/
def segmentRole : Option ProviderRole → PromptSegmentRole
  | none => .shared
  | some .executor => .executor
  | some .reviewer => .reviewer

/-- What follows `lead` in a text, if the text starts with it. -/
def after (lead : String) (text : List Char) : Option (List Char) :=
  if lead.toList.isPrefixOf text then some (text.drop lead.toList.length) else none

/-- `[a-z0-9._-]`. -/
def isMarkerChar (c : Char) : Bool := c.isLower || c.isDigit || c = '.' || c = '_' || c = '-'

/-- `CREWPLANE_OPEN_MARKER_PATTERN` and `CREWPLANE_CLOSE_MARKER_PATTERN` (markers.py:20-21), full match: the
text between `lead` and the final `-->`, less trailing whitespace, is a word of marker characters. -/
def markerName (lead : String) (text : List Char) : Option String := do
  let inner ← after "<!--" text
  let name ← after lead (inner.dropWhile isSpace)
  let reversed ← after ">--" name.reverse
  let word := (reversed.dropWhile isSpace).reverse
  if word ≠ [] ∧ word.all isMarkerChar then some (String.ofList word) else none

/-- `CREWPLANE_MARKER_NAMESPACE_PATTERN.match` (markers.py:22), case-insensitive. -/
def inMarkerNamespace (text : List Char) : Bool :=
  match after "<!--" text with
  | none => false
  | some inner =>
    let inner := inner.dropWhile isSpace
    let inner := ((after "/" inner).getD inner).dropWhile isSpace
    match after "crewplane" (inner.map Char.toLower) with
    | none => false
    | some rest => (rest.dropWhile isSpace).head? = some ':'

/-- `validate_marker_role` (markers.py:29). -/
def validateMarkerRole (rawRole source nodeId : String) : Except String ProviderRole :=
  if rawRole = "executor" then .ok .executor
  else if rawRole = "reviewer" then .ok .reviewer
  else .error (source ++ " node '" ++ nodeId ++ "' declares unknown crewplane role marker '" ++ rawRole
    ++ "'. Allowed roles: executor, reviewer.")

/-- One iteration of the token loop (markers.py:51-88). -/
def markerEventAt (source nodeId : String) (token : BlockToken) : Except String (Option MarkerEvent) :=
  match token.map with
  | none => .ok none
  | some range =>
    if token.type ≠ .htmlBlock ∨ token.level ≠ 0 then .ok none
    else
      let markerText := (strip token.content).toList
      match markerName "crewplane:" markerText, markerName "/crewplane:" markerText with
      | some rawRole, _ => do
        let role ← validateMarkerRole rawRole source nodeId
        return some ⟨.opening, role, range.1, range.2⟩
      | none, some rawRole => do
        let role ← validateMarkerRole rawRole source nodeId
        return some ⟨.closing, role, range.1, range.2⟩
      | none, none =>
        if inMarkerNamespace markerText then
          .error (source ++ " node '" ++ nodeId ++ "' contains malformed crewplane marker '" ++ strip token.content
            ++ "'.")
        else .ok none

def collectMarkerEvents (parse : BlockParser) (sectionText nodeId source : String) :
    Except String (List MarkerEvent) := do
  let events ← (parse sectionText).mapM (markerEventAt source nodeId)
  return events.filterMap id

/-! ## Segments -/

/-- A prompt segment with its span; the source returns the two in parallel lists. -/
structure PromptSegment where
  role : PromptSegmentRole
  content : String
  span : Nat × Nat
  deriving DecidableEq, Repr

def blockText (lines : List (List Char)) (start stop : Nat) : List Char := (slice lines start stop).flatten

/-- `append_segment` (markers.py:105). -/
def appendSegment (lines : List (List Char)) (contentStartLine start stop : Nat) (role : Option ProviderRole)
    (segments : List PromptSegment) : List PromptSegment :=
  let block := blockText lines start stop
  if block = [] then segments
  else segments ++ [⟨segmentRole role, String.ofList block, (contentStartLine + start, contentStartLine + stop)⟩]

/-- The loop over the events, with `active_role`, `cursor_line` and the segments so far. -/
def extractLoop (lines : List (List Char)) (contentStartLine : Nat) (label : String) :
    List MarkerEvent → Option ProviderRole → Nat → List PromptSegment → Except String (List PromptSegment)
  | [], active, cursor, segments =>
    let segments := appendSegment lines contentStartLine cursor lines.length active segments
    match active with
    | none => .ok segments
    | some role => .error (label ++ " has an unclosed '" ++ role.value ++ "' crewplane role marker.")
  | event :: events, active, cursor, segments =>
    let segments := appendSegment lines contentStartLine cursor event.startLine active segments
    match event.markerKind, active with
    | .opening, some _ => .error (label ++ " contains nested crewplane role markers.")
    | .opening, none => extractLoop lines contentStartLine label events (some event.role) event.endLine segments
    | .closing, none =>
      .error (label ++ " contains a crewplane role close marker without a matching open marker.")
    | .closing, some role =>
      if event.role ≠ role then
        .error (label ++ " closes role '" ++ event.role.value ++ "' while role '" ++ role.value ++ "' is open.")
      else if (stripChars (blockText lines cursor event.startLine)) = [] then
        .error (label ++ " contains an empty '" ++ role.value ++ "' crewplane role block.")
      else extractLoop lines contentStartLine label events none event.endLine segments

def extractPromptSegmentPayloads (parse : BlockParser) (sectionText source nodeId : String) (contentStartLine : Nat) :
    Except String (List PromptSegment) := do
  let events ← collectMarkerEvents parse sectionText nodeId source
  extractLoop (splitlines sectionText.toList) contentStartLine (source ++ " node '" ++ nodeId ++ "'") events none 0 []

/-- The text after the first `-->`. -/
def afterCommentEnd : List Char → Option (List Char)
  | '-' :: '-' :: '>' :: rest => some rest
  | _ :: rest => afterCommentEnd rest
  | [] => none

/-- `re.sub(r"<!--.*?-->", "", text, flags=re.DOTALL)`, with one unit of fuel for each character. -/
def removeComments : Nat → List Char → List Char
  | 0, text => text
  | _ + 1, [] => []
  | fuel + 1, c :: rest =>
    match (after "<!--" (c :: rest)).bind afterCommentEnd with
    | some tail => removeComments fuel tail
    | none => c :: removeComments fuel rest

/-- `validate_input_node_section` (markers.py:159). -/
def validateInputNodeSection (parse : BlockParser) (sectionText source nodeId : String) : Except String Unit := do
  let events ← collectMarkerEvents parse sectionText nodeId source
  require (events = []) (source ++ " node '" ++ nodeId ++ "' is input mode and must not contain crewplane role markers.")
  require (stripChars sectionText.toList = [])
    (source ++ " node '" ++ nodeId ++ "' is input mode and must not contain authored prompt text.")

def buildNodePromptSegments (parse : BlockParser) (node : WorkflowNodeConfig) (sectionText source : String)
    (contentStartLine : Nat) : Except String (List PromptSegment) :=
  match node.mode with
  | .foreach => do
    require (stripChars (removeComments sectionText.toList.length sectionText.toList) = [])
      ("Foreach '" ++ node.id ++ "' section must be empty or comment-only")
    return []
  | .input => do
    validateInputNodeSection parse sectionText source node.id
    return []
  | _ => extractPromptSegmentPayloads parse sectionText source node.id contentStartLine

/-- The prompt segments of one node's first section, or of no text (`_build_node_payload`, payloads.py:91). -/
def buildNodePayload (parse : BlockParser) (body : ParsedWorkflowBody) (source : String) (node : WorkflowNodeConfig) :
    Except String (String × List PromptSegment) := do
  let part := (body.nodeSections node.id).head?
  let segments ← buildNodePromptSegments parse node ((part.map (·.text)).getD "") source
    ((part.map (·.contentStartLine)).getD 0)
  return (node.id, segments)

/-- The prompt part of `parse_workflow_markdown_document` (__init__.py:49). -/
def buildWorkflowPayload (parse : BlockParser) (nodes : List WorkflowNodeConfig) (body source : String)
    (bodyStartLine : Nat) : Except String (List (String × List PromptSegment)) := do
  let parsed := parseWorkflowBody parse body (nodes.map (·.id)) bodyStartLine
  validateNodeSections nodes parsed source
  nodes.mapM (buildNodePayload parse parsed source)

end Crewplane.Workflow
