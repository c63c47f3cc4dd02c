import Crewplane.Lib.Effects
import Crewplane.Lib.Rfc8259
/-
# The streaming parser of Claude's result (claude_json_parser.py, json_number.py)

The parser object is a state: the cursor over the chunks and the selection, with the file the result is
written to. A method is a computation over it. Only `parse_claude_result` is modelled, which captures
nothing. A loop of the source runs on fuel, one more than the characters left where it is entered
(`fueled`): each round reads a character, so the fuel never runs out.
-/
namespace Crewplane.Claude

open Lib.Rfc8259 (hexDigits hexNumber)

/-! ## The automaton of numbers (json_number.py) -/

inductive JsonNumberState where
  | start
  | sign
  | zero
  | integer
  | fractionStart
  | fraction
  | exponentStart
  | exponentSign
  | exponent
deriving DecidableEq

inductive JsonNumberToken where
  | zero
  | digit
  | decimalPoint
  | exponentMarker
  | plus
  | minus
deriving DecidableEq

open JsonNumberState in
def jsonNumberTerminalStates : List JsonNumberState := [zero, integer, fraction, exponent]

open JsonNumberState in
def repeatingStates : List JsonNumberState := [integer, fraction, exponent]

def tokens : Char → Option JsonNumberToken
  | '.' => some .decimalPoint
  | 'E' => some .exponentMarker
  | 'e' => some .exponentMarker
  | '+' => some .plus
  | '-' => some .minus
  | _ => none

@[simp] def transitions : JsonNumberState → JsonNumberToken → Option JsonNumberState
  | .start, .minus => some .sign
  | .start, .zero => some .zero
  | .start, .digit => some .integer
  | .sign, .zero => some .zero
  | .sign, .digit => some .integer
  | .zero, .decimalPoint => some .fractionStart
  | .zero, .exponentMarker => some .exponentStart
  | .integer, .decimalPoint => some .fractionStart
  | .integer, .exponentMarker => some .exponentStart
  | .fractionStart, .zero => some .fraction
  | .fractionStart, .digit => some .fraction
  | .fraction, .exponentMarker => some .exponentStart
  | .exponentStart, .zero => some .exponent
  | .exponentStart, .digit => some .exponent
  | .exponentStart, .plus => some .exponentSign
  | .exponentStart, .minus => some .exponentSign
  | .exponentSign, .zero => some .exponent
  | .exponentSign, .digit => some .exponent
  | _, _ => none

def positiveDigits : List Char := ['1', '2', '3', '4', '5', '6', '7', '8', '9']

def digits : List Char := '0' :: positiveDigits

def classifyChar (c : Char) : Option JsonNumberToken :=
  if c = '0' then some .zero else if c ∈ positiveDigits then some .digit else tokens c

/-- `none` stands for the `JsonNumberError` the source raises. -/
def startJsonNumber (first : Char) : Option JsonNumberState :=
  if first = '-' then some .sign
  else if first = '0' then some .zero
  else if first ∈ positiveDigits then some .integer
  else none

def advanceJsonNumber (state : JsonNumberState) (c : Char) : Option JsonNumberState :=
  if state ∈ repeatingStates ∧ c ∈ digits then some state
  else (classifyChar c).bind (transitions state)

/-! ## The parser's state -/

/-- `_JsonCharCursor`; the pushback lists the character to read next first. -/
structure JsonCharCursor where
  chunks : List (List Char)
  current : List Char
  index : Nat
  pushback : List Char

/-- `_ResultSelection`; `file` is the text at its output path, `none` where there is no file. -/
structure ResultSelection where
  file : Option (List Char)
  charCount : Option Nat

structure State where
  cursor : JsonCharCursor
  selection : ResultSelection

/-- Where `ClaudeJsonParseError` is raised. -/
inductive ClaudeJsonParseError where
  | resultNotString
  | endOfValue
  | separator
  | scalar
  | controlCharacter
  | stringEscape
  | unicodeEscape
  | trailingData
  | expected (c : Char)
  | endOfInput

def ClaudeJsonParseError.message : ClaudeJsonParseError → String
  | resultNotString => "Claude result must be a JSON string."
  | endOfValue => "Unexpected end of JSON value."
  | separator => "Expected JSON value separator."
  | scalar => "Invalid JSON scalar value."
  | controlCharacter => "Unescaped control character."
  | stringEscape => "Invalid JSON string escape."
  | unicodeEscape => "Invalid unicode escape."
  | trailingData => "Unexpected trailing JSON data."
  | expected c => "Expected '" ++ String.singleton c ++ "'."
  | endOfInput => "Unexpected end of JSON input."

inductive Failure where
  | parseError (e : ClaudeJsonParseError)
  | outOfFuel

abbrev ParserM := EStateM Failure State

variable {α : Type}

/-- `raise ClaudeJsonParseError(..)`. -/
def malformed (e : ClaudeJsonParseError) : ParserM α := throw (.parseError e)

/-! ## The cursor -/

/-- The loop of `read`: go to the next chunk that has characters, then read one. -/
def fetch (current : List Char) (index : Nat) : List (List Char) → Option Char × JsonCharCursor
  | [] => (current[index]?, ⟨[], current, if index < current.length then index + 1 else index, []⟩)
  | chunk :: chunks =>
    if index < current.length then (current[index]?, ⟨chunk :: chunks, current, index + 1, []⟩)
    else if chunk.isEmpty then fetch current index chunks
    else fetch chunk 0 chunks

def read : ParserM (Option Char) := fun st =>
  match st.cursor.pushback with
  | c :: pushback => .ok (some c) { st with cursor := { st.cursor with pushback } }
  | [] =>
    let fetched := fetch st.cursor.current st.cursor.index st.cursor.chunks
    .ok fetched.1 { st with cursor := fetched.2 }

def unread (chars : List Char) : ParserM Unit :=
  modify fun st => { st with cursor := { st.cursor with pushback := chars ++ st.cursor.pushback } }

def peek : ParserM (Option Char) := do
  match ← read with
  | none => pure none
  | some c =>
    unread [c]
    pure (some c)

/-- The characters still to be read. -/
def JsonCharCursor.rest (cursor : JsonCharCursor) : List Char :=
  cursor.pushback ++ (cursor.current.drop cursor.index ++ cursor.chunks.flatten)

/-- A `while` loop, with enough fuel for a round on each character left and one more. -/
def fueled (loop : Nat → ParserM α) : ParserM α := fun st => loop (st.cursor.rest.length + 1) st

def readRequired : ParserM Char := do
  match ← read with
  | none => malformed .endOfInput
  | some c => pure c

def expect (expected : Char) : ParserM Unit := do
  let c ← readRequired
  if c ≠ expected then malformed (.expected expected)

/-! ## White space -/

def jsonWhitespace : List Char := [' ', '\t', '\r', '\n']

def jsonScalarEnd : List Char := jsonWhitespace ++ [',', '\x7d', ']']

def skipWhitespaceLoop : Nat → ParserM Unit
  | 0 => throw .outOfFuel
  | n + 1 => do
    let c ← readRequired
    if c ∉ jsonWhitespace then unread [c] else skipWhitespaceLoop n

def skipWhitespace : ParserM Unit := fueled skipWhitespaceLoop

def skipTrailingWhitespaceLoop : Nat → ParserM Unit
  | 0 => throw .outOfFuel
  | n + 1 => do
    match ← read with
    | none => pure ()
    | some c => if c ∉ jsonWhitespace then malformed .trailingData else skipTrailingWhitespaceLoop n

def skipTrailingWhitespace : ParserM Unit := fueled skipTrailingWhitespaceLoop

/-! ## Strings -/

/-- `_SIMPLE_JSON_ESCAPES`. -/
def simpleJsonEscapes : Char → Option Char
  | '"' => some '"'
  | '\\' => some '\\'
  | '/' => some '/'
  | 'b' => some '\x08'
  | 'f' => some '\x0c'
  | 'n' => some '\n'
  | 'r' => some '\r'
  | 't' => some '\t'
  | _ => none

def validateStringChar (c : Char) : ParserM Unit :=
  if c.toNat < 0x20 then malformed .controlCharacter else pure ()

def readHexQuad : ParserM (List Char) := do
  let a ← readRequired
  let b ← readRequired
  let c ← readRequired
  let d ← readRequired
  if [a, b, c, d].any (· ∉ hexDigits) then malformed .unicodeEscape else pure [a, b, c, d]

/-- `"\ufffd"`. -/
def replacement : Char := '\ufffd'

def readSurrogatePair (high : Nat) : ParserM Char := do
  let first ← readRequired
  let second ← readRequired
  if [first, second] ≠ ['\\', 'u'] then
    unread [first, second]
    pure replacement
  else
    let lowChars ← readHexQuad
    let low := hexNumber lowChars
    if 0xDC00 ≤ low ∧ low ≤ 0xDFFF then
      pure (Char.ofNat (0x10000 + ((high - 0xD800) <<< 10) + (low - 0xDC00)))
    else
      unread ([first, second] ++ lowChars)
      pure replacement

def readUnicodeEscape : ParserM Char := do
  let value := hexNumber (← readHexQuad)
  if 0xD800 ≤ value ∧ value ≤ 0xDBFF then readSurrogatePair value
  else if 0xDC00 ≤ value ∧ value ≤ 0xDFFF then pure replacement
  else pure (Char.ofNat value)

def readEscape : ParserM Char := do
  let escaped ← readRequired
  if escaped = 'u' then readUnicodeEscape
  else match simpleJsonEscapes escaped with
    | none => malformed .stringEscape
    | some c => pure c

/-- One round of `_iter_decoded_string_chars` after the opening quote: `none` at the closing one. -/
def nextDecodedStringChar : ParserM (Option Char) := do
  let c ← readRequired
  if c = '"' then pure none
  else
    validateStringChar c
    if c = '\\' then some <$> readEscape else pure (some c)

def readStringLoop : Nat → ParserM (List Char)
  | 0 => throw .outOfFuel
  | n + 1 => do
    match ← nextDecodedStringChar with
    | none => pure []
    | some c =>
      let cs ← readStringLoop n
      pure (c :: cs)

def readString : ParserM (List Char) := do
  expect '"'
  fueled readStringLoop

/-- `handle.write(char)`. -/
def writeChar (c : Char) : ParserM Unit :=
  modify fun st => { st with selection := { st.selection with file := st.selection.file.map (· ++ [c]) } }

def streamStringLoop : Nat → Nat → ParserM Nat
  | _, 0 => throw .outOfFuel
  | count, n + 1 => do
    match ← nextDecodedStringChar with
    | none => pure count
    | some c =>
      writeChar c
      streamStringLoop (count + 1) n

def streamString : ParserM Nat := do
  expect '"'
  fueled (streamStringLoop 0)

def skipRawEscape : ParserM Unit := do
  let escaped ← readRequired
  if (simpleJsonEscapes escaped).isSome then pure ()
  else if escaped ≠ 'u' then malformed .stringEscape
  else discard readHexQuad

def skipStringLoop : Nat → ParserM Unit
  | 0 => throw .outOfFuel
  | n + 1 => do
    let c ← readRequired
    if c = '"' then pure ()
    else
      validateStringChar c
      if c = '\\' then skipRawEscape
      skipStringLoop n

def skipString : ParserM Unit := do
  expect '"'
  fueled skipStringLoop

/-! ## Scalars -/

def requireScalarEnd : ParserM Unit := do
  match ← peek with
  | none => pure ()
  | some c => if c ∉ jsonScalarEnd then malformed .scalar

def consumeNumberTail : JsonNumberState → Nat → ParserM JsonNumberState
  | _, 0 => throw .outOfFuel
  | state, n + 1 => do
    match ← read with
    | none => pure state
    | some c =>
      if c ∈ jsonScalarEnd then
        unread [c]
        pure state
      else match advanceJsonNumber state c with
        | none => malformed .scalar
        | some state => consumeNumberTail state n

def skipNumber (first : Char) : ParserM Unit :=
  match startJsonNumber first with
  | none => malformed .scalar
  | some state => do
    let state ← fueled (consumeNumberTail state)
    if state ∉ jsonNumberTerminalStates then malformed .scalar

def jsonLiteralSuffixes : Char → Option (List Char)
  | 'f' => some ['a', 'l', 's', 'e']
  | 'n' => some ['u', 'l', 'l']
  | 't' => some ['r', 'u', 'e']
  | _ => none

def skipLiteralSuffix : List Char → ParserM Unit
  | [] => requireScalarEnd
  | expected :: suffix => do
    let c ← readRequired
    if c ≠ expected then malformed .scalar else skipLiteralSuffix suffix

def skipScalar : ParserM Unit := do
  let first ← readRequired
  match jsonLiteralSuffixes first with
  | some suffix => skipLiteralSuffix suffix
  | none => skipNumber first

/-! ## Containers -/

inductive JsonContainer where
  | object
  | array
deriving DecidableEq

def JsonContainer.opener : JsonContainer → Char
  | object => '\x7b'
  | array => '['

def JsonContainer.closer : JsonContainer → Char
  | object => '\x7d'
  | array => ']'

inductive JsonContainerPhase where
  | itemOrEnd
  | item
  | separator
deriving DecidableEq

structure JsonContainerFrame where
  container : JsonContainer
  phase : JsonContainerPhase

def consumeValueStart : ParserM (Option JsonContainer) := do
  skipWhitespace
  match ← peek with
  | none => malformed .endOfValue
  | some c =>
    if c = '"' then
      skipString
      pure none
    else if c = JsonContainer.object.opener then
      expect JsonContainer.object.opener
      pure (some .object)
    else if c = JsonContainer.array.opener then
      expect JsonContainer.array.opener
      pure (some .array)
    else
      skipScalar
      pure none

def consumeEmptyContainer (frame : JsonContainerFrame) : ParserM Bool := do
  if frame.phase ≠ .itemOrEnd then pure false
  else if (← peek) ≠ some frame.container.closer then pure false
  else
    expect frame.container.closer
    pure true

def skipContainerItem (frame : JsonContainerFrame) : ParserM (Option JsonContainer) := do
  if frame.container = .object then
    skipString
    skipWhitespace
    expect ':'
  consumeValueStart

def readHasNextItem (closer : Char) : ParserM Bool := do
  let separator ← readRequired
  if separator = closer then pure false
  else if separator ≠ ',' then malformed .separator
  else pure true

/-- The frames above those already there, once an item has been read up to a nested container. -/
def enter (frames : List JsonContainerFrame) : Option JsonContainer → List JsonContainerFrame
  | none => frames
  | some nested => ⟨nested, .itemOrEnd⟩ :: frames

/-- `_advance_container`: `frame` is `frames[-1]`, `below` the frames under it. -/
def advanceContainer (frame : JsonContainerFrame) (below : List JsonContainerFrame) :
    ParserM (List JsonContainerFrame) := do
  skipWhitespace
  if ← consumeEmptyContainer frame then pure below
  else if frame.phase ≠ .separator then
    let nested ← skipContainerItem frame
    pure (enter ({ frame with phase := .separator } :: below) nested)
  else if ← readHasNextItem frame.container.closer then pure ({ frame with phase := .item } :: below)
  else pure below

def skipContainerTailLoop : List JsonContainerFrame → Nat → ParserM Unit
  | [], _ => pure ()
  | _ :: _, 0 => throw .outOfFuel
  | frame :: below, n + 1 => do
    let frames ← advanceContainer frame below
    skipContainerTailLoop frames n

def skipContainerTail (container : JsonContainer) : ParserM Unit :=
  fueled (skipContainerTailLoop [⟨container, .itemOrEnd⟩])

def skipValue : ParserM Unit := do
  match ← consumeValueStart with
  | none => pure ()
  | some container => skipContainerTail container

/-! ## The object -/

/-- `output_path.open("w", ..)`. -/
def openForWriting : ParserM Unit :=
  modify fun st => { st with selection := { st.selection with file := some [] } }

def readResultValue : ParserM Nat := do
  if (← peek) ≠ some '"' then
    skipValue
    malformed .resultNotString
  else
    openForWriting
    streamString

/-- `"result"`. -/
def resultKey : List Char := ['r', 'e', 's', 'u', 'l', 't']

def parseMemberValue (key : List Char) : ParserM Unit := do
  skipWhitespace
  if key = resultKey then
    let charCount ← readResultValue
    modify fun st => { st with selection := { st.selection with charCount := some charCount } }
  else skipValue

def parseMember : ParserM Unit := do
  let key ← readString
  skipWhitespace
  expect ':'
  parseMemberValue key

def consumeObjectEnd : ParserM Bool := do
  if (← peek) ≠ some '\x7d' then pure false
  else
    expect '\x7d'
    pure true

def parseMembersLoop : Nat → ParserM Unit
  | 0 => throw .outOfFuel
  | n + 1 => do
    parseMember
    skipWhitespace
    if ← readHasNextItem '\x7d' then
      skipWhitespace
      parseMembersLoop n

def parseMembers : ParserM Unit := do
  skipWhitespace
  if ← consumeObjectEnd then pure () else fueled parseMembersLoop

def parse : ParserM Unit := do
  skipWhitespace
  expect '\x7b'
  parseMembers
  skipTrailingWhitespace

/-- The answer of `parse_claude_result` and the text of its output file, which held `file` before. -/
def parseClaudeResult (chunks : List (List Char)) (file : Option (List Char)) :
    Except Failure (Option Nat) × Option (List Char) :=
  match parse ⟨⟨chunks, [], 0, []⟩, ⟨file, none⟩⟩ with
  | .ok _ st => (.ok st.selection.charCount, st.selection.file)
  | .error e st => (.error e, st.selection.file)

end Crewplane.Claude
