import Crewplane.Lib.PyJsonSorted
import Crewplane.Observability.Sanitize
/-
# JSON records on display (observability/log_presentation/json_extract.py)

| here | there |
|------|-------|
| `Writer`, `write`, `dumps`, `reprValue` | `json.dumps(…, sort_keys=True, ensure_ascii=False)`, `repr` |
| `compactJsonLine`, `renderJsonRecord`, `renderJsonObject` | json_extract.py:34, 52, 73 |
| `renderMockRecord`, `renderCodexRecord`, `renderKiloRecord`, `renderGeminiObject`, `renderClaudeObject` | 91–182 |
| `renderGenericRecord`, `displayStringLines` | 185, 196 |
| `codexDetail`, `codexItemEventLines`, `codexItemDetail`, … | 221–446 |

A record is the value that `json.loads` returned: its integers have at most `sys.get_int_max_str_digits()` digits, so that
writing it down fails for a number that is not finite alone, and `repr` is used then. `field` is `record.get`, where a
missing key and a `null` are the same.
-/
namespace Crewplane.Observability

open Crewplane.Lib Crewplane.Lib.PyJson
open Crewplane.Lib.Rfc8259 (Element)

/-- What Python asks of a character above ASCII: `str.lower` of a text, and whether `repr` writes a code point as it is. -/
structure TextTables where
  lower : Str → Str
  printable : Nat → Bool
  printable_ascii : ∀ n, n < 0x80 → printable n = decide (0x20 ≤ n ∧ n < 0x7f)

/-! ## Values as text -/

/-- How the scalars of a text are written. -/
structure Writer where
  null : Str
  yes : Str
  no : Str
  number : Binary64 → Str
  quote : Str → Str

mutual

def write (w : Writer) : PyJson.Value → Str
  | .null => w.null
  | .bool b => if b then w.yes else w.no
  | .int n => Str.ofChars (NumberText.ofInt n).render
  | .float x => w.number x
  | .str s => w.quote s
  | .arr items => Str.of "[" ++ (Str.of ", ").intercalate (writeItems w items) ++ Str.of "]"
  | .obj members => Str.ofChars ['\x7b'] ++ (Str.of ", ").intercalate (writeMembers w members) ++ Str.ofChars ['\x7d']

def writeItems (w : Writer) : List PyJson.Value → List Str
  | [] => []
  | item :: rest => write w item :: writeItems w rest

def writeMembers (w : Writer) : List (Str × PyJson.Value) → List Str
  | [] => []
  | (key, item) :: rest => (w.quote key ++ Str.of ": " ++ write w item) :: writeMembers w rest

end

/-- `ensure_ascii=False`: a surrogate is written as it is. -/
def escapeJson : Element → Str
  | .scalar c => Str.ofChars (Json.escape Json.Style.compact c)
  | .surrogate n => [.surrogate n]

def jsonWriter : Writer where
  null := Str.of "null"
  yes := Str.of "true"
  no := Str.of "false"
  number x := Str.ofChars (floatText x)
  quote s := Str.of "\"" ++ s.flatMap escapeJson ++ Str.of "\""

/-- The last `k` hexadecimal digits of `n`. -/
def hexDigitsOf : Nat → Nat → List Char
  | 0, _ => []
  | k + 1, n => hexDigitsOf k (n / 16) ++ [Nat.digitChar (n % 16)]

/-- A character in a `repr` between the quotes `q`. -/
def escapeRepr (T : TextTables) (q : Char) (c : Element) : Str :=
  let n := code c
  if n = q.toNat ∨ n = 0x5c then Str.of "\\" ++ [c]
  else if n = 9 then Str.of "\\t"
  else if n = 10 then Str.of "\\n"
  else if n = 13 then Str.of "\\r"
  else if T.printable n then [c]
  else if n < 0x100 then Str.ofChars ('\\' :: 'x' :: hexDigitsOf 2 n)
  else if n < 0x10000 then Str.ofChars ('\\' :: 'u' :: hexDigitsOf 4 n)
  else Str.ofChars ('\\' :: 'U' :: hexDigitsOf 8 n)

/-- The double quote is used for a string that has single quotes alone. -/
def reprQuote (s : Str) : Char :=
  if Element.scalar '\'' ∈ s ∧ Element.scalar '"' ∉ s then '"' else '\''

def reprWriter (T : TextTables) : Writer where
  null := Str.of "None"
  yes := Str.of "True"
  no := Str.of "False"
  number x := match x with
    | .finite .. => Str.ofChars (floatText x)
    | .infinite negative => if negative then Str.of "-inf" else Str.of "inf"
    | .nan => Str.of "nan"
  quote s := Str.ofChars [reprQuote s] ++ s.flatMap (escapeRepr T (reprQuote s)) ++ Str.ofChars [reprQuote s]

mutual

/-- `allow_nan=False`: a number that is not finite is an error. -/
def allFinite : PyJson.Value → Bool
  | .float (.infinite _) => false
  | .float .nan => false
  | .arr items => allFiniteItems items
  | .obj members => allFiniteMembers members
  | _ => true

def allFiniteItems : List PyJson.Value → Bool
  | [] => true
  | item :: rest => allFinite item && allFiniteItems rest

def allFiniteMembers : List (Str × PyJson.Value) → Bool
  | [] => true
  | (_, item) :: rest => allFinite item && allFiniteMembers rest

end

/-- `json.dumps(value, allow_nan=False, sort_keys=True, ensure_ascii=False)`. -/
def dumps (value : PyJson.Value) : Option Str := if allFinite value then some (write jsonWriter (sorted value)) else none

section Render

variable (T : TextTables)

def reprValue (value : PyJson.Value) : Str := write (reprWriter T) value

/-- `str(value)`. -/
def strValue : PyJson.Value → Str
  | .str s => s
  | value => reprValue T value

def compactJsonLine (value : PyJson.Value) (limit : Int) : Str :=
  let redacted := redactJsonValue T.lower value
  clipText ((dumps redacted).getD (reprValue T redacted)) limit

/-! ## Fields -/

abbrev Record := List (Str × PyJson.Value)

def field (record : Record) (key : String) : PyJson.Value := (Dict.get? record (Str.of key)).getD .null

def blank : Element → Bool
  | .scalar c => isSpace c
  | .surrogate _ => false

/-- `text.strip()`. -/
def stripText (text : Str) : Str := ((text.dropWhile blank).reverse.dropWhile blank).reverse

/-- The string that is not blank. -/
def filled : PyJson.Value → Option Str
  | .str s => if stripText s ≠ [] then some s else none
  | _ => none

/-- The first of these keys with such a string. -/
def firstFilled (record : Record) (keys : List String) : Option (String × Str) :=
  keys.findSome? fun key => (filled (field record key)).map (key, ·)

def stringField (record : Record) (key : String) : Option Str := (filled (field record key)).map stripText

def labelled (label : String) (text : Str) : Str := Str.of label ++ Str.of ": " ++ text

/-- `if value:`. -/
def truthy : PyJson.Value → Bool
  | .null => false
  | .bool b => b
  | .int n => n ≠ 0
  | .float x => match x with
    | .finite _ m => m.mantissa ≠ 0
    | _ => true
  | .str s => s ≠ []
  | .arr items => !items.isEmpty
  | .obj members => !members.isEmpty

/-- `a or b`. -/
def orElse (a b : PyJson.Value) : PyJson.Value := if truthy a then a else b

/-- A text that `if value:` takes. -/
def present (text : Option Str) : Option Str := text.filter (· ≠ [])

def displayFieldValue (limit : Int) : PyJson.Value → Option Str
  | .null => none
  | .str s => present (some (stripText s))
  | .bool b => some (strValue T (.bool b))
  | .int n => some (strValue T (.int n))
  | .float x => some (strValue T (.float x))
  | .arr items => some (compactJsonLine T (.arr items) limit)
  | .obj members => some (compactJsonLine T (.obj members) limit)

def firstDisplayValue (limit : Int) (record : Record) (keys : List String) : Option Str :=
  keys.findSome? fun key => present (displayFieldValue T limit (field record key))

/-- The fields that have a value, each with its key in front. -/
def labelledFields (limit : Int) (keys : List String) (value : String → PyJson.Value) : List Str :=
  keys.filterMap fun key => (present (displayFieldValue T limit (value key))).map (labelled key)

def joinBars (components : List Str) : Str := (Str.of " | ").intercalate components

/-! ## Lines of a text -/

/-- `text.replace("\r\n", "\n")`. -/
def unixLines : Str → Str
  | [] => []
  | [c] => [c]
  | c :: d :: rest => if code c = 13 ∧ code d = 10 then d :: unixLines rest else c :: unixLines (d :: rest)

def displayStringLines (value : Str) (limit : Int) (label : Option String) : List Str :=
  let stripped := stripText value
  if stripped = [] then []
  else
    match (unixLines stripped).splitOn (Element.scalar '\n') with
    | [] => []
    | first :: later =>
      sanitizeLine ((label.map Str.of).elim first fun name => name ++ Str.of ": " ++ first) limit ::
        later.map fun line => sanitizeLine (Str.of "  " ++ line) limit

/-! ## Records -/

def renderGenericRecord (record : Record) (limit : Int) : List Str :=
  match firstFilled record ["message", "content", "text", "result", "error"] with
  | some (key, value) => displayStringLines value limit (some key)
  | none => [compactJsonLine T (.obj record) limit]

def mockField (record : Record) (key : String) : Option Str :=
  match field record key with
  | .null => none
  | value => some (Str.of key ++ Str.of "=" ++ strValue T value)

def renderMockRecord (record : Record) (limit : Int) : List Str :=
  let details := (Str.of " ").intercalate (["source", "output_mode", "node_id", "task_id"].filterMap (mockField T record))
  let shown := if details ≠ [] then details else compactJsonLine T (.obj record) defaultMaxDisplayChars
  [sanitizeLine (Str.of "mock: " ++ shown) limit]

def renderKiloRecord (record : Record) (limit : Int) : List Str :=
  let eventType := stringField record "type"
  if eventType = some (Str.of "step_finish") then []
  else
    match field record "part" with
    | .obj part =>
      match stringField part "text" with
      | some text =>
        if eventType = some (Str.of "text") then displayStringLines text limit none else renderGenericRecord T record limit
      | none => renderGenericRecord T record limit
    | _ => renderGenericRecord T record limit

def renderGeminiObject (record : Record) (limit : Int) : List Str :=
  match stringField record "response" with
  | some response => displayStringLines response limit none
  | none => renderGenericRecord T record limit

/-! ### Claude -/

def claudeText (record : Record) (limit : Int) (key : String) : List Str :=
  match field record key with
  | .null => []
  | .str s => if s = [] then [] else displayStringLines s limit (some key)
  | value => [sanitizeLine (labelled key (strValue T value)) limit]

def claudeUsage (record : Record) (limit : Int) : List Str :=
  match field record "usage" with
  | .null => []
  | usage => [sanitizeLine (labelled "usage" (compactJsonLine T usage limit)) limit]

def claudeNumber (record : Record) (limit : Int) (key : String) : List Str :=
  match field record key with
  | .null => []
  | value => [sanitizeLine (labelled key (strValue T value)) limit]

def renderClaudeObject (record : Record) (limit : Int) : List Str :=
  let lines := ["result", "error"].flatMap (claudeText T record limit) ++ claudeUsage T record limit ++
    ["total_cost_usd", "duration_ms", "num_turns"].flatMap (claudeNumber T record limit)
  if lines ≠ [] then lines else renderGenericRecord T record limit

/-! ### Codex -/

def codexDirectContentFields : List String := ["message", "content", "text", "delta"]

def codexItemTextFields : List String := ["text", "content"]

def codexItemOutputFields : List String := ["output", "stdout", "stderr", "result", "aggregated_output"]

def codexWebSearchDetailCandidates (item : Record) : List PyJson.Value :=
  let asked := match field item "action" with
    | .obj action =>
      let queries := match field action "queries" with
        | .arr queries => queries
        | _ => []
      field action "query" :: queries
    | _ => []
  asked ++ [field item "query"]

def codexWebSearchDetail (item : Record) : Option Str :=
  (codexWebSearchDetailCandidates item).findSome? fun value => (filled value).map stripText

def codexCommandStatusMetadata (record item : Record) (limit : Int) : Str :=
  joinBars (labelledFields T limit ["status", "exit_code"] fun key =>
    match field item key with
    | .null => field record key
    | value => value)

def codexCommandExecutionMetadata (record item : Record) (limit : Int) : Str :=
  joinBars (labelledFields T limit ["command"] (field item) ++
    (present (some (codexCommandStatusMetadata T record item limit))).toList)

def codexItemDetail (record item : Record) (limit : Int) : Option Str :=
  let components := (present (codexWebSearchDetail item)).toList ++ (firstDisplayValue T limit item codexItemTextFields).toList ++
    (present (some (codexCommandExecutionMetadata T record item limit))).toList ++
    labelledFields T limit codexItemOutputFields (field item)
  if components ≠ [] then some (joinBars components) else none

def codexDetail (record : Record) (limit : Int) : Str :=
  match firstFilled record ["message", "content", "text"] with
  | some (_, value) => clipText value limit
  | none =>
    let itemDetail := match field record "item" with
      | .obj item => present (codexItemDetail T record item limit)
      | _ => none
    match itemDetail, (labelledFields T limit ["status", "exit_code"] (field record)).head? with
    | some detail, _ => detail
    | none, some status => status
    | none, none => compactJsonLine T (.obj record) limit

def lineFeed : Element := .scalar '\n'

/-- The first line and the lines under it. -/
def codexCommandExecutionLines (record item : Record) (itemType phase : Str) (limit : Int) : Option (List Str) :=
  let entry (metadata : Str) (body : List Str) : List Str :=
    let first := itemType ++ Str.of " " ++ phase
    sanitizeLine (if metadata ≠ [] then first ++ Str.of ": " ++ metadata else first) limit :: body
  if itemType ≠ Str.of "command_execution" then none
  else
    match (stringField item "command").filter (lineFeed ∈ ·), (filled (field item "aggregated_output")).filter (lineFeed ∈ ·) with
    | some command, _ =>
      some (entry (codexCommandStatusMetadata T record item limit)
        (displayStringLines command limit (some "command") ++
          ((firstDisplayValue T limit item codexItemTextFields).toList.flatMap fun text => displayStringLines text limit none) ++
          codexItemOutputFields.flatMap fun key =>
            (present (displayFieldValue T limit (field item key))).toList.flatMap fun value =>
              displayStringLines value limit (some key)))
    | none, some output =>
      some (entry (codexCommandExecutionMetadata T record item limit)
        (displayStringLines output limit (some "aggregated_output")))
    | none, none => none

def codexItemEventLines (record : Record) (eventType : Str) (limit : Int) : Option (List Str) :=
  match field record "item" with
  | .obj item =>
    if (Str.of "item.").isPrefixOf eventType then
      let phase := eventType.drop (Str.of "item.").length
      let itemType := (stringField item "type").getD (Str.of "item")
      match codexCommandExecutionLines T record item itemType phase limit, present (codexItemDetail T record item limit) with
      | some lines, _ => some lines
      | none, some detail => some [sanitizeLine (itemType ++ Str.of " " ++ phase ++ Str.of ": " ++ detail) limit]
      | none, none =>
        if stringField item "type" = some (Str.of "web_search") then some [sanitizeLine (itemType ++ Str.of " " ++ phase) limit]
        else none
    else none
  | _ => none

def codexItemLines (record : Record) (limit : Int) : List Str :=
  match field record "item" with
  | .obj item =>
    match present (codexItemDetail T record item limit) with
    | some detail => [sanitizeLine (labelled "item" detail) limit]
    | none => renderGenericRecord T record limit
  | _ => renderGenericRecord T record limit

def codexEventLines (record : Record) (eventType : Str) (limit : Int) : List Str :=
  match codexItemEventLines T record eventType limit with
  | some lines => lines
  | none =>
    let detail := codexDetail T record limit
    [sanitizeLine (if detail = [] then eventType else eventType ++ Str.of ": " ++ detail) limit]

def renderCodexRecord (record : Record) (limit : Int) : List Str :=
  match firstFilled record codexDirectContentFields, filled (orElse (field record "type") (field record "event")) with
  | some (_, value), _ => displayStringLines value limit none
  | none, some eventType => codexEventLines T record eventType limit
  | none, none => codexItemLines T record limit

/-! ### By profile -/

def renderJsonRecord (record : PyJson.Value) (profile : String) (limit : Int) : List Str :=
  match record with
  | .obj members =>
    let redacted := redactMembers T.lower members
    if profile = "mock" then renderMockRecord T redacted limit
    else if profile = "codex" then renderCodexRecord T redacted limit
    else if profile = "kilo" then renderKiloRecord T redacted limit
    else renderGenericRecord T redacted limit
  | value => [compactJsonLine T value limit]

def renderJsonObject (value : PyJson.Value) (profile : String) (limit : Int) : List Str :=
  match value with
  | .obj members =>
    let redacted := redactMembers T.lower members
    if profile = "claude" then renderClaudeObject T redacted limit
    else if profile = "gemini" then renderGeminiObject T redacted limit
    else renderGenericRecord T redacted limit
  | value => [compactJsonLine T value limit]

end Render

end Crewplane.Observability
