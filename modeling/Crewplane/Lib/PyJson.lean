import Crewplane.Lib.Dict
import Crewplane.Lib.Json
import Crewplane.Lib.NumberText
/-
# Python's `json`

The values that `json.dumps` writes and `json.loads` reads, with strings as lists of code points: a `str` may hold
unpaired surrogates. `text` is the encoder for a value that it can write (`dumpable`), `loads` the decoder with its two
hooks. The decoder runs on fuel: two for each character, since a bracket opens a value and a list of items.
-/
namespace Crewplane.Lib.PyJson

open Rfc8259

/-- A Python `str`. -/
abbrev Str := List Element

inductive Value where
  | null
  | bool (b : Bool)
  | int (n : Int)
  | float (x : Binary64)
  | str (s : Str)
  | arr (items : List Value)
  | obj (members : List (Str × Value))

/-- `sys.get_int_max_str_digits()`. -/
def maxIntDigits : Nat := 4300

/-! ## Strings -/

def Str.ofChars (s : List Char) : Str := s.map .scalar

def Str.of (s : String) : Str := Str.ofChars s.toList

def Element.isScalar : Element → Bool
  | .scalar _ => true
  | .surrogate _ => false

/-- The string has an UTF-8 encoding. -/
def Str.encodable (s : Str) : Bool := s.all Element.isScalar

def Str.startsLow : Str → Bool
  | .surrogate n :: _ => isLow n
  | _ => false

/-- No high surrogate stands directly before a low one, as in every string a JSON text stands for. -/
def Str.unpaired : Str → Bool
  | [] => true
  | .scalar _ :: s => Str.unpaired s
  | .surrogate n :: s => !(isHigh n && Str.startsLow s) && (isHigh n || isLow n) && Str.unpaired s

def Element.code : Element → Nat
  | .scalar c => c.toNat
  | .surrogate n => n

/-! ## The encoder -/

/-- What `json.dumps` can write in a style, and the text then has an UTF-8 encoding: finite numbers, integers that are not
too long, and strings that need no escape for a surrogate unless the style escapes it. -/
structure Dumper where
  style : Json.Style
  ascii : Bool

/-- `ensure_ascii=False, separators=(",", ":")`. -/
def Dumper.compact : Dumper := ⟨.compact, false⟩

/-- `json.dumps(value)`. -/
def Dumper.default : Dumper := ⟨.default, true⟩

def Dumper.canWrite (d : Dumper) (s : Str) : Bool := if d.ascii then Str.unpaired s else Str.encodable s

def escapeElement (st : Json.Style) : Element → List Char
  | .scalar c => Json.escape st c
  | .surrogate n => '\\' :: 'u' :: Json.hex4 n

def quoted (st : Json.Style) (s : Str) : List Char := '"' :: (s.flatMap (escapeElement st) ++ ['"'])

def floatText : Binary64 → List Char
  | .finite negative m => (NumberText.ofMagnitude negative m).render
  | .infinite negative => if negative then "-Infinity".toList else "Infinity".toList
  | .nan => "NaN".toList

mutual

def text (st : Json.Style) : Value → List Char
  | .null => ['n', 'u', 'l', 'l']
  | .bool true => ['t', 'r', 'u', 'e']
  | .bool false => ['f', 'a', 'l', 's', 'e']
  | .int n => (NumberText.ofInt n).render
  | .float x => floatText x
  | .str s => quoted st s
  | .arr [] => ['[', ']']
  | .arr (v :: rest) => '[' :: (text st v ++ itemsText st rest)
  | .obj [] => ['\x7b', '\x7d']
  | .obj (kv :: rest) => '\x7b' :: (memberText st kv ++ membersText st rest)

/-- The items after the first, with the closing bracket. -/
def itemsText (st : Json.Style) : List Value → List Char
  | [] => [']']
  | v :: rest => ',' :: (st.itemSpace ++ (text st v ++ itemsText st rest))

def memberText (st : Json.Style) : Str × Value → List Char
  | (k, v) => quoted st k ++ ':' :: (st.keySpace ++ text st v)

/-- The members after the first, with the closing brace. -/
def membersText (st : Json.Style) : List (Str × Value) → List Char
  | [] => ['\x7d']
  | kv :: rest => ',' :: (st.itemSpace ++ (memberText st kv ++ membersText st rest))

end

mutual

def dumpable (d : Dumper) : Value → Bool
  | .null | .bool _ => true
  | .int n => (Nat.toDigits 10 n.natAbs).length ≤ maxIntDigits
  | .float x => match x with
    | .finite .. => true
    | _ => false
  | .str s => d.canWrite s
  | .arr items => dumpableItems d items
  | .obj members => dumpableMembers d members

def dumpableItems (d : Dumper) : List Value → Bool
  | [] => true
  | v :: rest => dumpable d v && dumpableItems d rest

def dumpableMembers (d : Dumper) : List (Str × Value) → Bool
  | [] => true
  | (k, v) :: rest => d.canWrite k && dumpable d v && dumpableMembers d rest

end

/-! ## `sort_keys` -/

/-- The order of keys: by code points. -/
def keyLe (a b : Str × Value) : Prop := a.1.map Element.code ≤ b.1.map Element.code

instance : DecidableRel keyLe := fun a b => inferInstanceAs (Decidable (a.1.map Element.code ≤ b.1.map Element.code))

mutual

def sorted : Value → Value
  | .arr items => .arr (sortedItems items)
  | .obj members => .obj ((sortedMembers members).insertionSort keyLe)
  | v => v

def sortedItems : List Value → List Value
  | [] => []
  | v :: rest => sorted v :: sortedItems rest

def sortedMembers : List (Str × Value) → List (Str × Value)
  | [] => []
  | (k, v) :: rest => (k, sorted v) :: sortedMembers rest

end

mutual

/-- No dict has a key twice. -/
def Distinct : Value → Prop
  | .arr items => DistinctItems items
  | .obj members => (members.map Prod.fst).Nodup ∧ DistinctMembers members
  | _ => True

def DistinctItems : List Value → Prop
  | [] => True
  | v :: rest => Distinct v ∧ DistinctItems rest

def DistinctMembers : List (Str × Value) → Prop
  | [] => True
  | (_, v) :: rest => Distinct v ∧ DistinctMembers rest

end

/-- Equality of values: the order of a dict's members does not count. -/
inductive Same : Value → Value → Prop
  | refl (v : Value) : Same v v
  | arr {xs ys : List Value} : List.Forall₂ Same xs ys → Same (.arr xs) (.arr ys)
  | obj {ks : List Str} {xs ys : List Value} {members : List (Str × Value)} : ks.length = ys.length →
      List.Forall₂ Same xs ys → members.Perm (ks.zip xs) → Same (.obj members) (.obj (ks.zip ys))

/-! ## The decoder -/

inductive LoadError where
  /-- `JSONDecodeError`. -/
  | decode
  /-- Another `ValueError`, of a hook or of a long integer. -/
  | value (message : Str)
  | outOfFuel

/-- `object_pairs_hook` and `parse_constant`. -/
structure Hooks where
  pairs : List (Str × Value) → Except LoadError Value
  constant : Binary64 → Except LoadError Value

/-- `dict(pairs)`, and numbers that are not finite. -/
def Hooks.default : Hooks := ⟨fun pairs => .ok (.obj (Dict.ofPairs pairs)), fun x => .ok (.float x)⟩

/-- The pieces of a string up to its closing quote, and what follows the quote (`scanstring`, strict). -/
def scanString : List Char → Option (List Rfc8259.Piece × List Char)
  | [] => none
  | c :: s =>
    if c = '"' then some ([], s)
    else if c = '\\' then
      match s with
      | [] => none
      | e :: t =>
        if e = 'u' then
          match t with
          | x :: y :: z :: w :: r =>
            if [x, y, z, w].all (hexDigits.contains ·) then
              (scanString r).map fun found => (.unit (hexNumber [x, y, z, w]) :: found.1, found.2)
            else none
          | _ => none
        else
          match Rfc8259.shortEscape e with
          | none => none
          | some c => (scanString t).map fun found => (.plain c :: found.1, found.2)
    else if c.toNat < 0x20 then none
    else (scanString s).map fun found => (.plain c :: found.1, found.2)

/-- What follows a fixed text at the front. -/
def after (word s : List Char) : Option (List Char) := if word.isPrefixOf s then some (s.drop word.length) else none

def numberValue (t : NumberText) : Except LoadError Value :=
  if t.isFloat then .ok (.float t.toBinary64)
  else if maxIntDigits < t.int.length then .error (.value (Str.of "Exceeds the limit for integer string conversion"))
  else .ok (.int t.toInt)

/-- The values that need no recursion (`_scan_once`). -/
def parseScalar (h : Hooks) (s : List Char) : Except LoadError (Value × List Char) :=
  match after ['n', 'u', 'l', 'l'] s, after ['t', 'r', 'u', 'e'] s, after ['f', 'a', 'l', 's', 'e'] s with
  | some r, _, _ => .ok (.null, r)
  | _, some r, _ => .ok (.bool true, r)
  | _, _, some r => .ok (.bool false, r)
  | none, none, none =>
    match after "NaN".toList s, after "Infinity".toList s, after "-Infinity".toList s with
    | some r, _, _ => (h.constant .nan).map (·, r)
    | _, some r, _ => (h.constant (.infinite false)).map (·, r)
    | _, _, some r => (h.constant (.infinite true)).map (·, r)
    | none, none, none =>
      match NumberText.scan s with
      | none => .error .decode
      | some (t, r) => (numberValue t).map (·, r)

mutual

def parseValue (h : Hooks) : Nat → List Char → Except LoadError (Value × List Char)
  | 0, _ => .error .outOfFuel
  | fuel + 1, s =>
    if s.head? = some '"' then
      match scanString s.tail with
      | none => .error .decode
      | some (pieces, r) => .ok (.str (decode pieces), r)
    else if s.head? = some '[' then
      if (dropWs s.tail).head? = some ']' then .ok (.arr [], (dropWs s.tail).tail)
      else (parseItems h fuel (dropWs s.tail)).map fun found => (.arr found.1, found.2)
    else if s.head? = some '\x7b' then
      if (dropWs s.tail).head? = some '\x7d' then (h.pairs []).map (·, (dropWs s.tail).tail)
      else do
        let (members, r) ← parseMembers h fuel (dropWs s.tail)
        let value ← h.pairs members
        return (value, r)
    else parseScalar h s

def parseItems (h : Hooks) : Nat → List Char → Except LoadError (List Value × List Char)
  | 0, _ => .error .outOfFuel
  | fuel + 1, s => do
    let (v, r) ← parseValue h fuel s
    if (dropWs r).head? = some ']' then return ([v], (dropWs r).tail)
    else if (dropWs r).head? = some ',' then
      let (vs, u) ← parseItems h fuel (dropWs (dropWs r).tail)
      return (v :: vs, u)
    else .error .decode

def parseMembers (h : Hooks) : Nat → List Char → Except LoadError (List (Str × Value) × List Char)
  | 0, _ => .error .outOfFuel
  | fuel + 1, s =>
    if s.head? = some '"' then
      match scanString s.tail with
      | none => .error .decode
      | some (pieces, r) =>
        if (dropWs r).head? = some ':' then do
          let (v, u) ← parseValue h fuel (dropWs (dropWs r).tail)
          if (dropWs u).head? = some '\x7d' then return ([(decode pieces, v)], (dropWs u).tail)
          else if (dropWs u).head? = some ',' then
            let (kvs, w) ← parseMembers h fuel (dropWs (dropWs u).tail)
            return ((decode pieces, v) :: kvs, w)
          else .error .decode
        else .error .decode
    else .error .decode

end

/-- `json.loads(text)`. -/
def loads (h : Hooks) (s : List Char) : Except LoadError Value := do
  let (v, r) ← parseValue h (2 * s.length + 1) (dropWs s)
  if dropWs r = [] then return v else .error .decode

end Crewplane.Lib.PyJson
