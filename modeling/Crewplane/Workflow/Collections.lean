import Crewplane.Lib.PyJsonGrammar
import Crewplane.Lib.PyJsonRoundTrip
import Crewplane.Lib.PyJsonSorted
/-
# Collections (core/workflow/collections.py, core/preflight/serialization.py)

The codec of foreach collections over the JSON values of Python: `collectionBytes` and `canonicalJsonBytes` write,
`decodeCollection` reads. A value here has string keys and no cycle, so the checks of these refuse nothing.
-/
namespace Crewplane.Workflow

open Crewplane.Lib Crewplane.Lib.PyJson Crewplane.Lib.Rfc8259

def collectionByteLimit : Nat := 1024 * 1024
def collectionDepthLimit : Nat := 64

/-- The `ValueError`s: the text after the label, or what `json.loads` or the UTF-8 decoder raised. -/
inductive CollectionError where
  | invalid (label text : Str)
  | invalidJson (label : Str) (cause : Option LoadError)

/-- `f"Foreach '{group}' {source}"`. -/
def collectionLabel (group source : String) : Str := Str.of ("Foreach '" ++ group ++ "' " ++ source)

def refuse {α : Type} (label : Str) (text : String) : Except CollectionError α := .error (.invalid label (Str.of text))

/-- `text.encode("utf-8")` of a text without surrogates. -/
def utf8 (chars : List Char) : ByteArray := (String.ofList chars).toUTF8

/-! ## Validation -/

/-- `f"{label}[{index}]"`. -/
def indexLabel (label : Str) (index : Nat) : Str := label ++ Str.of ("[" ++ Nat.repr index ++ "]")

/-- `f"{label}.{key}"`. -/
def keyLabel (label key : Str) : Str := label ++ Str.of "." ++ key

def validateString (label s : Str) : Except CollectionError Unit :=
  if Str.encodable s then .ok () else refuse label "invalid UTF-8 string"

def checkDepth (depth : Nat) (label : Str) : Except CollectionError Unit :=
  if collectionDepthLimit < depth then refuse label "container depth exceeds 64" else .ok ()

mutual

/-- `_validate_json_value`. -/
def validateJsonValue (depth : Nat) (label : Str) : PyJson.Value → Except CollectionError Unit
  | .arr items => do
    checkDepth depth label
    validateItems (depth + 1) label 0 items
  | .obj members => do
    checkDepth depth label
    validateMembers (depth + 1) label members
  | .float x => match x with
    | .finite .. => .ok ()
    | _ => refuse label "numbers must be finite"
  | .str s => validateString label s
  | .null | .bool _ | .int _ => .ok ()

/-- `_validate_container_items` of a list. -/
def validateItems (depth : Nat) (label : Str) : Nat → List PyJson.Value → Except CollectionError Unit
  | _, [] => .ok ()
  | index, v :: rest => do
    validateJsonValue depth (indexLabel label index) v
    validateItems depth label (index + 1) rest

/-- `_validate_container_items` of a dict. -/
def validateMembers (depth : Nat) (label : Str) : List (Str × PyJson.Value) → Except CollectionError Unit
  | [] => .ok ()
  | (k, v) :: rest => do
    validateString label k
    validateJsonValue depth (keyLabel label k) v
    validateMembers depth label rest

end

/-- `_encode`. -/
def encode (value : PyJson.Value) (label : Str) : Except CollectionError ByteArray :=
  if dumpable .compact value then
    let data := utf8 (text .compact (sorted value))
    if collectionByteLimit < data.size then refuse label "collection byte limit 1048576 exceeded" else .ok data
  else refuse label "cannot encode collection"

def expectObjects (label : Str) : Nat → List PyJson.Value → Except CollectionError Unit
  | _, [] => .ok ()
  | index, .obj _ :: rest => expectObjects label (index + 1) rest
  | index, _ :: _ => refuse (indexLabel label index) "expected an object"

def validateCollection (value : PyJson.Value) (maxItems : Int) (group source : String) :
    Except CollectionError PyJson.Value := do
  let label := collectionLabel group source
  if maxItems < 0 then refuse label "max_items must be a strict nonnegative integer"
  match value with
  | .arr items =>
    if maxItems < items.length then
      refuse label (Nat.repr items.length ++ " items exceeds max_items " ++ Int.repr maxItems)
    expectObjects label 0 items
    validateJsonValue 1 label value
    let _ ← encode value label
    return value
  | _ => refuse label "expected an array of objects"

/-! ## The encoders -/

def collectionBytes (value : PyJson.Value) (maxItems : Int) (group source : String) : Except CollectionError ByteArray := do
  let value ← validateCollection value maxItems group source
  encode value (collectionLabel group source)

mutual

/-- `to_json_safe` on these values: a copy. -/
def toJsonSafe : PyJson.Value → PyJson.Value
  | .arr items => .arr (safeItems items)
  | .obj members => .obj (safeMembers members)
  | v => v

def safeItems : List PyJson.Value → List PyJson.Value
  | [] => []
  | v :: rest => toJsonSafe v :: safeItems rest

def safeMembers : List (Str × PyJson.Value) → List (Str × PyJson.Value)
  | [] => []
  | (k, v) :: rest => (k, toJsonSafe v) :: safeMembers rest

end

/-- `canonical_json(value).encode("utf-8")`, or the `ValueError` of `json.dumps` or of the encoding. -/
def canonicalJsonBytes (value : PyJson.Value) : Except Unit ByteArray :=
  if dumpable .compact (toJsonSafe value) then .ok (utf8 (text .compact (sorted (toJsonSafe value)))) else .error ()

/-! ## The decoder -/

/-- `_unique_object`: the loop over the pairs. -/
def uniqueObject (result : List (Str × PyJson.Value)) : List (Str × PyJson.Value) → Except LoadError PyJson.Value
  | [] => .ok (.obj result)
  | (key, value) :: rest =>
    if key ∈ result.map Prod.fst then .error (.value (Str.of "duplicate JSON key " ++ key))
    else uniqueObject (result ++ [(key, value)]) rest

/-- `_reject_constant`. -/
def rejectConstant (x : Binary64) : Except LoadError PyJson.Value :=
  .error (.value (Str.of "non-finite JSON number " ++ Str.ofChars (floatText x)))

def collectionHooks : Hooks := ⟨uniqueObject [], rejectConstant⟩

def decodeCollection (data : ByteArray) (maxItems : Int) (group source : String) : Except CollectionError PyJson.Value :=
  let label := collectionLabel group source
  if collectionByteLimit < data.size then refuse label "collection byte limit 1048576 exceeded"
  else
    match String.fromUTF8? data with
    | none => .error (.invalidJson label none)
    | some s =>
      match loads collectionHooks s.toList with
      | .error e => .error (.invalidJson label (some e))
      | .ok value => validateCollection value maxItems group source

/-! ## What is admitted -/

mutual

/-- The value passes `validateJsonValue` at this depth. -/
def admitted (depth : Nat) : PyJson.Value → Bool
  | .arr items => depth ≤ collectionDepthLimit && admittedItems (depth + 1) items
  | .obj members => depth ≤ collectionDepthLimit && admittedMembers (depth + 1) members
  | .float x => match x with
    | .finite .. => true
    | _ => false
  | .str s => Str.encodable s
  | .null | .bool _ | .int _ => true

def admittedItems (depth : Nat) : List PyJson.Value → Bool
  | [] => true
  | v :: rest => admitted depth v && admittedItems depth rest

def admittedMembers (depth : Nat) : List (Str × PyJson.Value) → Bool
  | [] => true
  | (k, v) :: rest => Str.encodable k && admitted depth v && admittedMembers depth rest

end

theorem admittedItems_iff {depth : Nat} {items : List PyJson.Value} :
    admittedItems depth items = true ↔ ∀ v ∈ items, admitted depth v = true := by
  induction items with
  | nil => simp [admittedItems]
  | cons v rest ih => simp [admittedItems, ih]

theorem admittedMembers_iff {depth : Nat} {members : List (Str × PyJson.Value)} :
    admittedMembers depth members = true ↔ ∀ kv ∈ members, Str.encodable kv.1 = true ∧ admitted depth kv.2 = true := by
  induction members with
  | nil => simp [admittedMembers]
  | cons kv rest ih => simp only [admittedMembers, Bool.and_eq_true, ih, List.forall_mem_cons]

theorem refuse_ne_ok {α : Type} {label : Str} {text : String} {a : α} : refuse label text ≠ .ok a := by simp [refuse]

theorem validateString_eq_ok {label s : Str} : validateString label s = .ok () ↔ Str.encodable s = true := by
  unfold validateString
  split <;> simp [refuse, *]

theorem checkDepth_eq_ok {depth : Nat} {label : Str} : checkDepth depth label = .ok () ↔ depth ≤ collectionDepthLimit := by
  unfold checkDepth
  split
  · simp only [refuse, reduceCtorEq, false_iff]
    omega
  · simp only [true_iff]
    omega

theorem seq_eq_ok {ε α : Type} {x : Except ε Unit} {next : Except ε α} {a : α} :
    (x >>= fun _ => next) = .ok a ↔ x = .ok () ∧ next = .ok a := by
  cases x <;> simp [bind, Except.bind]

theorem validateItems_eq_ok {depth : Nat} {label : Str} {items : List PyJson.Value} {index : Nat}
    (hvalue : ∀ v ∈ items, ∀ label, validateJsonValue depth label v = .ok () ↔ admitted depth v = true) :
    validateItems depth label index items = .ok () ↔ ∀ v ∈ items, admitted depth v = true := by
  induction items generalizing index with
  | nil => simp [validateItems]
  | cons v rest ih =>
    rw [validateItems, seq_eq_ok, hvalue v List.mem_cons_self, ih fun w hw => hvalue w (List.mem_cons_of_mem v hw),
      List.forall_mem_cons]

theorem validateMembers_eq_ok {depth : Nat} {label : Str} {members : List (Str × PyJson.Value)}
    (hvalue : ∀ kv ∈ members, ∀ label, validateJsonValue depth label kv.2 = .ok () ↔ admitted depth kv.2 = true) :
    validateMembers depth label members = .ok () ↔
      ∀ kv ∈ members, Str.encodable kv.1 = true ∧ admitted depth kv.2 = true := by
  induction members with
  | nil => simp [validateMembers]
  | cons kv rest ih =>
    rw [validateMembers, seq_eq_ok, seq_eq_ok, validateString_eq_ok, hvalue kv List.mem_cons_self,
      ih fun kw hkw => hvalue kw (List.mem_cons_of_mem kv hkw), List.forall_mem_cons, and_assoc]

/-- Whether a value is refused does not depend on the label. -/
theorem validateJsonValue_eq_ok (v : PyJson.Value) (depth : Nat) (label : Str) :
    validateJsonValue depth label v = .ok () ↔ admitted depth v = true := by
  induction v using Value.induct generalizing depth label with
  | hnull | hbool | hint => simp [validateJsonValue, admitted]
  | hfloat x => cases x <;> simp [validateJsonValue, admitted, refuse]
  | hstr s => rw [validateJsonValue, admitted, validateString_eq_ok]
  | harr items ih =>
    rw [validateJsonValue, admitted, seq_eq_ok, checkDepth_eq_ok, validateItems_eq_ok fun v hv label => ih v hv _ label,
      Bool.and_eq_true, decide_eq_true_eq, admittedItems_iff]
  | hobj members ih =>
    rw [validateJsonValue, admitted, seq_eq_ok, checkDepth_eq_ok, validateMembers_eq_ok fun kv hkv label => ih kv hkv _ label,
      Bool.and_eq_true, decide_eq_true_eq, admittedMembers_iff]

theorem admitted_sorted (v : PyJson.Value) (depth : Nat) : admitted depth (sorted v) = true ↔ admitted depth v = true := by
  induction v using Value.induct generalizing depth with
  | hnull | hbool | hint | hfloat | hstr => rfl
  | harr items ih =>
    rw [sorted, sortedItems_eq, admitted, admitted, Bool.and_eq_true, Bool.and_eq_true, admittedItems_iff, admittedItems_iff]
    simp only [List.forall_mem_map]
    exact and_congr Iff.rfl (forall₂_congr fun v hv => ih v hv _)
  | hobj members ih =>
    rw [sorted_obj, admitted, admitted, Bool.and_eq_true, Bool.and_eq_true, admittedMembers_iff, admittedMembers_iff,
      forall_sorted_members]
    exact and_congr Iff.rfl (forall₂_congr fun kv hkv => and_congr Iff.rfl (ih kv hkv _))

/-- The checks that a collection has passed. -/
structure WithinLimits (value : PyJson.Value) (maxItems : Int) : Prop where
  bound : 0 ≤ maxItems
  items : ∃ items, value = .arr items ∧ (items.length : Int) ≤ maxItems ∧ ∀ v ∈ items, ∃ members, v = .obj members
  admitted : admitted 1 value = true
  dumpable : dumpable .compact value = true
  size : (utf8 (text .compact (sorted value))).size ≤ collectionByteLimit

theorem expectObjects_eq_ok {label : Str} {items : List PyJson.Value} {index : Nat} :
    expectObjects label index items = .ok () ↔ ∀ v ∈ items, ∃ members, v = .obj members := by
  induction items generalizing index with
  | nil => simp [expectObjects]
  | cons v rest ih =>
    cases v with
    | obj members => simp [expectObjects, ih]
    | null | bool | int | float | str | arr => simp [expectObjects, refuse]

theorem encode_eq_ok {value : PyJson.Value} {label : Str} {data : ByteArray} : encode value label = .ok data ↔
    dumpable .compact value = true ∧ (utf8 (text .compact (sorted value))).size ≤ collectionByteLimit ∧
      data = utf8 (text .compact (sorted value)) := by
  unfold encode
  split
  next hdump =>
    simp only
    split
    · simp only [refuse, reduceCtorEq, false_iff, not_and]
      omega
    next hsize =>
      rw [Except.ok.injEq]
      exact ⟨fun h => ⟨hdump, by omega, h.symm⟩, fun h => h.2.2.symm⟩
  next hdump => simp [refuse, hdump]

theorem check_eq_ok {α : Type} {p : Prop} [Decidable p] {label : Str} {text : String} {next : Unit → Except CollectionError α}
    {a : α} : (if p then refuse label text >>= next else next ()) = .ok a ↔ ¬p ∧ next () = .ok a := by
  by_cases hp : p
  · simp [hp, refuse, bind, Except.bind]
  · simp [hp]

theorem seq_encode_eq_ok {value : PyJson.Value} {label : Str} {result : PyJson.Value} :
    (encode value label >>= fun _ => pure value) = .ok result ↔ result = value ∧ ∃ data, encode value label = .ok data := by
  cases encode value label with
  | error e => simp [bind, Except.bind]
  | ok data => simp [bind, Except.bind, pure, Except.pure, eq_comm]

theorem validateCollection_eq_ok {value result : PyJson.Value} {maxItems : Int} {group source : String} :
    validateCollection value maxItems group source = .ok result ↔ result = value ∧ WithinLimits value maxItems := by
  unfold validateCollection
  cases value with
  | arr items =>
    simp only [check_eq_ok, seq_eq_ok, seq_encode_eq_ok, expectObjects_eq_ok, validateJsonValue_eq_ok, encode_eq_ok,
      Int.not_lt]
    constructor
    · rintro ⟨hbound, hitems, hobjects, hadmitted, rfl, data, hdump, hsize, -⟩
      exact ⟨rfl, hbound, ⟨items, rfl, hitems, hobjects⟩, hadmitted, hdump, hsize⟩
    · rintro ⟨rfl, hbound, ⟨_, hitems, hlength, hobjects⟩, hadmitted, hdump, hsize⟩
      cases hitems
      exact ⟨hbound, hlength, hobjects, hadmitted, rfl, _, hdump, hsize, rfl⟩
  | null | bool | int | float | str | obj =>
    simp only [check_eq_ok, refuse_ne_ok, and_false, false_iff]
    rintro ⟨-, -, ⟨items, hitems, -⟩, -⟩
    cases hitems

end Crewplane.Workflow
