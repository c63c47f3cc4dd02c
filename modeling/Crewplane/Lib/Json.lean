import Crewplane.Lib.Text
/-
# JSON texts

`json.dumps` over a `Style`: which characters stand for themselves in a string, and what follows
`,` and `:`. A text is the list of its code points. A value can be read off the front of a text that it
encodes, so encodings of different values differ, also inside longer texts (`encode_unique`).
-/
namespace Crewplane.Lib

inductive Json where
  | null
  | bool (b : Bool)
  | int (n : Int)
  | str (s : List Char)
  | arr (items : List Json)
  | obj (members : List (List Char × Json))

namespace Json

/-- `raw` are the characters that need no `\u` escape; `itemSpace` and `keySpace` follow `,` and `:`. -/
structure Style where
  raw : Char → Bool
  itemSpace : List Char
  keySpace : List Char

/-- `json.dumps(value)`. -/
def Style.default : Style where
  raw c := 0x20 ≤ c.toNat && c.toNat ≤ 0x7e
  itemSpace := [' ']
  keySpace := [' ']

/-- `json.dumps(value, ensure_ascii=False, separators=(",", ":"))`. -/
def Style.compact : Style where
  raw c := 0x20 ≤ c.toNat
  itemSpace := []
  keySpace := []

/-! ## Strings -/

/-- The character after the backslash of a two-character escape. -/
def shortEscape (c : Char) : Option Char :=
  if c = '"' then some '"' else if c = '\\' then some '\\' else if c = '\n' then some 'n'
  else if c = '\r' then some 'r' else if c = '\t' then some 't' else if c = '\x08' then some 'b'
  else if c = '\x0c' then some 'f' else none

/-- `{:04x}`. -/
def hex4 (n : Nat) : List Char :=
  [Nat.digitChar (n / 4096 % 16), Nat.digitChar (n / 256 % 16), Nat.digitChar (n / 16 % 16), Nat.digitChar (n % 16)]

/-- `\uXXXX`, a surrogate pair above the basic plane. -/
def unicodeEscape (c : Char) : List Char :=
  if c.toNat < 0x10000 then '\\' :: 'u' :: hex4 c.toNat
  else '\\' :: 'u' :: hex4 (0xd800 + (c.toNat - 0x10000) / 0x400) ++
    '\\' :: 'u' :: hex4 (0xdc00 + (c.toNat - 0x10000) % 0x400)

def escape (st : Style) (c : Char) : List Char :=
  match shortEscape c with
  | some e => ['\\', e]
  | none => if st.raw c then [c] else unicodeEscape c

/-- A string between its quotes. -/
def quoted (st : Style) (s : List Char) : List Char := '"' :: s.flatMap (escape st) ++ ['"']

/-! ## Values -/

mutual

def encode (st : Style) : Json → List Char
  | .null => ['n', 'u', 'l', 'l']
  | .bool true => ['t', 'r', 'u', 'e']
  | .bool false => ['f', 'a', 'l', 's', 'e']
  | .int n => (Int.repr n).toList
  | .str s => quoted st s
  | .arr [] => ['[', ']']
  | .arr (v :: rest) => '[' :: encode st v ++ encodeItems st rest
  | .obj [] => ['\x7b', '\x7d']
  | .obj (kv :: rest) => '\x7b' :: encodeMember st kv ++ encodeMembers st rest

/-- The items after the first, with the closing bracket. -/
def encodeItems (st : Style) : List Json → List Char
  | [] => [']']
  | v :: rest => ',' :: st.itemSpace ++ encode st v ++ encodeItems st rest

def encodeMember (st : Style) : List Char × Json → List Char
  | (k, v) => quoted st k ++ ':' :: st.keySpace ++ encode st v

/-- The members after the first, with the closing brace. -/
def encodeMembers (st : Style) : List (List Char × Json) → List Char
  | [] => ['\x7d']
  | kv :: rest => ',' :: st.itemSpace ++ encodeMember st kv ++ encodeMembers st rest

end

/-! ## Reading a character back -/

def hexVal (c : Char) : Nat := if c.isDigit then c.toNat - 48 else c.toNat - 87

def hex4Val : List Char → Nat
  | [a, b, c, d] => hexVal a * 4096 + hexVal b * 256 + hexVal c * 16 + hexVal d
  | _ => 0

def shortUnescape (e : Char) : Char :=
  if e = 'n' then '\n' else if e = 'r' then '\r' else if e = 't' then '\t' else if e = 'b' then '\x08'
  else if e = 'f' then '\x0c' else e

/-- The first character of an escaped text, and the rest of the text. -/
def unescape (text : List Char) : Option (Char × List Char) :=
  match text with
  | [] => none
  | c :: rest =>
    if c ≠ '\\' then some (c, rest)
    else if rest.head? = some 'u' then
      let n := hex4Val (rest.tail.take 4)
      if n < 0xd800 ∨ 0xdfff < n then some (Char.ofNat n, rest.drop 5)
      else some (Char.ofNat (0x10000 + (n - 0xd800) * 0x400 + (hex4Val ((rest.drop 7).take 4) - 0xdc00)), rest.drop 11)
    else rest.head?.map fun e => (shortUnescape e, rest.tail)

theorem hexVal_digitChar : ∀ d < 16, hexVal (Nat.digitChar d) = d := by decide

theorem hex4Val_hex4 {n : Nat} (h : n < 0x10000) : hex4Val (hex4 n) = n := by
  simp only [hex4Val, hex4]
  rw [hexVal_digitChar _ (by omega), hexVal_digitChar _ (by omega), hexVal_digitChar _ (by omega),
    hexVal_digitChar _ (by omega)]
  omega

theorem unescape_u (text : List Char) :
    unescape ('\\' :: 'u' :: text) =
      if hex4Val (text.take 4) < 0xd800 ∨ 0xdfff < hex4Val (text.take 4) then
        some (Char.ofNat (hex4Val (text.take 4)), text.drop 4)
      else some (Char.ofNat (0x10000 + (hex4Val (text.take 4) - 0xd800) * 0x400 +
        (hex4Val ((text.drop 6).take 4) - 0xdc00)), text.drop 10) := by
  simp [unescape]

theorem unescape_hex4 {n : Nat} (h : n < 0x10000) (rest : List Char) :
    unescape ('\\' :: 'u' :: hex4 n ++ rest) =
      if n < 0xd800 ∨ 0xdfff < n then some (Char.ofNat n, rest)
      else some (Char.ofNat (0x10000 + (n - 0xd800) * 0x400 + (hex4Val ((rest.drop 2).take 4) - 0xdc00)), rest.drop 6) := by
  have htake : (hex4 n ++ rest).take 4 = hex4 n := List.take_left' rfl
  rw [List.cons_append, List.cons_append, unescape_u, htake, hex4Val_hex4 h]
  rfl

theorem unescape_unicodeEscape (c : Char) (rest : List Char) : unescape (unicodeEscape c ++ rest) = some (c, rest) := by
  have hvalid : c.toNat < 0xd800 ∨ 0xdfff < c.toNat ∧ c.toNat < 0x110000 := c.valid
  rw [unicodeEscape]
  split
  · rename_i hsmall
    rw [unescape_hex4 hsmall, if_pos (by omega), Char.ofNat_toNat]
  · rename_i hlarge
    have hhi : 0xd800 + (c.toNat - 0x10000) / 0x400 < 0x10000 := by omega
    have hlo : hex4Val (hex4 (0xdc00 + (c.toNat - 0x10000) % 0x400)) = 0xdc00 + (c.toNat - 0x10000) % 0x400 :=
      hex4Val_hex4 (by omega)
    rw [List.append_assoc, unescape_hex4 hhi, if_neg (by omega)]
    have hnext : List.take 4 (List.drop 2 ('\\' :: 'u' :: hex4 (0xdc00 + (c.toNat - 0x10000) % 0x400) ++ rest)) =
        hex4 (0xdc00 + (c.toNat - 0x10000) % 0x400) := List.take_left' rfl
    have hcode : 0x10000 + (0xd800 + (c.toNat - 0x10000) / 0x400 - 0xd800) * 0x400 +
        (0xdc00 + (c.toNat - 0x10000) % 0x400 - 0xdc00) = c.toNat := by omega
    rw [hnext, hlo, hcode, Char.ofNat_toNat]
    rfl

theorem unescape_escape (st : Style) (c : Char) (rest : List Char) : unescape (escape st c ++ rest) = some (c, rest) := by
  unfold escape
  cases hshort : shortEscape c with
  | some e =>
    unfold shortEscape at hshort
    (repeat' split at hshort) <;> first | (obtain rfl := Option.some.inj hshort; subst_vars; rfl) | cases hshort
  | none =>
    have hplain : c ≠ '\\' := by
      rintro rfl
      cases hshort
    simp only
    split
    · simp [unescape, hplain]
    · exact unescape_unicodeEscape c rest

/-- The quote that ends a string is not the start of an escaped character. -/
theorem escape_ne_quote (st : Style) (c : Char) (rest rest' : List Char) : escape st c ++ rest ≠ '"' :: rest' := by
  intro h
  unfold escape at h
  cases hshort : shortEscape c with
  | some e => simp [hshort] at h
  | none =>
    have hplain : c ≠ '"' := by
      rintro rfl
      cases hshort
    simp only [hshort] at h
    split at h
    · simp [hplain] at h
    · unfold unicodeEscape at h
      split at h <;> simp at h

theorem quoted_unique (st : Style) {s t r r' : List Char} (h : quoted st s ++ r = quoted st t ++ r') : s = t ∧ r = r' := by
  simp only [quoted, List.cons_append, List.cons.injEq, true_and, List.append_assoc] at h
  induction s generalizing t with
  | nil =>
    cases t with
    | nil => simpa using h
    | cons d t =>
      rw [List.flatMap_cons, List.append_assoc] at h
      exact absurd h.symm (escape_ne_quote st d _ _)
  | cons c s ih =>
    cases t with
    | nil =>
      rw [List.flatMap_cons, List.append_assoc] at h
      exact absurd h (escape_ne_quote st c _ _)
    | cons d t =>
      rw [List.flatMap_cons, List.flatMap_cons, List.append_assoc, List.append_assoc] at h
      have hread := congrArg unescape h
      rw [unescape_escape, unescape_escape] at hread
      obtain ⟨rfl, hrest⟩ := Prod.mk.inj (Option.some.inj hread)
      obtain ⟨rfl, hr⟩ := ih hrest
      exact ⟨rfl, hr⟩

/-! ## Reading a value back -/

/-- A text that does not go on with a number. -/
def Stops (r : List Char) : Prop := ∀ c ∈ r.head?, (c.isDigit || c = '-') = false

theorem mem_repr_int {n : Int} : ∀ c ∈ (Int.repr n).toList, (c.isDigit || c = '-') = true := by
  intro c hc
  cases n with
  | ofNat n =>
    simp [repr_toList_isDigit n c hc]
  | negSucc n =>
    rw [Int.repr, String.toList_append] at hc
    rcases List.mem_append.mp hc with hc | hc
    · simp_all
    · simp [repr_toList_isDigit _ c hc]

theorem int_unique {m n : Int} {r r' : List Char} (hr : Stops r) (hr' : Stops r')
    (h : (Int.repr m).toList ++ r = (Int.repr n).toList ++ r') : m = n ∧ r = r' := by
  have htake : ∀ (n : Int) (r : List Char), Stops r →
      ((Int.repr n).toList ++ r).takeWhile (fun c => c.isDigit || c = '-') = (Int.repr n).toList := by
    intro n r hr
    rw [List.takeWhile_append_of_pos mem_repr_int]
    cases r with
    | nil => simp
    | cons c r => simp [hr c rfl]
  have hdigits := htake m r hr
  rw [h, htake n r' hr'] at hdigits
  rw [hdigits] at h
  exact ⟨Int.repr_inj.mp (String.toList_inj.mp hdigits.symm), List.append_cancel_left h⟩

/-- The first character of an encoding says which kind of value it is of. -/
def kind (c : Char) : Nat :=
  if c = 'n' then 0 else if c = 't' then 1 else if c = 'f' then 2 else if c = '"' then 4 else if c = '[' then 5
  else if c = '\x7b' then 6 else if c.isDigit || c = '-' then 3 else 7

def kindOf : Json → Nat
  | .null => 0
  | .bool true => 1
  | .bool false => 2
  | .int _ => 3
  | .str _ => 4
  | .arr _ => 5
  | .obj _ => 6

theorem kind_repr_int (n : Int) : ∃ c rest, (Int.repr n).toList = c :: rest ∧ kind c = 3 := by
  cases hchars : (Int.repr n).toList with
  | nil =>
    have hempty : Int.repr n = "" := String.toList_inj.mp hchars
    cases n with
    | ofNat n => exact absurd hempty Nat.repr_ne_empty
    | negSucc n => simp [Int.repr] at hempty
  | cons c rest =>
    refine ⟨c, rest, rfl, ?_⟩
    have hc := mem_repr_int (n := n) c (by rw [hchars]; exact List.mem_cons_self)
    unfold kind
    (repeat' split) <;> first | rfl | (subst_vars; revert hc; decide)

theorem encode_kind (st : Style) (v : Json) : ∃ c rest, encode st v = c :: rest ∧ kind c = kindOf v := by
  cases v with
  | null => exact ⟨'n', _, encode.eq_1 st, rfl⟩
  | bool b =>
    cases b with
    | true => exact ⟨'t', _, encode.eq_2 st, rfl⟩
    | false => exact ⟨'f', _, encode.eq_3 st, rfl⟩
  | int n =>
    obtain ⟨c, rest, htext, hkind⟩ := kind_repr_int n
    exact ⟨c, rest, by rw [encode, htext], hkind⟩
  | str s => exact ⟨'"', _, by rw [encode]; rfl, rfl⟩
  | arr items =>
    cases items with
    | nil => exact ⟨'[', _, by rw [encode], rfl⟩
    | cons v rest => exact ⟨'[', _, by rw [encode]; rfl, rfl⟩
  | obj members =>
    cases members with
    | nil => exact ⟨'\x7b', _, by rw [encode], rfl⟩
    | cons kv rest => exact ⟨'\x7b', _, by rw [encode]; rfl, rfl⟩

theorem kindOf_eq {st : Style} {v w : Json} {r r' : List Char} (h : encode st v ++ r = encode st w ++ r') :
    kindOf v = kindOf w := by
  obtain ⟨c, rest, hv, hkind⟩ := encode_kind st v
  obtain ⟨c', rest', hw, hkind'⟩ := encode_kind st w
  rw [hv, hw, List.cons_append, List.cons_append] at h
  rw [← hkind, ← hkind', (List.cons.inj h).1]

section Unique

variable (st : Style)

def UniqueValue (v : Json) : Prop := ∀ w r r', Stops r → Stops r' → encode st v ++ r = encode st w ++ r' → v = w ∧ r = r'

def UniqueItems (vs : List Json) : Prop := ∀ ws r r', encodeItems st vs ++ r = encodeItems st ws ++ r' → vs = ws ∧ r = r'

def UniqueMember (kv : List Char × Json) : Prop := ∀ kw r r', Stops r → Stops r' →
  encodeMember st kv ++ r = encodeMember st kw ++ r' → kv = kw ∧ r = r'

def UniqueMembers (kvs : List (List Char × Json)) : Prop := ∀ kws r r',
  encodeMembers st kvs ++ r = encodeMembers st kws ++ r' → kvs = kws ∧ r = r'

end Unique

variable {st : Style}

theorem stops_items (vs : List Json) (r : List Char) : Stops (encodeItems st vs ++ r) := by
  cases vs <;> simp [encodeItems, Stops]

theorem stops_members (kvs : List (List Char × Json)) (r : List Char) : Stops (encodeMembers st kvs ++ r) := by
  cases kvs <;> simp [encodeMembers, Stops]

theorem uniqueItems_nil : UniqueItems st [] := by
  intro ws r r' h
  cases ws with
  | nil => simpa [encodeItems] using h
  | cons w ws => simp [encodeItems] at h

theorem uniqueItems_cons {v : Json} {vs : List Json} (hv : UniqueValue st v) (hvs : UniqueItems st vs) :
    UniqueItems st (v :: vs) := by
  intro ws r r' h
  cases ws with
  | nil => simp [encodeItems] at h
  | cons w ws =>
    simp only [encodeItems, List.cons_append, List.append_assoc, List.cons.injEq, true_and,
      List.append_cancel_left_eq] at h
    obtain ⟨rfl, hrest⟩ := hv w _ _ (stops_items vs r) (stops_items ws r') h
    obtain ⟨rfl, hr⟩ := hvs ws r r' hrest
    exact ⟨rfl, hr⟩

theorem uniqueMember {k : List Char} {v : Json} (hv : UniqueValue st v) : UniqueMember st (k, v) := by
  rintro ⟨k', w⟩ r r' hr hr' h
  simp only [encodeMember, List.append_assoc] at h
  obtain ⟨rfl, hvalue⟩ := quoted_unique st h
  simp only [List.cons_append, List.cons.injEq, true_and, List.append_cancel_left_eq] at hvalue
  obtain ⟨rfl, hr⟩ := hv w r r' hr hr' hvalue
  exact ⟨rfl, hr⟩

theorem uniqueMembers_nil : UniqueMembers st [] := by
  intro kws r r' h
  cases kws with
  | nil => simpa [encodeMembers] using h
  | cons kw kws => simp [encodeMembers] at h

theorem uniqueMembers_cons {kv : List Char × Json} {kvs : List (List Char × Json)} (hkv : UniqueMember st kv)
    (hkvs : UniqueMembers st kvs) : UniqueMembers st (kv :: kvs) := by
  intro kws r r' h
  cases kws with
  | nil => simp [encodeMembers] at h
  | cons kw kws =>
    simp only [encodeMembers, List.cons_append, List.append_assoc, List.cons.injEq, true_and,
      List.append_cancel_left_eq] at h
    obtain ⟨rfl, hrest⟩ := hkv kw _ _ (stops_members kvs r) (stops_members kws r') h
    obtain ⟨rfl, hr⟩ := hkvs kws r r' hrest
    exact ⟨rfl, hr⟩

/-- A closing bracket or brace is not the start of an encoding. -/
theorem encode_ne_cons {v : Json} {c : Char} (hc : kind c = 7) (r r' : List Char) : encode st v ++ r ≠ c :: r' := by
  intro h
  obtain ⟨c', rest, hv, hkind⟩ := encode_kind st v
  rw [hv, List.cons_append] at h
  rw [(List.cons.inj h).1, hc] at hkind
  cases v with
  | bool b => cases b <;> simp [kindOf] at hkind
  | null | int | str | arr | obj => simp [kindOf] at hkind

theorem encodeMember_ne_cons {kv : List Char × Json} {c : Char} (hc : c ≠ '"') (r r' : List Char) :
    encodeMember st kv ++ r ≠ c :: r' := by
  obtain ⟨k, v⟩ := kv
  intro h
  simp only [encodeMember, quoted, List.cons_append] at h
  exact hc (List.cons.inj h).1.symm

theorem uniqueValue_arr {items : List Json} (h : UniqueItems st items) : UniqueValue st (.arr items) := by
  intro w r r' _ _ heq
  have hkind := kindOf_eq heq
  cases w with
  | arr items' =>
    cases items with
    | nil =>
      cases items' with
      | nil => simpa [encode] using heq
      | cons w ws =>
        simp only [encode, List.cons_append, List.nil_append, List.cons.injEq, true_and, List.append_assoc] at heq
        exact absurd heq.symm (encode_ne_cons rfl _ _)
    | cons v vs =>
      cases items' with
      | nil =>
        simp only [encode, List.cons_append, List.nil_append, List.cons.injEq, true_and, List.append_assoc] at heq
        exact absurd heq (encode_ne_cons rfl _ _)
      | cons w ws =>
        simp only [encode, List.cons_append, List.cons.injEq, true_and] at heq
        have hcons : encodeItems st (v :: vs) ++ r = encodeItems st (w :: ws) ++ r' := by
          simp only [encodeItems, List.cons_append, List.append_assoc] at heq ⊢
          rw [heq]
        obtain ⟨hitems, hr⟩ := h (w :: ws) r r' hcons
        exact ⟨by rw [hitems], hr⟩
  | bool b => cases b <;> simp [kindOf] at hkind
  | null | int | str | obj => simp [kindOf] at hkind

theorem uniqueValue_obj {members : List (List Char × Json)} (h : UniqueMembers st members) :
    UniqueValue st (.obj members) := by
  intro w r r' _ _ heq
  have hkind := kindOf_eq heq
  cases w with
  | obj members' =>
    cases members with
    | nil =>
      cases members' with
      | nil => simpa [encode] using heq
      | cons kw kws =>
        simp only [encode, List.cons_append, List.nil_append, List.cons.injEq, true_and, List.append_assoc] at heq
        exact absurd heq.symm (encodeMember_ne_cons (by decide) _ _)
    | cons kv kvs =>
      cases members' with
      | nil =>
        simp only [encode, List.cons_append, List.nil_append, List.cons.injEq, true_and, List.append_assoc] at heq
        exact absurd heq (encodeMember_ne_cons (by decide) _ _)
      | cons kw kws =>
        simp only [encode, List.cons_append, List.cons.injEq, true_and] at heq
        have hcons : encodeMembers st (kv :: kvs) ++ r = encodeMembers st (kw :: kws) ++ r' := by
          simp only [encodeMembers, List.cons_append, List.append_assoc] at heq ⊢
          rw [heq]
        obtain ⟨hmembers, hr⟩ := h (kw :: kws) r r' hcons
        exact ⟨by rw [hmembers], hr⟩
  | bool b => cases b <;> simp [kindOf] at hkind
  | null | int | str | arr => simp [kindOf] at hkind

/-- A value can be read off the front of a text that goes on with no number. -/
theorem encode_unique (st : Style) (v : Json) : UniqueValue st v := by
  refine @Json.rec (UniqueValue st) (UniqueItems st) (UniqueMembers st) (UniqueMember st) ?_ ?_ ?_ ?_
    (fun _ h => uniqueValue_arr h) (fun _ h => uniqueValue_obj h) uniqueItems_nil (fun _ _ hv hvs => uniqueItems_cons hv hvs)
    uniqueMembers_nil (fun _ _ hkv hkvs => uniqueMembers_cons hkv hkvs) (fun _ _ hv => uniqueMember hv) v
  · intro w r r' _ _ heq
    have hkind := kindOf_eq heq
    cases w with
    | null => exact ⟨rfl, List.append_cancel_left heq⟩
    | bool b => cases b <;> simp [kindOf] at hkind
    | int | str | arr | obj => simp [kindOf] at hkind
  · intro b w r r' _ _ heq
    have hkind := kindOf_eq heq
    cases w with
    | bool b' =>
      cases b <;> cases b'
      · exact ⟨rfl, List.append_cancel_left heq⟩
      · simp [kindOf] at hkind
      · simp [kindOf] at hkind
      · exact ⟨rfl, List.append_cancel_left heq⟩
    | null | int | str | arr | obj => cases b <;> simp [kindOf] at hkind
  · intro n w r r' hr hr' heq
    have hkind := kindOf_eq heq
    cases w with
    | int m =>
      rw [encode, encode] at heq
      obtain ⟨rfl, hrest⟩ := int_unique hr hr' heq
      exact ⟨rfl, hrest⟩
    | bool b => cases b <;> simp [kindOf] at hkind
    | null | str | arr | obj => simp [kindOf] at hkind
  · intro s w r r' _ _ heq
    have hkind := kindOf_eq heq
    cases w with
    | str t =>
      rw [encode, encode] at heq
      obtain ⟨rfl, hrest⟩ := quoted_unique st heq
      exact ⟨rfl, hrest⟩
    | bool b => cases b <;> simp [kindOf] at hkind
    | null | int | arr | obj => simp [kindOf] at hkind

theorem encode_injective (st : Style) {v w : Json} (h : encode st v = encode st w) : v = w :=
  (encode_unique st v w [] [] (by simp [Stops]) (by simp [Stops]) (by rw [h])).1

theorem getLast?_encodeItems (st : Style) (vs : List Json) (before : List Char) :
    (before ++ encodeItems st vs).getLast? = some ']' := by
  induction vs generalizing before with
  | nil => simp [encodeItems]
  | cons v vs ih =>
    rw [encodeItems, ← List.append_assoc]
    exact ih _

theorem getLast?_encode_arr (st : Style) (items : List Json) : (encode st (.arr items)).getLast? = some ']' := by
  cases items with
  | nil => simp [encode]
  | cons v vs =>
    rw [encode]
    exact getLast?_encodeItems st vs _

end Json

end Crewplane.Lib
