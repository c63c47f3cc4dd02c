import Crewplane.Lib.PyJson
/-
# The decoder reads what the encoder writes

`loads_text`: a value that can be written is read back from its text, under any hooks that keep dicts and in any style
whose spaces are white space.
-/
namespace Crewplane.Lib.PyJson

open Rfc8259

/-- The style puts white space after `,` and `:`, and escapes control characters. -/
structure StyleOk (st : Json.Style) : Prop where
  raw : ∀ c, st.raw c = true → 0x20 ≤ c.toNat
  itemSpace : Ws st.itemSpace
  keySpace : Ws st.keySpace

theorem styleOk_compact : StyleOk .compact := by
  refine ⟨fun c hc => by simpa [Json.Style.compact] using hc, ?_, ?_⟩ <;> simp [Json.Style.compact, Ws]

theorem styleOk_default : StyleOk .default := by
  refine ⟨fun c hc => ?_, ?_, ?_⟩
  · simp only [Json.Style.default, Bool.and_eq_true, decide_eq_true_eq] at hc
    exact hc.1
  · simp [Json.Style.default, Ws, isWs]
  · simp [Json.Style.default, Ws, isWs]

/-! ## Strings -/

/-- The pieces that an element is written with. -/
def pieces (st : Json.Style) : Element → List Rfc8259.Piece
  | .scalar c =>
    if (Json.shortEscape c).isSome || st.raw c then [.plain c]
    else if c.toNat < 0x10000 then [.unit c.toNat]
    else [.unit (0xd800 + (c.toNat - 0x10000) / 0x400), .unit (0xdc00 + (c.toNat - 0x10000) % 0x400)]
  | .surrogate n => [.unit n]

theorem digitChar_hex : ∀ d < 16, hexDigits.contains (Nat.digitChar d) = true ∧ hexValue (Nat.digitChar d) = d := by decide

theorem hexNumber_hex4 {n : Nat} (h : n < 0x10000) : hexNumber (Json.hex4 n) = n := by
  simp only [hexNumber, Json.hex4, List.foldl_cons, List.foldl_nil, (digitChar_hex _ (Nat.mod_lt _ (by decide))).2]
  omega

theorem scanString_quote (s : List Char) : scanString ('"' :: s) = some ([], s) := by
  rw [scanString.eq_def]
  simp

theorem scanString_hex {x y z w : Char} (h : [x, y, z, w].all (hexDigits.contains ·) = true) (s : List Char) :
    scanString ('\\' :: 'u' :: x :: y :: z :: w :: s) =
      (scanString s).map fun found => (.unit (hexNumber [x, y, z, w]) :: found.1, found.2) := by
  rw [scanString.eq_def]
  simp only [Char.reduceEq, if_false, if_true]
  rw [if_pos h]

theorem scanString_short {e c : Char} (hu : e ≠ 'u') (h : Rfc8259.shortEscape e = some c) (s : List Char) :
    scanString ('\\' :: e :: s) = (scanString s).map fun found => (.plain c :: found.1, found.2) := by
  rw [scanString.eq_def]
  simp only [Char.reduceEq, if_false, if_true]
  rw [if_neg hu, h]

theorem scanString_plain {c : Char} (hquote : c ≠ '"') (hslash : c ≠ '\\') (hraw : 0x20 ≤ c.toNat) (s : List Char) :
    scanString (c :: s) = (scanString s).map fun found => (.plain c :: found.1, found.2) := by
  rw [scanString.eq_def]
  simp only
  rw [if_neg hquote, if_neg hslash, if_neg (by omega)]

theorem scanString_unit {n : Nat} (h : n < 0x10000) (s : List Char) :
    scanString ('\\' :: 'u' :: (Json.hex4 n ++ s)) = (scanString s).map fun found => (.unit n :: found.1, found.2) := by
  have hhex : (Json.hex4 n).all (hexDigits.contains ·) = true := by
    simp only [Json.hex4, List.all_cons, List.all_nil, (digitChar_hex _ (Nat.mod_lt _ (by decide))).1, Bool.and_true]
  have hnumber := hexNumber_hex4 h
  simp only [Json.hex4] at hhex hnumber ⊢
  simp only [List.cons_append, List.nil_append]
  rw [scanString_hex hhex, hnumber]

theorem shortEscape_eq {c e : Char} (h : Json.shortEscape c = some e) : e ≠ 'u' ∧ Rfc8259.shortEscape e = some c := by
  unfold Json.shortEscape at h
  (repeat' split at h) <;> first | (obtain rfl := Option.some.inj h; subst_vars; decide) | cases h

theorem scanString_escape {st : Json.Style} (hst : StyleOk st) {e : Element} (he : ∀ n, e = .surrogate n → n < 0x10000)
    (s : List Char) : scanString (escapeElement st e ++ s) =
      (scanString s).map fun found => (pieces st e ++ found.1, found.2) := by
  cases e with
  | surrogate n => exact scanString_unit (he n rfl) s
  | scalar c =>
    cases hshort : Json.shortEscape c with
    | some e =>
      obtain ⟨hu, hescape⟩ := shortEscape_eq hshort
      have htext : escapeElement st (.scalar c) = ['\\', e] := by simp [escapeElement, Json.escape, hshort]
      have hpieces : pieces st (.scalar c) = [.plain c] := by simp [pieces, hshort]
      rw [htext, hpieces]
      exact scanString_short hu hescape s
    | none =>
      by_cases hraw : st.raw c = true
      · have hquote : c ≠ '"' := by rintro rfl; cases hshort
        have hslash : c ≠ '\\' := by rintro rfl; cases hshort
        have htext : escapeElement st (.scalar c) = [c] := by simp [escapeElement, Json.escape, hshort, hraw]
        have hpieces : pieces st (.scalar c) = [.plain c] := by simp [pieces, hraw]
        rw [htext, hpieces]
        exact scanString_plain hquote hslash (hst.raw c hraw) s
      · have htext : escapeElement st (.scalar c) = Json.unicodeEscape c := by simp [escapeElement, Json.escape, hshort, hraw]
        have hvalid : c.toNat < 0xd800 ∨ 0xdfff < c.toNat ∧ c.toNat < 0x110000 := c.valid
        rw [htext, Json.unicodeEscape]
        by_cases hsmall : c.toNat < 0x10000
        · have hpieces : pieces st (.scalar c) = [.unit c.toNat] := by simp [pieces, hshort, hraw, hsmall]
          rw [if_pos hsmall, hpieces, List.cons_append, List.cons_append, scanString_unit hsmall]
          rfl
        · have hpieces : pieces st (.scalar c) =
              [.unit (0xd800 + (c.toNat - 0x10000) / 0x400), .unit (0xdc00 + (c.toNat - 0x10000) % 0x400)] := by
            simp [pieces, hshort, hraw, hsmall]
          rw [if_neg hsmall, hpieces]
          simp only [List.cons_append, List.append_assoc]
          rw [scanString_unit (by omega), scanString_unit (by omega), Option.map_map]
          rfl

/-- What is said of each element of a string without pairs of surrogates. -/
theorem Str.unpaired_cons {e : Element} {s : Str} (h : Str.unpaired (e :: s) = true) : Str.unpaired s = true ∧
    ∀ n, e = .surrogate n → (isHigh n || isLow n) = true ∧
      (isHigh n = true → ∀ m t, s = .surrogate m :: t → isLow m = false) := by
  cases e with
  | scalar c => exact ⟨h, fun n hn => by cases hn⟩
  | surrogate n =>
    rw [Str.unpaired, Bool.and_eq_true, Bool.and_eq_true] at h
    obtain ⟨⟨hpair, hrange⟩, hrest⟩ := h
    refine ⟨hrest, fun k hk => ?_⟩
    cases hk
    refine ⟨hrange, fun hhigh m t hs => ?_⟩
    subst hs
    simpa [hhigh, Str.startsLow] using hpair

theorem surrogate_lt {n : Nat} (h : (isHigh n || isLow n) = true) : n < 0x10000 := by
  simp only [isHigh, isLow, Bool.or_eq_true, Bool.and_eq_true, decide_eq_true_eq] at h
  omega

theorem single_code {c : Char} : single c.toNat = .scalar c := by
  have hvalid : c.toNat < 0xd800 ∨ 0xdfff < c.toNat ∧ c.toNat < 0x110000 := c.valid
  have hno : (isHigh c.toNat || isLow c.toNat) = false := by
    simp only [isHigh, isLow, Bool.or_eq_false_iff, Bool.and_eq_false_iff, decide_eq_false_iff_not]
    omega
  rw [single, hno, Char.ofNat_toNat]
  rfl

/-- A low unit at the front of written pieces is a low surrogate. -/
theorem pieces_low {st : Json.Style} {s : Str} {low : Nat} {rest : List Rfc8259.Piece}
    (h : s.flatMap (pieces st) = .unit low :: rest) (hlow : isLow low = true) : ∃ t, s = .surrogate low :: t := by
  cases s with
  | nil => cases h
  | cons e t =>
    rw [List.flatMap_cons] at h
    cases e with
    | surrogate n =>
      cases h
      exact ⟨t, rfl⟩
    | scalar c =>
      have hvalid : c.toNat < 0xd800 ∨ 0xdfff < c.toNat ∧ c.toNat < 0x110000 := c.valid
      simp only [isLow, Bool.and_eq_true, decide_eq_true_eq] at hlow
      simp only [pieces] at h
      split at h
      · cases h
      · split at h
        · cases h
          omega
        · cases h
          omega

theorem decode_pieces {st : Json.Style} {s : Str} (h : Str.unpaired s = true) : decode (s.flatMap (pieces st)) = s := by
  induction s with
  | nil => simp [decode]
  | cons e s ih =>
    obtain ⟨hrest, hsurrogate⟩ := Str.unpaired_cons h
    have ih := ih hrest
    rw [List.flatMap_cons]
    cases e with
    | surrogate n =>
      obtain ⟨hrange, hnext⟩ := hsurrogate n rfl
      have hdecode : decode (.unit n :: s.flatMap (pieces st)) = single n :: decode (s.flatMap (pieces st)) := by
        refine decode_single fun hhigh low rest hlow => ?_
        by_contra hno
        obtain ⟨t, ht⟩ := pieces_low hlow (by simpa using hno)
        exact hno (hnext hhigh low t ht)
      rw [pieces, List.cons_append, List.nil_append, hdecode, ih, single, if_pos hrange]
    | scalar c =>
      have hvalid : c.toNat < 0xd800 ∨ 0xdfff < c.toNat ∧ c.toNat < 0x110000 := c.valid
      simp only [pieces]
      split
      · rw [List.cons_append, List.nil_append, decode_plain, ih]
      · split
        · have hdecode : decode (.unit c.toNat :: s.flatMap (pieces st)) = single c.toNat :: decode (s.flatMap (pieces st)) := by
            refine decode_single fun hhigh => ?_
            simp only [isHigh, Bool.and_eq_true, decide_eq_true_eq] at hhigh
            omega
          rw [List.cons_append, List.nil_append, hdecode, ih, single_code]
        next hlarge =>
          have hhigh : isHigh (0xd800 + (c.toNat - 0x10000) / 0x400) = true := by
            simp only [isHigh, Bool.and_eq_true, decide_eq_true_eq]
            omega
          have hlow : isLow (0xdc00 + (c.toNat - 0x10000) % 0x400) = true := by
            simp only [isLow, Bool.and_eq_true, decide_eq_true_eq]
            omega
          have hcombine : combine (0xd800 + (c.toNat - 0x10000) / 0x400) (0xdc00 + (c.toNat - 0x10000) % 0x400) = c := by
            unfold combine
            rw [show 0x10000 + (0xd800 + (c.toNat - 0x10000) / 0x400 - 0xd800) * 0x400 +
              (0xdc00 + (c.toNat - 0x10000) % 0x400 - 0xdc00) = c.toNat by omega, Char.ofNat_toNat]
          rw [List.cons_append, List.cons_append, List.nil_append, decode_pair hhigh hlow, hcombine, ih]

/-- A quoted string is scanned to its pieces. -/
theorem scanString_quoted {st : Json.Style} (hst : StyleOk st) {s : Str} (h : Str.unpaired s = true) (r : List Char) :
    scanString (s.flatMap (escapeElement st) ++ '"' :: r) = some (s.flatMap (pieces st), r) := by
  induction s with
  | nil => simp [scanString_quote]
  | cons e s ih =>
    obtain ⟨hrest, hsurrogate⟩ := Str.unpaired_cons h
    rw [List.flatMap_cons, List.append_assoc, scanString_escape hst fun n hn => surrogate_lt (hsurrogate n hn).1, ih hrest]
    simp

theorem unpaired_of_encodable {s : Str} (h : Str.encodable s = true) : Str.unpaired s = true := by
  induction s with
  | nil => rfl
  | cons e s ih =>
    simp only [Str.encodable, List.all_cons, Bool.and_eq_true] at h
    cases e with
    | scalar c => exact ih h.2
    | surrogate n => exact absurd h.1 (by simp [Element.isScalar])

theorem unpaired_of_canWrite {d : Dumper} {s : Str} (h : d.canWrite s = true) : Str.unpaired s = true := by
  unfold Dumper.canWrite at h
  split at h
  · exact h
  · exact unpaired_of_encodable h

/-! ## Scalars -/

theorem after_append (word r : List Char) : after word (word ++ r) = some r := by
  simp [after]

theorem after_head {word s : List Char} {c d : Char} (hword : word.head? = some c) (hs : s.head? = some d) (h : c ≠ d) :
    after word s = none := by
  obtain ⟨word, rfl⟩ := List.head?_eq_some_iff.mp hword
  obtain ⟨s, rfl⟩ := List.head?_eq_some_iff.mp hs
  simp [after, h]

/-- The first characters of a number token. -/
theorem render_head {t : NumberText} (ht : t.Valid) (r : List Char) : ∃ c s, t.render ++ r = c :: s ∧
    (isDigit c = true ∨ c = '-' ∧ ∃ d u, s = d :: u ∧ isDigit d = true) := by
  have hint : ∃ d u, t.int = d :: u ∧ isDigit d = true := by
    rcases ht.int with h | ⟨d, ds, h, hd, -⟩
    · exact ⟨_, _, h, rfl⟩
    · exact ⟨d, ds, h, hd⟩
  obtain ⟨d, u, hd, hdigit⟩ := hint
  unfold NumberText.render NumberText.renderAs NumberText.minusChars
  cases t.negative with
  | false => exact ⟨d, _, by rw [hd]; rfl, .inl hdigit⟩
  | true => exact ⟨'-', _, rfl, .inr ⟨rfl, d, _, by rw [hd]; rfl, hdigit⟩⟩

theorem digit_ne {c d : Char} (hc : isDigit c = true) (hd : isDigit d = false) : d ≠ c := by
  rintro rfl
  rw [hc] at hd
  cases hd

/-- A number token is no word. -/
theorem parseScalar_number (h : Hooks) {t : NumberText} (ht : t.Valid) {r : List Char} (hr : NumberText.Stops r) :
    parseScalar h (t.render ++ r) = (numberValue t).map (·, r) := by
  have hscan : NumberText.scan (t.render ++ r) = some (t, r) := NumberText.scan_renderAs ht (.inl rfl) hr
  obtain ⟨c, s, hs, hc⟩ := render_head ht r
  rw [hs] at hscan ⊢
  have hword : ∀ word : List Char, ∀ w, word.head? = some w → isDigit w = false → w ≠ '-' → after word (c :: s) = none := by
    intro word w hhead hdigit hminus
    rcases hc with hc | ⟨rfl, -⟩
    · exact after_head hhead rfl (digit_ne hc hdigit)
    · exact after_head hhead rfl hminus
  have hinfinity : after "-Infinity".toList (c :: s) = none := by
    rcases hc with hc | ⟨rfl, d, u, rfl, hd⟩
    · exact after_head rfl rfl (digit_ne hc rfl)
    · have hne : 'I' ≠ d := digit_ne hd rfl
      simp [after, hne]
  unfold parseScalar
  rw [hword _ 'n' rfl rfl (by decide), hword _ 't' rfl rfl (by decide), hword _ 'f' rfl rfl (by decide),
    hword _ 'N' rfl rfl (by decide), hword _ 'I' rfl rfl (by decide), hinfinity, hscan]

theorem numberValue_ofInt {n : Int} (hn : (Nat.toDigits 10 n.natAbs).length ≤ maxIntDigits) :
    numberValue (.ofInt n) = .ok (.int n) := by
  have hlen : ¬ maxIntDigits < (NumberText.ofInt n).int.length := by simpa [NumberText.ofInt] using hn
  rw [numberValue, NumberText.isFloat_ofInt, if_neg (by decide), if_neg hlen, NumberText.toInt_ofInt]

theorem numberValue_ofMagnitude (negative : Bool) (m : Magnitude) :
    numberValue (.ofMagnitude negative m) = .ok (.float (.finite negative m)) := by
  rw [numberValue, NumberText.isFloat_ofMagnitude, if_pos rfl, NumberText.toBinary64_ofMagnitude]

/-! ## Values -/

theorem dropWs_head {s : List Char} {c : Char} (hs : s.head? = some c) (hc : isWs c = false) : dropWs s = s := by
  obtain ⟨s, rfl⟩ := List.head?_eq_some_iff.mp hs
  exact dropWs_cons hc s

theorem digit_facts {c : Char} (hc : isDigit c = true ∨ c = '-') :
    isWs c = false ∧ c ≠ ']' ∧ c ≠ '"' ∧ c ≠ '[' ∧ c ≠ '\x7b' := by
  rcases hc with hc | rfl
  · refine ⟨?_, (digit_ne hc rfl).symm, (digit_ne hc rfl).symm, (digit_ne hc rfl).symm, (digit_ne hc rfl).symm⟩
    simp [isWs, (digit_ne hc rfl : ' ' ≠ c).symm, (digit_ne hc rfl : '\t' ≠ c).symm, (digit_ne hc rfl : '\n' ≠ c).symm,
      (digit_ne hc rfl : '\r' ≠ c).symm]
  · decide

theorem number_head {t : NumberText} (ht : t.Valid) (r : List Char) : ∃ c s, t.render ++ r = c :: s ∧
    isWs c = false ∧ c ≠ ']' ∧ c ≠ '"' ∧ c ≠ '[' ∧ c ≠ '\x7b' := by
  obtain ⟨c, s, hs, hc⟩ := render_head ht r
  refine ⟨c, s, hs, digit_facts ?_⟩
  rcases hc with hc | ⟨hc, -⟩
  · exact .inl hc
  · exact .inr hc

/-- The text of a value starts with neither white space nor a closing bracket. -/
theorem text_head (st : Json.Style) (v : Value) (r : List Char) :
    ∃ c s, text st v ++ r = c :: s ∧ isWs c = false ∧ c ≠ ']' := by
  cases v with
  | null => exact ⟨'n', _, by rw [text]; rfl, by decide, by decide⟩
  | bool b =>
    cases b with
    | true => exact ⟨'t', _, by rw [text]; rfl, by decide, by decide⟩
    | false => exact ⟨'f', _, by rw [text]; rfl, by decide, by decide⟩
  | int n =>
    obtain ⟨c, s, hs, hws, hclose, -⟩ := number_head (NumberText.valid_ofInt n) r
    exact ⟨c, s, by rw [text, hs], hws, hclose⟩
  | float x =>
    rw [text]
    cases x with
    | finite negative m =>
      obtain ⟨c, s, hs, hws, hclose, -⟩ := number_head (NumberText.valid_ofMagnitude negative m) r
      exact ⟨c, s, hs, hws, hclose⟩
    | infinite negative =>
      cases negative with
      | false => exact ⟨'I', _, rfl, by decide, by decide⟩
      | true => exact ⟨'-', _, rfl, by decide, by decide⟩
    | nan => exact ⟨'N', _, rfl, by decide, by decide⟩
  | str s => exact ⟨'"', _, by rw [text]; rfl, by decide, by decide⟩
  | arr items => cases items with
    | nil => exact ⟨'[', _, by rw [text]; rfl, by decide, by decide⟩
    | cons v rest => exact ⟨'[', _, by rw [text]; rfl, by decide, by decide⟩
  | obj members => cases members with
    | nil => exact ⟨'\x7b', _, by rw [text]; rfl, by decide, by decide⟩
    | cons kv rest => exact ⟨'\x7b', _, by rw [text]; rfl, by decide, by decide⟩

theorem dropWs_text (st : Json.Style) (v : Value) (r : List Char) : dropWs (text st v ++ r) = text st v ++ r := by
  obtain ⟨c, s, hs, hws, -⟩ := text_head st v r
  rw [hs]
  exact dropWs_cons hws s

section Reads

variable {h : Hooks} {d : Dumper}

/-- A value whose text starts with no quote, bracket or brace. -/
theorem parseValue_scalar {s : List Char} {c : Char} (hs : s.head? = some c) (hquote : c ≠ '"') (hbracket : c ≠ '[')
    (hbrace : c ≠ '\x7b') (fuel : Nat) : parseValue h (fuel + 1) s = parseScalar h s := by
  rw [parseValue, hs, if_neg (by simpa using hquote), if_neg (by simpa using hbracket), if_neg (by simpa using hbrace)]

variable (h d)

/-- With enough fuel for the whole text, the value is read off its front. -/
def ReadsValue (v : Value) : Prop := dumpable d v = true → Distinct v → ∀ fuel r, NumberText.Stops r →
  2 * (text d.style v ++ r).length < fuel → parseValue h fuel (text d.style v ++ r) = .ok (v, r)

def ReadsItems (vs : List Value) : Prop := dumpableItems d vs = true → DistinctItems vs → ∀ v, ReadsValue h d v →
  dumpable d v = true → Distinct v → ∀ fuel r, 2 * (text d.style v ++ (itemsText d.style vs ++ r)).length + 1 < fuel →
    parseItems h fuel (text d.style v ++ (itemsText d.style vs ++ r)) = .ok (v :: vs, r)

def ReadsMembers (kvs : List (Str × Value)) : Prop := dumpableMembers d kvs = true → DistinctMembers kvs → ∀ kv : Str × Value,
  ReadsValue h d kv.2 → d.canWrite kv.1 = true → dumpable d kv.2 = true → Distinct kv.2 → ∀ fuel r,
    2 * (memberText d.style kv ++ (membersText d.style kvs ++ r)).length + 1 < fuel →
      parseMembers h fuel (memberText d.style kv ++ (membersText d.style kvs ++ r)) = .ok (kv :: kvs, r)

variable {h d}

theorem stops_of_head {s : List Char} {c : Char} (hs : s.head? = some c) (hc : c = ',' ∨ c = ']' ∨ c = '\x7d') :
    NumberText.Stops s := by
  intro x hx
  rw [hs] at hx
  cases hx
  rcases hc with rfl | rfl | rfl <;> decide

theorem stops_items (st : Json.Style) (vs : List Value) (r : List Char) : NumberText.Stops (itemsText st vs ++ r) := by
  cases vs with
  | nil => exact stops_of_head (by rw [itemsText]; rfl) (.inr (.inl rfl))
  | cons v vs => exact stops_of_head (by rw [itemsText]; rfl) (.inl rfl)

theorem stops_members (st : Json.Style) (kvs : List (Str × Value)) (r : List Char) :
    NumberText.Stops (membersText st kvs ++ r) := by
  cases kvs with
  | nil => exact stops_of_head (by rw [membersText]; rfl) (.inr (.inr rfl))
  | cons kv kvs => exact stops_of_head (by rw [membersText]; rfl) (.inl rfl)

theorem readsItems_nil : ReadsItems h d [] := by
  intro _ _ v hv hdump hdistinct fuel r hfuel
  obtain ⟨fuel, rfl⟩ : ∃ k, fuel = k + 1 := ⟨fuel - 1, by omega⟩
  rw [parseItems, hv hdump hdistinct fuel _ (stops_items _ _ _) (by omega)]
  simp [itemsText, dropWs_cons (show isWs ']' = false by decide), bind, Except.bind, pure, Except.pure]

theorem readsItems_cons (hst : StyleOk d.style) {w : Value} {ws : List Value} (hw : ReadsValue h d w)
    (hws : ReadsItems h d ws) : ReadsItems h d (w :: ws) := by
  intro hdumps hdistincts v hv hdump hdistinct fuel r hfuel
  obtain ⟨fuel, rfl⟩ : ∃ k, fuel = k + 1 := ⟨fuel - 1, by omega⟩
  rw [dumpableItems, Bool.and_eq_true] at hdumps
  rw [DistinctItems] at hdistincts
  rw [parseItems, hv hdump hdistinct fuel _ (stops_items _ _ _) (by omega)]
  have hcomma : itemsText d.style (w :: ws) ++ r = ',' :: (d.style.itemSpace ++ (text d.style w ++ (itemsText d.style ws ++ r))) := by
    simp [itemsText]
  have hnext : dropWs (d.style.itemSpace ++ (text d.style w ++ (itemsText d.style ws ++ r))) =
      text d.style w ++ (itemsText d.style ws ++ r) := by
    rw [dropWs_append hst.itemSpace, dropWs_text]
  rw [hcomma] at hfuel ⊢
  have hread := hws hdumps.2 hdistincts.2 w hw hdumps.1 hdistincts.1 fuel r (by
    simp only [List.length_append, List.length_cons] at hfuel ⊢
    obtain ⟨c, s, hs, -⟩ := text_head d.style v []
    have hlen := congrArg List.length hs
    simp only [List.append_nil, List.length_cons] at hlen
    omega)
  simp [dropWs_cons (show isWs ',' = false by decide), hnext, hread, bind, Except.bind, pure, Except.pure]

theorem memberText_eq (st : Json.Style) (kv : Str × Value) (rest : List Char) : memberText st kv ++ rest =
    '"' :: (kv.1.flatMap (escapeElement st) ++ '"' :: (':' :: (st.keySpace ++ (text st kv.2 ++ rest)))) := by
  obtain ⟨k, v⟩ := kv
  simp [memberText, quoted]

/-- The first member is read up to what follows it. -/
theorem parseMembers_member (hst : StyleOk d.style) {kv : Str × Value} (hv : ReadsValue h d kv.2)
    (hwrite : d.canWrite kv.1 = true) (hdump : dumpable d kv.2 = true) (hdistinct : Distinct kv.2) {rest : List Char}
    (hrest : NumberText.Stops rest) {fuel : Nat} (hfuel : 2 * (memberText d.style kv ++ rest).length < fuel) :
    parseMembers h (fuel + 1) (memberText d.style kv ++ rest) =
      if (dropWs rest).head? = some '\x7d' then .ok ([kv], (dropWs rest).tail)
      else if (dropWs rest).head? = some ',' then
        (parseMembers h fuel (dropWs (dropWs rest).tail)).map fun found => (kv :: found.1, found.2)
      else .error .decode := by
  have hunpaired := unpaired_of_canWrite hwrite
  have htext := memberText_eq d.style kv rest
  have hnext : dropWs (d.style.keySpace ++ (text d.style kv.2 ++ rest)) = text d.style kv.2 ++ rest := by
    rw [dropWs_append hst.keySpace, dropWs_text]
  have hread := hv hdump hdistinct fuel rest hrest (by
    rw [htext] at hfuel
    simp only [List.length_append, List.length_cons] at hfuel ⊢
    omega)
  rw [htext, parseMembers]
  simp only [List.head?_cons, if_true, List.tail_cons, scanString_quoted hst hunpaired, decode_pieces hunpaired,
    dropWs_cons (show isWs ':' = false by decide), hnext, hread, bind, Except.bind, pure, Except.pure]
  split
  · rfl
  · split
    · cases parseMembers h fuel (dropWs (dropWs rest).tail) <;> rfl
    · rfl

theorem readsMembers_nil (hst : StyleOk d.style) : ReadsMembers h d [] := by
  intro _ _ kv hv hwrite hdump hdistinct fuel r hfuel
  obtain ⟨fuel, rfl⟩ : ∃ k, fuel = k + 1 := ⟨fuel - 1, by omega⟩
  rw [parseMembers_member hst hv hwrite hdump hdistinct (stops_members _ _ _) (by omega)]
  simp [membersText, dropWs_cons (show isWs '\x7d' = false by decide)]

theorem readsMembers_cons (hst : StyleOk d.style) {kw : Str × Value} {kws : List (Str × Value)} (hw : ReadsValue h d kw.2)
    (hws : ReadsMembers h d kws) : ReadsMembers h d (kw :: kws) := by
  intro hdumps hdistincts kv hv hwrite hdump hdistinct fuel r hfuel
  obtain ⟨fuel, rfl⟩ : ∃ k, fuel = k + 1 := ⟨fuel - 1, by omega⟩
  rw [dumpableMembers, Bool.and_eq_true, Bool.and_eq_true] at hdumps
  rw [DistinctMembers] at hdistincts
  rw [parseMembers_member hst hv hwrite hdump hdistinct (stops_members _ _ _) (by omega)]
  have hcomma : membersText d.style (kw :: kws) ++ r =
      ',' :: (d.style.itemSpace ++ (memberText d.style kw ++ (membersText d.style kws ++ r))) := by
    simp [membersText]
  have hquote : dropWs (memberText d.style kw ++ (membersText d.style kws ++ r)) =
      memberText d.style kw ++ (membersText d.style kws ++ r) := by
    rw [memberText_eq, dropWs_cons (by decide)]
  have hnext : dropWs (d.style.itemSpace ++ (memberText d.style kw ++ (membersText d.style kws ++ r))) =
      memberText d.style kw ++ (membersText d.style kws ++ r) := by
    rw [dropWs_append hst.itemSpace, hquote]
  rw [hcomma] at hfuel ⊢
  have hread := hws hdumps.2 hdistincts.2 kw hw hdumps.1.1 hdumps.1.2 hdistincts.1 fuel r (by
    have hpos := congrArg List.length (memberText_eq d.style kv [])
    simp only [List.length_append, List.length_cons, List.length_nil] at hfuel hpos ⊢
    omega)
  simp [dropWs_cons (show isWs ',' = false by decide), hnext, hread, Except.map]

theorem readsValue_nilArr : ReadsValue h d (.arr []) := by
  intro _ _ fuel r _ hfuel
  obtain ⟨fuel, rfl⟩ : ∃ k, fuel = k + 1 := ⟨fuel - 1, by omega⟩
  simp [text, parseValue, dropWs_cons (show isWs ']' = false by decide)]

theorem readsValue_consArr {v : Value} {rest : List Value} (hv : ReadsValue h d v) (hrest : ReadsItems h d rest) :
    ReadsValue h d (.arr (v :: rest)) := by
  intro hdump hdistinct fuel r _ hfuel
  obtain ⟨fuel, rfl⟩ : ∃ k, fuel = k + 1 := ⟨fuel - 1, by omega⟩
  rw [dumpable, dumpableItems, Bool.and_eq_true] at hdump
  rw [Distinct, DistinctItems] at hdistinct
  have htext : text d.style (.arr (v :: rest)) ++ r = '[' :: (text d.style v ++ (itemsText d.style rest ++ r)) := by
    simp [text]
  obtain ⟨c, s, hs, -, hclose⟩ := text_head d.style v (itemsText d.style rest ++ r)
  rw [htext] at hfuel ⊢
  have hread := hrest hdump.2 hdistinct.2 v hv hdump.1 hdistinct.1 fuel r (by
    simp only [List.length_cons] at hfuel
    omega)
  rw [parseValue]
  simp only [List.head?_cons, Option.some.injEq, Char.reduceEq, if_false, if_true, List.tail_cons, dropWs_text, hread]
  rw [if_neg]
  · rfl
  · rw [hs]
    simpa using hclose

theorem readsValue_nilObj (hpairs : ∀ ms : List (Str × Value), (ms.map Prod.fst).Nodup → h.pairs ms = .ok (.obj ms)) :
    ReadsValue h d (.obj []) := by
  intro _ _ fuel r _ hfuel
  obtain ⟨fuel, rfl⟩ : ∃ k, fuel = k + 1 := ⟨fuel - 1, by omega⟩
  simp [text, parseValue, dropWs_cons (show isWs '\x7d' = false by decide), hpairs [] (by simp), Except.map]

theorem readsValue_consObj (hpairs : ∀ ms : List (Str × Value), (ms.map Prod.fst).Nodup → h.pairs ms = .ok (.obj ms))
    {kv : Str × Value} {rest : List (Str × Value)} (hv : ReadsValue h d kv.2) (hrest : ReadsMembers h d rest) :
    ReadsValue h d (.obj (kv :: rest)) := by
  intro hdump hdistinct fuel r _ hfuel
  obtain ⟨fuel, rfl⟩ : ∃ k, fuel = k + 1 := ⟨fuel - 1, by omega⟩
  rw [dumpable, dumpableMembers, Bool.and_eq_true, Bool.and_eq_true] at hdump
  rw [Distinct, DistinctMembers] at hdistinct
  have htext : text d.style (.obj (kv :: rest)) ++ r =
      '\x7b' :: (memberText d.style kv ++ (membersText d.style rest ++ r)) := by
    simp [text]
  have hquote : dropWs (memberText d.style kv ++ (membersText d.style rest ++ r)) =
      memberText d.style kv ++ (membersText d.style rest ++ r) := by
    rw [memberText_eq, dropWs_cons (by decide)]
  rw [htext] at hfuel ⊢
  have hread := hrest hdump.2 hdistinct.2.2 kv hv hdump.1.1 hdump.1.2 hdistinct.2.1 fuel r (by
    simp only [List.length_cons] at hfuel
    omega)
  rw [parseValue]
  simp only [List.head?_cons, Option.some.injEq, Char.reduceEq, if_false, if_true, List.tail_cons, hquote, hread]
  rw [if_neg]
  · simp [hpairs _ hdistinct.1, bind, Except.bind, pure, Except.pure]
  · rw [memberText_eq]
    simp

theorem readsValue_number {v : Value} {t : NumberText} (ht : t.Valid) (htext : text d.style v = t.render)
    (hvalue : numberValue t = .ok v) : ReadsValue h d v := by
  intro _ _ fuel r hr hfuel
  obtain ⟨fuel, rfl⟩ : ∃ k, fuel = k + 1 := ⟨fuel - 1, by omega⟩
  obtain ⟨c, s, hs, -, -, hquote, hbracket, hbrace⟩ := number_head ht r
  rw [htext, parseValue_scalar (by rw [hs]; rfl) hquote hbracket hbrace, parseScalar_number h ht hr, hvalue]
  rfl

theorem readsValue_str (hst : StyleOk d.style) (s : Str) : ReadsValue h d (.str s) := by
  intro hdump _ fuel r _ hfuel
  obtain ⟨fuel, rfl⟩ : ∃ k, fuel = k + 1 := ⟨fuel - 1, by omega⟩
  rw [dumpable] at hdump
  have hunpaired := unpaired_of_canWrite hdump
  have htext : text d.style (.str s) ++ r = '"' :: (s.flatMap (escapeElement d.style) ++ '"' :: r) := by
    simp [text, quoted]
  rw [htext, parseValue]
  simp [scanString_quoted hst hunpaired, decode_pieces hunpaired]

variable (h d)

/-- Every value that can be written is read back. -/
theorem readsValue (hst : StyleOk d.style)
    (hpairs : ∀ ms : List (Str × Value), (ms.map Prod.fst).Nodup → h.pairs ms = .ok (.obj ms)) (v : Value) :
    ReadsValue h d v := by
  refine @Value.rec (ReadsValue h d)
    (fun vs => ReadsItems h d vs ∧ ReadsValue h d (.arr vs))
    (fun kvs => ReadsMembers h d kvs ∧ ReadsValue h d (.obj kvs)) (fun kv => ReadsValue h d kv.2) ?_ ?_ ?_ ?_
    (readsValue_str hst) (fun _ hitems => hitems.2) (fun _ hmembers => hmembers.2) ⟨readsItems_nil, readsValue_nilArr⟩
    (fun _ _ hv hvs => ⟨readsItems_cons hst hv hvs.1, readsValue_consArr hv hvs.1⟩)
    ⟨readsMembers_nil hst, readsValue_nilObj hpairs⟩
    (fun _ _ hkv hkvs => ⟨readsMembers_cons hst hkv hkvs.1, readsValue_consObj hpairs hkv hkvs.1⟩) (fun _ _ hv => hv) v
  · intro _ _ fuel r _ hfuel
    obtain ⟨fuel, rfl⟩ : ∃ k, fuel = k + 1 := ⟨fuel - 1, by omega⟩
    rw [text, parseValue_scalar (by rfl) (by decide) (by decide) (by decide)]
    simp [parseScalar, after]
  · intro b _ _ fuel r _ hfuel
    obtain ⟨fuel, rfl⟩ : ∃ k, fuel = k + 1 := ⟨fuel - 1, by omega⟩
    cases b with
    | true =>
      rw [text, parseValue_scalar (by rfl) (by decide) (by decide) (by decide)]
      simp [parseScalar, after]
    | false =>
      rw [text, parseValue_scalar (by rfl) (by decide) (by decide) (by decide)]
      simp [parseScalar, after]
  · intro n hdump
    rw [dumpable, decide_eq_true_eq] at hdump
    exact readsValue_number (NumberText.valid_ofInt n) (by rw [text]) (numberValue_ofInt hdump) (by simpa [dumpable] using hdump)
  · intro x hdump
    cases x with
    | finite negative m =>
      exact readsValue_number (NumberText.valid_ofMagnitude negative m) (by rw [text]; rfl)
        (numberValue_ofMagnitude negative m) hdump
    | infinite negative => simp [dumpable] at hdump
    | nan => simp [dumpable] at hdump

/-- `json.loads(json.dumps(value))`, also with white space after the text. -/
theorem loads_text (hst : StyleOk d.style)
    (hpairs : ∀ ms : List (Str × Value), (ms.map Prod.fst).Nodup → h.pairs ms = .ok (.obj ms)) {v : Value}
    (hdump : dumpable d v = true) (hdistinct : Distinct v) {w : List Char} (hw : Ws w) :
    loads h (text d.style v ++ w) = .ok v := by
  have hstops : NumberText.Stops w := by
    intro c hc
    have hws := hw c (List.mem_of_mem_head? hc)
    simp only [isWs, Bool.or_eq_true, decide_eq_true_eq] at hws
    rcases hws with ((rfl | rfl) | rfl) | rfl <;> decide
  have hread := readsValue h d hst hpairs v hdump hdistinct (2 * (text d.style v ++ w).length + 1) w hstops (Nat.lt_succ_self _)
  have hdrop : dropWs w = [] := by
    rw [← List.append_nil w, dropWs_append hw]
    rfl
  rw [loads, dropWs_text, hread]
  simp [bind, Except.bind, pure, Except.pure, hdrop]

end Reads

end Crewplane.Lib.PyJson
