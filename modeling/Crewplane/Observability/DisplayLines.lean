import Crewplane.Observability.JsonExtract
/-
# What a displayed line holds

Every line of a record is one that `sanitizeLine` returned, or the value in compact form, which is cut and sanitised but not
joined. A compact line has no line feed either: `json.dumps` and `repr` escape what is below the blank.
-/
namespace Crewplane.Observability

open Crewplane.Lib Crewplane.Lib.PyJson
open Crewplane.Lib.Rfc8259 (Element)

/-! ## Written values -/

/-- No control character below the blank. -/
def Visible (text : Str) : Prop := ∀ c ∈ text, 0x20 ≤ code c

theorem Visible.append {a b : Str} (ha : Visible a) (hb : Visible b) : Visible (a ++ b) := by
  intro c hc
  rcases List.mem_append.mp hc with h | h
  · exact ha c h
  · exact hb c h

theorem Visible.intercalate {sep : Str} {parts : List Str} (hsep : Visible sep) (hparts : ∀ part ∈ parts, Visible part) :
    Visible (sep.intercalate parts) := by
  intro c hc
  rcases mem_of_mem_intercalate hc with h | ⟨part, hpart, h⟩
  · exact hsep c h
  · exact hparts part hpart c h

theorem Visible.flatMap {s : Str} {f : Element → Str} (h : ∀ c, Visible (f c)) : Visible (s.flatMap f) := by
  intro c hc
  obtain ⟨d, -, hd⟩ := List.mem_flatMap.mp hc
  exact h d c hd

theorem visible_ofChars {text : List Char} (h : ∀ c ∈ text, 0x20 ≤ c.toNat) : Visible (Str.ofChars text) := by
  intro c hc
  obtain ⟨d, hd, rfl⟩ := List.mem_map.mp hc
  exact h d hd

theorem visible_of (s : String) (h : ∀ c ∈ s.toList, 0x20 ≤ c.toNat) : Visible (Str.of s) := visible_ofChars h

theorem toNat_of_isDigit {c : Char} (h : Rfc8259.isDigit c = true) : 0x20 ≤ c.toNat := by
  simp only [Rfc8259.isDigit, Bool.and_eq_true, decide_eq_true_eq] at h
  have hle : ('0' : Char).toNat ≤ c.toNat := h.1
  exact le_trans (by decide) hle

theorem toNat_of_intPart {w : List Char} (h : Rfc8259.IntPart w) : ∀ c ∈ w, 0x20 ≤ c.toNat := by
  intro c hc
  rcases h with rfl | ⟨d, ds, rfl, hd, -, hds⟩
  · rw [List.mem_singleton.mp hc]
    decide
  · rcases List.mem_cons.mp hc with rfl | hc
    · exact toNat_of_isDigit hd
    · exact toNat_of_isDigit (hds c hc)

theorem visible_render {t : NumberText} (ht : t.Valid) : Visible (Str.ofChars t.render) := by
  apply visible_ofChars
  intro c hc
  simp only [NumberText.render, NumberText.renderAs, List.mem_append] at hc
  rcases hc with ((hminus | hint) | hfrac) | hexp
  · simp only [NumberText.minusChars] at hminus
    split at hminus
    · rw [List.mem_singleton.mp hminus]
      decide
    · simp at hminus
  · exact toNat_of_intPart ht.int c hint
  · simp only [NumberText.fracChars] at hfrac
    split at hfrac
    · simp at hfrac
    · rcases List.mem_cons.mp hfrac with rfl | hdigit
      · decide
      · exact toNat_of_isDigit (ht.frac c hdigit)
  · simp only [NumberText.expChars] at hexp
    cases hopt : t.exp with
    | none => simp [hopt, NumberText.expText] at hexp
    | some e =>
      simp only [hopt, NumberText.expText, List.mem_cons, List.mem_append] at hexp
      rcases hexp with rfl | hsign | hdigit
      · decide
      · rcases ht.sign e hopt with h | h | h
        · simp [h] at hsign
        · rw [h] at hsign
          rw [List.mem_singleton.mp hsign]
          decide
        · rw [h] at hsign
          rw [List.mem_singleton.mp hsign]
          decide
      · exact toNat_of_isDigit ((ht.exp e hopt).2 c hdigit)

/-- The pieces of a writer have no control character below the blank. -/
structure Writer.Fine (w : Writer) : Prop where
  null : Visible w.null
  yes : Visible w.yes
  no : Visible w.no
  number : ∀ x, Visible (w.number x)
  quote : ∀ s, Visible (w.quote s)

theorem writeItems_eq (w : Writer) (items : List PyJson.Value) : writeItems w items = items.map (write w) := by
  induction items with
  | nil => rfl
  | cons item rest ih => rw [writeItems, ih, List.map_cons]

theorem writeMembers_eq (w : Writer) (members : List (Str × PyJson.Value)) :
    writeMembers w members = members.map fun kv => w.quote kv.1 ++ Str.of ": " ++ write w kv.2 := by
  induction members with
  | nil => rfl
  | cons kv rest ih => rw [writeMembers, ih, List.map_cons]

theorem visible_write {w : Writer} (hw : w.Fine) (value : PyJson.Value) : Visible (write w value) := by
  have hcomma : Visible (Str.of ", ") := visible_of ", " (by simp)
  induction value using Value.induct with
  | hnull => exact hw.null
  | hbool b => cases b with
    | true => exact hw.yes
    | false => exact hw.no
  | hint n => exact visible_render (NumberText.valid_ofInt n)
  | hfloat x => exact hw.number x
  | hstr s => exact hw.quote s
  | harr items ih =>
    rw [write, writeItems_eq]
    refine ((visible_of "[" (by simp)).append (hcomma.intercalate ?_)).append (visible_of "]" (by simp))
    intro part hpart
    obtain ⟨item, hitem, rfl⟩ := List.mem_map.mp hpart
    exact ih item hitem
  | hobj members ih =>
    rw [write, writeMembers_eq]
    refine ((visible_ofChars (by simp)).append (hcomma.intercalate ?_)).append (visible_ofChars (by simp))
    intro part hpart
    obtain ⟨kv, hkv, rfl⟩ := List.mem_map.mp hpart
    exact ((hw.quote kv.1).append (visible_of ": " (by simp))).append (ih kv hkv)

/-! ## The two writers -/

theorem toNat_digitChar (n : Nat) : 0x20 ≤ (Nat.digitChar (n % 16)).toNat := by
  have h : ∀ d < 16, 0x20 ≤ (Nat.digitChar d).toNat := by decide
  exact h _ (Nat.mod_lt n (by decide))

theorem toNat_hexDigitsOf (k : Nat) : ∀ n, ∀ c ∈ hexDigitsOf k n, 0x20 ≤ c.toNat := by
  induction k with
  | zero => simp [hexDigitsOf]
  | succ k ih =>
    intro n c hc
    rw [hexDigitsOf] at hc
    rcases List.mem_append.mp hc with h | h
    · exact ih (n / 16) c h
    · rw [List.mem_singleton.mp h]
      exact toNat_digitChar n

theorem toNat_shortEscape {c e : Char} (h : Json.shortEscape c = some e) : 0x20 ≤ e.toNat := by
  simp only [Json.shortEscape] at h
  split_ifs at h <;> (cases h; decide)

theorem toNat_hex4 (n : Nat) : ∀ c ∈ Json.hex4 n, 0x20 ≤ c.toNat := by
  intro c hc
  simp only [Json.hex4, List.mem_cons, List.not_mem_nil, or_false] at hc
  rcases hc with rfl | rfl | rfl | rfl
  all_goals exact toNat_digitChar _

theorem toNat_escape (c : Char) : ∀ d ∈ Json.escape Json.Style.compact c, 0x20 ≤ d.toNat := by
  intro d hd
  rw [Json.escape] at hd
  split at hd
  case h_1 e he =>
    simp only [List.mem_cons, List.not_mem_nil, or_false] at hd
    rcases hd with rfl | rfl
    · decide
    · exact toNat_shortEscape he
  case h_2 =>
    by_cases hraw : Json.Style.compact.raw c = true
    · rw [if_pos hraw] at hd
      rw [List.mem_singleton.mp hd]
      simpa [Json.Style.compact] using hraw
    · -- what is not written as it is lies in the basic plane
      have hlow : c.toNat < 0x20 := by simpa [Json.Style.compact] using hraw
      rw [if_neg hraw, Json.unicodeEscape, if_pos (by omega)] at hd
      simp only [List.mem_cons] at hd
      rcases hd with rfl | rfl | hd
      · decide
      · decide
      · exact toNat_hex4 _ d hd

theorem visible_escapeJson (c : Element) : Visible (escapeJson c) := by
  cases c with
  | scalar c => exact visible_ofChars (toNat_escape c)
  | surrogate n =>
    intro d hd
    rw [List.mem_singleton.mp hd, code]
    omega

theorem visible_floatText (x : Binary64) : Visible (Str.ofChars (floatText x)) := by
  cases x with
  | finite negative m => exact visible_render (NumberText.valid_ofMagnitude negative m)
  | infinite negative => cases negative <;> exact visible_of _ (by simp)
  | nan => exact visible_of _ (by simp)

theorem fine_jsonWriter : jsonWriter.Fine where
  null := visible_of "null" (by simp)
  yes := visible_of "true" (by simp)
  no := visible_of "false" (by simp)
  number := visible_floatText
  quote s := ((visible_of "\"" (by simp)).append (Visible.flatMap visible_escapeJson)).append (visible_of "\"" (by simp))

section Render

variable (T : TextTables)

theorem visible_escapeRepr (q : Char) (hq : 0x20 ≤ q.toNat) (c : Element) : Visible (escapeRepr T q c) := by
  have hhex : ∀ (k n : Nat) (letter : Char), 0x20 ≤ letter.toNat →
      Visible (Str.ofChars ('\\' :: letter :: hexDigitsOf k n)) := by
    intro k n letter hletter
    apply visible_ofChars
    intro d hd
    simp only [List.mem_cons] at hd
    rcases hd with rfl | rfl | hd
    · decide
    · exact hletter
    · exact toNat_hexDigitsOf k n d hd
  have hself : 0x20 ≤ code c → Visible [c] := by
    intro hc d hd
    rw [List.mem_singleton.mp hd]
    exact hc
  rw [escapeRepr]
  by_cases hquote : code c = q.toNat ∨ code c = 0x5c
  · rw [if_pos hquote]
    exact (visible_of _ (by simp)).append (hself (by omega))
  · rw [if_neg hquote]
    split_ifs with h9 h10 h13 hprintable h100 h10000
    · exact visible_of _ (by simp)
    · exact visible_of _ (by simp)
    · exact visible_of _ (by simp)
    · apply hself
      by_contra hlow
      rw [T.printable_ascii _ (by omega)] at hprintable
      simp only [decide_eq_true_eq] at hprintable
      omega
    · exact hhex 2 _ 'x' (by decide)
    · exact hhex 4 _ 'u' (by decide)
    · exact hhex 8 _ 'U' (by decide)

theorem toNat_reprQuote (s : Str) : 0x20 ≤ (reprQuote s).toNat := by
  rw [reprQuote]
  split <;> decide

theorem visible_reprQuote (s : Str) : Visible (Str.ofChars [reprQuote s]) := by
  apply visible_ofChars
  intro c hc
  rw [List.mem_singleton.mp hc]
  exact toNat_reprQuote s

theorem fine_reprWriter : (reprWriter T).Fine where
  null := visible_of "None" (by simp)
  yes := visible_of "True" (by simp)
  no := visible_of "False" (by simp)
  number x := by
    cases x with
    | finite negative m => exact visible_floatText _
    | infinite negative => cases negative <;> exact visible_of _ (by simp)
    | nan => exact visible_of _ (by simp)
  quote s :=
    ((visible_reprQuote s).append (Visible.flatMap (visible_escapeRepr T _ (toNat_reprQuote s)))).append (visible_reprQuote s)

/-! ## Lines -/

theorem visible_compactText (value : PyJson.Value) : Visible ((dumps value).getD (reprValue T value)) := by
  rw [dumps]
  split
  · exact visible_write fine_jsonWriter _
  · exact visible_write (fine_reprWriter T) _

theorem code_compactJsonLine (value : PyJson.Value) (limit : Int) :
    ∀ c ∈ compactJsonLine T value limit, 0x20 ≤ code c ∧ code c ≠ 0x7f := by
  intro c hc
  have hclean := (controlChar_false_iff c).mp (clean_clipText _ limit c hc)
  refine ⟨?_, hclean.2⟩
  rcases mem_clipText hc with htext | hdot
  · exact visible_compactText T _ c (mem_of_mem_sanitizeText htext)
  · omega

theorem length_compactJsonLine_le (value : PyJson.Value) (limit : Int) :
    ((compactJsonLine T value limit).length : Int) ≤ max limit 3 := length_clipText_le _ limit

/-- A line that `sanitizeLine` returned. -/
def SanitizedLine (limit : Int) (line : Str) : Prop := ∃ text, line = sanitizeLine text limit

/-- A line of a record: sanitised, or a value in compact form. -/
def RecordLine (limit : Int) (line : Str) : Prop :=
  SanitizedLine limit line ∨ ∃ value, line = compactJsonLine T value limit

theorem sanitized_displayStringLines (value : Str) (limit : Int) (label : Option String) :
    ∀ line ∈ displayStringLines value limit label, SanitizedLine limit line := by
  intro line hline
  simp only [displayStringLines] at hline
  split at hline
  · simp at hline
  · split at hline
    · simp at hline
    · rcases List.mem_cons.mp hline with rfl | hlater
      · exact ⟨_, rfl⟩
      · obtain ⟨text, -, rfl⟩ := List.mem_map.mp hlater
        exact ⟨_, rfl⟩

theorem recordLine_displayStringLines {value : Str} {limit : Int} {label : Option String} :
    ∀ line ∈ displayStringLines value limit label, RecordLine T limit line := by
  intro line hline
  exact Or.inl (sanitized_displayStringLines value limit label line hline)

theorem recordLine_singleton {text : Str} {limit : Int} : ∀ line ∈ [sanitizeLine text limit], RecordLine T limit line := by
  intro line hline
  exact Or.inl ⟨text, List.mem_singleton.mp hline⟩

theorem recordLine_compact {value : PyJson.Value} {limit : Int} :
    ∀ line ∈ [compactJsonLine T value limit], RecordLine T limit line := by
  intro line hline
  exact Or.inr ⟨value, List.mem_singleton.mp hline⟩

theorem recordLine_generic (record : Record) (limit : Int) :
    ∀ line ∈ renderGenericRecord T record limit, RecordLine T limit line := by
  rw [renderGenericRecord]
  split
  · exact recordLine_displayStringLines T
  · exact recordLine_compact T

theorem recordLine_kilo (record : Record) (limit : Int) :
    ∀ line ∈ renderKiloRecord T record limit, RecordLine T limit line := by
  rw [renderKiloRecord]
  split
  · simp
  · split
    · split
      · split
        · exact recordLine_displayStringLines T
        · exact recordLine_generic T record limit
      · exact recordLine_generic T record limit
    · exact recordLine_generic T record limit

theorem recordLine_gemini (record : Record) (limit : Int) :
    ∀ line ∈ renderGeminiObject T record limit, RecordLine T limit line := by
  rw [renderGeminiObject]
  split
  · exact recordLine_displayStringLines T
  · exact recordLine_generic T record limit

theorem recordLine_claudeText (record : Record) (limit : Int) (key : String) :
    ∀ line ∈ claudeText T record limit key, RecordLine T limit line := by
  rw [claudeText]
  split
  · simp
  · split
    · simp
    · exact recordLine_displayStringLines T
  · exact recordLine_singleton T

theorem recordLine_claude (record : Record) (limit : Int) :
    ∀ line ∈ renderClaudeObject T record limit, RecordLine T limit line := by
  rw [renderClaudeObject]
  split
  · intro line hline
    simp only [List.mem_append, List.mem_flatMap] at hline
    rcases hline with (⟨key, -, h⟩ | h) | ⟨key, -, h⟩
    · exact recordLine_claudeText T record limit key line h
    · rw [claudeUsage] at h
      split at h
      · simp at h
      · exact recordLine_singleton T line h
    · rw [claudeNumber] at h
      split at h
      · simp at h
      · exact recordLine_singleton T line h
  · exact recordLine_generic T record limit

theorem recordLine_codexCommandExecution {record item : Record} {itemType phase : Str} {limit : Int} {lines : List Str}
    (h : codexCommandExecutionLines T record item itemType phase limit = some lines) :
    ∀ line ∈ lines, RecordLine T limit line := by
  simp only [codexCommandExecutionLines] at h
  split at h
  · simp at h
  · split at h
    · cases h
      intro line hline
      simp only [List.mem_cons, List.mem_append, List.mem_flatMap] at hline
      rcases hline with rfl | (h | ⟨text, -, h⟩) | ⟨key, -, value, -, h⟩
      · exact Or.inl ⟨_, rfl⟩
      · exact recordLine_displayStringLines T line h
      · exact recordLine_displayStringLines T line h
      · exact recordLine_displayStringLines T line h
    · cases h
      intro line hline
      rcases List.mem_cons.mp hline with rfl | h
      · exact Or.inl ⟨_, rfl⟩
      · exact recordLine_displayStringLines T line h
    · simp at h

theorem recordLine_codexItemEvent {record : Record} {eventType : Str} {limit : Int} {lines : List Str}
    (h : codexItemEventLines T record eventType limit = some lines) : ∀ line ∈ lines, RecordLine T limit line := by
  rw [codexItemEventLines] at h
  split at h
  · split at h
    · simp only at h
      split at h
      case h_1 hcommand =>
        cases h
        exact recordLine_codexCommandExecution T hcommand
      case h_2 =>
        cases h
        exact recordLine_singleton T
      case h_3 =>
        split at h
        · cases h
          exact recordLine_singleton T
        · simp at h
    · simp at h
  · simp at h

theorem recordLine_codex (record : Record) (limit : Int) :
    ∀ line ∈ renderCodexRecord T record limit, RecordLine T limit line := by
  rw [renderCodexRecord]
  split
  · exact recordLine_displayStringLines T
  · rw [codexEventLines]
    split
    case h_1 hlines => exact recordLine_codexItemEvent T hlines
    case h_2 => exact recordLine_singleton T
  · rw [codexItemLines]
    split
    · split
      · exact recordLine_singleton T
      · exact recordLine_generic T record limit
    · exact recordLine_generic T record limit

theorem recordLine_renderJsonRecord (record : PyJson.Value) (profile : String) (limit : Int) :
    ∀ line ∈ renderJsonRecord T record profile limit, RecordLine T limit line := by
  cases record with
  | obj members =>
    rw [renderJsonRecord]
    split_ifs
    · exact recordLine_singleton T
    · exact recordLine_codex T _ limit
    · exact recordLine_kilo T _ limit
    · exact recordLine_generic T _ limit
  | _ => exact recordLine_compact T

theorem recordLine_renderJsonObject (value : PyJson.Value) (profile : String) (limit : Int) :
    ∀ line ∈ renderJsonObject T value profile limit, RecordLine T limit line := by
  cases value with
  | obj members =>
    rw [renderJsonObject]
    split_ifs
    · exact recordLine_claude T _ limit
    · exact recordLine_gemini T _ limit
    · exact recordLine_generic T _ limit
  | _ => exact recordLine_compact T

/-- Every displayed line fits and has no line feed and no control character of ASCII but the tab. A line that was sanitised
has no line boundary either, and sanitising it again leaves it alone. -/
theorem displayed_lines :
    (∀ (value : Str) (limit : Int), Displayable (sanitizeLine value limit) ∧
      ((sanitizeLine value limit).length : Int) ≤ max limit 3 ∧
      sanitizeLine (sanitizeLine value limit) limit = sanitizeLine value limit) ∧
    (∀ (value : Str) (limit : Int) (label : Option String), ∀ line ∈ displayStringLines value limit label,
      SanitizedLine limit line) ∧
    (∀ (record : PyJson.Value) (profile : String) (limit : Int),
      ∀ line ∈ renderJsonRecord T record profile limit ++ renderJsonObject T record profile limit, RecordLine T limit line) ∧
    (∀ (value : PyJson.Value) (limit : Int), ((compactJsonLine T value limit).length : Int) ≤ max limit 3 ∧
      ∀ c ∈ compactJsonLine T value limit, 0x20 ≤ code c ∧ code c ≠ 0x7f) := by
  refine ⟨?_, sanitized_displayStringLines, ?_, ?_⟩
  · intro value limit
    exact ⟨sanitizeLine_displayable value limit, length_clipText_le _ limit, sanitizeLine_idem value limit⟩
  · intro record profile limit line hline
    rcases List.mem_append.mp hline with h | h
    · exact recordLine_renderJsonRecord T record profile limit line h
    · exact recordLine_renderJsonObject T record profile limit line h
  · intro value limit
    exact ⟨length_compactJsonLine_le T value limit, code_compactJsonLine T value limit⟩

end Render

/-- ASCII is enough for a text without other letters. -/
def asciiTables : TextTables where
  lower text := text
  printable n := decide (0x20 ≤ n ∧ n < 0x7f)
  printable_ascii _ _ := rfl

/-- An eight-bit CSI, and a limit that is shorter than the three dots. -/
theorem eight_bit_csi_stays :
    (¬ ∀ (T : TextTables) (record : PyJson.Value) (profile : String) (limit : Int),
      ∀ line ∈ renderJsonRecord T record profile limit, ∀ c ∈ line, ¬ (0x80 ≤ code c ∧ code c ≤ 0x9f)) ∧
    ¬ ∀ (value : Str) (limit : Int), ((sanitizeLine value limit).length : Int) ≤ limit := by
  constructor
  · intro h
    have hlines : renderJsonRecord asciiTables (.obj [(Str.of "message", .str (Str.of "\x9b31mX"))]) "generic" 1000 =
        [Str.of "message: \x9b31mX"] := by decide +kernel
    have hmem : Element.scalar '\x9b' ∈ Str.of "message: \x9b31mX" := by decide +kernel
    apply h asciiTables (.obj [(Str.of "message", .str (Str.of "\x9b31mX"))]) "generic" 1000 _ _ _ hmem
    · simp [code]
    · rw [hlines]
      exact List.mem_singleton.mpr rfl
  · intro h
    have hline : sanitizeLine (Str.of "text") 2 = Str.of "..." := by decide +kernel
    have hlength := h (Str.of "text") 2
    rw [hline, length_dots] at hlength
    omega

end Crewplane.Observability
