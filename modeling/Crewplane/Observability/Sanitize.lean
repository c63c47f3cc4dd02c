import Crewplane.Lib.Lists
import Crewplane.Lib.PyJson
import Crewplane.Lib.Scan
/-
# Display text (observability/log_presentation/sanitize.py)

| here | there |
|------|-------|
| `oscPattern`, `csiPattern`, `controlChar` | `_ANSI_OSC_RE`, `_ANSI_CSI_RE`, `_CONTROL_RE` |
| `sanitizeText`, `clipText`, `sanitizeLine` | sanitize.py:30, 37, 47 |
| `redactJsonValue`, `isSensitiveKey` | sanitize.py:64, 76 |

A text is a list of code points. The patterns read it at one position; what they match is deleted, and then the control
characters that are left. No escape is left then, so a second pass finds nothing (`sanitizeText_idem`).
-/
namespace Crewplane.Observability

open Crewplane.Lib Crewplane.Lib.PyJson
open Crewplane.Lib.Rfc8259 (Element)

/-! ## The patterns -/

/-- `ord(c)`: a surrogate is one of 0xd800 to 0xdfff, and then its own number. -/
def code : Element → Nat
  | .scalar c => c.toNat
  | .surrogate n => 0xd800 + n % 0x800

/-- `\x1b\\`, at its last place. -/
def lastTerminator : Str → Option Nat
  | [] => none
  | c :: rest =>
    match lastTerminator rest with
    | some k => some (k + 1)
    | none => if code c = 0x1b ∧ rest.head?.map code = some 0x5c then some 0 else none

/-- `\x1b\][^\x07]*(?:\x07|\x1b\\)`: up to the next BEL, or else to the last `\x1b\\`. -/
def oscPattern : Pattern Element Unit
  | esc :: bracket :: rest =>
    if code esc = 0x1b ∧ code bracket = 0x5d then
      let body := rest.takeWhile fun c => code c ≠ 7
      if body.length < rest.length then some (body.length + 2, ())
      else (lastTerminator body).map fun k => (k + 3, ())
    else none
  | _ => none

/-- `_ANSI_CSI_RE`: parameters 0x30 to 0x3f, intermediates 0x20 to 0x2f and a final character 0x40 to 0x7e. -/
def csiPattern : Pattern Element Unit
  | esc :: bracket :: rest =>
    if code esc = 0x1b ∧ code bracket = 0x5b then
      let parameters := rest.takeWhile fun c => 0x30 ≤ code c && code c ≤ 0x3f
      let later := rest.dropWhile fun c => 0x30 ≤ code c && code c ≤ 0x3f
      let intermediates := later.takeWhile fun c => 0x20 ≤ code c && code c ≤ 0x2f
      let later := later.dropWhile fun c => 0x20 ≤ code c && code c ≤ 0x2f
      if later.head?.any fun c => 0x40 ≤ code c && code c ≤ 0x7e then some (parameters.length + intermediates.length + 2, ())
      else none
    else none
  | _ => none

/-- `[\x00-\x08\x0b\x0c\x0e-\x1f\x7f]`. -/
def controlChar (c : Element) : Bool :=
  code c ≤ 8 || code c = 0xb || code c = 0xc || (0xe ≤ code c && code c ≤ 0x1f) || code c = 0x7f

def sanitizeText (value : Str) : Str :=
  let text := sub oscPattern (fun _ => []) 0 value
  let text := sub csiPattern (fun _ => []) 0 text
  text.filter fun c => !controlChar c

/-! ## Lines -/

def defaultMaxDisplayChars : Int := 1000

def clipText (value : Str) (limit : Int) : Str :=
  let text := sanitizeText value
  if text.length ≤ limit then text else text.take (max 0 (limit - 3)).toNat ++ Str.of "..."

/-- A line boundary of `str.splitlines`. -/
def lineBoundary (c : Element) : Bool :=
  (10 ≤ code c && code c ≤ 13) || (28 ≤ code c && code c ≤ 30) || code c = 0x85 || code c = 0x2028 || code c = 0x2029

/-- `str.splitlines()` from inside a line, or after a CR that may be half of a boundary. -/
def splitLinesFrom : Str → Bool → Str → List Str
  | [], _, [] => []
  | line, _, [] => [line]
  | line, afterReturn, c :: rest =>
    if afterReturn ∧ code c = 10 then splitLinesFrom [] false rest
    else if lineBoundary c then line :: splitLinesFrom [] (code c = 13) rest
    else splitLinesFrom (line ++ [c]) false rest

def splitLines (text : Str) : List Str := splitLinesFrom [] false text

def sanitizeLine (value : Str) (limit : Int) : Str :=
  clipText ((Str.of " ").intercalate (splitLines (sanitizeText value))) limit

/-- A line for the terminal: no line boundary, no control character of ASCII but the tab. -/
structure Displayable (line : Str) : Prop where
  oneLine : ∀ c ∈ line, lineBoundary c = false
  onlyTab : ∀ c ∈ line, code c < 0x20 → code c = 9
  noDelete : ∀ c ∈ line, code c ≠ 0x7f

/-! ## What a pass leaves -/

theorem oscPattern_none {c : Element} {rest : Str} (h : code c ≠ 0x1b) : oscPattern (c :: rest) = none := by
  cases rest with
  | nil => rfl
  | cons d rest => simp [oscPattern, h]

theorem csiPattern_none {c : Element} {rest : Str} (h : code c ≠ 0x1b) : csiPattern (c :: rest) = none := by
  cases rest with
  | nil => rfl
  | cons d rest => simp [csiPattern, h]

theorem controlChar_false_iff (c : Element) :
    controlChar c = false ↔ (code c < 0x20 → code c = 9 ∨ code c = 10 ∨ code c = 13) ∧ code c ≠ 0x7f := by
  simp only [controlChar, Bool.or_eq_false_iff, Bool.and_eq_false_iff, decide_eq_false_iff_not]
  omega

/-- No control character is left. -/
def Clean (text : Str) : Prop := ∀ c ∈ text, controlChar c = false

theorem clean_sanitizeText (value : Str) : Clean (sanitizeText value) := by
  intro c hc
  have hkept := (List.mem_filter.mp hc).2
  simpa using hkept

theorem Clean.code_ne {text : Str} (h : Clean text) {c : Element} (hc : c ∈ text) : code c ≠ 0x1b := by
  have := (controlChar_false_iff c).mp (h c hc)
  omega

/-- A clean text has no escape, so that no pattern matches in it. -/
theorem Clean.sanitizeText_eq {text : Str} (h : Clean text) : sanitizeText text = text := by
  have hosc : sub oscPattern (fun _ => []) 0 text = text := by
    apply sub_of_none
    intro c rest hsuffix
    exact oscPattern_none (h.code_ne (hsuffix.subset List.mem_cons_self))
  have hcsi : sub csiPattern (fun _ => []) 0 text = text := by
    apply sub_of_none
    intro c rest hsuffix
    exact csiPattern_none (h.code_ne (hsuffix.subset List.mem_cons_self))
  have hfilter : text.filter (fun c => !controlChar c) = text := by
    rw [List.filter_eq_self]
    intro c hc
    simp [h c hc]
  simp only [sanitizeText, hosc, hcsi, hfilter]

theorem mem_of_mem_sub {p : Pattern Element Unit} {text : Str} {c : Element} : ∀ {skip : Nat},
    c ∈ sub p (fun _ => []) skip text → c ∈ text := by
  induction text with
  | nil => simp
  | cons d rest ih =>
    intro skip hc
    rw [sub_skip] at hc
    cases skip with
    | succ skip =>
      rw [List.drop_succ_cons, ← sub_skip] at hc
      exact List.mem_cons_of_mem d (ih hc)
    | zero =>
      rw [List.drop_zero] at hc
      cases hp : p (d :: rest) with
      | none =>
        rw [sub_none hp] at hc
        rcases List.mem_cons.mp hc with rfl | hc
        · exact List.mem_cons_self
        · exact List.mem_cons_of_mem d (ih hc)
      | some found =>
        rw [sub_some hp, List.nil_append, ← sub_skip] at hc
        exact List.mem_cons_of_mem d (ih hc)

theorem mem_of_mem_sanitizeText {value : Str} {c : Element} (hc : c ∈ sanitizeText value) : c ∈ value :=
  mem_of_mem_sub (mem_of_mem_sub (List.mem_filter.mp hc).1)

theorem sanitizeText_idem (value : Str) : sanitizeText (sanitizeText value) = sanitizeText value :=
  (clean_sanitizeText value).sanitizeText_eq

/-! ## Cutting a text -/

theorem code_dots : ∀ c ∈ Str.of "...", code c = 0x2e := by simp [Str.of, Str.ofChars, code]

theorem length_dots : (Str.of "...").length = 3 := by simp [Str.of, Str.ofChars]

theorem mem_clipText {value : Str} {limit : Int} {c : Element} (hc : c ∈ clipText value limit) :
    c ∈ sanitizeText value ∨ code c = 0x2e := by
  simp only [clipText] at hc
  split at hc
  · exact Or.inl hc
  · rcases List.mem_append.mp hc with hfront | hdots
    · exact Or.inl (List.mem_of_mem_take hfront)
    · exact Or.inr (code_dots c hdots)

theorem clean_clipText (value : Str) (limit : Int) : Clean (clipText value limit) := by
  intro c hc
  rcases mem_clipText hc with htext | hdot
  · exact clean_sanitizeText value c htext
  · simp [controlChar, hdot]

theorem length_clipText_le (value : Str) (limit : Int) : ((clipText value limit).length : Int) ≤ max limit 3 := by
  simp only [clipText]
  split
  · omega
  · simp only [List.length_append, List.length_take, length_dots]
    omega

/-- A text that was cut is as long as the limit, or it is the three dots. -/
theorem clipText_idem (value : Str) (limit : Int) : clipText (clipText value limit) limit = clipText value limit := by
  have hclean := (clean_clipText value limit).sanitizeText_eq
  by_cases hfits : ((clipText value limit).length : Int) ≤ limit
  · simp only [clipText.eq_1 (clipText value limit), hclean, if_pos hfits]
  · have hlong : ¬ ((sanitizeText value).length : Int) ≤ limit := by
      intro hle
      apply hfits
      rw [clipText]
      simpa only [if_pos hle] using hle
    have hcut : clipText value limit = (sanitizeText value).take (max 0 (limit - 3)).toNat ++ Str.of "..." := by
      simp only [clipText, if_neg hlong]
    have hzero : (max 0 (limit - 3)).toNat = 0 := by
      rw [hcut, List.length_append, List.length_take, length_dots] at hfits
      omega
    simp only [clipText.eq_1 (clipText value limit), hclean, if_neg hfits, hzero, List.take_zero, List.nil_append]
    rw [hcut, hzero, List.take_zero, List.nil_append]

/-! ## Joining the lines of a text -/

theorem splitLinesFrom_mem (text : Str) : ∀ (line : Str) (afterReturn : Bool), (∀ c ∈ line, lineBoundary c = false) →
    ∀ part ∈ splitLinesFrom line afterReturn text, ∀ c ∈ part, lineBoundary c = false ∧ (c ∈ line ∨ c ∈ text) := by
  induction text with
  | nil =>
    intro line afterReturn hline part hpart c hc
    cases line with
    | nil => simp [splitLinesFrom] at hpart
    | cons d line =>
      simp only [splitLinesFrom, List.mem_singleton] at hpart
      subst hpart
      exact ⟨hline c hc, Or.inl hc⟩
  | cons d rest ih =>
    intro line afterReturn hline part hpart c hc
    rw [splitLinesFrom] at hpart
    by_cases hsecond : afterReturn = true ∧ code d = 10
    · rw [if_pos hsecond] at hpart
      have hstep := ih [] false (by simp) part hpart c hc
      simp only [List.not_mem_nil, false_or] at hstep
      exact ⟨hstep.1, Or.inr (List.mem_cons_of_mem d hstep.2)⟩
    · rw [if_neg hsecond] at hpart
      by_cases hboundary : lineBoundary d = true
      · rw [if_pos hboundary] at hpart
        rcases List.mem_cons.mp hpart with rfl | hpart
        · exact ⟨hline c hc, Or.inl hc⟩
        · have hstep := ih [] _ (by simp) part hpart c hc
          simp only [List.not_mem_nil, false_or] at hstep
          exact ⟨hstep.1, Or.inr (List.mem_cons_of_mem d hstep.2)⟩
      · rw [if_neg hboundary] at hpart
        have hlonger : ∀ x ∈ line ++ [d], lineBoundary x = false := by
          intro x hx
          rcases List.mem_append.mp hx with hx | hx
          · exact hline x hx
          · rw [List.mem_singleton.mp hx]
            simpa using hboundary
        obtain ⟨hfine, hmem⟩ := ih (line ++ [d]) false hlonger part hpart c hc
        refine ⟨hfine, ?_⟩
        simp only [List.mem_append, List.mem_cons, List.not_mem_nil, or_false] at hmem ⊢
        tauto

/-- A text without a boundary is one line. -/
theorem splitLinesFrom_of_line (text : Str) : ∀ line : Str, (∀ c ∈ text, lineBoundary c = false) → line ++ text ≠ [] →
    splitLinesFrom line false text = [line ++ text] := by
  induction text with
  | nil =>
    intro line _ hne
    cases line with
    | nil => simp at hne
    | cons d line => simp [splitLinesFrom]
  | cons d rest ih =>
    intro line hline _
    have hd : lineBoundary d = false := hline d List.mem_cons_self
    rw [splitLinesFrom, if_neg (by simp), if_neg (by simp [hd]),
      ih (line ++ [d]) (fun c hc => hline c (List.mem_cons_of_mem d hc)) (by simp)]
    simp

theorem joined_of_line {text : Str} (h : ∀ c ∈ text, lineBoundary c = false) :
    (Str.of " ").intercalate (splitLines text) = text := by
  by_cases hnil : text = []
  · subst hnil
    rfl
  · rw [splitLines, splitLinesFrom_of_line text [] h (by simpa using hnil)]
    simp

theorem code_blank : ∀ c ∈ Str.of " ", code c = 0x20 := by simp [Str.of, Str.ofChars, code]

theorem lineBoundary_of_code {c : Element} {n : Nat} (h : code c = n)
    (hn : n = 0x20 ∨ n = 0x2e) : lineBoundary c = false := by
  simp only [lineBoundary, h]
  rcases hn with rfl | rfl <;> rfl

theorem joined_oneLine (text : Str) : ∀ c ∈ (Str.of " ").intercalate (splitLines text),
    lineBoundary c = false ∧ (code c = 0x20 ∨ c ∈ text) := by
  intro c hc
  rcases mem_of_mem_intercalate hc with hblank | ⟨part, hpart, hmem⟩
  · exact ⟨lineBoundary_of_code (code_blank c hblank) (Or.inl rfl), Or.inl (code_blank c hblank)⟩
  · obtain ⟨hfine, htext⟩ := splitLinesFrom_mem text [] false (by simp) part hpart c hmem
    simp only [List.not_mem_nil, false_or] at htext
    exact ⟨hfine, Or.inr htext⟩

theorem clean_joined (value : Str) : Clean ((Str.of " ").intercalate (splitLines (sanitizeText value))) := by
  intro c hc
  rcases (joined_oneLine _ c hc).2 with hblank | htext
  · simp [controlChar, hblank]
  · exact clean_sanitizeText value c htext

theorem sanitizeLine_oneLine (value : Str) (limit : Int) : ∀ c ∈ sanitizeLine value limit, lineBoundary c = false := by
  intro c hc
  rcases mem_clipText hc with htext | hdot
  · rw [(clean_joined value).sanitizeText_eq] at htext
    exact (joined_oneLine _ c htext).1
  · exact lineBoundary_of_code hdot (Or.inr rfl)

theorem sanitizeLine_displayable (value : Str) (limit : Int) : Displayable (sanitizeLine value limit) := by
  have hline := sanitizeLine_oneLine value limit
  have hclean : Clean (sanitizeLine value limit) := clean_clipText _ limit
  refine ⟨hline, fun c hc hlow => ?_, fun c hc => ((controlChar_false_iff c).mp (hclean c hc)).2⟩
  -- LF and CR would be boundaries
  have hcode := ((controlChar_false_iff c).mp (hclean c hc)).1 hlow
  have hboundary := hline c hc
  simp only [lineBoundary, Bool.or_eq_false_iff, Bool.and_eq_false_iff, decide_eq_false_iff_not] at hboundary
  omega

theorem sanitizeLine_idem (value : Str) (limit : Int) :
    sanitizeLine (sanitizeLine value limit) limit = sanitizeLine value limit := by
  have hclean : Clean (sanitizeLine value limit) := clean_clipText _ limit
  rw [sanitizeLine.eq_1 (sanitizeLine value limit), hclean.sanitizeText_eq, joined_of_line (sanitizeLine_oneLine value limit)]
  exact clipText_idem _ limit

/-! ## Redaction -/

def sensitiveKeys : List Str :=
  ["token", "secret", "password", "authorization", "cookie", "api_key", "access_key", "secret_key", "private_key", "key"].map Str.of

section Redact

-- `str.lower`
variable (lower : Str → Str)

def isSensitiveKey (key : Str) : Bool :=
  let normalized := lower key
  sensitiveKeys.contains normalized || (Str.of "_key").isSuffixOf normalized || (Str.of "-key").isSuffixOf normalized

mutual

def redactJsonValue : PyJson.Value → PyJson.Value
  | .obj members => .obj (redactMembers members)
  | .arr items => .arr (redactItems items)
  | value => value

def redactItems : List PyJson.Value → List PyJson.Value
  | [] => []
  | item :: rest => redactJsonValue item :: redactItems rest

def redactMembers : List (Str × PyJson.Value) → List (Str × PyJson.Value)
  | [] => []
  | (key, item) :: rest =>
    (key, if isSensitiveKey lower key then .str (Str.of "[redacted]") else redactJsonValue item) :: redactMembers rest

end

end Redact

end Crewplane.Observability
