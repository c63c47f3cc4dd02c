import Crewplane.Invocation.Retry
import Crewplane.Lib.Binary64
import Crewplane.Lib.Lists
import Crewplane.Lib.Text
/-
# Retry waits in a log (runtime/agent/retry_units.py)

`normalizeRetryWaitUnitsInText` writes the milliseconds of `Retrying after 1500ms` in seconds. `retryWaitAt` is
`RETRYING_AFTER_MS_PATTERN` at one position; a phrase has one reading only, so the groups of the pattern are told by what
they hold (`IsRetryWait`).
-/
namespace Crewplane.Process

open Crewplane.Lib
open Crewplane.Invocation (formatWaitDuration)

/-- What `re` asks of a character: `\w`, and the value of a `\d`. -/
structure CharTables where
  word : Char → Bool
  decimal : Char → Option Nat
  word_ascii : ∀ c : Char, c.toNat < 128 → word c = (c.isAlphanum || c = '_')
  decimal_ascii : ∀ c : Char, c.toNat < 128 → decimal c = if c.isDigit then some (c.toNat - 48) else none
  decimal_lt : ∀ (c : Char) (n : Nat), decimal c = some n → n < 10
  digit_not_space : ∀ c : Char, (decimal c).isSome = true → isSpace c = false
  space_not_word : ∀ c : Char, isSpace c = true → word c = false
  /-- The replacement character. -/
  replacement_not_word : word '\ufffd' = false

theorem isDigit_iff (c : Char) : c.isDigit = true ↔ 48 ≤ c.toNat ∧ c.toNat ≤ 57 := by
  simp [Char.isDigit, UInt32.le_iff_toNat_le]

theorem isAlphanum_iff (c : Char) : c.isAlphanum = true ↔
    (65 ≤ c.toNat ∧ c.toNat ≤ 90) ∨ (97 ≤ c.toNat ∧ c.toNat ≤ 122) ∨ (48 ≤ c.toNat ∧ c.toNat ≤ 57) := by
  simp [Char.isAlphanum, Char.isAlpha, Char.isUpper, Char.isLower, Char.isDigit, UInt32.le_iff_toNat_le, or_assoc]

theorem isSpace_range {c : Char} (h : isSpace c = true) :
    (9 ≤ c.toNat ∧ c.toNat ≤ 13) ∨ (28 ≤ c.toNat ∧ c.toNat ≤ 32) ∨ 128 ≤ c.toNat := by
  simp only [isSpace, Bool.or_eq_true, Bool.and_eq_true, decide_eq_true_eq] at h
  omega

theorem asciiDecimal_lt (c : Char) (n : Nat) (h : (if c.isDigit then some (c.toNat - 48) else none) = some n) : n < 10 := by
  split at h
  next hdigit =>
    obtain ⟨hlow, hhigh⟩ := (isDigit_iff c).mp hdigit
    have hn : c.toNat - 48 = n := Option.some.inj h
    omega
  next => cases h

theorem asciiDigit_not_space (c : Char) (h : (if c.isDigit then some (c.toNat - 48) else none).isSome = true) :
    isSpace c = false := by
  split at h
  next hdigit =>
    obtain ⟨hlow, hhigh⟩ := (isDigit_iff c).mp hdigit
    by_contra hspace
    have hrange := isSpace_range (Bool.eq_true_of_not_eq_false hspace)
    omega
  next => cases h

theorem space_not_asciiWord (c : Char) (h : isSpace c = true) : (c.isAlphanum || c = '_') = false := by
  have hrange := isSpace_range h
  rw [Bool.eq_false_iff, ne_eq, Bool.or_eq_true, isAlphanum_iff, decide_eq_true_iff]
  rintro (halnum | rfl)
  · omega
  · revert h
    decide

/-- The tables of ASCII. -/
def CharTables.ascii : CharTables where
  word c := c.isAlphanum || c = '_'
  decimal c := if c.isDigit then some (c.toNat - 48) else none
  word_ascii _ _ := rfl
  decimal_ascii _ _ := rfl
  decimal_lt := asciiDecimal_lt
  digit_not_space := asciiDigit_not_space
  space_not_word := space_not_asciiWord
  replacement_not_word := rfl

inductive WaitError
  | overflowError
  deriving DecidableEq, Repr

/-- A letter of a pattern with `IGNORECASE`: both cases, and the letters that fold to it. -/
def sameLetter (letter c : Char) : Bool :=
  c = letter || c = letter.toUpper || (letter = 'i' && (c = '\u0130' || c = '\u0131')) || (letter = 's' && c = '\u017f')

/-- A literal at the head of a text: what it matched and what is left. -/
def takeLiteral : List Char → List Char → Option (List Char × List Char)
  | [], text => some ([], text)
  | _ :: _, [] => none
  | letter :: letters, c :: text =>
    if sameLetter letter c then (takeLiteral letters text).map fun found => (c :: found.1, found.2) else none

/-- What the pattern matches, part by part; the groups are the first two parts and the next two. -/
structure RetryWait where
  name : List Char
  blanks : List Char
  whole : List Char
  fraction : List Char
  unit : List Char
  deriving DecidableEq, Repr

namespace RetryWait

def lead (wait : RetryWait) : List Char := wait.name ++ wait.blanks

def milliseconds (wait : RetryWait) : List Char := wait.whole ++ wait.fraction

def text (wait : RetryWait) : List Char := wait.lead ++ (wait.milliseconds ++ wait.unit)

end RetryWait

section Tables

variable (u : CharTables)

def CharTables.digit (c : Char) : Bool := (u.decimal c).isSome

/-- `\b` between two characters, or at an end of the text. -/
def CharTables.boundary (before after : Option Char) : Bool := before.any u.word != after.any u.word

/-- `(?:\.\d+)?`: the fraction and what is left. -/
def takeFraction : List Char → List Char × List Char
  | '.' :: rest => if rest.takeWhile u.digit = [] then ([], '.' :: rest) else ('.' :: rest.takeWhile u.digit, rest.dropWhile u.digit)
  | rest => ([], rest)

def retryLead : List Char := "retrying after".toList

/-- `RETRYING_AFTER_MS_PATTERN` at the head of `text`, with the character before it. -/
def retryWaitAt (before : Option Char) (text : List Char) : Option RetryWait := do
  guard (u.boundary before text.head?)
  let (name, rest) ← takeLiteral retryLead text
  let blanks := rest.takeWhile isSpace
  guard (blanks ≠ [])
  let rest := rest.dropWhile isSpace
  let whole := rest.takeWhile u.digit
  guard (whole ≠ [])
  let (fraction, rest) := takeFraction u (rest.dropWhile u.digit)
  let (unit, rest) ← takeLiteral ['m', 's'] rest
  guard (u.boundary unit.getLast? rest.head?)
  return ⟨name, blanks, whole, fraction, unit⟩

/-! ## The wait in seconds -/

def digitsValue (digits : List Char) : Nat := digits.foldl (fun n c => n * 10 + (u.decimal c).getD 0) 0

/-- `float` of digits with a fraction; nothing stands for infinity. -/
def floatOf (text : List Char) : Option Magnitude :=
  let whole := text.takeWhile (· ≠ '.')
  let fraction := (text.dropWhile (· ≠ '.')).drop 1
  roundToNearest ((digitsValue u (whole ++ fraction) : ℚ) / 10 ^ fraction.length)

/-- `round(seconds, 1)` is a whole number of tenths. -/
def formatStreamRetryWait (seconds : ℚ) : String :=
  if seconds < 10 then
    let tenths := roundHalfEven (seconds * 10)
    if tenths % 10 = 0 then Nat.repr (tenths / 10) ++ "s"
    else Nat.repr (tenths / 10) ++ "." ++ Nat.repr (tenths % 10) ++ "s"
  else formatWaitDuration seconds

/-- `milliseconds / 1000.0`; nothing stands for infinity. -/
def waitSeconds (wait : RetryWait) : Option Magnitude :=
  (floatOf u wait.milliseconds).bind fun milliseconds => roundToNearest (milliseconds.value / 1000)

/-- `_replace`; an infinite wait cannot be rounded to an integer. -/
def replaceWait (wait : RetryWait) : Except WaitError (List Char) :=
  match waitSeconds u wait with
  | none => .error .overflowError
  | some seconds => .ok (wait.lead ++ (formatStreamRetryWait seconds.value).toList)

/-- The substitution from a position on; `skip` characters of the last match are still to pass. -/
def normalizeFrom : Option Char → Nat → List Char → Except WaitError (List Char)
  | _, _, [] => .ok []
  | _, skip + 1, c :: rest => normalizeFrom (some c) skip rest
  | before, 0, c :: rest =>
    match retryWaitAt u before (c :: rest) with
    | none => do
      let tail ← normalizeFrom (some c) 0 rest
      return c :: tail
    | some wait => do
      let front ← replaceWait u wait
      let tail ← normalizeFrom (some c) (wait.text.length - 1) rest
      return front ++ tail

def normalizeRetryWaitUnitsInText (text : List Char) : Except WaitError (List Char) := normalizeFrom u none 0 text

/-! ## What a match is -/

/-- The letters of a literal, in either case. -/
def Spells (letters text : List Char) : Prop := List.Forall₂ (fun letter c => sameLetter letter c = true) letters text

theorem takeLiteral_eq_some {letters text found rest : List Char} :
    takeLiteral letters text = some (found, rest) ↔ text = found ++ rest ∧ Spells letters found := by
  induction letters generalizing text found rest with
  | nil =>
    cases found with
    | nil => simp [takeLiteral, Spells]
    | cons c found => simp [takeLiteral, Spells]
  | cons letter letters ih =>
    cases text with
    | nil =>
      cases found with
      | nil => simp [takeLiteral, Spells]
      | cons c found => simp [takeLiteral]
    | cons d text =>
      rw [takeLiteral]
      split
      next hsame =>
        simp only [Option.map_eq_some_iff, Prod.exists, Prod.mk.injEq, ih]
        constructor
        · rintro ⟨found, tail, ⟨rfl, hspells⟩, rfl, rfl⟩
          exact ⟨rfl, .cons hsame hspells⟩
        · rintro ⟨htext, hspells⟩
          cases hspells with
          | cons hc hrest =>
            obtain ⟨rfl, rfl⟩ := List.cons.inj htext
            exact ⟨_, rest, ⟨rfl, hrest⟩, rfl, rfl⟩
      next hne =>
        simp only [reduceCtorEq, false_iff]
        rintro ⟨htext, hspells⟩
        cases hspells with
        | cons hc hrest =>
          obtain ⟨rfl, rfl⟩ := List.cons.inj htext
          exact hne hc

def CharTables.Digits (ds : List Char) : Prop := ∀ c ∈ ds, u.digit c = true

/-- The parts of a match between two characters. -/
structure IsRetryWait (before : Option Char) (wait : RetryWait) (after : Option Char) : Prop where
  start : u.boundary before wait.text.head? = true
  name : Spells retryLead wait.name
  blanks : wait.blanks ≠ [] ∧ ∀ c ∈ wait.blanks, isSpace c = true
  whole : wait.whole ≠ [] ∧ u.Digits wait.whole
  fraction : wait.fraction = [] ∨ ∃ ds, wait.fraction = '.' :: ds ∧ ds ≠ [] ∧ u.Digits ds
  unit : Spells ['m', 's'] wait.unit
  stop : u.boundary wait.unit.getLast? after = true

variable {u}

theorem not_digit_of_ascii {c : Char} (hc : c.toNat < 128) (h : c.isDigit = false) : u.digit c = false := by
  simp [CharTables.digit, u.decimal_ascii c hc, h]

theorem takeFraction_sound (text : List Char) : text = (takeFraction u text).1 ++ (takeFraction u text).2 ∧
    ((takeFraction u text).1 = [] ∨ ∃ ds, (takeFraction u text).1 = '.' :: ds ∧ ds ≠ [] ∧ u.Digits ds) := by
  unfold takeFraction
  split
  next rest =>
    split
    next => exact ⟨rfl, .inl rfl⟩
    next hne =>
      refine ⟨by simp, .inr ⟨_, rfl, hne, fun c hc => List.mem_takeWhile_imp hc⟩⟩
  next => exact ⟨rfl, .inl rfl⟩

theorem takeFraction_append {fraction rest : List Char} (hrest : ∀ c ∈ rest.head?, u.digit c = false ∧ c ≠ '.')
    (h : fraction = [] ∨ ∃ ds, fraction = '.' :: ds ∧ ds ≠ [] ∧ u.Digits ds) :
    takeFraction u (fraction ++ rest) = (fraction, rest) := by
  rcases h with rfl | ⟨ds, rfl, hne, hds⟩
  · unfold takeFraction
    split
    next tail htail =>
      have hdot : rest = '.' :: tail := htail
      exact absurd rfl (hrest '.' (by rw [hdot]; rfl)).2
    next => rfl
  · obtain ⟨htake, hdrop⟩ := takeWhile_run hds fun c hc => (hrest c hc).1
    simp [takeFraction, htake, hdrop, hne]

theorem sameLetter_m {c : Char} (h : sameLetter 'm' c = true) : c = 'm' ∨ c = 'M' := by
  simpa [sameLetter] using h

theorem Spells.unit {unit : List Char} (h : Spells ['m', 's'] unit) :
    ∃ a b, unit = [a, b] ∧ (a = 'm' ∨ a = 'M') ∧ sameLetter 's' b = true := by
  cases h with
  | cons ha h =>
    cases h with
    | cons hb h =>
      cases h
      exact ⟨_, _, rfl, sameLetter_m ha, hb⟩

theorem Spells.unit_head {unit : List Char} (h : Spells ['m', 's'] unit) (rest : List Char) :
    ∀ c ∈ (unit ++ rest).head?, u.digit c = false ∧ c ≠ '.' := by
  obtain ⟨a, b, rfl, ha, -⟩ := h.unit
  intro c hc
  have heq : a = c := Option.some.inj hc
  subst heq
  rcases ha with rfl | rfl
  · exact ⟨not_digit_of_ascii (by decide) (by decide), by decide⟩
  · exact ⟨not_digit_of_ascii (by decide) (by decide), by decide⟩

theorem IsRetryWait.after_whole {before after : Option Char} {wait : RetryWait} (h : IsRetryWait u before wait after)
    (rest : List Char) : ∀ c ∈ (wait.fraction ++ (wait.unit ++ rest)).head?, u.digit c = false := by
  rcases h.fraction with hnil | ⟨ds, hds, -⟩
  · rw [hnil]
    exact fun c hc => (h.unit.unit_head rest c hc).1
  · rw [hds]
    intro c hc
    have heq : '.' = c := Option.some.inj hc
    subst heq
    exact not_digit_of_ascii (by decide) (by decide)

theorem IsRetryWait.after_blanks {before after : Option Char} {wait : RetryWait} (h : IsRetryWait u before wait after)
    (rest : List Char) : ∀ c ∈ (wait.whole ++ rest).head?, isSpace c = false := by
  obtain ⟨hne, hdigits⟩ := h.whole
  intro c hc
  rw [List.head?_append_of_ne_nil _ hne] at hc
  exact u.digit_not_space c (hdigits c (List.mem_of_mem_head? hc))

theorem IsRetryWait.head? {before after : Option Char} {wait : RetryWait} (h : IsRetryWait u before wait after)
    (rest : List Char) : (wait.text ++ rest).head? = wait.text.head? := by
  apply List.head?_append_of_ne_nil
  simp [RetryWait.text, RetryWait.lead, h.blanks.1]

theorem retryWaitAt_eq_some {before : Option Char} {text : List Char} {wait : RetryWait} :
    retryWaitAt u before text = some wait ↔ ∃ rest, text = wait.text ++ rest ∧ IsRetryWait u before wait rest.head? := by
  constructor
  · intro h
    simp only [retryWaitAt, bind, Option.bind_eq_some_iff, Option.guard_eq_some', Prod.exists] at h
    obtain ⟨-, hstart, name, rest, hname, -, hblanks, -, hwhole, unit, after, hunit, -, hstop, hwait⟩ := h
    obtain ⟨htext, hname⟩ := takeLiteral_eq_some.mp hname
    obtain ⟨hafter, hunit⟩ := takeLiteral_eq_some.mp hunit
    obtain ⟨hsplit, hfraction⟩ := @takeFraction_sound u ((rest.dropWhile isSpace).dropWhile u.digit)
    cases hwait
    have hrest : rest = rest.takeWhile isSpace ++ ((rest.dropWhile isSpace).takeWhile u.digit ++
        ((takeFraction u ((rest.dropWhile isSpace).dropWhile u.digit)).1 ++ (unit ++ after))) := by
      rw [← hafter, ← hsplit, List.takeWhile_append_dropWhile, List.takeWhile_append_dropWhile]
    have htext' : text = RetryWait.text ⟨name, rest.takeWhile isSpace, (rest.dropWhile isSpace).takeWhile u.digit,
        (takeFraction u ((rest.dropWhile isSpace).dropWhile u.digit)).1, unit⟩ ++ after := by
      rw [htext]
      conv_lhs => rw [hrest]
      simp [RetryWait.text, RetryWait.lead, RetryWait.milliseconds]
    refine ⟨after, htext', ?_, hname, ⟨hblanks, fun c hc => List.mem_takeWhile_imp hc⟩,
      ⟨hwhole, fun c hc => List.mem_takeWhile_imp hc⟩, hfraction, hunit, hstop⟩
    rw [htext', List.head?_append_of_ne_nil] at hstart
    · exact hstart
    · simp [RetryWait.text, RetryWait.lead, hblanks]
  · rintro ⟨rest, rfl, h⟩
    have hname : takeLiteral retryLead (wait.text ++ rest) =
        some (wait.name, wait.blanks ++ (wait.whole ++ (wait.fraction ++ (wait.unit ++ rest)))) :=
      takeLiteral_eq_some.mpr ⟨by simp [RetryWait.text, RetryWait.lead, RetryWait.milliseconds], h.name⟩
    obtain ⟨htakeBlanks, hdropBlanks⟩ := takeWhile_run h.blanks.2 (h.after_blanks (wait.fraction ++ (wait.unit ++ rest)))
    obtain ⟨htakeWhole, hdropWhole⟩ := takeWhile_run h.whole.2 (h.after_whole rest)
    have hfraction := takeFraction_append (h.unit.unit_head rest) h.fraction
    have hunit : takeLiteral ['m', 's'] (wait.unit ++ rest) = some (wait.unit, rest) :=
      takeLiteral_eq_some.mpr ⟨rfl, h.unit⟩
    simp only [retryWaitAt, h.head? rest, h.start, hname, htakeBlanks, hdropBlanks, h.blanks.1, htakeWhole, hdropWhole,
      h.whole.1, hfraction, hunit, h.stop, guard, ne_eq, not_false_eq_true, if_true, Option.bind_eq_bind, Option.bind_some,
      Option.pure_def]

/-! ## Numbers -/

theorem digitsValue_append (ds es : List Char) :
    digitsValue u (ds ++ es) = digitsValue u ds * 10 ^ es.length + digitsValue u es := by
  have hloop : ∀ (es : List Char) (n : Nat), es.foldl (fun n c => n * 10 + (u.decimal c).getD 0) n =
      n * 10 ^ es.length + digitsValue u es := by
    intro es
    induction es with
    | nil => simp [digitsValue]
    | cons c es ih =>
      intro n
      rw [digitsValue, List.foldl_cons, List.foldl_cons, ih, ih, List.length_cons, Nat.pow_succ]
      ring
  rw [digitsValue, List.foldl_append, hloop]
  rfl

theorem digitsValue_lt (ds : List Char) : digitsValue u ds < 10 ^ ds.length := by
  induction ds using List.reverseRecOn with
  | nil => simp [digitsValue]
  | append_singleton ds c ih =>
    have hc : (u.decimal c).getD 0 < 10 := by
      cases h : u.decimal c with
      | none => simp
      | some n => exact u.decimal_lt c n h
    have hone : digitsValue u [c] = (u.decimal c).getD 0 := by simp [digitsValue]
    simp only [digitsValue_append, hone, List.length_append, List.length_singleton, pow_succ, pow_zero, one_mul]
    omega

end Tables

end Crewplane.Process
