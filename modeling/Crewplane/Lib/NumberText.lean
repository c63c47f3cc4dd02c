import Crewplane.Lib.Binary64
import Crewplane.Lib.Rfc8259
import Mathlib.Tactic.IntervalCases
/-
# Number tokens

The number token of Python's `json` by the groups of its pattern, read greedily off a text. An integer and a finite
binary64 number have tokens, which are read back to them (`toInt_ofInt`, `toBinary64_ofMagnitude`).
-/
namespace Crewplane.Lib

open Rfc8259

/-- The groups of `(-?(?:0|[1-9][0-9]*))(\.[0-9]+)?([eE][-+]?[0-9]+)?`, less `.` and `e`. -/
structure NumberText where
  negative : Bool
  int : List Char
  frac : List Char
  exp : Option (List Char × List Char)
deriving DecidableEq

namespace NumberText

structure Valid (t : NumberText) : Prop where
  int : IntPart t.int
  frac : Digits t.frac
  sign : ∀ e ∈ t.exp, e.1 = [] ∨ e.1 = ['-'] ∨ e.1 = ['+']
  exp : ∀ e ∈ t.exp, SomeDigits e.2

def fracChars (t : NumberText) : List Char := if t.frac = [] then [] else '.' :: t.frac

def expText (letter : Char) : Option (List Char × List Char) → List Char
  | none => []
  | some e => letter :: (e.1 ++ e.2)

def expChars (letter : Char) (t : NumberText) : List Char := expText letter t.exp

def minusChars (t : NumberText) : List Char := if t.negative then ['-'] else []

/-- The token, with `e` or `E` before its exponent. -/
def renderAs (letter : Char) (t : NumberText) : List Char := t.minusChars ++ t.int ++ t.fracChars ++ t.expChars letter

def render (t : NumberText) : List Char := t.renderAs 'e'

/-! ## Reading a token -/

def scanInt : List Char → Option (List Char × List Char)
  | [] => none
  | c :: s =>
    if c = '0' then some (['0'], s)
    else if isDigit c then some (c :: s.takeWhile isDigit, s.dropWhile isDigit) else none

def scanFrac (s : List Char) : List Char × List Char :=
  if s.head? = some '.' ∧ s.tail.takeWhile isDigit ≠ [] then (s.tail.takeWhile isDigit, s.tail.dropWhile isDigit) else ([], s)

def scanSign (s : List Char) : List Char × List Char :=
  if s.head? = some '-' then (['-'], s.tail) else if s.head? = some '+' then (['+'], s.tail) else ([], s)

def scanExp (s : List Char) : Option (List Char × List Char) × List Char :=
  if (s.head? = some 'e' ∨ s.head? = some 'E') ∧ (scanSign s.tail).2.takeWhile isDigit ≠ [] then
    (some ((scanSign s.tail).1, (scanSign s.tail).2.takeWhile isDigit), (scanSign s.tail).2.dropWhile isDigit)
  else (none, s)

/-- `_match_number`: the longest token at the front. -/
def scan (s : List Char) : Option (NumberText × List Char) :=
  let negative : Bool := s.head? = some '-'
  match scanInt (if negative then s.tail else s) with
  | none => none
  | some (int, t) => some (⟨negative, int, (scanFrac t).1, (scanExp (scanFrac t).2).1⟩, (scanExp (scanFrac t).2).2)

/-- A text that does not go on with a number. -/
def Stops (r : List Char) : Prop := ∀ c ∈ r.head?, isDigit c = false ∧ c ≠ '.' ∧ c ≠ 'e' ∧ c ≠ 'E'

theorem takeWhile_digits {ds r : List Char} (hds : Digits ds) (hr : ∀ c ∈ r.head?, isDigit c = false) :
    (ds ++ r).takeWhile isDigit = ds ∧ (ds ++ r).dropWhile isDigit = r := by
  rw [List.takeWhile_append_of_pos hds, List.dropWhile_append_of_pos hds]
  cases r with
  | nil => simp
  | cons c r => simp [hr c rfl]

theorem scanInt_append {w r : List Char} (hw : IntPart w) (hr : ∀ c ∈ r.head?, isDigit c = false) :
    scanInt (w ++ r) = some (w, r) := by
  rcases hw with rfl | ⟨c, ds, rfl, hc, hzero, hds⟩
  · rfl
  · obtain ⟨htake, hdrop⟩ := takeWhile_digits hds hr
    simp [scanInt, hzero, hc, htake, hdrop]

theorem scanExp_append {t : NumberText} (ht : t.Valid) {letter : Char} (hl : letter = 'e' ∨ letter = 'E') {r : List Char}
    (hr : Stops r) : scanExp (t.expChars letter ++ r) = (t.exp, r) := by
  unfold expChars expText scanExp
  cases hexp : t.exp with
  | none =>
    have hhead : ¬ (r.head? = some 'e' ∨ r.head? = some 'E') := by
      rintro (h | h)
      · exact (hr _ h).2.2.1 rfl
      · exact (hr _ h).2.2.2 rfl
    simp [hhead]
  | some e =>
    obtain ⟨sign, ds⟩ := e
    obtain ⟨hne, hds⟩ := ht.exp _ hexp
    obtain ⟨htake, hdrop⟩ := takeWhile_digits hds fun c hc => (hr c hc).1
    have hsign : scanSign (sign ++ (ds ++ r)) = (sign, ds ++ r) := by
      obtain ⟨d, ds', rfl⟩ := List.exists_cons_of_ne_nil hne
      have hd : isDigit d := hds d List.mem_cons_self
      rcases ht.sign _ hexp with h | h | h
      · have hminus : d ≠ '-' := by rintro rfl; revert hd; decide
        have hplus : d ≠ '+' := by rintro rfl; revert hd; decide
        simp only at h
        simp [scanSign, h, hminus, hplus]
      · simp only at h
        simp [scanSign, h]
      · simp only at h
        simp [scanSign, h]
    simp only at hne htake hdrop
    simp [hsign, htake, hdrop, hne, hl]

theorem scanFrac_append {t : NumberText} (ht : t.Valid) {letter : Char} (hl : letter = 'e' ∨ letter = 'E') {r : List Char}
    (hr : Stops r) : scanFrac (t.fracChars ++ (t.expChars letter ++ r)) = (t.frac, t.expChars letter ++ r) := by
  have hnext : ∀ c ∈ (t.expChars letter ++ r).head?, isDigit c = false ∧ c ≠ '.' := by
    intro c hc
    unfold expChars expText at hc
    cases hexp : t.exp with
    | none =>
      rw [hexp] at hc
      exact ⟨(hr c hc).1, (hr c hc).2.1⟩
    | some e =>
      rw [hexp] at hc
      obtain rfl : letter = c := by simpa using hc
      rcases hl with rfl | rfl <;> exact ⟨rfl, by decide⟩
  unfold fracChars scanFrac
  split
  next hnone =>
    have hhead : (t.expChars letter ++ r).head? ≠ some '.' := fun h => (hnext _ h).2 rfl
    rw [List.nil_append, if_neg fun h => hhead h.1, hnone]
  next hsome =>
    obtain ⟨htake, hdrop⟩ := takeWhile_digits ht.frac fun c hc => (hnext c hc).1
    simp [htake, hdrop, hsome]

/-- A token is read back, whatever follows that is no part of it. -/
theorem scan_renderAs {t : NumberText} (ht : t.Valid) {letter : Char} (hl : letter = 'e' ∨ letter = 'E') {r : List Char}
    (hr : Stops r) : scan (t.renderAs letter ++ r) = some (t, r) := by
  have hnext : ∀ c ∈ (t.fracChars ++ (t.expChars letter ++ r)).head?, isDigit c = false := by
    intro c hc
    unfold fracChars expChars expText at hc
    by_cases hfrac : t.frac = []
    · cases hexp : t.exp with
      | none =>
        simp only [hfrac, hexp, if_true, List.nil_append] at hc
        exact (hr c hc).1
      | some e =>
        simp only [hfrac, hexp, if_true, List.nil_append, List.cons_append, List.head?_cons, Option.mem_some_iff] at hc
        subst hc
        rcases hl with rfl | rfl <;> rfl
    · simp only [hfrac, if_false, List.cons_append, List.head?_cons, Option.mem_some_iff] at hc
      exact hc ▸ rfl
  have hint := scanInt_append ht.int hnext
  have hdigit : ∃ c s, t.int = c :: s ∧ c ≠ '-' := by
    rcases ht.int with h | ⟨c, ds, h, hc, -⟩
    · exact ⟨_, _, h, by decide⟩
    · exact ⟨c, ds, h, by rintro rfl; revert hc; decide⟩
  obtain ⟨c, s, hcs, hminus⟩ := hdigit
  have hread : (if (t.renderAs letter ++ r).head? = some '-' then (t.renderAs letter ++ r).tail else t.renderAs letter ++ r) =
      t.int ++ (t.fracChars ++ (t.expChars letter ++ r)) ∧ decide ((t.renderAs letter ++ r).head? = some '-') = t.negative := by
    unfold renderAs minusChars
    cases t.negative <;> simp [hcs, hminus]
  unfold scan
  simp only [hread.2]
  have hstart : (if t.negative = true then (t.renderAs letter ++ r).tail else t.renderAs letter ++ r) =
      t.int ++ (t.fracChars ++ (t.expChars letter ++ r)) := by
    rw [← hread.1, ← hread.2]
    simp
  rw [hstart, hint]
  simp only [scanFrac_append ht hl hr, scanExp_append ht hl hr]

/-! ## A token is a number of the grammar -/

theorem digits_takeWhile (s : List Char) : Digits (s.takeWhile isDigit) := fun _ h => List.mem_takeWhile_imp h

theorem scanInt_sound {s int r : List Char} (h : scanInt s = some (int, r)) : s = int ++ r ∧ IntPart int := by
  cases s with
  | nil => cases h
  | cons c s =>
    simp only [scanInt] at h
    split at h
    next hzero =>
      cases h
      exact ⟨by rw [hzero]; rfl, .inl rfl⟩
    next hzero =>
      split at h
      next hdigit =>
        cases h
        exact ⟨by simp, .inr ⟨c, _, rfl, hdigit, hzero, digits_takeWhile s⟩⟩
      · cases h

theorem scanFrac_sound (s : List Char) :
    s = (if (scanFrac s).1 = [] then [] else '.' :: (scanFrac s).1) ++ (scanFrac s).2 ∧ Digits (scanFrac s).1 := by
  unfold scanFrac
  split
  next h =>
    obtain ⟨hhead, hne⟩ := h
    obtain ⟨t, rfl⟩ := List.head?_eq_some_iff.mp hhead
    rw [List.tail_cons] at hne ⊢
    exact ⟨by rw [if_neg hne, List.cons_append, List.takeWhile_append_dropWhile], digits_takeWhile t⟩
  · exact ⟨by simp, fun c hc => absurd hc List.not_mem_nil⟩

theorem scanSign_sound (s : List Char) : s = (scanSign s).1 ++ (scanSign s).2 ∧
    ((scanSign s).1 = [] ∨ (scanSign s).1 = ['-'] ∨ (scanSign s).1 = ['+']) := by
  unfold scanSign
  split
  next h =>
    obtain ⟨t, rfl⟩ := List.head?_eq_some_iff.mp h
    simp
  · split
    next h =>
      obtain ⟨t, rfl⟩ := List.head?_eq_some_iff.mp h
      simp
    · simp

theorem scanExp_sound (s : List Char) : ∃ letter, (letter = 'e' ∨ letter = 'E') ∧
    s = expText letter (scanExp s).1 ++ (scanExp s).2 ∧
    (∀ e ∈ (scanExp s).1, e.1 = [] ∨ e.1 = ['-'] ∨ e.1 = ['+']) ∧ ∀ e ∈ (scanExp s).1, SomeDigits e.2 := by
  unfold scanExp
  split
  next h =>
    obtain ⟨hhead, hne⟩ := h
    obtain ⟨e, t, rfl, he⟩ : ∃ e t, s = e :: t ∧ (e = 'e' ∨ e = 'E') := by
      rcases hhead with hhead | hhead
      · obtain ⟨t, rfl⟩ := List.head?_eq_some_iff.mp hhead
        exact ⟨_, t, rfl, .inl rfl⟩
      · obtain ⟨t, rfl⟩ := List.head?_eq_some_iff.mp hhead
        exact ⟨_, t, rfl, .inr rfl⟩
    rw [List.tail_cons] at hne ⊢
    obtain ⟨hsplit, hsign⟩ := scanSign_sound t
    refine ⟨e, he, ?_, ?_, ?_⟩
    · simp only [expText, List.cons_append, List.append_assoc, List.takeWhile_append_dropWhile]
      rw [← hsplit]
    · intro e he
      exact Option.some.inj he ▸ hsign
    · intro e he
      exact Option.some.inj he ▸ ⟨hne, digits_takeWhile _⟩
  · exact ⟨'e', .inl rfl, by simp [expText], by simp, by simp⟩

/-- A token that is read stands at the front of the text. -/
theorem scan_sound {s r : List Char} {t : NumberText} (h : scan s = some (t, r)) :
    t.Valid ∧ ∃ letter, (letter = 'e' ∨ letter = 'E') ∧ s = t.renderAs letter ++ r := by
  unfold scan at h
  simp only at h
  split at h
  · cases h
  next int u hint =>
    cases h
    obtain ⟨hsplit, hvalid⟩ := scanInt_sound hint
    obtain ⟨hfrac, hdigits⟩ := scanFrac_sound u
    obtain ⟨letter, hletter, hexp, hsign, hsome⟩ := scanExp_sound (scanFrac u).2
    refine ⟨⟨hvalid, hdigits, hsign, hsome⟩, letter, hletter, ?_⟩
    unfold renderAs minusChars fracChars expChars
    simp only [List.append_assoc]
    rw [← hexp, ← hfrac, ← hsplit]
    by_cases hminus : s.head? = some '-'
    · obtain ⟨t, rfl⟩ := List.head?_eq_some_iff.mp hminus
      simp
    · simp [hminus]

theorem Valid.number {t : NumberText} (ht : t.Valid) {letter : Char} (hl : letter = 'e' ∨ letter = 'E') :
    Number (t.renderAs letter) := by
  refine ⟨t.minusChars, t.int, t.fracChars, t.expChars letter, rfl, ?_, ht.int, ?_, ?_⟩
  · unfold minusChars
    cases t.negative <;> simp
  · unfold fracChars
    split
    · exact .inl rfl
    next hne => exact .inr ⟨_, rfl, hne, ht.frac⟩
  · unfold expChars expText
    cases hexp : t.exp with
    | none => exact .inl rfl
    | some e => exact .inr ⟨letter, _, rfl, hl, e.1, e.2, rfl, ht.sign e hexp, ht.exp e hexp⟩

theorem renderAs_ne_nil {t : NumberText} (ht : t.Valid) (letter : Char) : t.renderAs letter ≠ [] := by
  have hint : t.int ≠ [] := by
    rcases ht.int with h | ⟨c, ds, h, -⟩ <;> simp [h]
  simp [renderAs, hint]

/-! ## What a token stands for -/

def isFloat (t : NumberText) : Bool := t.frac ≠ [] || t.exp.isSome

def exponent (t : NumberText) : Int :=
  match t.exp with
  | none => 0
  | some e => if e.1 = ['-'] then -(Nat.ofDigitChars 10 e.2 0 : Int) else Nat.ofDigitChars 10 e.2 0

def decimal (t : NumberText) : Decimal := ⟨Nat.ofDigitChars 10 (t.int ++ t.frac) 0, t.exponent - t.frac.length⟩

def toInt (t : NumberText) : Int :=
  if t.negative then -(Nat.ofDigitChars 10 t.int 0 : Int) else Nat.ofDigitChars 10 t.int 0

/-- `float(text)`. -/
def toBinary64 (t : NumberText) : Binary64 :=
  match roundToNearest t.decimal.value with
  | some m => .finite t.negative m
  | none => .infinite t.negative

/-! ## Tokens of numbers -/

/-- `repr` of an integer. -/
def ofInt (n : Int) : NumberText := ⟨n < 0, Nat.toDigits 10 n.natAbs, [], none⟩

/-- The decimal without its last zeros. -/
def dropZeros : Nat → Decimal → Decimal
  | 0, d => d
  | fuel + 1, d => if d.digits ≠ 0 ∧ d.digits % 10 = 0 then dropZeros fuel ⟨d.digits / 10, d.exponent + 1⟩ else d

/-- `repr` with the digits and the place of the point, in the layout that suits the exponent. -/
def ofDecimal (negative : Bool) (d : Decimal) : NumberText :=
  let digits := Nat.toDigits 10 d.digits
  let point : Int := digits.length + d.exponent
  if -4 < point ∧ point ≤ 16 then
    if point ≤ 0 then ⟨negative, ['0'], List.replicate (-point).toNat '0' ++ digits, none⟩
    else if digits.length ≤ point.toNat then
      ⟨negative, digits ++ List.replicate (point.toNat - digits.length) '0', ['0'], none⟩
    else ⟨negative, digits.take point.toNat, digits.drop point.toNat, none⟩
  else
    let power := Nat.toDigits 10 (point - 1).natAbs
    ⟨negative, digits.take 1, digits.drop 1,
      some (if point - 1 < 0 then ['-'] else ['+'], List.replicate (2 - power.length) '0' ++ power)⟩

/-- `float.__repr__` of a finite number; a decimal of 17 digits has no more zeros than that. -/
def ofMagnitude (negative : Bool) (m : Magnitude) : NumberText :=
  if m.mantissa = 0 then ⟨negative, ['0'], ['0'], none⟩ else ofDecimal negative (dropZeros 17 (shortestDecimal m))

/-! ## The digits of a number -/

theorem digits_toDigits (n : Nat) : Digits (Nat.toDigits 10 n) := by
  intro c hc
  have h := Nat.isDigit_of_mem_toDigits (by decide) (by decide) hc
  simpa [isDigit, Char.isDigit, Char.le_def] using h

theorem Digits.append {v w : List Char} (hv : Digits v) (hw : Digits w) : Digits (v ++ w) := by
  intro c hc
  rcases List.mem_append.mp hc with h | h
  · exact hv c h
  · exact hw c h

theorem digits_zeros (k : Nat) : Digits (List.replicate k '0') := by
  intro c hc
  rw [List.eq_of_mem_replicate hc]
  rfl

theorem toDigits_head {n : Nat} (hn : n ≠ 0) : ∃ c ds, Nat.toDigits 10 n = c :: ds ∧ c ≠ '0' := by
  induction n using Nat.strong_induction_on with
  | _ n ih =>
    by_cases hsmall : n < 10
    · refine ⟨n.digitChar, [], Nat.toDigits_of_lt_base hsmall, ?_⟩
      interval_cases n <;> first | exact absurd rfl hn | decide
    · obtain ⟨c, ds, hds, hc⟩ := ih (n / 10) (by omega) (by omega)
      exact ⟨c, ds ++ [(n % 10).digitChar], by rw [Nat.toDigits_of_base_le (by decide) (by omega), hds]; rfl, hc⟩

theorem intPart_toDigits (n : Nat) : IntPart (Nat.toDigits 10 n) := by
  by_cases hn : n = 0
  · subst hn
    exact .inl (Nat.toDigits_zero 10)
  · obtain ⟨c, ds, hds, hc⟩ := toDigits_head hn
    have hdigits := digits_toDigits n
    rw [hds] at hdigits ⊢
    exact .inr ⟨c, ds, rfl, hdigits c List.mem_cons_self, hc, fun d hd => hdigits d (List.mem_cons_of_mem c hd)⟩

/-! ## Integers are read back -/

theorem valid_ofInt (n : Int) : (ofInt n).Valid :=
  ⟨intPart_toDigits _, fun c hc => absurd hc List.not_mem_nil, by simp [ofInt], by simp [ofInt]⟩

theorem isFloat_ofInt (n : Int) : (ofInt n).isFloat = false := rfl

theorem toInt_ofInt (n : Int) : (ofInt n).toInt = n := by
  simp only [toInt, ofInt, Nat.ofDigitChars_ten_toDigits]
  by_cases hn : n < 0
  · simp only [hn, decide_true, if_true]
    omega
  · simp only [hn, decide_false, Bool.false_eq_true, if_false]
    omega

/-! ## Finite numbers are read back -/

theorem value_dropZeros (fuel : Nat) (d : Decimal) : (dropZeros fuel d).value = d.value := by
  induction fuel generalizing d with
  | zero => rfl
  | succ fuel ih =>
    rw [dropZeros]
    split
    next h =>
      rw [ih]
      have hdigits : (d.digits : ℚ) = (d.digits / 10 : Nat) * 10 := by
        have := Nat.div_add_mod d.digits 10
        rw [h.2] at this
        exact_mod_cast (by omega : d.digits = d.digits / 10 * 10)
      simp only [Decimal.value]
      rw [hdigits, zpow_add_one₀ (by norm_num)]
      ring
    · rfl

section OfDecimal

variable (negative : Bool) (d : Decimal)

/-- The layout does not change the value. -/
theorem value_ofDecimal : (ofDecimal negative d).decimal.value = d.value := by
  have hdigits : Nat.ofDigitChars 10 (Nat.toDigits 10 d.digits) 0 = d.digits := Nat.ofDigitChars_ten_toDigits
  have hpos : 0 < (Nat.toDigits 10 d.digits).length := Nat.length_toDigits_pos
  generalize hds : Nat.toDigits 10 d.digits = ds at *
  unfold ofDecimal
  simp only [hds]
  split
  · split
    next hpoint =>
      have hexp : (0 : Int) - (List.replicate (-(ds.length + d.exponent)).toNat '0' ++ ds).length = d.exponent := by
        simp only [List.length_append, List.length_replicate]
        omega
      simp only [decimal, exponent, Decimal.value, hexp, List.cons_append, List.nil_append, Nat.ofDigitChars_cons,
        Nat.ofDigitChars_append, Nat.ofDigitChars_replicate_zero]
      simp [hdigits]
    next hpoint =>
      split
      next hlen =>
        obtain ⟨k, hk⟩ : ∃ k : Nat, d.exponent = k := ⟨d.exponent.toNat, by omega⟩
        have hzeros : (ds.length + d.exponent).toNat - ds.length = k := by omega
        simp only [decimal, exponent, Decimal.value, hzeros, Nat.ofDigitChars_append, Nat.ofDigitChars_replicate_zero, hdigits]
        simp [Nat.ofDigitChars_cons, hk]
        field_simp
      next hlen =>
        have hexp : (0 : Int) - (ds.drop (ds.length + d.exponent).toNat).length = d.exponent := by
          rw [List.length_drop]
          omega
        simp only [decimal, exponent, Decimal.value, hexp, List.take_append_drop, hdigits]
  next hpoint =>
    have hpower : Nat.ofDigitChars 10 (List.replicate (2 - (Nat.toDigits 10 (ds.length + d.exponent - 1).natAbs).length) '0' ++
        Nat.toDigits 10 (ds.length + d.exponent - 1).natAbs) 0 = (ds.length + d.exponent - 1).natAbs := by
      simp [Nat.ofDigitChars_append]
    have hexp : (ofDecimal negative d).exponent - (ds.drop 1).length = d.exponent := by
      unfold ofDecimal
      simp only [hds]
      rw [if_neg hpoint]
      simp only [exponent, hpower, List.length_drop]
      by_cases hsign : (ds.length : Int) + d.exponent - 1 < 0
      · simp only [hsign, if_true]
        omega
      · simp only [hsign, if_false]
        simp only [List.cons.injEq, Char.reduceEq, and_true, if_false]
        omega
    unfold ofDecimal at hexp
    simp only [hds] at hexp
    rw [if_neg hpoint] at hexp
    simp only [decimal, Decimal.value, List.take_append_drop, hdigits]
    rw [hexp]

variable {d}

theorem valid_ofDecimal (hd : d.digits ≠ 0) : (ofDecimal negative d).Valid := by
  obtain ⟨c, cs, hcs, hc⟩ := toDigits_head hd
  have hdigits := digits_toDigits d.digits
  rw [hcs] at hdigits
  have hhead : isDigit c := hdigits c List.mem_cons_self
  have htail : Digits cs := fun x hx => hdigits x (List.mem_cons_of_mem c hx)
  unfold ofDecimal
  simp only [hcs]
  split
  · split
    · exact ⟨.inl rfl, Digits.append (digits_zeros _) hdigits, by simp, by simp⟩
    next hpoint =>
      split
      · exact ⟨.inr ⟨c, _, rfl, hhead, hc, Digits.append htail (digits_zeros _)⟩, digits_zeros 1, by simp, by simp⟩
      · obtain ⟨k, hk⟩ : ∃ k, (((c :: cs).length : Int) + d.exponent).toNat = k + 1 := ⟨_, (by omega :
          (((c :: cs).length : Int) + d.exponent).toNat = ((((c :: cs).length : Int) + d.exponent).toNat - 1) + 1)⟩
        rw [hk]
        refine ⟨.inr ⟨c, cs.take k, rfl, hhead, hc, fun x hx => htail x (List.mem_of_mem_take hx)⟩,
          fun x hx => htail x (List.mem_of_mem_drop hx), by simp, by simp⟩
  · refine ⟨.inr ⟨c, [], rfl, hhead, hc, by simp [Digits]⟩, fun x hx => htail x hx, ?_, ?_⟩
    · intro e he
      cases he
      split <;> simp
    · intro e he
      cases he
      exact ⟨by simp, Digits.append (digits_zeros _) (digits_toDigits _)⟩

theorem negative_ofDecimal : (ofDecimal negative d).negative = negative := by
  unfold ofDecimal
  simp only
  split
  · split
    · rfl
    · split <;> rfl
  · rfl

theorem isFloat_ofDecimal : (ofDecimal negative d).isFloat = true := by
  have hpos : 0 < (Nat.toDigits 10 d.digits).length := Nat.length_toDigits_pos
  unfold ofDecimal isFloat
  simp only
  split
  · split
    next hpoint => simp [List.ne_nil_of_length_pos hpos]
    next hpoint =>
      split
      · simp
      next hlen =>
        have hne : List.drop (((Nat.toDigits 10 d.digits).length : Int) + d.exponent).toNat (Nat.toDigits 10 d.digits) ≠ [] := by
          rw [ne_eq, List.drop_eq_nil_iff]
          omega
        simp [hne]
  · simp

end OfDecimal

theorem round_zero : roundToNearest 0 = some ⟨0, -1074, by decide⟩ := by
  have hzero : (⟨0, -1074, by decide⟩ : Magnitude).value = 0 := by simp [Magnitude.value]
  rw [← hzero]
  exact round_value _

theorem digits_shortestDecimal {m : Magnitude} (hm : m.mantissa ≠ 0) : (dropZeros 17 (shortestDecimal m)).digits ≠ 0 := by
  intro hdigits
  have hvalue : (shortestDecimal m).value = 0 := by
    rw [← value_dropZeros 17]
    simp [Decimal.value, hdigits]
  have hround := round_shortestDecimal m
  rw [hvalue, round_zero, Option.some.injEq] at hround
  exact hm (hround ▸ rfl)

theorem valid_ofMagnitude (negative : Bool) (m : Magnitude) : (ofMagnitude negative m).Valid := by
  unfold ofMagnitude
  split
  · exact ⟨.inl rfl, digits_zeros 1, by simp, by simp⟩
  next hm => exact valid_ofDecimal negative (digits_shortestDecimal hm)

theorem isFloat_ofMagnitude (negative : Bool) (m : Magnitude) : (ofMagnitude negative m).isFloat = true := by
  unfold ofMagnitude
  split
  · rfl
  · exact isFloat_ofDecimal negative

/-- `float(repr(x)) == x`. -/
theorem toBinary64_ofMagnitude (negative : Bool) (m : Magnitude) :
    (ofMagnitude negative m).toBinary64 = .finite negative m := by
  have hnegative : (ofMagnitude negative m).negative = negative := by
    unfold ofMagnitude
    split
    · rfl
    · exact negative_ofDecimal negative
  have hround : roundToNearest (ofMagnitude negative m).decimal.value = some m := by
    unfold ofMagnitude
    split
    next hm =>
      have hzero : m.value = 0 := by simp [Magnitude.value, hm]
      have htext : Decimal.value (decimal ⟨negative, ['0'], ['0'], none⟩) = m.value := by
        rw [hzero]
        simp [decimal, Decimal.value, exponent, Nat.ofDigitChars_cons]
      rw [htext]
      exact round_value m
    · rw [value_ofDecimal, value_dropZeros, round_shortestDecimal]
  unfold toBinary64
  rw [hround, hnegative]

end NumberText

end Crewplane.Lib
