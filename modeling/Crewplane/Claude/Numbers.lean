import Crewplane.Claude.Parser
import Mathlib.Tactic.IntervalCases
/-
# The number automaton accepts the numbers of the grammar (json_number.py)

One lemma for each state says which texts lead from it to a terminal state, from the last state of the
automaton back to the first.
-/
namespace Crewplane.Claude

open Lib Lib.Rfc8259

/-! ## Moves -/

theorem mem_digits {c : Char} : c ∈ digits ↔ isDigit c := by
  constructor
  · intro h
    simp only [digits, positiveDigits, List.mem_cons, List.not_mem_nil, or_false] at h
    rcases h with rfl | rfl | rfl | rfl | rfl | rfl | rfl | rfl | rfl | rfl <;> decide
  · intro h
    simp only [isDigit, Bool.and_eq_true, decide_eq_true_eq, Char.le_def, UInt32.le_iff_toNat_le] at h
    have hc : c = Char.ofNat c.toNat := (Char.ofNat_toNat c).symm
    have hlow : 48 ≤ c.toNat := h.1
    have hhigh : c.toNat ≤ 57 := h.2
    generalize c.toNat = n at hc hlow hhigh
    subst hc
    interval_cases n <;> decide

theorem mem_positiveDigits {c : Char} : c ∈ positiveDigits ↔ isDigit c ∧ c ≠ '0' := by
  rw [← mem_digits, digits, List.mem_cons]
  constructor
  · intro h
    refine ⟨.inr h, ?_⟩
    rintro rfl
    revert h
    decide
  · rintro ⟨h | h, h0⟩
    · exact absurd h h0
    · exact h

theorem classifyChar_eq {c : Char} {t : JsonNumberToken} :
    classifyChar c = some t ↔ match t with
      | .zero => c = '0'
      | .digit => isDigit c ∧ c ≠ '0'
      | .decimalPoint => c = '.'
      | .exponentMarker => c = 'e' ∨ c = 'E'
      | .plus => c = '+'
      | .minus => c = '-' := by
  simp only [classifyChar, mem_positiveDigits]
  by_cases h0 : c = '0'
  · subst h0
    cases t <;> decide
  · by_cases hd : isDigit c = true
    · have hne : ∀ b, isDigit b = false → c ≠ b := by
        rintro b hb rfl
        exact absurd hd (by simp [hb])
      cases t <;> simp [h0, hd, hne '.' rfl, hne 'e' rfl, hne 'E' rfl, hne '+' rfl, hne '-' rfl]
    · rw [if_neg h0, if_neg fun h => hd h.1]
      unfold tokens
      split <;> cases t <;> simp_all

/-- A move of the automaton: a digit in a repeating state, or a transition on what the character is. -/
theorem advanceJsonNumber_eq {q q' : JsonNumberState} {c : Char} :
    advanceJsonNumber q c = some q' ↔ (q ∈ repeatingStates ∧ isDigit c ∧ q' = q) ∨
      ∃ t, classifyChar c = some t ∧ transitions q t = some q' := by
  simp only [advanceJsonNumber, mem_digits]
  split
  next h =>
    -- a repeating state has no transition on a digit
    have hnone : ∀ t, classifyChar c = some t → transitions q t ≠ some q' := by
      intro t ht
      have hq := h.1
      simp only [repeatingStates, List.mem_cons, List.not_mem_nil, or_false] at hq
      rw [classifyChar_eq] at ht
      have hmarker : ¬ (c = 'e' ∨ c = 'E') := by
        rintro (rfl | rfl) <;> exact absurd h.2 (by decide)
      rcases hq with rfl | rfl | rfl <;> cases t <;> simp_all [transitions, isDigit]
    simp only [h.1, h.2, true_and, Option.some.injEq]
    constructor
    · rintro rfl
      exact .inl rfl
    · rintro (rfl | ⟨t, ht, hq⟩)
      · rfl
      · exact absurd hq (hnone t ht)
  next h =>
    rw [← and_assoc, Option.bind_eq_some_iff]
    simp [h]

theorem JsonNumberToken.exists_iff {p : JsonNumberToken → Prop} :
    (∃ t, p t) ↔ p .zero ∨ p .digit ∨ p .decimalPoint ∨ p .exponentMarker ∨ p .plus ∨ p .minus := by
  constructor
  · rintro ⟨t, ht⟩
    cases t <;> simp [ht]
  · rintro (h | h | h | h | h | h) <;> exact ⟨_, h⟩

/-! ## The language of each state -/

section

variable {c : Char} {q : JsonNumberState} {w : List Char}

/-- `w` takes the automaton from `q` to a terminal state. -/
def Accepts (q : JsonNumberState) (w : List Char) : Prop :=
  ∃ q' ∈ jsonNumberTerminalStates, w.foldlM advanceJsonNumber q = some q'

theorem accepts_nil : Accepts q [] ↔ q ∈ jsonNumberTerminalStates := by
  simp [Accepts]

theorem accepts_cons : Accepts q (c :: w) ↔ (q ∈ repeatingStates ∧ isDigit c ∧ Accepts q w) ∨
    ∃ t, classifyChar c = some t ∧ ∃ q', transitions q t = some q' ∧ Accepts q' w := by
  have h : Accepts q (c :: w) ↔ ∃ q', advanceJsonNumber q c = some q' ∧ Accepts q' w := by
    simp only [Accepts, List.foldlM_cons, Option.bind_eq_bind, Option.bind_eq_some_iff]
    constructor
    · rintro ⟨r, hr, q', hq, hw⟩
      exact ⟨q', hq, r, hr, hw⟩
    · rintro ⟨q', hq, r, hr, hw⟩
      exact ⟨r, hr, q', hq, hw⟩
  rw [h]
  simp only [advanceJsonNumber_eq]
  constructor
  · rintro ⟨q', ⟨hq, hd, rfl⟩ | ⟨t, ht, hq⟩, hw⟩
    · exact .inl ⟨hq, hd, hw⟩
    · exact .inr ⟨t, ht, q', hq, hw⟩
  · rintro (⟨hq, hd, hw⟩ | ⟨t, ht, q', hq, hw⟩)
    · exact ⟨q, .inl ⟨hq, hd, rfl⟩, hw⟩
    · exact ⟨q', .inr ⟨t, ht, hq⟩, hw⟩

/-- The same, token by token. -/
theorem accepts_step : Accepts q (c :: w) ↔ (q ∈ repeatingStates ∧ isDigit c ∧ Accepts q w) ∨
    (c = '0' ∧ ∃ q', transitions q .zero = some q' ∧ Accepts q' w) ∨
    ((isDigit c ∧ c ≠ '0') ∧ ∃ q', transitions q .digit = some q' ∧ Accepts q' w) ∨
    (c = '.' ∧ ∃ q', transitions q .decimalPoint = some q' ∧ Accepts q' w) ∨
    ((c = 'e' ∨ c = 'E') ∧ ∃ q', transitions q .exponentMarker = some q' ∧ Accepts q' w) ∨
    (c = '+' ∧ ∃ q', transitions q .plus = some q' ∧ Accepts q' w) ∨
    (c = '-' ∧ ∃ q', transitions q .minus = some q' ∧ Accepts q' w) := by
  rw [accepts_cons, JsonNumberToken.exists_iff]
  simp only [classifyChar_eq]

/-- A state that repeats on digits and otherwise accepts `R`. -/
theorem accepts_repeating {R : List Char → Prop} (hnil : Accepts q [] ↔ R [])
    (hcons : ∀ c w, Accepts q (c :: w) ↔ isDigit c ∧ Accepts q w ∨ R (c :: w)) :
    Accepts q w ↔ ∃ ds r, w = ds ++ r ∧ Digits ds ∧ R r := by
  induction w with
  | nil =>
    rw [hnil]
    constructor
    · intro h
      exact ⟨[], [], rfl, by simp [Digits], h⟩
    · rintro ⟨ds, r, hw, -, hr⟩
      obtain ⟨rfl, rfl⟩ := List.append_eq_nil_iff.mp hw.symm
      exact hr
  | cons c w ih =>
    rw [hcons, ih]
    constructor
    · rintro (⟨hc, ds, r, rfl, hds, hr⟩ | hr)
      · exact ⟨c :: ds, r, rfl, by simpa [Digits, hc] using hds, hr⟩
      · exact ⟨[], c :: w, rfl, by simp [Digits], hr⟩
    · rintro ⟨ds, r, hw, hds, hr⟩
      rcases ds with - | ⟨d, ds⟩
      · exact .inr (hw ▸ hr)
      · obtain ⟨rfl, rfl⟩ := List.cons_eq_cons.mp hw
        exact .inl ⟨hds c List.mem_cons_self, ds, r, rfl, fun x hx => hds x (List.mem_cons_of_mem c hx), hr⟩

theorem digit_cases {p : Prop} : (c = '0' ∧ p ∨ (isDigit c ∧ ¬ c = '0') ∧ p) ↔ isDigit c ∧ p := by
  by_cases h0 : c = '0'
  · subst h0
    simp [isDigit]
  · simp [h0]

theorem accepts_exponent : Accepts .exponent w ↔ Digits w := by
  induction w with
  | nil => simp [accepts_nil, jsonNumberTerminalStates, Digits]
  | cons c w ih => simp [accepts_step, repeatingStates, transitions, ih, Digits]

theorem someDigits_cons : SomeDigits (c :: w) ↔ isDigit c ∧ Digits w := by
  simp [SomeDigits, Digits]

theorem accepts_exponentSign : Accepts .exponentSign w ↔ SomeDigits w := by
  cases w with
  | nil => simp [accepts_nil, jsonNumberTerminalStates, SomeDigits]
  | cons c w =>
    simp [accepts_step, repeatingStates, transitions, accepts_exponent,
      digit_cases, someDigits_cons]

theorem exponent_cons : Exponent (c :: w) ↔ (isDigit c ∧ Digits w) ∨ ((c = '+' ∨ c = '-') ∧ SomeDigits w) := by
  constructor
  · rintro ⟨sign, ds, hw, rfl | rfl | rfl, hds⟩
    · exact .inl (someDigits_cons.mp (hw.trans (List.nil_append ds) ▸ hds))
    · obtain ⟨rfl, rfl⟩ := List.cons_eq_cons.mp hw
      exact .inr ⟨.inr rfl, hds⟩
    · obtain ⟨rfl, rfl⟩ := List.cons_eq_cons.mp hw
      exact .inr ⟨.inl rfl, hds⟩
  · rintro (h | ⟨rfl | rfl, h⟩)
    · exact ⟨[], c :: w, rfl, .inl rfl, someDigits_cons.mpr h⟩
    · exact ⟨['+'], w, rfl, .inr (.inr rfl), h⟩
    · exact ⟨['-'], w, rfl, .inr (.inl rfl), h⟩

theorem accepts_exponentStart : Accepts .exponentStart w ↔ Exponent w := by
  cases w with
  | nil => simp [accepts_nil, jsonNumberTerminalStates, Exponent, SomeDigits]
  | cons c w =>
    simp [accepts_step, repeatingStates, transitions, accepts_exponent,
      accepts_exponentSign, exponent_cons, ← digit_cases (p := Digits w)]
    tauto

theorem optExp_nil : OptExp [] := .inl rfl

theorem optExp_cons : OptExp (c :: w) ↔ (c = 'e' ∨ c = 'E') ∧ Exponent w := by
  simp only [OptExp, List.cons_ne_nil, false_or, List.cons.injEq]
  constructor
  · rintro ⟨_, _, ⟨rfl, rfl⟩, he, hu⟩
    exact ⟨he, hu⟩
  · rintro ⟨he, hu⟩
    exact ⟨c, w, ⟨rfl, rfl⟩, he, hu⟩

theorem accepts_fraction : Accepts .fraction w ↔ ∃ ds e, w = ds ++ e ∧ Digits ds ∧ OptExp e := by
  refine accepts_repeating (by simp [accepts_nil, jsonNumberTerminalStates, optExp_nil]) fun c w => ?_
  simp [accepts_step, repeatingStates, transitions, accepts_exponentStart,
    optExp_cons]

theorem someDigits_append {R : List Char → Prop} : (∃ ds e, c :: w = ds ++ e ∧ SomeDigits ds ∧ R e) ↔
    isDigit c ∧ ∃ ds e, w = ds ++ e ∧ Digits ds ∧ R e := by
  constructor
  · rintro ⟨ds, e, hw, hds, he⟩
    rcases ds with - | ⟨d, ds⟩
    · exact absurd rfl hds.1
    · obtain ⟨rfl, rfl⟩ := List.cons_eq_cons.mp hw
      obtain ⟨hc, hds⟩ := someDigits_cons.mp hds
      exact ⟨hc, ds, e, rfl, hds, he⟩
  · rintro ⟨hc, ds, e, rfl, hds, he⟩
    exact ⟨c :: ds, e, rfl, someDigits_cons.mpr ⟨hc, hds⟩, he⟩

theorem accepts_fractionStart : Accepts .fractionStart w ↔ ∃ ds e, w = ds ++ e ∧ SomeDigits ds ∧ OptExp e := by
  cases w with
  | nil => simp [accepts_nil, jsonNumberTerminalStates, SomeDigits]
  | cons c w =>
    rw [someDigits_append, ← accepts_fraction]
    simp [accepts_step, repeatingStates, transitions, digit_cases]

/-- `[ frac ] [ exp ]`. -/
def FracExp (w : List Char) : Prop := ∃ f e, w = f ++ e ∧ OptFrac f ∧ OptExp e

theorem fracExp_nil : FracExp [] := ⟨[], [], rfl, .inl rfl, optExp_nil⟩

theorem fracExp_cons : FracExp (c :: w) ↔
    (c = '.' ∧ ∃ ds e, w = ds ++ e ∧ SomeDigits ds ∧ OptExp e) ∨ ((c = 'e' ∨ c = 'E') ∧ Exponent w) := by
  constructor
  · rintro ⟨f, e, hw, rfl | ⟨ds, rfl, hds⟩, he⟩
    · exact .inr (optExp_cons.mp (hw.trans (List.nil_append e) ▸ he))
    · obtain ⟨rfl, rfl⟩ := List.cons_eq_cons.mp hw
      exact .inl ⟨rfl, ds, e, rfl, hds, he⟩
  · rintro (⟨rfl, ds, e, rfl, hds, he⟩ | h)
    · exact ⟨'.' :: ds, e, rfl, .inr ⟨ds, rfl, hds⟩, he⟩
    · exact ⟨[], c :: w, rfl, .inl rfl, optExp_cons.mpr h⟩

theorem accepts_zero : Accepts .zero w ↔ FracExp w := by
  cases w with
  | nil => simp [accepts_nil, jsonNumberTerminalStates, fracExp_nil]
  | cons c w =>
    simp [accepts_step, repeatingStates, transitions, accepts_fractionStart,
      accepts_exponentStart, fracExp_cons]

theorem accepts_integer : Accepts .integer w ↔ ∃ ds r, w = ds ++ r ∧ Digits ds ∧ FracExp r := by
  refine accepts_repeating (by simp [accepts_nil, jsonNumberTerminalStates, fracExp_nil]) fun c w => ?_
  simp [accepts_step, repeatingStates, transitions, accepts_fractionStart,
    accepts_exponentStart, fracExp_cons]

/-- `int [ frac ] [ exp ]`. -/
def Unsigned (w : List Char) : Prop := ∃ i r, w = i ++ r ∧ IntPart i ∧ FracExp r

theorem unsigned_cons : Unsigned (c :: w) ↔
    (c = '0' ∧ FracExp w) ∨ ((isDigit c ∧ ¬ c = '0') ∧ ∃ ds r, w = ds ++ r ∧ Digits ds ∧ FracExp r) := by
  constructor
  · rintro ⟨i, r, hw, rfl | ⟨d, ds, rfl, hd, h0, hds⟩, hr⟩
    · obtain ⟨rfl, rfl⟩ := List.cons_eq_cons.mp hw
      exact .inl ⟨rfl, hr⟩
    · obtain ⟨rfl, rfl⟩ := List.cons_eq_cons.mp hw
      exact .inr ⟨⟨hd, h0⟩, ds, r, rfl, hds, hr⟩
  · rintro (⟨rfl, h⟩ | ⟨⟨hd, h0⟩, ds, r, rfl, hds, hr⟩)
    · exact ⟨['0'], w, rfl, .inl rfl, h⟩
    · exact ⟨c :: ds, r, rfl, .inr ⟨c, ds, rfl, hd, h0, hds⟩, hr⟩

theorem accepts_sign : Accepts .sign w ↔ Unsigned w := by
  cases w with
  | nil => simp [accepts_nil, jsonNumberTerminalStates, Unsigned, IntPart]
  | cons c w =>
    simp [accepts_step, repeatingStates, transitions, accepts_zero,
      accepts_integer, unsigned_cons]

theorem number_iff : Number w ↔ Unsigned w ∨ ∃ u, w = '-' :: u ∧ Unsigned u := by
  constructor
  · rintro ⟨minus, int, frac, exp, rfl, rfl | rfl, hint, hfrac, hexp⟩
    · exact .inl ⟨int, frac ++ exp, by simp, hint, frac, exp, rfl, hfrac, hexp⟩
    · exact .inr ⟨_, by simp, int, frac ++ exp, rfl, hint, frac, exp, rfl, hfrac, hexp⟩
  · rintro (⟨i, _, rfl, hi, f, e, rfl, hf, he⟩ | ⟨_, rfl, i, _, rfl, hi, f, e, rfl, hf, he⟩)
    · exact ⟨[], i, f, e, by simp, .inl rfl, hi, hf, he⟩
    · exact ⟨['-'], i, f, e, by simp, .inr rfl, hi, hf, he⟩

/-- The automaton accepts exactly the numbers of the grammar. -/
theorem startJsonNumber_accepts : (∃ q, startJsonNumber c = some q ∧ Accepts q w) ↔ Number (c :: w) := by
  have hminus : isDigit '-' = false := rfl
  rw [number_iff, unsigned_cons]
  simp only [startJsonNumber, mem_positiveDigits]
  by_cases hm : c = '-'
  · subst hm
    simp [accepts_sign, hminus]
  · by_cases h0 : c = '0'
    · subst h0
      simp [accepts_zero]
    · by_cases hd : isDigit c = true
      · simp [hm, h0, hd, accepts_integer]
      · simp [hm, h0, hd]

end
end Crewplane.Claude
