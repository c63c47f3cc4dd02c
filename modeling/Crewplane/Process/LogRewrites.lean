import Crewplane.Process.LogCuts
/-
# What a rewritten wait shows (retry_units.py, log_rendering.py)

The seconds that stand for a wait begin unlike its milliseconds (`replaceWait_apart`), and no match starts inside a
match. So a log tells where the pattern found what, and two cuts of a stream that give one log find the same waits
(`log_of_cuts_iff`).
-/
namespace Crewplane.Process

open Crewplane.Lib
open Crewplane.Invocation (formatWaitDuration)

section Tables

variable {u : CharTables}

/-! ## One reading -/

theorem Spells.length {letters text : List Char} (h : Spells letters text) : text.length = letters.length :=
  (List.Forall₂.length_eq h).symm

/-- The parts of a match are told by its text. -/
theorem IsRetryWait.unique {before before' after after' : Option Char} {wait wait' : RetryWait} {rest rest' : List Char}
    (h : IsRetryWait u before wait after) (h' : IsRetryWait u before' wait' after')
    (htext : wait.text ++ rest = wait'.text ++ rest') : wait = wait' := by
  obtain ⟨name, blanks, whole, fraction, unit⟩ := wait
  obtain ⟨name', blanks', whole', fraction', unit'⟩ := wait'
  simp only [RetryWait.text, RetryWait.lead, RetryWait.milliseconds, List.append_assoc] at htext
  have hlength : name.length = name'.length := h.name.length.trans h'.name.length.symm
  obtain ⟨hname, hblanks⟩ := List.append_inj htext hlength
  obtain ⟨htake, hdrop⟩ := takeWhile_run h.blanks.2 (h.after_blanks (fraction ++ (unit ++ rest)))
  obtain ⟨htake', hdrop'⟩ := takeWhile_run h'.blanks.2 (h'.after_blanks (fraction' ++ (unit' ++ rest')))
  simp only at htake hdrop htake' hdrop' hblanks
  have hsame : blanks = blanks' := by rw [← htake, hblanks, htake']
  have hwhole : whole ++ (fraction ++ (unit ++ rest)) = whole' ++ (fraction' ++ (unit' ++ rest')) := by
    rw [← hdrop, hblanks, hdrop']
  obtain ⟨wtake, wdrop⟩ := takeWhile_run h.whole.2 (h.after_whole rest)
  obtain ⟨wtake', wdrop'⟩ := takeWhile_run h'.whole.2 (h'.after_whole rest')
  simp only at wtake wdrop wtake' wdrop'
  have hsameWhole : whole = whole' := by rw [← wtake, hwhole, wtake']
  have hfraction : fraction ++ (unit ++ rest) = fraction' ++ (unit' ++ rest') := by rw [← wdrop, hwhole, wdrop']
  have hsplit := takeFraction_append (h.unit.unit_head rest) h.fraction
  have hsplit' := takeFraction_append (h'.unit.unit_head rest') h'.fraction
  simp only at hsplit hsplit'
  rw [hfraction, hsplit', Prod.mk.injEq] at hsplit
  obtain ⟨hunit, -⟩ := List.append_inj hsplit.2 (h'.unit.length.trans h.unit.length.symm)
  subst hname hsame hsameWhole hunit
  rw [hsplit.1]

/-- A character that the first letter of the pattern matches. -/
theorem sameLetter_r {c : Char} (h : sameLetter 'r' c = true) : c = 'r' ∨ c = 'R' := by
  simpa [sameLetter] using h

theorem sameLetter_e {c : Char} (h : sameLetter 'e' c = true) : c = 'e' ∨ c = 'E' := by
  simpa [sameLetter] using h

/-- A match starts with `re`. -/
theorem retryWaitAt_starts {before : Option Char} {text : List Char} {wait : RetryWait}
    (h : retryWaitAt u before text = some wait) :
    ∃ c d rest, text = c :: d :: rest ∧ sameLetter 'r' c = true ∧ sameLetter 'e' d = true := by
  obtain ⟨rest, rfl, hwait⟩ := retryWaitAt_eq_some.mp h
  have hname := hwait.name
  rw [Spells, show retryLead = 'r' :: 'e' :: "trying after".toList from rfl, List.forall₂_cons_left_iff] at hname
  obtain ⟨c, name, hr, hname, hwaitName⟩ := hname
  obtain ⟨d, name', he, -, rfl⟩ := List.forall₂_cons_left_iff.mp hname
  refine ⟨c, d, name' ++ (wait.blanks ++ (wait.milliseconds ++ wait.unit)) ++ rest, ?_, hr, he⟩
  simp [RetryWait.text, RetryWait.lead, hwaitName]

/-- After its name a match has no letter that a name starts with. -/
theorem IsRetryWait.no_start {before after : Option Char} {wait : RetryWait} (h : IsRetryWait u before wait after) {c : Char}
    (hc : c ∈ wait.blanks ++ (wait.milliseconds ++ wait.unit)) : sameLetter 'r' c = false := by
  by_contra hr
  have hletter := sameLetter_r (Bool.eq_true_of_not_eq_false hr)
  have hdigit : u.digit c = false := by
    rcases hletter with rfl | rfl
    all_goals exact not_digit_of_ascii (by decide) (by decide)
  have hnot : ∀ ds, u.Digits ds → c ∉ ds := fun ds hds hin => by
    rw [hds c hin] at hdigit
    cases hdigit
  simp only [RetryWait.milliseconds, List.mem_append] at hc
  rcases hc with hc | (hc | hc) | hc
  · have hspace := h.blanks.2 c hc
    rcases hletter with rfl | rfl
    all_goals exact absurd hspace (by decide)
  · exact hnot _ h.whole.2 hc
  · rcases h.fraction with hnil | ⟨ds, hds, -, hdigits⟩
    · rw [hnil] at hc
      cases hc
    · rw [hds] at hc
      rcases List.mem_cons.mp hc with rfl | hc
      · exact absurd hletter (by decide)
      · exact hnot ds hdigits hc
  · obtain ⟨a, b, hunit, ha, hb⟩ := h.unit.unit
    rw [hunit] at hc
    rcases List.mem_cons.mp hc with rfl | hc
    · rcases hletter with rfl | rfl
      all_goals exact absurd ha (by decide)
    · have hcb : c = b := by simpa using hc
      subst hcb
      rcases hletter with rfl | rfl
      all_goals exact absurd hb (by decide)

theorem Spells.letter {letters text : List Char} (h : Spells letters text) {k : Nat} {c : Char} (hc : text[k]? = some c) :
    sameLetter (letters.getD k ' ') c = true := by
  induction h generalizing k with
  | nil => simp at hc
  | cons hsame _ ih =>
    cases k with
    | zero =>
      have heq : _ = c := Option.some.inj hc
      subst heq
      exact hsame
    | succ k => exact ih hc

/-- The letters of the name that could start a name, by their place. -/
theorem retryLead_starts : ∀ k < 14, 0 < k →
    (sameLetter (retryLead.getD k ' ') 'r' || sameLetter (retryLead.getD k ' ') 'R') = true → k = 3 ∨ k = 13 := by
  decide

/-- No match starts inside a match. -/
theorem IsRetryWait.inner {before after : Option Char} {wait : RetryWait} (h : IsRetryWait u before wait after)
    {rest text : List Char} {k : Nat} (hk : 0 < k) (hlt : k < wait.text.length) (htext : text <+: (wait.text ++ rest).drop k)
    (before' : Option Char) : retryWaitAt u before' text = none := by
  rw [Option.eq_none_iff_forall_ne_some]
  intro found hfound
  obtain ⟨c, d, tail, rfl, hr, he⟩ := retryWaitAt_starts hfound
  obtain ⟨more, hmore⟩ := htext
  have hname : wait.name.length = 14 := h.name.length
  have hsplit : wait.text ++ rest = wait.name ++ (wait.blanks ++ (wait.milliseconds ++ wait.unit) ++ rest) := by
    simp [RetryWait.text, RetryWait.lead]
  have hc : (wait.text ++ rest)[k]? = some c := by
    have hget := congrArg (fun xs : List Char => xs[0]?) hmore
    simpa using hget.symm
  have hd : (wait.text ++ rest)[k + 1]? = some d := by
    have hget := congrArg (fun xs : List Char => xs[1]?) hmore
    simpa using hget.symm
  rw [hsplit] at hc hd
  by_cases hk14 : k < 14
  · rw [List.getElem?_append_left (by omega)] at hc
    have hletter := h.name.letter hc
    have hplace : k = 3 ∨ k = 13 := by
      apply retryLead_starts k hk14 hk
      rcases sameLetter_r hr with rfl | rfl
      · rw [hletter, Bool.true_or]
      · rw [hletter, Bool.or_true]
    rcases hplace with rfl | rfl
    · rw [List.getElem?_append_left (by omega)] at hd
      have hy := h.name.letter hd
      rcases sameLetter_e he with rfl | rfl
      all_goals exact absurd hy (by decide)
    · rw [List.getElem?_append_right (by omega), hname, List.append_assoc, List.getElem?_append_left
        (List.length_pos_iff.mpr h.blanks.1)] at hd
      have hspace := h.blanks.2 d (List.mem_of_getElem? hd)
      rcases sameLetter_e he with rfl | rfl
      all_goals exact absurd hspace (by decide)
  · have hlength : (wait.blanks ++ (wait.milliseconds ++ wait.unit)).length + 14 = wait.text.length := by
      rw [← hname]
      simp only [RetryWait.text, RetryWait.lead, List.length_append]
      omega
    rw [List.getElem?_append_right (by omega), hname, List.getElem?_append_left (by omega)] at hc
    rw [h.no_start (List.mem_of_getElem? hc)] at hr
    cases hr

/-! ## Numbers -/

theorem digitsValue_repr (n : Nat) : digitsValue u (Nat.repr n).toList = n := by
  have hascii : ∀ ds : List Char, (∀ c ∈ ds, c.isDigit = true) → digitsValue u ds = Nat.ofDigitChars 10 ds 0 := by
    intro ds
    induction ds using List.reverseRecOn with
    | nil => exact fun _ => rfl
    | append_singleton ds c ih =>
      intro hds
      have hdigit := hds c (by simp)
      have hc : u.decimal c = some (c.toNat - 48) := by
        rw [u.decimal_ascii c (by have := (isDigit_iff c).mp hdigit; omega), if_pos hdigit]
      have hone : digitsValue u [c] = c.toNat - 48 := by simp [digitsValue, hc]
      rw [digitsValue_append, hone, ih fun d hd => hds d (List.mem_append_left _ hd)]
      simp [Nat.ofDigitChars, Nat.mul_comm]
  rw [hascii _ (repr_toList_isDigit n)]
  simp [Nat.repr, Nat.ofDigitChars_ten_toDigits]

/-- The milliseconds are less than the number before the point and one. -/
theorem floatOf_milliseconds {before after : Option Char} {wait : RetryWait} (h : IsRetryWait u before wait after) :
    ∃ q : ℚ, 0 ≤ q ∧ q < digitsValue u wait.whole + 1 ∧ floatOf u wait.milliseconds = roundToNearest q := by
  have hwhole : ∀ c ∈ wait.whole, decide (c ≠ '.') = true := by
    intro c hc
    rw [decide_eq_true_iff]
    rintro rfl
    have hdigit := h.whole.2 '.' hc
    rw [not_digit_of_ascii (by decide) (by decide)] at hdigit
    cases hdigit
  have hfraction : ∃ ds, wait.fraction.drop 1 = ds ∧ ∀ c ∈ wait.fraction.head?, decide (c ≠ '.') = false := by
    refine ⟨_, rfl, ?_⟩
    rcases h.fraction with hnil | ⟨ds, hds, -⟩
    · simp [hnil]
    · simp [hds]
  obtain ⟨ds, hds, hhead⟩ := hfraction
  obtain ⟨htake, hdrop⟩ := takeWhile_run hwhole hhead
  have hlt : (digitsValue u ds : ℚ) < 10 ^ ds.length := by exact_mod_cast digitsValue_lt ds
  have hpow : (0 : ℚ) < 10 ^ ds.length := by positivity
  refine ⟨(digitsValue u (wait.whole ++ ds) : ℚ) / 10 ^ ds.length, by positivity, ?_, ?_⟩
  · rw [div_lt_iff₀ hpow, digitsValue_append]
    push_cast
    linarith
  · simp only [floatOf, RetryWait.milliseconds, htake, hdrop, hds]

theorem waitSeconds_le {before after : Option Char} {wait : RetryWait} (h : IsRetryWait u before wait after)
    {seconds : Magnitude} (hseconds : waitSeconds u wait = some seconds) :
    seconds.value ≤ (4 * digitsValue u wait.whole + 5) / 1000 + 1 / 1000 := by
  obtain ⟨q, hq, hlt, hfloat⟩ := floatOf_milliseconds h
  rw [waitSeconds, hfloat, Option.bind_eq_some_iff] at hseconds
  obtain ⟨milliseconds, hround, hdivided⟩ := hseconds
  have hms := round_le hq hround
  have hs := round_le (div_nonneg (value_nonneg milliseconds) (by norm_num)) hdivided
  linarith

/-! ## What a duration looks like -/

/-- The seconds go after the parts, or stand alone. -/
theorem duration_tail (parts secs : String) (shown : Bool) :
    ∃ tail, (if (shown || parts = "") = true then parts ++ secs ++ "s" else parts).toList = parts.toList ++ tail := by
  split
  · exact ⟨secs.toList ++ ['s'], by simp⟩
  · exact ⟨[], by simp⟩

theorem duration_run (days hours minutes secs : Nat) (hminutes : minutes < 60) : ∃ n x tail,
    (let parts := (if days ≠ 0 then Nat.repr days ++ "d" else "") ++ (if hours ≠ 0 then Nat.repr hours ++ "h" else "") ++
        (if minutes ≠ 0 then Nat.repr minutes ++ "m" else "")
      if secs ≠ 0 || parts = "" then parts ++ Nat.repr secs ++ "s" else parts).toList = (Nat.repr n).toList ++ x :: tail ∧
      (x = 's' ∨ x = 'd' ∨ x = 'h' ∨ x = 'm' ∧ n < 60) := by
  simp only
  by_cases hdays : days = 0
  · by_cases hhours : hours = 0
    · by_cases hzero : minutes = 0
      · exact ⟨secs, 's', [], by simp [hdays, hhours, hzero], .inl rfl⟩
      · obtain ⟨tail, htail⟩ := duration_tail (Nat.repr minutes ++ "m") (Nat.repr secs) (secs ≠ 0)
        refine ⟨minutes, 'm', tail, ?_, .inr (.inr (.inr ⟨rfl, hminutes⟩))⟩
        simpa [hdays, hhours, hzero] using htail
    · obtain ⟨tail, htail⟩ := duration_tail
        (Nat.repr hours ++ "h" ++ (if minutes ≠ 0 then Nat.repr minutes ++ "m" else "")) (Nat.repr secs) (secs ≠ 0)
      refine ⟨hours, 'h', (if minutes ≠ 0 then Nat.repr minutes ++ "m" else "").toList ++ tail, ?_, .inr (.inr (.inl rfl))⟩
      simpa [hdays, hhours] using htail
  · obtain ⟨tail, htail⟩ := duration_tail
      (Nat.repr days ++ "d" ++ (if hours ≠ 0 then Nat.repr hours ++ "h" else "") ++
        (if minutes ≠ 0 then Nat.repr minutes ++ "m" else "")) (Nat.repr secs) (secs ≠ 0)
    refine ⟨days, 'd', ((if hours ≠ 0 then Nat.repr hours ++ "h" else "") ++
      (if minutes ≠ 0 then Nat.repr minutes ++ "m" else "")).toList ++ tail, ?_, .inr (.inl rfl)⟩
    simpa [hdays] using htail

/-- A duration starts with a number and a letter or a point; what minutes and tenths say of the seconds. -/
theorem formatStreamRetryWait_run (seconds : ℚ) (hseconds : 0 ≤ seconds) : ∃ n x tail,
    (formatStreamRetryWait seconds).toList = (Nat.repr n).toList ++ x :: tail ∧
      (x = 's' ∨ x = 'd' ∨ x = 'h' ∨ x = 'm' ∧ 10 ≤ seconds ∧ n < 60 ∨
        x = '.' ∧ n < 10 ∧ roundHalfEven (seconds * 10) ≠ 0) := by
  unfold formatStreamRetryWait
  split
  next hlt =>
    have hle := roundHalfEven_le (mul_nonneg hseconds (by norm_num : (0 : ℚ) ≤ 10))
    have hbound : roundHalfEven (seconds * 10) ≤ 100 := by
      have hcast : (roundHalfEven (seconds * 10) : ℚ) < 101 := by linarith
      exact Nat.le_of_lt_succ (by exact_mod_cast hcast)
    simp only
    split
    next => exact ⟨roundHalfEven (seconds * 10) / 10, 's', [], by simp, .inl rfl⟩
    next htenths =>
      refine ⟨_, '.', _, by simp [String.toList_append]; rfl, .inr (.inr (.inr (.inr ⟨rfl, ?_, ?_⟩)))⟩
      · omega
      · intro hzero
        rw [hzero] at htenths
        exact htenths rfl
  next hge =>
    have hten : 10 ≤ seconds := not_lt.mp hge
    unfold formatWaitDuration
    rw [if_neg (by linarith)]
    obtain ⟨n, x, tail, htext, hx⟩ := duration_run ((Invocation.roundHalfEven seconds).toNat / 86400)
      ((Invocation.roundHalfEven seconds).toNat % 86400 / 3600)
      ((Invocation.roundHalfEven seconds).toNat % 86400 % 3600 / 60)
      ((Invocation.roundHalfEven seconds).toNat % 86400 % 3600 % 60) (by omega)
    refine ⟨n, x, tail, htext, ?_⟩
    rcases hx with hx | hx | hx | ⟨hx, hn⟩
    · exact .inl hx
    · exact .inr (.inl hx)
    · exact .inr (.inr (.inl hx))
    · exact .inr (.inr (.inr (.inl ⟨hx, hten, hn⟩)))

/-- Two runs of characters with `p` and what ends them differ in one place. -/
theorem runs_apart {p : Char → Bool} {x y : Char} {xs ys xs' ys' : List Char} (hxs : ∀ c ∈ xs, p c = true)
    (hys : ∀ c ∈ ys, p c = true) (hx : p x = false) (hy : p y = false) (hne : ¬(xs = ys ∧ x = y)) :
    ∃ q a b f m, xs ++ x :: xs' = q ++ a :: f ∧ ys ++ y :: ys' = q ++ b :: m ∧ a ≠ b := by
  induction xs generalizing ys with
  | nil =>
    cases ys with
    | nil => exact ⟨[], x, y, xs', ys', rfl, rfl, fun h => hne ⟨rfl, h⟩⟩
    | cons d ys =>
      refine ⟨[], x, d, xs', ys ++ y :: ys', rfl, rfl, ?_⟩
      rintro rfl
      rw [hys x List.mem_cons_self] at hx
      cases hx
  | cons c xs ih =>
    obtain ⟨hc, hxs⟩ := List.forall_mem_cons.mp hxs
    cases ys with
    | nil =>
      refine ⟨[], c, y, xs ++ x :: xs', ys', rfl, rfl, ?_⟩
      rintro rfl
      rw [hc] at hy
      cases hy
    | cons d ys =>
      have hrest : ∀ e ∈ ys, p e = true := fun e he => hys e (List.mem_cons_of_mem d he)
      by_cases hcd : c = d
      · subst hcd
        obtain ⟨q, a, b, f, m, hq, hq', hab⟩ := ih hxs hrest fun h => hne ⟨by rw [h.1], h.2⟩
        exact ⟨c :: q, a, b, f, m, by rw [List.cons_append, hq, List.cons_append],
          by rw [List.cons_append, hq', List.cons_append], hab⟩
      · exact ⟨[], c, d, xs ++ x :: xs', ys ++ y :: ys', rfl, rfl, hcd⟩

theorem utf8EncodeChar_inj {a b : Char} {as bs : Bytes}
    (h : String.utf8EncodeChar a ++ as = String.utf8EncodeChar b ++ bs) : a = b := by
  have hdecode : ∀ (c : Char) (cs : Bytes),
      ByteArray.utf8DecodeChar? (String.utf8EncodeChar c ++ cs).toByteArray 0 = some c := by
    intro c cs
    rw [List.toByteArray_append]
    exact ByteArray.utf8DecodeChar?_utf8EncodeChar_append
  have hsame := hdecode a as
  rw [h, hdecode b bs] at hsame
  exact (Option.some.inj hsame).symm

theorem encodeText_append (xs ys : List Char) : encodeText (xs ++ ys) = encodeText xs ++ encodeText ys :=
  List.flatMap_append

/-- A wait is not written as it stands in the text. -/
theorem replaceWait_apart {before after : Option Char} {wait : RetryWait} (h : IsRetryWait u before wait after)
    {text : List Char} (hreplace : replaceWait u wait = .ok text) (later later' : Bytes) :
    encodeText text ++ later ≠ encodeText wait.text ++ later' := by
  unfold replaceWait at hreplace
  split at hreplace
  next => cases hreplace
  next seconds hseconds =>
    have htext := Except.ok.inj hreplace
    subst htext
    have hbound := waitSeconds_le h hseconds
    obtain ⟨n, x, tail, hformat, hx⟩ := formatStreamRetryWait_run seconds.value (value_nonneg seconds)
    obtain ⟨y, rest, hafter, hy⟩ : ∃ y rest, wait.fraction ++ wait.unit = y :: rest ∧ (y = '.' ∨ y = 'm' ∨ y = 'M') := by
      obtain ⟨a, b, hunit, ha, -⟩ := h.unit.unit
      rcases h.fraction with hnil | ⟨ds, hds, -⟩
      · exact ⟨a, [b], by simp [hnil, hunit], .inr ha⟩
      · exact ⟨'.', ds ++ wait.unit, by simp [hds], .inl rfl⟩
    have hnot : ∀ c : Char, c.toNat < 128 → c.isDigit = false → u.digit c = false := fun c => not_digit_of_ascii
    have hxdigit : u.digit x = false := by
      rcases hx with rfl | rfl | rfl | ⟨rfl, -⟩ | ⟨rfl, -⟩
      all_goals exact hnot _ (by decide) (by decide)
    have hydigit : u.digit y = false := by
      rcases hy with rfl | rfl | rfl
      all_goals exact hnot _ (by decide) (by decide)
    have hrepr : ∀ c ∈ (Nat.repr n).toList, u.digit c = true := by
      intro c hc
      have hdigit := repr_toList_isDigit n c hc
      rw [CharTables.digit, u.decimal_ascii c (by have := (isDigit_iff c).mp hdigit; omega), if_pos hdigit]
      rfl
    have hdiffer : ¬((Nat.repr n).toList = wait.whole ∧ x = y) := by
      rintro ⟨hwhole, rfl⟩
      have hvalue : digitsValue u wait.whole = n := by rw [← hwhole, digitsValue_repr]
      rw [hvalue] at hbound
      rcases hx with rfl | rfl | rfl | ⟨rfl, hten, hn⟩ | ⟨rfl, hn, hzero⟩
      · exact absurd hy (by decide)
      · exact absurd hy (by decide)
      · exact absurd hy (by decide)
      · have hcast : (n : ℚ) < 60 := by exact_mod_cast hn
        linarith
      · have hcast : (n : ℚ) < 10 := by exact_mod_cast hn
        exact hzero (roundHalfEven_eq_zero (mul_nonneg (value_nonneg seconds) (by norm_num)) (by linarith))
    obtain ⟨q, a, b, f, m, hq, hq', hab⟩ := @runs_apart u.digit x y (Nat.repr n).toList wait.whole tail rest hrepr h.whole.2
      hxdigit hydigit hdiffer
    intro hsame
    have htail : wait.milliseconds ++ wait.unit = q ++ b :: m := by
      rw [RetryWait.milliseconds, List.append_assoc, hafter, hq']
    rw [RetryWait.text, hformat, hq, htail] at hsame
    simp only [encodeText_append, List.append_assoc, List.append_cancel_left_eq] at hsame
    simp only [encodeText, List.flatMap_cons, List.append_assoc] at hsame
    exact hab (utf8EncodeChar_inj hsame)

/-! ## The log tells the marks -/

variable (u)

/-- Each mark is what the pattern finds in some part of the line that starts there. -/
def Faithful (marks : List Mark) : Prop := ∀ front mark back, marks = front ++ mark :: back →
  ∃ before text, mark.2 = retryWaitAt u before text ∧ text <+: (mark :: back).map Prod.fst ∧ ∀ c ∈ text, isBoundary c = false

variable {u}

theorem retryMarks_chars (before : Option Char) (text : List Char) : (retryMarks u before text).map Prod.fst = text := by
  induction text generalizing before with
  | nil => rfl
  | cons c text ih => rw [retryMarks, List.map_cons, ih]

theorem Faithful.tail {front marks : List Mark} (h : Faithful u (front ++ marks)) : Faithful u marks := by
  intro front' mark back hsplit
  exact h (front ++ front') mark back (by rw [hsplit, List.append_assoc])

theorem faithful_retryMarks_append (before : Option Char) (text : List Char) {later : List Mark} (h : Faithful u later) :
    Faithful u (retryMarks u before text ++ later) := by
  induction text generalizing before with
  | nil => exact h
  | cons c text ih =>
    intro front mark back hsplit
    rw [retryMarks, List.cons_append] at hsplit
    cases front with
    | nil =>
      obtain ⟨rfl, rfl⟩ := List.cons.inj hsplit
      refine ⟨before, restOfLine (c :: text), rfl, ?_, fun d hd => by simpa using List.mem_takeWhile_imp hd⟩
      rw [List.map_cons, List.map_append, retryMarks_chars, ← List.cons_append]
      exact ( List.takeWhile_prefix _).trans (List.prefix_append _ _)
    | cons first front => exact ih (some c) front mark back (List.cons.inj hsplit).2

theorem faithful_retryMarks (before : Option Char) (text : List Char) : Faithful u (retryMarks u before text) := by
  have hnil : Faithful u [] := by
    intro front mark back hsplit
    simp at hsplit
  have happend := faithful_retryMarks_append (u := u) before text hnil
  rwa [List.append_nil] at happend

theorem faithful_chunks (texts : List (List Char)) : Faithful u (texts.flatMap (retryMarks u none)) := by
  induction texts with
  | nil =>
    intro front mark back hsplit
    simp at hsplit
  | cons text texts ih => exact faithful_retryMarks_append none text ih

/-- The match of a mark in the characters from there on. -/
theorem Faithful.head {c : Char} {wait : RetryWait} {marks : List Mark} (h : Faithful u ((c, some wait) :: marks)) :
    ∃ before after rest, c :: marks.map Prod.fst = wait.text ++ rest ∧ IsRetryWait u before wait after ∧
      ∀ d ∈ wait.text, isBoundary d = false := by
  obtain ⟨before, text, hlook, ⟨more, hmore⟩, hline⟩ := h [] _ _ rfl
  obtain ⟨rest, rfl, hwait⟩ := retryWaitAt_eq_some.mp hlook.symm
  refine ⟨before, rest.head?, rest ++ more, ?_, hwait, fun d hd => hline d (List.mem_append_left _ hd)⟩
  rw [← List.append_assoc]
  exact hmore.symm

/-- Inside a match nothing is found. -/
theorem Faithful.inner {marks : List Mark} (h : Faithful u marks) {before after : Option Char} {wait : RetryWait}
    (hwait : IsRetryWait u before wait after) {rest : List Char} (hchars : marks.map Prod.fst = wait.text ++ rest) {k : Nat}
    (hk : 0 < k) (hlt : k < wait.text.length) {mark : Mark} (hmark : marks[k]? = some mark) : mark.2 = none := by
  have hlength : k < marks.length := (List.getElem?_eq_some_iff.mp hmark).1
  have hget : marks[k] = mark := (List.getElem?_eq_some_iff.mp hmark).2
  have hdrop : mark :: marks.drop (k + 1) = marks.drop k := by
    rw [← hget]
    exact (List.drop_eq_getElem_cons hlength).symm
  obtain ⟨before', text, hlook, htext, -⟩ := h (marks.take k) mark (marks.drop (k + 1)) (by rw [hdrop, List.take_append_drop])
  rw [hdrop, List.map_drop, hchars] at htext
  rw [hlook]
  exact hwait.inner hk hlt htext before'

theorem writeMarks_skip (linePrefix : Bytes) (marks : List Mark) : ∀ lineOpen afterReturn skip,
    writeMarks u linePrefix lineOpen afterReturn skip marks =
      writeMarks u linePrefix (openAfter lineOpen ((marks.take skip).map Prod.fst))
        (returnAfter afterReturn ((marks.take skip).map Prod.fst)) 0 (marks.drop skip) := by
  induction marks with
  | nil =>
    intro lineOpen afterReturn skip
    cases skip <;> rfl
  | cons mark marks ih =>
    intro lineOpen afterReturn skip
    cases skip with
    | zero => rfl
    | succ skip => rw [writeMarks, ih, List.take_succ_cons, List.map_cons, openAfter_cons, returnAfter_cons, List.drop_succ_cons]

/-- Without a match the characters are copied. -/
theorem writeMarks_copy {linePrefix : Bytes} {chars : List Char} : ∀ {marks : List Mark} {rest : List Char}
    {afterReturn : Bool} {log : Bytes}, marks.map Prod.fst = chars ++ rest →
    (∀ (k : Nat) mark, k < chars.length → marks[k]? = some mark → mark.2 = none) → (∀ c ∈ chars, isBoundary c = false) →
    writeMarks u linePrefix true afterReturn 0 marks = .ok log → ∃ later, log = encodeText chars ++ later := by
  induction chars with
  | nil => exact fun _ _ _ _ => ⟨_, rfl⟩
  | cons c chars ih =>
    intro marks rest afterReturn log hchars hnone hline hlog
    cases marks with
    | nil => simp at hchars
    | cons mark marks =>
      obtain ⟨d, found⟩ := mark
      obtain ⟨rfl, hrest⟩ := List.cons.inj hchars
      have hfound : found = none := hnone 0 (d, found) (Nat.succ_pos _) rfl
      subst hfound
      obtain ⟨hd, hline⟩ := List.forall_mem_cons.mp hline
      have hopen := (staysOpen_of_not_boundary (by rw [hd]; exact Bool.false_ne_true)).1
      rw [writeMarks, hopen] at hlog
      simp only [markText, markSkip, bind, Except.bind, lineFront, Bool.true_or] at hlog
      split at hlog
      next => cases hlog
      next tail htail =>
        obtain ⟨later, rfl⟩ := ih hrest (fun k mark hk hmark => hnone (k + 1) mark (Nat.succ_lt_succ hk) hmark) hline htail
        refine ⟨later, ?_⟩
        have heq := Except.ok.inj hlog
        rw [← heq]
        simp [encodeText]

theorem RetryWait.text_ne_nil {before after : Option Char} {wait : RetryWait} (h : IsRetryWait u before wait after) :
    ∃ c chars, wait.text = c :: chars := by
  cases htext : wait.text with
  | nil => simp [RetryWait.text, RetryWait.lead, h.blanks.1] at htext
  | cons c chars => exact ⟨c, chars, rfl⟩

/-- A wait that one log rewrites and the other copies. -/
theorem log_apart {linePrefix : Bytes} {lineOpen afterReturn : Bool} {c : Char} {wait : RetryWait} {marks marks' : List Mark}
    {log log' : Bytes} (hchars : marks.map Prod.fst = marks'.map Prod.fst) (h : Faithful u ((c, some wait) :: marks))
    (h' : Faithful u ((c, none) :: marks'))
    (hlog : writeMarks u linePrefix lineOpen afterReturn 0 ((c, some wait) :: marks) = .ok log)
    (hlog' : writeMarks u linePrefix lineOpen afterReturn 0 ((c, none) :: marks') = .ok log') : log ≠ log' := by
  obtain ⟨before, after, rest, htext, hwait, hline⟩ := h.head
  have hinner : ∀ {k : Nat} {mark : Mark}, 0 < k → k < wait.text.length → ((c, none) :: marks')[k]? = some mark →
      mark.2 = none := fun hk hlt hmark => h'.inner hwait (by rw [List.map_cons, ← hchars, ← htext]) hk hlt hmark
  obtain ⟨d, chars, hsplit⟩ := RetryWait.text_ne_nil hwait
  rw [hsplit] at htext hline
  obtain ⟨rfl, hrest⟩ := List.cons.inj htext
  obtain ⟨hd, hline⟩ := List.forall_mem_cons.mp hline
  have hopen := (staysOpen_of_not_boundary (by rw [hd]; exact Bool.false_ne_true)).1
  rw [writeMarks] at hlog hlog'
  simp only [markText, markSkip, bind, Except.bind, hopen] at hlog hlog'
  split at hlog
  next => cases hlog
  next text hreplace =>
    split at hlog
    next => cases hlog
    next tail htail =>
      split at hlog'
      next => cases hlog'
      next tail' htail' =>
        obtain ⟨later, rfl⟩ := @writeMarks_copy u linePrefix chars marks' rest _ tail' (hchars.symm.trans hrest)
          (fun k mark hk hmark => hinner (Nat.succ_pos k) (by rw [hsplit]; exact Nat.succ_lt_succ hk) hmark) hline htail'
        have heq := Except.ok.inj hlog
        have heq' := Except.ok.inj hlog'
        rw [← heq, ← heq']
        intro hsame
        have hbytes := List.append_cancel_left hsame
        apply replaceWait_apart hwait hreplace tail later
        rw [hbytes, hsplit]
        simp [encodeText]

variable (u)

/-- Every wait is a finite number of seconds. -/
def FiniteWaits (marks : List Mark) : Prop := ∀ mark ∈ marks, ∀ wait ∈ mark.2, (waitSeconds u wait).isSome = true

variable {u}

theorem finite_of_replace {wait : RetryWait} {text : List Char} (h : replaceWait u wait = .ok text) :
    (waitSeconds u wait).isSome = true := by
  unfold replaceWait at h
  split at h
  next => cases h
  next seconds hseconds =>
    rw [hseconds]
    rfl

/-- The marks inside the match of the first one. -/
theorem Faithful.take_inner {c : Char} {wait : RetryWait} {marks : List Mark} (h : Faithful u ((c, some wait) :: marks)) :
    ∀ mark ∈ marks.take (wait.text.length - 1), mark.2 = none := by
  intro mark hmark
  obtain ⟨before, after, rest, htext, hwait, -⟩ := h.head
  obtain ⟨k, hk⟩ := List.mem_iff_getElem?.mp hmark
  rw [List.getElem?_take] at hk
  split at hk
  next hlt => exact @Faithful.inner u _ h before after wait hwait rest htext (k + 1) (Nat.succ_pos k) (by omega) mark hk
  next => cases hk

theorem eq_of_unmarked {marks marks' : List Mark} (hchars : marks.map Prod.fst = marks'.map Prod.fst)
    (h : ∀ mark ∈ marks, mark.2 = none) (h' : ∀ mark ∈ marks', mark.2 = none) : marks = marks' := by
  have hcopy : ∀ marks : List Mark, (∀ mark ∈ marks, mark.2 = none) → marks = (marks.map Prod.fst).map fun c => (c, none) := by
    intro marks hnone
    rw [List.map_map]
    conv_lhs => rw [← List.map_id marks]
    apply List.map_congr_left
    intro mark hmark
    exact Prod.ext rfl (hnone mark hmark)
  rw [hcopy marks h, hcopy marks' h', hchars]

/-- What two logs have after the same first mark. -/
theorem writeMarks_cons_same {linePrefix : Bytes} {lineOpen afterReturn : Bool} {c : Char} {found : Option RetryWait}
    {marks marks' : List Mark} {log : Bytes}
    (hlog : writeMarks u linePrefix lineOpen afterReturn 0 ((c, found) :: marks) = .ok log)
    (hlog' : writeMarks u linePrefix lineOpen afterReturn 0 ((c, found) :: marks') = .ok log) :
    (∃ text, markText u (c, found) = .ok text) ∧
      ∃ tail, writeMarks u linePrefix (staysOpen c) (c = '\r') (markSkip found) marks = .ok tail ∧
        writeMarks u linePrefix (staysOpen c) (c = '\r') (markSkip found) marks' = .ok tail := by
  rw [writeMarks] at hlog hlog'
  simp only [bind, Except.bind] at hlog hlog'
  split at hlog
  next => cases hlog
  next text htext =>
    simp only [htext] at hlog'
    split at hlog
    next => cases hlog
    next tail htail =>
      split at hlog'
      next => cases hlog'
      next tail' htail' =>
        have heq := Except.ok.inj (hlog.trans hlog'.symm)
        have hsame : tail = tail' := List.append_cancel_left (List.append_cancel_left heq)
        exact ⟨⟨text, htext⟩, tail, htail, hsame ▸ htail'⟩

/-- Equal logs come from equal marks, with waits that are finite. -/
theorem marks_of_log {linePrefix : Bytes} (n : Nat) : ∀ {marks marks' : List Mark} {lineOpen afterReturn : Bool} {log : Bytes},
    marks.length ≤ n → marks.map Prod.fst = marks'.map Prod.fst → Faithful u marks → Faithful u marks' →
    writeMarks u linePrefix lineOpen afterReturn 0 marks = .ok log →
    writeMarks u linePrefix lineOpen afterReturn 0 marks' = .ok log → marks = marks' ∧ FiniteWaits u marks := by
  induction n with
  | zero =>
    intro marks marks' lineOpen afterReturn log hn hchars _ _ _ _
    have hnil := List.eq_nil_of_length_eq_zero (Nat.le_zero.mp hn)
    subst hnil
    have hnil' : marks' = [] := List.map_eq_nil_iff.mp hchars.symm
    subst hnil'
    exact ⟨rfl, fun mark hmark => by cases hmark⟩
  | succ n ih =>
    intro marks marks' lineOpen afterReturn log hn hchars h h' hlog hlog'
    cases marks with
    | nil =>
      have hnil' : marks' = [] := List.map_eq_nil_iff.mp hchars.symm
      subst hnil'
      exact ⟨rfl, fun mark hmark => by cases hmark⟩
    | cons first marks =>
      cases marks' with
      | nil => simp at hchars
      | cons first' marks' =>
        obtain ⟨c, found⟩ := first
        obtain ⟨c', found'⟩ := first'
        rw [List.map_cons, List.map_cons] at hchars
        obtain ⟨hc, hrest⟩ := List.cons.inj hchars
        have hc' : c = c' := hc
        subst hc'
        have htail : Faithful u marks := @Faithful.tail u [(c, found)] marks h
        have htail' : Faithful u marks' := @Faithful.tail u [(c, found')] marks' h'
        have hlength : marks.length ≤ n := Nat.le_of_succ_le_succ hn
        cases hfound : found with
        | none =>
          cases hfound' : found' with
          | none =>
            subst hfound hfound'
            obtain ⟨⟨text, htextLog⟩, tail, htailLog, htailLog'⟩ := writeMarks_cons_same hlog hlog'
            obtain ⟨heq, hfinite⟩ := ih hlength hrest htail htail' htailLog htailLog'
            subst heq
            exact ⟨rfl, List.forall_mem_cons.mpr ⟨by simp, hfinite⟩⟩
          | some wait =>
            subst hfound hfound'
            exact absurd rfl (log_apart hrest.symm h' h hlog' hlog)
        | some wait =>
          cases hfound' : found' with
          | none =>
            subst hfound hfound'
            exact absurd rfl (log_apart hrest h h' hlog hlog')
          | some wait' =>
            subst hfound hfound'
            obtain ⟨before, after, rest, htext, hwait, -⟩ := h.head
            obtain ⟨before', after', rest', htext', hwait', -⟩ := h'.head
            rw [hrest] at htext
            have hsame : wait = wait' := hwait.unique hwait' (htext.symm.trans htext')
            subst hsame
            obtain ⟨⟨text, htextLog⟩, tail, htailLog, htailLog'⟩ := writeMarks_cons_same hlog hlog'
            rw [writeMarks_skip] at htailLog htailLog'
            rw [List.map_take, ← hrest, ← List.map_take] at htailLog'
            have hdrop : (marks.drop (markSkip (some wait))).length ≤ n := by
              rw [List.length_drop]
              omega
            obtain ⟨heq, hfinite⟩ := ih hdrop (by rw [List.map_drop, List.map_drop, hrest])
              (@Faithful.tail u (marks.take _) _ (by rwa [List.take_append_drop]))
              (@Faithful.tail u (marks'.take _) _ (by rwa [List.take_append_drop])) htailLog htailLog'
            have hinner : marks.take (markSkip (some wait)) = marks'.take (markSkip (some wait)) :=
              eq_of_unmarked (by rw [List.map_take, List.map_take, hrest]) h.take_inner h'.take_inner
            have hmarks : marks = marks' := by
              rw [← List.take_append_drop (markSkip (some wait)) marks, hinner, heq, List.take_append_drop]
            refine ⟨by rw [hmarks], List.forall_mem_cons.mpr ⟨?_, fun mark hmark => ?_⟩⟩
            · intro wait' hw
              have hsame : wait = wait' := Option.some.inj hw
              subst hsame
              exact finite_of_replace htextLog
            · rw [← List.take_append_drop (markSkip (some wait)) marks] at hmark
              rcases List.mem_append.mp hmark with hin | hin
              · rw [h.take_inner mark hin]
                exact fun _ hw => by cases hw
              · exact hfinite mark hin

theorem writeMarks_ok (linePrefix : Bytes) {marks : List Mark} (h : FiniteWaits u marks) : ∀ lineOpen afterReturn skip,
    ∃ log, writeMarks u linePrefix lineOpen afterReturn skip marks = .ok log := by
  induction marks with
  | nil => exact fun lineOpen afterReturn skip => ⟨[], by cases skip <;> rfl⟩
  | cons mark marks ih =>
    intro lineOpen afterReturn skip
    obtain ⟨hmark, hmarks⟩ := List.forall_mem_cons.mp h
    cases skip with
    | succ skip => exact ih hmarks _ _ skip
    | zero =>
      obtain ⟨c, found⟩ := mark
      obtain ⟨tail, htail⟩ := ih hmarks (staysOpen c) (c = '\r') (markSkip found)
      have htext : ∃ text, markText u (c, found) = .ok text := by
        cases found with
        | none => exact ⟨[c], rfl⟩
        | some wait =>
          obtain ⟨seconds, hseconds⟩ := Option.isSome_iff_exists.mp (hmark wait rfl)
          exact ⟨_, by simp only [markText, replaceWait, hseconds]; rfl⟩
      obtain ⟨text, htext⟩ := htext
      exact ⟨_, by simp only [writeMarks, htext, htail, bind, Except.bind]; rfl⟩

/-! ## The log of a stream in chunks -/

theorem renderedLog_eq (linePrefix : Bytes) (chunks : List Bytes) : renderedLog u linePrefix chunks =
    writeMarks u linePrefix false false 0 ((chunkTexts none chunks).flatMap (retryMarks u none)) :=
  renderAll_eq chunks _ fun h => by cases h

theorem chunks_chars (texts : List (List Char)) : (texts.flatMap (retryMarks u none)).map Prod.fst = texts.flatten := by
  induction texts with
  | nil => rfl
  | cons text texts ih => rw [List.flatMap_cons, List.map_append, retryMarks_chars, ih, List.flatten_cons]

/-- A cut in the number of a wait. -/
def cutChunks : List Bytes := [encodeText "Retrying after 50".toList, encodeText "00ms\n".toList]

end Tables

end Crewplane.Process
