import Crewplane.Process.LogRendering
/-
# What the cuts of a stream do to its log (log_rendering.py)

The log of a text is written character by character from what the pattern finds at each of them (`writeMarks`): a chunk
leaves off where the next goes on, and a segment of `splitlines` asks for no more than the rest of the line. So two ways
to cut a stream give one log when the pattern finds the same waits in both (`SameWaits`).
-/
namespace Crewplane.Process

open Crewplane.Lib

def restOfLine (text : List Char) : List Char := text.takeWhile fun c => !isBoundary c

def staysOpen (c : Char) : Bool := c ≠ '\n' && c ≠ '\r'

/-- What goes before a character, where the line is open or not. -/
def lineFront (linePrefix : Bytes) (lineOpen : Bool) : Bytes := if linePrefix ≠ [] ∧ lineOpen = false then linePrefix else []

/-- A character with what the pattern finds there. -/
abbrev Mark := Char × Option RetryWait

section Tables

variable (u : CharTables)

/-- What the pattern finds at each character, in the rest of its line. -/
def retryMarks : Option Char → List Char → List Mark
  | _, [] => []
  | before, c :: rest => (c, retryWaitAt u before (restOfLine (c :: rest))) :: retryMarks (some c) rest

def markText : Mark → Except WaitError (List Char)
  | (c, none) => .ok [c]
  | (_, some wait) => replaceWait u wait

def markSkip : Option RetryWait → Nat
  | none => 0
  | some wait => wait.text.length - 1

/-- The log of marked characters, where `skip` of them belong to the last match. -/
def writeMarks (linePrefix : Bytes) : Bool → Bool → Nat → List Mark → Except WaitError Bytes
  | _, _, _, [] => .ok []
  | _, _, skip + 1, mark :: rest => writeMarks linePrefix (staysOpen mark.1) (mark.1 = '\r') skip rest
  | lineOpen, afterReturn, 0, mark :: rest => do
    let text ← markText u mark
    let tail ← writeMarks linePrefix (staysOpen mark.1) (mark.1 = '\r') (markSkip mark.2) rest
    return lineFront linePrefix (lineOpen || (afterReturn && mark.1 = '\n')) ++ (encodeText text ++ tail)

variable {u}

/-! ## A match and the end of its text -/

/-- Characters after a text that are no part of a match leave the match as it was. -/
theorem retryWaitAt_append {before : Option Char} {text after : List Char} (hunit : ∀ c ∈ after, sameLetter 's' c = false)
    (hword : after.head?.any u.word = false) : retryWaitAt u before (text ++ after) = retryWaitAt u before text := by
  have hstop : ∀ (last : Option Char) (rest : List Char), u.boundary last (rest ++ after).head? = u.boundary last rest.head? := by
    intro last rest
    cases rest with
    | nil => simp [CharTables.boundary, hword]
    | cons c rest => rfl
  ext wait
  rw [retryWaitAt_eq_some, retryWaitAt_eq_some]
  constructor
  · rintro ⟨rest, hsplit, h⟩
    obtain ⟨a, b, hab, -, hb⟩ := h.unit.unit
    rcases List.append_eq_append_iff.mp hsplit with ⟨tail, htext, hafter⟩ | ⟨tail, htext, hafter⟩
    · -- the last character of a match is no character after the text
      rcases List.eq_nil_or_concat tail with rfl | ⟨tail', last, rfl⟩
      · refine ⟨[], by simpa using htext.symm, h.start, h.name, h.blanks, h.whole, h.fraction, h.unit, ?_⟩
        have hrest := hstop wait.unit.getLast? []
        rw [List.nil_append, hafter, List.nil_append] at hrest
        rw [← hrest]
        exact h.stop
      · have hlast : wait.text.getLast? = some last := by rw [htext]; simp
        rw [RetryWait.text, hab] at hlast
        have hbl : b = last := by simpa using hlast
        have hin : last ∈ after := by rw [hafter]; simp
        rw [← hbl] at hin
        rw [hunit b hin] at hb
        cases hb
    · refine ⟨tail, htext, h.start, h.name, h.blanks, h.whole, h.fraction, h.unit, ?_⟩
      rw [← hstop, ← hafter]
      exact h.stop
  · rintro ⟨rest, rfl, h⟩
    refine ⟨rest ++ after, List.append_assoc .., h.start, h.name, h.blanks, h.whole, h.fraction, h.unit, ?_⟩
    rw [hstop]
    exact h.stop

theorem retryWaitAt_congr {before before' : Option Char} (h : before.any u.word = before'.any u.word) (text : List Char) :
    retryWaitAt u before text = retryWaitAt u before' text := by
  simp [retryWaitAt, CharTables.boundary, h]

theorem retryWaitAt_nil (before : Option Char) : retryWaitAt u before [] = none := by
  rw [Option.eq_none_iff_forall_ne_some]
  intro wait h
  obtain ⟨rest, hsplit, hwait⟩ := retryWaitAt_eq_some.mp h
  have hnil : wait.text = [] := (List.append_eq_nil_iff.mp hsplit.symm).1
  simp [RetryWait.text, RetryWait.lead, hwait.blanks.1] at hnil

theorem isSpace_of_isBoundary {c : Char} (h : isBoundary c = true) : isSpace c = true := by
  simp only [isBoundary, Bool.or_eq_true, Bool.and_eq_true, decide_eq_true_eq] at h
  simp only [isSpace, Bool.or_eq_true, Bool.and_eq_true, decide_eq_true_eq]
  omega

theorem sameLetter_s {c : Char} (h : sameLetter 's' c = true) : c = 's' ∨ c = 'S' ∨ c = '\u017f' := by
  simpa [sameLetter, or_assoc] using h

theorem not_s_of_isBoundary {c : Char} (h : isBoundary c = true) : sameLetter 's' c = false := by
  by_contra hs
  rcases sameLetter_s (Bool.eq_true_of_not_eq_false hs) with rfl | rfl | rfl
  all_goals exact absurd h (by decide)

theorem retryWaitAt_append_boundaries {before : Option Char} {text ends : List Char} (hends : ∀ c ∈ ends, isBoundary c = true) :
    retryWaitAt u before (text ++ ends) = retryWaitAt u before text := by
  refine retryWaitAt_append (fun c hc => not_s_of_isBoundary (hends c hc)) ?_
  cases ends with
  | nil => rfl
  | cons c ends => exact u.space_not_word c (isSpace_of_isBoundary (hends c List.mem_cons_self))

/-! ## Segments -/

theorem isBoundary_cr : isBoundary '\r' = true := by decide

theorem isBoundary_lf : isBoundary '\n' = true := by decide

theorem splitlines_head {text line : List Char} {more : List (List Char)} (h : splitlines text = line :: more) :
    ∃ ends, line = restOfLine text ++ ends ∧ ∀ c ∈ ends, isBoundary c = true := by
  unfold splitlines at h
  fun_induction linesBy isBoundary text generalizing line more with
  | case1 => cases h
  | case2 rest ih =>
    cases h
    refine ⟨['\r', '\n'], by simp [restOfLine, isBoundary_cr], ?_⟩
    simp [isBoundary_cr, isBoundary_lf]
  | case3 c rest hcr hstop ih =>
    cases h
    exact ⟨[c], by simp [restOfLine, hstop], by simpa using hstop⟩
  | case4 c rest hcr hstop hnil ih =>
    cases h
    have hrest := linesBy_eq_nil hnil
    subst hrest
    exact ⟨[], by simp [restOfLine, hstop], by simp⟩
  | case5 c rest hcr hstop first lines hcons ih =>
    cases h
    obtain ⟨ends, hline, hends⟩ := ih hcons
    exact ⟨ends, by simp [restOfLine, hstop, hline], hends⟩

theorem normalizeFrom_congr {before before' : Option Char} (h : before.any u.word = before'.any u.word) (skip : Nat)
    (text : List Char) : normalizeFrom u before skip text = normalizeFrom u before' skip text := by
  cases text with
  | nil => cases skip <;> rfl
  | cons c rest =>
    cases skip with
    | zero => rw [normalizeFrom, normalizeFrom, retryWaitAt_congr h]
    | succ skip => rfl

theorem retryMarks_congr {before before' : Option Char} (h : before.any u.word = before'.any u.word) (text : List Char) :
    retryMarks u before text = retryMarks u before' text := by
  cases text with
  | nil => rfl
  | cons c rest => rw [retryMarks, retryMarks, retryWaitAt_congr h]

variable (u)

/-- The log of the lines from a position in the first of them on. -/
def writeLines (linePrefix : Bytes) (before : Option Char) (skip : Nat) : List (List Char) → Except WaitError Bytes
  | [] => .ok []
  | line :: more => do
    let text ← normalizeFrom u before skip line
    let payload ← Prod.fst <$> renderSegments u linePrefix (!endsLine line) more
    return encodeText text ++ payload

def startFront (linePrefix : Bytes) (lineOpen afterReturn : Bool) : Nat → List Char → Bytes
  | 0, c :: _ => lineFront linePrefix (lineOpen || (afterReturn && c = '\n'))
  | _, _ => []

variable {u}

/-- The loop over the segments starts each line anew. -/
theorem renderSegments_fst (linePrefix : Bytes) (lineOpen : Bool) (before : Option Char) (hbefore : before.any u.word = false)
    (lines : List (List Char)) : Prod.fst <$> renderSegments u linePrefix lineOpen lines =
      ((if lines = [] then [] else lineFront linePrefix lineOpen) ++ ·) <$> writeLines u linePrefix before 0 lines := by
  cases lines with
  | nil => rfl
  | cons line more =>
    rw [renderSegments, writeLines, normalizeRetryWaitUnitsInText, @normalizeFrom_congr u none before hbefore.symm]
    cases normalizeFrom u before 0 line with
    | error e => rfl
    | ok text =>
      cases renderSegments u linePrefix (!endsLine line) more with
      | error e => rfl
      | ok payload => rfl

theorem restOfLine_boundary {c : Char} (h : isBoundary c = true) (rest : List Char) : restOfLine (c :: rest) = [] := by
  simp [restOfLine, h]

theorem restOfLine_cons {c : Char} (h : ¬isBoundary c = true) (rest : List Char) :
    restOfLine (c :: rest) = c :: restOfLine rest := by
  simp [restOfLine, h]

/-- A boundary is written as it is. -/
theorem writeMarks_boundary (linePrefix : Bytes) (lineOpen afterReturn : Bool) {before : Option Char} {c : Char}
    (hc : isBoundary c = true) (rest : List Char) :
    writeMarks u linePrefix lineOpen afterReturn 0 (retryMarks u before (c :: rest)) =
      (fun tail => lineFront linePrefix (lineOpen || (afterReturn && c = '\n')) ++ (encodeText [c] ++ tail)) <$>
        writeMarks u linePrefix (staysOpen c) (c = '\r') 0 (retryMarks u (some c) rest) := by
  rw [retryMarks, restOfLine_boundary hc, retryWaitAt_nil, writeMarks]
  rfl

theorem normalizeFrom_boundaries {before : Option Char} {ends : List Char} (hends : ∀ c ∈ ends, isBoundary c = true) :
    normalizeFrom u before 0 ends = .ok ends := by
  induction ends generalizing before with
  | nil => rfl
  | cons c ends ih =>
    have hnone : retryWaitAt u before (c :: ends) = none := by
      rw [← List.nil_append (c :: ends), retryWaitAt_append_boundaries hends, retryWaitAt_nil]
    rw [normalizeFrom, hnone, ih fun d hd => hends d (List.mem_cons_of_mem c hd)]
    rfl

theorem word_boundary {c : Char} (hc : isBoundary c = true) : (some c).any u.word = false :=
  u.space_not_word c (isSpace_of_isBoundary hc)

theorem endsLine_boundary (c : Char) (front : List Char) : (!endsLine (front ++ [c])) = staysOpen c := by
  simp [endsLine, staysOpen]

/-- What follows a line end is the log of the next lines. -/
theorem writeMarks_after_boundary {linePrefix : Bytes} {c : Char} (hc : isBoundary c = true) {rest : List Char}
    (hcr : c = '\r' → rest.head? ≠ some '\n')
    (ih : ∀ lineOpen afterReturn before skip, skip ≤ (restOfLine rest).length →
      writeMarks u linePrefix lineOpen afterReturn skip (retryMarks u before rest) =
        (startFront linePrefix lineOpen afterReturn skip rest ++ ·) <$> writeLines u linePrefix before skip (splitlines rest)) :
    writeMarks u linePrefix (staysOpen c) (c = '\r') 0 (retryMarks u (some c) rest) =
      Prod.fst <$> renderSegments u linePrefix (staysOpen c) (splitlines rest) := by
  rw [ih _ _ _ 0 (Nat.zero_le _), renderSegments_fst linePrefix (staysOpen c) (some c) (word_boundary hc)]
  congr 2
  funext tail
  congr 1
  cases rest with
  | nil => rfl
  | cons d rest =>
    have hne : splitlines (d :: rest) ≠ [] := fun h => by cases linesBy_eq_nil h
    have hreturn : (decide (c = '\r') && decide (d = '\n')) = false := by
      rw [Bool.and_eq_false_iff]
      by_cases h : c = '\r'
      · right
        simpa using hcr h
      · left
        simpa using h
    rw [startFront, hreturn, Bool.or_false, if_neg hne]

theorem staysOpen_of_not_boundary {c : Char} (hc : ¬isBoundary c = true) : staysOpen c = true ∧ c ≠ '\r' ∧ c ≠ '\n' := by
  have hreturn : c ≠ '\r' := fun h => hc (by rw [h]; exact isBoundary_cr)
  have hfeed : c ≠ '\n' := fun h => hc (by rw [h]; exact isBoundary_lf)
  exact ⟨by simp [staysOpen, hreturn, hfeed], hreturn, hfeed⟩

theorem endsLine_cons {c : Char} (hc : ¬isBoundary c = true) (line : List Char) : endsLine (c :: line) = endsLine line := by
  obtain ⟨-, hreturn, hfeed⟩ := staysOpen_of_not_boundary hc
  cases line with
  | nil => simp [endsLine, hreturn, hfeed]
  | cons d line => simp [endsLine]

/-- A character that ends no line goes to the line of the characters after it. -/
theorem writeMarks_inside {linePrefix : Bytes} {c : Char} (hc : ¬isBoundary c = true) {rest line : List Char}
    {more : List (List Char)} (hline : ∃ ends, line = restOfLine rest ++ ends ∧ ∀ d ∈ ends, isBoundary d = true)
    (ih : ∀ skip, skip ≤ (restOfLine rest).length →
      writeMarks u linePrefix true false skip (retryMarks u (some c) rest) = writeLines u linePrefix (some c) skip (line :: more))
    {lineOpen afterReturn : Bool} {before : Option Char} {skip : Nat} (hskip : skip ≤ (restOfLine (c :: rest)).length) :
    writeMarks u linePrefix lineOpen afterReturn skip (retryMarks u before (c :: rest)) =
      (startFront linePrefix lineOpen afterReturn skip (c :: rest) ++ ·) <$>
        writeLines u linePrefix before skip ((c :: line) :: more) := by
  obtain ⟨hopen, hreturn, -⟩ := staysOpen_of_not_boundary hc
  obtain ⟨ends, hline, hends⟩ := hline
  rw [restOfLine_cons hc, List.length_cons] at hskip
  cases skip with
  | succ skip =>
    rw [retryMarks, writeMarks, hopen, decide_eq_false hreturn, ih skip (Nat.le_of_succ_le_succ hskip), writeLines, writeLines,
      endsLine_cons hc, normalizeFrom]
    simp [startFront]
  | zero =>
    have hlook : retryWaitAt u before (c :: line) = retryWaitAt u before (c :: restOfLine rest) := by
      rw [hline, ← List.cons_append, retryWaitAt_append_boundaries hends]
    rw [retryMarks, writeMarks, restOfLine_cons hc, writeLines, endsLine_cons hc, normalizeFrom, hlook, hopen,
      decide_eq_false hreturn]
    cases hfound : retryWaitAt u before (c :: restOfLine rest) with
    | none =>
      simp only [markText, markSkip, ih 0 (Nat.zero_le _), writeLines]
      cases normalizeFrom u (some c) 0 line with
      | error e => rfl
      | ok text =>
        cases renderSegments u linePrefix (!endsLine line) more with
        | error e => rfl
        | ok payload => simp [startFront, encodeText, pure, Except.pure, bind, Except.bind]
    | some wait =>
      obtain ⟨after, hsplit, -⟩ := retryWaitAt_eq_some.mp hfound
      have hle : wait.text.length - 1 ≤ (restOfLine rest).length := by
        have hlength := congrArg List.length hsplit
        rw [List.length_cons, List.length_append] at hlength
        omega
      simp only [markText, markSkip, ih _ hle, writeLines]
      cases replaceWait u wait with
      | error e => rfl
      | ok front =>
        cases normalizeFrom u (some c) (wait.text.length - 1) line with
        | error e => rfl
        | ok text =>
          cases renderSegments u linePrefix (!endsLine line) more with
          | error e => rfl
          | ok payload => simp [startFront, encodeText, pure, Except.pure, bind, Except.bind]

/-- The log of a text is that of its segments, from any position of the first of them. -/
theorem writeMarks_retryMarks (linePrefix : Bytes) (text : List Char) : ∀ lineOpen afterReturn before skip,
    skip ≤ (restOfLine text).length → writeMarks u linePrefix lineOpen afterReturn skip (retryMarks u before text) =
      (startFront linePrefix lineOpen afterReturn skip text ++ ·) <$>
        writeLines u linePrefix before skip (splitlines text) := by
  unfold splitlines
  fun_induction linesBy isBoundary text with
  | case1 =>
    intro lineOpen afterReturn before skip hskip
    cases skip <;> rfl
  | case2 rest ih =>
    intro lineOpen afterReturn before skip hskip
    rw [restOfLine_boundary isBoundary_cr, List.length_nil, Nat.le_zero] at hskip
    subst hskip
    have hrest := writeMarks_after_boundary isBoundary_lf (fun h => absurd h (by decide)) ih
    have hline : normalizeFrom u before 0 ['\r', '\n'] = .ok ['\r', '\n'] :=
      normalizeFrom_boundaries (by simp [isBoundary_cr, isBoundary_lf])
    have hopen : (!endsLine ['\r', '\n']) = staysOpen '\n' := endsLine_boundary '\n' ['\r']
    rw [writeMarks_boundary _ _ _ isBoundary_cr, writeMarks_boundary _ _ _ isBoundary_lf, hrest, writeLines, hline, hopen]
    unfold splitlines
    cases renderSegments u linePrefix (staysOpen '\n') (linesBy isBoundary rest) with
    | error e => rfl
    | ok payload => simp [lineFront, startFront, encodeText, pure, Except.pure, bind, Except.bind]
  | case3 c rest hcr hstop ih =>
    intro lineOpen afterReturn before skip hskip
    rw [restOfLine_boundary hstop, List.length_nil, Nat.le_zero] at hskip
    subst hskip
    have hreturn : c = '\r' → rest.head? ≠ some '\n' := by
      rintro rfl hhead
      obtain ⟨tail, rfl⟩ := List.head?_eq_some_iff.mp hhead
      exact hcr tail rfl rfl
    have hrest := writeMarks_after_boundary hstop hreturn ih
    have hline : normalizeFrom u before 0 [c] = .ok [c] := normalizeFrom_boundaries (by simpa using hstop)
    have hopen : (!endsLine [c]) = staysOpen c := endsLine_boundary c []
    rw [writeMarks_boundary _ _ _ hstop, hrest, writeLines, hline, hopen]
    unfold splitlines
    cases renderSegments u linePrefix (staysOpen c) (linesBy isBoundary rest) with
    | error e => rfl
    | ok payload => simp [startFront, pure, Except.pure, bind, Except.bind]
  | case4 c rest hcr hstop hnil ih =>
    intro lineOpen afterReturn before skip hskip
    have hrest := linesBy_eq_nil hnil
    subst hrest
    refine writeMarks_inside hstop ⟨[], rfl, by simp⟩ (fun skip _ => ?_) hskip
    cases skip <;> rfl
  | case5 c rest hcr hstop line lines hcons ih =>
    intro lineOpen afterReturn before skip hskip
    refine writeMarks_inside hstop (splitlines_head hcons) (fun skip hle => ?_) hskip
    have hfront : startFront linePrefix true false skip rest = [] := by
      unfold startFront
      split
      · simp [lineFront]
      · rfl
    rw [ih true false (some c) skip hle, hfront, hcons]
    simp

/-! ## Chunks -/

def openAfter (lineOpen : Bool) (text : List Char) : Bool := (text.getLast?.map staysOpen).getD lineOpen

def returnAfter (afterReturn : Bool) (text : List Char) : Bool := (text.getLast?.map fun c => decide (c = '\r')).getD afterReturn

theorem getD_last {α β : Type} (f : α → β) (a b : β) (x : α) (xs : List α) :
    ((x :: xs).getLast?.map f).getD a = ((x :: xs).getLast?.map f).getD b := by
  rw [List.getLast?_eq_some_getLast (List.cons_ne_nil x xs)]
  rfl

theorem openAfter_cons (lineOpen : Bool) (c : Char) (text : List Char) :
    openAfter lineOpen (c :: text) = openAfter (staysOpen c) text := by
  cases text with
  | nil => rfl
  | cons d text =>
    rw [openAfter, openAfter, List.getLast?_cons_cons]
    exact getD_last ..

theorem returnAfter_cons (afterReturn : Bool) (c : Char) (text : List Char) :
    returnAfter afterReturn (c :: text) = returnAfter (c = '\r') text := by
  cases text with
  | nil => rfl
  | cons d text =>
    rw [returnAfter, returnAfter, List.getLast?_cons_cons]
    exact getD_last ..

theorem renderSegments_snd (linePrefix : Bytes) (lines : List (List Char)) : ∀ lineOpen,
    renderSegments u linePrefix lineOpen lines =
      (fun payload => (payload, (lines.getLast?.map fun segment => !endsLine segment).getD lineOpen)) <$>
        (Prod.fst <$> renderSegments u linePrefix lineOpen lines) := by
  induction lines with
  | nil => exact fun lineOpen => rfl
  | cons line more ih =>
    intro lineOpen
    rw [renderSegments]
    cases normalizeRetryWaitUnitsInText u line with
    | error e => rfl
    | ok text =>
      have hmore := ih (!endsLine line)
      simp only [bind, Except.bind]
      cases hrest : renderSegments u linePrefix (!endsLine line) more with
      | error e => rfl
      | ok payload =>
        rw [hrest] at hmore
        have hsnd : payload.2 = (more.getLast?.map fun segment => !endsLine segment).getD (!endsLine line) :=
          congrArg Prod.snd (Except.ok.inj hmore)
        simp only [hsnd, Functor.map, Except.map, pure, Except.pure]
        cases more with
        | nil => rfl
        | cons next more => rw [List.getLast?_cons_cons, getD_last _ _ lineOpen]

theorem openAfter_segments (lineOpen : Bool) (text : List Char) :
    ((splitlines text).getLast?.map fun segment => !endsLine segment).getD lineOpen = openAfter lineOpen text := by
  rcases List.eq_nil_or_concat (splitlines text) with hnil | ⟨front, last, hlast⟩
  · have htext := linesBy_eq_nil hnil
    subst htext
    rfl
  · have htext : text = front.flatten ++ last := by
      rw [← @flatten_linesBy isBoundary text]
      unfold splitlines at hlast
      rw [hlast]
      simp
    have hne : last ≠ [] := @linesBy_ne_nil_of_mem isBoundary text last (by
      unfold splitlines at hlast
      rw [hlast]
      simp)
    obtain ⟨init, c, rfl⟩ := (List.eq_nil_or_concat last).resolve_left hne
    have hclosed := endsLine_boundary c init
    rw [hlast, htext]
    simpa [openAfter] using hclosed

theorem renderLines_eq (r : IncrementalLogRenderer) (hr : r.previousChunkEndedWithCarriageReturn = false)
    (text : List Char) : r.renderLines u text =
      (fun payload => (payload, { r with
        lineOpen := openAfter r.lineOpen text
        previousChunkEndedWithCarriageReturn := returnAfter false text })) <$>
        writeMarks u r.linePrefix r.lineOpen false 0 (retryMarks u none text) := by
  obtain ⟨linePrefix, decoder, lineOpen, afterReturn⟩ := r
  have hfalse : afterReturn = false := hr
  subst hfalse
  cases text with
  | nil => rfl
  | cons c text =>
    have hne : splitlines (c :: text) ≠ [] := fun h => by cases linesBy_eq_nil h
    have hlog : Prod.fst <$> renderSegments u linePrefix lineOpen (splitlines (c :: text)) =
        writeMarks u linePrefix lineOpen false 0 (retryMarks u none (c :: text)) := by
      rw [writeMarks_retryMarks linePrefix (c :: text) lineOpen false none 0 (Nat.zero_le _),
        renderSegments_fst linePrefix lineOpen none rfl, if_neg hne]
      simp [startFront]
    rw [← hlog, IncrementalLogRenderer.renderLines, renderLogTextSegments, renderSegments_snd, openAfter_segments]
    cases renderSegments u linePrefix lineOpen (splitlines (c :: text)) with
    | error e => rfl
    | ok payload =>
      have hreturn : decide ((c :: text).getLast? = some '\r') = returnAfter false (c :: text) := by
        simp [returnAfter, List.getLast?_eq_some_getLast (List.cons_ne_nil c text)]
      rw [← hreturn]
      rfl

/-- A text that comes to the renderer. -/
theorem renderText_eq (r : IncrementalLogRenderer)
    (hr : r.previousChunkEndedWithCarriageReturn = true → r.lineOpen = false) (text : List Char) :
    r.renderText u text =
      (fun payload => (payload, { r with
        lineOpen := openAfter r.lineOpen text
        previousChunkEndedWithCarriageReturn := returnAfter r.previousChunkEndedWithCarriageReturn text })) <$>
        writeMarks u r.linePrefix r.lineOpen r.previousChunkEndedWithCarriageReturn 0 (retryMarks u none text) := by
  obtain ⟨linePrefix, decoder, lineOpen, afterReturn⟩ := r
  unfold IncrementalLogRenderer.renderText
  cases afterReturn with
  | false => exact renderLines_eq ⟨linePrefix, decoder, lineOpen, false⟩ rfl text
  | true =>
    have hclosed : lineOpen = false := hr rfl
    subst hclosed
    simp only [if_true]
    split
    next => rfl
    next text =>
      -- the rest of a line end
      have hopen : staysOpen '\n' = false := rfl
      have hreturn : decide ('\n' = '\r') = false := rfl
      have hbyte : encodeText ['\n'] = [10] := by decide
      rw [renderLines_eq _ rfl, writeMarks_boundary _ _ _ isBoundary_lf, openAfter_cons, returnAfter_cons, hopen, hreturn,
        hbyte, ← @retryMarks_congr u none (some '\n') (word_boundary isBoundary_lf).symm]
      cases writeMarks u linePrefix false false 0 (retryMarks u none text) with
      | error e => rfl
      | ok payload => simp [lineFront, bind, Except.bind, pure, Except.pure]
    next hne hfeed =>
      cases text with
      | nil => exact absurd rfl hne
      | cons c text =>
        have hc : c ≠ '\n' := fun h => hfeed text (by rw [h])
        have hmarks : writeMarks u linePrefix false true 0 (retryMarks u none (c :: text)) =
            writeMarks u linePrefix false false 0 (retryMarks u none (c :: text)) := by
          simp [retryMarks, writeMarks, hc]
        rw [renderLines_eq _ rfl, hmarks, returnAfter_cons, returnAfter_cons]

/-- A match ends in the text it is found in. -/
theorem markSkip_le {before : Option Char} {c : Char} {rest : List Char} :
    markSkip (retryWaitAt u before (restOfLine (c :: rest))) ≤ rest.length := by
  cases hfound : retryWaitAt u before (restOfLine (c :: rest)) with
  | none => exact Nat.zero_le _
  | some wait =>
    obtain ⟨after, hsplit, -⟩ := retryWaitAt_eq_some.mp hfound
    have hlength := congrArg List.length hsplit
    have hline : (restOfLine (c :: rest)).length ≤ rest.length + 1 := ( List.takeWhile_prefix _).length_le
    rw [List.length_append] at hlength
    rw [markSkip]
    omega

theorem writeMarks_append (linePrefix : Bytes) (text : List Char) (later : List Mark) : ∀ lineOpen afterReturn before skip,
    skip ≤ text.length → writeMarks u linePrefix lineOpen afterReturn skip (retryMarks u before text ++ later) = (do
      let front ← writeMarks u linePrefix lineOpen afterReturn skip (retryMarks u before text)
      let tail ← writeMarks u linePrefix (openAfter lineOpen text) (returnAfter afterReturn text) 0 later
      return front ++ tail) := by
  induction text with
  | nil =>
    intro lineOpen afterReturn before skip hskip
    rw [List.length_nil, Nat.le_zero] at hskip
    subst hskip
    simp only [retryMarks, writeMarks, List.nil_append, openAfter, returnAfter, List.getLast?_nil, Option.map_none,
      Option.getD_none]
    cases writeMarks u linePrefix lineOpen afterReturn 0 later with
    | error e => rfl
    | ok tail => rfl
  | cons c rest ih =>
    intro lineOpen afterReturn before skip hskip
    rw [openAfter_cons, returnAfter_cons]
    cases skip with
    | succ skip =>
      exact ih _ _ (some c) skip (Nat.le_of_succ_le_succ hskip)
    | zero =>
      rw [retryMarks, List.cons_append, writeMarks, writeMarks, ih _ _ (some c) _ markSkip_le]
      cases markText u (c, retryWaitAt u before (restOfLine (c :: rest))) with
      | error e => rfl
      | ok text =>
        cases writeMarks u linePrefix (staysOpen c) (c = '\r') (markSkip (retryWaitAt u before (restOfLine (c :: rest))))
          (retryMarks u (some c) rest) with
        | error e => rfl
        | ok front =>
          cases writeMarks u linePrefix (openAfter (staysOpen c) rest) (returnAfter (c = '\r') rest) 0 later with
          | error e => rfl
          | ok tail => simp [bind, Except.bind, pure, Except.pure]

/-- The texts a stream is decoded to, chunk by chunk, with what is left at its end. -/
def chunkTexts : Option PendingChar → List Bytes → List (List Char)
  | pending, [] => [decodeFinal pending]
  | pending, chunk :: chunks => (decodeBytes pending chunk).1 :: chunkTexts (decodeBytes pending chunk).2 chunks

theorem renderAll_eq (chunks : List Bytes) : ∀ r : IncrementalLogRenderer,
    (r.previousChunkEndedWithCarriageReturn = true → r.lineOpen = false) → r.renderAll u chunks =
      writeMarks u r.linePrefix r.lineOpen r.previousChunkEndedWithCarriageReturn 0
        ((chunkTexts r.decoder chunks).flatMap (retryMarks u none)) := by
  induction chunks with
  | nil =>
    intro r hr
    have hfinish := @renderText_eq u { r with decoder := none } hr (decodeFinal r.decoder)
    rw [IncrementalLogRenderer.renderAll, IncrementalLogRenderer.finish, hfinish, chunkTexts]
    simp only [List.flatMap_cons, List.flatMap_nil, List.append_nil]
    cases writeMarks u r.linePrefix r.lineOpen r.previousChunkEndedWithCarriageReturn 0
      (retryMarks u none (decodeFinal r.decoder)) with
    | error e => rfl
    | ok payload => rfl
  | cons chunk chunks ih =>
    intro r hr
    have hrender := @renderText_eq u { r with decoder := (decodeBytes r.decoder chunk).2 } hr (decodeBytes r.decoder chunk).1
    rw [IncrementalLogRenderer.renderAll, IncrementalLogRenderer.render, hrender, chunkTexts, List.flatMap_cons,
      writeMarks_append _ _ _ _ _ _ _ (Nat.zero_le _)]
    cases writeMarks u r.linePrefix r.lineOpen r.previousChunkEndedWithCarriageReturn 0
      (retryMarks u none (decodeBytes r.decoder chunk).1) with
    | error e => rfl
    | ok payload =>
      have hnext : returnAfter r.previousChunkEndedWithCarriageReturn (decodeBytes r.decoder chunk).1 = true →
          openAfter r.lineOpen (decodeBytes r.decoder chunk).1 = false := by
        unfold returnAfter openAfter
        cases (decodeBytes r.decoder chunk).1.getLast? with
        | none => exact hr
        | some c =>
          intro hc
          have hreturn : c = '\r' := by simpa using hc
          subst hreturn
          rfl
      have hrest := ih { r with
        decoder := (decodeBytes r.decoder chunk).2
        lineOpen := openAfter r.lineOpen (decodeBytes r.decoder chunk).1
        previousChunkEndedWithCarriageReturn :=
          returnAfter r.previousChunkEndedWithCarriageReturn (decodeBytes r.decoder chunk).1 } hnext
      simp only [Functor.map, Except.map, bind, Except.bind]
      rw [hrest]

theorem decodeBytes_append (bytes more : Bytes) : ∀ pending, decodeBytes pending (bytes ++ more) =
    ((decodeBytes pending bytes).1 ++ (decodeBytes (decodeBytes pending bytes).2 more).1,
      (decodeBytes (decodeBytes pending bytes).2 more).2) := by
  induction bytes with
  | nil => exact fun pending => rfl
  | cons b bytes ih =>
    intro pending
    simp [decodeBytes, ih]

/-- The text of a whole stream. -/
def decodeAll (bytes : Bytes) : List Char := (decodeBytes none bytes).1 ++ decodeFinal (decodeBytes none bytes).2

theorem flatten_chunkTexts (chunks : List Bytes) : (chunkTexts none chunks).flatten = decodeAll chunks.flatten := by
  have hloop : ∀ pending, (chunkTexts pending chunks).flatten =
      (decodeBytes pending chunks.flatten).1 ++ decodeFinal (decodeBytes pending chunks.flatten).2 := by
    induction chunks with
    | nil => exact fun pending => by simp [chunkTexts, decodeBytes]
    | cons chunk chunks ih =>
      intro pending
      rw [chunkTexts, List.flatten_cons, ih, List.flatten_cons, decodeBytes_append, List.append_assoc]
  exact hloop none

theorem retryMarks_replacement (before : Option Char) (text : List Char) :
    retryMarks u before (text ++ [replacement]) = retryMarks u before text ++ retryMarks u none [replacement] := by
  have hlook : ∀ (before : Option Char) (text : List Char),
      retryWaitAt u before (restOfLine (text ++ [replacement])) = retryWaitAt u before (restOfLine text) := by
    intro before text
    unfold restOfLine
    rw [List.takeWhile_append]
    split
    next hall =>
      have hkept : [replacement].takeWhile (fun c => !isBoundary c) = [replacement] := by decide
      rw [hkept, ( List.takeWhile_prefix _).eq_of_length hall]
      exact retryWaitAt_append (by simp [sameLetter, replacement]) u.replacement_not_word
    next => rfl
  induction text generalizing before with
  | nil =>
    have hnil := hlook before []
    have hnone := hlook none []
    have hempty : restOfLine [] = [] := rfl
    rw [List.nil_append, hempty, retryWaitAt_nil] at hnil hnone
    simp only [List.nil_append, retryMarks, hnil, hnone]
  | cons c text ih =>
    have hcons := hlook before (c :: text)
    rw [List.cons_append] at hcons ⊢
    rw [retryMarks, retryMarks, ih, hcons, List.cons_append]

/-- A stream in one chunk is read as it stands. -/
theorem marks_whole (bytes : Bytes) : (chunkTexts none [bytes]).flatMap (retryMarks u none) = retryMarks u none (decodeAll bytes) := by
  simp only [chunkTexts, List.flatMap_cons, List.flatMap_nil, List.append_nil, decodeAll]
  unfold decodeFinal
  split
  · exact (retryMarks_replacement none _).symm
  · simp [retryMarks]

variable (u)

/-- The pattern finds the same waits in the texts of the chunks as in the lines of the whole stream. -/
def SameWaits (chunks : List Bytes) : Prop :=
  (chunkTexts none chunks).flatMap (retryMarks u none) = retryMarks u none (decodeAll chunks.flatten)

end Tables

end Crewplane.Process
