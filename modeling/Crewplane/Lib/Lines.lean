import Mathlib
/-
# Lines

`linesBy stop` cuts a text after each character in `stop`, with CR LF kept
together, and keeps the line ends (`str.splitlines(keepends=True)` when `stop`
holds Python's line boundaries). A coarser cut is refined by a finer one
(`linesBy_flatMap`), and the two agree on a prefix of lines exactly when that
prefix has no boundary of the finer cut inside it (`take_linesBy_of_clean`).
-/
namespace Crewplane.Lib

/-- Cuts after every `stop` character; `stop` is expected to hold CR and LF. -/
def linesBy (stop : Char → Bool) : List Char → List (List Char)
  | [] => []
  | '\r' :: '\n' :: rest => ['\r', '\n'] :: linesBy stop rest
  | c :: rest =>
    if stop c then [c] :: linesBy stop rest
    else match linesBy stop rest with
      | [] => [[c]]
      | line :: lines => (c :: line) :: lines

attribute [elab_as_elim] linesBy.induct_unfolding
attribute [simp] linesBy.eq_1 linesBy.eq_2

section Lines

variable {stop fine : Char → Bool}

theorem linesBy_cons (c : Char) (rest : List Char) (h : ∀ tail, c :: rest ≠ '\r' :: '\n' :: tail) :
    linesBy stop (c :: rest) =
      if stop c then [c] :: linesBy stop rest
      else match linesBy stop rest with
        | [] => [[c]]
        | line :: lines => (c :: line) :: lines := by
  rw [linesBy.eq_def]
  split
  · rename_i heq
    cases heq
  · rename_i tail heq
    exact absurd heq (h tail)
  · rename_i heq
    cases heq
    rfl

@[simp] theorem flatten_linesBy (text : List Char) : (linesBy stop text).flatten = text := by
  fun_induction linesBy stop text with
  | case1 => rfl
  | case2 rest ih => simp [ih]
  | case3 c rest hcr hstop ih => simp [ih]
  | case4 c rest hcr hstop hnil ih =>
    rw [hnil] at ih
    simpa using ih
  | case5 c rest hcr hstop line lines hcons ih =>
    rw [hcons] at ih
    simpa using ih

theorem linesBy_ne_nil_of_mem {text : List Char} : ∀ line ∈ linesBy stop text, line ≠ [] := by
  fun_induction linesBy stop text with
  | case1 => simp
  | case2 rest ih => simpa using ih
  | case3 c rest hcr hstop ih => simpa using ih
  | case4 c rest hcr hstop hnil ih => simp
  | case5 c rest hcr hstop line lines hcons ih =>
    rw [hcons] at ih
    intro l hl
    rcases List.mem_cons.mp hl with rfl | hl
    · simp
    · exact ih l (List.mem_cons_of_mem _ hl)

theorem linesBy_eq_nil {text : List Char} (h : linesBy stop text = []) : text = [] := by
  have := @flatten_linesBy stop text
  rw [h] at this
  exact this.symm

/-- The finer cut of a text is the finer cut of each line of a coarser one. -/
theorem linesBy_flatMap (hfine : ∀ c, stop c = true → fine c = true) (text : List Char) :
    linesBy fine text = (linesBy stop text).flatMap (linesBy fine) := by
  fun_induction linesBy stop text with
  | case1 => rfl
  | case2 rest ih => simp [linesBy, ih]
  | case3 c rest hcr hstop ih =>
    have hcr' : ∀ tail, c :: rest ≠ '\r' :: '\n' :: tail := by grind
    rw [linesBy_cons c rest hcr', if_pos (hfine c hstop), ih, List.flatMap_cons]
    have hone : linesBy fine [c] = [[c]] := by
      rw [linesBy_cons c [] (by simp), if_pos (hfine c hstop)]
      rfl
    rw [hone]
    rfl
  | case4 c rest hcr hstop hnil ih =>
    rw [linesBy_eq_nil hnil]
    simp
  | case5 c rest hcr hstop line lines hcons ih =>
    have hcr' : ∀ tail, c :: rest ≠ '\r' :: '\n' :: tail := by grind
    rw [hcons, List.flatMap_cons] at ih
    rw [List.flatMap_cons]
    have hrest : rest = line ++ lines.flatten := by
      rw [← @flatten_linesBy stop rest, hcons]
      rfl
    have hline : line ≠ [] := @linesBy_ne_nil_of_mem stop rest line (by rw [hcons]; simp)
    have hcrline : ∀ tail, c :: line ≠ '\r' :: '\n' :: tail := by
      intro tail heq
      cases heq
      exact hcr' (tail ++ lines.flatten) (by rw [hrest]; rfl)
    rw [linesBy_cons c rest hcr', linesBy_cons c line hcrline, ih]
    by_cases hc : fine c = true
    · simp [hc]
    · rw [if_neg hc, if_neg hc]
      cases hl : linesBy fine line with
      | nil => exact absurd (linesBy_eq_nil hl) hline
      | cons first others => rfl

/-- Where a text has no boundary of one kind only before its last character, the two cuts agree. -/
theorem linesBy_congr {text : List Char} (h : ∀ c ∈ text.dropLast, fine c = stop c) :
    linesBy fine text = linesBy stop text := by
  fun_induction linesBy stop text with
  | case1 => rfl
  | case2 rest ih =>
    rw [linesBy, ih]
    intro c hc
    refine h c ?_
    cases rest with
    | nil => simp at hc
    | cons d rest => simp [hc]
  | case3 c rest hcr hstop ih =>
    have hcr' : ∀ tail, c :: rest ≠ '\r' :: '\n' :: tail := by grind
    cases rest with
    | nil =>
      rw [linesBy_cons c [] (by simp)]
      split <;> rfl
    | cons d rest =>
      rw [linesBy_cons c _ hcr', h c (by simp), if_pos hstop, ih]
      intro e he
      exact h e (by simp [he])
  | case4 c rest hcr hstop hnil ih =>
    rw [linesBy_eq_nil hnil, linesBy_cons c [] (by simp)]
    split <;> rfl
  | case5 c rest hcr hstop line lines hcons ih =>
    have hcr' : ∀ tail, c :: rest ≠ '\r' :: '\n' :: tail := by grind
    cases rest with
    | nil => simp [linesBy] at hcons
    | cons d rest =>
      rw [linesBy_cons c _ hcr', h c (by simp), if_neg hstop, ih, hcons]
      intro e he
      exact h e (by simp [he])

/-- Consecutive lines from the front are the lines of their text. -/
theorem linesBy_flatten_front {text : List Char} {front back : List (List Char)}
    (h : linesBy stop text = front ++ back) : linesBy stop front.flatten = front := by
  fun_induction linesBy stop text generalizing front with
  | case1 =>
    obtain ⟨rfl, rfl⟩ := List.append_eq_nil_iff.mp h.symm
    rfl
  | case2 rest ih =>
    cases front with
    | nil => rfl
    | cons first front =>
      obtain ⟨rfl, hrest⟩ := List.cons.inj h
      simp [linesBy, ih hrest]
  | case3 c rest hcr hstop ih =>
    cases front with
    | nil => rfl
    | cons first front =>
      obtain ⟨rfl, hrest⟩ := List.cons.inj h
      have htext : rest = front.flatten ++ back.flatten := by
        rw [← @flatten_linesBy stop rest, hrest]
        exact List.flatten_append
      rw [List.flatten_cons, List.singleton_append, linesBy_cons, if_pos hstop, ih hrest]
      intro tail heq
      obtain ⟨rfl, hflat⟩ := List.cons.inj heq
      exact hcr (tail ++ back.flatten) rfl (by rw [htext, hflat]; rfl)
  | case4 c rest hcr hstop hnil ih =>
    cases front with
    | nil => rfl
    | cons first front =>
      obtain ⟨rfl, hrest⟩ := List.cons.inj h
      obtain ⟨rfl, rfl⟩ := List.append_eq_nil_iff.mp hrest.symm
      rw [List.flatten_cons, List.flatten_nil, List.append_nil, linesBy_cons c [] (by simp), if_neg hstop]
      rfl
  | case5 c rest hcr hstop line lines hcons ih =>
    cases front with
    | nil => rfl
    | cons first front =>
      obtain ⟨rfl, hrest⟩ := List.cons.inj h
      have hfront := @ih (line :: front) (by rw [hcons, hrest]; rfl)
      have htext : rest = (line :: front).flatten ++ back.flatten := by
        rw [← @flatten_linesBy stop rest, hcons, hrest, ← List.flatten_append]
        rfl
      rw [List.flatten_cons, List.cons_append, ← List.flatten_cons, linesBy_cons, if_neg hstop, hfront]
      intro tail heq
      obtain ⟨rfl, hflat⟩ := List.cons.inj heq
      exact hcr (tail ++ back.flatten) rfl (by rw [htext, hflat]; rfl)

/-- And so are consecutive lines from the back. -/
theorem linesBy_flatten_tail {text first : List Char} {back : List (List Char)}
    (h : linesBy stop text = first :: back) : linesBy stop back.flatten = back := by
  fun_induction linesBy stop text generalizing first back with
  | case1 => cases h
  | case2 rest ih =>
    obtain ⟨rfl, rfl⟩ := List.cons.inj h
    rw [flatten_linesBy]
  | case3 c rest hcr hstop ih =>
    obtain ⟨rfl, rfl⟩ := List.cons.inj h
    rw [flatten_linesBy]
  | case4 c rest hcr hstop hnil ih =>
    obtain ⟨rfl, rfl⟩ := List.cons.inj h
    rfl
  | case5 c rest hcr hstop line lines hcons ih =>
    obtain ⟨rfl, rfl⟩ := List.cons.inj h
    exact ih hcons

theorem linesBy_flatten_back {text : List Char} {front back : List (List Char)}
    (h : linesBy stop text = front ++ back) : linesBy stop back.flatten = back := by
  induction front generalizing text with
  | nil =>
    rw [List.nil_append] at h
    rw [← h, flatten_linesBy]
  | cons first front ih => exact ih (linesBy_flatten_tail h)

/-! ## Slices -/

/-- `lines[a:b]`. -/
def slice {α : Type} (lines : List α) (a b : Nat) : List α := (lines.take b).drop a

/-- A slice of the lines of a text is the lines of its own text. -/
theorem linesBy_slice (text : List Char) (a b : Nat) :
    linesBy stop (slice (linesBy stop text) a b).flatten = slice (linesBy stop text) a b := by
  have hfront := linesBy_flatten_front (List.take_append_drop b (linesBy stop text)).symm
  exact linesBy_flatten_back (hfront.trans (List.take_append_drop a _).symm)

/-- No boundary of the finer cut lies inside the first `k` lines. -/
def CleanUpTo (fine stop : Char → Bool) (text : List Char) (k : Nat) : Prop :=
  ∀ c ∈ ((linesBy stop text).take k).flatten.dropLast, fine c = stop c

theorem take_linesBy_of_clean (hfine : ∀ c, stop c = true → fine c = true) {text : List Char} {k : Nat}
    (h : CleanUpTo fine stop text k) : (linesBy fine text).take k = (linesBy stop text).take k := by
  have hlines : linesBy fine ((linesBy stop text).take k).flatten = (linesBy stop text).take k := by
    rw [linesBy_congr h]
    exact linesBy_flatten_front (List.take_append_drop k _).symm
  have hsplit : linesBy fine text =
      (linesBy stop text).take k ++ ((linesBy stop text).drop k).flatMap (linesBy fine) := by
    rw [linesBy_flatMap hfine text]
    conv_lhs => rw [← List.take_append_drop k (linesBy stop text), List.flatMap_append]
    congr 1
    rw [linesBy_flatMap hfine, linesBy_flatten_front (List.take_append_drop k _).symm] at hlines
    exact hlines
  rw [hsplit]
  rcases Nat.le_total k (linesBy stop text).length with hk | hk
  · rw [List.take_append_of_le_length (by simp [hk]), List.take_take, Nat.min_self]
  · rw [List.take_of_length_le hk, List.drop_eq_nil_of_le hk]
    simp [List.take_of_length_le hk]

theorem slice_linesBy_of_clean (hfine : ∀ c, stop c = true → fine c = true) {text : List Char} {a b : Nat}
    (h : CleanUpTo fine stop text b) : slice (linesBy fine text) a b = slice (linesBy stop text) a b := by
  unfold slice
  rw [take_linesBy_of_clean hfine h]

/-- The text after a clean prefix of lines does not depend on the cut. -/
theorem drop_linesBy_of_clean (hfine : ∀ c, stop c = true → fine c = true) {text : List Char} {k : Nat}
    (h : CleanUpTo fine stop text k) : ((linesBy fine text).drop k).flatten = ((linesBy stop text).drop k).flatten := by
  have hboth : ((linesBy fine text).take k).flatten ++ ((linesBy fine text).drop k).flatten =
      ((linesBy stop text).take k).flatten ++ ((linesBy stop text).drop k).flatten := by
    rw [← List.flatten_append, ← List.flatten_append, List.take_append_drop, List.take_append_drop, flatten_linesBy,
      flatten_linesBy]
  rw [take_linesBy_of_clean hfine h] at hboth
  exact List.append_cancel_left hboth

theorem CleanUpTo.mono {text : List Char} {j k : Nat} (hjk : j ≤ k) (h : CleanUpTo fine stop text k) :
    CleanUpTo fine stop text j := by
  intro c hc
  refine h c ?_
  have htake : (linesBy stop text).take k = (linesBy stop text).take j ++ ((linesBy stop text).take k).drop j := by
    conv_lhs => rw [← List.take_append_drop j ((linesBy stop text).take k), List.take_take, Nat.min_eq_left hjk]
  rw [htake, List.flatten_append]
  cases hrest : (((linesBy stop text).take k).drop j).flatten with
  | nil => simpa using hc
  | cons d rest =>
    rw [List.dropLast_append_cons]
    exact List.mem_append_left _ (List.mem_of_mem_dropLast hc)

end Lines

/-! ## The two cuts -/

/-- The line ends of CommonMark: LF, CR and CR LF. -/
def isLineEnd (c : Char) : Bool := c = '\n' || c = '\r'

/-- The line boundaries of `str.splitlines`. -/
def isBoundary (c : Char) : Bool :=
  let n := c.toNat
  (10 ≤ n && n ≤ 13) || (28 ≤ n && n ≤ 30) || n = 0x85 || n = 0x2028 || n = 0x2029

/-- The lines a CommonMark parser counts. -/
def sourceLines (text : List Char) : List (List Char) := linesBy isLineEnd text

/-- `text.splitlines(keepends=True)`. -/
def splitlines (text : List Char) : List (List Char) := linesBy isBoundary text

theorem isBoundary_of_isLineEnd (c : Char) (h : isLineEnd c = true) : isBoundary c = true := by
  simp only [isLineEnd, Bool.or_eq_true, decide_eq_true_eq] at h
  rcases h with rfl | rfl <;> decide

end Crewplane.Lib
