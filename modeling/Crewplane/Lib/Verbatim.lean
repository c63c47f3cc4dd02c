import Mathlib
/-
# Verbatim strings that are closed by several characters

A program text is code with verbatim strings in it. A verbatim string starts and
ends at a quote character; two quote characters in a row stand for one. The
grammar may know several quote characters, and then a writer that doubles only
one of them is read back correctly exactly when the others do not occur
(`lex_render_iff`).
-/
namespace Crewplane.Lib.Verbatim

inductive Token (α : Type)
  | code (c : α)
  | verbatim (text : List α)
  deriving DecidableEq, Repr

section Lexer

variable {α : Type} (isQuote : α → Bool) (denote : α → α → α)

/-- Reads a text, in code (`none`) or inside a verbatim string with the text read so far. -/
def lexFrom : Option (List α) → List α → Option (List (Token α))
  | none, [] => some []
  | some _, [] => none
  | none, c :: cs =>
    if isQuote c then lexFrom (some []) cs else (lexFrom none cs).map (Token.code c :: ·)
  | some text, [c] => if isQuote c then some [.verbatim text] else none
  | some text, c :: d :: cs =>
    if isQuote c then
      if isQuote d then lexFrom (some (text ++ [denote c d])) cs
      else (lexFrom none (d :: cs)).map (Token.verbatim text :: ·)
    else lexFrom (some (text ++ [c])) (d :: cs)

def lex (cs : List α) : Option (List (Token α)) := lexFrom isQuote denote none cs

/-- How many characters a token takes up in any text it was read from. -/
def width : Token α → Nat
  | .code _ => 1
  | .verbatim text => text.length + text.countP isQuote + 2

def totalWidth (ts : List (Token α)) : Nat := (ts.map (width isQuote)).sum

/-- What the string being read has taken up already, its opening quote included. -/
def pendingWidth : Option (List α) → Nat
  | none => 0
  | some text => text.length + text.countP isQuote + 1

/-- The tokens read from a text account for each of its characters. -/
theorem lexFrom_width (hdenote : ∀ c d, isQuote c → isQuote d → isQuote (denote c d)) {state : Option (List α)}
    {cs : List α} {ts : List (Token α)} (h : lexFrom isQuote denote state cs = some ts) :
    cs.length + pendingWidth isQuote state = totalWidth isQuote ts := by
  fun_induction lexFrom isQuote denote state cs generalizing ts with
  | case1 =>
    cases h
    rfl
  | case2 text => cases h
  | case3 c cs hc ih =>
    rw [← ih h]
    simp [pendingWidth]
  | case4 c cs hc ih =>
    obtain ⟨rest, hrest, rfl⟩ := Option.map_eq_some_iff.mp h
    have := ih hrest
    simp [totalWidth, width, pendingWidth] at this ⊢
    omega
  | case5 text c hc =>
    cases h
    simp [totalWidth, width, pendingWidth]
    omega
  | case6 text c hc => cases h
  | case7 text c d cs hc hd ih =>
    have hquote : isQuote (denote c d) = true := hdenote c d hc hd
    have := ih h
    simp [pendingWidth, hquote] at this ⊢
    omega
  | case8 text c d cs hc hd ih =>
    obtain ⟨rest, hrest, rfl⟩ := Option.map_eq_some_iff.mp h
    have := ih hrest
    simp [totalWidth, width, pendingWidth] at this ⊢
    omega
  | case9 text c d cs hc ih =>
    have := ih h
    simp [pendingWidth, hc] at this ⊢
    omega

end Lexer

/-! ## Writing tokens, with one of the quote characters doubled -/

section Writer

variable {α : Type} [DecidableEq α] (isQuote : α → Bool) (denote : α → α → α) (q : α)

/-- `text.replace(q, qq)`. -/
def double (text : List α) : List α := text.flatMap fun c => if c = q then [q, q] else [c]

def renderToken : Token α → List α
  | .code c => [c]
  | .verbatim text => q :: double q text ++ [q]

def render (ts : List (Token α)) : List α := ts.flatMap (renderToken q)

/-- Code holds no quote characters and no two strings touch. -/
def Separated : List (Token α) → Prop
  | [] => True
  | .code c :: ts => isQuote c = false ∧ Separated ts
  | .verbatim _ :: .verbatim _ :: _ => False
  | .verbatim _ :: ts => Separated ts

/-- The quote characters a writer of `q` leaves as they are. -/
def stray : Token α → Nat
  | .code _ => 0
  | .verbatim text => text.countP fun c => isQuote c && !decide (c = q)

@[simp] theorem double_cons (c : α) (text : List α) :
    double q (c :: text) = (if c = q then [q, q] else [c]) ++ double q text := by
  simp [double]

@[simp] theorem render_cons (t : Token α) (ts : List (Token α)) :
    render q (t :: ts) = renderToken q t ++ render q ts := by
  simp [render]

variable {isQuote denote q}

theorem double_length (hq : isQuote q = true) (text : List α) :
    (double q text).length + text.countP (fun c => isQuote c && !decide (c = q)) =
      text.length + text.countP isQuote := by
  induction text with
  | nil => rfl
  | cons c text ih =>
    simp only [double_cons, List.length_append, List.countP_cons, List.length_cons]
    by_cases hc : c = q
    · subst hc
      simp [hq]
      omega
    · cases hquote : isQuote c <;> simp [hc] <;> omega

/-- The text is shorter than its tokens by the stray quote characters. -/
theorem render_length (hq : isQuote q = true) (ts : List (Token α)) :
    (render q ts).length + (ts.map (stray isQuote q)).sum = totalWidth isQuote ts := by
  induction ts with
  | nil => rfl
  | cons t ts ih =>
    unfold totalWidth at ih ⊢
    rw [render_cons, List.length_append, List.map_cons, List.map_cons, List.sum_cons, List.sum_cons, ← ih]
    cases t with
    | code c =>
      simp [renderToken, stray, width]
      omega
    | verbatim text =>
      have := double_length hq text
      simp [renderToken, stray, width] at this ⊢
      omega

/-- Reading on from inside a string, up to its closing quote. -/
theorem lexFrom_double (hq : isQuote q = true) (hdenote : denote q q = q) {text : List α}
    (htext : ∀ c ∈ text, isQuote c = true → c = q) (read rest : List α)
    (hrest : ∀ c ∈ rest.head?, isQuote c = false) :
    lexFrom isQuote denote (some read) (double q text ++ q :: rest) =
      (lexFrom isQuote denote none rest).map (Token.verbatim (read ++ text) :: ·) := by
  induction text generalizing read with
  | nil =>
    cases rest with
    | nil => simp [double, lexFrom, hq]
    | cons c rest =>
      have hc : isQuote c = false := hrest c (by simp)
      simp [double, lexFrom, hq, hc]
  | cons c text ih =>
    have hih := ih (fun d hd => htext d (List.mem_cons_of_mem _ hd)) (read ++ [c])
    rw [List.append_assoc, List.singleton_append] at hih
    by_cases hc : c = q
    · subst hc
      rw [double_cons, if_pos rfl]
      simp only [List.cons_append, List.nil_append, lexFrom, hq, if_true, hdenote]
      exact hih
    · have hnot : isQuote c = false := by
        by_contra h
        exact hc (htext c (by simp) (by simpa using h))
      rw [double_cons, if_neg hc, List.singleton_append, List.cons_append, ← hih]
      cases hnext : double q text ++ q :: rest with
      | nil => simp at hnext
      | cons d ds => simp [lexFrom, hnot]

theorem head_render_of_separated {ts : List (Token α)} {text : List α}
    (h : Separated isQuote (.verbatim text :: ts)) : ∀ c ∈ (render q ts).head?, isQuote c = false := by
  intro c hc
  cases ts with
  | nil => simp [render] at hc
  | cons t ts =>
    cases t with
    | code d =>
      simp [renderToken] at hc
      subst hc
      exact h.1
    | verbatim _ => exact h.elim

omit [DecidableEq α] in
theorem Separated.tail {t : Token α} {ts : List (Token α)} (h : Separated isQuote (t :: ts)) :
    Separated isQuote ts := by
  cases t with
  | code c => exact h.2
  | verbatim text =>
    cases ts with
    | nil => trivial
    | cons t ts =>
      cases t with
      | code c => exact h
      | verbatim _ => exact h.elim

theorem lex_render (hq : isQuote q = true) (hdenote : denote q q = q) {ts : List (Token α)}
    (hsep : Separated isQuote ts) (hstray : ∀ text, .verbatim text ∈ ts → ∀ c ∈ text, isQuote c = true → c = q) :
    lex isQuote denote (render q ts) = some ts := by
  unfold lex
  induction ts with
  | nil => rfl
  | cons t ts ih =>
    have hih := ih hsep.tail fun text htext => hstray text (List.mem_cons_of_mem _ htext)
    rw [render_cons]
    cases t with
    | code c => simp [renderToken, lexFrom, hsep.1, hih]
    | verbatim text =>
      have hread := lexFrom_double hq hdenote (hstray text (by simp)) [] _ (head_render_of_separated (q := q) hsep)
      simp only [renderToken, List.cons_append, List.append_assoc, List.nil_append, lexFrom, hq, if_true] at hread ⊢
      rw [hread, hih]
      rfl

/-- **A separated text is read back as it was written exactly when no other quote
character occurs in its strings.** -/
theorem lex_render_iff (hq : isQuote q = true) (hdenote : ∀ c d, denote c d = c ∨ denote c d = d)
    {ts : List (Token α)} (hsep : Separated isQuote ts) :
    lex isQuote denote (render q ts) = some ts ↔
      ∀ text, .verbatim text ∈ ts → ∀ c ∈ text, isQuote c = true → c = q := by
  constructor
  · intro h text htext
    have hquote : ∀ c d, isQuote c → isQuote d → isQuote (denote c d) := by
      intro c d hc hd
      rcases hdenote c d with heq | heq
      · rwa [heq]
      · rwa [heq]
    have hwidth := lexFrom_width isQuote denote hquote h
    have hlength := render_length hq ts
    have hzero : (ts.map (stray isQuote q)).sum = 0 := by
      simp [pendingWidth] at hwidth
      omega
    have hnone : stray isQuote q (.verbatim text) = 0 :=
      List.sum_eq_zero_iff.mp hzero _ (List.mem_map_of_mem htext)
    simpa [stray, List.countP_eq_zero] using hnone
  · exact lex_render hq (or_self_iff.mp (hdenote q q)) hsep

end Writer

end Crewplane.Lib.Verbatim
