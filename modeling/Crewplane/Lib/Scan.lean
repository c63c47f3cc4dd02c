import Crewplane.Lib.Lines
/-
# Scanning

Leftmost, non-overlapping matches of a pattern in a text, as `re.finditer` finds
them, and the text with every match replaced, as `re.sub` writes it. A pattern
reads at the head of a text; the scanner keeps how many characters of the
current match are still to pass.
-/
namespace Crewplane.Lib

/-- What a pattern matches at the head of a text: the number of characters after the first, and the capture. -/
abbrev Pattern (α β : Type) := List α → Option (Nat × β)

structure Match (α β : Type) where
  start : Nat
  stop : Nat
  capture : β
  deriving DecidableEq, Repr

variable {α β : Type}

/-- `pattern.finditer(text)`, with the matches that start at or after `pos + skip`; `text` starts at `pos`. -/
def findIter (p : Pattern α β) : Nat → Nat → List α → List (Match α β)
  | _, _, [] => []
  | pos, skip + 1, _ :: rest => findIter p (pos + 1) skip rest
  | pos, 0, c :: rest =>
    match p (c :: rest) with
    | none => findIter p (pos + 1) 0 rest
    | some (n, capture) => ⟨pos, pos + n + 1, capture⟩ :: findIter p (pos + 1) n rest

/-- `pattern.sub(f, text)`, with the matches numbered from `k` on and `f` run in a monad. -/
def subM {m : Type → Type} [Monad m] (p : Pattern α β) (f : Nat → Match α β → m (List α)) :
    Nat → Nat → Nat → List α → m (List α)
  | _, _, _, [] => pure []
  | k, pos, skip + 1, _ :: rest => subM p f k (pos + 1) skip rest
  | k, pos, 0, c :: rest =>
    match p (c :: rest) with
    | none => do
      let tail ← subM p f k (pos + 1) 0 rest
      return c :: tail
    | some (n, capture) => do
      let value ← f k ⟨pos, pos + n + 1, capture⟩
      let tail ← subM p f (k + 1) (pos + 1) n rest
      return value ++ tail

/-- A pattern that never reads beyond the text. -/
def Pattern.Lawful (p : Pattern α β) : Prop :=
  ∀ (c : α) (rest : List α) (n : Nat) (capture : β), p (c :: rest) = some (n, capture) → n ≤ rest.length

section Cut

variable {p : Pattern α β}

@[simp] theorem findIter_nil (pos skip : Nat) : findIter p pos skip [] = [] := by cases skip <;> rfl

@[simp] theorem findIter_skip (pos skip : Nat) (c : α) (rest : List α) :
    findIter p pos (skip + 1) (c :: rest) = findIter p (pos + 1) skip rest := rfl

theorem findIter_cons (pos : Nat) (c : α) (rest : List α) :
    findIter p pos 0 (c :: rest) =
      match p (c :: rest) with
      | none => findIter p (pos + 1) 0 rest
      | some (n, capture) => ⟨pos, pos + n + 1, capture⟩ :: findIter p (pos + 1) n rest := rfl

theorem findIter_none {pos : Nat} {c : α} {rest : List α} (h : p (c :: rest) = none) :
    findIter p pos 0 (c :: rest) = findIter p (pos + 1) 0 rest := by
  rw [findIter_cons, h]

theorem findIter_some {pos n : Nat} {capture : β} {c : α} {rest : List α} (h : p (c :: rest) = some (n, capture)) :
    findIter p pos 0 (c :: rest) =
      ⟨pos, pos + n + 1, capture⟩ :: findIter p (pos + 1) n rest := by
  rw [findIter_cons, h]

section Monadic

variable {m : Type → Type} [Monad m] {f : Nat → Match α β → m (List α)}

@[simp] theorem subM_nil (k pos skip : Nat) : subM p f k pos skip [] = pure [] := by cases skip <;> rfl

@[simp] theorem subM_skip (k pos skip : Nat) (c : α) (rest : List α) :
    subM p f k pos (skip + 1) (c :: rest) = subM p f k (pos + 1) skip rest := rfl

theorem subM_cons (k pos : Nat) (c : α) (rest : List α) :
    subM p f k pos 0 (c :: rest) =
      match p (c :: rest) with
      | none => do
        let tail ← subM p f k (pos + 1) 0 rest
        return c :: tail
      | some (n, capture) => do
        let value ← f k ⟨pos, pos + n + 1, capture⟩
        let tail ← subM p f (k + 1) (pos + 1) n rest
        return value ++ tail := rfl

theorem subM_none {k pos : Nat} {c : α} {rest : List α} (h : p (c :: rest) = none) :
    subM p f k pos 0 (c :: rest) = (do let tail ← subM p f k (pos + 1) 0 rest; return c :: tail) := by
  rw [subM_cons, h]

theorem subM_some {k pos n : Nat} {capture : β} {c : α} {rest : List α} (h : p (c :: rest) = some (n, capture)) :
    subM p f k pos 0 (c :: rest) =
      (do
        let value ← f k ⟨pos, pos + n + 1, capture⟩
        let tail ← subM p f (k + 1) (pos + 1) n rest
        return value ++ tail) := by
  rw [subM_cons, h]

/-- Putting every match back leaves the text as it was. -/
theorem subM_self [LawfulMonad m] {p : Pattern α (List α)}
    (hraw : ∀ c rest n raw, p (c :: rest) = some (n, raw) → raw = (c :: rest).take (n + 1)) (text : List α) :
    ∀ k pos skip, subM p (fun _ found => (pure found.capture : m (List α))) k pos skip text = pure (text.drop skip) := by
  induction text with
  | nil => simp
  | cons c rest ih =>
    intro k pos skip
    cases skip with
    | succ skip => simpa using ih k (pos + 1) skip
    | zero =>
      cases h : p (c :: rest) with
      | none => simp [subM_none h, ih]
      | some found =>
        obtain ⟨n, raw⟩ := found
        have := hraw c rest n raw h
        simp [subM_some h, ih, this]

end Monadic

/-! ## The text around the matches -/

/-- A stretch of text without a match, or a match with its number. -/
inductive Piece (α β : Type) where
  | literal (text : List α)
  | found (k : Nat) (it : Match α β)
  deriving DecidableEq, Repr

/-- The pieces of `text` from `cursor` on, given the matches that follow; no piece of text is empty. -/
def pieces (text : List α) : Nat → Nat → List (Match α β) → List (Piece α β)
  | cursor, _, [] => if cursor < text.length then [.literal (text.drop cursor)] else []
  | cursor, k, found :: rest =>
    (if cursor < found.start then [.literal (slice text cursor found.start)] else []) ++
      .found k found :: pieces text found.stop (k + 1) rest

def Piece.fill {m : Type → Type} [Monad m] (f : Nat → Match α β → m (List α)) : Piece α β → m (List α)
  | .literal text => pure text
  | .found k it => f k it

theorem slice_succ {text rest : List α} {c : α} {cursor pos : Nat} (hpos : text.drop pos = c :: rest)
    (hcursor : cursor ≤ pos) : slice text cursor (pos + 1) = slice text cursor pos ++ [c] := by
  have hlt : pos < text.length := by
    have := congrArg List.length hpos
    simp only [List.length_drop, List.length_cons] at this
    omega
  have hget : text[pos] = c := by
    rw [List.drop_eq_getElem_cons hlt] at hpos
    exact (List.cons.inj hpos).1
  unfold slice
  rw [List.take_succ_eq_append_getElem hlt, List.drop_append_of_le_length, hget]
  rw [List.length_take]
  omega

/-- Filling the pieces between the matches is substitution. -/
theorem fill_pieces {m : Type → Type} [Monad m] [LawfulMonad m] (hp : p.Lawful) (f : Nat → Match α β → m (List α))
    (text : List α) : ∀ (suffix : List α) (pos skip cursor k : Nat), text.drop pos = suffix → skip ≤ suffix.length →
    cursor ≤ pos + skip → (skip ≠ 0 → cursor = pos + skip) →
    List.flatten <$> (pieces text cursor k (findIter p pos skip suffix)).mapM (Piece.fill f) =
      (slice text cursor (pos + skip) ++ ·) <$> subM p f k pos skip suffix := by
  intro suffix
  induction suffix with
  | nil =>
    intro pos skip cursor k hpos hskip hcursor _
    have hlen := List.drop_eq_nil_iff.mp hpos
    have hslice : slice text cursor (pos + skip) = text.drop cursor := by
      rw [slice, List.take_of_length_le (by omega)]
    rw [findIter_nil, pieces, subM_nil, hslice]
    split
    · simp [Piece.fill]
    · rename_i hle
      simp [List.drop_of_length_le (Nat.le_of_not_lt hle)]
  | cons c rest ih =>
    intro pos skip cursor k hpos hskip hcursor hat
    have hrest : text.drop (pos + 1) = rest := by rw [← List.drop_drop, hpos]; rfl
    cases skip with
    | succ skip =>
      have hstep := ih (pos + 1) skip cursor k hrest (by simpa using hskip) (by omega) (by omega)
      rw [findIter_skip, subM_skip, hstep, Nat.add_right_comm, Nat.add_assoc]
    | zero =>
      cases h : p (c :: rest) with
      | none =>
        have hstep := ih (pos + 1) 0 cursor k hrest (Nat.zero_le _) (by omega) (by omega)
        rw [findIter_none h, subM_none h, hstep, Nat.add_zero, slice_succ hpos (by omega)]
        simp
      | some found =>
        obtain ⟨n, capture⟩ := found
        have hstep := ih (pos + 1) n (pos + n + 1) (k + 1) hrest (hp c rest n capture h) (by omega) (by omega)
        have hempty : slice text (pos + n + 1) (pos + 1 + n) = [] := by
          unfold slice
          rw [List.drop_eq_nil_iff, List.length_take]
          omega
        rw [hempty] at hstep
        have htail : subM p f (k + 1) (pos + 1) n rest =
            List.flatten <$> (pieces text (pos + n + 1) (k + 1) (findIter p (pos + 1) n rest)).mapM (Piece.fill f) := by
          rw [hstep]
          simp
        rw [findIter_some h, subM_some h, pieces, htail]
        by_cases hlt : cursor < pos
        · simp [hlt, Piece.fill]
        · have hnil : slice text cursor pos = [] := by
            unfold slice
            rw [List.drop_eq_nil_iff, List.length_take]
            omega
          simp [hlt, hnil, Piece.fill]

end Cut

/-- Every match is one of the pattern at a suffix of the text. -/
theorem exists_of_mem_findIter {p : Pattern α β} {text : List α} : ∀ {pos skip : Nat} {found : Match α β},
    found ∈ findIter p pos skip text → ∃ c rest n, c :: rest <:+ text ∧ p (c :: rest) = some (n, found.capture) := by
  induction text with
  | nil =>
    intro pos skip found h
    simp at h
  | cons c rest ih =>
    intro pos skip found h
    have hlater : ∀ {pos skip}, found ∈ findIter p pos skip rest →
        ∃ c' rest' n, c' :: rest' <:+ c :: rest ∧ p (c' :: rest') = some (n, found.capture) := by
      intro pos skip h
      obtain ⟨c', rest', n, hsuffix, hsome⟩ := ih h
      exact ⟨c', rest', n, hsuffix.trans (List.suffix_cons c rest), hsome⟩
    cases skip with
    | succ skip => exact hlater (by simpa using h)
    | zero =>
      cases hp : p (c :: rest) with
      | none => exact hlater (by simpa [findIter_none hp] using h)
      | some it =>
        obtain ⟨n, capture⟩ := it
        rw [findIter_some hp] at h
        rcases List.mem_cons.mp h with rfl | h
        · exact ⟨c, rest, n, List.suffix_refl _, hp⟩
        · exact hlater h

theorem mem_pieces {text : List α} {ms : List (Match α β)} {found : Match α β} :
    ∀ {cursor k : Nat}, found ∈ ms → ∃ k', Piece.found k' found ∈ pieces text cursor k ms := by
  induction ms with
  | nil => simp
  | cons first rest ih =>
    intro cursor k h
    rw [pieces]
    rcases List.mem_cons.mp h with rfl | h
    · exact ⟨k, by simp⟩
    · obtain ⟨k', hk'⟩ := @ih first.stop (k + 1) h
      exact ⟨k', List.mem_append_right _ (List.mem_cons_of_mem _ hk')⟩

/-! ## Two passes in one -/

/-- `pattern.sub(f, text)`, for a replacement that reads the capture alone. -/
def sub (p : Pattern α β) (f : β → List α) : Nat → List α → List α
  | _, [] => []
  | skip + 1, _ :: rest => sub p f skip rest
  | 0, c :: rest =>
    match p (c :: rest) with
    | none => c :: sub p f 0 rest
    | some (n, capture) => f capture ++ sub p f n rest

section Passes

variable {γ : Type} {p : Pattern α β} {f : β → List α}

@[simp] theorem sub_nil (skip : Nat) : sub p f skip [] = [] := by cases skip <;> rfl

theorem sub_cons (c : α) (rest : List α) :
    sub p f 0 (c :: rest) =
      match p (c :: rest) with
      | none => c :: sub p f 0 rest
      | some (n, capture) => f capture ++ sub p f n rest := rfl

theorem sub_skip (skip : Nat) (text : List α) : sub p f skip text = sub p f 0 (text.drop skip) := by
  induction text generalizing skip with
  | nil => simp
  | cons c rest ih =>
    cases skip with
    | zero => rfl
    | succ skip => exact ih skip

theorem sub_none {c : α} {rest : List α} (h : p (c :: rest) = none) :
    sub p f 0 (c :: rest) = c :: sub p f 0 rest := by
  rw [sub_cons, h]

theorem sub_some {n : Nat} {capture : β} {c : α} {rest : List α} (h : p (c :: rest) = some (n, capture)) :
    sub p f 0 (c :: rest) = f capture ++ sub p f 0 (rest.drop n) := by
  rw [sub_cons, h, ← sub_skip n rest]

/-- A text that no match starts in stays as it is. -/
theorem sub_of_none {text : List α} (h : ∀ c rest, c :: rest <:+ text → p (c :: rest) = none) : sub p f 0 text = text := by
  induction text with
  | nil => exact sub_nil 0
  | cons c rest ih =>
    rw [sub_none (h c rest (List.suffix_refl _)), ih]
    intro c' rest' hsuffix
    exact h c' rest' (hsuffix.trans (List.suffix_cons c rest))

/-- The pattern that reads what `p` reads, and what `q` reads where `p` reads nothing. -/
def Pattern.orElse (p : Pattern α β) (q : Pattern α γ) : Pattern α (β ⊕ γ) := fun text =>
  match p text with
  | some (n, capture) => some (n, .inl capture)
  | none => (q text).map fun found => (found.1, .inr found.2)

/-- A text that no match starts in, whatever follows. -/
def Pattern.Inert (q : Pattern α γ) (text : List α) : Prop :=
  ∀ front back tail : List α, text = front ++ back → back ≠ [] → q (back ++ tail) = none

section Monadic

variable {m : Type → Type} [Monad m]

theorem subM_inert [LawfulMonad m] {q : Pattern α γ} {g : Nat → Match α γ → m (List α)} {text : List α}
    (h : q.Inert text) (k : Nat) (tail : List α) : ∀ pos,
    subM q g k pos 0 (text ++ tail) = (text ++ ·) <$> subM q g k (pos + text.length) 0 tail := by
  induction text with
  | nil => simp
  | cons c rest ih =>
    intro pos
    have hhead : q (c :: (rest ++ tail)) = none := h [] (c :: rest) tail rfl (by simp)
    have hrest : q.Inert rest := by
      intro front back tail hsplit hback
      exact h (c :: front) back tail (by rw [hsplit]; rfl) hback
    rw [List.cons_append, subM_none hhead, ih hrest]
    simp [Nat.add_assoc, Nat.add_comm 1]

/-- The number and the place of a match do not matter to a replacement that reads the capture alone. -/
theorem subM_capture {q : Pattern α γ} (g : γ → m (List α)) (text : List α) : ∀ k pos k' pos' skip,
    subM q (fun _ found => g found.capture) k pos skip text =
      subM q (fun _ found => g found.capture) k' pos' skip text := by
  induction text with
  | nil => simp
  | cons c rest ih =>
    intro k pos k' pos' skip
    cases skip with
    | succ skip => simpa using ih k (pos + 1) k' (pos' + 1) skip
    | zero =>
      cases h : q (c :: rest) with
      | none => rw [subM_none h, subM_none h, ih k (pos + 1) k' (pos' + 1) 0]
      | some found =>
        obtain ⟨n, capture⟩ := found
        rw [subM_some h, subM_some h, ih (k + 1) (pos + 1) (k' + 1) (pos' + 1) n]

theorem subM_drop {q : Pattern α γ} {g : Nat → Match α γ → m (List α)} (skip : Nat) (text : List α) : ∀ k pos,
    subM q g k pos skip text = subM q g k (pos + min skip text.length) 0 (text.drop skip) := by
  induction text generalizing skip with
  | nil => simp
  | cons c rest ih =>
    intro k pos
    cases skip with
    | zero => simp
    | succ skip =>
      rw [subM_skip, ih skip, List.drop_succ_cons, List.length_cons]
      congr 1
      omega

/-- A pass of `p` and then a pass of `q` is one pass that reads both, when no match of `q` starts in what
`p` writes, and the pass of `p` neither breaks a match of `q` nor makes one. -/
theorem subM_sub [LawfulMonad m] {q : Pattern α γ} (g : γ → m (List α)) {text : List α}
    (hinert : ∀ c rest n capture, p (c :: rest) = some (n, capture) → q.Inert (f capture))
    (hkeep : ∀ c rest n capture, c :: rest <:+ text → p (c :: rest) = none → q (c :: rest) = some (n, capture) →
      n ≤ rest.length ∧ sub p f 0 rest = rest.take n ++ sub p f 0 (rest.drop n) ∧
        q (c :: sub p f 0 rest) = some (n, capture))
    (hnone : ∀ c rest, p (c :: rest) = none → q (c :: rest) = none → q (c :: sub p f 0 rest) = none) :
    ∀ k pos, subM q (fun _ found => g found.capture) k pos 0 (sub p f 0 text) =
      subM (p.orElse q) (fun _ found => found.capture.elim (fun capture => pure (f capture)) g) k pos 0 text := by
  -- on the length: a match sends the scan to a later suffix
  induction hlen : text.length using Nat.strong_induction_on generalizing text with
  | _ len ih =>
    intro k pos
    cases text with
    | nil => simp
    | cons c rest =>
      have hlater : ∀ n k pos, subM q (fun _ found => g found.capture) k pos 0 (sub p f 0 (rest.drop n)) =
          subM (p.orElse q) (fun _ found => found.capture.elim (fun capture => pure (f capture)) g) k pos 0
            (rest.drop n) := by
        intro n k pos
        have hsuffix : rest.drop n <:+ c :: rest := (List.drop_suffix n rest).trans (List.suffix_cons c rest)
        refine ih (rest.drop n).length ?_ (fun c' rest' n' capture h => ?_) rfl k pos
        · simp only [List.length_cons, List.length_drop] at hlen ⊢
          omega
        · exact hkeep c' rest' n' capture (h.trans hsuffix)
      cases hp : p (c :: rest) with
      | some found =>
        obtain ⟨n, capture⟩ := found
        have hboth : p.orElse q (c :: rest) = some (n, .inl capture) := by simp [Pattern.orElse, hp]
        rw [sub_some hp, subM_some hboth, subM_inert (hinert c rest n capture hp), hlater n, subM_drop n rest,
          subM_capture _ _ k _ (k + 1) (pos + 1 + min n rest.length)]
        simp
      | none =>
        cases hq : q (c :: rest) with
        | none =>
          have hboth : p.orElse q (c :: rest) = none := by simp [Pattern.orElse, hp, hq]
          have hrest := hlater 0 k (pos + 1)
          rw [List.drop_zero] at hrest
          rw [sub_none hp, subM_none (hnone c rest hp hq), subM_none hboth, hrest]
        | some found =>
          obtain ⟨n, capture⟩ := found
          have hboth : p.orElse q (c :: rest) = some (n, .inr capture) := by simp [Pattern.orElse, hp, hq]
          obtain ⟨hn, hsub, hmatch⟩ := hkeep c rest n capture (List.suffix_refl _) hp hq
          rw [sub_none hp, subM_some hmatch, subM_some hboth, hsub,
            subM_drop n (rest.take n ++ sub p f 0 (rest.drop n)), List.drop_left' (List.length_take_of_le hn), hlater n,
            subM_drop n rest, subM_capture _ _ (k + 1) _ (k + 1) (pos + 1 + min n rest.length)]
          rfl

end Monadic

/-- What a replacement writes into a log, it writes for every match. -/
theorem run_subM {γ : Type} {q : Pattern α β} {f : Nat → Match α β → StateM (List γ) (List α)} {w : β → List γ}
    (hf : ∀ k found s, ((f k found).run s).2 = s ++ w found.capture) (text : List α) : ∀ k pos skip s,
    ((subM q f k pos skip text).run s).2 = s ++ (findIter q pos skip text).flatMap fun found => w found.capture := by
  induction text with
  | nil =>
    intro k pos skip s
    simp [pure, StateT.pure, StateT.run]
  | cons c rest ih =>
    intro k pos skip s
    cases skip with
    | succ skip => rw [subM_skip, findIter_skip, ih]
    | zero =>
      cases h : q (c :: rest) with
      | none =>
        rw [subM_none h, findIter_none h, ← ih k (pos + 1) 0 s]
        rfl
      | some found =>
        obtain ⟨n, capture⟩ := found
        rw [subM_some h, findIter_some h, List.flatMap_cons, ← List.append_assoc,
          ← hf k ⟨pos, pos + n + 1, capture⟩ s, ← ih (k + 1) (pos + 1) n]
        rfl

end Passes

end Crewplane.Lib
