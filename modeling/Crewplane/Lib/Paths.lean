import Crewplane.Lib.Text
/-
# Path texts

Texts that are cut at `/`, the two-character sequences they contain, and the normalisations by which a
path component is made of any text: replacing the characters outside a set, stripping
the ends, and collapsing repeated dots.
-/
namespace Crewplane.Lib

variable {p safe : Char → Bool}

/-! ## Sequences of two characters -/

/-- `xy in text`. -/
def hasPair (x y : Char) : List Char → Bool
  | [] => false
  | [_] => false
  | a :: b :: rest => (a = x && b = y) || hasPair x y (b :: rest)

theorem hasPair_cons (x y a : Char) (rest : List Char) :
    hasPair x y (a :: rest) = ((a = x && rest.head? = some y) || hasPair x y rest) := by
  cases rest with
  | nil => simp [hasPair]
  | cons b rest => simp [hasPair]

theorem hasPair_append (x y : Char) (u v : List Char) :
    hasPair x y (u ++ v) = (hasPair x y u || hasPair x y v || (u.getLast? = some x && v.head? = some y)) := by
  induction u with
  | nil => simp [hasPair]
  | cons a u ih =>
    rw [List.cons_append, hasPair_cons, hasPair_cons, ih]
    cases u with
    | nil =>
      simp [hasPair]
      cases hasPair x y v <;> simp
    | cons b u =>
      simp [List.getLast?_cons_cons, Bool.or_assoc]

/-! ## Stripping -/

def lstrip (p : Char → Bool) (text : List Char) : List Char := text.dropWhile p

def rstrip (p : Char → Bool) (text : List Char) : List Char := (text.reverse.dropWhile p).reverse

/-- `text.strip(chars)`. -/
def stripChar (p : Char → Bool) (text : List Char) : List Char := rstrip p (lstrip p text)

theorem lstrip_eq_self {text : List Char} (h : ∀ c ∈ text.head?, p c = false) : lstrip p text = text := by
  cases text with
  | nil => rfl
  | cons c rest => simp [lstrip, h c rfl]

theorem rstrip_eq_self {text : List Char} (h : ∀ c ∈ text.getLast?, p c = false) : rstrip p text = text := by
  have hrev : lstrip p text.reverse = text.reverse := by
    apply lstrip_eq_self
    simpa using h
  rw [rstrip, ← lstrip, hrev, List.reverse_reverse]

theorem head?_lstrip {text : List Char} : ∀ c ∈ (lstrip p text).head?, p c = false := by
  intro c hc
  have hnot := List.head?_dropWhile_not p text
  rw [lstrip] at hc
  rw [Option.mem_def.mp hc] at hnot
  simpa using hnot

theorem getLast?_rstrip {text : List Char} : ∀ c ∈ (rstrip p text).getLast?, p c = false := by
  intro c hc
  rw [rstrip, List.getLast?_reverse] at hc
  exact head?_lstrip c hc

theorem rstrip_front (text : List Char) : rstrip p text <+: text := by
  rw [rstrip, ← List.reverse_suffix, List.reverse_reverse]
  exact List.dropWhile_suffix p

theorem lstrip_suffix (text : List Char) : lstrip p text <:+ text := List.dropWhile_suffix p

/-- Stripping stops at a character outside the set. -/
theorem lstrip_append {u w : List Char} (h : ∀ c ∈ w.head?, p c = false) :
    lstrip p (u ++ w) = lstrip p u ++ w := by
  induction u with
  | nil => exact lstrip_eq_self h
  | cons a u ih =>
    by_cases ha : p a = true
    · simpa [lstrip, ha] using ih
    · simp [lstrip, ha]

theorem rstrip_ne_nil {text : List Char} {c : Char} (hmem : c ∈ text) (h : p c = false) : rstrip p text ≠ [] := by
  intro hnil
  have hdrop : text.reverse.dropWhile p = [] := by simpa [rstrip] using hnil
  have hall := List.dropWhile_eq_nil_iff.mp hdrop c (List.mem_reverse.mpr hmem)
  rw [h] at hall
  cases hall

/-! ## Replacing runs of unsafe characters -/

/-- `re.sub("[^safe]+", "-", text)`; the flag says that the run has its dash already. -/
def dashRunsFrom (safe : Char → Bool) : Bool → List Char → List Char
  | _, [] => []
  | inRun, c :: rest =>
    if safe c then c :: dashRunsFrom safe false rest
    else if inRun then dashRunsFrom safe true rest else '-' :: dashRunsFrom safe true rest

def dashRuns (safe : Char → Bool) (text : List Char) : List Char := dashRunsFrom safe false text

theorem dashRunsFrom_safe {text : List Char} (h : ∀ c ∈ text, safe c = true) (inRun : Bool) :
    dashRunsFrom safe inRun text = text := by
  induction text generalizing inRun with
  | nil => rfl
  | cons c rest ih =>
    rw [dashRunsFrom, if_pos (h c List.mem_cons_self), ih fun d hd => h d (List.mem_cons_of_mem c hd)]

theorem dashRunsFrom_append {u w : List Char} (hw : ∀ c ∈ w, safe c = true) (inRun : Bool) :
    dashRunsFrom safe inRun (u ++ w) = dashRunsFrom safe inRun u ++ w := by
  induction u generalizing inRun with
  | nil => exact dashRunsFrom_safe hw inRun
  | cons a u ih =>
    simp only [List.cons_append, dashRunsFrom, ih]
    split
    · rfl
    · split <;> rfl

theorem mem_dashRunsFrom {text : List Char} (hdash : safe '-' = true) (inRun : Bool) :
    ∀ c ∈ dashRunsFrom safe inRun text, safe c = true := by
  induction text generalizing inRun with
  | nil => simp [dashRunsFrom]
  | cons a text ih =>
    intro c hc
    rw [dashRunsFrom] at hc
    split at hc
    · rename_i ha
      rcases List.mem_cons.mp hc with rfl | hc
      · exact ha
      · exact ih false c hc
    · split at hc
      · exact ih true c hc
      · rcases List.mem_cons.mp hc with rfl | hc
        · exact hdash
        · exact ih true c hc

/-! ## Collapsing dots -/

/-- `text.replace("..", ".")`. -/
def halveDots : List Char → List Char
  | '.' :: '.' :: rest => '.' :: halveDots rest
  | c :: rest => c :: halveDots rest
  | [] => []

/-- `while ".." in text: text = text.replace("..", ".")`, for at most so many rounds. -/
def collapseDotsFrom : Nat → List Char → List Char
  | 0, text => text
  | n + 1, text => if hasPair '.' '.' text then collapseDotsFrom n (halveDots text) else text

/-- The loop: each round makes the text shorter. -/
def collapseDots (text : List Char) : List Char := collapseDotsFrom text.length text

theorem halveDots_nil : halveDots [] = [] := rfl

theorem halveDots_dots (rest : List Char) : halveDots ('.' :: '.' :: rest) = '.' :: halveDots rest := rfl

theorem halveDots_cons {c : Char} {rest : List Char} (h : ¬ (c = '.' ∧ rest.head? = some '.')) :
    halveDots (c :: rest) = c :: halveDots rest := by
  rw [halveDots]
  rintro rest' rfl rfl
  exact h ⟨rfl, rfl⟩

/-- One round of the loop, case by case. -/
theorem halveDots_induct {motive : List Char → Prop} (nil : motive [])
    (dots : ∀ rest, motive rest → motive ('.' :: '.' :: rest))
    (char : ∀ c rest, ¬ (c = '.' ∧ rest.head? = some '.') → motive rest → motive (c :: rest)) (text : List Char) :
    motive text := by
  induction text using halveDots.induct with
  | case1 rest ih => exact dots rest ih
  | case2 c rest hne ih =>
    apply char c rest _ ih
    rintro ⟨rfl, hhead⟩
    cases rest with
    | nil => cases hhead
    | cons d rest =>
      obtain rfl := Option.some.inj hhead
      exact hne rest rfl rfl
  | case3 => exact nil

theorem head?_halveDots (text : List Char) : (halveDots text).head? = text.head? := by
  induction text using halveDots_induct with
  | nil => rfl
  | dots rest ih => rfl
  | char c rest hne ih => rw [halveDots_cons hne]; rfl

theorem getLast?_halveDots (text : List Char) : (halveDots text).getLast? = text.getLast? := by
  induction text using halveDots_induct with
  | nil => rfl
  | dots rest ih =>
    rw [halveDots_dots, List.getLast?_cons, List.getLast?_cons_cons, List.getLast?_cons, ih]
  | char c rest hne ih => rw [halveDots_cons hne, List.getLast?_cons, List.getLast?_cons, ih]

theorem mem_halveDots {text : List Char} : ∀ c ∈ halveDots text, c ∈ text := by
  induction text using halveDots_induct with
  | nil => simp [halveDots_nil]
  | dots rest ih =>
    intro c hc
    rw [halveDots_dots] at hc
    rcases List.mem_cons.mp hc with rfl | hc
    · exact List.mem_cons_self
    · exact List.mem_cons_of_mem _ (List.mem_cons_of_mem _ (ih c hc))
  | char a rest hne ih =>
    intro c hc
    rw [halveDots_cons hne] at hc
    rcases List.mem_cons.mp hc with rfl | hc
    · exact List.mem_cons_self
    · exact List.mem_cons_of_mem _ (ih c hc)

theorem halveDots_of_not_mem {w : List Char} (hw : '.' ∉ w) : halveDots w = w := by
  induction w with
  | nil => rfl
  | cons c w ih =>
    have hc : c ≠ '.' ∧ '.' ∉ w := by
      constructor
      · rintro rfl
        exact hw List.mem_cons_self
      · exact fun h => hw (List.mem_cons_of_mem c h)
    rw [halveDots_cons (fun h => hc.1 h.1), ih hc.2]

theorem head?_ne_dot {w : List Char} (hw : '.' ∉ w) : w.head? ≠ some '.' := fun h => hw (List.mem_of_head? h)

theorem halveDots_append {u w : List Char} (hw : '.' ∉ w) : halveDots (u ++ w) = halveDots u ++ w := by
  induction u using halveDots_induct with
  | nil => exact halveDots_of_not_mem hw
  | dots rest ih => rw [List.cons_append, List.cons_append, halveDots_dots, ih, halveDots_dots, List.cons_append]
  | char c rest hne ih =>
    have hne' : ¬ (c = '.' ∧ (rest ++ w).head? = some '.') := by
      rintro ⟨hc, hhead⟩
      cases rest with
      | nil => exact head?_ne_dot hw hhead
      | cons d rest => exact hne ⟨hc, hhead⟩
    rw [List.cons_append, halveDots_cons hne', ih, halveDots_cons hne, List.cons_append]

theorem length_halveDots_le (text : List Char) : (halveDots text).length ≤ text.length := by
  induction text using halveDots_induct with
  | nil => simp [halveDots_nil]
  | dots rest ih => simp only [halveDots_dots, List.length_cons]; omega
  | char c rest hne ih => rw [halveDots_cons hne]; simpa using ih

theorem length_halveDots_lt {text : List Char} (h : hasPair '.' '.' text = true) :
    (halveDots text).length < text.length := by
  induction text using halveDots_induct with
  | nil => simp [hasPair] at h
  | dots rest ih =>
    have hle := length_halveDots_le rest
    simp only [halveDots_dots, List.length_cons]
    omega
  | char c rest hne ih =>
    rw [hasPair_cons] at h
    have hrest : hasPair '.' '.' rest = true := by
      rcases Bool.or_eq_true_iff.mp h with h | h
      · exact absurd (by simpa using h) hne
      · exact h
    rw [halveDots_cons hne]
    simpa using ih hrest

theorem head?_collapseDotsFrom (n : Nat) (text : List Char) : (collapseDotsFrom n text).head? = text.head? := by
  induction n generalizing text with
  | zero => rfl
  | succ n ih =>
    rw [collapseDotsFrom]
    split
    · rw [ih, head?_halveDots]
    · rfl

theorem getLast?_collapseDotsFrom (n : Nat) (text : List Char) :
    (collapseDotsFrom n text).getLast? = text.getLast? := by
  induction n generalizing text with
  | zero => rfl
  | succ n ih =>
    rw [collapseDotsFrom]
    split
    · rw [ih, getLast?_halveDots]
    · rfl

theorem mem_collapseDotsFrom (n : Nat) {text : List Char} : ∀ c ∈ collapseDotsFrom n text, c ∈ text := by
  induction n generalizing text with
  | zero => exact fun _ h => h
  | succ n ih =>
    intro c hc
    rw [collapseDotsFrom] at hc
    split at hc
    · exact mem_halveDots c (ih c hc)
    · exact hc

theorem hasPair_of_not_mem {w : List Char} (hw : '.' ∉ w) : hasPair '.' '.' w = false := by
  induction w with
  | nil => rfl
  | cons c w ih =>
    rw [hasPair_cons, ih fun h => hw (List.mem_cons_of_mem c h)]
    have hc : c ≠ '.' := by
      rintro rfl
      exact hw List.mem_cons_self
    simp [hc]

theorem collapseDotsFrom_append (n : Nat) {u w : List Char} (hw : '.' ∉ w) :
    collapseDotsFrom n (u ++ w) = collapseDotsFrom n u ++ w := by
  induction n generalizing u with
  | zero => rfl
  | succ n ih =>
    have hpair : hasPair '.' '.' (u ++ w) = hasPair '.' '.' u := by
      have hhead := head?_ne_dot hw
      rw [hasPair_append, hasPair_of_not_mem hw]
      simp [hhead]
    rw [collapseDotsFrom, collapseDotsFrom, hpair, halveDots_append hw]
    split
    · exact ih
    · rfl

theorem hasPair_collapseDotsFrom {n : Nat} {text : List Char} (h : text.length ≤ n) :
    hasPair '.' '.' (collapseDotsFrom n text) = false := by
  induction n generalizing text with
  | zero =>
    have hnil : text = [] := List.length_eq_zero_iff.mp (Nat.le_zero.mp h)
    rw [hnil]
    rfl
  | succ n ih =>
    rw [collapseDotsFrom]
    split
    · rename_i hpair
      have hlt := length_halveDots_lt hpair
      exact ih (by omega)
    · rename_i hpair
      simpa using hpair

/-! ## Paths -/

/-- `"/".join(parts)`. -/
def joinPath (parts : List (List Char)) : List Char := ['/'].intercalate parts

theorem joinPath_singleton (a : List Char) : joinPath [a] = a := List.intercalate_singleton

theorem joinPath_cons (a b : List Char) (rest : List (List Char)) :
    joinPath (a :: b :: rest) = a ++ '/' :: joinPath (b :: rest) := by
  rw [joinPath, List.intercalate_cons_cons, List.append_assoc]
  rfl

/-- `b` is a path below `a`. -/
def PathPrefix (a b : List Char) : Prop := ∃ rest, b = a ++ '/' :: rest

theorem splitOn_joinPath {parts : List (List Char)} (h : ∀ part ∈ parts, '/' ∉ part) (hne : parts ≠ []) :
    (joinPath parts).splitOn '/' = parts := List.splitOn_intercalate '/' h hne

theorem joinPath_inj {parts parts' : List (List Char)} (h : ∀ part ∈ parts, '/' ∉ part)
    (h' : ∀ part ∈ parts', '/' ∉ part) (hne : parts ≠ []) (hne' : parts' ≠ []) (heq : joinPath parts = joinPath parts') :
    parts = parts' := by
  rw [← splitOn_joinPath h hne, heq, splitOn_joinPath h' hne']

/-- A path below another has more parts and starts with its parts. -/
theorem parts_of_below {parts parts' : List (List Char)} (h : ∀ part ∈ parts, '/' ∉ part)
    (h' : ∀ part ∈ parts', '/' ∉ part) (hne : parts ≠ []) (hne' : parts' ≠ [])
    (hbelow : PathPrefix (joinPath parts) (joinPath parts')) : ∃ more, more ≠ [] ∧ parts' = parts ++ more := by
  obtain ⟨rest, hrest⟩ := hbelow
  refine ⟨rest.splitOn '/', List.splitOn_ne_nil '/' rest, ?_⟩
  have hsplit := congrArg (List.splitOn '/') hrest
  rwa [splitOn_joinPath h' hne', List.splitOn_append_cons_self, splitOn_joinPath h hne] at hsplit

end Crewplane.Lib
