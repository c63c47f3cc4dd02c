import Crewplane.Lib.Lists
/-
# Windows command lines

`list2cmdline` writes arguments for the argument rules of the Microsoft C runtime, which `splitArgs` reads: a quote opens or
closes a quoted part, `2n` backslashes before a quote are `n` backslashes, one more makes the quote a character, and two
quotes in a quoted part are one. `cmd.exe` has another idea of a quote: every one of them opens or closes (`regions`).

What stands between quotes with its backslashes at the end doubled is read back as it was (`splitFrom_escaped`).
-/
namespace Crewplane.Lib.CommandLine

abbrev Text := List Char

def slashes (n : Nat) : Text := List.replicate n '\\'

/-! ## The writer (subprocess.py) -/

/-- The loop over the characters of an argument with `n` backslashes in the buffer: what is written, and the buffer at the
end. -/
def escapeLoop : Nat → Text → Text × Nat
  | n, [] => ([], n)
  | n, c :: rest =>
    if c = '\\' then escapeLoop (n + 1) rest
    else if c = '"' then
      let (written, left) := escapeLoop 0 rest
      (slashes (2 * n) ++ ('\\' :: '"' :: written), left)
    else
      let (written, left) := escapeLoop 0 rest
      (slashes n ++ c :: written, left)

def needQuote (arg : Text) : Bool := ' ' ∈ arg || '\t' ∈ arg || arg.isEmpty

def quoteArgument (arg : Text) : Text :=
  let (written, left) := escapeLoop 0 arg
  if needQuote arg then '"' :: (written ++ slashes left ++ slashes left ++ ['"']) else written ++ slashes left

def list2cmdline (args : List Text) : Text := [' '].intercalate (args.map quoteArgument)

/-! ## The argument rules -/

/-- From inside the argument `current`, or between arguments; `n` backslashes have not been written yet. -/
def splitFrom : Option Text → Bool → Nat → Text → List Text
  | none, _, _, [] => []
  | some current, _, n, [] => [current ++ slashes n]
  | current, quoted, n, c :: rest =>
    if c = '\\' then splitFrom (some (current.getD [])) quoted (n + 1) rest
    else if c = '"' then
      let current := current.getD [] ++ slashes (n / 2)
      if n % 2 = 1 then splitFrom (some (current ++ ['"'])) quoted 0 rest
      else
        match quoted, rest with
        | true, '"' :: rest => splitFrom (some (current ++ ['"'])) true 0 rest
        | quoted, rest => splitFrom (some current) (!quoted) 0 rest
    else if (c = ' ' ∨ c = '\t') ∧ quoted = false then
      match current with
      | none => splitFrom none false 0 rest
      | some current => (current ++ slashes n) :: splitFrom none false 0 rest
    else splitFrom (some (current.getD [] ++ slashes n ++ [c])) quoted 0 rest

def splitArgs (line : Text) : List Text := splitFrom none false 0 line

/-! ## The scan of `cmd.exe` -/

/-- The characters that are no quotes, each with whether it stands in a quoted region. -/
def regions : Bool → Text → List (Char × Bool)
  | _, [] => []
  | quoted, c :: rest => if c = '"' then regions (!quoted) rest else (c, quoted) :: regions quoted rest

/-! ## Reading a quoted argument -/

/-- An argument between quotes, the backslashes at its end doubled. -/
def literal (value : Text) : Text :=
  '"' :: ((escapeLoop 0 value).1 ++ (slashes (2 * (escapeLoop 0 value).2) ++ ['"']))

theorem slashes_append (m n : Nat) : slashes m ++ slashes n = slashes (m + n) := by
  simp [slashes]

section Read

variable {current : Text} {quoted : Bool} {rest : Text}

theorem splitFrom_cons (current : Option Text) (quoted : Bool) (n : Nat) (c : Char) (rest : Text) :
    splitFrom current quoted n (c :: rest) =
      if c = '\\' then splitFrom (some (current.getD [])) quoted (n + 1) rest
      else if c = '"' then
        let current := current.getD [] ++ slashes (n / 2)
        if n % 2 = 1 then splitFrom (some (current ++ ['"'])) quoted 0 rest
        else
          match quoted, rest with
          | true, '"' :: rest => splitFrom (some (current ++ ['"'])) true 0 rest
          | quoted, rest => splitFrom (some current) (!quoted) 0 rest
      else if (c = ' ' ∨ c = '\t') ∧ quoted = false then
        match current with
        | none => splitFrom none false 0 rest
        | some current => (current ++ slashes n) :: splitFrom none false 0 rest
      else splitFrom (some (current.getD [] ++ slashes n ++ [c])) quoted 0 rest := by
  cases current with
  | none | some =>
    rw [splitFrom]
    rfl

theorem splitFrom_slash (n : Nat) :
    splitFrom (some current) quoted n ('\\' :: rest) = splitFrom (some current) quoted (n + 1) rest := by
  rw [splitFrom_cons, if_pos rfl, Option.getD_some]

theorem splitFrom_slashes (m n : Nat) :
    splitFrom (some current) quoted m (slashes n ++ rest) = splitFrom (some current) quoted (m + n) rest := by
  induction n generalizing m with
  | zero => rfl
  | succ n ih =>
    rw [slashes, List.replicate_succ, List.cons_append, splitFrom_slash]
    rw [slashes] at ih
    rw [ih, Nat.add_right_comm, Nat.add_assoc]

theorem splitFrom_escapedQuote (n : Nat) :
    splitFrom (some current) quoted (2 * n + 1) ('"' :: rest) = splitFrom (some (current ++ slashes n ++ ['"'])) quoted 0 rest := by
  have hhalf : (2 * n + 1) / 2 = n := by omega
  have hodd : (2 * n + 1) % 2 = 1 := by omega
  rw [splitFrom_cons, if_neg (by decide), if_pos rfl]
  simp only [hhalf, hodd, if_true, Option.getD_some]

/-- A quote that closes, before anything but another quote. -/
theorem splitFrom_close (n : Nat) (h : rest.head? ≠ some '"') :
    splitFrom (some current) true (2 * n) ('"' :: rest) = splitFrom (some (current ++ slashes n)) false 0 rest := by
  have hhalf : 2 * n / 2 = n := by omega
  have heven : ¬ 2 * n % 2 = 1 := by omega
  rw [splitFrom_cons, if_neg (by decide), if_pos rfl]
  simp only [hhalf, if_neg heven, Option.getD_some]
  cases rest with
  | nil => rfl
  | cons d rest =>
    have hd : d ≠ '"' := by simpa using h
    split
    · simp_all
    · simp

theorem splitFrom_open : splitFrom none false 0 ('"' :: rest) = splitFrom (some []) true 0 rest := by
  rw [splitFrom_cons, if_neg (by decide), if_pos rfl]
  simp [slashes]

theorem splitFrom_char {c : Char} (hslash : c ≠ '\\') (hquote : c ≠ '"') (n : Nat) :
    splitFrom (some current) true n (c :: rest) = splitFrom (some (current ++ slashes n ++ [c])) true 0 rest := by
  rw [splitFrom_cons, if_neg hslash, if_neg hquote, if_neg (by simp), Option.getD_some]

theorem splitFrom_blank : splitFrom (some current) false 0 (' ' :: rest) = current :: splitFrom none false 0 rest := by
  rw [splitFrom_cons, if_neg (by decide), if_neg (by decide), if_pos (by simp)]
  simp [slashes]

end Read

/-- What the loop writes of a value, with the buffer doubled before the closing quote, is read as the value. -/
theorem splitFrom_escaped {tail : Text} (htail : tail.head? ≠ some '"') (value : Text) : ∀ (n : Nat) (current : Text),
    splitFrom (some current) true 0 ((escapeLoop n value).1 ++ (slashes (2 * (escapeLoop n value).2) ++ '"' :: tail)) =
      splitFrom (some (current ++ slashes n ++ value)) false 0 tail := by
  induction value with
  | nil =>
    intro n current
    rw [escapeLoop, List.nil_append, splitFrom_slashes, Nat.zero_add, splitFrom_close n htail, List.append_nil]
  | cons c rest ih =>
    intro n current
    rw [escapeLoop]
    by_cases hslash : c = '\\'
    · subst hslash
      rw [if_pos rfl, ih (n + 1) current]
      simp [slashes, List.replicate_succ']
    · rw [if_neg hslash]
      by_cases hquote : c = '"'
      · subst hquote
        rw [if_pos rfl]
        simp only [List.append_assoc, List.cons_append]
        rw [splitFrom_slashes, splitFrom_slash, Nat.zero_add, splitFrom_escapedQuote, ih 0]
        simp [slashes]
      · rw [if_neg hquote]
        simp only [List.append_assoc, List.cons_append]
        rw [splitFrom_slashes, splitFrom_char hslash hquote, Nat.zero_add, ih 0]
        simp [slashes]

theorem splitFrom_literal {tail : Text} (htail : tail.head? ≠ some '"') (value : Text) :
    splitFrom none false 0 (literal value ++ tail) = splitFrom (some value) false 0 tail := by
  have hread := splitFrom_escaped htail value 0 []
  rw [literal, List.cons_append, splitFrom_open]
  simp only [List.append_assoc, List.singleton_append]
  rw [hread]
  simp [slashes]

/-- The quoted arguments are read back as they were. -/
theorem splitArgs_literals (values : List Text) : splitArgs ([' '].intercalate (values.map literal)) = values := by
  rw [splitArgs]
  induction values with
  | nil => rfl
  | cons value rest ih =>
    cases rest with
    | nil =>
      have hlast := @splitFrom_literal [] (by simp) value
      rw [List.append_nil] at hlast
      simp [hlast, splitFrom, slashes]
    | cons next rest =>
      rw [List.map_cons, List.intercalate_cons_of_ne_nil (by simp), List.append_assoc, List.singleton_append,
        splitFrom_literal (by simp), splitFrom_blank, ih]

/-! ## Quoted regions -/

theorem mem_escapeLoop {c : Char} (value : Text) : ∀ n, c ∈ (escapeLoop n value).1 → c = '\\' ∨ c ∈ value := by
  induction value with
  | nil => simp [escapeLoop]
  | cons d rest ih =>
    intro n hc
    rw [escapeLoop] at hc
    by_cases hslash : d = '\\'
    · rw [if_pos hslash] at hc
      rcases ih _ hc with h | h
      · exact Or.inl h
      · exact Or.inr (List.mem_cons_of_mem d h)
    · rw [if_neg hslash] at hc
      by_cases hquote : d = '"'
      · subst hquote
        rw [if_pos rfl] at hc
        simp only [slashes, List.mem_append, List.mem_replicate, List.mem_cons] at hc
        rcases hc with ⟨-, h⟩ | h | h | h
        · exact Or.inl h
        · exact Or.inl h
        · exact Or.inr (by simp [h])
        · rcases ih 0 h with h | h
          · exact Or.inl h
          · exact Or.inr (List.mem_cons_of_mem _ h)
      · rw [if_neg hquote] at hc
        simp only [slashes, List.mem_append, List.mem_replicate, List.mem_cons] at hc
        rcases hc with ⟨-, h⟩ | h | h
        · exact Or.inl h
        · exact Or.inr (by simp [h])
        · rcases ih 0 h with h | h
          · exact Or.inl h
          · exact Or.inr (List.mem_cons_of_mem _ h)

theorem mem_literal {value : Text} {c : Char} (hc : c ∈ literal value) : c = '"' ∨ c = '\\' ∨ c ∈ value := by
  simp only [literal, slashes, List.mem_cons, List.mem_append, List.mem_replicate, List.not_mem_nil, or_false] at hc
  rcases hc with h | h | ⟨-, h⟩ | h
  · exact Or.inl h
  · exact Or.inr (mem_escapeLoop value 0 h)
  · exact Or.inr (Or.inl h)
  · exact Or.inl h

theorem regions_append {a : Text} (h : '"' ∉ a) (quoted : Bool) (b : Text) :
    regions quoted (a ++ b) = a.map (·, quoted) ++ regions quoted b := by
  induction a with
  | nil => rfl
  | cons c a ih =>
    simp only [List.mem_cons, not_or] at h
    have hc : c ≠ '"' := fun heq => h.1 heq.symm
    rw [List.cons_append, regions, if_neg hc, ih h.2]
    rfl

theorem mem_of_mem_regions {text : Text} {found : Char × Bool} : ∀ {quoted : Bool}, found ∈ regions quoted text → found.1 ∈ text := by
  induction text with
  | nil => simp [regions]
  | cons c rest ih =>
    intro quoted h
    rw [regions] at h
    split at h
    · exact List.mem_cons_of_mem c (ih h)
    · rcases List.mem_cons.mp h with rfl | h
      · exact List.mem_cons_self
      · exact List.mem_cons_of_mem c (ih h)

/-- A literal of a value without quotes is one region. -/
theorem regions_literal {value : Text} (h : '"' ∉ value) (tail : Text) :
    ∃ body : Text, regions false (literal value ++ tail) = body.map (·, true) ++ regions false tail := by
  have hbody : '"' ∉ (escapeLoop 0 value).1 ++ slashes (2 * (escapeLoop 0 value).2) := by
    intro hmem
    rcases List.mem_append.mp hmem with hmem | hmem
    · rcases mem_escapeLoop value 0 hmem with heq | hmem
      · exact absurd heq (by decide)
      · exact h hmem
    · exact absurd (List.eq_of_mem_replicate hmem) (by decide)
  refine ⟨(escapeLoop 0 value).1 ++ slashes (2 * (escapeLoop 0 value).2), ?_⟩
  rw [literal, List.cons_append, regions, if_pos rfl, ← List.append_assoc, List.append_assoc, Bool.not_false,
    regions_append hbody, List.singleton_append, regions, if_pos rfl, Bool.not_true]

theorem regions_literals {values : List Text} (h : ∀ value ∈ values, '"' ∉ value) :
    ∀ found ∈ regions false ([' '].intercalate (values.map literal)), found.1 = ' ' ∨ found.2 = true := by
  induction values with
  | nil => simp [regions]
  | cons value rest ih =>
    intro found hfound
    have hvalue := h value List.mem_cons_self
    have hbody : ∀ body : Text, found ∈ body.map (·, true) → found.2 = true := by
      intro body hmem
      obtain ⟨c, -, rfl⟩ := List.mem_map.mp hmem
      rfl
    cases rest with
    | nil =>
      obtain ⟨body, hregions⟩ := regions_literal hvalue []
      rw [List.append_nil] at hregions
      rw [List.map_cons, List.map_nil, List.intercalate_singleton, hregions] at hfound
      rcases List.mem_append.mp hfound with hmem | hmem
      · exact Or.inr (hbody body hmem)
      · simp [regions] at hmem
    | cons next rest =>
      obtain ⟨body, hregions⟩ := regions_literal hvalue (' ' :: [' '].intercalate ((next :: rest).map literal))
      rw [List.map_cons, List.intercalate_cons_of_ne_nil (by simp), List.append_assoc, List.singleton_append, hregions,
        regions, if_neg (by decide)] at hfound
      rcases List.mem_append.mp hfound with hmem | hmem
      · exact Or.inr (hbody body hmem)
      · rcases List.mem_cons.mp hmem with rfl | hmem
        · exact Or.inl rfl
        · exact ih (fun value hmem => h value (List.mem_cons_of_mem _ hmem)) found hmem

/-- **What is special to `cmd.exe` stands in quoted regions**, where no value that has such a character goes with one that
has a quote. -/
theorem regions_of_apart {values : List Text} {special : Char → Bool} (hblank : special ' ' = false) (hquote : special '"' = false)
    (hslash : special '\\' = false)
    (h : (∃ value ∈ values, '"' ∈ value) → ∀ value ∈ values, ∀ c ∈ value, special c = false) :
    ∀ found ∈ regions false ([' '].intercalate (values.map literal)), special found.1 = true → found.2 = true := by
  intro found hfound hspecial
  by_cases hexists : ∃ value ∈ values, '"' ∈ value
  · -- no special character at all
    have hplain := h hexists
    have hnot : special found.1 = false := by
      rcases mem_of_mem_intercalate (mem_of_mem_regions hfound) with hsep | ⟨part, hpart, hmem⟩
      · rw [List.mem_singleton.mp hsep, hblank]
      · obtain ⟨value, hvalue, rfl⟩ := List.mem_map.mp hpart
        rcases mem_literal hmem with heq | heq | hmem
        · rw [heq, hquote]
        · rw [heq, hslash]
        · exact hplain value hvalue _ hmem
    rw [hnot] at hspecial
    exact absurd hspecial (by decide)
  · have hnone : ∀ value ∈ values, '"' ∉ value := by
      intro value hvalue hmem
      exact hexists ⟨value, hvalue, hmem⟩
    rcases regions_literals hnone found hfound with heq | hquoted
    · rw [heq, hblank] at hspecial
      exact absurd hspecial (by decide)
    · exact hquoted

end Crewplane.Lib.CommandLine
