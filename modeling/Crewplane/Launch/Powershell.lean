import Crewplane.Lib.Verbatim
/-
# PowerShell launchers (adapters/invokers/cli_invoker/windows_launchers.py)

A provider whose executable is a PowerShell script is started through the shell:
the executable and its arguments are written as verbatim strings into a script of
four fixed statements, and the script is handed over in Base64.

| here | there |
| --- | --- |
| `powershellLiteral`       | `_powershell_literal` (windows_launchers.py:136) |
| `powershellCommand`       | `command` in `_build_powershell_launcher` (windows_launchers.py:83) |
| `buildPowershellLauncher` | `_build_powershell_launcher` |

PowerShell's side is `readScript`: five characters open and close a verbatim
string there, and the writer doubles one of them.
-/
namespace Crewplane.Launch

open Crewplane.Lib.Verbatim

/-! ## The writer -/

/-- `value.replace("'", "''")` between quotes. -/
def powershellLiteral (value : String) : String := "'" ++ String.ofList (double '\'' value.toList) ++ "'"

/-- The last line of the script, with the braces as text. -/
def exitStatements : String :=
  "$ok=$?; if ($null -ne $LASTEXITCODE) \x7b exit $LASTEXITCODE \x7d; if (-not $ok) \x7b exit 1 \x7d"

/-- The script. -/
def powershellCommand (executable : String) (arguments : List String) : String :=
  "$ErrorActionPreference='Stop'; " ++
  ("$crewplaneArguments=@(" ++ ",".intercalate (arguments.map powershellLiteral) ++ "); ") ++
  ("& " ++ powershellLiteral executable ++ " @crewplaneArguments; ") ++
  exitStatements

/-- `command.encode("utf-16le")`. -/
def utf16le (text : List Char) : List Nat :=
  text.flatMap fun c =>
    let n := c.toNat
    let units := if n < 0x10000 then [n] else [0xd800 + (n - 0x10000) / 0x400, 0xdc00 + (n - 0x10000) % 0x400]
    units.flatMap fun unit => [unit % 256, unit / 256]

def base64Digit (n : Nat) : Char :=
  "ABCDEFGHIJKLMNOPQRSTUVWXYZabcdefghijklmnopqrstuvwxyz0123456789+/".toList.getD n '='

/-- `base64.b64encode(data).decode("ascii")`. -/
def b64encode : List Nat → List Char
  | [] => []
  | [a] => [base64Digit (a / 4), base64Digit (a % 4 * 16), '=', '=']
  | [a, b] => [base64Digit (a / 4), base64Digit (a % 4 * 16 + b / 16), base64Digit (b % 16 * 4), '=']
  | a :: b :: c :: rest =>
    base64Digit (a / 4) :: base64Digit (a % 4 * 16 + b / 16) :: base64Digit (b % 16 * 4 + c / 64) ::
      base64Digit (c % 64) :: b64encode rest

def buildPowershellLauncher (executable shell : String) (arguments : List String) : List String :=
  [shell, "-NoLogo", "-NoProfile", "-NonInteractive", "-EncodedCommand",
    String.ofList (b64encode (utf16le (powershellCommand executable arguments).toList))]

/-! ## The reader -/

/-- The single-quote characters of PowerShell: `'` and U+2018, U+2019, U+201A, U+201B. -/
def isSingleQuote (c : Char) : Bool := c = '\'' || (0x2018 ≤ c.toNat && c.toNat ≤ 0x201b)

/-- Two quote characters in a row denote one of them; which one is left open. -/
def denoted (keepFirst : Bool) (c d : Char) : Char := if keepFirst then c else d

def readScript (keepFirst : Bool) (script : String) : Option (List (Token Char)) :=
  lex isSingleQuote (denoted keepFirst) script.toList

def code (text : String) : List (Token Char) := text.toList.map Token.code

/-- The array's elements, with a comma between them. -/
def argumentTokens : List String → List (Token Char)
  | [] => []
  | [value] => [.verbatim value.toList]
  | value :: values => .verbatim value.toList :: .code ',' :: argumentTokens values

/-- The statements the launcher is for: stop on errors, the array of exactly these
arguments, the call of exactly this executable, the exit code. -/
def intendedScript (executable : String) (arguments : List String) : List (Token Char) :=
  code "$ErrorActionPreference=" ++ .verbatim "Stop".toList :: (code "; " ++ (code "$crewplaneArguments=@(" ++
  (argumentTokens arguments ++ (code "); " ++ (code "& " ++ .verbatim executable.toList ::
  (code " @crewplaneArguments; " ++ code exitStatements))))))

/-! ## The script is the text of its intended statements -/

theorem render_append (ts us : List (Token Char)) : render '\'' (ts ++ us) = render '\'' ts ++ render '\'' us := by
  simp [render]

theorem render_code (text : String) : render '\'' (code text) = text.toList := by
  simp [render, code, List.flatMap_map, renderToken]

theorem toList_powershellLiteral (value : String) :
    (powershellLiteral value).toList = renderToken '\'' (.verbatim value.toList) := by
  simp [powershellLiteral, renderToken]

theorem toList_literals (arguments : List String) :
    (",".intercalate (arguments.map powershellLiteral)).toList = render '\'' (argumentTokens arguments) := by
  fun_induction argumentTokens arguments with
  | case1 => rfl
  | case2 value => simp [render, toList_powershellLiteral]
  | case3 value values hne ih =>
    obtain ⟨next, values, rfl⟩ := List.exists_cons_of_ne_nil hne
    rw [List.map_cons] at ih
    rw [List.map_cons, List.map_cons, String.intercalate_cons_cons, String.toList_append, String.toList_append, ih,
      toList_powershellLiteral, render_cons, render_cons]
    simp [renderToken]

theorem render_stop : render '\'' (code "$ErrorActionPreference=" ++ [.verbatim "Stop".toList] ++ code "; ") =
    "$ErrorActionPreference='Stop'; ".toList := by
  decide

theorem toList_powershellCommand (executable : String) (arguments : List String) :
    (powershellCommand executable arguments).toList = render '\'' (intendedScript executable arguments) := by
  unfold powershellCommand intendedScript
  simp only [String.toList_append, toList_literals, toList_powershellLiteral, ← render_stop]
  simp only [render_append, render_cons, render_code, List.append_assoc]
  rfl

/-! ## What the shell reads -/

theorem separated_code (text : List Char) (ts : List (Token Char))
    (htext : text.all (fun c => !isSingleQuote c) = true) (h : Separated isSingleQuote ts) : Separated isSingleQuote (text.map Token.code ++ ts) := by
  induction text with
  | nil => exact h
  | cons c text ih =>
    simp only [List.all_cons, Bool.and_eq_true, Bool.not_eq_true'] at htext
    exact ⟨htext.1, ih htext.2⟩

theorem separated_verbatim {text : List Char} {c : Char} {cs : List Char} {ts : List (Token Char)}
    (h : Separated isSingleQuote ((c :: cs).map Token.code ++ ts)) :
    Separated isSingleQuote (.verbatim text :: ((c :: cs).map Token.code ++ ts)) := h

theorem separated_argumentTokens (arguments : List String) {c : Char} {cs : List Char} {ts : List (Token Char)}
    (h : Separated isSingleQuote ((c :: cs).map Token.code ++ ts)) :
    Separated isSingleQuote (argumentTokens arguments ++ ((c :: cs).map Token.code ++ ts)) := by
  fun_induction argumentTokens arguments with
  | case1 => exact h
  | case2 value => exact separated_verbatim h
  | case3 value values hne ih => exact ⟨by decide, ih⟩

theorem separated_intendedScript (executable : String) (arguments : List String) :
    Separated isSingleQuote (intendedScript executable arguments) := by
  have hend : Separated isSingleQuote (code " @crewplaneArguments; " ++ code exitStatements) := by
    refine separated_code _ _ (by decide +kernel) ?_
    rw [← List.append_nil (code exitStatements)]
    exact separated_code _ _ (by decide +kernel) trivial
  have hcall : Separated isSingleQuote (code "); " ++ (code "& " ++ .verbatim executable.toList ::
      (code " @crewplaneArguments; " ++ code exitStatements))) :=
    separated_code _ _ (by decide +kernel) (separated_code _ _ (by decide +kernel) (separated_verbatim hend))
  have hargs := separated_argumentTokens arguments hcall
  refine separated_code _ _ (by decide +kernel) (separated_verbatim ?_)
  exact separated_code _ _ (by decide +kernel) (separated_code _ _ (by decide +kernel) hargs)

theorem verbatim_mem_argumentTokens {arguments : List String} {text : List Char} :
    .verbatim text ∈ argumentTokens arguments ↔ ∃ value ∈ arguments, text = value.toList := by
  fun_induction argumentTokens arguments with
  | case1 => simp
  | case2 value => simp
  | case3 value values hne ih => simp [ih]

theorem verbatim_mem_intendedScript {executable : String} {arguments : List String} {text : List Char} :
    .verbatim text ∈ intendedScript executable arguments ↔
      text = "Stop".toList ∨ ∃ value ∈ executable :: arguments, text = value.toList := by
  have hcode : ∀ string, .verbatim text ∉ code string := by simp [code]
  unfold intendedScript
  simp only [List.mem_append, List.mem_cons, hcode, verbatim_mem_argumentTokens, Token.verbatim.injEq, false_or,
    or_false]
  grind

/-- **The shell reads the intended statements exactly when neither the executable
nor an argument holds one of the other four quote characters.** -/
theorem powershell_script_literal_iff (keepFirst : Bool) (executable : String) (arguments : List String) :
    readScript keepFirst (powershellCommand executable arguments) = some (intendedScript executable arguments) ↔
      ∀ value ∈ executable :: arguments, ∀ c ∈ value.toList, ¬(0x2018 ≤ c.toNat ∧ c.toNat ≤ 0x201b) := by
  have hdenote : ∀ c d, denoted keepFirst c d = c ∨ denoted keepFirst c d = d := by
    intro c d
    cases keepFirst <;> simp [denoted]
  have hquote : ∀ c, (isSingleQuote c = true → c = '\'') ↔ ¬(0x2018 ≤ c.toNat ∧ c.toNat ≤ 0x201b) := by
    intro c
    by_cases hc : c = '\''
    · subst hc
      decide
    · simp [isSingleQuote, hc]
  unfold readScript
  rw [toList_powershellCommand, lex_render_iff (by decide) hdenote (separated_intendedScript executable arguments)]
  simp only [verbatim_mem_intendedScript, hquote]
  constructor
  · intro h value hvalue
    exact h value.toList (Or.inr ⟨value, hvalue, rfl⟩)
  · rintro h text (rfl | ⟨value, hvalue, rfl⟩)
    · have hstop : "Stop".toList.all (fun c => !isSingleQuote c) = true := by decide +kernel
      intro c hc
      have hnot : isSingleQuote c = false := by simpa using List.all_eq_true.mp hstop c hc
      exact (hquote c).mp (by simp [hnot])
    · exact h value hvalue

/-- A prompt with typographic quotes is cut at each of them, and what stands between them is code. -/
theorem curly_quotes_read_as_code :
    readScript false (powershellCommand "a.ps1" ["’;c;’"]) ≠ some (intendedScript "a.ps1" ["’;c;’"]) ∧
    readScript false (powershellCommand "a.ps1" ["’;c;’"]) =
      some (code "$ErrorActionPreference=" ++ .verbatim "Stop".toList :: (code "; $crewplaneArguments=@(" ++
        .verbatim [] :: (code ";c;" ++ .verbatim [] :: (code "); & " ++ .verbatim "a.ps1".toList ::
        (code " @crewplaneArguments; " ++ code exitStatements))))) := by
  decide +kernel

end Crewplane.Launch
