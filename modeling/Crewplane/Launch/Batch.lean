import Crewplane.Launch.Powershell
import Crewplane.Lib.CommandLine
/-
# Batch launchers (adapters/invokers/cli_invoker/windows_launchers.py, windows_shell_transport.py)

A provider whose executable is a batch file runs under `cmd.exe`. The values are quoted one by one and joined with blanks,
and the command line is handed over in Base64, since Python would quote it once more.

| here | there |
| --- | --- |
| `batchLiteral`           | `_batch_literal` (windows_launchers.py:125) |
| `validateBatchArguments` | `validate_batch_arguments` (windows_launchers.py:49) |
| `buildBatchLauncher`     | `_build_batch_launcher` (windows_launchers.py:104) |
| `prepareWindowsLauncher` | `prepare_windows_launcher` (windows_launchers.py:15) |
| `transport`              | `main` (windows_shell_transport.py:10) |

Texts are `String`s: a value with a lone surrogate has no UTF-16 text, and its encoding is refused.
-/
namespace Crewplane.Launch

open Crewplane.Lib Crewplane.Lib.CommandLine

/-! ## Values -/

def batchArgumentBudgetUtf16Units : Nat := 7000

def batchLiteral (value : List Char) : List Char :=
  let encoded := list2cmdline [value]
  if encoded.head? = some '"' ∧ encoded.getLast? = some '"' then encoded
  else
    let trailingBackslashCount := encoded.length - (encoded.rdropWhile (· = '\\')).length
    '"' :: (encoded ++ slashes trailingBackslashCount ++ ['"'])

def unsafeChars : List Char := ['\x00', '\r', '\n', '%', '!']

def shellMetacharacters : List Char := ['&', '|', '<', '>', '^', '(', ')']

def holdsAny (chars : List Char) (value : String) : Bool := value.toList.any (· ∈ chars)

def encodedArguments (values : List String) : List Char := [' '].intercalate (values.map fun value => batchLiteral value.toList)

def validateBatchArguments (values : List String) : Except String Unit :=
  if values.any (holdsAny unsafeChars) then
    .error "Batch launchers cannot safely transport NUL, newlines, % or ! in arguments. Use stdin prompt transport or an .exe/.ps1 launcher."
  else if values.any (holdsAny ['"']) ∧ values.any (holdsAny shellMetacharacters) then
    .error "Batch launchers cannot combine embedded quotes with shell metacharacters. Use stdin prompt transport or an .exe/.ps1 launcher."
  else if batchArgumentBudgetUtf16Units < (utf16le (encodedArguments values)).length / 2 then
    .error "Batch launcher arguments exceed the safe cmd command-line budget. Use stdin prompt transport or an .exe/.ps1 launcher."
  else .ok ()

/-! ## The launcher and the transport -/

/-- `text.encode("utf-8")`. -/
def utf8 (text : List Char) : List Nat := (text.flatMap String.utf8EncodeChar).map UInt8.toNat

/-- `data.decode("utf-8")`. -/
def decodeUtf8 (data : List Nat) : Option (List Char) := ((data.map UInt8.ofNat).toByteArray.utf8Decode?).map Array.toList

def switches : List Char := " /d /s /v:off /c ".toList

def batchCommandLine (shell : String) (inner : List Char) : List Char :=
  '"' :: (shell.toList ++ '"' :: (switches ++ '"' :: (inner ++ ['"'])))

def transportModule : String := "crewplane.adapters.invokers.cli_invoker.windows_shell_transport"

def buildBatchLauncher (python executable shell : String) (arguments : List String) : Except String (List String) := do
  let values := executable :: arguments
  validateBatchArguments values
  return [python, "-m", transportModule, shell, String.ofList (b64encode (utf8 (batchCommandLine shell (encodedArguments values))))]

inductive LauncherKind where
  | native
  | batch
  | powershell
deriving DecidableEq

structure ResolvedCommand where
  executable : String
  kind : LauncherKind
  shell : Option String

def prepareWindowsLauncher (python : String) (resolved : ResolvedCommand) (arguments : List String) : Except String (List String) :=
  if arguments.any (holdsAny ['\x00']) then .error "Windows launcher arguments cannot contain NUL bytes."
  else
    match resolved.kind, resolved.shell with
    | .native, _ => .ok (resolved.executable :: arguments)
    | _, none => .error ("Required shell is missing for " ++ resolved.executable ++ ".")
    | .powershell, some shell => .ok (buildPowershellLauncher resolved.executable shell arguments)
    | .batch, some shell => buildBatchLauncher python resolved.executable shell arguments

def base64Value (c : Char) : Option Nat :=
  let n := c.toNat
  if 65 ≤ n ∧ n ≤ 90 then some (n - 65)
  else if 97 ≤ n ∧ n ≤ 122 then some (n - 71)
  else if 48 ≤ n ∧ n ≤ 57 then some (n + 4)
  else if n = 43 then some 62
  else if n = 47 then some 63
  else none

/-- `base64.b64decode(data, validate=True)`. -/
def b64decode : List Char → Option (List Nat)
  | [] => some []
  | a :: b :: c :: d :: rest =>
    if d = '=' ∧ rest = [] then do
      let x ← base64Value a
      let y ← base64Value b
      if c = '=' then return [x * 4 + y / 16]
      let z ← base64Value c
      return [x * 4 + y / 16, y % 16 * 16 + z / 4]
    else do
      let x ← base64Value a
      let y ← base64Value b
      let z ← base64Value c
      let w ← base64Value d
      let tail ← b64decode rest
      return (x * 4 + y / 16) :: (y % 16 * 16 + z / 4) :: (z % 4 * 64 + w) :: tail
  | _ => none

/-- The command line and the executable that the transport starts, from `sys.argv[1:]`. -/
def transport : List String → Option (List Char × String)
  | [shell, encoded] => do
    let data ← b64decode encoded.toList
    let commandLine ← decodeUtf8 data
    return (commandLine, shell)
  | _ => none

/-! ## What `cmd.exe` runs -/

/-- What follows the first `/c `. -/
def afterSwitch : List Char → Option (List Char)
  | [] => none
  | c :: rest => if ['/', 'c', ' '].isPrefixOf (c :: rest) then some (rest.drop 2) else afterSwitch rest

/-- The command behind the program, with `/s`: the quotes at its ends are removed. -/
def runText : List Char → Option (List Char)
  | '"' :: line => (afterSwitch (line.dropWhile (· ≠ '"')).tail).map fun command => command.tail.dropLast
  | _ => none

/-! ## Literals -/

theorem escapeLoop_edges (value : List Char) : ∀ n,
    (escapeLoop n value).1.head? ≠ some '"' ∧ (escapeLoop n value).1.getLast? ≠ some '\\' := by
  induction value with
  | nil => simp [escapeLoop]
  | cons c rest ih =>
    intro n
    rw [escapeLoop]
    by_cases hslash : c = '\\'
    · rw [if_pos hslash]
      exact ih (n + 1)
    · rw [if_neg hslash]
      have hlast := (ih 0).2
      by_cases hquote : c = '"'
      · rw [if_pos hquote]
        constructor
        · cases n <;> simp [slashes, List.replicate_succ, Nat.mul_add]
        · simp only [List.getLast?_append, List.getLast?_cons]
          cases hlater : (escapeLoop 0 rest).1.getLast? with
          | none => simp
          | some d =>
            rw [hlater] at hlast
            simpa using hlast
      · rw [if_neg hquote]
        constructor
        · cases n <;> simp [slashes, List.replicate_succ, hquote]
        · simp only [List.getLast?_append, List.getLast?_cons]
          cases hlater : (escapeLoop 0 rest).1.getLast? with
          | none => simp [hslash]
          | some d =>
            rw [hlater] at hlast
            simpa using hlast

/-- The backslashes after a text that does not end with one. -/
theorem rdropWhile_slashes {text : List Char} (h : text.getLast? ≠ some '\\') (n : Nat) :
    (text ++ slashes n).rdropWhile (fun c => decide (c = '\\')) = text := by
  induction n with
  | zero =>
    rw [slashes, List.replicate_zero, List.append_nil]
    cases htext : text.getLast? with
    | none => simp [List.getLast?_eq_none_iff.mp htext]
    | some c =>
      have hne : text ≠ [] := by
        rintro rfl
        simp at htext
      rw [List.rdropWhile_eq_self_iff]
      intro hne'
      rw [List.getLast?_eq_some_getLast hne'] at htext
      rw [List.getLast?_eq_some_getLast hne'] at h
      simpa using h
  | succ n ih =>
    rw [slashes, List.replicate_succ', ← List.append_assoc, List.rdropWhile_concat_pos _ _ _ (by simp)]
    exact ih

theorem batchLiteral_eq (value : List Char) : batchLiteral value = literal value := by
  obtain ⟨hhead, hlast⟩ := escapeLoop_edges value 0
  simp only [batchLiteral, list2cmdline, List.map_cons, List.map_nil, List.intercalate_singleton, quoteArgument]
  by_cases hneed : needQuote value = true
  · have hshape : '"' :: ((escapeLoop 0 value).1 ++ slashes (escapeLoop 0 value).2 ++ slashes (escapeLoop 0 value).2 ++ ['"']) =
        literal value := by
      rw [literal, List.append_assoc _ (slashes _) (slashes _), slashes_append, ← Nat.two_mul, List.append_assoc]
    have hclosed : (literal value).getLast? = some '"' := by
      rw [literal, ← List.append_assoc, ← List.cons_append, List.getLast?_append]
      simp
    rw [if_pos hneed, hshape, if_pos ⟨by simp [literal], hclosed⟩]
  · rw [if_neg hneed, if_neg]
    · rw [rdropWhile_slashes hlast, literal]
      simp [Nat.two_mul, slashes]
    · -- the first character is the value's, or a backslash
      rintro ⟨hquote, -⟩
      cases hwritten : (escapeLoop 0 value).1 with
      | nil =>
        rw [hwritten, List.nil_append, slashes] at hquote
        cases hleft : (escapeLoop 0 value).2 <;> simp [hleft, List.replicate_succ] at hquote
      | cons c rest =>
        rw [hwritten] at hquote hhead
        simp at hquote hhead
        exact hhead hquote

/-! ## Base64 and UTF-8 -/

theorem base64Value_digit : ∀ n < 64, base64Value (base64Digit n) = some n ∧ base64Digit n ≠ '=' := by
  decide +kernel

theorem b64decode_b64encode (data : List Nat) (h : ∀ byte ∈ data, byte < 256) : b64decode (b64encode data) = some data := by
  fun_induction b64encode data with
  | case1 => rfl
  | case2 a =>
    have ha := h a (by simp)
    have h1 := (base64Value_digit (a / 4) (by omega)).1
    have h2 := (base64Value_digit (a % 4 * 16) (by omega)).1
    simp [b64decode, h1, h2]
    omega
  | case3 a b =>
    have ha := h a (by simp)
    have hb := h b (by simp)
    have h1 := (base64Value_digit (a / 4) (by omega)).1
    have h2 := (base64Value_digit (a % 4 * 16 + b / 16) (by omega)).1
    have h3 := base64Value_digit (b % 16 * 4) (by omega)
    simp [b64decode, h1, h2, h3.1, h3.2]
    omega
  | case4 a b c rest ih =>
    have ha := h a (by simp)
    have hb := h b (by simp)
    have hc := h c (by simp)
    have hrest := ih (fun byte hbyte => h byte (by simp [hbyte]))
    have h1 := (base64Value_digit (a / 4) (by omega)).1
    have h2 := (base64Value_digit (a % 4 * 16 + b / 16) (by omega)).1
    have h3 := (base64Value_digit (b % 16 * 4 + c / 64) (by omega)).1
    have h4 := base64Value_digit (c % 64) (by omega)
    simp [b64decode, h1, h2, h3, h4.1, h4.2, hrest]
    omega

theorem decodeUtf8_utf8 (text : List Char) : decodeUtf8 (utf8 text) = some text := by
  have hbytes : ((utf8 text).map UInt8.ofNat).toByteArray = text.utf8Encode := by
    simp [utf8, List.utf8Encode, Function.comp_def]
  rw [decodeUtf8, hbytes, List.utf8Decode?_utf8Encode]
  simp

theorem utf8_lt (text : List Char) : ∀ byte ∈ utf8 text, byte < 256 := by
  intro byte hbyte
  obtain ⟨octet, -, rfl⟩ := List.mem_map.mp hbyte
  exact octet.toNat_lt

/-! ## The command line -/

theorem afterSwitch_switches (command : List Char) : afterSwitch (switches ++ command) = some command := by
  have hswitches : switches = [' ', '/', 'd', ' ', '/', 's', ' ', '/', 'v', ':', 'o', 'f', 'f', ' ', '/', 'c', ' '] := by
    decide +kernel
  rw [hswitches]
  simp [afterSwitch]

theorem runText_batchCommandLine {shell : String} (hshell : '"' ∉ shell.toList) (inner : List Char) :
    runText (batchCommandLine shell inner) = some inner := by
  have hprogram : (shell.toList ++ '"' :: (switches ++ '"' :: (inner ++ ['"']))).dropWhile (fun c => decide (c ≠ '"')) =
      '"' :: (switches ++ '"' :: (inner ++ ['"'])) := by
    rw [List.dropWhile_append_of_pos]
    · simp
    · intro c hc
      rw [decide_eq_true_eq]
      rintro rfl
      exact hshell hc
  rw [batchCommandLine, runText, hprogram, List.tail_cons, afterSwitch_switches]
  simp

theorem encodedArguments_eq (values : List String) :
    encodedArguments values = [' '].intercalate ((values.map String.toList).map literal) := by
  simp only [encodedArguments, batchLiteral_eq, List.map_map, Function.comp_def]

/-- Accepted values have no quotes or no shell metacharacters. -/
theorem apart_of_validate {values : List String} (h : validateBatchArguments values = .ok ()) :
    (∃ value ∈ values.map String.toList, '"' ∈ value) →
      ∀ value ∈ values.map String.toList, ∀ c ∈ value, decide (c ∈ shellMetacharacters) = false := by
  rintro ⟨first, hmem, hquote⟩ value hvalue c hc
  obtain ⟨quoted, hquoted, rfl⟩ := List.mem_map.mp hmem
  obtain ⟨text, htext, rfl⟩ := List.mem_map.mp hvalue
  rw [validateBatchArguments] at h
  have hnotboth : ¬ (values.any (holdsAny ['"']) = true ∧ values.any (holdsAny shellMetacharacters) = true) := by
    intro hboth
    rw [if_pos hboth] at h
    split at h <;> cases h
  have hfirst : values.any (holdsAny ['"']) = true := by
    rw [List.any_eq_true]
    refine ⟨quoted, hquoted, ?_⟩
    rw [holdsAny, List.any_eq_true]
    exact ⟨'"', hquote, by decide⟩
  by_contra hspecial
  apply hnotboth
  refine ⟨hfirst, ?_⟩
  rw [List.any_eq_true]
  refine ⟨text, htext, ?_⟩
  rw [holdsAny, List.any_eq_true]
  exact ⟨c, hc, by simpa using hspecial⟩

/-- **What the transport starts for accepted values is one command line**: `cmd.exe` sees its special characters in quoted
regions alone, and the argument rules read the values back. -/
theorem batch_transport_literal (python executable shell : String) (arguments : List String)
    (h : validateBatchArguments (executable :: arguments) = .ok ()) :
    ∃ (payload : String) (inner : List Char),
      buildBatchLauncher python executable shell arguments = .ok [python, "-m", transportModule, shell, payload] ∧
      transport [shell, payload] = some (batchCommandLine shell inner, shell) ∧
      (∀ found ∈ regions false inner, found.1 ∈ shellMetacharacters → found.2 = true) ∧
      splitArgs inner = (executable :: arguments).map String.toList ∧
      ('"' ∉ shell.toList → runText (batchCommandLine shell inner) = some inner) := by
  refine ⟨String.ofList (b64encode (utf8 (batchCommandLine shell (encodedArguments (executable :: arguments))))),
    encodedArguments (executable :: arguments), ?_, ?_, ?_, ?_, ?_⟩
  · rw [buildBatchLauncher, h]
    rfl
  · rw [transport, String.toList_ofList, b64decode_b64encode _ (utf8_lt _)]
    simp only [Option.bind_eq_bind, Option.bind_some, decodeUtf8_utf8]
    rfl
  · intro found hfound hspecial
    rw [encodedArguments_eq] at hfound
    exact @regions_of_apart _ (fun c => decide (c ∈ shellMetacharacters)) (by decide) (by decide) (by decide)
      (apart_of_validate h) found hfound (by simpa using hspecial)
  · rw [encodedArguments_eq, splitArgs_literals]
  · intro hshell
    exact runText_batchCommandLine hshell _

/-- A trailing backslash, a blank argument and metacharacters. -/
theorem batch_transport_literal_paths : ∃ (payload : String) (inner : List Char),
    buildBatchLauncher "python.exe" "C:\\run\\agent.cmd" "C:\\Windows\\cmd.exe" ["", "a & (b)", "dir\\"] =
      .ok ["python.exe", "-m", transportModule, "C:\\Windows\\cmd.exe", payload] ∧
    splitArgs inner = ["C:\\run\\agent.cmd", "", "a & (b)", "dir\\"].map String.toList := by
  have hvalid : validateBatchArguments ["C:\\run\\agent.cmd", "", "a & (b)", "dir\\"] = .ok () := by decide +kernel
  obtain ⟨payload, inner, hbuild, -, -, hargs, -⟩ := batch_transport_literal "python.exe" _ "C:\\Windows\\cmd.exe" _ hvalid
  exact ⟨payload, inner, hbuild, hargs⟩

end Crewplane.Launch
