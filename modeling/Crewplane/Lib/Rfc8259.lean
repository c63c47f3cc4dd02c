import Mathlib.Data.List.Basic
import Mathlib.Data.List.TakeWhile
/-
# The grammar of RFC 8259

The rules of the RFC over a text as the list of its characters, each with the value it stands for.
A `\u` escape names a UTF-16 code unit: a high unit directly followed by a low one is one character,
any other surrogate stays unpaired in the decoded string (§7, §8.2).
-/
namespace Crewplane.Lib.Rfc8259

/-! ## White space and structural characters (§2) -/

def isWs (c : Char) : Bool := c = ' ' || c = '\t' || c = '\n' || c = '\r'

def Ws (w : List Char) : Prop := ∀ c ∈ w, isWs c

/-- `begin-array = ws %x5B ws` and its five siblings. -/
def Structural (c : Char) (t : List Char) : Prop := ∃ l r, Ws l ∧ Ws r ∧ t = l ++ c :: r

def dropWs (s : List Char) : List Char := s.dropWhile isWs

theorem ws_nil : Ws [] := fun _ h => nomatch h

theorem Ws.append {l r : List Char} (hl : Ws l) (hr : Ws r) : Ws (l ++ r) := by
  intro c hc
  rcases List.mem_append.mp hc with h | h
  · exact hl c h
  · exact hr c h

theorem dropWs_append {l : List Char} (hl : Ws l) (s : List Char) : dropWs (l ++ s) = dropWs s :=
  List.dropWhile_append_of_pos hl

theorem dropWs_cons {c : Char} (hc : isWs c = false) (s : List Char) : dropWs (c :: s) = c :: s := by
  simp [dropWs, hc]

/-- What `dropWs` drops is white space. -/
theorem dropWs_split (s : List Char) : ∃ l, Ws l ∧ s = l ++ dropWs s :=
  ⟨s.takeWhile isWs, fun _ h => List.mem_takeWhile_imp h, List.takeWhile_append_dropWhile.symm⟩

theorem structural_self (c : Char) : Structural c [c] := ⟨[], [], ws_nil, ws_nil, rfl⟩

/-! ## Numbers (§6) -/

def isDigit (c : Char) : Bool := '0' ≤ c && c ≤ '9'

def Digits (w : List Char) : Prop := ∀ c ∈ w, isDigit c

/-- `int = zero / ( digit1-9 *DIGIT )`. -/
def IntPart (w : List Char) : Prop := w = ['0'] ∨ ∃ c ds, w = c :: ds ∧ isDigit c ∧ c ≠ '0' ∧ Digits ds

/-- `1*DIGIT`. -/
def SomeDigits (w : List Char) : Prop := w ≠ [] ∧ Digits w

/-- `[ frac ]` with `frac = decimal-point 1*DIGIT`. -/
def OptFrac (w : List Char) : Prop := w = [] ∨ ∃ ds, w = '.' :: ds ∧ SomeDigits ds

/-- `[ minus / plus ] 1*DIGIT`, what follows the `e` of an exponent. -/
def Exponent (w : List Char) : Prop :=
  ∃ sign ds, w = sign ++ ds ∧ (sign = [] ∨ sign = ['-'] ∨ sign = ['+']) ∧ SomeDigits ds

/-- `[ exp ]` with `exp = e [ minus / plus ] 1*DIGIT`. -/
def OptExp (w : List Char) : Prop := w = [] ∨ ∃ e u, w = e :: u ∧ (e = 'e' ∨ e = 'E') ∧ Exponent u

/-- `number = [ minus ] int [ frac ] [ exp ]`. -/
def Number (w : List Char) : Prop :=
  ∃ minus int frac exp, w = minus ++ int ++ frac ++ exp ∧ (minus = [] ∨ minus = ['-']) ∧ IntPart int ∧
    OptFrac frac ∧ OptExp exp

/-! ## Strings (§7) -/

/-- What one `char` of a string stands for: a character, or the code unit of a `\u` escape. -/
inductive Piece where
  | plain (c : Char)
  | unit (n : Nat)

/-- An element of a decoded string. -/
inductive Element where
  | scalar (c : Char)
  | surrogate (n : Nat)
deriving DecidableEq

/-- The character that stands for an element in a text, which has no unpaired surrogate. -/
def Element.replaced : Element → Char
  | scalar c => c
  | surrogate _ => '\ufffd'

def isHigh (n : Nat) : Bool := 0xD800 ≤ n && n ≤ 0xDBFF

def isLow (n : Nat) : Bool := 0xDC00 ≤ n && n ≤ 0xDFFF

def combine (high low : Nat) : Char := Char.ofNat (0x10000 + (high - 0xD800) * 0x400 + (low - 0xDC00))

/-- A code unit that is not part of a pair. -/
def single (n : Nat) : Element := if isHigh n || isLow n then .surrogate n else .scalar (Char.ofNat n)

def decode : List Piece → List Element
  | [] => []
  | .plain c :: ps => .scalar c :: decode ps
  | .unit high :: .unit low :: ps =>
    if isHigh high && isLow low then .scalar (combine high low) :: decode ps
    else single high :: decode (.unit low :: ps)
  | .unit n :: ps => single n :: decode ps

theorem decode_plain (c : Char) (ps : List Piece) : decode (.plain c :: ps) = .scalar c :: decode ps := by
  simp [decode]

theorem decode_pair {high low : Nat} (hh : isHigh high) (hl : isLow low) (ps : List Piece) :
    decode (.unit high :: .unit low :: ps) = .scalar (combine high low) :: decode ps := by
  simp [decode, hh, hl]

theorem decode_single {n : Nat} {ps : List Piece} (h : isHigh n → ∀ low ps', ps = .unit low :: ps' → isLow low = false) :
    decode (.unit n :: ps) = single n :: decode ps := by
  rcases ps with - | ⟨_ | low, ps⟩
  · simp [decode]
  · simp [decode]
  · by_cases hn : isHigh n = true
    · simp [decode, h hn low ps rfl]
    · simp [decode, hn]

def hexDigits : List Char :=
  ['0', '1', '2', '3', '4', '5', '6', '7', '8', '9', 'a', 'b', 'c', 'd', 'e', 'f', 'A', 'B', 'C', 'D', 'E', 'F']

def hexValue (c : Char) : Nat :=
  if c ≤ '9' then c.toNat - '0'.toNat else if 'a' ≤ c then 10 + c.toNat - 'a'.toNat else 10 + c.toNat - 'A'.toNat

/-- The number a string of hexadecimal digits names. -/
def hexNumber (cs : List Char) : Nat := cs.foldl (fun n c => 16 * n + hexValue c) 0

/-- The character a two-character escape stands for, by the character after its backslash. -/
def shortEscape : Char → Option Char
  | '"' => some '"'
  | '\\' => some '\\'
  | '/' => some '/'
  | 'b' => some '\x08'
  | 'f' => some '\x0c'
  | 'n' => some '\n'
  | 'r' => some '\r'
  | 't' => some '\t'
  | _ => none

/-- `unescaped = %x20-21 / %x23-5B / %x5D-10FFFF`. -/
def Unescaped (c : Char) : Prop := 0x20 ≤ c.toNat ∧ c ≠ '"' ∧ c ≠ '\\'

inductive CharText : List Char → Piece → Prop
  | unescaped {c : Char} (h : Unescaped c) : CharText [c] (.plain c)
  | escaped {e c : Char} (h : shortEscape e = some c) : CharText ['\\', e] (.plain c)
  | hex {a b c d : Char} (h : ∀ x ∈ [a, b, c, d], x ∈ hexDigits) :
      CharText ['\\', 'u', a, b, c, d] (.unit (hexNumber [a, b, c, d]))

/-- `*char`. -/
inductive Chars : List Char → List Piece → Prop
  | nil : Chars [] []
  | cons {w u : List Char} {p : Piece} {ps : List Piece} (hw : CharText w p) (hu : Chars u ps) : Chars (w ++ u) (p :: ps)

/-- `string = quotation-mark *char quotation-mark`, with the string it stands for. -/
def StringText (t : List Char) (s : List Element) : Prop :=
  ∃ w ps, t = '"' :: (w ++ ['"']) ∧ Chars w ps ∧ s = decode ps

/-! ## Values (§3, §4, §5) -/

inductive Value where
  | literal (w : List Char)
  | number (w : List Char)
  | string (s : List Element)
  | array (vs : List Value)
  | object (ms : List (List Element × Value))

/-- The rules that refer to each other, with what they stand for: `value`, `member`, and the repetitions
`*( value-separator value )` and `*( value-separator member )`. -/
inductive Rule where
  | value (v : Value)
  | member (m : List Element × Value)
  | moreValues (vs : List Value)
  | moreMembers (ms : List (List Element × Value))

def literals : List (List Char) := [['f', 'a', 'l', 's', 'e'], ['n', 'u', 'l', 'l'], ['t', 'r', 'u', 'e']]

inductive Derives : List Char → Rule → Prop
  | literal {w : List Char} (h : w ∈ literals) : Derives w (.value (.literal w))
  | number {w : List Char} (h : Number w) : Derives w (.value (.number w))
  | string {w : List Char} {s : List Element} (h : StringText w s) : Derives w (.value (.string s))
  | emptyArray {l r : List Char} (hl : Structural '[' l) (hr : Structural ']' r) :
      Derives (l ++ r) (.value (.array []))
  | array {l w u r : List Char} {v : Value} {vs : List Value} (hl : Structural '[' l) (hv : Derives w (.value v))
      (hvs : Derives u (.moreValues vs)) (hr : Structural ']' r) :
      Derives (l ++ w ++ u ++ r) (.value (.array (v :: vs)))
  | emptyObject {l r : List Char} (hl : Structural '\x7b' l) (hr : Structural '\x7d' r) :
      Derives (l ++ r) (.value (.object []))
  | object {l w u r : List Char} {m : List Element × Value} {ms : List (List Element × Value)}
      (hl : Structural '\x7b' l) (hm : Derives w (.member m)) (hms : Derives u (.moreMembers ms))
      (hr : Structural '\x7d' r) : Derives (l ++ w ++ u ++ r) (.value (.object (m :: ms)))
  | member {k t w : List Char} {s : List Element} {v : Value} (hk : StringText k s) (ht : Structural ':' t)
      (hv : Derives w (.value v)) : Derives (k ++ t ++ w) (.member (s, v))
  | noValues : Derives [] (.moreValues [])
  | moreValues {t w u : List Char} {v : Value} {vs : List Value} (ht : Structural ',' t) (hv : Derives w (.value v))
      (hvs : Derives u (.moreValues vs)) : Derives (t ++ w ++ u) (.moreValues (v :: vs))
  | noMembers : Derives [] (.moreMembers [])
  | moreMembers {t w u : List Char} {m : List Element × Value} {ms : List (List Element × Value)}
      (ht : Structural ',' t) (hm : Derives w (.member m)) (hms : Derives u (.moreMembers ms)) :
      Derives (t ++ w ++ u) (.moreMembers (m :: ms))

/-- `JSON-text = ws value ws`. -/
def JsonText (t : List Char) (v : Value) : Prop :=
  ∃ l w r, t = l ++ w ++ r ∧ Ws l ∧ Derives w (.value v) ∧ Ws r

end Crewplane.Lib.Rfc8259
