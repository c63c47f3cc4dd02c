import Mathlib
/-
# Text

The operations of Python's `str` that the program uses, and when composed names
are equal.
-/
namespace Crewplane.Lib

/-- `str.isspace` of one character. -/
def isSpace (c : Char) : Bool :=
  let n := c.toNat
  (9 ≤ n && n ≤ 13) || (28 ≤ n && n ≤ 32) || n = 0x85 || n = 0xa0 || n = 0x1680 || (0x2000 ≤ n && n ≤ 0x200a) ||
    n = 0x2028 || n = 0x2029 || n = 0x202f || n = 0x205f || n = 0x3000

/-- `text.strip()`, on the characters. -/
def stripChars (text : List Char) : List Char := ((text.dropWhile isSpace).reverse.dropWhile isSpace).reverse

/-- `text.strip()`. -/
def strip (text : String) : String := String.ofList (stripChars text.toList)

theorem repr_toList_isDigit (n : Nat) : ∀ c ∈ (Nat.repr n).toList, c.isDigit = true := by
  intro c hc
  simp only [Nat.repr, String.toList_ofList] at hc
  exact Nat.isDigit_of_mem_toDigits (by decide) (by decide) hc

/-- A number at the end of a name, after a character that is no digit, can be read off the name. -/
theorem append_repr_inj {p q : List Char} {c : Char} (hc : c.isDigit = false) {m n : Nat}
    (h : p ++ [c] ++ (Nat.repr m).toList = q ++ [c] ++ (Nat.repr n).toList) : p = q ∧ m = n := by
  have htake : ∀ (p : List Char) (m : Nat),
      (p ++ [c] ++ (Nat.repr m).toList).reverse.takeWhile Char.isDigit = (Nat.repr m).toList.reverse := by
    intro p m
    rw [List.reverse_append, List.reverse_append, List.takeWhile_append_of_pos]
    · simp [hc]
    · intro d hd
      exact repr_toList_isDigit m d (List.mem_reverse.mp hd)
  have hdigits : (Nat.repr m).toList = (Nat.repr n).toList := by
    have := htake p m
    rw [h, htake q n] at this
    exact (List.reverse_inj.mp this).symm
  rw [hdigits] at h
  have hpq := List.append_cancel_right h
  exact ⟨List.append_cancel_right hpq, Nat.repr_inj.mp (String.toList_inj.mp hdigits)⟩

end Crewplane.Lib
