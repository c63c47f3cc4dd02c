import Crewplane.Lib.Text
/-
# Stripped text

What `stripChars` leaves: an edge is never white space, other characters stay, and a piece of the text with such edges
stays in one piece.
-/
namespace Crewplane.Lib

theorem dropWhile_keeps {a b c : List Char} (hne : b ≠ []) (hb : isSpace (b.head hne) = false) :
    ∃ a', (a ++ (b ++ c)).dropWhile isSpace = a' ++ (b ++ c) := by
  have hstop : (b ++ c).dropWhile isSpace = b ++ c := by
    obtain ⟨x, rest, rfl⟩ := List.exists_cons_of_ne_nil hne
    simp only [List.head_cons] at hb
    simp [hb]
  rw [List.dropWhile_append]
  split
  · exact ⟨[], hstop⟩
  · exact ⟨_, rfl⟩

/-- A text that begins and ends with characters that are no white space stays in one piece. -/
theorem infix_stripChars {a b c : List Char} (hne : b ≠ []) (hhead : isSpace (b.head hne) = false)
    (hlast : isSpace (b.getLast hne) = false) : b <:+: stripChars (a ++ (b ++ c)) := by
  obtain ⟨a', ha'⟩ := dropWhile_keeps (a := a) (c := c) hne hhead
  have hne' : b.reverse ≠ [] := by simpa using hne
  have hhead' : isSpace (b.reverse.head hne') = false := by
    rw [List.head_reverse]
    exact hlast
  obtain ⟨c', hc'⟩ := dropWhile_keeps (a := c.reverse) (c := a'.reverse) hne' hhead'
  refine ⟨a', c'.reverse, ?_⟩
  have hreverse : (a' ++ (b ++ c)).reverse = c.reverse ++ (b.reverse ++ a'.reverse) := by simp
  rw [stripChars, ha', hreverse, hc']
  simp

theorem head_dropWhile {text : List Char} (hne : text.dropWhile isSpace ≠ []) :
    isSpace ((text.dropWhile isSpace).head hne) = false := by
  have h := List.head_dropWhile_not isSpace hne
  simpa using h

/-- The last character of what is left of the front is the last character. -/
theorem stripChars_edges {text : List Char} (hne : stripChars text ≠ []) :
    isSpace ((stripChars text).head hne) = false ∧ isSpace ((stripChars text).getLast hne) = false := by
  have hback : ((text.dropWhile isSpace).reverse.dropWhile isSpace) ≠ [] := by simpa [stripChars] using hne
  have hfront : text.dropWhile isSpace ≠ [] := by
    intro hnil
    rw [hnil] at hback
    exact hback rfl
  constructor
  · have hpre : stripChars text <+: text.dropWhile isSpace := by
      rw [stripChars, ← List.reverse_suffix, List.reverse_reverse]
      exact List.dropWhile_suffix isSpace
    rw [hpre.head hne]
    exact head_dropWhile hfront
  · have hlast : (stripChars text).getLast hne = ((text.dropWhile isSpace).reverse.dropWhile isSpace).head hback := by
      simp only [stripChars, List.getLast_reverse]
    rw [hlast]
    exact head_dropWhile hback

theorem mem_stripChars {text : List Char} {c : Char} (h : c ∈ text) (hc : isSpace c = false) : c ∈ stripChars text := by
  obtain ⟨a, b, rfl⟩ := List.append_of_mem h
  have hinfix : [c] <:+: stripChars (a ++ ([c] ++ b)) := infix_stripChars (by simp) (by simpa using hc) (by simpa using hc)
  exact hinfix.subset (List.mem_singleton.mpr rfl)

end Crewplane.Lib
