import Mathlib.Data.List.Sublists
/-
# Interleavings with free elements

A list that holds the elements of another one in order, each exactly once, with free elements between them. A fixed
element may be free as well, so the cut is not unique; taking a fixed element as soon as it is next misses nothing
(`Interleaves.take_first`), which is what a greedy scan does.
-/
namespace Crewplane.Lib

variable {α : Type} {free : α → Prop}

/-- `Interleaves free fixed xs`: the elements of `fixed`, in order and each once, with free elements between them. -/
inductive Interleaves (free : α → Prop) : List α → List α → Prop
  | nil : Interleaves free [] []
  | fixed {x : α} {fixed xs : List α} : Interleaves free fixed xs → Interleaves free (x :: fixed) (x :: xs)
  | between {x : α} {fixed xs : List α} : free x → Interleaves free fixed xs → Interleaves free fixed (x :: xs)

namespace Interleaves

theorem refl (xs : List α) : Interleaves free xs xs := by
  induction xs with
  | nil => exact .nil
  | cons x xs ih => exact .fixed ih

/-- A fixed element that is free may be given up. -/
theorem release {x : α} {fixed xs : List α} (hx : free x) (h : Interleaves free (x :: fixed) xs) : Interleaves free fixed xs := by
  generalize hall : x :: fixed = all at h
  induction h with
  | nil => cases hall
  | fixed h _ =>
    cases hall
    exact .between hx h
  | between hy _ ih => exact .between hy (ih hall)

/-- The exchange: what is next may be taken at once. -/
theorem take_first {x : α} {fixed xs : List α} (h : Interleaves free (x :: fixed) (x :: xs)) : Interleaves free fixed xs := by
  cases h with
  | fixed h => exact h
  | between hx h => exact h.release hx

/-- What is not next is free. -/
theorem skip {x : α} {fixed xs : List α} (hne : fixed.head? ≠ some x) (h : Interleaves free fixed (x :: xs)) :
    free x ∧ Interleaves free fixed xs := by
  cases h with
  | fixed h => exact absurd rfl hne
  | between hx h => exact ⟨hx, h⟩

theorem nil_iff {fixed : List α} : Interleaves free fixed [] ↔ fixed = [] := by
  constructor
  · intro h
    cases h
    rfl
  · rintro rfl
    exact .nil

theorem sublist {fixed xs : List α} (h : Interleaves free fixed xs) : fixed.Sublist xs := by
  induction h with
  | nil => exact .slnil
  | fixed _ ih => exact ih.cons_cons _
  | between _ _ ih => exact ih.cons _

end Interleaves

/-! ## Greedy subsequences -/

theorem sublist_cons_of_head_ne {x : α} {ys xs : List α} (hne : ys.head? ≠ some x) (h : ys.Sublist (x :: xs)) :
    ys.Sublist xs := by
  cases h with
  | cons _ h => exact h
  | cons_cons _ h => exact absurd rfl hne

end Crewplane.Lib
