import Mathlib.Data.List.Infix
import Mathlib.Tactic.Common
/-
# Streaks of a counter that can be reset

A history is read newest first. `inc` says which events count, `brk` which ones reset the counter; both may look at the
history before the event. The counter has reached `n + 1` exactly when some event counted on a counter of at least `n`
and nothing after it reset the counter.
-/
namespace Crewplane.Lib

section Streaks

variable {α : Type} (inc brk : List α → α → Prop) [∀ h e, Decidable (inc h e)] [∀ h e, Decidable (brk h e)]

/-- The counter after a history. -/
def streak : List α → Nat
  | [] => 0
  | e :: h => if inc h e then streak h + 1 else if brk h e then 0 else streak h

/-- Nothing in `later`, read after `h`, resets the counter. -/
def Unbroken (later h : List α) : Prop := ∀ front e back, later = front ++ e :: back → ¬ brk (back ++ h) e

variable {inc brk}

omit [∀ h e, Decidable (brk h e)] in
theorem unbroken_nil (h : List α) : Unbroken brk [] h := by
  intro front e back hsplit
  simp at hsplit

omit [∀ h e, Decidable (brk h e)] in
theorem unbroken_cons {e : α} {later h : List α} :
    Unbroken brk (e :: later) h ↔ ¬ brk (later ++ h) e ∧ Unbroken brk later h := by
  constructor
  · intro hall
    refine ⟨hall [] e later rfl, ?_⟩
    intro front x back hsplit
    exact hall (e :: front) x back (by rw [hsplit]; rfl)
  · rintro ⟨hfirst, hrest⟩ front x back hsplit
    cases front with
    | nil =>
      obtain ⟨rfl, rfl⟩ := List.cons_eq_cons.mp hsplit
      exact hfirst
    | cons y front =>
      obtain ⟨-, hsplit⟩ := List.cons_eq_cons.mp hsplit
      exact hrest front x back hsplit

theorem succ_le_streak {n : Nat} {h : List α} :
    n + 1 ≤ streak inc brk h ↔
      ∃ later e before, h = later ++ e :: before ∧ inc before e ∧ n ≤ streak inc brk before ∧
        Unbroken brk later (e :: before) := by
  induction h with
  | nil => simp [streak]
  | cons x h ih =>
    by_cases hx : inc h x
    · have hstreak : streak inc brk (x :: h) = streak inc brk h + 1 := if_pos hx
      rw [hstreak]
      constructor
      · intro hn
        exact ⟨[], x, h, rfl, hx, Nat.le_of_succ_le_succ hn, unbroken_nil _⟩
      · rintro ⟨later, e, before, hsplit, he, hn, hunbroken⟩
        cases later with
        | nil =>
          obtain ⟨rfl, rfl⟩ := List.cons_eq_cons.mp hsplit
          omega
        | cons y later =>
          obtain ⟨rfl, rfl⟩ := List.cons_eq_cons.mp hsplit
          have hsucc := ih.mpr ⟨later, e, before, rfl, he, hn, (unbroken_cons.mp hunbroken).2⟩
          omega
    · by_cases hreset : brk h x
      · have hstreak : streak inc brk (x :: h) = 0 := by simp [streak, hx, hreset]
        rw [hstreak]
        constructor
        · intro hn
          omega
        · rintro ⟨later, e, before, hsplit, he, hn, hunbroken⟩
          cases later with
          | nil =>
            obtain ⟨rfl, rfl⟩ := List.cons_eq_cons.mp hsplit
            exact absurd he hx
          | cons y later =>
            obtain ⟨rfl, rfl⟩ := List.cons_eq_cons.mp hsplit
            exact absurd hreset (unbroken_cons.mp hunbroken).1
      · have hstreak : streak inc brk (x :: h) = streak inc brk h := by simp [streak, hx, hreset]
        rw [hstreak, ih]
        constructor
        · rintro ⟨later, e, before, rfl, he, hn, hunbroken⟩
          exact ⟨x :: later, e, before, rfl, he, hn, unbroken_cons.mpr ⟨hreset, hunbroken⟩⟩
        · rintro ⟨later, e, before, hsplit, he, hn, hunbroken⟩
          cases later with
          | nil =>
            obtain ⟨rfl, rfl⟩ := List.cons_eq_cons.mp hsplit
            exact absurd he hx
          | cons y later =>
            obtain ⟨rfl, rfl⟩ := List.cons_eq_cons.mp hsplit
            exact ⟨later, e, before, rfl, he, hn, (unbroken_cons.mp hunbroken).2⟩

/-- Two events of the history count, and nothing between them resets the counter. -/
def TwoInARow (inc brk : List α → α → Prop) (h : List α) : Prop :=
  ∃ later e' between e before, h = later ++ e' :: (between ++ e :: before) ∧ inc before e ∧
    Unbroken brk between (e :: before) ∧ inc (between ++ e :: before) e'

/-- Some moment of the history had a counter of two or more exactly when two events in a row counted. -/
theorem twoInARow_iff {h : List α} :
    TwoInARow inc brk h ↔ ∃ older, older <:+ h ∧ 2 ≤ streak inc brk older := by
  constructor
  · rintro ⟨later, e', between, e, before, rfl, he, hunbroken, he'⟩
    refine ⟨e' :: (between ++ e :: before), List.suffix_append _ _, ?_⟩
    have hone : 1 ≤ streak inc brk (between ++ e :: before) :=
      succ_le_streak.mpr ⟨between, e, before, rfl, he, Nat.zero_le _, hunbroken⟩
    have hstreak : streak inc brk (e' :: (between ++ e :: before)) = streak inc brk (between ++ e :: before) + 1 :=
      if_pos he'
    omega
  · rintro ⟨older, ⟨front, rfl⟩, htwo⟩
    obtain ⟨later, e', before', rfl, he', hone, -⟩ := succ_le_streak.mp htwo
    obtain ⟨between, e, before, rfl, he, -, hunbroken⟩ := succ_le_streak.mp hone
    exact ⟨front ++ later, e', between, e, before, by simp, he, hunbroken, he'⟩

end Streaks

end Crewplane.Lib
