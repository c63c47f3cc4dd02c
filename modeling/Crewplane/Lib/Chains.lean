import Mathlib
/-
# Chains in a ranked order

A transitive relation that raises a rank. A list that is sorted by the rank is linked from each element to the next
exactly when any two of its elements are related (`isChain_iff_total`), so looking at neighbours is enough. What
`latest` chooses is above all others when they are related to one another.
-/
namespace Crewplane.Lib.Chains

variable {α : Type} {r : α → α → Prop}

theorem isChain_iff_total {rank : α → Nat} (htrans : ∀ {a b c}, r a b → r b c → r a c) (hrank : ∀ {a b}, r a b → rank a < rank b)
    {l : List α} (hsorted : l.Pairwise fun a b => rank a ≤ rank b) (hnodup : l.Nodup) :
    l.IsChain r ↔ ∀ a ∈ l, ∀ b ∈ l, a ≠ b → r a b ∨ r b a := by
  have htransitive : IsTrans α r := ⟨fun _ _ _ => htrans⟩
  rw [List.isChain_iff_pairwise]
  constructor
  · intro hpairwise a ha b hb hab
    have hsymm : Std.Symm fun a b : α => r a b ∨ r b a := ⟨fun _ _ => Or.symm⟩
    have heither : l.Pairwise fun a b => r a b ∨ r b a := hpairwise.imp Or.inl
    exact heither.forall ha hb hab
  · intro htotal
    refine (hsorted.and hnodup).imp_of_mem ?_
    rintro a b ha hb ⟨hle, hne⟩
    refine (htotal a ha b hb hne).resolve_right fun hba => ?_
    have := hrank hba
    omega

/-! ## The latest element -/

section Latest

variable {β : Type} [LinearOrder β] (key : α → β)

def latestFrom (best : α) : List α → α
  | [] => best
  | x :: xs => latestFrom (if key best < key x then x else best) xs

/-- `max(xs, key=key, default=None)`: the first of the greatest elements. -/
def latest : List α → Option α
  | [] => none
  | x :: xs => some (latestFrom key x xs)

variable {key}

theorem latestFrom_spec (best : α) (xs : List α) :
    latestFrom key best xs ∈ best :: xs ∧ ∀ x ∈ best :: xs, key x ≤ key (latestFrom key best xs) := by
  induction xs generalizing best with
  | nil => simp [latestFrom]
  | cons y xs ih =>
    obtain ⟨hmem, hmax⟩ := ih (if key best < key y then y else best)
    rw [latestFrom]
    have hbest : key best ≤ key (if key best < key y then y else best) ∧ key y ≤ key (if key best < key y then y else best) := by
      split
      next h => exact ⟨h.le, le_rfl⟩
      next h => exact ⟨le_rfl, not_lt.mp h⟩
    have hnext := hmax _ List.mem_cons_self
    constructor
    · rcases List.mem_cons.mp hmem with h | h
      · rw [h]
        split <;> simp
      · exact List.mem_cons_of_mem _ (List.mem_cons_of_mem _ h)
    · intro x hx
      rcases List.mem_cons.mp hx with rfl | hx
      · exact hbest.1.trans hnext
      · rcases List.mem_cons.mp hx with rfl | hx
        · exact hbest.2.trans hnext
        · exact hmax x (List.mem_cons_of_mem _ hx)

theorem latest_eq_none {xs : List α} : latest key xs = none ↔ xs = [] := by
  cases xs <;> simp [latest]

theorem latest_spec {xs : List α} {m : α} (h : latest key xs = some m) : m ∈ xs ∧ ∀ x ∈ xs, key x ≤ key m := by
  cases xs with
  | nil => cases h
  | cons x xs =>
    cases h
    exact latestFrom_spec x xs

/-- In a chain whose order the keys follow, the latest element is the one that all others are before. -/
theorem latest_eq_iff {xs : List α} (hkey : ∀ a ∈ xs, ∀ b ∈ xs, r a b → key a < key b)
    (htotal : ∀ a ∈ xs, ∀ b ∈ xs, a ≠ b → r a b ∨ r b a) {m : α} :
    latest key xs = some m ↔ m ∈ xs ∧ ∀ x ∈ xs, x ≠ m → r x m := by
  constructor
  · intro h
    obtain ⟨hm, hmax⟩ := latest_spec h
    refine ⟨hm, fun x hx hne => (htotal x hx m hm hne).resolve_right fun hmx => ?_⟩
    exact absurd (hkey m hm x hx hmx) (hmax x hx).not_gt
  · rintro ⟨hm, hbefore⟩
    cases hlatest : latest key xs with
    | none =>
      rw [latest_eq_none.mp hlatest] at hm
      cases hm
    | some m' =>
      obtain ⟨hm', hmax⟩ := latest_spec hlatest
      rw [Option.some.injEq]
      by_contra hne
      exact absurd (hkey m' hm' m hm (hbefore m' hm' hne)) (hmax m hm).not_gt

end Latest

end Crewplane.Lib.Chains
