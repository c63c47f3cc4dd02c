import Mathlib
/-
# Reachability with a worklist

`collect` takes an element from the pending ones, passes over it when it was seen, and puts what it leads to on top.
With enough fuel the result is what the pending elements reach (`mem_collect`).
-/
namespace Crewplane.Lib.Worklist

open Relation

variable {α : Type} [DecidableEq α] (next : α → List α)

/-- The loop `while pending`; the last element of the Python list is the head here. -/
def collect : Nat → List α → List α → List α
  | 0, _, seen => seen
  | _ + 1, [], seen => seen
  | fuel + 1, x :: pending, seen =>
    if seen.contains x then collect fuel pending seen else collect fuel ((next x).reverse ++ pending) (x :: seen)

/-- What still has to be taken: the pending elements, and what the unseen ones of `univ` lead to. -/
def cost (univ pending seen : List α) : Nat :=
  pending.length + ((univ.filter (· ∉ seen)).map fun x => (next x).length).sum

/-- The elements that were seen lead to seen or pending ones. -/
def Frontier (pending seen : List α) : Prop := ∀ x ∈ seen, ∀ y ∈ next x, y ∈ seen ∨ y ∈ pending

variable {next}

theorem cost_seen {univ pending seen : List α} {x : α} (hx : x ∉ seen) (huniv : next x ≠ [] → x ∈ univ) (hnodup : univ.Nodup) :
    cost next univ ((next x).reverse ++ pending) (x :: seen) + 1 = cost next univ (x :: pending) seen := by
  have hsplit : ((univ.filter (· ∉ x :: seen)).map fun x => (next x).length).sum + (next x).length =
      ((univ.filter (· ∉ seen)).map fun x => (next x).length).sum := by
    by_cases hmem : x ∈ univ
    · have hfilter : univ.filter (· ∉ x :: seen) = (univ.filter (· ∉ seen)).erase x := by
        rw [(hnodup.filter _).erase_eq_filter, List.filter_filter]
        refine List.filter_congr fun y _ => ?_
        by_cases hyx : y = x <;> simp [hyx]
      have hin : x ∈ univ.filter (· ∉ seen) := List.mem_filter.mpr ⟨hmem, by simpa using hx⟩
      rw [hfilter, ((List.perm_cons_erase hin).map fun x => (next x).length).sum_eq, List.map_cons, List.sum_cons,
        Nat.add_comm]
    · have hnone : next x = [] := by
        by_contra hne
        exact hmem (huniv hne)
      have hfilter : univ.filter (· ∉ x :: seen) = univ.filter (· ∉ seen) := by
        refine List.filter_congr fun y hy => ?_
        have hyx : y ≠ x := fun h => hmem (h ▸ hy)
        simp [hyx]
      rw [hfilter, hnone, List.length_nil, Nat.add_zero]
  simp only [cost, List.length_append, List.length_reverse, List.length_cons]
  omega

/-- The loop ends with every seen element leading to seen ones; it adds only what is reached. -/
theorem collect_spec {univ : List α} (huniv : ∀ x, next x ≠ [] → x ∈ univ) (hnodup : univ.Nodup) {fuel : Nat}
    {pending seen : List α} (hfuel : cost next univ pending seen < fuel) (hfrontier : Frontier next pending seen) :
    (∀ x ∈ collect next fuel pending seen, ∀ y ∈ next x, y ∈ collect next fuel pending seen) ∧
    (∀ x, x ∈ seen ∨ x ∈ pending → x ∈ collect next fuel pending seen) ∧
    ∀ x ∈ collect next fuel pending seen, x ∈ seen ∨ ∃ p ∈ pending, ReflTransGen (fun a b => b ∈ next a) p x := by
  induction fuel generalizing pending seen with
  | zero => omega
  | succ fuel ih =>
    cases pending with
    | nil =>
      refine ⟨fun x hx y hy => (hfrontier x hx y hy).resolve_right List.not_mem_nil, fun x hx => ?_, fun x hx => .inl hx⟩
      exact hx.resolve_right List.not_mem_nil
    | cons x pending =>
      by_cases hx : x ∈ seen
      · have hskip : collect next (fuel + 1) (x :: pending) seen = collect next fuel pending seen := by
          rw [collect, if_pos (List.contains_iff_mem.mpr hx)]
        have hcost : cost next univ pending seen < fuel := by
          simp only [cost, List.length_cons] at hfuel ⊢
          omega
        have hrest : Frontier next pending seen := by
          intro a ha y hy
          rcases hfrontier a ha y hy with h | h
          · exact .inl h
          · rcases List.mem_cons.mp h with rfl | h
            · exact .inl hx
            · exact .inr h
        obtain ⟨hclosed, hkeeps, honly⟩ := ih hcost hrest
        rw [hskip]
        refine ⟨hclosed, fun y hy => hkeeps y ?_, fun y hy => (honly y hy).imp_right ?_⟩
        · rcases hy with hy | hy
          · exact .inl hy
          · rcases List.mem_cons.mp hy with rfl | hy
            · exact .inl hx
            · exact .inr hy
        · rintro ⟨p, hp, hreach⟩
          exact ⟨p, List.mem_cons_of_mem x hp, hreach⟩
      · have htake : collect next (fuel + 1) (x :: pending) seen =
            collect next fuel ((next x).reverse ++ pending) (x :: seen) := by
          rw [collect, if_neg fun h => hx (List.contains_iff_mem.mp h)]
        have hcost := @cost_seen _ _ next univ pending seen x hx (huniv x) hnodup
        have hrest : Frontier next ((next x).reverse ++ pending) (x :: seen) := by
          intro a ha y hy
          rw [List.mem_append, List.mem_reverse]
          rcases List.mem_cons.mp ha with rfl | ha
          · exact .inr (.inl hy)
          · rcases hfrontier a ha y hy with h | h
            · exact .inl (List.mem_cons_of_mem x h)
            · rcases List.mem_cons.mp h with rfl | h
              · exact .inl List.mem_cons_self
              · exact .inr (.inr h)
        obtain ⟨hclosed, hkeeps, honly⟩ := ih (by omega) hrest
        rw [htake]
        refine ⟨hclosed, fun y hy => hkeeps y ?_, fun y hy => ?_⟩
        · rw [List.mem_cons, List.mem_append]
          rcases hy with hy | hy
          · exact .inl (.inr hy)
          · rcases List.mem_cons.mp hy with rfl | hy
            · exact .inl (.inl rfl)
            · exact .inr (.inr hy)
        · rcases honly y hy with hseen | ⟨p, hp, hreach⟩
          · rcases List.mem_cons.mp hseen with rfl | hseen
            · exact .inr ⟨_, List.mem_cons_self, .refl⟩
            · exact .inl hseen
          · rcases List.mem_append.mp hp with hp | hp
            · exact .inr ⟨x, List.mem_cons_self, .head (List.mem_reverse.mp hp) hreach⟩
            · exact .inr ⟨p, List.mem_cons_of_mem x hp, hreach⟩

/-- The result is what the pending elements reach. -/
theorem mem_collect {univ : List α} (huniv : ∀ x, next x ≠ [] → x ∈ univ) (hnodup : univ.Nodup) {fuel : Nat} {pending : List α}
    (hfuel : pending.length + (univ.map fun x => (next x).length).sum < fuel) {x : α} :
    x ∈ collect next fuel pending [] ↔ ∃ p ∈ pending, ReflTransGen (fun a b => b ∈ next a) p x := by
  have hcost : cost next univ pending [] < fuel := by
    simpa [cost] using hfuel
  obtain ⟨hclosed, hkeeps, honly⟩ := collect_spec huniv hnodup hcost (by simp [Frontier])
  constructor
  · intro hx
    exact (honly x hx).resolve_left List.not_mem_nil
  · rintro ⟨p, hp, hreach⟩
    induction hreach with
    | refl => exact hkeeps p (.inr hp)
    | tail _ hstep ih => exact hclosed _ ih _ hstep

theorem nodup_collect {fuel : Nat} {pending seen : List α} (h : seen.Nodup) : (collect next fuel pending seen).Nodup := by
  induction fuel generalizing pending seen with
  | zero => exact h
  | succ fuel ih =>
    cases pending with
    | nil => exact h
    | cons x pending =>
      rw [collect]
      split
      next => exact ih h
      next hx => exact ih (List.nodup_cons.mpr ⟨fun hmem => hx (List.contains_iff_mem.mpr hmem), h⟩)

end Crewplane.Lib.Worklist
