import Mathlib
/-
# Lists as keyed records

`find?` by a key that is unique in the list is membership with that key;
counting with a condition that one element leaves drops by one for each of its
occurrences, and filtering with a stronger condition that rejects one more
element is shorter. In a list that is sorted lexicographically, what stands
between a list and one of its extensions is an extension too.
-/
namespace Crewplane.Lib

variable {α κ : Type} [DecidableEq κ]

theorem find?_key_eq_some {key : α → κ} {xs : List α} (hn : (xs.map key).Nodup) {k : κ} {x : α} :
    xs.find? (fun y => decide (key y = k)) = some x ↔ x ∈ xs ∧ key x = k := by
  constructor
  · intro hf
    exact ⟨List.mem_of_find?_eq_some hf, by simpa using List.find?_some hf⟩
  · rintro ⟨hmem, rfl⟩
    induction xs with
    | nil => simp at hmem
    | cons a xs ih =>
      have hnd : key a ∉ xs.map key ∧ (xs.map key).Nodup := by simpa using hn
      rcases List.mem_cons.mp hmem with rfl | hmem
      · simp
      · have hne : key a ≠ key x := fun he => hnd.1 (he ▸ List.mem_map_of_mem hmem)
        rw [List.find?_cons_of_neg (by simpa using hne)]
        exact ih hnd.2 hmem

/-- When only `a` leaves the condition, the count of a duplicate-free list drops by one if `a` is in it. -/
theorem countP_drop {p q : κ → Bool} {a : κ} (hp : p a = true) (hq : q a = false) (hpq : ∀ x, x ≠ a → q x = p x)
    {xs : List κ} (hxs : xs.Nodup) : xs.countP p = xs.countP q + if a ∈ xs then 1 else 0 := by
  induction xs with
  | nil => simp
  | cons x xs ih =>
    obtain ⟨hx, hxs⟩ := List.nodup_cons.mp hxs
    rw [List.countP_cons, List.countP_cons, ih hxs]
    by_cases hax : x = a
    · subst hax
      simp [hp, hq, hx]
    · have hxa : a ≠ x := fun e => hax e.symm
      rw [hpq x hax]
      simp only [List.mem_cons, hxa, false_or]
      omega

omit [DecidableEq κ] in
theorem length_filter_lt {p q : κ → Bool} {xs : List κ} (hpq : ∀ x, p x = true → q x = true) {a : κ} (ha : a ∈ xs)
    (hq : q a = true) (hp : p a = false) : (xs.filter p).length < (xs.filter q).length := by
  induction xs with
  | nil => simp at ha
  | cons x xs ih =>
    have hle : ∀ ys : List κ, (ys.filter p).length ≤ (ys.filter q).length := fun ys =>
      (List.monotone_filter_right ys fun x hx => hpq x hx).length_le
    rcases List.mem_cons.mp ha with rfl | ha
    · have hle := hle xs
      rw [List.filter_cons_of_neg (by simp [hp]), List.filter_cons_of_pos hq, List.length_cons]
      omega
    · have hlt := ih ha
      by_cases hpx : p x = true
      · rw [List.filter_cons_of_pos hpx, List.filter_cons_of_pos (hpq x hpx), List.length_cons, List.length_cons]
        omega
      · by_cases hqx : q x = true
        · rw [List.filter_cons_of_neg hpx, List.filter_cons_of_pos hqx, List.length_cons]
          omega
        · rwa [List.filter_cons_of_neg hpx, List.filter_cons_of_neg hqx]

/-- A run of elements with `p`, where the next element is without. -/
theorem takeWhile_run {α : Type} {p : α → Bool} {xs ys : List α} (hxs : ∀ x ∈ xs, p x = true) (hys : ∀ y ∈ ys.head?, p y = false) :
    (xs ++ ys).takeWhile p = xs ∧ (xs ++ ys).dropWhile p = ys := by
  rw [List.takeWhile_append_of_pos hxs, List.dropWhile_append_of_pos hxs]
  cases ys with
  | nil => simp
  | cons y ys =>
    have hy : p y = false := hys y rfl
    simp [hy]

/-! ## Sorted lists -/

theorem cons_le_cons {α : Type} [LinearOrder α] {x y : α} {a b : List α} : x :: a ≤ y :: b ↔ x < y ∨ x = y ∧ a ≤ b := by
  rw [le_iff_lt_or_eq, List.cons_lt_cons_iff, le_iff_lt_or_eq, List.cons.injEq, or_assoc, and_or_left]

theorem prefix_between {α : Type} [LinearOrder α] {a b c : List α} (hab : a ≤ b) (hbc : b ≤ c) (h : a <+: c) : a <+: b := by
  induction a generalizing b c with
  | nil => exact List.nil_prefix
  | cons x a ih =>
    obtain ⟨rest, rfl⟩ := h
    cases b with
    | nil => exact absurd hab (by simp)
    | cons y b =>
      rw [List.cons_append] at hbc
      rw [cons_le_cons] at hab hbc
      rcases hab with hxy | ⟨rfl, hab⟩
      · rcases hbc with hyx | ⟨rfl, -⟩
        · exact absurd (hxy.trans hyx) (lt_irrefl x)
        · exact absurd hxy (lt_irrefl y)
      · rcases hbc with hxx | ⟨-, hbc⟩
        · exact absurd hxx (lt_irrefl x)
        · rw [List.prefix_cons_inj]
          exact ih hab hbc (List.prefix_append a rest)

theorem le_of_prefix {α : Type} [LinearOrder α] {a b : List α} (h : a <+: b) : a ≤ b := by
  induction a generalizing b with
  | nil => exact not_lt.mp (List.not_lt_nil b)
  | cons x a ih =>
    obtain ⟨rest, rfl⟩ := h
    rw [List.cons_append, cons_le_cons]
    exact .inr ⟨rfl, ih (List.prefix_append a rest)⟩

/-- Where `p` of a pair passes to all that stands between, neighbours decide. -/
theorem pairwise_not_iff_isChain {α : Type} {r p : α → α → Prop} {xs : List α} (hr : xs.Pairwise r)
    (hp : ∀ a b c, r a b → r b c → p a c → p a b) :
    xs.Pairwise (fun a b => ¬p a b) ↔ xs.IsChain fun a b => ¬p a b := by
  refine ⟨List.Pairwise.isChain, fun hchain => ?_⟩
  induction xs with
  | nil => exact .nil
  | cons a xs ih =>
    obtain ⟨ha, hxs⟩ := List.pairwise_cons.mp hr
    refine List.pairwise_cons.mpr ⟨fun c hc hpac => ?_, ih hxs hchain.tail⟩
    cases xs with
    | nil => simp at hc
    | cons b xs =>
      have hab : ¬p a b := (List.isChain_cons_cons.mp hchain).1
      rcases List.mem_cons.mp hc with rfl | hc
      · exact hab hpac
      · exact hab (hp a b c (ha b List.mem_cons_self) (List.rel_of_pairwise_cons hxs hc) hpac)

theorem mem_of_mem_intercalate {α : Type} {sep : List α} {parts : List (List α)} {c : α} (hc : c ∈ sep.intercalate parts) :
    c ∈ sep ∨ ∃ part ∈ parts, c ∈ part := by
  induction parts with
  | nil => simp at hc
  | cons first rest ih =>
    by_cases hrest : rest = []
    · subst hrest
      simp only [List.intercalate_singleton] at hc
      exact Or.inr ⟨first, List.mem_singleton.mpr rfl, hc⟩
    · rw [List.intercalate_cons_of_ne_nil hrest] at hc
      rcases List.mem_append.mp hc with hc | hc
      · rcases List.mem_append.mp hc with hc | hc
        · exact Or.inr ⟨first, List.mem_cons_self, hc⟩
        · exact Or.inl hc
      · rcases ih hc with hsep | ⟨part, hpart, hmem⟩
        · exact Or.inl hsep
        · exact Or.inr ⟨part, List.mem_cons_of_mem first hpart, hmem⟩

end Crewplane.Lib
