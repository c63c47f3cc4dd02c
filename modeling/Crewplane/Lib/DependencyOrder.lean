import Mathlib
/-
# Dependency orders

A dependency relation `dep d x` ("`x` needs `d`") on the elements of a list: orders in which every element follows what
it needs, the element that can come next, cycles, and the length of the longest chain below an element.

An order that always takes the first element that is ready is the least one by position (`lex_of_greedy`). When nothing
is ready and elements are left, they hold a cycle (`cyclic_of_stuck`).
-/
namespace Crewplane.Lib

open Relation

variable {α : Type}

section Orders

variable (dep : α → α → Prop)

def Cyclic : Prop := ∃ x, TransGen dep x x

/-- Every element follows all that it needs. -/
def InOrder (l : List α) : Prop := ∀ front x back, l = front ++ x :: back → ∀ d, dep d x → d ∈ front

/-- Every element comes before the others that were ready when it was taken. -/
def Greedy (before : α → α → Prop) (all l : List α) : Prop := ∀ front x back, l = front ++ x :: back →
  ∀ y ∈ all, y ∉ front → (∀ d, dep d y → d ∈ front) → y = x ∨ before x y

variable {dep}

theorem inOrder_nil : InOrder dep [] := by
  intro front x back h
  simp at h

theorem snoc_split {l front back : List α} {x y : α} (h : l ++ [x] = front ++ y :: back) :
    (back = [] ∧ y = x ∧ front = l) ∨ ∃ rest, back = rest ++ [x] ∧ l = front ++ y :: rest := by
  rcases List.eq_nil_or_concat back with rfl | ⟨rest, z, rfl⟩
  · have hsame := List.append_inj' h rfl
    simp only [List.cons.injEq, and_true] at hsame
    exact .inl ⟨rfl, hsame.2.symm, hsame.1.symm⟩
  · have hsplit : l ++ [x] = (front ++ y :: rest) ++ [z] := by simpa using h
    have hsame := List.append_inj' hsplit rfl
    simp only [List.cons.injEq, and_true] at hsame
    exact .inr ⟨rest, by simp [hsame.2], hsame.1⟩

theorem InOrder.snoc {l : List α} {x : α} (h : InOrder dep l) (hx : ∀ d, dep d x → d ∈ l) : InOrder dep (l ++ [x]) := by
  intro front y back hsplit
  rcases snoc_split hsplit with ⟨rfl, rfl, rfl⟩ | ⟨rest, rfl, hl⟩
  · exact hx
  · exact h front y rest hl

theorem InOrder.before_mem {l : List α} (h : InOrder dep l) {d x : α} (hx : x ∈ l) (hd : dep d x) : d ∈ l := by
  obtain ⟨front, back, rfl⟩ := List.append_of_mem hx
  exact List.mem_append_left _ (h front x back rfl d hd)

theorem Greedy.nil {before : α → α → Prop} {all : List α} : Greedy dep before all [] := by
  intro front x back h
  simp at h

theorem Greedy.snoc {before : α → α → Prop} {all l : List α} {x : α} (h : Greedy dep before all l)
    (hx : ∀ y ∈ all, y ∉ l → (∀ d, dep d y → d ∈ l) → y = x ∨ before x y) : Greedy dep before all (l ++ [x]) := by
  intro front y back hsplit
  rcases snoc_split hsplit with ⟨rfl, rfl, rfl⟩ | ⟨rest, rfl, hl⟩
  · exact hx
  · exact h front y rest hl

/-! ## Cycles -/

/-- Elements none of which can come next hold a cycle. -/
theorem cyclic_of_stuck {s : List α} (hne : s ≠ []) (hstuck : ∀ x ∈ s, ∃ d ∈ s, dep d x) : Cyclic dep := by
  by_contra hacyclic
  let r : {x // x ∈ s} → {x // x ∈ s} → Prop := fun a b => TransGen dep a.1 b.1
  have hirrefl : Std.Irrefl r := ⟨fun a h => hacyclic ⟨a.1, h⟩⟩
  have htrans : IsTrans _ r := ⟨fun a b c hab hbc => hab.trans hbc⟩
  have hfinite : Finite {x // x ∈ s} := List.finite_toSet s
  have hwf : WellFounded r := Finite.wellFounded_of_trans_of_irrefl r
  obtain ⟨x, hx⟩ := List.exists_mem_of_ne_nil s hne
  obtain ⟨m, -, hmin⟩ := hwf.has_min Set.univ ⟨⟨x, hx⟩, trivial⟩
  obtain ⟨d, hd, hdep⟩ := hstuck m.1 m.2
  exact hmin ⟨d, hd⟩ trivial (TransGen.single hdep)

section Positions

variable [DecidableEq α]

theorem InOrder.idxOf_lt_of_dep {l : List α} (h : InOrder dep l) (hn : l.Nodup) {d x : α} (hx : x ∈ l) (hd : dep d x) :
    l.idxOf d < l.idxOf x := by
  obtain ⟨front, back, rfl⟩ := List.append_of_mem hx
  have hfront := h front x back rfl d hd
  have hx' : x ∉ front := fun hmem => (List.disjoint_of_nodup_append hn hmem) List.mem_cons_self
  rw [List.idxOf_append_of_mem hfront, List.idxOf_append_of_notMem hx']
  have := List.idxOf_lt_length_of_mem hfront
  omega

theorem InOrder.idxOf_lt {l : List α} (h : InOrder dep l) (hn : l.Nodup) {a x : α} (hx : x ∈ l) (ha : TransGen dep a x) :
    a ∈ l ∧ l.idxOf a < l.idxOf x := by
  induction ha using TransGen.head_induction_on with
  | single hstep => exact ⟨h.before_mem hx hstep, h.idxOf_lt_of_dep hn hx hstep⟩
  | head hstep _ ih => exact ⟨h.before_mem ih.1 hstep, (h.idxOf_lt_of_dep hn ih.1 hstep).trans ih.2⟩

/-- What is in order has no cycle. -/
theorem InOrder.not_trans_self {l : List α} (h : InOrder dep l) (hn : l.Nodup) {x : α} (hx : x ∈ l) : ¬TransGen dep x x :=
  fun hself => Nat.lt_irrefl _ (h.idxOf_lt hn hx hself).2

end Positions

/-! ## The least order -/

/-- The greedy order is the least of all orders, element by element. -/
theorem lex_of_greedy {before : α → α → Prop} {all front l l' : List α} (hgreedy : Greedy dep before all (front ++ l))
    (hall : ∀ y ∈ l, y ∈ all ∧ y ∉ front) (hnodup : l.Nodup) (hperm : l'.Perm l) (horder : InOrder dep (front ++ l')) :
    l = l' ∨ List.Lex before l l' := by
  induction l generalizing front l' with
  | nil => exact .inl hperm.eq_nil.symm
  | cons x rest ih =>
    rcases l' with - | ⟨y, rest'⟩
    · exact absurd hperm.symm.eq_nil (by simp)
    · have hy : y ∈ x :: rest := hperm.subset List.mem_cons_self
      rcases hgreedy front x rest rfl y (hall y hy).1 (hall y hy).2 (horder front y rest' rfl) with rfl | hbefore
      · have hnext : ∀ z ∈ rest, z ∈ all ∧ z ∉ front ++ [y] := by
          intro z hz
          have hzy : z ≠ y := fun e => (List.nodup_cons.mp hnodup).1 (e ▸ hz)
          simp [hall z (List.mem_cons_of_mem y hz), hzy]
        rcases ih (by simpa using hgreedy) hnext (List.nodup_cons.mp hnodup).2 (List.Perm.cons_inv hperm)
          (by simpa using horder) with rfl | hlex
        · exact .inl rfl
        · exact .inr (.cons hlex)
      · exact .inr (.rel hbefore)

/-! ## Chains -/

variable (dep) in
/-- A chain of `n` dependencies that ends in the element. -/
inductive ChainTo : Nat → α → Prop
  | nil (x : α) : ChainTo 0 x
  | cons {n : Nat} {d x : α} : ChainTo n d → dep d x → ChainTo (n + 1) x

variable (dep) in
/-- The longest chain that ends in the element has `n` dependencies. -/
def Longest (n : Nat) (x : α) : Prop := ChainTo dep n x ∧ ∀ m, ChainTo dep m x → m ≤ n

variable (dep) in
/-- Every chain that ends in the element is shorter. -/
def Below (k : Nat) (x : α) : Prop := ∀ m, ChainTo dep m x → m < k

theorem not_below_zero (x : α) : ¬Below dep 0 x := fun h => Nat.not_lt_zero 0 (h 0 (.nil x))

/-- An element is next when it is not passed yet and all that it needs is. -/
theorem longest_iff {k : Nat} {x : α} : Longest dep k x ↔ ¬Below dep k x ∧ ∀ d, dep d x → Below dep k d := by
  constructor
  · rintro ⟨hchain, hmax⟩
    exact ⟨fun h => Nat.lt_irrefl k (h k hchain), fun d hd m hm => hmax (m + 1) (.cons hm hd)⟩
  · rintro ⟨hlong, hbelow⟩
    have hmax : ∀ m, ChainTo dep m x → m ≤ k := by
      intro m hm
      cases hm with
      | nil => exact Nat.zero_le k
      | cons hchain hd => exact hbelow _ hd _ hchain
    obtain ⟨m, hm, hk⟩ : ∃ m, ChainTo dep m x ∧ k ≤ m := by
      by_contra hnone
      exact hlong fun m hm => Nat.lt_of_not_le fun hk => hnone ⟨m, hm, hk⟩
    exact ⟨Nat.le_antisymm hk (hmax m hm) ▸ hm, hmax⟩

theorem below_succ {k : Nat} {x : α} : Below dep (k + 1) x ↔ Below dep k x ∨ Longest dep k x := by
  constructor
  · intro h
    by_cases hbelow : Below dep k x
    · exact .inl hbelow
    · refine .inr (longest_iff.mpr ⟨hbelow, fun d hd m hm => ?_⟩)
      exact Nat.lt_of_succ_lt_succ (h (m + 1) (.cons hm hd))
  · rintro (h | h) m hm
    · exact (h m hm).trans (Nat.lt_succ_self k)
    · exact Nat.lt_succ_of_le (h.2 m hm)

theorem ChainTo.extend {m : Nat} {a x : α} (h : ChainTo dep m a) (hx : TransGen dep a x) : ∃ n, m < n ∧ ChainTo dep n x := by
  induction hx with
  | single hd => exact ⟨m + 1, Nat.lt_succ_self m, .cons h hd⟩
  | tail _ hd ih =>
    obtain ⟨n, hn, hchain⟩ := ih
    exact ⟨n + 1, hn.trans (Nat.lt_succ_self n), .cons hchain hd⟩

/-- Chains that end on a cycle have no bound. -/
theorem not_below_of_cycle {x : α} (h : TransGen dep x x) (k : Nat) : ¬Below dep k x := by
  have hlong : ∃ m, k ≤ m ∧ ChainTo dep m x := by
    induction k with
    | zero => exact ⟨0, Nat.le_refl 0, .nil x⟩
    | succ k ih =>
      obtain ⟨m, hm, hchain⟩ := ih
      obtain ⟨n, hn, hnext⟩ := hchain.extend h
      exact ⟨n, Nat.succ_le_of_lt (Nat.lt_of_le_of_lt hm hn), hnext⟩
  obtain ⟨m, hm, hchain⟩ := hlong
  exact fun hbelow => Nat.not_lt.mpr hm (hbelow m hchain)

theorem InOrder.append {l m : List α} (h : InOrder dep l) (hm : ∀ x ∈ m, ∀ d, dep d x → d ∈ l) : InOrder dep (l ++ m) := by
  induction m using List.reverseRecOn with
  | nil => simpa using h
  | append_singleton m x ih =>
    rw [← List.append_assoc]
    refine (ih fun y hy => hm y (List.mem_append_left _ hy)).snoc fun d hd => ?_
    exact List.mem_append_left _ (hm x (by simp) d hd)

/-- Dropping dependencies that go through another element as well leaves what is below what. -/
theorem transGen_of_kept {kept : α → α → Prop} {rank : α → Nat} (hrank : ∀ d x, dep d x → rank d < rank x)
    (hkept : ∀ d x, dep d x → kept d x ∨ ∃ m, TransGen dep d m ∧ TransGen dep m x) {a b : α} (h : TransGen dep a b) :
    TransGen kept a b := by
  have hlt : ∀ {a b : α}, TransGen dep a b → rank a < rank b := by
    intro a b h
    induction h with
    | single h => exact hrank _ _ h
    | tail _ h ih => exact ih.trans (hrank _ _ h)
  -- by the distance of the two ranks: each half of a path is shorter
  have hall : ∀ n, ∀ a b, TransGen dep a b → rank b - rank a ≤ n → TransGen kept a b := by
    intro n
    induction n with
    | zero =>
      intro a b hab hn
      have := hlt hab
      omega
    | succ n ih =>
      have hsplit : ∀ a b m, TransGen dep a m → TransGen dep m b → rank b - rank a ≤ n + 1 → TransGen kept a b := by
        intro a b m ham hmb hn
        have h1 := hlt ham
        have h2 := hlt hmb
        exact (ih a m ham (by omega)).trans (ih m b hmb (by omega))
      intro a b hab hn
      cases hab with
      | single hab =>
        rcases hkept a b hab with hk | ⟨m, ham, hmb⟩
        · exact .single hk
        · exact hsplit a b m ham hmb hn
      | tail ham hmb => exact hsplit a b _ ham (.single hmb) hn
  exact hall _ a b h (Nat.le_refl _)

/-- The steps of a search from `x` that goes through all paths, at most `k` long. -/
def pathWeight (children : α → List α) : Nat → α → Nat
  | 0, _ => 1
  | k + 1, x => 1 + ((children x).map (pathWeight children k)).sum

theorem pathWeight_mono {children : α → List α} {k m : Nat} (h : k ≤ m) (x : α) :
    pathWeight children k x ≤ pathWeight children m x := by
  induction m generalizing k x with
  | zero =>
    obtain rfl : k = 0 := Nat.le_zero.mp h
    exact Nat.le_refl _
  | succ m ih =>
    cases k with
    | zero =>
      rw [pathWeight, pathWeight]
      omega
    | succ k =>
      rw [pathWeight, pathWeight]
      have := List.sum_le_sum (l := children x) fun c _ => ih (Nat.le_of_succ_le_succ h) c
      omega

/-- A search along the paths of a finite order ends: each element has a weight that pays for it and what comes after. -/
theorem exists_pathWeight {children : α → List α} {rank : α → Nat} {bound : Nat}
    (hrank : ∀ x, ∀ c ∈ children x, rank x < rank c ∧ rank c ≤ bound) :
    ∃ weight : α → Nat, ∀ x, 1 + ((children x).map weight).sum ≤ weight x := by
  refine ⟨fun x => pathWeight children (bound + 1 - rank x) x, fun x => ?_⟩
  rcases Nat.lt_or_ge bound (rank x) with hx | hx
  · have hnone : children x = [] := by
      rw [List.eq_nil_iff_forall_not_mem]
      intro c hc
      have := hrank x c hc
      omega
    have := @pathWeight_mono _ children 0 (bound + 1 - rank x) (Nat.zero_le _) x
    rw [hnone]
    simpa [pathWeight] using this
  · have hk : bound + 1 - rank x = (bound - rank x) + 1 := by omega
    have hsum := List.sum_le_sum (l := children x) (f := fun c => pathWeight children (bound + 1 - rank c) c)
      (g := pathWeight children (bound - rank x)) fun c hc => by
        have := hrank x c hc
        exact pathWeight_mono (by omega) c
    simp only [hk, pathWeight]
    omega

end Orders

end Crewplane.Lib
