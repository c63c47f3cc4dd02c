import Mathlib.Data.List.Dedup
/-
# Validators that raise

A validator is a computation in `Except ε`; `require b e` is the guard
`if not b: raise e`. The lemmas say when a validator accepts: a guard when its
condition holds, a sequence when both parts do, a loop when every iteration
does. They are `simp` lemmas, so `simp at h` turns the acceptance of a validator
into the list of its conditions.
-/
namespace Crewplane.Lib

variable {ε α β : Type}

/-- `if not b: raise e`. -/
def require (b : Prop) [Decidable b] (e : ε) : Except ε Unit := if b then .ok () else .error e

/-- `for x in xs: check(x)`. -/
def checkAll (xs : List α) (check : α → Except ε Unit) : Except ε Unit :=
  match xs with
  | [] => .ok ()
  | x :: xs => do
    check x
    checkAll xs check

@[simp] theorem require_eq_ok (b : Prop) [Decidable b] (e : ε) : require b e = .ok () ↔ b := by
  unfold require
  split <;> simp_all

@[simp] theorem do_eq_ok (c : Except ε α) (f : α → Except ε β) (r : β) :
    (c >>= f) = .ok r ↔ ∃ a, c = .ok a ∧ f a = .ok r := by
  cases c with
  | error e => simp [bind, Except.bind]
  | ok a => simp [bind, Except.bind]

@[simp high] theorem check_then_eq_ok (c : Except ε Unit) (f : Unit → Except ε β) (r : β) :
    (c >>= f) = .ok r ↔ c = .ok () ∧ f () = .ok r := by
  rw [do_eq_ok]
  constructor
  · rintro ⟨⟨⟩, hc, hf⟩
    exact ⟨hc, hf⟩
  · rintro ⟨hc, hf⟩
    exact ⟨(), hc, hf⟩

@[simp] theorem checkAll_eq_ok (xs : List α) (check : α → Except ε Unit) :
    checkAll xs check = .ok () ↔ ∀ x ∈ xs, check x = .ok () := by
  induction xs with
  | nil => simp [checkAll]
  | cons x xs ih =>
    rw [checkAll, check_then_eq_ok, ih]
    simp

/-! ## Comprehensions with a step that can fail -/

theorem mapM_eq_ok_cons {f : α → Except ε β} {x : α} {xs : List α} {ys : List β} :
    (x :: xs).mapM f = .ok ys ↔ ∃ y zs, f x = .ok y ∧ xs.mapM f = .ok zs ∧ ys = y :: zs := by
  simp only [List.mapM_cons, do_eq_ok]
  constructor
  · rintro ⟨y, hy, zs, hzs, h⟩
    exact ⟨y, zs, hy, hzs, by simpa [pure, Except.pure, eq_comm] using h⟩
  · rintro ⟨y, zs, hy, hzs, rfl⟩
    exact ⟨y, hy, zs, hzs, rfl⟩

theorem mapM_eq_ok_nil {f : α → Except ε β} {ys : List β} : [].mapM f = .ok ys ↔ ys = [] := by
  simp [pure, Except.pure, eq_comm]

/-- When every success is the value of a total function, so is the whole list. -/
theorem exists_of_mapM {f : α → Except ε β} {xs : List α} {ys : List β} (h : xs.mapM f = .ok ys) :
    ∀ y ∈ ys, ∃ x ∈ xs, f x = .ok y := by
  induction xs generalizing ys with
  | nil =>
    rw [mapM_eq_ok_nil.mp h]
    simp
  | cons x xs ih =>
    obtain ⟨y, zs, hy, hzs, rfl⟩ := mapM_eq_ok_cons.mp h
    rw [List.forall_mem_cons]
    refine ⟨⟨x, List.mem_cons_self, hy⟩, fun z hz => ?_⟩
    obtain ⟨w, hw, hz⟩ := ih hzs z hz
    exact ⟨w, List.mem_cons_of_mem x hw, hz⟩

theorem eq_map_of_mapM {f : α → Except ε β} {g : α → β} (hf : ∀ x y, f x = .ok y → y = g x) {xs : List α}
    {ys : List β} (h : xs.mapM f = .ok ys) : ys = xs.map g := by
  induction xs generalizing ys with
  | nil => simpa using mapM_eq_ok_nil.mp h
  | cons x xs ih =>
    obtain ⟨y, zs, hy, hzs, rfl⟩ := mapM_eq_ok_cons.mp h
    rw [hf x y hy, ih hzs, List.map_cons]

/-- Decoding what was encoded. -/
theorem mapM_map_eq {f : β → Except ε α} {g : α → β} {xs : List α} (hf : ∀ x ∈ xs, f (g x) = .ok x) :
    (xs.map g).mapM f = .ok xs := by
  induction xs with
  | nil => rfl
  | cons x xs ih =>
    rw [List.map_cons, mapM_eq_ok_cons]
    exact ⟨x, xs, hf x List.mem_cons_self, ih fun y hy => hf y (List.mem_cons_of_mem _ hy), rfl⟩

theorem exists_of_mem_mapM {f : α → Except ε β} {xs : List α} {ys : List β} (h : xs.mapM f = .ok ys) {y : β}
    (hy : y ∈ ys) : ∃ x ∈ xs, f x = .ok y := by
  induction xs generalizing ys with
  | nil =>
    rw [mapM_eq_ok_nil.mp h] at hy
    simp at hy
  | cons x xs ih =>
    obtain ⟨z, zs, hz, hzs, rfl⟩ := mapM_eq_ok_cons.mp h
    rcases List.mem_cons.mp hy with rfl | hy
    · exact ⟨x, List.mem_cons_self, hz⟩
    · obtain ⟨w, hw, hwy⟩ := ih hzs hy
      exact ⟨w, List.mem_cons_of_mem _ hw, hwy⟩

theorem mem_mapM_of_mem {f : α → Except ε β} {xs : List α} {ys : List β} (h : xs.mapM f = .ok ys) {x : α}
    (hx : x ∈ xs) : ∃ y ∈ ys, f x = .ok y := by
  induction xs generalizing ys with
  | nil => simp at hx
  | cons x' xs ih =>
    obtain ⟨z, zs, hz, hzs, rfl⟩ := mapM_eq_ok_cons.mp h
    rcases List.mem_cons.mp hx with rfl | hx
    · exact ⟨z, List.mem_cons_self, hz⟩
    · obtain ⟨y, hy, hxy⟩ := ih hzs hx
      exact ⟨y, List.mem_cons_of_mem _ hy, hxy⟩

end Crewplane.Lib
