import Mathlib.Data.List.Basic
/-
# Methods of a mutable object

A method that changes its object and may raise is a computation of `EStateM`: an
exception keeps the state it was raised in, also where it is caught. `Spec P m Q E` is the
contract of such a method: started where `P` holds, it returns where `Q` holds of
its answer or raises where `E` holds of the exception. The rules below compose
contracts along a method's body; `Spec.each` is the rule of a loop, whose invariant speaks
of the items still to come.
-/
namespace Crewplane.Lib

variable {σ ε α β : Type}

def Spec (P : σ → Prop) (m : EStateM ε σ α) (Q : α → σ → Prop) (E : ε → σ → Prop) : Prop :=
  ∀ s, P s → match m s with
    | .ok a s' => Q a s'
    | .error e s' => E e s'

/-- The answer of something outside the object. -/
def answer : Except ε α → EStateM ε σ α
  | .ok a => pure a
  | .error e => throw e

namespace Spec

variable {P P' : σ → Prop} {Q Q' : α → σ → Prop} {E E' : ε → σ → Prop} {m : EStateM ε σ α}

theorem ok (h : Spec P m Q E) {s s' : σ} {a : α} (hs : P s) (hm : m s = .ok a s') : Q a s' := by
  have := h s hs
  rw [hm] at this
  exact this

theorem error (h : Spec P m Q E) {s s' : σ} {e : ε} (hs : P s) (hm : m s = .error e s') : E e s' := by
  have := h s hs
  rw [hm] at this
  exact this

theorem conseq (h : Spec P m Q E) (hP : ∀ s, P' s → P s) (hQ : ∀ a s, Q a s → Q' a s)
    (hE : ∀ e s, E e s → E' e s) : Spec P' m Q' E' := by
  intro s hs
  have hm := h s (hP s hs)
  cases hr : m s with
  | ok a s' =>
    rw [hr] at hm
    exact hQ a s' hm
  | error e s' =>
    rw [hr] at hm
    exact hE e s' hm

theorem ret (a : α) (h : ∀ s, P s → Q a s) : Spec P (pure a : EStateM ε σ α) Q E := h

theorem raise (e : ε) (h : ∀ s, P s → E e s) : Spec P (throw e : EStateM ε σ α) Q E := h

theorem bind {f : α → EStateM ε σ β} {R : β → σ → Prop} (hm : Spec P m Q E)
    (hf : ∀ a, Spec (Q a) (f a) R E) : Spec P (m >>= f) R E := by
  intro s hs
  have hm := hm s hs
  cases hr : m s with
  | ok a s' =>
    rw [hr] at hm
    have hbind : (m >>= f) s = f a s' := by simp [Bind.bind, EStateM.bind, hr]
    rw [hbind]
    exact hf a s' hm
  | error e s' =>
    rw [hr] at hm
    have hbind : (m >>= f) s = .error e s' := by simp [Bind.bind, EStateM.bind, hr]
    rw [hbind]
    exact hm

/-- A contract from each starting state. -/
theorem pointwise (h : ∀ s, P s → Spec (· = s) m Q E) : Spec P m Q E := fun s hs => h s hs s rfl

/-- Reading the object that is known to be `s`. -/
theorem read {s : σ} {f : σ → EStateM ε σ β} {R : β → σ → Prop} (h : Spec (· = s) (f s) R E) :
    Spec (· = s) (get >>= f) R E := by
  rintro _ rfl
  exact h _ rfl

theorem map {f : α → β} {R : β → σ → Prop} (h : Spec P m (fun a => R (f a)) E) : Spec P (f <$> m) R E := by
  rw [map_eq_pure_bind]
  exact bind h fun a => ret (f a) fun _ hs => hs

theorem modify (f : σ → σ) {R : Unit → σ → Prop} (h : ∀ s, P s → R () (f s)) :
    Spec P (modify f : EStateM ε σ Unit) R E := h

theorem outside (x : Except ε α) (hok : ∀ a, x = .ok a → ∀ s, P s → Q a s)
    (herr : ∀ e, x = .error e → ∀ s, P s → E e s) : Spec P (answer x) Q E := by
  cases x with
  | ok a => exact ret a (hok a rfl)
  | error e => exact raise e (herr e rfl)

theorem cond {c : Prop} [Decidable c] {n : EStateM ε σ α} (hm : c → Spec P m Q E) (hn : ¬ c → Spec P n Q E) :
    Spec P (if c then m else n) Q E := by
  split
  · exact hm ‹_›
  · exact hn ‹_›

/-- A raised exception is handled in the state it was raised in. -/
theorem rescue {handle : ε → EStateM ε σ α} {F : ε → σ → Prop} (hm : Spec P m Q F)
    (hh : ∀ e, Spec (F e) (handle e) Q E) : Spec P (tryCatch m handle) Q E := by
  intro s hs
  have hm := hm s hs
  cases hr : m s with
  | ok a s' =>
    rw [hr] at hm
    have htry : (tryCatch m handle) s = .ok a s' := by simp [tryCatch, tryCatchThe, MonadExceptOf.tryCatch, EStateM.tryCatch, hr]
    rw [htry]
    exact hm
  | error e s' =>
    rw [hr] at hm
    have htry : (tryCatch m handle) s = handle e s' := by
      simp [tryCatch, tryCatchThe, MonadExceptOf.tryCatch, EStateM.tryCatch, hr, EStateM.Backtrackable.restore,
        EStateM.dummyRestore]
    rw [htry]
    exact hh e s' hm

/-- The rule of a loop: each round takes the invariant from its item and the later ones to the
later ones alone, with its answer added to those before. -/
theorem each {xs : List α} {f : α → EStateM ε σ β} {I : List α → List β → σ → Prop}
    (hround : ∀ x rest done, Spec (I (x :: rest) done) (f x) (fun b => I rest (done ++ [b])) E) (done : List β) :
    Spec (I xs done) (xs.mapM f) (fun bs => I [] (done ++ bs)) E := by
  induction xs generalizing done with
  | nil =>
    rw [List.mapM_nil]
    exact ret [] (by simp)
  | cons x rest ih =>
    rw [List.mapM_cons]
    refine bind (hround x rest done) fun b => bind (ih (done ++ [b])) fun bs => ret (b :: bs) ?_
    intro s hs
    rwa [List.append_assoc] at hs

end Spec

/-! ## Runs from related states -/

/-- Runs of `m` from states that `R` relates end alike, in states that `R` relates again. -/
def Respects (R : σ → σ → Prop) (m : EStateM ε σ α) : Prop :=
  ∀ s t, R s t →
    (∃ a s' t', m s = .ok a s' ∧ m t = .ok a t' ∧ R s' t') ∨
    (∃ e s' t', m s = .error e s' ∧ m t = .error e t' ∧ R s' t')

namespace Respects

variable {R : σ → σ → Prop} {m : EStateM ε σ α}

theorem ret (a : α) : Respects R (pure a : EStateM ε σ α) := fun s t h => .inl ⟨a, s, t, rfl, rfl, h⟩

theorem raise (e : ε) : Respects R (throw e : EStateM ε σ α) := fun s t h => .inr ⟨e, s, t, rfl, rfl, h⟩

theorem modify {f : σ → σ} (h : ∀ s t, R s t → R (f s) (f t)) : Respects R (modify f : EStateM ε σ Unit) :=
  fun s t hst => .inl ⟨(), f s, f t, rfl, rfl, h s t hst⟩

theorem bind {f : α → EStateM ε σ β} (hm : Respects R m) (hf : ∀ a, Respects R (f a)) : Respects R (m >>= f) := by
  intro s t h
  rcases hm s t h with ⟨a, s', t', hs, ht, hR⟩ | ⟨e, s', t', hs, ht, hR⟩
  · have hbind : (m >>= f) s = f a s' ∧ (m >>= f) t = f a t' := by simp [Bind.bind, EStateM.bind, hs, ht]
    rw [hbind.1, hbind.2]
    exact hf a s' t' hR
  · exact .inr ⟨e, s', t', by simp [Bind.bind, EStateM.bind, hs], by simp [Bind.bind, EStateM.bind, ht], hR⟩

theorem map {f : α → β} (hm : Respects R m) : Respects R (f <$> m) := by
  rw [map_eq_pure_bind]
  exact bind hm fun a => ret (f a)

theorem cond {c : Prop} [Decidable c] {n : EStateM ε σ α} (hm : Respects R m) (hn : Respects R n) :
    Respects R (if c then m else n) := by
  split
  · exact hm
  · exact hn

end Respects

end Crewplane.Lib
