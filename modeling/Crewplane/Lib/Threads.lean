import Mathlib.Logic.Relation
import Mathlib.Logic.Function.Basic
/-
# Programs that run beside others and may be cut

A program is a tree of commands: each command takes one step on the shared state and what follows depends on its answer.
Between two commands others may change the state (`rely`), a program may be cut at any point, and each of its own steps
keeps a promise (`guarantee`). `Safe` is the contract of a program in one state, with a rule for each way of composing
programs; `System.Reachable.good` puts the contracts of all threads together: any number of threads, each running one
program after the other, with steps from outside and cuts in any order.
-/
namespace Crewplane.Lib

open Relation

/-- A program that answers `α` or raises `ε`. -/
inductive Prog (C : Type) (A : C → Type) (ε α : Type)
  | ret (a : α)
  | raise (e : ε)
  | call (c : C) (next : A c → Prog C A ε α)

namespace Prog

variable {C : Type} {A : C → Type} {ε α β : Type}

def bind : Prog C A ε α → (α → Prog C A ε β) → Prog C A ε β
  | .ret a, f => f a
  | .raise e, _ => .raise e
  | .call c next, f => .call c fun answer => (next answer).bind f

/-- `try: body except: handler`. -/
def rescue : Prog C A ε α → (ε → Prog C A ε α) → Prog C A ε α
  | .ret a, _ => .ret a
  | .raise e, handler => handler e
  | .call c next, handler => .call c fun answer => (next answer).rescue handler

instance : Monad (Prog C A ε) where
  pure := .ret
  bind := bind

def ofExcept : Except ε α → Prog C A ε α
  | .ok a => .ret a
  | .error e => .raise e

/-- The outcome as a value. -/
def attempt (p : Prog C A ε α) : Prog C A ε (Except ε α) := (p.bind fun a => .ret (.ok a)).rescue fun e => .ret (.error e)

/-- `for x in xs: body(x)`. -/
def each (body : α → Prog C A ε Unit) : List α → Prog C A ε Unit
  | [] => .ret ()
  | x :: xs => (body x).bind fun _ => each body xs

/-! ## Contracts -/

section Safe

variable {σ : Type} (exec : (c : C) → σ → A c → σ → Prop) (rely guarantee : σ → σ → Prop)

/-- Started in this state, whatever the others do, every step keeps the promise, and the program ends where `Q` holds of
its answer or `E` of what it raises. -/
def Safe (Q : α → σ → Prop) (E : ε → σ → Prop) : Prog C A ε α → σ → Prop
  | .ret a, s => ∀ t, ReflTransGen rely s t → Q a t
  | .raise e, s => ∀ t, ReflTransGen rely s t → E e t
  | .call c next, s => ∀ t, ReflTransGen rely s t → ∀ answer u, exec c t answer u → guarantee t u ∧ Safe Q E (next answer) u

variable {exec rely guarantee} {Q Q' : α → σ → Prop} {E E' : ε → σ → Prop} {s t : σ}

theorem Safe.later {p : Prog C A ε α} (h : Safe exec rely guarantee Q E p s) (hst : ReflTransGen rely s t) :
    Safe exec rely guarantee Q E p t := by
  cases p with
  | ret | raise => exact fun u hu => h u (hst.trans hu)
  | call => exact fun u hu => h u (hst.trans hu)

theorem Safe.conseq {p : Prog C A ε α} (h : Safe exec rely guarantee Q E p s) (hQ : ∀ a t, Q a t → Q' a t)
    (hE : ∀ e t, E e t → E' e t) : Safe exec rely guarantee Q' E' p s := by
  induction p generalizing s with
  | ret a => exact fun t ht => hQ a t (h t ht)
  | raise e => exact fun t ht => hE e t (h t ht)
  | call c next ih => exact fun t ht answer u hu => ⟨(h t ht answer u hu).1, ih answer (h t ht answer u hu).2⟩

theorem Safe.bind {p : Prog C A ε α} {f : α → Prog C A ε β} {R : β → σ → Prop} (h : Safe exec rely guarantee Q E p s)
    (hf : ∀ a t, Q a t → Safe exec rely guarantee R E (f a) t) : Safe exec rely guarantee R E (p.bind f) s := by
  induction p generalizing s with
  | ret a => exact hf a s (h s .refl)
  | raise e => exact h
  | call c next ih => exact fun t ht answer u hu => ⟨(h t ht answer u hu).1, ih answer (h t ht answer u hu).2⟩

theorem Safe.rescue {p : Prog C A ε α} {handler : ε → Prog C A ε α} (h : Safe exec rely guarantee Q E p s)
    (hhandler : ∀ e t, E e t → Safe exec rely guarantee Q E' (handler e) t) :
    Safe exec rely guarantee Q E' (p.rescue handler) s := by
  induction p generalizing s with
  | ret a => exact h
  | raise e => exact hhandler e s (h s .refl)
  | call c next ih => exact fun t ht answer u hu => ⟨(h t ht answer u hu).1, ih answer (h t ht answer u hu).2⟩

/-- One command: an assertion that the others keep, and what the step makes of it. -/
theorem Safe.call {P : σ → Prop} {c : C} {next : A c → Prog C A ε α} (hstable : ∀ s t, rely s t → P s → P t) (hP : P s)
    (hstep : ∀ t, P t → ∀ answer u, exec c t answer u → guarantee t u ∧ Safe exec rely guarantee Q E (next answer) u) :
    Safe exec rely guarantee Q E (.call c next) s := by
  intro t ht answer u hu
  refine hstep t ?_ answer u hu
  clear hu
  induction ht with
  | refl => exact hP
  | tail _ hlast ih => exact hstable _ _ hlast ih

theorem Safe.ret {P : σ → Prop} {a : α} (hstable : ∀ s t, rely s t → P s → P t) (hP : P s) (hQ : ∀ t, P t → Q a t) :
    Safe exec rely guarantee Q E (.ret a : Prog C A ε α) s := by
  intro t ht
  refine hQ t ?_
  induction ht with
  | refl => exact hP
  | tail _ hlast ih => exact hstable _ _ hlast ih

theorem Safe.raise {P : σ → Prop} {e : ε} (hstable : ∀ s t, rely s t → P s → P t) (hP : P s) (hE : ∀ t, P t → E e t) :
    Safe exec rely guarantee Q E (.raise e : Prog C A ε α) s := by
  intro t ht
  refine hE t ?_
  induction ht with
  | refl => exact hP
  | tail _ hlast ih => exact hstable _ _ hlast ih

/-- The rule of a loop: `I` of the items still to come. -/
theorem Safe.each {body : α → Prog C A ε Unit} {I : List α → σ → Prop} {xs : List α}
    (hstable : ∀ s t, rely s t → I [] s → I [] t) (hI : I xs s)
    (hbody : ∀ x rest, x :: rest <:+ xs → ∀ t, I (x :: rest) t → Safe exec rely guarantee (fun _ => I rest) E (body x) t) :
    Safe exec rely guarantee (fun _ => I []) E (Prog.each body xs) s := by
  induction xs generalizing s with
  | nil => exact .ret hstable hI fun _ h => h
  | cons x xs ih =>
    refine (hbody x xs (List.suffix_refl _) s hI).bind fun _ t ht => ih ht fun y rest hsuffix => ?_
    exact hbody y rest (hsuffix.trans (List.suffix_cons x xs))

theorem Safe.ofExcept {P : σ → Prop} {r : Except ε α} (hstable : ∀ s t, rely s t → P s → P t) (hP : P s)
    (hok : ∀ a, r = .ok a → ∀ t, P t → Q a t) (herror : ∀ e, r = .error e → ∀ t, P t → E e t) :
    Safe exec rely guarantee Q E (Prog.ofExcept r) s := by
  cases r with
  | ok a => exact .ret hstable hP (hok a rfl)
  | error e => exact .raise hstable hP (herror e rfl)

/-- What holds of an outcome. -/
def outcome (Q : α → σ → Prop) (E : ε → σ → Prop) : Except ε α → σ → Prop
  | .ok a => Q a
  | .error e => E e

theorem Safe.attempt {p : Prog C A ε α} (h : Safe exec rely guarantee Q E p s) :
    Safe exec rely guarantee (outcome Q E) E' p.attempt s := by
  unfold Prog.attempt
  induction p generalizing s with
  | ret a => exact h
  | raise e => exact h
  | call c next ih => exact fun t ht answer u hu => ⟨(h t ht answer u hu).1, ih answer (h t ht answer u hu).2⟩

end Safe

end Prog

/-! ## All threads together -/

/-- Threads that run programs on one state. A job names the program. -/
structure System (ι κ σ C : Type) (A : C → Type) (ε : Type) where
  exec : ι → (c : C) → σ → A c → σ → Prop
  program : κ → Prog C A ε Unit
  /-- The jobs that a thread may start. -/
  starts : ι → κ → Prop
  /-- The steps of everybody else. -/
  outside : σ → σ → Prop

/-- The state, and what every thread still has to do of its job. -/
structure Pool (ι κ σ C : Type) (A : C → Type) (ε : Type) where
  state : σ
  running : ι → Option (κ × Prog C A ε Unit)

namespace System

variable {ι κ σ C : Type} {A : C → Type} {ε : Type}

/-- The promises of the threads fit together: each keeps the invariant and is what the others rely on. -/
structure Compatible (sys : System ι κ σ C A ε) (inv : σ → Prop) (rely : ι → σ → σ → Prop) (guarantee : ι → κ → σ → σ → Prop)
    (returns : ι → κ → σ → Prop) (raises : ι → κ → ε → σ → Prop) : Prop where
  outside_inv : ∀ s t, inv s → sys.outside s t → inv t
  guarantee_inv : ∀ i k s t, inv s → guarantee i k s t → inv t
  outside_rely : ∀ i s t, inv s → sys.outside s t → rely i s t
  guarantee_rely : ∀ i j k s t, i ≠ j → inv s → guarantee j k s t → rely i s t
  safe : ∀ i k s, inv s → sys.starts i k →
    (sys.program k).Safe (sys.exec i) (rely i) (guarantee i k) (fun _ => returns i k) (raises i k) s

/-- The invariant, and every running program as its contract says. -/
def Good (sys : System ι κ σ C A ε) (inv : σ → Prop) (rely : ι → σ → σ → Prop) (guarantee : ι → κ → σ → σ → Prop)
    (returns : ι → κ → σ → Prop) (raises : ι → κ → ε → σ → Prop) (pool : Pool ι κ σ C A ε) : Prop :=
  inv pool.state ∧ ∀ i k p, pool.running i = some (k, p) →
    p.Safe (sys.exec i) (rely i) (guarantee i k) (fun _ => returns i k) (raises i k) pool.state

variable {sys : System ι κ σ C A ε} {inv : σ → Prop} {rely : ι → σ → σ → Prop} {guarantee : ι → κ → σ → σ → Prop}
  {returns : ι → κ → σ → Prop} {raises : ι → κ → ε → σ → Prop} {pool : Pool ι κ σ C A ε}

/-- A job that has returned leaves what its contract says. -/
theorem Good.returned (h : Good sys inv rely guarantee returns raises pool) {i : ι} {k : κ}
    (hrunning : pool.running i = some (k, .ret ())) : returns i k pool.state := h.2 i k _ hrunning _ .refl

variable [DecidableEq ι]

inductive Step (sys : System ι κ σ C A ε) (pool : Pool ι κ σ C A ε) : Pool ι κ σ C A ε → Prop
  | outside {s : σ} : sys.outside pool.state s → Step sys pool { pool with state := s }
  | start {i : ι} {k : κ} : pool.running i = none → sys.starts i k →
      Step sys pool { pool with running := Function.update pool.running i (some (k, sys.program k)) }
  | call {i : ι} {k : κ} {c : C} {next : A c → Prog C A ε Unit} {answer : A c} {s : σ} :
      pool.running i = some (k, .call c next) → sys.exec i c pool.state answer s →
      Step sys pool { state := s, running := Function.update pool.running i (some (k, next answer)) }
  /-- The program has ended, or is cut. -/
  | leave {i : ι} : Step sys pool { pool with running := Function.update pool.running i none }

/-- What a step does to the state: a step from outside, the promise of one thread and its job, or nothing. -/
theorem Good.step {pool' : Pool ι κ σ C A ε} (hcompatible : Compatible sys inv rely guarantee returns raises)
    (h : Good sys inv rely guarantee returns raises pool) (hstep : Step sys pool pool') :
    Good sys inv rely guarantee returns raises pool' ∧
      (sys.outside pool.state pool'.state ∨
        (∃ i k p, pool.running i = some (k, p) ∧ guarantee i k pool.state pool'.state) ∨ pool'.state = pool.state) := by
  cases hstep with
  | @outside s houtside =>
    refine ⟨⟨hcompatible.outside_inv _ _ h.1 houtside, fun i k p hp => ?_⟩, .inl houtside⟩
    exact (h.2 i k p hp).later (.single (hcompatible.outside_rely i _ _ h.1 houtside))
  | @start i k hidle hstarts =>
    refine ⟨⟨h.1, fun j l q hq => ?_⟩, .inr (.inr rfl)⟩
    by_cases hij : j = i
    · subst hij
      simp only [Function.update_self, Option.some.injEq, Prod.mk.injEq] at hq
      obtain ⟨rfl, rfl⟩ := hq
      exact hcompatible.safe j k _ h.1 hstarts
    · simp only [Function.update_of_ne hij] at hq
      exact h.2 j l q hq
  | @call i k c next answer s hrunning hexec =>
    have hcall := h.2 i k _ hrunning _ .refl answer s hexec
    refine ⟨⟨hcompatible.guarantee_inv i k _ _ h.1 hcall.1, fun j l q hq => ?_⟩, .inr (.inl ⟨i, k, _, hrunning, hcall.1⟩)⟩
    by_cases hij : j = i
    · subst hij
      simp only [Function.update_self, Option.some.injEq, Prod.mk.injEq] at hq
      obtain ⟨rfl, rfl⟩ := hq
      exact hcall.2
    · simp only [Function.update_of_ne hij] at hq
      exact (h.2 j l q hq).later (.single (hcompatible.guarantee_rely j i k _ _ hij h.1 hcall.1))
  | @leave i =>
    refine ⟨⟨h.1, fun j l q hq => ?_⟩, .inr (.inr rfl)⟩
    by_cases hij : j = i
    · subst hij
      simp at hq
    · simp only [Function.update_of_ne hij] at hq
      exact h.2 j l q hq

/-- The pools that come about from one in which no thread runs. -/
def Reachable (sys : System ι κ σ C A ε) (init : σ → Prop) (pool : Pool ι κ σ C A ε) : Prop :=
  ∃ s, init s ∧ ReflTransGen (Step sys) ⟨s, fun _ => none⟩ pool

/-- In every pool that comes about the invariant holds and every program goes as its contract says. -/
theorem Reachable.good (hcompatible : Compatible sys inv rely guarantee returns raises) {init : σ → Prop}
    (hinit : ∀ s, init s → inv s) (h : Reachable sys init pool) : Good sys inv rely guarantee returns raises pool := by
  obtain ⟨s, hs, hreach⟩ := h
  induction hreach with
  | refl => exact ⟨hinit s hs, fun i k p hp => by simp at hp⟩
  | tail _ hstep ih => exact (ih.step hcompatible hstep).1

/-! ### A single thread -/

section Alone

variable {κ σ C : Type} {A : C → Type} {ε : Type} (sys : System Unit κ σ C A ε)

/-- A pool of one thread. -/
def alone (state : σ) (running : Option (κ × Prog C A ε Unit)) : Pool Unit κ σ C A ε := ⟨state, fun _ => running⟩

theorem alone_running (state : σ) (before after : Option (κ × Prog C A ε Unit)) :
    (⟨state, Function.update (alone state before).running () after⟩ : Pool Unit κ σ C A ε) = alone state after := by
  have hrunning : Function.update (alone state before).running () after = fun _ => after := by
    ext i
    simp [show i = () from rfl]
  rw [hrunning, alone]

theorem alone_start (s : σ) (job : κ) (h : sys.starts () job) :
    Step sys (alone s none) (alone s (some (job, sys.program job))) := by
  rw [← alone_running s none]
  exact .start (i := ()) rfl h

theorem alone_call {s t : σ} {job : κ} {c : C} {next : A c → Prog C A ε Unit} {answer : A c} (h : sys.exec () c s answer t) :
    Step sys (alone s (some (job, .call c next))) (alone t (some (job, next answer))) := by
  rw [← alone_running t (some (job, .call c next))]
  exact .call (i := ()) rfl h

end Alone

end System

end Crewplane.Lib
