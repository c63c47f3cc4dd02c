import Mathlib.Data.List.Basic
/-
# Runs of a partial step function

A system is a step function `σ → α → Option σ`: the action carries everything
the environment decides, `none` means the action is not enabled. A run is the
list of its actions, so a concrete run can be evaluated. `run_invariant` is the
induction every safety result uses; `run_append` cuts a run in two, for results
about a state and every later one.
-/
namespace Crewplane.Lib

variable {σ α : Type}

def run (step : σ → α → Option σ) : σ → List α → Option σ
  | s, [] => some s
  | s, a :: as => (step s a).bind fun s' => run step s' as

@[simp] theorem run_nil (step : σ → α → Option σ) (s : σ) : run step s [] = some s := rfl

theorem run_cons (step : σ → α → Option σ) (s : σ) (a : α) (as : List α) {s' : σ} :
    run step s (a :: as) = some s' ↔ ∃ m, step s a = some m ∧ run step m as = some s' := by
  simp [run, Option.bind_eq_some_iff]

theorem run_append (step : σ → α → Option σ) (s : σ) (as bs : List α) {s' : σ} :
    run step s (as ++ bs) = some s' ↔ ∃ m, run step s as = some m ∧ run step m bs = some s' := by
  induction as generalizing s with
  | nil => simp
  | cons a as ih =>
    simp only [List.cons_append, run_cons, ih]
    constructor
    · rintro ⟨m, hm, k, hk, hs⟩
      exact ⟨k, ⟨m, hm, hk⟩, hs⟩
    · rintro ⟨k, ⟨m, hm, hk⟩, hs⟩
      exact ⟨m, hm, k, hk, hs⟩

/-- What holds at the start and is kept by every step that meets `C` holds along every run of such steps. -/
theorem run_invariant {step : σ → α → Option σ} {C : α → Prop} {P : σ → Prop}
    (hstep : ∀ s a s', P s → C a → step s a = some s' → P s') {s s' : σ} {as : List α}
    (h : run step s as = some s') (hC : ∀ a ∈ as, C a) (hs : P s) : P s' := by
  induction as generalizing s with
  | nil =>
    rw [run_nil] at h
    cases h
    exact hs
  | cons a as ih =>
    obtain ⟨m, hm, hr⟩ := (run_cons step s a as).mp h
    exact ih hr (fun b hb => hC b (List.mem_cons_of_mem a hb))
      (hstep s a m hs (hC a List.mem_cons_self) hm)

/-! ## Total step functions -/

/-- Every step of the run from `s` meets `C`, which may speak of the state before the step. -/
def Along (step : σ → α → σ) (C : σ → α → Prop) : σ → List α → Prop
  | _, [] => True
  | s, a :: as => C s a ∧ Along step C (step s a) as

theorem along_append {step : σ → α → σ} {C : σ → α → Prop} {s : σ} {as bs : List α} :
    Along step C s (as ++ bs) ↔ Along step C s as ∧ Along step C (as.foldl step s) bs := by
  induction as generalizing s with
  | nil => simp [Along]
  | cons a as ih => simp only [List.cons_append, Along, ih, List.foldl_cons, and_assoc]

/-- An invariant that steps meeting `C` keep, and that makes them meet `Q`, makes a run of the one a run of the other. -/
theorem along_of_invariant {step : σ → α → σ} {C Q : σ → α → Prop} {I : σ → Prop}
    (hstep : ∀ s a, I s → C s a → I (step s a) ∧ Q s a) {s : σ} {as : List α} (hs : I s) (h : Along step C s as) :
    Along step Q s as := by
  induction as generalizing s with
  | nil => trivial
  | cons a as ih =>
    obtain ⟨hnext, hq⟩ := hstep s a hs h.1
    exact ⟨hq, ih hnext h.2⟩

end Crewplane.Lib
