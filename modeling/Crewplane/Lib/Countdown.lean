import Crewplane.Lib.Dict
/-
# Counters that run out

`for k in ks: d[k] -= 1`, with the keys whose counter becomes zero on the way, in that order. A counter passes zero only
once, so no key is listed twice.
-/
namespace Crewplane.Lib.Dict

variable {κ : Type} [DecidableEq κ]

/-- The keys whose counter becomes zero. -/
def exhausted (d : Dict κ Int) : List κ → List κ
  | [] => []
  | k :: ks =>
    if getItem d k = 1 then k :: exhausted (modify d k (· - 1)) ks else exhausted (modify d k (· - 1)) ks

theorem exhausted_cons (d : Dict κ Int) (k : κ) (ks : List κ) : exhausted d (k :: ks) =
    if getItem d k = 1 then k :: exhausted (modify d k (· - 1)) ks else exhausted (modify d k (· - 1)) ks := rfl

@[simp] theorem decrementAll_cons (d : Dict κ Int) (k : κ) (ks : List κ) :
    decrementAll d (k :: ks) = decrementAll (modify d k (· - 1)) ks := rfl

theorem exhausted_mem {d : Dict κ Int} {ks : List κ} {k : κ} (h : k ∈ exhausted d ks) : k ∈ ks ∧ 0 < getItem d k := by
  induction ks generalizing d with
  | nil => simp [exhausted] at h
  | cons a ks ih =>
    have hnext : k ∈ exhausted (modify d a (· - 1)) ks → k ∈ a :: ks ∧ 0 < getItem d k := by
      intro hk
      obtain ⟨hmem, hpos⟩ := ih hk
      rw [getItem_modify] at hpos
      refine ⟨List.mem_cons_of_mem a hmem, ?_⟩
      by_cases ha : a = k
      · subst ha
        simp at hpos
        omega
      · simpa [ha] using hpos
    rw [exhausted_cons] at h
    split at h
    next hone =>
      rcases List.mem_cons.mp h with rfl | h
      · exact ⟨List.mem_cons_self, by omega⟩
      · exact hnext h
    next => exact hnext h

theorem exhausted_nonpos {d : Dict κ Int} {ks : List κ} {k : κ} (h : k ∈ exhausted d ks) : getItem (decrementAll d ks) k ≤ 0 := by
  induction ks generalizing d with
  | nil => simp [exhausted] at h
  | cons a ks ih =>
    rw [decrementAll_cons]
    rw [exhausted_cons] at h
    split at h
    next hone =>
      rcases List.mem_cons.mp h with rfl | h
      · rw [getItem_decrementAll, getItem_modify, if_pos rfl]
        omega
      · exact ih h
    next => exact ih h

theorem nodup_exhausted (d : Dict κ Int) (ks : List κ) : (exhausted d ks).Nodup := by
  induction ks generalizing d with
  | nil => simp [exhausted]
  | cons a ks ih =>
    rw [exhausted_cons]
    split
    next hone =>
      refine List.nodup_cons.mpr ⟨fun hmem => ?_, ih _⟩
      have hpos := (exhausted_mem hmem).2
      rw [getItem_modify, if_pos rfl] at hpos
      omega
    next => exact ih _

/-- Counters that are counted down at most to zero: who reached it. -/
theorem mem_exhausted {d : Dict κ Int} {ks : List κ} (h : ∀ k ∈ ks, (ks.count k : Int) ≤ getItem d k) {k : κ} :
    k ∈ exhausted d ks ↔ k ∈ ks ∧ getItem d k = ks.count k := by
  induction ks generalizing d with
  | nil => simp [exhausted]
  | cons a ks ih =>
    have hcount := h a List.mem_cons_self
    rw [List.count_cons_self] at hcount
    have hrest : ∀ k ∈ ks, (ks.count k : Int) ≤ getItem (modify d a (· - 1)) k := by
      intro k hk
      have := h k (List.mem_cons_of_mem a hk)
      rw [getItem_modify]
      by_cases ha : a = k
      · subst ha
        simp only [if_true]
        omega
      · simpa [ha] using this
    have hsplit : k ∈ exhausted d (a :: ks) ↔ (k = a ∧ getItem d a = 1) ∨ k ∈ exhausted (modify d a (· - 1)) ks := by
      rw [exhausted_cons]
      split
      next hone => simp [hone]
      next hone => simp [hone]
    rw [hsplit, ih hrest, getItem_modify, List.count_cons]
    by_cases ha : a = k
    · subst ha
      by_cases hmem : a ∈ ks
      · have := List.count_pos_iff.mpr hmem
        simp only [hmem, true_and, if_true, List.mem_cons, true_or, beq_self_eq_true]
        omega
      · rw [List.count_eq_zero_of_not_mem hmem]
        simp [hmem]
    · have ha' : k ≠ a := Ne.symm ha
      simp [ha, ha']

/-! ## What is left to count -/

theorem countP_not_mem_eq_zero {done l : List κ} : l.countP (· ∉ done) = 0 ↔ ∀ k ∈ l, k ∈ done := by
  simp [List.countP_eq_zero]

theorem countP_not_mem_append {done next l : List κ} (hfresh : ∀ k ∈ next, k ∉ done) :
    l.countP (· ∉ done) = l.countP (· ∉ done ++ next) + l.countP (· ∈ next) := by
  induction l with
  | nil => rfl
  | cons a l ih =>
    rw [List.countP_cons, List.countP_cons, List.countP_cons, ih]
    by_cases ha : a ∈ next
    · simp only [ha, hfresh a ha, List.mem_append, or_true, not_true_eq_false, not_false_eq_true, decide_true, decide_false,
        if_true, Bool.false_eq_true, if_false]
      omega
    · by_cases hdone : a ∈ done
      · simp [ha, hdone]
      · simp only [ha, hdone, List.mem_append, or_false, not_false_eq_true, decide_true, decide_false, if_true,
          Bool.false_eq_true, if_false]
        omega

theorem countP_not_mem_snoc {done l : List κ} {k : κ} (hk : k ∉ done) :
    l.countP (· ∉ done) = l.countP (· ∉ done ++ [k]) + l.count k := by
  have hfresh : ∀ k' ∈ [k], k' ∉ done := fun k' hk' => List.mem_singleton.mp hk' ▸ hk
  rw [countP_not_mem_append hfresh, List.count_eq_countP]
  congr 1
  refine List.countP_congr fun a _ => ?_
  simp

end Crewplane.Lib.Dict
