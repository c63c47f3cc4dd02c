import Mathlib.Data.List.DropRight
import Mathlib.Tactic.Common
/-
# The tail of a captured stream (runtime/agent/process/stream_capture.py)

A `CapturedStream` keeps the end of what was written to it in a deque of chunks, with the size of the chunks counted
apart. `write` goes past the deque for a payload that fills the bound; any other payload is appended and
`_discard_tail_overflow` takes the surplus off the front, whole chunks first.
-/
namespace Crewplane.Process

abbrev Bytes := List UInt8

/-- The fields of the object; `persisted` is what its file holds. -/
structure CapturedStream where
  persisted : Bytes
  tailChunks : List Bytes
  tailSize : Int
  maxMemoryBytes : Int
  deriving DecidableEq, Repr

inductive StreamError
  | valueError (message : String)
  | indexError
  deriving DecidableEq, Repr

/-- `CapturedStream.__init__`. -/
def CapturedStream.init (maxMemoryBytes : Int) : Except StreamError CapturedStream :=
  if maxMemoryBytes < 0 then .error (.valueError "max_memory_bytes must be nonnegative")
  else .ok { persisted := [], tailChunks := [], tailSize := 0, maxMemoryBytes := maxMemoryBytes }

/-- The loop of `_discard_tail_overflow`: the chunks and the size it leaves. -/
def discardOverflow (overflow : Int) : List Bytes → Int → Except StreamError (List Bytes × Int)
  | [], size => if 0 < overflow then .error .indexError else .ok ([], size)
  | first :: rest, size =>
    if 0 < overflow then
      if first.length ≤ overflow then discardOverflow (overflow - first.length) rest (size - first.length)
      else .ok (first.drop overflow.toNat :: rest, size - overflow)
    else .ok (first :: rest, size)

def CapturedStream.discardTailOverflow (s : CapturedStream) : Except StreamError CapturedStream := do
  let (chunks, size) ← discardOverflow (s.tailSize - s.maxMemoryBytes) s.tailChunks s.tailSize
  return { s with tailChunks := chunks, tailSize := size }

def CapturedStream.write (s : CapturedStream) (payload : Bytes) : Except StreamError CapturedStream :=
  let s := { s with persisted := s.persisted ++ payload }
  if payload = [] ∨ s.maxMemoryBytes = 0 then .ok s
  else if s.maxMemoryBytes ≤ payload.length then
    .ok { s with tailChunks := [payload.drop (payload.length - s.maxMemoryBytes.toNat)], tailSize := s.maxMemoryBytes }
  else
    { s with tailChunks := s.tailChunks ++ [payload], tailSize := s.tailSize + payload.length }.discardTailOverflow

def CapturedStream.tailBytes (s : CapturedStream) : Bytes := s.tailChunks.flatten

/-! ## The end of a list -/

theorem length_rtake {α : Type} (xs : List α) (n : Nat) : (xs.rtake n).length = min n xs.length := by
  simp only [List.rtake, List.length_drop]
  omega

/-- What was cut off before is not missed by a later cut. -/
theorem rtake_rtake_append {α : Type} (xs ys : List α) (n : Nat) : (xs.rtake n ++ ys).rtake n = (xs ++ ys).rtake n := by
  have hlength := length_rtake xs n
  by_cases hxs : n ≤ xs.length
  · have hsplit : xs ++ ys = xs.take (xs.length - n) ++ (xs.rtake n ++ ys) := by
      rw [← List.append_assoc, List.rtake, List.take_append_drop]
    have hdrop : (xs ++ ys).length - n = (xs.take (xs.length - n)).length + ((xs.rtake n ++ ys).length - n) := by
      simp only [List.length_append, List.length_take, hlength]
      omega
    conv_rhs => rw [List.rtake, hdrop, hsplit, ← List.drop_drop, List.drop_left]
    rfl
  · have hall : xs.rtake n = xs := by
      rw [List.rtake, show xs.length - n = 0 by omega, List.drop_zero]
    rw [hall]

theorem rtake_append_of_le {α : Type} (xs : List α) {ys : List α} {n : Nat} (h : n ≤ ys.length) :
    (xs ++ ys).rtake n = ys.rtake n := by
  have hdrop : (xs ++ ys).length - n = xs.length + (ys.length - n) := by
    rw [List.length_append]
    omega
  rw [List.rtake, hdrop, ← List.drop_drop, List.drop_left]
  rfl

/-! ## The loop -/

/-- The loop takes the surplus off the front and keeps the count; it stops before the deque is empty. -/
theorem discardOverflow_eq_ok {chunks : List Bytes} {overflow : Int} (h : overflow ≤ chunks.flatten.length) :
    ∃ chunks', discardOverflow overflow chunks chunks.flatten.length = .ok (chunks', (chunks'.flatten.length : Int)) ∧
      chunks'.flatten = chunks.flatten.drop overflow.toNat := by
  induction chunks generalizing overflow with
  | nil =>
    have hnone : ¬ 0 < overflow := by simpa using h
    exact ⟨[], by simp [discardOverflow, hnone], by simp⟩
  | cons first rest ih =>
    rw [discardOverflow, List.flatten_cons, List.length_append]
    rw [List.flatten_cons, List.length_append] at h
    by_cases hpos : 0 < overflow
    · rw [if_pos hpos]
      by_cases hfirst : (first.length : Int) ≤ overflow
      · rw [if_pos hfirst]
        obtain ⟨chunks', hloop, hflat⟩ := ih (show overflow - first.length ≤ rest.flatten.length by omega)
        refine ⟨chunks', ?_, ?_⟩
        · rw [← hloop]
          congr 1
          omega
        · have hdrop : overflow.toNat = first.length + (overflow - first.length).toNat := by omega
          rw [hflat, hdrop, ← List.drop_drop, List.drop_left]
      · rw [if_neg hfirst]
        refine ⟨first.drop overflow.toNat :: rest, ?_, ?_⟩
        · have hsize : ((first.length + rest.flatten.length : Nat) : Int) - overflow =
              ((first.drop overflow.toNat).length + rest.flatten.length : Nat) := by
            rw [List.length_drop]
            omega
          rw [hsize, List.flatten_cons, List.length_append]
        · rw [List.flatten_cons, List.drop_append_of_le_length (by omega)]
    · rw [if_neg hpos]
      have hzero : overflow.toNat = 0 := by omega
      exact ⟨first :: rest, by simp, by simp [hzero]⟩

/-! ## A run of writes -/

/-- The deque holds the last bytes of `total`, and the count is right. -/
structure CapturedStream.Captures (s : CapturedStream) (n : Nat) (total : Bytes) : Prop where
  bound : s.maxMemoryBytes = n
  persisted : s.persisted = total
  tail : s.tailBytes = total.rtake n
  size : s.tailSize = s.tailBytes.length

theorem CapturedStream.write_captures {s : CapturedStream} {n : Nat} {total : Bytes} (h : s.Captures n total) (payload : Bytes) :
    ∃ s', s.write payload = .ok s' ∧ s'.Captures n (total ++ payload) := by
  have hsize := h.size
  rw [CapturedStream.tailBytes] at hsize
  unfold CapturedStream.write
  by_cases hskip : payload = [] ∨ s.maxMemoryBytes = 0
  · refine ⟨_, if_pos hskip, h.bound, by simp [h.persisted], ?_, h.size⟩
    rcases hskip with rfl | hzero
    · simpa using h.tail
    · have hn : n = 0 := by simpa [h.bound] using hzero
      subst hn
      simpa [List.rtake_zero, CapturedStream.tailBytes] using h.tail
  · have hn : n ≠ 0 := fun hn => hskip (.inr (by rw [h.bound, hn]; rfl))
    rw [if_neg hskip]
    by_cases hlarge : s.maxMemoryBytes ≤ payload.length
    · rw [if_pos hlarge]
      have hle : n ≤ payload.length := by
        rw [h.bound] at hlarge
        omega
      refine ⟨_, rfl, h.bound, by simp [h.persisted], ?_, ?_⟩
      · rw [rtake_append_of_le total hle]
        simp [CapturedStream.tailBytes, h.bound, List.rtake]
      · simp only [CapturedStream.tailBytes, h.bound, Int.toNat_natCast, List.flatten_cons, List.flatten_nil, List.append_nil,
          List.length_drop]
        omega
    · rw [if_neg hlarge]
      have hlength : s.tailSize + payload.length = ((s.tailChunks ++ [payload]).flatten.length : Int) := by
        simp [hsize]
      have htail : (s.tailChunks ++ [payload]).flatten = total.rtake n ++ payload := by
        rw [List.flatten_append, ← h.tail]
        simp [CapturedStream.tailBytes]
      obtain ⟨chunks, hloop, hflat⟩ := @discardOverflow_eq_ok (s.tailChunks ++ [payload])
        ((s.tailChunks ++ [payload]).flatten.length - n) (by omega)
      refine ⟨{ s with persisted := s.persisted ++ payload, tailChunks := chunks, tailSize := chunks.flatten.length }, ?_,
        h.bound, by simp [h.persisted], ?_, rfl⟩
      · simp only [CapturedStream.discardTailOverflow, hlength, h.bound, hloop]
        rfl
      · rw [CapturedStream.tailBytes, hflat, htail, ← rtake_rtake_append, List.rtake]
        congr 1
        omega

theorem CapturedStream.run_captures (writes : List Bytes) {s : CapturedStream} {n : Nat} {total : Bytes} (h : s.Captures n total) :
    ∃ s', writes.foldlM CapturedStream.write s = .ok s' ∧ s'.Captures n (total ++ writes.flatten) := by
  induction writes generalizing s total with
  | nil => exact ⟨s, rfl, by simpa using h⟩
  | cons payload rest ih =>
    obtain ⟨s₁, hwrite, h₁⟩ := CapturedStream.write_captures h payload
    obtain ⟨s₂, hrest, h₂⟩ := ih h₁
    refine ⟨s₂, ?_, by simpa using h₂⟩
    rw [List.foldlM_cons, hwrite]
    exact hrest

/-- After any writes the tail is the end of all that was written, its size is counted right, and no write raised. -/
theorem tail_of_writes (n : Nat) (writes : List Bytes) :
    ∃ s, (CapturedStream.init n >>= writes.foldlM CapturedStream.write) = .ok s ∧
      s.tailBytes = writes.flatten.drop (writes.flatten.length - n) ∧
      s.tailBytes.length = min n writes.flatten.length ∧
      s.tailSize = s.tailBytes.length ∧
      s.persisted = writes.flatten := by
  have hinit : CapturedStream.init n = .ok ⟨[], [], 0, n⟩ := by
    simp [CapturedStream.init]
  have hstart : (⟨[], [], 0, n⟩ : CapturedStream).Captures n [] := ⟨rfl, rfl, by simp [CapturedStream.tailBytes], rfl⟩
  obtain ⟨s, hrun, h⟩ := CapturedStream.run_captures writes hstart
  rw [List.nil_append] at h
  refine ⟨s, ?_, h.tail, ?_, h.size, h.persisted⟩
  · rw [hinit]
    exact hrun
  · rw [h.tail, length_rtake]

/-- A chunk goes whole, the next one in part. -/
example : (CapturedStream.init 5 >>= [[1, 2], [3, 4, 5], [6, 7]].foldlM CapturedStream.write).map (·.tailChunks) =
    .ok [[3, 4, 5], [6, 7]] := by decide

end Crewplane.Process
