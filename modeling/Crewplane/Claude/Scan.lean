import Crewplane.Claude.Fuel
import Crewplane.Claude.Numbers
/-
# White space, numbers and strings against the grammar

From here the characters left stand in the pushback (`onText`), where a read takes the head of a list;
by `parseClaudeResult_flatten` this is no loss. A scanner is characterised by the texts it takes and
what it leaves.
-/
namespace Crewplane.Claude

open Lib Lib.Rfc8259

variable {α β : Type} {sel : ResultSelection} {s s' : List Char} {st : State}

/-- `s` is left to read. -/
abbrev onText (s : List Char) (sel : ResultSelection) : State := ⟨⟨[], [], 0, s⟩, sel⟩

theorem bind_ok {m : ParserM α} {f : α → ParserM β} {b : β} {st st' : State} :
    (m >>= f) st = .ok b st' ↔ ∃ a mid, m st = .ok a mid ∧ f a mid = .ok b st' := by
  cases h : m st with
  | ok a mid => simp [Bind.bind, EStateM.bind, h]
  | error e mid => simp [Bind.bind, EStateM.bind, h]

@[simp] theorem pure_ok {a b : α} {st st' : State} : (pure a : ParserM α) st = .ok b st' ↔ b = a ∧ st' = st := by
  simp [pure, EStateM.pure, eq_comm]

@[simp] theorem malformed_ok {e : ClaudeJsonParseError} {b : α} {st st' : State} :
    ¬ (malformed e : ParserM α) st = .ok b st' := by
  intro h
  cases (show EStateM.Result.error (Failure.parseError e) st = EStateM.Result.ok b st' from h)

/-! ## Single characters -/

@[simp] theorem read_nil : read (onText [] sel) = .ok none (onText [] sel) := rfl

@[simp] theorem read_cons (c : Char) : read (onText (c :: s) sel) = .ok (some c) (onText s sel) := rfl

@[simp] theorem unread_ok {cs : List Char} {u : Unit} :
    unread cs (onText s sel) = .ok u st ↔ st = onText (cs ++ s) sel := by
  have h : unread cs (onText s sel) = .ok () (onText (cs ++ s) sel) := rfl
  simp [h, eq_comm]

@[simp] theorem peek_onText : peek (onText s sel) = .ok s.head? (onText s sel) := by
  cases s <;> rfl

@[simp] theorem fueled_onText (loop : Nat → ParserM α) :
    fueled loop (onText s sel) = loop (s.length + 1) (onText s sel) := by
  simp [fueled, JsonCharCursor.rest]

@[simp] theorem readRequired_cons (c : Char) : readRequired (onText (c :: s) sel) = .ok c (onText s sel) := rfl

theorem readRequired_ok {c : Char} :
    readRequired (onText s sel) = .ok c st ↔ ∃ t, s = c :: t ∧ st = onText t sel := by
  cases s with
  | nil => simp [readRequired, bind_ok]
  | cons a t =>
    simp only [readRequired_cons, EStateM.Result.ok.injEq, List.cons.injEq]
    constructor
    · rintro ⟨rfl, rfl⟩
      exact ⟨t, ⟨rfl, rfl⟩, rfl⟩
    · rintro ⟨_, ⟨rfl, rfl⟩, rfl⟩
      exact ⟨rfl, rfl⟩

theorem expect_ok {c : Char} {u : Unit} :
    expect c (onText s sel) = .ok u st ↔ ∃ t, s = c :: t ∧ st = onText t sel := by
  simp only [expect, bind_ok, readRequired_ok]
  constructor
  · rintro ⟨a, _, ⟨t, rfl, rfl⟩, h⟩
    split at h
    · simp at h
    · obtain rfl : a = c := not_not.mp ‹_›
      exact ⟨t, rfl, (pure_ok.mp h).2⟩
  · rintro ⟨t, rfl, rfl⟩
    exact ⟨c, _, ⟨t, rfl, rfl⟩, by simp⟩

@[simp] theorem expect_cons (c : Char) : expect c (onText (c :: s) sel) = .ok () (onText s sel) :=
  expect_ok.mpr ⟨s, rfl, rfl⟩

/-! ## White space -/

theorem mem_jsonWhitespace {c : Char} : c ∈ jsonWhitespace ↔ isWs c := by
  simp [jsonWhitespace, isWs, or_assoc]
  tauto

theorem skipWhitespaceLoop_ok {n : Nat} {u : Unit} (hn : s.length < n) :
    skipWhitespaceLoop n (onText s sel) = .ok u st ↔ dropWs s ≠ [] ∧ st = onText (dropWs s) sel := by
  induction n generalizing s with
  | zero => omega
  | succ n ih =>
    simp only [skipWhitespaceLoop, bind_ok, readRequired_ok]
    cases s with
    | nil => simp [dropWs]
    | cons c t =>
      by_cases hc : isWs c = true
      · have hi := ih (s := t) (by simpa using hn)
        simp only [dropWs, List.dropWhile_cons, hc, if_true] at hi ⊢
        simpa [mem_jsonWhitespace, hc] using hi
      · simp [dropWs, mem_jsonWhitespace, hc]

theorem skipWhitespace_ok {u : Unit} :
    skipWhitespace (onText s sel) = .ok u st ↔ dropWs s ≠ [] ∧ st = onText (dropWs s) sel := by
  rw [skipWhitespace, fueled_onText]
  exact skipWhitespaceLoop_ok (Nat.lt_succ_self _)

theorem skipTrailingWhitespaceLoop_ok {n : Nat} {u : Unit} (hn : s.length < n) :
    skipTrailingWhitespaceLoop n (onText s sel) = .ok u st ↔ Ws s ∧ st = onText [] sel := by
  induction n generalizing s with
  | zero => omega
  | succ n ih =>
    simp only [skipTrailingWhitespaceLoop, bind_ok]
    cases s with
    | nil => simp [Ws]
    | cons c t =>
      have hi := ih (s := t) (by simpa using hn)
      by_cases hc : isWs c = true
      · simpa [mem_jsonWhitespace, hc, Ws] using hi
      · simp [mem_jsonWhitespace, hc, Ws]

theorem skipTrailingWhitespace_ok {u : Unit} :
    skipTrailingWhitespace (onText s sel) = .ok u st ↔ Ws s ∧ st = onText [] sel := by
  rw [skipTrailingWhitespace, fueled_onText]
  exact skipTrailingWhitespaceLoop_ok (Nat.lt_succ_self _)

/-! ## Scalars -/

/-- What may stand after a scalar. -/
def Follow (s : List Char) : Prop := ∀ c ∈ s.head?, c ∈ jsonScalarEnd

theorem advance_not_end {q q' : JsonNumberState} {c : Char} (h : advanceJsonNumber q c = some q') : c ∉ jsonScalarEnd := by
  intro hc
  simp only [jsonScalarEnd, jsonWhitespace, List.cons_append, List.nil_append, List.mem_cons, List.not_mem_nil, or_false] at hc
  have hnone : classifyChar c = none ∧ c ∉ digits := by
    rcases hc with rfl | rfl | rfl | rfl | rfl | rfl | rfl <;> decide
  simp [advanceJsonNumber, hnone] at h

theorem consumeNumberTail_ok {n : Nat} {q q' : JsonNumberState} (hn : s.length < n) :
    consumeNumberTail q n (onText s sel) = .ok q' st ↔
      ∃ w t, s = w ++ t ∧ Follow t ∧ w.foldlM advanceJsonNumber q = some q' ∧ st = onText t sel := by
  induction n generalizing s q with
  | zero => omega
  | succ n ih =>
    simp only [consumeNumberTail, bind_ok]
    cases s with
    | nil =>
      simp only [read_nil, EStateM.Result.ok.injEq]
      constructor
      · rintro ⟨_, _, ⟨rfl, rfl⟩, h⟩
        obtain ⟨rfl, rfl⟩ := pure_ok.mp h
        exact ⟨[], [], rfl, by simp [Follow], rfl, rfl⟩
      · rintro ⟨w, t, hw, -, hq, rfl⟩
        obtain ⟨rfl, rfl⟩ := List.append_eq_nil_iff.mp hw.symm
        exact ⟨none, _, ⟨rfl, rfl⟩, pure_ok.mpr ⟨(Option.some.inj hq).symm, rfl⟩⟩
    | cons c t =>
      have hn : t.length < n := by simpa using hn
      simp only [read_cons, EStateM.Result.ok.injEq]
      by_cases hc : c ∈ jsonScalarEnd
      · constructor
        · rintro ⟨_, _, ⟨rfl, rfl⟩, h⟩
          simp only [hc, if_true, bind_ok, unread_ok, pure_ok] at h
          obtain ⟨_, _, rfl, rfl, rfl⟩ := h
          exact ⟨[], c :: t, rfl, by simpa [Follow] using hc, rfl, rfl⟩
        · rintro ⟨w, u, hw, -, hq, rfl⟩
          refine ⟨some c, _, ⟨rfl, rfl⟩, ?_⟩
          simp only [hc, if_true, bind_ok, unread_ok, pure_ok]
          rcases w with - | ⟨d, w⟩
          · rw [List.nil_append] at hw
            subst hw
            exact ⟨(), _, rfl, (Option.some.inj hq).symm, rfl⟩
          · obtain ⟨rfl, rfl⟩ := List.cons_eq_cons.mp hw
            simp only [List.foldlM_cons, Option.bind_eq_bind, Option.bind_eq_some_iff] at hq
            obtain ⟨q1, hq1, -⟩ := hq
            exact absurd hc (advance_not_end hq1)
      · constructor
        · rintro ⟨_, _, ⟨rfl, rfl⟩, h⟩
          simp only [hc, if_false] at h
          cases hadv : advanceJsonNumber q c with
          | none => simp [hadv] at h
          | some q1 =>
            simp only [hadv] at h
            obtain ⟨w, u, rfl, hu, hw, rfl⟩ := (ih hn).mp h
            exact ⟨c :: w, u, rfl, hu, by simp [hadv, hw], rfl⟩
        · rintro ⟨w, u, hw, hu, hq, rfl⟩
          refine ⟨some c, _, ⟨rfl, rfl⟩, ?_⟩
          rcases w with - | ⟨d, w⟩
          · rw [List.nil_append] at hw
            subst hw
            exact absurd (hu c rfl) hc
          · obtain ⟨rfl, rfl⟩ := List.cons_eq_cons.mp hw
            simp only [List.foldlM_cons, Option.bind_eq_bind, Option.bind_eq_some_iff] at hq
            obtain ⟨q1, hq1, hq⟩ := hq
            simp only [hc, if_false, hq1]
            exact (ih hn).mpr ⟨w, u, rfl, hu, hq, rfl⟩

/-- A number is skipped up to the character that ends it. -/
theorem skipNumber_ok {c : Char} {u : Unit} : skipNumber c (onText s sel) = .ok u st ↔
    ∃ w t, s = w ++ t ∧ Follow t ∧ Number (c :: w) ∧ st = onText t sel := by
  simp only [← startJsonNumber_accepts]
  unfold skipNumber
  cases hstart : startJsonNumber c with
  | none => simp
  | some q =>
    simp only [bind_ok, fueled_onText, consumeNumberTail_ok (Nat.lt_succ_self _)]
    constructor
    · rintro ⟨q', _, ⟨w, t, rfl, ht, hw, rfl⟩, h⟩
      split at h
      · simp at h
      · exact ⟨w, t, rfl, ht, ⟨q, rfl, q', not_not.mp ‹_›, hw⟩, (pure_ok.mp h).2⟩
    · rintro ⟨w, t, rfl, ht, ⟨q1, hq1, q', hq', hw⟩, rfl⟩
      obtain rfl := Option.some.inj hq1
      refine ⟨q', _, ⟨w, t, rfl, ht, hw, rfl⟩, ?_⟩
      rw [if_neg (not_not.mpr hq')]
      exact pure_ok.mpr ⟨rfl, rfl⟩

theorem requireScalarEnd_ok {u : Unit} :
    requireScalarEnd (onText s sel) = .ok u st ↔ Follow s ∧ st = onText s sel := by
  simp only [requireScalarEnd, bind_ok, peek_onText, EStateM.Result.ok.injEq]
  cases s with
  | nil => simp [Follow]
  | cons c t =>
    by_cases hc : c ∈ jsonScalarEnd
    · simp [Follow, hc]
    · simp [Follow, hc]

theorem skipLiteralSuffix_ok {suffix : List Char} {u : Unit} : skipLiteralSuffix suffix (onText s sel) = .ok u st ↔
    ∃ t, s = suffix ++ t ∧ Follow t ∧ st = onText t sel := by
  induction suffix generalizing s with
  | nil =>
    simp only [skipLiteralSuffix, requireScalarEnd_ok, List.nil_append]
    constructor
    · rintro ⟨hs, rfl⟩
      exact ⟨s, rfl, hs, rfl⟩
    · rintro ⟨t, rfl, hs, rfl⟩
      exact ⟨hs, rfl⟩
  | cons d suffix ih =>
    simp only [skipLiteralSuffix, bind_ok, readRequired_ok]
    constructor
    · rintro ⟨a, _, ⟨t, rfl, rfl⟩, h⟩
      split at h
      · simp at h
      · obtain rfl : a = d := not_not.mp ‹_›
        obtain ⟨t, rfl, ht, rfl⟩ := ih.mp h
        exact ⟨t, rfl, ht, rfl⟩
    · rintro ⟨t, rfl, ht, rfl⟩
      refine ⟨d, _, ⟨suffix ++ t, rfl, rfl⟩, ?_⟩
      rw [if_neg (not_not.mpr rfl)]
      exact ih.mpr ⟨t, rfl, ht, rfl⟩

theorem literals_iff {c : Char} {w : List Char} : c :: w ∈ literals ↔ jsonLiteralSuffixes c = some w := by
  unfold jsonLiteralSuffixes
  split <;> simp_all [literals, eq_comm]

theorem number_not_literal {c : Char} {w : List Char} (h : Number (c :: w)) : jsonLiteralSuffixes c = none := by
  obtain ⟨q, hq, -⟩ := startJsonNumber_accepts.mpr h
  have hstart : ∀ d, startJsonNumber d = none → c ≠ d := by
    rintro d hd rfl
    simp [hd] at hq
  unfold jsonLiteralSuffixes
  split
  · exact absurd rfl (hstart 'f' (by decide))
  · exact absurd rfl (hstart 'n' (by decide))
  · exact absurd rfl (hstart 't' (by decide))
  · rfl

theorem skipScalar_ok {u : Unit} : skipScalar (onText s sel) = .ok u st ↔
    ∃ w t, s = w ++ t ∧ Follow t ∧ (w ∈ literals ∨ Number w) ∧ st = onText t sel := by
  simp only [skipScalar, bind_ok, readRequired_ok]
  constructor
  · rintro ⟨c, _, ⟨t, rfl, rfl⟩, h⟩
    cases hc : jsonLiteralSuffixes c with
    | some suffix =>
      simp only [hc] at h
      obtain ⟨t, rfl, ht, rfl⟩ := skipLiteralSuffix_ok.mp h
      exact ⟨c :: suffix, t, rfl, ht, .inl (literals_iff.mpr hc), rfl⟩
    | none =>
      simp only [hc] at h
      obtain ⟨w, t, rfl, ht, hw, rfl⟩ := skipNumber_ok.mp h
      exact ⟨c :: w, t, rfl, ht, .inr hw, rfl⟩
  · rintro ⟨w, t, rfl, ht, hw, rfl⟩
    rcases w with - | ⟨c, w⟩
    · rcases hw with h | h
      · simp [literals] at h
      · rw [number_iff] at h
        simp [Unsigned, IntPart] at h
    · refine ⟨c, _, ⟨w ++ t, rfl, rfl⟩, ?_⟩
      rcases hw with h | h
      · rw [literals_iff.mp h]
        exact skipLiteralSuffix_ok.mpr ⟨t, rfl, ht, rfl⟩
      · rw [number_not_literal h]
        exact skipNumber_ok.mpr ⟨w, t, rfl, ht, h, rfl⟩

end Crewplane.Claude
