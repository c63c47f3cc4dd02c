import Crewplane.Claude.Chunks
/-
# The loops end

`Net k m`: an answer of `m` leaves at least `k` characters less than there were, and `m` does not run
out of fuel. Characters that are put back count against those read. A round of each loop reads a
character (`Rounds.next`), so the fuel it is given is enough.
-/
namespace Crewplane.Claude

open Lib

variable {α β : Type}

def left (st : State) : Int := st.cursor.rest.length

def Net (k : Int) (m : ParserM α) : Prop :=
  ∀ L, Spec (left · ≤ L) m (fun _ st => left st + k ≤ L) fun e _ => e ≠ .outOfFuel

/-- `Net k` where fewer than `n` characters are left. -/
def Rounds (n : Nat) (k : Int) (m : ParserM α) : Prop :=
  ∀ L, Spec (fun st => left st ≤ L ∧ left st < n) m (fun _ st => left st + k ≤ L) fun e _ => e ≠ .outOfFuel

namespace Net

variable {j k : Int} {m : ParserM α}

theorem ret (a : α) : Net 0 (pure a : ParserM α) := fun _ => .ret a fun _ h => by simpa using h

theorem raise (e : ClaudeJsonParseError) : Net k (malformed e : ParserM α) := fun _ => .raise _ fun _ _ => by simp

theorem weaken (h : Net j m) (hk : k ≤ j) : Net k m := fun L =>
  (h L).conseq (fun _ hs => hs) (fun _ _ hs => by omega) fun _ _ he => he

theorem bind {f : α → ParserM β} (hm : Net j m) (hf : ∀ a, Net k (f a)) : Net (j + k) (m >>= f) := by
  intro L
  refine (hm L).bind fun a => (hf a (L - j)).conseq ?_ ?_ fun _ _ he => he
  · intro s hs
    omega
  · intro _ s hs
    omega

/-- `m` after `j` characters have been read. -/
theorem after (h : Net k m) (j L : Int) :
    Spec (fun st => left st + j ≤ L) m (fun _ st => left st + (j + k) ≤ L) fun e _ => e ≠ .outOfFuel := by
  refine (h (L - j)).conseq ?_ ?_ fun _ _ he => he
  · intro s hs
    omega
  · intro _ s hs
    omega

/-- The rest of the body may count on what the answer says was read. -/
theorem bind_of {r : α → Int} {f : α → ParserM β}
    (hm : ∀ L, Spec (left · ≤ L) m (fun a st => left st + r a ≤ L) fun e _ => e ≠ .outOfFuel)
    (hf : ∀ a, Net (k - r a) (f a)) : Net k (m >>= f) := by
  intro L
  refine (hm L).bind fun a => (hf a (L - r a)).conseq ?_ ?_ fun _ _ he => he
  · intro s hs
    omega
  · intro _ s hs
    omega

theorem map {f : α → β} (hm : Net k m) : Net k (f <$> m) := by
  rw [map_eq_pure_bind]
  simpa using hm.bind fun a => ret (f a)

theorem cond {c : Prop} [Decidable c] {n : ParserM α} (hm : Net k m) (hn : Net k n) : Net k (if c then m else n) :=
  fun L => .cond (fun _ => hm L) fun _ => hn L

theorem read_bind {f : Option Char → ParserM β} (hnone : Net k (f none)) (hsome : ∀ c, Net (k - 1) (f (some c))) :
    Net k (read >>= f) := by
  intro L s hs
  obtain ⟨cursor, hread, hrest⟩ := read_rest s
  have hbind : (read >>= f) s = f s.cursor.rest.head? { s with cursor } := by simp [Bind.bind, EStateM.bind, hread]
  rw [hbind]
  rcases hcs : s.cursor.rest with - | ⟨c, cs⟩
  · refine hnone L _ ?_
    simpa [left, hrest, hcs] using hs
  · have hcursor : left { s with cursor } ≤ L - 1 := by
      simp [left, hrest, hcs] at hs ⊢
      omega
    have hrun := (hsome c (L - 1)).conseq (fun _ h => h) (fun _ st hst => show left st + k ≤ L by omega) fun _ _ he => he
    exact hrun _ hcursor

theorem unread (chars : List Char) : Net (-chars.length) (unread chars) := by
  intro L
  refine .modify _ fun s hs => ?_
  simp [left, JsonCharCursor.rest] at hs ⊢
  omega

theorem selection (f : ResultSelection → ResultSelection) :
    Net 0 (modify fun st => { st with selection := f st.selection } : ParserM Unit) := by
  intro L
  refine .modify _ fun s hs => ?_
  simpa [left] using hs

theorem rounds (h : Net k m) (n : Nat) : Rounds n k m := fun L =>
  (h L).conseq (fun _ hs => hs.1) (fun _ _ hs => hs) fun _ _ he => he

theorem fueled {loop : Nat → ParserM α} (h : ∀ n, Rounds n k (loop n)) : Net k (fueled loop) := by
  intro L s hs
  refine h _ L s ⟨hs, ?_⟩
  simp only [left]
  omega

end Net

namespace Rounds

variable {n : Nat} {j k : Int} {m : ParserM α}

theorem zero (m : ParserM α) : Rounds 0 k m := by
  rintro L s ⟨-, hs⟩
  simp [left] at hs
  omega

theorem cond {c : Prop} [Decidable c] {m' : ParserM α} (hm : Rounds n k m) (hn : Rounds n k m') :
    Rounds n k (if c then m else m') :=
  fun L => .cond (fun _ => hm L) fun _ => hn L

theorem weaken (h : Rounds n j m) (hk : k ≤ j) : Rounds n k m := fun L =>
  (h L).conseq (fun _ hs => hs) (fun _ _ hs => by omega) fun _ _ he => he

/-- What comes after a character has been read has one round less. -/
theorem next {f : α → ParserM β} (hm : Net j m) (hj : 1 ≤ j) (hf : ∀ a, Rounds n k (f a)) :
    Rounds (n + 1) (j + k) (m >>= f) := by
  refine fun L => .pointwise fun s hs => ?_
  have hread : Spec (· = s) m (fun _ st => left st + j ≤ left s) fun e _ => e ≠ .outOfFuel := by
    refine (hm (left s)).conseq ?_ (fun _ _ h => h) fun _ _ he => he
    rintro _ rfl
    exact Int.le_refl _
  refine hread.bind fun a => (hf a (L - j)).conseq ?_ ?_ fun _ _ he => he
  · intro st hst
    omega
  · intro _ st hst
    omega

/-- Before the rounds of the loop. -/
theorem bind_left {f : α → ParserM β} (hm : Net 0 m) (hf : ∀ a, Rounds n k (f a)) : Rounds n k (m >>= f) := by
  refine fun L => .pointwise fun s hs => ?_
  have hleft : Spec (· = s) m (fun _ st => left st ≤ left s) fun e _ => e ≠ .outOfFuel := by
    refine (hm (left s)).conseq ?_ (fun _ _ h => by simpa using h) fun _ _ he => he
    rintro _ rfl
    exact Int.le_refl _
  refine hleft.bind fun a => (hf a L).conseq ?_ (fun _ _ h => h) fun _ _ he => he
  intro st hst
  omega

/-- After the rounds of the loop. -/
theorem bind {f : α → ParserM β} (hm : Rounds n k m) (hf : ∀ a, Net 0 (f a)) : Rounds n k (m >>= f) := by
  refine fun L => (hm L).bind fun a => (hf a (L - k)).conseq ?_ ?_ fun _ _ he => he
  · intro s hs
    omega
  · intro _ s hs
    omega

theorem read_next {f : Option Char → ParserM β} (hnone : Net k (f none)) (hsome : ∀ c, Rounds n (k - 1) (f (some c))) :
    Rounds (n + 1) k (read >>= f) := by
  rintro L s ⟨hs, hn⟩
  obtain ⟨cursor, hread, hrest⟩ := read_rest s
  have hbind : (read >>= f) s = f s.cursor.rest.head? { s with cursor } := by simp [Bind.bind, EStateM.bind, hread]
  rw [hbind]
  rcases hcs : s.cursor.rest with - | ⟨c, cs⟩
  · refine hnone L _ ?_
    simpa [left, hrest, hcs] using hs
  · have hcursor : left { s with cursor } ≤ L - 1 ∧ left { s with cursor } < n := by
      simp [left, hrest, hcs] at hs hn ⊢
      omega
    have hrun := (hsome c (L - 1)).conseq (fun _ h => h) (fun _ st hst => show left st + k ≤ L by omega) fun _ _ he => he
    exact hrun _ hcursor

end Rounds

/-! ## The cursor, strings and scalars -/

theorem net_read : Net 0 read := by
  have h : Net 0 (read >>= pure) := .read_bind (.ret none) fun c => (Net.ret (some c)).weaken (by omega)
  simpa using h

theorem net_peek : Net 0 peek := by
  refine .read_bind (.ret none) fun c => ?_
  exact ((Net.unread [c]).bind fun _ => .ret (some c)).weaken (by simp)

theorem net_readRequired : Net 1 readRequired :=
  .read_bind (.raise _) fun c => (Net.ret c).weaken (by omega)

theorem net_expect (expected : Char) : Net 1 (expect expected) :=
  net_readRequired.bind fun _ => .cond (.raise _) (.ret ())

theorem net_skipWhitespace : Net 0 skipWhitespace := by
  refine .fueled fun n => ?_
  induction n with
  | zero => exact .zero _
  | succ n ih =>
    exact Rounds.next net_readRequired (k := -1) (by omega) fun c =>
      .cond ((Net.unread [c]).rounds n) (ih.weaken (by omega))

theorem net_skipTrailingWhitespace : Net 0 skipTrailingWhitespace := by
  refine .fueled fun n => ?_
  induction n with
  | zero => exact .zero _
  | succ n ih => exact .read_next (.ret ()) fun c => .cond ((Net.raise _).rounds n) (ih.weaken (by omega))

theorem net_validateStringChar (c : Char) : Net 0 (validateStringChar c) := .cond (.raise _) (.ret ())

theorem net_readHexQuad (L : Int) :
    Spec (left · ≤ L) readHexQuad (fun cs st => left st + cs.length ≤ L) fun e _ => e ≠ .outOfFuel := by
  refine (net_readRequired L).bind fun a => (net_readRequired.after 1 L).bind fun b =>
    (net_readRequired.after _ L).bind fun c => (net_readRequired.after _ L).bind fun d => ?_
  exact .cond (fun _ => .raise _ fun _ _ => by simp) fun _ => .ret [a, b, c, d] fun s hs => hs

theorem net_readSurrogatePair (high : Nat) : Net 0 (readSurrogatePair high) := by
  refine .bind_of net_readRequired fun first => .bind_of net_readRequired fun second => .cond ?_ ?_
  · exact ((Net.unread _).bind fun _ => .ret _).weaken (by simp)
  · refine .bind_of net_readHexQuad fun lowChars => .cond ((Net.ret _).weaken (by omega)) ?_
    refine ((Net.unread _).bind fun _ => .ret _).weaken ?_
    simp
    omega

theorem net_readUnicodeEscape : Net 0 readUnicodeEscape :=
  .bind_of net_readHexQuad fun cs => .cond ((net_readSurrogatePair _).weaken (by omega))
    (.cond ((Net.ret _).weaken (by omega)) ((Net.ret _).weaken (by omega)))

theorem net_readEscape : Net 0 readEscape := by
  refine (net_readRequired.bind fun escaped => .cond net_readUnicodeEscape ?_).weaken (by omega)
  cases simpleJsonEscapes escaped with
  | none => exact .raise _
  | some c => exact .ret c

theorem net_nextDecodedStringChar : Net 1 nextDecodedStringChar :=
  net_readRequired.bind fun c => .cond (.ret none)
    ((net_validateStringChar c).bind fun _ => .cond net_readEscape.map (.ret _))

theorem net_readString : Net 1 readString := by
  refine Net.weaken (j := 1 + 0) ((net_expect _).bind fun _ => .fueled fun n => ?_) (by omega)
  induction n with
  | zero => exact .zero _
  | succ n ih =>
    refine Rounds.weaken (j := 1 + 0) (Rounds.next net_nextDecodedStringChar (by omega) fun c => ?_) (by omega)
    cases c with
    | none => exact (Net.ret []).rounds n
    | some c => exact ih.bind fun cs => .ret (c :: cs)

theorem net_streamString : Net 1 streamString := by
  refine Net.weaken (j := 1 + 0) ((net_expect _).bind fun _ => .fueled fun n => ?_) (by omega)
  generalize 0 = count
  induction n generalizing count with
  | zero => exact .zero _
  | succ n ih =>
    refine Rounds.weaken (j := 1 + 0) (Rounds.next net_nextDecodedStringChar (by omega) fun c => ?_) (by omega)
    cases c with
    | none => exact (Net.ret count).rounds n
    | some c =>
      exact .bind_left (.selection fun sel => { sel with file := sel.file.map (· ++ [c]) }) fun _ => ih (count + 1)

theorem net_skipRawEscape : Net 0 skipRawEscape := by
  have hquad : Net 0 readHexQuad := fun L =>
    (net_readHexQuad L).conseq (fun _ h => h) (fun _ _ h => by omega) fun _ _ he => he
  exact (net_readRequired.bind fun _ => .cond (.ret ()) (.cond (.raise _) hquad.map)).weaken (by omega)

theorem net_skipString : Net 1 skipString := by
  refine Net.weaken (j := 1 + 0) ((net_expect _).bind fun _ => .fueled fun n => ?_) (by omega)
  induction n with
  | zero => exact .zero _
  | succ n ih =>
    refine Rounds.weaken (j := 1 + 0) (Rounds.next net_readRequired (by omega) fun c => ?_) (by omega)
    refine .cond ((Net.ret ()).rounds n) (.bind_left (net_validateStringChar c) fun _ => ?_)
    exact .cond (.bind_left net_skipRawEscape fun _ => ih) ih

theorem net_requireScalarEnd : Net 0 requireScalarEnd := by
  refine Net.weaken (j := 0 + 0) (net_peek.bind fun c => ?_) (by omega)
  cases c with
  | none => exact .ret ()
  | some c => exact .cond (.raise _) (.ret ())

theorem rounds_consumeNumberTail (state : JsonNumberState) (n : Nat) : Rounds n 0 (consumeNumberTail state n) := by
  induction n generalizing state with
  | zero => exact .zero _
  | succ n ih =>
    refine .read_next (.ret state) fun c => .cond ?_ ?_
    · exact (((Net.unread [c]).bind fun _ => .ret state).weaken (by simp)).rounds n
    · cases advanceJsonNumber state c with
      | none => exact (Net.raise _).rounds n
      | some state => exact (ih state).weaken (by omega)

theorem net_skipNumber (first : Char) : Net 0 (skipNumber first) := by
  unfold skipNumber
  cases startJsonNumber first with
  | none => exact .raise _
  | some state =>
    exact Net.weaken (j := 0 + 0) ((Net.fueled (rounds_consumeNumberTail state)).bind fun _ =>
      .cond (.raise _) (.ret ())) (by omega)

theorem net_skipLiteralSuffix (suffix : List Char) : Net 0 (skipLiteralSuffix suffix) := by
  induction suffix with
  | nil => exact net_requireScalarEnd
  | cons expected suffix ih => exact (net_readRequired.bind fun _ => .cond (.raise _) ih).weaken (by omega)

theorem net_skipScalar : Net 1 skipScalar := by
  refine Net.weaken (j := 1 + 0) (net_readRequired.bind fun first => ?_) (by omega)
  cases jsonLiteralSuffixes first with
  | none => exact net_skipNumber first
  | some suffix => exact net_skipLiteralSuffix suffix

/-! ## Containers and the object -/

theorem net_consumeValueStart : Net 1 consumeValueStart := by
  refine Net.weaken (j := 0 + (0 + (1 + 0))) (net_skipWhitespace.bind fun _ => net_peek.bind fun c => ?_) (by omega)
  cases c with
  | none => exact .raise _
  | some c =>
    exact .cond (net_skipString.bind fun _ => .ret none) (.cond ((net_expect _).bind fun _ => .ret _)
      (.cond ((net_expect _).bind fun _ => .ret _) (net_skipScalar.bind fun _ => .ret none)))

theorem net_skipContainerItem (frame : JsonContainerFrame) : Net 1 (skipContainerItem frame) :=
  .cond ((net_skipString.bind fun _ => net_skipWhitespace.bind fun _ => (net_expect _).bind fun _ =>
    net_consumeValueStart).weaken (by omega)) net_consumeValueStart

theorem net_readHasNextItem (closer : Char) : Net 1 (readHasNextItem closer) :=
  net_readRequired.bind fun _ => .cond (.ret false) (.cond (.raise _) (.ret true))

theorem net_consumeEmptyContainer (frame : JsonContainerFrame) (L : Int) :
    Spec (left · ≤ L) (consumeEmptyContainer frame) (fun b st => left st + (if b then 1 else 0) ≤ L)
      fun e _ => e ≠ .outOfFuel := by
  refine .cond (fun _ => .ret false fun _ h => by simpa using h) fun _ => (net_peek L).bind fun c => ?_
  refine .cond (fun _ => .ret false fun _ h => by simpa using h) fun _ => ?_
  simp only [Int.add_zero]
  exact ((net_expect _) L).bind fun _ => .ret true fun _ h => h

theorem net_advanceContainer (frame : JsonContainerFrame) (below : List JsonContainerFrame) :
    Net 1 (advanceContainer frame below) := by
  refine Net.weaken (j := 0 + 1) (net_skipWhitespace.bind fun _ => ?_) (by omega)
  refine .bind_of (net_consumeEmptyContainer frame) fun b => ?_
  cases b with
  | true => exact .ret below
  | false =>
    simp only [Bool.false_eq_true, if_false, Int.sub_zero]
    exact .cond ((net_skipContainerItem frame).bind fun _ => .ret _)
      ((net_readHasNextItem _).bind fun _ => .cond (.ret _) (.ret below))

theorem rounds_skipContainerTailLoop (frames : List JsonContainerFrame) (n : Nat) :
    Rounds n 0 (skipContainerTailLoop frames n) := by
  induction n generalizing frames with
  | zero => exact .zero _
  | succ n ih =>
    cases frames with
    | nil => exact (Net.ret ()).rounds _
    | cons frame below => exact (Rounds.next (net_advanceContainer frame below) (by omega) ih).weaken (by omega)

theorem net_skipValue : Net 1 skipValue := by
  refine Net.weaken (j := 1 + 0) (net_consumeValueStart.bind fun nested => ?_) (by omega)
  cases nested with
  | none => exact .ret ()
  | some container => exact .fueled (rounds_skipContainerTailLoop _)

theorem net_readResultValue : Net 1 readResultValue := by
  refine Net.weaken (j := 0 + 1) (net_peek.bind fun _ => .cond ?_ ?_) (by omega)
  · exact Net.weaken (j := 1 + 0) (net_skipValue.bind fun _ => .raise _) (by omega)
  · exact Net.weaken (j := 0 + 1) ((Net.selection fun sel => { sel with file := some [] }).bind fun _ =>
      net_streamString) (by omega)

theorem net_parseMember : Net 1 parseMember := by
  refine (net_readString.bind fun key => net_skipWhitespace.bind fun _ => (net_expect _).bind fun _ =>
    net_skipWhitespace.bind (k := 1) fun _ => .cond ?_ net_skipValue).weaken (by omega)
  exact net_readResultValue.bind fun count => .selection fun sel => { sel with charCount := some count }

theorem rounds_parseMembersLoop (n : Nat) : Rounds n 0 (parseMembersLoop n) := by
  induction n with
  | zero => exact .zero _
  | succ n ih =>
    refine (Rounds.next net_parseMember (by omega) fun _ => .bind_left net_skipWhitespace fun _ =>
      .bind_left ((net_readHasNextItem _).weaken (by omega)) fun _ => .cond (.bind_left net_skipWhitespace fun _ => ih)
        ((Net.ret ()).rounds n)).weaken (by omega)

theorem net_parse : Net 0 parse := by
  refine (net_skipWhitespace.bind fun _ => (net_expect _).bind fun _ => .bind (j := 0) ?_ fun _ =>
    net_skipTrailingWhitespace).weaken (by omega)
  refine (net_skipWhitespace.bind fun _ => .bind (j := 0) ?_ fun _ =>
    .cond (.ret ()) (.fueled rounds_parseMembersLoop)).weaken (by omega)
  exact (net_peek.bind (k := 0) fun _ => .cond (.ret false) (((net_expect _).bind fun _ => .ret true).weaken (by omega))).weaken
    (by omega)

end Crewplane.Claude
