import Crewplane.Claude.Parser
/-
# The cut into chunks does not matter

Two states are alike when the same characters are left to read and the selections agree. Every method
respects this, because it reads through the cursor only; so parsing a text in chunks is parsing the text.
-/
namespace Crewplane.Claude

open Lib

def Alike (s t : State) : Prop := s.cursor.rest = t.cursor.rest ∧ s.selection = t.selection

abbrev Textual {α : Type} (m : ParserM α) : Prop := Respects Alike m

/-! ## The cursor -/

/-- One read takes the first of the characters left. -/
theorem fetch_rest (current : List Char) (index : Nat) (chunks : List (List Char)) :
    (fetch current index chunks).1 = (current.drop index ++ chunks.flatten).head? ∧
      (fetch current index chunks).2.rest = (current.drop index ++ chunks.flatten).tail := by
  induction chunks generalizing current index with
  | nil =>
    by_cases h : index < current.length
    · rw [List.drop_eq_getElem_cons h]
      simp [fetch, JsonCharCursor.rest, h]
    · simp [fetch, JsonCharCursor.rest, h, List.drop_eq_nil_of_le (Nat.not_lt.mp h)]
  | cons chunk chunks ih =>
    by_cases h : index < current.length
    · rw [List.drop_eq_getElem_cons h]
      simp [fetch, JsonCharCursor.rest, h]
    · have hdrop : current.drop index = [] := List.drop_eq_nil_of_le (Nat.not_lt.mp h)
      by_cases hchunk : chunk = []
      · have hi := ih current index
        rw [hdrop] at hi ⊢
        simpa [fetch, h, hchunk] using hi
      · have hi := ih chunk 0
        simpa [fetch, h, hchunk, hdrop] using hi

theorem read_rest (st : State) :
    ∃ cursor, read st = .ok st.cursor.rest.head? { st with cursor } ∧ cursor.rest = st.cursor.rest.tail := by
  rcases hp : st.cursor.pushback with - | ⟨c, pushback⟩
  · obtain ⟨hhead, htail⟩ := fetch_rest st.cursor.current st.cursor.index st.cursor.chunks
    refine ⟨(fetch st.cursor.current st.cursor.index st.cursor.chunks).2, ?_, ?_⟩
    · simp [read, hp, JsonCharCursor.rest, hhead]
    · simp [JsonCharCursor.rest, hp] at htail ⊢
      exact htail
  · refine ⟨{ st.cursor with pushback }, ?_, ?_⟩
    · simp [read, hp, JsonCharCursor.rest]
    · simp [JsonCharCursor.rest, hp]

theorem textual_read : Textual read := by
  rintro s t ⟨hrest, hsel⟩
  obtain ⟨c, hc, hcrest⟩ := read_rest s
  obtain ⟨d, hd, hdrest⟩ := read_rest t
  rw [← hrest] at hd hdrest
  exact .inl ⟨_, _, _, hc, hd, hcrest.trans hdrest.symm, hsel⟩

theorem textual_unread (chars : List Char) : Textual (unread chars) := by
  refine .modify fun s t h => ⟨?_, h.2⟩
  have hrest := h.1
  simp only [JsonCharCursor.rest, List.append_assoc] at hrest ⊢
  rw [hrest]

theorem textual_malformed {α : Type} (e : ClaudeJsonParseError) : Textual (malformed e : ParserM α) := .raise _

theorem textual_fueled {α : Type} {loop : Nat → ParserM α} (h : ∀ n, Textual (loop n)) : Textual (fueled loop) := by
  intro s t hst
  simp only [fueled, hst.1]
  exact h _ s t hst

theorem textual_peek : Textual peek := by
  refine textual_read.bind fun c => ?_
  cases c with
  | none => exact .ret none
  | some c => exact (textual_unread [c]).bind fun _ => .ret (some c)

theorem textual_readRequired : Textual readRequired := by
  refine textual_read.bind fun c => ?_
  cases c with
  | none => exact textual_malformed _
  | some c => exact .ret c

theorem textual_expect (expected : Char) : Textual (expect expected) :=
  textual_readRequired.bind fun _ => .cond (textual_malformed _) (.ret ())

/-! ## White space, strings and scalars -/

theorem textual_skipWhitespace : Textual skipWhitespace := by
  refine textual_fueled fun n => ?_
  induction n with
  | zero => exact .raise _
  | succ n ih => exact textual_readRequired.bind fun c => .cond (textual_unread [c]) ih

theorem textual_skipTrailingWhitespace : Textual skipTrailingWhitespace := by
  refine textual_fueled fun n => ?_
  induction n with
  | zero => exact .raise _
  | succ n ih =>
    refine textual_read.bind fun c => ?_
    cases c with
    | none => exact .ret ()
    | some c => exact .cond (textual_malformed _) ih

theorem textual_validateStringChar (c : Char) : Textual (validateStringChar c) :=
  .cond (textual_malformed _) (.ret ())

theorem textual_readHexQuad : Textual readHexQuad :=
  textual_readRequired.bind fun a => textual_readRequired.bind fun b => textual_readRequired.bind fun c =>
    textual_readRequired.bind fun d => .cond (textual_malformed _) (.ret [a, b, c, d])

theorem textual_readSurrogatePair (high : Nat) : Textual (readSurrogatePair high) :=
  textual_readRequired.bind fun _ => textual_readRequired.bind fun _ =>
    .cond ((textual_unread _).bind fun _ => .ret _)
      (textual_readHexQuad.bind fun _ => .cond (.ret _) ((textual_unread _).bind fun _ => .ret _))

theorem textual_readUnicodeEscape : Textual readUnicodeEscape :=
  textual_readHexQuad.bind fun _ => .cond (textual_readSurrogatePair _) (.cond (.ret _) (.ret _))

theorem textual_readEscape : Textual readEscape := by
  refine textual_readRequired.bind fun escaped => .cond textual_readUnicodeEscape ?_
  cases simpleJsonEscapes escaped with
  | none => exact textual_malformed _
  | some c => exact .ret c

theorem textual_nextDecodedStringChar : Textual nextDecodedStringChar :=
  textual_readRequired.bind fun c => .cond (.ret none)
    ((textual_validateStringChar c).bind fun _ => .cond textual_readEscape.map (.ret _))

theorem textual_readString : Textual readString := by
  refine (textual_expect _).bind fun _ => textual_fueled fun n => ?_
  induction n with
  | zero => exact .raise _
  | succ n ih =>
    refine textual_nextDecodedStringChar.bind fun c => ?_
    cases c with
    | none => exact .ret []
    | some c => exact ih.bind fun cs => .ret (c :: cs)

theorem textual_selection (f : ResultSelection → ResultSelection) :
    Textual (modify fun st => { st with selection := f st.selection }) :=
  .modify fun _ _ h => ⟨h.1, congrArg f h.2⟩

theorem textual_streamString : Textual streamString := by
  refine (textual_expect _).bind fun _ => textual_fueled fun n => ?_
  generalize 0 = count
  induction n generalizing count with
  | zero => exact .raise _
  | succ n ih =>
    refine textual_nextDecodedStringChar.bind fun c => ?_
    cases c with
    | none => exact .ret count
    | some c =>
      exact (textual_selection fun sel => { sel with file := sel.file.map (· ++ [c]) }).bind fun _ => ih (count + 1)

theorem textual_skipRawEscape : Textual skipRawEscape :=
  textual_readRequired.bind fun _ => .cond (.ret ()) (.cond (textual_malformed _) textual_readHexQuad.map)

theorem textual_skipString : Textual skipString := by
  refine (textual_expect _).bind fun _ => textual_fueled fun n => ?_
  induction n with
  | zero => exact .raise _
  | succ n ih =>
    refine textual_readRequired.bind fun c => .cond (.ret ()) ((textual_validateStringChar c).bind fun _ => ?_)
    exact .cond (textual_skipRawEscape.bind fun _ => ih) ih

theorem textual_requireScalarEnd : Textual requireScalarEnd := by
  refine textual_peek.bind fun c => ?_
  cases c with
  | none => exact .ret ()
  | some c => exact .cond (textual_malformed _) (.ret ())

theorem textual_consumeNumberTail (state : JsonNumberState) (n : Nat) : Textual (consumeNumberTail state n) := by
  induction n generalizing state with
  | zero => exact .raise _
  | succ n ih =>
    refine textual_read.bind fun c => ?_
    cases c with
    | none => exact .ret state
    | some c =>
      refine .cond ((textual_unread _).bind fun _ => .ret state) ?_
      cases advanceJsonNumber state c with
      | none => exact textual_malformed _
      | some state => exact ih state

theorem textual_skipNumber (first : Char) : Textual (skipNumber first) := by
  unfold skipNumber
  cases startJsonNumber first with
  | none => exact textual_malformed _
  | some state =>
    exact (textual_fueled (textual_consumeNumberTail state)).bind fun _ => .cond (textual_malformed _) (.ret ())

theorem textual_skipLiteralSuffix (suffix : List Char) : Textual (skipLiteralSuffix suffix) := by
  induction suffix with
  | nil => exact textual_requireScalarEnd
  | cons expected suffix ih => exact textual_readRequired.bind fun _ => .cond (textual_malformed _) ih

theorem textual_skipScalar : Textual skipScalar := by
  refine textual_readRequired.bind fun first => ?_
  cases jsonLiteralSuffixes first with
  | none => exact textual_skipNumber first
  | some suffix => exact textual_skipLiteralSuffix suffix

/-! ## Containers -/

theorem textual_consumeValueStart : Textual consumeValueStart := by
  refine textual_skipWhitespace.bind fun _ => textual_peek.bind fun c => ?_
  cases c with
  | none => exact textual_malformed _
  | some c =>
    exact .cond (textual_skipString.bind fun _ => .ret none)
      (.cond ((textual_expect _).bind fun _ => .ret _)
        (.cond ((textual_expect _).bind fun _ => .ret _) (textual_skipScalar.bind fun _ => .ret none)))

theorem textual_consumeEmptyContainer (frame : JsonContainerFrame) : Textual (consumeEmptyContainer frame) :=
  .cond (.ret false)
    (textual_peek.bind fun _ => .cond (.ret false) ((textual_expect _).bind fun _ => .ret true))

theorem textual_skipContainerItem (frame : JsonContainerFrame) : Textual (skipContainerItem frame) :=
  .cond (textual_skipString.bind fun _ => textual_skipWhitespace.bind fun _ => (textual_expect _).bind fun _ =>
    textual_consumeValueStart) textual_consumeValueStart

theorem textual_readHasNextItem (closer : Char) : Textual (readHasNextItem closer) :=
  textual_readRequired.bind fun _ => .cond (.ret false) (.cond (textual_malformed _) (.ret true))

theorem textual_advanceContainer (frame : JsonContainerFrame) (below : List JsonContainerFrame) :
    Textual (advanceContainer frame below) :=
  textual_skipWhitespace.bind fun _ => (textual_consumeEmptyContainer frame).bind fun _ => .cond (.ret below)
    (.cond ((textual_skipContainerItem frame).bind fun _ => .ret _)
      ((textual_readHasNextItem _).bind fun _ => .cond (.ret _) (.ret below)))

theorem textual_skipContainerTailLoop (frames : List JsonContainerFrame) (n : Nat) :
    Textual (skipContainerTailLoop frames n) := by
  induction n generalizing frames with
  | zero =>
    cases frames with
    | nil => exact .ret ()
    | cons frame below => exact .raise _
  | succ n ih =>
    cases frames with
    | nil => exact .ret ()
    | cons frame below => exact (textual_advanceContainer frame below).bind ih

theorem textual_skipValue : Textual skipValue := by
  refine textual_consumeValueStart.bind fun nested => ?_
  cases nested with
  | none => exact .ret ()
  | some container => exact textual_fueled (textual_skipContainerTailLoop _)

/-! ## The object -/

theorem textual_readResultValue : Textual readResultValue :=
  textual_peek.bind fun _ => .cond (textual_skipValue.bind fun _ => textual_malformed _)
    ((textual_selection fun sel => { sel with file := some [] }).bind fun _ => textual_streamString)

theorem textual_parseMember : Textual parseMember :=
  textual_readString.bind fun _ => textual_skipWhitespace.bind fun _ => (textual_expect _).bind fun _ =>
    textual_skipWhitespace.bind fun _ =>
      .cond (textual_readResultValue.bind fun count =>
        textual_selection fun sel => { sel with charCount := some count }) textual_skipValue

theorem textual_parseMembersLoop (n : Nat) : Textual (parseMembersLoop n) := by
  induction n with
  | zero => exact .raise _
  | succ n ih =>
    exact textual_parseMember.bind fun _ => textual_skipWhitespace.bind fun _ =>
      (textual_readHasNextItem _).bind fun _ => .cond (textual_skipWhitespace.bind fun _ => ih) (.ret ())

theorem textual_parse : Textual parse := by
  refine textual_skipWhitespace.bind fun _ => (textual_expect _).bind fun _ => .bind ?_ fun _ =>
    textual_skipTrailingWhitespace
  refine textual_skipWhitespace.bind fun _ => .bind ?_ fun _ => .cond (.ret ()) (textual_fueled textual_parseMembersLoop)
  exact textual_peek.bind fun _ => .cond (.ret false) ((textual_expect _).bind fun _ => .ret true)

/-- The answer and the file depend on the text alone, not on its chunks. -/
theorem parseClaudeResult_flatten {chunks chunks' : List (List Char)} (h : chunks.flatten = chunks'.flatten)
    (file : Option (List Char)) : parseClaudeResult chunks file = parseClaudeResult chunks' file := by
  have halike : Alike ⟨⟨chunks, [], 0, []⟩, ⟨file, none⟩⟩ ⟨⟨chunks', [], 0, []⟩, ⟨file, none⟩⟩ := ⟨by simpa [JsonCharCursor.rest], rfl⟩
  rcases textual_parse _ _ halike with ⟨a, s, t, hs, ht, hst⟩ | ⟨e, s, t, hs, ht, hst⟩
  · simp [parseClaudeResult, hs, ht, hst.2]
  · simp [parseClaudeResult, hs, ht, hst.2]

end Crewplane.Claude
