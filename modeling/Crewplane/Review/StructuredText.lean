import Crewplane.Lib.Strip
import Crewplane.Review.Structured
/-
# What happens to the text of a reviewer

`TextKept` says what a section may lose: it turns into `None` only when it is one of the empty phrases up to case,
punctuation and white space, and otherwise it is in the packet for the executor. The letters of the other scripts are
text for it, but not for `normalizeTextToken`; `reviewer_text_kept_iff` is the difference.
-/
namespace Crewplane.Review

open Crewplane.Lib

/-! ## Squeezed text -/

section Squeeze

variable {p q : Char → Bool}

theorem mem_squeezeFrom {text : List Char} {b : Bool} {c : Char} (h : c ∈ text) (hc : p c = true) : c ∈ squeezeFrom p b text := by
  induction text generalizing b with
  | nil => cases h
  | cons a text ih =>
    unfold squeezeFrom
    rcases List.mem_cons.mp h with rfl | h
    · rw [if_pos hc]
      exact List.mem_cons_self
    · split
      · exact List.mem_cons_of_mem a (ih h)
      · split
        · exact ih h
        · exact List.mem_cons_of_mem ' ' (ih h)

theorem squeezeFrom_congr {text : List Char} (h : ∀ c ∈ text, p c = q c) (b : Bool) : squeezeFrom p b text = squeezeFrom q b text := by
  induction text generalizing b with
  | nil => rfl
  | cons a text ih =>
    obtain ⟨ha, htext⟩ := List.forall_mem_cons.mp h
    unfold squeezeFrom
    rw [ha, ih htext, ih htext]

end Squeeze

/-! ## Empty phrases -/

/-- A division of the characters into text and the rest (punctuation, symbols, white space) that is right for ASCII. -/
structure TextClass where
  isText : Char → Bool
  ascii : ∀ c, c.toNat < 128 → isText c = c.isAlphanum
  space : ∀ c, isSpace c = true → isText c = false

/-- The phrases that stand for an empty section of this name. -/
def emptyPhrases (name : String) : List String := genericEmptySentinels ++ sectionSentinels name

/-- The text is the phrase, up to case, punctuation and white space. -/
def ConsistsOf (cls : TextClass) (phrase body : String) : Prop :=
  squeeze cls.isText (lowerChars body.toList) = phrase.toList

/-- Every letter and digit of the text, in lower case, is ASCII. -/
def AsciiText (cls : TextClass) (body : String) : Prop :=
  ∀ c ∈ lowerChars body.toList, cls.isText c = true → c.toNat < 128

theorem isEmptySection_iff {content name : String} :
    isEmptySection content (some name) = true ↔ normalizeTextToken content ∈ emptyPhrases name := by
  simp [isEmptySection, emptyPhrases]

theorem toLower_not_upper (c : Char) : c.toLower.isUpper = false := by
  have hstep : ('a'.val - 'A'.val).toNat = 32 := by decide
  unfold Char.toLower
  split
  next h =>
    rw [Char.isUpper, decide_eq_false_iff_not]
    simp only [ge_iff_le, UInt32.le_iff_toNat_le, UInt32.toNat_add, hstep] at h ⊢
    simp only [Char.reduceVal, UInt32.reduceToNat] at h ⊢
    omega
  next h => simpa [Char.isUpper] using h

theorem mem_lowerChars {text : List Char} {c : Char} (h : c ∈ lowerChars text) : c.isUpper = false := by
  obtain ⟨a, -, ha⟩ := List.mem_flatMap.mp h
  unfold lowerChar at ha
  split at ha
  · rcases List.mem_pair.mp ha with rfl | rfl <;> decide
  · split at ha
    · rw [List.mem_singleton.mp ha]
      decide
    · rw [List.mem_singleton.mp ha]
      exact toLower_not_upper a

theorem tokenChar_eq (c : Char) : tokenChar c = (c.isLower || c.isDigit) := rfl

theorem tokenChar_ascii {c : Char} (h : tokenChar c = true) : c.toNat < 128 := by
  simp only [tokenChar, Bool.or_eq_true, Bool.and_eq_true, decide_eq_true_eq, Char.le_def, UInt32.le_iff_toNat_le] at h
  simp only [Char.reduceVal, UInt32.reduceToNat] at h
  rw [Char.toNat]
  omega

/-- In a text whose letters are ASCII, the two classes agree. -/
theorem squeeze_asciiText {cls : TextClass} {body : String} (h : AsciiText cls body) :
    squeeze cls.isText (lowerChars body.toList) = squeeze tokenChar (lowerChars body.toList) := by
  unfold squeeze
  rw [squeezeFrom_congr fun c hc => ?_]
  have hupper := mem_lowerChars hc
  by_cases hascii : c.toNat < 128
  · rw [cls.ascii c hascii, tokenChar_eq, Char.isAlphanum, Char.isAlpha, hupper, Bool.false_or]
  · have hnot : cls.isText c = false := by
      by_contra htext
      exact hascii (h c hc (by simpa using htext))
    have htoken : tokenChar c = false := by
      by_contra htext
      exact hascii (tokenChar_ascii (by simpa using htext))
    rw [hnot, htoken]

def asciiPhrase (phrase : String) : Bool := phrase.toList.all fun c => c.toNat < 128

theorem emptyPhrases_ascii : ∀ name ∈ [majorName, minorName], (emptyPhrases name).all asciiPhrase = true := by
  decide +kernel

/-! ## The sections -/

/-- The sections that go to the executor. -/
inductive IssueSection
  | major | minor
  deriving DecidableEq, Repr

namespace IssueSection

def name : IssueSection → String
  | major => majorName
  | minor => minorName

/-- The body that the reviewer wrote. -/
def body (m : StructuredReviewMatch) : IssueSection → String
  | major => m.majorIssues
  | minor => m.minorIssues

/-- What the evaluation holds of it. -/
def kept (e : EvaluatedReviewResult) : IssueSection → String
  | major => e.majorIssues
  | minor => e.minorIssues

end IssueSection

theorem normalizeReviewSection_ok {name content t : String} (h : normalizeReviewSection name content = .ok t) :
    strip content ≠ "" ∧ t = if isEmptySection (strip content) (some name) then emptySentinel else strip content := by
  unfold normalizeReviewSection at h
  by_cases hblank : strip content = ""
  · simp [hblank] at h
  · by_cases hempty : isEmptySection (strip content) (some name) = true
    · simp only [hblank, hempty, if_false, if_true] at h
      cases h
      simp [hblank, hempty]
    · simp only [hblank, hempty, if_false, Bool.false_eq_true] at h
      cases hvalid : validateReviewSectionContent name (strip content) with
      | error issue => simp [hvalid, bind, Except.bind] at h
      | ok u =>
        simp only [hvalid, bind, Except.bind, pure, Except.pure] at h
        cases h
        simp [hblank, hempty]

theorem normalizeReviewResult_ok {result parsed : ParsedReviewResult} (h : normalizeReviewResult result = .ok parsed) :
    normalizeReviewSection majorName result.majorIssues = .ok parsed.majorIssues ∧
      normalizeReviewSection minorName result.minorIssues = .ok parsed.minorIssues := by
  unfold normalizeReviewResult at h
  cases hmajor : normalizeReviewSection majorName result.majorIssues with
  | error e => simp [hmajor, bind, Except.bind] at h
  | ok major =>
    cases hminor : normalizeReviewSection minorName result.minorIssues with
    | error e => simp [hmajor, hminor, bind, Except.bind] at h
    | ok minor =>
      cases hnits : normalizeReviewSection nitpicksName result.nitpicks with
      | error e => simp [hmajor, hminor, hnits, bind, Except.bind] at h
      | ok nitpicks =>
        simp only [hmajor, hminor, hnits, bind, Except.bind, pure, Except.pure] at h
        cases h
        exact ⟨rfl, rfl⟩

/-- A section of an accepted review. -/
theorem evaluateMatch_section {fp : Fingerprints} {output : String} {m : StructuredReviewMatch}
    (h : (evaluateMatch fp output m).evaluationKind = .structured) (sec : IssueSection) :
    strip (sec.body m) ≠ "" ∧ sec.kept (evaluateMatch fp output m) =
      if isEmptySection (strip (sec.body m)) (some sec.name) then emptySentinel else strip (sec.body m) := by
  unfold evaluateMatch at h ⊢
  cases hparsed : normalizeReviewResult m.toParsedReviewResult with
  | error e => simp [hparsed, buildUnstructuredReviewFeedbackResult] at h
  | ok parsed =>
    obtain ⟨hmajor, hminor⟩ := normalizeReviewResult_ok hparsed
    cases sec with
    | major => exact normalizeReviewSection_ok hmajor
    | minor => exact normalizeReviewSection_ok hminor

/-! ## The packet -/

theorem intercalate_piece {sep t : List Char} {pieces : List (List Char)} (h : t ∈ pieces) :
    ∃ a b, sep.intercalate pieces = a ++ (t ++ b) := by
  induction pieces with
  | nil => cases h
  | cons p rest ih =>
    rcases rest with - | ⟨q, rest⟩
    · rw [List.mem_singleton.mp h]
      exact ⟨[], [], by simp⟩
    · rw [List.intercalate_cons_cons]
      rcases List.mem_cons.mp h with rfl | h
      · exact ⟨[], sep ++ sep.intercalate (q :: rest), by simp⟩
      · obtain ⟨a, b, heq⟩ := ih h
        exact ⟨p ++ sep ++ a, b, by rw [heq]; simp⟩

theorem mem_reviewSections {a : ReviewerRoundArtifact} {sec : IssueSection} (h : sec.kept a.evaluation ≠ emptySentinel) :
    sec.kept a.evaluation ∈ reviewSections a := by
  have hfeedback : hasFeedbackForExecutor a.evaluation = true := by
    cases sec with
    | major => simp_all [hasFeedbackForExecutor, hasUnresolvedReviewIssues, IssueSection.kept]
    | minor => simp_all [hasFeedbackForExecutor, hasUnresolvedReviewIssues, IssueSection.kept]
  unfold reviewSections
  simp only [hfeedback, Bool.not_true, Bool.false_eq_true, if_false]
  cases sec with
  | major =>
    have hmajor : a.evaluation.majorIssues ≠ emptySentinel := h
    simp [IssueSection.kept, hmajor]
  | minor =>
    have hminor : a.evaluation.minorIssues ≠ emptySentinel := h
    simp [IssueSection.kept, hminor]

/-- What a section keeps is in the packet, in one piece. -/
theorem packet_contains {artifacts : List ReviewerRoundArtifact} {a : ReviewerRoundArtifact} (ha : a ∈ artifacts)
    {sec : IssueSection} {body : String} (hbody : sec.kept a.evaluation = strip body) (hblank : strip body ≠ "")
    (hkept : sec.kept a.evaluation ≠ emptySentinel) :
    ∃ packet, renderUnresolvedReviewPacket artifacts = some packet ∧ (strip body).toList <:+: packet.toList := by
  have hmem : strip body ∈ artifacts.flatMap reviewSections :=
    List.mem_flatMap.mpr ⟨a, ha, hbody ▸ mem_reviewSections hkept⟩
  have hne : stripChars body.toList ≠ [] := by
    intro hnil
    exact hblank (by rw [strip, hnil])
  obtain ⟨hhead, hlast⟩ := stripChars_edges hne
  unfold renderUnresolvedReviewPacket
  cases hsections : artifacts.flatMap reviewSections with
  | nil => rw [hsections] at hmem; cases hmem
  | cons first rest =>
    refine ⟨_, rfl, ?_⟩
    rw [hsections] at hmem
    have hpiece : stripChars body.toList ∈ (["## Reviewer Feedback", ""] ++ first :: rest).map String.toList := by
      refine List.mem_map.mpr ⟨strip body, List.mem_append_right _ hmem, ?_⟩
      rw [strip, String.toList_ofList]
    obtain ⟨front, back, heq⟩ : ∃ front back, "\n".toList.intercalate _ = front ++ (stripChars body.toList ++ back) :=
      intercalate_piece hpiece
    rw [strip, strip, String.toList_ofList, String.toList_ofList, String.toList_intercalate, heq]
    exact infix_stripChars hne hhead hlast

/-! ## What is kept -/

/-- The section becomes `None` only for an empty phrase; any other text is kept and goes to the executor. -/
def TextKept (cls : TextClass) (m : StructuredReviewMatch) (e : EvaluatedReviewResult) (sec : IssueSection) : Prop :=
  (sec.kept e = emptySentinel →
    strip (sec.body m) = "" ∨ ∃ phrase ∈ emptyPhrases sec.name, ConsistsOf cls phrase (strip (sec.body m))) ∧
  ((strip (sec.body m) ≠ "" ∧ ∀ phrase ∈ emptyPhrases sec.name, ¬ConsistsOf cls phrase (strip (sec.body m))) →
    sec.kept e = strip (sec.body m) ∧ ∀ artifacts : List ReviewerRoundArtifact, ∀ a ∈ artifacts, a.evaluation = e →
      ∃ packet, renderUnresolvedReviewPacket artifacts = some packet ∧ (strip (sec.body m)).toList <:+: packet.toList)

theorem none_is_empty (sec : IssueSection) : isEmptySection emptySentinel (some sec.name) = true := by
  cases sec <;> decide +kernel

/-- The letters of another script are in no empty phrase. -/
theorem asciiText_of_consistsOf {cls : TextClass} {sec : IssueSection} {phrase body : String}
    (hphrase : phrase ∈ emptyPhrases sec.name) (h : ConsistsOf cls phrase body) : AsciiText cls body := by
  intro c hc htext
  have hascii : (emptyPhrases sec.name).all asciiPhrase = true := by
    cases sec with
    | major => exact emptyPhrases_ascii majorName (by simp)
    | minor => exact emptyPhrases_ascii minorName (by simp)
  have hspace : isSpace c = false := by
    by_contra hspace
    rw [cls.space c (by simpa using hspace)] at htext
    cases htext
  have hmem : c ∈ phrase.toList := by
    rw [← h]
    exact mem_stripChars (mem_squeezeFrom hc htext) hspace
  have hall := List.all_eq_true.mp (List.all_eq_true.mp hascii phrase hphrase) c hmem
  simpa using hall

theorem consistsOf_of_asciiText {cls : TextClass} {body : String} (h : AsciiText cls body) :
    ConsistsOf cls (normalizeTextToken body) body := by
  rw [ConsistsOf, squeeze_asciiText h, normalizeTextToken, String.toList_ofList]

/-- A section keeps its text exactly when its letters and digits are ASCII, or those that are do not spell an empty
phrase. -/
theorem reviewer_text_kept_iff (cls : TextClass) (fp : Fingerprints) (output : String) (m : StructuredReviewMatch)
    (haccepted : (evaluateMatch fp output m).evaluationKind = .structured) (sec : IssueSection) :
    TextKept cls m (evaluateMatch fp output m) sec ↔
      AsciiText cls (strip (sec.body m)) ∨ normalizeTextToken (strip (sec.body m)) ∉ emptyPhrases sec.name := by
  obtain ⟨hblank, hkept⟩ := evaluateMatch_section haccepted sec
  by_cases hempty : normalizeTextToken (strip (sec.body m)) ∈ emptyPhrases sec.name
  · rw [if_pos (isEmptySection_iff.mpr hempty)] at hkept
    constructor
    · intro h
      rcases h.1 hkept with hnone | ⟨phrase, hphrase, hconsists⟩
      · exact absurd hnone hblank
      · exact .inl (asciiText_of_consistsOf hphrase hconsists)
    · rintro (hascii | hnot)
      · have hconsists := consistsOf_of_asciiText hascii
        exact ⟨fun _ => .inr ⟨_, hempty, hconsists⟩, fun h => absurd hconsists (h.2 _ hempty)⟩
      · exact absurd hempty hnot
  · have hfull : isEmptySection (strip (sec.body m)) (some sec.name) = false := by
      rw [← Bool.not_eq_true, isEmptySection_iff]
      exact hempty
    rw [hfull] at hkept
    simp only [Bool.false_eq_true, if_false] at hkept
    have hsome : sec.kept (evaluateMatch fp output m) ≠ emptySentinel := by
      intro hnone
      rw [hkept] at hnone
      rw [hnone, none_is_empty] at hfull
      cases hfull
    refine iff_of_true ⟨fun hnone => absurd hnone hsome, fun _ => ⟨hkept, fun artifacts a ha he => ?_⟩⟩ (.inr hempty)
    exact packet_contains ha (he ▸ hkept) hblank (he ▸ hsome)

/-! ## A text in another script -/

/-- What is not ASCII and no white space is text. -/
def scriptClass : TextClass where
  isText c := if c.toNat < 128 then c.isAlphanum else !isSpace c
  ascii c hc := if_pos hc
  space c hc := by
    split
    next hascii =>
      have hcode : (9 ≤ c.toNat ∧ c.toNat ≤ 13) ∨ (28 ≤ c.toNat ∧ c.toNat ≤ 32) := by
        simp only [isSpace, Bool.or_eq_true, Bool.and_eq_true, decide_eq_true_eq] at hc
        omega
      have hval : c.val.toNat = c.toNat := rfl
      simp only [Char.isAlphanum, Char.isAlpha, Char.isUpper, Char.isLower, Char.isDigit, ge_iff_le, UInt32.le_iff_toNat_le,
        Bool.or_eq_false_iff, Bool.and_eq_false_iff, decide_eq_false_iff_not, hval]
      simp only [Char.reduceVal, UInt32.reduceToNat]
      omega
    next => simp [hc]

def noFingerprints : Fingerprints := ⟨fun _ => [], fun _ => 0⟩

/-- A rejection whose major issue is written in Russian. -/
def russianReview : StructuredReviewMatch :=
  { verdict := "CHANGES_REQUESTED", majorIssues := "вывод неверен\n\n", minorIssues := "None\n\n", nitpicks := "None\n\n"
    leadingText := "", trailingText := "", warnings := [] }

theorem russian_issue_lost : (evaluateMatch noFingerprints "" russianReview).evaluationKind = .structured ∧
    (evaluateMatch noFingerprints "" russianReview).majorIssues = "None" ∧
    ¬TextKept scriptClass russianReview (evaluateMatch noFingerprints "" russianReview) .major := by
  have hnone : (evaluateMatch noFingerprints "" russianReview).majorIssues = "None" := by decide +kernel
  refine ⟨by decide +kernel, hnone, fun h => ?_⟩
  have hblank : strip (IssueSection.major.body russianReview) ≠ "" := by decide +kernel
  rcases h.1 hnone with hempty | ⟨phrase, hphrase, hconsists⟩
  · exact hblank hempty
  · have hascii := asciiText_of_consistsOf hphrase hconsists 'в' (by decide +kernel) (by decide +kernel)
    exact absurd hascii (by decide)

/-- A review in English keeps its text. -/
theorem english_issue_kept : TextKept scriptClass
    { russianReview with majorIssues := "The output is wrong.\n\n" }
    (evaluateMatch noFingerprints "" { russianReview with majorIssues := "The output is wrong.\n\n" }) .major :=
  (reviewer_text_kept_iff scriptClass noFingerprints "" { russianReview with majorIssues := "The output is wrong.\n\n" }
    (by decide +kernel) .major).mpr (.inr (by decide +kernel))

end Crewplane.Review
