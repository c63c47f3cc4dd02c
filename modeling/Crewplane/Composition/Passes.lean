import Crewplane.Composition.Rewrites
/-
# The two passes over a prompt

What the reference pass writes is no part of a parameter token, and what it leaves
alone reads as before, so the two passes are one (`rewriteSegment_eq`) that reads
the prompt as its author wrote it. The condition is that no parameter key holds an
opening brace: in `{{param:{{a.output}}` the first pass rewrites the key.
-/
namespace Crewplane.Composition

open Crewplane.Lib Crewplane.Workflow Crewplane.Prompt

/-- The tokens of a prompt as it is written: a reference, or a parameter with its key. -/
def templateAt : Pattern Char ((String × String) ⊕ String) := artifactReferenceAt.orElse paramTemplateAt

/-- No parameter key of the text holds an opening brace. -/
def keysPlain (text : List Char) : Bool :=
  text.tails.all fun suffix => (paramTemplateAt suffix).all fun found => !found.2.toList.contains '\x7b'

/-! ## Characters -/

theorem not_brace_of_isMarkerChar {c : Char} (h : isMarkerChar c = true) : c ≠ '\x7b' ∧ c ≠ '\x7d' ∧ c ≠ ':' := by
  refine ⟨?_, ?_, ?_⟩ <;> rintro rfl <;> revert h <;> decide

theorem not_brace_of_isArtifactChar {c : Char} (h : isArtifactChar c = true) : c ≠ '\x7b' ∧ c ≠ '\x7d' ∧ c ≠ ':' := by
  refine ⟨?_, ?_, ?_⟩ <;> rintro rfl <;> revert h <;> decide

theorem not_brace_of_isSpace {c : Char} (h : isSpace c = true) : c ≠ '\x7b' ∧ c ≠ '\x7d' ∧ c ≠ ':' := by
  refine ⟨?_, ?_, ?_⟩ <;> rintro rfl <;> revert h <;> decide

theorem not_isSpace_of_isMarkerChar {c : Char} (h : isMarkerChar c = true) : isSpace c = false := by
  by_contra hspace
  simp only [Bool.not_eq_false] at hspace
  simp only [isMarkerChar, Bool.or_eq_true, decide_eq_true_eq, Char.isLower, Char.isDigit, Bool.and_eq_true, ge_iff_le,
    UInt32.le_iff_toNat_le] at h
  simp only [isSpace, Bool.or_eq_true, Bool.and_eq_true, decide_eq_true_eq] at hspace
  rcases h with ((((h | h) | rfl) | rfl) | rfl)
  · simp at h
    omega
  · simp at h
    omega
  all_goals revert hspace; decide

theorem not_isSpace_of_isArtifactChar {c : Char} (h : isArtifactChar c = true) : isSpace c = false := by
  by_contra hspace
  simp only [Bool.not_eq_false] at hspace
  simp only [isArtifactChar, Bool.or_eq_true, decide_eq_true_eq, Char.isAlphanum, Char.isAlpha, Char.isLower,
    Char.isUpper, Char.isDigit, Bool.and_eq_true, ge_iff_le, UInt32.le_iff_toNat_le] at h
  simp only [isSpace, Bool.or_eq_true, Bool.and_eq_true, decide_eq_true_eq] at hspace
  rcases h with ((((h | h) | h) | rfl) | rfl)
  · simp at h
    omega
  · simp at h
    omega
  · simp at h
    omega
  all_goals revert hspace; decide

theorem openBraces_toList : openBraces.toList = ['\x7b', '\x7b'] := by simp [openBraces]

theorem closeBraces_toList : closeBraces.toList = ['\x7d', '\x7d'] := by simp [closeBraces]

theorem paramLead_toList : paramLead.toList = ['p', 'a', 'r', 'a', 'm', ':'] := by simp [paramLead]

theorem not_brace_of_paramLead : ∀ c ∈ paramLead.toList, c ≠ '\x7b' ∧ c ≠ '\x7d' := by
  simp [paramLead_toList]

theorem not_open_of_closeBraces : ∀ c ∈ closeBraces.toList, c ≠ '\x7b' := by
  simp [closeBraces_toList]

/-- A token begins with two braces. -/
theorem artifactReferenceAt_none {c : Char} {rest : List Char} (h : c ≠ '\x7b' ∨ rest.head? ≠ some '\x7b') :
    artifactReferenceAt (c :: rest) = none := by
  cases hsome : artifactReferenceAt (c :: rest) with
  | none => rfl
  | some found =>
    obtain ⟨n, id, name⟩ := found
    obtain ⟨left, right, tail, -, -, -, -, -, -, htext, -⟩ := artifactReferenceAt_eq_some hsome
    simp only [openBraces, List.append_assoc] at htext
    simp at htext
    rcases h with h | h
    · exact absurd htext.1 h
    · rw [htext.2] at h
      simp at h

/-- What a rewriting of references writes begins like a token. -/
def Braced (write : String × String → List Char) : Prop :=
  ∀ reference, ∃ body, write reference = '\x7b' :: '\x7b' :: body

section References

variable {write : String × String → List Char}

theorem sub_append_of_plain {front : List Char} (h : ∀ c ∈ front, c ≠ '\x7b') (rest : List Char) :
    sub artifactReferenceAt write 0 (front ++ rest) = front ++ sub artifactReferenceAt write 0 rest := by
  induction front with
  | nil => rfl
  | cons c front ih =>
    have hnone : artifactReferenceAt (c :: (front ++ rest)) = none := artifactReferenceAt_none (Or.inl (h c (by simp)))
    rw [List.cons_append, sub_none hnone, ih fun x hx => h x (List.mem_cons_of_mem _ hx), List.cons_append]

/-- Characters other than a brace in front of the rewritten text were there before. -/
theorem exists_of_sub_eq_append (hwrite : Braced write) {front back : List Char} (h : ∀ c ∈ front, c ≠ '\x7b') :
    ∀ {text : List Char}, sub artifactReferenceAt write 0 text = front ++ back →
      ∃ rest, text = front ++ rest ∧ sub artifactReferenceAt write 0 rest = back := by
  induction front with
  | nil => exact fun {text} hsub => ⟨text, rfl, hsub⟩
  | cons c front ih =>
    intro text hsub
    have hc : c ≠ '\x7b' := h c (by simp)
    cases text with
    | nil => simp at hsub
    | cons x text =>
      cases hsome : artifactReferenceAt (x :: text) with
      | some found =>
        obtain ⟨n, reference⟩ := found
        obtain ⟨body, hbody⟩ := hwrite reference
        rw [sub_some hsome, hbody] at hsub
        simp only [List.cons_append, List.cons.injEq] at hsub
        exact absurd hsub.1.symm hc
      | none =>
        rw [sub_none hsome] at hsub
        simp only [List.cons_append, List.cons.injEq] at hsub
        obtain ⟨rest, hrest, hback⟩ := ih (fun y hy => h y (List.mem_cons_of_mem _ hy)) hsub.2
        exact ⟨rest, by rw [hsub.1, hrest, List.cons_append], hback⟩

/-- A key that the rewritten text closes was closed before. -/
theorem exists_key_of_sub_eq (hwrite : Braced write) : ∀ (text key tail : List Char), key ≠ [] →
    (∀ c ∈ key, c ≠ '\x7d') → sub artifactReferenceAt write 0 text = key ++ (closeBraces.toList ++ tail) →
    ∃ key' tail', key' ≠ [] ∧ (∀ c ∈ key', c ≠ '\x7d') ∧ text = key' ++ (closeBraces.toList ++ tail') := by
  intro text
  induction text with
  | nil =>
    intro key tail hkey _ hsub
    rw [sub_nil] at hsub
    simp at hsub
    exact absurd hsub.1 hkey
  | cons c rest ih =>
    intro key tail hkey hclean hsub
    cases hsome : artifactReferenceAt (c :: rest) with
    | some found =>
      obtain ⟨n, id, name⟩ := found
      obtain ⟨left, right, tail', hleft, hright, -, -, hid, hname, htext, -⟩ := artifactReferenceAt_eq_some hsome
      refine ⟨openBraces.toList ++ (left ++ (id.toList ++ '.' :: name.toList) ++ right), tail', by simp [openBraces], ?_,
        by rw [htext, List.append_assoc]⟩
      intro x hx
      simp only [List.mem_append, List.mem_cons] at hx
      rcases hx with hx | ((hx | hx | rfl | hx) | hx)
      · rintro rfl
        simp [openBraces_toList] at hx
      · exact (not_brace_of_isSpace (hleft x hx)).2.1
      · exact (not_brace_of_isMarkerChar (hid x hx)).2.1
      · decide
      · exact (not_brace_of_isArtifactChar (hname x hx)).2.1
      · exact (not_brace_of_isSpace (hright x hx)).2.1
    | none =>
      rw [sub_none hsome] at hsub
      cases key with
      | nil => exact absurd rfl hkey
      | cons k key =>
        simp only [List.cons_append, List.cons.injEq] at hsub
        obtain ⟨rfl, hsub⟩ := hsub
        have hc : c ≠ '\x7d' := hclean c (by simp)
        by_cases hnil : key = []
        · subst hnil
          obtain ⟨tail', htail, -⟩ := exists_of_sub_eq_append hwrite not_open_of_closeBraces hsub
          exact ⟨[c], tail', by simp, by simpa using hc, by rw [htail]; rfl⟩
        · obtain ⟨key', tail', -, hkey', htext⟩ := ih key tail hnil (fun x hx => hclean x (List.mem_cons_of_mem _ hx)) hsub
          refine ⟨c :: key', tail', by simp, ?_, by rw [htext]; rfl⟩
          intro x hx
          rcases List.mem_cons.mp hx with rfl | hx
          · exact hc
          · exact hkey' x hx

/-- The reference pass leaves a parameter token alone when its key has no opening brace. -/
theorem paramTemplateAt_keep {c : Char} {rest : List Char} {n : Nat} {key : String}
    (hsome : paramTemplateAt (c :: rest) = some (n, key)) (hkey : '\x7b' ∉ key.toList) :
    n ≤ rest.length ∧
      sub artifactReferenceAt write 0 rest = rest.take n ++ sub artifactReferenceAt write 0 (rest.drop n) ∧
      paramTemplateAt (c :: sub artifactReferenceAt write 0 rest) = some (n, key) := by
  obtain ⟨left, tail, hleft, hne, hclean, htext, hlen⟩ := paramTemplateAt_eq_some.mp hsome
  have hplain : ∀ x ∈ left ++ paramLead.toList ++ key.toList ++ closeBraces.toList, x ≠ '\x7b' := by
    intro x hx
    simp only [List.mem_append] at hx
    rcases hx with ((hx | hx) | hx) | hx
    · exact (not_brace_of_isSpace (hleft x hx)).1
    · exact (not_brace_of_paramLead x hx).1
    · rintro rfl
      exact hkey hx
    · exact not_open_of_closeBraces x hx
  have hrest : rest = '\x7b' :: (left ++ paramLead.toList ++ key.toList ++ closeBraces.toList ++ tail) := by
    have := htext
    simp only [openBraces, List.append_assoc] at this
    simp at this
    simpa using this.2
  have hc : c = '\x7b' := by
    have := htext
    simp only [openBraces, List.append_assoc] at this
    simp at this
    exact this.1
  have hnone : artifactReferenceAt ('\x7b' :: (left ++ paramLead.toList ++ key.toList ++ closeBraces.toList ++ tail)) =
      none := by
    apply artifactReferenceAt_none
    right
    cases hhead : left ++ paramLead.toList ++ key.toList ++ closeBraces.toList with
    | nil => simp [closeBraces] at hhead
    | cons x xs =>
      have := hplain x (by rw [hhead]; exact List.mem_cons_self)
      simpa using this
  have hsub : sub artifactReferenceAt write 0 rest = '\x7b' ::
      (left ++ paramLead.toList ++ key.toList ++ closeBraces.toList ++ sub artifactReferenceAt write 0 tail) := by
    rw [hrest, sub_none hnone, sub_append_of_plain hplain]
  have hn : n = (left ++ paramLead.toList ++ key.toList ++ closeBraces.toList).length + 1 := by
    rw [hrest] at hlen
    simp only [List.length_cons, List.length_append] at hlen ⊢
    omega
  refine ⟨?_, ?_, ?_⟩
  · rw [hrest, List.length_cons, List.length_append]
    omega
  · rw [hsub, hn, hrest, List.take_succ_cons, List.drop_succ_cons, List.take_left' rfl, List.drop_left' rfl,
      List.cons_append]
  · rw [hsub, hc, paramTemplateAt_eq_some]
    refine ⟨left, sub artifactReferenceAt write 0 tail, hleft, hne, hclean, by simp [openBraces], ?_⟩
    rw [hn]
    simp only [List.length_cons, List.length_append]
    omega

/-- The reference pass makes no parameter token. -/
theorem paramTemplateAt_fresh (hwrite : Braced write) {c : Char} {rest : List Char}
    (hnone : paramTemplateAt (c :: rest) = none) :
    paramTemplateAt (c :: sub artifactReferenceAt write 0 rest) = none := by
  cases hsome : paramTemplateAt (c :: sub artifactReferenceAt write 0 rest) with
  | none => rfl
  | some found =>
    obtain ⟨n, key⟩ := found
    obtain ⟨left, tail, hleft, hne, hclean, htext, -⟩ := paramTemplateAt_eq_some.mp hsome
    have hlead : ∀ x ∈ left ++ paramLead.toList, x ≠ '\x7b' := by
      intro x hx
      rcases List.mem_append.mp hx with hx | hx
      · exact (not_brace_of_isSpace (hleft x hx)).1
      · exact (not_brace_of_paramLead x hx).1
    have hsub : c = '\x7b' ∧ sub artifactReferenceAt write 0 rest =
        '\x7b' :: (left ++ paramLead.toList ++ (key.toList ++ (closeBraces.toList ++ tail))) := by
      have := htext
      simp only [openBraces, List.append_assoc] at this
      simp at this
      simpa using this
    obtain ⟨rfl, hsub⟩ := hsub
    cases rest with
    | nil => simp at hsub
    | cons x rest =>
      cases hreference : artifactReferenceAt (x :: rest) with
      | some found =>
        -- what was written begins with two braces, the token goes on with a space or a letter
        obtain ⟨m, reference⟩ := found
        obtain ⟨body, hbody⟩ := hwrite reference
        rw [sub_some hreference, hbody] at hsub
        cases hhead : left ++ paramLead.toList with
        | nil => simp [paramLead] at hhead
        | cons y ys =>
          rw [hhead] at hsub
          simp only [List.cons_append, List.cons.injEq, true_and] at hsub
          exact absurd hsub.1.symm (hlead y (by rw [hhead]; exact List.mem_cons_self))
      | none =>
        rw [sub_none hreference] at hsub
        simp only [List.cons.injEq] at hsub
        obtain ⟨rfl, hsub⟩ := hsub
        obtain ⟨rest', rfl, hback⟩ := exists_of_sub_eq_append hwrite hlead hsub
        obtain ⟨key', tail', hne', hclean', rfl⟩ := exists_key_of_sub_eq hwrite rest' _ tail hne hclean hback
        have : paramTemplateAt ('\x7b' :: '\x7b' :: (left ++ paramLead.toList ++ (key' ++ (closeBraces.toList ++ tail')))) =
            some ((left ++ paramLead.toList ++ key').length + 3, String.ofList key') := by
          rw [paramTemplateAt_eq_some]
          refine ⟨left, tail', hleft, by simpa using hne', by simpa using hclean', by simp [openBraces], ?_⟩
          simp only [List.length_cons, List.length_append, closeBraces]
          simp
          omega
        rw [this] at hnone
        simp at hnone

end References

/-! ## One pass -/

section Inside

variable {namespacePrefix : String} {boundInputNodes : Dict String String}

theorem braced_rewrittenReference : Braced (rewrittenReference namespacePrefix boundInputNodes) := by
  intro reference
  exact ⟨_, by simp [rewrittenReference, openBraces_toList]; rfl⟩

/-- The id a reference resolves to is one again. -/
def ResolvesPlain (namespacePrefix : String) (boundInputNodes : Dict String String) : Prop :=
  ∀ id : String, id.toList ≠ [] → (∀ c ∈ id.toList, isMarkerChar c = true) →
    (resolveDependencyId id namespacePrefix boundInputNodes).toList ≠ [] ∧
      ∀ c ∈ (resolveDependencyId id namespacePrefix boundInputNodes).toList, isMarkerChar c = true

/-- A text between double braces without a colon or a brace is no parameter token. -/
theorem inert_braced {body : List Char} (hne : body ≠ [])
    (hbody : ∀ c ∈ body, c ≠ '\x7b' ∧ c ≠ '\x7d' ∧ c ≠ ':') :
    paramTemplateAt.Inert (openBraces.toList ++ body ++ closeBraces.toList) := by
  intro front back tail hsplit hback
  cases hsome : paramTemplateAt (back ++ tail) with
  | none => rfl
  | some found =>
    exfalso
    obtain ⟨n, key⟩ := found
    obtain ⟨left, after, hleft, -, -, htext, -⟩ := paramTemplateAt_eq_some.mp hsome
    rw [openBraces_toList] at hsplit htext
    rcases front with _ | ⟨x, _ | ⟨y, front⟩⟩
    · -- at the token itself: a brace comes before any colon
      have hfront : ∀ c ∈ body, decide (c ≠ ':' ∧ c ≠ '\x7d') = true := by
        intro c hc
        have := hbody c hc
        simp [this.2.1, this.2.2]
      have hlead : ∀ c ∈ left ++ ['p', 'a', 'r', 'a', 'm'], decide (c ≠ ':' ∧ c ≠ '\x7d') = true := by
        intro c hc
        rcases List.mem_append.mp hc with hc | hc
        · have := not_brace_of_isSpace (hleft c hc)
          simp [this.2.1, this.2.2]
        · have hletters : ∀ x ∈ ['p', 'a', 'r', 'a', 'm'], decide (x ≠ ':' ∧ x ≠ '\x7d') = true := by simp
          exact hletters c hc
      have heq : body ++ (closeBraces.toList ++ tail) =
          (left ++ ['p', 'a', 'r', 'a', 'm']) ++ (':' :: (key.toList ++ (closeBraces.toList ++ after))) := by
        rw [List.nil_append] at hsplit
        rw [← hsplit, paramLead_toList] at htext
        simpa using htext
      have hdrop := congrArg (List.dropWhile fun c => decide (c ≠ ':' ∧ c ≠ '\x7d')) heq
      rw [List.dropWhile_append_of_pos hfront, List.dropWhile_append_of_pos hlead, closeBraces_toList] at hdrop
      simp at hdrop
    · cases body with
      | nil => exact hne rfl
      | cons b body =>
        simp only [List.cons_append, List.nil_append, List.cons.injEq] at hsplit
        rw [← hsplit.2] at htext
        simp only [List.cons_append, List.nil_append, List.cons.injEq] at htext
        exact (hbody b (by simp)).1 htext.2.1
    · cases back with
      | nil => exact hback rfl
      | cons b back =>
        simp only [List.cons_append, List.nil_append, List.cons.injEq] at hsplit htext
        have hb : b ∈ body ++ closeBraces.toList := by
          rw [hsplit.2.2]
          simp
        rcases List.mem_append.mp hb with hb | hb
        · exact (hbody b hb).1 htext.1
        · exact not_open_of_closeBraces b hb htext.1

/-- The two passes over a prompt are one. -/
theorem subM_rewrites {m : Type → Type} [Monad m] [LawfulMonad m] (g : String → m (List Char)) {text : List Char}
    (hids : ResolvesPlain namespacePrefix boundInputNodes) (hkeys : keysPlain text = true) (k pos : Nat) :
    subM paramTemplateAt (fun _ found => g found.capture) k pos 0
        (sub artifactReferenceAt (rewrittenReference namespacePrefix boundInputNodes) 0 text) =
      subM templateAt (fun _ found => found.capture.elim
        (fun reference => pure (rewrittenReference namespacePrefix boundInputNodes reference)) g) k pos 0 text := by
  apply subM_sub g
  · rintro c rest n ⟨id, name⟩ hsome
    obtain ⟨-, -, -, -, -, hidne, -, hid, hname, -⟩ := artifactReferenceAt_eq_some hsome
    obtain ⟨hne, hmarker⟩ := hids id hidne hid
    have : rewrittenReference namespacePrefix boundInputNodes (id, name) =
        openBraces.toList ++ ((resolveDependencyId id namespacePrefix boundInputNodes).toList ++ '.' :: name.toList) ++
          closeBraces.toList := by
      simp [rewrittenReference]
    rw [this]
    apply inert_braced
    · simp
    · intro x hx
      simp only [List.mem_append, List.mem_cons] at hx
      rcases hx with hx | rfl | hx
      · exact not_brace_of_isMarkerChar (hmarker x hx)
      · decide
      · exact not_brace_of_isArtifactChar (hname x hx)
  · intro c rest n key hsuffix _ hsome
    apply paramTemplateAt_keep hsome
    have := List.all_eq_true.mp hkeys (c :: rest) (((List.mem_tails _ _).mpr hsuffix))
    rw [hsome] at this
    simpa using this
  · intro c rest _ hnone
    exact paramTemplateAt_fresh braced_rewrittenReference hnone

/-! ## A segment as it is written -/

/-- The text of a parameter: the value that is bound to its key, or the runtime variable of that name. -/
def paramText (params : Dict String ParamBinding) (rawKey : String) : List Char :=
  match params.get? (strip rawKey) with
  | none => openBraces.toList ++ "var:".toList ++ (strip rawKey).toList ++ closeBraces.toList
  | some binding => binding.value.toList

/-- What a piece of a prompt becomes; the text around the tokens stays as it is. -/
def pieceText (namespacePrefix : String) (boundInputNodes : Dict String String) (params : Dict String ParamBinding) :
    Piece Char ((String × String) ⊕ String) → List Char
  | .literal text => text
  | .found _ it => it.capture.elim (rewrittenReference namespacePrefix boundInputNodes) (paramText params)

def writtenPieces (content : String) : List (Piece Char ((String × String) ⊕ String)) :=
  pieces content.toList 0 0 (findIter templateAt 0 0 content.toList)

/-- The parameter keys of a prompt as it is written. -/
def writtenParams (content : String) : List String :=
  (findIter templateAt 0 0 content.toList).flatMap fun found => found.capture.elim (fun _ => []) fun key => [strip key]

theorem templateAt_lawful : templateAt.Lawful := by
  intro c rest n capture h
  unfold templateAt Pattern.orElse at h
  split at h
  · rename_i m reference hsome
    obtain ⟨id, name⟩ := reference
    obtain ⟨-, -, tail, -, -, -, -, -, -, -, hlen⟩ := artifactReferenceAt_eq_some hsome
    simp only [Option.some.injEq, Prod.mk.injEq] at h
    simp only [List.length_cons] at hlen
    omega
  · simp only [Option.map_eq_some_iff, Prod.mk.injEq] at h
    obtain ⟨⟨m, key⟩, hsome, rfl, -⟩ := h
    obtain ⟨-, tail, -, -, -, -, hlen⟩ := paramTemplateAt_eq_some.mp hsome
    simp only [List.length_cons] at hlen
    omega

theorem eq_paramText_of_resolvedParam {params : Dict String ParamBinding} {sourcePath nodeId rawKey : String}
    {text : List Char} (h : resolvedParam params sourcePath nodeId rawKey = .ok text) : text = paramText params rawKey := by
  unfold resolvedParam at h
  unfold paramText
  dsimp only at h
  split at h
  · simp at h
  · split at h <;> rename_i hget <;> simp only [Except.ok.injEq] at h <;> simp [hget, ← h]

variable {params : Dict String ParamBinding} {sourcePath nodeId : String}

/-- Composition leaves every piece of a segment in its place. -/
theorem rewriteSegment_content {segment segment' : Segment} {consumed : List String}
    (hids : ResolvesPlain namespacePrefix boundInputNodes) (hkeys : keysPlain segment.content.toList = true)
    (h : rewriteSegment namespacePrefix boundInputNodes params sourcePath nodeId segment = .ok (segment', consumed)) :
    segment'.role = segment.role ∧ segment'.content.toList =
      (writtenPieces segment.content).flatMap (pieceText namespacePrefix boundInputNodes params) := by
  unfold rewriteSegment resolveParamTemplates rewriteArtifactReferences at h
  simp only [String.toList_ofList, do_eq_ok] at h
  obtain ⟨⟨prompt, found⟩, ⟨resolved, hsub, hprompt⟩, hsegment⟩ := h
  cases hprompt
  cases hsegment
  refine ⟨rfl, ?_⟩
  rw [subM_rewrites _ hids hkeys] at hsub
  have hfill := fill_pieces templateAt_lawful (m := Except CompositionError)
    (fun _ found => found.capture.elim (fun reference => pure (rewrittenReference namespacePrefix boundInputNodes reference))
      (resolvedParam params sourcePath nodeId)) segment.content.toList segment.content.toList 0 0 0 0 rfl (by simp) (by simp)
      (by simp)
  rw [hsub] at hfill
  have hslice : slice segment.content.toList 0 (0 + 0) = [] := rfl
  rw [hslice] at hfill
  cases hpieces : (writtenPieces segment.content).mapM (Piece.fill fun _ found => found.capture.elim
      (fun reference => pure (rewrittenReference namespacePrefix boundInputNodes reference))
      (resolvedParam params sourcePath nodeId)) with
  | error e =>
    unfold writtenPieces at hpieces
    rw [hpieces] at hfill
    cases hfill
  | ok texts =>
    have htexts := eq_map_of_mapM (g := pieceText namespacePrefix boundInputNodes params) (fun piece text hpiece => by
      cases piece with
      | literal raw => simpa [Piece.fill, pieceText, pure, Except.pure, eq_comm] using hpiece
      | found k it =>
        cases hcapture : it.capture with
        | inl reference => simpa [Piece.fill, pieceText, hcapture, pure, Except.pure, eq_comm] using hpiece
        | inr key =>
          simp only [Piece.fill, hcapture, Sum.elim_inr] at hpiece
          simp [pieceText, hcapture, eq_paramText_of_resolvedParam hpiece]) hpieces
    unfold writtenPieces at hpieces
    rw [hpieces] at hfill
    have : texts.flatten = resolved := by
      simpa [Functor.map, Except.map] using hfill
    rw [String.toList_ofList, ← this, htexts, List.flatMap_def]

/-- The bindings a segment consumes are those of its keys as they are written. -/
theorem rewriteSegment_consumed {segment segment' : Segment} {consumed : List String}
    (hids : ResolvesPlain namespacePrefix boundInputNodes) (hkeys : keysPlain segment.content.toList = true)
    (h : rewriteSegment namespacePrefix boundInputNodes params sourcePath nodeId segment = .ok (segment', consumed)) :
    consumed = (writtenParams segment.content).filterMap fun key => (params.get? key).map ParamBinding.bindingId := by
  unfold rewriteSegment resolveParamTemplates rewriteArtifactReferences at h
  simp only [do_eq_ok] at h
  obtain ⟨⟨prompt, found⟩, ⟨resolved, hsub, hprompt⟩, hsegment⟩ := h
  cases hprompt
  cases hsegment
  let log : String → StateM (List String) (List Char) := fun key s => pure ([], s ++ [strip key])
  have hone := run_subM (q := paramTemplateAt) (f := fun _ found => log found.capture) (w := fun key => [strip key])
    (fun _ _ _ => rfl)
    (sub artifactReferenceAt (rewrittenReference namespacePrefix boundInputNodes) 0 segment.content.toList) 0 0 0 []
  have htwo := run_subM (q := templateAt) (f := fun _ found => found.capture.elim
      (fun reference => pure (rewrittenReference namespacePrefix boundInputNodes reference)) log)
    (w := fun capture => capture.elim (fun _ => []) fun key => [strip key])
    (fun _ found s => by cases found.capture <;> simp [log] <;> rfl) segment.content.toList 0 0 0 []
  rw [subM_rewrites log hids hkeys, htwo] at hone
  have hcaptures : (findIter paramTemplateAt 0 0 (sub artifactReferenceAt (rewrittenReference namespacePrefix
      boundInputNodes) 0 segment.content.toList)).map (fun found => strip found.capture) = writtenParams segment.content := by
    rw [List.nil_append, List.nil_append] at hone
    rw [writtenParams, hone, List.map_eq_flatMap]
  simp only [consumedBindings, String.toList_ofList]
  rw [← hcaptures, List.filterMap_map]
  rfl

end Inside

/-! ## What preflight reads -/

/-- The references of a prompt as it is written. -/
def writtenReferences (content : String) : List (String × String) :=
  (findIter templateAt 0 0 content.toList).flatMap fun found => found.capture.elim (fun reference => [reference]) fun _ => []

theorem stripChars_of_no_space {text : List Char} (h : ∀ c ∈ text, isSpace c = false) : stripChars text = text := by
  have hdrop : ∀ word : List Char, (∀ c ∈ word, isSpace c = false) → word.dropWhile isSpace = word := by
    intro word hword
    cases word with
    | nil => rfl
    | cons c word => rw [List.dropWhile_cons_of_neg (by simp [hword c List.mem_cons_self])]
  unfold stripChars
  rw [hdrop text h, hdrop _ fun c hc => h c (List.mem_reverse.mp hc), List.reverse_reverse]

theorem matchTemplateToken_reference {id name : String} (hid : id.toList ≠ []) (hname : name.toList ≠ [])
    (hmarker : ∀ c ∈ id.toList, isMarkerChar c = true) (hartifact : ∀ c ∈ name.toList, isArtifactChar c = true) :
    matchTemplateToken (openBraces.toList ++ (id.toList ++ '.' :: name.toList) ++ closeBraces.toList) =
      some (.nodeArtifact id name) := by
  have hopen : after openBraces (openBraces.toList ++ (id.toList ++ '.' :: name.toList) ++ closeBraces.toList) =
      some ((id.toList ++ '.' :: name.toList) ++ closeBraces.toList) := by
    rw [after_eq_some, List.append_assoc]
  have hclose : after closeBraces ((id.toList ++ '.' :: name.toList) ++ closeBraces.toList).reverse =
      some (id.toList ++ '.' :: name.toList).reverse := by
    rw [after_eq_some, List.reverse_append, closeBraces_toList]
    rfl
  have hunbraced : unbraced (openBraces.toList ++ (id.toList ++ '.' :: name.toList) ++ closeBraces.toList) =
      some (id.toList ++ '.' :: name.toList) := by
    simp only [unbraced, hopen, Option.bind_eq_bind, Option.bind_some, hclose, List.reverse_reverse, Option.pure_def]
  have hspace : ∀ c ∈ id.toList ++ '.' :: name.toList, isSpace c = false := by
    intro c hc
    simp only [List.mem_append, List.mem_cons] at hc
    rcases hc with hc | rfl | hc
    · exact not_isSpace_of_isMarkerChar (hmarker c hc)
    · decide
    · exact not_isSpace_of_isArtifactChar (hartifact c hc)
  have hsplit : splitLastDot (id.toList ++ '.' :: name.toList) = some (id.toList, name.toList) := by
    rw [splitLastDot_eq_some]
    refine ⟨rfl, fun hdot => ?_⟩
    have := hartifact _ hdot
    revert this
    decide
  have htoken : nodeArtifactToken (id.toList ++ '.' :: name.toList) = some (id, name) := by
    unfold nodeArtifactToken
    rw [stripChars_of_no_space hspace, hsplit]
    simp [hid, hname]
    exact ⟨hmarker, hartifact⟩
  unfold matchTemplateToken
  rw [hunbraced]
  simp only [htoken]

/-- A reference of the prompt is read, in the composed prompt, as one to the node it resolves to. -/
theorem exists_templateReference {namespacePrefix : String} {boundInputNodes : Dict String String}
    {params : Dict String ParamBinding} {content content' : String} (hids : ResolvesPlain namespacePrefix boundInputNodes)
    (hcontent : content'.toList = (writtenPieces content).flatMap (pieceText namespacePrefix boundInputNodes params))
    {id name : String} (h : (id, name) ∈ writtenReferences content) :
    ∃ reference ∈ iterTemplateReferences content', reference.kind = .node ∧
      reference.nodeId = some (resolveDependencyId id namespacePrefix boundInputNodes) ∧ reference.artifactName = some name := by
  obtain ⟨found, hfound, hcapture⟩ := List.mem_flatMap.mp h
  have hcapture : found.capture = .inl (id, name) := by
    cases hcase : found.capture with
    | inl reference =>
      rw [hcase] at hcapture
      have : (id, name) = reference := by simpa using hcapture
      rw [this]
    | inr key =>
      rw [hcase] at hcapture
      simp at hcapture
  obtain ⟨c, rest, n, -, hsome⟩ := exists_of_mem_findIter hfound
  have hreference : artifactReferenceAt (c :: rest) = some (n, id, name) := by
    rw [hcapture] at hsome
    unfold templateAt Pattern.orElse at hsome
    split at hsome
    · rename_i m reference hreference
      simp only [Option.some.injEq, Prod.mk.injEq, Sum.inl.injEq] at hsome
      obtain ⟨rfl, rfl⟩ := hsome
      exact hreference
    · simp at hsome
  obtain ⟨-, -, -, -, -, hid, hname, hmarker, hartifact, -, -⟩ := artifactReferenceAt_eq_some hreference
  obtain ⟨hresolved, hresolvedMarker⟩ := hids id hid hmarker
  obtain ⟨k, hpiece⟩ := @mem_pieces _ _ content.toList _ found 0 0 hfound
  obtain ⟨front, back, hpieces⟩ := List.append_of_mem hpiece
  have htoken : pieceText namespacePrefix boundInputNodes params (.found k found) =
      openBraces.toList ++ ((resolveDependencyId id namespacePrefix boundInputNodes).toList ++ '.' :: name.toList) ++
        closeBraces.toList := by
    simp [pieceText, hcapture, rewrittenReference]
  have htext : content'.toList = front.flatMap (pieceText namespacePrefix boundInputNodes params) ++
      (openBraces.toList ++ ((resolveDependencyId id namespacePrefix boundInputNodes).toList ++ '.' :: name.toList) ++
        closeBraces.toList ++ back.flatMap (pieceText namespacePrefix boundInputNodes params)) := by
    rw [hcontent, writtenPieces, hpieces, List.flatMap_append, List.flatMap_cons, htoken]
  have hbraces : ∀ x ∈ (resolveDependencyId id namespacePrefix boundInputNodes).toList ++ '.' :: name.toList,
      isBrace x = false := by
    intro x hx
    simp only [List.mem_append, List.mem_cons] at hx
    rcases hx with hx | rfl | hx
    · have := not_brace_of_isMarkerChar (hresolvedMarker x hx)
      simp [isBrace, this.1, this.2.1]
    · decide
    · have := not_brace_of_isArtifactChar (hartifact x hx)
      simp [isBrace, this.1, this.2.1]
  obtain ⟨token, htokenMem, hraw⟩ := mem_findIter_token hbraces
    (back.flatMap (pieceText namespacePrefix boundInputNodes params))
    (front.flatMap (pieceText namespacePrefix boundInputNodes params)) 0 0 (Nat.zero_le _)
  rw [← htext] at htokenMem
  refine ⟨_, List.mem_map.mpr ⟨token, htokenMem, rfl⟩, ?_⟩
  unfold referenceOf
  rw [hraw, matchTemplateToken_reference hresolved hname hresolvedMarker hartifact]
  exact ⟨rfl, rfl, rfl⟩

end Crewplane.Composition
