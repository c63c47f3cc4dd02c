import Crewplane.Workspace.RefNames
import Crewplane.Lib.Dict
/-
# Internal refs do not collide

Every component that `safeRefComponent` makes is one git accepts (`Component`). The slug of an
invocation keeps its hash through both normalisations, after a dash whose position tells whether the
component was cut; so different invocations of a run have different slug components, and the
depth of the refs and the length of a slug component exclude that one ref is a directory of another.
-/
namespace Crewplane.Workspace

open Crewplane.Lib

def hexDigits : Text := ['0', '1', '2', '3', '4', '5', '6', '7', '8', '9', 'a', 'b', 'c', 'd', 'e', 'f']

/-- `hashlib.sha256(...).hexdigest()` has 64 hexadecimal digits. -/
structure HexDigest (sha256 : Text → Text) : Prop where
  length : ∀ value, (sha256 value).length = 64
  hex : ∀ value, ∀ c ∈ sha256 value, c ∈ hexDigits

/-- A component of a ref that git accepts, and that starts with no dot and no dash. -/
structure Component (part : Text) : Prop where
  ne_nil : part ≠ []
  safe : ∀ c ∈ part, safeChar c = true
  head : ∀ c ∈ part.head?, edgeChar c = false
  last : part.getLast? ≠ some '.'
  dots : hasPair '.' '.' part = false
  lock : ¬ dotLock <:+ part

/-- A text that no stripping changes. -/
structure Body (front : Text) : Prop where
  ne_nil : front ≠ []
  safe : ∀ c ∈ front, safeChar c = true
  head : ∀ c ∈ front.head?, edgeChar c = false
  last : ∀ c ∈ front.getLast?, edgeChar c = false

variable {sha256 : Text → Text} {front slug part : Text}

/-! ## Characters -/

theorem hex_facts (c : Char) (h : c ∈ hexDigits) : safeChar c = true ∧ edgeChar c = false ∧ refEdgeChar c = false ∧
    c ≠ '.' ∧ c ≠ 'k' ∧ c ≠ ']' := by
  simp only [hexDigits, List.mem_cons, List.not_mem_nil, or_false] at h
  rcases h with rfl | rfl | rfl | rfl | rfl | rfl | rfl | rfl | rfl | rfl | rfl | rfl | rfl | rfl | rfl | rfl <;> decide

theorem round_safe (c : Char) (h : c ∈ "round".toList) : safeChar c = true := by
  have hmem : c ∈ ['r', 'o', 'u', 'n', 'd'] := h
  simp only [List.mem_cons, List.not_mem_nil, or_false] at hmem
  rcases hmem with rfl | rfl | rfl | rfl | rfl <;> decide

theorem digit_facts {c : Char} (h : c.isDigit = true) : safeChar c = true ∧ edgeChar c = false := by
  refine ⟨by simp [safeChar, Char.isAlphanum, h], ?_⟩
  have hdot : c ≠ '.' := by
    rintro rfl
    simp at h
  have hdash : c ≠ '-' := by
    rintro rfl
    simp at h
  simp [edgeChar, hdot, hdash]

theorem safe_dash : safeChar '-' = true := by decide

theorem safe_ne_slash {c : Char} (h : safeChar c = true) : c ≠ '/' := by
  rintro rfl
  revert h
  decide

theorem refEdge_eq {c : Char} (h : safeChar c = true) : refEdgeChar c = edgeChar c := by
  have hc := safe_ne_slash h
  simp [refEdgeChar, edgeChar, hc]

theorem mem_getLast? {c : Char} {text : Text} (h : c ∈ text.getLast?) : c ∈ text := List.mem_of_getLast? h

theorem last_of_lock (h : dotLock <:+ part) : part.getLast? = some 'k' := by
  obtain ⟨front, rfl⟩ := h
  simp [dotLock]

/-! ## Hashes -/

theorem hex_take (hsha : HexDigest sha256) (value : Text) (n : Nat) : ∀ c ∈ (sha256 value).take n, c ∈ hexDigits :=
  fun c hc => hsha.hex value c (List.mem_of_mem_take hc)

theorem length_shortHash (hsha : HexDigest sha256) (value : Text) : (shortHash sha256 value).length = 12 := by
  simp [shortHash, safeComponentHashChars, hsha.length]

theorem fallbackHash_ne_nil (hsha : HexDigest sha256) (value : Text) : fallbackHash sha256 value ≠ [] := by
  intro h
  have hlen : (fallbackHash sha256 value).length = 16 := by simp [fallbackHash, fallbackHashChars, hsha.length]
  rw [h] at hlen
  cases hlen

/-- Hexadecimal digits make a component. -/
theorem component_hex (hne : part ≠ []) (hhex : ∀ c ∈ part, c ∈ hexDigits) : Component part where
  ne_nil := hne
  safe c hc := (hex_facts c (hhex c hc)).1
  head c hc := (hex_facts c (hhex c (List.mem_of_head? hc))).2.1
  last h := (hex_facts '.' (hhex '.' (List.mem_of_getLast? h))).2.2.2.1 rfl
  dots := hasPair_of_not_mem fun h => (hex_facts '.' (hhex '.' h)).2.2.2.1 rfl
  lock h := (hex_facts 'k' (hhex 'k' (List.mem_of_getLast? (last_of_lock h)))).2.2.2.2.1 rfl

/-- A component goes on after a dash with hexadecimal digits, perhaps after another dash. -/
theorem component_append {tail : Text} (hne : front ≠ []) (hsafe : ∀ c ∈ front, safeChar c = true)
    (hhead : ∀ c ∈ front.head?, edgeChar c = false) (hdots : hasPair '.' '.' front = false)
    (hsep : ∀ c ∈ tail, c = '-' ∨ c ∈ hexDigits) (hlast : ∀ c ∈ tail.getLast?, c ∈ hexDigits) (htail : tail ≠ []) :
    Component (front ++ '-' :: tail) := by
  have hplain : '.' ∉ '-' :: tail := by
    intro h
    rcases List.mem_cons.mp h with h | h
    · cases h
    · rcases hsep _ h with h | h
      · cases h
      · exact (hex_facts '.' h).2.2.2.1 rfl
  have hend : (front ++ '-' :: tail).getLast? = tail.getLast? := by
    rw [List.getLast?_append_of_ne_nil _ (List.cons_ne_nil _ _)]
    cases tail with
    | nil => exact absurd rfl htail
    | cons a tail => exact List.getLast?_cons_cons
  have hnot : ∀ c, c ∉ hexDigits → (front ++ '-' :: tail).getLast? ≠ some c := by
    intro c hc h
    rw [hend] at h
    exact hc (hlast c h)
  constructor
  · simp
  · intro c hc
    rcases List.mem_append.mp hc with hc | hc
    · exact hsafe c hc
    · rcases List.mem_cons.mp hc with rfl | hc
      · exact safe_dash
      · rcases hsep c hc with rfl | hc
        · exact safe_dash
        · exact (hex_facts c hc).1
  · cases front with
    | nil => exact absurd rfl hne
    | cons a front => exact hhead
  · exact hnot '.' (by decide)
  · rw [hasPair_append, hdots, hasPair_of_not_mem hplain]
    simp
  · exact fun h => hnot 'k' (by decide) (last_of_lock h)

/-! ## safe_ref_component -/

theorem head?_front {a b : Text} (h : a <+: b) : ∀ c ∈ a.head?, c ∈ b.head? := by
  obtain ⟨rest, rfl⟩ := h
  intro c hc
  cases a with
  | nil => cases hc
  | cons d a => exact hc

theorem hasPair_front {a b : Text} (h : a <+: b) (hb : hasPair '.' '.' b = false) : hasPair '.' '.' a = false := by
  obtain ⟨rest, rfl⟩ := h
  rw [hasPair_append] at hb
  simp only [Bool.or_eq_false_iff] at hb
  exact hb.1.1

/-- What is cut from a text that starts well and stripped at its end. -/
theorem body_cut (n : Nat) (hn : 0 < n) (hne : slug ≠ []) (hsafe : ∀ c ∈ slug, safeChar c = true)
    (hhead : ∀ c ∈ slug.head?, edgeChar c = false) :
    Body (rstrip edgeChar (slug.take n)) ∧ rstrip edgeChar (slug.take n) <+: slug := by
  have hpre : rstrip edgeChar (slug.take n) <+: slug := (rstrip_front _).trans ( List.take_prefix n slug)
  refine ⟨⟨?_, fun c hc => hsafe c (hpre.subset hc), fun c hc => hhead c (head?_front hpre c hc),
    getLast?_rstrip⟩, hpre⟩
  cases slug with
  | nil => exact absurd rfl hne
  | cons c slug =>
    apply rstrip_ne_nil (c := c)
    · cases n with
      | zero => omega
      | succ n => exact List.mem_cons_self
    · exact hhead c rfl

theorem boundedComponent_short {original : Text} (h : slug.length ≤ maxRefComponentChars) :
    boundedComponent sha256 slug original maxRefComponentChars ['-'] = slug := if_pos h

theorem boundedComponent_long (hsha : HexDigest sha256) (original : Text) (h : ¬ slug.length ≤ maxRefComponentChars)
    (hhead : ∀ c ∈ slug.head?, edgeChar c = false) (hsafe : ∀ c ∈ slug, safeChar c = true) :
    ∃ front, Body front ∧ front <+: slug ∧
      boundedComponent sha256 slug original maxRefComponentChars ['-'] = front ++ '-' :: shortHash sha256 original := by
  have hne : slug ≠ [] := by
    rintro rfl
    exact h (Nat.zero_le _)
  have hcut : maxRefComponentChars - (['-'] ++ shortHash sha256 original).length = 83 := by
    simp [maxRefComponentChars, length_shortHash hsha]
  obtain ⟨hbody, hpre⟩ := body_cut 83 (by decide) hne hsafe hhead
  refine ⟨_, hbody, hpre, ?_⟩
  rw [boundedComponent, if_neg h]
  simp only [hcut, if_neg hbody.ne_nil]
  rfl

theorem component_bounded (hsha : HexDigest sha256) {original : Text} (h : Component slug) :
    Component (boundedComponent sha256 slug original maxRefComponentChars ['-']) := by
  by_cases hlen : slug.length ≤ maxRefComponentChars
  · rwa [boundedComponent_short hlen]
  · obtain ⟨front, hbody, hpre, heq⟩ := boundedComponent_long hsha original hlen h.head h.safe
    have hhex : ∀ c ∈ shortHash sha256 original, c ∈ hexDigits := hex_take hsha original _
    rw [heq]
    apply component_append hbody.ne_nil hbody.safe hbody.head (hasPair_front hpre h.dots)
    · exact fun c hc => Or.inr (hhex c hc)
    · exact fun c hc => hhex c (List.mem_of_getLast? hc)
    · intro hnil
      have hlen := length_shortHash hsha original
      rw [hnil] at hlen
      cases hlen

/-- Whatever the text, `safe_ref_component` makes a component of it. -/
theorem component_safeRefComponent (hsha : HexDigest sha256) (value : Text) :
    Component (safeRefComponent sha256 value) := by
  apply component_bounded hsha
  have hsafe : ∀ c ∈ dashRuns safeChar value, safeChar c = true := mem_dashRunsFrom safe_dash false
  have hstrip : ∀ c ∈ stripChar refEdgeChar (dashRuns safeChar value), c ∈ dashRuns safeChar value := fun c hc =>
    (lstrip_suffix _).subset ((rstrip_front _).subset hc)
  have hcollapse : ∀ c ∈ collapseDots (stripChar refEdgeChar (dashRuns safeChar value)), safeChar c = true :=
    fun c hc => hsafe c (hstrip c (mem_collapseDotsFrom _ c hc))
  split
  · exact component_hex (fallbackHash_ne_nil hsha value) (hex_take hsha value _)
  · rename_i hbad
    obtain ⟨hne, hdot, hlock⟩ : _ ∧ _ ∧ _ := by simpa only [not_or] using hbad
    constructor
    · exact hne
    · exact hcollapse
    · intro c hc
      rw [← refEdge_eq (hcollapse c (List.mem_of_head? hc))]
      rw [collapseDots, head?_collapseDotsFrom] at hc
      exact head?_lstrip c (head?_front (rstrip_front _) c hc)
    · intro hlast
      have hmem := List.mem_of_getLast? hlast
      have hedge := refEdge_eq (hcollapse '.' hmem)
      rw [collapseDots, getLast?_collapseDotsFrom] at hlast
      have hstripped := getLast?_rstrip '.' hlast
      rw [hedge] at hstripped
      revert hstripped
      decide
    · exact hasPair_collapseDotsFrom le_rfl
    · exact hlock

/-! ## The slug of an invocation -/

theorem repr_int_facts (n : Int) : (Int.repr n).toList ≠ [] ∧ (∀ c ∈ (Int.repr n).toList, safeChar c = true) ∧
    ∀ c ∈ (Int.repr n).toList.getLast?, edgeChar c = false := by
  cases n with
  | ofNat n =>
    have hdigit := repr_toList_isDigit n
    refine ⟨?_, fun c hc => (digit_facts (hdigit c hc)).1, fun c hc => (digit_facts (hdigit c (mem_getLast? hc))).2⟩
    intro hnil
    exact Nat.repr_ne_empty (String.toList_inj.mp hnil)
  | negSucc n =>
    have hdigit := repr_toList_isDigit n.succ
    have hne : (Nat.repr n.succ).toList ≠ [] := fun hnil => Nat.repr_ne_empty (String.toList_inj.mp hnil)
    have htext : (Int.repr (Int.negSucc n)).toList = '-' :: (Nat.repr n.succ).toList := by
      rw [Int.repr, String.toList_append]
      rfl
    rw [htext]
    refine ⟨List.cons_ne_nil _ _, ?_, ?_⟩
    · intro c hc
      rcases List.mem_cons.mp hc with rfl | hc
      · exact safe_dash
      · exact (digit_facts (hdigit c hc)).1
    · intro c hc
      have hlast : ('-' :: (Nat.repr n.succ).toList).getLast? = (Nat.repr n.succ).toList.getLast? := by
        cases hdigits : (Nat.repr n.succ).toList with
        | nil => exact absurd hdigits hne
        | cons d rest => exact List.getLast?_cons_cons
      rw [hlast] at hc
      exact (digit_facts (hdigit c (mem_getLast? hc))).2

/-- The end of a slug: a round and a hash, kept by every normalisation. -/
theorem strip_slugSource (hsha : HexDigest sha256) (id : InvocationIdentity) :
    ∃ front, stripChar edgeChar (dashRuns safeChar (slugSource sha256 id)) =
      front ++ '-' :: '-' :: shortSlugHash sha256 (identityJson id) ∧ Body front := by
  obtain ⟨hne, hsafe, hlast⟩ := repr_int_facts id.roundNum
  have hhash : ∀ c ∈ shortSlugHash sha256 (identityJson id), c ∈ hexDigits := hex_take hsha _ _
  have hlen : (shortSlugHash sha256 (identityJson id)).length = 12 := by
    simp [shortSlugHash, invocationSlugHashChars, hsha.length]
  let before := id.nodeId ++ ['-'] ++ id.taskId ++ ['-'] ++ auditText id.auditRoundNum
  let ending := "round".toList ++ (Int.repr id.roundNum).toList ++ '-' :: '-' :: shortSlugHash sha256 (identityJson id)
  have hsource : slugSource sha256 id = before ++ ending := by
    simp [slugSource, before, ending]
  have hending : ∀ c ∈ ending, safeChar c = true := by
    intro c hc
    simp only [ending, List.mem_append, List.mem_cons] at hc
    rcases hc with (hc | hc) | rfl | rfl | hc
    · exact round_safe c hc
    · exact hsafe c hc
    · exact safe_dash
    · exact safe_dash
    · exact (hex_facts c (hhash c hc)).1
  have hstart : ∀ c ∈ ending.head?, edgeChar c = false := by
    intro c hc
    obtain rfl : 'r' = c := Option.some.inj hc
    decide
  let front := lstrip edgeChar (dashRuns safeChar before) ++ ("round".toList ++ (Int.repr id.roundNum).toList)
  have hstrip : lstrip edgeChar (dashRuns safeChar (slugSource sha256 id)) =
      front ++ '-' :: '-' :: shortSlugHash sha256 (identityJson id) := by
    rw [hsource, dashRuns, dashRunsFrom_append hending, lstrip_append hstart]
    simp [front, ending, dashRuns]
  refine ⟨front, ?_, ?_⟩
  · rw [stripChar, hstrip]
    apply rstrip_eq_self
    intro c hc
    have hc' : c ∈ (shortSlugHash sha256 (identityJson id)).getLast? := by
      cases hchars : shortSlugHash sha256 (identityJson id) with
      | nil =>
        rw [hchars] at hlen
        cases hlen
      | cons d rest =>
        rw [hchars, List.getLast?_append_of_ne_nil _ (List.cons_ne_nil _ _)] at hc
        exact hc
    exact (hex_facts c (hhash c (mem_getLast? hc'))).2.1
  · constructor
    · simp [front]
    · intro c hc
      rcases List.mem_append.mp hc with hc | hc
      · exact mem_dashRunsFrom safe_dash false c ((lstrip_suffix _).subset hc)
      · rcases List.mem_append.mp hc with hc | hc
        · exact round_safe c hc
        · exact hsafe c hc
    · intro c hc
      cases hstripped : lstrip edgeChar (dashRuns safeChar before) with
      | nil =>
        simp only [front, hstripped] at hc
        exact hstart c hc
      | cons d rest =>
        simp only [front, hstripped] at hc
        apply @head?_lstrip edgeChar (dashRuns safeChar before) c
        rw [hstripped]
        exact hc
    · intro c hc
      apply hlast c
      simp only [front] at hc
      rw [List.getLast?_append_of_ne_nil _ (by simp), List.getLast?_append_of_ne_nil _ hne] at hc
      exact hc

theorem last_hash {h : Text} (hlen : h.length = 12) (hhex : ∀ c ∈ h, c ∈ hexDigits) (before : Text) :
    ∀ c ∈ (before ++ h).getLast?, c ∈ hexDigits := by
  intro c hc
  have hne : h ≠ [] := by
    rintro rfl
    cases hlen
  rw [List.getLast?_append_of_ne_nil _ hne] at hc
  exact hhex c (mem_getLast? hc)

/-- A slug is a body, two dashes and a hash, of the identity or of the whole text. -/
theorem invocationSlug_shape (hsha : HexDigest sha256) (id : InvocationIdentity) :
    ∃ front h, invocationSlug sha256 id = front ++ '-' :: '-' :: h ∧ Body front ∧
      (h = shortHash sha256 (identityJson id) ∨ h = shortHash sha256 (slugSource sha256 id)) := by
  obtain ⟨front, hstrip, hbody⟩ := strip_slugSource hsha id
  have hne : stripChar edgeChar (dashRuns safeChar (slugSource sha256 id)) ≠ [] := by
    rw [hstrip]
    simp
  rw [invocationSlug, boundedInvocationSlug]
  simp only [if_neg hne]
  split
  · exact ⟨front, _, hstrip, hbody, Or.inl rfl⟩
  · have hlen : (shortSlugHash sha256 (slugSource sha256 id)).length = 12 := by
      simp [shortSlugHash, invocationSlugHashChars, hsha.length]
    have hcut : maxInvocationSlugChars - (['-', '-'] ++ shortSlugHash sha256 (slugSource sha256 id)).length = 146 := by
      simp [maxInvocationSlugChars, hlen]
    have hsafe : ∀ c ∈ stripChar edgeChar (dashRuns safeChar (slugSource sha256 id)), safeChar c = true := fun c hc =>
      mem_dashRunsFrom safe_dash false c ((lstrip_suffix _).subset ((rstrip_front _).subset hc))
    have hhead : ∀ c ∈ (stripChar edgeChar (dashRuns safeChar (slugSource sha256 id))).head?, edgeChar c = false :=
      fun c hc => head?_lstrip c (head?_front (rstrip_front _) c hc)
    obtain ⟨hcutBody, -⟩ := body_cut 146 (by decide) hne hsafe hhead
    rw [hcut, if_neg hcutBody.ne_nil]
    exact ⟨_, _, rfl, hcutBody, Or.inr rfl⟩

/-- The slug component keeps the two dashes and the hash, or is cut to a body, one dash and the slug's own hash. -/
theorem slugComponent_shape (hsha : HexDigest sha256) {h : Text} (hslug : slug = front ++ '-' :: '-' :: h)
    (hbody : Body front) (hlen : h.length = 12) (hhex : ∀ c ∈ h, c ∈ hexDigits) :
    (∃ kept, safeRefComponent sha256 slug = kept ++ '-' :: '-' :: h) ∨
      ∃ kept, safeRefComponent sha256 slug = kept ++ '-' :: shortHash sha256 slug ∧ Body kept := by
  have hplain : '.' ∉ '-' :: '-' :: h := by
    intro hmem
    simp only [List.mem_cons] at hmem
    rcases hmem with hmem | hmem | hmem
    · cases hmem
    · cases hmem
    · exact (hex_facts '.' (hhex '.' hmem)).2.2.2.1 rfl
  have hsafe : ∀ c ∈ slug, safeChar c = true := by
    intro c hc
    rw [hslug] at hc
    simp only [List.mem_append, List.mem_cons] at hc
    rcases hc with hc | rfl | rfl | hc
    · exact hbody.safe c hc
    · exact safe_dash
    · exact safe_dash
    · exact (hex_facts c (hhex c hc)).1
  have hhead : ∀ c ∈ slug.head?, edgeChar c = false := by
    intro c hc
    rw [hslug] at hc
    cases front with
    | nil => exact absurd rfl hbody.ne_nil
    | cons a front => exact hbody.head c hc
  have hlast : ∀ c ∈ slug.getLast?, c ∈ hexDigits := by
    have hsplit : slug = (front ++ ['-', '-']) ++ h := by simp [hslug]
    rw [hsplit]
    exact last_hash hlen hhex _
  have hstrip : stripChar refEdgeChar (dashRuns safeChar slug) = slug := by
    have hl : lstrip refEdgeChar slug = slug := by
      apply lstrip_eq_self
      intro c hc
      rw [refEdge_eq (hsafe c (List.mem_of_head? hc))]
      exact hhead c hc
    rw [dashRuns, dashRunsFrom_safe hsafe, stripChar, hl]
    exact rstrip_eq_self fun c hc => (hex_facts c (hlast c hc)).2.2.1
  have hcollapse : collapseDots slug = collapseDotsFrom slug.length front ++ '-' :: '-' :: h := by
    rw [collapseDots, ← collapseDotsFrom_append slug.length hplain, ← hslug]
  have hlastc : ∀ c ∈ (collapseDots slug).getLast?, c ∈ hexDigits := by
    rw [collapseDots, getLast?_collapseDotsFrom]
    exact hlast
  have hgood : ¬ (collapseDots slug = [] ∨ ['.'] <:+ collapseDots slug ∨ dotLock <:+ collapseDots slug) := by
    rintro (hnil | ⟨before, hdot⟩ | hlock)
    · rw [hcollapse] at hnil
      simp at hnil
    · have hmem : '.' ∈ (collapseDots slug).getLast? := by
        rw [← hdot]
        simp
      exact (hex_facts '.' (hlastc '.' hmem)).2.2.2.1 rfl
    · exact (hex_facts 'k' (hlastc 'k' (last_of_lock hlock))).2.2.2.2.1 rfl
  rw [safeRefComponent]
  simp only [hstrip, if_neg hgood]
  by_cases hshort : (collapseDots slug).length ≤ maxRefComponentChars
  · rw [boundedComponent_short hshort]
    exact Or.inl ⟨_, hcollapse⟩
  · have hheadc : ∀ c ∈ (collapseDots slug).head?, edgeChar c = false := by
      rw [collapseDots, head?_collapseDotsFrom]
      exact hhead
    obtain ⟨kept, hkept, -, heq⟩ := boundedComponent_long hsha slug hshort hheadc
      fun c hc => hsafe c (mem_collapseDotsFrom _ c hc)
    exact Or.inr ⟨kept, heq, hkept⟩

/-! ## Slug components of different invocations -/

theorem identityJson_injective {i j : InvocationIdentity} (h : identityJson i = identityJson j) : i = j := by
  have hvalue := Json.encode_injective _ h
  simp only [Json.arr.injEq, List.cons.injEq, Json.str.injEq, Json.int.injEq, and_true] at hvalue
  obtain ⟨hnode, htask, haudit, hround⟩ := hvalue
  have haudit' : i.auditRoundNum = j.auditRoundNum := by
    cases hi : i.auditRoundNum <;> cases hj : j.auditRoundNum <;> simp_all
  cases i
  cases j
  simp_all

theorem last_identityJson (i : InvocationIdentity) : (identityJson i).getLast? = some ']' :=
  Json.getLast?_encode_arr _ _

theorem last_slugSource (hsha : HexDigest sha256) (i : InvocationIdentity) :
    ∀ c ∈ (slugSource sha256 i).getLast?, c ∈ hexDigits :=
  last_hash (length_shortHash hsha _) (hex_take hsha _ _) _

/-- The texts that are hashed for the refs of an invocation. -/
def hashedTexts (sha256 : Text → Text) (i : InvocationIdentity) : Set Text :=
  {identityJson i, slugSource sha256 i, invocationSlug sha256 i}

theorem source_ne_json (hsha : HexDigest sha256) (i j : InvocationIdentity) : slugSource sha256 i ≠ identityJson j := by
  intro h
  have hlast := last_slugSource hsha i ']'
  rw [h] at hlast
  exact (hex_facts ']' (hlast (last_identityJson j))).2.2.2.2.2 rfl

variable {i j : InvocationIdentity}

/-- The hash of a slug tells the invocation. -/
theorem hash_distinct (hsha : HexDigest sha256)
    (hinj : Set.InjOn (shortHash sha256) (hashedTexts sha256 i ∪ hashedTexts sha256 j)) {h : Text}
    (hi : h = shortHash sha256 (identityJson i) ∨ h = shortHash sha256 (slugSource sha256 i))
    (hj : h = shortHash sha256 (identityJson j) ∨ h = shortHash sha256 (slugSource sha256 j)) : i = j := by
  have hjson : ∀ k, identityJson k ∈ hashedTexts sha256 k := fun k => Or.inl rfl
  have hsource : ∀ k, slugSource sha256 k ∈ hashedTexts sha256 k := fun k => Or.inr (Or.inl rfl)
  rcases hi with hi | hi <;> rcases hj with hj | hj
  · exact identityJson_injective (hinj (Or.inl (hjson i)) (Or.inr (hjson j)) (hi.symm.trans hj))
  · have heq := hinj (Or.inl (hjson i)) (Or.inr (hsource j)) (hi.symm.trans hj)
    exact absurd heq.symm (source_ne_json hsha j i)
  · have heq := hinj (Or.inl (hsource i)) (Or.inr (hjson j)) (hi.symm.trans hj)
    exact absurd heq (source_ne_json hsha i j)
  · have heq := hinj (Or.inl (hsource i)) (Or.inr (hsource j)) (hi.symm.trans hj)
    rw [slugSource, slugSource] at heq
    have hhash := (List.append_inj' heq (by rw [shortSlugHash, shortSlugHash]; simp [hsha.length])).2
    exact identityJson_injective (hinj (Or.inl (hjson i)) (Or.inr (hjson j)) hhash)

theorem hash_of_slug (hsha : HexDigest sha256) (i : InvocationIdentity) {h : Text}
    (hi : h = shortHash sha256 (identityJson i) ∨ h = shortHash sha256 (slugSource sha256 i)) :
    h.length = 12 ∧ ∀ c ∈ h, c ∈ hexDigits := by
  rcases hi with rfl | rfl
  · exact ⟨length_shortHash hsha _, hex_take hsha _ _⟩
  · exact ⟨length_shortHash hsha _, hex_take hsha _ _⟩

/-- A component that was cut ends in one dash and a hash, one that was not in two. -/
theorem cut_ne_kept {a b h h' : Text} (hb : Body b) (hlen : h.length = h'.length) :
    a ++ '-' :: '-' :: h ≠ b ++ '-' :: h' := by
  intro heq
  have hsplit : (a ++ ['-']) ++ '-' :: h = b ++ '-' :: h' := by simpa using heq
  have hfront := (List.append_inj' hsplit (by simp [hlen])).1
  have hlast := hb.last '-'
  rw [← hfront] at hlast
  simp [edgeChar] at hlast

theorem slugComponent_distinct (hsha : HexDigest sha256)
    (hinj : Set.InjOn (shortHash sha256) (hashedTexts sha256 i ∪ hashedTexts sha256 j))
    (heq : safeRefComponent sha256 (invocationSlug sha256 i) = safeRefComponent sha256 (invocationSlug sha256 j)) :
    i = j := by
  obtain ⟨front, h, hslug, hbody, hhash⟩ := invocationSlug_shape hsha i
  obtain ⟨front', h', hslug', hbody', hhash'⟩ := invocationSlug_shape hsha j
  obtain ⟨hlen, hhex⟩ := hash_of_slug hsha i hhash
  obtain ⟨hlen', hhex'⟩ := hash_of_slug hsha j hhash'
  have hlens := hlen.trans hlen'.symm
  rcases slugComponent_shape hsha hslug hbody hlen hhex with ⟨kept, hkept⟩ | ⟨kept, hkept, hcut⟩ <;>
    rcases slugComponent_shape hsha hslug' hbody' hlen' hhex' with ⟨kept', hkept'⟩ | ⟨kept', hkept', hcut'⟩
  · have htail := (List.append_inj' (hkept.symm.trans (heq.trans hkept')) (by simp [hlens])).2
    obtain rfl : h = h' := by simpa using htail
    exact hash_distinct hsha hinj hhash hhash'
  · refine absurd (hkept.symm.trans (heq.trans hkept')) (cut_ne_kept hcut' ?_)
    rw [hlen, length_shortHash hsha]
  · refine absurd (hkept'.symm.trans (heq.symm.trans hkept)) (cut_ne_kept hcut ?_)
    rw [hlen', length_shortHash hsha]
  · have hlast := (List.append_inj' (hkept.symm.trans (heq.trans hkept')) (by simp [length_shortHash hsha])).2
    have hslugs := hinj (Or.inl (Or.inr (Or.inr rfl))) (Or.inr (Or.inr (Or.inr rfl))) (List.cons.inj hlast).2
    rw [hslug, hslug'] at hslugs
    have htail := (List.append_inj' hslugs (by simp [hlens])).2
    obtain rfl : h = h' := by simpa using htail
    exact hash_distinct hsha hinj hhash hhash'

theorem length_slugComponent (hsha : HexDigest sha256) (i : InvocationIdentity) :
    12 < (safeRefComponent sha256 (invocationSlug sha256 i)).length := by
  obtain ⟨front, h, hslug, hbody, hhash⟩ := invocationSlug_shape hsha i
  obtain ⟨hlen, hhex⟩ := hash_of_slug hsha i hhash
  rcases slugComponent_shape hsha hslug hbody hlen hhex with ⟨kept, hkept⟩ | ⟨kept, hkept, _⟩
  · simp [hkept, hlen]
  · simp [hkept, length_shortHash hsha]

/-! ## Refs as paths -/

def refsPart : Text := ['r', 'e', 'f', 's']
def crewplanePart : Text := ['c', 'r', 'e', 'w', 'p', 'l', 'a', 'n', 'e']
def runsPart : Text := ['r', 'u', 'n', 's']
def importsPart : Text := ['i', 'm', 'p', 'o', 'r', 't', 's']
def candidatePart : Text := ['c', 'a', 'n', 'd', 'i', 'd', 'a', 't', 'e']
def resultPart : Text := ['r', 'e', 's', 'u', 'l', 't']

/-- The parts of a ref after the three that all refs share. -/
def RefKind.tail (sha256 : Text → Text) (node slug : Text) : RefKind → List Text
  | .candidate => [node, slug, candidatePart]
  | .result => [node, slug, resultPart]
  | .temporaryImport sourceCommit importId =>
    [importsPart, node, slug, safeRefComponent sha256 (sourceCommit.take 24) ++ '-' :: importId]

def refParts (sha256 : Text → Text) (runKeyName : Text) (i : InvocationIdentity) (kind : RefKind) : List Text :=
  refsPart :: crewplanePart :: runsPart :: safeRefComponent sha256 runKeyName ::
    kind.tail sha256 (safeRefComponent sha256 i.nodeId) (safeRefComponent sha256 (invocationSlug sha256 i))

theorem shared_parts (rest : Text) : "refs/crewplane/runs/".toList ++ rest =
    refsPart ++ '/' :: (crewplanePart ++ '/' :: (runsPart ++ '/' :: rest)) := rfl

theorem joinPath_shared (parts : List Text) (part : Text) :
    joinPath (refsPart :: crewplanePart :: runsPart :: part :: parts) =
      "refs/crewplane/runs/".toList ++ joinPath (part :: parts) := by
  rw [shared_parts, joinPath_cons, joinPath_cons, joinPath_cons]

theorem result_joined (base run node slug last : Text) : base ++ run ++ ['/'] ++ node ++ ['/'] ++ slug ++ '/' :: last =
    base ++ joinPath [run, node, slug, last] := by
  simp [joinPath_cons, joinPath_singleton]

theorem import_joined (base run imports node slug commit importId : Text) :
    base ++ run ++ '/' :: (imports ++ ['/']) ++ node ++ ['/'] ++ slug ++ ['/'] ++ commit ++ ['-'] ++ importId =
      base ++ joinPath [run, imports, node, slug, commit ++ '-' :: importId] := by
  simp [joinPath_cons, joinPath_singleton]

theorem refName_eq (runKeyName : Text) (i : InvocationIdentity) (kind : RefKind) :
    refName sha256 runKeyName i kind = joinPath (refParts sha256 runKeyName i kind) := by
  cases kind with
  | candidate => exact (result_joined _ _ _ _ candidatePart).trans (joinPath_shared _ _).symm
  | result => exact (result_joined _ _ _ _ resultPart).trans (joinPath_shared _ _).symm
  | temporaryImport sourceCommit importId =>
    exact (import_joined _ _ importsPart _ _ _ _).trans (joinPath_shared _ _).symm

/-! ## What git accepts -/

theorem validRefPart_of_component (h : Component part) : validRefPart part = true := by
  have hstart : ¬ ['.'] <+: part := by
    rintro ⟨rest, hrest⟩
    have hhead := h.head '.' (by rw [← hrest]; rfl)
    revert hhead
    decide
  have hend : ¬ ['.'] <:+ part := by
    rintro ⟨front, hfront⟩
    apply h.last
    rw [← hfront]
    simp
  have hdot : part ≠ ['.'] := fun heq => hstart (by rw [heq])
  have hdots : part ≠ ['.', '.'] := fun heq => hstart (by rw [heq]; exact ⟨['.'], rfl⟩)
  simp [validRefPart, h.ne_nil, hdot, hdots, hstart, hend, h.lock]

theorem safe_range {c : Char} (h : safeChar c = true) : 32 ≤ c.toNat ∧ c.toNat ≠ 127 := by
  simp only [safeChar, Char.isAlphanum, Char.isAlpha, Char.isUpper, Char.isLower, Char.isDigit, Bool.or_eq_true,
    Bool.and_eq_true, decide_eq_true_eq, UInt32.le_iff_toNat_le, ge_iff_le] at h
  rcases h with (((((h | h) | h) | rfl) | rfl) | rfl)
  · obtain ⟨hlow, hhigh⟩ : 65 ≤ c.toNat ∧ c.toNat ≤ 90 := h
    omega
  · obtain ⟨hlow, hhigh⟩ : 97 ≤ c.toNat ∧ c.toNat ≤ 122 := h
    omega
  · obtain ⟨hlow, hhigh⟩ : 48 ≤ c.toNat ∧ c.toNat ≤ 57 := h
    omega
  all_goals decide

theorem safe_not_forbidden {c : Char} (h : safeChar c = true) : forbiddenRefChar c = false ∧ c ≠ '@' := by
  obtain ⟨hlow, hdel⟩ := safe_range h
  constructor
  · have hlist : c ∉ [' ', '~', '^', ':', '?', '*', '[', '\\'] := by
      intro hmem
      simp only [List.mem_cons, List.not_mem_nil, or_false] at hmem
      rcases hmem with rfl | rfl | rfl | rfl | rfl | rfl | rfl | rfl <;> simp [safeChar] at h
    have hnat : ¬ c.toNat < 32 := by omega
    simp [forbiddenRefChar, hnat, hdel]
    simpa using hlist
  · rintro rfl
    revert h
    decide

/-- What a path of components is as a text. -/
structure PathText (text : Text) : Prop where
  ne_nil : text ≠ []
  chars : ∀ c ∈ text, c = '/' ∨ safeChar c = true
  head : ∀ c ∈ text.head?, c ≠ '/' ∧ c ≠ '.'
  last : ∀ c ∈ text.getLast?, c ≠ '/' ∧ c ≠ '.'
  dots : hasPair '.' '.' text = false
  slashes : hasPair '/' '/' text = false

theorem hasPair_false {x y : Char} {text : Text} (h : x ∉ text) : hasPair x y text = false := by
  induction text with
  | nil => rfl
  | cons c text ih =>
    have hc : c ≠ x := fun he => h (he ▸ List.mem_cons_self)
    rw [hasPair_cons, ih fun hmem => h (List.mem_cons_of_mem c hmem)]
    simp [hc]

theorem pathText_component (h : Component part) : PathText part where
  ne_nil := h.ne_nil
  chars c hc := Or.inr (h.safe c hc)
  head c hc := by
    refine ⟨safe_ne_slash (h.safe c (List.mem_of_head? hc)), ?_⟩
    rintro rfl
    have hhead := h.head '.' hc
    revert hhead
    decide
  last c hc := by
    refine ⟨safe_ne_slash (h.safe c (mem_getLast? hc)), ?_⟩
    rintro rfl
    exact h.last hc
  dots := h.dots
  slashes := hasPair_false fun hmem => safe_ne_slash (h.safe '/' hmem) rfl

theorem PathText.cons {text : Text} (ha : PathText part) (hb : PathText text) : PathText (part ++ '/' :: text) where
  ne_nil := by simp
  chars c hc := by
    rcases List.mem_append.mp hc with hc | hc
    · exact ha.chars c hc
    · rcases List.mem_cons.mp hc with rfl | hc
      · exact Or.inl rfl
      · exact hb.chars c hc
  head c hc := by
    apply ha.head c
    rwa [List.head?_append_of_ne_nil _ ha.ne_nil] at hc
  last c hc := by
    apply hb.last c
    rw [List.getLast?_append_of_ne_nil _ (List.cons_ne_nil _ _)] at hc
    cases text with
    | nil => exact absurd rfl hb.ne_nil
    | cons d text => rwa [List.getLast?_cons_cons] at hc
  dots := by
    rw [hasPair_append, ha.dots, hasPair_cons, hb.dots]
    simp
  slashes := by
    have hhead : text.head? ≠ some '/' := fun h => (hb.head '/' h).1 rfl
    have hlast : part.getLast? ≠ some '/' := fun h => (ha.last '/' h).1 rfl
    rw [hasPair_append, ha.slashes, hasPair_cons, hb.slashes]
    simp [hhead, hlast]

theorem pathText_join {parts : List Text} (hne : parts ≠ []) (h : ∀ part ∈ parts, Component part) :
    PathText (joinPath parts) := by
  induction parts with
  | nil => exact absurd rfl hne
  | cons a rest ih =>
    have ha := pathText_component (h a List.mem_cons_self)
    cases rest with
    | nil => rwa [joinPath_singleton]
    | cons b rest =>
      rw [joinPath_cons]
      exact ha.cons (ih (List.cons_ne_nil b rest) fun part hpart => h part (List.mem_cons_of_mem a hpart))

theorem no_slash (h : Component part) : '/' ∉ part := fun hmem => safe_ne_slash (h.safe '/' hmem) rfl

/-- git accepts every path of components. -/
theorem gitRefSyntaxIssue_join {parts : List Text} (hne : parts ≠ []) (h : ∀ part ∈ parts, Component part) :
    gitRefSyntaxIssue (joinPath parts) = none := by
  have htext := pathText_join hne h
  have hends : ∀ c, (c = '/' ∨ c = '.') → ¬ [c] <:+ joinPath parts := by
    rintro c hc ⟨front, hfront⟩
    have hlast := htext.last c (by rw [← hfront]; simp)
    rcases hc with rfl | rfl
    · exact hlast.1 rfl
    · exact hlast.2 rfl
  have hat : hasPair '@' '\x7b' (joinPath parts) = false := by
    apply hasPair_false
    intro hmem
    rcases htext.chars '@' hmem with hc | hc
    · cases hc
    · exact (safe_not_forbidden hc).2 rfl
  have hplain : (joinPath parts).any forbiddenRefChar = false := by
    rw [List.any_eq_false]
    intro c hc
    rcases htext.chars c hc with rfl | hc
    · decide
    · simp [(safe_not_forbidden hc).1]
  have hparts : ((joinPath parts).splitOn '/').all validRefPart = true := by
    rw [splitOn_joinPath (fun part hpart => no_slash (h part hpart)) hne, List.all_eq_true]
    exact fun part hpart => validRefPart_of_component (h part hpart)
  rw [gitRefSyntaxIssue, if_neg, hplain, hparts]
  · rfl
  · simp [hends, htext.dots, htext.slashes, hat]

/-! ## The refs of a run -/

theorem component_lower (hne : part ≠ []) (hall : part.all Char.isLower = true) (hk : part.getLast? ≠ some 'k') :
    Component part := by
  have hlower := List.all_eq_true.mp hall
  exact {
  ne_nil := hne
  safe c hc := by simp [safeChar, Char.isAlphanum, Char.isAlpha, hlower c hc]
  head c hc := by
    have hl := hlower c (List.mem_of_head? hc)
    have hdot : c ≠ '.' := by
      rintro rfl
      simp at hl
    have hdash : c ≠ '-' := by
      rintro rfl
      simp at hl
    simp [edgeChar, hdot, hdash]
  last h := by
    have hl := hlower '.' (List.mem_of_getLast? h)
    simp at hl
  dots := hasPair_false fun h => by
    have hl := hlower '.' h
    simp at hl
  lock h := hk (last_of_lock h) }

theorem component_literals : Component refsPart ∧ Component crewplanePart ∧ Component runsPart ∧
    Component candidatePart ∧ Component resultPart ∧ Component importsPart := by
  refine ⟨?_, ?_, ?_, ?_, ?_, ?_⟩
  all_goals exact component_lower (by decide) rfl (by decide)

/-- The import ids are 16 hexadecimal digits, as `uuid4().hex[:16]` is. -/
def RefKind.Proper : RefKind → Prop
  | .temporaryImport _ importId => importId.length = 16 ∧ ∀ c ∈ importId, c ∈ hexDigits
  | _ => True

theorem component_tail (hsha : HexDigest sha256) {kind : RefKind} (hkind : kind.Proper) {node slug : Text}
    (hnode : Component node) (hslug : Component slug) : ∀ part ∈ kind.tail sha256 node slug, Component part := by
  obtain ⟨-, -, -, hcandidate, hresult, himports⟩ := component_literals
  cases kind with
  | candidate => simp [RefKind.tail, hnode, hslug, hcandidate]
  | result => simp [RefKind.tail, hnode, hslug, hresult]
  | temporaryImport sourceCommit importId =>
    obtain ⟨hlen, hhex⟩ := hkind
    have hne : importId ≠ [] := by
      rintro rfl
      cases hlen
    have hcommit := component_safeRefComponent hsha (sourceCommit.take 24)
    have hlast := component_append hcommit.ne_nil hcommit.safe hcommit.head hcommit.dots
      (fun c hc => Or.inr (hhex c hc)) (fun c hc => hhex c (mem_getLast? hc)) hne
    simp [RefKind.tail, hnode, hslug, himports, hlast]

theorem component_refParts (hsha : HexDigest sha256) (runKeyName : Text) (i : InvocationIdentity) {kind : RefKind}
    (hkind : kind.Proper) : ∀ part ∈ refParts sha256 runKeyName i kind, Component part := by
  obtain ⟨hrefs, hcrewplane, hruns, -⟩ := component_literals
  have hvalue := component_safeRefComponent hsha
  have htail := component_tail hsha hkind (hvalue i.nodeId) (hvalue (invocationSlug sha256 i))
  have hrun := hvalue runKeyName
  rw [refParts]
  simp only [List.mem_cons, forall_eq_or_imp]
  exact ⟨hrefs, hcrewplane, hruns, hrun, htail⟩

/-- Two kinds of the same invocation: imports differ in their ids. -/
def RefKind.Distinct : RefKind → RefKind → Prop
  | .temporaryImport _ importId, .temporaryImport _ importId' => importId ≠ importId'
  | kind, kind' => kind ≠ kind'

theorem refParts_ne_nil (runKeyName : Text) (i : InvocationIdentity) (kind : RefKind) :
    refParts sha256 runKeyName i kind ≠ [] := List.cons_ne_nil _ _

/-- Equal parts: the same slug component, and kinds that are not distinct. -/
theorem tail_eq {node slug node' slug' : Text} {kind kind' : RefKind} (hkind : kind.Proper) (hkind' : kind'.Proper)
    (heq : kind.tail sha256 node slug = kind'.tail sha256 node' slug') : slug = slug' ∧ ¬ kind.Distinct kind' := by
  cases kind <;> cases kind' <;> simp only [RefKind.tail, List.cons.injEq, and_true, reduceCtorEq, and_false] at heq
  · exact ⟨heq.2, by simp [RefKind.Distinct]⟩
  · exact absurd heq.2.2 (by decide)
  · exact absurd heq.2.2 (by decide)
  · exact ⟨heq.2, by simp [RefKind.Distinct]⟩
  · refine ⟨heq.2.2.1, fun hdistinct => hdistinct ?_⟩
    have htail := (List.append_inj' heq.2.2.2 (by simp [hkind.1, hkind'.1])).2
    exact (List.cons.inj htail).2

/-- The parts of a ref do not start those of another: only an import has more, and its slug is too long to be the
last part of a candidate or a result. -/
theorem tail_not_start {node slug node' slug' : Text} (hlong : 12 < slug'.length) {kind kind' : RefKind}
    {more : List Text} (hmore : more ≠ [])
    (heq : kind'.tail sha256 node' slug' = kind.tail sha256 node slug ++ more) : False := by
  obtain ⟨part, rest, rfl⟩ := List.exists_cons_of_ne_nil hmore
  cases kind <;> cases kind' <;>
    simp only [RefKind.tail, List.cons_append, List.nil_append, List.cons.injEq, reduceCtorEq, and_false] at heq
  · rw [heq.2.2.1] at hlong
    revert hlong
    decide
  · rw [heq.2.2.1] at hlong
    revert hlong
    decide

theorem refParts_tail {runKeyName : Text} {kind kind' : RefKind} {more : List Text}
    (heq : refParts sha256 runKeyName j kind' = refParts sha256 runKeyName i kind ++ more) :
    kind'.tail sha256 (safeRefComponent sha256 j.nodeId) (safeRefComponent sha256 (invocationSlug sha256 j)) =
      kind.tail sha256 (safeRefComponent sha256 i.nodeId) (safeRefComponent sha256 (invocationSlug sha256 i)) ++ more := by
  simpa only [refParts, List.cons_append, List.cons.injEq, true_and] using heq

/-- Two refs of one run, of different invocations or of distinct kinds of one: both are refs git accepts, they are
different, and neither is a directory of the other. -/
theorem refs_never_collide (sha256 : Text → Text) (hsha : HexDigest sha256) (runKeyName : Text)
    (i j : InvocationIdentity) (hinj : Set.InjOn (shortHash sha256) (hashedTexts sha256 i ∪ hashedTexts sha256 j))
    (kind kind' : RefKind) (hkind : kind.Proper) (hkind' : kind'.Proper) (hne : i ≠ j ∨ kind.Distinct kind') :
    gitRefSyntaxIssue (refName sha256 runKeyName i kind) = none ∧
      gitRefSyntaxIssue (refName sha256 runKeyName j kind') = none ∧
      refName sha256 runKeyName i kind ≠ refName sha256 runKeyName j kind' ∧
      ¬ PathPrefix (refName sha256 runKeyName i kind) (refName sha256 runKeyName j kind') ∧
      ¬ PathPrefix (refName sha256 runKeyName j kind') (refName sha256 runKeyName i kind) := by
  have hparts := component_refParts hsha runKeyName i hkind
  have hparts' := component_refParts hsha runKeyName j hkind'
  have hslash : ∀ part ∈ refParts sha256 runKeyName i kind, '/' ∉ part := fun part h => no_slash (hparts part h)
  have hslash' : ∀ part ∈ refParts sha256 runKeyName j kind', '/' ∉ part := fun part h => no_slash (hparts' part h)
  have hnil := @refParts_ne_nil sha256 runKeyName i kind
  have hnil' := @refParts_ne_nil sha256 runKeyName j kind'
  simp only [refName_eq]
  refine ⟨gitRefSyntaxIssue_join hnil hparts, gitRefSyntaxIssue_join hnil' hparts', ?_, ?_, ?_⟩
  · intro heq
    have hsame := joinPath_inj hslash hslash' hnil hnil' heq
    rw [← List.append_nil (refParts sha256 runKeyName j kind')] at hsame
    obtain ⟨hslug, hdistinct⟩ := tail_eq hkind hkind' (by simpa using refParts_tail hsame)
    exact hne.elim (fun hij => hij (slugComponent_distinct hsha hinj hslug)) hdistinct
  · intro hbelow
    obtain ⟨more, hmore, hsame⟩ := parts_of_below hslash hslash' hnil hnil' hbelow
    exact tail_not_start (length_slugComponent hsha j) hmore (refParts_tail hsame)
  · intro hbelow
    obtain ⟨more, hmore, hsame⟩ := parts_of_below hslash' hslash hnil' hnil hbelow
    exact tail_not_start (length_slugComponent hsha i) hmore (refParts_tail hsame)

/-! ### Two rounds of a node called `imports` -/

def sampleInvocation : InvocationIdentity := ⟨"imports".toList, "review..lock".toList, none, 1⟩

def sampleAudit : InvocationIdentity := ⟨"imports".toList, "review.lock".toList, some 2, 1⟩

/-- The digests of the texts that are hashed for the two. -/
def sampleDigests : Dict Text Text := [
  ("[\"imports\", \"review..lock\", null, 1]".toList,
    "340b58e446b1884261b89255b78279c813bf41eb40d5d303e2be7b039ed1f364".toList),
  ("imports-review..lock-round1--340b58e446b1".toList,
    "06675b4a89e6dee76cd8edce3d1001f068c832ab24973a1ce31302596bfa5722".toList),
  ("[\"imports\", \"review.lock\", 2, 1]".toList,
    "c3e41dfc8cf783488f0796e45d2dac2c210a3c870a55736f0a05ba210faa6cff".toList),
  ("imports-review.lock-audit2-round1--c3e41dfc8cf7".toList,
    "36d7850ba41fe825751a1a5ae92cd45ae1de5e2c0dde0b296f2cb01e843427a2".toList)]

def sampleSha256 (value : Text) : Text := (sampleDigests.get? value).getD (List.replicate 64 '0')

theorem sampleSha256_hex : HexDigest sampleSha256 := by
  have hcheck : (sampleDigests.all fun kv => kv.2.length == 64 && kv.2.all hexDigits.contains) = true := by
    decide +kernel
  have hvalue : ∀ value, (sampleSha256 value).length = 64 ∧ ∀ c ∈ sampleSha256 value, c ∈ hexDigits := by
    intro value
    rw [sampleSha256]
    cases hget : sampleDigests.get? value with
    | none =>
      refine ⟨List.length_replicate, fun c hc => ?_⟩
      rw [List.eq_of_mem_replicate hc]
      decide
    | some digest =>
      have hdigest := List.all_eq_true.mp hcheck _ (Dict.mem_of_get? hget)
      simpa using hdigest
  exact ⟨fun value => (hvalue value).1, fun value => (hvalue value).2⟩

theorem sampleSha256_injOn : Set.InjOn (shortHash sampleSha256)
    (hashedTexts sampleSha256 sampleInvocation ∪ hashedTexts sampleSha256 sampleAudit) := by
  have hkeys : ∀ a ∈ sampleDigests, ∀ b ∈ sampleDigests,
      shortHash sampleSha256 a.1 = shortHash sampleSha256 b.1 → a.1 = b.1 := by decide +kernel
  have hmem : ∀ value ∈ hashedTexts sampleSha256 sampleInvocation ∪ hashedTexts sampleSha256 sampleAudit,
      ∃ kv ∈ sampleDigests, kv.1 = value := by
    rintro value ((rfl | rfl | rfl) | (rfl | rfl | rfl))
    all_goals decide +kernel
  intro a ha b hb heq
  obtain ⟨ka, hka, rfl⟩ := hmem a ha
  obtain ⟨kb, hkb, rfl⟩ := hmem b hb
  exact hkeys ka hka kb hkb heq

def sampleImport : RefKind := .temporaryImport "0123456789abcdef".toList "00112233445566ff".toList

theorem sampleImport_proper : sampleImport.Proper := by
  have hcheck : ("00112233445566ff".toList.all hexDigits.contains) = true := by decide +kernel
  refine ⟨rfl, fun c hc => ?_⟩
  simpa using List.all_eq_true.mp hcheck c hc

theorem refs_never_collide_imports :
    refName sampleSha256 "run".toList sampleInvocation .candidate ≠
      refName sampleSha256 "run".toList sampleAudit sampleImport :=
  (refs_never_collide sampleSha256 sampleSha256_hex "run".toList sampleInvocation sampleAudit sampleSha256_injOn
    .candidate sampleImport trivial sampleImport_proper (Or.inl (by decide +kernel))).2.2.1

end Crewplane.Workspace
