import Crewplane.Claude.Values
import Mathlib.Logic.Relation
/-
# A value is skipped

The derivation of a value is walked with advances of the container stack (`Steps`). A rule of the grammar
carries the white space after a structural character, the parser drops it only when it looks next; so a
walk ends up to white space in front of the text that is left.
-/
namespace Crewplane.Claude

open Lib Lib.Rfc8259

variable {sel : ResultSelection} {s t u w x : List Char} {c : Char} {k : JsonContainer}

/-! ## First characters -/

theorem isWs_head (h : dropWs w = c :: t) : isWs c = false := by
  have hhead := List.head?_dropWhile_not isWs w
  rw [← dropWs, h] at hhead
  simpa using hhead

theorem dropWs_append_cons (h : dropWs w = c :: t) (s : List Char) : dropWs (w ++ s) = c :: (t ++ s) := by
  obtain ⟨l, hl, hw⟩ := dropWs_split w
  rw [h] at hw
  rw [hw, List.append_assoc, dropWs_append hl, List.cons_append, dropWs_cons (isWs_head h)]

theorem structural_dropWs (h : Structural c t) (hc : isWs c = false) : ∃ r, Ws r ∧ dropWs t = c :: r := by
  obtain ⟨l, r, hl, hr, rfl⟩ := h
  exact ⟨r, hr, by rw [dropWs_append hl, dropWs_cons hc]⟩

theorem follow_structural (h : Structural c t) (hc : c ∈ jsonScalarEnd) (s : List Char) : Follow (t ++ s) := by
  obtain ⟨l, r, hl, -, rfl⟩ := h
  rcases l with - | ⟨d, l⟩
  · simpa [Follow] using hc
  · have hd := hl d List.mem_cons_self
    simp only [Follow, List.cons_append, List.head?_cons, Option.mem_some_iff, forall_eq']
    exact List.mem_append_left _ (mem_jsonWhitespace.mpr hd)

theorem follow_more (h : MoreText k w) (hs : Follow s) : Follow (w ++ s) := by
  cases k with
  | array =>
    obtain ⟨vs, h⟩ := h
    cases h with
    | noValues => exact hs
    | moreValues ht _ _ =>
      rw [List.append_assoc, List.append_assoc]
      exact follow_structural ht (by decide) _
  | object =>
    obtain ⟨ms, h⟩ := h
    cases h with
    | noMembers => exact hs
    | moreMembers ht _ _ =>
      rw [List.append_assoc, List.append_assoc]
      exact follow_structural ht (by decide) _

/-- The first character of a scalar starts nothing else. -/
theorem scalar_head (h : w ∈ literals ∨ Number w) :
    ∃ c v, w = c :: v ∧ isWs c = false ∧ c ∉ ['"', '\x7b', '[', ']', '\x7d'] := by
  rcases h with h | h
  · simp only [literals, List.mem_cons, List.not_mem_nil, or_false] at h
    rcases h with rfl | rfl | rfl <;> exact ⟨_, _, rfl, by decide, by decide⟩
  · rcases w with - | ⟨c, v⟩
    · rw [number_iff] at h
      simp [Unsigned, IntPart] at h
    · obtain ⟨q, hq, -⟩ := startJsonNumber_accepts.mpr h
      have hstart : ∀ d, startJsonNumber d = none → c ≠ d := by
        rintro d hd rfl
        simp [hd] at hq
      refine ⟨c, v, rfl, ?_, ?_⟩
      · simp [isWs, hstart ' ' (by decide), hstart '\t' (by decide), hstart '\n' (by decide), hstart '\r' (by decide)]
      · simp [hstart '"' (by decide), hstart '\x7b' (by decide), hstart '[' (by decide), hstart ']' (by decide),
          hstart '\x7d' (by decide)]

theorem stringText_head {e : List Element} (h : StringText w e) : ∃ v, w = '"' :: v := by
  obtain ⟨v, ps, rfl, -, -⟩ := h
  exact ⟨_, rfl⟩

/-! ## The start of a value -/

theorem skipWhitespace_to (sel : ResultSelection) (h : dropWs s = c :: t) : skipWhitespace (onText s sel) = .ok () (onText (c :: t) sel) :=
  skipWhitespace_ok.mpr ⟨by simp [h], by rw [h]⟩

theorem consumeValueStart_dropWs (hx : dropWs x = c :: u) :
    consumeValueStart (onText x sel) = consumeValueStart (onText (c :: u) sel) := by
  have hfirst := skipWhitespace_to sel hx
  have hsecond := skipWhitespace_to sel (dropWs_cons (isWs_head hx) u)
  simp only [consumeValueStart, Bind.bind, EStateM.bind, hfirst, hsecond]

theorem consumeValueStart_scalar (sel : ResultSelection) (h : w ∈ literals ∨ Number w) (hs : Follow s) (hx : dropWs x = w ++ s) :
    consumeValueStart (onText x sel) = .ok none (onText s sel) := by
  obtain ⟨c, v, rfl, -, hne⟩ := scalar_head h
  simp only [List.mem_cons, List.not_mem_nil, or_false, not_or] at hne
  refine bind_ok.mpr ⟨(), _, skipWhitespace_to sel hx, bind_ok.mpr ⟨_, _, peek_onText, ?_⟩⟩
  simp only [List.head?_cons]
  rw [if_neg hne.1, if_neg (show ¬ c = JsonContainer.object.opener from hne.2.1),
    if_neg (show ¬ c = JsonContainer.array.opener from hne.2.2.1)]
  exact bind_ok.mpr ⟨(), _, skipScalar_ok.mpr ⟨c :: v, s, rfl, hs, h, rfl⟩, pure_ok.mpr ⟨rfl, rfl⟩⟩

theorem consumeValueStart_string (sel : ResultSelection) {e : List Element} (h : StringText w e) (hx : dropWs x = w ++ s) :
    consumeValueStart (onText x sel) = .ok none (onText s sel) := by
  obtain ⟨v, hv⟩ := stringText_head h
  refine bind_ok.mpr ⟨(), _, skipWhitespace_to sel (hx.trans (by rw [hv, List.cons_append])),
    bind_ok.mpr ⟨_, _, peek_onText, ?_⟩⟩
  simp only [List.head?_cons, if_true]
  refine bind_ok.mpr ⟨(), _, skipString_ok.mpr ⟨w, e, s, by rw [hv, List.cons_append], h, rfl⟩, pure_ok.mpr ⟨rfl, rfl⟩⟩

theorem consumeValueStart_open (sel : ResultSelection) (hx : dropWs x = k.opener :: s) :
    consumeValueStart (onText x sel) = .ok (some k) (onText s sel) := by
  refine bind_ok.mpr ⟨(), _, skipWhitespace_to sel hx, bind_ok.mpr ⟨_, _, peek_onText, ?_⟩⟩
  simp only [List.head?_cons]
  cases k with
  | object =>
    rw [if_neg (by decide), if_pos rfl]
    exact bind_ok.mpr ⟨(), _, expect_cons _, pure_ok.mpr ⟨rfl, rfl⟩⟩
  | array =>
    rw [if_neg (by decide), if_neg (by decide), if_pos rfl]
    exact bind_ok.mpr ⟨(), _, expect_cons _, pure_ok.mpr ⟨rfl, rfl⟩⟩

/-! ## Advances -/

theorem advance_close {phase : JsonContainerPhase} (below : List JsonContainerFrame) (hphase : phase ≠ .item)
    (hx : dropWs x = k.closer :: s) : advanceContainer ⟨k, phase⟩ below (onText x sel) = .ok below (onText s sel) := by
  refine bind_ok.mpr ⟨(), _, skipWhitespace_to sel hx, ?_⟩
  cases phase with
  | item => exact absurd rfl hphase
  | itemOrEnd =>
    refine bind_ok.mpr ⟨true, onText s sel, ?_, pure_ok.mpr ⟨rfl, rfl⟩⟩
    simp only [consumeEmptyContainer, ne_eq, not_true_eq_false, if_false]
    refine bind_ok.mpr ⟨_, _, peek_onText, ?_⟩
    simp only [List.head?_cons, not_true_eq_false, if_false]
    exact bind_ok.mpr ⟨(), _, expect_cons _, pure_ok.mpr ⟨rfl, rfl⟩⟩
  | separator =>
    refine bind_ok.mpr ⟨false, _, pure_ok.mpr ⟨rfl, rfl⟩, ?_⟩
    simp only [Bool.false_eq_true, if_false, ne_eq, not_true_eq_false]
    refine bind_ok.mpr ⟨false, onText s sel, ?_, pure_ok.mpr ⟨rfl, rfl⟩⟩
    refine bind_ok.mpr ⟨_, _, readRequired_cons _, ?_⟩
    rw [if_pos rfl]
    exact pure_ok.mpr ⟨rfl, rfl⟩

theorem advance_comma (below : List JsonContainerFrame) (hx : dropWs x = ',' :: s) :
    advanceContainer ⟨k, .separator⟩ below (onText x sel) = .ok (⟨k, .item⟩ :: below) (onText s sel) := by
  refine bind_ok.mpr ⟨(), _, skipWhitespace_to sel hx, bind_ok.mpr ⟨false, _, pure_ok.mpr ⟨rfl, rfl⟩, ?_⟩⟩
  simp only [Bool.false_eq_true, if_false, ne_eq, not_true_eq_false]
  refine bind_ok.mpr ⟨true, onText s sel, ?_, pure_ok.mpr ⟨rfl, rfl⟩⟩
  refine bind_ok.mpr ⟨_, _, readRequired_cons _, ?_⟩
  rw [if_neg (by cases k <;> decide), if_neg (not_not.mpr rfl)]
  exact pure_ok.mpr ⟨rfl, rfl⟩

theorem advance_item {phase : JsonContainerPhase} (below : List JsonContainerFrame) {nested : Option JsonContainer}
    (hphase : phase ≠ .separator) (hx : dropWs x = c :: s) (hc : c ≠ k.closer)
    (hitem : skipContainerItem ⟨k, phase⟩ (onText (c :: s) sel) = .ok nested (onText t sel)) :
    advanceContainer ⟨k, phase⟩ below (onText x sel) = .ok (enter (⟨k, .separator⟩ :: below) nested) (onText t sel) := by
  refine bind_ok.mpr ⟨(), _, skipWhitespace_to sel hx, bind_ok.mpr ⟨false, onText (c :: s) sel, ?_, ?_⟩⟩
  · simp only [consumeEmptyContainer]
    split
    · exact pure_ok.mpr ⟨rfl, rfl⟩
    · refine bind_ok.mpr ⟨_, _, peek_onText, ?_⟩
      rw [if_pos (by simpa using hc)]
      exact pure_ok.mpr ⟨rfl, rfl⟩
  · simp only [Bool.false_eq_true, if_false]
    rw [if_pos hphase]
    exact bind_ok.mpr ⟨nested, _, hitem, pure_ok.mpr ⟨rfl, rfl⟩⟩

/-! ## Walks -/

/-- One advance of the stack, whatever has been selected. -/
def Step (p q : List JsonContainerFrame × List Char) : Prop :=
  ∃ frame below, p.1 = frame :: below ∧ ∀ sel, advanceContainer frame below (onText p.2 sel) = .ok q.1 (onText q.2 sel)

abbrev Steps := Relation.ReflTransGen Step

theorem step_length {p q : List JsonContainerFrame × List Char} (h : Step p q) : q.2.length < p.2.length := by
  obtain ⟨frame, below, -, h⟩ := h
  have hnet := (net_advanceContainer frame below _).ok (le_refl _) (h ⟨none, none⟩)
  simp only [left, JsonCharCursor.rest, List.drop_nil, List.flatten_nil, List.append_nil] at hnet
  omega

theorem steps_loop {frames : List JsonContainerFrame} {n : Nat} (h : Steps (frames, x) ([], s)) (hn : x.length < n) :
    skipContainerTailLoop frames n (onText x sel) = .ok () (onText s sel) := by
  induction n generalizing frames x with
  | zero => omega
  | succ n ih =>
    rcases Relation.ReflTransGen.cases_head h with heq | ⟨⟨frames', x'⟩, hstep, hsteps⟩
    · cases heq
      exact pure_ok.mpr ⟨rfl, rfl⟩
    · have hlen := step_length hstep
      obtain ⟨frame, below, rfl, hstep⟩ := hstep
      exact bind_ok.mpr ⟨frames', onText x' sel, hstep sel, ih hsteps (by simp only at hlen; omega)⟩

/-- The item in front of `s` is walked, whatever lies below. -/
def ItemWalked (k : JsonContainer) (x s : List Char) : Prop :=
  ∃ nested t, (∀ phase sel, skipContainerItem ⟨k, phase⟩ (onText x sel) = .ok nested (onText t sel)) ∧
    ∀ below, ∃ t', Steps (enter below nested, t) (below, t') ∧ dropWs t' = dropWs s

/-- Further items are walked, from one state after an item to another. -/
def MoreWalked (k : JsonContainer) (x s : List Char) : Prop :=
  ∀ below, ∃ t, Steps (⟨k, .separator⟩ :: below, x) (⟨k, .separator⟩ :: below, t) ∧ dropWs t = dropWs s

/-- `ItemWalked` for an item text that may have white space before it. -/
def ItemAt (k : JsonContainer) (i s : List Char) : Prop :=
  ∃ c u, dropWs (i ++ s) = c :: u ∧ c ≠ k.closer ∧ ItemWalked k (c :: u) s

theorem itemAt_step (phase : JsonContainerPhase) {i : List Char} (hphase : phase ≠ .separator) (h : ItemAt k i s)
    (hx : dropWs x = dropWs (i ++ s)) (below : List JsonContainerFrame) :
    ∃ t, Steps (⟨k, phase⟩ :: below, x) (⟨k, .separator⟩ :: below, t) ∧ dropWs t = dropWs s := by
  obtain ⟨c, u, hcu, hc, nested, t, hitem, hsteps⟩ := h
  obtain ⟨t', hsteps, ht'⟩ := hsteps (⟨k, .separator⟩ :: below)
  refine ⟨t', .head ⟨_, _, rfl, fun sel => ?_⟩ hsteps, ht'⟩
  exact advance_item below hphase (hx.trans hcu) hc (hitem phase sel)

theorem close_step (phase : JsonContainerPhase) {r : List Char} (hphase : phase ≠ .item) (hr : Structural k.closer r)
    (hx : dropWs x = dropWs (r ++ s)) (below : List JsonContainerFrame) :
    ∃ t, Steps (⟨k, phase⟩ :: below, x) (below, t) ∧ dropWs t = dropWs s := by
  obtain ⟨r', hr', hdrop⟩ := structural_dropWs hr (by cases k <;> decide)
  refine ⟨r' ++ s, .single ⟨_, _, rfl, fun sel => ?_⟩, dropWs_append hr' s⟩
  exact advance_close below hphase (hx.trans (dropWs_append_cons hdrop s))

theorem moreWalked_cons {i m : List Char} (ht : Structural ',' t) (hitem : ItemAt k i (m ++ s))
    (hmore : ∀ y, dropWs y = dropWs (m ++ s) → MoreWalked k y s) (hx : dropWs x = dropWs (t ++ i ++ m ++ s)) :
    MoreWalked k x s := by
  intro below
  obtain ⟨r, hr, hdrop⟩ := structural_dropWs ht (by decide)
  have hcomma : dropWs x = ',' :: (r ++ (i ++ (m ++ s))) := by
    simpa using hx.trans (by simpa using dropWs_append_cons hdrop (i ++ (m ++ s)))
  obtain ⟨y, hsteps, hy⟩ := itemAt_step .item (by decide) hitem (dropWs_append hr _) below
  obtain ⟨z, hsteps', hz⟩ := hmore y hy below
  exact ⟨z, .head ⟨_, _, rfl, fun sel => advance_comma below hcomma⟩ (hsteps.trans hsteps'), hz⟩

/-- A container value, given a walk over what is between its brackets. -/
theorem itemAt_container {l y : List Char} (hl : Structural k.opener l)
    (hbody : ∀ x, dropWs x = dropWs y → ∀ below, ∃ t, Steps (⟨k, .itemOrEnd⟩ :: below, x) (below, t) ∧ dropWs t = dropWs s)
    (hw : w ++ s = l ++ y) : ItemAt .array w s := by
  obtain ⟨r, hr, hdrop⟩ := structural_dropWs hl (by cases k <;> decide)
  have hopen := dropWs_append_cons hdrop y
  refine ⟨k.opener, r ++ y, hw ▸ hopen, by cases k <;> decide, some k, r ++ y, fun phase sel => ?_, fun below => ?_⟩
  · have hcons := dropWs_cons (isWs_head hopen) (r ++ y)
    simpa [skipContainerItem] using consumeValueStart_open sel hcons
  · exact hbody (r ++ y) (dropWs_append hr y) below

/-- Every rule of the grammar is walked. -/
theorem walked {r : Rule} (h : Derives w r) : match r with
    | .value _ => ∀ s, Follow s → ItemAt .array w s
    | .member _ => ∀ s, Follow s → ItemAt .object w s
    | .moreValues _ => ∀ s, Follow s → ∀ x, dropWs x = dropWs (w ++ s) → MoreWalked .array x s
    | .moreMembers _ => ∀ s, Follow s → ∀ x, dropWs x = dropWs (w ++ s) → MoreWalked .object x s := by
  have hscalar : ∀ {w : List Char}, w ∈ literals ∨ Number w → ∀ s, Follow s → ItemAt .array w s := by
    intro w hw s hs
    obtain ⟨c, v, rfl, hc, hne⟩ := scalar_head hw
    have hdrop := dropWs_cons hc (v ++ s)
    refine ⟨c, v ++ s, hdrop, by simp at hne; simp [JsonContainer.closer, hne], none, s, fun phase sel => ?_,
      fun below => ⟨s, .refl, rfl⟩⟩
    simpa [skipContainerItem] using consumeValueStart_scalar sel hw hs hdrop
  have hitems : ∀ {k : JsonContainer} {l i m r : List Char}, Structural k.opener l → Structural k.closer r →
      (∀ s, Follow s → ItemAt k i s) → (∀ s, Follow s → ∀ x, dropWs x = dropWs (m ++ s) → MoreWalked k x s) →
      (∀ s, Follow s → Follow (m ++ s)) → ∀ s, Follow s → ItemAt .array (l ++ i ++ m ++ r) s := by
    intro k l i m r hl hr hitem hmore hfollow s hs
    have hr' : Follow (r ++ s) := follow_structural hr (by cases k <;> decide) s
    refine itemAt_container (y := i ++ (m ++ (r ++ s))) hl (fun x hx below => ?_) (by simp)
    obtain ⟨t, hsteps, ht⟩ := itemAt_step .itemOrEnd (by decide) (hitem _ (hfollow _ hr')) hx below
    obtain ⟨t', hsteps', ht'⟩ := hmore _ hr' t ht below
    obtain ⟨t'', hclose, ht''⟩ := close_step .separator (by decide) hr ht' below
    exact ⟨t'', (hsteps.trans hsteps').trans hclose, ht''⟩
  have hempty : ∀ {k : JsonContainer} {l r : List Char}, Structural k.opener l → Structural k.closer r →
      ∀ s, ItemAt .array (l ++ r) s := by
    intro k l r hl hr s
    exact itemAt_container (y := r ++ s) hl (fun x hx below => close_step .itemOrEnd (by decide) hr hx below) (by simp)
  induction h with
  | literal h => exact hscalar (.inl h)
  | number h => exact hscalar (.inr h)
  | @string w e h =>
    intro s hs
    obtain ⟨v, rfl⟩ := stringText_head h
    have hdrop : dropWs ('"' :: v ++ s) = '"' :: (v ++ s) := dropWs_cons (by decide) _
    refine ⟨'"', v ++ s, hdrop, by decide, none, s, fun phase sel => ?_, fun below => ⟨s, .refl, rfl⟩⟩
    simpa [skipContainerItem] using consumeValueStart_string sel h hdrop
  | emptyArray hl hr => exact fun s _ => hempty (k := .array) hl hr s
  | emptyObject hl hr => exact fun s _ => hempty (k := .object) hl hr s
  | array hl _ hvs hr ihv ihvs =>
    exact hitems (k := .array) hl hr ihv ihvs fun s hs => follow_more (k := .array) ⟨_, hvs⟩ hs
  | object hl _ hms hr ihm ihms =>
    exact hitems (k := .object) hl hr ihm ihms fun s hs => follow_more (k := .object) ⟨_, hms⟩ hs
  | @member key t w e v hkey ht hv ihv =>
    intro s hs
    obtain ⟨c, u, hcu, -, nested, y, hitem, hsteps⟩ := ihv s hs
    obtain ⟨k, hk⟩ := stringText_head hkey
    obtain ⟨r, hr, hdrop⟩ := structural_dropWs ht (by decide)
    have hquote : key ++ t ++ w ++ s = '"' :: (k ++ (t ++ (w ++ s))) := by simp [hk]
    have hcolon := dropWs_append_cons hdrop (w ++ s)
    have hstart : dropWs (r ++ (w ++ s)) = c :: u := (dropWs_append hr _).trans hcu
    refine ⟨'"', k ++ (t ++ (w ++ s)), hquote ▸ dropWs_cons (by decide) _, by decide, nested, y, fun phase sel => ?_, hsteps⟩
    have hvalue := hitem phase sel
    simp only [skipContainerItem, reduceCtorEq, if_false] at hvalue
    simp only [skipContainerItem, if_true]
    refine bind_ok.mpr ⟨(), _, skipString_ok.mpr ⟨key, e, t ++ (w ++ s), by simp [hk], hkey, rfl⟩, ?_⟩
    refine bind_ok.mpr ⟨(), _, skipWhitespace_to sel hcolon, bind_ok.mpr ⟨(), _, expect_cons _, ?_⟩⟩
    rw [consumeValueStart_dropWs hstart]
    exact hvalue
  | noValues => exact fun s _ x hx below => ⟨x, .refl, hx⟩
  | noMembers => exact fun s _ x hx below => ⟨x, .refl, hx⟩
  | moreValues ht _ hvs ihv ihvs =>
    intro s hs x hx
    exact moreWalked_cons ht (ihv _ (follow_more (k := .array) ⟨_, hvs⟩ hs)) (ihvs s hs) hx
  | moreMembers ht _ hms ihm ihms =>
    intro s hs x hx
    exact moreWalked_cons ht (ihm _ (follow_more (k := .object) ⟨_, hms⟩ hs)) (ihms s hs) hx

theorem skipValue_walked (sel : ResultSelection) {v : Value} (h : Derives w (.value v)) (hs : Follow s) (hx : dropWs x = dropWs (w ++ s)) :
    ∃ t, skipValue (onText x sel) = .ok () (onText t sel) ∧ dropWs t = dropWs s := by
  obtain ⟨c, u, hcu, -, nested, y, hitem, hsteps⟩ := walked h s hs
  obtain ⟨t, hsteps, ht⟩ := hsteps []
  have hstart := hitem .item sel
  simp only [skipContainerItem, reduceCtorEq, if_false] at hstart
  refine ⟨t, bind_ok.mpr ⟨nested, onText y sel, ?_, ?_⟩, ht⟩
  · rw [consumeValueStart_dropWs (hx.trans hcu)]
    exact hstart
  · cases nested with
    | none =>
      rcases Relation.ReflTransGen.cases_head hsteps with heq | ⟨_, ⟨_, _, hnil, -⟩, -⟩
      · cases heq
        exact pure_ok.mpr ⟨rfl, rfl⟩
      · cases hnil
    | some container =>
      simp only [skipContainerTail, fueled_onText]
      exact steps_loop hsteps (Nat.lt_succ_self _)

end Crewplane.Claude
