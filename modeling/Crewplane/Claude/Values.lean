import Crewplane.Claude.Strings
/-
# What is skipped is a value

The stack of frames says what the text still has to hold: each frame the rest of one container
(`FrameText`), all of them together `StackText`. An advance takes text that leads from what the new
stack needs to what the old one did, so what is skipped is a value of the grammar.
-/
namespace Crewplane.Claude

open Lib Lib.Rfc8259

variable {sel : ResultSelection} {s t u w : List Char} {st : State} {k : JsonContainer}

/-! ## Texts of items and containers -/

def ValueText (w : List Char) : Prop := ∃ v, Derives w (.value v)

def ItemText : JsonContainer → List Char → Prop
  | .array, w => ValueText w
  | .object, w => ∃ m, Derives w (.member m)

/-- Further items, each behind a separator. -/
def MoreText : JsonContainer → List Char → Prop
  | .array, w => ∃ vs, Derives w (.moreValues vs)
  | .object, w => ∃ ms, Derives w (.moreMembers ms)

theorem moreText_nil : ∀ k, MoreText k []
  | .array => ⟨[], .noValues⟩
  | .object => ⟨[], .noMembers⟩

theorem moreText_cons (ht : Structural ',' t) (hw : ItemText k w) (hu : MoreText k u) : MoreText k (t ++ w ++ u) := by
  cases k with
  | array =>
    obtain ⟨v, hv⟩ := hw
    obtain ⟨vs, hvs⟩ := hu
    exact ⟨v :: vs, .moreValues ht hv hvs⟩
  | object =>
    obtain ⟨m, hm⟩ := hw
    obtain ⟨ms, hms⟩ := hu
    exact ⟨m :: ms, .moreMembers ht hm hms⟩

theorem valueText_empty {l r : List Char} (hl : Structural k.opener l) (hr : Structural k.closer r) : ValueText (l ++ r) := by
  cases k with
  | array => exact ⟨_, .emptyArray hl hr⟩
  | object => exact ⟨_, .emptyObject hl hr⟩

theorem valueText_items {l r : List Char} (hl : Structural k.opener l) (hw : ItemText k w) (hu : MoreText k u)
    (hr : Structural k.closer r) : ValueText (l ++ w ++ u ++ r) := by
  cases k with
  | array =>
    obtain ⟨v, hv⟩ := hw
    obtain ⟨vs, hvs⟩ := hu
    exact ⟨_, .array hl hv hvs hr⟩
  | object =>
    obtain ⟨m, hm⟩ := hw
    obtain ⟨ms, hms⟩ := hu
    exact ⟨_, .object hl hm hms hr⟩

/-! ## What a stack of frames still needs -/

/-- After an item: further ones and the end. -/
def AfterText (k : JsonContainer) (w : List Char) : Prop :=
  ∃ u e, MoreText k u ∧ Structural k.closer e ∧ w = u ++ e

def ItemsText (k : JsonContainer) (w : List Char) : Prop :=
  ∃ l i u, Ws l ∧ ItemText k i ∧ AfterText k u ∧ w = l ++ i ++ u

def FrameText (frame : JsonContainerFrame) (w : List Char) : Prop :=
  match frame.phase with
  | .itemOrEnd => Structural frame.container.closer w ∨ ItemsText frame.container w
  | .item => ItemsText frame.container w
  | .separator => AfterText frame.container w

def StackText : List JsonContainerFrame → List Char → Prop
  | [], w => w = []
  | frame :: below, w => ∃ a b, w = a ++ b ∧ FrameText frame a ∧ StackText below b

/-- What a value still needs after its start. -/
def Opened : Option JsonContainer → List Char → Prop
  | none, w => w = []
  | some nested, w => FrameText ⟨nested, .itemOrEnd⟩ w

theorem opened_stack {below : List JsonContainerFrame} {nested : Option JsonContainer}
    (h : StackText (enter below nested) w) : ∃ a b, w = a ++ b ∧ Opened nested a ∧ StackText below b := by
  cases nested with
  | none => exact ⟨[], w, rfl, rfl, h⟩
  | some nested => exact h

theorem valueText_opened (h : Opened (some k) w) : ValueText (k.opener :: w) := by
  rcases h with h | ⟨l, i, _, hl, hi, ⟨u, e, hu, he, rfl⟩, rfl⟩
  · exact valueText_empty (structural_self _) h
  · have hopen : Structural k.opener (k.opener :: l) := ⟨[], l, ws_nil, hl, rfl⟩
    simpa using valueText_items hopen hi hu he

/-! ## What is skipped is a value -/

theorem structural_of_dropWs {c : Char} (h : dropWs s = c :: t) : ∃ l, Ws l ∧ s = l ++ c :: t ∧ Structural c (l ++ [c]) := by
  obtain ⟨l, hl, hs⟩ := dropWs_split s
  exact ⟨l, hl, h ▸ hs, l, [], hl, ws_nil, rfl⟩

theorem consumeValueStart_taken {nested : Option JsonContainer}
    (h : consumeValueStart (onText s sel) = .ok nested st) :
    ∃ l p t, s = l ++ p ++ t ∧ Ws l ∧ st = onText t sel ∧ ∀ u, Opened nested u → ValueText (p ++ u) := by
  obtain ⟨_, _, hws, hbody⟩ := bind_ok.mp h
  obtain ⟨-, rfl⟩ := skipWhitespace_ok.mp hws
  obtain ⟨l, hl, hs⟩ := dropWs_split s
  obtain ⟨_, _, hpeek, hbranch⟩ := bind_ok.mp hbody
  rw [peek_onText, EStateM.Result.ok.injEq] at hpeek
  obtain ⟨rfl, rfl⟩ := hpeek
  clear h hws hbody
  generalize dropWs s = x at hs hbranch
  subst hs
  rename' hbranch => h
  cases x with
  | nil => exact absurd h malformed_ok
  | cons c x =>
    simp only [List.head?_cons] at h
    split at h
    · obtain ⟨_, _, hstr, h⟩ := bind_ok.mp h
      obtain ⟨p, e, t, hx, hp, rfl⟩ := skipString_ok.mp hstr
      obtain ⟨rfl, rfl⟩ := pure_ok.mp h
      refine ⟨l, p, t, by rw [hx, List.append_assoc], hl, rfl, ?_⟩
      rintro _ rfl
      exact ⟨_, .string (by simpa using hp)⟩
    split at h
    next hc =>
      obtain ⟨_, _, hopen, h⟩ := bind_ok.mp h
      obtain ⟨t, hx, rfl⟩ := expect_ok.mp hopen
      obtain ⟨rfl, rfl⟩ := pure_ok.mp h
      exact ⟨l, [JsonContainer.object.opener], t, by simp [hx], hl, rfl, fun u hu => valueText_opened hu⟩
    split at h
    next hc =>
      obtain ⟨_, _, hopen, h⟩ := bind_ok.mp h
      obtain ⟨t, hx, rfl⟩ := expect_ok.mp hopen
      obtain ⟨rfl, rfl⟩ := pure_ok.mp h
      exact ⟨l, [JsonContainer.array.opener], t, by simp [hx], hl, rfl, fun u hu => valueText_opened hu⟩
    · obtain ⟨_, _, hscalar, h⟩ := bind_ok.mp h
      obtain ⟨p, t, hx, -, hp, rfl⟩ := skipScalar_ok.mp hscalar
      obtain ⟨rfl, rfl⟩ := pure_ok.mp h
      refine ⟨l, p, t, by rw [hx, List.append_assoc], hl, rfl, ?_⟩
      rintro _ rfl
      rw [List.append_nil]
      rcases hp with hp | hp
      · exact ⟨_, .literal hp⟩
      · exact ⟨_, .number hp⟩

theorem skipContainerItem_taken {frame : JsonContainerFrame} {nested : Option JsonContainer}
    (h : skipContainerItem frame (onText s sel) = .ok nested st) :
    ∃ l p t, s = l ++ p ++ t ∧ Ws l ∧ st = onText t sel ∧ ∀ u, Opened nested u → ItemText frame.container (p ++ u) := by
  simp only [skipContainerItem] at h
  split at h
  next hk =>
    obtain ⟨_, _, hskip, hafterKey⟩ := bind_ok.mp h
    obtain ⟨key, e, s, rfl, hkey, rfl⟩ := skipString_ok.mp hskip
    obtain ⟨_, _, hws, hafterWs⟩ := bind_ok.mp hafterKey
    obtain ⟨-, rfl⟩ := skipWhitespace_ok.mp hws
    obtain ⟨_, _, hcolon, hvalue⟩ := bind_ok.mp hafterWs
    obtain ⟨x, hx, rfl⟩ := expect_ok.mp hcolon
    obtain ⟨l, hl, rfl, -⟩ := structural_of_dropWs hx
    obtain ⟨l', p, t, rfl, hl', rfl, hp⟩ := consumeValueStart_taken hvalue
    refine ⟨[], key ++ (l ++ ':' :: l') ++ p, t, by simp, ws_nil, rfl, fun u hu => ?_⟩
    obtain ⟨v, hv⟩ := hp u hu
    rw [hk]
    exact ⟨(e, v), by simpa using Derives.member hkey ⟨l, l', hl, hl', rfl⟩ hv⟩
  next hk =>
    have harray : frame.container = .array := by
      cases hc : frame.container with
      | object => exact absurd hc hk
      | array => rfl
    rw [harray]
    exact consumeValueStart_taken h

theorem readHasNextItem_ok {closer : Char} {b : Bool} (h : readHasNextItem closer (onText s sel) = .ok b st) :
    ∃ t, st = onText t sel ∧ (b = false ∧ s = closer :: t ∨ b = true ∧ s = ',' :: t) := by
  obtain ⟨c, _, hc, h⟩ := bind_ok.mp h
  obtain ⟨t, rfl, rfl⟩ := readRequired_ok.mp hc
  split at h
  next hcloser =>
    obtain ⟨rfl, rfl⟩ := pure_ok.mp h
    exact ⟨t, rfl, .inl ⟨rfl, by rw [hcloser]⟩⟩
  split at h
  · exact absurd h malformed_ok
  next hcomma =>
    obtain ⟨rfl, rfl⟩ := pure_ok.mp h
    exact ⟨t, rfl, .inr ⟨rfl, by rw [not_not.mp hcomma]⟩⟩

theorem consumeEmptyContainer_ok {frame : JsonContainerFrame} {b : Bool}
    (h : consumeEmptyContainer frame (onText s sel) = .ok b st) :
    b = false ∧ st = onText s sel ∨
      b = true ∧ frame.phase = .itemOrEnd ∧ ∃ t, s = frame.container.closer :: t ∧ st = onText t sel := by
  simp only [consumeEmptyContainer] at h
  split at h
  · exact .inl (pure_ok.mp h)
  next hphase =>
    obtain ⟨r, _, hpeek, h⟩ := bind_ok.mp h
    rw [peek_onText, EStateM.Result.ok.injEq] at hpeek
    obtain ⟨rfl, rfl⟩ := hpeek
    split at h
    · exact .inl (pure_ok.mp h)
    · obtain ⟨_, _, hclose, h⟩ := bind_ok.mp h
      obtain ⟨t, rfl, rfl⟩ := expect_ok.mp hclose
      exact .inr ⟨(pure_ok.mp h).1, not_not.mp hphase, t, rfl, (pure_ok.mp h).2⟩

/-- An advance takes text that leads from what the new stack needs to what the old one does. -/
theorem advanceContainer_taken {frame : JsonContainerFrame} {below frames : List JsonContainerFrame}
    (h : advanceContainer frame below (onText s sel) = .ok frames st) :
    ∃ w t, s = w ++ t ∧ st = onText t sel ∧ ∀ u, StackText frames u → StackText (frame :: below) (w ++ u) := by
  obtain ⟨_, _, hws, hbody⟩ := bind_ok.mp h
  obtain ⟨-, rfl⟩ := skipWhitespace_ok.mp hws
  obtain ⟨l, hl, hs⟩ := dropWs_split s
  clear h hws
  generalize dropWs s = x at hs hbody
  subst hs
  obtain ⟨b, _, hempty, hnext⟩ := bind_ok.mp hbody
  rcases consumeEmptyContainer_ok hempty with ⟨rfl, rfl⟩ | ⟨rfl, hphase, t, rfl, rfl⟩
  · simp only [Bool.false_eq_true, if_false] at hnext
    split at hnext
    next hphase =>
      obtain ⟨nested, _, hitem, hret⟩ := bind_ok.mp hnext
      obtain ⟨l', p, t, rfl, hl', rfl, hp⟩ := skipContainerItem_taken hitem
      obtain ⟨rfl, rfl⟩ := pure_ok.mp hret
      refine ⟨l ++ l' ++ p, t, by simp, rfl, fun u hu => ?_⟩
      obtain ⟨a, _, rfl, ha, b, c, rfl, hb, hc⟩ := opened_stack hu
      have hitems : ItemsText frame.container (l ++ l' ++ p ++ a ++ b) :=
        ⟨l ++ l', p ++ a, b, hl.append hl', hp a ha, hb, by simp⟩
      refine ⟨l ++ l' ++ p ++ a ++ b, c, by simp, ?_, hc⟩
      cases hframe : frame.phase with
      | itemOrEnd => simpa [FrameText, hframe] using Or.inr hitems
      | item => simpa [FrameText, hframe] using hitems
      | separator => exact absurd hframe hphase
    next hphase =>
      obtain ⟨b, _, hsep, hret⟩ := bind_ok.mp hnext
      have hseparator : FrameText frame = AfterText frame.container := by
        funext w
        simp [FrameText, not_not.mp hphase]
      obtain ⟨t, rfl, ⟨rfl, rfl⟩ | ⟨rfl, rfl⟩⟩ := readHasNextItem_ok hsep
      · obtain ⟨rfl, rfl⟩ := pure_ok.mp hret
        refine ⟨l ++ [frame.container.closer], t, by simp, rfl, fun u hu => ⟨_, u, rfl, ?_, hu⟩⟩
        rw [hseparator]
        exact ⟨[], l ++ [frame.container.closer], moreText_nil _, ⟨l, [], hl, ws_nil, rfl⟩, rfl⟩
      · obtain ⟨rfl, rfl⟩ := pure_ok.mp hret
        refine ⟨l ++ [','], t, by simp, rfl, ?_⟩
        rintro _ ⟨_, b, rfl, ⟨l', i, _, hl', hi, ⟨m, e, hm, he, rfl⟩, rfl⟩, hb⟩
        refine ⟨l ++ ',' :: l' ++ i ++ m ++ e, b, by simp, ?_, hb⟩
        rw [hseparator]
        exact ⟨l ++ ',' :: l' ++ i ++ m, e, moreText_cons ⟨l, l', hl, hl', rfl⟩ hi hm, he, rfl⟩
  · obtain ⟨rfl, rfl⟩ := pure_ok.mp hnext
    refine ⟨l ++ [frame.container.closer], t, by simp, rfl, fun u hu => ⟨_, u, rfl, ?_, hu⟩⟩
    have hclose : Structural frame.container.closer (l ++ [frame.container.closer]) := ⟨l, [], hl, ws_nil, rfl⟩
    simpa [FrameText, hphase] using Or.inl hclose

theorem skipContainerTailLoop_taken {n : Nat} {frames : List JsonContainerFrame} {v : Unit}
    (h : skipContainerTailLoop frames n (onText s sel) = .ok v st) :
    ∃ w t, s = w ++ t ∧ st = onText t sel ∧ StackText frames w := by
  induction n generalizing frames s with
  | zero =>
    cases frames with
    | nil => exact ⟨[], s, rfl, (pure_ok.mp h).2, rfl⟩
    | cons frame below => cases h
  | succ n ih =>
    cases frames with
    | nil => exact ⟨[], s, rfl, (pure_ok.mp h).2, rfl⟩
    | cons frame below =>
      obtain ⟨frames, _, hadvance, hloop⟩ := bind_ok.mp h
      obtain ⟨w, t, rfl, rfl, hw⟩ := advanceContainer_taken hadvance
      obtain ⟨w', t, rfl, rfl, hw'⟩ := ih hloop
      exact ⟨w ++ w', t, by simp, rfl, hw w' hw'⟩

theorem skipValue_taken {v : Unit} (h : skipValue (onText s sel) = .ok v st) :
    ∃ l w t, s = l ++ w ++ t ∧ Ws l ∧ ValueText w ∧ st = onText t sel := by
  obtain ⟨nested, _, hstart, htail⟩ := bind_ok.mp h
  obtain ⟨l, p, t, rfl, hl, rfl, hp⟩ := consumeValueStart_taken hstart
  cases nested with
  | none =>
    obtain ⟨rfl, rfl⟩ := pure_ok.mp htail
    exact ⟨l, p, t, rfl, hl, by simpa using hp [] rfl, rfl⟩
  | some container =>
    simp only [skipContainerTail, fueled_onText] at htail
    obtain ⟨_, t, rfl, rfl, a, _, rfl, ha, rfl⟩ := skipContainerTailLoop_taken htail
    exact ⟨l, p ++ a, t, by simp, hl, hp a ha, rfl⟩

end Crewplane.Claude
