import Crewplane.Lib.PyJson
/-
# What the decoder accepts

With hooks that refuse repeated keys and numbers that are not finite, a text that `loads` accepts is a JSON text, and
the value is the one that the text stands for (`loads_sound`). The fuel of the decoder never runs out (`loads_fuel`).
-/
namespace Crewplane.Lib.PyJson

open Rfc8259

/-! ## The value of a derivation -/

def literalValue (w : List Char) : Option Value :=
  if w = ['n', 'u', 'l', 'l'] then some .null
  else if w = ['t', 'r', 'u', 'e'] then some (.bool true)
  else if w = ['f', 'a', 'l', 's', 'e'] then some (.bool false)
  else none

def numberText? (w : List Char) : Option NumberText :=
  match NumberText.scan w with
  | some (t, []) => some t
  | _ => none

mutual

/-- The Python value that a JSON value stands for; an integer that is too long for Python stands for none. -/
def value? : Rfc8259.Value → Option Value
  | .literal w => literalValue w
  | .number w => (numberText? w).bind fun t => (numberValue t).toOption
  | .string s => some (.str s)
  | .array vs => (items? vs).map .arr
  | .object ms => (members? ms).map .obj

def items? : List Rfc8259.Value → Option (List Value)
  | [] => some []
  | g :: gs => (value? g).bind fun v => (items? gs).map (v :: ·)

def members? : List (Str × Rfc8259.Value) → Option (List (Str × Value))
  | [] => some []
  | (k, g) :: gs => (value? g).bind fun v => (members? gs).map ((k, v) :: ·)

end

/-! ## Strings -/

theorem scanString_sound {s r : List Char} {ps : List Rfc8259.Piece} (h : scanString s = some (ps, r)) :
    ∃ w, s = w ++ '"' :: r ∧ Chars w ps := by
  fun_induction scanString s generalizing ps r with
  | case1 | case3 | case5 | case6 | case7 | case9 => cases h
  | case2 s =>
    cases h
    exact ⟨[], rfl, .nil⟩
  | case4 x y z w s hhex _ ih =>
    obtain ⟨⟨qs, u⟩, hrest, hfound⟩ := Option.map_eq_some_iff.mp h
    cases hfound
    obtain ⟨v, rfl, hv⟩ := ih hrest
    refine ⟨['\\', 'u', x, y, z, w] ++ v, rfl, .cons (.hex fun c hc => ?_) hv⟩
    simpa using List.all_eq_true.mp hhex c hc
  | case8 e s _ c hescape _ ih =>
    obtain ⟨⟨qs, u⟩, hrest, hfound⟩ := Option.map_eq_some_iff.mp h
    cases hfound
    obtain ⟨v, rfl, hv⟩ := ih hrest
    exact ⟨['\\', e] ++ v, rfl, .cons (.escaped hescape) hv⟩
  | case10 c s hquote hslash hraw ih =>
    obtain ⟨⟨qs, u⟩, hrest, hfound⟩ := Option.map_eq_some_iff.mp h
    cases hfound
    obtain ⟨v, rfl, hv⟩ := ih hrest
    exact ⟨[c] ++ v, rfl, .cons (.unescaped ⟨by omega, hquote, hslash⟩) hv⟩

/-- A quoted string at the front is a string of the grammar. -/
theorem scanString_stringText {s r : List Char} {ps : List Rfc8259.Piece} (hs : s.head? = some '"')
    (h : scanString s.tail = some (ps, r)) : ∃ w, s = w ++ r ∧ StringText w (decode ps) := by
  obtain ⟨s, rfl⟩ := List.head?_eq_some_iff.mp hs
  obtain ⟨w, hw, hchars⟩ := scanString_sound h
  rw [List.tail_cons] at hw
  exact ⟨'"' :: (w ++ ['"']), by simp [hw], w, ps, rfl, hchars, rfl⟩

/-! ## Scalars -/

theorem after_sound {word s r : List Char} (h : after word s = some r) : s = word ++ r := by
  unfold after at h
  split at h
  next hpre =>
    cases h
    obtain ⟨t, rfl⟩ := List.isPrefixOf_iff_prefix.mp hpre
    simp
  · cases h

section Sound

variable {h : Hooks}

/-- The value is derived from the text before what is left, and stands for its derivation. -/
def Derived (s : List Char) (v : Value) (r : List Char) : Prop :=
  ∃ w g, s = w ++ r ∧ w ≠ [] ∧ Derives w (.value g) ∧ value? g = some v ∧ Distinct v

theorem derived_literal {w s r : List Char} {v : Value} (hw : w ∈ literals) (hv : literalValue w = some v) (hdistinct : Distinct v)
    (hs : after w s = some r) : Derived s v r := by
  refine ⟨w, .literal w, after_sound hs, ?_, .literal hw, by rw [value?, hv], hdistinct⟩
  rintro rfl
  revert hw
  decide

theorem derived_number {s r u : List Char} {t : NumberText} {v : Value} (hscan : NumberText.scan s = some (t, u))
    (hv : (numberValue t).map (·, u) = .ok (v, r)) : Derived s v r := by
  obtain ⟨ht, letter, hletter, rfl⟩ := NumberText.scan_sound hscan
  have hself : numberText? (t.renderAs letter) = some t := by
    have hscan := NumberText.scan_renderAs ht hletter (r := []) (by simp [NumberText.Stops])
    rw [List.append_nil] at hscan
    rw [numberText?, hscan]
  cases hvalue : numberValue t with
  | error e => simp [hvalue, Except.map] at hv
  | ok w =>
    rw [hvalue] at hv
    cases hv
    refine ⟨t.renderAs letter, .number (t.renderAs letter), rfl, NumberText.renderAs_ne_nil ht letter,
      .number (ht.number hletter), by rw [value?, hself, Option.bind_some, hvalue]; rfl, ?_⟩
    unfold numberValue at hvalue
    split at hvalue
    · cases hvalue
      trivial
    · split at hvalue
      · cases hvalue
      · cases hvalue
        trivial

theorem parseScalar_sound (hconstant : ∀ x v, h.constant x ≠ .ok v) {s r : List Char} {v : Value}
    (hparse : parseScalar h s = .ok (v, r)) : Derived s v r := by
  have hrefused : ∀ x u, (h.constant x).map (·, u) ≠ Except.ok (v, r) := by
    intro x u hx
    cases hc : h.constant x with
    | error e => simp [hc, Except.map] at hx
    | ok w => exact hconstant x w hc
  unfold parseScalar at hparse
  split at hparse
  next hnull =>
    cases hparse
    exact derived_literal (by decide) rfl trivial hnull
  next htrue _ =>
    cases hparse
    exact derived_literal (by decide) rfl trivial htrue
  next hfalse _ _ =>
    cases hparse
    exact derived_literal (by decide) rfl trivial hfalse
  · split at hparse
    · exact absurd hparse (hrefused _ _)
    · exact absurd hparse (hrefused _ _)
    · exact absurd hparse (hrefused _ _)
    · split at hparse
      · cases hparse
      next hscan => exact derived_number hscan hparse

/-! ## Values -/

def DerivedItems (s : List Char) (vs : List Value) (r : List Char) : Prop :=
  ∃ w u c g gs, s = w ++ u ++ c ++ r ∧ Derives w (.value g) ∧ Derives u (.moreValues gs) ∧ Structural ']' c ∧
    items? (g :: gs) = some vs ∧ DistinctItems vs

def DerivedMembers (s : List Char) (kvs : List (Str × Value)) (r : List Char) : Prop :=
  ∃ w u c g gs, s = w ++ u ++ c ++ r ∧ Derives w (.member g) ∧ Derives u (.moreMembers gs) ∧ Structural '\x7d' c ∧
    members? (g :: gs) = some kvs ∧ DistinctMembers kvs

/-- A structural character after white space. -/
theorem structural_of_head {s : List Char} {c : Char} (h : (dropWs s).head? = some c) :
    ∃ t, Structural c t ∧ s = t ++ (dropWs s).tail := by
  obtain ⟨l, hl, hs⟩ := dropWs_split s
  obtain ⟨u, hu⟩ := List.head?_eq_some_iff.mp h
  refine ⟨l ++ [c], ⟨l, [], hl, ws_nil, rfl⟩, ?_⟩
  rw [hu] at hs ⊢
  simpa using hs

/-- A structural character with white space on both sides. -/
theorem structural_dropWs {s : List Char} {c : Char} (h : (dropWs s).head? = some c) :
    ∃ t, Structural c t ∧ s = t ++ dropWs (dropWs s).tail := by
  obtain ⟨l, hl, hs⟩ := dropWs_split s
  obtain ⟨u, hu⟩ := List.head?_eq_some_iff.mp h
  obtain ⟨r, hr, htail⟩ := dropWs_split u
  refine ⟨l ++ c :: r, ⟨l, r, hl, hr, rfl⟩, ?_⟩
  rw [hu] at hs ⊢
  rw [List.tail_cons]
  simpa [htail.symm] using hs

theorem structural_first {s : List Char} {c : Char} (h : s.head? = some c) : ∃ t, Structural c t ∧ s = t ++ dropWs s.tail := by
  obtain ⟨u, rfl⟩ := List.head?_eq_some_iff.mp h
  obtain ⟨r, hr, htail⟩ := dropWs_split u
  exact ⟨c :: r, ⟨[], r, ws_nil, hr, rfl⟩, by simpa using htail⟩

/-- The hooks refuse a repeated key, and keep the members otherwise. -/
def KeepsKeys (h : Hooks) : Prop := ∀ ms v, h.pairs ms = .ok v → v = .obj ms ∧ (ms.map Prod.fst).Nodup

variable (h)

def SoundAt (fuel : Nat) : Prop :=
  (∀ s v r, parseValue h fuel s = .ok (v, r) → Derived s v r) ∧
  (∀ s vs r, parseItems h fuel s = .ok (vs, r) → DerivedItems s vs r) ∧
  ∀ s kvs r, parseMembers h fuel s = .ok (kvs, r) → DerivedMembers s kvs r

variable {h}

theorem items_sound {fuel : Nat} (ih : SoundAt h fuel) {s : List Char} {vs : List Value} {r : List Char}
    (hparse : parseItems h (fuel + 1) s = .ok (vs, r)) : DerivedItems s vs r := by
  rw [parseItems] at hparse
  cases hvalue : parseValue h fuel s with
  | error e => simp [hvalue, bind, Except.bind] at hparse
  | ok found =>
    obtain ⟨v, u⟩ := found
    obtain ⟨w, g, rfl, -, hg, hval, hdistinct⟩ := ih.1 s v u hvalue
    simp only [hvalue, bind, Except.bind, pure, Except.pure] at hparse
    split at hparse
    next hclose =>
      cases hparse
      obtain ⟨c, hc, hu⟩ := structural_of_head hclose
      refine ⟨w, [], c, g, [], ?_, hg, .noValues, hc, by simp [items?, hval], hdistinct, trivial⟩
      rw [List.append_nil, List.append_assoc, ← hu]
    · split at hparse
      next hcomma =>
        obtain ⟨t, ht, hu⟩ := structural_dropWs hcomma
        cases hrest : parseItems h fuel (dropWs (dropWs u).tail) with
        | error e => simp [hrest] at hparse
        | ok found =>
          obtain ⟨vs', r'⟩ := found
          simp only [hrest] at hparse
          cases hparse
          obtain ⟨w', u', c, g', gs, hs, hg', hgs, hc, hval', hdistinct'⟩ := ih.2.1 _ _ _ hrest
          refine ⟨w, t ++ w' ++ u', c, g, g' :: gs, ?_, hg, .moreValues ht hg' hgs, hc, ?_, hdistinct, hdistinct'⟩
          · rw [hu, hs]
            simp
          · rw [items?, hval, Option.bind_some, hval']
            rfl
      · cases hparse

theorem members_sound {fuel : Nat} (ih : SoundAt h fuel) {s : List Char} {kvs : List (Str × Value)} {r : List Char}
    (hparse : parseMembers h (fuel + 1) s = .ok (kvs, r)) : DerivedMembers s kvs r := by
  rw [parseMembers] at hparse
  split at hparse
  next hquote =>
    split at hparse
    · cases hparse
    next ps t hscan =>
      obtain ⟨k, rfl, hk⟩ := scanString_stringText hquote hscan
      split at hparse
      next hcolon =>
        obtain ⟨colon, hcolon, ht⟩ := structural_dropWs hcolon
        cases hvalue : parseValue h fuel (dropWs (dropWs t).tail) with
        | error e => simp [hvalue, bind, Except.bind] at hparse
        | ok found =>
          obtain ⟨v, u⟩ := found
          obtain ⟨w, g, hw, -, hg, hval, hdistinct⟩ := ih.1 _ v u hvalue
          have hmember : Derives (k ++ colon ++ w) (.member (decode ps, g)) := .member hk hcolon hg
          simp only [hvalue, bind, Except.bind, pure, Except.pure] at hparse
          split at hparse
          next hclose =>
            cases hparse
            obtain ⟨c, hc, hu⟩ := structural_of_head hclose
            refine ⟨k ++ colon ++ w, [], c, _, [], ?_, hmember, .noMembers, hc, by simp [members?, hval], hdistinct, trivial⟩
            conv_lhs => rw [ht, hw, hu]
            simp
          · split at hparse
            next hcomma =>
              obtain ⟨comma, hcomma, hu⟩ := structural_dropWs hcomma
              cases hrest : parseMembers h fuel (dropWs (dropWs u).tail) with
              | error e => simp [hrest] at hparse
              | ok found =>
                obtain ⟨kvs', r'⟩ := found
                simp only [hrest] at hparse
                cases hparse
                obtain ⟨w', u', c, g', gs, hs, hg', hgs, hc, hval', hdistinct'⟩ := ih.2.2 _ _ _ hrest
                refine ⟨k ++ colon ++ w, comma ++ w' ++ u', c, _, g' :: gs, ?_, hmember, .moreMembers hcomma hg' hgs, hc, ?_,
                  hdistinct, hdistinct'⟩
                · conv_lhs => rw [ht, hw, hu, hs]
                  simp
                · rw [members?, hval, Option.bind_some, hval']
                  rfl
            · cases hparse
      · cases hparse
  · cases hparse

theorem value_sound (hpairs : KeepsKeys h) (hconstant : ∀ x v, h.constant x ≠ .ok v) {fuel : Nat} (ih : SoundAt h fuel)
    {s : List Char} {v : Value} {r : List Char} (hparse : parseValue h (fuel + 1) s = .ok (v, r)) : Derived s v r := by
  rw [parseValue] at hparse
  split at hparse
  next hquote =>
    split at hparse
    · cases hparse
    next ps t hscan =>
      cases hparse
      obtain ⟨w, rfl, hw⟩ := scanString_stringText hquote hscan
      refine ⟨w, .string (decode ps), rfl, ?_, .string hw, rfl, trivial⟩
      obtain ⟨u, -, rfl, -⟩ := hw
      simp
  · split at hparse
    next hopen =>
      obtain ⟨t, ht, hs⟩ := structural_first hopen
      have hne : t ≠ [] := by
        obtain ⟨l, r, -, -, rfl⟩ := ht
        simp
      split at hparse
      next hclose =>
        cases hparse
        have hc := structural_self ']'
        obtain ⟨u, hu⟩ := List.head?_eq_some_iff.mp hclose
        refine ⟨t ++ [']'], .array [], ?_, by simp, .emptyArray ht hc, rfl, trivial⟩
        conv_lhs => rw [hs]
        simp [hu]
      · cases hitems : parseItems h fuel (dropWs s.tail) with
        | error e => simp [hitems, Except.map] at hparse
        | ok found =>
          obtain ⟨vs, r'⟩ := found
          simp only [hitems, Except.map] at hparse
          cases hparse
          obtain ⟨w, u, c, g, gs, hw, hg, hgs, hc, hval, hdistinct⟩ := ih.2.1 _ _ _ hitems
          refine ⟨t ++ w ++ u ++ c, .array (g :: gs), ?_, by simp [hne], .array ht hg hgs hc, by rw [value?, hval]; rfl, hdistinct⟩
          rw [hs, hw]
          simp
    · split at hparse
      next hopen =>
        obtain ⟨t, ht, hs⟩ := structural_first hopen
        have hne : t ≠ [] := by
          obtain ⟨l, r, -, -, rfl⟩ := ht
          simp
        split at hparse
        next hclose =>
          cases hvalue : h.pairs [] with
          | error e => simp [hvalue, Except.map] at hparse
          | ok v' =>
            obtain ⟨rfl, hnodup⟩ := hpairs _ _ hvalue
            simp only [hvalue, Except.map] at hparse
            cases hparse
            have hc := structural_self '\x7d'
            obtain ⟨u, hu⟩ := List.head?_eq_some_iff.mp hclose
            refine ⟨t ++ ['\x7d'], .object [], ?_, by simp, .emptyObject ht hc, rfl, hnodup, trivial⟩
            conv_lhs => rw [hs]
            simp [hu]
        · cases hmembers : parseMembers h fuel (dropWs s.tail) with
          | error e => simp [hmembers, bind, Except.bind] at hparse
          | ok found =>
            obtain ⟨kvs, r'⟩ := found
            simp only [hmembers, bind, Except.bind, pure, Except.pure] at hparse
            cases hvalue : h.pairs kvs with
            | error e => simp [hvalue] at hparse
            | ok v' =>
              obtain ⟨rfl, hnodup⟩ := hpairs _ _ hvalue
              simp only [hvalue] at hparse
              cases hparse
              obtain ⟨w, u, c, g, gs, hw, hg, hgs, hc, hval, hdistinct⟩ := ih.2.2 _ _ _ hmembers
              refine ⟨t ++ w ++ u ++ c, .object (g :: gs), ?_, by simp [hne], .object ht hg hgs hc, by rw [value?, hval]; rfl,
                hnodup, hdistinct⟩
              rw [hs, hw]
              simp
      · exact parseScalar_sound hconstant hparse

theorem soundAt (hpairs : KeepsKeys h) (hconstant : ∀ x v, h.constant x ≠ .ok v) (fuel : Nat) : SoundAt h fuel := by
  induction fuel with
  | zero =>
    refine ⟨fun s v r hparse => ?_, fun s vs r hparse => ?_, fun s kvs r hparse => ?_⟩
    · simp [parseValue] at hparse
    · simp [parseItems] at hparse
    · simp [parseMembers] at hparse
  | succ fuel ih =>
    exact ⟨fun s v r => value_sound hpairs hconstant ih, fun s vs r => items_sound ih, fun s kvs r => members_sound ih⟩

/-- An accepted text is a JSON text, and the value is the one it stands for, with distinct keys. -/
theorem loads_sound (hpairs : KeepsKeys h) (hconstant : ∀ x v, h.constant x ≠ .ok v) {s : List Char} {v : Value}
    (hloads : loads h s = .ok v) : ∃ g, JsonText s g ∧ value? g = some v ∧ Distinct v := by
  unfold loads at hloads
  cases hparse : parseValue h (2 * s.length + 1) (dropWs s) with
  | error e => simp [hparse, bind, Except.bind] at hloads
  | ok found =>
    obtain ⟨v', r⟩ := found
    simp only [hparse, bind, Except.bind, pure, Except.pure] at hloads
    split at hloads
    next hend =>
      cases hloads
      obtain ⟨w, g, hs, -, hg, hval, hdistinct⟩ := (soundAt hpairs hconstant _).1 _ _ _ hparse
      obtain ⟨l, hl, hsplit⟩ := dropWs_split s
      obtain ⟨t, ht, hrest⟩ := dropWs_split r
      rw [hend, List.append_nil] at hrest
      exact ⟨g, ⟨l, w, r, by rw [hsplit, hs, List.append_assoc], hl, hg, hrest ▸ ht⟩, hval, hdistinct⟩
    · cases hloads

end Sound

/-! ## Fuel -/

section Fuel

variable {h : Hooks}

/-- What is read gets shorter, and enough fuel does not run out. -/
def Fueled {α : Type} (extra : Nat) (parse : Nat → List Char → Except LoadError (α × List Char)) (fuel : Nat) : Prop :=
  ∀ s, (∀ a r, parse fuel s = .ok (a, r) → r.length < s.length) ∧
    (2 * s.length + extra < fuel → parse fuel s ≠ .error .outOfFuel)

theorem dropWs_length (s : List Char) : (dropWs s).length ≤ s.length := List.length_dropWhile_le _ s

theorem head_length {s : List Char} {c : Char} (h : s.head? = some c) : s.tail.length + 1 = s.length := by
  obtain ⟨t, rfl⟩ := List.head?_eq_some_iff.mp h
  rfl

theorem scanString_length {s r : List Char} {ps : List Rfc8259.Piece} (h : scanString s = some (ps, r)) : r.length < s.length := by
  obtain ⟨w, rfl, -⟩ := scanString_sound h
  simp only [List.length_append, List.length_cons]
  omega

theorem after_length {word s r : List Char} (hword : word ≠ []) (h : after word s = some r) : r.length < s.length := by
  rw [after_sound h]
  simpa using List.length_pos_of_ne_nil hword

theorem fueled_scalar (hconstant : ∀ x, h.constant x ≠ .error .outOfFuel) (s : List Char) :
    (∀ v r, parseScalar h s = .ok (v, r) → r.length < s.length) ∧ parseScalar h s ≠ .error .outOfFuel := by
  have hword : ∀ {word r : List Char} (e : Except LoadError Value), word ≠ [] → after word s = some r →
      e ≠ .error .outOfFuel → (∀ v r', e.map (·, r) = .ok (v, r') → r'.length < s.length) ∧ e.map (·, r) ≠ .error .outOfFuel := by
    intro word r e hword hafter hfuel
    cases e with
    | error e => exact ⟨fun v r' he => (by cases he), fun he => by cases he; exact hfuel rfl⟩
    | ok v =>
      refine ⟨fun v' r' he => ?_, fun he => by cases he⟩
      cases he
      exact after_length hword hafter
  unfold parseScalar
  split
  next hnull => exact hword (.ok .null) (by decide) hnull (by simp)
  next htrue _ => exact hword (.ok (.bool true)) (by decide) htrue (by simp)
  next hfalse _ _ => exact hword (.ok (.bool false)) (by decide) hfalse (by simp)
  · split
    next hnan => exact hword _ (by decide) hnan (hconstant _)
    next hinf _ => exact hword _ (by decide) hinf (hconstant _)
    next hinf _ _ => exact hword _ (by decide) hinf (hconstant _)
    · split
      · exact ⟨fun v r hv => (by cases hv), fun he => by cases he⟩
      next t r hscan =>
        obtain ⟨ht, letter, -, rfl⟩ := NumberText.scan_sound hscan
        have hlen := List.length_pos_of_ne_nil (NumberText.renderAs_ne_nil ht letter)
        cases hvalue : numberValue t with
        | error e =>
          refine ⟨fun v r hv => (by cases hv), fun he => ?_⟩
          cases he
          unfold numberValue at hvalue
          split at hvalue
          · cases hvalue
          · split at hvalue <;> cases hvalue
        | ok v =>
          refine ⟨fun v' r' hv => ?_, fun he => by cases he⟩
          cases hv
          simpa using hlen

variable (h)

def FueledAt (fuel : Nat) : Prop :=
  Fueled 0 (parseValue h) fuel ∧ Fueled 1 (parseItems h) fuel ∧ Fueled 1 (parseMembers h) fuel

variable {h}

theorem items_fueled {fuel : Nat} (ih : FueledAt h fuel) : Fueled 1 (parseItems h) (fuel + 1) := by
  intro s
  obtain ⟨hshrink, hfuel⟩ := ih.1 s
  rw [parseItems]
  cases hvalue : parseValue h fuel s with
  | error e =>
    refine ⟨fun v r hv => (by cases hv), fun hneed he => ?_⟩
    cases he
    exact hfuel (by omega) hvalue
  | ok found =>
    obtain ⟨v, u⟩ := found
    have hu := hshrink v u hvalue
    have hdrop := dropWs_length u
    simp only [bind, Except.bind, pure, Except.pure]
    split
    next hclose =>
      have htail := head_length hclose
      exact ⟨fun v r hv => by cases hv; omega, fun _ he => by cases he⟩
    · split
      next hcomma =>
        have htail := head_length hcomma
        have hnext := dropWs_length (dropWs u).tail
        obtain ⟨hshrink', hfuel'⟩ := ih.2.1 (dropWs (dropWs u).tail)
        cases hrest : parseItems h fuel (dropWs (dropWs u).tail) with
        | error e =>
          refine ⟨fun v r hv => (by cases hv), fun hneed he => ?_⟩
          cases he
          exact hfuel' (by omega) hrest
        | ok found =>
          have hlen := hshrink' _ _ hrest
          exact ⟨fun v r hv => by cases hv; omega, fun _ he => by cases he⟩
      · exact ⟨fun v r hv => (by cases hv), fun _ he => by cases he⟩

theorem members_fueled {fuel : Nat} (ih : FueledAt h fuel) : Fueled 1 (parseMembers h) (fuel + 1) := by
  intro s
  rw [parseMembers]
  split
  next hquote =>
    have hs := head_length hquote
    split
    · exact ⟨fun v r hv => (by cases hv), fun _ he => by cases he⟩
    next ps t hscan =>
      have ht := scanString_length hscan
      have hdrop := dropWs_length t
      split
      next hcolon =>
        have htail := head_length hcolon
        have hnext := dropWs_length (dropWs t).tail
        obtain ⟨hshrink, hfuel⟩ := ih.1 (dropWs (dropWs t).tail)
        cases hvalue : parseValue h fuel (dropWs (dropWs t).tail) with
        | error e =>
          refine ⟨fun v r hv => (by cases hv), fun hneed he => ?_⟩
          cases he
          exact hfuel (by omega) hvalue
        | ok found =>
          obtain ⟨v, u⟩ := found
          have hu := hshrink v u hvalue
          have hdropu := dropWs_length u
          simp only [bind, Except.bind, pure, Except.pure]
          split
          next hclose =>
            have htailu := head_length hclose
            exact ⟨fun v r hv => by cases hv; omega, fun _ he => by cases he⟩
          · split
            next hcomma =>
              have htailu := head_length hcomma
              have hnextu := dropWs_length (dropWs u).tail
              obtain ⟨hshrink', hfuel'⟩ := ih.2.2 (dropWs (dropWs u).tail)
              cases hrest : parseMembers h fuel (dropWs (dropWs u).tail) with
              | error e =>
                refine ⟨fun v r hv => (by cases hv), fun hneed he => ?_⟩
                cases he
                exact hfuel' (by omega) hrest
              | ok found =>
                have hlen := hshrink' _ _ hrest
                exact ⟨fun v r hv => by cases hv; omega, fun _ he => by cases he⟩
            · exact ⟨fun v r hv => (by cases hv), fun _ he => by cases he⟩
      · exact ⟨fun v r hv => (by cases hv), fun _ he => by cases he⟩
  · exact ⟨fun v r hv => (by cases hv), fun _ he => by cases he⟩

theorem value_fueled (hpairs : ∀ ms, h.pairs ms ≠ .error .outOfFuel) (hconstant : ∀ x, h.constant x ≠ .error .outOfFuel)
    {fuel : Nat} (ih : FueledAt h fuel) : Fueled 0 (parseValue h) (fuel + 1) := by
  intro s
  rw [parseValue]
  have hdrop := dropWs_length s.tail
  split
  next hquote =>
    have hs := head_length hquote
    split
    · exact ⟨fun v r hv => (by cases hv), fun _ he => by cases he⟩
    next ps t hscan =>
      have ht := scanString_length hscan
      exact ⟨fun v r hv => by cases hv; omega, fun _ he => by cases he⟩
  · split
    next hopen =>
      have hs := head_length hopen
      split
      next hclose =>
        have htail := head_length hclose
        exact ⟨fun v r hv => by cases hv; omega, fun _ he => by cases he⟩
      · obtain ⟨hshrink, hfuel⟩ := ih.2.1 (dropWs s.tail)
        cases hitems : parseItems h fuel (dropWs s.tail) with
        | error e =>
          refine ⟨fun v r hv => (by cases hv), fun hneed he => ?_⟩
          cases he
          exact hfuel (by omega) hitems
        | ok found =>
          have hlen := hshrink _ _ hitems
          exact ⟨fun v r hv => by cases hv; omega, fun _ he => by cases he⟩
    · split
      next hopen =>
        have hs := head_length hopen
        split
        next hclose =>
          have htail := head_length hclose
          cases hvalue : h.pairs [] with
          | error e => exact ⟨fun v r hv => (by cases hv), fun _ he => by cases he; exact hpairs _ hvalue⟩
          | ok v => exact ⟨fun v r hv => by cases hv; omega, fun _ he => by cases he⟩
        · obtain ⟨hshrink, hfuel⟩ := ih.2.2 (dropWs s.tail)
          cases hmembers : parseMembers h fuel (dropWs s.tail) with
          | error e =>
            refine ⟨fun v r hv => (by cases hv), fun hneed he => ?_⟩
            cases he
            exact hfuel (by omega) hmembers
          | ok found =>
            have hlen := hshrink _ _ hmembers
            simp only [bind, Except.bind, pure, Except.pure]
            cases hvalue : h.pairs found.1 with
            | error e => exact ⟨fun v r hv => (by cases hv), fun _ he => by cases he; exact hpairs _ hvalue⟩
            | ok v => exact ⟨fun v r hv => by cases hv; omega, fun _ he => by cases he⟩
      · exact ⟨(fueled_scalar hconstant s).1, fun _ => (fueled_scalar hconstant s).2⟩

theorem fueledAt (hpairs : ∀ ms, h.pairs ms ≠ .error .outOfFuel) (hconstant : ∀ x, h.constant x ≠ .error .outOfFuel)
    (fuel : Nat) : FueledAt h fuel := by
  induction fuel with
  | zero =>
    refine ⟨fun s => ⟨fun a r hp => ?_, fun hneed => absurd hneed (Nat.not_lt_zero _)⟩,
      fun s => ⟨fun a r hp => ?_, fun hneed => absurd hneed (Nat.not_lt_zero _)⟩,
      fun s => ⟨fun a r hp => ?_, fun hneed => absurd hneed (Nat.not_lt_zero _)⟩⟩
    · simp [parseValue] at hp
    · simp [parseItems] at hp
    · simp [parseMembers] at hp
  | succ fuel ih => exact ⟨value_fueled hpairs hconstant ih, items_fueled ih, members_fueled ih⟩

theorem loads_fuel (hpairs : ∀ ms, h.pairs ms ≠ .error .outOfFuel) (hconstant : ∀ x, h.constant x ≠ .error .outOfFuel)
    (s : List Char) : loads h s ≠ .error .outOfFuel := by
  have hdrop := dropWs_length s
  have hfuel := ((fueledAt hpairs hconstant (2 * s.length + 1)).1 (dropWs s)).2 (by omega)
  unfold loads
  cases hparse : parseValue h (2 * s.length + 1) (dropWs s) with
  | error e =>
    intro he
    cases he
    exact hfuel hparse
  | ok found =>
    simp only [bind, Except.bind, pure, Except.pure]
    split <;> simp

end Fuel

end Crewplane.Lib.PyJson
