import Crewplane.Claude.Scan
/-
# Strings against the grammar

A skipped string is one of the grammar. For a decoded string the surrogate pairs matter: the scanner
looks two characters past a high unit, so something has to follow the closing quote (in an object,
something always does).
-/
namespace Crewplane.Claude

open Lib Lib.Rfc8259

variable {sel : ResultSelection} {s t u w : List Char} {st : State}

theorem chars_append {ps qs : List Piece} (hw : Chars w ps) (hu : Chars u qs) : Chars (w ++ u) (ps ++ qs) := by
  induction hw with
  | nil => exact hu
  | cons hc _ ih =>
    rw [List.append_assoc]
    exact .cons hc ih

theorem chars_single {p : Piece} (h : CharText w p) : Chars w [p] := by
  simpa using Chars.cons h .nil

/-! ## Escapes -/

theorem simpleJsonEscapes_eq : simpleJsonEscapes = shortEscape := by
  funext c
  rfl

theorem readHexQuad_hex {a b c d : Char} (h : ∀ x ∈ [a, b, c, d], x ∈ hexDigits) :
    readHexQuad (onText (a :: b :: c :: d :: t) sel) = .ok [a, b, c, d] (onText t sel) := by
  have hany : ([a, b, c, d].any (· ∉ hexDigits)) = false := by
    rw [List.any_eq_false]
    intro x hx
    simpa using h x hx
  refine bind_ok.mpr ⟨a, _, readRequired_cons a, bind_ok.mpr ⟨b, _, readRequired_cons b, bind_ok.mpr ⟨c, _,
    readRequired_cons c, bind_ok.mpr ⟨d, _, readRequired_cons d, ?_⟩⟩⟩⟩
  rw [hany, if_neg Bool.false_ne_true]
  exact pure_ok.mpr ⟨rfl, rfl⟩

theorem readHexQuad_ok {cs : List Char} (h : readHexQuad (onText s sel) = .ok cs st) :
    ∃ a b c d t, s = a :: b :: c :: d :: t ∧ cs = [a, b, c, d] ∧ (∀ x ∈ [a, b, c, d], x ∈ hexDigits) ∧
      st = onText t sel := by
  obtain ⟨a, _, ha, h⟩ := bind_ok.mp h
  obtain ⟨s, rfl, rfl⟩ := readRequired_ok.mp ha
  obtain ⟨b, _, hb, h⟩ := bind_ok.mp h
  obtain ⟨s, rfl, rfl⟩ := readRequired_ok.mp hb
  obtain ⟨c, _, hc, h⟩ := bind_ok.mp h
  obtain ⟨s, rfl, rfl⟩ := readRequired_ok.mp hc
  obtain ⟨d, _, hd, h⟩ := bind_ok.mp h
  obtain ⟨t, rfl, rfl⟩ := readRequired_ok.mp hd
  split at h
  · exact absurd h malformed_ok
  next hany =>
    obtain ⟨rfl, rfl⟩ := pure_ok.mp h
    refine ⟨a, b, c, d, t, rfl, rfl, ?_, rfl⟩
    simpa [List.any_eq_false] using hany

/-! ## Skipped strings -/

theorem validateStringChar_ok {c : Char} {v : Unit} :
    validateStringChar c (onText s sel) = .ok v st ↔ 0x20 ≤ c.toNat ∧ st = onText s sel := by
  unfold validateStringChar
  split
  · simp
    omega
  · simp
    omega

theorem skipRawEscape_ok {v : Unit} : skipRawEscape (onText s sel) = .ok v st ↔
    ∃ w t p, s = w ++ t ∧ CharText ('\\' :: w) p ∧ st = onText t sel := by
  constructor
  · intro h
    obtain ⟨e, _, he, h⟩ := bind_ok.mp h
    obtain ⟨t, rfl, rfl⟩ := readRequired_ok.mp he
    split at h
    next hesc =>
      obtain ⟨c, hc⟩ := Option.isSome_iff_exists.mp hesc
      exact ⟨[e], t, .plain c, rfl, .escaped (simpleJsonEscapes_eq ▸ hc), (pure_ok.mp h).2⟩
    next =>
      split at h
      · simp at h
      next hu =>
        obtain rfl : e = 'u' := not_not.mp hu
        obtain ⟨cs, mid, hq, hm⟩ := bind_ok.mp (show (readHexQuad >>= fun _ => pure ()) (onText t sel) = .ok v st by
          rw [← map_eq_pure_bind]
          exact h)
        obtain ⟨a, b, c, d, t, rfl, -, hhex, rfl⟩ := readHexQuad_ok hq
        exact ⟨['u', a, b, c, d], t, _, rfl, .hex hhex, (pure_ok.mp hm).2⟩
  · rintro ⟨w, t, p, rfl, hw, rfl⟩
    cases hw with
    | unescaped h => exact absurd rfl h.2.2
    | @escaped e c h =>
      refine bind_ok.mpr ⟨e, _, readRequired_cons e, ?_⟩
      simp [simpleJsonEscapes_eq, h]
    | @hex a b c d h =>
      have hnone : (simpleJsonEscapes 'u').isSome = false := rfl
      refine bind_ok.mpr ⟨'u', _, readRequired_cons 'u', ?_⟩
      rw [hnone, if_neg Bool.false_ne_true, if_neg (not_not.mpr rfl)]
      show (Functor.map (fun _ => ()) readHexQuad : ParserM Unit) _ = _
      rw [map_eq_pure_bind]
      exact bind_ok.mpr ⟨_, _, readHexQuad_hex h, pure_ok.mpr ⟨rfl, rfl⟩⟩

theorem chars_cons {c : Char} {ps : List Piece} (h : Chars (c :: w) ps) :
    ∃ v u p qs, c :: w = v ++ u ∧ CharText v p ∧ Chars u qs ∧ ps = p :: qs ∧
      (c ≠ '\\' ∧ v = [c] ∧ Unescaped c ∨ ∃ x, c = '\\' ∧ v = '\\' :: x) := by
  generalize hcw : c :: w = cw at h
  cases h with
  | nil => cases hcw
  | @cons v u p qs hv hu =>
    refine ⟨v, u, p, qs, rfl, hv, hu, rfl, ?_⟩
    cases hv with
    | unescaped h =>
      obtain ⟨rfl, -⟩ := List.cons_eq_cons.mp hcw
      exact .inl ⟨h.2.2, rfl, h⟩
    | escaped _ => exact .inr ⟨_, (List.cons_eq_cons.mp hcw).1, rfl⟩
    | hex _ => exact .inr ⟨_, (List.cons_eq_cons.mp hcw).1, rfl⟩

theorem skipStringLoop_ok {n : Nat} {v : Unit} (hn : s.length < n) : skipStringLoop n (onText s sel) = .ok v st ↔
    ∃ w ps t, s = w ++ '"' :: t ∧ Chars w ps ∧ st = onText t sel := by
  induction n generalizing s with
  | zero => omega
  | succ n ih =>
    simp only [skipStringLoop, bind_ok, readRequired_ok]
    constructor
    · rintro ⟨c, _, ⟨t, rfl, rfl⟩, h⟩
      have hn : t.length < n := by simpa using hn
      split at h
      next hc =>
        subst hc
        exact ⟨[], [], t, rfl, .nil, (pure_ok.mp h).2⟩
      next hquote =>
        obtain ⟨_, _, hvalid, hrest⟩ := bind_ok.mp h
        obtain ⟨h20, rfl⟩ := validateStringChar_ok.mp hvalid
        split at hrest
        next hslash =>
          obtain ⟨_, _, hesc, hloop⟩ := bind_ok.mp hrest
          obtain ⟨x, t, p, rfl, hx, rfl⟩ := skipRawEscape_ok.mp hesc
          obtain ⟨w, ps, t, rfl, hw, rfl⟩ := (ih (by simp at hn ⊢; omega)).mp hloop
          exact ⟨'\\' :: x ++ w, p :: ps, t, by simp [hslash], .cons hx hw, rfl⟩
        next hslash =>
          obtain ⟨w, ps, t, rfl, hw, rfl⟩ := (ih hn).mp hrest
          exact ⟨c :: w, .plain c :: ps, t, rfl, .cons (.unescaped ⟨h20, hquote, hslash⟩) hw, rfl⟩
    · rintro ⟨w, ps, t, rfl, hw, rfl⟩
      rcases w with - | ⟨c, w⟩
      · exact ⟨'"', _, ⟨t, rfl, rfl⟩, by simp⟩
      · refine ⟨c, _, ⟨w ++ '"' :: t, rfl, rfl⟩, ?_⟩
        obtain ⟨v, u, p, qs, heq, hv, hu, rfl, ⟨hc, rfl, hun⟩ | ⟨x, rfl, rfl⟩⟩ := chars_cons hw
        · obtain ⟨-, rfl⟩ := List.cons_eq_cons.mp heq
          rw [if_neg hun.2.1, bind_ok]
          refine ⟨(), _, validateStringChar_ok.mpr ⟨hun.1, rfl⟩, ?_⟩
          rw [if_neg hc]
          exact (ih (by simpa using hn)).mpr ⟨w, qs, t, rfl, hu, rfl⟩
        · obtain ⟨-, rfl⟩ := List.cons_eq_cons.mp heq
          rw [if_neg (by decide), bind_ok]
          refine ⟨(), _, validateStringChar_ok.mpr ⟨by decide, rfl⟩, ?_⟩
          rw [if_pos rfl, bind_ok]
          refine ⟨(), onText (u ++ '"' :: t) sel, skipRawEscape_ok.mpr ⟨x, _, p, by simp, hv, rfl⟩, ?_⟩
          exact (ih (by simp at hn ⊢; omega)).mpr ⟨u, qs, t, rfl, hu, rfl⟩

theorem skipString_ok {v : Unit} : skipString (onText s sel) = .ok v st ↔
    ∃ k e t, s = k ++ t ∧ StringText k e ∧ st = onText t sel := by
  simp only [skipString, bind_ok, expect_ok]
  constructor
  · rintro ⟨_, _, ⟨s, rfl, rfl⟩, h⟩
    rw [fueled_onText, skipStringLoop_ok (Nat.lt_succ_self _)] at h
    obtain ⟨w, ps, t, rfl, hw, rfl⟩ := h
    exact ⟨'"' :: (w ++ ['"']), decode ps, t, by simp, ⟨w, ps, rfl, hw, rfl⟩, rfl⟩
  · rintro ⟨_, e, t, rfl, ⟨w, ps, rfl, hw, rfl⟩, rfl⟩
    refine ⟨(), _, ⟨w ++ '"' :: t, by simp, rfl⟩, ?_⟩
    rw [fueled_onText, skipStringLoop_ok (Nat.lt_succ_self _)]
    exact ⟨w, ps, t, rfl, hw, rfl⟩

/-! ## Decoded strings: what is taken is a string -/

theorem readSurrogatePair_taken {high : Nat} {c : Char} (h : readSurrogatePair high (onText s sel) = .ok c st) :
    ∃ w ps t, s = w ++ t ∧ Chars w ps ∧ st = onText t sel := by
  obtain ⟨a, _, ha, h⟩ := bind_ok.mp h
  obtain ⟨s, rfl, rfl⟩ := readRequired_ok.mp ha
  obtain ⟨b, _, hb, h⟩ := bind_ok.mp h
  obtain ⟨s, rfl, rfl⟩ := readRequired_ok.mp hb
  split at h
  · obtain ⟨_, _, hun, h⟩ := bind_ok.mp h
    obtain rfl := unread_ok.mp hun
    exact ⟨[], [], _, rfl, .nil, (pure_ok.mp h).2⟩
  next hab =>
    obtain ⟨rfl, hb⟩ := List.cons_eq_cons.mp (not_not.mp hab)
    obtain ⟨rfl, -⟩ := List.cons_eq_cons.mp hb
    obtain ⟨cs, _, hq, h⟩ := bind_ok.mp h
    obtain ⟨a, b, c, d, t, rfl, rfl, hhex, rfl⟩ := readHexQuad_ok hq
    split at h
    · exact ⟨['\\', 'u', a, b, c, d], _, t, rfl, chars_single (.hex hhex), (pure_ok.mp h).2⟩
    · obtain ⟨_, _, hun, h⟩ := bind_ok.mp h
      obtain rfl := unread_ok.mp hun
      exact ⟨[], [], _, rfl, .nil, (pure_ok.mp h).2⟩

theorem readEscape_taken {c : Char} (h : readEscape (onText s sel) = .ok c st) :
    ∃ w p ps t, s = w ++ t ∧ Chars ('\\' :: w) (p :: ps) ∧ st = onText t sel := by
  obtain ⟨e, _, he, h⟩ := bind_ok.mp h
  obtain ⟨s, rfl, rfl⟩ := readRequired_ok.mp he
  split at h
  next hu =>
    obtain ⟨cs, _, hq, h⟩ := bind_ok.mp h
    obtain ⟨a, b, c, d, t, rfl, rfl, hhex, rfl⟩ := readHexQuad_ok hq
    have hunit : Chars ['\\', e, a, b, c, d] [.unit (hexNumber [a, b, c, d])] := hu ▸ chars_single (.hex hhex)
    split at h
    · obtain ⟨w, ps, t, rfl, hw, rfl⟩ := readSurrogatePair_taken h
      exact ⟨[e, a, b, c, d] ++ w, _, ps, t, by simp, chars_append hunit hw, rfl⟩
    · split at h
      · exact ⟨[e, a, b, c, d], _, [], t, rfl, hunit, (pure_ok.mp h).2⟩
      · exact ⟨[e, a, b, c, d], _, [], t, rfl, hunit, (pure_ok.mp h).2⟩
  next hu =>
    cases hesc : simpleJsonEscapes e with
    | none => simp [hesc] at h
    | some d =>
      simp only [hesc] at h
      exact ⟨[e], .plain d, [], s, rfl, chars_single (.escaped (simpleJsonEscapes_eq ▸ hesc)), (pure_ok.mp h).2⟩

theorem nextDecodedStringChar_taken {r : Option Char} (h : nextDecodedStringChar (onText s sel) = .ok r st) :
    match r with
    | none => ∃ t, s = '"' :: t ∧ st = onText t sel
    | some _ => ∃ w p ps t, s = w ++ t ∧ Chars w (p :: ps) ∧ st = onText t sel := by
  obtain ⟨c, _, hc, h⟩ := bind_ok.mp h
  obtain ⟨s, rfl, rfl⟩ := readRequired_ok.mp hc
  split at h
  next hquote =>
    obtain ⟨rfl, rfl⟩ := pure_ok.mp h
    exact ⟨s, by rw [hquote], rfl⟩
  next hquote =>
    obtain ⟨_, _, hvalid, h⟩ := bind_ok.mp h
    obtain ⟨h20, rfl⟩ := validateStringChar_ok.mp hvalid
    split at h
    next hslash =>
      rw [map_eq_pure_bind] at h
      obtain ⟨d, _, hesc, h⟩ := bind_ok.mp h
      obtain ⟨w, p, ps, t, rfl, hw, rfl⟩ := readEscape_taken hesc
      obtain ⟨rfl, rfl⟩ := pure_ok.mp h
      exact ⟨c :: w, p, ps, t, rfl, hslash ▸ hw, rfl⟩
    next hslash =>
      obtain ⟨rfl, rfl⟩ := pure_ok.mp h
      exact ⟨[c], .plain c, [], s, rfl, chars_single (.unescaped ⟨h20, hquote, hslash⟩), rfl⟩

theorem readStringLoop_taken {n : Nat} {cs : List Char} (h : readStringLoop n (onText s sel) = .ok cs st) :
    ∃ w ps t, s = w ++ '"' :: t ∧ Chars w ps ∧ st = onText t sel := by
  induction n generalizing s cs st with
  | zero => cases h
  | succ n ih =>
    obtain ⟨r, _, hr, h⟩ := bind_ok.mp h
    have htaken := nextDecodedStringChar_taken hr
    cases r with
    | none =>
      obtain ⟨t, rfl, rfl⟩ := htaken
      exact ⟨[], [], t, rfl, .nil, (pure_ok.mp h).2⟩
    | some c =>
      obtain ⟨v, p, qs, t, rfl, hv, rfl⟩ := htaken
      obtain ⟨cs, _, hcs, h⟩ := bind_ok.mp h
      obtain ⟨w, ps, t, rfl, hw, rfl⟩ := ih hcs
      exact ⟨v ++ w, _, t, by simp, chars_append hv hw, (pure_ok.mp h).2⟩

theorem streamStringLoop_taken {n count k : Nat} (h : streamStringLoop count n (onText s sel) = .ok k st) :
    ∃ w ps t sel', s = w ++ '"' :: t ∧ Chars w ps ∧ st = onText t sel' := by
  induction n generalizing s count sel with
  | zero => cases h
  | succ n ih =>
    obtain ⟨r, _, hr, h⟩ := bind_ok.mp h
    have htaken := nextDecodedStringChar_taken hr
    cases r with
    | none =>
      obtain ⟨t, rfl, rfl⟩ := htaken
      exact ⟨[], [], t, sel, rfl, .nil, (pure_ok.mp h).2⟩
    | some c =>
      obtain ⟨v, p, qs, t, rfl, hv, rfl⟩ := htaken
      obtain ⟨_, _, hwrite, h⟩ := bind_ok.mp h
      cases hwrite
      obtain ⟨w, ps, t, sel', rfl, hw, rfl⟩ := ih h
      exact ⟨v ++ w, _, t, sel', by simp, chars_append hv hw, rfl⟩

/-! ## Decoded strings: a string is decoded -/

/-- A high unit that no low unit follows. -/
theorem readSurrogatePair_alone {high : Nat} {ps : List Piece} (hw : Chars w ps) (ht : t ≠ [])
    (hps : ∀ low qs, ps = .unit low :: qs → isLow low = false) :
    readSurrogatePair high (onText (w ++ '"' :: t) sel) = .ok replacement (onText (w ++ '"' :: t) sel) := by
  have hback : ∀ (a b : Char) (s : List Char), [a, b] ≠ ['\\', 'u'] →
      readSurrogatePair high (onText (a :: b :: s) sel) = .ok replacement (onText (a :: b :: s) sel) := by
    intro a b s hab
    refine bind_ok.mpr ⟨a, _, readRequired_cons a, bind_ok.mpr ⟨b, _, readRequired_cons b, ?_⟩⟩
    rw [if_pos hab]
    exact bind_ok.mpr ⟨(), _, unread_ok.mpr rfl, pure_ok.mpr ⟨rfl, rfl⟩⟩
  obtain ⟨x, t, rfl⟩ := List.exists_cons_of_ne_nil ht
  cases hw with
  | nil => exact hback _ _ _ (by simp)
  | @cons v u p qs hv hu =>
    cases hv with
    | @unescaped c hc =>
      have hab : ∀ b, [c, b] ≠ ['\\', 'u'] := fun b h => hc.2.2 (List.cons_eq_cons.mp h).1
      cases u with
      | nil => exact hback _ _ _ (hab _)
      | cons b u => exact hback _ _ _ (hab _)
    | @escaped e c he =>
      refine hback _ _ _ ?_
      rintro h
      obtain rfl : e = 'u' := by simpa using h
      cases he
    | @hex a b c d hhex =>
      refine bind_ok.mpr ⟨_, _, readRequired_cons _, bind_ok.mpr ⟨_, _, readRequired_cons _, ?_⟩⟩
      have hlow := hps _ _ rfl
      rw [if_neg (not_not.mpr rfl)]
      refine bind_ok.mpr ⟨_, _, readHexQuad_hex hhex, ?_⟩
      simp only [isLow, Bool.and_eq_false_iff, decide_eq_false_iff_not] at hlow
      rw [if_neg (by omega)]
      exact bind_ok.mpr ⟨(), _, unread_ok.mpr rfl, pure_ok.mpr ⟨rfl, rfl⟩⟩

theorem readSurrogatePair_pair {a b c d : Char} {high : Nat} (hhex : ∀ x ∈ [a, b, c, d], x ∈ hexDigits)
    (hlow : isLow (hexNumber [a, b, c, d])) :
    readSurrogatePair high (onText ('\\' :: 'u' :: a :: b :: c :: d :: s) sel) =
      .ok (combine high (hexNumber [a, b, c, d])) (onText s sel) := by
  refine bind_ok.mpr ⟨_, _, readRequired_cons _, bind_ok.mpr ⟨_, _, readRequired_cons _, ?_⟩⟩
  rw [if_neg (not_not.mpr rfl)]
  refine bind_ok.mpr ⟨_, _, readHexQuad_hex hhex, ?_⟩
  simp only [isLow, Bool.and_eq_true, decide_eq_true_eq] at hlow
  rw [if_pos hlow, Nat.shiftLeft_eq]
  exact pure_ok.mpr ⟨rfl, rfl⟩

/-- A round on an escape is its decoding. -/
theorem nextDecodedStringChar_escape {r : Char} (h : readEscape (onText s sel) = .ok r st) :
    nextDecodedStringChar (onText ('\\' :: s) sel) = .ok (some r) st := by
  refine bind_ok.mpr ⟨_, _, readRequired_cons _, ?_⟩
  rw [if_neg (by decide)]
  refine bind_ok.mpr ⟨(), _, validateStringChar_ok.mpr ⟨by decide, rfl⟩, ?_⟩
  rw [if_pos rfl, map_eq_pure_bind]
  exact bind_ok.mpr ⟨r, _, h, pure_ok.mpr ⟨rfl, rfl⟩⟩

/-- A round takes one element off the decoded string. -/
theorem nextDecodedStringChar_decodes {p : Piece} {ps : List Piece} (hw : Chars w (p :: ps)) (ht : t ≠ []) :
    ∃ e qs u, decode (p :: ps) = e :: decode qs ∧ Chars u qs ∧ u.length < w.length ∧ ∀ sel,
      nextDecodedStringChar (onText (w ++ '"' :: t) sel) = .ok (some e.replaced) (onText (u ++ '"' :: t) sel) := by
  cases hw with
  | @cons v u p ps hv hu =>
  cases hv with
  | @unescaped c hc =>
    refine ⟨.scalar c, ps, u, decode_plain c ps, hu, by simp, fun sel => ?_⟩
    refine bind_ok.mpr ⟨c, _, readRequired_cons c, ?_⟩
    rw [if_neg hc.2.1]
    refine bind_ok.mpr ⟨(), _, validateStringChar_ok.mpr ⟨hc.1, rfl⟩, ?_⟩
    rw [if_neg hc.2.2]
    exact pure_ok.mpr ⟨rfl, rfl⟩
  | @escaped x c hx =>
    have hne : x ≠ 'u' := by
      rintro rfl
      cases hx
    refine ⟨.scalar c, ps, u, decode_plain c ps, hu, by
      simp only [List.cons_append, List.nil_append, List.length_cons]
      omega,
      fun sel => nextDecodedStringChar_escape ?_⟩
    refine bind_ok.mpr ⟨x, _, readRequired_cons x, ?_⟩
    rw [if_neg hne, simpleJsonEscapes_eq, hx]
    exact pure_ok.mpr ⟨rfl, rfl⟩
  | @hex a b c d hhex =>
    -- the escape's code unit decides, and for a high one what follows it
    have hunit : ∀ (r : Char) (s : List Char) (sel : ResultSelection),
        (if 0xD800 ≤ hexNumber [a, b, c, d] ∧ hexNumber [a, b, c, d] ≤ 0xDBFF then readSurrogatePair (hexNumber [a, b, c, d])
          else if 0xDC00 ≤ hexNumber [a, b, c, d] ∧ hexNumber [a, b, c, d] ≤ 0xDFFF then pure replacement
          else pure (Char.ofNat (hexNumber [a, b, c, d]))) (onText (u ++ '"' :: t) sel) = .ok r (onText s sel) →
        nextDecodedStringChar (onText (['\\', 'u', a, b, c, d] ++ u ++ '"' :: t) sel) = .ok (some r) (onText s sel) := by
      intro r s sel h
      refine nextDecodedStringChar_escape (bind_ok.mpr ⟨_, _, readRequired_cons _, ?_⟩)
      rw [if_pos rfl]
      exact bind_ok.mpr ⟨_, _, readHexQuad_hex hhex, h⟩
    generalize hexNumber [a, b, c, d] = n at hunit
    by_cases hhigh : isHigh n = true
    · have hcond : 0xD800 ≤ n ∧ n ≤ 0xDBFF := by simpa [isHigh] using hhigh
      by_cases hpair : ∃ low qs, ps = .unit low :: qs ∧ isLow low
      · obtain ⟨low, qs, rfl, hlow⟩ := hpair
        cases hu with
        | @cons v u _ _ hv hu =>
        cases hv with
        | hex hhex' =>
          refine ⟨_, qs, u, decode_pair hhigh hlow qs, hu, by simp; omega, fun sel => hunit _ _ _ ?_⟩
          rw [if_pos hcond]
          exact readSurrogatePair_pair hhex' hlow
      · have hlow : ∀ low qs, ps = .unit low :: qs → isLow low = false := by
          intro low qs hps
          by_contra h
          exact hpair ⟨low, qs, hps, by simpa using h⟩
        refine ⟨_, ps, u, decode_single fun _ => hlow, hu, by simp; omega, fun sel => hunit _ _ _ ?_⟩
        rw [if_pos hcond, readSurrogatePair_alone hu ht hlow]
        simp [single, hhigh, Element.replaced, replacement]
    · have hcond : ¬ (0xD800 ≤ n ∧ n ≤ 0xDBFF) := by simpa [isHigh] using hhigh
      refine ⟨_, ps, u, decode_single fun h => absurd h hhigh, hu, by simp; omega, fun sel => hunit _ _ _ ?_⟩
      rw [if_neg hcond]
      by_cases hlow : isLow n = true
      · rw [if_pos (by simpa [isLow] using hlow)]
        simp [single, hlow, Element.replaced, replacement]
      · rw [if_neg (by simpa [isLow] using hlow)]
        simp [single, hlow, hhigh, Element.replaced]

theorem nextDecodedStringChar_quote : nextDecodedStringChar (onText ('"' :: t) sel) = .ok none (onText t sel) := by
  refine bind_ok.mpr ⟨_, _, readRequired_cons _, ?_⟩
  rw [if_pos rfl]
  exact pure_ok.mpr ⟨rfl, rfl⟩

theorem readStringLoop_decodes {n : Nat} {ps : List Piece} (hw : Chars w ps) (ht : t ≠ []) (hn : w.length < n) :
    readStringLoop n (onText (w ++ '"' :: t) sel) = .ok ((decode ps).map Element.replaced) (onText t sel) := by
  induction n generalizing w ps with
  | zero => omega
  | succ n ih =>
    cases ps with
    | nil =>
      cases hw
      exact bind_ok.mpr ⟨none, _, nextDecodedStringChar_quote, pure_ok.mpr ⟨rfl, rfl⟩⟩
    | cons p ps =>
      obtain ⟨e, qs, u, hdec, hu, hlen, hnext⟩ := nextDecodedStringChar_decodes hw ht
      rw [hdec]
      exact bind_ok.mpr ⟨_, _, hnext sel, bind_ok.mpr ⟨_, _, ih hu (by omega), pure_ok.mpr ⟨rfl, rfl⟩⟩⟩

/-- The selection after text has been written. -/
def written (cs : List Char) (sel : ResultSelection) : ResultSelection := { sel with file := sel.file.map (· ++ cs) }

theorem streamStringLoop_decodes {n count : Nat} {ps : List Piece} (hw : Chars w ps) (ht : t ≠ []) (hn : w.length < n) :
    streamStringLoop count n (onText (w ++ '"' :: t) sel) =
      .ok (count + (decode ps).length) (onText t (written ((decode ps).map Element.replaced) sel)) := by
  induction n generalizing w ps count sel with
  | zero => omega
  | succ n ih =>
    cases ps with
    | nil =>
      cases hw
      refine bind_ok.mpr ⟨none, _, nextDecodedStringChar_quote, pure_ok.mpr ⟨rfl, ?_⟩⟩
      cases hfile : sel.file <;> simp [written, decode]
    | cons p ps =>
      obtain ⟨e, qs, u, hdec, hu, hlen, hnext⟩ := nextDecodedStringChar_decodes hw ht
      rw [hdec]
      refine bind_ok.mpr ⟨_, _, hnext sel, bind_ok.mpr ⟨(), onText _ (written [e.replaced] sel), rfl, ?_⟩⟩
      rw [ih hu (by omega)]
      simp [written, Function.comp_def]
      omega

/-! ## Decoded strings -/

theorem readString_taken {cs : List Char} (h : readString (onText s sel) = .ok cs st) :
    ∃ k e t, s = k ++ t ∧ StringText k e ∧ st = onText t sel := by
  obtain ⟨_, _, hquote, h⟩ := bind_ok.mp h
  obtain ⟨s, rfl, rfl⟩ := expect_ok.mp hquote
  rw [fueled_onText] at h
  obtain ⟨w, ps, t, rfl, hw, rfl⟩ := readStringLoop_taken h
  exact ⟨'"' :: (w ++ ['"']), decode ps, t, by simp, ⟨w, ps, rfl, hw, rfl⟩, rfl⟩

theorem readString_decodes {k : List Char} {e : List Element} (hk : StringText k e) (ht : t ≠ []) :
    readString (onText (k ++ t) sel) = .ok (e.map Element.replaced) (onText t sel) := by
  obtain ⟨w, ps, rfl, hw, rfl⟩ := hk
  refine bind_ok.mpr ⟨(), onText (w ++ '"' :: t) sel, expect_ok.mpr ⟨_, by simp, rfl⟩, ?_⟩
  rw [fueled_onText]
  exact readStringLoop_decodes hw ht (by simp only [List.length_append, List.length_cons]; omega)

theorem streamString_taken {k : Nat} (h : streamString (onText s sel) = .ok k st) :
    ∃ v e t sel', s = v ++ t ∧ StringText v e ∧ st = onText t sel' := by
  obtain ⟨_, _, hquote, h⟩ := bind_ok.mp h
  obtain ⟨s, rfl, rfl⟩ := expect_ok.mp hquote
  rw [fueled_onText] at h
  obtain ⟨w, ps, t, sel', rfl, hw, rfl⟩ := streamStringLoop_taken h
  exact ⟨'"' :: (w ++ ['"']), decode ps, t, sel', by simp, ⟨w, ps, rfl, hw, rfl⟩, rfl⟩

theorem streamString_decodes {v : List Char} {e : List Element} (hv : StringText v e) (ht : t ≠ []) :
    streamString (onText (v ++ t) sel) = .ok e.length (onText t (written (e.map Element.replaced) sel)) := by
  obtain ⟨w, ps, rfl, hw, rfl⟩ := hv
  refine bind_ok.mpr ⟨(), onText (w ++ '"' :: t) sel, expect_ok.mpr ⟨_, by simp, rfl⟩, ?_⟩
  rw [fueled_onText, streamStringLoop_decodes hw ht (by simp only [List.length_append, List.length_cons]; omega), Nat.zero_add]

end Crewplane.Claude
