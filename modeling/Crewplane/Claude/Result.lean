import Crewplane.Claude.Derivations
import Mathlib.Data.List.Induction
/-
# The parser accepts the objects of RFC 8259 and writes the last result

The members of the outer object in turn: what the parser takes is a member, and a member is taken with
its effect on the selection. The outcome is read off the members (`resultStrings`).
-/
namespace Crewplane.Claude

open Lib Lib.Rfc8259

variable {sel : ResultSelection} {s t u w x : List Char} {st : State}

/-! ## The specification -/

/-- `"result"` as a decoded string. -/
def resultName : List Element := resultKey.map .scalar

/-- A member the parser lets pass: a result must be a string. -/
def Admitted (m : List Element × Value) : Prop := m.1 = resultName → ∃ e, m.2 = .string e

/-- The results of the object, in order. -/
def resultStrings (ms : List (List Element × Value)) : List (List Element) :=
  ms.filterMap fun m =>
    if m.1 = resultName then match m.2 with
      | .string e => some e
      | _ => none
    else none

/-- The selection once a member has been read. -/
def recorded (sel : ResultSelection) (m : List Element × Value) : ResultSelection :=
  if m.1 = resultName then match m.2 with
    | .string e => ⟨some (e.map Element.replaced), some e.length⟩
    | _ => sel
  else sel

/-- The last result is what is recorded. -/
theorem foldl_recorded (ms : List (List Element × Value)) (sel : ResultSelection) :
    ms.foldl recorded sel = match (resultStrings ms).getLast? with
      | none => sel
      | some e => ⟨some (e.map Element.replaced), some e.length⟩ := by
  induction ms using List.reverseRecOn with
  | nil => rfl
  | append_singleton ms m ih =>
    rw [List.foldl_append, List.foldl_cons, List.foldl_nil, ih, recorded]
    by_cases hm : m.1 = resultName
    · cases hv : m.2 <;> simp [resultStrings, hm, hv]
    · simp [resultStrings, hm]

/-- No replaced surrogate makes a name look like another one. -/
theorem replaced_eq {e : List Element} {cs : List Char} (hcs : replacement ∉ cs) :
    e.map Element.replaced = cs ↔ e = cs.map .scalar := by
  induction e generalizing cs with
  | nil => cases cs <;> simp
  | cons a e ih =>
    cases cs with
    | nil => simp
    | cons c cs =>
      simp only [List.mem_cons, not_or] at hcs
      cases a with
      | scalar d => simp [Element.replaced, ih hcs.2]
      | surrogate n =>
        have hc : Element.replaced (.surrogate n) ≠ c := hcs.1
        simp [hc]

/-! ## What is taken -/

theorem readString_ok {cs : List Char} (h : readString (onText s sel) = .ok cs st) :
    ∃ k e t, s = k ++ t ∧ StringText k e ∧ st = onText t sel ∧ (t ≠ [] → cs = e.map Element.replaced) := by
  obtain ⟨k, e, t, rfl, hk, rfl⟩ := readString_taken h
  refine ⟨k, e, t, rfl, hk, rfl, fun ht => ?_⟩
  rw [readString_decodes hk ht] at h
  cases h
  rfl

theorem parseMember_taken {v : Unit} (h : parseMember (onText s sel) = .ok v st) :
    ∃ w m t sel', s = w ++ t ∧ Derives w (.member m) ∧ Admitted m ∧ st = onText t sel' := by
  obtain ⟨cs, _, hread, hafterKey⟩ := bind_ok.mp h
  obtain ⟨key, e, s, rfl, hkey, rfl, hcs⟩ := readString_ok hread
  obtain ⟨_, _, hws, hafterWs⟩ := bind_ok.mp hafterKey
  obtain ⟨hne, rfl⟩ := skipWhitespace_ok.mp hws
  obtain ⟨_, _, hcolon, hvalue⟩ := bind_ok.mp hafterWs
  obtain ⟨x, hx, rfl⟩ := expect_ok.mp hcolon
  obtain ⟨l, hl, rfl, -⟩ := structural_of_dropWs hx
  obtain ⟨_, _, hws', hselect⟩ := bind_ok.mp hvalue
  obtain ⟨-, rfl⟩ := skipWhitespace_ok.mp hws'
  have hname : cs = resultKey ↔ e = resultName := by
    rw [hcs (by simp)]
    exact replaced_eq (by decide)
  obtain ⟨l', hl', hsplit⟩ := dropWs_split x
  generalize dropWs x = y at hsplit hselect
  subst hsplit
  have hmember : ∀ {w t v}, Derives w (.value v) → y = w ++ t →
      key ++ (l ++ ':' :: (l' ++ y)) = (key ++ (l ++ ':' :: l') ++ w) ++ t ∧
        Derives (key ++ (l ++ ':' :: l') ++ w) (.member (e, v)) := by
    rintro w t v hv rfl
    exact ⟨by simp, .member hkey ⟨l, l', hl, hl', rfl⟩ hv⟩
  split at hselect
  next hresult =>
    obtain ⟨count, _, hread, hmodify⟩ := bind_ok.mp hselect
    obtain ⟨r, _, hpeek, hbranch⟩ := bind_ok.mp hread
    rw [peek_onText, EStateM.Result.ok.injEq] at hpeek
    obtain ⟨rfl, rfl⟩ := hpeek
    split at hbranch
    · obtain ⟨_, _, -, hraise⟩ := bind_ok.mp hbranch
      exact absurd hraise malformed_ok
    · obtain ⟨_, _, hopen, hstream⟩ := bind_ok.mp hbranch
      cases hopen
      obtain ⟨w, d, t, sel', hy, hw, rfl⟩ := streamString_taken hstream
      obtain ⟨heq, hm⟩ := hmember (.string hw) hy
      cases hmodify
      exact ⟨_, _, t, _, heq, hm, fun _ => ⟨d, rfl⟩, rfl⟩
  next hresult =>
    obtain ⟨l'', w, t, rfl, hl'', ⟨v, hv⟩, rfl⟩ := skipValue_taken hselect
    refine ⟨key ++ (l ++ ':' :: (l' ++ l'')) ++ w, (e, v), t, sel, by simp, ?_, ?_, rfl⟩
    · exact .member hkey ⟨l, l' ++ l'', hl, hl'.append hl'', rfl⟩ hv
    · intro he
      exact absurd (hname.mpr he) hresult

theorem parseMembersLoop_taken {n : Nat} {v : Unit} (h : parseMembersLoop n (onText s sel) = .ok v st) :
    ∃ w m u ms e t sel', s = w ++ u ++ e ++ t ∧ Derives w (.member m) ∧ Derives u (.moreMembers ms) ∧
      Structural '\x7d' e ∧ (∀ m' ∈ m :: ms, Admitted m') ∧ st = onText t sel' := by
  induction n generalizing s sel with
  | zero => cases h
  | succ n ih =>
    obtain ⟨_, _, hmember, hafter⟩ := bind_ok.mp h
    obtain ⟨w, m, s, sel, rfl, hw, hm, rfl⟩ := parseMember_taken hmember
    obtain ⟨_, _, hws, hsep⟩ := bind_ok.mp hafter
    obtain ⟨-, rfl⟩ := skipWhitespace_ok.mp hws
    obtain ⟨l, hl, hs⟩ := dropWs_split s
    generalize dropWs s = y at hs hsep
    clear h hafter hmember hws
    subst hs
    obtain ⟨b, _, hnext, hrest⟩ := bind_ok.mp hsep
    obtain ⟨t, rfl, ⟨rfl, rfl⟩ | ⟨rfl, rfl⟩⟩ := readHasNextItem_ok hnext
    · obtain ⟨-, rfl⟩ := pure_ok.mp hrest
      exact ⟨w, m, [], [], l ++ ['\x7d'], t, sel, by simp, hw, .noMembers, ⟨l, [], hl, ws_nil, rfl⟩, by simpa, rfl⟩
    · simp only [if_true] at hrest
      obtain ⟨_, _, hws, hloop⟩ := bind_ok.mp hrest
      obtain ⟨-, rfl⟩ := skipWhitespace_ok.mp hws
      obtain ⟨l', hl', ht⟩ := dropWs_split t
      generalize dropWs t = y at ht hloop
      clear hrest hws hsep hnext
      subst ht
      obtain ⟨w', m', u, ms, e, t, sel', rfl, hw', hu, he, hms, rfl⟩ := ih hloop
      refine ⟨w, m, l ++ ',' :: l' ++ w' ++ u, m' :: ms, e, t, sel', by simp, hw, ?_, he, ?_, rfl⟩
      · exact .moreMembers ⟨l, l', hl, hl', rfl⟩ hw' hu
      · simpa using ⟨hm, by simpa using hms⟩

theorem consumeObjectEnd_ok {b : Bool} (h : consumeObjectEnd (onText s sel) = .ok b st) :
    b = false ∧ st = onText s sel ∨ b = true ∧ ∃ t, s = '\x7d' :: t ∧ st = onText t sel := by
  obtain ⟨r, _, hpeek, h⟩ := bind_ok.mp h
  rw [peek_onText, EStateM.Result.ok.injEq] at hpeek
  obtain ⟨rfl, rfl⟩ := hpeek
  split at h
  · exact .inl (pure_ok.mp h)
  · obtain ⟨_, _, hclose, h⟩ := bind_ok.mp h
    obtain ⟨t, rfl, rfl⟩ := expect_ok.mp hclose
    exact .inr ⟨(pure_ok.mp h).1, t, rfl, (pure_ok.mp h).2⟩

theorem parseMembers_taken {v : Unit} (h : parseMembers (onText s sel) = .ok v st) :
    ∃ l w ms t sel', s = l ++ w ++ t ∧ Ws l ∧ (∀ o, Structural '\x7b' o → Derives (o ++ w) (.value (.object ms))) ∧
      (∀ m ∈ ms, Admitted m) ∧ st = onText t sel' := by
  obtain ⟨_, _, hws, hend⟩ := bind_ok.mp h
  obtain ⟨-, rfl⟩ := skipWhitespace_ok.mp hws
  obtain ⟨l, hl, hs⟩ := dropWs_split s
  generalize dropWs s = y at hs hend
  clear h hws
  subst hs
  obtain ⟨b, _, hclose, hrest⟩ := bind_ok.mp hend
  rcases consumeObjectEnd_ok hclose with ⟨rfl, rfl⟩ | ⟨rfl, t, rfl, rfl⟩
  · simp only [Bool.false_eq_true, if_false, fueled_onText] at hrest
    obtain ⟨w, m, u, ms, e, t, sel', rfl, hw, hu, he, hms, rfl⟩ := parseMembersLoop_taken hrest
    refine ⟨l, w ++ u ++ e, m :: ms, t, sel', by simp, hl, fun o ho => ?_, hms, rfl⟩
    simpa using Derives.object ho hw hu he
  · obtain ⟨-, rfl⟩ := pure_ok.mp hrest
    exact ⟨l, ['\x7d'], [], t, sel, by simp, hl, fun o ho => .emptyObject ho (structural_self _), by simp, rfl⟩

theorem parse_taken {v : Unit} (h : parse (onText s sel) = .ok v st) :
    ∃ ms, JsonText s (.object ms) ∧ ∀ m ∈ ms, Admitted m := by
  obtain ⟨_, _, hws, hopen⟩ := bind_ok.mp h
  obtain ⟨-, rfl⟩ := skipWhitespace_ok.mp hws
  obtain ⟨_, _, hbrace, hbody⟩ := bind_ok.mp hopen
  obtain ⟨x, hx, rfl⟩ := expect_ok.mp hbrace
  obtain ⟨l, hl, rfl, -⟩ := structural_of_dropWs hx
  obtain ⟨_, _, hmembers, htrailing⟩ := bind_ok.mp hbody
  obtain ⟨l', w, ms, t, sel', rfl, hl', hw, hms, rfl⟩ := parseMembers_taken hmembers
  obtain ⟨ht, -⟩ := skipTrailingWhitespace_ok.mp htrailing
  exact ⟨ms, ⟨l, '\x7b' :: l' ++ w, t, by simp, hl, hw _ ⟨[], l', ws_nil, hl', rfl⟩, ht⟩, hms⟩

/-! ## What is recorded -/

theorem readResultValue_walked {e : List Element} (hw : StringText w e) (ht : t ≠ []) :
    readResultValue (onText (w ++ t) sel) = .ok e.length (onText t { sel with file := some (e.map Element.replaced) }) := by
  obtain ⟨k, hk⟩ := stringText_head hw
  refine bind_ok.mpr ⟨_, _, peek_onText, ?_⟩
  rw [if_neg (by simp [hk])]
  refine bind_ok.mpr ⟨(), onText (w ++ t) { sel with file := some [] }, rfl, ?_⟩
  rw [streamString_decodes hw ht]
  simp [written]

theorem parseMember_walked (sel : ResultSelection) {m : List Element × Value} (hw : Derives w (.member m)) (hm : Admitted m) (hs : Follow s)
    (hne : s ≠ []) : ∃ t, parseMember (onText (w ++ s) sel) = .ok () (onText t (recorded sel m)) ∧ dropWs t = dropWs s := by
  cases hw with
  | @member key c v e value hkey hc hv =>
    obtain ⟨r, hr, hdrop⟩ := structural_dropWs hc (by decide)
    have hcolon := dropWs_append_cons hdrop (v ++ s)
    obtain ⟨a, y, hay, -⟩ := walked hv s hs
    have hstart : dropWs (r ++ (v ++ s)) = a :: y := (dropWs_append hr _).trans hay
    have hname : e.map Element.replaced = resultKey ↔ e = resultName := replaced_eq (by decide)
    -- the member up to its value
    have hhead : ∀ {t sel'}, (if e.map Element.replaced = resultKey then do
          let charCount ← readResultValue
          modify fun st => { st with selection := { st.selection with charCount := some charCount } }
        else skipValue : ParserM Unit) (onText (a :: y) sel) = .ok () (onText t sel') →
        parseMember (onText (key ++ c ++ v ++ s) sel) = .ok () (onText t sel') := by
      intro t sel' hvalue
      have hsplit : key ++ c ++ v ++ s = key ++ (c ++ (v ++ s)) := by simp
      have hrest : c ++ (v ++ s) ≠ [] := by
        intro h
        rw [h] at hcolon
        cases hcolon
      rw [hsplit]
      refine bind_ok.mpr ⟨_, _, readString_decodes hkey hrest, bind_ok.mpr ⟨(), _, skipWhitespace_to _ hcolon, ?_⟩⟩
      exact bind_ok.mpr ⟨(), _, expect_cons _, bind_ok.mpr ⟨(), _, skipWhitespace_to _ hstart, hvalue⟩⟩
    by_cases he : e = resultName
    · obtain ⟨d, rfl⟩ := hm he
      cases hv with
      | string hv =>
        obtain ⟨z, hz⟩ := stringText_head hv
        have hay' : a :: y = v ++ s := by
          rw [← hay, hz]
          exact dropWs_cons (by decide) _
        refine ⟨s, hhead ?_, rfl⟩
        rw [if_pos (hname.mpr he), hay']
        refine bind_ok.mpr ⟨_, _, readResultValue_walked hv hne, ?_⟩
        simp only [recorded, he, if_true]
        rfl
    · obtain ⟨t, hskip, ht⟩ := skipValue_walked sel hv hs ((dropWs_cons (isWs_head hay) y).trans hay.symm)
      refine ⟨t, hhead ?_, ht⟩
      rw [if_neg fun h => he (hname.mp h), hskip]
      simp [recorded, he]

theorem member_head {m : List Element × Value} (h : Derives w (.member m)) : ∃ v, w = '"' :: v := by
  cases h with
  | member hkey _ _ =>
    obtain ⟨v, rfl⟩ := stringText_head hkey
    exact ⟨_, rfl⟩

theorem member_dropWs {m : List Element × Value} (h : Derives w (.member m)) (s : List Char) :
    dropWs (w ++ s) = w ++ s := by
  obtain ⟨v, rfl⟩ := member_head h
  exact dropWs_cons (by decide) _

theorem parseMembersLoop_walked (sel : ResultSelection) {n : Nat} {m : List Element × Value} {ms : List (List Element × Value)} {e : List Char}
    (hw : Derives w (.member m)) (hu : Derives u (.moreMembers ms)) (he : Structural '\x7d' e)
    (hms : ∀ m' ∈ m :: ms, Admitted m') (hn : ms.length < n) :
    ∃ t, parseMembersLoop n (onText (w ++ (u ++ (e ++ s))) sel) = .ok () (onText t ((m :: ms).foldl recorded sel)) ∧
      dropWs t = dropWs s := by
  induction n generalizing w u m ms sel with
  | zero => omega
  | succ n ih =>
    have hend := follow_structural he (by decide) s
    have hne : u ++ (e ++ s) ≠ [] := by
      obtain ⟨l, r, -, -, rfl⟩ := he
      simp
    obtain ⟨x, hmember, hx⟩ := parseMember_walked sel hw (hms m List.mem_cons_self)
      (follow_more (k := .object) ⟨ms, hu⟩ hend) hne
    cases hu with
    | noMembers =>
      obtain ⟨r, hr, hdrop⟩ := structural_dropWs he (by decide)
      have hclose : dropWs x = '\x7d' :: (r ++ s) := hx.trans (dropWs_append_cons hdrop s)
      refine ⟨r ++ s, bind_ok.mpr ⟨(), _, hmember, bind_ok.mpr ⟨(), _, skipWhitespace_to _ hclose, ?_⟩⟩, dropWs_append hr s⟩
      refine bind_ok.mpr ⟨false, onText (r ++ s) _, bind_ok.mpr ⟨_, _, readRequired_cons _, ?_⟩, pure_ok.mpr ⟨rfl, rfl⟩⟩
      rw [if_pos rfl]
      exact pure_ok.mpr ⟨rfl, rfl⟩
    | @moreMembers c w' u m' ms hc hw' hu =>
      obtain ⟨r, hr, hdrop⟩ := structural_dropWs hc (by decide)
      have hcomma : dropWs x = ',' :: (r ++ (w' ++ (u ++ (e ++ s)))) := by
        simpa using hx.trans (by simpa using dropWs_append_cons hdrop (w' ++ (u ++ (e ++ s))))
      have hstart : dropWs (r ++ (w' ++ (u ++ (e ++ s)))) = w' ++ (u ++ (e ++ s)) :=
        (dropWs_append hr _).trans (member_dropWs hw' _)
      obtain ⟨t, hloop, ht⟩ := ih (recorded sel m) hw' hu (fun a ha => hms a (List.mem_cons_of_mem m ha))
        (by simpa using hn)
      refine ⟨t, bind_ok.mpr ⟨(), _, hmember, bind_ok.mpr ⟨(), _, skipWhitespace_to _ hcomma, ?_⟩⟩, ht⟩
      refine bind_ok.mpr ⟨true, onText (r ++ (w' ++ (u ++ (e ++ s)))) (recorded sel m), bind_ok.mpr ⟨_, _, readRequired_cons _, ?_⟩, ?_⟩
      · rw [if_neg (by decide), if_neg (not_not.mpr rfl)]
        exact pure_ok.mpr ⟨rfl, rfl⟩
      · refine bind_ok.mpr ⟨(), _, skipWhitespace_ok.mpr ⟨?_, rfl⟩, ?_⟩
        · obtain ⟨v, rfl⟩ := member_head hw'
          rw [hstart]
          simp
        · rw [hstart]
          exact hloop

/-- Each further member takes at least its separator. -/
theorem moreMembers_length {ms : List (List Element × Value)} (h : Derives u (.moreMembers ms)) : ms.length ≤ u.length := by
  induction ms generalizing u with
  | nil => simp
  | cons m ms ih =>
    cases h with
    | moreMembers hc _ hu =>
      obtain ⟨l, r, -, -, rfl⟩ := hc
      have hlen := ih hu
      simp
      omega

theorem parse_walked {ms : List (List Element × Value)} (h : JsonText s (.object ms)) (hms : ∀ m ∈ ms, Admitted m) :
    parse (onText s sel) = .ok () (onText [] (ms.foldl recorded sel)) := by
  obtain ⟨l, w, r, rfl, hl, hw, hr⟩ := h
  -- after the opening brace
  have hopen : ∀ {o y t : List Char} {ms : List (List Element × Value)}, Structural '\x7b' o → w = o ++ y →
      (∀ z, dropWs z = dropWs (y ++ r) → parseMembers (onText z sel) = .ok () (onText t (ms.foldl recorded sel))) →
      dropWs t = dropWs r → parse (onText (l ++ w ++ r) sel) = .ok () (onText [] (ms.foldl recorded sel)) := by
    rintro o y t ms ho rfl hbody ht
    obtain ⟨o', ho', hdrop⟩ := structural_dropWs ho (by decide)
    have hbrace : dropWs (l ++ (o ++ y) ++ r) = '\x7b' :: (o' ++ (y ++ r)) := by
      rw [List.append_assoc, dropWs_append hl, List.append_assoc]
      exact dropWs_append_cons hdrop _
    have hws : Ws t := by
      obtain ⟨t', ht', hsplit⟩ := dropWs_split t
      have hnil : dropWs r = [] := by simpa [dropWs, Ws] using hr
      rw [hsplit, ht, hnil, List.append_nil]
      exact ht'
    refine bind_ok.mpr ⟨(), _, skipWhitespace_to _ hbrace, bind_ok.mpr ⟨(), _, expect_cons _, ?_⟩⟩
    exact bind_ok.mpr ⟨(), _, hbody _ (dropWs_append ho' _), skipTrailingWhitespace_ok.mpr ⟨hws, rfl⟩⟩
  cases hw with
  | @emptyObject o e ho he =>
    obtain ⟨e', he', hdrop⟩ := structural_dropWs he (by decide)
    refine hopen (y := e) (t := e' ++ r) ho rfl (fun z hz => ?_) (dropWs_append he' r)
    refine bind_ok.mpr ⟨(), _, skipWhitespace_to _ (hz.trans (dropWs_append_cons hdrop r)), ?_⟩
    refine bind_ok.mpr ⟨true, onText (e' ++ r) sel, bind_ok.mpr ⟨_, _, peek_onText, ?_⟩, pure_ok.mpr ⟨rfl, rfl⟩⟩
    simp only [List.head?_cons, ne_eq, not_true_eq_false]
    exact bind_ok.mpr ⟨(), _, expect_cons _, pure_ok.mpr ⟨rfl, rfl⟩⟩
  | @object o w u e m ms ho hm hu he =>
    have hlen := moreMembers_length hu
    obtain ⟨t, hloop, ht⟩ := parseMembersLoop_walked sel (s := r) (n := (w ++ (u ++ (e ++ r))).length + 1) hm hu he hms
      (by simp; omega)
    refine hopen (y := w ++ u ++ e) ho (by simp) (fun z hz => ?_) ht
    have hstart : dropWs z = w ++ (u ++ (e ++ r)) := by
      rw [hz, List.append_assoc, List.append_assoc]
      exact member_dropWs hm _
    obtain ⟨v, rfl⟩ := member_head hm
    refine bind_ok.mpr ⟨(), _, skipWhitespace_to _ hstart, ?_⟩
    refine bind_ok.mpr ⟨false, onText ('"' :: v ++ (u ++ (e ++ r))) sel, bind_ok.mpr ⟨_, _, peek_onText, ?_⟩, ?_⟩
    · rw [if_pos (by simp)]
      exact pure_ok.mpr ⟨rfl, rfl⟩
    · simp only [Bool.false_eq_true, if_false, fueled_onText]
      exact hloop

/-! ## The parser -/

/-- The parser never runs out of fuel, its answer does not depend on the cut into chunks, and it accepts exactly
the objects whose results are strings, with the last of them written and counted. -/
theorem parseClaudeResult_accepts (chunks : List (List Char)) (file : Option (List Char)) :
    (parseClaudeResult chunks file).1 ≠ .error .outOfFuel ∧
    (∀ chunks', chunks'.flatten = chunks.flatten → parseClaudeResult chunks' file = parseClaudeResult chunks file) ∧
    ∀ count file', parseClaudeResult chunks file = (.ok count, file') ↔
      ∃ ms, JsonText chunks.flatten (.object ms) ∧ (∀ m ∈ ms, Admitted m) ∧
        match (resultStrings ms).getLast? with
        | none => count = none ∧ file' = file
        | some e => count = some e.length ∧ file' = some (e.map Element.replaced) := by
  have halike : Alike ⟨⟨chunks, [], 0, []⟩, ⟨file, none⟩⟩ (onText chunks.flatten ⟨file, none⟩) :=
    ⟨by simp [JsonCharCursor.rest], rfl⟩
  have hok : ∀ st, parse (onText chunks.flatten ⟨file, none⟩) = .ok () st →
      parseClaudeResult chunks file = (.ok st.selection.charCount, st.selection.file) := by
    intro st hparse
    rcases textual_parse _ _ halike with ⟨a, s, t, hs, ht, hst⟩ | ⟨e, s, t, hs, ht, hst⟩
    · rw [hparse] at ht
      cases ht
      simp [parseClaudeResult, hs, hst.2]
    · simp [hparse] at ht
  have herror : ∀ e st, parse (onText chunks.flatten ⟨file, none⟩) = .error e st →
      parseClaudeResult chunks file = (.error e, st.selection.file) := by
    intro e st hparse
    rcases textual_parse _ _ halike with ⟨a, s, t, hs, ht, hst⟩ | ⟨e', s, t, hs, ht, hst⟩
    · simp [hparse] at ht
    · rw [hparse] at ht
      cases ht
      simp [parseClaudeResult, hs, hst.2]
  refine ⟨?_, fun chunks' h => parseClaudeResult_flatten h file, fun count file' => ?_⟩
  · cases hparse : parse (onText chunks.flatten ⟨file, none⟩) with
    | ok _ st => simp [hok st hparse]
    | error e st =>
      rw [herror e st hparse]
      have hfuel := (net_parse _).error (le_refl _) hparse
      simpa using hfuel
  · constructor
    · intro h
      cases hparse : parse (onText chunks.flatten ⟨file, none⟩) with
      | error e st => simp [herror e st hparse] at h
      | ok _ st =>
        obtain ⟨ms, htext, hms⟩ := parse_taken hparse
        refine ⟨ms, htext, hms, ?_⟩
        rw [hok _ (parse_walked htext hms)] at h
        simp only [foldl_recorded] at h
        cases hlast : (resultStrings ms).getLast? with
        | none => simpa [hlast, eq_comm] using h
        | some e => simpa [hlast, eq_comm] using h
    · rintro ⟨ms, htext, hms, hlast⟩
      rw [hok _ (parse_walked htext hms)]
      simp only [foldl_recorded]
      cases hl : (resultStrings ms).getLast? with
      | none =>
        rw [hl] at hlast
        simp [hlast]
      | some e =>
        rw [hl] at hlast
        simp [hlast]

end Crewplane.Claude
