import Crewplane.Lib.PyJsonSorted
/-
# The length of a JSON text

How many bytes of UTF-8 the text of a value takes. The order of the members of a dict does not matter (`width_sorted`),
and a value that is `Slimmer` than another, place by place, can be written when the other can and takes no more bytes.
-/
namespace Crewplane.Lib.PyJson

open Rfc8259

/-- The length of the UTF-8 encoding. -/
def bytes (chars : List Char) : Nat := (chars.map Char.utf8Size).sum

@[simp] theorem bytes_nil : bytes [] = 0 := rfl

@[simp] theorem bytes_cons (c : Char) (chars : List Char) : bytes (c :: chars) = c.utf8Size + bytes chars := by
  simp [bytes]

@[simp] theorem bytes_append (a b : List Char) : bytes (a ++ b) = bytes a + bytes b := by
  simp [bytes]

theorem utf8Size_of_ascii {c : Char} (h : c.toNat ≤ 127) : c.utf8Size = 1 := by
  have hval : c.val ≤ 127 := UInt32.le_iff_toNat_le.mpr h
  simp [Char.utf8Size, hval]

theorem bytes_of_ascii {chars : List Char} (h : ∀ c ∈ chars, c.toNat ≤ 127) : bytes chars = chars.length := by
  induction chars with
  | nil => rfl
  | cons c chars ih =>
    rw [bytes_cons, utf8Size_of_ascii (h c List.mem_cons_self), ih fun d hd => h d (List.mem_cons_of_mem c hd)]
    simp [Nat.add_comm]

section Width

variable (st : Json.Style)

def width (v : Value) : Nat := bytes (text st v)

/-- What stands between two items. -/
def gap : Nat := 1 + bytes st.itemSpace

def memberWidth (kv : Str × Value) : Nat := bytes (quoted st kv.1) + 1 + bytes st.keySpace + width st kv.2

theorem bytes_itemsText (items : List Value) :
    bytes (itemsText st items) = (items.map fun v => gap st + width st v).sum + 1 := by
  induction items with
  | nil => simp [itemsText, utf8Size_of_ascii]
  | cons v items ih =>
    rw [itemsText, bytes_cons, bytes_append, bytes_append, ih, List.map_cons, List.sum_cons, gap, width,
      utf8Size_of_ascii (by decide)]
    omega

theorem bytes_memberText (kv : Str × Value) : bytes (memberText st kv) = memberWidth st kv := by
  rw [memberText, bytes_append, bytes_cons, bytes_append, memberWidth, width, utf8Size_of_ascii (by decide)]
  omega

theorem bytes_membersText (members : List (Str × Value)) :
    bytes (membersText st members) = (members.map fun kv => gap st + memberWidth st kv).sum + 1 := by
  induction members with
  | nil => simp [membersText, utf8Size_of_ascii]
  | cons kv members ih =>
    rw [membersText, bytes_cons, bytes_append, bytes_append, bytes_memberText, ih, List.map_cons, List.sum_cons, gap,
      utf8Size_of_ascii (by decide)]
    omega

/-- An array that is not empty: the brackets, and each item with what stands before it, one gap too many. -/
theorem width_arr {items : List Value} (h : items ≠ []) :
    width st (.arr items) + gap st = (items.map fun v => gap st + width st v).sum + 2 := by
  cases items with
  | nil => exact absurd rfl h
  | cons v items =>
    rw [width, text, bytes_cons, bytes_append, bytes_itemsText, List.map_cons, List.sum_cons, width,
      utf8Size_of_ascii (by decide)]
    omega

theorem width_obj {members : List (Str × Value)} (h : members ≠ []) :
    width st (.obj members) + gap st = (members.map fun kv => gap st + memberWidth st kv).sum + 2 := by
  cases members with
  | nil => exact absurd rfl h
  | cons kv members =>
    rw [width, text, bytes_cons, bytes_append, bytes_memberText, bytes_membersText, List.map_cons, List.sum_cons,
      utf8Size_of_ascii (by decide)]
    omega

/-- Sorting the members changes nothing. -/
theorem width_sorted (v : Value) : width st (sorted v) = width st v := by
  induction v using Value.induct with
  | hnull | hbool | hint | hfloat | hstr => rfl
  | harr items ih =>
    rw [sorted, sortedItems_eq]
    by_cases hnil : items = []
    · rw [hnil]
      rfl
    · have hsorted := @width_arr st (items.map sorted) (by simpa using hnil)
      have hitems := width_arr st hnil
      have hsum : ((items.map sorted).map fun v => gap st + width st v) = items.map fun v => gap st + width st v := by
        rw [List.map_map]
        exact List.map_congr_left fun v hv => by rw [Function.comp_apply, ih v hv]
      rw [hsum] at hsorted
      omega
  | hobj members ih =>
    rw [sorted_obj]
    have hperm := List.perm_insertionSort keyLe (members.map fun kv => (kv.1, sorted kv.2))
    by_cases hnil : members = []
    · rw [hnil]
      rfl
    · have hne : (members.map fun kv => (kv.1, sorted kv.2)).insertionSort keyLe ≠ [] := by
        intro hempty
        rw [hempty] at hperm
        simpa [hnil] using hperm.symm.eq_nil
      have hsorted := width_obj st hne
      have hmembers := width_obj st hnil
      have hsum : (((members.map fun kv => (kv.1, sorted kv.2)).insertionSort keyLe).map fun kv => gap st + memberWidth st kv).sum =
          (members.map fun kv => gap st + memberWidth st kv).sum := by
        rw [(hperm.map _).sum_eq, List.map_map]
        refine congrArg List.sum (List.map_congr_left fun kv hkv => ?_)
        simp only [Function.comp_apply, memberWidth, ih kv hkv]
      rw [hsum] at hsorted
      omega

end Width

/-! ## Values that need no more space -/

/-- The value can be written when the other can, and takes no more bytes. -/
structure Slimmer (d : Dumper) (v w : Value) : Prop where
  width : width d.style v ≤ width d.style w
  dumpable : dumpable d w = true → dumpable d v = true

section Slimmer

variable {d : Dumper}

theorem Slimmer.refl (v : Value) : Slimmer d v v := ⟨Nat.le_refl _, id⟩

theorem Slimmer.trans {u v w : Value} (huv : Slimmer d u v) (hvw : Slimmer d v w) : Slimmer d u w :=
  ⟨huv.width.trans hvw.width, fun hw => huv.dumpable (hvw.dumpable hw)⟩

theorem Slimmer.sorted (v : Value) : Slimmer d (sorted v) v :=
  ⟨Nat.le_of_eq (width_sorted _ v), (dumpable_sorted d v).mpr⟩

theorem Slimmer.arr {vs ws : List Value} (h : List.Forall₂ (Slimmer d) vs ws) : Slimmer d (.arr vs) (.arr ws) := by
  constructor
  · by_cases hnil : vs = []
    · subst hnil
      rw [List.forall₂_nil_left_iff.mp h]
    · have hws : ws ≠ [] := by
        rintro rfl
        exact hnil (List.forall₂_nil_right_iff.mp h)
      have hvs := width_arr d.style hnil
      have hws := width_arr d.style hws
      have hsum : (vs.map fun v => gap d.style + PyJson.width d.style v).sum ≤ (ws.map fun v => gap d.style + PyJson.width d.style v).sum := by
        refine List.Forall₂.sum_le_sum (List.forall₂_map_left_iff.mpr (List.forall₂_map_right_iff.mpr (h.imp ?_)))
        exact fun v w hslim => Nat.add_le_add_left hslim.width _
      omega
  · rw [PyJson.dumpable, PyJson.dumpable, dumpableItems_iff, dumpableItems_iff]
    intro hws v hv
    induction h with
    | nil => cases hv
    | cons hslim _ ih =>
      rw [List.forall_mem_cons] at hws
      rcases List.mem_cons.mp hv with rfl | hv
      · exact hslim.dumpable hws.1
      · exact ih hws.2 hv

theorem Slimmer.obj {vs ws : List (Str × Value)} (h : List.Forall₂ (fun a b => a.1 = b.1 ∧ Slimmer d a.2 b.2) vs ws) :
    Slimmer d (.obj vs) (.obj ws) := by
  constructor
  · by_cases hnil : vs = []
    · subst hnil
      rw [List.forall₂_nil_left_iff.mp h]
    · have hws : ws ≠ [] := by
        rintro rfl
        exact hnil (List.forall₂_nil_right_iff.mp h)
      have hvs := width_obj d.style hnil
      have hws := width_obj d.style hws
      have hsum : (vs.map fun kv => gap d.style + memberWidth d.style kv).sum ≤ (ws.map fun kv => gap d.style + memberWidth d.style kv).sum := by
        refine List.Forall₂.sum_le_sum (List.forall₂_map_left_iff.mpr (List.forall₂_map_right_iff.mpr (h.imp ?_)))
        rintro a b ⟨hkey, hslim⟩
        have hwidth := hslim.width
        simp only [memberWidth, hkey]
        omega
      omega
  · rw [PyJson.dumpable, PyJson.dumpable, dumpableMembers_iff, dumpableMembers_iff]
    intro hws kv hkv
    induction h with
    | nil => cases hkv
    | cons hpair _ ih =>
      rw [List.forall_mem_cons] at hws
      rcases List.mem_cons.mp hkv with rfl | hkv
      · exact ⟨hpair.1 ▸ hws.1.1, hpair.2.dumpable hws.1.2⟩
      · exact ih hws.2 hkv

/-- A dict without its last members. -/
theorem Slimmer.front {members more : List (Str × Value)} (h : members ≠ []) :
    Slimmer d (.obj members) (.obj (members ++ more)) := by
  constructor
  · have hfront := width_obj d.style h
    have hwhole := @width_obj d.style (members ++ more) (by simp [h])
    rw [List.map_append, List.sum_append] at hwhole
    omega
  · rw [PyJson.dumpable, PyJson.dumpable, dumpableMembers_iff, dumpableMembers_iff]
    exact fun hwhole kv hkv => hwhole kv (List.mem_append_left more hkv)

/-- A string that is written as it is takes two bytes more than it has characters. -/
theorem width_plain {st : Json.Style} {chars : List Char} (h : ∀ c ∈ chars, Json.escape st c = [c] ∧ c.toNat ≤ 127) :
    width st (.str (Str.ofChars chars)) = chars.length + 2 := by
  have hplain : (Str.ofChars chars).flatMap (escapeElement st) = chars := by
    induction chars with
    | nil => rfl
    | cons c chars ih =>
      rw [List.forall_mem_cons] at h
      rw [Str.ofChars, List.map_cons, List.flatMap_cons, escapeElement, h.1.1, ← Str.ofChars, ih h.2, List.singleton_append]
  rw [width, text, quoted, hplain, bytes_cons, bytes_append, bytes_of_ascii fun c hc => (h c hc).2, bytes_cons, bytes_nil,
    utf8Size_of_ascii (by decide)]
  omega

theorem length_toDigits_mono {m n : Nat} (h : m ≤ n) : (Nat.toDigits 10 m).length ≤ (Nat.toDigits 10 n).length := by
  rw [Nat.length_toDigits_le_iff (by decide) Nat.length_toDigits_pos]
  exact Nat.lt_of_le_of_lt h ((Nat.length_toDigits_le_iff (by decide) Nat.length_toDigits_pos).mp (Nat.le_refl _))

theorem width_nat (st : Json.Style) (n : Nat) : width st (.int n) = (Nat.toDigits 10 n).length := by
  have hascii : ∀ c ∈ Nat.toDigits 10 n, c.toNat ≤ 127 := by
    intro c hc
    have hdigit := Nat.isDigit_of_mem_toDigits (by decide) (by decide) hc
    simp only [Char.isDigit, ge_iff_le, Bool.and_eq_true, decide_eq_true_eq] at hdigit
    have := UInt32.le_iff_toNat_le.mp hdigit.2
    exact Nat.le_trans this (by decide)
  rw [width, text, NumberText.render, NumberText.renderAs]
  have hsign : ¬(n : Int) < 0 := by omega
  simp [NumberText.ofInt, NumberText.minusChars, NumberText.fracChars, NumberText.expChars, NumberText.expText,
    bytes_of_ascii hascii, hsign]

/-- A smaller number has no more digits. -/
theorem Slimmer.nat {m n : Nat} (h : m ≤ n) : Slimmer d (.int m) (.int n) := by
  have hdigits := length_toDigits_mono h
  constructor
  · rwa [width_nat, width_nat]
  · simp only [PyJson.dumpable, Int.natAbs_natCast, decide_eq_true_eq]
    exact hdigits.trans

end Slimmer

end Crewplane.Lib.PyJson
