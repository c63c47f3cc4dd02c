import Crewplane.Lib.PyJson
/-
# Sorting the keys

`sorted v` is the value that `json.dumps(v, sort_keys=True)` writes: `v` up to the order of members, in an order that
sorting again leaves alone. What can be written, and which keys are distinct, does not depend on the order.
-/
namespace Crewplane.Lib.PyJson

open Rfc8259

/-- A property of values by what it says of items and members. -/
theorem Value.induct {motive : Value → Prop} (hnull : motive .null) (hbool : ∀ b, motive (.bool b)) (hint : ∀ n, motive (.int n))
    (hfloat : ∀ x, motive (.float x)) (hstr : ∀ s, motive (.str s))
    (harr : ∀ items, (∀ v ∈ items, motive v) → motive (.arr items))
    (hobj : ∀ members : List (Str × Value), (∀ kv ∈ members, motive kv.2) → motive (.obj members)) (v : Value) : motive v := by
  refine @Value.rec motive (fun items => ∀ v ∈ items, motive v) (fun members => ∀ kv ∈ members, motive kv.2)
    (fun kv => motive kv.2) hnull hbool hint hfloat hstr harr hobj (by simp) ?_ (by simp) ?_ (fun _ _ hv => hv) v
  · intro v vs hv hvs w hw
    rcases List.mem_cons.mp hw with rfl | hw
    · exact hv
    · exact hvs w hw
  · intro kv kvs hkv hkvs kw hw
    rcases List.mem_cons.mp hw with rfl | hw
    · exact hkv
    · exact hkvs kw hw

/-! ## Lists of items and members -/

theorem sortedItems_eq (items : List Value) : sortedItems items = items.map sorted := by
  induction items with
  | nil => rfl
  | cons v rest ih => rw [sortedItems, ih, List.map_cons]

theorem sortedMembers_eq (members : List (Str × Value)) :
    sortedMembers members = members.map fun kv => (kv.1, sorted kv.2) := by
  induction members with
  | nil => rfl
  | cons kv rest ih => rw [sortedMembers, ih, List.map_cons]

theorem dumpableItems_iff {d : Dumper} {items : List Value} :
    dumpableItems d items = true ↔ ∀ v ∈ items, dumpable d v = true := by
  induction items with
  | nil => simp [dumpableItems]
  | cons v rest ih => simp [dumpableItems, ih]

theorem dumpableMembers_iff {d : Dumper} {members : List (Str × Value)} :
    dumpableMembers d members = true ↔ ∀ kv ∈ members, d.canWrite kv.1 = true ∧ dumpable d kv.2 = true := by
  induction members with
  | nil => simp [dumpableMembers]
  | cons kv rest ih => simp only [dumpableMembers, Bool.and_eq_true, ih, List.forall_mem_cons]

theorem distinctItems_iff {items : List Value} : DistinctItems items ↔ ∀ v ∈ items, Distinct v := by
  induction items with
  | nil => simp [DistinctItems]
  | cons v rest ih => simp [DistinctItems, ih]

theorem distinctMembers_iff {members : List (Str × Value)} : DistinctMembers members ↔ ∀ kv ∈ members, Distinct kv.2 := by
  induction members with
  | nil => simp [DistinctMembers]
  | cons kv rest ih => simp only [DistinctMembers, ih, List.forall_mem_cons]

/-! ## The order of keys -/

instance : Std.Total keyLe := ⟨fun a b => le_total (a.1.map Element.code) (b.1.map Element.code)⟩

instance : IsTrans (Str × Value) keyLe := ⟨fun _ _ _ => le_trans⟩

theorem sorted_obj (members : List (Str × Value)) :
    sorted (.obj members) = .obj ((members.map fun kv => (kv.1, sorted kv.2)).insertionSort keyLe) := by
  rw [sorted, sortedMembers_eq]

/-- What holds of the members of a sorted dict, by where they come from. -/
theorem forall_sorted_members {P : Str × Value → Prop} {members : List (Str × Value)} :
    (∀ kv ∈ (members.map fun kv => (kv.1, sorted kv.2)).insertionSort keyLe, P kv) ↔ ∀ kv ∈ members, P (kv.1, sorted kv.2) := by
  simp only [List.mem_insertionSort, List.forall_mem_map]

theorem sorted_sorted (v : Value) : sorted (sorted v) = sorted v := by
  induction v using Value.induct with
  | hnull | hbool | hint | hfloat | hstr => rfl
  | harr items ih =>
    rw [sorted, sorted, sortedItems_eq, sortedItems_eq, List.map_map]
    congr 1
    exact List.map_congr_left fun v hv => ih v hv
  | hobj members ih =>
    rw [sorted_obj, sorted_obj]
    have hmembers : ∀ kv ∈ (members.map fun kv => (kv.1, sorted kv.2)).insertionSort keyLe, (kv.1, sorted kv.2) = kv :=
      forall_sorted_members.mpr fun kv hkv => by rw [ih kv hkv]
    rw [List.map_congr_left hmembers, List.map_id', (List.pairwise_insertionSort keyLe _).insertionSort_eq]

theorem dumpable_sorted (d : Dumper) (v : Value) : dumpable d (sorted v) = true ↔ dumpable d v = true := by
  induction v using Value.induct with
  | hnull | hbool | hint | hfloat | hstr => rfl
  | harr items ih =>
    rw [sorted, sortedItems_eq, dumpable, dumpable, dumpableItems_iff, dumpableItems_iff]
    simp only [List.forall_mem_map]
    exact forall₂_congr fun v hv => ih v hv
  | hobj members ih =>
    rw [sorted_obj, dumpable, dumpable, dumpableMembers_iff, dumpableMembers_iff, forall_sorted_members]
    exact forall₂_congr fun kv hkv => and_congr Iff.rfl (ih kv hkv)

theorem distinct_sorted {v : Value} (h : Distinct v) : Distinct (sorted v) := by
  induction v using Value.induct with
  | hnull | hbool | hint | hfloat | hstr => exact h
  | harr items ih =>
    rw [Distinct, distinctItems_iff] at h
    rw [sorted, sortedItems_eq, Distinct, distinctItems_iff]
    simp only [List.forall_mem_map]
    exact fun v hv => ih v hv (h v hv)
  | hobj members ih =>
    rw [Distinct, distinctMembers_iff] at h
    rw [sorted_obj, Distinct, distinctMembers_iff, forall_sorted_members]
    refine ⟨?_, fun kv hkv => ih kv hkv (h.2 kv hkv)⟩
    have hperm := (List.perm_insertionSort keyLe (members.map fun kv => (kv.1, sorted kv.2))).map Prod.fst
    rw [hperm.nodup_iff, List.map_map]
    exact h.1

/-! ## Equality -/

theorem zip_map_fst_snd {members : List (Str × Value)} : (members.map Prod.fst).zip (members.map Prod.snd) = members := by
  induction members with
  | nil => rfl
  | cons kv rest ih => rw [List.map_cons, List.map_cons, List.zip_cons_cons, ih]

theorem forall₂_sorted {vs : List Value} (h : ∀ v ∈ vs, Same (sorted v) v) : List.Forall₂ Same (vs.map sorted) vs := by
  induction vs with
  | nil => exact .nil
  | cons v rest ih =>
    exact .cons (h v List.mem_cons_self) (ih fun w hw => h w (List.mem_cons_of_mem v hw))

theorem same_sorted (v : Value) : Same (sorted v) v := by
  induction v using Value.induct with
  | hnull => exact .refl _
  | hbool b => exact .refl _
  | hint n => exact .refl _
  | hfloat x => exact .refl _
  | hstr s => exact .refl _
  | harr items ih =>
    rw [sorted, sortedItems_eq]
    exact .arr (forall₂_sorted ih)
  | hobj members ih =>
    rw [sorted_obj]
    have hzip : (members.map fun kv => (kv.1, sorted kv.2)) =
        (members.map Prod.fst).zip ((members.map Prod.snd).map sorted) := by
      rw [List.zip_map_right, zip_map_fst_snd]
      rfl
    have hsame : Same (.obj ((members.map fun kv => (kv.1, sorted kv.2)).insertionSort keyLe))
        (.obj ((members.map Prod.fst).zip (members.map Prod.snd))) := by
      refine .obj (by simp) (forall₂_sorted fun v hv => ?_) (hzip ▸ List.perm_insertionSort keyLe _)
      obtain ⟨kv, hkv, rfl⟩ := List.mem_map.mp hv
      exact ih kv hkv
    rwa [zip_map_fst_snd] at hsame

end Crewplane.Lib.PyJson
