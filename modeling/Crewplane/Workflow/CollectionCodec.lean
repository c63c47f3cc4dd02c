import Crewplane.Workflow.Collections
/-
# The codec of collections

What `collectionBytes` writes is what `canonicalJsonBytes` writes, and `decodeCollection` reads it back. What
`decodeCollection` accepts is UTF-8, is a JSON text, and keeps to the limits (`Strict`).
-/
namespace Crewplane.Workflow

open Crewplane.Lib Crewplane.Lib.PyJson Crewplane.Lib.Rfc8259

/-! ## The encoders -/

theorem safeItems_eq {items : List PyJson.Value} (h : ∀ v ∈ items, toJsonSafe v = v) : safeItems items = items := by
  induction items with
  | nil => rfl
  | cons v rest ih =>
    rw [safeItems, h v List.mem_cons_self, ih fun w hw => h w (List.mem_cons_of_mem v hw)]

theorem safeMembers_eq {members : List (Str × PyJson.Value)} (h : ∀ kv ∈ members, toJsonSafe kv.2 = kv.2) :
    safeMembers members = members := by
  induction members with
  | nil => rfl
  | cons kv rest ih =>
    rw [safeMembers, h kv List.mem_cons_self, ih fun kw hw => h kw (List.mem_cons_of_mem kv hw)]

/-- These values are JSON values already. -/
theorem toJsonSafe_eq (v : PyJson.Value) : toJsonSafe v = v := by
  induction v using Value.induct with
  | hnull | hbool | hint | hfloat | hstr => rfl
  | harr items ih => rw [toJsonSafe, safeItems_eq ih]
  | hobj members ih => rw [toJsonSafe, safeMembers_eq ih]

theorem collectionBytes_eq_ok {value : PyJson.Value} {maxItems : Int} {group source : String} {data : ByteArray} :
    collectionBytes value maxItems group source = .ok data ↔
      WithinLimits value maxItems ∧ data = utf8 (text .compact (sorted value)) := by
  unfold collectionBytes
  constructor
  · intro h
    cases hvalidate : validateCollection value maxItems group source with
    | error e => simp [hvalidate, bind, Except.bind] at h
    | ok v =>
      obtain ⟨rfl, hlimits⟩ := validateCollection_eq_ok.mp hvalidate
      simp only [hvalidate, bind, Except.bind] at h
      exact ⟨hlimits, (encode_eq_ok.mp h).2.2⟩
  · rintro ⟨hlimits, rfl⟩
    rw [validateCollection_eq_ok.mpr ⟨rfl, hlimits⟩]
    exact encode_eq_ok.mpr ⟨hlimits.dumpable, hlimits.size, rfl⟩

theorem canonicalJsonBytes_eq_ok {value : PyJson.Value} (h : dumpable .compact value = true) :
    canonicalJsonBytes value = .ok (utf8 (text .compact (sorted value))) := by
  simp [canonicalJsonBytes, toJsonSafe_eq, h]

/-! ## UTF-8 -/

theorem fromUTF8_utf8 (chars : List Char) : String.fromUTF8? (utf8 chars) = some (String.ofList chars) := by
  unfold String.fromUTF8?
  split
  next => rfl
  next h => exact absurd (String.ofList chars).isValidUTF8 h

theorem utf8_of_fromUTF8 {data : ByteArray} {s : String} (h : String.fromUTF8? data = some s) : data = utf8 s.toList := by
  unfold String.fromUTF8? at h
  split at h
  next hvalid =>
    cases h
    rw [utf8, String.ofList_toList]
    rfl
  next => cases h

/-! ## The hooks -/

theorem uniqueObject_eq_ok {result members : List (Str × PyJson.Value)} {v : PyJson.Value}
    (hresult : (result.map Prod.fst).Nodup) : uniqueObject result members = .ok v ↔
      v = .obj (result ++ members) ∧ ((result ++ members).map Prod.fst).Nodup := by
  induction members generalizing result with
  | nil => simp [uniqueObject, hresult, eq_comm]
  | cons kv rest ih =>
    obtain ⟨key, value⟩ := kv
    rw [uniqueObject]
    split
    next hmem =>
      simp only [reduceCtorEq, false_iff, not_and]
      rintro - hnodup
      rw [List.map_append, List.map_cons] at hnodup
      exact (List.disjoint_of_nodup_append hnodup hmem) List.mem_cons_self
    next hmem =>
      have hnext : ((result ++ [(key, value)]).map Prod.fst).Nodup := by
        rw [List.map_append]
        exact hresult.append (List.nodup_singleton key) fun k hk hkey => by
          rw [List.mem_singleton.mp hkey] at hk
          exact hmem hk
      rw [ih hnext, List.append_assoc]
      rfl

theorem collectionHooks_pairs (ms : List (Str × PyJson.Value)) (h : (ms.map Prod.fst).Nodup) :
    collectionHooks.pairs ms = .ok (.obj ms) :=
  (@uniqueObject_eq_ok [] ms _ List.nodup_nil).mpr ⟨rfl, h⟩

theorem keepsKeys_collectionHooks : KeepsKeys collectionHooks :=
  fun ms _ h => (@uniqueObject_eq_ok [] ms _ List.nodup_nil).mp h

theorem collectionHooks_constant (x : Binary64) (v : PyJson.Value) : collectionHooks.constant x ≠ .ok v := by
  simp [collectionHooks, rejectConstant]

/-! ## Decoding what was encoded -/

theorem WithinLimits.sorted {value : PyJson.Value} {maxItems : Int} (h : WithinLimits value maxItems) :
    WithinLimits (sorted value) maxItems := by
  obtain ⟨items, rfl, hlength, hobjects⟩ := h.items
  refine ⟨h.bound, ⟨items.map PyJson.sorted, ?_, ?_, ?_⟩, (admitted_sorted _ 1).mpr h.admitted,
    (dumpable_sorted .compact _).mpr h.dumpable, ?_⟩
  · rw [PyJson.sorted, sortedItems_eq]
  · rwa [List.length_map]
  · intro v hv
    obtain ⟨w, hw, rfl⟩ := List.mem_map.mp hv
    obtain ⟨members, rfl⟩ := hobjects w hw
    exact ⟨_, sorted_obj members⟩
  · rw [sorted_sorted]
    exact h.size

theorem decodeCollection_text {value : PyJson.Value} {maxItems : Int} {group source : String}
    (hdistinct : Distinct value) (h : WithinLimits value maxItems) :
    decodeCollection (utf8 (text .compact (sorted value))) maxItems group source = .ok (sorted value) := by
  have hsorted := h.sorted
  have hloads : loads collectionHooks (text .compact (sorted value)) = .ok (sorted value) := by
    have := loads_text collectionHooks .compact styleOk_compact collectionHooks_pairs hsorted.dumpable (distinct_sorted hdistinct) ws_nil
    rwa [List.append_nil] at this
  unfold decodeCollection
  rw [if_neg (Nat.not_lt.mpr h.size), fromUTF8_utf8]
  simp only [String.toList_ofList, hloads]
  exact validateCollection_eq_ok.mpr ⟨rfl, hsorted⟩

/-! ## What is accepted -/

mutual

/-- A JSON value that keeps to the limits at this depth: containers nest at most 64 deep, no object has a key twice,
and no number or string is outside the range of Python. -/
def Strict (depth : Nat) : Rfc8259.Value → Prop
  | .literal _ => True
  | .number w => ∃ t, numberText? w = some t ∧ (t.isFloat = true → ∃ negative m, t.toBinary64 = .finite negative m)
  | .string s => Str.encodable s = true
  | .array gs => depth ≤ collectionDepthLimit ∧ StrictItems (depth + 1) gs
  | .object ms => depth ≤ collectionDepthLimit ∧ (ms.map Prod.fst).Nodup ∧ StrictMembers (depth + 1) ms

def StrictItems (depth : Nat) : List Rfc8259.Value → Prop
  | [] => True
  | g :: gs => Strict depth g ∧ StrictItems depth gs

def StrictMembers (depth : Nat) : List (Str × Rfc8259.Value) → Prop
  | [] => True
  | (k, g) :: gs => Str.encodable k = true ∧ Strict depth g ∧ StrictMembers depth gs

end

theorem members?_keys {gs : List (Str × Rfc8259.Value)} {ms : List (Str × PyJson.Value)} (h : members? gs = some ms) :
    ms.map Prod.fst = gs.map Prod.fst := by
  induction gs generalizing ms with
  | nil =>
    cases h
    rfl
  | cons kg rest ih =>
    obtain ⟨k, g⟩ := kg
    rw [members?] at h
    obtain ⟨v, -, h⟩ := Option.bind_eq_some_iff.mp h
    obtain ⟨vs, hvs, rfl⟩ := Option.map_eq_some_iff.mp h
    simp [ih hvs]

theorem items?_length {gs : List Rfc8259.Value} {vs : List PyJson.Value} (h : items? gs = some vs) : vs.length = gs.length := by
  induction gs generalizing vs with
  | nil =>
    cases h
    rfl
  | cons g rest ih =>
    rw [items?] at h
    obtain ⟨v, -, h⟩ := Option.bind_eq_some_iff.mp h
    obtain ⟨ws, hws, rfl⟩ := Option.map_eq_some_iff.mp h
    simp [ih hws]

theorem strict_number {w : List Char} {v : PyJson.Value} {depth : Nat} (hvalue : value? (.number w) = some v)
    (hadmitted : admitted depth v = true) : Strict depth (.number w) := by
  rw [value?] at hvalue
  obtain ⟨t, ht, hvalue⟩ := Option.bind_eq_some_iff.mp hvalue
  refine ⟨t, ht, fun hfloat => ?_⟩
  rw [numberValue, if_pos hfloat] at hvalue
  cases hvalue
  cases hx : t.toBinary64 with
  | finite negative m => exact ⟨negative, m, rfl⟩
  | infinite | nan => simp [admitted, hx] at hadmitted

mutual

theorem strict_value {g : Rfc8259.Value} {v : PyJson.Value} {depth : Nat} (hvalue : value? g = some v) (hdistinct : Distinct v)
    (hadmitted : admitted depth v = true) : Strict depth g := by
  cases g with
  | literal w => trivial
  | number w => exact strict_number hvalue hadmitted
  | string s =>
    cases hvalue
    exact hadmitted
  | array gs =>
    obtain ⟨vs, hvs, rfl⟩ := Option.map_eq_some_iff.mp hvalue
    rw [admitted, Bool.and_eq_true, decide_eq_true_eq] at hadmitted
    exact ⟨hadmitted.1, strict_items hvs hdistinct hadmitted.2⟩
  | object gs =>
    obtain ⟨ms, hms, rfl⟩ := Option.map_eq_some_iff.mp hvalue
    rw [admitted, Bool.and_eq_true, decide_eq_true_eq] at hadmitted
    exact ⟨hadmitted.1, members?_keys hms ▸ hdistinct.1, strict_members hms hdistinct.2 hadmitted.2⟩

theorem strict_items {gs : List Rfc8259.Value} {vs : List PyJson.Value} {depth : Nat} (hvalue : items? gs = some vs)
    (hdistinct : DistinctItems vs) (hadmitted : admittedItems depth vs = true) : StrictItems depth gs := by
  cases gs with
  | nil => trivial
  | cons g rest =>
    rw [items?] at hvalue
    obtain ⟨v, hv, hvalue⟩ := Option.bind_eq_some_iff.mp hvalue
    obtain ⟨vs, hvs, rfl⟩ := Option.map_eq_some_iff.mp hvalue
    rw [admittedItems, Bool.and_eq_true] at hadmitted
    exact ⟨strict_value hv hdistinct.1 hadmitted.1, strict_items hvs hdistinct.2 hadmitted.2⟩

theorem strict_members {gs : List (Str × Rfc8259.Value)} {ms : List (Str × PyJson.Value)} {depth : Nat}
    (hvalue : members? gs = some ms) (hdistinct : DistinctMembers ms) (hadmitted : admittedMembers depth ms = true) :
    StrictMembers depth gs := by
  cases gs with
  | nil => trivial
  | cons kg rest =>
    obtain ⟨k, g⟩ := kg
    rw [members?] at hvalue
    obtain ⟨v, hv, hvalue⟩ := Option.bind_eq_some_iff.mp hvalue
    obtain ⟨ms, hms, rfl⟩ := Option.map_eq_some_iff.mp hvalue
    rw [admittedMembers, Bool.and_eq_true, Bool.and_eq_true] at hadmitted
    exact ⟨hadmitted.1.1, strict_value hv hdistinct.1 hadmitted.1.2, strict_members hms hdistinct.2 hadmitted.2⟩

end

theorem value?_literal {w : List Char} {v : PyJson.Value} (h : value? (.literal w) = some v) :
    (∀ items, v ≠ .arr items) ∧ ∀ members, v ≠ .obj members := by
  simp only [value?, literalValue] at h
  split_ifs at h <;> cases h <;> simp

theorem value?_number {w : List Char} {v : PyJson.Value} (h : value? (.number w) = some v) :
    (∀ items, v ≠ .arr items) ∧ ∀ members, v ≠ .obj members := by
  obtain ⟨t, -, ht⟩ := Option.bind_eq_some_iff.mp h
  simp only [numberValue] at ht
  split_ifs at ht <;> cases ht <;> simp

/-- A value that is an object comes from an object. -/
theorem value?_obj {g : Rfc8259.Value} {members : List (Str × PyJson.Value)} (h : value? g = some (.obj members)) :
    ∃ ms, g = .object ms := by
  cases g with
  | literal w => exact absurd rfl ((value?_literal h).2 members)
  | number w => exact absurd rfl ((value?_number h).2 members)
  | string s => cases h
  | array gs =>
    obtain ⟨vs, -, hvs⟩ := Option.map_eq_some_iff.mp h
    cases hvs
  | object ms => exact ⟨ms, rfl⟩

theorem items?_objects {gs : List Rfc8259.Value} {vs : List PyJson.Value} (h : items? gs = some vs)
    (hobjects : ∀ v ∈ vs, ∃ members, v = .obj members) : ∀ g ∈ gs, ∃ ms, g = .object ms := by
  induction gs generalizing vs with
  | nil => simp
  | cons g rest ih =>
    rw [items?] at h
    obtain ⟨v, hv, h⟩ := Option.bind_eq_some_iff.mp h
    obtain ⟨ws, hws, rfl⟩ := Option.map_eq_some_iff.mp h
    obtain ⟨members, rfl⟩ := hobjects v List.mem_cons_self
    rw [List.forall_mem_cons]
    exact ⟨value?_obj hv, ih hws fun w hw => hobjects w (List.mem_cons_of_mem _ hw)⟩

theorem value?_arr {g : Rfc8259.Value} {vs : List PyJson.Value} (h : value? g = some (.arr vs)) :
    ∃ gs, g = .array gs ∧ items? gs = some vs := by
  cases g with
  | literal w => exact absurd rfl ((value?_literal h).1 vs)
  | number w => exact absurd rfl ((value?_number h).1 vs)
  | string s => cases h
  | array gs =>
    obtain ⟨ws, hws, hvs⟩ := Option.map_eq_some_iff.mp h
    cases hvs
    exact ⟨gs, rfl, hws⟩
  | object ms =>
    obtain ⟨kvs, -, hkvs⟩ := Option.map_eq_some_iff.mp h
    cases hkvs

theorem decodeCollection_sound {data : ByteArray} {maxItems : Int} {group source : String} {x : PyJson.Value}
    (h : decodeCollection data maxItems group source = .ok x) :
    data.size ≤ collectionByteLimit ∧ ∃ chars gs, data = utf8 chars ∧ JsonText chars (.array gs) ∧
      Strict 1 (.array gs) ∧ (gs.length : Int) ≤ maxItems ∧ ∀ g ∈ gs, ∃ ms, g = .object ms := by
  unfold decodeCollection at h
  split at h
  next => exact absurd h refuse_ne_ok
  next hsize =>
    refine ⟨Nat.not_lt.mp hsize, ?_⟩
    cases hutf : String.fromUTF8? data with
    | none => simp [hutf] at h
    | some s =>
      cases hloads : loads collectionHooks s.toList with
      | error e => simp [hutf, hloads] at h
      | ok value =>
        simp only [hutf, hloads] at h
        obtain ⟨rfl, hlimits⟩ := validateCollection_eq_ok.mp h
        obtain ⟨g, hg, hvalue, hdistinct⟩ := loads_sound keepsKeys_collectionHooks collectionHooks_constant hloads
        obtain ⟨vs, rfl, hlength, hobjects⟩ := hlimits.items
        obtain ⟨gs, rfl, hgs⟩ := value?_arr hvalue
        exact ⟨s.toList, gs, utf8_of_fromUTF8 hutf, hg, strict_value hvalue hdistinct hlimits.admitted,
          items?_length hgs ▸ hlength, items?_objects hgs hobjects⟩

/-- The two encoders agree and the decoder inverts them; what the decoder accepts keeps to the limits. -/
theorem collection_codec (maxItems : Int) (group source : String) :
    (∀ x y, Distinct x → validateCollection x maxItems group source = .ok y →
      ∃ data, collectionBytes x maxItems group source = .ok data ∧ canonicalJsonBytes x = .ok data ∧
        ∃ z, decodeCollection data maxItems group source = .ok z ∧ Same z x) ∧
    ∀ data x, decodeCollection data maxItems group source = .ok x →
      data.size ≤ collectionByteLimit ∧ ∃ chars gs, data = utf8 chars ∧ JsonText chars (.array gs) ∧
        Strict 1 (.array gs) ∧ (gs.length : Int) ≤ maxItems ∧ ∀ g ∈ gs, ∃ ms, g = .object ms := by
  refine ⟨fun x y hdistinct hvalidate => ?_, fun data x => decodeCollection_sound⟩
  obtain ⟨-, hlimits⟩ := validateCollection_eq_ok.mp hvalidate
  exact ⟨_, collectionBytes_eq_ok.mpr ⟨hlimits, rfl⟩, canonicalJsonBytes_eq_ok hlimits.dumpable, _,
    decodeCollection_text hdistinct hlimits, same_sorted x⟩

/-- The collection `[{"a": 1}]`. -/
theorem collection_codec_one : ∃ data z, collectionBytes (.arr [.obj [([.scalar 'a'], .int 1)]]) 1 "g" "items" = .ok data ∧
    canonicalJsonBytes (.arr [.obj [([.scalar 'a'], .int 1)]]) = .ok data ∧ decodeCollection data 1 "g" "items" = .ok z ∧
    data.size ≤ collectionByteLimit := by
  have hvalidate : validateCollection (.arr [.obj [([.scalar 'a'], .int 1)]]) 1 "g" "items" =
      .ok (.arr [.obj [([.scalar 'a'], .int 1)]]) :=
    validateCollection_eq_ok.mpr ⟨rfl, by decide, ⟨_, rfl, by decide, by simp⟩, by decide +kernel, by decide +kernel,
      by decide +kernel⟩
  obtain ⟨data, hbytes, hcanonical, z, hdecode, -⟩ := (collection_codec 1 "g" "items").1 _ _ (by simp [Distinct, DistinctItems,
    DistinctMembers]) hvalidate
  exact ⟨data, z, hbytes, hcanonical, hdecode, ((collection_codec 1 "g" "items").2 data z hdecode).1⟩

end Crewplane.Workflow
