import Crewplane.Lib.Checks
import Crewplane.Workflow.JoinIndex
/-
# The projected index bounds the real one

The index that a join writes is the projected one with smaller sizes, other digests of the same length and perhaps
fewer artifacts, over the same items with their keys in order. So it is within the limits when the projected one is.
-/
namespace Crewplane.Workflow

open Crewplane.Lib Crewplane.Lib.PyJson Crewplane.Plan

theorem size_utf8 (chars : List Char) : (utf8 chars).size = bytes chars := by
  rw [utf8, String.toUTF8, String.size_toByteArray, String.utf8ByteSize_ofList]
  induction chars with
  | nil => rfl
  | cons c chars ih => rw [String.utf8Len_cons, ih, bytes_cons, Nat.add_comm]

/-! ## Values that are admitted with less -/

theorem exists_of_forall₂ {α β : Type} {R : α → β → Prop} {xs : List α} {ys : List β} (h : List.Forall₂ R xs ys) :
    ∀ x ∈ xs, ∃ y ∈ ys, R x y := by
  induction h with
  | nil => simp
  | cons hxy _ ih =>
    rw [List.forall_mem_cons]
    refine ⟨⟨_, List.mem_cons_self, hxy⟩, fun x hx => ?_⟩
    obtain ⟨y, hy, hR⟩ := ih x hx
    exact ⟨y, List.mem_cons_of_mem _ hy, hR⟩

/-- Takes no more room than the other value, and is admitted wherever that is. -/
structure Bounded (v w : PyJson.Value) : Prop where
  slimmer : Slimmer .compact v w
  admitted : ∀ depth, admitted depth w = true → admitted depth v = true

theorem Bounded.refl (v : PyJson.Value) : Bounded v v := ⟨.refl v, fun _ => id⟩

theorem Bounded.trans {u v w : PyJson.Value} (huv : Bounded u v) (hvw : Bounded v w) : Bounded u w :=
  ⟨huv.slimmer.trans hvw.slimmer, fun depth hw => huv.admitted depth (hvw.admitted depth hw)⟩

theorem Bounded.sorted (v : PyJson.Value) : Bounded (sorted v) v := ⟨.sorted v, fun depth => (admitted_sorted v depth).mpr⟩

theorem Bounded.nat {m n : Nat} (h : m ≤ n) : Bounded (.int m) (.int n) := ⟨.nat h, fun _ => id⟩

theorem Bounded.arr {vs ws : List PyJson.Value} (h : List.Forall₂ Bounded vs ws) : Bounded (.arr vs) (.arr ws) := by
  refine ⟨.arr (h.imp fun _ _ hvw => hvw.slimmer), fun depth hws => ?_⟩
  rw [Workflow.admitted, Bool.and_eq_true, admittedItems_iff] at hws ⊢
  refine ⟨hws.1, fun v hv => ?_⟩
  obtain ⟨w, hw, hvw⟩ := exists_of_forall₂ h v hv
  exact hvw.admitted _ (hws.2 w hw)

theorem Bounded.obj {vs ws : List (Str × PyJson.Value)} (h : List.Forall₂ (fun a b => a.1 = b.1 ∧ Bounded a.2 b.2) vs ws) :
    Bounded (.obj vs) (.obj ws) := by
  refine ⟨.obj (h.imp fun _ _ hab => ⟨hab.1, hab.2.slimmer⟩), fun depth hws => ?_⟩
  rw [Workflow.admitted, Bool.and_eq_true, admittedMembers_iff] at hws ⊢
  refine ⟨hws.1, fun kv hkv => ?_⟩
  obtain ⟨kw, hkw, hkey, hvalue⟩ := exists_of_forall₂ h kv hkv
  exact ⟨hkey ▸ (hws.2 kw hkw).1, hvalue.admitted _ (hws.2 kw hkw).2⟩

theorem Bounded.front {members more : List (Str × PyJson.Value)} (h : members ≠ []) :
    Bounded (.obj members) (.obj (members ++ more)) := by
  refine ⟨.front h, fun depth hwhole => ?_⟩
  rw [Workflow.admitted, Bool.and_eq_true, admittedMembers_iff] at hwhole ⊢
  exact ⟨hwhole.1, fun kv hkv => hwhole.2 kv (List.mem_append_left more hkv)⟩

/-- What is bounded by a collection within the limits is within them, if it is a collection. -/
theorem WithinLimits.of_bounded {vs ws : List PyJson.Value} {maxItems : Int} (h : WithinLimits (.arr ws) maxItems)
    (hbounded : List.Forall₂ Bounded vs ws) (hobjects : ∀ v ∈ vs, ∃ members, v = .obj members) :
    WithinLimits (.arr vs) maxItems := by
  have harr := Bounded.arr hbounded
  obtain ⟨_, hws, hlength, -⟩ := h.items
  cases hws
  refine ⟨h.bound, ⟨vs, rfl, hbounded.length_eq ▸ hlength, hobjects⟩, harr.admitted 1 h.admitted,
    harr.slimmer.dumpable h.dumpable, ?_⟩
  have hsize := h.size
  rw [size_utf8] at hsize ⊢
  calc bytes (text .compact (PyJson.sorted (.arr vs)))
    _ = width .compact (.arr vs) := width_sorted _ _
    _ ≤ width .compact (.arr ws) := harr.slimmer.width
    _ = bytes (text .compact (PyJson.sorted (.arr ws))) := (width_sorted _ _).symm
    _ ≤ collectionByteLimit := hsize

/-! ## One artifact -/

theorem encodable_ofChars (chars : List Char) : Str.encodable (Str.ofChars chars) = true := by
  simp [Str.encodable, Str.ofChars, Element.isScalar]

theorem plain_hex : ∀ c ∈ hexDigits, Json.escape .compact c = [c] ∧ c.toNat ≤ 127 := by
  simp [hexDigits, Json.escape, Json.shortEscape, Json.Style.compact]

/-- Digests have the same length. -/
theorem Bounded.hex {a b : List Char} (ha : ∀ c ∈ a, hexDigits.contains c = true)
    (hb : ∀ c ∈ b, hexDigits.contains c = true) (hlength : a.length = b.length) :
    Bounded (.str (Str.ofChars a)) (.str (Str.ofChars b)) := by
  refine ⟨⟨?_, fun _ => encodable_ofChars a⟩, fun _ _ => encodable_ofChars a⟩
  show width .compact _ ≤ width .compact _
  rw [width_plain fun c hc => plain_hex c (List.contains_iff_mem.mp (ha c hc)),
    width_plain fun c hc => plain_hex c (List.contains_iff_mem.mp (hb c hc)), hlength]

theorem artifactEntry_bounded (group : IndexedNode) (path : String) (artifact : VerifiedNodeArtifact)
    (hsize : artifact.sizeBytes ≤ maxIndexSize) :
    Bounded (artifactEntry group path artifact.sizeBytes artifact.sha256)
      (artifactEntry group path maxIndexSize (List.replicate 64 '0')) := by
  have hzeros : ∀ c ∈ List.replicate 64 '0', hexDigits.contains c = true := by
    intro c hc
    rw [List.eq_of_mem_replicate hc]
    decide
  refine .obj (.cons ⟨rfl, .refl _⟩ (.cons ⟨rfl, .nat hsize⟩ (.cons ⟨rfl, ?_⟩ .nil)))
  exact .hex artifact.hex.2 hzeros (by rw [artifact.hex.1, List.length_replicate])

theorem readArtifact_bounded {store : JoinStore} {node group : IndexedNode} {kind : ArtifactKind} {kv : Str × PyJson.Value}
    (h : readArtifact store node group kind = .ok kv) :
    ∃ kw, projectedArtifact node group kind = some kw ∧ kv.1 = kw.1 ∧ Bounded kv.2 kw.2 := by
  cases hcontract : node.artifactContract.path? kind with
  | none => simp [readArtifact, hcontract] at h
  | some path =>
    simp only [readArtifact, hcontract, do_eq_ok, Except.ok.injEq, exists_eq_left'] at h
    obtain ⟨artifact, -, h⟩ := h
    split at h
    next => cases h
    next hsize =>
      cases h
      have hprojected : projectedArtifact node group kind =
          some (kind.key, artifactEntry group path maxIndexSize (List.replicate 64 '0')) := by
        rw [projectedArtifact, hcontract, Option.map_some]
      exact ⟨_, hprojected, rfl, artifactEntry_bounded group path artifact (Nat.not_lt.mp hsize)⟩

/-- The artifacts of a child are the first of those that were projected. -/
theorem verifiedChildArtifacts_bounded {store : JoinStore} {node group : IndexedNode} {artifacts : List (Str × PyJson.Value)}
    (h : verifiedChildArtifacts store node group = .ok artifacts) :
    ∃ front more, [ArtifactKind.output, .findings].filterMap (projectedArtifact node group) = front ++ more ∧
      List.Forall₂ (fun a b => a.1 = b.1 ∧ Bounded a.2 b.2) artifacts front := by
  unfold verifiedChildArtifacts at h
  simp only [do_eq_ok] at h
  obtain ⟨-, -, h⟩ := h
  cases hfindings : node.findings with
  | false =>
    simp only [hfindings, Bool.false_eq_true, if_false] at h
    obtain ⟨kv, _, hkv, hnil, rfl⟩ := mapM_eq_ok_cons.mp h
    rw [mapM_eq_ok_nil.mp hnil]
    obtain ⟨kw, hkw, hbounded⟩ := readArtifact_bounded hkv
    exact ⟨[kw], [ArtifactKind.findings].filterMap (projectedArtifact node group), by rw [List.filterMap_cons_some hkw]; rfl,
      .cons hbounded .nil⟩
  | true =>
    simp only [hfindings, if_true] at h
    obtain ⟨kv, _, hkv, hrest, rfl⟩ := mapM_eq_ok_cons.mp h
    obtain ⟨kv', _, hkv', hnil, rfl⟩ := mapM_eq_ok_cons.mp hrest
    rw [mapM_eq_ok_nil.mp hnil]
    obtain ⟨kw, hkw, hbounded⟩ := readArtifact_bounded hkv
    obtain ⟨kw', hkw', hbounded'⟩ := readArtifact_bounded hkv'
    exact ⟨[kw, kw'], [], by rw [List.filterMap_cons_some hkw, List.filterMap_cons_some hkw']; rfl,
      .cons hbounded (.cons hbounded' .nil)⟩

theorem childEntry_bounded {store : JoinStore} {template : CompiledForeach} {localId : NodeId} {node group : IndexedNode}
    {artifacts : List (Str × PyJson.Value)} (h : verifiedChildArtifacts store node group = .ok artifacts) :
    Bounded (.obj (childEntry template localId node ++ artifacts)) (projectedTerminalResult template localId node group) := by
  obtain ⟨front, more, hprojected, hfront⟩ := verifiedChildArtifacts_bounded h
  rw [projectedTerminalResult, hprojected, ← List.append_assoc]
  refine .trans (.obj ?_) (.front (by simp [childEntry]))
  exact List.rel_append (List.forall₂_same.mpr fun kv _ => ⟨rfl, .refl _⟩) hfront

/-! ## The entries -/

section Entries

variable {nodes : NodeId → Option IndexedNode} {template : CompiledForeach} {store : JoinStore} {group : IndexedNode} {index : Nat}

/-- A child fails, or has a result when it is a terminal one, and then a bounded one. -/
theorem childResult_cases (localId : NodeId) :
    (∃ e, childResult nodes template store group index localId = .error e) ∨ ∃ joined,
      childResult nodes template store group index localId =
          .ok (if (terminalNodes template).contains localId then some joined else none) ∧
        ∀ result, projectedResult nodes template group index localId = .ok result → Bounded joined result := by
  cases hnode : lookupNode nodes (generatedId template localId index) with
  | error e => exact .inl ⟨e, by simp [childResult, hnode, bind, Except.bind]⟩
  | ok node =>
    cases hartifacts : verifiedChildArtifacts store node group with
    | error e => exact .inl ⟨e, by simp [childResult, hnode, hartifacts, bind, Except.bind]⟩
    | ok artifacts =>
      refine .inr ⟨.obj (childEntry template localId node ++ artifacts),
        by simp [childResult, hnode, hartifacts, bind, Except.bind, pure, Except.pure], fun result hresult => ?_⟩
      simp only [projectedResult, hnode, do_eq_ok, pure, Except.pure, Except.ok.injEq, exists_eq_left'] at hresult
      exact hresult ▸ childEntry_bounded hartifacts

/-- The loop over some of the children of an item. -/
theorem children_bounded {order : List NodeId} {results : List PyJson.Value}
    (h : (order.filter (terminalNodes template).contains).mapM (projectedResult nodes template group index) = .ok results) :
    (∃ localId ∈ order, ∃ e, childResult nodes template store group index localId = .error e ∧
      order.mapM (childResult nodes template store group index) = .error e) ∨
      ∃ joined, order.mapM (childResult nodes template store group index) = .ok joined ∧
        List.Forall₂ Bounded (joined.filterMap id) results := by
  induction order generalizing results with
  | nil => exact .inr ⟨[], rfl, by rw [mapM_eq_ok_nil.mp h]; exact .nil⟩
  | cons localId order ih =>
    have hfails : ∀ e, childResult nodes template store group index localId = .error e →
        (localId :: order).mapM (childResult nodes template store group index) = .error e := by
      intro e he
      rw [List.mapM_cons, he]
      rfl
    rcases @childResult_cases nodes template store group index localId with ⟨e, he⟩ | ⟨joined, hjoined, hbounded⟩
    · exact .inl ⟨localId, List.mem_cons_self, e, he, hfails e he⟩
    -- what the rest gives when this child is fine
    have hrest : ∀ rest, (order.filter (terminalNodes template).contains).mapM (projectedResult nodes template group index) = .ok rest →
        (∃ id ∈ localId :: order, ∃ e, childResult nodes template store group index id = .error e ∧
          (localId :: order).mapM (childResult nodes template store group index) = .error e) ∨
        ∃ js, (localId :: order).mapM (childResult nodes template store group index) =
            .ok ((if (terminalNodes template).contains localId then some joined else none) :: js) ∧
          List.Forall₂ Bounded (js.filterMap id) rest := by
      intro rest hrest
      rcases ih hrest with ⟨id, hid, e, he, hloop⟩ | ⟨js, hjs, hfor⟩
      · refine .inl ⟨id, List.mem_cons_of_mem localId hid, e, he, ?_⟩
        simp [List.mapM_cons, hjoined, hloop, bind, Except.bind]
      · refine .inr ⟨js, ?_, hfor⟩
        simp [List.mapM_cons, hjoined, hjs, bind, Except.bind, pure, Except.pure]
    cases hterminal : (terminalNodes template).contains localId with
    | true =>
      rw [List.filter_cons_of_pos hterminal] at h
      obtain ⟨result, rest, hresult, hmore, rfl⟩ := mapM_eq_ok_cons.mp h
      rcases hrest rest hmore with hfail | ⟨js, hjs, hfor⟩
      · exact .inl hfail
      · rw [hterminal, if_pos rfl] at hjs
        exact .inr ⟨_, hjs, .cons (hbounded result hresult) hfor⟩
    | false =>
      rw [List.filter_cons_of_neg (by rw [hterminal]; decide)] at h
      rcases hrest results h with hfail | ⟨js, hjs, hfor⟩
      · exact .inl hfail
      · rw [hterminal, if_neg (by decide)] at hjs
        exact .inr ⟨_, hjs, hfor⟩

theorem filter_terminalNodes : template.executionOrder.filter (terminalNodes template).contains = terminalNodes template := by
  refine List.filter_congr fun id hid => ?_
  simp [terminalNodes, hid]

theorem itemResults_bounded {results : List PyJson.Value}
    (h : (terminalNodes template).mapM (projectedResult nodes template group index) = .ok results) :
    (∃ localId ∈ template.executionOrder, ∃ e, childResult nodes template store group index localId = .error e ∧
      itemResults nodes template store group index = .error e) ∨
      ∃ joined, itemResults nodes template store group index = .ok joined ∧ List.Forall₂ Bounded joined results := by
  rw [← filter_terminalNodes] at h
  rcases @children_bounded nodes template store group index _ _ h with ⟨localId, hid, e, he, hloop⟩ | ⟨joined, hloop, hfor⟩
  · exact .inl ⟨localId, hid, e, he, by simp [itemResults, hloop, bind, Except.bind]⟩
  · exact .inr ⟨_, by simp [itemResults, hloop, bind, Except.bind, pure, Except.pure], hfor⟩

/-- The loop over the items: an item whose results fail, or entries that are bounded. -/
theorem entriesFrom_bounded {joined projected : Nat → Except IndexError (List PyJson.Value)} {Fails : Nat → IndexError → Prop}
    (hresults : ∀ index results, projected index = .ok results → (∃ e, Fails index e ∧ joined index = .error e) ∨
      ∃ found, joined index = .ok found ∧ List.Forall₂ Bounded found results)
    {items stored : List PyJson.Value} (hitems : List.Forall₂ Bounded stored items) {entries : List PyJson.Value}
    (h : entriesFrom projected index items = .ok entries) :
    (∃ i e, i < index + items.length ∧ Fails i e ∧ entriesFrom joined index stored = .error e) ∨
      ∃ found, entriesFrom joined index stored = .ok found ∧ List.Forall₂ Bounded found entries := by
  induction hitems generalizing index entries with
  | nil =>
    cases h
    exact .inr ⟨[], rfl, .nil⟩
  | @cons v item stored items hitem _ ih =>
    simp only [entriesFrom, do_eq_ok, pure, Except.pure, Except.ok.injEq] at h
    obtain ⟨results, hresult, rest, hrest, rfl⟩ := h
    rcases hresults index results hresult with ⟨e, hfails, he⟩ | ⟨found, hfound, hfor⟩
    · exact .inl ⟨index, e, by simp, hfails, by simp [entriesFrom, he, bind, Except.bind]⟩
    rcases ih hrest with ⟨i, e, hi, hfails, he⟩ | ⟨more, hmore, hmores⟩
    · refine .inl ⟨i, e, ?_, hfails, by simp [entriesFrom, hfound, he, bind, Except.bind]⟩
      rw [List.length_cons]
      omega
    · refine .inr ⟨indexEntry index v found :: more,
        by simp [entriesFrom, hfound, hmore, bind, Except.bind, pure, Except.pure], .cons ?_ hmores⟩
      exact .obj (.cons ⟨rfl, .refl _⟩ (.cons ⟨rfl, hitem⟩ (.cons ⟨rfl, .arr hfor⟩ .nil)))

theorem entriesFrom_objects {results : Nat → Except IndexError (List PyJson.Value)} {items entries : List PyJson.Value}
    (h : entriesFrom results index items = .ok entries) : ∀ v ∈ entries, ∃ members, v = .obj members := by
  induction items generalizing index entries with
  | nil =>
    cases h
    simp
  | cons item items ih =>
    simp only [entriesFrom, do_eq_ok, pure, Except.pure, Except.ok.injEq] at h
    obtain ⟨found, -, rest, hrest, rfl⟩ := h
    rw [List.forall_mem_cons]
    exact ⟨⟨_, rfl⟩, ih hrest⟩

/-- The joined index is no longer than the projected one, or a child fails and the join with it. -/
theorem joinIndex_cases {items : List PyJson.Value} {stored projected : ByteArray} (hdistinct : Distinct (.arr items))
    (hlimits : WithinLimits (.arr items) template.maxItems) (hstored : canonicalJsonBytes (.arr items) = .ok stored)
    (hprojected : projectedIndex nodes template items = .ok projected) :
    (∃ index localId group e, index < items.length ∧ localId ∈ template.executionOrder ∧
      nodes template.groupId = some group ∧ childResult nodes template store group index localId = .error e ∧
      joinIndex nodes template store stored = .error e) ∨
    ∃ data, joinIndex nodes template store stored = .ok data ∧ data.size ≤ projected.size := by
  simp only [projectedIndex, do_eq_ok] at hprojected
  obtain ⟨group, hgroup, entries, hentries, hprojected⟩ := hprojected
  have hnode : nodes template.groupId = some group := by
    unfold lookupNode at hgroup
    split at hgroup
    next node hnode => cases hgroup; exact hnode
    next => cases hgroup
  have hbytes : collectionBytes (.arr entries) template.maxItems template.groupId "projected result index" = .ok projected := by
    revert hprojected
    cases collectionBytes (.arr entries) template.maxItems template.groupId "projected result index" <;> simp [Except.mapError]
  obtain ⟨hwithin, rfl⟩ := collectionBytes_eq_ok.mp hbytes
  -- what is stored is read back with its keys in order
  rw [canonicalJsonBytes_eq_ok hlimits.dumpable, Except.ok.injEq] at hstored
  have hdecode := @decodeCollection_text _ _ template.groupId "items" hdistinct hlimits
  rw [hstored, PyJson.sorted, sortedItems_eq] at hdecode
  have hsorted : List.Forall₂ Bounded (items.map PyJson.sorted) items :=
    List.forall₂_map_left_iff.mpr (List.forall₂_same.mpr fun v _ => .sorted v)
  have hjoin : joinIndex nodes template store stored =
      (entriesFrom (itemResults nodes template store group) 0 (items.map PyJson.sorted)) >>= fun entries =>
        (collectionBytes (.arr entries) template.maxItems template.groupId "result index").mapError .collection := by
    simp only [joinIndex, hdecode, Except.mapError, indexEntries, hgroup, bind, Except.bind]
  have hresults : ∀ index results, (terminalNodes template).mapM (projectedResult nodes template group index) = .ok results →
      (∃ e, (∃ localId ∈ template.executionOrder, childResult nodes template store group index localId = .error e) ∧
        itemResults nodes template store group index = .error e) ∨
      ∃ joined, itemResults nodes template store group index = .ok joined ∧ List.Forall₂ Bounded joined results := by
    intro index results hresults
    rcases @itemResults_bounded nodes template store group index _ hresults with ⟨localId, hid, e, he, hloop⟩ | hok
    · exact .inl ⟨e, ⟨localId, hid, he⟩, hloop⟩
    · exact .inr hok
  rcases entriesFrom_bounded hresults hsorted hentries with ⟨index, e, hindex, ⟨localId, hid, he⟩, hfail⟩ | ⟨found, hfound, hfor⟩
  · refine .inl ⟨index, localId, group, e, by omega, hid, hnode, he, ?_⟩
    rw [hjoin, hfail]
    rfl
  · have hfits := hwithin.of_bounded hfor (entriesFrom_objects hfound)
    refine .inr ⟨utf8 (text .compact (PyJson.sorted (.arr found))), ?_, ?_⟩
    · rw [hjoin, hfound]
      simp only [bind, Except.bind, collectionBytes_eq_ok.mpr ⟨hfits, rfl⟩, Except.mapError]
    · rw [size_utf8, size_utf8]
      exact (width_sorted _ _).trans_le ((Bounded.arr hfor).slimmer.width.trans_eq (width_sorted _ _).symm)

/-- The errors of a computation that a limit of collections cannot cause. -/
def NoLimit {α : Type} (c : Except IndexError α) : Prop := ∀ limit, c ≠ .error (.collection limit)

theorem NoLimit.ok {α : Type} (a : α) : NoLimit (.ok a) := by
  simp [NoLimit]

theorem NoLimit.bind {α β : Type} {c : Except IndexError α} {f : α → Except IndexError β} (hc : NoLimit c)
    (hf : ∀ a, NoLimit (f a)) : NoLimit (c >>= f) := by
  cases c with
  | error e => exact fun limit h => hc limit (by simpa [Bind.bind, Except.bind] using h)
  | ok a => exact hf a

theorem NoLimit.artifact {α : Type} (c : Except String α) : NoLimit (c.mapError .artifact) := by
  cases c <;> simp [NoLimit, Except.mapError]

theorem NoLimit.mapM {α β : Type} {f : α → Except IndexError β} (hf : ∀ a, NoLimit (f a)) (xs : List α) : NoLimit (xs.mapM f) := by
  induction xs with
  | nil => exact .ok []
  | cons x xs ih =>
    rw [List.mapM_cons]
    exact .bind (hf x) fun y => .bind ih fun ys => .ok (y :: ys)

theorem readArtifact_noLimit (node : IndexedNode) (kind : ArtifactKind) : NoLimit (readArtifact store node group kind) := by
  cases hpath : node.artifactContract.path? kind with
  | none => simp [NoLimit, readArtifact, hpath, bind, Except.bind]
  | some path =>
    simp only [readArtifact, hpath]
    refine .bind (.ok path) fun _ => .bind (.artifact _) fun artifact => ?_
    split <;> simp [NoLimit]

theorem childResult_noLimit (localId : NodeId) : NoLimit (childResult nodes template store group index localId) := by
  refine .bind ?_ fun node => .bind (.bind (.artifact _) fun _ => .mapM (readArtifact_noLimit node) _) fun artifacts => .ok _
  unfold lookupNode
  split <;> simp [NoLimit]

/-- When the projected index is accepted, the join of finished children succeeds with an index that is no longer, and no
join fails on a limit. -/
theorem joinIndex_bounded {items : List PyJson.Value} {stored projected : ByteArray} (hdistinct : Distinct (.arr items))
    (hvalid : validateCollection (.arr items) template.maxItems template.groupId "items" = .ok (.arr items))
    (hstored : canonicalJsonBytes (.arr items) = .ok stored) (hprojected : projectedIndex nodes template items = .ok projected)
    (store : JoinStore) :
    (∀ limit, joinIndex nodes template store stored ≠ .error (.collection limit)) ∧
    ((∀ group index localId, nodes template.groupId = some group → index < items.length → localId ∈ template.executionOrder →
        ∃ result, childResult nodes template store group index localId = .ok result) →
      ∃ data, joinIndex nodes template store stored = .ok data ∧ data.size ≤ projected.size) := by
  have hlimits := (validateCollection_eq_ok.mp hvalid).2
  rcases @joinIndex_cases nodes template store _ _ _ hdistinct hlimits hstored hprojected with
    ⟨index, localId, group, e, hindex, hid, hgroup, he, hjoin⟩ | ⟨data, hjoin, hsize⟩
  · constructor
    · intro limit hlimit
      rw [hjoin, Except.error.injEq] at hlimit
      exact childResult_noLimit localId limit (hlimit ▸ he)
    · intro hchildren
      obtain ⟨result, hresult⟩ := hchildren group index localId hgroup hindex hid
      rw [he] at hresult
      cases hresult
  · exact ⟨fun limit hlimit => by simp [hjoin] at hlimit, fun _ => ⟨data, hjoin, hsize⟩⟩

end Entries

/-! ### A group with one item and one worker -/

def joinTemplate : CompiledForeach :=
  { groupId := "g", «namespace» := "g.t", items := .reference "a" false, maxItems := 1, itemNodeId := "g.t.item"
    originalDependencies := ["a"], templateDigest := "t", executionOrder := ["g.t.item", "g.t.work"]
    nodes :=
      [ { id := "g.t.item", mode := .input, findings := false, dependencies := [], expansion := none
          inputItemSlot := true, inputContentRef := none },
        { id := "g.t.work", mode := .sequential, findings := true, dependencies := ["g.t.item"]
          expansion := none, inputItemSlot := false, inputContentRef := none } ]
    dependencyGraph := [schedulingEdge "g.t.item" "g.t.work" none] }

def joinNodes (id : NodeId) : Option IndexedNode :=
  if id = "g" then some ⟨"g", false, ⟨"g/output.md", none⟩⟩
  else if id = "g.i0.item" then some ⟨"g.i0.item", false, ⟨"g/i0/item/output.md", none⟩⟩
  else if id = "g.i0.work" then some ⟨"g.i0.work", true, ⟨"g/i0/work/output.md", some "g/i0/work/findings.md"⟩⟩
  else none

def joinStore : JoinStore where
  verifyNodeExpansion _ := .ok ()
  readVerifiedNodeArtifact _ kind :=
    .ok ⟨match kind with | .output => 120 | .findings => 7, List.replicate 64 'a', by simp, by
      intro c hc
      rw [List.eq_of_mem_replicate hc]
      decide⟩

theorem joinIndex_bounded_sample : ∃ stored projected data, canonicalJsonBytes (.arr [.obj [([.scalar 'a'], .int 1)]]) = .ok stored ∧
    projectedIndex joinNodes joinTemplate [.obj [([.scalar 'a'], .int 1)]] = .ok projected ∧
    joinIndex joinNodes joinTemplate joinStore stored = .ok data ∧ data.size ≤ projected.size := by
  have hlimits : WithinLimits (.arr [.obj [([.scalar 'a'], .int 1)]]) (1 : Nat) :=
    ⟨by decide, ⟨_, rfl, by decide, by simp⟩, by decide +kernel, by decide +kernel, by decide +kernel⟩
  have hprojected : (projectedIndex joinNodes joinTemplate [.obj [([.scalar 'a'], .int 1)]]).toOption.isSome = true := by
    decide +kernel
  cases hp : projectedIndex joinNodes joinTemplate [.obj [([.scalar 'a'], .int 1)]] with
  | error e => simp [hp, Except.toOption] at hprojected
  | ok projected =>
    have hstored := canonicalJsonBytes_eq_ok hlimits.dumpable
    have hbounded := joinIndex_bounded (by simp [Distinct, DistinctItems, DistinctMembers])
      (validateCollection_eq_ok.mpr ⟨rfl, hlimits⟩) hstored hp joinStore
    obtain ⟨data, hjoin, hsize⟩ := hbounded.2 (by
      intro group index localId hgroup hindex hid
      obtain rfl : index = 0 := by simpa using hindex
      have hok : (childResult joinNodes joinTemplate joinStore ⟨"g", false, ⟨"g/output.md", none⟩⟩ 0 localId).toOption.isSome = true := by
        fin_cases hid <;> decide +kernel
      have hg : joinNodes joinTemplate.groupId = some ⟨"g", false, ⟨"g/output.md", none⟩⟩ := rfl
      rw [hg, Option.some.injEq] at hgroup
      rw [hgroup] at hok
      cases hresult : childResult joinNodes joinTemplate joinStore group 0 localId with
      | error e => simp [hresult, Except.toOption] at hok
      | ok result => exact ⟨result, rfl⟩)
    exact ⟨_, projected, data, hstored, rfl, hjoin, hsize⟩

end Crewplane.Workflow
