import Crewplane.Observability.Dashboard
import Crewplane.Workflow.GraphWaves
/-
# The layout of a topology (observability/layout.py)

`computeTopologyLayout` places the nodes wave by wave: a node takes the span of the nodes it depends on, and is moved to
the right until it meets no span of its own wave. `Lanes.Valid` is the invariant of the two loops. `Laid` is what the
renderers read off the result: the maps are those of the graph, and every node has its place.
-/
namespace Crewplane.Observability

open Crewplane.Lib Dict Crewplane.Workflow
open Crewplane.Plan (NodeId)

structure NodePlacement where
  nodeId : NodeId
  waveIndex : Nat
  laneStart : Nat
  laneEnd : Nat
  deriving DecidableEq, Repr

structure TopologyLayout where
  waves : List (List NodeId)
  placements : Dict NodeId NodePlacement
  laneCount : Nat
  nodeOrder : Dict NodeId Nat
  dependencies : Dict NodeId (List NodeId)
  dependents : Dict NodeId (List NodeId)

inductive LayoutError
  | graph (e : GraphError)
  | missingPlacement (dependency : NodeId)
  | keyError (nodeId : NodeId)
  deriving DecidableEq, Repr

/-! ## Placing one node -/

def overlapsAny (laneStart laneEnd : Nat) (occupied : List (Nat × Nat)) : Bool :=
  occupied.any fun existing => !(laneStart > existing.2 || laneEnd < existing.1)

/-- `while _overlaps_any(...)`, for at most so many rounds. -/
def shiftLoop (occupied : List (Nat × Nat)) : Nat → Nat → Nat → Nat × Nat
  | 0, shiftedStart, shiftedEnd => (shiftedStart, shiftedEnd)
  | rounds + 1, shiftedStart, shiftedEnd =>
    if overlapsAny shiftedStart shiftedEnd occupied then shiftLoop occupied rounds (shiftedStart + 1) (shiftedEnd + 1)
    else (shiftedStart, shiftedEnd)

/-- The loop: past the last occupied lane nothing overlaps (`shiftForCollisions_spec`). -/
def shiftForCollisions (laneStart laneEnd : Nat) (occupied : List (Nat × Nat)) : Nat × Nat :=
  shiftLoop occupied ((occupied.map (·.2)).foldr max 0 + 1) laneStart laneEnd

def parentSpan (placements : Dict NodeId NodePlacement) (dependency : NodeId) : Except LayoutError (Nat × Nat) :=
  match get? placements dependency with
  | none => .error (.missingPlacement dependency)
  | some placement => .ok (placement.laneStart, placement.laneEnd)

/-- `min` of the starts and `max` of the ends. -/
def coveringSpan (laneCount : Nat) : List (Nat × Nat) → Nat × Nat
  | [] => (laneCount, laneCount)
  | first :: rest => rest.foldl (fun span parent => (min span.1 parent.1, max span.2 parent.2)) first

def baseLaneSpan (dependencies : List NodeId) (placements : Dict NodeId NodePlacement) (laneCount : Nat) :
    Except LayoutError (Nat × Nat) := do
  let parentSpans ← dependencies.mapM (parentSpan placements)
  return coveringSpan laneCount parentSpans

/-! ## The two loops -/

structure Lanes where
  placements : Dict NodeId NodePlacement
  laneCount : Nat
  occupied : List (Nat × Nat)

def placeNode (nodesById : Dict NodeId TopologyNode) (waveIndex : Nat) (s : Lanes) (nodeId : NodeId) :
    Except LayoutError Lanes :=
  match get? nodesById nodeId with
  | none => .error (.keyError nodeId)
  | some node => do
    let base ← baseLaneSpan node.dependencies s.placements s.laneCount
    let span := shiftForCollisions base.1 base.2 s.occupied
    return {
      placements := setItem s.placements nodeId ⟨nodeId, waveIndex, span.1, span.2⟩
      laneCount := max s.laneCount (span.2 + 1)
      occupied := s.occupied ++ [span] }

def placeWave (nodesById : Dict NodeId TopologyNode) (nodeOrder : Dict NodeId Nat) (s : Lanes) (wave : List NodeId × Nat) :
    Except LayoutError Lanes :=
  (sortByOrder nodeOrder wave.1).foldlM (placeNode nodesById wave.2) { s with occupied := [] }

def WorkflowTopology.graph (topology : WorkflowTopology) : WorkflowGraph :=
  topology.nodes.map fun node => (node.id, node.dependencies)

/-- A `ValueError` of the graph functions. -/
def liftGraph {α : Type} : Except GraphError α → Except LayoutError α
  | .ok a => .ok a
  | .error e => .error (.graph e)

def computeTopologyLayout (topology : WorkflowTopology) : Except LayoutError TopologyLayout := do
  let maps ← liftGraph (buildGraphDependencyMaps topology.graph)
  let waves ← liftGraph (orderedGraphWaves (topology.nodes.map (·.id)) maps.1 maps.2)
  let nodesById := ofPairs (topology.nodes.map fun node => (node.id, node))
  let lanes ← waves.zipIdx.foldlM (placeWave nodesById topology.nodeOrder) ⟨[], 0, []⟩
  return {
    waves := waves, placements := lanes.placements, laneCount := lanes.laneCount, nodeOrder := topology.nodeOrder
    dependencies := maps.1.map fun entry => (entry.1, sortByOrder topology.nodeOrder entry.2)
    dependents := maps.2.map fun entry => (entry.1, sortByOrder topology.nodeOrder entry.2) }

/-! ## The shifting loop -/

section Shift

variable {occupied : List (Nat × Nat)}

theorem overlapsAny_eq_false {laneStart laneEnd : Nat} : overlapsAny laneStart laneEnd occupied = false ↔
    ∀ existing ∈ occupied, existing.2 < laneStart ∨ laneEnd < existing.1 := by
  simp [overlapsAny, or_iff_not_imp_left]

theorem le_foldr_max {existing : Nat × Nat} (h : existing ∈ occupied) : existing.2 ≤ (occupied.map (·.2)).foldr max 0 := by
  induction occupied with
  | nil => simp at h
  | cons a rest ih =>
    simp only [List.map_cons, List.foldr_cons]
    rcases List.mem_cons.mp h with rfl | h
    · omega
    · have := ih h
      omega

theorem shiftLoop_spec {rounds laneStart laneEnd : Nat} (h : (occupied.map (·.2)).foldr max 0 < laneStart + rounds) :
    ∃ k, shiftLoop occupied rounds laneStart laneEnd = (laneStart + k, laneEnd + k) ∧
      overlapsAny (laneStart + k) (laneEnd + k) occupied = false ∧
      ∀ j < k, overlapsAny (laneStart + j) (laneEnd + j) occupied = true := by
  induction rounds generalizing laneStart laneEnd with
  | zero =>
    refine ⟨0, rfl, overlapsAny_eq_false.mpr fun existing hmem => .inl ?_, by simp⟩
    have := le_foldr_max hmem
    omega
  | succ rounds ih =>
    rw [shiftLoop]
    by_cases hover : overlapsAny laneStart laneEnd occupied = true
    · obtain ⟨k, hloop, hfree, hbusy⟩ := @ih (laneStart + 1) (laneEnd + 1) (by omega)
      refine ⟨k + 1, ?_, ?_, fun j hj => ?_⟩
      · rw [if_pos hover, hloop]
        congr 1 <;> omega
      · rw [show laneStart + (k + 1) = laneStart + 1 + k by omega, show laneEnd + (k + 1) = laneEnd + 1 + k by omega]
        exact hfree
      · cases j with
        | zero => exact hover
        | succ j =>
          rw [show laneStart + (j + 1) = laneStart + 1 + j by omega, show laneEnd + (j + 1) = laneEnd + 1 + j by omega]
          exact hbusy j (by omega)
    · exact ⟨0, by simp [hover], by simpa using hover, by simp⟩

/-- The loop ends, at the first shift without an overlap. -/
theorem shiftForCollisions_spec (laneStart laneEnd : Nat) (occupied : List (Nat × Nat)) :
    ∃ k, shiftForCollisions laneStart laneEnd occupied = (laneStart + k, laneEnd + k) ∧
      overlapsAny (laneStart + k) (laneEnd + k) occupied = false ∧
      ∀ j < k, overlapsAny (laneStart + j) (laneEnd + j) occupied = true :=
  shiftLoop_spec (by omega)

end Shift

/-! ## The invariant -/

def NodePlacement.Apart (p q : NodePlacement) : Prop := p.laneEnd < q.laneStart ∨ q.laneEnd < p.laneStart

/-- The placements while wave `i` is placed. -/
structure Lanes.Valid (i : Nat) (s : Lanes) : Prop where
  bounded : ∀ id p, get? s.placements id = some p → p.nodeId = id ∧ p.laneStart ≤ p.laneEnd ∧ p.laneEnd < s.laneCount
  past : ∀ id p, get? s.placements id = some p → p.waveIndex ≤ i
  occupied : ∀ id p, get? s.placements id = some p → p.waveIndex = i → (p.laneStart, p.laneEnd) ∈ s.occupied
  apart : ∀ a b p q, get? s.placements a = some p → get? s.placements b = some q → a ≠ b → p.waveIndex = q.waveIndex →
    p.Apart q

theorem Lanes.Valid.nextWave {i : Nat} {s : Lanes} (h : s.Valid i) : Lanes.Valid (i + 1) { s with occupied := [] } := by
  refine ⟨h.bounded, fun id p hp => ?_, fun id p hp hi => ?_, h.apart⟩
  · have := h.past id p hp
    omega
  · have := h.past id p hp
    omega

theorem coveringSpan_le {laneCount : Nat} {spans : List (Nat × Nat)} (h : ∀ span ∈ spans, span.1 ≤ span.2) :
    (coveringSpan laneCount spans).1 ≤ (coveringSpan laneCount spans).2 := by
  cases spans with
  | nil => exact Nat.le_refl _
  | cons first rest =>
    have hfold : ∀ (spans : List (Nat × Nat)) (span : Nat × Nat), span.1 ≤ span.2 →
        (spans.foldl (fun span parent => (min span.1 parent.1, max span.2 parent.2)) span).1 ≤
          (spans.foldl (fun span parent => (min span.1 parent.1, max span.2 parent.2)) span).2 := by
      intro spans
      induction spans with
      | nil => exact fun _ h => h
      | cons parent spans ih =>
        intro span hspan
        exact ih _ (by simp only; omega)
    exact hfold rest first (h first List.mem_cons_self)

/-- A node whose dependencies have their places gets one. -/
theorem baseLaneSpan_eq_ok {i : Nat} {s : Lanes} (h : s.Valid i) {dependencies : List NodeId}
    (hplaced : ∀ d ∈ dependencies, ∃ p, get? s.placements d = some p) :
    ∃ span, baseLaneSpan dependencies s.placements s.laneCount = .ok span ∧ span.1 ≤ span.2 := by
  have hspans : ∃ spans, dependencies.mapM (parentSpan s.placements) = .ok spans ∧ ∀ span ∈ spans, span.1 ≤ span.2 := by
    induction dependencies with
    | nil => exact ⟨[], rfl, by simp⟩
    | cons d rest ih =>
      obtain ⟨p, hp⟩ := hplaced d List.mem_cons_self
      obtain ⟨spans, hrest, hle⟩ := ih fun d hd => hplaced d (List.mem_cons_of_mem _ hd)
      have hparent : parentSpan s.placements d = .ok (p.laneStart, p.laneEnd) := by
        simp [parentSpan, hp]
      refine ⟨(p.laneStart, p.laneEnd) :: spans, ?_, List.forall_mem_cons.mpr ⟨(h.bounded d p hp).2.1, hle⟩⟩
      rw [List.mapM_cons, hparent, hrest]
      rfl
  obtain ⟨spans, hmap, hle⟩ := hspans
  exact ⟨coveringSpan s.laneCount spans, by rw [baseLaneSpan, hmap]; rfl, coveringSpan_le hle⟩

theorem placeNode_spec {nodesById : Dict NodeId TopologyNode} {i : Nat} {s : Lanes} (h : s.Valid i) {id : NodeId}
    {node : TopologyNode} (hnode : get? nodesById id = some node) (hfresh : get? s.placements id = none)
    (hplaced : ∀ d ∈ node.dependencies, ∃ p, get? s.placements d = some p) :
    ∃ s' p, placeNode nodesById i s id = .ok s' ∧ s'.Valid i ∧ p.waveIndex = i ∧
      ∀ y, get? s'.placements y = if id = y then some p else get? s.placements y := by
  obtain ⟨base, hbase, hle⟩ := baseLaneSpan_eq_ok h hplaced
  obtain ⟨k, hshift, hfree, -⟩ := shiftForCollisions_spec base.1 base.2 s.occupied
  rw [overlapsAny_eq_false] at hfree
  refine ⟨{
    placements := setItem s.placements id ⟨id, i, base.1 + k, base.2 + k⟩
    laneCount := max s.laneCount (base.2 + k + 1)
    occupied := s.occupied ++ [(base.1 + k, base.2 + k)] }, ⟨id, i, base.1 + k, base.2 + k⟩, ?_, ?_, rfl,
    fun y => get?_setItem s.placements id _ y⟩
  · simp only [placeNode, hnode, hbase, hshift, bind, Except.bind, pure, Except.pure]
  · -- a placement is the new one or an old one
    have hcases : ∀ y p, get? (setItem s.placements id ⟨id, i, base.1 + k, base.2 + k⟩) y = some p →
        (y = id ∧ p = ⟨id, i, base.1 + k, base.2 + k⟩) ∨ (y ≠ id ∧ get? s.placements y = some p) := by
      intro y p hp
      rw [get?_setItem] at hp
      by_cases hy : id = y
      · rw [if_pos hy] at hp
        exact .inl ⟨hy.symm, (Option.some.inj hp).symm⟩
      · rw [if_neg hy] at hp
        exact .inr ⟨fun h => hy h.symm, hp⟩
    -- the new span meets no span of this wave
    have hapart : ∀ y q, get? s.placements y = some q → q.waveIndex = i →
        q.laneEnd < base.1 + k ∨ base.2 + k < q.laneStart := by
      intro y q hq hi
      exact hfree _ (h.occupied y q hq hi)
    refine ⟨fun y p hp => ?_, fun y p hp => ?_, fun y p hp hi => ?_, fun a b p q hp hq hne hi => ?_⟩
    · rcases hcases y p hp with ⟨rfl, rfl⟩ | ⟨-, hp⟩
      · refine ⟨rfl, ?_, ?_⟩ <;> simp only <;> omega
      · have := h.bounded y p hp
        refine ⟨this.1, this.2.1, ?_⟩
        simp only
        omega
    · rcases hcases y p hp with ⟨-, rfl⟩ | ⟨-, hp⟩
      · exact Nat.le_refl i
      · exact h.past y p hp
    · rcases hcases y p hp with ⟨-, rfl⟩ | ⟨-, hp⟩
      · exact List.mem_append_right _ List.mem_cons_self
      · exact List.mem_append_left _ (h.occupied y p hp hi)
    · rcases hcases a p hp with ⟨rfl, rfl⟩ | ⟨-, hold⟩
      · rcases hcases b q hq with ⟨rfl, -⟩ | ⟨-, hold'⟩
        · exact absurd rfl hne
        · exact (hapart b q hold' hi.symm).symm
      · rcases hcases b q hq with ⟨rfl, rfl⟩ | ⟨-, hold'⟩
        · exact hapart a p hold hi
        · exact h.apart a b p q hold hold' hne hi

/-- The nodes of a wave, in any order. -/
theorem placeNodes_spec {nodesById : Dict NodeId TopologyNode} {i : Nat} {s : Lanes} (h : s.Valid i) {ids : List NodeId}
    (hnodup : ids.Nodup) (hfresh : ∀ x ∈ ids, get? s.placements x = none)
    (hnodes : ∀ x ∈ ids, ∃ node, get? nodesById x = some node ∧ ∀ d ∈ node.dependencies, ∃ p, get? s.placements d = some p) :
    ∃ s', ids.foldlM (placeNode nodesById i) s = .ok s' ∧ s'.Valid i ∧
      (∀ y, y ∉ ids → get? s'.placements y = get? s.placements y) ∧
      ∀ y ∈ ids, ∃ p, get? s'.placements y = some p ∧ p.waveIndex = i := by
  induction ids generalizing s with
  | nil => exact ⟨s, rfl, h, fun _ _ => rfl, by simp⟩
  | cons x rest ih =>
    obtain ⟨hx, hrest⟩ := List.nodup_cons.mp hnodup
    obtain ⟨node, hnode, hplaced⟩ := hnodes x List.mem_cons_self
    obtain ⟨s₁, p, hplace, hvalid, hwave, hget⟩ := placeNode_spec h hnode (hfresh x List.mem_cons_self) hplaced
    have hold : ∀ y, x ≠ y → get? s₁.placements y = get? s.placements y := fun y hy => by rw [hget, if_neg hy]
    obtain ⟨s₂, hfold, hvalid₂, hkept, hnew⟩ := ih hvalid hrest
      (fun y hy => by
        rw [hold y (fun he => hx (he ▸ hy))]
        exact hfresh y (List.mem_cons_of_mem x hy))
      (fun y hy => by
        obtain ⟨node', hnode', hplaced'⟩ := hnodes y (List.mem_cons_of_mem x hy)
        refine ⟨node', hnode', fun d hd => ?_⟩
        by_cases hdx : x = d
        · exact ⟨p, by rw [hget, if_pos hdx]⟩
        · rw [hold d hdx]
          exact hplaced' d hd)
    refine ⟨s₂, ?_, hvalid₂, fun y hy => ?_, fun y hy => ?_⟩
    · rw [List.foldlM_cons, hplace]
      exact hfold
    · rw [hkept y (fun hr => hy (List.mem_cons_of_mem x hr)), hold y (fun he => hy (he ▸ List.mem_cons_self))]
    · rcases List.mem_cons.mp hy with rfl | hy
      · refine ⟨p, ?_, hwave⟩
        rw [hkept y hx, hget, if_pos rfl]
      · exact hnew y hy

/-- The waves from `i` on, when each node depends on nodes that have their place or come in an earlier wave. -/
theorem placeWaves_spec {nodesById : Dict NodeId TopologyNode} {nodeOrder : Dict NodeId Nat} {rest : List (List NodeId)}
    {i : Nat} {s : Lanes} (h : Lanes.Valid i { s with occupied := [] }) (hnodup : rest.flatten.Nodup)
    (hfresh : ∀ x ∈ rest.flatten, get? s.placements x = none)
    (hnodes : ∀ (k : Nat) (wave : List NodeId), rest[k]? = some wave → ∀ x ∈ wave, ∃ node, get? nodesById x = some node ∧ ∀ d ∈ node.dependencies,
      (∃ p, get? s.placements d = some p) ∨ ∃ j < k, ∃ earlier, rest[j]? = some earlier ∧ d ∈ earlier) :
    ∃ s', (rest.zipIdx i).foldlM (placeWave nodesById nodeOrder) s = .ok s' ∧
      Lanes.Valid (i + rest.length) { s' with occupied := [] } ∧
      (∀ y, y ∉ rest.flatten → get? s'.placements y = get? s.placements y) ∧
      ∀ (k : Nat) (wave : List NodeId), rest[k]? = some wave → ∀ y ∈ wave, ∃ p, get? s'.placements y = some p ∧ p.waveIndex = i + k := by
  induction rest generalizing s i with
  | nil => exact ⟨s, rfl, h, fun _ _ => rfl, by simp⟩
  | cons wave rest ih =>
    rw [List.flatten_cons] at hnodup hfresh
    obtain ⟨hwave, hrest, hdisjoint⟩ := List.nodup_append.mp hnodup
    obtain ⟨s₁, hplace, hvalid, hkept, hnew⟩ := @placeNodes_spec nodesById i _ h (sortByOrder nodeOrder wave)
      ((List.mergeSort_perm _ _).nodup_iff.mpr hwave)
      (fun x hx => hfresh x (List.mem_append_left _ (mem_sortByOrder.mp hx)))
      (fun x hx => by
        obtain ⟨node, hnode, hdeps⟩ := hnodes 0 wave rfl x (mem_sortByOrder.mp hx)
        refine ⟨node, hnode, fun d hd => ?_⟩
        rcases hdeps d hd with hp | ⟨j, hj, -⟩
        · exact hp
        · exact absurd hj (Nat.not_lt_zero j))
    have hother : ∀ y, y ∉ wave → get? s₁.placements y = get? s.placements y := fun y hy =>
      hkept y fun hs => hy (mem_sortByOrder.mp hs)
    obtain ⟨s₂, hfold, hvalid₂, hkept₂, hnew₂⟩ := ih hvalid.nextWave hrest
      (fun x hx => by
        rw [hother x fun hw => hdisjoint x hw x hx rfl]
        exact hfresh x (List.mem_append_right _ hx))
      (fun k wave' hk x hx => by
        obtain ⟨node, hnode, hdeps⟩ := hnodes (k + 1) wave' hk x hx
        refine ⟨node, hnode, fun d hd => ?_⟩
        by_cases hdw : d ∈ wave
        · obtain ⟨p, hp, -⟩ := hnew d (mem_sortByOrder.mpr hdw)
          exact .inl ⟨p, hp⟩
        · rcases hdeps d hd with hp | ⟨j, hj, earlier, hearlier, hmem⟩
          · exact .inl (by rw [hother d hdw]; exact hp)
          · cases j with
            | zero =>
              obtain rfl := Option.some.inj hearlier
              exact absurd hmem hdw
            | succ j => exact .inr ⟨j, by omega, earlier, hearlier, hmem⟩)
    refine ⟨s₂, ?_, ?_, fun y hy => ?_, fun k wave' hk y hy => ?_⟩
    · rw [List.zipIdx_cons, List.foldlM_cons, placeWave, hplace]
      exact hfold
    · rw [List.length_cons, show i + (rest.length + 1) = i + 1 + rest.length by omega]
      exact hvalid₂
    · rw [List.flatten_cons, List.mem_append, not_or] at hy
      rw [hkept₂ y hy.2, hother y hy.1]
    · cases k with
      | zero =>
        obtain rfl := Option.some.inj hk
        obtain ⟨p, hp, hi⟩ := hnew y (mem_sortByOrder.mpr hy)
        exact ⟨p, by rw [hkept₂ y fun hr => hdisjoint y hy y hr rfl, hp], hi⟩
      | succ k =>
        obtain ⟨p, hp, hi⟩ := hnew₂ k wave' hk y hy
        exact ⟨p, hp, by omega⟩

/-! ## The layout -/

/-- What a layout says of its topology. -/
structure Laid (topology : WorkflowTopology) (layout : TopologyLayout) : Prop where
  nodup : (topology.nodes.map (·.id)).Nodup
  perm : layout.waves.flatten.Perm (topology.nodes.map (·.id))
  inOrder : InOrder (Needs topology.graph) layout.waves.flatten
  nodeOrder : layout.nodeOrder = topology.nodeOrder
  placed : ∀ (k : Nat) (wave : List NodeId), layout.waves[k]? = some wave →
    ∀ id ∈ wave, ∃ p, get? layout.placements id = some p ∧ p.waveIndex = k
  bounded : ∀ id p, get? layout.placements id = some p →
    p.nodeId = id ∧ p.laneStart ≤ p.laneEnd ∧ p.laneEnd < layout.laneCount
  apart : ∀ a b p q, get? layout.placements a = some p → get? layout.placements b = some q → a ≠ b →
    p.waveIndex = q.waveIndex → p.Apart q
  keys : (keys layout.dependencies).Nodup ∧ ∀ x, x ∈ keys layout.dependencies ↔ x ∈ topology.nodes.map (·.id)
  dependencies : ∀ x ∈ topology.nodes.map (·.id), (getItem layout.dependencies x).Nodup ∧
    ∀ d, d ∈ getItem layout.dependencies x ↔ Needs topology.graph d x
  dependents : ∀ d, (getItem layout.dependents d).Nodup ∧ ∀ x, x ∈ getItem layout.dependents d ↔ Needs topology.graph d x
  known : ∀ d x, Needs topology.graph d x → d ∈ topology.nodes.map (·.id) ∧ x ∈ topology.nodes.map (·.id)

theorem graph_ids (topology : WorkflowTopology) : topology.graph.map (·.1) = topology.nodes.map (·.id) := by
  simp [WorkflowTopology.graph, Function.comp_def]

theorem getItem_sorted (maps : Dict NodeId (List NodeId)) (nodeOrder : Dict NodeId Nat) (x : NodeId) :
    getItem (maps.map fun entry => (entry.1, sortByOrder nodeOrder entry.2)) x = sortByOrder nodeOrder (getItem maps x) := by
  rw [getItem, get?_map, getItem]
  cases get? maps x with
  | none => exact (List.mergeSort_nil).symm
  | some ids => rfl

theorem nodup_sortByOrder {nodeOrder : Dict NodeId Nat} {ids : List NodeId} : (sortByOrder nodeOrder ids).Nodup ↔ ids.Nodup :=
  (List.mergeSort_perm ids _).nodup_iff

/-- A node's dependencies come in earlier waves. -/
theorem need_earlier {nodes : WorkflowGraph} {dependencies : Dict String (List String)} {s : WaveState}
    (hwaves : Waves nodes dependencies s) (hperm : s.waves.flatten.Perm (nodes.map (·.1))) {k : Nat} {wave : List NodeId}
    (hk : s.waves[k]? = some wave) {d x : NodeId} (hx : x ∈ wave) (hd : Needs nodes d x) (hknown : d ∈ nodes.map (·.1)) :
    ∃ j < k, ∃ earlier, s.waves[j]? = some earlier ∧ d ∈ earlier := by
  obtain ⟨hlt, hwave⟩ := List.getElem?_eq_some_iff.mp hk
  have hlong := ((hwaves.levels k hlt x).mp (hwave ▸ hx)).2
  obtain ⟨earlier, hearlier, hmem⟩ := List.mem_flatten.mp (hperm.mem_iff.mpr hknown)
  obtain ⟨j, hj, hget⟩ := List.mem_iff_getElem.mp hearlier
  have hlevel := ((hwaves.levels j hj d).mp (hget ▸ hmem)).2
  refine ⟨j, ((longest_iff).mp hlong).2 d hd j hlevel.1, earlier, ?_, hmem⟩
  rw [List.getElem?_eq_getElem hj, hget]

/-- The layout of a graph without faults exists and is as `Laid` says; another graph has none. -/
theorem computeTopologyLayout_cases (topology : WorkflowTopology) :
    ((∃ e, computeTopologyLayout topology = .error (.graph e)) ∧
      ((∃ n ∈ topology.graph, ∃ d ∈ n.2, d ∉ topology.graph.map (·.1)) ∨ Cyclic (Needs topology.graph) ∨
        ¬(topology.graph.map (·.1)).Nodup)) ∨
    ((∃ layout, computeTopologyLayout topology = .ok layout ∧ Laid topology layout) ∧
      ¬((∃ n ∈ topology.graph, ∃ d ∈ n.2, d ∉ topology.graph.map (·.1)) ∨ Cyclic (Needs topology.graph) ∨
        ¬(topology.graph.map (·.1)).Nodup)) := by
  rcases graph_cases topology.graph with ⟨⟨e, herror | ⟨maps, hbuild, herror⟩⟩, hfault⟩ |
    ⟨dependencies, dependents, s, hbuild, hmaps, hnodup, hwaves, hperm, heq⟩
  · refine .inl ⟨⟨e, ?_⟩, hfault⟩
    rw [computeTopologyLayout, herror]
    rfl
  · refine .inl ⟨⟨e, ?_⟩, hfault⟩
    rw [graph_ids] at herror
    rw [computeTopologyLayout, hbuild]
    simp only [liftGraph, bind, Except.bind, herror]
  · refine .inr ⟨?_, hwaves.faultless hmaps hnodup hperm⟩
    have hids := graph_ids topology
    have hnodes : ∀ (k : Nat) (wave : List NodeId), s.waves[k]? = some wave → ∀ x ∈ wave, ∃ node,
        get? (ofPairs (topology.nodes.map fun node => (node.id, node))) x = some node ∧ ∀ d ∈ node.dependencies,
          (∃ p, get? ([] : Dict NodeId NodePlacement) d = some p) ∨
            ∃ j < k, ∃ earlier, s.waves[j]? = some earlier ∧ d ∈ earlier := by
      intro k wave hk x hx
      have hmem : x ∈ s.waves.flatten := List.mem_flatten.mpr ⟨wave, List.mem_of_getElem? hk, hx⟩
      have hmem := hperm.mem_iff.mp hmem
      rw [hids] at hmem hnodup
      obtain ⟨node, hnode, rfl⟩ := List.mem_map.mp hmem
      refine ⟨node, get?_ofPairs_key hnode fun y hy hkey => List.inj_on_of_nodup_map hnodup hy hnode hkey, fun d hd => .inr ?_⟩
      have hneeds : Needs topology.graph d node.id := ⟨(node.id, node.dependencies), List.mem_map_of_mem hnode, rfl, hd⟩
      exact need_earlier hwaves hperm hk hx hneeds (hmaps.need_mem hneeds).1
    have hstart : Lanes.Valid 0 ⟨[], 0, []⟩ := by
      refine ⟨?_, ?_, ?_, ?_⟩ <;> simp
    obtain ⟨lanes, hlanes, hvalid, -, hplaced⟩ := @placeWaves_spec
      (ofPairs (topology.nodes.map fun node => (node.id, node))) topology.nodeOrder s.waves 0 ⟨[], 0, []⟩ hstart hwaves.nodup
      (by simp) hnodes
    refine ⟨{
      waves := s.waves, placements := lanes.placements, laneCount := lanes.laneCount, nodeOrder := topology.nodeOrder
      dependencies := dependencies.map fun entry => (entry.1, sortByOrder topology.nodeOrder entry.2)
      dependents := dependents.map fun entry => (entry.1, sortByOrder topology.nodeOrder entry.2) }, ?_, ⟨hids ▸ hnodup, hids ▸ hperm, hwaves.inOrder, rfl, ?_, hvalid.bounded, hvalid.apart, ⟨?_, ?_⟩, ?_, ?_, ?_⟩⟩
    · rw [hids] at heq
      rw [computeTopologyLayout, hbuild]
      simp only [liftGraph, bind, Except.bind, heq, hlanes]
      rfl
    · intro k wave hk id hid
      obtain ⟨p, hp, hwave⟩ := hplaced k wave hk id hid
      exact ⟨p, hp, by omega⟩
    · have hsame : keys (dependencies.map fun entry => (entry.1, sortByOrder topology.nodeOrder entry.2)) = keys dependencies := by
        simp [keys, Function.comp_def]
      rw [hsame]
      exact hmaps.keys_nodup
    · intro x
      have hsame : keys (dependencies.map fun entry => (entry.1, sortByOrder topology.nodeOrder entry.2)) = keys dependencies := by
        simp [keys, Function.comp_def]
      rw [hsame, hmaps.mem_keys, hids]
    · intro x hx
      obtain ⟨hn, hmem⟩ := hmaps.mem_dependencies hnodup (hids ▸ hx)
      rw [getItem_sorted]
      exact ⟨nodup_sortByOrder.mpr hn, fun d => by rw [mem_sortByOrder, hmem]⟩
    · intro d
      obtain ⟨hn, hmem⟩ := hmaps.dependents d
      rw [getItem_sorted]
      exact ⟨nodup_sortByOrder.mpr hn, fun x => by rw [mem_sortByOrder, hmem]⟩
    · intro d x hd
      rw [← hids]
      exact hmaps.need_mem hd

/-- A topology has a layout unless a dependency is unknown, an id is repeated or there is a cycle. The nodes of a wave lie
on disjoint lanes, all of them below `laneCount`, and the loop that shifts a span stops at the first place that is free. -/
theorem topology_layout_lanes (topology : WorkflowTopology) :
    ((∃ layout, computeTopologyLayout topology = .ok layout) ↔
      (∀ n ∈ topology.nodes, ∀ d ∈ n.dependencies, d ∈ topology.nodes.map (·.id)) ∧
      (topology.nodes.map (·.id)).Nodup ∧ ¬Cyclic (Needs topology.graph)) ∧
    (∀ layout, computeTopologyLayout topology = .ok layout →
      layout.waves.flatten.Perm (topology.nodes.map (·.id)) ∧
      (∀ (k : Nat) (wave : List NodeId), layout.waves[k]? = some wave → ∀ id ∈ wave, ∃ p, get? layout.placements id = some p ∧
        p.nodeId = id ∧ p.waveIndex = k ∧ p.laneStart ≤ p.laneEnd ∧
        ∀ other ∈ wave, other ≠ id → ∃ q, get? layout.placements other = some q ∧
          (p.laneEnd < q.laneStart ∨ q.laneEnd < p.laneStart)) ∧
      ∀ id p, get? layout.placements id = some p → p.laneEnd < layout.laneCount) ∧
    ∀ (laneStart laneEnd : Nat) (occupied : List (Nat × Nat)), ∃ k,
      shiftForCollisions laneStart laneEnd occupied = (laneStart + k, laneEnd + k) ∧
      overlapsAny (laneStart + k) (laneEnd + k) occupied = false ∧
      ∀ j < k, overlapsAny (laneStart + j) (laneEnd + j) occupied = true := by
  have hknown : (∃ n ∈ topology.graph, ∃ d ∈ n.2, d ∉ topology.graph.map (·.1)) ↔
      ¬∀ n ∈ topology.nodes, ∀ d ∈ n.dependencies, d ∈ topology.nodes.map (·.id) := by
    rw [graph_ids]
    simp [WorkflowTopology.graph]
  refine ⟨?_, ?_, shiftForCollisions_spec⟩
  · rcases computeTopologyLayout_cases topology with ⟨⟨e, herror⟩, hfault⟩ | ⟨⟨layout, hok, -⟩, hfine⟩
    · rw [hknown, graph_ids] at hfault
      refine iff_of_false (by simp [herror]) fun h => ?_
      rcases hfault with hfault | hfault | hfault
      · exact hfault h.1
      · exact h.2.2 hfault
      · exact hfault h.2.1
    · rw [hknown, graph_ids, not_or, not_or, not_not, not_not] at hfine
      exact iff_of_true ⟨layout, hok⟩ ⟨hfine.1, hfine.2.2, hfine.2.1⟩
  · intro layout hlayout
    rcases computeTopologyLayout_cases topology with ⟨⟨e, herror⟩, -⟩ | ⟨⟨layout', hok, hlaid⟩, -⟩
    · rw [herror] at hlayout
      cases hlayout
    · obtain rfl : layout' = layout := Except.ok.inj (hok.symm.trans hlayout)
      refine ⟨hlaid.perm, fun k wave hk id hid => ?_, fun id p hp => (hlaid.bounded id p hp).2.2⟩
      obtain ⟨p, hp, hwave⟩ := hlaid.placed k wave hk id hid
      refine ⟨p, hp, (hlaid.bounded id p hp).1, hwave, (hlaid.bounded id p hp).2.1, fun other hother hne => ?_⟩
      obtain ⟨q, hq, hwave'⟩ := hlaid.placed k wave hk other hother
      exact ⟨q, hq, hlaid.apart id other p q hp hq hne.symm (hwave.trans hwave'.symm)⟩

end Crewplane.Observability
