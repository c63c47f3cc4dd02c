import Crewplane.Plan.Template
import Crewplane.Lib.Countdown
import Crewplane.Lib.DependencyOrder
/-
# The order of an expanded plan

`Kahn` is the invariant of the loop of `topologicalOrder`: the counters count the dependencies that are not released
yet, the heap holds exactly the ready nodes, and the result so far is in order and takes the first ready node each
time. The order is therefore the least one by input position (`topological_order_least`).
-/
namespace Crewplane.Plan

open Crewplane.Lib Dict

/-- `d` is a dependency of the node `x`. -/
def Needs (nodes : List PreflightExecutionNode) (d x : NodeId) : Prop := ∃ n ∈ nodes, n.id = x ∧ d ∈ n.dependencies

/-- `a` is an earlier node of the input than `b`. -/
def Before (ids : List NodeId) (a b : NodeId) : Prop := ids.idxOf a < ids.idxOf b

/-! ## The heap -/

theorem mem_heapPush {entry e : Nat × NodeId} {heap : List (Nat × NodeId)} : e ∈ heapPush entry heap ↔ e = entry ∨ e ∈ heap := by
  induction heap with
  | nil => simp [heapPush]
  | cons a heap ih =>
    unfold heapPush
    split
    · simp
    · simp only [List.mem_cons, ih]
      tauto

/-- Positions in increasing order, so `heappop` takes the head. -/
def HeapSorted (heap : List (Nat × NodeId)) : Prop := heap.Pairwise fun a b => a.1 < b.1

theorem HeapSorted.push {entry : Nat × NodeId} {heap : List (Nat × NodeId)} (h : HeapSorted heap)
    (hentry : ∀ e ∈ heap, e.1 ≠ entry.1) : HeapSorted (heapPush entry heap) := by
  induction heap with
  | nil => simp [heapPush, HeapSorted]
  | cons a heap ih =>
    obtain ⟨ha, hheap⟩ := List.pairwise_cons.mp h
    have hne := hentry a List.mem_cons_self
    unfold heapPush
    split
    next hlt =>
      refine List.pairwise_cons.mpr ⟨fun e he => ?_, h⟩
      rcases List.mem_cons.mp he with rfl | he
      · exact hlt
      · exact hlt.trans (ha e he)
    next hlt =>
      refine List.pairwise_cons.mpr ⟨fun e he => ?_, ih hheap fun e he => hentry e (List.mem_cons_of_mem a he)⟩
      rcases mem_heapPush.mp he with rfl | he
      · omega
      · exact ha e he

/-! ## Releasing the dependents of a node -/

section Release

variable {order : Dict NodeId Nat} {ids : List NodeId}

theorem releaseDependent_eq (remaining : Dict NodeId Int) (heap : List (Nat × NodeId)) (y : NodeId) :
    releaseDependent order (remaining, heap) y = (modify remaining y (· - 1),
      if getItem remaining y = 1 then heapPush (getItem order y, y) heap else heap) := by
  unfold releaseDependent
  dsimp only
  rw [getItem_modify, if_pos rfl]
  by_cases hone : getItem remaining y = 1
  · rw [if_pos (by omega), if_pos hone]
  · rw [if_neg (by omega), if_neg hone]

/-- The release counts down, and pushes the nodes whose counter becomes zero. -/
theorem foldl_releaseDependent (remaining : Dict NodeId Int) (heap : List (Nat × NodeId)) (pending : List NodeId) :
    pending.foldl (releaseDependent order) (remaining, heap) = (decrementAll remaining pending,
      (exhausted remaining pending).foldl (fun heap y => heapPush (getItem order y, y) heap) heap) := by
  induction pending generalizing remaining heap with
  | nil => rfl
  | cons y pending ih =>
    rw [List.foldl_cons, releaseDependent_eq, ih, exhausted_cons, decrementAll_cons]
    split <;> rfl

theorem mem_foldl_heapPush {ready : List NodeId} {heap : List (Nat × NodeId)} {e : Nat × NodeId} :
    e ∈ ready.foldl (fun heap y => heapPush (getItem order y, y) heap) heap ↔
      e ∈ heap ∨ ∃ y ∈ ready, e = (getItem order y, y) := by
  induction ready generalizing heap with
  | nil => simp
  | cons y ready ih =>
    rw [List.foldl_cons, ih, mem_heapPush, List.exists_mem_cons_iff]
    tauto

theorem HeapSorted.pushAll (hinj : ∀ y ∈ ids, ∀ z ∈ ids, getItem order y = getItem order z → y = z) {ready : List NodeId}
    {heap : List (Nat × NodeId)} (h : HeapSorted heap) (hnodup : ready.Nodup) (hready : ∀ y ∈ ready, y ∈ ids)
    (hheap : ∀ e ∈ heap, e.2 ∈ ids ∧ e.1 = getItem order e.2 ∧ e.2 ∉ ready) :
    HeapSorted (ready.foldl (fun heap y => heapPush (getItem order y, y) heap) heap) := by
  induction ready generalizing heap with
  | nil => exact h
  | cons y ready ih =>
    obtain ⟨hy, hnodup⟩ := List.nodup_cons.mp hnodup
    have hyids := hready y List.mem_cons_self
    refine ih (h.push fun e he heq => ?_) hnodup (fun z hz => hready z (List.mem_cons_of_mem y hz)) fun e he => ?_
    · obtain ⟨hids, horder, hfresh⟩ := hheap e he
      rw [horder] at heq
      exact hfresh (hinj e.2 hids y hyids heq ▸ List.mem_cons_self)
    · rcases mem_heapPush.mp he with rfl | he
      · exact ⟨hyids, rfl, hy⟩
      · obtain ⟨hids, horder, hfresh⟩ := hheap e he
        exact ⟨hids, horder, fun hmem => hfresh (List.mem_cons_of_mem y hmem)⟩

end Release

/-! ## The tables -/

section Tables

variable {nodes : List PreflightExecutionNode}

/-- `dependents[x]`: the id of a node once for each entry of `x` among its dependencies. -/
def dependentsOf (nodes : List PreflightExecutionNode) (x : NodeId) : List NodeId :=
  nodes.flatMap fun node => (node.dependencies.filter (· = x)).map fun _ => node.id

theorem mem_dependentsOf {x y : NodeId} : y ∈ dependentsOf nodes x ↔ ∃ n ∈ nodes, n.id = y ∧ x ∈ n.dependencies := by
  simp only [dependentsOf, List.mem_flatMap, List.mem_map, List.mem_filter, decide_eq_true_eq]
  constructor
  · rintro ⟨n, hn, d, ⟨hd, rfl⟩, rfl⟩
    exact ⟨n, hn, rfl, hd⟩
  · rintro ⟨n, hn, rfl, hx⟩
    exact ⟨n, hn, x, ⟨hx, rfl⟩, rfl⟩

theorem count_dependentsOf (hnodup : (nodes.map (·.id)).Nodup) {n : PreflightExecutionNode} (hn : n ∈ nodes) (x : NodeId) :
    (dependentsOf nodes x).count n.id = n.dependencies.count x := by
  induction nodes with
  | nil => cases hn
  | cons m rest ih =>
    obtain ⟨hm, hrest⟩ := List.nodup_cons.mp hnodup
    have hown : ((m.dependencies.filter (· = x)).map fun _ => m.id).count m.id = m.dependencies.count x := by
      rw [List.map_const', List.count_replicate_self, List.count_eq_length_filter]
      congr 1
    have hsplit : dependentsOf (m :: rest) x = ((m.dependencies.filter (· = x)).map fun _ => m.id) ++ dependentsOf rest x := rfl
    rw [hsplit, List.count_append]
    rcases List.mem_cons.mp hn with rfl | hn
    · have hnone : n.id ∉ dependentsOf rest x := by
        intro hmem
        obtain ⟨k, hk, hid, -⟩ := mem_dependentsOf.mp hmem
        exact hm (List.mem_map.mpr ⟨k, hk, hid⟩)
      rw [hown, List.count_eq_zero_of_not_mem hnone, Nat.add_zero]
    · have hne : n.id ∉ (m.dependencies.filter (· = x)).map fun _ => m.id := by
        intro hmem
        obtain ⟨-, -, hid⟩ := List.mem_map.mp hmem
        exact hm (List.mem_map.mpr ⟨n, hn, hid.symm⟩)
      rw [List.count_eq_zero_of_not_mem hne, Nat.zero_add, ih hrest hn]

theorem node_of_id (hnodup : (nodes.map (·.id)).Nodup) {n m : PreflightExecutionNode} (hn : n ∈ nodes) (hm : m ∈ nodes)
    (hid : n.id = m.id) : n = m := List.inj_on_of_nodup_map hnodup hn hm hid

theorem needs_iff (hnodup : (nodes.map (·.id)).Nodup) {n : PreflightExecutionNode} (hn : n ∈ nodes) (d : NodeId) :
    Needs nodes d n.id ↔ d ∈ n.dependencies := by
  constructor
  · rintro ⟨m, hm, hid, hd⟩
    exact node_of_id hnodup hm hn hid ▸ hd
  · exact fun hd => ⟨n, hn, rfl, hd⟩

theorem get?_zip_range' {ids : List NodeId} {x : NodeId} (hx : x ∈ ids) (k : Nat) :
    get? (ids.zip (List.range' k ids.length)) x = some (k + ids.idxOf x) := by
  induction ids generalizing k with
  | nil => cases hx
  | cons a ids ih =>
    have hcons : get? ((a :: ids).zip (List.range' k (a :: ids).length)) x =
        if a = x then some k else get? (ids.zip (List.range' (k + 1) ids.length)) x := by
      rw [List.length_cons, List.range'_succ]
      rfl
    rw [hcons]
    by_cases ha : a = x
    · simp [ha]
    · rw [if_neg ha, ih ((List.mem_cons.mp hx).resolve_left (Ne.symm ha)), List.idxOf_cons_ne ids ha]
      congr 1
      omega

theorem getItem_order {ids : List NodeId} {x : NodeId} (hx : x ∈ ids) :
    getItem (ids.zip (List.range ids.length)) x = ids.idxOf x := by
  rw [getItem, List.range_eq_range', get?_zip_range' hx]
  simp

end Tables

/-! ## The loop -/

section Loop

variable {nodes : List PreflightExecutionNode}

structure Kahn (nodes : List PreflightExecutionNode) (remaining : Dict NodeId Int) (ready : List (Nat × NodeId))
    (result : List NodeId) : Prop where
  counted : ∀ n ∈ nodes, getItem remaining n.id = (n.dependencies.countP (· ∉ result) : Int)
  sorted : HeapSorted ready
  mem_ready : ∀ e, e ∈ ready ↔
    ∃ n ∈ nodes, e = ((nodes.map (·.id)).idxOf n.id, n.id) ∧ n.id ∉ result ∧ ∀ d ∈ n.dependencies, d ∈ result
  nodup : result.Nodup
  subset : ∀ x ∈ result, x ∈ nodes.map (·.id)
  inOrder : InOrder (Needs nodes) result
  greedy : Greedy (Needs nodes) (Before (nodes.map (·.id))) (nodes.map (·.id)) result

theorem Kahn.unreleased {remaining : Dict NodeId Int} {ready : List (Nat × NodeId)} {result : List NodeId}
    (h : Kahn nodes remaining ready result) {n : PreflightExecutionNode} (hn : n ∈ nodes) (hid : n.id ∈ result) :
    ∀ d ∈ n.dependencies, d ∈ result := fun _ hd => h.inOrder.before_mem hid ⟨n, hn, rfl, hd⟩

/-- The dependents of the first ready node are counted down at most to zero. -/
theorem Kahn.countable {remaining : Dict NodeId Int} {p : Nat} {x : NodeId} {ready : List (Nat × NodeId)}
    {result : List NodeId} (hnodup : (nodes.map (·.id)).Nodup) (h : Kahn nodes remaining ((p, x) :: ready) result) :
    ∀ y ∈ dependentsOf nodes x, ((dependentsOf nodes x).count y : Int) ≤ getItem remaining y := by
  obtain ⟨k, -, hentry, hx, -⟩ := (h.mem_ready (p, x)).mp List.mem_cons_self
  obtain ⟨-, rfl⟩ := Prod.mk.inj hentry
  intro y hy
  obtain ⟨n, hn, rfl, -⟩ := mem_dependentsOf.mp hy
  rw [count_dependentsOf hnodup hn, h.counted n hn, countP_not_mem_snoc hx]
  omega

theorem Kahn.entries {remaining : Dict NodeId Int} {ready : List (Nat × NodeId)} {result : List NodeId}
    (h : Kahn nodes remaining ready result) : ∀ e ∈ ready, e.2 ∈ nodes.map (·.id) ∧
      e.1 = getItem ((nodes.map (·.id)).zip (List.range (nodes.map (·.id)).length)) e.2 ∧ getItem remaining e.2 = 0 := by
  intro e he
  obtain ⟨n, hn, rfl, -, hready⟩ := (h.mem_ready e).mp he
  refine ⟨List.mem_map_of_mem hn, (getItem_order (List.mem_map_of_mem hn)).symm, ?_⟩
  rw [h.counted n hn, countP_not_mem_eq_zero.mpr hready]
  rfl

theorem Kahn.step {remaining : Dict NodeId Int} {p : Nat} {x : NodeId} {ready : List (Nat × NodeId)}
    {result : List NodeId} (hnodup : (nodes.map (·.id)).Nodup) (h : Kahn nodes remaining ((p, x) :: ready) result) :
    Kahn nodes
      ((dependentsOf nodes x).foldl (releaseDependent ((nodes.map (·.id)).zip (List.range (nodes.map (·.id)).length)))
        (remaining, ready)).1
      ((dependentsOf nodes x).foldl (releaseDependent ((nodes.map (·.id)).zip (List.range (nodes.map (·.id)).length)))
        (remaining, ready)).2
      (result ++ [x]) := by
  have hinj : ∀ y ∈ nodes.map (·.id), ∀ z ∈ nodes.map (·.id),
      getItem ((nodes.map (·.id)).zip (List.range (nodes.map (·.id)).length)) y =
        getItem ((nodes.map (·.id)).zip (List.range (nodes.map (·.id)).length)) z → y = z := by
    intro y hy z hz heq
    rw [getItem_order hy, getItem_order hz] at heq
    exact (List.idxOf_inj hy).mp heq
  have hcount := h.countable hnodup
  obtain ⟨k, hk, hentry, hx, hdeps⟩ := (h.mem_ready (p, x)).mp List.mem_cons_self
  obtain ⟨rfl, rfl⟩ := Prod.mk.inj hentry
  rw [foldl_releaseDependent]
  refine ⟨fun n hn => ?_, ?_, fun e => ?_, ?_, ?_, ?_, ?_⟩
  · rw [getItem_decrementAll, count_dependentsOf hnodup hn, h.counted n hn, countP_not_mem_snoc hx]
    omega
  · have hsorted : HeapSorted ready := (List.pairwise_cons.mp h.sorted).2
    refine hsorted.pushAll hinj (nodup_exhausted _ _) (fun y hy => ?_) fun e he => ?_
    · obtain ⟨n, hn, rfl, -⟩ := mem_dependentsOf.mp (exhausted_mem hy).1
      exact List.mem_map_of_mem hn
    · obtain ⟨hids, horder, hzero⟩ := h.entries e (List.mem_cons_of_mem _ he)
      exact ⟨hids, horder, fun hmem => by have := (exhausted_mem hmem).2; omega⟩
  · simp only [mem_foldl_heapPush, mem_exhausted hcount]
    constructor
    · rintro (he | ⟨y, ⟨hy, hzero⟩, rfl⟩)
      · obtain ⟨n, hn, rfl, hfresh, hready⟩ := (h.mem_ready e).mp (List.mem_cons_of_mem _ he)
        have hlt := (List.pairwise_cons.mp h.sorted).1 _ he
        refine ⟨n, hn, rfl, ?_, fun d hd => List.mem_append_left _ (hready d hd)⟩
        rw [List.mem_append, List.mem_singleton]
        rintro (hold | hsame)
        · exact hfresh hold
        · rw [hsame] at hlt
          exact Nat.lt_irrefl _ hlt
      · obtain ⟨n, hn, rfl, hxn⟩ := mem_dependentsOf.mp hy
        refine ⟨n, hn, by rw [getItem_order (List.mem_map_of_mem hn)], ?_, ?_⟩
        · rw [List.mem_append, List.mem_singleton]
          rintro (hold | hsame)
          · exact hx (h.unreleased hn hold _ hxn)
          · exact hx (hdeps _ (node_of_id hnodup hn hk hsame ▸ hxn))
        · have hnone : n.dependencies.countP (· ∉ result ++ [k.id]) = 0 := by
            rw [count_dependentsOf hnodup hn, h.counted n hn, countP_not_mem_snoc hx] at hzero
            omega
          exact countP_not_mem_eq_zero.mp hnone
    · rintro ⟨n, hn, rfl, hfresh, hready⟩
      rw [List.mem_append, not_or, List.mem_singleton] at hfresh
      by_cases hxn : k.id ∈ n.dependencies
      · have hnone : n.dependencies.countP (· ∉ result ++ [k.id]) = 0 := countP_not_mem_eq_zero.mpr hready
        refine .inr ⟨n.id, ⟨mem_dependentsOf.mpr ⟨n, hn, rfl, hxn⟩, ?_⟩, by rw [getItem_order (List.mem_map_of_mem hn)]⟩
        rw [count_dependentsOf hnodup hn, h.counted n hn, countP_not_mem_snoc hx, hnone, Nat.zero_add]
      · have hold : ∀ d ∈ n.dependencies, d ∈ result := by
          intro d hd
          rcases List.mem_append.mp (hready d hd) with hmemd | hmemd
          · exact hmemd
          · exact absurd (List.mem_singleton.mp hmemd ▸ hd) hxn
        rcases List.mem_cons.mp ((h.mem_ready _).mpr ⟨n, hn, rfl, hfresh.1, hold⟩) with hhead | htail
        · exact absurd (Prod.mk.inj hhead).2 hfresh.2
        · exact .inl htail
  · exact h.nodup.append (List.nodup_singleton _) (List.disjoint_singleton.mpr hx)
  · intro y hy
    rcases List.mem_append.mp hy with hy | hy
    · exact h.subset y hy
    · exact List.mem_singleton.mp hy ▸ List.mem_map_of_mem hk
  · exact h.inOrder.snoc fun d hd => hdeps d ((needs_iff hnodup hk d).mp hd)
  · refine h.greedy.snoc fun y hy hfresh hready => ?_
    obtain ⟨n, hn, rfl⟩ := List.mem_map.mp hy
    have hmemready := (h.mem_ready _).mpr ⟨n, hn, rfl, hfresh, fun d hd => hready d ⟨n, hn, rfl, hd⟩⟩
    rcases List.mem_cons.mp hmemready with hhead | htail
    · exact .inl (Prod.mk.inj hhead).2
    · exact .inr ((List.pairwise_cons.mp h.sorted).1 _ htail)

/-- The loop ends with nothing ready. -/
theorem kahnLoop_spec (hnodup : (nodes.map (·.id)).Nodup) {dependents : Dict NodeId (List NodeId)}
    (hdependents : ∀ x ∈ nodes.map (·.id), getItem dependents x = dependentsOf nodes x) {fuel : Nat}
    {remaining : Dict NodeId Int} {ready : List (Nat × NodeId)} {result : List NodeId} (h : Kahn nodes remaining ready result)
    (hfuel : nodes.length ≤ result.length + fuel) :
    ∃ remaining', Kahn nodes remaining' []
      (kahnLoop ((nodes.map (·.id)).zip (List.range (nodes.map (·.id)).length)) dependents fuel remaining ready result) := by
  induction fuel generalizing remaining ready result with
  | zero =>
    have hall : ∀ x ∈ nodes.map (·.id), x ∈ result := by
      have hperm : result.Perm (nodes.map (·.id)) :=
        (List.subperm_of_subset h.nodup h.subset).perm_of_length_le (by simpa using hfuel)
      exact fun x hx => hperm.mem_iff.mpr hx
    have hnone : ready = [] := by
      rw [List.eq_nil_iff_forall_not_mem]
      intro e he
      obtain ⟨n, hn, -, hfresh, -⟩ := (h.mem_ready e).mp he
      exact hfresh (hall n.id (List.mem_map_of_mem hn))
    exact ⟨remaining, hnone ▸ h⟩
  | succ fuel ih =>
    rcases ready with - | ⟨⟨p, x⟩, ready⟩
    · exact ⟨remaining, h⟩
    · obtain ⟨k, hk, hentry, -⟩ := (h.mem_ready (p, x)).mp List.mem_cons_self
      obtain ⟨-, rfl⟩ := Prod.mk.inj hentry
      rw [kahnLoop, hdependents k.id (List.mem_map_of_mem hk)]
      exact ih (h.step hnodup) (by simp; omega)

end Loop

/-! ## The order -/

section Order

variable {nodes : List PreflightExecutionNode}

theorem pairwise_before {ids : List NodeId} (hnodup : ids.Nodup) : ids.Pairwise (Before ids) := by
  rw [List.pairwise_iff_getElem]
  intro i j hi hj hij
  rw [Before, hnodup.idxOf_getElem, hnodup.idxOf_getElem]
  exact hij

theorem kahn_start (hnodup : (nodes.map (·.id)).Nodup) :
    Kahn nodes (nodes.map fun node => (node.id, (node.dependencies.length : Int)))
      (((nodes.map fun node => (node.id, (node.dependencies.length : Int))).filter fun entry => entry.2 = 0).map fun entry =>
        (getItem ((nodes.map (·.id)).zip (List.range (nodes.map (·.id)).length)) entry.1, entry.1)) [] := by
  refine ⟨fun n hn => ?_, ?_, fun e => ?_, List.nodup_nil, fun x hx => absurd hx List.not_mem_nil, inOrder_nil, Greedy.nil⟩
  · have hkeys : (keys (nodes.map fun node => (node.id, (node.dependencies.length : Int)))).Nodup := by
      simpa [keys, Function.comp_def] using hnodup
    rw [getItem, get?_of_mem hkeys (List.mem_map.mpr ⟨n, hn, rfl⟩)]
    simp
  · refine List.pairwise_map.mpr (List.Pairwise.filter _ (List.pairwise_map.mpr ?_))
    refine (List.pairwise_map.mp (pairwise_before hnodup)).imp_of_mem fun ha hb hlt => ?_
    rw [getItem_order (List.mem_map_of_mem ha), getItem_order (List.mem_map_of_mem hb)]
    exact hlt
  · simp only [List.mem_map, List.mem_filter, decide_eq_true_eq]
    constructor
    · rintro ⟨_, ⟨⟨n, hn, rfl⟩, hzero⟩, rfl⟩
      refine ⟨n, hn, ?_, List.not_mem_nil, ?_⟩
      · rw [getItem_order (List.mem_map_of_mem hn)]
      · simp only [Nat.cast_eq_zero, List.length_eq_zero_iff] at hzero
        simp [hzero]
    · rintro ⟨n, hn, rfl, -, hnone⟩
      refine ⟨_, ⟨⟨n, hn, rfl⟩, ?_⟩, ?_⟩
      · rw [List.eq_nil_iff_forall_not_mem.mpr fun d hd => List.not_mem_nil (hnone d hd)]
        rfl
      · rw [getItem_order (List.mem_map_of_mem hn)]

theorem dedup_length_iff {ids : List NodeId} : ids.dedup.length = ids.length ↔ ids.Nodup := by
  constructor
  · intro h
    rw [← (List.dedup_sublist ids).eq_of_length h]
    exact List.nodup_dedup ids
  · intro h
    rw [h.dedup]

/-- Where `topologicalOrder` stops. -/
theorem topologicalOrder_cases (nodes : List PreflightExecutionNode) :
    (¬(nodes.map (·.id)).Nodup ∧ topologicalOrder nodes = .error "Expansion contains colliding node identities") ∨
    (∃ n ∈ nodes, ∃ d ∈ n.dependencies, d ∉ nodes.map (·.id) ∧
      topologicalOrder nodes = .error ("Expansion references unknown dependency '" ++ d ++ "'")) ∨
    ((nodes.map (·.id)).Nodup ∧ (∀ n ∈ nodes, ∀ d ∈ n.dependencies, d ∈ nodes.map (·.id)) ∧
      ∃ remaining result, Kahn nodes remaining [] result ∧ topologicalOrder nodes =
        if result.length ≠ nodes.length then .error "Expansion introduces a dependency cycle" else .ok result) := by
  by_cases hnodup : (nodes.map (·.id)).Nodup
  · have hlength : (nodes.map (·.id)).dedup.length = nodes.length := by
      rw [dedup_length_iff.mpr hnodup, List.length_map]
    cases hfind : (nodes.flatMap (·.dependencies)).find? fun dependency => !((nodes.map (·.id)).contains dependency) with
    | some d =>
      obtain ⟨n, hn, hd⟩ := List.mem_flatMap.mp (List.mem_of_find?_eq_some hfind)
      have hunknown : d ∉ nodes.map (·.id) := by simpa using List.find?_some hfind
      refine .inr (.inl ⟨n, hn, d, hd, hunknown, ?_⟩)
      simp only [topologicalOrder, hlength, ne_eq, not_true_eq_false, if_false, hfind]
    | none =>
      have hknown : ∀ n ∈ nodes, ∀ d ∈ n.dependencies, d ∈ nodes.map (·.id) := by
        intro n hn d hd
        simpa using List.find?_eq_none.mp hfind d (List.mem_flatMap.mpr ⟨n, hn, hd⟩)
      obtain ⟨remaining, hkahn⟩ := kahnLoop_spec hnodup (fun x hx => getItem_ofKeys _ (dependentsOf nodes) hx)
        (kahn_start hnodup) (show nodes.length ≤ ([] : List NodeId).length + nodes.length by simp)
      refine .inr (.inr ⟨hnodup, hknown, remaining, _, hkahn, ?_⟩)
      simp only [topologicalOrder, hlength, ne_eq, not_true_eq_false, if_false, hfind]
      rfl
  · refine .inl ⟨hnodup, ?_⟩
    have hlength : (nodes.map (·.id)).dedup.length ≠ nodes.length := by
      rw [← @List.length_map _ _ nodes (·.id)]
      exact fun h => hnodup (dedup_length_iff.mp h)
    simp only [topologicalOrder, hlength, ne_eq, not_false_eq_true, if_true]

/-- A loop that ended early left a cycle. -/
theorem Kahn.cyclic {remaining : Dict NodeId Int} {result : List NodeId} (hnodup : (nodes.map (·.id)).Nodup)
    (hknown : ∀ n ∈ nodes, ∀ d ∈ n.dependencies, d ∈ nodes.map (·.id)) (h : Kahn nodes remaining [] result)
    (hlength : result.length ≠ nodes.length) : Cyclic (Needs nodes) := by
  have hleft : (nodes.map (·.id)).filter (· ∉ result) ≠ [] := by
    intro hnone
    have hall : ∀ x ∈ nodes.map (·.id), x ∈ result := by simpa [List.filter_eq_nil_iff] using hnone
    have hperm := (List.perm_ext_iff_of_nodup h.nodup hnodup).mpr fun x => ⟨h.subset x, hall x⟩
    exact hlength (by rw [hperm.length_eq, List.length_map])
  refine cyclic_of_stuck hleft fun x hx => ?_
  obtain ⟨hid, hfresh⟩ := List.mem_filter.mp hx
  obtain ⟨n, hn, rfl⟩ := List.mem_map.mp hid
  by_contra hnone
  have hready : ∀ d ∈ n.dependencies, d ∈ result := by
    intro d hd
    by_contra hd'
    exact hnone ⟨d, List.mem_filter.mpr ⟨hknown n hn d hd, by simpa using hd'⟩, n, hn, rfl, hd⟩
  exact List.not_mem_nil ((h.mem_ready _).mpr ⟨n, hn, rfl, by simpa using hfresh, hready⟩)

theorem Kahn.perm {remaining : Dict NodeId Int} {result : List NodeId} (h : Kahn nodes remaining [] result)
    (hlength : result.length = nodes.length) : result.Perm (nodes.map (·.id)) :=
  (List.subperm_of_subset h.nodup h.subset).perm_of_length_le (by simp [hlength])

/-- The order exists unless ids repeat, a dependency is unknown or there is a cycle, and then is the least one. -/
theorem topological_order_least (nodes : List PreflightExecutionNode) :
    ((∃ e, topologicalOrder nodes = .error e) ↔
      ¬(nodes.map (·.id)).Nodup ∨ (∃ n ∈ nodes, ∃ d ∈ n.dependencies, d ∉ nodes.map (·.id)) ∨ Cyclic (Needs nodes)) ∧
    ∀ order, topologicalOrder nodes = .ok order →
      order.Perm (nodes.map (·.id)) ∧ InOrder (Needs nodes) order ∧
      ∀ other, other.Perm (nodes.map (·.id)) → InOrder (Needs nodes) other →
        order = other ∨ List.Lex (Before (nodes.map (·.id))) order other := by
  rcases topologicalOrder_cases nodes with ⟨hdup, herror⟩ | ⟨n, hn, d, hd, hunknown, herror⟩ |
    ⟨hnodup, hknown, remaining, result, hkahn, heq⟩
  · exact ⟨iff_of_true ⟨_, herror⟩ (.inl hdup), by simp [herror]⟩
  · exact ⟨iff_of_true ⟨_, herror⟩ (.inr (.inl ⟨n, hn, d, hd, hunknown⟩)), by simp [herror]⟩
  · by_cases hlength : result.length = nodes.length
    · have hperm := hkahn.perm hlength
      rw [if_neg (by simpa using hlength)] at heq
      refine ⟨iff_of_false (by simp [heq]) ?_, fun order horder => ?_⟩
      · rintro (hdup | ⟨n, hn, d, hd, hunknown⟩ | ⟨x, hx⟩)
        · exact hdup hnodup
        · exact hunknown (hknown n hn d hd)
        · obtain ⟨d, -, n, hn, rfl, -⟩ := Relation.TransGen.tail'_iff.mp hx
          exact hkahn.inOrder.not_trans_self hkahn.nodup (hperm.mem_iff.mpr (List.mem_map_of_mem hn)) hx
      · rw [heq] at horder
        cases horder
        refine ⟨hperm, hkahn.inOrder, fun other hother horder => ?_⟩
        have hgreedy : Greedy (Needs nodes) (Before (nodes.map (·.id))) (nodes.map (·.id)) ([] ++ result) := hkahn.greedy
        exact lex_of_greedy hgreedy (fun y hy => ⟨hkahn.subset y hy, List.not_mem_nil⟩) hkahn.nodup
          (hother.trans hperm.symm) horder
    · rw [if_pos (by simpa using hlength)] at heq
      exact ⟨iff_of_true ⟨_, heq⟩ (.inr (.inr (hkahn.cyclic hnodup hknown hlength))), by simp [heq]⟩

example : topologicalOrder [⟨"report", .parallel, false, ["build", "build"], none, false, none⟩,
    ⟨"lint", .parallel, false, [], none, false, none⟩, ⟨"build", .parallel, false, [], none, false, none⟩,
    ⟨"ship", .parallel, false, ["lint"], none, false, none⟩] = .ok ["lint", "build", "report", "ship"] := by
  decide +kernel

end Order

end Crewplane.Plan
