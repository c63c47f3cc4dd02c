import Crewplane.Observability.DagGraph
/-
# Pruning keeps reachability (observability/dag_graph.py)

A dependency goes only where a search found a path around it, and both passes decide on the graph they were given. Each
search ends, since every node can pay for the paths from it (`exists_pathWeight`). So the graph that is drawn connects the
nodes that the topology connects (`Rendered`).
-/
namespace Crewplane.Observability

open Crewplane.Lib Dict Crewplane.Workflow Relation
open Crewplane.Plan (NodeId)

section Searches

variable {dependents : Dict NodeId (List NodeId)} {weight : NodeId → Nat} {nodeId : NodeId}

/-- `x` is listed as a dependent of `d`. -/
def Edge (dependents : Dict NodeId (List NodeId)) (d x : NodeId) : Prop := x ∈ getIds dependents d

/-- A path from `d` to `x` that starts at another node than `x`. -/
def Detour (dependents : Dict NodeId (List NodeId)) (d x : NodeId) : Prop :=
  ∃ c, Edge dependents d c ∧ c ≠ x ∧ ReflTransGen (Edge dependents) c x

theorem Detour.between {d x : NodeId} (h : Detour dependents d x) :
    ∃ m, TransGen (Edge dependents) d m ∧ TransGen (Edge dependents) m x := by
  obtain ⟨c, hc, hne, hpath⟩ := h
  refine ⟨c, .single hc, ?_⟩
  rcases reflTransGen_iff_eq_or_transGen.mp hpath with heq | hpath
  · exact absurd heq.symm hne
  · exact hpath

variable (hweight : ∀ x, 1 + ((getIds dependents x).map weight).sum ≤ weight x)

include hweight in
theorem alternatePathLoop_spec {fuel : Nat} {stack : List (NodeId × Nat)} {best : Dict NodeId Nat} {maxDistance : Nat}
    (hfuel : (stack.map fun entry => weight entry.1).sum ≤ fuel) :
    ∃ length, alternatePathLoop nodeId dependents fuel stack best maxDistance = .ok length ∧
      (length ≠ 0 → maxDistance ≠ 0 ∨ ∃ entry ∈ stack, ReflTransGen (Edge dependents) entry.1 nodeId) := by
  induction fuel generalizing stack best maxDistance with
  | zero =>
    cases stack with
    | nil => exact ⟨maxDistance, by simp [alternatePathLoop], .inl⟩
    | cons entry stack =>
      have := hweight entry.1
      simp only [List.map_cons, List.sum_cons] at hfuel
      omega
  | succ fuel ih =>
    cases stack with
    | nil => exact ⟨maxDistance, by simp [alternatePathLoop], .inl⟩
    | cons entry stack =>
      obtain ⟨current, distance⟩ := entry
      have hpay := hweight current
      simp only [List.map_cons, List.sum_cons] at hfuel
      rw [alternatePathLoop]
      split
      · obtain ⟨length, hloop, hfound⟩ := @ih stack best maxDistance (by omega)
        refine ⟨length, hloop, fun hne => (hfound hne).imp_right ?_⟩
        rintro ⟨entry, hmem, hpath⟩
        exact ⟨entry, List.mem_cons_of_mem _ hmem, hpath⟩
      · split
        · next heq =>
          subst heq
          obtain ⟨length, hloop, -⟩ := @ih stack (setItem best current distance) (max maxDistance distance) (by omega)
          exact ⟨length, hloop, fun _ => .inr ⟨(current, distance), List.mem_cons_self, .refl⟩⟩
        · have hsum : ((((getIds dependents current).map fun id => (id, distance + 1)).reverse ++ stack).map
              fun entry => weight entry.1).sum ≤ fuel := by
            rw [List.map_append, List.sum_append, List.map_reverse, List.sum_reverse, List.map_map]
            have : ((fun entry : NodeId × Nat => weight entry.1) ∘ fun id => (id, distance + 1)) = weight := rfl
            rw [this]
            omega
          obtain ⟨length, hloop, hfound⟩ := @ih _ (setItem best current distance) maxDistance hsum
          refine ⟨length, hloop, fun hne => (hfound hne).imp_right ?_⟩
          rintro ⟨entry, hmem, hpath⟩
          rcases List.mem_append.mp hmem with hmem | hmem
          · obtain ⟨id, hid, rfl⟩ := List.mem_map.mp (List.mem_reverse.mp hmem)
            exact ⟨(current, distance), List.mem_cons_self, .head hid hpath⟩
          · exact ⟨entry, List.mem_cons_of_mem _ hmem, hpath⟩

include hweight in
theorem faninPathLoop_spec (faninNodes : List NodeId) {fuel : Nat} {stack visited : List (NodeId × Bool)}
    (hfuel : (stack.map fun entry => weight entry.1).sum ≤ fuel) :
    ∃ found, faninPathLoop nodeId dependents faninNodes fuel stack visited = .ok found ∧
      (found = true → ∃ entry ∈ stack, ReflTransGen (Edge dependents) entry.1 nodeId) := by
  induction fuel generalizing stack visited with
  | zero =>
    cases stack with
    | nil => exact ⟨false, by simp [faninPathLoop], by simp⟩
    | cons entry stack =>
      have := hweight entry.1
      simp only [List.map_cons, List.sum_cons] at hfuel
      omega
  | succ fuel ih =>
    cases stack with
    | nil => exact ⟨false, by simp [faninPathLoop], by simp⟩
    | cons entry stack =>
      obtain ⟨current, passedFanin⟩ := entry
      have hpay := hweight current
      simp only [List.map_cons, List.sum_cons] at hfuel
      have hrest : ∀ visited, ∃ found, faninPathLoop nodeId dependents faninNodes fuel stack visited = .ok found ∧
          (found = true → ∃ entry ∈ (current, passedFanin) :: stack, ReflTransGen (Edge dependents) entry.1 nodeId) := by
        intro visited
        obtain ⟨found, hloop, hpath⟩ := @ih stack visited (by omega)
        refine ⟨found, hloop, fun h => ?_⟩
        obtain ⟨entry, hmem, hpath⟩ := hpath h
        exact ⟨entry, List.mem_cons_of_mem _ hmem, hpath⟩
      rw [faninPathLoop]
      split
      · next heq =>
        subst heq
        split
        · exact ⟨true, rfl, fun _ => ⟨_, List.mem_cons_self, .refl⟩⟩
        · exact hrest visited
      · split
        · exact hrest visited
        · have hsum : ((((getIds dependents current).map fun id => (id, passedFanin || decide (current ∈ faninNodes))).reverse ++
              stack).map fun entry => weight entry.1).sum ≤ fuel := by
            rw [List.map_append, List.sum_append, List.map_reverse, List.sum_reverse, List.map_map]
            have : ((fun entry : NodeId × Bool => weight entry.1) ∘
                fun id => (id, passedFanin || decide (current ∈ faninNodes))) = weight := rfl
            rw [this]
            omega
          obtain ⟨found, hloop, hpath⟩ := @ih _ ((current, passedFanin) :: visited) hsum
          refine ⟨found, hloop, fun h => ?_⟩
          obtain ⟨entry, hmem, hpath⟩ := hpath h
          rcases List.mem_append.mp hmem with hmem | hmem
          · obtain ⟨id, hid, rfl⟩ := List.mem_map.mp (List.mem_reverse.mp hmem)
            exact ⟨(current, passedFanin), List.mem_cons_self, .head hid hpath⟩
          · exact ⟨entry, List.mem_cons_of_mem _ hmem, hpath⟩

theorem sum_filter_le (d : NodeId) :
    (((getIds dependents d).filter (· ≠ nodeId)).map weight).sum ≤ ((getIds dependents d).map weight).sum :=
  (List.filter_sublist.map weight).sum_le_sum (by simp)

include hweight in
/-- A length other than 0 is the length of a detour. -/
theorem alternatePathLength_spec {fuel : Nat} {d : NodeId} (hfuel : weight d ≤ fuel) :
    ∃ length, alternatePathLength fuel d nodeId dependents = .ok length ∧ (length ≠ 0 → Detour dependents d nodeId) := by
  have hpay := hweight d
  have hfilter := @sum_filter_le dependents weight nodeId d
  obtain ⟨length, hloop, hfound⟩ := @alternatePathLoop_spec dependents weight nodeId hweight fuel
    (((getIds dependents d).filter (· ≠ nodeId)).map fun id => (id, 1)).reverse [] 0 (by
      rw [List.map_reverse, List.sum_reverse, List.map_map]
      have : ((fun entry : NodeId × Nat => weight entry.1) ∘ fun id => (id, 1)) = weight := rfl
      rw [this]
      omega)
  refine ⟨length, hloop, fun hne => ?_⟩
  rcases hfound hne with hzero | ⟨entry, hmem, hpath⟩
  · exact absurd rfl hzero
  · obtain ⟨c, hc, rfl⟩ := List.mem_map.mp (List.mem_reverse.mp hmem)
    obtain ⟨hc, hne⟩ := List.mem_filter.mp hc
    exact ⟨c, hc, by simpa using hne, hpath⟩

include hweight in
theorem hasAlternatePathThroughFanin_spec (faninNodes : List NodeId) {fuel : Nat} {d : NodeId} (hfuel : weight d ≤ fuel) :
    ∃ found, hasAlternatePathThroughFanin fuel d nodeId dependents faninNodes = .ok found ∧
      (found = true → Detour dependents d nodeId) := by
  have hpay := hweight d
  have hfilter := @sum_filter_le dependents weight nodeId d
  obtain ⟨found, hloop, hpath⟩ := @faninPathLoop_spec dependents weight nodeId hweight faninNodes fuel
    (((getIds dependents d).filter (· ≠ nodeId)).map fun id => (id, false)).reverse [] (by
      rw [List.map_reverse, List.sum_reverse, List.map_map]
      have : ((fun entry : NodeId × Bool => weight entry.1) ∘ fun id => (id, false)) = weight := rfl
      rw [this]
      omega)
  refine ⟨found, hloop, fun h => ?_⟩
  obtain ⟨entry, hmem, hpath⟩ := hpath h
  obtain ⟨c, hc, rfl⟩ := List.mem_map.mp (List.mem_reverse.mp hmem)
  obtain ⟨hc, hne⟩ := List.mem_filter.mp hc
  exact ⟨c, hc, by simpa using hne, hpath⟩

end Searches

/-! ## The maps -/

theorem filterM_eq_ok {keep : NodeId → Except RenderError Bool} {ids : List NodeId} (h : ∀ d ∈ ids, ∃ b, keep d = .ok b) :
    ids.filterM keep = .ok (ids.filter fun d => keep d = .ok true) := by
  have hloop : ∀ (ids acc : List NodeId), (∀ d ∈ ids, ∃ b, keep d = .ok b) →
      List.filterAuxM keep ids acc = .ok ((ids.filter fun d => keep d = .ok true).reverse ++ acc) := by
    intro ids
    induction ids with
    | nil => exact fun acc _ => rfl
    | cons d rest ih =>
      intro acc h
      obtain ⟨b, hb⟩ := h d List.mem_cons_self
      have hrest := ih (cond b (d :: acc) acc) fun d hd => h d (List.mem_cons_of_mem _ hd)
      rw [List.filterAuxM, hb, List.filter_cons, hb]
      simp only [bind, Except.bind, hrest]
      cases b <;> simp
  rw [List.filterM, hloop ids [] h]
  simp [bind, Except.bind, pure, Except.pure]

/-- A pass keeps the keys, and of each list what `keep` says. -/
theorem keepDependencies_spec {keep : NodeId → NodeId → Except RenderError Bool} {dependencies : Dict NodeId (List NodeId)}
    (h : ∀ entry ∈ dependencies, ∀ d ∈ entry.2, ∃ b, keep d entry.1 = .ok b) :
    keepDependencies keep dependencies =
      .ok (dependencies.map fun entry => (entry.1, entry.2.filter fun d => keep d entry.1 = .ok true)) := by
  unfold keepDependencies
  induction dependencies with
  | nil => rfl
  | cons entry rest ih =>
    rw [List.mapM_cons, filterM_eq_ok (h entry List.mem_cons_self), ih fun e he => h e (List.mem_cons_of_mem _ he)]
    rfl

theorem getIds_kept (keep : NodeId → NodeId → Bool) (dependencies : Dict NodeId (List NodeId)) (x : NodeId) :
    getIds (dependencies.map fun entry => (entry.1, entry.2.filter fun d => keep d entry.1)) x =
      (getIds dependencies x).filter fun d => keep d x := by
  induction dependencies with
  | nil => rfl
  | cons entry rest ih =>
    by_cases hx : entry.1 = x
    · subst hx
      simp [getIds, get?]
    · simpa [getIds, get?, hx] using ih

theorem keys_kept (keep : NodeId → NodeId → Bool) (dependencies : Dict NodeId (List NodeId)) :
    keys (dependencies.map fun entry => (entry.1, entry.2.filter fun d => keep d entry.1)) = keys dependencies := by
  simp [keys, Function.comp_def]

/-- Reading an entry of a dict with distinct keys. -/
theorem getIds_of_mem {dependencies : Dict NodeId (List NodeId)} (hkeys : (keys dependencies).Nodup)
    {entry : NodeId × List NodeId} (h : entry ∈ dependencies) : getIds dependencies entry.1 = entry.2 := by
  rw [getIds, get?_of_mem hkeys h, Option.getD_some]

theorem appendDependents_spec (nodeId : NodeId) {ids : List NodeId} (hids : ids.Nodup)
    {dependents : Dict NodeId (List NodeId)} (hknown : ∀ d ∈ ids, d ∈ keys dependents)
    (hnew : ∀ d, nodeId ∉ getIds dependents d) (hnodup : ∀ d, (getIds dependents d).Nodup) :
    ∃ dependents', ids.foldlM (appendDependent nodeId) dependents = .ok dependents' ∧
      (∀ d, d ∈ keys dependents' ↔ d ∈ keys dependents) ∧ (∀ d, (getIds dependents' d).Nodup) ∧
      ∀ d y, y ∈ getIds dependents' d ↔ y ∈ getIds dependents d ∨ (y = nodeId ∧ d ∈ ids) := by
  have hloop : ∀ {ids : List NodeId} {dependents : Dict NodeId (List NodeId)}, ids.Nodup → (∀ d ∈ ids, d ∈ keys dependents) →
      (∀ d ∈ ids, nodeId ∉ getIds dependents d) → (∀ d, (getIds dependents d).Nodup) →
      ∃ dependents', ids.foldlM (appendDependent nodeId) dependents = .ok dependents' ∧
        (∀ d, d ∈ keys dependents' ↔ d ∈ keys dependents) ∧ (∀ d, (getIds dependents' d).Nodup) ∧
        ∀ d y, y ∈ getIds dependents' d ↔ y ∈ getIds dependents d ∨ (y = nodeId ∧ d ∈ ids) := by
    intro ids
    induction ids with
    | nil =>
      intro dependents _ _ _ hnodup
      exact ⟨dependents, rfl, fun _ => Iff.rfl, hnodup, by simp⟩
    | cons a rest ih =>
      intro dependents hids hknown hnew hnodup
      obtain ⟨ha, hrest⟩ := List.nodup_cons.mp hids
      have hstep : appendDependent nodeId dependents a = .ok (modify dependents a (· ++ [nodeId])) :=
        if_pos (hknown a List.mem_cons_self)
      have hget : ∀ d, getIds (modify dependents a (· ++ [nodeId])) d =
          if a = d then getIds dependents a ++ [nodeId] else getIds dependents d := fun d => getItem_modify dependents a _ d
      have hkeys : ∀ d, d ∈ keys (modify dependents a (· ++ [nodeId])) ↔ d ∈ keys dependents := by
        intro d
        rw [mem_keys_modify]
        exact or_iff_right_of_imp fun h => h ▸ hknown a List.mem_cons_self
      obtain ⟨dependents', hfold, hkeys', hnodup', hmem⟩ := @ih (modify dependents a (· ++ [nodeId])) hrest
        (fun d hd => (hkeys d).mpr (hknown d (List.mem_cons_of_mem a hd)))
        (fun d hd => by
          rw [hget, if_neg fun h : a = d => ha (h ▸ hd)]
          exact hnew d (List.mem_cons_of_mem a hd))
        (fun d => by
          rw [hget]
          split
          · exact (hnodup a).append (List.nodup_singleton _) (by simpa using hnew a List.mem_cons_self)
          · exact hnodup d)
      refine ⟨dependents', ?_, fun d => (hkeys' d).trans (hkeys d), hnodup', fun d y => ?_⟩
      · rw [List.foldlM_cons, hstep]
        exact hfold
      · rw [hmem, hget]
        by_cases had : a = d
        · subst had
          simp [ha]
        · rw [if_neg had]
          simp [Ne.symm had]
  exact hloop hids hknown (fun d _ => hnew d) hnodup

theorem dependentMapFor_spec {dependencies : Dict NodeId (List NodeId)} {layout : TopologyLayout}
    (hkeys : (keys dependencies).Nodup) (hids : ∀ x, (getIds dependencies x).Nodup)
    (hknown : ∀ d x, d ∈ getIds dependencies x → d ∈ keys layout.nodeOrder) :
    ∃ dependents, dependentMapFor dependencies layout = .ok dependents ∧ (∀ d, (getIds dependents d).Nodup) ∧
      ∀ d x, x ∈ getIds dependents d ↔ d ∈ getIds dependencies x := by
  have hloop : ∀ {entries dependents : Dict NodeId (List NodeId)}, (keys entries).Nodup →
      (∀ entry ∈ entries, entry.2.Nodup ∧ ∀ d ∈ entry.2, d ∈ keys dependents) →
      (∀ d, ∀ y ∈ getIds dependents d, y ∉ keys entries) → (∀ d, (getIds dependents d).Nodup) →
      ∃ dependents', entries.foldlM (fun dependents entry => entry.2.foldlM (appendDependent entry.1) dependents) dependents =
          .ok dependents' ∧ (∀ d, (getIds dependents' d).Nodup) ∧
        ∀ d x, x ∈ getIds dependents' d ↔ x ∈ getIds dependents d ∨ d ∈ getIds entries x := by
    intro entries
    induction entries with
    | nil =>
      intro dependents _ _ _ hnodup
      exact ⟨dependents, rfl, hnodup, by simp [getIds]⟩
    | cons entry rest ih =>
      intro dependents hkeys hentries hdone hnodup
      obtain ⟨hentry, hrest⟩ := List.nodup_cons.mp hkeys
      obtain ⟨dependents₁, hfold₁, hkeys₁, hnodup₁, hmem₁⟩ := appendDependents_spec entry.1
        (hentries entry List.mem_cons_self).1 (hentries entry List.mem_cons_self).2
        (fun d hd => hdone d entry.1 hd List.mem_cons_self) hnodup
      obtain ⟨dependents₂, hfold₂, hnodup₂, hmem₂⟩ := @ih dependents₁ hrest
        (fun e he => ⟨(hentries e (List.mem_cons_of_mem _ he)).1,
          fun d hd => (hkeys₁ d).mpr ((hentries e (List.mem_cons_of_mem _ he)).2 d hd)⟩)
        (fun d y hy => by
          rcases (hmem₁ d y).mp hy with hy | ⟨rfl, -⟩
          · exact fun hr => hdone d y hy (List.mem_cons_of_mem _ hr)
          · exact hentry)
        hnodup₁
      refine ⟨dependents₂, ?_, hnodup₂, fun d x => ?_⟩
      · rw [List.foldlM_cons, hfold₁]
        exact hfold₂
      · rw [hmem₂, hmem₁, or_assoc]
        refine or_congr_right ?_
        by_cases hx : entry.1 = x
        · subst hx
          have hnone : getIds rest entry.1 = [] := by
            rw [getIds]
            cases hget : get? rest entry.1 with
            | none => rfl
            | some ids => exact absurd ((mem_keys_iff rest entry.1).mpr (by rw [hget]; rfl)) hentry
          simp [getIds, get?] at hnone ⊢
          simp [hnone]
        · simp [getIds, get?, hx, Ne.symm hx]
  have hempty : ∀ d, getIds (layout.nodeOrder.map fun entry => (entry.1, ([] : List NodeId))) d = [] := by
    intro d
    rw [getIds, get?_map (fun _ : Nat => ([] : List NodeId))]
    cases get? layout.nodeOrder d <;> rfl
  obtain ⟨dependents, hfold, hnodup, hmem⟩ := @hloop dependencies
    (layout.nodeOrder.map fun entry => (entry.1, ([] : List NodeId))) hkeys
    (fun entry hentry => by
      have hget := getIds_of_mem hkeys hentry
      refine ⟨hget ▸ hids entry.1, fun d hd => ?_⟩
      have hd := hknown d entry.1 (hget.symm ▸ hd)
      simpa [keys] using hd)
    (fun d y hy => by rw [hempty] at hy; cases hy) (fun d => by rw [hempty]; exact List.nodup_nil)
  have hsorted : ∀ d, getIds (dependents.map fun entry => (entry.1, sortByOrder layout.nodeOrder entry.2)) d =
      sortByOrder layout.nodeOrder (getIds dependents d) := fun d => getItem_sorted dependents layout.nodeOrder d
  refine ⟨_, by rw [dependentMapFor, hfold]; rfl, fun d => ?_, fun d x => ?_⟩
  · rw [hsorted]
    exact nodup_sortByOrder.mpr (hnodup d)
  · rw [hsorted, mem_sortByOrder, hmem, hempty]
    simp

/-! ## The two passes -/

/-- The maps that are drawn: some of the needs, both ways, and the same paths. -/
structure Rendered (topology : WorkflowTopology) (maps : Dict NodeId (List NodeId) × Dict NodeId (List NodeId)) : Prop where
  known : ∀ d x, d ∈ getIds maps.1 x → Needs topology.graph d x
  dependents : ∀ d x, x ∈ getIds maps.2 d ↔ d ∈ getIds maps.1 x
  reaches : ∀ a b, TransGen (fun d x => d ∈ getIds maps.1 x) a b ↔ TransGen (Needs topology.graph) a b

/-- A graph whose edges are some of the needs, with the map of its dependents and enough fuel for each search. -/
structure Searchable (topology : WorkflowTopology) (dependencies dependents : Dict NodeId (List NodeId)) (fuel : Nat) : Prop where
  keys : (keys dependencies).Nodup
  ids : ∀ x, (getIds dependencies x).Nodup
  known : ∀ d x, d ∈ getIds dependencies x → Needs topology.graph d x
  listed : ∀ d x, x ∈ getIds dependents d ↔ d ∈ getIds dependencies x
  reaches : ∀ a b, TransGen (fun d x => d ∈ getIds dependencies x) a b ↔ TransGen (Needs topology.graph) a b
  weights : ∃ weight : NodeId → Nat, (∀ x, 1 + ((getIds dependents x).map weight).sum ≤ weight x) ∧
    ∀ d x, Needs topology.graph d x → weight d ≤ fuel

section Passes

variable {topology : WorkflowTopology} {layout : TopologyLayout}

theorem Laid.rank_lt (h : Laid topology layout) {d x : NodeId} (hd : Needs topology.graph d x) :
    layout.waves.flatten.idxOf d < layout.waves.flatten.idxOf x :=
  h.inOrder.idxOf_lt_of_dep (h.perm.nodup_iff.mpr h.nodup) (h.perm.mem_iff.mpr (h.known d x hd).2) hd

theorem mem_nodeOrder (topology : WorkflowTopology) (x : NodeId) :
    x ∈ keys topology.nodeOrder ↔ x ∈ topology.nodes.map (·.id) := by
  have hkeys : keys (topology.nodes.zipIdx.map fun entry => (entry.1.id, entry.2)) = topology.nodes.map (·.id) := by
    have hzip : topology.nodes.zipIdx.map (fun entry => entry.1.id) = (topology.nodes.zipIdx.map Prod.fst).map (·.id) := by
      rw [List.map_map]
      rfl
    rw [keys, List.map_map]
    exact hzip.trans (by rw [List.zipIdx_map_fst])
  rw [WorkflowTopology.nodeOrder, mem_keys_ofPairs, hkeys]

theorem Laid.getIds_dependencies (h : Laid topology layout) (x : NodeId) :
    (getIds layout.dependencies x).Nodup ∧ ∀ d, d ∈ getIds layout.dependencies x ↔ Needs topology.graph d x := by
  by_cases hx : x ∈ topology.nodes.map (·.id)
  · exact h.dependencies x hx
  · have hnone : getIds layout.dependencies x = [] := by
      rw [getIds]
      cases hget : get? layout.dependencies x with
      | none => rfl
      | some ids => exact absurd ((h.keys.2 x).mp ((mem_keys_iff _ x).mpr (by rw [hget]; rfl))) hx
    rw [hnone]
    refine ⟨List.nodup_nil, fun d => ?_⟩
    simp only [List.not_mem_nil, false_iff]
    exact fun hd => hx (h.known d x hd).2

/-- The graph of the layout itself, with fuel for every path. -/
theorem Laid.searchable (h : Laid topology layout) :
    ∃ fuel₀, ∀ fuel, fuel₀ ≤ fuel → Searchable topology layout.dependencies layout.dependents fuel := by
  have hmem : ∀ d x, d ∈ getIds layout.dependencies x ↔ Needs topology.graph d x := fun d x => (h.getIds_dependencies x).2 d
  obtain ⟨weight, hweight⟩ := @exists_pathWeight NodeId (getIds layout.dependents) (fun x => layout.waves.flatten.idxOf x)
    layout.waves.flatten.length (fun x c hc => ⟨h.rank_lt (((h.dependents x).2 c).mp hc), List.idxOf_le_length⟩)
  refine ⟨((topology.nodes.map (·.id)).map weight).sum, fun fuel hfuel => ?_⟩
  refine ⟨h.keys.1, fun x => (h.getIds_dependencies x).1, fun d x => (hmem d x).mp, fun d x => ?_, fun a b => ?_,
    weight, hweight, fun d x hd => ?_⟩
  · rw [hmem]
    exact (h.dependents d).2 x
  · simp only [hmem]
  · refine le_trans ?_ hfuel
    exact List.single_le_sum (by simp) _ (List.mem_map_of_mem (h.known d x hd).1)

/-- A pass that drops only what has a detour leaves a graph of the same kind. -/
theorem Searchable.keep {dependencies dependents : Dict NodeId (List NodeId)} {fuel : Nat} (h : Laid topology layout)
    (hs : Searchable topology dependencies dependents fuel) {keep : NodeId → NodeId → Except RenderError Bool}
    (hkeep : ∀ d x, d ∈ getIds dependencies x → ∃ b, keep d x = .ok b ∧ (b = false → Detour dependents d x)) :
    ∃ dependencies' dependents', keepDependencies keep dependencies = .ok dependencies' ∧
      dependentMapFor dependencies' layout = .ok dependents' ∧ Searchable topology dependencies' dependents' fuel := by
  have hget := fun x => getIds_kept (fun d x => decide (keep d x = .ok true)) dependencies x
  have hkeys := keys_kept (fun d x => decide (keep d x = .ok true)) dependencies
  have hmem : ∀ d x, d ∈ getIds (dependencies.map fun entry => (entry.1, entry.2.filter fun d => decide (keep d entry.1 = .ok true))) x ↔
      d ∈ getIds dependencies x ∧ keep d x = .ok true := by
    intro d x
    rw [hget, List.mem_filter, decide_eq_true_iff]
  obtain ⟨dependents', hmap, hnodup, hdependents⟩ := @dependentMapFor_spec
    (dependencies.map fun entry => (entry.1, entry.2.filter fun d => decide (keep d entry.1 = .ok true))) layout (hkeys ▸ hs.keys)
    (fun x => by rw [hget]; exact (hs.ids x).filter _)
    (fun d x hd => by
      have hid := (h.known d x (hs.known d x ((hmem d x).mp hd).1)).1
      rw [h.nodeOrder]
      exact (mem_nodeOrder topology d).mpr hid)
  refine ⟨_, dependents', keepDependencies_spec fun entry hentry d hd => ?_, hmap, ⟨hkeys ▸ hs.keys, fun x => ?_, fun d x hd => ?_,
    hdependents, fun a b => ?_, ?_⟩⟩
  · rw [← getIds_of_mem hs.keys hentry] at hd
    obtain ⟨b, hb, -⟩ := hkeep d entry.1 hd
    exact ⟨b, hb⟩
  · rw [hget]
    exact (hs.ids x).filter _
  · exact hs.known d x ((hmem d x).mp hd).1
  · have hedge : ∀ {a b : NodeId}, TransGen (Edge dependents) a b → TransGen (fun d x => d ∈ getIds dependencies x) a b :=
      TransGen.mono (fun d x hdx => (hs.listed d x).mp hdx) _ _
    rw [← hs.reaches]
    constructor
    · exact TransGen.mono (fun d x hd => ((hmem d x).mp hd).1) _ _
    · refine @transGen_of_kept NodeId _ _ (fun x => layout.waves.flatten.idxOf x)
        (fun d x hd => h.rank_lt (hs.known d x hd)) (fun d x hd => ?_) a b
      obtain ⟨b, hb, hdetour⟩ := hkeep d x hd
      cases b with
      | true => exact .inl ((hmem d x).mpr ⟨hd, hb⟩)
      | false =>
        obtain ⟨m, hdm, hmx⟩ := (hdetour rfl).between
        exact .inr ⟨m, hedge hdm, hedge hmx⟩
  · obtain ⟨weight, hweight, hfuel⟩ := hs.weights
    refine ⟨weight, fun x => ?_, hfuel⟩
    have hsub : List.Subperm (getIds dependents' x) (getIds dependents x) := by
      refine List.subperm_of_subset (hnodup x) fun c hc => ?_
      exact (hs.listed x c).mpr ((hmem x c).mp ((hdependents x c).mp hc)).1
    obtain ⟨part, hperm, hpart⟩ := hsub
    have hle := (hpart.map weight).sum_le_sum (by simp)
    have heq := (hperm.map weight).sum_eq
    have := hweight x
    omega

end Passes

/-- The pruned graph has a path from one node to another exactly where the topology has one. -/
theorem renderDependencyMaps_spec {topology : WorkflowTopology} {layout : TopologyLayout} (h : Laid topology layout) :
    ∃ fuel₀, ∀ fuel, fuel₀ ≤ fuel → ∃ maps, renderDependencyMaps fuel layout = .ok maps ∧ Rendered topology maps := by
  obtain ⟨fuel₀, hfuel₀⟩ := h.searchable
  refine ⟨fuel₀, fun fuel hfuel => ?_⟩
  have hs := hfuel₀ fuel hfuel
  obtain ⟨dependencies₁, dependents₁, hkeep₁, hmap₁, hs₁⟩ := @Searchable.keep _ _ _ _ _ h hs
    (fun dependencyId nodeId => do
      let length ← alternatePathLength fuel dependencyId nodeId layout.dependents
      return length ≠ shortTransitivePathLength) (fun d x hd => by
      obtain ⟨weight, hweight, hpay⟩ := hs.weights
      obtain ⟨length, hlength, hdetour⟩ := @alternatePathLength_spec layout.dependents weight x hweight fuel d
        (hpay d x (hs.known d x hd))
      refine ⟨decide (length ≠ shortTransitivePathLength), by rw [hlength]; rfl, fun hb => hdetour ?_⟩
      have hb : length = shortTransitivePathLength := by simpa using hb
      rw [hb]
      decide)
  obtain ⟨dependencies₂, dependents₂, hkeep₂, hmap₂, hs₂⟩ := @Searchable.keep _ _ _ _ _ h hs₁
    (fun dependencyId nodeId => do
      let implied ← hasAlternatePathThroughFanin fuel dependencyId nodeId dependents₁
        ((dependencies₁.filter fun entry => entry.2.length > 1).map (·.1))
      return !implied) (fun d x hd => by
      obtain ⟨weight, hweight, hpay⟩ := hs₁.weights
      obtain ⟨found, hfound, hdetour⟩ := @hasAlternatePathThroughFanin_spec dependents₁ weight x hweight
        ((dependencies₁.filter fun entry => entry.2.length > 1).map (·.1)) fuel d (hpay d x (hs₁.known d x hd))
      refine ⟨!found, by rw [hfound]; rfl, fun hb => hdetour (by simpa using hb)⟩)
  refine ⟨(dependencies₂, dependents₂), ?_, ⟨hs₂.known, hs₂.listed, hs₂.reaches⟩⟩
  simp only [renderDependencyMaps, pruneShortTransitiveDependencies, prunePostFaninTransitiveDependencies]
  rw [hkeep₁]
  simp only [bind, Except.bind, hmap₁]
  erw [hkeep₂]
  simp only [hmap₂]
  rfl

theorem laid_of_dag {topology : WorkflowTopology}
    (hknown : ∀ n ∈ topology.nodes, ∀ d ∈ n.dependencies, d ∈ topology.nodes.map (·.id))
    (hnodup : (topology.nodes.map (·.id)).Nodup) (hacyclic : ¬Cyclic (Needs topology.graph)) :
    ∃ layout, computeTopologyLayout topology = .ok layout ∧ Laid topology layout := by
  rcases computeTopologyLayout_cases topology with ⟨-, hfault⟩ | ⟨hlaid, -⟩
  · rw [graph_ids] at hfault
    rcases hfault with ⟨n, hn, d, hd, hunknown⟩ | hcycle | hdup
    · obtain ⟨node, hnode, rfl⟩ := List.mem_map.mp hn
      exact absurd (hknown node hnode d hd) hunknown
    · exact absurd hcycle hacyclic
    · exact absurd hnodup hdup
  · exact hlaid

/-- In every graph without a cycle the dependencies that are drawn are some of the needs, the searches end, and there is a
path from one node to another exactly where there was one. -/
theorem pruning_keeps_reachability (topology : WorkflowTopology)
    (hknown : ∀ n ∈ topology.nodes, ∀ d ∈ n.dependencies, d ∈ topology.nodes.map (·.id))
    (hnodup : (topology.nodes.map (·.id)).Nodup) (hacyclic : ¬Cyclic (Needs topology.graph)) :
    ∃ layout, computeTopologyLayout topology = .ok layout ∧ ∃ fuel₀, ∀ fuel, fuel₀ ≤ fuel →
      ∃ dependencies dependents, renderDependencyMaps fuel layout = .ok (dependencies, dependents) ∧
        (∀ d x, d ∈ getIds dependencies x → Needs topology.graph d x) ∧
        (∀ d x, x ∈ getIds dependents d ↔ d ∈ getIds dependencies x) ∧
        ∀ a b, TransGen (fun d x => d ∈ getIds dependencies x) a b ↔ TransGen (Needs topology.graph) a b := by
  obtain ⟨layout, hlayout, hlaid⟩ := laid_of_dag hknown hnodup hacyclic
  obtain ⟨fuel₀, hrender⟩ := renderDependencyMaps_spec hlaid
  refine ⟨layout, hlayout, fuel₀, fun fuel hfuel => ?_⟩
  obtain ⟨maps, hok, hrendered⟩ := hrender fuel hfuel
  exact ⟨maps.1, maps.2, hok, hrendered.known, hrendered.dependents, hrendered.reaches⟩

/-- `report` needs `plan` also through `build`. -/
def shortcutTopology : WorkflowTopology :=
  ⟨"shortcut", [⟨"plan", .input, []⟩, ⟨"build", .sequential, ["plan"]⟩, ⟨"report", .sequential, ["plan", "build"]⟩]⟩

theorem shortcut_acyclic : ¬Cyclic (Needs shortcutTopology.graph) := by
  have hrank : ∀ d x, Needs shortcutTopology.graph d x →
      ["plan", "build", "report"].idxOf d < ["plan", "build", "report"].idxOf x := by
    rintro d x ⟨n, hn, rfl, hd⟩
    have hall : ∀ n ∈ shortcutTopology.graph, ∀ d ∈ n.2,
        ["plan", "build", "report"].idxOf d < ["plan", "build", "report"].idxOf n.1 := by decide
    exact hall n hn d hd
  rintro ⟨x, hx⟩
  have hlt : ∀ {a b : NodeId}, TransGen (Needs shortcutTopology.graph) a b →
      ["plan", "build", "report"].idxOf a < ["plan", "build", "report"].idxOf b := by
    intro a b h
    induction h with
    | single h => exact hrank _ _ h
    | tail _ h ih => exact ih.trans (hrank _ _ h)
  exact Nat.lt_irrefl _ (hlt hx)

theorem pruning_keeps_shortcut : (∀ n ∈ shortcutTopology.nodes, ∀ d ∈ n.dependencies, d ∈ shortcutTopology.nodes.map (·.id)) ∧
    ∃ layout, computeTopologyLayout shortcutTopology = .ok layout ∧ ∃ fuel₀, ∀ fuel, fuel₀ ≤ fuel →
      ∃ dependencies dependents, renderDependencyMaps fuel layout = .ok (dependencies, dependents) ∧
        TransGen (fun d x => d ∈ getIds dependencies x) "plan" "report" := by
  have hknown : ∀ n ∈ shortcutTopology.nodes, ∀ d ∈ n.dependencies, d ∈ shortcutTopology.nodes.map (·.id) := by decide
  obtain ⟨layout, hlayout, fuel₀, hrender⟩ := pruning_keeps_reachability shortcutTopology hknown (by decide) shortcut_acyclic
  refine ⟨hknown, layout, hlayout, fuel₀, fun fuel hfuel => ?_⟩
  obtain ⟨dependencies, dependents, hok, -, -, hreach⟩ := hrender fuel hfuel
  refine ⟨dependencies, dependents, hok, (hreach "plan" "report").mpr (.single ?_)⟩
  exact ⟨("report", ["plan", "build"]), by decide, rfl, by decide⟩

end Crewplane.Observability
