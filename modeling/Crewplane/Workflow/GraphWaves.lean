import Crewplane.Workflow.Graph
/-
# What the analysis of a workflow graph computes

The maps first (`Maps`), then one wave (`Waves.step`) and all of them, then the ancestors along the waves.
-/
namespace Crewplane.Workflow

open Crewplane.Lib Dict Relation

/-- `d` is a need of the node `x`. -/
def Needs (nodes : WorkflowGraph) (d x : String) : Prop := ∃ n ∈ nodes, n.1 = x ∧ d ∈ n.2

/-! ## The maps -/

section Build

variable {nodes : WorkflowGraph}

/-- The sets that hold the dependents so far. -/
def Collected (dep : String → String → Prop) (dependents : Dict String (List String)) : Prop :=
  ∀ x, (getItem dependents x).Nodup ∧ ∀ y, y ∈ getItem dependents x ↔ dep x y

theorem addDependents_cases (nodeId : String) (needs : List String) (dependents : Dict String (List String)) :
    (∃ d ∈ needs, d ∉ keys dependents ∧ addDependents nodeId needs dependents = .error (.unknownNode nodeId d)) ∨
    ((∀ d ∈ needs, d ∈ keys dependents) ∧ ∃ dependents', addDependents nodeId needs dependents = .ok dependents' ∧
      (∀ x, x ∈ keys dependents' ↔ x ∈ keys dependents) ∧
      ∀ dep, Collected dep dependents → Collected (fun d x => dep d x ∨ x = nodeId ∧ d ∈ needs) dependents') := by
  induction needs generalizing dependents with
  | nil => exact .inr ⟨by simp, dependents, rfl, fun _ => Iff.rfl, fun dep h => by simpa [Collected] using h⟩
  | cons a needs ih =>
    unfold addDependents
    by_cases ha : a ∈ keys dependents
    · rw [if_pos ha]
      have hkeys : ∀ x, x ∈ keys (modify dependents a (List.insert nodeId)) ↔ x ∈ keys dependents := by
        intro x
        rw [mem_keys_modify]
        constructor
        · rintro (rfl | hx)
          · exact ha
          · exact hx
        · exact .inr
      rcases ih (modify dependents a (List.insert nodeId)) with ⟨d, hd, hunknown, herror⟩ | ⟨hknown, dependents', hok, hsame, hcollect⟩
      · exact .inl ⟨d, List.mem_cons_of_mem a hd, fun h => hunknown ((hkeys d).mpr h), herror⟩
      · refine .inr ⟨?_, dependents', hok, fun x => (hsame x).trans (hkeys x), fun dep h => ?_⟩
        · rw [List.forall_mem_cons]
          exact ⟨ha, fun d hd => (hkeys d).mp (hknown d hd)⟩
        · have hfirst : Collected (fun d x => dep d x ∨ x = nodeId ∧ d = a) (modify dependents a (List.insert nodeId)) := by
            intro x
            rw [getItem_modify]
            by_cases hax : a = x
            · subst hax
              refine ⟨by simpa using (h a).1.insert, fun y => ?_⟩
              rw [if_pos rfl, List.mem_insert_iff, (h a).2 y]
              tauto
            · rw [if_neg hax]
              refine ⟨(h x).1, fun y => ?_⟩
              rw [(h x).2 y]
              simp [Ne.symm hax]
          intro x
          refine ⟨(hcollect _ hfirst x).1, fun y => ?_⟩
          rw [(hcollect _ hfirst x).2 y]
          simp only [List.mem_cons]
          tauto
    · rw [if_neg ha]
      exact .inl ⟨a, List.mem_cons_self, ha, rfl⟩

theorem collectDependents_cases (nodes : WorkflowGraph) (dependents : Dict String (List String)) :
    (∃ n ∈ nodes, ∃ d ∈ n.2, d ∉ keys dependents ∧ collectDependents nodes dependents = .error (.unknownNode n.1 d)) ∨
    ((∀ n ∈ nodes, ∀ d ∈ n.2, d ∈ keys dependents) ∧ ∃ dependents', collectDependents nodes dependents = .ok dependents' ∧
      ∀ dep, Collected dep dependents → Collected (fun d x => dep d x ∨ Needs nodes d x) dependents') := by
  induction nodes generalizing dependents with
  | nil => exact .inr ⟨by simp, dependents, rfl, fun dep h => by simpa [Collected, Needs] using h⟩
  | cons n rest ih =>
    obtain ⟨nodeId, needs⟩ := n
    unfold collectDependents
    rcases addDependents_cases nodeId needs dependents with ⟨d, hd, hunknown, herror⟩ | ⟨hknown, next, hnext, hkeys, hcollect⟩
    · refine .inl ⟨_, List.mem_cons_self, d, hd, hunknown, ?_⟩
      rw [herror]
      rfl
    · rw [hnext]
      rcases ih next with ⟨m, hm, d, hd, hunknown, herror⟩ | ⟨hrest, dependents', hok, hall⟩
      · exact .inl ⟨m, List.mem_cons_of_mem _ hm, d, hd, fun h => hunknown ((hkeys d).mpr h), herror⟩
      · refine .inr ⟨?_, dependents', hok, fun dep h x => ?_⟩
        · rw [List.forall_mem_cons]
          exact ⟨hknown, fun m hm d hd => (hkeys d).mp (hrest m hm d hd)⟩
        · refine ⟨(hall _ (hcollect dep h) x).1, fun y => ?_⟩
          rw [(hall _ (hcollect dep h) x).2 y]
          simp only [Needs, List.exists_mem_cons_iff, or_assoc]
          refine or_congr_right ?_
          exact or_congr_left (and_congr_left fun _ => eq_comm)

/-- What the two maps of a graph without unknown nodes hold. -/
structure Maps (nodes : WorkflowGraph) (dependencies dependents : Dict String (List String)) : Prop where
  known : ∀ n ∈ nodes, ∀ d ∈ n.2, d ∈ nodes.map (·.1)
  keys_nodup : (keys dependencies).Nodup
  mem_keys : ∀ x, x ∈ keys dependencies ↔ x ∈ nodes.map (·.1)
  dependents : Collected (Needs nodes) dependents
  eq : dependencies = ofPairs (nodes.map fun node => (node.1, node.2.dedup))

theorem buildGraphDependencyMaps_cases (nodes : WorkflowGraph) :
    (∃ n ∈ nodes, ∃ d ∈ n.2, d ∉ nodes.map (·.1) ∧ buildGraphDependencyMaps nodes = .error (.unknownNode n.1 d)) ∨
    ∃ dependencies dependents, buildGraphDependencyMaps nodes = .ok (dependencies, dependents) ∧
      Maps nodes dependencies dependents := by
  have hids : ∀ {α : Type} (f : String × List String → α) x,
      x ∈ keys (ofPairs (nodes.map fun node => (node.1, f node))) ↔ x ∈ nodes.map (·.1) := by
    intro α f x
    rw [mem_keys_ofPairs]
    simp [keys]
  have hempty : Collected (fun _ _ => False) (ofPairs (nodes.map fun node => (node.1, ([] : List String)))) := by
    intro x
    have hnil : getItem (ofPairs (nodes.map fun node => (node.1, ([] : List String)))) x = [] := by
      rw [getItem]
      cases hget : get? (ofPairs (nodes.map fun node => (node.1, ([] : List String)))) x with
      | none => rfl
      | some v =>
        obtain ⟨n, -, hn⟩ := List.mem_map.mp (mem_of_mem_ofPairs (mem_of_get? hget))
        exact (Prod.mk.inj hn).2.symm
    simp [hnil]
  unfold buildGraphDependencyMaps
  rcases collectDependents_cases nodes (ofPairs (nodes.map fun node => (node.1, []))) with
    ⟨n, hn, d, hd, hunknown, herror⟩ | ⟨hknown, dependents, hok, hcollect⟩
  · refine .inl ⟨n, hn, d, hd, fun h => hunknown ((hids _ d).mpr h), ?_⟩
    rw [herror]
    rfl
  · refine .inr ⟨_, dependents, by rw [hok]; rfl, ?_, nodup_keys_ofPairs _, hids _, ?_, rfl⟩
    · exact fun n hn d hd => (hids _ d).mp (hknown n hn d hd)
    · simpa using hcollect _ hempty

theorem Maps.mem_dependencies {dependencies dependents : Dict String (List String)} (h : Maps nodes dependencies dependents)
    (hnodup : (nodes.map (·.1)).Nodup) {x : String} (hx : x ∈ nodes.map (·.1)) :
    (getItem dependencies x).Nodup ∧ ∀ d, d ∈ getItem dependencies x ↔ Needs nodes d x := by
  obtain ⟨n, hn, rfl⟩ := List.mem_map.mp hx
  have hone : ∀ m ∈ nodes, m.1 = n.1 → m = n := fun m hm hid => List.inj_on_of_nodup_map hnodup hm hn hid
  have hget : get? dependencies n.1 = some n.2.dedup := by
    rw [h.eq]
    refine get?_ofPairs (List.mem_map.mpr ⟨n, hn, rfl⟩) fun v hv => ?_
    obtain ⟨m, hm, hpair⟩ := List.mem_map.mp hv
    obtain ⟨hid, rfl⟩ := Prod.mk.inj hpair
    rw [hone m hm hid]
  rw [getItem, hget, Option.getD_some]
  refine ⟨List.nodup_dedup n.2, fun d => ?_⟩
  rw [List.mem_dedup]
  constructor
  · exact fun hd => ⟨n, hn, rfl, hd⟩
  · rintro ⟨m, hm, hid, hd⟩
    exact hone m hm hid ▸ hd

end Build

/-! ## One wave -/

section Wave

variable {nodes : WorkflowGraph} {nodeOrder : Dict String Nat} {dependencies dependents : Dict String (List String)}

theorem mem_sortByOrder {ids : List String} {x : String} : x ∈ sortByOrder nodeOrder ids ↔ x ∈ ids :=
  (List.mergeSort_perm ids _).mem_iff

theorem releaseDependent_foldl (remaining : Dict String Int) (next pending : List String) :
    pending.foldl releaseDependent (remaining, next) = (decrementAll remaining pending, next ++ exhausted remaining pending) := by
  induction pending generalizing remaining next with
  | nil => simp [exhausted, decrementAll]
  | cons y pending ih =>
    have hstep : releaseDependent (remaining, next) y =
        (modify remaining y (· - 1), if getItem remaining y = 1 then next ++ [y] else next) := by
      unfold releaseDependent
      dsimp only
      rw [getItem_modify, if_pos rfl]
      by_cases hone : getItem remaining y = 1
      · rw [if_pos (by omega), if_pos hone]
      · rw [if_neg (by omega), if_neg hone]
    rw [List.foldl_cons, hstep, ih, exhausted_cons, decrementAll_cons]
    split <;> simp

/-- Whom the wave releases, in the order of the loops. -/
def released (nodeOrder : Dict String Nat) (dependents : Dict String (List String)) (wave : List String) : List String :=
  wave.flatMap fun nodeId => sortByOrder nodeOrder (getItem dependents nodeId)

theorem runWave_eq (s : WaveState) : runWave nodeOrder dependents s =
    { remaining := decrementAll s.remaining (released nodeOrder dependents s.ready)
      ready := sortByOrder nodeOrder (exhausted s.remaining (released nodeOrder dependents s.ready))
      waves := s.waves ++ [s.ready], visited := s.visited + s.ready.length } := by
  have hfold : s.ready.foldl (releaseNode nodeOrder dependents) (s.remaining, []) =
      (decrementAll s.remaining (released nodeOrder dependents s.ready),
        exhausted s.remaining (released nodeOrder dependents s.ready)) := by
    have hflat := releaseDependent_foldl s.remaining [] (released nodeOrder dependents s.ready)
    rw [released, List.foldl_flatMap] at hflat
    exact hflat
  simp only [runWave, hfold]

theorem count_released (h : Collected (Needs nodes) dependents) (wave : List String) (y : String) :
    (released nodeOrder dependents wave).count y = wave.countP fun x => y ∈ getItem dependents x := by
  induction wave with
  | nil => rfl
  | cons x wave ih =>
    have hown : (sortByOrder nodeOrder (getItem dependents x)).count y = if y ∈ getItem dependents x then 1 else 0 := by
      rw [sortByOrder, (List.mergeSort_perm (getItem dependents x) _).count_eq, (h x).1.count]
    have hsplit : released nodeOrder dependents (x :: wave) =
        sortByOrder nodeOrder (getItem dependents x) ++ released nodeOrder dependents wave := rfl
    rw [hsplit, List.count_append, hown, ih, List.countP_cons, Nat.add_comm]
    simp

theorem countP_mem_comm {l m : List String} (hl : l.Nodup) (hm : m.Nodup) : l.countP (· ∈ m) = m.countP (· ∈ l) := by
  rw [List.countP_eq_length_filter, List.countP_eq_length_filter]
  refine ((List.perm_ext_iff_of_nodup (hl.filter _) (hm.filter _)).mpr fun x => ?_).length_eq
  simp [and_comm]

/-- The invariant of `while ready`, in a graph without unknown nodes whose ids are distinct. -/
structure Waves (nodes : WorkflowGraph) (dependencies : Dict String (List String)) (s : WaveState) : Prop where
  counted : ∀ x ∈ nodes.map (·.1), getItem s.remaining x = ((getItem dependencies x).countP (· ∉ s.waves.flatten) : Int)
  ready_nodup : s.ready.Nodup
  mem_ready : ∀ x, x ∈ s.ready ↔
    x ∈ nodes.map (·.1) ∧ x ∉ s.waves.flatten ∧ ∀ d, Needs nodes d x → d ∈ s.waves.flatten
  nodup : s.waves.flatten.Nodup
  mem_flatten : ∀ x, x ∈ s.waves.flatten ↔ x ∈ nodes.map (·.1) ∧ Below (Needs nodes) s.waves.length x
  levels : ∀ i (h : i < s.waves.length) x, x ∈ s.waves[i] ↔ x ∈ nodes.map (·.1) ∧ Longest (Needs nodes) i x
  inOrder : InOrder (Needs nodes) s.waves.flatten
  visited : s.visited = s.waves.flatten.length

theorem Maps.need_mem (h : Maps nodes dependencies dependents) {d x : String} (hd : Needs nodes d x) :
    d ∈ nodes.map (·.1) ∧ x ∈ nodes.map (·.1) := by
  obtain ⟨n, hn, rfl, hd⟩ := hd
  exact ⟨h.known n hn d hd, List.mem_map_of_mem hn⟩

/-- The next wave is the next level. -/
theorem Waves.ready_longest (hmaps : Maps nodes dependencies dependents) {s : WaveState} (h : Waves nodes dependencies s)
    (x : String) : x ∈ s.ready ↔ x ∈ nodes.map (·.1) ∧ Longest (Needs nodes) s.waves.length x := by
  rw [h.mem_ready, longest_iff]
  refine and_congr_right fun hx => and_congr ?_ (forall₂_congr fun d hd => ?_)
  · rw [h.mem_flatten]
    simp [hx]
  · rw [h.mem_flatten]
    simp [(hmaps.need_mem hd).1]

theorem Waves.step (hmaps : Maps nodes dependencies dependents) (hnodup : (nodes.map (·.1)).Nodup) {s : WaveState}
    (h : Waves nodes dependencies s) : Waves nodes dependencies (runWave nodeOrder dependents s) := by
  have hfresh : ∀ x ∈ s.ready, x ∉ s.waves.flatten := fun x hx => ((h.mem_ready x).mp hx).2.1
  have hcount : ∀ y ∈ nodes.map (·.1), (released nodeOrder dependents s.ready).count y =
      (getItem dependencies y).countP (· ∈ s.ready) := by
    intro y hy
    obtain ⟨hdeps, hmem⟩ := hmaps.mem_dependencies hnodup hy
    rw [count_released hmaps.dependents, countP_mem_comm hdeps h.ready_nodup]
    refine List.countP_congr fun x _ => ?_
    rw [decide_eq_true_iff, decide_eq_true_iff, (hmaps.dependents x).2 y, hmem x]
  have hreleased : ∀ y ∈ released nodeOrder dependents s.ready, y ∈ nodes.map (·.1) ∧ ∃ x ∈ s.ready, Needs nodes x y := by
    intro y hy
    obtain ⟨x, hx, hyx⟩ := List.mem_flatMap.mp hy
    have hneed := ((hmaps.dependents x).2 y).mp (mem_sortByOrder.mp hyx)
    exact ⟨(hmaps.need_mem hneed).2, x, hx, hneed⟩
  have hcountable : ∀ y ∈ released nodeOrder dependents s.ready,
      ((released nodeOrder dependents s.ready).count y : Int) ≤ getItem s.remaining y := by
    intro y hy
    have hids := (hreleased y hy).1
    rw [hcount y hids, h.counted y hids, countP_not_mem_append hfresh]
    omega
  rw [runWave_eq]
  have hflat : (s.waves ++ [s.ready]).flatten = s.waves.flatten ++ s.ready := by simp
  refine ⟨fun x hx => ?_, ?_, fun x => ?_, ?_, fun x => ?_, fun i hi x => ?_, ?_, ?_⟩
  · simp only [hflat]
    rw [getItem_decrementAll, hcount x hx, h.counted x hx, countP_not_mem_append hfresh]
    omega
  · exact (List.mergeSort_perm _ _).nodup_iff.mpr (nodup_exhausted _ _)
  · simp only [hflat, mem_sortByOrder, mem_exhausted hcountable]
    constructor
    · rintro ⟨hrel, hzero⟩
      obtain ⟨hids, y, hy, hneed⟩ := hreleased x hrel
      have hnone : (getItem dependencies x).countP (· ∉ s.waves.flatten ++ s.ready) = 0 := by
        rw [hcount x hids, h.counted x hids, countP_not_mem_append hfresh] at hzero
        omega
      refine ⟨hids, ?_, fun d hd => ?_⟩
      · rw [List.mem_append]
        rintro (hold | hnow)
        · exact hfresh y hy (h.inOrder.before_mem hold hneed)
        · exact hfresh y hy (((h.mem_ready x).mp hnow).2.2 y hneed)
      · exact countP_not_mem_eq_zero.mp hnone d (((hmaps.mem_dependencies hnodup hids).2 d).mpr hd)
    · rintro ⟨hids, hnew, hready⟩
      rw [List.mem_append, not_or] at hnew
      have hnone : (getItem dependencies x).countP (· ∉ s.waves.flatten ++ s.ready) = 0 :=
        countP_not_mem_eq_zero.mpr fun d hd => hready d (((hmaps.mem_dependencies hnodup hids).2 d).mp hd)
      obtain ⟨y, hy, hneed⟩ : ∃ y ∈ s.ready, Needs nodes y x := by
        by_contra hno
        refine hnew.2 ((h.mem_ready x).mpr ⟨hids, hnew.1, fun d hd => ?_⟩)
        rcases List.mem_append.mp (hready d hd) with hold | hnow
        · exact hold
        · exact absurd ⟨d, hnow, hd⟩ hno
      refine ⟨List.mem_flatMap.mpr ⟨y, hy, mem_sortByOrder.mpr (((hmaps.dependents y).2 x).mpr hneed)⟩, ?_⟩
      rw [hcount x hids, h.counted x hids, countP_not_mem_append hfresh, hnone, Nat.zero_add]
  · rw [hflat]
    exact h.nodup.append h.ready_nodup fun x hx hx' => hfresh x hx' hx
  · simp only [hflat, List.length_append, List.length_singleton]
    rw [List.mem_append, h.mem_flatten, h.ready_longest hmaps, ← and_or_left, below_succ]
  · simp only [List.length_append, List.length_singleton] at hi
    by_cases hlast : i < s.waves.length
    · simpa [List.getElem_append_left hlast] using h.levels i hlast x
    · have hi' : i = s.waves.length := by omega
      subst hi'
      simpa using h.ready_longest hmaps x
  · rw [hflat]
    exact h.inOrder.append fun x hx d hd => ((h.mem_ready x).mp hx).2.2 d hd
  · simp [hflat, h.visited]

end Wave

/-! ## All waves -/

section Loop

variable {nodes : WorkflowGraph} {nodeOrder : Dict String Nat} {dependencies dependents : Dict String (List String)}

/-- What holds of the loop in every graph: no node is taken twice. -/
structure Taken (nodes : WorkflowGraph) (s : WaveState) : Prop where
  nodup : (s.waves.flatten ++ s.ready).Nodup
  known : ∀ x ∈ s.waves.flatten ++ s.ready, x ∈ nodes.map (·.1)
  spent : ∀ x ∈ s.waves.flatten ++ s.ready, getItem s.remaining x ≤ 0
  visited : s.visited = s.waves.flatten.length

theorem Taken.step (hmaps : Maps nodes dependencies dependents) {s : WaveState} (h : Taken nodes s) :
    Taken nodes (runWave nodeOrder dependents s) := by
  rw [runWave_eq]
  have hflat : (s.waves ++ [s.ready]).flatten = s.waves.flatten ++ s.ready := by simp
  refine ⟨?_, fun x hx => ?_, fun x hx => ?_, ?_⟩
  · simp only [hflat]
    refine h.nodup.append ((List.mergeSort_perm _ _).nodup_iff.mpr (nodup_exhausted _ _)) fun x hx hx' => ?_
    have hpos := (exhausted_mem (mem_sortByOrder.mp hx')).2
    have hspent := h.spent x hx
    omega
  · simp only [hflat] at hx
    rcases List.mem_append.mp hx with hx | hx
    · exact h.known x hx
    · obtain ⟨y, -, hy⟩ := List.mem_flatMap.mp (exhausted_mem (mem_sortByOrder.mp hx)).1
      exact (hmaps.need_mem (((hmaps.dependents y).2 x).mp (mem_sortByOrder.mp hy))).2
  · simp only [hflat] at hx
    rcases List.mem_append.mp hx with hx | hx
    · have hspent := h.spent x hx
      rw [getItem_decrementAll]
      omega
    · exact exhausted_nonpos (mem_sortByOrder.mp hx)
  · simp [h.visited]

theorem waveLoop_invariant {I : WaveState → Prop} (hstep : ∀ s, I s → I (runWave nodeOrder dependents s)) (fuel : Nat)
    {s : WaveState} (h : I s) : I (waveLoop nodeOrder dependents fuel s) := by
  induction fuel generalizing s with
  | zero => exact h
  | succ fuel ih =>
    unfold waveLoop
    split
    · exact h
    · exact ih (hstep s h)

/-- The loop ends with nothing ready. -/
theorem waveLoop_spec (hmaps : Maps nodes dependencies dependents) (hnodup : (nodes.map (·.1)).Nodup) {fuel : Nat}
    {s : WaveState} (h : Waves nodes dependencies s) (hfuel : nodes.length ≤ s.waves.flatten.length + fuel) :
    (waveLoop nodeOrder dependents fuel s).ready = [] := by
  induction fuel generalizing s with
  | zero =>
    have hperm : s.waves.flatten.Perm (nodes.map (·.1)) :=
      (List.subperm_of_subset h.nodup fun x hx => ((h.mem_flatten x).mp hx).1).perm_of_length_le (by simpa using hfuel)
    rw [waveLoop, List.eq_nil_iff_forall_not_mem]
    intro x hx
    obtain ⟨hids, hnew, -⟩ := (h.mem_ready x).mp hx
    exact hnew (hperm.mem_iff.mpr hids)
  | succ fuel ih =>
    unfold waveLoop
    split
    next hready => exact hready
    next hready =>
      refine ih (h.step hmaps hnodup) ?_
      have hpos := List.length_pos_iff.mpr hready
      rw [runWave_eq]
      simp only [List.flatten_append, List.flatten_cons, List.flatten_nil, List.append_nil, List.length_append]
      omega

theorem getItem_lengths (dependencies : Dict String (List String)) (x : String) :
    getItem (dependencies.map fun entry => (entry.1, (entry.2.length : Int))) x = (getItem dependencies x).length := by
  rw [getItem, get?_map (fun needs : List String => (needs.length : Int)), getItem]
  cases get? dependencies x <;> rfl

theorem mem_waveStart (hmaps : Maps nodes dependencies dependents) {x : String} :
    x ∈ (waveStart nodeOrder dependencies).ready ↔ x ∈ nodes.map (·.1) ∧ getItem dependencies x = [] := by
  have hkeys : (keys (dependencies.map fun entry => (entry.1, (entry.2.length : Int)))).Nodup := by
    simpa [keys, Function.comp_def] using hmaps.keys_nodup
  have hmem := mem_filter_keys hkeys (fun _ count => count = 0) (k := x)
  rw [waveStart, mem_sortByOrder]
  simp only [keys] at hmem
  rw [hmem, getItem_lengths, ← hmaps.mem_keys]
  simp [keys, Function.comp_def]

theorem nodup_waveStart (hmaps : Maps nodes dependencies dependents) : (waveStart nodeOrder dependencies).ready.Nodup := by
  rw [waveStart, sortByOrder, (List.mergeSort_perm _ _).nodup_iff]
  have hkeys : ((dependencies.map fun entry => (entry.1, (entry.2.length : Int))).map (·.1)).Nodup := by
    simpa [keys, Function.comp_def] using hmaps.keys_nodup
  exact hkeys.sublist (List.filter_sublist.map _)

theorem taken_waveStart (hmaps : Maps nodes dependencies dependents) : Taken nodes (waveStart nodeOrder dependencies) := by
  refine ⟨by simpa [waveStart] using nodup_waveStart hmaps, fun x hx => ?_, fun x hx => ?_, rfl⟩
  · exact ((mem_waveStart hmaps).mp (by simpa [waveStart] using hx)).1
  · have hnone := ((mem_waveStart hmaps).mp (by simpa [waveStart] using hx)).2
    simp only [waveStart]
    rw [getItem_lengths, hnone]
    simp

theorem waves_waveStart (hmaps : Maps nodes dependencies dependents) (hnodup : (nodes.map (·.1)).Nodup) :
    Waves nodes dependencies (waveStart nodeOrder dependencies) := by
  refine ⟨fun x _ => ?_, nodup_waveStart hmaps, fun x => ?_, List.nodup_nil, fun x => ?_, fun i hi => ?_, inOrder_nil, rfl⟩
  · simp only [waveStart]
    rw [getItem_lengths]
    simp
  · rw [mem_waveStart hmaps]
    refine and_congr_right fun hx => ?_
    rw [List.eq_nil_iff_forall_not_mem]
    simp [waveStart, (hmaps.mem_dependencies hnodup hx).2]
  · simp [waveStart, not_below_zero]
  · exact absurd hi (Nat.not_lt_zero i)

/-- Where `orderedGraphWaves` stops. -/
theorem orderedGraphWaves_cases (hmaps : Maps nodes dependencies dependents) :
    (¬(nodes.map (·.1)).Nodup ∧ orderedGraphWaves (nodes.map (·.1)) dependencies dependents = .error .cycle) ∨
    ((nodes.map (·.1)).Nodup ∧ ∃ s, Waves nodes dependencies s ∧ s.ready = [] ∧
      orderedGraphWaves (nodes.map (·.1)) dependencies dependents =
        if s.visited ≠ (nodes.map (·.1)).length then .error .cycle else .ok s.waves) := by
  by_cases hnodup : (nodes.map (·.1)).Nodup
  · refine .inr ⟨hnodup, _, waveLoop_invariant (fun s hs => hs.step hmaps hnodup) _ (waves_waveStart hmaps hnodup),
      waveLoop_spec hmaps hnodup (waves_waveStart hmaps hnodup) (by simp), rfl⟩
  · refine .inl ⟨hnodup, ?_⟩
    have hstart : Taken nodes (waveStart (ofPairs (nodes.map (·.1)).zipIdx) dependencies) := taken_waveStart hmaps
    have htaken : Taken nodes (waveLoop (ofPairs (nodes.map (·.1)).zipIdx) dependents (nodes.map (·.1)).length _) :=
      waveLoop_invariant (fun s hs => hs.step hmaps) _ hstart
    have hsub : ∀ x ∈ _, x ∈ (nodes.map (·.1)).dedup := fun x hx =>
      List.mem_dedup.mpr (htaken.known x (List.mem_append_left _ hx))
    have hle := (List.subperm_of_subset htaken.nodup.of_append_left hsub).length_le
    have hlt : (nodes.map (·.1)).dedup.length < (nodes.map (·.1)).length := by
      refine lt_of_le_of_ne (List.dedup_sublist _).length_le fun heq => hnodup ?_
      rw [← (List.dedup_sublist (nodes.map (·.1))).eq_of_length heq]
      exact List.nodup_dedup _
    rw [← htaken.visited] at hle
    unfold orderedGraphWaves
    exact if_pos (by omega)

/-- A loop that ended early left a cycle. -/
theorem Waves.cyclic (hmaps : Maps nodes dependencies dependents) (hnodup : (nodes.map (·.1)).Nodup) {s : WaveState}
    (h : Waves nodes dependencies s) (hready : s.ready = []) (hlength : s.visited ≠ (nodes.map (·.1)).length) :
    Cyclic (Needs nodes) := by
  have hleft : (nodes.map (·.1)).filter (· ∉ s.waves.flatten) ≠ [] := by
    intro hnone
    have hall : ∀ x ∈ nodes.map (·.1), x ∈ s.waves.flatten := by
      intro x hx
      by_contra hnew
      exact List.not_mem_nil (hnone ▸ List.mem_filter.mpr ⟨hx, by simpa using hnew⟩)
    have hperm := (List.perm_ext_iff_of_nodup h.nodup hnodup).mpr fun x => ⟨fun hx => ((h.mem_flatten x).mp hx).1, hall x⟩
    exact hlength (by rw [h.visited, hperm.length_eq])
  refine cyclic_of_stuck hleft fun x hx => ?_
  obtain ⟨hids, hnew⟩ := List.mem_filter.mp hx
  rw [decide_eq_true_iff] at hnew
  by_contra hnone
  have hnext : x ∈ s.ready := (h.mem_ready x).mpr ⟨hids, hnew, fun d hd => by
    by_contra hd'
    exact hnone ⟨d, List.mem_filter.mpr ⟨(hmaps.need_mem hd).1, by simpa using hd'⟩, hd⟩⟩
  rw [hready] at hnext
  exact List.not_mem_nil hnext

end Loop

/-- Either the two functions raise on a graph with an unknown node, a repeated id or a cycle, or they take every node. -/
theorem graph_cases (nodes : WorkflowGraph) :
    ((∃ e, buildGraphDependencyMaps nodes = .error e ∨ ∃ maps, buildGraphDependencyMaps nodes = .ok maps ∧
        orderedGraphWaves (nodes.map (·.1)) maps.1 maps.2 = .error e) ∧
      ((∃ n ∈ nodes, ∃ d ∈ n.2, d ∉ nodes.map (·.1)) ∨ Cyclic (Needs nodes) ∨ ¬(nodes.map (·.1)).Nodup)) ∨
    ∃ dependencies dependents s, buildGraphDependencyMaps nodes = .ok (dependencies, dependents) ∧
      Maps nodes dependencies dependents ∧ (nodes.map (·.1)).Nodup ∧ Waves nodes dependencies s ∧
      s.waves.flatten.Perm (nodes.map (·.1)) ∧
      orderedGraphWaves (nodes.map (·.1)) dependencies dependents = .ok s.waves := by
  rcases buildGraphDependencyMaps_cases nodes with ⟨n, hn, d, hd, hunknown, herror⟩ | ⟨dependencies, dependents, hbuild, hmaps⟩
  · exact .inl ⟨⟨_, .inl herror⟩, .inl ⟨n, hn, d, hd, hunknown⟩⟩
  · rcases orderedGraphWaves_cases hmaps with ⟨hdup, herror⟩ | ⟨hnodup, s, hwaves, hready, heq⟩
    · exact .inl ⟨⟨_, .inr ⟨_, hbuild, herror⟩⟩, .inr (.inr hdup)⟩
    · by_cases hlength : s.visited = (nodes.map (·.1)).length
      · rw [if_neg (not_not_intro hlength)] at heq
        refine .inr ⟨dependencies, dependents, s, hbuild, hmaps, hnodup, hwaves, ?_, heq⟩
        exact (List.subperm_of_subset hwaves.nodup fun x hx => ((hwaves.mem_flatten x).mp hx).1).perm_of_length_le
          (by rw [← hwaves.visited, hlength])
      · rw [if_pos hlength] at heq
        exact .inl ⟨⟨_, .inr ⟨_, hbuild, heq⟩⟩, .inr (.inl (hwaves.cyclic hmaps hnodup hready hlength))⟩

/-- A graph whose nodes are all taken has none of the three faults. -/
theorem Waves.faultless {nodes : WorkflowGraph} {dependencies dependents : Dict String (List String)}
    (hmaps : Maps nodes dependencies dependents) (hnodup : (nodes.map (·.1)).Nodup) {s : WaveState}
    (h : Waves nodes dependencies s) (hperm : s.waves.flatten.Perm (nodes.map (·.1))) :
    ¬((∃ n ∈ nodes, ∃ d ∈ n.2, d ∉ nodes.map (·.1)) ∨ Cyclic (Needs nodes) ∨ ¬(nodes.map (·.1)).Nodup) := by
  rintro (⟨n, hn, d, hd, hunknown⟩ | ⟨x, hx⟩ | hdup)
  · exact hunknown (hmaps.known n hn d hd)
  · obtain ⟨d, -, hlast⟩ := TransGen.tail'_iff.mp hx
    have hmem := (h.mem_flatten x).mp (hperm.mem_iff.mpr (hmaps.need_mem hlast).2)
    exact not_below_of_cycle hx _ hmem.2
  · exact hdup hnodup

/-! ## The ancestors -/

section Ancestors

variable {nodes : WorkflowGraph} {dependencies dependents : Dict String (List String)}

/-- The ancestors are complete on the nodes that were walked, the others have none yet. -/
def AncestorsOf (nodes : WorkflowGraph) (walked : List String) (ancestors : Dict String (List String)) : Prop :=
  (∀ x ∈ walked, ∀ a, a ∈ getItem ancestors x ↔ TransGen (Needs nodes) a x) ∧ ∀ x ∉ walked, getItem ancestors x = []

theorem addAncestors_fold (x : String) (needs : List String) (ancestors : Dict String (List String)) (hx : x ∉ needs) :
    (∀ y, y ≠ x → getItem (needs.foldl (fun ancestors needed => modify ancestors x fun own =>
        List.insert needed (own ∪ getItem ancestors needed)) ancestors) y = getItem ancestors y) ∧
    ∀ a, a ∈ getItem (needs.foldl (fun ancestors needed => modify ancestors x fun own =>
        List.insert needed (own ∪ getItem ancestors needed)) ancestors) x ↔
      a ∈ getItem ancestors x ∨ ∃ d ∈ needs, a = d ∨ a ∈ getItem ancestors d := by
  induction needs generalizing ancestors with
  | nil => simp
  | cons d needs ih =>
    rw [List.mem_cons, not_or] at hx
    have hother : ∀ y, y ≠ x → getItem (modify ancestors x fun own => List.insert d (own ∪ getItem ancestors d)) y =
        getItem ancestors y := fun y hy => by rw [getItem_modify, if_neg (Ne.symm hy)]
    obtain ⟨hrest, hmem⟩ := ih (modify ancestors x fun own => List.insert d (own ∪ getItem ancestors d)) hx.2
    refine ⟨fun y hy => (hrest y hy).trans (hother y hy), fun a => ?_⟩
    rw [List.foldl_cons, hmem a, getItem_modify, if_pos rfl, List.mem_insert_iff, List.mem_union_iff, List.exists_mem_cons_iff]
    have hsame : (∃ e ∈ needs, a = e ∨ a ∈ getItem (modify ancestors x fun own => List.insert d (own ∪ getItem ancestors d)) e) ↔
        ∃ e ∈ needs, a = e ∨ a ∈ getItem ancestors e := by
      refine exists_congr fun e => and_congr_right fun he => ?_
      rw [hother e fun hex => hx.2 (hex ▸ he)]
    rw [hsame]
    simp only [or_assoc]
    exact or_left_comm

/-- One node whose needs were all walked. -/
theorem AncestorsOf.step (hmaps : Maps nodes dependencies dependents) (hnodup : (nodes.map (·.1)).Nodup) {walked : List String}
    {ancestors : Dict String (List String)} (h : AncestorsOf nodes walked ancestors) {x : String} (hx : x ∈ nodes.map (·.1))
    (hnew : x ∉ walked) (hneeds : ∀ d, Needs nodes d x → d ∈ walked) :
    AncestorsOf nodes (walked ++ [x]) (addAncestors dependencies ancestors x) := by
  have hdeps := (hmaps.mem_dependencies hnodup hx).2
  have hself : x ∉ getItem dependencies x := fun hmem => hnew (hneeds x ((hdeps x).mp hmem))
  obtain ⟨hother, hown⟩ := addAncestors_fold x (getItem dependencies x) ancestors hself
  refine ⟨fun y hy a => ?_, fun y hy => ?_⟩
  · by_cases hyx : y = x
    · subst hyx
      rw [addAncestors, hown a, h.2 y hnew]
      simp only [List.not_mem_nil, false_or, hdeps]
      rw [TransGen.tail'_iff]
      constructor
      · rintro ⟨d, hd, rfl | ha⟩
        · exact ⟨a, .refl, hd⟩
        · exact ⟨d, ((h.1 d (hneeds d hd) a).mp ha).to_reflTransGen, hd⟩
      · rintro ⟨d, had, hd⟩
        rcases ReflTransGen.cases_head_iff.mp had with rfl | ⟨e, hae, hed⟩
        · exact ⟨a, hd, .inl rfl⟩
        · exact ⟨d, hd, .inr ((h.1 d (hneeds d hd) a).mpr (TransGen.head'_iff.mpr ⟨e, hae, hed⟩))⟩
    · rw [addAncestors, hother y hyx]
      exact h.1 y ((List.mem_append.mp hy).resolve_right fun hmem => hyx (List.mem_singleton.mp hmem)) a
  · rw [List.mem_append, not_or, List.mem_singleton] at hy
    rw [addAncestors, hother y hy.2]
    exact h.2 y hy.1

theorem ancestors_walk (hmaps : Maps nodes dependencies dependents) (hnodup : (nodes.map (·.1)).Nodup)
    {walked rest : List String} {ancestors : Dict String (List String)} (h : AncestorsOf nodes walked ancestors)
    (hdistinct : (walked ++ rest).Nodup) (hids : ∀ x ∈ rest, x ∈ nodes.map (·.1)) (horder : InOrder (Needs nodes) (walked ++ rest)) :
    AncestorsOf nodes (walked ++ rest) (rest.foldl (addAncestors dependencies) ancestors) := by
  induction rest generalizing walked ancestors with
  | nil => simpa using h
  | cons x rest ih =>
    have hsplit : walked ++ x :: rest = (walked ++ [x]) ++ rest := by simp
    have hnew : x ∉ walked := fun hmem => (List.disjoint_of_nodup_append hdistinct hmem) List.mem_cons_self
    rw [hsplit] at hdistinct ⊢
    refine ih (h.step hmaps hnodup (hids x List.mem_cons_self) hnew (horder walked x rest rfl)) hdistinct
      (fun y hy => hids y (List.mem_cons_of_mem x hy)) (hsplit ▸ horder)

end Ancestors

/-! ## The analysis -/

/-- `orderedGraphWaves` of the maps of a graph. -/
def graphWaves (nodes : WorkflowGraph) : Except GraphError (List (List String)) := do
  let maps ← buildGraphDependencyMaps nodes
  orderedGraphWaves (nodes.map (·.1)) maps.1 maps.2

/-- Both functions raise exactly on an unknown node, a repeated id or a cycle; otherwise the waves are the levels of
the longest dependency chains and the ancestors are the transitive needs. -/
theorem workflow_graph_waves (nodes : WorkflowGraph) :
    ((∃ e, analyzeWorkflowGraph nodes = .error e) ↔ (∃ n ∈ nodes, ∃ d ∈ n.2, d ∉ nodes.map (·.1)) ∨
      Cyclic (Needs nodes) ∨ ¬(nodes.map (·.1)).Nodup) ∧
    ((∃ e, graphWaves nodes = .error e) ↔ (∃ n ∈ nodes, ∃ d ∈ n.2, d ∉ nodes.map (·.1)) ∨
      Cyclic (Needs nodes) ∨ ¬(nodes.map (·.1)).Nodup) ∧
    ∀ analysis, analyzeWorkflowGraph nodes = .ok analysis →
      graphWaves nodes = .ok analysis.waves ∧ analysis.waves.flatten.Perm (nodes.map (·.1)) ∧
      (∀ i (h : i < analysis.waves.length) x,
        x ∈ analysis.waves[i] ↔ x ∈ nodes.map (·.1) ∧ Longest (Needs nodes) i x) ∧
      ∀ x ∈ nodes.map (·.1), ∀ a, a ∈ getItem analysis.ancestors x ↔ TransGen (Needs nodes) a x := by
  unfold analyzeWorkflowGraph graphWaves
  rcases graph_cases nodes with ⟨⟨e, herror | ⟨maps, hbuild, herror⟩⟩, hfault⟩ |
    ⟨dependencies, dependents, s, hbuild, hmaps, hnodup, hwaves, hperm, heq⟩
  · rw [herror]
    exact ⟨iff_of_true ⟨_, rfl⟩ hfault, iff_of_true ⟨_, rfl⟩ hfault, fun _ h => by cases h⟩
  · rw [hbuild]
    simp only [bind, Except.bind, herror]
    exact ⟨iff_of_true ⟨_, rfl⟩ hfault, iff_of_true ⟨_, rfl⟩ hfault, fun _ h => by cases h⟩
  · rw [hbuild]
    simp only [bind, Except.bind, pure, Except.pure, heq]
    have hfine := hwaves.faultless hmaps hnodup hperm
    refine ⟨iff_of_false (by simp) hfine, iff_of_false (by simp) hfine, fun analysis h => ?_⟩
    cases h
    refine ⟨rfl, hperm, hwaves.levels, fun x hx a => ?_⟩
    have hstart : AncestorsOf nodes [] (dependencies.map fun entry => (entry.1, ([] : List String))) := by
      refine ⟨by simp, fun y _ => ?_⟩
      rw [getItem, get?_map (fun _ : List String => ([] : List String))]
      cases get? dependencies y <;> rfl
    have hwalk : AncestorsOf nodes s.waves.flatten (s.waves.flatten.foldl (addAncestors dependencies) _) :=
      ancestors_walk hmaps hnodup hstart hwaves.nodup (fun y hy => ((hwaves.mem_flatten y).mp hy).1) hwaves.inOrder
    rw [List.foldl_flatten] at hwalk
    exact hwalk.1 x (hperm.mem_iff.mpr hx) a

/-- Two nodes with one id are reported as a cycle. -/
theorem repeated_id_raises : analyzeWorkflowGraph [("plan", []), ("plan", [])] = .error .cycle ∧
    graphWaves [("plan", []), ("plan", [])] = .error .cycle ∧
    ¬((∃ n ∈ [("plan", []), ("plan", [])], ∃ d ∈ n.2, d ∉ [("plan", ([] : List String)), ("plan", [])].map (·.1)) ∨
      Cyclic (Needs [("plan", []), ("plan", [])])) := by
  refine ⟨by decide +kernel, by decide +kernel, ?_⟩
  rintro (⟨n, hn, d, hd, -⟩ | ⟨x, hx⟩)
  · rcases List.mem_pair.mp hn with rfl | rfl <;> exact List.not_mem_nil hd
  · obtain ⟨d, -, n, hn, -, hd⟩ := TransGen.tail'_iff.mp hx
    rcases List.mem_pair.mp hn with rfl | rfl <;> exact List.not_mem_nil hd

end Crewplane.Workflow
