import Crewplane.Observability.DagPruning
/-
# The lanes of the rendered graph (observability/dag_graph.py)

A lane is a column that holds the target of an edge. A row frees the lanes that end at its node and opens one for each
dependent in a column that is free, so a lane that is open stays where it is until the row of its target
(`lanes_stay_open`).
-/
namespace Crewplane.Observability

open Crewplane.Lib Dict Crewplane.Workflow
open Crewplane.Plan (NodeId)

/-- Column `c` is the lane of an edge to `t`. -/
def Lane (columns : List GraphColumn) (c : Nat) (t : NodeId) : Prop := columns[c]? = some (some t)

/-! ## One column list -/

theorem lane_unique {columns : List GraphColumn} {c : Nat} {t t' : NodeId} (h : Lane columns c t) (h' : Lane columns c t') :
    t = t' := by
  rw [Lane, h] at h'
  simpa using h'

theorem lane_trim {columns : List GraphColumn} {c : Nat} {t : NodeId} :
    Lane (trimTrailingEmptyColumns columns) c t ↔ Lane columns c t := by
  unfold trimTrailingEmptyColumns Lane
  induction columns using List.reverseRecOn with
  | nil => rfl
  | append_singleton columns column ih =>
    rw [List.rdropWhile_concat]
    cases column with
    | some target => rfl
    | none =>
      simp only [Option.isNone_none, if_true]
      rw [ih]
      by_cases hc : c < columns.length
      · rw [List.getElem?_append_left hc]
      · rw [List.getElem?_append_right (by omega), List.getElem?_eq_none (by omega)]
        cases hk : c - columns.length with
        | zero => simp
        | succ k => simp

/-- What is left after trimming ends in a lane, so without lanes nothing is left. -/
theorem trim_eq_nil {columns : List GraphColumn} (h : ∀ c t, ¬Lane columns c t) : trimTrailingEmptyColumns columns = [] := by
  unfold trimTrailingEmptyColumns
  rw [List.rdropWhile_eq_nil_iff]
  intro column hcolumn
  cases column with
  | none => rfl
  | some t =>
    obtain ⟨c, hc⟩ := List.mem_iff_getElem?.mp hcolumn
    exact absurd hc (h c t)

/-! ## Placing a lane -/

theorem head?_drop_takeWhile {α : Type} (p : α → Bool) (xs : List α) :
    ∀ x ∈ (xs.drop (xs.takeWhile p).length).head?, p x = false := by
  induction xs with
  | nil => simp
  | cons x xs ih =>
    by_cases hx : p x = true
    · simpa [List.takeWhile_cons, hx] using ih
    · simp [hx]

theorem placeActiveColumn_spec {columns : List GraphColumn} {i : Nat} (hi : i ≤ columns.length) (target : NodeId) :
    (∀ c t, Lane columns c t → Lane (placeActiveColumn columns i target).1 c t) ∧
    Lane (placeActiveColumn columns i target).1 (placeActiveColumn columns i target).2 target ∧
    (∀ c t, Lane (placeActiveColumn columns i target).1 c t → Lane columns c t ∨ t = target) ∧
    (placeActiveColumn columns i target).2 + 1 ≤ (placeActiveColumn columns i target).1.length := by
  have hlength := ( List.takeWhile_prefix Option.isSome (l := columns.drop i)).length_le
  rw [List.length_drop] at hlength
  have hcolumn : i + ((columns.drop i).takeWhile Option.isSome).length ≤ columns.length := by omega
  have hfree := head?_drop_takeWhile Option.isSome (columns.drop i)
  rw [List.drop_drop, List.head?_drop] at hfree
  unfold placeActiveColumn Lane
  generalize i + ((columns.drop i).takeWhile Option.isSome).length = column at hfree hcolumn ⊢
  simp only
  split
  next hlt =>
    -- the column found is free
    have hnone : columns[column]? = some none := by
      rw [List.getElem?_eq_getElem hlt] at hfree ⊢
      have hvalue := hfree _ rfl
      cases hget : columns[column] with
      | none => rfl
      | some t =>
        rw [hget] at hvalue
        cases hvalue
    refine ⟨fun c t hc => ?_, ?_, fun c t hc => ?_, ?_⟩
    · rw [List.getElem?_set_ne]
      · exact hc
      · rintro rfl
        rw [hnone] at hc
        cases hc
    · simp [hlt]
    · by_cases heq : column = c
      · subst heq
        rw [List.getElem?_set_self hlt] at hc
        right
        simpa using hc.symm
      · left
        rwa [List.getElem?_set_ne heq] at hc
    · rw [List.length_set]
      exact hlt
  next hge =>
    have heq : column = columns.length := by omega
    subst heq
    refine ⟨fun c t hc => ?_, by simp, fun c t hc => ?_, by simp⟩
    · obtain ⟨hc', -⟩ := List.getElem?_eq_some_iff.mp hc
      rw [List.getElem?_append_left hc']
      exact hc
    · rw [List.getElem?_append] at hc
      split at hc
      · exact .inl hc
      · right
        rw [List.getElem?_singleton] at hc
        split at hc
        · simpa using hc.symm
        · cases hc

/-- One dependent gets a lane, in a new column or in the one it has. -/
theorem placeDependent_spec (reuse : Bool) {s : Placing} (h : s.insertAt ≤ s.nextColumns.length) (v : NodeId) :
    (placeDependent reuse s v).insertAt ≤ (placeDependent reuse s v).nextColumns.length ∧
    (∀ c t, Lane s.nextColumns c t → Lane (placeDependent reuse s v).nextColumns c t) ∧
    (∃ c, (placeDependent reuse s v).dependentColumns = s.dependentColumns ++ [c] ∧
      Lane (placeDependent reuse s v).nextColumns c v) ∧
    ∀ c t, Lane (placeDependent reuse s v).nextColumns c t → Lane s.nextColumns c t ∨ t = v := by
  unfold placeDependent
  split
  next c hc =>
    refine ⟨h, fun _ _ hl => hl, ⟨c, rfl, ?_⟩, fun _ _ hl => .inl hl⟩
    have hfound : existingColumnFor s.nextColumns v = some c := by
      cases reuse with
      | true => exact hc
      | false => cases hc
    obtain ⟨hlt, hget, -⟩ := List.findIdx?_eq_some_iff_getElem.mp hfound
    simp only [Lane, List.getElem?_eq_getElem hlt]
    simpa using hget
  next =>
    obtain ⟨hkept, hnew, honly, hlength⟩ := placeActiveColumn_spec h v
    exact ⟨hlength, hkept, ⟨_, rfl, hnew⟩, honly⟩

theorem placeDependents_spec (reuse : Bool) (vs : List NodeId) {s : Placing} (h : s.insertAt ≤ s.nextColumns.length) :
    (∀ c t, Lane s.nextColumns c t → Lane (vs.foldl (placeDependent reuse) s).nextColumns c t) ∧
    (∀ c ∈ s.dependentColumns, c ∈ (vs.foldl (placeDependent reuse) s).dependentColumns) ∧
    (∀ v ∈ vs, ∃ c ∈ (vs.foldl (placeDependent reuse) s).dependentColumns,
      Lane (vs.foldl (placeDependent reuse) s).nextColumns c v) ∧
    ∀ c t, Lane (vs.foldl (placeDependent reuse) s).nextColumns c t → Lane s.nextColumns c t ∨ t ∈ vs := by
  induction vs generalizing s with
  | nil => exact ⟨fun _ _ hl => hl, fun _ hc => hc, by simp, fun _ _ hl => .inl hl⟩
  | cons v vs ih =>
    obtain ⟨hinsert, hkept, ⟨c, hcolumns, hlane⟩, honly⟩ := placeDependent_spec reuse h v
    obtain ⟨hkept', hcolumns', hlanes', honly'⟩ := ih hinsert
    refine ⟨fun c t hl => hkept' c t (hkept c t hl), fun d hd => hcolumns' d ?_, fun w hw => ?_, fun d t hl => ?_⟩
    · rw [hcolumns]
      exact List.mem_append_left _ hd
    · rcases List.mem_cons.mp hw with rfl | hw
      · refine ⟨c, hcolumns' c ?_, hkept' c w hlane⟩
        rw [hcolumns]
        exact List.mem_append_right _ List.mem_cons_self
      · exact hlanes' w hw
    · rcases honly' d t hl with hl | ht
      · rcases honly d t hl with hl | rfl
        · exact .inl hl
        · exact .inr List.mem_cons_self
      · exact .inr (List.mem_cons_of_mem v ht)

/-! ## One row -/

theorem mem_leastDependent (best : NodeId × List Nat) (rest : List (NodeId × List Nat)) :
    leastDependent best rest ∈ best :: rest := by
  induction rest generalizing best with
  | nil => exact List.mem_cons_self
  | cons entry rest ih =>
    rw [leastDependent]
    split
    · exact List.mem_cons_of_mem best (ih entry)
    · rcases List.mem_cons.mp (ih best) with h | h
      · rw [h]
        exact List.mem_cons_self
      · exact List.mem_cons_of_mem best (List.mem_cons_of_mem entry h)

/-- The nodes that have a place and a position. -/
def Known (layout : TopologyLayout) (id : NodeId) : Prop :=
  (∃ p, get? layout.placements id = some p) ∧ ∃ order, get? layout.nodeOrder id = some order

theorem dependentKey_of_known {layout : TopologyLayout} {id : NodeId} (h : Known layout id) :
    ∃ key, dependentKey layout id = .ok (id, key) := by
  obtain ⟨⟨p, hp⟩, order, horder⟩ := h
  exact ⟨[p.waveIndex, p.laneStart, order], by simp only [dependentKey, hp, horder]⟩

theorem mapM_dependentKey {layout : TopologyLayout} {ids : List NodeId} (h : ∀ id ∈ ids, Known layout id) :
    ∃ keyed, ids.mapM (dependentKey layout) = .ok keyed ∧ ∀ entry ∈ keyed, entry.1 ∈ ids := by
  induction ids with
  | nil => exact ⟨[], rfl, by simp⟩
  | cons id rest ih =>
    obtain ⟨keyed, hkeyed, hmem⟩ := ih fun x hx => h x (List.mem_cons_of_mem id hx)
    obtain ⟨key, hkey⟩ := dependentKey_of_known (h id List.mem_cons_self)
    refine ⟨(id, key) :: keyed, ?_, List.forall_mem_cons.mpr ⟨List.mem_cons_self, fun e he => ?_⟩⟩
    · rw [List.mapM_cons, hkey, hkeyed]
      rfl
    · exact List.mem_cons_of_mem id (hmem e he)

theorem primaryDependentFor_spec {layout : TopologyLayout} {first : NodeId} {rest : List NodeId}
    (h : ∀ id ∈ first :: rest, Known layout id) :
    ∃ primary, primaryDependentFor first rest layout = .ok primary ∧ primary ∈ first :: rest := by
  unfold primaryDependentFor
  split
  · exact ⟨first, rfl, List.mem_cons_self⟩
  · obtain ⟨key, hkey⟩ := dependentKey_of_known (h first List.mem_cons_self)
    obtain ⟨others, hothers, hmem⟩ := mapM_dependentKey fun id hid => h id (List.mem_cons_of_mem first hid)
    refine ⟨(leastDependent (first, key) others).1, ?_, ?_⟩
    · rw [hkey, hothers]
      rfl
    · rcases List.mem_cons.mp (mem_leastDependent (first, key) others) with heq | hleast
      · rw [heq]
        exact List.mem_cons_self
      · exact List.mem_cons_of_mem first (hmem _ hleast)

/-- The columns with the lanes of the node freed. -/
theorem lane_freed {columns : List GraphColumn} {nodeId : NodeId} {c : Nat} {t : NodeId} :
    Lane (columns.map fun target => if target = some nodeId then none else target) c t ↔ Lane columns c t ∧ t ≠ nodeId := by
  unfold Lane
  rw [List.getElem?_map, Option.map_eq_some_iff]
  constructor
  · rintro ⟨column, hcolumn, hvalue⟩
    split at hvalue
    · cases hvalue
    · next hne =>
      subst hvalue
      exact ⟨hcolumn, fun ht => hne (by rw [ht])⟩
  · rintro ⟨hcolumn, hne⟩
    exact ⟨some t, hcolumn, if_neg (by simpa using hne)⟩

/-- What a row does: the lanes of its node end, its dependents have lanes, and no other lane moves. -/
structure RowSpec (active : List GraphColumn) (id : NodeId) (targets : List NodeId) (row : NodeGraphState) : Prop where
  nodeId : row.nodeId = id
  before : row.beforeColumns = active
  dependents : row.dependents = targets
  kept : ∀ c t, Lane active c t → t ≠ id → Lane row.afterColumns c t
  opened : ∀ v ∈ targets, ∃ c ∈ row.dependentColumns, Lane row.afterColumns c v
  only : ∀ c t, Lane row.afterColumns c t → (Lane active c t ∧ t ≠ id) ∨ t ∈ targets
  trimmed : (∀ c t, ¬Lane row.afterColumns c t) → row.afterColumns = []

theorem mem_append_if {columns extra : List Nat} {c : Nat} (p : Prop) [Decidable p] (h : c ∈ columns) :
    c ∈ if p then columns ++ extra else columns := by
  split
  · exact List.mem_append_left _ h
  · exact h

theorem graphState_spec {dependencies dependents : Dict NodeId (List NodeId)} {layout : TopologyLayout}
    (active : List GraphColumn) {nodeId : NodeId} (hknown : ∀ v ∈ getIds dependents nodeId, Known layout v) :
    ∃ row, graphState dependencies dependents layout active nodeId = .ok row ∧
      RowSpec active nodeId (getIds dependents nodeId) row := by
  -- the columns with the node's lanes freed, which a fresh root has none of
  have hfreed : ∀ c t, Lane (if isFreshRoot nodeId active dependencies then active
      else active.map fun target => if target = some nodeId then none else target) c t ↔ Lane active c t ∧ t ≠ nodeId := by
    intro c t
    split
    next hfresh =>
      simp only [isFreshRoot, decide_eq_true_eq] at hfresh
      refine ⟨fun h => ⟨h, ?_⟩, And.left⟩
      rintro rfl
      exact hfresh.2 (List.mem_of_getElem? h)
    next => exact lane_freed
  have hcolumn : nodeColumnFor active nodeId (isFreshRoot nodeId active dependencies) ≤
      (if isFreshRoot nodeId active dependencies then active
        else active.map fun target => if target = some nodeId then none else target).length := by
    unfold nodeColumnFor
    split
    · exact Nat.le_refl _
    · rw [List.length_map]
      exact List.idxOf_le_length
  have htrimmed : ∀ columns : List GraphColumn, (∀ c t, ¬Lane (trimTrailingEmptyColumns columns) c t) →
      trimTrailingEmptyColumns columns = [] := by
    intro columns h
    exact trim_eq_nil fun c t hl => h c t (lane_trim.mpr hl)
  unfold graphState advanceColumns
  cases hdependents : getIds dependents nodeId with
  | nil =>
    refine ⟨_, rfl, rfl, rfl, rfl, fun c t hl hne => ?_, by simp, fun c t hl => ?_, htrimmed _⟩
    · exact lane_trim.mpr ((hfreed c t).mpr ⟨hl, hne⟩)
    · exact .inl ((hfreed c t).mp (lane_trim.mp hl))
  | cons first rest =>
    rw [hdependents] at hknown
    obtain ⟨primary, hprimary, hmem⟩ := primaryDependentFor_spec hknown
    have hordered : ∀ v, v ∈ primary :: (first :: rest).filter (· ≠ primary) ↔ v ∈ first :: rest := by
      intro v
      rw [List.mem_cons, List.mem_filter, decide_eq_true_iff]
      by_cases hv : v = primary
      · simp [hv, hmem]
      · simp only [hv, false_or, ne_eq, not_false_eq_true, and_true]
    obtain ⟨hkept, -, hopened, honly⟩ := @placeDependents_spec
      (isFreshRoot nodeId active dependencies && decide (rest.length + 1 > 1))
      (primary :: (first :: rest).filter (· ≠ primary)) ⟨_, _, []⟩ hcolumn
    simp only [hprimary, bind, Except.bind, pure, Except.pure]
    refine ⟨_, rfl, rfl, rfl, rfl, fun c t hl hne => ?_, fun v hv => ?_, fun c t hl => ?_, htrimmed _⟩
    · exact lane_trim.mpr (hkept c t ((hfreed c t).mpr ⟨hl, hne⟩))
    · obtain ⟨c, hc, hlane⟩ := hopened v ((hordered v).mpr hv)
      exact ⟨c, mem_append_if _ hc, lane_trim.mpr hlane⟩
    · rcases honly c t (lane_trim.mp hl) with hl | ht
      · exact .inl ((hfreed c t).mp hl)
      · exact .inr ((hordered t).mp ht)

/-! ## The run -/

/-- The rows of a run: each starts from the columns that the one before left. -/
inductive Steps (dependents : Dict NodeId (List NodeId)) : List GraphColumn → List NodeGraphState → Prop
  | nil (active : List GraphColumn) : Steps dependents active []
  | cons {active : List GraphColumn} {row : NodeGraphState} {rows : List NodeGraphState}
      (first : RowSpec active row.nodeId (getIds dependents row.nodeId) row) (rest : Steps dependents row.afterColumns rows) :
      Steps dependents active (row :: rows)

section Run

variable {dependents : Dict NodeId (List NodeId)} {active : List GraphColumn} {rows : List NodeGraphState}

theorem graphStates_spec {dependencies : Dict NodeId (List NodeId)} {layout : TopologyLayout}
    (hknown : ∀ d, ∀ v ∈ getIds dependents d, Known layout v) (active : List GraphColumn) (ids : List NodeId) :
    ∃ rows, graphStates dependencies dependents layout active ids = .ok rows ∧ rows.map (·.nodeId) = ids ∧
      Steps dependents active rows := by
  induction ids generalizing active with
  | nil => exact ⟨[], rfl, rfl, .nil active⟩
  | cons id rest ih =>
    obtain ⟨row, hrow, hspec⟩ := @graphState_spec dependencies dependents layout active id (hknown id)
    obtain ⟨rows, hrows, hids, hsteps⟩ := ih row.afterColumns
    refine ⟨row :: rows, ?_, ?_, ?_⟩
    · simp only [graphStates, hrow, bind, Except.bind, hrows]
      rfl
    · rw [List.map_cons, hids, hspec.nodeId]
    · have hid := hspec.nodeId
      subst hid
      exact .cons hspec hsteps

theorem Steps.row (h : Steps dependents active rows) {k : Nat} {row : NodeGraphState} (hk : rows[k]? = some row) :
    RowSpec row.beforeColumns row.nodeId (getIds dependents row.nodeId) row ∧
      Steps dependents row.afterColumns (rows.drop (k + 1)) := by
  induction h generalizing k with
  | nil => simp at hk
  | cons first rest ih =>
    cases k with
    | zero =>
      have heq : _ = row := Option.some.inj hk
      subst heq
      rw [← first.before] at first
      exact ⟨first, rest⟩
    | succ k => exact ih hk

theorem Steps.start (h : Steps dependents active rows) {row : NodeGraphState} (hrow : rows[0]? = some row) :
    row.beforeColumns = active := by
  cases h with
  | nil => simp at hrow
  | cons first rest =>
    have heq : _ = row := Option.some.inj hrow
    subst heq
    exact first.before

/-- An open lane is in its column until the row of its target. -/
theorem Steps.lane_stays (h : Steps dependents active rows) {c j : Nat} {target : NodeGraphState}
    (hlane : Lane active c target.nodeId) (hj : rows[j]? = some target)
    (hne : ∀ (k : Nat) row, k < j → rows[k]? = some row → row.nodeId ≠ target.nodeId) :
    Lane target.beforeColumns c target.nodeId ∧
      ∀ (k : Nat) row, k < j → rows[k]? = some row → Lane row.afterColumns c target.nodeId := by
  induction h generalizing j with
  | nil => simp at hj
  | cons first rest ih =>
    cases j with
    | zero =>
      have heq : _ = target := Option.some.inj hj
      subst heq
      refine ⟨?_, fun k row hk => absurd hk (Nat.not_lt_zero k)⟩
      rw [first.before]
      exact hlane
    | succ j =>
      have hkept := first.kept c target.nodeId hlane (hne 0 _ (Nat.succ_pos j) rfl).symm
      obtain ⟨hbefore, hafter⟩ := ih hkept hj fun k row hk hrow => hne (k + 1) row (Nat.succ_lt_succ hk) hrow
      refine ⟨hbefore, fun k row hk hrow => ?_⟩
      cases k with
      | zero =>
        have heq : _ = row := Option.some.inj hrow
        subst heq
        exact hkept
      | succ k => exact hafter k row (Nat.lt_of_succ_lt_succ hk) hrow

/-- Each lane that is open ends at a later row, so none is open at the end. -/
theorem Steps.free (h : Steps dependents active rows) (hactive : ∀ c t, Lane active c t → t ∈ rows.map (·.nodeId))
    (hlater : ∀ (k : Nat) row, rows[k]? = some row →
      ∀ v ∈ getIds dependents row.nodeId, v ∈ (rows.drop (k + 1)).map (·.nodeId))
    {last : NodeGraphState} (hlast : rows.getLast? = some last) : last.afterColumns = [] := by
  induction h with
  | nil => simp at hlast
  | @cons active row rows first rest ih =>
    have hafter : ∀ c t, Lane row.afterColumns c t → t ∈ rows.map (·.nodeId) := by
      intro c t hl
      rcases first.only c t hl with ⟨hl, hne⟩ | ht
      · exact (List.mem_cons.mp (hactive c t hl)).resolve_left hne
      · exact hlater 0 row rfl t ht
    cases rows with
    | nil =>
      have heq : row = last := by simpa using hlast
      subst heq
      exact first.trimmed fun c t hl => by simpa using hafter c t hl
    | cons next rows =>
      rw [List.getLast?_cons_cons] at hlast
      exact ih hafter (fun k r hr => hlater (k + 1) r hr) hlast

end Run

/-- The lane of the edge from row `i` to row `j` is column `lane i j`. -/
structure LanesHold (rows : List NodeGraphState) (lane : Nat → Nat → Nat) : Prop where
  start : ∀ row, rows[0]? = some row → row.beforeColumns = []
  joined : ∀ (k : Nat) row next, rows[k]? = some row → rows[k + 1]? = some next → next.beforeColumns = row.afterColumns
  still : ∀ row ∈ rows, ∀ c t, Lane row.beforeColumns c t → t ≠ row.nodeId → Lane row.afterColumns c t
  edge : ∀ (i j : Nat) source target, rows[i]? = some source → rows[j]? = some target → target.nodeId ∈ source.dependents →
    i < j ∧ lane i j ∈ source.dependentColumns ∧ Lane target.beforeColumns (lane i j) target.nodeId ∧
      ∀ (k : Nat) row, rows[k]? = some row → i ≤ k → k < j → Lane row.afterColumns (lane i j) target.nodeId
  apart : ∀ (i j i' j' k : Nat) source target source' target', rows[i]? = some source → rows[j]? = some target →
    target.nodeId ∈ source.dependents → rows[i']? = some source' → rows[j']? = some target' →
    target'.nodeId ∈ source'.dependents → i ≤ k → k < j → i' ≤ k → k < j' → target.nodeId ≠ target'.nodeId →
    lane i j ≠ lane i' j'
  free : ∀ row, rows.getLast? = some row → row.afterColumns = []

/-- A run over distinct nodes whose dependents all come later. -/
theorem Steps.lanes {dependents : Dict NodeId (List NodeId)} {rows : List NodeGraphState} (h : Steps dependents [] rows)
    (hnodup : (rows.map (·.nodeId)).Nodup)
    (hlater : ∀ (k : Nat) row, rows[k]? = some row →
      ∀ v ∈ getIds dependents row.nodeId, v ∈ (rows.drop (k + 1)).map (·.nodeId)) :
    ∃ lane, LanesHold rows lane := by
  have hindex : ∀ {i j : Nat} {s t : NodeGraphState}, rows[i]? = some s → rows[j]? = some t → s.nodeId = t.nodeId → i = j := by
    intro i j s t hi hj heq
    have hlt : i < (rows.map (·.nodeId)).length := by
      rw [List.length_map]
      exact (List.getElem?_eq_some_iff.mp hi).1
    have hget : (rows.map (·.nodeId))[i]? = (rows.map (·.nodeId))[j]? := by
      rw [List.getElem?_map, List.getElem?_map, hi, hj, Option.map_some, Option.map_some, heq]
    exact (List.getElem?_inj hlt hnodup).mp hget
  have hedge : ∀ i j : Nat, ∃ c, ∀ source target, rows[i]? = some source → rows[j]? = some target →
      target.nodeId ∈ source.dependents → i < j ∧ c ∈ source.dependentColumns ∧ Lane target.beforeColumns c target.nodeId ∧
        ∀ (k : Nat) row, rows[k]? = some row → i ≤ k → k < j → Lane row.afterColumns c target.nodeId := by
    intro i j
    by_cases hex : ∃ source target, rows[i]? = some source ∧ rows[j]? = some target ∧ target.nodeId ∈ source.dependents
    · obtain ⟨source, target, hi, hj, hmem⟩ := hex
      obtain ⟨hrow, hrest⟩ := h.row hi
      rw [hrow.dependents] at hmem
      -- the target is a later row, and the lane opened at the source stays until there
      obtain ⟨later, hin, heq⟩ := List.mem_map.mp (hlater i source hi _ hmem)
      obtain ⟨m, hm⟩ := List.mem_iff_getElem?.mp hin
      rw [List.getElem?_drop] at hm
      have hjm := hindex hm hj heq
      subst hjm
      have hsame : later = target := Option.some.inj (hm.symm.trans hj)
      subst hsame
      obtain ⟨c, hc, hlane⟩ := hrow.opened _ hmem
      obtain ⟨hbefore, hafter⟩ := hrest.lane_stays hlane (by rwa [List.getElem?_drop]) (fun k row hk hrowk heq => by
        rw [List.getElem?_drop] at hrowk
        have := hindex hrowk hj heq
        omega)
      refine ⟨c, fun source' target' hi' hj' _ => ?_⟩
      have hs : source = source' := Option.some.inj (hi.symm.trans hi')
      have ht : later = target' := Option.some.inj (hj.symm.trans hj')
      subst hs ht
      refine ⟨by omega, hc, hbefore, fun k row hk hik hkj => ?_⟩
      rcases Nat.lt_or_ge i k with hlt | hge
      · exact hafter (k - (i + 1)) row (by omega) (by rw [List.getElem?_drop, ← hk]; congr 1; omega)
      · have hki : k = i := Nat.le_antisymm hge hik
        subst hki
        have hsk : source = row := Option.some.inj (hi.symm.trans hk)
        subst hsk
        exact hlane
    · refine ⟨0, fun source target hi hj hmem => ?_⟩
      exact absurd ⟨source, target, hi, hj, hmem⟩ hex
  choose lane hlane using hedge
  refine ⟨lane, ?_⟩
  exact {
    start := fun row hrow => h.start hrow
    joined := fun k row next hk hnext => by
      have hrest := (h.row hk).2
      exact hrest.start (by rwa [List.getElem?_drop, Nat.add_zero])
    still := fun row hrow c t hl hne => by
      obtain ⟨k, hk⟩ := List.mem_iff_getElem?.mp hrow
      exact (h.row hk).1.kept c t hl hne
    edge := hlane
    apart := fun i j i' j' k source target source' target' hi hj hmem hi' hj' hmem' hik hkj hik' hkj' hne heq => by
      obtain ⟨-, -, -, hopen⟩ := hlane i j source target hi hj hmem
      obtain ⟨-, -, -, hopen'⟩ := hlane i' j' source' target' hi' hj' hmem'
      have hlt : k < rows.length := Nat.lt_trans hkj (List.getElem?_eq_some_iff.mp hj).1
      have hrow := List.getElem?_eq_getElem hlt
      have hl := hopen k _ hrow hik hkj
      rw [heq] at hl
      exact hne (lane_unique hl (hopen' k _ hrow hik' hkj'))
    free := fun row hlast => h.free (fun c t hl => by simp [Lane] at hl) hlater hlast }

/-- In an order that respects the needs, the rendered dependents of a node come after it. -/
theorem rendered_later {topology : WorkflowTopology} {maps : Dict NodeId (List NodeId) × Dict NodeId (List NodeId)}
    (h : Rendered topology maps) (hknown : ∀ d x, Needs topology.graph d x → x ∈ topology.nodes.map (·.id))
    {ordered : List NodeId} (hperm : ordered.Perm (topology.nodes.map (·.id))) (hnodup : ordered.Nodup)
    (horder : InOrder (Needs topology.graph) ordered) {k : Nat} {d x : NodeId} (hk : ordered[k]? = some d)
    (hx : x ∈ getIds maps.2 d) : x ∈ ordered.drop (k + 1) := by
  have hneeds := h.known d x ((h.dependents d x).mp hx)
  have hmem : x ∈ ordered := hperm.mem_iff.mpr (hknown d x hneeds)
  have hlt := horder.idxOf_lt_of_dep hnodup hmem hneeds
  obtain ⟨hkl, hget⟩ := List.getElem?_eq_some_iff.mp hk
  have hidx : ordered.idxOf d = k := by
    rw [← hget]
    exact hnodup.idxOf_getElem k hkl
  rw [hidx] at hlt
  rw [List.mem_iff_getElem?]
  refine ⟨ordered.idxOf x - (k + 1), ?_⟩
  rw [List.getElem?_drop, Nat.add_sub_cancel' hlt]
  exact List.getElem?_idxOf hmem

theorem Laid.known_place {topology : WorkflowTopology} {layout : TopologyLayout} (h : Laid topology layout) {x : NodeId}
    (hx : x ∈ topology.nodes.map (·.id)) : Known layout x := by
  constructor
  · obtain ⟨wave, hwave, hmem⟩ := List.mem_flatten.mp (h.perm.mem_iff.mpr hx)
    obtain ⟨k, hk⟩ := List.mem_iff_getElem?.mp hwave
    obtain ⟨p, hp, -⟩ := h.placed k wave hk x hmem
    exact ⟨p, hp⟩
  · rw [h.nodeOrder]
    exact get?_isSome_of_mem_keys ((mem_nodeOrder topology x).mpr hx)

theorem lanes_stay_open (topology : WorkflowTopology)
    (hknown : ∀ n ∈ topology.nodes, ∀ d ∈ n.dependencies, d ∈ topology.nodes.map (·.id))
    (hnodup : (topology.nodes.map (·.id)).Nodup) (hacyclic : ¬Cyclic (Needs topology.graph)) (ordered : List NodeId)
    (hperm : ordered.Perm (topology.nodes.map (·.id))) (horder : InOrder (Needs topology.graph) ordered) :
    ∃ layout, computeTopologyLayout topology = .ok layout ∧ ∃ fuel₀, ∀ fuel, fuel₀ ≤ fuel →
      ∃ dependencies dependents rows lane, renderDependencyMaps fuel layout = .ok (dependencies, dependents) ∧
        buildGraphStates fuel ordered layout = .ok rows ∧ rows.map (·.nodeId) = ordered ∧
        (∀ row ∈ rows, row.dependents = getIds dependents row.nodeId) ∧ LanesHold rows lane := by
  obtain ⟨layout, hlayout, hlaid⟩ := laid_of_dag hknown hnodup hacyclic
  obtain ⟨fuel₀, hrender⟩ := renderDependencyMaps_spec hlaid
  refine ⟨layout, hlayout, fuel₀, fun fuel hfuel => ?_⟩
  obtain ⟨maps, hmaps, hrendered⟩ := hrender fuel hfuel
  have hneeds : ∀ d x, Needs topology.graph d x → x ∈ topology.nodes.map (·.id) := fun d x h => (hlaid.known d x h).2
  have hplaces : ∀ d, ∀ v ∈ getIds maps.2 d, Known layout v := fun d v hv =>
    hlaid.known_place (hneeds d v (hrendered.known d v ((hrendered.dependents d v).mp hv)))
  obtain ⟨rows, hrows, hids, hsteps⟩ := @graphStates_spec maps.2 maps.1 layout hplaces [] ordered
  have hdistinct : ordered.Nodup := hperm.nodup_iff.mpr hnodup
  obtain ⟨lane, hlane⟩ := hsteps.lanes (by rwa [hids]) fun k row hk v hv => by
    rw [List.map_drop, hids]
    apply rendered_later hrendered hneeds hperm hdistinct horder _ hv
    rw [← hids, List.getElem?_map, hk, Option.map_some]
  refine ⟨maps.1, maps.2, rows, lane, hmaps, ?_, hids, fun row hrow => ?_, hlane⟩
  · simp only [buildGraphStates, hmaps, bind, Except.bind]
    exact hrows
  · obtain ⟨k, hk⟩ := List.mem_iff_getElem?.mp hrow
    exact (hsteps.row hk).1.dependents

theorem shortcut_inOrder : InOrder (Needs shortcutTopology.graph) ["plan", "build", "report"] := by
  have hneeds : ∀ (x : NodeId) (front : List NodeId), (∀ n ∈ shortcutTopology.graph, n.1 = x → ∀ d ∈ n.2, d ∈ front) →
      ∀ d, Needs shortcutTopology.graph d x → d ∈ front := by
    rintro x front h d ⟨n, hn, heq, hd⟩
    exact h n hn heq d hd
  have hplan := inOrder_nil.snoc (hneeds "plan" [] (by decide))
  have hbuild := hplan.snoc (hneeds "build" ["plan"] (by decide))
  exact hbuild.snoc (hneeds "report" ["plan", "build"] (by decide))

theorem lanes_stay_open_shortcut : (∀ n ∈ shortcutTopology.nodes, ∀ d ∈ n.dependencies, d ∈ shortcutTopology.nodes.map (·.id)) ∧
    ∃ layout, computeTopologyLayout shortcutTopology = .ok layout ∧ ∃ fuel₀, ∀ fuel, fuel₀ ≤ fuel →
      ∃ rows lane, buildGraphStates fuel ["plan", "build", "report"] layout = .ok rows ∧ LanesHold rows lane := by
  have hknown : ∀ n ∈ shortcutTopology.nodes, ∀ d ∈ n.dependencies, d ∈ shortcutTopology.nodes.map (·.id) := by decide
  obtain ⟨layout, hlayout, fuel₀, hlanes⟩ :=
    lanes_stay_open shortcutTopology hknown (by decide) shortcut_acyclic ["plan", "build", "report"] (List.Perm.refl _)
      shortcut_inOrder
  refine ⟨hknown, layout, hlayout, fuel₀, fun fuel hfuel => ?_⟩
  obtain ⟨-, -, rows, lane, -, hrows, -, -, hlane⟩ := hlanes fuel hfuel
  exact ⟨rows, lane, hrows, hlane⟩

end Crewplane.Observability
