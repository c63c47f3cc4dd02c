import Crewplane.Scheduler.Step
/-
# The bookkeeping invariant

The loop keeps four overlapping records of the same facts: the status map, the
ready list, the remaining-dependency counters and the failed-dependency sets.
`Inv` says what each of them must hold in terms of the statuses alone, so that
every update can be checked against the one status it changes. Exactly:

* `ready` is the set of pending nodes whose dependencies all succeeded;
* the failed-dependency set of a node is the set of its failed dependencies;
* while that set is empty the counter counts the dependencies not succeeded.

`Hole id` is the state between popping a node (from `ready` or from the running
tasks) and recording its outcome; `markNodeSucceeded_inv` and
`markNodeFailed_inv` close the hole, `install_inv` rebuilds everything for the
graph of an expanded group.
-/
namespace Crewplane.Scheduler

open Crewplane.Lib Crewplane.Plan

def WorkflowExecutionState.status (st : WorkflowExecutionState) (id : NodeId) : ExecutionStatus :=
  st.statuses.getItem id

/-- A node was started, or completed in an earlier run. -/
def Settled : ExecutionStatus → Prop
  | .running | .succeeded | .failed => True
  | .pending | .blocked => False

/-- The facts about the graph and the statuses, the same in both states. -/
structure Core (plan : PreflightExecutionPlan) (st : WorkflowExecutionState) : Prop where
  valid : ValidPlan plan
  statusKeys : ∀ id, id ∈ st.statuses.keys ↔ id ∈ plan.nodeIds
  statusNodup : st.statuses.keys.Nodup
  dependencies : st.dependenciesByNode = Dict.ofKeys plan.nodeIds plan.deps
  dependents : st.dependents = buildDependentsMap (Dict.ofKeys plan.nodeIds plan.deps)
  runningNodup : st.running.Nodup
  readyNodup : st.ready.Nodup
  failed : ∀ id ∈ plan.nodeIds, ∀ d,
    d ∈ st.failedDependencies.getItem id ↔ d ∈ plan.deps id ∧ st.status d = .failed
  remaining : ∀ id ∈ plan.nodeIds, st.failedDependencies.getItem id = [] →
    st.remainingDependencies.getItem id = ((plan.deps id).countP (st.status · ≠ .succeeded) : Int)
  settled : ∀ id, Settled (st.status id) → ∀ d ∈ plan.deps id, st.status d = .succeeded
  unblocked : ∀ id, st.status id ≠ .blocked
  errors : ∀ id, id ∈ st.nodeErrors.keys ↔ st.status id = .failed

/-- Ready to run: pending, with every dependency succeeded. -/
def Enabled (plan : PreflightExecutionPlan) (st : WorkflowExecutionState) (id : NodeId) : Prop :=
  id ∈ plan.nodeIds ∧ st.status id = .pending ∧ ∀ d ∈ plan.deps id, st.status d = .succeeded

structure Inv (plan : PreflightExecutionPlan) (st : WorkflowExecutionState) : Prop extends Core plan st where
  running : ∀ id, id ∈ st.running ↔ st.status id = .running
  ready : ∀ id, id ∈ st.ready ↔ Enabled plan st id

/-- `id` was taken from `ready` or from the running tasks and has no outcome yet. -/
structure Hole (id : NodeId) (plan : PreflightExecutionPlan) (st : WorkflowExecutionState) : Prop
    extends Core plan st where
  running : ∀ x, x ∈ st.running ↔ st.status x = .running ∧ x ≠ id
  ready : ∀ x, x ∈ st.ready ↔ Enabled plan st x ∧ x ≠ id
  open_ : st.status id = .pending ∨ st.status id = .running
  known : id ∈ plan.nodeIds
  deps : ∀ d ∈ plan.deps id, st.status d = .succeeded

section Basics

variable {plan : PreflightExecutionPlan} {st : WorkflowExecutionState} {id : NodeId}

theorem Core.status_of_not_mem (h : Core plan st) (hid : id ∉ plan.nodeIds) : st.status id = .pending := by
  have hkey : id ∉ st.statuses.keys := fun hk => hid ((h.statusKeys id).mp hk)
  rw [Dict.mem_keys_iff, Option.not_isSome_iff_eq_none] at hkey
  simp [WorkflowExecutionState.status, Dict.getItem, hkey]
  rfl

theorem Core.mem_of_status (h : Core plan st) (hs : st.status id ≠ .pending) : id ∈ plan.nodeIds := by
  by_contra hid
  exact hs (h.status_of_not_mem hid)

theorem Core.dependents_eq (h : Core plan st) (hid : id ∈ plan.nodeIds) :
    st.dependents.getItem id = plan.nodeIds.filter fun x => id ∈ plan.deps x := by
  rw [h.dependents, getItem_buildDependentsMap hid]

theorem not_mem_deps_self (hv : ValidGraph plan) : id ∉ plan.deps id := fun h => by
  have := deps_position hv h
  omega

theorem Core.statusKeys_set (h : Core plan st) (hid : id ∈ plan.nodeIds) (status : ExecutionStatus) (x : NodeId) :
    x ∈ (st.statuses.setItem id status).keys ↔ x ∈ plan.nodeIds := by
  rw [Dict.mem_keys_setItem, h.statusKeys]
  constructor
  · rintro (rfl | hx)
    · exact hid
    · exact hx
  · exact Or.inr

/-- Popping a ready node. -/
theorem Inv.take_ready (h : Inv plan st) (hid : id ∈ st.ready) :
    Hole id plan { st with ready := st.ready.erase id } := by
  obtain ⟨hmem, hpending, hdeps⟩ := (h.ready id).mp hid
  refine ⟨{ h.toCore with readyNodup := h.readyNodup.erase id }, ?_, ?_, Or.inl hpending, hmem, hdeps⟩
  · intro x
    rw [show x ∈ st.running ↔ st.status x = .running from h.running x]
    refine ⟨fun hx => ⟨hx, ?_⟩, fun hx => hx.1⟩
    rintro rfl
    exact absurd (hpending.symm.trans hx) (by decide)
  · intro x
    rw [h.readyNodup.mem_erase_iff, h.ready x]
    exact and_comm

/-- Popping a running node. -/
theorem Inv.take_running (h : Inv plan st) (hid : id ∈ st.running) :
    Hole id plan { st with running := st.running.erase id } := by
  have hrun := (h.running id).mp hid
  have hne : st.status id ≠ .pending := by rw [hrun]; decide
  refine ⟨{ h.toCore with runningNodup := h.runningNodup.erase id }, ?_, ?_, Or.inr hrun, h.mem_of_status hne,
    h.settled id (by rw [hrun]; trivial)⟩
  · intro x
    rw [h.runningNodup.mem_erase_iff, h.running x]
    exact and_comm
  · intro x
    rw [show x ∈ st.ready ↔ Enabled plan st x from h.ready x]
    refine ⟨fun hx => ⟨hx, ?_⟩, fun hx => hx.1⟩
    rintro rfl
    exact hne hx.2.1

end Basics

/-- A freshly built state, when the completed nodes are closed under dependencies. -/
theorem InitialState.inv {plan : PreflightExecutionPlan} {st : WorkflowExecutionState} {done : List NodeId}
    (h : InitialState plan done st) (hv : ValidPlan plan) (hknown : ∀ id ∈ done, id ∈ plan.nodeIds)
    (hclosed : ∀ id ∈ done, ∀ d ∈ plan.deps id, d ∈ done) :
    Inv plan st ∧ ∀ id, st.status id = if id ∈ done then .succeeded else .pending := by
  have hstatus : ∀ id, st.status id = if id ∈ done then .succeeded else .pending := by
    intro id
    rw [WorkflowExecutionState.status, h.statuses]
    by_cases hid : id ∈ plan.nodeIds
    · rw [Dict.getItem_ofKeys _ _ hid]
    · rw [Dict.getItem_ofKeys_of_not_mem _ _ hid, if_neg fun hd => hid (hknown id hd)]
      rfl
  have hsucc : ∀ id, st.status id = .succeeded ↔ id ∈ done := by
    intro id
    rw [hstatus]
    split <;> simp_all
  refine ⟨⟨⟨hv, ?_, ?_, h.dependencies, h.dependents, ?_, h.readyNodup, ?_, ?_, ?_, ?_, ?_⟩, ?_, ?_⟩, hstatus⟩
  · intro id
    rw [h.statuses, Dict.keys_ofKeys]
  · rw [h.statuses, Dict.keys_ofKeys]
    exact hv.graph.nodup
  · rw [h.running]
    exact List.nodup_nil
  · intro id hid d
    rw [h.failed, Dict.getItem_ofKeys _ _ hid, hstatus]
    split <;> simp
  · intro id hid _
    rw [h.remaining id hid]
    simp only [ne_eq, hsucc]
  · intro id hs d hd
    rw [hsucc]
    refine hclosed id ?_ d hd
    by_contra hnot
    rw [hstatus, if_neg hnot] at hs
    exact hs
  · intro id
    rw [hstatus]
    split <;> decide
  · intro id
    rw [h.nodeErrors, hstatus]
    split <;> simp [Dict.keys]
  · intro id
    rw [h.running, hstatus]
    split <;> simp
  · intro id
    rw [h.ready]
    simp only [Enabled, hsucc]
    rw [hstatus]
    by_cases hd : id ∈ done <;> simp [hd]

/-! ## Recording an outcome -/

/-- The dependents a success releases. -/
def released (st : WorkflowExecutionState) (xs : List NodeId) : List NodeId :=
  xs.filter fun x => st.failedDependencies.getItem x = [] ∧ st.remainingDependencies.getItem x = 1

/-- The queueing loop: it only touches the counters, each dependent's once, and
appends those that reach zero. -/
theorem foldl_queueDependent {xs : List NodeId} (hxs : xs.Nodup) (st : WorkflowExecutionState) :
    ∃ remaining, xs.foldl queueDependent st
        = { st with remainingDependencies := remaining, ready := st.ready ++ released st xs } ∧
      ∀ x, remaining.getItem x = st.remainingDependencies.getItem x
        - if x ∈ xs ∧ st.failedDependencies.getItem x = [] then 1 else 0 := by
  induction xs generalizing st with
  | nil => exact ⟨st.remainingDependencies, by simp [released], by simp⟩
  | cons y ys ih =>
    obtain ⟨hy, hys⟩ := List.nodup_cons.mp hxs
    obtain ⟨remaining, heq, hrem⟩ := ih hys (queueDependent st y)
    refine ⟨remaining, ?_, ?_⟩
    · rw [List.foldl_cons, heq]
      by_cases hf : st.failedDependencies.getItem y = []
      · -- the counters of the other dependents are not touched by the first one
        have hrest : released (queueDependent st y) ys = released st ys := by
          apply List.filter_congr
          intro x hx
          have hyx : y ≠ x := fun e => hy (e ▸ hx)
          simp [queueDependent, hf, hyx]
        have hone : released st (y :: ys) =
            (if st.remainingDependencies.getItem y = 1 then [y] else []) ++ released st ys := by
          by_cases h1 : st.remainingDependencies.getItem y = 1 <;> simp [released, hf, h1]
        rw [hrest, hone]
        simp only [queueDependent, hf, ne_eq, not_true_eq_false, if_false, Dict.getItem_modify, if_true]
        by_cases h1 : st.remainingDependencies.getItem y = 1
        · simp [h1]
        · have h0 : ¬ st.remainingDependencies.getItem y - 1 = 0 := by omega
          simp [h1, h0]
      · have hsame : queueDependent st y = st := by simp [queueDependent, hf]
        rw [hsame]
        simp [released, hf]
    · intro x
      rw [hrem x]
      by_cases hf : st.failedDependencies.getItem y = []
      · by_cases hyx : y = x
        · subst hyx
          simp [queueDependent, hf, hy]
        · have hxy : x ≠ y := fun e => hyx e.symm
          simp [queueDependent, hf, hyx, hxy]
      · have hsame : queueDependent st y = st := by simp [queueDependent, hf]
        rw [hsame]
        by_cases hxy : x = y
        · subst hxy
          simp [hf]
        · simp [hxy]

/-- The failing loop: `id` joins the failed set of each dependent. -/
theorem getItem_foldl_insert (xs : List NodeId) (id : NodeId) (failed : Dict NodeId (List NodeId)) (x d : NodeId) :
    d ∈ (xs.foldl (fun failed dependent => failed.modify dependent fun set => set.insert id) failed).getItem x ↔
      d ∈ failed.getItem x ∨ (x ∈ xs ∧ d = id) := by
  induction xs generalizing failed with
  | nil => simp
  | cons y ys ih =>
    rw [List.foldl_cons, ih, Dict.getItem_modify]
    by_cases hyx : y = x
    · subst hyx
      simp only [if_true, List.mem_insert_iff, List.mem_cons, true_or, true_and]
      tauto
    · have hxy : x ≠ y := fun e => hyx e.symm
      simp [hyx, hxy]

section Outcome

variable {plan : PreflightExecutionPlan} {st : WorkflowExecutionState} {id : NodeId}

theorem Hole.not_succeeded (h : Hole id plan st) : st.status id ≠ .succeeded := by
  rcases h.open_ with ho | ho <;> rw [ho] <;> decide

theorem Hole.not_failed (h : Hole id plan st) : st.status id ≠ .failed := by
  rcases h.open_ with ho | ho <;> rw [ho] <;> decide

/-- A node that waits for an open one is itself pending. -/
theorem Hole.pending_of_dep (h : Hole id plan st) {x : NodeId} (hx : id ∈ plan.deps x) : st.status x = .pending := by
  have hns : ¬ Settled (st.status x) := fun hs => h.not_succeeded (h.settled x hs id hx)
  have hnb := h.unblocked x
  cases hst : st.status x with
  | pending => rfl
  | blocked => exact absurd hst hnb
  | running => rw [hst] at hns; exact absurd trivial hns
  | succeeded => rw [hst] at hns; exact absurd trivial hns
  | failed => rw [hst] at hns; exact absurd trivial hns

theorem markNodeFailed_inv (h : Hole id plan st) (message : String) :
    Inv plan (markNodeFailed id message true st) := by
  have hdep := h.dependents_eq h.known
  have hstatus : ∀ x, (markNodeFailed id message true st).status x = if id = x then .failed else st.status x := by
    intro x
    simp [markNodeFailed, WorkflowExecutionState.status]
  have hfailed : ∀ x d, d ∈ (markNodeFailed id message true st).failedDependencies.getItem x ↔
      d ∈ st.failedDependencies.getItem x ∨ (x ∈ st.dependents.getItem id ∧ d = id) := by
    intro x d
    exact getItem_foldl_insert _ id _ x d
  have hns := h.not_succeeded
  have hsucc : ∀ x, (markNodeFailed id message true st).status x = .succeeded ↔ st.status x = .succeeded := by
    intro x
    rw [hstatus]
    by_cases hx : id = x
    · subst hx; simp [hns]
    · simp [hx]
  refine ⟨⟨h.valid, ?_, ?_, h.dependencies, h.dependents, h.runningNodup, h.readyNodup, ?_, ?_, ?_, ?_, ?_⟩, ?_, ?_⟩
  · exact h.statusKeys_set h.known .failed
  · exact Dict.nodup_keys_setItem h.statusNodup id .failed
  · intro x hx d
    rw [hfailed, h.failed x hx, hdep, hstatus]
    simp only [List.mem_filter, hx, true_and, decide_eq_true_eq]
    by_cases hd : id = d
    · subst hd
      simp [h.not_failed]
    · have hd' : d ≠ id := fun e => hd e.symm
      simp [hd, hd']
  · intro x hx hempty
    have hold : st.failedDependencies.getItem x = [] := by
      rw [List.eq_nil_iff_forall_not_mem]
      intro d hd
      have : d ∈ (markNodeFailed id message true st).failedDependencies.getItem x := (hfailed x d).mpr (Or.inl hd)
      rw [hempty] at this
      simp at this
    rw [show (markNodeFailed id message true st).remainingDependencies = st.remainingDependencies from rfl,
      h.remaining x hx hold]
    simp only [ne_eq, hsucc]
  · intro x hx d hd
    rw [hsucc]
    by_cases hxi : id = x
    · subst hxi
      exact h.deps d hd
    · rw [hstatus, if_neg hxi] at hx
      exact h.settled x hx d hd
  · intro x
    rw [hstatus]
    split
    · decide
    · exact h.unblocked x
  · intro x
    rw [show x ∈ (markNodeFailed id message true st).nodeErrors.keys ↔ x = id ∨ x ∈ st.nodeErrors.keys from
      Dict.mem_keys_setItem st.nodeErrors id message x, h.errors, hstatus]
    by_cases hx : id = x
    · simp [hx]
    · have hx' : x ≠ id := fun e => hx e.symm
      simp [hx, hx']
  · intro x
    rw [show x ∈ (markNodeFailed id message true st).running ↔ x ∈ st.running from Iff.rfl, h.running, hstatus]
    by_cases hx : id = x
    · simp [hx]
    · have hx' : x ≠ id := fun e => hx e.symm
      simp [hx, hx']
  · intro x
    rw [show x ∈ (markNodeFailed id message true st).ready ↔ x ∈ st.ready from Iff.rfl, h.ready]
    simp only [Enabled, hsucc]
    rw [hstatus]
    by_cases hx : id = x
    · simp [hx]
    · have hx' : x ≠ id := fun e => hx e.symm
      simp [hx, hx']

theorem markNodeSucceeded_inv (h : Hole id plan st) : Inv plan (markNodeSucceeded id true st) := by
  have hdep := h.dependents_eq h.known
  have hnodup : (st.dependents.getItem id).Nodup := by rw [hdep]; exact h.valid.graph.nodup.filter _
  have hmemdep : ∀ x, x ∈ st.dependents.getItem id ↔ x ∈ plan.nodeIds ∧ id ∈ plan.deps x := by
    intro x
    simp [hdep]
  obtain ⟨remaining, heq, hrem⟩ := foldl_queueDependent hnodup { st with statuses := st.statuses.setItem id .succeeded }
  set queued := st.ready ++ released st (st.dependents.getItem id) with hqueued
  have hmark : markNodeSucceeded id true st = { st with
      statuses := st.statuses.setItem id .succeeded, remainingDependencies := remaining
      ready := sortByOrder st.nodeOrder queued } := by
    simp only [markNodeSucceeded, queueSatisfiedDependents, if_true, heq]
    rfl
  have hns := h.not_succeeded
  have hstatus : ∀ x, (markNodeSucceeded id true st).status x = if id = x then .succeeded else st.status x := by
    intro x
    rw [hmark]
    simp [WorkflowExecutionState.status]
  -- the failed-dependency sets are not touched, and no failed node changes
  have hfailed : ∀ x ∈ plan.nodeIds, ∀ d, d ∈ st.failedDependencies.getItem x ↔
      d ∈ plan.deps x ∧ (markNodeSucceeded id true st).status d = .failed := by
    intro x hx d
    rw [h.failed x hx, hstatus]
    by_cases hd : id = d
    · subst hd; simp [h.not_failed]
    · simp [hd]
  have hcount : ∀ x ∈ plan.nodeIds, st.failedDependencies.getItem x = [] →
      remaining.getItem x = ((plan.deps x).countP ((markNodeSucceeded id true st).status · ≠ .succeeded) : Int) := by
    intro x hx hempty
    have hdrop : (plan.deps x).countP (st.status · ≠ .succeeded)
        = (plan.deps x).countP ((markNodeSucceeded id true st).status · ≠ .succeeded)
          + if id ∈ plan.deps x then 1 else 0 := by
      refine countP_drop (by simpa using hns) (by simp [hstatus]) ?_ (deps_nodup plan x)
      intro d hd
      have hd' : id ≠ d := fun e => hd e.symm
      simp [hstatus, hd']
    rw [hrem x, h.remaining x hx hempty, hdrop]
    by_cases hd : id ∈ plan.deps x <;> simp [hmemdep, hx, hempty, hd]
  have hsucc : ∀ x, (markNodeSucceeded id true st).status x = .succeeded ↔ st.status x = .succeeded ∨ x = id := by
    intro x
    rw [hstatus]
    by_cases hx : id = x
    · simp [hx]
    · have hx' : x ≠ id := fun e => hx e.symm
      simp [hx, hx']
  have hpending : ∀ x, (markNodeSucceeded id true st).status x = .pending ↔ st.status x = .pending ∧ x ≠ id := by
    intro x
    rw [hstatus]
    by_cases hx : id = x
    · simp [hx]
    · have hx' : x ≠ id := fun e => hx e.symm
      simp [hx, hx']
  -- a counter of one at a dependent of `id` says that `id` was the last dependency missing
  have hreleased : ∀ x, x ∈ released st (st.dependents.getItem id) ↔
      id ∈ plan.deps x ∧ Enabled plan (markNodeSucceeded id true st) x := by
    intro x
    rw [released, List.mem_filter, hmemdep, decide_eq_true_eq]
    constructor
    · rintro ⟨⟨hx, hdx⟩, hempty, hone⟩
      have hzero : (plan.deps x).countP ((markNodeSucceeded id true st).status · ≠ .succeeded) = 0 := by
        have hr : remaining.getItem x = st.remainingDependencies.getItem x - 1 := by
          rw [hrem x]
          simp [hmemdep, hx, hdx, hempty]
        have := hcount x hx hempty
        omega
      have hxid : x ≠ id := fun e => not_mem_deps_self h.valid.graph (e ▸ hdx)
      refine ⟨hdx, hx, (hpending x).mpr ⟨h.pending_of_dep hdx, hxid⟩, ?_⟩
      intro d hd
      by_contra hne
      exact List.countP_eq_zero.mp hzero d hd (by simpa using hne)
    · rintro ⟨hdx, hx, hpend, hall⟩
      have hempty : st.failedDependencies.getItem x = [] := by
        rw [List.eq_nil_iff_forall_not_mem]
        intro d hd
        obtain ⟨hd, hf⟩ := (hfailed x hx d).mp hd
        rw [hall d hd] at hf
        cases hf
      have hzero : (plan.deps x).countP ((markNodeSucceeded id true st).status · ≠ .succeeded) = 0 := by
        rw [List.countP_eq_zero]
        intro d hd
        simpa using hall d hd
      have hr : remaining.getItem x = st.remainingDependencies.getItem x - 1 := by
        rw [hrem x]
        simp [hmemdep, hx, hdx, hempty]
      have := hcount x hx hempty
      exact ⟨⟨hx, hdx⟩, hempty, by omega⟩
  refine ⟨⟨h.valid, ?_, ?_, ?_, ?_, ?_, ?_, ?_, ?_, ?_, ?_, ?_⟩, ?_, ?_⟩
  · rw [hmark]; exact h.statusKeys_set h.known .succeeded
  · rw [hmark]; exact Dict.nodup_keys_setItem h.statusNodup id .succeeded
  · rw [hmark]; exact h.dependencies
  · rw [hmark]; exact h.dependents
  · rw [hmark]; exact h.runningNodup
  · rw [hmark]
    refine nodup_sortByOrder.mpr (List.Nodup.append h.readyNodup (hnodup.filter _) ?_)
    -- what was ready did not wait for `id`
    intro x hx hx'
    have hdx := ((hreleased x).mp hx').1
    exact hns (((h.ready x).mp hx).1.2.2 id hdx)
  · rw [show (markNodeSucceeded id true st).failedDependencies = st.failedDependencies by rw [hmark]]
    exact hfailed
  · rw [show (markNodeSucceeded id true st).failedDependencies = st.failedDependencies by rw [hmark],
      show (markNodeSucceeded id true st).remainingDependencies = remaining by rw [hmark]]
    exact hcount
  · intro x hx d hd
    rw [hsucc]
    by_cases hxi : id = x
    · subst hxi
      exact Or.inl (h.deps d hd)
    · rw [hstatus, if_neg hxi] at hx
      exact Or.inl (h.settled x hx d hd)
  · intro x
    rw [hstatus]
    split
    · decide
    · exact h.unblocked x
  · intro x
    rw [show (markNodeSucceeded id true st).nodeErrors = st.nodeErrors by rw [hmark], h.errors, hstatus]
    by_cases hx : id = x
    · subst hx; simp [h.not_failed]
    · simp [hx]
  · intro x
    rw [show (markNodeSucceeded id true st).running = st.running by rw [hmark], h.running, hstatus]
    by_cases hx : id = x
    · simp [hx]
    · have hx' : x ≠ id := fun e => hx e.symm
      simp [hx, hx']
  · intro x
    rw [show (markNodeSucceeded id true st).ready = sortByOrder st.nodeOrder queued by rw [hmark], mem_sortByOrder,
      hqueued, List.mem_append, hreleased, h.ready]
    constructor
    · rintro (⟨⟨hx, hpend, hall⟩, hne⟩ | ⟨-, hen⟩)
      · exact ⟨hx, (hpending x).mpr ⟨hpend, hne⟩, fun d hd => (hsucc d).mpr (Or.inl (hall d hd))⟩
      · exact hen
    · intro hen
      by_cases hdx : id ∈ plan.deps x
      · exact Or.inr ⟨hdx, hen⟩
      · refine Or.inl ⟨⟨hen.1, ((hpending x).mp hen.2.1).1, ?_⟩, ((hpending x).mp hen.2.1).2⟩
        intro d hd
        rcases (hsucc d).mp (hen.2.2 d hd) with hs | rfl
        · exact hs
        · exact absurd hd hdx

/-- Starting the task of a node taken from `ready`. -/
theorem markRunning_inv (h : Hole id plan st) (hpending : st.status id = .pending) :
    Inv plan { st with statuses := st.statuses.setItem id .running, running := st.running ++ [id] } := by
  set st' : WorkflowExecutionState :=
    { st with statuses := st.statuses.setItem id .running, running := st.running ++ [id] } with hst'
  have hstatus : ∀ x, st'.status x = if id = x then .running else st.status x := by
    intro x
    simp [hst', WorkflowExecutionState.status]
  have hother : ∀ x status, status ≠ .pending → status ≠ .running → (st'.status x = status ↔ st.status x = status) := by
    intro x status hp hr
    rw [hstatus]
    by_cases hx : id = x
    · subst hx
      simp [hpending, hp.symm, hr.symm]
    · simp [hx]
  have hsucc : ∀ x, st'.status x = .succeeded ↔ st.status x = .succeeded := fun x => hother x _ (by decide) (by decide)
  have hfail : ∀ x, st'.status x = .failed ↔ st.status x = .failed := fun x => hother x _ (by decide) (by decide)
  refine ⟨⟨h.valid, h.statusKeys_set h.known .running, Dict.nodup_keys_setItem h.statusNodup id .running, h.dependencies,
    h.dependents, ?_, h.readyNodup, ?_, ?_, ?_, ?_, ?_⟩, ?_, ?_⟩
  · refine List.Nodup.append h.runningNodup (by simp) ?_
    intro x hx hx'
    rw [List.mem_singleton] at hx'
    exact ((h.running x).mp hx).2 hx'
  · simp only [hfail]
    exact h.failed
  · intro x hx hempty
    simp only [ne_eq, hsucc]
    exact h.remaining x hx hempty
  · intro x hs d hd
    rw [hsucc]
    by_cases hx : id = x
    · subst hx
      exact h.deps d hd
    · rw [hstatus, if_neg hx] at hs
      exact h.settled x hs d hd
  · intro x hb
    exact h.unblocked x ((hother x _ (by decide) (by decide)).mp hb)
  · intro x
    rw [hfail]
    exact h.errors x
  · intro x
    rw [show x ∈ st'.running ↔ x ∈ st.running ∨ x = id by simp [hst'], h.running, hstatus]
    by_cases hx : id = x
    · simp [hx]
    · have hx' : x ≠ id := fun e => hx e.symm
      simp [hx, hx']
  · intro x
    rw [show x ∈ st'.ready ↔ x ∈ st.ready from Iff.rfl, h.ready]
    simp only [Enabled, hsucc]
    rw [hstatus]
    by_cases hx : id = x
    · simp [hx]
    · have hx' : x ≠ id := fun e => hx e.symm
      simp [hx, hx']

end Outcome

/-! ## Installing the graph of an expanded group -/

section Install

variable {plan effective : PreflightExecutionPlan} {template : CompiledForeach} {evidence : ExpansionState}
  {group : PreflightExecutionNode} {st : WorkflowExecutionState}

theorem Core.mem_succeededNodes (h : Core plan st) {id : NodeId} :
    id ∈ succeededNodes st ↔ st.status id = .succeeded := by
  rw [succeededNodes, Dict.mem_filter_keys h.statusNodup (fun _ status => decide (status = .succeeded)), h.statusKeys,
    decide_eq_true_eq]
  refine ⟨fun hx => hx.2, fun hs => ⟨h.mem_of_status ?_, hs⟩⟩
  rw [hs]
  decide

/-- Overlaying the prior statuses on the fresh ones changes no status: the generated nodes are new and pending. -/
theorem status_overlay (h : Core plan st) (fresh : List NodeId) (x : NodeId) :
    ((Dict.ofKeys fresh fun id => if id ∈ succeededNodes st then ExecutionStatus.succeeded else .pending).update
      st.statuses).getItem x = st.status x := by
  by_cases hx : x ∈ st.statuses.keys
  · rw [Dict.getItem, Dict.get?_update_of_mem _ h.statusNodup hx]
    rfl
  · have hnot : x ∉ plan.nodeIds := fun hmem => hx ((h.statusKeys x).mpr hmem)
    have hpending := h.status_of_not_mem hnot
    have hsucc : x ∉ succeededNodes st := by rw [h.mem_succeededNodes, hpending]; decide
    rw [Dict.getItem, Dict.get?_update_of_not_mem _ _ hx, Dict.get?_ofKeys, hpending, if_neg hsucc]
    split <;> rfl

/-- The state installed for the effective plan, from a state that just gave up the group. -/
theorem installedState_inv {rebuilt : WorkflowExecutionState} (h : Hole group.id plan st)
    (hpending : st.status group.id = .pending) (hx : Expands plan effective template evidence group)
    (hinit : InitialState effective (succeededNodes st) rebuilt) :
    Inv effective (installedState st rebuilt) ∧ ∀ x, (installedState st rebuilt).status x = st.status x := by
  have hcore := h.toCore
  have hgraph := h.valid.graph
  have hsucc : ∀ x, x ∈ succeededNodes st ↔ st.status x = .succeeded := fun x => hcore.mem_succeededNodes
  have hoverlay : ∀ x, (rebuilt.statuses.update st.statuses).getItem x = st.status x := by
    intro x
    rw [hinit.statuses]
    exact status_overlay hcore effective.nodeIds x
  have hstatus : ∀ x, (installedState st rebuilt).status x = st.status x := hoverlay
  have hfailed : ∀ id ∈ effective.nodeIds, ∀ d, d ∈ (installedState st rebuilt).failedDependencies.getItem id ↔
      d ∈ effective.deps id ∧ st.status d = .failed := by
    intro id hid d
    have hmap : (installedState st rebuilt).failedDependencies = Dict.ofKeys effective.nodeIds fun id =>
        (effective.deps id).filter fun dependency =>
          (rebuilt.statuses.update st.statuses).getItem dependency = .failed ∨
            (rebuilt.statuses.update st.statuses).getItem dependency = .blocked := by
      simp [installedState, hinit.dependencies, Dict.ofKeys]
    rw [hmap, Dict.getItem_ofKeys _ _ hid]
    simp [hoverlay, h.unblocked]
  refine ⟨⟨⟨hx.valid, ?_, ?_, hinit.dependencies, hinit.dependents, h.runningNodup, hinit.readyNodup.filter _, ?_, ?_,
    ?_, ?_, ?_⟩, ?_, ?_⟩, hstatus⟩
  · intro x
    rw [show (installedState st rebuilt).statuses = rebuilt.statuses.update st.statuses from rfl, Dict.mem_keys_update,
      hinit.statuses, Dict.keys_ofKeys, h.statusKeys, hx.mem_nodeIds hgraph]
    tauto
  · refine Dict.nodup_keys_update ?_ _
    rw [hinit.statuses, Dict.keys_ofKeys]
    exact hx.valid.graph.nodup
  · simp only [hstatus]
    exact hfailed
  · intro id hid hempty
    simp only [hstatus]
    rw [show (installedState st rebuilt).remainingDependencies = rebuilt.remainingDependencies from rfl,
      hinit.remaining id hid]
    simp [hsucc]
  · -- nodes already started are old and not the group, so their dependencies did not change
    intro id hs d hd
    simp only [hstatus] at hs ⊢
    have hne : id ≠ group.id := by
      rintro rfl
      rw [hpending] at hs
      exact hs
    have hmem : id ∈ plan.nodeIds := by
      refine hcore.mem_of_status fun hp => ?_
      rw [hp] at hs
      exact hs
    exact h.settled id hs d ((hx.deps_old h.valid hmem hne).mp hd)
  · intro id
    rw [hstatus]
    exact h.unblocked id
  · intro id
    rw [hstatus]
    exact h.errors id
  · intro id
    rw [hstatus, show (installedState st rebuilt).running = st.running from rfl, h.running]
    refine ⟨fun hr => hr.1, fun hr => ⟨hr, ?_⟩⟩
    rintro rfl
    rw [hpending] at hr
    cases hr
  · intro id
    simp only [Enabled, hstatus]
    rw [show (installedState st rebuilt).ready
      = rebuilt.ready.filter fun id => (rebuilt.statuses.update st.statuses).getItem id = .pending from rfl,
      List.mem_filter, decide_eq_true_eq, hoverlay, hinit.ready]
    simp only [hsucc]
    constructor
    · rintro ⟨⟨hid, -, hall⟩, hp⟩
      exact ⟨hid, hp, hall⟩
    · rintro ⟨hid, hp, hall⟩
      refine ⟨⟨hid, ?_, hall⟩, hp⟩
      rw [hp]
      decide

/-- `_install_expanded_plan` succeeds on an accepted expansion and re-establishes the invariant. -/
theorem install_inv {session : Session} (h : Hole group.id session.plan session.state)
    (hpending : session.state.status group.id = .pending)
    (hx : Expands session.plan effective template evidence group) :
    ∃ st', installExpandedPlan session effective = .ok { session with plan := effective, state := st' } ∧
      Inv effective st' ∧ (∀ x, st'.status x = session.state.status x) ∧ st'.running = session.state.running := by
  have hcore := h.toCore
  have hknown : ∀ id ∈ succeededNodes session.state, id ∈ effective.nodeIds := by
    intro id hid
    have hs := hcore.mem_succeededNodes.mp hid
    exact (hx.mem_nodeIds h.valid.graph).mpr (Or.inl (hcore.mem_of_status (by rw [hs]; decide)))
  obtain ⟨rebuilt, hinit, hspec⟩ := initializeWorkflowExecutionState_ok hx.valid.graph hknown
  obtain ⟨hinv, hstatus⟩ := installedState_inv h hpending hx hspec
  refine ⟨installedState session.state rebuilt, ?_, hinv, hstatus, rfl⟩
  simp only [installExpandedPlan, hinit]
  rfl

end Install

end Crewplane.Scheduler
