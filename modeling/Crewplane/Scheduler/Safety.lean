import Crewplane.Scheduler.Invariant
/-
# Scheduler safety

One lemma says what each operation leaves alone (its frame), one that a step
keeps `SessionInv`; the run results follow by `run_invariant`.

The loop is only safe while no sink raises `OSError` or `ValueError` on the
topology event of an expansion. `expand_group` emits that event after
`_install_expanded_plan`, so `_run_ready_groups` then marks a group failed whose
children are already queued; the group is queued again when they are done, and
joined although it failed (`failed_group_joined`).
-/
namespace Crewplane.Scheduler

open Crewplane.Lib Crewplane.Plan

/-! ## Frames -/

section Frames

variable (id : NodeId) (message : String) (delivered : Bool) (st : WorkflowExecutionState)

@[simp] theorem markNodeFailed_status (x : NodeId) :
    (markNodeFailed id message delivered st).status x = if id = x then .failed else st.status x := by
  unfold markNodeFailed
  split <;> simp [WorkflowExecutionState.status]

@[simp] theorem markNodeFailed_running : (markNodeFailed id message delivered st).running = st.running := by
  unfold markNodeFailed
  split <;> rfl

theorem foldl_queueDependent_frame (xs : List NodeId) (st : WorkflowExecutionState) :
    (xs.foldl queueDependent st).statuses = st.statuses ∧ (xs.foldl queueDependent st).running = st.running := by
  induction xs generalizing st with
  | nil => exact ⟨rfl, rfl⟩
  | cons x xs ih =>
    have hframe : (queueDependent st x).statuses = st.statuses ∧ (queueDependent st x).running = st.running := by
      unfold queueDependent
      split <;> exact ⟨rfl, rfl⟩
    rw [List.foldl_cons, (ih _).1, (ih _).2]
    exact hframe

@[simp] theorem markNodeSucceeded_status (x : NodeId) :
    (markNodeSucceeded id delivered st).status x = if id = x then .succeeded else st.status x := by
  have hset : (markNodeSucceeded id delivered st).statuses = st.statuses.setItem id .succeeded := by
    unfold markNodeSucceeded
    split
    · exact (foldl_queueDependent_frame _ _).1
    · rfl
  simp [WorkflowExecutionState.status, hset]

@[simp] theorem markNodeSucceeded_running : (markNodeSucceeded id delivered st).running = st.running := by
  unfold markNodeSucceeded
  split
  · exact (foldl_queueDependent_frame _ _).2
  · rfl

end Frames

/-- The status an outcome leaves. -/
def TaskOutcome.status : TaskOutcome → ExecutionStatus
  | .succeeded => .succeeded
  | .failed _ | .crashed _ => .failed

/-- The log entry an outcome leaves. -/
def TaskOutcome.entry (id : NodeId) : TaskOutcome → LogEntry
  | .succeeded => .finished id
  | .failed _ | .crashed _ => .failed id

/-- What finalising one node does, whatever the invariant. -/
theorem finalizeCompletedNode_frame (id : NodeId) (result : TaskResult) (s : Session) :
    let s' := (finalizeCompletedNode id result s).1
    s'.plan = s.plan ∧ s'.maxConcurrentNodes = s.maxConcurrentNodes ∧ s'.phase = s.phase ∧
    s'.log = s.log ++ [result.outcome.entry id] ∧ s'.state.running = s.state.running.erase id ∧
    ∀ x, s'.state.status x = if id = x then result.outcome.status else s.state.status x := by
  obtain ⟨outcome, delivered⟩ := result
  cases outcome <;> simp [finalizeCompletedNode, TaskOutcome.entry, TaskOutcome.status] <;> intro x <;> rfl

theorem finalizeCompletedNodes_frame (results : Dict NodeId TaskResult) (ids : List NodeId) (s : Session)
    (raised : Bool) :
    let s' := (finalizeCompletedNodes results ids (s, raised)).1
    s'.plan = s.plan ∧ s'.maxConcurrentNodes = s.maxConcurrentNodes ∧
    s'.log = s.log ++ ids.map (fun id => (results.getItem id).outcome.entry id) ∧
    s'.state.running.length ≤ s.state.running.length := by
  induction ids generalizing s raised with
  | nil => simp [finalizeCompletedNodes]
  | cons id ids ih =>
    obtain ⟨hplan, hmax, -, hlog, hrun, -⟩ := finalizeCompletedNode_frame id (results.getItem id) s
    obtain ⟨iplan, imax, ilog, irun⟩ := ih (finalizeCompletedNode id (results.getItem id) s).1
      (raised || (finalizeCompletedNode id (results.getItem id) s).2)
    simp only [finalizeCompletedNodes]
    refine ⟨iplan.trans hplan, imax.trans hmax, ?_, ?_⟩
    · rw [ilog, hlog]
      simp
    · refine irun.trans ?_
      rw [hrun]
      exact List.length_erase_le

theorem finalizeCompletedNodes_status (results : Dict NodeId TaskResult) {ids : List NodeId} (hids : ids.Nodup)
    (s : Session) (raised : Bool) (x : NodeId) :
    (finalizeCompletedNodes results ids (s, raised)).1.state.status x
      = if x ∈ ids then (results.getItem x).outcome.status else s.state.status x := by
  induction ids generalizing s raised with
  | nil => simp [finalizeCompletedNodes]
  | cons id ids ih =>
    obtain ⟨hid, hnd⟩ := List.nodup_cons.mp hids
    obtain ⟨-, -, -, -, -, hst⟩ := finalizeCompletedNode_frame id (results.getItem id) s
    simp only [finalizeCompletedNodes]
    rw [ih hnd, hst x]
    by_cases hx : id = x
    · subst hx
      simp [hid]
    · have hx' : x ≠ id := fun e => hx e.symm
      simp [hx, hx']

/-- An iteration that raised nothing keeps the invariant. -/
theorem finalizeCompletedNode_inv {s : Session} (h : Inv s.plan s.state) {id : NodeId} (hid : id ∈ s.state.running)
    {result : TaskResult} (hraised : (finalizeCompletedNode id result s).2 = false) :
    Inv s.plan (finalizeCompletedNode id result s).1.state := by
  have hhole := h.take_running hid
  obtain ⟨outcome, delivered⟩ := result
  cases outcome with
  | succeeded =>
    have hd : delivered = true := by simpa [finalizeCompletedNode] using hraised
    subst hd
    exact markNodeSucceeded_inv hhole
  | failed message =>
    have hd : delivered = true := by simpa [finalizeCompletedNode] using hraised
    subst hd
    exact markNodeFailed_inv hhole message
  | crashed message => simp [finalizeCompletedNode] at hraised

theorem finalizeCompletedNodes_raised (results : Dict NodeId TaskResult) (ids : List NodeId) (s : Session) :
    (finalizeCompletedNodes results ids (s, true)).2 = true := by
  induction ids generalizing s with
  | nil => rfl
  | cons id ids ih => simpa [finalizeCompletedNodes] using ih _

theorem finalizeCompletedNodes_inv (results : Dict NodeId TaskResult) {ids : List NodeId} (hids : ids.Nodup)
    {s : Session} (h : Inv s.plan s.state) (hsub : ∀ id ∈ ids, id ∈ s.state.running)
    (hraised : (finalizeCompletedNodes results ids (s, false)).2 = false) :
    Inv s.plan (finalizeCompletedNodes results ids (s, false)).1.state := by
  induction ids generalizing s with
  | nil => exact h
  | cons id ids ih =>
    obtain ⟨hid, hnd⟩ := List.nodup_cons.mp hids
    simp only [finalizeCompletedNodes, Bool.false_or] at hraised ⊢
    have hone : (finalizeCompletedNode id (results.getItem id) s).2 = false := by
      by_contra hne
      rw [Bool.not_eq_false] at hne
      rw [hne, finalizeCompletedNodes_raised] at hraised
      cases hraised
    obtain ⟨hplan, -, -, -, hrun, -⟩ := finalizeCompletedNode_frame id (results.getItem id) s
    rw [hone] at hraised ⊢
    have hinv := finalizeCompletedNode_inv h (hsub id List.mem_cons_self) hone
    rw [← hplan] at hinv ⊢
    refine ih hnd hinv ?_ hraised
    intro x hx
    rw [hrun, h.runningNodup.mem_erase_iff]
    exact ⟨fun e => hid (e ▸ hx), hsub x (List.mem_cons_of_mem id hx)⟩

/-! ## Groups -/

/-- An expansion that reached the topology event installed what the frozen template and the evidence say. -/
theorem expandedPlan_ok {plan effective : PreflightExecutionPlan} {groupId : NodeId}
    {inputs : Except Fault ExpansionEvidence} {publication : Option Fault}
    (h : expandedPlan plan groupId inputs publication = .ok effective) :
    ∃ template evidence group, inputs = .ok evidence ∧ publication = none ∧ group.id = groupId ∧
      plan.template? groupId = some template ∧
      Expands plan effective template (expansionState plan template evidence) group := by
  unfold expandedPlan at h
  split at h
  · cases h
  · cases h
  · rename_i template evidence htemplate
    split at h
    · cases h
    · cases h
    · rename_i result hresult
      cases h
      obtain ⟨batch, hbatch, happly⟩ := (do_eq_ok _ _ _).mp hresult
      obtain ⟨template', group, ht', hx⟩ := expands_of_ok happly
      have hstate : batch.state = expansionState plan template evidence := by
        simp only [instantiateForeach, check_then_eq_ok] at hbatch
        have hrest := hbatch.2
        split at hrest
        · cases hrest
        · cases hrest
          exact concreteBatch_state ..
      have hid : template.groupId = groupId := by simpa using List.find?_some htemplate
      have hgroup : batch.state.groupId = groupId := by rw [hstate]; exact hid
      rw [hgroup, htemplate] at ht'
      cases ht'
      rw [hstate] at hx
      exact ⟨template, evidence, group, rfl, rfl, hx.owner.symm.trans hid, htemplate, hx⟩

theorem readyGroup?_mem {s : Session} {groupId : NodeId} (h : readyGroup? s = some groupId) :
    groupId ∈ s.state.ready ∧ s.plan.isForeach groupId = true :=
  ⟨List.mem_of_find?_eq_some h, List.find?_some h⟩

/-- The session after the graph of a group was installed, before its topology event. -/
def installedSession (s : Session) (groupId : NodeId) (effective : PreflightExecutionPlan)
    (st : WorkflowExecutionState) : Session :=
  { s with plan := effective, state := st, log := s.log ++ [.expanded groupId] }

/-- What expanding a ready group can do: fail without touching the graph, or
install the effective plan, after which only the topology event can fail. -/
theorem runExpansion_cases {s : Session} (h : Inv s.plan s.state) {groupId : NodeId} (hg : groupId ∈ s.state.ready)
    (inputs : Except Fault ExpansionEvidence) (publication topologyEvent : Option Fault) (delivered : Bool) :
    (∃ fault, expandedPlan s.plan groupId inputs publication = .error fault ∧
      runExpansion (takeGroup s groupId) groupId inputs publication topologyEvent delivered
        = settleGroup (takeGroup s groupId) groupId (some fault) delivered) ∨
    ∃ effective template evidence group st, inputs = .ok evidence ∧ publication = none ∧ group.id = groupId ∧
      s.plan.template? groupId = some template ∧
      Expands s.plan effective template (expansionState s.plan template evidence) group ∧
      Inv effective st ∧ (∀ x, st.status x = s.state.status x) ∧ st.running = s.state.running ∧
      runExpansion (takeGroup s groupId) groupId inputs publication topologyEvent delivered
        = match topologyEvent with
          | none => installedSession s groupId effective st
          | some fault => settleGroup (installedSession s groupId effective st) groupId (some fault) delivered := by
  have hplan : (takeGroup s groupId).plan = s.plan := rfl
  cases hexp : expandedPlan s.plan groupId inputs publication with
  | error fault =>
    refine Or.inl ⟨fault, rfl, ?_⟩
    unfold runExpansion
    rw [hplan, hexp]
  | ok effective =>
    obtain ⟨template, evidence, group, hin, hpub, rfl, ht, hx⟩ := expandedPlan_ok hexp
    have hhole : Hole group.id (takeGroup s group.id).plan (takeGroup s group.id).state := h.take_ready hg
    obtain ⟨st, hinst, hinv, hstatus, hrun⟩ := install_inv hhole ((h.ready group.id).mp hg).2.1 hx
    refine Or.inr ⟨effective, template, evidence, group, st, hin, hpub, rfl, ht, hx, hinv, hstatus, hrun, ?_⟩
    unfold runExpansion
    rw [hplan, hexp]
    simp only [hinst]
    rfl

/-- Recording the outcome of a group that was taken from `ready`. -/
theorem settleGroup_inv {s : Session} {groupId : NodeId} (h : Hole groupId s.plan s.state) (fault : Option Fault)
    {delivered : Bool} (hactive : (settleGroup s groupId fault delivered).phase ≠ .raised) :
    Inv s.plan (settleGroup s groupId fault delivered).state := by
  match fault with
  | none =>
    cases delivered with
    | true => exact markNodeSucceeded_inv h
    | false => exact absurd rfl hactive
  | some (.handled message) =>
    cases delivered with
    | true => exact markNodeFailed_inv h message
    | false => exact absurd rfl hactive
  | some (.unhandled _) => exact absurd rfl hactive

/-- The status a group is left with. -/
def settledStatus (fault : Option Fault) (old : ExecutionStatus) : ExecutionStatus :=
  match fault with
  | none => .succeeded
  | some (.handled _) => .failed
  | some (.unhandled _) => old

theorem settleGroup_frame (s : Session) (groupId : NodeId) (fault : Option Fault) (delivered : Bool) :
    let s' := settleGroup s groupId fault delivered
    s'.plan = s.plan ∧ s'.maxConcurrentNodes = s.maxConcurrentNodes ∧ s'.state.running = s.state.running ∧
    (s'.phase = .groups ∨ s'.phase = .raised ∨ s'.phase = s.phase) ∧
    s'.starts = s.starts ∧
    ∀ x, s'.state.status x = if groupId = x then settledStatus fault (s.state.status x) else s.state.status x := by
  match fault with
  | none => cases delivered <;> simp [settleGroup, settledStatus, Session.starts, startsOf]
  | some (.handled message) => cases delivered <;> simp [settleGroup, settledStatus, Session.starts, startsOf]
  | some (.unhandled _) => simp [settleGroup, settledStatus, Session.starts, startsOf]

/-! ## The invariant of the loop -/

def Phase.Active : Phase → Prop
  | .raised | .done _ => False
  | _ => True

/-- The bookkeeping while the loop runs, the limit and the starts always. -/
structure SessionInv (s : Session) : Prop where
  valid : ValidPlan s.plan
  inv : s.phase.Active → Inv s.plan s.state
  limit : ∀ k ∈ s.maxConcurrentNodes, s.state.running.length ≤ k
  starts : s.starts.Nodup
  known : ∀ id ∈ s.starts, id ∈ s.plan.nodeIds
  started : s.phase.Active → ∀ id ∈ s.starts, s.state.status id ≠ .pending

/-- The sink does not raise `OSError` or `ValueError` on a topology event. -/
def TopologyDelivered : Action → Prop
  | .group (.expand _ _ (some (.handled _))) _ => False
  | _ => True

theorem TopologyDelivered.event {inputs : Except Fault ExpansionEvidence} {publication topologyEvent : Option Fault}
    {delivered : Bool} (h : TopologyDelivered (.group (.expand inputs publication topologyEvent) delivered)) :
    topologyEvent = none ∨ ∃ message, topologyEvent = some (.unhandled message) := by
  cases topologyEvent with
  | none => exact Or.inl rfl
  | some fault =>
    cases fault with
    | handled message => exact False.elim h
    | unhandled message => exact Or.inr ⟨message, rfl⟩

/-- What it takes for a node to be started. -/
structure StartAllowed (s : Session) (id : NodeId) : Prop where
  dependencies : ∀ d ∈ s.plan.deps id, s.state.status d = .succeeded
  pending : s.state.status id = .pending
  fresh : id ∉ s.starts

theorem SessionInv.startAllowed {s : Session} (h : SessionInv s) (hactive : s.phase.Active) {id : NodeId}
    (hid : id ∈ s.state.ready) : StartAllowed s id := by
  obtain ⟨-, hpending, hdeps⟩ := ((h.inv hactive).ready id).mp hid
  exact ⟨hdeps, hpending, fun hs => h.started hactive id hs hpending⟩

/-- A move that leaves the state alone. -/
theorem SessionInv.phase {s : Session} (h : SessionInv s) (hactive : s.phase.Active) (phase : Phase) :
    SessionInv { s with phase := phase } :=
  ⟨h.valid, fun _ => h.inv hactive, h.limit, h.starts, h.known, fun _ => h.started hactive⟩

theorem startsOf_started (log : List LogEntry) (id : NodeId) : startsOf (log ++ [.started id]) = startsOf log ++ [id] := by
  simp [startsOf]

theorem start_inv {s : Session} (h : SessionInv s) {id : NodeId} {ready : List NodeId} (hphase : s.phase = .starts)
    (hready : s.state.ready = id :: ready) (hlimit : limitReached s = false) :
    SessionInv (startNode s id ready) := by
  have hactive : s.phase.Active := by rw [hphase]; trivial
  have hallowed := h.startAllowed hactive (hready ▸ List.mem_cons_self)
  have hinv := h.inv hactive
  have hmem : id ∈ s.state.ready := by rw [hready]; exact List.mem_cons_self
  have hhole := hinv.take_ready hmem
  rw [hready, List.erase_cons_head] at hhole
  have hstarts : (startNode s id ready).starts = s.starts ++ [id] := startsOf_started s.log id
  refine ⟨h.valid, fun _ => markRunning_inv hhole hallowed.pending, ?_, ?_, ?_, ?_⟩
  · intro k hk
    have hk' : s.maxConcurrentNodes = some k := hk
    have hlt : ¬ k ≤ s.state.running.length := by simpa [limitReached, hk'] using hlimit
    simp only [startNode, List.length_append, List.length_singleton]
    omega
  · rw [hstarts]
    exact List.Nodup.append h.starts (by simp) (by simpa using hallowed.fresh)
  · intro x hx
    rw [hstarts, List.mem_append, List.mem_singleton] at hx
    rcases hx with hx | rfl
    · exact h.known x hx
    · exact hhole.known
  · intro _ x hx
    rw [hstarts, List.mem_append, List.mem_singleton] at hx
    by_cases hxi : id = x
    · subst hxi
      simp [startNode, WorkflowExecutionState.status]
    · have hold := h.started hactive x (hx.resolve_right fun e => hxi e.symm)
      simpa [startNode, WorkflowExecutionState.status, hxi] using hold

/-- Recording a group's outcome; the group may have been started by this very move. -/
theorem settle_sessionInv {s : Session} {groupId : NodeId} (hstarts : s.starts.Nodup)
    (hknown : ∀ id ∈ s.starts, id ∈ s.plan.nodeIds) (hhole : Hole groupId s.plan s.state) (hlimit : ∀ k ∈ s.maxConcurrentNodes, s.state.running.length ≤ k)
    (hstarted : ∀ id ∈ s.starts, s.state.status id ≠ .pending ∨ id = groupId) (fault : Option Fault) (delivered : Bool) :
    SessionInv (settleGroup s groupId fault delivered) := by
  obtain ⟨hplan, hmax, hrun, hphase, hst, hstatus⟩ := settleGroup_frame s groupId fault delivered
  have hinv : (settleGroup s groupId fault delivered).phase.Active →
      (settleGroup s groupId fault delivered).phase ≠ .raised := by
    intro hactive hr
    rw [hr] at hactive
    exact hactive
  refine ⟨?_, fun hactive => ?_, ?_, ?_, ?_, fun hactive id hid => ?_⟩
  · rw [hplan]
    exact hhole.valid
  · rw [hplan]
    exact settleGroup_inv hhole fault (hinv hactive)
  · rw [hmax, hrun]
    exact hlimit
  · rw [hst]
    exact hstarts
  · rw [hst, hplan]
    exact hknown
  · rw [hst] at hid
    rw [hstatus]
    by_cases hg : groupId = id
    · rw [if_pos hg]
      match fault with
      | none => exact fun e => by cases e
      | some (.handled _) => exact fun e => by cases e
      | some (.unhandled _) => exact absurd rfl (hinv hactive)
    · rw [if_neg hg]
      exact (hstarted id hid).resolve_right fun e => hg e.symm

theorem expand_sessionInv {s : Session} (h : SessionInv s) {groupId : NodeId} (hphase : s.phase = .groups)
    (hgroup : readyGroup? s = some groupId) {inputs : Except Fault ExpansionEvidence}
    {publication topologyEvent : Option Fault} {delivered : Bool}
    (ha : TopologyDelivered (.group (.expand inputs publication topologyEvent) delivered)) :
    SessionInv (runExpansion (takeGroup s groupId) groupId inputs publication topologyEvent delivered) := by
  have hactive : s.phase.Active := by rw [hphase]; trivial
  have hmem := (readyGroup?_mem hgroup).1
  have hinv := h.inv hactive
  rcases runExpansion_cases hinv hmem inputs publication topologyEvent delivered with
    ⟨fault, -, heq⟩ | ⟨effective, template, evidence, group, st, -, -, -, -, hx, hst, hstatus, hrun, heq⟩
  · rw [heq]
    exact settle_sessionInv (s := takeGroup s groupId) h.starts h.known (hinv.take_ready hmem) h.limit
      (fun id hid => Or.inl (h.started hactive id hid)) fault delivered
  · rw [heq]
    have hinstalled : SessionInv (installedSession s groupId effective st) := by
      refine ⟨hx.valid, fun _ => hst, ?_, ?_, ?_, fun _ id hid => ?_⟩
      · intro k hk
        rw [show (installedSession s groupId effective st).state.running = s.state.running from hrun]
        exact h.limit k hk
      · simpa [installedSession, Session.starts, startsOf] using h.starts
      · intro id hid
        refine (hx.mem_nodeIds h.valid.graph).mpr (Or.inl (h.known id ?_))
        simpa [installedSession, Session.starts, startsOf] using hid
      · rw [show (installedSession s groupId effective st).state.status id = s.state.status id from hstatus id]
        exact h.started hactive id (by simpa [installedSession, Session.starts, startsOf] using hid)
    rcases ha.event with rfl | ⟨message, rfl⟩
    · exact hinstalled
    · exact ⟨hinstalled.valid, fun hr => absurd hr id, hinstalled.limit, hinstalled.starts, hinstalled.known,
        fun hr => absurd hr id⟩

/-- Finalising nodes starts none. -/
theorem startsOf_entries (log : List LogEntry) (results : Dict NodeId TaskResult) (ids : List NodeId) :
    startsOf (log ++ ids.map fun id => (results.getItem id).outcome.entry id) = startsOf log := by
  have hnone : startsOf (ids.map fun id => (results.getItem id).outcome.entry id) = [] := by
    rw [startsOf, List.filterMap_eq_nil_iff]
    intro entry hentry
    obtain ⟨id, -, rfl⟩ := List.mem_map.mp hentry
    cases (results.getItem id).outcome <;> rfl
  rw [startsOf, List.filterMap_append, ← startsOf, ← startsOf, hnone, List.append_nil]

theorem complete_sessionInv {s : Session} (h : SessionInv s) (hphase : s.phase = .consume)
    {results : Dict NodeId TaskResult} {consumed : Session} {raised : Bool}
    (hfold : finalizeCompletedNodes results (completedNodeIds s.state results) (s, false) = (consumed, raised)) :
    SessionInv { consumed with phase := if raised then .raised else .head } := by
  have hactive : s.phase.Active := by rw [hphase]; trivial
  have hinv := h.inv hactive
  have hids : (completedNodeIds s.state results).Nodup := nodup_sortByOrder.mpr (hinv.runningNodup.filter _)
  have hsub : ∀ id ∈ completedNodeIds s.state results, id ∈ s.state.running := fun id hid =>
    List.mem_of_mem_filter (mem_sortByOrder.mp hid)
  obtain ⟨hplan, hmax, hlog, hrun⟩ := finalizeCompletedNodes_frame results (completedNodeIds s.state results) s false
  have hstatus := finalizeCompletedNodes_status results hids s false
  rw [hfold] at hplan hmax hlog hrun
  simp only [hfold] at hstatus
  have hstarts : consumed.starts = s.starts := by
    rw [Session.starts, hlog, startsOf_entries]
    rfl
  have hstarted : ∀ id ∈ s.starts, consumed.state.status id ≠ .pending := by
    intro id hid
    rw [hstatus]
    split
    · cases (results.getItem id).outcome <;> exact fun e => by cases e
    · exact h.started hactive id hid
  refine ⟨?_, fun hr => ?_, ?_, ?_, ?_, fun _ id hid => ?_⟩
  · rw [show ({ consumed with phase := if raised = true then .raised else .head } : Session).plan = s.plan from hplan]
    exact h.valid
  · cases raised with
    | true => exact absurd hr id
    | false =>
      have hkeep := finalizeCompletedNodes_inv results hids hinv hsub (by rw [hfold])
      rw [hfold] at hkeep
      rw [show ({ consumed with phase := if false = true then .raised else .head } : Session).plan = s.plan from hplan]
      exact hkeep
  · intro k hk
    exact hrun.trans (h.limit k (hmax ▸ hk))
  · rw [show ({ consumed with phase := if raised = true then .raised else .head } : Session).starts = s.starts
      from hstarts]
    exact h.starts
  · intro id hid
    rw [show ({ consumed with phase := if raised = true then .raised else .head } : Session).plan = s.plan from hplan]
    exact h.known id (hstarts ▸ hid)
  · exact hstarted id (hstarts ▸ hid)

theorem finalizeExecution_starts (s : Session) : (finalizeExecution s).starts = s.starts := by
  simp [finalizeExecution, Session.starts, startsOf, List.filterMap_append, List.filterMap_map]

theorem step_sessionInv {s s' : Session} {a : Action} (h : SessionInv s) (ha : TopologyDelivered a)
    (hstep : step s a = some s') : SessionInv s' := by
  cases stepTo_of_step hstep with
  | leave hphase _ => exact h.phase (by rw [hphase]; trivial) _
  | enter hphase _ => exact h.phase (by rw [hphase]; trivial) _
  | noGroup hphase _ => exact h.phase (by rw [hphase]; trivial) _
  | stop hphase _ _ => exact h.phase (by rw [hphase]; trivial) _
  | wait hphase _ _ => exact h.phase (by rw [hphase]; trivial) _
  | skip id ready hphase hready hstatus =>
    -- under the invariant a ready node is pending, so nothing is ever skipped
    have hactive : s.phase.Active := by rw [hphase]; trivial
    exact absurd (h.startAllowed hactive (hready ▸ List.mem_cons_self)).pending hstatus
  | start id ready hphase hready hlimit _ => exact start_inv h hphase hready hlimit
  | finalize hphase =>
    have hstarts := finalizeExecution_starts s
    refine ⟨h.valid, fun hactive => absurd hactive id, h.limit, ?_, ?_, fun hactive => absurd hactive id⟩
    · rw [hstarts]
      exact h.starts
    · rw [hstarts]
      exact h.known
  | expand groupId inputs publication topologyEvent delivered hphase hgroup hnew =>
    exact expand_sessionInv h hphase hgroup ha
  | join groupId result delivered hphase hgroup hexpanded =>
    have hactive : s.phase.Active := by rw [hphase]; trivial
    have hmem := (readyGroup?_mem hgroup).1
    have hhole := (h.inv hactive).take_ready hmem
    refine settle_sessionInv (s := { takeGroup s groupId with log := s.log ++ [.started groupId] }) ?_ ?_
      hhole h.limit ?_ result delivered
    · rw [Session.starts, startsOf_started]
      exact List.Nodup.append h.starts (by simp) (List.disjoint_singleton.mpr (h.startAllowed hactive hmem).fresh)
    · intro x hx
      rw [Session.starts, startsOf_started, List.mem_append, List.mem_singleton] at hx
      rcases hx with hx | rfl
      · exact h.known x hx
      · exact hhole.known
    · intro x hx
      rw [Session.starts, startsOf_started, List.mem_append, List.mem_singleton] at hx
      exact hx.imp_left (h.started hactive x)
  | complete results hphase hne consumed raised hfold => exact complete_sessionInv h hphase hfold

/-! ## Runs -/

/-- The state the loop starts from, for a resumed set closed under dependencies. -/
theorem initialSession_inv {plan : PreflightExecutionPlan} {resumed : List NodeId} {limit : Option Nat} {s : Session}
    (hplan : validateExecutionPlanSemantics plan = .ok ())
    (hclosed : ∀ id ∈ resumed, ∀ d ∈ plan.deps id, d ∈ resumed)
    (h : initialSession plan resumed limit = .ok s) :
    s.plan = plan ∧ s.maxConcurrentNodes = limit ∧ SessionInv s ∧
      ∀ id, s.state.status id = if id ∈ resumed then .succeeded else .pending := by
  have hv := validPlan_of_ok hplan
  obtain ⟨st, hst, hs⟩ := (do_eq_ok _ _ _).mp h
  cases hs
  obtain ⟨hknown, hspec⟩ := initializeWorkflowExecutionState_spec hv.graph hst
  obtain ⟨hinv, hstatus⟩ := hspec.inv hv hknown hclosed
  refine ⟨rfl, rfl, ⟨hv, fun _ => hinv, ?_, List.nodup_nil, ?_, ?_⟩, hstatus⟩
  · intro k _
    rw [hspec.running]
    exact Nat.zero_le k
  · intro id hid
    simp [Session.starts, startsOf] at hid
  · intro _ id hid
    simp [Session.starts, startsOf] at hid

/-- Every session reached without an `OSError` or `ValueError` of the topology sink. -/
theorem reachable_inv {plan : PreflightExecutionPlan} {resumed : List NodeId} {limit : Option Nat} {s₀ s : Session}
    {actions : List Action} (hplan : validateExecutionPlanSemantics plan = .ok ())
    (hclosed : ∀ id ∈ resumed, ∀ d ∈ plan.deps id, d ∈ resumed) (h₀ : initialSession plan resumed limit = .ok s₀)
    (hrun : run step s₀ actions = some s) (hsink : ∀ a ∈ actions, TopologyDelivered a) : SessionInv s :=
  run_invariant (fun _ _ _ => step_sessionInv) hrun hsink (initialSession_inv hplan hclosed h₀).2.2.1

theorem installExpandedPlan_frame {s installed : Session} {effective : PreflightExecutionPlan}
    (h : installExpandedPlan s effective = .ok installed) :
    installed.maxConcurrentNodes = s.maxConcurrentNodes ∧ installed.log = s.log := by
  obtain ⟨rebuilt, -, hret⟩ := (do_eq_ok _ _ _).mp h
  cases hret
  exact ⟨rfl, rfl⟩

/-- Expanding a group starts nothing and keeps the limit. -/
theorem runExpansion_frame (s : Session) (groupId : NodeId) (inputs : Except Fault ExpansionEvidence)
    (publication topologyEvent : Option Fault) (delivered : Bool) :
    let s' := runExpansion s groupId inputs publication topologyEvent delivered
    s'.maxConcurrentNodes = s.maxConcurrentNodes ∧ s'.starts = s.starts := by
  have hsettle := fun (t : Session) (fault : Fault) => settleGroup_frame t groupId (some fault) delivered
  unfold runExpansion
  split
  · exact ⟨(hsettle s _).2.1, (hsettle s _).2.2.2.2.1⟩
  · split
    · exact ⟨(hsettle s _).2.1, (hsettle s _).2.2.2.2.1⟩
    · rename_i installed hinst
      obtain ⟨hmax, hlog⟩ := installExpandedPlan_frame hinst
      have hstarts : startsOf (installed.log ++ [.expanded groupId]) = s.starts := by
        rw [hlog]
        simp [startsOf, Session.starts]
      split
      · exact ⟨hmax, hstarts⟩
      · exact ⟨(hsettle _ _).2.1.trans hmax, (hsettle _ _).2.2.2.2.1.trans hstarts⟩

/-- The nodes a step starts. -/
def startedBy (s s' : Session) : List NodeId := s'.starts.drop s.starts.length

/-- A step keeps the limit, and starts at most one node, which was ready. -/
theorem step_starts_ready {s s' : Session} {a : Action} (hstep : step s a = some s') :
    s'.maxConcurrentNodes = s.maxConcurrentNodes ∧
    (s'.starts = s.starts ∨ ∃ id ∈ s.state.ready, s.phase.Active ∧ s'.starts = s.starts ++ [id]) := by
  cases stepTo_of_step hstep with
  | leave | enter | noGroup | stop | wait | skip => exact ⟨rfl, Or.inl rfl⟩
  | start id ready hphase hready _ _ =>
    refine ⟨rfl, Or.inr ⟨id, by rw [hready]; exact List.mem_cons_self, by rw [hphase]; trivial, ?_⟩⟩
    exact startsOf_started s.log id
  | finalize hphase =>
    exact ⟨rfl, Or.inl (finalizeExecution_starts s)⟩
  | expand groupId inputs publication topologyEvent delivered _ _ _ =>
    obtain ⟨hmax, hstarts⟩ :=
      runExpansion_frame (takeGroup s groupId) groupId inputs publication topologyEvent delivered
    exact ⟨hmax, Or.inl hstarts⟩
  | join groupId result delivered hphase hgroup _ =>
    obtain ⟨-, hmax, -, -, hstarts, -⟩ :=
      settleGroup_frame { takeGroup s groupId with log := s.log ++ [.started groupId] } groupId result delivered
    refine ⟨hmax, Or.inr ⟨groupId, (readyGroup?_mem hgroup).1, by rw [hphase]; trivial, ?_⟩⟩
    exact hstarts.trans (startsOf_started s.log groupId)
  | complete results hphase _ consumed raised hfold =>
    obtain ⟨-, hmax, hlog, -⟩ :=
      finalizeCompletedNodes_frame results (completedNodeIds s.state results) s false
    rw [hfold] at hmax hlog
    refine ⟨hmax, Or.inl ?_⟩
    rw [Session.starts, hlog, startsOf_entries]
    rfl

/-- **Whatever a step starts is pending, was never started before, and has all
the dependencies of the graph in force succeeded.** -/
theorem step_starts {s s' : Session} {a : Action} (h : SessionInv s) (hstep : step s a = some s') :
    ∀ id ∈ startedBy s s', StartAllowed s id := by
  intro id hid
  rcases (step_starts_ready hstep).2 with heq | ⟨x, hx, hactive, heq⟩
  · simp [startedBy, heq] at hid
  · have hidx : id = x := by simpa [startedBy, heq] using hid
    rw [hidx]
    exact h.startAllowed hactive hx

theorem run_limit {s s' : Session} {actions : List Action} (h : run step s actions = some s') :
    s'.maxConcurrentNodes = s.maxConcurrentNodes :=
  run_invariant (C := fun _ => True) (P := fun t => t.maxConcurrentNodes = s.maxConcurrentNodes)
    (fun _ _ _ ht _ hstep => (step_starts_ready hstep).1.trans ht) h (fun _ _ => trivial) rfl

/-- **Scheduler safety.** In every run in which no topology event raises
`OSError` or `ValueError`: the limit holds, no node is started twice, and the
next start, whatever it is, is of a pending node with all its dependencies
succeeded. -/
theorem scheduler_safe {plan : PreflightExecutionPlan} {resumed : List NodeId} {limit : Option Nat} {s₀ s : Session}
    {actions : List Action} (hplan : validateExecutionPlanSemantics plan = .ok ())
    (hclosed : ∀ id ∈ resumed, ∀ d ∈ plan.deps id, d ∈ resumed) (h₀ : initialSession plan resumed limit = .ok s₀)
    (hrun : run step s₀ actions = some s) (hsink : ∀ a ∈ actions, TopologyDelivered a) :
    (∀ k ∈ limit, s.state.running.length ≤ k) ∧ s.starts.Nodup ∧
    ∀ a s', step s a = some s' → ∀ id ∈ startedBy s s',
      (∀ d ∈ s.plan.deps id, s.state.status d = .succeeded) ∧ s.state.status id = .pending ∧ id ∉ s.starts := by
  have hinv := reachable_inv hplan hclosed h₀ hrun hsink
  have hlimit : s.maxConcurrentNodes = limit := (run_limit hrun).trans (initialSession_inv hplan hclosed h₀).2.1
  refine ⟨hlimit ▸ hinv.limit, hinv.starts, ?_⟩
  intro a s' hstep id hid
  obtain ⟨hdeps, hpending, hfresh⟩ := step_starts hinv hstep id hid
  exact ⟨hdeps, hpending, hfresh⟩

/-! ## A sample plan -/

/-- A template of two nodes: the item and one worker that reads it. -/
def sampleTemplate : CompiledForeach :=
  { groupId := "g", «namespace» := "g.template", items := .literal ["\x7b\x7d"], maxItems := 1
    itemNodeId := "g.template.item", originalDependencies := [], templateDigest := "t"
    executionOrder := ["g.template.item", "g.template.work"]
    nodes :=
      [ { id := "g.template.item", mode := .input, findings := false, dependencies := [], expansion := none
          inputItemSlot := true, inputContentRef := none },
        { id := "g.template.work", mode := .sequential, findings := false, dependencies := ["g.template.item"]
          expansion := none, inputItemSlot := false, inputContentRef := none } ]
    dependencyGraph := [schedulingEdge "g.template.item" "g.template.work" none] }

/-- One foreach group, and a node that waits for it. -/
def samplePlan : PreflightExecutionPlan :=
  { workflowName := "sample", workflowSignature := "w", executionOrder := ["g", "report"], expansions := []
    foreachTemplates := [sampleTemplate]
    nodes :=
      [ { id := "g", mode := .foreach, findings := false, dependencies := [], expansion := none
          inputItemSlot := false, inputContentRef := none },
        { id := "report", mode := .sequential, findings := false, dependencies := ["g"], expansion := none
          inputItemSlot := false, inputContentRef := none } ]
    dependencyGraph := [schedulingEdge "g" "report" none], maxExpandedNodes := some 8, maxConcurrentNodes := some 2 }

def sampleEvidence : ExpansionEvidence :=
  { digest := "d", collection := { relativePath := "items.json", sizeBytes := 4, sha256 := "c" }
    items := [{ relativePath := "items/0.json", sizeBytes := 2, sha256 := "i" }], callerArtifacts := [] }

/-- Expand `g` with the given fate of its topology event, then run both children to the end. -/
def sampleRun (topologyEvent : Option Fault) : List Action :=
  [.tick, .group (.expand (.ok sampleEvidence) none topologyEvent) true, .tick, .tick, .tick,
    .complete [("g.i0.item", ⟨.succeeded, true⟩)], .tick, .tick, .tick, .tick,
    .complete [("g.i0.work", ⟨.succeeded, true⟩)], .tick]

/-- The session a run reaches from the initial one. -/
def reach (plan : PreflightExecutionPlan) (resumed : List NodeId) (limit : Option Nat) (actions : List Action) :
    Option Session :=
  match initialSession plan resumed limit with
  | .ok s => run step s actions
  | .error _ => none

/-- Reading a concrete run off its evaluation. -/
theorem reach_observe {plan : PreflightExecutionPlan} {resumed : List NodeId} {limit : Option Nat}
    {actions : List Action} {α : Type} {f : Session → α} {v : α}
    (h : (reach plan resumed limit actions).map f = some v) :
    ∃ s₀ s, initialSession plan resumed limit = .ok s₀ ∧ run step s₀ actions = some s ∧ f s = v := by
  obtain ⟨s, hs, hv⟩ := Option.map_eq_some_iff.mp h
  unfold reach at hs
  split at hs
  · rename_i s₀ h₀
    exact ⟨s₀, s, h₀, hs, hv⟩
  · cases hs

theorem sample_valid : validateExecutionPlanSemantics samplePlan = .ok () := rfl

/-- The sample run with every event delivered: both children ran before the group is joined. -/
theorem scheduler_safe_sample :
    ∃ s₀ s, initialSession samplePlan [] (some 2) = .ok s₀ ∧ run step s₀ (sampleRun none) = some s ∧
      s.starts = ["g.i0.item", "g.i0.work"] ∧ s.starts.Nodup := by
  have hobs : (reach samplePlan [] (some 2) (sampleRun none)).map Session.starts
      = some ["g.i0.item", "g.i0.work"] := by decide
  obtain ⟨s₀, s, h₀, hrun, hstarts⟩ := reach_observe hobs
  refine ⟨s₀, s, h₀, hrun, hstarts, ?_⟩
  exact (scheduler_safe sample_valid (by simp) h₀ hrun (by simp [sampleRun, TopologyDelivered])).2.1

/-- A sink that raises on the topology event: the group is failed, its children
run all the same, and it is joined when they are done. -/
theorem failed_group_joined :
    validateExecutionPlanSemantics samplePlan = .ok () ∧
    ∃ s₀ s s', initialSession samplePlan [] (some 2) = .ok s₀ ∧
      run step s₀ (sampleRun (some (.handled "disk full"))) = some s ∧
      step s (.group (.join none) true) = some s' ∧ "g" ∈ startedBy s s' ∧ s.state.status "g" = .failed := by
  refine ⟨rfl, ?_⟩
  have hobs : (reach samplePlan [] (some 2) (sampleRun (some (.handled "disk full")))).map (fun s =>
      (s.state.status "g", (step s (.group (.join none) true)).map (startedBy s))) = some (.failed, some ["g"]) := by
    decide
  obtain ⟨s₀, s, h₀, hrun, hval⟩ := reach_observe hobs
  obtain ⟨hfailed, hjoin⟩ := Prod.mk.inj hval
  obtain ⟨s', hstep, hstarted⟩ := Option.map_eq_some_iff.mp hjoin
  exact ⟨s₀, s, s', h₀, hrun, hstep, by rw [hstarted]; exact List.mem_singleton_self _, hfailed⟩

end Crewplane.Scheduler
