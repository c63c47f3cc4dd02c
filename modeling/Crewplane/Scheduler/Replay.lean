import Crewplane.Scheduler.Safety
/-
# The log replayed on the graph in force

`_install_expanded_plan` (expansion.py:147) rebuilds the bookkeeping in the middle of a run, while nodes are running and
others have failed. `replay` starts from nothing but the resumed nodes and the plan in force, which knows every group
expanded so far from the first entry on, and records the log entry by entry. `session_is_replay` says that the loop's
state is that one, in whatever order groups were expanded, nodes ran and tasks ended.

The argument is on the log alone: `Lawful` is what the loop had checked when it wrote an entry, in terms of the statuses
at that moment (`logStatus`). An expansion keeps every entry lawful (`along_effective`), since it changes the
dependencies of the group only and the group is not yet in the log.
-/
namespace Crewplane.Scheduler

open Crewplane.Lib Crewplane.Plan

/-! ## Replaying -/

/-- Taking a node from `ready` or from the running tasks. -/
def popNode (id : NodeId) (st : WorkflowExecutionState) : WorkflowExecutionState :=
  { st with ready := st.ready.erase id, running := st.running.erase id }

/-- Recording one entry. A join starts nothing: the group leaves `ready` with its outcome. -/
def replayEntry (plan : PreflightExecutionPlan) (messages : NodeId → String) (st : WorkflowExecutionState) :
    LogEntry → WorkflowExecutionState
  | .started id =>
    if plan.isForeach id then st
    else { st with
      ready := st.ready.erase id, statuses := st.statuses.setItem id .running, running := st.running ++ [id] }
  | .finished id => markNodeSucceeded id true (popNode id st)
  | .failed id => markNodeFailed id (messages id) true (popNode id st)
  | .expanded _ | .blocked _ => st

/-- A state for the plan with the nodes of an earlier run completed, and every entry recorded on it. -/
def replay (plan : PreflightExecutionPlan) (messages : NodeId → String) (resumed : List NodeId) (log : List LogEntry) :
    Except String WorkflowExecutionState := do
  let st ← initializeWorkflowExecutionState plan resumed
  return log.foldl (replayEntry plan messages) st

/-- What two states agree in: the counter of a node with a failed dependency is never read again. -/
structure SameBookkeeping (plan : PreflightExecutionPlan) (a b : WorkflowExecutionState) : Prop where
  ready : a.ready = b.ready
  running : a.running.Perm b.running
  status : ∀ id, a.status id = b.status id
  errors : ∀ id, a.nodeErrors.get? id = b.nodeErrors.get? id
  failed : ∀ id ∈ plan.nodeIds, ∀ d, d ∈ a.failedDependencies.getItem id ↔ d ∈ b.failedDependencies.getItem id
  remaining : ∀ id ∈ plan.nodeIds, a.failedDependencies.getItem id = [] →
    a.remainingDependencies.getItem id = b.remainingDependencies.getItem id
  dependencies : a.dependenciesByNode = b.dependenciesByNode
  dependents : a.dependents = b.dependents
  nodeOrder : a.nodeOrder = b.nodeOrder

/-! ## The statuses of a log -/

def entryStatus (plan : PreflightExecutionPlan) (status : NodeId → ExecutionStatus) : LogEntry → NodeId → ExecutionStatus
  | .started id => if plan.isForeach id then status else Function.update status id .running
  | .finished id => Function.update status id .succeeded
  | .failed id => Function.update status id .failed
  | .expanded _ | .blocked _ => status

def resumedStatus (resumed : List NodeId) (id : NodeId) : ExecutionStatus := if id ∈ resumed then .succeeded else .pending

def logStatus (plan : PreflightExecutionPlan) (resumed : List NodeId) (log : List LogEntry) : NodeId → ExecutionStatus :=
  log.foldl (entryStatus plan) (resumedStatus resumed)

/-- What the loop had found when it wrote an entry. -/
def Lawful (plan : PreflightExecutionPlan) (status : NodeId → ExecutionStatus) : LogEntry → Prop
  | .started id =>
    id ∈ plan.nodeIds ∧ (plan.isForeach id = false → status id = .pending) ∧ ∀ d ∈ plan.deps id, status d = .succeeded
  | .finished id | .failed id =>
    id ∈ plan.nodeIds ∧ (status id = .pending ∨ status id = .running) ∧ ∀ d ∈ plan.deps id, status d = .succeeded
  | .expanded _ | .blocked _ => True

/-- The node whose entry this is; an expansion is no entry of the group. -/
def LogEntry.node? : LogEntry → Option NodeId
  | .started id | .finished id | .failed id => some id
  | .expanded _ | .blocked _ => none

theorem entryStatus_ne_pending {plan : PreflightExecutionPlan} {status : NodeId → ExecutionStatus} {id : NodeId}
    (h : status id ≠ .pending) (entry : LogEntry) : entryStatus plan status entry id ≠ .pending := by
  cases entry with
  | started x =>
    rw [entryStatus]
    split
    · exact h
    · by_cases hx : id = x
      · simp [hx]
      · simpa [hx] using h
  | finished x | failed x =>
    by_cases hx : id = x
    · simp [entryStatus, hx]
    · simpa [entryStatus, hx] using h
  | expanded | blocked => exact h

theorem foldl_entryStatus_ne_pending {plan : PreflightExecutionPlan} {log : List LogEntry} {id : NodeId} :
    ∀ {status : NodeId → ExecutionStatus}, status id ≠ .pending → log.foldl (entryStatus plan) status id ≠ .pending := by
  induction log with
  | nil => exact fun h => h
  | cons entry log ih => exact fun h => ih (entryStatus_ne_pending h entry)

/-- A node that has an outcome in the log is not pending. -/
theorem ne_pending_of_outcome {plan : PreflightExecutionPlan} {resumed : List NodeId} {log : List LogEntry} {id : NodeId}
    (h : .finished id ∈ log ∨ .failed id ∈ log) : logStatus plan resumed log id ≠ .pending := by
  have hcut : ∀ entry : LogEntry, (∀ status, entryStatus plan status entry id ≠ .pending) → entry ∈ log →
      logStatus plan resumed log id ≠ .pending := by
    intro entry hentry hmem
    obtain ⟨front, back, rfl⟩ := List.append_of_mem hmem
    rw [logStatus, List.foldl_append, List.foldl_cons]
    exact foldl_entryStatus_ne_pending (hentry _)
  rcases h with h | h
  · exact hcut _ (fun status => by simp [entryStatus]) h
  · exact hcut _ (fun status => by simp [entryStatus]) h

/-! ## Replaying a lawful log -/

section Lawful

variable {plan : PreflightExecutionPlan} {st : WorkflowExecutionState} {id : NodeId}

theorem Inv.popNode (h : Inv plan st) (hid : id ∈ plan.nodeIds) (hopen : st.status id = .pending ∨ st.status id = .running)
    (hdeps : ∀ d ∈ plan.deps id, st.status d = .succeeded) : Hole id plan (popNode id st) := by
  rcases hopen with hopen | hopen
  · have hready : id ∈ st.ready := (h.ready id).mpr ⟨hid, hopen, hdeps⟩
    have hrunning : id ∉ st.running := fun hr => absurd (hopen.symm.trans ((h.running id).mp hr)) (by decide)
    have hpop := h.take_ready hready
    rwa [Scheduler.popNode, List.erase_of_not_mem hrunning]
  · have hready : id ∉ st.ready := fun hr => absurd (hopen.symm.trans ((h.ready id).mp hr).2.1) (by decide)
    have hpop := h.take_running ((h.running id).mpr hopen)
    rwa [Scheduler.popNode, List.erase_of_not_mem hready]

theorem replayEntry_inv (h : Inv plan st) (messages : NodeId → String) {entry : LogEntry}
    (hentry : Lawful plan st.status entry) :
    Inv plan (replayEntry plan messages st entry) ∧
      (replayEntry plan messages st entry).status = entryStatus plan st.status entry := by
  cases entry with
  | started id =>
    obtain ⟨hid, hpending, hdeps⟩ := hentry
    by_cases hforeach : plan.isForeach id = true
    · rw [replayEntry, entryStatus, if_pos hforeach, if_pos hforeach]
      exact ⟨h, rfl⟩
    · have hpending := hpending (Bool.not_eq_true _ ▸ hforeach)
      rw [replayEntry, entryStatus, if_neg hforeach, if_neg hforeach]
      refine ⟨markRunning_inv (h.take_ready ((h.ready id).mpr ⟨hid, hpending, hdeps⟩)) hpending, ?_⟩
      ext x
      by_cases hx : id = x
      · simp [WorkflowExecutionState.status, hx]
      · simp [WorkflowExecutionState.status, hx, Function.update_of_ne (Ne.symm hx)]
  | finished id =>
    obtain ⟨hid, hopen, hdeps⟩ := hentry
    refine ⟨markNodeSucceeded_inv (h.popNode hid hopen hdeps), ?_⟩
    ext x
    rw [replayEntry, entryStatus, markNodeSucceeded_status, Function.update_apply]
    simp only [eq_comm]
    rfl
  | failed id =>
    obtain ⟨hid, hopen, hdeps⟩ := hentry
    refine ⟨markNodeFailed_inv (h.popNode hid hopen hdeps) (messages id), ?_⟩
    ext x
    rw [replayEntry, entryStatus, markNodeFailed_status, Function.update_apply]
    simp only [eq_comm]
    rfl
  | expanded | blocked => exact ⟨h, rfl⟩

theorem foldl_replayEntry_inv (messages : NodeId → String) {log : List LogEntry} :
    ∀ {st : WorkflowExecutionState}, Inv plan st → Along (entryStatus plan) (Lawful plan) st.status log →
      Inv plan (log.foldl (replayEntry plan messages) st) ∧
        (log.foldl (replayEntry plan messages) st).status = log.foldl (entryStatus plan) st.status := by
  induction log with
  | nil => exact fun h _ => ⟨h, rfl⟩
  | cons entry log ih =>
    intro st h hlawful
    obtain ⟨hinv, hstatus⟩ := replayEntry_inv h messages hlawful.1
    rw [List.foldl_cons, List.foldl_cons, ← hstatus]
    exact ih hinv (hstatus ▸ hlawful.2)

end Lawful

/-! ## Expansions keep a log lawful -/

section Effective

variable {plan effective : PreflightExecutionPlan} {template : CompiledForeach} {state : ExpansionState}
  {group : PreflightExecutionNode} {status : NodeId → ExecutionStatus}

theorem Lawful.known {entry : LogEntry} (h : Lawful plan status entry) {id : NodeId} (hid : entry.node? = some id) :
    id ∈ plan.nodeIds := by
  cases entry with
  | started | finished | failed =>
    cases hid
    exact h.1
  | expanded | blocked => cases hid

theorem entryStatus_effective (hv : ValidPlan plan) (hx : Expands plan effective template state group) {entry : LogEntry}
    (h : Lawful plan status entry) : entryStatus effective status entry = entryStatus plan status entry := by
  cases entry with
  | started id => rw [entryStatus, entryStatus, hx.isForeach_old hv h.1]
  | finished | failed | expanded | blocked => rfl

theorem lawful_effective (hv : ValidPlan plan) (hx : Expands plan effective template state group) {entry : LogEntry}
    (hne : ∀ id, entry.node? = some id → id ≠ group.id) (h : Lawful plan status entry) :
    Lawful effective status entry := by
  have hkept : ∀ id, entry.node? = some id → (∀ d ∈ plan.deps id, status d = .succeeded) →
      id ∈ effective.nodeIds ∧ ∀ d ∈ effective.deps id, status d = .succeeded := by
    intro id hid hdeps
    have hmem := h.known hid
    refine ⟨(hx.mem_nodeIds hv.graph).mpr (Or.inl hmem), fun d hd => hdeps d ?_⟩
    exact (hx.deps_old hv hmem (hne id hid)).mp hd
  cases entry with
  | started id =>
    obtain ⟨hid, hpending, hdeps⟩ := h
    obtain ⟨hid', hdeps'⟩ := hkept id rfl hdeps
    refine ⟨hid', ?_, hdeps'⟩
    rwa [hx.isForeach_old hv hid]
  | finished id | failed id =>
    obtain ⟨hid, hopen, hdeps⟩ := h
    obtain ⟨hid', hdeps'⟩ := hkept id rfl hdeps
    exact ⟨hid', hopen, hdeps'⟩
  | expanded | blocked => trivial

/-- The log of a run in which the group has no entry yet. -/
theorem along_effective (hv : ValidPlan plan) (hx : Expands plan effective template state group) {log : List LogEntry} :
    ∀ {status : NodeId → ExecutionStatus}, (∀ entry ∈ log, ∀ id, entry.node? = some id → id ≠ group.id) →
      Along (entryStatus plan) (Lawful plan) status log →
      Along (entryStatus effective) (Lawful effective) status log ∧
        log.foldl (entryStatus effective) status = log.foldl (entryStatus plan) status := by
  induction log with
  | nil => exact fun _ _ => ⟨trivial, rfl⟩
  | cons entry log ih =>
    intro status hne h
    obtain ⟨halong, hfold⟩ := ih (fun e he => hne e (List.mem_cons_of_mem entry he)) h.2
    have hstatus := entryStatus_effective hv hx h.1
    refine ⟨⟨lawful_effective hv hx (hne entry List.mem_cons_self) h.1, ?_⟩, ?_⟩
    · rwa [hstatus]
    · rw [List.foldl_cons, List.foldl_cons, hstatus, hfold]

end Effective

/-! ## The ready list is in plan order -/

/-- `ready` is sorted by the positions of the plan in force. -/
structure Ordered (plan : PreflightExecutionPlan) (st : WorkflowExecutionState) : Prop where
  nodeOrder : st.nodeOrder = nodeOrderOf plan
  sorted : st.ready.Pairwise fun a b => (nodeOrderOf plan).getItem a ≤ (nodeOrderOf plan).getItem b

section Ordered

variable {plan : PreflightExecutionPlan} {st : WorkflowExecutionState}

theorem pairwise_sortByOrder (nodeOrder : Dict NodeId Nat) (ids : List NodeId) :
    (sortByOrder nodeOrder ids).Pairwise fun a b => nodeOrder.getItem a ≤ nodeOrder.getItem b := by
  have : Std.Total fun a b : NodeId => nodeOrder.getItem a ≤ nodeOrder.getItem b := ⟨fun a b => Nat.le_total _ _⟩
  have : IsTrans NodeId fun a b => nodeOrder.getItem a ≤ nodeOrder.getItem b := ⟨fun a b c => Nat.le_trans⟩
  exact List.pairwise_insertionSort _ ids

theorem Ordered.of_sublist (h : Ordered plan st) {st' : WorkflowExecutionState} (hready : st'.ready.Sublist st.ready)
    (horder : st'.nodeOrder = st.nodeOrder) : Ordered plan st' :=
  ⟨horder.trans h.nodeOrder, h.sorted.sublist hready⟩

theorem foldl_queueDependent_nodeOrder (xs : List NodeId) : ∀ st : WorkflowExecutionState,
    (xs.foldl queueDependent st).nodeOrder = st.nodeOrder := by
  induction xs with
  | nil => exact fun _ => rfl
  | cons x xs ih =>
    intro st
    rw [List.foldl_cons, ih, queueDependent]
    split <;> rfl

theorem Ordered.succeeded (h : Ordered plan st) (id : NodeId) (delivered : Bool) :
    Ordered plan (markNodeSucceeded id delivered st) := by
  cases delivered with
  | false => exact h.of_sublist (List.Sublist.refl _) rfl
  | true =>
    have horder : (markNodeSucceeded id true st).nodeOrder = st.nodeOrder :=
      foldl_queueDependent_nodeOrder (st.dependents.getItem id) { st with statuses := st.statuses.setItem id .succeeded }
    refine ⟨horder.trans h.nodeOrder, ?_⟩
    rw [← h.nodeOrder, ← horder]
    exact pairwise_sortByOrder _ _

theorem Ordered.failed (h : Ordered plan st) (id : NodeId) (message : String) (delivered : Bool) :
    Ordered plan (markNodeFailed id message delivered st) := by
  cases delivered with
  | false => exact h.of_sublist (List.Sublist.refl _) rfl
  | true => exact h.of_sublist (List.Sublist.refl _) rfl

theorem Ordered.popNode (h : Ordered plan st) (id : NodeId) : Ordered plan (popNode id st) :=
  h.of_sublist List.erase_sublist rfl

theorem Ordered.replayEntry (h : Ordered plan st) (messages : NodeId → String) (entry : LogEntry) :
    Ordered plan (replayEntry plan messages st entry) := by
  cases entry with
  | started id =>
    rw [Scheduler.replayEntry]
    split
    · exact h
    · exact h.of_sublist List.erase_sublist rfl
  | finished id => exact (h.popNode id).succeeded id true
  | failed id => exact (h.popNode id).failed id (messages id) true
  | expanded | blocked => exact h

theorem Ordered.foldl_replayEntry (messages : NodeId → String) {log : List LogEntry} :
    ∀ {st : WorkflowExecutionState}, Ordered plan st → Ordered plan (log.foldl (Scheduler.replayEntry plan messages) st) := by
  induction log with
  | nil => exact fun h => h
  | cons entry log ih => exact fun h => ih (h.replayEntry messages entry)

theorem ordered_initialState {resumed : List NodeId} (h : initializeWorkflowExecutionState plan resumed = .ok st) :
    Ordered plan st := by
  obtain ⟨dependencies, -, hrest⟩ := (do_eq_ok _ _ _).mp h
  obtain ⟨known, -, hst⟩ := (do_eq_ok _ _ _).mp hrest
  cases hst
  exact ⟨rfl, pairwise_sortByOrder _ _⟩

theorem ordered_install {s installed : Session} {effective : PreflightExecutionPlan}
    (h : installExpandedPlan s effective = .ok installed) : Ordered installed.plan installed.state := by
  obtain ⟨rebuilt, hrebuilt, hinstalled⟩ := (do_eq_ok _ _ _).mp h
  cases hinstalled
  exact (ordered_initialState hrebuilt).of_sublist List.filter_sublist rfl

theorem ordered_settleGroup {s : Session} (h : Ordered s.plan s.state) (groupId : NodeId) (fault : Option Fault)
    (delivered : Bool) :
    Ordered (settleGroup s groupId fault delivered).plan (settleGroup s groupId fault delivered).state := by
  rcases fault with _ | ⟨message⟩ | ⟨message⟩
  · exact h.succeeded groupId delivered
  · exact h.failed groupId message delivered
  · exact h

theorem ordered_runExpansion {s : Session} (h : Ordered s.plan s.state) (groupId : NodeId)
    (inputs : Except Fault ExpansionEvidence) (publication topologyEvent : Option Fault) (delivered : Bool) :
    Ordered (runExpansion s groupId inputs publication topologyEvent delivered).plan
      (runExpansion s groupId inputs publication topologyEvent delivered).state := by
  unfold runExpansion
  split
  · exact ordered_settleGroup h groupId _ delivered
  · split
    · exact ordered_settleGroup h groupId _ delivered
    next installed hinstall =>
      have hinstalled := ordered_install hinstall
      split
      · exact hinstalled
      · exact ordered_settleGroup (s := { installed with log := installed.log ++ [.expanded groupId] }) hinstalled groupId _ delivered

theorem ordered_finalizeCompletedNode {s : Session} (h : Ordered s.plan s.state) (id : NodeId) (result : TaskResult) :
    Ordered (finalizeCompletedNode id result s).1.plan (finalizeCompletedNode id result s).1.state := by
  have hpop : Ordered s.plan { s.state with running := s.state.running.erase id } := h.of_sublist (List.Sublist.refl _) rfl
  obtain ⟨outcome, delivered⟩ := result
  cases outcome with
  | succeeded => exact hpop.succeeded id delivered
  | failed message => exact hpop.failed id message delivered
  | crashed message => exact hpop.failed id message delivered

theorem ordered_finalizeCompletedNodes (results : Dict NodeId TaskResult) {ids : List NodeId} :
    ∀ {s : Session} {raised : Bool}, Ordered s.plan s.state →
      Ordered (finalizeCompletedNodes results ids (s, raised)).1.plan (finalizeCompletedNodes results ids (s, raised)).1.state := by
  induction ids with
  | nil => exact fun h => h
  | cons id ids ih => exact fun h => ih (ordered_finalizeCompletedNode h id _)

theorem step_ordered {s s' : Session} {a : Action} (h : Ordered s.plan s.state) (hstep : step s a = some s') :
    Ordered s'.plan s'.state := by
  cases stepTo_of_step hstep with
  | leave | enter | noGroup | stop | wait => exact h
  | skip id ready hphase hready hstatus =>
    exact h.of_sublist (hready ▸ List.sublist_cons_self id ready) rfl
  | start id ready hphase hready hlimit hstatus =>
    exact h.of_sublist (hready ▸ List.sublist_cons_self id ready) rfl
  | finalize hphase => exact h.of_sublist (List.Sublist.refl _) rfl
  | expand groupId inputs publication topologyEvent delivered hphase hgroup hnew =>
    exact ordered_runExpansion (s := takeGroup s groupId) (h.of_sublist List.erase_sublist rfl) ..
  | join groupId result delivered hphase hgroup hexpanded =>
    exact ordered_settleGroup (s := { takeGroup s groupId with log := s.log ++ [.started groupId] })
      (h.of_sublist List.erase_sublist rfl) ..
  | complete results hphase hne consumed raised hfold =>
    have hkeep := @ordered_finalizeCompletedNodes results (completedNodeIds s.state results) s false h
    rwa [hfold] at hkeep

end Ordered

/-! ## The log of a run -/

section Run

variable {resumed : List NodeId} {s s' : Session}

/-- What the log of a session says about it. -/
structure Replays (resumed : List NodeId) (s : Session) : Prop where
  known : ∀ id ∈ resumed, id ∈ s.plan.nodeIds
  closed : ∀ id ∈ resumed, ∀ d ∈ s.plan.deps id, d ∈ resumed
  lawful : Along (entryStatus s.plan) (Lawful s.plan) (resumedStatus resumed) s.log
  status : s.state.status = logStatus s.plan resumed s.log

/-- A move that writes nothing. -/
theorem Replays.same (h : Replays resumed s) (hplan : s'.plan = s.plan) (hlog : s'.log = s.log)
    (hstatus : s'.state.status = s.state.status) : Replays resumed s' := by
  refine ⟨?_, ?_, ?_, ?_⟩
  · rw [hplan]
    exact h.known
  · rw [hplan]
    exact h.closed
  · rw [hplan, hlog]
    exact h.lawful
  · rw [hplan, hlog, hstatus]
    exact h.status

/-- A move that writes one lawful entry and leaves the statuses the entry says. -/
theorem Replays.entry (h : Replays resumed s) (entry : LogEntry) (hplan : s'.plan = s.plan)
    (hlog : s'.log = s.log ++ [entry]) (hentry : Lawful s.plan s.state.status entry)
    (hstatus : s'.state.status = entryStatus s.plan s.state.status entry) : Replays resumed s' := by
  refine ⟨?_, ?_, ?_, ?_⟩
  · rw [hplan]
    exact h.known
  · rw [hplan]
    exact h.closed
  · rw [hplan, hlog, along_append]
    refine ⟨h.lawful, ?_, trivial⟩
    rwa [h.status] at hentry
  · rw [hplan, hlog, logStatus, List.foldl_append, hstatus, h.status]
    rfl

theorem Replays.start (h : Replays resumed s) (hinv : SessionInv s) (hactive : s.phase.Active) {id : NodeId}
    {ready : List NodeId} (hready : s.state.ready = id :: ready) (hplain : s.plan.isForeach id = false) :
    Replays resumed (startNode s id ready) := by
  obtain ⟨hid, hpending, hdeps⟩ := ((hinv.inv hactive).ready id).mp (hready ▸ List.mem_cons_self)
  refine h.entry (.started id) rfl rfl ⟨hid, fun _ => hpending, hdeps⟩ ?_
  rw [entryStatus, if_neg (by rw [hplain]; decide)]
  ext x
  by_cases hx : id = x
  · simp [startNode, WorkflowExecutionState.status, hx]
  · simp [startNode, WorkflowExecutionState.status, hx, Function.update_of_ne (Ne.symm hx)]

/-- Settling a group that was taken from `ready`, when the loop goes on. -/
theorem Replays.settle (h : Replays resumed s) {groupId : NodeId} (hhole : Hole groupId s.plan s.state)
    (fault : Option Fault) {delivered : Bool} (hactive : (settleGroup s groupId fault delivered).phase.Active) :
    Replays resumed (settleGroup s groupId fault delivered) := by
  rcases fault with _ | ⟨message⟩ | ⟨message⟩
  · refine h.entry (.finished groupId) rfl rfl ⟨hhole.known, hhole.open_, hhole.deps⟩ ?_
    ext x
    rw [settleGroup, entryStatus, markNodeSucceeded_status, Function.update_apply]
    simp only [eq_comm]
  · refine h.entry (.failed groupId) rfl rfl ⟨hhole.known, hhole.open_, hhole.deps⟩ ?_
    ext x
    rw [settleGroup, entryStatus, markNodeFailed_status, Function.update_apply]
    simp only [eq_comm]
  · exact absurd hactive id

/-- The log of a session in which the group is pending has no entry of it. -/
theorem Replays.no_entry (h : Replays resumed s) (hinv : SessionInv s) (hactive : s.phase.Active) {groupId : NodeId}
    (hpending : s.state.status groupId = .pending) : ∀ entry ∈ s.log, ∀ id, entry.node? = some id → id ≠ groupId := by
  rintro entry hentry id hid rfl
  cases entry with
  | started x =>
    cases hid
    exact hinv.started hactive id (List.mem_filterMap.mpr ⟨_, hentry, rfl⟩) hpending
  | finished x =>
    cases hid
    exact ne_pending_of_outcome (Or.inl hentry) (h.status ▸ hpending)
  | failed x =>
    cases hid
    exact ne_pending_of_outcome (Or.inr hentry) (h.status ▸ hpending)
  | expanded | blocked => cases hid

/-- Installing the graph of a pending group. -/
theorem Replays.install (h : Replays resumed s) (hinv : SessionInv s) (hactive : s.phase.Active)
    {effective : PreflightExecutionPlan} {template : CompiledForeach} {state : ExpansionState}
    {group : PreflightExecutionNode} {st : WorkflowExecutionState} (hpending : s.state.status group.id = .pending)
    (hx : Expands s.plan effective template state group) (hstatus : ∀ x, st.status x = s.state.status x) :
    Replays resumed (installedSession s group.id effective st) := by
  obtain ⟨hlawful, hfold⟩ := along_effective hinv.valid hx (h.no_entry hinv hactive hpending) h.lawful
  have hfresh : ∀ id ∈ resumed, id ≠ group.id := by
    rintro id hid rfl
    have hresumed : resumedStatus resumed group.id ≠ .pending := by simp [resumedStatus, hid]
    exact foldl_entryStatus_ne_pending hresumed (h.status ▸ hpending)
  refine ⟨fun id hid => (hx.mem_nodeIds hinv.valid.graph).mpr (Or.inl (h.known id hid)), ?_, ?_, ?_⟩
  · intro id hid d hd
    exact h.closed id hid d ((hx.deps_old hinv.valid (h.known id hid) (hfresh id hid)).mp hd)
  · exact along_append.mpr ⟨hlawful, trivial, trivial⟩
  · ext x
    have hlog : logStatus effective resumed (s.log ++ [.expanded group.id]) = logStatus s.plan resumed s.log := by
      rw [logStatus, List.foldl_append, hfold]
      rfl
    rw [show (installedSession s group.id effective st).state.status x = st.status x from rfl, hstatus, h.status]
    exact congrFun hlog.symm x

theorem Replays.finalize (h : Replays resumed s) (hinv : Inv s.plan s.state) {id : NodeId} (hid : id ∈ s.state.running)
    (result : TaskResult) : Replays resumed (finalizeCompletedNode id result s).1 := by
  obtain ⟨hplan, -, -, hlog, -, hstatus⟩ := finalizeCompletedNode_frame id result s
  have hhole := hinv.take_running hid
  refine h.entry _ hplan hlog ?_ ?_
  · cases result.outcome with
    | succeeded => exact ⟨hhole.known, hhole.open_, hhole.deps⟩
    | failed | crashed => exact ⟨hhole.known, hhole.open_, hhole.deps⟩
  · ext x
    rw [hstatus]
    cases result.outcome with
    | succeeded => simp only [TaskOutcome.status, TaskOutcome.entry, entryStatus, Function.update_apply, eq_comm]
    | failed | crashed => simp only [TaskOutcome.status, TaskOutcome.entry, entryStatus, Function.update_apply, eq_comm]

theorem Replays.complete (results : Dict NodeId TaskResult) {ids : List NodeId} (hids : ids.Nodup) :
    ∀ {s : Session}, Replays resumed s → Inv s.plan s.state → (∀ id ∈ ids, id ∈ s.state.running) →
      (finalizeCompletedNodes results ids (s, false)).2 = false →
      Replays resumed (finalizeCompletedNodes results ids (s, false)).1 := by
  induction ids with
  | nil => exact fun h _ _ _ => h
  | cons id ids ih =>
    intro s h hinv hsub hraised
    obtain ⟨hid, hnd⟩ := List.nodup_cons.mp hids
    simp only [finalizeCompletedNodes, Bool.false_or] at hraised ⊢
    have hone : (finalizeCompletedNode id (results.getItem id) s).2 = false := by
      by_contra hne
      rw [Bool.not_eq_false] at hne
      rw [hne, finalizeCompletedNodes_raised] at hraised
      cases hraised
    obtain ⟨hplan, -, -, -, hrun, -⟩ := finalizeCompletedNode_frame id (results.getItem id) s
    rw [hone] at hraised ⊢
    have hnext := finalizeCompletedNode_inv hinv (hsub id List.mem_cons_self) hone
    rw [← hplan] at hnext
    refine ih hnd (h.finalize hinv (hsub id List.mem_cons_self) _) hnext ?_ hraised
    intro x hx
    rw [hrun, hinv.runningNodup.mem_erase_iff]
    exact ⟨fun e => hid (e ▸ hx), hsub x (List.mem_cons_of_mem id hx)⟩

/-- While nodes are started, no group is ready. -/
def NoGroupWaits (s : Session) : Prop := s.phase = .starts → ∀ id ∈ s.state.ready, s.plan.isForeach id = false

theorem settleGroup_phase (h : s.phase = .groups) (groupId : NodeId) (fault : Option Fault) (delivered : Bool) :
    (settleGroup s groupId fault delivered).phase ≠ .starts := by
  rcases (settleGroup_frame s groupId fault delivered).2.2.2.1 with hphase | hphase | hphase <;> rw [hphase]
  · decide
  · decide
  · rw [h]
    decide

theorem runExpansion_phase (h : s.phase = .groups) (groupId : NodeId) (inputs : Except Fault ExpansionEvidence)
    (publication topologyEvent : Option Fault) (delivered : Bool) :
    (runExpansion s groupId inputs publication topologyEvent delivered).phase ≠ .starts := by
  unfold runExpansion
  split
  · exact settleGroup_phase h groupId _ delivered
  · split
    · exact settleGroup_phase h groupId _ delivered
    next installed hinstall =>
      obtain ⟨rebuilt, -, hinstalled⟩ := (do_eq_ok _ _ _).mp hinstall
      cases hinstalled
      split
      · simp [h]
      · refine settleGroup_phase ?_ groupId _ delivered
        exact h

theorem step_noGroupWaits {a : Action} (h : NoGroupWaits s) (hstep : step s a = some s') : NoGroupWaits s' := by
  cases stepTo_of_step hstep with
  | leave | enter | stop | wait | finalize => exact fun hphase => by cases hphase
  | noGroup hphase hnone =>
    intro _ id hid
    simpa using List.find?_eq_none.mp hnone id hid
  | skip id ready hphase hready hstatus =>
    exact fun _ x hx => h hphase x (hready ▸ List.mem_cons_of_mem id hx)
  | start id ready hphase hready hlimit hstatus =>
    exact fun _ x hx => h hphase x (hready ▸ List.mem_cons_of_mem id hx)
  | expand groupId inputs publication topologyEvent delivered hphase hgroup hnew =>
    exact fun hstarts => absurd hstarts (runExpansion_phase (s := takeGroup s groupId) hphase _ _ _ _ _)
  | join groupId result delivered hphase hgroup hexpanded =>
    refine fun hstarts => absurd hstarts (settleGroup_phase ?_ groupId result delivered)
    exact hphase
  | complete results hphase hne consumed raised hfold =>
    intro hstarts
    cases raised <;> cases hstarts

/-- **Every move keeps the log in step with the state**, as long as the loop goes on. -/
theorem step_replays {a : Action} (hinv : SessionInv s) (hwaits : NoGroupWaits s) (h : s.phase.Active → Replays resumed s)
    (ha : TopologyDelivered a) (hstep : step s a = some s') (hactive' : s'.phase.Active) : Replays resumed s' := by
  cases stepTo_of_step hstep with
  | leave hphase _ => exact (h (by rw [hphase]; trivial)).same rfl rfl rfl
  | enter hphase _ => exact (h (by rw [hphase]; trivial)).same rfl rfl rfl
  | noGroup hphase _ => exact (h (by rw [hphase]; trivial)).same rfl rfl rfl
  | stop hphase _ _ => exact (h (by rw [hphase]; trivial)).same rfl rfl rfl
  | wait hphase _ _ => exact (h (by rw [hphase]; trivial)).same rfl rfl rfl
  | skip id ready hphase hready hstatus => exact (h (by rw [hphase]; trivial)).same rfl rfl rfl
  | start id ready hphase hready hlimit hstatus =>
    have hactive : s.phase.Active := by rw [hphase]; trivial
    exact (h hactive).start hinv hactive hready (hwaits hphase id (hready ▸ List.mem_cons_self))
  | finalize hphase => exact absurd hactive' id
  | expand groupId inputs publication topologyEvent delivered hphase hgroup hnew =>
    have hactive : s.phase.Active := by rw [hphase]; trivial
    have hmem := (readyGroup?_mem hgroup).1
    have hpending := (((hinv.inv hactive).ready groupId).mp hmem).2.1
    rcases runExpansion_cases (hinv.inv hactive) hmem inputs publication topologyEvent delivered with
      ⟨fault, -, heq⟩ | ⟨effective, template, evidence, group, st, -, -, rfl, -, hx, -, hstatus, -, heq⟩
    · rw [heq] at hactive' ⊢
      have htaken : Replays resumed (takeGroup s groupId) := (h hactive).same rfl rfl rfl
      exact htaken.settle ((hinv.inv hactive).take_ready hmem) (some fault) hactive'
    · rcases ha.event with rfl | ⟨message, rfl⟩
      · rw [heq]
        exact (h hactive).install hinv hactive hpending hx hstatus
      · rw [heq] at hactive'
        exact absurd hactive' id
  | join groupId result delivered hphase hgroup hexpanded =>
    have hactive : s.phase.Active := by rw [hphase]; trivial
    obtain ⟨hmem, hforeach⟩ := readyGroup?_mem hgroup
    have hhole := (hinv.inv hactive).take_ready hmem
    have hstarted : Replays resumed { takeGroup s groupId with log := s.log ++ [.started groupId] } := by
      refine (h hactive).entry (.started groupId) rfl rfl ⟨hhole.known, ?_, hhole.deps⟩ ?_
      · intro hplain
        rw [hforeach] at hplain
        cases hplain
      · rw [entryStatus, if_pos hforeach]
        rfl
    exact hstarted.settle hhole result hactive'
  | complete results hphase hne consumed raised hfold =>
    have hactive : s.phase.Active := by rw [hphase]; trivial
    have hids : (completedNodeIds s.state results).Nodup := nodup_sortByOrder.mpr ((hinv.inv hactive).runningNodup.filter _)
    have hsub : ∀ id ∈ completedNodeIds s.state results, id ∈ s.state.running := fun id hid =>
      List.mem_of_mem_filter (mem_sortByOrder.mp hid)
    cases raised with
    | true => exact absurd hactive' id
    | false =>
      have hkeep := (h hactive).complete results hids (hinv.inv hactive) hsub (by rw [hfold])
      rw [hfold] at hkeep
      exact hkeep.same rfl rfl rfl

end Run

/-! ## The state of a session -/

theorem get?_zip_range' {ids : List NodeId} {id : NodeId} : ∀ {start : Nat}, id ∈ ids →
    Dict.get? (ids.zip (List.range' start ids.length)) id = some (start + ids.idxOf id) := by
  induction ids with
  | nil => exact fun h => by cases h
  | cons x ids ih =>
    intro start h
    rw [List.length_cons, List.range'_succ, List.zip_cons_cons, Dict.get?, List.idxOf_cons]
    by_cases hx : x = id
    · simp [hx]
    · have hmem : id ∈ ids := (List.mem_cons.mp h).resolve_left fun e => hx e.symm
      rw [if_neg hx, ih hmem, beq_false_of_ne hx, cond_false, Nat.add_assoc, Nat.add_comm 1]

/-- Every node is in the execution order already. -/
theorem nodeOrderOf_eq {plan : PreflightExecutionPlan} (hv : ValidGraph plan) :
    nodeOrderOf plan = plan.executionOrder.zip (List.range plan.executionOrder.length) := by
  have hkeys : Dict.keys (plan.executionOrder.zip (List.range plan.executionOrder.length)) = plan.executionOrder := by
    simp [Dict.keys, List.map_fst_zip]
  have hmem : ∀ node ∈ plan.nodes, node.id ∈ Dict.keys (plan.executionOrder.zip (List.range plan.executionOrder.length)) := by
    intro node hnode
    rw [hkeys, hv.order]
    exact List.mem_map_of_mem hnode
  rw [nodeOrderOf]
  generalize plan.nodes = nodes at hmem
  induction nodes with
  | nil => rfl
  | cons node nodes ih =>
    rw [List.foldl_cons, if_pos (hmem node List.mem_cons_self)]
    exact ih fun n hn => hmem n (List.mem_cons_of_mem node hn)

/-- Positions in the plan tell nodes apart. -/
theorem nodeOrderOf_inj {plan : PreflightExecutionPlan} (hv : ValidGraph plan) {a b : NodeId} (ha : a ∈ plan.nodeIds)
    (hb : b ∈ plan.nodeIds) (h : (nodeOrderOf plan).getItem a = (nodeOrderOf plan).getItem b) : a = b := by
  rw [← hv.order] at ha hb
  rw [nodeOrderOf_eq hv, List.range_eq_range', Dict.getItem, Dict.getItem, get?_zip_range' ha, get?_zip_range' hb] at h
  have hidx : plan.executionOrder.idxOf a = plan.executionOrder.idxOf b := by simpa using h
  exact (List.idxOf_inj ha).mp hidx

/-- The statuses settle the rest of the bookkeeping. -/
theorem sameBookkeeping_of_inv {plan : PreflightExecutionPlan} {a b : WorkflowExecutionState} (ha : Inv plan a)
    (hb : Inv plan b) (hao : Ordered plan a) (hbo : Ordered plan b) (hstatus : a.status = b.status)
    (herrors : ∀ id, a.nodeErrors.get? id = b.nodeErrors.get? id) : SameBookkeeping plan a b := by
  have hready : ∀ id, id ∈ a.ready ↔ id ∈ b.ready := by
    intro id
    rw [ha.ready, hb.ready, Enabled, Enabled, hstatus]
  have hfailed : ∀ id ∈ plan.nodeIds, ∀ d, d ∈ a.failedDependencies.getItem id ↔ d ∈ b.failedDependencies.getItem id := by
    intro id hid d
    rw [ha.failed id hid, hb.failed id hid, hstatus]
  refine ⟨?_, ?_, congrFun hstatus, herrors, hfailed, ?_, ha.dependencies.trans hb.dependencies.symm,
    ha.dependents.trans hb.dependents.symm, hao.nodeOrder.trans hbo.nodeOrder.symm⟩
  · have hperm : a.ready.Perm b.ready := (List.perm_ext_iff_of_nodup ha.readyNodup hb.readyNodup).mpr hready
    refine hperm.eq_of_pairwise ?_ hao.sorted hbo.sorted
    intro x y hx hy hxy hyx
    exact nodeOrderOf_inj ha.valid.graph ((ha.ready x).mp hx).1 ((hb.ready y).mp hy).1 (Nat.le_antisymm hxy hyx)
  · rw [List.perm_ext_iff_of_nodup ha.runningNodup hb.runningNodup]
    intro id
    rw [show id ∈ a.running ↔ a.status id = .running from ha.running id,
      show id ∈ b.running ↔ b.status id = .running from hb.running id, hstatus]
  · intro id hid hempty
    have hempty' : b.failedDependencies.getItem id = [] := by
      rw [List.eq_nil_iff_forall_not_mem] at hempty ⊢
      exact fun d hd => hempty d ((hfailed id hid d).mpr hd)
    rw [ha.remaining id hid hempty, hb.remaining id hid hempty', hstatus]

theorem foldl_queueDependent_errors (xs : List NodeId) : ∀ st : WorkflowExecutionState,
    (xs.foldl queueDependent st).nodeErrors = st.nodeErrors := by
  induction xs with
  | nil => exact fun _ => rfl
  | cons x xs ih =>
    intro st
    rw [List.foldl_cons, ih, queueDependent]
    split <;> rfl

theorem markNodeSucceeded_errors (id : NodeId) (st : WorkflowExecutionState) :
    (markNodeSucceeded id true st).nodeErrors = st.nodeErrors :=
  foldl_queueDependent_errors (st.dependents.getItem id) { st with statuses := st.statuses.setItem id .succeeded }

theorem markNodeFailed_errors (id : NodeId) (message : String) (st : WorkflowExecutionState) :
    (markNodeFailed id message true st).nodeErrors = st.nodeErrors.setItem id message := rfl

/-- A replayed failure has the message it was given. -/
theorem foldl_replayEntry_errors {plan : PreflightExecutionPlan} {messages : NodeId → String} {log : List LogEntry} :
    ∀ {st : WorkflowExecutionState}, (∀ id m, st.nodeErrors.get? id = some m → m = messages id) →
      ∀ id m, (log.foldl (replayEntry plan messages) st).nodeErrors.get? id = some m → m = messages id := by
  induction log with
  | nil => exact fun h => h
  | cons entry log ih =>
    intro st h
    refine ih ?_
    cases entry with
    | started id =>
      rw [replayEntry]
      split <;> exact h
    | finished id =>
      rw [replayEntry, markNodeSucceeded_errors]
      exact h
    | failed id =>
      intro x m hm
      rw [replayEntry, markNodeFailed_errors, Dict.get?_setItem] at hm
      split at hm
      next hx => exact hx ▸ (Option.some.inj hm).symm
      next hx => exact h x m hm
    | expanded | blocked => exact h

end Crewplane.Scheduler
