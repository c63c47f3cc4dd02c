import Crewplane.Lib.Runs
import Crewplane.Scheduler.State
/-
# The scheduling loop (runtime/execution/workflow/scheduling.py, expansion.py, join.py)

`run_scheduling_loop` as a step function over the session. Everything the loop
does not decide itself comes in through the action: which running nodes have
completed and how (`complete`), what expanding or joining a group met with on the
way (`group`), and whether an event sink raised. The loop's own moves are `tick`.

| here | there |
| --- | --- |
| `Phase.head`      | the `while` of `run_scheduling_loop` (scheduling.py:319) |
| `Phase.groups`    | the `while True` of `_run_ready_groups` (scheduling.py:97) |
| `Phase.starts`    | the `while` of `_schedule_ready_nodes` (scheduling.py:80) |
| `Phase.consume`   | `_consume_completed_nodes` (scheduling.py:208) |
| `Phase.finalize`  | `finalize_execution` (scheduling.py:329) |
| `Phase.done`      | it returned, or raised `WorkflowExecutionError` with the text |
| `Phase.raised`    | another exception left the loop |

A node starts when `_schedule_ready_nodes` creates its task, a group when it is
joined (`NODE_STARTED` is emitted for both); the log records it.
-/
namespace Crewplane.Scheduler

open Crewplane.Lib Crewplane.Plan

/-- An exception: `_run_ready_groups` handles `OSError` and `ValueError` (`handled`), others leave the loop. -/
inductive Fault
  | handled (message : String)
  | unhandled (message : String)
  deriving DecidableEq, Repr

/-- How a node's task ended: `is_expected_execution_failure` splits `failed` from `crashed` (errors.py:16). -/
inductive TaskOutcome
  | succeeded
  | failed (message : String)
  | crashed (message : String)
  deriving DecidableEq, Repr, Inhabited

/-- A finished task, and whether the event for it was delivered. -/
structure TaskResult where
  outcome : TaskOutcome
  delivered : Bool
  deriving DecidableEq, Repr, Inhabited

/-- What one iteration of `_run_ready_groups` met: the inputs of the expansion
(or the exception while resolving them), an exception while it was projected and
published, an exception of the sink while the topology event was emitted; or the
result of the join. -/
inductive GroupOutcome
  | expand (inputs : Except Fault ExpansionEvidence) (publication topologyEvent : Option Fault)
  | join (result : Option Fault)

inductive Action
  | tick
  | group (outcome : GroupOutcome) (delivered : Bool)
  | complete (results : Dict NodeId TaskResult)

inductive Phase
  | head | groups | starts | consume | finalize
  | done (error : Option String)
  | raised
  deriving DecidableEq, Repr

inductive LogEntry
  | started (id : NodeId)
  | finished (id : NodeId)
  | failed (id : NodeId)
  | expanded (id : NodeId)
  | blocked (id : NodeId)
  deriving DecidableEq, Repr

/-- `WorkflowExecutionSession` (execution_session.py:32); `nodes_by_id` is read through the plan, which it follows. -/
structure Session where
  plan : PreflightExecutionPlan
  state : WorkflowExecutionState
  maxConcurrentNodes : Option Nat
  phase : Phase
  log : List LogEntry

/-- The nodes a log starts, in order. -/
def startsOf (log : List LogEntry) : List NodeId :=
  log.filterMap fun
    | .started id => some id
    | _ => none

/-- The nodes started so far. -/
def Session.starts (s : Session) : List NodeId := startsOf s.log

/-! ## Marking nodes -/

/-- `_mark_node_failed` (scheduling.py:146): a raising sink skips the dependents. -/
def markNodeFailed (id : NodeId) (message : String) (delivered : Bool) (st : WorkflowExecutionState) :
    WorkflowExecutionState :=
  let st := { st with
    statuses := st.statuses.setItem id .failed, nodeErrors := st.nodeErrors.setItem id message }
  if delivered then
    { st with
      failedDependencies := (st.dependents.getItem id).foldl
        (fun failed dependent => failed.modify dependent fun set => set.insert id) st.failedDependencies }
  else st

/-- One dependent in `_queue_satisfied_dependents` (scheduling.py:174-179). -/
def queueDependent (st : WorkflowExecutionState) (dependent : NodeId) : WorkflowExecutionState :=
  if st.failedDependencies.getItem dependent ≠ [] then st
  else
    let remaining := st.remainingDependencies.modify dependent (· - 1)
    { st with
      remainingDependencies := remaining
      ready := if remaining.getItem dependent = 0 then st.ready ++ [dependent] else st.ready }

/-- `_queue_satisfied_dependents` (scheduling.py:173). -/
def queueSatisfiedDependents (id : NodeId) (st : WorkflowExecutionState) : WorkflowExecutionState :=
  let st := (st.dependents.getItem id).foldl queueDependent st
  { st with ready := sortByOrder st.nodeOrder st.ready }

/-- `_mark_node_succeeded` (scheduling.py:183): a raising sink skips the queueing. -/
def markNodeSucceeded (id : NodeId) (delivered : Bool) (st : WorkflowExecutionState) : WorkflowExecutionState :=
  let st := { st with statuses := st.statuses.setItem id .succeeded }
  if delivered then queueSatisfiedDependents id st else st

/-! ## Expanding and joining groups -/

/-- `node_id for node_id, status in prior.statuses.items() if status == SUCCEEDED` (expansion.py:153). -/
def succeededNodes (st : WorkflowExecutionState) : List NodeId :=
  (st.statuses.filter fun entry => entry.2 = .succeeded).map Prod.fst

/-- The rebuilt fields copied into the running state (expansion.py:159-179): prior statuses overlay the fresh
ones, running tasks and errors stay. -/
def installedState (prior rebuilt : WorkflowExecutionState) : WorkflowExecutionState :=
  let statuses := rebuilt.statuses.update prior.statuses
  { prior with
    ready := rebuilt.ready.filter fun id => statuses.getItem id = .pending
    statuses := statuses, nodeOrder := rebuilt.nodeOrder
    dependenciesByNode := rebuilt.dependenciesByNode
    remainingDependencies := rebuilt.remainingDependencies, dependents := rebuilt.dependents
    failedDependencies := rebuilt.dependenciesByNode.map fun entry =>
      (entry.1, entry.2.filter fun dependency =>
        statuses.getItem dependency = .failed ∨ statuses.getItem dependency = .blocked) }

/-- `_install_expanded_plan` (expansion.py:147). -/
def installExpandedPlan (session : Session) (effective : PreflightExecutionPlan) : Except String Session := do
  let rebuilt ← initializeWorkflowExecutionState effective (succeededNodes session.state)
  return { session with plan := effective, state := installedState session.state rebuilt }

/-- The evidence describes the items the template freezes, when it freezes them. -/
def evidenceFits (template : CompiledForeach) (evidence : ExpansionEvidence) : Bool :=
  match template.items with
  | .literal objects => objects.length = evidence.items.length
  | .reference _ _ => true

/-- `expand_group` (expansion.py:39) up to the topology event: the effective plan, or the exception. -/
def expandedPlan (plan : PreflightExecutionPlan) (groupId : NodeId) (inputs : Except Fault ExpansionEvidence)
    (publication : Option Fault) : Except Fault PreflightExecutionPlan :=
  match plan.template? groupId, inputs with
  | none, _ => .error (.unhandled "StopIteration")
  | some _, .error fault => .error fault
  | some template, .ok evidence =>
    match instantiateForeach plan template evidence >>= applyExpansion plan, publication with
    | .error message, _ => .error (.handled message)
    | .ok _, some fault => .error fault
    | .ok effective, none => .ok effective

/-- The `except`/`else` of `_run_ready_groups` (scheduling.py:121-127), from the exception of the `try` block. -/
def settleGroup (session : Session) (groupId : NodeId) (fault : Option Fault) (delivered : Bool) : Session :=
  match fault with
  | none => { session with
      state := markNodeSucceeded groupId delivered session.state
      phase := if delivered then .groups else .raised, log := session.log ++ [.finished groupId] }
  | some (.handled message) => { session with
      state := markNodeFailed groupId message delivered session.state
      phase := if delivered then .groups else .raised, log := session.log ++ [.failed groupId] }
  | some (.unhandled _) => { session with phase := .raised }

/-- Expanding the group taken from `ready`: `continue` after a success, `_mark_node_failed` after an exception. -/
def runExpansion (session : Session) (groupId : NodeId) (inputs : Except Fault ExpansionEvidence)
    (publication topologyEvent : Option Fault) (delivered : Bool) : Session :=
  match expandedPlan session.plan groupId inputs publication with
  | .error fault => settleGroup session groupId (some fault) delivered
  | .ok effective =>
    match installExpandedPlan session effective with
    | .error message => settleGroup session groupId (some (.handled message)) delivered
    | .ok installed =>
      let installed := { installed with log := installed.log ++ [.expanded groupId] }
      match topologyEvent with
      | none => installed
      | some fault => settleGroup installed groupId (some fault) delivered

/-- `state.ready.remove(group_id)`. -/
def takeGroup (session : Session) (groupId : NodeId) : Session :=
  { session with state := { session.state with ready := session.state.ready.erase groupId } }

/-- The join, after `NODE_STARTED` (scheduling.py:116-120). -/
def runJoin (session : Session) (groupId : NodeId) (result : Option Fault) (delivered : Bool) : Session :=
  settleGroup { session with log := session.log ++ [.started groupId] } groupId result delivered

/-- One iteration of `_run_ready_groups` (scheduling.py:97). -/
def runReadyGroup (session : Session) (groupId : NodeId) (outcome : GroupOutcome) (delivered : Bool) :
    Option Session :=
  match outcome with
  | .expand inputs publication topologyEvent =>
    if groupId ∈ session.plan.expansions.keys then none
    else if ∀ evidence ∈ inputs.toOption, ∀ template ∈ session.plan.template? groupId,
        evidenceFits template evidence then
      some (runExpansion (takeGroup session groupId) groupId inputs publication topologyEvent delivered)
    else none
  | .join result =>
    if groupId ∈ session.plan.expansions.keys then some (runJoin (takeGroup session groupId) groupId result delivered)
    else none

/-! ## Tasks -/

/-- `_finalize_completed_node` (scheduling.py:193), with whether it raised. -/
def finalizeCompletedNode (id : NodeId) (result : TaskResult) (session : Session) : Session × Bool :=
  let popped := { session.state with running := session.state.running.erase id }
  match result.outcome with
  | .succeeded => ({ session with
      state := markNodeSucceeded id result.delivered popped, log := session.log ++ [.finished id] }, !result.delivered)
  | .failed message => ({ session with
      state := markNodeFailed id message result.delivered popped, log := session.log ++ [.failed id] },
      !result.delivered)
  | .crashed message => ({ session with
      state := markNodeFailed id message result.delivered popped, log := session.log ++ [.failed id] }, true)

/-- The loop of `_consume_completed_nodes` (scheduling.py:211-217). -/
def finalizeCompletedNodes (results : Dict NodeId TaskResult) : List NodeId → Session × Bool → Session × Bool
  | [], acc => acc
  | id :: ids, (session, raised) =>
    let next := finalizeCompletedNode id (results.getItem id) session
    finalizeCompletedNodes results ids (next.1, raised || next.2)

/-- `_completed_node_ids` (scheduling.py:130). -/
def completedNodeIds (st : WorkflowExecutionState) (results : Dict NodeId TaskResult) : List NodeId :=
  sortByOrder st.nodeOrder (st.running.filter fun id => id ∈ results.keys)

def limitReached (session : Session) : Bool :=
  match session.maxConcurrentNodes with
  | none => false
  | some limit => limit ≤ session.state.running.length

/-! ## Finalisation -/

/-- `_unsatisfied_dependencies` (scheduling.py:222). -/
def unsatisfiedDependencies (st : WorkflowExecutionState) (id : NodeId) : List NodeId :=
  (st.dependenciesByNode.getItem id).filter fun dependency => st.statuses.getItem dependency ≠ .succeeded

/-- `blocked_nodes` (scheduling.py:237). -/
def pendingNodes (st : WorkflowExecutionState) : List NodeId :=
  (st.statuses.filter fun entry => entry.2 = .pending).map Prod.fst

/-- The status updates of `_mark_blocked_nodes` (scheduling.py:242-243). -/
def markBlockedNodes (st : WorkflowExecutionState) : WorkflowExecutionState :=
  { st with statuses := (pendingNodes st).foldl (fun statuses id => statuses.setItem id .blocked) st.statuses }

/-- `_build_workflow_failure_details` (scheduling.py:270). -/
def workflowFailureDetails (st : WorkflowExecutionState) (blocked : List NodeId) : String :=
  "\n".intercalate
    (((st.nodeErrors.keys.insertionSort (· ≤ ·)).map fun id =>
        "- failed: " ++ id ++ " (" ++ (st.nodeErrors.get? id).getD "" ++ ")") ++
      (blocked.insertionSort (· ≤ ·)).map fun id =>
        "- blocked: " ++ id ++ " (unsatisfied dependencies: "
          ++ ", ".intercalate (unsatisfiedDependencies st id) ++ ")")

/-- `_raise_if_workflow_failed` (scheduling.py:293): the text of the error, when one is raised. -/
def workflowError (workflowName : String) (st : WorkflowExecutionState) (blocked : List NodeId) : Option String :=
  if st.nodeErrors = [] ∧ blocked = [] then none
  else some ("Workflow '" ++ workflowName ++ "' failed:\n" ++ workflowFailureDetails st blocked)

/-- `finalize_execution` (scheduling.py:329). -/
def finalizeExecution (session : Session) : Session :=
  let blocked := pendingNodes session.state
  let st := markBlockedNodes session.state
  { session with
    state := st, phase := .done (workflowError session.plan.workflowName st blocked)
    log := session.log ++ blocked.map .blocked }

/-! ## The step function -/

/-- `next((id for id in ready if nodes_by_id[id].mode == "foreach"), None)`. -/
def readyGroup? (session : Session) : Option NodeId := session.state.ready.find? session.plan.isForeach

/-- Creating the task of the first ready node (scheduling.py:87-95). -/
def startNode (session : Session) (id : NodeId) (ready : List NodeId) : Session :=
  { session with
    state := { session.state with
      ready := ready, statuses := session.state.statuses.setItem id .running
      running := session.state.running ++ [id] }
    log := session.log ++ [.started id] }

/-- One iteration of the loop in `_schedule_ready_nodes` (scheduling.py:80-95). -/
def startNext (session : Session) : Session :=
  match session.state.ready with
  | [] => { session with phase := if session.state.running = [] then .finalize else .consume }
  | id :: ready =>
    if limitReached session then { session with phase := if session.state.running = [] then .finalize else .consume }
    else if session.state.statuses.getItem id ≠ .pending then
      { session with state := { session.state with ready := ready } }
    else startNode session id ready

def step (session : Session) : Action → Option Session
  | .tick =>
    match session.phase with
    | .head =>
      some { session with
        phase := if session.state.ready = [] ∧ session.state.running = [] then .finalize else .groups }
    | .groups =>
      match readyGroup? session with
      | none => some { session with phase := .starts }
      | some _ => none
    | .starts => some (startNext session)
    | .finalize => some (finalizeExecution session)
    | _ => none
  | .group outcome delivered =>
    match session.phase, readyGroup? session with
    | .groups, some groupId => runReadyGroup session groupId outcome delivered
    | _, _ => none
  | .complete results =>
    match session.phase with
    | .consume =>
      let ids := completedNodeIds session.state results
      if ids = [] then none
      else
        let consumed := finalizeCompletedNodes results ids (session, false)
        some { consumed.1 with phase := if consumed.2 then .raised else .head }
    | _ => none

/-- The session `initialize_workflow_execution` hands to the loop (execution_session.py:107). -/
def initialSession (plan : PreflightExecutionPlan) (resumedNodeIds : List NodeId) (limit : Option Nat) :
    Except String Session := do
  let st ← initializeWorkflowExecutionState plan resumedNodeIds
  return { plan := plan, state := st, maxConcurrentNodes := limit, phase := .head, log := [] }

/-! ## What a step can do -/

/-- Every move of the loop, with what it found. -/
inductive StepTo (s : Session) : Action → Session → Prop
  | leave (h : s.phase = .head) (hempty : s.state.ready = [] ∧ s.state.running = []) :
    StepTo s .tick { s with phase := .finalize }
  | enter (h : s.phase = .head) (hsome : ¬(s.state.ready = [] ∧ s.state.running = [])) :
    StepTo s .tick { s with phase := .groups }
  | noGroup (h : s.phase = .groups) (hnone : readyGroup? s = none) : StepTo s .tick { s with phase := .starts }
  | stop (h : s.phase = .starts) (hready : s.state.ready = [] ∨ limitReached s = true) (hrun : s.state.running = []) :
    StepTo s .tick { s with phase := .finalize }
  | wait (h : s.phase = .starts) (hready : s.state.ready = [] ∨ limitReached s = true) (hrun : s.state.running ≠ []) :
    StepTo s .tick { s with phase := .consume }
  | skip (id : NodeId) (ready : List NodeId) (h : s.phase = .starts) (hready : s.state.ready = id :: ready)
    (hstatus : s.state.statuses.getItem id ≠ .pending) :
    StepTo s .tick { s with state := { s.state with ready := ready } }
  | start (id : NodeId) (ready : List NodeId) (h : s.phase = .starts) (hready : s.state.ready = id :: ready)
    (hlimit : limitReached s = false) (hstatus : s.state.statuses.getItem id = .pending) :
    StepTo s .tick (startNode s id ready)
  | finalize (h : s.phase = .finalize) : StepTo s .tick (finalizeExecution s)
  | expand (groupId : NodeId) (inputs : Except Fault ExpansionEvidence) (publication topologyEvent : Option Fault)
    (delivered : Bool) (h : s.phase = .groups) (hgroup : readyGroup? s = some groupId)
    (hnew : groupId ∉ s.plan.expansions.keys) :
    StepTo s (.group (.expand inputs publication topologyEvent) delivered)
      (runExpansion (takeGroup s groupId) groupId inputs publication topologyEvent delivered)
  | join (groupId : NodeId) (result : Option Fault) (delivered : Bool) (h : s.phase = .groups)
    (hgroup : readyGroup? s = some groupId) (hexpanded : groupId ∈ s.plan.expansions.keys) :
    StepTo s (.group (.join result) delivered) (runJoin (takeGroup s groupId) groupId result delivered)
  | complete (results : Dict NodeId TaskResult) (h : s.phase = .consume)
    (hne : completedNodeIds s.state results ≠ []) (consumed : Session) (raised : Bool)
    (hfold : finalizeCompletedNodes results (completedNodeIds s.state results) (s, false) = (consumed, raised)) :
    StepTo s (.complete results) { consumed with phase := if raised then .raised else .head }

theorem stepTo_startNext {s : Session} (h : s.phase = .starts) : StepTo s .tick (startNext s) := by
  unfold startNext
  have hpass : (s.state.ready = [] ∨ limitReached s = true) →
      StepTo s .tick { s with phase := if s.state.running = [] then .finalize else .consume } := by
    intro hstop
    by_cases hrun : s.state.running = []
    · rw [if_pos hrun]; exact .stop h hstop hrun
    · rw [if_neg hrun]; exact .wait h hstop hrun
  split
  · rename_i hready
    exact hpass (Or.inl hready)
  · rename_i id ready hready
    by_cases hlimit : limitReached s = true
    · rw [if_pos hlimit]; exact hpass (Or.inr hlimit)
    · rw [if_neg hlimit]
      by_cases hstatus : s.state.statuses.getItem id = .pending
      · rw [if_neg (not_not_intro hstatus)]
        exact .start id ready h hready (by simpa using hlimit) hstatus
      · rw [if_pos hstatus]
        exact .skip id ready h hready hstatus

/-- **Inversion of `step`**: later proofs split on `StepTo` and never unfold the step function. -/
theorem stepTo_of_step {s s' : Session} {a : Action} (h : step s a = some s') : StepTo s a s' := by
  cases a with
  | tick =>
    simp only [step] at h
    split at h
    · rename_i hphase
      cases h
      by_cases hempty : s.state.ready = [] ∧ s.state.running = []
      · rw [if_pos hempty]; exact .leave hphase hempty
      · rw [if_neg hempty]; exact .enter hphase hempty
    · rename_i hphase
      split at h
      · rename_i hnone
        cases h
        exact .noGroup hphase hnone
      · cases h
    · rename_i hphase
      cases h
      exact stepTo_startNext hphase
    · rename_i hphase
      cases h
      exact .finalize hphase
    · cases h
  | group outcome delivered =>
    simp only [step] at h
    split at h
    · rename_i groupId hphase hgroup
      cases outcome with
      | expand inputs publication topologyEvent =>
        simp only [runReadyGroup] at h
        split at h
        · cases h
        · rename_i hnew
          split at h
          · cases h
            exact .expand groupId inputs publication topologyEvent delivered hphase hgroup hnew
          · cases h
      | join result =>
        simp only [runReadyGroup] at h
        split at h
        · rename_i hexpanded
          cases h
          exact .join groupId result delivered hphase hgroup hexpanded
        · cases h
    · cases h
  | complete results =>
    simp only [step] at h
    split at h
    · rename_i hphase
      split at h
      · cases h
      · rename_i hne
        cases h
        exact .complete results hphase hne _ _ rfl
    · cases h

end Crewplane.Scheduler
