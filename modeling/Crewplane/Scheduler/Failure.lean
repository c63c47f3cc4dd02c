import Crewplane.Scheduler.Safety
/-
# A failed node stays failed

A status leaves `failed` only through a move on that very node, and every move
works on a node that is pending or running. So failure is final as long as the
invariant of the loop holds, and a group whose expansion failed never enters the
plan: neither it nor a child of it is started later. The run of
`failed_group_joined` breaks all three (`failed_group_succeeds`).
-/
namespace Crewplane.Scheduler

open Crewplane.Lib Crewplane.Plan

/-! ## Finalisation -/

theorem getItem_foldl_setItem (ids : List NodeId) (status : ExecutionStatus) (statuses : Dict NodeId ExecutionStatus)
    (x : NodeId) :
    (ids.foldl (fun statuses id => statuses.setItem id status) statuses).getItem x
      = if x ∈ ids then status else statuses.getItem x := by
  induction ids generalizing statuses with
  | nil => simp
  | cons id ids ih =>
    rw [List.foldl_cons, ih, Dict.getItem_setItem]
    by_cases hx : x ∈ ids
    · simp [hx]
    · by_cases hid : id = x
      · simp [hid]
      · have hid' : x ≠ id := fun e => hid e.symm
        simp [hx, hid, hid']

theorem Core.mem_pendingNodes {plan : PreflightExecutionPlan} {st : WorkflowExecutionState} (h : Core plan st)
    {x : NodeId} : x ∈ pendingNodes st ↔ x ∈ plan.nodeIds ∧ st.status x = .pending := by
  rw [pendingNodes, Dict.mem_filter_keys h.statusNodup (fun _ status => decide (status = .pending)), h.statusKeys,
    decide_eq_true_eq]
  rfl

/-- Finalisation blocks exactly the nodes of the plan that are still pending. -/
theorem Core.status_markBlockedNodes {plan : PreflightExecutionPlan} {st : WorkflowExecutionState} (h : Core plan st)
    (x : NodeId) :
    (markBlockedNodes st).status x
      = if x ∈ plan.nodeIds ∧ st.status x = .pending then .blocked else st.status x := by
  rw [WorkflowExecutionState.status, markBlockedNodes, getItem_foldl_setItem]
  simp only [h.mem_pendingNodes]
  rfl

/-! ## One step -/

/-- A node that is neither pending nor running keeps its status in every step of the loop. -/
theorem step_status_final {s s' : Session} {a : Action} (h : SessionInv s) (ha : TopologyDelivered a)
    (hstep : step s a = some s') {id : NodeId} (hp : s.state.status id ≠ .pending)
    (hr : s.state.status id ≠ .running) : s'.state.status id = s.state.status id := by
  cases stepTo_of_step hstep with
  | leave | enter | noGroup | stop | wait | skip => rfl
  | start x ready hphase hready _ hstatus =>
    have hx : x ≠ id := fun e => hp (e ▸ hstatus)
    simp [startNode, WorkflowExecutionState.status, hx]
  | finalize hphase =>
    have hinv := h.inv (by rw [hphase]; trivial)
    rw [show (finalizeExecution s).state.status id = (markBlockedNodes s.state).status id from rfl,
      hinv.status_markBlockedNodes, if_neg fun hb => hp hb.2]
  | expand groupId inputs publication topologyEvent delivered hphase hgroup _ =>
    have hinv := h.inv (by rw [hphase]; trivial)
    have hmem := (readyGroup?_mem hgroup).1
    have hg : groupId ≠ id := fun e => hp (e ▸ ((hinv.ready groupId).mp hmem).2.1)
    rcases runExpansion_cases hinv hmem inputs publication topologyEvent delivered with
      ⟨fault, -, heq⟩ | ⟨effective, template, evidence, group, st, -, -, -, -, -, -, hstatus, -, heq⟩
    · rw [heq, (settleGroup_frame _ groupId (some fault) delivered).2.2.2.2.2 id, if_neg hg]
      rfl
    · rw [heq]
      rcases ha.event with rfl | ⟨message, rfl⟩ <;> exact hstatus id
  | join groupId result delivered hphase hgroup _ =>
    have hinv := h.inv (by rw [hphase]; trivial)
    have hg : groupId ≠ id := fun e => hp (e ▸ ((hinv.ready groupId).mp (readyGroup?_mem hgroup).1).2.1)
    rw [runJoin, (settleGroup_frame _ groupId result delivered).2.2.2.2.2 id, if_neg hg]
    rfl
  | complete results hphase _ consumed raised hfold =>
    have hinv := h.inv (by rw [hphase]; trivial)
    have hids : (completedNodeIds s.state results).Nodup := nodup_sortByOrder.mpr (hinv.runningNodup.filter _)
    have hnot : id ∉ completedNodeIds s.state results := fun hid =>
      hr ((hinv.running id).mp (List.mem_of_mem_filter (mem_sortByOrder.mp hid)))
    have hstatus := finalizeCompletedNodes_status results hids s false id
    rw [hfold, if_neg hnot] at hstatus
    exact hstatus

/-- The only group a step adds to the expansions is a ready, pending one. -/
theorem step_expansions {s s' : Session} {a : Action} (h : SessionInv s) (hstep : step s a = some s') {id : NodeId}
    (hp : s.state.status id ≠ .pending) : id ∈ s'.plan.expansions.keys ↔ id ∈ s.plan.expansions.keys := by
  cases stepTo_of_step hstep with
  | leave | enter | noGroup | stop | wait | skip | start | finalize => exact Iff.rfl
  | expand groupId inputs publication topologyEvent delivered hphase hgroup _ =>
    have hinv := h.inv (by rw [hphase]; trivial)
    have hmem := (readyGroup?_mem hgroup).1
    have hg : groupId ≠ id := fun e => hp (e ▸ ((hinv.ready groupId).mp hmem).2.1)
    rcases runExpansion_cases hinv hmem inputs publication topologyEvent delivered with
      ⟨fault, -, heq⟩ | ⟨effective, template, evidence, group, st, -, -, hid, -, hx, -, -, -, heq⟩
    · rw [heq, (settleGroup_frame _ groupId (some fault) delivered).1]
      rfl
    · have hkeys : id ∈ effective.expansions.keys ↔ id ∈ s.plan.expansions.keys := by
        rw [hx.expansions, Dict.mem_keys_setItem, hid]
        exact ⟨fun hk => hk.resolve_left fun e => hg e.symm, Or.inr⟩
      rw [heq]
      cases topologyEvent with
      | none => exact hkeys
      | some fault => rw [(settleGroup_frame _ groupId (some fault) delivered).1]; exact hkeys
  | join groupId result delivered _ _ _ =>
    rw [runJoin, (settleGroup_frame _ groupId result delivered).1]
    rfl
  | complete results _ _ consumed raised hfold =>
    have hplan := (finalizeCompletedNodes_frame results (completedNodeIds s.state results) s false).1
    rw [hfold] at hplan
    rw [show ({ consumed with phase := if raised = true then .raised else .head } : Session).plan = s.plan from hplan]

/-- An expansion that fails before its topology event leaves the plan as it was. -/
theorem failed_expansion_plan {s s' : Session} {groupId : NodeId} {inputs : Except Fault ExpansionEvidence}
    {publication topologyEvent : Option Fault} {delivered : Bool} (h : SessionInv s)
    (ha : TopologyDelivered (.group (.expand inputs publication topologyEvent) delivered))
    (hstep : step s (.group (.expand inputs publication topologyEvent) delivered) = some s')
    (hgroup : readyGroup? s = some groupId) (hfailed : s'.state.status groupId = .failed) :
    groupId ∉ s'.plan.expansions.keys := by
  cases stepTo_of_step hstep with
  | expand g _ _ _ _ hphase hg hnew =>
    rw [hgroup] at hg
    cases hg
    have hinv := h.inv (by rw [hphase]; trivial)
    have hmem := (readyGroup?_mem hgroup).1
    have hpending := ((hinv.ready groupId).mp hmem).2.1
    rcases runExpansion_cases hinv hmem inputs publication topologyEvent delivered with
      ⟨fault, -, heq⟩ | ⟨effective, template, evidence, group, st, -, -, -, -, -, -, hstatus, -, heq⟩
    · rw [heq, (settleGroup_frame _ groupId (some fault) delivered).1]
      exact hnew
    · -- the installed graph keeps the group pending, and the event cannot fail it
      rw [heq] at hfailed
      rcases ha.event with rfl | ⟨message, rfl⟩
      · rw [show (installedSession s groupId effective st).state.status groupId = st.status groupId from rfl,
          hstatus, hpending] at hfailed
        cases hfailed
      · have hsame : st.status groupId = .failed := hfailed
        rw [hstatus, hpending] at hsame
        cases hsame

/-! ## Runs -/

/-- What is known of a failed node from some session on. -/
structure StaysFailed (from_ : Session) (id : NodeId) (s : Session) : Prop where
  inv : SessionInv s
  failed : s.state.status id = .failed
  starts : from_.starts <+: s.starts ∧ id ∉ startedBy from_ s
  unexpanded : id ∉ from_.plan.expansions.keys → id ∉ s.plan.expansions.keys

theorem startedBy_append {s t u : Session} {xs : List NodeId} (hst : s.starts <+: t.starts)
    (hu : u.starts = t.starts ++ xs) : s.starts <+: u.starts ∧ startedBy s u = startedBy s t ++ xs := by
  obtain ⟨ys, hys⟩ := hst
  refine ⟨⟨ys ++ xs, by rw [hu, ← hys, List.append_assoc]⟩, ?_⟩
  rw [startedBy, startedBy, hu, ← hys, List.append_assoc]
  simp

theorem step_staysFailed {start s s' : Session} {a : Action} {id : NodeId} (h : StaysFailed start id s)
    (ha : TopologyDelivered a) (hstep : step s a = some s') : StaysFailed start id s' := by
  have hp : s.state.status id ≠ .pending := by rw [h.failed]; decide
  have hr : s.state.status id ≠ .running := by rw [h.failed]; decide
  refine ⟨step_sessionInv h.inv ha hstep, (step_status_final h.inv ha hstep hp hr).trans h.failed, ?_, ?_⟩
  · rcases (step_starts_ready hstep).2 with heq | ⟨x, hx, hactive, heq⟩
    · rw [startedBy, heq]
      exact h.starts
    · obtain ⟨hpre, hstarted⟩ := startedBy_append h.starts.1 heq
      refine ⟨hpre, ?_⟩
      rw [hstarted, List.mem_append, List.mem_singleton]
      rintro (hmem | rfl)
      · exact h.starts.2 hmem
      · exact hp (h.inv.startAllowed hactive hx).pending
  · intro hnew
    rw [step_expansions h.inv hstep hp]
    exact h.unexpanded hnew

/-- **Failure is final.** In every run in which no topology event raises
`OSError` or `ValueError`: a node that is failed after some step is failed in
every later session and is not started (or joined) again; and when the step was
a failed expansion, no node that group generates is ever in the plan, let alone
started. -/
theorem failure_final {plan : PreflightExecutionPlan} {resumed : List NodeId} {limit : Option Nat}
    {s₀ m s s' : Session} {before after : List Action} {a : Action}
    (hplan : validateExecutionPlanSemantics plan = .ok ())
    (hclosed : ∀ id ∈ resumed, ∀ d ∈ plan.deps id, d ∈ resumed) (h₀ : initialSession plan resumed limit = .ok s₀)
    (hm : run step s₀ before = some m) (hstep : step m a = some s) (hs' : run step s after = some s')
    (hsink : ∀ x ∈ before ++ a :: after, TopologyDelivered x) {id : NodeId} (hfailed : s.state.status id = .failed) :
    s'.state.status id = .failed ∧ id ∉ startedBy s s' ∧
    ∀ inputs publication topologyEvent delivered,
      a = .group (.expand inputs publication topologyEvent) delivered → readyGroup? m = some id →
      id ∉ s'.plan.expansions.keys ∧ (∀ child ∈ s'.starts, child ∈ s'.plan.nodeIds) ∧
        ∀ node ∈ s'.plan.nodes, ∀ provenance ∈ node.expansion, provenance.groupId ≠ id := by
  have hm' : SessionInv m := reachable_inv hplan hclosed h₀ hm fun x hx => hsink x (List.mem_append_left _ hx)
  have ha : TopologyDelivered a := hsink a (List.mem_append_right _ List.mem_cons_self)
  have hstart : StaysFailed s id s :=
    ⟨step_sessionInv hm' ha hstep, hfailed, ⟨List.prefix_refl _, by simp [startedBy]⟩, fun hnew => hnew⟩
  have hafter : ∀ x ∈ after, TopologyDelivered x := fun x hx =>
    hsink x (List.mem_append_right _ (List.mem_cons_of_mem a hx))
  have hend : StaysFailed s id s' := run_invariant (fun _ _ _ => step_staysFailed) hs' hafter hstart
  refine ⟨hend.failed, hend.starts.2, ?_⟩
  rintro inputs publication topologyEvent delivered rfl hgroup
  have hnew := hend.unexpanded (failed_expansion_plan hm' ha hstep hgroup hfailed)
  refine ⟨hnew, hend.inv.known, ?_⟩
  rintro node hnode provenance hp rfl
  exact hnew (hend.inv.valid.generated node hnode provenance hp)

/-- The sample group fails while its inputs are resolved; the loop then has nothing left to do. -/
theorem failure_final_sample :
    ∃ s₀ m s s', initialSession samplePlan [] (some 2) = .ok s₀ ∧ run step s₀ [.tick] = some m ∧
      step m (.group (.expand (.error (.handled "missing")) none none) true) = some s ∧
      run step s [.tick, .tick, .tick] = some s' ∧ s'.state.status "g" = .failed ∧ "g" ∉ startedBy s s' := by
  have hobs : (reach samplePlan [] (some 2) [.tick]).map (fun m =>
      (step m (.group (.expand (.error (.handled "missing")) none none) true)).map fun s =>
        (s.state.status "g", (run step s [.tick, .tick, .tick]).isSome)) = some (some (.failed, true)) := by decide
  obtain ⟨s₀, m, h₀, hm, hval⟩ := reach_observe hobs
  obtain ⟨s, hstep, hval⟩ := Option.map_eq_some_iff.mp hval
  obtain ⟨hfailed, hrun⟩ := Prod.mk.inj hval
  obtain ⟨s', hs'⟩ := Option.isSome_iff_exists.mp hrun
  have hfinal := failure_final sample_valid (by simp) h₀ hm hstep hs' (by simp [TopologyDelivered]) hfailed
  exact ⟨s₀, m, s, s', h₀, hm, hstep, hs', hfinal.1, hfinal.2.1⟩

/-- The sink that raises on the topology event: the group is marked failed, its
children are started afterwards, and in the end it is joined and succeeds. -/
theorem failed_group_succeeds :
    validateExecutionPlanSemantics samplePlan = .ok () ∧ ∃ s₀ s s', initialSession samplePlan [] (some 2) = .ok s₀ ∧
      run step s₀ ((sampleRun (some (.handled "disk full"))).take 2) = some s ∧ s.state.status "g" = .failed ∧
      run step s ((sampleRun (some (.handled "disk full"))).drop 2 ++ [.group (.join none) true]) = some s' ∧
      s'.state.status "g" = .succeeded ∧ startedBy s s' = ["g.i0.item", "g.i0.work", "g"] := by
  have hobs : (reach samplePlan [] (some 2) ((sampleRun (some (.handled "disk full"))).take 2)).map (fun s =>
      (s.state.status "g",
        (run step s ((sampleRun (some (.handled "disk full"))).drop 2 ++ [.group (.join none) true])).map fun s' =>
          (s'.state.status "g", startedBy s s')))
      = some (.failed, some (.succeeded, ["g.i0.item", "g.i0.work", "g"])) := by decide
  obtain ⟨s₀, s, h₀, hrun, hval⟩ := reach_observe hobs
  obtain ⟨hfailed, hrest⟩ := Prod.mk.inj hval
  obtain ⟨s', hs', hval⟩ := Option.map_eq_some_iff.mp hrest
  obtain ⟨hsucceeded, hstarted⟩ := Prod.mk.inj hval
  exact ⟨sample_valid, s₀, s, s', h₀, hrun, hfailed, hs', hsucceeded, hstarted⟩

end Crewplane.Scheduler
