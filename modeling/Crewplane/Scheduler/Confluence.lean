import Crewplane.Scheduler.Assignment
/-
# Completeness and confluence of the scheduling loop

For an assignment whose topology events are delivered: every run that follows it
ends, it ends finalised, and the final statuses depend on nothing but the base
plan, the resumed nodes and the assignment.

* `step_following`: a step that follows the assignment keeps `Following`;
* `progress`: such a run never gets stuck before `finalize_execution` returned,
  unless the assignment lets an expansion succeed that the validators reject;
* `no_infinite_run`: the unexpanded groups, the open nodes and the phase go down
  lexicographically;
* `step_below`: any run stays below the final session of any other one, which
  makes the statuses of two final sessions equal (`statuses_eq`).
-/
namespace Crewplane.Scheduler

open Crewplane.Lib Crewplane.Plan

section Step

variable {σ : Assignment} {base : PreflightExecutionPlan} {resumed : List NodeId} {s s' : Session}

theorem follows_topologyDelivered {a : Action} (hσ : σ.EventsDelivered) (hstep : StepTo s a s') (ha : Follows σ s a) :
    TopologyDelivered a := by
  cases hstep with
  | leave | enter | noGroup | stop | wait | skip | start | finalize | join | complete => trivial
  | expand groupId inputs publication topologyEvent delivered _ hgroup _ =>
    obtain ⟨-, -, hevent, -, -⟩ := ha groupId hgroup
    rw [hevent, hσ groupId]
    trivial

/-- Along an assignment an expansion can only fail with an exception the loop handles. -/
theorem expandedPlan_fault {plan : PreflightExecutionPlan} (hv : ValidPlan plan) {groupId : NodeId}
    (hmem : groupId ∈ plan.nodeIds) (hforeach : plan.isForeach groupId = true) {fault : Fault}
    (h : expandedPlan plan groupId (σ.expandInputs groupId) ((σ.publication groupId).map .handled) = .error fault) :
    ∃ message, fault = .handled message := by
  obtain ⟨template, htemplate⟩ := template_of_foreach hv hmem hforeach
  unfold expandedPlan at h
  rw [htemplate] at h
  unfold Assignment.expandInputs at h
  split at h
  · contradiction
  · rename_i template' fault' _ hinputs
    split at hinputs
    · cases hinputs
    · cases hinputs
      cases h
      exact ⟨_, rfl⟩
  · split at h
    · cases h
      exact ⟨_, rfl⟩
    · rename_i hpub
      cases hp : σ.publication groupId with
      | none => rw [hp] at hpub; cases hpub
      | some message =>
        rw [hp] at hpub
        cases hpub
        cases h
        exact ⟨message, rfl⟩
    · cases h

theorem finalizeCompletedNodes_expected {results : Dict NodeId TaskResult} {ids : List NodeId}
    (h : ∀ id ∈ ids, results.getItem id = σ.taskResult id) (s : Session) :
    (finalizeCompletedNodes results ids (s, false)).2 = false := by
  induction ids generalizing s with
  | nil => rfl
  | cons id ids ih =>
    have hone : (finalizeCompletedNode id (results.getItem id) s).2 = false := by
      rw [h id List.mem_cons_self]
      unfold Assignment.taskResult
      split <;> rfl
    simp only [finalizeCompletedNodes, hone, Bool.false_or]
    exact ih (fun x hx => h x (List.mem_cons_of_mem id hx)) _

/-- A group settled by a handled exception, or by none. -/
theorem settleGroup_following {t : Session} {groupId : NodeId} {fault : Option String}
    (h : Following σ base resumed s) (hinv : SessionInv (settleGroup t groupId (fault.map .handled) true))
    (hplan : t.plan = s.plan) (hstatus : ∀ x, t.state.status x = s.state.status x)
    (hready : groupId ∈ s.state.ready) (hactive : s.phase.Active)
    (hstarts : ∀ x, x ∈ t.starts ↔
      x ∈ s.starts ∨ (x = groupId ∧ (s.plan.isForeach x = true → x ∈ s.plan.expansions.keys)))
    (hgood : fault = none → Succeeds σ s.plan groupId) (hbad : fault ≠ none → Fails σ s.plan groupId) :
    Following σ base resumed (settleGroup t groupId (fault.map .handled) true) := by
  obtain ⟨fplan, -, -, -, fstarts, fstatus⟩ := settleGroup_frame t groupId (fault.map .handled) true
  have hpending := (h.inv.startAllowed hactive hready).pending
  have hphase : (settleGroup t groupId (fault.map .handled) true).phase = .groups := by
    cases fault <;> rfl
  have hupdate : ∀ x, (settleGroup t groupId (fault.map .handled) true).state.status x
      = if x ∈ [groupId] then settledStatus (fault.map .handled) (t.state.status x) else s.state.status x := by
    intro x
    rw [fstatus, hstatus]
    by_cases hx : groupId = x
    · simp [hx]
    · have hx' : x ≠ groupId := fun e => hx e.symm
      simp [hx, hx']
  refine h.update hinv (fplan.trans hplan) hupdate ?_ ?_ ?_ (phaseOk_of (Or.inr hphase))
  · intro x hx
    rw [List.mem_singleton] at hx
    rw [hx, hpending]
    decide
  · intro x hx
    rw [List.mem_singleton] at hx
    subst hx
    cases fault with
    | none => exact Or.inl ⟨rfl, hgood rfl⟩
    | some message => exact Or.inr (Or.inl ⟨rfl, hbad (by simp)⟩)
  · intro x
    rw [fstarts, hstarts]
    simp

/-- A group whose graph was installed and announced. -/
theorem installed_following {groupId : NodeId} {effective : PreflightExecutionPlan} {template : CompiledForeach}
    {evidence : ExpansionEvidence} {group : PreflightExecutionNode} {st : WorkflowExecutionState}
    (hb : ValidPlan base) (h : Following σ base resumed s)
    (hinv : SessionInv (installedSession s groupId effective st)) (hphase : s.phase = .groups)
    (hid : group.id = groupId) (hready : groupId ∈ s.state.ready)
    (hx : Expands s.plan effective template (expansionState s.plan template evidence) group)
    (hin : σ.inputs groupId = .ok evidence) (hpub : σ.publication groupId = none)
    (hstatus : ∀ x, st.status x = s.state.status x) :
    Following σ base resumed (installedSession s groupId effective st) := by
  have hactive : s.phase.Active := by rw [hphase]; trivial
  have hcore := h.inv.inv hactive
  have hpending := (h.inv.startAllowed hactive hready).pending
  have hstarts : (installedSession s groupId effective st).starts = s.starts := by
    simp [installedSession, Session.starts, startsOf]
  -- a node with an outcome is old and is not the group, so nothing it is judged by has changed
  have hkeys : ∀ x, s.state.status x ≠ .pending →
      effective.isForeach x = s.plan.isForeach x ∧
        (x ∈ effective.expansions.keys ↔ x ∈ s.plan.expansions.keys) := by
    intro x hne
    have hxg : x ≠ group.id := fun e => hne (by rw [e, hid]; exact hpending)
    refine ⟨hx.isForeach_old h.inv.valid (hcore.mem_of_status hne), ?_⟩
    rw [hx.expansions, Dict.mem_keys_setItem]
    exact ⟨fun hk => hk.resolve_left hxg, Or.inr⟩
  subst hid
  refine ⟨hinv, h.grown.expand hb hx hin hpub, ?_, ?_, ?_, ?_, ?_, phaseOk_of (Or.inr hphase)⟩
  · intro x hr
    exact (hstatus x).trans (h.completed x hr)
  · intro x hr hs
    have hs' : s.state.status x = .succeeded := (hstatus x).symm.trans hs
    obtain ⟨hf, hk⟩ := hkeys x (by rw [hs']; decide)
    have hold := h.succeeded x hr hs'
    simpa only [installedSession, Succeeds, hf, hk] using hold
  · intro x hs
    have hs' : s.state.status x = .failed := (hstatus x).symm.trans hs
    obtain ⟨hf, hk⟩ := hkeys x (by rw [hs']; decide)
    have hold := h.failed x hs'
    simpa only [installedSession, Fails, hf, hk] using hold
  · intro x hs
    have hs' : s.state.status x = .running := (hstatus x).symm.trans hs
    rw [show (installedSession s group.id effective st).plan = effective from rfl, (hkeys x (by rw [hs']; decide)).1]
    exact h.running x hs'
  · intro x
    rw [hstarts, h.ran, show (installedSession s group.id effective st).state.status x = s.state.status x from hstatus x]
    by_cases hne : s.state.status x = .pending
    · rw [hne]
      simp [Settled]
    · obtain ⟨hf, hk⟩ := hkeys x hne
      simp only [installedSession, hf, hk]

theorem step_following (hb : ValidPlan base) (hσ : σ.EventsDelivered)
    (hlimit : ∀ k ∈ s.maxConcurrentNodes, 1 ≤ k) (h : Following σ base resumed s) (hnext : Next σ s s') :
    Following σ base resumed s' := by
  obtain ⟨a, hstep, ha⟩ := hnext
  have hto := stepTo_of_step hstep
  have hinv := step_sessionInv h.inv (follows_topologyDelivered hσ hto ha) hstep
  cases hto with
  | leave hphase hempty =>
    exact h.same hinv rfl (fun _ => Or.inl rfl) rfl (phaseOk_finalize rfl hempty)
  | enter => exact h.same hinv rfl (fun _ => Or.inl rfl) rfl (phaseOk_of (Or.inr rfl))
  | noGroup hphase hnone =>
    refine h.same hinv rfl (fun _ => Or.inl rfl) rfl (phaseOk_starts rfl fun id hid => ?_)
    simpa using List.find?_eq_none.mp hnone id hid
  | stop hphase hready hrun =>
    refine h.same hinv rfl (fun _ => Or.inl rfl) rfl (phaseOk_finalize rfl ⟨?_, hrun⟩)
    -- with nothing running the limit cannot be reached
    refine hready.resolve_right fun hreached => ?_
    cases hk : s.maxConcurrentNodes with
    | none => simp [limitReached, hk] at hreached
    | some k =>
      have := hlimit k hk
      simp [limitReached, hk, hrun] at hreached
      omega
  | wait hphase _ hrun =>
    exact h.same hinv rfl (fun _ => Or.inl rfl) rfl (phaseOk_consume rfl hrun)
  | skip id ready hphase hready hstatus =>
    have hactive : s.phase.Active := by rw [hphase]; trivial
    exact absurd (h.inv.startAllowed hactive (hready ▸ List.mem_cons_self)).pending hstatus
  | start id ready hphase hready _ hstatus =>
    have hgroup := h.phase.noGroups hphase
    have hstarts : (startNode s id ready).starts = s.starts ++ [id] := startsOf_started s.log id
    have hplain : s.plan.isForeach id = false := hgroup id (hready ▸ List.mem_cons_self)
    have hupdate : ∀ x, (startNode s id ready).state.status x
        = if x ∈ [id] then .running else s.state.status x := by
      intro x
      by_cases hx : id = x
      · simp [startNode, WorkflowExecutionState.status, hx]
      · have hx' : x ≠ id := fun e => hx e.symm
        simp [startNode, WorkflowExecutionState.status, hx, hx']
    refine h.update hinv rfl hupdate ?_ ?_ ?_ (phaseOk_starts hphase fun x hx => ?_)
    · intro x hx
      rw [List.mem_singleton] at hx
      rw [hx, WorkflowExecutionState.status, hstatus]
      decide
    · intro x hx
      rw [List.mem_singleton] at hx
      exact Or.inr (Or.inr ⟨rfl, hx ▸ hplain⟩)
    · intro x
      rw [hstarts, List.mem_append, List.mem_singleton]
      by_cases hx : x = id
      · subst hx
        simp [hplain]
      · simp [hx]
    · exact hgroup x (by rw [hready]; exact List.mem_cons_of_mem id hx)
  | finalize hphase =>
    have hcore := h.inv.inv (by rw [hphase]; trivial)
    obtain ⟨hready, hrun⟩ := h.phase.idle hphase
    refine h.same hinv rfl (fun x => ?_) (finalizeExecution_starts s)
      (phaseOk_done rfl (finalizeExecution_final hcore hready hrun))
    · rw [show (finalizeExecution s).state.status x = (markBlockedNodes s.state).status x from rfl,
        hcore.status_markBlockedNodes]
      split
      · rename_i hp
        exact Or.inr ⟨hp.2, rfl⟩
      · exact Or.inl rfl
  | expand groupId inputs publication topologyEvent delivered hphase hgroup hnew =>
    obtain ⟨rfl, rfl, hevent, rfl, haccept⟩ := ha groupId hgroup
    rw [hσ groupId] at hevent
    subst hevent
    have hactive : s.phase.Active := by rw [hphase]; trivial
    obtain ⟨hmem, hforeach⟩ := readyGroup?_mem hgroup
    have hcore := h.inv.inv hactive
    rcases runExpansion_cases hcore hmem (σ.expandInputs groupId) ((σ.publication groupId).map .handled) none true with
      ⟨fault, hfault, heq⟩ | ⟨effective, template, evidence, group, st, hin, hpub, hid, -, hx, -, hstatus, -, heq⟩
    · have hknown := ((hcore.ready groupId).mp hmem).1
      obtain ⟨message, rfl⟩ := expandedPlan_fault h.inv.valid hknown hforeach hfault
      have hbad : ¬ σ.ExpansionSucceeds groupId := by
        intro hgood
        obtain ⟨effective, hok⟩ := haccept hgood
        rw [hfault] at hok
        cases hok
      simp only [Option.map_none] at hinv ⊢
      rw [heq] at hinv ⊢
      refine settleGroup_following h (show SessionInv (settleGroup (takeGroup s groupId) groupId
        ((some message).map .handled) true) from hinv) rfl (fun _ => rfl) hmem hactive ?_ (by simp) ?_
      · intro x
        refine ⟨Or.inl, fun hx => hx.resolve_right fun hg => ?_⟩
        obtain ⟨rfl, hg⟩ := hg
        exact hnew (hg hforeach)
      · intro _
        simp [Fails, hforeach, hnew, hbad]
    · simp only [Option.map_none] at hinv ⊢
      rw [heq] at hinv ⊢
      have hin' : σ.inputs groupId = .ok evidence := by
        unfold Assignment.expandInputs at hin
        split at hin
        · rename_i evidence' he
          cases hin
          exact he
        · cases hin
      exact installed_following hb h hinv hphase hid hmem hx hin' (by simpa using hpub) hstatus
  | join groupId result delivered hphase hgroup hexpanded =>
    obtain ⟨rfl, rfl⟩ := ha groupId hgroup
    have hactive : s.phase.Active := by rw [hphase]; trivial
    obtain ⟨hmem, hforeach⟩ := readyGroup?_mem hgroup
    refine settleGroup_following (t := { takeGroup s groupId with log := s.log ++ [.started groupId] }) h hinv rfl
      (fun _ => rfl) hmem hactive ?_ ?_ ?_
    · intro x
      rw [Session.starts, startsOf_started, List.mem_append, List.mem_singleton]
      refine or_congr Iff.rfl ⟨fun hx => ⟨hx, fun _ => hx ▸ hexpanded⟩, fun hx => hx.1⟩
    · intro hjoin
      simp [Succeeds, hforeach, hexpanded, hjoin]
    · intro hjoin
      simp [Fails, hforeach, hexpanded, hjoin]
  | complete results hphase hne consumed raised hfold =>
    have hcore := h.inv.inv (by rw [hphase]; trivial)
    have hids : (completedNodeIds s.state results).Nodup := nodup_sortByOrder.mpr (hcore.runningNodup.filter _)
    have hrunning : ∀ x ∈ completedNodeIds s.state results, s.state.status x = .running := fun x hx =>
      (hcore.running x).mp (List.mem_of_mem_filter (mem_sortByOrder.mp hx))
    have hraised := finalizeCompletedNodes_expected ha s
    obtain ⟨fplan, -, flog, -⟩ := finalizeCompletedNodes_frame results (completedNodeIds s.state results) s false
    have fstatus := finalizeCompletedNodes_status results hids s false
    rw [hfold] at hraised fplan flog
    simp only [hfold] at fstatus
    cases hraised
    refine h.update (v := fun x => (results.getItem x).outcome.status) hinv fplan fstatus ?_ ?_ ?_ (phaseOk_of (Or.inl rfl))
    · intro x hx
      rw [hrunning x hx]
      decide
    · intro x hx
      have hplain := h.running x (hrunning x hx)
      rw [ha x hx]
      unfold Assignment.taskResult
      cases htask : σ.task x with
      | none => exact Or.inl ⟨rfl, by simp [Succeeds, hplain, htask]⟩
      | some message => exact Or.inr (Or.inl ⟨rfl, by simp [Fails, hplain, htask]⟩)
    · intro x
      have hstarts : Session.starts { consumed with phase := if false = true then .raised else .head } = s.starts := by
        rw [Session.starts, flog, startsOf_entries]
        rfl
      rw [hstarts]
      refine ⟨Or.inl, ?_⟩
      rintro (hx | ⟨hx, -⟩)
      · exact hx
      -- what completes was running, so it was started by this run
      rw [h.ran]
      have hplain := h.running x (hrunning x hx)
      refine ⟨fun hr => ?_, by rw [hrunning x hx]; trivial, by simp [hplain]⟩
      have := h.completed x hr
      rw [hrunning x hx] at this
      cases this

end Step

/-! ## Reachable sessions -/

/-- `s` is reached from `s₀` by moves that follow `σ`. -/
def Reaches (σ : Assignment) : Session → Session → Prop := Relation.ReflTransGen (Next σ)

section Reaches

variable {σ : Assignment} {plan : PreflightExecutionPlan} {resumed : List NodeId} {limit : Option Nat} {s₀ s : Session}

theorem initial_following (σ : Assignment) (hplan : validateExecutionPlanSemantics plan = .ok ())
    (hclosed : ∀ id ∈ resumed, ∀ d ∈ plan.deps id, d ∈ resumed) (h₀ : initialSession plan resumed limit = .ok s₀) :
    Following σ plan resumed s₀ := by
  obtain ⟨hp, -, hinv, hstatus⟩ := initialSession_inv hplan hclosed h₀
  obtain ⟨st, -, hs⟩ := (do_eq_ok _ _ _).mp h₀
  cases hs
  refine ⟨hinv, grown_refl σ hinv.valid, ?_, ?_, ?_, ?_, ?_, phaseOk_of (Or.inl rfl)⟩
  · intro id hid
    rw [hstatus, if_pos hid]
  · intro id hid hs
    rw [hstatus, if_neg hid] at hs
    cases hs
  · intro id hs
    rw [hstatus] at hs
    split at hs <;> cases hs
  · intro id hs
    rw [hstatus] at hs
    split at hs <;> cases hs
  · intro id
    rw [hstatus]
    by_cases hid : id ∈ resumed <;> simp [Session.starts, startsOf, hid, Settled]

theorem reaches_limit (h : Reaches σ s₀ s) : s.maxConcurrentNodes = s₀.maxConcurrentNodes := by
  induction h with
  | refl => rfl
  | tail _ hnext ih =>
    obtain ⟨a, hstep, -⟩ := hnext
    exact (step_starts_ready hstep).1.trans ih

theorem reaches_following (hplan : validateExecutionPlanSemantics plan = .ok ())
    (hclosed : ∀ id ∈ resumed, ∀ d ∈ plan.deps id, d ∈ resumed) (h₀ : initialSession plan resumed limit = .ok s₀)
    (hσ : σ.EventsDelivered) (hlimit : ∀ k ∈ limit, 1 ≤ k) (h : Reaches σ s₀ s) : Following σ plan resumed s := by
  have hmax : s₀.maxConcurrentNodes = limit := (initialSession_inv hplan hclosed h₀).2.1
  induction h with
  | refl => exact initial_following σ hplan hclosed h₀
  | tail hreach hnext ih =>
    refine step_following (validPlan_of_ok hplan) hσ ?_ ih hnext
    rw [reaches_limit hreach, hmax]
    exact hlimit

end Reaches

/-! ## Progress -/

/-- The assignment lets the ready group expand, but its evidence does not fit
the template or the validators reject the effective plan. -/
def Rejected (σ : Assignment) (s : Session) : Prop :=
  ∃ groupId template evidence, readyGroup? s = some groupId ∧ s.plan.template? groupId = some template ∧
    σ.inputs groupId = .ok evidence ∧
    (evidenceFits template evidence = false ∨
      (σ.publication groupId = none ∧ ∃ fault, expandedPlan s.plan groupId (.ok evidence) none = .error fault))

theorem next_of_enabled {σ : Assignment} {s : Session} {a : Action} (h : (step s a).isSome = true)
    (ha : Follows σ s a) : ∃ s', Next σ s s' := by
  obtain ⟨s', hs'⟩ := Option.isSome_iff_exists.mp h
  exact ⟨s', a, hs', ha⟩

/-- A following run that has not been finalised can go on. -/
theorem progress {σ : Assignment} {base : PreflightExecutionPlan} {resumed : List NodeId} {s : Session}
    (h : Following σ base resumed s) (hnot : ∀ error, s.phase ≠ .done error) (haccept : ¬ Rejected σ s) :
    ∃ s', Next σ s s' := by
  cases hphase : s.phase with
  | head => exact next_of_enabled (a := .tick) (by simp [step, hphase]) trivial
  | starts => exact next_of_enabled (a := .tick) (by simp [step, hphase]) trivial
  | finalize => exact next_of_enabled (a := .tick) (by simp [step, hphase]) trivial
  | done error => exact absurd hphase (hnot error)
  | raised => exact absurd hphase h.phase.live
  | groups =>
    cases hgroup : readyGroup? s with
    | none => exact next_of_enabled (a := .tick) (by simp [step, hphase, hgroup]) trivial
    | some groupId =>
      by_cases hexp : groupId ∈ s.plan.expansions.keys
      · refine next_of_enabled (a := .group (.join ((σ.join groupId).map .handled)) true) ?_ ?_
        · simp [step, hphase, hgroup, runReadyGroup, hexp]
        · intro g hg
          rw [hgroup] at hg
          cases hg
          exact ⟨rfl, rfl⟩
      · have hfits : ∀ evidence ∈ (σ.expandInputs groupId).toOption, ∀ template ∈ s.plan.template? groupId,
            evidenceFits template evidence = true := by
          intro evidence hev template htemplate
          have hin : σ.inputs groupId = .ok evidence := by
            unfold Assignment.expandInputs at hev
            split at hev
            · rename_i e he
              have : e = evidence := by simpa [Except.toOption] using hev
              rw [he, this]
            · simp [Except.toOption] at hev
          by_contra hno
          exact haccept ⟨groupId, template, evidence, hgroup, htemplate, hin, Or.inl (by simpa using hno)⟩
        refine next_of_enabled (a := .group (.expand (σ.expandInputs groupId) ((σ.publication groupId).map .handled)
          ((σ.topologyEvent groupId).map .handled)) true) ?_ ?_
        · simp only [step, hphase, hgroup, runReadyGroup, if_neg hexp, if_pos hfits, Option.isSome_some]
        · intro g hg
          rw [hgroup] at hg
          cases hg
          refine ⟨rfl, rfl, rfl, rfl, ?_⟩
          rintro ⟨⟨evidence, hin⟩, hpub⟩
          have hinputs : σ.expandInputs groupId = .ok evidence := by simp [Assignment.expandInputs, hin]
          rw [hinputs, hpub]
          cases hplan : expandedPlan s.plan groupId (.ok evidence) (none.map Fault.handled) with
          | ok effective => exact ⟨effective, rfl⟩
          | error fault =>
            have hmem := readyGroup?_mem hgroup
            have hinv := h.inv.inv (by rw [hphase]; trivial)
            obtain ⟨template, ht⟩ := template_of_foreach h.inv.valid ((hinv.ready groupId).mp hmem.1).1 hmem.2
            exact absurd ⟨groupId, template, evidence, hgroup, ht, hin, Or.inr ⟨hpub, fault, hplan⟩⟩ haccept
  | consume =>
    -- let everything that runs complete
    have hall : ∀ x, x ∈ completedNodeIds s.state (Dict.ofKeys s.state.running σ.taskResult) ↔ x ∈ s.state.running := by
      intro x
      simp [completedNodeIds, mem_sortByOrder]
    have hne : completedNodeIds s.state (Dict.ofKeys s.state.running σ.taskResult) ≠ [] := by
      obtain ⟨x, hx⟩ := List.exists_mem_of_ne_nil _ (h.phase.busy hphase)
      exact List.ne_nil_of_mem ((hall x).mpr hx)
    refine next_of_enabled (a := .complete (Dict.ofKeys s.state.running σ.taskResult)) ?_ ?_
    · simp only [step, hphase, if_neg hne, Option.isSome_some]
    · intro x hx
      exact Dict.getItem_ofKeys _ _ ((hall x).mp hx)

/-! ## Termination -/

/-- How much a status still has to go through. -/
def statusWork : ExecutionStatus → Nat
  | .pending => 2
  | .running => 1
  | _ => 0

def openWork (s : Session) : Nat := (s.plan.nodeIds.map fun id => statusWork (s.state.status id)).sum

def openGroups (s : Session) : Nat :=
  (s.plan.foreachTemplates.filter fun template => template.groupId ∉ s.plan.expansions.keys).length

def phaseRank : Phase → Nat
  | .head => 5
  | .groups => 4
  | .starts => 3
  | .consume => 2
  | .finalize => 1
  | .done _ | .raised => 0

/-- Unexpanded groups, then open work, then the phase. -/
def runMeasure (s : Session) : ℕ ×ₗ ℕ ×ₗ ℕ := toLex (openGroups s, toLex (openWork s, phaseRank s.phase))

theorem runMeasure_lt_phase {s s' : Session} (hg : openGroups s' = openGroups s) (hw : openWork s' ≤ openWork s)
    (hp : phaseRank s'.phase < phaseRank s.phase) : runMeasure s' < runMeasure s := by
  refine Prod.Lex.toLex_lt_toLex.mpr (Or.inr ⟨hg, Prod.Lex.toLex_lt_toLex.mpr ?_⟩)
  rcases Nat.lt_or_eq_of_le hw with hlt | heq
  · exact Or.inl hlt
  · exact Or.inr ⟨heq, hp⟩

theorem runMeasure_lt_work {s s' : Session} (hg : openGroups s' = openGroups s) (hw : openWork s' < openWork s) :
    runMeasure s' < runMeasure s :=
  Prod.Lex.toLex_lt_toLex.mpr (Or.inr ⟨hg, Prod.Lex.toLex_lt_toLex.mpr (Or.inl hw)⟩)

theorem runMeasure_lt_groups {s s' : Session} (hg : openGroups s' < openGroups s) : runMeasure s' < runMeasure s :=
  Prod.Lex.toLex_lt_toLex.mpr (Or.inl hg)

/-- Settling or starting one node of the plan is progress. -/
theorem openWork_lt {s s' : Session} (hplan : s'.plan = s.plan)
    (hle : ∀ x, statusWork (s'.state.status x) ≤ statusWork (s.state.status x)) {id : NodeId}
    (hid : id ∈ s.plan.nodeIds) (hlt : statusWork (s'.state.status id) < statusWork (s.state.status id)) :
    openWork s' < openWork s := by
  unfold openWork
  rw [hplan]
  exact List.sum_lt_sum _ _ (fun x _ => hle x) ⟨id, hid, hlt⟩

theorem openGroups_of_plan {s s' : Session} (h : s'.plan = s.plan) : openGroups s' = openGroups s := by
  rw [openGroups, openGroups, h]

/-- A group settled out of `ready`. -/
theorem settleGroup_decreases {s t : Session} {groupId : NodeId} {fault : Option Fault} {delivered : Bool}
    (hplan : t.plan = s.plan) (hstatus : ∀ x, t.state.status x = s.state.status x)
    (hid : groupId ∈ s.plan.nodeIds) (hpending : s.state.status groupId = .pending)
    (hsettled : settledStatus fault .pending ≠ .pending) :
    runMeasure (settleGroup t groupId fault delivered) < runMeasure s := by
  obtain ⟨fplan, -, -, -, -, fstatus⟩ := settleGroup_frame t groupId fault delivered
  have hzero : statusWork (settledStatus fault .pending) = 0 := by
    unfold settledStatus at hsettled ⊢
    split at hsettled
    · rfl
    · rfl
    · exact absurd rfl hsettled
  have hwork : ∀ x, statusWork ((settleGroup t groupId fault delivered).state.status x)
      = if groupId = x then 0 else statusWork (s.state.status x) := by
    intro x
    rw [fstatus, hstatus]
    by_cases hx : groupId = x
    · subst hx
      simp [hpending, hzero]
    · simp [hx]
  refine runMeasure_lt_work (openGroups_of_plan (fplan.trans hplan)) (openWork_lt (fplan.trans hplan) ?_ hid ?_)
  · intro x
    rw [hwork]
    split <;> omega
  · rw [hwork, if_pos rfl, hpending]
    decide

theorem next_decreases {σ : Assignment} {base : PreflightExecutionPlan} {resumed : List NodeId} {s s' : Session}
    (hσ : σ.EventsDelivered) (h : Following σ base resumed s) (hnext : Next σ s s') :
    runMeasure s' < runMeasure s := by
  obtain ⟨a, hstep, ha⟩ := hnext
  cases stepTo_of_step hstep with
  | leave hphase => exact runMeasure_lt_phase rfl le_rfl (by rw [hphase]; simp [phaseRank])
  | enter hphase => exact runMeasure_lt_phase rfl le_rfl (by rw [hphase]; simp [phaseRank])
  | noGroup hphase => exact runMeasure_lt_phase rfl le_rfl (by rw [hphase]; simp [phaseRank])
  | stop hphase => exact runMeasure_lt_phase rfl le_rfl (by rw [hphase]; simp [phaseRank])
  | wait hphase => exact runMeasure_lt_phase rfl le_rfl (by rw [hphase]; simp [phaseRank])
  | skip id ready hphase hready hstatus =>
    have hactive : s.phase.Active := by rw [hphase]; trivial
    exact absurd (h.inv.startAllowed hactive (hready ▸ List.mem_cons_self)).pending hstatus
  | start id ready hphase hready _ hstatus =>
    have hinv := h.inv.inv (by rw [hphase]; trivial)
    have hid := ((hinv.ready id).mp (hready ▸ List.mem_cons_self)).1
    have hwork : ∀ x, statusWork ((startNode s id ready).state.status x)
        = if id = x then 1 else statusWork (s.state.status x) := by
      intro x
      by_cases hx : id = x <;> simp [startNode, WorkflowExecutionState.status, hx, statusWork]
    refine runMeasure_lt_work rfl (openWork_lt rfl (fun x => ?_) hid ?_)
    · rw [hwork]
      split
      · rename_i hx
        subst hx
        simp [WorkflowExecutionState.status, hstatus, statusWork]
      · exact le_rfl
    · rw [hwork, if_pos rfl]
      simp [WorkflowExecutionState.status, hstatus, statusWork]
  | finalize hphase =>
    have hinv := h.inv.inv (by rw [hphase]; trivial)
    refine runMeasure_lt_phase rfl ?_ (by rw [hphase]; simp [finalizeExecution, phaseRank])
    refine List.sum_le_sum fun x _ => ?_
    rw [show (finalizeExecution s).state.status x = (markBlockedNodes s.state).status x from rfl,
      hinv.status_markBlockedNodes]
    split
    · exact Nat.zero_le _
    · exact le_rfl
  | expand groupId inputs publication topologyEvent delivered hphase hgroup hnew =>
    obtain ⟨rfl, rfl, hevent, rfl, -⟩ := ha groupId hgroup
    rw [hσ groupId] at hevent
    subst hevent
    have hinv := h.inv.inv (by rw [hphase]; trivial)
    obtain ⟨hmem, hforeach⟩ := readyGroup?_mem hgroup
    obtain ⟨hid, hpending, -⟩ := (hinv.ready groupId).mp hmem
    rcases runExpansion_cases hinv hmem (σ.expandInputs groupId) ((σ.publication groupId).map .handled) none true with
      ⟨fault, hfault, heq⟩ | ⟨effective, template, evidence, group, st, -, -, hgid, ht, hx, -, -, -, heq⟩
    · obtain ⟨message, rfl⟩ := expandedPlan_fault h.inv.valid hid hforeach hfault
      simp only [Option.map_none]
      rw [heq]
      exact settleGroup_decreases rfl (fun _ => rfl) hid hpending (by simp [settledStatus])
    · simp only [Option.map_none]
      rw [heq]
      refine runMeasure_lt_groups ?_
      have hmem_template := (template?_eq_some h.inv.valid).mp ht
      rw [openGroups, openGroups, show (installedSession s groupId effective st).plan = effective from rfl,
        hx.templates, hx.expansions]
      refine length_filter_lt ?_ hmem_template.1 ?_ ?_
      · intro t ht
        simp only [decide_eq_true_eq, Dict.mem_keys_setItem, not_or] at ht ⊢
        exact ht.2
      · simpa [hmem_template.2] using hnew
      · simp [Dict.mem_keys_setItem, hmem_template.2, hgid]
  | join groupId result delivered hphase hgroup _ =>
    obtain ⟨rfl, rfl⟩ := ha groupId hgroup
    have hinv := h.inv.inv (by rw [hphase]; trivial)
    obtain ⟨hid, hpending, -⟩ := (hinv.ready groupId).mp (readyGroup?_mem hgroup).1
    refine settleGroup_decreases (t := { takeGroup s groupId with log := s.log ++ [.started groupId] }) rfl
      (fun _ => rfl) hid hpending ?_
    cases σ.join groupId <;> simp [settledStatus]
  | complete results hphase hne consumed raised hfold =>
    have hinv := h.inv.inv (by rw [hphase]; trivial)
    have hids : (completedNodeIds s.state results).Nodup := nodup_sortByOrder.mpr (hinv.runningNodup.filter _)
    have hrunning : ∀ x ∈ completedNodeIds s.state results, s.state.status x = .running := fun x hx =>
      (hinv.running x).mp (List.mem_of_mem_filter (mem_sortByOrder.mp hx))
    have fplan := (finalizeCompletedNodes_frame results (completedNodeIds s.state results) s false).1
    have fstatus := finalizeCompletedNodes_status results hids s false
    rw [hfold] at fplan
    simp only [hfold] at fstatus
    have hzero : ∀ outcome : TaskOutcome, statusWork outcome.status = 0 := by
      intro outcome
      cases outcome <;> rfl
    obtain ⟨x, hx⟩ := List.exists_mem_of_ne_nil _ hne
    have hxid : x ∈ s.plan.nodeIds := hinv.mem_of_status (by rw [hrunning x hx]; decide)
    refine runMeasure_lt_work (openGroups_of_plan fplan) (openWork_lt fplan (fun y => ?_) hxid ?_)
    · rw [show (({ consumed with phase := if raised = true then .raised else .head } : Session).state.status y)
        = consumed.state.status y from rfl, fstatus y]
      split
      · rw [hzero]
        exact Nat.zero_le _
      · exact le_rfl
    · rw [show (({ consumed with phase := if raised = true then .raised else .head } : Session).state.status x)
        = consumed.state.status x from rfl, fstatus x, if_pos hx, hzero, hrunning x hx]
      decide

/-- No run that follows the assignment goes on forever. -/
theorem no_infinite_run {σ : Assignment} {plan : PreflightExecutionPlan} {resumed : List NodeId} {limit : Option Nat}
    {s₀ : Session} (hplan : validateExecutionPlanSemantics plan = .ok ())
    (hclosed : ∀ id ∈ resumed, ∀ d ∈ plan.deps id, d ∈ resumed) (h₀ : initialSession plan resumed limit = .ok s₀)
    (hσ : σ.EventsDelivered) (hlimit : ∀ k ∈ limit, 1 ≤ k) :
    ¬ ∃ f : ℕ → Session, f 0 = s₀ ∧ ∀ n, Next σ (f n) (f (n + 1)) := by
  rintro ⟨f, hf₀, hf⟩
  have hreach : ∀ n, Reaches σ s₀ (f n) := by
    intro n
    induction n with
    | zero => rw [hf₀]; exact .refl
    | succ n ih => exact ih.tail (hf n)
  have hdown : ∀ n, runMeasure (f (n + 1)) < runMeasure (f n) := fun n =>
    next_decreases hσ (reaches_following hplan hclosed h₀ hσ hlimit (hreach n)) (hf n)
  have hwf : WellFounded fun a b : ℕ ×ₗ ℕ ×ₗ ℕ => a < b := wellFounded_lt
  exact (wellFounded_iff_isEmpty_descending_chain.mp hwf).false ⟨fun n => runMeasure (f n), hdown⟩

/-! ## Two runs of one assignment -/

section Simulation

variable {σ : Assignment} {base : PreflightExecutionPlan} {resumed : List NodeId} {s s' final : Session}
  {error : Option String}

/-- `s` has settled nothing that `final` did not settle the same way, and expanded no group `final` did not. -/
structure Below (base : PreflightExecutionPlan) (s final : Session) : Prop where
  fresh : ∀ id, Fresh base s.plan id → Fresh base final.plan id
  succeeded : ∀ id, s.state.status id = .succeeded → final.state.status id = .succeeded
  failed : ∀ id, s.state.status id = .failed → final.state.status id = .failed

/-- In a finalised session a node with all its dependencies succeeded did what the assignment says. -/
theorem final_status (hF : Following σ base resumed final) (hdone : final.phase = .done error) {id : NodeId}
    (hid : id ∈ final.plan.nodeIds) (hnew : id ∉ resumed)
    (hdeps : ∀ d ∈ final.plan.deps id, final.state.status d = .succeeded) :
    (final.state.status id = .succeeded ∧ Succeeds σ final.plan id) ∨
      (final.state.status id = .failed ∧ Fails σ final.plan id) := by
  have hfinal := hF.phase.done error hdone
  rcases hfinal.total id hid with hs | hf | hb
  · exact Or.inl ⟨hs, hF.succeeded id hnew hs⟩
  · exact Or.inr ⟨hf, hF.failed id hf⟩
  · obtain ⟨d, hd, hne⟩ := (hfinal.blocked id hid).mp hb
    exact absurd (hdeps d hd) hne

/-- Records of the smaller plan are in the larger one, except those of groups only the larger one expanded. -/
theorem record_transfer (hs : Grown σ base s.plan) (hF : Grown σ base final.plan) (hbelow : Below base s final)
    (hb : ValidPlan base) {node : PreflightExecutionNode} (hn : node ∈ s.plan.nodes)
    (hcase : node.mode ≠ .foreach ∨ node.id ∈ s.plan.expansions.keys ∨ ¬ Fresh base final.plan node.id) :
    node ∈ final.plan.nodes := by
  rcases (hs.nodes node).mp hn with ⟨hbase, hnot⟩ | ⟨id, hid, hadd⟩
  · refine (hF.nodes node).mpr (Or.inl ⟨hbase, ?_⟩)
    rcases hcase with hmode | hkey | hfresh
    · exact fun hf => hmode ((isForeach_iff hb.graph hbase).mp (hF.fresh node.id hf).1)
    · -- stored before the run, or expanded by it: the second is excluded
      exact fun hf => hnot ⟨hkey, hf.2⟩
    · exact hfresh
  · exact (hF.nodes node).mpr (Or.inr ⟨id, hbelow.fresh id hid, hadd⟩)

/-- The graphs agree at a common record. -/
theorem deps_transfer (hs : ValidGraph s.plan) (hF : ValidGraph final.plan) {node : PreflightExecutionNode}
    (hn : node ∈ s.plan.nodes) (hn' : node ∈ final.plan.nodes) {d : NodeId} :
    d ∈ final.plan.deps node.id ↔ d ∈ s.plan.deps node.id := by
  rw [mem_deps hF hn', mem_deps hs hn]

/-- Only an enabled or running node is settled by a step. -/
theorem step_settles {a : Action} (h : SessionInv s) (ha : TopologyDelivered a) (hstep : step s a = some s')
    {id : NodeId} (hne : s'.state.status id ≠ s.state.status id) (hset : Settled (s'.state.status id)) :
    s'.plan = s.plan ∧ s.state.status id ≠ .succeeded ∧ id ∈ s.plan.nodeIds ∧
      ∀ d ∈ s.plan.deps id, s.state.status d = .succeeded := by
  have hready : s.phase.Active → id ∈ s.state.ready → s.state.status id ≠ .succeeded ∧ id ∈ s.plan.nodeIds ∧
      ∀ d ∈ s.plan.deps id, s.state.status d = .succeeded := by
    intro hactive hid
    obtain ⟨hknown, hpending, hdeps⟩ := ((h.inv hactive).ready id).mp hid
    exact ⟨by rw [hpending]; decide, hknown, hdeps⟩
  cases stepTo_of_step hstep with
  | leave | enter | noGroup | stop | wait | skip => exact absurd rfl hne
  | start x ready hphase hr _ _ =>
    have hx : x = id := by
      by_contra hx
      exact hne (by simp [startNode, WorkflowExecutionState.status, hx])
    subst hx
    exact ⟨rfl, hready (by rw [hphase]; trivial) (hr ▸ List.mem_cons_self)⟩
  | finalize hphase =>
    have hinv := h.inv (by rw [hphase]; trivial)
    rw [show (finalizeExecution s).state.status id = (markBlockedNodes s.state).status id from rfl,
      hinv.status_markBlockedNodes] at hne hset
    split at hset
    · exact False.elim hset
    · rename_i hp
      rw [if_neg hp] at hne
      exact absurd rfl hne
  | expand groupId inputs publication topologyEvent delivered hphase hgroup _ =>
    have hactive : s.phase.Active := by rw [hphase]; trivial
    have hmem := (readyGroup?_mem hgroup).1
    rcases runExpansion_cases (h.inv hactive) hmem inputs publication topologyEvent delivered with
      ⟨fault, -, heq⟩ | ⟨effective, template, evidence, group, st, -, -, -, -, -, -, hstatus, -, heq⟩
    · rw [heq] at hne ⊢
      obtain ⟨fplan, -, -, -, -, fstatus⟩ := settleGroup_frame (takeGroup s groupId) groupId (some fault) delivered
      have hg : groupId = id := by
        by_contra hg
        exact hne (by rw [fstatus, if_neg hg]; rfl)
      subst hg
      exact ⟨fplan, hready hactive hmem⟩
    · rw [heq] at hne
      rcases ha.event with rfl | ⟨message, rfl⟩ <;> exact absurd (hstatus id) hne
  | join groupId result delivered hphase hgroup _ =>
    obtain ⟨fplan, -, -, -, -, fstatus⟩ :=
      settleGroup_frame { takeGroup s groupId with log := s.log ++ [.started groupId] } groupId result delivered
    have hg : groupId = id := by
      by_contra hg
      exact hne ((fstatus id).trans (if_neg hg))
    subst hg
    exact ⟨fplan, hready (by rw [hphase]; trivial) (readyGroup?_mem hgroup).1⟩
  | complete results hphase _ consumed raised hfold =>
    have hinv := h.inv (by rw [hphase]; trivial)
    have hids : (completedNodeIds s.state results).Nodup := nodup_sortByOrder.mpr (hinv.runningNodup.filter _)
    have fplan := (finalizeCompletedNodes_frame results (completedNodeIds s.state results) s false).1
    have fstatus := finalizeCompletedNodes_status results hids s false id
    rw [hfold] at fplan fstatus
    have hmem : id ∈ completedNodeIds s.state results := by
      by_contra hnot
      rw [if_neg hnot] at fstatus
      exact hne fstatus
    have hrun : s.state.status id = .running := (hinv.running id).mp (List.mem_of_mem_filter (mem_sortByOrder.mp hmem))
    refine ⟨fplan, by rw [hrun]; decide, hinv.mem_of_status (by rw [hrun]; decide), ?_⟩
    exact hinv.settled id (by rw [hrun]; trivial)

/-- An expansion installed by a step is one that `final` installed too: otherwise
the group would be settled there without it, against the assignment. -/
theorem fresh_transfer (hb : ValidPlan base) (hσ : σ.EventsDelivered) (hs : Following σ base resumed s)
    (hF : Following σ base resumed final) (hdone : final.phase = .done error) (hbelow : Below base s final)
    (hnext : Next σ s s') {id : NodeId} (hfresh : Fresh base s'.plan id) : Fresh base final.plan id := by
  by_cases hold : Fresh base s.plan id
  · exact hbelow.fresh id hold
  obtain ⟨a, hstep, ha⟩ := hnext
  have hplan : s'.plan ≠ s.plan := fun he => hold (he ▸ hfresh)
  cases stepTo_of_step hstep with
  | leave | enter | noGroup | stop | wait | skip | start | finalize => exact absurd rfl hplan
  | join groupId result delivered _ _ _ => exact absurd (settleGroup_frame _ groupId result delivered).1 hplan
  | complete results _ _ consumed raised hfold =>
    have fplan := (finalizeCompletedNodes_frame results (completedNodeIds s.state results) s false).1
    rw [hfold] at fplan
    exact absurd fplan hplan
  | expand groupId inputs publication topologyEvent delivered hphase hgroup hnew =>
    obtain ⟨rfl, rfl, hevent, rfl, -⟩ := ha groupId hgroup
    rw [hσ groupId] at hevent
    subst hevent
    have hinv := hs.inv.inv (by rw [hphase]; trivial)
    have hmem := (readyGroup?_mem hgroup).1
    simp only [Option.map_none] at hplan hfresh
    rcases runExpansion_cases hinv hmem (σ.expandInputs groupId) ((σ.publication groupId).map .handled) none true with
      ⟨fault, -, heq⟩ | ⟨effective, template, evidence, group, st, hin, hpub, hgid, -, hx, -, -, -, heq⟩
    · rw [heq] at hplan
      exact absurd (settleGroup_frame _ groupId (some fault) true).1 hplan
    · rw [heq] at hfresh
      have hkeys : id = group.id := by
        have hk := hfresh.1
        rw [show (installedSession s groupId effective st).plan = effective from rfl, hx.expansions,
          Dict.mem_keys_setItem] at hk
        exact hk.resolve_right fun hk => hold ⟨hk, hfresh.2⟩
      subst hkeys hgid
      by_contra hnot
      have hmode : group.mode = .foreach :=
        (isForeach_iff hs.inv.valid.graph hx.group_mem).mp (hx.group_isForeach hs.inv.valid)
      have hrec := record_transfer hs.grown hF.grown hbelow hb hx.group_mem (Or.inr (Or.inr hnot))
      have hforeach := (isForeach_iff hF.inv.valid.graph hrec).mpr hmode
      obtain ⟨-, hpending, hdeps⟩ := (hinv.ready group.id).mp hmem
      have hunexpanded : group.id ∉ final.plan.expansions.keys := fun hk => hnot ⟨hk, hfresh.2⟩
      have hres : group.id ∉ resumed := by
        intro hr
        have := hs.completed _ hr
        rw [hpending] at this
        cases this
      rcases final_status hF hdone (mem_nodeIds.mpr ⟨group, hrec, rfl⟩) hres (fun d hd => hbelow.succeeded d
        (hdeps d ((deps_transfer hs.inv.valid.graph hF.inv.valid.graph hx.group_mem hrec).mp hd))) with
        ⟨-, hgood⟩ | ⟨-, hbad⟩
      · simp only [Succeeds, hforeach, if_true] at hgood
        exact hunexpanded hgood.1
      · simp only [Fails, hforeach, if_true, if_neg hunexpanded] at hbad
        refine hbad ⟨?_, by simpa using hpub⟩
        unfold Assignment.expandInputs at hin
        split at hin
        · rename_i e he
          exact ⟨e, he⟩
        · cases hin

/-- What succeeds in one plan does not fail in another with the same verdict on its expansion. -/
theorem not_fails_of_succeeds {p q : PreflightExecutionPlan} {id : NodeId} (hf : p.isForeach id = q.isForeach id)
    (hk : q.isForeach id = true → (id ∈ p.expansions.keys ↔ id ∈ q.expansions.keys)) (h : Succeeds σ p id) :
    ¬ Fails σ q id := by
  unfold Succeeds at h
  unfold Fails
  rw [hf] at h
  split at h
  · rename_i hq
    rw [if_pos hq, if_pos ((hk hq).mp h.1)]
    exact not_not_intro h.2
  · rename_i hq
    rw [if_neg hq]
    exact not_not_intro h

/-- **Simulation**: a step that follows the assignment stays below every final session. -/
theorem step_below (hb : ValidPlan base) (hσ : σ.EventsDelivered) (hs : Following σ base resumed s)
    (hs' : Following σ base resumed s') (hF : Following σ base resumed final) (hdone : final.phase = .done error)
    (hbelow : Below base s final) (hnext : Next σ s s') : Below base s' final := by
  have hsettled : ∀ id, s'.state.status id ≠ s.state.status id →
      s'.state.status id = .succeeded ∨ s'.state.status id = .failed →
      s'.state.status id = final.state.status id := by
    intro id hne hout
    obtain ⟨a, hstep, ha⟩ := hnext
    have hset : Settled (s'.state.status id) := by rcases hout with ho | ho <;> rw [ho] <;> trivial
    obtain ⟨hplan, hopen, hid, hdeps⟩ := step_settles hs.inv
      (follows_topologyDelivered hσ (stepTo_of_step hstep) ha) hstep hne hset
    have hnew : id ∉ resumed := fun hr => hopen (hs.completed id hr)
    obtain ⟨node, hnode, rfl⟩ := mem_nodeIds.mp hid
    have hcase : node.mode ≠ .foreach ∨ node.id ∈ s.plan.expansions.keys ∨ ¬ Fresh base final.plan node.id := by
      by_cases hmode : node.mode = .foreach
      · refine Or.inr (or_iff_not_imp_left.mpr fun hexp hfresh => ?_)
        have hforeach := (isForeach_iff hs.inv.valid.graph hnode).mpr hmode
        rcases hout with ho | ho
        · have hgood := hs'.succeeded node.id hnew ho
          rw [hplan] at hgood
          simp only [Succeeds, hforeach, if_true] at hgood
          exact hexp hgood.1
        · have hbad := hs'.failed node.id ho
          rw [hplan] at hbad
          simp only [Fails, hforeach, if_true, if_neg hexp] at hbad
          exact hbad (hF.grown.fresh _ hfresh).2
      · exact Or.inl hmode
    have hrec := record_transfer hs.grown hF.grown hbelow hb hnode hcase
    have hforeach : final.plan.isForeach node.id = s.plan.isForeach node.id := by
      rw [Bool.eq_iff_iff, isForeach_iff hF.inv.valid.graph hrec, isForeach_iff hs.inv.valid.graph hnode]
    have hkeys : s.plan.isForeach node.id = true →
        (node.id ∈ final.plan.expansions.keys ↔ node.id ∈ s.plan.expansions.keys) := by
      intro hf
      by_cases hbase : node.id ∈ base.expansions.keys
      · exact iff_of_true (hF.grown.kept _ hbase) (hs.grown.kept _ hbase)
      · refine ⟨fun hk => ?_, fun hk => (hbelow.fresh _ ⟨hk, hbase⟩).1⟩
        rcases hcase with hmode | hexp | hnot
        · exact absurd ((isForeach_iff hs.inv.valid.graph hnode).mp hf) hmode
        · exact hexp
        · exact absurd ⟨hk, hbase⟩ hnot
    have hdepsF : ∀ d ∈ final.plan.deps node.id, final.state.status d = .succeeded := fun d hd =>
      hbelow.succeeded d (hdeps d ((deps_transfer hs.inv.valid.graph hF.inv.valid.graph hnode hrec).mp hd))
    rcases final_status hF hdone (mem_nodeIds.mpr ⟨node, hrec, rfl⟩) hnew hdepsF with ⟨hst, hgood⟩ | ⟨hst, hbad⟩
    · rcases hout with ho | ho
      · exact ho.trans hst.symm
      · have hbad := hs'.failed node.id ho
        rw [hplan] at hbad
        exact absurd hbad (not_fails_of_succeeds hforeach hkeys hgood)
    · rcases hout with ho | ho
      · have hgood := hs'.succeeded node.id hnew ho
        rw [hplan] at hgood
        exact absurd hbad (not_fails_of_succeeds hforeach.symm (fun hf => (hkeys (hforeach ▸ hf)).symm) hgood)
      · exact ho.trans hst.symm
  refine ⟨fun id hfresh => fresh_transfer hb hσ hs hF hdone hbelow hnext hfresh, ?_, ?_⟩
  · intro id ho
    by_cases hsame : s'.state.status id = s.state.status id
    · exact hbelow.succeeded id (hsame ▸ ho)
    · exact (hsettled id hsame (Or.inl ho)).symm.trans ho
  · intro id ho
    by_cases hsame : s'.state.status id = s.state.status id
    · exact hbelow.failed id (hsame ▸ ho)
    · exact (hsettled id hsame (Or.inr ho)).symm.trans ho

/-- A session that settled nothing but the resumed nodes is below every other one. -/
theorem initial_below {limit : Option Nat} {s₀ : Session} (hplan : validateExecutionPlanSemantics base = .ok ())
    (hclosed : ∀ id ∈ resumed, ∀ d ∈ base.deps id, d ∈ resumed) (h₀ : initialSession base resumed limit = .ok s₀)
    (hF : Following σ base resumed final) : Below base s₀ final := by
  obtain ⟨hp, -, -, hstatus⟩ := initialSession_inv hplan hclosed h₀
  refine ⟨?_, ?_, ?_⟩
  · intro id hfresh
    rw [hp] at hfresh
    exact absurd hfresh.1 hfresh.2
  · intro id hs
    rw [hstatus] at hs
    split at hs
    · exact hF.completed id ‹_›
    · cases hs
  · intro id hs
    rw [hstatus] at hs
    split at hs <;> cases hs

theorem reaches_below {limit : Option Nat} {s₀ : Session} (hplan : validateExecutionPlanSemantics base = .ok ())
    (hclosed : ∀ id ∈ resumed, ∀ d ∈ base.deps id, d ∈ resumed) (h₀ : initialSession base resumed limit = .ok s₀)
    (hσ : σ.EventsDelivered) (hlimit : ∀ k ∈ limit, 1 ≤ k) (hF : Following σ base resumed final)
    (hdone : final.phase = .done error) (h : Reaches σ s₀ s) : Below base s final := by
  induction h with
  | refl => exact initial_below hplan hclosed h₀ hF
  | tail hreach hnext ih =>
    have hs := reaches_following hplan hclosed h₀ hσ hlimit hreach
    have hs' := reaches_following hplan hclosed h₀ hσ hlimit (hreach.tail hnext)
    exact step_below (validPlan_of_ok hplan) hσ hs hs' hF hdone ih hnext

/-- Two final sessions that are below each other have the same nodes and the same statuses. -/
theorem statuses_eq {final' : Session} {error' : Option String} (hF : Following σ base resumed final)
    (hF' : Following σ base resumed final') (hdone : final.phase = .done error) (hdone' : final'.phase = .done error')
    (hle : Below base final final') (hge : Below base final' final) :
    (∀ node, node ∈ final.plan.nodes ↔ node ∈ final'.plan.nodes) ∧
      ∀ id, final.state.status id = final'.state.status id := by
  have hfresh : ∀ id, Fresh base final.plan id ↔ Fresh base final'.plan id := fun id =>
    ⟨hle.fresh id, hge.fresh id⟩
  have hnodes : ∀ node, node ∈ final.plan.nodes ↔ node ∈ final'.plan.nodes := by
    intro node
    rw [hF.grown.nodes, hF'.grown.nodes]
    simp only [hfresh]
  have hids : ∀ id, id ∈ final.plan.nodeIds ↔ id ∈ final'.plan.nodeIds := by
    intro id
    simp only [mem_nodeIds, hnodes]
  have hfinal := hF.phase.done error hdone
  have hfinal' := hF'.phase.done error' hdone'
  refine ⟨hnodes, fun id => ?_⟩
  by_cases hid : id ∈ final.plan.nodeIds
  · rcases hfinal.total id hid with hs | hs | hs
    · exact hs.trans (hle.succeeded id hs).symm
    · exact hs.trans (hle.failed id hs).symm
    · rcases hfinal'.total id ((hids id).mp hid) with hs' | hs' | hs'
      · exact (hge.succeeded id hs').trans hs'.symm
      · exact (hge.failed id hs').trans hs'.symm
      · exact hs.trans hs'.symm
  · rw [hfinal.outside id hid, hfinal'.outside id fun h => hid ((hids id).mpr h)]

end Simulation

/-! ## The outcome of a run -/

/-- The node's turn came in this run: it was not resumed, and all it depends on succeeded. -/
def Ran (resumed : List NodeId) (s : Session) (id : NodeId) : Prop :=
  id ∉ resumed ∧ ∀ d ∈ s.plan.deps id, s.state.status d = .succeeded

/-- What `finalize_execution` leaves behind when the nodes end as `σ` says. -/
structure Outcome (σ : Assignment) (resumed : List NodeId) (s : Session) (error : Option String) : Prop where
  total : ∀ id ∈ s.plan.nodeIds,
    s.state.status id = .succeeded ∨ s.state.status id = .failed ∨ s.state.status id = .blocked
  blocked : ∀ id ∈ s.plan.nodeIds,
    s.state.status id = .blocked ↔ ∃ d, TransitiveDep s.plan d id ∧ s.state.status d = .failed
  failed : ∀ id ∈ s.plan.nodeIds, s.state.status id = .failed ↔ Ran resumed s id ∧ Fails σ s.plan id
  started : ∀ id ∈ s.plan.nodeIds,
    id ∈ s.starts ↔ Ran resumed s id ∧ (s.plan.isForeach id = true → id ∈ s.plan.expansions.keys)
  error : error.isSome = true ↔ ∃ id ∈ s.plan.nodeIds, s.state.status id = .failed

/-- Blocking reaches everything behind a node that did not succeed. -/
theorem Final.blocked_of_transitive {s : Session} {error : Option String} (h : Final s error) {d id : NodeId}
    (hdep : TransitiveDep s.plan d id) (hid : id ∈ s.plan.nodeIds) (hne : s.state.status d ≠ .succeeded) :
    s.state.status id = .blocked := by
  induction hdep with
  | single hd => exact (h.blocked _ hid).mpr ⟨d, hd, hne⟩
  | tail _ hd ih =>
    have hb := ih (deps_mem_nodeIds h.valid.graph hd)
    exact (h.blocked _ hid).mpr ⟨_, hd, by rw [hb]; decide⟩

/-- A node of the final plan is blocked, or its turn came, or it was resumed. -/
theorem Final.ran_iff {resumed : List NodeId} {s : Session} {error : Option String} (h : Final s error) {id : NodeId}
    (hid : id ∈ s.plan.nodeIds) : Ran resumed s id ↔ id ∉ resumed ∧ Settled (s.state.status id) := by
  refine and_congr_right fun hnew => ?_
  have hb := h.blocked id hid
  rcases h.total id hid with hs | hs | hs <;> rw [hs] at hb ⊢
  · refine iff_of_true (fun d hd => ?_) trivial
    by_contra hne
    exact absurd (hb.mpr ⟨d, hd, hne⟩) (by decide)
  · refine iff_of_true (fun d hd => ?_) trivial
    by_contra hne
    exact absurd (hb.mpr ⟨d, hd, hne⟩) (by decide)
  · obtain ⟨d, hd, hne⟩ := hb.mp rfl
    exact iff_of_false (fun hall => hne (hall d hd)) (by simp [Settled])

theorem outcome_of_done {σ : Assignment} {base : PreflightExecutionPlan} {resumed : List NodeId} {s : Session}
    {error : Option String} (hF : Following σ base resumed s) (hdone : s.phase = .done error) :
    Outcome σ resumed s error := by
  have hfinal := hF.phase.done error hdone
  refine ⟨hfinal.total, ?_, ?_, ?_, hfinal.error⟩
  · intro id hid
    refine ⟨fun hb => ?_, ?_⟩
    · exact exists_failed_of_blocked hfinal.valid.graph hfinal.total (fun x hx => (hfinal.blocked x hx).mp) hid hb
    · rintro ⟨d, hdep, hf⟩
      exact hfinal.blocked_of_transitive hdep hid (by rw [hf]; decide)
  · intro id hid
    constructor
    · intro hf
      have hnew : id ∉ resumed := by
        intro hr
        have := hF.completed id hr
        rw [hf] at this
        cases this
      exact ⟨(hfinal.ran_iff hid).mpr ⟨hnew, by rw [hf]; trivial⟩, hF.failed id hf⟩
    · rintro ⟨⟨hnew, hdeps⟩, hbad⟩
      rcases final_status hF hdone hid hnew hdeps with ⟨-, hgood⟩ | ⟨hf, -⟩
      · exact absurd hbad (not_fails_of_succeeds rfl (fun _ => Iff.rfl) hgood)
      · exact hf
  · intro id hid
    rw [hF.ran, hfinal.ran_iff hid, and_assoc]

/-- **Completeness and confluence.** When the assignment delivers the topology
events: a run that follows it ends, whatever the limit; it only ends finalised,
with every node succeeded, failed or blocked as the assignment prescribes; and
any two such runs end with the same statuses. The one way not to get there is an
expansion the assignment lets succeed and the validators reject. -/
theorem scheduler_confluence {σ : Assignment} {plan : PreflightExecutionPlan} {resumed : List NodeId}
    (hplan : validateExecutionPlanSemantics plan = .ok ())
    (hclosed : ∀ id ∈ resumed, ∀ d ∈ plan.deps id, d ∈ resumed) (hσ : σ.EventsDelivered) :
    (∀ limit s₀, (∀ k ∈ limit, 1 ≤ k) → initialSession plan resumed limit = .ok s₀ →
      (¬ ∃ f : ℕ → Session, f 0 = s₀ ∧ ∀ n, Next σ (f n) (f (n + 1))) ∧
      ∀ s, Reaches σ s₀ s →
        (∃ error, s.phase = .done error ∧ Outcome σ resumed s error) ∨ (∃ s', Next σ s s') ∨ Rejected σ s) ∧
    ∀ limit limit' s₀ s₀', (∀ k ∈ limit, 1 ≤ k) → (∀ k ∈ limit', 1 ≤ k) →
      initialSession plan resumed limit = .ok s₀ → initialSession plan resumed limit' = .ok s₀' →
      ∀ s s' error error', Reaches σ s₀ s → Reaches σ s₀' s' → s.phase = .done error → s'.phase = .done error' →
        (∀ node, node ∈ s.plan.nodes ↔ node ∈ s'.plan.nodes) ∧ ∀ id, s.state.status id = s'.state.status id := by
  refine ⟨fun limit s₀ hlimit h₀ => ⟨no_infinite_run hplan hclosed h₀ hσ hlimit, fun s hs => ?_⟩, ?_⟩
  · have hF := reaches_following hplan hclosed h₀ hσ hlimit hs
    by_cases hdone : ∃ error, s.phase = .done error
    · obtain ⟨error, hdone⟩ := hdone
      exact Or.inl ⟨error, hdone, outcome_of_done hF hdone⟩
    · by_cases hrej : Rejected σ s
      · exact Or.inr (Or.inr hrej)
      · exact Or.inr (Or.inl (progress hF (fun error he => hdone ⟨error, he⟩) hrej))
  · intro limit limit' s₀ s₀' hlimit hlimit' h₀ h₀' s s' error error' hs hs' hdone hdone'
    have hF := reaches_following hplan hclosed h₀ hσ hlimit hs
    have hF' := reaches_following hplan hclosed h₀' hσ hlimit' hs'
    exact statuses_eq hF hF' hdone hdone' (reaches_below hplan hclosed h₀ hσ hlimit hF' hdone' hs)
      (reaches_below hplan hclosed h₀' hσ hlimit' hF hdone hs')

/-! ## The sample plan -/

/-- Everything succeeds. -/
def sampleAssignment : Assignment :=
  { task := fun _ => none, inputs := fun _ => .ok sampleEvidence, publication := fun _ => none
    topologyEvent := fun _ => none, join := fun _ => none }

/-- The sample group is expanded, joined and reported on, whatever the order. -/
theorem scheduler_confluence_sample :
    ∃ s₀, initialSession samplePlan [] (some 1) = .ok s₀ ∧
      ¬ ∃ f : ℕ → Session, f 0 = s₀ ∧ ∀ n, Next sampleAssignment (f n) (f (n + 1)) := by
  have hobs : (reach samplePlan [] (some 1) []).map (fun _ => ()) = some () := by decide
  obtain ⟨s₀, -, h₀, -, -⟩ := reach_observe hobs
  exact ⟨s₀, h₀, ((scheduler_confluence sample_valid (by simp) fun _ => rfl).1 (some 1) s₀ (by simp) h₀).1⟩

/-- A sink that raises on the topology event: the loop ends with an error although
no node is failed, and `report` is blocked although all its dependencies succeeded. -/
theorem failed_group_blocks_dependents :
    validateExecutionPlanSemantics samplePlan = .ok () ∧
    ∃ s₀ s, initialSession samplePlan [] (some 2) = .ok s₀ ∧
      run step s₀ (sampleRun (some (.handled "disk full")) ++ [.group (.join none) true, .tick, .tick, .tick])
        = some s ∧
      s.phase = .done (some ("Workflow 'sample' failed:\n- failed: g (disk full)\n" ++
        "- blocked: report (unsatisfied dependencies: )")) ∧
      (∀ id ∈ s.plan.nodeIds, s.state.status id ≠ .failed) ∧
      s.state.status "report" = .blocked ∧ ∀ d ∈ s.plan.deps "report", s.state.status d = .succeeded := by
  have hobs : (reach samplePlan [] (some 2)
      (sampleRun (some (.handled "disk full")) ++ [.group (.join none) true, .tick, .tick, .tick])).map (fun s =>
        (s.phase, s.plan.nodeIds.all fun id => s.state.status id ≠ .failed, s.state.status "report",
          (s.plan.deps "report").all fun d => s.state.status d = .succeeded))
      = some (.done (some ("Workflow 'sample' failed:\n- failed: g (disk full)\n" ++
          "- blocked: report (unsatisfied dependencies: )")), true, .blocked, true) := by decide
  obtain ⟨s₀, s, h₀, hrun, hval⟩ := reach_observe hobs
  obtain ⟨hphase, hval⟩ := Prod.mk.inj hval
  obtain ⟨hfailed, hval⟩ := Prod.mk.inj hval
  obtain ⟨hreport, hdeps⟩ := Prod.mk.inj hval
  exact ⟨sample_valid, s₀, s, h₀, hrun, hphase, by simpa using hfailed, hreport, by simpa using hdeps⟩

end Crewplane.Scheduler
