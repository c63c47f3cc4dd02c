import Crewplane.Scheduler.Failure
/-
# Runs that follow an assignment of outcomes

An `Assignment` fixes, for every node, how its task ends, and for every group
what its expansion meets and how its join ends. `Follows σ` restricts the
environment to it; what stays free is the order and the batching of the
completions. `Following` is the invariant of such runs: the plan in force is the
base plan grown by the expansions the assignment lets succeed (`Grown`), and each
settled node was settled the way the assignment says.
-/
namespace Crewplane.Scheduler

open Crewplane.Lib Crewplane.Plan

/-- Outcomes for all nodes: `none` is success, `some text` an expected failure
(for groups: `OSError` or `ValueError`). -/
structure Assignment where
  task : NodeId → Option String
  inputs : NodeId → Except String ExpansionEvidence
  publication : NodeId → Option String
  topologyEvent : NodeId → Option String
  join : NodeId → Option String

namespace Assignment

variable (σ : Assignment)

def taskResult (id : NodeId) : TaskResult :=
  match σ.task id with
  | none => ⟨.succeeded, true⟩
  | some message => ⟨.failed message, true⟩

def expandInputs (id : NodeId) : Except Fault ExpansionEvidence :=
  match σ.inputs id with
  | .ok evidence => .ok evidence
  | .error message => .error (.handled message)

/-- The assignment lets the expansion of this group succeed. -/
def ExpansionSucceeds (id : NodeId) : Prop := (∃ evidence, σ.inputs id = .ok evidence) ∧ σ.publication id = none

/-- No topology event raises. -/
def EventsDelivered : Prop := ∀ id, σ.topologyEvent id = none

end Assignment

/-- The action is the one the assignment prescribes in this session. An expansion
it lets succeed has to be one the validators accept. -/
def Follows (σ : Assignment) (s : Session) : Action → Prop
  | .tick => True
  | .group (.expand inputs publication topologyEvent) delivered => ∀ groupId, readyGroup? s = some groupId →
      inputs = σ.expandInputs groupId ∧ publication = (σ.publication groupId).map .handled ∧
      topologyEvent = (σ.topologyEvent groupId).map .handled ∧ delivered = true ∧
      (σ.ExpansionSucceeds groupId → ∃ effective, expandedPlan s.plan groupId inputs publication = .ok effective)
  | .group (.join result) delivered => ∀ groupId, readyGroup? s = some groupId →
      result = (σ.join groupId).map .handled ∧ delivered = true
  | .complete results => ∀ id ∈ completedNodeIds s.state results, results.getItem id = σ.taskResult id

/-- One move of a run that follows `σ`. -/
def Next (σ : Assignment) (s s' : Session) : Prop := ∃ a, step s a = some s' ∧ Follows σ s a

/-! ## The plan in force -/

/-- A group expanded during the run. -/
def Fresh (base plan : PreflightExecutionPlan) (id : NodeId) : Prop :=
  id ∈ plan.expansions.keys ∧ id ∉ base.expansions.keys

/-- The records a group adds when it expands: its gated self and its children. -/
def added (σ : Assignment) (base : PreflightExecutionPlan) (id : NodeId) : List PreflightExecutionNode :=
  match base.node? id, base.template? id, σ.inputs id with
  | some group, some template, .ok evidence =>
    gatedGroup template (expansionState base template evidence) group ::
      children template (expansionState base template evidence)
  | _, _, _ => []

/-- `plan` is `base` with some groups expanded, each the way `σ` says. -/
structure Grown (σ : Assignment) (base plan : PreflightExecutionPlan) : Prop where
  valid : ValidPlan plan
  templates : plan.foreachTemplates = base.foreachTemplates
  signature : plan.workflowSignature = base.workflowSignature
  kept : ∀ id ∈ base.expansions.keys, id ∈ plan.expansions.keys
  nodes : ∀ node, node ∈ plan.nodes ↔
    (node ∈ base.nodes ∧ ¬ Fresh base plan node.id) ∨ ∃ id, Fresh base plan id ∧ node ∈ added σ base id
  fresh : ∀ id, Fresh base plan id → base.isForeach id = true ∧ σ.ExpansionSucceeds id

theorem grown_refl (σ : Assignment) {base : PreflightExecutionPlan} (hv : ValidPlan base) : Grown σ base base := by
  have hnone : ∀ id, ¬ Fresh base base id := fun id h => h.2 h.1
  refine ⟨hv, rfl, rfl, fun _ h => h, ?_, fun id h => absurd h (hnone id)⟩
  intro node
  simp [hnone]

/-- An added record is the group itself or no foreach node. -/
theorem added_id_or_mode {σ : Assignment} {base : PreflightExecutionPlan} (hv : ValidPlan base) {id : NodeId}
    {node : PreflightExecutionNode} (h : node ∈ added σ base id) : node.id = id ∨ node.mode ≠ .foreach := by
  unfold added at h
  split at h
  · rename_i group template evidence hg ht _
    rcases List.mem_cons.mp h with rfl | h
    · exact Or.inl ((node?_eq_some hv.graph).mp hg).2
    · obtain ⟨ordinal, -, original, horig, rfl⟩ := mem_concreteBatch_nodes.mp h
      exact Or.inr (hv.child template ((template?_eq_some hv).mp ht).1 original horig)
  · simp at h

/-- A foreach node that is not expanded still has its base record. -/
theorem Grown.base_record {σ : Assignment} {base plan : PreflightExecutionPlan} (hb : ValidPlan base)
    (h : Grown σ base plan) {node : PreflightExecutionNode} (hn : node ∈ plan.nodes) (hmode : node.mode = .foreach)
    (hnew : node.id ∉ plan.expansions.keys) : node ∈ base.nodes := by
  rcases (h.nodes node).mp hn with ⟨hbase, -⟩ | ⟨id, hfresh, hadd⟩
  · exact hbase
  · rcases added_id_or_mode hb hadd with rfl | hne
    · exact absurd hfresh.1 hnew
    · exact absurd hmode hne

theorem Grown.template? {σ : Assignment} {base plan : PreflightExecutionPlan} (h : Grown σ base plan) (id : NodeId) :
    plan.template? id = base.template? id := by
  rw [PreflightExecutionPlan.template?, h.templates]
  rfl

/-- Expanding one more group. -/
theorem Grown.expand {σ : Assignment} {base plan effective : PreflightExecutionPlan} (hb : ValidPlan base)
    (h : Grown σ base plan) {template : CompiledForeach} {evidence : ExpansionEvidence}
    {group : PreflightExecutionNode} (hx : Expands plan effective template (expansionState plan template evidence) group)
    (hin : σ.inputs group.id = .ok evidence) (hpub : σ.publication group.id = none) : Grown σ base effective := by
  have hstate : expansionState plan template evidence = expansionState base template evidence := by
    simp [expansionState, h.signature]
  have hmode : group.mode = .foreach := (isForeach_iff h.valid.graph hx.group_mem).mp (hx.group_isForeach h.valid)
  have hbase : group ∈ base.nodes := h.base_record hb hx.group_mem hmode hx.unexpanded
  have hadded : added σ base group.id = gatedGroup template (expansionState plan template evidence) group ::
      children template (expansionState plan template evidence) := by
    have hn : base.node? group.id = some group := (node?_eq_some hb.graph).mpr ⟨hbase, rfl⟩
    have ht : base.template? group.id = some template := by rw [← h.template?]; exact hx.frozen
    rw [added, hn, ht, hin, hstate]
  have hkeys : ∀ id, id ∈ effective.expansions.keys ↔ id = group.id ∨ id ∈ plan.expansions.keys := by
    intro id
    rw [hx.expansions, Dict.mem_keys_setItem]
  have hbnew : group.id ∉ base.expansions.keys := fun hk => hx.unexpanded (h.kept _ hk)
  have hfresh : ∀ id, Fresh base effective id ↔ id = group.id ∨ Fresh base plan id := by
    intro id
    simp only [Fresh, hkeys]
    constructor
    · rintro ⟨hid | hid, hnot⟩
      · exact Or.inl hid
      · exact Or.inr ⟨hid, hnot⟩
    · rintro (rfl | ⟨hid, hnot⟩)
      · exact ⟨Or.inl rfl, hbnew⟩
      · exact ⟨Or.inr hid, hnot⟩
  refine ⟨hx.valid, hx.templates.trans h.templates, hx.signature.trans h.signature, ?_, ?_, ?_⟩
  · exact fun id hid => (hkeys id).mpr (Or.inr (h.kept id hid))
  · intro node
    rw [hx.mem_nodes h.valid.graph]
    constructor
    · rintro (⟨hmem, hne⟩ | hchild | rfl)
      · rcases (h.nodes node).mp hmem with ⟨hold, hnot⟩ | ⟨id, hid, hadd⟩
        · exact Or.inl ⟨hold, fun hf => ((hfresh _).mp hf).elim hne hnot⟩
        · exact Or.inr ⟨id, (hfresh id).mpr (Or.inr hid), hadd⟩
      · exact Or.inr ⟨group.id, (hfresh _).mpr (Or.inl rfl), hadded ▸ List.mem_cons_of_mem _ hchild⟩
      · exact Or.inr ⟨group.id, (hfresh _).mpr (Or.inl rfl), hadded ▸ List.mem_cons_self⟩
    · rintro (⟨hold, hnot⟩ | ⟨id, hid, hadd⟩)
      · refine Or.inl ⟨(h.nodes node).mpr (Or.inl ⟨hold, fun hf => hnot ((hfresh _).mpr (Or.inr hf))⟩), ?_⟩
        exact fun he => hnot ((hfresh _).mpr (Or.inl he))
      · rcases (hfresh id).mp hid with rfl | hid
        · rw [hadded] at hadd
          rcases List.mem_cons.mp hadd with rfl | hchild
          · exact Or.inr (Or.inr rfl)
          · exact Or.inr (Or.inl hchild)
        · have hmem := (h.nodes node).mpr (Or.inr ⟨id, hid, hadd⟩)
          refine Or.inl ⟨hmem, fun he => ?_⟩
          -- a record with the group's name would be the group's own, which is no added record
          have heq : node = group := node_unique h.valid.graph hmem hx.group_mem he
          rcases added_id_or_mode hb hadd with hidn | hne
          · exact hx.unexpanded (he ▸ hidn ▸ hid.1)
          · exact hne (heq ▸ hmode)
  · intro id hid
    rcases (hfresh id).mp hid with rfl | hid
    · exact ⟨(isForeach_iff hb.graph hbase).mpr hmode, ⟨evidence, hin⟩, hpub⟩
    · exact h.fresh id hid

/-! ## The invariant of a following run -/

/-- The assignment has this node succeed, once all it waits for has. -/
def Succeeds (σ : Assignment) (plan : PreflightExecutionPlan) (id : NodeId) : Prop :=
  if plan.isForeach id then id ∈ plan.expansions.keys ∧ σ.join id = none else σ.task id = none

/-- The assignment has this node fail: its task, its join, or the expansion it never got through. -/
def Fails (σ : Assignment) (plan : PreflightExecutionPlan) (id : NodeId) : Prop :=
  if plan.isForeach id then
    if id ∈ plan.expansions.keys then σ.join id ≠ none else ¬ σ.ExpansionSucceeds id
  else σ.task id ≠ none

/-- What finalisation leaves behind, in terms of the final graph. -/
structure Final (s : Session) (error : Option String) : Prop where
  valid : ValidPlan s.plan
  total : ∀ id ∈ s.plan.nodeIds,
    s.state.status id = .succeeded ∨ s.state.status id = .failed ∨ s.state.status id = .blocked
  blocked : ∀ id ∈ s.plan.nodeIds,
    s.state.status id = .blocked ↔ ∃ d ∈ s.plan.deps id, s.state.status d ≠ .succeeded
  outside : ∀ id, id ∉ s.plan.nodeIds → s.state.status id = .pending
  error : error.isSome = true ↔ ∃ id ∈ s.plan.nodeIds, s.state.status id = .failed

/-- `d` is a dependency of `id`, of a dependency of `id`, and so on. -/
def TransitiveDep (plan : PreflightExecutionPlan) : NodeId → NodeId → Prop :=
  Relation.TransGen fun d id => d ∈ plan.deps id

/-- When a node is blocked exactly by a dependency that did not succeed, some
failed node is behind every block: follow the blocked dependencies down the
execution order. -/
theorem exists_failed_of_blocked {plan : PreflightExecutionPlan} (hv : ValidGraph plan)
    {status : NodeId → ExecutionStatus}
    (htotal : ∀ id ∈ plan.nodeIds, status id = .succeeded ∨ status id = .failed ∨ status id = .blocked)
    (hblocked : ∀ id ∈ plan.nodeIds, status id = .blocked → ∃ d ∈ plan.deps id, status d ≠ .succeeded) {id : NodeId}
    (hid : id ∈ plan.nodeIds) (hb : status id = .blocked) : ∃ d, TransitiveDep plan d id ∧ status d = .failed := by
  induction hn : position plan.executionOrder id using Nat.strong_induction_on generalizing id with
  | _ n ih =>
    obtain ⟨d, hd, hne⟩ := hblocked id hid hb
    have hmem := deps_mem_nodeIds hv hd
    rcases htotal d hmem with hs | hf | hb'
    · exact absurd hs hne
    · exact ⟨d, .single hd, hf⟩
    · obtain ⟨x, hx, hf⟩ := ih _ (hn ▸ deps_position hv hd) hmem hb' rfl
      exact ⟨x, hx.tail hd, hf⟩

theorem finalizeExecution_final {s : Session} (h : Inv s.plan s.state) (hready : s.state.ready = [])
    (hrun : s.state.running = []) :
    Final (finalizeExecution s)
      (workflowError s.plan.workflowName (markBlockedNodes s.state) (pendingNodes s.state)) := by
  have hstatus : ∀ x, (finalizeExecution s).state.status x
      = if x ∈ s.plan.nodeIds ∧ s.state.status x = .pending then .blocked else s.state.status x :=
    h.status_markBlockedNodes
  have hsucc : ∀ x, (finalizeExecution s).state.status x = .succeeded ↔ s.state.status x = .succeeded := by
    intro x
    rw [hstatus]
    split
    · rename_i hp
      simp [hp.2]
    · exact Iff.rfl
  have hfail : ∀ x, (finalizeExecution s).state.status x = .failed ↔ s.state.status x = .failed := by
    intro x
    rw [hstatus]
    split
    · rename_i hp
      simp [hp.2]
    · exact Iff.rfl
  have htotal : ∀ x ∈ s.plan.nodeIds, (finalizeExecution s).state.status x = .succeeded ∨
      (finalizeExecution s).state.status x = .failed ∨ (finalizeExecution s).state.status x = .blocked := by
    intro x hx
    rw [hstatus]
    have hnr : s.state.status x ≠ .running := fun hr => by
      have := (h.running x).mpr hr
      rw [hrun] at this
      simp at this
    have hnb := h.unblocked x
    cases hs : s.state.status x <;> simp_all
  have hblocked : ∀ x ∈ s.plan.nodeIds, (finalizeExecution s).state.status x = .blocked ↔
      ∃ d ∈ s.plan.deps x, (finalizeExecution s).state.status d ≠ .succeeded := by
    intro x hx
    have hpend : (finalizeExecution s).state.status x = .blocked ↔ s.state.status x = .pending := by
      rw [hstatus]
      have hnb := h.unblocked x
      by_cases hp : s.state.status x = .pending <;> simp [hx, hp, hnb]
    rw [hpend]
    simp only [ne_eq, hsucc]
    constructor
    · intro hp
      by_contra hall
      have hen : x ∈ s.state.ready := (h.ready x).mpr ⟨hx, hp, fun d hd => by
        by_contra hne
        exact hall ⟨d, hd, hne⟩⟩
      rw [hready] at hen
      simp at hen
    · rintro ⟨d, hd, hne⟩
      have hns : ¬ Settled (s.state.status x) := fun hset => hne (h.settled x hset d hd)
      have hnb := h.unblocked x
      cases hs : s.state.status x with
      | pending => rfl
      | blocked => exact absurd hs hnb
      | running => rw [hs] at hns; exact absurd trivial hns
      | succeeded => rw [hs] at hns; exact absurd trivial hns
      | failed => rw [hs] at hns; exact absurd trivial hns
  refine ⟨h.valid, htotal, hblocked, ?_, ?_⟩
  · intro x hx
    rw [hstatus, if_neg fun hp => hx hp.1]
    exact h.status_of_not_mem hx
  · have herrors : (markBlockedNodes s.state).nodeErrors = s.state.nodeErrors := rfl
    simp only [hfail]
    constructor
    · intro herr
      by_contra hnone
      have hno : s.state.nodeErrors = [] := by
        by_contra hne
        obtain ⟨e, he⟩ := List.exists_mem_of_ne_nil _ hne
        have hf := (h.errors e.1).mp (List.mem_map_of_mem he)
        exact hnone ⟨e.1, h.mem_of_status (by rw [hf]; decide), hf⟩
      have hpend : pendingNodes s.state = [] := by
        by_contra hne
        obtain ⟨x, hx⟩ := List.exists_mem_of_ne_nil _ hne
        rw [h.mem_pendingNodes] at hx
        have hb : (finalizeExecution s).state.status x = .blocked := by rw [hstatus, if_pos hx]
        obtain ⟨d, hd, hf⟩ := exists_failed_of_blocked h.valid.graph htotal (fun x hx => (hblocked x hx).mp) hx.1 hb
        rw [hfail] at hf
        exact hnone ⟨d, h.mem_of_status (by rw [hf]; decide), hf⟩
      simp [workflowError, herrors, hno, hpend] at herr
    · rintro ⟨x, -, hf⟩
      have hne : s.state.nodeErrors ≠ [] := by
        intro hnil
        have := (h.errors x).mpr hf
        rw [hnil] at this
        simp [Dict.keys] at this
      simp [workflowError, herrors, hne]

/-- What each phase can rely on. -/
structure PhaseOk (s : Session) : Prop where
  live : s.phase ≠ .raised
  noGroups : s.phase = .starts → ∀ id ∈ s.state.ready, s.plan.isForeach id = false
  busy : s.phase = .consume → s.state.running ≠ []
  idle : s.phase = .finalize → s.state.ready = [] ∧ s.state.running = []
  done : ∀ error, s.phase = .done error → Final s error

/-- `head` and `groups` rely on nothing. -/
theorem phaseOk_of {s : Session} (h : s.phase = .head ∨ s.phase = .groups) : PhaseOk s := by
  rcases h with h | h <;> refine ⟨?_, ?_, ?_, ?_, ?_⟩ <;> rw [h] <;> simp

theorem phaseOk_starts {s : Session} (h : s.phase = .starts) (hready : ∀ id ∈ s.state.ready, s.plan.isForeach id = false) :
    PhaseOk s := by
  refine ⟨?_, fun _ => hready, ?_, ?_, ?_⟩ <;> rw [h] <;> simp

theorem phaseOk_consume {s : Session} (h : s.phase = .consume) (hrun : s.state.running ≠ []) : PhaseOk s := by
  refine ⟨?_, ?_, fun _ => hrun, ?_, ?_⟩ <;> rw [h] <;> simp

theorem phaseOk_finalize {s : Session} (h : s.phase = .finalize) (hidle : s.state.ready = [] ∧ s.state.running = []) :
    PhaseOk s := by
  refine ⟨?_, ?_, ?_, fun _ => hidle, ?_⟩ <;> rw [h] <;> simp

theorem phaseOk_done {s : Session} {error : Option String} (h : s.phase = .done error) (hfinal : Final s error) :
    PhaseOk s := by
  refine ⟨?_, ?_, ?_, ?_, ?_⟩ <;> rw [h] <;> simp [hfinal]

structure Following (σ : Assignment) (base : PreflightExecutionPlan) (resumed : List NodeId) (s : Session) : Prop where
  inv : SessionInv s
  grown : Grown σ base s.plan
  completed : ∀ id ∈ resumed, s.state.status id = .succeeded
  succeeded : ∀ id, id ∉ resumed → s.state.status id = .succeeded → Succeeds σ s.plan id
  failed : ∀ id, s.state.status id = .failed → Fails σ s.plan id
  running : ∀ id, s.state.status id = .running → s.plan.isForeach id = false
  ran : ∀ id, id ∈ s.starts ↔
    id ∉ resumed ∧ Settled (s.state.status id) ∧ (s.plan.isForeach id = true → id ∈ s.plan.expansions.keys)
  phase : PhaseOk s

section Following

variable {σ : Assignment} {base : PreflightExecutionPlan} {resumed : List NodeId} {s s' : Session}

/-- A move that starts nothing and settles nothing. -/
theorem Following.same (h : Following σ base resumed s) (hinv : SessionInv s') (hplan : s'.plan = s.plan)
    (hstatus : ∀ x, s'.state.status x = s.state.status x ∨
      (s.state.status x = .pending ∧ s'.state.status x = .blocked))
    (hstarts : s'.starts = s.starts) (hphase : PhaseOk s') : Following σ base resumed s' := by
  have hback : ∀ x status, status ≠ .blocked → s'.state.status x = status → s.state.status x = status := by
    intro x status hb hx
    rcases hstatus x with he | ⟨-, he⟩
    · exact he ▸ hx
    · exact absurd (he.symm.trans hx).symm hb
  refine ⟨hinv, hplan ▸ h.grown, ?_, ?_, ?_, ?_, ?_, hphase⟩
  · intro id hid
    have hs := h.completed id hid
    rcases hstatus id with he | ⟨hp, -⟩
    · exact he.trans hs
    · rw [hs] at hp
      cases hp
  · intro id hid hs
    rw [hplan]
    exact h.succeeded id hid (hback id _ (by decide) hs)
  · intro id hs
    rw [hplan]
    exact h.failed id (hback id _ (by decide) hs)
  · intro id hs
    rw [hplan]
    exact h.running id (hback id _ (by decide) hs)
  · intro id
    rw [hstarts, hplan, h.ran]
    rcases hstatus id with he | ⟨hp, hb⟩
    · rw [he]
    · rw [hp, hb]
      exact Iff.rfl

/-- A move that gives the nodes `ids` a new status in the same plan. -/
theorem Following.update (h : Following σ base resumed s) (hinv : SessionInv s') (hplan : s'.plan = s.plan)
    {ids : List NodeId} {v : NodeId → ExecutionStatus}
    (hstatus : ∀ x, s'.state.status x = if x ∈ ids then v x else s.state.status x)
    (hopen : ∀ x ∈ ids, s.state.status x ≠ .succeeded)
    (hv : ∀ x ∈ ids, (v x = .succeeded ∧ Succeeds σ s.plan x) ∨ (v x = .failed ∧ Fails σ s.plan x) ∨
      (v x = .running ∧ s.plan.isForeach x = false))
    (hstarts : ∀ x, x ∈ s'.starts ↔
      x ∈ s.starts ∨ (x ∈ ids ∧ (s.plan.isForeach x = true → x ∈ s.plan.expansions.keys)))
    (hphase : PhaseOk s') : Following σ base resumed s' := by
  have hnew : ∀ x ∈ ids, x ∉ resumed := fun x hx hr => hopen x hx (h.completed x hr)
  refine ⟨hinv, hplan ▸ h.grown, ?_, ?_, ?_, ?_, ?_, hphase⟩
  · intro x hx
    rw [hstatus, if_neg fun hi => hnew x hi hx]
    exact h.completed x hx
  · intro x hx hs
    rw [hplan]
    rw [hstatus] at hs
    split at hs
    · rename_i hi
      rcases hv x hi with ⟨-, hgood⟩ | ⟨hf, -⟩ | ⟨hr, -⟩
      · exact hgood
      · rw [hf] at hs; cases hs
      · rw [hr] at hs; cases hs
    · exact h.succeeded x hx hs
  · intro x hs
    rw [hplan]
    rw [hstatus] at hs
    split at hs
    · rename_i hi
      rcases hv x hi with ⟨hf, -⟩ | ⟨-, hbad⟩ | ⟨hr, -⟩
      · rw [hf] at hs; cases hs
      · exact hbad
      · rw [hr] at hs; cases hs
    · exact h.failed x hs
  · intro x hs
    rw [hplan]
    rw [hstatus] at hs
    split at hs
    · rename_i hi
      rcases hv x hi with ⟨hf, -⟩ | ⟨hf, -⟩ | ⟨-, hr⟩
      · rw [hf] at hs; cases hs
      · rw [hf] at hs; cases hs
      · exact hr
    · exact h.running x hs
  · intro x
    rw [hstarts, hplan, hstatus]
    split
    · rename_i hi
      have hset : Settled (v x) := by
        rcases hv x hi with ⟨hf, -⟩ | ⟨hf, -⟩ | ⟨hf, -⟩ <;> rw [hf] <;> trivial
      have hold := h.ran x
      have hr := hnew x hi
      tauto
    · rename_i hi
      rw [h.ran]
      tauto

end Following

end Crewplane.Scheduler
