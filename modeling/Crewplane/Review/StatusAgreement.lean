import Crewplane.Review.Invariant
import Crewplane.Review.StatusEntries
/-
# The status agrees with the loop

A status shows one candidate and the reviews of its round, with counters that place it (`Attributed`). The reader
accepts each such status and resolves it to the outputs it was written for; and every status the loop writes,
from any start and however it ends, is one.
-/
namespace Crewplane.Review

open Crewplane.Lib Crewplane.Plan

/-- What a status shows: nothing, or the candidate and the reviews of one round, of an earlier audit or of one tried. -/
structure Attributed (ctx : Context) (p : ReviewLoopProgress) : Prop where
  executed_le : p.executedAuditRounds ≤ ctx.auditRounds
  selection : (p.latestExecutorOutputs = none ∧ p.latestReviewerOutputs = [] ∧ p.selectedRoundNum = 0) ∨
    ∃ a q cs, p.latestExecutorOutputs = some cs ∧ Group ctx a q cs ∧ p.selectedRoundNum = q ∧
      (p.latestReviewerOutputs = [] ∨ ∃ failures, Batch ctx a q p.latestReviewerOutputs failures) ∧
      (a < p.executedAuditRounds ∨ q ≤ p.lastRoundNum)

/-! ## The reader accepts -/

section Accept

variable {ctx : Context} {sha256 : List UInt8 → String} {files : StageFiles} {p : ReviewLoopProgress} {payload : Json}

def executorEntries (ctx : Context) (p : ReviewLoopProgress) : List ReviewLoopStatusEntry :=
  (p.latestExecutorOutputs.getD []).map fun output => output.status.entry (ctx.node.stagePath.getD []) .executor

def reviewerEntries (ctx : Context) (p : ReviewLoopProgress) : List ReviewLoopStatusEntry :=
  p.latestReviewerOutputs.map fun review => review.status.entry (ctx.node.stagePath.getD []) .reviewer

theorem parse_written {role : ProviderRole} {artifacts : List StatusArtifact} (hnames : TaskNames ctx.node)
    (hsha : ∀ bytes, isBlank (sha256 bytes) = false) {a r : Nat} (hst : ∀ artifact ∈ artifacts, Standing ctx a r role artifact)
    {jsons : List Json}
    (h : artifacts.mapM (statusOutputEntry sha256 (ctx.node.stagePath.getD []) files role) = .ok jsons) (name : String)
    (start : Nat) :
    (jsons.zipIdx start).mapM (fun entry => parseStatusEntry sha256 files name role entry.1 entry.2) =
      .ok (artifacts.map fun artifact => artifact.entry (ctx.node.stagePath.getD []) role) := by
  induction artifacts generalizing jsons start with
  | nil =>
    rw [mapM_eq_ok_nil.mp h]
    rfl
  | cons artifact artifacts ih =>
    obtain ⟨json, rest, hjson, hrest, rfl⟩ := mapM_eq_ok_cons.mp h
    rw [List.zipIdx_cons, mapM_eq_ok_cons]
    exact ⟨_, _, parseStatusEntry_written hnames hsha (hst artifact List.mem_cons_self) hjson name start,
      ih (fun other hother => hst other (List.mem_cons_of_mem _ hother)) hrest (start + 1), rfl⟩

theorem Group.standing {a r : Nat} {cs : List ExecutorRoundArtifact} (h : Group ctx a r cs) :
    ∀ artifact ∈ cs.map (·.status), Standing ctx a r .executor artifact := by
  intro artifact hmem
  obtain ⟨c, hc, rfl⟩ := List.mem_map.mp hmem
  have hout := h.outputs c hc
  have hprovider : c.provider ∈ ctx.executors := by
    rw [← h.providers]
    exact List.mem_map_of_mem hc
  obtain ⟨hrecord, hrole⟩ := mem_executors.mp hprovider
  exact ⟨⟨c.provider, hrecord, hrole, hout.task.symm, rfl⟩, hout.file, hout.audit, hout.round, h.audit_pos, h.round_pos⟩

theorem Batch.standing {a r : Nat} {reviews : List ReviewerRoundArtifact} {failures : List CheckpointReviewerFailure}
    (h : Batch ctx a r reviews failures) (ha : 1 ≤ a) (hr : 1 ≤ r) :
    ∀ artifact ∈ reviews.map (·.status), Standing ctx a r .reviewer artifact := by
  intro artifact hmem
  obtain ⟨v, hv, rfl⟩ := List.mem_map.mp hmem
  obtain ⟨hprovider, htask, hfile, haudit, hround, -⟩ := h.review hv
  obtain ⟨hrecord, hrole⟩ := mem_reviewers.mp hprovider
  exact ⟨⟨v.provider, hrecord, hrole, htask.symm, rfl⟩, hfile, haudit, hround, ha, hr⟩

theorem validateUniqueTaskIds_eq {seen : List TaskId} {entries : List ReviewLoopStatusEntry}
    (h : (entries.map (·.taskId)).Nodup) (hseen : ∀ entry ∈ entries, entry.taskId ∉ seen) :
    validateUniqueTaskIds seen entries = .ok () := by
  induction entries generalizing seen with
  | nil => rfl
  | cons entry entries ih =>
    obtain ⟨hnew, hrest⟩ := List.nodup_cons.mp h
    rw [validateUniqueTaskIds, check_then_eq_ok, requireStatus, require_eq_ok]
    refine ⟨hseen entry List.mem_cons_self, ih hrest fun other hother hmem => ?_⟩
    rcases List.mem_cons.mp hmem with heq | hmem
    · have hin : other.taskId ∈ entries.map (·.taskId) := List.mem_map_of_mem hother
      rw [heq] at hin
      exact hnew hin
    · exact hseen other (List.mem_cons_of_mem _ hother) hmem

/-- An entry of a producer of the node. -/
def Produced (ctx : Context) (entry : ReviewLoopStatusEntry) : Prop :=
  ∃ p ∈ ctx.node.providerRecords, p.role = entry.role ∧ p.taskId = entry.taskId ∧ p.provider = entry.provider

theorem validateExpectedTaskProducers_eq (hnode : NodeOk ctx.node) {entries : List ReviewLoopStatusEntry}
    (h : ∀ entry ∈ entries, Produced ctx entry) :
    validateExpectedTaskProducers entries (taskSpecsForProducers ctx.node.providerRecords) = .ok () := by
  rw [validateExpectedTaskProducers]
  split
  · rfl
  · rw [checkAll_eq_ok]
    intro entry hentry
    obtain ⟨p, hp, hrole, htask, hprovider⟩ := h entry hentry
    have hget : Dict.get? (Dict.ofPairs ((taskSpecsForProducers ctx.node.providerRecords).map fun task => (task.taskId, task)))
        entry.taskId = some ⟨p.taskId, p.role, some p.provider⟩ := by
      apply Dict.get?_ofPairs
      · simp only [taskSpecsForProducers, List.map_map, List.mem_map]
        exact ⟨p, hp, by simp [htask]⟩
      · intro other hother
        simp only [taskSpecsForProducers, List.map_map, List.mem_map] at hother
        obtain ⟨q, hq, hpair⟩ := hother
        obtain ⟨hid, rfl⟩ := Prod.mk.inj hpair
        obtain rfl := provider_eq_of_taskId hnode hp hq (htask.trans hid.symm)
        rfl
    simp only [hget, requireStatus, check_then_eq_ok, require_eq_ok]
    exact ⟨hrole, by simp [hprovider]⟩

/-- The tasks of a candidate and its reviews are distinct. -/
theorem tasks_nodup (hnode : NodeOk ctx.node) {a q : Nat} {cs : List ExecutorRoundArtifact} (hg : Group ctx a q cs)
    {reviews : List ReviewerRoundArtifact}
    (hb : reviews = [] ∨ ∃ failures, Batch ctx a q reviews failures) :
    (cs.map (·.taskId) ++ reviews.map (·.taskId)).Nodup := by
  have hexecutors : cs.map (·.taskId) = ctx.executors.map (·.taskId) := by
    rw [← hg.providers, List.map_map]
    exact List.map_congr_left fun c hc => (hg.outputs c hc).task
  have hleft : (cs.map (·.taskId)).Nodup := by
    rw [hexecutors]
    exact hnode.tasks.sublist (List.filter_sublist.map _)
  rcases hb with rfl | ⟨failures, hb⟩
  · simpa using hleft
  · refine List.nodup_append.mpr ⟨hleft, ?_, ?_⟩
    · rw [hb.order hnode]
      exact (nodup_reviewer_tasks hnode).filter _
    · -- a task names one provider, and that has one role
      rintro t ht u hu rfl
      rw [hexecutors] at ht
      obtain ⟨x, hx, hxt⟩ := List.mem_map.mp ht
      obtain ⟨v, hv, hvt⟩ := List.mem_map.mp hu
      obtain ⟨hprovider, htask, -⟩ := hb.review hv
      obtain ⟨hxrecord, hxrole⟩ := mem_executors.mp hx
      obtain ⟨hvrecord, hvrole⟩ := mem_reviewers.mp hprovider
      obtain rfl := provider_eq_of_taskId hnode hxrecord hvrecord (hxt.trans (hvt.symm.trans htask))
      rw [hxrole] at hvrole
      cases hvrole

/-- The entries of one round. -/
theorem entries_attribution {a q : Nat} {cs : List ExecutorRoundArtifact} (hcs : p.latestExecutorOutputs = some cs)
    (hg : Group ctx a q cs) (hb : p.latestReviewerOutputs = [] ∨ ∃ failures, Batch ctx a q p.latestReviewerOutputs failures) :
    ∀ entry ∈ executorEntries ctx p ++ reviewerEntries ctx p,
      entry.auditRoundNum = auditRoundContext ctx.policy.auditRounds a ∧ entry.roundNum = q ∧ Produced ctx entry := by
  intro entry hentry
  have hstanding : ∃ role artifact, Standing ctx a q role artifact ∧ entry = artifact.entry (ctx.node.stagePath.getD []) role := by
    rcases List.mem_append.mp hentry with hentry | hentry
    · rw [executorEntries, hcs] at hentry
      obtain ⟨c, hc, rfl⟩ := List.mem_map.mp hentry
      exact ⟨.executor, c.status, hg.standing _ (List.mem_map_of_mem hc), rfl⟩
    · obtain ⟨v, hv, rfl⟩ := List.mem_map.mp hentry
      rcases hb with hnil | ⟨failures, hb⟩
      · rw [hnil] at hv
        cases hv
      · exact ⟨.reviewer, v.status, hb.standing hg.audit_pos hg.round_pos _ (List.mem_map_of_mem hv), rfl⟩
  obtain ⟨role, artifact, hst, rfl⟩ := hstanding
  exact ⟨hst.audit, hst.round, hst.producer⟩

theorem validateRoundAttribution_eq (hp : Attributed ctx p) (hnode : NodeOk ctx.node)
    (hfinal : Json.field payload "final_local_round_num" = Json.ofNat (finalRoundNum p))
    (hattempted : Json.field payload "attempted_local_round_num" = Json.ofNat p.lastRoundNum)
    (hexecuted : Json.field payload "executed_audit_rounds" = Json.ofNat p.executedAuditRounds) :
    validateRoundAttribution payload (executorEntries ctx p ++ reviewerEntries ctx p) = .ok () := by
  simp only [validateRoundAttribution, requireStatus, check_then_eq_ok, require_eq_ok, hfinal, hattempted, hexecuted,
    Json.nat?_ofNat, Option.mem_def, Option.some.injEq, forall_eq']
  rcases hp.selection with ⟨hnone, hreviews, hselected⟩ | ⟨a, q, cs, hcs, hg, hselected, hb, hplace⟩
  · have hzero : finalRoundNum p = 0 := by simp [finalRoundNum, selectedRoundNum, hselected, hnone, hreviews]
    simp [executorEntries, reviewerEntries, hnone, hreviews, hzero]
  · have hpos := hg.round_pos
    have hfinalRound : finalRoundNum p = q := by simp [finalRoundNum, hselected]; omega
    have hall := entries_attribution hcs hg hb
    obtain ⟨c, rest, rfl⟩ := List.exists_cons_of_ne_nil (hg.ne_nil hnode)
    obtain ⟨head, hhead⟩ : ∃ head, (executorEntries ctx p ++ reviewerEntries ctx p).head? = some head :=
      ⟨_, by simp [executorEntries, hcs]; rfl⟩
    obtain ⟨haudit, hround, -⟩ := hall head (List.mem_of_mem_head? hhead)
    have hpairs : ((executorEntries ctx p ++ reviewerEntries ctx p).map fun entry =>
        (entry.auditRoundNum, entry.roundNum)).dedup.length = 1 := by
      apply dedup_length_of_const (x := (auditRoundContext ctx.policy.auditRounds a, q))
      · simp [executorEntries, hcs]
      · intro pair hpair
        obtain ⟨entry, hentry, rfl⟩ := List.mem_map.mp hpair
        rw [(hall entry hentry).1, (hall entry hentry).2.1]
    refine ⟨by omega, ?_, fun hlate => ⟨head, hhead, a, ?_, ?_⟩⟩
    · rw [hhead]
      rintro entry hentry
      cases hentry
      rw [hround, hfinalRound]
    · -- an earlier audit is one of several
      have hearlier : a < p.executedAuditRounds := by omega
      have hmany := hp.executed_le
      rw [haudit, auditRoundContext, if_pos]
      have hcount : ctx.auditRounds = auditRoundsOrDefault ctx.policy.auditRounds := rfl
      have hpos := hg.audit_pos
      omega
    · exact ⟨p.executedAuditRounds, rfl, by omega⟩

theorem isStopReason_value (reason : Option ReviewLoopStopReason) :
    isStopReason ((reason.map fun reason => Json.ofString reason.value).getD .null) = true := by
  rcases reason with _ | reason
  · rfl
  · cases reason <;> decide +kernel

/-- The fields of a payload have distinct keys, so that each is read by its place. -/
theorem field_statusFields {nodeId : NodeId} {executors reviewers : List Json} {key : String} {value : Json} (place : Nat)
    (h : (statusFields nodeId p executors reviewers)[place]? = some (key, value)) :
    Json.field (Json.record (statusFields nodeId p executors reviewers)) key = value := by
  have hkeys : (Dict.keys (statusFields nodeId p executors reviewers)).Nodup := by
    show (["node_id", "executed_audit_rounds", "attempted_local_round_num", "final_local_round_num", "consensus_reached",
      "continued_after_consensus_exhaustion", "invalid_candidate_round_count", "no_progress_round_count",
      "artifact_drift_warning_count", "stop_reason", "continued_after_stop", "consecutive_no_progress_round_count",
      "canonical_executor_outputs", "reviewer_outputs"] : List String).Nodup
    decide +kernel
  rw [Json.field_record, Dict.get?_of_mem hkeys (List.mem_of_getElem? h)]
  rfl

theorem validateStatusMetadata_eq {nodeId : NodeId} {executors reviewers : List Json} (hid : isBlank nodeId = false) :
    validateStatusMetadata (Json.record (statusFields nodeId p executors reviewers)) nodeId = .ok () := by
  simp only [validateStatusMetadata, validateStatusIdentity, validateStatusCounters, validateStatusBooleans,
    requiredCounterFields, requiredBooleanFields, check_then_eq_ok, requireStatus, require_eq_ok, checkAll_eq_ok,
    List.forall_mem_cons, List.not_mem_nil, false_implies, implies_true, and_true]
  rw [field_statusFields 0 rfl, field_statusFields 1 rfl, field_statusFields 2 rfl, field_statusFields 3 rfl,
    field_statusFields 4 rfl, field_statusFields 5 rfl, field_statusFields 6 rfl, field_statusFields 7 rfl,
    field_statusFields 8 rfl, field_statusFields 9 rfl, field_statusFields 10 rfl, field_statusFields 11 rfl]
  simp [hid, isStopReason_value]

theorem Attributed.standing (hp : Attributed ctx p) :
    ∃ a q, (∀ artifact ∈ (p.latestExecutorOutputs.getD []).map (·.status), Standing ctx a q .executor artifact) ∧
      ∀ artifact ∈ p.latestReviewerOutputs.map (·.status), Standing ctx a q .reviewer artifact := by
  rcases hp.selection with ⟨hnone, hnil, -⟩ | ⟨a, q, cs, hcs, hg, -, hb, -⟩
  · exact ⟨0, 0, by simp [hnone], by simp [hnil]⟩
  · refine ⟨a, q, by simpa [hcs] using hg.standing, ?_⟩
    rcases hb with hnil | ⟨failures, hb⟩
    · simp [hnil]
    · exact hb.standing hg.audit_pos hg.round_pos

/-- The reader resolves an attributed status to the outputs it was written for. -/
theorem resolve_written (hnode : NodeOk ctx.node) (hnames : TaskNames ctx.node) (hid : isBlank ctx.node.id = false)
    (hsha : ∀ bytes, isBlank (sha256 bytes) = false) (hp : Attributed ctx p.snapshot)
    (h : buildReviewLoopStatusPayload sha256 (ctx.node.stagePath.getD []) files ctx.node.id p = .ok payload) :
    resolveReviewLoopStatus sha256 files ctx.node.id payload (taskSpecsForProducers ctx.node.providerRecords) =
      .ok ⟨executorEntries ctx p.snapshot, reviewerEntries ctx p.snapshot⟩ := by
  simp only [buildReviewLoopStatusPayload, do_eq_ok] at h
  obtain ⟨executors, hexecutors, reviewers, hreviewers, hpayload⟩ := h
  cases hpayload
  generalize p.snapshot = shown at *
  have hparsed : parseStatusEntries sha256 files (Json.record (statusFields ctx.node.id shown executors reviewers))
        "canonical_executor_outputs" .executor = .ok (executorEntries ctx shown) ∧
      parseStatusEntries sha256 files (Json.record (statusFields ctx.node.id shown executors reviewers))
        "reviewer_outputs" .reviewer = .ok (reviewerEntries ctx shown) := by
    have hparse : ∀ name role jsons entries, Json.field (Json.record (statusFields ctx.node.id shown executors reviewers)) name =
        .arr jsons → jsons.zipIdx.mapM (fun entry => parseStatusEntry sha256 files name role entry.1 entry.2) = .ok entries →
        parseStatusEntries sha256 files (Json.record (statusFields ctx.node.id shown executors reviewers)) name role =
          .ok entries := by
      intro name role jsons entries hfield hentries
      rw [parseStatusEntries, hfield]
      exact hentries
    obtain ⟨a, q, hexecutor, hreviewer⟩ := hp.standing
    constructor
    · apply hparse _ _ executors
      · exact field_statusFields 12 rfl
      · have hread := parse_written hnames hsha hexecutor hexecutors "canonical_executor_outputs" 0
        rwa [List.map_map] at hread
    · apply hparse _ _ reviewers
      · exact field_statusFields 13 rfl
      · have hread := parse_written hnames hsha hreviewer hreviewers "reviewer_outputs" 0
        rwa [List.map_map] at hread
  have hunique : ((executorEntries ctx shown ++ reviewerEntries ctx shown).map (·.taskId)).Nodup := by
    rw [List.map_append, executorEntries, reviewerEntries, List.map_map, List.map_map]
    rcases hp.selection with ⟨hnone, hnil, -⟩ | ⟨a, q, cs, hcs, hg, -, hb, -⟩
    · simp [hnone, hnil]
    · rw [hcs]
      exact tasks_nodup hnode hg hb
  have hproduced : ∀ entry ∈ executorEntries ctx shown ++ reviewerEntries ctx shown, Produced ctx entry := by
    rcases hp.selection with ⟨hnone, hnil, -⟩ | ⟨a, q, cs, hcs, hg, -, hb, -⟩
    · simp [executorEntries, reviewerEntries, hnone, hnil]
    · exact fun entry hentry => (entries_attribution hcs hg hb entry hentry).2.2
  simp only [resolveReviewLoopStatus, check_then_eq_ok]
  refine ⟨validateStatusMetadata_eq hid, ?_⟩
  rw [hparsed.1, do_eq_ok]
  refine ⟨_, rfl, ?_⟩
  rw [hparsed.2, do_eq_ok]
  refine ⟨_, rfl, ?_⟩
  simp only [check_then_eq_ok]
  refine ⟨validateUniqueTaskIds_eq hunique (by simp), validateExpectedTaskProducers_eq hnode hproduced,
    validateRoundAttribution_eq hp hnode
    (field_statusFields 3 rfl) (field_statusFields 2 rfl) (field_statusFields 1 rfl), rfl⟩

end Accept

end Crewplane.Review
