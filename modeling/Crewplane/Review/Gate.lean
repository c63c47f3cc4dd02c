import Crewplane.Review.Invariant
/-
# The review gate

A stage returns only with a candidate whose own reviews approve it, or that
policy lets through; and every checkpoint it prepares on the way is accepted.
-/
namespace Crewplane.Review

open Crewplane.Lib Crewplane.Plan

/-- What a stage that returned has recorded: one batch of reviews, at the coordinates of the selected candidate, and
either the approval of every reviewer or a stop that policy permits. -/
structure Gate (ctx : Context) (p : ReviewLoopProgress) : Prop where
  pairing : ∃ a r cs, p.latestExecutorOutputs = some cs ∧ cs.map (·.provider) = ctx.executors ∧
    (∀ c ∈ cs, c.auditRoundNum.getD 1 = a ∧ c.roundNum = r) ∧ p.selectedRoundNum = r ∧
    (∀ v ∈ p.latestReviewerOutputs, v.auditRoundNum.getD 1 = a ∧ v.roundNum = r) ∧
    (∀ f ∈ p.reviewerFailures, f.audit = a ∧ f.localRound = r) ∧
    (p.latestReviewerOutputs.map (·.taskId) ++ p.reviewerFailures.map (·.taskId)).Perm (ctx.reviewers.map (·.taskId))
  verdict : (p.stopReason = some .consensus ∧ p.consensusReached = true ∧ p.reviewerFailures = [] ∧
      p.latestReviewerOutputs.map (·.taskId) = ctx.reviewers.map (·.taskId) ∧
      ∀ v ∈ p.latestReviewerOutputs, v.evaluation.approved = true) ∨
    (p.stopReason = some .noProgress ∧ ctx.policy.continueOnFailure = true ∧ p.continuedAfterStop = true ∧
      p.consensusReached = false) ∨
    (p.stopReason = some .consensusExhausted ∧ consensusFailureAllowsContinuation ctx.node = true ∧
      p.continuedAfterExhaustion = true ∧ p.continuedAfterStop = true ∧ p.consensusReached = false)

theorem Finished.gate {ctx : Context} {p : ReviewLoopProgress} (hnode : NodeOk ctx.node) (h : Finished ctx p) :
    Gate ctx p := by
  rcases h.recorded.selection with ⟨hnone, -⟩ | ⟨a, r, -, cs, hcs, hg, -, hsel, hb⟩
  · exact absurd hnone h.latest
  refine ⟨⟨a, r, cs, hcs, hg.providers, fun c hc => hg.stored_coordinates hc, hsel, ?_, ?_, hb.perm⟩, ?_⟩
  · exact fun v hv => hb.stored_coordinates ⟨hg.audit_pos, hg.audit_le⟩ hv
  · exact fun f hf => ⟨(hb.failure hf).2.2.1, (hb.failure hf).2.2.2⟩
  · cases h.permitted with
    | consensus hstop hcons happroved _ _ =>
      have hfailures := h.recorded.consensus hcons
      refine Or.inl ⟨hstop, hcons, hfailures, ?_, happroved⟩
      rw [hb.order hnode, hfailures]
      simp
    | noProgress hstop hpolicy hcons hcont _ => exact Or.inr (Or.inl ⟨hstop, hpolicy, hcont, hcons⟩)
    | exhausted hstop hpolicy hcons hcont hexh => exact Or.inr (Or.inr ⟨hstop, hpolicy, hexh, hcont, hcons⟩)

/-- Whatever the providers answer, a stage that returns has passed the gate. -/
theorem review_gate_sound {ctx : Context} (hnode : NodeOk ctx.node) {p : ReviewLoopProgress} (hstart : Started ctx p)
    (env : Environment) (n : Nat) (hreturned : (runSteps ctx env p n).control = .returned) :
    Gate ctx (runSteps ctx env p n).progress := by
  have hinv : Inv ctx env (runSteps ctx env p n) := inv_runSteps (startable_of_started hnode hstart) n
  have hgood := hinv.good
  rw [hreturned] at hgood
  exact Finished.gate hnode hgood

/-- Every checkpoint a run prepares is accepted for the node that wrote it. -/
theorem prepared_checkpoints_accepted {ctx : Context} (hnode : NodeOk ctx.node) {env : Environment}
    (hev : EvidenceOk ctx env.evidence) {p : ReviewLoopProgress} (hstart : Started ctx p) (n : Nat) :
    ∀ cp ∈ (runSteps ctx env p n).prepared, cp.validate = .ok () ∧ validateCheckpointNode cp ctx.node = .ok () := by
  intro cp hcp
  have hinv : Inv ctx env (runSteps ctx env p n) := inv_runSteps (startable_of_started hnode hstart) n
  obtain ⟨p', phase, r, hb, hprep⟩ := hinv.histories.ofPrepared cp hcp
  exact prepared_accepted hnode hev hb hprep

/-! ## A stage that is approved at once -/

def sampleNode : ReviewNode :=
  { id := "review", mode := .sequential, findings := false, dependencies := [], expansion := none
    inputItemSlot := false, inputContentRef := none
    providerRecords := [⟨"a", .executor, "x"⟩, ⟨"b", .reviewer, "y"⟩]
    executionPolicy := ⟨some 1, some 1, true, none, .executor⟩
    workspacePolicy := none
    stagePath := some ["review"] }

def sampleContext : Context :=
  { node := sampleNode
    isSyntheticInvocationFailure := fun _ => false
    looksLikeRedirectedCandidate := fun _ => false
    contentFingerprint := fun parts => String.join (parts.map Prod.snd)
    readOutput := fun signature => signature.sha256 }

def sampleSignature : ContentSignature := ⟨1, "d"⟩

def sampleEvaluation (approved : Bool) : EvaluatedReviewResult :=
  { verdict := none, approved, majorIssues := if approved then "None" else "m", minorIssues := "None"
    nitpicks := "None", unresolvedFingerprints := [], unresolvedIssueCount := 0, normalizedMarkdown := ""
    rawText := "", evaluationKind := .structured, warnings := [], originalVerdict := none, hadLeadingText := false
    hadTrailingText := false, unstructuredFeedback := none }

/-- Every executor answers at once; the reviewer approves in the given round. -/
def sampleEnvironment (approvedIn : Nat) : Environment :=
  { executors := fun _ _ => .ok fun _ => ⟨some sampleSignature, ⟨.document, some "f", none, none⟩, 0⟩
    reviewers := fun _ r => .ok fun _ => .answered 0 (.evaluated (sampleEvaluation (r = approvedIn)) sampleSignature)
    fault := fun _ _ _ => none
    evidence :=
      { fileSignature := fun _ => some sampleSignature
        generatedRoots := fun _ => none
        workspacePayloads := fun _ => .ok []
        invocationSlug := fun _ _ _ => "slug" } }

theorem sampleNode_ok : NodeOk sampleNode :=
  ⟨rfl, rfl, ⟨_, List.mem_cons_self, rfl⟩, ⟨⟨"b", .reviewer, "y"⟩, by simp [sampleNode], rfl⟩, by simp [sampleNode], rfl⟩

theorem sampleEvidence_ok (r : Nat) : EvidenceOk sampleContext (sampleEnvironment r).evidence := by
  refine ⟨?_, ?_, ?_⟩ <;> intro stored payloads h <;> cases h <;> simp

theorem review_gate_sound_sample : Gate sampleContext (runSteps sampleContext (sampleEnvironment 1) {} 9).progress :=
  review_gate_sound sampleNode_ok .fresh (sampleEnvironment 1) 9 (by decide +kernel)

theorem prepared_checkpoints_accepted_sample :
    (runSteps sampleContext (sampleEnvironment 1) {} 9).prepared.length = 2 ∧
    ∀ cp ∈ (runSteps sampleContext (sampleEnvironment 1) {} 9).prepared,
      cp.validate = .ok () ∧ validateCheckpointNode cp sampleNode = .ok () :=
  ⟨by decide +kernel, prepared_checkpoints_accepted sampleNode_ok (sampleEvidence_ok 1) .fresh 9⟩

end Crewplane.Review
