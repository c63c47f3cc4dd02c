import Crewplane.Review.Rounds
/-
# Phase boundaries

A checkpoint is taken between two phases. `Boundary ctx p phase r` lists the
four situations in which the loop takes one, with everything that is then true
of the progress `p`: before the first executors of an audit, before the executors
of a remediation, before reviewers, and at the end. Everything a boundary carries
has coordinates that tell it apart: `Coherent` says that an output or a review is
determined by its coordinates and its task.
-/
namespace Crewplane.Review

open Crewplane.Lib Crewplane.Plan

/-- `latest` is a valid candidate of round `q` of audit `a`, and the reviews are those of that round. -/
def Chosen (ctx : Context) (a q : Nat) (latest : Option (List ExecutorRoundArtifact))
    (reviews : List ReviewerRoundArtifact) (failures : List CheckpointReviewerFailure) (selected : Nat) : Prop :=
  ∃ cs, latest = some cs ∧ Group ctx a q cs ∧ Valid ctx cs ∧ selected = q ∧ Batch ctx a q reviews failures

/-- What is recorded outside the active audit; the selected candidate is of `top` or before. -/
structure Recorded (ctx : Context) (top : Nat × Nat) (p : ReviewLoopProgress) : Prop where
  selection : (p.latestExecutorOutputs = none ∧ p.latestReviewerOutputs = [] ∧ p.reviewerFailures = [] ∧
      p.selectedRoundNum = 0) ∨
    ∃ a q, atMost (a, q) top ∧
      Chosen ctx a q p.latestExecutorOutputs p.latestReviewerOutputs p.reviewerFailures p.selectedRoundNum
  initial : (p.initialReviewCompleted = true ∧ ctx.policy.reviewStartsWith = .reviewer ∧
      Batch ctx 1 0 p.initialReviews p.initialFailures) ∨
    (p.initialReviewCompleted = false ∧ p.initialReviews = [] ∧ p.initialFailures = [])
  lastRound : p.lastRoundNum ≤ ctx.maxRound
  consensus : p.consensusReached = true → p.reviewerFailures = []

/-- The loop is in audit `a`: what it has selected is from earlier audits. -/
structure InAudit (ctx : Context) (a : Nat) (p : ReviewLoopProgress) : Prop where
  recorded : Recorded ctx (a, 0) p
  continued : p.continuedAfterStop = false
  cursor : p.cursorAudit = a
  executed : p.executedAuditRounds = a
  audit_pos : 1 ≤ a
  audit_le : a ≤ ctx.auditRounds

/-- No round of the audit is reviewed yet. -/
structure Blank (act : AuditRoundProgress) : Prop where
  previous : act.previousExecutorOutputs = none
  packet : act.previousReviewPacket = none
  reviews : act.latestReviewerOutputs = []
  failures : act.reviewerFailures = []
  selected : act.selectedRoundNum = 0
  stop : act.stopReason = none

/-- Round `q` is reviewed, and `cs` handed on with its feedback. -/
structure Handed (ctx : Context) (a q : Nat) (cs : List ExecutorRoundArtifact) (act : AuditRoundProgress) : Prop where
  group : Group ctx a q cs
  valid : Valid ctx cs
  latest : act.latestValidExecutorOutputs = some cs
  previous : act.previousExecutorOutputs = some cs
  selected : act.selectedRoundNum = q
  batch : Batch ctx a q act.latestReviewerOutputs act.reviewerFailures
  packet : act.previousReviewPacket = renderUnresolvedReviewPacket act.latestReviewerOutputs
  fingerprints : act.previousUnresolvedFingerprints = collectUnresolvedFingerprints act.latestReviewerOutputs
  stop : act.stopReason = none

/-- The candidate of round `r` waits for its reviewers. -/
structure ReviewDue (ctx : Context) (a r : Nat) (act : AuditRoundProgress) : Prop where
  group : Group ctx a r act.executorOutputs
  valid : Valid ctx act.executorOutputs
  lastRound : act.lastRoundNum = r
  state : (r = 1 ∧ act.latestValidExecutorOutputs = some act.executorOutputs ∧ Blank act) ∨
    ∃ q cs, q < r ∧ Handed ctx a q cs act

/-- Round `r` is over, and the next executors start from the candidate reviewed last. -/
structure Advancing (ctx : Context) (a r : Nat) (act : AuditRoundProgress) : Prop where
  lastRound : act.lastRoundNum = r
  round_le : r ≤ ctx.maxRound
  state : ∃ q cs, q ≤ r ∧ Handed ctx a q cs act ∧ act.executorOutputs = cs

/-- The stop reasons with which a stage ends, and what is recorded with each. -/
inductive Permitted (ctx : Context) (p : ReviewLoopProgress) : Prop
  | consensus : p.stopReason = some .consensus → p.consensusReached = true →
      (∀ v ∈ p.latestReviewerOutputs, v.evaluation.approved = true) → p.continuedAfterStop = false →
      p.continuedAfterExhaustion = false → Permitted ctx p
  | noProgress : p.stopReason = some .noProgress → ctx.policy.continueOnFailure = true → p.consensusReached = false →
      p.continuedAfterStop = true → p.continuedAfterExhaustion = false → Permitted ctx p
  | exhausted : p.stopReason = some .consensusExhausted → consensusFailureAllowsContinuation ctx.node = true →
      p.consensusReached = false → p.continuedAfterStop = true → p.continuedAfterExhaustion = true → Permitted ctx p

/-- The audits are over, with a reviewed candidate. -/
structure Finished (ctx : Context) (p : ReviewLoopProgress) : Prop where
  recorded : Recorded ctx (p.executedAuditRounds, p.lastRoundNum) p
  idle : p.activeAudit = none
  latest : p.latestExecutorOutputs ≠ none
  cursor : p.cursorAudit = p.executedAuditRounds
  audit_pos : 1 ≤ p.executedAuditRounds
  audit_le : p.executedAuditRounds ≤ ctx.auditRounds
  lastRound_pos : 1 ≤ p.lastRoundNum
  permitted : Permitted ctx p

inductive Boundary (ctx : Context) (p : ReviewLoopProgress) : CheckpointPhase → Nat → Prop
  | opening : InAudit ctx p.cursorAudit p → p.activeAudit = none → p.latestExecutorOutputs = none →
      Boundary ctx p .executors 1
  | remediation {act : AuditRoundProgress} {r : Nat} : InAudit ctx p.cursorAudit p → p.activeAudit = some act →
      Advancing ctx p.cursorAudit r act → r < ctx.maxRound → Boundary ctx p .executors (r + 1)
  | review {act : AuditRoundProgress} {r : Nat} : InAudit ctx p.cursorAudit p → p.activeAudit = some act →
      ReviewDue ctx p.cursorAudit r act → Boundary ctx p .reviewers r
  | finish : Finished ctx p → Boundary ctx p .finalize p.lastRoundNum

/-! ## Carried outputs -/

namespace ReviewLoopProgress

variable (p : ReviewLoopProgress)

def candidates : List ExecutorRoundArtifact :=
  p.latestExecutorOutputs.getD [] ++
    match p.activeAudit with
    | none => []
    | some active => active.executorOutputs ++ active.previousExecutorOutputs.getD [] ++
        active.latestValidExecutorOutputs.getD []

def reviews : List ReviewerRoundArtifact :=
  p.initialReviews ++ p.latestReviewerOutputs ++
    match p.activeAudit with
    | none => []
    | some active => active.latestReviewerOutputs

def failures : List CheckpointReviewerFailure :=
  p.initialFailures ++ p.reviewerFailures ++
    match p.activeAudit with
    | none => []
    | some active => active.reviewerFailures

/-- The carried executor round with these coordinates. -/
def groupAt (c : Nat × Nat) : List ExecutorRoundArtifact :=
  match p.activeAudit with
  | none => p.latestExecutorOutputs.getD []
  | some active =>
    if c.1 ≠ p.cursorAudit then p.latestExecutorOutputs.getD []
    else if c.2 = active.lastRoundNum then active.executorOutputs
    else active.latestValidExecutorOutputs.getD []

/-- The carried reviewer round with these coordinates. -/
def batchAt (c : Nat × Nat) : List ReviewerRoundArtifact × List CheckpointReviewerFailure :=
  if c.2 = 0 then (p.initialReviews, p.initialFailures) else
    match p.activeAudit with
    | none => (p.latestReviewerOutputs, p.reviewerFailures)
    | some active =>
      if c.1 ≠ p.cursorAudit then (p.latestReviewerOutputs, p.reviewerFailures)
      else (active.latestReviewerOutputs, active.reviewerFailures)

end ReviewLoopProgress

/-- A reviewer round the progress carries, not after `top`. -/
structure CarriedBatch (ctx : Context) (p : ReviewLoopProgress) (top : Nat × Nat) (a r : Nat) : Prop where
  batch : Batch ctx a r (p.batchAt (a, r)).1 (p.batchAt (a, r)).2
  audit_pos : 1 ≤ a
  audit_le : a ≤ ctx.auditRounds
  round_le : r ≤ ctx.maxRound
  top : atMost (a, r) top
  initial : r = 0 → a = 1 ∧ ctx.policy.reviewStartsWith = .reviewer

/-- Everything carried belongs to a round that its coordinates determine. -/
structure Coherent (ctx : Context) (p : ReviewLoopProgress) (top : Nat × Nat) : Prop where
  candidates : ∀ c ∈ p.candidates, ∃ a r, c ∈ p.groupAt (a, r) ∧ Group ctx a r (p.groupAt (a, r)) ∧
    Valid ctx (p.groupAt (a, r)) ∧ atMost (a, r) top
  reviews : ∀ v ∈ p.reviews, ∃ a r, v ∈ (p.batchAt (a, r)).1 ∧ CarriedBatch ctx p top a r
  failures : ∀ f ∈ p.failures, ∃ a r, f ∈ (p.batchAt (a, r)).2 ∧ CarriedBatch ctx p top a r

section Lemmas

variable {ctx : Context} {p : ReviewLoopProgress}

theorem atMost_trans {x y z : Nat × Nat} (h : atMost x y) (h' : atMost y z) : atMost x z := by
  unfold atMost at *
  omega

@[simp] theorem atMost_same_audit (a q r : Nat) : atMost (a, q) (a, r) ↔ q ≤ r := by simp [atMost]

/-- What an audit inherits is from before it. -/
theorem lt_of_atMost_zero {a b q : Nat} (h : atMost (b, q) (a, 0)) (hq : 1 ≤ q) : b < a := by
  simp only [atMost] at h
  omega

theorem Recorded.mono {top top' : Nat × Nat} (h : Recorded ctx top p) (hle : atMost top top') :
    Recorded ctx top' p := by
  refine ⟨?_, h.initial, h.lastRound, h.consensus⟩
  rcases h.selection with hnone | ⟨a, q, htop, hchosen⟩
  · exact Or.inl hnone
  · exact Or.inr ⟨a, q, atMost_trans htop hle, hchosen⟩

/-- The initial review, if there was one, is carried. -/
theorem Recorded.initial_carried {top top' : Nat × Nat} (h : Recorded ctx top p) (htop : 1 ≤ top'.1) :
    (∀ v ∈ p.initialReviews, CarriedBatch ctx p top' 1 0) ∧ (∀ f ∈ p.initialFailures, CarriedBatch ctx p top' 1 0) := by
  rcases h.initial with ⟨-, hstarts, hbatch⟩ | ⟨-, hr, hf⟩
  · have hcarried : CarriedBatch ctx p top' 1 0 := by
      refine ⟨hbatch, le_refl 1, auditRounds_pos ctx, Nat.zero_le _, ?_, fun _ => ⟨rfl, hstarts⟩⟩
      simp only [atMost]
      omega
    exact ⟨fun _ _ => hcarried, fun _ _ => hcarried⟩
  · simp [hr, hf]

/-- A batch next to its candidate is carried, whatever the audit is. -/
theorem carried_of_batch {a q : Nat} {cs : List ExecutorRoundArtifact} {top : Nat × Nat} (hg : Group ctx a q cs)
    (hb : Batch ctx a q (p.batchAt (a, q)).1 (p.batchAt (a, q)).2) (htop : atMost (a, q) top) :
    CarriedBatch ctx p top a q := by
  have hq := hg.round_pos
  exact ⟨hb, hg.audit_pos, hg.audit_le, hg.round_le, htop, by omega⟩

/-- What the recorded selection carries, given where it is found. -/
theorem Recorded.coherent {top top' : Nat × Nat} (h : Recorded ctx top p) (hle : atMost top top')
    (hgroup : ∀ a q, atMost (a, q) top → 1 ≤ q → p.groupAt (a, q) = p.latestExecutorOutputs.getD [])
    (hbatch : ∀ a q, atMost (a, q) top → 1 ≤ q → p.batchAt (a, q) = (p.latestReviewerOutputs, p.reviewerFailures)) :
    (∀ c ∈ p.latestExecutorOutputs.getD [], ∃ a r, c ∈ p.groupAt (a, r) ∧ Group ctx a r (p.groupAt (a, r)) ∧
      Valid ctx (p.groupAt (a, r)) ∧ atMost (a, r) top') ∧
    (∀ v ∈ p.latestReviewerOutputs, ∃ a r, v ∈ (p.batchAt (a, r)).1 ∧ CarriedBatch ctx p top' a r) ∧
    (∀ f ∈ p.reviewerFailures, ∃ a r, f ∈ (p.batchAt (a, r)).2 ∧ CarriedBatch ctx p top' a r) := by
  rcases h.selection with ⟨hlatest, hreviews, hfailures, -⟩ | ⟨a, q, htop, cs, hlatest, hg, hv, -, hb⟩
  · simp [hlatest, hreviews, hfailures]
  · have hgr := hgroup a q htop hg.round_pos
    have hba := hbatch a q htop hg.round_pos
    rw [hlatest, Option.getD_some] at hgr
    have hcarried : CarriedBatch ctx p top' a q :=
      carried_of_batch hg (by rw [hba]; exact hb) (atMost_trans htop hle)
    refine ⟨?_, ?_, ?_⟩
    · intro c hc
      rw [hlatest, Option.getD_some] at hc
      exact ⟨a, q, by rw [hgr]; exact hc, by rw [hgr]; exact hg, by rw [hgr]; exact hv, atMost_trans htop hle⟩
    · intro v hv'
      exact ⟨a, q, by rw [hba]; exact hv', hcarried⟩
    · intro f hf
      exact ⟨a, q, by rw [hba]; exact hf, hcarried⟩

/-- Without an active audit only the recorded selection is carried. -/
theorem Recorded.coherent_idle {top top' : Nat × Nat} (h : Recorded ctx top p) (hidle : p.activeAudit = none)
    (hle : atMost top top') (htop : 1 ≤ top'.1) : Coherent ctx p top' := by
  have hgroup : ∀ a q, atMost (a, q) top → 1 ≤ q → p.groupAt (a, q) = p.latestExecutorOutputs.getD [] := by
    intro a q _ _
    simp [ReviewLoopProgress.groupAt, hidle]
  have hbatch : ∀ a q, atMost (a, q) top → 1 ≤ q →
      p.batchAt (a, q) = (p.latestReviewerOutputs, p.reviewerFailures) := by
    intro a q _ hq
    simp [ReviewLoopProgress.batchAt, hidle, Nat.ne_of_gt hq]
  obtain ⟨hc, hr, hf⟩ := h.coherent hle hgroup hbatch
  obtain ⟨hir, hif⟩ := h.initial_carried htop
  refine ⟨?_, ?_, ?_⟩
  · intro c hmem
    exact hc c (by simpa [ReviewLoopProgress.candidates, hidle] using hmem)
  · intro v hmem
    simp only [ReviewLoopProgress.reviews, hidle, List.append_nil, List.mem_append] at hmem
    rcases hmem with hmem | hmem
    · exact ⟨1, 0, hmem, hir v hmem⟩
    · exact hr v hmem
  · intro f hmem
    simp only [ReviewLoopProgress.failures, hidle, List.append_nil, List.mem_append] at hmem
    rcases hmem with hmem | hmem
    · exact ⟨1, 0, hmem, hif f hmem⟩
    · exact hf f hmem

/-- With an active audit its groups come on top, at the coordinates of that audit. -/
theorem InAudit.coherent {a : Nat} {act : AuditRoundProgress} {top : Nat × Nat} (h : InAudit ctx a p)
    (hact : p.activeAudit = some act) (htop : atMost (a, 0) top)
    (hcands : ∀ c ∈ act.executorOutputs ++ act.previousExecutorOutputs.getD [] ++
        act.latestValidExecutorOutputs.getD [], ∃ r, c ∈ p.groupAt (a, r) ∧ Group ctx a r (p.groupAt (a, r)) ∧
      Valid ctx (p.groupAt (a, r)) ∧ atMost (a, r) top)
    (hbatches : act.latestReviewerOutputs = [] ∧ act.reviewerFailures = [] ∨ ∃ q cs, Group ctx a q cs ∧
      atMost (a, q) top ∧ Batch ctx a q act.latestReviewerOutputs act.reviewerFailures) : Coherent ctx p top := by
  have hcursor := h.cursor
  have hgroup : ∀ b q, atMost (b, q) (a, 0) → 1 ≤ q → p.groupAt (b, q) = p.latestExecutorOutputs.getD [] := by
    intro b q hb hq
    have hlt := lt_of_atMost_zero hb hq
    have hne : b ≠ p.cursorAudit := by omega
    simp [ReviewLoopProgress.groupAt, hact, hne]
  have hbatch : ∀ b q, atMost (b, q) (a, 0) → 1 ≤ q →
      p.batchAt (b, q) = (p.latestReviewerOutputs, p.reviewerFailures) := by
    intro b q hb hq
    have hlt := lt_of_atMost_zero hb hq
    have hne : b ≠ p.cursorAudit := by omega
    simp [ReviewLoopProgress.batchAt, hact, hne, Nat.ne_of_gt hq]
  have hactive : ∀ q, 1 ≤ q → p.batchAt (a, q) = (act.latestReviewerOutputs, act.reviewerFailures) := by
    intro q hq
    simp [ReviewLoopProgress.batchAt, hact, hcursor, Nat.ne_of_gt hq]
  have htop1 : 1 ≤ top.1 := by
    have := h.audit_pos
    simp only [atMost] at htop
    omega
  obtain ⟨hc, hr, hf⟩ := h.recorded.coherent htop hgroup hbatch
  obtain ⟨hir, hif⟩ := h.recorded.initial_carried htop1
  have hnew : (∀ v ∈ act.latestReviewerOutputs, ∃ b r, v ∈ (p.batchAt (b, r)).1 ∧ CarriedBatch ctx p top b r) ∧
      (∀ f ∈ act.reviewerFailures, ∃ b r, f ∈ (p.batchAt (b, r)).2 ∧ CarriedBatch ctx p top b r) := by
    rcases hbatches with ⟨hr, hf⟩ | ⟨q, cs, hg, hle, hb⟩
    · simp [hr, hf]
    · have hat := hactive q hg.round_pos
      have hcarried : CarriedBatch ctx p top a q := carried_of_batch hg (by rw [hat]; exact hb) hle
      exact ⟨fun v hv => ⟨a, q, by rw [hat]; exact hv, hcarried⟩, fun f hf => ⟨a, q, by rw [hat]; exact hf, hcarried⟩⟩
  refine ⟨?_, ?_, ?_⟩
  · intro c hmem
    simp only [ReviewLoopProgress.candidates, hact] at hmem
    rcases List.mem_append.mp hmem with hmem | hmem
    · exact hc c hmem
    · obtain ⟨r, hr⟩ := hcands c hmem
      exact ⟨a, r, hr⟩
  · intro v hmem
    simp only [ReviewLoopProgress.reviews, hact, List.mem_append] at hmem
    rcases hmem with (hmem | hmem) | hmem
    · exact ⟨1, 0, hmem, hir v hmem⟩
    · exact hr v hmem
    · exact hnew.1 v hmem
  · intro f hmem
    simp only [ReviewLoopProgress.failures, hact, List.mem_append] at hmem
    rcases hmem with (hmem | hmem) | hmem
    · exact ⟨1, 0, hmem, hif f hmem⟩
    · exact hf f hmem
    · exact hnew.2 f hmem

theorem Advancing.coherent {a r : Nat} {act : AuditRoundProgress} {top : Nat × Nat} (hin : InAudit ctx a p)
    (hact : p.activeAudit = some act) (h : Advancing ctx a r act) (htop : atMost (a, r) top) : Coherent ctx p top := by
  obtain ⟨q, cs, hqr, hh, hexec⟩ := h.state
  have hat : p.groupAt (a, q) = cs := by
    simp [ReviewLoopProgress.groupAt, hact, hin.cursor, hexec, hh.latest]
  have hq : atMost (a, q) top := atMost_trans (by simpa using hqr) htop
  refine hin.coherent hact (atMost_trans (by simp) htop) ?_ (Or.inr ⟨q, cs, hh.group, hq, hh.batch⟩)
  intro c hc
  have hc : c ∈ cs := by simpa [hexec, hh.previous, hh.latest] using hc
  exact ⟨q, by rw [hat]; exact hc, by rw [hat]; exact hh.group, by rw [hat]; exact hh.valid, hq⟩

theorem ReviewDue.coherent {a r : Nat} {act : AuditRoundProgress} (hin : InAudit ctx a p)
    (hact : p.activeAudit = some act) (h : ReviewDue ctx a r act) : Coherent ctx p (a, r) := by
  have hexec : p.groupAt (a, r) = act.executorOutputs := by
    simp [ReviewLoopProgress.groupAt, hact, hin.cursor, h.lastRound]
  have htop : atMost (a, r) (a, r) := by simp
  have hzero : atMost (a, 0) (a, r) := by simp
  have hnew : ∀ c ∈ act.executorOutputs, ∃ k, c ∈ p.groupAt (a, k) ∧ Group ctx a k (p.groupAt (a, k)) ∧
      Valid ctx (p.groupAt (a, k)) ∧ atMost (a, k) (a, r) := by
    intro c hc
    exact ⟨r, by rw [hexec]; exact hc, by rw [hexec]; exact h.group, by rw [hexec]; exact h.valid, htop⟩
  rcases h.state with ⟨-, hlatest, hblank⟩ | ⟨q, cs, hqr, hh⟩
  · refine hin.coherent hact hzero ?_ (Or.inl ⟨hblank.reviews, hblank.failures⟩)
    intro c hc
    exact hnew c (by simpa [hlatest, hblank.previous] using hc)
  · have hat : p.groupAt (a, q) = cs := by
      simp [ReviewLoopProgress.groupAt, hact, hin.cursor, h.lastRound, Nat.ne_of_lt hqr, hh.latest]
    have hq : atMost (a, q) (a, r) := by simpa using hqr.le
    refine hin.coherent hact hzero ?_ (Or.inr ⟨q, cs, hh.group, hq, hh.batch⟩)
    intro c hc
    have hc : c ∈ act.executorOutputs ∨ c ∈ cs := by simpa [hh.previous, hh.latest] using hc
    rcases hc with hc | hc
    · exact hnew c hc
    · exact ⟨q, by rw [hat]; exact hc, by rw [hat]; exact hh.group, by rw [hat]; exact hh.valid, hq⟩

/-- Whatever the boundary, everything it carries is determined by its coordinates. -/
theorem Boundary.coherent {phase : CheckpointPhase} {r : Nat} (h : Boundary ctx p phase r) :
    Coherent ctx p (p.cursorAudit, r) := by
  cases h with
  | opening hin hidle _ =>
    exact hin.recorded.coherent_idle hidle (by simp) hin.audit_pos
  | remediation hin hact hadv _ => exact hadv.coherent hin hact (by simp)
  | review hin hact hdue => exact hdue.coherent hin hact
  | finish hfin =>
    rw [hfin.cursor]
    exact hfin.recorded.coherent_idle hfin.idle (by simp) hfin.audit_pos

end Lemmas

end Crewplane.Review
