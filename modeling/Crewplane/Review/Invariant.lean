import Crewplane.Review.Acceptance
/-
# The invariant of the review loop

`Good ctx env control p` says what is true of the progress at each place of the
loop. It is established by `entrySession` from a fresh progress or from one at a
boundary, and every step keeps it; on the way every checkpoint is prepared at a
boundary (`Histories`). The three results about whole runs are read off at the
end: what a stage that returns has recorded, and that its checkpoints are accepted.
-/
namespace Crewplane.Review

open Crewplane.Lib Crewplane.Plan

/-! ## Places of the loop -/

/-- No audit is active, and audit `a` comes next. -/
structure Between (ctx : Context) (a : Nat) (p : ReviewLoopProgress) : Prop where
  recorded : Recorded ctx (p.executedAuditRounds, p.lastRoundNum) p
  continued : p.continuedAfterStop = false
  idle : p.activeAudit = none
  round : p.cursorRound = 1
  phase : p.nextPhase = .executors
  audit_pos : 1 ≤ a
  position : (p.executedAuditRounds = 0 ∧ a = 1 ∧ p.latestExecutorOutputs = none) ∨
    (p.cursorAudit = p.executedAuditRounds ∧ 1 ≤ p.executedAuditRounds ∧ p.executedAuditRounds ≤ ctx.auditRounds ∧
      ((p.executedAuditRounds + 1 = a ∧ 1 ≤ p.lastRoundNum) ∨
        (p.executedAuditRounds = a ∧ p.latestExecutorOutputs = none)))

/-- Audit `a` has started and has no candidate yet. -/
structure Idle (ctx : Context) (a : Nat) (p : ReviewLoopProgress) : Prop extends InAudit ctx a p where
  idle : p.activeAudit = none
  round : p.cursorRound = 1
  phase : p.nextPhase = .executors

/-- The first candidate of the audit is there; a seeded one is valid. -/
structure Unreviewed (ctx : Context) (a : Nat) (before : Option (List ExecutorRoundArtifact))
    (act : AuditRoundProgress) : Prop where
  group : Group ctx a 1 act.executorOutputs
  latest : act.latestValidExecutorOutputs =
    if (validateExecutorOutputs ctx act.executorOutputs).valid then some act.executorOutputs else none
  blank : Blank act
  seeded : before ≠ none → Valid ctx act.executorOutputs

/-- Round `r` is about to start. -/
inductive RoundReady (ctx : Context) (a : Nat) (before : Option (List ExecutorRoundArtifact))
    (act : AuditRoundProgress) : Nat → Bool → Prop
  | first : Unreviewed ctx a before act → RoundReady ctx a before act 1 false
  | next {r : Nat} : Advancing ctx a r act → RoundReady ctx a before act (r + 1) false
  | due {r : Nat} : ReviewDue ctx a r act → RoundReady ctx a before act r true

/-- The audit is over. -/
structure Settled (ctx : Context) (a : Nat) (agreed clean : Bool) (before : Option (List ExecutorRoundArtifact))
    (act : AuditRoundProgress) : Prop where
  lastRound_pos : 1 ≤ act.lastRoundNum
  lastRound : act.lastRoundNum ≤ ctx.maxRound
  outcome : (act.latestValidExecutorOutputs = none ∧ before = none ∧ Blank act ∧ agreed = false) ∨
    ∃ q, q ≤ act.lastRoundNum ∧ (act.stopReason = none ∨ act.stopReason = some .noProgress ∧ agreed = false) ∧
      Chosen ctx a q act.latestValidExecutorOutputs act.latestReviewerOutputs act.reviewerFailures act.selectedRoundNum
  approved : agreed = true → act.reviewerFailures = [] ∧
    ∀ v ∈ act.latestReviewerOutputs, v.evaluation.approved = true
  fresh : clean = true → agreed = true

/-- What a stage starts with. -/
def Startable (ctx : Context) (p : ReviewLoopProgress) : Prop := p = {} ∨ Boundary ctx p p.nextPhase p.cursorRound

/-- The audits are used up. -/
structure Exhausted (ctx : Context) (p : ReviewLoopProgress) : Prop where
  recorded : Recorded ctx (p.executedAuditRounds, p.lastRoundNum) p
  idle : p.activeAudit = none
  cursor : p.cursorAudit = p.executedAuditRounds
  audit_pos : 1 ≤ p.executedAuditRounds
  audit_le : p.executedAuditRounds ≤ ctx.auditRounds
  lastRound_pos : 1 ≤ p.lastRoundNum

/-- The statuses published on the way into audit `a` went through. -/
def Passed (env : Environment) (a : Nat) : Prop := env.fault .entry 0 0 = none ∧ env.fault .auditStart a 0 = none

def Good (ctx : Context) (env : Environment) : Control → ReviewLoopProgress → Prop
  | .entry, p => Startable ctx p
  | .audit a, p => env.fault .entry 0 0 = none ∧
      (Between ctx a p ∨ (a = p.cursorAudit ∧ p.activeAudit ≠ none ∧ Boundary ctx p p.nextPhase p.cursorRound))
  | .preReview a, p => Passed env a ∧ Idle ctx a p
  | .seed a, p => Passed env a ∧ Idle ctx a p
  | .round a r due, p => Passed env a ∧ InAudit ctx a p ∧ ∃ act, p.activeAudit = some act ∧
      RoundReady ctx a p.latestExecutorOutputs act r due
  | .review a r fingerprint, p => Passed env a ∧ InAudit ctx a p ∧ ∃ act, p.activeAudit = some act ∧
      ReviewDue ctx a r act ∧ fingerprint = buildExecutorOutputFingerprint ctx act.executorOutputs
  | .advance a r, p => Passed env a ∧ InAudit ctx a p ∧ ∃ act, p.activeAudit = some act ∧ Advancing ctx a r act
  | .settled a consensus clean, p => env.fault .entry 0 0 = none ∧ InAudit ctx a p ∧ ∃ act, p.activeAudit = some act ∧
      Settled ctx a consensus clean p.latestExecutorOutputs act
  | .exhausted, p => env.fault .entry 0 0 = none ∧ Exhausted ctx p
  | .finalize, p => env.fault .entry 0 0 = none ∧ Finished ctx p
  | .returned, p => Finished ctx p
  | .raised _, _ => True

/-- The checkpoint was prepared at a boundary of this loop. -/
def AtBoundary (ctx : Context) (env : Environment) (cp : OpenReviewCheckpoint) : Prop :=
  ∃ p phase r, Boundary ctx p phase r ∧ prepareCheckpoint ctx env.evidence p phase r = .ok cp

structure Histories (ctx : Context) (env : Environment) (prepared committed : List OpenReviewCheckpoint) : Prop where
  ofPrepared : ∀ cp ∈ prepared, AtBoundary ctx env cp
  ofCommitted : ∀ cp ∈ committed, AtBoundary ctx env cp

structure Inv (ctx : Context) (env : Environment) (s : Session) : Prop where
  good : Good ctx env s.control s.progress
  histories : Histories ctx env s.prepared s.committed

/-! ## Progress that differs where a place does not look -/

section Updates

variable {ctx : Context} {p : ReviewLoopProgress} {before : Option (List ExecutorRoundArtifact)}

theorem InAudit.withActive {a : Nat} (h : InAudit ctx a p) (active : Option AuditRoundProgress)
    (stall : ReviewStallState) : InAudit ctx a { p with activeAudit := active, stall } :=
  ⟨⟨h.recorded.selection, h.recorded.initial, h.recorded.lastRound, h.recorded.consensus⟩, h.continued, h.cursor,
    h.executed, h.audit_pos, h.audit_le⟩

theorem InAudit.withCursor {a : Nat} (h : InAudit ctx a p) (phase : CheckpointPhase) (round : Nat) :
    InAudit ctx a { p with nextPhase := phase, cursorRound := round } :=
  ⟨⟨h.recorded.selection, h.recorded.initial, h.recorded.lastRound, h.recorded.consensus⟩, h.continued, h.cursor,
    h.executed, h.audit_pos, h.audit_le⟩

theorem Finished.withCursor (h : Finished ctx p) (phase : CheckpointPhase) (round : Nat) :
    Finished ctx { p with nextPhase := phase, cursorRound := round } := by
  refine ⟨⟨h.recorded.selection, h.recorded.initial, h.recorded.lastRound, h.recorded.consensus⟩, h.idle, h.latest,
    h.cursor, h.audit_pos, h.audit_le, h.lastRound_pos, ?_⟩
  cases h.permitted with
  | consensus h1 h2 h3 h4 h5 => exact .consensus h1 h2 h3 h4 h5
  | noProgress h1 h2 h3 h4 h5 => exact .noProgress h1 h2 h3 h4 h5
  | exhausted h1 h2 h3 h4 h5 => exact .exhausted h1 h2 h3 h4 h5

/-- Committing moves the cursor to the boundary. -/
theorem Boundary.withCursor {phase : CheckpointPhase} {r : Nat} (h : Boundary ctx p phase r) :
    Boundary ctx { p with nextPhase := phase, cursorRound := r } phase r := by
  cases h with
  | opening hin hidle hnone => exact .opening (hin.withCursor _ _) hidle hnone
  | remediation hin hact hadv hlt => exact .remediation (hin.withCursor _ _) hact hadv hlt
  | review hin hact hdue => exact .review (hin.withCursor _ _) hact hdue
  | finish hfin => exact .finish (hfin.withCursor _ _)

theorem ReviewDue.lastRound_self {a r : Nat} {act : AuditRoundProgress} (h : ReviewDue ctx a r act) :
    { act with lastRoundNum := r } = act := by
  obtain ⟨-, -, hlast, -⟩ := h
  cases act
  simp_all

/-- Starting the audit of the cursor again changes nothing. -/
theorem startedAgain (h : p.executedAuditRounds = p.cursorAudit) :
    { p with cursorAudit := p.cursorAudit, executedAuditRounds := p.cursorAudit } = p := by
  cases p
  simp_all

/-- The place does not look at the round that is attempted. -/
theorem Handed.withRound {a q : Nat} {cs : List ExecutorRoundArtifact} {act : AuditRoundProgress}
    (h : Handed ctx a q cs act) (round : Nat) : Handed ctx a q cs { act with lastRoundNum := round } :=
  ⟨h.group, h.valid, h.latest, h.previous, h.selected, h.batch, h.packet, h.fingerprints, h.stop⟩

theorem Handed.withOutputs {a q : Nat} {cs : List ExecutorRoundArtifact} {act : AuditRoundProgress}
    (h : Handed ctx a q cs act) (outputs : List ExecutorRoundArtifact) (invalid stalled drift : Nat) :
    Handed ctx a q cs { act with
      executorOutputs := outputs, invalidCandidateRoundCount := invalid, noProgressRoundCount := stalled,
      artifactDriftWarningCount := drift } :=
  ⟨h.group, h.valid, h.latest, h.previous, h.selected, h.batch, h.packet, h.fingerprints, h.stop⟩

/-- An audit that stops with the candidate reviewed last. -/
theorem Handed.settled {a q : Nat} {cs : List ExecutorRoundArtifact} {act : AuditRoundProgress}
    (h : Handed ctx a q cs act) (hq : q ≤ act.lastRoundNum) (hle : act.lastRoundNum ≤ ctx.maxRound) :
    Settled ctx a false false before act := by
  have hpos := h.group.round_pos
  refine ⟨by omega, hle, Or.inr ⟨q, hq, Or.inl h.stop, cs, h.latest, h.group, h.valid, h.selected, h.batch⟩, ?_, ?_⟩
  · simp
  · simp

theorem Handed.stopped {a q : Nat} {cs : List ExecutorRoundArtifact} {act : AuditRoundProgress}
    (h : Handed ctx a q cs act) (hq : q ≤ act.lastRoundNum) (hle : act.lastRoundNum ≤ ctx.maxRound) :
    Settled ctx a false false before { act with stopReason := some .noProgress } := by
  have hpos := h.group.round_pos
  refine ⟨by simpa using (by omega : 1 ≤ act.lastRoundNum), hle,
    Or.inr ⟨q, hq, Or.inr ⟨rfl, rfl⟩, cs, h.latest, h.group, h.valid, h.selected, h.batch⟩, ?_, ?_⟩
  · simp
  · simp

/-- A final review that policy rejects is one that took place. -/
theorem selected_of_requiresFailure {a : Nat} {act : AuditRoundProgress}
    (h : completedReviewRequiresFailure ctx a act = true) : act.selectedRoundNum = ctx.maxRound := by
  unfold completedReviewRequiresFailure at h
  simp only [Bool.and_eq_true, decide_eq_true_eq] at h
  omega

end Updates

/-! ## Leaving the loop, and committing -/

section Steps

variable {ctx : Context} {env : Environment} {s : Session}

/-- An exception inside an audit either leaves the loop or, after the last review, settles the audit. -/
theorem inv_raiseInAudit (hist : Histories ctx env s.prepared s.committed) {a : Nat} (hpass : Passed env a) (hin : InAudit ctx a s.progress)
    {act : AuditRoundProgress} (hact : completedReviewRequiresFailure ctx a act = true →
      Settled ctx a false false s.progress.latestExecutorOutputs act) (fault : Fault) : Inv ctx env (raiseInAudit ctx s a act fault) := by
  unfold raiseInAudit
  simp only
  split
  · rename_i hfault
    exact ⟨⟨hpass.1, hin.withActive _ _, act, rfl, hact hfault.2⟩, hist⟩
  · exact ⟨trivial, hist⟩

/-- Committing at a boundary: an exception before the checkpoint is published, or the next phase. -/
theorem inv_commitTransition (hist : Histories ctx env s.prepared s.committed) {phase : CheckpointPhase} {r : Nat}
    (hb : Boundary ctx s.progress phase r) {next : Control} {raise : Session → Fault → Session}
    (hraise : ∀ (t : Session) fault, t.progress = s.progress → Histories ctx env t.prepared t.committed → Inv ctx env (raise t fault))
    (hnext : Good ctx env next { s.progress with nextPhase := phase, cursorRound := r }) :
    Inv ctx env (commitTransition ctx env s phase r next raise) := by
  unfold commitTransition
  split
  · exact hraise s _ rfl hist
  · rename_i cp hprep
    have hat : AtBoundary ctx env cp := ⟨s.progress, phase, r, hb, hprep⟩
    have hist' : ∀ cp' ∈ s.prepared ++ [cp], AtBoundary ctx env cp' := by
      intro cp' hcp'
      rcases List.mem_append.mp hcp' with hcp' | hcp'
      · exact hist.ofPrepared cp' hcp'
      · rw [List.mem_singleton.mp hcp']
        exact hat
    simp only
    split
    · exact hraise _ _ rfl ⟨hist', hist.ofCommitted⟩
    · split
      · exact hraise _ _ rfl ⟨hist', hist.ofCommitted⟩
      · refine ⟨hnext, hist', ?_⟩
        intro cp' hcp'
        rcases List.mem_append.mp hcp' with hcp' | hcp'
        · exact hist.ofCommitted cp' hcp'
        · rw [List.mem_singleton.mp hcp']
          exact hat

/-! ## Entering the stage and its audits -/

theorem inv_enterStage (hist : Histories ctx env s.prepared s.committed) (h : Startable ctx s.progress) :
    Inv ctx env (enterStage env s) := by
  unfold enterStage
  split
  · exact ⟨trivial, hist⟩
  · rename_i hentry
    rcases h with hfresh | hb
    · have hphase : s.progress.nextPhase ≠ .finalize := by simp [hfresh]
      rw [if_neg hphase]
      refine ⟨⟨hentry, Or.inl ?_⟩, hist⟩
      have hcursor : s.progress.cursorAudit = 1 := by rw [hfresh]
      rw [hcursor, hfresh]
      exact ⟨⟨Or.inl ⟨rfl, rfl, rfl, rfl⟩, Or.inr ⟨rfl, rfl, rfl⟩, Nat.zero_le _, by simp⟩, rfl, rfl, rfl, rfl,
        le_refl 1, Or.inl ⟨rfl, rfl, rfl⟩⟩
    · split
      · rename_i hphase
        rw [hphase] at hb
        generalize s.progress.cursorRound = r at hb
        cases hb with
        | finish hfin => exact ⟨hfin, hist⟩
      · rename_i hphase
        refine ⟨⟨hentry, ?_⟩, hist⟩
        cases hact : s.progress.activeAudit with
        | some act => exact Or.inr ⟨rfl, by simp, hb⟩
        | none =>
          left
          generalize hp : s.progress.nextPhase = phase at hb hphase
          generalize hr : s.progress.cursorRound = r at hb
          cases hb with
          | opening hin hidle hnone =>
            have hexec := hin.executed
            refine ⟨hin.recorded.mono (by rw [hexec]; simp), hin.continued, hidle, hr, hp, hin.audit_pos, Or.inr ?_⟩
            exact ⟨hexec.symm, by rw [hexec]; exact hin.audit_pos, by rw [hexec]; exact hin.audit_le,
              Or.inr ⟨hexec, hnone⟩⟩
          | remediation _ hact' _ _ => simp [hact] at hact'
          | review _ hact' _ => simp [hact] at hact'
          | finish _ => exact absurd rfl hphase

/-- An audit starts with what earlier audits recorded. -/
theorem Between.start {a : Nat} {p : ReviewLoopProgress} (h : Between ctx a p) (hle : a ≤ ctx.auditRounds) :
    Idle ctx a { p with cursorAudit := a, executedAuditRounds := a } := by
  have hpos := h.audit_pos
  refine ⟨⟨⟨?_, h.recorded.initial, h.recorded.lastRound, h.recorded.consensus⟩, h.continued, rfl, rfl, hpos, hle⟩,
    h.idle, h.round, h.phase⟩
  rcases h.recorded.selection with hnone | ⟨b, q, htop, hchosen⟩
  · exact Or.inl hnone
  · refine Or.inr ⟨b, q, ?_, hchosen⟩
    obtain ⟨cs, hlatest, hg, -⟩ := hchosen
    have hbpos := hg.audit_pos
    have hsome : p.latestExecutorOutputs ≠ none := by simp [hlatest]
    simp only [atMost] at htop ⊢
    rcases h.position with ⟨hzero, -, -⟩ | ⟨-, -, -, ⟨hnext, -⟩ | ⟨-, hnone⟩⟩
    · omega
    · omega
    · exact absurd hnone hsome

theorem inv_startAudit (hist : Histories ctx env s.prepared s.committed) {a : Nat} (h : Good ctx env (.audit a) s.progress) :
    Inv ctx env (startAudit ctx env s a) := by
  obtain ⟨hentry, h⟩ := h
  unfold startAudit
  split
  · rename_i hover
    rcases h with h | ⟨rfl, hact, hb⟩
    · refine ⟨⟨hentry, ?_⟩, hist⟩
      have hrounds := auditRounds_pos ctx
      rcases h.position with ⟨-, hone, -⟩ | ⟨hcursor, hpos, hle, ⟨hnext, hlast⟩ | ⟨hsame, -⟩⟩
      · omega
      · exact ⟨h.recorded, h.idle, hcursor, hpos, hle, hlast⟩
      · omega
    · have := hb.recorded.2.2.2.1
      omega
  · rename_i hle
    have hle : a ≤ ctx.auditRounds := by omega
    simp only
    split
    · exact ⟨trivial, hist⟩
    · rename_i hstart
      rcases h with h | ⟨rfl, hact, hb⟩
      · have hidle := h.start hle
        split
        · rename_i act hsome
          simp [h.idle] at hsome
        · split
          · rename_i hopen
            refine inv_commitTransition ?_ ?_ (fun t fault _ ht => ⟨trivial, ht⟩) ?_
            · exact hist
            · exact .opening hidle.toInAudit hidle.idle hopen.2
            · exact ⟨⟨hentry, hstart⟩, hidle.toInAudit.withCursor _ _, hidle.idle, rfl, rfl⟩
          · exact ⟨⟨⟨hentry, hstart⟩, hidle⟩, hist⟩
      · have hsame : { s.progress with
            cursorAudit := s.progress.cursorAudit, executedAuditRounds := s.progress.cursorAudit } = s.progress :=
          startedAgain hb.recorded.2.1
        simp only [hsame]
        split
        · rename_i act hsome
          refine ⟨⟨⟨hentry, hstart⟩, ?_⟩, hist⟩
          generalize hp : s.progress.nextPhase = phase at hb
          generalize s.progress.cursorRound = r at hb
          cases hb with
          | opening _ hidle _ => exact absurd hidle hact
          | finish hfin => exact absurd hfin.idle hact
          | remediation hin hact' hadv _ => exact ⟨hin, _, hact', by simpa [hp] using .next hadv⟩
          | review hin hact' hdue => exact ⟨hin, _, hact', by simpa [hp] using .due hdue⟩
        · rename_i hnone
          exact absurd hnone hact

theorem inv_preReview (hist : Histories ctx env s.prepared s.committed) {a : Nat} (hpass : Passed env a) (h : Idle ctx a s.progress) :
    Inv ctx env (preReview ctx env s a) := by
  unfold preReview
  split
  · rename_i hfirst
    obtain ⟨hstarts, rfl, hnone, hfresh⟩ := hfirst
    split
    · exact ⟨trivial, hist⟩
    · exact ⟨trivial, hist⟩
    · split
      · exact ⟨trivial, hist⟩
      · rename_i run hrun
        have hin : InAudit ctx 1 (s.progress.recordInitialReviewerRun run) := by
          refine ⟨⟨h.recorded.selection, ?_, h.recorded.lastRound, h.recorded.consensus⟩, h.continued, h.cursor,
            h.executed, h.audit_pos, h.audit_le⟩
          exact Or.inl ⟨rfl, hstarts, batch_of_run hrun⟩
        have hcursor : (s.progress.recordInitialReviewerRun run).cursorAudit = 1 := h.cursor
        have hopen : Boundary ctx (s.progress.recordInitialReviewerRun run) .executors 1 :=
          .opening (by rw [hcursor]; exact hin) h.idle hnone
        refine inv_commitTransition ?_ hopen (fun t fault _ ht => ⟨trivial, ht⟩) ?_
        · exact hist
        exact ⟨hpass, hin.withCursor _ _, h.idle, rfl, rfl⟩
  · exact ⟨⟨hpass, h⟩, hist⟩

/-! ## Seeding an audit -/

theorem Idle.seeding {a : Nat} {p : ReviewLoopProgress} (h : Idle ctx a p) (drift : Nat) :
    Idle ctx a { p with lastRoundNum := 1, artifactDriftWarningCount := drift } := by
  have hmax := maxRound_ge_two ctx
  exact ⟨⟨⟨h.recorded.selection, h.recorded.initial, by simpa using (by omega : 1 ≤ ctx.maxRound), h.recorded.consensus⟩,
    h.continued, h.cursor, h.executed, h.audit_pos, h.audit_le⟩, h.idle, h.round, h.phase⟩

theorem inv_openAudit (hist : Histories ctx env s.prepared s.committed) {a : Nat} (hpass : Passed env a)
    (h : Idle ctx a s.progress) {outputs : List ExecutorRoundArtifact} (hg : Group ctx a 1 outputs)
    (hseed : s.progress.latestExecutorOutputs ≠ none → Valid ctx outputs) :
    Inv ctx env (openAudit ctx s a outputs) := by
  refine ⟨?_, hist⟩
  have hround : (openAudit ctx s a outputs).control = .round a 1 false := by
    simp [openAudit, h.round, h.phase]
  rw [hround]
  exact ⟨hpass, h.toInAudit.withActive _ _, initialAudit ctx outputs, rfl,
    .first ⟨hg, rfl, ⟨rfl, rfl, rfl, rfl, rfl, rfl⟩, hseed⟩⟩

theorem inv_seedAudit (hist : Histories ctx env s.prepared s.committed) {a : Nat} (hpass : Passed env a)
    (h : Idle ctx a s.progress) : Inv ctx env (seedAudit ctx env s a) := by
  have hmax := maxRound_ge_two ctx
  unfold seedAudit
  simp only
  split
  · rename_i latest hlatest
    split
    · exact ⟨trivial, hist⟩
    · exact ⟨trivial, hist⟩
    · rename_i outputs hseeded
      rcases h.recorded.selection with ⟨hnone, -⟩ | ⟨b, q, htop, cs, hcs, hg, hv, -⟩
      · simp [hnone] at hlatest
      · obtain rfl := Option.some.inj (hlatest.symm.trans hcs)
        obtain rfl := seedExecutorOutputs_eq hseeded
        have hlt := lt_of_atMost_zero htop hg.round_pos
        refine inv_openAudit ?_ hpass ?_ (group_seeded hg hlt h.audit_le) fun _ => valid_seeded hv
        · exact hist
        · exact h.seeding _
  · rename_i hnone
    split
    · exact ⟨trivial, hist⟩
    · refine inv_openAudit ?_ hpass ?_ (group_runExecutorRound ⟨h.audit_pos, h.audit_le⟩ ⟨le_refl 1, by omega⟩ _) ?_
      · exact hist
      · exact h.seeding _
      · intro hsome
        exact absurd hnone hsome

/-! ## Offering a candidate -/

/-- What validating the candidate of round `r` comes to. -/
inductive Offered (ctx : Context) (a r : Nat) (before : Option (List ExecutorRoundArtifact)) :
    AuditRoundProgress → CandidateOutcome → Prop
  | stopped {act : AuditRoundProgress} : Settled ctx a false false before act → Offered ctx a r before act .stop
  | kept {act : AuditRoundProgress} : Advancing ctx a r act → Offered ctx a r before act .continue
  | review {act : AuditRoundProgress} : ReviewDue ctx a r act →
      Offered ctx a r before act (.review (buildExecutorOutputFingerprint ctx act.executorOutputs))

theorem Advancing.settled {a r : Nat} {act : AuditRoundProgress} {before : Option (List ExecutorRoundArtifact)}
    (h : Advancing ctx a r act) : Settled ctx a false false before act := by
  obtain ⟨q, cs, hq, hh, -⟩ := h.state
  have hlast := h.lastRound
  have hle := h.round_le
  exact hh.settled (by omega) (by omega)

/-- Whatever waits for its review has not just been reviewed in the last round. -/
theorem ReviewDue.settled {a r : Nat} {act : AuditRoundProgress} {before : Option (List ExecutorRoundArtifact)}
    (h : ReviewDue ctx a r act) (hfail : completedReviewRequiresFailure ctx a act = true) :
    Settled ctx a false false before act := by
  have hsel := selected_of_requiresFailure hfail
  have hmax := maxRound_ge_two ctx
  have hlast := h.lastRound
  have hle := h.group.round_le
  rcases h.state with ⟨-, -, hblank⟩ | ⟨q, cs, hq, hh⟩
  · have := hblank.selected
    omega
  · exact hh.settled (by omega) (by omega)

theorem Offered.settled {a r : Nat} {act : AuditRoundProgress} {before : Option (List ExecutorRoundArtifact)}
    {outcome : CandidateOutcome} (h : Offered ctx a r before act outcome)
    (hfail : completedReviewRequiresFailure ctx a act = true) : Settled ctx a false false before act := by
  cases h with
  | stopped h => exact h
  | kept h => exact h.settled
  | review h => exact h.settled hfail

/-- A rejection that a cancellation cannot undo ends the audit. -/
theorem Offered.settled_of_survives {a r : Nat} {act : AuditRoundProgress}
    {before : Option (List ExecutorRoundArtifact)} {outcome : CandidateOutcome} (h : Offered ctx a r before act outcome)
    (hsurvives : completedRejectionSurvivesCancellation ctx act a r outcome = true) :
    Settled ctx a false false before act := by
  cases h with
  | stopped h => exact h
  | kept h => exact h.settled
  | review h =>
    have hstop : act.stopReason = none := by
      rcases h.state with ⟨-, -, hblank⟩ | ⟨q, cs, -, hh⟩
      · exact hblank.stop
      · exact hh.stop
    simp [completedRejectionSurvivesCancellation, hstop] at hsurvives

theorem offered_first {a : Nat} {act : AuditRoundProgress} {before : Option (List ExecutorRoundArtifact)}
    (stall : ReviewStallState) (h : Unreviewed ctx a before act) (hlast : act.lastRoundNum = 1) :
    Offered ctx a 1 before (prepareReviewCandidate ctx act stall 1).1 (prepareReviewCandidate ctx act stall 1).2.2 := by
  have hmax := maxRound_ge_two ctx
  unfold prepareReviewCandidate
  have hlatest := h.latest
  by_cases hvalid : (validateExecutorOutputs ctx act.executorOutputs).valid = true
  · rw [if_pos hvalid] at hlatest
    have hdue : ReviewDue ctx a 1 act := ⟨h.group, hvalid, hlast, Or.inl ⟨rfl, hlatest, h.blank⟩⟩
    simp only [hvalid, Bool.not_true, Bool.false_eq_true, if_false, isNoProgressCandidate, Nat.lt_irrefl, decide_false,
      Bool.false_and]
    exact .review hdue
  · rw [if_neg hvalid] at hlatest
    simp only [hvalid, Bool.not_false, if_true]
    have hbefore : before = none := by
      by_contra hsome
      exact hvalid (h.seeded hsome)
    split
    · refine .stopped ⟨by simpa using hlast.ge, by simpa [hlast] using (by omega : 1 ≤ ctx.maxRound),
        Or.inl ⟨hlatest, hbefore, ?_, rfl⟩, by simp, by simp⟩
      exact ⟨h.blank.previous, h.blank.packet, h.blank.reviews, h.blank.failures, h.blank.selected, h.blank.stop⟩
    · rename_i latest hsome
      simp [hlatest] at hsome

theorem offered_next {a q r : Nat} {act : AuditRoundProgress} {before : Option (List ExecutorRoundArtifact)}
    {cs : List ExecutorRoundArtifact} (stall : ReviewStallState) (h : Handed ctx a q cs act) (hq : q < r)
    (hg : Group ctx a r act.executorOutputs) (hlast : act.lastRoundNum = r) :
    Offered ctx a r before (prepareReviewCandidate ctx act stall r).1 (prepareReviewCandidate ctx act stall r).2.2 := by
  have hle := hg.round_le
  have hqpos := h.group.round_pos
  have hkept : ∀ invalid stalled, Advancing ctx a r { act with
      executorOutputs := cs, invalidCandidateRoundCount := invalid, noProgressRoundCount := stalled } :=
    fun invalid stalled => ⟨hlast, hle, q, cs, by omega, h.withOutputs _ _ _ _, rfl⟩
  have hcs : act.latestValidExecutorOutputs.getD [] = cs := by simp [h.latest]
  unfold prepareReviewCandidate
  by_cases hvalid : (validateExecutorOutputs ctx act.executorOutputs).valid = true
  · simp only [hvalid, Bool.not_true, Bool.false_eq_true, if_false]
    split
    · split
      · simp only [hcs]
        exact .stopped ((h.withOutputs cs act.invalidCandidateRoundCount (act.noProgressRoundCount + 1)
          act.artifactDriftWarningCount).stopped (by simpa [hlast] using hq.le) (by simpa [hlast] using hle))
      · simp only [hcs]
        exact .kept (hkept _ _)
    · exact .review ⟨hg, hvalid, hlast, Or.inr ⟨q, cs, hq, h⟩⟩
  · simp only [hvalid, Bool.not_false, if_true]
    split
    · rename_i hnone
      simp [h.latest] at hnone
    · rename_i latest hsome
      obtain rfl : cs = latest := by simpa [h.latest] using hsome
      rw [if_neg (by omega)]
      exact .kept (hkept _ _)

theorem inv_offerCandidate (hist : Histories ctx env s.prepared s.committed) {a r : Nat} (hpass : Passed env a)
    (hin : InAudit ctx a s.progress) {act : AuditRoundProgress}
    (hoffer : Offered ctx a r s.progress.latestExecutorOutputs (prepareReviewCandidate ctx act s.progress.stall r).1
      (prepareReviewCandidate ctx act s.progress.stall r).2.2) :
    Inv ctx env (offerCandidate ctx env s a r act) := by
  unfold offerCandidate
  generalize prepareReviewCandidate ctx act s.progress.stall r = offered at hoffer
  obtain ⟨act', stall, outcome⟩ := offered
  simp only at hoffer ⊢
  have hin' := hin.withActive (some act') stall
  split
  · rename_i fault _
    split
    · rename_i hsurvives
      exact ⟨⟨hpass.1, hin', act', rfl, hoffer.settled_of_survives hsurvives.2⟩, hist⟩
    · refine inv_raiseInAudit ?_ hpass ?_ ?_ _
      · exact hist
      · exact hin'
      · exact fun hfail => hoffer.settled hfail
  · cases hoffer with
    | stopped h => exact ⟨⟨hpass.1, hin', act', rfl, h⟩, hist⟩
    | kept h => exact ⟨⟨hpass, hin', act', rfl, h⟩, hist⟩
    | review h =>
      have hb : Boundary ctx { s.progress with activeAudit := some act', stall } .reviewers r := by
        have hcursor : ({ s.progress with activeAudit := some act', stall } : ReviewLoopProgress).cursorAudit = a :=
          hin.cursor
        exact .review (by rw [hcursor]; exact hin') rfl (by rw [hcursor]; exact h)
      refine inv_commitTransition ?_ hb ?_ ?_
      · exact hist
      · intro t fault ht hist'
        exact inv_raiseInAudit hist' hpass (by rw [ht]; exact hin') (fun hfail => by rw [ht]; exact h.settled hfail) fault
      · exact ⟨hpass, hin'.withCursor _ _, act', rfl, h, rfl⟩

/-! ## Rounds -/

theorem Unreviewed.withRound {a : Nat} {before : Option (List ExecutorRoundArtifact)} {act : AuditRoundProgress}
    (h : Unreviewed ctx a before act) (round : Nat) : Unreviewed ctx a before { act with lastRoundNum := round } :=
  ⟨h.group, h.latest, ⟨h.blank.previous, h.blank.packet, h.blank.reviews, h.blank.failures, h.blank.selected,
    h.blank.stop⟩, h.seeded⟩

theorem inv_recoverOrRaise (hist : Histories ctx env s.prepared s.committed) {a q r : Nat} (hpass : Passed env a)
    (hin : InAudit ctx a s.progress) {act : AuditRoundProgress} {cs : List ExecutorRoundArtifact}
    (h : Handed ctx a q cs act) (hq : q ≤ act.lastRoundNum) (hle : act.lastRoundNum ≤ ctx.maxRound) (fault : Fault) :
    Inv ctx env (recoverOrRaise ctx env s a r act fault) := by
  have hsettled : Settled ctx a false false s.progress.latestExecutorOutputs act := h.settled hq hle
  unfold recoverOrRaise
  split
  · rename_i latest _
    split
    · have hstopped : Settled ctx a false false s.progress.latestExecutorOutputs { act with executorOutputs := latest } :=
        (h.withOutputs latest _ _ _).settled hq hle
      simp only
      split
      · exact ⟨⟨hpass.1, hin.withActive _ _, _, rfl, hstopped⟩, hist⟩
      · split
        · exact ⟨⟨hpass.1, hin.withActive _ _, _, rfl, hstopped⟩, hist⟩
        · exact inv_raiseInAudit hist hpass hin (fun _ => hstopped) _
    · exact inv_raiseInAudit hist hpass hin (fun _ => hsettled) _
  · exact inv_raiseInAudit hist hpass hin (fun _ => hsettled) _

theorem inv_startRound (hist : Histories ctx env s.prepared s.committed) {a r : Nat} {due : Bool}
    (h : Good ctx env (.round a r due) s.progress) : Inv ctx env (startRound ctx env s a r due) := by
  obtain ⟨hpass, hin, act, hact, hready⟩ := h
  have hmax := maxRound_ge_two ctx
  unfold startRound
  rw [hact]
  simp only
  cases hready with
  | first hun =>
    rw [if_neg (by omega)]
    split
    · refine inv_raiseInAudit hist hpass hin ?_ _
      intro hfail
      have hsel := selected_of_requiresFailure hfail
      have := hun.blank.selected
      simp only at hsel
      omega
    · simp only [Bool.false_eq_true, if_false, if_true]
      exact inv_offerCandidate hist hpass hin (offered_first _ (hun.withRound 1) rfl)
  | @next r hadv =>
    obtain ⟨q, cs, hq, hh, hexec⟩ := hadv.state
    have hqpos := hh.group.round_pos
    split
    · exact ⟨⟨hpass.1, hin, act, hact, hadv.settled⟩, hist⟩
    · rename_i hle
      have hh' := hh.withRound (r + 1)
      have hle' : r + 1 ≤ ctx.maxRound := by omega
      split
      · exact inv_raiseInAudit hist hpass hin (fun _ => hh'.settled (by simpa using (by omega : q ≤ r + 1)) hle') _
      · simp only [Bool.false_eq_true, if_false]
        rw [if_neg (by omega)]
        split
        · exact inv_recoverOrRaise hist hpass hin hh' (by simpa using (by omega : q ≤ r + 1)) hle' _
        · rename_i response _
          have hg := group_runExecutorRound ⟨hin.audit_pos, hin.audit_le⟩ ⟨by omega, hle'⟩ response
          exact inv_offerCandidate hist hpass hin
            (offered_next _ (hh'.withOutputs _ _ _ _) (by omega) hg rfl)
  | due hdue =>
    have hle := hdue.group.round_le
    rw [if_neg (by omega), hdue.lastRound_self]
    split
    · exact inv_raiseInAudit hist hpass hin (fun hfail => hdue.settled hfail) _
    · simp only [if_true]
      exact ⟨⟨hpass, hin.withActive _ _, act, rfl, hdue, rfl⟩, hist⟩

/-- The reviewed candidate is the selected one, with exactly its reviews. -/
theorem ReviewDue.recorded {a r : Nat} {act : AuditRoundProgress} {response : TaskId → ReviewerResponse}
    {run : ReviewerRoundRunResult} (h : ReviewDue ctx a r act) (hrun : runReviewerRound ctx a r response = .ok run) :
    act.stopReason = none ∧ (act.recordCompletedReview run r).lastRoundNum = r ∧
    Chosen ctx a r (act.recordCompletedReview run r).latestValidExecutorOutputs
      (act.recordCompletedReview run r).latestReviewerOutputs (act.recordCompletedReview run r).reviewerFailures
      (act.recordCompletedReview run r).selectedRoundNum := by
  refine ⟨?_, h.lastRound, act.executorOutputs, rfl, h.group, h.valid, rfl, batch_of_run hrun⟩
  rcases h.state with ⟨-, -, hblank⟩ | ⟨q, cs, -, hh⟩
  · exact hblank.stop
  · exact hh.stop

theorem inv_reviewRound (hist : Histories ctx env s.prepared s.committed) {a r : Nat} {fingerprint : Option String}
    (h : Good ctx env (.review a r fingerprint) s.progress) : Inv ctx env (reviewRound ctx env s a r fingerprint) := by
  obtain ⟨hpass, hin, act, hact, hdue, -⟩ := h
  unfold reviewRound
  rw [hact]
  simp only
  split
  · exact inv_raiseInAudit hist hpass hin (fun hfail => hdue.settled hfail) _
  · exact inv_raiseInAudit hist hpass hin (fun hfail => hdue.settled hfail) _
  · split
    · exact inv_raiseInAudit hist hpass hin (fun hfail => hdue.settled hfail) _
    · rename_i run hrun
      obtain ⟨hstop, hlast, hchosen⟩ := hdue.recorded hrun
      have hpos := hdue.group.round_pos
      have hle := hdue.group.round_le
      have hsettled : ∀ agreed clean, (agreed = true → run.failures = [] ∧
          ∀ v ∈ run.outputs, v.evaluation.approved = true) → (clean = true → agreed = true) →
          Settled ctx a agreed clean s.progress.latestExecutorOutputs (act.recordCompletedReview run r) :=
        fun agreed clean happroved hclean => ⟨by omega, by omega, Or.inr ⟨r, by omega, Or.inl hstop, hchosen⟩,
          happroved, hclean⟩
      split
      · exact inv_raiseInAudit hist hpass hin (fun _ => hsettled false false (by simp) (by simp)) _
      · split
        · rename_i hconsensus
          refine ⟨⟨hpass.1, hin.withActive _ _, _, rfl, hsettled _ _ ?_ (fun _ => rfl)⟩, hist⟩
          intro _
          obtain ⟨hcount, hall⟩ := hconsensus
          obtain ⟨-, -, hlen, -⟩ := runReviewerRound_eq_ok hrun
          rw [hcount] at hlen
          refine ⟨List.length_eq_zero_iff.mp hlen.symm, ?_⟩
          simp only [checkConsensus, Bool.and_eq_true, List.all_eq_true, List.mem_map, forall_exists_index, and_imp,
            forall_apply_eq_imp_iff₂] at hall
          exact hall.2
        · refine ⟨⟨hpass, hin.withActive _ _, _, rfl, ?_⟩, hist⟩
          refine ⟨hdue.lastRound, hle, r, act.executorOutputs, le_refl r, ?_, rfl⟩
          exact ⟨hdue.group, hdue.valid, rfl, rfl, rfl, batch_of_run hrun, rfl, rfl, hstop⟩

theorem inv_advanceRound (hist : Histories ctx env s.prepared s.committed) {a r : Nat}
    (h : Good ctx env (.advance a r) s.progress) : Inv ctx env (advanceRound ctx env s a r) := by
  obtain ⟨hpass, hin, act, hact, hadv⟩ := h
  have hcursor := hin.cursor
  unfold advanceRound
  rw [hact]
  simp only
  split
  · rename_i hlt
    refine inv_commitTransition hist ?_ ?_ ?_
    · exact .remediation (by rw [hcursor]; exact hin) hact (by rw [hcursor]; exact hadv) hlt
    · intro t fault ht hist'
      exact inv_raiseInAudit hist' hpass (by rw [ht]; exact hin) (fun _ => by rw [ht]; exact hadv.settled) fault
    · exact ⟨hpass, hin.withCursor _ _, act, hact, .next hadv⟩
  · exact ⟨⟨hpass, hin, act, hact, .next hadv⟩, hist⟩

/-! ## The end of an audit -/

/-- What the loop records of an audit that is over. -/
theorem Settled.recorded {a : Nat} {agreed clean : Bool} {p : ReviewLoopProgress} {act : AuditRoundProgress}
    (hin : InAudit ctx a p) (h : Settled ctx a agreed clean p.latestExecutorOutputs act) :
    Recorded ctx (a, act.lastRoundNum) (p.recordAuditResult (act.toResult agreed clean)) ∧
    (act.stopReason = some .noProgress ∨ agreed = true →
      (p.recordAuditResult (act.toResult agreed clean)).latestExecutorOutputs ≠ none) := by
  rcases h.outcome with ⟨hnone, hbefore, hblank, hagreed⟩ | ⟨q, hq, hstop, cs, hcs, hg, hv, hsel, hb⟩
  · have hselected : p.selectedRoundNum = 0 := by
      rcases hin.recorded.selection with ⟨-, -, -, hzero⟩ | ⟨b, q, -, cs, hcs, -⟩
      · exact hzero
      · simp [hbefore] at hcs
    refine ⟨⟨Or.inl ⟨?_, hblank.reviews, hblank.failures, ?_⟩, hin.recorded.initial, h.lastRound, fun _ => hblank.failures⟩,
      ?_⟩
    · simp [ReviewLoopProgress.recordAuditResult, AuditRoundProgress.toResult, hnone, hbefore]
    · simp [ReviewLoopProgress.recordAuditResult, AuditRoundProgress.toResult, hnone, hblank.selected, hselected]
    · simp [hblank.stop, hagreed]
  · have hqpos := hg.round_pos
    have hchosen : Chosen ctx a q (p.recordAuditResult (act.toResult agreed clean)).latestExecutorOutputs
        (p.recordAuditResult (act.toResult agreed clean)).latestReviewerOutputs
        (p.recordAuditResult (act.toResult agreed clean)).reviewerFailures
        (p.recordAuditResult (act.toResult agreed clean)).selectedRoundNum := by
      refine ⟨cs, ?_, hg, hv, ?_, hb⟩
      · simp [ReviewLoopProgress.recordAuditResult, AuditRoundProgress.toResult, hcs]
      · simp [ReviewLoopProgress.recordAuditResult, AuditRoundProgress.toResult, hcs, hsel, Nat.ne_of_gt hqpos]
    refine ⟨⟨Or.inr ⟨a, q, by simpa using hq, hchosen⟩, hin.recorded.initial, h.lastRound, ?_⟩, ?_⟩
    · exact fun hcons => (h.approved hcons).1
    · intro _
      obtain ⟨ds, hds, -⟩ := hchosen
      simp [hds]

theorem inv_settleAudit (hist : Histories ctx env s.prepared s.committed) {a : Nat} {agreed clean : Bool}
    (h : Good ctx env (.settled a agreed clean) s.progress) : Inv ctx env (settleAudit ctx env s a agreed clean) := by
  obtain ⟨hentry, hin, act, hact, hsettled⟩ := h
  obtain ⟨hrec, hlatest⟩ := hsettled.recorded hin
  have hexec := hin.executed
  unfold settleAudit
  rw [hact]
  simp only
  split
  · rename_i hstop
    split
    · exact ⟨trivial, hist⟩
    · rename_i hpolicy
      split
      · exact ⟨trivial, hist⟩
      · refine ⟨⟨hentry, ?_⟩, hist⟩
        have hnot : agreed = false := by
          rcases hsettled.outcome with ⟨-, -, -, hagreed⟩ | ⟨q, -, hcase, -⟩
          · exact hagreed
          · rcases hcase with hnone | ⟨-, hagreed⟩
            · rw [AuditRoundProgress.toResult, hnone] at hstop
              cases hstop
            · exact hagreed
        exact ⟨⟨by rw [← hexec] at hrec; exact hrec.selection, hrec.initial, hrec.lastRound, hrec.consensus⟩, rfl,
          hlatest (Or.inl hstop), hin.cursor.trans hexec.symm, by simpa [ReviewLoopProgress.recordAuditResult, hexec] using
            hin.audit_pos, by simpa [ReviewLoopProgress.recordAuditResult, hexec] using hin.audit_le,
          hsettled.lastRound_pos, .noProgress hstop (by simpa using hpolicy) hnot rfl rfl⟩
  · split
    · exact ⟨trivial, hist⟩
    · split
      · exact ⟨trivial, hist⟩
      · split
        · rename_i hfinish
          have hagreed : agreed = true := by
            unfold reviewLoopCanFinish at hfinish
            split at hfinish
            · rename_i hclean
              exact hsettled.fresh hclean
            · split at hfinish
              · cases hfinish
              · exact hfinish
          refine ⟨⟨hentry, ?_⟩, hist⟩
          exact ⟨⟨by rw [← hexec] at hrec; exact hrec.selection, hrec.initial, hrec.lastRound, hrec.consensus⟩, rfl,
            hlatest (Or.inr hagreed), hin.cursor.trans hexec.symm, by simpa [ReviewLoopProgress.recordAuditResult, hexec]
              using hin.audit_pos, by simpa [ReviewLoopProgress.recordAuditResult, hexec] using hin.audit_le,
            hsettled.lastRound_pos, .consensus rfl hagreed (hsettled.approved hagreed).2 hin.continued rfl⟩
        · refine ⟨⟨hentry, Or.inl ?_⟩, hist⟩
          refine ⟨⟨by rw [← hexec] at hrec; exact hrec.selection, hrec.initial, hrec.lastRound, hrec.consensus⟩,
            hin.continued, rfl, rfl, rfl, by omega, Or.inr ⟨hin.cursor.trans hexec.symm, ?_, ?_, Or.inl ⟨?_, ?_⟩⟩⟩
          · simpa [ReviewLoopProgress.recordAuditResult, hexec] using hin.audit_pos
          · simpa [ReviewLoopProgress.recordAuditResult, hexec] using hin.audit_le
          · simp [ReviewLoopProgress.recordAuditResult, hexec]
          · exact hsettled.lastRound_pos

theorem inv_finishExhausted (hist : Histories ctx env s.prepared s.committed)
    (h : Good ctx env .exhausted s.progress) : Inv ctx env (finishExhausted ctx env s) := by
  obtain ⟨hentry, h⟩ := h
  unfold finishExhausted
  split
  · exact ⟨trivial, hist⟩
  · rename_i hpolicy
    obtain ⟨hlatest, hallowed⟩ := not_or.mp hpolicy
    split
    · exact ⟨trivial, hist⟩
    · refine ⟨⟨hentry, ?_⟩, hist⟩
      exact ⟨⟨h.recorded.selection, h.recorded.initial, h.recorded.lastRound, by simp [ReviewLoopProgress.markConsensusExhausted]⟩,
        h.idle, hlatest, h.cursor, h.audit_pos, h.audit_le, h.lastRound_pos,
        .exhausted rfl (by simpa using hallowed) rfl rfl rfl⟩

theorem inv_finalizeStage (hist : Histories ctx env s.prepared s.committed)
    (h : Good ctx env .finalize s.progress) : Inv ctx env (finalizeStage ctx env s) := by
  unfold finalizeStage
  split
  · exact ⟨trivial, hist⟩
  · exact inv_commitTransition hist (.finish h.2) (fun t fault _ ht => ⟨trivial, ht⟩) (h.2.withCursor _ _)

/-- Every step keeps the invariant. -/
theorem inv_step (h : Inv ctx env s) : Inv ctx env (step ctx env s) := by
  obtain ⟨hgood, hist⟩ := h
  unfold step
  generalize hc : s.control = control at hgood
  cases control with
  | entry => exact inv_enterStage hist hgood
  | audit a => exact inv_startAudit hist hgood
  | preReview a => exact inv_preReview hist hgood.1 hgood.2
  | seed a => exact inv_seedAudit hist hgood.1 hgood.2
  | round a r due => exact inv_startRound hist hgood
  | review a r fingerprint => exact inv_reviewRound hist hgood
  | advance a r => exact inv_advanceRound hist hgood
  | settled a agreed clean => exact inv_settleAudit hist hgood
  | exhausted => exact inv_finishExhausted hist hgood
  | finalize => exact inv_finalizeStage hist hgood
  | returned => exact ⟨by rw [hc]; exact hgood, hist⟩
  | raised fault => exact ⟨by rw [hc]; exact hgood, hist⟩

end Steps

/-! ## Whole runs -/

section Runs

variable {ctx : Context} {env : Environment} {p : ReviewLoopProgress}

theorem runSteps_succ (ctx : Context) (env : Environment) (p : ReviewLoopProgress) (n : Nat) :
    runSteps ctx env p (n + 1) = step ctx env (runSteps ctx env p n) := by
  unfold runSteps
  rw [Function.iterate_succ_apply']

theorem inv_runSteps (h : Startable ctx p) (n : Nat) : Inv ctx env (runSteps ctx env p n) := by
  induction n with
  | zero => exact ⟨h, by simp [runSteps, entrySession], by simp [runSteps, entrySession]⟩
  | succ n ih =>
    rw [runSteps_succ]
    exact inv_step ih

/-- A stage starts at a boundary, also after any number of interruptions. -/
theorem startable_of_started (hnode : NodeOk ctx.node) (h : Started ctx p) : Startable ctx p := by
  induction h with
  | fresh => exact Or.inl rfl
  | @resumed env p q n cp _ hcommitted hrestored ih =>
    obtain ⟨p', phase, r, hb, hprep⟩ := (inv_runSteps ih n).histories.ofCommitted cp hcommitted
    have hrestore := restore_prepared hnode hb hprep
    rw [hrestored, Except.ok.injEq] at hrestore
    rw [hrestore]
    exact Or.inr hb.withCursor

end Runs

end Crewplane.Review
