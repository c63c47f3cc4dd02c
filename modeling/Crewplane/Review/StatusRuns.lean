import Crewplane.Review.Gate
import Crewplane.Review.StatusAgreement
/-
# Every status the loop writes

`writtenStatuses` lists the progress values with which a step writes the status: at the head of each round, when an
audit is over, with each decision on it, when a finished stage is restored, and on the way out with an exception. All are
attributed: while an audit is active the snapshot shows its candidate once it has a verdict, and before that the
one selected earlier.
-/
namespace Crewplane.Review

open Crewplane.Lib Crewplane.Plan

/-! ## Where a status is written -/

/-- The statuses on the way out: in an audit at once (audit_round.py:97), then with the reason (orchestration.py:132-145). -/
def statusesOnFailure (inAudit : Bool) (s : Session) : List ReviewLoopProgress :=
  match s.control with
  | .raised fault =>
    (if inAudit then [s.progress] else []) ++
      match fault with
      | .policy _ => []
      | .cancelled => [{ s.progress with stopReason := some .cancelled, consensusReached := false }]
      | _ => [{ s.progress with stopReason := s.progress.stopReason.or (some .failed) }]
  | _ => []

/-- `_publish_exhausted_rejection`. -/
def rejectedStatus (p : ReviewLoopProgress) : ReviewLoopProgress :=
  let rejected := p.markConsensusExhausted false
  if p.latestExecutorOutputs = none then { rejected with stopReason := some .noValidCandidate } else rejected

section Written

variable (ctx : Context) (env : Environment)

/-- The statuses at the end of an audit whose result is recorded in `p`. -/
def settledStatuses (p : ReviewLoopProgress) (result : AuditRoundResult) (a : Nat) : List ReviewLoopProgress :=
  if result.stopReason = some .noProgress then [p, { p with continuedAfterStop := ctx.policy.continueOnFailure }]
  else if a = ctx.auditRounds ∧ reviewLoopCanFinish ctx result a = false ∧
      (p.latestExecutorOutputs = none ∨ consensusFailureAllowsContinuation ctx.node = false) then
    [p, rejectedStatus { p with cursorRound := 1, nextPhase := .executors }]
  else if reviewLoopCanFinish ctx result a then
    [p, { p with cursorRound := 1, nextPhase := .executors, stopReason := some .consensus }]
  else [p]

def writtenStatuses (s : Session) : List ReviewLoopProgress :=
  match s.control with
  | .entry => if (step ctx env s).control = .returned then [s.progress] else []
  | .audit _ | .preReview _ | .seed _ | .finalize => statusesOnFailure false (step ctx env s)
  | .round _ r _ =>
    (match s.progress.activeAudit with
      | some active =>
        if ctx.maxRound < r then [] else [{ s.progress with activeAudit := some { active with lastRoundNum := r } }]
      | none => []) ++ statusesOnFailure true (step ctx env s)
  | .review _ _ _ | .advance _ _ => statusesOnFailure true (step ctx env s)
  | .settled a consensus clean =>
    (match s.progress.activeAudit with
      | some active =>
        settledStatuses ctx (s.progress.recordAuditResult (active.toResult consensus clean)) (active.toResult consensus clean) a
      | none => []) ++ statusesOnFailure false (step ctx env s)
  | .exhausted =>
    (if s.progress.latestExecutorOutputs = none ∨ consensusFailureAllowsContinuation ctx.node = false then
      [rejectedStatus s.progress]
    else [s.progress.markConsensusExhausted true]) ++ statusesOnFailure false (step ctx env s)
  | .returned | .raised _ => []

end Written

/-! ## Attribution -/

section Attribution

variable {ctx : Context} {p p' : ReviewLoopProgress} {a r : Nat} {act : AuditRoundProgress}

/-- Only these fields count. -/
theorem Attributed.congr (h : Attributed ctx p) (hexecuted : p'.executedAuditRounds = p.executedAuditRounds)
    (hlatest : p'.latestExecutorOutputs = p.latestExecutorOutputs)
    (hreviews : p'.latestReviewerOutputs = p.latestReviewerOutputs) (hselected : p'.selectedRoundNum = p.selectedRoundNum)
    (hlast : p'.lastRoundNum = p.lastRoundNum) : Attributed ctx p' := by
  constructor
  · rw [hexecuted]
    exact h.executed_le
  · rw [hexecuted, hlatest, hreviews, hselected, hlast]
    exact h.selection

theorem snapshot_idle (hidle : p.activeAudit = none) (h : Attributed ctx p) : Attributed ctx p.snapshot := by
  have hsnapshot : p.snapshot = { p with activeAudit := none } := by
    rw [ReviewLoopProgress.snapshot, hidle]
    by_cases hstop : p.stopReason.isSome <;> simp [hstop]
  rw [hsnapshot]
  exact h.congr rfl rfl rfl rfl rfl

theorem snapshot_congr (hactive : p'.activeAudit = p.activeAudit) (hexecuted : p'.executedAuditRounds = p.executedAuditRounds)
    (hlatest : p'.latestExecutorOutputs = p.latestExecutorOutputs)
    (hreviews : p'.latestReviewerOutputs = p.latestReviewerOutputs) (hselected : p'.selectedRoundNum = p.selectedRoundNum)
    (hlast : p'.lastRoundNum = p.lastRoundNum) (h : Attributed ctx p.snapshot) : Attributed ctx p'.snapshot := by
  apply h.congr
  all_goals
    simp only [ReviewLoopProgress.snapshot, hactive]
    cases p.activeAudit with
    | none =>
      by_cases hstop : p.stopReason.isSome <;> by_cases hstop' : p'.stopReason.isSome <;>
        simp only [hstop, hstop', Bool.false_eq_true, if_true, if_false, hexecuted, hlatest, hreviews, hselected, hlast]
    | some act =>
      by_cases hstop : p.stopReason.isSome <;> by_cases hstop' : p'.stopReason.isSome <;>
        by_cases hearlier : act.selectedRoundNum = 0 ∧ p.latestExecutorOutputs ≠ none ∧ p.latestExecutorOutputs ≠ some [] <;>
        cases hvalid : act.latestValidExecutorOutputs <;>
        simp [hstop, hstop', hearlier, hvalid, hexecuted, hlatest, hreviews, hselected,
          ReviewLoopProgress.recordAuditResult, AuditRoundProgress.toResult]

theorem Recorded.attributed {top : Nat × Nat} (h : Recorded ctx top p) (hle : p.executedAuditRounds ≤ ctx.auditRounds)
    (hplace : ∀ b q, 1 ≤ q → atMost (b, q) top → b < p.executedAuditRounds ∨ q ≤ p.lastRoundNum) : Attributed ctx p := by
  refine ⟨hle, ?_⟩
  rcases h.selection with ⟨hnone, hreviews, -, hselected⟩ | ⟨b, q, htop, cs, hcs, hg, -, hselected, hb⟩
  · exact .inl ⟨hnone, hreviews, hselected⟩
  · exact .inr ⟨b, q, cs, hcs, hg, hselected, .inr ⟨_, hb⟩, hplace b q hg.round_pos htop⟩

/-- An audit without an active round shows what earlier audits selected. -/
theorem InAudit.attributed (h : InAudit ctx a p) : Attributed ctx p := by
  refine h.recorded.attributed (by rw [h.executed]; exact h.audit_le) fun b q hq htop => ?_
  rw [h.executed]
  simp only [atMost] at htop
  omega

/-- What an active audit shows: its first candidate while nothing is reviewed, then the one reviewed last. -/
inductive Selects (ctx : Context) (a : Nat) (act : AuditRoundProgress) : Prop
  | unreviewed : act.selectedRoundNum = 0 → act.latestReviewerOutputs = [] →
      (∀ cs, act.latestValidExecutorOutputs = some cs → Group ctx a 1 cs) → Selects ctx a act
  | reviewed {q : Nat} : q ≤ act.lastRoundNum →
      Chosen ctx a q act.latestValidExecutorOutputs act.latestReviewerOutputs act.reviewerFailures act.selectedRoundNum →
      Selects ctx a act

/-- The result of an active audit, recorded after its candidate was reviewed. -/
theorem recorded_reviewed (hin : InAudit ctx a p) {q : Nat} (hq : q ≤ act.lastRoundNum)
    (h : Chosen ctx a q act.latestValidExecutorOutputs act.latestReviewerOutputs act.reviewerFailures act.selectedRoundNum)
    (agreed clean : Bool) : Attributed ctx (p.recordAuditResult (act.toResult agreed clean)) := by
  obtain ⟨cs, hcs, hg, -, hselected, hb⟩ := h
  have hpos := hg.round_pos
  refine ⟨by rw [show (p.recordAuditResult _).executedAuditRounds = _ from hin.executed]; exact hin.audit_le,
    .inr ⟨a, q, cs, ?_, hg, ?_, .inr ⟨_, hb⟩, .inr hq⟩⟩
  · simp [ReviewLoopProgress.recordAuditResult, AuditRoundProgress.toResult, hcs]
  · simp [ReviewLoopProgress.recordAuditResult, AuditRoundProgress.toResult, hcs, hselected, Nat.ne_of_gt hpos]

/-- While nothing is reviewed and nothing selected, the first candidate of the audit is shown. -/
theorem recorded_unreviewed (hnode : NodeOk ctx.node) (hin : InAudit ctx a p) (hround : 1 ≤ act.lastRoundNum)
    (hnone : p.latestExecutorOutputs = none) (hzero : p.selectedRoundNum = 0) (hselected : act.selectedRoundNum = 0)
    (hreviews : act.latestReviewerOutputs = [])
    (hgroup : ∀ cs, act.latestValidExecutorOutputs = some cs → Group ctx a 1 cs) (agreed clean : Bool) :
    Attributed ctx (p.recordAuditResult (act.toResult agreed clean)) := by
  refine ⟨by rw [show (p.recordAuditResult _).executedAuditRounds = _ from hin.executed]; exact hin.audit_le, ?_⟩
  cases hvalid : act.latestValidExecutorOutputs with
  | none =>
    left
    simp [ReviewLoopProgress.recordAuditResult, AuditRoundProgress.toResult, hvalid, hnone, hreviews, hselected, hzero]
  | some cs =>
    have hg := hgroup cs hvalid
    obtain ⟨c, rest, rfl⟩ := List.exists_cons_of_ne_nil (hg.ne_nil hnode)
    have hone : c.roundNum = 1 := (hg.outputs c List.mem_cons_self).round
    refine .inr ⟨a, 1, c :: rest, ?_, hg, ?_, .inl ?_, .inr hround⟩
    · simp [ReviewLoopProgress.recordAuditResult, AuditRoundProgress.toResult, hvalid]
    · simp [ReviewLoopProgress.recordAuditResult, AuditRoundProgress.toResult, hvalid, hselected, hone]
    · simp [ReviewLoopProgress.recordAuditResult, AuditRoundProgress.toResult, hreviews]

theorem snapshot_active (hnode : NodeOk ctx.node) (hin : InAudit ctx a p) (hact : p.activeAudit = some act)
    (hround : 1 ≤ act.lastRoundNum) (h : Selects ctx a act) : Attributed ctx p.snapshot := by
  have hin' : InAudit ctx a { p with activeAudit := none } := hin.withActive none p.stall
  suffices hshown : Attributed ctx
      (if act.selectedRoundNum = 0 ∧ p.latestExecutorOutputs ≠ none ∧ p.latestExecutorOutputs ≠ some [] then
        { ({ p with activeAudit := none } : ReviewLoopProgress).recordAuditResult (act.toResult false false) with
          latestExecutorOutputs := p.latestExecutorOutputs
          latestReviewerOutputs := p.latestReviewerOutputs
          selectedRoundNum := p.selectedRoundNum }
      else ({ p with activeAudit := none } : ReviewLoopProgress).recordAuditResult (act.toResult false false)) by
    rw [ReviewLoopProgress.snapshot, hact]
    simp only
    split
    · exact hshown.congr rfl rfl rfl rfl rfl
    · exact hshown
  split
  next hearlier =>
    -- the candidate of an earlier audit
    have hshown := hin.attributed
    obtain ⟨-, hsome, -⟩ := hearlier
    rcases hin.recorded.selection with ⟨hnone, -⟩ | ⟨b, q, htop, cs, hcs, hg, -, hselected, hb⟩
    · exact absurd hnone hsome
    · have hpos := hg.round_pos
      refine ⟨hshown.executed_le, .inr ⟨b, q, cs, hcs, hg, hselected, .inr ⟨_, hb⟩, .inl ?_⟩⟩
      have hbefore : b < a := by
        simp only [atMost] at htop
        omega
      exact hbefore.trans_eq hin.executed.symm
  next hlatest =>
    cases h with
    | reviewed hq hchosen => exact recorded_reviewed hin' hq hchosen false false
    | unreviewed hselected hreviews hgroup =>
      rcases hin.recorded.selection with ⟨hnone, -, -, hzero⟩ | ⟨b, q, -, cs, hcs, hg, -⟩
      · exact recorded_unreviewed hnode hin' hround hnone hzero hselected hreviews hgroup false false
      · refine absurd ⟨hselected, ?_, ?_⟩ hlatest
        · simp [hcs]
        · simpa [hcs] using hg.ne_nil hnode

theorem Handed.selects {q : Nat} {cs : List ExecutorRoundArtifact} (h : Handed ctx a q cs act) (hq : q ≤ act.lastRoundNum) :
    Selects ctx a act :=
  .reviewed hq ⟨cs, h.latest, h.group, h.valid, h.selected, h.batch⟩

theorem ReviewDue.selects (h : ReviewDue ctx a r act) : Selects ctx a act := by
  rcases h.state with ⟨rfl, hvalid, hblank⟩ | ⟨q, cs, hq, hh⟩
  · refine .unreviewed hblank.selected hblank.reviews fun cs hcs => ?_
    rw [hvalid] at hcs
    cases hcs
    exact h.group
  · exact hh.selects (by rw [h.lastRound]; omega)

theorem Advancing.selects (h : Advancing ctx a r act) : Selects ctx a act := by
  obtain ⟨q, cs, hq, hh, -⟩ := h.state
  exact hh.selects (by rw [h.lastRound]; exact hq)

theorem Unreviewed.selects {before : Option (List ExecutorRoundArtifact)} (h : Unreviewed ctx a before act) :
    Selects ctx a act := by
  refine .unreviewed h.blank.selected h.blank.reviews fun cs hcs => ?_
  rw [h.latest] at hcs
  split at hcs
  · cases hcs
    exact h.group
  · cases hcs

/-- The fields that `Selects` reads. -/
theorem Selects.congr {act' : AuditRoundProgress} (h : Selects ctx a act) (hselected : act'.selectedRoundNum = act.selectedRoundNum)
    (hvalid : act'.latestValidExecutorOutputs = act.latestValidExecutorOutputs)
    (hreviews : act'.latestReviewerOutputs = act.latestReviewerOutputs) (hfailures : act'.reviewerFailures = act.reviewerFailures)
    (hlast : act.lastRoundNum ≤ act'.lastRoundNum) : Selects ctx a act' := by
  cases h with
  | unreviewed hzero hnil hgroup =>
    exact .unreviewed (hselected.trans hzero) (hreviews.trans hnil) fun cs hcs => hgroup cs (hvalid.symm.trans hcs)
  | reviewed hq hchosen =>
    rw [← hvalid, ← hreviews, ← hfailures, ← hselected] at hchosen
    exact .reviewed (hq.trans hlast) hchosen

theorem RoundReady.selects {before : Option (List ExecutorRoundArtifact)} {due : Bool} (h : RoundReady ctx a before act r due)
    (hr : r ≤ ctx.maxRound) : 1 ≤ r ∧ Selects ctx a { act with lastRoundNum := r } := by
  cases h with
  | first hun => exact ⟨le_refl 1, (hun.withRound 1).selects⟩
  | @next r hadv => exact ⟨by omega, hadv.selects.congr rfl rfl rfl rfl (by rw [hadv.lastRound]; exact Nat.le_succ r)⟩
  | due hdue => exact ⟨hdue.group.round_pos, hdue.selects.congr rfl rfl rfl rfl (le_of_eq hdue.lastRound)⟩

end Attribution

/-! ## On the way out -/

section Steps

variable {ctx : Context} {env : Environment} {s : Session}

/-- A session that has raised leaves a progress that can be shown. -/
def Fair (ctx : Context) (s : Session) : Prop := ∀ fault, s.control = .raised fault → Attributed ctx s.progress.snapshot

theorem fair_of_control {control : Control} (h : s.control = control) (hne : ∀ fault, control ≠ .raised fault) : Fair ctx s :=
  fun fault hraised => absurd (h.symm.trans hraised) (hne fault)

theorem fair_raiseInAudit (hnode : NodeOk ctx.node) {a : Nat} (hin : InAudit ctx a s.progress) {act : AuditRoundProgress}
    (hround : 1 ≤ act.lastRoundNum) (h : Selects ctx a act) (fault : Fault) : Fair ctx (raiseInAudit ctx s a act fault) := by
  unfold raiseInAudit
  simp only
  split
  · exact fair_of_control rfl (by simp)
  · exact fun _ _ => snapshot_active hnode (hin.withActive (some act) s.progress.stall) rfl hround h

theorem fair_commitTransition {phase : CheckpointPhase} {r : Nat} {next : Control} {raise : Session → Fault → Session}
    (hnext : ∀ fault, next ≠ .raised fault)
    (hraise : ∀ (t : Session) fault, t.progress = s.progress → Fair ctx (raise t fault)) :
    Fair ctx (commitTransition ctx env s phase r next raise) := by
  unfold commitTransition
  split
  · exact hraise s _ rfl
  · simp only
    split
    · exact hraise _ _ rfl
    · split
      · exact hraise _ _ rfl
      · exact fair_of_control rfl hnext

/-- Also a checkpoint with an active audit can be shown. -/
theorem Boundary.shown (hnode : NodeOk ctx.node) {p : ReviewLoopProgress} {phase : CheckpointPhase} {r : Nat}
    (h : Boundary ctx p phase r) : Attributed ctx p.snapshot := by
  cases h with
  | opening hin hidle _ => exact snapshot_idle hidle hin.attributed
  | finish hfin =>
    refine snapshot_idle hfin.idle (hfin.recorded.attributed hfin.audit_le fun b q hq htop => ?_)
    simp only [atMost] at htop
    omega
  | remediation hin hact hadv _ =>
    obtain ⟨q, cs, hq, hh, -⟩ := hadv.state
    have hpos := hh.group.round_pos
    have hlast := hadv.lastRound
    exact snapshot_active hnode hin hact (by omega) hadv.selects
  | review hin hact hdue =>
    exact snapshot_active hnode hin hact (by rw [hdue.lastRound]; exact hdue.group.round_pos) hdue.selects

theorem Startable.shown (hnode : NodeOk ctx.node) {p : ReviewLoopProgress} (h : Startable ctx p) :
    Attributed ctx p.snapshot := by
  rcases h with rfl | hb
  · exact snapshot_idle rfl ⟨Nat.zero_le _, .inl ⟨rfl, rfl, rfl⟩⟩
  · exact hb.shown hnode

theorem fair_startAudit {a : Nat} (h : Good ctx env (.audit a) s.progress) (hnode : NodeOk ctx.node) :
    Fair ctx (startAudit ctx env s a) := by
  obtain ⟨-, h⟩ := h
  unfold startAudit
  split
  · exact fair_of_control rfl (by simp)
  next hle =>
    have hstarted : Attributed ctx ({ s.progress with cursorAudit := a, executedAuditRounds := a } : ReviewLoopProgress).snapshot := by
      rcases h with hbetween | ⟨rfl, -, hb⟩
      · have hidle := hbetween.start (by omega)
        exact snapshot_idle hidle.idle hidle.toInAudit.attributed
      · rw [startedAgain hb.recorded.2.1]
        exact hb.shown hnode
    simp only
    split
    · exact fun _ _ => hstarted
    · split
      · exact fair_of_control rfl (by simp)
      · split
        · exact fair_commitTransition (by simp) fun t fault ht _ _ => by
            rw [Session.raise, ht]
            exact hstarted
        · exact fair_of_control rfl (by simp)

theorem Idle.shown {a : Nat} {p : ReviewLoopProgress} (h : Idle ctx a p) : Attributed ctx p.snapshot :=
  snapshot_idle h.idle h.toInAudit.attributed

theorem fair_preReview {a : Nat} (h : Idle ctx a s.progress) : Fair ctx (preReview ctx env s a) := by
  unfold preReview
  split
  · split
    · exact fun _ _ => h.shown
    · exact fun _ _ => h.shown
    · split
      · exact fun _ _ => h.shown
      · refine fair_commitTransition (by simp) fun t fault ht _ _ => ?_
        rw [Session.raise, ht]
        exact snapshot_congr (p := s.progress) rfl rfl rfl rfl rfl rfl h.shown
  · exact fair_of_control rfl (by simp)

theorem fair_openAudit {a : Nat} {outputs : List ExecutorRoundArtifact} : Fair ctx (openAudit ctx s a outputs) := by
  unfold openAudit
  exact fair_of_control rfl (by simp)

theorem fair_seedAudit {a : Nat} (h : Idle ctx a s.progress) : Fair ctx (seedAudit ctx env s a) := by
  have hseeding : Attributed ctx ({ s.progress with lastRoundNum := 1 } : ReviewLoopProgress).snapshot :=
    (h.seeding s.progress.artifactDriftWarningCount).shown
  unfold seedAudit
  simp only
  split
  · split
    · exact fun _ _ => hseeding
    · exact fun _ _ => hseeding
    · exact fair_openAudit
  · split
    · exact fun _ _ => hseeding
    · exact fair_openAudit

/-- Validating a candidate changes nothing that is shown. -/
theorem Selects.prepared {a r : Nat} {act : AuditRoundProgress} (h : Selects ctx a act) (stall : ReviewStallState) :
    Selects ctx a (prepareReviewCandidate ctx act stall r).1 ∧
      (prepareReviewCandidate ctx act stall r).1.lastRoundNum = act.lastRoundNum := by
  unfold prepareReviewCandidate
  split
  · simp only
    split
    · exact ⟨h.congr rfl rfl rfl rfl (le_refl _), rfl⟩
    · split
      · exact ⟨h.congr rfl rfl rfl rfl (le_refl _), rfl⟩
      · exact ⟨h.congr rfl rfl rfl rfl (le_refl _), rfl⟩
  · simp only
    split
    · split
      · exact ⟨h.congr rfl rfl rfl rfl (le_refl _), rfl⟩
      · exact ⟨h.congr rfl rfl rfl rfl (le_refl _), rfl⟩
    · exact ⟨h, rfl⟩

theorem fair_offerCandidate (hnode : NodeOk ctx.node) {a r : Nat} (hin : InAudit ctx a s.progress) {act : AuditRoundProgress}
    (hround : 1 ≤ act.lastRoundNum) (h : Selects ctx a act) : Fair ctx (offerCandidate ctx env s a r act) := by
  obtain ⟨hselects, hlast⟩ := h.prepared (r := r) s.progress.stall
  unfold offerCandidate
  generalize prepareReviewCandidate ctx act s.progress.stall r = offered at hselects hlast
  obtain ⟨act', stall, outcome⟩ := offered
  simp only at hselects hlast ⊢
  have hin' := hin.withActive (some act') stall
  rw [← hlast] at hround
  split
  · split
    · exact fair_of_control rfl (by simp)
    · exact fair_raiseInAudit hnode hin' hround hselects _
  · split
    · exact fair_of_control rfl (by simp)
    · exact fair_of_control rfl (by simp)
    · refine fair_commitTransition (by simp) fun t fault ht => ?_
      exact fair_raiseInAudit hnode (by rw [ht]; exact hin') hround hselects fault

theorem fair_recoverOrRaise (hnode : NodeOk ctx.node) {a r : Nat} (hin : InAudit ctx a s.progress)
    {act : AuditRoundProgress} (hround : 1 ≤ act.lastRoundNum) (h : Selects ctx a act) (fault : Fault) :
    Fair ctx (recoverOrRaise ctx env s a r act fault) := by
  unfold recoverOrRaise
  split
  next latest _ =>
    have hstopped : Selects ctx a { act with executorOutputs := latest } := h.congr rfl rfl rfl rfl (le_refl _)
    have hround' : 1 ≤ ({ act with executorOutputs := latest } : AuditRoundProgress).lastRoundNum := hround
    split
    · simp only
      split
      · exact fair_of_control rfl (by simp)
      · split
        · exact fair_of_control rfl (by simp)
        · exact fair_raiseInAudit hnode hin hround' hstopped _
    · exact fair_raiseInAudit hnode hin hround h _
  · exact fair_raiseInAudit hnode hin hround h _

theorem fair_startRound (hnode : NodeOk ctx.node) {a r : Nat} {due : Bool} (h : Good ctx env (.round a r due) s.progress) :
    Fair ctx (startRound ctx env s a r due) := by
  obtain ⟨-, hin, act, hact, hready⟩ := h
  unfold startRound
  rw [hact]
  simp only
  split
  · exact fair_of_control rfl (by simp)
  next hle =>
    obtain ⟨hround, hselects⟩ := hready.selects (by omega)
    split
    · exact fair_raiseInAudit hnode hin hround hselects _
    · split
      · exact fair_of_control rfl (by simp)
      · split
        · exact fair_offerCandidate hnode hin hround hselects
        · split
          · exact fair_recoverOrRaise hnode hin hround hselects _
          · exact fair_offerCandidate hnode hin hround (hselects.congr rfl rfl rfl rfl (le_refl _))

theorem fair_reviewRound (hnode : NodeOk ctx.node) {a r : Nat} {fingerprint : Option String}
    (h : Good ctx env (.review a r fingerprint) s.progress) : Fair ctx (reviewRound ctx env s a r fingerprint) := by
  obtain ⟨-, hin, act, hact, hdue, -⟩ := h
  have hround : 1 ≤ act.lastRoundNum := by
    rw [hdue.lastRound]
    exact hdue.group.round_pos
  unfold reviewRound
  rw [hact]
  simp only
  split
  · exact fair_raiseInAudit hnode hin hround hdue.selects _
  · exact fair_raiseInAudit hnode hin hround hdue.selects _
  · split
    · exact fair_raiseInAudit hnode hin hround hdue.selects _
    next run hrun =>
      obtain ⟨-, hlast, hchosen⟩ := hdue.recorded hrun
      have hround' : 1 ≤ (act.recordCompletedReview run r).lastRoundNum := hround
      split
      · exact fair_raiseInAudit hnode hin hround' (.reviewed hlast.ge hchosen) _
      · split
        · exact fair_of_control rfl (by simp)
        · exact fair_of_control rfl (by simp)

theorem fair_advanceRound (hnode : NodeOk ctx.node) {a r : Nat} (h : Good ctx env (.advance a r) s.progress) :
    Fair ctx (advanceRound ctx env s a r) := by
  obtain ⟨-, hin, act, hact, hadv⟩ := h
  obtain ⟨q, cs, hq, hh, -⟩ := hadv.state
  have hpos := hh.group.round_pos
  have hlast := hadv.lastRound
  unfold advanceRound
  rw [hact]
  simp only
  split
  · refine fair_commitTransition (by simp) fun t fault ht => ?_
    exact fair_raiseInAudit hnode (by rw [ht]; exact hin) (by omega) hadv.selects fault
  · exact fair_of_control rfl (by simp)

/-- The progress after an audit, whatever is decided on it. -/
theorem Settled.shown {a : Nat} {agreed clean : Bool} {p : ReviewLoopProgress} {act : AuditRoundProgress}
    (hin : InAudit ctx a p) (h : Settled ctx a agreed clean p.latestExecutorOutputs act) :
    Attributed ctx (p.recordAuditResult (act.toResult agreed clean)).snapshot := by
  obtain ⟨hrecorded, -⟩ := h.recorded hin
  refine snapshot_idle rfl (hrecorded.attributed ?_ fun b q hq htop => ?_)
  · exact hin.executed.symm ▸ hin.audit_le
  · simp only [atMost] at htop
    rcases htop with hlt | ⟨-, hle⟩
    · exact .inl (hlt.trans_eq hin.executed.symm)
    · exact .inr hle

theorem fair_settleAudit {a : Nat} {agreed clean : Bool} (h : Good ctx env (.settled a agreed clean) s.progress) :
    Fair ctx (settleAudit ctx env s a agreed clean) := by
  obtain ⟨-, hin, act, hact, hsettled⟩ := h
  have hshown := hsettled.shown hin
  unfold settleAudit
  rw [hact]
  simp only
  split
  · split
    · exact fun _ _ => hshown
    · split
      · exact fun _ _ => hshown
      · exact fair_of_control rfl (by simp)
  · split
    · exact fun _ _ => hshown
    · split
      · exact fun _ _ => hshown
      · split
        · exact fair_of_control rfl (by simp)
        · exact fair_of_control rfl (by simp)

theorem Exhausted.shown {p : ReviewLoopProgress} (h : Exhausted ctx p) : Attributed ctx p.snapshot := by
  refine snapshot_idle h.idle (h.recorded.attributed h.audit_le fun b q hq htop => ?_)
  simp only [atMost] at htop
  omega

theorem fair_finishExhausted (h : Good ctx env .exhausted s.progress) : Fair ctx (finishExhausted ctx env s) := by
  unfold finishExhausted
  split
  · exact fun _ _ => h.2.shown
  · split
    · exact fun _ _ => h.2.shown
    · exact fair_of_control rfl (by simp)

theorem fair_finalizeStage (hnode : NodeOk ctx.node) (h : Good ctx env .finalize s.progress) :
    Fair ctx (finalizeStage ctx env s) := by
  have hshown := (Boundary.finish h.2).shown hnode
  unfold finalizeStage
  split
  · exact fun _ _ => hshown
  · refine fair_commitTransition (by simp) fun t fault ht _ _ => ?_
    rw [Session.raise, ht]
    exact hshown

theorem failure_shown (h : Fair ctx s) (inAudit : Bool) : ∀ q ∈ statusesOnFailure inAudit s, Attributed ctx q.snapshot := by
  intro q hq
  cases hcontrol : s.control with
  | raised fault =>
    have hshown := h fault hcontrol
    simp only [statusesOnFailure, hcontrol, List.mem_append] at hq
    rcases hq with hq | hq
    · cases inAudit <;> simp only [Bool.false_eq_true, if_true, if_false, List.mem_singleton, List.not_mem_nil] at hq
      exact hq ▸ hshown
    · cases fault <;> simp only [List.mem_singleton, List.not_mem_nil] at hq
      all_goals
        subst hq
        exact snapshot_congr (p := s.progress) rfl rfl rfl rfl rfl rfl hshown
  | _ => simp [statusesOnFailure, hcontrol] at hq

theorem rejected_shown {p : ReviewLoopProgress} (h : Attributed ctx p.snapshot) : Attributed ctx (rejectedStatus p).snapshot := by
  unfold rejectedStatus
  simp only
  split
  · exact snapshot_congr (p := p) rfl rfl rfl rfl rfl rfl h
  · exact snapshot_congr (p := p) rfl rfl rfl rfl rfl rfl h

theorem settled_shown {p : ReviewLoopProgress} (h : Attributed ctx p.snapshot) (result : AuditRoundResult) (a : Nat) :
    ∀ q ∈ settledStatuses ctx p result a, Attributed ctx q.snapshot := by
  intro q hq
  unfold settledStatuses at hq
  split at hq
  · rcases List.mem_pair.mp hq with rfl | rfl
    · exact h
    · exact snapshot_congr (p := p) rfl rfl rfl rfl rfl rfl h
  · split at hq
    · rcases List.mem_pair.mp hq with rfl | rfl
      · exact h
      · exact rejected_shown (snapshot_congr (p := p) rfl rfl rfl rfl rfl rfl h)
    · split at hq
      · rcases List.mem_pair.mp hq with rfl | rfl
        · exact h
        · exact snapshot_congr (p := p) rfl rfl rfl rfl rfl rfl h
      · rw [List.mem_singleton.mp hq]
        exact h

/-- Whatever a step writes can be shown. -/
theorem written_shown (hnode : NodeOk ctx.node) (h : Inv ctx env s) :
    ∀ q ∈ writtenStatuses ctx env s, Attributed ctx q.snapshot := by
  obtain ⟨hgood, -⟩ := h
  intro q hq
  cases hcontrol : s.control with
  | entry =>
    rw [hcontrol] at hgood
    simp only [writtenStatuses, hcontrol] at hq
    split at hq
    · rw [List.mem_singleton.mp hq]
      exact Startable.shown hnode hgood
    · simp at hq
  | audit a =>
    rw [hcontrol] at hgood
    simp only [writtenStatuses, hcontrol, step] at hq
    exact failure_shown (fair_startAudit hgood hnode) false q hq
  | preReview a =>
    rw [hcontrol] at hgood
    simp only [writtenStatuses, hcontrol, step] at hq
    exact failure_shown (fair_preReview hgood.2) false q hq
  | seed a =>
    rw [hcontrol] at hgood
    simp only [writtenStatuses, hcontrol, step] at hq
    exact failure_shown (fair_seedAudit hgood.2) false q hq
  | finalize =>
    rw [hcontrol] at hgood
    simp only [writtenStatuses, hcontrol, step] at hq
    exact failure_shown (fair_finalizeStage hnode hgood) false q hq
  | round a r due =>
    rw [hcontrol] at hgood
    simp only [writtenStatuses, hcontrol, step] at hq
    rcases List.mem_append.mp hq with hhead | hfailure
    · obtain ⟨-, hin, act, hact, hready⟩ := hgood
      simp only [hact] at hhead
      split at hhead
      · simp at hhead
      next hle =>
        obtain ⟨hround, hselects⟩ := hready.selects (by omega)
        rw [List.mem_singleton.mp hhead]
        exact snapshot_active hnode (hin.withActive _ s.progress.stall) rfl hround hselects
    · exact failure_shown (fair_startRound hnode hgood) true q hfailure
  | review a r fingerprint =>
    rw [hcontrol] at hgood
    simp only [writtenStatuses, hcontrol, step] at hq
    exact failure_shown (fair_reviewRound hnode hgood) true q hq
  | advance a r =>
    rw [hcontrol] at hgood
    simp only [writtenStatuses, hcontrol, step] at hq
    exact failure_shown (fair_advanceRound hnode hgood) true q hq
  | settled a agreed clean =>
    rw [hcontrol] at hgood
    simp only [writtenStatuses, hcontrol, step] at hq
    rcases List.mem_append.mp hq with hsettled | hfailure
    · obtain ⟨-, hin, act, hact, houtcome⟩ := hgood
      simp only [hact] at hsettled
      exact settled_shown (houtcome.shown hin) _ a q hsettled
    · exact failure_shown (fair_settleAudit hgood) false q hfailure
  | exhausted =>
    rw [hcontrol] at hgood
    have hshown := hgood.2.shown
    simp only [writtenStatuses, hcontrol, step] at hq
    rcases List.mem_append.mp hq with hdecided | hfailure
    · split at hdecided
      · rw [List.mem_singleton.mp hdecided]
        exact rejected_shown hshown
      · rw [List.mem_singleton.mp hdecided]
        exact snapshot_congr (p := s.progress) rfl rfl rfl rfl rfl rfl hshown
    · exact failure_shown (fair_finishExhausted hgood) false q hfailure
  | returned => simp [writtenStatuses, hcontrol] at hq
  | raised fault => simp [writtenStatuses, hcontrol] at hq

end Steps

def abcSignature : ContentSignature := ⟨3, "ba7816bf8f01cfea414140de5dae2223b00361a396177a9cb410ff61f20015ad"⟩

def abcContext : Context := { sampleContext with readOutput := fun _ => "abc" }

def abcEnvironment : Environment :=
  { sampleEnvironment 1 with
    executors := fun _ _ => .ok fun _ => ⟨some abcSignature, ⟨.document, some "f", none, none⟩, 0⟩
    reviewers := fun _ _ => .ok fun _ => .answered 0 (.evaluated (sampleEvaluation true) abcSignature)
    evidence := { (sampleEnvironment 1).evidence with fileSignature := fun _ => some abcSignature } }

/-- The digests of two texts. -/
def abcDigest (bytes : List UInt8) : String :=
  if bytes = [97, 98, 99] then abcSignature.sha256 else "e3b0c44298fc1c149afbf4c8996fb92427ae41e4649b934ca495991b7852b855"

theorem abcDigest_nonblank (bytes : List UInt8) : isBlank (abcDigest bytes) = false := by
  unfold abcDigest
  split <;> decide +kernel

theorem sampleNode_names : TaskNames sampleNode := ⟨by decide +kernel, by decide +kernel, by decide +kernel⟩

def abcFiles : StageFiles := fun _ => some [97, 98, 99]

/-- The status of the approved candidate. -/
def abcStatus : ReviewLoopProgress :=
  ((writtenStatuses abcContext abcEnvironment (runSteps abcContext abcEnvironment {} 6)).getLast?).getD {}

theorem abcStatus_written : abcStatus ∈ writtenStatuses abcContext abcEnvironment (runSteps abcContext abcEnvironment {} 6) := by
  have hsome : (writtenStatuses abcContext abcEnvironment (runSteps abcContext abcEnvironment {} 6)).getLast?.isSome = true := by
    decide +kernel
  obtain ⟨q, hq⟩ := Option.isSome_iff_exists.mp hsome
  have hstatus : abcStatus = q := by simp [abcStatus, hq]
  exact hstatus ▸ List.mem_of_getLast? hq

end Crewplane.Review
