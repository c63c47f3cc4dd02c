import Crewplane.Lib.Streak
import Crewplane.Review.Cursor
import Crewplane.Review.Resume
/-
# The stall rule (review_loop/stall.py, audit_round.py:266)

The history of a stage is what its candidates and reviews were, newest first; it goes on across audits and, through the
checkpoint, across resumes. `Unchanged` and `Breaks` say what the rule speaks about, on the history alone. The stall
state of the loop is `stallOf` of its history, and the loop stops with `noProgress` exactly when the history has two
unchanged attempts in a row.

An attempt counts as unchanged only when the review before it left feedback for the executors: otherwise the same
candidate is reviewed again.
-/
namespace Crewplane.Review

open Crewplane.Lib Crewplane.Plan

/-! ## Histories -/

inductive StallEvent
  | invalid
  /-- A valid candidate of the round, with the fingerprint of its deliverables. -/
  | candidate (round : Nat) (fingerprint : Option String)
  /-- The reviews of a candidate, with the packet for the executors. -/
  | reviewed (fingerprint : Option String) (feedback : List Feedback) (packet : Option String)
  deriving DecidableEq, Repr

/-- The last review of a history. -/
structure LastReview where
  fingerprint : Option String := none
  feedback : List Feedback := []
  packet : Option String := none

def lastReview : List StallEvent → LastReview
  | [] => {}
  | .reviewed fingerprint feedback packet :: _ => { fingerprint, feedback, packet }
  | .invalid :: h => lastReview h
  | .candidate _ _ :: h => lastReview h

/-- A remediation attempt gave the candidate that was reviewed last, and its review left feedback. -/
def Unchanged (h : List StallEvent) : StallEvent → Prop
  | .candidate r fingerprint => 1 < r ∧ fingerprint.isSome = true ∧ (lastReview h).packet.isSome = true ∧
      (lastReview h).fingerprint = fingerprint
  | _ => False

/-- An invalid candidate, another candidate than the one reviewed last, or other feedback than the last. -/
def Breaks (h : List StallEvent) : StallEvent → Prop
  | .invalid => True
  | .candidate _ fingerprint => fingerprint = none ∨ fingerprint ≠ (lastReview h).fingerprint
  | .reviewed fingerprint feedback _ =>
    fingerprint = none ∨ fingerprint ≠ (lastReview h).fingerprint ∨ feedback ≠ (lastReview h).feedback

instance (h : List StallEvent) (e : StallEvent) : Decidable (Unchanged h e) :=
  match e with
  | .invalid => inferInstanceAs (Decidable False)
  | .candidate _ _ => inferInstanceAs (Decidable (_ ∧ _))
  | .reviewed _ _ _ => inferInstanceAs (Decidable False)

instance (h : List StallEvent) (e : StallEvent) : Decidable (Breaks h e) :=
  match e with
  | .invalid => inferInstanceAs (Decidable True)
  | .candidate _ _ => inferInstanceAs (Decidable (_ ∨ _))
  | .reviewed _ _ _ => inferInstanceAs (Decidable (_ ∨ _))

/-- The stall state that belongs to a history. -/
def stallOf (h : List StallEvent) : ReviewStallState :=
  { consecutiveRoundCount := streak Unchanged Breaks h
    candidateFingerprint := (lastReview h).fingerprint
    reviewFeedback := (lastReview h).feedback }

/-! ## What a step adds to the history -/

def reviewFeedback (reviews : List ReviewerRoundArtifact) : List Feedback :=
  reviews.map fun r =>
    (r.taskId, r.evaluation.majorIssues, r.evaluation.minorIssues, r.evaluation.unstructuredFeedback)

def candidateEvent (ctx : Context) (outputs : List ExecutorRoundArtifact) (r : Nat) : StallEvent :=
  if (validateExecutorOutputs ctx outputs).valid then .candidate r (buildExecutorOutputFingerprint ctx outputs)
  else .invalid

/-- The event of the next step, if it has one. -/
def stallEvent? (ctx : Context) (env : Environment) (s : Session) : Option StallEvent :=
  match s.control, s.progress.activeAudit with
  | .round a r due, some active =>
    if ctx.maxRound < r ∨ env.fault .roundStatus a r ≠ none ∨ due = true then none
    else if r = 1 then some (candidateEvent ctx active.executorOutputs r)
    else
      match env.executors a r with
      | .error _ => none
      | .ok response => some (candidateEvent ctx (runExecutorRound ctx a r response).outputs r)
  | .review a r fingerprint, some _ =>
    match env.fault .reviewRequest a r, env.reviewers a r with
    | none, .ok response =>
      match runReviewerRound ctx a r response with
      | .error _ => none
      | .ok run =>
        if env.fault .reviewed a r = none then
          some (.reviewed fingerprint (reviewFeedback run.outputs) (renderUnresolvedReviewPacket run.outputs))
        else none
    | _, _ => none
  | _, _ => none

/-- The history after `n` steps of a stage that starts with `h`. -/
def stallHistory (ctx : Context) (env : Environment) (h : List StallEvent) (p : ReviewLoopProgress) :
    Nat → List StallEvent
  | 0 => h
  | n + 1 => (stallEvent? ctx env (runSteps ctx env p n)).toList ++ stallHistory ctx env h p n

/-- The progress a stage can start with, and the history it stands for: a checkpoint stands for the history up to the
step that committed it. -/
inductive Begun (ctx : Context) : List StallEvent → ReviewLoopProgress → Prop
  | fresh : Begun ctx [] {}
  | resumed {env : Environment} {h : List StallEvent} {p q : ReviewLoopProgress} {n : Nat} {cp : OpenReviewCheckpoint} :
      Begun ctx h p → (runSteps ctx env p (n + 1)).committed = (runSteps ctx env p n).committed ++ [cp] →
      restore ctx cp = .ok q → Begun ctx (stallHistory ctx env h p (n + 1)) q

theorem started_of_begun {ctx : Context} {h : List StallEvent} {p : ReviewLoopProgress} (hb : Begun ctx h p) :
    Started ctx p := by
  induction hb with
  | fresh => exact .fresh
  | @resumed env h p q n cp _ hcommitted hrestored ih =>
    have hmem : cp ∈ (runSteps ctx env p (n + 1)).committed := by
      rw [hcommitted]
      simp
    exact .resumed ih hmem hrestored

/-- The stop reason of the audit that is open, or of the last one. -/
def currentStopReason (p : ReviewLoopProgress) : Option ReviewLoopStopReason :=
  match p.activeAudit with
  | some active => active.stopReason
  | none => p.stopReason

/-- The loop has stopped for lack of progress. -/
def StoppedNoProgress (s : Session) : Prop := currentStopReason s.progress = some .noProgress

/-! ## The loop follows its history -/

/-- What the audit compares a candidate with is the last review. -/
def Follows (h : List StallEvent) (act : AuditRoundProgress) : Prop :=
  act.previousExecutorFingerprint = (lastReview h).fingerprint ∧ act.previousReviewPacket = (lastReview h).packet

/-- No candidate is looked at any more. -/
def Ended (s : Session) : Prop :=
  match s.control with
  | .entry => s.progress.nextPhase = .finalize
  | .settled _ _ _ | .finalize | .returned | .raised _ => True
  | _ => False

def Settling (c : Control) : Prop := ∃ a consensus clean, c = .settled a consensus clean

structure Tracks (h : List StallEvent) (s : Session) : Prop where
  stall : s.progress.stall = stallOf h
  first : ∀ older, older <:+ h → older ≠ h → streak Unchanged Breaks older < 2
  audit : ¬ Settling s.control → ∀ act, s.progress.activeAudit = some act →
    act.previousExecutorOutputs = none ∨ Follows h act
  stop : StoppedNoProgress s ↔ 2 ≤ streak Unchanged Breaks h
  ended : 2 ≤ streak Unchanged Breaks h → Ended s

/-- A step without an event leaves alone what the rule looks at. -/
structure Keeps (p p' : ReviewLoopProgress) : Prop where
  stall : p'.stall = p.stall
  stop : currentStopReason p' = some .noProgress → currentStopReason p = some .noProgress
  audit : ∀ act', p'.activeAudit = some act' → act'.previousExecutorOutputs = none ∨
    ∃ act, p.activeAudit = some act ∧ act'.previousExecutorOutputs = act.previousExecutorOutputs ∧
      act'.previousExecutorFingerprint = act.previousExecutorFingerprint ∧
      act'.previousReviewPacket = act.previousReviewPacket

section Keeping

variable {ctx : Context} {env : Environment} {h : List StallEvent} {s s' : Session} {p q : ReviewLoopProgress}

theorem ended_of_settling (hc : Settling s.control) : Ended s := by
  obtain ⟨a, consensus, clean, hc⟩ := hc
  simp [Ended, hc]

/-- While the loop goes on the counter is below two. -/
theorem Tracks.quiet (ht : Tracks h s) (hgoing : ¬ Ended s) : streak Unchanged Breaks h < 2 := by
  by_contra hlong
  exact hgoing (ht.ended (not_lt.mp hlong))

theorem Tracks.keep (ht : Tracks h s) (hgoing : ¬ Ended s) (hk : Keeps s.progress s'.progress) : Tracks h s' := by
  have hquiet := ht.quiet hgoing
  have hopen : ¬ Settling s.control := fun hc => hgoing (ended_of_settling hc)
  refine ⟨hk.stall.trans ht.stall, ht.first, ?_, ?_, fun hlong => absurd hlong (not_le.mpr hquiet)⟩
  · intro _ act' hact'
    rcases hk.audit act' hact' with hnone | ⟨act, hact, houtputs, hfingerprint, hpacket⟩
    · exact .inl hnone
    · rcases ht.audit hopen act hact with hnone | hfollows
      · exact .inl (houtputs.trans hnone)
      · exact .inr ⟨hfingerprint.trans hfollows.1, hpacket.trans hfollows.2⟩
  · constructor
    · intro hstop
      exact ht.stop.mp (hk.stop hstop)
    · intro hlong
      omega

theorem Keeps.refl (p : ReviewLoopProgress) : Keeps p p :=
  ⟨rfl, id, fun act hact => .inr ⟨act, hact, rfl, rfl, rfl⟩⟩

/-- Fields the rule does not look at. -/
theorem Keeps.of_same (hstall : q.stall = p.stall) (hactive : q.activeAudit = p.activeAudit)
    (hreason : q.stopReason = p.stopReason) : Keeps p q := by
  refine ⟨hstall, ?_, ?_⟩
  · intro hstop
    unfold currentStopReason at hstop ⊢
    rwa [hactive, hreason] at hstop
  · intro act hact
    exact .inr ⟨act, hactive ▸ hact, rfl, rfl, rfl⟩

/-- The open audit, changed where the rule does not look. -/
theorem Keeps.of_audit {act act' : AuditRoundProgress} (hactive : p.activeAudit = some act)
    (hstop : act'.stopReason = act.stopReason) (houtputs : act'.previousExecutorOutputs = act.previousExecutorOutputs)
    (hfingerprint : act'.previousExecutorFingerprint = act.previousExecutorFingerprint)
    (hpacket : act'.previousReviewPacket = act.previousReviewPacket) : Keeps p { p with activeAudit := some act' } := by
  refine ⟨rfl, ?_, ?_⟩
  · simp [currentStopReason, hactive, hstop]
  · intro act'' hact''
    obtain rfl : act' = act'' := by simpa using hact''
    exact .inr ⟨act, hactive, houtputs, hfingerprint, hpacket⟩

theorem progress_raiseInAudit (s : Session) (a : Nat) (active : AuditRoundProgress) (fault : Fault) :
    (raiseInAudit ctx s a active fault).progress = { s.progress with activeAudit := some active } := by
  unfold raiseInAudit Session.withAudit Session.raise
  simp only
  split <;> rfl

theorem ended_raiseInAudit (s : Session) (a : Nat) (active : AuditRoundProgress) (fault : Fault) :
    Ended (raiseInAudit ctx s a active fault) := by
  unfold raiseInAudit Session.withAudit Session.raise
  simp only
  split <;> exact trivial

/-- A commit moves the cursor and goes on, or it raises with the progress it had. -/
theorem commitTransition_elim {P : Session → Prop} {phase : CheckpointPhase} {r : Nat} {next : Control}
    {raise : Session → Fault → Session}
    (hnext : ∀ prepared committed, P ⟨next, { s.progress with nextPhase := phase, cursorRound := r }, prepared, committed⟩)
    (hraise : ∀ t fault, t.progress = s.progress → t.committed = s.committed → P (raise t fault)) :
    P (commitTransition ctx env s phase r next raise) := by
  unfold commitTransition
  split
  · exact hraise _ _ rfl rfl
  · simp only
    split
    · exact hraise _ _ rfl rfl
    · split
      · exact hraise _ _ rfl rfl
      · exact hnext _ _

theorem keeps_startAudit (a : Nat) : Keeps s.progress (startAudit ctx env s a).progress := by
  simp only [startAudit]
  split
  · exact .refl _
  · split
    · exact .of_same rfl rfl rfl
    · split
      · exact .of_same rfl rfl rfl
      · split
        · refine commitTransition_elim (P := fun t => Keeps s.progress t.progress) ?_ ?_
          · exact fun _ _ => .of_same rfl rfl rfl
          · intro t fault ht _
            simp only [Session.raise, ht]
            exact .of_same rfl rfl rfl
        · exact .of_same rfl rfl rfl

theorem keeps_preReview (a : Nat) : Keeps s.progress (preReview ctx env s a).progress := by
  simp only [preReview]
  split
  · split
    · exact .refl _
    · exact .refl _
    · split
      · exact .refl _
      · refine commitTransition_elim (P := fun t => Keeps s.progress t.progress) ?_ ?_
        · exact fun _ _ => .of_same rfl rfl rfl
        · intro t fault ht _
          simp only [Session.raise, ht]
          exact .of_same rfl rfl rfl
  · exact .refl _

/-- A new audit has not been reviewed. -/
theorem keeps_openAudit {a : Nat} {outputs : List ExecutorRoundArtifact} (hstall : s.progress.stall = p.stall) :
    Keeps p (openAudit ctx s a outputs).progress := by
  refine ⟨hstall, ?_, ?_⟩
  · intro hstop
    cases hstop
  · intro act hact
    obtain rfl : initialAudit ctx outputs = act := by simpa [openAudit, Session.withAudit] using hact
    exact .inl rfl

theorem keeps_seedAudit (a : Nat) : Keeps s.progress (seedAudit ctx env s a).progress := by
  simp only [seedAudit]
  split
  · split
    · exact .of_same rfl rfl rfl
    · exact .of_same rfl rfl rfl
    · exact keeps_openAudit rfl
  · split
    · exact .of_same rfl rfl rfl
    · exact keeps_openAudit rfl

theorem keeps_advanceRound (a r : Nat) : Keeps s.progress (advanceRound ctx env s a r).progress := by
  simp only [advanceRound]
  split
  · exact .refl _
  · rename_i active hactive
    split
    · refine commitTransition_elim (P := fun t => Keeps s.progress t.progress) ?_ ?_
      · exact fun _ _ => .of_same rfl rfl rfl
      · intro t fault ht _
        rw [progress_raiseInAudit, ht]
        exact .of_audit hactive rfl rfl rfl rfl
    · exact .refl _

theorem keeps_finishExhausted (s : Session) : Keeps s.progress (finishExhausted ctx env s).progress := by
  simp only [finishExhausted]
  split
  · exact .refl _
  · split
    · exact .refl _
    · refine ⟨rfl, ?_, fun act hact => .inr ⟨act, hact, rfl, rfl, rfl⟩⟩
      intro hstop
      unfold currentStopReason ReviewLoopProgress.markConsensusExhausted at hstop
      unfold currentStopReason
      cases hactive : s.progress.activeAudit with
      | none => simp [hactive] at hstop
      | some act => simpa [hactive] using hstop

end Keeping

/-! ## Events -/

section Events

variable {ctx : Context} {env : Environment} {h : List StallEvent} {s : Session}

theorem streak_unchanged {e : StallEvent} (he : Unchanged h e) :
    streak Unchanged Breaks (e :: h) = streak Unchanged Breaks h + 1 := if_pos he

theorem streak_broken {e : StallEvent} (he : ¬ Unchanged h e) (hb : Breaks h e) :
    streak Unchanged Breaks (e :: h) = 0 := by
  simp [streak, he, hb]

theorem streak_same {e : StallEvent} (he : ¬ Unchanged h e) (hb : ¬ Breaks h e) :
    streak Unchanged Breaks (e :: h) = streak Unchanged Breaks h := by
  simp [streak, he, hb]

theorem first_cons (hfirst : ∀ older, older <:+ h → older ≠ h → streak Unchanged Breaks older < 2)
    (hquiet : streak Unchanged Breaks h < 2) (e : StallEvent) :
    ∀ older, older <:+ e :: h → older ≠ e :: h → streak Unchanged Breaks older < 2 := by
  intro older hsuffix hne
  rcases List.suffix_cons_iff.mp hsuffix with hsame | hsuffix
  · exact absurd hsame hne
  · by_cases hsame : older = h
    · rw [hsame]
      exact hquiet
    · exact hfirst older hsuffix hsame

/-- The audit's own test is the rule's. -/
theorem isNoProgressCandidate_iff {act : AuditRoundProgress} {fingerprint : Option String} {r : Nat}
    (hfollows : r = 1 ∨ Follows h act) :
    isNoProgressCandidate act fingerprint r = true ↔ Unchanged h (.candidate r fingerprint) := by
  simp only [isNoProgressCandidate, Unchanged, Bool.and_eq_true, decide_eq_true_eq]
  rcases hfollows with rfl | ⟨hfingerprint, hpacket⟩
  · simp
  · rw [hfingerprint, hpacket]
    tauto

theorem lastReview_candidateEvent (outputs : List ExecutorRoundArtifact) (r : Nat) :
    lastReview (candidateEvent ctx outputs r :: h) = lastReview h := by
  unfold candidateEvent
  split <;> rfl

/-- What is decided about a candidate is what the rule says about its event. -/
structure Judged (h : List StallEvent) (act act' : AuditRoundProgress) (stall : ReviewStallState)
    (outcome : CandidateOutcome) : Prop where
  stall : stall = stallOf h
  reason : act'.stopReason = some .noProgress ↔ 2 ≤ streak Unchanged Breaks h
  stops : 2 ≤ streak Unchanged Breaks h → outcome = .stop
  outputs : act'.previousExecutorOutputs = act.previousExecutorOutputs
  fingerprint : act'.previousExecutorFingerprint = act.previousExecutorFingerprint
  packet : act'.previousReviewPacket = act.previousReviewPacket

theorem judged_invalid {act act' : AuditRoundProgress} {r : Nat} {outcome : CandidateOutcome}
    (hevent : candidateEvent ctx act.executorOutputs r = .invalid) (hreason : act'.stopReason ≠ some .noProgress)
    (houtputs : act'.previousExecutorOutputs = act.previousExecutorOutputs)
    (hfingerprint : act'.previousExecutorFingerprint = act.previousExecutorFingerprint)
    (hpacket : act'.previousReviewPacket = act.previousReviewPacket) :
    Judged (candidateEvent ctx act.executorOutputs r :: h) act act' { stallOf h with consecutiveRoundCount := 0 }
      outcome := by
  have hzero : streak Unchanged Breaks (.invalid :: h) = 0 := streak_broken id trivial
  rw [hevent]
  refine ⟨?_, ?_, ?_, houtputs, hfingerprint, hpacket⟩
  · simp [stallOf, hzero, lastReview]
  · rw [hzero]
    simp [hreason]
  · intro hlong
    omega

theorem judged_prepare {act : AuditRoundProgress} {r : Nat} (hquiet : streak Unchanged Breaks h < 2)
    (hreason : act.stopReason ≠ some .noProgress) (hfollows : r = 1 ∨ Follows h act) :
    Judged (candidateEvent ctx act.executorOutputs r :: h) act (prepareReviewCandidate ctx act (stallOf h) r).1
      (prepareReviewCandidate ctx act (stallOf h) r).2.1 (prepareReviewCandidate ctx act (stallOf h) r).2.2 := by
  unfold prepareReviewCandidate
  by_cases hvalid : (validateExecutorOutputs ctx act.executorOutputs).valid = true
  · have hevent : candidateEvent ctx act.executorOutputs r =
        .candidate r (buildExecutorOutputFingerprint ctx act.executorOutputs) := if_pos hvalid
    rw [hevent]
    simp only [hvalid, Bool.not_true, Bool.false_eq_true, if_false]
    generalize buildExecutorOutputFingerprint ctx act.executorOutputs = fingerprint
    by_cases hunchanged : Unchanged h (.candidate r fingerprint)
    · have hcount := streak_unchanged hunchanged
      rw [if_pos ((isNoProgressCandidate_iff hfollows).mpr hunchanged)]
      simp only [ReviewStallState.recordUnchangedAttempt, maxConsecutiveNoProgressRounds, stallOf]
      by_cases hlong : 2 ≤ streak Unchanged Breaks h + 1
      · simp only [hlong, decide_true, if_true]
        refine ⟨by simp [stallOf, hcount, lastReview], ?_, fun _ => rfl, rfl, rfl, rfl⟩
        simp [hcount, hlong]
      · simp only [hlong, decide_false, Bool.false_eq_true, if_false]
        refine ⟨by simp [stallOf, hcount, lastReview], ?_, ?_, rfl, rfl, rfl⟩
        · simp [hcount, hlong, hreason]
        · intro hlong'
          omega
    · have hnot : ¬ isNoProgressCandidate act fingerprint r = true :=
        fun hno => hunchanged ((isNoProgressCandidate_iff hfollows).mp hno)
      rw [if_neg hnot]
      by_cases hbroken : fingerprint = none ∨ fingerprint ≠ (lastReview h).fingerprint
      · have hcount := streak_broken hunchanged hbroken
        have hsame : fingerprint = none ∨ fingerprint ≠ (stallOf h).candidateFingerprint := hbroken
        simp only [if_pos hsame]
        refine ⟨by simp [stallOf, hcount, lastReview], ?_, ?_, rfl, rfl, rfl⟩
        · simp [hcount, hreason]
        · intro hlong
          omega
      · have hcount := streak_same hunchanged hbroken
        have hsame : ¬ (fingerprint = none ∨ fingerprint ≠ (stallOf h).candidateFingerprint) := hbroken
        simp only [if_neg hsame]
        refine ⟨by simp [stallOf, hcount, lastReview], ?_, ?_, rfl, rfl, rfl⟩
        · rw [hcount]
          simp only [hreason, false_iff]
          omega
        · intro hlong
          omega
  · have hevent : candidateEvent ctx act.executorOutputs r = .invalid := if_neg hvalid
    simp only [hvalid, Bool.not_false, if_true]
    split
    · exact judged_invalid hevent hreason rfl rfl rfl
    · split
      · exact judged_invalid hevent hreason rfl rfl rfl
      · exact judged_invalid hevent hreason rfl rfl rfl

theorem tracks_judged {e : StallEvent} {act act' : AuditRoundProgress} {stall : ReviewStallState}
    {outcome : CandidateOutcome} (hj : Judged (e :: h) act act' stall outcome)
    (hlast : lastReview (e :: h) = lastReview h)
    (haudit : act.previousExecutorOutputs = none ∨ Follows h act)
    (hfirst : ∀ older, older <:+ e :: h → older ≠ e :: h → streak Unchanged Breaks older < 2)
    (hstall : s.progress.stall = stall) (hactive : s.progress.activeAudit = some act')
    (hended : 2 ≤ streak Unchanged Breaks (e :: h) → Ended s) : Tracks (e :: h) s := by
  refine ⟨hstall.trans hj.stall, hfirst, ?_, ?_, hended⟩
  · intro _ act'' hact''
    obtain rfl : act' = act'' := by
      rw [hactive] at hact''
      simpa using hact''
    rcases haudit with hnone | hfollows
    · exact .inl (hj.outputs.trans hnone)
    · refine .inr ⟨?_, ?_⟩
      · rw [hlast]
        exact hj.fingerprint.trans hfollows.1
      · rw [hlast]
        exact hj.packet.trans hfollows.2
  · simp only [StoppedNoProgress, currentStopReason, hactive]
    exact hj.reason

theorem tracks_offerCandidate {a r : Nat} {act : AuditRoundProgress} (hstall : s.progress.stall = stallOf h)
    (hfirst : ∀ older, older <:+ h → older ≠ h → streak Unchanged Breaks older < 2)
    (hquiet : streak Unchanged Breaks h < 2) (hreason : act.stopReason ≠ some .noProgress)
    (hfollows : r = 1 ∨ Follows h act) (haudit : act.previousExecutorOutputs = none ∨ Follows h act) :
    Tracks (candidateEvent ctx act.executorOutputs r :: h) (offerCandidate ctx env s a r act) := by
  have hj := @judged_prepare ctx h act r hquiet hreason hfollows
  have hlast : lastReview (candidateEvent ctx act.executorOutputs r :: h) = lastReview h :=
    lastReview_candidateEvent act.executorOutputs r
  have hfirst' := first_cons hfirst hquiet (candidateEvent ctx act.executorOutputs r)
  simp only [offerCandidate]
  rw [hstall]
  generalize prepareReviewCandidate ctx act (stallOf h) r = offered at hj
  obtain ⟨act', stall, outcome⟩ := offered
  have htracks : ∀ s' : Session, s'.progress.stall = stall → s'.progress.activeAudit = some act' →
      (2 ≤ streak Unchanged Breaks (candidateEvent ctx act.executorOutputs r :: h) → Ended s') →
      Tracks (candidateEvent ctx act.executorOutputs r :: h) s' :=
    fun s' hstall' hactive hended => tracks_judged hj hlast haudit hfirst' hstall' hactive hended
  have hraised : ∀ t : Session, t.progress.stall = stall → ∀ fault,
      Tracks (candidateEvent ctx act.executorOutputs r :: h) (raiseInAudit ctx t a act' fault) := by
    intro t ht fault
    apply htracks
    · rw [progress_raiseInAudit]
      exact ht
    · rw [progress_raiseInAudit]
    · exact fun _ => ended_raiseInAudit t a act' fault
  simp only at hj ⊢
  split
  · split
    · exact htracks _ rfl rfl fun _ => trivial
    · exact hraised _ rfl _
  · cases outcome with
    | stop => exact htracks _ rfl rfl fun _ => trivial
    | «continue» =>
      apply htracks _ rfl rfl
      intro hlong
      cases hj.stops hlong
    | review fingerprint =>
      have hgoing : ¬ 2 ≤ streak Unchanged Breaks (candidateEvent ctx act.executorOutputs r :: h) := by
        intro hlong
        cases hj.stops hlong
      apply commitTransition_elim
      · exact fun _ _ => htracks _ rfl rfl fun hlong => absurd hlong hgoing
      · intro t fault ht _
        apply hraised
        rw [ht]

/-- A review with other feedback, or of another candidate, resets the counter. -/
theorem stallOf_reviewed (fingerprint : Option String) (reviews : List ReviewerRoundArtifact)
    (packet : Option String) :
    (stallOf h).observeReview fingerprint reviews =
      stallOf (.reviewed fingerprint (reviewFeedback reviews) packet :: h) := by
  have hnot : ¬ Unchanged h (.reviewed fingerprint (reviewFeedback reviews) packet) := id
  have hstate : ∀ n, streak Unchanged Breaks (.reviewed fingerprint (reviewFeedback reviews) packet :: h) = n →
      stallOf (.reviewed fingerprint (reviewFeedback reviews) packet :: h) =
        ⟨n, fingerprint, reviewFeedback reviews⟩ := by
    intro n hn
    simp [stallOf, hn, lastReview]
  have hobserved : ∀ n, (if fingerprint = none ∨ fingerprint ≠ (stallOf h).candidateFingerprint ∨
      reviewFeedback reviews ≠ (stallOf h).reviewFeedback then 0 else (stallOf h).consecutiveRoundCount) = n →
      (stallOf h).observeReview fingerprint reviews = ⟨n, fingerprint, reviewFeedback reviews⟩ := by
    rintro n rfl
    rfl
  by_cases hbroken : fingerprint = none ∨ fingerprint ≠ (lastReview h).fingerprint ∨
      reviewFeedback reviews ≠ (lastReview h).feedback
  · rw [hstate 0 (streak_broken hnot hbroken), hobserved 0 (if_pos hbroken)]
  · rw [hstate _ (streak_same hnot hbroken), hobserved _ (if_neg hbroken)]
    rfl

theorem streak_reviewed_le (fingerprint : Option String) (feedback : List Feedback) (packet : Option String) :
    streak Unchanged Breaks (.reviewed fingerprint feedback packet :: h) ≤ streak Unchanged Breaks h := by
  have hnot : ¬ Unchanged h (.reviewed fingerprint feedback packet) := id
  by_cases hbroken : Breaks h (.reviewed fingerprint feedback packet)
  · rw [streak_broken hnot hbroken]
    exact Nat.zero_le _
  · rw [streak_same hnot hbroken]

end Events

/-! ## Every step -/

section Steps

variable {ctx : Context} {env : Environment} {h : List StallEvent} {s s' : Session}

theorem Tracks.notStopped (ht : Tracks h s) (hquiet : streak Unchanged Breaks h < 2) {act : AuditRoundProgress}
    (hact : s.progress.activeAudit = some act) : act.stopReason ≠ some .noProgress := by
  intro hreason
  have hstopped : StoppedNoProgress s := by simp [StoppedNoProgress, currentStopReason, hact, hreason]
  have hlong := ht.stop.mp hstopped
  omega

/-- Another control, and a progress that differs where the rule does not look. -/
theorem Tracks.same (ht : Tracks h s) (hopen : ¬ Settling s.control) (hstall : s'.progress.stall = s.progress.stall)
    (hactive : s'.progress.activeAudit = s.progress.activeAudit)
    (hreason : s'.progress.stopReason = s.progress.stopReason)
    (hended : 2 ≤ streak Unchanged Breaks h → Ended s') : Tracks h s' := by
  refine ⟨hstall.trans ht.stall, ht.first, ?_, ?_, hended⟩
  · intro _ act hact
    exact ht.audit hopen act (hactive ▸ hact)
  · have hcurrent : currentStopReason s'.progress = currentStopReason s.progress := by
      unfold currentStopReason
      rw [hactive, hreason]
    rw [StoppedNoProgress, hcurrent]
    exact ht.stop

theorem tracks_enterStage (hc : s.control = .entry) (ht : Tracks h s) : Tracks h (enterStage env s) := by
  have hopen : ¬ Settling s.control := by simp [Settling, hc]
  simp only [enterStage]
  split
  · exact ht.same hopen rfl rfl rfl fun _ => trivial
  · split
    · exact ht.same hopen rfl rfl rfl fun _ => trivial
    · rename_i hphase
      refine ht.same hopen rfl rfl rfl fun hlong => ?_
      have hended := ht.ended hlong
      rw [Ended, hc] at hended
      exact absurd hended hphase

theorem tracks_finalizeStage (hc : s.control = .finalize) (ht : Tracks h s) : Tracks h (finalizeStage ctx env s) := by
  have hopen : ¬ Settling s.control := by simp [Settling, hc]
  simp only [finalizeStage]
  split
  · exact ht.same hopen rfl rfl rfl fun _ => trivial
  · refine commitTransition_elim (P := fun t => Tracks h t) ?_ ?_
    · exact fun _ _ => ht.same hopen rfl rfl rfl fun _ => trivial
    · intro t fault hprogress _
      refine ht.same hopen ?_ ?_ ?_ fun _ => trivial
      · simp only [Session.raise, hprogress]
      · simp only [Session.raise, hprogress]
      · simp only [Session.raise, hprogress]

/-- The result of the audit takes the stop reason over. -/
theorem tracks_settleAudit {a : Nat} {consensus clean : Bool} (ht : Tracks h s) :
    Tracks h (settleAudit ctx env s a consensus clean) := by
  have hraise : ∀ fault, s.progress.activeAudit = none → Tracks h (s.raise fault) := by
    intro fault hnone
    refine ⟨ht.stall, ht.first, ?_, ht.stop, fun _ => trivial⟩
    intro _ act hact
    simp only [Session.raise, hnone] at hact
    cases hact
  have hclosed : ∀ s' : Session, s'.progress.stall = s.progress.stall → s'.progress.activeAudit = none →
      (s'.progress.stopReason = some .noProgress ↔ 2 ≤ streak Unchanged Breaks h) →
      (2 ≤ streak Unchanged Breaks h → Ended s') → Tracks h s' := by
    intro s' hstall hnone hstop hended
    refine ⟨hstall.trans ht.stall, ht.first, ?_, ?_, hended⟩
    · intro _ act hact
      rw [hnone] at hact
      cases hact
    · simp only [StoppedNoProgress, currentStopReason, hnone]
      exact hstop
  simp only [settleAudit]
  split
  · rename_i hnone
    exact hraise _ hnone
  · rename_i act hact
    have hstop : act.stopReason = some .noProgress ↔ 2 ≤ streak Unchanged Breaks h := by
      have hreason := ht.stop
      simpa only [StoppedNoProgress, currentStopReason, hact] using hreason
    split
    · split
      · exact hclosed _ rfl rfl hstop fun _ => trivial
      · split
        · exact hclosed _ rfl rfl hstop fun _ => trivial
        · exact hclosed _ rfl rfl hstop fun _ => trivial
    · rename_i hreason
      have hquiet : ¬ 2 ≤ streak Unchanged Breaks h := fun hlong => hreason (hstop.mpr hlong)
      split
      · exact hclosed _ rfl rfl hstop fun _ => trivial
      · split
        · exact hclosed _ rfl rfl hstop fun _ => trivial
        · split
          · refine hclosed _ rfl rfl ?_ fun _ => trivial
            simp [hquiet]
          · exact hclosed _ rfl rfl hstop fun hlong => absurd hlong hquiet

theorem keeps_recoverOrRaise {a r : Nat} {act active : AuditRoundProgress} (hact : s.progress.activeAudit = some act)
    (hstop : active.stopReason = act.stopReason)
    (houtputs : active.previousExecutorOutputs = act.previousExecutorOutputs)
    (hfingerprint : active.previousExecutorFingerprint = act.previousExecutorFingerprint)
    (hpacket : active.previousReviewPacket = act.previousReviewPacket) (fault : Fault) :
    Keeps s.progress (recoverOrRaise ctx env s a r active fault).progress := by
  have hraised : ∀ (active' : AuditRoundProgress) fault', active'.stopReason = act.stopReason →
      active'.previousExecutorOutputs = act.previousExecutorOutputs →
      active'.previousExecutorFingerprint = act.previousExecutorFingerprint →
      active'.previousReviewPacket = act.previousReviewPacket →
      Keeps s.progress (raiseInAudit ctx s a active' fault').progress := by
    intro active' fault' h1 h2 h3 h4
    rw [progress_raiseInAudit]
    exact .of_audit hact h1 h2 h3 h4
  simp only [recoverOrRaise, Session.withAudit]
  split
  · split
    · split
      · exact .of_audit hact hstop houtputs hfingerprint hpacket
      · split
        · exact .of_audit hact hstop houtputs hfingerprint hpacket
        · exact hraised _ _ hstop houtputs hfingerprint hpacket
    · exact hraised _ _ hstop houtputs hfingerprint hpacket
  · exact hraised _ _ hstop houtputs hfingerprint hpacket

theorem tracks_startRound {a r : Nat} {due : Bool} (hc : s.control = .round a r due)
    (hgood : Good ctx env (.round a r due) s.progress) (ht : Tracks h s) :
    Tracks ((stallEvent? ctx env s).toList ++ h) (startRound ctx env s a r due) := by
  have hgoing : ¬ Ended s := by simp [Ended, hc]
  have hopen : ¬ Settling s.control := fun hs => hgoing (ended_of_settling hs)
  have hquiet := ht.quiet hgoing
  obtain ⟨-, -, act, hact, hready⟩ := hgood
  have hreason := ht.notStopped hquiet hact
  have haudit := ht.audit hopen act hact
  simp only [stallEvent?, hc, hact, startRound]
  by_cases hle : ctx.maxRound < r
  · rw [if_pos hle, if_pos (.inl hle)]
    exact ht.keep hgoing (.refl _)
  · rw [if_neg hle]
    cases hstatus : env.fault .roundStatus a r with
    | some fault =>
      rw [if_pos (.inr (.inl (by simp)))]
      refine ht.keep hgoing ?_
      rw [progress_raiseInAudit]
      exact .of_audit hact rfl rfl rfl rfl
    | none =>
      cases due with
      | true =>
        rw [if_pos (.inr (.inr rfl))]
        exact ht.keep hgoing (.of_audit hact rfl rfl rfl rfl)
      | false =>
        rw [if_neg (by simp [hle])]
        by_cases hone : r = 1
        · simp only [if_pos hone, Bool.false_eq_true, if_false]
          exact @tracks_offerCandidate ctx env h s a r { act with lastRoundNum := r } ht.stall ht.first hquiet hreason
            (.inl hone) haudit
        · simp only [if_neg hone, Bool.false_eq_true, if_false]
          cases hexecutors : env.executors a r with
          | error fault =>
            exact ht.keep hgoing (@keeps_recoverOrRaise ctx env s a r act { act with lastRoundNum := r } hact
              rfl rfl rfl rfl fault)
          | ok response =>
            have hfollows : Follows h act := by
              rcases haudit with hnone | hfollows
              · cases hready with
                | first => exact absurd rfl hone
                | next hadvancing =>
                  obtain ⟨q, cs, -, hhanded, -⟩ := hadvancing.state
                  rw [hhanded.previous] at hnone
                  cases hnone
              · exact hfollows
            exact @tracks_offerCandidate ctx env h s a r
              { act with
                lastRoundNum := r
                executorOutputs := (runExecutorRound ctx a r response).outputs
                artifactDriftWarningCount :=
                  act.artifactDriftWarningCount + (runExecutorRound ctx a r response).driftWarningCount }
              ht.stall ht.first hquiet hreason (.inr hfollows) (.inr hfollows)

theorem tracks_reviewRound {a r : Nat} {fingerprint : Option String} (hc : s.control = .review a r fingerprint)
    (ht : Tracks h s) :
    Tracks ((stallEvent? ctx env s).toList ++ h) (reviewRound ctx env s a r fingerprint) := by
  have hgoing : ¬ Ended s := by simp [Ended, hc]
  have hquiet := ht.quiet hgoing
  simp only [stallEvent?, hc, reviewRound]
  cases hact : s.progress.activeAudit with
  | none => exact ht.keep hgoing (.refl _)
  | some act =>
    have hreason := ht.notStopped hquiet hact
    have hraised : ∀ (active : AuditRoundProgress) fault, active.stopReason = act.stopReason →
        active.previousExecutorOutputs = act.previousExecutorOutputs →
        active.previousExecutorFingerprint = act.previousExecutorFingerprint →
        active.previousReviewPacket = act.previousReviewPacket → Tracks h (raiseInAudit ctx s a active fault) := by
      intro active fault h1 h2 h3 h4
      refine ht.keep hgoing ?_
      rw [progress_raiseInAudit]
      exact .of_audit hact h1 h2 h3 h4
    simp only
    cases hrequest : env.fault .reviewRequest a r with
    | some fault =>
      cases env.reviewers a r with
      | error fault' => exact hraised act fault rfl rfl rfl rfl
      | ok response => exact hraised act fault rfl rfl rfl rfl
    | none =>
      cases hreviewers : env.reviewers a r with
      | error fault => exact hraised act fault rfl rfl rfl rfl
      | ok response =>
        simp only
        cases hrun : runReviewerRound ctx a r response with
        | error fault => exact hraised act fault rfl rfl rfl rfl
        | ok run =>
          simp only
          cases hreviewed : env.fault .reviewed a r with
          | some fault =>
            rw [if_neg (by simp)]
            exact hraised _ fault rfl rfl rfl rfl
          | none =>
            have hle := @streak_reviewed_le h fingerprint (reviewFeedback run.outputs)
              (renderUnresolvedReviewPacket run.outputs)
            have hfirst := first_cons ht.first hquiet (.reviewed fingerprint (reviewFeedback run.outputs)
              (renderUnresolvedReviewPacket run.outputs))
            have hstall : s.progress.stall.observeReview fingerprint run.outputs =
                stallOf (.reviewed fingerprint (reviewFeedback run.outputs)
                  (renderUnresolvedReviewPacket run.outputs) :: h) := by
              rw [ht.stall]
              exact stallOf_reviewed _ _ _
            rw [if_pos rfl]
            simp only [Option.toList_some, List.singleton_append]
            split
            · refine ⟨hstall, hfirst, ?_, ?_, fun _ => trivial⟩
              · intro hsettling
                exact absurd ⟨a, true, decide (r = 1), rfl⟩ hsettling
              · simp only [StoppedNoProgress, currentStopReason, AuditRoundProgress.recordCompletedReview, hreason,
                  false_iff]
                omega
            · refine ⟨hstall, hfirst, ?_, ?_, ?_⟩
              · intro _ act' hact'
                obtain rfl := Option.some.inj hact'
                exact .inr ⟨rfl, rfl⟩
              · simp only [StoppedNoProgress, currentStopReason, AuditRoundProgress.recordCompletedReview,
                  AuditRoundProgress.advanceReviewState, hreason, false_iff]
                omega
              · intro hlong
                omega

theorem tracks_step (hinv : Inv ctx env s) (ht : Tracks h s) :
    Tracks ((stallEvent? ctx env s).toList ++ h) (step ctx env s) := by
  have hgood := hinv.good
  unfold step
  cases hc : s.control with
  | entry =>
    simp only [stallEvent?, hc, Option.toList_none, List.nil_append]
    exact tracks_enterStage hc ht
  | audit a =>
    simp only [stallEvent?, hc, Option.toList_none, List.nil_append]
    exact ht.keep (by simp [Ended, hc]) (keeps_startAudit a)
  | preReview a =>
    simp only [stallEvent?, hc, Option.toList_none, List.nil_append]
    exact ht.keep (by simp [Ended, hc]) (keeps_preReview a)
  | seed a =>
    simp only [stallEvent?, hc, Option.toList_none, List.nil_append]
    exact ht.keep (by simp [Ended, hc]) (keeps_seedAudit a)
  | round a r due =>
    rw [hc] at hgood
    exact tracks_startRound hc hgood ht
  | review a r fingerprint => exact tracks_reviewRound hc ht
  | advance a r =>
    simp only [stallEvent?, hc, Option.toList_none, List.nil_append]
    exact ht.keep (by simp [Ended, hc]) (keeps_advanceRound a r)
  | settled a consensus clean =>
    simp only [stallEvent?, hc, Option.toList_none, List.nil_append]
    exact tracks_settleAudit ht
  | exhausted =>
    simp only [stallEvent?, hc, Option.toList_none, List.nil_append]
    exact ht.keep (by simp [Ended, hc]) (keeps_finishExhausted s)
  | finalize =>
    simp only [stallEvent?, hc, Option.toList_none, List.nil_append]
    exact tracks_finalizeStage hc ht
  | returned =>
    simp only [stallEvent?, hc, Option.toList_none, List.nil_append]
    exact ht
  | raised fault =>
    simp only [stallEvent?, hc, Option.toList_none, List.nil_append]
    exact ht

end Steps

/-! ## Where checkpoints are committed -/

/-- The step commits nothing, or it goes on; the last commit is the one of the finished stage. -/
def Landed (before : List OpenReviewCheckpoint) (s : Session) : Prop :=
  s.committed = before ∨ ¬ Settling s.control ∧ (Ended s → s.progress.nextPhase = .finalize)

section Landing

variable {ctx : Context} {env : Environment} {s : Session} {before : List OpenReviewCheckpoint}

theorem landed_commitTransition {phase : CheckpointPhase} {r : Nat} {next : Control}
    {raise : Session → Fault → Session} (hbefore : s.committed = before)
    (hraise : ∀ t fault, (raise t fault).committed = t.committed)
    (hnext : (∀ p prepared committed, ¬ Ended ⟨next, p, prepared, committed⟩) ∨ next = .returned ∧ phase = .finalize) :
    Landed before (commitTransition ctx env s phase r next raise) := by
  refine commitTransition_elim (P := fun t => Landed before t) ?_ ?_
  · intro prepared committed
    rcases hnext with hgoing | ⟨rfl, rfl⟩
    · exact .inr ⟨fun hs => hgoing _ _ _ (ended_of_settling hs), fun hended => absurd hended (hgoing _ _ _)⟩
    · refine .inr ⟨?_, fun _ => rfl⟩
      simp [Settling]
  · intro t fault _ hcommitted
    exact .inl ((hraise t fault).trans (hcommitted.trans hbefore))

theorem landed_offerCandidate {a r : Nat} {act : AuditRoundProgress} :
    Landed s.committed (offerCandidate ctx env s a r act) := by
  simp only [offerCandidate]
  split
  · split
    · exact .inl rfl
    · exact .inl (committed_raiseInAudit _ _ _ _)
  · split
    · exact .inl rfl
    · exact .inl rfl
    · exact landed_commitTransition rfl (fun t fault => committed_raiseInAudit _ _ _ _) (.inl fun _ _ _ => id)

theorem committed_recoverOrRaise (s : Session) (a r : Nat) (act : AuditRoundProgress) (fault : Fault) :
    (recoverOrRaise ctx env s a r act fault).committed = s.committed := by
  simp only [recoverOrRaise, Session.withAudit]
  split
  · split
    · split
      · rfl
      · split
        · rfl
        · exact committed_raiseInAudit _ _ _ _
    · exact committed_raiseInAudit _ _ _ _
  · exact committed_raiseInAudit _ _ _ _

theorem landed_step (ctx : Context) (env : Environment) (s : Session) : Landed s.committed (step ctx env s) := by
  unfold step
  cases s.control with
  | entry => exact .inl (committed_enterStage s)
  | audit a =>
    simp only [startAudit]
    split
    · exact .inl rfl
    · split
      · exact .inl rfl
      · split
        · exact .inl rfl
        · split
          · exact landed_commitTransition rfl (fun _ _ => rfl) (.inl fun _ _ _ => id)
          · exact .inl rfl
  | preReview a =>
    simp only [preReview]
    split
    · split
      · exact .inl rfl
      · exact .inl rfl
      · split
        · exact .inl rfl
        · exact landed_commitTransition rfl (fun _ _ => rfl) (.inl fun _ _ _ => id)
    · exact .inl rfl
  | seed a => exact .inl (committed_seedAudit s a)
  | round a r due =>
    simp only [startRound]
    split
    · exact .inl rfl
    · split
      · exact .inl rfl
      · split
        · exact .inl (committed_raiseInAudit _ _ _ _)
        · split
          · exact .inl rfl
          · split
            · exact landed_offerCandidate
            · split
              · exact .inl (committed_recoverOrRaise _ _ _ _ _)
              · exact landed_offerCandidate
  | review a r fingerprint => exact .inl (committed_reviewRound s a r fingerprint)
  | advance a r =>
    simp only [advanceRound]
    split
    · exact .inl rfl
    · split
      · exact landed_commitTransition rfl (fun t fault => committed_raiseInAudit _ _ _ _) (.inl fun _ _ _ => id)
      · exact .inl rfl
  | settled a consensus clean => exact .inl (committed_settleAudit s a consensus clean)
  | exhausted => exact .inl (committed_finishExhausted s)
  | finalize =>
    simp only [finalizeStage]
    split
    · exact .inl rfl
    · exact landed_commitTransition rfl (fun _ _ => rfl) (.inr ⟨rfl, rfl⟩)
  | returned => exact .inl rfl
  | raised fault => exact .inl rfl

end Landing

/-! ## Whole runs -/

section Runs

variable {ctx : Context} {env : Environment} {h : List StallEvent} {p : ReviewLoopProgress}

theorem tracks_run (hstart : Startable ctx p) (ht : Tracks h (entrySession p)) (n : Nat) :
    Tracks (stallHistory ctx env h p n) (runSteps ctx env p n) := by
  induction n with
  | zero => exact ht
  | succ n ih =>
    rw [runSteps_succ]
    exact tracks_step (inv_runSteps hstart n) ih

theorem tracks_fresh : Tracks [] (entrySession {}) := by
  refine ⟨rfl, ?_, ?_, ?_, ?_⟩
  · intro older hsuffix hne
    exact absurd (List.suffix_nil.mp hsuffix) hne
  · intro _ act hact
    cases hact
  · simp [StoppedNoProgress, currentStopReason, entrySession, streak]
  · simp [streak]

/-- A stage that goes on from a checkpoint follows the history the checkpoint stands for. -/
theorem tracks_begun (hnode : NodeOk ctx.node) (hb : Begun ctx h p) : Tracks h (entrySession p) := by
  induction hb with
  | fresh => exact tracks_fresh
  | @resumed env h p q n cp hbegun hcommit hrestored ih =>
    have hstart := startable_of_started hnode (started_of_begun hbegun)
    have hinv : Inv ctx env (runSteps ctx env p n) := inv_runSteps hstart n
    have ht : Tracks (stallHistory ctx env h p (n + 1)) (runSteps ctx env p (n + 1)) := tracks_run hstart ih (n + 1)
    have hresumable := resumable_step hnode hinv.good
    have hlanded := landed_step ctx env (runSteps ctx env p n)
    rw [← runSteps_succ] at hresumable hlanded
    have hnew : (runSteps ctx env p (n + 1)).committed ≠ (runSteps ctx env p n).committed := by
      rw [hcommit]
      simp
    obtain ⟨cp', hcommitted, hrestore, -⟩ := hresumable.resolve_left hnew
    obtain ⟨hopen, hfinal⟩ := hlanded.resolve_left hnew
    obtain rfl : cp' = cp := by
      rw [hcommit] at hcommitted
      simpa using hcommitted.symm
    obtain rfl : (runSteps ctx env p (n + 1)).progress = q := by
      rw [hrestored] at hrestore
      simpa using hrestore.symm
    refine ht.same hopen rfl rfl rfl fun hlong => ?_
    exact hfinal (ht.ended hlong)

theorem stopped_iff {s : Session} (ht : Tracks h s) : StoppedNoProgress s ↔ TwoInARow Unchanged Breaks h := by
  rw [ht.stop, twoInARow_iff]
  constructor
  · exact fun hlong => ⟨h, List.suffix_rfl, hlong⟩
  · rintro ⟨older, hsuffix, hlong⟩
    by_cases hsame : older = h
    · rw [← hsame]
      exact hlong
    · have hquiet := ht.first older hsuffix hsame
      omega

theorem providerRound?_ended {s : Session} (h : Ended s) : providerRound? ctx env s = none := by
  unfold Ended at h
  unfold providerRound?
  split at h <;> simp_all

theorem stallEvent?_ended {s : Session} (h : Ended s) : stallEvent? ctx env s = none := by
  unfold Ended at h
  unfold stallEvent?
  split at h <;> simp_all

/-- After the stop nothing is added to the history and no provider is asked. -/
theorem stopped_forever (hstart : Startable ctx p) (ht : Tracks h (entrySession p)) {n : Nat}
    (hstopped : StoppedNoProgress (runSteps ctx env p n)) (m : Nat) :
    stallHistory ctx env h p (n + m) = stallHistory ctx env h p n ∧
      providerRound? ctx env (runSteps ctx env p (n + m)) = none := by
  have hlong := (tracks_run hstart ht n).stop.mp hstopped
  have hended : ∀ m, stallHistory ctx env h p (n + m) = stallHistory ctx env h p n →
      Ended (runSteps ctx env p (n + m)) := by
    intro m hsame
    apply (tracks_run hstart ht (n + m)).ended
    rw [hsame]
    exact hlong
  have hhistory : stallHistory ctx env h p (n + m) = stallHistory ctx env h p n := by
    induction m with
    | zero => rfl
    | succ m ih =>
      rw [← Nat.add_assoc, stallHistory, stallEvent?_ended (hended m ih)]
      exact ih
  exact ⟨hhistory, providerRound?_ended (hended m hhistory)⟩

/-- **The stall rule.** At every moment of every run of a stage, also of one that goes on from a checkpoint, the loop
has stopped with `noProgress` if and only if two remediation attempts in a row, in the whole history, left the candidate
unchanged; and a loop that has stopped asks no provider any more. -/
theorem stall_rule (hnode : NodeOk ctx.node) (hb : Begun ctx h p) (env : Environment) (n : Nat) :
    (StoppedNoProgress (runSteps ctx env p n) ↔ TwoInARow Unchanged Breaks (stallHistory ctx env h p n)) ∧
    (StoppedNoProgress (runSteps ctx env p n) →
      ∀ m, providerRound? ctx env (runSteps ctx env p (n + m)) = none) := by
  have hstart := startable_of_started hnode (started_of_begun hb)
  have ht := tracks_begun hnode hb
  exact ⟨stopped_iff (tracks_run hstart ht n), fun hstopped m => (stopped_forever hstart ht hstopped m).2⟩

end Runs

/-! ## Reviews without feedback -/

/-- Two reviewers and up to three remediations. -/
def twoReviewerContext : Context :=
  { sampleContext with
    node := { sampleNode with
      providerRecords := [⟨"a", .executor, "x"⟩, ⟨"b", .reviewer, "y"⟩, ⟨"c", .reviewer, "z"⟩]
      executionPolicy := ⟨some 3, some 1, true, none, .executor⟩ } }

/-- The executor never changes its candidate; one reviewer has no objection, the other one fails. -/
def failingReviewerEnvironment : Environment :=
  { sampleEnvironment 1 with
    reviewers := fun _ _ => .ok fun task =>
      if task = "y" then .answered 0 (.evaluated (sampleEvaluation true) sampleSignature)
      else .failed "timeout" "reviewer timed out" }

theorem twoReviewerNode_ok : NodeOk twoReviewerContext.node :=
  ⟨rfl, rfl, ⟨⟨"a", .executor, "x"⟩, by decide, rfl⟩, ⟨⟨"b", .reviewer, "y"⟩, by decide, rfl⟩, by decide, rfl⟩

/-- Two rejections without any change stop the loop. -/
theorem stall_rule_rejected :
    (StoppedNoProgress (runSteps twoReviewerContext (sampleEnvironment 9) {} 12) ↔
      TwoInARow Unchanged Breaks (stallHistory twoReviewerContext (sampleEnvironment 9) [] {} 12)) ∧
    (StoppedNoProgress (runSteps twoReviewerContext (sampleEnvironment 9) {} 12) →
      ∀ m, providerRound? twoReviewerContext (sampleEnvironment 9)
        (runSteps twoReviewerContext (sampleEnvironment 9) {} (12 + m)) = none) :=
  stall_rule twoReviewerNode_ok .fresh (sampleEnvironment 9) 12

/-- A remediation attempt gave the candidate that was reviewed last, whatever its review left. -/
def SameCandidate (h : List StallEvent) : StallEvent → Prop
  | .candidate r fingerprint => 1 < r ∧ fingerprint.isSome = true ∧ (lastReview h).fingerprint = fingerprint
  | _ => False

instance (h : List StallEvent) (e : StallEvent) : Decidable (SameCandidate h e) :=
  match e with
  | .invalid => inferInstanceAs (Decidable False)
  | .candidate _ _ => inferInstanceAs (Decidable (_ ∧ _))
  | .reviewed _ _ _ => inferInstanceAs (Decidable False)

/-- Two attempts with the same candidate, and the same reviews without feedback, do not stop the loop. -/
theorem unheard_attempts_continue :
    ¬ ∀ (ctx : Context) (h : List StallEvent) (p : ReviewLoopProgress) (env : Environment) (n : Nat),
      NodeOk ctx.node → Begun ctx h p →
      (StoppedNoProgress (runSteps ctx env p n) ↔ TwoInARow SameCandidate Breaks (stallHistory ctx env h p n)) := by
  intro h
  have hrule := h twoReviewerContext [] {} failingReviewerEnvironment 11 twoReviewerNode_ok .fresh
  have htwo : TwoInARow SameCandidate Breaks (stallHistory twoReviewerContext failingReviewerEnvironment [] {} 11) :=
    twoInARow_iff.mpr ⟨_, List.suffix_rfl, by decide +kernel⟩
  have hstopped := hrule.mpr htwo
  revert hstopped
  unfold StoppedNoProgress
  decide +kernel

end Crewplane.Review
