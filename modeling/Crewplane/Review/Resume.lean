import Crewplane.Review.Gate
/-
# Resuming from a checkpoint

Where a step commits a checkpoint, restoring it gives the progress of the state
after that step, and a stage started with it reaches that state again within three
steps: the statuses on the way were already published once, and what the loop does
from a boundary is decided by its progress alone. From there both runs agree.
-/
namespace Crewplane.Review

open Crewplane.Lib Crewplane.Plan

/-- The same place and the same progress; which checkpoints were made before may differ. -/
def Agree (s t : Session) : Prop := s.control = t.control ∧ s.progress = t.progress

/-- Everything but the providers is as before. -/
structure SameWorld (env env' : Environment) : Prop where
  fault : env.fault = env'.fault
  evidence : env.evidence = env'.evidence

/-- The providers a step from this place asks, if it asks any, answer alike. -/
def AnswerAlike (env env' : Environment) : Control → Prop
  | .preReview a => env.reviewers a 0 = env'.reviewers a 0
  | .seed a => env.executors a 1 = env'.executors a 1
  | .round a r _ => env.executors a r = env'.executors a r
  | .review a r _ => env.reviewers a r = env'.reviewers a r
  | _ => True

/-! ## A step reads the place, the progress and the answers it asks for -/

section Determinism

variable {ctx : Context} {env env' : Environment} {s t : Session}

theorem agree_raise (h : s.progress = t.progress) (fault : Fault) : Agree (s.raise fault) (t.raise fault) := ⟨rfl, h⟩

theorem agree_raiseInAudit (h : s.progress = t.progress) (a : Nat) (act : AuditRoundProgress) (fault : Fault) :
    Agree (raiseInAudit ctx s a act fault) (raiseInAudit ctx t a act fault) := by
  unfold raiseInAudit Session.withAudit Session.raise
  simp only [h]
  split <;> exact ⟨rfl, rfl⟩

theorem agree_commitTransition (hw : SameWorld env env') (h : s.progress = t.progress) (phase : CheckpointPhase)
    (r : Nat) (next : Control) {raise : Session → Fault → Session}
    (hraise : ∀ s' t' fault, s'.progress = t'.progress → Agree (raise s' fault) (raise t' fault)) :
    Agree (commitTransition ctx env s phase r next raise) (commitTransition ctx env' t phase r next raise) := by
  unfold commitTransition
  rw [h, hw.fault, hw.evidence]
  split
  · exact hraise _ _ _ h
  · simp only
    split
    · exact hraise _ _ _ rfl
    · split
      · exact hraise _ _ _ rfl
      · exact ⟨rfl, rfl⟩

theorem agree_offerCandidate (hw : SameWorld env env') (h : s.progress = t.progress) (a r : Nat)
    (act : AuditRoundProgress) : Agree (offerCandidate ctx env s a r act) (offerCandidate ctx env' t a r act) := by
  unfold offerCandidate
  rw [h, hw.fault]
  generalize prepareReviewCandidate ctx act t.progress.stall r = offered
  obtain ⟨act', stall, outcome⟩ := offered
  simp only
  split
  · split
    · exact ⟨rfl, rfl⟩
    · exact agree_raiseInAudit (by rfl) _ _ _
  · cases outcome with
    | stop => exact ⟨rfl, rfl⟩
    | «continue» => exact ⟨rfl, rfl⟩
    | review fingerprint =>
      exact agree_commitTransition hw (by rfl) _ _ _ fun s' t' fault h' => agree_raiseInAudit h' _ _ _

theorem agree_recoverOrRaise (hw : SameWorld env env') (h : s.progress = t.progress) (a r : Nat)
    (act : AuditRoundProgress) (fault : Fault) :
    Agree (recoverOrRaise ctx env s a r act fault) (recoverOrRaise ctx env' t a r act fault) := by
  unfold recoverOrRaise Session.withAudit
  rw [h, hw.fault]
  split
  · split
    · simp only
      split
      · exact ⟨rfl, rfl⟩
      · split
        · exact ⟨rfl, rfl⟩
        · exact agree_raiseInAudit h _ _ _
    · exact agree_raiseInAudit h _ _ _
  · exact agree_raiseInAudit h _ _ _

theorem agree_enterStage (hw : SameWorld env env') (h : s.progress = t.progress) :
    Agree (enterStage env s) (enterStage env' t) := by
  unfold enterStage
  rw [h, hw.fault]
  split
  · exact agree_raise h _
  · split <;> exact ⟨rfl, rfl⟩

theorem agree_startAudit (hw : SameWorld env env') (h : s.progress = t.progress) (a : Nat) :
    Agree (startAudit ctx env s a) (startAudit ctx env' t a) := by
  unfold startAudit
  rw [h, hw.fault]
  split
  · exact ⟨rfl, rfl⟩
  · simp only
    split
    · exact agree_raise (by rfl) _
    · split
      · exact ⟨rfl, rfl⟩
      · split
        · exact agree_commitTransition hw (by rfl) _ _ _ fun s' t' fault h' => agree_raise h' fault
        · exact ⟨rfl, rfl⟩

theorem agree_preReview (hw : SameWorld env env') (h : s.progress = t.progress) {a : Nat}
    (ha : env.reviewers a 0 = env'.reviewers a 0) : Agree (preReview ctx env s a) (preReview ctx env' t a) := by
  unfold preReview
  rw [h, hw.fault, ha]
  split
  · split
    · exact agree_raise h _
    · exact agree_raise h _
    · split
      · exact agree_raise h _
      · exact agree_commitTransition hw (by rfl) _ _ _ fun s' t' fault h' => agree_raise h' fault
  · exact ⟨rfl, rfl⟩

theorem agree_seedAudit (hw : SameWorld env env') (h : s.progress = t.progress) {a : Nat}
    (ha : env.executors a 1 = env'.executors a 1) : Agree (seedAudit ctx env s a) (seedAudit ctx env' t a) := by
  unfold seedAudit openAudit Session.withAudit
  rw [h, hw.fault, ha]
  simp only
  split
  · split
    · exact agree_raise (by rfl) _
    · exact agree_raise (by rfl) _
    · exact ⟨rfl, rfl⟩
  · split
    · exact agree_raise (by rfl) _
    · exact ⟨rfl, rfl⟩

theorem agree_startRound (hw : SameWorld env env') (h : s.progress = t.progress) {a r : Nat}
    (ha : env.executors a r = env'.executors a r) (due : Bool) :
    Agree (startRound ctx env s a r due) (startRound ctx env' t a r due) := by
  unfold startRound
  rw [h, hw.fault, ha]
  split
  · exact agree_raise h _
  · split
    · exact ⟨rfl, rfl⟩
    · simp only
      split
      · exact agree_raiseInAudit h _ _ _
      · split
        · unfold Session.withAudit
          rw [h]
          exact ⟨rfl, rfl⟩
        · split
          · exact agree_offerCandidate hw h _ _ _
          · split
            · exact agree_recoverOrRaise hw h _ _ _ _
            · exact agree_offerCandidate hw h _ _ _

theorem agree_reviewRound (hw : SameWorld env env') (h : s.progress = t.progress) {a r : Nat}
    (ha : env.reviewers a r = env'.reviewers a r) (fingerprint : Option String) :
    Agree (reviewRound ctx env s a r fingerprint) (reviewRound ctx env' t a r fingerprint) := by
  unfold reviewRound
  rw [h, hw.fault, ha]
  split
  · exact agree_raise h _
  · split
    · exact agree_raiseInAudit h _ _ _
    · exact agree_raiseInAudit h _ _ _
    · split
      · exact agree_raiseInAudit h _ _ _
      · simp only
        split
        · exact agree_raiseInAudit h _ _ _
        · split <;> exact ⟨rfl, rfl⟩

theorem agree_advanceRound (hw : SameWorld env env') (h : s.progress = t.progress) (a r : Nat) :
    Agree (advanceRound ctx env s a r) (advanceRound ctx env' t a r) := by
  unfold advanceRound
  rw [h]
  split
  · exact agree_raise h _
  · split
    · exact agree_commitTransition hw h _ _ _ fun s' t' fault h' => agree_raiseInAudit h' _ _ _
    · exact ⟨rfl, rfl⟩

theorem agree_settleAudit (hw : SameWorld env env') (h : s.progress = t.progress) (a : Nat) (agreed clean : Bool) :
    Agree (settleAudit ctx env s a agreed clean) (settleAudit ctx env' t a agreed clean) := by
  unfold settleAudit
  rw [h, hw.fault]
  split
  · exact agree_raise h _
  · simp only
    split
    · split
      · exact agree_raise (by rfl) _
      · split
        · exact agree_raise (by rfl) _
        · exact ⟨rfl, rfl⟩
    · split
      · exact agree_raise (by rfl) _
      · split
        · exact agree_raise (by rfl) _
        · split <;> exact ⟨rfl, rfl⟩

theorem agree_finishExhausted (hw : SameWorld env env') (h : s.progress = t.progress) :
    Agree (finishExhausted ctx env s) (finishExhausted ctx env' t) := by
  unfold finishExhausted
  rw [h, hw.fault]
  split
  · exact agree_raise h _
  · split
    · exact agree_raise h _
    · exact ⟨rfl, rfl⟩

theorem agree_finalizeStage (hw : SameWorld env env') (h : s.progress = t.progress) :
    Agree (finalizeStage ctx env s) (finalizeStage ctx env' t) := by
  unfold finalizeStage
  rw [h, hw.fault]
  split
  · exact agree_raise h _
  · exact agree_commitTransition hw h _ _ _ fun s' t' fault h' => agree_raise h' fault

theorem agree_step (hw : SameWorld env env') (h : Agree s t) (ha : AnswerAlike env env' t.control) :
    Agree (step ctx env s) (step ctx env' t) := by
  obtain ⟨hc, h⟩ := h
  unfold step
  rw [hc]
  generalize hcontrol : t.control = control at ha
  cases control with
  | entry => exact agree_enterStage hw h
  | audit a => exact agree_startAudit hw h a
  | preReview a => exact agree_preReview hw h ha
  | seed a => exact agree_seedAudit hw h ha
  | round a r due => exact agree_startRound hw h ha due
  | review a r fingerprint => exact agree_reviewRound hw h ha fingerprint
  | advance a r => exact agree_advanceRound hw h a r
  | settled a agreed clean => exact agree_settleAudit hw h a agreed clean
  | exhausted => exact agree_finishExhausted hw h
  | finalize => exact agree_finalizeStage hw h
  | returned => exact ⟨hc, h⟩
  | raised fault => exact ⟨hc, h⟩

theorem agree_iterate (hw : SameWorld env env') (h : Agree s t)
    (ha : ∀ m, AnswerAlike env env' ((step ctx env')^[m] t).control) (m : Nat) :
    Agree ((step ctx env)^[m] s) ((step ctx env')^[m] t) := by
  induction m with
  | zero => exact h
  | succ m ih =>
    rw [Function.iterate_succ_apply', Function.iterate_succ_apply']
    exact agree_step hw ih (ha m)

end Determinism

/-! ## From the boundary back to the state after the commit -/

section Resuming

variable {ctx : Context} {env : Environment} {p : ReviewLoopProgress}

theorem Passed.of_same {env' : Environment} {a : Nat} (hw : SameWorld env' env) (h : Passed env a) :
    Passed env' a := by
  unfold Passed
  rw [hw.fault]
  exact h

theorem runSteps_zero (ctx : Context) (env : Environment) (p : ReviewLoopProgress) :
    runSteps ctx env p 0 = entrySession p := rfl

/-- The first step of a stage that is not finished. -/
theorem runSteps_one (hentry : env.fault .entry 0 0 = none) (hphase : p.nextPhase ≠ .finalize) :
    runSteps ctx env p 1 = { entrySession p with control := .audit p.cursorAudit } := by
  rw [runSteps_succ, runSteps_zero]
  simp [step, entrySession, enterStage, hentry, hphase]

theorem resume_finish (hentry : env.fault .entry 0 0 = none) (hphase : p.nextPhase = .finalize) :
    Agree (runSteps ctx env p 1) ⟨.returned, p, [], []⟩ := by
  rw [runSteps_succ, runSteps_zero]
  simp [Agree, step, entrySession, enterStage, hentry, hphase]

/-- Inside an audit the second step is at the head of the saved round. -/
theorem resume_round {a : Nat} (hpass : Passed env a) (hin : InAudit ctx a p) {act : AuditRoundProgress}
    (hact : p.activeAudit = some act) (hphase : p.nextPhase ≠ .finalize) :
    runSteps ctx env p 2 =
      { entrySession p with control := .round a p.cursorRound (p.nextPhase = .reviewers) } := by
  have hle := hin.audit_le
  have hcursor := hin.cursor
  have hsame : { p with cursorAudit := a, executedAuditRounds := a } = p := by
    have := startedAgain (hin.executed.trans hcursor.symm)
    rwa [hcursor] at this
  rw [runSteps_succ, runSteps_one hpass.1 hphase]
  simp only [step, startAudit, entrySession, hcursor, hsame]
  rw [if_neg (by omega)]
  simp only [hpass.2, hact]
  rfl

theorem resume_remediation {a r : Nat} (hpass : Passed env a) (hin : InAudit ctx a p) {act : AuditRoundProgress}
    (hact : p.activeAudit = some act) (hphase : p.nextPhase = .executors) (hround : p.cursorRound = r) :
    Agree (runSteps ctx env p 2) ⟨.round a r false, p, [], []⟩ := by
  rw [resume_round hpass hin hact (by simp [hphase])]
  simp [Agree, hphase, hround, entrySession]

theorem resume_review {a r : Nat} (hpass : Passed env a) (hstatus : env.fault .roundStatus a r = none)
    (hin : InAudit ctx a p) {act : AuditRoundProgress} (hact : p.activeAudit = some act) (hdue : ReviewDue ctx a r act)
    (hphase : p.nextPhase = .reviewers) (hround : p.cursorRound = r) :
    Agree (runSteps ctx env p 3)
      ⟨.review a r (buildExecutorOutputFingerprint ctx act.executorOutputs), p, [], []⟩ := by
  have hle := hdue.group.round_le
  have hsame : { p with activeAudit := some act } = p := by
    rw [← hact]
  rw [runSteps_succ, resume_round hpass hin hact (by simp [hphase])]
  simp only [step, startRound, entrySession, hact, hphase, hround, hdue.lastRound_self, hstatus, decide_true, if_true]
  rw [if_neg (by omega)]
  exact ⟨rfl, hsame⟩

theorem resume_preReviewed (hpass : Passed env 1) (hin : InAudit ctx 1 p) (hidle : p.activeAudit = none)
    (hdone : p.initialReviewCompleted = true) (hphase : p.nextPhase = .executors) :
    Agree (runSteps ctx env p 3) ⟨.seed 1, p, [], []⟩ := by
  have hle := auditRounds_pos ctx
  have hcursor := hin.cursor
  have hsame : { p with cursorAudit := 1, executedAuditRounds := 1 } = p := by
    have := startedAgain (hin.executed.trans hcursor.symm)
    rwa [hcursor] at this
  have htwo : runSteps ctx env p 2 = { entrySession p with control := .preReview 1 } := by
    rw [runSteps_succ, runSteps_one hpass.1 (by simp [hphase])]
    simp only [step, startAudit, entrySession, hcursor, hsame]
    rw [if_neg (by omega)]
    simp only [hpass.2, hidle, Nat.lt_irrefl, false_and, if_false]
  rw [runSteps_succ, htwo]
  simp only [step, preReview, entrySession, hdone, Bool.true_eq_false, and_false, if_false]
  exact ⟨rfl, rfl⟩

/-- A later audit without a candidate commits its opening checkpoint once more. -/
theorem resume_opening {a : Nat} (hpass : Passed env a) (hin : InAudit ctx a p) (hidle : p.activeAudit = none)
    (hnone : p.latestExecutorOutputs = none) (ha : 1 < a) (hphase : p.nextPhase = .executors)
    (hround : p.cursorRound = 1) {cp : OpenReviewCheckpoint}
    (hprep : prepareCheckpoint ctx env.evidence p .executors 1 = .ok cp)
    (hvalid : (cp.validate >>= fun _ => validateCheckpointNode cp ctx.node) = .ok ())
    (hcommit : env.fault (.commit .executors) p.cursorAudit 1 = none) :
    Agree (runSteps ctx env p 2) ⟨.preReview a, p, [], []⟩ := by
  have hle := hin.audit_le
  have hcursor := hin.cursor
  have hsame : { p with cursorAudit := a, executedAuditRounds := a } = p := by
    have := startedAgain (hin.executed.trans hcursor.symm)
    rwa [hcursor] at this
  have hthere : { p with nextPhase := CheckpointPhase.executors, cursorRound := 1 } = p := by
    rw [← hphase, ← hround]
  rw [runSteps_succ, runSteps_one hpass.1 (by simp [hphase])]
  simp only [step, startAudit, entrySession, hcursor, hsame]
  rw [if_neg (by omega)]
  simp only [hpass.2, hidle]
  rw [if_pos ⟨ha, hnone⟩]
  unfold commitTransition
  simp only [hprep, hvalid, hcommit]
  exact ⟨rfl, hthere⟩

/-! ## What a commit leaves -/

/-- The step commits nothing, or a checkpoint from which the stage gets back to where the step left it. -/
def Resumable (ctx : Context) (env : Environment) (before : List OpenReviewCheckpoint) (s : Session) : Prop :=
  s.committed = before ∨ ∃ cp, s.committed = before ++ [cp] ∧ restore ctx cp = .ok s.progress ∧
    encodeProgress s.progress = .ok cp.progress ∧
    ∀ env', SameWorld env' env → ∃ k, Agree (runSteps ctx env' s.progress k) s

theorem committed_raiseInAudit (s : Session) (a : Nat) (act : AuditRoundProgress) (fault : Fault) :
    (raiseInAudit ctx s a act fault).committed = s.committed := by
  unfold raiseInAudit Session.withAudit Session.raise
  simp only
  split <;> rfl

/-- Only the cursor tells the progress after a commit from the one the checkpoint is prepared from. -/
theorem prepareCheckpoint_withCursor (ev : Evidence) (phase phase' : CheckpointPhase) (r r' : Nat) :
    prepareCheckpoint ctx ev { p with nextPhase := phase', cursorRound := r' } phase r =
      prepareCheckpoint ctx ev p phase r := rfl

theorem resumable_commitTransition (hnode : NodeOk ctx.node) {s : Session} {before : List OpenReviewCheckpoint}
    (hbefore : s.committed = before) {phase : CheckpointPhase} {r : Nat} (hb : Boundary ctx s.progress phase r)
    {next : Control} {raise : Session → Fault → Session}
    (hraise : ∀ t fault, (raise t fault).committed = t.committed)
    (hresume : ∀ cp, prepareCheckpoint ctx env.evidence s.progress phase r = .ok cp →
      (cp.validate >>= fun _ => validateCheckpointNode cp ctx.node) = .ok () →
      env.fault (.commit phase) s.progress.cursorAudit r = none → ∀ env', SameWorld env' env →
      ∃ k, Agree (runSteps ctx env' { s.progress with nextPhase := phase, cursorRound := r } k)
        ⟨next, { s.progress with nextPhase := phase, cursorRound := r }, [], []⟩) :
    Resumable ctx env before (commitTransition ctx env s phase r next raise) := by
  subst hbefore
  unfold commitTransition
  split
  · exact Or.inl (hraise s _)
  · rename_i cp hprep
    simp only
    split
    · exact Or.inl (hraise _ _)
    · rename_i hvalid
      split
      · exact Or.inl (hraise _ _)
      · rename_i hcommit
        obtain ⟨outputs, evidence, generated, wfiles, mappings, workspaces, hasm⟩ := assembly_of_prepareCheckpoint hprep
        refine Or.inr ⟨cp, rfl, restore_prepared hnode hb hprep, ?_, hresume cp hprep hvalid hcommit⟩
        change encodeProgress s.progress = _
        rw [hasm.encoded, hasm.checkpoint]

theorem resumable_offerCandidate (hnode : NodeOk ctx.node) {s : Session} {a r : Nat} (hpass : Passed env a)
    (hstatus : env.fault .roundStatus a r = none) (hin : InAudit ctx a s.progress) {act : AuditRoundProgress}
    (hoffer : Offered ctx a r s.progress.latestExecutorOutputs (prepareReviewCandidate ctx act s.progress.stall r).1
      (prepareReviewCandidate ctx act s.progress.stall r).2.2) :
    Resumable ctx env s.committed (offerCandidate ctx env s a r act) := by
  unfold offerCandidate
  generalize prepareReviewCandidate ctx act s.progress.stall r = offered at hoffer
  obtain ⟨act', stall, outcome⟩ := offered
  simp only at hoffer ⊢
  have hin' := hin.withActive (some act') stall
  split
  · split
    · exact Or.inl rfl
    · exact Or.inl (committed_raiseInAudit _ _ _ _)
  · cases hoffer with
    | stopped h => exact Or.inl rfl
    | kept h => exact Or.inl rfl
    | review h =>
      have hb : Boundary ctx { s.progress with activeAudit := some act', stall } .reviewers r := by
        have hcursor : ({ s.progress with activeAudit := some act', stall } : ReviewLoopProgress).cursorAudit = a :=
          hin.cursor
        exact .review (by rw [hcursor]; exact hin') rfl (by rw [hcursor]; exact h)
      refine resumable_commitTransition hnode ?_ hb ?_ ?_
      · rfl
      · exact fun t fault => committed_raiseInAudit t a act' fault
      · exact fun cp _ _ _ env' hw => ⟨3, resume_review (hpass.of_same hw) (by rw [hw.fault]; exact hstatus) (hin'.withCursor _ _) rfl h rfl rfl⟩

theorem resumable_startRound (hnode : NodeOk ctx.node) {s : Session} {a r : Nat} {due : Bool}
    (h : Good ctx env (.round a r due) s.progress) : Resumable ctx env s.committed (startRound ctx env s a r due) := by
  obtain ⟨hpass, hin, act, hact, hready⟩ := h
  have hmax := maxRound_ge_two ctx
  unfold startRound
  rw [hact]
  simp only
  cases hready with
  | first hun =>
    rw [if_neg (by omega)]
    split
    · exact Or.inl (committed_raiseInAudit _ _ _ _)
    · rename_i hstatus
      simp only [Bool.false_eq_true, if_false, if_true]
      exact resumable_offerCandidate hnode hpass hstatus hin (offered_first _ (hun.withRound 1) rfl)
  | @next r hadv =>
    obtain ⟨q, cs, hq, hh, hexec⟩ := hadv.state
    have hqpos := hh.group.round_pos
    split
    · exact Or.inl rfl
    · rename_i hle
      have hh' := hh.withRound (r + 1)
      have hle' : r + 1 ≤ ctx.maxRound := by omega
      split
      · exact Or.inl (committed_raiseInAudit _ _ _ _)
      · rename_i hstatus
        simp only [Bool.false_eq_true, if_false]
        rw [if_neg (by omega)]
        split
        · refine Or.inl ?_
          unfold recoverOrRaise Session.withAudit
          split
          · split
            · simp only
              split
              · rfl
              · split
                · rfl
                · exact committed_raiseInAudit _ _ _ _
            · exact committed_raiseInAudit _ _ _ _
          · exact committed_raiseInAudit _ _ _ _
        · rename_i response _
          have hg := group_runExecutorRound ⟨hin.audit_pos, hin.audit_le⟩ ⟨by omega, hle'⟩ response
          exact resumable_offerCandidate hnode hpass hstatus hin
            (offered_next _ (hh'.withOutputs _ _ _ _) (by omega) hg rfl)
  | due hdue =>
    split
    · exact Or.inl rfl
    · split
      · exact Or.inl (committed_raiseInAudit _ _ _ _)
      · exact Or.inl rfl

theorem resumable_advanceRound (hnode : NodeOk ctx.node) {s : Session} {a r : Nat}
    (h : Good ctx env (.advance a r) s.progress) : Resumable ctx env s.committed (advanceRound ctx env s a r) := by
  obtain ⟨hpass, hin, act, hact, hadv⟩ := h
  have hcursor := hin.cursor
  unfold advanceRound
  rw [hact]
  simp only
  split
  · rename_i hlt
    refine resumable_commitTransition hnode rfl ?_ ?_ ?_
    · exact .remediation (by rw [hcursor]; exact hin) hact (by rw [hcursor]; exact hadv) hlt
    · exact fun t fault => committed_raiseInAudit t a act fault
    · exact fun cp _ _ _ env' hw => ⟨2, resume_remediation (hpass.of_same hw) (hin.withCursor _ _) hact rfl rfl⟩
  · exact Or.inl rfl

theorem resumable_startAudit (hnode : NodeOk ctx.node) {s : Session} {a : Nat}
    (h : Good ctx env (.audit a) s.progress) : Resumable ctx env s.committed (startAudit ctx env s a) := by
  obtain ⟨hentry, h⟩ := h
  unfold startAudit
  split
  · exact Or.inl rfl
  · rename_i hle
    have hle : a ≤ ctx.auditRounds := by omega
    simp only
    split
    · exact Or.inl rfl
    · rename_i hstart
      split
      · exact Or.inl rfl
      · rename_i hnoactive
        split
        · rename_i hopen
          rcases h with h | ⟨-, hact, -⟩
          · have hidle := h.start hle
            refine resumable_commitTransition hnode ?_ ?_ ?_ ?_
            · rfl
            · exact .opening hidle.toInAudit hidle.idle hopen.2
            · exact fun t fault => rfl
            · intro cp hprep hvalid hcommit env' hw
              have hpass : Passed env' a := Passed.of_same hw ⟨hentry, hstart⟩
              exact ⟨2, resume_opening hpass (hidle.toInAudit.withCursor _ _) hidle.idle hopen.2 hopen.1 rfl rfl
                (by rw [hw.evidence]; exact hprep) hvalid (by rw [hw.fault]; exact hcommit)⟩
          · exact absurd hnoactive hact
        · exact Or.inl rfl

theorem resumable_preReview (hnode : NodeOk ctx.node) {s : Session} {a : Nat} (hpass : Passed env a)
    (h : Idle ctx a s.progress) : Resumable ctx env s.committed (preReview ctx env s a) := by
  unfold preReview
  split
  · rename_i hfirst
    obtain ⟨hstarts, rfl, hnone, hfresh⟩ := hfirst
    split
    · exact Or.inl rfl
    · exact Or.inl rfl
    · split
      · exact Or.inl rfl
      · rename_i run hrun
        have hin : InAudit ctx 1 (s.progress.recordInitialReviewerRun run) := by
          refine ⟨⟨h.recorded.selection, ?_, h.recorded.lastRound, h.recorded.consensus⟩, h.continued, h.cursor,
            h.executed, h.audit_pos, h.audit_le⟩
          exact Or.inl ⟨rfl, hstarts, batch_of_run hrun⟩
        have hcursor : (s.progress.recordInitialReviewerRun run).cursorAudit = 1 := h.cursor
        have hopen : Boundary ctx (s.progress.recordInitialReviewerRun run) .executors 1 :=
          .opening (by rw [hcursor]; exact hin) h.idle hnone
        refine resumable_commitTransition hnode ?_ hopen ?_ ?_
        · rfl
        · exact fun t fault => rfl
        · exact fun cp _ _ _ env' hw => ⟨3, resume_preReviewed (hpass.of_same hw) (hin.withCursor _ _) h.idle rfl rfl⟩
  · exact Or.inl rfl

theorem committed_enterStage (s : Session) : (enterStage env s).committed = s.committed := by
  unfold enterStage
  split
  · rfl
  · split <;> rfl

theorem committed_seedAudit (s : Session) (a : Nat) : (seedAudit ctx env s a).committed = s.committed := by
  unfold seedAudit openAudit Session.withAudit
  simp only
  split
  · split <;> rfl
  · split <;> rfl

theorem committed_reviewRound (s : Session) (a r : Nat) (fingerprint : Option String) :
    (reviewRound ctx env s a r fingerprint).committed = s.committed := by
  unfold reviewRound
  split
  · rfl
  · split
    · exact committed_raiseInAudit _ _ _ _
    · exact committed_raiseInAudit _ _ _ _
    · split
      · exact committed_raiseInAudit _ _ _ _
      · simp only
        split
        · exact committed_raiseInAudit _ _ _ _
        · split <;> rfl

theorem committed_settleAudit (s : Session) (a : Nat) (agreed clean : Bool) :
    (settleAudit ctx env s a agreed clean).committed = s.committed := by
  unfold settleAudit Session.raise
  split
  · rfl
  · simp only
    split
    · split
      · rfl
      · split <;> rfl
    · split
      · rfl
      · split
        · rfl
        · split <;> rfl

theorem committed_finishExhausted (s : Session) : (finishExhausted ctx env s).committed = s.committed := by
  unfold finishExhausted
  split
  · rfl
  · split <;> rfl

/-- Every step of the loop, from wherever it is. -/
theorem resumable_step (hnode : NodeOk ctx.node) {s : Session} (h : Good ctx env s.control s.progress) :
    Resumable ctx env s.committed (step ctx env s) := by
  unfold step
  generalize s.control = control at h
  cases control with
  | entry => exact Or.inl (committed_enterStage s)
  | audit a => exact resumable_startAudit hnode h
  | preReview a => exact resumable_preReview hnode h.1 h.2
  | seed a => exact Or.inl (committed_seedAudit s a)
  | round a r due => exact resumable_startRound hnode h
  | review a r fingerprint => exact Or.inl (committed_reviewRound s a r fingerprint)
  | advance a r => exact resumable_advanceRound hnode h
  | settled a agreed clean => exact Or.inl (committed_settleAudit s a agreed clean)
  | exhausted => exact Or.inl (committed_finishExhausted s)
  | finalize =>
    change Resumable ctx env s.committed (finalizeStage ctx env s)
    unfold finalizeStage
    split
    · exact Or.inl rfl
    · exact resumable_commitTransition hnode rfl (.finish h.2) (fun t fault => rfl)
        fun cp _ _ _ env' hw => ⟨1, resume_finish (by rw [hw.fault]; exact h.1) rfl⟩
  | returned => exact Or.inl rfl
  | raised fault => exact Or.inl rfl

end Resuming

/-! ## Resumed runs -/

/-- Where a run commits a checkpoint, restoring it gives a progress with the same encoding;
a stage started with it, in the same world and with the same answers from there on, meets
the run after that commit and never leaves it. -/
theorem resume_equivalent {ctx : Context} (hnode : NodeOk ctx.node) {p : ReviewLoopProgress} (hstart : Started ctx p)
    (env : Environment) (n : Nat) (cp : OpenReviewCheckpoint)
    (hcommit : (runSteps ctx env p (n + 1)).committed = (runSteps ctx env p n).committed ++ [cp]) :
    ∃ q, restore ctx cp = .ok q ∧ encodeProgress q = .ok cp.progress ∧
      ∀ env', SameWorld env' env → (∀ m, AnswerAlike env' env (runSteps ctx env p (n + 1 + m)).control) →
        ∃ k, ∀ m, (runSteps ctx env' q (k + m)).control = (runSteps ctx env p (n + 1 + m)).control ∧
          (runSteps ctx env' q (k + m)).progress = (runSteps ctx env p (n + 1 + m)).progress := by
  have hinv : Inv ctx env (runSteps ctx env p n) := inv_runSteps (startable_of_started hnode hstart) n
  have hstep := resumable_step hnode hinv.good
  rw [← runSteps_succ, Resumable] at hstep
  rcases hstep with hsame | ⟨cp', hcommitted, hrestore, hencode, hresume⟩
  · rw [hcommit] at hsame
    simp at hsame
  obtain rfl : cp' = cp := by
    rw [hcommit] at hcommitted
    simpa using hcommitted.symm
  refine ⟨_, hrestore, hencode, ?_⟩
  intro env' hw ha
  obtain ⟨k, hagree⟩ := hresume env' hw
  refine ⟨k, ?_⟩
  intro m
  have hright : ∀ m, runSteps ctx env p (n + 1 + m) = (step ctx env)^[m] (runSteps ctx env p (n + 1)) := by
    intro m
    unfold runSteps
    rw [Nat.add_comm (n + 1) m, Function.iterate_add_apply]
  have hleft : runSteps ctx env' (runSteps ctx env p (n + 1)).progress (k + m) =
      (step ctx env')^[m] (runSteps ctx env' (runSteps ctx env p (n + 1)).progress k) := by
    unfold runSteps
    rw [Nat.add_comm, Function.iterate_add_apply]
  rw [hleft, hright]
  exact agree_iterate hw hagree (fun m => by rw [← hright]; exact ha m) m

theorem resume_equivalent_sample :
    ∃ cp, (runSteps sampleContext (sampleEnvironment 1) {} 5).committed = [cp] ∧
      ∃ q, restore sampleContext cp = .ok q ∧ encodeProgress q = .ok cp.progress ∧
        ∃ k, (runSteps sampleContext (sampleEnvironment 1) q (k + 4)).control = .returned ∧
          (runSteps sampleContext (sampleEnvironment 1) q (k + 4)).progress =
            (runSteps sampleContext (sampleEnvironment 1) {} 9).progress := by
  obtain ⟨cp, hcp⟩ : ∃ cp, (runSteps sampleContext (sampleEnvironment 1) {} 5).committed = [cp] :=
    List.length_eq_one_iff.1 (by decide +kernel)
  have hnone : (runSteps sampleContext (sampleEnvironment 1) {} 4).committed = [] :=
    List.length_eq_zero_iff.1 (by decide +kernel)
  obtain ⟨q, hrestore, hencode, hresume⟩ :=
    resume_equivalent sampleNode_ok .fresh (sampleEnvironment 1) 4 cp (by rw [hcp, hnone]; rfl)
  have hsame : SameWorld (sampleEnvironment 1) (sampleEnvironment 1) := ⟨rfl, rfl⟩
  have halike : ∀ c, AnswerAlike (sampleEnvironment 1) (sampleEnvironment 1) c := by
    intro c
    cases c <;> simp [AnswerAlike]
  obtain ⟨k, hk⟩ := hresume _ hsame fun m => halike _
  refine ⟨cp, hcp, q, hrestore, hencode, k, ?_, (hk 4).2⟩
  rw [(hk 4).1]
  decide +kernel

end Crewplane.Review
