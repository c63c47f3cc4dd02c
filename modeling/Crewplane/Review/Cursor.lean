import Crewplane.Review.Gate
/-
# The cursor of the review loop (orchestration.py:205, audit_round.py:126)

`providerRound?` is the provider round a step runs, if it runs one, and `step_asks_only` says that the step looks at no
other answer of the environment. The rounds of a run come in the order of audit, round and role, executors before
reviewers; a control says which rounds can still come (`Behind`), and every step respects it (`Next`).

Reviewers that start the loop review the workspace before there is a candidate: that batch is round 0 of audit 1.
-/
namespace Crewplane.Review

open Crewplane.Lib Crewplane.Plan

/-- One batch of invocations, or the copies of the last candidate that open a later audit (`invoked` is false). -/
structure ProviderRound where
  audit : Nat
  round : Nat
  role : ProviderRole
  invoked : Bool
  deriving DecidableEq, Repr

namespace ProviderRound

def tasks (ctx : Context) (b : ProviderRound) : List TaskId :=
  (ctx.node.providerRecords.filter fun p => p.role = b.role).map (·.taskId)

/-- The `(task, audit, round)` triples of the batch. -/
def triples (ctx : Context) (b : ProviderRound) : List (TaskId × Nat × Nat) :=
  (b.tasks ctx).map fun task => (task, b.audit, b.round)

/-- The files the batch writes. -/
def files (ctx : Context) (b : ProviderRound) : List RelPath :=
  (b.tasks ctx).map fun task => outputPath ctx b.audit task b.round

/-- Earlier audit, earlier round, or the executors of the same round. -/
def Before (b c : ProviderRound) : Prop :=
  b.audit < c.audit ∨ b.audit = c.audit ∧
    (b.round < c.round ∨ b.round = c.round ∧ b.role = .executor ∧ c.role = .reviewer)

end ProviderRound

/-- The condition of `initial_pre_review_handoff`. -/
def PreReviewDue (ctx : Context) (a : Nat) (p : ReviewLoopProgress) : Prop :=
  ctx.policy.reviewStartsWith = .reviewer ∧ a = 1 ∧ p.latestExecutorOutputs = none ∧ p.initialReviewCompleted = false

instance (ctx : Context) (a : Nat) (p : ReviewLoopProgress) : Decidable (PreReviewDue ctx a p) :=
  inferInstanceAs (Decidable (_ ∧ _))

/-- The provider round that the next step runs. -/
def providerRound? (ctx : Context) (env : Environment) (s : Session) : Option ProviderRound :=
  match s.control with
  | .preReview a =>
    if PreReviewDue ctx a s.progress ∧ env.fault .preReview a 0 = none then some ⟨a, 0, .reviewer, true⟩ else none
  | .seed a =>
    match s.progress.latestExecutorOutputs with
    | some _ => if env.fault .seeding a 1 = none then some ⟨a, 1, .executor, false⟩ else none
    | none => some ⟨a, 1, .executor, true⟩
  | .round a r due =>
    if s.progress.activeAudit.isSome ∧ r ≤ ctx.maxRound ∧ env.fault .roundStatus a r = none ∧ due = false ∧ r ≠ 1 then
      some ⟨a, r, .executor, true⟩
    else none
  | .review a r _ =>
    if s.progress.activeAudit.isSome ∧ env.fault .reviewRequest a r = none then some ⟨a, r, .reviewer, true⟩ else none
  | _ => none

/-- The provider rounds of the first `n` steps. -/
def providerRounds (ctx : Context) (env : Environment) (p : ReviewLoopProgress) (n : Nat) : List ProviderRound :=
  (List.range n).filterMap fun i => providerRound? ctx env (runSteps ctx env p i)

def reviewBatches (ctx : Context) (env : Environment) (p : ReviewLoopProgress) (n : Nat) : List ProviderRound :=
  (providerRounds ctx env p n).filter fun b => b.role = .reviewer

def invokedTriples (ctx : Context) (env : Environment) (p : ReviewLoopProgress) (n : Nat) :
    List (TaskId × Nat × Nat) :=
  ((providerRounds ctx env p n).filter (·.invoked)).flatMap (·.triples ctx)

def writtenFiles (ctx : Context) (env : Environment) (p : ReviewLoopProgress) (n : Nat) : List RelPath :=
  (providerRounds ctx env p n).flatMap (·.files ctx)

/-! ## What a step can lead to -/

/-- The control after a step from each control. -/
inductive Next (p : ReviewLoopProgress) : Control → Control → Prop
  | failed {c : Control} {fault : Fault} : Next p c (.raised fault)
  | entered : Next p .entry (.audit p.cursorAudit)
  | already : Next p .entry .returned
  | exhausted {a : Nat} : Next p (.audit a) .exhausted
  | resumed {a : Nat} {due : Bool} : Next p (.audit a) (.round a p.cursorRound due)
  | started {a : Nat} : Next p (.audit a) (.preReview a)
  | preReviewed {a : Nat} : Next p (.preReview a) (.seed a)
  | seeded {a : Nat} {due : Bool} : Next p (.seed a) (.round a p.cursorRound due)
  | stopped {a r : Nat} {due consensus clean : Bool} : Next p (.round a r due) (.settled a consensus clean)
  | offered {a r : Nat} {due : Bool} {fingerprint : Option String} :
      Next p (.round a r due) (.review a r fingerprint)
  | skipped {a r : Nat} {due : Bool} : Next p (.round a r due) (.advance a r)
  | judged {a r : Nat} {fingerprint : Option String} {consensus clean : Bool} :
      Next p (.review a r fingerprint) (.settled a consensus clean)
  | rejected {a r : Nat} {fingerprint : Option String} : Next p (.review a r fingerprint) (.advance a r)
  | advanced {a r : Nat} : Next p (.advance a r) (.round a (r + 1) false)
  | cut {a r : Nat} {consensus clean : Bool} : Next p (.advance a r) (.settled a consensus clean)
  | closed {a : Nat} {consensus clean : Bool} : Next p (.settled a consensus clean) .finalize
  | again {a : Nat} {consensus clean : Bool} : Next p (.settled a consensus clean) (.audit (a + 1))
  | continued : Next p .exhausted .finalize
  | finished : Next p .finalize .returned
  | stay : Next p .returned .returned

section Steps

variable {ctx : Context} {env : Environment} {s : Session}

theorem control_raiseInAudit (s : Session) (a : Nat) (active : AuditRoundProgress) (fault : Fault) :
    (raiseInAudit ctx s a active fault).control = .settled a false false ∨
      ∃ fault', (raiseInAudit ctx s a active fault).control = .raised fault' := by
  simp only [raiseInAudit]
  split
  · exact .inl rfl
  · exact .inr ⟨fault, rfl⟩

/-- A commit goes on, or raises in a session with the same control. -/
theorem control_commitTransition {phase : CheckpointPhase} {r : Nat} {next : Control}
    {raise : Session → Fault → Session} {P : Control → Prop} (hnext : P next)
    (hraise : ∀ t fault, P (raise t fault).control) :
    P (commitTransition ctx env s phase r next raise).control := by
  simp only [commitTransition]
  split
  · exact hraise _ _
  · split
    · exact hraise _ _
    · split
      · exact hraise _ _
      · exact hnext

theorem next_raiseInAudit {p : ReviewLoopProgress} {c : Control} (s : Session) (a : Nat) (active : AuditRoundProgress)
    (fault : Fault) (hsettled : Next p c (.settled a false false)) :
    Next p c (raiseInAudit ctx s a active fault).control := by
  rcases @control_raiseInAudit ctx s a active fault with hcontrol | ⟨fault', hcontrol⟩
  · rw [hcontrol]
    exact hsettled
  · rw [hcontrol]
    exact .failed

theorem next_enterStage : Next s.progress .entry (enterStage env s).control := by
  simp only [enterStage]
  split
  · exact .failed
  · split
    · exact .already
    · exact .entered

theorem next_startAudit (a : Nat) : Next s.progress (.audit a) (startAudit ctx env s a).control := by
  simp only [startAudit]
  split
  · exact .exhausted
  · split
    · exact .failed
    · split
      · exact .resumed
      · split
        · exact control_commitTransition .started fun t fault => .failed
        · exact .started

theorem next_preReview (a : Nat) : Next s.progress (.preReview a) (preReview ctx env s a).control := by
  simp only [preReview]
  split
  · split
    · exact .failed
    · exact .failed
    · split
      · exact .failed
      · exact control_commitTransition .preReviewed fun t fault => .failed
  · exact .preReviewed

theorem next_seedAudit (a : Nat) : Next s.progress (.seed a) (seedAudit ctx env s a).control := by
  simp only [seedAudit]
  split
  · split
    · exact .failed
    · exact .failed
    · exact .seeded
  · split
    · exact .failed
    · exact .seeded

theorem next_offerCandidate {p : ReviewLoopProgress} (a r : Nat) (due : Bool) (active : AuditRoundProgress) :
    Next p (.round a r due) (offerCandidate ctx env s a r active).control := by
  simp only [offerCandidate]
  split
  · split
    · exact .stopped
    · exact next_raiseInAudit _ _ _ _ .stopped
  · split
    · exact .stopped
    · exact .skipped
    · exact control_commitTransition .offered fun t fault => next_raiseInAudit _ _ _ _ .stopped

theorem next_recoverOrRaise {p : ReviewLoopProgress} (a r : Nat) (due : Bool) (active : AuditRoundProgress)
    (fault : Fault) : Next p (.round a r due) (recoverOrRaise ctx env s a r active fault).control := by
  simp only [recoverOrRaise]
  split
  · split
    · split
      · exact .stopped
      · split
        · exact .stopped
        · exact next_raiseInAudit _ _ _ _ .stopped
    · exact next_raiseInAudit _ _ _ _ .stopped
  · exact next_raiseInAudit _ _ _ _ .stopped

theorem next_startRound (a r : Nat) (due : Bool) :
    Next s.progress (.round a r due) (startRound ctx env s a r due).control := by
  simp only [startRound]
  split
  · exact .failed
  · split
    · exact .stopped
    · split
      · exact next_raiseInAudit _ _ _ _ .stopped
      · split
        · exact .offered
        · split
          · exact next_offerCandidate a r due _
          · split
            · exact next_recoverOrRaise a r due _ _
            · exact next_offerCandidate a r due _

theorem next_reviewRound (a r : Nat) (fingerprint : Option String) :
    Next s.progress (.review a r fingerprint) (reviewRound ctx env s a r fingerprint).control := by
  simp only [reviewRound]
  split
  · exact .failed
  · split
    · exact next_raiseInAudit _ _ _ _ .judged
    · exact next_raiseInAudit _ _ _ _ .judged
    · split
      · exact next_raiseInAudit _ _ _ _ .judged
      · split
        · exact next_raiseInAudit _ _ _ _ .judged
        · split
          · exact .judged
          · exact .rejected

theorem next_advanceRound (a r : Nat) : Next s.progress (.advance a r) (advanceRound ctx env s a r).control := by
  simp only [advanceRound]
  split
  · exact .failed
  · split
    · exact control_commitTransition .advanced fun t fault => next_raiseInAudit _ _ _ _ .cut
    · exact .advanced

theorem next_settleAudit (a : Nat) (consensus clean : Bool) :
    Next s.progress (.settled a consensus clean) (settleAudit ctx env s a consensus clean).control := by
  simp only [settleAudit]
  split
  · exact .failed
  · split
    · split
      · exact .failed
      · split
        · exact .failed
        · exact .closed
    · split
      · exact .failed
      · split
        · exact .failed
        · split
          · exact .closed
          · exact .again

theorem next_finishExhausted : Next s.progress .exhausted (finishExhausted ctx env s).control := by
  simp only [finishExhausted]
  split
  · exact .failed
  · split
    · exact .failed
    · exact .continued

theorem next_finalizeStage : Next s.progress .finalize (finalizeStage ctx env s).control := by
  simp only [finalizeStage]
  split
  · exact .failed
  · exact control_commitTransition .finished fun t fault => .failed

/-- Where a step can lead. -/
theorem next_step (ctx : Context) (env : Environment) (s : Session) :
    Next s.progress s.control (step ctx env s).control := by
  unfold step
  generalize hc : s.control = control
  cases control with
  | entry => exact next_enterStage
  | audit a => exact next_startAudit a
  | preReview a => exact next_preReview a
  | seed a => exact next_seedAudit a
  | round a r due => exact next_startRound a r due
  | review a r fingerprint => exact next_reviewRound a r fingerprint
  | advance a r => exact next_advanceRound a r
  | settled a consensus clean => exact next_settleAudit a consensus clean
  | exhausted => exact next_finishExhausted
  | finalize => exact next_finalizeStage
  | returned =>
    rw [hc]
    exact .stay
  | raised fault =>
    rw [hc]
    exact .failed

/-- The two environments answer this round alike. -/
def ProviderRound.SameAnswer (b : ProviderRound) (env env' : Environment) : Prop :=
  match b.role with
  | .executor => env.executors b.audit b.round = env'.executors b.audit b.round
  | .reviewer => env.reviewers b.audit b.round = env'.reviewers b.audit b.round

/-- A step asks the providers for its own round and for nothing else. -/
theorem step_asks_only (executors : Nat → Nat → Except Fault (TaskId → ExecutorResponse))
    (reviewers : Nat → Nat → Except Fault (TaskId → ReviewerResponse))
    (h : ∀ b, providerRound? ctx env s = some b → b.invoked = true →
      b.SameAnswer env { env with executors, reviewers }) :
    step ctx { env with executors, reviewers } s = step ctx env s := by
  unfold providerRound? at h
  unfold step
  generalize hc : s.control = control at h
  cases control with
  | preReview a =>
    simp only at h
    by_cases hdue : PreReviewDue ctx a s.progress
    · cases hfault : env.fault .preReview a 0 with
      | some fault => simp only [preReview, hfault]
      | none =>
        have hsame : env.reviewers a 0 = reviewers a 0 := h _ (if_pos ⟨hdue, hfault⟩) rfl
        simp only [preReview, hfault, hsame]
        rfl
    · unfold PreReviewDue at hdue
      simp only [preReview, if_neg hdue]
  | seed a =>
    simp only at h
    cases hlatest : s.progress.latestExecutorOutputs with
    | some latest => simp only [seedAudit, hlatest]
    | none =>
      rw [hlatest] at h
      have hsame : env.executors a 1 = executors a 1 := h _ rfl rfl
      simp only [seedAudit, hlatest, hsame]
  | round a r due =>
    simp only at h
    cases hactive : s.progress.activeAudit with
    | none => simp only [startRound, hactive]
    | some active =>
      by_cases hround : r ≤ ctx.maxRound ∧ env.fault .roundStatus a r = none ∧ due = false ∧ r ≠ 1
      · obtain ⟨hle, hfault, hdue, hlater⟩ := hround
        have hsame : env.executors a r = executors a r :=
          h _ (if_pos ⟨by simp [hactive], hle, hfault, hdue, hlater⟩) rfl
        simp only [startRound, hactive, hsame]
        rfl
      · by_cases hle : ctx.maxRound < r
        · simp only [startRound, hactive, if_pos hle]
        · cases hfault : env.fault .roundStatus a r with
          | some fault => simp only [startRound, hactive, hfault]
          | none =>
            cases due with
            | true => simp only [startRound, hactive, hfault, if_pos]
            | false =>
              have hfirst : r = 1 := by
                by_contra hlater
                exact hround ⟨not_lt.mp hle, hfault, rfl, hlater⟩
              simp only [startRound, hactive, hfault, if_pos hfirst]
              rfl
  | review a r fingerprint =>
    simp only at h
    cases hactive : s.progress.activeAudit with
    | none => simp only [reviewRound, hactive]
    | some active =>
      cases hfault : env.fault .reviewRequest a r with
      | some fault => simp only [reviewRound, hactive, hfault]
      | none =>
        have hsame : env.reviewers a r = reviewers a r := h _ (if_pos ⟨by simp [hactive], hfault⟩) rfl
        simp only [reviewRound, hactive, hfault, hsame]
  | entry => rfl
  | audit a => rfl
  | advance a r => rfl
  | settled a consensus clean => rfl
  | exhausted => rfl
  | finalize => rfl
  | returned => rfl
  | raised fault => rfl

end Steps

/-! ## The order of the rounds -/

/-- Every round that can come from this control is after `b`. -/
def Behind (b : ProviderRound) : Control → Prop
  | .entry => False
  | .audit a | .preReview a => b.audit < a
  | .seed a => b.audit < a ∨ b.audit = a ∧ b.round < 1
  | .round a r _ => b.audit < a ∨ b.audit = a ∧ (b.round < r ∨ b.round = r ∧ r = 1 ∧ b.role = .executor)
  | .review a r _ => b.audit < a ∨ b.audit = a ∧ (b.round < r ∨ b.round = r ∧ b.role = .executor)
  | .advance a r => b.audit < a ∨ b.audit = a ∧ b.round ≤ r
  | .settled a _ _ => b.audit ≤ a
  | .exhausted | .finalize | .returned | .raised _ => True

/-- An audit is seeded with the cursor at its first round. -/
def SeedsFirstRound (s : Session) : Prop := ∀ a, s.control = .seed a → s.progress.cursorRound = 1

section Order

variable {ctx : Context} {env : Environment} {s : Session} {b c : ProviderRound}

theorem behind_next {p : ReviewLoopProgress} {x y : Control} (hseed : ∀ a, x = .seed a → p.cursorRound = 1)
    (hnext : Next p x y) (h : Behind b x) : Behind b y := by
  cases hnext with
  | seeded =>
    have hcursor := hseed _ rfl
    simp only [Behind] at h ⊢
    omega
  | entered => cases h
  | already => trivial
  | failed => trivial
  | exhausted => trivial
  | closed => trivial
  | continued => trivial
  | finished => trivial
  | stay => trivial
  | resumed => exact .inl h
  | started => exact h
  | preReviewed => exact .inl h
  | stopped =>
    simp only [Behind] at h ⊢
    omega
  | offered =>
    simp only [Behind] at h ⊢
    tauto
  | skipped =>
    simp only [Behind] at h ⊢
    omega
  | judged =>
    simp only [Behind] at h ⊢
    omega
  | rejected =>
    simp only [Behind] at h ⊢
    omega
  | advanced =>
    simp only [Behind] at h ⊢
    omega
  | cut =>
    simp only [Behind] at h ⊢
    omega
  | again =>
    simp only [Behind] at h ⊢
    omega

/-- The places that run a provider round, with the round. -/
theorem providerRound?_cases (h : providerRound? ctx env s = some b) :
    (∃ a, s.control = .preReview a ∧ PreReviewDue ctx a s.progress ∧ b = ⟨a, 0, .reviewer, true⟩) ∨
    (∃ a invoked, s.control = .seed a ∧ b = ⟨a, 1, .executor, invoked⟩) ∨
    (∃ a r due, s.control = .round a r due ∧ r ≠ 1 ∧ r ≤ ctx.maxRound ∧ b = ⟨a, r, .executor, true⟩) ∨
    ∃ a r fingerprint, s.control = .review a r fingerprint ∧ b = ⟨a, r, .reviewer, true⟩ := by
  unfold providerRound? at h
  split at h
  · rename_i a hcontrol
    split at h
    · rename_i hdue
      cases h
      exact .inl ⟨a, hcontrol, hdue.1, rfl⟩
    · cases h
  · rename_i a hcontrol
    right; left
    split at h
    · split at h
      · cases h
        exact ⟨a, false, hcontrol, rfl⟩
      · cases h
    · cases h
      exact ⟨a, true, hcontrol, rfl⟩
  · rename_i a r due hcontrol
    split at h
    · rename_i hcond
      cases h
      exact .inr (.inr (.inl ⟨a, r, due, hcontrol, hcond.2.2.2.2, hcond.2.1, rfl⟩))
    · cases h
  · rename_i a r fingerprint hcontrol
    split at h
    · cases h
      exact .inr (.inr (.inr ⟨a, r, fingerprint, hcontrol, rfl⟩))
    · cases h
  · cases h

/-- The round of this step comes after the rounds before it. -/
theorem before_of_behind (h : providerRound? ctx env s = some c) (hb : Behind b s.control) : b.Before c := by
  obtain ⟨a, hc, -, rfl⟩ | ⟨a, invoked, hc, rfl⟩ | ⟨a, r, due, hc, hlater, -, rfl⟩ | ⟨a, r, fingerprint, hc, rfl⟩ :=
    providerRound?_cases h
  · rw [hc] at hb
    exact .inl hb
  · rw [hc] at hb
    simp only [Behind, ProviderRound.Before] at hb ⊢
    omega
  · rw [hc] at hb
    simp only [Behind, ProviderRound.Before] at hb ⊢
    omega
  · rw [hc] at hb
    simp only [Behind, ProviderRound.Before] at hb ⊢
    tauto

/-- What comes after this step comes after its round. -/
theorem behind_own {y : Control} (hseed : SeedsFirstRound s) (h : providerRound? ctx env s = some b)
    (hnext : Next s.progress s.control y) : Behind b y := by
  obtain ⟨a, hc, -, rfl⟩ | ⟨a, invoked, hc, rfl⟩ | ⟨a, r, due, hc, -, -, rfl⟩ | ⟨a, r, fingerprint, hc, rfl⟩ :=
    providerRound?_cases h
  · rw [hc] at hnext
    cases hnext with
    | failed => trivial
    | preReviewed => simp [Behind]
  · have hcursor := hseed a hc
    rw [hc] at hnext
    cases hnext with
    | failed => trivial
    | seeded => simp [Behind, hcursor]
  · rw [hc] at hnext
    cases hnext with
    | failed => trivial
    | stopped => simp [Behind]
    | offered => simp [Behind]
    | skipped => simp [Behind]
  · rw [hc] at hnext
    cases hnext with
    | failed => trivial
    | judged => simp [Behind]
    | rejected => simp [Behind]

end Order

/-! ## Bounds -/

/-- The coordinates a round can have. -/
structure ProviderRound.Ok (ctx : Context) (b : ProviderRound) : Prop where
  audit_pos : 1 ≤ b.audit
  audit_le : b.audit ≤ ctx.auditRounds
  round_le : b.round ≤ ctx.maxRound
  initial : b.round = 0 → b.audit = 1 ∧ ctx.policy.reviewStartsWith = .reviewer

section Bounds

variable {ctx : Context} {env : Environment} {s : Session} {b : ProviderRound}

theorem seedsFirstRound (hinv : Inv ctx env s) : SeedsFirstRound s := by
  intro a hc
  have hgood := hinv.good
  rw [hc] at hgood
  exact hgood.2.round

theorem round_pos_of_ready {a r : Nat} {before : Option (List ExecutorRoundArtifact)} {act : AuditRoundProgress}
    {due : Bool} (h : RoundReady ctx a before act r due) : 1 ≤ r := by
  cases h with
  | first => exact le_refl 1
  | next => exact Nat.le_add_left 1 _
  | due hdue => exact hdue.group.round_pos

theorem ok_of_inv (hinv : Inv ctx env s) (h : providerRound? ctx env s = some b) : b.Ok ctx := by
  have hmax := maxRound_ge_two ctx
  have hgood := hinv.good
  obtain ⟨a, hc, hdue, rfl⟩ | ⟨a, invoked, hc, rfl⟩ | ⟨a, r, due, hc, hlater, hle, rfl⟩ | ⟨a, r, fingerprint, hc, rfl⟩ :=
    providerRound?_cases h
  · rw [hc] at hgood
    exact ⟨hgood.2.audit_pos, hgood.2.audit_le, Nat.zero_le _, fun _ => ⟨hdue.2.1, hdue.1⟩⟩
  · rw [hc] at hgood
    exact ⟨hgood.2.audit_pos, hgood.2.audit_le, by simp only; omega, by simp⟩
  · rw [hc] at hgood
    obtain ⟨-, hin, act, -, hready⟩ := hgood
    have hpos := round_pos_of_ready hready
    exact ⟨hin.audit_pos, hin.audit_le, hle, fun hzero => by simp only at hzero; omega⟩
  · rw [hc] at hgood
    obtain ⟨-, hin, act, -, hdue, -⟩ := hgood
    have hpos := hdue.group.round_pos
    exact ⟨hin.audit_pos, hin.audit_le, hdue.group.round_le, fun hzero => by simp only at hzero; omega⟩

end Bounds

/-! ## Whole runs -/

section Runs

variable {ctx : Context} {env : Environment} {p : ReviewLoopProgress}

theorem providerRounds_succ (n : Nat) : providerRounds ctx env p (n + 1) =
    providerRounds ctx env p n ++ (providerRound? ctx env (runSteps ctx env p n)).toList := by
  unfold providerRounds
  rw [List.range_succ, List.filterMap_append]
  cases hround : providerRound? ctx env (runSteps ctx env p n) with
  | none => simp [hround]
  | some b => simp [hround]

theorem providerRounds_behind (hstart : Startable ctx p) (n : Nat) :
    ∀ b ∈ providerRounds ctx env p n, b.Ok ctx ∧ Behind b (runSteps ctx env p n).control := by
  induction n with
  | zero => simp [providerRounds]
  | succ n ih =>
    have hinv : Inv ctx env (runSteps ctx env p n) := inv_runSteps hstart n
    have hnext := next_step ctx env (runSteps ctx env p n)
    intro b hb
    rw [runSteps_succ]
    rw [providerRounds_succ, List.mem_append, Option.mem_toList] at hb
    rcases hb with hb | hb
    · exact ⟨(ih b hb).1, behind_next (seedsFirstRound hinv) hnext (ih b hb).2⟩
    · exact ⟨ok_of_inv hinv hb, behind_own (seedsFirstRound hinv) hb hnext⟩

/-- The provider rounds of a run come in strictly increasing order. -/
theorem providerRounds_increase (hstart : Startable ctx p) (n : Nat) :
    (providerRounds ctx env p n).Pairwise ProviderRound.Before := by
  induction n with
  | zero => simp [providerRounds]
  | succ n ih =>
    rw [providerRounds_succ, List.pairwise_append]
    refine ⟨ih, ?_, ?_⟩
    · cases providerRound? ctx env (runSteps ctx env p n) <;> simp
    · intro b hb c hc
      exact before_of_behind (Option.mem_toList.mp hc) (providerRounds_behind hstart n b hb).2

/-- Two rounds of a run name different triples. -/
theorem triples_disjoint (hnode : NodeOk ctx.node) {b c : ProviderRound} (h : b.Before c) :
    List.Disjoint (b.triples ctx) (c.triples ctx) := by
  intro triple hb hc
  obtain ⟨task, htask, rfl⟩ := List.mem_map.mp hb
  obtain ⟨task', htask', heq⟩ := List.mem_map.mp hc
  simp only [Prod.mk.injEq] at heq
  obtain ⟨rfl, haudit, hround⟩ := heq
  obtain ⟨q, hq, hqtask⟩ := List.mem_map.mp htask
  obtain ⟨q', hq', hqtask'⟩ := List.mem_map.mp htask'
  simp only [List.mem_filter, decide_eq_true_eq] at hq hq'
  have hsame : q = q' := provider_eq_of_taskId hnode hq.1 hq'.1 (hqtask.trans hqtask'.symm)
  have hroles : b.role = c.role := by rw [← hq.2, ← hq'.2, hsame]
  simp only [ProviderRound.Before] at h
  rcases h with h | ⟨-, h | ⟨-, hexecutor, hreviewer⟩⟩
  · omega
  · omega
  · rw [hexecutor, hreviewer] at hroles
    cases hroles

theorem nodup_tasks (hnode : NodeOk ctx.node) (b : ProviderRound) : (b.tasks ctx).Nodup :=
  hnode.tasks.sublist (List.filter_sublist.map _)

theorem nodup_triples (hnode : NodeOk ctx.node) (b : ProviderRound) : (b.triples ctx).Nodup :=
  (nodup_tasks hnode b).map fun _ _ h => (Prod.mk.injEq _ _ _ _ ▸ h).1

theorem nodup_roundTriples (hnode : NodeOk ctx.node) {rounds : List ProviderRound}
    (h : rounds.Pairwise ProviderRound.Before) : (rounds.flatMap (·.triples ctx)).Nodup := by
  rw [List.nodup_flatMap]
  exact ⟨fun b _ => nodup_triples hnode b, h.imp fun hbefore => triples_disjoint hnode hbefore⟩

/-- A file names its triple. -/
theorem nodup_roundFiles (hnode : NodeOk ctx.node) {rounds : List ProviderRound}
    (h : rounds.Pairwise ProviderRound.Before) (hok : ∀ b ∈ rounds, b.Ok ctx) :
    (rounds.flatMap (·.files ctx)).Nodup := by
  have hfiles : rounds.flatMap (·.files ctx) =
      (rounds.flatMap (·.triples ctx)).map fun triple => outputPath ctx triple.2.1 triple.1 triple.2.2 := by
    rw [List.map_flatMap]
    refine List.flatMap_congr fun b _ => ?_
    simp [ProviderRound.files, ProviderRound.triples]
  have hbounds : ∀ triple ∈ rounds.flatMap (·.triples ctx), 1 ≤ triple.2.1 ∧ triple.2.1 ≤ ctx.auditRounds := by
    intro triple htriple
    obtain ⟨b, hb, hmem⟩ := List.mem_flatMap.mp htriple
    obtain ⟨task, -, rfl⟩ := List.mem_map.mp hmem
    exact ⟨(hok b hb).audit_pos, (hok b hb).audit_le⟩
  rw [hfiles]
  refine (nodup_roundTriples hnode h).map_on fun x hx y hy hxy => ?_
  obtain ⟨haudit, htask, hround⟩ := outputPath_inj (hbounds x hx) (hbounds y hy) hxy
  exact Prod.ext htask (Prod.ext haudit hround)

/-- The cursor of one batch is before that of the other. -/
def CursorBefore (b c : ProviderRound) : Prop := b.audit < c.audit ∨ b.audit = c.audit ∧ b.round < c.round

theorem reviewBatches_increase (hstart : Startable ctx p) (n : Nat) :
    (reviewBatches ctx env p n).Pairwise CursorBefore := by
  have hincrease : (providerRounds ctx env p n).Pairwise ProviderRound.Before := providerRounds_increase hstart n
  refine (hincrease.filter _).imp_of_mem fun {b c} hb hc hbefore => ?_
  have hrole : b.role = .reviewer := by simpa using (List.mem_filter.mp hb).2
  rcases hbefore with h | ⟨haudit, h | ⟨-, hexecutor, -⟩⟩
  · exact .inl h
  · exact .inr ⟨haudit, h⟩
  · rw [hrole] at hexecutor
    cases hexecutor

/-- The cursors of review batches: one for each audit and round, and round 0 where reviewers start the loop. -/
def reviewCursors (ctx : Context) : Finset (Nat × Nat) :=
  Finset.Icc 1 ctx.auditRounds ×ˢ Finset.Icc 1 ctx.maxRound ∪
    if ctx.policy.reviewStartsWith = .reviewer then {(1, 0)} else ∅

theorem card_reviewCursors (ctx : Context) : (reviewCursors ctx).card ≤
    ctx.auditRounds * ctx.maxRound + if ctx.policy.reviewStartsWith = .reviewer then 1 else 0 := by
  refine (Finset.card_union_le _ _).trans ?_
  rw [Finset.card_product, Nat.card_Icc, Nat.card_Icc, Nat.add_sub_cancel, Nat.add_sub_cancel]
  by_cases hfirst : ctx.policy.reviewStartsWith = .reviewer
  · simp [hfirst]
  · simp [hfirst]

theorem length_reviewBatches (hstart : Startable ctx p) (n : Nat) :
    (reviewBatches ctx env p n).length ≤
      ctx.auditRounds * ctx.maxRound + if ctx.policy.reviewStartsWith = .reviewer then 1 else 0 := by
  have hnodup : ((reviewBatches ctx env p n).map fun b => (b.audit, b.round)).Nodup := by
    rw [List.Nodup, List.pairwise_map]
    refine (reviewBatches_increase hstart n).imp fun {b c} hbefore heq => ?_
    simp only [Prod.mk.injEq] at heq
    simp only [CursorBefore] at hbefore
    omega
  have hsubset : ((reviewBatches ctx env p n).map fun b => (b.audit, b.round)).toFinset ⊆ reviewCursors ctx := by
    intro cursor hcursor
    obtain ⟨b, hb, rfl⟩ := List.mem_map.mp (List.mem_toFinset.mp hcursor)
    have hok := (providerRounds_behind hstart n b (List.mem_of_mem_filter hb)).1
    by_cases hzero : b.round = 0
    · obtain ⟨haudit, hfirst⟩ := hok.initial hzero
      simp [reviewCursors, hzero, haudit, hfirst]
    · have hround : 1 ≤ b.round := by omega
      simp [reviewCursors, hok.audit_pos, hok.audit_le, hok.round_le, hround]
  have hlength := List.toFinset_card_of_nodup hnodup
  rw [List.length_map] at hlength
  rw [← hlength]
  exact (Finset.card_le_card hsubset).trans (card_reviewCursors ctx)

/-- **The cursor moves forward.** In every run of a stage the review batches have strictly increasing cursors, there are
at most `audit_rounds * (depth + 1)` of them and the initial one where reviewers start the loop, no triple is invoked
twice and no file is written twice. -/
theorem review_cursor_progress (hnode : NodeOk ctx.node) (hstart : Started ctx p) (env : Environment) (n : Nat) :
    (reviewBatches ctx env p n).Pairwise CursorBefore ∧
    (reviewBatches ctx env p n).length ≤ ctx.auditRounds * (remediationDepthOrDefault ctx.policy.depth + 1) +
      (if ctx.policy.reviewStartsWith = .reviewer then 1 else 0) ∧
    (invokedTriples ctx env p n).Nodup ∧ (writtenFiles ctx env p n).Nodup := by
  have hstartable := startable_of_started hnode hstart
  have hincrease : (providerRounds ctx env p n).Pairwise ProviderRound.Before := providerRounds_increase hstartable n
  have hok : ∀ b ∈ providerRounds ctx env p n, b.Ok ctx := fun b hb => (providerRounds_behind hstartable n b hb).1
  exact ⟨reviewBatches_increase hstartable n, length_reviewBatches hstartable n,
    nodup_roundTriples hnode (hincrease.filter _), nodup_roundFiles hnode hincrease hok⟩

end Runs

/-! ## Reviewers that start the loop -/

def reviewerFirstContext : Context :=
  { sampleContext with
    node := { sampleNode with executionPolicy := ⟨some 1, some 1, true, none, .reviewer⟩ } }

/-- Every executor answers with a new candidate, no reviewer approves. -/
def remediatingEnvironment : Environment :=
  { sampleEnvironment 9 with
    executors := fun _ r => .ok fun _ => ⟨some sampleSignature, ⟨.document, some (Nat.repr r), none, none⟩, 0⟩ }

theorem review_cursor_progress_first :
    (reviewBatches reviewerFirstContext remediatingEnvironment {} 10).Pairwise CursorBefore ∧
    (reviewBatches reviewerFirstContext remediatingEnvironment {} 10).length ≤
      reviewerFirstContext.auditRounds * (remediationDepthOrDefault reviewerFirstContext.policy.depth + 1) +
        (if reviewerFirstContext.policy.reviewStartsWith = .reviewer then 1 else 0) ∧
    (invokedTriples reviewerFirstContext remediatingEnvironment {} 10).Nodup ∧
    (writtenFiles reviewerFirstContext remediatingEnvironment {} 10).Nodup :=
  review_cursor_progress ⟨rfl, rfl, sampleNode_ok.executor, sampleNode_ok.reviewer, sampleNode_ok.tasks, rfl⟩ .fresh
    remediatingEnvironment 10

/-- With reviewers first, one audit and one remediation there are three review batches. -/
theorem initial_batch_uncounted :
    ¬ ∀ (ctx : Context) (p : ReviewLoopProgress) (env : Environment) (n : Nat), NodeOk ctx.node → Started ctx p →
      (reviewBatches ctx env p n).length ≤ ctx.auditRounds * (remediationDepthOrDefault ctx.policy.depth + 1) := by
  intro h
  have hnode : NodeOk reviewerFirstContext.node :=
    ⟨rfl, rfl, sampleNode_ok.executor, sampleNode_ok.reviewer, sampleNode_ok.tasks, rfl⟩
  have hbound := h reviewerFirstContext {} remediatingEnvironment 10 hnode .fresh
  revert hbound
  decide +kernel

end Crewplane.Review
