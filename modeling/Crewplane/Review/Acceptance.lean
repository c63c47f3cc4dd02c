import Crewplane.Review.Stored
/-
# The validators accept what the writer writes

Validator by validator, over a checkpoint prepared at a boundary: first the ones
that only read the stored progress and the cursor (review_checkpoint_progress.py),
then the ones that cross-reference the files (review_checkpoint.py).
-/
namespace Crewplane.Review

open Crewplane.Lib Crewplane.Plan

/-- The part of the checkpoint that comes straight from the loop. -/
structure Taken (ctx : Context) (p : ReviewLoopProgress) (phase : CheckpointPhase) (r : Nat)
    (cp : OpenReviewCheckpoint) : Prop where
  node : cp.nodeId = ctx.node.id
  expansion : cp.expansion = ctx.node.expansion
  tasks : cp.tasks = nodeTasks ctx.node
  audit : cp.audit = p.cursorAudit
  round : cp.localRound = r
  phase : cp.nextPhase = phase
  progress : cp.progress = storedProgress p

section Progress

variable {ctx : Context} {p : ReviewLoopProgress} {phase : CheckpointPhase} {r : Nat} {cp : OpenReviewCheckpoint}

theorem Taken.coordinates (ht : Taken ctx p phase r cp) : cp.coordinates = (p.cursorAudit, r) := by
  rw [OpenReviewCheckpoint.coordinates, ht.audit, ht.round]

theorem Taken.executorTasks (ht : Taken ctx p phase r cp) :
    tasksOf cp .executor = ctx.executors.map (·.taskId) := by
  simp [tasksOf, ht.tasks, nodeTasks, Context.executors, List.filter_map, Function.comp_def]

theorem Taken.reviewerTasks (ht : Taken ctx p phase r cp) :
    tasksOf cp .reviewer = ctx.reviewers.map (·.taskId) := by
  simp [tasksOf, ht.tasks, nodeTasks, Context.reviewers, List.filter_map, Function.comp_def]

/-- The stored coordinates of a group's outputs are those of the group. -/
theorem Group.stored_coordinates {a q : Nat} {cs : List ExecutorRoundArtifact} (hg : Group ctx a q cs)
    {c : ExecutorRoundArtifact} (hc : c ∈ cs) : (storedCandidate c).audit = a ∧ (storedCandidate c).localRound = q := by
  have hout := hg.outputs c hc
  refine ⟨?_, hout.round⟩
  change c.auditRoundNum.getD 1 = a
  rw [hout.audit, auditRoundContext_getD hg.audit_pos hg.audit_le]

theorem Batch.stored_coordinates {a q : Nat} {reviews : List ReviewerRoundArtifact}
    {failures : List CheckpointReviewerFailure} (hb : Batch ctx a q reviews failures)
    (ha : 1 ≤ a ∧ a ≤ ctx.auditRounds) {v : ReviewerRoundArtifact} (hv : v ∈ reviews) :
    (encodeReview v).audit = a ∧ (encodeReview v).localRound = q := by
  obtain ⟨-, -, -, hnum, hround, -⟩ := hb.review hv
  refine ⟨?_, hround⟩
  change v.auditRoundNum.getD 1 = a
  rw [hnum, auditRoundContext_getD ha.1 ha.2]

/-! ## Candidate groups -/

theorem dedup_length_of_const {α : Type} [DecidableEq α] {xs : List α} {x : α} (hne : xs ≠ []) (h : ∀ y ∈ xs, y = x) :
    xs.dedup.length = 1 := by
  have hlen : xs.length ≠ 0 := by simpa using hne
  rw [List.eq_replicate_of_mem h, List.replicate_dedup hlen]
  rfl

theorem validateExecutorGroup_stored (hnode : NodeOk ctx.node) {a q : Nat} {cs : List ExecutorRoundArtifact}
    (hg : Group ctx a q cs) :
    validateExecutorGroup (cs.map storedCandidate) (ctx.executors.map (·.taskId)) = .ok () := by
  unfold validateExecutorGroup
  rw [require_eq_ok]
  refine ⟨?_, ?_⟩
  · rw [← hg.taskIds, List.map_map]
    rfl
  · apply dedup_length_of_const (x := (a, q))
    · simpa using hg.ne_nil hnode
    · intro y hy
      simp only [List.map_map, List.mem_map, Function.comp_apply] at hy
      obtain ⟨c, hc, rfl⟩ := hy
      obtain ⟨h1, h2⟩ := hg.stored_coordinates hc
      exact Prod.ext h1 h2

/-- Candidates seen so far, under their own paths. -/
def SeenFrom (all : List CheckpointCandidate) (seen : Dict RelPath CheckpointCandidate) : Prop :=
  ∀ k d, seen.get? k = some d → d ∈ all ∧ d.outputPath = k

theorem validateCandidateIdentity_ok {all : List CheckpointCandidate}
    (hone : ∀ c ∈ all, ∀ d ∈ all, c.outputPath = d.outputPath → c = d)
    (hprod : ∀ c ∈ all, (c.producerAudit, c.producerRound) = c.coordinates ∨
      (c.producerAudit < c.audit ∧ c.localRound = 1)) {cs : List CheckpointCandidate} (hcs : ∀ c ∈ cs, c ∈ all)
    {seen : Dict RelPath CheckpointCandidate} (hseen : SeenFrom all seen) :
    ∃ seen', cs.foldlM validateCandidateIdentity seen = .ok seen' ∧ SeenFrom all seen' := by
  induction cs generalizing seen with
  | nil => exact ⟨seen, rfl, hseen⟩
  | cons c cs ih =>
    have hc := hcs c List.mem_cons_self
    have hstep : validateCandidateIdentity seen c = .ok (seen.setItem c.outputPath c) := by
      unfold validateCandidateIdentity
      rw [check_then_eq_ok, require_eq_ok, check_then_eq_ok, require_eq_ok]
      refine ⟨?_, hprod c hc, rfl⟩
      intro d hd
      obtain ⟨hmem, hpath⟩ := hseen _ d hd
      exact hone d hmem c hc hpath
    have hseen' : SeenFrom all (seen.setItem c.outputPath c) := by
      intro k d hd
      rw [Dict.get?_setItem] at hd
      split at hd
      · rename_i hk
        obtain rfl := Option.some.inj hd
        exact ⟨hc, hk⟩
      · exact hseen k d hd
    obtain ⟨seen', hfold, hok⟩ := ih (fun d hd => hcs d (List.mem_cons_of_mem _ hd)) hseen'
    refine ⟨seen', ?_, hok⟩
    rw [List.foldlM_cons, hstep]
    exact hfold

theorem mem_candidateGroups {cp : OpenReviewCheckpoint} {group : List CheckpointCandidate}
    (h : some group ∈ candidateGroups cp) : ∀ c ∈ group, c ∈ cp.progress.candidates := by
  intro c hc
  unfold candidateGroups at h
  unfold CheckpointProgress.candidates
  cases hact : cp.progress.activeAudit with
  | none =>
    simp only [hact, List.mem_cons, List.not_mem_nil, or_false] at h
    simp [← h, hc]
  | some act =>
    simp only [hact, List.mem_cons, Option.some.injEq, List.not_mem_nil, or_false] at h
    rcases h with h | h | h | h <;> simp [← h, hc]

theorem validateGroups_ok {all : List CheckpointCandidate}
    (hone : ∀ c ∈ all, ∀ d ∈ all, c.outputPath = d.outputPath → c = d)
    (hprod : ∀ c ∈ all, (c.producerAudit, c.producerRound) = c.coordinates ∨
      (c.producerAudit < c.audit ∧ c.localRound = 1)) {groups : List (Option (List CheckpointCandidate))}
    (hgroups : ∀ group, some group ∈ groups → (∀ c ∈ group, c ∈ all) ∧
      validateExecutorGroup group (tasksOf cp .executor) = .ok ())
    {seen : Dict RelPath CheckpointCandidate} (hseen : SeenFrom all seen) :
    ∃ seen', groups.foldlM (validateGroup cp) seen = .ok seen' := by
  induction groups generalizing seen with
  | nil => exact ⟨seen, rfl⟩
  | cons group groups ih =>
    have hrest : ∀ g, some g ∈ groups → (∀ c ∈ g, c ∈ all) ∧
        validateExecutorGroup g (tasksOf cp .executor) = .ok () := fun g hg => hgroups g (List.mem_cons_of_mem _ hg)
    cases group with
    | none => exact ih hrest hseen
    | some cs =>
      obtain ⟨hmem, hgroup⟩ := hgroups cs List.mem_cons_self
      obtain ⟨seen', hfold, hseen'⟩ := validateCandidateIdentity_ok hone hprod hmem hseen
      obtain ⟨seen'', hall⟩ := ih hrest hseen'
      refine ⟨seen'', ?_⟩
      rw [List.foldlM_cons, do_eq_ok]
      refine ⟨seen', ?_, hall⟩
      unfold validateGroup
      rw [check_then_eq_ok]
      exact ⟨hgroup, hfold⟩

/-- Every group a boundary carries is one whole executor round. -/
theorem Boundary.group_of_mem (hb : Boundary ctx p phase r) :
    (∀ cs, p.latestExecutorOutputs = some cs → ∃ a q, Group ctx a q cs) ∧
    ∀ act, p.activeAudit = some act → (∃ a q, Group ctx a q act.executorOutputs) ∧
      (∀ cs, act.previousExecutorOutputs = some cs → ∃ a q, Group ctx a q cs) ∧
      ∀ cs, act.latestValidExecutorOutputs = some cs → ∃ a q, Group ctx a q cs := by
  have hlatest : ∀ top, Recorded ctx top p → ∀ cs, p.latestExecutorOutputs = some cs → ∃ a q, Group ctx a q cs := by
    intro top hrec cs hcs
    rcases hrec.selection with ⟨hnone, -⟩ | ⟨a, q, -, ds, hds, hg, -⟩
    · simp [hnone] at hcs
    · obtain rfl := Option.some.inj (hcs.symm.trans hds)
      exact ⟨a, q, hg⟩
  cases hb with
  | opening hin hidle _ => exact ⟨hlatest _ hin.recorded, by simp [hidle]⟩
  | finish hfin => exact ⟨hlatest _ hfin.recorded, by simp [hfin.idle]⟩
  | remediation hin hact hadv _ =>
    refine ⟨hlatest _ hin.recorded, ?_⟩
    intro act' hact'
    obtain rfl := Option.some.inj (hact.symm.trans hact')
    obtain ⟨q, cs, -, hh, hexec⟩ := hadv.state
    have hg := hh.group
    exact ⟨⟨_, q, hexec ▸ hg⟩, by simpa [hh.previous] using ⟨_, q, hg⟩, by simpa [hh.latest] using ⟨_, q, hg⟩⟩
  | review hin hact hdue =>
    refine ⟨hlatest _ hin.recorded, ?_⟩
    intro act' hact'
    obtain rfl := Option.some.inj (hact.symm.trans hact')
    refine ⟨⟨_, _, hdue.group⟩, ?_⟩
    rcases hdue.state with ⟨-, hlv, hblank⟩ | ⟨q, cs, -, hh⟩
    · exact ⟨by simp [hblank.previous], by simpa [hlv] using ⟨_, _, hdue.group⟩⟩
    · have hg := hh.group
      exact ⟨by simpa [hh.previous] using ⟨_, q, hg⟩, by simpa [hh.latest] using ⟨_, q, hg⟩⟩

theorem validateCandidateGroups_ok (hnode : NodeOk ctx.node) (hb : Boundary ctx p phase r)
    (ht : Taken ctx p phase r cp) : validateCandidateGroups cp = .ok () := by
  have hco := hb.coherent
  have hall : cp.progress.candidates = p.candidates.map storedCandidate := by
    rw [ht.progress, storedProgress_candidates]
  have hone : ∀ c ∈ cp.progress.candidates, ∀ d ∈ cp.progress.candidates, c.outputPath = d.outputPath → c = d := by
    rw [hall]
    intro c' hc' d' hd' hpath
    obtain ⟨c, hc, rfl⟩ := List.mem_map.mp hc'
    obtain ⟨d, hd, rfl⟩ := List.mem_map.mp hd'
    rw [hco.candidate_eq hnode hc hd hpath]
  have hprod : ∀ c ∈ cp.progress.candidates, (c.producerAudit, c.producerRound) = c.coordinates ∨
      (c.producerAudit < c.audit ∧ c.localRound = 1) := by
    rw [hall]
    intro c' hc'
    obtain ⟨c, hc, rfl⟩ := List.mem_map.mp hc'
    obtain ⟨a, q, hca, hg, -, -⟩ := hco.candidates c hc
    obtain ⟨haudit, hround⟩ := hg.stored_coordinates hca
    rw [CheckpointInvocation.coordinates, haudit, hround]
    rcases (hg.outputs c hca).producer with ⟨h1, h2⟩ | ⟨-, h2, -, -, h5⟩
    · exact Or.inl (Prod.ext h1 h2)
    · exact Or.inr ⟨h2, h5⟩
  have hgroups : ∀ group, some group ∈ candidateGroups cp → (∀ c ∈ group, c ∈ cp.progress.candidates) ∧
      validateExecutorGroup group (tasksOf cp .executor) = .ok () := by
    intro group hgroup
    refine ⟨mem_candidateGroups hgroup, ?_⟩
    obtain ⟨hlatest, hactive⟩ := hb.group_of_mem
    have hstored : ∃ cs a q, Group ctx a q cs ∧ group = cs.map storedCandidate := by
      unfold candidateGroups at hgroup
      rw [ht.progress] at hgroup
      rcases List.mem_cons.mp hgroup with hgroup | hgroup
      · obtain ⟨cs, hcs, rfl⟩ := Option.map_eq_some_iff.mp hgroup.symm
        obtain ⟨a, q, hg⟩ := hlatest cs hcs
        exact ⟨cs, a, q, hg, rfl⟩
      · cases hact : p.activeAudit with
        | none => simp [storedProgress, hact] at hgroup
        | some act =>
          obtain ⟨⟨a, q, hg⟩, hprev, hlv⟩ := hactive act hact
          simp only [storedProgress, hact, Option.map_some, storedAudit, List.mem_cons, Option.some.injEq,
            List.not_mem_nil, or_false] at hgroup
          rcases hgroup with rfl | hgroup | hgroup
          · exact ⟨_, a, q, hg, rfl⟩
          · obtain ⟨cs, hcs, rfl⟩ := Option.map_eq_some_iff.mp hgroup.symm
            obtain ⟨a, q, hg⟩ := hprev cs hcs
            exact ⟨cs, a, q, hg, rfl⟩
          · obtain ⟨cs, hcs, rfl⟩ := Option.map_eq_some_iff.mp hgroup.symm
            obtain ⟨a, q, hg⟩ := hlv cs hcs
            exact ⟨cs, a, q, hg, rfl⟩
    obtain ⟨cs, a, q, hg, rfl⟩ := hstored
    rw [ht.executorTasks]
    exact validateExecutorGroup_stored hnode hg
  unfold validateCandidateGroups
  have hempty : SeenFrom cp.progress.candidates ([] : Dict RelPath CheckpointCandidate) := by simp [SeenFrom]
  obtain ⟨seen, hseen⟩ := validateGroups_ok hone hprod hgroups hempty
  rw [do_eq_ok]
  exact ⟨seen, hseen, rfl⟩

/-! ## The cursor -/

/-- What every boundary says of the loop's own records. -/
theorem Boundary.recorded (hb : Boundary ctx p phase r) :
    Recorded ctx (p.cursorAudit, r) p ∧ p.executedAuditRounds = p.cursorAudit ∧ 1 ≤ p.cursorAudit ∧
      p.cursorAudit ≤ ctx.auditRounds ∧ r ≤ ctx.maxRound := by
  have hmax := maxRound_ge_two ctx
  cases hb with
  | opening hin _ _ =>
    exact ⟨hin.recorded.mono (by simp), hin.executed, hin.audit_pos, hin.audit_le, by omega⟩
  | remediation hin _ _ hlt => exact ⟨hin.recorded.mono (by simp), hin.executed, hin.audit_pos, hin.audit_le, hlt⟩
  | review hin _ hdue =>
    exact ⟨hin.recorded.mono (by simp), hin.executed, hin.audit_pos, hin.audit_le, hdue.group.round_le⟩
  | finish hfin =>
    have hcursor := hfin.cursor
    have hpos := hfin.audit_pos
    have hle := hfin.audit_le
    refine ⟨?_, hcursor.symm, by omega, by omega, hfin.recorded.lastRound⟩
    rw [hcursor]
    exact hfin.recorded

theorem Recorded.selected_le {top : Nat × Nat} (h : Recorded ctx top p) : p.selectedRoundNum ≤ ctx.maxRound := by
  rcases h.selection with ⟨-, -, -, hzero⟩ | ⟨a, q, -, cs, -, hg, -, hsel, -⟩
  · omega
  · rw [hsel]
    exact hg.round_le

theorem Boundary.active_rounds (hb : Boundary ctx p phase r) {act : AuditRoundProgress}
    (hact : p.activeAudit = some act) : act.selectedRoundNum ≤ ctx.maxRound ∧ act.lastRoundNum ≤ ctx.maxRound := by
  cases hb with
  | opening _ hidle _ => simp [hidle] at hact
  | finish hfin => simp [hfin.idle] at hact
  | remediation _ hact' hadv _ =>
    obtain rfl := Option.some.inj (hact.symm.trans hact')
    obtain ⟨q, cs, -, hh, -⟩ := hadv.state
    rw [hh.selected, hadv.lastRound]
    exact ⟨hh.group.round_le, hadv.round_le⟩
  | review _ hact' hdue =>
    obtain rfl := Option.some.inj (hact.symm.trans hact')
    rw [hdue.lastRound]
    refine ⟨?_, hdue.group.round_le⟩
    rcases hdue.state with ⟨-, -, hblank⟩ | ⟨q, cs, -, hh⟩
    · rw [hblank.selected]
      exact Nat.zero_le _
    · rw [hh.selected]
      exact hh.group.round_le

theorem unresolvedFingerprints_stored (reviews : List ReviewerRoundArtifact) :
    unresolvedFingerprints (reviews.map encodeReview) = collectUnresolvedFingerprints reviews := by
  unfold unresolvedFingerprints collectUnresolvedFingerprints
  rw [List.flatMap_map]
  rfl

theorem validateExecutorCursor_ok (hnode : NodeOk ctx.node) (hb : Boundary ctx p .executors r)
    (ht : Taken ctx p .executors r cp) : validateExecutorCursor cp = .ok () := by
  unfold validateExecutorCursor
  rw [ht.round, ht.progress, ht.audit]
  generalize hphase : CheckpointPhase.executors = phase at hb
  cases hb with
  | review => cases hphase
  | finish => cases hphase
  | opening _ hidle _ => simp [storedProgress, hidle]
  | @remediation act r hin hact hadv hlt =>
    obtain ⟨q, cs, hqr, hh, hexec⟩ := hadv.state
    have hq := hh.group.round_pos
    have hlast := hadv.lastRound
    rw [if_neg (by omega)]
    simp only [storedProgress, hact, Option.map_some, require_eq_ok]
    have hsel := hh.selected
    refine ⟨by simpa [storedAudit, AuditRoundProgress.counters] using hlast,
      by simpa [storedAudit, AuditRoundProgress.counters, hsel] using hq,
      by simpa [storedAudit, AuditRoundProgress.counters, hsel] using Nat.lt_succ_of_le hqr,
      by simpa [storedAudit, hh.previous] using hh.group.ne_nil hnode,
      by simp [storedAudit, hh.previous, hh.latest], by simp [storedAudit, hexec, hh.latest], ?_, ?_⟩
    · intro c hc
      simp only [storedAudit, hh.previous, Option.map_some, Option.getD_some, List.mem_map] at hc
      obtain ⟨d, hd, rfl⟩ := hc
      exact (hh.group.stored_coordinates hd).1
    · simp only [storedAudit, unresolvedFingerprints_stored]
      exact hh.fingerprints

theorem validateProgressCursor_ok (hnode : NodeOk ctx.node) (hb : Boundary ctx p phase r)
    (ht : Taken ctx p phase r cp) : validateProgressCursor cp ctx.node = .ok () := by
  obtain ⟨hrec, hexecuted, hpos, hle, hround⟩ := hb.recorded
  unfold validateProgressCursor
  rw [check_then_eq_ok, require_eq_ok]
  refine ⟨by rw [ht.progress, ht.audit]; exact hexecuted, ?_⟩
  have hcounters : ∀ counters ∈ cp.progress.toCheckpointCounters ::
      (cp.progress.activeAudit.map (·.toCheckpointCounters)).toList,
      max counters.selectedRoundNum counters.lastRoundNum ≤ ctx.maxRound := by
    rw [ht.progress]
    intro counters hmem
    rcases List.mem_cons.mp hmem with rfl | hmem
    · exact Nat.max_le.mpr ⟨hrec.selected_le, hrec.lastRound⟩
    · cases hact : p.activeAudit with
      | none => simp [storedProgress, hact] at hmem
      | some act =>
        obtain rfl : counters = act.counters := by simpa [storedProgress, hact, storedAudit] using hmem
        exact Nat.max_le.mpr (hb.active_rounds hact)
  have hreviewers : cp.nextPhase = .reviewers → ∀ active ∈ cp.progress.activeAudit, ∀ c ∈ active.executorOutputs,
      c.coordinates = cp.coordinates := by
    intro hphase active hactive c hc
    rw [ht.phase] at hphase
    subst hphase
    rw [ht.coordinates]
    cases hb with
    | review _ hact hdue =>
      obtain rfl : storedAudit _ = active := by simpa [ht.progress, storedProgress, hact] using hactive
      simp only [storedAudit, List.mem_map] at hc
      obtain ⟨d, hd, rfl⟩ := hc
      obtain ⟨h1, h2⟩ := hdue.group.stored_coordinates hd
      exact Prod.ext h1 h2
  split
  · rename_i hphase
    rw [ht.phase] at hphase
    subst hphase
    rw [check_then_eq_ok, check_then_eq_ok, checkAll_eq_ok, require_eq_ok]
    exact ⟨validateExecutorCursor_ok hnode hb ht, fun x hx => (require_eq_ok _ _).mpr (hcounters x hx), hreviewers⟩
  · rw [check_then_eq_ok, checkAll_eq_ok, require_eq_ok]
    exact ⟨fun x hx => (require_eq_ok _ _).mpr (hcounters x hx), hreviewers⟩

/-! ## Review batches -/

theorem validateBatch_stored (hnode : NodeOk ctx.node) (ht : Taken ctx p phase r cp) {a q : Nat}
    {reviews : List ReviewerRoundArtifact} {failures : List CheckpointReviewerFailure}
    (hbatch : Batch ctx a q reviews failures) (ha : 1 ≤ a ∧ a ≤ ctx.auditRounds) :
    validateBatch cp (reviews.map encodeReview) failures (a, q) = .ok () := by
  have htasks : (reviews.map encodeReview).map (·.taskId) = reviews.map (·.taskId) := by
    rw [List.map_map]
    rfl
  unfold validateBatch
  rw [ht.reviewerTasks]
  simp only
  rw [check_then_eq_ok, require_eq_ok, require_eq_ok, htasks]
  refine ⟨⟨?_, ?_⟩, hbatch.order hnode⟩
  · have hperm := hbatch.perm
    rw [← htasks] at hperm
    simpa [List.map_append, List.map_map, Function.comp_def] using hperm
  · intro i hi
    rcases List.mem_append.mp hi with hi | hi
    · obtain ⟨v', hv', rfl⟩ := List.mem_map.mp hi
      obtain ⟨v, hv, rfl⟩ := List.mem_map.mp hv'
      obtain ⟨h1, h2⟩ := hbatch.stored_coordinates ha hv
      exact ⟨Prod.ext h1 h2, rfl⟩
    · obtain ⟨f, hf, rfl⟩ := List.mem_map.mp hi
      obtain ⟨-, hrole, haudit, hround⟩ := hbatch.failure hf
      exact ⟨Prod.ext haudit hround, hrole⟩

theorem validateSelectedBatch_none (latest : Option (List CheckpointCandidate)) :
    validateSelectedBatch cp latest [] [] 0 = .ok () := by
  simp [validateSelectedBatch]

theorem validateSelectedBatch_stored (hnode : NodeOk ctx.node) (ht : Taken ctx p phase r cp) {a q : Nat}
    {cs : List ExecutorRoundArtifact} {reviews : List ReviewerRoundArtifact}
    {failures : List CheckpointReviewerFailure} (hg : Group ctx a q cs) (hbatch : Batch ctx a q reviews failures) :
    validateSelectedBatch cp (some (cs.map storedCandidate)) (reviews.map encodeReview) failures q = .ok () := by
  have hq := hg.round_pos
  unfold validateSelectedBatch
  rw [if_neg (by omega), Option.getD_some]
  cases hcs : cs with
  | nil => exact absurd hcs (hg.ne_nil hnode)
  | cons c rest =>
    have hmem : c ∈ cs := by simp [hcs]
    simp only [List.map_cons, check_then_eq_ok, require_eq_ok]
    rw [(hg.stored_coordinates hmem).1]
    refine ⟨?_, validateBatch_stored hnode ht hbatch ⟨hg.audit_pos, hg.audit_le⟩⟩
    intro d' hd'
    rw [← List.map_cons, ← hcs] at hd'
    obtain ⟨d, hd, rfl⟩ := List.mem_map.mp hd'
    exact (hg.stored_coordinates hd).2

theorem validateSelectedReviews_ok (hnode : NodeOk ctx.node) (hb : Boundary ctx p phase r)
    (ht : Taken ctx p phase r cp) : validateSelectedReviews cp = .ok () := by
  have houter : validateSelectedBatch cp cp.progress.latestExecutorOutputs cp.progress.latestReviewerOutputs
      cp.progress.reviewerFailures cp.progress.selectedRoundNum = .ok () := by
    rw [ht.progress]
    rcases hb.recorded.1.selection with ⟨hlatest, hrev, hfail, hsel⟩ | ⟨a, q, -, cs, hlatest, hg, -, hsel, hbatch⟩
    · simp only [storedProgress, ReviewLoopProgress.counters, hlatest, hrev, hfail, hsel, List.map_nil]
      exact validateSelectedBatch_none _
    · simp only [storedProgress, ReviewLoopProgress.counters, hlatest, hsel, Option.map_some]
      exact validateSelectedBatch_stored hnode ht hg hbatch
  have hactive : ∀ act, p.activeAudit = some act → validateSelectedBatch cp
      (storedAudit act).latestValidExecutorOutputs (storedAudit act).latestReviewerOutputs
      (storedAudit act).reviewerFailures (storedAudit act).selectedRoundNum = .ok () := by
    have hhanded : ∀ a q cs act, Handed ctx a q cs act → validateSelectedBatch cp
        (storedAudit act).latestValidExecutorOutputs (storedAudit act).latestReviewerOutputs
        (storedAudit act).reviewerFailures (storedAudit act).selectedRoundNum = .ok () := by
      intro a q cs act hh
      simp only [storedAudit, AuditRoundProgress.counters, hh.latest, hh.selected, Option.map_some]
      exact validateSelectedBatch_stored hnode ht hh.group hh.batch
    intro act hact
    cases hb with
    | opening _ hidle _ => simp [hidle] at hact
    | finish hfin => simp [hfin.idle] at hact
    | remediation _ hact' hadv _ =>
      obtain rfl := Option.some.inj (hact.symm.trans hact')
      obtain ⟨q, cs, -, hh, -⟩ := hadv.state
      exact hhanded _ q cs act hh
    | review _ hact' hdue =>
      obtain rfl := Option.some.inj (hact.symm.trans hact')
      rcases hdue.state with ⟨-, -, hblank⟩ | ⟨q, cs, -, hh⟩
      · simp only [storedAudit, AuditRoundProgress.counters, hblank.reviews, hblank.failures, hblank.selected,
          List.map_nil]
        exact validateSelectedBatch_none _
      · exact hhanded _ q cs act hh
  unfold validateSelectedReviews
  rw [check_then_eq_ok]
  refine ⟨houter, ?_⟩
  rw [ht.progress]
  cases hact : p.activeAudit with
  | none => simp [storedProgress, hact, pure, Except.pure]
  | some act =>
    simp only [storedProgress, hact, Option.map_some]
    exact hactive act hact

theorem validateInitialReviews_ok (hnode : NodeOk ctx.node) (hb : Boundary ctx p phase r)
    (ht : Taken ctx p phase r cp) : validateInitialReviews cp ctx.node = .ok () := by
  unfold validateInitialReviews
  rw [ht.progress]
  rcases hb.recorded.1.initial with ⟨hdone, hstarts, hbatch⟩ | ⟨hdone, hrev, hfail⟩
  · rw [if_pos (by simpa [storedProgress] using hdone), check_then_eq_ok, require_eq_ok]
    exact ⟨hstarts, validateBatch_stored hnode ht hbatch ⟨le_refl 1, auditRounds_pos ctx⟩⟩
  · simp [storedProgress, hdone, hrev, hfail]

/-! ## Policy and finalization -/

theorem Coherent.failures_allowed {top : Nat × Nat} (h : Coherent ctx p top) :
    p.failures = [] ∨ ctx.policy.continueOnFailure = true := by
  cases hf : p.failures with
  | nil => exact Or.inl rfl
  | cons f rest =>
    obtain ⟨a, q, hmem, hb⟩ := h.failures f (by simp [hf])
    rcases hb.batch.allowed with hnil | hallowed
    · simp [hnil] at hmem
    · exact Or.inr hallowed

theorem validateReviewPolicy_ok (hb : Boundary ctx p phase r) (ht : Taken ctx p phase r cp) :
    validateReviewPolicy cp ctx.node = .ok () := by
  unfold validateReviewPolicy
  rw [check_then_eq_ok, require_eq_ok, require_eq_ok, ht.progress, storedProgress_failures]
  exact ⟨hb.coherent.failures_allowed, hb.recorded.1.consensus⟩

theorem finalizationPermitted_of_permitted (ht : Taken ctx p phase r cp) (h : Permitted ctx p) :
    finalizationPermitted cp ctx.node := by
  unfold finalizationPermitted
  rw [ht.progress]
  cases h with
  | consensus hstop hcons happroved hcont hexh =>
    simp only [storedProgress, ReviewLoopProgress.counters, hstop]
    refine ⟨hcons, ?_, hcont, hexh⟩
    intro v' hv'
    obtain ⟨v, hv, rfl⟩ := List.mem_map.mp hv'
    exact happroved v hv
  | noProgress hstop hpolicy hcons hcont hexh =>
    simp only [storedProgress, ReviewLoopProgress.counters, hstop]
    exact ⟨hpolicy, hcont, hcons, hexh⟩
  | exhausted hstop hpolicy hcons hcont hexh =>
    simp only [storedProgress, ReviewLoopProgress.counters, hstop]
    exact ⟨hpolicy, hexh, hcont, hcons⟩

theorem validateCheckpointProgress_ok (hnode : NodeOk ctx.node) (hb : Boundary ctx p phase r)
    (ht : Taken ctx p phase r cp) : validateCheckpointProgress cp ctx.node = .ok () := by
  unfold validateCheckpointProgress
  rw [check_then_eq_ok, check_then_eq_ok, check_then_eq_ok, check_then_eq_ok, check_then_eq_ok]
  refine ⟨validateCandidateGroups_ok hnode hb ht, validateProgressCursor_ok hnode hb ht,
    validateSelectedReviews_ok hnode hb ht, validateInitialReviews_ok hnode hb ht, validateReviewPolicy_ok hb ht, ?_⟩
  split
  · rename_i hphase
    rw [ht.phase] at hphase
    subst hphase
    cases hb with
    | finish hfin =>
      unfold validateFinalization
      rw [check_then_eq_ok, require_eq_ok, require_eq_ok]
      refine ⟨?_, finalizationPermitted_of_permitted ht hfin.permitted⟩
      rw [ht.round, ht.progress]
      rfl
  · rfl

theorem validateNodeCursor_ok (hb : Boundary ctx p phase r) (ht : Taken ctx p phase r cp) :
    validateNodeCursor cp ctx.node = .ok () := by
  obtain ⟨-, -, -, hle, hround⟩ := hb.recorded
  unfold validateNodeCursor
  rw [check_then_eq_ok, require_eq_ok, require_eq_ok, ht.audit, ht.round, ht.phase]
  refine ⟨⟨hle, hround⟩, ?_⟩
  intro hzero
  exfalso
  cases hb with
  | opening => omega
  | remediation => omega
  | review _ _ hdue =>
    have := hdue.group.round_pos
    omega
  | finish hfin =>
    have := hfin.lastRound_pos
    omega

end Progress

/-! ## Invocations -/

/-- What `_validate_invocation_coordinates` wants of every invocation a checkpoint names. -/
structure Placed (ctx : Context) (top : Nat × Nat) (i : CheckpointInvocation) : Prop where
  audit_pos : 1 ≤ i.audit
  known : ∃ provider ∈ ctx.node.providerRecords, provider.taskId = i.taskId ∧ provider.role = i.role
  round_le : i.localRound ≤ ctx.maxRound
  top : atMost i.coordinates top
  initial : i.localRound = 0 → i.audit = 1 ∧ i.role = .reviewer ∧ ctx.policy.reviewStartsWith = .reviewer

/-- `checkpoint_invocations` (checkpoint_state.py:91). -/
def checkpointInvocations (stored : CheckpointProgress) : List CheckpointInvocation :=
  stored.candidates.map (fun c => ⟨c.taskId, c.role, c.producerAudit, c.producerRound⟩) ++
    stored.reviews.map (·.toCheckpointInvocation) ++ stored.failures.map (·.toCheckpointInvocation)

/-- What `_load_workspace_payloads` (checkpoint_state.py:222) collects: a dictionary by
destination of the states of the carried invocations and, along the bundles they start
from, of executor invocations of this node that ran no later. -/
structure EvidenceOk (ctx : Context) (ev : Evidence) : Prop where
  distinct : ∀ stored payloads, ev.workspacePayloads stored = .ok payloads → (payloads.map Prod.fst).Nodup
  digest : ∀ stored payloads, ev.workspacePayloads stored = .ok payloads → ∀ e ∈ payloads,
    e.2.signature.sha256.length = 64
  lineage : ∀ stored payloads, ev.workspacePayloads stored = .ok payloads → ∀ e ∈ payloads,
    ∃ i ∈ checkpointInvocations stored, e.2.invocation = i ∨
      (e.2.invocation.role = .executor ∧ 1 ≤ e.2.invocation.audit ∧ 1 ≤ e.2.invocation.localRound ∧
        e.2.invocation.localRound ≤ ctx.maxRound ∧ atMost e.2.invocation.coordinates i.coordinates)

section Placement

variable {ctx : Context} {p : ReviewLoopProgress} {top : Nat × Nat}

theorem placed_candidate (hco : Coherent ctx p top) {c : ExecutorRoundArtifact} (hc : c ∈ p.candidates) :
    Placed ctx top (storedCandidate c).toCheckpointInvocation ∧
    Placed ctx top ⟨c.taskId, .executor, c.producerAudit, c.producerRound⟩ ∧
    atMost (c.producerAudit, c.producerRound) (storedCandidate c).coordinates := by
  obtain ⟨a, q, hca, hg, -, htop⟩ := hco.candidates c hc
  obtain ⟨haudit, hround⟩ := hg.stored_coordinates hca
  obtain ⟨hpa, hpr, hprle, hpat⟩ := hg.producer_bounds hca
  obtain ⟨hprov, hrole⟩ := hg.provider_mem hca
  have hq := hg.round_pos
  have hqle := hg.round_le
  have hknown : ∃ provider ∈ ctx.node.providerRecords, provider.taskId = c.taskId ∧ provider.role = .executor :=
    ⟨c.provider, hprov, (hg.outputs c hca).task.symm, hrole⟩
  have hcoord : (storedCandidate c).coordinates = (a, q) := Prod.ext haudit hround
  refine ⟨⟨by rw [haudit]; exact hg.audit_pos, hknown, by rw [hround]; exact hqle, by rw [hcoord]; exact htop, ?_⟩,
    ⟨hpa, hknown, hprle, ?_, ?_⟩, ?_⟩
  · intro hzero
    omega
  · exact atMost_trans hpat htop
  · intro hzero
    simp only at hzero
    omega
  · rw [hcoord]
    exact hpat

theorem placed_review (hco : Coherent ctx p top) {v : ReviewerRoundArtifact} (hv : v ∈ p.reviews) :
    Placed ctx top (encodeReview v).toCheckpointInvocation := by
  obtain ⟨a, q, hva, hb⟩ := hco.reviews v hv
  obtain ⟨haudit, hround⟩ := hb.batch.stored_coordinates ⟨hb.audit_pos, hb.audit_le⟩ hva
  obtain ⟨hprov, htask, -⟩ := hb.batch.review hva
  obtain ⟨hmem, hrole⟩ := mem_reviewers.mp hprov
  have hcoord : (encodeReview v).coordinates = (a, q) := Prod.ext haudit hround
  refine ⟨by rw [haudit]; exact hb.audit_pos, ⟨v.provider, hmem, htask.symm, hrole⟩, by rw [hround]; exact hb.round_le,
    by rw [hcoord]; exact hb.top, ?_⟩
  intro hzero
  rw [hround] at hzero
  obtain ⟨ha, hstarts⟩ := hb.initial hzero
  exact ⟨haudit.trans ha, rfl, hstarts⟩

theorem placed_failure (hco : Coherent ctx p top) {f : CheckpointReviewerFailure} (hf : f ∈ p.failures) :
    Placed ctx top f.toCheckpointInvocation := by
  obtain ⟨a, q, hfa, hb⟩ := hco.failures f hf
  obtain ⟨⟨provider, hprov, htask⟩, hfrole, haudit, hround⟩ := hb.batch.failure hfa
  obtain ⟨hmem, hrole⟩ := mem_reviewers.mp hprov
  have hcoord : f.coordinates = (a, q) := Prod.ext haudit hround
  refine ⟨by rw [haudit]; exact hb.audit_pos, ⟨provider, hmem, htask.symm, hrole.trans hfrole.symm⟩,
    by rw [hround]; exact hb.round_le, by rw [hcoord]; exact hb.top, ?_⟩
  intro hzero
  rw [hround] at hzero
  obtain ⟨ha, hstarts⟩ := hb.initial hzero
  exact ⟨haudit.trans ha, hfrole, hstarts⟩

/-- Every invocation of the stored progress is placed. -/
theorem placed_checkpointInvocations (hco : Coherent ctx p top) {i : CheckpointInvocation}
    (hi : i ∈ checkpointInvocations (storedProgress p)) : Placed ctx top i := by
  unfold checkpointInvocations at hi
  rw [storedProgress_candidates, storedProgress_reviews, storedProgress_failures, List.map_map, List.map_map] at hi
  simp only [List.mem_append, List.mem_map, Function.comp_apply] at hi
  rcases hi with (⟨c, hc, rfl⟩ | ⟨v, hv, rfl⟩) | ⟨f, hf, rfl⟩
  · exact (placed_candidate hco hc).2.1
  · exact placed_review hco hv
  · exact placed_failure hco hf

/-- The sidecars are those of carried invocations. -/
theorem placed_reviewEvidencePaths (hco : Coherent ctx p top) {e : CheckpointInvocation × RelPath × FilePurpose}
    (he : e ∈ reviewEvidencePaths ctx (storedProgress p)) : Placed ctx top e.1 := by
  unfold reviewEvidencePaths at he
  rw [storedProgress_candidates, storedProgress_reviews, storedProgress_failures] at he
  rw [List.mem_append, List.mem_append] at he
  rcases he with (he | he) | he
  · obtain ⟨v', hv', he⟩ := List.mem_flatMap.mp he
    obtain ⟨v, hv, rfl⟩ := List.mem_map.mp hv'
    simp only [List.mem_cons, List.not_mem_nil, or_false] at he
    rcases he with rfl | rfl | rfl <;> exact placed_review hco hv
  · obtain ⟨f, hf, rfl⟩ := List.mem_map.mp he
    exact placed_failure hco hf
  · obtain ⟨c', hc', rfl⟩ := List.mem_map.mp he
    obtain ⟨c, hc, rfl⟩ := List.mem_map.mp hc'
    exact (placed_candidate hco hc).2.1

theorem placed_payload {ev : Evidence} (hev : EvidenceOk ctx ev) (hco : Coherent ctx p top)
    {payloads : List (RelPath × WorkspacePayload)} (hpay : ev.workspacePayloads (storedProgress p) = .ok payloads)
    {e : RelPath × WorkspacePayload} (he : e ∈ payloads) (hvalid : validatePayload ctx ev e = .ok ()) :
    Placed ctx top e.2.invocation := by
  obtain ⟨i, hi, hcase⟩ := hev.lineage _ _ hpay e he
  have hplaced := placed_checkpointInvocations hco hi
  rcases hcase with hsame | ⟨hrole, hapos, hpos, hle, hat⟩
  · rw [hsame]
    exact hplaced
  · refine ⟨hapos, ?_, hle, atMost_trans hat hplaced.top, by omega⟩
    unfold validatePayload at hvalid
    simp only at hvalid
    split at hvalid
    · simp at hvalid
    · rename_i provider hfind
      rw [check_then_eq_ok, require_eq_ok] at hvalid
      have hmem := List.mem_of_find?_eq_some hfind
      have htask := List.find?_some hfind
      exact ⟨provider, List.mem_reverse.mp hmem, by simpa using htask, hvalid.1.2.1.symm⟩

end Placement

/-! ## Files -/

section Files

variable {ctx : Context} {ev : Evidence} {p : ReviewLoopProgress} {phase : CheckpointPhase} {r : Nat}
  {cp : OpenReviewCheckpoint} {outputs evidence generated workspaceFiles : List CheckpointFile}
  {mappings : List CheckpointGeneratedMapping} {workspaces : List CheckpointWorkspace} {top : Nat × Nat}

theorem Assembly.taken
    (h : Assembly ctx ev p phase r cp outputs evidence generated workspaceFiles mappings workspaces) :
    Taken ctx p phase r cp := by
  rw [h.checkpoint]
  exact ⟨rfl, rfl, rfl, rfl, rfl, rfl, rfl⟩

theorem length_auditRoundDir_le (ctx : Context) (a : Nat) : (auditRoundDir ctx a).length ≤ (stageDir ctx).length + 1 := by
  rw [auditRoundDir_eq]
  unfold stageDir
  split <;> simp

/-- A path inside the stage directory. -/
def InStage (ctx : Context) (path : RelPath) : Prop := stageDir ctx <+: path ∧ (stageDir ctx).length < path.length

theorem inStage_of_append {dir rest : RelPath} (hdir : stageDir ctx <+: dir) (hrest : rest ≠ []) :
    InStage ctx (dir ++ rest) := by
  refine ⟨hdir.trans (List.prefix_append dir rest), ?_⟩
  have hle := hdir.length_le
  have hpos := List.length_pos_iff.mpr hrest
  simp only [List.length_append]
  omega

theorem stageDir_prefix_auditRoundDir (ctx : Context) (a : Nat) : stageDir ctx <+: auditRoundDir ctx a := by
  rw [auditRoundDir_eq]
  exact List.prefix_append _ _

/-- A carried output: its path, and that its invocation is placed. -/
theorem carried_placed (hco : Coherent ctx p top) {o : CheckpointInvocation × RelPath × FilePurpose}
    (ho : o ∈ carriedOutputs (storedProgress p)) :
    Placed ctx top o.1 ∧ (o.2.2 = .executorOutput ∨ o.2.2 = .reviewerOutput) ∧
      ∃ a t q, o.2.1 = outputPath ctx a t q := by
  rcases mem_carriedOutputs.mp ho with ⟨c, hc, rfl⟩ | ⟨v, hv, rfl⟩
  · obtain ⟨a, q, hca, hg, -⟩ := hco.candidates c hc
    exact ⟨(placed_candidate hco hc).2.1, Or.inl rfl, a, c.taskId, q, (hg.outputs c hca).file⟩
  · obtain ⟨a, q, hva, hb⟩ := hco.reviews v hv
    exact ⟨placed_review hco hv, Or.inr rfl, a, v.taskId, q, (hb.batch.review hva).2.2.1⟩

/-- Sidecars stand beside the outputs, or one directory below, and have purposes of their own. -/
theorem reviewEvidencePaths_place (hco : Coherent ctx p top) {e : CheckpointInvocation × RelPath × FilePurpose}
    (he : e ∈ reviewEvidencePaths ctx (storedProgress p)) :
    InStage ctx e.2.1 ∧ e.2.1.length ≤ (stageDir ctx).length + 3 ∧ e.2.2 ≠ .executorOutput ∧
      e.2.2 ≠ .reviewerOutput := by
  have hbeside : ∀ a name, InStage ctx (auditRoundDir ctx a ++ [name]) ∧
      (auditRoundDir ctx a ++ [name]).length ≤ (stageDir ctx).length + 3 := by
    intro a name
    refine ⟨inStage_of_append (stageDir_prefix_auditRoundDir ctx a) (by simp), ?_⟩
    have := length_auditRoundDir_le ctx a
    simp only [List.length_append, List.length_cons, List.length_nil]
    omega
  have hbelow : ∀ a name, InStage ctx (auditRoundDir ctx a ++ ["review-state", name]) ∧
      (auditRoundDir ctx a ++ ["review-state", name]).length ≤ (stageDir ctx).length + 3 := by
    intro a name
    refine ⟨inStage_of_append (stageDir_prefix_auditRoundDir ctx a) (by simp), ?_⟩
    have := length_auditRoundDir_le ctx a
    simp only [List.length_append, List.length_cons, List.length_nil]
    omega
  have hdrop : ∀ a t q, (outputPath ctx a t q).dropLast = auditRoundDir ctx a := by
    intro a t q
    simp [outputPath]
  unfold reviewEvidencePaths withSuffix reviewStateRelativePath at he
  rw [storedProgress_candidates, storedProgress_reviews, storedProgress_failures, List.mem_append,
    List.mem_append] at he
  rcases he with (he | he) | he
  · obtain ⟨v', hv', he⟩ := List.mem_flatMap.mp he
    obtain ⟨v, hv, rfl⟩ := List.mem_map.mp hv'
    obtain ⟨a, q, hva, hb⟩ := hco.reviews v hv
    have hdir : (encodeReview v).outputPath.dropLast = auditRoundDir ctx a := by
      change v.outputFile.dropLast = _
      rw [(hb.batch.review hva).2.2.1, hdrop]
    simp only [hdir, List.mem_cons, List.not_mem_nil, or_false] at he
    rcases he with rfl | rfl | rfl
    · exact ⟨(hbeside a _).1, (hbeside a _).2, by simp, by simp⟩
    · exact ⟨(hbeside a _).1, (hbeside a _).2, by simp, by simp⟩
    · exact ⟨(hbelow a _).1, (hbelow a _).2, by simp, by simp⟩
  · obtain ⟨f, hf, rfl⟩ := List.mem_map.mp he
    exact ⟨(hbelow _ _).1, (hbelow _ _).2, by simp, by simp⟩
  · obtain ⟨c', hc', rfl⟩ := List.mem_map.mp he
    obtain ⟨c, hc, rfl⟩ := List.mem_map.mp hc'
    obtain ⟨a, q, hca, hg, -⟩ := hco.candidates c hc
    have hdir : (storedCandidate c).outputPath.dropLast = auditRoundDir ctx a := by
      change c.outputFile.dropLast = _
      rw [(hg.outputs c hca).file, hdrop]
    simp only [hdir]
    exact ⟨(hbeside a _).1, (hbeside a _).2, by simp, by simp⟩

/-! ## Workspace snapshots -/

theorem validatePayload_destination {e : RelPath × WorkspacePayload} (h : validatePayload ctx ev e = .ok ()) :
    e.1 = stageDir ctx ++ ["workspace-state-" ++ e.2.slug ++ ".json"] := by
  unfold validatePayload at h
  simp only at h
  split at h
  · simp at h
  · rw [check_then_eq_ok, require_eq_ok] at h
    obtain ⟨⟨-, -, hdest, hslug⟩, -⟩ := h
    rw [hdest, hslug]
    rfl

/-- The snapshot's name starts with the slug of its destination. -/
theorem slug_of_snapshotPath {x y : WorkspacePayload} (hx : x.signature.sha256.length = 64)
    (hy : y.signature.sha256.length = 64) (h : snapshotPath ctx x = snapshotPath ctx y) : x.slug = y.slug := by
  unfold snapshotPath at h
  have hname := List.append_cancel_left h
  simp only [List.cons.injEq, and_true, true_and] at hname
  have hchars : x.slug.toList ++ ("--".toList ++ x.signature.sha256.toList.take 16 ++ ".json".toList) =
      y.slug.toList ++ ("--".toList ++ y.signature.sha256.toList.take 16 ++ ".json".toList) := by
    simpa using congrArg String.toList hname
  have hlen : ("--".toList ++ x.signature.sha256.toList.take 16 ++ ".json".toList).length =
      ("--".toList ++ y.signature.sha256.toList.take 16 ++ ".json".toList).length := by
    simp only [List.length_append, List.length_take, String.length_toList, hx, hy]
  exact String.toList_inj.mp (List.append_inj' hchars hlen).1

theorem buildReviewAuditDirectoryName_ne (a : Nat) : buildReviewAuditDirectoryName a ≠ "review-state" := by
  unfold buildReviewAuditDirectoryName
  intro h
  have hlong : "review-audit-round-".length = 19 := rfl
  have hlen : "review-audit-round-".length + (Nat.repr a).length = 12 := by
    rw [← String.length_append, h]
    rfl
  rw [hlong] at hlen
  omega

/-- Only workspaces have files below the checkpoint directory. -/
theorem snapshotPath_ne_generated (x : WorkspacePayload) (s : GeneratedSnapshot) (rest : RelPath) :
    generatedFileSourceRoot ctx s ++ rest ≠ snapshotPath ctx x := by
  intro h
  unfold generatedFileSourceRoot snapshotPath at h
  rw [auditRoundDir_eq, List.append_assoc, List.append_assoc] at h
  have h := List.append_cancel_left h
  split at h
  · exact buildReviewAuditDirectoryName_ne _ (List.cons.inj h).1
  · simp at h

theorem Assembly.snapshot_lookup (hev : EvidenceOk ctx ev)
    (h : Assembly ctx ev p phase r cp outputs evidence generated workspaceFiles mappings workspaces)
    (hco : Coherent ctx p top) {payloads : List (RelPath × WorkspacePayload)} {files : List (List CheckpointFile)}
    (hpay : ev.workspacePayloads (storedProgress p) = .ok payloads)
    (hvalid : ∀ e ∈ payloads, validatePayload ctx ev e = .ok ())
    (hfiles : payloads.mapM (Review.workspaceFiles ctx ev) = .ok files)
    (hws : workspaceFiles = dedupByPath files.flatten) {e : RelPath × WorkspacePayload} (he : e ∈ payloads) :
    cp.byPath.get? (snapshotPath ctx e.2) = some (snapshotFile ctx e.2) := by
  have hlen : (snapshotPath ctx e.2).length = (stageDir ctx).length + 4 := by simp [snapshotPath]
  -- among the workspace files
  have hworkspace : snapshotFile ctx e.2 ∈ workspaceFiles ∧
      ∀ g ∈ workspaceFiles, g.relativePath = snapshotPath ctx e.2 → g = snapshotFile ctx e.2 := by
    have hone : ∀ g ∈ files.flatten, g.relativePath = snapshotPath ctx e.2 → g = snapshotFile ctx e.2 := by
      intro g hg hpath
      obtain ⟨fs, hfs, hgfs⟩ := List.mem_flatten.mp hg
      obtain ⟨e', he', hefs⟩ := exists_of_mem_mapM hfiles hfs
      rcases (workspaceFiles_mem hefs hgfs).2 with rfl | ⟨name, hp⟩ | ⟨name, hp⟩ | ⟨name, hp⟩
      · have hslug := slug_of_snapshotPath (hev.digest _ _ hpay e' he') (hev.digest _ _ hpay e he) hpath
        have hdest : e'.1 = e.1 := by
          rw [validatePayload_destination (hvalid e' he'), validatePayload_destination (hvalid e he), hslug]
        rw [List.inj_on_of_nodup_map (hev.distinct _ _ hpay) he' he hdest]
      all_goals
        rw [hp] at hpath
        simp [← hpath] at hlen
    have hmem : snapshotFile ctx e.2 ∈ files.flatten := by
      obtain ⟨fs, hfs, hefs⟩ := mem_mapM_of_mem hfiles he
      unfold Review.workspaceFiles at hefs
      simp only [do_eq_ok] at hefs
      obtain ⟨deps, -, hall⟩ := hefs
      simp only [pure, Except.pure, Except.ok.injEq] at hall
      exact List.mem_flatten.mpr ⟨fs, hfs, by rw [← hall]; exact List.mem_cons_self⟩
    rw [hws]
    exact ⟨mem_dedupByPath hmem hone, fun g hg => hone g (mem_of_mem_dedupByPath hg)⟩
  have hcp : cp.files = dedupByPath (outputs ++ evidence ++ generated ++ workspaceFiles) := by rw [h.checkpoint]
  have hpath : (snapshotFile ctx e.2).relativePath = snapshotPath ctx e.2 := rfl
  rw [← hpath]
  apply byPath_of_mem (by rw [hcp]; exact nodup_dedupByPath _)
  rw [hcp]
  apply mem_dedupByPath (by simp [hworkspace.1])
  intro g hg hgpath
  rw [hpath] at hgpath
  simp only [List.mem_append] at hg
  rcases hg with ((hg | hg) | hg) | hg
  · obtain ⟨o, ho, -, hop, -⟩ := outputDependencies_mem h.outputs hg
    obtain ⟨-, -, a, t, q, hpath'⟩ := carried_placed hco ho
    have := length_auditRoundDir_le ctx a
    rw [← hgpath, hop, hpath', length_outputPath] at hlen
    omega
  · obtain ⟨e', he', -, hep, -⟩ := describeReviewEvidence_mem h.evidence hg
    have := (reviewEvidencePaths_place hco he').2.1
    rw [← hgpath, hep] at hlen
    omega
  · obtain ⟨-, s, rest, hgp⟩ := generatedDependencies_mem h.generated g hg
    exact absurd (hgp.symm.trans hgpath) (snapshotPath_ne_generated e.2 s rest)
  · exact hworkspace.2 g hg hgpath

/-! ## References -/

theorem validateCandidateEvidence_ok (hnode : NodeOk ctx.node)
    (h : Assembly ctx ev p phase r cp outputs evidence generated workspaceFiles mappings workspaces)
    (hco : Coherent ctx p top) : cp.validateCandidateEvidence = .ok () := by
  unfold OpenReviewCheckpoint.validateCandidateEvidence
  rw [checkAll_eq_ok, h.taken.progress, storedProgress_candidates]
  intro c' hc'
  obtain ⟨c, hc, rfl⟩ := List.mem_map.mp hc'
  obtain ⟨signature, -, hget⟩ := h.candidate hnode hco hc
  have hpath : (storedCandidate c).outputPath = c.outputFile := rfl
  rw [hpath, hget]
  change require _ _ = _
  rw [require_eq_ok]
  exact ⟨rfl, rfl, rfl, rfl, rfl, rfl, (placed_candidate hco hc).2.2⟩

theorem validateReviewEvidence_ok (hnode : NodeOk ctx.node)
    (h : Assembly ctx ev p phase r cp outputs evidence generated workspaceFiles mappings workspaces)
    (hco : Coherent ctx p top) : cp.validateReviewEvidence = .ok () := by
  unfold OpenReviewCheckpoint.validateReviewEvidence
  rw [checkAll_eq_ok, h.taken.progress, storedProgress_reviews]
  intro v' hv'
  obtain ⟨v, hv, rfl⟩ := List.mem_map.mp hv'
  obtain ⟨signature, -, hget⟩ := h.review hnode hco hv
  have hpath : (encodeReview v).outputPath = v.outputFile := rfl
  rw [hpath, hget]
  change require _ _ = _
  rw [require_eq_ok]
  exact ⟨rfl, rfl, rfl, rfl, rfl, rfl⟩

/-- The paths of the output descriptors are those of the carried outputs, each once. -/
theorem Assembly.output_paths
    (h : Assembly ctx ev p phase r cp outputs evidence generated workspaceFiles mappings workspaces) :
    (outputs.map (·.relativePath)).Nodup ∧ ∀ f ∈ outputs, f.relativePath ∈
      (storedProgress p).candidates.map (·.outputPath) ++ (storedProgress p).reviews.map (·.outputPath) := by
  constructor
  · have hout := h.outputs
    unfold outputDependencies at hout
    simp only [do_eq_ok] at hout
    obtain ⟨files, -, hout⟩ := hout
    simp only [pure, Except.pure, Except.ok.injEq] at hout
    rw [← hout]
    exact nodup_dedupByPath files
  · intro f hf
    obtain ⟨o, ho, -, hpath, -⟩ := outputDependencies_mem h.outputs hf
    rw [hpath, storedProgress_candidates, storedProgress_reviews, List.mem_append, List.map_map, List.map_map]
    rcases mem_carriedOutputs.mp ho with ⟨c, hc, rfl⟩ | ⟨v, hv, rfl⟩
    · exact Or.inl (List.mem_map.mpr ⟨c, hc, rfl⟩)
    · exact Or.inr (List.mem_map.mpr ⟨v, hv, rfl⟩)

theorem validateGeneratedMappings_ok
    (h : Assembly ctx ev p phase r cp outputs evidence generated workspaceFiles mappings workspaces)
    (hco : Coherent ctx p top) : cp.validateGeneratedMappings = .ok () := by
  have hmappings : cp.generatedMappings = mappings := by rw [h.checkpoint]
  obtain ⟨hnodup, hmem⟩ := h.output_paths
  unfold OpenReviewCheckpoint.validateGeneratedMappings
  simp only
  rw [require_eq_ok, hmappings, h.taken.progress, generatedDependencies_mappings h.generated]
  have hevidence : evidence.filter (fun f => f.purpose = .executorOutput ∨ f.purpose = .reviewerOutput) = [] := by
    rw [List.filter_eq_nil_iff]
    intro f hf
    obtain ⟨e, he, -, -, hpurpose⟩ := describeReviewEvidence_mem h.evidence hf
    obtain ⟨-, -, hex, hre⟩ := reviewEvidencePaths_place hco he
    simp [hpurpose, hex, hre]
  rw [List.filter_append, hevidence, List.append_nil]
  refine ⟨hnodup.sublist ((List.filter_sublist.trans List.filter_sublist).map _), ?_⟩
  intro path hpath
  obtain ⟨f, hf, rfl⟩ := List.mem_map.mp hpath
  exact hmem f (List.mem_of_mem_filter (List.mem_of_mem_filter hf))

theorem validateWorkspaceEvidence_ok (hev : EvidenceOk ctx ev)
    (h : Assembly ctx ev p phase r cp outputs evidence generated workspaceFiles mappings workspaces)
    (hco : Coherent ctx p top) : cp.validateWorkspaceEvidence = .ok () := by
  have hworkspaces : cp.workspaces = workspaces := by rw [h.checkpoint]
  unfold OpenReviewCheckpoint.validateWorkspaceEvidence
  rw [check_then_eq_ok, require_eq_ok, checkAll_eq_ok, hworkspaces]
  rcases prepareCheckpointWorkspaces_eq_ok h.workspaces with ⟨rfl, -⟩ | ⟨payloads, files, hpay, hvalid, hfiles, rfl, hws⟩
  · simp
  · refine ⟨?_, ?_⟩
    · rw [List.map_map]
      exact hev.distinct _ _ hpay
    · intro w hw
      obtain ⟨e, he, rfl⟩ := List.mem_map.mp hw
      simp only [h.snapshot_lookup hev hco hpay hvalid hfiles hws he, require_eq_ok]
      exact ⟨rfl, rfl⟩

theorem validatePhaseRequirements_ok (hnode : NodeOk ctx.node) (hb : Boundary ctx p phase r)
    (ht : Taken ctx p phase r cp) : cp.validatePhaseRequirements = .ok () := by
  unfold OpenReviewCheckpoint.validatePhaseRequirements
  rw [check_then_eq_ok, require_eq_ok, check_then_eq_ok, require_eq_ok, require_eq_ok, ht.phase, ht.round, ht.progress]
  cases hb with
  | opening _ _ _ => simp
  | remediation _ hact _ _ => simp [storedProgress, hact]
  | review _ hact hdue => simpa [storedProgress, hact, storedAudit] using fun _ => hdue.group.ne_nil hnode
  | finish hfin =>
    refine ⟨fun _ => ⟨by simp [storedProgress, hfin.idle], ?_⟩, by simp, by simp⟩
    rcases hfin.recorded.selection with ⟨hnone, -⟩ | ⟨a, q, -, cs, hcs, hg, -, hsel, -⟩
    · exact absurd hnone hfin.latest
    · refine ⟨by simpa [storedProgress, hcs] using hg.ne_nil hnode, ?_⟩
      change 1 ≤ p.selectedRoundNum
      rw [hsel]
      exact hg.round_pos

theorem validateReferences_ok (hnode : NodeOk ctx.node) (hev : EvidenceOk ctx ev) (hb : Boundary ctx p phase r)
    (h : Assembly ctx ev p phase r cp outputs evidence generated workspaceFiles mappings workspaces) :
    cp.validateReferences = .ok () := by
  have hco := hb.coherent
  unfold OpenReviewCheckpoint.validateReferences
  rw [check_then_eq_ok, require_eq_ok, check_then_eq_ok, check_then_eq_ok, check_then_eq_ok, check_then_eq_ok]
  refine ⟨?_, validateCandidateEvidence_ok hnode h hco, validateReviewEvidence_ok hnode h hco,
    validateGeneratedMappings_ok h hco, validateWorkspaceEvidence_ok hev h hco,
    validatePhaseRequirements_ok hnode hb h.taken⟩
  rw [h.checkpoint]
  exact nodup_dedupByPath _

/-! ## The node -/

theorem mem_files (h : Assembly ctx ev p phase r cp outputs evidence generated workspaceFiles mappings workspaces)
    {f : CheckpointFile} (hf : f ∈ cp.files) : f ∈ outputs ∨ f ∈ evidence ∨ f ∈ generated ∨ f ∈ workspaceFiles := by
  rw [h.checkpoint] at hf
  simpa [or_assoc] using mem_of_mem_dedupByPath hf

/-- Every file of the checkpoint belongs to a placed invocation. -/
theorem placed_files (hev : EvidenceOk ctx ev)
    (h : Assembly ctx ev p phase r cp outputs evidence generated workspaceFiles mappings workspaces)
    (hco : Coherent ctx p top) {f : CheckpointFile} (hf : f ∈ cp.files) : Placed ctx top f.toCheckpointInvocation := by
  have houtput : ∀ g ∈ outputs, Placed ctx top g.toCheckpointInvocation := by
    intro g hg
    obtain ⟨o, ho, hinv, -⟩ := outputDependencies_mem h.outputs hg
    rw [hinv]
    exact (carried_placed hco ho).1
  have hevidence : ∀ g ∈ evidence, Placed ctx top g.toCheckpointInvocation := by
    intro g hg
    obtain ⟨e, he, hinv, -⟩ := describeReviewEvidence_mem h.evidence hg
    rw [hinv]
    exact placed_reviewEvidencePaths hco he
  rcases mem_files h hf with hf | hf | hf | hf
  · exact houtput f hf
  · exact hevidence f hf
  · obtain ⟨⟨g, hg, hinv⟩, -⟩ := generatedDependencies_mem h.generated f hf
    rw [hinv]
    rcases List.mem_append.mp hg with hg | hg
    · exact houtput g hg
    · exact hevidence g hg
  · rcases prepareCheckpointWorkspaces_eq_ok h.workspaces with ⟨-, rfl⟩ | ⟨payloads, files, hpay, hvalid, hfiles, -, rfl⟩
    · simp at hf
    · obtain ⟨fs, hfs, hffs⟩ := List.mem_flatten.mp (mem_of_mem_dedupByPath hf)
      obtain ⟨e, he, hefs⟩ := exists_of_mem_mapM hfiles hfs
      rw [(workspaceFiles_mem hefs hffs).1]
      exact placed_payload hev hco hpay he (hvalid e he)

theorem placed_workspaces (hev : EvidenceOk ctx ev)
    (h : Assembly ctx ev p phase r cp outputs evidence generated workspaceFiles mappings workspaces)
    (hco : Coherent ctx p top) {w : CheckpointWorkspace} (hw : w ∈ cp.workspaces) :
    Placed ctx top w.toCheckpointInvocation := by
  rw [h.checkpoint] at hw
  rcases prepareCheckpointWorkspaces_eq_ok h.workspaces with ⟨rfl, -⟩ | ⟨payloads, files, hpay, hvalid, hfiles, rfl, -⟩
  · simp at hw
  · obtain ⟨e, he, rfl⟩ := List.mem_map.mp hw
    exact placed_payload hev hco hpay he (hvalid e he)

/-- Every invocation the checkpoint names is placed. -/
theorem placed_records (hev : EvidenceOk ctx ev)
    (h : Assembly ctx ev p phase r cp outputs evidence generated workspaceFiles mappings workspaces)
    (hco : Coherent ctx p top) {i : CheckpointInvocation} (hi : i ∈ cp.invocationRecords) : Placed ctx top i := by
  unfold OpenReviewCheckpoint.invocationRecords at hi
  rw [h.taken.progress, storedProgress_candidates, storedProgress_reviews, storedProgress_failures] at hi
  simp only [List.mem_append, List.mem_map] at hi
  rcases hi with (((⟨f, hf, rfl⟩ | ⟨c', ⟨c, hc, rfl⟩, rfl⟩) | ⟨v', ⟨v, hv, rfl⟩, rfl⟩) | ⟨f, hf, rfl⟩) | ⟨w, hw, rfl⟩
  · exact placed_files hev h hco hf
  · exact (placed_candidate hco hc).1
  · exact placed_review hco hv
  · exact placed_failure hco hf
  · exact placed_workspaces hev h hco hw

theorem validateFields_ok (hev : EvidenceOk ctx ev) (hb : Boundary ctx p phase r)
    (h : Assembly ctx ev p phase r cp outputs evidence generated workspaceFiles mappings workspaces) :
    cp.validateFields = .ok () := by
  have hco := hb.coherent
  unfold OpenReviewCheckpoint.validateFields
  rw [require_eq_ok, h.taken.audit]
  refine ⟨hb.recorded.2.2.1, fun i hi => (placed_records hev h hco hi).audit_pos, ?_⟩
  rw [h.taken.progress, storedProgress_candidates]
  intro c' hc'
  obtain ⟨c, hc, rfl⟩ := List.mem_map.mp hc'
  obtain ⟨a, q, hca, hg, -⟩ := hco.candidates c hc
  obtain ⟨hpa, hpr, -⟩ := hg.producer_bounds hca
  exact ⟨hpa, hpr⟩

theorem validateInvocationCoordinates_ok (hnode : NodeOk ctx.node) (hev : EvidenceOk ctx ev)
    (h : Assembly ctx ev p phase r cp outputs evidence generated workspaceFiles mappings workspaces)
    (hco : Coherent ctx p (p.cursorAudit, r)) : validateInvocationCoordinates cp ctx.node = .ok () := by
  have ht := h.taken
  have hplaced := fun i hi => placed_records hev h hco hi (i := i)
  have hidentity : ∀ provider ∈ ctx.node.providerRecords,
      (Dict.ofPairs (cp.tasks.map fun t => (t.taskId, t.role))).get? provider.taskId = some provider.role := by
    intro provider hprov
    have hpairs : cp.tasks.map (fun t => (t.taskId, t.role)) =
        ctx.node.providerRecords.map fun q => (q.taskId, q.role) := by
      rw [ht.tasks, nodeTasks, List.map_map]
      rfl
    have hmem : (provider.taskId, provider.role) ∈ ctx.node.providerRecords.map fun q => (q.taskId, q.role) :=
      List.mem_map.mpr ⟨provider, hprov, rfl⟩
    rw [hpairs]
    apply Dict.get?_ofPairs hmem
    intro role hrole
    obtain ⟨q, hq, hpair⟩ := List.mem_map.mp hrole
    obtain ⟨htask, rfl⟩ := Prod.mk.inj hpair
    rw [provider_eq_of_taskId hnode hq hprov htask]
  unfold validateInvocationCoordinates
  simp only
  rw [checkAll_eq_ok]
  intro i hi
  obtain ⟨-, ⟨provider, hprov, htask, hrole⟩, hround, htop, hinitial⟩ := hplaced i hi
  rw [check_then_eq_ok, require_eq_ok, require_eq_ok, ← htask, hidentity provider hprov, hrole, ht.coordinates, ht.audit]
  refine ⟨⟨rfl, ?_, hround, htop⟩, ?_⟩
  · unfold atMost CheckpointInvocation.coordinates at htop
    simp only at htop
    omega
  · exact hinitial

theorem validateArtifactPaths_ok (hnode : NodeOk ctx.node)
    (h : Assembly ctx ev p phase r cp outputs evidence generated workspaceFiles mappings workspaces)
    (hco : Coherent ctx p top) : validateArtifactPaths cp ctx.node = .ok () := by
  obtain ⟨stage, hstage⟩ := Option.isSome_iff_exists.mp hnode.stage
  have hdir : stageDir ctx = stage := by simp [stageDir, hstage]
  have hin : ∀ f ∈ cp.files, InStage ctx f.relativePath := by
    intro f hf
    rcases mem_files h hf with hf | hf | hf | hf
    · obtain ⟨o, ho, -, hpath, -⟩ := outputDependencies_mem h.outputs hf
      obtain ⟨-, -, a, t, q, hout⟩ := carried_placed hco ho
      rw [hpath, hout]
      exact inStage_of_append (stageDir_prefix_auditRoundDir ctx a) (by simp)
    · obtain ⟨e, he, -, hpath, -⟩ := describeReviewEvidence_mem h.evidence hf
      rw [hpath]
      exact (reviewEvidencePaths_place hco he).1
    · obtain ⟨-, s, rest, hpath⟩ := generatedDependencies_mem h.generated f hf
      rw [hpath, generatedFileSourceRoot, List.append_assoc]
      exact inStage_of_append (stageDir_prefix_auditRoundDir ctx _) (by simp)
    · rcases prepareCheckpointWorkspaces_eq_ok h.workspaces with ⟨-, rfl⟩ | ⟨payloads, files, -, -, hfiles, -, rfl⟩
      · simp at hf
      · obtain ⟨fs, hfs, hffs⟩ := List.mem_flatten.mp (mem_of_mem_dedupByPath hf)
        obtain ⟨e, -, hefs⟩ := exists_of_mem_mapM hfiles hfs
        rcases (workspaceFiles_mem hefs hffs).2 with rfl | ⟨name, hpath⟩ | ⟨name, hpath⟩ | ⟨name, hpath⟩
        · exact inStage_of_append (List.prefix_refl _) (by simp)
        all_goals
          rw [hpath]
          exact inStage_of_append (List.prefix_refl _) (by simp)
  have hexpected : ∀ a t q, outputPath ctx a t q =
      stage ++ (if 1 < auditRoundsOrDefault ctx.node.executionPolicy.auditRounds then
        [buildReviewAuditDirectoryName a] else []) ++ [buildTaskRoundFilename t q] := by
    intro a t q
    rw [outputPath, auditRoundDir_eq, hstage]
    rfl
  unfold validateArtifactPaths
  rw [hstage]
  simp only
  rw [check_then_eq_ok, require_eq_ok, checkAll_eq_ok, h.taken.progress, storedProgress_candidates,
    storedProgress_reviews]
  refine ⟨fun f hf => by rw [← hdir]; exact hin f hf, ?_⟩
  intro o ho
  rw [require_eq_ok]
  simp only [List.map_map, List.mem_append, List.mem_map, Function.comp_apply] at ho
  rcases ho with ⟨c, hc, rfl⟩ | ⟨v, hv, rfl⟩
  · obtain ⟨a, q, hca, hg, -⟩ := hco.candidates c hc
    obtain ⟨haudit, hround⟩ := hg.stored_coordinates hca
    rw [haudit, hround, ← hexpected]
    exact (hg.outputs c hca).file
  · obtain ⟨a, q, hva, hbt⟩ := hco.reviews v hv
    obtain ⟨haudit, hround⟩ := hbt.batch.stored_coordinates ⟨hbt.audit_pos, hbt.audit_le⟩ hva
    rw [haudit, hround, ← hexpected]
    exact (hbt.batch.review hva).2.2.1

theorem checkpointNodeIsEligible_of_nodeOk {node : ReviewNode} (hnode : NodeOk node) :
    checkpointNodeIsEligible node = true := by
  obtain ⟨e, he, herole⟩ := hnode.executor
  obtain ⟨v, hv, hvrole⟩ := hnode.reviewer
  unfold checkpointNodeIsEligible
  simp only [Bool.and_eq_true, decide_eq_true_eq, List.contains_iff_mem]
  exact ⟨⟨⟨hnode.mode, List.mem_map.mpr ⟨e, he, herole⟩⟩, List.mem_map.mpr ⟨v, hv, hvrole⟩⟩, hnode.roles⟩

/-- A checkpoint prepared at a boundary passes every validator. -/
theorem prepared_accepted (hnode : NodeOk ctx.node) (hev : EvidenceOk ctx ev) (hb : Boundary ctx p phase r)
    (h : prepareCheckpoint ctx ev p phase r = .ok cp) :
    cp.validate = .ok () ∧ validateCheckpointNode cp ctx.node = .ok () := by
  obtain ⟨outputs, evidence, generated, wfiles, mappings, workspaces, hasm⟩ := assembly_of_prepareCheckpoint h
  have hco := hb.coherent
  have ht := hasm.taken
  refine ⟨?_, ?_⟩
  · unfold OpenReviewCheckpoint.validate
    rw [check_then_eq_ok]
    exact ⟨validateFields_ok hev hb hasm, validateReferences_ok hnode hev hb hasm⟩
  unfold validateCheckpointNode
  rw [check_then_eq_ok, require_eq_ok, check_then_eq_ok, require_eq_ok, check_then_eq_ok, check_then_eq_ok,
    check_then_eq_ok]
  exact ⟨ht.expansion, ⟨checkpointNodeIsEligible_of_nodeOk hnode, ht.node, ht.tasks⟩,
    validateCheckpointProgress_ok hnode hb ht, validateNodeCursor_ok hb ht,
    validateInvocationCoordinates_ok hnode hev hasm hco, validateArtifactPaths_ok hnode hasm hco⟩

end Files

end Crewplane.Review
