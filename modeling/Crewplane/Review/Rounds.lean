import Crewplane.Review.Loop
/-
# What one provider round leaves behind

`Group ctx a r cs` says that `cs` are the outputs of all executors for round `r`
of audit `a`, in compiled order, each at its own path and with the coordinates of
the invocation that produced it. `Batch ctx a r reviews failures` says that one
reviewer round at `(a, r)` settled with these reviews and failures. Both are what
the code establishes when a round runs; the facts below are all that later
modules use of them.
-/
namespace Crewplane.Review

open Crewplane.Lib Crewplane.Plan

/-- What the plan contract (plan_contract_nodes.py:190) and
`split_sequential_review_loop_providers` (policy.py:53) promise of the node. -/
structure NodeOk (node : ReviewNode) : Prop where
  mode : node.mode = .sequential
  roles : roleSegmentsAreContiguous (node.providerRecords.map (·.role)) = true
  executor : ∃ p ∈ node.providerRecords, p.role = .executor
  reviewer : ∃ p ∈ node.providerRecords, p.role = .reviewer
  tasks : (node.providerRecords.map (·.taskId)).Nodup
  stage : node.stagePath.isSome = true

/-! ## Bounds and names -/

section Names

variable {ctx : Context}

theorem auditRounds_pos (ctx : Context) : 1 ≤ ctx.auditRounds := by
  unfold Context.auditRounds
  rcases ctx.policy.auditRounds with _ | _ | n <;> simp [auditRoundsOrDefault]

theorem maxRound_ge_two (ctx : Context) : 2 ≤ ctx.maxRound := by
  unfold Context.maxRound maximumReviewRound
  rcases ctx.policy.depth with _ | _ | n <;> simp [remediationDepthOrDefault]

@[simp] theorem nodeMaxRound_node (ctx : Context) : nodeMaxRound ctx.node = ctx.maxRound := rfl

/-- The recorded audit number, with its default, is the audit. -/
theorem auditRoundContext_getD {a : Nat} (hpos : 1 ≤ a) (hle : a ≤ ctx.auditRounds) :
    (auditRoundContext ctx.policy.auditRounds a).getD 1 = a := by
  unfold Context.auditRounds at hle
  unfold auditRoundContext
  split
  · simp
  · simp
    omega

theorem auditRoundDir_eq (ctx : Context) (a : Nat) : auditRoundDir ctx a =
    ctx.node.stagePath.getD [] ++ if 1 < ctx.auditRounds then [buildReviewAuditDirectoryName a] else [] := by
  have hpos := auditRounds_pos ctx
  unfold auditRoundDir
  split
  · rw [if_neg (by omega)]
  · rw [if_pos (by omega)]

theorem buildReviewAuditDirectoryName_inj {a b : Nat}
    (h : buildReviewAuditDirectoryName a = buildReviewAuditDirectoryName b) : a = b := by
  unfold buildReviewAuditDirectoryName at h
  exact Nat.repr_inj.mp (String.append_right_inj _ |>.mp h)

theorem buildTaskRoundFilename_inj {t u : TaskId} {r q : Nat}
    (h : buildTaskRoundFilename t r = buildTaskRoundFilename u q) : t = u ∧ r = q := by
  have hchars : t.toList ++ "_round".toList ++ (Nat.repr r).toList ++ ".md".toList =
      u.toList ++ "_round".toList ++ (Nat.repr q).toList ++ ".md".toList := by
    simpa [buildTaskRoundFilename] using congrArg String.toList h
  have hnames : t.toList ++ "_roun".toList ++ ['d'] ++ (Nat.repr r).toList =
      u.toList ++ "_roun".toList ++ ['d'] ++ (Nat.repr q).toList := by
    simpa using List.append_cancel_right hchars
  obtain ⟨htask, hround⟩ := append_repr_inj (by decide) hnames
  exact ⟨String.toList_inj.mp (List.append_cancel_right htask), hround⟩

/-- An output's path says who wrote it, in which round of which audit. -/
theorem outputPath_inj {a b r q : Nat} {t u : TaskId} (ha : 1 ≤ a ∧ a ≤ ctx.auditRounds)
    (hb : 1 ≤ b ∧ b ≤ ctx.auditRounds) (h : outputPath ctx a t r = outputPath ctx b u q) :
    a = b ∧ t = u ∧ r = q := by
  unfold outputPath at h
  obtain ⟨hdir, hname⟩ := List.append_inj' h rfl
  obtain ⟨rfl, rfl⟩ := buildTaskRoundFilename_inj (List.singleton_inj.mp hname)
  refine ⟨?_, rfl, rfl⟩
  rw [auditRoundDir_eq, auditRoundDir_eq] at hdir
  have hdir := List.append_cancel_left hdir
  split at hdir
  · exact buildReviewAuditDirectoryName_inj (List.singleton_inj.mp hdir)
  · omega

end Names

/-! ## Providers -/

section Providers

variable {ctx : Context}

theorem mem_executors {p : ProviderRecord} :
    p ∈ ctx.executors ↔ p ∈ ctx.node.providerRecords ∧ p.role = .executor := by
  simp [Context.executors]

theorem mem_reviewers {p : ProviderRecord} :
    p ∈ ctx.reviewers ↔ p ∈ ctx.node.providerRecords ∧ p.role = .reviewer := by
  simp [Context.reviewers]

theorem executors_ne_nil (hnode : NodeOk ctx.node) : ctx.executors ≠ [] := by
  obtain ⟨p, hp, hrole⟩ := hnode.executor
  exact List.ne_nil_of_mem (mem_executors.mpr ⟨hp, hrole⟩)

/-- A task id names one provider. -/
theorem provider_eq_of_taskId (hnode : NodeOk ctx.node) {p q : ProviderRecord} (hp : p ∈ ctx.node.providerRecords)
    (hq : q ∈ ctx.node.providerRecords) (h : p.taskId = q.taskId) : p = q :=
  List.inj_on_of_nodup_map hnode.tasks hp hq h

theorem nodup_providers (hnode : NodeOk ctx.node) : ctx.node.providerRecords.Nodup := hnode.tasks.of_map _

theorem nodup_executors (hnode : NodeOk ctx.node) : ctx.executors.Nodup := (nodup_providers hnode).filter _

theorem nodup_reviewers (hnode : NodeOk ctx.node) : ctx.reviewers.Nodup := (nodup_providers hnode).filter _

theorem nodup_reviewer_tasks (hnode : NodeOk ctx.node) : (ctx.reviewers.map (·.taskId)).Nodup :=
  hnode.tasks.sublist (List.filter_sublist.map _)

end Providers

/-! ## Executor rounds -/

/-- The output of one executor in round `r` of audit `a`. A fresh audit carries over
what an earlier one produced; every other output is produced where it stands. -/
structure Output (ctx : Context) (a r : Nat) (c : ExecutorRoundArtifact) : Prop where
  task : c.taskId = c.provider.taskId
  file : c.outputFile = outputPath ctx a c.taskId r
  audit : c.auditRoundNum = auditRoundContext ctx.policy.auditRounds a
  round : c.roundNum = r
  content : c.content = (c.outputSignature.map ctx.readOutput).getD ""
  identity : c.candidateIdentity.isSome = true
  producer : (c.producerAudit = a ∧ c.producerRound = r) ∨
    (1 ≤ c.producerAudit ∧ c.producerAudit < a ∧ 1 ≤ c.producerRound ∧ c.producerRound ≤ ctx.maxRound ∧ r = 1)

structure Group (ctx : Context) (a r : Nat) (cs : List ExecutorRoundArtifact) : Prop where
  providers : cs.map (·.provider) = ctx.executors
  outputs : ∀ c ∈ cs, Output ctx a r c
  audit_pos : 1 ≤ a
  audit_le : a ≤ ctx.auditRounds
  round_pos : 1 ≤ r
  round_le : r ≤ ctx.maxRound

def Valid (ctx : Context) (cs : List ExecutorRoundArtifact) : Prop := (validateExecutorOutputs ctx cs).valid = true

section Groups

variable {ctx : Context}

theorem valid_iff {cs : List ExecutorRoundArtifact} :
    Valid ctx cs ↔ ∀ c ∈ cs, classifyExecutorOutput ctx c.content = none := by
  unfold Valid validateExecutorOutputs
  simp only
  split
  · rename_i hsort
    have hlen := congrArg List.length hsort
    simpa using hlen
  · rename_i hsort
    constructor
    · simp
    · intro h
      have hnil : (cs.filterMap fun a => (classifyExecutorOutput ctx a.content).map fun reason => (reason, a.taskId)) =
          [] := by
        rw [List.filterMap_eq_nil_iff]
        intro c hc
        rw [h c hc]
        rfl
      simp [hnil] at hsort

/-- A valid candidate has content, so it was published. -/
theorem Valid.signature {a r : Nat} {cs : List ExecutorRoundArtifact} (hv : Valid ctx cs) (hg : Group ctx a r cs)
    {c : ExecutorRoundArtifact} (hc : c ∈ cs) :
    ∃ signature, c.outputSignature = some signature ∧ ctx.readOutput signature = c.content := by
  have hcontent := (hg.outputs c hc).content
  cases hs : c.outputSignature with
  | some signature => exact ⟨signature, rfl, by simp [hcontent, hs]⟩
  | none =>
    have hclass := valid_iff.mp hv c hc
    rw [hcontent, hs] at hclass
    simp [classifyExecutorOutput, strip, stripChars] at hclass

theorem Group.provider_mem {a r : Nat} {cs : List ExecutorRoundArtifact} (hg : Group ctx a r cs)
    {c : ExecutorRoundArtifact} (hc : c ∈ cs) : c.provider ∈ ctx.node.providerRecords ∧ c.provider.role = .executor :=
  mem_executors.mp (hg.providers ▸ List.mem_map_of_mem hc)

theorem Group.ne_nil (hnode : NodeOk ctx.node) {a r : Nat} {cs : List ExecutorRoundArtifact} (hg : Group ctx a r cs) :
    cs ≠ [] := by
  rintro rfl
  exact executors_ne_nil hnode hg.providers.symm

theorem Group.taskIds {a r : Nat} {cs : List ExecutorRoundArtifact} (hg : Group ctx a r cs) :
    cs.map (·.taskId) = ctx.executors.map (·.taskId) := by
  rw [← hg.providers, List.map_map]
  exact List.map_congr_left fun c hc => (hg.outputs c hc).task

/-- Within a group the task id decides the output. -/
theorem Group.eq_of_taskId (hnode : NodeOk ctx.node) {a r : Nat} {cs : List ExecutorRoundArtifact}
    (hg : Group ctx a r cs) {c d : ExecutorRoundArtifact} (hc : c ∈ cs) (hd : d ∈ cs) (h : c.taskId = d.taskId) :
    c = d := by
  have hnodup : (cs.map (·.provider)).Nodup := hg.providers ▸ nodup_executors hnode
  apply List.inj_on_of_nodup_map hnodup hc hd
  apply provider_eq_of_taskId hnode (hg.provider_mem hc).1 (hg.provider_mem hd).1
  rw [← (hg.outputs c hc).task, ← (hg.outputs d hd).task, h]

/-- Outputs of groups with one path are outputs of one round. -/
theorem Group.coordinates_of_file {a b r q : Nat} {cs ds : List ExecutorRoundArtifact} (hg : Group ctx a r cs)
    (hh : Group ctx b q ds) {c d : ExecutorRoundArtifact} (hc : c ∈ cs) (hd : d ∈ ds)
    (h : c.outputFile = d.outputFile) : a = b ∧ c.taskId = d.taskId ∧ r = q := by
  rw [(hg.outputs c hc).file, (hh.outputs d hd).file] at h
  exact outputPath_inj ⟨hg.audit_pos, hg.audit_le⟩ ⟨hh.audit_pos, hh.audit_le⟩ h

/-- Who produced the output, and that it was not after the round the output stands in. -/
theorem Group.producer_bounds {a r : Nat} {cs : List ExecutorRoundArtifact} (hg : Group ctx a r cs)
    {c : ExecutorRoundArtifact} (hc : c ∈ cs) : 1 ≤ c.producerAudit ∧ 1 ≤ c.producerRound ∧
      c.producerRound ≤ ctx.maxRound ∧ atMost (c.producerAudit, c.producerRound) (a, r) := by
  have hr := hg.round_pos
  have hle := hg.round_le
  have ha := hg.audit_pos
  unfold atMost
  rcases (hg.outputs c hc).producer with ⟨h1, h2⟩ | ⟨h1, h2, h3, h4, -⟩ <;> simp only <;> omega

/-- A round of all executors is a group. -/
theorem group_runExecutorRound {a r : Nat} (ha : 1 ≤ a ∧ a ≤ ctx.auditRounds) (hr : 1 ≤ r ∧ r ≤ ctx.maxRound)
    (response : TaskId → ExecutorResponse) : Group ctx a r (runExecutorRound ctx a r response).outputs := by
  refine ⟨?_, ?_, ha.1, ha.2, hr.1, hr.2⟩
  · simp [runExecutorRound, executorArtifact, Function.comp_def]
  · intro c hc
    obtain ⟨p, -, rfl⟩ : ∃ p ∈ ctx.executors, executorArtifact ctx a r response p = c := by
      simpa [runExecutorRound] using hc
    exact ⟨rfl, rfl, rfl, rfl, rfl, rfl, Or.inl ⟨rfl, rfl⟩⟩

end Groups

/-! ## Seeding a fresh audit -/

/-- The output as the first round of audit `a` carries it. -/
def seeded (ctx : Context) (a : Nat) (c : ExecutorRoundArtifact) : ExecutorRoundArtifact :=
  { c with
    outputFile := outputPath ctx a c.taskId 1
    auditRoundNum := auditRoundContext ctx.policy.auditRounds a
    roundNum := 1 }

section Seeding

variable {ctx : Context}

theorem seedExecutorOutputs_eq {a : Nat} {cs ds : List ExecutorRoundArtifact}
    (h : seedExecutorOutputs ctx a cs = .ok ds) : ds = cs.map (seeded ctx a) := by
  unfold seedExecutorOutputs at h
  apply eq_map_of_mapM _ h
  intro c d hd
  split at hd
  · simp at hd
  · split at hd
    · simp at hd
    · simpa [seeded] using hd.symm

theorem group_seeded {a b q : Nat} {cs : List ExecutorRoundArtifact} (hg : Group ctx b q cs) (hlt : b < a)
    (hle : a ≤ ctx.auditRounds) : Group ctx a 1 (cs.map (seeded ctx a)) := by
  have hmax := maxRound_ge_two ctx
  refine ⟨?_, ?_, by omega, hle, le_refl 1, by omega⟩
  · rw [← hg.providers, List.map_map]
    rfl
  · intro d hd
    obtain ⟨c, hc, rfl⟩ := List.mem_map.mp hd
    have hout := hg.outputs c hc
    obtain ⟨hpa, hpr, hmaxr, hat⟩ := hg.producer_bounds hc
    unfold atMost at hat
    refine ⟨hout.task, rfl, rfl, rfl, hout.content, hout.identity, Or.inr ⟨hpa, ?_, hpr, hmaxr, rfl⟩⟩
    have : (seeded ctx a c).producerAudit = c.producerAudit := rfl
    simp only at hat
    omega

theorem valid_seeded {a : Nat} {cs : List ExecutorRoundArtifact} (hv : Valid ctx cs) :
    Valid ctx (cs.map (seeded ctx a)) := by
  rw [valid_iff] at hv ⊢
  intro d hd
  obtain ⟨c, hc, rfl⟩ := List.mem_map.mp hd
  exact hv c hc

end Seeding

/-! ## Reviewer rounds -/

def Batch (ctx : Context) (a r : Nat) (reviews : List ReviewerRoundArtifact)
    (failures : List CheckpointReviewerFailure) : Prop :=
  ∃ response run, runReviewerRound ctx a r response = .ok run ∧ reviews = run.outputs ∧ failures = run.failures

section Batches

variable {ctx : Context} {a r : Nat} {reviews : List ReviewerRoundArtifact} {failures : List CheckpointReviewerFailure}

/-- The lists of a settled reviewer round, and that policy allows its failures. -/
theorem runReviewerRound_eq_ok {response : TaskId → ReviewerResponse} {run : ReviewerRoundRunResult}
    (h : runReviewerRound ctx a r response = .ok run) :
    run.outputs = ctx.reviewers.filterMap (reviewerArtifact? ctx a r response) ∧
    run.failures = ctx.reviewers.filterMap (invocationFailure? a r response) ++
      ctx.reviewers.filterMap (outputFailure? a r response) ∧
    run.reviewerFailureCount = run.failures.length ∧
    (run.failures = [] ∨ ctx.policy.continueOnFailure = true) := by
  unfold runReviewerRound at h
  simp only at h
  split at h
  · simp at h
  · rename_i hallowed
    simp only [Except.ok.injEq] at h
    subst h
    refine ⟨rfl, rfl, rfl, ?_⟩
    by_cases hnil : ctx.reviewers.filterMap (invocationFailure? a r response) ++
        ctx.reviewers.filterMap (outputFailure? a r response) = []
    · exact Or.inl hnil
    · right
      cases hc : ctx.policy.continueOnFailure with
      | true => rfl
      | false => exact absurd ⟨hnil, hc⟩ hallowed

theorem batch_of_run {response : TaskId → ReviewerResponse} {run : ReviewerRoundRunResult}
    (h : runReviewerRound ctx a r response = .ok run) : Batch ctx a r run.outputs run.failures :=
  ⟨response, run, h, rfl, rfl⟩

theorem Batch.allowed (hb : Batch ctx a r reviews failures) : failures = [] ∨ ctx.policy.continueOnFailure = true := by
  obtain ⟨response, run, hrun, -, rfl⟩ := hb
  exact (runReviewerRound_eq_ok hrun).2.2.2

/-- What a review of the batch records. -/
theorem Batch.review (hb : Batch ctx a r reviews failures) {v : ReviewerRoundArtifact} (hv : v ∈ reviews) :
    v.provider ∈ ctx.reviewers ∧ v.taskId = v.provider.taskId ∧ v.outputFile = outputPath ctx a v.taskId r ∧
    v.auditRoundNum = auditRoundContext ctx.policy.auditRounds a ∧ v.roundNum = r ∧
    ∃ signature, v.outputSignature = some signature := by
  obtain ⟨response, run, hrun, rfl, -⟩ := hb
  rw [(runReviewerRound_eq_ok hrun).1, List.mem_filterMap] at hv
  obtain ⟨p, hp, hpv⟩ := hv
  unfold reviewerArtifact? at hpv
  split at hpv
  · simp only [Option.some.injEq] at hpv
    subst hpv
    exact ⟨hp, rfl, rfl, rfl, rfl, _, rfl⟩
  · simp at hpv

/-- Which reviewer a failure is of, and where. -/
theorem Batch.failure (hb : Batch ctx a r reviews failures) {f : CheckpointReviewerFailure} (hf : f ∈ failures) :
    (∃ p ∈ ctx.reviewers, f.taskId = p.taskId) ∧ f.role = .reviewer ∧ f.audit = a ∧ f.localRound = r := by
  obtain ⟨response, run, hrun, -, rfl⟩ := hb
  have hmem : ∃ p ∈ ctx.reviewers, ∃ kind warning, reviewerFailure a r p kind warning = f := by
    rw [(runReviewerRound_eq_ok hrun).2.1, List.mem_append, List.mem_filterMap, List.mem_filterMap] at hf
    rcases hf with ⟨p, hp, h⟩ | ⟨p, hp, h⟩
    · unfold invocationFailure? at h
      split at h
      · exact ⟨p, hp, _, _, by simpa using h⟩
      · simp at h
    · unfold outputFailure? at h
      split at h
      · exact ⟨p, hp, _, _, by simpa using h⟩
      · simp at h
  obtain ⟨p, hp, kind, warning, rfl⟩ := hmem
  exact ⟨⟨p, hp, rfl⟩, (mem_reviewers.mp hp).2, rfl, rfl⟩

/-- Every reviewer either reviewed or failed, once. -/
theorem Batch.perm (hb : Batch ctx a r reviews failures) :
    (reviews.map (·.taskId) ++ failures.map (·.taskId)).Perm (ctx.reviewers.map (·.taskId)) := by
  obtain ⟨response, run, hrun, rfl, rfl⟩ := hb
  obtain ⟨hout, hfail, -, -⟩ := runReviewerRound_eq_ok hrun
  rw [hout, hfail]
  -- each reviewer puts its task id into exactly one of the three lists
  have key : ∀ ps : List ProviderRecord,
      ((ps.filterMap (reviewerArtifact? ctx a r response)).map (·.taskId) ++
        ((ps.filterMap (invocationFailure? a r response)).map (·.taskId) ++
          (ps.filterMap (outputFailure? a r response)).map (·.taskId))).Perm (ps.map (·.taskId)) := by
    intro ps
    induction ps with
    | nil => simp
    | cons p ps ih =>
      rw [List.map_cons]
      cases hres : response p.taskId with
      | failed kind warning =>
        simp only [List.filterMap_cons, reviewerArtifact?, invocationFailure?, outputFailure?, hres, List.map_cons]
        exact (List.perm_middle.trans (List.Perm.cons _ ih))
      | answered drift outcome =>
        cases outcome with
        | evaluated evaluation signature =>
          simp only [List.filterMap_cons, reviewerArtifact?, invocationFailure?, outputFailure?, hres, List.map_cons,
            List.cons_append]
          exact List.Perm.cons _ ih
        | unusable kind warning =>
          simp only [List.filterMap_cons, reviewerArtifact?, invocationFailure?, outputFailure?, hres, List.map_cons]
          rw [← List.append_assoc]
          refine List.perm_middle.trans (List.Perm.cons _ ?_)
          rw [List.append_assoc]
          exact ih
  simpa using key ctx.reviewers

/-- The reviews stand in compiled order, without the reviewers that failed. -/
theorem Batch.order (hnode : NodeOk ctx.node) (hb : Batch ctx a r reviews failures) :
    reviews.map (·.taskId) =
      (ctx.reviewers.map (·.taskId)).filter (fun t => t ∉ failures.map (·.taskId)) := by
  have hperm := hb.perm
  have hsub : (reviews.map (·.taskId)).Sublist (ctx.reviewers.map (·.taskId)) := by
    obtain ⟨response, run, hrun, rfl, -⟩ := hb
    rw [(runReviewerRound_eq_ok hrun).1]
    generalize ctx.reviewers = ps
    induction ps with
    | nil => simp
    | cons p ps ih =>
      rw [List.filterMap_cons, List.map_cons]
      split
      · exact ih.cons _
      · rename_i v hv
        have htask : v.taskId = p.taskId := by
          unfold reviewerArtifact? at hv
          split at hv
          · simp only [Option.some.injEq] at hv
            rw [← hv]
          · simp at hv
        rw [List.map_cons, htask]
        exact ih.cons_cons _
  have hnodup : (reviews.map (·.taskId) ++ failures.map (·.taskId)).Nodup :=
    hperm.nodup_iff.mpr (nodup_reviewer_tasks hnode)
  have hdisjoint := (List.nodup_append.mp hnodup).2.2
  have hleft : (reviews.map (·.taskId)).filter (fun t => t ∉ failures.map (·.taskId)) = reviews.map (·.taskId) := by
    rw [List.filter_eq_self]
    intro t ht
    simp only [decide_eq_true_eq]
    exact fun hf => hdisjoint t ht t hf rfl
  have hfiltered := hsub.filter (fun t => decide (t ∉ failures.map (·.taskId)))
  rw [hleft] at hfiltered
  apply hfiltered.eq_of_length
  have hlen := (hperm.filter (fun t => decide (t ∉ failures.map (·.taskId)))).length_eq
  rw [List.filter_append, hleft] at hlen
  have hnone : (failures.map (·.taskId)).filter (fun t => decide (t ∉ failures.map (·.taskId))) = [] := by
    rw [List.filter_eq_nil_iff]
    intro t ht
    simpa using ht
  rw [hnone, List.append_nil] at hlen
  exact hlen

/-- Within a batch the path decides the review. -/
theorem Batch.eq_of_taskId (hnode : NodeOk ctx.node) (hb : Batch ctx a r reviews failures)
    {v w : ReviewerRoundArtifact} (hv : v ∈ reviews) (hw : w ∈ reviews) (h : v.taskId = w.taskId) : v = w := by
  have hnodup : (reviews.map (·.taskId)).Nodup := by
    rw [hb.order hnode]
    exact (nodup_reviewer_tasks hnode).filter _
  exact List.inj_on_of_nodup_map hnodup hv hw h

end Batches

end Crewplane.Review
