import Crewplane.Review.Boundary
/-
# What a prepared checkpoint holds

`storedProgress` is the encoding as a total function. At a boundary every carried
output has one path, and no sidecar, generated file or workspace file has that
path, so looking the output up in the checkpoint finds its own descriptor, with
the signature its artifact is bound to (`prepared_candidate`, `prepared_review`).
Restoring then gives back the progress (`restore_prepared`).
-/
namespace Crewplane.Review

open Crewplane.Lib Crewplane.Plan

/-! ## The encoding as a function -/

def storedCandidate (c : ExecutorRoundArtifact) : CheckpointCandidate :=
  { taskId := c.taskId, role := .executor, audit := c.auditRoundNum.getD 1, localRound := c.roundNum
    producerAudit := c.producerAudit, producerRound := c.producerRound, outputPath := c.outputFile
    identity := c.candidateIdentity.getD ⟨.unverified, none, none, none⟩ }

def storedAudit (active : AuditRoundProgress) : CheckpointAuditProgress :=
  { active.counters with
    executorOutputs := active.executorOutputs.map storedCandidate
    previousExecutorOutputs := active.previousExecutorOutputs.map (·.map storedCandidate)
    previousUnresolvedFingerprints := active.previousUnresolvedFingerprints
    previousExecutorFingerprint := active.previousExecutorFingerprint
    latestValidExecutorOutputs := active.latestValidExecutorOutputs.map (·.map storedCandidate)
    latestReviewerOutputs := active.latestReviewerOutputs.map encodeReview
    reviewerFailures := active.reviewerFailures }

def storedProgress (p : ReviewLoopProgress) : CheckpointProgress :=
  { p.counters with
    latestExecutorOutputs := p.latestExecutorOutputs.map (·.map storedCandidate)
    latestReviewerOutputs := p.latestReviewerOutputs.map encodeReview
    reviewerFailures := p.reviewerFailures
    executedAuditRounds := p.executedAuditRounds
    consensusReached := p.consensusReached
    continuedAfterExhaustion := p.continuedAfterExhaustion
    continuedAfterStop := p.continuedAfterStop
    stall := ⟨p.stall.consecutiveRoundCount, p.stall.candidateFingerprint, p.stall.reviewFeedback⟩
    activeAudit := p.activeAudit.map storedAudit
    initialReviewCompleted := p.initialReviewCompleted
    initialReviews := p.initialReviews.map encodeReview
    initialFailures := p.initialFailures }

theorem encodeCandidates_eq {cs : List ExecutorRoundArtifact} {ds : List CheckpointCandidate}
    (h : encodeCandidates cs = .ok ds) : ds = cs.map storedCandidate := by
  apply eq_map_of_mapM _ h
  intro c d hd
  unfold encodeCandidate at hd
  split at hd
  · simp at hd
  · rename_i identity hid
    simp only [Except.ok.injEq] at hd
    rw [← hd]
    simp [storedCandidate, hid]

theorem encodeOptional_eq {cs : Option (List ExecutorRoundArtifact)} {ds : Option (List CheckpointCandidate)}
    (h : encodeOptional cs = .ok ds) : ds = cs.map (·.map storedCandidate) := by
  cases cs with
  | none => simpa [encodeOptional, eq_comm] using h
  | some cs =>
    simp only [encodeOptional] at h
    cases henc : encodeCandidates cs with
    | error e => simp [henc, Except.map] at h
    | ok es =>
      rw [henc] at h
      simp only [Except.map, Except.ok.injEq] at h
      rw [← h, encodeCandidates_eq henc, Option.map_some]

theorem encodeAudit_eq {act : AuditRoundProgress} {stored : CheckpointAuditProgress}
    (h : encodeAudit act = .ok stored) : stored = storedAudit act := by
  unfold encodeAudit at h
  simp only [do_eq_ok] at h
  obtain ⟨es, hes, prev, hprev, latest, hlatest, h⟩ := h
  simp only [pure, Except.pure, Except.ok.injEq] at h
  rw [← h, encodeCandidates_eq hes, encodeOptional_eq hprev, encodeOptional_eq hlatest]
  rfl

/-- Encoding either fails or gives the stored progress. -/
theorem encodeProgress_eq {p : ReviewLoopProgress} {stored : CheckpointProgress}
    (h : encodeProgress p = .ok stored) : stored = storedProgress p := by
  unfold encodeProgress at h
  simp only [do_eq_ok] at h
  obtain ⟨act, hact, latest, hlatest, h⟩ := h
  have hactive : act = p.activeAudit.map storedAudit := by
    cases hp : p.activeAudit with
    | none => simpa [hp, encodeActive, eq_comm] using hact
    | some active =>
      simp only [hp, encodeActive] at hact
      cases henc : encodeAudit active with
      | error e => simp [henc, Except.map] at hact
      | ok es =>
        rw [henc] at hact
        simp only [Except.map, Except.ok.injEq] at hact
        rw [← hact, encodeAudit_eq henc, Option.map_some]
  simp only [pure, Except.pure, Except.ok.injEq] at h
  rw [← h, encodeOptional_eq hlatest, hactive]
  rfl

theorem storedProgress_candidates (p : ReviewLoopProgress) :
    (storedProgress p).candidates = p.candidates.map storedCandidate := by
  unfold CheckpointProgress.candidates ReviewLoopProgress.candidates storedProgress
  cases p.latestExecutorOutputs <;> cases p.activeAudit with
  | none => simp
  | some act =>
    cases hp : act.previousExecutorOutputs <;> cases hl : act.latestValidExecutorOutputs <;>
      simp [storedAudit, hp, hl]

theorem storedProgress_reviews (p : ReviewLoopProgress) :
    (storedProgress p).reviews = p.reviews.map encodeReview := by
  unfold CheckpointProgress.reviews ReviewLoopProgress.reviews storedProgress
  cases p.activeAudit <;> simp [storedAudit]

theorem storedProgress_failures (p : ReviewLoopProgress) : (storedProgress p).failures = p.failures := by
  unfold CheckpointProgress.failures ReviewLoopProgress.failures storedProgress
  cases p.activeAudit <;> simp [storedAudit]

/-! ## Carried outputs have their own paths -/

section Carried

variable {ctx : Context} {p : ReviewLoopProgress} {top : Nat × Nat}

theorem Coherent.candidate_eq (hnode : NodeOk ctx.node) (h : Coherent ctx p top) {c d : ExecutorRoundArtifact}
    (hc : c ∈ p.candidates) (hd : d ∈ p.candidates) (hfile : c.outputFile = d.outputFile) : c = d := by
  obtain ⟨a, r, hca, hga, -, -⟩ := h.candidates c hc
  obtain ⟨b, q, hdb, hgb, -, -⟩ := h.candidates d hd
  obtain ⟨rfl, htask, rfl⟩ := hga.coordinates_of_file hgb hca hdb hfile
  exact hga.eq_of_taskId hnode hca hdb htask

theorem Coherent.review_eq (hnode : NodeOk ctx.node) (h : Coherent ctx p top) {v w : ReviewerRoundArtifact}
    (hv : v ∈ p.reviews) (hw : w ∈ p.reviews) (hfile : v.outputFile = w.outputFile) : v = w := by
  obtain ⟨a, r, hva, hba⟩ := h.reviews v hv
  obtain ⟨b, q, hwb, hbb⟩ := h.reviews w hw
  rw [(hba.batch.review hva).2.2.1, (hbb.batch.review hwb).2.2.1] at hfile
  obtain ⟨rfl, htask, rfl⟩ := outputPath_inj ⟨hba.audit_pos, hba.audit_le⟩ ⟨hbb.audit_pos, hbb.audit_le⟩ hfile
  exact hba.batch.eq_of_taskId hnode hva hwb htask

/-- Executors and reviewers are different tasks, so their outputs have different paths. -/
theorem Coherent.candidate_ne_review (hnode : NodeOk ctx.node) (h : Coherent ctx p top) {c : ExecutorRoundArtifact}
    {v : ReviewerRoundArtifact} (hc : c ∈ p.candidates) (hv : v ∈ p.reviews) : c.outputFile ≠ v.outputFile := by
  intro hfile
  obtain ⟨a, r, hca, hga, -, -⟩ := h.candidates c hc
  obtain ⟨b, q, hvb, hbb⟩ := h.reviews v hv
  obtain ⟨hprov, htask, hpath, -⟩ := hbb.batch.review hvb
  rw [(hga.outputs c hca).file, hpath] at hfile
  obtain ⟨-, hsame, -⟩ := outputPath_inj ⟨hga.audit_pos, hga.audit_le⟩ ⟨hbb.audit_pos, hbb.audit_le⟩ hfile
  rw [(hga.outputs c hca).task, htask] at hsame
  have heq := provider_eq_of_taskId hnode (hga.provider_mem hca).1 (mem_reviewers.mp hprov).1 hsame
  have hrole := (hga.provider_mem hca).2
  rw [heq, (mem_reviewers.mp hprov).2] at hrole
  cases hrole

theorem Coherent.candidate_signature (h : Coherent ctx p top) {c : ExecutorRoundArtifact} (hc : c ∈ p.candidates) :
    ∃ signature, c.outputSignature = some signature ∧ ctx.readOutput signature = c.content := by
  obtain ⟨a, r, hca, hga, hv, -⟩ := h.candidates c hc
  exact hv.signature hga hca

theorem Coherent.review_signature (h : Coherent ctx p top) {v : ReviewerRoundArtifact} (hv : v ∈ p.reviews) :
    ∃ signature, v.outputSignature = some signature := by
  obtain ⟨a, r, hva, hba⟩ := h.reviews v hv
  exact (hba.batch.review hva).2.2.2.2.2

/-- The registry's entries are those of the carried outputs. -/
theorem exists_publications_entries (p : ReviewLoopProgress) :
    ∃ entries : List (RelPath × ContentSignature), p.publications = Dict.ofPairs entries ∧
      ∀ path signature, (path, signature) ∈ entries ↔
        (∃ c ∈ p.candidates, c.outputSignature = some signature ∧ c.outputFile = path) ∨
        ∃ v ∈ p.reviews, v.outputSignature = some signature ∧ v.outputFile = path := by
  refine ⟨_, rfl, ?_⟩
  intro path signature
  unfold ReviewLoopProgress.candidates ReviewLoopProgress.reviews
  cases p.activeAudit with
  | none =>
    simp only [List.append_nil, List.mem_append, List.mem_filterMap, Option.map_eq_some_iff, Prod.mk.injEq,
      exists_eq_right_right, or_and_right, exists_or]
    exact iff_of_eq (by ac_rfl)
  | some act =>
    simp only [List.mem_append, List.mem_filterMap, Option.map_eq_some_iff, Prod.mk.injEq,
      exists_eq_right_right, or_and_right, exists_or]
    exact iff_of_eq (by ac_rfl)

theorem Coherent.published_candidate (hnode : NodeOk ctx.node) (h : Coherent ctx p top) {c : ExecutorRoundArtifact}
    (hc : c ∈ p.candidates) {signature : ContentSignature} (hs : c.outputSignature = some signature) :
    p.publications.get? c.outputFile = some signature := by
  obtain ⟨entries, hpub, hentries⟩ := exists_publications_entries p
  rw [hpub]
  apply Dict.get?_ofPairs ((hentries _ _).mpr (Or.inl ⟨c, hc, hs, rfl⟩))
  intro s hmem
  rcases (hentries _ _).mp hmem with ⟨d, hd, hds, hfile⟩ | ⟨v, hv, -, hfile⟩
  · rw [h.candidate_eq hnode hd hc hfile, hs] at hds
    exact (Option.some.inj hds).symm
  · exact absurd hfile.symm (h.candidate_ne_review hnode hc hv)

theorem Coherent.published_review (hnode : NodeOk ctx.node) (h : Coherent ctx p top) {v : ReviewerRoundArtifact}
    (hv : v ∈ p.reviews) {signature : ContentSignature} (hs : v.outputSignature = some signature) :
    p.publications.get? v.outputFile = some signature := by
  obtain ⟨entries, hpub, hentries⟩ := exists_publications_entries p
  rw [hpub]
  apply Dict.get?_ofPairs ((hentries _ _).mpr (Or.inr ⟨v, hv, hs, rfl⟩))
  intro s hmem
  rcases (hentries _ _).mp hmem with ⟨c, hc, -, hfile⟩ | ⟨w, hw, hws, hfile⟩
  · exact absurd hfile (h.candidate_ne_review hnode hc hv)
  · rw [h.review_eq hnode hw hv hfile, hs] at hws
    exact (Option.some.inj hws).symm

end Carried

/-! ## Descriptors by path -/

section Descriptors

theorem describeCheckpointFile_eq_ok {ev : Evidence} {path : RelPath} {i : CheckpointInvocation}
    {purpose : FilePurpose} {expected : Option ContentSignature} {f : CheckpointFile}
    (h : describeCheckpointFile ev path i purpose expected = .ok f) :
    f.toCheckpointInvocation = i ∧ f.purpose = purpose ∧ f.relativePath = path ∧
    ev.fileSignature path = some f.signature ∧ ∀ s, expected = some s → f.signature = s := by
  unfold describeCheckpointFile at h
  split at h
  · simp at h
  · rename_i actual hactual
    split at h
    · rename_i hexpected
      simp only [Except.ok.injEq] at h
      subst h
      refine ⟨rfl, rfl, rfl, hactual, ?_⟩
      rintro s rfl
      simpa [eq_comm] using hexpected
    · simp at h

theorem CheckpointFile.ext_fields {f g : CheckpointFile} (h1 : f.toCheckpointInvocation = g.toCheckpointInvocation)
    (h2 : f.purpose = g.purpose) (h3 : f.relativePath = g.relativePath) (h4 : f.signature = g.signature) : f = g := by
  cases f
  cases g
  simp_all

theorem mem_of_mem_dedupByPath {f : CheckpointFile} {fs : List CheckpointFile} (h : f ∈ dedupByPath fs) : f ∈ fs := by
  unfold dedupByPath Dict.values at h
  obtain ⟨e, he, rfl⟩ := List.mem_map.mp h
  obtain ⟨g, hg, rfl⟩ := List.mem_map.mp (Dict.mem_of_mem_ofPairs he)
  exact hg

theorem nodup_dedupByPath (fs : List CheckpointFile) : ((dedupByPath fs).map (·.relativePath)).Nodup := by
  have hkeys := Dict.nodup_keys_ofPairs (fs.map fun f => (f.relativePath, f))
  have hpaths : (dedupByPath fs).map (·.relativePath) =
      Dict.keys (Dict.ofPairs (fs.map fun f => (f.relativePath, f))) := by
    unfold dedupByPath Dict.values Dict.keys
    rw [List.map_map]
    apply List.map_congr_left
    intro e he
    obtain ⟨g, -, rfl⟩ := List.mem_map.mp (Dict.mem_of_mem_ofPairs he)
    rfl
  rw [hpaths]
  exact hkeys

theorem mem_dedupByPath {f : CheckpointFile} {fs : List CheckpointFile} (hf : f ∈ fs)
    (hone : ∀ g ∈ fs, g.relativePath = f.relativePath → g = f) : f ∈ dedupByPath fs := by
  have hget := Dict.get?_ofPairs_key hf hone
  exact List.mem_map.mpr ⟨(f.relativePath, f), Dict.mem_of_get? hget, rfl⟩

theorem byPath_of_mem {cp : OpenReviewCheckpoint} (hn : (cp.files.map (·.relativePath)).Nodup) {f : CheckpointFile}
    (hf : f ∈ cp.files) : cp.byPath.get? f.relativePath = some f := by
  apply Dict.get?_ofPairs_key hf
  intro g hg hpath
  exact List.inj_on_of_nodup_map hn hg hf hpath

end Descriptors

/-! ## Where the files are -/

/-- The last character of the file name, which tells outputs from sidecars. -/
def lastChar (path : RelPath) : Option Char := (path.getLastD "").toList.getLast?

section Paths

variable {ctx : Context}

theorem lastChar_append (dir : RelPath) (stem : String) {suffix : String} {c : Char}
    (h : suffix.toList.getLast? = some c) : lastChar (dir ++ [stem ++ suffix]) = some c := by
  simp [lastChar, h]

theorem lastChar_append_below (dir : RelPath) (name stem : String) {suffix : String} {c : Char}
    (h : suffix.toList.getLast? = some c) : lastChar (dir ++ [name, stem ++ suffix]) = some c := by
  rw [List.append_cons]
  exact lastChar_append _ stem h

theorem lastChar_outputPath (a : Nat) (t : TaskId) (r : Nat) : lastChar (outputPath ctx a t r) = some 'd' := by
  unfold outputPath buildTaskRoundFilename
  exact lastChar_append _ _ (by simp)

theorem length_auditRoundDir (ctx : Context) (a b : Nat) :
    (auditRoundDir ctx a).length = (auditRoundDir ctx b).length := by
  rw [auditRoundDir_eq, auditRoundDir_eq]
  split <;> simp

theorem length_outputPath (a : Nat) (t : TaskId) (r : Nat) :
    (outputPath ctx a t r).length = (auditRoundDir ctx a).length + 1 := by
  simp [outputPath]

/-- Sidecars never end like an output. -/
theorem lastChar_reviewEvidencePaths {stored : CheckpointProgress}
    {e : CheckpointInvocation × RelPath × FilePurpose} (he : e ∈ reviewEvidencePaths ctx stored) :
    lastChar e.2.1 = some 'n' ∨ lastChar e.2.1 = some 't' := by
  unfold reviewEvidencePaths withSuffix reviewStateRelativePath buildReviewerStateFilename at he
  rw [List.mem_append, List.mem_append] at he
  rcases he with (he | he) | he
  · obtain ⟨r, -, he⟩ := List.mem_flatMap.mp he
    simp only [List.mem_cons, List.not_mem_nil, or_false] at he
    rcases he with rfl | rfl | rfl
    · exact Or.inl (lastChar_append _ _ (by simp))
    · exact Or.inr (lastChar_append _ _ (by simp))
    · exact Or.inl (lastChar_append_below _ _ _ (by simp))
  · obtain ⟨f, -, rfl⟩ := List.mem_map.mp he
    exact Or.inl (lastChar_append_below _ _ _ (by simp))
  · obtain ⟨c, -, rfl⟩ := List.mem_map.mp he
    exact Or.inl (lastChar_append _ _ (by simp))

end Paths

/-! ## The parts of a checkpoint -/

/-- What a checkpoint is put together from. -/
structure Assembly (ctx : Context) (ev : Evidence) (p : ReviewLoopProgress) (phase : CheckpointPhase) (r : Nat)
    (cp : OpenReviewCheckpoint) (outs evs gens wfs : List CheckpointFile)
    (mappings : List CheckpointGeneratedMapping) (wss : List CheckpointWorkspace) : Prop where
  encoded : encodeProgress p = .ok (storedProgress p)
  outputs : outputDependencies ev p.publications (storedProgress p) = .ok outs
  evidence : describeReviewEvidence ctx ev (storedProgress p) = .ok evs
  generated : generatedDependencies ctx ev (outs ++ evs) = .ok (mappings, gens)
  workspaces : prepareCheckpointWorkspaces ctx ev (storedProgress p) = .ok (wss, wfs)
  checkpoint : cp =
    { nodeId := ctx.node.id, expansion := ctx.node.expansion, tasks := nodeTasks ctx.node, audit := p.cursorAudit
      localRound := r, nextPhase := phase, progress := storedProgress p
      files := dedupByPath (outs ++ evs ++ gens ++ wfs)
      generatedMappings := mappings, workspaces := wss }

theorem assembly_of_prepareCheckpoint {ctx : Context} {ev : Evidence} {p : ReviewLoopProgress}
    {phase : CheckpointPhase} {r : Nat} {cp : OpenReviewCheckpoint} (h : prepareCheckpoint ctx ev p phase r = .ok cp) :
    ∃ outputs evidence generated workspaceFiles mappings workspaces,
      Assembly ctx ev p phase r cp outputs evidence generated workspaceFiles mappings workspaces := by
  unfold prepareCheckpoint at h
  simp only [do_eq_ok] at h
  obtain ⟨stored, hstored, outputs, hout, evidence, hev, ⟨mappings, generated⟩, hgen, ⟨workspaces, wfiles⟩, hws, h⟩ := h
  obtain rfl := encodeProgress_eq hstored
  simp only [pure, Except.pure, Except.ok.injEq] at h
  exact ⟨outputs, evidence, generated, wfiles, mappings, workspaces, hstored, hout, hev, hgen, hws, h.symm⟩

section Parts

variable {ctx : Context} {ev : Evidence} {p : ReviewLoopProgress} {phase : CheckpointPhase} {r : Nat}
  {cp : OpenReviewCheckpoint} {outputs evidence generated workspaceFiles : List CheckpointFile}
  {mappings : List CheckpointGeneratedMapping} {workspaces : List CheckpointWorkspace}

theorem mem_carriedOutputs {o : CheckpointInvocation × RelPath × FilePurpose} :
    o ∈ carriedOutputs (storedProgress p) ↔
      (∃ c ∈ p.candidates, o = (⟨c.taskId, .executor, c.producerAudit, c.producerRound⟩, c.outputFile,
        .executorOutput)) ∨
      ∃ v ∈ p.reviews, o = ((encodeReview v).toCheckpointInvocation, v.outputFile, .reviewerOutput) := by
  unfold carriedOutputs
  rw [storedProgress_candidates, storedProgress_reviews, List.map_map, List.map_map, List.mem_append, List.mem_map,
    List.mem_map]
  simp only [Function.comp_apply, eq_comm]
  rfl

/-- An output descriptor describes a carried output. -/
theorem outputDependencies_mem (h : outputDependencies ev p.publications (storedProgress p) = .ok outputs)
    {f : CheckpointFile} (hf : f ∈ outputs) : ∃ o ∈ carriedOutputs (storedProgress p),
      f.toCheckpointInvocation = o.1 ∧ f.relativePath = o.2.1 ∧ f.purpose = o.2.2 := by
  unfold outputDependencies at h
  simp only [do_eq_ok] at h
  obtain ⟨files, hfiles, h⟩ := h
  simp only [pure, Except.pure, Except.ok.injEq] at h
  subst h
  obtain ⟨o, ho, hdesc⟩ := exists_of_mem_mapM hfiles (mem_of_mem_dedupByPath hf)
  split at hdesc
  · simp at hdesc
  · obtain ⟨hinv, hpurpose, hpath, -⟩ := describeCheckpointFile_eq_ok hdesc
    exact ⟨o, ho, hinv, hpath, hpurpose⟩

/-- A carried output whose path no other one has is described, with its published signature. -/
theorem mem_outputDependencies (h : outputDependencies ev p.publications (storedProgress p) = .ok outputs)
    {o : CheckpointInvocation × RelPath × FilePurpose} (ho : o ∈ carriedOutputs (storedProgress p))
    (hone : ∀ o' ∈ carriedOutputs (storedProgress p), o'.2.1 = o.2.1 → o' = o) :
    ∃ signature, p.publications.get? o.2.1 = some signature ∧
      ({ o.1 with purpose := o.2.2, relativePath := o.2.1, signature } : CheckpointFile) ∈ outputs := by
  unfold outputDependencies at h
  simp only [do_eq_ok] at h
  obtain ⟨files, hfiles, h⟩ := h
  simp only [pure, Except.pure, Except.ok.injEq] at h
  subst h
  obtain ⟨f, hf, hdesc⟩ := mem_mapM_of_mem hfiles ho
  split at hdesc
  · simp at hdesc
  · rename_i signature hsig
    obtain ⟨hinv, hpurpose, hpath, hcurrent, hexpected⟩ := describeCheckpointFile_eq_ok hdesc
    refine ⟨signature, hsig, ?_⟩
    obtain rfl : f = { o.1 with purpose := o.2.2, relativePath := o.2.1, signature } :=
      CheckpointFile.ext_fields hinv hpurpose hpath (hexpected signature rfl)
    apply mem_dedupByPath hf
    intro g hg hgpath
    obtain ⟨o', ho', hdesc'⟩ := exists_of_mem_mapM hfiles hg
    split at hdesc'
    · simp at hdesc'
    · obtain ⟨hinv', hpurpose', hpath', hcurrent', -⟩ := describeCheckpointFile_eq_ok hdesc'
      obtain rfl := hone o' ho' (by rw [← hpath', hgpath])
      rw [hcurrent] at hcurrent'
      exact CheckpointFile.ext_fields hinv' hpurpose' hpath' (Option.some.inj hcurrent').symm

theorem describeReviewEvidence_mem {stored : CheckpointProgress}
    (h : describeReviewEvidence ctx ev stored = .ok evidence) {f : CheckpointFile} (hf : f ∈ evidence) :
    ∃ e ∈ reviewEvidencePaths ctx stored,
      f.toCheckpointInvocation = e.1 ∧ f.relativePath = e.2.1 ∧ f.purpose = e.2.2 := by
  unfold describeReviewEvidence at h
  simp only [do_eq_ok] at h
  obtain ⟨files, hfiles, h⟩ := h
  simp only [pure, Except.pure, Except.ok.injEq] at h
  subst h
  obtain ⟨e, he, hdesc⟩ := exists_of_mem_mapM hfiles (mem_of_mem_dedupByPath hf)
  obtain ⟨hinv, hpurpose, hpath, -⟩ := describeCheckpointFile_eq_ok hdesc
  exact ⟨e, he, hinv, hpath, hpurpose⟩

/-- A generated file belongs to an output, below the generated sources of some audit. -/
theorem describeGeneratedMapping_mem {output : CheckpointFile} {snapshot : Option GeneratedSnapshot}
    {described : CheckpointGeneratedMapping × List CheckpointFile}
    (h : describeGeneratedMapping ctx ev output snapshot = .ok described) :
    described.1.outputPath = output.relativePath ∧ ∀ f ∈ described.2,
      f.toCheckpointInvocation = output.toCheckpointInvocation ∧
      ∃ s rest, f.relativePath = generatedFileSourceRoot ctx s ++ rest := by
  unfold describeGeneratedMapping at h
  split at h
  · simp only [Except.ok.injEq] at h
    subst h
    simp
  · rename_i s
    simp only [do_eq_ok] at h
    obtain ⟨metadata, hmeta, files, hfiles, h⟩ := h
    simp only [pure, Except.pure, Except.ok.injEq] at h
    subst h
    refine ⟨rfl, ?_⟩
    intro f hf
    rcases List.mem_append.mp hf with hf | hf
    · obtain ⟨name, -, hdesc⟩ := exists_of_mem_mapM hmeta hf
      obtain ⟨hinv, -, hpath, -⟩ := describeCheckpointFile_eq_ok hdesc
      exact ⟨hinv, s, [name], hpath⟩
    · obtain ⟨g, -, hdesc⟩ := exists_of_mem_mapM hfiles hf
      obtain ⟨hinv, -, hpath, -⟩ := describeCheckpointFile_eq_ok hdesc
      exact ⟨hinv, s, g.1, hpath⟩

theorem generatedDependencies_mem {files : List CheckpointFile}
    (h : generatedDependencies ctx ev files = .ok (mappings, generated)) :
    (∀ f ∈ generated, (∃ g ∈ files, f.toCheckpointInvocation = g.toCheckpointInvocation) ∧
      ∃ s rest, f.relativePath = generatedFileSourceRoot ctx s ++ rest) := by
  unfold generatedDependencies at h
  simp only [do_eq_ok] at h
  obtain ⟨described, hdescribed, h⟩ := h
  simp only [pure, Except.pure, Except.ok.injEq, Prod.mk.injEq] at h
  obtain ⟨-, rfl⟩ := h
  intro f hf
  obtain ⟨d, hd, hfd⟩ := List.mem_flatMap.mp hf
  obtain ⟨c, hc, hcd⟩ := exists_of_mem_mapM hdescribed hd
  obtain ⟨g, hg, hgc⟩ := List.mem_filterMap.mp hc
  obtain ⟨snapshot, -, rfl⟩ := Option.map_eq_some_iff.mp hgc
  obtain ⟨hinv, hpath⟩ := (describeGeneratedMapping_mem hcd).2 f hfd
  exact ⟨⟨g, List.mem_of_mem_filter hg, hinv⟩, hpath⟩

/-- The mappings are those of the outputs that have a capture, in the order of the files. -/
theorem generatedDependencies_mappings {files : List CheckpointFile}
    (h : generatedDependencies ctx ev files = .ok (mappings, generated)) :
    mappings.map (·.outputPath) =
      ((files.filter fun f => f.purpose = .executorOutput ∨ f.purpose = .reviewerOutput).filter
        fun f => (ev.generatedRoots f.relativePath).isSome).map (·.relativePath) := by
  unfold generatedDependencies at h
  simp only [do_eq_ok] at h
  obtain ⟨described, hdescribed, h⟩ := h
  simp only [pure, Except.pure, Except.ok.injEq, Prod.mk.injEq] at h
  obtain ⟨rfl, -⟩ := h
  generalize files.filter (fun f => decide (f.purpose = .executorOutput ∨ f.purpose = .reviewerOutput)) = fs at *
  induction fs generalizing described with
  | nil =>
    rw [List.filterMap_nil, mapM_eq_ok_nil] at hdescribed
    simp [hdescribed]
  | cons f fs ih =>
    cases hroot : ev.generatedRoots f.relativePath with
    | none =>
      rw [List.filterMap_cons_none (by simp [hroot])] at hdescribed
      rw [List.filter_cons_of_neg (by simp [hroot])]
      exact ih described hdescribed
    | some snapshot =>
      rw [List.filterMap_cons_some (b := (f, snapshot)) (by simp [hroot])] at hdescribed
      obtain ⟨d, ds, hd, hds, rfl⟩ := mapM_eq_ok_cons.mp hdescribed
      rw [List.filter_cons_of_pos (by simp [hroot]), List.map_cons, List.map_cons, List.map_cons,
        (describeGeneratedMapping_mem hd).1, ih ds hds]

theorem prepareCheckpointWorkspaces_eq_ok {stored : CheckpointProgress}
    (h : prepareCheckpointWorkspaces ctx ev stored = .ok (workspaces, workspaceFiles)) :
    (workspaces = [] ∧ workspaceFiles = []) ∨
    ∃ payloads files, ev.workspacePayloads stored = .ok payloads ∧
      (∀ e ∈ payloads, validatePayload ctx ev e = .ok ()) ∧
      payloads.mapM (Review.workspaceFiles ctx ev) = .ok files ∧
      workspaces = payloads.map (fun e =>
        { e.2.invocation with snapshotPath := snapshotPath ctx e.2, destinationPath := e.1 }) ∧
      workspaceFiles = dedupByPath files.flatten := by
  unfold prepareCheckpointWorkspaces at h
  split at h
  · simp only [do_eq_ok] at h
    obtain ⟨payloads, hpay, ⟨⟩, hvalid, files, hfiles, h⟩ := h
    simp only [pure, Except.pure, Except.ok.injEq, Prod.mk.injEq] at h
    rw [checkAll_eq_ok] at hvalid
    exact Or.inr ⟨payloads, files, hpay, hvalid, hfiles, h.1.symm, h.2.symm⟩
  · simp only [Except.ok.injEq, Prod.mk.injEq] at h
    exact Or.inl ⟨h.1.symm, h.2.symm⟩

/-- The descriptor of a workspace snapshot. -/
def snapshotFile (ctx : Context) (payload : WorkspacePayload) : CheckpointFile :=
  { payload.invocation with
    purpose := .workspaceState, relativePath := snapshotPath ctx payload, signature := payload.signature }

/-- The files of one recorded state: its snapshot, a bundle, and setup evidence. -/
theorem workspaceFiles_mem {e : RelPath × WorkspacePayload} {fs : List CheckpointFile}
    (h : Review.workspaceFiles ctx ev e = .ok fs) {f : CheckpointFile} (hf : f ∈ fs) :
    f.toCheckpointInvocation = e.2.invocation ∧
      (f = snapshotFile ctx e.2 ∨
        (∃ name, f.relativePath = stageDir ctx ++ ["workspace-bundles", name ++ ".bundle"]) ∨
        (∃ name, f.relativePath = stageDir ctx ++ ["workspace-setup", name ++ ".json"]) ∨
        ∃ name, f.relativePath = stageDir ctx ++ ["workspace-setup", name ++ ".log"]) := by
  unfold Review.workspaceFiles workspaceDependencies at h
  simp only [do_eq_ok] at h
  obtain ⟨deps, ⟨bundle, hbundle, setup, hsetup, hdeps⟩, hall⟩ := h
  simp only [pure, Except.pure, Except.ok.injEq] at hdeps hall
  subst hdeps hall
  rcases List.mem_cons.mp hf with rfl | hf
  · exact ⟨rfl, Or.inl rfl⟩
  · rcases List.mem_append.mp hf with hf | hf
    · obtain ⟨name, -, hdesc⟩ := exists_of_mem_mapM hbundle hf
      obtain ⟨hinv, -, hpath, -⟩ := describeCheckpointFile_eq_ok hdesc
      exact ⟨hinv, Or.inr (Or.inl ⟨name, hpath⟩)⟩
    · unfold setupDependencies at hsetup
      split at hsetup
      · obtain ⟨name, hname, hdesc⟩ := exists_of_mem_mapM hsetup hf
        obtain ⟨hinv, -, hpath, -⟩ := describeCheckpointFile_eq_ok hdesc
        simp only [List.mem_cons, List.not_mem_nil, or_false] at hname
        rcases hname with rfl | rfl
        · exact ⟨hinv, Or.inr (Or.inr (Or.inl ⟨_, hpath⟩))⟩
        · exact ⟨hinv, Or.inr (Or.inr (Or.inr ⟨_, hpath⟩))⟩
      · simp only [Except.ok.injEq] at hsetup
        simp [← hsetup] at hf

/-- No file of a workspace ends like an output. -/
theorem lastChar_workspaceFiles {stored : CheckpointProgress}
    (h : prepareCheckpointWorkspaces ctx ev stored = .ok (workspaces, workspaceFiles)) {f : CheckpointFile}
    (hf : f ∈ workspaceFiles) : lastChar f.relativePath ≠ some 'd' := by
  rcases prepareCheckpointWorkspaces_eq_ok h with ⟨-, rfl⟩ | ⟨payloads, files, -, -, hfiles, -, rfl⟩
  · simp at hf
  · obtain ⟨fs, hfs, hffs⟩ := List.mem_flatten.mp (mem_of_mem_dedupByPath hf)
    obtain ⟨e, -, hefs⟩ := exists_of_mem_mapM hfiles hfs
    rcases (workspaceFiles_mem hefs hffs).2 with rfl | ⟨name, hpath⟩ | ⟨name, hpath⟩ | ⟨name, hpath⟩
    · have hlast : lastChar (snapshotPath ctx e.2) = some 'n' := by
        have hjson : ".json".toList.getLast? = some 'n' := by simp
        have hdir := lastChar_append_below (stageDir ctx ++ ["review-state", "checkpoints"]) "workspaces"
          (e.2.slug ++ "--" ++ String.ofList (e.2.signature.sha256.toList.take 16)) hjson
        simpa [snapshotPath] using hdir
      change lastChar (snapshotPath ctx e.2) ≠ some 'd'
      rw [hlast]
      decide
    · rw [hpath, lastChar_append_below (c := 'e') _ _ _ (by simp)]
      decide
    · rw [hpath, lastChar_append_below (c := 'n') _ _ _ (by simp)]
      decide
    · rw [hpath, lastChar_append_below (c := 'g') _ _ _ (by simp)]
      decide

/-! ## Looking outputs up -/

/-- The descriptor of an output is the only one at its path. -/
theorem Assembly.lookup
    (h : Assembly ctx ev p phase r cp outputs evidence generated workspaceFiles mappings workspaces)
    {f : CheckpointFile} (hf : f ∈ outputs) {a q : Nat} {t : TaskId} (hpath : f.relativePath = outputPath ctx a t q) :
    cp.byPath.get? f.relativePath = some f := by
  have hfiles : cp.files = dedupByPath (outputs ++ evidence ++ generated ++ workspaceFiles) := by rw [h.checkpoint]
  have hd : lastChar f.relativePath = some 'd' := by rw [hpath, lastChar_outputPath]
  have hn : (outputs.map (·.relativePath)).Nodup := by
    have hout := h.outputs
    unfold outputDependencies at hout
    simp only [do_eq_ok] at hout
    obtain ⟨files, -, hout⟩ := hout
    simp only [pure, Except.pure, Except.ok.injEq] at hout
    rw [← hout]
    exact nodup_dedupByPath files
  apply byPath_of_mem (by rw [hfiles]; exact nodup_dedupByPath _)
  rw [hfiles]
  apply mem_dedupByPath (by simp [hf])
  intro g hg hgf
  simp only [List.mem_append] at hg
  rcases hg with ((hg | hg) | hg) | hg
  · exact List.inj_on_of_nodup_map hn hg hf hgf
  · obtain ⟨e, he, -, hpath', -⟩ := describeReviewEvidence_mem h.evidence hg
    rw [← hgf, hpath'] at hd
    rcases lastChar_reviewEvidencePaths he with hl | hl <;> simp [hd] at hl
  · obtain ⟨-, s, rest, hpath'⟩ := generatedDependencies_mem h.generated g hg
    have hlen := congrArg List.length (hpath'.symm.trans (hgf.trans hpath))
    rw [length_outputPath, length_auditRoundDir ctx a s.owner.audit] at hlen
    simp [generatedFileSourceRoot] at hlen
  · rw [← hgf] at hd
    exact absurd hd (lastChar_workspaceFiles h.workspaces hg)

/-- Looking a candidate up finds who produced it and the bytes it is bound to. -/
theorem Assembly.candidate {top : Nat × Nat}
    (h : Assembly ctx ev p phase r cp outputs evidence generated workspaceFiles mappings workspaces)
    (hnode : NodeOk ctx.node) (hco : Coherent ctx p top) {c : ExecutorRoundArtifact} (hc : c ∈ p.candidates) :
    ∃ signature, c.outputSignature = some signature ∧ cp.byPath.get? c.outputFile = some
      { taskId := c.taskId, role := .executor, audit := c.producerAudit, localRound := c.producerRound
        purpose := .executorOutput, relativePath := c.outputFile, signature } := by
  obtain ⟨signature, hs, -⟩ := hco.candidate_signature hc
  obtain ⟨a, q, hca, hg, -, -⟩ := hco.candidates c hc
  have hone : ∀ o' ∈ carriedOutputs (storedProgress p), o'.2.1 = c.outputFile →
      o' = (⟨c.taskId, .executor, c.producerAudit, c.producerRound⟩, c.outputFile, .executorOutput) := by
    intro o' ho' hfile
    rcases mem_carriedOutputs.mp ho' with ⟨d, hd, rfl⟩ | ⟨v, hv, rfl⟩
    · rw [hco.candidate_eq hnode hd hc hfile]
    · exact absurd hfile.symm (hco.candidate_ne_review hnode hc hv)
  obtain ⟨signature', hpub, hmem⟩ := mem_outputDependencies h.outputs (mem_carriedOutputs.mpr (Or.inl ⟨c, hc, rfl⟩)) hone
  rw [hco.published_candidate hnode hc hs] at hpub
  obtain rfl := Option.some.inj hpub
  exact ⟨signature, hs, h.lookup hmem (hg.outputs c hca).file⟩

theorem Assembly.review {top : Nat × Nat}
    (h : Assembly ctx ev p phase r cp outputs evidence generated workspaceFiles mappings workspaces)
    (hnode : NodeOk ctx.node) (hco : Coherent ctx p top) {v : ReviewerRoundArtifact} (hv : v ∈ p.reviews) :
    ∃ signature, v.outputSignature = some signature ∧ cp.byPath.get? v.outputFile = some
      { (encodeReview v).toCheckpointInvocation with
        purpose := .reviewerOutput, relativePath := v.outputFile, signature } := by
  obtain ⟨signature, hs⟩ := hco.review_signature hv
  obtain ⟨a, q, hva, hb⟩ := hco.reviews v hv
  have hone : ∀ o' ∈ carriedOutputs (storedProgress p), o'.2.1 = v.outputFile →
      o' = ((encodeReview v).toCheckpointInvocation, v.outputFile, .reviewerOutput) := by
    intro o' ho' hfile
    rcases mem_carriedOutputs.mp ho' with ⟨c, hc, rfl⟩ | ⟨w, hw, rfl⟩
    · exact absurd hfile (hco.candidate_ne_review hnode hc hv)
    · rw [hco.review_eq hnode hw hv hfile]
  obtain ⟨signature', hpub, hmem⟩ := mem_outputDependencies h.outputs (mem_carriedOutputs.mpr (Or.inr ⟨v, hv, rfl⟩)) hone
  rw [hco.published_review hnode hv hs] at hpub
  obtain rfl := Option.some.inj hpub
  exact ⟨signature, hs, h.lookup hmem (hb.batch.review hva).2.2.1⟩

end Parts

/-! ## Restoring a prepared checkpoint -/

section Restoring

variable {ctx : Context} {ev : Evidence} {p : ReviewLoopProgress} {phase : CheckpointPhase} {r : Nat}
  {cp : OpenReviewCheckpoint}

theorem restoreProvider_eq (hnode : NodeOk ctx.node) {provider : ProviderRecord}
    (h : provider ∈ ctx.node.providerRecords) : restoreProvider ctx provider.taskId = .ok provider := by
  have hget : (Dict.ofPairs (ctx.node.providerRecords.map fun p => (p.taskId, p))).get? provider.taskId =
      some provider :=
    Dict.get?_ofPairs_key h fun q hq heq => provider_eq_of_taskId hnode hq h heq
  simp only [restoreProvider, hget]

theorem restoreCandidate_stored (hnode : NodeOk ctx.node) (h : prepareCheckpoint ctx ev p phase r = .ok cp)
    {top : Nat × Nat} (hco : Coherent ctx p top) {c : ExecutorRoundArtifact} (hc : c ∈ p.candidates) :
    restoreCandidate ctx cp (storedCandidate c) = .ok c := by
  obtain ⟨outputs, evidence, generated, wfiles, mappings, workspaces, hasm⟩ := assembly_of_prepareCheckpoint h
  obtain ⟨signature, hs, hget⟩ := hasm.candidate hnode hco hc
  obtain ⟨signature', hs', hread⟩ := hco.candidate_signature hc
  obtain rfl := Option.some.inj (hs.symm.trans hs')
  obtain ⟨a, q, hca, hg, -, -⟩ := hco.candidates c hc
  have hout := hg.outputs c hca
  have hprovider := restoreProvider_eq hnode (hg.provider_mem hca).1
  rw [← hout.task] at hprovider
  obtain ⟨identity, hid⟩ := Option.isSome_iff_exists.mp hout.identity
  have haudit : restoreAuditNumber ctx (c.auditRoundNum.getD 1) = c.auditRoundNum := by
    rw [hout.audit, auditRoundContext_getD hg.audit_pos hg.audit_le]
    rfl
  have hfile : restoreFile cp c.outputFile = .ok
      { taskId := c.taskId, role := .executor, audit := c.producerAudit, localRound := c.producerRound
        purpose := .executorOutput, relativePath := c.outputFile, signature } := by
    simp only [restoreFile, hget]
  unfold restoreCandidate
  simp only [storedCandidate, hfile, hprovider, haudit, hid, Option.getD_some]
  cases c
  simp_all [bind, Except.bind, pure, Except.pure]

theorem restoreReview_stored (hnode : NodeOk ctx.node) (h : prepareCheckpoint ctx ev p phase r = .ok cp)
    {top : Nat × Nat} (hco : Coherent ctx p top) {v : ReviewerRoundArtifact} (hv : v ∈ p.reviews) :
    restoreReview ctx cp (encodeReview v) = .ok v := by
  obtain ⟨outputs, evidence, generated, wfiles, mappings, workspaces, hasm⟩ := assembly_of_prepareCheckpoint h
  obtain ⟨signature, hs, hget⟩ := hasm.review hnode hco hv
  obtain ⟨a, q, hva, hb⟩ := hco.reviews v hv
  obtain ⟨hprov, htask, -, hnum, -⟩ := hb.batch.review hva
  have hprovider := restoreProvider_eq hnode (mem_reviewers.mp hprov).1
  rw [← htask] at hprovider
  have haudit : restoreAuditNumber ctx (v.auditRoundNum.getD 1) = v.auditRoundNum := by
    rw [hnum, auditRoundContext_getD hb.audit_pos hb.audit_le]
    rfl
  have hfile : restoreFile cp v.outputFile = .ok
      { (encodeReview v).toCheckpointInvocation with
        purpose := .reviewerOutput, relativePath := v.outputFile, signature } := by
    simp only [restoreFile, hget]
  have heval : restoreEvaluation (encodeEvaluation v.evaluation) = v.evaluation := rfl
  have hvtask : (encodeReview v).taskId = v.taskId := rfl
  have hvpath : (encodeReview v).outputPath = v.outputFile := rfl
  have hvaudit : (encodeReview v).audit = v.auditRoundNum.getD 1 := rfl
  have hvround : (encodeReview v).localRound = v.roundNum := rfl
  have hveval : (encodeReview v).evaluation = encodeEvaluation v.evaluation := rfl
  unfold restoreReview
  rw [hvtask, hvpath, hvaudit, hvround, hveval, hprovider, hfile, haudit, heval]
  cases v
  simp_all [bind, Except.bind, pure, Except.pure]

theorem restoreCandidates_stored (hnode : NodeOk ctx.node) (h : prepareCheckpoint ctx ev p phase r = .ok cp)
    {top : Nat × Nat} (hco : Coherent ctx p top) {cs : List ExecutorRoundArtifact} (hcs : ∀ c ∈ cs, c ∈ p.candidates) :
    restoreCandidates ctx cp (cs.map storedCandidate) = .ok cs :=
  mapM_map_eq fun c hc => restoreCandidate_stored hnode h hco (hcs c hc)

theorem restoreOptional_stored (hnode : NodeOk ctx.node) (h : prepareCheckpoint ctx ev p phase r = .ok cp)
    {top : Nat × Nat} (hco : Coherent ctx p top) {cs : Option (List ExecutorRoundArtifact)}
    (hcs : ∀ c ∈ cs.getD [], c ∈ p.candidates) :
    restoreOptional ctx cp (cs.map (·.map storedCandidate)) = .ok cs := by
  cases cs with
  | none => rfl
  | some cs =>
    have hrestored : restoreCandidates ctx cp (cs.map storedCandidate) = .ok cs :=
      restoreCandidates_stored hnode h hco hcs
    rw [Option.map_some, restoreOptional, hrestored]
    rfl

theorem restoreReviews_stored (hnode : NodeOk ctx.node) (h : prepareCheckpoint ctx ev p phase r = .ok cp)
    {top : Nat × Nat} (hco : Coherent ctx p top) {vs : List ReviewerRoundArtifact} (hvs : ∀ v ∈ vs, v ∈ p.reviews) :
    restoreReviews ctx cp (vs.map encodeReview) = .ok vs :=
  mapM_map_eq fun v hv => restoreReview_stored hnode h hco (hvs v hv)

/-- The feedback of the active audit is what its reviews render to. -/
def PacketOk (p : ReviewLoopProgress) : Prop :=
  ∀ act ∈ p.activeAudit, act.previousReviewPacket =
    if act.previousExecutorOutputs.isSome then renderUnresolvedReviewPacket act.latestReviewerOutputs else none

theorem Boundary.packetOk (h : Boundary ctx p phase r) : PacketOk p := by
  intro act hmem
  cases h with
  | opening _ hidle _ => simp [hidle] at hmem
  | finish hfin => simp [hfin.idle] at hmem
  | remediation _ hact hadv _ =>
    obtain rfl := Option.some.inj (hact.symm.trans hmem)
    obtain ⟨q, cs, -, hh, -⟩ := hadv.state
    simp [hh.previous, hh.packet]
  | review _ hact hdue =>
    obtain rfl := Option.some.inj (hact.symm.trans hmem)
    rcases hdue.state with ⟨-, -, hblank⟩ | ⟨q, cs, -, hh⟩
    · simp [hblank.previous, hblank.packet]
    · simp [hh.previous, hh.packet]

theorem restoreAudit_stored (hnode : NodeOk ctx.node) (h : prepareCheckpoint ctx ev p phase r = .ok cp)
    {top : Nat × Nat} (hco : Coherent ctx p top) (hpacket : PacketOk p) {act : AuditRoundProgress}
    (hact : p.activeAudit = some act) : restoreAudit ctx cp (storedAudit act) = .ok act := by
  have hcands : ∀ cs : List ExecutorRoundArtifact, (∀ c ∈ cs, c ∈ act.executorOutputs ∨
      c ∈ act.previousExecutorOutputs.getD [] ∨ c ∈ act.latestValidExecutorOutputs.getD []) →
      ∀ c ∈ cs, c ∈ p.candidates := by
    intro cs hcs c hc
    have := hcs c hc
    simp only [ReviewLoopProgress.candidates, hact, List.mem_append]
    tauto
  have hreviews : restoreReviews ctx cp (act.latestReviewerOutputs.map encodeReview) = .ok act.latestReviewerOutputs :=
    restoreReviews_stored hnode h hco fun v hv => by simp [ReviewLoopProgress.reviews, hact, hv]
  have hexec := restoreCandidates_stored hnode h hco (hcands act.executorOutputs fun c hc => Or.inl hc)
  have hprev : restoreOptional ctx cp (act.previousExecutorOutputs.map (·.map storedCandidate)) =
      .ok act.previousExecutorOutputs :=
    restoreOptional_stored hnode h hco (hcands _ fun c hc => Or.inr (Or.inl hc))
  have hlatest : restoreOptional ctx cp (act.latestValidExecutorOutputs.map (·.map storedCandidate)) =
      .ok act.latestValidExecutorOutputs :=
    restoreOptional_stored hnode h hco (hcands _ fun c hc => Or.inr (Or.inr hc))
  have hpk := hpacket act hact
  unfold restoreAudit storedAudit
  simp only [hreviews, hexec, hprev, hlatest, Option.isSome_map, bind, Except.bind, pure, Except.pure, ← hpk]
  rfl

/-- Restoring a checkpoint taken at a boundary gives back the progress, with the cursor at the boundary. -/
theorem restore_prepared (hnode : NodeOk ctx.node) (hb : Boundary ctx p phase r)
    (h : prepareCheckpoint ctx ev p phase r = .ok cp) :
    restore ctx cp = .ok { p with nextPhase := phase, cursorRound := r } := by
  have hco := hb.coherent
  have hprogress : cp.progress = storedProgress p ∧ cp.audit = p.cursorAudit ∧ cp.localRound = r ∧
      cp.nextPhase = phase := by
    obtain ⟨outputs, evidence, generated, wfiles, mappings, workspaces, hasm⟩ := assembly_of_prepareCheckpoint h
    rw [hasm.checkpoint]
    exact ⟨rfl, rfl, rfl, rfl⟩
  obtain ⟨hstored, haudit, hround, hphase⟩ := hprogress
  have hlatest : restoreOptional ctx cp (p.latestExecutorOutputs.map (·.map storedCandidate)) =
      .ok p.latestExecutorOutputs :=
    restoreOptional_stored hnode h hco fun c hc => by simp [ReviewLoopProgress.candidates, hc]
  have hreviews : restoreReviews ctx cp (p.latestReviewerOutputs.map encodeReview) = .ok p.latestReviewerOutputs :=
    restoreReviews_stored hnode h hco fun v hv => by simp [ReviewLoopProgress.reviews, hv]
  have hinitial : restoreReviews ctx cp (p.initialReviews.map encodeReview) = .ok p.initialReviews :=
    restoreReviews_stored hnode h hco fun v hv => by simp [ReviewLoopProgress.reviews, hv]
  have hactive : restoreActive ctx cp (p.activeAudit.map storedAudit) = .ok p.activeAudit := by
    cases hact : p.activeAudit with
    | none => rfl
    | some act =>
      rw [Option.map_some, restoreActive, restoreAudit_stored hnode h hco hb.packetOk hact]
      rfl
  unfold restore
  rw [hstored, haudit, hround, hphase]
  simp only [storedProgress, hlatest, hreviews, hinitial, hactive, bind, Except.bind, pure, Except.pure]
  rfl

end Restoring

end Crewplane.Review
