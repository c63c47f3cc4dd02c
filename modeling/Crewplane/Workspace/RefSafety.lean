import Crewplane.Workspace.RefRepository
/-
# Refs under crashes and third parties

What the programs of RefPrograms do to one repository while any number of them run beside each other, are cut at any point
and are started again, and while third parties create, move and delete any ref.

Main results: a ref that a program created and nobody touched since is always named, at its object id, by evidence of its
owner that is not yet marked as removed, and a program changes a ref only by creating one that its evidence names or by
deleting one that resolves to what its evidence records (`refs_keep_evidence`); a cleanup that returns leaves no ref of its
owner behind (`cleanup_is_complete`).
-/
namespace Crewplane.Workspace

open Crewplane.Lib Relation

/-! ## The edits of the evidence -/

section Edits

variable {p q : WorkspaceState}

theorem claims_recorded {ref : Text × Text} (h : ref ∈ p.claims) : ref ∈ p.recorded := by
  simp only [WorkspaceState.claims, List.mem_append] at h
  simp only [WorkspaceState.recorded, List.mem_append]
  refine h.imp (fun hpublication => ?_) fun htemporary => ?_
  · cases hp : p.refPublication with
    | none => simp [WorkspaceState.publicationClaims, hp] at hpublication
    | some publication =>
      rw [publicationClaims_of hp] at hpublication
      split at hpublication
      · simp at hpublication
      · exact hpublication
  · obtain ⟨claim, hclaim, rfl⟩ := List.mem_map.1 htemporary
    exact List.mem_map_of_mem (List.mem_filter.1 hclaim).1

theorem claims_subset_of (hpublication : q.publicationClaims = p.publicationClaims)
    (htemporary : ∀ ref ∈ p.temporaryClaims, ref ∈ q.temporaryClaims) : ∀ ref ∈ p.claims, ref ∈ q.claims := by
  intro ref href
  rcases List.mem_append.1 href with h | h
  · exact List.mem_append_left _ (hpublication ▸ h)
  · exact List.mem_append_right _ (htemporary ref h)

theorem setRefPublication_ok {publication : RefPublication} (h : setRefPublication publication p = .ok q) :
    q.refPublication = some publication ∧ ∀ ref ∈ p.claims, ref ∈ q.claims := by
  unfold setRefPublication at h
  split at h
  next hnone =>
    obtain rfl := Except.ok.inj h
    refine ⟨rfl, fun ref href => ?_⟩
    rcases List.mem_append.1 href with hpublication | htemporary
    · simp [WorkspaceState.publicationClaims, hnone] at hpublication
    · exact List.mem_append_right _ htemporary
  next existing hsome =>
    split at h
    next heq =>
      obtain rfl := Except.ok.inj h
      exact ⟨heq ▸ hsome, fun _ => id⟩
    next => simp at h

theorem setRefPublicationPhase_ok {phase : RefPublicationPhase} (h : setRefPublicationPhase phase p = .ok q) :
    ∃ publication, p.refPublication = some publication ∧
      q = { p with refPublication := some { publication with phase := phase } } ∧
      (phase = publication.phase ∨ phaseTransition publication.phase phase = true) := by
  unfold setRefPublicationPhase at h
  split at h
  next => simp at h
  next publication hsome =>
    split at h
    next => simp at h
    next hallowed =>
      refine ⟨publication, hsome, (Except.ok.inj h).symm, ?_⟩
      by_cases heq : phase = publication.phase
      · exact .inl heq
      · simpa [heq] using hallowed

/-- The publication that is marked as published keeps its claims. -/
theorem published_claims (h : setRefPublicationPhase .published p = .ok q) : ∀ ref ∈ p.claims, ref ∈ q.claims := by
  obtain ⟨publication, hp, rfl, hphase⟩ := setRefPublicationPhase_ok h
  refine claims_subset_of ?_ fun _ => id
  rw [publicationClaims_of hp, publicationClaims_of rfl]
  have hpresent : publication.phase ≠ .removed := by
    rintro heq
    simp [heq, phaseTransition] at hphase
  simp [hpresent, RefPublication.recorded, RefPublication.destinations]

/-- Of what a removal drops, everything is of the publication. -/
theorem removed_claims (h : setRefPublicationPhase .removed p = .ok q) :
    q.publicationClaims = [] ∧ q.temporaryRefs = p.temporaryRefs ∧ ∃ publication, p.refPublication = some publication ∧
      ∀ ref ∈ p.claims, ref ∈ publication.recorded ∨ ref ∈ q.claims := by
  obtain ⟨publication, hp, rfl, -⟩ := setRefPublicationPhase_ok h
  refine ⟨by simp [WorkspaceState.publicationClaims], rfl, publication, hp, fun ref href => ?_⟩
  rcases List.mem_append.1 href with hpublication | htemporary
  · rw [publicationClaims_of hp] at hpublication
    split at hpublication
    · simp at hpublication
    · exact .inl hpublication
  · exact .inr (List.mem_append_right _ htemporary)

/-- A name that no claim has yet is recorded as prepared; nothing is dropped. -/
theorem recordTemporaryRef_ok {name oid : Text} (hfresh : ∀ claim ∈ p.temporaryRefs.getD [], claim.name ≠ name)
    (h : recordTemporaryRef name oid p = .ok q) :
    q.refPublication = p.refPublication ∧ (name, oid) ∈ q.claims ∧ (∀ ref ∈ p.claims, ref ∈ q.claims) ∧
      ∀ ref ∈ p.recorded, ref ∈ q.recorded := by
  have hnone : (p.temporaryRefs.getD []).filter (fun claim => claim.name = name) = [] := by
    simpa [List.filter_eq_nil_iff] using hfresh
  unfold recordTemporaryRef at h
  simp only [hnone] at h
  split at h
  next => simp at h
  next =>
    obtain rfl := Except.ok.inj h
    refine ⟨rfl, List.mem_append_right _ (mem_temporaryClaims.2 ?_), claims_subset_of rfl ?_, fun ref href => ?_⟩
    · simp
    · rintro ⟨n, o⟩ hold
      exact mem_temporaryClaims.2 (List.mem_append_left _ (mem_temporaryClaims.1 hold))
    · rcases List.mem_append.1 href with hpublication | htemporary
      · exact List.mem_append_left _ hpublication
      · exact List.mem_append_right _ (List.map_subset _ (List.subset_append_left _ _) htemporary)

theorem markTemporaryRefRemoved_ok {name : Text} (h : markTemporaryRefRemoved name p = .ok q) :
    ∃ claims, p.temporaryRefs = some claims ∧ q = { p with
      temporaryRefs := some (claims.map fun claim => if claim.name = name then { claim with phase := .removed } else claim) } := by
  unfold markTemporaryRefRemoved at h
  split at h
  next => simp at h
  next claims hsome =>
    split at h
    next => simp at h
    next =>
      split at h
      next => simp at h
      next => exact ⟨claims, hsome, (Except.ok.inj h).symm⟩

/-- What is still prepared after a mark was prepared before and has another name. -/
theorem prepared_of_marked {name n o : Text} (h : markTemporaryRefRemoved name p = .ok q)
    (hmem : ⟨.prepared, n, o⟩ ∈ q.temporaryRefs.getD []) : n ≠ name ∧ ⟨.prepared, n, o⟩ ∈ p.temporaryRefs.getD [] := by
  obtain ⟨claims, hp, rfl⟩ := markTemporaryRefRemoved_ok h
  simp only [Option.getD_some, List.mem_map] at hmem
  obtain ⟨⟨phase, n', o'⟩, hclaim, heq⟩ := hmem
  by_cases hname : n' = name
  · simp [hname] at heq
  · simp only [hname, if_false, TemporaryRefClaim.mk.injEq] at heq
    obtain ⟨rfl, rfl, rfl⟩ := heq
    exact ⟨hname, by simpa [hp] using hclaim⟩

/-- A mark drops claims of its own name only, and forgets no name. -/
theorem marked_claims {name : Text} (h : markTemporaryRefRemoved name p = .ok q) :
    q.refPublication = p.refPublication ∧ (∀ ref ∈ p.claims, ref.1 = name ∨ ref ∈ q.claims) ∧
      ∀ ref ∈ p.recorded, ref ∈ q.recorded := by
  obtain ⟨claims, hp, rfl⟩ := markTemporaryRefRemoved_ok h
  refine ⟨rfl, fun ref href => ?_, fun ref href => ?_⟩
  · rcases List.mem_append.1 href with hpublication | htemporary
    · exact .inr (List.mem_append_left _ hpublication)
    · obtain ⟨n, o⟩ := ref
      rw [mem_temporaryClaims, hp] at htemporary
      by_cases hname : n = name
      · exact .inl hname
      · refine .inr (List.mem_append_right _ (mem_temporaryClaims.2 ?_))
        exact List.mem_map.2 ⟨_, htemporary, by simp [hname]⟩
  · rcases List.mem_append.1 href with hpublication | htemporary
    · exact List.mem_append_left _ hpublication
    · rw [hp] at htemporary
      obtain ⟨claim, hclaim, rfl⟩ := List.mem_map.1 htemporary
      refine List.mem_append_right _ (List.mem_map.2 ⟨_, List.mem_map_of_mem hclaim, ?_⟩)
      by_cases hname : claim.name = name
      · simp [hname]
      · simp [hname]

end Edits

/-! ## Temporary refs -/

variable {ι : Type} [DecidableEq ι] {dedicated : ι → Prop} {i : ι} {file file' failed : Option WorkspaceState → Prop}
  {gone : Text → Prop} {s : Repository ι} (sha256 : Text → Text)

/-- The evidence names each of these refs, removed or not. -/
def Records (refs : List TemporaryImportRef) (f : Option WorkspaceState) : Prop :=
  ∀ ref ∈ refs, ∃ p, f = some p ∧ (ref.name, ref.targetOid) ∈ p.recorded

/-- A transaction after which no name is known to be gone. -/
theorem safe_create {operations : List RefOperation} (h : Holds dedicated i file nowhere s)
    (hcovered : ∀ f, file f → ∀ operation ∈ operations, operation.Covered f) :
    RefSafe dedicated i (fun _ => Holds dedicated i file nowhere) (Holds dedicated i file nowhere)
      (RefProg.transaction operations) s :=
  (safe_transaction h hcovered fun _ hn => hn.elim).conseq
    (fun _ _ h => h.weaken (fun _ hf => hf) fun _ hn => hn.elim) fun _ _ h => h

theorem Records.mono {refs refs' : List TemporaryImportRef} (h : ∀ ref ∈ refs', ref ∈ refs) {f : Option WorkspaceState}
    (hrecords : Records refs f) : Records refs' f := fun ref href => hrecords ref (h ref href)

theorem Records.grow {refs : List TemporaryImportRef} {p q : WorkspaceState} (h : ∀ ref ∈ p.recorded, ref ∈ q.recorded)
    (hrecords : Records refs (some p)) : Records refs (some q) := by
  intro ref href
  obtain ⟨p', hp, hmem⟩ := hrecords ref href
  obtain rfl := Option.some.inj hp
  exact ⟨q, rfl, h _ hmem⟩

theorem safe_markTemporaryRefRemoved {name : Text} (h : Holds dedicated i file gone s) (hname : gone name)
    (hkeep : ∀ f, file f → failed f)
    (hmark : ∀ p q, file (some p) → markTemporaryRefRemoved name p = .ok q → file' (some q) ∧ failed (some q)) :
    RefSafe dedicated i (fun _ => Holds dedicated i file' gone) (Holds dedicated i failed gone)
      (RefProg.editState (markTemporaryRefRemoved name)) s := by
  refine safe_editState h hkeep fun p q hp hq => ?_
  obtain ⟨hpublication, hclaims, -⟩ := marked_claims hq
  refine ⟨(hmark p q hp hq).1, (hmark p q hp hq).2, fun ref href => ?_, fun _ hnone => hpublication.trans hnone⟩
  exact (hclaims ref href).imp_left fun heq => by rwa [heq]

/-- Afterwards no ref of the program has this name. -/
theorem safe_deleteExact {name oid : Text} (h : Holds dedicated i file gone s)
    (hrecorded : ∀ f, file f → ∃ p, f = some p ∧ (name, oid) ∈ p.recorded) :
    RefSafe dedicated i (fun _ => Holds dedicated i file fun n => gone n ∨ n = name) (Holds dedicated i file gone)
      (deleteExactTemporaryImportRef name oid) s := by
  refine Prog.Safe.bind (safe_refOid h) fun current t ht => ?_
  by_cases hcurrent : current = some oid
  · simp only [hcurrent, if_true]
    have hgone : Holds dedicated i file gone t := ht.weaken (fun _ hf => hf) fun n hn => .inl hn
    refine Prog.Safe.bind (safe_transaction hgone ?_ ?_) fun _ u hu => ?_
    · intro f hf operation hmem
      obtain rfl := List.mem_singleton.1 hmem
      exact hrecorded f hf
    · exact fun n hn => ⟨hn, fun o hmem => by simp at hmem⟩
    · refine safe_ret (hu.weaken (fun _ hf => hf) fun n hn => ?_) fun _ h => h
      exact hn.imp_right fun heq => ⟨oid, by simp [heq]⟩
  · simp only [hcurrent, if_false]
    cases current with
    | none => exact safe_ret (ht.weaken (fun _ hf => hf) fun n hn => hn.imp_right fun heq => ⟨heq, rfl⟩) fun _ h => h
    | some other => exact safe_raise (ht.weaken (fun _ hf => hf) fun n hn => .inl hn) fun _ h => h

theorem safe_deleteTemporaryImportRef {refs : List TemporaryImportRef} {ref : TemporaryImportRef} (href : ref ∈ refs)
    (h : Holds dedicated i (Records refs) nowhere s) :
    RefSafe dedicated i (fun _ => Holds dedicated i (Records refs) nowhere) (Holds dedicated i (Records refs) nowhere)
      (deleteTemporaryImportRef ref) s := by
  refine Prog.Safe.bind (safe_other h) fun _ t ht => ?_
  refine Prog.Safe.bind (safe_deleteExact ht fun f hf => hf ref href) fun _ u hu => ?_
  refine (safe_markTemporaryRefRemoved hu (.inr rfl) (fun _ hf => hf) fun p q hp hq => ?_).conseq
    (fun _ _ h => h.weaken (fun _ hf => hf) fun _ hn => hn.elim) (fun _ _ h => h.weaken (fun _ hf => hf) fun _ hn => hn.elim)
  have hrecorded := hp.grow (marked_claims hq).2.2
  exact ⟨hrecorded, hrecorded⟩

/-- The owner's first evidence has no publication. -/
def TemporaryRefOwner.Proper (owner : TemporaryRefOwner) : Prop :=
  ∀ payload, owner.initialPayload = some payload → payload.refPublication = none

theorem safe_prepare {owner : TemporaryRefOwner} (howner : owner.Proper) {refs : List TemporaryImportRef}
    (h : Holds dedicated i (Records refs) nowhere s) :
    RefSafe dedicated i (fun _ => Holds dedicated i (Records refs) nowhere) (Holds dedicated i (Records refs) nowhere)
      owner.prepare s := by
  unfold TemporaryRefOwner.prepare
  cases hpayload : owner.initialPayload with
  | none => exact safe_ret h fun _ h => h
  | some payload =>
    refine Prog.Safe.bind (safe_stateExists h) fun present t ht => ?_
    cases present with
    | true => exact safe_ret (ht.weaken (fun _ hf => hf.1) fun _ hn => hn) fun _ h => h
    | false =>
      refine safe_writeState ht (fun _ hf => hf.1) (fun f hf => ?_) (howner payload hpayload)
      obtain rfl : f = none := by simpa using hf.2.symm
      -- what a missing file records is nothing
      have hrecords : Records refs (some payload) := fun ref href => by
        obtain ⟨p, hp, -⟩ := hf.1 ref href
        simp at hp
      exact ⟨rfl, hrecords, hrecords⟩

/-- The evidence claims this ref. -/
def Claims (ref : TemporaryImportRef) (f : Option WorkspaceState) : Prop :=
  ∃ p, f = some p ∧ (ref.name, ref.targetOid) ∈ p.claims

/-- The claim is written before the ref exists. -/
theorem safe_prepareTemporaryImportRef {owner : TemporaryRefOwner} (howner : owner.Proper) {sourceCommit : Text}
    {refs : List TemporaryImportRef} (h : Holds dedicated i (Records refs) nowhere s) :
    RefSafe dedicated i
      (fun ref => Holds dedicated i (fun f => Records (refs ++ [ref]) f ∧ Claims ref f) nowhere)
      (Holds dedicated i (Records refs) nowhere) (prepareTemporaryImportRef sha256 owner sourceCommit) s := by
  refine Prog.Safe.bind (safe_prepare howner h) fun _ t ht => ?_
  refine Prog.Safe.bind (safe_readState ht) fun state u hu => ?_
  refine Prog.Safe.bind (safe_newImportId (hu.weaken (fun _ hf => hf.1) fun _ hn => hn)) fun importId v hv => ?_
  refine Prog.Safe.bind ((safe_checkedRef hv).conseq (fun _ _ h => h) fun _ _ h => h.weaken (fun _ hf => hf.1) fun _ hn => hn)
    fun name w hw => ?_
  obtain ⟨hname, hw⟩ := hw
  refine Prog.Safe.bind (Q := fun _ => Holds dedicated i
    (fun f => Records (refs ++ [⟨name, sourceCommit⟩]) f ∧ Claims ⟨name, sourceCommit⟩ f) nowhere)
    (safe_editState hw (fun _ hf => hf.1) fun p q hp hq => ?_) fun _ x hx => safe_ret hx fun _ h => h
  have hfresh : ∀ claim ∈ p.temporaryRefs.getD [], claim.name ≠ name := by
    rintro claim hclaim rfl
    exact hp.2 p rfl claim hclaim ⟨_, hname.symm⟩
  obtain ⟨hpublication, hclaim, hclaims, hrecorded⟩ := recordTemporaryRef_ok hfresh hq
  have hrecords := hp.1.grow hrecorded
  refine ⟨⟨fun ref href => ?_, q, rfl, hclaim⟩, hrecords, fun ref href => .inr (hclaims ref href), fun _ hnone => ?_⟩
  · rcases List.mem_append.1 href with hold | hnew
    · exact hrecords ref hold
    · obtain rfl := List.mem_singleton.1 hnew
      exact ⟨q, rfl, claims_recorded hclaim⟩
  · exact hpublication.trans hnone

theorem safe_createTemporaryImportRef {ref : TemporaryImportRef} (h : Holds dedicated i file nowhere s)
    (hclaims : ∀ f, file f → Claims ref f) :
    RefSafe dedicated i (fun _ => Holds dedicated i file nowhere) (Holds dedicated i file nowhere)
      (createTemporaryImportRef ref) s := by
  refine Prog.Safe.bind (safe_other h) fun _ t ht => ?_
  refine Prog.Safe.bind (safe_refOid ht) fun current u hu => ?_
  replace hu : Holds dedicated i file nowhere u := hu.weaken (fun _ hf => hf) fun _ hn => .inl hn
  cases current with
  | some oid => exact safe_raise hu fun _ h => h
  | none =>
    refine Prog.Safe.bind (safe_other hu) fun _ v hv => safe_create hv fun f hf operation hmem => ?_
    obtain rfl := List.mem_singleton.1 hmem
    exact hclaims f hf

theorem safe_importSourceBundle {owner : TemporaryRefOwner} (howner : owner.Proper) {sourceCommit : Text}
    {refs : List TemporaryImportRef} (h : Holds dedicated i (Records refs) nowhere s) :
    RefSafe dedicated i (fun ref => Holds dedicated i (Records (refs ++ [ref])) nowhere)
      (Holds dedicated i (Records refs) nowhere) (importSourceBundle sha256 owner sourceCommit) s := by
  refine Prog.Safe.bind (safe_prepareTemporaryImportRef sha256 howner h) fun ref t ht => ?_
  have hforget : ∀ u, Holds dedicated i (Records (refs ++ [ref])) nowhere u → Holds dedicated i (Records refs) nowhere u :=
    fun u hu => hu.weaken (fun _ hf => hf.mono fun _ => List.mem_append_left _) fun _ hn => hn
  refine Prog.Safe.bind (Q := fun _ => Holds dedicated i (Records (refs ++ [ref])) nowhere)
    (Prog.Safe.rescue (E := fun _ => Holds dedicated i (Records (refs ++ [ref])) nowhere) ?_ fun failure u hu => ?_)
    fun _ u hu => safe_ret hu fun _ h => h
  · refine (Prog.Safe.bind (safe_createTemporaryImportRef ht fun _ hf => hf.2) fun _ u hu => safe_check hu).conseq ?_ ?_
    · exact fun _ _ h => h.weaken (fun _ hf => hf.1) fun _ hn => hn
    · exact fun _ _ h => h.weaken (fun _ hf => hf.1) fun _ hn => hn
  · have hdelete := safe_deleteTemporaryImportRef (List.mem_append_right _ (List.mem_singleton_self ref)) hu
    refine Prog.Safe.bind (Prog.Safe.rescue hdelete fun _ v hv => safe_ret hv fun _ h => h) fun _ v hv => ?_
    exact safe_raise hv hforget

/-- Whatever fails on the way, every recorded ref is tried. -/
theorem safe_deleteImportRefs {refs : List TemporaryImportRef} (firstFailure : Option String) (remaining : List TemporaryImportRef)
    (hsubset : ∀ ref ∈ remaining, ref ∈ refs) (h : Holds dedicated i (Records refs) nowhere s) :
    RefSafe dedicated i (fun _ => Holds dedicated i (Records refs) nowhere) (Holds dedicated i (Records refs) nowhere)
      (deleteImportRefs firstFailure remaining) s := by
  induction remaining generalizing firstFailure s with
  | nil =>
    cases firstFailure with
    | none => exact safe_ret h fun _ h => h
    | some failure => exact safe_raise h fun _ h => h
  | cons ref rest ih =>
    have hdelete := safe_deleteTemporaryImportRef (hsubset ref List.mem_cons_self) h
    refine Prog.Safe.bind (Q := fun _ => Holds dedicated i (Records refs) nowhere) ?_ fun outcome t ht =>
      ih _ (fun other hother => hsubset other (List.mem_cons_of_mem _ hother)) ht
    refine Prog.Safe.rescue (Prog.Safe.bind hdelete fun _ t ht => safe_ret ht fun _ h => h) fun _ t ht => ?_
    exact safe_ret ht fun _ h => h

theorem safe_deleteTemporaryImportRefs {refs : List TemporaryImportRef} (h : Holds dedicated i (Records refs) nowhere s) :
    RefSafe dedicated i (fun _ => Holds dedicated i (Records refs) nowhere) (Holds dedicated i (Records refs) nowhere)
      (deleteTemporaryImportRefs refs) s :=
  safe_deleteImportRefs none refs.reverse (fun _ => List.mem_reverse.1) h

/-! ## The source of a consumer -/

/-- What a consumer knows after a step: the refs it imported are recorded. -/
abbrev Imported (dedicated : ι → Prop) (i : ι) (outcome : List TemporaryImportRef × Option String) : Repository ι → Prop :=
  Holds dedicated i (Records outcome.1) nowhere

/-- It never raises: a failure is handed on with what was imported. -/
theorem safe_ensureSourceRefAvailable {owner : TemporaryRefOwner} (howner : owner.Proper) {sourceCommit : Text} {bundled : Bool}
    {imported : List TemporaryImportRef} (h : Holds dedicated i (Records imported) nowhere s) :
    RefSafe dedicated i (Imported dedicated i) (fun _ => False)
      (ensureSourceRefAvailable sha256 owner sourceCommit bundled imported) s := by
  unfold ensureSourceRefAvailable
  cases bundled with
  | false =>
    refine Prog.Safe.rescue (Prog.Safe.bind (safe_check h) fun _ t ht => safe_ret ht fun _ h => h) fun failure t ht => ?_
    exact safe_ret ht fun _ h => h
  | true =>
    refine Prog.Safe.rescue (E := fun _ => Holds dedicated i (Records imported) nowhere) ?_ fun failure t ht =>
      safe_ret ht fun _ h => h
    refine Prog.Safe.bind (safe_other h) fun _ t ht => ?_
    refine Prog.Safe.bind (safe_importSourceBundle sha256 howner ht) fun ref u hu => ?_
    refine Prog.Safe.rescue (Prog.Safe.bind (safe_check hu) fun _ v hv => safe_ret hv fun _ h => h) fun failure v hv => ?_
    exact safe_ret hv fun _ h => h

mutual

theorem safe_ensureSourceCommitAvailable {owner : TemporaryRefOwner} (howner : owner.Proper) (activeCommits : List Text)
    (imported : List TemporaryImportRef) {s : Repository ι} :
    ∀ source, Holds dedicated i (Records imported) nowhere s →
      RefSafe dedicated i (Imported dedicated i) (fun _ => False)
        (ensureSourceCommitAvailable sha256 owner activeCommits imported source) s
  | .mk sourceCommit bundled upstreamSources, h => by
    unfold ensureSourceCommitAvailable
    split
    · exact safe_ret h fun _ h => h
    · refine Prog.Safe.bind (safe_ensureUpstreamAvailable howner (sourceCommit :: activeCommits) imported upstreamSources h)
        fun upstream t ht => ?_
      split
      · exact safe_ret ht fun _ h => h
      · refine Prog.Safe.bind (safe_ensureSourceRefAvailable sha256 howner ht) fun own u hu => ?_
        split
        · exact safe_ret hu fun _ h => h
        · refine Prog.Safe.rescue (Prog.Safe.bind (safe_check hu) fun _ v hv => safe_ret hv fun _ h => h)
            fun failure v hv => ?_
          exact safe_ret hv fun _ h => h

theorem safe_ensureUpstreamAvailable {owner : TemporaryRefOwner} (howner : owner.Proper) (activeCommits : List Text)
    (imported : List TemporaryImportRef) {s : Repository ι} :
    ∀ sources, Holds dedicated i (Records imported) nowhere s →
      RefSafe dedicated i (Imported dedicated i) (fun _ => False)
        (ensureUpstreamAvailable sha256 owner activeCommits imported sources) s
  | [], h => by
    unfold ensureUpstreamAvailable
    exact safe_ret h fun _ h => h
  | source :: rest, h => by
    unfold ensureUpstreamAvailable
    refine Prog.Safe.bind (safe_ensureSourceCommitAvailable howner activeCommits imported source h) fun first t ht => ?_
    split
    · exact safe_ret ht fun _ h => h
    · exact safe_ensureUpstreamAvailable howner activeCommits first.1 rest ht

end

/-- The evidence goes when all of it is marked as removed. -/
theorem safe_discardResolvedEvidence {owner : TemporaryRefOwner} (hdedicated : owner.initialPayload ≠ none → dedicated i)
    (h : Evidenced dedicated s) :
    RefSafe dedicated i (fun _ => Evidenced dedicated) (Evidenced dedicated) owner.discardResolvedEvidence s := by
  have hstart : Holds dedicated i (fun _ => True) nowhere s := ⟨h, trivial, fun _ hn => hn.elim⟩
  unfold TemporaryRefOwner.discardResolvedEvidence
  cases hpayload : owner.initialPayload with
  | none => exact safe_ret hstart fun _ h => h.evidenced
  | some initial =>
    have hdedicated := hdedicated (by simp [hpayload])
    refine Prog.Safe.bind (safe_stateExists hstart) fun present t ht => ?_
    cases present with
    | false => exact safe_ret ht fun _ h => h.evidenced
    | true =>
      refine Prog.Safe.bind ((safe_readState ht).conseq (fun _ _ h => h) fun _ _ h => h.evidenced) fun payload u hu => ?_
      cases hclaims : payload.temporaryRefs with
      | none => exact safe_ret hu fun _ h => h.evidenced
      | some claims =>
        simp only
        split
        next hall =>
          -- the file has no publication and no prepared claim, so the invariant leaves no ref to the owner
          have hnone : payload.claims = [] := by
            have hpublication := hu.evidenced.dedicated i hdedicated payload hu.file.2
            have htemporary : payload.temporaryClaims = [] := by
              simp only [WorkspaceState.temporaryClaims, hclaims, Option.getD_some, List.map_eq_nil_iff,
                List.filter_eq_nil_iff, decide_eq_true_eq]
              intro claim hclaim hprepared
              have := List.all_eq_true.1 hall claim hclaim
              simp [hprepared] at this
            simp [WorkspaceState.claims, WorkspaceState.publicationClaims, hpublication, htemporary]
          have hresolved : Holds dedicated i (fun f => ∀ p, f = some p → p.claims = []) nowhere u :=
            hu.fact (fun p hp => (Option.some.inj (hu.file.2.symm.trans hp)) ▸ hnone) fun _ hn => hn
          refine (safe_unlinkState (hresolved.weaken (fun _ hf => hf) fun _ hn => hn) (fun _ hf => hf) (by simp) ?_).conseq
            (fun _ _ h => h.evidenced) fun _ _ h => h.evidenced
          intro p hp ref href
          simp [hp p rfl] at href
        next => exact safe_ret hu fun _ h => h.evidenced

theorem safe_consume (failure : Option String) (h : Holds dedicated i file gone s) :
    RefSafe dedicated i (fun _ => Holds dedicated i file gone) (fun _ => False) (consume failure) s := by
  cases failure with
  | some failure => exact safe_ret h fun _ h => h
  | none =>
    refine Prog.Safe.rescue (Prog.Safe.bind (safe_other h) fun _ t ht => safe_ret ht fun _ h => h) fun failure t ht => ?_
    exact safe_ret ht fun _ h => h

theorem safe_withSourceCommit {owner : TemporaryRefOwner} (howner : owner.Proper)
    (hdedicated : owner.initialPayload ≠ none → dedicated i) (source : SourceChain) (h : Evidenced dedicated s) :
    RefSafe dedicated i (fun _ => Evidenced dedicated) (Evidenced dedicated) (withSourceCommit sha256 owner source) s := by
  have hstart : Holds dedicated i (Records []) nowhere s := ⟨h, fun _ h => by simp at h, fun _ hn => hn.elim⟩
  refine Prog.Safe.bind ((safe_other hstart).conseq (fun _ _ h => h) fun _ _ h => h.evidenced) fun _ t ht => ?_
  refine Prog.Safe.bind (Q := fun _ => Evidenced dedicated) (Prog.Safe.rescue (E := fun _ => Evidenced dedicated) ?_ ?_)
    fun outcome u hu => ?_
  · refine Prog.Safe.bind (Q := fun _ => Evidenced dedicated) ?_ fun _ u hu => ?_
    · refine Prog.Safe.bind ((safe_ensureSourceCommitAvailable sha256 howner [] [] source ht).conseq (fun _ _ h => h)
        fun _ _ h => h.elim) fun available u hu => ?_
      refine Prog.Safe.bind ((safe_consume available.2 hu).conseq (fun _ _ h => h) fun _ _ h => h.elim) fun consumed v hv => ?_
      cases consumed with
      | some failure =>
        refine Prog.Safe.bind (Prog.Safe.rescue (safe_deleteTemporaryImportRefs hv) fun _ w hw => safe_ret hw fun _ h => h)
          fun _ w hw => ?_
        exact safe_raise hw fun _ h => h.evidenced
      | none => exact (safe_deleteTemporaryImportRefs hv).conseq (fun _ _ h => h.evidenced) fun _ _ h => h.evidenced
    · exact safe_ret (⟨hu, trivial, fun _ hn => hn.elim⟩ : Holds dedicated i (fun _ => True) nowhere u) fun _ h => h.evidenced
  · intro failure u hu
    exact safe_ret (⟨hu, trivial, fun _ hn => hn.elim⟩ : Holds dedicated i (fun _ => True) nowhere u) fun _ h => h.evidenced
  · refine Prog.Safe.bind (safe_discardResolvedEvidence hdedicated hu) fun _ v hv => ?_
    have hlast : Holds dedicated i (fun _ => True) nowhere v := ⟨hv, trivial, fun _ hn => hn.elim⟩
    cases outcome with
    | none => exact safe_ret hlast fun _ h => h.evidenced
    | some failure => exact safe_raise hlast fun _ h => h.evidenced

/-! ## Result refs -/

/-- The evidence names these two destinations and claims them. -/
def Publishes (destinations : RefPublicationDestination × RefPublicationDestination) (f : Option WorkspaceState) : Prop :=
  ∃ p, f = some p ∧ p.refPublication = some ⟨.prepared, destinations.1, destinations.2⟩

theorem safe_resultRefDestinations {request : WorktreeCaptureRequest} {candidateCommit resultCommit : Text}
    (h : Holds dedicated i file gone s) :
    RefSafe dedicated i (fun _ => Holds dedicated i file gone) (Holds dedicated i file gone)
      (resultRefDestinations sha256 request candidateCommit resultCommit) s := by
  refine Prog.Safe.bind (safe_checkedRef h) fun _ t ht => ?_
  refine Prog.Safe.bind (safe_checkedRef ht.2) fun _ u hu => ?_
  exact safe_ret hu.2 fun _ h => h

theorem safe_persistPreparedPublication {request : WorktreeCaptureRequest}
    {destinations : RefPublicationDestination × RefPublicationDestination} (hstate : ¬dedicated i)
    (h : Holds dedicated i anything nowhere s) :
    RefSafe dedicated i (fun _ => Holds dedicated i (Publishes destinations) nowhere) (Holds dedicated i anything nowhere)
      (persistPreparedPublication request destinations) s := by
  refine Prog.Safe.bind (safe_readState h) fun state t ht => ?_
  replace ht : Holds dedicated i anything nowhere t := ht.weaken (fun _ hf => hf.1) fun _ hn => hn
  refine Prog.Safe.bind (safe_check ht) fun _ u hu => ?_
  split
  · exact safe_raise hu fun _ h => h
  · refine safe_editState hu (fun _ _ => trivial) fun p q _ hq => ?_
    obtain ⟨hpublication, hclaims⟩ := setRefPublication_ok hq
    exact ⟨⟨q, rfl, hpublication⟩, trivial, fun ref href => .inr (hclaims ref href), fun hi => absurd hi hstate⟩

theorem safe_requireAbsentDestination {destination : RefPublicationDestination} (h : Holds dedicated i file nowhere s) :
    RefSafe dedicated i (fun _ => Holds dedicated i file nowhere) (Holds dedicated i file nowhere)
      (requireAbsentDestination destination) s := by
  refine Prog.Safe.bind (safe_refOid h) fun current t ht => ?_
  replace ht : Holds dedicated i file nowhere t := ht.weaken (fun _ hf => hf) fun _ hn => .inl hn
  split
  · exact safe_raise ht fun _ h => h
  · exact safe_ret ht fun _ h => h

/-- Both refs are created together, under the evidence that claims them. -/
theorem safe_publishDestinations {request : WorktreeCaptureRequest}
    {destinations : RefPublicationDestination × RefPublicationDestination}
    (h : Holds dedicated i (Publishes destinations) nowhere s) :
    RefSafe dedicated i (fun _ => Holds dedicated i (Publishes destinations) nowhere)
      (Holds dedicated i (Publishes destinations) nowhere)
      (publishDestinations request [destinations.1, destinations.2]) s := by
  refine Prog.Safe.bind (safe_other h) fun _ t ht => ?_
  refine Prog.Safe.bind (Prog.Safe.each (I := fun _ => Holds dedicated i (Publishes destinations) nowhere)
    (fun _ _ => Holds.stable) ht fun _ _ _ _ hu => safe_requireAbsentDestination hu) fun _ u hu => ?_
  refine safe_create hu fun f hf operation hmem => ?_
  rcases List.mem_append.1 hmem with hverify | hcreate
  · obtain ⟨scope, -, rfl⟩ := List.mem_map.1 hverify
    trivial
  · obtain ⟨destination, hdestination, rfl⟩ := List.mem_map.1 hcreate
    obtain ⟨p, rfl, hpublication⟩ := hf
    refine ⟨p, rfl, List.mem_append_left _ ?_⟩
    rw [publicationClaims_of hpublication]
    exact List.mem_map_of_mem hdestination

/-- The chosen are of those asked about; if none is chosen, what the test says of a refusal holds of all. -/
theorem safe_select {test : RefPublicationDestination → RefProg Bool} (refused : RefPublicationDestination → Text → Prop)
    (htest : ∀ destination (known : Text → Prop) t, Holds dedicated i file known t →
      RefSafe dedicated i (fun chosen => Holds dedicated i file fun n => known n ∨ (chosen = false ∧ refused destination n))
        (Holds dedicated i file nowhere) (test destination) t)
    (destinations : List RefPublicationDestination) (h : Holds dedicated i file gone s) :
    RefSafe dedicated i
      (fun chosen t => (∀ d ∈ chosen, d ∈ destinations) ∧
        Holds dedicated i file (fun n => gone n ∨ (chosen = [] ∧ ∃ d ∈ destinations, refused d n)) t)
      (Holds dedicated i file nowhere) (select test destinations) s := by
  induction destinations generalizing gone s with
  | nil => exact safe_ret h fun t ht => ⟨fun _ => id, ht.weaken (fun _ hf => hf) fun n hn => by simpa using hn⟩
  | cons destination rest ih =>
    refine Prog.Safe.bind (htest destination gone s h) fun chosen t ht => ?_
    refine Prog.Safe.bind (ih ht) fun others u hu => safe_ret hu.2 fun v hv => ?_
    cases chosen with
    | true => exact ⟨List.cons_subset_cons _ hu.1, hv.weaken (fun _ hf => hf) fun n hn => .inl (.inl (by simpa using hn))⟩
    | false =>
      refine ⟨fun d hd => List.mem_cons_of_mem _ (hu.1 d hd), hv.weaken (fun _ hf => hf) fun n hn => ?_⟩
      rcases hn with hn | ⟨hnone, d, hd, hrefused⟩
      · exact .inl (.inl hn)
      · rcases List.mem_cons.1 hd with rfl | hrest
        · exact .inl (.inr ⟨rfl, hrefused⟩)
        · exact .inr ⟨hnone, d, hrest, hrefused⟩

theorem safe_matchingDestination (destination : RefPublicationDestination) (h : Holds dedicated i file gone s) :
    RefSafe dedicated i (fun chosen => Holds dedicated i file fun n => gone n ∨ (chosen = false ∧ False))
      (Holds dedicated i file nowhere) (matchingDestination destination) s := by
  refine Prog.Safe.bind ((safe_refOid h).conseq (fun _ _ h => h) fun _ _ h => h.weaken (fun _ hf => hf) fun _ hn => hn.elim)
    fun current t ht => ?_
  exact safe_ret ht fun u hu => hu.weaken (fun _ hf => hf) fun n hn => .inl (by simpa using hn)

theorem safe_mismatchedDestination (destination : RefPublicationDestination) (h : Holds dedicated i file gone s) :
    RefSafe dedicated i (fun chosen => Holds dedicated i file fun n => gone n ∨ (chosen = false ∧ False))
      (Holds dedicated i file nowhere) (mismatchedDestination destination) s := by
  refine Prog.Safe.bind ((safe_refOid h).conseq (fun _ _ h => h) fun _ _ h => h.weaken (fun _ hf => hf) fun _ hn => hn.elim)
    fun current t ht => ?_
  exact safe_ret ht fun u hu => hu.weaken (fun _ hf => hf) fun n hn => .inl (by simpa using hn)

/-- A destination that does not remain holds no ref of the program. -/
theorem safe_remainingDestination (destination : RefPublicationDestination) (h : Holds dedicated i file gone s) :
    RefSafe dedicated i (fun chosen => Holds dedicated i file fun n => gone n ∨ (chosen = false ∧ n = destination.name))
      (Holds dedicated i file nowhere) (remainingDestination destination) s := by
  refine Prog.Safe.bind ((safe_refOid h).conseq (fun _ _ h => h) fun _ _ h => h.weaken (fun _ hf => hf) fun _ hn => hn.elim)
    fun current t ht => ?_
  refine safe_ret ht fun u hu => hu.weaken (fun _ hf => hf) fun n hn => ?_
  exact hn.imp_right fun hnone => ⟨hnone.2, by simpa using hnone.1⟩

theorem safe_deleteTransaction {destinations : List RefPublicationDestination} (h : Holds dedicated i file nowhere s)
    (hrecorded : ∀ f, file f → ∃ p, f = some p ∧ ∀ d ∈ destinations, (d.name, d.targetOid) ∈ p.recorded) :
    RefSafe dedicated i (fun _ => Holds dedicated i file nowhere) (Holds dedicated i file nowhere)
      (deleteTransaction destinations) s := by
  refine safe_create h fun f hf operation hmem => ?_
  obtain ⟨destination, hdestination, rfl⟩ := List.mem_map.1 hmem
  obtain ⟨p, hp, hall⟩ := hrecorded f hf
  exact ⟨p, hp, hall destination hdestination⟩

/-- The evidence claims no result ref. -/
def Unpublished (f : Option WorkspaceState) : Prop := ∀ p, f = some p → p.publicationClaims = []

theorem safe_requireOwnedDestinations {payload : WorkspaceState} {publication : RefPublication}
    (h : Holds dedicated i file gone s) :
    RefSafe dedicated i (fun _ => Holds dedicated i file gone) (Holds dedicated i file gone)
      (requireOwnedDestinations sha256 payload publication) s := by
  unfold requireOwnedDestinations
  dsimp only
  split
  · exact safe_raise h fun _ h => h
  · exact Prog.Safe.bind (safe_check h) fun _ t ht => safe_check ht

theorem safe_reconcileResultRefPublication (h : Holds dedicated i anything nowhere s) :
    RefSafe dedicated i (fun _ => Holds dedicated i Unpublished nowhere) (Holds dedicated i anything nowhere)
      (reconcileResultRefPublication sha256) s := by
  refine Prog.Safe.bind (safe_readState h) fun payload t ht => ?_
  replace ht : Holds dedicated i (fun f => f = some payload) nowhere t := ht.weaken (fun _ hf => hf.2) fun _ hn => hn
  have hforget : ∀ {known : Text → Prop} {u}, Holds dedicated i (fun f => f = some payload) known u →
      Holds dedicated i anything nowhere u := fun hu => hu.weaken (fun _ _ => trivial) fun _ hn => hn.elim
  refine Prog.Safe.bind ((safe_check ht).conseq (fun _ _ h => h) fun _ _ h => hforget h) fun _ u hu => ?_
  cases hpublication : payload.refPublication with
  | none =>
    refine safe_ret hu fun v hv => hv.weaken (fun f hf p hp => ?_) fun _ hn => hn
    obtain rfl : payload = p := Option.some.inj (hf.symm.trans hp)
    simp [WorkspaceState.publicationClaims, hpublication]
  | some publication =>
    refine Prog.Safe.bind ((safe_other hu).conseq (fun _ _ h => h) fun _ _ h => hforget h) fun _ v hv => ?_
    refine Prog.Safe.bind ((safe_requireOwnedDestinations sha256 hv).conseq (fun _ _ h => h) fun _ _ h => hforget h)
      fun _ w hw => ?_
    refine Prog.Safe.bind ((safe_select (fun _ _ => False) (fun d known t ht => safe_matchingDestination d ht)
      publication.destinations hw).conseq (fun _ _ h => h) fun _ _ h => hforget h) fun matching x hx => ?_
    refine Prog.Safe.bind ((safe_select (fun _ _ => False) (fun d known t ht => safe_mismatchedDestination d ht)
      publication.destinations hx.2).conseq (fun _ _ h => h) fun _ _ h => hforget h) fun mismatched y hy => ?_
    replace hy : Holds dedicated i (fun f => f = some payload) nowhere y := hy.2.weaken (fun _ hf => hf) fun _ hn => hn.elim
    refine Prog.Safe.bind (Q := fun _ => Holds dedicated i (fun f => f = some payload) nowhere) ?_ fun _ z hz => ?_
    · split
      · exact safe_ret hy fun _ h => h
      · refine (safe_deleteTransaction hy fun f hf => ⟨payload, hf, fun d hd => ?_⟩).conseq (fun _ _ h => h) fun _ _ h => hforget h
        exact recorded_of_publication hpublication (List.mem_map_of_mem (hx.1 d hd))
    · refine Prog.Safe.bind ((safe_select (fun d n => n = d.name) (fun d known t ht => safe_remainingDestination d ht)
        publication.destinations hz).conseq (fun _ _ h => h) fun _ _ h => hforget h) fun remaining a ha => ?_
      split
      · exact safe_raise ha.2 fun _ h => hforget h
      next hnone =>
        -- no destination remains, so the claims that the removal drops are of names that are gone
        have hremaining : remaining = [] := by
          have := not_not.1 hnone
          exact (List.append_eq_nil_iff.1 this).2
        have hgone : Holds dedicated i (fun f => f = some payload) (fun n => ∃ d ∈ publication.destinations, n = d.name) a :=
          ha.2.weaken (fun _ hf => hf) fun n hn => .inr ⟨hremaining, hn⟩
        refine Prog.Safe.bind (Q := fun _ => Holds dedicated i Unpublished nowhere)
          ((safe_editState hgone (fun _ _ => trivial) fun p q hp hq => ?_).conseq
            (fun _ _ h => h.weaken (fun _ hf => hf) fun _ hn => hn.elim)
            (fun _ _ h => h.weaken (fun _ hf => hf) fun _ hn => hn.elim)) fun _ b hb => safe_ret hb fun _ h => h
        obtain rfl := Option.some.inj hp
        obtain ⟨hunpublished, -, publication', hp', hclaims⟩ := removed_claims hq
        obtain rfl : publication = publication' := Option.some.inj (hpublication.symm.trans hp')
        refine ⟨fun p' hp' => Option.some.inj hp' ▸ hunpublished, trivial, fun ref href => (hclaims ref href).imp_left ?_, ?_⟩
        · intro hmem
          obtain ⟨d, hd, rfl⟩ := List.mem_map.1 hmem
          exact ⟨d, hd, rfl⟩
        · exact fun _ hnone => by simp [hnone] at hpublication

theorem safe_publishResultRefs {request : WorktreeCaptureRequest} {candidateCommit resultCommit : Text} (hstate : ¬dedicated i)
    (h : Holds dedicated i anything nowhere s) :
    RefSafe dedicated i (fun _ => Holds dedicated i anything nowhere) (Holds dedicated i anything nowhere)
      (publishResultRefs sha256 request candidateCommit resultCommit) s := by
  refine Prog.Safe.bind (safe_resultRefDestinations sha256 h) fun destinations t ht => ?_
  refine Prog.Safe.bind (safe_persistPreparedPublication hstate ht) fun _ u hu => ?_
  refine Prog.Safe.bind ((safe_publishDestinations hu).conseq (fun _ _ h => h)
    fun _ _ h => h.weaken (fun _ _ => trivial) fun _ hn => hn) fun _ v hv => ?_
  refine Prog.Safe.bind (Q := fun _ => Holds dedicated i anything nowhere)
    (Prog.Safe.rescue (E := fun _ => Holds dedicated i anything nowhere) ?_ fun failure w hw => ?_)
    fun _ w hw => safe_ret hw fun _ h => h
  · refine safe_editState hv (fun _ _ => trivial) fun p q _ hq => ?_
    exact ⟨trivial, trivial, fun ref href => .inr (published_claims hq ref href), fun hi => absurd hi hstate⟩
  · refine Prog.Safe.bind (Q := fun _ => Holds dedicated i anything nowhere) (Prog.Safe.rescue
      (Prog.Safe.bind (safe_reconcileResultRefPublication sha256 hw) fun _ x hx =>
        safe_ret hx fun _ h => h.weaken (fun _ _ => trivial) fun _ hn => hn) fun _ x hx => safe_ret hx fun _ h => h)
      fun _ x hx => ?_
    exact safe_raise hx fun _ h => h

theorem safe_publishCaptureResult {request : WorktreeCaptureRequest} {resultCommit : Text} (hstate : ¬dedicated i)
    (h : Evidenced dedicated s) :
    RefSafe dedicated i (fun _ => Evidenced dedicated) (fun _ => True) (publishCaptureResult sha256 request resultCommit) s := by
  refine Prog.Safe.bind ((safe_publishResultRefs sha256 hstate h.holds).conseq (fun _ _ h => h) fun _ _ _ => trivial)
    fun _ t ht => ?_
  refine Prog.Safe.rescue ((safe_other ht).conseq (fun _ _ h => h.evidenced) fun _ _ h => h) fun failure u hu => ?_
  refine Prog.Safe.bind (Q := fun _ => Holds dedicated i anything nowhere) (Prog.Safe.rescue
    (Prog.Safe.bind (safe_reconcileResultRefPublication sha256 hu) fun _ x hx =>
      safe_ret hx fun _ h => h.weaken (fun _ _ => trivial) fun _ hn => hn) fun _ x hx => safe_ret hx fun _ h => h)
    fun _ x hx => ?_
  exact safe_raise hx fun _ _ => trivial

/-! ## Cleanup -/

/-- What is still prepared in the evidence is among the claims still to come. -/
def Remaining (payload : WorkspaceState) (claims : List TemporaryRefClaim) (f : Option WorkspaceState) : Prop :=
  ∃ q, f = some q ∧ q.refPublication = payload.refPublication ∧ (∀ ref ∈ payload.recorded, ref ∈ q.recorded) ∧
    ∀ claim ∈ q.temporaryRefs.getD [], claim.phase = .prepared → claim ∈ claims

theorem safe_reconcileTemporaryImportRefClaim {ownerPrefix : Text} {payload : WorkspaceState} {claim : TemporaryRefClaim}
    {rest : List TemporaryRefClaim} (hrecorded : (claim.name, claim.targetOid) ∈ payload.recorded)
    (h : Holds dedicated i (Remaining payload (claim :: rest)) nowhere s) :
    RefSafe dedicated i (fun _ => Holds dedicated i (Remaining payload rest) nowhere) (Evidenced dedicated)
      (reconcileTemporaryImportRefClaim ownerPrefix claim) s := by
  unfold reconcileTemporaryImportRefClaim
  split
  next hremoved =>
    refine safe_ret h fun t ht => ht.weaken (fun f hf => ?_) fun _ hn => hn
    obtain ⟨q, hq, hpublication, hall, hprepared⟩ := hf
    refine ⟨q, hq, hpublication, hall, fun other hother hphase => ?_⟩
    rcases List.mem_cons.1 (hprepared other hother hphase) with rfl | hrest
    · simp [hremoved] at hphase
    · exact hrest
  next hpresent =>
    split
    · exact safe_raise h fun _ h => h.evidenced
    · refine Prog.Safe.bind ((safe_other h).conseq (fun _ _ h => h) fun _ _ h => h.evidenced) fun _ t ht => ?_
      refine Prog.Safe.bind ((safe_check ht).conseq (fun _ _ h => h) fun _ _ h => h.evidenced) fun _ u hu => ?_
      refine Prog.Safe.bind ((safe_deleteExact hu fun f hf => ?_).conseq (fun _ _ h => h) fun _ _ h => h.evidenced)
        fun _ v hv => ?_
      · obtain ⟨q, hq, -, hall, -⟩ := hf
        exact ⟨q, hq, hall _ hrecorded⟩
      · refine (safe_markTemporaryRefRemoved hv (.inr rfl) (fun _ _ => trivial) fun p q hp hq => ⟨?_, trivial⟩).conseq
          (fun _ _ h => h.weaken (fun _ hf => hf) fun _ hn => hn.elim) fun _ _ (h : Holds dedicated i anything _ _) => h.evidenced
        obtain ⟨p', heq, hpublication, hall, hprepared⟩ := hp
        obtain rfl := Option.some.inj heq
        obtain ⟨hsame, -, hgrow⟩ := marked_claims hq
        refine ⟨q, rfl, hsame.trans hpublication, fun ref href => hgrow ref (hall ref href), ?_⟩
        rintro ⟨phase, n, o⟩ hmem rfl
        obtain ⟨hne, hold⟩ := prepared_of_marked hq hmem
        rcases List.mem_cons.1 (hprepared _ hold rfl) with rfl | hrest
        · exact absurd rfl hne
        · exact hrest

theorem safe_reconcileTemporaryImportRefs (h : Holds dedicated i Unpublished nowhere s) :
    RefSafe dedicated i (fun _ => Holds dedicated i Resolved nowhere) (Evidenced dedicated) (reconcileTemporaryImportRefs sha256) s := by
  refine Prog.Safe.bind ((safe_readState h).conseq (fun _ _ h => h) fun _ _ h => h.evidenced) fun payload t ht => ?_
  refine Prog.Safe.bind ((safe_check ht).conseq (fun _ _ h => h) fun _ _ h => h.evidenced) fun _ u hu => ?_
  have hunpublished : ∀ q : WorkspaceState, q.refPublication = payload.refPublication → q.publicationClaims = [] := by
    intro q hq
    have hpayload := hu.file.1 payload hu.file.2
    simpa [WorkspaceState.publicationClaims, hq] using hpayload
  cases hclaims : payload.temporaryRefs with
  | none =>
    refine safe_ret hu fun v hv => hv.weaken (fun f hf p hp => ?_) fun _ hn => hn
    obtain rfl : payload = p := Option.some.inj (hf.2.symm.trans hp)
    simp [WorkspaceState.claims, WorkspaceState.temporaryClaims, hclaims, hunpublished payload rfl]
  | some claims =>
    have hstart : Holds dedicated i (Remaining payload claims) nowhere u := by
      refine hu.weaken (fun f hf => ⟨payload, hf.2, rfl, fun _ => id, fun claim hclaim _ => ?_⟩) fun _ hn => hn
      simpa [hclaims] using hclaim
    refine (Prog.Safe.each (I := fun remaining => Holds dedicated i (Remaining payload remaining) nowhere)
      (fun _ _ => Holds.stable) hstart fun claim rest hsuffix v hv => ?_).conseq (fun _ v hv => ?_) fun _ _ h => h
    · refine safe_reconcileTemporaryImportRefClaim (List.mem_append_right _ (List.mem_map.2 ⟨claim, ?_, rfl⟩)) hv
      simpa [hclaims] using hsuffix.subset List.mem_cons_self
    · refine hv.weaken (fun f hf p hp => ?_) fun _ hn => hn
      obtain ⟨q, hq, hpublication, -, hprepared⟩ := hf
      obtain rfl : q = p := Option.some.inj (hq.symm.trans hp)
      have htemporary : q.temporaryClaims = [] := by
        simp only [WorkspaceState.temporaryClaims, List.map_eq_nil_iff, List.filter_eq_nil_iff, decide_eq_true_eq]
        exact fun claim hclaim hphase => by simpa using hprepared claim hclaim hphase
      simp [WorkspaceState.claims, hunpublished q hpublication, htemporary]

theorem safe_reconcileRefCleanupRecord {evidenceFile : Bool} (hdedicated : evidenceFile = true → dedicated i)
    (h : Evidenced dedicated s) :
    RefSafe dedicated i (fun _ => Holds dedicated i Resolved nowhere) (Evidenced dedicated)
      (reconcileRefCleanupRecord sha256 evidenceFile) s := by
  refine Prog.Safe.bind (Q := fun _ => Holds dedicated i Unpublished nowhere) ?_ fun _ t ht => ?_
  · cases evidenceFile with
    | true =>
      have hnone : Holds dedicated i Unpublished nowhere s := by
        refine h.holds.fact (fun p hp => ?_) fun _ hn => hn
        simp [WorkspaceState.publicationClaims, h.dedicated i (hdedicated rfl) p hp]
      exact safe_ret hnone fun _ h => h
    | false =>
      refine Prog.Safe.bind ((safe_reconcileResultRefPublication sha256 h.holds).conseq (fun _ _ h => h)
        fun _ _ h => h.evidenced) fun _ t ht => ?_
      exact safe_ret ht fun _ h => h
  · refine Prog.Safe.bind (safe_reconcileTemporaryImportRefs sha256 ht) fun _ u hu => ?_
    cases evidenceFile with
    | false => exact safe_ret hu fun _ h => h
    | true =>
      refine (safe_unlinkState hu (fun _ hf => hf) (by simp [Resolved]) fun p hp ref href => ?_).conseq ?_ fun _ _ h => h.evidenced
      · simp [hp p rfl] at href
      · exact fun _ _ h => h.weaken (fun f hf p hp => by simp [hf] at hp) fun _ hn => hn

/-! ## The whole system -/

/-- What may run for an owner: a publication of its result, a consumer of its sources, a cleanup of its evidence. -/
inductive RefJob
  | publish (request : WorktreeCaptureRequest) (resultCommit : Text)
  | consume (owner : TemporaryRefOwner) (source : SourceChain)
  | cleanup (evidenceFile : Bool)

def RefJob.program : RefJob → RefProg Unit
  | .publish request resultCommit => publishCaptureResult sha256 request resultCommit
  | .consume owner source => withSourceCommit sha256 owner source
  | .cleanup evidenceFile => reconcileRefCleanupRecord sha256 evidenceFile

/-- Only a state file has a publication; a consumer with an evidence file of its own starts it without one. -/
def RefJob.Starts (dedicated : ι → Prop) (i : ι) : RefJob → Prop
  | .publish _ _ => ¬dedicated i
  | .consume owner _ => owner.Proper ∧ (owner.initialPayload ≠ none ↔ dedicated i)
  | .cleanup evidenceFile => evidenceFile = true ↔ dedicated i

/-- Any number of owners on one repository, and third parties. -/
def refSystem (dedicated : ι → Prop) : System ι RefJob (Repository ι) RefCommand RefCommand.Answer String where
  exec := Exec
  program := RefJob.program sha256
  starts := RefJob.Starts dedicated
  outside := ThirdParty

/-- A cleanup that has returned leaves no ref of its owner; nothing is promised of the other jobs. -/
def RefJob.Returns (i : ι) : RefJob → Repository ι → Prop
  | .cleanup _, s => ∀ name oid, s.created name ≠ some (oid, i)
  | _, _ => True

theorem refSystem_compatible (dedicated : ι → Prop) : System.Compatible (refSystem sha256 dedicated) (Evidenced dedicated)
    (Rely dedicated) (fun i _ => Guarantee dedicated i) RefJob.Returns fun _ _ _ _ => True where
  outside_inv := fun _ _ => thirdParty_evidenced
  guarantee_inv := fun _ _ _ _ hinv h => h.evidenced hinv
  outside_rely := fun i s t hinv hstep => by
    refine ⟨fun h => thirdParty_evidenced h hstep, by rw [hstep.1], fun name oid hcreated => ?_⟩
    rcases hstep.2 name with hnone | ⟨hsame, -⟩
    · simp [hnone] at hcreated
    · exact hsame ▸ hcreated
  guarantee_rely := fun i j _ s t hij _ h => ⟨h.evidenced, h.files i hij, h.created i hij⟩
  safe := fun i job s hinv hstarts => by
    cases job with
    | publish request resultCommit =>
      exact (safe_publishCaptureResult sha256 hstarts hinv).conseq (fun _ _ _ => trivial) fun _ _ _ => trivial
    | consume owner source =>
      exact (safe_withSourceCommit sha256 hstarts.1 hstarts.2.1 source hinv).conseq (fun _ _ _ => trivial) fun _ _ _ => trivial
    | cleanup evidenceFile =>
      exact (safe_reconcileRefCleanupRecord sha256 hstarts.1 hinv).conseq (fun _ _ h => h.no_refs) fun _ _ _ => trivial

abbrev RefPool (ι : Type) := Pool ι RefJob (Repository ι) RefCommand RefCommand.Answer String

def resolvedEvidence : WorkspaceState where
  runKeyName := ['r']
  invocation := ⟨['n'], ['t'], none, 1⟩
  repositoryId := ['g']
  temporaryRefs := some [⟨.removed, ['i'], ['0']⟩]

def resolvedRepository : Repository Unit := ⟨fun _ => none, fun _ => some resolvedEvidence, fun _ => none⟩

def cleanedRepository : Repository Unit := resolvedRepository.write () none

theorem cleaned_reachable : System.Reachable (refSystem sha256 fun _ : Unit => True) (Initial fun _ => True)
    (System.alone cleanedRepository (some (.cleanup true, .ret ()))) := by
  let sys : System Unit RefJob (Repository Unit) RefCommand RefCommand.Answer String := refSystem sha256 fun _ => True
  have hread : sys.exec () .readState resolvedRepository (.ok resolvedEvidence) resolvedRepository :=
    ⟨rfl, fun payload heq => by rw [← Except.ok.inj heq, resolvedRepository]⟩
  have hcheck : sys.exec () .other resolvedRepository (.ok true) resolvedRepository := rfl
  have hunlink : sys.exec () .unlinkState resolvedRepository (.ok ()) cleanedRepository := .inl rfl
  have hstarts : sys.starts () (.cleanup true) := by simp [sys, refSystem, RefJob.Starts]
  refine ⟨resolvedRepository, ⟨fun _ => rfl, fun _ _ payload heq => ?_⟩, ?_⟩
  · obtain rfl : resolvedEvidence = payload := Option.some.inj heq
    rfl
  · refine ReflTransGen.head (System.alone_start sys resolvedRepository (.cleanup true) hstarts) ?_
    exact (ReflTransGen.single (System.alone_call sys hread)).tail (System.alone_call sys hcheck) |>.tail
      (System.alone_call sys hunlink)

/-- Somebody else sets a ref. -/
def meddledRepository : Repository Unit := { cleanedRepository with refs := fun _ => some (.direct ['0']) }

end Crewplane.Workspace
