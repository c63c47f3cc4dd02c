import Crewplane.Workspace.RefPrograms
/-
# The repository that the programs of refs share

The commands of RefPrograms as steps on one repository, and the promises that the programs keep to each other. `created`
remembers, for the proof, which refs exist that a program created and nobody has touched since: such a ref is always named
by evidence of its owner that is not yet marked as removed (`Evidenced`). A program knows of its own file, which nobody else
writes, and of names under which it owns no ref (`Holds`); each command has its rule.
-/
namespace Crewplane.Workspace

open Crewplane.Lib Relation

/-! ## The evidence as pairs of a name and an object id -/

def RefPublication.recorded (publication : RefPublication) : List (Text × Text) :=
  publication.destinations.map fun destination => (destination.name, destination.targetOid)

/-- What the publication still claims to own. -/
def WorkspaceState.publicationClaims (payload : WorkspaceState) : List (Text × Text) :=
  match payload.refPublication with
  | none => []
  | some publication => if publication.phase = .removed then [] else publication.recorded

def WorkspaceState.temporaryClaims (payload : WorkspaceState) : List (Text × Text) :=
  ((payload.temporaryRefs.getD []).filter fun claim => claim.phase = .prepared).map fun claim => (claim.name, claim.targetOid)

/-- The refs that the evidence still claims. -/
def WorkspaceState.claims (payload : WorkspaceState) : List (Text × Text) :=
  payload.publicationClaims ++ payload.temporaryClaims

/-- Everything the evidence names, removed or not. -/
def WorkspaceState.recorded (payload : WorkspaceState) : List (Text × Text) :=
  (payload.refPublication.map RefPublication.recorded).getD [] ++
    (payload.temporaryRefs.getD []).map fun claim => (claim.name, claim.targetOid)

theorem publicationClaims_of {payload : WorkspaceState} {publication : RefPublication}
    (h : payload.refPublication = some publication) :
    payload.publicationClaims = if publication.phase = .removed then [] else publication.recorded := by
  simp [WorkspaceState.publicationClaims, h]

theorem recorded_of_publication {payload : WorkspaceState} {publication : RefPublication}
    (h : payload.refPublication = some publication) {ref : Text × Text} (href : ref ∈ publication.recorded) :
    ref ∈ payload.recorded := by
  simp [WorkspaceState.recorded, h, href]

theorem mem_temporaryClaims {payload : WorkspaceState} {name oid : Text} :
    (name, oid) ∈ payload.temporaryClaims ↔ ⟨.prepared, name, oid⟩ ∈ payload.temporaryRefs.getD [] := by
  simp only [WorkspaceState.temporaryClaims, List.mem_map, List.mem_filter, decide_eq_true_eq, Prod.mk.injEq]
  constructor
  · rintro ⟨⟨phase, n, o⟩, ⟨hmem, rfl⟩, rfl, rfl⟩
    exact hmem
  · exact fun h => ⟨_, ⟨h, rfl⟩, rfl, rfl⟩

/-! ## The repository -/

structure Repository (ι : Type) where
  refs : Text → Option RefValue
  /-- The state file of an invocation, or the evidence file of a consumer. -/
  files : ι → Option WorkspaceState
  /-- Refs that exist as a program of this owner created them. -/
  created : Text → Option (Text × ι)

/-- What a name resolves to; git follows five symbolic refs. -/
def resolve (refs : Text → Option RefValue) : Nat → Text → Option Text
  | 0, _ => none
  | depth + 1, name => match refs name with
    | none => none
    | some (.direct oid) => some oid
    | some (.symbolic target) => resolve refs depth target

def symrefDepth : Nat := 5

def RefOperation.name : RefOperation → Text
  | .verify name _ | .create name _ | .delete name _ => name

def RefOperation.Passes (refs : Text → Option RefValue) : RefOperation → Prop
  | .verify name none | .create name _ => refs name = none
  | .verify name (some old) | .delete name old => resolve refs symrefDepth name = some old

variable {ι : Type}

/-- A transaction is carried out as a whole; no name may come twice. -/
structure Accepted (operations : List RefOperation) (s : Repository ι) : Prop where
  nodup : (operations.map RefOperation.name).Nodup
  passes : ∀ operation ∈ operations, operation.Passes s.refs

/-- A third party: any refs may change, and a ref it touches is no longer as a program created it. -/
def ThirdParty (s t : Repository ι) : Prop :=
  t.files = s.files ∧ ∀ name, t.created name = none ∨ (t.created name = s.created name ∧ t.refs name = s.refs name)

def RefOperation.apply (i : ι) (s : Repository ι) : RefOperation → Repository ι
  | .verify _ _ => s
  | .create name new => { s with
    refs := Function.update s.refs name (some (.direct new)), created := Function.update s.created name (some (new, i)) }
  | .delete name _ => { s with
    refs := Function.update s.refs name none, created := Function.update s.created name none }

def applied (i : ι) (operations : List RefOperation) (s : Repository ι) : Repository ι := operations.foldl (RefOperation.apply i) s

section Applied

variable {operations : List RefOperation} {s : Repository ι}

theorem apply_other (i : ι) (s : Repository ι) {operation : RefOperation} {name : Text} (h : name ≠ operation.name) :
    (operation.apply i s).refs name = s.refs name ∧ (operation.apply i s).created name = s.created name := by
  cases operation with
  | verify => exact ⟨rfl, rfl⟩
  | create | delete => exact ⟨Function.update_of_ne h _ _, Function.update_of_ne h _ _⟩

theorem applied_files (i : ι) (s : Repository ι) : (applied i operations s).files = s.files := by
  unfold applied
  induction operations generalizing s with
  | nil => rfl
  | cons operation rest ih =>
    rw [List.foldl_cons, ih]
    cases operation <;> rfl

theorem applied_other (i : ι) (s : Repository ι) {name : Text} (h : name ∉ operations.map RefOperation.name) :
    (applied i operations s).refs name = s.refs name ∧ (applied i operations s).created name = s.created name := by
  unfold applied
  induction operations generalizing s with
  | nil => exact ⟨rfl, rfl⟩
  | cons operation rest ih =>
    simp only [List.map_cons, List.mem_cons, not_or] at h
    obtain ⟨hrefs, hcreated⟩ := ih (operation.apply i s) h.2
    obtain ⟨hrefs', hcreated'⟩ := apply_other i s h.1
    exact ⟨hrefs.trans hrefs', hcreated.trans hcreated'⟩

/-- As no name comes twice, every operation is carried out on what was there before. -/
theorem applied_mem (i : ι) (s : Repository ι) (hnodup : (operations.map RefOperation.name).Nodup) {operation : RefOperation}
    (h : operation ∈ operations) :
    (applied i operations s).refs operation.name = (operation.apply i s).refs operation.name ∧
      (applied i operations s).created operation.name = (operation.apply i s).created operation.name := by
  unfold applied
  induction operations generalizing s with
  | nil => simp at h
  | cons first rest ih =>
    simp only [List.map_cons, List.nodup_cons] at hnodup
    rcases List.mem_cons.1 h with rfl | hrest
    · exact applied_other i (operation.apply i s) hnodup.1
    · have hne : operation.name ≠ first.name := fun heq => hnodup.1 (heq ▸ List.mem_map_of_mem hrest)
      obtain ⟨hrefs, hcreated⟩ := ih (first.apply i s) hnodup.2 hrest
      obtain ⟨hrefs', hcreated'⟩ := apply_other i s hne
      refine ⟨hrefs.trans ?_, hcreated.trans ?_⟩
      · cases operation with
        | verify => exact hrefs'
        | create | delete => simp [RefOperation.apply, RefOperation.name]
      · cases operation with
        | verify => exact hcreated'
        | create | delete => simp [RefOperation.apply, RefOperation.name]

/-- What a transaction does to one name: nothing, its creation or its deletion. -/
theorem applied_at (i : ι) (h : Accepted operations s) (name : Text) :
    ((applied i operations s).refs name = s.refs name ∧ (applied i operations s).created name = s.created name) ∨
    (∃ oid, .create name oid ∈ operations ∧ s.refs name = none ∧
      (applied i operations s).refs name = some (.direct oid) ∧ (applied i operations s).created name = some (oid, i)) ∨
    (∃ oid, .delete name oid ∈ operations ∧ resolve s.refs symrefDepth name = some oid ∧
      (applied i operations s).refs name = none ∧ (applied i operations s).created name = none) := by
  by_cases hname : name ∈ operations.map RefOperation.name
  · obtain ⟨operation, hmem, rfl⟩ := List.mem_map.1 hname
    obtain ⟨hrefs, hcreated⟩ := applied_mem i s h.nodup hmem
    have hpasses := h.passes operation hmem
    cases operation with
    | verify => exact .inl ⟨hrefs, hcreated⟩
    | create ref oid =>
      refine .inr (.inl ⟨oid, hmem, hpasses, hrefs.trans ?_, hcreated.trans ?_⟩)
      · simp [RefOperation.apply, RefOperation.name]
      · simp [RefOperation.apply, RefOperation.name]
    | delete ref oid =>
      refine .inr (.inr ⟨oid, hmem, hpasses, hrefs.trans ?_, hcreated.trans ?_⟩)
      · simp [RefOperation.apply, RefOperation.name]
      · simp [RefOperation.apply, RefOperation.name]
  · exact .inl (applied_other i s hname)

end Applied

/-! ## The invariant and the promises -/

/-- Every untouched ref of a program is named by unremoved evidence of its owner, in a state file if it is a result ref. -/
structure Evidenced (dedicated : ι → Prop) (s : Repository ι) : Prop where
  named : ∀ name oid i, s.created name = some (oid, i) →
    s.refs name = some (.direct oid) ∧ ∃ payload, s.files i = some payload ∧ (name, oid) ∈ payload.claims
  dedicated : ∀ i, dedicated i → ∀ payload, s.files i = some payload → payload.refPublication = none

/-- A ref that a program changes is one it creates, at the object id that its evidence claims, or one it deletes, which
resolves to the object id that its evidence records. -/
def Backed (payload : WorkspaceState) (refs refs' : Text → Option RefValue) (name : Text) : Prop :=
  (refs name = none ∧ ∃ oid, refs' name = some (.direct oid) ∧ (name, oid) ∈ payload.claims) ∨
    (refs' name = none ∧ ∃ oid, resolve refs symrefDepth name = some oid ∧ (name, oid) ∈ payload.recorded)

structure Guarantee (dedicated : ι → Prop) (i : ι) (s t : Repository ι) : Prop where
  evidenced : Evidenced dedicated s → Evidenced dedicated t
  files : ∀ j, j ≠ i → t.files j = s.files j
  created : ∀ j, j ≠ i → ∀ name oid, t.created name = some (oid, j) → s.created name = some (oid, j)
  refs : ∀ name, t.refs name ≠ s.refs name → ∃ payload, s.files i = some payload ∧ Backed payload s.refs t.refs name

structure Rely (dedicated : ι → Prop) (i : ι) (s t : Repository ι) : Prop where
  evidenced : Evidenced dedicated s → Evidenced dedicated t
  files : t.files i = s.files i
  created : ∀ name oid, t.created name = some (oid, i) → s.created name = some (oid, i)

/-! ## What a program knows of its file -/

/-- What a program can rely on between its commands: the invariant, a fact of its own file, which nobody else writes, and
names under which it owns no ref. -/
structure Holds (dedicated : ι → Prop) (i : ι) (file : Option WorkspaceState → Prop) (gone : Text → Prop) (s : Repository ι) :
    Prop where
  evidenced : Evidenced dedicated s
  file : file (s.files i)
  gone : ∀ name, gone name → ∀ oid, s.created name ≠ some (oid, i)

section Rules

variable {dedicated : ι → Prop} {i : ι} {file file' failed : Option WorkspaceState → Prop} {gone gone' : Text → Prop}
  {s t : Repository ι}

theorem Holds.stable (hrely : Rely dedicated i s t) (h : Holds dedicated i file gone s) : Holds dedicated i file gone t where
  evidenced := hrely.evidenced h.evidenced
  file := hrely.files ▸ h.file
  gone := fun name hname oid hcreated => h.gone name hname oid (hrely.created name oid hcreated)

theorem Holds.weaken (h : Holds dedicated i file gone s) (hfile : ∀ f, file f → file' f) (hgone : ∀ name, gone' name → gone name) :
    Holds dedicated i file' gone' s :=
  ⟨h.evidenced, hfile _ h.file, fun name hname => h.gone name (hgone name hname)⟩

/-- A fact of the file alone. -/
theorem Holds.fact (h : Holds dedicated i file gone s) (hfile : file' (s.files i)) (hgone : ∀ name, gone' name → gone name) :
    Holds dedicated i file' gone' s :=
  ⟨h.evidenced, hfile, fun name hname => h.gone name (hgone name hname)⟩

/-- Nothing is known of the file. -/
def anything (_ : Option WorkspaceState) : Prop := True

/-- No name is known to be gone. -/
def nowhere (_ : Text) : Prop := False

theorem Evidenced.holds (h : Evidenced dedicated s) : Holds dedicated i anything nowhere s := ⟨h, trivial, fun _ hn => hn.elim⟩

theorem Guarantee.refl : Guarantee dedicated i s s where
  evidenced := id
  files := fun _ _ => rfl
  created := fun _ _ _ _ => id
  refs := fun _ h => absurd rfl h

/-- The evidence claims nothing. -/
def Resolved (f : Option WorkspaceState) : Prop := ∀ p, f = some p → p.claims = []

/-- Where the evidence claims nothing, its owner has no ref. -/
theorem Holds.no_refs (h : Holds dedicated i Resolved gone s) (name oid : Text) : s.created name ≠ some (oid, i) := by
  intro hcreated
  obtain ⟨-, p, hp, hmem⟩ := h.evidenced.named name oid i hcreated
  simp [h.file p hp] at hmem

theorem thirdParty_evidenced {s t : Repository ι} (h : Evidenced dedicated s) (hstep : ThirdParty s t) : Evidenced dedicated t := by
  refine ⟨fun name oid j hcreated => ?_, fun j hj p hp => h.dedicated j hj p (hstep.1 ▸ hp)⟩
  rcases hstep.2 name with hnone | ⟨hsame, hrefs⟩
  · simp [hnone] at hcreated
  · rw [hstep.1, hrefs]
    exact h.named name oid j (hsame ▸ hcreated)

/-- Before the first program no ref is one that a program created; evidence of earlier runs may lie about. -/
structure Initial (dedicated : ι → Prop) (s : Repository ι) : Prop where
  created : ∀ name, s.created name = none
  dedicated : ∀ i, dedicated i → ∀ payload, s.files i = some payload → payload.refPublication = none

theorem initial_evidenced {s : Repository ι} (h : Initial dedicated s) : Evidenced dedicated s :=
  ⟨fun name oid i hcreated => by simp [h.created name] at hcreated, h.dedicated⟩

/-- The evidence that an operation needs. -/
def RefOperation.Covered (f : Option WorkspaceState) : RefOperation → Prop
  | .verify _ _ => True
  | .create name oid => ∃ payload, f = some payload ∧ (name, oid) ∈ payload.claims
  | .delete name oid => ∃ payload, f = some payload ∧ (name, oid) ∈ payload.recorded

theorem Holds.transact {operations : List RefOperation} (h : Holds dedicated i file gone s) (haccepted : Accepted operations s)
    (hcovered : ∀ operation ∈ operations, operation.Covered (s.files i)) :
    Guarantee dedicated i s (applied i operations s) ∧
      Holds dedicated i file (fun name => (gone name ∧ ∀ oid, .create name oid ∉ operations) ∨ ∃ oid, .delete name oid ∈ operations)
        (applied i operations s) := by
  have hfiles : (applied i operations s).files = s.files := applied_files i s
  have hevidenced : Evidenced dedicated (applied i operations s) := by
    refine ⟨fun name oid j hcreated => ?_, fun j hj p hp => h.evidenced.dedicated j hj p (hfiles ▸ hp)⟩
    rw [hfiles]
    rcases applied_at i haccepted name with ⟨hrefs, hsame⟩ | ⟨new, hmem, -, hrefs, hnew⟩ | ⟨old, -, -, -, hnone⟩
    · exact hrefs ▸ h.evidenced.named name oid j (hsame ▸ hcreated)
    · obtain ⟨rfl, rfl⟩ : new = oid ∧ i = j := by simpa [hnew] using hcreated
      exact ⟨hrefs, hcovered _ hmem⟩
    · simp [hnone] at hcreated
  refine ⟨⟨fun _ => hevidenced, fun j _ => by rw [hfiles], fun j hj name oid hcreated => ?_, fun name hne => ?_⟩,
    ⟨hevidenced, hfiles ▸ h.file, fun name hname oid hcreated => ?_⟩⟩
  · rcases applied_at i haccepted name with ⟨-, hsame⟩ | ⟨new, -, -, -, hnew⟩ | ⟨old, -, -, -, hnone⟩
    · exact hsame ▸ hcreated
    · simp [hnew, Ne.symm hj] at hcreated
    · simp [hnone] at hcreated
  · rcases applied_at i haccepted name with ⟨hsame, -⟩ | ⟨new, hmem, hold, hnew, -⟩ | ⟨old, hmem, hold, hnew, -⟩
    · exact absurd hsame hne
    · obtain ⟨payload, hpayload, hclaim⟩ := hcovered _ hmem
      exact ⟨payload, hpayload, .inl ⟨hold, new, hnew, hclaim⟩⟩
    · obtain ⟨payload, hpayload, hrecorded⟩ := hcovered _ hmem
      exact ⟨payload, hpayload, .inr ⟨hnew, old, hold, hrecorded⟩⟩
  · rcases applied_at i haccepted name with ⟨-, hsame⟩ | ⟨new, hmem, -, -, -⟩ | ⟨old, hmem, -, -, hnone⟩
    · rcases hname with ⟨hgone, -⟩ | ⟨old, hmem⟩
      · exact h.gone name hgone oid (hsame ▸ hcreated)
      · have hdeleted := (applied_mem i s haccepted.nodup hmem).2
        simp [RefOperation.apply, RefOperation.name, hcreated] at hdeleted
    · rcases hname with ⟨-, hno⟩ | ⟨old, hdelete⟩
      · exact hno new hmem
      · have hdeleted := (applied_mem i s haccepted.nodup hdelete).2
        simp [RefOperation.apply, RefOperation.name, hcreated] at hdeleted
    · simp [hnone] at hcreated

variable [DecidableEq ι]

/-! ## The steps -/

def Repository.write (s : Repository ι) (i : ι) (file : Option WorkspaceState) : Repository ι :=
  { s with files := Function.update s.files i file }

/-- One command of a program that owns the file `i`. A failed write or transaction may have been carried out. A new import
id is in no name that the evidence holds. -/
def Exec (i : ι) : (c : RefCommand) → Repository ι → c.Answer → Repository ι → Prop
  | .readState, s, answer, t => t = s ∧ ∀ payload, answer = .ok payload → s.files i = some payload
  | .stateExists, s, answer, t => t = s ∧ answer = (s.files i).isSome
  | .writeState payload, s, answer, t => t = s.write i (some payload) ∨ (answer ≠ .ok () ∧ t = s)
  | .editState edit, s, answer, t =>
    (∃ p q, s.files i = some p ∧ edit p = .ok q ∧ t = s.write i (some q)) ∨ (answer ≠ .ok () ∧ t = s)
  | .unlinkState, s, answer, t => t = s.write i none ∨ (answer ≠ .ok () ∧ t = s)
  | .refOid name, s, answer, t => t = s ∧ ∀ oid, answer = .ok oid → s.refs name = oid.map RefValue.direct
  | .transaction operations, s, answer, t =>
    (Accepted operations s ∧ t = applied i operations s) ∨ (answer ≠ .ok () ∧ t = s)
  | .other, s, _, t => t = s
  | .newImportId, s, answer, t =>
    t = s ∧ ∀ payload, s.files i = some payload → ∀ claim ∈ payload.temporaryRefs.getD [], ¬answer <:+ claim.name

/-- Safe as the owner of the file `i`. -/
abbrev RefSafe {α : Type} (dedicated : ι → Prop) (i : ι) (Q : α → Repository ι → Prop) (E : Repository ι → Prop)
    (program : RefProg α) (s : Repository ι) : Prop :=
  program.Safe (Exec i) (Rely dedicated i) (Guarantee dedicated i) Q (fun _ => E) s

section Program

variable {α β : Type} {Q Q' : α → Repository ι → Prop} {E E' : Repository ι → Prop}

theorem safe_ret {a : α} (h : Holds dedicated i file gone s) (hQ : ∀ t, Holds dedicated i file gone t → Q a t) :
    RefSafe dedicated i Q E (.ret a) s := .ret (fun _ _ => Holds.stable) h hQ

theorem safe_raise {e : String} (h : Holds dedicated i file gone s) (hE : ∀ t, Holds dedicated i file gone t → E t) :
    RefSafe dedicated i Q E (.raise e) s := .raise (fun _ _ => Holds.stable) h hE

/-- A command that changes nothing; what its answer says is known afterwards. -/
theorem safe_look {c : RefCommand} {next : c.Answer → RefProg α} (h : Holds dedicated i file gone s)
    (hsame : ∀ t answer u, Exec i c t answer u → u = t)
    (hnext : ∀ t answer, Holds dedicated i file gone t → Exec i c t answer t → RefSafe dedicated i Q E (next answer) t) :
    RefSafe dedicated i Q E (.call c next) s := by
  refine .call (fun _ _ => Holds.stable) h fun t ht answer u hu => ?_
  obtain rfl := hsame t answer u hu
  exact ⟨.refl, hnext u answer ht hu⟩

theorem safe_other (h : Holds dedicated i file gone s) :
    RefSafe dedicated i (fun _ => Holds dedicated i file gone) (Holds dedicated i file gone) RefProg.other s := by
  refine safe_look h (fun t answer u hu => hu) fun t answer ht _ => ?_
  cases answer with
  | ok => exact safe_ret ht fun _ h => h
  | error => exact safe_raise ht fun _ h => h

theorem safe_check {message : String} (h : Holds dedicated i file gone s) :
    RefSafe dedicated i (fun _ => Holds dedicated i file gone) (Holds dedicated i file gone) (RefProg.check message) s := by
  refine safe_look h (fun t answer u hu => hu) fun t answer ht _ => ?_
  cases answer with
  | ok passed =>
    cases passed with
    | true => exact safe_ret ht fun _ h => h
    | false => exact safe_raise ht fun _ h => h
  | error => exact safe_raise ht fun _ h => h

theorem safe_checkedRef {ref : Text} (h : Holds dedicated i file gone s) :
    RefSafe dedicated i (fun r t => r = ref ∧ Holds dedicated i file gone t) (Holds dedicated i file gone) (checkedRef ref) s :=
  Prog.Safe.bind (safe_check h) fun _ _ ht => safe_ret ht fun _ h => ⟨rfl, h⟩

theorem safe_readState (h : Holds dedicated i file gone s) :
    RefSafe dedicated i (fun payload => Holds dedicated i (fun f => file f ∧ f = some payload) gone)
      (Holds dedicated i file gone) RefProg.readState s := by
  refine safe_look h (fun t answer u hu => hu.1) fun t answer ht hanswer => ?_
  cases answer with
  | ok payload => exact safe_ret (ht.fact ⟨ht.file, hanswer.2 payload rfl⟩ fun _ h => h) fun _ h => h
  | error => exact safe_raise ht fun _ h => h

theorem safe_stateExists (h : Holds dedicated i file gone s) :
    RefSafe dedicated i (fun present => Holds dedicated i (fun f => file f ∧ present = f.isSome) gone) E RefProg.stateExists s := by
  refine safe_look h (fun t answer u hu => hu.1) fun t answer ht hanswer => ?_
  exact safe_ret (ht.fact ⟨ht.file, hanswer.2⟩ fun _ h => h) fun _ h => h

/-- A name that holds no ref is none of the program's. -/
theorem safe_refOid {name : Text} (h : Holds dedicated i file gone s) :
    RefSafe dedicated i (fun oid => Holds dedicated i file fun n => gone n ∨ (n = name ∧ oid = none))
      (Holds dedicated i file gone) (RefProg.refOid name) s := by
  refine safe_look h (fun t answer u hu => hu.1) fun t answer ht hanswer => ?_
  cases answer with
  | ok oid =>
    have hknown : Holds dedicated i file (fun n => gone n ∨ (n = name ∧ oid = none)) t := by
      refine ⟨ht.evidenced, ht.file, fun n hn created hcreated => ?_⟩
      rcases hn with hn | ⟨rfl, rfl⟩
      · exact ht.gone n hn created hcreated
      · have hnone : t.refs n = none := hanswer.2 none rfl
        have hsome := (ht.evidenced.named n created i hcreated).1
        simp [hnone] at hsome
    exact safe_ret hknown fun _ h => h
  | error => exact safe_raise ht fun _ h => h

/-- No claim of the file has a name that ends with the import id. -/
def FreshId (importId : Text) (f : Option WorkspaceState) : Prop :=
  ∀ payload, f = some payload → ∀ claim ∈ payload.temporaryRefs.getD [], ¬importId <:+ claim.name

theorem safe_newImportId (h : Holds dedicated i file gone s) :
    RefSafe dedicated i (fun importId => Holds dedicated i (fun f => file f ∧ FreshId importId f) gone) E
      RefProg.newImportId s := by
  refine safe_look h (fun t answer u hu => hu.1) fun t answer ht hanswer => ?_
  exact safe_ret (ht.fact ⟨ht.file, hanswer.2⟩ fun _ h => h) fun _ h => h

/-! ### Writes -/

/-- Writing the own file keeps the invariant if every claim it drops is of a name that is gone. -/
theorem Holds.write (h : Holds dedicated i file gone s) (f : Option WorkspaceState) (known : Option WorkspaceState → Prop)
    (hfile : known f)
    (hclaims : ∀ p, s.files i = some p → ∀ ref ∈ p.claims, gone ref.1 ∨ ∃ q, f = some q ∧ ref ∈ q.claims)
    (hdedicated : dedicated i → ∀ q, f = some q → q.refPublication = none) :
    Guarantee dedicated i s (s.write i f) ∧ Holds dedicated i known gone (s.write i f) := by
  have hevidenced : Evidenced dedicated (s.write i f) := by
    refine ⟨fun name oid j hcreated => ?_, fun j hj q hq => ?_⟩
    · obtain ⟨href, p, hp, hmem⟩ := h.evidenced.named name oid j hcreated
      refine ⟨href, ?_⟩
      by_cases hji : j = i
      · subst hji
        rcases hclaims p hp _ hmem with hgone | ⟨q, hq, hmem⟩
        · exact absurd hcreated (h.gone name hgone oid)
        · exact ⟨q, by simp [Repository.write, hq], hmem⟩
      · exact ⟨p, by simp [Repository.write, Function.update_of_ne hji, hp], hmem⟩
    · by_cases hji : j = i
      · subst hji
        exact hdedicated hj q (by simpa [Repository.write] using hq)
      · exact h.evidenced.dedicated j hj q (by simpa [Repository.write, Function.update_of_ne hji] using hq)
  refine ⟨⟨fun _ => hevidenced, fun j hj => ?_, fun _ _ _ _ => id, fun _ hne => absurd rfl hne⟩, ?_⟩
  · simp [Repository.write, Function.update_of_ne hj]
  · exact ⟨hevidenced, by simpa [Repository.write] using hfile, h.gone⟩

theorem safe_editState {edit : WorkspaceState → Except String WorkspaceState} (h : Holds dedicated i file gone s)
    (hkeep : ∀ f, file f → failed f)
    (hedit : ∀ p q, file (some p) → edit p = .ok q → file' (some q) ∧ failed (some q) ∧
      (∀ ref ∈ p.claims, gone ref.1 ∨ ref ∈ q.claims) ∧ (dedicated i → p.refPublication = none → q.refPublication = none)) :
    RefSafe dedicated i (fun _ => Holds dedicated i file' gone) (Holds dedicated i failed gone) (RefProg.editState edit) s := by
  refine .call (fun _ _ => Holds.stable) h fun t ht answer u hu => ?_
  rcases hu with ⟨p, q, hp, hq, rfl⟩ | ⟨herror, rfl⟩
  · obtain ⟨hfile', hfailed, hclaims, hdedicated⟩ := hedit p q (hp ▸ ht.file) hq
    have hwrite := ht.write (some q) (fun f => file' f ∧ failed f) ⟨hfile', hfailed⟩
      (fun p' hp' ref href => by
        obtain rfl : p = p' := by simpa [hp] using hp'
        rcases hclaims ref href with hgone | hmem
        · exact .inl hgone
        · exact .inr ⟨q, rfl, hmem⟩)
      (fun hi q' hq' => by
        obtain rfl : q = q' := by simpa using hq'
        exact hdedicated hi (ht.evidenced.dedicated i hi p hp))
    refine ⟨hwrite.1, .ofExcept (fun _ _ => Holds.stable) hwrite.2 ?_ ?_⟩
    · exact fun _ _ _ h => h.weaken (fun _ hf => hf.1) fun _ hn => hn
    · exact fun _ _ _ h => h.weaken (fun _ hf => hf.2) fun _ hn => hn
  · refine ⟨.refl, .ofExcept (fun _ _ => Holds.stable) ht ?_ ?_⟩
    · exact fun a ha => absurd ha herror
    · exact fun _ _ _ h => h.weaken hkeep fun _ hn => hn

theorem safe_unlinkState (h : Holds dedicated i file gone s) (hkeep : ∀ f, file f → failed f) (hnone : failed none)
    (hclaims : ∀ p, file (some p) → ∀ ref ∈ p.claims, gone ref.1) :
    RefSafe dedicated i (fun _ => Holds dedicated i (fun f => f = none) gone) (Holds dedicated i failed gone)
      RefProg.unlinkState s := by
  refine .call (fun _ _ => Holds.stable) h fun t ht answer u hu => ?_
  rcases hu with rfl | ⟨herror, rfl⟩
  · have hwrite := ht.write none (fun f => f = none) rfl
      (fun p hp ref href => .inl (hclaims p (hp ▸ ht.file) ref href)) (fun _ q hq => by simp at hq)
    refine ⟨hwrite.1, .ofExcept (fun _ _ => Holds.stable) hwrite.2 (fun _ _ _ h => h) ?_⟩
    exact fun _ _ _ h => h.weaken (fun f hf => hf ▸ hnone) fun _ hn => hn
  · refine ⟨.refl, .ofExcept (fun _ _ => Holds.stable) ht (fun a ha => absurd ha herror) ?_⟩
    exact fun _ _ _ h => h.weaken hkeep fun _ hn => hn

/-- The first write of an evidence file. -/
theorem safe_writeState {payload : WorkspaceState} (h : Holds dedicated i file gone s) (hkeep : ∀ f, file f → failed f)
    (hnew : ∀ f, file f → f = none ∧ file' (some payload) ∧ failed (some payload))
    (hpublication : payload.refPublication = none) :
    RefSafe dedicated i (fun _ => Holds dedicated i file' gone) (Holds dedicated i failed gone)
      (RefProg.writeState payload) s := by
  refine .call (fun _ _ => Holds.stable) h fun t ht answer u hu => ?_
  obtain ⟨hnone, hfile', hfailed⟩ := hnew _ ht.file
  rcases hu with rfl | ⟨herror, rfl⟩
  · have hwrite := ht.write (some payload) (fun f => file' f ∧ failed f) ⟨hfile', hfailed⟩
      (fun p hp => by simp [hnone] at hp)
      (fun _ q hq => by
        obtain rfl : payload = q := by simpa using hq
        exact hpublication)
    refine ⟨hwrite.1, .ofExcept (fun _ _ => Holds.stable) hwrite.2 ?_ ?_⟩
    · exact fun _ _ _ h => h.weaken (fun _ hf => hf.1) fun _ hn => hn
    · exact fun _ _ _ h => h.weaken (fun _ hf => hf.2) fun _ hn => hn
  · refine ⟨.refl, .ofExcept (fun _ _ => Holds.stable) ht (fun a ha => absurd ha herror) ?_⟩
    exact fun _ _ _ h => h.weaken hkeep fun _ hn => hn

end Program

/-! ### Transactions -/

section Transaction

variable {operations : List RefOperation}

theorem safe_transaction (h : Holds dedicated i file gone s)
    (hcovered : ∀ f, file f → ∀ operation ∈ operations, operation.Covered f)
    (hgone : ∀ name, gone' name → gone name ∧ ∀ oid, .create name oid ∉ operations) :
    RefSafe dedicated i
      (fun _ => Holds dedicated i file fun name => gone' name ∨ ∃ oid, .delete name oid ∈ operations)
      (Holds dedicated i file gone') (RefProg.transaction operations) s := by
  refine .call (fun _ _ => Holds.stable) h fun t ht answer u hu => ?_
  rcases hu with ⟨haccepted, rfl⟩ | ⟨herror, rfl⟩
  · have htransact := ht.transact haccepted (hcovered _ ht.file)
    refine ⟨htransact.1, .ofExcept (fun _ _ => Holds.stable) htransact.2 ?_ ?_⟩
    · exact fun _ _ _ h => h.weaken (fun _ hf => hf) fun name hn => hn.imp_left (hgone name)
    · exact fun _ _ _ h => h.weaken (fun _ hf => hf) fun name hn => .inl (hgone name hn)
  · refine ⟨.refl, .ofExcept (fun _ _ => Holds.stable) ht (fun a ha => absurd ha herror) ?_⟩
    exact fun _ _ _ h => h.weaken (fun _ hf => hf) fun name hn => (hgone name hn).1

end Transaction

end Rules

end Crewplane.Workspace
