import Crewplane.Workspace.BranchExport
/-
# Branch exports under crashes and third parties

Any number of exports, each attempted any number of times one attempt after the other, cut or failing at any point, with
third parties that set, move and delete any branch. For the proof, `held` remembers which branches resolved to which commits
at some time since the record of an export was last written, and `kept` at which commits they stood all that time.

Main result (`exports_recover`): a step of an attempt changes a branch only by creating its own, where none was, at the
commit that the record announces; it writes only records that the next attempt accepts; a record that says fulfilled is
written only after the branch was at its commit; a fulfilled record whose branch stayed in place is never replaced; and an
attempt to create the branch that returns leaves a fulfilled record.
-/
namespace Crewplane.Workspace

open Crewplane.Lib Relation

/-! ## The stores -/

/-- The record file of an export. -/
inductive RecordFile
  | absent
  /-- Not a regular file, or not a JSON object. -/
  | unreadable
  | record (payload : BranchExportPayload)

structure Exports (ι : Type) where
  branches : Text → Option RefValue
  records : ι → RecordFile
  /-- What a branch resolved to at some time since the record was last written. -/
  held : ι → Set (Text × Text)
  /-- Where a branch stood ever since the record was last written. -/
  kept : ι → Set (Text × Text)

def Resolving (branches : Text → Option RefValue) : Set (Text × Text) :=
  { at' | resolve branches symrefDepth at'.1 = some at'.2 }

def Standing (branches : Text → Option RefValue) : Set (Text × Text) :=
  { at' | branches at'.1 = some (.direct at'.2) }

theorem standing_resolving {branches : Text → Option RefValue} {branch commit : Text}
    (h : branches branch = some (.direct commit)) : resolve branches symrefDepth branch = some commit := by
  simp [symrefDepth, resolve, h]

variable {ι : Type}

def Exports.move (s : Exports ι) (branches : Text → Option RefValue) : Exports ι := { s with
  branches := branches
  held := fun i => s.held i ∪ Resolving branches
  kept := fun i => s.kept i ∩ Standing branches }

/-- A third party: any branches may change. -/
def Meddles (s t : Exports ι) : Prop := ∃ branches, t = s.move branches

structure Consistent (s : Exports ι) : Prop where
  held : ∀ i at', at' ∈ Resolving s.branches → at' ∈ s.held i
  kept : ∀ i at', at' ∈ s.kept i → at' ∈ Standing s.branches

theorem consistent_move (s : Exports ι) (branches : Text → Option RefValue) : Consistent (s.move branches) :=
  ⟨fun _ _ h => .inr h, fun _ _ h => h.2⟩

/-- Before the first attempt: any branches and any records. -/
structure Fresh (s : Exports ι) : Prop where
  held : ∀ i, s.held i = Resolving s.branches
  kept : ∀ i, s.kept i = Standing s.branches

theorem fresh_consistent {s : Exports ι} (h : Fresh s) : Consistent s :=
  ⟨fun i _ hat => h.held i ▸ hat, fun i _ hat => h.kept i ▸ hat⟩

/-! ## Promises -/

structure ExportRely (i : ι) (s t : Exports ι) : Prop where
  consistent : Consistent s → Consistent t
  record : t.records i = s.records i
  held : ∀ at' ∈ s.held i, at' ∈ t.held i
  kept : ∀ at' ∈ t.kept i, at' ∈ s.kept i

section Promises

variable (sha256 : Text → Text)

/-- The next attempt accepts the record, if it finds the checkpoint that this one found, if it found any. -/
def AcceptedNext (request : BranchExportAttempt) (payload : BranchExportPayload) : Prop :=
  ∃ found : Option BranchExportCheckpoint, (∀ c, found = some c → c.nodeId = request.nodeId) ∧
    ∀ checkpoint : BranchExportCheckpoint, checkpoint.nodeId = request.nodeId → (∀ c, found = some c → checkpoint = c) →
      RecordAccepted payload (request.expectation sha256 checkpoint)

structure ExportGuarantee (i : ι) (request : BranchExportAttempt) (s t : Exports ι) : Prop where
  consistent : Consistent s → Consistent t
  others : ∀ j, j ≠ i → t.records j = s.records j ∧ (∀ at' ∈ s.held j, at' ∈ t.held j) ∧ ∀ at' ∈ t.kept j, at' ∈ s.kept j
  /-- No branch is moved; the own branch is created as announced. -/
  branches : ∀ branch, t.branches branch ≠ s.branches branch → s.branches branch = none ∧ branch = request.branchRef sha256 ∧
    ∃ commit payload, t.branches branch = some (.direct commit) ∧ s.records i = .record payload ∧ Announced branch commit payload
  record : t.records i = s.records i ∨ ∃ payload, t.records i = .record payload ∧ AcceptedNext sha256 request payload ∧
    (∀ branch commit, Completed branch commit payload → (branch, commit) ∈ s.held i) ∧
    ∀ old commit, s.records i = .record old → request.policy.createBranch = true →
      Completed (request.branchRef sha256) commit old → (request.branchRef sha256, commit) ∉ s.kept i

/-- What an attempt leaves that returns. -/
def ExportReturns (i : ι) (request : BranchExportAttempt) (s : Exports ι) : Prop :=
  ∃ payload, s.records i = .record payload ∧
    (request.policy.createBranch = true → ∃ commit, Completed (request.branchRef sha256) commit payload)

end Promises

/-! ## What an attempt knows -/

/-- A fact of the own record, commits at which the own branch was since it was written, and commits at which it was not
all the time. -/
structure Knows (i : ι) (branch : Text) (file : RecordFile → Prop) (seen lost : Text → Prop) (s : Exports ι) : Prop where
  consistent : Consistent s
  file : file (s.records i)
  seen : ∀ commit, seen commit → (branch, commit) ∈ s.held i
  lost : ∀ commit, lost commit → (branch, commit) ∉ s.kept i

section Rules

variable {sha256 : Text → Text} {i : ι} {request : BranchExportAttempt} {branch : Text} {file file' : RecordFile → Prop}
  {seen seen' lost lost' : Text → Prop} {s t : Exports ι}

theorem Knows.stable (hrely : ExportRely i s t) (h : Knows i branch file seen lost s) : Knows i branch file seen lost t where
  consistent := hrely.consistent h.consistent
  file := hrely.record ▸ h.file
  seen := fun commit hseen => hrely.held _ (h.seen commit hseen)
  lost := fun commit hlost hkept => h.lost commit hlost (hrely.kept _ hkept)

theorem Knows.weaken (h : Knows i branch file seen lost s) (hfile : ∀ f, file f → file' f)
    (hseen : ∀ commit, seen' commit → seen commit) (hlost : ∀ commit, lost' commit → lost commit) :
    Knows i branch file' seen' lost' s :=
  ⟨h.consistent, hfile _ h.file, fun commit hc => h.seen commit (hseen commit hc), fun commit hc => h.lost commit (hlost commit hc)⟩

theorem Knows.mapFile (h : Knows i branch file seen lost s) (hfile : ∀ f, file f → file' f) : Knows i branch file' seen lost s :=
  h.weaken hfile (fun _ hc => hc) fun _ hc => hc

/-- The branch is forgotten. -/
theorem Knows.onlyFile (h : Knows i branch file seen lost s) (hfile : ∀ f, file f → file' f) :
    Knows i branch file' (fun _ => False) (fun _ => False) s :=
  h.weaken hfile (fun _ hc => hc.elim) fun _ hc => hc.elim

/-- The same knowledge of branches, and what is known of the file now. -/
theorem Knows.fact (h : Knows i branch file seen lost s) (hfile : file' (s.records i)) : Knows i branch file' seen lost s :=
  ⟨h.consistent, hfile, h.seen, h.lost⟩

/-- What the name resolves to has been seen, and it cannot have stood elsewhere all the time. -/
theorem Knows.resolved (h : Knows i branch file seen lost s) {commit : Text}
    (hresolve : resolve s.branches symrefDepth branch = some commit) :
    Knows i branch file (fun c => seen c ∨ c = commit) (fun c => lost c ∨ c ≠ commit) s := by
  refine ⟨h.consistent, h.file, fun c hc => ?_, fun c hc hkept => ?_⟩
  · rcases hc with hc | rfl
    · exact h.seen c hc
    · exact h.consistent.held i _ hresolve
  · rcases hc with hc | hne
    · exact h.lost c hc hkept
    · have hstanding := standing_resolving (h.consistent.kept i _ hkept)
      exact hne (Option.some.inj (hstanding.symm.trans hresolve))

/-- A branch that does not stand at a commit stood at none all the time. -/
theorem Knows.absent (h : Knows i branch file seen lost s) (habsent : ∀ commit, s.branches branch ≠ some (.direct commit)) :
    Knows i branch file seen (fun _ => True) s :=
  ⟨h.consistent, h.file, h.seen, fun commit _ hkept => habsent commit (h.consistent.kept i _ hkept)⟩

theorem ExportGuarantee.refl : ExportGuarantee sha256 i request s s where
  consistent := id
  others := fun _ _ => ⟨rfl, fun _ => id, fun _ => id⟩
  branches := fun _ h => absurd rfl h
  record := .inl rfl

/-! ## The steps -/

variable [DecidableEq ι]

def Exports.write (s : Exports ι) (i : ι) (file : RecordFile) : Exports ι := { s with
  records := Function.update s.records i file
  held := Function.update s.held i (Resolving s.branches)
  kept := Function.update s.kept i (Standing s.branches) }

/-- One command of an attempt on the export `i`. A failed write, and an update that failed or timed out, may have been carried
out. -/
def ExportExec (i : ι) : (c : ExportCommand) → Exports ι → c.Answer → Exports ι → Prop
  | .recordExists, s, answer, t => t = s ∧ (answer = false ↔ s.records i = .absent)
  | .loadRecord, s, answer, t => t = s ∧ ∀ payload, answer = .ok payload → s.records i = .record payload
  | .writeRecord payload, s, answer, t => t = s.write i (.record payload) ∨ (answer ≠ .ok () ∧ t = s)
  | .checkpoint, s, _, t => t = s
  | .normalizedRef _, s, _, t => t = s
  | .symbolicRef ref, s, answer, t =>
    t = s ∧ ∀ target, answer = .ok (some target) → s.branches ref = some (.symbolic target)
  | .showRef ref, s, answer, t => t = s ∧ ∀ present, answer = .ok present → present = (resolve s.branches symrefDepth ref).isSome
  | .revParse ref, s, answer, t => t = s ∧ ∀ commit, answer = .ok commit → resolve s.branches symrefDepth ref = some commit
  | .updateRef ref commit, s, answer, t =>
    (s.branches ref = none ∧ t = s.move (Function.update s.branches ref (some (.direct commit)))) ∨ (answer ≠ .done ∧ t = s)
  | .other, s, _, t => t = s
  | .now, s, _, t => t = s

abbrev ExportSafe {α : Type} (sha256 : Text → Text) (i : ι) (request : BranchExportAttempt) (Q : α → Exports ι → Prop)
    (E : ExportError → Exports ι → Prop) (program : ExportProg α) (s : Exports ι) : Prop :=
  program.Safe (ExportExec i) (ExportRely i) (ExportGuarantee sha256 i request) Q E s

section Program

variable {α : Type} {Q : α → Exports ι → Prop} {E : ExportError → Exports ι → Prop}

theorem export_ret {a : α} (h : Knows i branch file seen lost s) (hQ : ∀ t, Knows i branch file seen lost t → Q a t) :
    ExportSafe sha256 i request Q E (.ret a) s := .ret (fun _ _ => Knows.stable) h hQ

theorem export_raise {e : ExportError} (h : Knows i branch file seen lost s)
    (hE : ∀ t, Knows i branch file seen lost t → E e t) : ExportSafe sha256 i request Q E (.raise e) s :=
  .raise (fun _ _ => Knows.stable) h hE

theorem export_answered {a : Except String α} (h : Knows i branch file seen lost s)
    (hQ : ∀ v, a = .ok v → ∀ t, Knows i branch file seen lost t → Q v t)
    (hE : ∀ m t, Knows i branch file seen lost t → E (.other m) t) :
    ExportSafe sha256 i request Q E (ExportProg.answered a) s := by
  cases a with
  | ok v => exact export_ret h (hQ v rfl)
  | error m => exact export_raise h (hE m)

/-- A command that changes nothing. -/
theorem export_look {c : ExportCommand} {next : c.Answer → ExportProg α} (h : Knows i branch file seen lost s)
    (hsame : ∀ t answer u, ExportExec i c t answer u → u = t)
    (hnext : ∀ t answer, Knows i branch file seen lost t → ExportExec i c t answer t →
      ExportSafe sha256 i request Q E (next answer) t) :
    ExportSafe sha256 i request Q E (.call c next) s := by
  refine .call (fun _ _ => Knows.stable) h fun t ht answer u hu => ?_
  obtain rfl := hsame t answer u hu
  exact ⟨.refl, hnext u answer ht hu⟩

theorem export_other (h : Knows i branch file seen lost s) :
    ExportSafe sha256 i request (fun _ => Knows i branch file seen lost) (fun _ => Knows i branch file seen lost)
      ExportProg.other s :=
  export_look h (fun _ _ _ hu => hu) fun _ _ ht _ => export_answered ht (fun _ _ _ h => h) fun _ _ h => h

theorem export_now (h : Knows i branch file seen lost s) :
    ExportSafe sha256 i request (fun _ => Knows i branch file seen lost) E ExportProg.now s :=
  export_look h (fun _ _ _ hu => hu) fun _ _ ht _ => export_ret ht fun _ h => h

theorem export_checkpoint (h : Knows i branch file seen lost s) :
    ExportSafe sha256 i request (fun _ => Knows i branch file seen lost) (fun _ => Knows i branch file seen lost)
      ExportProg.checkpoint s :=
  export_look h (fun _ _ _ hu => hu) fun _ _ ht _ => export_answered ht (fun _ _ _ h => h) fun _ _ h => h

theorem export_normalizedRef {ref : Text} (h : Knows i branch file seen lost s) :
    ExportSafe sha256 i request (fun _ => Knows i branch file seen lost) (fun _ => Knows i branch file seen lost)
      (ExportProg.normalizedRef ref) s :=
  export_look h (fun _ _ _ hu => hu) fun _ _ ht _ => export_answered ht (fun _ _ _ h => h) fun _ _ h => h

theorem export_recordExists (h : Knows i branch file seen lost s) :
    ExportSafe sha256 i request (fun present => Knows i branch (fun f => file f ∧ (present = false ↔ f = .absent)) seen lost) E
      ExportProg.recordExists s :=
  export_look h (fun _ _ _ hu => hu.1) fun _ _ ht hu => export_ret (ht.fact ⟨ht.file, hu.2⟩) fun _ h => h

theorem export_loadRecord (h : Knows i branch file seen lost s) :
    ExportSafe sha256 i request (fun payload => Knows i branch (fun f => file f ∧ f = .record payload) seen lost)
      (fun _ => Knows i branch file seen lost) ExportProg.loadRecord s := by
  refine export_look h (fun _ _ _ hu => hu.1) fun t answer ht hu => ?_
  cases answer with
  | ok payload => exact export_ret (ht.fact ⟨ht.file, hu.2 payload rfl⟩) fun _ h => h
  | error => exact export_raise ht fun _ h => h

/-! ### Looking at the branch -/

/-- What was learnt from `branch_commit`. -/
def probed (seen lost : Text → Prop) (commit : Option Text) : (Text → Prop) × (Text → Prop) :=
  (fun c => seen c ∨ commit = some c, fun c => lost c ∨ commit ≠ some c)

/-- What was learnt when it failed. -/
def misread (lost : Text → Prop) : ExportError → Text → Prop
  | .symbolic _ => fun _ => True
  | _ => lost

theorem safe_branchCommit (h : Knows i branch file seen lost s) :
    ExportSafe sha256 i request (fun commit => Knows i branch file (probed seen lost commit).1 (probed seen lost commit).2)
      (fun e => Knows i branch file seen (misread lost e)) (branchCommit branch) s := by
  refine export_look h (fun _ _ _ hu => hu.1) fun t answer ht hu => ?_
  cases answer with
  | error => exact export_raise ht fun _ h => h
  | ok target =>
    cases target with
    | some target =>
      have hsymbolic := hu.2 target rfl
      exact export_raise (ht.absent fun commit hdirect => by simp [hsymbolic] at hdirect) fun _ h => h
    | none =>
      refine export_look ht (fun _ _ _ hu => hu.1) fun u answer hu' hpresent => ?_
      cases answer with
      | error => exact export_raise hu' fun _ h => h
      | ok present =>
        cases present with
        | false =>
          have hnone : resolve u.branches symrefDepth branch = none := by simpa using hpresent.2 false rfl
          refine export_ret (hu'.absent fun commit hdirect => ?_) fun v hv => ?_
          · simp [standing_resolving hdirect] at hnone
          · exact hv.weaken (fun _ hf => hf) (fun c hc => by simpa [probed] using hc) fun _ _ => trivial
        | true =>
          refine export_look hu' (fun _ _ _ hu => hu.1) fun v answer hv hcommit => ?_
          cases answer with
          | error => exact export_raise hv fun _ h => h
          | ok commit =>
            refine export_ret (hv.resolved (hcommit.2 commit rfl)) fun w hw => hw.weaken (fun _ hf => hf) ?_ ?_
            · exact fun c hc => hc.imp_right fun heq => (Option.some.inj heq).symm
            · exact fun c hc => hc.imp_right fun hne heq => hne (by rw [heq])

/-! ### Changing the branch and the record -/

/-- The own branch is created under a record that announces it. -/
theorem safe_updateRef {commit : Text} (h : Knows i (request.branchRef sha256) file seen lost s)
    (hannounced : ∀ f, file f → ∃ payload, f = .record payload ∧ Announced (request.branchRef sha256) commit payload) :
    ExportSafe sha256 i request
      (fun outcome => Knows i (request.branchRef sha256) file (fun c => seen c ∨ (outcome = .done ∧ c = commit)) lost) E
      (ExportProg.updateRef (request.branchRef sha256) commit) s := by
  refine .call (fun _ _ => Knows.stable) h fun t ht answer u hu => ?_
  rcases hu with ⟨hnone, rfl⟩ | ⟨hfailed, rfl⟩
  · obtain ⟨payload, hpayload, hannounced⟩ := hannounced _ ht.file
    refine ⟨⟨fun _ => consistent_move _ _, fun j _ => ⟨rfl, fun _ => .inl, fun _ h => h.1⟩, fun name hname => ?_, .inl rfl⟩, ?_⟩
    · by_cases hown : name = request.branchRef sha256
      · subst hown
        exact ⟨hnone, rfl, commit, payload, by simp [Exports.move], hpayload, hannounced⟩
      · exact absurd (Function.update_of_ne hown _ _) hname
    · have hcreated : Knows i (request.branchRef sha256) file (fun c => seen c ∨ c = commit) lost
          (t.move (Function.update t.branches (request.branchRef sha256) (some (.direct commit)))) := by
        refine ⟨consistent_move _ _, ht.file, fun c hc => ?_, fun c hc hkept => ht.lost c hc hkept.1⟩
        rcases hc with hc | rfl
        · exact .inl (ht.seen c hc)
        · exact .inr (standing_resolving (Function.update_self _ _ _))
      exact export_ret hcreated fun _ h => h.weaken (fun _ hf => hf) (fun c hc => hc.imp_right And.right) fun _ hc => hc
  · refine ⟨.refl, export_ret ht fun _ h => h.weaken (fun _ hf => hf) (fun c hc => ?_) fun _ hc => hc⟩
    exact hc.resolve_right fun hdone => hfailed hdone.1

/-- What must be known of a record that is written over what is there. -/
structure Writable (sha256 : Text → Text) (request : BranchExportAttempt) (file : RecordFile → Prop) (seen lost : Text → Prop)
    (payload : BranchExportPayload) : Prop where
  accepted : AcceptedNext sha256 request payload
  completed : ∀ branch commit, Completed branch commit payload → branch = request.branchRef sha256 ∧ seen commit
  steady : ∀ old commit, file (.record old) → request.policy.createBranch = true →
    Completed (request.branchRef sha256) commit old → lost commit ∨ payload = old

theorem safe_writeRecord {payload : BranchExportPayload} (h : Knows i (request.branchRef sha256) file seen lost s)
    (hwritable : Writable sha256 request file seen lost payload) :
    ExportSafe sha256 i request
      (fun _ => Knows i (request.branchRef sha256) (fun f => f = .record payload) (fun _ => False) (fun _ => False))
      (fun _ => Knows i (request.branchRef sha256) (fun f => file f ∨ f = .record payload) (fun _ => False) (fun _ => False))
      (ExportProg.writeRecord payload) s := by
  refine .call (fun _ _ => Knows.stable) h fun t ht answer u hu => ?_
  rcases hu with rfl | ⟨herror, rfl⟩
  · have hconsistent : Consistent (t.write i (.record payload)) := by
      refine ⟨fun j at' hat => ?_, fun j at' hat => ?_⟩
      · by_cases hj : j = i
        · subst hj
          simpa [Exports.write] using hat
        · simpa [Exports.write, Function.update_of_ne hj] using ht.consistent.held j at' hat
      · by_cases hj : j = i
        · subst hj
          simpa [Exports.write] using hat
        · exact ht.consistent.kept j at' (by simpa [Exports.write, Function.update_of_ne hj] using hat)
    have hknows : Knows i (request.branchRef sha256) (fun f => f = .record payload) (fun _ => False) (fun _ => False)
        (t.write i (.record payload)) :=
      ⟨hconsistent, by simp [Exports.write], fun _ hc => hc.elim, fun _ hc => hc.elim⟩
    refine ⟨⟨fun _ => hconsistent, fun j hj => ?_, fun _ hne => absurd rfl hne, ?_⟩, ?_⟩
    · simp [Exports.write, Function.update_of_ne hj]
    · by_cases hsame : t.records i = .record payload
      · exact .inl (by simp [Exports.write, hsame])
      · refine .inr ⟨payload, by simp [Exports.write], hwritable.accepted, fun name commit hcompleted => ?_, ?_⟩
        · obtain ⟨rfl, hseen⟩ := hwritable.completed name commit hcompleted
          exact ht.seen commit hseen
        · intro old commit hold hcreate hcompleted
          rcases hwritable.steady old commit (hold ▸ ht.file) hcreate hcompleted with hlost | rfl
          · exact ht.lost commit hlost
          · exact absurd hold hsame
    · exact export_answered hknows (fun _ _ _ h => h) fun _ _ h => h.mapFile fun _ => .inr
  · refine ⟨.refl, ?_⟩
    cases answer with
    | ok => exact absurd rfl herror
    | error => exact export_raise ht fun _ h => h.onlyFile fun _ => .inl

/-! ### The operation -/

/-- The branch was at the commit; an existing branch was taken only where that is allowed. -/
def Operated (i : ι) (branch commit : Text) (allowExisting : Bool) (file : RecordFile → Prop) (seen lost : Text → Prop)
    (operation : BranchExportOperation) (s : Exports ι) : Prop :=
  (operation = .verifiedExisting → allowExisting = true) ∧ Knows i branch file (fun c => seen c ∨ c = commit) lost s

theorem safe_createMissingBranchRef {commit : Text} {allowExisting : Bool}
    (h : Knows i (request.branchRef sha256) file seen lost s)
    (hannounced : ∀ f, file f → ∃ payload, f = .record payload ∧ Announced (request.branchRef sha256) commit payload) :
    ExportSafe sha256 i request (Operated i (request.branchRef sha256) commit allowExisting file seen lost)
      (fun _ => Knows i (request.branchRef sha256) file seen lost)
      (createMissingBranchRef (request.branchRef sha256) commit allowExisting) s := by
  refine Prog.Safe.bind (safe_updateRef h hannounced) fun outcome t ht => ?_
  have hforget : Knows i (request.branchRef sha256) file seen lost t := ht.weaken (fun _ hf => hf) (fun _ => .inl) fun _ hc => hc
  cases outcome with
  | done => exact export_ret ht fun u hu => ⟨by simp, hu.weaken (fun _ hf => hf) (fun c hc => hc.imp_right fun h => ⟨rfl, h⟩) fun _ hc => hc⟩
  | timedOut => exact export_raise hforget fun _ h => h
  | failed message =>
    refine Prog.Safe.bind ((safe_branchCommit hforget).conseq (fun _ _ h => h) fun e _ h => h.weaken (fun _ hf => hf)
      (fun _ hc => hc) fun c hc => by cases e <;> first | exact hc | trivial) fun raced u hu => ?_
    have hraced : Knows i (request.branchRef sha256) file seen lost u :=
      hu.weaken (fun _ hf => hf) (fun _ => .inl) fun _ => .inl
    split
    next hexisting =>
      simp only [Bool.and_eq_true, decide_eq_true_eq] at hexisting
      exact export_ret hu fun v hv => ⟨fun _ => hexisting.1, hv.weaken (fun _ hf => hf)
        (fun c hc => hc.imp_right fun heq => by rw [heq, hexisting.2]) fun _ => .inl⟩
    next =>
      split
      · exact export_raise hraced fun _ h => h
      · exact export_raise hraced fun _ h => h

theorem safe_createOrVerifyLocked {commit : Text} {allowExisting allowCreate : Bool}
    (h : Knows i (request.branchRef sha256) file seen lost s)
    (hannounced : allowCreate = true → ∀ f, file f → ∃ payload, f = .record payload ∧
      Announced (request.branchRef sha256) commit payload) :
    ExportSafe sha256 i request (Operated i (request.branchRef sha256) commit allowExisting file seen lost)
      (fun _ => Knows i (request.branchRef sha256) file seen lost)
      (createOrVerifyLockedBranchRef (request.branchRef sha256) commit allowExisting allowCreate) s := by
  refine Prog.Safe.bind ((safe_branchCommit h).conseq (fun _ _ h => h) fun e _ h => h.weaken (fun _ hf => hf)
    (fun _ hc => hc) fun c hc => by cases e <;> first | exact hc | trivial) fun current t ht => ?_
  have hforget : Knows i (request.branchRef sha256) file seen lost t := ht.weaken (fun _ hf => hf) (fun _ => .inl) fun _ => .inl
  cases current with
  | some current =>
    dsimp only
    split
    next hexisting =>
      simp only [Bool.and_eq_true, decide_eq_true_eq] at hexisting
      obtain ⟨hallowed, rfl⟩ := hexisting
      exact export_ret ht fun u hu => ⟨fun _ => hallowed, hu.weaken (fun _ hf => hf)
        (fun c hc => hc.imp_right fun heq => by rw [heq]) fun _ => .inl⟩
    next => exact export_raise hforget fun _ h => h
  | none =>
    cases allowCreate with
    | false => exact export_raise hforget fun _ h => h
    | true => exact safe_createMissingBranchRef hforget (hannounced rfl)

theorem safe_plannedFailureMessage {commit : Text} (hknows : Knows i (request.branchRef sha256) file seen lost s) :
    ExportSafe sha256 i request
      (fun message => Knows i (request.branchRef sha256) file seen fun c => lost c ∨ (message ≠ none ∧ c = commit))
      (fun _ => Knows i (request.branchRef sha256) file seen lost)
      (plannedFailureMessage (request.branchRef sha256) commit) s := by
  refine Prog.Safe.bind (safe_branchCommit hknows).attempt fun probe t ht => ?_
  cases probe with
  | error error =>
    cases error with
    | symbolic message => exact export_ret ht fun _ hu => hu.weaken (fun _ hf => hf) (fun _ hc => hc) fun _ _ => trivial
    | completed | ambiguous | other => exact export_raise ht fun _ hu => hu
  | ok current =>
    cases current with
    | none =>
      refine export_ret ht fun _ hu => hu.weaken (fun _ hf => hf) (fun _ => .inl) fun c hc => ?_
      exact hc.imp_right fun hne => absurd rfl hne.1
    | some current =>
      refine export_ret ht fun _ hu => hu.weaken (fun _ hf => hf) (fun _ => .inl) fun c hc => hc.imp_right ?_
      rintro ⟨hne, rfl⟩ heq
      exact hne (if_pos (Option.some.inj heq))

theorem safe_guardedOperation {carriedOut : ExportError → Bool} {body : ExportProg BranchExportOperation} {commit : Text}
    {allowExisting : Bool}
    (h : ExportSafe sha256 i request (Operated i branch commit allowExisting file seen lost)
      (fun _ => Knows i branch file seen lost) body s) :
    ExportSafe sha256 i request (Operated i branch commit allowExisting file seen lost)
      (fun _ => Knows i branch file seen lost) (guardedOperation carriedOut body) s := by
  refine Prog.Safe.bind h.attempt fun outcome t ht => ?_
  cases outcome with
  | ok operation =>
    refine Prog.Safe.bind (export_other ht.2).attempt fun leaving u hu => ?_
    cases leaving with
    | ok => exact export_ret hu fun v hv => ⟨ht.1, hv⟩
    | error => exact export_raise hu fun v hv => hv.weaken (fun _ hf => hf) (fun _ => .inl) fun _ hc => hc
  | error error =>
    refine Prog.Safe.bind (export_other ht).attempt fun leaving u hu => ?_
    cases leaving with
    | ok => exact export_raise hu fun _ h => h
    | error => exact export_raise hu fun _ h => h

theorem safe_createBranchExportRefWithSource {attempt : ValidatedBranchExportAttempt} (hrequest : attempt.request = request)
    {allowExisting allowCreate : Bool} (h : Knows i (request.branchRef sha256) file seen lost s)
    (hannounced : allowCreate = true → ∀ f, file f → ∃ payload, f = .record payload ∧
      Announced (request.branchRef sha256) attempt.checkpoint.resultCommit payload) :
    ExportSafe sha256 i request
      (Operated i (request.branchRef sha256) attempt.checkpoint.resultCommit allowExisting file seen lost)
      (fun _ => Knows i (request.branchRef sha256) file seen lost)
      (createBranchExportRefWithSource sha256 attempt allowExisting allowCreate) s := by
  refine Prog.Safe.bind (export_other h) fun _ t ht => Prog.Safe.bind (export_other ht) fun _ u hu => safe_guardedOperation ?_
  rw [hrequest]
  exact Prog.Safe.bind (export_other hu) fun _ v hv => safe_guardedOperation (safe_createOrVerifyLocked hv hannounced)

/-! ### The records -/

theorem prepared_status (attempt : ValidatedBranchExportAttempt) (time : Text) :
    (preparedBranchExportRecord attempt.request.identity (attempt.request.branchName sha256) (attempt.request.branchRef sha256)
      attempt.checkpoint attempt.request.policy.contract attempt.operationOrigin .initial time).get .status = word "prepared" := by
  simp [preparedBranchExportRecord, branchExportIdentity]

theorem prepared_announces (attempt : ValidatedBranchExportAttempt) (time : Text) :
    Announced (attempt.request.branchRef sha256) attempt.checkpoint.resultCommit
      (preparedBranchExportRecord attempt.request.identity (attempt.request.branchName sha256) (attempt.request.branchRef sha256)
        attempt.checkpoint attempt.request.policy.contract attempt.operationOrigin .initial time) := by
  refine ⟨prepared_status attempt time, ?_, ?_⟩ <;> simp [preparedBranchExportRecord, branchExportIdentity]

theorem failed_status {identity : BranchExportIdentity} {nodeId now : Text} {branchName branchRef : Option Text}
    {found : Option BranchExportCheckpoint} {before : Option Bool} {message : String} {origin : BranchExportOrigin}
    {mode : BranchExportRecoveryMode} : (failedBranchExportRecord identity nodeId branchName branchRef found before message false
      origin mode now).get .status = word "failed_verification" := by
  cases found <;> simp [failedBranchExportRecord, branchExportIdentity]

/-- A record that is not fulfilled. -/
theorem writable_of_status {payload : BranchExportPayload} {status : String} (hstatus : payload.get .status = word status)
    (hne : status ≠ "fulfilled") (haccepted : AcceptedNext sha256 request payload)
    (hsteady : ∀ old commit, file (.record old) → request.policy.createBranch = true →
      Completed (request.branchRef sha256) commit old → lost commit) : Writable sha256 request file seen lost payload where
  accepted := haccepted
  completed := fun _ _ hcompleted => absurd ((word_inj _ _).1 (hstatus.symm.trans hcompleted.status)) hne
  steady := fun old commit hfile hcreate hcompleted => .inl (hsteady old commit hfile hcreate hcompleted)

/-- A prepared record is not a completed one. -/
theorem not_completed {payload : BranchExportPayload} {branch' commit : Text} (h : payload.get .status = word "prepared") :
    ¬Completed branch' commit payload := fun hcompleted => by
  have := (word_inj _ _).1 (h.symm.trans hcompleted.status)
  simp at this

/-- The payload can be written, and is what an attempt to create the branch may end with. -/
def ReadyRecord (sha256 : Text → Text) (i : ι) (request : BranchExportAttempt) (payload : BranchExportPayload) (s : Exports ι) : Prop :=
  ∃ file seen lost, Knows i (request.branchRef sha256) file seen lost s ∧ Writable sha256 request file seen lost payload ∧
    (request.policy.createBranch = true → isFailed payload = false → ∃ commit, Completed (request.branchRef sha256) commit payload)

theorem safe_skippedRecord (hskip : request.policy.createBranch = false) (h : Knows i (request.branchRef sha256) file seen lost s) :
    ExportSafe sha256 i request (ReadyRecord sha256 i request) E (skippedRecord request) s := by
  refine Prog.Safe.bind (export_now h) fun time t ht => export_ret ht fun u hu => ⟨file, seen, lost, hu, ?_, by simp [hskip]⟩
  have hstatus : (skippedBranchExportRecord request.identity request.nodeId false request.operationOrigin time).get .status =
      word "skipped" := by simp [skippedBranchExportRecord, branchExportIdentity]
  refine writable_of_status hstatus (by simp)
    ⟨none, by simp, fun checkpoint hnode _ => accepted_skipped _ _ _ _ rfl hnode⟩ fun _ _ _ hcreate => by simp [hskip] at hcreate

theorem safe_failedRecord {branchRef : Option Text} {found : Option BranchExportCheckpoint} {before : Option Bool} {message : String}
    {origin : BranchExportOrigin} {mode : BranchExportRecoveryMode} (hnode : ∀ c, found = some c → c.nodeId = request.nodeId)
    (hmode : found = none → mode = .initial)
    (hsteady : ∀ old commit, file (.record old) → request.policy.createBranch = true →
      Completed (request.branchRef sha256) commit old → lost commit)
    (h : Knows i (request.branchRef sha256) file seen lost s) :
    ExportSafe sha256 i request (ReadyRecord sha256 i request) E
      (failedRecord sha256 request branchRef found before message origin mode) s := by
  refine Prog.Safe.bind (export_now h) fun time t ht => export_ret ht fun u hu => ⟨file, seen, lost, hu, ?_, ?_⟩
  · refine writable_of_status failed_status (by simp) ⟨found, hnode, fun checkpoint hnode hfound => ?_⟩ hsteady
    exact accepted_failed _ _ _ _ rfl hnode hfound hmode
  · intro _ hfailed
    rw [isFailed, (has_word _ _ _).2 failed_status] at hfailed
    cases hfailed

/-! ### The attempt -/

/-- What is known once the record has been read: the file it came from and what the classifier made of it. -/
structure Reconciled (sha256 : Text → Text) (request : BranchExportAttempt) (start : RecordFile)
    (attempt : ValidatedBranchExportAttempt) : Prop where
  own : attempt.request = request
  node : attempt.checkpoint.nodeId = request.nodeId
  source : (start = .absent ∧ attempt.reconciliation = { recoveryMode := .initial }) ∨ ∃ payload, start = .record payload ∧
    classifyPayload payload (request.expectation sha256 attempt.checkpoint) = .ok attempt.reconciliation

section Reconciled

variable {start : RecordFile} {attempt : ValidatedBranchExportAttempt} (h : Reconciled sha256 request start attempt)
include h

theorem Reconciled.announced (hmode : attempt.reconciliation.recoveryMode = .preparedRecord) : ∃ payload,
    start = .record payload ∧ Announced (request.branchRef sha256) attempt.checkpoint.resultCommit payload ∧
      attempt.reconciliation.idempotentPayload = none := by
  rcases h.source with ⟨-, hinitial⟩ | ⟨payload, hstart, hclassify⟩
  · simp [hinitial] at hmode
  · exact ⟨payload, hstart, classified_prepared hclassify hmode⟩

theorem Reconciled.given {payload : BranchExportPayload} (hgiven : attempt.reconciliation.idempotentPayload = some payload) :
    start = .record payload ∧ attempt.reconciliation.recoveryMode = .initial ∧
      Completed (request.branchRef sha256) attempt.checkpoint.resultCommit payload ∧
      RecordAccepted payload (request.expectation sha256 attempt.checkpoint) := by
  rcases h.source with ⟨-, hinitial⟩ | ⟨payload', hstart, hclassify⟩
  · simp [hinitial] at hgiven
  · obtain ⟨rfl, hmode, hcompleted⟩ := classified_idempotent hclassify hgiven
    exact ⟨hstart, hmode, hcompleted, _, hclassify⟩

theorem Reconciled.completed {payload : BranchExportPayload} {commit : Text} (hstart : start = .record payload)
    (hcompleted : Completed (request.branchRef sha256) commit payload) : commit = attempt.checkpoint.resultCommit ∧
      attempt.reconciliation = { recoveryMode := .initial, idempotentPayload := some payload } := by
  rcases h.source with ⟨habsent, -⟩ | ⟨payload', hrecord, hclassify⟩
  · simp [habsent] at hstart
  · obtain rfl : payload' = payload := by simpa [hrecord] using hstart
    exact classified_completed hclassify hcompleted

/-- The record after the announcement, or the one the attempt started with. -/
def Underway (start f : RecordFile) : Prop := f = start ∨ ∃ payload, f = .record payload ∧ payload.get .status = word "prepared"

theorem safe_announce (hmode : attempt.reconciliation.recoveryMode = .initial)
    (hlost : attempt.reconciliation.idempotentPayload ≠ none → lost attempt.checkpoint.resultCommit)
    (hknows : Knows i (request.branchRef sha256) (fun f => f = start) seen lost s) :
    ExportSafe sha256 i request
      (fun _ => Knows i (request.branchRef sha256) (fun f => ∃ payload, f = .record payload ∧
        Announced (request.branchRef sha256) attempt.checkpoint.resultCommit payload) (fun _ => False) (fun _ => False))
      (fun _ => Knows i (request.branchRef sha256) (Underway start) (fun _ => False) (fun _ => False))
      (announce sha256 attempt) s := by
  obtain ⟨rfl, hnode, -⟩ := id h
  refine Prog.Safe.bind (Prog.Safe.bind (export_now hknows) fun time t ht => export_ret
    (Q := fun payload t => (∃ time, payload = preparedBranchExportRecord attempt.request.identity (attempt.request.branchName sha256)
      (attempt.request.branchRef sha256) attempt.checkpoint attempt.request.policy.contract attempt.operationOrigin .initial time) ∧
        Knows i (attempt.request.branchRef sha256) (fun f => f = start) seen lost t) ht fun u hu => ⟨⟨time, by rw [hmode]⟩, hu⟩)
    fun payload t ht => ?_
  obtain ⟨⟨time, rfl⟩, ht⟩ := ht
  have hwritable : Writable sha256 attempt.request (fun f => f = start) seen lost
      (preparedBranchExportRecord attempt.request.identity (attempt.request.branchName sha256)
        (attempt.request.branchRef sha256) attempt.checkpoint attempt.request.policy.contract attempt.operationOrigin .initial time) := by
    refine writable_of_status (prepared_status attempt time) (by simp) ⟨some attempt.checkpoint, ?_, ?_⟩ ?_
    · rintro c ⟨rfl⟩
      exact hnode
    · intro checkpoint _ hfound
      rw [hfound _ rfl]
      exact ⟨_, classify_prepared _ _ _ _ _ _ _⟩
    · intro old commit hold _ hcompleted
      obtain ⟨rfl, hgiven⟩ := h.completed hold.symm hcompleted
      exact hlost (by simp [hgiven])
  refine (safe_writeRecord ht hwritable).conseq (fun _ _ hu => hu.mapFile fun f hf => ⟨_, hf, prepared_announces attempt time⟩)
    fun _ _ hu => hu.mapFile fun f hf => ?_
  exact hf.imp_right fun hf => ⟨_, hf, prepared_status attempt time⟩

theorem safe_operate {allowCreate : Bool} (hannounced : allowCreate = true → ∀ f, file f → ∃ payload, f = .record payload ∧
      Announced (request.branchRef sha256) attempt.checkpoint.resultCommit payload)
    (hopen : ∀ old commit, file (.record old) → ¬Completed (request.branchRef sha256) commit old)
    (hknows : Knows i (request.branchRef sha256) file seen lost s) :
    ExportSafe sha256 i request (ReadyRecord sha256 i request) (fun _ => Knows i (request.branchRef sha256) file seen lost)
      (operate sha256 attempt allowCreate) s := by
  obtain ⟨rfl, hnode, -⟩ := h
  refine Prog.Safe.bind (safe_createBranchExportRefWithSource rfl hknows hannounced) fun operation t ht => ?_
  refine Prog.Safe.bind (export_now ht.2) fun time u hu => export_ret hu fun v hv => ?_
  have horigin : attempt.reconciliation.recoveryMode = .initial → operation = .verifiedExisting →
      attempt.operationOrigin = .verifiedHistory := by
    intro hmode hoperation
    simpa [hmode] using ht.1 hoperation
  refine ⟨file, _, lost, hv, ⟨⟨some attempt.checkpoint, ?_, ?_⟩, ?_, ?_⟩, ?_⟩
  · rintro c ⟨rfl⟩
    exact hnode
  · intro checkpoint _ hfound
    rw [hfound _ rfl]
    exact accepted_fulfilled _ _ _ _ _ _ (branchName_ne_nil sha256 _) rfl horigin
  · intro branch commit hc
    obtain ⟨hbranch, hcommit⟩ := hc.unique completed_fulfilled
    exact ⟨hbranch, .inr hcommit⟩
  · exact fun old commit hold _ hc => absurd hc (hopen old commit hold)
  · exact fun _ _ => ⟨attempt.checkpoint.resultCommit, completed_fulfilled⟩

theorem safe_fulfillProbed {branchExistsBefore : Bool}
    (hprobe : branchExistsBefore = false → lost attempt.checkpoint.resultCommit)
    (hgiven : attempt.reconciliation.idempotentPayload ≠ none → branchExistsBefore = false)
    (hknows : Knows i (request.branchRef sha256) (fun f => f = start) seen lost s) :
    ExportSafe sha256 i request (ReadyRecord sha256 i request)
      (fun _ => Knows i (request.branchRef sha256) (Underway start) (fun _ => False) (fun _ => False))
      (fulfillProbed sha256 attempt branchExistsBefore) s := by
  have hunderway : ∀ {t}, Knows i (request.branchRef sha256) (fun f => f = start) (fun _ => False) (fun _ => False) t →
      Knows i (request.branchRef sha256) (Underway start) (fun _ => False) (fun _ => False) t :=
    fun ht => ht.mapFile fun _ => .inl
  have hforget : Knows i (request.branchRef sha256) (fun f => f = start) (fun _ => False) (fun _ => False) s :=
    hknows.onlyFile fun _ hf => hf
  unfold fulfillProbed
  cases hmode : attempt.reconciliation.recoveryMode with
  | preparedRecord =>
    -- an earlier attempt has announced the branch
    obtain ⟨payload, rfl, hannounced, -⟩ := h.announced hmode
    have hopen : ∀ old commit, RecordFile.record old = .record payload → ¬Completed (request.branchRef sha256) commit old := by
      rintro old commit ⟨rfl⟩
      exact not_completed hannounced.status
    refine Prog.Safe.bind (Q := fun _ => Knows i (request.branchRef sha256) (fun f => f = .record payload) (fun _ => False)
      (fun _ => False)) (export_ret hforget fun _ h => h) fun _ t ht => ?_
    exact (safe_operate h (fun _ f hf => ⟨payload, hf, hannounced⟩) hopen ht).conseq (fun _ _ h => h) fun _ _ h => hunderway h
  | initial =>
    cases branchExistsBefore with
    | false =>
      refine Prog.Safe.bind (safe_announce h hmode (fun _ => hprobe rfl) hknows) fun _ t ht => ?_
      have hopen : ∀ old commit, (∃ payload, RecordFile.record old = .record payload ∧
          Announced (request.branchRef sha256) attempt.checkpoint.resultCommit payload) →
            ¬Completed (request.branchRef sha256) commit old := by
        rintro old commit ⟨payload, ⟨rfl⟩, hannounced⟩
        exact not_completed hannounced.status
      refine (safe_operate h (fun _ f hf => hf) hopen ht).conseq (fun _ _ h => h) fun _ _ h => ?_
      exact h.mapFile fun f hf => .inr (hf.imp fun payload hf => ⟨hf.1, hf.2.status⟩)
    | true =>
      have hopen : ∀ old commit, RecordFile.record old = start → ¬Completed (request.branchRef sha256) commit old := by
        intro old commit hold hcompleted
        have hnone := (h.completed hold.symm hcompleted).2
        simp [hnone] at hgiven
      refine Prog.Safe.bind (Q := fun _ => Knows i (request.branchRef sha256) (fun f => f = start) (fun _ => False)
        (fun _ => False)) (export_ret hforget fun _ h => h) fun _ t ht => ?_
      exact (safe_operate h (fun hcreate => by simp at hcreate) hopen ht).conseq (fun _ _ h => h) fun _ _ h => hunderway h

/-- A record that is given back is written as it was; its branch was found at its commit. -/
theorem safe_fulfillAfterBranchProbe {branchExistsBefore : Bool}
    (hprobe : branchExistsBefore = false → lost attempt.checkpoint.resultCommit)
    (hknows : Knows i (request.branchRef sha256) (fun f => f = start) seen lost s) :
    ExportSafe sha256 i request (ReadyRecord sha256 i request)
      (fun _ => Knows i (request.branchRef sha256) (Underway start) (fun _ => False) (fun _ => False))
      (fulfillAfterBranchProbe sha256 attempt branchExistsBefore) s := by
  unfold fulfillAfterBranchProbe
  cases hgiven : attempt.reconciliation.idempotentPayload with
  | none => exact safe_fulfillProbed h hprobe (fun hne => absurd hgiven hne) hknows
  | some payload =>
    cases branchExistsBefore with
    | false => exact safe_fulfillProbed h hprobe (fun _ => rfl) hknows
    | true =>
      obtain ⟨rfl, -, hcompleted, haccepted⟩ := h.given hgiven
      refine Prog.Safe.bind ((safe_createBranchExportRefWithSource h.own hknows fun hcreate => by simp at hcreate).conseq
        (fun _ _ h => h) fun _ _ h => h.onlyFile fun _ => .inl) fun _ t ht => ?_
      refine export_ret ht.2 fun u hu => ⟨_, _, _, hu, ⟨⟨some attempt.checkpoint, ?_, ?_⟩, ?_, ?_⟩, fun _ _ => ⟨_, hcompleted⟩⟩
      · rintro c ⟨rfl⟩
        exact h.node
      · intro checkpoint _ hfound
        exact hfound _ rfl ▸ haccepted
      · intro branch commit hc
        obtain ⟨hbranch, hcommit⟩ := hc.unique hcompleted
        exact ⟨hbranch, .inr hcommit⟩
      · rintro old commit ⟨rfl⟩ _ _
        exact .inr rfl

theorem safe_failedAttempt {branchExistsBefore : Option Bool} {error : ExportError}
    (hknows : Knows i (request.branchRef sha256) (Underway start) (fun _ => False) (fun _ => False) s) :
    ExportSafe sha256 i request (ReadyRecord sha256 i request) (fun _ _ => True)
      (failedAttempt sha256 attempt branchExistsBefore error) s := by
  obtain ⟨rfl, hnode, -⟩ := id h
  have hfound : ∀ c, some attempt.checkpoint = some c → c.nodeId = attempt.request.nodeId := by
    rintro c ⟨rfl⟩
    exact hnode
  -- a completed record is replaced only once its branch was found elsewhere
  have hsteady : ∀ {lost : Text → Prop}, (attempt.reconciliation.idempotentPayload ≠ none → lost attempt.checkpoint.resultCommit) →
      ∀ old commit, Underway start (.record old) → attempt.request.policy.createBranch = true →
        Completed (attempt.request.branchRef sha256) commit old → lost commit := by
    intro lost hlost old commit hfile _ hcompleted
    rcases hfile with hstart | ⟨payload, ⟨rfl⟩, hprepared⟩
    · obtain ⟨rfl, hgiven⟩ := h.completed hstart.symm hcompleted
      exact hlost (by simp [hgiven])
    · exact absurd hcompleted (not_completed hprepared)
  unfold failedAttempt
  split
  · exact export_raise hknows fun _ _ => trivial
  · unfold reconciledFailureMessage
    cases hgiven : attempt.reconciliation.idempotentPayload with
    | none =>
      refine Prog.Safe.bind (Q := fun message t => message = some error.message ∧ Knows i (attempt.request.branchRef sha256)
        (Underway start) (fun _ => False) (fun _ => False) t) (export_ret hknows fun _ h => ⟨rfl, h⟩) fun message t ht => ?_
      obtain ⟨rfl, ht⟩ := ht
      exact safe_failedRecord hfound (by simp) (hsteady fun hne => absurd hgiven hne) ht
    | some payload =>
      refine Prog.Safe.bind ((safe_plannedFailureMessage hknows).conseq (fun _ _ h => h) fun _ _ _ => trivial)
        fun message t ht => ?_
      cases message with
      | none => exact export_raise ht fun _ _ => trivial
      | some message => exact safe_failedRecord hfound (by simp) (hsteady fun _ => .inr ⟨by simp, rfl⟩) ht

theorem safe_fulfillValidatedAttempt (hknows : Knows i (request.branchRef sha256) (fun f => f = start) seen lost s) :
    ExportSafe sha256 i request (ReadyRecord sha256 i request) (fun _ _ => True) (fulfillValidatedAttempt sha256 attempt) s := by
  obtain ⟨rfl, -, -⟩ := id h
  unfold fulfillValidatedAttempt
  split
  next hskip =>
    have hcreate : attempt.request.policy.createBranch = false := by
      simp only [shouldSkipReconciledAttempt, Bool.and_eq_true, Bool.not_eq_true'] at hskip
      exact hskip.1
    exact safe_skippedRecord hcreate hknows
  next =>
    refine Prog.Safe.bind (safe_branchCommit hknows).attempt fun probe t ht => ?_
    cases probe with
    | error error =>
      exact safe_failedAttempt h (ht.onlyFile fun _ => .inl)
    | ok commit =>
      have hprobe : commit.isSome = false → (probed seen lost commit).2 attempt.checkpoint.resultCommit := by
        intro hnone
        rw [Option.isSome_eq_false_iff, Option.isNone_iff_eq_none] at hnone
        exact .inr (by simp [hnone])
      refine Prog.Safe.bind (safe_fulfillAfterBranchProbe h hprobe ht).attempt fun outcome u hu => ?_
      cases outcome with
      | error error => exact safe_failedAttempt h hu
      | ok payload =>
        obtain ⟨file, seen', lost', hknows', hwritable, houtcome⟩ := hu
        exact export_ret hknows' fun v hv => ⟨file, seen', lost', hv, hwritable, houtcome⟩

end Reconciled

theorem safe_classify {checkpoint : BranchExportCheckpoint} {start : RecordFile} (hnode : checkpoint.nodeId = request.nodeId)
    (hknows : Knows i (request.branchRef sha256) (fun f => f = start) seen lost s) :
    ExportSafe sha256 i request
      (fun reconciliation t => Reconciled sha256 request start ⟨request, checkpoint, reconciliation⟩ ∧
        Knows i (request.branchRef sha256) (fun f => f = start) seen lost t)
      (fun _ _ => True) (classifyBranchExportRecord (request.expectation sha256 checkpoint)) s := by
  refine Prog.Safe.bind (export_recordExists hknows) fun present t ht => ?_
  have habsent := ht.file
  replace ht : Knows i (request.branchRef sha256) (fun f => f = start) seen lost t :=
    ht.mapFile fun _ hf => hf.1
  cases present with
  | false =>
    have hstart : start = .absent := habsent.1 ▸ habsent.2.1 rfl
    exact export_ret ht fun u hu => ⟨⟨rfl, hnode, .inl ⟨hstart, rfl⟩⟩, hu⟩
  | true =>
    refine Prog.Safe.bind ((export_loadRecord ht).conseq (fun _ _ h => h) fun _ _ _ => trivial) fun payload u hu => ?_
    have hstart : start = .record payload := hu.file.1.symm.trans hu.file.2
    replace hu : Knows i (request.branchRef sha256) (fun f => f = start) seen lost u :=
      hu.mapFile fun _ hf => hf.1
    refine export_answered hu (fun reconciliation hclassify v hv => ?_) fun _ _ _ => trivial
    exact ⟨⟨rfl, hnode, .inr ⟨payload, hstart, hclassify⟩⟩, hv⟩

/-- The checkpoint that was found, if one was. -/
def foundCheckpoint : Except (ExportError × Option BranchExportCheckpoint) BranchExportCheckpoint → Option BranchExportCheckpoint
  | .ok checkpoint => some checkpoint
  | .error (_, checkpoint) => checkpoint

theorem safe_validatedBranchRef {name : Text} (hknows : Knows i branch file seen lost s) :
    ExportSafe sha256 i request (fun _ => Knows i branch file seen lost) (fun _ => Knows i branch file seen lost)
      (validatedBranchRef name) s := by
  unfold validatedBranchRef
  split
  · exact export_raise hknows fun _ h => h
  · refine Prog.Safe.bind (export_normalizedRef hknows) fun normalized t ht => ?_
    split
    · exact export_raise ht fun _ h => h
    · exact export_ret ht fun _ h => h

theorem safe_validated (hknows : Knows i branch file seen lost s) :
    ExportSafe sha256 i request
      (fun found t => (∀ c, foundCheckpoint found = some c → c.nodeId = request.nodeId) ∧ Knows i branch file seen lost t) E
      (validated sha256 request) s := by
  refine Prog.Safe.bind (Q := Prog.outcome (fun checkpoint t => checkpoint.nodeId = request.nodeId ∧ Knows i branch file seen lost t)
    fun _ => Knows i branch file seen lost) (Prog.Safe.attempt (Prog.Safe.bind (export_checkpoint hknows) fun checkpoint t ht =>
      export_ret ht fun _ hu => ⟨rfl, hu⟩)) fun found t ht => ?_
  cases found with
  | error error => exact export_ret ht fun _ hu => ⟨by simp [foundCheckpoint], hu⟩
  | ok checkpoint =>
    obtain ⟨hnode, ht⟩ := ht
    have hfound : ∀ c, some checkpoint = some c → c.nodeId = request.nodeId := by
      rintro c ⟨rfl⟩
      exact hnode
    refine Prog.Safe.bind (safe_validatedBranchRef ht).attempt fun ref u hu => ?_
    cases ref with
    | error error => exact export_ret hu fun _ hv => ⟨hfound, hv⟩
    | ok ref => exact export_ret hu fun _ hv => ⟨hfound, hv⟩

theorem safe_fulfillmentPayload {start : RecordFile}
    (hknows : Knows i (request.branchRef sha256) (fun f => f = start) seen lost s) :
    ExportSafe sha256 i request (ReadyRecord sha256 i request) (fun _ _ => True) (fulfillmentPayload sha256 request) s := by
  refine Prog.Safe.bind (export_recordExists hknows) fun presentAtEntry t ht => ?_
  replace ht : Knows i (request.branchRef sha256) (fun f => f = start) seen lost t :=
    ht.mapFile fun _ hf => hf.1
  split
  next hskip =>
    simp only [Bool.and_eq_true, Bool.not_eq_true'] at hskip
    exact safe_skippedRecord hskip.1 ht
  next =>
    refine Prog.Safe.bind (safe_validated ht) fun found u hu => ?_
    obtain ⟨hfound, hu⟩ := hu
    cases found with
    | ok checkpoint =>
      refine Prog.Safe.bind (safe_classify (hfound checkpoint rfl) hu) fun reconciliation v hv => ?_
      exact safe_fulfillValidatedAttempt hv.1 hv.2
    | error failure =>
      obtain ⟨error, checkpoint⟩ := failure
      refine Prog.Safe.bind (export_recordExists hu) fun presentNow v hv => ?_
      split
      · exact export_raise hv fun _ _ => trivial
      next habsent =>
        -- a failure is recorded only where no record is
        have hnow : presentNow = false := by
          simp only [Bool.or_eq_true, not_or, Bool.not_eq_true] at habsent
          exact habsent.2
        refine safe_failedRecord hfound (fun _ => rfl) (fun old commit hold => ?_) hv
        exact absurd (hold.2.1 hnow) (by simp)

theorem safe_fulfillBranchExport (h : Consistent s) :
    ExportSafe sha256 i request (fun _ => ExportReturns sha256 i request) (fun _ _ => True) (fulfillBranchExport sha256 request) s := by
  have hknows : Knows i (request.branchRef sha256) (fun f => f = s.records i) (fun _ => False) (fun _ => False) s :=
    ⟨h, rfl, fun _ hc => hc.elim, fun _ hc => hc.elim⟩
  refine Prog.Safe.bind (safe_fulfillmentPayload hknows) fun payload t ht => ?_
  obtain ⟨file, seen, lost, ht, hwritable, houtcome⟩ := ht
  refine Prog.Safe.bind ((safe_writeRecord ht hwritable).conseq (fun _ _ h => h) fun _ _ _ => trivial) fun _ u hu => ?_
  refine Prog.Safe.bind ((export_other hu).conseq (fun _ _ h => h) fun _ _ _ => trivial) fun _ v hv => ?_
  split
  · exact export_raise hv fun _ _ => trivial
  next hfailed =>
    exact export_ret hv fun w hw => ⟨payload, hw.file, fun hcreate => houtcome hcreate (by simpa using hfailed)⟩

end Program

/-! ## The whole system -/

/-- The exports of any runs and worktrees on one repository, and third parties. -/
def exportSystem (sha256 : Text → Text) (ι : Type) [DecidableEq ι] :
    System ι BranchExportAttempt (Exports ι) ExportCommand ExportCommand.Answer ExportError where
  exec := ExportExec
  program := fulfillBranchExport sha256
  starts := fun _ _ => True
  outside := Meddles

theorem exportSystem_compatible (sha256 : Text → Text) :
    System.Compatible (exportSystem sha256 ι) Consistent ExportRely (ExportGuarantee sha256) (ExportReturns sha256)
      fun _ _ _ _ => True where
  outside_inv := by
    rintro s _ - ⟨branches, rfl⟩
    exact consistent_move s branches
  guarantee_inv := fun _ _ _ _ h hguarantee => hguarantee.consistent h
  outside_rely := by
    rintro i s _ - ⟨branches, rfl⟩
    exact ⟨fun _ => consistent_move s branches, rfl, fun _ => .inl, fun _ h => h.1⟩
  guarantee_rely := fun i j _ s t hij _ h => ⟨h.consistent, (h.others i hij).1, (h.others i hij).2.1, (h.others i hij).2.2⟩
  safe := fun i request s hinv _ => safe_fulfillBranchExport hinv

abbrev ExportPool (ι : Type) := Pool ι BranchExportAttempt (Exports ι) ExportCommand ExportCommand.Answer ExportError

/-- What a step of an attempt on the export `i` may do. -/
structure Recovers (sha256 : Text → Text) (i : ι) (request : BranchExportAttempt) (s t : Exports ι) : Prop where
  /-- No branch is moved or deleted; its own is created at the commit that the record announces. -/
  branches : ∀ branch, t.branches branch ≠ s.branches branch → s.branches branch = none ∧ branch = request.branchRef sha256 ∧
    ∃ commit payload, t.branches branch = some (.direct commit) ∧ s.records i = .record payload ∧ Announced branch commit payload
  others : ∀ j, j ≠ i → t.records j = s.records j
  /-- A new record is one that the next attempt accepts; it says fulfilled only of a branch that was at its commit since the
  record was last written; and it replaces no fulfilled record whose branch stood at its commit ever since. -/
  record : t.records i = s.records i ∨ ∃ payload, t.records i = .record payload ∧ AcceptedNext sha256 request payload ∧
    (∀ branch commit, Completed branch commit payload → (branch, commit) ∈ s.held i) ∧
    ∀ old commit, s.records i = .record old → request.policy.createBranch = true →
      Completed (request.branchRef sha256) commit old → (request.branchRef sha256, commit) ∉ s.kept i

end Rules

/-! ### A run of one attempt -/

/-- An export that creates no branch. -/
def skippedAttempt : BranchExportAttempt where
  identity := ⟨['i'], ['k'], ['w'], ['s'], ['l'], ['g']⟩
  nodeId := ['n']
  policy := ⟨false, none, ⟨['m'], ['1']⟩⟩
  operationOrigin := .currentRun

def freshExports : Exports Unit where
  branches := fun _ => none
  records := fun _ => .absent
  held := fun _ => Resolving fun _ => none
  kept := fun _ => Standing fun _ => none

def skippedPayload : BranchExportPayload := skippedBranchExportRecord skippedAttempt.identity ['n'] false .currentRun ['t']

def skippedExports : Exports Unit := freshExports.write () (.record skippedPayload)

/-- What is left to do after the record was written. -/
def skippedRest (answer : Except String Unit) : ExportProg Unit :=
  (ExportProg.answered answer).bind fun _ => ExportProg.other.bind fun _ =>
    if isFailed skippedPayload then .raise (.other "Workspace branch export failed.") else .ret ()

theorem skipped_reachable (sha256 : Text → Text) : System.Reachable (exportSystem sha256 Unit) Fresh
    (System.alone freshExports (some (skippedAttempt, .call (.writeRecord skippedPayload) skippedRest))) := by
  refine ⟨freshExports, ⟨fun _ => rfl, fun _ => rfl⟩, ?_⟩
  have habsent : ExportExec () .recordExists freshExports false freshExports := ⟨rfl, by simp [freshExports]⟩
  have hnow : ExportExec () .now freshExports ['t'] freshExports := rfl
  refine ReflTransGen.head (System.alone_start _ freshExports skippedAttempt trivial) ?_
  exact (ReflTransGen.single (System.alone_call _ habsent)).tail (System.alone_call _ hnow)

end Crewplane.Workspace
