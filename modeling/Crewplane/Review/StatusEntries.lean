import Crewplane.Review.Status
import Crewplane.Review.Rounds
/-
# Status entries are read back

The entry written for an output names a file of the directory of its audit, under a name that ends in its round; the
reader takes exactly such entries and gets the output back.
-/
namespace Crewplane.Review

open Crewplane.Lib Crewplane.Plan

/-! ## JSON records -/

namespace Json

theorem get?_record (fields : List (String × Json)) (key : String) :
    Dict.get? (fields.map fun field => (field.1.toList, field.2)) key.toList = Dict.get? fields key := by
  induction fields with
  | nil => rfl
  | cons field fields ih =>
    simp only [List.map_cons, Dict.get?, ih, String.toList_inj]

@[simp] theorem field_record (fields : List (String × Json)) (key : String) :
    field (record fields) key = (Dict.get? fields key).getD .null := by
  simp only [field, record, get?_record]

@[simp] theorem hasField_record (fields : List (String × Json)) (key : String) :
    hasField (record fields) key = (Dict.get? fields key).isSome := by
  simp only [hasField, record, get?_record]

@[simp] theorem string?_ofString (s : String) : string? (ofString s) = some s := by simp [string?, ofString]

@[simp] theorem string?_str (s : List Char) : string? (.str s) = some (String.ofList s) := rfl

@[simp] theorem nat?_ofNat (n : Nat) : nat? (ofNat n) = some n := rfl

@[simp] theorem bool?_bool (b : Bool) : bool? (.bool b) = some b := rfl

@[simp] theorem items?_arr (items : List Json) : items? (.arr items) = some items := rfl

end Json

/-! ## Where an output stands -/

/-- The names the compiler gives: task ids without a separator (`artifact_task_id`, execution_nodes.py:197), and nothing
blank (`_validate_provider_task_ids`, plan_contract_nodes.py:187). -/
structure TaskNames (node : ReviewNode) : Prop where
  separator : ∀ p ∈ node.providerRecords, '/' ∉ p.taskId.toList
  task : ∀ p ∈ node.providerRecords, isBlank p.taskId = false
  provider : ∀ p ∈ node.providerRecords, isBlank p.provider = false

/-- An output of round `r` of audit `a`. -/
structure Standing (ctx : Context) (a r : Nat) (role : ProviderRole) (artifact : StatusArtifact) : Prop where
  producer : ∃ p ∈ ctx.node.providerRecords, p.role = role ∧ p.taskId = artifact.taskId ∧ p.provider = artifact.provider
  file : artifact.outputFile = outputPath ctx a artifact.taskId r
  audit : artifact.auditRoundNum = auditRoundContext ctx.policy.auditRounds a
  round : artifact.roundNum = r
  audit_pos : 1 ≤ a
  round_pos : 1 ≤ r

/-- What the reader makes of an output. -/
def StatusArtifact.entry (stage : RelPath) (role : ProviderRole) (a : StatusArtifact) : ReviewLoopStatusEntry :=
  let signature := a.outputSignature.getD ⟨0, ""⟩
  ⟨a.taskId, a.provider, role, asPosix (a.outputFile.drop stage.length), a.outputFile.drop stage.length, signature.sha256,
    signature.size, a.auditRoundNum, a.roundNum⟩

section Paths

variable {ctx : Context} {a r : Nat} {task : TaskId}

/-- The path of an output below its stage. -/
def placeParts (ctx : Context) (a r : Nat) (task : TaskId) : List String :=
  (if 1 < ctx.auditRounds then [buildReviewAuditDirectoryName a] else []) ++ [buildTaskRoundFilename task r]

theorem outputPath_eq (ctx : Context) (a r : Nat) (task : TaskId) :
    outputPath ctx a task r = ctx.node.stagePath.getD [] ++ placeParts ctx a r task := by
  rw [outputPath, auditRoundDir_eq, placeParts, List.append_assoc]

theorem separator_not_mem_repr (n : Nat) : '/' ∉ (Nat.repr n).toList := by
  intro hmem
  have hdigit := repr_toList_isDigit n _ hmem
  revert hdigit
  decide

theorem filename_toList (task : TaskId) (r : Nat) :
    (buildTaskRoundFilename task r).toList = task.toList ++ ("_round" ++ Nat.repr r).toList ++ ['.', 'm', 'd'] := by
  simp only [buildTaskRoundFilename, String.toList_append, List.append_assoc]
  rfl

theorem separator_not_mem_filename (h : '/' ∉ task.toList) : '/' ∉ (buildTaskRoundFilename task r).toList := by
  have hround : '/' ∉ "_round".toList := by simp
  rw [filename_toList, String.toList_append]
  simp only [List.mem_append, h, hround, separator_not_mem_repr, or_self, false_or]
  decide

theorem audit_toList (a : Nat) :
    (buildReviewAuditDirectoryName a).toList = "review-audit-round-".toList ++ (Nat.repr a).toList :=
  String.toList_append

theorem separator_not_mem_audit (a : Nat) : '/' ∉ (buildReviewAuditDirectoryName a).toList := by
  have hstart : '/' ∉ "review-audit-round-".toList := by simp
  rw [audit_toList]
  exact fun hmem => (List.mem_append.mp hmem).elim hstart (separator_not_mem_repr a)

theorem separator_not_mem_parts (h : '/' ∉ task.toList) :
    ∀ part ∈ (placeParts ctx a r task).map String.toList, '/' ∉ part := by
  intro part hpart
  simp only [placeParts, List.map_append, List.mem_append] at hpart
  rcases hpart with hpart | hpart
  · split at hpart
    · simp only [List.map_cons, List.map_nil, List.mem_singleton] at hpart
      rw [hpart]
      exact separator_not_mem_audit a
    · simp at hpart
  · simp only [List.map_cons, List.map_nil, List.mem_singleton] at hpart
    rw [hpart]
    exact separator_not_mem_filename h

theorem splitOn_placeParts (h : '/' ∉ task.toList) :
    (asPosix (placeParts ctx a r task)).splitOn '/' = (placeParts ctx a r task).map String.toList :=
  splitOn_joinPath (separator_not_mem_parts h) (by simp [placeParts])

theorem pathParts_placeParts (h : '/' ∉ task.toList) :
    pathParts (asPosix (placeParts ctx a r task)) = (placeParts ctx a r task).map String.toList := by
  rw [pathParts, splitOn_placeParts h, List.filter_eq_self]
  have hlong : ∀ part ∈ (placeParts ctx a r task).map String.toList, 2 ≤ part.length := by
    intro part hpart
    simp only [placeParts, List.map_append, List.mem_append] at hpart
    rcases hpart with hpart | hpart
    · split at hpart
      · simp only [List.map_cons, List.map_nil, List.mem_singleton] at hpart
        have hstart : 2 ≤ "review-audit-round-".toList.length := by simp
        rw [hpart, audit_toList, List.length_append]
        exact Nat.le_add_right_of_le hstart
      · simp at hpart
    · simp only [List.map_cons, List.map_nil, List.mem_singleton] at hpart
      rw [hpart, filename_toList, List.length_append]
      simp
  intro part hpart
  have hpart := hlong part hpart
  have hempty : part ≠ [] := by
    rintro rfl
    simp at hpart
  have hdot : part ≠ ['.'] := by
    rintro rfl
    simp at hpart
  simp [hempty, hdot]

/-- The stem of an output's name ends in its round. -/
theorem pathStem_filename (task : TaskId) (r : Nat) :
    pathStem (buildTaskRoundFilename task r).toList = task.toList ++ ("_round" ++ Nat.repr r).toList := by
  rw [filename_toList]
  generalize hstem : task.toList ++ ("_round" ++ Nat.repr r).toList = stem
  have hne : stem.reverse ≠ [] := by
    rw [← hstem, String.toList_append]
    simp
  have hlast : (stem ++ ['.', 'm', 'd']).getLast? = some 'd' := by simp
  obtain ⟨c, rest, hrev⟩ := List.exists_cons_of_ne_nil hne
  have hdrop : (stem ++ ['.', 'm', 'd']).reverse.dropWhile (· ≠ '.') = '.' :: c :: rest := by
    rw [List.reverse_append, hrev]
    rfl
  have hback : (c :: rest).reverse = stem := by rw [← hrev, List.reverse_reverse]
  simp only [pathStem, hdrop, hlast, hback]
  simp

theorem md_suffix_placeParts (ctx : Context) (a r : Nat) (task : TaskId) :
    ".md".toList <:+ asPosix (placeParts ctx a r task) := by
  have hname : ".md".toList <:+ (buildTaskRoundFilename task r).toList := by
    rw [filename_toList]
    exact List.suffix_append _ _
  rw [asPosix, placeParts]
  split
  · rw [List.singleton_append, List.map_cons, List.map_cons, List.map_nil, joinPath_cons, joinPath_singleton]
    exact hname.trans ((List.suffix_cons _ _).trans (List.suffix_append _ _))
  · rw [List.nil_append, List.map_cons, List.map_nil, joinPath_singleton]
    exact hname

/-- The path is relative. -/
theorem head?_placeParts (h : '/' ∉ task.toList) : (asPosix (placeParts ctx a r task)).head? ≠ some '/' := by
  have hstart : ∀ (name : String) (rest : List Char), name.toList ≠ [] → '/' ∉ name.toList →
      (name.toList ++ rest).head? ≠ some '/' := by
    intro name rest hne hname hhead
    rw [List.head?_append_of_ne_nil _ hne] at hhead
    exact hname (List.mem_of_mem_head? hhead)
  have hfile : (buildTaskRoundFilename task r).toList ≠ [] := by
    rw [filename_toList]
    simp
  rw [asPosix, placeParts]
  split
  · rw [List.singleton_append, List.map_cons, List.map_cons, List.map_nil, joinPath_cons]
    refine hstart _ _ ?_ (separator_not_mem_audit a)
    rw [audit_toList]
    exact List.append_ne_nil_of_left_ne_nil (by simp) _
  · rw [List.nil_append, List.map_cons, List.map_nil, joinPath_singleton, ← List.append_nil (String.toList _)]
    exact hstart _ _ hfile (separator_not_mem_filename h)

end Paths

/-! ## Reading an entry -/

section Fields

variable {entry : Json} {key name : String} {index : Nat}

theorem nonEmptyEntryString_eq {value : String} (h : Json.string? (Json.field entry key) = some value)
    (hblank : isBlank value = false) : nonEmptyEntryString entry name index key = .ok value := by
  simp [nonEmptyEntryString, h, hblank]

theorem nonNegativeEntryInt_eq {n : Nat} (h : Json.field entry key = Json.ofNat n) :
    nonNegativeEntryInt entry name index key = .ok n := by
  simp [nonNegativeEntryInt, h]

theorem positiveEntryInt_eq {n : Nat} (h : Json.field entry key = Json.ofNat n) (hpos : 1 ≤ n) :
    positiveEntryInt entry name index key = .ok n := by
  rw [positiveEntryInt, do_eq_ok]
  refine ⟨n, nonNegativeEntryInt_eq h, ?_⟩
  rw [if_neg (by omega)]
  rfl

theorem optionalPositiveEntryInt_eq {n : Option Nat} (h : Json.field entry key = Json.ofOptionalNat n)
    (hpos : ∀ m ∈ n, 1 ≤ m) : optionalPositiveEntryInt entry name index key = .ok n := by
  cases n with
  | none => simp [optionalPositiveEntryInt, h, Json.ofOptionalNat, isNone]
  | some m =>
    have hm : 1 ≤ m := hpos m rfl
    rw [optionalPositiveEntryInt, positiveEntryInt_eq (n := m) h hm, h]
    rfl

end Fields

section Entries

variable {ctx : Context} {sha256 : List UInt8 → String} {files : StageFiles} {a r : Nat} {role : ProviderRole}
  {artifact : StatusArtifact}

theorem blank_of_suffix {u v : List Char} (h : u <:+ v) (hu : isBlank (String.ofList u) = false) :
    isBlank (String.ofList v) = false := by
  simp only [isBlank, String.toList_ofList, List.all_eq_false] at hu ⊢
  obtain ⟨c, hc, hspace⟩ := hu
  exact ⟨c, h.subset hc, hspace⟩

theorem containedRegularFile_place {task : TaskId} (h : '/' ∉ task.toList) {place : RelPath} {bytes : List UInt8}
    (hfile : containedRegularFile files (asPosix (placeParts ctx a r task)) = some (place, bytes)) :
    place = placeParts ctx a r task := by
  simp only [containedRegularFile, relativePathParts, splitOn_placeParts h] at hfile
  split at hfile
  · cases hfile
  · cases hfile
  next parts hnonempty hparts =>
    obtain ⟨found, -, heq⟩ := Option.map_eq_some_iff.mp hfile
    cases heq
    split at hparts
    · cases hparts
      exact absurd rfl hnonempty
    · split at hparts
      · cases hparts
        simp [Function.comp_def]
      · cases hparts

theorem validateEntryLocatorAttribution_eq {task : TaskId} (h : '/' ∉ task.toList) (name : String) (index : Nat) :
    validateEntryLocatorAttribution (asPosix (placeParts ctx a r task)) (auditRoundContext ctx.policy.auditRounds a) r name index =
      .ok () := by
  simp only [validateEntryLocatorAttribution, requireStatus, require_eq_ok, pathParts_placeParts h]
  have hlast : ((placeParts ctx a r task).map String.toList).getLastD [] = (buildTaskRoundFilename task r).toList := by
    simp [placeParts]
  constructor
  · have hcontext : 1 < ctx.auditRounds ↔ auditRoundContext ctx.policy.auditRounds a = some a := by
      simp [auditRoundContext, Context.auditRounds]
    rw [placeParts, List.map_append, List.map_cons, List.map_nil, List.dropLast_concat]
    by_cases hmany : 1 < ctx.auditRounds
    · rw [if_pos hmany, hcontext.mp hmany]
      rfl
    · have hnone : auditRoundContext ctx.policy.auditRounds a = none := if_neg hmany
      rw [if_neg hmany, hnone]
      rfl
  · rw [hlast, pathStem_filename]
    exact List.suffix_append _ _

theorem resolveStatusOutputFile_eq {task : TaskId} {place : RelPath} {bytes : List UInt8} (h : '/' ∉ task.toList)
    (hfile : containedRegularFile files (asPosix (placeParts ctx a r task)) = some (place, bytes)) (name : String)
    (index : Nat) :
    resolveStatusOutputFile files (asPosix (placeParts ctx a r task)) name index = .ok (place, bytes) := by
  simp only [resolveStatusOutputFile, requireStatus, check_then_eq_ok, require_eq_ok, hfile]
  exact ⟨head?_placeParts h, md_suffix_placeParts ctx a r task, rfl⟩

/-- An entry that is written is read back as the output it was written for. -/
theorem parseStatusEntry_written (hnames : TaskNames ctx.node) (hsha : ∀ bytes, isBlank (sha256 bytes) = false)
    (hst : Standing ctx a r role artifact) {json : Json}
    (h : statusOutputEntry sha256 (ctx.node.stagePath.getD []) files role artifact = .ok json) (name : String) (index : Nat) :
    parseStatusEntry sha256 files name role json index = .ok (artifact.entry (ctx.node.stagePath.getD []) role) := by
  obtain ⟨p, hp, hrole, htask, hprovider⟩ := hst.producer
  have hsep : '/' ∉ artifact.taskId.toList := by
    rw [← htask]
    exact hnames.separator p hp
  have hrel : artifact.outputFile.drop (ctx.node.stagePath.getD []).length = placeParts ctx a r artifact.taskId := by
    rw [hst.file, outputPath_eq, List.drop_left]
  have hfound : relativeTo (ctx.node.stagePath.getD []) artifact.outputFile = some (placeParts ctx a r artifact.taskId) := by
    rw [relativeTo, if_pos, hrel]
    rw [hst.file, outputPath_eq, List.isPrefixOf_iff_prefix]
    exact List.prefix_append _ _
  simp only [statusOutputEntry, hfound] at h
  cases hfile : containedRegularFile files (asPosix (placeParts ctx a r artifact.taskId)) with
  | none => simp [hfile] at h
  | some found =>
    obtain ⟨place, bytes⟩ := found
    simp only [hfile] at h
    cases hsig : artifact.outputSignature with
    | none => simp [hsig] at h
    | some signature =>
      simp only [hsig] at h
      split at h
      · cases h
      next hmatch =>
        cases h
        obtain rfl := not_not.mp hmatch
        obtain rfl := containedRegularFile_place hsep hfile
        have haudit : ∀ m ∈ artifact.auditRoundNum, 1 ≤ m := by
          intro m hm
          rw [hst.audit, auditRoundContext] at hm
          split at hm
          · cases hm
            exact hst.audit_pos
          · cases hm
        have hmd := md_suffix_placeParts ctx a r artifact.taskId
        show parseStatusObject sha256 files name role _ index = _
        simp only [parseStatusObject, do_eq_ok]
        refine ⟨artifact.taskId, nonEmptyEntryString_eq (by simp [Dict.get?]) (htask ▸ hnames.task p hp),
          artifact.provider, nonEmptyEntryString_eq (by simp [Dict.get?]) (hprovider ▸ hnames.provider p hp),
          role.value, nonEmptyEntryString_eq (by simp [Dict.get?]) (by cases role <;> decide +kernel),
          String.ofList (asPosix (placeParts ctx a r artifact.taskId)),
          nonEmptyEntryString_eq (by simp [Dict.get?]) (blank_of_suffix hmd (by decide +kernel)),
          sha256 bytes, nonEmptyEntryString_eq (by simp [Dict.get?, contentSignature]) (hsha bytes),
          bytes.length, nonNegativeEntryInt_eq (by simp [Dict.get?, contentSignature]),
          r, positiveEntryInt_eq (by simp [Dict.get?, hst.round]) hst.round_pos,
          artifact.auditRoundNum, optionalPositiveEntryInt_eq (by simp [Dict.get?]) haudit, ?_⟩
        rw [String.toList_ofList, hst.audit]
        refine ⟨(), by simp [requireStatus], (), validateEntryLocatorAttribution_eq hsep name index, _,
          resolveStatusOutputFile_eq hsep hfile name index, (), by simp [requireStatus], ?_⟩
        simp [StatusArtifact.entry, hrel, hsig, contentSignature, hst.audit, hst.round]
        rfl

end Entries

end Crewplane.Review
