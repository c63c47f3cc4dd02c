import Crewplane.Artifacts.Locators
import Crewplane.Lib.Lists
import Mathlib.Data.List.Sort
import Mathlib.Data.Prod.Lex
/-
# Overlapping locators (core/preflight/plan_contract_artifacts.py:60)

The validation sorts the locators of a plan and compares neighbours only. The texts that start with `a` are an interval
of the lexicographic order that starts at `a`, on lists of components too, so whatever stands between a directory and a
path inside it is inside it as well (`prefix_between`): a pair that overlaps makes a pair of neighbours that overlap.
-/
namespace Crewplane.Artifacts

open Crewplane.Lib Crewplane.Review
open Crewplane.Workspace (Text)

/-! ## The order of the entries -/

/-- The tuple that the entries are sorted by. -/
def Occupied.key (a : Occupied) : Text ×ₗ List Text ×ₗ Text ×ₗ Text := toLex (a.root, toLex (a.parts, toLex (a.path, a.nodeId)))

theorem textLt_iff (a b : Text) : textLt a b = true ↔ a < b := by
  rw [textLt]
  exact List.lex_eq_true_iff_lt

theorem parts_lex_iff (a b : List Text) : a.lex b textLt = true ↔ a < b := by
  have hsame : textLt = fun a b => decide (a < b) := by
    funext a b
    rw [Bool.eq_iff_iff, textLt_iff, decide_eq_true_iff]
  rw [hsame]
  exact List.lex_eq_true_iff_lt

theorem Occupied.lt_iff (a b : Occupied) : a.lt b = true ↔ a.key < b.key := by
  unfold Occupied.lt Occupied.key
  rw [Prod.Lex.toLex_lt_toLex, Prod.Lex.toLex_lt_toLex, Prod.Lex.toLex_lt_toLex]
  by_cases hroot : a.root = b.root
  · by_cases hparts : a.parts = b.parts
    · by_cases hpath : a.path = b.path
      · simp [hroot, hparts, hpath, textLt_iff]
      · simp [hroot, hparts, hpath, textLt_iff]
    · simp [hroot, hparts, ← parts_lex_iff]
  · simp [hroot, textLt_iff]

theorem Occupied.root_le {a b : Occupied} (h : a.key ≤ b.key) : a.root ≤ b.root ∧ (a.root = b.root → a.parts ≤ b.parts) := by
  unfold Occupied.key at h
  rw [Prod.Lex.toLex_le_toLex, Prod.Lex.toLex_le_toLex] at h
  rcases h with hroot | ⟨hroot, hrest⟩
  · exact ⟨hroot.le, fun heq => absurd heq hroot.ne⟩
  · refine ⟨hroot.le, fun _ => ?_⟩
    rcases hrest with hparts | ⟨hparts, -⟩
    · exact hparts.le
    · exact hparts.le

theorem pairwise_sortedOccupied (occupied : List Occupied) :
    (sortedOccupied occupied).Pairwise fun a b => a.key ≤ b.key := by
  have hle : ∀ a b : Occupied, b.lt a = false ↔ a.key ≤ b.key := by
    intro a b
    rw [← Bool.not_eq_true, Occupied.lt_iff, not_lt]
  unfold sortedOccupied
  simp only [hle]
  have htotal : Std.Total fun a b : Occupied => a.key ≤ b.key := ⟨fun a b => le_total a.key b.key⟩
  have htrans : IsTrans Occupied fun a b => a.key ≤ b.key := ⟨fun _ _ _ h h' => h.trans h'⟩
  exact List.pairwise_insertionSort _ _

/-! ## Overlaps -/

/-- `a` lies in the directory `b`. -/
def Occupied.Inside (a b : Occupied) : Prop := ∃ part rest, a.parts = b.parts ++ part :: rest

/-- Two locators of one root that are not equal and neither of which lies in the other. -/
def Occupied.Apart (a b : Occupied) : Prop := a.root = b.root → a.parts ≠ b.parts ∧ ¬a.Inside b ∧ ¬b.Inside a

/-- What the scan looks for. -/
def Occupied.Covers (a b : Occupied) : Prop := b.root = a.root ∧ a.parts <+: b.parts

theorem Occupied.prefix_iff {a b : Occupied} : a.parts <+: b.parts ↔ a.parts = b.parts ∨ b.Inside a := by
  constructor
  · rintro ⟨rest, hrest⟩
    cases rest with
    | nil =>
      left
      simpa using hrest
    | cons part rest => exact .inr ⟨part, rest, hrest.symm⟩
  · rintro (heq | ⟨part, rest, hrest⟩)
    · rw [heq]
    · rw [hrest]
      exact List.prefix_append a.parts (part :: rest)

theorem Occupied.apart_iff {a b : Occupied} : a.Apart b ↔ ¬a.Covers b ∧ ¬b.Covers a := by
  unfold Occupied.Apart Occupied.Covers
  rw [Occupied.prefix_iff, Occupied.prefix_iff]
  by_cases hroot : a.root = b.root
  · simp only [hroot, true_imp_iff, true_and, not_or]
    constructor
    · rintro ⟨hne, hab, hba⟩
      exact ⟨⟨hne, hba⟩, hne.symm, hab⟩
    · rintro ⟨⟨hne, hba⟩, -, hab⟩
      exact ⟨hne, hab, hba⟩
  · simp [hroot, Ne.symm hroot]

theorem Occupied.Apart.symm {a b : Occupied} (h : a.Apart b) : b.Apart a :=
  Occupied.apart_iff.mpr (Occupied.apart_iff.mp h).symm

theorem Occupied.covers_between {a b c : Occupied} (hab : a.key ≤ b.key) (hbc : b.key ≤ c.key) (h : a.Covers c) :
    a.Covers b := by
  obtain ⟨hroot, hprefix⟩ := h
  obtain ⟨hrab, hpab⟩ := Occupied.root_le hab
  obtain ⟨hrbc, hpbc⟩ := Occupied.root_le hbc
  have hsame : b.root = a.root := le_antisymm (hroot ▸ hrbc) hrab
  exact ⟨hsame, prefix_between (hpab hsame.symm) (hpbc (hsame.trans hroot.symm)) hprefix⟩

/-- What covers an entry before it has the same parts. -/
theorem Occupied.covers_symm {a b : Occupied} (hab : a.key ≤ b.key) (h : b.Covers a) : a.Covers b := by
  obtain ⟨hroot, hprefix⟩ := h
  have hsame : a.parts = b.parts := le_antisymm ((Occupied.root_le hab).2 hroot) ( le_of_prefix hprefix)
  exact ⟨hroot.symm, by rw [hsame]⟩

theorem validateNeighbours_eq_ok (occupied : List Occupied) :
    validateNeighbours occupied = .ok () ↔ occupied.IsChain fun a b => ¬a.Covers b := by
  induction occupied with
  | nil => simp [validateNeighbours]
  | cons a occupied ih =>
    cases occupied with
    | nil => simp [validateNeighbours]
    | cons b occupied =>
      rw [List.isChain_cons_cons, ← ih, validateNeighbours]
      split
      next hcovers => simp [Occupied.Covers, hcovers]
      next hcovers => simp [Occupied.Covers, hcovers]

theorem neighbours_decide (occupied : List Occupied) :
    validateNeighbours (sortedOccupied occupied) = .ok () ↔ occupied.Pairwise Occupied.Apart := by
  have hsorted := pairwise_sortedOccupied occupied
  have hperm : (sortedOccupied occupied).Perm occupied := List.perm_insertionSort _ _
  rw [validateNeighbours_eq_ok, ← pairwise_not_iff_isChain hsorted fun a b c => Occupied.covers_between,
    ← hperm.pairwise_iff Occupied.Apart.symm]
  constructor
  · intro h
    apply (hsorted.and h).imp
    rintro a b ⟨hle, hab⟩
    exact Occupied.apart_iff.mpr ⟨hab, fun hba => hab (Occupied.covers_symm hle hba)⟩
  · exact fun h => h.imp fun hab => (Occupied.apart_iff.mp hab).1

/-! ## The validation -/

theorem unique_iff_apart (fold : Text → Text) (nodes : List PlanNode)
    (hnodes : ∀ node ∈ nodes, validateArtifactContract fold node = .ok ()) :
    validateArtifactContractUniqueness fold nodes = .ok () ↔ (nodes.flatMap (occupiedBy fold)).Pairwise Occupied.Apart := by
  have hchecks : nodes.forM (validateArtifactContract fold) = .ok () := by
    induction nodes with
    | nil => rfl
    | cons node nodes ih =>
      obtain ⟨hnode, hnodes⟩ := List.forall_mem_cons.mp hnodes
      rw [List.forM_eq_forM, List.forM_cons, hnode]
      exact ih hnodes
  rw [← neighbours_decide, validateArtifactContractUniqueness, hchecks]
  rfl

/-- A node with the stage `stage` and its own result. -/
def stageNode (id stage : String) : PlanNode :=
  { id := id.toList, findings := false, taskIds := []
    artifactContract :=
      { stagePath := some stage.toList, outputPath := (id ++ "-result.md").toList,
        logPath := some (stage ++ "/logs").toList, resultPath := some (id ++ "-result.md").toList } }

/-- `a-c` sorts between `a` and `A/b` as a text. -/
def siblingNodes : List PlanNode := [stageNode "first" "a", stageNode "second" "a-c", stageNode "third" "A/b"]

theorem siblings_rejected : (∀ node ∈ siblingNodes, validateArtifactContract casefold node = .ok ()) ∧
    validateArtifactContractUniqueness casefold siblingNodes ≠ .ok () := by
  have hnodes : ∀ node ∈ siblingNodes, validateArtifactContract casefold node = .ok () := by decide +kernel
  refine ⟨hnodes, fun hok => ?_⟩
  have happart := (unique_iff_apart casefold siblingNodes hnodes).mp hok
  have hfirst : (siblingNodes.flatMap (occupiedBy casefold))[0]? =
      some ⟨"stages".toList, [['a']], "a".toList, "first".toList⟩ := by decide +kernel
  have hthird : (siblingNodes.flatMap (occupiedBy casefold))[4]? =
      some ⟨"stages".toList, [['a'], ['b']], "A/b".toList, "third".toList⟩ := by decide +kernel
  obtain ⟨h0, hget0⟩ := List.getElem?_eq_some_iff.mp hfirst
  obtain ⟨h4, hget4⟩ := List.getElem?_eq_some_iff.mp hthird
  have hpair := List.pairwise_iff_getElem.mp happart 0 4 h0 h4 (by decide)
  rw [hget0, hget4] at hpair
  exact (hpair rfl).2.2 ⟨['b'], [], rfl⟩

end Crewplane.Artifacts
