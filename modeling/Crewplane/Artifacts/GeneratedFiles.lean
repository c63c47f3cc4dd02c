import Crewplane.Artifacts.Locators
import Crewplane.Lib.Dict
import Crewplane.Lib.Runs
import Crewplane.Workspace.DistinctRefs
/-
# Directories of generated files (artifacts/naming.py:149, artifacts/generated_files/)

A node's generated files are copied below `generated-files/<directory of the node>/<directory of the task>`. The
normaliser behind both names strips the ends of the id, so ids that differ there only share a directory, which the
uniqueness check of the locators (Artifacts/Locators) does not see. `Clash` lists the pairs of ids that share one.
-/
namespace Crewplane.Artifacts

open Crewplane.Lib Crewplane.Review
open Crewplane.Workspace (Text safeChar edgeChar HexDigest)

def maxGeneratedFileResultDirChars : Nat := 120
def generatedFileResultDirHashChars : Nat := 12

def stageName : Text := ['s', 't', 'a', 'g', 'e']
def generatedFilesName : Text := "generated-files".toList

/-- The safe form of a name before the renamings: `re.sub(…).lstrip(".-").rstrip("-")`. -/
def strippedName (name : Text) : Text := rstrip (· = '-') (lstrip edgeChar (dashRuns safeChar name))

section Directories

variable (sha256 : Text → Text)

def buildGeneratedFileResultDirName (name : Text) : Text :=
  let safeName := strippedName name
  if safeName = [] then stageName
  else
    let safeName := windowsSafeGeneratedName sha256 safeName name
    if safeName.length ≤ maxGeneratedFileResultDirChars then safeName
    else
      let suffix := '-' :: (sha256 name).take generatedFileResultDirHashChars
      let available := maxGeneratedFileResultDirChars - suffix.length
      let front := rstrip edgeChar (safeName.take available)
      (if front = [] then stageName else front) ++ suffix

/-- The parts of the path. -/
def generatedFileNodePrefix (nodeId : Text) : List Text :=
  [generatedFilesName, buildGeneratedFileResultDirName sha256 nodeId]

def generatedFilePathBelongsToNode (relativePath nodeId : Text) : Bool :=
  let parts := relativePath.splitOn '/'
  4 ≤ parts.length && parts.take 2 = generatedFileNodePrefix sha256 nodeId && isSafeRelativePath relativePath

/-- The target of `_copy_workspace_generated_file`, as parts below the directory of the results. -/
def copyTarget (resultFile stageName : Text) (copyNamespace : Option Text) (relativePath : Text) : List Text :=
  (pathParts resultFile).dropLast ++ generatedFileNodePrefix sha256 stageName ++
    (copyNamespace.toList.map (buildGeneratedFileResultDirName sha256)) ++ pathParts relativePath

/-- One file that the aggregation of a node's outputs publishes: `copy_namespace` is the task. -/
structure Publication where
  node : PlanNode
  taskId : Text
  relativePath : Text
  content : List UInt8

def Publication.target (p : Publication) : List Text :=
  copyTarget sha256 p.node.artifactContract.outputPath p.node.id (some p.taskId) p.relativePath

/-- The published files, each with the node that put it there last. -/
abbrev Results := Dict (List Text) (Text × List UInt8)

/-- `copy_result` replaces what stands at the target. -/
def publish (results : Results) (p : Publication) : Results :=
  Dict.setItem results (p.target sha256) (p.node.id, p.content)

/-- The copy does not replace a file of another node. -/
def KeepsOthers (results : Results) (p : Publication) : Prop :=
  ∀ owner content, Dict.get? results (p.target sha256) = some (owner, content) → owner = p.node.id

end Directories

/-! ## Plans -/

/-- What the validation of a plan leaves: ids of the pattern, the compiled locators, found free of overlaps, and task
ids that are not blank, each once in its node. -/
structure PlanAccepted (sha256 : Text → Text) (nodes : List PlanNode) : Prop where
  validIds : ∀ node ∈ nodes, validNodeId node.id = true
  distinctIds : (nodes.map PlanNode.id).Nodup
  contracts : ∀ node ∈ nodes, artifactContractForNode sha256 node.id node.findings = .ok node.artifactContract
  unique : validateArtifactContractUniqueness casefold nodes = .ok ()
  taskIds : ∀ node ∈ nodes, node.taskIds.Nodup ∧ ∀ taskId ∈ node.taskIds, stripChars taskId ≠ []

/-- `as_posix()` of a path below the workspace. -/
def IsRelativePath (path : Text) : Prop := pathParts path ≠ [] ∧ joinPath (pathParts path) = path

/-- No file replaces another's, and no path has two owners. -/
structure NeverCollide (sha256 : Text → Text) (nodes : List PlanNode) : Prop where
  prefixes : ∀ a ∈ nodes, ∀ b ∈ nodes, a.id ≠ b.id →
    generatedFileNodePrefix sha256 a.id ≠ generatedFileNodePrefix sha256 b.id
  published : ∀ run : List Publication, (∀ p ∈ run, p.node ∈ nodes ∧ p.taskId ∈ p.node.taskIds) →
    Along (publish sha256) (KeepsOthers sha256) [] run
  oneOwner : ∀ path, ∀ a ∈ nodes, ∀ b ∈ nodes, generatedFilePathBelongsToNode sha256 path a.id = true →
    generatedFilePathBelongsToNode sha256 path b.id = true → a.id = b.id
  targets : ∀ node ∈ nodes, ∀ task ∈ node.taskIds, ∀ task' ∈ node.taskIds, ∀ path path', IsRelativePath path →
    IsRelativePath path' → (task, path) ≠ (task', path') →
    copyTarget sha256 node.artifactContract.outputPath node.id (some task) path ≠
      copyTarget sha256 node.artifactContract.outputPath node.id (some task') path'

/-! ## Ids that share a directory -/

/-- The safe form ends in a dot, which Windows would drop. -/
def EndsInDot (name : Text) : Prop := (strippedName name).getLast?.any dotOrBlank = true

/-- The name is kept without its hash: the safe form does not end in a dot and fits. -/
def Plain (name : Text) : Prop :=
  ¬ EndsInDot name ∧ (deviceSafe (strippedName name)).length ≤ maxGeneratedFileResultDirChars

/-- What an id without a hash is called after stripping: `stage` where nothing is left, `safe-` before a device name. -/
def plainName (name : Text) : Text := if strippedName name = [] then stageName else deviceSafe (strippedName name)

/-- The ids whose directories are one. -/
inductive Clash (sha256 : Text → Text) (a b : Text) : Prop
  /-- They differ in what stripping takes off only. -/
  | sameName (ha : Plain a) (hb : Plain b) (h : plainName a = plainName b)
  /-- The second is spelled as the first, which ends in a dot, with its hash. -/
  | spellsDotted (hdot : EndsInDot a) (hb : Plain b)
      (h : plainName b =
        deviceSafe (rstrip dotOrBlank (strippedName a) ++ ['-', '-'] ++ artifactNameHash sha256 a))
  /-- The second is spelled as the first, which is too long, cut and with its hash. -/
  | spellsCut (hb : Plain b)
      (hlong : maxGeneratedFileResultDirChars < (windowsSafeGeneratedName sha256 (strippedName a) a).length)
      (h : plainName b =
        rstrip edgeChar ((windowsSafeGeneratedName sha256 (strippedName a) a).take
          (maxGeneratedFileResultDirChars - (generatedFileResultDirHashChars + 1))) ++
          '-' :: artifactNameHash sha256 a)

/-! ## The directory of each kind of id -/

theorem safe_not_blank {c : Char} (h : safeChar c = true) : c ≠ ' ' := by
  rintro rfl
  revert h
  decide

theorem mem_strippedName {name : Text} {c : Char} (h : c ∈ strippedName name) : safeChar c = true := by
  have hdrop := (rstrip_front (lstrip edgeChar (dashRuns safeChar name))).subset h
  have hruns := (lstrip_suffix (dashRuns safeChar name)).subset hdrop
  exact mem_dashRunsFrom (by decide) false c hruns

theorem head?_strippedName (name : Text) : ∀ c ∈ (strippedName name).head?, edgeChar c = false := by
  intro c hc
  have hstart := Workspace.head?_front (rstrip_front (p := (· = '-')) (lstrip edgeChar (dashRuns safeChar name))) c hc
  exact head?_lstrip c hstart

/-- The first character is neither a dot nor a blank, so taking off dots and blanks at the end leaves it. -/
theorem rstrip_strippedName {name : Text} (hne : strippedName name ≠ []) :
    rstrip dotOrBlank (strippedName name) ≠ [] := by
  obtain ⟨c, rest, hname⟩ := List.exists_cons_of_ne_nil hne
  have hmem : c ∈ strippedName name := by simp [hname]
  have hedge : edgeChar c = false := head?_strippedName name c (by simp [hname])
  have hblank := safe_not_blank (mem_strippedName hmem)
  apply rstrip_ne_nil hmem
  have hdot : c ≠ '.' := by
    rintro rfl
    revert hedge
    decide
  simp [dotOrBlank, hdot, hblank]

theorem deviceSafe_ne_nil {slug : Text} (h : slug ≠ []) : deviceSafe slug ≠ [] := by
  unfold deviceSafe
  split
  · simp [safePrefix]
  · exact h

section Kinds

variable {sha256 : Text → Text} {name : Text}

theorem plain_of_stripped_nil (h : strippedName name = []) : Plain name := by
  constructor
  · simp [EndsInDot, h]
  · rw [h]
    decide

theorem endsInDot_ne_nil (h : EndsInDot name) : strippedName name ≠ [] := by
  intro hnil
  simp [EndsInDot, hnil] at h

theorem windowsSafe_plain (h : ¬ EndsInDot name) :
    windowsSafeGeneratedName sha256 (strippedName name) name = deviceSafe (strippedName name) := by
  simp only [EndsInDot] at h
  rw [windowsSafeGeneratedName, if_neg h]

theorem windowsSafe_dotted (h : EndsInDot name) :
    windowsSafeGeneratedName sha256 (strippedName name) name =
      deviceSafe (rstrip dotOrBlank (strippedName name) ++ ['-', '-'] ++ artifactNameHash sha256 name) := by
  have hne := rstrip_strippedName (endsInDot_ne_nil h)
  simp only [EndsInDot] at h
  rw [windowsSafeGeneratedName, if_pos h, if_neg hne]

theorem dirName_plain (h : Plain name) : buildGeneratedFileResultDirName sha256 name = plainName name := by
  simp only [buildGeneratedFileResultDirName, plainName]
  split
  · rfl
  · rw [windowsSafe_plain h.1, if_pos h.2]

theorem dirName_short (hne : strippedName name ≠ [])
    (h : (windowsSafeGeneratedName sha256 (strippedName name) name).length ≤ maxGeneratedFileResultDirChars) :
    buildGeneratedFileResultDirName sha256 name = windowsSafeGeneratedName sha256 (strippedName name) name := by
  simp only [buildGeneratedFileResultDirName]
  rw [if_neg hne, if_pos h]

/-- The renamed safe form starts as the safe form does, or with `safe-`. -/
theorem head?_windowsSafe (hne : strippedName name ≠ []) :
    ∃ c, (windowsSafeGeneratedName sha256 (strippedName name) name).head? = some c ∧ edgeChar c = false := by
  have hdevice : ∀ slug : Text, (∃ c, slug.head? = some c ∧ edgeChar c = false) →
      ∃ c, (deviceSafe slug).head? = some c ∧ edgeChar c = false := by
    intro slug hslug
    unfold deviceSafe
    split
    · exact ⟨'s', rfl, by decide⟩
    · exact hslug
  have hstart : ∀ slug : Text, slug ≠ [] → slug <+: strippedName name →
      ∃ c, slug.head? = some c ∧ edgeChar c = false := by
    intro slug hslug hfront
    obtain ⟨c, rest, rfl⟩ := List.exists_cons_of_ne_nil hslug
    exact ⟨c, rfl, head?_strippedName name c (Workspace.head?_front hfront c rfl)⟩
  by_cases hdot : EndsInDot name
  · rw [windowsSafe_dotted hdot]
    apply hdevice
    obtain ⟨c, hc, hedge⟩ := hstart _ (rstrip_strippedName hne) (rstrip_front (strippedName name))
    refine ⟨c, ?_, hedge⟩
    rw [List.append_assoc, List.head?_append, hc]
    rfl
  · rw [windowsSafe_plain hdot]
    exact hdevice _ (hstart _ hne List.prefix_rfl)

theorem dirName_long
    (h : maxGeneratedFileResultDirChars < (windowsSafeGeneratedName sha256 (strippedName name) name).length)
    (hsha : HexDigest sha256) (hne : strippedName name ≠ []) :
    buildGeneratedFileResultDirName sha256 name =
      rstrip edgeChar ((windowsSafeGeneratedName sha256 (strippedName name) name).take
        (maxGeneratedFileResultDirChars - (generatedFileResultDirHashChars + 1))) ++
        '-' :: artifactNameHash sha256 name := by
  have hlength : ((sha256 name).take generatedFileResultDirHashChars).length = generatedFileResultDirHashChars := by
    rw [List.length_take, hsha.length]
    decide
  have hfront : rstrip edgeChar ((windowsSafeGeneratedName sha256 (strippedName name) name).take
      (maxGeneratedFileResultDirChars - (generatedFileResultDirHashChars + 1))) ≠ [] := by
    obtain ⟨c, hc, hedge⟩ := @head?_windowsSafe sha256 name hne
    obtain ⟨rest, hrest⟩ := List.head?_eq_some_iff.mp hc
    apply rstrip_ne_nil _ hedge
    rw [hrest]
    simp [maxGeneratedFileResultDirChars, generatedFileResultDirHashChars]
  simp only [buildGeneratedFileResultDirName]
  rw [if_neg hne, if_neg (by omega), List.length_cons, hlength, if_neg hfront]
  rfl

theorem length_plainName (h : Plain name) : (plainName name).length ≤ maxGeneratedFileResultDirChars := by
  unfold plainName
  split
  · decide
  · exact h.2

end Kinds

/-! ## Which ids share a directory -/

section Shared

variable {sha256 : Text → Text} {a b : Text}

theorem length_artifactNameHash (hsha : HexDigest sha256) (name : Text) :
    (artifactNameHash sha256 name).length = generatedFileResultDirHashChars := by
  rw [artifactNameHash, List.length_take, hsha.length]
  decide

theorem deviceSafe_append (front hash : Text) : ∃ start, deviceSafe (front ++ hash) = start ++ hash := by
  unfold deviceSafe
  split
  · exact ⟨safePrefix ++ front, by rw [List.append_assoc]⟩
  · exact ⟨front, rfl⟩

theorem stripped_of_marked (h : ¬ Plain a) : strippedName a ≠ [] := fun hnil => h (plain_of_stripped_nil hnil)

/-- An id that is not kept as it is gives a name that ends in its hash. -/
theorem dirName_marked (hsha : HexDigest sha256) (h : ¬ Plain a) :
    ∃ front, buildGeneratedFileResultDirName sha256 a = front ++ artifactNameHash sha256 a := by
  have hne := stripped_of_marked h
  by_cases hfits : (windowsSafeGeneratedName sha256 (strippedName a) a).length ≤ maxGeneratedFileResultDirChars
  · rw [dirName_short hne hfits]
    by_cases hdot : EndsInDot a
    · rw [windowsSafe_dotted hdot]
      exact deviceSafe_append _ _
    · rw [windowsSafe_plain hdot] at hfits
      exact absurd ⟨hdot, hfits⟩ h
  · rw [dirName_long (not_le.mp hfits) hsha hne]
    refine ⟨rstrip edgeChar ((windowsSafeGeneratedName sha256 (strippedName a) a).take
      (maxGeneratedFileResultDirChars - (generatedFileResultDirHashChars + 1))) ++ ['-'], ?_⟩
    rw [List.append_assoc]
    rfl

theorem clash_of_marked (hsha : HexDigest sha256) (ha : ¬ Plain a) (hb : Plain b)
    (h : buildGeneratedFileResultDirName sha256 a = buildGeneratedFileResultDirName sha256 b) : Clash sha256 a b := by
  have hne := stripped_of_marked ha
  rw [dirName_plain hb] at h
  by_cases hfits : (windowsSafeGeneratedName sha256 (strippedName a) a).length ≤ maxGeneratedFileResultDirChars
  · rw [dirName_short hne hfits] at h
    by_cases hdot : EndsInDot a
    · rw [windowsSafe_dotted hdot] at h
      exact .spellsDotted hdot hb h.symm
    · rw [windowsSafe_plain hdot] at hfits
      exact absurd ⟨hdot, hfits⟩ ha
  · rw [dirName_long (not_le.mp hfits) hsha hne] at h
    exact .spellsCut hb (not_le.mp hfits) h.symm

theorem dirName_of_clash (hsha : HexDigest sha256) (h : Clash sha256 a b) :
    buildGeneratedFileResultDirName sha256 a = buildGeneratedFileResultDirName sha256 b := by
  cases h with
  | sameName ha hb hsame => rw [dirName_plain ha, dirName_plain hb, hsame]
  | spellsDotted hdot hb hspelled =>
    have hfits := length_plainName hb
    rw [hspelled, ← windowsSafe_dotted hdot] at hfits
    rw [dirName_plain hb, hspelled, dirName_short (endsInDot_ne_nil hdot) hfits, windowsSafe_dotted hdot]
  | spellsCut hb hlong hspelled =>
    have hne : strippedName a ≠ [] := by
      intro hnil
      rw [windowsSafe_plain (plain_of_stripped_nil hnil).1, hnil] at hlong
      revert hlong
      decide
    rw [dirName_plain hb, hspelled, dirName_long hlong hsha hne]

/-- Two ids share a directory exactly when they clash, one way round or the other. -/
theorem dirName_eq_iff (hsha : HexDigest sha256)
    (hinj : artifactNameHash sha256 a = artifactNameHash sha256 b → a = b) (hne : a ≠ b) :
    buildGeneratedFileResultDirName sha256 a = buildGeneratedFileResultDirName sha256 b ↔
      Clash sha256 a b ∨ Clash sha256 b a := by
  constructor
  · intro hsame
    by_cases ha : Plain a
    · by_cases hb : Plain b
      · rw [dirName_plain ha, dirName_plain hb] at hsame
        exact .inl (.sameName ha hb hsame)
      · exact .inr (clash_of_marked hsha hb ha hsame.symm)
    · by_cases hb : Plain b
      · exact .inl (clash_of_marked hsha ha hb hsame)
      · obtain ⟨front, hfront⟩ := dirName_marked hsha ha
        obtain ⟨front', hfront'⟩ := dirName_marked hsha hb
        rw [hfront, hfront'] at hsame
        have hlengths := (length_artifactNameHash hsha a).trans (length_artifactNameHash hsha b).symm
        exact absurd (hinj (List.append_inj' hsame hlengths).2) hne
  · rintro (hclash | hclash)
    · exact dirName_of_clash hsha hclash
    · exact (dirName_of_clash hsha hclash).symm

end Shared

/-- No two ids of the list share a directory. -/
def NoClash (sha256 : Text → Text) (ids : List Text) : Prop := ∀ a ∈ ids, ∀ b ∈ ids, a ≠ b → ¬ Clash sha256 a b

theorem dirName_injOn_iff {sha256 : Text → Text} (hsha : HexDigest sha256) {ids : List Text}
    (hinj : Set.InjOn (artifactNameHash sha256) {id | id ∈ ids}) :
    NoClash sha256 ids ↔
      ∀ a ∈ ids, ∀ b ∈ ids, a ≠ b → buildGeneratedFileResultDirName sha256 a ≠ buildGeneratedFileResultDirName sha256 b := by
  have hsame : ∀ a ∈ ids, ∀ b ∈ ids, a ≠ b → (buildGeneratedFileResultDirName sha256 a =
      buildGeneratedFileResultDirName sha256 b ↔ Clash sha256 a b ∨ Clash sha256 b a) :=
    fun a ha b hb hne => dirName_eq_iff hsha (hinj ha hb) hne
  constructor
  · intro hno a ha b hb hne hdir
    rcases (hsame a ha b hb hne).mp hdir with hclash | hclash
    · exact hno a ha b hb hne hclash
    · exact hno b hb a ha hne.symm hclash
  · intro hdirs a ha b hb hne hclash
    exact hdirs a ha b hb hne (dirName_of_clash hsha hclash)

/-! ## Result files stand beside each other -/

section Locators

variable {sha256 : Text → Text}

/-- Only characters of a stage name, so no slash. -/
def StageText (text : Text) : Prop := text.all stageChar = true

theorem stageText_append {a b : Text} (ha : StageText a) (hb : StageText b) : StageText (a ++ b) := by
  simp only [StageText, List.all_append, Bool.and_eq_true]
  exact ⟨ha, hb⟩

theorem stageText_of_subset {a b : Text} (h : a ⊆ b) (hb : StageText b) : StageText a :=
  List.all_eq_true.mpr fun c hc => List.all_eq_true.mp hb c (h hc)

theorem stageText_hash (hsha : HexDigest sha256) (name : Text) : StageText (artifactNameHash sha256 name) := by
  have hhex : StageText Workspace.hexDigits := by
    unfold StageText
    decide
  exact stageText_of_subset (fun c hc => hsha.hex name c (List.mem_of_mem_take hc)) hhex

theorem stageText_names : StageText safePrefix ∧ StageText taskName ∧ StageText ['-', '-'] ∧
    StageText "artifact".toList ∧ StageText "-result.md".toList := by
  unfold StageText
  decide +kernel

theorem stageText_deviceSafe {slug : Text} (h : StageText slug) : StageText (deviceSafe slug) := by
  unfold deviceSafe
  split
  · exact stageText_append stageText_names.1 h
  · exact h

theorem stageText_deviceSafeFront {front : Text} (h : StageText front) (suffix : Text) :
    StageText (deviceSafeFront front suffix) := by
  unfold deviceSafeFront
  split
  · exact stageText_append stageText_names.1 h
  · exact h

theorem stageText_windowsSafe (hsha : HexDigest sha256) {slug : Text} (original : Text) (h : StageText slug) :
    StageText (windowsSafeGeneratedName sha256 slug original) := by
  obtain ⟨-, htask, hdashes, -⟩ := stageText_names
  apply stageText_deviceSafe
  split
  · apply stageText_append (stageText_append _ hdashes) (stageText_hash hsha original)
    split
    · exact htask
    · exact stageText_of_subset (rstrip_front slug).subset h
  · exact h

theorem stageText_safeStageName (hsha : HexDigest sha256) (name : Text) : StageText (safeStageName sha256 name) := by
  obtain ⟨-, htask, -⟩ := stageText_names
  have hruns : StageText (dashRuns stageChar (lowerChars (stripChars name))) :=
    List.all_eq_true.mpr (mem_dashRunsFrom (by decide) false)
  simp only [safeStageName]
  split
  · exact htask
  · split
    · exact htask
    · apply stageText_windowsSafe hsha
      split
      · exact htask
      · exact hruns

theorem stageText_boundedName {front suffix file : Text} (hfront : StageText front) (hsuffix : StageText suffix)
    (h : boundedArtifactName front suffix = .ok file) : StageText file := by
  simp only [boundedArtifactName] at h
  split at h
  · cases h
  · cases h
    apply stageText_append _ hsuffix
    split
    · exact stageText_of_subset (List.take_subset _ _) stageText_names.2.2.2.1
    · exact stageText_of_subset (fun c hc => List.mem_of_mem_take ((rstrip_front _).subset hc))
        (stageText_deviceSafeFront hfront suffix)

theorem stageText_boundedFilename (hsha : HexDigest sha256) {name front suffix file : Text}
    (hfront : StageText front) (hsuffix : StageText suffix)
    (h : boundedArtifactFilename sha256 name front suffix = .ok file) : StageText file := by
  have hrenamed := stageText_deviceSafeFront hfront suffix
  simp only [boundedArtifactFilename] at h
  split at h
  · cases h
    exact stageText_append hrenamed hsuffix
  · apply stageText_boundedName hrenamed _ h
    exact stageText_append (stageText_append stageText_names.2.2.1 (stageText_hash hsha name)) hsuffix

/-- The compiled result file is one component. -/
theorem resultFile_parent (hsha : HexDigest sha256) {nodeId : Text} {findings : Bool} {contract : ArtifactContract}
    (h : artifactContractForNode sha256 nodeId findings = .ok contract) :
    (pathParts contract.outputPath).dropLast = [] := by
  have hfile : ∃ file, buildResultFilename sha256 nodeId = .ok file ∧ contract.outputPath = file := by
    simp only [artifactContractForNode] at h
    obtain ⟨stagePath, -, h⟩ := (do_eq_ok _ _ _).mp h
    obtain ⟨file, hfile, h⟩ := (do_eq_ok _ _ _).mp h
    obtain ⟨findingsPath, -, h⟩ := (do_eq_ok _ _ _).mp h
    refine ⟨file, hfile, ?_⟩
    simp only [ArtifactContract.validated] at h
    split at h
    · cases h
      rfl
    · cases h
  obtain ⟨file, hbuilt, hpath⟩ := hfile
  have hchars : StageText file :=
    stageText_boundedFilename hsha (stageText_safeStageName hsha nodeId) stageText_names.2.2.2.2 hbuilt
  have hslash : '/' ∉ file := by
    intro hmem
    have hbad := List.all_eq_true.mp hchars '/' hmem
    revert hbad
    decide
  have hsplit : file.splitOn '/' = [file] := by
    have hjoined := @splitOn_joinPath [file] (by simpa using hslash) (by simp)
    rwa [joinPath_singleton] at hjoined
  have hlength : (pathParts contract.outputPath).length ≤ 1 := by
    rw [pathParts, hpath, hsplit]
    exact List.length_filter_le _ [file]
  apply List.eq_nil_of_length_eq_zero
  rw [List.length_dropLast]
  omega

end Locators

/-! ## Publication in any order -/

section Publication

variable {sha256 : Text → Text} {nodes : List PlanNode}

/-- Every published file stands below the directory of the node that put it there. -/
def Owned (sha256 : Text → Text) (nodes : List PlanNode) (results : Results) : Prop :=
  ∀ path owner content, Dict.get? results path = some (owner, content) →
    ∃ node ∈ nodes, node.id = owner ∧ generatedFileNodePrefix sha256 owner <+: path

theorem target_below (hsha : HexDigest sha256) (accepted : PlanAccepted sha256 nodes) {p : Publication}
    (h : p.node ∈ nodes) : generatedFileNodePrefix sha256 p.node.id <+: p.target sha256 := by
  have hparent := resultFile_parent hsha (accepted.contracts p.node h)
  rw [Publication.target, copyTarget, hparent, List.nil_append, List.append_assoc]
  exact List.prefix_append _ _

theorem owned_publish (hsha : HexDigest sha256) (accepted : PlanAccepted sha256 nodes) {results : Results}
    {p : Publication} (h : p.node ∈ nodes) (hown : Owned sha256 nodes results) :
    Owned sha256 nodes (publish sha256 results p) := by
  intro path owner content hget
  rw [publish, Dict.get?_setItem] at hget
  split at hget
  · rename_i hpath
    cases hget
    exact ⟨p.node, h, rfl, hpath ▸ target_below hsha accepted h⟩
  · exact hown path owner content hget

/-- Two directories that both start one path are one. -/
theorem prefix_unique {a b : Text} {path : List Text} (ha : generatedFileNodePrefix sha256 a <+: path)
    (hb : generatedFileNodePrefix sha256 b <+: path) :
    generatedFileNodePrefix sha256 a = generatedFileNodePrefix sha256 b := by
  have hlength : (generatedFileNodePrefix sha256 a).length = (generatedFileNodePrefix sha256 b).length := rfl
  rw [List.prefix_iff_eq_take.mp ha, List.prefix_iff_eq_take.mp hb, hlength]

theorem keepsOthers (hsha : HexDigest sha256) (accepted : PlanAccepted sha256 nodes)
    (hpre : ∀ a ∈ nodes, ∀ b ∈ nodes, a.id ≠ b.id →
      generatedFileNodePrefix sha256 a.id ≠ generatedFileNodePrefix sha256 b.id) {results : Results}
    {p : Publication} (h : p.node ∈ nodes) (hown : Owned sha256 nodes results) : KeepsOthers sha256 results p := by
  intro owner content hget
  obtain ⟨node, hnode, rfl, hbelow⟩ := hown _ owner content hget
  by_contra hother
  exact hpre node hnode p.node h hother (prefix_unique hbelow (target_below hsha accepted h))

/-- With distinct directories no run of publications, in any order, replaces a file of another node. -/
theorem publications_kept (hsha : HexDigest sha256) (accepted : PlanAccepted sha256 nodes)
    (hpre : ∀ a ∈ nodes, ∀ b ∈ nodes, a.id ≠ b.id →
      generatedFileNodePrefix sha256 a.id ≠ generatedFileNodePrefix sha256 b.id) {run : List Publication}
    (hrun : ∀ p ∈ run, p.node ∈ nodes) : ∀ {results : Results}, Owned sha256 nodes results →
    Along (publish sha256) (KeepsOthers sha256) results run := by
  induction run with
  | nil => exact fun _ => trivial
  | cons p run ih =>
    intro results hown
    have hp := hrun p List.mem_cons_self
    have hrest : ∀ q ∈ run, q.node ∈ nodes := fun q hq => hrun q (List.mem_cons_of_mem p hq)
    exact ⟨keepsOthers hsha accepted hpre hp hown, ih hrest (owned_publish hsha accepted hp hown)⟩

theorem target_distinct {resultFile nodeId task task' path path' : Text}
    (hdir : task ≠ task' →
      buildGeneratedFileResultDirName sha256 task ≠ buildGeneratedFileResultDirName sha256 task')
    (hpath : IsRelativePath path) (hpath' : IsRelativePath path') (hne : (task, path) ≠ (task', path')) :
    copyTarget sha256 resultFile nodeId (some task) path ≠ copyTarget sha256 resultFile nodeId (some task') path' := by
  intro hsame
  simp only [copyTarget, List.append_assoc, List.append_cancel_left_eq, Option.toList_some, List.map_cons,
    List.map_nil, List.cons_append, List.nil_append, List.cons.injEq] at hsame
  obtain ⟨hdirs, hparts⟩ := hsame
  by_cases htask : task = task'
  · apply hne
    rw [htask, ← hpath.2, ← hpath'.2, hparts]
  · exact hdir htask hdirs

end Publication

/-- **Generated files collide exactly through clashing ids.** In an accepted plan the directories of the nodes are
distinct, every order of publications keeps the files of the others, every path has one owner and every task its own
targets, if and only if no two nodes of the plan and no two tasks of a node have clashing ids. -/
theorem never_collide_iff (sha256 : Text → Text) (hsha : HexDigest sha256) (nodes : List PlanNode)
    (accepted : PlanAccepted sha256 nodes)
    (hids : Set.InjOn (artifactNameHash sha256) {id | id ∈ nodes.map PlanNode.id})
    (htasks : ∀ node ∈ nodes, Set.InjOn (artifactNameHash sha256) {task | task ∈ node.taskIds}) :
    NeverCollide sha256 nodes ↔
      NoClash sha256 (nodes.map PlanNode.id) ∧ ∀ node ∈ nodes, NoClash sha256 node.taskIds := by
  constructor
  · intro h
    refine ⟨?_, ?_⟩
    · intro a ha b hb hne hclash
      obtain ⟨nodeA, hnodeA, rfl⟩ := List.mem_map.mp ha
      obtain ⟨nodeB, hnodeB, rfl⟩ := List.mem_map.mp hb
      apply h.prefixes nodeA hnodeA nodeB hnodeB hne
      rw [generatedFileNodePrefix, generatedFileNodePrefix, dirName_of_clash hsha hclash]
    · intro node hnode task htask task' htask' hne hclash
      have hfile : IsRelativePath ['f'] := ⟨by decide, by decide⟩
      apply h.targets node hnode task htask task' htask' ['f'] ['f'] hfile hfile (by simp [hne])
      simp only [copyTarget, Option.toList_some, List.map_cons, List.map_nil]
      rw [dirName_of_clash hsha hclash]
  · rintro ⟨hnodes, hclash⟩
    have hdirs := (dirName_injOn_iff hsha hids).mp hnodes
    have hpre : ∀ a ∈ nodes, ∀ b ∈ nodes, a.id ≠ b.id →
        generatedFileNodePrefix sha256 a.id ≠ generatedFileNodePrefix sha256 b.id := by
      intro a ha b hb hne hsame
      apply hdirs a.id (List.mem_map_of_mem ha) b.id (List.mem_map_of_mem hb) hne
      simpa [generatedFileNodePrefix] using hsame
    refine ⟨hpre, ?_, ?_, ?_⟩
    · intro run hrun
      have hempty : Owned sha256 nodes [] := by
        intro path owner content hget
        cases hget
      exact publications_kept hsha accepted hpre (fun p hp => (hrun p hp).1) hempty
    · intro path a ha b hb howna hownb
      by_contra hne
      simp only [generatedFilePathBelongsToNode, Bool.and_eq_true, decide_eq_true_eq] at howna hownb
      exact hpre a ha b hb hne (howna.1.2.symm.trans hownb.1.2)
    · intro node hnode task htask task' htask' path path' hpath hpath' hne
      exact target_distinct ((dirName_injOn_iff hsha (htasks node hnode)).mp (hclash node hnode) task htask task' htask')
        hpath hpath' hne

/-! ## Two ids with one directory -/

/-- SHA-256 of the ids below. -/
def sampleDigests : Dict Text Text := [
  ("plan".toList, "64879f7d6b960a01909762d911a32d4582c20010c5641ee90278b644a9e3b525".toList),
  ("-plan".toList, "75ce297129444b9c9268f864e77f2e62fb502d2f1dc60ede57c0e52a66982287".toList),
  ("build".toList, "44575cf5b28512d75644bf54a517dcef304ff809fd511747621b4d64f19aac66".toList)]

def sampleSha256 (value : Text) : Text := (Dict.get? sampleDigests value).getD (List.replicate 64 '0')

def sampleContract (id : String) : ArtifactContract :=
  { stagePath := some id.toList, outputPath := (id ++ "-result.md").toList,
    logPath := some (id ++ "/logs").toList, resultPath := some (id ++ "-result.md").toList }

def sampleNode (id : String) : PlanNode :=
  { id := id.toList, findings := false, artifactContract := sampleContract id,
    taskIds := ["claude_executor_0".toList] }

theorem sampleSha256_hexDigest : HexDigest sampleSha256 := by
  have hcheck : (sampleDigests.all fun kv => kv.2.length == 64 && kv.2.all Workspace.hexDigits.contains) = true := by
    decide +kernel
  have hvalue : ∀ value, (sampleSha256 value).length = 64 ∧ ∀ c ∈ sampleSha256 value, c ∈ Workspace.hexDigits := by
    intro value
    rw [sampleSha256]
    cases hget : Dict.get? sampleDigests value with
    | none =>
      refine ⟨List.length_replicate, fun c hc => ?_⟩
      rw [List.eq_of_mem_replicate hc]
      decide
    | some digest =>
      have hdigest := List.all_eq_true.mp hcheck _ (Dict.mem_of_get? hget)
      simpa using hdigest
  exact ⟨fun value => (hvalue value).1, fun value => (hvalue value).2⟩

theorem sampleHash_injOn {ids : List Text}
    (h : ∀ a ∈ ids, ∀ b ∈ ids, artifactNameHash sampleSha256 a = artifactNameHash sampleSha256 b → a = b) :
    Set.InjOn (artifactNameHash sampleSha256) {id | id ∈ ids} := fun a ha b hb heq => h a ha b hb heq

theorem samplePlan_accepted {other : String} (h : other = "build" ∨ other = "-plan") :
    PlanAccepted sampleSha256 [sampleNode "plan", sampleNode other] := by
  rcases h with rfl | rfl
  · exact ⟨by decide +kernel, by decide +kernel, by decide +kernel, by decide +kernel, by decide +kernel⟩
  · exact ⟨by decide +kernel, by decide +kernel, by decide +kernel, by decide +kernel, by decide +kernel⟩

theorem never_collide_build :
    NeverCollide sampleSha256 [sampleNode "plan", sampleNode "build"] ↔
      NoClash sampleSha256 ([sampleNode "plan", sampleNode "build"].map PlanNode.id) ∧
        ∀ node ∈ [sampleNode "plan", sampleNode "build"], NoClash sampleSha256 node.taskIds :=
  never_collide_iff sampleSha256 sampleSha256_hexDigest _ (samplePlan_accepted (.inl rfl))
    (sampleHash_injOn (by decide +kernel)) fun node hnode => sampleHash_injOn (by
      revert node
      decide +kernel)

/-- The nodes `plan` and `-plan` have their own stage and result and share `generated-files/plan`. -/
theorem dash_plan_collides :
    ¬ ∀ (sha256 : Text → Text) (nodes : List PlanNode), HexDigest sha256 → PlanAccepted sha256 nodes →
      Set.InjOn (artifactNameHash sha256) {id | id ∈ nodes.map PlanNode.id} →
      (∀ node ∈ nodes, Set.InjOn (artifactNameHash sha256) {task | task ∈ node.taskIds}) →
      NeverCollide sha256 nodes := by
  intro h
  have hcollide := h sampleSha256 [sampleNode "plan", sampleNode "-plan"] sampleSha256_hexDigest
    (samplePlan_accepted (.inr rfl)) (sampleHash_injOn (by decide +kernel)) fun node hnode => sampleHash_injOn (by
      revert node
      decide +kernel)
  exact hcollide.prefixes (sampleNode "plan") (by simp) (sampleNode "-plan") (by simp) (by decide +kernel)
    (by decide +kernel)

end Crewplane.Artifacts
