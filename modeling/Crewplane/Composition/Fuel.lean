import Crewplane.Composition.Instances
/-
# Enough fuel

A file is never traversed inside itself, so the import stack holds each file of the
project at most once, and one unit of fuel for each file, and one more, is enough
for every traversal (`compose_returns`).
-/
namespace Crewplane.Composition

open Crewplane.Lib Crewplane.Workflow Crewplane.Prompt

/-- A computation that does not end for want of fuel. -/
def Returns {α : Type} (x : Except CompositionError α) : Prop := x ≠ .error .outOfFuel

section Steps

variable {α β : Type}

@[simp] theorem returns_ok (a : α) : Returns (.ok a) := by simp [Returns]

@[simp] theorem returns_pure (a : α) : Returns (pure a) := returns_ok a

theorem returns_error {e : CompositionError} (h : e ≠ .outOfFuel) : Returns (.error e : Except CompositionError α) := by
  simpa [Returns] using h

theorem Returns.bind {x : Except CompositionError α} {f : α → Except CompositionError β} (hx : Returns x)
    (hf : ∀ a, x = .ok a → Returns (f a)) : Returns (x >>= f) := by
  cases x with
  | error e => exact fun h => hx (by simpa [Bind.bind, Except.bind] using h)
  | ok a => exact hf a rfl

theorem returns_require {b : Prop} [Decidable b] {e : CompositionError} (h : e ≠ .outOfFuel) : Returns (require b e) := by
  unfold require
  split
  · exact returns_ok _
  · exact returns_error h

theorem returns_mapError (x : Except String α) : Returns (x.mapError .load) := by
  cases x <;> simp [Returns, Except.mapError]

theorem returns_mapM {f : α → Except CompositionError β} {xs : List α} (h : ∀ x ∈ xs, Returns (f x)) :
    Returns (xs.mapM f) := by
  induction xs with
  | nil => exact returns_pure _
  | cons x xs ih =>
    rw [List.mapM_cons]
    refine (h x List.mem_cons_self).bind fun y _ => ?_
    exact (ih fun z hz => h z (List.mem_cons_of_mem _ hz)).bind fun ys _ => returns_pure _

theorem returns_subM {p : Pattern Char β} {f : Nat → Match Char β → Except CompositionError (List Char)}
    (h : ∀ k found, Returns (f k found)) (text : List Char) : ∀ k pos skip, Returns (subM p f k pos skip text) := by
  induction text with
  | nil => simp
  | cons c rest ih =>
    intro k pos skip
    cases skip with
    | succ skip => simpa using ih k (pos + 1) skip
    | zero =>
      cases hp : p (c :: rest) with
      | none =>
        rw [subM_none hp]
        exact (ih k (pos + 1) 0).bind fun _ _ => returns_pure _
      | some found =>
        obtain ⟨n, capture⟩ := found
        rw [subM_some hp]
        exact (h k _).bind fun _ _ => (ih (k + 1) (pos + 1) n).bind fun _ _ => returns_pure _

end Steps

theorem returns_resolvedParam (params : Dict String ParamBinding) (sourcePath nodeId rawKey : String) :
    Returns (resolvedParam params sourcePath nodeId rawKey) := by
  unfold resolvedParam
  dsimp only
  split
  · exact returns_error (by simp)
  · split <;> exact returns_ok _

theorem returns_composeLocalNode (context : CompositionContext) (node : NodeSpec) :
    Returns (composeLocalNode context node) := by
  refine Returns.bind ?_ fun _ _ => returns_pure _
  have hprompt : Returns (rewritePromptSegments node.payload.promptSegments context.namespacePrefix
      context.boundInputNodes context.inheritedParams node.sourcePath node.payload.id) := by
    refine (returns_mapM fun segment _ => ?_).bind fun _ _ => returns_pure _
    refine Returns.bind ?_ fun _ _ => returns_pure _
    exact (returns_subM (fun _ _ => returns_resolvedParam _ _ _ _) _ _ _ _).bind fun _ _ => returns_pure _
  unfold updatedNode
  split
  · exact returns_ok _
  · exact returns_ok _
  all_goals exact hprompt.bind fun _ _ => returns_pure _

theorem returns_bindInputNodes (sourcePath : String) (workflowInputs : Dict String String) :
    ∀ (bindings : List (String × String)) (resolved origins : Dict String String),
    Returns (bindInputNodes sourcePath workflowInputs bindings resolved origins) := by
  intro bindings
  induction bindings with
  | nil => exact fun _ _ => returns_ok _
  | cons binding bindings ih =>
    intro resolved origins
    rw [bindInputNodes]
    split
    · exact returns_error (by simp)
    · split
      · exact ih _ _
      · split
        · exact returns_error (by simp)
        · exact ih _ _

theorem returns_checkForeachInputs (inputs : Dict String String) (group : String) :
    ∀ (names : List String) (boundNodes : Dict String String), Returns (checkForeachInputs inputs group names boundNodes) := by
  intro names
  induction names with
  | nil => exact fun _ => returns_ok _
  | cons name names ih =>
    intro boundNodes
    rw [checkForeachInputs]
    split
    · exact returns_error (by simp)
    · split
      · exact returns_error (by simp)
      · exact ih _

theorem returns_mergeWorktrees (first second : Dict String WorktreeDeclaration) : Returns (mergeWorktrees first second) :=
  (returns_require (by simp)).bind fun _ _ => returns_pure _

theorem returns_attachImportPrerequisites (childResult : CompositionResult) (prerequisites : List String)
    (spec : ImportSpec) : Returns (attachImportPrerequisites childResult prerequisites spec) := by
  unfold attachImportPrerequisites
  split
  · exact returns_ok _
  · split
    · exact returns_error (by simp)
    · exact returns_ok _

theorem returns_registerNode (composer : Composer) (node : ComposedNode) : Returns (registerNode composer node) := by
  unfold registerNode
  split
  · exact returns_error (by simp)
  · exact returns_ok _

theorem returns_setOrValidateRootSchema (sourcePath version : String) (composer : Composer) :
    Returns (setOrValidateRootSchema sourcePath version composer) := by
  unfold setOrValidateRootSchema
  split
  · exact returns_ok _
  · split
    · exact returns_ok _
    · exact returns_error (by simp)

section Walk

variable {project : Project} {traverse : Traverse} {context : CompositionContext}

theorem returns_contextOf (args : FileArgs) : Returns (contextOf project args) := by
  refine (returns_mapError _).bind fun workflow _ => ?_
  exact (returns_bindInputNodes _ _ _ _ _).bind fun _ _ => returns_pure _

theorem returns_composeImport {spec : ImportSpec}
    (h : ∀ args composer, args.importStack = context.importStack → Returns (traverse args composer)) (composer : Composer) :
    Returns (composeImport project traverse context spec composer) := by
  refine (returns_mapError _).bind fun path _ => ?_
  refine (h _ _ rfl).bind fun found _ => ?_
  refine (returns_require (by simp)).bind fun _ _ => ?_
  exact (returns_attachImportPrerequisites _ _ _).bind fun _ _ => returns_pure _

theorem returns_composeImports
    (h : ∀ args composer, args.importStack = context.importStack → Returns (traverse args composer)) :
    ∀ (specs : List ImportSpec) (composed : CompositionResult) (composer : Composer),
    Returns (composeImports project traverse context specs composed composer) := by
  intro specs
  induction specs with
  | nil => exact fun _ _ => returns_ok _
  | cons spec specs ih =>
    intro composed composer
    rw [composeImports]
    refine (returns_composeImport h composer).bind fun found _ => ?_
    exact (returns_mergeWorktrees _ _).bind fun _ _ => ih _ _

theorem returns_composeTemplate
    (h : ∀ args composer, args.importStack = context.importStack → Returns (traverse args composer))
    (node : ComposedNode) (composer : Composer) : Returns (composeTemplate project traverse context node composer) := by
  unfold composeTemplate composeForeach
  dsimp only
  split
  · split
    · exact returns_error (by simp)
    · refine (returns_mapError _).bind fun path _ => ?_
      refine (returns_mapError _).bind fun child _ => ?_
      refine Returns.bind ((returns_checkForeachInputs _ _ _ _).bind fun _ _ => returns_pure _) fun inputs _ => ?_
      refine (h _ _ rfl).bind fun found _ => ?_
      exact (returns_require (by simp)).bind fun _ _ => returns_pure _
    · exact returns_error (by simp)
  · exact returns_ok _

theorem returns_composeNodes
    (h : ∀ args composer, args.importStack = context.importStack → Returns (traverse args composer)) :
    ∀ (nodes : List NodeSpec) (composed : CompositionResult) (composer : Composer),
    Returns (composeNodes project traverse context nodes composed composer) := by
  intro nodes
  induction nodes with
  | nil => exact fun _ _ => returns_ok _
  | cons node nodes ih =>
    intro composed composer
    rw [composeNodes]
    split
    · exact ih _ _
    · refine (returns_composeLocalNode _ _).bind fun found _ => ?_
      refine (returns_registerNode _ _).bind fun composer _ => ?_
      exact (returns_composeTemplate h _ _).bind fun _ _ => ih _ _

/-- The stack of a traversal holds files of the project, each once. -/
theorem returns_composeFile (fuel : Nat) : ∀ (args : FileArgs) (composer : Composer), args.importStack.Nodup →
    (∀ file ∈ args.importStack, file ∈ project.files) → project.files.length < fuel + args.importStack.length →
    Returns (composeFile project fuel args composer) := by
  induction fuel with
  | zero =>
    intro args composer hnodup hfiles hlength
    have := (List.subperm_of_subset hnodup hfiles).length_le
    omega
  | succ fuel ih =>
    intro args composer hnodup hfiles hlength
    rw [composeFile]
    refine (returns_require (by simp)).bind fun _ hfresh => ?_
    have hfresh := (require_eq_ok _ _).mp hfresh
    refine Returns.bind ?_ fun found hfound => ?_
    · refine (returns_mapError _).bind fun workflow _ => ?_
      refine (returns_setOrValidateRootSchema _ _ _).bind fun composer _ => ?_
      exact (returns_contextOf _).bind fun _ _ => returns_pure _
    obtain ⟨context, composer'⟩ := found
    unfold buildContext at hfound
    obtain ⟨workflow, hload, hfound⟩ := (do_eq_ok ..).mp hfound
    obtain ⟨schemaComposer, -, hfound⟩ := (do_eq_ok ..).mp hfound
    obtain ⟨context', hcontext, hfound⟩ := (do_eq_ok ..).mp hfound
    cases hfound
    have hstack := (contextOf_eq_ok hcontext).2.2.2.2
    have hbelow : ∀ args' composer, args'.importStack = context.importStack →
        Returns (composeFile project fuel args' composer) := by
      intro args' composer hargs
      apply ih
      · rw [hargs, hstack]
        refine List.nodup_append.mpr ⟨hnodup, by simp, ?_⟩
        intro file hfile other hother
        rw [List.mem_singleton.mp hother]
        rintro rfl
        exact hfresh hfile
      · intro file hfile
        rw [hargs, hstack] at hfile
        rcases List.mem_append.mp hfile with hfile | hfile
        · exact hfiles file hfile
        · rw [List.mem_singleton.mp hfile]
          exact project.mem_files _ _ (loadWorkflowFile_eq_ok hload)
      · rw [hargs, hstack, List.length_append]
        simp only [List.length_singleton]
        omega
    refine (returns_composeImports hbelow _ _ _).bind fun imports _ => ?_
    refine (returns_composeNodes hbelow _ _ _).bind fun locals _ => ?_
    exact (returns_mergeWorktrees _ _).bind fun _ _ => returns_pure _

/-- Composition of a project with finitely many files comes to an end. -/
theorem compose_returns (path : String) : Returns (compose project path) := by
  refine (returns_mapError _).bind fun workflow _ => ?_
  refine (returns_setOrValidateRootSchema _ _ _).bind fun composer _ => ?_
  refine (returns_composeFile _ _ _ List.nodup_nil (by simp [rootArgs]) (by simp [rootArgs])).bind fun found _ => ?_
  exact returns_pure _

end Walk

end Crewplane.Composition
