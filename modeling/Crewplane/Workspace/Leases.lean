import Crewplane.Workspace.Cleanup
import Crewplane.Lib.Runs
/-
# Runs of the reuse cache

`_retain_failed_cleanup_entry` takes a workspace out of the leases but not out of `entries`, as
`_forget_entry` does. A call that queues a stored workspace (a deferral, or a clean-up
that the outside fails) therefore leaves it to be handed out by the next `take`, and the
clean-up of the run then removes it under its lease. `Orderly` says of a call that it does not;
a run of orderly calls keeps every workspace with one owner.
-/
namespace Crewplane.Workspace

open Crewplane.Lib

section Statements

variable (resolve : Path → Path)

/-- The state paths a request itself records for a workspace. -/
def Request.gives : Request → Path → Path → Prop
  | .cleanupWorkspace workspacePath statePath, w, p => resolve workspacePath = w ∧ statePath = some p
  | .cleanupEntry entry, w, p => workspaceKey resolve entry = w ∧ entry.statePath = p
  | _, _, _ => False

/-- The call queues no stored workspace and brings in none that is queued, stored under another key or path,
or removed by the cache and forgotten. -/
def Orderly (s : Machine) (call : Call) : Prop :=
  match call.request with
  | .take .. => True
  | .store entry => ∀ cacheKey, entryCacheKey entry = .ok cacheKey →
      Ready resolve s entry ∧ ¬ s.Queued (workspaceKey resolve entry)
  | .deferWorkspaceCleanup workspacePath _ => ¬ s.Stored resolve (resolve workspacePath)
  | .cleanupWorkspace workspacePath statePath => ∀ kv ∈ s.cache.entries,
      workspaceKey resolve kv.2 = resolve workspacePath → CleansUp resolve call.world s kv.2 ∧
        ∀ p, statePath = some p → call.world.update (resolve workspacePath) p = .ok ()
  | .cleanupEntry entry => Ready resolve s entry
  | .cleanupNodeBestEffort nodeId => ∀ kv ∈ s.cache.entries, kv.2.nodeId = nodeId →
      kv.2.cleanupOnSuccess = true → CleansUp resolve call.world s kv.2
  | .cleanupAll => ∀ kv ∈ s.cache.entries, kv.2.cleanupOnSuccess = true → CleansUp resolve call.world s kv.2
  | .discardWorkspace _ => True

/-- What a call must do: hand out no leased or queued workspace, attempt the removal of no leased one in a
clean-up of the run or of a node, attempt no removal after a completed one, and mark every state
path recorded for a workspace whose removal it reports. -/
structure Kept (s : Machine) (call : Call) : Prop where
  handed_out : ∀ entry s', call.perform resolve s = .ok (.checkout (some entry)) s' →
    ¬ s.Leased (workspaceKey resolve entry) ∧ ¬ s.Queued (workspaceKey resolve entry)
  leased : call.request = .cleanupAll ∨ (∃ nodeId, call.request = .cleanupNodeBestEffort nodeId) →
    ∀ w, s.Leased w → .attempted w ∉ s.since (step resolve s call)
  trace : s.trace <+: (step resolve s call).trace
  once : RemovedOnce (step resolve s call).trace
  marked : ∀ w, .reported w ∈ s.since (step resolve s call) →
    ∀ p, p ∈ s.cache.statePaths w ∨ call.request.gives resolve w p → .marked p ∈ s.since (step resolve s call)

end Statements

variable {resolve : Path → Path} {world : World} {s s' s₁ : Machine} {entry : ReusableWorktreeCheckout}
  {request : Request}

/-- What every request does to the machine. -/
structure Served (resolve : Path → Path) (request : Request) (s s' : Machine) : Prop where
  owned : Owned resolve s'
  trace : s.trace <+: s'.trace
  marked : ∀ w, .reported w ∈ s.since s' →
    ∀ p, p ∈ s.cache.statePaths w ∨ request.gives resolve w p → .marked p ∈ s.since s'

/-- A request that reports nothing. -/
theorem Served.silent (h : Owned resolve s') (htrace : s.trace <+: s'.trace)
    (hquiet : ∀ w, .reported w ∉ s.since s') : Served resolve request s s' where
  owned := h
  trace := htrace
  marked w hrep := absurd hrep (hquiet w)

theorem Served.unchanged (h : Owned resolve s') (htrace : s'.trace = s.trace) : Served resolve request s s' :=
  .silent h (by rw [htrace]) (by simp [Machine.since, htrace])

/-- Cleaning an entry up serves a request whose state paths are among the entry's. -/
theorem Handled.served (h : Handled resolve entry s₁ s') (htrace : s₁.trace = s.trace)
    (hpaths : ∀ p, p ∈ s.cache.statePaths (workspaceKey resolve entry) ∨
      request.gives resolve (workspaceKey resolve entry) p → p ∈ s₁.cache.statePathsForEntry resolve entry) :
    Served resolve request s s' := by
  have hsince : s.since s' = s₁.since s' := by rw [Machine.since, Machine.since, htrace]
  constructor
  · exact h.owned
  · rw [← htrace]
    exact h.trace
  · intro w hrep p hp
    rw [hsince] at hrep ⊢
    by_cases hw : w = workspaceKey resolve entry
    · subst hw
      exact h.reports hrep p (hpaths p hp)
    · exact absurd hrep (h.others w hw).quiet.2.2

theorem mem_statePathsForEntry {c : WorktreeReuseCache} {p : Path} (h : p ∈ c.statePaths (workspaceKey resolve entry)) :
    p ∈ c.statePathsForEntry resolve entry := List.mem_insert_of_mem h

/-! ## take -/

theorem takeEntry_spec {cacheKey : CacheKey} {sourceRef : WorktreeSourceRef} (hs : Owned resolve s)
    (hget : s.cache.entries.get? cacheKey = some entry) (hgives : ∀ w p, ¬ request.gives resolve w p) :
    Spec (· = s) (takeEntry resolve world cacheKey sourceRef entry)
      (fun found s' => Served resolve request s s' ∧ ∀ handed, found = some handed → handed = entry)
      (fun _ => Served resolve request s) := by
  have hpop := owned_pop hs hget
  have hfree := not_tracked_pop hs hget
  have hevidenced : (s.pop cacheKey).Evidenced (workspaceKey resolve entry) :=
    (hs.owned _).evidenced (Or.inl ⟨_, Dict.mem_of_get? hget, rfl⟩)
  apply Spec.bind (Q := fun _ s' => s' = s.pop cacheKey)
  · apply Spec.modify
    rintro _ rfl
    rfl
  intro _
  apply Spec.bind (Q := fun _ s' => s' = s.pop cacheKey)
  · apply Spec.cond
    · intro _
      apply Spec.outside
      · exact fun _ _ _ h => h
      · rintro _ _ _ rfl
        exact .unchanged hpop rfl
    · exact fun _ => Spec.ret _ fun _ h => h
  intro fits
  apply Spec.cond
  · intro _
    apply Spec.bind (Q := fun _ => Served resolve request s)
    · apply Spec.modify
      rintro _ rfl
      exact .unchanged (owned_lease hpop hfree hevidenced) rfl
    · refine fun _ => Spec.ret _ fun s' h => ⟨h, ?_⟩
      rintro handed ⟨⟩
      rfl
  · intro _
    apply Spec.bind (Q := fun _ => Served resolve request s)
    · have hready := ready_of_not_stored hevidenced fun hstored => hfree (Or.inl hstored)
      apply (cleanupEntryBestEffort_spec hpop hready fun hstored => absurd (Or.inl hstored) hfree).conseq
        (fun _ h => h) _ (fun _ _ h => h.elim)
      intro _ s' h
      refine h.served rfl ?_
      rintro p (hp | hp)
      · exact mem_statePathsForEntry hp
      · exact absurd hp (hgives _ _)
    · exact fun _ => Spec.ret _ fun s' h => ⟨h, by simp⟩

theorem take_spec {name : String} {sourceRef : WorktreeSourceRef} {repositoryId runKeyName : String}
    (hs : Owned resolve s) (hgives : ∀ w p, ¬ request.gives resolve w p) :
    Spec (· = s) (take resolve world name sourceRef repositoryId runKeyName)
      (fun found s' => Served resolve request s s' ∧
        ∀ handed, found = some handed → s.Stored resolve (workspaceKey resolve handed))
      (fun _ => Served resolve request s) := by
  apply Spec.read
  cases hget : s.cache.entries.get? (repositoryId, runKeyName, name) with
  | none =>
    apply Spec.ret
    rintro _ rfl
    exact ⟨.unchanged hs rfl, by simp⟩
  | some entry =>
    apply (takeEntry_spec hs hget hgives).conseq (fun _ h => h) _ (fun _ _ h => h)
    rintro found s' ⟨h, hhanded⟩
    refine ⟨h, fun handed hfound => ?_⟩
    rw [hhanded handed hfound]
    exact ⟨_, Dict.mem_of_get? hget, rfl⟩

/-! ## store -/

theorem store_spec (hs : Owned resolve s) (horderly : ∀ cacheKey, entryCacheKey entry = .ok cacheKey →
      Ready resolve s entry ∧ ¬ s.Queued (workspaceKey resolve entry))
    (hgives : ∀ w p, ¬ request.gives resolve w p) :
    Spec (· = s) (store resolve world entry) (fun _ => Served resolve request s)
      (fun _ => Served resolve request s) := by
  apply Spec.bind (Q := fun cacheKey s' => entryCacheKey entry = .ok cacheKey ∧ s' = s)
  · apply Spec.outside
    · exact fun _ hkey _ h => ⟨hkey, h⟩
    · rintro _ _ _ rfl
      exact .unchanged hs rfl
  intro cacheKey
  apply Spec.pointwise
  rintro t ⟨hkey, rfl⟩
  obtain ⟨hready, hqueued⟩ := horderly cacheKey hkey
  have hput := owned_put hs hready hkey hqueued
  apply Spec.read
  apply Spec.bind (Q := fun _ s' => s' = t.put resolve cacheKey entry)
  · apply Spec.modify
    rintro _ rfl
    rfl
  intro _
  cases hget : t.cache.entries.get? cacheKey with
  | none =>
    apply Spec.ret
    rintro _ rfl
    exact .unchanged hput rfl
  | some previous =>
    apply Spec.cond
    · intro hpath
      have hstored := not_stored_put hs hready hkey hget hpath
      have hmem := Dict.mem_of_get? hget
      have hevidenced : (t.put resolve cacheKey entry).Evidenced (workspaceKey resolve previous) :=
        evidenced_put.mpr ((hs.owned _).evidenced (Or.inl ⟨_, hmem, rfl⟩))
      have hdifferent : workspaceKey resolve previous ≠ workspaceKey resolve entry := fun heq =>
        hpath (hready.stored cacheKey hkey _ hmem heq).2
      apply Spec.bind (Q := fun _ => Served resolve request t)
      · apply (cleanupEntryBestEffort_spec hput (ready_of_not_stored hevidenced hstored)
          fun h => absurd h hstored).conseq (fun _ h => h) _ (fun _ _ h => h.elim)
        intro _ s' h
        refine h.served rfl ?_
        rintro p (hp | hp)
        · rw [← statePaths_put hdifferent] at hp
          exact mem_statePathsForEntry hp
        · exact absurd hp (hgives _ _)
      · exact fun _ => Spec.ret _ fun _ h => h
    · intro _
      apply Spec.ret
      rintro _ rfl
      exact .unchanged hput rfl

/-! ## Owned workspaces -/

/-- The entry found for a workspace is of that workspace, in a table, and the stored one where one is stored. -/
theorem entryForWorkspace_some {workspacePath : Path} (hs : Owned resolve s)
    (hfound : s.cache.entryForWorkspace resolve workspacePath = some entry) :
    workspaceKey resolve entry = resolve workspacePath ∧ s.Tracked resolve (resolve workspacePath) ∧
      (s.Stored resolve (resolve workspacePath) → ∃ kv ∈ s.cache.entries, kv.2 = entry) := by
  have howned := hs.owned (resolve workspacePath)
  rcases Option.or_eq_some_iff.mp hfound with hleased | ⟨_, hfound⟩
  · have hmem := Dict.mem_of_get? hleased
    have hl : s.Leased (resolve workspacePath) := List.mem_map_of_mem hmem
    exact ⟨howned.leased_keyed _ hmem rfl, Or.inr (Or.inl hl), fun hst => absurd hl (howned.stored_not_leased hst)⟩
  · rcases Option.or_eq_some_iff.mp hfound with hqueued | ⟨_, hfound⟩
    · have hmem := Dict.mem_of_get? hqueued
      have hq : s.Queued (resolve workspacePath) := List.mem_map_of_mem hmem
      exact ⟨howned.failed_keyed _ hmem rfl, Or.inr (Or.inr hq), fun hst => absurd hq (howned.stored_not_queued hst)⟩
    · have hkey := List.find?_some hfound
      obtain ⟨kv, hmem, hval⟩ := List.mem_map.mp (List.mem_of_find?_eq_some hfound)
      have heq : workspaceKey resolve entry = resolve workspacePath := of_decide_eq_true hkey
      exact ⟨heq, Or.inl ⟨kv, hmem, by rw [hval, heq]⟩, fun _ => ⟨kv, hmem, hval⟩⟩

theorem ready_of_entryForWorkspace {workspacePath : Path} (hs : Owned resolve s)
    (hfound : s.cache.entryForWorkspace resolve workspacePath = some entry) : Ready resolve s entry := by
  obtain ⟨heq, htracked, hstored⟩ := entryForWorkspace_some hs hfound
  by_cases hst : s.Stored resolve (resolve workspacePath)
  · obtain ⟨kv, hkv, rfl⟩ := hstored hst
    exact hs.ready_of_stored hkv
  · rw [← heq] at hst htracked
    exact ready_of_not_stored ((hs.owned _).evidenced htracked) hst

/-- The machine once the given state path is recorded. -/
def Machine.recorded (resolve : Path → Path) (s : Machine) (entry : ReusableWorktreeCheckout) :
    Option Path → Machine
  | some statePath => s.remember (workspaceKey resolve entry) statePath
  | none => s

theorem ownedEntry_spec {workspacePath : Path} {statePath : Option Path} {E : Failure → Machine → Prop} :
    Spec (· = s) (ownedEntry resolve workspacePath statePath)
      (fun found s' => found = s.cache.entryForWorkspace resolve workspacePath ∧
        (∀ entry, found = some entry → s' = s.recorded resolve entry statePath) ∧ (found = none → s' = s)) E := by
  apply Spec.read
  cases hfound : s.cache.entryForWorkspace resolve workspacePath with
  | none =>
    apply Spec.ret
    rintro _ rfl
    simp
  | some entry =>
    cases statePath with
    | none =>
      apply Spec.ret
      rintro _ rfl
      simp [Machine.recorded]
    | some statePath =>
      apply Spec.bind (Q := fun _ s' => s' = s.remember (workspaceKey resolve entry) statePath)
      · apply Spec.modify
        rintro _ rfl
        rfl
      · intro _
        apply Spec.ret
        rintro _ rfl
        simp [Machine.recorded]

theorem owned_recorded {statePath : Option Path} (hs : Owned resolve s) :
    Owned resolve (s.recorded resolve entry statePath) := by
  cases statePath with
  | none => exact hs
  | some statePath => exact owned_remember hs

theorem recorded_tables (resolve : Path → Path) (s : Machine) (entry : ReusableWorktreeCheckout)
    (statePath : Option Path) :
    (s.recorded resolve entry statePath).cache.entries = s.cache.entries ∧
    (s.recorded resolve entry statePath).cache.physicallyRemovedWorkspaces = s.cache.physicallyRemovedWorkspaces ∧
    (s.recorded resolve entry statePath).trace = s.trace := by
  cases statePath <;> simp [Machine.recorded, Machine.remember, WorktreeReuseCache.rememberStatePath]

theorem mem_statePaths_recorded {statePath : Option Path} {p : Path} :
    p ∈ (s.recorded resolve entry statePath).cache.statePaths (workspaceKey resolve entry) ↔
      p ∈ s.cache.statePaths (workspaceKey resolve entry) ∨ statePath = some p := by
  cases statePath with
  | none => simp [Machine.recorded]
  | some statePath =>
    rw [Machine.recorded, statePaths_remember, if_pos rfl, List.mem_insert_iff, or_comm, Option.some_inj]
    exact or_congr_right eq_comm

/-! ## cleanup_workspace and defer_workspace_cleanup -/

theorem Cleaning.served {w : Path} (h : Cleaning w s₁ s') (hs : Owned resolve s₁) (htrace : s₁.trace = s.trace) :
    Served resolve request s s' := by
  apply Served.silent (h.owned hs)
  · rw [← htrace]
    exact h.trace
  · intro w' hrep
    have hrep' : .reported w' ∈ s₁.since s' := by rwa [Machine.since, htrace]
    have hx := h.events _ hrep'
    simp at hx

theorem cleanupOwned_spec (hs : Owned resolve s₁) (htrace : s₁.trace = s.trace) (hready : Ready resolve s₁ entry)
    (hclean : s₁.Stored resolve (workspaceKey resolve entry) → CleansUp resolve world s₁ entry)
    (hpaths : ∀ p, p ∈ s.cache.statePaths (workspaceKey resolve entry) ∨
      request.gives resolve (workspaceKey resolve entry) p → p ∈ s₁.cache.statePathsForEntry resolve entry) :
    Spec (· = s₁) (cleanupOwned resolve world entry) (fun _ => Served resolve request s)
      (fun _ => Served resolve request s) := by
  apply Spec.read
  apply Spec.bind (Q := fun _ s' => Cleaning (workspaceKey resolve entry) s₁ s' ∧
    ∀ p ∈ s₁.cache.statePathsForEntry resolve entry, .marked p ∈ s₁.since s')
  · apply Spec.rescue (removeAndMark_spec hready.evidenced hs.once)
    intro failure
    apply Spec.bind (Q := fun _ => Served resolve request s)
    · apply Spec.modify
      rintro s₂ ⟨hc, hnot⟩
      refine (handled_retain hs (fun hstored => hnot (hclean hstored)) hc).served htrace hpaths
    · exact fun _ => Spec.raise _ fun _ h => h
  intro updated
  apply Spec.bind (Q := fun _ s' => Handled resolve entry s₁ s' ∧
    ∀ p ∈ s₁.cache.statePathsForEntry resolve entry, .marked p ∈ s₁.since s')
  · apply Spec.pointwise
    rintro s₂ ⟨hc, hmarked⟩
    apply forgetEntry_spec.conseq (fun _ h => h)
    · rintro _ _ ⟨cacheKey, hkey, rfl⟩
      exact ⟨handled_forget hs hready hkey hc, hmarked⟩
    · rintro _ _ ⟨rfl, _⟩
      exact hc.served hs htrace
  intro _
  apply Spec.bind (Q := fun _ => Handled resolve entry s₁)
  · exact Spec.modify _ fun s' h => handled_reported h.1 h.2
  intro _
  apply Spec.bind (Q := fun _ => Served resolve request s)
  · exact Spec.modify _ fun s' h => (handled_pending updated h).served htrace hpaths
  · exact fun _ => Spec.ret _ fun _ h => h

theorem cleanupWorkspace_spec {workspacePath : Path} {statePath : Option Path} (hs : Owned resolve s)
    (horderly : ∀ kv ∈ s.cache.entries, workspaceKey resolve kv.2 = resolve workspacePath →
      CleansUp resolve world s kv.2 ∧ ∀ p, statePath = some p → world.update (resolve workspacePath) p = .ok ()) :
    Spec (· = s) (cleanupWorkspace resolve world workspacePath statePath)
      (fun _ => Served resolve (.cleanupWorkspace workspacePath statePath) s)
      (fun _ => Served resolve (.cleanupWorkspace workspacePath statePath) s) := by
  apply Spec.bind ownedEntry_spec
  rintro (_ | entry)
  · apply Spec.ret
    rintro s' ⟨_, _, hnone⟩
    rw [hnone rfl]
    exact .unchanged hs rfl
  · apply Spec.pointwise
    rintro s₁ ⟨hfound, hsome, _⟩
    obtain rfl := hsome entry rfl
    obtain ⟨heq, _, hstored⟩ := entryForWorkspace_some hs hfound.symm
    obtain ⟨hentries, hremoved, htrace⟩ := recorded_tables resolve s entry statePath
    have hready := ready_of_entryForWorkspace hs hfound.symm
    apply cleanupOwned_spec (owned_recorded hs) htrace
    · constructor
      · rw [Machine.Evidenced, hremoved, htrace]
        exact hready.evidenced
      · rw [hentries]
        exact hready.stored
    · intro hst
      rw [Machine.Stored, hentries, heq] at hst
      obtain ⟨kv, hkv, rfl⟩ := hstored hst
      obtain ⟨⟨hremoval, hupdate⟩, hgiven⟩ := horderly kv hkv heq
      constructor
      · rwa [RemovalAnswers, hremoved]
      · intro p hp
        rcases List.mem_insert_iff.mp hp with rfl | hp
        · exact hupdate _ List.mem_insert_self
        · rcases mem_statePaths_recorded.mp hp with hp | hp
          · exact hupdate p (mem_statePathsForEntry hp)
          · rw [heq]
            exact hgiven p hp
    · rintro p (hp | ⟨_, hp⟩)
      · exact mem_statePathsForEntry (mem_statePaths_recorded.mpr (Or.inl hp))
      · exact mem_statePathsForEntry (mem_statePaths_recorded.mpr (Or.inr hp))

theorem deferWorkspaceCleanup_spec {workspacePath statePath : Path} (hs : Owned resolve s)
    (horderly : ¬ s.Stored resolve (resolve workspacePath)) :
    Spec (· = s) (deferWorkspaceCleanup resolve workspacePath statePath) (fun _ => Served resolve request s)
      (fun _ => Served resolve request s) := by
  apply Spec.bind ownedEntry_spec
  rintro (_ | entry)
  · apply Spec.ret
    rintro s' ⟨_, _, hnone⟩
    rw [hnone rfl]
    exact .unchanged hs rfl
  · apply Spec.bind (Q := fun _ => Served resolve request s)
    · apply Spec.modify
      rintro s₁ ⟨hfound, hsome, _⟩
      obtain rfl := hsome entry rfl
      have heq := (entryForWorkspace_some hs hfound.symm).1
      have hready := ready_of_entryForWorkspace hs hfound.symm
      rw [← heq] at horderly
      exact .unchanged (owned_retain (owned_remember hs) horderly hready.evidenced) rfl
    · exact fun _ => Spec.ret _ fun _ h => h

/-! ## cleanup_all and cleanup_node_best_effort -/

theorem mem_cleanable (h : entry ∈ s.cache.cleanable resolve) :
    (∃ kv ∈ s.cache.entries, kv.2 = entry) ∨ ∃ kv ∈ s.cache.failedCleanupEntries, kv.2 = entry := by
  obtain ⟨kv, hkv, rfl⟩ := List.mem_map.mp h
  obtain ⟨found, hfound, rfl⟩ := List.mem_map.mp (Dict.mem_of_mem_ofPairs hkv)
  exact (List.mem_append.mp hfound).imp List.mem_map.mp List.mem_map.mp

theorem nodup_cleanable (resolve : Path → Path) (s : Machine) : ((s.cache.cleanable resolve).map (workspaceKey resolve)).Nodup := by
  have hkeys : ∀ kv ∈ Dict.ofPairs ((s.cache.entries.values ++ s.cache.failedCleanupEntries.values).map
      fun entry => (workspaceKey resolve entry, entry)), workspaceKey resolve kv.2 = kv.1 := by
    intro kv hkv
    obtain ⟨entry, _, rfl⟩ := List.mem_map.mp (Dict.mem_of_mem_ofPairs hkv)
    rfl
  rw [WorktreeReuseCache.cleanable, uniqueEntries, Dict.values, List.map_map]
  have hmap := List.map_congr_left (f := workspaceKey resolve ∘ Prod.snd) (g := Prod.fst) hkeys
  rw [hmap]
  exact Dict.nodup_keys_ofPairs _

/-- What a loop over cleanable entries needs and does. -/
theorem cleanable_spec {α : Type} {cleanup : ReusableWorktreeCheckout → Act α} {entries : List ReusableWorktreeCheckout}
    (hcleanup : ∀ s entry, Owned resolve s → Ready resolve s entry → Cleanable resolve world s entry →
      Spec (· = s) (cleanup entry) (fun _ => Handled resolve entry s) (fun _ _ => False))
    (hs : Owned resolve s) (hentries : entries.Sublist (s.cache.cleanable resolve))
    (horderly : ∀ kv ∈ s.cache.entries, kv.2 ∈ entries → kv.2.cleanupOnSuccess = true →
      CleansUp resolve world s kv.2) :
    Spec (· = s) (entries.mapM cleanup)
      (fun _ s' => HandledAll resolve entries s s' ∧ ∀ w, s.Leased w → .attempted w ∉ s.since s')
      (fun _ _ => False) := by
  have htracked : ∀ entry ∈ entries, ¬ s.Leased (workspaceKey resolve entry) ∧ Ready resolve s entry ∧
      Cleanable resolve world s entry := by
    intro entry hentry
    rcases mem_cleanable (hentries.subset hentry) with ⟨kv, hkv, rfl⟩ | ⟨kv, hkv, rfl⟩
    · have hstored : s.Stored resolve (workspaceKey resolve kv.2) := ⟨kv, hkv, rfl⟩
      exact ⟨(hs.owned _).stored_not_leased hstored, hs.ready_of_stored hkv,
        fun _ => ⟨⟨kv.1, (hs.owned _).keyed kv hkv rfl⟩, horderly kv hkv hentry⟩⟩
    · have hqueued : s.Queued (workspaceKey resolve kv.2) :=
        List.mem_map.mpr ⟨kv, hkv, ((hs.owned kv.1).failed_keyed kv hkv rfl).symm⟩
      have hstored : ¬ s.Stored resolve (workspaceKey resolve kv.2) := fun hst =>
        (hs.owned _).stored_not_queued hst hqueued
      exact ⟨fun hl => (hs.owned _).leased_not_queued hl hqueued,
        ready_of_not_stored ((hs.owned _).evidenced (Or.inr (Or.inr hqueued))) hstored,
        fun hst => absurd hst hstored⟩
  have hnodup := nodup_cleanable resolve s
  apply (handledAll_spec hcleanup hs (hnodup.sublist (hentries.map _)) (fun entry h => (htracked entry h).2.1)
    fun entry h => (htracked entry h).2.2).conseq (fun _ h => h) _ (fun _ _ h => h)
  intro _ s' h
  refine ⟨h, fun w hleased => ?_⟩
  apply (h.others w _).quiet.1
  intro hw
  obtain ⟨entry, hentry, rfl⟩ := List.mem_map.mp hw
  exact (htracked entry hentry).1 hleased

theorem HandledAll.served {entries : List ReusableWorktreeCheckout} (h : HandledAll resolve entries s s')
    (hgives : ∀ w p, ¬ request.gives resolve w p) : Served resolve request s s' where
  owned := h.owned
  trace := h.trace
  marked w hrep p hp := h.reports w hrep p (hp.resolve_right (hgives w p))

theorem cleanupNodeBestEffort_spec {nodeId : String} (hs : Owned resolve s)
    (horderly : ∀ kv ∈ s.cache.entries, kv.2.nodeId = nodeId → kv.2.cleanupOnSuccess = true →
      CleansUp resolve world s kv.2) (hgives : ∀ w p, ¬ request.gives resolve w p) :
    Spec (· = s) (cleanupNodeBestEffort resolve world nodeId)
      (fun _ s' => Served resolve request s s' ∧ ∀ w, s.Leased w → .attempted w ∉ s.since s')
      (fun _ _ => False) := by
  apply Spec.read
  apply Spec.bind (Q := fun _ s' => Served resolve request s s' ∧ ∀ w, s.Leased w → .attempted w ∉ s.since s')
  · apply (cleanable_spec (fun _ _ => cleanupEntryBestEffort_spec) hs List.filter_sublist _).conseq (fun _ h => h) _
      (fun _ _ h => h)
    · intro kv hkv hmem
      exact horderly kv hkv (of_decide_eq_true (List.mem_filter.mp hmem).2)
    · exact fun _ s' h => ⟨h.1.served hgives, h.2⟩
  · exact fun _ => Spec.ret _ fun _ h => h

/-- The machine once `cleanup_all` has taken the pending state paths over. -/
def Machine.takePending (s : Machine) : Machine := { s with cache := { s.cache with pendingUpdatedStatePaths := [] } }

theorem cleanupAll_spec (hs : Owned resolve s)
    (horderly : ∀ kv ∈ s.cache.entries, kv.2.cleanupOnSuccess = true → CleansUp resolve world s kv.2)
    (hgives : ∀ w p, ¬ request.gives resolve w p) :
    Spec (· = s) (cleanupAll resolve world)
      (fun _ s' => Served resolve request s s' ∧ ∀ w, s.Leased w → .attempted w ∉ s.since s')
      (fun _ _ => False) := by
  apply Spec.read
  have hfresh : Owned resolve s.takePending := {
    nodup := hs.nodup
    owned := fun w => (hs.owned w).shrink (fun _ hkv _ => hkv) (fun _ hkv _ => hkv) (fun _ hkv _ => hkv) id
    once := hs.once }
  apply Spec.bind (Q := fun _ s' => s' = s.takePending)
  · apply Spec.modify
    rintro _ rfl
    rfl
  intro _
  apply Spec.bind (Q := fun _ s' => Served resolve request s s' ∧ ∀ w, s.Leased w → .attempted w ∉ s.since s')
  · apply (cleanable_spec (fun _ _ => cleanupRetaining_spec) hfresh (List.Sublist.refl _)
      fun kv hkv _ => horderly kv hkv).conseq (fun _ h => h) _ (fun _ _ h => h)
    rintro _ s' ⟨h, hquiet⟩
    have hserved : Served resolve request s.takePending s' := h.served hgives
    exact ⟨⟨hserved.owned, hserved.trace, hserved.marked⟩, hquiet⟩
  · exact fun _ => Spec.ret _ fun _ h => h

/-! ## Steps and runs -/

/-- What an orderly call does. -/
structure Performed (resolve : Path → Path) (call : Call) (s s' : Machine) : Prop where
  served : Served resolve call.request s s'
  leased : call.request = .cleanupAll ∨ (∃ nodeId, call.request = .cleanupNodeBestEffort nodeId) →
    ∀ w, s.Leased w → .attempted w ∉ s.since s'

/-- A checkout that a call hands out was stored. -/
def HandsOut (resolve : Path → Path) (s : Machine) (reply : Reply) : Prop :=
  ∀ entry, reply = .checkout (some entry) → s.Stored resolve (workspaceKey resolve entry)

theorem perform_spec {call : Call} (hs : Owned resolve s) (horderly : Orderly resolve s call) :
    Spec (· = s) (call.perform resolve)
      (fun reply s' => Performed resolve call s s' ∧ HandsOut resolve s reply)
      (fun _ => Performed resolve call s) := by
  obtain ⟨request, world⟩ := call
  cases request with
  | take name sourceRef repositoryId runKeyName =>
    have hgives : ∀ w p, ¬ (Request.take name sourceRef repositoryId runKeyName).gives resolve w p := fun _ _ => id
    apply Spec.map
    apply (take_spec hs hgives).conseq (fun _ h => h)
    · rintro found s' ⟨h, hhanded⟩
      refine ⟨⟨h, by simp⟩, fun entry hreply => hhanded entry (Reply.checkout.inj hreply)⟩
    · exact fun _ s' h => ⟨h, by simp⟩
  | store entry =>
    have hgives : ∀ w p, ¬ (Request.store entry).gives resolve w p := fun _ _ => id
    apply Spec.bind (Q := fun _ => Served resolve (.store entry) s)
    · apply (store_spec hs horderly hgives).conseq (fun _ h => h) (fun _ _ h => h)
      exact fun _ s' h => ⟨h, by simp⟩
    · exact fun _ => Spec.ret _ fun s' h => ⟨⟨h, by simp⟩, by simp [HandsOut]⟩
  | deferWorkspaceCleanup workspacePath statePath =>
    apply Spec.map
    apply (deferWorkspaceCleanup_spec hs horderly).conseq (fun _ h => h)
    · exact fun _ s' h => ⟨⟨h, by simp⟩, by simp [HandsOut]⟩
    · exact fun _ s' h => ⟨h, by simp⟩
  | cleanupWorkspace workspacePath statePath =>
    apply Spec.map
    apply (cleanupWorkspace_spec hs horderly).conseq (fun _ h => h)
    · exact fun _ s' h => ⟨⟨h, by simp⟩, by simp [HandsOut]⟩
    · exact fun _ s' h => ⟨h, by simp⟩
  | cleanupEntry entry =>
    apply Spec.map
    have hready : Ready resolve s entry := horderly
    apply (cleanupEntry_spec hs hready).conseq (fun _ h => h)
    · intro _ s' h
      refine ⟨⟨h.served rfl ?_, by simp⟩, by simp [HandsOut]⟩
      rintro p (hp | ⟨_, rfl⟩)
      · exact mem_statePathsForEntry hp
      · exact List.mem_insert_self
    · exact fun _ s' h => ⟨h.cleaning.served hs rfl, by simp⟩
  | cleanupNodeBestEffort nodeId =>
    have hgives : ∀ w p, ¬ (Request.cleanupNodeBestEffort nodeId).gives resolve w p := fun _ _ => id
    apply Spec.map
    apply (cleanupNodeBestEffort_spec hs horderly hgives).conseq (fun _ h => h)
    · exact fun _ s' h => ⟨⟨h.1, fun _ => h.2⟩, by simp [HandsOut]⟩
    · exact fun _ _ h => h.elim
  | cleanupAll =>
    have hgives : ∀ w p, ¬ Request.cleanupAll.gives resolve w p := fun _ _ => id
    apply Spec.map
    apply (cleanupAll_spec hs horderly hgives).conseq (fun _ h => h)
    · exact fun _ s' h => ⟨⟨h.1, fun _ => h.2⟩, by simp [HandsOut]⟩
    · exact fun _ _ h => h.elim
  | discardWorkspace workspacePath =>
    apply Spec.bind (Q := fun _ => Served resolve (.discardWorkspace workspacePath) s)
    · apply Spec.modify
      rintro _ rfl
      exact .unchanged (owned_discard hs) rfl
    · exact fun _ => Spec.ret _ fun s' h => ⟨⟨h, by simp⟩, by simp [HandsOut]⟩

/-- One orderly call keeps the invariant and does what a call must do. -/
theorem step_kept {call : Call} (hs : Owned resolve s) (horderly : Orderly resolve s call) :
    Owned resolve (step resolve s call) ∧ Kept resolve s call := by
  have hspec := perform_spec hs horderly
  have hperformed : Performed resolve call s (step resolve s call) := by
    rw [step]
    split
    · exact (hspec.ok rfl ‹_›).1
    · exact hspec.error rfl ‹_›
  refine ⟨hperformed.served.owned, ?_⟩
  constructor
  · intro entry s' hreply
    have hstored := (hspec.ok rfl hreply).2 entry rfl
    exact ⟨(hs.owned _).stored_not_leased hstored, (hs.owned _).stored_not_queued hstored⟩
  · exact hperformed.leased
  · exact hperformed.served.trace
  · exact hperformed.served.owned.once
  · exact hperformed.served.marked

/-- Along every run of orderly calls each call keeps the ownership of workspaces. -/
theorem orderly_run_kept (resolve : Path → Path) (calls : List Call)
    (h : Along (step resolve) (Orderly resolve) .init calls) : Along (step resolve) (Kept resolve) .init calls :=
  along_of_invariant (fun _ _ hs horderly => step_kept hs horderly) Owned.init h

/-! ### A checkout that is taken again -/

def sampleEntry : ReusableWorktreeCheckout where
  nodeId := "implement"
  logicalWorktreeName := "tree"
  workspacePath := "/ws"
  checkoutRoot := "/ws/root"
  sourceCommit := "c"
  sourceTree := "t"
  statePath := "/state"
  cleanupOnSuccess := true
  repositoryId := "repo"
  runKeyName := "run"

/-- Nothing outside fails, and a path is present until it is removed. -/
def calmWorld : World where
  checkoutExists _ := .ok true
  absentBefore _ := .ok false
  removal _ := .ok ()
  absentAfter _ := .ok true
  update _ _ := .ok ()

def sampleStore : Call := ⟨.store sampleEntry, calmWorld⟩

def sampleTake : Call := ⟨.take "tree" ⟨"c", "t"⟩ "repo" "run", calmWorld⟩

def sampleDefer : Call := ⟨.deferWorkspaceCleanup "/ws" "/state", calmWorld⟩

def sampleCleanup : Call := ⟨.cleanupAll, calmWorld⟩

theorem orderly_run_kept_taken :
    Along (step id) (Kept id) .init [sampleStore, sampleTake, sampleStore, sampleTake, sampleDefer, sampleCleanup] := by
  have hleased : ¬ (([sampleStore, sampleTake, sampleStore, sampleTake].foldl (step id) .init).Stored id "/ws") := by
    decide
  have hqueued : ([sampleStore, sampleTake, sampleStore, sampleTake, sampleDefer].foldl (step id) .init).cache.entries =
    [] := by decide
  have hclean : Orderly id ([sampleStore, sampleTake, sampleStore, sampleTake, sampleDefer].foldl (step id) .init)
      sampleCleanup := by
    intro kv hkv
    rw [hqueued] at hkv
    simp at hkv
  apply orderly_run_kept
  refine ⟨fun _ _ => ⟨ready_of_not_stored ?_ ?_, ?_⟩, trivial, fun _ _ => ⟨ready_of_not_stored ?_ ?_, ?_⟩, trivial,
    hleased, hclean, trivial⟩
  all_goals decide

/-- A deferred clean-up of a stored workspace: the workspace is queued, handed out, and removed under its lease. -/
theorem deferred_handed_out :
    ¬ Along (step id) (Kept id) .init [sampleStore, sampleDefer, sampleTake] ∧
      ¬ Kept id ([sampleStore, sampleDefer, sampleTake].foldl (step id) .init) sampleCleanup := by
  constructor
  · rintro ⟨_, _, hkept, _⟩
    exact (hkept.handed_out sampleEntry _ rfl).2 (by decide)
  · intro hkept
    exact hkept.leased (Or.inl rfl) "/ws" (by decide) (by decide +kernel)

end Crewplane.Workspace
