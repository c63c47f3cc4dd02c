import Crewplane.Workspace.ReuseCache
/-
# Who owns a workspace

A workspace is stored, leased or queued for clean-up, and at most one of the three:
`Owned` says so of the tables, together with what the trace knows of removals.
`Untouched` is the frame of an operation at a workspace it is not about. A clean-up first only
removes and marks (`Cleaning`: the tables stay), and then forgets or retains its entry.
-/
namespace Crewplane.Workspace

open Crewplane.Lib

/-- No removal is attempted after one that completed. -/
def RemovedOnce (trace : List Event) : Prop :=
  ∀ before after w, trace = before ++ .attempted w :: after → .removed w ∉ before

theorem RemovedOnce.append {trace : List Event} (h : RemovedOnce trace) {event : Event}
    (hevent : ∀ w, event = .attempted w → .removed w ∉ trace) : RemovedOnce (trace ++ [event]) := by
  intro before after w hsplit
  rcases List.eq_nil_or_concat after with rfl | ⟨after, last, rfl⟩
  · obtain ⟨rfl, hlast⟩ := List.append_inj' hsplit rfl
    exact hevent w (List.singleton_inj.mp hlast)
  · have hcut : trace ++ [event] = (before ++ .attempted w :: after) ++ [last] := by simpa using hsplit
    obtain ⟨rfl, _⟩ := List.append_inj' hcut rfl
    exact h before after w rfl

namespace Machine

/-- The events of a step from `s`. -/
def since (s s' : Machine) : List Event := s'.trace.drop s.trace.length

theorem mem_since_trans {s s₁ s₂ : Machine} (h : s.trace <+: s₁.trace) (h' : s₁.trace <+: s₂.trace) {x : Event} :
    x ∈ s.since s₂ ↔ x ∈ s.since s₁ ∨ x ∈ s₁.since s₂ := by
  obtain ⟨t, ht⟩ := h
  obtain ⟨t', ht'⟩ := h'
  simp [since, ← ht', ← ht]

theorem since_append {s s' : Machine} {events : List Event} (h : s'.trace = s.trace ++ events) :
    s.since s' = events := by
  simp [since, h]

end Machine

section Tables

variable (resolve : Path → Path)

def Machine.Stored (s : Machine) (w : Path) : Prop := ∃ kv ∈ s.cache.entries, workspaceKey resolve kv.2 = w

def Machine.Leased (s : Machine) (w : Path) : Prop := w ∈ s.cache.leasedEntries.keys

def Machine.Queued (s : Machine) (w : Path) : Prop := w ∈ s.cache.failedCleanupEntries.keys

instance (s : Machine) (w : Path) : Decidable (s.Leased w) := inferInstanceAs (Decidable (w ∈ s.cache.leasedEntries.keys))

instance (s : Machine) (w : Path) : Decidable (s.Queued w) :=
  inferInstanceAs (Decidable (w ∈ s.cache.failedCleanupEntries.keys))

instance (s : Machine) (w : Path) : Decidable (s.Stored resolve w) :=
  inferInstanceAs (Decidable (∃ kv ∈ s.cache.entries, workspaceKey resolve kv.2 = w))

def Machine.Tracked (s : Machine) (w : Path) : Prop := s.Stored resolve w ∨ s.Leased w ∨ s.Queued w

/-- The cache knows of a completed removal. -/
def Machine.Evidenced (s : Machine) (w : Path) : Prop :=
  .removed w ∈ s.trace → w ∈ s.cache.physicallyRemovedWorkspaces

/-- The tables at one workspace. -/
structure OwnedAt (s : Machine) (w : Path) : Prop where
  keyed : ∀ kv ∈ s.cache.entries, workspaceKey resolve kv.2 = w → entryCacheKey kv.2 = .ok kv.1
  stored_once : ∀ a ∈ s.cache.entries, ∀ b ∈ s.cache.entries,
    workspaceKey resolve a.2 = w → workspaceKey resolve b.2 = w → a = b
  leased_keyed : ∀ kv ∈ s.cache.leasedEntries, kv.1 = w → workspaceKey resolve kv.2 = w
  failed_keyed : ∀ kv ∈ s.cache.failedCleanupEntries, kv.1 = w → workspaceKey resolve kv.2 = w
  stored_not_leased : s.Stored resolve w → ¬ s.Leased w
  stored_not_queued : s.Stored resolve w → ¬ s.Queued w
  leased_not_queued : s.Leased w → ¬ s.Queued w
  evidenced : s.Tracked resolve w → s.Evidenced w

instance (s : Machine) (w : Path) : Decidable (s.Evidenced w) :=
  inferInstanceAs (Decidable (_ → _))

structure Owned (s : Machine) : Prop where
  nodup : s.cache.entries.keys.Nodup
  owned : ∀ w, OwnedAt resolve s w
  once : RemovedOnce s.trace

/-- An operation has left a workspace alone. -/
structure Untouched (w : Path) (s s' : Machine) : Prop where
  stored : ∀ kv, workspaceKey resolve kv.2 = w → (kv ∈ s'.cache.entries ↔ kv ∈ s.cache.entries)
  leased : ∀ kv, kv.1 = w → (kv ∈ s'.cache.leasedEntries ↔ kv ∈ s.cache.leasedEntries)
  queued : ∀ kv, kv.1 = w → (kv ∈ s'.cache.failedCleanupEntries ↔ kv ∈ s.cache.failedCleanupEntries)
  paths : s'.cache.statePaths w = s.cache.statePaths w
  removed : w ∈ s'.cache.physicallyRemovedWorkspaces ↔ w ∈ s.cache.physicallyRemovedWorkspaces
  trace : s.trace <+: s'.trace
  quiet : .attempted w ∉ s.since s' ∧ .removed w ∉ s.since s' ∧ .reported w ∉ s.since s'

end Tables

variable {resolve : Path → Path} {s s' s₁ s₂ : Machine} {w : Path}

/-! ## Untouched workspaces -/

theorem Untouched.refl (s : Machine) (w : Path) : Untouched resolve w s s where
  stored _ _ := Iff.rfl
  leased _ _ := Iff.rfl
  queued _ _ := Iff.rfl
  paths := rfl
  removed := Iff.rfl
  trace := List.prefix_rfl
  quiet := by simp [Machine.since]

theorem Untouched.trans (h : Untouched resolve w s s₁) (h' : Untouched resolve w s₁ s₂) :
    Untouched resolve w s s₂ where
  stored kv hkv := (h'.stored kv hkv).trans (h.stored kv hkv)
  leased kv hkv := (h'.leased kv hkv).trans (h.leased kv hkv)
  queued kv hkv := (h'.queued kv hkv).trans (h.queued kv hkv)
  paths := h'.paths.trans h.paths
  removed := h'.removed.trans h.removed
  trace := h.trace.trans h'.trace
  quiet := by
    simp only [Machine.mem_since_trans h.trace h'.trace]
    have hq := h.quiet
    have hq' := h'.quiet
    tauto

theorem Untouched.stored_iff (h : Untouched resolve w s s') : s'.Stored resolve w ↔ s.Stored resolve w := by
  constructor
  · rintro ⟨kv, hmem, hkv⟩
    exact ⟨kv, (h.stored kv hkv).mp hmem, hkv⟩
  · rintro ⟨kv, hmem, hkv⟩
    exact ⟨kv, (h.stored kv hkv).mpr hmem, hkv⟩

theorem mem_keys_congr {α : Type} {d d' : Dict Path α} (h : ∀ kv, kv.1 = w → (kv ∈ d' ↔ kv ∈ d)) :
    w ∈ d'.keys ↔ w ∈ d.keys := by
  constructor
  · intro hw
    obtain ⟨kv, hmem, hkv⟩ := List.mem_map.mp hw
    exact List.mem_map.mpr ⟨kv, (h kv hkv).mp hmem, hkv⟩
  · intro hw
    obtain ⟨kv, hmem, hkv⟩ := List.mem_map.mp hw
    exact List.mem_map.mpr ⟨kv, (h kv hkv).mpr hmem, hkv⟩

theorem Untouched.leased_iff (h : Untouched resolve w s s') : s'.Leased w ↔ s.Leased w := mem_keys_congr h.leased

theorem Untouched.queued_iff (h : Untouched resolve w s s') : s'.Queued w ↔ s.Queued w := mem_keys_congr h.queued

theorem Untouched.tracked_iff (h : Untouched resolve w s s') : s'.Tracked resolve w ↔ s.Tracked resolve w := by
  simp only [Machine.Tracked, h.stored_iff, h.leased_iff, h.queued_iff]

theorem mem_trace_iff (h : s.trace <+: s'.trace) {x : Event} : x ∈ s'.trace ↔ x ∈ s.trace ∨ x ∈ s.since s' := by
  obtain ⟨t, ht⟩ := h
  rw [Machine.since_append ht.symm, ← ht, List.mem_append]

theorem Untouched.evidenced_iff (h : Untouched resolve w s s') : s'.Evidenced w ↔ s.Evidenced w := by
  have hmem : .removed w ∈ s'.trace ↔ .removed w ∈ s.trace := by
    rw [mem_trace_iff h.trace, or_iff_left h.quiet.2.1]
  simp only [Machine.Evidenced, hmem, h.removed]

/-- Dropping entries of a workspace keeps it owned. -/
theorem OwnedAt.shrink (h : OwnedAt resolve s w)
    (hentries : ∀ kv ∈ s'.cache.entries, workspaceKey resolve kv.2 = w → kv ∈ s.cache.entries)
    (hleased : ∀ kv ∈ s'.cache.leasedEntries, kv.1 = w → kv ∈ s.cache.leasedEntries)
    (hfailed : ∀ kv ∈ s'.cache.failedCleanupEntries, kv.1 = w → kv ∈ s.cache.failedCleanupEntries)
    (hevidenced : s.Evidenced w → s'.Evidenced w) : OwnedAt resolve s' w := by
  have hstored : s'.Stored resolve w → s.Stored resolve w := by
    rintro ⟨kv, hkv, hw⟩
    exact ⟨kv, hentries kv hkv hw, hw⟩
  have hlease : s'.Leased w → s.Leased w := by
    intro hl
    obtain ⟨kv, hkv, hw⟩ := List.mem_map.mp hl
    exact List.mem_map.mpr ⟨kv, hleased kv hkv hw, hw⟩
  have hqueue : s'.Queued w → s.Queued w := by
    intro hq
    obtain ⟨kv, hkv, hw⟩ := List.mem_map.mp hq
    exact List.mem_map.mpr ⟨kv, hfailed kv hkv hw, hw⟩
  exact {
    keyed := fun kv hkv hw => h.keyed kv (hentries kv hkv hw) hw
    stored_once := fun a ha b hb haw hbw => h.stored_once a (hentries a ha haw) b (hentries b hb hbw) haw hbw
    leased_keyed := fun kv hkv hw => h.leased_keyed kv (hleased kv hkv hw) hw
    failed_keyed := fun kv hkv hw => h.failed_keyed kv (hfailed kv hkv hw) hw
    stored_not_leased := fun hst hl => h.stored_not_leased (hstored hst) (hlease hl)
    stored_not_queued := fun hst hq => h.stored_not_queued (hstored hst) (hqueue hq)
    leased_not_queued := fun hl hq => h.leased_not_queued (hlease hl) (hqueue hq)
    evidenced := fun ht => hevidenced (h.evidenced (ht.imp hstored (Or.imp hlease hqueue))) }

/-- The frame rule: what is left alone stays owned. -/
theorem Untouched.ownedAt (h : Untouched resolve w s s') (hs : OwnedAt resolve s w) : OwnedAt resolve s' w :=
  hs.shrink (fun kv hkv hw => (h.stored kv hw).mp hkv) (fun kv hkv hw => (h.leased kv hw).mp hkv)
    (fun kv hkv hw => (h.queued kv hw).mp hkv) h.evidenced_iff.mpr

theorem ownedAt_of_not_tracked (h : ¬ s.Tracked resolve w) : OwnedAt resolve s w where
  keyed kv hkv hw := absurd (Or.inl ⟨kv, hkv, hw⟩) h
  stored_once a ha _ _ haw _ := absurd (Or.inl ⟨a, ha, haw⟩) h
  leased_keyed kv hkv hw := absurd (Or.inr (Or.inl (List.mem_map.mpr ⟨kv, hkv, hw⟩))) h
  failed_keyed kv hkv hw := absurd (Or.inr (Or.inr (List.mem_map.mpr ⟨kv, hkv, hw⟩))) h
  stored_not_leased hst := absurd (Or.inl hst) h
  stored_not_queued hst := absurd (Or.inl hst) h
  leased_not_queued hl := absurd (Or.inr (Or.inl hl)) h
  evidenced ht := absurd ht h

theorem Owned.init : Owned resolve Machine.init where
  nodup := List.nodup_nil
  owned w := by
    apply ownedAt_of_not_tracked
    simp [Machine.Tracked, Machine.Stored, Machine.Leased, Machine.Queued, Machine.init, WorktreeReuseCache.init,
      Dict.keys]
  once := by simp [RemovedOnce, Machine.init]

/-! ## The tables under each change -/

/-- What a call must be given to clean an entry up: the cache knows of a completed removal of its
workspace, and stores the workspace only under the entry's own key and path. -/
structure Ready (resolve : Path → Path) (s : Machine) (entry : ReusableWorktreeCheckout) : Prop where
  evidenced : s.Evidenced (workspaceKey resolve entry)
  stored : ∀ cacheKey, entryCacheKey entry = .ok cacheKey → ∀ kv ∈ s.cache.entries,
    workspaceKey resolve kv.2 = workspaceKey resolve entry →
      kv.1 = cacheKey ∧ kv.2.workspacePath = entry.workspacePath

variable {entry : ReusableWorktreeCheckout} {cacheKey : CacheKey}

theorem Owned.ready_of_stored (h : Owned resolve s) {kv : CacheKey × ReusableWorktreeCheckout}
    (hkv : kv ∈ s.cache.entries) : Ready resolve s kv.2 where
  evidenced := (h.owned _).evidenced (Or.inl ⟨kv, hkv, rfl⟩)
  stored cacheKey hkey kv' hkv' heq := by
    obtain rfl := (h.owned (workspaceKey resolve kv.2)).stored_once kv' hkv' kv hkv heq rfl
    rw [(h.owned _).keyed kv' hkv' rfl] at hkey
    exact ⟨Except.ok.inj hkey, rfl⟩

theorem ready_of_not_stored (hevidenced : s.Evidenced (workspaceKey resolve entry))
    (hstored : ¬ s.Stored resolve (workspaceKey resolve entry)) : Ready resolve s entry where
  evidenced := hevidenced
  stored _ _ kv hkv heq := absurd ⟨kv, hkv, heq⟩ hstored

/-! ### Forgetting an entry -/

def Machine.forget (resolve : Path → Path) (s : Machine) (cacheKey : CacheKey) (entry : ReusableWorktreeCheckout) :
    Machine := { s with cache := s.cache.forget resolve cacheKey entry }

theorem mem_forget_entries (hready : Ready resolve s entry) (hkey : entryCacheKey entry = .ok cacheKey)
    (h : Owned resolve s) {kv : CacheKey × ReusableWorktreeCheckout} :
    kv ∈ (s.forget resolve cacheKey entry).cache.entries ↔
      kv ∈ s.cache.entries ∧ workspaceKey resolve kv.2 ≠ workspaceKey resolve entry := by
  have hown := hready.stored cacheKey hkey
  by_cases hcached : (s.cache.entries.get? cacheKey).any (fun cached => cached.workspacePath = entry.workspacePath) = true
  · obtain ⟨cached, hget, hpath⟩ := (Option.any_eq_true _ _).mp hcached
    have hentries : (s.forget resolve cacheKey entry).cache.entries = s.cache.entries.erase cacheKey := if_pos hcached
    rw [hentries, Dict.mem_erase, and_congr_right_iff]
    intro hkv
    apply not_congr
    constructor
    · intro hk
      have hval := Dict.get?_of_mem h.nodup (k := kv.1) (v := kv.2) hkv
      rw [hk, hget] at hval
      rw [← Option.some.inj hval, workspaceKey, workspaceKey, of_decide_eq_true hpath]
    · intro heq
      exact (hown kv hkv heq).1
  · have hentries : (s.forget resolve cacheKey entry).cache.entries = s.cache.entries := if_neg hcached
    rw [hentries, iff_self_and]
    intro hkv heq
    obtain ⟨hk, hpath⟩ := hown kv hkv heq
    apply hcached
    rw [← hk, Dict.get?_of_mem h.nodup (k := kv.1) (v := kv.2) hkv]
    simp [hpath]

theorem not_tracked_forget (hready : Ready resolve s entry) (hkey : entryCacheKey entry = .ok cacheKey)
    (h : Owned resolve s) : ¬ (s.forget resolve cacheKey entry).Tracked resolve (workspaceKey resolve entry) := by
  rintro (⟨kv, hkv, heq⟩ | hl | hq)
  · exact ((mem_forget_entries hready hkey h).mp hkv).2 heq
  · exact (Dict.mem_keys_erase.mp hl).2 rfl
  · exact (Dict.mem_keys_erase.mp hq).2 rfl

theorem untouched_forget (hready : Ready resolve s entry) (hkey : entryCacheKey entry = .ok cacheKey)
    (h : Owned resolve s) (hw : w ≠ workspaceKey resolve entry) :
    Untouched resolve w s (s.forget resolve cacheKey entry) where
  stored kv hkv := by
    rw [mem_forget_entries hready hkey h, hkv]
    exact and_iff_left hw
  leased kv hkv := Dict.mem_erase_of_ne (hkv ▸ hw)
  queued kv hkv := Dict.mem_erase_of_ne (hkv ▸ hw)
  paths := by
    simp [WorktreeReuseCache.statePaths, Machine.forget, WorktreeReuseCache.forget, Dict.getItem, Dict.get?_erase,
      hw.symm]
  removed := by simp [Machine.forget, WorktreeReuseCache.forget, hw]
  trace := List.prefix_rfl
  quiet := by simp [Machine.since, Machine.forget]

theorem owned_forget (hready : Ready resolve s entry) (hkey : entryCacheKey entry = .ok cacheKey)
    (h : Owned resolve s) : Owned resolve (s.forget resolve cacheKey entry) where
  nodup := by
    simp only [Machine.forget, WorktreeReuseCache.forget]
    split
    · exact Dict.nodup_keys_erase h.nodup cacheKey
    · exact h.nodup
  owned w := by
    by_cases hw : w = workspaceKey resolve entry
    · subst hw
      exact ownedAt_of_not_tracked (not_tracked_forget hready hkey h)
    · exact (untouched_forget hready hkey h hw).ownedAt (h.owned w)
  once := h.once

/-! ### Queueing an entry -/

def Machine.retain (resolve : Path → Path) (s : Machine) (entry : ReusableWorktreeCheckout) : Machine :=
  { s with cache := s.cache.retainFailedCleanupEntry resolve entry }

theorem untouched_retain (hw : w ≠ workspaceKey resolve entry) : Untouched resolve w s (s.retain resolve entry) where
  stored _ _ := Iff.rfl
  leased kv hkv := Dict.mem_erase_of_ne (hkv ▸ hw)
  queued kv hkv := Dict.mem_setItem_of_ne (hkv ▸ hw)
  paths := rfl
  removed := Iff.rfl
  trace := List.prefix_rfl
  quiet := by simp [Machine.since, Machine.retain]

theorem owned_retain (h : Owned resolve s) (hstored : ¬ s.Stored resolve (workspaceKey resolve entry))
    (hevidenced : s.Evidenced (workspaceKey resolve entry)) : Owned resolve (s.retain resolve entry) where
  nodup := h.nodup
  owned w := by
    by_cases hw : w = workspaceKey resolve entry
    · subst hw
      have hleased : ¬ (s.retain resolve entry).Leased (workspaceKey resolve entry) := fun hl =>
        (Dict.mem_keys_erase.mp hl).2 rfl
      exact {
        keyed := (h.owned _).keyed
        stored_once := (h.owned _).stored_once
        leased_keyed := fun kv hkv hk => absurd (List.mem_map.mpr ⟨kv, hkv, hk⟩) hleased
        failed_keyed := by
          intro kv hkv hk
          rcases Dict.mem_setItem hkv with rfl | hkv
          · rfl
          · exact (h.owned _).failed_keyed kv hkv hk
        stored_not_leased := fun hst => absurd hst hstored
        stored_not_queued := fun hst => absurd hst hstored
        leased_not_queued := fun hl => absurd hl hleased
        evidenced := fun _ => hevidenced }
    · exact (untouched_retain hw).ownedAt (h.owned w)
  once := h.once

/-! ### Recording a state path -/

def Machine.remember (s : Machine) (entryKey statePath : Path) : Machine :=
  { s with cache := s.cache.rememberStatePath entryKey statePath }

theorem statePaths_remember (entryKey statePath : Path) :
    (s.remember entryKey statePath).cache.statePaths w =
      if entryKey = w then (s.cache.statePaths entryKey).insert statePath else s.cache.statePaths w := by
  simp [WorktreeReuseCache.statePaths, Machine.remember, WorktreeReuseCache.rememberStatePath]

theorem ownedAt_remember {entryKey statePath : Path} (h : OwnedAt resolve s w) :
    OwnedAt resolve (s.remember entryKey statePath) w :=
  ⟨h.keyed, h.stored_once, h.leased_keyed, h.failed_keyed, h.stored_not_leased, h.stored_not_queued,
    h.leased_not_queued, h.evidenced⟩

theorem owned_remember {entryKey statePath : Path} (h : Owned resolve s) :
    Owned resolve (s.remember entryKey statePath) := ⟨h.nodup, fun w => ownedAt_remember (h.owned w), h.once⟩

/-! ### Taking an entry out -/

def Machine.pop (s : Machine) (cacheKey : CacheKey) : Machine :=
  { s with cache := { s.cache with entries := s.cache.entries.erase cacheKey } }

theorem not_tracked_pop (h : Owned resolve s) (hget : s.cache.entries.get? cacheKey = some entry) :
    ¬ (s.pop cacheKey).Tracked resolve (workspaceKey resolve entry) := by
  have hmem := Dict.mem_of_get? hget
  have hstored : s.Stored resolve (workspaceKey resolve entry) := ⟨_, hmem, rfl⟩
  have howned := h.owned (workspaceKey resolve entry)
  rintro (⟨kv, hkv, heq⟩ | hl | hq)
  · obtain ⟨hkv, hne⟩ := Dict.mem_erase.mp hkv
    apply hne
    rw [howned.stored_once kv hkv _ hmem heq rfl]
  · exact howned.stored_not_leased hstored hl
  · exact howned.stored_not_queued hstored hq

theorem untouched_pop (h : Owned resolve s) (hget : s.cache.entries.get? cacheKey = some entry)
    (hw : w ≠ workspaceKey resolve entry) : Untouched resolve w s (s.pop cacheKey) where
  stored kv hkv := by
    apply Dict.mem_erase.trans
    apply and_iff_left_of_imp
    intro hmem hk
    have hval := Dict.get?_of_mem h.nodup (k := kv.1) (v := kv.2) hmem
    rw [hk, hget] at hval
    exact hw (by rw [← hkv, Option.some.inj hval])
  leased _ _ := Iff.rfl
  queued _ _ := Iff.rfl
  paths := rfl
  removed := Iff.rfl
  trace := List.prefix_rfl
  quiet := by simp [Machine.since, Machine.pop]

theorem owned_pop (h : Owned resolve s) (hget : s.cache.entries.get? cacheKey = some entry) :
    Owned resolve (s.pop cacheKey) where
  nodup := Dict.nodup_keys_erase h.nodup cacheKey
  owned w := by
    by_cases hw : w = workspaceKey resolve entry
    · subst hw
      exact ownedAt_of_not_tracked (not_tracked_pop h hget)
    · exact (untouched_pop h hget hw).ownedAt (h.owned w)
  once := h.once

/-! ### Leasing an entry -/

def Machine.lease (resolve : Path → Path) (s : Machine) (entry : ReusableWorktreeCheckout) : Machine :=
  { s with cache := s.cache.lease resolve entry }

theorem untouched_lease (hw : w ≠ workspaceKey resolve entry) : Untouched resolve w s (s.lease resolve entry) where
  stored _ _ := Iff.rfl
  leased kv hkv := Dict.mem_setItem_of_ne (hkv ▸ hw)
  queued _ _ := Iff.rfl
  paths := by
    simp [WorktreeReuseCache.statePaths, Machine.lease, WorktreeReuseCache.lease, WorktreeReuseCache.rememberStatePath,
      hw.symm]
  removed := Iff.rfl
  trace := List.prefix_rfl
  quiet := by simp [Machine.since, Machine.lease]

theorem owned_lease (h : Owned resolve s) (hfree : ¬ s.Tracked resolve (workspaceKey resolve entry))
    (hevidenced : s.Evidenced (workspaceKey resolve entry)) : Owned resolve (s.lease resolve entry) where
  nodup := h.nodup
  owned w := by
    by_cases hw : w = workspaceKey resolve entry
    · subst hw
      exact {
        keyed := (h.owned _).keyed
        stored_once := (h.owned _).stored_once
        leased_keyed := by
          intro kv hkv hk
          rcases Dict.mem_setItem hkv with rfl | hkv
          · rfl
          · exact (h.owned _).leased_keyed kv hkv hk
        failed_keyed := (h.owned _).failed_keyed
        stored_not_leased := fun hst => absurd (Or.inl hst) hfree
        stored_not_queued := fun hst => absurd (Or.inl hst) hfree
        leased_not_queued := fun _ hq => hfree (Or.inr (Or.inr hq))
        evidenced := fun _ => hevidenced }
    · exact (untouched_lease hw).ownedAt (h.owned w)
  once := h.once

/-! ### Storing an entry -/

def Machine.put (resolve : Path → Path) (s : Machine) (cacheKey : CacheKey) (entry : ReusableWorktreeCheckout) :
    Machine := { s with cache := s.cache.put resolve cacheKey entry }

theorem put_cache (resolve : Path → Path) (s : Machine) (cacheKey : CacheKey) (entry : ReusableWorktreeCheckout) :
    (s.put resolve cacheKey entry).cache.entries = s.cache.entries.setItem cacheKey entry ∧
    (s.put resolve cacheKey entry).cache.leasedEntries = s.cache.leasedEntries.erase (workspaceKey resolve entry) ∧
    (s.put resolve cacheKey entry).cache.failedCleanupEntries = s.cache.failedCleanupEntries ∧
    (s.put resolve cacheKey entry).cache.physicallyRemovedWorkspaces = s.cache.physicallyRemovedWorkspaces := by
  simp only [Machine.put, WorktreeReuseCache.put]
  split <;> simp [WorktreeReuseCache.rememberStatePath]

theorem statePaths_put (hw : w ≠ workspaceKey resolve entry) :
    (s.put resolve cacheKey entry).cache.statePaths w = s.cache.statePaths w := by
  simp only [Machine.put, WorktreeReuseCache.put]
  split <;> simp [WorktreeReuseCache.statePaths, WorktreeReuseCache.rememberStatePath, hw.symm]

/-- The entries of a stored workspace after `put`: the entry itself and those under other keys. -/
theorem mem_put_entries (h : Owned resolve s) {kv : CacheKey × ReusableWorktreeCheckout} :
    kv ∈ (s.put resolve cacheKey entry).cache.entries ↔
      kv = (cacheKey, entry) ∨ kv ∈ s.cache.entries ∧ kv.1 ≠ cacheKey := by
  rw [(put_cache resolve s cacheKey entry).1]
  exact Dict.mem_setItem_iff h.nodup

theorem evidenced_put : (s.put resolve cacheKey entry).Evidenced w ↔ s.Evidenced w := by
  rw [Machine.Evidenced, (put_cache resolve s cacheKey entry).2.2.2]
  rfl

theorem owned_put (h : Owned resolve s) (hready : Ready resolve s entry) (hkey : entryCacheKey entry = .ok cacheKey)
    (hqueued : ¬ s.Queued (workspaceKey resolve entry)) : Owned resolve (s.put resolve cacheKey entry) where
  nodup := by
    rw [(put_cache resolve s cacheKey entry).1]
    exact Dict.nodup_keys_setItem h.nodup cacheKey entry
  owned w := by
    by_cases hw : w = workspaceKey resolve entry
    · subst hw
      have hone : ∀ kv ∈ (s.put resolve cacheKey entry).cache.entries,
          workspaceKey resolve kv.2 = workspaceKey resolve entry → kv = (cacheKey, entry) := by
        intro kv hkv heq
        rcases (mem_put_entries h).mp hkv with rfl | ⟨hkv, hne⟩
        · rfl
        · exact absurd (hready.stored cacheKey hkey kv hkv heq).1 hne
      have hleased : ¬ (s.put resolve cacheKey entry).Leased (workspaceKey resolve entry) := by
        rw [Machine.Leased, (put_cache resolve s cacheKey entry).2.1]
        exact fun hl => (Dict.mem_keys_erase.mp hl).2 rfl
      have hqueue : ¬ (s.put resolve cacheKey entry).Queued (workspaceKey resolve entry) := by
        rw [Machine.Queued, (put_cache resolve s cacheKey entry).2.2.1]
        exact hqueued
      exact {
        keyed := by
          intro kv hkv heq
          rw [hone kv hkv heq]
          exact hkey
        stored_once := fun a ha b hb haw hbw => (hone a ha haw).trans (hone b hb hbw).symm
        leased_keyed := fun kv hkv hk => absurd (List.mem_map.mpr ⟨kv, hkv, hk⟩) hleased
        failed_keyed := fun kv hkv hk => absurd (List.mem_map.mpr ⟨kv, hkv, hk⟩) hqueue
        stored_not_leased := fun _ => hleased
        stored_not_queued := fun _ => hqueue
        leased_not_queued := fun _ => hqueue
        evidenced := fun _ => evidenced_put.mpr hready.evidenced }
    · obtain ⟨-, hleased, hfailed, -⟩ := put_cache resolve s cacheKey entry
      apply (h.owned w).shrink
      · intro kv hkv heq
        rcases (mem_put_entries h).mp hkv with rfl | hkv
        · exact absurd heq.symm hw
        · exact hkv.1
      · intro kv hkv _
        rw [hleased] at hkv
        exact (Dict.mem_erase.mp hkv).1
      · intro kv hkv _
        rwa [hfailed] at hkv
      · exact evidenced_put.mpr
  once := h.once

/-- The entry that `put` replaces by another workspace is out of the tables. -/
theorem not_stored_put (h : Owned resolve s) (hready : Ready resolve s entry)
    (hkey : entryCacheKey entry = .ok cacheKey) {previous : ReusableWorktreeCheckout}
    (hget : s.cache.entries.get? cacheKey = some previous)
    (hpath : previous.workspacePath ≠ entry.workspacePath) :
    ¬ (s.put resolve cacheKey entry).Stored resolve (workspaceKey resolve previous) := by
  have hmem := Dict.mem_of_get? hget
  rintro ⟨kv, hkv, heq⟩
  rcases (mem_put_entries h).mp hkv with rfl | ⟨hkv, hne⟩
  · exact hpath (hready.stored cacheKey hkey _ hmem heq.symm).2
  · rw [(h.owned _).stored_once kv hkv _ hmem heq rfl] at hne
    exact hne rfl

/-! ### Discarding a workspace -/

def Machine.discard (resolve : Path → Path) (s : Machine) (resolved : Path) : Machine :=
  { s with cache := s.cache.discard resolve resolved }

theorem owned_discard {resolved : Path} (h : Owned resolve s) : Owned resolve (s.discard resolve resolved) where
  nodup := h.nodup.sublist (List.Sublist.map Prod.fst List.filter_sublist)
  owned w := by
    by_cases hw : w = resolved
    · subst hw
      apply ownedAt_of_not_tracked
      rintro (⟨kv, hkv, heq⟩ | hl | hq)
      · have hne := (List.mem_filter.mp hkv).2
        exact of_decide_eq_true hne heq
      · exact (Dict.mem_keys_erase.mp hl).2 rfl
      · exact (Dict.mem_keys_erase.mp hq).2 rfl
    · apply (h.owned w).shrink
      · exact fun kv hkv _ => (List.mem_filter.mp hkv).1
      · exact fun kv hkv _ => (Dict.mem_erase.mp hkv).1
      · exact fun kv hkv _ => (Dict.mem_erase.mp hkv).1
      · intro hevidenced hremoved
        have hmem := hevidenced hremoved
        simp [Machine.discard, WorktreeReuseCache.discard, hmem, hw]
  once := h.once

end Crewplane.Workspace
