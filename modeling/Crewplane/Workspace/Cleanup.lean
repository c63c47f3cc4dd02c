import Crewplane.Workspace.Ownership
/-
# Clean-up of entries

The contracts of the clean-up of one entry and of a loop over entries. Until the entry is forgotten
or retained a clean-up changes no table but the completed removals (`Cleaning`); it raises only
where the outside fails it (`CleansUp`); and what it returns as done has marked every state path
recorded for the workspace.
-/
namespace Crewplane.Workspace

open Crewplane.Lib

/-- The tables are those of `s`, and only the workspace `w` was removed. -/
structure Cleaning (w : Path) (s s' : Machine) : Prop where
  tables : s'.cache = { s.cache with physicallyRemovedWorkspaces := s'.cache.physicallyRemovedWorkspaces }
  others : ∀ w' ≠ w, w' ∈ s'.cache.physicallyRemovedWorkspaces ↔ w' ∈ s.cache.physicallyRemovedWorkspaces
  trace : s.trace <+: s'.trace
  events : ∀ x ∈ s.since s', x = .attempted w ∨ x = .removed w ∨ ∃ p, x = .marked p
  evidenced : s'.Evidenced w
  once : RemovedOnce s'.trace

section Conditions

variable (resolve : Path → Path) (world : World)

/-- The outside lets the removal of an entry's workspace succeed. -/
def RemovalAnswers (s : Machine) (entry : ReusableWorktreeCheckout) : Prop :=
  if workspaceKey resolve entry ∈ s.cache.physicallyRemovedWorkspaces then
    world.absentBefore entry.workspacePath = .ok true
  else
    world.absentBefore entry.workspacePath = .ok false ∧ world.removal entry.workspacePath = .ok () ∧
      world.absentAfter entry.workspacePath = .ok true

/-- The outside lets the clean-up of an entry succeed. -/
def CleansUp (s : Machine) (entry : ReusableWorktreeCheckout) : Prop :=
  RemovalAnswers resolve world s entry ∧
    ∀ p ∈ s.cache.statePathsForEntry resolve entry, world.update (workspaceKey resolve entry) p = .ok ()

end Conditions

variable {resolve : Path → Path} {world : World} {s s' s₁ s₂ : Machine} {w : Path}
  {entry : ReusableWorktreeCheckout}

/-! ## Removing and marking -/

theorem Cleaning.refl (hevidenced : s.Evidenced w) (honce : RemovedOnce s.trace) : Cleaning w s s where
  tables := rfl
  others _ _ := Iff.rfl
  trace := List.prefix_rfl
  events := by simp [Machine.since]
  evidenced := hevidenced
  once := honce

theorem since_emit (h : s.trace <+: s'.trace) (event : Event) {x : Event} :
    x ∈ s.since { s' with trace := s'.trace ++ [event] } ↔ x ∈ s.since s' ∨ x = event := by
  obtain ⟨t, ht⟩ := h
  simp [Machine.since, ← ht]

/-- Attempting a removal that is not known to be completed. -/
theorem Cleaning.attempted (h : Cleaning w s s') (hnew : w ∉ s'.cache.physicallyRemovedWorkspaces) :
    Cleaning w s { s' with trace := s'.trace ++ [.attempted w] } where
  tables := h.tables
  others := h.others
  trace := h.trace.trans (List.prefix_append _ _)
  events x hx := by
    rcases (since_emit h.trace _).mp hx with hx | hx
    · exact h.events x hx
    · exact Or.inl hx
  evidenced hmem := by
    rcases List.mem_append.mp hmem with hmem | hmem
    · exact h.evidenced hmem
    · simp at hmem
  once := by
    apply h.once.append
    intro w' hw' hmem
    obtain rfl := Event.attempted.inj hw'
    exact hnew (h.evidenced hmem)

theorem Cleaning.removed (h : Cleaning w s s') :
    Cleaning w s {
      cache := { s'.cache with physicallyRemovedWorkspaces := s'.cache.physicallyRemovedWorkspaces.insert w }
      trace := s'.trace ++ [.removed w] } where
  tables := by
    rw [h.tables]
  others w' hw' := by
    simp only [List.mem_insert_iff]
    rw [h.others w' hw']
    exact or_iff_right hw'
  trace := h.trace.trans (List.prefix_append _ _)
  events x hx := by
    have hmem : x ∈ s.since { s' with trace := s'.trace ++ [.removed w] } := hx
    rcases (since_emit h.trace _).mp hmem with hx | hx
    · exact h.events x hx
    · exact Or.inr (Or.inl hx)
  evidenced _ := List.mem_insert_self
  once := by
    apply h.once.append
    simp

theorem Cleaning.marked (h : Cleaning w s s') (p : Path) :
    Cleaning w s { s' with trace := s'.trace ++ [.marked p] } where
  tables := h.tables
  others := h.others
  trace := h.trace.trans (List.prefix_append _ _)
  events x hx := by
    rcases (since_emit h.trace _).mp hx with hx | hx
    · exact h.events x hx
    · exact Or.inr (Or.inr ⟨p, hx⟩)
  evidenced hmem := by
    rcases List.mem_append.mp hmem with hmem | hmem
    · exact h.evidenced hmem
    · simp at hmem
  once := by
    apply h.once.append
    simp

theorem requireAbsent_spec {absent : Except Failure Bool} {expected : Bool} {message : Failure}
    {P : Machine → Prop} :
    Spec P (requireAbsent absent expected message) (fun _ s => P s ∧ absent = .ok expected)
      (fun _ s => P s ∧ absent ≠ .ok expected) := by
  apply Spec.bind (Q := fun seen s => P s ∧ absent = .ok seen)
  · exact Spec.outside absent (fun a ha s hs => ⟨hs, ha⟩) (fun e he s hs => ⟨hs, by simp [he]⟩)
  · intro seen
    apply Spec.cond
    · rintro rfl
      exact Spec.ret () (fun _ hs => hs)
    · intro hne
      exact Spec.raise message (fun _ hs => ⟨hs.1, by simp [hs.2, hne]⟩)

theorem removeEntryWorkspace_spec (hevidenced : s.Evidenced (workspaceKey resolve entry))
    (honce : RemovedOnce s.trace) :
    Spec (· = s) (removeEntryWorkspace resolve world entry)
      (fun _ => Cleaning (workspaceKey resolve entry) s)
      (fun _ s' => Cleaning (workspaceKey resolve entry) s s' ∧ ¬ RemovalAnswers resolve world s entry) := by
  have hstart := Cleaning.refl hevidenced honce
  apply Spec.read
  apply Spec.cond
  · intro hmem
    apply requireAbsent_spec.conseq (fun _ h => h)
    · rintro _ s' ⟨rfl, _⟩
      exact hstart
    · rintro _ s' ⟨rfl, hne⟩
      exact ⟨hstart, by rwa [RemovalAnswers, if_pos hmem]⟩
  · intro hmem
    -- What the failure of a look or of the removal contradicts.
    have hfail : ¬ (world.absentBefore entry.workspacePath = .ok false ∧ world.removal entry.workspacePath = .ok () ∧
        world.absentAfter entry.workspacePath = .ok true) → ¬ RemovalAnswers resolve world s entry := by
      intro hnot
      rwa [RemovalAnswers, if_neg hmem]
    apply Spec.bind (Q := fun _ s' => s' = s ∧ world.absentBefore entry.workspacePath = .ok false)
    · apply requireAbsent_spec.conseq (fun _ h => h) (fun _ _ h => h)
      rintro _ s' ⟨rfl, hne⟩
      exact ⟨hstart, hfail fun h => hne h.1⟩
    intro _
    apply Spec.bind (Q := fun _ => Cleaning (workspaceKey resolve entry) s)
    · apply Spec.modify
      rintro _ ⟨rfl, _⟩
      exact hstart.attempted hmem
    intro _
    apply Spec.bind (Q := fun _ => Cleaning (workspaceKey resolve entry) s)
    · apply Spec.outside
      · exact fun _ _ _ hc => hc
      · exact fun e he _ hc => ⟨hc, hfail fun h => by simp [h.2.1] at he⟩
    intro _
    apply Spec.bind (Q := fun _ => Cleaning (workspaceKey resolve entry) s)
    · apply requireAbsent_spec.conseq (fun _ h => h)
      · exact fun _ _ h => h.1
      · exact fun _ _ h => ⟨h.1, hfail fun hr => h.2 hr.2.2⟩
    intro _
    apply Spec.bind (Q := fun _ s' => ∃ s₁, Cleaning (workspaceKey resolve entry) s s₁ ∧
      s' = { s₁ with trace := s₁.trace ++ [.removed (workspaceKey resolve entry)] })
    · exact Spec.modify _ fun s₁ h => ⟨s₁, h, rfl⟩
    intro _
    apply Spec.modify
    rintro _ ⟨s₁, h, rfl⟩
    exact h.removed

theorem mem_sortedUniquePaths {paths : List Path} {p : Path} : p ∈ sortedUniquePaths paths ↔ p ∈ paths := by
  simp [sortedUniquePaths]

theorem markDeleted_spec {p : Path} {P : Machine → Prop} :
    Spec P (markDeleted world w p) (fun _ s' => ∃ s₁, P s₁ ∧ s' = { s₁ with trace := s₁.trace ++ [.marked p] })
      (fun _ s' => P s' ∧ world.update w p ≠ .ok ()) := by
  apply Spec.bind (Q := fun _ => P)
  · apply Spec.outside
    · exact fun _ _ _ h => h
    · exact fun e he _ h => ⟨h, by simp [he]⟩
  · exact fun _ => Spec.modify _ fun s₁ h => ⟨s₁, h, rfl⟩

/-- The invariant of the loop over the state paths: what is not still to come is marked. -/
def Marking (w : Path) (s : Machine) (paths rest : List Path) (s' : Machine) : Prop :=
  Cleaning w s s' ∧ (∀ p ∈ rest, p ∈ paths) ∧ ∀ p ∈ paths, p ∈ rest ∨ .marked p ∈ s.since s'

theorem updateDeletedStatePaths_spec {paths : List Path} :
    Spec (Cleaning w s) (updateDeletedStatePaths world w paths)
      (fun _ s' => Cleaning w s s' ∧ ∀ p ∈ paths, .marked p ∈ s.since s')
      (fun _ s' => Cleaning w s s' ∧ ¬ ∀ p ∈ paths, world.update w p = .ok ()) := by
  apply Spec.bind (Q := fun _ s' => Cleaning w s s' ∧ ∀ p ∈ paths, .marked p ∈ s.since s')
  · have hround : ∀ p rest (_ : List Unit), Spec (Marking w s paths (p :: rest)) (markDeleted world w p)
        (fun _ => Marking w s paths rest)
        (fun _ s' => Cleaning w s s' ∧ ¬ ∀ p ∈ paths, world.update w p = .ok ()) := by
      intro p rest _
      apply markDeleted_spec.conseq (fun _ h => h)
      · rintro _ _ ⟨s₁, ⟨hc, hrest, hmarked⟩, rfl⟩
        refine ⟨hc.marked p, fun q hq => hrest q (List.mem_cons_of_mem p hq), ?_⟩
        intro q hq
        rcases hmarked q hq with hq | hq
        · rcases List.mem_cons.mp hq with rfl | hq
          · exact Or.inr ((since_emit hc.trace _).mpr (Or.inr rfl))
          · exact Or.inl hq
        · exact Or.inr ((since_emit hc.trace _).mpr (Or.inl hq))
      · rintro _ s' ⟨⟨hc, hrest, _⟩, hne⟩
        exact ⟨hc, fun h => hne (h p (hrest p List.mem_cons_self))⟩
    apply (Spec.each (I := fun rest _ => Marking w s paths rest) hround []).conseq
    · intro s' hc
      exact ⟨hc, fun p hp => mem_sortedUniquePaths.mp hp, fun p hp => Or.inl (mem_sortedUniquePaths.mpr hp)⟩
    · rintro _ s' ⟨hc, _, hmarked⟩
      exact ⟨hc, fun p hp => (hmarked p hp).resolve_left (by simp)⟩
    · exact fun _ _ h => h
  · exact fun _ => Spec.ret _ fun _ h => h

theorem removeAndMark_spec (hevidenced : s.Evidenced (workspaceKey resolve entry)) (honce : RemovedOnce s.trace) :
    Spec (· = s) (removeAndMark resolve world entry (s.cache.statePathsForEntry resolve entry))
      (fun _ s' => Cleaning (workspaceKey resolve entry) s s' ∧
        ∀ p ∈ s.cache.statePathsForEntry resolve entry, .marked p ∈ s.since s')
      (fun _ s' => Cleaning (workspaceKey resolve entry) s s' ∧ ¬ CleansUp resolve world s entry) := by
  apply Spec.bind (Q := fun _ => Cleaning (workspaceKey resolve entry) s)
  · apply (removeEntryWorkspace_spec hevidenced honce).conseq (fun _ h => h) (fun _ _ h => h)
    rintro _ s' ⟨hc, hnot⟩
    exact ⟨hc, fun h => hnot h.1⟩
  · intro _
    apply updateDeletedStatePaths_spec.conseq (fun _ h => h) (fun _ _ h => h)
    rintro _ s' ⟨hc, hnot⟩
    exact ⟨hc, fun h => hnot h.2⟩

/-! ## One entry -/

theorem Cleaning.untouched (h : Cleaning w s s') {w' : Path} (hw : w' ≠ w) : Untouched resolve w' s s' where
  stored _ _ := by rw [h.tables]
  leased _ _ := by rw [h.tables]
  queued _ _ := by rw [h.tables]
  paths := by
    rw [h.tables]
    rfl
  removed := h.others w' hw
  trace := h.trace
  quiet := by
    refine ⟨fun hx => ?_, fun hx => ?_, fun hx => ?_⟩
    all_goals have hx := h.events _ hx
    all_goals simp [hw] at hx

theorem Cleaning.owned (h : Cleaning w s s') (hs : Owned resolve s) : Owned resolve s' where
  nodup := by
    rw [h.tables]
    exact hs.nodup
  owned w' := by
    by_cases hw : w' = w
    · subst hw
      apply (hs.owned w').shrink
      · exact fun kv hkv _ => by rwa [h.tables] at hkv
      · exact fun kv hkv _ => by rwa [h.tables] at hkv
      · exact fun kv hkv _ => by rwa [h.tables] at hkv
      · exact fun _ => h.evidenced
    · exact (h.untouched hw).ownedAt (hs.owned w')
  once := h.once

theorem Cleaning.ready (h : Cleaning (workspaceKey resolve entry) s s') (hready : Ready resolve s entry) :
    Ready resolve s' entry where
  evidenced := h.evidenced
  stored cacheKey hkey kv hkv := by
    rw [h.tables] at hkv
    exact hready.stored cacheKey hkey kv hkv

/-- What the clean-up of an entry does, whether it succeeds or not. -/
structure Handled (resolve : Path → Path) (entry : ReusableWorktreeCheckout) (s s' : Machine) : Prop where
  owned : Owned resolve s'
  others : ∀ w ≠ workspaceKey resolve entry, Untouched resolve w s s'
  entries : ∀ kv ∈ s'.cache.entries, kv ∈ s.cache.entries
  trace : s.trace <+: s'.trace
  reports : .reported (workspaceKey resolve entry) ∈ s.since s' →
    ∀ p ∈ s.cache.statePathsForEntry resolve entry, .marked p ∈ s.since s'

theorem forgetEntry_spec :
    Spec (· = s) (forgetEntry resolve entry)
      (fun _ s' => ∃ cacheKey, entryCacheKey entry = .ok cacheKey ∧ s' = s.forget resolve cacheKey entry)
      (fun _ s' => s' = s ∧ ∀ cacheKey, entryCacheKey entry ≠ .ok cacheKey) := by
  apply Spec.bind (Q := fun cacheKey s' => entryCacheKey entry = .ok cacheKey ∧ s' = s)
  · apply Spec.outside
    · exact fun _ hkey _ h => ⟨hkey, h⟩
    · exact fun e he _ h => ⟨h, by simp [he]⟩
  · intro cacheKey
    apply Spec.modify
    rintro _ ⟨hkey, rfl⟩
    exact ⟨cacheKey, hkey, rfl⟩

theorem handled_forget {cacheKey : CacheKey} (hs : Owned resolve s) (hready : Ready resolve s entry)
    (hkey : entryCacheKey entry = .ok cacheKey) (hc : Cleaning (workspaceKey resolve entry) s s₁) :
    Handled resolve entry s (s₁.forget resolve cacheKey entry) where
  owned := owned_forget (hc.ready hready) hkey (hc.owned hs)
  others w hw := (hc.untouched hw).trans (untouched_forget (hc.ready hready) hkey (hc.owned hs) hw)
  entries kv hkv := by
    have hmem := ((mem_forget_entries (hc.ready hready) hkey (hc.owned hs)).mp hkv).1
    rwa [hc.tables] at hmem
  trace := hc.trace
  reports hrep := by
    have hx := hc.events _ hrep
    simp at hx

theorem handled_retain (hs : Owned resolve s) (hstored : ¬ s.Stored resolve (workspaceKey resolve entry))
    (hc : Cleaning (workspaceKey resolve entry) s s₁) : Handled resolve entry s (s₁.retain resolve entry) where
  owned := by
    apply owned_retain (hc.owned hs) _ hc.evidenced
    rwa [Machine.Stored, hc.tables]
  others w hw := (hc.untouched hw).trans (untouched_retain hw)
  entries kv hkv := by
    have hmem : kv ∈ s₁.cache.entries := hkv
    rwa [hc.tables] at hmem
  trace := hc.trace
  reports hrep := by
    have hx := hc.events _ hrep
    simp at hx

def Machine.emit (s : Machine) (event : Event) : Machine := { s with trace := s.trace ++ [event] }

theorem handled_reported (h : Handled resolve entry s s')
    (hmarked : ∀ p ∈ s.cache.statePathsForEntry resolve entry, .marked p ∈ s.since s') :
    Handled resolve entry s (s'.emit (.reported (workspaceKey resolve entry))) where
  owned := {
    nodup := h.owned.nodup
    owned := by
      intro w
      refine (h.owned.owned w).shrink (fun _ hkv _ => hkv) (fun _ hkv _ => hkv) (fun _ hkv _ => hkv) ?_
      intro hevidenced hmem
      apply hevidenced
      simpa [Machine.emit] using hmem
    once := by
      apply h.owned.once.append
      simp }
  others w hw := {
    stored := (h.others w hw).stored
    leased := (h.others w hw).leased
    queued := (h.others w hw).queued
    paths := (h.others w hw).paths
    removed := (h.others w hw).removed
    trace := h.trace.trans (List.prefix_append _ _)
    quiet := by
      have hquiet := (h.others w hw).quiet
      simp only [Machine.emit, since_emit h.trace]
      simpa [hw] using hquiet }
  entries := h.entries
  trace := h.trace.trans (List.prefix_append _ _)
  reports _ p hp := (since_emit h.trace _).mpr (Or.inl (hmarked p hp))

/-- A clean-up that raises has only removed and marked, and its entry has no cache key or the outside failed it. -/
structure CleanupRaised (resolve : Path → Path) (world : World) (entry : ReusableWorktreeCheckout) (s s' : Machine) :
    Prop where
  cleaning : Cleaning (workspaceKey resolve entry) s s'
  failed : ∀ cacheKey, entryCacheKey entry = .ok cacheKey →
    entry.cleanupOnSuccess = true ∧ ¬ CleansUp resolve world s entry

theorem cleanupEntry_spec (hs : Owned resolve s) (hready : Ready resolve s entry) :
    Spec (· = s) (cleanupEntry resolve world entry) (fun _ => Handled resolve entry s)
      (fun _ => CleanupRaised resolve world entry s) := by
  have hstart := Cleaning.refl hready.evidenced hs.once
  apply Spec.read
  apply Spec.cond
  · intro hclean
    apply Spec.bind (Q := fun _ s' => Cleaning (workspaceKey resolve entry) s s' ∧
      ∀ p ∈ s.cache.statePathsForEntry resolve entry, .marked p ∈ s.since s')
    · apply (removeAndMark_spec hready.evidenced hs.once).conseq (fun _ h => h) (fun _ _ h => h)
      exact fun _ s' h => ⟨h.1, fun _ _ => ⟨hclean, h.2⟩⟩
    intro updated
    apply Spec.bind (Q := fun _ s' => Handled resolve entry s s' ∧
      ∀ p ∈ s.cache.statePathsForEntry resolve entry, .marked p ∈ s.since s')
    · apply Spec.pointwise
      rintro s₁ ⟨hc, hmarked⟩
      apply forgetEntry_spec.conseq (fun _ h => h)
      · rintro _ _ ⟨cacheKey, hkey, rfl⟩
        exact ⟨handled_forget hs hready hkey hc, hmarked⟩
      · rintro _ _ ⟨rfl, hnone⟩
        exact ⟨hc, fun cacheKey hkey => absurd hkey (hnone cacheKey)⟩
    intro _
    apply Spec.bind (Q := fun _ => Handled resolve entry s)
    · exact Spec.modify _ fun s' h => handled_reported h.1 h.2
    · exact fun _ => Spec.ret _ fun _ h => h
  · intro _
    apply Spec.bind (Q := fun _ => Handled resolve entry s)
    · apply forgetEntry_spec.conseq (fun _ h => h)
      · rintro _ _ ⟨cacheKey, hkey, rfl⟩
        exact handled_forget hs hready hkey hstart
      · rintro _ _ ⟨rfl, hnone⟩
        exact ⟨hstart, fun cacheKey hkey => absurd hkey (hnone cacheKey)⟩
    · exact fun _ => Spec.ret _ fun _ h => h

/-- The clean-up of a stored entry may not fail: its workspace would be queued and stay stored. -/
def Cleanable (resolve : Path → Path) (world : World) (s : Machine) (entry : ReusableWorktreeCheckout) : Prop :=
  s.Stored resolve (workspaceKey resolve entry) → (∃ cacheKey, entryCacheKey entry = .ok cacheKey) ∧
    (entry.cleanupOnSuccess = true → CleansUp resolve world s entry)

theorem cleanupRetaining_spec (hs : Owned resolve s) (hready : Ready resolve s entry)
    (hclean : Cleanable resolve world s entry) :
    Spec (· = s) (cleanupRetaining resolve world entry) (fun _ => Handled resolve entry s) (fun _ _ => False) := by
  apply Spec.rescue (F := fun _ => CleanupRaised resolve world entry s)
  · apply Spec.bind (cleanupEntry_spec hs hready)
    exact fun _ => Spec.ret _ fun _ h => h
  · intro failure
    apply Spec.bind (Q := fun _ => Handled resolve entry s)
    · apply Spec.modify
      intro s₁ hraised
      apply handled_retain hs _ hraised.cleaning
      intro hstored
      obtain ⟨⟨cacheKey, hkey⟩, hcleans⟩ := hclean hstored
      obtain ⟨hon, hnot⟩ := hraised.failed cacheKey hkey
      exact hnot (hcleans hon)
    · exact fun _ => Spec.ret _ fun _ h => h

theorem handled_pending (paths : List Path) (h : Handled resolve entry s s') :
    Handled resolve entry s { s' with cache := s'.cache.rememberPendingUpdatedStatePaths paths } where
  owned := {
    nodup := h.owned.nodup
    owned := fun w => (h.owned.owned w).shrink (fun _ hkv _ => hkv) (fun _ hkv _ => hkv) (fun _ hkv _ => hkv) id
    once := h.owned.once }
  others w hw := ⟨(h.others w hw).stored, (h.others w hw).leased, (h.others w hw).queued, (h.others w hw).paths,
    (h.others w hw).removed, h.trace, (h.others w hw).quiet⟩
  entries := h.entries
  trace := h.trace
  reports := h.reports

theorem cleanupEntryBestEffort_spec (hs : Owned resolve s) (hready : Ready resolve s entry)
    (hclean : Cleanable resolve world s entry) :
    Spec (· = s) (cleanupEntryBestEffort resolve world entry) (fun _ => Handled resolve entry s)
      (fun _ _ => False) := by
  apply Spec.bind (cleanupRetaining_spec hs hready hclean)
  rintro (failure | updated)
  · exact Spec.ret _ fun _ h => h
  · apply Spec.bind (Q := fun _ => Handled resolve entry s)
    · exact Spec.modify _ fun s' h => handled_pending updated h
    · exact fun _ => Spec.ret _ fun _ h => h

/-! ## A loop over entries of different workspaces -/

/-- What a loop of clean-ups does; `entries` are those it has been through. -/
structure HandledAll (resolve : Path → Path) (entries : List ReusableWorktreeCheckout) (s s' : Machine) : Prop where
  owned : Owned resolve s'
  others : ∀ w ∉ entries.map (workspaceKey resolve), Untouched resolve w s s'
  entries : ∀ kv ∈ s'.cache.entries, kv ∈ s.cache.entries
  trace : s.trace <+: s'.trace
  reports : ∀ w, .reported w ∈ s.since s' → ∀ p ∈ s.cache.statePaths w, .marked p ∈ s.since s'

theorem HandledAll.refl (h : Owned resolve s) : HandledAll resolve [] s s where
  owned := h
  others w _ := Untouched.refl s w
  entries _ h := h
  trace := List.prefix_rfl
  reports w h := by simp [Machine.since] at h

theorem HandledAll.round {done : List ReusableWorktreeCheckout} (h : HandledAll resolve done s s₁)
    (hnew : workspaceKey resolve entry ∉ done.map (workspaceKey resolve)) (hstep : Handled resolve entry s₁ s') :
    HandledAll resolve (done ++ [entry]) s s' where
  owned := hstep.owned
  others w hw := by
    simp only [List.map_append, List.map_cons, List.map_nil, List.mem_append, List.mem_singleton, not_or] at hw
    exact (h.others w hw.1).trans (hstep.others w hw.2)
  entries kv hkv := h.entries kv (hstep.entries kv hkv)
  trace := h.trace.trans hstep.trace
  reports w hrep p hp := by
    rw [Machine.mem_since_trans h.trace hstep.trace] at hrep ⊢
    by_cases hw : w = workspaceKey resolve entry
    · subst hw
      -- The rounds before left the workspace alone, so the report is this round's.
      have hbefore := h.others _ hnew
      rw [or_iff_right hbefore.quiet.2.2] at hrep
      have hmem : p ∈ s₁.cache.statePathsForEntry resolve entry := by
        rw [WorktreeReuseCache.statePathsForEntry, hbefore.paths]
        exact List.mem_insert_of_mem hp
      exact Or.inr (hstep.reports hrep p hmem)
    · rw [or_iff_left (hstep.others w hw).quiet.2.2] at hrep
      exact Or.inl (h.reports w hrep p hp)

theorem Untouched.ready (h : Untouched resolve (workspaceKey resolve entry) s s') (hready : Ready resolve s entry) :
    Ready resolve s' entry where
  evidenced := h.evidenced_iff.mpr hready.evidenced
  stored cacheKey hkey kv hkv hw := hready.stored cacheKey hkey kv ((h.stored kv hw).mp hkv) hw

theorem Untouched.cleanable (h : Untouched resolve (workspaceKey resolve entry) s s')
    (hclean : Cleanable resolve world s entry) : Cleanable resolve world s' entry := by
  intro hstored
  obtain ⟨hkey, hcleans⟩ := hclean (h.stored_iff.mp hstored)
  refine ⟨hkey, fun hon => ?_⟩
  have hs := hcleans hon
  rw [CleansUp, RemovalAnswers, WorktreeReuseCache.statePathsForEntry] at hs ⊢
  rwa [h.paths, if_congr h.removed rfl rfl]

theorem handledAll_spec {α : Type} {cleanup : ReusableWorktreeCheckout → Act α} {entries : List ReusableWorktreeCheckout}
    (hcleanup : ∀ s entry, Owned resolve s → Ready resolve s entry → Cleanable resolve world s entry →
      Spec (· = s) (cleanup entry) (fun _ => Handled resolve entry s) (fun _ _ => False))
    (hs : Owned resolve s) (hnodup : (entries.map (workspaceKey resolve)).Nodup)
    (hready : ∀ entry ∈ entries, Ready resolve s entry)
    (hclean : ∀ entry ∈ entries, Cleanable resolve world s entry) :
    Spec (· = s) (entries.mapM cleanup) (fun _ => HandledAll resolve entries s) (fun _ _ => False) := by
  have hround : ∀ entry rest (_ : List α),
      Spec (fun s' => ∃ done, entries = done ++ entry :: rest ∧ HandledAll resolve done s s') (cleanup entry)
        (fun _ s' => ∃ done, entries = done ++ rest ∧ HandledAll resolve done s s') (fun _ _ => False) := by
    intro entry rest _
    apply Spec.pointwise
    rintro s₁ ⟨done, rfl, hdone⟩
    have hnew : workspaceKey resolve entry ∉ done.map (workspaceKey resolve) := by
      rw [List.map_append, List.map_cons] at hnodup
      intro hmem
      exact List.disjoint_of_nodup_append hnodup hmem List.mem_cons_self
    have hfrom := hdone.others _ hnew
    have hmem : entry ∈ done ++ entry :: rest := by simp
    apply (hcleanup s₁ entry hdone.owned (hfrom.ready (hready entry hmem))
      (hfrom.cleanable (hclean entry hmem))).conseq (fun _ h => h) _ (fun _ _ h => h)
    exact fun _ s' hstep => ⟨done ++ [entry], by simp, hdone.round hnew hstep⟩
  apply (Spec.each (I := fun rest (_ : List α) s' => ∃ done, entries = done ++ rest ∧ HandledAll resolve done s s')
    hround []).conseq
  · rintro _ rfl
    exact ⟨[], rfl, HandledAll.refl hs⟩
  · rintro _ s' ⟨done, hsplit, hdone⟩
    rw [List.append_nil] at hsplit
    rwa [hsplit]
  · exact fun _ _ h => h

end Crewplane.Workspace
