import Crewplane.Execution.PublicationRegistry
/-
# The registry keeps the registered copies

The abstract registry is a map from paths to copies: a publication with a recovery source sets the copy of
its path, one without withdraws it, a capture sets it unless the copy there has the signature asked for. The
spool implements it: whatever fails on the way, each path's slice holds its copy, apart from the
others, and is read back as it was registered.
-/
namespace Crewplane.Execution

open Crewplane.Lib

variable {Path Owner Digest : Type} {sha256 : List UInt8 → Digest} {st st' : RuntimePublicationRegistry Path Owner Digest}

/-! ## The abstract registry -/

section

variable [DecidableEq Path] [DecidableEq Digest]

/-- The copy registered for each path. -/
abbrev Copies (Path : Type) := Path → Option (List UInt8)

/-- What the source held. -/
def Copying.bytes (copying : Copying) : List UInt8 := (copying.rounds.map Round.chunk).flatten

def registered (sha256 : List UInt8 → Digest) (copies : Copies Path) : Operation Path Owner Digest → Copies Path
  | .publish path _ _ none => Function.update copies path none
  | .publish path _ _ (some copying) => Function.update copies path (some copying.bytes)
  | .capture path signature copying =>
    if (copies path).map (contentSignature sha256) = some signature then copies
    else Function.update copies path (some copying.bytes)
  | .close => fun _ => none
  | _ => copies

/-- The registry and the copies registered so far, after one more call. -/
def stepBoth (sha256 : List UInt8 → Digest) (s : RuntimePublicationRegistry Path Owner Digest × Copies Path)
    (op : Operation Path Owner Digest) : RuntimePublicationRegistry Path Owner Digest × Copies Path :=
  match op.method sha256 s.1 with
  | .ok _ st => (st, registered sha256 s.2 op)
  | .error _ st => (st, s.2)

def runBoth (sha256 : List UInt8 → Digest) (ops : List (Operation Path Owner Digest)) :
    RuntimePublicationRegistry Path Owner Digest × Copies Path :=
  ops.foldl (stepBoth sha256) (initialRegistry, fun _ => none)

end

/-! ## Slices of the spool -/

def RuntimePublicationRegistry.spool (st : RuntimePublicationRegistry Path Owner Digest) : List UInt8 := st.recoverySpool.getD []

def RecoverySlice.of (slice : RecoverySlice) (spool : List UInt8) : List UInt8 := (spool.drop slice.offset).take slice.size

def RecoverySlice.Inside (slice : RecoverySlice) (spool : List UInt8) : Prop := slice.offset + slice.size ≤ spool.length

def RecoverySlice.Apart (a b : RecoverySlice) : Prop := a.offset + a.size ≤ b.offset ∨ b.offset + b.size ≤ a.offset

theorem slice_append {slice : RecoverySlice} {spool : List UInt8} (h : slice.Inside spool) (more : List UInt8) :
    slice.of (spool ++ more) = slice.of spool := by
  simp only [RecoverySlice.Inside] at h
  simp only [RecoverySlice.of]
  rw [List.drop_append_of_le_length (by omega), List.take_append_of_le_length (by simp; omega)]

theorem slice_new (spool bytes : List UInt8) : RecoverySlice.of ⟨spool.length, bytes.length⟩ (spool ++ bytes) = bytes := by
  simp [RecoverySlice.of]

/-! ## A longer spool -/

/-- `st` with a longer spool. -/
def longer (st : RuntimePublicationRegistry Path Owner Digest) (more : List UInt8) : RuntimePublicationRegistry Path Owner Digest :=
  { st with recoverySpool := some (st.spool ++ more) }

theorem longer_nil {spool : List UInt8} (h : st.recoverySpool = some spool) : longer st [] = st := by
  have hspool : st.spool = spool := by simp [RuntimePublicationRegistry.spool, h]
  rw [longer, hspool, List.append_nil, ← h]

theorem longer_longer (a b : List UInt8) : longer (longer st a) b = longer st (a ++ b) := by
  simp [longer, RuntimePublicationRegistry.spool]

theorem setSpool_spec {spool : List UInt8} (h : st.recoverySpool = some spool) (more : List UInt8)
    {E : RegistryError → RuntimePublicationRegistry Path Owner Digest → Prop} :
    Spec (· = st) (setSpool (spool ++ more)) (fun _ st' => st' = longer st more) E := by
  refine .modify _ ?_
  rintro _ rfl
  simp [longer, RuntimePublicationRegistry.spool, h]

theorem copyRounds_spec {spool bytes : List UInt8} {rounds : List Round} (h : st.recoverySpool = some spool) :
    Spec (· = st) (copyRounds spool bytes rounds)
      (fun data st' => data = bytes ++ (rounds.map Round.chunk).flatten ∧ st' = longer st (rounds.map Round.chunk).flatten)
      (fun _ st' => ∃ junk, st' = longer st junk) := by
  induction rounds generalizing st spool bytes with
  | nil =>
    refine .ret bytes ?_
    rintro _ rfl
    exact ⟨by simp, (longer_nil h).symm⟩
  | cons round rounds ih =>
    have hfail : ∀ e, Spec (fun s => s = longer st round.stored) (throw e : RegistryM Path Owner Digest (List UInt8))
        (fun data st' => data = bytes ++ ((round :: rounds).map Round.chunk).flatten ∧
          st' = longer st ((round :: rounds).map Round.chunk).flatten) (fun _ st' => ∃ junk, st' = longer st junk) :=
      fun e => .raise e fun s hs => ⟨round.stored, hs⟩
    simp only [copyRounds]
    cases round.written with
    | none => exact (setSpool_spec h round.stored).bind fun _ => hfail .io
    | some written =>
      refine .cond (fun _ => (setSpool_spec h round.stored).bind fun _ => hfail .partialWrite) fun _ => ?_
      have hspool : (longer st round.chunk).recoverySpool = some (spool ++ round.chunk) := by
        simp [longer, RuntimePublicationRegistry.spool, h]
      refine (setSpool_spec h round.chunk).bind fun _ => (ih hspool).conseq (fun _ hs => hs) ?_ ?_
      · rintro data s ⟨rfl, rfl⟩
        exact ⟨by simp, by rw [longer_longer]; simp⟩
      · rintro e s ⟨junk, rfl⟩
        exact ⟨round.chunk ++ junk, longer_longer _ _⟩

/-! ## Appends -/

section

variable [DecidableEq Digest]

/-- What a raising call leaves: the registry as it was, but for bytes behind the spool where its rollback raised. -/
def Unchanged (st st' : RuntimePublicationRegistry Path Owner Digest) (rollsBack : Bool) : Prop :=
  st' = st ∨ ∃ junk, st' = longer st junk ∧ (rollsBack = true → junk = [])

/-- An append that answers has put the source's bytes behind the spool. -/
theorem appendRecoverySource_spec (st : RuntimePublicationRegistry Path Owner Digest) (copying : Copying)
    (expected : ContentSignature Digest) :
    Spec (· = st) (appendRecoverySource sha256 copying expected)
      (fun slice st' => slice = ⟨st.spool.length, copying.bytes.length⟩ ∧
        contentSignature sha256 copying.bytes = expected ∧ st' = longer st copying.bytes)
      (fun _ st' => Unchanged st st' copying.rollback.isNone) := by
  have hspool : Spec (· = st) (ensureRecoverySpool copying.spoolOpens) (fun spool st' => spool = st.spool ∧ st' = longer st [])
      (fun _ st' => Unchanged st st' copying.rollback.isNone) := by
    refine .read ?_
    cases h : st.recoverySpool with
    | some spool =>
      refine .ret spool ?_
      rintro _ rfl
      exact ⟨by simp [RuntimePublicationRegistry.spool, h], (longer_nil h).symm⟩
    | none =>
      refine .cond (fun _ => ?_) fun _ => .raise _ fun _ hs => .inl hs
      refine .bind (.modify _ fun s hs => ?_) fun _ => .ret [] fun s hs => ⟨?_, hs⟩
      · rw [hs]
        simp [longer, RuntimePublicationRegistry.spool, h]
      · simp [RuntimePublicationRegistry.spool, h]
  refine hspool.bind fun spool => .pointwise ?_
  rintro _ ⟨rfl, rfl⟩
  have hsome : (longer st []).recoverySpool = some st.spool := by simp [longer]
  refine .cond (fun _ => .raise _ fun _ hs => .inr ⟨[], hs, fun _ => rfl⟩) fun _ => ?_
  refine .rescue (F := fun _ st' => ∃ junk, st' = longer st junk) ?_ fun e => ?_
  · refine .cond (fun _ => .raise _ fun _ hs => ⟨[], hs⟩) fun _ => .cond (fun _ => .raise _ fun _ hs => ⟨[], hs⟩) fun _ => ?_
    refine ((copyRounds_spec hsome).conseq (fun _ hs => hs) (fun _ _ hs => hs) ?_).bind fun bytes => .pointwise ?_
    · rintro _ s ⟨junk, rfl⟩
      exact ⟨junk, longer_longer _ _⟩
    · rintro _ ⟨rfl, rfl⟩
      have hfail : ∀ e, Spec (· = longer (longer st []) copying.bytes) (throw e : RegistryM Path Owner Digest RecoverySlice)
          (fun slice st' => slice = ⟨st.spool.length, copying.bytes.length⟩ ∧
            contentSignature sha256 copying.bytes = expected ∧ st' = longer st copying.bytes)
          (fun _ st' => ∃ junk, st' = longer st junk) :=
        fun e => .raise e fun s hs => ⟨copying.bytes, by rw [hs, longer_longer, List.nil_append]⟩
      refine .cond (fun _ => hfail _) fun _ => .cond (fun _ => hfail _) fun hsig => .cond (fun _ => hfail _) fun _ => ?_
      refine .ret _ ?_
      rintro _ rfl
      exact ⟨rfl, not_not.mp hsig, by rw [longer_longer]; rfl⟩
  · cases copying.rollback with
    | none =>
      refine .bind (Q := fun _ st' => st' = longer st []) (.modify _ ?_) fun _ => .raise _ fun _ hs => .inr ⟨[], hs, fun _ => rfl⟩
      rintro _ ⟨junk, rfl⟩
      simp [longer]
    | some left =>
      refine .bind (Q := fun _ st' => st' = longer st left) (.modify _ ?_) fun _ => .raise _ fun _ hs => .inr ⟨left, hs, by simp⟩
      rintro _ ⟨junk, rfl⟩
      simp [longer]

end

/-! ## The refinement -/

variable [DecidableEq Path] {copies : Copies Path}

/-- Each registered copy stands in a slice of its own. -/
structure Keeps (sha256 : List UInt8 → Digest) (st : RuntimePublicationRegistry Path Owner Digest) (copies : Copies Path) :
    Prop where
  stored : ∀ path bytes, copies path = some bytes → ∃ slice, Dict.get? st.recoverySlices path = some slice ∧
    Dict.get? st.recoverySignatures path = some (contentSignature sha256 bytes) ∧ st.recoverySpool = some st.spool ∧
    slice.size = bytes.length ∧ slice.Inside st.spool ∧ slice.of st.spool = bytes
  absent : ∀ path, copies path = none →
    Dict.get? st.recoverySlices path = none ∧ Dict.get? st.recoverySignatures path = none
  apart : ∀ p q a b, p ≠ q → Dict.get? st.recoverySlices p = some a → Dict.get? st.recoverySlices q = some b → a.Apart b
  released : st.closed = true → ∀ path, copies path = none

theorem keeps_nothing (hslices : st.recoverySlices = []) (hsigs : st.recoverySignatures = []) :
    Keeps sha256 st fun _ => none where
  stored _ _ h := nomatch h
  absent _ _ := by simp [hslices, hsigs]
  apart p q a b _ h _ := by simp [hslices] at h
  released _ _ := rfl

theorem Keeps.inside (h : Keeps sha256 st copies) {path : Path} {slice : RecoverySlice}
    (hslice : Dict.get? st.recoverySlices path = some slice) : slice.Inside st.spool := by
  cases hc : copies path with
  | none =>
    rw [(h.absent path hc).1] at hslice
    cases hslice
  | some bytes =>
    obtain ⟨slice', hget, -, -, -, hinside, -⟩ := h.stored path bytes hc
    rw [hget] at hslice
    cases hslice
    exact hinside

/-- The other fields do not matter. -/
theorem Keeps.congr (h : Keeps sha256 st copies) (hslices : st'.recoverySlices = st.recoverySlices)
    (hsigs : st'.recoverySignatures = st.recoverySignatures) (hspool : st'.recoverySpool = st.recoverySpool)
    (hclosed : st'.closed = st.closed) : Keeps sha256 st' copies := by
  have hbytes : st'.spool = st.spool := by simp [RuntimePublicationRegistry.spool, hspool]
  constructor
  · intro path bytes hc
    rw [hslices, hsigs, hspool, hbytes]
    exact h.stored path bytes hc
  · rw [hslices, hsigs]
    exact h.absent
  · rw [hslices]
    exact h.apart
  · rw [hclosed]
    exact h.released

theorem Keeps.longer (h : Keeps sha256 st copies) (more : List UInt8) : Keeps sha256 (longer st more) copies := by
  constructor
  · intro path bytes hc
    obtain ⟨slice, hslice, hsig, -, hsize, hinside, hof⟩ := h.stored path bytes hc
    refine ⟨slice, hslice, hsig, rfl, hsize, ?_, (slice_append hinside more).trans hof⟩
    simp only [RecoverySlice.Inside] at hinside ⊢
    simp [Execution.longer, RuntimePublicationRegistry.spool] at hinside ⊢
    omega
  · exact h.absent
  · exact h.apart
  · exact h.released

/-- A new copy behind the spool. -/
theorem Keeps.set (h : Keeps sha256 st copies) (hopen : st.closed = false) (path : Path) (bytes : List UInt8) :
    Keeps sha256 { Execution.longer st bytes with
      recoverySignatures := Dict.setItem st.recoverySignatures path (contentSignature sha256 bytes)
      recoverySlices := Dict.setItem st.recoverySlices path ⟨st.spool.length, bytes.length⟩ }
      (Function.update copies path (some bytes)) := by
  have hl := h.longer bytes
  constructor
  · intro q b hc
    by_cases hq : q = path
    · subst hq
      rw [Function.update_self] at hc
      cases hc
      refine ⟨⟨st.spool.length, bytes.length⟩, by simp [Dict.get?_setItem], by simp [Dict.get?_setItem], rfl, rfl, ?_, ?_⟩
      · simp [RecoverySlice.Inside, Execution.longer, RuntimePublicationRegistry.spool]
      · exact slice_new st.spool bytes
    · rw [Function.update_of_ne hq] at hc
      obtain ⟨slice, hslice, hsig, hspool, hrest⟩ := hl.stored q b hc
      refine ⟨slice, ?_, ?_, hspool, hrest⟩
      · rw [Dict.get?_setItem, if_neg fun he => hq he.symm]
        exact hslice
      · rw [Dict.get?_setItem, if_neg fun he => hq he.symm]
        exact hsig
  · intro q hc
    by_cases hq : q = path
    · subst hq
      rw [Function.update_self] at hc
      cases hc
    · rw [Function.update_of_ne hq] at hc
      simp only [Dict.get?_setItem, if_neg fun he : path = q => hq he.symm]
      exact hl.absent q hc
  · -- the new slice starts where the old ones end
    intro p q a b hpq ha hb
    simp only [Dict.get?_setItem] at ha hb
    split at ha
    next hp =>
      cases ha
      rw [if_neg fun he => hpq (hp.symm.trans he)] at hb
      exact .inr (h.inside hb)
    next hp =>
      split at hb
      · cases hb
        exact .inl (h.inside ha)
      · exact h.apart p q a b hpq ha hb
  · intro hclosed
    cases hopen.symm.trans hclosed

theorem Keeps.erase (h : Keeps sha256 st copies) (path : Path) :
    Keeps sha256 { st with
      recoverySignatures := Dict.erase st.recoverySignatures path
      recoverySlices := Dict.erase st.recoverySlices path } (Function.update copies path none) := by
  constructor
  · intro q b hc
    have hq : q ≠ path := by
      rintro rfl
      rw [Function.update_self] at hc
      cases hc
    rw [Function.update_of_ne hq] at hc
    simp only [Dict.get?_erase, if_neg fun he : path = q => hq he.symm]
    exact h.stored q b hc
  · intro q hc
    simp only [Dict.get?_erase]
    split
    · exact ⟨rfl, rfl⟩
    next hq =>
      rw [Function.update_of_ne fun he => hq he.symm] at hc
      exact h.absent q hc
  · intro p q a b hpq ha hb
    simp only [Dict.get?_erase] at ha hb
    split at ha
    · cases ha
    · split at hb
      · cases hb
      · exact h.apart p q a b hpq ha hb
  · intro hclosed q
    by_cases hq : q = path
    · rw [hq, Function.update_self]
    · rw [Function.update_of_ne hq]
      exact h.released hclosed q

/-- Whether a capture finds its copy already there. -/
theorem Keeps.captured (h : Keeps sha256 st copies) (path : Path) (signature : ContentSignature Digest) :
    (copies path).map (contentSignature sha256) = some signature ↔
      Dict.get? st.recoverySignatures path = some signature ∧ path ∈ Dict.keys st.recoverySlices := by
  cases hc : copies path with
  | none =>
    obtain ⟨-, hsig⟩ := h.absent path hc
    simp [hsig]
  | some bytes =>
    obtain ⟨slice, hslice, hsig, -⟩ := h.stored path bytes hc
    have hmem : path ∈ Dict.keys st.recoverySlices := (Dict.mem_keys_iff _ path).mpr (by simp [hslice])
    simp [hsig, hmem]

/-! ## Calls -/

variable [DecidableEq Digest]

/-- Whether a call that succeeds is a publication. -/
def Operation.publishes : Operation Path Owner Digest → Bool
  | publish .. => true
  | exitEvent _ _ outermost raised => !raised && outermost
  | _ => false

def Operation.rollsBack : Operation Path Owner Digest → Bool
  | publish _ _ _ (some copying) => copying.rollback.isNone
  | capture _ _ copying => copying.rollback.isNone
  | _ => true

/-- What a call does: it keeps the copies as registered and counts the publications, or it raises. -/
theorem method_spec (sha256 : List UInt8 → Digest) (st : RuntimePublicationRegistry Path Owner Digest) (op : Operation Path Owner Digest) :
    Spec (· = st) (op.method sha256)
      (fun _ st' => (∀ copies, Keeps sha256 st copies → Keeps sha256 st' (registered sha256 copies op)) ∧
        st'.version = st.version + if op.publishes then 1 else 0)
      (fun _ st' => Unchanged st st' op.rollsBack) := by
  have hopen : Spec (· = st) (ensureOpen : RegistryM Path Owner Digest Unit) (fun _ st' => st' = st ∧ st.closed = false)
      (fun _ st' => Unchanged st st' op.rollsBack) := by
    refine .read (.cond (fun _ => .raise _ fun _ hs => .inl hs) fun hc => .ret () fun _ hs => ⟨hs, by simpa using hc⟩)
  cases op with
  | publish path signature owner recoverySource =>
    refine hopen.bind fun _ => .pointwise ?_
    rintro s ⟨hs, hclosed⟩
    subst s
    cases recoverySource with
    | none =>
      refine .bind (Q := fun _ st' => st' = { st with
        recoverySignatures := Dict.erase st.recoverySignatures path
        recoverySlices := Dict.erase st.recoverySlices path }) (.modify _ ?_) fun _ => .modify _ ?_
      · rintro _ rfl
        rfl
      · rintro _ rfl
        exact ⟨fun copies h => (h.erase path).congr rfl rfl rfl rfl, rfl⟩
    | some copying =>
      refine (appendRecoverySource_spec st copying signature).bind fun slice => .bind (Q := fun _ st' => (∀ copies,
        Keeps sha256 st copies → Keeps sha256 st' (Function.update copies path (some copying.bytes))) ∧
        st'.version = st.version) (.modify _ ?_) fun _ => .modify _ ?_
      · rintro _ ⟨rfl, rfl, rfl⟩
        exact ⟨fun copies h => h.set hclosed path copying.bytes, rfl⟩
      · rintro s ⟨hs, hversion⟩
        exact ⟨fun copies h => (hs copies h).congr rfl rfl rfl rfl, by simp [Operation.publishes, hversion]⟩
  | capture path signature copying =>
    refine hopen.bind fun _ => .pointwise ?_
    rintro s ⟨hs, hclosed⟩
    subst s
    refine .read (.cond (fun hsame => .ret () ?_) fun hdiffers => ?_)
    · rintro _ rfl
      refine ⟨fun copies h => ?_, rfl⟩
      simp only [registered, if_pos ((h.captured path signature).mpr hsame)]
      exact h
    · refine (appendRecoverySource_spec st copying signature).bind fun slice => .modify _ ?_
      rintro _ ⟨rfl, rfl, rfl⟩
      refine ⟨fun copies h => ?_, rfl⟩
      simp only [registered, if_neg fun hs => hdiffers ((h.captured path _).mp hs)]
      exact h.set hclosed path copying.bytes
  | enterEvent =>
    refine .bind (Q := fun _ st' => st' = { st with eventPublicationDepth := st.eventPublicationDepth + 1 })
      (hopen.bind fun _ => .pointwise ?_) fun _ => .ret () ?_
    · rintro s ⟨hs, -⟩
      subst s
      refine .read (.bind (.modify _ ?_) fun _ => .ret _ fun _ hs => hs)
      rintro _ rfl
      rfl
    · rintro _ rfl
      exact ⟨fun copies h => h.congr rfl rfl rfl rfl, rfl⟩
  | exitEvent ownerId line outermost raised =>
    refine .cond (fun hcounts => ?_) fun hquiet => .modify _ ?_
    · refine .bind (Q := fun _ st' => st' = { st with
        eventPublications := st.eventPublications ++ [⟨ownerId, line⟩]
        version := st.version + 1 }) (.modify _ ?_) fun _ => .modify _ ?_
      · rintro _ rfl
        rfl
      · rintro _ rfl
        exact ⟨fun copies h => h.congr rfl rfl rfl rfl, by simp [Operation.publishes, hcounts]⟩
    · rintro _ rfl
      exact ⟨fun copies h => h.congr rfl rfl rfl rfl, by simp [Operation.publishes, hquiet]⟩
  | close =>
    refine .modify _ ?_
    rintro _ rfl
    split
    next hclosed =>
      refine ⟨fun copies h => ?_, rfl⟩
      rw [show registered sha256 copies (Operation.close : Operation Path Owner Digest) = copies from
        funext fun path => (h.released hclosed path).symm]
      exact h
    next => exact ⟨fun copies h => keeps_nothing rfl rfl, rfl⟩

/-! ## Runs -/

theorem runBoth_keeps (sha256 : List UInt8 → Digest) (ops : List (Operation Path Owner Digest)) :
    Keeps sha256 (runBoth sha256 ops).1 (runBoth sha256 ops).2 := by
  have step : ∀ (s : RuntimePublicationRegistry Path Owner Digest × Copies Path) (op : Operation Path Owner Digest),
      Keeps sha256 s.1 s.2 → Keeps sha256 (stepBoth sha256 s op).1 (stepBoth sha256 s op).2 := by
    intro s op h
    have hspec := method_spec sha256 s.1 op s.1 rfl
    simp only [stepBoth]
    split
    next hm =>
      rw [hm] at hspec
      exact hspec.1 _ h
    next hm =>
      rw [hm] at hspec
      rcases hspec with rfl | ⟨junk, rfl, -⟩
      · exact h
      · exact h.longer junk
  suffices hrun : ∀ s : RuntimePublicationRegistry Path Owner Digest × Copies Path, Keeps sha256 s.1 s.2 →
      Keeps sha256 (ops.foldl (stepBoth sha256) s).1 (ops.foldl (stepBoth sha256) s).2 from
    hrun _ (keeps_nothing rfl rfl)
  induction ops with
  | nil => exact fun s h => h
  | cons op ops ih => exact fun s h => ih _ (step s op h)

/-- A destination that takes every chunk gets the slice. -/
theorem copyPayload_complete {spool : List UInt8} {fuel position remaining : Nat} (hfuel : remaining ≤ fuel)
    (h : position + remaining ≤ spool.length) (copied : List UInt8) :
    copyPayload List.length spool fuel position remaining copied =
      .ok (copied ++ (spool.drop position).take remaining) := by
  induction fuel generalizing position remaining copied with
  | zero =>
    obtain rfl : remaining = 0 := by omega
    simp [copyPayload]
  | succ fuel ih =>
    cases remaining with
    | zero => simp [copyPayload]
    | succ remaining =>
      have hpositive : 0 < recoveryCopyChunkBytes := by decide
      have hlength : ((spool.drop position).take (min (remaining + 1) recoveryCopyChunkBytes)).length =
          min (remaining + 1) recoveryCopyChunkBytes := by
        simp only [List.length_take, List.length_drop]
        omega
      have hne : (spool.drop position).take (min (remaining + 1) recoveryCopyChunkBytes) ≠ [] := by
        rw [← List.length_pos_iff, hlength]
        omega
      simp only [copyPayload, if_neg hne, ne_eq, not_true_eq_false, if_false, hlength]
      rw [ih (by omega) (by omega), List.append_assoc, ← List.drop_drop, ← List.take_add,
        Nat.add_sub_of_le (Nat.min_le_left _ _)]

/-- Whatever is called, in any order: the slices lie in the spool, apart from each other; each path of an open registry
reads back as the copy registered for it; a call that raises leaves the registry and the slices as they were; and a call that
succeeds counts as the publication it is. -/
theorem registry_refines (ops : List (Operation Path Owner Digest)) :
    let st := (runBoth sha256 ops).1
    (∀ path slice, Dict.get? st.recoverySlices path = some slice → slice.Inside st.spool) ∧
    (∀ p q a b, p ≠ q → Dict.get? st.recoverySlices p = some a → Dict.get? st.recoverySlices q = some b → a.Apart b) ∧
    (st.closed = false → ∀ path, copyRecoveryPayloadTo sha256 List.length st path = .ok ((runBoth sha256 ops).2 path)) ∧
    (∀ (op : Operation Path Owner Digest) e st', op.method sha256 st = .error e st' → Unchanged st st' op.rollsBack ∧
      ∀ path slice, Dict.get? st.recoverySlices path = some slice →
        Dict.get? st'.recoverySlices path = some slice ∧ slice.of st'.spool = slice.of st.spool) ∧
    (∀ (op : Operation Path Owner Digest) st', op.method sha256 st = .ok () st' →
      st'.version = st.version + if op.publishes then 1 else 0) := by
  have h := runBoth_keeps sha256 ops
  refine ⟨fun path slice => h.inside, h.apart, fun hopen path => ?_, fun op e st' hm => ?_, fun op st' hm => ?_⟩
  · cases hc : (runBoth sha256 ops).2 path with
    | none =>
      simp [copyRecoveryPayloadTo, hopen, (h.absent path hc).1, pure, Except.pure]
    | some bytes =>
      obtain ⟨slice, hslice, hsig, hspool, -, hinside, hof⟩ := h.stored path bytes hc
      have hcopy := copyPayload_complete (Nat.le_refl slice.size) hinside []
      simp only [RecoverySlice.of] at hof
      rw [List.nil_append, hof] at hcopy
      simp [copyRecoveryPayloadTo, hopen, hslice, hsig, hspool, hcopy, Except.bind, bind, pure, Except.pure]
  · have hspec := method_spec sha256 (runBoth sha256 ops).1 op _ rfl
    rw [hm] at hspec
    refine ⟨hspec, fun path slice hslice => ?_⟩
    rcases hspec with rfl | ⟨junk, rfl, -⟩
    · exact ⟨hslice, rfl⟩
    · exact ⟨hslice, slice_append (h.inside hslice) junk⟩
  · have hspec := method_spec sha256 (runBoth sha256 ops).1 op _ rfl
    rw [hm] at hspec
    exact hspec.2

/-- A publication without a recovery source withdraws the copy of its path, and a capture is no publication. -/
theorem publish_withdraws_copy :
    let sha256 : List UInt8 → List UInt8 := id
    let copying : Copying := ⟨true, true, true, true, [⟨[7], some 1, []⟩], true, true, none⟩
    let registers : Operation Nat Nat (List UInt8) := .publish 0 (1, [7]) none (some copying)
    let withdraws : Operation Nat Nat (List UInt8) := .publish 0 (1, [8]) none none
    let captures : Operation Nat Nat (List UInt8) := .capture 1 (1, [7]) copying
    ∃ st₁ st₂ st₃, registers.method sha256 initialRegistry = .ok () st₁ ∧ withdraws.method sha256 st₁ = .ok () st₂ ∧
      captures.method sha256 st₂ = .ok () st₃ ∧ copyRecoveryPayloadTo sha256 List.length st₁ 0 = .ok (some [7]) ∧
      copyRecoveryPayloadTo sha256 List.length st₂ 0 = .ok none ∧
      st₃.recoverySlices ≠ st₂.recoverySlices ∧ st₃.version = st₂.version :=
  ⟨_, _, _, rfl, rfl, rfl, rfl, rfl, by decide, rfl⟩

end Crewplane.Execution
