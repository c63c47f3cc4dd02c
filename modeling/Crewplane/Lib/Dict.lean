import Mathlib.Data.List.Nodup
import Mathlib.Data.List.Count
/-
# Insertion-ordered dictionaries

A Python `dict` as the list of its `(key, value)` entries in insertion order:
assigning an existing key replaces the value in place, a new key goes to the
end. Lookups return an `Option`; `getItem` is the subscript `d[k]`, which falls back
to the default where Python raises `KeyError` (a client proves that its keys are
present, so that the fallback is never the answer).
-/
namespace Crewplane.Lib

abbrev Dict (κ : Type) (α : Type) := List (κ × α)

namespace Dict

variable {κ α : Type} [DecidableEq κ]

def get? : Dict κ α → κ → Option α
  | [], _ => none
  | (k', v) :: d, k => if k' = k then some v else get? d k

/-- `d[k]`. -/
def getItem [Inhabited α] (d : Dict κ α) (k : κ) : α := (get? d k).getD default

def keys (d : Dict κ α) : List κ := d.map Prod.fst

/-- `d[k] = v`. -/
def setItem : Dict κ α → κ → α → Dict κ α
  | [], k, v => [(k, v)]
  | (k', v') :: d, k, v => if k' = k then (k, v) :: d else (k', v') :: setItem d k v

/-- `{k: f(k) for k in ks}` over distinct keys. -/
def ofKeys (ks : List κ) (f : κ → α) : Dict κ α := ks.map fun k => (k, f k)

/-- `d.update(e)`. -/
def update (d e : Dict κ α) : Dict κ α := e.foldl (fun d kv => setItem d kv.1 kv.2) d

/-- `{k: v for k, v in entries}`: the last value of a key wins, at its first place. -/
def ofPairs (entries : List (κ × α)) : Dict κ α := update [] entries

def values (d : Dict κ α) : List α := d.map Prod.snd

/-- `d[k] = f(d[k])`. -/
def modify [Inhabited α] (d : Dict κ α) (k : κ) (f : α → α) : Dict κ α := setItem d k (f (getItem d k))

/-- `d.pop(k, None)`, without its answer. -/
def erase (d : Dict κ α) (k : κ) : Dict κ α := d.filter fun entry => entry.1 ≠ k

/-! ## Lookup after each operation -/

@[simp] theorem get?_nil (k : κ) : get? ([] : Dict κ α) k = none := rfl

theorem get?_setItem (d : Dict κ α) (k : κ) (v : α) (k' : κ) :
    get? (setItem d k v) k' = if k = k' then some v else get? d k' := by
  induction d with
  | nil => simp [setItem, get?]
  | cons e d ih =>
    obtain ⟨a, b⟩ := e
    by_cases hak : a = k
    · subst hak
      simp only [setItem, if_true, get?]
      split <;> rfl
    · simp only [setItem, if_neg hak, get?, ih]
      by_cases hkk : k = k'
      · subst hkk; simp [hak]
      · simp [hkk]

theorem get?_erase (d : Dict κ α) (k k' : κ) : get? (erase d k) k' = if k = k' then none else get? d k' := by
  induction d with
  | nil => simp [erase]
  | cons e d ih =>
    obtain ⟨a, b⟩ := e
    by_cases hak : a = k
    · subst hak
      have hcons : erase ((a, b) :: d) a = erase d a := by simp [erase]
      rw [hcons, ih]
      by_cases hk : a = k' <;> simp [get?, hk]
    · have hcons : erase ((a, b) :: d) k = (a, b) :: erase d k := by simp [erase, hak]
      rw [hcons, get?, ih, get?]
      by_cases hk : a = k'
      · have hkk : k ≠ k' := fun h => hak (hk.trans h.symm)
        simp [hk, hkk]
      · simp [hk]

theorem get?_map {β : Type} (f : α → β) (d : Dict κ α) (k : κ) :
    get? (d.map fun entry => (entry.1, f entry.2)) k = (get? d k).map f := by
  induction d with
  | nil => rfl
  | cons entry d ih =>
    simp only [List.map_cons, get?]
    split
    · rfl
    · exact ih

@[simp] theorem getItem_setItem [Inhabited α] (d : Dict κ α) (k : κ) (v : α) (k' : κ) :
    getItem (setItem d k v) k' = if k = k' then v else getItem d k' := by
  unfold getItem
  rw [get?_setItem]
  split <;> rfl

@[simp] theorem getItem_modify [Inhabited α] (d : Dict κ α) (k : κ) (f : α → α) (k' : κ) :
    getItem (modify d k f) k' = if k = k' then f (getItem d k) else getItem d k' := by
  simp [modify]

theorem get?_ofKeys (ks : List κ) (f : κ → α) (k : κ) :
    get? (ofKeys ks f) k = if k ∈ ks then some (f k) else none := by
  induction ks with
  | nil => rfl
  | cons a ks ih =>
    have hcons : get? (ofKeys (a :: ks) f) k = if a = k then some (f a) else get? (ofKeys ks f) k := rfl
    rw [hcons, ih]
    by_cases h : a = k
    · subst h; simp
    · have h' : k ≠ a := fun e => h e.symm
      simp [h, h']

theorem getItem_ofKeys [Inhabited α] (ks : List κ) (f : κ → α) {k : κ} (h : k ∈ ks) : getItem (ofKeys ks f) k = f k := by
  simp [getItem, get?_ofKeys, h]

theorem getItem_ofKeys_of_not_mem [Inhabited α] (ks : List κ) (f : κ → α) {k : κ} (h : k ∉ ks) :
    getItem (ofKeys ks f) k = default := by
  simp [getItem, get?_ofKeys, h]

theorem mem_keys_iff (d : Dict κ α) (k : κ) : k ∈ keys d ↔ (get? d k).isSome := by
  induction d with
  | nil => simp [keys]
  | cons e d ih =>
    obtain ⟨a, b⟩ := e
    have hk : k ∈ keys ((a, b) :: d) ↔ k = a ∨ k ∈ keys d := by simp [keys]
    rw [hk, ih]
    by_cases h : a = k
    · subst h; simp [get?]
    · have h' : k ≠ a := fun e => h e.symm
      simp [get?, h, h']

/-! ## Keys after each operation -/

theorem keys_setItem (d : Dict κ α) (k : κ) (v : α) :
    keys (setItem d k v) = if k ∈ keys d then keys d else keys d ++ [k] := by
  induction d with
  | nil => simp [keys, setItem]
  | cons e d ih =>
    obtain ⟨a, b⟩ := e
    by_cases h : a = k
    · subst h; simp [keys, setItem]
    · have h' : k ≠ a := fun e => h e.symm
      have hc : keys (setItem ((a, b) :: d) k v) = a :: keys (setItem d k v) := by simp [keys, setItem, h]
      rw [hc, ih]
      by_cases hm : k ∈ keys d
      · rw [if_pos hm, if_pos (by simpa [keys] using Or.inr hm)]; rfl
      · rw [if_neg hm, if_neg (by simpa [keys, h'] using hm)]; rfl

theorem setItem_of_not_mem {d : Dict κ α} {k : κ} (h : k ∉ keys d) (v : α) : setItem d k v = d ++ [(k, v)] := by
  induction d with
  | nil => rfl
  | cons e d ih =>
    obtain ⟨a, b⟩ := e
    have hne : k ≠ a ∧ k ∉ keys d := by simpa [keys] using h
    rw [setItem, if_neg fun he => hne.1 he.symm, ih hne.2, List.cons_append]

theorem mem_keys_setItem (d : Dict κ α) (k : κ) (v : α) (k' : κ) :
    k' ∈ keys (setItem d k v) ↔ k' = k ∨ k' ∈ keys d := by
  rw [keys_setItem]
  split
  · rename_i h
    constructor
    · exact Or.inr
    · rintro (rfl | h')
      · exact h
      · exact h'
  · simp [or_comm]

theorem mem_keys_modify [Inhabited α] (d : Dict κ α) (k : κ) (f : α → α) (k' : κ) :
    k' ∈ keys (modify d k f) ↔ k' = k ∨ k' ∈ keys d := mem_keys_setItem d k _ k'

theorem nodup_keys_setItem {d : Dict κ α} (h : (keys d).Nodup) (k : κ) (v : α) : (keys (setItem d k v)).Nodup := by
  rw [keys_setItem]
  split
  · exact h
  · rename_i hk
    exact List.Nodup.append h (by simp) (by simpa using hk)

omit [DecidableEq κ] in
@[simp] theorem keys_ofKeys (ks : List κ) (f : κ → α) : keys (ofKeys ks f) = ks := by
  simp [keys, ofKeys, Function.comp_def]

theorem get?_isSome_of_mem_keys {d : Dict κ α} {k : κ} (h : k ∈ keys d) : ∃ v, get? d k = some v :=
  Option.isSome_iff_exists.mp ((mem_keys_iff d k).mp h)

/-! ## Updating with another dictionary -/

theorem get?_update_of_not_mem (d e : Dict κ α) {k : κ} (h : k ∉ keys e) : get? (update d e) k = get? d k := by
  induction e generalizing d with
  | nil => rfl
  | cons kv e ih =>
    have hk : k ≠ kv.1 ∧ k ∉ keys e := by simpa [keys] using h
    have hstep : update d (kv :: e) = update (setItem d kv.1 kv.2) e := rfl
    rw [hstep, ih _ hk.2, get?_setItem, if_neg (fun h' => hk.1 h'.symm)]

/-- On distinct keys the updating dictionary wins. -/
theorem get?_update_of_mem (d : Dict κ α) {e : Dict κ α} (hn : (keys e).Nodup) {k : κ} (h : k ∈ keys e) :
    get? (update d e) k = get? e k := by
  induction e generalizing d with
  | nil => simp [keys] at h
  | cons kv e ih =>
    obtain ⟨a, b⟩ := kv
    have hn' : a ∉ keys e ∧ (keys e).Nodup := by simpa [keys] using hn
    have hstep : update d ((a, b) :: e) = update (setItem d a b) e := rfl
    rw [hstep]
    by_cases hak : a = k
    · subst hak
      rw [get?_update_of_not_mem _ _ hn'.1, get?_setItem]
      simp [get?]
    · have hk : k ∈ keys e := by
        have : k = a ∨ k ∈ keys e := by simpa [keys] using h
        exact this.resolve_left fun e => hak e.symm
      rw [ih _ hn'.2 hk]
      simp [get?, hak]

theorem mem_keys_update (d e : Dict κ α) (k : κ) : k ∈ keys (update d e) ↔ k ∈ keys d ∨ k ∈ keys e := by
  induction e generalizing d with
  | nil => simp [update, keys]
  | cons kv e ih =>
    have hstep : update d (kv :: e) = update (setItem d kv.1 kv.2) e := rfl
    have hk : k ∈ keys (kv :: e) ↔ k = kv.1 ∨ k ∈ keys e := by simp [keys]
    rw [hstep, ih, mem_keys_setItem, hk]
    tauto

theorem nodup_keys_update {d : Dict κ α} (h : (keys d).Nodup) (e : Dict κ α) : (keys (update d e)).Nodup := by
  induction e generalizing d with
  | nil => exact h
  | cons kv e ih => exact ih (nodup_keys_setItem h kv.1 kv.2)

theorem update_append (d a b : Dict κ α) : update d (a ++ b) = update (update d a) b := List.foldl_append

/-- Without a common key, an update puts the new entries at the end. -/
theorem update_of_disjoint {d e : Dict κ α} (he : (keys e).Nodup) (h : List.Disjoint (keys d) (keys e)) :
    update d e = d ++ e := by
  induction e generalizing d with
  | nil => simp [update]
  | cons kv e ih =>
    have hstep : update d (kv :: e) = update (setItem d kv.1 kv.2) e := rfl
    have hcons : keys (kv :: e) = kv.1 :: keys e := rfl
    rw [hcons] at he h
    obtain ⟨hfresh, he⟩ := List.nodup_cons.mp he
    have hd : kv.1 ∉ keys d := fun hmem => h hmem List.mem_cons_self
    rw [hstep, setItem_of_not_mem hd, ih he]
    · simp
    · have hkeys : keys (d ++ [(kv.1, kv.2)]) = keys d ++ [kv.1] := List.map_append
      intro k hk hke
      rw [hkeys] at hk
      rcases List.mem_append.mp hk with hk | hk
      · exact h hk (List.mem_cons_of_mem _ hke)
      · rw [List.mem_singleton.mp hk] at hke
        exact hfresh hke

/-- The keys of the entries that meet a condition on key and value. -/
theorem mem_filter_keys [Inhabited α] {d : Dict κ α} (hd : (keys d).Nodup) (p : κ → α → Bool) {k : κ} :
    k ∈ (d.filter fun entry => p entry.1 entry.2).map Prod.fst ↔ k ∈ keys d ∧ p k (getItem d k) = true := by
  induction d with
  | nil => simp [keys]
  | cons e d ih =>
    obtain ⟨a, v⟩ := e
    have hnd : a ∉ keys d ∧ (keys d).Nodup := by simpa [keys] using hd
    have hkeys : keys ((a, v) :: d) = a :: keys d := rfl
    have hitem : getItem ((a, v) :: d) k = if a = k then v else getItem d k := by
      simp only [getItem, get?]
      split <;> rfl
    have hsplit : k ∈ (((a, v) :: d).filter fun entry => p entry.1 entry.2).map Prod.fst ↔
        (k = a ∧ p a v = true) ∨ k ∈ (d.filter fun entry => p entry.1 entry.2).map Prod.fst := by
      by_cases hp : p a v = true <;> simp [hp]
    rw [hsplit, hkeys, List.mem_cons, hitem, ih hnd.2]
    by_cases hk : a = k
    · subst hk
      simp [hnd.1]
    · have hk' : k ≠ a := fun e => hk e.symm
      simp [hk, hk']

/-! ## Counting down a dictionary of counters -/

/-- `for k in ks: d[k] -= 1`. -/
def decrementAll (d : Dict κ Int) (ks : List κ) : Dict κ Int := ks.foldl (fun d k => modify d k (· - 1)) d

theorem getItem_decrementAll (d : Dict κ Int) (ks : List κ) (k : κ) :
    getItem (decrementAll d ks) k = getItem d k - (ks.count k : Int) := by
  induction ks generalizing d with
  | nil => simp [decrementAll]
  | cons a ks ih =>
    have hstep : decrementAll d (a :: ks) = decrementAll (modify d a (· - 1)) ks := rfl
    rw [hstep, ih, getItem_modify, List.count_cons]
    by_cases h : a = k
    · subst h; simp; omega
    · simp [h]

theorem decrementAll_flatMap {β : Type} (d : Dict κ Int) (xs : List β) (f : β → List κ) :
    xs.foldl (fun d x => decrementAll d (f x)) d = decrementAll d (xs.flatMap f) := by
  induction xs generalizing d with
  | nil => rfl
  | cons x xs ih =>
    have hsplit : decrementAll d ((x :: xs).flatMap f) = decrementAll (decrementAll d (f x)) (xs.flatMap f) := by
      simp [decrementAll, List.foldl_append]
    rw [hsplit, ← ih]
    rfl

/-! ## Dictionaries of a list of entries -/

theorem mem_setItem {d : Dict κ α} {k : κ} {v : α} {e : κ × α} (h : e ∈ setItem d k v) : e = (k, v) ∨ e ∈ d := by
  induction d with
  | nil => simpa [setItem] using h
  | cons e' d ih =>
    obtain ⟨a, b⟩ := e'
    by_cases hak : a = k
    · rw [setItem, if_pos hak] at h
      rcases List.mem_cons.mp h with rfl | h
      · exact Or.inl rfl
      · exact Or.inr (List.mem_cons_of_mem _ h)
    · rw [setItem, if_neg hak] at h
      rcases List.mem_cons.mp h with rfl | h
      · exact Or.inr List.mem_cons_self
      · exact (ih h).imp id (List.mem_cons_of_mem _)

/-- Every entry of the dictionary is one of the list. -/
theorem mem_of_mem_update {d entries : Dict κ α} {e : κ × α} (h : e ∈ update d entries) : e ∈ d ∨ e ∈ entries := by
  induction entries generalizing d with
  | nil => exact Or.inl h
  | cons e' entries ih =>
    rcases ih h with h | h
    · rcases mem_setItem h with rfl | h
      · exact Or.inr List.mem_cons_self
      · exact Or.inl h
    · exact Or.inr (List.mem_cons_of_mem _ h)

theorem mem_of_mem_ofPairs {entries : List (κ × α)} {e : κ × α} (h : e ∈ ofPairs entries) : e ∈ entries :=
  (mem_of_mem_update h).resolve_left (by simp)

theorem nodup_keys_ofPairs (entries : List (κ × α)) : (keys (ofPairs entries)).Nodup :=
  nodup_keys_update (d := []) List.nodup_nil entries

theorem mem_keys_ofPairs (entries : List (κ × α)) (k : κ) : k ∈ keys (ofPairs entries) ↔ k ∈ keys entries := by
  rw [ofPairs, mem_keys_update]
  simp [keys]

theorem mem_of_get? {d : Dict κ α} {k : κ} {v : α} (h : get? d k = some v) : (k, v) ∈ d := by
  induction d with
  | nil => simp at h
  | cons e d ih =>
    obtain ⟨a, b⟩ := e
    by_cases hak : a = k
    · simp_all [get?]
    · simp only [get?, if_neg hak] at h
      exact List.mem_cons_of_mem _ (ih h)

theorem get?_of_mem {d : Dict κ α} (hd : (keys d).Nodup) {k : κ} {v : α} (h : (k, v) ∈ d) : get? d k = some v := by
  induction d with
  | nil => simp at h
  | cons e d ih =>
    have hn : e.1 ∉ keys d ∧ (keys d).Nodup := List.nodup_cons.mp hd
    rcases List.mem_cons.mp h with rfl | h
    · simp [get?]
    · have hne : e.1 ≠ k := fun he => hn.1 (he ▸ List.mem_map_of_mem h)
      rw [get?, if_neg hne]
      exact ih hn.2 h

/-- On distinct keys, assigning replaces the entry of the key and keeps the others. -/
theorem mem_setItem_iff {d : Dict κ α} (hd : (keys d).Nodup) {k : κ} {v : α} {e : κ × α} :
    e ∈ setItem d k v ↔ e = (k, v) ∨ e ∈ d ∧ e.1 ≠ k := by
  have hd' := nodup_keys_setItem hd k v
  obtain ⟨a, b⟩ := e
  constructor
  · intro h
    have hget := get?_of_mem hd' h
    rw [get?_setItem] at hget
    by_cases hka : k = a
    · subst hka
      simp only [if_true, Option.some.injEq] at hget
      exact Or.inl (by rw [hget])
    · rw [if_neg hka] at hget
      exact Or.inr ⟨mem_of_get? hget, fun he => hka he.symm⟩
  · rintro (h | ⟨h, hne⟩)
    · obtain ⟨rfl, rfl⟩ := Prod.mk.inj h
      apply mem_of_get?
      simp [get?_setItem]
    · apply mem_of_get?
      rw [get?_setItem, if_neg fun he => hne he.symm]
      exact get?_of_mem hd h

@[simp] theorem mem_erase {d : Dict κ α} {k : κ} {e : κ × α} : e ∈ erase d k ↔ e ∈ d ∧ e.1 ≠ k := by
  simp [erase]

theorem mem_erase_of_ne {d : Dict κ α} {k : κ} {e : κ × α} (h : e.1 ≠ k) : e ∈ erase d k ↔ e ∈ d := by
  rw [mem_erase]
  exact and_iff_left h

theorem mem_setItem_of_ne {d : Dict κ α} {k : κ} {v : α} {e : κ × α} (h : e.1 ≠ k) : e ∈ setItem d k v ↔ e ∈ d := by
  induction d with
  | nil =>
    have hne : e ≠ (k, v) := fun he => h (by rw [he])
    simp [setItem, hne]
  | cons e' d ih =>
    obtain ⟨a, b⟩ := e'
    by_cases hak : a = k
    · subst hak
      have hne : e ≠ (a, v) := fun he => h (by rw [he])
      have hne' : e ≠ (a, b) := fun he => h (by rw [he])
      simp [setItem, hne, hne']
    · simp [setItem, hak, ih]

theorem mem_keys_erase {d : Dict κ α} {k k' : κ} : k' ∈ keys (erase d k) ↔ k' ∈ keys d ∧ k' ≠ k := by
  simp [keys]

theorem nodup_keys_erase {d : Dict κ α} (h : (keys d).Nodup) (k : κ) : (keys (erase d k)).Nodup :=
  h.sublist (List.Sublist.map Prod.fst List.filter_sublist)

/-- A key that only ever gets one value has that value. -/
theorem get?_ofPairs {entries : List (κ × α)} {k : κ} {v : α} (hmem : (k, v) ∈ entries)
    (hone : ∀ v', (k, v') ∈ entries → v' = v) : get? (ofPairs entries) k = some v := by
  have hkey : k ∈ keys (ofPairs entries) := (mem_keys_ofPairs entries k).mpr (List.mem_map_of_mem hmem)
  obtain ⟨v', hv'⟩ := Option.isSome_iff_exists.mp ((mem_keys_iff _ k).mp hkey)
  rw [hv', hone v' (mem_of_mem_ofPairs (mem_of_get? hv'))]

/-- Records by a key that no other record of the list has. -/
theorem get?_ofPairs_key {key : α → κ} {xs : List α} {x : α} (hx : x ∈ xs) (hone : ∀ y ∈ xs, key y = key x → y = x) :
    get? (ofPairs (xs.map fun y => (key y, y))) (key x) = some x := by
  have hmem : (key x, x) ∈ xs.map fun y => (key y, y) := List.mem_map.mpr ⟨x, hx, rfl⟩
  apply get?_ofPairs hmem
  intro y hy
  obtain ⟨z, hz, hpair⟩ := List.mem_map.mp hy
  obtain ⟨hkey, rfl⟩ := Prod.mk.inj hpair
  exact hone z hz hkey

end Dict

end Crewplane.Lib
