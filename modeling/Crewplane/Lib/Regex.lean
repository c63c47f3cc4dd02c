import Mathlib.Data.List.Basic
/-
# Backtracking patterns

A pattern of Python's `re` as data, with its matches at a position in the order in which the matcher tries them: the first
alternative before the second, more repetitions before fewer. Look-around is a test of the character before the position
and of the text after it. What a match and its groups hold is a word of the pattern (`run_sound`).
-/
namespace Crewplane.Lib.Regex

abbrev Text := List Char

inductive Re where
  | eps
  | chars (p : Char → Bool)
  | seq (a b : Re)
  | alt (a b : Re)
  | star (a : Re)
  | test (p : Option Char → Text → Bool)
  | group (name : String) (a : Re)

/-- A position: the character before it, the text after it and the groups so far. -/
structure State where
  before : Option Char
  rest : Text
  groups : List (String × Text)

/-- Greedy repetition of a step that reads something, at most `k` times. -/
def iterate (step : State → List State) : Nat → State → List State
  | 0, st => [st]
  | k + 1, st => ((step st).filter fun next => next.rest.length < st.rest.length).flatMap (iterate step k) ++ [st]

def Re.run : Re → State → List State
  | .eps, st => [st]
  | .chars p, st =>
    match st.rest with
    | [] => []
    | c :: rest => if p c then [⟨some c, rest, st.groups⟩] else []
  | .seq a b, st => (a.run st).flatMap b.run
  | .alt a b, st => a.run st ++ b.run st
  | .star a, st => iterate a.run st.rest.length st
  | .test p, st => if p st.before st.rest then [st] else []
  | .group name a, st => (a.run st).map fun next =>
      ⟨next.before, next.rest, (name, st.rest.take (st.rest.length - next.rest.length)) :: next.groups⟩

/-! ## More patterns -/

namespace Re

def opt (a : Re) : Re := .alt a .eps

def plus (a : Re) : Re := .seq a (.star a)

/-- `a{n}`. -/
def times (a : Re) : Nat → Re
  | 0 => .eps
  | n + 1 => .seq a (times a n)

/-- `a{0,n}`. -/
def upTo (a : Re) : Nat → Re
  | 0 => .eps
  | n + 1 => opt (.seq a (upTo a n))

def all : List Re → Re
  | [] => .eps
  | [a] => a
  | a :: rest => .seq a (all rest)

def any : List Re → Re
  | [] => .test fun _ _ => false
  | [a] => a
  | a :: rest => .alt a (any rest)

/-- What follows is, or is not, matched by `a`. -/
def ahead (a : Re) : Re := .test fun before rest => !(a.run ⟨before, rest, []⟩).isEmpty

def notAhead (a : Re) : Re := .test fun before rest => (a.run ⟨before, rest, []⟩).isEmpty

end Re

/-! ## Searching -/

structure Found where
  text : Text
  groups : List (String × Text)

/-- `match.group(name)`. -/
def Found.group (found : Found) (name : String) : Text := (found.groups.lookup name).getD []

def Re.matchAt (r : Re) (before : Option Char) (text : Text) : Option Found :=
  (r.run ⟨before, text, []⟩).head?.map fun last => ⟨text.take (text.length - last.rest.length), last.groups⟩

/-- `pattern.finditer(text)`, for a pattern that matches no empty text, from a position on; `skip` characters of the last
match are still to pass. -/
def Re.findFrom (r : Re) : Option Char → Nat → Text → List Found
  | _, _, [] => []
  | _, skip + 1, c :: rest => r.findFrom (some c) skip rest
  | before, 0, c :: rest =>
    match r.matchAt before (c :: rest) with
    | none => r.findFrom (some c) 0 rest
    | some found => found :: r.findFrom (some c) (found.text.length - 1) rest

def Re.findIter (r : Re) (text : Text) : List Found := r.findFrom none 0 text

/-- `pattern.search(text)` finds a match. -/
def Re.search (r : Re) (text : Text) : Bool := !(r.findIter text).isEmpty

/-- The match at the start of a text, where it takes up all of it. -/
def Re.wholeMatch (r : Re) (text : Text) : Option Found :=
  (r.matchAt none text).filter fun found => found.text.length = text.length

/-! ## Words -/

/-- The words of a pattern, whatever stands around them. -/
def Re.Spells : Re → Text → Prop
  | .eps, w => w = []
  | .chars p, w => ∃ c, w = [c] ∧ p c = true
  | .seq a b, w => ∃ u v, w = u ++ v ∧ a.Spells u ∧ b.Spells v
  | .alt a b, w => a.Spells w ∨ b.Spells w
  | .star a, w => ∃ parts : List Text, w = parts.flatten ∧ ∀ part ∈ parts, a.Spells part
  | .test _, w => w = []
  | .group _ a, w => a.Spells w

/-- `(?P<name>body)` is a part of the pattern. -/
def Re.HasGroup : Re → String → Re → Prop
  | .group n a, name, body => (n = name ∧ a = body) ∨ a.HasGroup name body
  | .seq a b, name, body => a.HasGroup name body ∨ b.HasGroup name body
  | .alt a b, name, body => a.HasGroup name body ∨ b.HasGroup name body
  | .star a, name, body => a.HasGroup name body
  | _, _, _ => False

/-- What a run of `r` from `st` to `next` reads is a word, and so is what its groups hold. -/
structure Reads (r : Re) (st next : State) : Prop where
  word : ∃ w, st.rest = w ++ next.rest ∧ r.Spells w
  groups : ∀ found ∈ next.groups, found ∈ st.groups ∨ ∃ body, r.HasGroup found.1 body ∧ body.Spells found.2

theorem iterate_reads {a : Re} (ha : ∀ st, ∀ next ∈ a.run st, Reads a st next) : ∀ (k : Nat) (st : State),
    ∀ next ∈ iterate a.run k st, Reads (.star a) st next := by
  intro k
  induction k with
  | zero =>
    intro st next hnext
    rw [iterate, List.mem_singleton] at hnext
    subst hnext
    exact ⟨⟨[], rfl, [], rfl, by simp⟩, fun found hfound => Or.inl hfound⟩
  | succ k ih =>
    intro st next hnext
    rw [iterate, List.mem_append, List.mem_flatMap] at hnext
    rcases hnext with ⟨middle, hmiddle, hlater⟩ | hhere
    · obtain ⟨⟨u, hu, hspells⟩, hgroups⟩ := ha st middle (List.mem_filter.mp hmiddle).1
      obtain ⟨⟨v, hv, parts, hparts, hall⟩, hlaterGroups⟩ := ih middle next hlater
      refine ⟨⟨u ++ v, ?_, u :: parts, ?_, ?_⟩, ?_⟩
      · rw [hu, hv, List.append_assoc]
      · rw [hparts, List.flatten_cons]
      · intro part hpart
        rcases List.mem_cons.mp hpart with rfl | hpart
        · exact hspells
        · exact hall part hpart
      · intro found hfound
        rcases hlaterGroups found hfound with h | h
        · exact hgroups found h
        · exact Or.inr h
    · rw [List.mem_singleton] at hhere
      subst hhere
      exact ⟨⟨[], rfl, [], rfl, by simp⟩, fun found hfound => Or.inl hfound⟩

/-- **Soundness of the matcher.** -/
theorem run_sound (r : Re) : ∀ st, ∀ next ∈ r.run st, Reads r st next := by
  induction r with
  | eps =>
    intro st next hnext
    rw [Re.run, List.mem_singleton] at hnext
    subst hnext
    exact ⟨⟨[], rfl, rfl⟩, fun found hfound => Or.inl hfound⟩
  | chars p =>
    intro st next hnext
    rw [Re.run] at hnext
    cases hrest : st.rest with
    | nil => simp [hrest] at hnext
    | cons c rest =>
      rw [hrest] at hnext
      by_cases hp : p c = true
      · simp only [if_pos hp, List.mem_singleton] at hnext
        subst hnext
        exact ⟨⟨[c], hrest, c, rfl, hp⟩, fun found hfound => Or.inl hfound⟩
      · simp [hp] at hnext
  | seq a b iha ihb =>
    intro st next hnext
    rw [Re.run, List.mem_flatMap] at hnext
    obtain ⟨middle, hmiddle, hlater⟩ := hnext
    obtain ⟨⟨u, hu, huSpells⟩, hgroups⟩ := iha st middle hmiddle
    obtain ⟨⟨v, hv, hvSpells⟩, hlaterGroups⟩ := ihb middle next hlater
    refine ⟨⟨u ++ v, by rw [hu, hv, List.append_assoc], u, v, rfl, huSpells, hvSpells⟩, ?_⟩
    intro found hfound
    rcases hlaterGroups found hfound with h | ⟨body, hbody, hword⟩
    · rcases hgroups found h with h | ⟨body, hbody, hword⟩
      · exact Or.inl h
      · exact Or.inr ⟨body, Or.inl hbody, hword⟩
    · exact Or.inr ⟨body, Or.inr hbody, hword⟩
  | alt a b iha ihb =>
    intro st next hnext
    rw [Re.run, List.mem_append] at hnext
    rcases hnext with h | h
    · obtain ⟨⟨w, hw, hspells⟩, hgroups⟩ := iha st next h
      refine ⟨⟨w, hw, Or.inl hspells⟩, fun found hfound => ?_⟩
      rcases hgroups found hfound with h | ⟨body, hbody, hword⟩
      · exact Or.inl h
      · exact Or.inr ⟨body, Or.inl hbody, hword⟩
    · obtain ⟨⟨w, hw, hspells⟩, hgroups⟩ := ihb st next h
      refine ⟨⟨w, hw, Or.inr hspells⟩, fun found hfound => ?_⟩
      rcases hgroups found hfound with h | ⟨body, hbody, hword⟩
      · exact Or.inl h
      · exact Or.inr ⟨body, Or.inr hbody, hword⟩
  | star a ih =>
    intro st next hnext
    rw [Re.run] at hnext
    exact iterate_reads ih _ st next hnext
  | test p =>
    intro st next hnext
    rw [Re.run] at hnext
    split at hnext
    · rw [List.mem_singleton] at hnext
      subst hnext
      exact ⟨⟨[], rfl, rfl⟩, fun found hfound => Or.inl hfound⟩
    · simp at hnext
  | group name a ih =>
    intro st next hnext
    rw [Re.run, List.mem_map] at hnext
    obtain ⟨last, hlast, rfl⟩ := hnext
    obtain ⟨⟨w, hw, hspells⟩, hgroups⟩ := ih st last hlast
    have htaken : st.rest.take (st.rest.length - last.rest.length) = w := by
      rw [hw, List.length_append, Nat.add_sub_cancel, List.take_left]
    refine ⟨⟨w, hw, hspells⟩, fun found hfound => ?_⟩
    rcases List.mem_cons.mp hfound with rfl | hfound
    · exact Or.inr ⟨a, Or.inl ⟨rfl, rfl⟩, by rw [htaken]; exact hspells⟩
    · rcases hgroups found hfound with h | ⟨body, hbody, hword⟩
      · exact Or.inl h
      · exact Or.inr ⟨body, Or.inr hbody, hword⟩

/-- The groups of a match hold words. -/
theorem spells_of_findFrom {r : Re} {text : Text} {found : Found} : ∀ {before : Option Char} {skip : Nat},
    found ∈ r.findFrom before skip text → ∀ entry ∈ found.groups, ∃ body, r.HasGroup entry.1 body ∧ body.Spells entry.2 := by
  induction text with
  | nil => simp [Re.findFrom]
  | cons c rest ih =>
    intro before skip hfound
    cases skip with
    | succ skip => exact ih hfound
    | zero =>
      rw [Re.findFrom] at hfound
      cases hmatch : r.matchAt before (c :: rest) with
      | none =>
        rw [hmatch] at hfound
        exact ih hfound
      | some first =>
        rw [hmatch] at hfound
        rcases List.mem_cons.mp hfound with rfl | hlater
        · intro entry hentry
          rw [Re.matchAt, Option.map_eq_some_iff] at hmatch
          obtain ⟨last, hlast, rfl⟩ := hmatch
          rcases (run_sound r _ last (List.mem_of_head? hlast)).groups entry hentry with h | h
          · simp at h
          · exact h
        · exact ih hlater

theorem spells_group {r : Re} {text : Text} {found : Found} (h : found ∈ r.findIter text) (name : String) :
    found.group name = [] ∨ ∃ body, r.HasGroup name body ∧ body.Spells (found.group name) := by
  rw [Found.group]
  cases hvalue : found.groups.lookup name with
  | none => exact Or.inl rfl
  | some value =>
    rw [List.lookup_eq_some_iff] at hvalue
    obtain ⟨front, back, hsplit, -⟩ := hvalue
    have hmem : (name, value) ∈ found.groups := by
      rw [hsplit]
      exact List.mem_append_right _ List.mem_cons_self
    exact Or.inr (spells_of_findFrom h (name, value) hmem)

/-! ## Words of classes -/

theorem spells_times_chars {p : Char → Bool} {n : Nat} : ∀ {w : Text}, (Re.times (.chars p) n).Spells w →
    w.length = n ∧ ∀ c ∈ w, p c = true := by
  induction n with
  | zero =>
    intro w hw
    rw [Re.times, Re.Spells] at hw
    simp [hw]
  | succ n ih =>
    rintro w ⟨u, v, rfl, ⟨c, rfl, hc⟩, hv⟩
    obtain ⟨hlength, hall⟩ := ih hv
    simp [hlength, hc]
    exact hall

end Crewplane.Lib.Regex
