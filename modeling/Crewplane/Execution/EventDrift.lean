import Crewplane.Execution.PublicationRegistry
import Crewplane.Lib.Interleave
import Crewplane.Lib.PyJson
/-
# Drift of the event log (runtime/execution/review_loop/drift/comparison.py, reserved.py)

A guarded call may append to the event log only what the runtime registered, and ambient warnings. `matchLines` is the
greedy scan over the appended lines: it accepts exactly the interleavings of the registered lines with ambient warnings
(`matchLines_iff`), although a registered line may be ambient itself.

A file is `none` where it is absent. `json.loads` may raise what `is_ambient_runtime_warning_event` does not catch (an
integer that is too long), so the check may raise too.
-/
namespace Crewplane.Execution

open Crewplane.Lib Crewplane.Lib.PyJson

abbrev Line := List UInt8

/-- `data.splitlines(keepends=True)`. -/
def splitBytes : List UInt8 → List Line
  | [] => []
  | b :: rest =>
    if b = 10 then [b] :: splitBytes rest
    else
      match splitBytes rest with
      | [] => [[b]]
      | line :: lines => if b = 13 && line ≠ [10] then [b] :: line :: lines else (b :: line) :: lines

/-! ## Ambient warnings -/

/-- `record.get(key) == text`. -/
def hasText (record : List (Str × PyJson.Value)) (key text : String) : Bool :=
  match Dict.get? record (Str.of key) with
  | some (.str s) => s = Str.of text
  | _ => false

def lacks (record : List (Str × PyJson.Value)) (key : String) : Bool := (Dict.get? record (Str.of key)).isNone

def isAmbientRuntimeWarningEvent (line : Line) : Except LoadError Bool :=
  match String.fromUTF8? ⟨line.toArray⟩ with
  | none => .ok false
  | some text =>
    match loads Hooks.default text.toList with
    | .error .decode => .ok false
    | .error e => .error e
    | .ok (.obj record) => .ok (hasText record "event_type" "runtime_log" && hasText record "operation" "runtime_warning" &&
        lacks record "node_id" && lacks record "provider" && lacks record "role" && lacks record "task_id")
    | .ok _ => .ok false

def Ambient (line : Line) : Prop := isAmbientRuntimeWarningEvent line = .ok true

/-! ## Matching -/

/-- The loop of `event_log_append_matches_expected`; `expected` are the lines from `expected_index` on. -/
def matchLines : List Line → List Line → Except LoadError Bool
  | [], expected => .ok expected.isEmpty
  | line :: actual, expected =>
    if expected.head? = some line then matchLines actual expected.tail
    else do
      let ambient ← isAmbientRuntimeWarningEvent line
      if ambient then matchLines actual expected else return false

def eventLogAppendMatchesExpected (actualAppend expectedAppend : List UInt8) : Except LoadError Bool :=
  if actualAppend = expectedAppend then .ok true else matchLines (splitBytes actualAppend) (splitBytes expectedAppend)

/-- The loop of `_contains_lines`; `required` are the lines from `required_index` on, never none. -/
def scanLines : List Line → List Line → Bool
  | [], _ => false
  | line :: container, required =>
    if required.head? ≠ some line then scanLines container required
    else if required.tail = [] then true
    else scanLines container required.tail

def containsLines (container required : List UInt8) : Bool :=
  if required = [] then true else scanLines (splitBytes container) (splitBytes required)

/-! ## The check -/

structure DriftCheckResult where
  warningPaths : List String := []
  fatalPaths : List String := []
  deriving DecidableEq, Repr

structure EventLogExpectation where
  expectedAppend : List UInt8
  strictExpectedAppend : Bool
  registeredAppend : Option (List UInt8)
  registeredOwnedAppend : Option (List UInt8)

def EventLogExpectation.effectiveAppend (e : EventLogExpectation) : List UInt8 := e.registeredAppend.getD e.expectedAppend

/-- `_registered_owned_append_contains_expected`. -/
def ownedContainsExpected (e : EventLogExpectation) : Bool :=
  match e.registeredOwnedAppend with
  | none => true
  | some owned => containsLines owned e.expectedAppend

def fatal (path : String) : DriftCheckResult := { fatalPaths := [path] }

/-- `_detect_new_event_log_drift`. -/
def detectNewEventLogDrift (path : String) (after : Option (List UInt8)) (e : EventLogExpectation) :
    Except LoadError DriftCheckResult :=
  match after with
  | none => .ok {}
  | some data =>
    if !e.strictExpectedAppend then .ok {}
    else if !ownedContainsExpected e then .ok (fatal path)
    else do
      let first ← if e.effectiveAppend = [] then pure false else eventLogAppendMatchesExpected data e.effectiveAppend
      if first then return {}
      let second ← if data = [] then pure false else eventLogAppendMatchesExpected data e.effectiveAppend
      if second then return {} else return fatal path

/-- `_detect_existing_event_log_drift`. -/
def detectExistingEventLogDrift (path : String) (actualAppend : List UInt8) (e : EventLogExpectation) :
    Except LoadError DriftCheckResult :=
  if !ownedContainsExpected e then .ok (fatal path)
  else do
    let matched ← eventLogAppendMatchesExpected actualAppend e.effectiveAppend
    if matched then return {} else return fatal path

def detectEventLogDrift (path : String) (before after : Option (List UInt8)) (e : EventLogExpectation) :
    Except LoadError DriftCheckResult :=
  match before, after with
  | none, after => detectNewEventLogDrift path after e
  | some _, none => .ok (fatal path)
  | some before, some after =>
    if after.length < before.length || !before.isPrefixOf after then .ok (fatal path)
    else if !e.strictExpectedAppend then .ok {}
    else detectExistingEventLogDrift path (after.drop before.length) e

/-- What a call captured since its start: the lines of its own events, and its id. -/
structure EventLogAppendCapture (Owner : Type) where
  ownerId : Owner
  lines : List Line

section Observation

variable {Owner : Type} [DecidableEq Owner]

/-- `_registered_event_appends` of the publications since the cursor. -/
def registeredEventAppends (publications : List (RuntimeEventPublication Owner))
    (capture : Option (EventLogAppendCapture Owner)) : List UInt8 × Option (List UInt8) :=
  ((publications.map (·.line)).flatten,
    capture.map fun c => ((publications.filter fun p => p.ownerId = c.ownerId).map (·.line)).flatten)

/-- `_expected_event_append`. -/
def expectedEventAppend (capture : Option (EventLogAppendCapture Owner)) : List UInt8 :=
  match capture with
  | none => []
  | some c => c.lines.flatten

/-- `detect_event_log_append_drift` where the runtime registers its lines, which makes the check strict. -/
def detectEventLogAppendDrift (path : String) (before after : Option (List UInt8))
    (publications : List (RuntimeEventPublication Owner)) (capture : Option (EventLogAppendCapture Owner)) :
    Except LoadError DriftCheckResult :=
  let registered := registeredEventAppends publications capture
  detectEventLogDrift path before after
    { expectedAppend := expectedEventAppend capture, strictExpectedAppend := true, registeredAppend := some registered.1
      registeredOwnedAppend := registered.2 }

end Observation

/-! ## What the scans decide -/

theorem matchLines_iff {actual expected : List Line} :
    matchLines actual expected = .ok true ↔ Interleaves Ambient expected actual := by
  induction actual generalizing expected with
  | nil =>
    rw [matchLines, Interleaves.nil_iff, Except.ok.injEq, List.isEmpty_iff]
  | cons line actual ih =>
    unfold matchLines
    by_cases hnext : expected.head? = some line
    · obtain ⟨rest, rfl⟩ := List.head?_eq_some_iff.mp hnext
      rw [if_pos hnext, List.tail_cons, ih]
      exact ⟨.fixed, Interleaves.take_first⟩
    · rw [if_neg hnext]
      constructor
      · intro h
        cases hambient : isAmbientRuntimeWarningEvent line with
        | error e => simp [hambient, bind, Except.bind] at h
        | ok ambient =>
          cases ambient with
          | false => simp [hambient, bind, Except.bind, pure, Except.pure] at h
          | true =>
            simp only [hambient, bind, Except.bind, if_true] at h
            exact .between hambient (ih.mp h)
      · intro h
        obtain ⟨hambient, hrest⟩ := h.skip hnext
        have hline : isAmbientRuntimeWarningEvent line = .ok true := hambient
        simp only [hline, bind, Except.bind, if_true]
        exact ih.mpr hrest

theorem eventLogAppendMatchesExpected_iff {actualAppend expectedAppend : List UInt8} :
    eventLogAppendMatchesExpected actualAppend expectedAppend = .ok true ↔
      Interleaves Ambient (splitBytes expectedAppend) (splitBytes actualAppend) := by
  unfold eventLogAppendMatchesExpected
  split
  next heq =>
    rw [heq]
    exact iff_of_true rfl (.refl _)
  next => exact matchLines_iff

theorem scanLines_iff {container required : List Line} (hne : required ≠ []) :
    scanLines container required = true ↔ required.Sublist container := by
  induction container generalizing required with
  | nil => simp [scanLines, hne]
  | cons line container ih =>
    unfold scanLines
    by_cases hnext : required.head? = some line
    · obtain ⟨rest, rfl⟩ := List.head?_eq_some_iff.mp hnext
      rw [if_neg (not_not_intro hnext), List.tail_cons, List.cons_sublist_cons]
      by_cases hrest : rest = []
      · simp [hrest]
      · rw [if_neg hrest, ih hrest]
    · rw [if_pos hnext, ih hne]
      exact ⟨fun h => h.cons line, sublist_cons_of_head_ne hnext⟩

/-! ## Lines -/

/-- One line: it ends with a line feed, and no other line end is in it. -/
def IsLine (line : Line) : Prop := ∃ text, line = text ++ [10] ∧ ∀ b ∈ text, b ≠ 10 ∧ b ≠ 13

theorem splitBytes_line {text rest : List UInt8} (h : ∀ b ∈ text, b ≠ 10 ∧ b ≠ 13) :
    splitBytes (text ++ 10 :: rest) = (text ++ [10]) :: splitBytes rest := by
  induction text with
  | nil => simp [splitBytes]
  | cons b text ih =>
    obtain ⟨⟨hfeed, hreturn⟩, htext⟩ := List.forall_mem_cons.mp h
    rw [List.cons_append, splitBytes, if_neg hfeed, ih htext]
    simp [hreturn]

theorem splitBytes_flatten {lines : List Line} (h : ∀ line ∈ lines, IsLine line) : splitBytes lines.flatten = lines := by
  induction lines with
  | nil => rfl
  | cons line lines ih =>
    obtain ⟨⟨text, rfl, htext⟩, hlines⟩ := List.forall_mem_cons.mp h
    rw [List.flatten_cons, List.append_assoc, List.singleton_append, splitBytes_line htext, ih hlines]

theorem flatten_eq_nil {lines : List Line} (h : ∀ line ∈ lines, IsLine line) : lines.flatten = [] ↔ lines = [] := by
  constructor
  · intro hnil
    have := splitBytes_flatten h
    rw [hnil] at this
    exact this.symm
  · rintro rfl
    rfl

theorem containsLines_iff {container required : List Line} (hcontainer : ∀ line ∈ container, IsLine line)
    (hrequired : ∀ line ∈ required, IsLine line) :
    containsLines container.flatten required.flatten = true ↔ required.Sublist container := by
  unfold containsLines
  split
  next hnil => simp [(flatten_eq_nil hrequired).mp hnil]
  next hne =>
    rw [splitBytes_flatten hcontainer, splitBytes_flatten hrequired]
    exact scanLines_iff fun h => hne (by rw [h, List.flatten_nil])

/-! ## The event log -/

section EventLog

variable {Owner : Type} [DecidableEq Owner]

/-- The lines that were registered under an owner. -/
def ownedLines (publications : List (RuntimeEventPublication Owner)) (ownerId : Owner) : List Line :=
  (publications.filter fun p => p.ownerId = ownerId).map (·.line)

/-- The call's own lines are registered under its owner, in their order. -/
def OwnRegistered (publications : List (RuntimeEventPublication Owner)) (capture : Option (EventLogAppendCapture Owner)) : Prop :=
  ∀ c, capture = some c → c.lines.Sublist (ownedLines publications c.ownerId)

/-- What was appended interleaves the registered lines with ambient warnings. An absent log is empty. -/
def AppendedRegistered (before after : Option (List UInt8)) (publications : List (RuntimeEventPublication Owner)) : Prop :=
  ∃ appended, after.getD [] = before.getD [] ++ appended ∧
    Interleaves Ambient (publications.map (·.line)) (splitBytes appended)

variable {publications : List (RuntimeEventPublication Owner)} {capture : Option (EventLogAppendCapture Owner)}

/-- The expectation of a call where lines are registered. -/
def registeredExpectation (publications : List (RuntimeEventPublication Owner)) (capture : Option (EventLogAppendCapture Owner)) :
    EventLogExpectation :=
  { expectedAppend := expectedEventAppend capture, strictExpectedAppend := true
    registeredAppend := some (publications.map (·.line)).flatten
    registeredOwnedAppend := capture.map fun c => (ownedLines publications c.ownerId).flatten }

theorem ownedContainsExpected_iff (hlines : ∀ p ∈ publications, IsLine p.line)
    (hown : ∀ c, capture = some c → ∀ line ∈ c.lines, IsLine line) :
    ownedContainsExpected (registeredExpectation publications capture) = true ↔ OwnRegistered publications capture := by
  cases capture with
  | none => simp [ownedContainsExpected, registeredExpectation, OwnRegistered]
  | some c =>
    have howned : ∀ line ∈ ownedLines publications c.ownerId, IsLine line := by
      intro line hline
      obtain ⟨p, hp, rfl⟩ := List.mem_map.mp hline
      exact hlines p (List.mem_filter.mp hp).1
    have hiff := containsLines_iff howned (hown c rfl)
    simp only [OwnRegistered, Option.some.injEq]
    exact ⟨fun h d hd => hd ▸ hiff.mp h, fun h => hiff.mpr (h c rfl)⟩

theorem matches_iff (hlines : ∀ p ∈ publications, IsLine p.line) (appended : List UInt8) :
    eventLogAppendMatchesExpected appended (registeredExpectation publications capture).effectiveAppend = .ok true ↔
      Interleaves Ambient (publications.map (·.line)) (splitBytes appended) := by
  have hall : ∀ line ∈ publications.map (·.line), IsLine line := by
    intro line hline
    obtain ⟨p, hp, rfl⟩ := List.mem_map.mp hline
    exact hlines p hp
  rw [eventLogAppendMatchesExpected_iff]
  simp only [registeredExpectation, EventLogExpectation.effectiveAppend, Option.getD_some, splitBytes_flatten hall]

theorem detectExistingEventLogDrift_iff (path : String) (appended : List UInt8) (e : EventLogExpectation) :
    detectExistingEventLogDrift path appended e = .ok {} ↔
      ownedContainsExpected e = true ∧ eventLogAppendMatchesExpected appended e.effectiveAppend = .ok true := by
  unfold detectExistingEventLogDrift
  cases howned : ownedContainsExpected e with
  | false => simp [fatal]
  | true =>
    cases hmatch : eventLogAppendMatchesExpected appended e.effectiveAppend with
    | error err => simp [bind, Except.bind]
    | ok matched => cases matched <;> simp [bind, Except.bind, pure, Except.pure, fatal]

theorem detectNewEventLogDrift_ok {path : String} {data : List UInt8} {e : EventLogExpectation} (hstrict : e.strictExpectedAppend = true)
    (h : detectNewEventLogDrift path (some data) e = .ok {}) :
    ownedContainsExpected e = true ∧ eventLogAppendMatchesExpected data e.effectiveAppend = .ok true := by
  unfold detectNewEventLogDrift at h
  cases howned : ownedContainsExpected e with
  | false => simp [hstrict, howned, fatal] at h
  | true =>
    refine ⟨rfl, ?_⟩
    cases hmatch : eventLogAppendMatchesExpected data e.effectiveAppend with
    | error err =>
      simp only [hstrict, howned, hmatch] at h
      by_cases hexpected : e.effectiveAppend = [] <;> by_cases hdata : data = [] <;>
        simp [hexpected, hdata, bind, Except.bind, pure, Except.pure, fatal] at h
    | ok matched =>
      cases matched with
      | true => rfl
      | false =>
        simp only [hstrict, howned, hmatch] at h
        by_cases hexpected : e.effectiveAppend = [] <;> by_cases hdata : data = [] <;>
          simp [hexpected, hdata, bind, Except.bind, pure, Except.pure, fatal] at h

/-- A check that reports nothing: the own lines are registered and the log holds what was registered, unless the log was
absent before and after. Every other log of that shape passes where the log existed before. -/
theorem event_log_drift (path : String) (before after : Option (List UInt8)) (publications : List (RuntimeEventPublication Owner))
    (capture : Option (EventLogAppendCapture Owner)) (hlines : ∀ p ∈ publications, IsLine p.line)
    (hown : ∀ c, capture = some c → ∀ line ∈ c.lines, IsLine line) :
    (¬(before = none ∧ after = none) → detectEventLogAppendDrift path before after publications capture = .ok {} →
      OwnRegistered publications capture ∧ AppendedRegistered before after publications) ∧
    (before.isSome = true → after.isSome = true → OwnRegistered publications capture →
      AppendedRegistered before after publications → detectEventLogAppendDrift path before after publications capture = .ok {}) := by
  have hsame : detectEventLogAppendDrift path before after publications capture =
      detectEventLogDrift path before after (registeredExpectation publications capture) := rfl
  rw [hsame]
  have howned := ownedContainsExpected_iff hlines hown
  cases before with
  | none =>
    refine ⟨fun hpresent h => ?_, fun hbefore => by cases hbefore⟩
    cases after with
    | none => exact absurd ⟨rfl, rfl⟩ hpresent
    | some data =>
      have hnew : detectNewEventLogDrift path (some data) (registeredExpectation publications capture) = .ok {} := h
      obtain ⟨hcontains, hmatch⟩ := detectNewEventLogDrift_ok rfl hnew
      exact ⟨howned.mp hcontains, data, rfl, (matches_iff hlines data).mp hmatch⟩
  | some old =>
    cases after with
    | none => exact ⟨fun _ h => by simp [detectEventLogDrift, fatal] at h, fun _ hafter => by cases hafter⟩
    | some data =>
      constructor
      · intro _ h
        unfold detectEventLogDrift at h
        dsimp only at h
        split at h
        next => simp [fatal] at h
        next hpre =>
          rw [Bool.or_eq_true, not_or, Bool.not_eq_true', Bool.not_eq_false, List.isPrefixOf_iff_prefix] at hpre
          obtain ⟨appended, rfl⟩ := hpre.2
          rw [List.drop_left] at h
          obtain ⟨hcontains, hmatch⟩ := (detectExistingEventLogDrift_iff path appended _).mp h
          exact ⟨howned.mp hcontains, appended, rfl, (matches_iff hlines appended).mp hmatch⟩
      · rintro - - hregistered ⟨appended, hdata, hinterleaves⟩
        simp only [Option.getD_some] at hdata
        subst hdata
        unfold detectEventLogDrift
        dsimp only
        rw [if_neg (by simp), List.drop_left]
        exact (detectExistingEventLogDrift_iff path appended _).mpr
          ⟨howned.mpr hregistered, (matches_iff hlines appended).mpr hinterleaves⟩

end EventLog

/-- A log that is absent before and after is not checked: the registered line is lost. -/
theorem absent_log_unchecked :
    detectEventLogAppendDrift "events.ndjson" none none [(⟨"call", [123, 125, 10]⟩ : RuntimeEventPublication String)] none = .ok {} ∧
      ¬AppendedRegistered none none [(⟨"call", [123, 125, 10]⟩ : RuntimeEventPublication String)] := by
  refine ⟨rfl, ?_⟩
  rintro ⟨appended, hdata, hinterleaves⟩
  have hnil : appended = [] := hdata.symm
  rw [hnil, splitBytes, Interleaves.nil_iff] at hinterleaves
  cases hinterleaves

/-- A call whose one line is registered and appended. -/
theorem event_log_drift_appended : detectEventLogAppendDrift "events.ndjson" (some [10]) (some [10, 123, 125, 10])
    [(⟨"call", [123, 125, 10]⟩ : RuntimeEventPublication String)] (some ⟨"call", [[123, 125, 10]]⟩) = .ok {} := by
  have hline : IsLine [123, 125, 10] := ⟨[123, 125], rfl, by simp⟩
  have hlines : ∀ p ∈ [(⟨"call", [123, 125, 10]⟩ : RuntimeEventPublication String)], IsLine p.line := by
    intro p hp
    rw [List.mem_singleton.mp hp]
    exact hline
  have hown : ∀ c, some (⟨"call", [[123, 125, 10]]⟩ : EventLogAppendCapture String) = some c → ∀ line ∈ c.lines, IsLine line := by
    intro c hc line hmem
    cases hc
    rw [List.mem_singleton.mp hmem]
    exact hline
  have hregistered : OwnRegistered [(⟨"call", [123, 125, 10]⟩ : RuntimeEventPublication String)] (some ⟨"call", [[123, 125, 10]]⟩) := by
    intro c hc
    cases hc
    exact List.Sublist.refl _
  have happended : AppendedRegistered (some [10]) (some [10, 123, 125, 10])
      [(⟨"call", [123, 125, 10]⟩ : RuntimeEventPublication String)] :=
    ⟨[123, 125, 10], rfl, Interleaves.refl [[123, 125, 10]]⟩
  exact (event_log_drift "events.ndjson" _ _ _ _ hlines hown).2 rfl rfl hregistered happended

end Crewplane.Execution
