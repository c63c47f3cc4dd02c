import Crewplane.Quota.Classifier
/-
# When a quota stop is decided

Provider text can make the classification raise: a timestamp near the ends of the years 1 to 9999 leaves them in UTC, and a
duration can be too long for a float, which the decision cannot write. And a wait can be read at the wrong place: it is
looked up in the lowercased line and cut out of the line itself. `Fits` is what a line must be like, and nothing else goes
wrong (`survives_iff`).
-/
namespace Crewplane.Quota

open Crewplane.Lib Crewplane.Lib.Regex Crewplane.Lib.Calendar
open Crewplane.Process (CharTables floatOf digitsValue digitsValue_lt)
open Crewplane.Invocation (Host CommandResult AgentConfig QuotaClock OneShotFailureRetryPolicy QuotaRetryDecision)

/-! ## Returning -/

def Returns {ε α : Type} (x : Except ε α) : Prop := ∃ a, x = .ok a

theorem returns_ok {ε α : Type} (a : α) : Returns (.ok a : Except ε α) := ⟨a, rfl⟩

theorem bind_eq_ok {ε α β : Type} {x : Except ε α} {f : α → Except ε β} {b : β} :
    (x >>= f) = .ok b ↔ ∃ a, x = .ok a ∧ f a = .ok b := by
  cases x with
  | error e => simp [bind, Except.bind]
  | ok a => simp [bind, Except.bind]

theorem returns_bind {ε α β : Type} {x : Except ε α} {f : α → Except ε β} :
    Returns (x >>= f) ↔ ∃ a, x = .ok a ∧ Returns (f a) := by
  simp only [Returns, bind_eq_ok]
  constructor
  · rintro ⟨b, a, ha, hb⟩
    exact ⟨a, ha, b, hb⟩
  · rintro ⟨a, ha, b, hb⟩
    exact ⟨b, a, ha, hb⟩

theorem returns_pure {ε α : Type} (a : α) : Returns (pure a : Except ε α) := ⟨a, rfl⟩

theorem returns_bind_pure {ε α β : Type} {x : Except ε α} {f : α → β} :
    Returns (do let a ← x; pure (f a)) ↔ Returns x := by
  rw [returns_bind]
  constructor
  · rintro ⟨a, ha, -⟩
    exact ⟨a, ha⟩
  · rintro ⟨a, ha⟩
    exact ⟨a, ha, returns_pure _⟩

/-- Two steps of which the second does not need the first. -/
theorem returns_both {ε α β γ : Type} {x : Except ε α} {y : Except ε β} {f : α → β → Except ε γ}
    (hf : ∀ a b, Returns (f a b)) : Returns (do let a ← x; let b ← y; f a b) ↔ Returns x ∧ Returns y := by
  simp only [returns_bind]
  constructor
  · rintro ⟨a, ha, b, hb, -⟩
    exact ⟨⟨a, ha⟩, b, hb⟩
  · rintro ⟨⟨a, ha⟩, b, hb⟩
    exact ⟨a, ha, b, hb, hf a b⟩

theorem checkRange_eq_ok {point q : Int} : checkRange point = .ok q ↔ InRange point ∧ q = point := by
  rw [checkRange]
  split
  next h => simp [h, eq_comm]
  next h => simp [h]

theorem returns_checkRange {point : Int} : Returns (checkRange point) ↔ InRange point := by
  simp only [Returns, checkRange_eq_ok]
  exact ⟨fun h => h.choose_spec.1, fun h => ⟨point, h, rfl⟩⟩

theorem returns_collect {α : Type} {f : α → Except QuotaError (Option Wait)} {xs : List α} :
    Returns (collect f xs) ↔ ∀ a ∈ xs, Returns (f a) := by
  induction xs with
  | nil => simp [collect, returns_ok]
  | cons a rest ih =>
    rw [collect, returns_bind, List.forall_mem_cons, ← ih]
    constructor
    · rintro ⟨wait, hwait, hrest⟩
      obtain ⟨waits, hwaits, -⟩ := returns_bind.mp hrest
      exact ⟨⟨wait, hwait⟩, waits, hwaits⟩
    · rintro ⟨⟨wait, hwait⟩, waits, hwaits⟩
      exact ⟨wait, hwait, returns_bind.mpr ⟨waits, hwaits, returns_ok _⟩⟩

theorem mem_collect {α : Type} {f : α → Except QuotaError (Option Wait)} {xs : List α} : ∀ {waits : List Wait},
    collect f xs = .ok waits → ∀ wait ∈ waits, ∃ a ∈ xs, f a = .ok (some wait) := by
  induction xs with
  | nil =>
    intro waits h
    cases h
    simp
  | cons a rest ih =>
    intro waits h wait hwait
    rw [collect] at h
    obtain ⟨first, hfirst, h⟩ := bind_eq_ok.mp h
    obtain ⟨later, hlater, h⟩ := bind_eq_ok.mp h
    cases h
    rcases List.mem_append.mp hwait with hmem | hmem
    · refine ⟨a, List.mem_cons_self, ?_⟩
      rw [Option.mem_toList] at hmem
      rw [hfirst, hmem]
    · obtain ⟨b, hb, hfb⟩ := ih hlater wait hmem
      exact ⟨b, List.mem_cons_of_mem a hb, hfb⟩

/-! ## Positions in the lowercased line -/

namespace CaseTables

variable (t : CaseTables)

/-- How many characters of a text are needed for the first `n` characters of its lowercase form. -/
def covering : Text → Text → Nat → Nat
  | _, [], _ => 0
  | _, _ :: _, 0 => 0
  | before, c :: rest, n + 1 => covering (before ++ [c]) rest (n + 1 - (t.lowerAt before rest c).length) + 1

theorem covering_le (text : Text) : ∀ (before : Text) (n : Nat), t.covering before text n ≤ n := by
  induction text with
  | nil => simp [covering]
  | cons c rest ih =>
    intro before n
    cases n with
    | zero => simp [covering]
    | succ n =>
      have hpos : 0 < (t.lowerAt before rest c).length := List.length_pos_iff.mpr (t.lowerAt_ne_nil before rest c)
      have hrest := ih (before ++ [c]) (n + 1 - (t.lowerAt before rest c).length)
      rw [covering]
      omega

end CaseTables

section Lines

variable (t : CaseTables) (u : CharTables) (clocks : Clocks)

/-- What follows, in the line, an occurrence that ends at a place of the lowercased line. -/
def following (line : Text) (stop : Nat) : Text := line.drop (t.covering [] line stop)

/-- How many characters lowercasing has added up to that place. -/
def added (line : Text) (stop : Nat) : Nat := stop - t.covering [] line stop

theorem drop_following (line : Text) (stop : Nat) : (following t line stop).drop (added t line stop) = line.drop stop := by
  have hle := t.covering_le line [] stop
  rw [following, added, List.drop_drop]
  congr 1
  omega

/-- The points of time on the way from a clock time in a zone to UTC. -/
def localResetPoints (zone : Zone) (clock : Nat × Nat) (now : Int) : List Int :=
  let next := nextLocalReset clock (now + zone.fromUtc now) (zone.fold now)
  [now + zone.fromUtc now, next.1, next.1 - zone.utcOffset next.2 next.1]

/-- What a line must be like for its waits to be read, and read at the right places. -/
structure Fits (now : Int) (line : Text) : Prop where
  /-- As many characters as lowercasing added can be left out after the phrase. -/
  positions : ∀ phrase ∈ relativeResetPhrases, ∀ stop ∈ occurrenceEnds phrase.toList (t.lower line),
    parseDurationSeconds t u ((following t line stop).drop (added t line stop)) = parseDurationSeconds t u (following t line stop)
  /-- The durations after the phrase add up to a finite float. -/
  durations : ∀ phrase ∈ relativeResetPhrases, ∀ stop ∈ occurrenceEnds phrase.toList (t.lower line),
    parseDurationSeconds t u (following t line stop) ≠ some .infinite
  zones : ∀ found ∈ (localTimeWithTzPattern u).findIter line, clocks.zoneInfo (found.group "tz") ≠ .failed ∧
    ∀ zone clock, clocks.zoneInfo (found.group "tz") = .found zone → parseClockTime u (found.group "time") = some clock →
      ∀ point ∈ localResetPoints zone clock now, InRange point
  timestamps : hasResetKey t line = true ∨ hasAbsolutePhrase t line = true →
    ∀ found ∈ (isoTimestampPattern u).findIter line, ∀ point, isoPoint u found.text = some point → InRange point
  months : hasAbsolutePhrase t line = true → ∀ found ∈ (monthNameTimestampPattern u).findIter line, ∀ point,
    parseMonthNameTimestamp u found.text = some point →
      InRange (now + clocks.localOffset now) ∧ InRange (point - clocks.localOffset now)

/-! ## When a conversion returns -/

theorem returns_local {now : Int} {timeText name : Text} :
    Returns (parseLocalResetWaitSeconds u clocks timeText name now) ↔ clocks.zoneInfo name ≠ .failed ∧
      ∀ zone clock, clocks.zoneInfo name = .found zone → parseClockTime u timeText = some clock →
        ∀ point ∈ localResetPoints zone clock now, InRange point := by
  rw [parseLocalResetWaitSeconds]
  cases hzone : clocks.zoneInfo name with
  | failed => simp [Returns]
  | notFound => simp [Returns]
  | found zone =>
    cases hclock : parseClockTime u timeText with
    | none => simp [Returns]
    | some clock =>
      simp only [returns_bind, checkRange_eq_ok]
      constructor
      · rintro ⟨_, ⟨hnow, rfl⟩, _, ⟨hnext, rfl⟩, _, ⟨hutc, rfl⟩, -⟩
        refine ⟨by simp, fun zone' clock' hz hc point hpoint => ?_⟩
        cases hz
        cases hc
        simp only [localResetPoints, List.mem_cons, List.not_mem_nil, or_false] at hpoint
        rcases hpoint with rfl | rfl | rfl
        · exact hnow
        · exact hnext
        · exact hutc
      · rintro ⟨-, h⟩
        have hall := h zone clock rfl rfl
        refine ⟨_, ⟨hall _ (by simp [localResetPoints]), rfl⟩, _, ⟨hall _ (by simp [localResetPoints]), rfl⟩, _,
          ⟨hall _ (by simp [localResetPoints]), rfl⟩, returns_ok _⟩

theorem returns_iso {now : Int} {text : Text} :
    Returns (parseIsoWaitSeconds u text now) ↔ ∀ point, isoPoint u text = some point → InRange point := by
  rw [parseIsoWaitSeconds]
  cases h : isoPoint u text with
  | none => simp [Returns]
  | some point =>
    simp only [returns_bind_pure, returns_checkRange, Option.some.injEq, forall_eq']

theorem returns_month {now : Int} {text : Text} :
    Returns (parseMonthNameWaitSeconds u clocks text now) ↔ ∀ point, parseMonthNameTimestamp u text = some point →
      InRange (now + clocks.localOffset now) ∧ InRange (point - clocks.localOffset now) := by
  rw [parseMonthNameWaitSeconds]
  cases h : parseMonthNameTimestamp u text with
  | none => simp [Returns]
  | some point =>
    rw [returns_both fun _ _ => returns_pure _]
    simp only [returns_checkRange, Option.some.injEq, forall_eq']

theorem returns_isoWaits {now : Int} {line : Text} : Returns (isoWaits u now line) ↔
    ∀ found ∈ (isoTimestampPattern u).findIter line, ∀ point, isoPoint u found.text = some point → InRange point := by
  rw [isoWaits, returns_collect]
  simp only [returns_iso]

theorem returns_resetKeyWaits {now : Int} {line : Text} :
    Returns (resetKeyWaits t u now line) ↔ (hasResetKey t line = true → Returns (isoWaits u now line)) := by
  rw [resetKeyWaits]
  split
  next h => simp only [h, true_imp_iff, returns_bind_pure]
  next h => simp [h, Returns]

theorem returns_absolutePhraseWaits {now : Int} {line : Text} :
    Returns (absolutePhraseWaits t u clocks now line) ↔ (hasAbsolutePhrase t line = true →
      Returns (isoWaits u now line) ∧ ∀ found ∈ (monthNameTimestampPattern u).findIter line,
        Returns (parseMonthNameWaitSeconds u clocks found.text now)) := by
  rw [absolutePhraseWaits]
  split
  next h => simp only [h, true_imp_iff, returns_both fun _ _ => returns_pure _, returns_collect]
  next h => simp [h, Returns]

theorem returns_extract {now : Int} {line : Text} : Returns (extractWaitCandidatesFromLine t u clocks now line) ↔
    Returns (timezoneQualifiedWaits u clocks now line) ∧ Returns (resetKeyWaits t u now line) ∧
      Returns (absolutePhraseWaits t u clocks now line) := by
  rw [extractWaitCandidatesFromLine]
  constructor
  · intro h
    obtain ⟨qualified, hqualified, h⟩ := returns_bind.mp h
    obtain ⟨keyed, hkeyed, h⟩ := returns_bind.mp h
    obtain ⟨absolute, habsolute, -⟩ := returns_bind.mp h
    exact ⟨⟨qualified, hqualified⟩, ⟨keyed, hkeyed⟩, absolute, habsolute⟩
  · rintro ⟨⟨qualified, hqualified⟩, ⟨keyed, hkeyed⟩, absolute, habsolute⟩
    exact returns_bind.mpr ⟨qualified, hqualified, returns_bind.mpr ⟨keyed, hkeyed, returns_bind.mpr
      ⟨absolute, habsolute, returns_pure _⟩⟩⟩

/-! ## Which waits are finite -/

theorem nearest_ne_infinite {q : ℚ} (hq : 0 ≤ q) (hlt : q < 2 ^ (100 : Int)) : Wait.nearest q ≠ .infinite := by
  obtain ⟨m, hm⟩ := Option.isSome_iff_exists.mp (isSome_round hq hlt)
  simp [Wait.nearest, hm]

theorem waitUntil_ne_infinite {now point : Int} (hnow : InRange now) (hpoint : InRange point) :
    waitUntil now point ≠ some .infinite := by
  rw [waitUntil]
  split
  · simp
  · next hle =>
    have hwhole : ((point - now : Int) : ℚ) < (limit : ℚ) := by
      have hlt : point - now < limit := by
        have := hnow.1
        have := hpoint.2
        omega
      exact_mod_cast hlt
    have hnonneg : (0 : ℚ) ≤ ((point - now : Int) : ℚ) := by exact_mod_cast not_lt.mp hle
    have hfinite : Wait.nearest (((point - now : Int) : ℚ) / microsPerSecond) ≠ .infinite := by
      apply nearest_ne_infinite
      · positivity
      · rw [div_lt_iff₀ (by norm_num [microsPerSecond])]
        refine lt_trans hwhole ?_
        norm_num [limit, microsPerDay, microsPerSecond]
    simpa using hfinite

theorem local_ne_infinite {now : Int} (hnow : InRange now) {timeText name : Text} :
    parseLocalResetWaitSeconds u clocks timeText name now ≠ .ok (some .infinite) := by
  intro h
  rw [parseLocalResetWaitSeconds] at h
  split at h
  · cases h
  · cases h
  · cases h
  · obtain ⟨nowLocal, -, h⟩ := bind_eq_ok.mp h
    obtain ⟨candidateLocal, -, h⟩ := bind_eq_ok.mp h
    obtain ⟨candidate, hcandidate, h⟩ := bind_eq_ok.mp h
    obtain ⟨hrange, rfl⟩ := checkRange_eq_ok.mp hcandidate
    exact waitUntil_ne_infinite hnow hrange (Except.ok.inj h)

theorem iso_ne_infinite {now : Int} (hnow : InRange now) {text : Text} :
    parseIsoWaitSeconds u text now ≠ .ok (some .infinite) := by
  intro h
  rw [parseIsoWaitSeconds] at h
  split at h
  · cases h
  · obtain ⟨checked, hpoint, hwait⟩ := bind_eq_ok.mp h
    obtain ⟨hrange, rfl⟩ := checkRange_eq_ok.mp hpoint
    exact waitUntil_ne_infinite hnow hrange (Except.ok.inj hwait)

theorem month_ne_infinite {now : Int} (hnow : InRange now) {text : Text} :
    parseMonthNameWaitSeconds u clocks text now ≠ .ok (some .infinite) := by
  intro h
  rw [parseMonthNameWaitSeconds] at h
  split at h
  · cases h
  · obtain ⟨_, -, hlater⟩ := bind_eq_ok.mp h
    obtain ⟨checked, hpoint, hwait⟩ := bind_eq_ok.mp hlater
    obtain ⟨hrange, rfl⟩ := checkRange_eq_ok.mp hpoint
    exact waitUntil_ne_infinite hnow hrange (Except.ok.inj hwait)

/-! ### Epochs -/

theorem length_takeWhile_append_le {p : Char → Bool} {c : Char} (hc : p c = false) (a rest : Text) :
    ((a ++ c :: rest).takeWhile p).length ≤ a.length := by
  induction a with
  | nil => simp [hc]
  | cons d a ih =>
    rw [List.cons_append, List.takeWhile_cons]
    split
    · simpa using ih
    · simp

/-- Before the point there are at most 13 digits. -/
theorem whole_of_epochDigits {w : Text} (h : (epochDigits u).Spells w) :
    (w.takeWhile fun c => decide (c ≠ '.')).length ≤ 13 := by
  rcases h with ⟨a, b, rfl, ha, hb⟩ | h
  · obtain ⟨hlength, -⟩ := spells_times_chars ha
    rcases hb with ⟨_, rest, rfl, ⟨c, rfl, hc⟩, -⟩ | hb
    · have hpoint : c = '.' := by simpa using hc
      subst hpoint
      have hle := @length_takeWhile_append_le (fun c => decide (c ≠ '.')) '.' (by decide) a rest
      simp only [List.singleton_append]
      omega
    · have hnil : b = [] := hb
      have hle := (a.takeWhile_sublist fun c => decide (c ≠ '.')).length_le
      rw [hnil, List.append_nil]
      omega
  · obtain ⟨hlength, -⟩ := spells_times_chars h
    have hle := (w.takeWhile_sublist fun c => decide (c ≠ '.')).length_le
    omega

/-- A text with few digits before the point is a finite float. -/
theorem parseFloat_small {text : Text} (h : (text.takeWhile fun c => decide (c ≠ '.')).length ≤ 13) :
    ∃ q : ℚ, parseFloat u text = .finite q ∧ 0 ≤ q ∧ q ≤ 2 * 10 ^ 13 + 1 := by
  generalize hwhole : text.takeWhile (fun c => decide (c ≠ '.')) = whole at h
  generalize hfraction : (text.dropWhile fun c => decide (c ≠ '.')).drop 1 = fraction
  have hvalue : (digitsValue u (whole ++ fraction) : ℚ) / 10 ^ fraction.length < 10 ^ 13 := by
    rw [div_lt_iff₀ (by positivity)]
    have hlt := digitsValue_lt (u := u) (whole ++ fraction)
    have hle : 10 ^ (whole ++ fraction).length ≤ 10 ^ 13 * 10 ^ fraction.length := by
      rw [List.length_append, pow_add]
      exact Nat.mul_le_mul_right _ (Nat.pow_le_pow_right (by decide) h)
    exact_mod_cast lt_of_lt_of_le hlt hle
  have hnonneg : (0 : ℚ) ≤ (digitsValue u (whole ++ fraction) : ℚ) / 10 ^ fraction.length := by positivity
  obtain ⟨m, hm⟩ := Option.isSome_iff_exists.mp (isSome_round hnonneg (lt_trans hvalue (by norm_num)))
  refine ⟨m.value, ?_, value_nonneg m, ?_⟩
  · simp only [parseFloat, floatOf, hwhole, hfraction, hm, Option.map_some, Option.getD_some]
  · have hle := round_le hnonneg hm
    linarith

theorem normalizeEpoch_small {q : ℚ} (hq : 0 ≤ q) (hle : q ≤ 2 * 10 ^ 13 + 1) :
    ∃ s : ℚ, normalizeEpoch (.finite q) = .finite s ∧ s ≤ 2 * 10 ^ 13 + 1 := by
  rw [normalizeEpoch]
  split
  · have hnonneg : 0 ≤ q / 1000 := by positivity
    have hlt : q / 1000 < 2 ^ (100 : Int) := by
      have hpow : (2 : ℚ) * 10 ^ 13 + 1 < 2 ^ (100 : Int) := by norm_num
      have hthousand : q / 1000 ≤ q := div_le_self hq (by norm_num)
      linarith
    obtain ⟨m, hm⟩ := Option.isSome_iff_exists.mp (isSome_round hnonneg hlt)
    refine ⟨m.value, by simp [Wait.nearest, hm], ?_⟩
    have hround := round_le hnonneg hm
    linarith
  · exact ⟨q, rfl, hle⟩

theorem neg_timestamp_le {now : Int} (hnow : InRange now) : -timestamp now ≤ 10 ^ 12 := by
  have hseconds : -(((now - epoch : Int) : ℚ) / microsPerSecond) ≤ 62135596800 := by
    have hle : ((epoch - now : Int) : ℚ) ≤ ((719162 * 86400 * 1000000 : Int) : ℚ) := by
      have hint : epoch - now ≤ 719162 * 86400 * 1000000 := by
        have := hnow.1
        simp only [epoch, microsPerDay, microsPerSecond]
        omega
      exact_mod_cast hint
    rw [← neg_div, div_le_iff₀ (by norm_num [microsPerSecond])]
    push_cast at hle ⊢
    norm_num [microsPerSecond]
    linarith
  simp only [timestamp]
  split
  · next hpos =>
    cases hround : roundToNearest (((now - epoch : Int) : ℚ) / microsPerSecond) with
    | none => norm_num
    | some m =>
      have := value_nonneg m
      simp only [Option.map_some, Option.getD_some]
      linarith
  · next hneg =>
    cases hround : roundToNearest (-(((now - epoch : Int) : ℚ) / microsPerSecond)) with
    | none => norm_num
    | some m =>
      have hle := round_le (by linarith) hround
      simp only [Option.map_some, Option.getD_some]
      linarith

theorem epochWait_ne_infinite {now : Int} (hnow : InRange now) {text : Text}
    (h : (text.takeWhile fun c => decide (c ≠ '.')).length ≤ 13) : parseEpochWaitSeconds u text now ≠ some .infinite := by
  obtain ⟨q, hq, hnonneg, hle⟩ := parseFloat_small u h
  obtain ⟨s, hs, hsle⟩ := normalizeEpoch_small hnonneg hle
  rw [parseEpochWaitSeconds, hq, hs, waitFrom]
  split
  · simp
  · next hpos =>
    have hbound := neg_timestamp_le hnow
    have hfinite : Wait.nearest (s - timestamp now) ≠ .infinite := by
      apply nearest_ne_infinite (by linarith)
      have hpow : (2 : ℚ) * 10 ^ 13 + 1 + 10 ^ 12 < 2 ^ (100 : Int) := by norm_num
      linarith
    simpa using hfinite

theorem epochGroup_short {pattern : Re} (hpattern : ∀ body, pattern.HasGroup "epoch" body → body = epochDigits u) {line : Text}
    {found : Found} (hfound : found ∈ pattern.findIter line) :
    ((found.group "epoch").takeWhile fun c => decide (c ≠ '.')).length ≤ 13 := by
  rcases spells_group hfound "epoch" with h | ⟨body, hbody, hspells⟩
  · simp [h]
  · rw [hpattern body hbody] at hspells
    exact whole_of_epochDigits u hspells

theorem group_epochPattern (body : Re) : (epochPattern u).HasGroup "epoch" body → body = epochDigits u := by
  simp [epochPattern, Re.all, edge, Re.HasGroup, epochDigits, Re.times, digit, fraction, Re.opt, Re.plus, exact, eq_comm]

theorem group_pipeEpochPattern (body : Re) : (pipeEpochPattern u).HasGroup "epoch" body → body = epochDigits u := by
  simp [pipeEpochPattern, Re.all, edge, space, Re.HasGroup, epochDigits, Re.times, digit, fraction, Re.opt, Re.plus, exact, eq_comm]

theorem epochWaits_ne_infinite {now : Int} (hnow : InRange now) {pattern : Re}
    (hpattern : ∀ body, pattern.HasGroup "epoch" body → body = epochDigits u) {line : Text} :
    Wait.infinite ∉ epochWaits u now pattern line := by
  intro h
  obtain ⟨found, hfound, hwait⟩ := List.mem_filterMap.mp h
  exact epochWait_ne_infinite u hnow (epochGroup_short u hpattern hfound) hwait

/-! ## Infinite candidates -/

/-- Durations after a phrase, read where the source reads them, add up to no finite float. -/
def Endless (line : Text) : Prop :=
  ∃ phrase ∈ relativeResetPhrases, ∃ stop ∈ occurrenceEnds phrase.toList (t.lower line), relativeWait t u line stop = some .infinite

theorem infinite_mem_relativeWaits {line : Text} : Wait.infinite ∈ relativeWaits t u line ↔ Endless t u line := by
  simp only [relativeWaits, Endless, List.mem_flatMap, List.mem_filterMap]

theorem infinite_mem_extract {now : Int} (hnow : InRange now) {line : Text} {waits : List Wait}
    (h : extractWaitCandidatesFromLine t u clocks now line = .ok waits) : Wait.infinite ∈ waits ↔ Endless t u line := by
  rw [extractWaitCandidatesFromLine] at h
  obtain ⟨qualified, hqualified, h⟩ := bind_eq_ok.mp h
  obtain ⟨keyed, hkeyed, h⟩ := bind_eq_ok.mp h
  obtain ⟨absolute, habsolute, h⟩ := bind_eq_ok.mp h
  cases h
  have hisoFinite : ∀ iso, isoWaits u now line = .ok iso → Wait.infinite ∉ iso := by
    intro iso hiso hmem
    obtain ⟨found, -, hwait⟩ := mem_collect hiso _ hmem
    exact iso_ne_infinite u hnow hwait
  have hqualifiedFinite : Wait.infinite ∉ qualified := by
    intro hmem
    obtain ⟨found, -, hwait⟩ := mem_collect hqualified _ hmem
    exact local_ne_infinite u clocks hnow hwait
  have hkeyedFinite : Wait.infinite ∉ keyed := by
    rw [resetKeyWaits] at hkeyed
    split at hkeyed
    · obtain ⟨iso, hiso, hkeyed⟩ := bind_eq_ok.mp hkeyed
      cases hkeyed
      rw [List.mem_append]
      rintro (hmem | hmem)
      · exact epochWaits_ne_infinite u hnow (group_epochPattern u) hmem
      · exact hisoFinite iso hiso hmem
    · cases hkeyed
      simp
  have hpipeFinite : Wait.infinite ∉ pipeEpochWaits t u now line := by
    rw [pipeEpochWaits]
    split
    · exact epochWaits_ne_infinite u hnow (group_pipeEpochPattern u)
    · simp
  have habsoluteFinite : Wait.infinite ∉ absolute := by
    rw [absolutePhraseWaits] at habsolute
    split at habsolute
    · obtain ⟨iso, hiso, habsolute⟩ := bind_eq_ok.mp habsolute
      obtain ⟨months, hmonths, habsolute⟩ := bind_eq_ok.mp habsolute
      cases habsolute
      rw [List.mem_append]
      rintro (hmem | hmem)
      · exact hisoFinite iso hiso hmem
      · obtain ⟨found, -, hwait⟩ := mem_collect hmonths _ hmem
        exact month_ne_infinite u clocks hnow hwait
    · cases habsolute
      simp
  rw [List.mem_filter, List.mem_append, List.mem_append, List.mem_append, List.mem_append, infinite_mem_relativeWaits]
  simp only [hqualifiedFinite, hkeyedFinite, hpipeFinite, habsoluteFinite, or_false, Wait.nonneg, and_true]

theorem returns_gatherWaits {now : Int} {lines : List Text} :
    Returns (gatherWaits t u clocks now lines) ↔ ∀ line ∈ lines, Returns (extractWaitCandidatesFromLine t u clocks now line) := by
  induction lines with
  | nil => simp [gatherWaits, returns_ok]
  | cons line rest ih =>
    rw [gatherWaits, returns_both fun _ _ => returns_pure _, ih, List.forall_mem_cons]

theorem infinite_mem_gatherWaits {now : Int} (hnow : InRange now) {lines : List Text} : ∀ {waits : List Wait},
    gatherWaits t u clocks now lines = .ok waits → (Wait.infinite ∈ waits ↔ ∃ line ∈ lines, Endless t u line) := by
  induction lines with
  | nil =>
    intro waits h
    cases h
    simp
  | cons line rest ih =>
    intro waits h
    rw [gatherWaits] at h
    obtain ⟨first, hfirst, h⟩ := bind_eq_ok.mp h
    obtain ⟨later, hlater, h⟩ := bind_eq_ok.mp h
    cases h
    rw [List.mem_append, infinite_mem_extract t u clocks hnow hfirst, ih hlater]
    simp

end Lines

theorem foldl_larger_eq_infinite {rest : List Wait} : ∀ {first : Wait},
    rest.foldl Wait.larger first = .infinite ↔ first = .infinite ∨ Wait.infinite ∈ rest := by
  induction rest with
  | nil => simp
  | cons wait rest ih =>
    intro first
    rw [List.foldl_cons, ih, List.mem_cons]
    cases first <;> cases wait <;> simp [Wait.larger]

theorem largest_eq_infinite {waits : List Wait} : largest waits = some .infinite ↔ Wait.infinite ∈ waits := by
  cases waits with
  | nil => simp [largest]
  | cons first rest =>
    rw [largest, Option.some.injEq, foldl_larger_eq_infinite, List.mem_cons]
    exact or_congr_left eq_comm

/-! ## The result -/

section Result

variable {World : Type} (host : Host World) (w : World) (t : CaseTables) (u : CharTables) (clocks : Clocks)

/-- The lines whose waits are read. -/
def scannedLines (result : CommandResult) (configuredHints familyHints : List Text) : List Text :=
  let lines := resultLinesForQuota host w result
  match findQuotaEvidence t u lines familyHints configuredHints with
  | none => []
  | some _ => collectQuotaContextLines t lines familyHints configuredHints

/-- A quota stop is classified and decided on, whatever the agent's settings, and every candidate is what it is meant to be. -/
structure Survives (result : CommandResult) (configuredHints familyHints : List Text) (now : Moment) : Prop where
  decides : ∃ quota, classifyGenericQuota host w t u clocks result configuredHints now familyHints = .ok quota ∧
    ∀ (config : AgentConfig) (cmd0 : String) (clock : QuotaClock) (startedAt : Option ℚ) (count : Nat) (waited : ℚ)
      (oneShot : Option OneShotFailureRetryPolicy),
      Returns (evaluateQuotaRetry host w config cmd0 (fun _ _ => .ok quota) result clock startedAt count waited oneShot)
  nonneg : ∀ line ∈ scannedLines host w t u result configuredHints familyHints, ∀ waits,
    extractWaitCandidatesFromLine t u clocks now.point line = .ok waits → ∀ wait ∈ waits, wait.nonneg = true
  sums : ∀ line ∈ scannedLines host w t u result configuredHints familyHints, ∀ phrase ∈ relativeResetPhrases,
    ∀ stop ∈ occurrenceEnds phrase.toList (t.lower line),
      relativeWait t u line stop = parseDurationSeconds t u (following t line stop)

theorem returns_classify {result : CommandResult} {configuredHints familyHints : List Text} {now : Moment} :
    Returns (classifyGenericQuota host w t u clocks result configuredHints now familyHints) ↔
      ∀ line ∈ scannedLines host w t u result configuredHints familyHints,
        Returns (extractWaitCandidatesFromLine t u clocks now.point line) := by
  simp only [classifyGenericQuota, scannedLines]
  cases findQuotaEvidence t u (resultLinesForQuota host w result) familyHints configuredHints with
  | none => simp [Returns]
  | some evidence => simp only [returns_bind_pure, returns_gatherWaits]

theorem classify_infinite {result : CommandResult} {configuredHints familyHints : List Text} {now : Moment} {quota : Classification}
    (h : classifyGenericQuota host w t u clocks result configuredHints now familyHints = .ok quota) :
    (quota.isQuota = true ∧ quota.resetAfterSeconds = some .infinite) ↔
      ∃ line ∈ scannedLines host w t u result configuredHints familyHints, Endless t u line := by
  simp only [classifyGenericQuota] at h
  simp only [scannedLines]
  cases hevidence : findQuotaEvidence t u (resultLinesForQuota host w result) familyHints configuredHints with
  | none =>
    rw [hevidence] at h
    cases h
    simp
  | some evidence =>
    rw [hevidence] at h
    obtain ⟨waits, hwaits, h⟩ := bind_eq_ok.mp h
    cases h
    simp only [true_and, largest_eq_infinite]
    exact infinite_mem_gatherWaits t u clocks now.inRange hwaits

/-- With the default settings and no earlier attempt, an infinite reset time is written into a message. -/
theorem returns_evaluate {result : CommandResult} {quota : Classification} :
    (∀ (config : AgentConfig) (cmd0 : String) (clock : QuotaClock) (startedAt : Option ℚ) (count : Nat) (waited : ℚ)
      (oneShot : Option OneShotFailureRetryPolicy),
      Returns (evaluateQuotaRetry host w config cmd0 (fun _ _ => .ok quota) result clock startedAt count waited oneShot)) ↔
      ¬(quota.isQuota = true ∧ quota.resetAfterSeconds = some .infinite) := by
  constructor
  · rintro h ⟨hquota, hreset⟩
    obtain ⟨decision, hdecision⟩ := h {} "" ⟨0, 0, 0⟩ none 0 0 none
    rw [evaluateQuotaRetry, if_neg (by simp [Invocation.matchesOneShotFailureRetry])] at hdecision
    obtain ⟨found, hfound, hdecision⟩ := bind_eq_ok.mp hdecision
    cases hfound
    rw [if_pos ⟨hquota, hreset, by simp [endsBeforeReset]⟩] at hdecision
    cases hdecision
  · intro h config cmd0 clock startedAt count waited oneShot
    rw [evaluateQuotaRetry]
    split
    · exact returns_ok _
    · refine returns_bind.mpr ⟨quota, rfl, ?_⟩
      rw [if_neg]
      · exact returns_ok _
      · rintro ⟨hquota, hreset, -⟩
        exact h ⟨hquota, hreset⟩

theorem nonneg_of_extract {now : Int} {line : Text} {waits : List Wait}
    (h : extractWaitCandidatesFromLine t u clocks now line = .ok waits) : ∀ wait ∈ waits, wait.nonneg = true := by
  rw [extractWaitCandidatesFromLine] at h
  obtain ⟨qualified, -, h⟩ := bind_eq_ok.mp h
  obtain ⟨keyed, -, h⟩ := bind_eq_ok.mp h
  obtain ⟨absolute, -, h⟩ := bind_eq_ok.mp h
  cases h
  intro wait hwait
  exact (List.mem_filter.mp hwait).2

end Result

end Crewplane.Quota
