import Mathlib.Order.Monotone.Basic
import Mathlib.Tactic.IntervalCases
import Mathlib.Tactic.Ring
/-
# The calendar of `datetime`

A point of local time is its number of microseconds since 0001-01-01T00:00:00 in the proleptic Gregorian calendar. `datetime`
holds the points of the years 1 to 9999 (`InRange`): a date and a time of day that are valid stand for one of them
(`point_inRange`).
-/
namespace Crewplane.Lib.Calendar

def isLeap (year : Nat) : Bool := year % 4 = 0 && (year % 100 ≠ 0 || year % 400 = 0)

def daysInMonth (year month : Nat) : Nat :=
  if month = 2 then (if isLeap year then 29 else 28)
  else if month ∈ [4, 6, 9, 11] then 30 else 31

/-- The days of the months before `month`. -/
def daysBeforeMonth (year : Nat) : Nat → Nat
  | 0 => 0
  | month + 1 => if month = 0 then 0 else daysBeforeMonth year month + daysInMonth year month

def daysBeforeYear (year : Nat) : Nat :=
  let past := year - 1
  past * 365 + past / 4 - past / 100 + past / 400

def microsPerSecond : Nat := 1000000

def microsPerDay : Nat := 86400 * microsPerSecond

/-- The first microsecond after the year 9999. -/
def limit : Nat := 3652059 * microsPerDay

def InRange (point : Int) : Prop := 0 ≤ point ∧ point < limit

instance (point : Int) : Decidable (InRange point) := inferInstanceAs (Decidable (_ ∧ _))

structure Stamp where
  year : Nat
  month : Nat
  day : Nat
  hour : Nat
  minute : Nat
  second : Nat
  micro : Nat
deriving DecidableEq

structure Stamp.Valid (s : Stamp) : Prop where
  year : 1 ≤ s.year ∧ s.year ≤ 9999
  month : 1 ≤ s.month ∧ s.month ≤ 12
  day : 1 ≤ s.day ∧ s.day ≤ daysInMonth s.year s.month
  time : s.hour < 24 ∧ s.minute < 60 ∧ s.second < 60 ∧ s.micro < 1000000

instance (s : Stamp) : Decidable s.Valid :=
  decidable_of_iff ((1 ≤ s.year ∧ s.year ≤ 9999) ∧ (1 ≤ s.month ∧ s.month ≤ 12) ∧
    (1 ≤ s.day ∧ s.day ≤ daysInMonth s.year s.month) ∧ (s.hour < 24 ∧ s.minute < 60 ∧ s.second < 60 ∧ s.micro < 1000000))
    ⟨fun h => ⟨h.1, h.2.1, h.2.2.1, h.2.2.2⟩, fun h => ⟨h.year, h.month, h.day, h.time⟩⟩

def timeOfDay (hour minute second micro : Nat) : Nat := ((hour * 60 + minute) * 60 + second) * microsPerSecond + micro

def Stamp.point (s : Stamp) : Int :=
  ((daysBeforeYear s.year + daysBeforeMonth s.year s.month + (s.day - 1)) * microsPerDay +
    timeOfDay s.hour s.minute s.second s.micro : Nat)

/-- `datetime(…)`; nothing stands for its `ValueError`. -/
def Stamp.point? (s : Stamp) : Option Int := if s.Valid then some s.point else none

/-! ## Valid stamps are in range -/

theorem daysBeforeMonth_le (year : Nat) : ∀ month, 1 ≤ month → month ≤ 12 →
    daysBeforeMonth year month + daysInMonth year month ≤ if isLeap year then 366 else 365 := by
  intro month hlow hhigh
  interval_cases month <;> (cases h : isLeap year <;> simp [daysBeforeMonth, daysInMonth, h])

/-- A multiple is passed, or none. -/
theorem div_succ (n k : Nat) : (n + 1) / k = n / k + if (n + 1) % k = 0 then 1 else 0 := by
  rw [Nat.succ_div]
  simp only [Nat.dvd_iff_mod_eq_zero]

theorem daysBeforeYear_succ {year : Nat} (h : 1 ≤ year) :
    daysBeforeYear year + (if isLeap year then 366 else 365) = daysBeforeYear (year + 1) := by
  obtain ⟨past, rfl⟩ := Nat.exists_eq_add_of_le' h
  have h4 := div_succ past 4
  have h100 := div_succ past 100
  have h400 := div_succ past 400
  have hle : past / 100 ≤ past := Nat.div_le_self past 100
  have hcentury : (past + 1) % 100 = 0 → (past + 1) % 4 = 0 := by omega
  have hfour : (past + 1) % 400 = 0 → (past + 1) % 100 = 0 := by omega
  simp only [daysBeforeYear, isLeap, Nat.add_sub_cancel, Bool.and_eq_true, Bool.or_eq_true, decide_eq_true_eq]
  rw [h4, h100, h400]
  generalize past / 4 = a at *
  generalize past / 100 = b at *
  generalize past / 400 = c at *
  by_cases hm4 : (past + 1) % 4 = 0
  · by_cases hm100 : (past + 1) % 100 = 0
    · by_cases hm400 : (past + 1) % 400 = 0
      · simp only [hm4, hm100, hm400, if_true, ne_eq, not_true, false_or, and_true]
        omega
      · simp only [hm4, hm100, hm400, if_true, if_false, ne_eq, not_true, false_or, and_false]
        omega
    · have hm400 : ¬ (past + 1) % 400 = 0 := fun heq => hm100 (hfour heq)
      simp only [hm4, hm100, hm400, if_true, if_false, ne_eq, not_false_eq_true, true_or, and_true]
      omega
  · have hm100 : ¬ (past + 1) % 100 = 0 := fun heq => hm4 (hcentury heq)
    have hm400 : ¬ (past + 1) % 400 = 0 := fun heq => hm100 (hfour heq)
    simp only [hm4, hm100, hm400, if_false, false_and]
    omega

theorem daysBeforeYear_mono : Monotone daysBeforeYear := by
  apply monotone_nat_of_le_succ
  intro year
  by_cases h : 1 ≤ year
  · have hstep := daysBeforeYear_succ h
    omega
  · have hzero : year = 0 := by omega
    subst hzero
    decide

theorem point_inRange {s : Stamp} (h : s.Valid) : InRange s.point := by
  obtain ⟨⟨hyear, hyearHigh⟩, ⟨hmonth, hmonthHigh⟩, ⟨hday, hdayHigh⟩, hhour, hminute, hsecond, hmicro⟩ := h
  have hmonths := daysBeforeMonth_le s.year s.month hmonth hmonthHigh
  have hnext := daysBeforeYear_succ hyear
  have hlast : daysBeforeYear (s.year + 1) ≤ 3652059 := by
    calc daysBeforeYear (s.year + 1) ≤ daysBeforeYear 10000 := daysBeforeYear_mono (by omega)
      _ = 3652059 := by decide
  have htime : timeOfDay s.hour s.minute s.second s.micro < microsPerDay := by
    simp only [timeOfDay, microsPerDay, microsPerSecond]
    omega
  have hdays : daysBeforeYear s.year + daysBeforeMonth s.year s.month + (s.day - 1) + 1 ≤ 3652059 := by omega
  refine ⟨Int.natCast_nonneg _, ?_⟩
  rw [Stamp.point, Nat.cast_lt, limit]
  calc (daysBeforeYear s.year + daysBeforeMonth s.year s.month + (s.day - 1)) * microsPerDay +
      timeOfDay s.hour s.minute s.second s.micro
      < (daysBeforeYear s.year + daysBeforeMonth s.year s.month + (s.day - 1)) * microsPerDay + microsPerDay :=
        Nat.add_lt_add_left htime _
    _ = (daysBeforeYear s.year + daysBeforeMonth s.year s.month + (s.day - 1) + 1) * microsPerDay := by ring
    _ ≤ 3652059 * microsPerDay := Nat.mul_le_mul_right _ hdays

theorem inRange_of_point? {s : Stamp} {point : Int} (h : s.point? = some point) : InRange point := by
  rw [Stamp.point?] at h
  split at h
  next hvalid =>
    cases h
    exact point_inRange hvalid
  next => cases h

end Crewplane.Lib.Calendar
