import Mathlib.Data.Int.Log
import Mathlib.Data.Rat.Floor
import Mathlib.Tactic.FieldSimp
import Mathlib.Tactic.Positivity
import Mathlib.Tactic.Ring
/-
# Binary64 numbers and decimals

A finite number is a sign and a magnitude in the one form the format has for it. `roundToNearest` is the nearest magnitude
of a rational, to even in a tie, and nothing where the rational is too large. `shortestDecimal` is the decimal with the
fewest digits that rounds back (`round_shortestDecimal`).
-/
namespace Crewplane.Lib

/-- `mantissa * 2 ^ exponent`, normal or at the smallest exponent. -/
structure Magnitude where
  mantissa : Nat
  exponent : Int
  canonical : mantissa < 2 ^ 53 ∧ -1074 ≤ exponent ∧ exponent ≤ 971 ∧ (2 ^ 52 ≤ mantissa ∨ exponent = -1074)
deriving DecidableEq

inductive Binary64 where
  | finite (negative : Bool) (magnitude : Magnitude)
  | infinite (negative : Bool)
  | nan
deriving DecidableEq

/-- `digits * 10 ^ exponent`. -/
structure Decimal where
  digits : Nat
  exponent : Int
deriving DecidableEq

def Magnitude.value (x : Magnitude) : ℚ := x.mantissa * 2 ^ x.exponent

def Decimal.value (d : Decimal) : ℚ := d.digits * 10 ^ d.exponent

/-! ## Rounding -/

/-- The exponent at which a rational has 53 binary digits, or the smallest one. -/
def unitExponent (q : ℚ) : Int := if q = 0 then -1074 else max (Int.log 2 q - 52) (-1074)

def roundHalfEven (q : ℚ) : Nat :=
  let below := ⌊q⌋.toNat
  if q - below < 1 / 2 then below
  else if 1 / 2 < q - below then below + 1
  else if below % 2 = 0 then below else below + 1

def Magnitude.of? (mantissa : Nat) (exponent : Int) : Option Magnitude :=
  if h : mantissa < 2 ^ 53 ∧ -1074 ≤ exponent ∧ exponent ≤ 971 ∧ (2 ^ 52 ≤ mantissa ∨ exponent = -1074) then
    some ⟨mantissa, exponent, h⟩
  else none

def roundToNearest (q : ℚ) : Option Magnitude :=
  let unit := unitExponent q
  let mantissa := roundHalfEven (q / 2 ^ unit)
  if mantissa = 2 ^ 53 then Magnitude.of? (2 ^ 52) (unit + 1) else Magnitude.of? mantissa unit

theorem roundHalfEven_natCast (n : Nat) : roundHalfEven n = n := by
  simp [roundHalfEven]

theorem log_natCast_mul_zpow {m : Nat} (hm : m ≠ 0) (e : Int) : Int.log 2 ((m : ℚ) * 2 ^ e) = Nat.log 2 m + e := by
  have hpow : (0 : ℚ) < 2 ^ e := zpow_pos (by norm_num) e
  have hpos : (0 : ℚ) < (m : ℚ) * 2 ^ e := mul_pos (by exact_mod_cast Nat.pos_of_ne_zero hm) hpow
  have hbelow : (2 : ℚ) ^ (Nat.log 2 m) ≤ m := by exact_mod_cast Nat.pow_log_le_self 2 hm
  have habove : (m : ℚ) < 2 ^ (Nat.log 2 m + 1) := by exact_mod_cast Nat.lt_pow_succ_log_self (by decide) m
  apply le_antisymm
  · rw [← Int.lt_add_one_iff, ← Int.lt_zpow_iff_log_lt (by decide) hpos]
    calc (m : ℚ) * 2 ^ e < 2 ^ (Nat.log 2 m + 1) * 2 ^ e := mul_lt_mul_of_pos_right habove hpow
      _ = ((2 : Nat) : ℚ) ^ ((Nat.log 2 m : Int) + e + 1) := by
        rw [Nat.cast_ofNat, ← zpow_natCast, ← zpow_add₀ (by norm_num)]
        congr 1
        push_cast
        ring
  · rw [← Int.zpow_le_iff_le_log (by decide) hpos]
    calc ((2 : Nat) : ℚ) ^ ((Nat.log 2 m : Int) + e) = 2 ^ (Nat.log 2 m) * 2 ^ e := by
          rw [Nat.cast_ofNat, zpow_add₀ (by norm_num), zpow_natCast]
      _ ≤ m * 2 ^ e := mul_le_mul_of_nonneg_right hbelow hpow.le

theorem unitExponent_value (x : Magnitude) : unitExponent x.value = x.exponent := by
  obtain ⟨m, e, hm, hlow, hhigh, hnormal⟩ := x
  unfold unitExponent Magnitude.value
  by_cases hzero : m = 0
  · subst hzero
    rcases hnormal with hnormal | rfl
    · norm_num at hnormal
    · simp
  · have hne : (m : ℚ) * 2 ^ e ≠ 0 := mul_ne_zero (by exact_mod_cast hzero) (zpow_ne_zero e (by norm_num))
    rw [if_neg hne, log_natCast_mul_zpow hzero]
    have hlog : Nat.log 2 m < 53 := Nat.log_lt_of_lt_pow hzero hm
    rcases hnormal with hnormal | rfl
    · have hlog' : 52 ≤ Nat.log 2 m := Nat.le_log_of_pow_le (by decide) hnormal
      have heq : Nat.log 2 m = 52 := by omega
      rw [heq]
      simp only [Nat.cast_ofNat]
      omega
    · simp only
      omega

/-- A number of the format is not changed by rounding. -/
theorem round_value (x : Magnitude) : roundToNearest x.value = some x := by
  have hunit := unitExponent_value x
  have hscaled : x.value / 2 ^ x.exponent = x.mantissa := by
    unfold Magnitude.value
    field_simp
  unfold roundToNearest
  simp only [hunit, hscaled, roundHalfEven_natCast]
  obtain ⟨m, e, h⟩ := x
  rw [if_neg (by simpa using h.1.ne), Magnitude.of?, dif_pos h]

theorem roundHalfEven_le {q : ℚ} (hq : 0 ≤ q) : (roundHalfEven q : ℚ) ≤ q + 1 / 2 := by
  have hfloor : ((⌊q⌋.toNat : ℕ) : ℚ) = ⌊q⌋ := by
    exact_mod_cast Int.toNat_of_nonneg (Int.floor_nonneg.mpr hq)
  have hle := Int.floor_le q
  unfold roundHalfEven
  simp only [hfloor]
  split
  · rw [hfloor]
    linarith
  · next hhalf =>
    split
    · push_cast
      rw [hfloor]
      linarith
    · split
      · rw [hfloor]
        linarith
      · push_cast
        rw [hfloor]
        linarith

theorem roundHalfEven_eq_zero {q : ℚ} (hq : 0 ≤ q) (hlt : q < 1 / 2) : roundHalfEven q = 0 := by
  have hle := roundHalfEven_le hq
  have hone : (roundHalfEven q : ℚ) < 1 := by linarith
  exact Nat.lt_one_iff.mp (by exact_mod_cast hone)

theorem unit_le {q : ℚ} (hq : 0 < q) : (2 : ℚ) ^ unitExponent q ≤ q + 1 / 1000 := by
  rw [unitExponent, if_neg hq.ne']
  rcases max_cases (Int.log 2 q - 52) (-1074) with ⟨heq, -⟩ | ⟨heq, -⟩
  · rw [heq]
    have hlog := Int.zpow_log_le_self (b := 2) (by decide) hq
    have hmono : (2 : ℚ) ^ (Int.log 2 q - 52) ≤ 2 ^ Int.log 2 q := zpow_le_zpow_right₀ (by norm_num) (by omega)
    have hlog' : (2 : ℚ) ^ Int.log 2 q ≤ q := by exact_mod_cast hlog
    linarith
  · rw [heq]
    have hsmall : (2 : ℚ) ^ (-1074 : ℤ) ≤ 2 ^ (-10 : ℤ) := zpow_le_zpow_right₀ (by norm_num) (by norm_num)
    have hten : (2 : ℚ) ^ (-10 : ℤ) ≤ 1 / 1000 := by norm_num
    exact (hsmall.trans hten).trans (le_add_of_nonneg_left hq.le)

theorem value_of? {m : Nat} {e : Int} {x : Magnitude} (h : Magnitude.of? m e = some x) : x.value = m * 2 ^ e := by
  unfold Magnitude.of? at h
  split at h
  · cases h
    rfl
  · cases h

/-- A rough bound for what rounding adds. -/
theorem round_le {q : ℚ} (hq : 0 ≤ q) {x : Magnitude} (h : roundToNearest q = some x) : x.value ≤ 2 * q + 1 / 1000 := by
  have hpow : (0 : ℚ) < 2 ^ unitExponent q := zpow_pos (by norm_num) _
  have hvalue : x.value = roundHalfEven (q / 2 ^ unitExponent q) * 2 ^ unitExponent q := by
    unfold roundToNearest at h
    simp only at h
    split at h
    next hcarry =>
      rw [value_of? h, hcarry, zpow_add₀ (by norm_num)]
      push_cast
      ring
    next => exact value_of? h
  have hround := roundHalfEven_le (div_nonneg hq hpow.le)
  rcases hq.eq_or_lt with rfl | hpos
  · rw [hvalue, zero_div, roundHalfEven_eq_zero (le_refl 0) (by norm_num)]
    norm_num
  · have hunit := unit_le hpos
    have hscaled : x.value ≤ q + 2 ^ unitExponent q / 2 := by
      rw [hvalue]
      calc (roundHalfEven (q / 2 ^ unitExponent q) : ℚ) * 2 ^ unitExponent q
          ≤ (q / 2 ^ unitExponent q + 1 / 2) * 2 ^ unitExponent q := mul_le_mul_of_nonneg_right hround hpow.le
        _ = q + 2 ^ unitExponent q / 2 := by field_simp
    linarith

theorem floor_toNat_le {q : ℚ} : ⌊q⌋.toNat ≤ roundHalfEven q := by
  unfold roundHalfEven
  simp only
  split_ifs <;> omega

theorem roundHalfEven_le_of_lt {q : ℚ} (hq : 0 ≤ q) {n : Nat} (h : q < n) : roundHalfEven q ≤ n := by
  have hnonneg : 0 ≤ ⌊q⌋ := Int.floor_nonneg.mpr hq
  have hfloor : ⌊q⌋ < n := Int.floor_lt.mpr h
  unfold roundHalfEven
  simp only
  split_ifs <;> omega

theorem le_roundHalfEven {q : ℚ} {n : Nat} (h : (n : ℚ) ≤ q) : n ≤ roundHalfEven q := by
  have hfloor : (n : Int) ≤ ⌊q⌋ := Int.le_floor.mpr (by exact_mod_cast h)
  have hnat : n ≤ ⌊q⌋.toNat := by omega
  exact le_trans hnat floor_toNat_le

/-- A number far below the largest one is rounded to a number of the format. -/
theorem isSome_round {q : ℚ} (hq : 0 ≤ q) (hlt : q < 2 ^ (100 : Int)) : (roundToNearest q).isSome = true := by
  by_cases hzero : q = 0
  · subst hzero
    simp [roundToNearest, unitExponent, roundHalfEven, Magnitude.of?]
  · have hpos : 0 < q := lt_of_le_of_ne hq (Ne.symm hzero)
    have hlog : Int.log 2 q < 100 := (Int.lt_zpow_iff_log_lt (by decide) hpos).mp (by exact_mod_cast hlt)
    have hunit : unitExponent q = max (Int.log 2 q - 52) (-1074) := if_neg hzero
    have hpow : (0 : ℚ) < 2 ^ unitExponent q := zpow_pos (by norm_num) _
    have habove : q / 2 ^ unitExponent q < ((2 ^ 53 : Nat) : ℚ) := by
      rw [div_lt_iff₀ hpow]
      calc q < ((2 : Nat) : ℚ) ^ (Int.log 2 q + 1) := Int.lt_zpow_succ_log_self (by decide) q
        _ ≤ ((2 : Nat) : ℚ) ^ (53 + unitExponent q) := zpow_le_zpow_right₀ (by norm_num) (by omega)
        _ = ((2 ^ 53 : Nat) : ℚ) * 2 ^ unitExponent q := by
          rw [zpow_add₀ (by norm_num)]
          norm_num
    have hmantissa := roundHalfEven_le_of_lt (div_nonneg hq hpow.le) habove
    unfold roundToNearest
    simp only
    split_ifs with hfull
    · rw [Magnitude.of?, dif_pos ⟨by norm_num, by omega, by omega, Or.inl (le_refl _)⟩]
      rfl
    · have hnormal : 2 ^ 52 ≤ roundHalfEven (q / 2 ^ unitExponent q) ∨ unitExponent q = -1074 := by
        by_cases hsmall : unitExponent q = -1074
        · exact Or.inr hsmall
        · left
          apply le_roundHalfEven
          rw [le_div_iff₀ hpow]
          have hbelow : ((2 : Nat) : ℚ) ^ Int.log 2 q ≤ q := Int.zpow_log_le_self (by decide) hpos
          have heq : Int.log 2 q = 52 + unitExponent q := by omega
          rw [heq, zpow_add₀ (by norm_num)] at hbelow
          push_cast at hbelow ⊢
          exact_mod_cast hbelow
      rw [Magnitude.of?, dif_pos ⟨by omega, by omega, by omega, hnormal⟩]
      rfl

theorem value_nonneg (x : Magnitude) : 0 ≤ x.value :=
  mul_nonneg (Nat.cast_nonneg _) (zpow_nonneg (by norm_num) _)

/-! ## Decimals -/

/-- The `n`-digit decimals on both sides of a magnitude, as far as they round back to it; the nearer one, or the even one. -/
def nearestDecimal? (x : Magnitude) (n : Nat) : Option Decimal :=
  let unit : Int := Int.log 10 x.value + 1 - n
  let below := ⌊x.value / 10 ^ unit⌋.toNat
  let lower : Decimal := ⟨below, unit⟩
  let upper : Decimal := ⟨below + 1, unit⟩
  if roundToNearest lower.value = some x then
    if roundToNearest upper.value = some x then
      if x.value - lower.value < upper.value - x.value then some lower
      else if upper.value - x.value < x.value - lower.value then some upper
      else if below % 2 = 0 then some lower else some upper
    else some lower
  else if roundToNearest upper.value = some x then some upper
  else none

/-- The decimal with all its digits. -/
def exactDecimal (x : Magnitude) : Decimal :=
  if 0 ≤ x.exponent then ⟨x.mantissa * 2 ^ x.exponent.toNat, 0⟩ else ⟨x.mantissa * 5 ^ (-x.exponent).toNat, x.exponent⟩

/-- The shortest decimal that rounds back; 17 digits are enough for one. -/
def shortestDecimal (x : Magnitude) : Decimal :=
  ((List.range 17).findSome? fun n => nearestDecimal? x (n + 1)).getD (exactDecimal x)

theorem round_nearestDecimal {x : Magnitude} {n : Nat} {d : Decimal} (h : nearestDecimal? x n = some d) :
    roundToNearest d.value = some x := by
  unfold nearestDecimal? at h
  simp only at h
  split at h
  next hlower =>
    split at h
    next hupper =>
      split at h
      · exact Option.some.inj h ▸ hlower
      · split at h
        · exact Option.some.inj h ▸ hupper
        · split at h
          · exact Option.some.inj h ▸ hlower
          · exact Option.some.inj h ▸ hupper
    · exact Option.some.inj h ▸ hlower
  · split at h
    next hupper => exact Option.some.inj h ▸ hupper
    · cases h

theorem exactDecimal_value (x : Magnitude) : (exactDecimal x).value = x.value := by
  unfold exactDecimal Decimal.value Magnitude.value
  split
  next hnonneg =>
    obtain ⟨k, hk⟩ := Int.eq_ofNat_of_zero_le hnonneg
    simp [hk]
  next hneg =>
    obtain ⟨k, hk⟩ : ∃ k : Nat, x.exponent = -k := ⟨(-x.exponent).toNat, by omega⟩
    simp only [hk, neg_neg, Int.toNat_natCast, Nat.cast_mul, Nat.cast_pow, Nat.cast_ofNat, zpow_neg, zpow_natCast]
    have hten : (10 : ℚ) ^ k = 5 ^ k * 2 ^ k := by rw [← mul_pow]; norm_num
    rw [hten]
    field_simp

theorem round_shortestDecimal (x : Magnitude) : roundToNearest (shortestDecimal x).value = some x := by
  unfold shortestDecimal
  cases hfound : (List.range 17).findSome? fun n => nearestDecimal? x (n + 1) with
  | none => rw [Option.getD_none, exactDecimal_value, round_value]
  | some d =>
    obtain ⟨n, -, hd⟩ := List.exists_of_findSome?_eq_some hfound
    exact round_nearestDecimal hd

example : (Magnitude.of? 4503599627370496 (-96)).map shortestDecimal = some ⟨5684341886080802, -29⟩ := by decide +kernel

end Crewplane.Lib
