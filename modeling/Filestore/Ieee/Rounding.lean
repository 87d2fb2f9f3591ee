import Mathlib.Algebra.Order.Field.Power
import Mathlib.Data.Int.Log
import Mathlib.Data.Rat.Floor
import Mathlib.Tactic.FieldSimp
import Mathlib.Tactic.Linarith
import Mathlib.Tactic.Positivity
import Mathlib.Tactic.Ring

/-!
# Binary floating-point magnitudes and rounding to nearest, ties to even

A `Format` fixes the number of significand bits and the range of exponents of the last place.  A
`Magnitude` is a canonical pair of mantissa and exponent, so a value outside the format cannot be
built.  `roundMagnitude` rounds a nonnegative rational to the nearest magnitude with ties to even
and reports overflow; it is computable, and it is exact on every value of the format.
-/

namespace Filestore.Ieee

/-- The values of a format are `mantissa * 2 ^ exponent` with `mantissa < 2 ^ precision` and
`minExponent ≤ exponent ≤ maxExponent`. -/
structure Format where
  precision : ℕ
  minExponent : ℤ
  maxExponent : ℤ
  precision_pos : 0 < precision
  minExponent_le_maxExponent : minExponent ≤ maxExponent

/-- IEEE 754 binary64: 53 significand bits, subnormals down to `2 ^ -1074`. -/
def binary64 : Format where
  precision := 53
  minExponent := -1074
  maxExponent := 971
  precision_pos := by decide
  minExponent_le_maxExponent := by decide

/-- The absolute value of a finite number: the mantissa uses all significand bits unless the
exponent is the smallest one, so every value has one magnitude. -/
structure Magnitude (F : Format) where
  mantissa : ℕ
  exponent : ℤ
  mantissa_lt : mantissa < 2 ^ F.precision
  minExponent_le : F.minExponent ≤ exponent
  exponent_le : exponent ≤ F.maxExponent
  canonical : exponent = F.minExponent ∨ 2 ^ (F.precision - 1) ≤ mantissa
  deriving DecidableEq

variable {F : Format}

namespace Magnitude

/-- The rational number a magnitude stands for. -/
def toRat (magnitude : Magnitude F) : ℚ := magnitude.mantissa * 2 ^ magnitude.exponent

theorem toRat_nonneg (magnitude : Magnitude F) : 0 ≤ magnitude.toRat := by
  unfold toRat
  positivity

/-- The magnitude of zero. -/
def zero (F : Format) : Magnitude F where
  mantissa := 0
  exponent := F.minExponent
  mantissa_lt := by positivity
  minExponent_le := le_rfl
  exponent_le := F.minExponent_le_maxExponent
  canonical := .inl rfl

@[simp]
theorem toRat_zero : (zero F).toRat = 0 := by simp [zero, toRat]

end Magnitude

/-- A rational that the format represents without rounding. -/
def Representable (F : Format) (q : ℚ) : Prop := ∃ magnitude : Magnitude F, magnitude.toRat = q

/-! ## Rounding a rational to a natural number -/

/-- The nearest natural number; the even one of two equally near ones. -/
def roundHalfEven (q : ℚ) : ℕ :=
  let rest := q - ⌊q⌋₊
  if rest < 1 / 2 then ⌊q⌋₊
  else if 1 / 2 < rest then ⌊q⌋₊ + 1
  else ⌊q⌋₊ + ⌊q⌋₊ % 2

@[simp]
theorem roundHalfEven_natCast (n : ℕ) : roundHalfEven n = n := by
  simp [roundHalfEven]

theorem floor_le_roundHalfEven (q : ℚ) : ⌊q⌋₊ ≤ roundHalfEven q := by
  unfold roundHalfEven
  dsimp only
  split_ifs <;> omega

theorem roundHalfEven_le_floor_add_one (q : ℚ) : roundHalfEven q ≤ ⌊q⌋₊ + 1 := by
  unfold roundHalfEven
  dsimp only
  split_ifs <;> omega

/-! ## Rounding a rational to a magnitude -/

/-- The exponent of the last place that a positive rational is rounded at. -/
def unitExponent (F : Format) (q : ℚ) : ℤ := max F.minExponent (Int.log 2 q + 1 - F.precision)

theorem minExponent_le_unitExponent (q : ℚ) : F.minExponent ≤ unitExponent F q := le_max_left _ _

/-- The mantissa before a possible carry into the next binade. -/
def unitMantissa (F : Format) (q : ℚ) : ℕ := roundHalfEven (q / 2 ^ unitExponent F q)

/-- At its unit, a positive rational has at most `precision` digits before the point. -/
theorem div_unit_lt (q : ℚ) : q / 2 ^ unitExponent F q < 2 ^ F.precision := by
  rw [div_lt_iff₀ (by positivity)]
  calc
    q < 2 ^ (Int.log 2 q + 1) := by
      simpa using Int.lt_zpow_succ_log_self (R := ℚ) one_lt_two q
    _ ≤ 2 ^ ((F.precision : ℤ) + unitExponent F q) := by
      apply zpow_le_zpow_right₀ (by norm_num)
      have := le_max_right F.minExponent (Int.log 2 q + 1 - F.precision)
      unfold unitExponent
      omega
    _ = 2 ^ F.precision * 2 ^ unitExponent F q := by
      rw [zpow_add₀ (by norm_num), zpow_natCast]

theorem unitMantissa_le {q : ℚ} (hq : 0 ≤ q) : unitMantissa F q ≤ 2 ^ F.precision := by
  have hfloor : ⌊q / 2 ^ unitExponent F q⌋₊ < 2 ^ F.precision := by
    rw [Nat.floor_lt (by positivity)]
    exact_mod_cast div_unit_lt q
  exact (roundHalfEven_le_floor_add_one _).trans hfloor

/-- Above the subnormal range the mantissa uses all significand bits. -/
theorem unitMantissa_canonical {q : ℚ} (hq : 0 < q) :
    unitExponent F q = F.minExponent ∨ 2 ^ (F.precision - 1) ≤ unitMantissa F q := by
  rcases max_choice F.minExponent (Int.log 2 q + 1 - F.precision) with hmin | hlog
  · exact .inl hmin
  · refine .inr (le_trans ?_ (floor_le_roundHalfEven _))
    rw [unitExponent, hlog]
    apply Nat.le_floor
    rw [le_div_iff₀ (by positivity)]
    calc
      ((2 ^ (F.precision - 1) : ℕ) : ℚ) * 2 ^ (Int.log 2 q + 1 - F.precision) =
          2 ^ (((F.precision - 1 : ℕ) : ℤ) + (Int.log 2 q + 1 - F.precision)) := by
        rw [zpow_add₀ (by norm_num), zpow_natCast]
        push_cast
        rfl
      _ = 2 ^ Int.log 2 q := by
        congr 1
        have := F.precision_pos
        omega
      _ ≤ q := by simpa using Int.zpow_log_le_self (R := ℚ) one_lt_two hq

/-- The nearest magnitude to a nonnegative rational, ties to even; `none` when it overflows. -/
def roundMagnitude (F : Format) (q : ℚ) : Option (Magnitude F) :=
  if hq : 0 < q then
    if hmantissa : unitMantissa F q < 2 ^ F.precision then
      if hexponent : unitExponent F q ≤ F.maxExponent then
        some ⟨unitMantissa F q, unitExponent F q, hmantissa, minExponent_le_unitExponent q,
          hexponent, unitMantissa_canonical hq⟩
      else none
    else if hexponent : unitExponent F q + 1 ≤ F.maxExponent then
      some ⟨2 ^ (F.precision - 1), unitExponent F q + 1,
        Nat.pow_lt_pow_right (by norm_num) (by have := F.precision_pos; omega),
        (minExponent_le_unitExponent q).trans (by omega), hexponent, .inr le_rfl⟩
    else none
  else some (Magnitude.zero F)

theorem roundMagnitude_of_nonpos {q : ℚ} (hq : q ≤ 0) :
    roundMagnitude F q = some (Magnitude.zero F) := by
  simp [roundMagnitude, hq.not_gt]

/-- The rounded value is a whole number of units of the rounded rational. -/
theorem exists_toRat_roundMagnitude {q : ℚ} (hq : 0 < q) {magnitude : Magnitude F}
    (h : roundMagnitude F q = some magnitude) :
    magnitude.toRat = unitMantissa F q * 2 ^ unitExponent F q := by
  unfold roundMagnitude at h
  rw [dif_pos hq] at h
  split_ifs at h with hmantissa hexponent hexponent
  · obtain rfl := Option.some.inj h
    rfl
  · obtain rfl := Option.some.inj h
    have hcarry : unitMantissa F q = 2 ^ F.precision :=
      le_antisymm (unitMantissa_le hq.le) (not_lt.mp hmantissa)
    have hpow : (2 : ℚ) ^ F.precision = 2 ^ (F.precision - 1) * 2 := by
      rw [← pow_succ, Nat.sub_add_cancel F.precision_pos]
    rw [Magnitude.toRat, hcarry]
    push_cast
    rw [zpow_add₀ (by norm_num), hpow]
    ring

/-- Below the top of the exponent range rounding does not overflow. -/
theorem exists_roundMagnitude {q : ℚ} (h : unitExponent F q + 1 ≤ F.maxExponent) :
    ∃ magnitude, roundMagnitude F q = some magnitude := by
  by_cases hq : 0 < q
  · by_cases hmantissa : unitMantissa F q < 2 ^ F.precision
    · exact ⟨_, by rw [roundMagnitude, dif_pos hq, dif_pos hmantissa, dif_pos (by omega)]⟩
    · exact ⟨_, by rw [roundMagnitude, dif_pos hq, dif_neg hmantissa, dif_pos h]⟩
  · exact ⟨_, roundMagnitude_of_nonpos (not_lt.mp hq)⟩

/-! ## Exactness -/

/-- The unit of a value of the format is at most the exponent it was written with. -/
theorem unitExponent_le {mantissa : ℕ} {exponent : ℤ} (hpos : 0 < mantissa)
    (hmantissa : mantissa < 2 ^ F.precision) (hexponent : F.minExponent ≤ exponent) :
    unitExponent F (mantissa * 2 ^ exponent) ≤ exponent := by
  apply max_le hexponent
  have hvalue : (0 : ℚ) < mantissa * 2 ^ exponent := by positivity
  have hlog : Int.log 2 ((mantissa : ℚ) * 2 ^ exponent) < F.precision + exponent := by
    rw [← Int.lt_zpow_iff_log_lt one_lt_two hvalue, Nat.cast_ofNat, zpow_add₀ (by norm_num),
      zpow_natCast]
    exact mul_lt_mul_of_pos_right (by exact_mod_cast hmantissa) (by positivity)
  omega

/-- Rounding leaves a value `mantissa * 2 ^ exponent` in the range of the format unchanged, however
it is written. -/
theorem roundMagnitude_exact (mantissa : ℕ) (exponent : ℤ)
    (hmantissa : mantissa < 2 ^ F.precision) (hmin : F.minExponent ≤ exponent)
    (hmax : exponent ≤ F.maxExponent) :
    ∃ magnitude, roundMagnitude F (mantissa * 2 ^ exponent) = some magnitude ∧
      magnitude.toRat = mantissa * 2 ^ exponent := by
  rcases Nat.eq_zero_or_pos mantissa with rfl | hpos
  · exact ⟨Magnitude.zero F, by rw [roundMagnitude_of_nonpos (by simp)], by simp⟩
  set q : ℚ := mantissa * 2 ^ exponent with hq
  have hqpos : 0 < q := by positivity
  have hunit : unitExponent F q ≤ exponent := unitExponent_le hpos hmantissa hmin
  obtain ⟨shift, hshift⟩ := Int.eq_ofNat_of_zero_le (sub_nonneg.mpr hunit)
  -- Both mantissas count the same value, in units of `unitExponent F q` and of `exponent`.
  have hscaled : q / 2 ^ unitExponent F q = ((mantissa * 2 ^ shift : ℕ) : ℚ) := by
    rw [hq, mul_div_assoc, ← zpow_sub₀ (by norm_num : (2 : ℚ) ≠ 0), hshift]
    push_cast
    rfl
  have hround : unitMantissa F q = mantissa * 2 ^ shift := by
    rw [unitMantissa, hscaled, roundHalfEven_natCast]
  have hlt : unitMantissa F q < 2 ^ F.precision := by
    have h := div_unit_lt (F := F) q
    rw [hscaled] at h
    rw [hround]
    exact_mod_cast h
  have hsome : roundMagnitude F q = some ⟨unitMantissa F q, unitExponent F q, hlt,
      minExponent_le_unitExponent q, hunit.trans hmax, unitMantissa_canonical hqpos⟩ := by
    rw [roundMagnitude, dif_pos hqpos, dif_pos hlt, dif_pos (hunit.trans hmax)]
  refine ⟨_, hsome, ?_⟩
  rw [exists_toRat_roundMagnitude hqpos hsome, hround, ← hscaled]
  field_simp

theorem representable_of_lt (mantissa : ℕ) (exponent : ℤ)
    (hmantissa : mantissa < 2 ^ F.precision) (hmin : F.minExponent ≤ exponent)
    (hmax : exponent ≤ F.maxExponent) :
    Representable F (mantissa * 2 ^ exponent) := by
  obtain ⟨magnitude, -, hvalue⟩ := roundMagnitude_exact mantissa exponent hmantissa hmin hmax
  exact ⟨magnitude, hvalue⟩

/-- Rounding is exact precisely on the representable rationals. -/
theorem toRat_eq_iff_representable {q : ℚ} {magnitude : Magnitude F}
    (h : roundMagnitude F q = some magnitude) : magnitude.toRat = q ↔ Representable F q := by
  constructor
  · exact fun hvalue ↦ ⟨magnitude, hvalue⟩
  · rintro ⟨exact, rfl⟩
    obtain ⟨rounded, hround, hvalue⟩ :=
      roundMagnitude_exact _ _ exact.mantissa_lt exact.minExponent_le exact.exponent_le
    obtain rfl : rounded = magnitude := Option.some.inj (hround.symm.trans h)
    exact hvalue

/-! ## Natural numbers in binary64 -/

theorem unitExponent_natCast (n : ℕ) :
    unitExponent binary64 n = max (-1074) ((Nat.log 2 n : ℤ) - 52) := by
  rw [unitExponent, Int.log_natCast]
  simp only [binary64]
  congr 1
  push_cast
  ring

theorem representable_of_lt_two_pow {n : ℕ} (hn : n < 2 ^ 53) : Representable binary64 n := by
  have h := representable_of_lt (F := binary64) n 0 hn (by decide) (by decide)
  simpa using h

/-- Binary64 has a natural number exactly when the number has at most 53 significant bits. -/
theorem representable_natCast_iff_dvd {n : ℕ} (hlog : Nat.log 2 n ≤ 1023) :
    Representable binary64 n ↔ 2 ^ (Nat.log 2 n - 52) ∣ n := by
  rcases le_or_gt (Nat.log 2 n) 52 with hsmall | hlarge
  · have hlt : n < 2 ^ 53 := Nat.lt_pow_of_log_lt one_lt_two (by omega)
    exact iff_of_true (representable_of_lt_two_pow hlt) (by simp [Nat.sub_eq_zero_of_le hsmall])
  obtain ⟨shift, hshift⟩ := Nat.exists_eq_add_of_le hlarge.le
  rw [hshift, Nat.add_sub_cancel_left]
  constructor
  · rintro ⟨magnitude, hvalue⟩
    have hpos : 0 < magnitude.mantissa := by
      apply Nat.pos_of_ne_zero
      intro hzero
      obtain rfl : n = 0 := by
        rw [Magnitude.toRat, hzero] at hvalue
        exact_mod_cast (by simpa using hvalue.symm : (n : ℚ) = 0)
      simp at hlarge
    have hunit : unitExponent binary64 n ≤ magnitude.exponent := by
      rw [← hvalue]
      exact unitExponent_le hpos magnitude.mantissa_lt magnitude.minExponent_le
    rw [unitExponent_natCast] at hunit
    obtain ⟨exponent, hexponent⟩ := Int.eq_ofNat_of_zero_le (by omega : 0 ≤ magnitude.exponent)
    have hproduct : n = magnitude.mantissa * 2 ^ exponent := by
      rw [Magnitude.toRat, hexponent, zpow_natCast] at hvalue
      exact_mod_cast hvalue.symm
    rw [hproduct]
    exact (pow_dvd_pow 2 (by omega)).mul_left _
  · rintro ⟨mantissa, hproduct⟩
    have hmantissa : mantissa < 2 ^ 53 := by
      apply Nat.lt_of_mul_lt_mul_left (a := 2 ^ shift)
      calc
        2 ^ shift * mantissa = n := hproduct.symm
        _ < 2 ^ (Nat.log 2 n + 1) := Nat.lt_pow_succ_log_self one_lt_two n
        _ = 2 ^ shift * 2 ^ 53 := by
          rw [hshift, ← pow_add]
          congr 1
          omega
    have h := representable_of_lt (F := binary64) mantissa shift hmantissa
      (by simp only [binary64]; omega) (by simp only [binary64]; omega)
    have hvalue : (n : ℚ) = mantissa * 2 ^ (shift : ℤ) := by
      rw [zpow_natCast, mul_comm]
      exact_mod_cast hproduct
    rwa [hvalue]

/-- Up to `2 ^ 54`, binary64 has every natural number up to `2 ^ 53` and every even one. -/
theorem representable_natCast_iff {n : ℕ} (hn : n < 2 ^ 54) :
    Representable binary64 n ↔ n < 2 ^ 53 ∨ n % 2 = 0 := by
  rcases lt_or_ge n (2 ^ 53) with hsmall | hlarge
  · exact iff_of_true (representable_of_lt_two_pow hsmall) (.inl hsmall)
  · have hlog : Nat.log 2 n = 53 := Nat.log_eq_of_pow_le_of_lt_pow hlarge hn
    rw [representable_natCast_iff_dvd (by omega), hlog]
    omega

end Filestore.Ieee
