import Filestore.Ieee.Number

/-!
# Accuracy of rounding

Rounding is monotone and moves a number by at most half a unit in its last place, which above the
subnormal range is a relative error of at most `2 ^ -precision`.  Scaling a rounded number by a
power of two adds no further error, and what a conversion to an integer does with the scaled number
is known at both ends of the range.
-/

namespace Filestore.Ieee

variable {F : Format}

/-! ## Natural numbers -/

theorem abs_roundHalfEven_sub_le {q : ℚ} (hq : 0 ≤ q) : |(roundHalfEven q : ℚ) - q| ≤ 1 / 2 := by
  have hfloor : (⌊q⌋₊ : ℚ) ≤ q := Nat.floor_le hq
  have hceil : q < ⌊q⌋₊ + 1 := Nat.lt_floor_add_one q
  have hparity : (⌊q⌋₊ % 2 : ℕ) ≤ 1 := by omega
  have hparity' : ((⌊q⌋₊ % 2 : ℕ) : ℚ) ≤ 1 := by exact_mod_cast hparity
  have hparity'' : (0 : ℚ) ≤ ((⌊q⌋₊ % 2 : ℕ) : ℚ) := Nat.cast_nonneg _
  rw [abs_le, roundHalfEven]
  split_ifs <;> push_cast at * <;> constructor <;> linarith

/-- A number closer than one half to a natural number is rounded to it. -/
theorem roundHalfEven_eq {q : ℚ} (hq : 0 ≤ q) {n : ℕ} (hn : |q - n| < 1 / 2) :
    roundHalfEven q = n := by
  have hround := abs_roundHalfEven_sub_le hq
  have hclose : |(roundHalfEven q : ℚ) - n| < 1 := by
    calc
      |(roundHalfEven q : ℚ) - n| ≤ |(roundHalfEven q : ℚ) - q| + |q - n| := abs_sub_le _ _ _
      _ < 1 / 2 + 1 / 2 := add_lt_add_of_le_of_lt hround hn
      _ = 1 := by norm_num
  have hcast : |(roundHalfEven q : ℤ) - n| < 1 := by exact_mod_cast hclose
  exact_mod_cast sub_eq_zero.mp (Int.abs_lt_one_iff.mp hcast)

theorem roundHalfEven_mono {q q' : ℚ} (h : q ≤ q') : roundHalfEven q ≤ roundHalfEven q' := by
  rcases (Nat.floor_mono h).lt_or_eq with hlt | heq
  · calc
      roundHalfEven q ≤ ⌊q⌋₊ + 1 := roundHalfEven_le_floor_add_one q
      _ ≤ ⌊q'⌋₊ := hlt
      _ ≤ roundHalfEven q' := floor_le_roundHalfEven q'
  · -- Below one common floor only the distance to it decides.
    rw [roundHalfEven, roundHalfEven, ← heq]
    split_ifs <;> first | omega | (exfalso; linarith)

/-! ## Magnitudes -/

theorem unitExponent_mono {q q' : ℚ} (hq : 0 < q) (h : q ≤ q') :
    unitExponent F q ≤ unitExponent F q' := by
  have hlog := Int.log_mono_right (b := 2) hq h
  unfold unitExponent
  omega

/-- Rounding moves a number by at most half of its unit. -/
theorem abs_toRat_sub_le {q : ℚ} (hq : 0 < q) {magnitude : Magnitude F}
    (h : roundMagnitude F q = some magnitude) :
    |magnitude.toRat - q| ≤ 2 ^ unitExponent F q / 2 := by
  have hunit : (0 : ℚ) < 2 ^ unitExponent F q := by positivity
  have hround := abs_roundHalfEven_sub_le (div_pos hq hunit).le
  calc
    |magnitude.toRat - q| =
        |((unitMantissa F q : ℚ) - q / 2 ^ unitExponent F q) * 2 ^ unitExponent F q| := by
      rw [exists_toRat_roundMagnitude hq h, sub_mul, div_mul_cancel₀ q hunit.ne']
    _ = |(unitMantissa F q : ℚ) - q / 2 ^ unitExponent F q| * 2 ^ unitExponent F q := by
      rw [abs_mul, abs_of_pos hunit]
    _ ≤ 1 / 2 * 2 ^ unitExponent F q := mul_le_mul_of_nonneg_right hround hunit.le
    _ = 2 ^ unitExponent F q / 2 := by ring

/-- Above the subnormal range a number has at least `2 ^ (precision - 1)` units. -/
theorem two_zpow_unitExponent_le {q : ℚ} (hq : 0 < q)
    (hnormal : F.minExponent + F.precision ≤ Int.log 2 q + 1) :
    (2 : ℚ) ^ unitExponent F q * 2 ^ F.precision ≤ q * 2 := by
  have hunit : unitExponent F q = Int.log 2 q + 1 - F.precision := by
    unfold unitExponent
    omega
  calc
    (2 : ℚ) ^ unitExponent F q * 2 ^ F.precision = 2 ^ (Int.log 2 q + 1) := by
      rw [hunit, ← zpow_natCast, ← zpow_add₀ (by norm_num), sub_add_cancel]
    _ = 2 ^ Int.log 2 q * 2 := zpow_add_one₀ (by norm_num) _
    _ ≤ q * 2 := by
      apply mul_le_mul_of_nonneg_right _ (by norm_num)
      simpa using Int.zpow_log_le_self (R := ℚ) one_lt_two hq

/-- The relative error of rounding above the subnormal range. -/
theorem abs_toRat_sub_mul_le {q : ℚ} (hq : 0 < q)
    (hnormal : F.minExponent + F.precision ≤ Int.log 2 q + 1) {magnitude : Magnitude F}
    (h : roundMagnitude F q = some magnitude) :
    |magnitude.toRat - q| * 2 ^ F.precision ≤ q := by
  calc
    |magnitude.toRat - q| * 2 ^ F.precision ≤
        2 ^ unitExponent F q / 2 * 2 ^ F.precision :=
      mul_le_mul_of_nonneg_right (abs_toRat_sub_le hq h) (by positivity)
    _ = 2 ^ unitExponent F q * 2 ^ F.precision / 2 := by ring
    _ ≤ q := by
      rw [div_le_iff₀ (by norm_num)]
      exact two_zpow_unitExponent_le hq hnormal

/-- Rounding keeps the order. -/
theorem toRat_mono {q q' : ℚ} {a b : Magnitude F} (ha : roundMagnitude F q = some a)
    (hb : roundMagnitude F q' = some b) (h : q ≤ q') : a.toRat ≤ b.toRat := by
  rcases le_or_gt q 0 with hq | hq
  · obtain rfl := Option.some.inj ((roundMagnitude_of_nonpos hq).symm.trans ha)
    rw [Magnitude.toRat_zero]
    exact b.toRat_nonneg
  have hq' : 0 < q' := hq.trans_le h
  rw [exists_toRat_roundMagnitude hq ha, exists_toRat_roundMagnitude hq' hb]
  rcases (unitExponent_mono (F := F) hq h).lt_or_eq with hlt | heq
  · -- A carry of the smaller number ends below the first mantissa of the larger unit.
    have hmantissa : 2 ^ (F.precision - 1) ≤ unitMantissa F q' := by
      apply (unitMantissa_canonical hq').resolve_left
      have := minExponent_le_unitExponent (F := F) q
      omega
    calc
      (unitMantissa F q : ℚ) * 2 ^ unitExponent F q ≤
          ((2 ^ F.precision : ℕ) : ℚ) * 2 ^ unitExponent F q := by
        apply mul_le_mul_of_nonneg_right _ (by positivity)
        exact_mod_cast unitMantissa_le hq.le
      _ = 2 ^ (F.precision - 1) * 2 ^ (unitExponent F q + 1) := by
        have hpow : (2 : ℚ) ^ F.precision = 2 ^ (F.precision - 1) * 2 := by
          rw [← pow_succ, Nat.sub_add_cancel F.precision_pos]
        rw [zpow_add_one₀ (by norm_num)]
        push_cast
        rw [hpow]
        ring
      _ ≤ (unitMantissa F q' : ℚ) * 2 ^ unitExponent F q' := by
        apply mul_le_mul
        · exact_mod_cast hmantissa
        · exact zpow_le_zpow_right₀ (by norm_num) hlt
        · positivity
        · positivity
  · rw [← heq]
    apply mul_le_mul_of_nonneg_right _ (by positivity)
    rw [unitMantissa, unitMantissa, ← heq]
    exact_mod_cast roundHalfEven_mono (div_le_div_of_nonneg_right h (by positivity))

/-- A number whose unit is above the range of the format overflows. -/
theorem roundMagnitude_eq_none {q : ℚ} (hq : 0 < q) (h : F.maxExponent < unitExponent F q) :
    roundMagnitude F q = none := by
  unfold roundMagnitude
  rw [dif_pos hq]
  split_ifs <;> first | rfl | omega

/-- Above a number that overflows every number does. -/
theorem roundMagnitude_eq_none_of_le {q q' : ℚ} (hnone : roundMagnitude F q = none) (h : q ≤ q') :
    roundMagnitude F q' = none := by
  have hq : 0 < q := by
    by_contra hq
    rw [roundMagnitude_of_nonpos (not_lt.mp hq)] at hnone
    cases hnone
  have hq' : 0 < q' := hq.trans_le h
  have hunit := unitExponent_mono (F := F) hq h
  by_cases htop : F.maxExponent < unitExponent F q'
  · exact roundMagnitude_eq_none hq' htop
  have hsame : F.maxExponent ≤ unitExponent F q → unitExponent F q' = unitExponent F q := by omega
  unfold roundMagnitude at hnone ⊢
  rw [dif_pos hq] at hnone
  rw [dif_pos hq']
  split_ifs at hnone with hmantissa hexponent hexponent
  · omega
  · -- Both numbers have the largest unit, and the smaller one carries out of it.
    have hmono : unitMantissa F q ≤ unitMantissa F q' := by
      rw [unitMantissa, unitMantissa, hsame (by omega)]
      exact roundHalfEven_mono (div_le_div_of_nonneg_right h (by positivity))
    rw [dif_neg (by omega), dif_neg (by omega)]

/-- A number that overflows would have been rounded to at least the first power of two above the
range. -/
theorem le_of_roundMagnitude_eq_none {q : ℚ} (hq : 0 < q) (hnone : roundMagnitude F q = none) :
    (2 : ℚ) ^ (F.precision + F.maxExponent) ≤ unitMantissa F q * 2 ^ unitExponent F q := by
  have hsplit (j : ℕ) (e : ℤ) (hj : 2 ^ j ≤ unitMantissa F q) (he : e ≤ unitExponent F q) :
      (2 : ℚ) ^ (j + e) ≤ unitMantissa F q * 2 ^ unitExponent F q := by
    rw [zpow_add₀ (by norm_num), zpow_natCast]
    apply mul_le_mul
    · exact_mod_cast hj
    · exact zpow_le_zpow_right₀ (by norm_num) he
    · positivity
    · positivity
  have hpos := F.precision_pos
  have hrange := F.minExponent_le_maxExponent
  by_cases hmantissa : unitMantissa F q < 2 ^ F.precision
  · have hexponent : F.maxExponent < unitExponent F q := by
      by_contra hle
      rw [roundMagnitude, dif_pos hq, dif_pos hmantissa, dif_pos (not_lt.mp hle)] at hnone
      cases hnone
    have hcanonical : 2 ^ (F.precision - 1) ≤ unitMantissa F q :=
      (unitMantissa_canonical hq).resolve_left (by omega)
    have hbound := hsplit (F.precision - 1) (F.maxExponent + 1) hcanonical hexponent
    rwa [show ((F.precision - 1 : ℕ) : ℤ) + (F.maxExponent + 1) = F.precision + F.maxExponent by
      omega] at hbound
  · have hexponent : F.maxExponent ≤ unitExponent F q := by
      by_contra hlt
      rw [roundMagnitude, dif_pos hq, dif_neg hmantissa, dif_pos (by omega)] at hnone
      cases hnone
    exact hsplit F.precision F.maxExponent (not_lt.mp hmantissa) hexponent

/-- The unit is scaled along with a number above the subnormal range. -/
theorem unitExponent_mul_two_pow {q : ℚ} (hq : 0 < q)
    (hnormal : F.minExponent + F.precision ≤ Int.log 2 q + 1) (k : ℕ) :
    unitExponent F (q * 2 ^ k) = unitExponent F q + k := by
  have hpos : 0 < q * 2 ^ k := by positivity
  have hlower : Int.log 2 q + k ≤ Int.log 2 (q * 2 ^ k) := by
    rw [← Int.zpow_le_iff_le_log one_lt_two hpos, zpow_add₀ (by norm_num), zpow_natCast,
      Nat.cast_ofNat]
    exact mul_le_mul_of_nonneg_right (Int.zpow_log_le_self one_lt_two hq) (by positivity)
  have hupper : Int.log 2 (q * 2 ^ k) < Int.log 2 q + 1 + k := by
    rw [← Int.lt_zpow_iff_log_lt one_lt_two hpos, zpow_add₀ (by norm_num), zpow_natCast,
      Nat.cast_ofNat]
    exact mul_lt_mul_of_pos_right (Int.lt_zpow_succ_log_self one_lt_two q) (by positivity)
  unfold unitExponent
  omega

theorem unitMantissa_mul_two_pow {q : ℚ} (hq : 0 < q)
    (hnormal : F.minExponent + F.precision ≤ Int.log 2 q + 1) (k : ℕ) :
    unitMantissa F (q * 2 ^ k) = unitMantissa F q := by
  rw [unitMantissa, unitMantissa, unitExponent_mul_two_pow hq hnormal, zpow_add₀ (by norm_num),
    zpow_natCast, mul_div_mul_right _ _ (by positivity)]

namespace Number

/-! ## Scaling and converting to an integer -/

/-- The integer part of `2 ^ k` times the rounded number, saturated at a limit. -/
def scaledFloor (F : Format) (k limit : ℕ) (q : ℚ) : ℕ :=
  match roundMagnitude F q with
  | some magnitude => min ⌊magnitude.toRat * 2 ^ k⌋₊ limit
  | none => limit

theorem scaledFloor_le (k limit : ℕ) (q : ℚ) : scaledFloor F k limit q ≤ limit := by
  unfold scaledFloor
  split
  · exact min_le_right _ _
  · exact le_rfl

theorem scaledFloor_mono (k limit : ℕ) {q q' : ℚ} (h : q ≤ q') :
    scaledFloor F k limit q ≤ scaledFloor F k limit q' := by
  cases hb : roundMagnitude F q' with
  | none =>
    calc
      scaledFloor F k limit q ≤ limit := scaledFloor_le k limit q
      _ = scaledFloor F k limit q' := by rw [scaledFloor, hb]
  | some b =>
    cases ha : roundMagnitude F q with
    | none =>
      rw [roundMagnitude_eq_none_of_le ha h] at hb
      cases hb
    | some a =>
      simp only [scaledFloor, ha, hb]
      apply min_le_min_right
      apply Nat.floor_mono
      exact mul_le_mul_of_nonneg_right (toRat_mono ha hb h) (by positivity)

/-- A product that leaves the range of binary64 is at least `2 ^ 1024`. -/
theorem two_pow_le_of_exponent {a : Magnitude binary64} {k : ℕ} (hk : k ≤ 64)
    (hexponent : binary64.maxExponent < a.exponent + k) : (2 : ℚ) ^ 1024 ≤ a.toRat * 2 ^ k := by
  have hmantissa : 2 ^ (binary64.precision - 1) ≤ a.mantissa := by
    apply a.canonical.resolve_left
    intro hmin
    rw [hmin] at hexponent
    simp only [binary64] at hexponent
    omega
  calc
    (2 : ℚ) ^ 1024 = 2 ^ 52 * 2 ^ 972 := by rw [← pow_add]
    _ = ((2 ^ (binary64.precision - 1) : ℕ) : ℚ) * 2 ^ (972 : ℤ) := by
      rw [← zpow_natCast (2 : ℚ) 972]
      norm_num only [binary64, Nat.cast_pow]
    _ ≤ a.mantissa * 2 ^ (a.exponent + k) := by
      apply mul_le_mul
      · exact_mod_cast hmantissa
      · apply zpow_le_zpow_right₀ (by norm_num)
        simp only [binary64] at hexponent
        omega
      · positivity
      · positivity
    _ = a.toRat * 2 ^ k := by
      rw [Magnitude.toRat, zpow_add₀ (by norm_num), zpow_natCast, mul_assoc]

/-- What is beyond the format is beyond every limit of 64 bits. -/
theorem le_floor_of_large {limit : ℕ} (hlimit : limit ≤ 2 ^ 64) {q : ℚ} (hq : 2 ^ 1024 ≤ q) :
    limit ≤ ⌊q⌋₊ := by
  apply Nat.le_floor
  calc
    (limit : ℚ) ≤ 2 ^ 64 := by exact_mod_cast hlimit
    _ ≤ 2 ^ 1024 := pow_le_pow_right₀ (by norm_num) (by norm_num)
    _ ≤ q := hq

/-- Converting a rounded number times a power of two rounds only once, and saturates. -/
theorem truncate_mul_two_pow_eq_scaledFloor (q : ℚ) {k limit : ℕ} (hk : k ≤ 64)
    (hlimit : limit ≤ 2 ^ 64) :
    (mul (round binary64 false q) (ofNat binary64 (2 ^ k))).truncate limit =
      scaledFloor binary64 k limit q := by
  obtain ⟨b, hb, hbvalue⟩ := ofNat_two_pow (F := binary64) (k := k) (by decide)
    (by simp only [binary64]; omega) (by simp only [binary64]; omega)
  rw [hb, round, scaledFloor]
  cases roundMagnitude binary64 q with
  | none =>
    have hmantissa : b.mantissa ≠ 0 := by
      intro hzero
      rw [Magnitude.toRat, hzero, Nat.cast_zero, zero_mul] at hbvalue
      exact absurd hbvalue.symm (by positivity)
    simp [mul, hmantissa, truncate]
  | some a =>
    dsimp only
    by_cases hexponent : a.exponent + k ≤ binary64.maxExponent
    · obtain ⟨c, hc, hcvalue⟩ := mul_two_pow_exact false a hbvalue hexponent
      rw [hc, truncate, hcvalue]
      rfl
    · have hlarge := two_pow_le_of_exponent hk (not_le.mp hexponent)
      have hoverflow : roundMagnitude binary64 (a.toRat * 2 ^ k) = none := by
        have hpos : 0 < a.toRat * 2 ^ k := lt_of_lt_of_le (by positivity) hlarge
        apply roundMagnitude_eq_none hpos
        have hlog : ((1024 : ℕ) : ℤ) ≤ Int.log 2 (a.toRat * 2 ^ k) := by
          rwa [← Int.zpow_le_iff_le_log one_lt_two hpos, zpow_natCast, Nat.cast_ofNat]
        have hprecision : binary64.precision = 53 := rfl
        have hmax : binary64.maxExponent = 971 := rfl
        unfold unitExponent
        omega
      rw [mul, hbvalue, round, hoverflow, min_eq_right (le_floor_of_large hlimit hlarge)]
      rfl

/-- A number below `2 ^ -65` stays below one when it is scaled. -/
theorem scaledFloor_eq_zero {q : ℚ} {k : ℕ} (limit : ℕ) (hk : k ≤ 64) (hq : q ≤ 2 ^ (-65 : ℤ)) :
    scaledFloor binary64 k limit q = 0 := by
  obtain ⟨bound, hbound, hvalue⟩ := roundMagnitude_exact (F := binary64) 1 (-65) (by decide)
    (by decide) (by decide)
  rw [Nat.cast_one, one_mul] at hbound hvalue
  cases ha : roundMagnitude binary64 q with
  | none =>
    rw [roundMagnitude_eq_none_of_le ha hq] at hbound
    cases hbound
  | some a =>
    have hfloor : ⌊a.toRat * 2 ^ k⌋₊ = 0 := by
      rw [Nat.floor_eq_zero]
      calc
        a.toRat * 2 ^ k ≤ 2 ^ (-65 : ℤ) * 2 ^ (k : ℤ) := by
          rw [← hvalue, zpow_natCast]
          exact mul_le_mul_of_nonneg_right (toRat_mono ha hbound hq) (by positivity)
        _ = 2 ^ (-65 + (k : ℤ)) := (zpow_add₀ (by norm_num) _ _).symm
        _ < 2 ^ (0 : ℤ) := zpow_lt_zpow_right₀ (by norm_num) (by omega)
        _ = 1 := zpow_zero 2
    simp only [scaledFloor, ha, hfloor, Nat.zero_min]

/-- Scaling a number before or after rounding it gives the same integer: below the subnormal limit
both are zero, and above it rounding commutes with the scaling. -/
theorem scaledFloor_mul_two_pow (q : ℚ) {k limit : ℕ} (hk : k ≤ 64) (hlimit : limit ≤ 2 ^ 64) :
    scaledFloor binary64 0 limit (q * 2 ^ k) = scaledFloor binary64 k limit q := by
  have hprecision : binary64.precision = 53 := rfl
  have hmin : binary64.minExponent = -1074 := rfl
  have hmax : binary64.maxExponent = 971 := rfl
  rcases le_or_gt q 0 with hq | hq
  · have hq' : q * 2 ^ k ≤ 0 := mul_nonpos_of_nonpos_of_nonneg hq (by positivity)
    simp [scaledFloor, roundMagnitude_of_nonpos hq, roundMagnitude_of_nonpos hq']
  have hq' : 0 < q * 2 ^ k := by positivity
  have hle : q ≤ q * 2 ^ k := le_mul_of_one_le_right hq.le (one_le_pow₀ (by norm_num))
  by_cases hnormal : binary64.minExponent + binary64.precision ≤ Int.log 2 q + 1
  · have hvalue : (unitMantissa binary64 (q * 2 ^ k) : ℚ) * 2 ^ unitExponent binary64 (q * 2 ^ k) =
        unitMantissa binary64 q * 2 ^ unitExponent binary64 q * 2 ^ k := by
      rw [unitMantissa_mul_two_pow hq hnormal, unitExponent_mul_two_pow hq hnormal,
        zpow_add₀ (by norm_num), zpow_natCast, mul_assoc]
    cases ha : roundMagnitude binary64 q with
    | none =>
      have hb := roundMagnitude_eq_none_of_le ha hle
      simp only [scaledFloor, ha, hb]
    | some a =>
      have havalue := exists_toRat_roundMagnitude hq ha
      cases hb : roundMagnitude binary64 (q * 2 ^ k) with
      | some b =>
        have hbvalue := exists_toRat_roundMagnitude hq' hb
        simp only [scaledFloor, ha, hb]
        rw [hbvalue, hvalue, havalue, pow_zero, mul_one]
      | none =>
        have hlarge : 2 ^ 1024 ≤ a.toRat * 2 ^ k := by
          rw [havalue, ← hvalue, ← zpow_natCast]
          exact le_of_roundMagnitude_eq_none hq' hb
        simp only [scaledFloor, ha, hb]
        rw [min_eq_right (le_floor_of_large hlimit hlarge)]
  · -- A number in the subnormal range stays below one after the scaling.
    have hsmall : q < 2 ^ (-1022 : ℤ) := by
      have hlt := (Int.lt_zpow_iff_log_lt (b := 2) one_lt_two hq).mpr
        (by omega : Int.log 2 q < -1022)
      simpa using hlt
    have hscaled : q * 2 ^ k ≤ 2 ^ (-65 : ℤ) := by
      calc
        q * 2 ^ k ≤ 2 ^ (-1022 : ℤ) * 2 ^ (k : ℤ) := by
          rw [zpow_natCast]
          exact mul_le_mul_of_nonneg_right hsmall.le (by positivity)
        _ = 2 ^ (-1022 + (k : ℤ)) := (zpow_add₀ (by norm_num) _ _).symm
        _ ≤ 2 ^ (-65 : ℤ) := zpow_le_zpow_right₀ (by norm_num) (by omega)
    rw [scaledFloor_eq_zero limit (Nat.zero_le _) hscaled,
      scaledFloor_eq_zero limit hk (hle.trans hscaled)]

end Number

/-! ## The middle of the range of binary64 -/

/-- The binary64 number nearest to a rational that does not overflow. -/
def nearest (q : ℚ) : ℚ := ((roundMagnitude binary64 q).map Magnitude.toRat).getD 0

theorem nearest_eq {q : ℚ} {a : Magnitude binary64} (ha : roundMagnitude binary64 q = some a) :
    nearest q = a.toRat := by
  simp [nearest, ha]

theorem unitExponent_le_of_le {q : ℚ} (hq : 0 < q) (hq' : q ≤ 2 ^ 64) :
    unitExponent binary64 q ≤ 12 := by
  have hlog : Int.log 2 q ≤ 64 := by
    calc
      Int.log 2 q ≤ Int.log 2 (((2 : ℕ) : ℚ) ^ (64 : ℤ)) :=
        Int.log_mono_right hq (by exact_mod_cast hq')
      _ = 64 := Int.log_zpow one_lt_two 64
  have hprecision : binary64.precision = 53 := rfl
  have hmin : binary64.minExponent = -1074 := rfl
  unfold unitExponent
  omega

theorem exists_roundMagnitude_of_le {q : ℚ} (hq' : q ≤ 2 ^ 64) :
    ∃ magnitude, roundMagnitude binary64 q = some magnitude := by
  rcases le_or_gt q 0 with hq | hq
  · exact ⟨_, roundMagnitude_of_nonpos hq⟩
  · apply exists_roundMagnitude
    have hunit := unitExponent_le_of_le hq hq'
    have hmax : binary64.maxExponent = 971 := rfl
    omega

theorem nearest_mono {q q' : ℚ} (h : q ≤ q') (hq' : q' ≤ 2 ^ 64) : nearest q ≤ nearest q' := by
  obtain ⟨a, ha⟩ := exists_roundMagnitude_of_le (h.trans hq')
  obtain ⟨b, hb⟩ := exists_roundMagnitude_of_le hq'
  rw [nearest_eq ha, nearest_eq hb]
  exact toRat_mono ha hb h

theorem nearest_of_representable {q : ℚ} (hq' : q ≤ 2 ^ 64) (h : Representable binary64 q) :
    nearest q = q := by
  obtain ⟨a, ha⟩ := exists_roundMagnitude_of_le hq'
  rw [nearest_eq ha]
  exact (toRat_eq_iff_representable ha).mpr h

theorem nearest_two_pow {k : ℕ} (hk : k ≤ 64) : nearest (2 ^ k) = 2 ^ k := by
  apply nearest_of_representable (pow_le_pow_right₀ (by norm_num) hk)
  have hone := representable_of_lt (F := binary64) 1 k (by decide)
    (by simp only [binary64]; omega) (by simp only [binary64]; omega)
  simpa using hone

/-- From one to `2 ^ 64` binary64 is exact to one part in `2 ^ 53`. -/
theorem abs_nearest_sub_le {q : ℚ} (hq : 1 ≤ q) (hq' : q ≤ 2 ^ 64) :
    |nearest q - q| ≤ q / 2 ^ 53 := by
  have hpos : 0 < q := lt_of_lt_of_le one_pos hq
  obtain ⟨a, ha⟩ := exists_roundMagnitude_of_le hq'
  have hlog : 0 ≤ Int.log 2 q := by
    rw [← Int.log_one_right (R := ℚ) 2]
    exact Int.log_mono_right one_pos hq
  rw [nearest_eq ha, le_div_iff₀ (by positivity)]
  apply abs_toRat_sub_mul_le hpos _ ha
  have hprecision : binary64.precision = 53 := rfl
  have hmin : binary64.minExponent = -1074 := rfl
  omega

namespace Number

theorem scaledFloor_eq_nearest (k limit : ℕ) {q : ℚ} (hq' : q ≤ 2 ^ 64) :
    scaledFloor binary64 k limit q = min ⌊nearest q * 2 ^ k⌋₊ limit := by
  obtain ⟨a, ha⟩ := exists_roundMagnitude_of_le hq'
  rw [scaledFloor, ha, nearest_eq ha]

end Number

end Filestore.Ieee
