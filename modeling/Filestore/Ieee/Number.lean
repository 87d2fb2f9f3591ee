import Filestore.Ieee.Rounding
import Mathlib.Tactic.NormNum

/-!
# Floating-point numbers

NaN, the two infinities and the signed finite numbers of a format, with correctly rounded
multiplication, the comparison and maximum of IEEE 754, and the saturating conversion to an
unsigned integer.  The exactness results say when scaling by a power of two loses nothing and when
a natural number survives the trip through the format.
-/

namespace Filestore.Ieee

/-- A floating-point datum; both zeros and the signs of infinities are kept apart. -/
inductive Number (F : Format) where
  | nan
  | infinity (negative : Bool)
  | finite (negative : Bool) (magnitude : Magnitude F)
  deriving DecidableEq

namespace Number

variable {F : Format}

/-- The datum nearest to the rational with the given sign and absolute value. -/
def round (F : Format) (negative : Bool) (q : ℚ) : Number F :=
  match roundMagnitude F q with
  | some magnitude => .finite negative magnitude
  | none => .infinity negative

/-- Conversion from an unsigned integer. -/
def ofNat (F : Format) (n : ℕ) : Number F := round F false n

/-- The rational of the given sign and absolute value. -/
def signed (negative : Bool) (q : ℚ) : ℚ := if negative then -q else q

@[simp]
theorem signed_true (q : ℚ) : signed true q = -q := rfl

@[simp]
theorem signed_false (q : ℚ) : signed false q = q := rfl

/-- Multiplication: one rounding of the exact product. -/
def mul : Number F → Number F → Number F
  | .nan, _ => .nan
  | _, .nan => .nan
  | .infinity left, .infinity right => .infinity (left ^^ right)
  | .infinity left, .finite right magnitude =>
      if magnitude.mantissa = 0 then .nan else .infinity (left ^^ right)
  | .finite left magnitude, .infinity right =>
      if magnitude.mantissa = 0 then .nan else .infinity (left ^^ right)
  | .finite left a, .finite right b => round F (left ^^ right) (a.toRat * b.toRat)

/-- The place of a datum on the extended rational line; NaN has none and both zeros have one. -/
def place : Number F → Option (WithBot (WithTop ℚ))
  | .nan => none
  | .infinity negative => some (if negative then ⊥ else ((⊤ : WithTop ℚ) : WithBot (WithTop ℚ)))
  | .finite negative magnitude => some ((signed negative magnitude.toRat : WithTop ℚ))

/-- The order of IEEE 754: nothing compares with NaN, and the two zeros are equal. -/
def le (left right : Number F) : Bool :=
  match left.place, right.place with
  | some x, some y => x ≤ y
  | _, _ => false

instance : LE (Number F) := ⟨fun left right ↦ left.le right = true⟩

instance (left right : Number F) : Decidable (left ≤ right) :=
  inferInstanceAs (Decidable (left.le right = true))

/-- The larger of two data; a NaN is ignored in favour of the other one. -/
def max : Number F → Number F → Number F
  | .nan, right => right
  | left, .nan => left
  | left, right => if left ≤ right then right else left

/-- Conversion to an unsigned integer of at most `limit`: it truncates, saturates at both ends and
sends NaN to zero. -/
def truncate (limit : ℕ) : Number F → ℕ
  | .nan => 0
  | .infinity negative => if negative then 0 else limit
  | .finite negative magnitude => if negative then 0 else min ⌊magnitude.toRat⌋₊ limit

theorem truncate_le (limit : ℕ) (x : Number F) : x.truncate limit ≤ limit := by
  cases x with
  | nan => exact Nat.zero_le _
  | infinity negative => cases negative <;> simp [truncate]
  | finite negative magnitude => cases negative <;> simp [truncate]

/-- A rounded negative number, times a rounded nonnegative one, is converted to zero. -/
theorem truncate_mul_neg (limit : ℕ) (q q' : ℚ) :
    (mul (round F true q) (round F false q')).truncate limit = 0 := by
  have hround (r : ℚ) : (round F true r).truncate limit = 0 := by
    unfold round
    cases roundMagnitude F r <;> rfl
  unfold round
  cases roundMagnitude F q with
  | none =>
    cases roundMagnitude F q' with
    | none => rfl
    | some b =>
      dsimp only [mul]
      split <;> rfl
  | some a =>
    cases roundMagnitude F q' with
    | none =>
      dsimp only [mul]
      split <;> rfl
    | some b => exact hround (a.toRat * b.toRat)

/-! ## Order -/

theorem le_iff {left right : Number F} :
    left ≤ right ↔ ∃ x y, left.place = some x ∧ right.place = some y ∧ x ≤ y := by
  change le left right = true ↔ _
  unfold le
  cases left.place <;> cases right.place <;> simp

/-- The order is transitive although it is not reflexive at NaN. -/
theorem le_trans {x y z : Number F} (hxy : x ≤ y) (hyz : y ≤ z) : x ≤ z := by
  obtain ⟨left, middle, hx, hy, hleft⟩ := le_iff.mp hxy
  obtain ⟨middle', right, hy', hz, hright⟩ := le_iff.mp hyz
  obtain rfl : middle = middle' := Option.some.inj (hy.symm.trans hy')
  exact le_iff.mpr ⟨left, right, hx, hz, hleft.trans hright⟩

/-- Equality of IEEE 754: NaN differs from every datum, itself included, and the two zeros are
equal. -/
def eq (left right : Number F) : Bool :=
  match left.place, right.place with
  | some x, some y => x = y
  | _, _ => false

theorem eq_iff {left right : Number F} :
    left.eq right = true ↔ ∃ x, left.place = some x ∧ right.place = some x := by
  unfold eq
  cases left.place <;> cases right.place <;> simp [eq_comm]

/-- Equal data are those that bound each other. -/
theorem eq_iff_le_and_le {left right : Number F} :
    left.eq right = true ↔ left ≤ right ∧ right ≤ left := by
  rw [eq_iff, le_iff, le_iff]
  constructor
  · rintro ⟨x, hleft, hright⟩
    exact ⟨⟨x, x, hleft, hright, le_rfl⟩, x, x, hright, hleft, le_rfl⟩
  · rintro ⟨⟨x, y, hleft, hright, hle⟩, y', x', hright', hleft', hge⟩
    obtain rfl : x = x' := Option.some.inj (hleft.symm.trans hleft')
    obtain rfl : y = y' := Option.some.inj (hright.symm.trans hright')
    exact ⟨x, hleft, by rw [hright, le_antisymm hge hle]⟩

theorem eq_self_iff {x : Number F} : x.eq x = true ↔ x ≠ .nan := by
  rw [eq_iff]
  cases x <;> simp [place]

/-! ## Exact results -/

theorem round_exact (negative : Bool) (mantissa : ℕ) (exponent : ℤ)
    (hmantissa : mantissa < 2 ^ F.precision) (hmin : F.minExponent ≤ exponent)
    (hmax : exponent ≤ F.maxExponent) :
    ∃ magnitude, round F negative (mantissa * 2 ^ exponent) = .finite negative magnitude ∧
      magnitude.toRat = mantissa * 2 ^ exponent := by
  obtain ⟨magnitude, hround, hvalue⟩ := roundMagnitude_exact mantissa exponent hmantissa hmin hmax
  exact ⟨magnitude, by rw [round, hround], hvalue⟩

/-- A mantissa that rounding has carried to the next power of two is still exact. -/
theorem round_exact_of_le (negative : Bool) (mantissa : ℕ) (exponent : ℤ)
    (hmantissa : mantissa ≤ 2 ^ F.precision) (hmin : F.minExponent ≤ exponent)
    (hmax : exponent + 1 ≤ F.maxExponent) :
    ∃ magnitude, round F negative (mantissa * 2 ^ exponent) = .finite negative magnitude ∧
      magnitude.toRat = mantissa * 2 ^ exponent := by
  rcases hmantissa.lt_or_eq with hlt | rfl
  · exact round_exact negative mantissa exponent hlt hmin (by omega)
  · have hcarry : ((2 ^ F.precision : ℕ) : ℚ) * 2 ^ exponent =
        ((2 ^ (F.precision - 1) : ℕ) : ℚ) * 2 ^ (exponent + 1) := by
      push_cast
      calc
        (2 : ℚ) ^ F.precision * 2 ^ exponent = 2 ^ (F.precision - 1) * 2 * 2 ^ exponent := by
          rw [← pow_succ, Nat.sub_add_cancel F.precision_pos]
        _ = 2 ^ (F.precision - 1) * (2 ^ exponent * 2) := by ring
        _ = 2 ^ (F.precision - 1) * 2 ^ (exponent + 1) := by
          rw [zpow_add_one₀ (by norm_num)]
    rw [hcarry]
    exact round_exact negative _ _ (Nat.pow_lt_pow_right (by norm_num)
      (by have := F.precision_pos; omega)) (by omega) hmax

/-- A power of two in the range of the format converts exactly. -/
theorem ofNat_two_pow {k : ℕ} (hprecision : 1 < F.precision) (hmin : F.minExponent ≤ k)
    (hmax : k ≤ F.maxExponent) :
    ∃ magnitude, ofNat F (2 ^ k) = .finite false magnitude ∧ magnitude.toRat = 2 ^ k := by
  have hone : 1 < 2 ^ F.precision := Nat.one_lt_two_pow (by omega)
  simpa [ofNat] using round_exact (F := F) false 1 k hone hmin hmax

/-- Scaling by a power of two is exact as long as the exponent stays in range. -/
theorem mul_two_pow_exact (negative : Bool) (a : Magnitude F) {b : Magnitude F} {k : ℕ}
    (hb : b.toRat = 2 ^ k) (hmax : a.exponent + k ≤ F.maxExponent) :
    ∃ magnitude, mul (.finite negative a) (.finite false b) = .finite negative magnitude ∧
      magnitude.toRat = a.toRat * 2 ^ k := by
  have hproduct : a.toRat * 2 ^ k = a.mantissa * 2 ^ (a.exponent + k) := by
    rw [Magnitude.toRat, zpow_add₀ (by norm_num), zpow_natCast, mul_assoc]
  rw [mul, Bool.xor_false, hb, hproduct]
  exact round_exact negative _ _ a.mantissa_lt (by have := a.minExponent_le; omega) hmax

/-! ## Natural numbers through binary64 -/

theorem unitExponent_le_of_lt {n : ℕ} (hpos : 0 < n) (hn : n < 2 ^ 64) :
    unitExponent binary64 n ≤ 11 := by
  have hlog : Nat.log 2 n < 64 := Nat.log_lt_of_lt_pow hpos.ne' hn
  rw [unitExponent_natCast]
  omega

/-- Reading a natural number and scaling it by a power of two rounds only once, on reading. -/
theorem truncate_mul_two_pow {n k : ℕ} (hpos : 0 < n) (hn : n < 2 ^ 64) (hk : k ≤ 64)
    {a : Magnitude binary64} (ha : roundMagnitude binary64 n = some a) (limit : ℕ) :
    (mul (round binary64 false n) (ofNat binary64 (2 ^ k))).truncate limit =
      min ⌊a.toRat * 2 ^ k⌋₊ limit := by
  have hunit := unitExponent_le_of_lt hpos hn
  obtain ⟨b, hb, hbvalue⟩ := ofNat_two_pow (F := binary64) (k := k) (by decide)
    (by simp only [binary64]; omega) (by simp only [binary64]; omega)
  have havalue := exists_toRat_roundMagnitude (by exact_mod_cast hpos) ha
  have hproduct : a.toRat * b.toRat =
      unitMantissa binary64 n * 2 ^ (unitExponent binary64 n + k) := by
    rw [havalue, hbvalue, zpow_add₀ (by norm_num), zpow_natCast, mul_assoc]
  obtain ⟨c, hc, hcvalue⟩ := round_exact_of_le (F := binary64) false
    (unitMantissa binary64 n) (unitExponent binary64 n + k) (unitMantissa_le (Nat.cast_nonneg n))
    ((minExponent_le_unitExponent (n : ℚ)).trans (by omega))
    (by simp only [binary64] at hunit ⊢; omega)
  rw [round, ha, hb, mul, hproduct, Bool.xor_false, hc, truncate, hcvalue, ← hproduct, hbvalue]
  rfl

/-- From `2 ^ 53` on the unit is at least one, so rounding gives a natural number. -/
theorem exists_toRat_eq_natCast {n : ℕ} (hn : 2 ^ 53 ≤ n) {a : Magnitude binary64}
    (ha : roundMagnitude binary64 n = some a) : ∃ m : ℕ, a.toRat = m := by
  have hlog : 53 ≤ Nat.log 2 n := Nat.le_log_of_pow_le (by norm_num) hn
  obtain ⟨shift, hshift⟩ := Int.eq_ofNat_of_zero_le (a := unitExponent binary64 n)
    (by rw [unitExponent_natCast]; omega)
  have hpos : (0 : ℚ) < n := by exact_mod_cast (by omega : 0 < n)
  refine ⟨unitMantissa binary64 n * 2 ^ shift, ?_⟩
  rw [exists_toRat_roundMagnitude hpos ha, hshift, zpow_natCast]
  push_cast
  rfl

/-- Reading a natural number, scaling it by a power of two and truncating the product gives the
exact result precisely when binary64 represents the number, unless the limit is met. -/
theorem truncate_mul_two_pow_eq_iff {n k limit : ℕ} (hn : n < 2 ^ 64) (hk : k ≤ 64)
    (hlimit : n * 2 ^ k < limit) :
    (mul (round binary64 false n) (ofNat binary64 (2 ^ k))).truncate limit = n * 2 ^ k ↔
      Representable binary64 n := by
  rcases Nat.eq_zero_or_pos n with rfl | hpos
  · refine iff_of_true ?_ (by simpa using representable_of_lt_two_pow (n := 0) (by norm_num))
    obtain ⟨b, hb, -⟩ := ofNat_two_pow (F := binary64) (k := k) (by decide)
      (by simp only [binary64]; omega) (by simp only [binary64]; omega)
    rw [hb, round, Nat.cast_zero, roundMagnitude_of_nonpos le_rfl]
    simp [mul, round, roundMagnitude_of_nonpos, truncate]
  obtain ⟨a, ha⟩ := exists_roundMagnitude (F := binary64) (q := n) (by
    have := unitExponent_le_of_lt hpos hn
    simp only [binary64] at this ⊢
    omega)
  have hfloor (m : ℕ) : ⌊((m : ℚ) * 2 ^ k)⌋₊ = m * 2 ^ k := by
    exact_mod_cast Nat.floor_natCast (R := ℚ) (m * 2 ^ k)
  rw [truncate_mul_two_pow hpos hn hk ha, ← toRat_eq_iff_representable ha]
  constructor
  · intro h
    rcases lt_or_ge n (2 ^ 53) with hsmall | hlarge
    · exact (toRat_eq_iff_representable ha).mpr (representable_of_lt_two_pow hsmall)
    · obtain ⟨m, hm⟩ := exists_toRat_eq_natCast hlarge ha
      rw [hm, hfloor] at h
      have hequal : m * 2 ^ k = n * 2 ^ k := by omega
      rw [hm, Nat.eq_of_mul_eq_mul_right (by positivity) hequal]
  · intro h
    rw [h, hfloor]
    omega

end Number

end Filestore.Ieee
