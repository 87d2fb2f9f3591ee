import Filestore.Ieee.Accuracy
import Filestore.Ieee.Decimal

/-!
# Division and decimal notation with a fixed number of places

A quotient is rounded once.  Printing with a fixed number of places rounds the exact value of a
number to a whole number of its last place, ties to even; what is printed is parsed as exactly the
value that was printed, rounded once to the format.
-/

namespace Filestore.Ieee

variable {F : Format}

namespace Number

/-- Division: one rounding of the exact quotient. -/
def div : Number F → Number F → Number F
  | .nan, _ => .nan
  | _, .nan => .nan
  | .infinity _, .infinity _ => .nan
  | .infinity left, .finite right _ => .infinity (left ^^ right)
  | .finite left _, .infinity right => .finite (left ^^ right) (Magnitude.zero F)
  | .finite left a, .finite right b =>
      if b.mantissa = 0 then
        if a.mantissa = 0 then .nan else .infinity (left ^^ right)
      else round F (left ^^ right) (a.toRat / b.toRat)

/-- A natural number is divided by a power of two without further rounding. -/
theorem div_two_pow_exact {n k : ℕ} (hpos : 0 < n) (hn : n < 2 ^ 64) (hk : k ≤ 64)
    {a : Magnitude binary64} (ha : roundMagnitude binary64 n = some a) :
    ∃ c, div (ofNat binary64 n) (ofNat binary64 (2 ^ k)) = .finite false c ∧
      c.toRat = a.toRat / 2 ^ k := by
  have hunit := unitExponent_le_of_lt hpos hn
  have hunit' : -52 ≤ unitExponent binary64 n := by
    rw [unitExponent_natCast]
    omega
  obtain ⟨b, hb, hbvalue⟩ := ofNat_two_pow (F := binary64) (k := k) (by decide)
    (by simp only [binary64]; omega) (by simp only [binary64]; omega)
  have hmantissa : b.mantissa ≠ 0 := by
    intro hzero
    rw [Magnitude.toRat, hzero, Nat.cast_zero, zero_mul] at hbvalue
    exact absurd hbvalue.symm (by positivity)
  have havalue := exists_toRat_roundMagnitude (by exact_mod_cast hpos) ha
  have hquotient : a.toRat / b.toRat =
      unitMantissa binary64 n * 2 ^ (unitExponent binary64 n - k) := by
    rw [havalue, hbvalue, zpow_sub₀ (by norm_num), zpow_natCast, mul_div_assoc]
  obtain ⟨c, hc, hcvalue⟩ := round_exact_of_le (F := binary64) false
    (unitMantissa binary64 n) (unitExponent binary64 n - k) (unitMantissa_le (Nat.cast_nonneg n))
    (by simp only [binary64] at hunit' ⊢; omega) (by simp only [binary64] at hunit ⊢; omega)
  refine ⟨c, ?_, ?_⟩
  · rw [hb, ofNat, round, ha, div, if_neg hmantissa, hquotient, Bool.xor_false, hc]
  · rw [hcvalue, ← hquotient, hbvalue]

end Number

/-! ## Printing -/

/-- The digits of a nonnegative number, rounded half to even to its last place. -/
def fixedDigits (places : ℕ) (q : ℚ) : List Char :=
  let units := roundHalfEven (q * 10 ^ places)
  let whole := Nat.toDigits 10 (units / 10 ^ places)
  if places = 0 then whole
  else whole ++ '.' :: (Nat.toDigits 10 (units % 10 ^ places)).leftpad places '0'

/-- A number with a fixed number of places after the point. -/
def Number.toFixed (places : ℕ) : Number F → List Char
  | .nan => ['N', 'a', 'N']
  | .infinity negative => (if negative then ['-'] else []) ++ ['i', 'n', 'f']
  | .finite negative magnitude =>
      (if negative then ['-'] else []) ++ fixedDigits places magnitude.toRat

namespace Decimal

theorem all_isDigit_leftpad (places n : ℕ) :
    ((Nat.toDigits 10 n).leftpad places '0').all Char.isDigit = true := by
  rw [List.leftpad, List.all_append, all_isDigit_toDigits, Bool.and_true, List.all_eq_true]
  intro c hc
  rw [List.eq_of_mem_replicate hc]
  rfl

theorem length_leftpad_toDigits {places n : ℕ} (hplaces : 0 < places) (hn : n < 10 ^ places) :
    ((Nat.toDigits 10 n).leftpad places '0').length = places := by
  rw [List.length_leftpad]
  exact max_eq_left ((Nat.length_toDigits_le_iff (by decide) hplaces).mpr hn)

/-- The digits before and after the point are the digits of the printed units. -/
theorem ofDigitChars_fixed (places units : ℕ) (hplaces : 0 < places) :
    Nat.ofDigitChars 10 (Nat.toDigits 10 (units / 10 ^ places) ++
      (Nat.toDigits 10 (units % 10 ^ places)).leftpad places '0') 0 = units := by
  have hlt : units % 10 ^ places < 10 ^ places := Nat.mod_lt _ (by positivity)
  have hfraction : Nat.ofDigitChars 10
      ((Nat.toDigits 10 (units % 10 ^ places)).leftpad places '0') 0 = units % 10 ^ places := by
    rw [List.leftpad, Nat.ofDigitChars_append, Nat.ofDigitChars_replicate_zero, Nat.mul_zero,
      Nat.ofDigitChars_ten_toDigits]
  rw [Nat.ofDigitChars_append, Nat.ofDigitChars_ten_toDigits,
    Nat.ofDigitChars_eq_ofDigitChars_zero, hfraction, length_leftpad_toDigits hplaces hlt]
  exact Nat.div_add_mod units (10 ^ places)

/-- A printed number is parsed as what was printed, without an error of the notation. -/
theorem parseNumber_fixedDigits (places : ℕ) (q : ℚ) :
    parseNumber (fixedDigits places q) =
      some ((roundHalfEven (q * 10 ^ places) : ℚ) / 10 ^ places) := by
  unfold fixedDigits
  rcases Nat.eq_zero_or_pos places with rfl | hplaces
  · simp [parseNumber_toDigits]
  dsimp only
  rw [if_neg hplaces.ne']
  generalize roundHalfEven (q * 10 ^ places) = units
  set whole := Nat.toDigits 10 (units / 10 ^ places) with hwhole
  set fraction := (Nat.toDigits 10 (units % 10 ^ places)).leftpad places '0' with hfraction
  have hdigits : fraction.all Char.isDigit = true := all_isDigit_leftpad places _
  have hlength : fraction.length = places :=
    length_leftpad_toDigits hplaces (Nat.mod_lt _ (by positivity))
  have htake : (whole ++ '.' :: fraction).takeWhile Char.isDigit = whole := by
    rw [List.takeWhile_append_of_pos (List.all_eq_true.mp (all_isDigit_toDigits _)),
      List.takeWhile_cons_of_neg (by decide), List.append_nil]
  have hdrop : (whole ++ '.' :: fraction).dropWhile Char.isDigit = '.' :: fraction := by
    rw [List.dropWhile_append_of_pos (List.all_eq_true.mp (all_isDigit_toDigits _)),
      List.dropWhile_cons_of_neg (by decide)]
  have htake' : fraction.takeWhile Char.isDigit = fraction :=
    List.takeWhile_eq_self_iff.mpr (List.all_eq_true.mp hdigits)
  have hdrop' : fraction.dropWhile Char.isDigit = [] :=
    List.dropWhile_eq_nil_iff.mpr (List.all_eq_true.mp hdigits)
  have hvalue : Nat.ofDigitChars 10 (whole ++ fraction) 0 = units :=
    ofDigitChars_fixed places units hplaces
  have hne : whole ≠ [] := Nat.toDigits_ne_nil
  simp only [parseNumber, htake, hdrop, parseFraction, htake', hdrop', hne, false_and, if_false,
    parseExponent, Option.map_some, hvalue, hlength, Option.some.injEq]
  rw [zero_sub, zpow_neg, zpow_natCast, div_eq_mul_inv]

/-- The first character of a printed number is a digit. -/
theorem exists_fixedDigits_eq_cons (places : ℕ) (q : ℚ) :
    ∃ digit rest, fixedDigits places q = digit :: rest ∧ digit.isDigit = true := by
  obtain ⟨digit, rest, hdigits, hdigit⟩ :=
    exists_toDigits_eq_cons (roundHalfEven (q * 10 ^ places) / 10 ^ places)
  unfold fixedDigits
  dsimp only
  rw [hdigits]
  split_ifs
  · exact ⟨digit, rest, rfl, hdigit⟩
  · exact ⟨digit, _, rfl, hdigit⟩

/-- A text that starts with a digit is parsed as an unsigned number. -/
theorem parse_of_isDigit (F : Format) {digit : Char} {rest : List Char}
    (hdigit : digit.isDigit = true) :
    parse F (digit :: rest) = (parseNumber (digit :: rest)).map (Number.round F false) := by
  have hinf := map_toLower_ne_word rest ['n', 'f'] hdigit (.inl rfl)
  have hinfinity := map_toLower_ne_word rest ['n', 'f', 'i', 'n', 'i', 't', 'y'] hdigit (.inl rfl)
  have hnan := map_toLower_ne_word rest ['a', 'n'] hdigit (.inr rfl)
  simp only [parse, parseSign_of_isDigit rest hdigit]
  rw [if_neg (not_or.mpr ⟨hinf, hinfinity⟩), if_neg hnan]

theorem parse_fixedDigits (F : Format) (places : ℕ) (q : ℚ) :
    parse F (fixedDigits places q) =
      some (.round F false (roundHalfEven (q * 10 ^ places) / 10 ^ places)) := by
  have hnumber := parseNumber_fixedDigits places q
  obtain ⟨digit, rest, hdigits, hdigit⟩ := exists_fixedDigits_eq_cons places q
  rw [hdigits] at hnumber ⊢
  rw [parse_of_isDigit F hdigit, hnumber, Option.map_some]

end Decimal

end Filestore.Ieee
