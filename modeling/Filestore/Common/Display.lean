import Filestore.Common.SizeNotation
import Filestore.Ieee.Fixed

/-!
# The displayed form of a size

For a reader a size is shown with one decimal place in the largest binary unit that it reaches.
The shown text is itself a configured size: it is always read back, to a size that differs by at
most half of the last shown place and the rounding of binary64, and that is shown the same.  The one
exception is a size that is rounded up to 1024.0 of its unit, which is shown as 1.0 of the next.
-/

namespace Filestore.Common

open Ieee

/-- The units that a size is shown in from 1024 bytes on. -/
inductive BinaryUnit where
  | kib
  | mib
  | gib
  | tib
  | pib
  deriving DecidableEq

namespace BinaryUnit

def letter : BinaryUnit → Char
  | .kib => 'K'
  | .mib => 'M'
  | .gib => 'G'
  | .tib => 'T'
  | .pib => 'P'

def exponent : BinaryUnit → ℕ
  | .kib => 10
  | .mib => 20
  | .gib => 30
  | .tib => 40
  | .pib => 50

def bytes : BinaryUnit → UInt64
  | .kib => ReadableSize.kib
  | .mib => ReadableSize.mib
  | .gib => ReadableSize.gib
  | .tib => ReadableSize.tib
  | .pib => ReadableSize.pib

def text (unit : BinaryUnit) : List Char := [unit.letter, 'i', 'B']

theorem toNat_bytes (unit : BinaryUnit) : unit.bytes.toNat = 2 ^ unit.exponent := by
  cases unit <;> decide

theorem letter_mem (unit : BinaryUnit) : unit.letter ∈ ReadableSize.unitLetters := by
  cases unit <;> decide

theorem parseUnit_text (unit : BinaryUnit) :
    ReadableSize.parseUnit (String.ofList unit.text) = some unit.bytes := by
  cases unit <;> decide

theorem not_isWhitespace_text (unit : BinaryUnit) :
    ∀ c ∈ unit.text, ReadableSize.isWhitespace c = false := by
  have hall : unit.text.all (fun c ↦ !ReadableSize.isWhitespace c) = true := by
    cases unit <;> decide
  intro c hc
  exact (Bool.not_eq_true' _).mp (List.all_eq_true.mp hall c hc)

theorem exponent_bounds (unit : BinaryUnit) : 10 ≤ unit.exponent ∧ unit.exponent ≤ 50 := by
  cases unit <;> decide

end BinaryUnit

namespace ReadableSize

/-! ## Display -/

/-- A size in a unit, as a floating-point number. -/
def inUnit (size : ReadableSize) (unit : UInt64) : Number binary64 :=
  .div (.ofNat binary64 size.bytes.toNat) (.ofNat binary64 unit.toNat)

def display (size : ReadableSize) : String :=
  if size.bytes ≥ pib then String.ofList ((size.inUnit pib).toFixed 1 ++ ['P', 'i', 'B'])
  else if size.bytes ≥ tib then String.ofList ((size.inUnit tib).toFixed 1 ++ ['T', 'i', 'B'])
  else if size.bytes ≥ gib then String.ofList ((size.inUnit gib).toFixed 1 ++ ['G', 'i', 'B'])
  else if size.bytes ≥ mib then String.ofList ((size.inUnit mib).toFixed 1 ++ ['M', 'i', 'B'])
  else if size.bytes ≥ kib then String.ofList ((size.inUnit kib).toFixed 1 ++ ['K', 'i', 'B'])
  else toString size.bytes ++ "B"

/-- `Debug` is `Display`. -/
def debug (size : ReadableSize) : String := size.display

/-- A size that is shown in the given unit. -/
structure Fits (size : ReadableSize) (unit : BinaryUnit) : Prop where
  low : 2 ^ unit.exponent ≤ size.bytes.toNat
  high : unit = .pib ∨ size.bytes.toNat < 2 ^ (unit.exponent + 10)

theorem exists_fits {size : ReadableSize} (h : 1024 ≤ size.bytes.toNat) :
    ∃ unit, size.Fits unit := by
  by_cases hpib : 2 ^ 50 ≤ size.bytes.toNat
  · exact ⟨.pib, hpib, .inl rfl⟩
  by_cases htib : 2 ^ 40 ≤ size.bytes.toNat
  · exact ⟨.tib, htib, .inr (not_le.mp hpib)⟩
  by_cases hgib : 2 ^ 30 ≤ size.bytes.toNat
  · exact ⟨.gib, hgib, .inr (not_le.mp htib)⟩
  by_cases hmib : 2 ^ 20 ≤ size.bytes.toNat
  · exact ⟨.mib, hmib, .inr (not_le.mp hgib)⟩
  · exact ⟨.kib, h, .inr (not_le.mp hmib)⟩

/-- The five comparisons of `display`, on natural numbers. -/
theorem le_bytes_iff (size : ReadableSize) :
    (size.bytes ≥ pib ↔ 2 ^ 50 ≤ size.bytes.toNat) ∧
      (size.bytes ≥ tib ↔ 2 ^ 40 ≤ size.bytes.toNat) ∧
      (size.bytes ≥ gib ↔ 2 ^ 30 ≤ size.bytes.toNat) ∧
      (size.bytes ≥ mib ↔ 2 ^ 20 ≤ size.bytes.toNat) ∧
      (size.bytes ≥ kib ↔ 2 ^ 10 ≤ size.bytes.toNat) :=
  ⟨UInt64.le_iff_toNat_le, UInt64.le_iff_toNat_le, UInt64.le_iff_toNat_le, UInt64.le_iff_toNat_le,
    UInt64.le_iff_toNat_le⟩

theorem display_of_fits {size : ReadableSize} {unit : BinaryUnit} (h : size.Fits unit) :
    size.display = String.ofList ((size.inUnit unit.bytes).toFixed 1 ++ unit.text) := by
  obtain ⟨hlow, hhigh⟩ := h
  obtain ⟨hpib, htib, hgib, hmib, hkib⟩ := size.le_bytes_iff
  simp only [display, hpib, htib, hgib, hmib, hkib]
  cases unit <;> simp only [BinaryUnit.exponent, reduceCtorEq, false_or] at hlow hhigh
  case pib =>
    rw [if_pos hlow]
    rfl
  case tib =>
    rw [if_neg (by omega), if_pos hlow]
    rfl
  case gib =>
    rw [if_neg (by omega), if_neg (by omega), if_pos hlow]
    rfl
  case mib =>
    rw [if_neg (by omega), if_neg (by omega), if_neg (by omega), if_pos hlow]
    rfl
  case kib =>
    rw [if_neg (by omega), if_neg (by omega), if_neg (by omega), if_neg (by omega), if_pos hlow]
    rfl

theorem display_of_lt {size : ReadableSize} (h : size.bytes.toNat < 1024) :
    size.display = toString size.bytes ++ "B" := by
  obtain ⟨hpib, htib, hgib, hmib, hkib⟩ := size.le_bytes_iff
  simp only [display, hpib, htib, hgib, hmib, hkib]
  rw [if_neg (by omega), if_neg (by omega), if_neg (by omega), if_neg (by omega),
    if_neg (by omega)]

/-! ## The shown number -/

/-- The tenths of `2 ^ k` that are shown of a number of bytes. -/
def tenths (k n : ℕ) : ℕ := roundHalfEven (nearest n / 2 ^ k * 10)

/-- A number with one place, by its tenths. -/
def tenthsDigits (units : ℕ) : List Char := fixedDigits 1 ((units : ℚ) / 10)

theorem fixedDigits_eq (q : ℚ) : fixedDigits 1 q = tenthsDigits (roundHalfEven (q * 10)) := by
  have hsame : ((roundHalfEven (q * 10) : ℕ) : ℚ) / 10 * 10 ^ 1 = (roundHalfEven (q * 10) : ℕ) := by
    rw [pow_one, div_mul_cancel₀ _ (by norm_num)]
  rw [tenthsDigits, fixedDigits, fixedDigits, hsame, roundHalfEven_natCast, pow_one]

/-- The shown text has the tenths of the unit, and the unit. -/
theorem display_eq_tenths {size : ReadableSize} {unit : BinaryUnit} (h : size.Fits unit) :
    size.display =
      String.ofList (tenthsDigits (tenths unit.exponent size.bytes.toNat) ++ unit.text) := by
  have hbytes : size.bytes.toNat < 2 ^ 64 := size.bytes.toNat_lt
  have hpos : 0 < size.bytes.toNat := lt_of_lt_of_le (by positivity) h.low
  have hexponent := unit.exponent_bounds
  obtain ⟨a, ha⟩ := exists_roundMagnitude_of_le (q := size.bytes.toNat)
    (by exact_mod_cast hbytes.le)
  obtain ⟨c, hc, hcvalue⟩ :=
    Number.div_two_pow_exact (k := unit.exponent) hpos hbytes (by omega) ha
  rw [display_of_fits h, inUnit, unit.toNat_bytes, hc, Number.toFixed, hcvalue, fixedDigits_eq,
    tenths, nearest_eq ha]
  rfl

/-! ## Reading the shown text -/

theorem isSizeChar_of_mem_fixedDigits {places : ℕ} {q : ℚ} {c : Char}
    (hc : c ∈ fixedDigits places q) : isSizeChar c = true := by
  have hdigits : ∀ n, ∀ c ∈ Nat.toDigits 10 n, isSizeChar c = true := fun n c hc ↦
    isSizeChar_of_isDigit (List.all_eq_true.mp (Decimal.all_isDigit_toDigits n) c hc)
  have hpadded : ∀ n, ∀ c ∈ (Nat.toDigits 10 n).leftpad places '0', isSizeChar c = true :=
    fun n c hc ↦
      isSizeChar_of_isDigit (List.all_eq_true.mp (Decimal.all_isDigit_leftpad places n) c hc)
  unfold fixedDigits at hc
  dsimp only at hc
  split_ifs at hc
  · exact hdigits _ c hc
  · rcases List.mem_append.mp hc with hwhole | hrest
    · exact hdigits _ c hwhole
    · rcases List.mem_cons.mp hrest with rfl | hfraction
      · decide
      · exact hpadded _ c hfraction

/-- Number characters followed by a printed unit are read as a number in that unit. -/
theorem fromStr_of_isSizeChar_unit {size : List Char} (hne : size ≠ [])
    (hsize : ∀ c ∈ size, isSizeChar c = true) (unit : BinaryUnit) :
    fromStr (String.ofList (size ++ unit.text)) = match Decimal.parse binary64 size with
      | some number => .ok (scale number unit.bytes)
      | none => .error (.invalidNumber (String.ofList (size ++ unit.text))) := by
  have hletter := unit.letter_mem
  have hplain : ∀ c ∈ size ++ unit.text, isWhitespace c = false := by
    intro c hc
    rcases List.mem_append.mp hc with hc | hc
    · exact not_isWhitespace_of_isSizeChar (hsize c hc)
    · exact unit.not_isWhitespace_text c hc
  apply fromStr_of_parts
  · rw [String.toList_ofList, trim_of_forall hplain]
  · exact hne
  · intro c hc
    rcases List.mem_append.mp hc with hc | hc
    · exact isAscii_of_isSizeChar (hsize c hc)
    · exact isAscii_unit unit.letter hletter c hc
  · rw [BinaryUnit.text, List.takeWhile_append_of_pos hsize, List.takeWhile_cons_of_neg,
      List.append_nil]
    simp [not_isSizeChar_unit unit.letter hletter]
  · rw [BinaryUnit.text, trim_unit unit.letter hletter]
    exact unit.parseUnit_text

theorem scale_round (q : ℚ) (unit : BinaryUnit) :
    scale (.round binary64 false q) unit.bytes =
      ⟨.ofNat (Number.scaledFloor binary64 unit.exponent (2 ^ 64 - 1) q)⟩ := by
  have hexponent := unit.exponent_bounds
  rw [scale, unit.toNat_bytes, Number.truncate_mul_two_pow_eq_scaledFloor q (by omega)
    (Nat.sub_le _ _)]

/-- Shown tenths are read as the rounded number of tenths, in the unit. -/
theorem fromStr_tenths (units : ℕ) (unit : BinaryUnit) :
    fromStr (String.ofList (tenthsDigits units ++ unit.text)) =
      .ok ⟨.ofNat (Number.scaledFloor binary64 unit.exponent (2 ^ 64 - 1) (units / 10))⟩ := by
  have hne : tenthsDigits units ≠ [] := by
    obtain ⟨digit, rest, hdigits, -⟩ := Decimal.exists_fixedDigits_eq_cons 1 ((units : ℚ) / 10)
    rw [tenthsDigits, hdigits]
    exact List.cons_ne_nil _ _
  have hvalue : ((units : ℚ) / 10) * 10 ^ 1 = units := by
    rw [pow_one, div_mul_cancel₀ _ (by norm_num)]
  rw [fromStr_of_isSizeChar_unit hne fun c hc ↦ isSizeChar_of_mem_fixedDigits hc]
  rw [tenthsDigits, Decimal.parse_fixedDigits, hvalue, roundHalfEven_natCast, pow_one]
  dsimp only
  rw [scale_round]

/-- The bytes that are read back from shown tenths of `2 ^ k`. -/
def reread (k units : ℕ) : ℕ := min ⌊nearest ((units : ℚ) / 10) * 2 ^ k⌋₊ (2 ^ 64 - 1)

/-! ## What is lost

The shown number is at most half a tenth away from the rounded size, and what is read back at most
one byte and a rounding away from the shown number.  A tenth of a unit is more than a hundred bytes,
so the size read back is shown the same. -/

section Accuracy

variable {k n units : ℕ}

theorem abs_tenths_sub_le (hpos : 1 ≤ n) (hn : n ≤ 2 ^ 64) :
    |(tenths k n : ℚ) / 10 * 2 ^ k - n| ≤ 2 ^ k / 20 + n / 2 ^ 53 := by
  have hpow : (0 : ℚ) < 2 ^ k := by positivity
  have hnonneg : (0 : ℚ) ≤ nearest n / 2 ^ k * 10 := by
    have hzero := nearest_mono (q := 0) (Nat.cast_nonneg n) (by exact_mod_cast hn)
    rw [nearest_of_representable (by positivity)
      (by simpa using representable_of_lt_two_pow (n := 0) (by norm_num))] at hzero
    positivity
  have hround := abs_roundHalfEven_sub_le hnonneg
  have hnearest := abs_nearest_sub_le (q := n) (by exact_mod_cast hpos) (by exact_mod_cast hn)
  have htenths : |(tenths k n : ℚ) / 10 * 2 ^ k - nearest n| ≤ 2 ^ k / 20 := by
    calc
      |(tenths k n : ℚ) / 10 * 2 ^ k - nearest n| =
          |((tenths k n : ℚ) - nearest n / 2 ^ k * 10) * (2 ^ k / 10)| := by
        congr 1
        field_simp
      _ = |(tenths k n : ℚ) - nearest n / 2 ^ k * 10| * (2 ^ k / 10) := by
        rw [abs_mul, abs_of_pos (div_pos hpow (by norm_num))]
      _ ≤ 1 / 2 * (2 ^ k / 10) := mul_le_mul_of_nonneg_right hround (by positivity)
      _ = 2 ^ k / 20 := by ring
  calc
    |(tenths k n : ℚ) / 10 * 2 ^ k - n| ≤
        |(tenths k n : ℚ) / 10 * 2 ^ k - nearest n| + |nearest n - n| := abs_sub_le _ _ _
    _ ≤ 2 ^ k / 20 + n / 2 ^ 53 := add_le_add htenths hnearest

theorem ten_le_tenths (hk : k ≤ 64) (hlow : 2 ^ k ≤ n) (hn : n ≤ 2 ^ 64) : 10 ≤ tenths k n := by
  have hmono : (2 : ℚ) ^ k ≤ nearest n := by
    calc
      (2 : ℚ) ^ k = nearest (2 ^ k) := (nearest_two_pow hk).symm
      _ ≤ nearest n := nearest_mono (by exact_mod_cast hlow) (by exact_mod_cast hn)
  calc
    10 = roundHalfEven ((10 : ℕ) : ℚ) := (roundHalfEven_natCast 10).symm
    _ ≤ tenths k n := by
      apply roundHalfEven_mono
      have hone : 1 ≤ nearest n / 2 ^ k := (one_le_div (by positivity)).mpr hmono
      push_cast
      linarith

theorem tenths_le {j : ℕ} (hkj : k + j ≤ 64) (hn : n ≤ 2 ^ (k + j)) :
    tenths k n ≤ 10 * 2 ^ j := by
  have hmono : nearest n ≤ 2 ^ (k + j) := by
    calc
      nearest n ≤ nearest (2 ^ (k + j)) :=
        nearest_mono (by exact_mod_cast hn) (pow_le_pow_right₀ (by norm_num) hkj)
      _ = 2 ^ (k + j) := nearest_two_pow hkj
  calc
    tenths k n ≤ roundHalfEven ((10 * 2 ^ j : ℕ) : ℚ) := by
      apply roundHalfEven_mono
      have hdiv : nearest n / 2 ^ k ≤ 2 ^ j := by
        rw [div_le_iff₀ (by positivity), ← pow_add, add_comm]
        exact hmono
      push_cast
      linarith
    _ = 10 * 2 ^ j := roundHalfEven_natCast _

theorem abs_reread_sub_le (hk : k ≤ 50) (hlow : 10 ≤ units) (hhigh : units ≤ 10 * 2 ^ 14) :
    |(reread k units : ℚ) - units / 10 * 2 ^ k| ≤ 1 + units / 10 * 2 ^ k / 2 ^ 53 := by
  have hunits : (10 : ℚ) ≤ units := by exact_mod_cast hlow
  have hunits' : (units : ℚ) ≤ 10 * 2 ^ 14 := by exact_mod_cast hhigh
  have hpow : (0 : ℚ) < 2 ^ k := by positivity
  have hpow' : (2 : ℚ) ^ k ≤ 2 ^ 50 := pow_le_pow_right₀ (by norm_num) hk
  have hnearest := abs_nearest_sub_le (q := (units : ℚ) / 10) (by linarith) (by linarith)
  set shown : ℚ := units / 10 * 2 ^ k with hshown
  set read : ℚ := nearest (units / 10) * 2 ^ k with hread
  have herror : |read - shown| ≤ shown / 2 ^ 53 := by
    calc
      |read - shown| = |nearest (units / 10) - units / 10| * 2 ^ k := by
        rw [hread, hshown, ← sub_mul, abs_mul, abs_of_pos hpow]
      _ ≤ units / 10 / 2 ^ 53 * 2 ^ k := mul_le_mul_of_nonneg_right hnearest hpow.le
      _ = shown / 2 ^ 53 := by rw [hshown]; ring
  have hshown_le : shown ≤ 2 ^ 64 := by
    calc
      shown ≤ 2 ^ 14 * 2 ^ 50 := by
        apply mul_le_mul _ hpow' hpow.le (by positivity)
        linarith
      _ = 2 ^ 64 := by rw [← pow_add]
  have hread_nonneg : 0 ≤ read := by
    have hshown_pos : 0 ≤ shown := by positivity
    have := (abs_le.mp herror).1
    norm_num at this
    linarith
  have hfloor := Nat.floor_le hread_nonneg
  have hceil := Nat.lt_floor_add_one read
  obtain ⟨hlower, hupper⟩ := abs_le.mp herror
  rw [reread, ← hread, abs_le]
  rcases le_total ⌊read⌋₊ (2 ^ 64 - 1) with hle | hle
  · rw [min_eq_left hle]
    constructor <;> linarith
  · -- Only the largest size is saturated, and it is one byte away from what is shown.
    rw [min_eq_right hle]
    have hcast : ((2 ^ 64 - 1 : ℕ) : ℚ) = 2 ^ 64 - 1 := by norm_num
    have hsaturated : ((2 ^ 64 - 1 : ℕ) : ℚ) ≤ ⌊read⌋₊ := by exact_mod_cast hle
    rw [hcast] at hsaturated ⊢
    constructor <;> linarith

theorem tenths_reread (hk : 10 ≤ k) (hk' : k ≤ 50) (hlow : 10 ≤ units)
    (hhigh : units ≤ 10 * 2 ^ 14) : tenths k (reread k units) = units := by
  have hunits : (10 : ℚ) ≤ units := by exact_mod_cast hlow
  have hunits' : (units : ℚ) ≤ 10 * 2 ^ 14 := by exact_mod_cast hhigh
  have hpow : (2 : ℚ) ^ 10 ≤ 2 ^ k := pow_le_pow_right₀ (by norm_num) hk
  have hreread := abs_reread_sub_le hk' hlow hhigh
  set bytes : ℕ := reread k units with hbytes
  have hbytes_le : bytes ≤ 2 ^ 64 := (min_le_right _ _).trans (Nat.sub_le _ _)
  set shown : ℚ := units / 10 * 2 ^ k with hshown
  have hshown_low : (2 : ℚ) ^ k ≤ shown := by
    have hone : (1 : ℚ) ≤ units / 10 := by linarith
    exact le_mul_of_one_le_left (by positivity) hone
  have hshown_high : shown ≤ 2 ^ 14 * 2 ^ k := by
    apply mul_le_mul_of_nonneg_right _ (by positivity)
    linarith
  norm_num at hpow hshown_high hreread
  obtain ⟨hlower, hupper⟩ := abs_le.mp hreread
  have hbytes_low : (1 : ℚ) ≤ bytes := by linarith
  have hnearest := abs_nearest_sub_le hbytes_low (by exact_mod_cast hbytes_le)
  norm_num at hnearest
  obtain ⟨hlower', hupper'⟩ := abs_le.mp hnearest
  have hnonneg : 0 ≤ nearest bytes := by linarith
  have hshown_div : (units : ℚ) = shown / 2 ^ k * 10 := by
    rw [hshown]
    field_simp
  apply roundHalfEven_eq (by positivity)
  calc
    |nearest bytes / 2 ^ k * 10 - units| = |nearest bytes - shown| * 10 / 2 ^ k := by
      rw [hshown_div, ← sub_mul, ← sub_div, abs_mul, abs_div,
        abs_of_pos (by positivity : (0 : ℚ) < 2 ^ k), abs_of_pos (by norm_num : (0 : ℚ) < 10)]
      ring
    _ < 1 / 2 := by
      rw [div_lt_iff₀ (by positivity)]
      have hclose : |nearest bytes - shown| ≤ 3 * shown / 2 ^ 53 + 1 := by
        rw [abs_le]
        constructor <;> norm_num <;> linarith
      norm_num at hclose
      linarith

theorem two_pow_le_reread (hk : k ≤ 50) (hlow : 10 ≤ units) (hhigh : units ≤ 10 * 2 ^ 14) :
    2 ^ k ≤ reread k units := by
  have hunits : (10 : ℚ) ≤ units := by exact_mod_cast hlow
  have hunits' : (units : ℚ) ≤ 10 * 2 ^ 14 := by exact_mod_cast hhigh
  have hone : 1 ≤ nearest ((units : ℚ) / 10) := by
    calc
      (1 : ℚ) = nearest (2 ^ 0) := by rw [nearest_two_pow (by norm_num), pow_zero]
      _ ≤ nearest ((units : ℚ) / 10) := nearest_mono (by linarith) (by linarith)
  apply le_min
  · apply Nat.le_floor
    push_cast
    exact le_mul_of_one_le_left (by positivity) hone
  · calc
      2 ^ k ≤ 2 ^ 50 := Nat.pow_le_pow_right (by norm_num) hk
      _ ≤ 2 ^ 64 - 1 := by norm_num

theorem reread_lt (hk : 10 ≤ k) (hk' : k ≤ 50) (hlow : 10 ≤ units) (hhigh : units < 10 * 2 ^ 10) :
    reread k units < 2 ^ (k + 10) := by
  have hunits : (units : ℚ) + 1 ≤ 10 * 2 ^ 10 := by exact_mod_cast hhigh
  have hpow : (2 : ℚ) ^ 10 ≤ 2 ^ k := pow_le_pow_right₀ (by norm_num) hk
  have hclose := (abs_le.mp (abs_reread_sub_le hk' hlow (by omega))).2
  have hshown : (units : ℚ) / 10 * 2 ^ k ≤ (2 ^ 10 - 1 / 10) * 2 ^ k := by
    apply mul_le_mul_of_nonneg_right _ (by positivity)
    linarith
  generalize (units : ℚ) / 10 * 2 ^ k = shown at hclose hshown
  have hlt : (reread k units : ℚ) < ((2 ^ (k + 10) : ℕ) : ℚ) := by
    push_cast
    rw [pow_add]
    linarith
  exact_mod_cast hlt

theorem reread_carried (hk : k ≤ 50) : reread k (10 * 2 ^ 10) = 2 ^ (k + 10) := by
  have hshown : (((10 * 2 ^ 10 : ℕ) : ℚ) / 10) = 2 ^ 10 := by norm_num
  have hexact : nearest (2 ^ 10) * 2 ^ k = ((2 ^ (k + 10) : ℕ) : ℚ) := by
    rw [nearest_two_pow (by norm_num), ← pow_add, add_comm]
    push_cast
    rfl
  rw [reread, hshown, hexact, Nat.floor_natCast]
  apply min_eq_left
  calc
    2 ^ (k + 10) ≤ 2 ^ 60 := Nat.pow_le_pow_right (by norm_num) (by omega)
    _ ≤ 2 ^ 64 - 1 := by norm_num

end Accuracy

/-! ## The shown text is a configured size -/

/-- Below 1024 bytes the size is shown and read exactly. -/
theorem fromStr_display_of_lt {size : ReadableSize} (h : size.bytes.toNat < 1024) :
    fromStr size.display = .ok size := by
  have htext : size.display.toList = Nat.toDigits 10 size.bytes.toNat ++ ['B'] := by
    rw [display_of_lt h]
    change (toString size.bytes.toNat ++ "B").toList = _
    simp
  have hdigits : ∀ c ∈ Nat.toDigits 10 size.bytes.toNat, c.isDigit = true :=
    List.all_eq_true.mp (Decimal.all_isDigit_toDigits _)
  have hplain : ∀ c ∈ Nat.toDigits 10 size.bytes.toNat ++ ['B'], isWhitespace c = false := by
    intro c hc
    rcases List.mem_append.mp hc with hc | hc
    · exact not_isWhitespace_of_isDigit (hdigits c hc)
    · rw [List.mem_singleton.mp hc]
      decide
  have hascii : ∀ c ∈ Nat.toDigits 10 size.bytes.toNat ++ ['B'], c.toNat < 128 := by
    intro c hc
    rcases List.mem_append.mp hc with hc | hc
    · exact isAscii_of_isDigit (hdigits c hc)
    · rw [List.mem_singleton.mp hc]
      decide
  have htake : (Nat.toDigits 10 size.bytes.toNat ++ ['B']).takeWhile isSizeChar =
      Nat.toDigits 10 size.bytes.toNat := by
    rw [List.takeWhile_append_of_pos fun c hc ↦ isSizeChar_of_isDigit (hdigits c hc),
      List.takeWhile_cons_of_neg (by decide), List.append_nil]
  have hunit : parseUnit (String.ofList (trim ['B'])) = some b := by decide
  have hscale : scale (.round binary64 false size.bytes.toNat) b = size :=
    (scale_eq_iff_representable (k := 0) (by norm_num) (by decide) (by rw [pow_zero, mul_one])
      (by omega)).mpr (representable_of_lt_two_pow (by omega))
  rw [fromStr_of_parts (by rw [htext, trim_of_forall hplain]) Nat.toDigits_ne_nil hascii htake
    hunit, Decimal.parse_toDigits]
  dsimp only
  rw [hscale]

theorem Fits.bytes_le {size : ReadableSize} {unit : BinaryUnit} (h : size.Fits unit) :
    ∃ j, j ≤ 14 ∧ unit.exponent + j ≤ 64 ∧ size.bytes.toNat ≤ 2 ^ (unit.exponent + j) ∧
      (unit = .pib ∨ j = 10) := by
  have hexponent := unit.exponent_bounds
  rcases h.high with rfl | hlt
  · exact ⟨14, le_rfl, by decide, size.bytes.toNat_lt.le, .inl rfl⟩
  · exact ⟨10, by norm_num, by omega, hlt.le, .inr rfl⟩

/-- The tenths of a shown size are between one unit and the largest size. -/
theorem Fits.tenths_bounds {size : ReadableSize} {unit : BinaryUnit} (h : size.Fits unit) :
    10 ≤ tenths unit.exponent size.bytes.toNat ∧
      tenths unit.exponent size.bytes.toNat ≤ 10 * 2 ^ 14 := by
  have hexponent := unit.exponent_bounds
  obtain ⟨j, hj, hsum, hle, -⟩ := h.bytes_le
  refine ⟨ten_le_tenths (by omega) h.low size.bytes.toNat_lt.le, ?_⟩
  calc
    tenths unit.exponent size.bytes.toNat ≤ 10 * 2 ^ j := tenths_le hsum hle
    _ ≤ 10 * 2 ^ 14 := Nat.mul_le_mul_left 10 (Nat.pow_le_pow_right (by norm_num) hj)

/-- A size that is shown with a letter is read as `reread` of its tenths. -/
theorem Fits.fromStr_shown {size : ReadableSize} {unit : BinaryUnit} (h : size.Fits unit) :
    fromStr size.display =
      .ok ⟨.ofNat (reread unit.exponent (tenths unit.exponent size.bytes.toNat))⟩ := by
  have hunits : ((tenths unit.exponent size.bytes.toNat : ℕ) : ℚ) ≤ (10 * 2 ^ 14 : ℕ) := by
    exact_mod_cast h.tenths_bounds.2
  rw [display_eq_tenths h, fromStr_tenths, Number.scaledFloor_eq_nearest _ _ (by
    push_cast at hunits
    linarith), reread]

theorem toNat_ofNat_reread (k units : ℕ) :
    (UInt64.ofNat (reread k units)).toNat = reread k units :=
  UInt64.toNat_ofNat_of_lt' (Nat.lt_of_le_of_lt (min_le_right _ _) (by decide))

/-- What is read back of a shown size differs from it by half of the last place, and by what
binary64 and the truncation to bytes lose. -/
theorem Fits.abs_reread_sub_le {size : ReadableSize} {unit : BinaryUnit} (h : size.Fits unit) :
    |(reread unit.exponent (tenths unit.exponent size.bytes.toNat) : ℚ) - size.bytes.toNat| ≤
      2 ^ unit.exponent / 20 + size.bytes.toNat / 2 ^ 51 + 1 := by
  obtain ⟨hlow, hhigh⟩ := h.tenths_bounds
  have hpos : 1 ≤ size.bytes.toNat := le_trans (Nat.one_le_two_pow) h.low
  have hread := ReadableSize.abs_reread_sub_le unit.exponent_bounds.2 hlow hhigh
  have hshown := abs_tenths_sub_le (k := unit.exponent) hpos size.bytes.toNat_lt.le
  have hunit : (2 : ℚ) ^ unit.exponent ≤ size.bytes.toNat := by exact_mod_cast h.low
  set shown : ℚ := tenths unit.exponent size.bytes.toNat / 10 * 2 ^ unit.exponent
  have hshown_le : shown ≤ 2 * size.bytes.toNat := by
    have := (abs_le.mp hshown).2
    norm_num at this
    linarith
  calc
    |(reread unit.exponent (tenths unit.exponent size.bytes.toNat) : ℚ) - size.bytes.toNat| ≤
        |(reread unit.exponent (tenths unit.exponent size.bytes.toNat) : ℚ) - shown| +
          |shown - size.bytes.toNat| := abs_sub_le _ _ _
    _ ≤ (1 + shown / 2 ^ 53) + (2 ^ unit.exponent / 20 + size.bytes.toNat / 2 ^ 53) :=
      add_le_add hread hshown
    _ ≤ 2 ^ unit.exponent / 20 + size.bytes.toNat / 2 ^ 51 + 1 := by
      norm_num
      linarith

/-- The size read back is shown the same, unless rounding carried into the next unit. -/
theorem Fits.display_reread {size : ReadableSize} {unit : BinaryUnit} (h : size.Fits unit) :
    (ReadableSize.mk (.ofNat (reread unit.exponent
        (tenths unit.exponent size.bytes.toNat)))).display = size.display ∨
      (unit ≠ .pib ∧ size.display = String.ofList ("1024.0".toList ++ unit.text) ∧
        reread unit.exponent (tenths unit.exponent size.bytes.toNat) =
          2 ^ (unit.exponent + 10)) := by
  obtain ⟨hlow, hhigh⟩ := h.tenths_bounds
  obtain ⟨hexponent, hexponent'⟩ := unit.exponent_bounds
  obtain ⟨j, -, hsum, hle, hj⟩ := h.bytes_le
  rw [display_eq_tenths h]
  have htop : unit = .pib ∨ tenths unit.exponent size.bytes.toNat ≤ 10 * 2 ^ 10 := by
    apply hj.imp_right
    rintro rfl
    exact tenths_le hsum hle
  generalize tenths unit.exponent size.bytes.toNat = units at hlow hhigh htop
  by_cases hcarry : unit = .pib ∨ units < 10 * 2 ^ 10
  · -- The tenths stay in the unit, so the size read back is shown in it.
    have hfits : (ReadableSize.mk (.ofNat (reread unit.exponent units))).Fits unit := by
      refine ⟨?_, hcarry.imp_right fun hlt ↦ ?_⟩
      · rw [toNat_ofNat_reread]
        exact two_pow_le_reread hexponent' hlow hhigh
      · rw [toNat_ofNat_reread]
        exact reread_lt hexponent hexponent' hlow hlt
    rw [display_eq_tenths hfits, toNat_ofNat_reread, tenths_reread hexponent hexponent' hlow hhigh]
    exact .inl rfl
  · obtain ⟨hne, hge⟩ := not_or.mp hcarry
    obtain rfl : units = 10 * 2 ^ 10 := le_antisymm (htop.resolve_left hne) (not_lt.mp hge)
    have hdigits : tenthsDigits (10 * 2 ^ 10) = "1024.0".toList := by decide +kernel
    exact .inr ⟨hne, by rw [hdigits], reread_carried hexponent'⟩

/-- Every shown size is read back: exactly below 1024 bytes, and otherwise to a size within half of
the last shown place (and a rounding) that is shown the same, or that is one of the next unit. -/
theorem fromStr_display (size : ReadableSize) :
    ∃ read, fromStr size.display = .ok read ∧
      ((size.bytes.toNat < 1024 ∧ read = size) ∨
        ∃ unit : BinaryUnit, size.Fits unit ∧
          |(read.bytes.toNat : ℚ) - size.bytes.toNat| ≤
            2 ^ unit.exponent / 20 + size.bytes.toNat / 2 ^ 51 + 1 ∧
          (read.display = size.display ∨
            (unit ≠ .pib ∧ size.display = String.ofList ("1024.0".toList ++ unit.text) ∧
              read.bytes.toNat = 2 ^ (unit.exponent + 10)))) := by
  rcases lt_or_ge size.bytes.toNat 1024 with hsmall | hlarge
  · exact ⟨size, fromStr_display_of_lt hsmall, .inl ⟨hsmall, rfl⟩⟩
  · obtain ⟨unit, hfits⟩ := exists_fits hlarge
    refine ⟨_, hfits.fromStr_shown, .inr ⟨unit, hfits, ?_, ?_⟩⟩
    · rw [toNat_ofNat_reread]
      exact hfits.abs_reread_sub_le
    · rw [toNat_ofNat_reread]
      exact hfits.display_reread

end ReadableSize

end Filestore.Common
