import Filestore.Ieee.Decimal
import Filestore.Serde.Format
import Mathlib.Data.List.DropRight

/-!
# Human-readable byte sizes

A size is printed in the largest binary unit that divides it, in exact integer arithmetic, and as
a plain integer when no unit does.  Reading a string goes through binary64: the digits are rounded
when they are parsed, multiplied by the unit and truncated.  The printed form of a size is
therefore read back exactly when binary64 has the printed number.
-/

namespace Filestore.Common

open Ieee Serde

/-- A number of bytes. -/
structure ReadableSize where
  bytes : UInt64
  deriving DecidableEq

namespace ReadableSize

/-! ## Units and parsing -/

def binaryDataMagnitude : UInt64 := 1024

def b : UInt64 := 1
def kib : UInt64 := b * binaryDataMagnitude
def mib : UInt64 := kib * binaryDataMagnitude
def gib : UInt64 := mib * binaryDataMagnitude
def tib : UInt64 := gib * binaryDataMagnitude
def pib : UInt64 := tib * binaryDataMagnitude

def mb (count : UInt64) : ReadableSize := ⟨count * mib⟩

def asBytes (size : ReadableSize) : UInt64 := size.bytes

/-- The characters that `str::trim` removes: the Unicode property White_Space. -/
def isWhitespace (c : Char) : Bool :=
  (9 ≤ c.toNat && c.toNat ≤ 13) || (0x2000 ≤ c.toNat && c.toNat ≤ 0x200A) ||
    c.toNat ∈ [0x20, 0x85, 0xA0, 0x1680, 0x2028, 0x2029, 0x202F, 0x205F, 0x3000]

def trim (text : List Char) : List Char :=
  (text.dropWhile isWhitespace).rdropWhile isWhitespace

/-- The characters of the number part, before the unit. -/
def isSizeChar (c : Char) : Bool := c.isDigit || c ∈ ['.', 'e', 'E', '-', '+']

def parseUnit : String → Option UInt64
  | "K" | "KB" | "KiB" => some kib
  | "M" | "MB" | "MiB" => some mib
  | "G" | "GB" | "GiB" => some gib
  | "T" | "TB" | "TiB" => some tib
  | "P" | "PB" | "PiB" => some pib
  | "B" | "" => some b
  | _ => none

/-- The reasons for which `fromStr` rejects its input, which each error quotes. -/
inductive ParseError where
  | empty (s : String)
  | notAscii (s : String)
  | unsupportedUnit (s : String)
  | invalidNumber (s : String)
  deriving DecidableEq

/-- The text of an error; `debug` quotes a string as the format `{:?}` does. -/
def ParseError.message (debug : String → String) : ParseError → String
  | .empty s => debug s ++ " is not a valid size."
  | .notAscii s => "ASCII string is expected, but got " ++ debug s
  | .unsupportedUnit s =>
      "only B, KB, KiB, MB, MiB, GB, GiB, TB, TiB, PB, and PiB are supported: " ++ debug s
  | .invalidNumber s => "invalid size string: " ++ debug s

/-- The value of a number in a unit: one product in binary64, cast to `u64`. -/
def scale (number : Number binary64) (unit : UInt64) : ReadableSize :=
  ⟨.ofNat ((number.mul (.ofNat binary64 unit.toNat)).truncate (2 ^ 64 - 1))⟩

def fromStr (s : String) : Except ParseError ReadableSize :=
  let sizeStr := trim s.toList
  if sizeStr.isEmpty then .error (.empty s)
  else if !sizeStr.all (fun c ↦ c.toNat < 128) then .error (.notAscii s)
  else
    let sizeLen := (sizeStr.takeWhile isSizeChar).length
    let (size, unit) := sizeStr.splitAt sizeLen
    match parseUnit (String.ofList (trim unit)) with
    | none => .error (.unsupportedUnit s)
    | some unit =>
      match Decimal.parse binary64 size with
      | some number => .ok (scale number unit)
      | none => .error (.invalidNumber s)

/-! ## Serialization -/

def serialize (readable : ReadableSize) : Scalar :=
  let size := readable.bytes
  if size = 0 then .str (toString size ++ "KiB")
  else if size % pib = 0 then .str (toString (size / pib) ++ "PiB")
  else if size % tib = 0 then .str (toString (size / tib) ++ "TiB")
  else if size % gib = 0 then .str (toString (size / gib) ++ "GiB")
  else if size % mib = 0 then .str (toString (size / mib) ++ "MiB")
  else if size % kib = 0 then .str (toString (size / kib) ++ "KiB")
  else .u64 size

def expecting : String := "valid size"

def visitU64 (size : UInt64) : Except (Error ParseError) ReadableSize := .ok ⟨size⟩

def visitI64 (size : Int64) : Except (Error ParseError) ReadableSize :=
  if size ≥ 0 then visitU64 size.toUInt64 else .error (.invalidValue (.i64 size) expecting)

def visitStr (sizeStr : String) : Except (Error ParseError) ReadableSize :=
  (fromStr sizeStr).mapError .custom

/-- A self-describing deserializer calls the visitor's method for the scalar it finds; `SizeVisitor`
has no method for booleans. -/
def deserialize : Scalar → Except (Error ParseError) ReadableSize
  | .i64 size => visitI64 size
  | .u64 size => visitU64 size
  | .str sizeStr => visitStr sizeStr
  | .bool value => .error (.invalidType (.bool value) expecting)

/-! ## Reading back a printed size -/

theorem not_isWhitespace_of_isDigit {c : Char} (hc : c.isDigit = true) :
    isWhitespace c = false := by
  have hrange : 48 ≤ c.toNat ∧ c.toNat ≤ 57 := by
    simpa [Char.isDigit, UInt32.le_iff_toNat_le] using hc
  simp only [isWhitespace, List.mem_cons, List.not_mem_nil, or_false, Bool.or_eq_false_iff,
    Bool.and_eq_false_iff, decide_eq_false_iff_not]
  omega

theorem isSizeChar_of_isDigit {c : Char} (hc : c.isDigit = true) : isSizeChar c = true := by
  simp [isSizeChar, hc]

theorem isAscii_of_isDigit {c : Char} (hc : c.isDigit = true) : c.toNat < 128 := by
  have hrange : 48 ≤ c.toNat ∧ c.toNat ≤ 57 := by
    simpa [Char.isDigit, UInt32.le_iff_toNat_le] using hc
  omega

/-- The letters that start the printed units. -/
def unitLetters : List Char := ['K', 'M', 'G', 'T', 'P']

theorem trim_unit : ∀ letter ∈ unitLetters, trim [letter, 'i', 'B'] = [letter, 'i', 'B'] := by
  simp only [unitLetters, List.forall_mem_cons, List.not_mem_nil, false_imp_iff, implies_true,
    and_true]
  decide

theorem not_isSizeChar_unit : ∀ letter ∈ unitLetters, isSizeChar letter = false := by
  simp only [unitLetters, List.forall_mem_cons, List.not_mem_nil, false_imp_iff, implies_true,
    and_true]
  decide

theorem isAscii_unit : ∀ letter ∈ unitLetters, ∀ c ∈ [letter, 'i', 'B'], c.toNat < 128 := by
  simp only [unitLetters, List.forall_mem_cons, List.not_mem_nil, false_imp_iff, implies_true,
    and_true]
  decide

/-- A printed size has nothing to trim: it starts with a digit and ends with a letter. -/
theorem trim_printed (n : ℕ) (letter : Char) :
    trim (Nat.toDigits 10 n ++ [letter, 'i', 'B']) = Nat.toDigits 10 n ++ [letter, 'i', 'B'] := by
  obtain ⟨digit, rest, hdigits, hdigit⟩ := Decimal.exists_toDigits_eq_cons n
  have hlast : digit :: rest ++ [letter, 'i', 'B'] = (digit :: rest ++ [letter, 'i']) ++ ['B'] := by
    simp
  rw [trim, hdigits, List.cons_append, List.dropWhile_cons_of_neg, ← List.cons_append, hlast,
    List.rdropWhile_concat_neg]
  · decide
  · simp [not_isWhitespace_of_isDigit hdigit]

theorem takeWhile_isSizeChar_printed (n : ℕ) {letter : Char} (hletter : letter ∈ unitLetters) :
    (Nat.toDigits 10 n ++ [letter, 'i', 'B']).takeWhile isSizeChar = Nat.toDigits 10 n := by
  rw [List.takeWhile_append_of_pos, List.takeWhile_cons_of_neg, List.append_nil]
  · simp [not_isSizeChar_unit letter hletter]
  · intro c hc
    exact isSizeChar_of_isDigit (List.all_eq_true.mp (Decimal.all_isDigit_toDigits n) c hc)

/-- A trimmed ASCII string is read as the number in front of its unit. -/
theorem fromStr_of_parts {s : String} {size letters : List Char} {unit : UInt64}
    (hs : trim s.toList = size ++ letters) (hne : size ≠ [])
    (hascii : ∀ c ∈ size ++ letters, c.toNat < 128)
    (htake : (size ++ letters).takeWhile isSizeChar = size)
    (hunit : parseUnit (String.ofList (trim letters)) = some unit) :
    fromStr s = match Decimal.parse binary64 size with
      | some number => .ok (scale number unit)
      | none => .error (.invalidNumber s) := by
  have hall : (size ++ letters).all (fun c ↦ c.toNat < 128) = true := by
    rw [List.all_eq_true]
    exact fun c hc ↦ decide_eq_true (hascii c hc)
  have hnonempty : (size ++ letters).isEmpty = false := by simp [hne]
  simp only [fromStr, hs, hnonempty, hall, htake, List.splitAt_eq, List.take_left, List.drop_left,
    hunit]
  rfl

/-- A printed size is read as its rounded number scaled by its unit. -/
theorem fromStr_printed (n : ℕ) {letter : Char} (hletter : letter ∈ unitLetters) {unit : UInt64}
    (hunit : parseUnit (String.ofList [letter, 'i', 'B']) = some unit) :
    fromStr (toString n ++ String.ofList [letter, 'i', 'B']) =
      .ok (scale (.round binary64 false n) unit) := by
  have htext : (toString n ++ String.ofList [letter, 'i', 'B']).toList =
      Nat.toDigits 10 n ++ [letter, 'i', 'B'] := by
    simp
  have hascii : ∀ c ∈ Nat.toDigits 10 n ++ [letter, 'i', 'B'], c.toNat < 128 := by
    intro c hc
    rcases List.mem_append.mp hc with hdigit | hunit
    · exact isAscii_of_isDigit (List.all_eq_true.mp (Decimal.all_isDigit_toDigits n) c hdigit)
    · exact isAscii_unit letter hletter c hunit
  rw [fromStr_of_parts (by rw [htext, trim_printed]) Nat.toDigits_ne_nil hascii
    (takeWhile_isSizeChar_printed n hletter) (by rw [trim_unit letter hletter, hunit]),
    Decimal.parse_toDigits]

/-! ## Sizes that survive -/

/-- The sizes that are printed without loss for the parser: a multiple of 1024 from `2 ^ 63` on must
be a multiple of 2048. -/
def SurvivesReload (size : ReadableSize) : Prop :=
  ¬ (2 ^ 63 ≤ size.bytes.toNat ∧ size.bytes.toNat % 2048 = 1024)

instance (size : ReadableSize) : Decidable size.SurvivesReload :=
  inferInstanceAs (Decidable (¬ _))

theorem representable_iff_survivesReload {size : ReadableSize} {n k : ℕ} (hk : 10 ≤ k)
    (hsize : n * 2 ^ k = size.bytes.toNat) :
    Representable binary64 n ↔ size.SurvivesReload := by
  have hbytes : size.bytes.toNat < 2 ^ 64 := size.bytes.toNat_lt
  rw [SurvivesReload, ← hsize]
  rw [← hsize] at hbytes
  rcases hk.eq_or_lt with rfl | hk
  · rw [representable_natCast_iff (by omega)]
    omega
  · obtain ⟨extra, rfl⟩ : ∃ extra, k = 11 + extra := ⟨k - 11, by omega⟩
    have hmultiple : n * 2 ^ (11 + extra) = 2048 * (n * 2 ^ extra) := by
      calc
        n * 2 ^ (11 + extra) = n * (2 ^ 11 * 2 ^ extra) := by rw [pow_add]
        _ = 2048 * (n * 2 ^ extra) := by ring
    have hle : n ≤ n * 2 ^ extra := Nat.le_mul_of_pos_right n (by positivity)
    exact iff_of_true (representable_of_lt_two_pow (by omega)) (by omega)

/-- Scaling a rounded number by its unit is exact precisely when the number is representable. -/
theorem scale_eq_iff_representable {size : ReadableSize} {n k : ℕ} {unit : UInt64} (hk : k ≤ 64)
    (hunit : unit.toNat = 2 ^ k) (hsize : n * 2 ^ k = size.bytes.toNat)
    (hlimit : n * 2 ^ k < 2 ^ 64 - 1) :
    scale (.round binary64 false n) unit = size ↔ Representable binary64 n := by
  have hle : n ≤ n * 2 ^ k := Nat.le_mul_of_pos_right n (by positivity)
  rw [← Number.truncate_mul_two_pow_eq_iff (by omega) hk hlimit, hsize, scale, hunit]
  obtain ⟨bytes⟩ := size
  rw [ReadableSize.mk.injEq, ← UInt64.toNat_inj, UInt64.toNat_ofNat_of_lt' (Nat.lt_of_le_of_lt
    (Number.truncate_le _ _) (by decide))]

/-- A number in a printed unit is scaled exactly when the size survives. -/
theorem scale_eq_iff {size : ReadableSize} {n k : ℕ} {unit : UInt64} (hk : 10 ≤ k) (hk' : k ≤ 50)
    (hunit : unit.toNat = 2 ^ k) (hsize : n * 2 ^ k = size.bytes.toNat) :
    scale (.round binary64 false n) unit = size ↔ size.SurvivesReload := by
  have hbytes : size.bytes.toNat < 2 ^ 64 := size.bytes.toNat_lt
  have heven : n * 2 ^ k % 2 = 0 := by
    obtain ⟨extra, rfl⟩ := Nat.exists_eq_add_of_le hk
    have hdouble : n * 2 ^ (10 + extra) = 2 * (n * 2 ^ (9 + extra)) := by
      rw [pow_add, pow_add]
      ring
    omega
  rw [scale_eq_iff_representable (by omega) hunit hsize (by omega),
    representable_iff_survivesReload hk hsize]

theorem div_toNat_mul {size unit : UInt64} {k : ℕ} (hunit : unit.toNat = 2 ^ k)
    (hmod : size % unit = 0) : (size / unit).toNat * 2 ^ k = size.toNat := by
  have hzero : size.toNat % 2 ^ k = 0 := by
    calc
      size.toNat % 2 ^ k = size.toNat % unit.toNat := by rw [hunit]
      _ = (size % unit).toNat := (UInt64.toNat_mod size unit).symm
      _ = 0 := by rw [hmod, UInt64.toNat_zero]
  rw [UInt64.toNat_div, hunit]
  exact Nat.div_mul_cancel (Nat.dvd_of_mod_eq_zero hzero)

/-- What `serialize` writes: the plain integer, or a multiple of a binary unit. -/
theorem serialize_cases (size : ReadableSize) :
    (size.serialize = .u64 size.bytes ∧ size.bytes.toNat % 1024 ≠ 0) ∨
      ∃ letter ∈ unitLetters, ∃ n k unit, 10 ≤ k ∧ k ≤ 50 ∧ unit.toNat = 2 ^ k ∧
        parseUnit (String.ofList [letter, 'i', 'B']) = some unit ∧
        n * 2 ^ k = size.bytes.toNat ∧
        size.serialize = .str (toString n ++ String.ofList [letter, 'i', 'B']) := by
  obtain ⟨size⟩ := size
  unfold serialize
  dsimp only
  split_ifs with hzero hpib htib hgib hmib hkib
  · exact .inr ⟨'K', by decide, 0, 10, kib, by decide, by decide, by decide, by decide,
      by simp [hzero], by rw [hzero]; rfl⟩
  · exact .inr ⟨'P', by decide, (size / pib).toNat, 50, pib, by decide, by decide, by decide,
      by decide, div_toNat_mul (by decide) hpib, rfl⟩
  · exact .inr ⟨'T', by decide, (size / tib).toNat, 40, tib, by decide, by decide, by decide,
      by decide, div_toNat_mul (by decide) htib, rfl⟩
  · exact .inr ⟨'G', by decide, (size / gib).toNat, 30, gib, by decide, by decide, by decide,
      by decide, div_toNat_mul (by decide) hgib, rfl⟩
  · exact .inr ⟨'M', by decide, (size / mib).toNat, 20, mib, by decide, by decide, by decide,
      by decide, div_toNat_mul (by decide) hmib, rfl⟩
  · exact .inr ⟨'K', by decide, (size / kib).toNat, 10, kib, by decide, by decide, by decide,
      by decide, div_toNat_mul (by decide) hkib, rfl⟩
  · refine .inl ⟨rfl, fun hmod ↦ hkib ?_⟩
    rw [← UInt64.toNat_inj, UInt64.toNat_mod]
    exact hmod

/-- A size is read back from its own serialization exactly when it survives. -/
theorem deserialize_serialize_iff (size : ReadableSize) :
    deserialize size.serialize = .ok size ↔ size.SurvivesReload := by
  rcases size.serialize_cases with ⟨hserialize, hmod⟩ |
    ⟨letter, hletter, n, k, unit, hk, hk', hunit, hparse, hsize, hserialize⟩
  · refine iff_of_true (by rw [hserialize]; rfl) ?_
    rw [SurvivesReload]
    omega
  · rw [hserialize, deserialize, visitStr, fromStr_printed n hletter hparse,
      ← scale_eq_iff hk hk' hunit hsize]
    simp [Except.mapError]

/-- A visitor cannot tell a nonnegative signed integer from the unsigned one of equal value. -/
theorem deserialize_of_same {scalar other : Scalar} (h : scalar.Same other) :
    deserialize other = deserialize scalar := by
  cases h with
  | refl => rfl
  | signed unsigned value h =>
    have hnonneg : value ≥ 0 := by
      rw [ge_iff_le, Int64.le_iff_toInt_le, h]
      exact Int.natCast_nonneg _
    have hcast : value.toUInt64 = unsigned := by
      rw [← UInt64.toNat_inj, Int64.toNat_toUInt64_of_le hnonneg, ← Int64.toNat_toInt, h]
      exact Int.toNat_natCast unsigned.toNat
    simp [deserialize, visitI64, visitU64, hnonneg, hcast]

end ReadableSize

end Filestore.Common
