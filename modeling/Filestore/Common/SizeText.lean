import Filestore.Common.SizeNotation
import Filestore.Ieee.Accuracy
import Filestore.Ieee.Numeral

/-!
# The grammar of configured sizes

A size text is white space around an optional sign, a numeral, ASCII white space and a unit.  These
are exactly the strings that are read, and a string is read as its exact number of bytes, rounded
once to binary64, truncated and saturated.  So two ways of writing one number of bytes, in whatever
units, are one size, and a larger number is never read as a smaller size.
-/

namespace Filestore.Common.ReadableSize

open Ieee

/-! ## Syntax -/

/-- The unit names, with the power of two that each stands for. -/
def unitNames : List (List Char × ℕ) :=
  [(['K'], 10), (['K', 'B'], 10), (['K', 'i', 'B'], 10), (['M'], 20), (['M', 'B'], 20),
    (['M', 'i', 'B'], 20), (['G'], 30), (['G', 'B'], 30), (['G', 'i', 'B'], 30), (['T'], 40),
    (['T', 'B'], 40), (['T', 'i', 'B'], 40), (['P'], 50), (['P', 'B'], 50), (['P', 'i', 'B'], 50),
    (['B'], 0), ([], 0)]

/-- A string that is a size. -/
structure SizeText where
  before : List Char
  sign : Sign
  numeral : Numeral
  gap : List Char
  unit : List Char
  exponent : ℕ
  after : List Char
  before_isWhitespace : ∀ c ∈ before, isWhitespace c = true
  gap_isWhitespace : ∀ c ∈ gap, isWhitespace c = true ∧ c.toNat < 128
  mem_unitNames : (unit, exponent) ∈ unitNames
  after_isWhitespace : ∀ c ∈ after, isWhitespace c = true

namespace SizeText

/-- The number part, without the white space around it. -/
def number (size : SizeText) : List Char := size.sign.text ++ size.numeral.text

def text (size : SizeText) : List Char :=
  size.before ++ (size.number ++ (size.gap ++ size.unit)) ++ size.after

/-- The number of bytes that is written, exactly; a negative number counts as zero. -/
def exactBytes (size : SizeText) : ℚ :=
  if size.sign.isNegative then 0 else size.numeral.value * 2 ^ size.exponent

/-- The number of bytes that is read. -/
def bytes (size : SizeText) : ℕ :=
  Number.scaledFloor binary64 0 (2 ^ 64 - 1) size.exactBytes

end SizeText

/-! ## Units -/

theorem parseUnit_of_mem : ∀ entry ∈ unitNames,
    ∃ unit, parseUnit (String.ofList entry.1) = some unit ∧ unit.toNat = 2 ^ entry.2 ∧
      entry.2 ≤ 50 := by
  simp only [unitNames, List.forall_mem_cons, List.not_mem_nil, false_imp_iff, implies_true,
    and_true]
  refine ⟨?_, ?_, ?_, ?_, ?_, ?_, ?_, ?_, ?_, ?_, ?_, ?_, ?_, ?_, ?_, ?_, ?_⟩ <;>
    exact ⟨_, rfl, by decide, by decide⟩

theorem exists_of_parseUnit {name : String} {unit : UInt64} (h : parseUnit name = some unit) :
    ∃ k, (name.toList, k) ∈ unitNames ∧ unit.toNat = 2 ^ k ∧ k ≤ 50 := by
  unfold parseUnit at h
  split at h <;> cases h
  case h_1 | h_2 | h_3 => exact ⟨10, by decide, by decide, by decide⟩
  case h_4 | h_5 | h_6 => exact ⟨20, by decide, by decide, by decide⟩
  case h_7 | h_8 | h_9 => exact ⟨30, by decide, by decide, by decide⟩
  case h_10 | h_11 | h_12 => exact ⟨40, by decide, by decide, by decide⟩
  case h_13 | h_14 | h_15 => exact ⟨50, by decide, by decide, by decide⟩
  case h_16 | h_17 => exact ⟨0, by decide, by decide, by decide⟩

/-! ## White space -/

/-- Trimming removes white space on both sides, and nothing else. -/
theorem exists_trim (text : List Char) :
    ∃ before after, text = before ++ trim text ++ after ∧
      (∀ c ∈ before, isWhitespace c = true) ∧ ∀ c ∈ after, isWhitespace c = true := by
  refine ⟨text.takeWhile isWhitespace, (text.dropWhile isWhitespace).rtakeWhile isWhitespace, ?_,
    fun c hc ↦ List.mem_takeWhile_imp hc, fun c hc ↦ List.mem_rtakeWhile_imp hc⟩
  calc
    text = text.takeWhile isWhitespace ++ text.dropWhile isWhitespace :=
      List.takeWhile_append_dropWhile.symm
    _ = text.takeWhile isWhitespace ++ (trim text ++
          (text.dropWhile isWhitespace).rtakeWhile isWhitespace) := by
      rw [trim, List.rdropWhile_append_rtakeWhile]
    _ = _ := (List.append_assoc _ _ _).symm

/-- A text that neither starts nor ends with white space is what trimming leaves. -/
theorem trim_append {before core after : List Char} (hbefore : ∀ c ∈ before, isWhitespace c = true)
    (hafter : ∀ c ∈ after, isWhitespace c = true)
    (hhead : ∀ c ∈ core.head?, isWhitespace c = false)
    (hlast : ∀ c ∈ core.getLast?, isWhitespace c = false) :
    trim (before ++ core ++ after) = core := by
  have hstop : ∀ c ∈ core.reverse.head?, isWhitespace c = false := by
    rw [List.head?_reverse]
    exact hlast
  have hreverse : ∀ c ∈ after.reverse, isWhitespace c = true :=
    fun c hc ↦ hafter c (List.mem_reverse.mp hc)
  rw [trim, List.append_assoc, List.dropWhile_append_of_pos hbefore]
  cases core with
  | nil =>
    rw [List.nil_append, List.dropWhile_eq_nil_iff.mpr hafter]
    rfl
  | cons c core =>
    rw [List.cons_append, List.dropWhile_cons_of_neg (by simp [hhead c rfl]), ← List.cons_append,
      List.rdropWhile, List.reverse_append, (Decimal.takeWhile_append_stop hreverse hstop).2,
      List.reverse_reverse]

theorem not_isSizeChar_of_isWhitespace {c : Char} (hc : isWhitespace c = true) :
    isSizeChar c = false := by
  by_contra h
  rw [not_isWhitespace_of_isSizeChar (Bool.eq_true_of_not_eq_false h)] at hc
  cases hc

/-! ## The number part -/

theorem isSizeChar_of_mem_sign (sign : Sign) : ∀ c ∈ sign.text, isSizeChar c = true := by
  apply List.all_eq_true.mp
  cases sign <;> decide

theorem isSizeChar_of_mem_numeral (numeral : Numeral) :
    ∀ c ∈ numeral.text, isSizeChar c = true := by
  intro c hc
  have hexponent : ∀ exponent : Exponent, c ∈ exponent.text → isSizeChar c = true := by
    intro exponent hc
    rcases List.mem_cons.mp hc with rfl | hc
    · rcases exponent.mark_eq with hmark | hmark <;> rw [hmark] <;> decide
    · rcases List.mem_append.mp hc with hsign | hdigit
      · exact isSizeChar_of_mem_sign exponent.sign c hsign
      · exact isSizeChar_of_isDigit (exponent.digits.isDigit c hdigit)
  have hfraction := numeral.fraction_isDigit
  unfold Numeral.text Numeral.fractionText Numeral.exponentText at hc
  rcases List.mem_append.mp hc with hwhole | hc
  · exact isSizeChar_of_isDigit (numeral.whole_isDigit c hwhole)
  rcases List.mem_append.mp hc with hc | hc
  · cases h : numeral.fraction with
    | none => simp [h] at hc
    | some fraction =>
      rw [h, Option.elim_some] at hc
      rw [h, Option.getD_some] at hfraction
      rcases List.mem_cons.mp hc with rfl | hdigit
      · decide
      · exact isSizeChar_of_isDigit (hfraction c hdigit)
  · cases h : numeral.exponent with
    | none => simp [h] at hc
    | some exponent =>
      rw [h, Option.elim_some] at hc
      exact hexponent exponent hc

theorem isSizeChar_of_mem_number {size : SizeText} :
    ∀ c ∈ size.number, isSizeChar c = true := by
  intro c hc
  rcases List.mem_append.mp hc with hsign | hnumeral
  · exact isSizeChar_of_mem_sign size.sign c hsign
  · exact isSizeChar_of_mem_numeral size.numeral c hnumeral

/-- None of the words for infinity and NaN consists of number characters. -/
theorem toLower_ne_of_isSizeChar {c : Char} (hc : isSizeChar c = true) : c.toLower ≠ 'n' := by
  apply of_isSizeChar _ _ hc
  · intro digit hdigit
    have hword := Decimal.map_toLower_ne_word [] [] hdigit (.inr rfl)
    simpa using hword
  · decide

theorem parse_eq_some_iff {text : List Char} (htext : ∀ c ∈ text, isSizeChar c = true)
    {number : Number binary64} :
    Decimal.parse binary64 text = some number ↔
      ∃ (sign : Sign) (numeral : Numeral), sign.text ++ numeral.text = text ∧
        Number.round binary64 sign.isNegative numeral.value = number :=
  Decimal.parse_eq_some_iff binary64 fun c hc ↦ toLower_ne_of_isSizeChar (htext c hc)

/-! ## Reading a size text -/

namespace SizeText

/-- What trimming leaves after the number: the unit, with the gap before it if there is one. -/
def letters (size : SizeText) : List Char :=
  if size.unit = [] then [] else size.gap ++ size.unit

theorem number_ne_nil (size : SizeText) : size.number ≠ [] := by
  intro hnil
  have hne := size.numeral.ne_nil
  obtain ⟨-, htext⟩ := List.append_eq_nil_iff.mp hnil
  obtain ⟨hwhole, hrest⟩ := List.append_eq_nil_iff.mp htext
  obtain ⟨hfraction, -⟩ := List.append_eq_nil_iff.mp hrest
  unfold Numeral.fractionText at hfraction
  cases h : size.numeral.fraction with
  | none => simp [hwhole, h] at hne
  | some fraction => simp [h] at hfraction

theorem unit_spec (size : SizeText) :
    (∀ c ∈ size.unit, isWhitespace c = false ∧ c.toNat < 128) ∧
      ∀ c ∈ size.unit.head?, isSizeChar c = false := by
  have hnames : ∀ entry ∈ unitNames,
      entry.1.all (fun c ↦ !isWhitespace c && decide (c.toNat < 128)) = true ∧
        entry.1.head?.all (fun c ↦ !isSizeChar c) = true := by decide
  obtain ⟨hunit, hhead⟩ := hnames _ size.mem_unitNames
  exact ⟨by simpa using hunit, by simpa [Option.all_eq_true] using hhead⟩

theorem trim_text (size : SizeText) : trim size.text = size.number ++ size.letters := by
  obtain ⟨hunit, -⟩ := size.unit_spec
  have hhead : ∀ rest, ∀ c ∈ (size.number ++ rest).head?, isWhitespace c = false := by
    intro rest c hc
    rw [List.head?_append_of_ne_nil _ size.number_ne_nil] at hc
    exact not_isWhitespace_of_isSizeChar
      (isSizeChar_of_mem_number c (List.mem_of_mem_head? hc))
  unfold letters
  split_ifs with hempty
  · -- Without a unit the gap is trimmed with the white space after it.
    have htext : size.text = size.before ++ (size.number ++ []) ++ (size.gap ++ size.after) := by
      simp [text, hempty]
    rw [htext]
    apply trim_append size.before_isWhitespace _ (hhead [])
    · intro c hc
      rw [List.append_nil] at hc
      exact not_isWhitespace_of_isSizeChar
        (isSizeChar_of_mem_number c (List.mem_of_mem_getLast? hc))
    · intro c hc
      rcases List.mem_append.mp hc with hgap | hafter
      · exact (size.gap_isWhitespace c hgap).1
      · exact size.after_isWhitespace c hafter
  · apply trim_append size.before_isWhitespace size.after_isWhitespace (hhead _)
    intro c hc
    have hne : size.gap ++ size.unit ≠ [] := by simp [hempty]
    rw [List.getLast?_append_of_ne_nil _ hne, List.getLast?_append_of_ne_nil _ hempty] at hc
    exact (hunit c (List.mem_of_mem_getLast? hc)).1

theorem trim_letters (size : SizeText) : trim size.letters = size.unit := by
  obtain ⟨hunit, -⟩ := size.unit_spec
  unfold letters
  split_ifs with hempty
  · rw [hempty]
    rfl
  · rw [← List.append_nil (size.gap ++ size.unit)]
    apply trim_append
    · exact fun c hc ↦ (size.gap_isWhitespace c hc).1
    · simp
    · exact fun c hc ↦ (hunit c (List.mem_of_mem_head? hc)).1
    · exact fun c hc ↦ (hunit c (List.mem_of_mem_getLast? hc)).1

theorem takeWhile_isSizeChar (size : SizeText) :
    (size.number ++ size.letters).takeWhile isSizeChar = size.number := by
  obtain ⟨-, hunit⟩ := size.unit_spec
  refine (Decimal.takeWhile_append_stop isSizeChar_of_mem_number ?_).1
  intro c hc
  unfold letters at hc
  split_ifs at hc
  · cases hc
  · cases hgap : size.gap with
    | nil =>
      rw [hgap, List.nil_append] at hc
      exact hunit c hc
    | cons space gap =>
      rw [hgap, List.cons_append, List.head?_cons, Option.mem_some_iff] at hc
      rw [← hc]
      exact not_isSizeChar_of_isWhitespace (size.gap_isWhitespace space (by simp [hgap])).1

theorem isAscii (size : SizeText) : ∀ c ∈ size.number ++ size.letters, c.toNat < 128 := by
  obtain ⟨hunit, -⟩ := size.unit_spec
  intro c hc
  rcases List.mem_append.mp hc with hnumber | hletters
  · exact isAscii_of_isSizeChar (isSizeChar_of_mem_number c hnumber)
  · unfold letters at hletters
    split_ifs at hletters
    · cases hletters
    · rcases List.mem_append.mp hletters with hgap | hin
      · exact (size.gap_isWhitespace c hgap).2
      · exact (hunit c hin).2

end SizeText

/-- A rounded number is scaled as if its exact number of bytes was rounded. -/
theorem toNat_scale (sign : Sign) (q : ℚ) {unit : UInt64} {k : ℕ} (hk : k ≤ 50)
    (hunit : unit.toNat = 2 ^ k) :
    (scale (.round binary64 sign.isNegative q) unit).bytes.toNat =
      Number.scaledFloor binary64 0 (2 ^ 64 - 1) (if sign.isNegative then 0 else q * 2 ^ k) := by
  cases sign.isNegative with
  | true =>
    rw [scale_neg, if_pos rfl]
    simp [Number.scaledFloor, roundMagnitude_of_nonpos]
  | false =>
    rw [if_neg (by decide), Number.scaledFloor_mul_two_pow q (by omega) (Nat.sub_le _ _), scale,
      hunit, Number.truncate_mul_two_pow_eq_scaledFloor q (by omega) (Nat.sub_le _ _)]
    exact UInt64.toNat_ofNat_of_lt' (Nat.lt_of_le_of_lt (Number.scaledFloor_le _ _ _) (by decide))

/-- A size text is read as its number of bytes. -/
theorem fromStr_text {s : String} {text : SizeText} (h : text.text = s.toList) :
    ∃ size, fromStr s = .ok size ∧ size.bytes.toNat = text.bytes := by
  obtain ⟨unit, hparse, hunit, hk⟩ := parseUnit_of_mem _ text.mem_unitNames
  have hnumber : Decimal.parse binary64 text.number =
      some (.round binary64 text.sign.isNegative text.numeral.value) :=
    (parse_eq_some_iff isSizeChar_of_mem_number).mpr ⟨text.sign, text.numeral, rfl, rfl⟩
  refine ⟨_, ?_, toNat_scale text.sign text.numeral.value hk hunit⟩
  rw [fromStr_of_parts (by rw [← h, text.trim_text]) text.number_ne_nil text.isAscii
    text.takeWhile_isSizeChar (by rw [text.trim_letters, hparse]), hnumber]

/-- Whatever is read was a size text. -/
theorem exists_text_of_fromStr {s : String} {size : ReadableSize} (h : fromStr s = .ok size) :
    ∃ text : SizeText, text.text = s.toList ∧ text.bytes = size.bytes.toNat := by
  obtain ⟨before, after, hs, hbefore, hafter⟩ := exists_trim s.toList
  unfold fromStr at h
  dsimp only at h
  split_ifs at h with hempty hascii
  have hascii' : ∀ c ∈ trim s.toList, c.toNat < 128 := by
    simpa using hascii
  rw [List.splitAt_eq] at h
  dsimp only at h
  set core := trim s.toList
  set number := core.take (core.takeWhile isSizeChar).length with hnumber
  set letters := core.drop (core.takeWhile isSizeChar).length with hletters
  have hcore : core = number ++ letters := (List.take_append_drop _ core).symm
  have hsizeChar : ∀ c ∈ number, isSizeChar c = true := by
    intro c hc
    rw [hnumber, ← List.prefix_iff_eq_take.mp (List.takeWhile_prefix isSizeChar)] at hc
    exact List.mem_takeWhile_imp hc
  obtain ⟨gap, rest, hgap, hgapSpace, hrestSpace⟩ := exists_trim letters
  split at h
  · cases h
  · rename_i unit hunit
    split at h
    · rename_i parsed hparsed
      obtain rfl := Except.ok.inj h
      obtain ⟨k, hmem, hpow, hk⟩ := exists_of_parseUnit hunit
      rw [String.toList_ofList] at hmem
      obtain ⟨sign, numeral, htext, rfl⟩ := (parse_eq_some_iff hsizeChar).mp hparsed
      refine ⟨⟨before, sign, numeral, gap, trim letters, k, rest ++ after, hbefore, ?_, hmem, ?_⟩,
        ?_, ?_⟩
      · intro c hc
        refine ⟨hgapSpace c hc, hascii' c ?_⟩
        rw [hcore, hgap]
        simp [hc]
      · intro c hc
        rcases List.mem_append.mp hc with hc | hc
        · exact hrestSpace c hc
        · exact hafter c hc
      · calc
          SizeText.text _ = before ++ (number ++ (gap ++ trim letters ++ rest)) ++ after := by
            simp [SizeText.text, SizeText.number, htext]
          _ = s.toList := by rw [← hgap, ← hcore, ← hs]
      · exact (toNat_scale sign numeral.value hk hpow).symm
    · cases h

/-- The strings that are read are exactly the size texts, and each is read as its exact number of
bytes, rounded once. -/
theorem fromStr_eq_ok_iff (s : String) (size : ReadableSize) :
    fromStr s = .ok size ↔
      ∃ text : SizeText, text.text = s.toList ∧ text.bytes = size.bytes.toNat := by
  constructor
  · exact exists_text_of_fromStr
  · rintro ⟨text, htext, hbytes⟩
    obtain ⟨read, hread, hvalue⟩ := fromStr_text htext
    have hsame : read = size := by
      obtain ⟨read⟩ := read
      obtain ⟨bytes⟩ := size
      rw [ReadableSize.mk.injEq, ← UInt64.toNat_inj]
      exact hvalue.trans hbytes
    rw [hread, hsame]

/-! ## Order and accuracy -/

namespace SizeText

theorem exactBytes_nonneg (text : SizeText) : 0 ≤ text.exactBytes := by
  have hvalue := text.numeral.value_nonneg
  unfold exactBytes
  split_ifs
  · exact le_rfl
  · positivity

theorem bytes_eq {text : SizeText} (h : text.exactBytes ≤ 2 ^ 64) :
    text.bytes = min ⌊nearest text.exactBytes⌋₊ (2 ^ 64 - 1) := by
  rw [bytes, Number.scaledFloor_eq_nearest _ _ h, pow_zero, mul_one]

/-- A whole number of bytes of at most 53 bits is read exactly. -/
theorem bytes_eq_of_natCast {text : SizeText} {n : ℕ} (hn : n < 2 ^ 53)
    (h : text.exactBytes = n) : text.bytes = n := by
  have hle : text.exactBytes ≤ 2 ^ 64 := by
    rw [h]
    exact_mod_cast (by omega : n ≤ 2 ^ 64)
  rw [bytes_eq hle, h, nearest_of_representable (h ▸ hle) (representable_of_lt_two_pow hn),
    Nat.floor_natCast]
  exact min_eq_left (by omega)

/-- The relative error of binary64, and less than one byte of truncation. -/
theorem abs_bytes_sub_le {text : SizeText} (h : text.exactBytes ≤ 2 ^ 64) :
    |(text.bytes : ℚ) - text.exactBytes| ≤ text.exactBytes / 2 ^ 53 + 1 := by
  have hnonneg := text.exactBytes_nonneg
  rw [bytes_eq h]
  generalize text.exactBytes = exact at h hnonneg
  rcases lt_or_ge exact 1 with hsmall | hlarge
  · have hfloor : ⌊nearest exact⌋₊ ≤ 1 := by
      calc
        ⌊nearest exact⌋₊ ≤ ⌊nearest (2 ^ 0)⌋₊ :=
          Nat.floor_mono (nearest_mono (by rw [pow_zero]; exact hsmall.le) (by norm_num))
        _ = 1 := by rw [nearest_two_pow (by norm_num), pow_zero, Nat.floor_one]
    have hmin : min ⌊nearest exact⌋₊ (2 ^ 64 - 1) ≤ 1 := (min_le_left _ _).trans hfloor
    generalize min ⌊nearest exact⌋₊ (2 ^ 64 - 1) = read at hmin
    have hcast : (read : ℚ) ≤ 1 := by exact_mod_cast hmin
    have hcast' : (0 : ℚ) ≤ read := Nat.cast_nonneg _
    rw [abs_le]
    constructor <;> linarith
  · obtain ⟨hlower, hupper⟩ := abs_le.mp (abs_nearest_sub_le hlarge h)
    have hread : 0 ≤ nearest exact := by linarith
    have hfloor := Nat.floor_le hread
    have hceil := Nat.lt_floor_add_one (nearest exact)
    rw [abs_le]
    rcases le_total ⌊nearest exact⌋₊ (2 ^ 64 - 1) with hle | hle
    · rw [min_eq_left hle]
      constructor <;> linarith
    · -- A saturated size is at most one byte below the largest number of bytes.
      have hsaturated : ((2 ^ 64 - 1 : ℕ) : ℚ) ≤ ⌊nearest exact⌋₊ := by exact_mod_cast hle
      have hcast : ((2 ^ 64 - 1 : ℕ) : ℚ) = 2 ^ 64 - 1 := by norm_num
      rw [min_eq_right hle]
      rw [hcast] at hsaturated ⊢
      constructor <;> linarith

/-- From `2 ^ 64` bytes on the size is the largest one. -/
theorem bytes_eq_max {text : SizeText} (h : 2 ^ 64 ≤ text.exactBytes) :
    text.bytes = 2 ^ 64 - 1 := by
  apply le_antisymm (Number.scaledFloor_le _ _ _)
  calc
    2 ^ 64 - 1 = min ⌊nearest (2 ^ 64) * 2 ^ 0⌋₊ (2 ^ 64 - 1) := by
      have hfloor : ⌊(2 ^ 64 : ℚ)⌋₊ = 2 ^ 64 := by
        exact_mod_cast Nat.floor_natCast (R := ℚ) (2 ^ 64)
      rw [nearest_two_pow le_rfl, pow_zero, mul_one, hfloor]
      decide
    _ = Number.scaledFloor binary64 0 (2 ^ 64 - 1) (2 ^ 64) :=
      (Number.scaledFloor_eq_nearest _ _ le_rfl).symm
    _ ≤ text.bytes := Number.scaledFloor_mono _ _ h

end SizeText

/-- Reading keeps the order of sizes, is exact for whole numbers of bytes below `2 ^ 53`, is within
the error of one rounding and one truncation otherwise, and saturates. -/
theorem fromStr_accurate {s : String} {text : SizeText} (h : text.text = s.toList) :
    ∃ size, fromStr s = .ok size ∧
      (∀ n : ℕ, n < 2 ^ 53 → text.exactBytes = n → size.bytes.toNat = n) ∧
      (text.exactBytes ≤ 2 ^ 64 →
        |(size.bytes.toNat : ℚ) - text.exactBytes| ≤ text.exactBytes / 2 ^ 53 + 1) ∧
      (2 ^ 64 ≤ text.exactBytes → size.bytes.toNat = 2 ^ 64 - 1) ∧
      ∀ (s' : String) (text' : SizeText) (size' : ReadableSize), text'.text = s'.toList →
        fromStr s' = .ok size' → text.exactBytes ≤ text'.exactBytes → size.bytes ≤ size'.bytes := by
  obtain ⟨size, hsize, hbytes⟩ := fromStr_text h
  refine ⟨size, hsize, ?_, ?_, ?_, ?_⟩
  · intro n hn hexact
    rw [hbytes, SizeText.bytes_eq_of_natCast hn hexact]
  · rw [hbytes]
    exact SizeText.abs_bytes_sub_le
  · rw [hbytes]
    exact SizeText.bytes_eq_max
  · intro s' text' size' h' hsize' hle
    obtain ⟨read, hread, hbytes'⟩ := fromStr_text h'
    obtain rfl := Except.ok.inj (hread.symm.trans hsize')
    rw [UInt64.le_iff_toNat_le, hbytes, hbytes']
    exact Number.scaledFloor_mono _ _ hle

/-- ` 1.5e1 KB` as a size text. -/
def fifteenKilobytes : SizeText where
  before := [' ']
  sign := .none
  numeral :=
    { whole := ['1']
      fraction := some ['5']
      exponent := some
        ⟨'e', .none, ⟨['1'], by decide, List.forall_mem_singleton.mpr rfl⟩, .inl rfl⟩
      whole_isDigit := List.forall_mem_singleton.mpr rfl
      fraction_isDigit := List.forall_mem_singleton.mpr rfl
      ne_nil := by decide }
  gap := [' ']
  unit := ['K', 'B']
  exponent := 10
  after := []
  before_isWhitespace := List.forall_mem_singleton.mpr rfl
  gap_isWhitespace := List.forall_mem_singleton.mpr (by decide)
  mem_unitNames := by decide
  after_isWhitespace := by simp

/-- ` 1.5e1 KB` is 15360 bytes. -/
theorem fromStr_fifteenKilobytes :
    ∃ size, fromStr " 1.5e1 KB" = .ok size ∧ size.bytes.toNat = 15360 := by
  have htext : fifteenKilobytes.text = " 1.5e1 KB".toList := by decide
  obtain ⟨size, hsize, hexact, -⟩ := fromStr_accurate htext
  refine ⟨size, hsize, hexact 15360 (by norm_num) ?_⟩
  decide +kernel

end Filestore.Common.ReadableSize
