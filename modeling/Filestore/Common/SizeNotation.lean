import Filestore.Common.ReadableSize

/-!
# The integer and the string form of a size

A size may be configured as an integer or as a string.  The integer is checked for its sign and
taken as it is; the decimal string of the same integer goes through binary64 without such a check,
so a negative one is saturated to zero and a long one is rounded.
-/

namespace Filestore.Common.ReadableSize

open Ieee Serde

/-! ## Strings without a unit -/

/-- What holds of the digits and of the five marks holds of every number character. -/
theorem of_isSizeChar {Holds : Char → Prop} (hdigit : ∀ c : Char, c.isDigit = true → Holds c)
    (hmark : Holds '.' ∧ Holds 'e' ∧ Holds 'E' ∧ Holds '-' ∧ Holds '+') {c : Char}
    (hc : isSizeChar c = true) : Holds c := by
  have hmarks : ∀ c ∈ ['.', 'e', 'E', '-', '+'], Holds c := by simpa using hmark
  rcases Bool.or_eq_true_iff.mp hc with h | h
  · exact hdigit c h
  · exact hmarks c (of_decide_eq_true h)

theorem not_isWhitespace_of_isSizeChar {c : Char} (hc : isSizeChar c = true) :
    isWhitespace c = false := by
  apply of_isSizeChar _ _ hc
  · exact fun _ ↦ not_isWhitespace_of_isDigit
  · decide

theorem isAscii_of_isSizeChar {c : Char} (hc : isSizeChar c = true) : c.toNat < 128 := by
  apply of_isSizeChar _ _ hc
  · exact fun _ ↦ isAscii_of_isDigit
  · decide

theorem trim_of_forall {text : List Char} (htext : ∀ c ∈ text, isWhitespace c = false) :
    trim text = text := by
  have hdrop : text.dropWhile isWhitespace = text := by
    cases text with
    | nil => rfl
    | cons c text => exact List.dropWhile_cons_of_neg (by simp [htext c List.mem_cons_self])
  rw [trim, hdrop, List.rdropWhile_eq_self_iff]
  intro hne hlast
  simp [htext _ (List.getLast_mem hne)] at hlast

/-- A string of number characters alone counts bytes. -/
theorem fromStr_of_isSizeChar {s : String} (hne : s.toList ≠ [])
    (hs : ∀ c ∈ s.toList, isSizeChar c = true) :
    fromStr s = match Decimal.parse binary64 s.toList with
      | some number => .ok (scale number b)
      | none => .error (.invalidNumber s) := by
  have htrim : trim s.toList = s.toList ++ [] := by
    rw [List.append_nil]
    exact trim_of_forall fun c hc ↦ not_isWhitespace_of_isSizeChar (hs c hc)
  have hunit : parseUnit (String.ofList (trim [])) = some b := by decide
  apply fromStr_of_parts htrim hne _ _ hunit
  · intro c hc
    rw [List.append_nil] at hc
    exact isAscii_of_isSizeChar (hs c hc)
  · rw [List.append_nil]
    exact List.takeWhile_eq_self_iff.mpr hs

/-! ## Decimal strings of integers -/

theorem toList_toString (n : ℤ) : (toString n).toList =
    if n < 0 then '-' :: Nat.toDigits 10 n.natAbs else Nat.toDigits 10 n.natAbs := by
  cases n with
  | ofNat m => simp [toString, Int.repr]
  | negSucc m => simp [toString, Int.repr]

theorem isSizeChar_of_mem_toString {n : ℤ} {c : Char} (hc : c ∈ (toString n).toList) :
    isSizeChar c = true := by
  have hdigits : ∀ c ∈ Nat.toDigits 10 n.natAbs, isSizeChar c = true := fun c hc ↦
    isSizeChar_of_isDigit (List.all_eq_true.mp (Decimal.all_isDigit_toDigits _) c hc)
  rw [toList_toString] at hc
  split_ifs at hc
  · rcases List.mem_cons.mp hc with rfl | hc
    · decide
    · exact hdigits c hc
  · exact hdigits c hc

theorem parse_toString (n : ℤ) :
    Decimal.parse binary64 (toString n).toList =
      some (.round binary64 (decide (n < 0)) n.natAbs) := by
  rw [toList_toString]
  split_ifs with hn
  · rw [Decimal.parse_neg_toDigits, decide_eq_true hn]
  · rw [Decimal.parse_toDigits, decide_eq_false hn]

/-- The decimal string of an integer is rounded, whatever its sign. -/
theorem fromStr_toString (n : ℤ) :
    fromStr (toString n) = .ok (scale (.round binary64 (decide (n < 0)) n.natAbs) b) := by
  have hne : (toString n).toList ≠ [] := by
    rw [toList_toString]
    split_ifs
    · exact List.cons_ne_nil _ _
    · exact Nat.toDigits_ne_nil
  rw [fromStr_of_isSizeChar hne fun c hc ↦ isSizeChar_of_mem_toString hc, parse_toString]

theorem scale_neg (q : ℚ) (unit : UInt64) : scale (.round binary64 true q) unit = ⟨0⟩ := by
  rw [scale, Number.ofNat, Number.truncate_mul_neg]
  rfl

/-! ## The two forms of one integer -/

/-- Both are errors, or both are the same size. -/
def Agree {ε α : Type} : Except ε α → Except ε α → Prop
  | .ok left, .ok right => left = right
  | .error _, .error _ => True
  | _, _ => False

instance {ε α : Type} [DecidableEq α] : (left right : Except ε α) → Decidable (Agree left right)
  | .ok left, .ok right => inferInstanceAs (Decidable (left = right))
  | .error _, .error _ => isTrue trivial
  | .ok _, .error _ => isFalse id
  | .error _, .ok _ => isFalse id

/-- The scalars as which a deserializer may report an integer. -/
inductive Reports (n : Int64) : Scalar → Prop
  | signed : Reports n (.i64 n)
  | unsigned (value : UInt64) (h : n.toInt = value.toNat) : Reports n (.u64 value)

/-- The integers that the string form carries: nonnegative, with at most 53 significant bits. -/
def HasExactString (n : Int64) : Prop :=
  0 ≤ n ∧ 2 ^ (Nat.log 2 n.toNatClampNeg - 52) ∣ n.toNatClampNeg

instance (n : Int64) : Decidable (HasExactString n) := inferInstanceAs (Decidable (_ ∧ _))

theorem deserialize_of_reports {n : Int64} {scalar : Scalar} (h : Reports n scalar) :
    deserialize scalar = visitI64 n := by
  cases h with
  | signed => rfl
  | unsigned value h => exact (deserialize_of_same (.signed value n h)).symm

/-- The string of a negative integer is accepted as zero. -/
theorem visitStr_of_neg {n : Int64} (hn : n.toInt < 0) : visitStr (toString n.toInt) = .ok ⟨0⟩ := by
  rw [visitStr, fromStr_toString, decide_eq_true hn, scale_neg]
  rfl

/-- The string of a nonnegative integer is read back exactly when it has few enough bits. -/
theorem visitStr_eq_iff {n : Int64} (hn : 0 ≤ n) :
    visitStr (toString n.toInt) = .ok ⟨n.toUInt64⟩ ↔ HasExactString n := by
  have hsign : ¬ n.toInt < 0 := by
    rw [← Int64.cast_toNatClampNeg n hn]
    omega
  have habs : n.toInt.natAbs = n.toNatClampNeg := by
    rw [← Int64.cast_toNatClampNeg n hn, Int.natAbs_natCast]
  have hlt : n.toNatClampNeg < 2 ^ 63 := n.toNatClampNeg_lt
  have hlog : Nat.log 2 n.toNatClampNeg ≤ 1023 := by
    have hmono := Nat.log_mono_right (b := 2) hlt.le
    rw [Nat.log_pow one_lt_two] at hmono
    omega
  have hbytes : n.toNatClampNeg * 2 ^ 0 = n.toUInt64.toNat := by
    rw [pow_zero, mul_one, Int64.toNat_toUInt64_of_le hn]
  rw [visitStr, fromStr_toString, decide_eq_false hsign, habs]
  calc
    _ ↔ scale (.round binary64 false n.toNatClampNeg) b = ⟨n.toUInt64⟩ := by
      simp [Except.mapError]
    _ ↔ Representable binary64 n.toNatClampNeg :=
      scale_eq_iff_representable (by omega) rfl hbytes (by omega)
    _ ↔ HasExactString n := by
      rw [representable_natCast_iff_dvd hlog, HasExactString, and_iff_right hn]

/-- The integer form and the string form of a size agree exactly on the nonnegative integers of at
most 53 significant bits. -/
theorem int_agrees_with_string_iff (n : Int64) {scalar : Scalar} (hscalar : Reports n scalar) :
    Agree (deserialize scalar) (deserialize (.str (toString n.toInt))) ↔ HasExactString n := by
  rw [deserialize_of_reports hscalar, deserialize]
  by_cases hn : 0 ≤ n
  · have hstr : ∃ size, visitStr (toString n.toInt) = .ok size := by
      rw [visitStr, fromStr_toString]
      exact ⟨_, rfl⟩
    obtain ⟨size, hsize⟩ := hstr
    rw [← visitStr_eq_iff hn, visitI64, if_pos hn, visitU64, hsize, Except.ok.injEq]
    exact eq_comm
  · have hneg : n.toInt < 0 := by
      rw [Int64.le_iff_toInt_le] at hn
      exact not_le.mp hn
    rw [visitI64, if_neg hn, visitStr_of_neg hneg]
    exact iff_of_false id fun h ↦ hn h.1

/-- 4096 means the same in both forms, as a signed and as an unsigned integer. -/
theorem int_agrees_with_string_4096 :
    Agree (deserialize (.i64 4096)) (deserialize (.str "4096")) ∧
      Agree (deserialize (.u64 4096)) (deserialize (.str "4096")) :=
  ⟨(int_agrees_with_string_iff 4096 .signed).mpr (by decide +kernel),
    (int_agrees_with_string_iff 4096 (.unsigned 4096 rfl)).mpr (by decide +kernel)⟩

/-- A negative size is rejected as an integer and accepted as zero as a string, and the last digit
of a long size is lost in its string. -/
theorem int_disagrees_with_string :
    deserialize (.i64 (-1)) = .error (.invalidValue (.i64 (-1)) "valid size") ∧
      deserialize (.str "-1") = .ok ⟨0⟩ ∧
      deserialize (.i64 9007199254740993) = .ok ⟨9007199254740993⟩ ∧
      deserialize (.str "9007199254740993") = .ok ⟨9007199254740992⟩ ∧
      ¬ ∀ n : Int64, Agree (deserialize (.i64 n)) (deserialize (.str (toString n.toInt))) := by
  refine ⟨by decide +kernel, by decide +kernel, by decide +kernel, by decide +kernel, fun h ↦ ?_⟩
  exact absurd (h (-1)) (by decide +kernel)

end Filestore.Common.ReadableSize
