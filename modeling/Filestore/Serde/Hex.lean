import Mathlib.Data.List.Basic
import Mathlib.Tactic.IntervalCases
import Mathlib.Tactic.Ring

/-!
# Hexadecimal digits

Fixed-width lowercase hexadecimal and its reader, which accepts both cases.
-/

namespace Filestore.Serde

/-- The value of a hexadecimal digit. -/
def hexValue (c : Char) : Option ℕ :=
  if '0' ≤ c ∧ c ≤ '9' then some (c.toNat - '0'.toNat)
  else if 'a' ≤ c ∧ c ≤ 'f' then some (c.toNat - 'a'.toNat + 10)
  else if 'A' ≤ c ∧ c ≤ 'F' then some (c.toNat - 'A'.toNat + 10)
  else none

/-- The last `width` lowercase hexadecimal digits of a number, most significant first. -/
def hexOf : ℕ → ℕ → List Char
  | 0, _ => []
  | width + 1, n => hexOf width (n / 16) ++ [Nat.digitChar (n % 16)]

/-- The number of a string of hexadecimal digits. -/
def readHex (digits : List Char) : Option ℕ :=
  digits.foldlM (fun value c ↦ (hexValue c).map fun digit ↦ 16 * value + digit) 0

theorem hexValue_digitChar {digit : ℕ} (hdigit : digit < 16) :
    hexValue (Nat.digitChar digit) = some digit := by
  interval_cases digit <;> rfl

theorem digitChar_ne_hyphen {digit : ℕ} (hdigit : digit < 16) : Nat.digitChar digit ≠ '-' := by
  interval_cases digit <;> decide

@[simp]
theorem length_hexOf (width n : ℕ) : (hexOf width n).length = width := by
  induction width generalizing n with
  | zero => rfl
  | succ width ih => simp [hexOf, ih]

theorem hyphen_notMem_hexOf (width n : ℕ) : '-' ∉ hexOf width n := by
  induction width generalizing n with
  | zero => simp [hexOf]
  | succ width ih =>
    have hlast := digitChar_ne_hyphen (Nat.mod_lt n (by norm_num : 16 > 0))
    simp [hexOf, ih, hlast.symm]

theorem readHex_hexOf (width n : ℕ) : readHex (hexOf width n) = some (n % 16 ^ width) := by
  induction width generalizing n with
  | zero => simp [hexOf, readHex, Nat.mod_one]
  | succ width ih =>
    have hdigit := hexValue_digitChar (Nat.mod_lt n (by norm_num : 16 > 0))
    unfold readHex at ih ⊢
    simp only [hexOf, List.foldlM_append, ih, List.foldlM_cons, hdigit, Option.map_some,
      List.foldlM_nil, Option.bind_eq_bind, Option.bind_some, Option.pure_def, Option.some.injEq]
    rw [pow_succ', Nat.mod_mul, add_comm]

end Filestore.Serde
