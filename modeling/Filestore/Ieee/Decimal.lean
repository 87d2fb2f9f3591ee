import Filestore.Ieee.Number
import Mathlib.Data.List.TakeWhile

/-!
# Decimal notation of floating-point numbers

The grammar is: an optional sign, then one of the words `inf`, `infinity` and `nan` in any case, or
digits with an optional point and an optional exponent, where at least one digit stands before or
after the point.  The exact decimal value is rounded once.
-/

namespace Filestore.Ieee.Decimal

/-- An optional leading sign; `true` is a minus. -/
def parseSign : List Char → Bool × List Char
  | '-' :: rest => (true, rest)
  | '+' :: rest => (false, rest)
  | rest => (false, rest)

/-- A nonempty string of decimal digits, and nothing else. -/
def parseDigits (text : List Char) : Option ℕ :=
  if text ≠ [] ∧ text.all Char.isDigit then some (Nat.ofDigitChars 10 text 0) else none

/-- The rest of a number after its digits: nothing, or an exponent. -/
def parseExponent : List Char → Option ℤ
  | [] => some 0
  | mark :: rest =>
    if mark = 'e' ∨ mark = 'E' then
      (parseDigits (parseSign rest).2).map fun digits ↦
        if (parseSign rest).1 then -(digits : ℤ) else digits
    else none

/-- The digits after the point, if there is one, and what follows them. -/
def parseFraction : List Char → List Char × List Char
  | '.' :: rest => (rest.takeWhile Char.isDigit, rest.dropWhile Char.isDigit)
  | rest => ([], rest)

/-- The exact value of an unsigned decimal number. -/
def parseNumber (text : List Char) : Option ℚ :=
  let whole := text.takeWhile Char.isDigit
  let (fraction, rest) := parseFraction (text.dropWhile Char.isDigit)
  if whole = [] ∧ fraction = [] then none
  else (parseExponent rest).map fun exponent : ℤ ↦
    (Nat.ofDigitChars 10 (whole ++ fraction) 0 : ℚ) * 10 ^ (exponent - fraction.length)

/-- Parse a signed number and round it to the format. -/
def parse (F : Format) (text : List Char) : Option (Number F) :=
  let (negative, rest) := parseSign text
  let word := rest.map Char.toLower
  if word = ['i', 'n', 'f'] ∨ word = ['i', 'n', 'f', 'i', 'n', 'i', 't', 'y'] then
    some (.infinity negative)
  else if word = ['n', 'a', 'n'] then some .nan
  else (parseNumber rest).map (Number.round F negative)

/-! ## Integers in decimal notation -/

theorem all_isDigit_toDigits (n : ℕ) : (Nat.toDigits 10 n).all Char.isDigit = true := by
  rw [List.all_eq_true]
  exact fun digit hdigit ↦ Nat.isDigit_of_mem_toDigits (by decide) (by decide) hdigit

theorem takeWhile_isDigit_toDigits (n : ℕ) :
    (Nat.toDigits 10 n).takeWhile Char.isDigit = Nat.toDigits 10 n :=
  List.takeWhile_eq_self_iff.mpr (List.all_eq_true.mp (all_isDigit_toDigits n))

theorem dropWhile_isDigit_toDigits (n : ℕ) : (Nat.toDigits 10 n).dropWhile Char.isDigit = [] :=
  List.dropWhile_eq_nil_iff.mpr (List.all_eq_true.mp (all_isDigit_toDigits n))

/-- The first character of a printed natural number is a digit. -/
theorem exists_toDigits_eq_cons (n : ℕ) :
    ∃ digit rest, Nat.toDigits 10 n = digit :: rest ∧ digit.isDigit = true := by
  obtain ⟨digit, rest, hdigits⟩ :=
    List.exists_cons_of_ne_nil (Nat.toDigits_ne_nil (n := n) (b := 10))
  have hmem : digit ∈ Nat.toDigits 10 n := by simp [hdigits]
  exact ⟨digit, rest, hdigits, List.all_eq_true.mp (all_isDigit_toDigits n) digit hmem⟩

theorem parseNumber_toDigits (n : ℕ) : parseNumber (Nat.toDigits 10 n) = some (n : ℚ) := by
  simp [parseNumber, takeWhile_isDigit_toDigits, dropWhile_isDigit_toDigits, parseFraction,
    parseExponent, Nat.toDigits_ne_nil, Nat.ofDigitChars_ten_toDigits]

/-- A digit is no sign. -/
theorem parseSign_of_isDigit {digit : Char} (rest : List Char) (hdigit : digit.isDigit = true) :
    parseSign (digit :: rest) = (false, digit :: rest) := by
  unfold parseSign
  split
  · rename_i heq
    obtain ⟨rfl, -⟩ := List.cons.inj heq
    simp at hdigit
  · rename_i heq
    obtain ⟨rfl, -⟩ := List.cons.inj heq
    simp at hdigit
  · rfl

/-- No digit starts one of the words for infinity and NaN. -/
theorem map_toLower_ne_word {digit letter : Char} (rest word : List Char)
    (hdigit : digit.isDigit = true) (hletter : letter = 'i' ∨ letter = 'n') :
    (digit :: rest).map Char.toLower ≠ letter :: word := by
  intro heq
  have hlower : digit.toLower = letter := (List.cons.inj heq).1
  have hsame : digit.toLower = digit := by
    simp only [Char.isDigit, Bool.and_eq_true, decide_eq_true_eq] at hdigit
    have hupper : ¬ ('A'.val ≤ digit.val ∧ digit.val ≤ 'Z'.val) := fun hupper ↦
      absurd (UInt32.le_trans hupper.1 hdigit.2) (by decide)
    exact dif_neg hupper
  rw [hsame] at hlower
  subst hlower
  rcases hletter with rfl | rfl <;> simp at hdigit

/-- Reading the decimal digits of a natural number after a sign rounds the number once. -/
theorem parse_of_parseSign (F : Format) {text : List Char} {negative : Bool} {n : ℕ}
    (hsign : parseSign text = (negative, Nat.toDigits 10 n)) :
    parse F text = some (Number.round F negative n) := by
  obtain ⟨digit, rest, hdigits, hdigit⟩ := exists_toDigits_eq_cons n
  have hnumber := parseNumber_toDigits n
  rw [hdigits] at hnumber hsign
  have hinf := map_toLower_ne_word rest ['n', 'f'] hdigit (.inl rfl)
  have hinfinity := map_toLower_ne_word rest ['n', 'f', 'i', 'n', 'i', 't', 'y'] hdigit (.inl rfl)
  have hnan := map_toLower_ne_word rest ['a', 'n'] hdigit (.inr rfl)
  simp only [parse, hsign, hnumber, Option.map_some]
  rw [if_neg (not_or.mpr ⟨hinf, hinfinity⟩), if_neg hnan]

theorem parse_toDigits (F : Format) (n : ℕ) :
    parse F (Nat.toDigits 10 n) = some (Number.round F false n) := by
  obtain ⟨digit, rest, hdigits, hdigit⟩ := exists_toDigits_eq_cons n
  apply parse_of_parseSign
  rw [hdigits]
  exact parseSign_of_isDigit rest hdigit

theorem parse_neg_toDigits (F : Format) (n : ℕ) :
    parse F ('-' :: Nat.toDigits 10 n) = some (Number.round F true n) :=
  parse_of_parseSign F rfl

end Filestore.Ieee.Decimal
