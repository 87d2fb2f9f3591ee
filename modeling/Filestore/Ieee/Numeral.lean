import Filestore.Ieee.Decimal

/-!
# The grammar of decimal notation

A numeral is the syntax of an unsigned decimal number, with its well-formedness as fields.  The
parser accepts exactly the texts of numerals, and what it returns is the exact value of the numeral.
-/

namespace Filestore.Ieee

/-! ## Syntax -/

/-- An optional sign. -/
inductive Sign where
  | none
  | plus
  | minus
  deriving DecidableEq

namespace Sign

def text : Sign → List Char
  | .none => []
  | .plus => ['+']
  | .minus => ['-']

def isNegative (sign : Sign) : Bool := sign = .minus

end Sign

/-- A nonempty string of decimal digits. -/
structure Digits where
  text : List Char
  ne_nil : text ≠ []
  isDigit : ∀ c ∈ text, c.isDigit = true

def Digits.value (digits : Digits) : ℕ := Nat.ofDigitChars 10 digits.text 0

/-- A decimal exponent. -/
structure Exponent where
  mark : Char
  sign : Sign
  digits : Digits
  mark_eq : mark = 'e' ∨ mark = 'E'

namespace Exponent

def text (exponent : Exponent) : List Char :=
  exponent.mark :: (exponent.sign.text ++ exponent.digits.text)

def value (exponent : Exponent) : ℤ :=
  if exponent.sign.isNegative then -(exponent.digits.value : ℤ) else exponent.digits.value

end Exponent

/-- Digits with an optional point and an optional exponent; at least one digit stands before or
after the point. -/
structure Numeral where
  whole : List Char
  fraction : Option (List Char)
  exponent : Option Exponent
  whole_isDigit : ∀ c ∈ whole, c.isDigit = true
  fraction_isDigit : ∀ c ∈ fraction.getD [], c.isDigit = true
  ne_nil : ¬ (whole = [] ∧ fraction.getD [] = [])

namespace Numeral

def fractionText (numeral : Numeral) : List Char := numeral.fraction.elim [] ('.' :: ·)

def exponentText (numeral : Numeral) : List Char := numeral.exponent.elim [] Exponent.text

def text (numeral : Numeral) : List Char :=
  numeral.whole ++ (numeral.fractionText ++ numeral.exponentText)

/-- The exact value, before any rounding. -/
def value (numeral : Numeral) : ℚ :=
  (Nat.ofDigitChars 10 (numeral.whole ++ numeral.fraction.getD []) 0 : ℚ) *
    10 ^ (numeral.exponent.elim 0 Exponent.value - (numeral.fraction.getD []).length)

theorem value_nonneg (numeral : Numeral) : 0 ≤ numeral.value := by
  unfold value
  positivity

end Numeral

/-! ## The parser accepts exactly the numerals -/

namespace Decimal

theorem takeWhile_append_stop {p : Char → Bool} {text rest : List Char}
    (htext : ∀ c ∈ text, p c = true) (hrest : ∀ c ∈ rest.head?, p c = false) :
    (text ++ rest).takeWhile p = text ∧ (text ++ rest).dropWhile p = rest := by
  rw [List.takeWhile_append_of_pos htext, List.dropWhile_append_of_pos htext]
  cases rest with
  | nil => simp
  | cons c rest =>
    have hc : p c = false := hrest c rfl
    simp [hc]

theorem ne_sign_of_isDigit {c : Char} (hc : c.isDigit = true) : c ≠ '+' ∧ c ≠ '-' := by
  constructor <;> rintro rfl <;> simp at hc

/-- A sign is parsed off a text that does not start with one. -/
theorem parseSign_append (sign : Sign) {text : List Char}
    (htext : ∀ c ∈ text.head?, c ≠ '+' ∧ c ≠ '-') :
    parseSign (sign.text ++ text) = (sign.isNegative, text) := by
  cases sign with
  | plus => rfl
  | minus => rfl
  | none =>
    change parseSign text = (false, text)
    unfold parseSign
    split
    · exact absurd rfl (htext '-' rfl).2
    · exact absurd rfl (htext '+' rfl).1
    · rfl

/-- Whatever follows, a sign that was parsed was written. -/
theorem exists_sign (text : List Char) :
    ∃ sign : Sign, text = sign.text ++ (parseSign text).2 ∧
      sign.isNegative = (parseSign text).1 := by
  unfold parseSign
  split
  · exact ⟨.minus, rfl, rfl⟩
  · exact ⟨.plus, rfl, rfl⟩
  · exact ⟨.none, rfl, rfl⟩

theorem parseDigits_eq_some_iff {text : List Char} {n : ℕ} :
    parseDigits text = some n ↔ ∃ digits : Digits, digits.text = text ∧ digits.value = n := by
  unfold parseDigits
  split_ifs with h
  · obtain ⟨hne, hall⟩ := h
    rw [Option.some.injEq]
    constructor
    · exact fun hn ↦ ⟨⟨text, hne, List.all_eq_true.mp hall⟩, rfl, hn⟩
    · rintro ⟨digits, rfl, hn⟩
      exact hn
  · constructor
    · intro hn
      cases hn
    · rintro ⟨digits, rfl, -⟩
      exact absurd ⟨digits.ne_nil, List.all_eq_true.mpr digits.isDigit⟩ h

theorem parseExponent_cons (mark : Char) (rest : List Char) :
    parseExponent (mark :: rest) =
      if mark = 'e' ∨ mark = 'E' then
        (parseDigits (parseSign rest).2).map fun n : ℕ ↦
          if (parseSign rest).1 then -(n : ℤ) else n
      else none := by
  rw [parseExponent]
  cases parseDigits (parseSign rest).2 <;> rfl

theorem parseExponent_text (exponent : Exponent) :
    parseExponent exponent.text = some exponent.value := by
  have hsign : parseSign (exponent.sign.text ++ exponent.digits.text) =
      (exponent.sign.isNegative, exponent.digits.text) := by
    apply parseSign_append
    intro c hc
    exact ne_sign_of_isDigit (exponent.digits.isDigit c (List.mem_of_mem_head? hc))
  have hparse : parseDigits exponent.digits.text = some exponent.digits.value :=
    parseDigits_eq_some_iff.mpr ⟨exponent.digits, rfl, rfl⟩
  rw [Exponent.text, parseExponent_cons, if_pos exponent.mark_eq, hsign, hparse]
  rfl

theorem parseExponent_eq_some_iff {text : List Char} {n : ℤ} :
    parseExponent text = some n ↔
      ∃ exponent : Option Exponent, exponent.elim [] Exponent.text = text ∧
        exponent.elim 0 Exponent.value = n := by
  constructor
  · intro h
    cases text with
    | nil => exact ⟨none, rfl, Option.some.inj h⟩
    | cons mark rest =>
      rw [parseExponent_cons] at h
      by_cases hmark : mark = 'e' ∨ mark = 'E'
      · rw [if_pos hmark] at h
        obtain ⟨digits, hdigits, rfl⟩ := Option.map_eq_some_iff.mp h
        obtain ⟨parsed, htext, rfl⟩ := parseDigits_eq_some_iff.mp hdigits
        obtain ⟨sign, hsign, hnegative⟩ := exists_sign rest
        refine ⟨some ⟨mark, sign, parsed, hmark⟩, ?_, ?_⟩
        · rw [Option.elim_some, Exponent.text, htext, ← hsign]
        · rw [Option.elim_some, Exponent.value, hnegative]
      · rw [if_neg hmark] at h
        cases h
  · rintro ⟨exponent, rfl, rfl⟩
    cases exponent with
    | none => rfl
    | some exponent => exact parseExponent_text exponent

theorem head?_exponentText (numeral : Numeral) :
    ∀ c ∈ numeral.exponentText.head?, c.isDigit = false ∧ c ≠ '.' := by
  intro c hc
  unfold Numeral.exponentText at hc
  cases hexponent : numeral.exponent with
  | none => simp [hexponent] at hc
  | some exponent =>
    rw [hexponent, Option.elim_some, Exponent.text, List.head?_cons, Option.mem_some_iff] at hc
    subst hc
    rcases exponent.mark_eq with hmark | hmark <;> rw [hmark] <;> decide

theorem parseFraction_text (numeral : Numeral) :
    parseFraction (numeral.fractionText ++ numeral.exponentText) =
      (numeral.fraction.getD [], numeral.exponentText) := by
  have hdigits := numeral.fraction_isDigit
  unfold Numeral.fractionText
  cases hfraction : numeral.fraction with
  | none =>
    rw [Option.elim_none, List.nil_append, Option.getD_none, parseFraction]
    intro rest hrest
    exact (head?_exponentText numeral '.' (by rw [hrest]; rfl)).2 rfl
  | some fraction =>
    rw [hfraction, Option.getD_some] at hdigits
    obtain ⟨htake, hdrop⟩ := takeWhile_append_stop hdigits
      fun c hc ↦ (head?_exponentText numeral c hc).1
    rw [Option.elim_some, List.cons_append, parseFraction, htake, hdrop, Option.getD_some]

/-- The text of a numeral is parsed as the value of the numeral. -/
theorem parseNumber_text (numeral : Numeral) :
    parseNumber numeral.text = some numeral.value := by
  have hhead : ∀ c ∈ (numeral.fractionText ++ numeral.exponentText).head?, c.isDigit = false := by
    intro c hc
    unfold Numeral.fractionText at hc
    cases hfraction : numeral.fraction with
    | none =>
      rw [hfraction, Option.elim_none, List.nil_append] at hc
      exact (head?_exponentText numeral c hc).1
    | some fraction =>
      rw [hfraction, Option.elim_some, List.cons_append, List.head?_cons,
        Option.mem_some_iff] at hc
      rw [← hc]
      decide
  have hexponent : parseExponent numeral.exponentText =
      some (numeral.exponent.elim 0 Exponent.value) :=
    parseExponent_eq_some_iff.mpr ⟨numeral.exponent, rfl, rfl⟩
  obtain ⟨htake, hdrop⟩ := takeWhile_append_stop numeral.whole_isDigit hhead
  rw [parseNumber, Numeral.text, htake, hdrop, parseFraction_text]
  dsimp only
  rw [if_neg numeral.ne_nil, hexponent]
  rfl

theorem exists_fraction (text : List Char) :
    ∃ fraction : Option (List Char),
      fraction.elim [] ('.' :: ·) ++ (parseFraction text).2 = text ∧
        fraction.getD [] = (parseFraction text).1 ∧ ∀ c ∈ fraction.getD [], c.isDigit = true := by
  unfold parseFraction
  split
  · rename_i rest
    refine ⟨some (rest.takeWhile Char.isDigit), ?_, rfl, fun c hc ↦ List.mem_takeWhile_imp hc⟩
    rw [Option.elim_some, List.cons_append, List.takeWhile_append_dropWhile]
  · exact ⟨none, rfl, rfl, by simp⟩

/-- The parser accepts exactly the texts of numerals, with their exact values. -/
theorem parseNumber_eq_some_iff {text : List Char} {q : ℚ} :
    parseNumber text = some q ↔ ∃ numeral : Numeral, numeral.text = text ∧ numeral.value = q := by
  constructor
  · intro h
    unfold parseNumber at h
    dsimp only at h
    split_ifs at h with hne
    obtain ⟨n, hn, rfl⟩ := Option.map_eq_some_iff.mp h
    obtain ⟨exponent, hexponent, rfl⟩ := parseExponent_eq_some_iff.mp hn
    obtain ⟨fraction, hfraction, hdigits, hisDigit⟩ :=
      exists_fraction (text.dropWhile Char.isDigit)
    rw [← hdigits] at hne
    refine ⟨⟨text.takeWhile Char.isDigit, fraction, exponent, fun c hc ↦ List.mem_takeWhile_imp hc,
      hisDigit, hne⟩, ?_, ?_⟩
    · rw [Numeral.text, Numeral.fractionText, Numeral.exponentText, hexponent, hfraction,
        List.takeWhile_append_dropWhile]
    · rw [Numeral.value, hdigits]
  · rintro ⟨numeral, rfl, rfl⟩
    exact parseNumber_text numeral

/-- A numeral starts with a digit or with the point. -/
theorem head?_text (numeral : Numeral) :
    ∀ c ∈ numeral.text.head?, c.isDigit = true ∨ c = '.' := by
  intro c hc
  unfold Numeral.text at hc
  cases hwhole : numeral.whole with
  | cons digit rest =>
    rw [hwhole, List.cons_append, List.head?_cons, Option.mem_some_iff] at hc
    rw [← hc]
    exact .inl (numeral.whole_isDigit digit (by simp [hwhole]))
  | nil =>
    have hne := numeral.ne_nil
    unfold Numeral.fractionText at hc
    cases hfraction : numeral.fraction with
    | none => simp [hwhole, hfraction] at hne
    | some fraction =>
      rw [hwhole, hfraction, Option.elim_some, List.nil_append, List.cons_append, List.head?_cons,
        Option.mem_some_iff] at hc
      exact .inr hc.symm

/-- Without the letter of the words for infinity and NaN, the parser accepts exactly the signed
numerals, rounded once. -/
theorem parse_eq_some_iff (F : Format) {text : List Char} {x : Number F}
    (hletter : ∀ c ∈ text, c.toLower ≠ 'n') :
    parse F text = some x ↔
      ∃ (sign : Sign) (numeral : Numeral), sign.text ++ numeral.text = text ∧
        Number.round F sign.isNegative numeral.value = x := by
  have hparse : parse F text =
      (parseNumber (parseSign text).2).map (Number.round F (parseSign text).1) := by
    obtain ⟨sign, htext, -⟩ := exists_sign text
    have hmem : ∀ c ∈ (parseSign text).2.map Char.toLower, c ≠ 'n' := by
      intro c hc
      obtain ⟨letter, hin, rfl⟩ := List.mem_map.mp hc
      apply hletter
      rw [htext]
      exact List.mem_append_right _ hin
    unfold parse
    dsimp only
    rw [if_neg, if_neg]
    · exact fun hnan ↦ hmem 'n' (by rw [hnan]; decide) rfl
    · rintro (hinf | hinfinity)
      · exact hmem 'n' (by rw [hinf]; decide) rfl
      · exact hmem 'n' (by rw [hinfinity]; decide) rfl
  rw [hparse]
  constructor
  · intro h
    obtain ⟨q, hq, rfl⟩ := Option.map_eq_some_iff.mp h
    obtain ⟨numeral, hnumeral, rfl⟩ := parseNumber_eq_some_iff.mp hq
    obtain ⟨sign, htext, hnegative⟩ := exists_sign text
    exact ⟨sign, numeral, by rw [hnumeral, ← htext], by rw [hnegative]⟩
  · rintro ⟨sign, numeral, rfl, rfl⟩
    have hsign : parseSign (sign.text ++ numeral.text) = (sign.isNegative, numeral.text) := by
      apply parseSign_append
      intro c hc
      rcases head?_text numeral c hc with hdigit | rfl
      · exact ne_sign_of_isDigit hdigit
      · decide
    rw [hsign, parseNumber_text]
    rfl

end Decimal

end Filestore.Ieee
