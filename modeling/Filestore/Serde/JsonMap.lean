import Filestore.Serde.Hex
import Mathlib.Data.List.AList

/-!
# JSON objects of strings

A string map as one JSON object: the compact printer, and a reader of the whole grammar of such
objects with white space, escapes and surrogate pairs.  A repeated key keeps its last value, and a
value that is not a string is an error.  Reading what was printed gives the same map.
-/

namespace Filestore.Serde.JsonMap

/-- A finite map from strings to strings. -/
abbrev StringMap := AList fun _ : String ↦ String

/-! ## Printing -/

/-- The characters that stand for one character of a string. -/
def escape (c : Char) : List Char :=
  if c = '"' ∨ c = '\\' then ['\\', c]
  else if c = '\n' then ['\\', 'n']
  else if c = '\r' then ['\\', 'r']
  else if c = '\t' then ['\\', 't']
  else if c.toNat = 8 then ['\\', 'b']
  else if c.toNat = 12 then ['\\', 'f']
  else if c.toNat < 32 then '\\' :: 'u' :: hexOf 4 c.toNat
  else [c]

def printString (s : String) : List Char := '"' :: s.toList.flatMap escape ++ ['"']

def printEntry (entry : (_ : String) × String) : List Char :=
  printString entry.1 ++ ':' :: printString entry.2

def printEntries : List ((_ : String) × String) → List Char
  | [] => []
  | [entry] => printEntry entry
  | entry :: entries => printEntry entry ++ ',' :: printEntries entries

def print (fields : StringMap) : String :=
  .ofList ('{' :: printEntries fields.entries ++ ['}'])

/-! ## Reading -/

def isSpace (c : Char) : Bool := c = ' ' || c = '\n' || c = '\r' || c = '\t'

/-- Four hexadecimal digits. -/
def readUnit (chars : List Char) : Option (ℕ × List Char) :=
  if 4 ≤ chars.length then (readHex (chars.take 4)).map fun unit ↦ (unit, chars.drop 4) else none

/-- The rest of a `\u` escape, with the second half of a surrogate pair. -/
def readUnicode (chars : List Char) : Option (Char × List Char) := do
  let (unit, rest) ← readUnit chars
  if unit < 0xD800 ∨ 0xDFFF < unit then
    some (.ofNat unit, rest)
  else
    match rest with
    | '\\' :: 'u' :: rest =>
      let (low, rest) ← readUnit rest
      if unit < 0xDC00 ∧ 0xDC00 ≤ low ∧ low ≤ 0xDFFF then
        some (.ofNat (0x10000 + (unit - 0xD800) * 0x400 + (low - 0xDC00)), rest)
      else none
    | _ => none

/-- The rest of an escape. -/
def readEscape : List Char → Option (Char × List Char)
  | 'u' :: rest => readUnicode rest
  | 'n' :: rest => some ('\n', rest)
  | 'r' :: rest => some ('\r', rest)
  | 't' :: rest => some ('\t', rest)
  | 'b' :: rest => some (.ofNat 8, rest)
  | 'f' :: rest => some (.ofNat 12, rest)
  | c :: rest => if c = '"' ∨ c = '\\' ∨ c = '/' then some (c, rest) else none
  | [] => none

/-- One character of a string. -/
def readChar : List Char → Option (Char × List Char)
  | [] => none
  | c :: rest =>
    if c = '\\' then readEscape rest else if c.toNat < 32 then none else some (c, rest)

/-- The rest of a string, up to its closing quote. -/
def readChars : ℕ → List Char → Option (List Char × List Char)
  | 0, _ => none
  | fuel + 1, chars =>
    if chars.head? = some '"' then some ([], chars.tail)
    else do
      let (c, rest) ← readChar chars
      let (cs, rest) ← readChars fuel rest
      some (c :: cs, rest)

/-- A string after optional white space. -/
def readString (fuel : ℕ) (chars : List Char) : Option (String × List Char) :=
  match chars.dropWhile isSpace with
  | '"' :: rest => (readChars fuel rest).map fun (cs, rest) ↦ (.ofList cs, rest)
  | _ => none

def readEntry (fuel : ℕ) (chars : List Char) : Option (((_ : String) × String) × List Char) := do
  let (key, rest) ← readString fuel chars
  match rest.dropWhile isSpace with
  | ':' :: rest =>
    let (value, rest) ← readString fuel rest
    some (⟨key, value⟩, rest.dropWhile isSpace)
  | _ => none

/-- The entries of an object that is not empty, up to its closing brace. -/
def readEntries : ℕ → List Char → Option (List ((_ : String) × String) × List Char)
  | 0, _ => none
  | fuel + 1, chars => do
    let (entry, rest) ← readEntry fuel chars
    match rest with
    | ',' :: rest =>
      let (entries, rest) ← readEntries fuel rest
      some (entry :: entries, rest)
    | '}' :: rest => some ([entry], rest)
    | _ => none

/-- The entries of an object, in the order of the text. -/
def readObject (fuel : ℕ) (chars : List Char) :
    Option (List ((_ : String) × String) × List Char) :=
  match chars.dropWhile isSpace with
  | '{' :: rest =>
    match rest.dropWhile isSpace with
    | '}' :: rest => some ([], rest)
    | rest => readEntries fuel rest
  | _ => none

/-- The map of a text; the last of several entries with one key wins. -/
def read (json : String) : Option StringMap := do
  let (entries, rest) ← readObject (json.toList.length + 1) json.toList
  if rest.all isSpace then some entries.reverse.toAList else none

/-! ## Round trip -/

theorem readUnit_hexOf {n : ℕ} (hn : n < 16 ^ 4) (rest : List Char) :
    readUnit (hexOf 4 n ++ rest) = some (n, rest) := by
  have htake : (hexOf 4 n ++ rest).take 4 = hexOf 4 n := List.take_left' (length_hexOf 4 n)
  have hdrop : (hexOf 4 n ++ rest).drop 4 = rest := List.drop_left' (length_hexOf 4 n)
  rw [readUnit, if_pos (by simp), htake, hdrop, readHex_hexOf, Nat.mod_eq_of_lt hn]
  rfl

/-- An escaped character is read back, whatever follows it. -/
theorem readChar_escape (c : Char) (rest : List Char) :
    readChar (escape c ++ rest) = some (c, rest) := by
  unfold escape
  split_ifs with hself hnewline hreturn htab hback hfeed hcontrol
  · rcases hself with rfl | rfl <;> rfl
  · rw [hnewline]; rfl
  · rw [hreturn]; rfl
  · rw [htab]; rfl
  · rw [← Char.ofNat_toNat c, hback]; rfl
  · rw [← Char.ofNat_toNat c, hfeed]; rfl
  · have hunit := readUnit_hexOf (n := c.toNat) (by omega) rest
    simp [readChar, readEscape, readUnicode, hunit, show c.toNat < 0xD800 by omega]
  · have hbackslash : c ≠ '\\' := fun h ↦ hself (.inr h)
    simp [readChar, hbackslash, hcontrol]

/-- No escaped character starts with the quote that closes a string. -/
theorem head?_escape_append (c : Char) (rest : List Char) :
    (escape c ++ rest).head? ≠ some '"' := by
  unfold escape
  split_ifs with hself <;> simp
  exact fun h ↦ hself (.inl h)

theorem readChars_escape (cs rest : List Char) (fuel : ℕ) (hfuel : cs.length < fuel) :
    readChars fuel (cs.flatMap escape ++ '"' :: rest) = some (cs, rest) := by
  induction cs generalizing fuel with
  | nil =>
    obtain ⟨fuel, rfl⟩ := Nat.exists_eq_add_of_lt hfuel
    simp [readChars]
  | cons c cs ih =>
    obtain ⟨fuel, rfl⟩ : ∃ k, fuel = k + 1 := ⟨fuel - 1, by omega⟩
    have hrest := ih fuel (by simpa using hfuel)
    rw [List.flatMap_cons, List.append_assoc, readChars, if_neg (head?_escape_append c _),
      readChar_escape]
    simp [hrest]

theorem readString_printString (s : String) (rest : List Char) (fuel : ℕ)
    (hfuel : s.toList.length < fuel) :
    readString fuel (printString s ++ rest) = some (s, rest) := by
  have hchars := readChars_escape s.toList rest fuel hfuel
  simp [readString, printString, isSpace, hchars]

theorem length_le_length_printString (s : String) :
    s.toList.length < (printString s).length := by
  have hescape (c : Char) : 1 ≤ (escape c).length := by
    unfold escape
    split_ifs <;> simp
  have hflat (cs : List Char) : cs.length ≤ (cs.flatMap escape).length := by
    induction cs with
    | nil => exact le_rfl
    | cons c cs ih =>
      have := hescape c
      simp only [List.length_cons, List.flatMap_cons, List.length_append]
      omega
  have := hflat s.toList
  simp only [printString, List.length_append, List.length_cons]
  omega

/-- An entry is read back when the text goes on with anything but white space. -/
theorem readEntry_printEntry (entry : (_ : String) × String) {c : Char} (hc : isSpace c = false)
    (rest : List Char) (fuel : ℕ) (hfuel : (printEntry entry).length < fuel) :
    readEntry fuel (printEntry entry ++ c :: rest) = some (entry, c :: rest) := by
  obtain ⟨key, value⟩ := entry
  have hkeyLength := length_le_length_printString key
  have hvalueLength := length_le_length_printString value
  simp only [printEntry, List.length_append, List.length_cons] at hfuel
  have hkey := readString_printString key (':' :: (printString value ++ c :: rest)) fuel (by omega)
  have hvalue := readString_printString value (c :: rest) fuel (by omega)
  have hnext : (c :: rest).dropWhile isSpace = c :: rest := by simp [hc]
  simp [readEntry, printEntry, hkey, hvalue, hnext, show isSpace ':' = false from rfl]

theorem readEntries_printEntries (entry : (_ : String) × String)
    (entries : List ((_ : String) × String)) (rest : List Char) (fuel : ℕ)
    (hfuel : (printEntries (entry :: entries)).length + 1 < fuel) :
    readEntries fuel (printEntries (entry :: entries) ++ '}' :: rest) =
      some (entry :: entries, rest) := by
  induction entries generalizing entry fuel with
  | nil =>
    obtain ⟨fuel, rfl⟩ : ∃ k, fuel = k + 1 := ⟨fuel - 1, by omega⟩
    rw [printEntries] at hfuel ⊢
    have hentry := readEntry_printEntry entry (c := '}') rfl rest fuel (by omega)
    simp [readEntries, hentry]
  | cons next entries ih =>
    obtain ⟨fuel, rfl⟩ : ∃ k, fuel = k + 1 := ⟨fuel - 1, by omega⟩
    simp only [printEntries, List.length_append, List.length_cons] at hfuel
    have hentry := readEntry_printEntry entry (c := ',') rfl
      (printEntries (next :: entries) ++ '}' :: rest) fuel (by omega)
    have hrest := ih next fuel (by omega)
    simp [readEntries, printEntries, hentry, hrest]

theorem readObject_print (entries : List ((_ : String) × String)) (fuel : ℕ)
    (hfuel : (printEntries entries).length + 1 < fuel) :
    readObject fuel ('{' :: printEntries entries ++ ['}']) = some (entries, []) := by
  cases entries with
  | nil => simp [readObject, printEntries, isSpace]
  | cons entry entries =>
    have hentries := readEntries_printEntries entry entries [] fuel hfuel
    -- The first key starts with a quote, so this is not the empty object.
    obtain ⟨chars, hquote⟩ : ∃ chars,
        printEntries (entry :: entries) ++ ['}'] = '"' :: chars := by
      cases entries <;> simp [printEntries, printEntry, printString]
    rw [List.cons_append]
    rw [hquote] at hentries ⊢
    simpa [readObject, isSpace] using hentries

/-- What is printed for a map reads as a map with the same values. -/
theorem read_print (fields : StringMap) :
    ∃ same, read (print fields) = some same ∧ ∀ key, same.lookup key = fields.lookup key := by
  have hobject := readObject_print fields.entries
    (('{' :: printEntries fields.entries ++ ['}']).length + 1) (by simp)
  refine ⟨fields.entries.reverse.toAList, ?_, fun key ↦ ?_⟩
  · simp only [read, print, String.toList_ofList, hobject]
    rfl
  · rw [AList.lookup_to_alist, AList.lookup]
    exact (List.perm_dlookup key fields.nodupKeys fields.entries.reverse_perm.symm).symm

end Filestore.Serde.JsonMap
