import Filestore.Serde.Schema
import Mathlib.Data.Finmap

/-!
# Visitors of scalars and of collections

Each visitor accepts the values that a deserializer may report for its type and rejects all others.
Under each of them stands what it makes of a value that was written and read back.
-/

namespace Filestore.Serde.Visitor

open Ieee Value

variable {α : Type} {keeps : Number binary64 → Prop}

/-! ## Scalars -/

def string : Value → Except Value.Error String
  | .str value => .ok value
  | value => .error (.invalidType value "a string")

theorem string_of_same {value : String} {back : Value} (h : Same keeps (.str value) back) :
    string back = .ok value := by
  cases h
  rfl

def bool : Value → Except Value.Error Bool
  | .bool value => .ok value
  | value => .error (.invalidType value "a boolean")

theorem bool_of_same {value : Bool} {back : Value} (h : Same keeps (.bool value) back) :
    bool back = .ok value := by
  cases h
  rfl

/-- An unsigned integer of 64 bits. -/
def usize : Value → Except Value.Error UInt64
  | .u64 value => .ok value
  | .i64 value =>
    if 0 ≤ value then .ok value.toUInt64 else .error (.invalidValue (.i64 value) "usize")
  | value => .error (.invalidType value "usize")

theorem usize_of_same {value : UInt64} {back : Value} (h : Same keeps (.u64 value) back) :
    usize back = .ok value := by
  cases h with
  | refl => rfl
  | signed unsigned signed h =>
    have hnonneg : 0 ≤ signed := by
      rw [Int64.le_iff_toInt_le, h]
      exact Int.natCast_nonneg _
    have hcast : signed.toUInt64 = value := by
      rw [← UInt64.toNat_inj, Int64.toNat_toUInt64_of_le hnonneg, ← Int64.toNat_toInt, h]
      exact Int.toNat_natCast value.toNat
    rw [usize, if_pos hnonneg, hcast]

/-- A number that is neither infinite nor NaN. -/
def IsFinite (number : Number binary64) : Prop :=
  ∃ negative magnitude, number = .finite negative magnitude

/-- A floating-point number; integers are rounded. -/
def f64 : Value → Except Value.Error (Number binary64)
  | .f64 value => .ok value
  | .u64 value => .ok (.ofNat binary64 value.toNat)
  | .i64 value => .ok (.round binary64 (value.toInt < 0) value.toInt.natAbs)
  | value => .error (.invalidType value "f64")

/-- A number that the format keeps if it is finite is read back, unless it was lost. -/
theorem f64_of_same {number : Number binary64} {back : Value}
    (hkeeps : IsFinite number → keeps number) (h : Same keeps (.f64 number) back) :
    Yields (¬ IsFinite number) (f64 back) number := by
  cases h with
  | refl => exact .inl rfl
  | inexact negative magnitude _ h => exact absurd (hkeeps ⟨negative, magnitude, rfl⟩) h
  | lost number h =>
    exact .inr ⟨fun ⟨negative, magnitude, heq⟩ ↦ h negative magnitude heq, _, rfl⟩

/-! ## Options and enumerations -/

/-- `None` is null, and `Some` is its content. -/
def option (decode : Value → Except Value.Error α) : Value → Except Value.Error (Option α)
  | .null => .ok none
  | value => (decode value).map some

/-- What is written for an option. -/
def ofOption (encode : α → Value) : Option α → Value
  | none => .null
  | some value => encode value

theorem option_of_same {exception : Prop} {decode : Value → Except Value.Error α}
    {encode : α → Value} {value : Option α} {back : Value}
    (hdecode : ∀ content ∈ value, ∀ back, Same keeps (encode content) back →
      Yields exception (decode back) content)
    (hnull : ∀ content, ¬ Same keeps (encode content) .null)
    (h : Same keeps (ofOption encode value) back) :
    Yields exception (option decode back) value := by
  cases value with
  | none =>
    rw [ofOption] at h
    cases h
    exact .inl rfl
  | some content =>
    have hback : option decode back = (decode back).map some := by
      cases back with
      | null => exact absurd h (hnull content)
      | _ => rfl
    rw [hback]
    exact (hdecode content rfl back h).map some

/-- The variants of an enumeration without data, by name: a string, or a map of the name to null,
whose payload is looked at after the name. -/
def unitVariant (variants : List (String × α)) : Value → Except Value.Error α
  | .str name => variant name
  | .map [(name, payload)] =>
    match variant name, payload with
    | .error error, _ => .error error
    | .ok value, .null => .ok value
    | .ok _, payload => .error (.invalidType payload "unit")
  | .map entries => .error (.invalidValue (.map entries) "map with a single key")
  | value => .error (.invalidType value "string or map")
where
  variant (name : String) : Except Value.Error α :=
    match variants.lookup name with
    | some value => .ok value
    | none => .error (.unknownVariant name (variants.map Prod.fst))

theorem unitVariant_of_same {variants : List (String × α)} {name : String} {value : α}
    {back : Value} (hname : variants.lookup name = some value) (h : Same keeps (.str name) back) :
    unitVariant variants back = .ok value := by
  cases h
  rw [unitVariant, unitVariant.variant, hname]

/-! ## Collections -/

/-- The items of a sequence, up to the first that is rejected. -/
def items (decode : Value → Except Value.Error α) : List Value → Except Value.Error (List α)
  | [] => .ok []
  | item :: rest =>
    match decode item with
    | .error error => .error error
    | .ok value => (items decode rest).map (value :: ·)

def seq (decode : Value → Except Value.Error α) : Value → Except Value.Error (List α)
  | .seq values => items decode values
  | value => .error (.invalidType value "a sequence")

theorem items_yields {exception : Prop} {decode : Value → Except Value.Error α}
    {values : List α} {back : List Value}
    (h : List.Forall₂ (fun value item ↦ Yields exception (decode item) value) values back) :
    Yields exception (items decode back) values := by
  induction h with
  | nil => exact .inl rfl
  | cons hitem _ ih =>
    rw [items]
    rcases hitem with hitem | ⟨hexception, error, herror⟩
    · rw [hitem]
      exact ih.map _
    · rw [herror]
      exact .inr ⟨hexception, error, rfl⟩

theorem seq_of_same {exception : Prop} {decode : Value → Except Value.Error α}
    {encode : α → Value} {values : List α} {back : Value}
    (hdecode : ∀ value ∈ values, ∀ back, Same keeps (encode value) back →
      Yields exception (decode back) value)
    (h : Same keeps (.seq (values.map encode)) back) :
    Yields exception (seq decode back) values := by
  obtain ⟨back, rfl, hsame⟩ := h.seq_cases
  rw [List.forall₂_map_left_iff] at hsame
  clear h
  apply items_yields
  induction hsame with
  | nil => exact .nil
  | cons hitem _ ih =>
    exact .cons (hdecode _ List.mem_cons_self _ hitem)
      (ih fun value hvalue ↦ hdecode value (List.mem_cons_of_mem _ hvalue))

/-- A map of strings to strings; the last of the values of a repeated key is kept. -/
abbrev StringMap := Finmap fun _ : String ↦ String

/-- Insert the entries of a map, up to the first whose value is rejected. -/
def stringEntries : StringMap → List (String × Value) → Except Value.Error StringMap
  | strings, [] => .ok strings
  | strings, (key, value) :: entries =>
    match string value with
    | .error error => .error error
    | .ok value => stringEntries (strings.insert key value) entries

def stringMap : Value → Except Value.Error StringMap
  | .map entries => stringEntries ∅ entries
  | value => .error (.invalidType value "a map")

/-- A written entry of a map of strings. -/
def stringEntry (entry : (_ : String) × String) : String × Value := (entry.1, .str entry.2)

theorem stringEntries_eq {strings : AList fun _ : String ↦ String}
    {entries : List ((_ : String) × String)} (hnodup : (strings.entries ++ entries).NodupKeys) :
    ∃ read : AList fun _ : String ↦ String,
      stringEntries strings.toFinmap (entries.map stringEntry) = .ok read.toFinmap ∧
        read.entries.Perm (strings.entries ++ entries) := by
  induction entries generalizing strings with
  | nil => exact ⟨strings, rfl, by simp⟩
  | cons entry entries ih =>
    have hperm : (strings.entries ++ entry :: entries).Perm
        ((entry :: strings.entries) ++ entries) := List.perm_middle
    have hnodup' := (List.perm_nodupKeys hperm).mp hnodup
    have hnew : entry.1 ∉ strings := by
      intro hmem
      apply (List.nodupKeys_cons.mp hnodup').1
      change entry.1 ∈ (strings.entries ++ entries).keys
      rw [List.keys_append]
      exact List.mem_append_left _ hmem
    have hinsert : (strings.insert entry.1 entry.2).entries = entry :: strings.entries :=
      AList.entries_insert_of_notMem hnew
    rw [← hinsert] at hnodup'
    obtain ⟨read, hread, hentries⟩ := ih hnodup'
    refine ⟨read, ?_, hentries.trans ?_⟩
    · rw [List.map_cons, stringEntry, stringEntries, string]
      dsimp only
      rw [Finmap.insert_toFinmap]
      exact hread
    · rw [hinsert]
      exact hperm.symm

/-- A map of strings is read back, whatever the order in which its entries were written. -/
theorem stringMap_of_same {strings : StringMap} {written : List ((_ : String) × String)}
    (hwritten : (written : Multiset ((_ : String) × String)) = strings.entries) {back : Value}
    (h : Same keeps (.map (written.map stringEntry)) back) : stringMap back = .ok strings := by
  obtain ⟨kept, middle, back, rfl, hkept, hnames, hvalues, hperm⟩ := h.map_cases
  have hall : (written.map stringEntry).filter kept = written.map stringEntry := by
    rw [List.filter_eq_self]
    intro entry hentry
    by_contra hlost
    have hnull := hkept entry hentry (Bool.eq_false_of_not_eq_true hlost)
    obtain ⟨string, -, rfl⟩ := List.mem_map.mp hentry
    cases hnull
  have hstrings : ∀ (values : List String) (read : List Value),
      List.Forall₂ (Same keeps) (values.map .str) read → read = values.map .str := by
    intro values read hsame
    rw [List.forall₂_map_left_iff] at hsame
    induction hsame with
    | nil => rfl
    | cons hvalue _ ih =>
      cases hvalue
      rw [List.map_cons, ih]
  have hsnd : (written.map stringEntry).map Prod.snd = (written.map (·.2)).map .str := by
    simp [stringEntry]
  have hmiddle : middle = written.map stringEntry := by
    rw [hall] at hnames hvalues
    rw [hsnd] at hvalues
    calc
      middle = (middle.map Prod.fst).zip (middle.map Prod.snd) := List.zip_of_prod rfl rfl
      _ = ((written.map stringEntry).map Prod.fst).zip
            ((written.map stringEntry).map Prod.snd) := by
        rw [← hnames, hstrings _ _ hvalues, hsnd]
      _ = written.map stringEntry := (List.zip_of_prod rfl rfl).symm
  rw [hmiddle] at hperm
  have hcomp : Relation.Comp (· = List.map stringEntry ·) List.Perm back written := by
    rw [List.eq_map_comp_perm]
    exact hperm.symm
  obtain ⟨entries, rfl, hentries⟩ := hcomp
  induction strings using Finmap.induction_on with
  | H strings =>
    have hstrings : entries.Perm strings.entries :=
      hentries.trans (Multiset.coe_eq_coe.mp hwritten)
    have hnodup : ((∅ : AList fun _ : String ↦ String).entries ++ entries).NodupKeys :=
      (List.perm_nodupKeys hstrings).mpr strings.nodupKeys
    obtain ⟨read, hread, hentries⟩ := stringEntries_eq hnodup
    have hsame : read.toFinmap = strings.toFinmap :=
      AList.toFinmap_eq.mpr (hentries.trans hstrings)
    rw [← hsame]
    exact hread

end Filestore.Serde.Visitor
