import Mathlib.Data.List.Perm.Basic
import Mathlib.Data.List.Forall2

/-!
# Flat records in a self-describing format

The scalars that a flat record holds, decoding of one named field, and formats that write a
record and read it back.  A lossless format may return the fields in another order and may report
a nonnegative integer as signed; strings, booleans and integer values come back as they were.
-/

namespace Filestore.Serde

/-- A scalar as the deserializer reports it to a visitor. -/
inductive Scalar where
  | bool (value : Bool)
  | i64 (value : Int64)
  | u64 (value : UInt64)
  | str (value : String)
  deriving DecidableEq

namespace Scalar

/-- The same scalar, where an unsigned integer may be reported as a signed one of equal value. -/
inductive Same : Scalar → Scalar → Prop
  | refl (scalar : Scalar) : Same scalar scalar
  | signed (unsigned : UInt64) (value : Int64) (h : value.toInt = unsigned.toNat) :
      Same (.u64 unsigned) (.i64 value)

end Scalar

/-- The fields of a record in the order in which they are visited. -/
abbrev Record := List (String × Scalar)

/-- The reasons for which a record is rejected; `Custom` is the error of a field's own parser. -/
inductive Error (Custom : Type) where
  | invalidType (unexpected : Scalar) (expected : String)
  | invalidValue (unexpected : Scalar) (expected : String)
  | missingField (name : String)
  | duplicateField (name : String)
  | custom (error : Custom)
  deriving DecidableEq

section Field

variable {Custom α : Type}

/-- Decode the field of the given name, which must occur exactly once; other fields are ignored. -/
def field (name : String) (decode : Scalar → Except (Error Custom) α) (record : Record) :
    Except (Error Custom) α :=
  match record.filter (fun entry ↦ entry.1 = name) with
  | [] => .error (.missingField name)
  | [entry] => decode entry.2
  | _ => .error (.duplicateField name)

end Field

/-- Two entries of equal name that hold the same scalar. -/
def SameEntry (entry other : String × Scalar) : Prop :=
  entry.1 = other.1 ∧ entry.2.Same other.2

/-- The record read back holds the fields that were written, in any order. -/
def Carries (written back : Record) : Prop :=
  ∃ middle, List.Forall₂ SameEntry written middle ∧ middle.Perm back

/-- A self-describing format that loses no integer, string or boolean of a flat record. -/
structure Format (Wire : Type) where
  write : Record → Wire
  read : Wire → Option Record
  lossless : ∀ record, ∃ back, read (write record) = some back ∧ Carries record back

/-- Records are a format of themselves. -/
def Format.records : Format Record where
  write record := record
  read := some
  lossless record := by
    have hsame : List.Forall₂ SameEntry record record :=
      List.forall₂_same.mpr fun entry _ ↦ ⟨rfl, .refl entry.2⟩
    exact ⟨record, rfl, record, hsame, .refl record⟩

section Lossless

variable {Custom α : Type}

theorem forall₂_filter_name {written middle : Record}
    (hsame : List.Forall₂ SameEntry written middle) (name : String) :
    List.Forall₂ SameEntry (written.filter fun entry ↦ entry.1 = name)
      (middle.filter fun entry ↦ entry.1 = name) := by
  induction hsame with
  | nil => exact .nil
  | @cons entry other _ _ hentry _ ih =>
    by_cases hname : entry.1 = name
    · have hother : other.1 = name := hentry.1 ▸ hname
      simpa [hname, hother] using ⟨hentry, ih⟩
    · have hother : other.1 ≠ name := hentry.1 ▸ hname
      simpa [hname, hother] using ih

/-- A field that occurs once in the written record is decoded from the same scalar when the record
is read back. -/
theorem field_of_carries {written back : Record} (hcarries : Carries written back) (name : String)
    {scalar : Scalar} (hfield : (written.filter fun entry ↦ entry.1 = name) = [(name, scalar)])
    (decode : Scalar → Except (Error Custom) α) :
    ∃ other, scalar.Same other ∧ field name decode back = decode other := by
  obtain ⟨middle, hsame, hperm⟩ := hcarries
  have hfilter := forall₂_filter_name hsame name
  rw [hfield, List.forall₂_cons_left_iff] at hfilter
  obtain ⟨other, rest, hother, hrest, hmiddle⟩ := hfilter
  rw [List.forall₂_nil_left_iff] at hrest
  have hback : (back.filter fun entry ↦ entry.1 = name) = [other] := by
    have hfiltered := hperm.filter fun entry ↦ entry.1 = name
    rw [hmiddle, hrest] at hfiltered
    exact (List.singleton_perm.mp hfiltered).symm
  exact ⟨other.2, hother.2, by rw [field, hback]⟩

end Lossless

end Filestore.Serde
