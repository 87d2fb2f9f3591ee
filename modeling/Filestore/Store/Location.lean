import Mathlib.Logic.Equiv.Defs
import Mathlib.Tactic.NormNum

/-!
# Locations in the store

A location packs the id of a page, the offset in the page and the size of the object into one
64-bit word.  The word is the sum of its three shifted fields, and each field is a quotient and
remainder of the word, so packing loses nothing and reaches every word.
-/

namespace Filestore.Store

/-- The location tells how to find the data in the store. -/
structure Location where
  packed : UInt64
  deriving DecidableEq

namespace Location

/-- Create a new location from page information. -/
def new (pageId : UInt32) (pageOffset objectSize : UInt16) : Location :=
  let packed := (pageId.toUInt64 <<< 32) ||| (pageOffset.toUInt64 <<< 16) ||| objectSize.toUInt64
  ⟨packed⟩

def pageId (self : Location) : UInt32 := (self.packed >>> 32).toUInt32

def pageOffset (self : Location) : UInt16 := (self.packed >>> 16).toUInt16

def objectSize (self : Location) : UInt16 := self.packed.toUInt16

def raw (self : Location) : UInt64 := self.packed

def fromRaw (raw : UInt64) : Location := ⟨raw⟩

/-! ## Words and fields as numbers -/

/-- A field that is shifted over a lower one adds up with it. -/
theorem toNat_shiftLeft_or {high low k : UInt64} (hk : k.toNat < 64)
    (hhigh : high.toNat * 2 ^ k.toNat < 2 ^ 64) (hlow : low.toNat < 2 ^ k.toNat) :
    (high <<< k ||| low).toNat = high.toNat * 2 ^ k.toNat + low.toNat := by
  have hshift : (high <<< k).toNat = high.toNat <<< k.toNat := by
    rw [UInt64.toNat_shiftLeft, Nat.mod_eq_of_lt hk, Nat.shiftLeft_eq]
    exact Nat.mod_eq_of_lt hhigh
  calc
    (high <<< k ||| low).toNat = high.toNat <<< k.toNat ||| low.toNat := by
      rw [UInt64.toNat_or, hshift]
    _ = high.toNat <<< k.toNat + low.toNat :=
      (Nat.shiftLeft_add_eq_or_of_lt hlow high.toNat).symm
    _ = high.toNat * 2 ^ k.toNat + low.toNat := by rw [Nat.shiftLeft_eq]

/-- The packed word is the sum of the shifted fields. -/
theorem toNat_raw_new (pageId : UInt32) (pageOffset objectSize : UInt16) :
    (new pageId pageOffset objectSize).raw.toNat =
      pageId.toNat * 2 ^ 32 + (pageOffset.toNat * 2 ^ 16 + objectSize.toNat) := by
  have hpageId : pageId.toNat < 2 ^ 32 := pageId.toNat_lt
  have hpageOffset : pageOffset.toNat < 2 ^ 16 := pageOffset.toNat_lt
  have hobjectSize : objectSize.toNat < 2 ^ 16 := objectSize.toNat_lt
  have hlow : (pageOffset.toUInt64 <<< 16 ||| objectSize.toUInt64).toNat =
      pageOffset.toNat * 2 ^ 16 + objectSize.toNat := by
    apply toNat_shiftLeft_or (by decide)
    · change pageOffset.toNat * 2 ^ 16 < 2 ^ 64
      omega
    · exact hobjectSize
  rw [raw, new, UInt64.or_assoc, ← hlow]
  apply toNat_shiftLeft_or (by decide)
  · change pageId.toNat * 2 ^ 32 < 2 ^ 64
    omega
  · rw [hlow]
    change pageOffset.toNat * 2 ^ 16 + objectSize.toNat < 2 ^ 32
    omega

theorem toNat_pageId (self : Location) : self.pageId.toNat = self.raw.toNat / 2 ^ 32 := by
  have hraw : self.raw.toNat < 2 ^ 64 := self.raw.toNat_lt
  calc
    self.pageId.toNat = (self.raw.toNat >>> 32) % 2 ^ 32 := by
      rw [pageId, UInt64.toNat_toUInt32, UInt64.toNat_shiftRight]
      rfl
    _ = self.raw.toNat / 2 ^ 32 := by
      rw [Nat.shiftRight_eq_div_pow]
      omega

theorem toNat_pageOffset (self : Location) :
    self.pageOffset.toNat = self.raw.toNat / 2 ^ 16 % 2 ^ 16 := by
  rw [pageOffset, UInt64.toNat_toUInt16, UInt64.toNat_shiftRight]
  exact congrArg (· % 2 ^ 16) (Nat.shiftRight_eq_div_pow self.raw.toNat 16)

theorem toNat_objectSize (self : Location) : self.objectSize.toNat = self.raw.toNat % 2 ^ 16 :=
  UInt64.toNat_toUInt16 self.raw

/-! ## Packing is a bijection -/

theorem raw_injective : Function.Injective raw := by
  rintro ⟨packed⟩ ⟨packed'⟩ h
  exact congrArg mk h

@[simp]
theorem pageId_new (pageId : UInt32) (pageOffset objectSize : UInt16) :
    (new pageId pageOffset objectSize).pageId = pageId := by
  have hpageOffset : pageOffset.toNat < 2 ^ 16 := pageOffset.toNat_lt
  have hobjectSize : objectSize.toNat < 2 ^ 16 := objectSize.toNat_lt
  rw [← UInt32.toNat_inj, toNat_pageId, toNat_raw_new]
  omega

@[simp]
theorem pageOffset_new (pageId : UInt32) (pageOffset objectSize : UInt16) :
    (new pageId pageOffset objectSize).pageOffset = pageOffset := by
  have hpageOffset : pageOffset.toNat < 2 ^ 16 := pageOffset.toNat_lt
  have hobjectSize : objectSize.toNat < 2 ^ 16 := objectSize.toNat_lt
  rw [← UInt16.toNat_inj, toNat_pageOffset, toNat_raw_new]
  omega

@[simp]
theorem objectSize_new (pageId : UInt32) (pageOffset objectSize : UInt16) :
    (new pageId pageOffset objectSize).objectSize = objectSize := by
  have hobjectSize : objectSize.toNat < 2 ^ 16 := objectSize.toNat_lt
  rw [← UInt16.toNat_inj, toNat_objectSize, toNat_raw_new]
  omega

@[simp]
theorem new_fields (self : Location) :
    new self.pageId self.pageOffset self.objectSize = self := by
  apply raw_injective
  rw [← UInt64.toNat_inj, toNat_raw_new, toNat_pageId, toNat_pageOffset, toNat_objectSize]
  omega

/-- The page id, the offset and the size that a location stands for. -/
abbrev Fields := UInt32 × UInt16 × UInt16

/-- Field triples and words are in bijection. -/
def fieldsEquivRaw : Fields ≃ UInt64 where
  toFun fields := (new fields.1 fields.2.1 fields.2.2).raw
  invFun raw := ((fromRaw raw).pageId, (fromRaw raw).pageOffset, (fromRaw raw).objectSize)
  left_inv fields := by
    obtain ⟨pageId, pageOffset, objectSize⟩ := fields
    change ((new pageId pageOffset objectSize).pageId,
      (new pageId pageOffset objectSize).pageOffset,
      (new pageId pageOffset objectSize).objectSize) = _
    simp
  right_inv word := congrArg raw (new_fields (fromRaw word))

/-- A location gives back the fields it was made from, also after a trip through its raw word, and
every word is the location of exactly one triple of fields. -/
theorem new_lossless :
    (∀ pageId pageOffset objectSize,
      let location := new pageId pageOffset objectSize
      (location.pageId = pageId ∧ location.pageOffset = pageOffset ∧
        location.objectSize = objectSize) ∧
      (fromRaw location.raw).pageId = pageId ∧ (fromRaw location.raw).pageOffset = pageOffset ∧
        (fromRaw location.raw).objectSize = objectSize) ∧
    (∀ word, (new (fromRaw word).pageId (fromRaw word).pageOffset
      (fromRaw word).objectSize).raw = word) ∧
    Function.Bijective (fun fields : Fields ↦ (new fields.1 fields.2.1 fields.2.2).raw) := by
  refine ⟨?_, fieldsEquivRaw.right_inv, fieldsEquivRaw.bijective⟩
  intro pageId pageOffset objectSize location
  have hfields : location.pageId = pageId ∧ location.pageOffset = pageOffset ∧
      location.objectSize = objectSize :=
    ⟨pageId_new _ _ _, pageOffset_new _ _ _, objectSize_new _ _ _⟩
  exact ⟨hfields, hfields⟩

end Location

end Filestore.Store
