import Filestore.Ieee.Number
import Mathlib.Data.List.Perm.Basic
import Mathlib.Data.List.Forall2

/-!
# Records with defaults in a nested self-describing format

A visitor of a record starts from a default value and assigns each field that it finds; a field that
is missing keeps its default, an unknown one is skipped, and a repeated one is an error.  A schema
lists the fields of a record type with their decoders.  What is decoded depends only on which fields
were found, not on their order, because assignments of different fields commute.
-/

namespace Filestore.Serde

open Ieee

/-- What a self-describing deserializer reports to a visitor. -/
inductive Value where
  | null
  | bool (value : Bool)
  | u64 (value : UInt64)
  | i64 (value : Int64)
  | f64 (value : Number binary64)
  | str (value : String)
  | seq (items : List Value)
  | map (entries : List (String × Value))

namespace Value

/-- The value that is read back where another one was written.  The entries of a map come in any
order and may lack those that were written as null, a nonnegative integer may be reported as signed,
a finite number that the format does not keep comes back as any number, and one that is not finite
may come back as null. -/
inductive Same (keeps : Number binary64 → Prop) : Value → Value → Prop
  | refl (value : Value) : Same keeps value value
  | signed (unsigned : UInt64) (value : Int64) (h : value.toInt = unsigned.toNat) :
      Same keeps (.u64 unsigned) (.i64 value)
  | inexact (negative : Bool) (magnitude : Magnitude binary64) (back : Number binary64)
      (h : ¬ keeps (.finite negative magnitude)) :
      Same keeps (.f64 (.finite negative magnitude)) (.f64 back)
  | lost (number : Number binary64)
      (h : ∀ negative magnitude, number ≠ .finite negative magnitude) :
      Same keeps (.f64 number) .null
  | seq {items back : List Value} (h : List.Forall₂ (Same keeps) items back) :
      Same keeps (.seq items) (.seq back)
  | map {entries middle back : List (String × Value)} (kept : String × Value → Bool)
      (hkept : ∀ entry ∈ entries, kept entry = false → entry.2 = .null)
      (hnames : (entries.filter kept).map Prod.fst = middle.map Prod.fst)
      (hvalues :
        List.Forall₂ (Same keeps) ((entries.filter kept).map Prod.snd) (middle.map Prod.snd))
      (hperm : middle.Perm back) : Same keeps (.map entries) (.map back)

variable {keeps : Number binary64 → Prop}

theorem Same.seq_cases {items : List Value} {back : Value} (h : Same keeps (.seq items) back) :
    ∃ items', back = .seq items' ∧ List.Forall₂ (Same keeps) items items' := by
  cases h with
  | refl => exact ⟨items, rfl, List.forall₂_same.mpr fun item _ ↦ .refl item⟩
  | seq h => exact ⟨_, rfl, h⟩

/-- A map that is read back has an entry for each of the written ones that is not lost, in any
order. -/
theorem Same.map_cases {entries : List (String × Value)} {back : Value}
    (h : Same keeps (.map entries) back) :
    ∃ (kept : String × Value → Bool) (middle back' : List (String × Value)), back = .map back' ∧
      (∀ entry ∈ entries, kept entry = false → entry.2 = .null) ∧
      (entries.filter kept).map Prod.fst = middle.map Prod.fst ∧
      List.Forall₂ (Same keeps) ((entries.filter kept).map Prod.snd) (middle.map Prod.snd) ∧
      middle.Perm back' := by
  cases h with
  | refl =>
    refine ⟨fun _ ↦ true, entries, entries, rfl, by simp, by simp, ?_, .refl entries⟩
    rw [List.filter_eq_self.mpr fun _ _ ↦ rfl]
    exact List.forall₂_same.mpr fun value _ ↦ .refl value
  | map kept hkept hnames hvalues hperm => exact ⟨kept, _, _, rfl, hkept, hnames, hvalues, hperm⟩

/-- The reasons for which a value is rejected. -/
inductive Error where
  | invalidType (unexpected : Value) (expected : String)
  | invalidValue (unexpected : Value) (expected : String)
  | invalidLength (length : ℕ) (expected : String)
  | unknownVariant (variant : String) (expected : List String)
  | duplicateField (name : String)
  | custom (message : String)

end Value

/-- A format that writes nested values and reads them back, up to what `Value.Same` allows. -/
structure NestedFormat (Wire : Type) where
  write : Value → Wire
  read : Wire → Option Value
  /-- The finite numbers that are read back as they were, which need not be all. -/
  keeps : Number binary64 → Prop
  read_write : ∀ value, ∃ back, read (write value) = some back ∧ Value.Same keeps value back

/-- Values are a format of themselves. -/
def NestedFormat.values : NestedFormat Value where
  write value := value
  read := some
  keeps _ := True
  read_write value := ⟨value, rfl, .refl value⟩

/-! ## Results -/

/-- The computation has the given result, unless the exception applies and it fails. -/
def Yields {α ε : Type} (exception : Prop) (computation : Except ε α) (result : α) : Prop :=
  computation = .ok result ∨ exception ∧ ∃ error, computation = .error error

namespace Yields

variable {α β ε : Type} {exception : Prop} {computation : Except ε α} {result : α}

theorem of_eq (h : computation = .ok result) : Yields exception computation result := .inl h

theorem map (f : α → β) (h : Yields exception computation result) :
    Yields exception (computation.map f) (f result) := by
  rcases h with rfl | ⟨hexception, error, rfl⟩
  · exact .inl rfl
  · exact .inr ⟨hexception, error, rfl⟩

theorem imp {exception' : Prop} (himp : exception → exception')
    (h : Yields exception computation result) : Yields exception' computation result :=
  h.imp_right fun ⟨hexception, herror⟩ ↦ ⟨himp hexception, herror⟩

/-- Without the exception the result is there. -/
theorem eq_ok (h : Yields exception computation result) (hexception : ¬ exception) :
    computation = .ok result :=
  h.resolve_right fun h ↦ hexception h.1

/-- Whatever the computation returns is the result. -/
theorem eq_of_ok (h : Yields exception computation result) {other : α}
    (hother : computation = .ok other) : other = result := by
  rcases h with h | ⟨-, error, h⟩
  · exact Except.ok.inj (hother.symm.trans h)
  · rw [h] at hother
    cases hother

end Yields

theorem exists_of_map_eq_ok {α β ε : Type} {computation : Except ε α} {f : α → β} {result : β}
    (h : computation.map f = .ok result) :
    ∃ value, computation = .ok value ∧ f value = result := by
  cases computation with
  | error error => cases h
  | ok value => exact ⟨value, rfl, Except.ok.inj h⟩

/-! ## Schemas -/

/-- The fields of a record type, with their names and what a decoded field assigns. -/
structure Schema (Field Record : Type) where
  name : Field → String
  ofName : String → Option Field
  decode : Field → Value → Except Value.Error (Record → Record)
  ofName_eq_some_iff : ∀ text field, ofName text = some field ↔ name field = text

namespace Schema

variable {Field Record : Type} (schema : Schema Field Record)

section Visit

variable [DecidableEq Field]

/-- Visit the entries of a map; the fields found before are in `seen`. -/
def visitMap : List Field → Record → List (String × Value) → Except Value.Error Record
  | _, record, [] => .ok record
  | seen, record, (name, value) :: entries =>
    match schema.ofName name with
    | none => visitMap seen record entries
    | some field =>
      if field ∈ seen then .error (.duplicateField name)
      else
        match schema.decode field value with
        | .error error => .error error
        | .ok assign => visitMap (field :: seen) (assign record) entries

/-- Visit a map, or a sequence that has the fields in the order of their declaration; what is left
of the sequence then is an error. -/
def deserialize (fields : List Field) (default : Record) (expected : String) :
    Value → Except Value.Error Record
  | .map entries => schema.visitMap [] default entries
  | .seq items =>
    match schema.visitMap [] default ((fields.map schema.name).zip items) with
    | .error error => .error error
    | .ok record =>
      if items.length ≤ fields.length then .ok record
      else .error (.invalidLength items.length "fewer elements in array")
  | value => .error (.invalidType value expected)

end Visit

/-- The fields that the entries of a map name, in their order. -/
def found (entries : List (String × Value)) : List Field :=
  entries.filterMap fun entry ↦ schema.ofName entry.1

@[simp]
theorem ofName_name (field : Field) : schema.ofName (schema.name field) = some field :=
  (schema.ofName_eq_some_iff _ _).mpr rfl

theorem found_cons {field : Field} {name : String} (hname : schema.ofName name = some field)
    (value : Value) (entries : List (String × Value)) :
    schema.found ((name, value) :: entries) = field :: schema.found entries := by
  simp [found, hname]

/-! ## What a file sets -/

/-- Copying single fields from one record to another behaves as it does for a record type, and each
decoder assigns its own field only. -/
structure Lawful (copy : Record → Field → Record → Record) (default : Record) : Prop where
  copy_self : ∀ source field middle target,
    copy (copy source field middle) field target = copy source field target
  copy_other : ∀ source field other middle target, field ≠ other →
    copy (copy source field middle) other target = copy middle other target
  copy_default : ∀ field, copy default field default = default
  ext : ∀ left right, (∀ field, copy left field default = copy right field default) → left = right
  assigned : ∀ field value assign, schema.decode field value = .ok assign →
    ∀ record, assign record = copy (assign default) field record

section File

variable {copy : Record → Field → Record → Record} {default : Record}

theorem visitMap_cons_eq_ok_iff [DecidableEq Field] {field : Field} {name : String}
    (hname : schema.ofName name = some field) {value : Value} {seen : List Field}
    {record result : Record} {entries : List (String × Value)} :
    schema.visitMap seen record ((name, value) :: entries) = .ok result ↔
      field ∉ seen ∧ ∃ assign, schema.decode field value = .ok assign ∧
        schema.visitMap (field :: seen) (assign record) entries = .ok result := by
  by_cases hseen : field ∈ seen
  · simp [visitMap, hname, hseen]
  · cases hdecode : schema.decode field value with
    | error error => simp [visitMap, hname, hseen, hdecode]
    | ok assign => simp [visitMap, hname, hseen, hdecode]

/-- What a decoder has assigned is in its field. -/
theorem Lawful.copy_assigned (hlawful : schema.Lawful copy default) {field : Field} {value : Value}
    {assign : Record → Record} (hdecode : schema.decode field value = .ok assign)
    (record : Record) : copy (assign record) field default = assign default := by
  calc
    copy (assign record) field default =
          copy (copy (assign default) field record) field default := by
      rw [← hlawful.assigned field value assign hdecode record]
    _ = copy (assign default) field default := hlawful.copy_self _ _ _ _
    _ = assign default := (hlawful.assigned field value assign hdecode default).symm

/-- A decoder leaves all other fields. -/
theorem Lawful.copy_assigned_other (hlawful : schema.Lawful copy default) {field other : Field}
    {value : Value} {assign : Record → Record} (hdecode : schema.decode field value = .ok assign)
    (hother : other ≠ field) (record : Record) :
    copy (assign record) other default = copy record other default := by
  rw [hlawful.assigned field value assign hdecode record]
  exact hlawful.copy_other _ _ _ _ _ hother.symm

/-- The loop ends with a record exactly if each field is found once and is decoded; the record has
the decoded fields, and is for all others as it was. -/
theorem Lawful.visitMap_eq_ok_iff [DecidableEq Field] (hlawful : schema.Lawful copy default)
    (entries : List (String × Value)) (seen : List Field) (record result : Record) :
    schema.visitMap seen record entries = .ok result ↔
      (schema.found entries).Nodup ∧ (∀ field ∈ schema.found entries, field ∉ seen) ∧
        (∀ entry ∈ entries, ∀ field, schema.ofName entry.1 = some field →
          ∃ assign, schema.decode field entry.2 = .ok assign ∧
            assign default = copy result field default) ∧
        ∀ field, field ∉ schema.found entries →
          copy result field default = copy record field default := by
  induction entries generalizing seen record with
  | nil =>
    simp only [visitMap, Except.ok.injEq, found, List.filterMap_nil, List.nodup_nil,
      List.not_mem_nil, not_false_eq_true, false_implies, implies_true, true_and, true_implies]
    constructor
    · rintro rfl field
      rfl
    · intro hfields
      exact (hlawful.ext _ _ hfields).symm
  | cons entry entries ih =>
    obtain ⟨name, value⟩ := entry
    cases hname : schema.ofName name with
    | none =>
      have hfound : schema.found ((name, value) :: entries) = schema.found entries := by
        simp [found, hname]
      have hvisit : schema.visitMap seen record ((name, value) :: entries) =
          schema.visitMap seen record entries := by
        simp only [visitMap, hname]
      rw [hfound, hvisit, ih, List.forall_mem_cons]
      simp [hname]
    | some field =>
      rw [schema.visitMap_cons_eq_ok_iff hname, schema.found_cons hname]
      constructor
      · rintro ⟨hseen, assign, hdecode, hvisit⟩
        obtain ⟨hnodup, hnew, hentries, hothers⟩ := (ih _ _).mp hvisit
        have hfield : field ∉ schema.found entries := fun hmem ↦
          hnew field hmem List.mem_cons_self
        have hset : assign default = copy result field default :=
          (hlawful.copy_assigned schema hdecode record).symm.trans (hothers field hfield).symm
        refine ⟨List.nodup_cons.mpr ⟨hfield, hnodup⟩, ?_, ?_, ?_⟩
        · intro other hother
          rcases List.mem_cons.mp hother with rfl | hother
          · exact hseen
          · exact fun hmem ↦ hnew other hother (List.mem_cons_of_mem _ hmem)
        · intro entry hentry other hother
          rcases List.mem_cons.mp hentry with rfl | hentry
          · obtain rfl : field = other := Option.some.inj (hname.symm.trans hother)
            exact ⟨assign, hdecode, hset⟩
          · exact hentries entry hentry other hother
        · intro other hother
          rw [List.mem_cons, not_or] at hother
          rw [hothers other hother.2]
          exact hlawful.copy_assigned_other schema hdecode hother.1 record
      · rintro ⟨hnodup, hnew, hentries, hothers⟩
        obtain ⟨hfield, hnodup⟩ := List.nodup_cons.mp hnodup
        obtain ⟨assign, hdecode, hset⟩ := hentries (name, value) List.mem_cons_self field hname
        refine ⟨hnew field List.mem_cons_self, assign, hdecode, (ih _ _).mpr ⟨hnodup, ?_, ?_, ?_⟩⟩
        · intro other hother hmem
          rcases List.mem_cons.mp hmem with rfl | hmem
          · exact hfield hother
          · exact hnew other (List.mem_cons_of_mem _ hother) hmem
        · exact fun entry hentry ↦ hentries entry (List.mem_cons_of_mem _ hentry)
        · intro other hother
          by_cases heq : other = field
          · rw [heq, hlawful.copy_assigned schema hdecode, hset]
          · rw [hlawful.copy_assigned_other schema hdecode heq]
            apply hothers
            rw [List.mem_cons, not_or]
            exact ⟨heq, hother⟩

/-- A file is accepted exactly if each of its known fields is there once and is decoded; what it
loads has these fields, and the default for every other. -/
theorem Lawful.deserialize_eq_ok_iff [DecidableEq Field] (hlawful : schema.Lawful copy default)
    (declared : List Field) (expected : String) (entries : List (String × Value))
    (result : Record) :
    schema.deserialize declared default expected (.map entries) = .ok result ↔
      (schema.found entries).Nodup ∧
        (∀ entry ∈ entries, ∀ field, schema.ofName entry.1 = some field →
          ∃ assign, schema.decode field entry.2 = .ok assign ∧
            assign default = copy result field default) ∧
        ∀ field, field ∉ schema.found entries →
          copy result field default = default := by
  rw [deserialize, hlawful.visitMap_eq_ok_iff]
  simp only [List.not_mem_nil, not_false_eq_true, implies_true, true_and, hlawful.copy_default]

/-- An entry that is decoded to the default may as well be missing. -/
theorem Lawful.deserialize_cons_default [DecidableEq Field] (hlawful : schema.Lawful copy default)
    {declared : List Field} {expected : String} {field : Field} {name : String} {value : Value}
    {assign : Record → Record} {entries : List (String × Value)} {result : Record}
    (hname : schema.ofName name = some field) (hdecode : schema.decode field value = .ok assign)
    (hdefault : assign default = default) (hnew : field ∉ schema.found entries) :
    schema.deserialize declared default expected (.map ((name, value) :: entries)) = .ok result ↔
      schema.deserialize declared default expected (.map entries) = .ok result := by
  rw [hlawful.deserialize_eq_ok_iff, hlawful.deserialize_eq_ok_iff, schema.found_cons hname]
  constructor
  · rintro ⟨hnodup, hentries, hmissing⟩
    refine ⟨(List.nodup_cons.mp hnodup).2,
      fun entry hentry ↦ hentries entry (List.mem_cons_of_mem _ hentry), fun other hother ↦ ?_⟩
    by_cases heq : other = field
    · obtain ⟨assign', hdecode', hset⟩ := hentries (name, value) List.mem_cons_self field hname
      obtain rfl : assign = assign' := Except.ok.inj (hdecode.symm.trans hdecode')
      rw [heq, ← hset, hdefault]
    · exact hmissing other (by simp [heq, hother])
  · rintro ⟨hnodup, hentries, hmissing⟩
    refine ⟨List.nodup_cons.mpr ⟨hnew, hnodup⟩, fun entry hentry other hother ↦ ?_,
      fun other hother ↦ hmissing other fun hmem ↦ hother (List.mem_cons_of_mem _ hmem)⟩
    rcases List.mem_cons.mp hentry with rfl | hentry
    · obtain rfl : field = other := Option.some.inj (hname.symm.trans hother)
      exact ⟨assign, hdecode, hdefault.trans (hmissing field hnew).symm⟩
    · exact hentries entry hentry other hother

/-- The entries of the fields that there are. -/
def known (entries : List (String × Value)) : List (String × Value) :=
  entries.filter fun entry ↦ (schema.ofName entry.1).isSome

theorem mem_known {entry : String × Value} {field : Field}
    (hname : schema.ofName entry.1 = some field) (entries : List (String × Value)) :
    entry ∈ schema.known entries ↔ entry ∈ entries := by
  simp [known, hname]

theorem found_known (entries : List (String × Value)) :
    schema.found (schema.known entries) = schema.found entries := by
  rw [found, known, List.filterMap_filter]
  apply List.filterMap_congr
  intro entry _
  cases schema.ofName entry.1 <;> rfl

/-- Neither the order of the entries nor the unknown ones among them change what is loaded. -/
theorem Lawful.deserialize_of_perm [DecidableEq Field] (hlawful : schema.Lawful copy default)
    {declared : List Field} {expected : String} {entries others : List (String × Value)}
    (hperm : (schema.known entries).Perm (schema.known others)) {result : Record}
    (h : schema.deserialize declared default expected (.map entries) = .ok result) :
    schema.deserialize declared default expected (.map others) = .ok result := by
  rw [hlawful.deserialize_eq_ok_iff] at h ⊢
  obtain ⟨hnodup, hentries, hmissing⟩ := h
  have hfound : (schema.found entries).Perm (schema.found others) := by
    rw [← schema.found_known entries, ← schema.found_known others]
    exact hperm.filterMap _
  refine ⟨hfound.nodup_iff.mp hnodup, ?_, ?_⟩
  · intro entry hentry field hname
    refine hentries entry ?_ field hname
    rw [← schema.mem_known hname] at hentry ⊢
    exact hperm.mem_iff.mpr hentry
  · exact fun field hfield ↦ hmissing field fun hmem ↦ hfield (hfound.mem_iff.mp hmem)

end File

/-! ## Reading a written record -/

variable {keeps : Number binary64 → Prop} {encode : Field → Value} {fields : List Field}

/-- The entries that a record is written as. -/
def write (encode : Field → Value) (fields : List Field) : List (String × Value) :=
  fields.map fun field ↦ (schema.name field, encode field)

omit schema in
theorem exists_of_forall₂ {α β : Type} {R : α → β → Prop} {left : List α} {right : List β}
    (h : List.Forall₂ R left right) {x : α} (hx : x ∈ left) : ∃ y ∈ right, R x y := by
  induction h with
  | nil => cases hx
  | cons hhead _ ih =>
    rcases List.mem_cons.mp hx with rfl | hx
    · exact ⟨_, List.mem_cons_self, hhead⟩
    · obtain ⟨y, hy, hxy⟩ := ih hx
      exact ⟨y, List.mem_cons_of_mem _ hy, hxy⟩

theorem forall₂_write {middle : List (String × Value)}
    (hnames : (schema.write encode fields).map Prod.fst = middle.map Prod.fst)
    (hvalues : List.Forall₂ (Value.Same keeps) ((schema.write encode fields).map Prod.snd)
      (middle.map Prod.snd)) :
    List.Forall₂ (fun field entry ↦ entry.1 = schema.name field ∧
      Value.Same keeps (encode field) entry.2) fields middle := by
  induction fields generalizing middle with
  | nil =>
    obtain rfl : middle = [] := by simpa [write] using hnames
    exact .nil
  | cons field fields ih =>
    cases middle with
    | nil => simp [write] at hnames
    | cons entry middle =>
      obtain ⟨hname, hnames⟩ := List.cons.inj hnames
      obtain ⟨hvalue, hvalues⟩ := List.forall₂_cons.mp hvalues
      exact .cons ⟨hname.symm, hvalue⟩ (ih hnames hvalues)

/-- A written record that is read back has each field at most once, with what was written for it,
and has no other field; what was written for a missing field is null. -/
theorem found_of_same {back : Value} (hnodup : fields.Nodup)
    (h : Value.Same keeps (.map (schema.write encode fields)) back) :
    ∃ entries, back = .map entries ∧ (schema.found entries).Nodup ∧
      (∀ entry ∈ entries, ∀ field, schema.ofName entry.1 = some field →
        field ∈ fields ∧ Value.Same keeps (encode field) entry.2) ∧
      ∀ field ∈ fields, field ∉ schema.found entries → encode field = .null := by
  obtain ⟨kept, middle, entries, rfl, hkept, hnames, hvalues, hperm⟩ := h.map_cases
  set present := fields.filter fun field ↦ kept (schema.name field, encode field) with hpresent
  have hwrite : (schema.write encode fields).filter kept = schema.write encode present := by
    rw [write, List.filter_map]
    rfl
  rw [hwrite] at hnames hvalues
  have hmiddle := schema.forall₂_write hnames hvalues
  have hfound : (schema.found entries).Perm present := by
    calc
      (schema.found entries).Perm (schema.found middle) := hperm.symm.filterMap _
      _ = present := by
        clear hnames hvalues hperm hwrite
        clear_value present
        clear hpresent
        induction hmiddle with
        | nil => rfl
        | @cons field entry _ _ hentry _ ih =>
          rw [found, List.filterMap_cons, hentry.1, ofName_name, ← found, ih]
  refine ⟨entries, rfl, hfound.nodup_iff.mpr (hnodup.filter _), ?_, ?_⟩
  · intro entry hentry field hname
    obtain ⟨written, hmem, heq, hsame⟩ :=
      exists_of_forall₂ hmiddle.flip (hperm.mem_iff.mpr hentry)
    obtain rfl : written = field := by
      rw [heq, ofName_name] at hname
      exact Option.some.inj hname
    exact ⟨List.mem_of_mem_filter hmem, hsame⟩
  · intro field hfield hmissing
    apply hkept (schema.name field, encode field) (List.mem_map_of_mem hfield)
    by_contra hkeep
    refine hmissing (hfound.mem_iff.mpr (List.mem_filter.mpr ⟨hfield, ?_⟩))
    exact Bool.eq_true_of_not_eq_false hkeep

/-- A written record is read back, if what is missing is the default. -/
theorem Lawful.deserialize_of_same [DecidableEq Field]
    {copy : Record → Field → Record → Record} {default : Record}
    (hlawful : schema.Lawful copy default) {exception : Prop} {declared : List Field}
    {record : Record} {expected : String} {back : Value} (hnodup : fields.Nodup)
    (hdecode : ∀ field ∈ fields, ∀ value, Value.Same keeps (encode field) value →
      Yields exception (schema.decode field value) (copy record field))
    (hnull : ∀ field ∈ fields, encode field = .null → copy record field default = default)
    (hskipped : ∀ field, field ∉ fields → copy record field default = default)
    (h : Value.Same keeps (.map (schema.write encode fields)) back) :
    Yields exception (schema.deserialize declared default expected back) record := by
  obtain ⟨entries, rfl, hfound, hsame, hmissing⟩ := schema.found_of_same hnodup h
  have hread := fun entry hentry field hname ↦
    hdecode field (hsame entry hentry field hname).1 _ (hsame entry hentry field hname).2
  have hothers : ∀ field, field ∉ schema.found entries → copy record field default = default := by
    intro field hfield
    by_cases hwritten : field ∈ fields
    · exact hnull field hwritten (hmissing field hwritten hfield)
    · exact hskipped field hwritten
  by_cases hall : ∀ entry ∈ entries, ∀ field, schema.ofName entry.1 = some field →
      schema.decode field entry.2 = .ok (copy record field)
  · apply Yields.of_eq
    rw [hlawful.deserialize_eq_ok_iff]
    exact ⟨hfound, fun entry hentry field hname ↦ ⟨_, hall entry hentry field hname, rfl⟩, hothers⟩
  · push Not at hall
    obtain ⟨entry, hentry, field, hname, hlost⟩ := hall
    obtain ⟨hexception, error, herror⟩ := (hread entry hentry field hname).resolve_left hlost
    refine .inr ⟨hexception, ?_⟩
    cases hresult : schema.deserialize declared default expected (.map entries) with
    | error error => exact ⟨error, rfl⟩
    | ok result =>
      -- A loaded record has every entry decoded, also the one that was lost.
      obtain ⟨-, hentries, -⟩ := (hlawful.deserialize_eq_ok_iff schema _ _ _ _).mp hresult
      obtain ⟨assign, hdecoded, -⟩ := hentries entry hentry field hname
      cases herror.symm.trans hdecoded

end Schema

end Filestore.Serde
