import Filestore.Serde.Visitor
import Filestore.Telemetry.InitLogging
import Filestore.Telemetry.OptionEquality

/-!
# The configuration file of the logging

The options of the logging, with the sampling options and rules inside, are read with a default for
every field that is missing.  What was saved is read back through any self-describing format that
reads its finite ratios exactly, in whatever order the format and the hash collections put it,
unless the format has lost a ratio that is not finite; a file that has only some of the fields sets
these and leaves the others at their defaults.
-/

namespace Filestore.Telemetry

open Ieee Serde Value

/-- The orders in which the hash collections of the process are iterated. -/
structure HashOrder where
  types : Finset String → List String
  headers : Visitor.StringMap → List ((_ : String) × String)
  types_eq : ∀ set, (types set : Multiset String) = set.val
  headers_eq : ∀ map, (headers map : Multiset ((_ : String) × String)) = map.entries

theorem nonempty_hashOrder : Nonempty HashOrder :=
  ⟨{ types := fun set ↦ set.val.toList
     headers := fun map ↦ map.entries.toList
     types_eq := fun set ↦ set.val.coe_toList
     headers_eq := fun map ↦ map.entries.coe_toList }⟩

theorem HashOrder.toFinset_types (order : HashOrder) (set : Finset String) :
    (order.types set).toFinset = set := by
  ext text
  rw [List.mem_toFinset, ← Multiset.mem_coe, order.types_eq]
  rfl

variable {keeps : Number binary64 → Prop}

/-! ## Sampling rules -/

namespace TracingSampleRule

inductive Field where
  | protocol
  | requestTypes
  | ratio
  deriving DecidableEq

namespace Field

def name : Field → String
  | .protocol => "protocol"
  | .requestTypes => "request_types"
  | .ratio => "ratio"

def ofName : String → Option Field
  | "protocol" => some .protocol
  | "request_types" => some .requestTypes
  | "ratio" => some .ratio
  | _ => none

theorem ofName_eq_some_iff (text : String) (field : Field) :
    ofName text = some field ↔ name field = text := by
  constructor
  · unfold ofName
    split <;> intro h <;> cases h <;> rfl
  · rintro rfl
    cases field <;> rfl

/-- The fields in the order of their declaration. -/
def declared : List Field := [.protocol, .requestTypes, .ratio]

end Field

/-- Set a field to what it is in the source. -/
def assign (source : TracingSampleRule) : Field → TracingSampleRule → TracingSampleRule
  | .protocol, rule => { rule with protocol := source.protocol }
  | .requestTypes, rule => { rule with requestTypes := source.requestTypes }
  | .ratio, rule => { rule with ratio := source.ratio }

def encode (order : HashOrder) (rule : TracingSampleRule) : Field → Value
  | .protocol => .str rule.protocol
  | .requestTypes => .seq ((order.types rule.requestTypes).map .str)
  | .ratio => .f64 rule.ratio

def decode : Field → Value → Except Value.Error (TracingSampleRule → TracingSampleRule)
  | .protocol, value =>
    (Visitor.string value).map fun protocol rule ↦ { rule with protocol }
  | .requestTypes, value =>
    (Visitor.seq Visitor.string value).map fun types rule ↦
      { rule with requestTypes := types.toFinset }
  | .ratio, value => (Visitor.f64 value).map fun ratio rule ↦ { rule with ratio }

def schema : Schema Field TracingSampleRule where
  name := Field.name
  ofName := Field.ofName
  decode := decode
  ofName_eq_some_iff := Field.ofName_eq_some_iff

theorem lawful_schema : schema.Lawful assign {} where
  copy_self source field middle target := by cases field <;> rfl
  copy_other source field other middle target h := by
    cases field <;> cases other <;> first | rfl | exact absurd rfl h
  copy_default field := by cases field <;> rfl
  ext left right h := by
    have hprotocol := congrArg protocol (h .protocol)
    have htypes := congrArg requestTypes (h .requestTypes)
    have hratio := congrArg ratio (h .ratio)
    cases left
    cases right
    congr
  assigned field value assign h record := by
    cases field <;>
      obtain ⟨_, -, rfl⟩ := exists_of_map_eq_ok h <;> rfl

def serialize (order : HashOrder) (rule : TracingSampleRule) : Value :=
  .map (schema.write (rule.encode order) Field.declared)

def deserialize : Value → Except Value.Error TracingSampleRule :=
  schema.deserialize Field.declared {} "struct TracingSampleRule"

theorem decode_of_same (order : HashOrder) (rule : TracingSampleRule)
    (hkeeps : Visitor.IsFinite rule.ratio → keeps rule.ratio) (field : Field)
    {back : Value} (h : Same keeps (rule.encode order field) back) :
    Yields (¬ Visitor.IsFinite rule.ratio) (decode field back) (rule.assign field) := by
  cases field with
  | protocol =>
    apply Yields.of_eq
    rw [decode, Visitor.string_of_same h]
    rfl
  | requestTypes =>
    have htypes : Yields (¬ Visitor.IsFinite rule.ratio) (Visitor.seq Visitor.string back)
        (order.types rule.requestTypes) :=
      Visitor.seq_of_same (fun value _ back hback ↦ .of_eq (Visitor.string_of_same hback)) h
    have hassign := htypes.map fun types (rule : TracingSampleRule) ↦
      { rule with requestTypes := types.toFinset }
    rwa [order.toFinset_types] at hassign
  | ratio =>
    exact (Visitor.f64_of_same hkeeps h).map fun ratio (rule : TracingSampleRule) ↦
      { rule with ratio }

/-- A rule is read back, unless its ratio was lost. -/
theorem deserialize_of_same (order : HashOrder) (rule : TracingSampleRule)
    (hkeeps : Visitor.IsFinite rule.ratio → keeps rule.ratio) {back : Value}
    (h : Same keeps (rule.serialize order) back) :
    Yields (¬ Visitor.IsFinite rule.ratio) (deserialize back) rule := by
  apply lawful_schema.deserialize_of_same schema (by decide : Field.declared.Nodup) _ _ _ h
  · exact fun field _ value hsame ↦ decode_of_same order rule hkeeps field hsame
  · intro field _ hnull
    cases field <;> cases hnull
  · intro field hfield
    cases field <;> exact absurd (by decide) hfield

end TracingSampleRule

/-! ## Sampling options -/

namespace TracingSampleOptions

inductive Field where
  | defaultRatio
  | rules
  deriving DecidableEq

namespace Field

def name : Field → String
  | .defaultRatio => "default_ratio"
  | .rules => "rules"

def ofName : String → Option Field
  | "default_ratio" => some .defaultRatio
  | "rules" => some .rules
  | _ => none

theorem ofName_eq_some_iff (text : String) (field : Field) :
    ofName text = some field ↔ name field = text := by
  constructor
  · unfold ofName
    split <;> intro h <;> cases h <;> rfl
  · rintro rfl
    cases field <;> rfl

def declared : List Field := [.defaultRatio, .rules]

end Field

def assign (source : TracingSampleOptions) : Field → TracingSampleOptions → TracingSampleOptions
  | .defaultRatio, options => { options with defaultRatio := source.defaultRatio }
  | .rules, options => { options with rules := source.rules }

def encode (order : HashOrder) (options : TracingSampleOptions) : Field → Value
  | .defaultRatio => .f64 options.defaultRatio
  | .rules => .seq (options.rules.map (TracingSampleRule.serialize order))

def decode : Field → Value → Except Value.Error (TracingSampleOptions → TracingSampleOptions)
  | .defaultRatio, value =>
    (Visitor.f64 value).map fun defaultRatio options ↦ { options with defaultRatio }
  | .rules, value =>
    (Visitor.seq TracingSampleRule.deserialize value).map fun rules options ↦
      { options with rules }

def schema : Schema Field TracingSampleOptions where
  name := Field.name
  ofName := Field.ofName
  decode := decode
  ofName_eq_some_iff := Field.ofName_eq_some_iff

theorem lawful_schema : schema.Lawful assign {} where
  copy_self source field middle target := by cases field <;> rfl
  copy_other source field other middle target h := by
    cases field <;> cases other <;> first | rfl | exact absurd rfl h
  copy_default field := by cases field <;> rfl
  ext left right h := by
    have hratio := congrArg defaultRatio (h .defaultRatio)
    have hrules := congrArg rules (h .rules)
    cases left
    cases right
    congr
  assigned field value assign h record := by
    cases field <;>
      obtain ⟨_, -, rfl⟩ := exists_of_map_eq_ok h <;> rfl

def serialize (order : HashOrder) (options : TracingSampleOptions) : Value :=
  .map (schema.write (options.encode order) Field.declared)

def deserialize : Value → Except Value.Error TracingSampleOptions :=
  schema.deserialize Field.declared {} "struct TracingSampleOptions"

/-- None of the ratios is infinite or NaN. -/
def AllFinite (options : TracingSampleOptions) : Prop :=
  ∀ ratio ∈ options.ratios, Visitor.IsFinite ratio

/-- The format keeps those of the ratios that are finite. -/
def Kept (keeps : Number binary64 → Prop) (options : TracingSampleOptions) : Prop :=
  ∀ ratio ∈ options.ratios, Visitor.IsFinite ratio → keeps ratio

theorem decode_of_same (order : HashOrder) (options : TracingSampleOptions)
    (hkept : options.Kept keeps) (field : Field) {back : Value}
    (h : Same keeps (options.encode order field) back) :
    Yields (¬ options.AllFinite) (decode field back) (options.assign field) := by
  cases field with
  | defaultRatio =>
    have hratio := (Visitor.f64_of_same (hkept _ List.mem_cons_self) h).imp
      fun hlost (hfinite : options.AllFinite) ↦ hlost (hfinite _ List.mem_cons_self)
    exact hratio.map fun defaultRatio (options : TracingSampleOptions) ↦
      { options with defaultRatio }
  | rules =>
    have hrules : Yields (¬ options.AllFinite) (Visitor.seq TracingSampleRule.deserialize back)
        options.rules := by
      apply Visitor.seq_of_same _ h
      intro rule hrule back hback
      have hratio : rule.ratio ∈ options.ratios :=
        List.mem_cons_of_mem _ (List.mem_map_of_mem hrule)
      apply (TracingSampleRule.deserialize_of_same order rule (hkept _ hratio) hback).imp
      exact fun hlost hfinite ↦ hlost (hfinite _ hratio)
    exact hrules.map fun rules (options : TracingSampleOptions) ↦ { options with rules }

/-- Sampling options are read back, unless a ratio was lost. -/
theorem deserialize_of_same (order : HashOrder) (options : TracingSampleOptions)
    (hkept : options.Kept keeps) {back : Value} (h : Same keeps (options.serialize order) back) :
    Yields (¬ options.AllFinite) (deserialize back) options := by
  apply lawful_schema.deserialize_of_same schema (by decide : Field.declared.Nodup) _ _ _ h
  · exact fun field _ value hsame ↦ decode_of_same order options hkept field hsame
  · intro field _ hnull
    cases field <;> cases hnull
  · intro field hfield
    cases field <;> exact absurd (by decide) hfield

end TracingSampleOptions

/-! ## Formats and protocols -/

namespace LogFormat

/-- The default format. -/
def default : LogFormat := .text

def name : LogFormat → String
  | .json => "json"
  | .text => "text"

def variants : List (String × LogFormat) := [("json", .json), ("text", .text)]

/-- Deserializes a string value, using the default if the string is empty. -/
def emptyStringAsDefault (value : Value) : Except Value.Error LogFormat :=
  match Visitor.string value with
  | .error error => .error error
  | .ok s =>
    if s = "" then .ok default
    else
      match variants.lookup s with
      | some format => .ok format
      | none => .error (.custom ("invalid value, expect empty string, err: unknown variant `" ++
          s ++ "`, expected `json` or `text`"))

theorem emptyStringAsDefault_of_same (format : LogFormat) {back : Value}
    (h : Same keeps (.str format.name) back) : emptyStringAsDefault back = .ok format := by
  rw [emptyStringAsDefault, Visitor.string_of_same h]
  cases format <;> rfl

end LogFormat

namespace OtlpExportProtocol

def name : OtlpExportProtocol → String
  | .grpc => "grpc"
  | .http => "http"

def variants : List (String × OtlpExportProtocol) := [("grpc", .grpc), ("http", .http)]

def deserialize : Value → Except Value.Error OtlpExportProtocol := Visitor.unitVariant variants

theorem deserialize_of_same (protocol : OtlpExportProtocol) {back : Value}
    (h : Same keeps (.str protocol.name) back) : deserialize back = .ok protocol :=
  Visitor.unitVariant_of_same (by cases protocol <;> decide) h

end OtlpExportProtocol

/-! ## Logging options -/

namespace FullLoggingOptions

inductive Field where
  | dir
  | level
  | logFormat
  | maxLogFiles
  | appendStdout
  | enableOtlpTracing
  | otlpEndpoint
  | tracingSampleRatio
  | otlpExportProtocol
  | otlpHeaders
  deriving DecidableEq

namespace Field

def name : Field → String
  | .dir => "dir"
  | .level => "level"
  | .logFormat => "log_format"
  | .maxLogFiles => "max_log_files"
  | .appendStdout => "append_stdout"
  | .enableOtlpTracing => "enable_otlp_tracing"
  | .otlpEndpoint => "otlp_endpoint"
  | .tracingSampleRatio => "tracing_sample_ratio"
  | .otlpExportProtocol => "otlp_export_protocol"
  | .otlpHeaders => "otlp_headers"

def ofName : String → Option Field
  | "dir" => some .dir
  | "level" => some .level
  | "log_format" => some .logFormat
  | "max_log_files" => some .maxLogFiles
  | "append_stdout" => some .appendStdout
  | "enable_otlp_tracing" => some .enableOtlpTracing
  | "otlp_endpoint" => some .otlpEndpoint
  | "tracing_sample_ratio" => some .tracingSampleRatio
  | "otlp_export_protocol" => some .otlpExportProtocol
  | "otlp_headers" => some .otlpHeaders
  | _ => none

theorem ofName_eq_some_iff (text : String) (field : Field) :
    ofName text = some field ↔ name field = text := by
  constructor
  · unfold ofName
    split <;> intro h <;> cases h <;> rfl
  · rintro rfl
    cases field <;> rfl

def declared : List Field :=
  [.dir, .level, .logFormat, .maxLogFiles, .appendStdout, .enableOtlpTracing, .otlpEndpoint,
    .tracingSampleRatio, .otlpExportProtocol, .otlpHeaders]

end Field

def assign (source : FullLoggingOptions) : Field → FullLoggingOptions → FullLoggingOptions
  | .dir, opts => { opts with dir := source.dir }
  | .level, opts => { opts with level := source.level }
  | .logFormat, opts => { opts with logFormat := source.logFormat }
  | .maxLogFiles, opts => { opts with maxLogFiles := source.maxLogFiles }
  | .appendStdout, opts => { opts with appendStdout := source.appendStdout }
  | .enableOtlpTracing, opts => { opts with enableOtlpTracing := source.enableOtlpTracing }
  | .otlpEndpoint, opts => { opts with otlpEndpoint := source.otlpEndpoint }
  | .tracingSampleRatio, opts => { opts with tracingSampleRatio := source.tracingSampleRatio }
  | .otlpExportProtocol, opts => { opts with otlpExportProtocol := source.otlpExportProtocol }
  | .otlpHeaders, opts => { opts with otlpHeaders := source.otlpHeaders }

def encode (order : HashOrder) (opts : FullLoggingOptions) : Field → Value
  | .dir => .str opts.dir
  | .level => Visitor.ofOption .str opts.level
  | .logFormat => .str opts.logFormat.name
  | .maxLogFiles => .u64 (.ofNat opts.maxLogFiles)
  | .appendStdout => .bool opts.appendStdout
  | .enableOtlpTracing => .bool opts.enableOtlpTracing
  | .otlpEndpoint => Visitor.ofOption .str opts.otlpEndpoint
  | .tracingSampleRatio =>
    Visitor.ofOption (TracingSampleOptions.serialize order) opts.tracingSampleRatio
  | .otlpExportProtocol =>
    Visitor.ofOption (fun protocol ↦ .str protocol.name) opts.otlpExportProtocol
  | .otlpHeaders => .map ((order.headers opts.otlpHeaders).map Visitor.stringEntry)

def decode : Field → Value → Except Value.Error (FullLoggingOptions → FullLoggingOptions)
  | .dir, value => (Visitor.string value).map fun dir opts ↦ { opts with dir }
  | .level, value =>
    (Visitor.option Visitor.string value).map fun level opts ↦ { opts with level }
  | .logFormat, value =>
    (LogFormat.emptyStringAsDefault value).map fun logFormat opts ↦ { opts with logFormat }
  | .maxLogFiles, value =>
    (Visitor.usize value).map fun maxLogFiles opts ↦
      { opts with maxLogFiles := maxLogFiles.toNat }
  | .appendStdout, value =>
    (Visitor.bool value).map fun appendStdout opts ↦ { opts with appendStdout }
  | .enableOtlpTracing, value =>
    (Visitor.bool value).map fun enableOtlpTracing opts ↦ { opts with enableOtlpTracing }
  | .otlpEndpoint, value =>
    (Visitor.option Visitor.string value).map fun otlpEndpoint opts ↦ { opts with otlpEndpoint }
  | .tracingSampleRatio, value =>
    (Visitor.option TracingSampleOptions.deserialize value).map fun tracingSampleRatio opts ↦
      { opts with tracingSampleRatio }
  | .otlpExportProtocol, value =>
    (Visitor.option OtlpExportProtocol.deserialize value).map fun otlpExportProtocol opts ↦
      { opts with otlpExportProtocol }
  | .otlpHeaders, value =>
    (Visitor.stringMap value).map fun otlpHeaders opts ↦ { opts with otlpHeaders }

def schema : Schema Field FullLoggingOptions where
  name := Field.name
  ofName := Field.ofName
  decode := decode
  ofName_eq_some_iff := Field.ofName_eq_some_iff

theorem lawful_schema : schema.Lawful assign {} where
  copy_self source field middle target := by cases field <;> rfl
  copy_other source field other middle target h := by
    cases field <;> cases other <;> first | rfl | exact absurd rfl h
  copy_default field := by cases field <;> rfl
  ext left right h := by
    have hdir := congrArg (·.dir) (h .dir)
    have hlevel := congrArg level (h .level)
    have hformat := congrArg logFormat (h .logFormat)
    have hfiles := congrArg maxLogFiles (h .maxLogFiles)
    have hstdout := congrArg (·.appendStdout) (h .appendStdout)
    have htracing := congrArg enableOtlpTracing (h .enableOtlpTracing)
    have hendpoint := congrArg otlpEndpoint (h .otlpEndpoint)
    have hratio := congrArg tracingSampleRatio (h .tracingSampleRatio)
    have hprotocol := congrArg otlpExportProtocol (h .otlpExportProtocol)
    have hheaders := congrArg otlpHeaders (h .otlpHeaders)
    obtain ⟨⟨_, _⟩, _⟩ := left
    obtain ⟨⟨_, _⟩, _⟩ := right
    congr
  assigned field value assign h record := by
    cases field <;>
      obtain ⟨_, -, rfl⟩ := exists_of_map_eq_ok h <;> rfl

/-- The fields that are written: the headers are skipped if there are none. -/
def written (opts : FullLoggingOptions) : List Field :=
  Field.declared.filter fun field ↦ !(field = .otlpHeaders && opts.otlpHeaders = ∅)

def serialize (order : HashOrder) (opts : FullLoggingOptions) : Value :=
  .map (schema.write (opts.encode order) opts.written)

def deserialize : Value → Except Value.Error FullLoggingOptions :=
  schema.deserialize Field.declared {} "struct LoggingOptions"

/-- None of the sampling ratios is infinite or NaN. -/
def AllFinite (opts : FullLoggingOptions) : Prop :=
  ∀ options ∈ opts.tracingSampleRatio, options.AllFinite

section Text

variable {exception : Prop}

theorem optionString_of_same {text : Option String} {back : Value}
    (h : Same keeps (Visitor.ofOption .str text) back) :
    Yields exception (Visitor.option Visitor.string back) text := by
  apply Visitor.option_of_same _ _ h
  · exact fun _ _ _ hsame ↦ .of_eq (Visitor.string_of_same hsame)
  · intro _ hnull
    cases hnull

end Text

theorem decode_of_same (order : HashOrder) (opts : FullLoggingOptions)
    (hfiles : opts.maxLogFiles < 2 ^ 64)
    (hkept : ∀ options ∈ opts.tracingSampleRatio, options.Kept keeps) (field : Field)
    {back : Value} (h : Same keeps (opts.encode order field) back) :
    Yields (¬ opts.AllFinite) (decode field back) (opts.assign field) := by
  cases field with
  | dir => exact .of_eq (by rw [decode, Visitor.string_of_same h]; rfl)
  | level =>
    exact (optionString_of_same h).map fun level (opts : FullLoggingOptions) ↦ { opts with level }
  | logFormat => exact .of_eq (by rw [decode, LogFormat.emptyStringAsDefault_of_same _ h]; rfl)
  | maxLogFiles =>
    apply Yields.of_eq
    rw [decode, Visitor.usize_of_same h, Except.map, UInt64.toNat_ofNat_of_lt' hfiles]
    rfl
  | appendStdout => exact .of_eq (by rw [decode, Visitor.bool_of_same h]; rfl)
  | enableOtlpTracing => exact .of_eq (by rw [decode, Visitor.bool_of_same h]; rfl)
  | otlpEndpoint =>
    exact (optionString_of_same h).map fun otlpEndpoint (opts : FullLoggingOptions) ↦
      { opts with otlpEndpoint }
  | tracingSampleRatio =>
    have hoptions : Yields (¬ opts.AllFinite)
        (Visitor.option TracingSampleOptions.deserialize back) opts.tracingSampleRatio := by
      apply Visitor.option_of_same _ _ h
      · intro options hoptions _ hsame
        have hread :=
          TracingSampleOptions.deserialize_of_same order options (hkept options hoptions) hsame
        exact hread.imp fun hlost hfinite ↦ hlost (hfinite options hoptions)
      · intro _ hnull
        cases hnull
    exact hoptions.map fun tracingSampleRatio (opts : FullLoggingOptions) ↦
      { opts with tracingSampleRatio }
  | otlpExportProtocol =>
    have hprotocol : Yields (¬ opts.AllFinite)
        (Visitor.option OtlpExportProtocol.deserialize back) opts.otlpExportProtocol := by
      apply Visitor.option_of_same _ _ h
      · intro protocol _ _ hsame
        exact .of_eq (OtlpExportProtocol.deserialize_of_same protocol hsame)
      · intro _ hnull
        cases hnull
    exact hprotocol.map fun otlpExportProtocol (opts : FullLoggingOptions) ↦
      { opts with otlpExportProtocol }
  | otlpHeaders =>
    apply Yields.of_eq
    rw [decode, Visitor.stringMap_of_same (order.headers_eq _) h]
    rfl

/-- A field that is not written is the default. -/
theorem assign_default_of_notMem (opts : FullLoggingOptions) (field : Field)
    (h : field ∉ opts.written) : opts.assign field {} = {} := by
  have hdeclared : field ∈ Field.declared := by cases field <;> decide
  obtain ⟨rfl, hempty⟩ : field = .otlpHeaders ∧ opts.otlpHeaders = ∅ := by
    simpa [written, hdeclared] using h
  rw [assign, hempty]

/-- What is null when it is written is the default. -/
theorem assign_default_of_null (order : HashOrder) (source : FullLoggingOptions) (field : Field)
    (h : source.encode order field = .null) : source.assign field {} = {} := by
  have hnone : ∀ {α : Type} (encode : α → Value) (value : Option α),
      (∀ content, encode content ≠ .null) → Visitor.ofOption encode value = .null →
        value = none := by
    intro α encode value hencode hnull
    cases value with
    | none => rfl
    | some content => exact absurd hnull (hencode content)
  cases field with
  | dir | logFormat | maxLogFiles | appendStdout | enableOtlpTracing | otlpHeaders => cases h
  | level => rw [assign, hnone _ _ (by simp) h]
  | otlpEndpoint => rw [assign, hnone _ _ (by simp) h]
  | tracingSampleRatio => rw [assign, hnone _ _ (by simp [TracingSampleOptions.serialize]) h]
  | otlpExportProtocol => rw [assign, hnone _ _ (by simp) h]

/-- Options are read back, unless a ratio was lost. -/
theorem deserialize_of_same (order : HashOrder) (opts : FullLoggingOptions)
    (hfiles : opts.maxLogFiles < 2 ^ 64)
    (hkept : ∀ options ∈ opts.tracingSampleRatio, options.Kept keeps) {back : Value}
    (h : Same keeps (opts.serialize order) back) :
    Yields (¬ opts.AllFinite) (deserialize back) opts := by
  apply lawful_schema.deserialize_of_same schema _ _ _ opts.assign_default_of_notMem h
  · exact (by decide : Field.declared.Nodup).filter _
  · exact fun field _ value hsame ↦ opts.decode_of_same order hfiles hkept field hsame
  · exact fun field _ hnull ↦ assign_default_of_null order opts field hnull

/-! ## Files -/

/-- If the format keeps the finite ratios of the saved options, these are loaded as they were when
all ratios are finite, and in any case nothing else is loaded in their place. -/
theorem reload_exact {Wire : Type} (format : NestedFormat Wire) (order : HashOrder)
    (opts : FullLoggingOptions) (hfiles : opts.maxLogFiles < 2 ^ 64)
    (hkept : ∀ options ∈ opts.tracingSampleRatio, options.Kept format.keeps) :
    ∃ back, format.read (format.write (opts.serialize order)) = some back ∧
      (opts.AllFinite → deserialize back = .ok opts) ∧
      ∀ loaded, deserialize back = .ok loaded → loaded = opts := by
  obtain ⟨back, hread, hsame⟩ := format.read_write (opts.serialize order)
  have hyields := deserialize_of_same order opts hfiles hkept hsame
  exact ⟨back, hread, fun hfinite ↦ hyields.eq_ok (not_not.mpr hfinite),
    fun loaded hloaded ↦ hyields.eq_of_ok hloaded⟩

/-- Options with a rule that samples the requests of one type, and with a header. -/
def sampledLogging : FullLoggingOptions where
  dir := "logs"
  tracingSampleRatio := some
    { rules := [{ protocol := "grpc", requestTypes := {"Hello"}, ratio := one }] }
  otlpHeaders := Finmap.singleton "tenant" "a"

/-- These options are loaded as they were saved. -/
theorem reload_sampledLogging : ∃ order : HashOrder, ∃ back,
    NestedFormat.values.read (NestedFormat.values.write (sampledLogging.serialize order)) =
      some back ∧ deserialize back = .ok sampledLogging := by
  obtain ⟨order⟩ := nonempty_hashOrder
  obtain ⟨back, hread, hload, -⟩ := reload_exact .values order sampledLogging (by decide)
    fun _ _ _ _ _ ↦ trivial
  refine ⟨order, back, hread, hload ?_⟩
  intro options hoptions ratio hratio
  obtain rfl : _ = options := Option.some.inj hoptions
  obtain ⟨magnitude, hone, -⟩ := exists_one_eq
  obtain rfl | rfl : ratio = zero ∨ ratio = one := by
    simpa [TracingSampleOptions.ratios] using hratio
  · exact ⟨false, .zero binary64, rfl⟩
  · exact ⟨false, magnitude, hone⟩

/-- An empty log format is the same as none. -/
theorem load_empty_logFormat {before after : List (String × Value)} {opts : FullLoggingOptions}
    (hnew : .logFormat ∉ schema.found (before ++ after)) :
    deserialize (.map (before ++ ("log_format", .str "") :: after)) = .ok opts ↔
      deserialize (.map (before ++ after)) = .ok opts := by
  have hname : schema.ofName "log_format" = some .logFormat := rfl
  have hperm : (schema.known (before ++ ("log_format", .str "") :: after)).Perm
      (schema.known (("log_format", .str "") :: (before ++ after))) :=
    List.perm_middle.filter _
  calc
    _ ↔ deserialize (.map (("log_format", .str "") :: (before ++ after))) = .ok opts :=
      ⟨lawful_schema.deserialize_of_perm schema hperm,
        lawful_schema.deserialize_of_perm schema hperm.symm⟩
    _ ↔ deserialize (.map (before ++ after)) = .ok opts :=
      lawful_schema.deserialize_cons_default schema hname rfl rfl hnew

/-- A file is accepted exactly if each of its known fields is there once and is decoded; the loaded
options have these fields and the defaults elsewhere.  The order of the entries does not matter, nor
do unknown ones, and an empty log format is the same as none. -/
theorem load_eq_ok_iff (entries : List (String × Value)) (opts : FullLoggingOptions) :
    (deserialize (.map entries) = .ok opts ↔
      (schema.found entries).Nodup ∧
        (∀ entry ∈ entries, ∀ field, Field.ofName entry.1 = some field →
          ∃ set, decode field entry.2 = .ok set ∧ set {} = opts.assign field {}) ∧
        ∀ field, field ∉ schema.found entries → opts.assign field {} = {}) ∧
      (∀ others, (schema.known entries).Perm (schema.known others) →
        deserialize (.map entries) = .ok opts → deserialize (.map others) = .ok opts) ∧
      ∀ before after, entries = before ++ after → .logFormat ∉ schema.found entries →
        (deserialize (.map (before ++ ("log_format", .str "") :: after)) = .ok opts ↔
          deserialize (.map entries) = .ok opts) := by
  refine ⟨lawful_schema.deserialize_eq_ok_iff schema _ _ _ _,
    fun _ hperm ↦ lawful_schema.deserialize_of_perm schema hperm, ?_⟩
  rintro before after rfl hnew
  exact load_empty_logFormat hnew

end FullLoggingOptions

end Filestore.Telemetry
