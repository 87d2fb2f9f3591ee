import Filestore.Serde.JsonMap
import Filestore.Telemetry.SpanContext

/-!
# The W3C trace context propagator

Injection writes the fields of a valid span context into a map of strings.  Extraction starts from
a given context and returns it unchanged when the map holds no valid `traceparent`.  The encoding
of the fields is a parameter with its two laws, and version 00 of the format is one such encoding.
-/

namespace Filestore.Telemetry

open Serde

/-- W3C Trace Context format as key-value pairs. -/
abbrev W3cTrace := JsonMap.StringMap

/-- An encoding of span contexts as the values of the two fields. -/
structure W3cCodec where
  traceparent : SpanContext → String
  tracestate : SpanContext → String
  decode : String → Option String → Option SpanContext
  isValid_of_decode {parent : String} {state : Option String} {span : SpanContext} :
    decode parent state = some span → span.isValid = true
  decode_encode {span : SpanContext} : span.isValid = true →
    decode (traceparent span) (some (tracestate span)) = some span.propagated

namespace W3cCodec

variable (codec : W3cCodec)

/-- The span context that the fields encode. -/
def encodedIn (fields : W3cTrace) : Option SpanContext :=
  (fields.lookup "traceparent").bind fun parent ↦
    codec.decode parent (fields.lookup "tracestate")

def injectContext (context : Context) (fields : W3cTrace) : W3cTrace :=
  let span := context.spanContext
  if span.isValid then
    (fields.insert "traceparent" (codec.traceparent span)).insert "tracestate"
      (codec.tracestate span)
  else fields

def extractWithContext (context : Context) (fields : W3cTrace) : Context :=
  match codec.encodedIn fields with
  | some span => context.withRemoteSpanContext span
  | none => context

/-- Extraction depends on the fields through their values only. -/
theorem encodedIn_congr {fields same : W3cTrace}
    (hsame : ∀ key, same.lookup key = fields.lookup key) :
    codec.encodedIn same = codec.encodedIn fields := by
  rw [encodedIn, encodedIn, hsame, hsame]

/-- What is injected into an empty map encodes what the context carries. -/
theorem encodedIn_injectContext (context : Context) :
    codec.encodedIn (codec.injectContext context ∅) =
      context.carried.map SpanContext.propagated := by
  by_cases hvalid : context.spanContext.isValid = true
  · have hdecode := codec.decode_encode hvalid
    simp [encodedIn, injectContext, Context.carried, hvalid, hdecode, -AList.insert_empty]
  · simp [encodedIn, injectContext, Context.carried, hvalid]

/-- The fields decide if they encode a span context, and the context from which extraction starts
if they do not. -/
theorem carried_extractWithContext (context : Context) (fields : W3cTrace) :
    (codec.extractWithContext context fields).carried =
      (codec.encodedIn fields).or context.carried := by
  unfold extractWithContext
  cases hencoded : codec.encodedIn fields with
  | none => rfl
  | some span =>
    obtain ⟨parent, -, hdecode⟩ := Option.bind_eq_some_iff.mp hencoded
    have hvalid := codec.isValid_of_decode hdecode
    simp [Context.carried, Context.withRemoteSpanContext, Context.spanContext, hvalid]

end W3cCodec

/-! ## Version 00 of the format -/

/-- Version, trace id, span id and flags. -/
def traceParent (span : SpanContext) : String :=
  .ofList (['-'].intercalate [hexOf 2 0, hexOf 32 span.traceId.toNat, hexOf 16 span.spanId.toNat,
    hexOf 2 (span.traceFlags &&& SpanContext.sampledFlag).toNat])

/-- Read what `traceParent` writes.  It is not the parser of the SDK, which refuses upper case and
flags above 02, and accepts later versions, blanks around the text and short numbers. -/
def readTraceParent (parent : String) (state : Option String) : Option SpanContext :=
  match parent.toList.splitOn '-' with
  | [version, traceId, spanId, flags] => do
    let span : SpanContext := {
      traceId := .ofNat 128 (← readHex traceId)
      spanId := .ofNat 64 (← readHex spanId)
      traceFlags := .ofNat 8 (← readHex flags) &&& SpanContext.sampledFlag
      isRemote := true
      traceState := ⟨state.getD ""⟩ }
    if version = ['0', '0'] ∧ traceId.length = 32 ∧ spanId.length = 16 ∧ flags.length = 2 ∧
        span.isValid then some span
    else none
  | _ => none

theorem isValid_of_readTraceParent {parent : String} {state : Option String} {span : SpanContext}
    (hread : readTraceParent parent state = some span) : span.isValid = true := by
  unfold readTraceParent at hread
  split at hread
  · simp only [Option.bind_eq_bind, Option.bind_eq_some_iff, Option.ite_none_right_eq_some,
      Option.some.injEq] at hread
    obtain ⟨_, -, _, -, _, -, hconditions, rfl⟩ := hread
    exact hconditions.2.2.2.2
  · cases hread

theorem readTraceParent_traceParent {span : SpanContext} (hvalid : span.isValid = true) :
    readTraceParent (traceParent span) (some span.traceState.header) = some span.propagated := by
  have hsplit : (traceParent span).toList.splitOn '-' =
      [hexOf 2 0, hexOf 32 span.traceId.toNat, hexOf 16 span.spanId.toNat,
        hexOf 2 (span.traceFlags &&& SpanContext.sampledFlag).toNat] := by
    rw [traceParent, String.toList_ofList, List.splitOn_intercalate]
    · simp [hyphen_notMem_hexOf]
    · simp
  have htraceId : span.traceId.toNat % 16 ^ 32 = span.traceId.toNat :=
    Nat.mod_eq_of_lt (span.traceId.isLt.trans_eq (by norm_num))
  have hspanId : span.spanId.toNat % 16 ^ 16 = span.spanId.toNat :=
    Nat.mod_eq_of_lt (span.spanId.isLt.trans_eq (by norm_num))
  have hflags (flags : BitVec 8) : flags.toNat % 16 ^ 2 = flags.toNat :=
    Nat.mod_eq_of_lt (flags.isLt.trans_eq (by norm_num))
  have hzero : hexOf 2 0 = ['0', '0'] := rfl
  rw [← SpanContext.isValid_propagated] at hvalid
  simp only [readTraceParent, hsplit, readHex_hexOf, htraceId, hspanId, hflags, hzero,
    Option.bind_eq_bind, Option.bind_some, BitVec.ofNat_toNat, BitVec.setWidth_eq,
    BitVec.and_assoc, BitVec.and_self, length_hexOf, Option.getD_some, true_and]
  exact if_pos hvalid

/-- The two functions are a lawful encoding; that of the SDK differs on texts that neither
writes. -/
def w3cFormat : W3cCodec where
  traceparent := traceParent
  tracestate span := span.traceState.header
  decode := readTraceParent
  isValid_of_decode := isValid_of_readTraceParent
  decode_encode := readTraceParent_traceParent

end Filestore.Telemetry
