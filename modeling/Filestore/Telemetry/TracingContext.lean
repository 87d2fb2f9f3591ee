import Filestore.Telemetry.TraceContextPropagator

/-!
# Tracing contexts as JSON

A tracing context is sent as the JSON object of its W3C fields.  Extraction starts from the context
that is active on the calling thread, which is an explicit argument here, so decoding depends on
the message alone exactly when the message holds a span context or no span context is active.
-/

namespace Filestore.Telemetry

open Serde

/-- Printing and parsing of string maps as JSON; `none` stands for a parse error. -/
structure JsonCodec where
  toString : W3cTrace → String
  fromStr : String → Option W3cTrace
  fromStr_toString (fields : W3cTrace) :
    ∃ same, fromStr (toString fields) = some same ∧ ∀ key, same.lookup key = fields.lookup key

/-- JSON objects of strings are a lawful codec. -/
def jsonObjects : JsonCodec where
  toString := JsonMap.print
  fromStr := JsonMap.read
  fromStr_toString := JsonMap.read_print

/-- Distributed tracing context for propagating trace information across services. -/
structure TracingContext where
  context : Context
  deriving DecidableEq

namespace TracingContext

section

-- `current` is the context that is active on the calling thread.
variable (codec : W3cCodec) (json : JsonCodec) (current : Context)

/-- Create an empty context. -/
def new : TracingContext := ⟨.new⟩

/-- Convert to W3C trace context format. -/
def toW3c (self : TracingContext) : W3cTrace := codec.injectContext self.context ∅

/-- Create from W3C trace context format. -/
def fromW3c (fields : W3cTrace) : TracingContext := ⟨codec.extractWithContext current fields⟩

/-- Serialize to JSON string. -/
def toJson (self : TracingContext) : String := json.toString (self.toW3c codec)

/-- Deserialize from JSON string. -/
def fromJson (text : String) : TracingContext :=
  fromW3c codec current ((json.fromStr text).getD ∅)

/-- The span context that a message encodes: none if it is not a JSON string map or holds no valid
`traceparent`. -/
def encodedInJson (text : String) : Option SpanContext :=
  (json.fromStr text).bind codec.encodedIn

/-- What a span context means to another service. -/
def wire (span : SpanContext) : TraceId × SpanId × Bool × TraceState :=
  (span.traceId, span.spanId, span.isSampled, span.traceState)

@[simp]
theorem wire_propagated (span : SpanContext) : wire span.propagated = wire span := by
  rw [wire, wire, SpanContext.isSampled_propagated]
  rfl

/-- The decoded context is the message's, or the active one's if the message has none. -/
theorem carried_fromJson (text : String) :
    (fromJson codec json current text).context.carried =
      (encodedInJson codec json text).or current.carried := by
  rw [fromJson, fromW3c, W3cCodec.carried_extractWithContext, encodedInJson]
  cases json.fromStr text <;> rfl

theorem encodedInJson_toJson (self : TracingContext) :
    encodedInJson codec json (self.toJson codec json) =
      self.context.carried.map SpanContext.propagated := by
  obtain ⟨same, hread, hsame⟩ := json.fromStr_toString (self.toW3c codec)
  rw [encodedInJson, toJson, hread, Option.bind_some, codec.encodedIn_congr hsame, toW3c,
    codec.encodedIn_injectContext]

end

/-- The active context shows exactly when the message holds no span context. -/
theorem or_eq_left_iff {message active : Option SpanContext} :
    message.or active = message ↔ message.isSome ∨ active = none := by
  cases message <;> simp

/-- A context that carries a span. -/
def activeSpan : Context := ⟨some ⟨1, 1, 1, false, {}⟩⟩

/-- Decoding depends on the message alone exactly when the message encodes a span context or the
active context carries none, and the round trip is exact under the same condition. -/
theorem fromJson_depends_on_message_iff (codec : W3cCodec) (json : JsonCodec) :
    (∀ text current,
      (fromJson codec json current text).context.carried = encodedInJson codec json text ↔
        (encodedInJson codec json text).isSome ∨ current.carried = none) ∧
    (∀ text,
      (∀ current other, (fromJson codec json current text).context.carried =
        (fromJson codec json other text).context.carried) ↔
          (encodedInJson codec json text).isSome) ∧
    (∀ (self : TracingContext) (current : Context),
      (fromJson codec json current (self.toJson codec json)).context.carried.map wire =
          self.context.carried.map wire ↔
        self.context.carried.isSome ∨ current.carried = none) := by
  refine ⟨fun text current ↦ ?_, fun text ↦ ?_, fun self current ↦ ?_⟩
  · rw [carried_fromJson, or_eq_left_iff]
  · simp only [carried_fromJson]
    constructor
    · intro hall
      have hdiffer := hall .new activeSpan
      cases hmessage : encodedInJson codec json text with
      | none =>
        rw [hmessage] at hdiffer
        cases hdiffer
      | some span => rfl
    · intro hsome current other
      obtain ⟨span, hspan⟩ := Option.isSome_iff_exists.mp hsome
      rw [hspan]
      rfl
  · rw [carried_fromJson, encodedInJson_toJson]
    cases self.context.carried with
    | none => simp
    | some span => simp

/-- A message that is not JSON, and the empty context sent and received, both take the span of an
unrelated trace that is active on the thread. -/
theorem fromJson_takes_active_span :
    encodedInJson w3cFormat jsonObjects "not json" = none ∧
      (fromJson w3cFormat jsonObjects activeSpan "not json").context.carried =
        some ⟨1, 1, 1, false, {}⟩ ∧
      new.context.carried = none ∧
      (fromJson w3cFormat jsonObjects activeSpan
        (new.toJson w3cFormat jsonObjects)).context.carried = some ⟨1, 1, 1, false, {}⟩ := by
  refine ⟨by decide +kernel, by decide +kernel, rfl, ?_⟩
  rw [carried_fromJson, encodedInJson_toJson]
  rfl

end TracingContext

end Filestore.Telemetry
