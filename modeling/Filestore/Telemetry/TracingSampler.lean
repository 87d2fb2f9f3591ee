import Filestore.Ieee.Number
import Filestore.Telemetry.SpanContext
import Mathlib.Data.Finset.Basic

/-!
# Rule-based trace sampling

A span's `protocol` and `request_type` attributes select a ratio: the first rule in list order that
applies, else the default.  The ratio is compared, as a threshold on 63 bits, with the low half of
the trace id.  With no rules the sampler of the SDK is used in place of this one.
-/

namespace Filestore.Telemetry

open Ieee

inductive SamplingDecision where
  | drop
  | recordOnly
  | recordAndSample
  deriving DecidableEq

/-- The constant `0.0`. -/
def zero : Number binary64 := .finite false (.zero binary64)

/-- The constant `1.0`. -/
def one : Number binary64 := .ofNat binary64 1

/-- Sampling rule for specific protocols and request types. -/
structure TracingSampleRule where
  protocol : String := ""
  requestTypes : Finset String := ∅
  ratio : Number binary64 := zero

/-- The ratio of a rule that matches, where an empty set of request types matches all of them. -/
def TracingSampleRule.matchRule (rule : TracingSampleRule) (protocol : String)
    (requestType : Option String) : Option (Number binary64) :=
  if protocol = rule.protocol then
    if rule.requestTypes = ∅ then some rule.ratio
    else
      match requestType with
      | some t => if t ∈ rule.requestTypes then some rule.ratio else none
      | none => none
  else none

/-- Configuration for trace sampling with rules and default ratio. -/
structure TracingSampleOptions where
  defaultRatio : Number binary64 := zero
  rules : List TracingSampleRule := []

/-! ## The threshold test -/

/-- The sixteen bytes of a trace id, big-endian. -/
def toBytes (traceId : TraceId) : List (BitVec 8) :=
  (List.range 16).map fun i ↦ traceId.extractLsb' (8 * (15 - i)) 8

/-- The 64-bit integer of eight bytes, big-endian. -/
def fromBeBytes (bytes : List (BitVec 8)) : BitVec 64 :=
  bytes.foldl (fun value byte ↦ value <<< 8 ||| byte.setWidth 64) 0

/-- The threshold of a probability below one: `(prob.max(0.0) * (1u64 << 63) as f64) as u64`. -/
def probUpperBound (prob : Number binary64) : UInt64 :=
  .ofNat (((prob.max zero).mul (.ofNat binary64 (2 ^ 63))).truncate (2 ^ 64 - 1))

def sampleBasedOnProbability (prob : Number binary64) (traceId : TraceId) : SamplingDecision :=
  if one ≤ prob then .recordAndSample
  else
    let low := ((toBytes traceId).splitAt 8).2
    let traceIdLow := fromBeBytes low
    let rndFromTraceId := traceIdLow >>> 1
    if rndFromTraceId < (probUpperBound prob).toBitVec then .recordAndSample else .drop

/-! ## Samplers -/

section Samplers

-- `Value` is the type of attribute values, `asStr` their rendering as a string.
variable {Value : Type} (asStr : Value → String)

structure KeyValue (Value : Type) where
  key : String
  value : Value

structure SamplingResult (Value : Type) where
  decision : SamplingDecision
  attributes : List (KeyValue Value)
  traceState : TraceState

/-- The values of the last attributes keyed `protocol` and `request_type`. -/
def protocolAndRequestType (attributes : List (KeyValue Value)) : Option String × Option String :=
  attributes.foldl
    (fun (protocol, requestType) kv ↦
      match kv.key with
      | "protocol" => (some (asStr kv.value), requestType)
      | "request_type" => (protocol, some (asStr kv.value))
      | _ => (protocol, requestType))
    (none, none)

def TracingSampleOptions.shouldSample (options : TracingSampleOptions)
    (parentContext : Option Context) (traceId : TraceId) (attributes : List (KeyValue Value)) :
    SamplingResult Value :=
  let (protocol, requestType) := protocolAndRequestType asStr attributes
  let ratio := (protocol.bind fun p ↦
    options.rules.findSome? fun rule ↦ rule.matchRule p requestType).getD options.defaultRatio
  { decision := sampleBasedOnProbability ratio traceId
    attributes := []
    traceState :=
      match parentContext with
      | some ctx => ctx.spanContext.traceState
      | none => {} }

/-- The samplers that `createSampler` chooses between. -/
inductive Sampler where
  | traceIdRatioBased (prob : Number binary64)
  | ruleBased (options : TracingSampleOptions)

def createSampler (opt : TracingSampleOptions) : Sampler :=
  if opt.rules.isEmpty then .traceIdRatioBased opt.defaultRatio else .ruleBased opt

/-- The decision of a sampler; the SDK's own ratio sampler is the parameter `traceIdRatioBased`. -/
def Sampler.decision (traceIdRatioBased : Number binary64 → TraceId → SamplingDecision)
    (sampler : Sampler) (parentContext : Option Context) (traceId : TraceId)
    (attributes : List (KeyValue Value)) : SamplingDecision :=
  match sampler with
  | .traceIdRatioBased prob => traceIdRatioBased prob traceId
  | .ruleBased options => (options.shouldSample asStr parentContext traceId attributes).decision

end Samplers

end Filestore.Telemetry
