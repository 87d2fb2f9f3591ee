import Mathlib.Data.List.Basic

/-!
# Span contexts

The part of a tracing context that crosses service boundaries: the ids of a trace and of a span,
the trace flags, and the trace state.  A context carries a span context when it has one and both
ids are nonzero.
-/

namespace Filestore.Telemetry

/-- The 128 bits of a trace id, most significant first. -/
abbrev TraceId := BitVec 128

abbrev SpanId := BitVec 64

/-- The vendor-specific part of a trace, in the form of its header. -/
structure TraceState where
  header : String := ""
  deriving DecidableEq, Inhabited

structure SpanContext where
  traceId : TraceId
  spanId : SpanId
  traceFlags : BitVec 8
  isRemote : Bool
  traceState : TraceState
  deriving DecidableEq

namespace SpanContext

/-- The context of no span. -/
def none : SpanContext where
  traceId := 0
  spanId := 0
  traceFlags := 0
  isRemote := false
  traceState := {}

def isValid (span : SpanContext) : Bool := span.traceId != 0 && span.spanId != 0

theorem isValid_iff {span : SpanContext} :
    span.isValid = true ↔ span.traceId ≠ 0 ∧ span.spanId ≠ 0 := by
  rw [isValid, Bool.and_eq_true, bne_iff_ne, bne_iff_ne]

/-- The only flag that is propagated. -/
def sampledFlag : BitVec 8 := 1

def isSampled (span : SpanContext) : Bool := span.traceFlags &&& sampledFlag == sampledFlag

/-- The span context that another service sees: only the sampled flag is kept. -/
def propagated (span : SpanContext) : SpanContext :=
  { span with traceFlags := span.traceFlags &&& sampledFlag, isRemote := true }

@[simp]
theorem isValid_propagated (span : SpanContext) : span.propagated.isValid = span.isValid := rfl

@[simp]
theorem isSampled_propagated (span : SpanContext) :
    span.propagated.isSampled = span.isSampled := by
  simp [isSampled, propagated, BitVec.and_assoc]

end SpanContext

/-- A context, reduced to its active span. -/
structure Context where
  active : Option SpanContext := none
  deriving DecidableEq, Inhabited

namespace Context

/-- A context with no span. -/
def new : Context := {}

/-- The span context of the active span, or the invalid one when there is no span. -/
def spanContext (context : Context) : SpanContext := context.active.getD .none

def withRemoteSpanContext (_context : Context) (span : SpanContext) : Context :=
  { active := some span }

/-- The span context that a context carries, if it is a valid one. -/
def carried (context : Context) : Option SpanContext :=
  if context.spanContext.isValid then some context.spanContext else none

/-- What a context carries is its active span. -/
theorem active_of_carried {context : Context} {span : SpanContext}
    (hcarried : context.carried = some span) : context.active = some span := by
  obtain ⟨hvalid, hspan⟩ := Option.ite_none_right_eq_some.mp hcarried
  obtain ⟨active⟩ := context
  cases active with
  | none => cases hvalid
  | some active => exact hspan

end Context

end Filestore.Telemetry
