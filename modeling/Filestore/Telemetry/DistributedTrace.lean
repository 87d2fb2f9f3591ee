import Filestore.Telemetry.RuleSelection
import Filestore.Telemetry.TracingContext
import Filestore.Transition.Schedule
import Mathlib.Logic.Function.Basic

/-!
# Traces across services

Services with different sampling options start spans, send their contexts as JSON and receive
contexts, over a network that loses, repeats and reorders messages and garbles some beyond reading.
Every tracer gets a parent-based sampler, so the options of the service in which a trace begins
decide for the whole trace, and a message that cannot be read joins a trace at most to itself.
Messages that are forged, or garbled into those of another span, are outside the model.
-/

namespace Filestore.Telemetry

open Ieee Serde Transition

section Sampling

variable {Value : Type} (asStr : Value → String)
  (traceIdRatioBased : Number binary64 → TraceId → SamplingDecision)

/-- How the sampler that the logging gives to its tracer decides on a span without a parent: as the
created sampler, or always in favour when there is no sampling ratio. -/
def rootDecision (tracingSampleRatio : Option TracingSampleOptions) (parentContext : Option Context)
    (traceId : TraceId) (attributes : List (KeyValue Value)) : SamplingDecision :=
  match tracingSampleRatio.map createSampler with
  | some sampler => sampler.decision asStr traceIdRatioBased parentContext traceId attributes
  | none => .recordAndSample

end Sampling

/-- The tracer of the SDK with a parent-based sampler: a span follows its parent, and a span
without a parent begins the given trace and is decided by the root sampler. -/
structure Tracer (Value : Type) where
  startSpan : (Option Context → TraceId → List (KeyValue Value) → SamplingDecision) → Context →
    TraceId → SpanId → List (KeyValue Value) → SpanContext
  spanId_startSpan (root : Option Context → TraceId → List (KeyValue Value) → SamplingDecision)
    (parent : Context) (traceId : TraceId) (spanId : SpanId) (attributes : List (KeyValue Value)) :
    (startSpan root parent traceId spanId attributes).spanId = spanId
  child (root : Option Context → TraceId → List (KeyValue Value) → SamplingDecision)
    {parent : Context} {span : SpanContext} (traceId : TraceId) (spanId : SpanId)
    (attributes : List (KeyValue Value)) : parent.active = some span → span.isValid = true →
    (startSpan root parent traceId spanId attributes).traceId = span.traceId ∧
      (startSpan root parent traceId spanId attributes).isSampled = span.isSampled
  root (root : Option Context → TraceId → List (KeyValue Value) → SamplingDecision)
    {parent : Context} (traceId : TraceId) (spanId : SpanId)
    (attributes : List (KeyValue Value)) : parent.active = none →
    (startSpan root parent traceId spanId attributes).traceId = traceId ∧
      ((startSpan root parent traceId spanId attributes).isSampled = true ↔
        root (some parent) traceId attributes = .recordAndSample)

/-- The flags of a decision. -/
def decisionFlags (decision : SamplingDecision) : BitVec 8 :=
  if decision = .recordAndSample then SpanContext.sampledFlag else 0

theorem isSampled_decisionFlags (decision : SamplingDecision) {span : SpanContext}
    (hflags : span.traceFlags = decisionFlags decision) :
    span.isSampled = true ↔ decision = .recordAndSample := by
  rw [SpanContext.isSampled, hflags]
  cases decision <;> decide

/-- The tracer as the SDK documents it: a span has a local context with the flags of its decision,
and with the trace state of its parent if it is sampled. -/
def sdkTracer (Value : Type) : Tracer Value where
  startSpan root parent traceId spanId attributes :=
    match parent.active with
    | some span =>
      if span.isSampled then { span with
        spanId, traceFlags := decisionFlags .recordAndSample, isRemote := false }
      else {
        traceId := span.traceId
        spanId
        traceFlags := decisionFlags .drop
        isRemote := false
        traceState := {} }
    | none => {
      traceId
      spanId
      traceFlags := decisionFlags (root (some parent) traceId attributes)
      isRemote := false
      traceState := {} }
  spanId_startSpan root parent traceId spanId attributes := by
    split
    · split_ifs <;> rfl
    · rfl
  child root parent span traceId spanId attributes hactive _ := by
    simp only [hactive]
    split_ifs with hsampled
    · refine ⟨rfl, Bool.eq_iff_iff.mpr ?_⟩
      exact (isSampled_decisionFlags _ rfl).trans (iff_of_true rfl hsampled)
    · refine ⟨rfl, Bool.eq_iff_iff.mpr ?_⟩
      exact (isSampled_decisionFlags .drop rfl).trans (iff_of_false nofun hsampled)
  root root parent traceId spanId attributes hactive := by
    simp only [hactive]
    exact ⟨trivial, isSampled_decisionFlags _ rfl⟩

/-- A span without a parent, with the service that began it. -/
structure Root (ι Value : Type) where
  service : ι
  traceId : TraceId
  attributes : List (KeyValue Value)

/-- The services of a distributed system and its network. -/
structure World (ι Value : Type) where
  /-- The contexts that a service holds: those of its spans and those that it has received. -/
  contexts : ι → List Context
  /-- The messages that have been sent. -/
  messages : List String
  /-- The traces that have begun. -/
  roots : List (Root ι Value)

namespace World

variable {ι Value : Type}

def fresh : World ι Value where
  contexts _ := []
  messages := []
  roots := []

inductive Label (ι Value : Type) where
  /-- A span under a parent, or at the beginning of the trace with the given id. -/
  | startSpan (service : ι) (parent : Context) (traceId : TraceId) (spanId : SpanId)
      (attributes : List (KeyValue Value))
  | send (service : ι) (context : Context)
  /-- A message arrives while `current` is active on the receiving thread. -/
  | receive (service : ι) (current : Context) (text : String)

/-- A parameter for each part outside the program: the tracer, the W3C format and JSON, the
rendering of attributes, and the options of each service. -/
structure Env (ι Value : Type) where
  tracer : Tracer Value
  codec : W3cCodec
  json : JsonCodec
  asStr : Value → String
  traceIdRatioBased : Number binary64 → TraceId → SamplingDecision
  options : ι → Option TracingSampleOptions

variable (env : Env ι Value)

/-- The root sampler of a service. -/
def Env.sampler (service : ι) :
    Option Context → TraceId → List (KeyValue Value) → SamplingDecision :=
  rootDecision env.asStr env.traceIdRatioBased (env.options service)

/-- The service holds one more context. -/
def hold [DecidableEq ι] (world : World ι Value) (service : ι) (context : Context) :
    World ι Value :=
  { world with
    contexts := Function.update world.contexts service (context :: world.contexts service) }

/-- One step of one service.  Ids are not zero, and the id of a new trace has not been used before.
The network delivers what was sent, any number of times, or a text that holds no span context. -/
def step [DecidableEq ι] : Step (World ι Value) (Label ι Value) := fun world label ↦
  match label with
  | .startSpan service parent traceId spanId attributes =>
    if parent ∈ Context.new :: world.contexts service ∧ traceId ≠ 0 ∧ spanId ≠ 0 ∧
        ∀ root ∈ world.roots, root.traceId ≠ traceId then
      let span := env.tracer.startSpan (env.sampler service) parent traceId spanId attributes
      let roots :=
        if parent.active = none then ⟨service, traceId, attributes⟩ :: world.roots else world.roots
      some { world.hold service ⟨some span⟩ with roots }
    else none
  | .send service context =>
    if context ∈ Context.new :: world.contexts service then
      some { world with
        messages := (TracingContext.toJson env.codec env.json ⟨context⟩) :: world.messages }
    else none
  | .receive service current text =>
    if current ∈ Context.new :: world.contexts service ∧
        (text ∈ world.messages ∨ TracingContext.encodedInJson env.codec env.json text = none) then
      some (world.hold service (TracingContext.fromJson env.codec env.json current text).context)
    else none

/-! ## Every span belongs to a trace that has begun -/

/-- The span belongs to a trace that has begun, and is sampled as its root was decided. -/
def Belongs (roots : List (Root ι Value)) (span : SpanContext) : Prop :=
  ∃ root ∈ roots, root.traceId = span.traceId ∧ (span.isSampled = true ↔
    env.sampler root.service (some .new) root.traceId root.attributes = .recordAndSample)

/-- A context without a span, or of a valid span of a trace that has begun. -/
def Traces (roots : List (Root ι Value)) (context : Context) : Prop :=
  ∀ span ∈ context.active, span.isValid = true ∧ Belongs env roots span

/-- What services hold and send belongs to the traces that have begun, which are different ones. -/
structure Traced (world : World ι Value) : Prop where
  contexts : ∀ service, ∀ context ∈ world.contexts service, Traces env world.roots context
  messages : ∀ text ∈ world.messages,
    ∀ span ∈ TracingContext.encodedInJson env.codec env.json text, Belongs env world.roots span
  roots : (world.roots.map Root.traceId).Nodup

section Steps

variable {env : Env ι Value} {world next : World ι Value} {label : Label ι Value}

theorem Belongs.cons {roots : List (Root ι Value)} {span : SpanContext}
    (h : Belongs env roots span) (root : Root ι Value) : Belongs env (root :: roots) span := by
  obtain ⟨origin, hmem, hroot⟩ := h
  exact ⟨origin, List.mem_cons_of_mem root hmem, hroot⟩

/-- What another service makes of a span belongs to the same trace. -/
theorem Belongs.propagated {roots : List (Root ι Value)} {span : SpanContext}
    (h : Belongs env roots span) : Belongs env roots span.propagated := by
  rw [Belongs, SpanContext.isSampled_propagated]
  exact h

theorem Traces.new (roots : List (Root ι Value)) : Traces env roots .new := nofun

theorem Traced.of_fresh : Traced env fresh where
  contexts _ _ h := absurd h List.not_mem_nil
  messages _ h := absurd h List.not_mem_nil
  roots := List.nodup_nil

/-- The contexts that a service can use as a parent or send. -/
theorem Traced.traces (h : Traced env world) {service : ι} {context : Context}
    (hmem : context ∈ Context.new :: world.contexts service) :
    Traces env world.roots context := by
  rcases List.mem_cons.mp hmem with rfl | hmem
  · exact .new _
  · exact h.contexts service context hmem

/-- One more context that traces can be held. -/
theorem Traced.hold [DecidableEq ι] (h : Traced env world) (service : ι) {context : Context}
    (hcontext : Traces env world.roots context) : Traced env (world.hold service context) where
  contexts := by
    intro other held hheld
    by_cases hother : other = service
    · subst hother
      simp only [World.hold, Function.update_self, List.mem_cons] at hheld
      rcases hheld with rfl | hheld
      · exact hcontext
      · exact h.contexts other held hheld
    · simp only [World.hold, Function.update_of_ne hother] at hheld
      exact h.contexts other held hheld
  messages := h.messages
  roots := h.roots

/-- One more trace can begin. -/
theorem Traced.begin (h : Traced env world) (root : Root ι Value)
    (hnew : ∀ earlier ∈ world.roots, earlier.traceId ≠ root.traceId) :
    Traced env { world with roots := root :: world.roots } where
  contexts service context hmem span hspan :=
    (h.contexts service context hmem span hspan).imp_right (Belongs.cons · root)
  messages text hmem span hspan := (h.messages text hmem span hspan).cons root
  roots := by
    rw [List.map_cons, List.nodup_cons, List.mem_map]
    refine ⟨?_, h.roots⟩
    rintro ⟨earlier, hmem, htraceId⟩
    exact hnew earlier hmem htraceId

/-- What is decoded from a message comes from the message or is what was active. -/
theorem traces_fromJson {roots : List (Root ι Value)} {current : Context} {text : String}
    (hcurrent : Traces env roots current)
    (htext : ∀ span ∈ TracingContext.encodedInJson env.codec env.json text,
      Belongs env roots span) :
    Traces env roots (TracingContext.fromJson env.codec env.json current text).context := by
  have hencoded : env.codec.encodedIn ((env.json.fromStr text).getD ∅) =
      TracingContext.encodedInJson env.codec env.json text := by
    rw [TracingContext.encodedInJson]
    cases env.json.fromStr text <;> rfl
  rw [TracingContext.fromJson, TracingContext.fromW3c, W3cCodec.extractWithContext, hencoded]
  cases hmessage : TracingContext.encodedInJson env.codec env.json text with
  | none => exact hcurrent
  | some span =>
    rintro _ ⟨⟩
    refine ⟨?_, htext span hmessage⟩
    rw [← hencoded] at hmessage
    obtain ⟨parent, -, hdecode⟩ := Option.bind_eq_some_iff.mp hmessage
    exact env.codec.isValid_of_decode hdecode

theorem Traced.step [DecidableEq ι] (h : Traced env world)
    (hstep : World.step env world label = some next) :
    Traced env next := by
  cases label with
  | startSpan service parent traceId spanId attributes =>
    obtain ⟨⟨hparent, htraceId, hspanId, hnew⟩, hnext⟩ := Option.ite_none_right_eq_some.mp hstep
    obtain rfl := Option.some.inj hnext
    have hparentTraces := h.traces hparent
    have hspan := env.tracer.spanId_startSpan (env.sampler service) parent traceId spanId attributes
    cases hactive : parent.active with
    | none =>
      obtain ⟨hid, hsampled⟩ :=
        env.tracer.root (env.sampler service) traceId spanId attributes hactive
      obtain rfl : parent = .new := by
        cases parent
        subst hactive
        rfl
      rw [if_pos rfl]
      refine (h.begin ⟨service, traceId, attributes⟩ hnew).hold service ?_
      rintro _ ⟨⟩
      refine ⟨SpanContext.isValid_iff.mpr ?_, ?_⟩
      · rw [hid, hspan]
        exact ⟨htraceId, hspanId⟩
      · exact ⟨_, List.mem_cons_self, hid.symm, hsampled⟩
    | some span =>
      obtain ⟨hvalid, hbelongs⟩ := hparentTraces span hactive
      obtain ⟨hid, hsampled⟩ :=
        env.tracer.child (env.sampler service) traceId spanId attributes hactive hvalid
      rw [if_neg nofun]
      refine h.hold service ?_
      rintro _ ⟨⟩
      refine ⟨SpanContext.isValid_iff.mpr ?_, ?_⟩
      · rw [hid, hspan]
        exact ⟨(SpanContext.isValid_iff.mp hvalid).1, hspanId⟩
      · rw [Belongs, hid, hsampled]
        exact hbelongs
  | send service context =>
    obtain ⟨hcontext, hnext⟩ := Option.ite_none_right_eq_some.mp hstep
    obtain rfl := Option.some.inj hnext
    refine { h with messages := fun text hmem span hspan ↦ ?_ }
    rcases List.mem_cons.mp hmem with rfl | hmem
    · rw [TracingContext.encodedInJson_toJson] at hspan
      obtain ⟨carried, hcarried, rfl⟩ := Option.map_eq_some_iff.mp hspan
      exact (h.traces hcontext carried (Context.active_of_carried hcarried)).2.propagated
    · exact h.messages text hmem span hspan
  | receive service current text =>
    obtain ⟨⟨hcurrent, htext⟩, hnext⟩ := Option.ite_none_right_eq_some.mp hstep
    obtain rfl := Option.some.inj hnext
    refine h.hold service (traces_fromJson (h.traces hcurrent) fun span hspan ↦ ?_)
    rcases htext with hsent | hgarbled
    · exact h.messages text hsent span hspan
    · rw [hgarbled] at hspan
      cases hspan

end Steps

/-- Across all services every trace is sampled as a whole: each of its spans, local or received, is
sampled exactly if the options of the service in which the trace began sample it, where a service
without sampling options samples everything. -/
theorem trace_sampled_as_a_whole [DecidableEq ι] (env : Env ι Value)
    (hsdk : ∀ prob traceId,
      env.traceIdRatioBased prob traceId = sampleBasedOnProbability prob traceId)
    {world : World ι Value} (hreachable : (step env).Reachable fresh world) :
    (∀ service, ∀ context ∈ world.contexts service, ∀ span ∈ context.active,
      ∃ root ∈ world.roots, root.traceId = span.traceId ∧ (span.isSampled = true ↔
        ∀ options ∈ env.options root.service,
          sampleBasedOnProbability (options.ratio (lastValue env.asStr "protocol" root.attributes)
            (lastValue env.asStr "request_type" root.attributes)) span.traceId =
              .recordAndSample)) ∧
    (∀ service other, ∀ context ∈ world.contexts service, ∀ context' ∈ world.contexts other,
      ∀ span ∈ context.active, ∀ span' ∈ context'.active, span.traceId = span'.traceId →
        span.isSampled = span'.isSampled) := by
  have htraced : Traced env world :=
    hreachable.invariant (Traced env) .of_fresh fun _ _ _ h hstep ↦ h.step hstep
  constructor
  · intro service context hcontext span hspan
    obtain ⟨-, root, hroot, htraceId, hsampled⟩ :=
      htraced.contexts service context hcontext span hspan
    refine ⟨root, hroot, htraceId, ?_⟩
    rw [hsampled, Env.sampler, rootDecision, htraceId]
    cases env.options root.service with
    | none => simp
    | some options =>
      rw [Option.map_some]
      simp [createSampler_decision env.asStr hsdk]
  · intro service other context hcontext context' hcontext' span hspan span' hspan' hid
    obtain ⟨-, root, hroot, htraceId, hsampled⟩ :=
      htraced.contexts service context hcontext span hspan
    obtain ⟨-, root', hroot', htraceId', hsampled'⟩ :=
      htraced.contexts other context' hcontext' span' hspan'
    obtain rfl : root = root' := List.inj_on_of_nodup_map htraced.roots hroot hroot'
      (htraceId.trans (hid.trans htraceId'.symm))
    exact Bool.eq_iff_iff.mpr (hsampled.trans hsampled'.symm)

/-- Two services, the first of which samples only gRPC, behind a real format and tracer. -/
def grpcEnv : Env Bool String where
  tracer := sdkTracer String
  codec := w3cFormat
  json := jsonObjects
  asStr := id
  traceIdRatioBased := sampleBasedOnProbability
  options service := if service then some ⟨zero, [⟨"grpc", ∅, one⟩]⟩ else none

/-- The second service samples everything, but not the trace that it receives from the first one,
which began it without the protocol attribute. -/
theorem received_trace_not_sampled :
    ∃ world, (step grpcEnv).Reachable .fresh world ∧
      ∃ context ∈ world.contexts false, ∃ span ∈ context.active,
        span.traceId = 7 ∧ span.isSampled = false := by
  let span : SpanContext := ⟨7, 3, 0, false, {}⟩
  let text := TracingContext.toJson w3cFormat jsonObjects ⟨⟨some span⟩⟩
  let schedule : List (Label Bool String) :=
    [.startSpan true .new 7 3 [], .send true ⟨some span⟩, .receive false .new text]
  have hcontexts : ((step grpcEnv).run .fresh schedule).map
      (fun world ↦ (world.contexts true, world.contexts false)) =
        some ([⟨some span⟩], [⟨some span.propagated⟩]) := by
    decide +kernel
  obtain ⟨world, hrun, hworld⟩ := Option.map_eq_some_iff.mp hcontexts
  have hfirst : (⟨some span⟩ : Context) ∈ world.contexts true := by
    rw [(Prod.mk.inj hworld).1]
    exact List.mem_singleton_self _
  have hsecond : (⟨some span.propagated⟩ : Context) ∈ world.contexts false := by
    rw [(Prod.mk.inj hworld).2]
    exact List.mem_singleton_self _
  have hsame := (trace_sampled_as_a_whole grpcEnv (fun _ _ ↦ rfl) (.of_run hrun)).2
    true false _ hfirst _ hsecond span rfl span.propagated rfl rfl
  exact ⟨world, .of_run hrun, _, hsecond, _, rfl, rfl, hsame.symm.trans (by decide)⟩

end World

end Filestore.Telemetry
