import Filestore.Serde.Visitor
import Filestore.Telemetry.Logging
import Filestore.Telemetry.TracingSampler
import Filestore.Transition.Potential

/-!
# The global logging of a process

`init_global_logging` installs the subscriber of the process behind a `Once`: the first call builds
the layers and may panic on its way, every later call does nothing or finds the `Once` poisoned.
The unit-test variant runs it behind a second `Once` and keeps the guards.  The records that are
logged between the calls go to the queues of the writers, which are bounded and lose what finds them
full, and each writer runs until its guard tells it to stop.
-/

namespace Filestore.Telemetry

open Serde Transition

/-! ## Options -/

/-- Available log output formats. -/
inductive LogFormat where
  | json
  | text
  deriving DecidableEq

/-- OpenTelemetry Protocol (OTLP) export transport protocols. -/
inductive OtlpExportProtocol where
  | grpc
  | http
  deriving DecidableEq

/-- All options of the logging; those it extends decide which writers there are. -/
structure FullLoggingOptions extends LoggingOptions where
  level : Option String := none
  logFormat : LogFormat := .text
  maxLogFiles : ℕ := 720
  enableOtlpTracing : Bool := false
  otlpEndpoint : Option String := none
  tracingSampleRatio : Option TracingSampleOptions := none
  otlpExportProtocol : Option OtlpExportProtocol := none
  otlpHeaders : Visitor.StringMap := ∅

/-- What a call finds in its environment: variables, the terminal, the file system and the exporter
of the SDK, whose failures are the texts of their errors. -/
structure Host where
  rustLog : Option String := none
  unittestLogDir : Option String := none
  unittestLogLevel : Option String := none
  stdoutIsTerminal : Bool := false
  /-- The writers whose queues are full when the call itself logs. -/
  full (writer : WorkerGuard) : Bool := false
  /-- Build the rolling appender with a file name prefix in a directory. -/
  buildAppender (filenamePrefix dir : String) (maxLogFiles : ℕ) : Except String Unit := .ok ()
  /-- Build the span exporter for a protocol, an endpoint and headers. -/
  buildExporter (protocol : OtlpExportProtocol) (endpoint : String)
    (headers : Visitor.StringMap) : Except String Unit := .ok ()

/-- The panics of the initialisation; `e` is the text of the error that a part of the host gave. -/
inductive InitPanic where
  | logTracer
  | rollingAppender (dir e : String)
  | levelString
  | reloadHandleSet
  | exporter (protocol : OtlpExportProtocol) (e : String)
  | setGlobalDefault
  | oncePoisoned
  | lockPoisoned
  deriving DecidableEq

/-- The message of a panic, without the debug form of the error that an `expect` adds to it. -/
def InitPanic.message : InitPanic → String
  | .logTracer => "log tracer must be valid"
  | .rollingAppender dir e => s!"initializing rolling file appender at {dir} failed: {e}"
  | .levelString => "error parsing log level string"
  | .reloadHandleSet => "reload handle already set, maybe init_global_logging get called twice?"
  | .exporter .grpc _ => "Failed to create OTLP gRPC exporter "
  | .exporter .http _ => "Failed to create OTLP HTTP exporter "
  | .setGlobalDefault => "error setting global tracing subscriber"
  | .oncePoisoned => "Once instance has previously been poisoned"
  | .lockPoisoned => "called `Result::unwrap()` on an `Err` value"

/-- The handle is set by the body of one `Once` and the lock is taken by that of another, so two of
the checks cannot fail. -/
def InitPanic.canOccur : InitPanic → Bool
  | .reloadHandleSet | .lockPoisoned => false
  | .logTracer | .rollingAppender _ _ | .levelString | .exporter _ _ | .setGlobalDefault
  | .oncePoisoned => true

/-- A layer that formats records for a writer. -/
structure Layer where
  writer : WorkerGuard
  json : Bool
  ansi : Bool
  /-- Whether only records of the level `ERROR` pass. -/
  errorsOnly : Bool
  deriving DecidableEq

/-- The configuration of the span exporter. -/
structure Exporter where
  protocol : OtlpExportProtocol
  endpoint : String
  headers : Visitor.StringMap

def defaultOtlpGrpcEndpoint : String := "http://localhost:4317"

def defaultOtlpHttpEndpoint : String := "http://localhost:4318/v1/traces"

/-- Default log level filter when no specific configuration is provided. -/
def defaultLogTargets : String := "info"

namespace FullLoggingOptions

variable (opts : FullLoggingOptions)

/-- The layers of the subscriber, from the standard output to the errors. -/
def layers (host : Host) : List Layer :=
  let json : Bool := opts.logFormat = .json
  (if opts.appendStdout then [⟨.stdout, json, host.stdoutIsTerminal, false⟩] else []) ++
    if opts.dir = "" then [] else [⟨.file, json, false, false⟩, ⟨.errorFile, json, false, true⟩]

/-- Build the appenders of the two log files, if there is a directory for them. -/
def buildAppenders (host : Host) : Except InitPanic Unit :=
  if opts.dir = "" then .ok () else
  match host.buildAppender "rsketch" opts.dir opts.maxLogFiles with
  | .error e => .error (.rollingAppender opts.dir e)
  | .ok () =>
  match host.buildAppender "rsketch-err" opts.dir opts.maxLogFiles with
  | .error e => .error (.rollingAppender opts.dir e)
  | .ok () => .ok ()

/-- The text of the level filter. -/
def levelText (host : Host) : String := (opts.level.or host.rustLog).getD defaultLogTargets

/-- The exporter that `build_otlp_exporter` builds. -/
def exporter : Exporter :=
  let protocol := opts.otlpExportProtocol.getD .http
  let endpoint := (opts.otlpEndpoint.map fun e ↦
    if "http".toList.isPrefixOf e.toList then e else s!"http://{e}").getD
      (match protocol with
        | .grpc => defaultOtlpGrpcEndpoint
        | .http => defaultOtlpHttpEndpoint)
  match protocol with
  -- The headers are for the HTTP transport only.
  | .grpc => { protocol, endpoint, headers := ∅ }
  | .http => { protocol, endpoint, headers := opts.otlpHeaders }

/-- Build the exporter, if the tracing is exported. -/
def buildExporter (host : Host) : Except InitPanic Unit :=
  if opts.enableOtlpTracing then
    match host.buildExporter opts.exporter.protocol opts.exporter.endpoint
        opts.exporter.headers with
    | .error e => .error (.exporter opts.exporter.protocol e)
    | .ok () => .ok ()
  else .ok ()

end FullLoggingOptions

/-- Each layer has its writer's guard. -/
theorem FullLoggingOptions.map_writer_layers (opts : FullLoggingOptions) (host : Host) :
    (opts.layers host).map Layer.writer = opts.writerGuards := by
  by_cases hstdout : opts.appendStdout = true <;> by_cases hdir : opts.dir = "" <;>
    simp [layers, LoggingOptions.writerGuards, hstdout, hdir]

/-! ## The state of the process -/

/-- Where a `Once` is between two calls. -/
inductive Once where
  | incomplete
  | complete
  | poisoned
  deriving DecidableEq

inductive Level where
  | trace
  | debug
  | info
  | warn
  | error
  deriving DecidableEq

structure Record where
  level : Level
  target : String
  message : String
  fields : List (String × String) := []
  deriving DecidableEq

/-- A record that is logged, and the writers that lose it: to a full queue, or to a failed write. -/
structure Event where
  record : Record
  lost (writer : WorkerGuard) : Bool := false

/-- The level filters of the subscriber library. -/
structure TargetFilter (Targets : Type) where
  parse : String → Option Targets
  enabled : Targets → Record → Bool

/-- The subscriber that `init_global_logging` installs, with its filter behind the reload handle. -/
structure Subscriber (Targets : Type) where
  targets : Targets
  layers : List Layer
  /-- The exporter and the sampling options of its tracer, if the tracing is exported. -/
  tracer : Option (Exporter × Option TracingSampleOptions)
  serviceName : String
  serviceInstanceId : String

/-- The global default subscriber: the one above, or one of other code in the process. -/
inductive Dispatch (Targets : Type) where
  | installed (subscriber : Subscriber Targets)
  | foreign

structure LoggingState (Targets : Type) where
  /-- Whether the `log` crate has a logger. -/
  logger : Bool := false
  /-- The `Once` of `init_global_logging`. -/
  start : Once := .incomplete
  /-- Whether `RELOAD_HANDLE` is set. -/
  reloadHandle : Bool := false
  dispatch : Option (Dispatch Targets) := none
  /-- The `Once` of `init_default_ut_logging`. -/
  utStart : Once := .incomplete
  /-- The content of `GLOBAL_UT_LOG_GUARD`, and whether its lock is poisoned. -/
  utGuard : Option (List WorkerGuard) := none
  utPoisoned : Bool := false
  /-- The guards that calls have returned, those of them that their callers still hold, and those
  whose writers have not been told to stop. -/
  returned : List WorkerGuard := []
  held : List WorkerGuard := []
  running : List WorkerGuard := []
  /-- The panics of all calls. -/
  panics : List InitPanic := []
  /-- What each writer has written when it has caught up with its queue. -/
  written : WorkerGuard → List Record := fun _ ↦ []

namespace LoggingState

variable {Targets : Type} (filter : TargetFilter Targets)

/-- The body of the `Once` of `init_global_logging`: the guards, or the message of a panic. -/
def install (appName : String) (opts : FullLoggingOptions) (nodeId : Option String) (host : Host)
    (state : LoggingState Targets) : LoggingState Targets × Except InitPanic (List WorkerGuard) :=
  if state.logger then (state, .error .logTracer) else
  let state := { state with logger := true }
  match opts.buildAppenders host with
  | .error panic => (state, .error panic)
  | .ok () =>
  match filter.parse (opts.levelText host) with
  | none => (state, .error .levelString)
  | some targets =>
  if state.reloadHandle then (state, .error .reloadHandleSet) else
  let state := { state with reloadHandle := true }
  match opts.buildExporter host with
  | .error panic => (state, .error panic)
  | .ok () =>
  if state.dispatch.isSome then (state, .error .setGlobalDefault) else
  let subscriber : Subscriber Targets := {
    targets
    layers := opts.layers host
    tracer :=
      if opts.enableOtlpTracing then some (opts.exporter, opts.tracingSampleRatio) else none
    serviceName := appName
    serviceInstanceId := nodeId.getD "none" }
  ({ state with dispatch := some (.installed subscriber) },
    .ok ((opts.layers host).map Layer.writer))

/-- Initialize comprehensive logging with full configuration options. -/
def initGlobalLogging (appName : String) (opts : FullLoggingOptions) (nodeId : Option String)
    (host : Host) (state : LoggingState Targets) :
    LoggingState Targets × Except InitPanic (List WorkerGuard) :=
  match state.start with
  | .complete => (state, .ok [])
  | .poisoned => (state, .error .oncePoisoned)
  | .incomplete =>
    match state.install filter appName opts nodeId host with
    | (state, .ok guards) => ({ state with start := .complete }, .ok guards)
    | (state, .error panic) => ({ state with start := .poisoned }, .error panic)

/-- The writers that run: those of the callers and those of the unit tests, whose guards are never
dropped. -/
def live (state : LoggingState Targets) : List WorkerGuard :=
  state.running ++ state.utGuard.getD []

/-- The layer passes a record to its writer, which has room for it. -/
def passes (state : LoggingState Targets) (event : Event) (layer : Layer) : Bool :=
  (!layer.errorsOnly || event.record.level = .error) && layer.writer ∈ state.live &&
    !event.lost layer.writer

/-- What one record adds to the text of a writer. -/
def newRecords (state : LoggingState Targets) (event : Event) (layers : List Layer)
    (writer : WorkerGuard) : List Record :=
  (layers.filter fun layer ↦ layer.writer = writer && state.passes event layer).map
    fun _ ↦ event.record

/-- A record is written by each layer that passes it, if the targets of the subscriber enable it. -/
def log (event : Event) (state : LoggingState Targets) : LoggingState Targets :=
  match state.dispatch with
  | some (.installed subscriber) =>
    if filter.enabled subscriber.targets event.record then { state with
      written := fun writer ↦
        state.written writer ++ state.newRecords event subscriber.layers writer }
    else state
  | some .foreign | none => state

/-- The default level of the unit tests. -/
def unittestLogLevel : String :=
  "debug,hyper=warn,tower=warn,datafusion=warn,reqwest=warn,sqlparser=warn,h2=info," ++
    "opendal=info,rskafka=info"

/-- The options of the unit tests. -/
def unittestOpts (host : Host) : FullLoggingOptions where
  dir := host.unittestLogDir.getD "/tmp/__unittest_logs"
  level := some (host.unittestLogLevel.getD unittestLogLevel)

/-- What is logged after the initialisation for the unit tests. -/
def logsDirRecord (opts : FullLoggingOptions) : Record where
  level := .info
  target := "rsketch_common::telemetry::logging"
  message := s!"logs dir = {opts.dir}"

/-- Initialize logging specifically designed for unit tests. -/
def initDefaultUtLogging (host : Host) (state : LoggingState Targets) :
    LoggingState Targets × Except InitPanic Unit :=
  match state.utStart with
  | .complete => (state, .ok ())
  | .poisoned => (state, .error .oncePoisoned)
  | .incomplete =>
    if state.utPoisoned then ({ state with utStart := .poisoned }, .error .lockPoisoned) else
    let opts := unittestOpts host
    match state.initGlobalLogging filter "unittest" opts none host with
    | (state, .ok guards) =>
      ({ state with utGuard := some guards, utStart := .complete }.log filter
        ⟨logsDirRecord opts, host.full⟩, .ok ())
    | (state, .error panic) =>
      ({ state with utPoisoned := true, utStart := .poisoned }, .error panic)

/-- A call that has ended hands its guards to the caller, or is remembered by its panic. -/
def finish (called : LoggingState Targets × Except InitPanic (List WorkerGuard)) :
    LoggingState Targets :=
  match called with
  | (state, .ok guards) => { state with
      returned := state.returned ++ guards, held := state.held ++ guards
      running := state.running ++ guards }
  | (state, .error panic) => { state with panics := state.panics ++ [panic] }

inductive Label (Targets : Type) where
  | initGlobalLogging (appName : String) (opts : FullLoggingOptions) (nodeId : Option String)
      (host : Host)
  | initTracingSubscriber (appName : String) (host : Host)
  | initDefaultUtLogging (host : Host)
  /-- Other code sets the logger of the `log` crate, or the default subscriber. -/
  | foreignLogger
  | foreignSubscriber
  /-- The reload handle is used to change the targets. -/
  | reload (targets : Targets)
  | log (event : Event)
  /-- A caller drops a guard that it holds.  The writer is told to stop, unless its queue has no
  room for that message either. -/
  | dropGuard (writer : WorkerGuard) (told : Bool)

def step : Step (LoggingState Targets) (Label Targets) := fun state label ↦
  match label with
  | .initGlobalLogging appName opts nodeId host =>
    some (finish (state.initGlobalLogging filter appName opts nodeId host))
  | .initTracingSubscriber appName host =>
    some (finish (state.initGlobalLogging filter appName {} none host))
  | .initDefaultUtLogging host =>
    some (finish ((state.initDefaultUtLogging filter host).map id fun result ↦
      result.map fun _ ↦ []))
  | .foreignLogger => some { state with logger := true }
  | .foreignSubscriber =>
    some { state with dispatch := some (state.dispatch.getD .foreign) }
  | .reload targets =>
    match state.dispatch with
    | some (.installed subscriber) =>
      some { state with dispatch := some (.installed { subscriber with targets }) }
    | some .foreign | none => some state
  | .log event => some (state.log filter event)
  | .dropGuard writer told =>
    if writer ∈ state.held then some { state with
      held := state.held.erase writer
      running := if told then state.running.erase writer else state.running }
    else none

/-- A process in which no call has been made. -/
def fresh : LoggingState Targets := {}

/-! ## The `Once` decides -/

/-- The layers of the installed subscriber. -/
def layers (state : LoggingState Targets) : Option (List Layer) :=
  match state.dispatch with
  | some (.installed subscriber) => some subscriber.layers
  | some .foreign | none => none

/-- The guards that the unit tests keep. -/
def utGuards (state : LoggingState Targets) : List WorkerGuard := state.utGuard.getD []

/-- The global `Once` is complete exactly with the subscriber installed, and all guards of its
writers have gone to one owner: the caller, the unit tests, or `pending` in the middle of a call. -/
structure Consistent (pending : List WorkerGuard) (state : LoggingState Targets) : Prop where
  incomplete : state.start = .incomplete → state.reloadHandle = false
  installed : state.start = .complete ↔ state.layers.isSome = true
  guards : state.returned ++ pending ++ state.utGuards =
    (state.layers.getD []).map Layer.writer
  alone : state.returned = [] ∨ state.utGuards = []
  pending : pending ≠ [] → state.returned = [] ∧ state.utGuards = []
  running : state.running.Sublist state.returned
  lock : state.utPoisoned = true → state.utStart = .poisoned
  utGuard : state.utStart = .incomplete → state.utGuard = none
  panics : ∀ panic ∈ state.panics, panic.canOccur = true
  calm : state.start ≠ .poisoned → state.panics = [] ∧ state.utStart ≠ .poisoned

/-- Once the global `Once` has run or failed, its outcome is never changed. -/
structure Frozen (state next : LoggingState Targets) : Prop where
  start : next.start = state.start
  layers : next.layers = state.layers
  returned : next.returned = state.returned
  utGuards : next.utGuards = state.utGuards
  running : next.running.Sublist state.running

namespace Frozen

variable {state next later : LoggingState Targets}

theorem refl (state : LoggingState Targets) : Frozen state state := ⟨rfl, rfl, rfl, rfl, .refl _⟩

theorem trans (hfirst : Frozen state next) (hsecond : Frozen next later) : Frozen state later where
  start := hsecond.start.trans hfirst.start
  layers := hsecond.layers.trans hfirst.layers
  returned := hsecond.returned.trans hfirst.returned
  utGuards := hsecond.utGuards.trans hfirst.utGuards
  running := hsecond.running.trans hfirst.running

end Frozen

section Calls

variable (filter : TargetFilter Targets) (appName : String) (opts : FullLoggingOptions)
  (nodeId : Option String) (host : Host) {state : LoggingState Targets}

/-- The parts of the host fail with panics of their own. -/
theorem canOccur_of_buildAppenders {opts : FullLoggingOptions} {host : Host} {panic : InitPanic}
    (hpanic : opts.buildAppenders host = .error panic) : panic.canOccur = true := by
  unfold FullLoggingOptions.buildAppenders at hpanic
  split at hpanic
  · cases hpanic
  · split at hpanic
    · cases hpanic
      rfl
    · split at hpanic <;> cases hpanic
      rfl

theorem canOccur_of_buildExporter {opts : FullLoggingOptions} {host : Host} {panic : InitPanic}
    (hpanic : opts.buildExporter host = .error panic) : panic.canOccur = true := by
  unfold FullLoggingOptions.buildExporter at hpanic
  split at hpanic
  · split at hpanic <;> cases hpanic
    rfl
  · cases hpanic

/-- Everything that the body of the `Once` can do: it panics on its way, with nothing installed,
or it installs the subscriber. -/
theorem install_cases (hreload : state.reloadHandle = false) :
    (∃ logger reloadHandle panic, panic.canOccur = true ∧
      state.install filter appName opts nodeId host =
        ({ state with logger, reloadHandle }, .error panic)) ∨
    (∃ subscriber : Subscriber Targets, state.dispatch = none ∧
      subscriber.layers = opts.layers host ∧
      state.install filter appName opts nodeId host =
        ({ state with
            logger := true, reloadHandle := true, dispatch := some (.installed subscriber) },
          .ok (subscriber.layers.map Layer.writer))) := by
  simp only [install, hreload, Bool.false_eq_true, if_false]
  split
  · exact .inl ⟨_, _, .logTracer, rfl, rfl⟩
  split
  · rename_i panic hpanic
    exact .inl ⟨_, _, panic, canOccur_of_buildAppenders hpanic, rfl⟩
  split
  · exact .inl ⟨_, _, .levelString, rfl, rfl⟩
  split
  · rename_i panic hpanic
    exact .inl ⟨_, _, panic, canOccur_of_buildExporter hpanic, rfl⟩
  split
  · exact .inl ⟨_, _, .setGlobalDefault, rfl, rfl⟩
  · rename_i hdispatch
    exact .inr ⟨_, by simpa using hdispatch, rfl, rfl⟩

/-- A call runs the body once, and afterwards only tells how that went. -/
theorem initGlobalLogging_cases (hreload : state.start = .incomplete → state.reloadHandle = false) :
    (state.start = .complete ∧
      state.initGlobalLogging filter appName opts nodeId host = (state, .ok [])) ∨
    (state.start = .poisoned ∧
      state.initGlobalLogging filter appName opts nodeId host = (state, .error .oncePoisoned)) ∨
    (state.start = .incomplete ∧ ∃ logger reloadHandle panic, panic.canOccur = true ∧
      state.initGlobalLogging filter appName opts nodeId host =
        ({ state with logger, reloadHandle, start := .poisoned }, .error panic)) ∨
    (state.start = .incomplete ∧ ∃ subscriber : Subscriber Targets, state.dispatch = none ∧
      subscriber.layers = opts.layers host ∧
      state.initGlobalLogging filter appName opts nodeId host =
        ({ state with
            logger := true, reloadHandle := true, dispatch := some (.installed subscriber)
            start := .complete },
          .ok (subscriber.layers.map Layer.writer))) := by
  cases hstart : state.start with
  | complete => exact .inl ⟨rfl, by rw [initGlobalLogging, hstart]⟩
  | poisoned => exact .inr (.inl ⟨rfl, by rw [initGlobalLogging, hstart]⟩)
  | incomplete =>
    rcases install_cases filter appName opts nodeId host (hreload hstart) with
      ⟨logger, reloadHandle, panic, hpanic, hinstall⟩ | ⟨subscriber, hdispatch, hlayers, hinstall⟩
    · refine .inr (.inr (.inl ⟨rfl, logger, reloadHandle, panic, hpanic, ?_⟩))
      rw [initGlobalLogging, hstart, hinstall]
    · refine .inr (.inr (.inr ⟨rfl, subscriber, hdispatch, hlayers, ?_⟩))
      rw [initGlobalLogging, hstart, hinstall]

namespace Consistent

theorem of_fresh : Consistent [] (fresh : LoggingState Targets) where
  incomplete _ := rfl
  installed := iff_of_false nofun nofun
  guards := rfl
  alone := .inl rfl
  pending := absurd rfl
  running := .refl _
  lock := nofun
  utGuard _ := rfl
  panics := nofun
  calm _ := ⟨rfl, nofun⟩

/-- As long as nothing is installed, nobody has a guard. -/
theorem no_guards (h : Consistent [] state) (hstart : state.start ≠ .complete) :
    state.layers = none ∧ state.returned = [] ∧ state.utGuards = [] := by
  have hlayers : state.layers = none :=
    Option.not_isSome_iff_eq_none.mp (mt h.installed.mpr hstart)
  have hguards := h.guards
  rw [hlayers] at hguards
  obtain ⟨hreturned, hut⟩ : state.returned = [] ∧ state.utGuards = [] := by simpa using hguards
  exact ⟨hlayers, hreturned, hut⟩

/-- A call leaves its guards to whoever made it, or panics. -/
theorem initGlobalLogging (h : Consistent [] state) :
    match state.initGlobalLogging filter appName opts nodeId host with
    | (next, .ok guards) => Consistent guards next
    | (next, .error panic) =>
      Consistent [] next ∧ next.start = .poisoned ∧ panic.canOccur = true := by
  rcases initGlobalLogging_cases filter appName opts nodeId host h.incomplete with
    ⟨-, hcall⟩ | ⟨hstart, hcall⟩ |
    ⟨hstart, logger, reloadHandle, panic, hpanic, hcall⟩ |
    ⟨hstart, subscriber, hdispatch, hlayers, hcall⟩
  · rw [hcall]
    exact h
  · rw [hcall]
    exact ⟨h, hstart, rfl⟩
  · rw [hcall]
    obtain ⟨hnone, -⟩ := h.no_guards (by simp [hstart])
    refine ⟨{ h with
      incomplete := nofun, installed := iff_of_false nofun ?_, calm := absurd rfl }, rfl, hpanic⟩
    rw [Bool.not_eq_true, Option.isSome_eq_false_iff, Option.isNone_iff_eq_none]
    exact hnone
  · rw [hcall]
    obtain ⟨-, hreturned, hut⟩ := h.no_guards (by simp [hstart])
    exact { h with
      incomplete := nofun
      installed := iff_of_true rfl rfl
      guards := by
        change state.returned ++ _ ++ state.utGuards = _
        rw [hreturned, hut, List.nil_append, List.append_nil]
        rfl
      pending := fun _ ↦ ⟨hreturned, hut⟩
      calm := fun _ ↦ h.calm (by simp [hstart]) }

/-- The caller takes the guards. -/
theorem hand {guards : List WorkerGuard} (h : Consistent guards state) :
    Consistent [] { state with
      returned := state.returned ++ guards, held := state.held ++ guards
      running := state.running ++ guards } :=
  { h with
    guards := by
      change state.returned ++ guards ++ [] ++ state.utGuards = _
      rw [List.append_nil]
      exact h.guards
    alone := by
      change state.returned ++ guards = [] ∨ state.utGuards = []
      by_cases hguards : guards = []
      · rw [hguards, List.append_nil]
        exact h.alone
      · exact .inr (h.pending hguards).2
    pending := absurd rfl
    running := h.running.append (.refl guards) }

/-- The unit tests take the guards. -/
theorem store {guards : List WorkerGuard} (h : Consistent guards state)
    (hut : state.utStart = .incomplete) :
    Consistent [] { state with utGuard := some guards, utStart := .complete } := by
  have hnone : state.utGuards = [] := by rw [utGuards, h.utGuard hut]; rfl
  have hguards := h.guards
  rw [hnone, List.append_nil] at hguards
  exact { h with
    guards := by
      change state.returned ++ [] ++ guards = _
      rw [List.append_nil]
      exact hguards
    alone := by
      by_cases hempty : guards = []
      · exact .inr hempty
      · exact .inl (h.pending hempty).1
    pending := absurd rfl
    lock := fun hpoisoned ↦ by cases hut.symm.trans (h.lock hpoisoned)
    utGuard := nofun
    calm := fun hstart ↦ ⟨(h.calm hstart).1, nofun⟩ }

theorem panic (h : Consistent [] state) (hstart : state.start = .poisoned) {panic : InitPanic}
    (hpanic : panic.canOccur = true) :
    Consistent [] { state with panics := state.panics ++ [panic] } :=
  { h with
    panics := by simpa [or_imp, forall_and, hpanic] using h.panics
    calm := fun hne ↦ absurd hstart hne }

/-- A new default subscriber does not matter as long as the layers stay. -/
theorem of_layers_eq (h : Consistent [] state) {dispatch : Option (Dispatch Targets)}
    (hlayers : layers { state with dispatch } = state.layers) :
    Consistent [] { state with dispatch } :=
  { h with
    installed := by rw [hlayers]; exact h.installed
    guards := by rw [hlayers]; exact h.guards }

end Consistent

/-- A call leaves the `Once` of the unit tests alone. -/
theorem utStart_initGlobalLogging
    (hreload : state.start = .incomplete → state.reloadHandle = false) :
    (state.initGlobalLogging filter appName opts nodeId host).1.utStart = state.utStart := by
  rcases initGlobalLogging_cases filter appName opts nodeId host hreload with
    ⟨-, hcall⟩ | ⟨-, hcall⟩ |
    ⟨-, _, _, _, -, hcall⟩ | ⟨-, _, -, -, hcall⟩ <;> rw [hcall]

/-- Logging only writes. -/
theorem exists_log (event : Event) (state : LoggingState Targets) :
    ∃ written, state.log filter event = { state with written } := by
  unfold log
  split
  · split_ifs
    · exact ⟨_, rfl⟩
    · exact ⟨state.written, rfl⟩
  · exact ⟨state.written, rfl⟩
  · exact ⟨state.written, rfl⟩

theorem Consistent.log (h : Consistent [] state) (event : Event) :
    Consistent [] (state.log filter event) := by
  obtain ⟨written, hlog⟩ := exists_log filter event state
  rw [hlog]
  exact { h with }

end Calls

section Steps

variable {filter : TargetFilter Targets} {state next : LoggingState Targets}
  {label : Label Targets}

/-- Everything that the initialisation for the unit tests can do: nothing if it has run, a panic, or
to store the guards of the call and log. -/
theorem initDefaultUtLogging_cases (h : Consistent [] state) {host : Host}
    (hstep : step filter state (.initDefaultUtLogging host) = some next) :
    (state.utStart = .complete ∧ next = state) ∨
    (state.utStart = .poisoned ∧
      next = { state with panics := state.panics ++ [.oncePoisoned] }) ∨
    (state.utStart = .incomplete ∧ ∃ called panic,
      state.initGlobalLogging filter "unittest" (unittestOpts host) none host =
        (called, .error panic) ∧
      next = { called with
        utPoisoned := true, utStart := .poisoned, panics := called.panics ++ [panic] }) ∨
    (state.utStart = .incomplete ∧ ∃ called guards,
      state.initGlobalLogging filter "unittest" (unittestOpts host) none host =
        (called, .ok guards) ∧
      next = { called with utGuard := some guards, utStart := .complete }.log filter
        ⟨logsDirRecord (unittestOpts host), host.full⟩) := by
  obtain rfl := Option.some.inj hstep
  unfold LoggingState.initDefaultUtLogging
  split
  · rename_i hut
    exact .inl ⟨hut, by simp [finish, Except.map]⟩
  · rename_i hut
    exact .inr (.inl ⟨hut, rfl⟩)
  · rename_i hut
    have hlock : state.utPoisoned = false := by
      rw [← Bool.not_eq_true]
      exact fun hpoisoned ↦ by cases hut.symm.trans (h.lock hpoisoned)
    rw [if_neg (by simp [hlock])]
    dsimp only
    split
    · rename_i called guards hresult
      exact .inr (.inr (.inr ⟨hut, called, guards, hresult, by simp [finish, Except.map]⟩))
    · rename_i called panic hresult
      exact .inr (.inr (.inl ⟨hut, called, panic, hresult, rfl⟩))

theorem Consistent.initDefaultUtLogging (h : Consistent [] state) {host : Host}
    (hstep : LoggingState.step filter state (.initDefaultUtLogging host) = some next) :
    Consistent [] next := by
  have hcall := h.initGlobalLogging filter "unittest" (unittestOpts host) none host
  have hframe := utStart_initGlobalLogging filter "unittest" (unittestOpts host) none host
    h.incomplete
  rcases initDefaultUtLogging_cases h hstep with
    ⟨-, rfl⟩ | ⟨hut, rfl⟩ | ⟨-, called, panic, hresult, rfl⟩ | ⟨hut, called, guards, hresult, rfl⟩
  · exact h
  · have hstart : state.start = .poisoned := by
      by_contra hne
      exact (h.calm hne).2 hut
    exact h.panic hstart rfl
  · rw [hresult] at hcall
    have hpoisoned : Consistent [] { called with utPoisoned := true, utStart := .poisoned } :=
      { hcall.1 with
        lock := fun _ ↦ rfl, utGuard := nofun, calm := fun hne ↦ absurd hcall.2.1 hne }
    exact hpoisoned.panic hcall.2.1 hcall.2.2
  · rw [hresult] at hcall hframe
    exact (hcall.store (hframe.trans hut)).log filter _

theorem Consistent.finish_initGlobalLogging (h : Consistent [] state) (appName : String)
    (opts : FullLoggingOptions) (nodeId : Option String) (host : Host) :
    Consistent [] (finish (state.initGlobalLogging filter appName opts nodeId host)) := by
  have hcall := h.initGlobalLogging filter appName opts nodeId host
  unfold finish
  split
  · rename_i called guards hresult
    rw [hresult] at hcall
    exact hcall.hand
  · rename_i called panic hresult
    rw [hresult] at hcall
    exact hcall.1.panic hcall.2.1 hcall.2.2

/-- No step changes more than the filter of an installed subscriber. -/
theorem Consistent.step (h : Consistent [] state)
    (hstep : LoggingState.step filter state label = some next) : Consistent [] next := by
  cases label with
  | initGlobalLogging appName opts nodeId host =>
    obtain rfl := Option.some.inj hstep
    exact h.finish_initGlobalLogging appName opts nodeId host
  | initTracingSubscriber appName host =>
    obtain rfl := Option.some.inj hstep
    exact h.finish_initGlobalLogging appName {} none host
  | initDefaultUtLogging host =>
    exact h.initDefaultUtLogging hstep
  | foreignLogger =>
    obtain rfl := Option.some.inj hstep
    exact { h with }
  | foreignSubscriber =>
    obtain rfl := Option.some.inj hstep
    exact h.of_layers_eq (by cases hdispatch : state.dispatch <;> simp [layers, hdispatch])
  | reload targets =>
    cases hdispatch : state.dispatch with
    | none =>
      obtain rfl : state = next := by simpa [LoggingState.step, hdispatch] using hstep
      exact h
    | some dispatch =>
      cases dispatch with
      | installed subscriber =>
        obtain rfl : { state with dispatch := some (.installed { subscriber with targets }) } =
            next := by simpa [LoggingState.step, hdispatch] using hstep
        exact h.of_layers_eq (by simp [layers, hdispatch])
      | foreign =>
        obtain rfl : state = next := by simpa [LoggingState.step, hdispatch] using hstep
        exact h
  | log event =>
    obtain rfl := Option.some.inj hstep
    exact h.log filter event
  | dropGuard writer told =>
    unfold LoggingState.step at hstep
    dsimp only at hstep
    split_ifs at hstep <;> obtain rfl := Option.some.inj hstep
    · exact { h with running := (List.erase_sublist ..).trans h.running }
    · exact { h with }

end Steps

/-! ## Where the records go -/

section

variable {Targets : Type} (filter : TargetFilter Targets)

/-- The event reaches the text of a writer: the targets enable it, the writer runs and has room for
it, and it is an error if the writer is that of the error log. -/
def reaches (state : LoggingState Targets) (event : Event) (writer : WorkerGuard) : Bool :=
  match state.dispatch with
  | some (.installed subscriber) =>
    filter.enabled subscriber.targets event.record && writer ∈ state.live && !event.lost writer &&
      (writer ≠ .errorFile || event.record.level = .error)
  | some .foreign | none => false

/-- The events of a step: that of the caller, or that of the initialisation for the unit tests. -/
def Label.events (state next : LoggingState Targets) : Label Targets → List Event
  | .log event => [event]
  | .initDefaultUtLogging host =>
    if state.utStart = .incomplete ∧ next.utStart = .complete then
      [⟨logsDirRecord (unittestOpts host), host.full⟩]
    else []
  | .initGlobalLogging .. | .initTracingSubscriber .. | .foreignLogger | .foreignSubscriber
  | .reload _ | .dropGuard .. => []

/-- What a step adds to the text of a writer: those of its events that reach it. -/
def delivered (writer : WorkerGuard) (state : LoggingState Targets) (label : Label Targets) :
    List Record :=
  ((step filter state label).map fun next ↦
    ((label.events state next).filter fun event ↦ next.reaches filter event writer).map
      Event.record).getD []

end

/-- The layers are those of some options, and nothing is written to other writers. -/
structure Routed (state : LoggingState Targets) : Prop where
  layers : ∀ layers ∈ state.layers, ∃ (opts : FullLoggingOptions) (host : Host),
    layers = opts.layers host
  absent : ∀ writer ∉ (state.layers.getD []).map Layer.writer, state.written writer = []

section Routing

variable {filter : TargetFilter Targets} {state next : LoggingState Targets}
  {label : Label Targets}

theorem newRecords_eq (event : Event) (opts : FullLoggingOptions) (host : Host)
    (writer : WorkerGuard) :
    state.newRecords event (opts.layers host) writer =
      if writer ∈ opts.writerGuards ∧ writer ∈ state.live ∧ event.lost writer = false ∧
        (writer = .errorFile → event.record.level = .error) then [event.record] else [] := by
  by_cases hlive : writer ∈ state.live ∧ event.lost writer = false
  · cases writer <;> by_cases hstdout : opts.appendStdout = true <;>
      by_cases hdir : opts.dir = "" <;>
      simp [newRecords, passes, FullLoggingOptions.layers, LoggingOptions.writerGuards, hstdout,
        hdir, hlive, List.filter_cons]
    all_goals split_ifs <;> rfl
  · rw [if_neg fun h ↦ hlive ⟨h.2.1, h.2.2.1⟩, newRecords, List.map_eq_nil_iff,
      List.filter_eq_nil_iff]
    rintro layer - hlayer
    obtain ⟨rfl, hpasses⟩ : layer.writer = writer ∧ state.passes event layer = true := by
      simpa using hlayer
    simp only [passes, Bool.and_eq_true, decide_eq_true_eq, Bool.not_eq_true'] at hpasses
    exact hlive ⟨hpasses.1.2, hpasses.2⟩

/-- Only writers of the subscriber run. -/
theorem Consistent.mem_of_live (h : Consistent [] state) {writer : WorkerGuard}
    (hlive : writer ∈ state.live) : writer ∈ (state.layers.getD []).map Layer.writer := by
  have hguards := h.guards
  rw [List.append_nil] at hguards
  rw [← hguards, List.mem_append]
  exact (List.mem_append.mp hlive).imp_left fun hrunning ↦ h.running.subset hrunning

theorem reaches_of_not_mem_live {event : Event} {writer : WorkerGuard}
    (hlive : writer ∉ state.live) : state.reaches filter event writer = false := by
  unfold reaches
  split <;> simp [hlive]

/-- Where there is no subscriber, an event reaches no writer. -/
theorem reaches_of_layers (hlayers : state.layers = none) (event : Event) (writer : WorkerGuard) :
    state.reaches filter event writer = false := by
  unfold reaches
  split
  · rename_i subscriber hdispatch
    rw [layers, hdispatch] at hlayers
    cases hlayers
  · rfl
  · rfl

/-- After a panic of the logging there is no subscriber of it. -/
theorem Consistent.layers_of_panics (h : Consistent [] state) (hpanics : state.panics ≠ []) :
    state.layers = none := by
  have hstart : state.start = .poisoned := by
    by_contra hne
    exact hpanics (h.calm hne).1
  exact (h.no_guards (by simp [hstart])).1

theorem reaches_log (logged event : Event) (writer : WorkerGuard) :
    (state.log filter logged).reaches filter event writer = state.reaches filter event writer := by
  obtain ⟨written, hlog⟩ := exists_log filter logged state
  rw [hlog]
  rfl

theorem map_filter_reaches (event : Event) (writer : WorkerGuard) :
    ([event].filter fun event ↦ state.reaches filter event writer).map Event.record =
      if state.reaches filter event writer then [event.record] else [] := by
  cases hreaches : state.reaches filter event writer <;> simp [hreaches]

/-- An event is added to the text of each writer that it reaches. -/
theorem Routed.written_log (h : Routed state) (hconsistent : Consistent [] state) (event : Event)
    (writer : WorkerGuard) :
    (state.log filter event).written writer = state.written writer ++
      if state.reaches filter event writer then [event.record] else [] := by
  unfold LoggingState.log
  split
  · rename_i subscriber hdispatch
    have hlayers : state.layers = some subscriber.layers := by
      rw [LoggingState.layers, hdispatch]
    obtain ⟨opts, host, hopts⟩ := h.layers _ hlayers
    have hmem : writer ∈ state.live → writer ∈ opts.writerGuards := by
      intro hlive
      have hwriter := hconsistent.mem_of_live hlive
      rw [hlayers, Option.getD_some, hopts, FullLoggingOptions.map_writer_layers] at hwriter
      exact hwriter
    rw [reaches, hdispatch]
    cases henabled : filter.enabled subscriber.targets event.record with
    | false => simp [henabled]
    | true =>
      rw [if_pos rfl, hopts]
      change state.written writer ++ _ = _
      rw [newRecords_eq]
      congr 1
      by_cases hlive : writer ∈ state.live
      · cases hlost : event.lost writer <;> cases writer <;> simp [henabled, hlive, hmem]
      · rw [if_neg fun h ↦ hlive h.2.1]
        simp [hlive]
  · rename_i hdispatch
    simp [reaches, hdispatch]
  · rename_i hdispatch
    simp [reaches, hdispatch]

theorem Routed.of_fresh : Routed (fresh : LoggingState Targets) where
  layers := nofun
  absent _ _ := rfl

/-- A step that writes nothing keeps the texts in order, also if it installs the subscriber. -/
theorem Routed.of_written_eq (h : Routed state) (hwritten : next.written = state.written)
    (hlayers : next.layers = state.layers ∨ state.layers = none ∧
      ∃ (opts : FullLoggingOptions) (host : Host), next.layers = some (opts.layers host)) :
    Routed next := by
  rcases hlayers with hlayers | ⟨hnone, opts, host, hlayers⟩
  · exact ⟨hlayers ▸ h.layers, by rw [hlayers, hwritten]; exact h.absent⟩
  · refine ⟨?_, fun writer _ ↦ ?_⟩
    · rintro layers hmem
      rw [hlayers] at hmem
      exact ⟨opts, host, (Option.some.inj hmem).symm⟩
    · rw [hwritten]
      exact h.absent writer (by simp [hnone])

theorem Routed.log (h : Routed state) (hconsistent : Consistent [] state) (event : Event) :
    Routed (state.log filter event) := by
  have hwritten (writer : WorkerGuard) : (state.log filter event).written writer = _ :=
    h.written_log hconsistent event writer
  obtain ⟨written, hlog⟩ := exists_log filter event state
  rw [hlog] at hwritten ⊢
  refine ⟨h.layers, fun writer hwriter ↦ (hwritten writer).trans ?_⟩
  change writer ∉ (state.layers.getD []).map Layer.writer at hwriter
  rw [h.absent writer hwriter, reaches_of_not_mem_live (mt hconsistent.mem_of_live hwriter)]
  rfl

theorem written_finish (called : LoggingState Targets × Except InitPanic (List WorkerGuard)) :
    (finish called).written = called.1.written := by
  unfold finish
  split <;> rfl

/-- A call writes nothing, and puts its layers where there were none. -/
theorem written_initGlobalLogging (h : Consistent [] state) (filter : TargetFilter Targets)
    (appName : String) (opts : FullLoggingOptions) (nodeId : Option String) (host : Host) :
    (state.initGlobalLogging filter appName opts nodeId host).1.written = state.written ∧
      ((state.initGlobalLogging filter appName opts nodeId host).1.layers = state.layers ∨
        state.layers = none ∧ ∃ (opts' : FullLoggingOptions) (host' : Host),
          (state.initGlobalLogging filter appName opts nodeId host).1.layers =
            some (opts'.layers host')) := by
  rcases initGlobalLogging_cases filter appName opts nodeId host h.incomplete with
    ⟨-, hcall⟩ | ⟨-, hcall⟩ | ⟨-, _, _, _, -, hcall⟩ | ⟨hstart, subscriber, -, hlayers, hcall⟩
  · rw [hcall]
    exact ⟨rfl, .inl rfl⟩
  · rw [hcall]
    exact ⟨rfl, .inl rfl⟩
  · rw [hcall]
    exact ⟨rfl, .inl rfl⟩
  · rw [hcall]
    exact ⟨rfl, .inr ⟨(h.no_guards (by simp [hstart])).1, opts, host, congrArg some hlayers⟩⟩

/-- A call that returns has the guards of its options, exactly if it is the first one. -/
theorem guards_initGlobalLogging (h : Consistent [] state) (filter : TargetFilter Targets)
    (appName : String) (opts : FullLoggingOptions) (nodeId : Option String) (host : Host)
    {guards : List WorkerGuard}
    (hguards : (state.initGlobalLogging filter appName opts nodeId host).2 = .ok guards) :
    guards = Telemetry.initGlobalLogging opts.toLoggingOptions (state.start = .complete) := by
  rcases initGlobalLogging_cases filter appName opts nodeId host h.incomplete with
    ⟨hstart, hcall⟩ | ⟨-, hcall⟩ | ⟨-, _, _, _, -, hcall⟩ |
    ⟨hstart, subscriber, -, hlayers, hcall⟩ <;> rw [hcall] at hguards
  · obtain rfl := Except.ok.inj hguards
    simp [Telemetry.initGlobalLogging, hstart]
  · cases hguards
  · cases hguards
  · obtain rfl := Except.ok.inj hguards
    rw [hlayers, opts.map_writer_layers host]
    simp [Telemetry.initGlobalLogging, hstart]

/-- A call that ends, in whatever way, keeps the texts in order. -/
theorem Routed.finish_initGlobalLogging (h : Routed state) (hconsistent : Consistent [] state)
    (appName : String) (opts : FullLoggingOptions) (nodeId : Option String) (host : Host) :
    Routed (finish (state.initGlobalLogging filter appName opts nodeId host)) := by
  obtain ⟨hwritten, hlayers⟩ :=
    written_initGlobalLogging hconsistent filter appName opts nodeId host
  unfold finish
  split <;> rename_i hresult <;> rw [hresult] at hwritten hlayers <;>
    exact h.of_written_eq hwritten hlayers

/-- The initialisation for the unit tests keeps the texts in order, and adds to them what its own
event does if it completes. -/
theorem Routed.initDefaultUtLogging (h : Routed state) (hconsistent : Consistent [] state)
    {host : Host}
    (hstep : LoggingState.step filter state (.initDefaultUtLogging host) = some next) :
    Routed next ∧ ∀ writer, next.written writer =
      state.written writer ++ delivered filter writer state (.initDefaultUtLogging host) := by
  simp only [delivered, hstep, Option.map_some, Option.getD_some, Label.events]
  obtain ⟨hwritten, hlayers⟩ :=
    written_initGlobalLogging hconsistent filter "unittest" (unittestOpts host) none host
  have hcall := hconsistent.initGlobalLogging filter "unittest" (unittestOpts host) none host
  have hframe := utStart_initGlobalLogging filter "unittest" (unittestOpts host) none host
    hconsistent.incomplete
  rcases initDefaultUtLogging_cases hconsistent hstep with
    ⟨hut, rfl⟩ | ⟨hut, rfl⟩ | ⟨hut, called, panic, hresult, rfl⟩ |
    ⟨hut, called, guards, hresult, rfl⟩
  · exact ⟨h, fun writer ↦ by simp [hut]⟩
  · exact ⟨h.of_written_eq rfl (.inl rfl), fun writer ↦ by simp [hut]⟩
  · rw [hresult] at hwritten hlayers
    exact ⟨h.of_written_eq hwritten hlayers, fun writer ↦ by simpa using congrFun hwritten writer⟩
  · rw [hresult] at hwritten hlayers hcall hframe
    have hconsistent' := hcall.store (hframe.trans hut)
    have hrouted : Routed { called with utGuard := some guards, utStart := .complete } :=
      h.of_written_eq hwritten hlayers
    refine ⟨hrouted.log hconsistent' _, fun writer ↦ ?_⟩
    have hcomplete (event : Event) :
        ({ called with utGuard := some guards, utStart := .complete }.log filter event).utStart =
          .complete := by
      obtain ⟨written, hlog⟩ := exists_log filter event
        { called with utGuard := some guards, utStart := .complete }
      rw [hlog]
    rw [hrouted.written_log hconsistent', if_pos (And.intro hut (hcomplete _)),
      map_filter_reaches, reaches_log]
    exact congrArg (· ++ _) (congrFun hwritten writer)

/-- Every step keeps the texts in order, and adds to the text of a writer the events that reach
it. -/
theorem Routed.step (h : Routed state) (hconsistent : Consistent [] state)
    (hstep : LoggingState.step filter state label = some next) :
    Routed next ∧ ∀ writer,
      next.written writer = state.written writer ++ delivered filter writer state label := by
  -- A step that logs nothing leaves the texts alone.
  have hsilent (hevents : label.events state next = []) (hnext : Routed next)
      (hwritten : next.written = state.written) :
      Routed next ∧ ∀ writer,
        next.written writer = state.written writer ++ delivered filter writer state label := by
    refine ⟨hnext, fun writer ↦ ?_⟩
    rw [delivered, hstep, Option.map_some, hevents, hwritten]
    exact (List.append_nil _).symm
  cases label with
  | initGlobalLogging appName opts nodeId host =>
    have hcall := written_initGlobalLogging hconsistent filter appName opts nodeId host
    obtain rfl := Option.some.inj hstep
    exact hsilent rfl (h.finish_initGlobalLogging hconsistent appName opts nodeId host)
      ((written_finish _).trans hcall.1)
  | initTracingSubscriber appName host =>
    have hcall := written_initGlobalLogging hconsistent filter appName {} none host
    obtain rfl := Option.some.inj hstep
    exact hsilent rfl (h.finish_initGlobalLogging hconsistent appName {} none host)
      ((written_finish _).trans hcall.1)
  | initDefaultUtLogging host => exact h.initDefaultUtLogging hconsistent hstep
  | foreignLogger =>
    obtain rfl := Option.some.inj hstep
    exact hsilent rfl (h.of_written_eq rfl (.inl rfl)) rfl
  | foreignSubscriber =>
    obtain rfl := Option.some.inj hstep
    refine hsilent rfl (h.of_written_eq rfl (.inl ?_)) rfl
    cases hdispatch : state.dispatch <;> simp [LoggingState.layers, hdispatch]
  | reload targets =>
    have hreload := hstep
    unfold LoggingState.step at hreload
    dsimp only at hreload
    split at hreload <;> rename_i hdispatch <;> obtain rfl := Option.some.inj hreload
    · exact hsilent rfl
        (h.of_written_eq rfl (.inl (by simp [LoggingState.layers, hdispatch]))) rfl
    · exact hsilent rfl h rfl
    · exact hsilent rfl h rfl
  | log event =>
    have hlog := hstep
    obtain rfl := Option.some.inj hlog
    refine ⟨h.log hconsistent event, fun writer ↦ ?_⟩
    rw [h.written_log hconsistent, delivered, hstep, Option.map_some, Option.getD_some,
      Label.events, map_filter_reaches, reaches_log]
  | dropGuard writer told =>
    have hdrop := hstep
    unfold LoggingState.step at hdrop
    dsimp only at hdrop
    split_ifs at hdrop <;> obtain rfl := Option.some.inj hdrop <;>
      exact hsilent rfl (h.of_written_eq rfl (.inl rfl)) rfl

end Routing

/-! ## Whole runs -/

section Runs

variable (filter : TargetFilter Targets) {state : LoggingState Targets}

/-- The filter that knows the level `info` only. -/
def infoFilter : TargetFilter Unit where
  parse text := if text = "info" then some () else none
  enabled _ record := record.level ≠ .trace && record.level ≠ .debug

end Runs

end LoggingState

end Filestore.Telemetry
