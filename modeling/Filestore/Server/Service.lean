import Filestore.Server.Connections
import Filestore.Server.Router
import Filestore.Server.SocketAddr
import Filestore.Transition.Schedule

/-!
# A service and its server task

Starting a server parses the bind address and spawns a task; the returned handle shares a
cancellation token and a start signal with that task.  The task binds the address, sends the start
signal, and accepts connections until the token is cancelled; then it waits until its connections
are closed, and finishes.  When the bind fails, the gRPC task logs the error and ends, and the REST
task panics; the start signal is lost in both cases.
-/

namespace Filestore.Server

open Transition

/-- A one-shot channel as its receiver sees it: the sender is held, was used, or was dropped. -/
inductive OneShot where
  | held
  | sent
  | dropped
  deriving DecidableEq

inductive ServerKind where
  | grpc
  | rest
  deriving DecidableEq

/-- What the operating system answers when a task binds its address. -/
inductive BindOutcome where
  | bound
  | addrInUse
  | permissionDenied
  deriving DecidableEq

/-- Where a server task is; `failed` is a task that ended after it logged a bind error. -/
inductive TaskState where
  | spawned
  | bound
  | serving
  | draining
  | finished
  | failed
  | panicked
  deriving DecidableEq

/-- The listener has been bound. -/
def TaskState.hasBound : TaskState → Bool
  | .bound | .serving | .draining | .finished => true
  | .spawned | .failed | .panicked => false

/-- The task has no further step. -/
def TaskState.ended : TaskState → Bool
  | .finished | .failed | .panicked => true
  | .spawned | .bound | .serving | .draining => false

/-- A handle together with the task that it manages. -/
structure Service where
  kind : ServerKind
  bindAddr : SocketAddr
  /-- Whether the cancellation token is cancelled. -/
  cancellationToken : Bool := false
  started : OneShot := .held
  task : TaskState := .spawned
  connections : Connections := []
  deriving DecidableEq

/-- The number of requests that are in flight. -/
def Service.inFlight (service : Service) : ℕ := service.connections.sum

inductive ServerError where
  | parseAddressError (addr : String)
  deriving DecidableEq

def ServerError.display : ServerError → String
  | .parseAddressError addr => s!"Failed to parse address {addr}"

def startGrpcServer (config : GrpcServerConfig) : Except ServerError Service :=
  match SocketAddr.parse config.bindAddress with
  | some bindAddr => .ok { kind := .grpc, bindAddr }
  | none => .error (.parseAddressError config.bindAddress)

/-- The REST server also returns the router that its task serves. -/
def startRestServer (config : RestServerConfig) (routeHandlers : List RouteHandler) :
    Except ServerError (Service × Router) :=
  match SocketAddr.parse config.bindAddress with
  | some bindAddr => .ok ({ kind := .rest, bindAddr }, restRouter config routeHandlers)
  | none => .error (.parseAddressError config.bindAddress)

namespace Service

/-- Signals the server to begin graceful shutdown. -/
def shutdown (service : Service) : Service := { service with cancellationToken := true }

/-- The steps of a server task and of its connections. -/
inductive Label where
  | bind
  | signalStarted
  | connect
  /-- An event on a connection, which goes on whatever the server task does. -/
  | connection (index : ℕ) (event : ConnectionEvent)
  | drain
  | finish
  deriving DecidableEq

/-- The server task takes the step without its clients. -/
def Label.isOwn : Label → Bool
  | .bind | .signalStarted | .drain | .finish => true
  | .connect | .connection _ _ => false

/-- The end of a task whose bind has failed. -/
def bindError : ServerKind → TaskState
  | .grpc => .failed
  | .rest => .panicked

def step (outcome : BindOutcome) : Step Service Label := fun service label ↦
  match label, service.task with
  | .bind, .spawned =>
    if outcome = .bound then some { service with task := .bound }
    else some { service with task := bindError service.kind, started := .dropped }
  | .signalStarted, .bound => some { service with task := .serving, started := .sent }
  | .connect, .bound | .connect, .serving =>
    some { service with connections := service.connections ++ [0] }
  | .connection index event, _ => do
    let connections ← service.connections.step index event
    return { service with connections }
  | .drain, .serving =>
    if service.cancellationToken then some { service with task := .draining } else none
  | .finish, .draining =>
    if service.connections = [] then some { service with task := .finished } else none
  | _, _ => none

variable {outcome : BindOutcome} {service next : Service} {label : Label}

@[simp]
theorem shutdown_cancellationToken (service : Service) :
    service.shutdown.cancellationToken = true := rfl

/-- Everything that a step can do. -/
theorem step_cases (hstep : step outcome service label = some next) :
    (label = .bind ∧ service.task = .spawned ∧ outcome = .bound ∧
      next = { service with task := .bound }) ∨
    (label = .bind ∧ service.task = .spawned ∧ outcome ≠ .bound ∧
      next = { service with task := bindError service.kind, started := .dropped }) ∨
    (label = .signalStarted ∧ service.task = .bound ∧
      next = { service with task := .serving, started := .sent }) ∨
    (label = .connect ∧ (service.task = .bound ∨ service.task = .serving) ∧
      next = { service with connections := service.connections ++ [0] }) ∨
    (∃ index event connections, label = .connection index event ∧
      service.connections.step index event = some connections ∧
      next = { service with connections }) ∨
    (label = .drain ∧ service.task = .serving ∧ service.cancellationToken = true ∧
      next = { service with task := .draining }) ∨
    (label = .finish ∧ service.task = .draining ∧ service.connections = [] ∧
      next = { service with task := .finished }) := by
  unfold step at hstep
  split at hstep <;> (try split_ifs at hstep) <;>
    simp_all [Option.bind_eq_some_iff, @eq_comm _ next]

/-- The task reads its token but never cancels it. -/
theorem step_cancellationToken (hstep : step outcome service label = some next) :
    next.cancellationToken = service.cancellationToken := by
  rcases step_cases hstep with h | h | h | h | ⟨_, _, _, h⟩ | h | h <;> simp [h]

theorem step_kind (hstep : step outcome service label = some next) : next.kind = service.kind := by
  rcases step_cases hstep with h | h | h | h | ⟨_, _, _, h⟩ | h | h <;> simp [h]

/-- A bound listener stays bound. -/
theorem step_hasBound (hstep : step outcome service label = some next)
    (hbound : service.task.hasBound = true) : next.task.hasBound = true := by
  rcases step_cases hstep with h | h | h | h | ⟨_, _, _, h⟩ | h | h <;>
    simp_all [TaskState.hasBound]

/-- A task that has ended does not move, whatever goes on on its connections. -/
theorem step_task_of_ended (hended : service.task.ended = true)
    (hstep : step outcome service label = some next) : next.task = service.task := by
  rcases step_cases hstep with h | h | h | ⟨-, h | h, -⟩ | ⟨_, _, _, h⟩ | h | h
  · simp [h, TaskState.ended] at hended
  · simp [h, TaskState.ended] at hended
  · simp [h, TaskState.ended] at hended
  · simp [h, TaskState.ended] at hended
  · simp [h, TaskState.ended] at hended
  · simp [h]
  · simp [h, TaskState.ended] at hended
  · simp [h, TaskState.ended] at hended

/-- Without connections, nothing happens after the end of the task. -/
theorem step_eq_none_of_ended (hended : service.task.ended = true)
    (hclosed : service.connections = []) (label : Label) : step outcome service label = none := by
  apply Option.eq_none_iff_forall_ne_some.mpr
  intro next hstep
  rcases step_cases hstep with h | h | h | ⟨-, h | h, -⟩ | ⟨index, event, _, -, h, -⟩ | h | h
  · simp [h, TaskState.ended] at hended
  · simp [h, TaskState.ended] at hended
  · simp [h, TaskState.ended] at hended
  · simp [h, TaskState.ended] at hended
  · simp [h, TaskState.ended] at hended
  · rw [hclosed, Connections.step_nil] at h
    cases h
  · simp [h, TaskState.ended] at hended
  · simp [h, TaskState.ended] at hended

/-- Once the token is cancelled, a task can go on by itself until it has ended, except that in the
drain it waits for its open connections. -/
theorem ended_or_draining_of_blocked (hcancelled : service.cancellationToken = true)
    (hblocked : ∀ label, label.isOwn = true → (step outcome).Blocked service label) :
    service.task.ended = true ∨ service.task = .draining ∧ service.connections ≠ [] := by
  cases htask : service.task with
  | finished | failed | panicked => exact .inl rfl
  | spawned =>
    have hbind := hblocked .bind rfl
    by_cases hbound : outcome = .bound <;> simp [Step.Blocked, step, htask, hbound] at hbind
  | bound => simpa [Step.Blocked, step, htask] using hblocked .signalStarted rfl
  | serving => simpa [Step.Blocked, step, htask, hcancelled] using hblocked .drain rfl
  | draining =>
    have hopen : service.connections ≠ [] := by
      simpa [Step.Blocked, step, htask] using hblocked .finish rfl
    exact .inr ⟨rfl, hopen⟩

/-- Once the token is cancelled, a task that cannot move and whose connections are at rest has
ended. -/
theorem ended_of_blocked (hcancelled : service.cancellationToken = true)
    (hblocked : ∀ label, (step outcome).Blocked service label) : service.task.ended = true := by
  apply (ended_or_draining_of_blocked hcancelled fun label _ ↦ hblocked label).resolve_right
  rintro ⟨-, hopen⟩
  obtain ⟨event, -, connections, hevent⟩ := Connections.exists_step hopen
  simpa [Step.Blocked, step, hevent] using hblocked (.connection 0 event)

/-! ## What holds of a service at any time -/

/-- A listener comes from a successful bind, only a failed bind ends a task early, a task that has
finished was told to stop, and no connection is open before the bind or after the end. -/
structure Consistent (outcome : BindOutcome) (service : Service) : Prop where
  bound : service.task.hasBound = true → outcome = .bound
  ended : service.task.ended = true → service.task = .finished ∨ outcome ≠ .bound
  cancelled : service.task = .draining ∨ service.task = .finished →
    service.cancellationToken = true
  closed : service.task = .spawned ∨ service.task.ended = true → service.connections = []

theorem Consistent.shutdown (h : service.Consistent outcome) :
    service.shutdown.Consistent outcome where
  bound := h.bound
  ended := h.ended
  cancelled _ := rfl
  closed := h.closed

/-- What happens on the connections of a task that is between its bind and its end. -/
theorem Consistent.connections (h : service.Consistent outcome) {connections : Connections}
    (hopen : ¬ (service.task = .spawned ∨ service.task.ended = true)) :
    ({ service with connections } : Service).Consistent outcome :=
  { h with closed := fun hclosed ↦ absurd hclosed hopen }

theorem Consistent.step (h : service.Consistent outcome)
    (hstep : Service.step outcome service label = some next) : next.Consistent outcome := by
  have hbound : service.task.hasBound = true → outcome = .bound := h.bound
  rcases step_cases hstep with
    ⟨-, -, houtcome, rfl⟩ | ⟨-, htask, houtcome, rfl⟩ | ⟨-, htask, rfl⟩ | ⟨-, htask, rfl⟩ |
    ⟨index, event, connections, -, hevent, rfl⟩ | ⟨-, htask, htoken, rfl⟩ | ⟨-, htask, hclosed, rfl⟩
  · exact {
      bound := fun _ ↦ houtcome
      ended := nofun
      cancelled := by simp
      closed := by simp [TaskState.ended] }
  · exact {
      bound := by cases service.kind <;> nofun
      ended := fun _ ↦ .inr houtcome
      cancelled := by cases service.kind <;> simp [bindError]
      closed := fun _ ↦ h.closed (.inl htask) }
  · exact {
      bound := fun _ ↦ hbound (by rw [htask]; rfl)
      ended := nofun
      cancelled := by simp
      closed := by simp [TaskState.ended] }
  · exact h.connections (by rcases htask with htask | htask <;> simp [htask, TaskState.ended])
  · refine h.connections fun hended ↦ ?_
    rw [h.closed hended, Connections.step_nil] at hevent
    cases hevent
  · exact {
      bound := fun _ ↦ hbound (by rw [htask]; rfl)
      ended := nofun
      cancelled := fun _ ↦ htoken
      closed := by simp [TaskState.ended] }
  · exact {
      bound := fun _ ↦ hbound (by rw [htask]; rfl)
      ended := fun _ ↦ .inl rfl
      cancelled := fun _ ↦ h.cancelled (.inl htask)
      closed := fun _ ↦ hclosed }

/-- The listener is bound exactly when the bind can succeed and is no longer to be made. -/
theorem Consistent.hasBound_iff (h : service.Consistent outcome) :
    service.task.hasBound = true ↔
      outcome = .bound ∧ (Service.step outcome).Blocked service .bind := by
  constructor
  · intro hbound
    refine ⟨h.bound hbound, ?_⟩
    cases htask : service.task <;> simp_all [TaskState.hasBound, Step.Blocked, Service.step]
  · rintro ⟨houtcome, hblocked⟩
    have hended := h.ended
    cases htask : service.task <;>
      simp_all [TaskState.hasBound, TaskState.ended, Step.Blocked, Service.step]

/-! ## What can happen to a started service -/

/-- A started service is left alone, makes a step of its task, or is told to stop. -/
inductive Moves (outcome : BindOutcome) : Option Service → Option Service → Prop
  | stay (service : Option Service) : Moves outcome service service
  | step {service next : Service} (label : Label) :
      Service.step outcome service label = some next → Moves outcome (some service) (some next)
  | shutdown (service : Option Service) : Moves outcome service (service.map Service.shutdown)

/-- What survives the steps of the task and the shutdown survives everything. -/
theorem Moves.preserves {before after : Option Service} (hmoves : Moves outcome before after)
    {Holds : Service → Prop}
    (hstep : ∀ service label next, Holds service →
      Service.step outcome service label = some next → Holds next)
    (hshutdown : ∀ service, Holds service → Holds service.shutdown)
    (h : ∃ service ∈ before, Holds service) : ∃ service ∈ after, Holds service := by
  obtain ⟨service, hmem, hholds⟩ := h
  cases hmoves with
  | stay => exact ⟨service, hmem, hholds⟩
  | step label hmoved =>
    obtain rfl := Option.some.inj hmem
    exact ⟨_, rfl, hstep _ label _ hholds hmoved⟩
  | shutdown =>
    obtain rfl : before = some service := hmem
    exact ⟨_, rfl, hshutdown service hholds⟩

end Service

/-- A server starts exactly if its address parses. -/
theorem startGrpcServer_of_some {config : GrpcServerConfig} {bindAddr : SocketAddr}
    (hparse : SocketAddr.parse config.bindAddress = some bindAddr) :
    startGrpcServer config = .ok { kind := .grpc, bindAddr } := by
  unfold startGrpcServer
  rw [hparse]

theorem startGrpcServer_of_none {config : GrpcServerConfig}
    (hparse : SocketAddr.parse config.bindAddress = none) :
    startGrpcServer config = .error (.parseAddressError config.bindAddress) := by
  unfold startGrpcServer
  rw [hparse]

theorem startRestServer_of_some {config : RestServerConfig} (routeHandlers : List RouteHandler)
    {bindAddr : SocketAddr} (hparse : SocketAddr.parse config.bindAddress = some bindAddr) :
    startRestServer config routeHandlers =
      .ok ({ kind := .rest, bindAddr }, restRouter config routeHandlers) := by
  unfold startRestServer
  rw [hparse]

theorem startRestServer_of_none {config : RestServerConfig} (routeHandlers : List RouteHandler)
    (hparse : SocketAddr.parse config.bindAddress = none) :
    startRestServer config routeHandlers = .error (.parseAddressError config.bindAddress) := by
  unfold startRestServer
  rw [hparse]

/-- A server that starts has a task that has not moved, and no connection. -/
theorem startGrpcServer_ok {config : GrpcServerConfig} {service : Service}
    (hstart : startGrpcServer config = .ok service) :
    service.task = .spawned ∧ service.cancellationToken = false ∧ service.connections = [] := by
  unfold startGrpcServer at hstart
  split at hstart <;> cases hstart
  exact ⟨rfl, rfl, rfl⟩

theorem startRestServer_ok {config : RestServerConfig} {routeHandlers : List RouteHandler}
    {service : Service} {router : Router}
    (hstart : startRestServer config routeHandlers = .ok (service, router)) :
    service.task = .spawned ∧ service.cancellationToken = false ∧ service.connections = [] := by
  unfold startRestServer at hstart
  split at hstart <;> cases hstart
  exact ⟨rfl, rfl, rfl⟩

theorem Service.Consistent.of_spawned {outcome : BindOutcome} {service : Service}
    (hspawned : service.task = .spawned) (hclosed : service.connections = []) :
    service.Consistent outcome := by
  constructor <;> simp [hspawned, hclosed, TaskState.hasBound, TaskState.ended]

end Filestore.Server
