import Filestore.Server.Service
import Filestore.Transition.JoinAll

/-!
# Service handlers

The handle that starting a server returns, with the server task, the readiness reporters and the
calls that its owner makes on it.  One label is one atomic step: a step of a task or connection, the
beginning of a call, or the moment at which the awaited value of a call is polled.
-/

namespace Filestore.Server

open Transition

/-- What a join handle yields when its task has ended. -/
inductive JoinResult where
  | ok
  | panicked
  deriving DecidableEq

/-- What the join handle of a server task yields, once the task has ended. -/
def TaskState.joined : TaskState → Option JoinResult
  | .finished | .failed => some .ok
  | .panicked => some .panicked
  | .spawned | .bound | .serving | .draining => none

/-- How a call ends: it returns, or it panics with a message. -/
inductive CallResult where
  | returned (result : Except ServerError Unit)
  | panicked (message : String)
  deriving DecidableEq

/-- The point that a call of `wait_for_stop` has reached. -/
inductive StopPoint where
  | notCalled
  | joining (taken : List (Option JoinResult))
  | completed (result : CallResult)
  deriving DecidableEq

/-- Handle for managing a running service. -/
structure ServiceHandler where
  /-- The server task with its cancellation token and its end of the start signal. -/
  service : Service
  /-- Whether the receiver of the start signal is still there. -/
  startedRx : Bool := true
  /-- What the readiness reporters have yielded so far. -/
  reporterHandles : List (Option JoinResult)
  /-- Whether a call of `wait_for_start` awaits the start signal. -/
  awaitingStart : Bool := false
  /-- How the calls of `wait_for_start` have ended, the first call first. -/
  startCalls : List CallResult := []
  stop : StopPoint := .notCalled
  deriving DecidableEq

/-- The handle of a service with a number of readiness reporters that run. -/
def Service.handler (service : Service) (reporters : ℕ) : ServiceHandler where
  service
  reporterHandles := List.replicate reporters none

/-- The handle that `start_grpc_server` returns, with one reporter for each service. -/
def grpcServiceHandler (config : GrpcServerConfig) (services : List String) :
    Except ServerError ServiceHandler :=
  (startGrpcServer config).map fun service ↦ service.handler services.length

/-- The handle that `start_rest_server` returns, without reporters. -/
def restServiceHandler (config : RestServerConfig) (routeHandlers : List RouteHandler) :
    Except ServerError ServiceHandler :=
  (startRestServer config routeHandlers).map fun (service, _) ↦ service.handler 0

/-- The end of a task that panics: its end of the start signal is dropped. -/
def Service.crash (service : Service) : Service :=
  { service with
    task := .panicked
    started := if service.started = .held then .dropped else service.started }

namespace ServiceHandler

/-- Checks if the server task has completed. -/
def isFinished (self : ServiceHandler) : Bool := self.service.task.joined.isSome

/-- The join handles in the order in which `wait_for_stop` joins them. -/
def handles (self : ServiceHandler) : List (Option JoinResult) :=
  self.reporterHandles ++ [self.service.task.joined]

/-- No call is under way, and `wait_for_stop` has not consumed the handle. -/
def idle (self : ServiceHandler) : Bool := !self.awaitingStart && self.stop = .notCalled

/-- The beginning of a call of `wait_for_start`, which takes the receiver. -/
def waitForStart (self : ServiceHandler) : ServiceHandler :=
  if self.startedRx then { self with startedRx := false, awaitingStart := true }
  else { self with
    startCalls := self.startCalls ++ [.panicked "Server start signal already consumed"] }

/-- The result of awaiting the start signal: a lost signal panics. -/
def startSignal (self : ServiceHandler) : Option CallResult :=
  match self.service.started with
  | .held => none
  | .sent => some (.returned (.ok ()))
  | .dropped => some (.panicked "Failed to receive server start signal: RecvError(())")

/-- The beginning of a call of `wait_for_stop`. -/
def waitForStop (self : ServiceHandler) : ServiceHandler :=
  { self with stop := .joining (List.replicate self.handles.length none) }

/-- A poll of `join_all` in `wait_for_stop`, which discards the results of the tasks. -/
def pollStop (self : ServiceHandler) (taken : List (Option JoinResult)) : ServiceHandler :=
  let taken := JoinAll.poll taken self.handles
  match JoinAll.outputs taken with
  | some _ => { self with stop := .completed (.returned (.ok ())) }
  | none => { self with stop := .joining taken }

inductive Label where
  | task (label : Service.Label)
  /-- The server task panics; the tasks of its connections go on. -/
  | crash
  | reporter (index : ℕ) (result : JoinResult)
  | shutdown
  | waitForStart
  | resumeStart
  | waitForStop
  | pollStop
  deriving DecidableEq

/-- The steps of the calls, as opposed to those of the tasks and the token. -/
def Label.isCall : Label → Bool
  | .waitForStart | .resumeStart | .waitForStop | .pollStop => true
  | .task _ | .crash | .reporter _ _ | .shutdown => false

def step (outcome : BindOutcome) : Step ServiceHandler Label := fun self label ↦
  match label with
  | .task label => do
    let service ← Service.step outcome self.service label
    return { self with service }
  | .crash =>
    if self.isFinished then none else some { self with service := self.service.crash }
  | .reporter index result =>
    if self.reporterHandles[index]? = some none then
      some { self with reporterHandles := self.reporterHandles.set index (some result) }
    else none
  -- The token has clones, so it can be cancelled at any time.
  | .shutdown => some { self with service := self.service.shutdown }
  | .waitForStart => if self.idle then some self.waitForStart else none
  | .resumeStart =>
    if self.awaitingStart then do
      let result ← self.startSignal
      return { self with awaitingStart := false, startCalls := self.startCalls ++ [result] }
    else none
  | .waitForStop => if self.idle then some self.waitForStop else none
  | .pollStop =>
    match self.stop with
    | .joining taken => some (self.pollStop taken)
    | .notCalled | .completed _ => none

/-- The labels of a run in which the server task panics only at its bind. -/
def isOrderly : Label → Bool
  | .crash => false
  | _ => true

/-- The steps of a handle whose server task panics only at its bind. -/
def orderlyStep (outcome : BindOutcome) : Step ServiceHandler Label :=
  (step outcome).restrict isOrderly

/-- A handle that starting a server returns. -/
inductive Returned : ServiceHandler → Prop
  | grpc (config : GrpcServerConfig) (services : List String) {handler : ServiceHandler} :
      grpcServiceHandler config services = .ok handler → Returned handler
  | rest (config : RestServerConfig) (routeHandlers : List RouteHandler)
      {handler : ServiceHandler} :
      restServiceHandler config routeHandlers = .ok handler → Returned handler

/-- Such a handle has a fresh server task, and reporters if it is a gRPC server's. -/
theorem Returned.exists_service {handler : ServiceHandler} (h : Returned handler) :
    ∃ kind bindAddr reporters, handler = ({ kind, bindAddr } : Service).handler reporters ∧
      (kind = .rest → reporters = 0) := by
  cases h with
  | grpc config services h =>
    cases hparse : SocketAddr.parse config.bindAddress with
    | none =>
      rw [grpcServiceHandler, startGrpcServer_of_none hparse] at h
      cases h
    | some bindAddr =>
      rw [grpcServiceHandler, startGrpcServer_of_some hparse] at h
      obtain rfl := Except.ok.inj h
      exact ⟨.grpc, bindAddr, services.length, rfl, nofun⟩
  | rest config routeHandlers h =>
    cases hparse : SocketAddr.parse config.bindAddress with
    | none =>
      rw [restServiceHandler, startRestServer_of_none routeHandlers hparse] at h
      cases h
    | some bindAddr =>
      rw [restServiceHandler, startRestServer_of_some routeHandlers hparse] at h
      obtain rfl := Except.ok.inj h
      exact ⟨.rest, bindAddr, 0, rfl, fun _ ↦ rfl⟩

/-! ## What a step can do -/

section StepCases

variable {outcome : BindOutcome} {self next : ServiceHandler}

theorem step_task_eq_some {label : Service.Label} :
    step outcome self (.task label) = some next ↔
      ∃ moved, Service.step outcome self.service label = some moved ∧
        next = { self with service := moved } := by
  simp only [step, Option.bind_eq_bind, Option.bind_eq_some_iff, Option.pure_def,
    Option.some.injEq, @eq_comm _ next]

/-- A server task is blocked under its handle as it is on its own. -/
theorem task_blocked_iff {label : Service.Label} :
    (step outcome).Blocked self (.task label) ↔
      (Service.step outcome).Blocked self.service label := by
  unfold Step.Blocked step
  cases hmoved : Service.step outcome self.service label <;> simp [hmoved]

theorem step_crash_eq_some :
    step outcome self .crash = some next ↔
      self.isFinished = false ∧ next = { self with service := self.service.crash } := by
  simp [step, @eq_comm _ next]

theorem step_reporter_eq_some {index : ℕ} {result : JoinResult} :
    step outcome self (.reporter index result) = some next ↔
      self.reporterHandles[index]? = some none ∧
        next = { self with reporterHandles := self.reporterHandles.set index (some result) } := by
  simp [step, @eq_comm _ next]

theorem step_shutdown_eq_some :
    step outcome self .shutdown = some next ↔
      next = { self with service := self.service.shutdown } := by
  simp [step, @eq_comm _ next]

theorem step_waitForStart_eq_some :
    step outcome self .waitForStart = some next ↔
      self.idle = true ∧ next = self.waitForStart := by
  simp [step, @eq_comm _ next]

theorem step_resumeStart_eq_some :
    step outcome self .resumeStart = some next ↔
      self.awaitingStart = true ∧ ∃ result, self.startSignal = some result ∧ next = { self with
        awaitingStart := false, startCalls := self.startCalls ++ [result] } := by
  simp [step, Option.bind_eq_some_iff, @eq_comm _ next]

theorem step_waitForStop_eq_some :
    step outcome self .waitForStop = some next ↔
      self.idle = true ∧ next = self.waitForStop := by
  simp [step, @eq_comm _ next]

theorem step_pollStop_eq_some :
    step outcome self .pollStop = some next ↔
      ∃ taken, self.stop = .joining taken ∧ next = self.pollStop taken := by
  cases hstop : self.stop <;> simp [step, hstop, @eq_comm _ next]

/-- What a step leaves alone: a call moves no task, and only `wait_for_stop` moves itself. -/
structure Frame (handler : ServiceHandler) (label : Label) (next : ServiceHandler) : Prop where
  service : label.isCall = true → next.service = handler.service
  reporterHandles : label.isCall = true → next.reporterHandles = handler.reporterHandles
  stop : label ≠ .waitForStop → label ≠ .pollStop → next.stop = handler.stop

/-- Every step respects the frame. -/
theorem step_frame {label : Label} (hstep : step outcome self label = some next) :
    Frame self label next := by
  cases label with
  | task label =>
    obtain ⟨moved, -, rfl⟩ := step_task_eq_some.mp hstep
    constructor <;> simp [Label.isCall]
  | crash =>
    obtain ⟨-, rfl⟩ := step_crash_eq_some.mp hstep
    constructor <;> simp [Label.isCall]
  | reporter index result =>
    obtain ⟨-, rfl⟩ := step_reporter_eq_some.mp hstep
    constructor <;> simp [Label.isCall]
  | shutdown =>
    obtain rfl := step_shutdown_eq_some.mp hstep
    constructor <;> simp [Label.isCall]
  | waitForStart =>
    obtain ⟨-, rfl⟩ := step_waitForStart_eq_some.mp hstep
    unfold waitForStart
    split <;> constructor <;> simp
  | resumeStart =>
    obtain ⟨-, result, -, rfl⟩ := step_resumeStart_eq_some.mp hstep
    constructor <;> simp
  | waitForStop =>
    obtain ⟨-, rfl⟩ := step_waitForStop_eq_some.mp hstep
    constructor <;> simp [waitForStop]
  | pollStop =>
    obtain ⟨taken, -, rfl⟩ := step_pollStop_eq_some.mp hstep
    unfold pollStop
    dsimp only
    split <;> constructor <;> simp

end StepCases

end ServiceHandler

end Filestore.Server
