import Filestore.Server.Service

/-!
# The lifecycle of an application

`App::start` sets the running flag, starts both servers, spawns the main task and returns a handle.
The main task waits for a trigger, clears the flag, cancels the application token and shuts down
the two servers.  The handle, the operating system, holders of a clone of the token and the caller
of `App::run` act concurrently with it.  One label of the transition function is one atomic step of
one of these parties.
-/

namespace Filestore.App

open Server Transition

/-- Configuration for the application. -/
structure AppConfig where
  grpcConfig : GrpcServerConfig := {}
  httpConfig : RestServerConfig := {}
  enableGracefulShutdown : Bool := true
  deriving DecidableEq

/-- An error with the message that was added to it. -/
structure Whatever where
  message : String
  source : ServerError
  deriving DecidableEq

/-- The point that a call of `start` has reached. -/
inductive StartPoint where
  | notCalled
  | loggingReady
  | flagSet
  | grpcStarted
  | restStarted
  | mainSpawned
  | returned
  | failed (error : Whatever)
  deriving DecidableEq

/-- The point that the main task has reached. -/
inductive MainPoint where
  | absent
  | spawned
  | waiting
  | woken
  | flagCleared
  | tokenCancelled
  | grpcShutdown
  | done
  deriving DecidableEq

/-- The point that the handle's owner has reached in a call of `shutdown`, or between two calls. -/
inductive HandlePoint where
  | absent
  | idle
  | flagCleared
  | tokenCancelled
  | dropped
  deriving DecidableEq

structure State where
  running : Bool := false
  /-- Whether the application token is cancelled. -/
  cancellationToken : Bool := false
  start : StartPoint := .notCalled
  shutdownTx : OneShot := .held
  grpc : Option Service := none
  rest : Option Service := none
  main : MainPoint := .absent
  handle : HandlePoint := .absent
  /-- Whether the main task has received a signal of the operating system. -/
  signalled : Bool := false
  /-- Whether `App::run` has returned `Ok`. -/
  runReturned : Bool := false
  deriving DecidableEq

/-- A configuration with the outcomes of the two binds. -/
structure Env where
  config : AppConfig
  bind : ServerKind → BindOutcome

inductive Label where
  | start
  | main
  | grpc (label : Service.Label)
  | rest (label : Service.Label)
  | shutdown
  | dropHandle
  | signal
  | cancelClone
  | runReturn
  deriving DecidableEq

/-- The next step of `App::start`. -/
def startStep (config : AppConfig) (state : State) : Option State :=
  match state.start with
  | .notCalled => some { state with start := .loggingReady }
  | .loggingReady => some { state with running := true, start := .flagSet }
  | .flagSet =>
    match startGrpcServer config.grpcConfig with
    | .ok grpc => some { state with grpc := some grpc, start := .grpcStarted }
    | .error source => some { state with
        shutdownTx := .dropped, start := .failed ⟨"Failed to start gRPC server", source⟩ }
  | .grpcStarted =>
    match startRestServer config.httpConfig [healthRoutes] with
    | .ok (rest, _) => some { state with rest := some rest, start := .restStarted }
    -- The handle of the gRPC server is dropped here, and its task goes on.
    | .error source => some { state with
        shutdownTx := .dropped, start := .failed ⟨"Failed to start REST server", source⟩ }
  | .restStarted => some { state with main := .spawned, start := .mainSpawned }
  | .mainSpawned => some { state with handle := .idle, start := .returned }
  | .returned | .failed _ => none

/-- The shutdown channel resolves on a message and on the loss of its sender; a signal counts only
with graceful shutdown. -/
def State.triggered (config : AppConfig) (state : State) : Bool :=
  state.shutdownTx ≠ .held || config.enableGracefulShutdown && state.signalled

/-- The next step of the main task. -/
def mainStep (config : AppConfig) (state : State) : Option State :=
  match state.main with
  | .spawned => some { state with main := .waiting }
  | .waiting => if state.triggered config then some { state with main := .woken } else none
  | .woken => some { state with running := false, main := .flagCleared }
  | .flagCleared => some { state with cancellationToken := true, main := .tokenCancelled }
  | .tokenCancelled => some { state with
      grpc := state.grpc.map Service.shutdown, main := .grpcShutdown }
  | .grpcShutdown => some { state with rest := state.rest.map Service.shutdown, main := .done }
  | .absent | .done => none

/-- The next step of a call of `AppHandle::shutdown`. -/
def shutdownStep (state : State) : Option State :=
  match state.handle with
  | .idle => some { state with running := false, handle := .flagCleared }
  | .flagCleared => some { state with cancellationToken := true, handle := .tokenCancelled }
  | .tokenCancelled => some { state with
      shutdownTx := if state.shutdownTx = .held then .sent else state.shutdownTx, handle := .idle }
  | .absent | .dropped => none

/-- Drop the handle, and with it the sender if it is still there. -/
def State.dropHandle (state : State) : State :=
  { state with
    shutdownTx := if state.shutdownTx = .held then .dropped else state.shutdownTx
    handle := .dropped }

def step (env : Env) : Step State Label := fun state label ↦
  match label with
  | .start => startStep env.config state
  | .main => mainStep env.config state
  | .grpc label => do
    let grpc ← Service.step (env.bind .grpc) (← state.grpc) label
    return { state with grpc := some grpc }
  | .rest label => do
    let rest ← Service.step (env.bind .rest) (← state.rest) label
    return { state with rest := some rest }
  | .shutdown => shutdownStep state
  | .dropHandle => if state.handle = .idle then some state.dropHandle else none
  | .signal =>
    if env.config.enableGracefulShutdown ∧ state.main = .waiting then
      some { state with signalled := true }
    else some state
  | .cancelClone => some { state with cancellationToken := true }
  | .runReturn =>
    if state.start = .returned ∧ state.handle = .idle ∧ state.cancellationToken then
      some { state.dropHandle with runReturned := true }
    else none

/-- An application before `start` is called. -/
def fresh : State := {}

/-! ## What a step can do -/

section StepCases

variable {env : Env} {config : AppConfig} {state next : State}

theorem startStep_cases (hstep : startStep config state = some next) :
    (state.start = .notCalled ∧ next = { state with start := .loggingReady }) ∨
    (state.start = .loggingReady ∧ next = { state with running := true, start := .flagSet }) ∨
    (state.start = .flagSet ∧ ∃ grpc, startGrpcServer config.grpcConfig = .ok grpc ∧
      next = { state with grpc := some grpc, start := .grpcStarted }) ∨
    (state.start = .flagSet ∧ ∃ source, startGrpcServer config.grpcConfig = .error source ∧
      next = { state with
        shutdownTx := .dropped, start := .failed ⟨"Failed to start gRPC server", source⟩ }) ∨
    (state.start = .grpcStarted ∧ ∃ rest router,
      startRestServer config.httpConfig [healthRoutes] = .ok (rest, router) ∧
      next = { state with rest := some rest, start := .restStarted }) ∨
    (state.start = .grpcStarted ∧ ∃ source,
      startRestServer config.httpConfig [healthRoutes] = .error source ∧
      next = { state with
        shutdownTx := .dropped, start := .failed ⟨"Failed to start REST server", source⟩ }) ∨
    (state.start = .restStarted ∧
      next = { state with main := .spawned, start := .mainSpawned }) ∨
    (state.start = .mainSpawned ∧ next = { state with handle := .idle, start := .returned }) := by
  unfold startStep at hstep
  split at hstep
  · simp_all
  · simp_all
  · split at hstep <;> simp_all
  · split at hstep <;> simp_all
  · simp_all
  · simp_all
  · cases hstep
  · cases hstep

theorem mainStep_cases (hstep : mainStep config state = some next) :
    (state.main = .spawned ∧ next = { state with main := .waiting }) ∨
    (state.main = .waiting ∧ state.triggered config = true ∧
      next = { state with main := .woken }) ∨
    (state.main = .woken ∧ next = { state with running := false, main := .flagCleared }) ∨
    (state.main = .flagCleared ∧
      next = { state with cancellationToken := true, main := .tokenCancelled }) ∨
    (state.main = .tokenCancelled ∧
      next = { state with grpc := state.grpc.map Service.shutdown, main := .grpcShutdown }) ∨
    (state.main = .grpcShutdown ∧
      next = { state with rest := state.rest.map Service.shutdown, main := .done }) := by
  unfold mainStep at hstep
  split at hstep <;> simp_all

theorem shutdownStep_cases (hstep : shutdownStep state = some next) :
    (state.handle = .idle ∧ next = { state with running := false, handle := .flagCleared }) ∨
    (state.handle = .flagCleared ∧
      next = { state with cancellationToken := true, handle := .tokenCancelled }) ∨
    (state.handle = .tokenCancelled ∧ next = { state with
      shutdownTx := if state.shutdownTx = .held then .sent else state.shutdownTx
      handle := .idle }) := by
  unfold shutdownStep at hstep
  split at hstep <;> simp_all

theorem step_grpc_eq_some {label : Service.Label} :
    step env state (.grpc label) = some next ↔
      ∃ grpc moved, state.grpc = some grpc ∧
        Service.step (env.bind .grpc) grpc label = some moved ∧
        next = { state with grpc := some moved } := by
  simp only [step, Option.bind_eq_bind, Option.bind_eq_some_iff, Option.pure_def,
    Option.some.injEq]
  constructor
  · rintro ⟨grpc, hgrpc, moved, hmoved, rfl⟩
    exact ⟨grpc, moved, hgrpc, hmoved, rfl⟩
  · rintro ⟨grpc, moved, hgrpc, hmoved, rfl⟩
    exact ⟨grpc, hgrpc, moved, hmoved, rfl⟩

theorem step_rest_eq_some {label : Service.Label} :
    step env state (.rest label) = some next ↔
      ∃ rest moved, state.rest = some rest ∧
        Service.step (env.bind .rest) rest label = some moved ∧
        next = { state with rest := some moved } := by
  simp only [step, Option.bind_eq_bind, Option.bind_eq_some_iff, Option.pure_def,
    Option.some.injEq]
  constructor
  · rintro ⟨rest, hrest, moved, hmoved, rfl⟩
    exact ⟨rest, moved, hrest, hmoved, rfl⟩
  · rintro ⟨rest, moved, hrest, hmoved, rfl⟩
    exact ⟨rest, hrest, moved, hmoved, rfl⟩

theorem step_dropHandle_eq_some :
    step env state .dropHandle = some next ↔ state.handle = .idle ∧ next = state.dropHandle := by
  simp [step, eq_comm]

theorem step_signal_cases (hstep : step env state .signal = some next) :
    next = { state with signalled := true } ∨ next = state := by
  unfold step at hstep
  split_ifs at hstep <;> simp_all

theorem step_cancelClone_eq_some :
    step env state .cancelClone = some next ↔ next = { state with cancellationToken := true } := by
  simp [step, eq_comm]

theorem step_runReturn_eq_some :
    step env state .runReturn = some next ↔
      (state.start = .returned ∧ state.handle = .idle ∧ state.cancellationToken = true) ∧
        next = { state.dropHandle with runReturned := true } := by
  dsimp only [step]
  split_ifs with hready
  · exact Option.some_inj.trans ⟨fun h ↦ ⟨hready, h.symm⟩, fun h ↦ h.2.symm⟩
  · exact iff_of_false nofun fun h ↦ hready h.1

/-- What the other parties leave alone: only `start` moves itself and sets the flag, only `run`
returns, and a main task that is done stays done. -/
structure Frame (state : State) (label : Label) (next : State) : Prop where
  start : label ≠ .start → next.start = state.start
  running : label ≠ .start → state.running = false → next.running = false
  done : label ≠ .start → state.main = .done → next.main = .done
  runReturned : label ≠ .runReturn → next.runReturned = state.runReturned

/-- Every step respects the frame. -/
theorem step_frame {label : Label} (hstep : step env state label = some next) :
    Frame state label next := by
  cases label with
  | start =>
    rcases startStep_cases hstep with ⟨-, rfl⟩ | ⟨-, rfl⟩ | ⟨-, _, -, rfl⟩ | ⟨-, _, -, rfl⟩ |
      ⟨-, _, _, -, rfl⟩ | ⟨-, _, -, rfl⟩ | ⟨-, rfl⟩ | ⟨-, rfl⟩ <;> constructor <;> simp
  | main =>
    rcases mainStep_cases hstep with ⟨h, rfl⟩ | ⟨h, -, rfl⟩ | ⟨h, rfl⟩ | ⟨h, rfl⟩ | ⟨h, rfl⟩ |
      ⟨h, rfl⟩ <;> constructor <;> simp [h]
  | grpc label =>
    obtain ⟨grpc, moved, -, -, rfl⟩ := step_grpc_eq_some.mp hstep
    constructor <;> simp
  | rest label =>
    obtain ⟨rest, moved, -, -, rfl⟩ := step_rest_eq_some.mp hstep
    constructor <;> simp
  | shutdown =>
    rcases shutdownStep_cases hstep with ⟨-, rfl⟩ | ⟨-, rfl⟩ | ⟨-, rfl⟩ <;> constructor <;> simp
  | dropHandle =>
    obtain ⟨-, rfl⟩ := step_dropHandle_eq_some.mp hstep
    constructor <;> simp [State.dropHandle]
  | signal =>
    rcases step_signal_cases hstep with rfl | rfl <;> constructor <;> simp
  | cancelClone =>
    obtain rfl := step_cancelClone_eq_some.mp hstep
    constructor <;> simp
  | runReturn =>
    obtain ⟨-, rfl⟩ := step_runReturn_eq_some.mp hstep
    constructor <;> simp [State.dropHandle]

/-- A server task is blocked in the application as it is on its own. -/
theorem blocked_grpc_iff {grpc : Service} (hgrpc : state.grpc = some grpc)
    (label : Service.Label) : (step env).Blocked state (.grpc label) ↔
      (Service.step (env.bind .grpc)).Blocked grpc label := by
  unfold Step.Blocked step
  rw [hgrpc]
  cases hmoved : Service.step (env.bind .grpc) grpc label <;> simp [hmoved]

theorem blocked_rest_iff {rest : Service} (hrest : state.rest = some rest)
    (label : Service.Label) : (step env).Blocked state (.rest label) ↔
      (Service.step (env.bind .rest)).Blocked rest label := by
  unfold Step.Blocked step
  rw [hrest]
  cases hmoved : Service.step (env.bind .rest) rest label <;> simp [hmoved]

end StepCases

/-! ## What holds at any time -/

/-- The gRPC server has been started. -/
def StartPoint.pastGrpc : StartPoint → Bool
  | .grpcStarted | .restStarted | .mainSpawned | .returned => true
  | .notCalled | .loggingReady | .flagSet | .failed _ => false

/-- Both servers have been started. -/
def StartPoint.pastRest : StartPoint → Bool
  | .restStarted | .mainSpawned | .returned => true
  | .notCalled | .loggingReady | .flagSet | .grpcStarted | .failed _ => false

/-- Once both servers are started, no party replaces them. -/
theorem step_moves {env : Env} {state next : State} {label : Label}
    (hstarted : state.start.pastRest = true) (hstep : step env state label = some next) :
    Service.Moves (env.bind .grpc) state.grpc next.grpc ∧
      Service.Moves (env.bind .rest) state.rest next.rest := by
  cases label with
  | start =>
    rcases startStep_cases hstep with h | h | h | h | h | h | ⟨-, rfl⟩ | ⟨-, rfl⟩
    · simp [h, StartPoint.pastRest] at hstarted
    · simp [h, StartPoint.pastRest] at hstarted
    · simp [h, StartPoint.pastRest] at hstarted
    · simp [h, StartPoint.pastRest] at hstarted
    · simp [h, StartPoint.pastRest] at hstarted
    · simp [h, StartPoint.pastRest] at hstarted
    · exact ⟨.stay _, .stay _⟩
    · exact ⟨.stay _, .stay _⟩
  | main =>
    rcases mainStep_cases hstep with ⟨-, rfl⟩ | ⟨-, -, rfl⟩ | ⟨-, rfl⟩ | ⟨-, rfl⟩ | ⟨-, rfl⟩ |
      ⟨-, rfl⟩
    · exact ⟨.stay _, .stay _⟩
    · exact ⟨.stay _, .stay _⟩
    · exact ⟨.stay _, .stay _⟩
    · exact ⟨.stay _, .stay _⟩
    · exact ⟨.shutdown _, .stay _⟩
    · exact ⟨.stay _, .shutdown _⟩
  | grpc label =>
    obtain ⟨grpc, moved, hgrpc, hmoved, rfl⟩ := step_grpc_eq_some.mp hstep
    exact ⟨hgrpc ▸ .step label hmoved, .stay _⟩
  | rest label =>
    obtain ⟨rest, moved, hrest, hmoved, rfl⟩ := step_rest_eq_some.mp hstep
    exact ⟨.stay _, hrest ▸ .step label hmoved⟩
  | shutdown =>
    rcases shutdownStep_cases hstep with ⟨-, rfl⟩ | ⟨-, rfl⟩ | ⟨-, rfl⟩ <;>
      exact ⟨.stay _, .stay _⟩
  | dropHandle =>
    obtain ⟨-, rfl⟩ := step_dropHandle_eq_some.mp hstep
    exact ⟨.stay _, .stay _⟩
  | signal =>
    rcases step_signal_cases hstep with rfl | rfl <;> exact ⟨.stay _, .stay _⟩
  | cancelClone =>
    obtain rfl := step_cancelClone_eq_some.mp hstep
    exact ⟨.stay _, .stay _⟩
  | runReturn =>
    obtain ⟨-, rfl⟩ := step_runReturn_eq_some.mp hstep
    exact ⟨.stay _, .stay _⟩

theorem StartPoint.pastGrpc_of_pastRest {point : StartPoint} (h : point.pastRest = true) :
    point.pastGrpc = true := by
  cases point <;> first | rfl | cases h

/-- The parties follow each other: no main task or handle before `start` makes it, and no server
token is cancelled but by the main task. -/
structure Coherent (env : Env) (state : State) : Prop where
  main : state.main ≠ .absent ↔ state.start = .mainSpawned ∨ state.start = .returned
  handle : state.handle ≠ .absent → state.start = .returned
  runReturned : state.runReturned = true → state.start = .returned
  grpcStarted : state.start.pastGrpc = true → state.grpc.isSome = true
  restStarted : state.start.pastRest = true → state.rest.isSome = true
  grpc : ∀ grpc ∈ state.grpc, grpc.Consistent (env.bind .grpc)
  rest : ∀ rest ∈ state.rest, rest.Consistent (env.bind .rest)
  grpcToken : ∀ grpc ∈ state.grpc, grpc.cancellationToken = true ↔
    state.main = .grpcShutdown ∨ state.main = .done
  restToken : ∀ rest ∈ state.rest, rest.cancellationToken = true ↔ state.main = .done

namespace Coherent

variable {env : Env} {state next : State}

/-- After both starts, both servers are there. -/
theorem exists_servers (h : Coherent env state) (hstarted : state.start.pastRest = true) :
    ∃ grpc rest, state.grpc = some grpc ∧ state.rest = some rest := by
  obtain ⟨grpc, hgrpc⟩ := Option.isSome_iff_exists.mp
    (h.grpcStarted (StartPoint.pastGrpc_of_pastRest hstarted))
  obtain ⟨rest, hrest⟩ := Option.isSome_iff_exists.mp (h.restStarted hstarted)
  exact ⟨grpc, rest, hgrpc, hrest⟩

theorem of_fresh (env : Env) : Coherent env fresh := by
  constructor <;> simp [fresh, StartPoint.pastGrpc, StartPoint.pastRest]

/-- Before `start` spawns the main task there is no other party. -/
theorem absent_of_early (h : Coherent env state)
    (hpoint : state.start ≠ .mainSpawned ∧ state.start ≠ .returned) :
    state.main = .absent ∧ state.handle = .absent ∧ state.runReturned = false := by
  refine ⟨?_, ?_, ?_⟩
  · by_contra hmain
    exact (h.main.mp hmain).elim hpoint.1 hpoint.2
  · by_contra hhandle
    exact hpoint.2 (h.handle hhandle)
  · rw [Bool.eq_false_iff]
    exact fun hrun ↦ hpoint.2 (h.runReturned hrun)

/-- A step of `start` that takes it to a point before the gRPC server moves no party. -/
theorem beforeGrpc (h : Coherent env state)
    (hpoint : state.start ≠ .mainSpawned ∧ state.start ≠ .returned) {running : Bool}
    {shutdownTx : OneShot} {start : StartPoint} (hstart : start.pastGrpc = false) :
    Coherent env { state with running, shutdownTx, start } := by
  obtain ⟨hmain, hhandle, hrun⟩ := h.absent_of_early hpoint
  exact { h with
    main := iff_of_false (by simp [hmain]) (by rintro (rfl | rfl) <;> cases hstart)
    handle := fun hne ↦ absurd hhandle hne
    runReturned := by simp [hrun]
    grpcStarted := by simp [hstart]
    restStarted := fun hpast ↦ by simp [StartPoint.pastGrpc_of_pastRest hpast] at hstart }

theorem startStep (h : Coherent env state) (hstep : startStep env.config state = some next) :
    Coherent env next := by
  rcases startStep_cases hstep with
    ⟨hpoint, rfl⟩ | ⟨hpoint, rfl⟩ | ⟨hpoint, grpc, hok, rfl⟩ | ⟨hpoint, source, -, rfl⟩ |
    ⟨hpoint, rest, router, hok, rfl⟩ | ⟨hpoint, source, -, rfl⟩ | ⟨hpoint, rfl⟩ | ⟨hpoint, rfl⟩
  · exact h.beforeGrpc (by simp [hpoint]) rfl
  · exact h.beforeGrpc (by simp [hpoint]) rfl
  · obtain ⟨hmain, hhandle, hrun⟩ := h.absent_of_early (by simp [hpoint])
    obtain ⟨htask, htoken, hclosed⟩ := startGrpcServer_ok hok
    exact { h with
      main := by simp [hmain]
      handle := fun hne ↦ absurd hhandle hne
      runReturned := by simp [hrun]
      grpcStarted := fun _ ↦ rfl
      restStarted := nofun
      grpc := by simp [Service.Consistent.of_spawned htask hclosed]
      grpcToken := by simp [hmain, htoken] }
  · exact h.beforeGrpc (by simp [hpoint]) rfl
  · obtain ⟨hmain, hhandle, hrun⟩ := h.absent_of_early (by simp [hpoint])
    obtain ⟨htask, htoken, hclosed⟩ := startRestServer_ok hok
    exact { h with
      main := by simp [hmain]
      handle := fun hne ↦ absurd hhandle hne
      runReturned := by simp [hrun]
      grpcStarted := fun _ ↦ h.grpcStarted (by rw [hpoint]; rfl)
      restStarted := fun _ ↦ rfl
      rest := by simp [Service.Consistent.of_spawned htask hclosed]
      restToken := by simp [hmain, htoken] }
  · exact h.beforeGrpc (by simp [hpoint]) rfl
  · obtain ⟨hmain, hhandle, hrun⟩ := h.absent_of_early (by simp [hpoint])
    exact { h with
      main := by simp
      handle := fun hne ↦ absurd hhandle hne
      runReturned := by simp [hrun]
      grpcStarted := fun _ ↦ h.grpcStarted (by rw [hpoint]; rfl)
      restStarted := fun _ ↦ h.restStarted (by rw [hpoint]; rfl)
      grpcToken := by simpa [hmain] using h.grpcToken
      restToken := by simpa [hmain] using h.restToken }
  · exact { h with
      main := iff_of_true (h.main.mpr (.inl hpoint)) (.inr rfl)
      handle := fun _ ↦ rfl
      runReturned := fun _ ↦ rfl
      grpcStarted := fun _ ↦ h.grpcStarted (by rw [hpoint]; rfl)
      restStarted := fun _ ↦ h.restStarted (by rw [hpoint]; rfl) }

/-- A step of the main task on its way to the servers moves none of them. -/
theorem beforeShutdown (h : Coherent env state)
    (hpoint : state.main ≠ .absent ∧ state.main ≠ .grpcShutdown ∧ state.main ≠ .done)
    {running cancellationToken : Bool} {main : MainPoint}
    (hmain : main ≠ .absent ∧ main ≠ .grpcShutdown ∧ main ≠ .done) :
    Coherent env { state with running, cancellationToken, main } :=
  { h with
    main := iff_of_true hmain.1 (h.main.mp hpoint.1)
    grpcToken := by simpa [hpoint, hmain] using h.grpcToken
    restToken := by simpa [hpoint, hmain] using h.restToken }

theorem mainStep (h : Coherent env state) (hstep : mainStep env.config state = some next) :
    Coherent env next := by
  rcases mainStep_cases hstep with
    ⟨hpoint, rfl⟩ | ⟨hpoint, -, rfl⟩ | ⟨hpoint, rfl⟩ | ⟨hpoint, rfl⟩ | ⟨hpoint, rfl⟩ |
    ⟨hpoint, rfl⟩
  · exact h.beforeShutdown (by simp [hpoint]) (by simp)
  · exact h.beforeShutdown (by simp [hpoint]) (by simp)
  · exact h.beforeShutdown (by simp [hpoint]) (by simp)
  · exact h.beforeShutdown (by simp [hpoint]) (by simp)
  · exact { h with
      main := iff_of_true nofun (h.main.mp (by simp [hpoint]))
      grpcStarted := by simpa using h.grpcStarted
      grpc := by simpa using fun grpc hgrpc ↦ (h.grpc grpc hgrpc).shutdown
      grpcToken := by simp
      restToken := by simpa [hpoint] using h.restToken }
  · exact { h with
      main := iff_of_true nofun (h.main.mp (by simp [hpoint]))
      restStarted := by simpa using h.restStarted
      rest := by simpa using fun rest hrest ↦ (h.rest rest hrest).shutdown
      grpcToken := by simpa [hpoint] using h.grpcToken
      restToken := by simp }

theorem shutdownStep (h : Coherent env state) (hstep : shutdownStep state = some next) :
    Coherent env next := by
  have hreturned : state.handle ≠ .absent → state.start = .returned := h.handle
  rcases shutdownStep_cases hstep with ⟨hpoint, rfl⟩ | ⟨hpoint, rfl⟩ | ⟨hpoint, rfl⟩
  · exact { h with handle := fun _ ↦ hreturned (by simp [hpoint]) }
  · exact { h with handle := fun _ ↦ hreturned (by simp [hpoint]) }
  · exact { h with handle := fun _ ↦ hreturned (by simp [hpoint]) }

theorem dropHandle (h : Coherent env state) (hreturned : state.start = .returned) :
    Coherent env state.dropHandle :=
  { h with handle := fun _ ↦ hreturned }

/-- No step of any party breaks the order of the parties. -/
theorem step (h : Coherent env state) {label : Label}
    (hstep : App.step env state label = some next) : Coherent env next := by
  cases label with
  | start => exact h.startStep hstep
  | main => exact h.mainStep hstep
  | grpc label =>
    obtain ⟨grpc, moved, hgrpc, hmoved, rfl⟩ := step_grpc_eq_some.mp hstep
    have hconsistent := (h.grpc grpc hgrpc).step hmoved
    have htoken := h.grpcToken grpc hgrpc
    rw [← Service.step_cancellationToken hmoved] at htoken
    exact { h with
      grpcStarted := fun _ ↦ rfl
      grpc := by simpa using hconsistent
      grpcToken := by simpa using htoken }
  | rest label =>
    obtain ⟨rest, moved, hrest, hmoved, rfl⟩ := step_rest_eq_some.mp hstep
    have hconsistent := (h.rest rest hrest).step hmoved
    have htoken := h.restToken rest hrest
    rw [← Service.step_cancellationToken hmoved] at htoken
    exact { h with
      restStarted := fun _ ↦ rfl
      rest := by simpa using hconsistent
      restToken := by simpa using htoken }
  | shutdown => exact h.shutdownStep hstep
  | dropHandle =>
    obtain ⟨hidle, rfl⟩ := step_dropHandle_eq_some.mp hstep
    exact h.dropHandle (h.handle (by simp [hidle]))
  | signal =>
    rcases step_signal_cases hstep with rfl | rfl
    · exact { h with }
    · exact h
  | cancelClone =>
    obtain rfl := step_cancelClone_eq_some.mp hstep
    exact { h with }
  | runReturn =>
    obtain ⟨⟨hreturned, -⟩, rfl⟩ := step_runReturn_eq_some.mp hstep
    exact { h.dropHandle hreturned with runReturned := fun _ ↦ hreturned }

/-- The order of the parties holds in every state that an application reaches. -/
theorem of_reachable (h : (App.step env).Reachable fresh state) : Coherent env state :=
  h.invariant (Coherent env) (of_fresh env) fun _ _ _ hcoherent hstep ↦ hcoherent.step hstep

end Coherent

end Filestore.App
