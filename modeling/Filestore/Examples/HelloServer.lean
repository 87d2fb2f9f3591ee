import Filestore.Server.Requests
import Filestore.Telemetry.Logging

/-!
# The hello server

A program of its own beside the application: it initialises the logging, starts one gRPC server,
waits for Ctrl+C, shuts the server down and waits for it to stop.  Unlike `App::run` it keeps the
guards of the logging and the handle of the server until then, so its return is a barrier.
-/

namespace Filestore.Examples.HelloServer

open Server Telemetry Transition

/-- The options of the logging that decide which writers there are. -/
def loggingOpts : LoggingOptions := {}

def config : GrpcServerConfig := { bindAddress := "[::1]:50051" }

/-- The names of the services that are registered. -/
def services : List String := ["HelloService"]

/-- The point that `main` has reached. -/
inductive Point where
  | begun
  | loggingReady
  /-- The server is started and Ctrl+C is awaited. -/
  | listening
  | interrupted
  | stopping
  /-- The call of `wait_for_stop` is awaited. -/
  | joining
  | returned
  | panicked
  deriving DecidableEq

structure State where
  point : Point := .begun
  guards : List WorkerGuard := []
  serverHandle : Option ServiceHandler := none
  deriving DecidableEq

inductive Label where
  | main
  | server (label : ServiceHandler.Label)
  /-- Ctrl+C is received, or its handler cannot be installed. -/
  | ctrlC (installed : Bool)
  deriving DecidableEq

/-- The end of the program drops the guards and, with the runtime, the tasks. -/
def State.exit (state : State) (point : Point) : State := { state with point, guards := [] }

/-- The next step of `main`. -/
def mainStep (outcome : BindOutcome) (state : State) : Option State :=
  match state.point with
  | .begun => some { state with
      guards := initGlobalLogging loggingOpts false, point := .loggingReady }
  | .loggingReady =>
    match grpcServiceHandler config services with
    | .ok serverHandle => some { state with serverHandle, point := .listening }
    | .error _ => some (state.exit .panicked)
  | .interrupted => do
    let serverHandle ← ServiceHandler.step outcome (← state.serverHandle) .shutdown
    return { state with serverHandle, point := .stopping }
  | .stopping => do
    let serverHandle ← ServiceHandler.step outcome (← state.serverHandle) .waitForStop
    return { state with serverHandle, point := .joining }
  | .joining => do
    let serverHandle ← ServiceHandler.step outcome (← state.serverHandle) .pollStop
    match serverHandle.stop with
    | .completed (.returned (.ok ())) =>
      return ({ state with serverHandle } : State).exit .returned
    | .completed _ => return ({ state with serverHandle } : State).exit .panicked
    | .notCalled | .joining _ => return { state with serverHandle }
  | .listening | .returned | .panicked => none

/-- The program has not ended. -/
def Point.isRunning : Point → Bool
  | .begun | .loggingReady | .listening | .interrupted | .stopping | .joining => true
  | .returned | .panicked => false

def step (outcome : BindOutcome) : Step State Label := fun state label ↦
  match label with
  | .main => mainStep outcome state
  | .server label =>
    if label.isWork && state.point.isRunning then do
      let serverHandle ← ServiceHandler.step outcome (← state.serverHandle) label
      return { state with serverHandle }
    else none
  | .ctrlC installed =>
    if state.point = .listening then
      if installed then some { state with point := .interrupted } else some (state.exit .panicked)
    else none

/-- The program before its first step. -/
def fresh : State := {}

/-- The handle that `main` gets. -/
def startedHandle : ServiceHandler :=
  Service.handler ⟨.grpc, ⟨.v6 [0, 0, 0, 0, 0, 0, 0, 1] 0, 50051⟩, false, .held, .spawned, []⟩ 1

theorem grpcServiceHandler_config : grpcServiceHandler config services = .ok startedHandle := by
  decide +kernel

/-! ## What a step can do -/

section StepCases

variable {outcome : BindOutcome} {state next : State}

theorem step_main_cases (hstep : step outcome state .main = some next) :
    (state.point = .begun ∧ next = { state with
      guards := initGlobalLogging loggingOpts false, point := .loggingReady }) ∨
    (state.point = .loggingReady ∧
      next = { state with serverHandle := some startedHandle, point := .listening }) ∨
    (∃ handle moved, state.point = .interrupted ∧ state.serverHandle = some handle ∧
      ServiceHandler.step outcome handle .shutdown = some moved ∧
      next = { state with serverHandle := some moved, point := .stopping }) ∨
    (∃ handle moved, state.point = .stopping ∧ state.serverHandle = some handle ∧
      ServiceHandler.step outcome handle .waitForStop = some moved ∧
      next = { state with serverHandle := some moved, point := .joining }) ∨
    (∃ handle moved, state.point = .joining ∧ state.serverHandle = some handle ∧
      ServiceHandler.step outcome handle .pollStop = some moved ∧
      ((moved.stop = .completed (.returned (.ok ())) ∧
        next = ({ state with serverHandle := some moved } : State).exit .returned) ∨
      (∃ result, moved.stop = .completed result ∧ result ≠ .returned (.ok ()) ∧
        next = ({ state with serverHandle := some moved } : State).exit .panicked) ∨
      ((∀ result, moved.stop ≠ .completed result) ∧
        next = { state with serverHandle := some moved }))) := by
  simp only [step, mainStep, grpcServiceHandler_config] at hstep
  cases hpoint : state.point with
  | begun => simp_all
  | loggingReady => simp_all
  | interrupted | stopping =>
    cases hhandle : state.serverHandle with
    | none => simp [hpoint, hhandle] at hstep
    | some handle =>
      simp only [hpoint, hhandle, Option.bind_eq_bind, Option.bind_some, Option.bind_eq_some_iff,
        Option.pure_def, Option.some.injEq] at hstep
      obtain ⟨moved, hmoved, rfl⟩ := hstep
      simp [hmoved]
  | joining =>
    cases hhandle : state.serverHandle with
    | none => simp [hpoint, hhandle] at hstep
    | some handle =>
      simp only [hpoint, hhandle, Option.bind_eq_bind, Option.bind_some,
        Option.bind_eq_some_iff] at hstep
      obtain ⟨moved, hmoved, hnext⟩ := hstep
      refine .inr (.inr (.inr (.inr ⟨handle, moved, rfl, rfl, hmoved, ?_⟩)))
      split at hnext <;> simp_all
  | listening | returned | panicked => simp [hpoint] at hstep

/-- What a step does to the handle: nothing, it makes it, or it is a step of the handle, where the
tasks and reporters move for the server and the calls are made by `main`. -/
inductive HandleStep (outcome : BindOutcome) (state : State) (label : Label) (next : State) :
    Prop where
  | same : next.serverHandle = state.serverHandle → (∀ work, label ≠ .server work) →
      HandleStep outcome state label next
  | started : state.point = .loggingReady → label = .main →
      next.serverHandle = some startedHandle → HandleStep outcome state label next
  | moved {handle moved : ServiceHandler} (call : ServiceHandler.Label) :
      state.serverHandle = some handle → next.serverHandle = some moved →
      ServiceHandler.step outcome handle call = some moved →
      label = .server call ∧ call.isWork = true ∨ label = .main ∧ call.isWork = false →
      HandleStep outcome state label next

theorem step_server_eq_some {work : ServiceHandler.Label} :
    step outcome state (.server work) = some next ↔
      (work.isWork = true ∧ state.point.isRunning = true) ∧ ∃ handle moved,
        state.serverHandle = some handle ∧ ServiceHandler.step outcome handle work = some moved ∧
          next = { state with serverHandle := some moved } := by
  simp only [step, Bool.and_eq_true]
  split_ifs with hrunning
  · rw [and_iff_right hrunning]
    cases hhandle : state.serverHandle with
    | none => simp
    | some handle => simp [Option.bind_eq_some_iff, @eq_comm _ next]
  · exact iff_of_false nofun fun h ↦ hrunning h.1

theorem step_ctrlC_cases {installed : Bool}
    (hstep : step outcome state (.ctrlC installed) = some next) :
    state.point = .listening ∧
      (next = { state with point := .interrupted } ∨ next = state.exit .panicked) := by
  simp only [step] at hstep
  split_ifs at hstep with hpoint
  · exact ⟨hpoint, .inl (Option.some.inj hstep).symm⟩
  · exact ⟨hpoint, .inr (Option.some.inj hstep).symm⟩

theorem handleStep {label : Label} (hstep : step outcome state label = some next) :
    HandleStep outcome state label next := by
  cases label with
  | main =>
    rcases step_main_cases hstep with ⟨-, rfl⟩ | ⟨hpoint, rfl⟩ |
      ⟨handle, moved, -, hhandle, hmoved, rfl⟩ | ⟨handle, moved, -, hhandle, hmoved, rfl⟩ |
      ⟨handle, moved, -, hhandle, hmoved, ⟨-, rfl⟩ | ⟨_, -, -, rfl⟩ | ⟨-, rfl⟩⟩
    · exact .same rfl nofun
    · exact .started hpoint rfl rfl
    · exact .moved .shutdown hhandle rfl hmoved (.inr ⟨rfl, rfl⟩)
    · exact .moved .waitForStop hhandle rfl hmoved (.inr ⟨rfl, rfl⟩)
    · exact .moved .pollStop hhandle rfl hmoved (.inr ⟨rfl, rfl⟩)
    · exact .moved .pollStop hhandle rfl hmoved (.inr ⟨rfl, rfl⟩)
    · exact .moved .pollStop hhandle rfl hmoved (.inr ⟨rfl, rfl⟩)
  | server work =>
    obtain ⟨⟨hwork, -⟩, handle, moved, hhandle, hmoved, rfl⟩ := step_server_eq_some.mp hstep
    exact .moved work hhandle rfl hmoved (.inl ⟨rfl, hwork⟩)
  | ctrlC installed =>
    obtain ⟨-, rfl | rfl⟩ := step_ctrlC_cases hstep <;> exact .same rfl nofun

end StepCases

/-! ## The order of the steps -/

/-- No server has been started yet. -/
def Point.isEarly : Point → Bool
  | .begun | .loggingReady => true
  | .listening | .interrupted | .stopping | .joining | .returned | .panicked => false

/-- The logging has been initialised and the program has not ended. -/
def Point.logs : Point → Bool
  | .loggingReady | .listening | .interrupted | .stopping | .joining => true
  | .begun | .returned | .panicked => false

/-- The server has been told to stop. -/
def Point.pastShutdown : Point → Bool
  | .stopping | .joining | .returned => true
  | .begun | .loggingReady | .listening | .interrupted | .panicked => false

/-- Where the handle is when `main` has reached a point. -/
structure HandleAt (point : Point) (handle : ServiceHandler) : Prop where
  joins : handle.Joins
  idle : point.logs = true → point ≠ .joining → handle.idle = true
  cancelled : point.pastShutdown = true → handle.service.cancellationToken = true
  joining : point = .joining → ∃ taken, handle.stop = .joining taken
  returned : point = .returned → ∃ result, handle.stop = .completed result

/-- The handle follows `main`, which holds the guards until it ends. -/
structure Ordered (state : State) : Prop where
  guards : state.point.logs = true → state.guards = loggingOpts.writerGuards
  early : state.point.isEarly = true → state.serverHandle = none
  present : state.point.isEarly = false → state.serverHandle.isSome = true
  handle : ∀ handle ∈ state.serverHandle, HandleAt state.point handle

namespace HandleAt

variable {outcome : BindOutcome} {handle moved : ServiceHandler} {point : Point}

theorem of_started : HandleAt .listening startedHandle where
  joins := .of_service _ _
  idle _ _ := rfl
  cancelled := nofun
  joining := nofun
  returned := nofun

/-- A work step of the server is none of a call, and cancels no token. -/
theorem work (h : HandleAt point handle) {label : ServiceHandler.Label}
    (hwork : label.isWork = true)
    (hstep : ServiceHandler.step outcome handle label = some moved) : HandleAt point moved := by
  have hcalls : moved.stop = handle.stop ∧ moved.awaitingStart = handle.awaitingStart ∧
      moved.service.cancellationToken = handle.service.cancellationToken := by
    cases label with
    | task label =>
      obtain ⟨service, hservice, rfl⟩ := ServiceHandler.step_task_eq_some.mp hstep
      exact ⟨rfl, rfl, Service.step_cancellationToken hservice⟩
    | crash =>
      obtain ⟨-, rfl⟩ := ServiceHandler.step_crash_eq_some.mp hstep
      exact ⟨rfl, rfl, rfl⟩
    | reporter index result =>
      obtain ⟨-, rfl⟩ := ServiceHandler.step_reporter_eq_some.mp hstep
      exact ⟨rfl, rfl, rfl⟩
    | shutdown | waitForStart | resumeStart | waitForStop | pollStop => cases hwork
  obtain ⟨hstop, hawaiting, htoken⟩ := hcalls
  exact {
    joins := h.joins.step hstep
    idle := by
      rw [ServiceHandler.idle, hstop, hawaiting]
      exact h.idle
    cancelled := htoken ▸ h.cancelled
    joining := hstop ▸ h.joining
    returned := hstop ▸ h.returned }

theorem shutdown (h : HandleAt .interrupted handle)
    (hstep : ServiceHandler.step outcome handle .shutdown = some moved) :
    HandleAt .stopping moved := by
  have hjoins := h.joins.step hstep
  obtain rfl := ServiceHandler.step_shutdown_eq_some.mp hstep
  exact {
    joins := hjoins
    idle := fun _ _ ↦ h.idle rfl nofun
    cancelled := fun _ ↦ rfl
    joining := nofun
    returned := nofun }

theorem waitForStop (h : HandleAt .stopping handle)
    (hstep : ServiceHandler.step outcome handle .waitForStop = some moved) :
    HandleAt .joining moved := by
  have hjoins := h.joins.step hstep
  obtain ⟨-, rfl⟩ := ServiceHandler.step_waitForStop_eq_some.mp hstep
  exact {
    joins := hjoins
    idle := fun _ hpoint ↦ absurd rfl hpoint
    cancelled := fun _ ↦ h.cancelled rfl
    joining := fun _ ↦ ⟨_, rfl⟩
    returned := nofun }

/-- A poll leaves `main` where it is, or lets it return. -/
theorem pollStop (h : HandleAt .joining handle)
    (hstep : ServiceHandler.step outcome handle .pollStop = some moved) :
    moved.stop = .completed (.returned (.ok ())) ∧ handle.AllEnded ∧ HandleAt .returned moved ∨
      (∃ taken, moved.stop = .joining taken) ∧ ¬ handle.AllEnded ∧ HandleAt .joining moved := by
  have hjoins := h.joins.step hstep
  obtain ⟨taken, htaken, rfl⟩ := ServiceHandler.step_pollStop_eq_some.mp hstep
  rw [ServiceHandler.pollStop_eq (h.joins.joining taken htaken)] at hjoins ⊢
  split_ifs at hjoins ⊢ with hended
  · refine .inl ⟨rfl, hended, ?_⟩
    exact {
      joins := hjoins
      idle := nofun
      cancelled := fun _ ↦ h.cancelled rfl
      joining := nofun
      returned := fun _ ↦ ⟨_, rfl⟩ }
  · refine .inr ⟨⟨_, rfl⟩, hended, ?_⟩
    exact {
      joins := hjoins
      idle := fun _ hpoint ↦ absurd rfl hpoint
      cancelled := fun _ ↦ h.cancelled rfl
      joining := fun _ ↦ ⟨_, rfl⟩
      returned := nofun }

end HandleAt

section Order

variable {outcome : BindOutcome} {state next : State} {label : Label}

theorem Ordered.of_fresh : Ordered fresh where
  guards := nofun
  early _ := rfl
  present := nofun
  handle := by simp [fresh]

theorem Ordered.step (h : Ordered state)
    (hstep : HelloServer.step outcome state label = some next) :
    Ordered next := by
  cases label with
  | main =>
    rcases step_main_cases hstep with ⟨hpoint, rfl⟩ | ⟨hpoint, rfl⟩ |
      ⟨handle, moved, hpoint, hhandle, hmoved, rfl⟩ |
      ⟨handle, moved, hpoint, hhandle, hmoved, rfl⟩ |
      ⟨handle, moved, hpoint, hhandle, hmoved, hpoll⟩
    · exact {
        guards := fun _ ↦ rfl
        early := fun _ ↦ h.early (by rw [hpoint]; rfl)
        present := nofun
        handle := by simp [h.early (by rw [hpoint]; rfl)] }
    · exact {
        guards := fun _ ↦ h.guards (by rw [hpoint]; rfl)
        early := nofun
        present := fun _ ↦ rfl
        handle := by simpa using HandleAt.of_started }
    · exact {
        guards := fun _ ↦ h.guards (by rw [hpoint]; rfl)
        early := nofun
        present := fun _ ↦ rfl
        handle := by simpa using (hpoint ▸ h.handle handle hhandle : HandleAt _ _).shutdown hmoved }
    · exact {
        guards := fun _ ↦ h.guards (by rw [hpoint]; rfl)
        early := nofun
        present := fun _ ↦ rfl
        handle := by
          simpa using (hpoint ▸ h.handle handle hhandle : HandleAt _ _).waitForStop hmoved }
    · have hjoining : HandleAt .joining handle := hpoint ▸ h.handle handle hhandle
      rcases hjoining.pollStop hmoved with ⟨hstop, -, hreturned⟩ | ⟨⟨taken, hstop⟩, -, hwaiting⟩
      · obtain rfl : next = ({ state with serverHandle := some moved } : State).exit .returned := by
          simpa [hstop] using hpoll
        exact {
          guards := nofun
          early := nofun
          present := fun _ ↦ rfl
          handle := by simpa [State.exit] using hreturned }
      · obtain rfl : next = { state with serverHandle := some moved } := by
          simpa [hstop] using hpoll
        exact {
          guards := h.guards
          early := by simp [hpoint, Point.isEarly]
          present := fun _ ↦ rfl
          handle := by simpa [hpoint] using hwaiting }
  | server work =>
    obtain ⟨⟨hwork, -⟩, handle, moved, hhandle, hmoved, rfl⟩ := step_server_eq_some.mp hstep
    exact {
      guards := h.guards
      early := fun hearly ↦ by simp [h.early hearly] at hhandle
      present := fun _ ↦ rfl
      handle := by simpa using (h.handle handle hhandle).work hwork hmoved }
  | ctrlC installed =>
    obtain ⟨hpoint, rfl | rfl⟩ := step_ctrlC_cases hstep
    · exact {
        guards := fun _ ↦ h.guards (by rw [hpoint]; rfl)
        early := nofun
        present := fun _ ↦ h.present (by rw [hpoint]; rfl)
        handle := fun handle hhandle ↦ { h.handle handle hhandle with
          idle := fun _ _ ↦ (h.handle handle hhandle).idle (by rw [hpoint]; rfl) (by simp [hpoint])
          cancelled := nofun
          joining := nofun
          returned := nofun } }
    · exact {
        guards := nofun
        early := nofun
        present := fun _ ↦ h.present (by rw [hpoint]; rfl)
        handle := fun handle hhandle ↦ { h.handle handle hhandle with
          idle := nofun
          cancelled := nofun
          joining := nofun
          returned := nofun } }

end Order

/-! ## The return of `main` is a barrier -/

/-- The open connections of the server. -/
def State.connections (state : State) : Connections :=
  state.serverHandle.elim [] fun handle ↦ handle.service.connections

/-- The requests that the server has in flight. -/
def State.inFlight (state : State) : ℕ := state.connections.sum

/-- What happens on a connection in the step. -/
def Label.event : Label → Option ConnectionEvent
  | .server label => label.event
  | .main | .ctrlC _ => none

/-- No connection is open before the bind or after the end of the server task. -/
def Closed (state : State) : Prop := ∀ handle ∈ state.serverHandle, handle.Closed

/-- The server task crashes only without an open connection. -/
def CrashesClosed (state : State) (label : Label) : Prop :=
  label = .server .crash → state.connections = []

section Barrier

variable {outcome : BindOutcome} {state next : State} {label : Label}

/-- Only the server accounts for requests. -/
theorem step_inFlight (hordered : Ordered state) (hstep : step outcome state label = some next) :
    next.inFlight + (if label.event.any ConnectionEvent.endsRequest then 1 else 0) =
      state.inFlight + (if label.event = some .accept then 1 else 0) := by
  cases handleStep hstep with
  | same hhandle hlabel =>
    have hevent : label.event = none := by
      cases label with
      | server work => exact absurd rfl (hlabel work)
      | main | ctrlC => rfl
    rw [State.inFlight, State.connections, hhandle, hevent]
    rfl
  | started hpoint hlabel hhandle =>
    have hearly := hordered.early (by rw [hpoint]; rfl)
    rw [State.inFlight, State.inFlight, State.connections, State.connections, hhandle, hearly,
      hlabel]
    rfl
  | moved call hhandle hnext hmoved hlabel =>
    have hinFlight := ServiceHandler.step_inFlight hmoved
    rw [State.inFlight, State.inFlight, State.connections, State.connections, hhandle, hnext]
    rcases hlabel with ⟨rfl, -⟩ | ⟨rfl, hcall⟩
    · exact hinFlight
    · have hevent : call.event = none := by
        cases call <;> first | rfl | cases hcall
      rw [hevent] at hinFlight
      exact hinFlight

/-- A step leaves an ended server task without connections exactly if it is not a crash with one. -/
theorem closed_step_iff (hclosed : Closed state) (hstep : step outcome state label = some next) :
    Closed next ↔ CrashesClosed state label := by
  cases handleStep hstep with
  | same hhandle hlabel =>
    rw [Closed, hhandle]
    exact iff_of_true hclosed fun hcrash ↦ absurd hcrash (hlabel _)
  | started hpoint hlabel hhandle =>
    subst hlabel
    rw [Closed, hhandle]
    exact iff_of_true (by simp [startedHandle, Service.handler, ServiceHandler.Closed]) nofun
  | @moved handle moved call hhandle hnext hmoved hlabel =>
    calc Closed next ↔ moved.Closed := by simp [Closed, hnext]
      _ ↔ ServiceHandler.CrashesClosed handle call :=
        ServiceHandler.closed_step_iff (hclosed handle hhandle) hmoved
      _ ↔ CrashesClosed state label := by
        rcases hlabel with ⟨rfl, -⟩ | ⟨rfl, hcall⟩
        · simp [CrashesClosed, ServiceHandler.CrashesClosed, State.connections, hhandle]
        · refine iff_of_true ?_ nofun
          rintro rfl
          cases hcall

/-- If the server task crashes only without a connection, none is open after its end. -/
theorem closed_of_run {schedule : List Label}
    (heach : (step outcome).Each CrashesClosed fresh schedule)
    (hrun : (step outcome).run fresh schedule = some state) : Closed state := by
  have hfresh : Closed fresh := by simp [Closed, fresh]
  have halways : (step outcome).Always Closed fresh schedule :=
    (Step.always_iff_each (fun _ _ _ (_ : True) _ ↦ trivial)
      (fun _ _ _ _ hclosed hstep ↦ closed_step_iff hclosed hstep) trivial hfresh schedule).mpr
        heach
  exact halways schedule state List.prefix_rfl hrun

end Barrier

/-- When `main` has returned, its server was told to stop, the server task and the reporters have
ended, and no connection is open unless the server task crashed with one, so that every request has
been answered or has ended without an answer.  The standard output is written as long as the
program runs after it has a server. -/
theorem main_is_barrier (outcome : BindOutcome) {state : State} {schedule : List Label}
    (hrun : (step outcome).run fresh schedule = some state) :
    (schedule.countP (·.event = some .respond) + schedule.countP (·.event = some .abort) +
      state.inFlight = schedule.countP (·.event = some .accept)) ∧
    (state.point = .returned →
      (∃ handle ∈ state.serverHandle,
        handle.service.cancellationToken = true ∧ handle.AllEnded) ∧
      ((step outcome).Each CrashesClosed fresh schedule →
        state.connections = [] ∧ state.inFlight = 0)) ∧
    (state.point.isRunning = true → state.serverHandle.isSome = true →
      state.guards = [.stdout]) := by
  have hkeep : ∀ state label next, Ordered state → step outcome state label = some next →
      Ordered next := fun _ _ _ h hstep ↦ h.step hstep
  have hordered : Ordered state :=
    (Step.Reachable.of_run hrun).invariant Ordered .of_fresh hkeep
  refine ⟨?_, fun hpoint ↦ ?_, fun hrunning hstarted ↦ ?_⟩
  · have hmove (state : State) (label : Label) (next : State) (h : Ordered state)
        (hstep : step outcome state label = some next) :
        next.inFlight + (if label.event.any ConnectionEvent.endsRequest then 1 else 0) =
          state.inFlight + (if decide (label.event = some .accept) then 1 else 0) := by
      simpa using step_inFlight h hstep
    have hbalance : state.inFlight +
        schedule.countP (fun label ↦ label.event.any ConnectionEvent.endsRequest) =
          fresh.inFlight + schedule.countP (·.event = some .accept) :=
      Step.add_countP_eq_of_invariant Ordered hkeep hmove .of_fresh hrun
    rw [Connections.countP_endsRequest Label.event] at hbalance
    have hfresh : fresh.inFlight = 0 := rfl
    omega
  · obtain ⟨handle, hhandle⟩ := Option.isSome_iff_exists.mp
      (hordered.present (by rw [hpoint]; rfl))
    have hat := hordered.handle handle hhandle
    obtain ⟨result, hresult⟩ := hat.returned hpoint
    have hended := (hat.joins.completed result hresult).2
    refine ⟨⟨handle, hhandle, hat.cancelled (by rw [hpoint]; rfl), hended⟩, fun heach ↦ ?_⟩
    have hconnections : state.connections = [] := by
      rw [State.connections, hhandle]
      exact closed_of_run heach hrun handle hhandle (.inr hended.task)
    exact ⟨hconnections, by rw [State.inFlight, hconnections, List.sum_nil]⟩
  · have hlogs : state.point.logs = true := by
      cases hpoint : state.point with
      | begun => simp [hordered.early (by rw [hpoint]; rfl)] at hstarted
      | returned | panicked => simp [hpoint, Point.isRunning] at hrunning
      | loggingReady | listening | interrupted | stopping | joining => rfl
    rw [hordered.guards hlogs]
    rfl

/-- A request in flight at Ctrl+C is answered before `main` returns. -/
theorem main_answers_request :
    let schedule : List Label := [.main, .main, .server (.task .bind),
      .server (.task .signalStarted), .server (.task .connect),
      .server (.task (.connection 0 .accept)), .server (.reporter 0 .ok), .ctrlC true, .main,
      .main, .main, .server (.task .drain), .server (.task (.connection 0 .respond)),
      .server (.task (.connection 0 .close)), .server (.task .finish), .main]
    ∃ state, (step .bound).run fresh schedule = some state ∧ state.point = .returned ∧
      state.connections = [] ∧ state.inFlight = 0 := by
  intro schedule
  have hrun : (step .bound).run fresh schedule = some {
      point := .returned
      serverHandle := some {
        service := ⟨.grpc, ⟨.v6 [0, 0, 0, 0, 0, 0, 0, 1] 0, 50051⟩, true, .sent, .finished, []⟩
        reporterHandles := [some .ok]
        stop := .completed (.returned (.ok ())) } } := by
    decide +kernel
  have heach : (step .bound).Each CrashesClosed fresh schedule := by
    rintro visited label state next hvisited - - rfl
    exact absurd (hvisited.subset (by simp)) (by decide : Label.server .crash ∉ schedule)
  exact ⟨_, hrun, rfl, ((main_is_barrier .bound hrun).2.1 rfl).2 heach⟩

/-! ## After Ctrl+C the program ends -/

/-- `main` has been interrupted and has not panicked. -/
def Point.pastInterrupt : Point → Bool
  | .interrupted | .stopping | .joining | .returned => true
  | .begun | .loggingReady | .listening | .panicked => false

/-- The number of steps of `main` from here on that are not in vain. -/
def Point.remaining : Point → ℕ
  | .interrupted => 3
  | .stopping => 2
  | .joining => 1
  | .begun | .loggingReady | .listening | .returned | .panicked => 0

/-- The most steps of an interrupted program that are its own and not in vain. -/
def State.remaining (state : State) : ℕ :=
  state.point.remaining + state.serverHandle.elim 0 ServiceHandler.remaining

/-- The server task or a reporter moves by itself. -/
def Label.isOwn : Label → Bool
  | .server label => label.isOwn
  | .main | .ctrlC _ => false

/-- The server waits in the drain for an open connection. -/
def WaitsForClients (state : State) : Prop :=
  ∃ handle ∈ state.serverHandle,
    handle.service.task = .draining ∧ handle.service.connections ≠ []

section Ends

variable {outcome : BindOutcome} {state next : State} {label : Label}

/-- Where `main` goes on, less remains. -/
theorem remaining_lt_of_point {handle moved : ServiceHandler} {point : Point}
    {guards : List WorkerGuard} (hhandle : state.serverHandle = some handle)
    (hmoved : moved.remaining ≤ handle.remaining)
    (hpoint : point.remaining < state.point.remaining) :
    State.remaining { point, guards, serverHandle := some moved } < state.remaining := by
  simp only [State.remaining, hhandle, Option.elim_some]
  omega

/-- An interrupted program stays one, and its steps use up what remains. -/
theorem step_remaining (hordered : Ordered state) (hpast : state.point.pastInterrupt = true)
    (hstep : step outcome state label = some next) :
    next.point.pastInterrupt = true ∧
      next.remaining + (if label.isOwn then 1 else 0) ≤ state.remaining := by
  cases label with
  | main =>
    change _ ∧ next.remaining ≤ state.remaining
    rcases step_main_cases hstep with ⟨hpoint, rfl⟩ | ⟨hpoint, rfl⟩ |
      ⟨handle, moved, hpoint, hhandle, hmoved, rfl⟩ |
      ⟨handle, moved, hpoint, hhandle, hmoved, rfl⟩ |
      ⟨handle, moved, hpoint, hhandle, hmoved, hpoll⟩
    · simp [hpoint, Point.pastInterrupt] at hpast
    · simp [hpoint, Point.pastInterrupt] at hpast
    · have hless := Nat.le_of_add_right_le (ServiceHandler.step_remaining hmoved)
      exact ⟨rfl, (remaining_lt_of_point hhandle hless (by rw [hpoint]; decide)).le⟩
    · have hless := Nat.le_of_add_right_le (ServiceHandler.step_remaining hmoved)
      exact ⟨rfl, (remaining_lt_of_point hhandle hless (by rw [hpoint]; decide)).le⟩
    · have hless := Nat.le_of_add_right_le (ServiceHandler.step_remaining hmoved)
      have hjoining : HandleAt .joining handle := hpoint ▸ hordered.handle handle hhandle
      rcases hjoining.pollStop hmoved with ⟨hstop, -, -⟩ | ⟨⟨taken, hstop⟩, -, -⟩
      · obtain rfl : next = ({ state with serverHandle := some moved } : State).exit .returned := by
          simpa [hstop] using hpoll
        exact ⟨rfl, (remaining_lt_of_point hhandle hless (by rw [hpoint]; decide)).le⟩
      · obtain rfl : next = { state with serverHandle := some moved } := by
          simpa [hstop] using hpoll
        refine ⟨hpast, ?_⟩
        simp only [State.remaining, hhandle, Option.elim_some]
        omega
  | server work =>
    obtain ⟨⟨hwork, -⟩, handle, moved, hhandle, hmoved, rfl⟩ := step_server_eq_some.mp hstep
    have hremaining := ServiceHandler.step_remaining hmoved
    refine ⟨hpast, ?_⟩
    rw [State.remaining, State.remaining, hhandle, Nat.add_assoc]
    exact Nat.add_le_add_left hremaining _
  | ctrlC installed =>
    obtain ⟨hpoint, -⟩ := step_ctrlC_cases hstep
    simp [hpoint, Point.pastInterrupt] at hpast

/-- Until `main` returns, an interrupted program can make a step of its own that is not in vain,
unless it waits for its clients. -/
theorem exists_step_of_not_returned (hordered : Ordered state)
    (hpast : state.point.pastInterrupt = true) (hrunning : state.point ≠ .returned) :
    (∃ label next, (label = .main ∨ label.isOwn = true ∧ label ≠ .server .crash) ∧
      step outcome state label = some next ∧ next.remaining < state.remaining) ∨
    WaitsForClients state := by
  have hstarted : state.point.isEarly = false := by
    cases hpoint : state.point <;> simp_all [Point.pastInterrupt, Point.isEarly]
  obtain ⟨handle, hhandle⟩ := Option.isSome_iff_exists.mp (hordered.present hstarted)
  have hat := hordered.handle handle hhandle
  cases hpoint : state.point with
  | begun | loggingReady | listening | panicked => simp [hpoint, Point.pastInterrupt] at hpast
  | returned => exact absurd hpoint hrunning
  | interrupted =>
    refine .inl ⟨.main, { state with
      serverHandle := some { handle with service := handle.service.shutdown }
      point := .stopping }, .inl rfl, ?_, ?_⟩
    · simp [step, mainStep, hpoint, hhandle, ServiceHandler.step]
    · exact remaining_lt_of_point hhandle le_rfl (by rw [hpoint]; decide)
  | stopping =>
    have hidle : handle.idle = true := hat.idle (by rw [hpoint]; rfl) (by simp [hpoint])
    refine .inl ⟨.main, { state with
      serverHandle := some handle.waitForStop, point := .joining }, .inl rfl, ?_, ?_⟩
    · simp [step, mainStep, hpoint, hhandle, ServiceHandler.step, hidle]
    · exact remaining_lt_of_point hhandle le_rfl (by rw [hpoint]; decide)
  | joining =>
    obtain ⟨taken, htaken⟩ := hat.joining hpoint
    by_cases hended : handle.AllEnded
    · refine .inl ⟨.main, ({ state with
        serverHandle := some { handle with stop := .completed (.returned (.ok ())) } } :
          State).exit .returned, .inl rfl, ?_, ?_⟩
      · simp [step, mainStep, hpoint, hhandle, ServiceHandler.step, htaken,
          ServiceHandler.pollStop_eq (hat.joins.joining taken htaken), hended]
      · exact remaining_lt_of_point hhandle le_rfl (by rw [hpoint]; decide)
    · have hcancelled := hat.cancelled (by rw [hpoint]; rfl)
      rcases ServiceHandler.exists_own_of_not_allEnded outcome hcancelled hended with
        ⟨work, moved, hown, hcrash, hmoved⟩ | hwaits
      · have hwork : work.isWork = true := by
          cases work <;> first | rfl | cases hown
        have hstep : step outcome state (.server work) =
            some { state with serverHandle := some moved } :=
          step_server_eq_some.mpr
            ⟨⟨hwork, by rw [hpoint]; rfl⟩, handle, moved, hhandle, hmoved, rfl⟩
        obtain ⟨-, hremaining⟩ := step_remaining hordered hpast hstep
        rw [if_pos (show (Label.server work).isOwn = true from hown)] at hremaining
        exact .inl ⟨.server work, _, .inr ⟨hown, by simpa using hcrash⟩, hstep, hremaining⟩
      · exact .inr ⟨handle, hhandle, hwaits⟩

end Ends

/-- After Ctrl+C the program comes to its end if the clients let it, under every interleaving: it
never panics, the steps that the server makes by itself are bounded, and until `main` returns some
step of its own brings the end closer, or the server waits in the drain for an open connection. -/
theorem interrupted_main_returns (outcome : BindOutcome) {state final : State}
    (hreachable : (step outcome).Reachable fresh state)
    (hinterrupted : state.point.pastInterrupt = true) {schedule : List Label}
    (hrun : (step outcome).run state schedule = some final) :
    final.point.pastInterrupt = true ∧
    (final.remaining + schedule.countP Label.isOwn ≤ state.remaining) ∧
    (final.point ≠ .returned →
      (∃ label next, (label = .main ∨ label.isOwn = true ∧ label ≠ .server .crash) ∧
        step outcome final label = some next ∧ next.remaining < final.remaining) ∨
      WaitsForClients final) := by
  have hkeep (state : State) (label : Label) (next : State)
      (h : Ordered state ∧ state.point.pastInterrupt = true)
      (hstep : step outcome state label = some next) :
      Ordered next ∧ next.point.pastInterrupt = true :=
    ⟨h.1.step hstep, (step_remaining h.1 h.2 hstep).1⟩
  have hinitial : Ordered state ∧ state.point.pastInterrupt = true := by
    refine ⟨hreachable.invariant Ordered .of_fresh ?_, hinterrupted⟩
    exact fun _ _ _ h hstep ↦ h.step hstep
  obtain ⟨hordered, hpast⟩ := (Step.Reachable.of_run hrun).invariant
    (fun state ↦ Ordered state ∧ state.point.pastInterrupt = true) hinitial hkeep
  refine ⟨hpast, ?_, exists_step_of_not_returned hordered hpast⟩
  exact Step.add_countP_le_of_invariant
    (fun state ↦ Ordered state ∧ state.point.pastInterrupt = true) hkeep
    (fun _ _ _ h hstep ↦ (step_remaining h.1 h.2 hstep).2) hinitial hrun

/-- A program that is interrupted before its server has bound the address goes on to its end. -/
theorem interrupted_main_goes_on :
    let interrupted : State :=
      { point := .interrupted, guards := [.stdout], serverHandle := some startedHandle }
    ∃ label next, (label = .main ∨ label.isOwn = true ∧ label ≠ .server .crash) ∧
      step .addrInUse interrupted label = some next ∧ next.remaining < interrupted.remaining := by
  intro interrupted
  have hrun : (step .addrInUse).run fresh [.main, .main, .ctrlC true] = some interrupted := by
    decide +kernel
  rcases (interrupted_main_returns .addrInUse (.of_run hrun) rfl (Step.run_nil _ _)).2.2
    (by decide) with hstep | ⟨handle, hhandle, hdraining, -⟩
  · exact hstep
  · obtain rfl := Option.some.inj hhandle
    cases hdraining

end Filestore.Examples.HelloServer
