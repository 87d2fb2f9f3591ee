import Filestore.App.Lifecycle

/-!
# What a call of `start` leaves behind

A failing call keeps the running flag set and drops the handle of a server that it has started, so
it is atomic only if it cannot fail.  A successful call returns without waiting for the server
tasks, so the listeners are bound at that time only if both tasks happened to bind before.
-/

namespace Filestore.App

open Server Transition

/-- The bind address of each server parses. -/
def AppConfig.AddressesParse (config : AppConfig) : Prop :=
  (SocketAddr.parse config.grpcConfig.bindAddress).isSome = true ∧
    (SocketAddr.parse config.httpConfig.bindAddress).isSome = true

instance (config : AppConfig) : Decidable config.AddressesParse :=
  inferInstanceAs (Decidable (_ ∧ _))

/-! ## The call of `start` on its own -/

section Call

variable {env : Env} {state next : State}

/-- `start` has returned before a step, or the step is its last one. -/
theorem returned_of_step {label : Label} (hstep : step env state label = some next)
    (hreturned : next.start = .returned) :
    state.start = .returned ∨ label = .start ∧ state.start = .mainSpawned := by
  by_cases hlabel : label = .start
  · subst hlabel
    rcases startStep_cases hstep with ⟨-, rfl⟩ | ⟨-, rfl⟩ | ⟨-, _, -, rfl⟩ | ⟨-, _, -, rfl⟩ |
      ⟨-, _, _, -, rfl⟩ | ⟨-, _, -, rfl⟩ | ⟨-, rfl⟩ | ⟨hpoint, rfl⟩
    on_goal 8 => exact .inr ⟨rfl, hpoint⟩
    all_goals cases hreturned
  · rw [(step_frame hstep).start hlabel] at hreturned
    exact .inl hreturned

theorem startGrpcServer_of_parse {config : GrpcServerConfig}
    (hparse : (SocketAddr.parse config.bindAddress).isSome = true) :
    ∃ grpc, startGrpcServer config = .ok grpc := by
  obtain ⟨addr, haddr⟩ := Option.isSome_iff_exists.mp hparse
  exact ⟨_, startGrpcServer_of_some haddr⟩

theorem startRestServer_of_parse {config : RestServerConfig} (routeHandlers : List RouteHandler)
    (hparse : (SocketAddr.parse config.bindAddress).isSome = true) :
    ∃ rest router, startRestServer config routeHandlers = .ok (rest, router) := by
  obtain ⟨addr, haddr⟩ := Option.isSome_iff_exists.mp hparse
  exact ⟨_, _, startRestServer_of_some routeHandlers haddr⟩

theorem parse_of_startGrpcServer {config : GrpcServerConfig} {grpc : Service}
    (hstart : startGrpcServer config = .ok grpc) :
    (SocketAddr.parse config.bindAddress).isSome = true := by
  unfold startGrpcServer at hstart
  split at hstart
  next haddr => rw [haddr]; rfl
  next => cases hstart

theorem parse_of_startRestServer {config : RestServerConfig} {routeHandlers : List RouteHandler}
    {rest : Service} {router : Router}
    (hstart : startRestServer config routeHandlers = .ok (rest, router)) :
    (SocketAddr.parse config.bindAddress).isSome = true := by
  unfold startRestServer at hstart
  split at hstart
  next haddr => rw [haddr]; rfl
  next => cases hstart

/-- An application whose `start` has run to its end before any other party moved. -/
def started (grpc rest : Service) : State where
  running := true
  start := .returned
  grpc := some grpc
  rest := some rest
  main := .spawned
  handle := .idle

/-- With two good addresses, `start` on its own returns `Ok`. -/
theorem run_start (hparse : env.config.AddressesParse) :
    ∃ grpc rest, grpc.task = .spawned ∧ grpc.cancellationToken = false ∧
      rest.task = .spawned ∧ rest.cancellationToken = false ∧
      (step env).run fresh (List.replicate 6 .start) = some (started grpc rest) := by
  obtain ⟨grpc, hgrpc⟩ := startGrpcServer_of_parse hparse.1
  obtain ⟨rest, router, hrest⟩ := startRestServer_of_parse [healthRoutes] hparse.2
  obtain ⟨hgrpcTask, hgrpcToken, -⟩ := startGrpcServer_ok hgrpc
  obtain ⟨hrestTask, hrestToken, -⟩ := startRestServer_ok hrest
  refine ⟨grpc, rest, hgrpcTask, hgrpcToken, hrestTask, hrestToken, ?_⟩
  simp [List.replicate, step, startStep, fresh, hgrpc, hrest, started]

/-- With two good addresses, no call of `start` fails. -/
theorem start_ne_failed (hparse : env.config.AddressesParse)
    (hreachable : (step env).Reachable fresh state) (error : Whatever) :
    state.start ≠ .failed error := by
  obtain ⟨grpc, hgrpc⟩ := startGrpcServer_of_parse hparse.1
  obtain ⟨rest, router, hrest⟩ := startRestServer_of_parse [healthRoutes] hparse.2
  apply hreachable.invariant (fun state ↦ state.start ≠ .failed error) (by simp [fresh])
  intro state label next hok hstep
  by_cases hlabel : label = .start
  · subst hlabel
    rcases startStep_cases hstep with h | h | ⟨-, h⟩ | ⟨-, h⟩ | ⟨-, h⟩ | ⟨-, h⟩ | h | h <;>
      simp_all
  · rwa [(step_frame hstep).start hlabel]

/-- `start` gets past a server only if the server's address parses. -/
def ParsedSoFar (config : AppConfig) (state : State) : Prop :=
  (state.start.pastGrpc = true →
    (SocketAddr.parse config.grpcConfig.bindAddress).isSome = true) ∧
  (state.start.pastRest = true →
    (SocketAddr.parse config.httpConfig.bindAddress).isSome = true)

theorem ParsedSoFar.step {label : Label} (h : ParsedSoFar env.config state)
    (hstep : App.step env state label = some next) : ParsedSoFar env.config next := by
  by_cases hlabel : label = .start
  · subst hlabel
    rcases startStep_cases hstep with ⟨hpoint, rfl⟩ | ⟨hpoint, rfl⟩ | ⟨hpoint, grpc, hok, rfl⟩ |
      ⟨hpoint, _, -, rfl⟩ | ⟨hpoint, rest, router, hok, rfl⟩ | ⟨hpoint, _, -, rfl⟩ |
      ⟨hpoint, rfl⟩ | ⟨hpoint, rfl⟩
    · exact ⟨nofun, nofun⟩
    · exact ⟨nofun, nofun⟩
    · exact ⟨fun _ ↦ parse_of_startGrpcServer hok, nofun⟩
    · exact ⟨nofun, nofun⟩
    · exact ⟨fun _ ↦ h.1 (by rw [hpoint]; rfl), fun _ ↦ parse_of_startRestServer hok⟩
    · exact ⟨nofun, nofun⟩
    · exact ⟨fun _ ↦ h.1 (by rw [hpoint]; rfl), fun _ ↦ h.2 (by rw [hpoint]; rfl)⟩
    · exact ⟨fun _ ↦ h.1 (by rw [hpoint]; rfl), fun _ ↦ h.2 (by rw [hpoint]; rfl)⟩
  · rwa [ParsedSoFar, (step_frame hstep).start hlabel]

theorem addressesParse_of_returned (hreachable : (App.step env).Reachable fresh state)
    (hreturned : state.start = .returned) : env.config.AddressesParse := by
  have hfresh : ParsedSoFar env.config fresh := by
    constructor <;> simp [fresh, StartPoint.pastGrpc, StartPoint.pastRest]
  have hparsed : ParsedSoFar env.config state :=
    hreachable.invariant (ParsedSoFar env.config) hfresh fun _ _ _ h hstep ↦ h.step hstep
  rw [ParsedSoFar, hreturned] at hparsed
  exact ⟨hparsed.1 rfl, hparsed.2 rfl⟩

end Call

/-! ## A failing call -/

/-- The flag is cleared, and every server task has ended or was told to stop. -/
structure RolledBack (state : State) : Prop where
  running : state.running = false
  grpc : ∀ grpc ∈ state.grpc, grpc.task.ended = true ∨ grpc.cancellationToken = true
  rest : ∀ rest ∈ state.rest, rest.task.ended = true ∨ rest.cancellationToken = true

/-- A bad address makes `start` fail with the flag set. -/
theorem exists_failed_running {env : Env} (hparse : ¬ env.config.AddressesParse) :
    ∃ schedule state error, (step env).run fresh schedule = some state ∧
      state.start = .failed error ∧ state.running = true := by
  by_cases hgrpc : (SocketAddr.parse env.config.grpcConfig.bindAddress).isSome = true
  · obtain ⟨grpc, hstart⟩ := startGrpcServer_of_parse hgrpc
    have hrest : SocketAddr.parse env.config.httpConfig.bindAddress = none := by
      simpa [AppConfig.AddressesParse, hgrpc] using hparse
    refine ⟨List.replicate 4 .start, {
      running := true
      start := .failed ⟨"Failed to start REST server",
        .parseAddressError env.config.httpConfig.bindAddress⟩
      shutdownTx := .dropped
      grpc := some grpc }, _, ?_, rfl, rfl⟩
    simp [List.replicate, step, startStep, fresh, hstart, startRestServer_of_none _ hrest]
  · have hnone : SocketAddr.parse env.config.grpcConfig.bindAddress = none := by
      simpa using hgrpc
    refine ⟨List.replicate 3 .start, {
      running := true
      start := .failed ⟨"Failed to start gRPC server",
        .parseAddressError env.config.grpcConfig.bindAddress⟩
      shutdownTx := .dropped }, _, ?_, rfl, rfl⟩
    simp [List.replicate, step, startStep, fresh, startGrpcServer_of_none hnone]

/-- Over all schedules, `start` is atomic on failure exactly when both addresses parse, and it
does not fail then. -/
theorem start_atomic_iff (env : Env) :
    (∀ state, (step env).Reachable fresh state →
      ∀ error, state.start = .failed error → RolledBack state) ↔
        env.config.AddressesParse := by
  constructor
  · intro hatomic
    by_contra hparse
    obtain ⟨schedule, state, error, hrun, hfailed, hrunning⟩ := exists_failed_running hparse
    have hrolled := (hatomic state (.of_run hrun) error hfailed).running
    rw [hrunning] at hrolled
    cases hrolled
  · intro hparse state hreachable error hfailed
    exact absurd hfailed (start_ne_failed hparse hreachable error)

/-- With a bad REST address, `start` fails while the flag is set and the gRPC server, which nothing
can stop any more, has bound its listener. -/
theorem start_leaks_grpc_server :
    let env : Env := {
      config := { httpConfig := { bindAddress := "localhost:3000" } }
      bind := fun _ ↦ .bound }
    ∃ state grpc,
      (step env).run fresh [.start, .start, .start, .grpc .bind, .start] = some state ∧
        state.start = .failed ⟨"Failed to start REST server",
          .parseAddressError "localhost:3000"⟩ ∧
        state.running = true ∧ state.grpc = some grpc ∧ grpc.task = .bound ∧
        grpc.cancellationToken = false ∧ ¬ RolledBack state := by
  intro env
  refine ⟨{
    running := true
    start := .failed ⟨"Failed to start REST server", .parseAddressError "localhost:3000"⟩
    shutdownTx := .dropped
    grpc := some ⟨.grpc, ⟨.v4 [127, 0, 0, 1], 50051⟩, false, .held, .bound, []⟩ }, _,
    by decide +kernel, rfl, rfl, rfl, rfl, rfl, fun hrolled ↦ ?_⟩
  cases hrolled.running

/-! ## A successful call -/

/-- Both listeners have been bound. -/
def BothBound (state : State) : Prop :=
  (∃ grpc ∈ state.grpc, grpc.task.hasBound = true) ∧
    ∃ rest ∈ state.rest, rest.task.hasBound = true

/-- A server task has ended because its bind failed. -/
def BindFailed (state : State) : Prop :=
  (∃ grpc ∈ state.grpc, grpc.task = .failed ∨ grpc.task = .panicked) ∨
    ∃ rest ∈ state.rest, rest.task = .failed ∨ rest.task = .panicked

/-- `start` returns `Ok` only with both listeners bound and not at all if one cannot be bound, and
a running application that nobody has shut down has lost no server to a failed bind. -/
structure Serves (env : Env) (state : State) : Prop where
  bound : state.start = .returned → BothBound state
  bindable : state.start = .returned → ∀ kind, env.bind kind = .bound
  alive : state.start = .returned → state.triggered env.config = false → state.handle = .idle →
    state.running = true → ¬ BindFailed state

/-- No task is yet to bind its address, and both binds succeed. -/
def BindsDone (env : Env) (state : State) : Prop :=
  (∀ kind, env.bind kind = .bound) ∧ (step env).Blocked state (.grpc .bind) ∧
    (step env).Blocked state (.rest .bind)

/-- `start` takes its last step, which returns `Ok`, only when the binds are done. -/
def ReturnsAfterBinds (env : Env) (state : State) (label : Label) : Prop :=
  label = .start → state.start = .mainSpawned → BindsDone env state

section Serving

variable {env : Env} {state next : State}

/-- A bound listener stays bound, whatever the parties do. -/
theorem BothBound.step {label : Label} (h : BothBound state)
    (hstarted : state.start.pastRest = true) (hstep : App.step env state label = some next) :
    BothBound next := by
  obtain ⟨hgrpc, hrest⟩ := step_moves hstarted hstep
  exact ⟨hgrpc.preserves (fun _ _ _ hbound hmoved ↦ Service.step_hasBound hmoved hbound)
      (fun _ hbound ↦ hbound) h.1,
    hrest.preserves (fun _ _ _ hbound hmoved ↦ Service.step_hasBound hmoved hbound)
      (fun _ hbound ↦ hbound) h.2⟩

/-- Everything in `Serves` follows from the bound listeners. -/
theorem serves_iff (hcoherent : Coherent env state) :
    Serves env state ↔ (state.start = .returned → BothBound state) := by
  refine ⟨Serves.bound, fun hbound ↦ ⟨hbound, fun hreturned kind ↦ ?_, fun hreturned _ _ _ ↦ ?_⟩⟩
  · obtain ⟨⟨grpc, hgrpc, hgrpcBound⟩, rest, hrest, hrestBound⟩ := hbound hreturned
    cases kind with
    | grpc => exact (hcoherent.grpc grpc hgrpc).bound hgrpcBound
    | rest => exact (hcoherent.rest rest hrest).bound hrestBound
  · obtain ⟨⟨grpc, hgrpc, hgrpcBound⟩, rest, hrest, hrestBound⟩ := hbound hreturned
    rintro (⟨other, hother, hfailed⟩ | ⟨other, hother, hfailed⟩)
    · obtain rfl : grpc = other := Option.some.inj (hgrpc.symm.trans hother)
      rcases hfailed with hfailed | hfailed <;> simp [hfailed, TaskState.hasBound] at hgrpcBound
    · obtain rfl : rest = other := Option.some.inj (hrest.symm.trans hother)
      rcases hfailed with hfailed | hfailed <;> simp [hfailed, TaskState.hasBound] at hrestBound

/-- With both servers started, the listeners are bound exactly when the binds are done. -/
theorem bothBound_iff_bindsDone (hcoherent : Coherent env state)
    (hstarted : state.start.pastRest = true) : BothBound state ↔ BindsDone env state := by
  obtain ⟨grpc, rest, hgrpc, hrest⟩ := hcoherent.exists_servers hstarted
  have hgrpcBound := (hcoherent.grpc grpc hgrpc).hasBound_iff
  have hrestBound := (hcoherent.rest rest hrest).hasBound_iff
  rw [← blocked_grpc_iff hgrpc] at hgrpcBound
  rw [← blocked_rest_iff hrest] at hrestBound
  have hkinds : (∀ kind, env.bind kind = .bound) ↔
      env.bind .grpc = .bound ∧ env.bind .rest = .bound :=
    ⟨fun h ↦ ⟨h .grpc, h .rest⟩, fun h kind ↦ by cases kind; exacts [h.1, h.2]⟩
  have hbothBound : BothBound state ↔
      grpc.task.hasBound = true ∧ rest.task.hasBound = true := by
    simp [BothBound, hgrpc, hrest]
  rw [hbothBound, hgrpcBound, hrestBound, BindsDone, hkinds]
  exact and_and_and_comm

/-- One step keeps the application serving exactly when it is not a return before the binds. -/
theorem serves_step_iff {label : Label} (hcoherent : Coherent env state)
    (hserves : Serves env state) (hstep : App.step env state label = some next) :
    Serves env next ↔ ReturnsAfterBinds env state label := by
  rw [serves_iff (hcoherent.step hstep)]
  by_cases hlast : label = .start ∧ state.start = .mainSpawned
  · obtain ⟨rfl, hpoint⟩ := hlast
    obtain rfl : { state with handle := .idle, start := .returned } = next := by
      simpa [App.step, startStep, hpoint] using hstep
    have hbothBound := bothBound_iff_bindsDone hcoherent (by rw [hpoint]; rfl)
    exact ⟨fun h _ _ ↦ hbothBound.mp (h rfl), fun h _ ↦ hbothBound.mpr (h rfl hpoint)⟩
  · refine iff_of_true (fun hreturned ↦ ?_) fun hlabel hpoint ↦ absurd ⟨hlabel, hpoint⟩ hlast
    rcases returned_of_step hstep hreturned with hbefore | hbefore
    · exact (hserves.bound hbefore).step (by rw [hbefore]; rfl) hstep
    · exact absurd hbefore hlast

end Serving

/-- A run serves exactly when `start` returns only after both binds have succeeded, and with good
addresses there is always a run in which it returns earlier. -/
theorem serves_iff_returns_after_binds (env : Env) :
    (∀ schedule, (step env).Always (Serves env) fresh schedule ↔
      (step env).Each (ReturnsAfterBinds env) fresh schedule) ∧
    (env.config.AddressesParse →
      ¬ ∀ state, (step env).Reachable fresh state → Serves env state) := by
  constructor
  · intro schedule
    have hfresh : Serves env fresh := by constructor <;> simp [fresh]
    exact Step.always_iff_each (fun _ _ _ (h : Coherent env _) hstep ↦ h.step hstep)
      (fun _ _ _ hcoherent hserves hstep ↦ serves_step_iff hcoherent hserves hstep)
      (Coherent.of_fresh env) hfresh schedule
  · intro hparse hserves
    obtain ⟨grpc, rest, hgrpc, -, -, -, hrun⟩ := run_start hparse
    obtain ⟨⟨other, hother, hbound⟩, -⟩ := (hserves _ (.of_run hrun)).bound rfl
    obtain rfl : grpc = other := Option.some.inj hother
    simp [hgrpc, TaskState.hasBound] at hbound

/-- The default configuration does not serve on every schedule, even if both binds succeed. -/
theorem default_does_not_serve :
    ¬ ∀ state, (step { config := {}, bind := fun _ ↦ .bound }).Reachable fresh state →
      Serves { config := {}, bind := fun _ ↦ .bound } state :=
  (serves_iff_returns_after_binds { config := {}, bind := fun _ ↦ .bound }).2 (by decide +kernel)

/-- With the default configuration and both ports in use, `start` returns `Ok`, and the application
runs on after both server tasks have ended. -/
theorem start_returns_without_servers :
    let env : Env := { config := {}, bind := fun _ ↦ .addrInUse }
    ∃ state, (step env).run fresh (List.replicate 6 .start ++ [.grpc .bind, .rest .bind]) =
        some state ∧
      env.config.AddressesParse ∧ state.start = .returned ∧ state.running = true ∧
      (∃ grpc ∈ state.grpc, grpc.task = .failed) ∧ (∃ rest ∈ state.rest, rest.task = .panicked) ∧
      ¬ Serves env state := by
  intro env
  refine ⟨{
    running := true
    start := .returned
    grpc := some ⟨.grpc, ⟨.v4 [127, 0, 0, 1], 50051⟩, false, .dropped, .failed, []⟩
    rest := some ⟨.rest, ⟨.v4 [127, 0, 0, 1], 3000⟩, false, .dropped, .panicked, []⟩
    main := .spawned
    handle := .idle }, by decide +kernel, by decide +kernel, rfl, rfl, ⟨_, rfl, rfl⟩,
    ⟨_, rfl, rfl⟩, fun hserves ↦ ?_⟩
  exact absurd (hserves.bindable rfl .grpc) (by decide)

end Filestore.App
