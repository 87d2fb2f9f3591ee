import Filestore.App.Start

/-!
# `App::run` as a shutdown barrier

`run` returns as soon as the application token is cancelled.  The main task cancels the servers
after that token, nobody waits for the server tasks, and a cancelled clone of the token reaches the
main task only through the handle that `run` drops on its return.  So `run` is a barrier only in
the runs in which its return happens to be scheduled after everything else has come to rest.
-/

namespace Filestore.App

open Server Transition

/-- The labels of a run of `App::run`, which keeps the handle to itself. -/
def isRunLabel : Label → Bool
  | .start | .main | .grpc _ | .rest _ | .signal | .cancelClone | .runReturn => true
  | .shutdown | .dropHandle => false

/-- The steps of `App::run`, of the tasks it spawns and of the two triggers. -/
def runStep (env : Env) : Step State Label := (step env).restrict isRunLabel

/-- A server that was told to stop and has finished, with no request in flight. -/
def Drained (service : Service) : Prop :=
  service.cancellationToken = true ∧ service.task = .finished ∧ service.inFlight = 0

/-- Once `run` has returned, both servers are drained. -/
def Barrier (state : State) : Prop :=
  state.runReturned = true →
    (∃ grpc ∈ state.grpc, Drained grpc) ∧ ∃ rest ∈ state.rest, Drained rest

/-- The main task is done, and neither server task nor any of its connections can move. -/
structure AtRest (env : Env) (state : State) : Prop where
  main : state.main = .done
  grpc (label : Service.Label) : (step env).Blocked state (.grpc label)
  rest (label : Service.Label) : (step env).Blocked state (.rest label)

/-- `run` returns only when everything else is at rest. -/
def ReturnsAtRest (env : Env) (state : State) (label : Label) : Prop :=
  label = .runReturn → AtRest env state

section Barrier

variable {env : Env} {state next : State}

theorem Drained.shutdown {service : Service} (h : Drained service) : Drained service.shutdown :=
  ⟨rfl, h.2⟩

/-- Nothing happens in a drained service. -/
theorem Drained.blocked {outcome : BindOutcome} {service : Service} (h : Drained service)
    (hconsistent : service.Consistent outcome) (label : Service.Label) :
    (Service.step outcome).Blocked service label := by
  have hended : service.task.ended = true := by rw [h.2.1]; rfl
  exact Service.step_eq_none_of_ended hended (hconsistent.closed (.inr hended)) label

/-- A service that has finished after it was told to stop is drained. -/
theorem Drained.of_ended {outcome : BindOutcome} {service : Service}
    (hconsistent : service.Consistent outcome) (htoken : service.cancellationToken = true)
    (hended : service.task.ended = true) (hbound : outcome = .bound) : Drained service := by
  refine ⟨htoken, (hconsistent.ended hended).resolve_right fun hfailed ↦ hfailed hbound, ?_⟩
  rw [Service.inFlight, hconsistent.closed (.inr hended), List.sum_nil]

theorem Drained.moves {outcome : BindOutcome} {before after : Option Service}
    (hmoves : Service.Moves outcome before after)
    (hconsistent : ∀ service ∈ before, service.Consistent outcome)
    (h : ∃ service ∈ before, Drained service) : ∃ service ∈ after, Drained service := by
  obtain ⟨service, hmem, hdrained⟩ := h
  have hboth : ∃ service ∈ after, Drained service ∧ service.Consistent outcome := by
    refine hmoves.preserves (fun service label next h hmoved ↦ ?_) (fun service h ↦ ?_)
      ⟨service, hmem, hdrained, hconsistent service hmem⟩
    · rw [h.1.blocked h.2] at hmoved
      cases hmoved
    · exact ⟨h.1.shutdown, h.2.shutdown⟩
  obtain ⟨next, hnext, hnextDrained, -⟩ := hboth
  exact ⟨next, hnext, hnextDrained⟩

/-- If both binds succeed, both servers are drained exactly when everything is at rest. -/
theorem drained_iff_atRest (hbind : ∀ kind, env.bind kind = .bound)
    (hcoherent : Coherent env state) (hreturned : state.start = .returned) :
    ((∃ grpc ∈ state.grpc, Drained grpc) ∧ ∃ rest ∈ state.rest, Drained rest) ↔
      AtRest env state := by
  obtain ⟨grpc, rest, hgrpc, hrest⟩ := hcoherent.exists_servers (by rw [hreturned]; rfl)
  have hdrained {kind : ServerKind} {service : Service} (h : service.Consistent (env.bind kind))
      (htoken : service.cancellationToken = true)
      (hblocked : ∀ label, (Service.step (env.bind kind)).Blocked service label) :
      Drained service :=
    .of_ended h htoken (Service.ended_of_blocked htoken hblocked) (hbind kind)
  constructor
  · rintro ⟨⟨grpc', hgrpc', hgrpcDrained⟩, rest', hrest', hrestDrained⟩
    obtain rfl : grpc = grpc' := Option.some.inj (hgrpc.symm.trans hgrpc')
    obtain rfl : rest = rest' := Option.some.inj (hrest.symm.trans hrest')
    exact {
      main := (hcoherent.restToken rest hrest).mp hrestDrained.1
      grpc := fun label ↦ (blocked_grpc_iff hgrpc label).mpr
        (hgrpcDrained.blocked (hcoherent.grpc grpc hgrpc) label)
      rest := fun label ↦ (blocked_rest_iff hrest label).mpr
        (hrestDrained.blocked (hcoherent.rest rest hrest) label) }
  · rintro ⟨hmain, hgrpcBlocked, hrestBlocked⟩
    exact ⟨⟨grpc, hgrpc, hdrained (hcoherent.grpc grpc hgrpc)
        ((hcoherent.grpcToken grpc hgrpc).mpr (.inr hmain))
        fun label ↦ (blocked_grpc_iff hgrpc label).mp (hgrpcBlocked label)⟩,
      rest, hrest, hdrained (hcoherent.rest rest hrest)
        ((hcoherent.restToken rest hrest).mpr hmain)
        fun label ↦ (blocked_rest_iff hrest label).mp (hrestBlocked label)⟩

/-- One step keeps the barrier exactly when it is not a return before everything is at rest. -/
theorem barrier_step_iff {label : Label} (hbind : ∀ kind, env.bind kind = .bound)
    (hcoherent : Coherent env state) (hbarrier : Barrier state)
    (hstep : step env state label = some next) :
    Barrier next ↔ ReturnsAtRest env state label := by
  by_cases hlabel : label = .runReturn
  · subst hlabel
    obtain ⟨⟨hreturned, -⟩, rfl⟩ := step_runReturn_eq_some.mp hstep
    have hiff := drained_iff_atRest hbind hcoherent hreturned
    exact ⟨fun h _ ↦ hiff.mp (h rfl), fun h _ ↦ hiff.mpr (h rfl)⟩
  · refine iff_of_true (fun hreturned ↦ ?_) fun hreturn ↦ absurd hreturn hlabel
    rw [(step_frame hstep).runReturned hlabel] at hreturned
    obtain ⟨hgrpc, hrest⟩ := step_moves (by rw [hcoherent.runReturned hreturned]; rfl) hstep
    exact ⟨Drained.moves hgrpc hcoherent.grpc (hbarrier hreturned).1,
      Drained.moves hrest hcoherent.rest (hbarrier hreturned).2⟩

end Barrier

/-! ## Returning too early -/

/-- A way in which the shutdown of `App::run` can be triggered. -/
def IsTrigger (config : AppConfig) (label : Label) : Prop :=
  label = .signal ∧ config.enableGracefulShutdown = true ∨ label = .cancelClone

/-- A schedule with a trigger: the main task cancels the application token and stops there, or it
has not been reached at all, when `run` returns. -/
def earlyReturn (trigger : Label) : List Label :=
  List.replicate 6 .start ++
    if trigger = .signal then [.main, .signal, .main, .main, .main, .runReturn]
    else [trigger, .runReturn]

/-- Each trigger lets `run` return while the gRPC server has not even been told to stop. -/
theorem exists_earlyReturn {env : Env} (hparse : env.config.AddressesParse) {trigger : Label}
    (htrigger : IsTrigger env.config trigger) :
    ∃ state grpc, (runStep env).run fresh (earlyReturn trigger) = some state ∧
      state.runReturned = true ∧ state.grpc = some grpc ∧ grpc.cancellationToken = false := by
  obtain ⟨grpc, rest, -, hgrpc, -, -, hrun⟩ := run_start hparse
  have hallowed : ∀ label ∈ earlyReturn trigger, isRunLabel label = true := by
    rcases htrigger with ⟨rfl, -⟩ | rfl <;> decide
  rw [runStep, Step.run_restrict _ hallowed, earlyReturn, Step.run_append, hrun]
  rcases htrigger with ⟨rfl, hgraceful⟩ | rfl
  · refine ⟨{ started grpc rest with
      running := false
      cancellationToken := true
      shutdownTx := .dropped
      main := .tokenCancelled
      handle := .dropped
      signalled := true
      runReturned := true }, grpc, ?_, rfl, rfl, hgrpc⟩
    simp [step, mainStep, started, State.triggered, State.dropHandle, hgraceful]
  · refine ⟨{ started grpc rest with
      cancellationToken := true
      shutdownTx := .dropped
      handle := .dropped
      runReturned := true }, grpc, ?_, rfl, rfl, hgrpc⟩
    simp [step, started, State.dropHandle]

/-- A run of `App::run` is a barrier exactly when it returns at rest, and every trigger has a run
in which it returns earlier. -/
theorem run_barrier_iff_returns_at_rest (env : Env) (hbind : ∀ kind, env.bind kind = .bound) :
    (∀ schedule, (runStep env).Always Barrier fresh schedule ↔
      (runStep env).Each (ReturnsAtRest env) fresh schedule) ∧
    (env.config.AddressesParse → ∀ trigger, IsTrigger env.config trigger →
      ¬ (runStep env).Always Barrier fresh (earlyReturn trigger)) := by
  constructor
  · intro schedule
    have hfresh : Barrier fresh := fun hreturned ↦ by cases hreturned
    exact Step.always_iff_each
      (fun _ _ _ (h : Coherent env _) hstep ↦ h.step ((Step.restrict_eq_some _).mp hstep).2)
      (fun _ _ _ hcoherent hbarrier hstep ↦ barrier_step_iff hbind hcoherent hbarrier
        ((Step.restrict_eq_some _).mp hstep).2)
      (Coherent.of_fresh env) hfresh schedule
  · intro hparse trigger htrigger halways
    obtain ⟨state, grpc, hrun, hreturned, hgrpc, htoken⟩ := exists_earlyReturn hparse htrigger
    obtain ⟨⟨other, hother, hdrained⟩, -⟩ := halways _ state List.prefix_rfl hrun hreturned
    obtain rfl : grpc = other := Option.some.inj (hgrpc.symm.trans hother)
    exact absurd hdrained.1 (by simp [htoken])

/-- With the default configuration, a signal lets `run` return before either server is told to
stop, so the barrier does not hold on every schedule. -/
theorem default_run_is_no_barrier :
    ¬ (runStep { config := {}, bind := fun _ ↦ .bound }).Always Barrier fresh
      (earlyReturn .signal) :=
  (run_barrier_iff_returns_at_rest { config := {}, bind := fun _ ↦ .bound } fun _ ↦ rfl).2
    (by decide +kernel) .signal (.inl ⟨rfl, rfl⟩)

/-- The run that a signal ends early, with a request in flight on the REST server. -/
theorem run_returns_with_request_in_flight :
    let env : Env := { config := {}, bind := fun _ ↦ .bound }
    ∃ state, (runStep env).run fresh (List.replicate 6 .start ++
        [.rest .bind, .rest .signalStarted, .rest .connect, .rest (.connection 0 .accept), .main,
          .signal, .main, .main, .main, .runReturn]) = some state ∧
      state.runReturned = true ∧
      (∃ rest ∈ state.rest, rest.inFlight = 1 ∧ rest.cancellationToken = false) ∧
      ¬ Barrier state := by
  intro env
  refine ⟨{
    cancellationToken := true
    start := .returned
    shutdownTx := .dropped
    grpc := some { kind := .grpc, bindAddr := ⟨.v4 [127, 0, 0, 1], 50051⟩ }
    rest := some ⟨.rest, ⟨.v4 [127, 0, 0, 1], 3000⟩, false, .sent, .serving, [1]⟩
    main := .tokenCancelled
    handle := .dropped
    signalled := true
    runReturned := true }, by decide +kernel, rfl, ⟨_, rfl, rfl, rfl⟩, fun hbarrier ↦ ?_⟩
  obtain ⟨-, rest, hrest, hdrained⟩ := hbarrier rfl
  obtain rfl := Option.some.inj hrest
  cases hdrained.1

end Filestore.App
