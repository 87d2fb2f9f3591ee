import Filestore.Server.ServiceHandler

/-!
# Waiting for the start of a server

The start signal is sent by the server task once the listener is bound, and lost when the bind
fails.  The first call of `wait_for_start` therefore never returns too early, but it answers a
failed bind with a panic, where its documentation names only the panic of a second call.
-/

namespace Filestore.Server

open Transition

/-! ## The start signal and the bind -/

/-- The signal is open until the bind is over; it is sent by a bound task, and lost only with the
task of a failed bind, which panics if it is the REST task. -/
structure Service.Signals (outcome : BindOutcome) (service : Service) : Prop where
  held : service.started = .held ↔ service.task = .spawned ∨ service.task = .bound
  sent : service.started = .sent → service.task.hasBound = true
  dropped : service.started = .dropped → outcome ≠ .bound
  panicked : service.task = .panicked → service.kind = .rest ∧ outcome ≠ .bound

namespace Service.Signals

variable {outcome : BindOutcome} {service next : Service} {label : Service.Label}

theorem of_fresh (outcome : BindOutcome) (kind : ServerKind) (bindAddr : SocketAddr) :
    ({ kind, bindAddr } : Service).Signals outcome := by
  constructor <;> simp

theorem shutdown (h : service.Signals outcome) : service.shutdown.Signals outcome :=
  ⟨h.held, h.sent, h.dropped, h.panicked⟩

theorem step (h : service.Signals outcome)
    (hstep : Service.step outcome service label = some next) : next.Signals outcome := by
  rcases Service.step_cases hstep with
    ⟨-, htask, -, rfl⟩ | ⟨-, -, houtcome, rfl⟩ | ⟨-, -, rfl⟩ | ⟨-, -, rfl⟩ |
    ⟨_, _, _, -, -, rfl⟩ | ⟨-, htask, -, rfl⟩ | ⟨-, htask, -, rfl⟩
  · exact { h with
      held := iff_of_true (h.held.mpr (.inl htask)) (.inr rfl)
      sent := fun _ ↦ rfl
      panicked := by simp }
  -- The bind fails: the signal is lost with the task, and the REST task panics.
  · exact {
      held := iff_of_false (by simp) (by cases service.kind <;> simp [Service.bindError])
      sent := by simp
      dropped := fun _ ↦ houtcome
      panicked := by cases service.kind <;> simp [Service.bindError, houtcome] }
  · exact {
      held := iff_of_false (by simp) (by simp)
      sent := fun _ ↦ rfl
      dropped := by simp
      panicked := by simp }
  · exact { h with }
  · exact { h with }
  · exact { h with
      held := iff_of_false (mt h.held.mp (by simp [htask])) (by simp)
      sent := fun _ ↦ rfl
      panicked := by simp }
  · exact { h with
      held := iff_of_false (mt h.held.mp (by simp [htask])) (by simp)
      sent := fun _ ↦ rfl
      panicked := by simp }

/-- A task that cannot move by itself has sent its signal or lost it. -/
theorem not_held_of_blocked (h : service.Signals outcome)
    (hblocked : ∀ label, label.isOwn = true → (Service.step outcome).Blocked service label) :
    service.started ≠ .held := by
  intro hstarted
  rcases h.held.mp hstarted with htask | htask
  · have hbind := hblocked .bind rfl
    by_cases hbound : outcome = .bound <;>
      simp [Step.Blocked, Service.step, htask, hbound] at hbind
  · simpa [Step.Blocked, Service.step, htask] using hblocked .signalStarted rfl

/-- The signal is sent or lost once and for all. -/
theorem started_step (h : service.Signals outcome) (hstarted : service.started ≠ .held)
    (hstep : Service.step outcome service label = some next) : next.started = service.started := by
  have hpoint := mt h.held.mpr hstarted
  rcases Service.step_cases hstep with h | h | h | h | ⟨_, _, _, h⟩ | h | h
  · exact absurd (.inl h.2.1) hpoint
  · exact absurd (.inl h.2.1) hpoint
  · exact absurd (.inr h.2.1) hpoint
  · simp [h]
  · simp [h]
  · simp [h]
  · simp [h]

end Service.Signals

/-! ## The calls of `wait_for_start` -/

namespace ServiceHandler

/-- The first call takes the receiver and ends as the start signal says. -/
structure FirstCall (outcome : BindOutcome) (handler : ServiceHandler) : Prop where
  signals : handler.service.Signals outcome
  present : handler.startedRx = true → handler.awaitingStart = false ∧ handler.startCalls = []
  taken : handler.startedRx = false → handler.awaitingStart = true ∨ handler.startCalls ≠ []
  awaiting : handler.awaitingStart = true → handler.startCalls = []
  first : ∀ result ∈ handler.startCalls.head?, handler.startSignal = some result

namespace FirstCall

variable {outcome : BindOutcome} {handler next : ServiceHandler}

theorem of_spawned {service : Service} (hservice : service.Signals outcome) (reporters : ℕ) :
    (service.handler reporters).FirstCall outcome := by
  constructor <;> simp [Service.handler, hservice]

/-- A step of the server task leaves the answer of the first call as it is. -/
theorem task (h : handler.FirstCall outcome) {label : Service.Label} {moved : Service}
    (hstep : Service.step outcome handler.service label = some moved) :
    ({ handler with service := moved } : ServiceHandler).FirstCall outcome where
  signals := h.signals.step hstep
  present := h.present
  taken := h.taken
  awaiting := h.awaiting
  first result hresult := by
    have hsignal := h.first result hresult
    have hstarted : handler.service.started ≠ .held := by
      intro hheld
      rw [startSignal, hheld] at hsignal
      cases hsignal
    rw [startSignal, h.signals.started_step hstarted hstep]
    exact hsignal

theorem waitForStart (h : handler.FirstCall outcome) (hidle : handler.idle = true) :
    handler.waitForStart.FirstCall outcome := by
  have hawaiting : handler.awaitingStart = false := by
    cases hawaiting : handler.awaitingStart with
    | false => rfl
    | true => simp [idle, hawaiting] at hidle
  rw [ServiceHandler.waitForStart]
  split_ifs with hrx
  · have hcalls := (h.present hrx).2
    constructor <;> simp [h.signals, hcalls]
  · have hcalls : handler.startCalls ≠ [] :=
      (h.taken (by simpa using hrx)).resolve_left (by simp [hawaiting])
    exact {
      signals := h.signals
      present := fun hpresent ↦ absurd hpresent hrx
      taken := fun _ ↦ .inr (by simp)
      awaiting := fun hwaiting ↦ by simp [hawaiting] at hwaiting
      first := by simpa [startSignal, List.head?_append_of_ne_nil _ hcalls] using h.first }

theorem resumeStart (h : handler.FirstCall outcome) (hawaiting : handler.awaitingStart = true)
    {result : CallResult} (hsignal : handler.startSignal = some result) :
    ({ handler with
      awaitingStart := false
      startCalls := handler.startCalls ++ [result] } : ServiceHandler).FirstCall outcome := by
  have hcalls := h.awaiting hawaiting
  have hrx : handler.startedRx = false := by
    by_contra hpresent
    simp [(h.present (by simpa using hpresent)).1] at hawaiting
  constructor <;> simp [h.signals, hcalls, hrx]
  exact hsignal

/-- No step changes how the first call ends, as long as the server task does not panic. -/
theorem step (h : handler.FirstCall outcome) {label : Label}
    (hstep : orderlyStep outcome handler label = some next) : next.FirstCall outcome := by
  obtain ⟨horderly, hstep⟩ := (Step.restrict_eq_some _).mp hstep
  cases label with
  | task label =>
    obtain ⟨moved, hmoved, rfl⟩ := step_task_eq_some.mp hstep
    exact h.task hmoved
  | crash => cases horderly
  | reporter index result =>
    obtain ⟨-, rfl⟩ := step_reporter_eq_some.mp hstep
    exact { h with }
  | shutdown =>
    obtain rfl := step_shutdown_eq_some.mp hstep
    exact { h with signals := h.signals.shutdown }
  | waitForStart =>
    obtain ⟨hidle, rfl⟩ := step_waitForStart_eq_some.mp hstep
    exact h.waitForStart hidle
  | resumeStart =>
    obtain ⟨hawaiting, result, hsignal, rfl⟩ := step_resumeStart_eq_some.mp hstep
    exact h.resumeStart hawaiting hsignal
  | waitForStop =>
    obtain ⟨-, rfl⟩ := step_waitForStop_eq_some.mp hstep
    exact { h with }
  | pollStop =>
    obtain ⟨taken, -, rfl⟩ := step_pollStop_eq_some.mp hstep
    unfold pollStop
    dsimp only
    split <;> exact { h with }

theorem of_reachable {service : Service} (hservice : service.Signals outcome) {reporters : ℕ}
    (hreachable : (orderlyStep outcome).Reachable (service.handler reporters) handler) :
    handler.FirstCall outcome :=
  hreachable.invariant (FirstCall outcome) (of_spawned hservice reporters)
    fun _ _ _ h hstep ↦ h.step hstep

end FirstCall

/-! ## What the documentation of `wait_for_start` promises -/

/-- The first call returns `Ok` only after the listener was bound, answers a failed bind with an
`Err` and does not panic; a call that waits while the server task rests is about to end. -/
structure WaitForStartOk (outcome : BindOutcome) (handler : ServiceHandler) : Prop where
  bound : handler.startCalls.head? = some (.returned (.ok ())) →
    handler.service.task.hasBound = true
  error : outcome ≠ .bound → ∀ result ∈ handler.startCalls.head?,
    ∃ source, result = .returned (.error source)
  panics : ∀ message, handler.startCalls.head? ≠ some (.panicked message)
  completes : handler.awaitingStart = true →
    (∀ label, label.isOwn = true → (orderlyStep outcome).Blocked handler (.task label)) →
      ¬ (orderlyStep outcome).Blocked handler .resumeStart

theorem blocked_task_iff {outcome : BindOutcome} {handler : ServiceHandler}
    {label : Service.Label} : (orderlyStep outcome).Blocked handler (.task label) ↔
      (Service.step outcome).Blocked handler.service label := by
  unfold Step.Blocked orderlyStep Step.restrict step
  cases hmoved : Service.step outcome handler.service label <;> simp [isOrderly, hmoved]

/-- If the bind succeeds, everything that is promised holds. -/
theorem FirstCall.waitForStartOk {handler : ServiceHandler} (h : handler.FirstCall .bound) :
    WaitForStartOk .bound handler where
  bound hreturned := by
    have hsignal := h.first _ hreturned
    apply h.signals.sent
    cases hstarted : handler.service.started <;> simp_all [startSignal]
  error hbound := absurd rfl hbound
  panics message hpanicked := by
    have hsignal := h.first _ hpanicked
    apply h.signals.dropped _ rfl
    cases hstarted : handler.service.started <;> simp_all [startSignal]
  completes hawaiting hblocked hresume := by
    have hstarted : handler.service.started ≠ .held :=
      h.signals.not_held_of_blocked fun label hown ↦ blocked_task_iff.mp (hblocked label hown)
    cases hsignal : handler.service.started with
    | held => exact hstarted hsignal
    | sent | dropped =>
      simp [Step.Blocked, orderlyStep, Step.restrict, isOrderly, ServiceHandler.step, hawaiting,
        startSignal, hsignal] at hresume

/-- A failed bind makes the first call panic. -/
theorem exists_startSignal_lost {outcome : BindOutcome} (hbind : outcome ≠ .bound)
    {handler : ServiceHandler} (hreturned : Returned handler) :
    ∃ state message, (orderlyStep outcome).run handler
        [.waitForStart, .task .bind, .resumeStart] = some state ∧
      state.startCalls = [.panicked message] := by
  obtain ⟨kind, bindAddr, reporters, rfl, -⟩ := hreturned.exists_service
  refine ⟨{
    service := { kind, bindAddr, started := .dropped, task := Service.bindError kind }
    startedRx := false
    reporterHandles := List.replicate reporters none
    startCalls := [.panicked "Failed to receive server start signal: RecvError(())"] },
    _, ?_, rfl⟩
  simp [orderlyStep, Step.restrict, isOrderly, step, Service.handler, idle, waitForStart,
    Service.step, startSignal, hbind]

/-- What the documentation of `wait_for_start` promises holds in every run exactly when the bind
succeeds. -/
theorem waitForStart_ok_iff (outcome : BindOutcome) {handler : ServiceHandler}
    (hreturned : Returned handler) :
    (∀ state, (orderlyStep outcome).Reachable handler state → WaitForStartOk outcome state) ↔
      outcome = .bound := by
  constructor
  · intro hok
    by_contra hbind
    obtain ⟨state, message, hrun, hcalls⟩ := exists_startSignal_lost hbind hreturned
    exact (hok state (.of_run hrun)).panics message (by rw [hcalls]; rfl)
  · rintro rfl state hreachable
    obtain ⟨kind, bindAddr, reporters, rfl, -⟩ := hreturned.exists_service
    exact (FirstCall.of_reachable (.of_fresh _ _ _) hreachable).waitForStartOk

/-- The promise holds for the default gRPC server if its port is free, and not if it is in use. -/
theorem waitForStart_ok_default :
    let handler :=
      Service.handler ⟨.grpc, ⟨.v4 [127, 0, 0, 1], 50051⟩, false, .held, .spawned, []⟩ 1
    (∀ state, (orderlyStep .bound).Reachable handler state → WaitForStartOk .bound state) ∧
      ¬ ∀ state, (orderlyStep .addrInUse).Reachable handler state →
        WaitForStartOk .addrInUse state := by
  intro handler
  have hreturned : Returned handler := .grpc {} ["Hello"] (by decide +kernel)
  refine ⟨(waitForStart_ok_iff .bound hreturned).mpr rfl, fun hok ↦ ?_⟩
  cases (waitForStart_ok_iff .addrInUse hreturned).mp hok

/-- The first call on the default REST server panics if the port is in use. -/
theorem waitForStart_panics_on_failed_bind :
    ∃ handler state, restServiceHandler {} [healthRoutes] = .ok handler ∧
      (orderlyStep .addrInUse).run handler [.waitForStart, .task .bind, .resumeStart] =
        some state ∧
      state.startCalls = [.panicked "Failed to receive server start signal: RecvError(())"] ∧
      ¬ WaitForStartOk .addrInUse state := by
  refine ⟨Service.handler ⟨.rest, ⟨.v4 [127, 0, 0, 1], 3000⟩, false, .held, .spawned, []⟩ 0, {
    service := ⟨.rest, ⟨.v4 [127, 0, 0, 1], 3000⟩, false, .dropped, .panicked, []⟩
    startedRx := false
    reporterHandles := []
    startCalls := [.panicked "Failed to receive server start signal: RecvError(())"] },
    by decide +kernel, by decide +kernel, rfl, fun hok ↦ ?_⟩
  exact hok.panics _ rfl

end ServiceHandler

end Filestore.Server
