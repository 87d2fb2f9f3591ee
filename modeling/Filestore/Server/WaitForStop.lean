import Filestore.Server.WaitForStart

/-!
# Waiting for a server to stop

`wait_for_stop` joins the readiness reporters and the server task, and discards what the join
handles yield.  It does not return before all of them have ended, but it returns `Ok` after a panic
of the server task too, where its documentation promises a panic.
-/

namespace Filestore.Server

open Transition

/-- Only a panic is joined as a panic. -/
theorem TaskState.joined_eq_panicked_iff {task : TaskState} :
    task.joined = some .panicked ↔ task = .panicked := by
  cases task <;> simp [joined]

/-- What a join handle has yielded stays. -/
theorem Service.joined_of_step {outcome : BindOutcome} {service next : Service}
    {label : Service.Label} (hstep : Service.step outcome service label = some next) :
    service.task.joined = none ∨ service.task.joined = next.task.joined := by
  cases htask : service.task with
  | spawned | bound | serving | draining => exact .inl rfl
  | finished | failed | panicked =>
    have hended : service.task.ended = true := by rw [htask]; rfl
    rw [Service.step_task_of_ended hended hstep, htask]
    exact .inr rfl

namespace ServiceHandler

/-- The server task and all reporters have ended. -/
def AllEnded (handler : ServiceHandler) : Prop :=
  ∀ handle ∈ handler.handles, handle.isSome = true

instance (handler : ServiceHandler) : Decidable handler.AllEnded :=
  inferInstanceAs (Decidable (∀ handle ∈ handler.handles, handle.isSome = true))

/-- When everything has ended, the server task has. -/
theorem AllEnded.task {handler : ServiceHandler} (h : handler.AllEnded) :
    handler.service.task.ended = true := by
  have hjoined : handler.service.task.joined.isSome = true :=
    h _ (List.mem_append_right _ (List.mem_singleton_self _))
  cases htask : handler.service.task <;> simp_all [TaskState.joined, TaskState.ended]

section Joining

variable {outcome : BindOutcome} {handler next : ServiceHandler} {label : Label}

/-- The tasks only make progress. -/
theorem handles_progress (hstep : step outcome handler label = some next) :
    JoinAll.Progress handler.handles next.handles := by
  cases label with
  | task label =>
    obtain ⟨moved, hmoved, rfl⟩ := step_task_eq_some.mp hstep
    exact (JoinAll.Progress.refl _).append (.cons (Service.joined_of_step hmoved) .nil)
  | crash =>
    obtain ⟨hrunning, rfl⟩ := step_crash_eq_some.mp hstep
    have hjoined : handler.service.task.joined = none := by simpa [isFinished] using hrunning
    exact (JoinAll.Progress.refl _).append (.cons (.inl hjoined) .nil)
  | reporter index result =>
    obtain ⟨hrunning, rfl⟩ := step_reporter_eq_some.mp hstep
    exact (JoinAll.progress_set hrunning result).append (JoinAll.Progress.refl _)
  | shutdown =>
    obtain rfl := step_shutdown_eq_some.mp hstep
    exact .refl _
  | waitForStart | resumeStart | waitForStop | pollStop =>
    have hframe := step_frame hstep
    have hhandles : next.handles = handler.handles := by
      rw [handles, handles, hframe.service rfl, hframe.reporterHandles rfl]
    rw [hhandles]
    exact .refl _

/-- A poll of outputs that are not ahead of the tasks returns if all tasks have ended. -/
theorem pollStop_eq {taken : List (Option JoinResult)}
    (hprogress : JoinAll.Progress taken handler.handles) :
    handler.pollStop taken =
      if handler.AllEnded then { handler with stop := .completed (.returned (.ok ())) }
      else { handler with stop := .joining handler.handles } := by
  have hready : (JoinAll.outputs handler.handles).isSome = true ↔ handler.AllEnded :=
    JoinAll.outputs_isSome_iff
  rw [pollStop, hprogress.poll_eq]
  cases houtputs : JoinAll.outputs handler.handles with
  | none => rw [if_neg fun hended ↦ by simpa [houtputs] using hready.mpr hended]
  | some results => rw [if_pos (hready.mp (by rw [houtputs]; rfl))]

/-- The join is never ahead of the tasks, and it has returned `Ok` only after all of them. -/
structure Joins (handler : ServiceHandler) : Prop where
  joining : ∀ taken, handler.stop = .joining taken → JoinAll.Progress taken handler.handles
  completed : ∀ result, handler.stop = .completed result →
    result = .returned (.ok ()) ∧ handler.AllEnded

/-- A join of tasks that have all ended returns at its next poll. -/
theorem Joins.completes (h : handler.Joins) (hended : handler.AllEnded)
    {taken : List (Option JoinResult)} (htaken : handler.stop = .joining taken) :
    ∃ result, (handler.pollStop taken).stop = .completed result := by
  rw [pollStop_eq (h.joining taken htaken), if_pos hended]
  exact ⟨_, rfl⟩

theorem Joins.of_service (service : Service) (reporters : ℕ) :
    (service.handler reporters).Joins := by
  constructor <;> simp [Service.handler]

theorem Joins.step (h : handler.Joins)
    (hstep : ServiceHandler.step outcome handler label = some next) : next.Joins := by
  have hprogress := handles_progress hstep
  by_cases hcall : label = .waitForStop
  · subst hcall
    obtain ⟨-, rfl⟩ := step_waitForStop_eq_some.mp hstep
    refine ⟨?_, nofun⟩
    rintro taken htaken
    obtain rfl := StopPoint.joining.inj htaken
    exact JoinAll.progress_replicate _
  by_cases hpoll : label = .pollStop
  · subst hpoll
    obtain ⟨taken, htaken, rfl⟩ := step_pollStop_eq_some.mp hstep
    rw [pollStop_eq (h.joining taken htaken)]
    split_ifs with hended
    · refine ⟨nofun, ?_⟩
      rintro result hresult
      exact ⟨(StopPoint.completed.inj hresult).symm, hended⟩
    · refine ⟨?_, nofun⟩
      rintro taken htaken
      obtain rfl := StopPoint.joining.inj htaken
      exact .refl _
  · have hstop := (step_frame hstep).stop hcall hpoll
    constructor
    · intro taken htaken
      exact (h.joining taken (hstop ▸ htaken)).trans hprogress
    · intro result hresult
      obtain ⟨hok, hended⟩ := h.completed result (hstop ▸ hresult)
      refine ⟨hok, ?_⟩
      rw [AllEnded, ← hprogress.eq_of_isSome hended]
      exact hended

end Joining

/-! ## What the documentation of `wait_for_stop` promises -/

/-- `wait_for_stop` returns after all tasks and not before, with `Ok` if the server task ended
normally, and with an error or a panic if the server task panicked. -/
structure WaitForStopOk (handler : ServiceHandler) : Prop where
  ended : ∀ result, handler.stop = .completed result → handler.AllEnded
  completes : handler.AllEnded → ∀ taken, handler.stop = .joining taken →
    ∃ result, (handler.pollStop taken).stop = .completed result
  normal : ∀ result, handler.stop = .completed result →
    handler.service.task.joined = some .ok → result = .returned (.ok ())
  panicked : ∀ result, handler.stop = .completed result →
    handler.service.task.joined = some .panicked → result ≠ .returned (.ok ())

/-- A poll that finds all tasks ended does not find the server task panicked. -/
def ReturnsWithoutPanic (handler : ServiceHandler) (label : Label) : Prop :=
  label = .pollStop → handler.AllEnded → handler.service.task ≠ .panicked

section Promise

variable {outcome : BindOutcome} {handler next : ServiceHandler} {label : Label}

/-- The promise is broken exactly by a return after a panic. -/
theorem Joins.waitForStopOk_iff (h : handler.Joins) :
    handler.WaitForStopOk ↔
      ∀ result, handler.stop = .completed result → handler.service.task ≠ .panicked := by
  constructor
  · intro hok result hresult hpanicked
    exact hok.panicked result hresult (TaskState.joined_eq_panicked_iff.mpr hpanicked)
      (h.completed result hresult).1
  · intro hpanicked
    exact {
      ended := fun result hresult ↦ (h.completed result hresult).2
      completes := fun hended taken htaken ↦ h.completes hended htaken
      normal := fun result hresult _ ↦ (h.completed result hresult).1
      panicked := fun result hresult hjoined ↦
        absurd (TaskState.joined_eq_panicked_iff.mp hjoined) (hpanicked result hresult) }

/-- When all tasks have ended, the end of the server task is final. -/
theorem panicked_of_step (hstep : step outcome handler label = some next)
    (hended : handler.AllEnded) (hpanicked : next.service.task = .panicked) :
    handler.service.task = .panicked := by
  have hhandles := (handles_progress hstep).eq_of_isSome hended
  have hjoined : handler.service.task.joined = next.service.task.joined :=
    (List.append_singleton_inj.mp hhandles).2
  rw [← TaskState.joined_eq_panicked_iff, hjoined]
  exact TaskState.joined_eq_panicked_iff.mpr hpanicked

/-- One step keeps the promise exactly when it is not a return after a panic. -/
theorem waitForStopOk_step_iff (h : handler.Joins) (hok : handler.WaitForStopOk)
    (hstep : step outcome handler label = some next) :
    next.WaitForStopOk ↔ ReturnsWithoutPanic handler label := by
  rw [(h.step hstep).waitForStopOk_iff]
  by_cases hpoll : label = .pollStop
  · subst hpoll
    obtain ⟨taken, htaken, rfl⟩ := step_pollStop_eq_some.mp hstep
    rw [pollStop_eq (h.joining taken htaken)]
    split_ifs with hended
    · exact ⟨fun hpanicked _ _ ↦ hpanicked _ rfl, fun hreturns _ _ ↦ hreturns rfl hended⟩
    · exact iff_of_true nofun fun _ hall ↦ absurd hall hended
  · refine iff_of_true (fun result hresult hpanicked ↦ ?_) fun hlabel ↦ absurd hlabel hpoll
    by_cases hcall : label = .waitForStop
    · subst hcall
      obtain ⟨-, rfl⟩ := step_waitForStop_eq_some.mp hstep
      cases hresult
    · rw [(step_frame hstep).stop hcall hpoll] at hresult
      exact h.waitForStopOk_iff.mp hok result hresult
        (panicked_of_step hstep (h.completed result hresult).2 hpanicked)

end Promise

/-! ## The handles of the two servers -/

section Returned

variable {outcome : BindOutcome} {handler next : ServiceHandler} {label : Label}

/-- As long as the server task does not panic on its own, its service moves as a service does. -/
theorem service_moves (hstep : orderlyStep outcome handler label = some next) :
    Service.Moves outcome (some handler.service) (some next.service) := by
  obtain ⟨horderly, hstep⟩ := (Step.restrict_eq_some _).mp hstep
  cases label with
  | task label =>
    obtain ⟨moved, hmoved, rfl⟩ := step_task_eq_some.mp hstep
    exact .step label hmoved
  | crash => cases horderly
  | reporter index result =>
    obtain ⟨-, rfl⟩ := step_reporter_eq_some.mp hstep
    exact .stay _
  | shutdown =>
    obtain rfl := step_shutdown_eq_some.mp hstep
    exact .shutdown _
  | waitForStart | resumeStart | waitForStop | pollStop =>
    rw [(step_frame hstep).service rfl]
    exact .stay _

/-- Only the REST task panics, and only at a failed bind. -/
theorem not_panicked_of_reachable {kind : ServerKind} {bindAddr : SocketAddr} {reporters : ℕ}
    (hkind : kind = .grpc ∨ outcome = .bound)
    (hreachable : (orderlyStep outcome).Reachable
      (({ kind, bindAddr } : Service).handler reporters) handler) :
    handler.service.task ≠ .panicked := by
  have hservice : ∃ service ∈ some handler.service,
      service.Signals outcome ∧ service.kind = kind := by
    refine hreachable.invariant (fun handler ↦ ∃ service ∈ some handler.service,
      service.Signals outcome ∧ service.kind = kind) ⟨_, rfl, .of_fresh _ _ _, rfl⟩
      fun _ _ _ h hstep ↦ ?_
    exact (service_moves hstep).preserves
      (fun _ _ _ h hmoved ↦ ⟨h.1.step hmoved, (Service.step_kind hmoved).trans h.2⟩)
      (fun _ h ↦ ⟨h.1.shutdown, h.2⟩) h
  obtain ⟨service, hmem, hsignals, rfl⟩ := hservice
  obtain rfl := Option.some.inj hmem
  intro hpanicked
  obtain ⟨hrest, hbind⟩ := hsignals.panicked hpanicked
  rcases hkind with hgrpc | hbound
  · rw [hrest] at hgrpc
    cases hgrpc
  · exact hbind hbound

/-- After a failed bind, `wait_for_stop` returns `Ok` for the panicked REST task. -/
theorem exists_panic_hidden (hbind : outcome ≠ .bound) (bindAddr : SocketAddr) :
    ∃ state, (orderlyStep outcome).run (({ kind := .rest, bindAddr } : Service).handler 0)
        [.task .bind, .waitForStop, .pollStop] = some state ∧
      state.service.task = .panicked ∧ state.stop = .completed (.returned (.ok ())) := by
  refine ⟨{
    service := { kind := .rest, bindAddr, started := .dropped, task := .panicked }
    reporterHandles := []
    stop := .completed (.returned (.ok ())) }, ?_, rfl, rfl⟩
  simp [orderlyStep, Step.restrict, isOrderly, step, Service.handler, idle, waitForStop,
    Service.step, Service.bindError, hbind, handles, pollStop, JoinAll.poll, JoinAll.outputs,
    TaskState.joined]

end Returned

/-- A run keeps the promise of `wait_for_stop` exactly when it does not return after a panic of the
server task, and every run of a handle does so exactly when it is a gRPC server's or the bind
succeeds. -/
theorem waitForStop_ok_iff (outcome : BindOutcome) :
    (∀ service reporters schedule,
      (step outcome).Always WaitForStopOk (Service.handler service reporters) schedule ↔
        (step outcome).Each ReturnsWithoutPanic (Service.handler service reporters) schedule) ∧
    (∀ handler, Returned handler →
      ((∀ state, (orderlyStep outcome).Reachable handler state → state.WaitForStopOk) ↔
        handler.service.kind = .grpc ∨ outcome = .bound)) := by
  constructor
  · intro service reporters schedule
    have hfresh : (service.handler reporters).Joins := .of_service service reporters
    have hok : (service.handler reporters).WaitForStopOk := hfresh.waitForStopOk_iff.mpr nofun
    exact Step.always_iff_each (fun _ _ _ (h : Joins _) hstep ↦ h.step hstep)
      (fun _ _ _ h hok hstep ↦ waitForStopOk_step_iff h hok hstep) hfresh hok schedule
  · intro handler hreturned
    obtain ⟨kind, bindAddr, reporters, rfl, hreporters⟩ := hreturned.exists_service
    constructor
    · intro hok
      by_contra hkind
      obtain ⟨hrest, hbind⟩ := not_or.mp hkind
      obtain rfl : kind = .rest := by cases kind <;> simp_all [Service.handler]
      obtain rfl := hreporters rfl
      obtain ⟨state, hrun, hpanicked, hstop⟩ := exists_panic_hidden hbind bindAddr
      exact (hok state (.of_run hrun)).panicked _ hstop
        (TaskState.joined_eq_panicked_iff.mpr hpanicked) rfl
    · intro hkind state hreachable
      have hjoins : state.Joins := hreachable.of_restrict.invariant Joins
        (.of_service _ reporters) fun _ _ _ h hstep ↦ h.step hstep
      exact hjoins.waitForStopOk_iff.mpr fun _ _ ↦ not_panicked_of_reachable hkind hreachable

/-- The promise holds for the default gRPC server even if its port is in use. -/
theorem waitForStop_ok_default :
    let handler :=
      Service.handler ⟨.grpc, ⟨.v4 [127, 0, 0, 1], 50051⟩, false, .held, .spawned, []⟩ 1
    ∀ state, (orderlyStep .addrInUse).Reachable handler state → state.WaitForStopOk := by
  intro handler
  have hreturned : Returned handler := .grpc {} ["HelloService"] (by decide +kernel)
  exact ((waitForStop_ok_iff .addrInUse).2 handler hreturned).mpr (.inl rfl)

/-- The panic of the default REST server whose port is in use is reported as a clean stop. -/
theorem waitForStop_hides_panic :
    ∃ handler state, restServiceHandler {} [healthRoutes] = .ok handler ∧
      (orderlyStep .addrInUse).run handler [.task .bind, .waitForStop, .pollStop] = some state ∧
      state.service.task = .panicked ∧ state.stop = .completed (.returned (.ok ())) ∧
      ¬ state.WaitForStopOk := by
  refine ⟨Service.handler ⟨.rest, ⟨.v4 [127, 0, 0, 1], 3000⟩, false, .held, .spawned, []⟩ 0, {
    service := ⟨.rest, ⟨.v4 [127, 0, 0, 1], 3000⟩, false, .dropped, .panicked, []⟩
    reporterHandles := []
    stop := .completed (.returned (.ok ())) },
    by decide +kernel, by decide +kernel, rfl, rfl, fun hok ↦ ?_⟩
  exact hok.panicked _ rfl rfl rfl

end ServiceHandler

end Filestore.Server
