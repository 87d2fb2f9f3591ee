import Filestore.Server.WaitForStop
import Filestore.Transition.Potential

/-!
# The requests of a server

A request that has begun on a connection is answered there or ends without an answer.  A server
task that was told to stop accepts no connection after it has begun to drain, and does not finish
before its connections are closed, so that `wait_for_stop` is a barrier for them.  By itself the
task makes at most four steps; only a connection that stays open can hold up its end.
-/

namespace Filestore.Server

open Transition

/-- The most steps that a task makes by itself from here on. -/
def TaskState.remaining : TaskState → ℕ
  | .spawned => 4
  | .bound => 3
  | .serving => 2
  | .draining => 1
  | .finished | .failed | .panicked => 0

/-- The task has begun to drain. -/
def TaskState.pastServing : TaskState → Bool
  | .draining | .finished | .failed | .panicked => true
  | .spawned | .bound | .serving => false

/-! ## One step of a service -/

namespace Service

/-- What happens on a connection in the step. -/
def Label.event : Label → Option ConnectionEvent
  | .connection _ event => some event
  | .bind | .signalStarted | .connect | .drain | .finish => none

variable {outcome : BindOutcome} {service next : Service} {label : Label}

/-- A step accounts for the requests in flight. -/
theorem step_inFlight (hstep : step outcome service label = some next) :
    next.inFlight + (if label.event.any ConnectionEvent.endsRequest then 1 else 0) =
      service.inFlight + (if label.event = some .accept then 1 else 0) := by
  rcases step_cases hstep with
    ⟨rfl, -, -, rfl⟩ | ⟨rfl, -, -, rfl⟩ | ⟨rfl, -, rfl⟩ | ⟨rfl, -, rfl⟩ |
    ⟨index, event, connections, rfl, hevent, rfl⟩ | ⟨rfl, -, -, rfl⟩ | ⟨rfl, -, -, rfl⟩
  · rfl
  · rfl
  · rfl
  · simp [inFlight, Label.event]
  · cases event <;> exact Connections.step_sum hevent
  · rfl
  · rfl

/-- A step accounts for the open connections. -/
theorem step_connections_length (hstep : step outcome service label = some next) :
    next.connections.length + (if label.event = some .close then 1 else 0) =
      service.connections.length + (if label = .connect then 1 else 0) := by
  rcases step_cases hstep with
    ⟨rfl, -, -, rfl⟩ | ⟨rfl, -, -, rfl⟩ | ⟨rfl, -, rfl⟩ | ⟨rfl, -, rfl⟩ |
    ⟨index, event, connections, rfl, hevent, rfl⟩ | ⟨rfl, -, -, rfl⟩ | ⟨rfl, -, -, rfl⟩
  · rfl
  · rfl
  · rfl
  · exact List.length_append
  · cases event <;> exact Connections.step_length hevent
  · rfl
  · rfl

/-- A step of the task itself uses up one of its own, and the clients leave them alone. -/
theorem step_task_remaining (hstep : step outcome service label = some next) :
    next.task.remaining + (if label.isOwn then 1 else 0) ≤ service.task.remaining := by
  rcases step_cases hstep with
    ⟨rfl, htask, -, rfl⟩ | ⟨rfl, htask, -, rfl⟩ | ⟨rfl, htask, rfl⟩ | ⟨rfl, -, rfl⟩ |
    ⟨_, _, _, rfl, -, rfl⟩ | ⟨rfl, htask, -, rfl⟩ | ⟨rfl, htask, -, rfl⟩
  · simp [htask, TaskState.remaining, Label.isOwn]
  · cases service.kind <;> simp [htask, TaskState.remaining, Label.isOwn, bindError]
  · simp [htask, TaskState.remaining, Label.isOwn]
  · exact le_rfl
  · exact le_rfl
  · simp [htask, TaskState.remaining, Label.isOwn]
  · simp [htask, TaskState.remaining, Label.isOwn]

/-- A task that has begun to drain accepts no connection, and never stops draining but to end. -/
theorem step_pastServing (hstep : step outcome service label = some next)
    (hpast : service.task.pastServing = true) :
    label ≠ .connect ∧ next.task.pastServing = true := by
  rcases step_cases hstep with
    ⟨-, htask, -, rfl⟩ | ⟨-, htask, -, rfl⟩ | ⟨-, htask, rfl⟩ | ⟨-, htask | htask, rfl⟩ |
    ⟨_, _, _, rfl, -, rfl⟩ | ⟨-, htask, -, rfl⟩ | ⟨rfl, htask, -, rfl⟩
  · simp [htask, TaskState.pastServing] at hpast
  · simp [htask, TaskState.pastServing] at hpast
  · simp [htask, TaskState.pastServing] at hpast
  · simp [htask, TaskState.pastServing] at hpast
  · simp [htask, TaskState.pastServing] at hpast
  · exact ⟨nofun, hpast⟩
  · simp [htask, TaskState.pastServing] at hpast
  · exact ⟨nofun, rfl⟩

end Service

/-! ## One step of a handle -/

namespace ServiceHandler

/-- What happens on a connection in the step. -/
def Label.event : Label → Option ConnectionEvent
  | .task label => label.event
  | .crash | .reporter _ _ | .shutdown | .waitForStart | .resumeStart | .waitForStop | .pollStop =>
    none

/-- The server task or a reporter moves by itself. -/
def Label.isOwn : Label → Bool
  | .task label => label.isOwn
  | .crash | .reporter _ _ => true
  | .shutdown | .waitForStart | .resumeStart | .waitForStop | .pollStop => false

/-- The step is one of a task or a client, and not of the owner of the handle. -/
def Label.isWork : Label → Bool
  | .task _ | .crash | .reporter _ _ => true
  | .shutdown | .waitForStart | .resumeStart | .waitForStop | .pollStop => false

/-- The most steps that the server task and the reporters make by themselves from here on. -/
def remaining (handler : ServiceHandler) : ℕ :=
  handler.service.task.remaining + handler.reporterHandles.count none

/-- A crash of the server task does not wait for its connections. -/
def CrashesClosed (handler : ServiceHandler) (label : Label) : Prop :=
  label = .crash → handler.service.connections = []

variable {outcome : BindOutcome} {handler next : ServiceHandler} {label : Label}

/-- What a label does to the server task, its token and its connections. -/
inductive ServiceStep (outcome : BindOutcome) (service : Service) : Label → Service → Prop
  | task (label : Service.Label) {next : Service} :
      Service.step outcome service label = some next →
        ServiceStep outcome service (.task label) next
  | crash : service.task.joined = none → ServiceStep outcome service .crash service.crash
  | shutdown : ServiceStep outcome service .shutdown service.shutdown
  | other (label : Label) : (∀ other, label ≠ .task other) → label ≠ .crash →
      ServiceStep outcome service label service

theorem serviceStep (hstep : step outcome handler label = some next) :
    ServiceStep outcome handler.service label next.service := by
  cases label with
  | task label =>
    obtain ⟨moved, hmoved, rfl⟩ := step_task_eq_some.mp hstep
    exact .task label hmoved
  | crash =>
    obtain ⟨hrunning, rfl⟩ := step_crash_eq_some.mp hstep
    exact .crash (by simpa [isFinished] using hrunning)
  | reporter index result =>
    obtain ⟨-, rfl⟩ := step_reporter_eq_some.mp hstep
    exact .other _ (by simp) (by simp)
  | shutdown =>
    obtain rfl := step_shutdown_eq_some.mp hstep
    exact .shutdown
  | waitForStart | resumeStart | waitForStop | pollStop =>
    rw [(step_frame hstep).service rfl]
    exact .other _ (by simp) (by simp)

theorem event_eq_none (htask : ∀ other, label ≠ .task other) : label.event = none := by
  cases label with
  | task label => exact absurd rfl (htask label)
  | crash | reporter | shutdown | waitForStart | resumeStart | waitForStop | pollStop => rfl

/-- A step accounts for the requests in flight. -/
theorem step_inFlight (hstep : step outcome handler label = some next) :
    next.service.inFlight + (if label.event.any ConnectionEvent.endsRequest then 1 else 0) =
      handler.service.inFlight + (if label.event = some .accept then 1 else 0) := by
  have hservice := serviceStep hstep
  generalize next.service = moved at hservice ⊢
  cases hservice with
  | task label hmoved => exact Service.step_inFlight hmoved
  | crash => rfl
  | shutdown => rfl
  | other label htask =>
    rw [event_eq_none htask]
    rfl

/-- A step accounts for the open connections. -/
theorem step_connections_length (hstep : step outcome handler label = some next) :
    next.service.connections.length + (if label.event = some .close then 1 else 0) =
      handler.service.connections.length + (if label = .task .connect then 1 else 0) := by
  have hservice := serviceStep hstep
  generalize next.service = moved at hservice ⊢
  cases hservice with
  | task label hmoved => cases label <;> exact Service.step_connections_length hmoved
  | crash => rfl
  | shutdown => rfl
  | other label htask =>
    rw [event_eq_none htask, if_neg (htask _)]
    rfl

/-- A server task or reporter that moves by itself uses up a remaining step. -/
theorem step_remaining (hstep : step outcome handler label = some next) :
    next.remaining + (if label.isOwn then 1 else 0) ≤ handler.remaining := by
  cases label with
  | task label =>
    obtain ⟨moved, hmoved, rfl⟩ := step_task_eq_some.mp hstep
    rw [remaining, remaining, Nat.add_right_comm]
    exact Nat.add_le_add_right (Service.step_task_remaining hmoved) _
  | crash =>
    obtain ⟨hrunning, rfl⟩ := step_crash_eq_some.mp hstep
    have hpos : 0 < handler.service.task.remaining := by
      cases htask : handler.service.task <;>
        simp_all [isFinished, TaskState.joined, TaskState.remaining]
    change 0 + handler.reporterHandles.count none + 1 ≤ handler.remaining
    rw [remaining]
    omega
  | reporter index result =>
    obtain ⟨hreporter, rfl⟩ := step_reporter_eq_some.mp hstep
    obtain ⟨hindex, hget⟩ := List.getElem?_eq_some_iff.mp hreporter
    have hpos : 0 < handler.reporterHandles.count none :=
      List.count_pos_iff.mpr (hget ▸ List.getElem_mem hindex)
    simp only [remaining, Label.isOwn, if_true, List.count_set hindex, hget, beq_self_eq_true,
      Option.some_beq_none, Bool.false_eq_true, if_false]
    omega
  | shutdown =>
    obtain rfl := step_shutdown_eq_some.mp hstep
    exact le_rfl
  | waitForStart | resumeStart | waitForStop | pollStop =>
    have hframe := step_frame hstep
    rw [remaining, remaining, hframe.service rfl, hframe.reporterHandles rfl]
    exact le_rfl

/-! ## Closed connections -/

/-- No connection is open before the bind or after the end of the server task. -/
def Closed (handler : ServiceHandler) : Prop :=
  handler.service.task = .spawned ∨ handler.service.task.ended = true →
    handler.service.connections = []

/-- A step leaves an ended task without connections exactly if it is not a crash with one. -/
theorem closed_step_iff (hclosed : handler.Closed)
    (hstep : step outcome handler label = some next) :
    next.Closed ↔ CrashesClosed handler label := by
  unfold Closed at hclosed ⊢
  have hservice := serviceStep hstep
  generalize next.service = moved at hservice ⊢
  cases hservice with
  | task label hmoved =>
    refine iff_of_true (fun hended ↦ ?_) fun hcrash ↦ by cases hcrash
    rcases Service.step_cases hmoved with
      ⟨-, -, -, rfl⟩ | ⟨-, htask, -, rfl⟩ | ⟨-, -, rfl⟩ | ⟨-, htask | htask, rfl⟩ |
      ⟨_, _, _, -, hevent, rfl⟩ | ⟨-, -, -, rfl⟩ | ⟨-, -, hfinished, rfl⟩
    · simp [TaskState.ended] at hended
    · exact hclosed (.inl htask)
    · simp [TaskState.ended] at hended
    · simp [htask, TaskState.ended] at hended
    · simp [htask, TaskState.ended] at hended
    · rw [hclosed hended, Connections.step_nil] at hevent
      cases hevent
    · simp [TaskState.ended] at hended
    · exact hfinished
  | crash => exact ⟨fun h _ ↦ h (.inr rfl), fun h _ ↦ h rfl⟩
  | shutdown => exact iff_of_true hclosed fun hcrash ↦ by cases hcrash
  | other label _ hcrash => exact iff_of_true hclosed fun hlabel ↦ absurd hlabel hcrash

/-- A server task that drains or has ended accepts no connection any more. -/
theorem step_pastServing (hstep : step outcome handler label = some next)
    (hpast : handler.service.task.pastServing = true) :
    label ≠ .task .connect ∧ next.service.task.pastServing = true := by
  have hservice := serviceStep hstep
  generalize next.service = moved at hservice ⊢
  cases hservice with
  | task label hmoved => simpa using Service.step_pastServing hmoved hpast
  | crash => exact ⟨nofun, rfl⟩
  | shutdown => exact ⟨nofun, hpast⟩
  | other label htask => exact ⟨htask _, hpast⟩

/-! ## Whole runs -/

section Runs

variable {schedule : List Label}

/-- Every request that has begun has been answered, has ended without an answer or is in flight. -/
theorem inFlight_add_countP_of_run (hrun : (step outcome).run handler schedule = some next) :
    next.service.inFlight + (schedule.countP (·.event = some .respond) +
        schedule.countP (·.event = some .abort)) =
      handler.service.inFlight + schedule.countP (·.event = some .accept) := by
  have hmove (state : ServiceHandler) (label : Label) (next : ServiceHandler) (_ : True)
      (hstep : step outcome state label = some next) :
      next.service.inFlight + (if label.event.any ConnectionEvent.endsRequest then 1 else 0) =
        state.service.inFlight + (if decide (label.event = some .accept) then 1 else 0) := by
    simpa using step_inFlight hstep
  rw [← Connections.countP_endsRequest Label.event]
  exact Step.add_countP_eq_of_invariant (fun _ ↦ True) (fun _ _ _ _ _ ↦ trivial) hmove trivial hrun

/-- Every connection that was accepted has been closed or is open. -/
theorem length_add_countP_of_run (hrun : (step outcome).run handler schedule = some next) :
    next.service.connections.length + schedule.countP (·.event = some .close) =
      handler.service.connections.length + schedule.count (.task .connect) := by
  have hmove (state : ServiceHandler) (label : Label) (next : ServiceHandler) (_ : True)
      (hstep : step outcome state label = some next) :
      next.service.connections.length + (if decide (label.event = some .close) then 1 else 0) =
        state.service.connections.length + (if label == .task .connect then 1 else 0) := by
    simpa using step_connections_length hstep
  exact Step.add_countP_eq_of_invariant (fun _ ↦ True) (fun _ _ _ _ _ ↦ trivial) hmove trivial hrun

/-- If the server task crashes only without a connection, none is open after its end. -/
theorem closed_of_run (hclosed : handler.Closed)
    (heach : (step outcome).Each CrashesClosed handler schedule)
    (hrun : (step outcome).run handler schedule = some next) : next.Closed := by
  have halways : (step outcome).Always Closed handler schedule :=
    (Step.always_iff_each (fun _ _ _ (_ : True) _ ↦ trivial)
      (fun _ _ _ _ hclosed hstep ↦ closed_step_iff hclosed hstep) trivial hclosed schedule).mpr
        heach
  exact halways schedule next List.prefix_rfl hrun

/-- No connection is accepted after the drain has begun. -/
theorem not_connect_after_drain (hpast : handler.service.task.pastServing = true)
    (hrun : (step outcome).run handler schedule = some next) : .task .connect ∉ schedule := by
  induction schedule generalizing handler with
  | nil => exact List.not_mem_nil
  | cons label schedule ih =>
    obtain ⟨moved, hstep, hrest⟩ := Option.bind_eq_some_iff.mp hrun
    obtain ⟨hlabel, hmoved⟩ := step_pastServing hstep hpast
    exact List.not_mem_cons_of_ne_of_not_mem hlabel.symm (ih hmoved hrest)

theorem not_connect_after_drain_of_run {before after : List Label}
    (hrun : (step outcome).run handler (before ++ .task .drain :: after) = some next) :
    .task .connect ∉ after := by
  rw [Step.run_append] at hrun
  obtain ⟨serving, -, hrun⟩ := Option.bind_eq_some_iff.mp hrun
  obtain ⟨draining, hdrain, hrest⟩ := Option.bind_eq_some_iff.mp hrun
  obtain ⟨moved, hmoved, rfl⟩ := step_task_eq_some.mp hdrain
  refine not_connect_after_drain ?_ hrest
  rcases Service.step_cases hmoved with
    h | h | h | h | ⟨_, _, _, h, -⟩ | ⟨-, -, -, rfl⟩ | h
  · cases h.1
  · cases h.1
  · cases h.1
  · cases h.1
  · cases h
  · rfl
  · cases h.1

end Runs

/-- A handle that starting a server returns has a fresh server task and no call under way. -/
theorem Returned.fresh (h : Returned handler) : handler.Joins ∧ handler.Closed ∧
    handler.service.connections = [] ∧ handler.service.task = .spawned := by
  obtain ⟨kind, bindAddr, reporters, rfl, -⟩ := h.exists_service
  exact ⟨.of_service _ _, fun _ ↦ rfl, rfl, rfl⟩

/-- When `wait_for_stop` has returned, no connection is open and every request has been answered
or has ended without an answer, unless the server task crashed with an open connection.  No
connection is accepted after the drain has begun. -/
theorem waitForStop_is_barrier (outcome : BindOutcome) {handler state : ServiceHandler}
    (hreturned : Returned handler) {schedule : List Label}
    (hrun : (step outcome).run handler schedule = some state) :
    (schedule.countP (·.event = some .close) + state.service.connections.length =
      schedule.count (.task .connect)) ∧
    (schedule.countP (·.event = some .respond) + schedule.countP (·.event = some .abort) +
      state.service.inFlight = schedule.countP (·.event = some .accept)) ∧
    (∀ result, state.stop = .completed result → (step outcome).Each CrashesClosed handler schedule →
      state.service.connections = [] ∧ state.service.inFlight = 0) ∧
    ∀ before after, schedule = before ++ .task .drain :: after → .task .connect ∉ after := by
  obtain ⟨hjoins, hclosed, hopen, -⟩ := hreturned.fresh
  refine ⟨?_, ?_, fun result hstop heach ↦ ?_, ?_⟩
  · have hlength := length_add_countP_of_run hrun
    rw [hopen, List.length_nil] at hlength
    omega
  · have hbalance := inFlight_add_countP_of_run hrun
    rw [Service.inFlight, Service.inFlight, hopen, List.sum_nil] at hbalance
    rw [Service.inFlight]
    omega
  · have hended : state.AllEnded := by
      refine (((Step.Reachable.of_run hrun).invariant Joins hjoins ?_).completed result hstop).2
      exact fun _ _ _ h hstep ↦ h.step hstep
    have hnone := closed_of_run hclosed heach hrun (.inr hended.task)
    exact ⟨hnone, by rw [Service.inFlight, hnone, List.sum_nil]⟩
  · rintro before after rfl
    exact not_connect_after_drain_of_run hrun

/-- A schedule without a crash crashes only without a connection. -/
theorem each_crashesClosed_of_not_mem {schedule : List Label} (hcrash : Label.crash ∉ schedule) :
    (step outcome).Each CrashesClosed handler schedule := by
  rintro visited label state next hvisited - - rfl
  exact absurd (hvisited.subset (by simp)) hcrash

/-- Of two requests that are in flight when the server is told to stop, one is answered and the
client of the other goes away, before `wait_for_stop` returns. -/
theorem waitForStop_waits_default :
    let schedule : List Label := [.task .bind, .task .signalStarted, .task .connect,
      .task (.connection 0 .accept), .task .connect, .task (.connection 1 .accept), .shutdown,
      .reporter 0 .ok, .waitForStop, .pollStop, .task .drain, .task (.connection 0 .respond),
      .task (.connection 1 .abort), .task (.connection 1 .close), .task (.connection 0 .close),
      .task .finish, .pollStop]
    ∃ state, (step .bound).run
        (Service.handler ⟨.grpc, ⟨.v4 [127, 0, 0, 1], 50051⟩, false, .held, .spawned, []⟩ 1)
        schedule = some state ∧
      state.stop = .completed (.returned (.ok ())) ∧ state.service.connections = [] ∧
      schedule.countP (·.event = some .respond) + schedule.countP (·.event = some .abort) +
        state.service.inFlight = schedule.countP (·.event = some .accept) := by
  intro schedule
  have hreturned : Returned
      (Service.handler ⟨.grpc, ⟨.v4 [127, 0, 0, 1], 50051⟩, false, .held, .spawned, []⟩ 1) :=
    .grpc {} ["HelloService"] (by decide +kernel)
  have hrun : (step .bound).run
      (Service.handler ⟨.grpc, ⟨.v4 [127, 0, 0, 1], 50051⟩, false, .held, .spawned, []⟩ 1)
      schedule = some {
        service := ⟨.grpc, ⟨.v4 [127, 0, 0, 1], 50051⟩, true, .sent, .finished, []⟩
        reporterHandles := [some .ok]
        stop := .completed (.returned (.ok ())) } := by
    decide +kernel
  obtain ⟨-, hrequests, hclosed, -⟩ := waitForStop_is_barrier .bound hreturned hrun
  exact ⟨_, hrun, rfl, (hclosed _ rfl (each_crashesClosed_of_not_mem (by decide))).1, hrequests⟩

/-! ## The end of the drain -/

/-- As long as something runs after the token is cancelled, the server task or a reporter can move
by itself, or the server task waits in the drain for an open connection. -/
theorem exists_own_of_not_allEnded (outcome : BindOutcome)
    (hcancelled : handler.service.cancellationToken = true) (hrunning : ¬ handler.AllEnded) :
    (∃ label next, label.isOwn = true ∧ label ≠ .crash ∧
      step outcome handler label = some next) ∨
    handler.service.task = .draining ∧ handler.service.connections ≠ [] := by
  by_cases hown : ∀ label, label.isOwn = true → (Service.step outcome).Blocked handler.service label
  · rcases Service.ended_or_draining_of_blocked hcancelled hown with htask | hdraining
    · have hreporter : ∃ index : ℕ, handler.reporterHandles[index]? = some none := by
        by_contra hnone
        refine hrunning fun handle hhandle ↦ ?_
        rcases List.mem_append.mp hhandle with hhandle | hhandle
        · obtain ⟨index, hindex⟩ := List.mem_iff_getElem?.mp hhandle
          rw [Option.isSome_iff_ne_none]
          rintro rfl
          exact hnone ⟨index, hindex⟩
        · rw [List.mem_singleton.mp hhandle]
          cases hpoint : handler.service.task <;> simp_all [TaskState.ended, TaskState.joined]
      obtain ⟨index, hindex⟩ := hreporter
      exact .inl ⟨.reporter index .ok, _, rfl, by simp, step_reporter_eq_some.mpr ⟨hindex, rfl⟩⟩
    · exact .inr hdraining
  · push Not at hown
    obtain ⟨label, hlabel, hmoves⟩ := hown
    obtain ⟨moved, hmoved⟩ := Option.ne_none_iff_exists'.mp hmoves
    exact .inl ⟨.task label, _, hlabel, by simp, step_task_eq_some.mpr ⟨moved, hmoved, rfl⟩⟩

/-- A server that was told to stop comes to an end if its clients let it: whatever they do, the
server task and the reporters make a bounded number of steps by themselves, and the server task
stops short of its end only in the drain, for connections of which there are no new ones.  A poll
of `wait_for_stop` returns exactly if all tasks have ended. -/
theorem waitForStop_completes (outcome : BindOutcome) {handler state : ServiceHandler}
    (hreturned : Returned handler) {schedule : List Label}
    (hrun : (step outcome).run handler schedule = some state) :
    (schedule.countP Label.isOwn + state.remaining ≤ 4 + handler.reporterHandles.length) ∧
    (state.service.cancellationToken = true →
      (∀ label, label.isOwn = true → (step outcome).Blocked state (.task label)) →
        state.service.task.ended = true ∨
          state.service.task = .draining ∧ state.service.connections ≠ []) ∧
    (state.service.task = .draining → ∀ later final, (step outcome).run state later = some final →
      later.countP (·.event = some .close) + final.service.connections.length =
        state.service.connections.length) ∧
    (∀ taken, state.stop = .joining taken → ∃ next, step outcome state .pollStop = some next ∧
      ((∃ result, next.stop = .completed result) ↔ state.AllEnded)) := by
  obtain ⟨hjoins, -, -, htask⟩ := hreturned.fresh
  refine ⟨?_, fun hcancelled hblocked ↦ ?_, fun hdraining later final hlater ↦ ?_,
    fun taken htaken ↦ ?_⟩
  · have hpotential : state.remaining + schedule.countP Label.isOwn ≤ handler.remaining :=
      Step.add_countP_le_of_invariant (fun _ ↦ True) (fun _ _ _ _ _ ↦ trivial)
        (fun _ _ _ _ hstep ↦ step_remaining hstep) trivial hrun
    have hinitial : handler.remaining ≤ 4 + handler.reporterHandles.length := by
      rw [remaining, htask]
      exact Nat.add_le_add_left List.count_le_length 4
    omega
  · have htaskBlocked (label : Service.Label) (hown : label.isOwn = true) :
        (Service.step outcome).Blocked state.service label :=
      task_blocked_iff.mp (hblocked label hown)
    exact Service.ended_or_draining_of_blocked hcancelled htaskBlocked
  · have hlength := length_add_countP_of_run hlater
    have hconnect := not_connect_after_drain (by rw [hdraining]; rfl) hlater
    rw [List.count_eq_zero_of_not_mem hconnect] at hlength
    omega
  · have hstate : state.Joins :=
      (Step.Reachable.of_run hrun).invariant Joins hjoins fun _ _ _ h hstep ↦ h.step hstep
    refine ⟨_, step_pollStop_eq_some.mpr ⟨taken, htaken, rfl⟩, ?_⟩
    rw [pollStop_eq (hstate.joining taken htaken)]
    split_ifs with hended
    · exact iff_of_true ⟨_, rfl⟩ hended
    · exact iff_of_false (by simp) hended

/-- A default gRPC server that was told to stop waits for a client whose request is half sent. -/
theorem waitForStop_completes_default :
    ∃ state, (step .bound).run
        (Service.handler ⟨.grpc, ⟨.v4 [127, 0, 0, 1], 50051⟩, false, .held, .spawned, []⟩ 1)
        [.task .bind, .task .signalStarted, .task .connect, .task (.connection 0 .accept),
          .reporter 0 .ok, .shutdown, .waitForStop, .task .drain] = some state ∧
      ∃ next, step .bound state .pollStop = some next ∧
        ((∃ result, next.stop = .completed result) ↔ state.AllEnded) ∧ ¬ state.AllEnded := by
  have hreturned : Returned
      (Service.handler ⟨.grpc, ⟨.v4 [127, 0, 0, 1], 50051⟩, false, .held, .spawned, []⟩ 1) :=
    .grpc {} ["HelloService"] (by decide +kernel)
  have hrun : (step .bound).run
      (Service.handler ⟨.grpc, ⟨.v4 [127, 0, 0, 1], 50051⟩, false, .held, .spawned, []⟩ 1)
      [.task .bind, .task .signalStarted, .task .connect, .task (.connection 0 .accept),
        .reporter 0 .ok, .shutdown, .waitForStop, .task .drain] = some {
        service := ⟨.grpc, ⟨.v4 [127, 0, 0, 1], 50051⟩, true, .sent, .draining, [1]⟩
        reporterHandles := [some .ok]
        stop := .joining [none, none] } := by
    decide +kernel
  obtain ⟨next, hnext, hiff⟩ :=
    (waitForStop_completes .bound hreturned hrun).2.2.2 [none, none] rfl
  exact ⟨_, hrun, next, hnext, hiff, by decide⟩

end ServiceHandler

end Filestore.Server
