import Filestore.App.Start
import Filestore.Telemetry.Logging
import Mathlib.Logic.Function.Basic

/-!
# Logging while applications run

Every call of `start` initialises the logging and holds the guards that it gets until the call
ends.  The first call of the process gets the only guards, so the logging stops with that call, and
no application logs while it runs unless some other call of `start` still holds the guards.
-/

namespace Filestore.App

open Telemetry Transition

/-- The applications of one process and its logging. -/
structure Process (ι : Type) where
  app : ι → State
  /-- Whether the `Once` of the logging has run. -/
  initialised : Bool
  /-- The guards that each call of `start` holds. -/
  guards : ι → List WorkerGuard

namespace Process

/-- No application has been started yet. -/
def fresh (ι : Type) : Process ι where
  app _ := App.fresh
  initialised := false
  guards _ := []

/-- Some guard of the installed subscriber is live, so that records are written. -/
def GuardsLive {ι : Type} (process : Process ι) : Prop := ∃ i, process.guards i ≠ []

end Process

/-- `start` has returned `Ok` and the main task has not finished. -/
def State.Running (state : State) : Prop := state.start = .returned ∧ state.main ≠ .done

/-- The guards are live while any application runs. -/
def LoggingAlive {ι : Type} (process : Process ι) : Prop :=
  (∃ i, (process.app i).Running) → process.GuardsLive

/-- A call of `start` is under way. -/
def StartPoint.inCall : StartPoint → Bool
  | .notCalled | .returned | .failed _ => false
  | .loggingReady | .flagSet | .grpcStarted | .restStarted | .mainSpawned => true

section Steps

variable {ι : Type} [DecidableEq ι] (env : ι → Env)

/-- The step initialises the logging, as the first step of `start` does. -/
def Process.initialises (process : Process ι) (i : ι) (label : Label) : Bool :=
  label = .start && (process.app i).start = .notCalled

/-- The guards that a call of `start` holds after a step; the end of the call drops them. -/
def Process.heldAfter (process : Process ι) (i : ι) (label : Label) (moved : State) :
    List WorkerGuard :=
  if process.initialises i label then initTracingSubscriber process.initialised
  else if moved.start.inCall then process.guards i
  else []

/-- The process after one application has moved. -/
def Process.update (process : Process ι) (i : ι) (label : Label) (moved : State) : Process ι where
  app := Function.update process.app i moved
  initialised := process.initialised || process.initialises i label
  guards := Function.update process.guards i (process.heldAfter i label moved)

/-- One step of one application. -/
def processStep : Step (Process ι) (ι × Label) := fun process (i, label) ↦
  (step (env i) (process.app i) label).map (process.update i label)

variable {env} {process next : Process ι} {i : ι} {label : Label}

theorem processStep_eq_some :
    processStep env process (i, label) = some next ↔
      ∃ moved, step (env i) (process.app i) label = some moved ∧
        process.update i label moved = next :=
  Option.map_eq_some_iff

/-- Each application of a process moves as it does alone. -/
theorem app_reachable (hreachable : (processStep env).Reachable (.fresh ι) process) (i : ι) :
    (step (env i)).Reachable fresh (process.app i) := by
  apply hreachable.invariant
    (fun process ↦ ∀ i, (step (env i)).Reachable App.fresh (process.app i)) fun _ ↦ .start
  rintro process ⟨j, label⟩ next ih hstep i
  obtain ⟨moved, hmoved, rfl⟩ := processStep_eq_some.mp hstep
  by_cases hij : i = j
  · subst hij
    simpa [Process.update] using (ih i).move label hmoved
  · simpa [Process.update, hij] using ih i

/-- Only a call of `start` that is under way holds guards. -/
def Process.HeldInCall (process : Process ι) : Prop :=
  ∀ i, process.guards i ≠ [] → (process.app i).start.inCall = true

theorem Process.HeldInCall.step (h : process.HeldInCall)
    (hstep : processStep env process (i, label) = some next) : next.HeldInCall := by
  obtain ⟨moved, hmoved, rfl⟩ := processStep_eq_some.mp hstep
  intro j hguards
  by_cases hji : j = i
  · subst hji
    simp only [Process.update, Function.update_self, Process.heldAfter] at hguards ⊢
    split_ifs at hguards with hinitialises hcall
    · obtain ⟨rfl, hpoint⟩ : label = .start ∧ (process.app j).start = .notCalled := by
        simpa [Process.initialises] using hinitialises
      obtain rfl : { process.app j with start := .loggingReady } = moved := by
        simpa [App.step, startStep, hpoint] using hmoved
      rfl
    · exact hcall
    · exact absurd rfl hguards
  · simp only [Process.update, Function.update_of_ne hji] at hguards ⊢
    exact h j hguards

/-- A schedule of one application runs in the process as it does alone, and the others wait. -/
theorem exists_run_of_app (process : Process ι) {schedule : List Label} {final : State}
    (hrun : (step (env i)).run (process.app i) schedule = some final) :
    ∃ next, (processStep env).run process (schedule.map (i, ·)) = some next ∧
      next.app = Function.update process.app i final := by
  induction schedule generalizing process with
  | nil =>
    obtain rfl : process.app i = final := by simpa using hrun
    exact ⟨process, rfl, (Function.update_eq_self i process.app).symm⟩
  | cons label schedule ih =>
    obtain ⟨moved, hmoved, hrest⟩ := Option.bind_eq_some_iff.mp hrun
    obtain ⟨next, hnext, happ⟩ := ih (process.update i label moved)
      (by simpa [Process.update] using hrest)
    refine ⟨next, ?_, by simpa [Process.update] using happ⟩
    rw [List.map_cons, Step.run_cons, processStep_eq_some.mpr ⟨moved, hmoved, rfl⟩]
    exact hnext

end Steps

/-! ## When the guards are live -/

section Alive

variable {ι : Type} [DecidableEq ι] {env : ι → Env} {process next : Process ι} {i : ι}
  {label : Label}

/-- The step ends a call of `start`. -/
def EndsCall (env : Env) (state : State) : Prop :=
  ∃ moved, startStep env.config state = some moved ∧ moved.start.inCall = false

/-- A call of `start` ends only if another call holds guards, or no application runs after it:
neither another one, nor this one unless its main task is done already. -/
def KeepsGuards (env : ι → Env) (process : Process ι) (move : ι × Label) : Prop :=
  move.2 = .start → EndsCall (env move.1) (process.app move.1) →
    (∃ j, j ≠ move.1 ∧ (process.app j).Running) ∨
      ((process.app move.1).start = .mainSpawned ∧ (process.app move.1).main ≠ .done) →
    ∃ j, j ≠ move.1 ∧ process.guards j ≠ []

/-- A step that ends no call of `start` keeps the logging alive. -/
theorem LoggingAlive.update (halive : LoggingAlive process) (hheld : process.HeldInCall)
    {moved : State} (hmoved : step (env i) (process.app i) label = some moved)
    (hcall : label = .start → moved.start.inCall = true) :
    LoggingAlive (process.update i label moved) := by
  rintro ⟨j, hrunning⟩
  have hbefore : (process.app j).Running := by
    by_cases hji : j = i
    · subst hji
      obtain ⟨hreturned, hmain⟩ : moved.Running := by simpa [Process.update] using hrunning
      have hlabel : label ≠ .start := fun hlabel ↦ by
        simpa [hreturned, StartPoint.inCall] using hcall hlabel
      have hframe := step_frame hmoved
      constructor
      · rw [← hframe.start hlabel, hreturned]
      · exact fun hdone ↦ hmain (hframe.done hlabel hdone)
    · simpa [Process.update, hji] using hrunning
  obtain ⟨k, hguards⟩ := halive ⟨j, hbefore⟩
  refine ⟨k, ?_⟩
  by_cases hki : k = i
  · subst hki
    have hinCall := hheld k hguards
    have hinitialises : process.initialises k label = false := by
      cases hpoint : (process.app k).start <;>
        simp_all [Process.initialises, StartPoint.inCall]
    have hmovedCall : moved.start.inCall = true := by
      by_cases hlabel : label = .start
      · exact hcall hlabel
      · rwa [(step_frame hmoved).start hlabel]
    simpa [Process.update, Process.heldAfter, hinitialises, hmovedCall] using hguards
  · simpa [Process.update, hki] using hguards

/-- After the end of a call, only the other calls can hold guards. -/
theorem loggingAlive_update_of_endsCall {moved : State}
    (hmoved : startStep (env i).config (process.app i) = some moved)
    (hcall : moved.start.inCall = false) :
    LoggingAlive (process.update i .start moved) ↔
      ((∃ j, j ≠ i ∧ (process.app j).Running) ∨
        ((process.app i).start = .mainSpawned ∧ (process.app i).main ≠ .done) →
      ∃ j, j ≠ i ∧ process.guards j ≠ []) := by
  have hpoint : (process.app i).start ≠ .notCalled := by
    intro hpoint
    obtain rfl : { process.app i with start := .loggingReady } = moved := by
      simpa [startStep, hpoint] using hmoved
    cases hcall
  have hdropped : process.heldAfter i .start moved = [] := by
    simp [Process.heldAfter, Process.initialises, hpoint, hcall]
  have hlive : (process.update i .start moved).GuardsLive ↔ ∃ j, j ≠ i ∧ process.guards j ≠ [] := by
    constructor
    · rintro ⟨j, hguards⟩
      by_cases hji : j = i
      · subst hji
        simp [Process.update, hdropped] at hguards
      · exact ⟨j, hji, by simpa [Process.update, hji] using hguards⟩
    · rintro ⟨j, hji, hguards⟩
      exact ⟨j, by simpa [Process.update, hji] using hguards⟩
  have hself : moved.Running ↔
      (process.app i).start = .mainSpawned ∧ (process.app i).main ≠ .done := by
    rcases startStep_cases hmoved with ⟨h, rfl⟩ | ⟨h, rfl⟩ | ⟨h, _, -, rfl⟩ | ⟨h, _, -, rfl⟩ |
      ⟨h, _, _, -, rfl⟩ | ⟨h, _, -, rfl⟩ | ⟨h, rfl⟩ | ⟨h, rfl⟩ <;> simp [State.Running, h]
  have hrunning : (∃ j, ((process.update i .start moved).app j).Running) ↔
      (∃ j, j ≠ i ∧ (process.app j).Running) ∨
        ((process.app i).start = .mainSpawned ∧ (process.app i).main ≠ .done) := by
    rw [← hself]
    constructor
    · rintro ⟨j, hj⟩
      by_cases hji : j = i
      · subst hji
        exact .inr (by simpa [Process.update] using hj)
      · exact .inl ⟨j, hji, by simpa [Process.update, hji] using hj⟩
    · rintro (⟨j, hji, hj⟩ | hi)
      · exact ⟨j, by simpa [Process.update, hji] using hj⟩
      · exact ⟨i, by simpa [Process.update] using hi⟩
  rw [LoggingAlive, hrunning, hlive]

/-- One step keeps the logging alive exactly when it does not end the wrong call. -/
theorem loggingAlive_step_iff (hheld : process.HeldInCall) (halive : LoggingAlive process)
    (hstep : processStep env process (i, label) = some next) :
    LoggingAlive next ↔ KeepsGuards env process (i, label) := by
  obtain ⟨moved, hmoved, rfl⟩ := processStep_eq_some.mp hstep
  by_cases hends : label = .start ∧ moved.start.inCall = false
  · obtain ⟨rfl, hcall⟩ := hends
    rw [loggingAlive_update_of_endsCall hmoved hcall]
    exact ⟨fun h _ _ ↦ h, fun h ↦ h rfl ⟨moved, hmoved, hcall⟩⟩
  · refine iff_of_true (halive.update hheld hmoved fun hlabel ↦ ?_) ?_
    · simpa [hlabel] using hends
    · rintro rfl ⟨moved', hmoved', hcall⟩
      obtain rfl : moved = moved' := Option.some.inj (hmoved.symm.trans hmoved')
      exact absurd ⟨rfl, hcall⟩ hends

/-- An application that starts on its own runs, and no guard is left. -/
theorem exists_started_without_guards (hparse : (env i).config.AddressesParse) :
    ∃ process, (processStep env).run (.fresh ι) ((List.replicate 6 Label.start).map (i, ·)) =
        some process ∧ (process.app i).Running ∧ ∀ j, process.guards j = [] := by
  obtain ⟨grpc, rest, -, -, -, -, hrun⟩ := run_start hparse
  obtain ⟨process, hprocess, happ⟩ := exists_run_of_app (i := i) (.fresh ι) hrun
  have hheld : process.HeldInCall :=
    (Step.Reachable.of_run hprocess).invariant Process.HeldInCall
      (fun _ hguards ↦ absurd rfl hguards) fun _ _ _ h hstep ↦ h.step hstep
  refine ⟨process, hprocess, ?_, fun j ↦ ?_⟩
  · simp [happ, State.Running, started]
  · by_contra hguards
    have hcall := hheld j hguards
    by_cases hji : j = i
    · subst hji
      simp [happ, started, StartPoint.inCall] at hcall
    · simp [happ, hji, Process.fresh, App.fresh, StartPoint.inCall] at hcall

/-- The logging is alive on every schedule exactly when no application of the process can start,
and on one schedule exactly when no call of `start` takes the last guards from a running
application. -/
theorem loggingAlive_iff (env : ι → Env) :
    ((∀ process, (processStep env).Reachable (.fresh ι) process → LoggingAlive process) ↔
      ∀ i, ¬ (env i).config.AddressesParse) ∧
    ∀ schedule, (processStep env).Always LoggingAlive (.fresh ι) schedule ↔
      (processStep env).Each (KeepsGuards env) (.fresh ι) schedule := by
  refine ⟨⟨?_, ?_⟩, ?_⟩
  · intro halive i hparse
    obtain ⟨process, hrun, hreturned, hguards⟩ := exists_started_without_guards hparse
    obtain ⟨j, hj⟩ := halive process (.of_run hrun) ⟨i, hreturned⟩
    exact hj (hguards j)
  · rintro hparse process hreachable ⟨i, hrunning⟩
    exact absurd (addressesParse_of_returned (app_reachable hreachable i) hrunning.1) (hparse i)
  · intro schedule
    have hfresh : LoggingAlive (Process.fresh ι) := by
      rintro ⟨i, hrunning⟩
      cases hrunning.1
    exact Step.always_iff_each (fun _ _ _ (h : Process.HeldInCall _) hstep ↦ h.step hstep)
      (fun _ _ _ hheld halive hstep ↦ loggingAlive_step_iff hheld halive hstep)
      (fun _ hguards ↦ absurd rfl hguards) hfresh schedule

/-- A process that starts one application with the default configuration loses the records of that
application: the guards are dropped when `start` returns. -/
theorem default_app_loses_logging :
    let env : Unit → Env := fun _ ↦ { config := {}, bind := fun _ ↦ .bound }
    ∃ process, (processStep env).run (.fresh Unit) ((List.replicate 6 Label.start).map ((), ·)) =
        some process ∧
      (process.app ()).Running ∧ ¬ process.GuardsLive ∧ ¬ LoggingAlive process := by
  intro env
  have hparse : (env ()).config.AddressesParse := by decide +kernel
  obtain ⟨process, hrun, hrunning, hguards⟩ := exists_started_without_guards hparse
  have hdead : ¬ process.GuardsLive := fun ⟨j, hj⟩ ↦ hj (hguards j)
  exact ⟨process, hrun, hrunning, hdead, fun halive ↦ hdead (halive ⟨(), hrunning⟩)⟩

end Alive

end Filestore.App
