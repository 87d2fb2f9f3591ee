import Filestore.App.Lifecycle

/-!
# The shutdown protocol of a started application

The owner of the handle and the main task both clear the running flag before they cancel the
application token, and only the main task cancels the tokens of the servers after that.  A trigger
is a call of `shutdown`, the drop of the handle, or a signal if graceful shutdown is enabled.
-/

namespace Filestore.App

open Server Transition

/-- The labels of the shutdown protocol: nobody else writes the public fields. -/
def isProtocolLabel : Label → Bool
  | .start | .main | .grpc _ | .rest _ | .shutdown | .dropHandle | .signal => true
  | .cancelClone | .runReturn => false

/-- The steps of a started application under the control of its handle. -/
def protocolStep (env : Env) : Step State Label := (step env).restrict isProtocolLabel

/-! ## Points of the main task and of the handle -/

@[simp]
def MainPoint.pastWaiting : MainPoint → Bool
  | .woken | .flagCleared | .tokenCancelled | .grpcShutdown | .done => true
  | .absent | .spawned | .waiting => false

@[simp]
def MainPoint.pastFlag : MainPoint → Bool
  | .flagCleared | .tokenCancelled | .grpcShutdown | .done => true
  | .absent | .spawned | .waiting | .woken => false

@[simp]
def MainPoint.pastToken : MainPoint → Bool
  | .tokenCancelled | .grpcShutdown | .done => true
  | .absent | .spawned | .waiting | .woken | .flagCleared => false

/-- The handle is in the middle of a call of `shutdown`. -/
@[simp]
def HandlePoint.shuttingDown : HandlePoint → Bool
  | .flagCleared | .tokenCancelled => true
  | .absent | .idle | .dropped => false

/-- `start` has set the running flag, which it does once. -/
@[simp]
def StartPoint.pastFlag : StartPoint → Bool
  | .notCalled | .loggingReady => false
  | .flagSet | .grpcStarted | .restStarted | .mainSpawned | .returned | .failed _ => true

/-- The label begins a trigger: a call of `shutdown`, the drop of the handle, or a signal if it is
enabled. -/
def isTrigger (config : AppConfig) : Label → Bool
  | .shutdown | .dropHandle => true
  | .signal => config.enableGracefulShutdown
  | _ => false

/-! ## The order of the writes -/

/-- The flag is cleared before the token is cancelled on both sides. -/
structure Ordered (state : State) : Prop where
  handleFlag : state.handle.shuttingDown = true → state.running = false
  mainFlag : state.main.pastFlag = true → state.running = false
  mainToken : state.main.pastToken = true → state.cancellationToken = true
  tokenFlag : state.cancellationToken = true → state.running = false
  notStarted : state.start.pastFlag = false → state.main = .absent ∧ state.handle = .absent ∧
    state.cancellationToken = false

namespace Ordered

variable {config : AppConfig} {state next : State}

theorem of_fresh : Ordered fresh := by
  constructor <;> simp [fresh]

/-- A main task or a handle is there only once `start` has set the flag. -/
theorem pastFlag_of_party (h : Ordered state)
    (hparty : state.main ≠ .absent ∨ state.handle ≠ .absent) : state.start.pastFlag ≠ false := by
  intro hstart
  obtain ⟨hmain, hhandle, -⟩ := h.notStarted hstart
  exact hparty.elim (absurd hmain) (absurd hhandle)

theorem startStep (h : Ordered state) (hstep : startStep config state = some next) :
    Ordered next := by
  rcases startStep_cases hstep with
    ⟨hpoint, rfl⟩ | ⟨hpoint, rfl⟩ | ⟨hpoint, grpc, -, rfl⟩ | ⟨hpoint, source, -, rfl⟩ |
    ⟨hpoint, rest, router, -, rfl⟩ | ⟨hpoint, source, -, rfl⟩ | ⟨hpoint, rfl⟩ | ⟨hpoint, rfl⟩
  · exact { h with notStarted := fun _ ↦ h.notStarted (by rw [hpoint]; rfl) }
  -- The flag is set while there is nobody who could have cleared it.
  · obtain ⟨hmain, hhandle, htoken⟩ := h.notStarted (by rw [hpoint]; rfl)
    exact {
      handleFlag := by simp [hhandle]
      mainFlag := by simp [hmain]
      mainToken := h.mainToken
      tokenFlag := by simp [htoken]
      notStarted := nofun }
  · exact { h with notStarted := nofun }
  · exact { h with notStarted := nofun }
  · exact { h with notStarted := nofun }
  · exact { h with notStarted := nofun }
  · exact { h with mainFlag := nofun, mainToken := nofun, notStarted := nofun }
  · exact { h with handleFlag := nofun, notStarted := nofun }

theorem mainStep (h : Ordered state) (hstep : mainStep config state = some next) :
    Ordered next := by
  have hstarted : state.main ≠ .absent → state.start.pastFlag ≠ false :=
    fun hmain ↦ h.pastFlag_of_party (.inl hmain)
  rcases mainStep_cases hstep with
    ⟨hpoint, rfl⟩ | ⟨hpoint, htriggered, rfl⟩ | ⟨hpoint, rfl⟩ | ⟨hpoint, rfl⟩ | ⟨hpoint, rfl⟩ |
    ⟨hpoint, rfl⟩
  all_goals
    have hflag := h.mainFlag
    have htoken := h.mainToken
    simp only [hpoint, ne_eq, reduceCtorEq, not_false_eq_true, forall_const, MainPoint.pastFlag,
      MainPoint.pastToken, Bool.false_eq_true, false_imp_iff] at hstarted hflag htoken
  · exact { h with
      mainFlag := nofun
      mainToken := nofun
      notStarted := fun hstart ↦ absurd hstart hstarted }
  · exact { h with
      mainFlag := nofun
      mainToken := nofun
      notStarted := fun hstart ↦ absurd hstart hstarted }
  · exact {
      handleFlag := fun _ ↦ rfl
      mainFlag := fun _ ↦ rfl
      mainToken := nofun
      tokenFlag := fun _ ↦ rfl
      notStarted := fun hstart ↦ absurd hstart hstarted }
  · exact { h with
      mainFlag := fun _ ↦ hflag
      mainToken := fun _ ↦ rfl
      tokenFlag := fun _ ↦ hflag
      notStarted := fun hstart ↦ absurd hstart hstarted }
  · exact { h with
      mainFlag := fun _ ↦ hflag
      mainToken := fun _ ↦ htoken
      notStarted := fun hstart ↦ absurd hstart hstarted }
  · exact { h with
      mainFlag := fun _ ↦ hflag
      mainToken := fun _ ↦ htoken
      notStarted := fun hstart ↦ absurd hstart hstarted }

theorem shutdownStep (h : Ordered state) (hstep : shutdownStep state = some next) :
    Ordered next := by
  have hparty : state.handle ≠ .absent → state.start.pastFlag ≠ false :=
    fun hhandle ↦ h.pastFlag_of_party (.inr hhandle)
  rcases shutdownStep_cases hstep with ⟨hpoint, rfl⟩ | ⟨hpoint, rfl⟩ | ⟨hpoint, rfl⟩
  all_goals have hstarted := hparty (by simp [hpoint])
  · exact {
      handleFlag := fun _ ↦ rfl
      mainFlag := fun _ ↦ rfl
      mainToken := h.mainToken
      tokenFlag := fun _ ↦ rfl
      notStarted := fun hstart ↦ absurd hstart hstarted }
  · have hflag : state.running = false := h.handleFlag (by rw [hpoint]; rfl)
    exact { h with
      handleFlag := fun _ ↦ hflag
      mainToken := fun _ ↦ rfl
      tokenFlag := fun _ ↦ hflag
      notStarted := fun hstart ↦ absurd hstart hstarted }
  · exact { h with
      handleFlag := nofun
      notStarted := fun hstart ↦ absurd hstart hstarted }

theorem dropHandle (h : Ordered state) (hidle : state.handle = .idle) :
    Ordered state.dropHandle :=
  { h with
    handleFlag := nofun
    notStarted := fun hstart ↦ absurd hstart (h.pastFlag_of_party (.inr (by simp [hidle]))) }

/-- No step of the protocol breaks the order of the writes. -/
theorem step {env : Env} (h : Ordered state) {label : Label}
    (hstep : protocolStep env state label = some next) :
    Ordered next := by
  obtain ⟨hprotocol, hstep⟩ := (Step.restrict_eq_some _).mp hstep
  cases label with
  | start => exact h.startStep hstep
  | main => exact h.mainStep hstep
  | grpc label =>
    obtain ⟨grpc, moved, -, -, rfl⟩ := step_grpc_eq_some.mp hstep
    exact { h with }
  | rest label =>
    obtain ⟨rest, moved, -, -, rfl⟩ := step_rest_eq_some.mp hstep
    exact { h with }
  | shutdown => exact h.shutdownStep hstep
  | dropHandle =>
    obtain ⟨hidle, rfl⟩ := step_dropHandle_eq_some.mp hstep
    exact h.dropHandle hidle
  | signal =>
    rcases step_signal_cases hstep with rfl | rfl
    · exact { h with }
    · exact h
  | cancelClone => cases hprotocol
  | runReturn => cases hprotocol

theorem of_reachable {env : Env} (hreachable : (protocolStep env).Reachable fresh state) :
    Ordered state :=
  hreachable.invariant Ordered of_fresh fun _ _ _ hordered hstep ↦ hordered.step hstep

end Ordered

/-! ## Before any trigger -/

/-- Nothing has been cancelled, nothing is about to be, and the main task has nothing to wake up
for. -/
structure Quiet (config : AppConfig) (state : State) : Prop where
  token : state.cancellationToken = false
  main : state.main.pastWaiting = false
  handle : state.handle.shuttingDown = false
  channel : (∀ error, state.start ≠ .failed error) → state.triggered config = false

namespace Quiet

variable {env : Env} {state next : State}

theorem of_fresh (config : AppConfig) : Quiet config fresh := by
  constructor <;> simp [fresh, State.triggered]

/-- Only a trigger ends the quiet. -/
theorem step (h : Quiet env.config state) (hcoherent : Coherent env state) {label : Label}
    (hlabel : isTrigger env.config label = false)
    (hstep : protocolStep env state label = some next) : Quiet env.config next := by
  obtain ⟨hprotocol, hstep⟩ := (Step.restrict_eq_some _).mp hstep
  obtain ⟨htoken, hmain, hhandle, hchannel⟩ := h
  cases label with
  | start =>
    rcases startStep_cases hstep with
      ⟨hpoint, rfl⟩ | ⟨hpoint, rfl⟩ | ⟨hpoint, grpc, -, rfl⟩ | ⟨hpoint, source, -, rfl⟩ |
      ⟨hpoint, rest, router, -, rfl⟩ | ⟨hpoint, source, -, rfl⟩ | ⟨hpoint, rfl⟩ | ⟨hpoint, rfl⟩
    · exact ⟨htoken, hmain, hhandle, fun _ ↦ hchannel (by simp [hpoint])⟩
    · exact ⟨htoken, hmain, hhandle, fun _ ↦ hchannel (by simp [hpoint])⟩
    · exact ⟨htoken, hmain, hhandle, fun _ ↦ hchannel (by simp [hpoint])⟩
    · exact ⟨htoken, hmain, hhandle, fun hfailed ↦ absurd rfl (hfailed _)⟩
    · exact ⟨htoken, hmain, hhandle, fun _ ↦ hchannel (by simp [hpoint])⟩
    · exact ⟨htoken, hmain, hhandle, fun hfailed ↦ absurd rfl (hfailed _)⟩
    · exact ⟨htoken, rfl, hhandle, fun _ ↦ hchannel (by simp [hpoint])⟩
    · exact ⟨htoken, hmain, rfl, fun _ ↦ hchannel (by simp [hpoint])⟩
  | main =>
    rcases mainStep_cases hstep with
      ⟨hpoint, rfl⟩ | ⟨hpoint, htriggered, rfl⟩ | ⟨hpoint, rfl⟩ | ⟨hpoint, rfl⟩ | ⟨hpoint, rfl⟩ |
      ⟨hpoint, rfl⟩
    · exact ⟨htoken, rfl, hhandle, hchannel⟩
    · have hstarted := hcoherent.main.mp (by simp [hpoint])
      have hquiet := hchannel fun error hfailed ↦ by simp [hfailed] at hstarted
      rw [hquiet] at htriggered
      cases htriggered
    -- The main task would have to be past its wait already.
    all_goals simp [hpoint] at hmain
  | grpc label =>
    obtain ⟨grpc, moved, -, -, rfl⟩ := step_grpc_eq_some.mp hstep
    exact ⟨htoken, hmain, hhandle, hchannel⟩
  | rest label =>
    obtain ⟨rest, moved, -, -, rfl⟩ := step_rest_eq_some.mp hstep
    exact ⟨htoken, hmain, hhandle, hchannel⟩
  | shutdown => cases hlabel
  | dropHandle => cases hlabel
  | signal =>
    rcases step_signal_cases hstep with rfl | rfl
    · refine ⟨htoken, hmain, hhandle, fun hfailed ↦ ?_⟩
      simpa [State.triggered, show env.config.enableGracefulShutdown = false from hlabel] using
        hchannel hfailed
    · exact ⟨htoken, hmain, hhandle, hchannel⟩
  | cancelClone => cases hprotocol
  | runReturn => cases hprotocol

end Quiet

/-! ## After a trigger -/

/-- The main task has been woken, or will be when it gets to wait. -/
def State.Triggered (config : AppConfig) (state : State) : Prop :=
  state.main ≠ .absent ∧ (state.main.pastWaiting = true ∨ state.triggered config = true)

/-- The step completes a trigger: the message of a call of `shutdown` is sent, the handle is
dropped, or a signal is received by the main task, if it listens for signals. -/
def CompletesTrigger (config : AppConfig) (state : State) : Label → Prop
  | .shutdown => state.handle = .tokenCancelled
  | .dropHandle | .runReturn => True
  | .signal => config.enableGracefulShutdown = true ∧ state.main ≠ .absent ∧ state.main ≠ .spawned
  | .start | .main | .grpc _ | .rest _ | .cancelClone => False

section Triggered

variable {env : Env} {state next : State} {label : Label}

/-- Once there is a main task, `start` has only to return. -/
theorem start_of_main (hcoherent : Coherent env state) (hmain : state.main ≠ .absent)
    (hstep : step env state .start = some next) :
    next = { state with handle := .idle, start := .returned } := by
  have hstarted := hcoherent.main.mp hmain
  rcases startStep_cases hstep with h | h | h | h | h | h | h | ⟨-, hnext⟩
  · simp [h] at hstarted
  · simp [h] at hstarted
  · simp [h] at hstarted
  · simp [h] at hstarted
  · simp [h] at hstarted
  · simp [h] at hstarted
  · simp [h] at hstarted
  · exact hnext

/-- A trigger is never lost. -/
theorem State.Triggered.step (h : state.Triggered env.config) (hcoherent : Coherent env state)
    (hstep : App.step env state label = some next) : next.Triggered env.config := by
  obtain ⟨hmain, htriggered⟩ := h
  cases label with
  | start =>
    obtain rfl := start_of_main hcoherent hmain hstep
    exact ⟨hmain, htriggered⟩
  | main =>
    rcases mainStep_cases hstep with ⟨hpoint, rfl⟩ | ⟨hpoint, -, rfl⟩ | ⟨hpoint, rfl⟩ |
      ⟨hpoint, rfl⟩ | ⟨hpoint, rfl⟩ | ⟨hpoint, rfl⟩
    · rw [hpoint] at htriggered
      exact ⟨nofun, .inr (htriggered.resolve_left nofun)⟩
    · exact ⟨nofun, .inl rfl⟩
    · exact ⟨nofun, .inl rfl⟩
    · exact ⟨nofun, .inl rfl⟩
    · exact ⟨nofun, .inl rfl⟩
    · exact ⟨nofun, .inl rfl⟩
  | grpc label =>
    obtain ⟨grpc, moved, -, -, rfl⟩ := step_grpc_eq_some.mp hstep
    exact ⟨hmain, htriggered⟩
  | rest label =>
    obtain ⟨rest, moved, -, -, rfl⟩ := step_rest_eq_some.mp hstep
    exact ⟨hmain, htriggered⟩
  | shutdown =>
    rcases shutdownStep_cases hstep with ⟨-, rfl⟩ | ⟨-, rfl⟩ | ⟨-, rfl⟩
    · exact ⟨hmain, htriggered⟩
    · exact ⟨hmain, htriggered⟩
    · refine ⟨hmain, .inr ?_⟩
      by_cases hheld : state.shutdownTx = .held <;> simp [State.triggered, hheld]
  | dropHandle =>
    obtain ⟨-, rfl⟩ := step_dropHandle_eq_some.mp hstep
    refine ⟨hmain, .inr ?_⟩
    by_cases hheld : state.shutdownTx = .held <;> simp [State.triggered, State.dropHandle, hheld]
  | signal =>
    rcases step_signal_cases hstep with rfl | rfl
    · refine ⟨hmain, htriggered.imp_right fun htriggered ↦ ?_⟩
      simp only [State.triggered, Bool.or_eq_true, Bool.and_eq_true] at htriggered ⊢
      exact htriggered.imp_right fun h ↦ ⟨h.1, trivial⟩
    · exact ⟨hmain, htriggered⟩
  | cancelClone =>
    obtain rfl := step_cancelClone_eq_some.mp hstep
    exact ⟨hmain, htriggered⟩
  | runReturn =>
    obtain ⟨-, rfl⟩ := step_runReturn_eq_some.mp hstep
    refine ⟨hmain, .inr ?_⟩
    by_cases hheld : state.shutdownTx = .held <;> simp [State.triggered, State.dropHandle, hheld]

/-- The message or the loss of the sender resolves the shutdown channel. -/
theorem triggered_of_ne_held {config : AppConfig} (hmain : state.main ≠ .absent)
    (hsender : state.shutdownTx ≠ .held) : state.Triggered config :=
  ⟨hmain, .inr (by simp [State.triggered, hsender])⟩

/-- A trigger that is completed reaches the main task. -/
theorem CompletesTrigger.triggered (h : CompletesTrigger env.config state label)
    (hcoherent : Coherent env state) (hstep : App.step env state label = some next) :
    next.Triggered env.config := by
  have hmain : state.handle ≠ .absent → state.main ≠ .absent :=
    fun hhandle ↦ hcoherent.main.mpr (.inr (hcoherent.handle hhandle))
  cases label with
  | shutdown =>
    rcases shutdownStep_cases hstep with ⟨hpoint, -⟩ | ⟨hpoint, -⟩ | ⟨hpoint, rfl⟩
    · cases hpoint.symm.trans h
    · cases hpoint.symm.trans h
    · refine triggered_of_ne_held (hmain (by simp [hpoint])) ?_
      by_cases hheld : state.shutdownTx = .held <;> simp [hheld]
  | dropHandle =>
    obtain ⟨hidle, rfl⟩ := step_dropHandle_eq_some.mp hstep
    refine triggered_of_ne_held (hmain (by simp [hidle])) ?_
    by_cases hheld : state.shutdownTx = .held <;> simp [State.dropHandle, hheld]
  | runReturn =>
    obtain ⟨⟨-, hidle, -⟩, rfl⟩ := step_runReturn_eq_some.mp hstep
    refine triggered_of_ne_held (hmain (by simp [hidle])) ?_
    by_cases hheld : state.shutdownTx = .held <;> simp [State.dropHandle, hheld]
  | signal =>
    obtain ⟨hgraceful, hpresent, hspawned⟩ := h
    by_cases hwaiting : state.main = .waiting
    · obtain rfl : { state with signalled := true } = next := by
        simpa [App.step, hgraceful, hwaiting] using hstep
      exact ⟨hpresent, .inr (by simp [State.triggered, hgraceful])⟩
    · obtain rfl : state = next := by simpa [App.step, hwaiting] using hstep
      refine ⟨hpresent, .inl ?_⟩
      cases hpoint : state.main <;> simp_all
  | start | main | grpc | rest | cancelClone => exact h.elim

/-- A main task that has been triggered and has no further step is done. -/
theorem State.Triggered.main_done (h : state.Triggered env.config)
    (hblocked : mainStep env.config state = none) : state.main = .done := by
  obtain ⟨hpresent, htriggered⟩ := h
  cases hpoint : state.main <;> simp_all [mainStep]

end Triggered

/-! ## The protocol -/

section Protocol

variable {env : Env} {state next : State}

theorem Coherent.protocolStep (h : Coherent env state) {label : Label}
    (hstep : App.protocolStep env state label = some next) : Coherent env next :=
  h.step ((Step.restrict_eq_some _).mp hstep).2

/-- Once `start` has set the flag, a cleared flag stays cleared. -/
theorem running_step {label : Label} (hflag : state.start.pastFlag = true)
    (hrunning : state.running = false) (hstep : step env state label = some next) :
    next.start.pastFlag = true ∧ next.running = false := by
  by_cases hlabel : label = .start
  · subst hlabel
    rcases startStep_cases hstep with ⟨h, rfl⟩ | ⟨h, rfl⟩ | ⟨-, _, -, rfl⟩ | ⟨-, _, -, rfl⟩ |
      ⟨-, _, _, -, rfl⟩ | ⟨-, _, -, rfl⟩ | ⟨-, rfl⟩ | ⟨-, rfl⟩ <;> simp_all
  · have hframe := step_frame hstep
    exact ⟨by rwa [hframe.start hlabel], hframe.running hlabel hrunning⟩

theorem running_of_reachable (hflag : state.start.pastFlag = true)
    (hrunning : state.running = false) (hreachable : (protocolStep env).Reachable state next) :
    next.running = false := by
  have hboth := hreachable.of_restrict.invariant
    (fun state ↦ state.start.pastFlag = true ∧ state.running = false) ⟨hflag, hrunning⟩
    fun _ _ _ h hstep ↦ running_step h.1 h.2 hstep
  exact hboth.2

/-- Before the application token is cancelled, a trigger has begun. -/
theorem exists_trigger_of_token {schedule : List Label}
    (hrun : (protocolStep env).run fresh schedule = some state)
    (htoken : state.cancellationToken = true) :
    ∃ label ∈ schedule, isTrigger env.config label = true := by
  apply Step.exists_mem_of_run _ (fun state ↦ Coherent env state ∧ Quiet env.config state)
    ⟨.of_fresh env, .of_fresh env.config⟩ _ hrun
  · intro hquiet
    rw [hquiet.2.token] at htoken
    cases htoken
  · intro state label next h hlabel hstep
    exact ⟨h.1.protocolStep hstep, h.2.step h.1 hlabel hstep⟩

/-- The flag is cleared and all three tokens are cancelled. -/
structure ShutDown (state : State) : Prop where
  running : state.running = false
  cancellationToken : state.cancellationToken = true
  grpc : ∃ grpc ∈ state.grpc, grpc.cancellationToken = true
  rest : ∃ rest ∈ state.rest, rest.cancellationToken = true

/-- A completed trigger stays with the main task. -/
theorem triggered_of_takes {schedule : List Label}
    (hrun : (protocolStep env).run fresh schedule = some state)
    (htakes : (protocolStep env).Takes (CompletesTrigger env.config) fresh schedule) :
    state.Triggered env.config :=
  htakes.holds (Coherent env) (fun _ _ _ h hstep ↦ h.protocolStep hstep)
    (fun _ _ _ h hcompletes hstep ↦
      hcompletes.triggered h ((Step.restrict_eq_some _).mp hstep).2)
    (fun _ _ _ h htriggered hstep ↦ htriggered.step h ((Step.restrict_eq_some _).mp hstep).2)
    (.of_fresh env) hrun

/-- The shutdown protocol: the flag is cleared before the application token is cancelled and stays
cleared; the tokens are cancelled in order and only after a trigger; and once a trigger has been
completed, the main task does not stop before the flag is cleared and all three tokens are
cancelled. -/
theorem shutdown_protocol {schedule : List Label}
    (hrun : (protocolStep env).run fresh schedule = some state) :
    (state.cancellationToken = true → state.running = false) ∧
    (state.start = .returned → state.running = false →
      ∀ later, (protocolStep env).Reachable state later → later.running = false) ∧
    (∀ server, server ∈ state.grpc ∨ server ∈ state.rest → server.cancellationToken = true →
      state.cancellationToken = true) ∧
    (state.cancellationToken = true → ∃ label ∈ schedule, isTrigger env.config label = true) ∧
    ((protocolStep env).Takes (CompletesTrigger env.config) fresh schedule →
      (protocolStep env).Blocked state .main → ShutDown state) := by
  have hreachable : (protocolStep env).Reachable fresh state := .of_run hrun
  have hcoherent : Coherent env state := .of_reachable hreachable.of_restrict
  have hordered : Ordered state := .of_reachable hreachable
  refine ⟨hordered.tokenFlag, ?_, ?_, exists_trigger_of_token hrun, ?_⟩
  · intro hreturned hrunning later hlater
    exact running_of_reachable (by rw [hreturned]; rfl) hrunning hlater
  · rintro server (hserver | hserver) htoken
    · apply hordered.mainToken
      rcases (hcoherent.grpcToken server hserver).mp htoken with hmain | hmain <;> simp [hmain]
    · apply hordered.mainToken
      simp [(hcoherent.restToken server hserver).mp htoken]
  · intro htakes hblocked
    have htriggered := triggered_of_takes hrun htakes
    have hdone := htriggered.main_done hblocked
    have hstarted : state.start.pastRest = true := by
      rcases hcoherent.main.mp htriggered.1 with hstart | hstart <;> rw [hstart] <;> rfl
    obtain ⟨grpc, rest, hgrpc, hrest⟩ := hcoherent.exists_servers hstarted
    exact {
      running := hordered.mainFlag (by simp [hdone])
      cancellationToken := hordered.mainToken (by simp [hdone])
      grpc := ⟨grpc, hgrpc, (hcoherent.grpcToken grpc hgrpc).mpr (.inr hdone)⟩
      rest := ⟨rest, hrest, (hcoherent.restToken rest hrest).mpr hdone⟩ }

/-- A call of `shutdown`, the drop of the handle and a signal each stop a default application. -/
theorem shutdown_protocol_of_trigger :
    let env : Env := { config := {}, bind := fun _ ↦ .bound }
    (∃ state, (protocolStep env).run fresh (List.replicate 6 .start ++
      [.main, .shutdown, .shutdown, .shutdown] ++ List.replicate 5 .main) = some state ∧
        ShutDown state) ∧
    (∃ state, (protocolStep env).run fresh (List.replicate 6 .start ++
      [.main, .dropHandle] ++ List.replicate 5 .main) = some state ∧ ShutDown state) ∧
    ∃ state, (protocolStep env).run fresh (List.replicate 6 .start ++
      [.main, .signal] ++ List.replicate 5 .main) = some state ∧ ShutDown state := by
  intro env
  -- The state in which the main task waits, and the one in which it is done.
  let waiting : State := {
    running := true
    start := .returned
    grpc := some ⟨.grpc, ⟨.v4 [127, 0, 0, 1], 50051⟩, false, .held, .spawned, []⟩
    rest := some ⟨.rest, ⟨.v4 [127, 0, 0, 1], 3000⟩, false, .held, .spawned, []⟩
    main := .waiting
    handle := .idle }
  let stopped : State := {
    cancellationToken := true
    start := .returned
    grpc := some ⟨.grpc, ⟨.v4 [127, 0, 0, 1], 50051⟩, true, .held, .spawned, []⟩
    rest := some ⟨.rest, ⟨.v4 [127, 0, 0, 1], 3000⟩, true, .held, .spawned, []⟩
    main := .done
    handle := .idle }
  refine ⟨?_, ?_, ?_⟩
  · have hrun : (protocolStep env).run fresh (List.replicate 6 .start ++
        [.main, .shutdown, .shutdown, .shutdown] ++ List.replicate 5 .main) =
          some { stopped with shutdownTx := .sent } := by
      decide +kernel
    exact ⟨_, hrun, (shutdown_protocol hrun).2.2.2.2
      ⟨List.replicate 6 .start ++ [.main, .shutdown, .shutdown], .shutdown, { waiting with
        running := false, cancellationToken := true, handle := .tokenCancelled },
        by decide, by decide +kernel, rfl⟩ rfl⟩
  · have hrun : (protocolStep env).run fresh (List.replicate 6 .start ++
        [.main, .dropHandle] ++ List.replicate 5 .main) =
          some { stopped with shutdownTx := .dropped, handle := .dropped } := by
      decide +kernel
    exact ⟨_, hrun, (shutdown_protocol hrun).2.2.2.2
      ⟨List.replicate 6 .start ++ [.main], .dropHandle, waiting, by decide, by decide +kernel,
        trivial⟩ rfl⟩
  · have hrun : (protocolStep env).run fresh (List.replicate 6 .start ++
        [.main, .signal] ++ List.replicate 5 .main) = some { stopped with signalled := true } := by
      decide +kernel
    exact ⟨_, hrun, (shutdown_protocol hrun).2.2.2.2
      ⟨List.replicate 6 .start ++ [.main], .signal, waiting, by decide, by decide +kernel,
        rfl, nofun, nofun⟩ rfl⟩

end Protocol

end Filestore.App
