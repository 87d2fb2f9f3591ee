import Filestore.Telemetry.InitLogging

/-!
# The panic hook

`set_panic_hook` takes the hook that is there and sets one that logs a panic as an error, counts it
and calls the taken one.  Between taking and setting other threads may do the same, or panic.  The
hook runs for every panic of the process, also for those of the logging that it logs to, whose
writers may lose what it logs.
-/

namespace Filestore.Telemetry

open Transition

/-! ## Hooks -/

structure PanicLocation where
  file : String
  line : UInt32
  column : UInt32
  deriving DecidableEq

/-- What a hook is told about a panic, with its display text and the backtrace of its thread. -/
structure PanicHookInfo where
  text : String
  location : Option PanicLocation
  backtrace : String
  deriving DecidableEq

/-- The event that the hook of `set_panic_hook` logs. -/
def PanicHookInfo.record (panic : PanicHookInfo) : Record where
  level := .error
  target := "rsketch_common::telemetry::panic_hook"
  message := panic.text
  fields := ("backtrace", panic.backtrace) ::
    match panic.location with
    | some location =>
      [("panic.file", location.file), ("panic.line", toString location.line),
        ("panic.column", toString location.column)]
    | none => []

/-- The hook of the standard library, or one of `set_panic_hook` with the hook that it has taken. -/
inductive PanicHook where
  | standard
  | logging (defaultHook : PanicHook)
  deriving DecidableEq

/-- How often a hook logs and counts a panic. -/
def PanicHook.depth : PanicHook → ℕ
  | .standard => 0
  | .logging defaultHook => defaultHook.depth + 1

/-- What a hook logs about a panic, by the writers that lose the event of each depth. -/
def PanicHook.events (panic : PanicHookInfo) (lost : ℕ → WorkerGuard → Bool) :
    PanicHook → List Event
  | .standard => []
  | .logging defaultHook =>
    ⟨panic.record, lost defaultHook.depth⟩ :: defaultHook.events panic lost

/-- A hook logs a panic as often as it counts it. -/
theorem PanicHook.map_record_events (panic : PanicHookInfo) (lost : ℕ → WorkerGuard → Bool)
    (hook : PanicHook) :
    (hook.events panic lost).map Event.record = List.replicate hook.depth panic.record := by
  induction hook with
  | standard => rfl
  | logging defaultHook ih => rw [events, List.map_cons, ih, depth, List.replicate_succ]

/-- The logging of the process and its panic hook. -/
structure PanicState (Targets : Type) where
  logging : LoggingState Targets := {}
  hook : PanicHook := .standard
  /-- The hooks that calls of `set_panic_hook` have taken and not set again. -/
  taken : List PanicHook := []
  /-- The counter `rsketch_panic_counter`. -/
  panicCounter : UInt64 := 0
  /-- What the standard hook has printed. -/
  printed : List PanicHookInfo := []

namespace PanicState

variable {Targets : Type} (filter : TargetFilter Targets)

/-- Run a hook. -/
def call (panic : PanicHookInfo) (lost : ℕ → WorkerGuard → Bool) :
    PanicHook → PanicState Targets → PanicState Targets
  | .standard, state => { state with printed := state.printed ++ [panic] }
  | .logging defaultHook, state =>
    call panic lost defaultHook { state with
      logging := state.logging.log filter ⟨panic.record, lost defaultHook.depth⟩
      panicCounter := state.panicCounter + 1 }

/-- A panic of some thread runs the hook that is set. -/
def panic (info : PanicHookInfo) (lost : ℕ → WorkerGuard → Bool) (state : PanicState Targets) :
    PanicState Targets :=
  state.call filter info lost state.hook

inductive Label (Targets : Type) where
  /-- A call or a record of the logging. -/
  | logging (label : LoggingState.Label Targets)
  /-- The two steps of `set_panic_hook`; the second one is that of the call at an index. -/
  | takeHook
  | setHook (call : ℕ)
  | panic (info : PanicHookInfo) (lost : ℕ → WorkerGuard → Bool)

/-- The panics of the logging that one of its steps adds. -/
def newPanics (state next : LoggingState Targets) : List InitPanic :=
  next.panics.drop state.panics.length

variable (describe : InitPanic → PanicHookInfo)

def step : Step (PanicState Targets) (Label Targets) := fun state label ↦
  match label with
  | .logging label => (LoggingState.step filter state.logging label).map fun next ↦
    -- The logging that has just panicked has no writer that could lose the event.
    ((newPanics state.logging next).map describe).foldl
      (fun state info ↦ state.panic filter info fun _ _ ↦ false) { state with logging := next }
  | .takeHook => some { state with hook := .standard, taken := state.taken ++ [state.hook] }
  | .setHook call =>
    match state.taken[call]? with
    | none => none
    | some defaultHook => some { state with
        hook := .logging defaultHook, taken := state.taken.eraseIdx call }
  | .panic info lost => some (state.panic filter info lost)

/-- The panics that a step raises. -/
def raised (state : PanicState Targets) : Label Targets → List PanicHookInfo
  | .logging label =>
    ((LoggingState.step filter state.logging label).map fun next ↦
      (newPanics state.logging next).map describe).getD []
  | .panic info _ => [info]
  | .takeHook | .setHook _ => []

/-- What a step counts: each of its panics once for each hook. -/
def counted (state : PanicState Targets) (label : Label Targets) : List PanicHookInfo :=
  (state.raised filter describe label).flatMap fun panic ↦ List.replicate state.hook.depth panic

end PanicState

/-! ## Whole runs -/

namespace PanicState

variable {Targets : Type} {filter : TargetFilter Targets} {describe : InitPanic → PanicHookInfo}
  {state next : PanicState Targets} {label : Label Targets}

/-- What a step adds to the text of a writer: what the logging does, or what reaches the writer of
the events of the hooks.  Those of the logging's own panics find no subscriber. -/
def delivered (filter : TargetFilter Targets) (writer : WorkerGuard) (state : PanicState Targets) :
    Label Targets → List Record
  | .logging label => state.logging.delivered filter writer label
  | .panic info lost =>
    ((state.hook.events info lost).filter fun event ↦
      state.logging.reaches filter event writer).map Event.record
  | .takeHook | .setHook _ => []

/-- Running a hook does not change the hooks. -/
theorem call_frame (filter : TargetFilter Targets) (info : PanicHookInfo)
    (lost : ℕ → WorkerGuard → Bool) (hook : PanicHook) (state : PanicState Targets) :
    (state.call filter info lost hook).hook = state.hook ∧
      (state.call filter info lost hook).taken = state.taken := by
  induction hook generalizing state with
  | standard => exact ⟨rfl, rfl⟩
  | logging defaultHook ih => exact ih _

theorem foldl_panic_frame (infos : List PanicHookInfo) (state : PanicState Targets) :
    let next := infos.foldl (fun state info ↦ state.panic filter info fun _ _ ↦ false) state
    next.hook = state.hook ∧ next.taken = state.taken := by
  induction infos generalizing state with
  | nil => exact ⟨rfl, rfl⟩
  | cons info infos ih =>
    have hcall := call_frame filter info (fun _ _ ↦ false) state.hook state
    exact ⟨(ih _).1.trans hcall.1, (ih _).2.trans hcall.2⟩

/-- What the hooks do with one panic: each counts and logs it, and the last one prints it. -/
structure Called (filter : TargetFilter Targets) (info : PanicHookInfo)
    (lost : ℕ → WorkerGuard → Bool) (hook : PanicHook) (state next : PanicState Targets) :
    Prop where
  panicCounter : next.panicCounter = state.panicCounter + .ofNat hook.depth
  printed : next.printed = state.printed ++ [info]
  logging : ∃ written, next.logging = { state.logging with written }
  written : ∀ writer, next.logging.written writer = state.logging.written writer ++
    ((hook.events info lost).filter fun event ↦ state.logging.reaches filter event writer).map
      Event.record

/-- The logging of the state is in order. -/
def Sound (state : PanicState Targets) : Prop :=
  state.logging.Consistent [] ∧ state.logging.Routed

theorem Sound.log (h : Sound state) (filter : TargetFilter Targets) (event : Event) :
    Sound { state with logging := state.logging.log filter event } :=
  ⟨h.1.log filter event, h.2.log h.1 event⟩

theorem Sound.call (h : Sound state) (filter : TargetFilter Targets) (info : PanicHookInfo)
    (lost : ℕ → WorkerGuard → Bool) (hook : PanicHook) :
    Called filter info lost hook state (state.call filter info lost hook) ∧
      Sound (state.call filter info lost hook) := by
  induction hook generalizing state with
  | standard =>
    refine ⟨?_, h⟩
    exact {
      panicCounter := (UInt64.add_zero _).symm
      printed := rfl
      logging := ⟨_, rfl⟩
      written := fun _ ↦ (List.append_nil _).symm }
  | logging defaultHook ih =>
    let event : Event := ⟨info.record, lost defaultHook.depth⟩
    have hlogged : Sound { state with
        logging := state.logging.log filter event
        panicCounter := state.panicCounter + 1 } := h.log filter event
    obtain ⟨hcalled, hsound⟩ := ih hlogged
    refine ⟨?_, hsound⟩
    exact {
      panicCounter := by
        calc
          _ = state.panicCounter + 1 + .ofNat defaultHook.depth := hcalled.panicCounter
          _ = state.panicCounter + (.ofNat defaultHook.depth + 1) := by
            rw [UInt64.add_assoc, UInt64.add_comm 1]
          _ = state.panicCounter + .ofNat (defaultHook.depth + 1) := by
            rw [UInt64.ofNat_add]
            rfl
      printed := hcalled.printed
      logging := by
        obtain ⟨written, hlog⟩ := LoggingState.exists_log filter event state.logging
        obtain ⟨written', hcall⟩ := hcalled.logging
        exact ⟨written', by rw [PanicState.call, hcall, hlog]⟩
      written := by
        intro writer
        have hrest := hcalled.written writer
        simp only [LoggingState.reaches_log, h.2.written_log h.1] at hrest
        rw [PanicState.call, hrest, PanicHook.events, List.append_assoc]
        congr 1
        cases hreaches : state.logging.reaches filter event writer <;> simp [hreaches, event] }

theorem Sound.panic (h : Sound state) (filter : TargetFilter Targets) (info : PanicHookInfo)
    (lost : ℕ → WorkerGuard → Bool) :
    Called filter info lost state.hook state (state.panic filter info lost) ∧
      Sound (state.panic filter info lost) :=
  h.call filter info lost state.hook

/-- The panics of a step of the logging are counted and printed, but not logged. -/
theorem Sound.foldl_panic (h : Sound state) (hpanics : state.logging.panics ≠ [])
    (infos : List PanicHookInfo) :
    let next := infos.foldl (fun state info ↦ state.panic filter info fun _ _ ↦ false) state
    Sound next ∧ next.printed = state.printed ++ infos ∧
      next.panicCounter = state.panicCounter +
        .ofNat (infos.flatMap fun info ↦ List.replicate state.hook.depth info).length ∧
      next.logging.written = state.logging.written := by
  induction infos generalizing state with
  | nil => exact ⟨h, (List.append_nil _).symm, (UInt64.add_zero _).symm, rfl⟩
  | cons info infos ih =>
    obtain ⟨hcalled, hsound⟩ := h.panic filter info fun _ _ ↦ false
    obtain ⟨written, hlogging⟩ := hcalled.logging
    have hrest := ih hsound (by rw [hlogging]; exact hpanics)
    obtain ⟨hsound', hprinted, hcounter, hwritten⟩ := hrest
    refine ⟨hsound', ?_, ?_, ?_⟩
    · rw [List.foldl_cons, hprinted, hcalled.printed, List.append_assoc]
      rfl
    · have hhook : (state.panic filter info fun _ _ ↦ false).hook = state.hook :=
        (call_frame filter info _ state.hook state).1
      rw [List.foldl_cons, hcounter, hcalled.panicCounter, hhook, List.flatMap_cons,
        List.length_append, List.length_replicate, UInt64.ofNat_add, UInt64.add_assoc]
    · rw [List.foldl_cons, hwritten]
      funext writer
      rw [hcalled.written, List.filter_eq_nil_iff.mpr, List.map_nil, List.append_nil]
      intro event _
      rw [LoggingState.reaches_of_layers (h.1.layers_of_panics hpanics)]
      exact Bool.false_ne_true

/-- What a step does: it keeps the logging in order, prints and counts its panics, and adds to the
text of a writer what it delivers there. -/
theorem Sound.step (h : Sound state)
    (hstep : PanicState.step filter describe state label = some next) :
    Sound next ∧ next.printed = state.printed ++ state.raised filter describe label ∧
      next.panicCounter =
        state.panicCounter + .ofNat (state.counted filter describe label).length ∧
      ∀ writer, next.logging.written writer =
        state.logging.written writer ++ delivered filter writer state label := by
  cases label with
  | logging label =>
    obtain ⟨logging, hlogging, rfl⟩ := Option.map_eq_some_iff.mp hstep
    obtain ⟨hrouted, hwritten⟩ := h.2.step h.1 hlogging
    have hsound : Sound { state with logging } := ⟨h.1.step hlogging, hrouted⟩
    have hraised : state.raised filter describe (.logging label) =
        (newPanics state.logging logging).map describe := by
      rw [raised, hlogging, Option.map_some, Option.getD_some]
    rw [counted, hraised]
    by_cases hpanics : logging.panics = []
    · have hnone : newPanics state.logging logging = [] := by
        rw [newPanics, hpanics, List.drop_nil]
      rw [hnone]
      exact ⟨hsound, (List.append_nil _).symm, (UInt64.add_zero _).symm, hwritten⟩
    · obtain ⟨hsound, hprinted, hcounter, hsilent⟩ :=
        hsound.foldl_panic hpanics ((newPanics state.logging logging).map describe)
      exact ⟨hsound, hprinted, hcounter,
        fun writer ↦ (congrFun hsilent writer).trans (hwritten writer)⟩
  | takeHook =>
    obtain rfl := Option.some.inj hstep
    exact ⟨h, (List.append_nil _).symm, (UInt64.add_zero _).symm, fun _ ↦ (List.append_nil _).symm⟩
  | setHook call =>
    unfold PanicState.step at hstep
    dsimp only at hstep
    split at hstep
    · cases hstep
    · obtain rfl := Option.some.inj hstep
      exact ⟨h, (List.append_nil _).symm, (UInt64.add_zero _).symm,
        fun _ ↦ (List.append_nil _).symm⟩
  | panic info lost =>
    obtain rfl := Option.some.inj hstep
    obtain ⟨hcalled, hsound⟩ := h.panic filter info lost
    refine ⟨hsound, hcalled.printed, ?_, hcalled.written⟩
    rw [hcalled.panicCounter, counted, raised, List.flatMap_singleton, List.length_replicate]

theorem Sound.of_fresh : Sound ({} : PanicState Targets) := ⟨.of_fresh, .of_fresh⟩

theorem sound_of_run {schedule : List (Label Targets)}
    (hrun : (step filter describe).run {} schedule = some state) : Sound state :=
  (Step.Reachable.of_run hrun).invariant Sound .of_fresh fun _ _ _ h hstep ↦ (h.step hstep).1

/-- The depth of all hooks in a list. -/
def totalDepth : List PanicHook → ℕ
  | [] => 0
  | hook :: hooks => hook.depth + totalDepth hooks

theorem totalDepth_append_singleton (hooks : List PanicHook) (hook : PanicHook) :
    totalDepth (hooks ++ [hook]) = totalDepth hooks + hook.depth := by
  induction hooks with
  | nil => exact Nat.add_comm _ _
  | cons other hooks ih => rw [List.cons_append, totalDepth, totalDepth, ih, Nat.add_assoc]

theorem totalDepth_eraseIdx {hooks : List PanicHook} {index : ℕ} {hook : PanicHook}
    (h : hooks[index]? = some hook) :
    totalDepth (hooks.eraseIdx index) + hook.depth = totalDepth hooks := by
  induction hooks generalizing index with
  | nil => cases h
  | cons other hooks ih =>
    cases index with
    | zero =>
      obtain rfl : other = hook := Option.some.inj h
      exact Nat.add_comm _ _
    | succ index =>
      rw [List.eraseIdx_cons_succ, totalDepth, totalDepth, Nat.add_assoc, ih h]

/-- The hooks that are set, and those that are taken to be set again. -/
def hooks (state : PanicState Targets) : ℕ := state.hook.depth + totalDepth state.taken

def Label.isSetHook : Label Targets → Bool
  | .setHook _ => true
  | .logging _ | .takeHook | .panic _ _ => false

/-- What a step does to the hooks. -/
theorem step_cases (hstep : PanicState.step filter describe state label = some next) :
    (label = .takeHook ∧ next.hook = .standard ∧ next.taken = state.taken ++ [state.hook]) ∨
    (∃ call defaultHook, label = .setHook call ∧ state.taken[call]? = some defaultHook ∧
      next.hook = .logging defaultHook ∧ next.taken = state.taken.eraseIdx call) ∨
    (label.isSetHook = false ∧ next.hook = state.hook ∧ next.taken = state.taken) := by
  cases label with
  | logging label =>
    obtain ⟨logging, -, rfl⟩ := Option.map_eq_some_iff.mp hstep
    exact .inr (.inr ⟨rfl, foldl_panic_frame _ _⟩)
  | takeHook =>
    obtain rfl := Option.some.inj hstep
    exact .inl ⟨rfl, rfl, rfl⟩
  | setHook call =>
    unfold PanicState.step at hstep
    dsimp only at hstep
    split at hstep
    · cases hstep
    · rename_i defaultHook htaken
      obtain rfl := Option.some.inj hstep
      exact .inr (.inl ⟨call, defaultHook, rfl, htaken, rfl, rfl⟩)
  | panic info lost =>
    obtain rfl := Option.some.inj hstep
    exact .inr (.inr ⟨rfl, call_frame _ _ _ _ _⟩)

/-- A step leaves the hooks as they are, or it sets one and loses those that it replaces. -/
theorem hooks_step (hstep : PanicState.step filter describe state label = some next) :
    next.hooks + (if label.isSetHook then state.hook.depth else 0) =
      state.hooks + (if label.isSetHook then 1 else 0) := by
  unfold hooks
  rcases step_cases hstep with
    ⟨rfl, hhook, htaken⟩ | ⟨call, defaultHook, rfl, hcall, hhook, htaken⟩ | ⟨hlabel, hhook, htaken⟩
  · rw [hhook, htaken, totalDepth_append_singleton]
    simp only [Label.isSetHook, PanicHook.depth, Bool.false_eq_true, if_false]
    omega
  · have herase := totalDepth_eraseIdx hcall
    rw [hhook, htaken]
    simp only [Label.isSetHook, PanicHook.depth, if_true]
    omega
  · simp only [hhook, htaken, hlabel, Bool.false_eq_true, if_false]

/-- The calls count the hooks exactly if each finds the standard hook when it sets its own. -/
theorem hooks_eq_iff {initial : PanicState Targets} {schedule : List (Label Targets)}
    (hrun : (step filter describe).run initial schedule = some state) :
    state.hooks ≤ initial.hooks + schedule.countP Label.isSetHook ∧
      (state.hooks = initial.hooks + schedule.countP Label.isSetHook ↔
        (step filter describe).Each
          (fun state label ↦ label.isSetHook = true → state.hook = .standard) initial
          schedule) := by
  induction schedule generalizing initial with
  | nil =>
    obtain rfl : initial = state := by simpa using hrun
    simp
  | cons label schedule ih =>
    obtain ⟨next, hstep, hrest⟩ := Option.bind_eq_some_iff.mp hrun
    obtain ⟨hle, hiff⟩ := ih hrest
    have hhooks := hooks_step hstep
    have hstandard : initial.hook = .standard ↔ initial.hook.depth = 0 := by
      cases initial.hook <;> simp [PanicHook.depth]
    have hall : (step filter describe).Each
        (fun state label ↦ label.isSetHook = true → state.hook = .standard) initial
          (label :: schedule) ↔
        (label.isSetHook = true → initial.hook.depth = 0) ∧
          state.hooks = next.hooks + schedule.countP Label.isSetHook := by
      rw [Step.each_cons, hiff, ← hstandard]
      constructor
      · exact fun h ↦ h next hstep
      · intro h other hother
        obtain rfl : next = other := Option.some.inj (hstep.symm.trans hother)
        exact h
    rw [hall, List.countP_cons]
    cases hlabel : label.isSetHook with
    | false =>
      simp only [hlabel, Bool.false_eq_true, if_false, false_implies, true_and] at hhooks ⊢
      omega
    | true =>
      simp only [hlabel, if_true, true_implies] at hhooks ⊢
      omega

/-- Where a call has set its hook, there is one, or the next call has taken it. -/
theorem hooked_of_run {initial : PanicState Targets} {schedule : List (Label Targets)}
    (hrun : (step filter describe).run initial schedule = some state)
    (h : (initial.taken ≠ [] ∨ 0 < initial.hook.depth) ∨ 0 < schedule.countP Label.isSetHook) :
    state.taken ≠ [] ∨ 0 < state.hook.depth := by
  induction schedule generalizing initial with
  | nil =>
    obtain rfl : initial = state := by simpa using hrun
    simpa using h
  | cons label schedule ih =>
    obtain ⟨next, hstep, hrest⟩ := Option.bind_eq_some_iff.mp hrun
    apply ih hrest
    rcases step_cases hstep with
      ⟨rfl, hhook, htaken⟩ | ⟨call, defaultHook, rfl, hcall, hhook, htaken⟩ |
      ⟨hlabel, hhook, htaken⟩
    · exact .inl (.inl (by simp [htaken]))
    · exact .inl (.inr (by simp [hhook, PanicHook.depth]))
    · rw [hhook, htaken]
      rwa [List.countP_cons, hlabel, if_neg Bool.false_ne_true, Nat.add_zero] at h

/-- However calls of `set_panic_hook` overlap, there are never more hooks than calls that have
returned, and as many exactly if no call has set its hook in the place of another one; that is so if
the calls come one at a time.  When one has returned and none is running, there is a hook, and every
panic is counted and logged once for each hook. -/
theorem hooks_survive_iff {schedule : List (Label Targets)}
    (hrun : (step filter describe).run {} schedule = some state) :
    state.hooks ≤ schedule.countP Label.isSetHook ∧
    (state.hooks = schedule.countP Label.isSetHook ↔
      (step filter describe).Each
        (fun state label ↦ label.isSetHook = true → state.hook = .standard) {} schedule) ∧
    ((step filter describe).Always (fun state ↦ state.taken.length ≤ 1) {} schedule →
      state.hooks = schedule.countP Label.isSetHook) ∧
    (0 < schedule.countP Label.isSetHook → state.taken = [] → 0 < state.hook.depth ∧
      ∀ info lost,
        (state.panic filter info lost).panicCounter =
          state.panicCounter + .ofNat state.hook.depth ∧
        (state.hook.events info lost).map Event.record =
          List.replicate state.hook.depth info.record ∧
        ∀ writer, (state.panic filter info lost).logging.written writer =
          state.logging.written writer ++ ((state.hook.events info lost).filter fun event ↦
            state.logging.reaches filter event writer).map Event.record) := by
  have hhooks := hooks_eq_iff hrun
  have hempty : hooks ({} : PanicState Targets) = 0 := rfl
  rw [hempty, Nat.zero_add] at hhooks
  refine ⟨hhooks.1, hhooks.2, fun halone ↦ hhooks.2.mpr ?_, fun hcalls htaken ↦ ?_⟩
  · refine Step.each_of_always (fun state ↦ state.taken ≠ [] → state.hook = .standard) ?_ ?_
      (fun h ↦ absurd rfl h) halone
    · intro state label next hone hstandard hstep hnext
      rcases step_cases hstep with
        ⟨-, hhook, -⟩ | ⟨call, defaultHook, -, hcall, -, htaken⟩ | ⟨-, hhook, htaken⟩
      · exact hhook
      · -- The only call that runs sets its hook, so no other is left.
        rw [htaken, ← List.length_pos_iff, List.length_eraseIdx] at hnext
        have hlt := (List.getElem?_eq_some_iff.mp hcall).1
        rw [if_pos hlt] at hnext
        omega
      · rw [hhook]
        exact hstandard (htaken ▸ hnext)
    · intro state label next hone hstandard hstep hlabel
      rcases step_cases hstep with ⟨rfl, -⟩ | ⟨call, defaultHook, -, hcall, -⟩ | ⟨hother, -⟩
      · cases hlabel
      · exact hstandard (List.ne_nil_of_mem (List.mem_of_getElem? hcall))
      · rw [hother] at hlabel
        cases hlabel
  · refine ⟨(hooked_of_run hrun (.inr hcalls)).resolve_left (not_not.mpr htaken), ?_⟩
    intro info lost
    have hcalled := (Sound.panic (sound_of_run hrun) filter info lost).1
    exact ⟨hcalled.panicCounter, state.hook.map_record_events info lost, hcalled.written⟩

/-- Two calls that overlap leave one hook, which counts the next panic once. -/
theorem overlapping_calls_lose_hook :
    let broken : PanicHookInfo := { text := "broken", location := none, backtrace := "" }
    ∃ state : PanicState Unit, (step LoggingState.infoFilter fun _ ↦ ⟨"", none, ""⟩).run {}
        [.takeHook, .takeHook, .setHook 0, .setHook 0] = some state ∧
      state.hook.depth = 1 ∧ state.hooks ≠ 2 ∧
      (state.panic LoggingState.infoFilter broken fun _ _ ↦ false).panicCounter =
        state.panicCounter + 1 := by
  intro broken
  have hrun : ((step LoggingState.infoFilter fun _ ↦ ⟨"", none, ""⟩).run
      ({} : PanicState Unit) [.takeHook, .takeHook, .setHook 0, .setHook 0]).map
        (fun state ↦ (state.hook, state.taken)) = some (.logging .standard, []) := by
    decide +kernel
  obtain ⟨state, hrun, hstate⟩ := Option.map_eq_some_iff.mp hrun
  obtain ⟨hhook, htaken⟩ := Prod.mk.inj hstate
  have hhooks : state.hooks = 1 := by rw [hooks, hhook, htaken]; rfl
  obtain ⟨-, hpanics⟩ := (hooks_survive_iff hrun).2.2.2 (by decide) htaken
  have hcounted := (hpanics broken fun _ _ ↦ false).1
  rw [hhook] at hcounted
  exact ⟨state, hrun, by rw [hhook]; rfl, by rw [hhooks]; decide, hcounted⟩

end PanicState

end Filestore.Telemetry
