import Mathlib.Data.List.Infix

/-!
# Schedules of a labelled transition function

A system of concurrent parties is a partial function `step state label`, where the label names
the party that moves and `none` says that this move is not enabled.  A schedule is a list of
labels, so every interleaving of the parties is one schedule.  This file supplies the states a
schedule visits, invariants of the reachable states, restriction to a set of labels, and the rule
that turns a one-step equivalence into an equivalence about whole schedules.

Nothing here depends on what the parties do.
-/

namespace Filestore.Transition

variable {State Label : Type*}

/-- A labelled transition function; `none` means that the label is not enabled. -/
abbrev Step (State Label : Type*) := State → Label → Option State

namespace Step

variable (step : Step State Label)

/-- Execute a schedule to its end; `none` if one of its labels is not enabled when it is due. -/
def run : State → List Label → Option State
  | state, [] => some state
  | state, label :: schedule => (step state label).bind fun next ↦ run next schedule

@[simp]
theorem run_nil (state : State) : step.run state [] = some state := rfl

@[simp]
theorem run_cons (state : State) (label : Label) (schedule : List Label) :
    step.run state (label :: schedule) =
      (step state label).bind fun next ↦ step.run next schedule := rfl

theorem run_append (state : State) (first second : List Label) :
    step.run state (first ++ second) =
      (step.run state first).bind fun middle ↦ step.run middle second := by
  induction first generalizing state with
  | nil => rfl
  | cons label first ih =>
    simp only [List.cons_append, run_cons, Option.bind_assoc]
    exact congrArg _ (funext ih)

/-- The label is not enabled in the state. -/
def Blocked (state : State) (label : Label) : Prop := step state label = none

instance (state : State) (label : Label) : Decidable (step.Blocked state label) :=
  decidable_of_iff ((step state label).isNone = true) Option.isNone_iff_eq_none

/-- Only the labels that satisfy `allowed` may be scheduled. -/
def restrict (allowed : Label → Bool) : Step State Label :=
  fun state label ↦ if allowed label then step state label else none

@[simp]
theorem restrict_eq_some {allowed : Label → Bool} {state next : State} {label : Label} :
    step.restrict allowed state label = some next ↔
      allowed label = true ∧ step state label = some next := by
  simp [restrict]

/-- A schedule of allowed labels runs as it does without the restriction. -/
theorem run_restrict {allowed : Label → Bool} {schedule : List Label}
    (hallowed : ∀ label ∈ schedule, allowed label = true) (state : State) :
    (step.restrict allowed).run state schedule = step.run state schedule := by
  induction schedule generalizing state with
  | nil => rfl
  | cons label schedule ih =>
    obtain ⟨hlabel, hschedule⟩ := List.forall_mem_cons.mp hallowed
    rw [run_cons, run_cons, restrict, if_pos hlabel]
    exact congrArg _ (funext (ih hschedule))

/-! ## Reachable states -/

/-- The states that some schedule reaches. -/
inductive Reachable (initial : State) : State → Prop
  | start : Reachable initial initial
  | move {state next : State} (label : Label) :
      Reachable initial state → step state label = some next → Reachable initial next

variable {step} {initial : State}

/-- An invariant that holds at the start and survives every step holds in every reachable state. -/
theorem Reachable.invariant (Invariant : State → Prop) (hstart : Invariant initial)
    (hmove : ∀ state label next, Invariant state → step state label = some next → Invariant next)
    {state : State} (hreachable : step.Reachable initial state) : Invariant state := by
  induction hreachable with
  | start => exact hstart
  | move label _ hstep ih => exact hmove _ label _ ih hstep

/-- What the allowed labels reach, all labels reach. -/
theorem Reachable.of_restrict {allowed : Label → Bool} {state : State}
    (hreachable : (step.restrict allowed).Reachable initial state) :
    step.Reachable initial state := by
  induction hreachable with
  | start => exact .start
  | move label _ hstep ih => exact ih.move label ((restrict_eq_some _).mp hstep).2

theorem Reachable.trans {middle state : State} (hfirst : step.Reachable initial middle)
    (hsecond : step.Reachable middle state) : step.Reachable initial state := by
  induction hsecond with
  | start => exact hfirst
  | move label _ hstep ih => exact ih.move label hstep

theorem Reachable.of_run {schedule : List Label} {state : State}
    (hrun : step.run initial schedule = some state) : step.Reachable initial state := by
  induction schedule generalizing initial with
  | nil =>
    obtain rfl : initial = state := by simpa using hrun
    exact .start
  | cons label schedule ih =>
    obtain ⟨next, hstep, hrest⟩ := Option.bind_eq_some_iff.mp hrun
    exact (Reachable.start.move label hstep).trans (ih hrest)

/-- A schedule that breaks an invariant contains a label that can break it. -/
theorem exists_mem_of_run (breaks : Label → Bool) (Invariant : State → Prop)
    (hstart : Invariant initial)
    (hmove : ∀ state label next, Invariant state → breaks label = false →
      step state label = some next → Invariant next)
    {schedule : List Label} {state : State} (hrun : step.run initial schedule = some state)
    (hbroken : ¬ Invariant state) : ∃ label ∈ schedule, breaks label = true := by
  by_contra hnone
  have hallowed : ∀ label ∈ schedule, (!breaks label) = true := by simpa using hnone
  rw [← step.run_restrict hallowed] at hrun
  apply hbroken
  apply (Reachable.of_run hrun).invariant Invariant hstart
  intro state label next hinvariant hstep
  obtain ⟨hlabel, hstep⟩ := step.restrict_eq_some.mp hstep
  exact hmove state label next hinvariant (by simpa using hlabel) hstep

/-! ## Properties of a whole schedule -/

variable (step) in
/-- `Good` holds in every state the schedule visits. -/
def Always (Good : State → Prop) (initial : State) (schedule : List Label) : Prop :=
  ∀ visited state, visited <+: schedule → step.run initial visited = some state → Good state

variable (step) in
/-- Every step the schedule takes satisfies `Allowed`, a condition on the state before it. -/
def Each (Allowed : State → Label → Prop) (initial : State) (schedule : List Label) : Prop :=
  ∀ visited label state next, visited ++ [label] <+: schedule →
    step.run initial visited = some state → step state label = some next → Allowed state label

variable (step) in
/-- The schedule takes a step of a kind that depends on the state before it. -/
def Takes (Kind : State → Label → Prop) (initial : State) (schedule : List Label) : Prop :=
  ∃ visited label state, visited ++ [label] <+: schedule ∧
    step.run initial visited = some state ∧ Kind state label

variable {Good : State → Prop} {Allowed : State → Label → Prop}

theorem Always.head {schedule : List Label} (h : step.Always Good initial schedule) :
    Good initial :=
  h [] initial List.nil_prefix rfl

@[simp]
theorem always_nil : step.Always Good initial [] ↔ Good initial := by
  refine ⟨Always.head, fun hgood visited state hprefix hrun ↦ ?_⟩
  obtain rfl := List.prefix_nil.mp hprefix
  obtain rfl : initial = state := by simpa using hrun
  exact hgood

theorem always_cons {label : Label} {schedule : List Label} :
    step.Always Good initial (label :: schedule) ↔
      Good initial ∧ ∀ next, step initial label = some next → step.Always Good next schedule := by
  constructor
  · refine fun h ↦ ⟨h.head, fun next hstep visited state hprefix hrun ↦ ?_⟩
    exact h (label :: visited) state (List.cons_prefix_cons.mpr ⟨rfl, hprefix⟩)
      (by simp [hstep, hrun])
  · rintro ⟨hgood, hrest⟩ visited state hprefix hrun
    rcases List.prefix_cons_iff.mp hprefix with rfl | ⟨rest, rfl, htail⟩
    · obtain rfl : initial = state := by simpa using hrun
      exact hgood
    · obtain ⟨next, hstep, hrun⟩ := Option.bind_eq_some_iff.mp hrun
      exact hrest next hstep rest state htail hrun

@[simp]
theorem each_nil : step.Each Allowed initial [] := by
  intro visited label state next hprefix
  simp at hprefix

theorem each_cons {label : Label} {schedule : List Label} :
    step.Each Allowed initial (label :: schedule) ↔
      ∀ next, step initial label = some next →
        Allowed initial label ∧ step.Each Allowed next schedule := by
  constructor
  · refine fun h next hstep ↦ ⟨h [] label initial next (by simp) rfl hstep, ?_⟩
    intro visited last state final hprefix hrun hlast
    exact h (label :: visited) last state final (List.cons_prefix_cons.mpr ⟨rfl, hprefix⟩)
      (by simp [hstep, hrun]) hlast
  · intro h visited last state final hprefix hrun hlast
    cases visited with
    | nil =>
      obtain rfl : last = label := by simpa using hprefix
      obtain rfl : initial = state := by simpa using hrun
      exact (h final hlast).1
    | cons first visited =>
      obtain ⟨rfl, htail⟩ := List.cons_prefix_cons.mp hprefix
      obtain ⟨next, hstep, hrun⟩ := Option.bind_eq_some_iff.mp hrun
      exact (h next hstep).2 visited last state final htail hrun hlast

/-- If, where `Good` holds, an invariant survives and allows every step, then a schedule that stays
in `Good` takes allowed steps only. -/
theorem each_of_always (Invariant : State → Prop)
    (hkeep : ∀ state label next, Good state → Invariant state → step state label = some next →
      Invariant next)
    (hallowed : ∀ state label next, Good state → Invariant state → step state label = some next →
      Allowed state label)
    (hinitial : Invariant initial) {schedule : List Label}
    (halways : step.Always Good initial schedule) : step.Each Allowed initial schedule := by
  induction schedule generalizing initial with
  | nil => exact each_nil
  | cons label schedule ih =>
    obtain ⟨hgood, hrest⟩ := always_cons.mp halways
    refine each_cons.mpr fun next hstep ↦ ⟨hallowed _ _ _ hgood hinitial hstep, ?_⟩
    exact ih (hkeep _ _ _ hgood hinitial hstep) (hrest next hstep)

/-- What a step of some kind brings about, and no step undoes, holds at the end of a schedule that
takes such a step. -/
theorem Takes.holds {Kind : State → Label → Prop} (Invariant : State → Prop) {final : State}
    (hinvariant : ∀ state label next, Invariant state → step state label = some next →
      Invariant next)
    (heffect : ∀ state label next, Invariant state → Kind state label →
      step state label = some next → Good next)
    (hpersistent : ∀ state label next, Invariant state → Good state →
      step state label = some next → Good next)
    (hinitial : Invariant initial) {schedule : List Label}
    (htakes : step.Takes Kind initial schedule) (hrun : step.run initial schedule = some final) :
    Good final := by
  obtain ⟨visited, label, state, ⟨rest, rfl⟩, hvisited, hkind⟩ := htakes
  rw [List.append_assoc, run_append, hvisited, Option.bind_some] at hrun
  obtain ⟨next, hstep, hrest⟩ := Option.bind_eq_some_iff.mp hrun
  have hstate : Invariant state :=
    (Reachable.of_run hvisited).invariant Invariant hinitial hinvariant
  have hboth : Invariant final ∧ Good final := by
    apply (Reachable.of_run hrest).invariant fun state ↦ Invariant state ∧ Good state
    · exact ⟨hinvariant _ _ _ hstate hstep, heffect _ _ _ hstate hkind hstep⟩
    · exact fun _ _ _ h hstep ↦ ⟨hinvariant _ _ _ h.1 hstep, hpersistent _ _ _ h.1 h.2 hstep⟩
  exact hboth.2

/-- If, under an invariant, one step keeps `Good` exactly when it is `Allowed`, then a schedule
stays in `Good` exactly when all of its steps are `Allowed`. -/
theorem always_iff_each {Invariant : State → Prop}
    (hinvariant : ∀ state label next, Invariant state → step state label = some next →
      Invariant next)
    (hexact : ∀ state label next, Invariant state → Good state → step state label = some next →
      (Good next ↔ Allowed state label))
    (hinitial : Invariant initial) (hgood : Good initial) (schedule : List Label) :
    step.Always Good initial schedule ↔ step.Each Allowed initial schedule := by
  induction schedule generalizing initial with
  | nil => simp [hgood]
  | cons label schedule ih =>
    rw [always_cons, each_cons]
    constructor
    · rintro ⟨-, hrest⟩ next hstep
      have hnext := (hrest next hstep).head
      exact ⟨(hexact _ _ _ hinitial hgood hstep).mp hnext,
        (ih (hinvariant _ _ _ hinitial hstep) hnext).mp (hrest next hstep)⟩
    · intro h
      refine ⟨hgood, fun next hstep ↦ ?_⟩
      obtain ⟨hallowed, hrest⟩ := h next hstep
      exact (ih (hinvariant _ _ _ hinitial hstep)
        ((hexact _ _ _ hinitial hgood hstep).mpr hallowed)).mpr hrest

end Step

end Filestore.Transition
