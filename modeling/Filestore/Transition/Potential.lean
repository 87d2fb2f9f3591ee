import Filestore.Transition.Schedule

/-!
# Potentials along a schedule

A potential is a number that every step changes by at most, or by exactly, what its label says.
Along a schedule the changes add up: this bounds the number of steps that use up some of it, and
balances what the labels put in against what they take out.  A record to which every step
appends what it emits is at the end the output of the whole schedule.
-/

namespace Filestore.Transition.Step

variable {State Label : Type*} {step : Step State Label} {initial final : State}

/-- If, under an invariant, no step adds to the potential and one that `takes` uses up some of it,
then the potential bounds how many of these there are. -/
theorem add_countP_le_of_invariant {potential : State → ℕ} {takes : Label → Bool}
    (Invariant : State → Prop)
    (hkeep : ∀ state label next, Invariant state → step state label = some next → Invariant next)
    (hmove : ∀ state label next, Invariant state → step state label = some next →
      potential next + (if takes label then 1 else 0) ≤ potential state)
    (hinitial : Invariant initial)
    {schedule : List Label} (hrun : step.run initial schedule = some final) :
    potential final + schedule.countP takes ≤ potential initial := by
  induction schedule generalizing initial with
  | nil =>
    obtain rfl : initial = final := by simpa using hrun
    rfl
  | cons label schedule ih =>
    obtain ⟨next, hstep, hrest⟩ := Option.bind_eq_some_iff.mp hrun
    have hhead := hmove initial label next hinitial hstep
    have htail := ih (hkeep initial label next hinitial hstep) hrest
    rw [List.countP_cons]
    omega

/-- If, under an invariant, the steps that `take` and those that `give` change the potential by
exactly one, then they balance. -/
theorem add_countP_eq_of_invariant {potential : State → ℕ} {takes gives : Label → Bool}
    (Invariant : State → Prop)
    (hkeep : ∀ state label next, Invariant state → step state label = some next → Invariant next)
    (hmove : ∀ state label next, Invariant state → step state label = some next →
      potential next + (if takes label then 1 else 0) =
        potential state + (if gives label then 1 else 0))
    (hinitial : Invariant initial)
    {schedule : List Label} (hrun : step.run initial schedule = some final) :
    potential final + schedule.countP takes = potential initial + schedule.countP gives := by
  induction schedule generalizing initial with
  | nil =>
    obtain rfl : initial = final := by simpa using hrun
    rfl
  | cons label schedule ih =>
    obtain ⟨next, hstep, hrest⟩ := Option.bind_eq_some_iff.mp hrun
    have hhead := hmove initial label next hinitial hstep
    have htail := ih (hkeep initial label next hinitial hstep) hrest
    rw [List.countP_cons, List.countP_cons]
    omega

/-! ## Outputs -/

variable {α : Type*}

variable (step) in
/-- What the steps of a schedule emit, in order. -/
def output (emits : State → Label → List α) : State → List Label → List α
  | _, [] => []
  | state, label :: schedule =>
    emits state label ++ ((step state label).map fun next ↦ output emits next schedule).getD []

end Filestore.Transition.Step
