import Mathlib.Data.List.Forall2

/-!
# Joining a list of tasks

A task has an output once it has ended, and never changes it.  A join of several tasks is polled;
each poll takes the outputs that are there, and the join is ready with all outputs in order when
none is missing.  However the polls fall between the ends of the tasks, the outputs taken by the
last poll are the outputs that the tasks have at that time.
-/

namespace Filestore.Transition.JoinAll

variable {Output : Type*}

/-- The tasks of `earlier` are running, or have the output that they have in `later`. -/
def Progress (earlier later : List (Option Output)) : Prop :=
  List.Forall₂ (fun before after ↦ before = none ∨ before = after) earlier later

/-- One poll: outputs that were taken are kept, and those that are there by now are taken. -/
def poll (taken tasks : List (Option Output)) : List (Option Output) :=
  List.zipWith Option.or taken tasks

/-- All outputs in order, if none is missing. -/
def outputs : List (Option Output) → Option (List Output)
  | [] => some []
  | task :: tasks => task.bind fun output ↦ (outputs tasks).map (output :: ·)

theorem Progress.refl (tasks : List (Option Output)) : Progress tasks tasks :=
  List.forall₂_same.mpr fun _ _ ↦ .inr rfl

theorem Progress.trans {first second third : List (Option Output)}
    (hfirst : Progress first second) (hsecond : Progress second third) : Progress first third := by
  induction hfirst generalizing third with
  | nil => exact hsecond
  | cons hhead _ ih =>
    obtain ⟨_, _, hhead', htail', rfl⟩ := List.forall₂_cons_left_iff.mp hsecond
    refine .cons ?_ (ih htail')
    rcases hhead with rfl | rfl
    · exact .inl rfl
    · exact hhead'

theorem Progress.append {earlier later earlier' later' : List (Option Output)}
    (hfirst : Progress earlier later) (hsecond : Progress earlier' later') :
    Progress (earlier ++ earlier') (later ++ later') :=
  List.rel_append hfirst hsecond

/-- Tasks that have all ended make no more progress. -/
theorem Progress.eq_of_isSome {earlier later : List (Option Output)} (h : Progress earlier later)
    (hended : ∀ task ∈ earlier, task.isSome = true) : earlier = later := by
  induction h with
  | nil => rfl
  | cons hhead _ ih =>
    obtain ⟨hsome, hrest⟩ := List.forall_mem_cons.mp hended
    rcases hhead with rfl | rfl
    · cases hsome
    · rw [ih hrest]

/-- Before the first poll, no output has been taken. -/
theorem progress_replicate (tasks : List (Option Output)) :
    Progress (List.replicate tasks.length none) tasks := by
  induction tasks with
  | nil => exact .nil
  | cons task tasks ih => exact .cons (.inl rfl) ih

/-- The end of one task is progress. -/
theorem progress_set {tasks : List (Option Output)} {index : ℕ}
    (hrunning : tasks[index]? = some none) (output : Output) :
    Progress tasks (tasks.set index (some output)) := by
  induction tasks generalizing index with
  | nil => exact .nil
  | cons task tasks ih =>
    cases index with
    | zero =>
      obtain rfl : task = none := by simpa using hrunning
      exact .cons (.inl rfl) (Progress.refl tasks)
    | succ index => exact .cons (.inr rfl) (ih (by simpa using hrunning))

/-- A poll brings the taken outputs up to date. -/
theorem Progress.poll_eq {taken tasks : List (Option Output)} (h : Progress taken tasks) :
    poll taken tasks = tasks := by
  induction h with
  | nil => rfl
  | cons hhead _ ih =>
    rw [poll, List.zipWith_cons_cons, ← poll, ih]
    rcases hhead with rfl | rfl
    · rw [Option.none_or]
    · rw [Option.or_self]

/-- The join is ready exactly when no task runs any more. -/
theorem outputs_isSome_iff {tasks : List (Option Output)} :
    (outputs tasks).isSome = true ↔ ∀ task ∈ tasks, task.isSome = true := by
  induction tasks with
  | nil => simp [outputs]
  | cons task tasks ih =>
    rw [List.forall_mem_cons, ← ih]
    cases task <;> simp [outputs]

end Filestore.Transition.JoinAll
