import Mathlib.Algebra.BigOperators.Group.List.Basic
import Mathlib.Algebra.Ring.Nat

/-!
# The open connections of a server

Each connection that a server has accepted is served by a task of its own, on which requests begin
and end until it is closed.  When they do is up to the clients and the handlers: a client can be
slow, send half a head, go away or keep a stream open for ever, and a handler can panic.
-/

namespace Filestore.Server

/-- What happens on a connection; a request begins with the first bytes of its head. -/
inductive ConnectionEvent where
  | accept
  | respond
  /-- A request ends without an answer: its client is gone, or its handler has panicked. -/
  | abort
  | close
  deriving DecidableEq

/-- The event ends a request. -/
def ConnectionEvent.endsRequest : ConnectionEvent → Bool
  | .respond | .abort => true
  | .accept | .close => false

/-- The open connections, each with the number of its requests in flight. -/
abbrev Connections := List ℕ

namespace Connections

/-- An event on one of the open connections, which is closed only without requests. -/
def step (connections : Connections) (index : ℕ) (event : ConnectionEvent) : Option Connections :=
  match event, connections[index]? with
  | .accept, some requests => some (connections.set index (requests + 1))
  | .respond, some (requests + 1) | .abort, some (requests + 1) =>
    some (connections.set index requests)
  | .close, some 0 => some (connections.eraseIdx index)
  | _, _ => none

variable {connections next : Connections} {index : ℕ} {event : ConnectionEvent}

/-- Everything that an event can do. -/
theorem step_cases (hstep : connections.step index event = some next) :
    ∃ hindex : index < connections.length,
      (event = .accept ∧ next = connections.set index (connections[index] + 1)) ∨
      (event.endsRequest = true ∧ 0 < connections[index] ∧
        next = connections.set index (connections[index] - 1)) ∨
      (event = .close ∧ connections[index] = 0 ∧ next = connections.eraseIdx index) := by
  cases hget : connections[index]? with
  | none => cases event <;> simp [step, hget] at hstep
  | some requests =>
    obtain ⟨hindex, rfl⟩ := List.getElem?_eq_some_iff.mp hget
    refine ⟨hindex, ?_⟩
    cases event <;> cases hrequests : connections[index] <;>
      simp_all [step, ConnectionEvent.endsRequest]

theorem sum_set (hindex : index < connections.length) (requests : ℕ) :
    (connections.set index requests).sum + connections[index] = connections.sum + requests := by
  have hset : index < (connections.set index requests).length := by rwa [List.length_set]
  have hafter := List.CommMonoid.add_sum_eraseIdx hset
  rw [List.getElem_set_self, List.eraseIdx_set_eq] at hafter
  have hbefore := List.CommMonoid.add_sum_eraseIdx hindex
  omega

/-- An event accounts for the requests in flight. -/
theorem step_sum (hstep : connections.step index event = some next) :
    next.sum + (if event.endsRequest then 1 else 0) =
      connections.sum + (if event = .accept then 1 else 0) := by
  obtain ⟨hindex, hcases⟩ := step_cases hstep
  rcases hcases with ⟨rfl, rfl⟩ | ⟨hends, hrequests, rfl⟩ | ⟨rfl, hnone, rfl⟩
  · have hset := sum_set hindex (connections[index] + 1)
    simp only [ConnectionEvent.endsRequest, Bool.false_eq_true, if_false, if_true]
    omega
  · have hset := sum_set hindex (connections[index] - 1)
    have haccept : event ≠ .accept := by
      rintro rfl
      cases hends
    rw [hends, if_pos rfl, if_neg haccept]
    omega
  · have herase := List.CommMonoid.add_sum_eraseIdx hindex
    simp only [ConnectionEvent.endsRequest, reduceCtorEq, Bool.false_eq_true, if_false]
    omega

/-- Only a close changes how many connections there are. -/
theorem step_length (hstep : connections.step index event = some next) :
    next.length + (if event = .close then 1 else 0) = connections.length := by
  obtain ⟨hindex, ⟨rfl, rfl⟩ | ⟨hends, -, rfl⟩ | ⟨rfl, -, rfl⟩⟩ := step_cases hstep
  · simp
  · have hclose : event ≠ .close := by
      rintro rfl
      cases hends
    rw [if_neg hclose, List.length_set]
    rfl
  · rw [if_pos rfl, List.length_eraseIdx_of_lt hindex]
    omega

/-- As long as a connection is open, it could be closed or a request on it could end. -/
theorem exists_step (hopen : connections ≠ []) :
    ∃ event, event ≠ .accept ∧ ∃ next, connections.step 0 event = some next := by
  obtain ⟨requests, others, rfl⟩ := List.exists_cons_of_ne_nil hopen
  cases requests with
  | zero => exact ⟨.close, nofun, _, rfl⟩
  | succ requests => exact ⟨.respond, nofun, _, rfl⟩

/-- A request that ends is answered or aborted. -/
theorem countP_endsRequest {Label : Type} (eventOf : Label → Option ConnectionEvent)
    (schedule : List Label) :
    schedule.countP (fun label ↦ (eventOf label).any ConnectionEvent.endsRequest) =
      schedule.countP (eventOf · = some .respond) + schedule.countP (eventOf · = some .abort) := by
  induction schedule with
  | nil => rfl
  | cons label schedule ih =>
    rw [List.countP_cons, List.countP_cons, List.countP_cons, ih]
    cases hevent : eventOf label with
    | none => simp
    | some event => cases event <;> simp [ConnectionEvent.endsRequest] <;> omega

theorem step_nil (index : ℕ) (event : ConnectionEvent) :
    Connections.step [] index event = none := by
  cases event <;> rfl

end Connections

end Filestore.Server
