import ClusterAccess.Proofs.Service.Operation

/-!
# Runs of the service

A run is a list of steps on a store: commands of the service in any order, and the two things that
are done to users on the store itself.  `Store.serve` performs a run and writes down its history,
which is each step with the answer it got.

On a store that is available every step is a function on directories (`Store.perform_eq`).  So a
directory that a run arrives at is one that `Reaches` builds up step by step from the empty one,
together with the history; whatever is proved of `Reaches` by induction holds after every run
(`Store.serve_reaches`).
-/

namespace ClusterAccess

/-! ## Steps -/

/-- One thing that is done to a service. -/
inductive Step where
  | command (c : Command)
  | insertUser (new : NewUser)
  | softDelete (id : UserId)

@[reducible] def Step.Answer : Step → Type
  | .command c => c.Answer
  | .insertUser _ => Except StoreError User
  | .softDelete _ => Except StoreError Bool

/-- A step and its answer. -/
structure Entry where
  step : Step
  answer : step.Answer

namespace Store

def perform (store : Store) : (step : Step) → step.Answer × Store
  | .command c => ((store.hold [] c.conversation).value, (store.hold [] c.conversation).state)
  | .insertUser new => store.insertUser new
  | .softDelete id => store.softDelete id

/-- Performs a run.  A step that fails is an entry of the history like any other. -/
def serve (store : Store) : List Step → List Entry × Store
  | [] => ([], store)
  | step :: steps =>
    let (answer, store) := store.perform step
    let (history, store) := store.serve steps
    (⟨step, answer⟩ :: history, store)

theorem serve_cons (store : Store) (step : Step) (steps : List Step) :
    store.serve (step :: steps) =
      (⟨step, (store.perform step).1⟩ :: ((store.perform step).2.serve steps).1,
        ((store.perform step).2.serve steps).2) := rfl

/-- A run can be broken off anywhere and taken up again. -/
theorem serve_append (store : Store) (steps later : List Step) :
    store.serve (steps ++ later) =
      ((store.serve steps).1 ++ ((store.serve steps).2.serve later).1,
        ((store.serve steps).2.serve later).2) := by
  induction steps generalizing store with
  | nil => rfl
  | cons step steps ih =>
    rw [List.cons_append, serve_cons, serve_cons, ih]
    rfl

end Store

/-! ## Steps as functions on directories -/

/-- What a step answers and makes of a directory. -/
def Directory.enact (d : Directory) : (step : Step) → step.Answer × Directory
  | .command c => d.carryOut c
  | .insertUser new => (.ok (d.insertUser new).1, (d.insertUser new).2)
  | .softDelete id => (.ok (d.softDelete id).1, (d.softDelete id).2)

/-- The store that holds a directory, and is available. -/
@[reducible] def Store.holding (directory : Directory) : Store := { directory }

theorem Store.perform_eq (d : Directory) (step : Step) :
    (Store.holding d).perform step = ((d.enact step).1, .holding (d.enact step).2) := by
  cases step with
  | command c =>
    have havailable : (Store.holding d).available = true := rfl
    obtain ⟨hvalue, hstate⟩ := Store.hold_command c havailable
    exact Prod.ext hvalue hstate
  | insertUser new => rfl
  | softDelete id => rfl

/-! ## Reachable directories -/

/-- A history that the service can have, and the directory that is there after it. -/
inductive Reaches : List Entry → Directory → Prop where
  | start : Reaches [] {}
  | step {history : List Entry} {d : Directory} (h : Reaches history d) (step : Step) :
    Reaches (history ++ [⟨step, (d.enact step).1⟩]) (d.enact step).2

theorem Reaches.serve {history : List Entry} {d : Directory} (h : Reaches history d)
    (steps : List Step) :
    ∃ d', ((Store.holding d).serve steps).2 = .holding d' ∧
      Reaches (history ++ ((Store.holding d).serve steps).1) d' := by
  induction steps generalizing history d with
  | nil => exact ⟨d, rfl, by rwa [Store.serve, List.append_nil]⟩
  | cons step steps ih =>
    obtain ⟨d', hstore, hreaches⟩ := ih (h.step step)
    rw [Store.serve_cons, Store.perform_eq]
    refine ⟨d', hstore, ?_⟩
    rwa [List.append_assoc, List.singleton_append] at hreaches

/-- **A run on a fresh store arrives at a reachable directory.**  The store is available all along.
-/
theorem Store.serve_reaches (steps : List Step) :
    ∃ d, (({} : Store).serve steps).2 = .holding d ∧ Reaches (({} : Store).serve steps).1 d :=
  Reaches.start.serve steps

end ClusterAccess
