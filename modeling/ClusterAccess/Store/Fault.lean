import ClusterAccess.Store.Dialogue
/-!
# Faults

A store can be made to fail, or to answer anything at all, by putting a list of *faults* in front of
it.  A fault is for calls of one kind.  It lets a number of them pass, and answers all that follow
in the store's place.  Of several faults for one kind only the first one matters.
-/

namespace ClusterAccess

structure Fault where
  hook : Hook
  /-- How many calls of the kind still pass. -/
  after : Nat := 0
  /-- What calls of the kind are answered when none passes any more. -/
  answer : Except StoreError hook.Answer

namespace Fault

/-- What the faults answer to a call, if any of them does, and the faults for the calls to come. -/
def intercept (hook : Hook) : List Fault → Option (Except StoreError hook.Answer) × List Fault
  | [] => (none, [])
  | fault :: rest =>
    if h : fault.hook = hook then
      match fault.after with
      | 0 => (some (h ▸ fault.answer), fault :: rest)
      | after + 1 => (none, { fault with after } :: rest)
    else
      let (answer, rest) := intercept hook rest
      (answer, fault :: rest)

/-- Puts faults in front of a handler: a call that a fault answers is not passed on. -/
def handler {σ : Type} (inner : Handler σ) : Handler (List Fault × σ) :=
  fun call (faults, state) =>
    match intercept call.hook faults with
    | (some answer, faults) => (answer, faults, state)
    | (none, faults) =>
      let (answer, state) := inner call state
      (answer, faults, state)

theorem intercept_nil (hook : Hook) : intercept hook [] = (none, []) := rfl

end Fault

end ClusterAccess
