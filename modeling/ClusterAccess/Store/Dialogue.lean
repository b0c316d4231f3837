import ClusterAccess.Event
import ClusterAccess.Store.Call
/-!
# Dialogues with a store

An operation is a *dialogue*: it asks calls, goes on as the answers tell it, notes events, and ends
with a value.  What answers is left open.  A *handler* answers calls from a state of its own, so the
same dialogue can be held with the tables of the directory, with a store that fails on purpose, or
with any answers whatever; and what was asked and answered is there to be looked at.
-/

namespace ClusterAccess

/-- A dialogue that asks questions `Q`, each of a kind, and ends with a value. -/
inductive Dialogue {Q : Type} (hook : Q → Hook) (α : Type) where
  | done (value : α)
  | note (event : Event) (rest : Dialogue hook α)
  | ask (question : Q) (next : Except StoreError (hook question).Answer → Dialogue hook α)

namespace Dialogue

variable {Q : Type} {hook : Q → Hook} {α β : Type}

def bind : Dialogue hook α → (α → Dialogue hook β) → Dialogue hook β
  | .done value, f => f value
  | .note event rest, f => .note event (rest.bind f)
  | .ask question next, f => .ask question fun answer => (next answer).bind f

instance : Monad (Dialogue hook) where
  pure := .done
  bind := bind

/-- Asks one question. -/
def request (question : Q) : Dialogue hook (Except StoreError (hook question).Answer) :=
  .ask question .done

/-- Notes an event. -/
def log (event : Event) : Dialogue hook Unit := .note event (.done ())

@[simp] theorem pure_eq (value : α) : (pure value : Dialogue hook α) = .done value := rfl

@[simp] theorem done_bind (value : α) (f : α → Dialogue hook β) :
    (Dialogue.done value >>= f) = f value := rfl

@[simp] theorem note_bind (event : Event) (rest : Dialogue hook α) (f : α → Dialogue hook β) :
    (Dialogue.note event rest >>= f) = .note event (rest >>= f) := rfl

@[simp] theorem ask_bind (question : Q)
    (next : Except StoreError (hook question).Answer → Dialogue hook α) (f : α → Dialogue hook β) :
    (Dialogue.ask question next >>= f) = .ask question fun answer => next answer >>= f := rfl

instance : LawfulMonad (Dialogue hook) :=
  have bind_done {α : Type} (x : Dialogue hook α) : x.bind .done = x := by
    induction x with
    | done _ => rfl
    | note event _ ih => exact congrArg (note event) ih
    | ask question _ ih => exact congrArg (ask question) (funext ih)
  LawfulMonad.mk' (Dialogue hook) bind_done (fun _ _ => rfl) fun x f g => by
    induction x with
    | done _ => rfl
    | note event _ ih => exact congrArg (note event) ih
    | ask question _ ih => exact congrArg (ask question) (funext ih)

end Dialogue

/-! ## Transactions -/

/-- What happens inside a transaction: a dialogue of actions alone. -/
abbrev Transaction := Dialogue Action.hook

/-- A dialogue of calls of every kind. -/
abbrev Conversation := Dialogue Call.hook

/-- A transaction as part of a conversation. -/
def Transaction.calls {α : Type} : Transaction α → Conversation α
  | .done value => .done value
  | .note event rest => .note event (calls rest)
  | .ask action next => .ask (.action action) fun answer => calls (next answer)

/-- Holds a transaction: starts it, and commits it if it ends well.  A store's refusal to start or
to commit is turned into an error of the operation. -/
def Conversation.transaction {ε α : Type} (ofStore : StoreError → ε)
    (body : ExceptT ε Transaction α) : ExceptT ε Conversation α := do
  ExceptT.adapt ofStore (ExceptT.mk (Dialogue.request Call.start))
  let value ← ExceptT.mk (Transaction.calls body.run)
  ExceptT.adapt ofStore (ExceptT.mk (Dialogue.request Call.commit))
  return value

/-! ## Handlers -/

/-- What answers calls, from a state that it may change. -/
abbrev Handler (σ : Type) :=
  (call : Call) → σ → Except StoreError call.hook.Answer × σ

/-- A call and its answer. -/
structure Exchange where
  call : Call
  answer : Except StoreError call.hook.Answer

/-- What comes of a conversation: its value, the handler's state after it, and what was asked and
noted on the way, in order. -/
structure Outcome (σ α : Type) where
  value : α
  state : σ
  exchanges : List Exchange := []
  events : List Event := []

/-- Holds a conversation with a handler. -/
def Conversation.run {σ α : Type} (handler : Handler σ) : Conversation α → σ → Outcome σ α
  | .done value, state => { value, state }
  | .note event rest, state =>
    let outcome := run handler rest state
    { outcome with events := event :: outcome.events }
  | .ask call next, state =>
    let (answer, state) := handler call state
    let outcome := run handler (next answer) state
    { outcome with exchanges := ⟨call, answer⟩ :: outcome.exchanges }

end ClusterAccess
