import ClusterAccess.Administration.Groups
import ClusterAccess.Store.Memory

/-!
# Conversations with the store in memory

A conversation is held call by call, so what comes of it is put together from what comes of its
parts (`Conversation.run_bind`).  For the store in memory the calls of a transaction go to a copy
of the directory, and a transaction can be read as a function on directories (`Transaction.run`):
it ends with a value, and with what it has made of the copy.  `answered_transaction` is the law of
transactions: one that ends well puts its copy in place of the directory, one that ends with an
error leaves the store as it was.
-/

namespace ClusterAccess

variable {σ α β ε : Type}

/-! ## The outcome of two conversations, one after the other -/

/-- What comes of a conversation that is followed by another one. -/
def Outcome.andThen (first : Outcome σ α) (second : Outcome σ β) : Outcome σ β :=
  { second with
    exchanges := first.exchanges ++ second.exchanges
    events := first.events ++ second.events }

/-- The calls that were made, in order. -/
def Outcome.calls (o : Outcome σ α) : List Call := o.exchanges.map Exchange.call

namespace Conversation

theorem run_bind (handler : Handler σ) (x : Conversation α) (f : α → Conversation β) (s : σ) :
    run handler (x >>= f) s =
      (run handler x s).andThen
        (run handler (f (run handler x s).value) (run handler x s).state) := by
  induction x generalizing s with
  | done value => rfl
  | note event rest ih =>
    rw [Dialogue.note_bind, run, ih]
    rfl
  | ask call next ih =>
    rw [Dialogue.ask_bind, run]
    dsimp only
    rw [ih]
    rfl

/-- An empty list of faults answers no call. -/
theorem run_faultless (handler : Handler σ) (x : Conversation α) (s : σ) :
    run (Fault.handler handler) x ([], s) =
      { value := (run handler x s).value
        state := ([], (run handler x s).state)
        exchanges := (run handler x s).exchanges
        events := (run handler x s).events } := by
  induction x generalizing s with
  | done value => rfl
  | note event rest ih =>
    rw [run, ih]
    rfl
  | ask call next ih =>
    have hpass : Fault.handler handler call ([], s) =
        ((handler call s).1, ([], (handler call s).2)) := by
      rw [Fault.handler, Fault.intercept_nil]
    rw [run, hpass]
    dsimp only
    rw [ih]
    rfl

/-! ## What the store in memory answers -/

/-- What a conversation with the store in memory ends with, and the workspace after it. -/
def answered (x : Conversation α) (w : Workspace) : α × Workspace :=
  ((run Workspace.handler x w).value, (run Workspace.handler x w).state)

@[simp] theorem answered_done (value : α) (w : Workspace) :
    answered (.done value) w = (value, w) := rfl

@[simp] theorem answered_note (event : Event) (rest : Conversation α) (w : Workspace) :
    answered (.note event rest) w = answered rest w := rfl

theorem answered_ask (call : Call) (next : Except StoreError call.hook.Answer → Conversation α)
    (w : Workspace) :
    answered (.ask call next) w =
      answered (next (Workspace.handler call w).1) (Workspace.handler call w).2 := rfl

@[simp] theorem answered_bind (x : Conversation α) (f : α → Conversation β) (w : Workspace) :
    answered (x >>= f) w = answered (f (answered x w).1) (answered x w).2 := by
  rw [answered, run_bind]
  rfl

end Conversation

/-- A store without faults in front of it answers as its workspace does. -/
theorem Store.hold_faultless (x : Conversation α) (store : Store) :
    (store.hold [] x).value = (x.answered (.ofStore store)).1 ∧
      (store.hold [] x).state = (x.answered (.ofStore store)).2.store := by
  simp only [Store.hold, Conversation.run_faultless, Conversation.answered, and_self]

/-! ## Transactions as functions on directories -/

namespace Transaction

/-- What a transaction ends with, and what it has made of the directory it started from. -/
def run : Transaction α → Directory → α × Directory
  | .done value, d => (value, d)
  | .note _ rest, d => run rest d
  | .ask a next, d =>
    match d.perform a with
    | .ok (answer, d) => run (next (.ok answer)) d
    | .error e => run (next (.error e)) d

theorem run_bind (x : Transaction α) (f : α → Transaction β) (d : Directory) :
    run (x >>= f) d = run (f (run x d).1) (run x d).2 := by
  induction x generalizing d with
  | done value => rfl
  | note event rest ih =>
    rw [Dialogue.note_bind, run, run]
    exact ih d
  | ask a next ih =>
    rw [Dialogue.ask_bind, run, run]
    split
    · exact ih _ _
    · exact ih _ _

/-- The calls of a transaction change nothing but the copy. -/
theorem answered_calls (x : Transaction α) (w : Workspace) :
    (calls x).answered w = ((run x w.staged).1, { w with staged := (run x w.staged).2 }) := by
  induction x generalizing w with
  | done value => rfl
  | note event rest ih => exact ih w
  | ask a next ih =>
    rw [calls, Conversation.answered_ask, run]
    cases h : w.staged.perform a with
    | ok result => simp only [Workspace.handler, h, ih]
    | error e => simp only [Workspace.handler, h, ih]

/-- What an operation inside a transaction ends with, and what it has made of the directory. -/
def attempt (x : ExceptT ε Transaction α) (d : Directory) : Except ε α × Directory :=
  run x.run d

section Attempt

variable (d : Directory)

@[simp] theorem attempt_pure (value : α) :
    attempt (pure value : ExceptT ε Transaction α) d = (.ok value, d) := rfl

@[simp] theorem attempt_throw (e : ε) :
    attempt (throw e : ExceptT ε Transaction α) d = (.error e, d) := rfl

theorem attempt_bind (x : ExceptT ε Transaction α) (f : α → ExceptT ε Transaction β) :
    attempt (x >>= f) d =
      match attempt x d with
      | (.ok value, d) => attempt (f value) d
      | (.error e, d) => (.error e, d) := by
  rw [attempt, ExceptT.run_bind, run_bind, attempt]
  rcases run x.run d with ⟨result, d'⟩
  cases result with
  | ok value => rfl
  | error e => rfl

@[simp] theorem attempt_log (event : Event) :
    attempt (ExceptT.lift (Dialogue.log event) : ExceptT ε Transaction Unit) d = (.ok (), d) := rfl

@[simp] theorem attempt_request (a : Action) :
    attempt (ExceptT.lift (Dialogue.request a) : ExceptT ε Transaction _) d =
      match d.perform a with
      | .ok (answer, d) => (.ok (.ok answer), d)
      | .error e => (.ok (.error e), d) := by
  rw [attempt, ExceptT.run_lift, map_eq_pure_bind, run_bind, Dialogue.request, run]
  split <;> rfl

@[simp] theorem attempt_act (a : Action) :
    attempt (Administration.act a) d =
      match d.perform a with
      | .ok (answer, d) => (.ok answer, d)
      | .error e => (.error (.store e), d) := by
  change run (Dialogue.ask a fun answer => .done (answer.mapError _)) d = _
  rw [run]
  split <;> rfl

end Attempt

end Transaction

namespace Conversation

section Answered

variable (w : Workspace)

@[simp] theorem answered_pure (value : α) :
    answered (pure value : ExceptT ε Conversation α).run w = (.ok value, w) := rfl

@[simp] theorem answered_throw (e : ε) :
    answered (throw e : ExceptT ε Conversation α).run w = (.error e, w) := rfl

theorem answered_andThen (x : ExceptT ε Conversation α) (f : α → ExceptT ε Conversation β) :
    answered (x >>= f).run w =
      match answered x.run w with
      | (.ok value, w) => answered (f value).run w
      | (.error e, w) => (.error e, w) := by
  rw [ExceptT.run_bind, answered_bind]
  rcases answered x.run w with ⟨result, w'⟩
  cases result with
  | ok value => rfl
  | error e => rfl

@[simp] theorem answered_lift (x : Conversation α) :
    answered (ExceptT.lift x : ExceptT ε Conversation α).run w =
      (.ok (answered x w).1, (answered x w).2) := by
  rw [ExceptT.run_lift, map_eq_pure_bind, answered_bind]
  rfl

@[simp] theorem answered_log (event : Event) :
    answered (Dialogue.log event) w = ((), w) := rfl

@[simp] theorem answered_query (q : Query) :
    answered (Administration.query q).run w = ((w.store.answer q).mapError .store, w) := rfl

end Answered

/-- **The law of transactions.**  A transaction that ends well puts its copy in place of the
directory; one that ends with an error leaves the store as it was. -/
theorem answered_transaction (ofStore : StoreError → ε) (body : ExceptT ε Transaction α)
    {w : Workspace} (h : w.store.available = true) :
    answered (transaction ofStore body).run w =
      match Transaction.attempt body w.store.directory with
      | (.ok value, d) => (.ok value, { store := { w.store with directory := d }, staged := d })
      | (.error e, d) => (.error e, { w with staged := d }) := by
  have hstart : answered (ExceptT.adapt ofStore (ExceptT.mk (Dialogue.request Call.start))).run w =
      (.ok (), { w with staged := w.store.directory }) := by
    change ((Workspace.handler .start w).1.mapError ofStore, (Workspace.handler .start w).2) = _
    rw [Workspace.handler, if_pos h]
    rfl
  rw [transaction, answered_andThen, hstart]
  dsimp only
  rw [answered_andThen, ExceptT.run_mk, Transaction.answered_calls]
  dsimp only
  rw [Transaction.attempt]
  rcases Transaction.run body.run w.store.directory with ⟨result, d⟩
  cases result with
  | ok value => rfl
  | error e => rfl

end Conversation

end ClusterAccess
