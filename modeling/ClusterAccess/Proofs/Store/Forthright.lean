import ClusterAccess.Store.Memory

/-!
# Dialogues that tell of refusals

A dialogue is *forthright* if it asks nothing more once a question is refused, and ends with an
error that tells which one it was.  That is a property of the dialogue alone, put together from that
of its parts (`Forthright.andThen`), so that whatever answers, the first refusal is the last
exchange (`Forthright.refused_last`).

The predicate also keeps track of the one call after which nothing can be refused any more: a
conversation that has committed asks nothing.  So no refusal comes after a commit, and a store that
shows nothing of a transaction before its commit shows nothing of a conversation with a refusal in
it (`Conversation.view_run`).
-/

namespace ClusterAccess

/-- A dialogue that ends at the first question that is refused, with the error that is told of it,
and that asks nothing after a question that closes it.  It may be closed from the start, and, if the
second flag says so, closed at its end. -/
inductive Dialogue.Forthright {Q ε α : Type} {hook : Q → Hook} (told : Q → StoreError → ε)
    (closes : Q → Bool) : Bool → Bool → Dialogue hook (Except ε α) → Prop where
  | done {closed closed' : Bool} (result : Except ε α) (h : closed = true → closed' = true) :
    Forthright told closes closed closed' (.done result)
  | note {closed closed' : Bool} (event : Event) {rest : Dialogue hook (Except ε α)}
    (h : Forthright told closes closed closed' rest) :
    Forthright told closes closed closed' (.note event rest)
  | ask {closed' : Bool} {question : Q}
    {next : Except StoreError (hook question).Answer → Dialogue hook (Except ε α)}
    (refused : ∀ e, next (.error e) = .done (.error (told question e)))
    (answered : ∀ answer, Forthright told closes (closes question) closed' (next (.ok answer))) :
    Forthright told closes false closed' (.ask question next)

namespace Dialogue.Forthright

variable {Q ε α β : Type} {hook : Q → Hook} {told : Q → StoreError → ε} {closes : Q → Bool}
  {closed mid closed' : Bool}

/-! ## Parts -/

/-- What asks nothing when it is closed may also be held when it is not. -/
theorem weaken {x : Dialogue hook (Except ε α)} (hx : Forthright told closes mid closed' x)
    (h : closed = true → mid = true) : Forthright told closes closed closed' x := by
  induction hx generalizing closed with
  | done result hdone => exact .done result fun hclosed => hdone (h hclosed)
  | note event _ ih => exact .note event (ih h)
  | ask refused answered ih =>
    cases closed with
    | false => exact .ask refused answered
    | true => exact absurd (h rfl) nofun

/-- One dialogue after the other, if the second one passes on what is told of refusals. -/
theorem bind {x : Dialogue hook (Except ε α)} {f : Except ε α → Dialogue hook (Except ε β)}
    (hx : Forthright told closes closed mid x)
    (passes : ∀ question e, f (.error (told question e)) = .done (.error (told question e)))
    (hf : ∀ result, Forthright told closes mid closed' (f result)) :
    Forthright told closes closed closed' (x >>= f) := by
  induction hx with
  | done result h => exact (hf result).weaken h
  | note event _ ih => exact .note event (ih hf)
  | @ask mid question next refused _ ih =>
    refine .ask (fun e => ?_) fun answer => ih answer hf
    rw [refused]
    exact passes question e

/-- One operation after the other. -/
theorem andThen {x : ExceptT ε (Dialogue hook) α} {f : α → ExceptT ε (Dialogue hook) β}
    (hx : Forthright told closes closed mid x.run)
    (hf : ∀ a, Forthright told closes mid closed' (f a).run) (h : mid = true → closed' = true) :
    Forthright told closes closed closed' (x >>= f).run := by
  rw [ExceptT.run_bind]
  refine hx.bind (fun _ _ => rfl) fun result => ?_
  cases result with
  | ok a => exact hf a
  | error e => exact .done _ h

theorem pure (value : α) :
    Forthright told closes closed closed (Pure.pure value : ExceptT ε (Dialogue hook) α).run :=
  .done _ id

theorem throw (e : ε) :
    Forthright told closes closed closed (throw e : ExceptT ε (Dialogue hook) α).run :=
  .done _ id

theorem log (event : Event) :
    Forthright told closes closed closed
      (ExceptT.lift (Dialogue.log event) : ExceptT ε (Dialogue hook) Unit).run :=
  .note event (.done _ id)

/-- One question, of whose refusal the store's error tells. -/
theorem request {question : Q} {ofStore : StoreError → ε}
    (h : ∀ e, told question e = ofStore e) :
    Forthright told closes false (closes question)
      (ExceptT.adapt ofStore (ExceptT.mk (Dialogue.request question)) :
        ExceptT ε (Dialogue hook) _).run := by
  refine .ask (fun e => ?_) fun _ => .done _ id
  rw [h]
  rfl

end Dialogue.Forthright

/-! ## Transactions -/

/-- Whether a call commits what a transaction has done. -/
def Call.isCommit : Call → Bool
  | .commit => true
  | _ => false

section Transactions

variable {ε α : Type} {told : Call → StoreError → ε} {closed closed' : Bool}

/-- A conversation that is closed by a commit. -/
abbrev Conversation.Forthright (told : Call → StoreError → ε) :
    Bool → Bool → Conversation (Except ε α) → Prop :=
  Dialogue.Forthright told Call.isCommit

/-- The inside of a transaction, which nothing closes. -/
abbrev Transaction.Forthright (told : Action → StoreError → ε)
    (body : ExceptT ε Transaction α) : Prop :=
  Dialogue.Forthright told (fun _ => false) false false body.run

theorem Transaction.forthright_calls {x : Transaction (Except ε α)}
    (h : Dialogue.Forthright (fun a => told (.action a)) (fun _ => false) closed closed' x) :
    Conversation.Forthright told closed closed' x.calls := by
  induction h with
  | done result h => exact .done result h
  | note event _ ih => exact .note event ih
  | ask refused _ ih => exact .ask (fun e => congrArg calls (refused e)) ih

/-- A transaction asks nothing after its commit. -/
theorem Conversation.forthright_transaction {body : ExceptT ε Transaction α}
    {ofStore : StoreError → ε} (hbody : Transaction.Forthright (fun a => told (.action a)) body)
    (hstart : ∀ e, told .start e = ofStore e) (hcommit : ∀ e, told .commit e = ofStore e) :
    Conversation.Forthright told false true (transaction ofStore body).run := by
  have hcalls := Transaction.forthright_calls hbody
  refine (Dialogue.Forthright.request hstart).andThen (fun _ => ?_) nofun
  refine hcalls.andThen (fun value => ?_) nofun
  exact (Dialogue.Forthright.request hcommit).andThen (fun _ => .pure value) id

end Transactions

/-! ## Held with a handler -/

/-- A handler that shows nothing of a transaction before it is committed: what is seen of its state
changes by a commit that succeeds, and by no other call. -/
def Handler.Isolates {σ τ : Type} (handler : Handler σ) (view : σ → τ) : Prop :=
  ∀ call s, (⟨call, (handler call s).1⟩ : Exchange) ≠ ⟨.commit, .ok ()⟩ →
    view (handler call s).2 = view s

/-- The store in memory is such a handler. -/
theorem Workspace.isolates : handler.Isolates Workspace.store := by
  intro call w huncommitted
  cases call with
  | query q => rfl
  | start =>
    simp only [handler]
    split <;> rfl
  | action a =>
    simp only [handler]
    split <;> rfl
  | commit => exact absurd rfl huncommitted

/-- A call behind faults is answered by one of them, or passed on. -/
theorem Fault.handler_cases {σ : Type} (inner : Handler σ) (call : Call) (faults : List Fault)
    (s : σ) : (∃ answer left, handler inner call (faults, s) = (answer, left, s)) ∨
      ∃ left, handler inner call (faults, s) = ((inner call s).1, left, (inner call s).2) := by
  unfold handler
  dsimp only
  rcases intercept call.hook faults with ⟨_ | answer, left⟩
  · exact .inr ⟨left, rfl⟩
  · exact .inl ⟨answer, left, rfl⟩

/-- Faults may answer in a handler's place, but show nothing of its transactions. -/
theorem Handler.Isolates.behind_faults {σ τ : Type} {inner : Handler σ} {view : σ → τ}
    (h : inner.Isolates view) : (Fault.handler inner).Isolates fun s => view s.2 := by
  rintro call ⟨faults, s⟩ huncommitted
  rcases Fault.handler_cases inner call faults s with ⟨answer, left, heq⟩ | ⟨left, heq⟩
  · rw [heq]
  · rw [heq] at huncommitted ⊢
    exact h call s huncommitted

namespace Conversation

variable {σ τ ε α : Type} {told : Call → StoreError → ε} {closed closed' : Bool}
  {x : Conversation (Except ε α)}

theorem exchanges_of_closed (h : Forthright told true closed' x) (handler : Handler σ) (s : σ) :
    (run handler x s).exchanges = [] := by
  generalize hclosed : true = closed at h
  induction h with
  | done result _ => rfl
  | note event _ ih => exact ih hclosed
  | ask _ _ _ => cases hclosed

/-- **A refusal is the last exchange**, it comes before any commit, and the conversation ends with
what is told of it.  The induction is on the conversation; the refusal is either the first answer or
one in what follows. -/
theorem refused_last (h : Forthright told closed closed' x) (handler : Handler σ) (s : σ)
    {call : Call} {e : StoreError} (hrefused : ⟨call, .error e⟩ ∈ (run handler x s).exchanges) :
    (∃ before, (run handler x s).exchanges = before ++ [⟨call, .error e⟩] ∧
      ∀ made ∈ before, made.answer.isOk = true ∧ made.call ≠ .commit) ∧
    (run handler x s).value = .error (told call e) := by
  induction h generalizing s with
  | done result _ => cases hrefused
  | note event _ ih => exact ih s hrefused
  | @ask closed' question next refused answered ih =>
    rw [run] at hrefused ⊢
    dsimp only at hrefused ⊢
    generalize (handler question s).1 = given at hrefused ⊢
    cases given with
    | error e' =>
      rw [refused] at hrefused ⊢
      obtain ⟨rfl⟩ : (⟨call, .error e⟩ : Exchange) = ⟨question, .error e'⟩ :=
        List.mem_singleton.mp hrefused
      exact ⟨⟨[], rfl, nofun⟩, rfl⟩
    | ok answer =>
      rcases List.mem_cons.mp hrefused with heq | hlater
      · cases heq
      · obtain ⟨⟨before, hexchanges, hbefore⟩, hvalue⟩ := ih answer _ hlater
        refine ⟨⟨⟨question, .ok answer⟩ :: before, congrArg _ hexchanges, ?_⟩, hvalue⟩
        refine List.forall_mem_cons.mpr ⟨⟨rfl, fun hcommit => ?_⟩, hbefore⟩
        have hclosed := answered answer
        subst hcommit
        rw [exchanges_of_closed hclosed] at hlater
        cases hlater

theorem view_run {handler : Handler σ} {view : σ → τ} (h : handler.Isolates view)
    (y : Conversation α) (s : σ)
    (uncommitted : (⟨.commit, .ok ()⟩ : Exchange) ∉ (run handler y s).exchanges) :
    view (run handler y s).state = view s := by
  induction y generalizing s with
  | done value => rfl
  | note event rest ih => exact ih s uncommitted
  | ask call next ih =>
    obtain ⟨hfirst, hlater⟩ := not_or.mp (mt List.mem_cons.mpr uncommitted)
    exact (ih _ _ hlater).trans (h call s (Ne.symm hfirst))

end Conversation

end ClusterAccess
