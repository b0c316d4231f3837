import ClusterAccess.Proofs.Store.Conversation

/-!
# Points of a conversation

A conversation that is being held is, after each call, at some point: there is what is left of it,
the state that the handler has come to, and what was asked and answered on the way.
`Conversation.Arrives` lists the points.  What every call preserves holds at all of them
(`Arrives.invariant`), and the end is one of them (`arrives_run`), so that one lemma about calls
speaks of what is inside a conversation and of what comes of it.
-/

namespace ClusterAccess.Conversation

variable {σ α : Type} {handler : Handler σ}

/-- Held from a state, a conversation arrives, after some exchanges, at what is left of it and at
another state. -/
inductive Arrives (handler : Handler σ) :
    Conversation α → σ → List Exchange → Conversation α → σ → Prop where
  | here (x : Conversation α) (s : σ) : Arrives handler x s [] x s
  | note {event : Event} {rest x : Conversation α} {s s' : σ} {passed : List Exchange}
    (h : Arrives handler rest s passed x s') : Arrives handler (.note event rest) s passed x s'
  | ask {call : Call} {next : Except StoreError call.hook.Answer → Conversation α}
    {x : Conversation α} {s s' : σ} {passed : List Exchange}
    (h : Arrives handler (next (handler call s).1) (handler call s).2 passed x s') :
    Arrives handler (.ask call next) s (⟨call, (handler call s).1⟩ :: passed) x s'

/-- A conversation arrives at its end, where what comes of it is seen. -/
theorem arrives_run (handler : Handler σ) (x : Conversation α) (s : σ) :
    Arrives handler x s (run handler x s).exchanges (.done (run handler x s).value)
      (run handler x s).state := by
  induction x generalizing s with
  | done value => exact .here _ _
  | note event rest ih => exact .note (ih s)
  | ask call next ih => exact .ask (ih _ _)

/-- A call that is asked at a point leads to the next one. -/
theorem Arrives.next {x : Conversation α} {s s' : σ} {passed : List Exchange} {call : Call}
    {rest : Except StoreError call.hook.Answer → Conversation α}
    (h : Arrives handler x s passed (.ask call rest) s') :
    Arrives handler x s (passed ++ [⟨call, (handler call s').1⟩]) (rest (handler call s').1)
      (handler call s').2 := by
  generalize hpoint : Dialogue.ask call rest = point at h
  induction h with
  | here x s =>
    subst hpoint
    exact .ask (.here _ _)
  | note h ih => exact .note (ih hpoint)
  | ask h ih => exact .ask (ih hpoint)

/-- What is exchanged up to a point is the beginning of what is exchanged in all. -/
theorem Arrives.prefix_exchanges {x rest : Conversation α} {s s' : σ} {passed : List Exchange}
    (h : Arrives handler x s passed rest s') : passed <+: (run handler x s).exchanges := by
  induction h with
  | here x s => exact List.nil_prefix
  | note h ih => exact ih
  | ask h ih => exact (List.prefix_cons_inj _).mpr ih

/-- **What every call preserves holds at every point.**  The invariant relates the handler's state
to what has been exchanged. -/
theorem Arrives.invariant (Inv : List Exchange → σ → Prop)
    (step : ∀ {passed : List Exchange} {s : σ} (call : Call), Inv passed s →
      Inv (passed ++ [⟨call, (handler call s).1⟩]) (handler call s).2)
    {x rest : Conversation α} {s s' : σ} {before passed : List Exchange}
    (h : Arrives handler x s passed rest s') (start : Inv before s) :
    Inv (before ++ passed) s' := by
  induction h generalizing before with
  | here x s => rwa [List.append_nil]
  | note h ih => exact ih start
  | ask h ih =>
    have hnext := ih (step _ start)
    rwa [List.append_assoc, List.singleton_append] at hnext

end ClusterAccess.Conversation

namespace ClusterAccess

/-- Without faults in front of it, a store exchanges what its workspace does. -/
theorem Store.exchanges_hold {α : Type} (x : Conversation α) (store : Store) :
    (store.hold [] x).exchanges = (x.run Workspace.handler (.ofStore store)).exchanges := by
  simp only [Store.hold, Conversation.run_faultless]

end ClusterAccess
