import ClusterAccess.Proofs.Service.Deeds

/-!
# What leaves no trace

Beside the steps of the service a store sees readers, and transactions that others hold.  A
transaction that is written down (`Plan`) is a list of actions of any kind in any order, and says of
each whether its failure breaks the transaction off or is passed over.

A turn that fails, a turn that only reads, and an action that does either inside of a transaction,
leave everything as it was.  So they can be struck out of a run, all of them or some (`Omits`): what
is left of the turns gets the answers it had, and arrives at the same store, counters of ids
included (`Store.play_traceless`).  A counter that a failure had moved on would show in the next id.
-/

namespace ClusterAccess

/-! ## Striking out -/

/-- A list of which some entries are struck out, each of which may be, and the others stay in one
way or another. -/
inductive Omits {α : Type} (may : α → Prop) (stays : α → α → Prop) : List α → List α → Prop where
  | nil : Omits may stays [] []
  | keep {x y : α} {xs ys : List α} (same : stays x y) (rest : Omits may stays xs ys) :
    Omits may stays (x :: xs) (y :: ys)
  | drop {x : α} {xs ys : List α} (free : may x) (rest : Omits may stays xs ys) :
    Omits may stays (x :: xs) ys

/-- All entries of a kind that may be struck out can be struck out at once. -/
theorem Omits.filter_map {α : Type} {may : α → Prop} {stays : α → α → Prop} (p : α → Bool)
    (f : α → α) (drops : ∀ x, p x = true → may x) (keeps : ∀ x, p x = false → stays x (f x))
    (xs : List α) : Omits may stays xs ((xs.filter fun x => !p x).map f) := by
  induction xs with
  | nil => exact .nil
  | cons x xs ih =>
    cases hp : p x with
    | true =>
      rw [List.filter_cons_of_neg (by rw [hp]; decide)]
      exact .drop (drops x hp) ih
    | false =>
      rw [List.filter_cons_of_pos (by rw [hp]; rfl), List.map_cons]
      exact .keep (keeps x hp) ih

/-! ## Actions -/

/-- Whether an action looks at the copy and does nothing to it. -/
def Action.reads : Action → Bool
  | .user _ | .group _ | .nameTaken _ | .grantCount _ | .grant _ => true
  | _ => false

theorem Directory.perform_of_reads {d d' : Directory} {a : Action} {answer : a.hook.Answer}
    (reads : a.reads = true) (done : d.perform a = .ok (answer, d')) : d' = d := by
  cases a with
  | user _ | group _ | nameTaken _ | grantCount _ | grant _ =>
    cases done
    rfl
  | _ => cases reads

/-! ## Transactions that are written down -/

/-- An action of a transaction. -/
structure Line where
  action : Action
  /-- Whether a failure of the action is passed over. -/
  lenient : Bool := false

/-- A line of a transaction, and what its action answered. -/
structure Reply where
  line : Line
  answer : Except StoreError line.action.hook.Answer

def Reply.failed (r : Reply) : Bool := !r.answer.isOk

/-- The action failed and was passed over, or it only reads. -/
def Reply.Traceless (r : Reply) : Prop := r.failed = true ∨ r.line.action.reads = true

structure Plan where
  lines : List Line
  /-- The error that breaks the transaction off after its last line, if one does. -/
  abort : Option StoreError := none

namespace Plan

/-- Acts line by line, up to the first failure that is not passed over. -/
def follow : List Line → ExceptT StoreError Transaction (List Reply)
  | [] => return []
  | line :: rest => do
    match ← ExceptT.lift (Dialogue.request line.action) with
    | .ok answer => return ⟨line, .ok answer⟩ :: (← follow rest)
    | .error e => if line.lenient then return ⟨line, .error e⟩ :: (← follow rest) else throw e

/-- The transaction of a plan, which answers what its actions did. -/
def body (plan : Plan) : ExceptT StoreError Transaction (List Reply) := do
  let replies ← follow plan.lines
  match plan.abort with
  | some e => throw e
  | none => return replies

end Plan

/-- Acting line by line, with each reply on the way, takes one directory to another. -/
inductive Yields : Directory → List Reply → Directory → Prop where
  | nil {d : Directory} : Yields d [] d
  | done {d d' d'' : Directory} {line : Line} {answer : line.action.hook.Answer}
    {replies : List Reply} (h : d.perform line.action = .ok (answer, d'))
    (rest : Yields d' replies d'') : Yields d (⟨line, .ok answer⟩ :: replies) d''
  | passedOver {d d' : Directory} {line : Line} {e : StoreError} {replies : List Reply}
    (lenient : line.lenient = true) (h : d.perform line.action = .error e)
    (rest : Yields d replies d') : Yields d (⟨line, .error e⟩ :: replies) d'

namespace Plan

open Transaction

/-- A reply in front of those that are still to come. -/
theorem attempt_reply (r : Reply) (x : ExceptT StoreError Transaction (List Reply))
    (d : Directory) :
    attempt (do return r :: (← x)) d = ((attempt x d).1.map (r :: ·), (attempt x d).2) := by
  rw [attempt_bind]
  rcases attempt x d with ⟨_ | replies, d'⟩ <;> rfl

theorem attempt_follow_cons (line : Line) (rest : List Line) (d : Directory) :
    attempt (follow (line :: rest)) d =
      match d.perform line.action with
      | .ok (answer, d') =>
        ((attempt (follow rest) d').1.map (⟨line, .ok answer⟩ :: ·), (attempt (follow rest) d').2)
      | .error e =>
        if line.lenient then
          ((attempt (follow rest) d).1.map (⟨line, .error e⟩ :: ·), (attempt (follow rest) d).2)
        else (.error e, d) := by
  rw [follow, attempt_bind, attempt_request]
  cases d.perform line.action with
  | ok result => exact attempt_reply _ _ _
  | error e =>
    dsimp only
    by_cases hlenient : line.lenient = true
    · rw [if_pos hlenient, if_pos hlenient]
      exact attempt_reply _ _ _
    · rw [if_neg hlenient, if_neg hlenient, attempt_throw]

/-- Lines that are followed to the end have a reply each. -/
theorem yields_of_follow {lines : List Line} {d d' : Directory} {replies : List Reply}
    (h : attempt (follow lines) d = (.ok replies, d')) :
    replies.map Reply.line = lines ∧ Yields d replies d' := by
  induction lines generalizing d replies with
  | nil =>
    cases h
    exact ⟨rfl, .nil⟩
  | cons line rest ih =>
    rw [attempt_follow_cons] at h
    cases hdone : d.perform line.action with
    | ok result =>
      obtain ⟨answer, d₁⟩ := result
      simp only [hdone] at h
      rcases hrest : attempt (follow rest) d₁ with ⟨_ | replies', d₂⟩
      · rw [hrest] at h
        cases h
      · rw [hrest] at h
        cases h
        obtain ⟨hlines, hyields⟩ := ih hrest
        exact ⟨congrArg (line :: ·) hlines, .done hdone hyields⟩
    | error e =>
      simp only [hdone] at h
      split at h
      · rename_i hlenient
        rcases hrest : attempt (follow rest) d with ⟨_ | replies', d₂⟩
        · rw [hrest] at h
          cases h
        · rw [hrest] at h
          cases h
          obtain ⟨hlines, hyields⟩ := ih hrest
          exact ⟨congrArg (line :: ·) hlines, .passedOver hlenient hdone hyields⟩
      · cases h

theorem follow_of_yields {d d' : Directory} {replies : List Reply} (h : Yields d replies d') :
    attempt (follow (replies.map Reply.line)) d = (.ok replies, d') := by
  induction h with
  | nil => rfl
  | done hdone _ ih =>
    rw [List.map_cons, attempt_follow_cons]
    simp only [hdone, ih]
    rfl
  | passedOver hlenient hfails _ ih =>
    rw [List.map_cons, attempt_follow_cons]
    simp only [hfails, ih]
    rw [if_pos hlenient]
    rfl

/-- A plan that is carried out was followed to its end. -/
theorem attempt_body_eq_ok {plan : Plan} {d d' : Directory} {replies : List Reply} :
    attempt plan.body d = (.ok replies, d') ↔
      plan.abort = none ∧ attempt (follow plan.lines) d = (.ok replies, d') := by
  rw [body, attempt_bind]
  rcases attempt (follow plan.lines) d with ⟨_ | replies', d₁⟩
  · exact ⟨nofun, fun h => nomatch h.2⟩
  · cases habort : plan.abort with
    | none => simp only [attempt_pure, true_and]
    | some e => simp only [attempt_throw, Prod.mk.injEq, reduceCtorEq, false_and]

end Plan

/-- **Replies that are struck out were of no consequence** to the others. -/
theorem Yields.omits {d d' : Directory} {replies left : List Reply} (h : Yields d replies d')
    (omits : Omits Reply.Traceless Eq replies left) : Yields d left d' := by
  induction omits generalizing d with
  | nil => exact h
  | keep same _ ih =>
    subst same
    cases h with
    | done hdone hrest => exact .done hdone (ih hrest)
    | passedOver hlenient hfails hrest => exact .passedOver hlenient hfails (ih hrest)
  | drop free _ ih =>
    cases h with
    | done hdone hrest =>
      have hreads := free.resolve_left (by simp [Reply.failed, Except.isOk, Except.toBool])
      rw [Directory.perform_of_reads hreads hdone] at hrest
      exact ih hrest
    | passedOver _ _ hrest => exact ih hrest

/-! ## Turns -/

/-- Anything that is done to a store: a step of the service, a query, or a transaction. -/
inductive Turn where
  | step (s : Step)
  | query (q : Query)
  | transact (plan : Plan)

@[reducible] def Turn.Answer : Turn → Type
  | .step s => s.Answer
  | .query q => Except StoreError q.hook.Answer
  | .transact _ => Except StoreError (List Reply)

/-- A turn and its answer. -/
structure Occurrence where
  turn : Turn
  answer : turn.Answer

namespace Store

def take (store : Store) : (turn : Turn) → turn.Answer × Store
  | .step s => store.perform s
  | .query q =>
    let outcome := store.hold [] (Dialogue.request (Call.query q))
    (outcome.value, outcome.state)
  | .transact plan =>
    let outcome := store.hold [] (Conversation.transaction id plan.body).run
    (outcome.value, outcome.state)

/-- Takes turns one after the other.  One that fails is an occurrence like any other. -/
def play (store : Store) : List Turn → List Occurrence × Store
  | [] => ([], store)
  | turn :: turns =>
    let (answer, store) := store.take turn
    let (occurrences, store) := store.play turns
    (⟨turn, answer⟩ :: occurrences, store)

theorem play_cons (store : Store) (turn : Turn) (turns : List Turn) :
    store.play (turn :: turns) =
      (⟨turn, (store.take turn).1⟩ :: ((store.take turn).2.play turns).1,
        ((store.take turn).2.play turns).2) := rfl

end Store

/-- What a turn answers and makes of a directory. -/
def Directory.undergo (d : Directory) : (turn : Turn) → turn.Answer × Directory
  | .step s => d.enact s
  | .query q => (.ok (d.answer q), d)
  | .transact plan => d.settle (Transaction.attempt plan.body d)

theorem Store.take_eq (d : Directory) (turn : Turn) :
    (Store.holding d).take turn = ((d.undergo turn).1, .holding (d.undergo turn).2) := by
  have havailable : (Store.holding d).available = true := rfl
  cases turn with
  | step s => exact Store.perform_eq d s
  | query q =>
    obtain ⟨hvalue, hstate⟩ := Store.hold_faultless (Dialogue.request (Call.query q)) (.holding d)
    refine Prod.ext (hvalue.trans ?_) hstate
    exact Store.answer_of_available havailable q
  | transact plan =>
    obtain ⟨hvalue, hstate⟩ :=
      Store.hold_faultless (Conversation.transaction id plan.body).run (.holding d)
    rw [Conversation.answered_transaction id plan.body
      (w := .ofStore (.holding d)) havailable] at hvalue hstate
    refine Prod.ext (hvalue.trans ?_) (hstate.trans ?_)
    all_goals
      simp only [Workspace.ofStore, Directory.undergo]
      rcases Transaction.attempt plan.body d with ⟨_ | _, _⟩ <;> rfl

/-! ## Turns that leave no trace -/

def Command.reads : Command → Bool
  | .getGroup _ | .listGroups | .listPermissions _ | .listUsers | .hasAccess .. | .resolve ..
  | .authorize .. | .matrix .. => true
  | _ => false

def Command.failed : (c : Command) → c.Answer → Bool
  | .createGroup .., answer | .getGroup _, answer | .addMember .., answer
  | .removeMember .., answer => !answer.isOk
  | .listGroups, answer => !answer.isOk
  | .deleteGroup _, answer => !answer.isOk
  | .grant .., answer | .revoke _, answer => !answer.isOk
  | .listPermissions _, answer => !answer.isOk
  | .listUsers, answer => !answer.isOk
  | .authorize .., answer => !answer.isOk
  | .hasAccess .., _ | .resolve .., _ | .matrix .., _ => false

namespace Step

def reads : Step → Bool
  | .command c => c.reads
  | .insertUser _ | .softDelete _ => false

def failed : (s : Step) → s.Answer → Bool
  | .command c, answer => c.failed answer
  | .insertUser _, answer => !answer.isOk
  | .softDelete _, answer => !answer.isOk

/-- The journal shows nothing of a step that failed. -/
theorem change?_of_failed {s : Step} {answer : s.Answer} (h : s.failed answer = true) :
    Entry.change? ⟨s, answer⟩ = none := by
  cases s with
  | command c =>
    cases c with
    | createGroup _ _ | deleteGroup _ | addMember _ _ | removeMember _ _ | grant _ _ | revoke _ =>
      cases answer with
      | error e => rfl
      | ok value => cases h
    | _ => rfl
  | insertUser new =>
    cases answer with
    | error e => rfl
    | ok user => cases h
  | softDelete id =>
    cases answer with
    | error e => rfl
    | ok found => cases h

/-- The journal shows nothing of a step that only reads. -/
theorem change?_of_reads {s : Step} (answer : s.Answer) (h : s.reads = true) :
    Entry.change? ⟨s, answer⟩ = none := by
  cases s with
  | command c =>
    cases c with
    | createGroup _ _ | deleteGroup _ | addMember _ _ | removeMember _ _ | grant _ _ | revoke _ =>
      cases h
    | _ => rfl
  | insertUser new => cases h
  | softDelete id => cases h

end Step

/-- Without a change the directory stays as it was. -/
theorem Effect.eq_of_none {d d' : Directory} (h : Effect d none d') : d' = d := by
  cases h
  rfl

namespace Occurrence

def failed : Occurrence → Bool
  | ⟨.step s, answer⟩ => s.failed answer
  | ⟨.query _, answer⟩ => !answer.isOk
  | ⟨.transact _, answer⟩ => !answer.isOk

def reads : Occurrence → Bool
  | ⟨.step s, _⟩ => s.reads
  | ⟨.query _, _⟩ => true
  | ⟨.transact _, _⟩ => false

/-- The turn failed, or it only reads. -/
def Traceless (o : Occurrence) : Prop := o.failed = true ∨ o.reads = true

/-- A turn stays as it is, or it is a transaction that was committed, of which actions are struck
out. -/
inductive Shortens : Occurrence → Occurrence → Prop where
  | same (o : Occurrence) : Shortens o o
  | within (plan : Plan) {replies left : List Reply}
    (omits : Omits Reply.Traceless Eq replies left) :
    Shortens ⟨.transact plan, .ok replies⟩
      ⟨.transact { plan with lines := left.map Reply.line }, .ok left⟩

/-- What is left of a turn without the actions that failed in it. -/
def shortened : Occurrence → Occurrence
  | ⟨.transact plan, .ok replies⟩ =>
    let left := replies.filter fun r => !r.failed
    ⟨.transact { plan with lines := left.map Reply.line }, .ok left⟩
  | o => o

theorem shortens_shortened (o : Occurrence) : Shortens o o.shortened := by
  obtain ⟨turn, answer⟩ := o
  cases turn with
  | step s => exact .same _
  | query q => exact .same _
  | transact plan =>
    cases answer with
    | error e => exact .same _
    | ok replies =>
      have homits : Omits Reply.Traceless Eq replies _ :=
        Omits.filter_map Reply.failed id (fun _ => Or.inl) (fun _ _ => rfl) replies
      rw [List.map_id] at homits
      exact .within plan homits

end Occurrence

/-- What is left of a run without all that failed in it and all that only reads. -/
def essence (run : List Occurrence) : List Occurrence :=
  (run.filter fun o => !(o.failed || o.reads)).map Occurrence.shortened

theorem omits_essence (run : List Occurrence) :
    Omits Occurrence.Traceless Occurrence.Shortens run (essence run) :=
  Omits.filter_map _ _ (fun _ h => Bool.or_eq_true_iff.mp h)
    (fun o _ => o.shortens_shortened) run

namespace Directory

variable {d : Directory}

theorem undergo_transact (plan : Plan) :
    d.undergo (.transact plan) = d.settle (Transaction.attempt plan.body d) := rfl

/-- **A turn that fails and a turn that only reads leave the directory as it was.** -/
theorem undergo_of_traceless {turn : Turn} (h : Occurrence.Traceless ⟨turn, (d.undergo turn).1⟩) :
    (d.undergo turn).2 = d := by
  cases turn with
  | step s =>
    have hnone : Entry.change? ⟨s, (d.enact s).1⟩ = none :=
      h.elim Step.change?_of_failed (Step.change?_of_reads _)
    have heffect := d.effect s
    rw [hnone] at heffect
    exact heffect.eq_of_none
  | query q => rfl
  | transact plan =>
    have hfailed : (!(d.undergo (.transact plan)).1.isOk) = true := h.resolve_right nofun
    rw [undergo_transact] at hfailed ⊢
    rcases hattempt : Transaction.attempt plan.body d with ⟨_ | _, d'⟩
    · rfl
    · rw [hattempt] at hfailed
      cases hfailed

/-- What is left of a turn is answered what is left of the answer, and does the same. -/
theorem undergo_of_shortens {turn : Turn} {left : Occurrence}
    (h : Occurrence.Shortens ⟨turn, (d.undergo turn).1⟩ left) :
    d.undergo left.turn = (left.answer, (d.undergo turn).2) := by
  generalize ho : (⟨turn, (d.undergo turn).1⟩ : Occurrence) = o at h
  cases h with
  | same =>
    subst ho
    rfl
  | @within plan replies left homits =>
    injection ho with hturn hanswer
    subst hturn
    rw [undergo_transact] at hanswer ⊢
    rcases hattempt : Transaction.attempt plan.body d with ⟨_ | replies', d'⟩
    · rw [hattempt] at hanswer
      cases hanswer
    · rw [hattempt] at hanswer
      obtain rfl : replies' = replies := Except.ok.inj (eq_of_heq hanswer)
      obtain ⟨habort, hfollow⟩ := Plan.attempt_body_eq_ok.mp hattempt
      have hyields := (Plan.yields_of_follow hfollow).2.omits homits
      have hleft : Transaction.attempt
          (Plan.body { plan with lines := left.map Reply.line }) d = (.ok left, d') :=
        Plan.attempt_body_eq_ok.mpr ⟨habort, Plan.follow_of_yields hyields⟩
      rw [undergo_transact, hleft, hattempt]
      rfl

end Directory

/-! ## Every run -/

/-- **Erasure.**  In a run of turns on a store, those that fail, those that only read, and such
actions of transactions that were committed, can be struck out. -/
theorem Store.play_omits {d : Directory} {turns : List Turn} {left : List Occurrence}
    (omits : Omits Occurrence.Traceless Occurrence.Shortens ((Store.holding d).play turns).1 left) :
    (Store.holding d).play (left.map Occurrence.turn) =
      (left, ((Store.holding d).play turns).2) := by
  induction turns generalizing d left with
  | nil =>
    cases omits
    rfl
  | cons turn turns ih =>
    rw [Store.play_cons, Store.take_eq] at omits ⊢
    cases omits with
    | keep same rest =>
      rw [List.map_cons, Store.play_cons, Store.take_eq, Directory.undergo_of_shortens same,
        ih rest]
    | drop free rest =>
      rw [Directory.undergo_of_traceless free] at rest ⊢
      exact ih rest

/-- **What fails and what only reads leaves no trace.**  On a store in any state: an action that
fails leaves the workspace of its transaction as it was; a turn that fails or only reads leaves the
store as it was, counters of ids included; and of every run all that fails and all that only reads
can be struck out, here or there or everywhere: what is left gets the answers it had, and arrives at
the same store. -/
theorem Store.play_traceless (d : Directory) :
    (∀ (w : Workspace) (a : Action) (e : StoreError),
      (Workspace.handler (.action a) w).1 = .error e → (Workspace.handler (.action a) w).2 = w) ∧
    (∀ turn : Turn,
      let taken := (Store.holding d).take turn
      Occurrence.Traceless ⟨turn, taken.1⟩ → taken.2 = .holding d) ∧
    ∀ turns : List Turn,
      let run := (Store.holding d).play turns
      (∀ left, Omits Occurrence.Traceless Occurrence.Shortens run.1 left →
        (Store.holding d).play (left.map Occurrence.turn) = (left, run.2)) ∧
      (Store.holding d).play ((essence run.1).map Occurrence.turn) = (essence run.1, run.2) := by
  refine ⟨?_, ?_, ?_⟩
  · intro w a e hfails
    rw [Workspace.handler] at hfails ⊢
    cases hdone : w.staged.perform a with
    | ok result =>
      rw [hdone] at hfails
      cases hfails
    | error e => rfl
  · intro turn taken htraceless
    have htaken : taken = ((d.undergo turn).1, .holding (d.undergo turn).2) :=
      Store.take_eq d turn
    rw [htaken] at htraceless ⊢
    rw [Directory.undergo_of_traceless htraceless]
  · intro turns run
    exact ⟨fun _ homits => Store.play_omits homits, Store.play_omits (omits_essence run.1)⟩

/-- A group is created; a transaction passes over a name that is taken and makes another group; one
makes a third group and is broken off; readers look on.  What counts is three turns, and the group
that is made last gets the next id. -/
theorem Store.play_traceless_busy :
    let turns : List Turn :=
      [.step (.command (.createGroup " ops " "")),
        .transact { lines := [⟨.nameTaken "dev", false⟩, ⟨.insertGroup "ops" "", true⟩,
          ⟨.insertGroup "dev" "", false⟩] },
        .transact { lines := [⟨.insertGroup "qa" "", false⟩], abort := some .poisoned },
        .query .groups, .step (.command (.getGroup ⟨3⟩)),
        .step (.command (.createGroup "qa" ""))]
    let run := ({} : Store).play turns
    let w := Workspace.ofStore run.2
    let refused := run.2.take (.step (.command (.createGroup "\u2003" "")))
    (Workspace.handler (.action (.insertGroup "ops" "")) w).1 =
        .error (.duplicateGroup "ops") ∧
      (Workspace.handler (.action (.insertGroup "ops" "")) w).2 = w ∧
      refused.1 = .error .invalidName ∧ refused.2 = run.2 ∧
      run.2.directory.groupRecords.rows =
        [⟨⟨1⟩, "ops", ""⟩, ⟨⟨2⟩, "dev", ""⟩, ⟨⟨3⟩, "qa", ""⟩] ∧
      (essence run.1).length = 3 ∧
      ({} : Store).play ((essence run.1).map Occurrence.turn) = (essence run.1, run.2) := by
  intro turns run w refused
  obtain ⟨haction, hturn, -⟩ := Store.play_traceless run.2.directory
  obtain ⟨-, -, hrun⟩ := Store.play_traceless {}
  have hfails : (Workspace.handler (.action (.insertGroup "ops" "")) w).1 =
      .error (.duplicateGroup "ops") := by rfl
  have hrefused : refused.1 = .error .invalidName := by rfl
  have hleaves : refused.2 = run.2 := hturn (.step (.command (.createGroup "\u2003" ""))) (.inl rfl)
  exact ⟨hfails, haction w _ _ hfails, hrefused, hleaves, by rfl, by rfl,
    (hrun turns).1 _ (omits_essence _)⟩

end ClusterAccess
