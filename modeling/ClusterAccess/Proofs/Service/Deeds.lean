import ClusterAccess.Proofs.Service.Agreement
import ClusterAccess.Proofs.Store.Progress
import Mathlib.Data.List.Induction

/-!
# Deeds on a store

The service is not alone with its store.  Whoever holds the store can open a transaction there and
do in it, action by action, what no operation of administration would do.  A *deed* is a step of the
service or any such transaction.  `Store.live` performs deeds one after the other and keeps a record
of each: what it ended with, and all that was asked and answered on the way.

Whether a change came about by an operation or by somebody's own action does not show in the tables.
A directory has *grown* from the empty one by single changes, and so has the copy of a transaction
at each of its points (`Store.live_grown`, `Store.live_point`).  What single changes preserve holds,
by induction on `Directory.Grown`, after all deeds and inside of each.  What is to be said of actions
and not of changes is carried along deeds in the same way, once actions keep it up
(`Workspace.relates_of_arrives`, `Store.live_relates`).
-/

namespace ClusterAccess

/-! ## Deeds -/

/-- One thing that is done to a store, by the service or by anybody. -/
inductive Deed : Type 1 where
  | step (s : Step)
  | transact {ε α : Type} (ofStore : StoreError → ε) (body : ExceptT ε Transaction α)

namespace Deed

@[reducible] def Answer : Deed → Type
  | .step s => s.Answer
  | @transact ε α _ _ => Except ε α

/-- The conversation that a deed is, unless it is done to users on the store itself. -/
def conversation? : (deed : Deed) → Option (Conversation deed.Answer)
  | .step (.command c) => some c.conversation
  | .step (.insertUser _) | .step (.softDelete _) => none
  | .transact ofStore body => some (Conversation.transaction ofStore body).run

end Deed

/-- A deed, what it ended with, and the calls that were made on the way. -/
structure Record : Type 1 where
  deed : Deed
  answer : deed.Answer
  exchanges : List Exchange

namespace Store

def undertake (store : Store) : (deed : Deed) → Outcome Store deed.Answer
  | .step (.command c) => store.hold [] c.conversation
  | .step (.insertUser new) =>
    { value := (store.insertUser new).1, state := (store.insertUser new).2 }
  | .step (.softDelete id) =>
    { value := (store.softDelete id).1, state := (store.softDelete id).2 }
  | .transact ofStore body => store.hold [] (Conversation.transaction ofStore body).run

theorem undertake_conversation (store : Store) {deed : Deed} {x : Conversation deed.Answer}
    (h : deed.conversation? = some x) : store.undertake deed = store.hold [] x := by
  cases deed with
  | step s =>
    cases s with
    | command c =>
      cases h
      rfl
    | insertUser new => cases h
    | softDelete id => cases h
  | transact ofStore body =>
    cases h
    rfl

/-- Performs deeds.  One that fails has a record like any other. -/
def live (store : Store) : List Deed → List Record × Store
  | [] => ([], store)
  | deed :: deeds =>
    let outcome := store.undertake deed
    let (records, store) := outcome.state.live deeds
    (⟨deed, outcome.value, outcome.exchanges⟩ :: records, store)

theorem live_cons (store : Store) (deed : Deed) (deeds : List Deed) :
    store.live (deed :: deeds) =
      (⟨deed, (store.undertake deed).value, (store.undertake deed).exchanges⟩ ::
          ((store.undertake deed).state.live deeds).1,
        ((store.undertake deed).state.live deeds).2) := rfl

theorem live_append (store : Store) (deeds later : List Deed) :
    store.live (deeds ++ later) =
      ((store.live deeds).1 ++ ((store.live deeds).2.live later).1,
        ((store.live deeds).2.live later).2) := by
  induction deeds generalizing store with
  | nil => rfl
  | cons deed deeds ih =>
    rw [List.cons_append, live_cons, live_cons, ih]
    rfl

end Store

/-! ## What transactions leave behind -/

/-- The actions of the transactions that were committed, and those of the one under way. -/
structure Ledger where
  settled : List Exchange := []
  pending : List Exchange := []

namespace Ledger

/-- Goes on by one call. -/
def enter (l : Ledger) (e : Exchange) : Ledger :=
  match e.call with
  | .query _ => l
  | .start => { l with pending := [] }
  | .action _ => { l with pending := l.pending ++ [e] }
  | .commit => { settled := l.settled ++ l.pending }

section Enter

variable (l : Ledger)

@[simp] theorem enter_query (q : Query) (answer : Except StoreError q.hook.Answer) :
    l.enter ⟨.query q, answer⟩ = l := rfl

@[simp] theorem enter_start (answer : Except StoreError Unit) :
    l.enter ⟨.start, answer⟩ = { l with pending := [] } := rfl

@[simp] theorem enter_action (a : Action) (answer : Except StoreError a.hook.Answer) :
    l.enter ⟨.action a, answer⟩ = { l with pending := l.pending ++ [⟨.action a, answer⟩] } := rfl

@[simp] theorem enter_commit (answer : Except StoreError Unit) :
    l.enter ⟨.commit, answer⟩ = { settled := l.settled ++ l.pending } := rfl

end Enter

def ofExchanges (exchanges : List Exchange) : Ledger := exchanges.foldl enter {}

theorem ofExchanges_concat (exchanges : List Exchange) (e : Exchange) :
    ofExchanges (exchanges ++ [e]) = (ofExchanges exchanges).enter e := by
  rw [ofExchanges, List.foldl_append]
  rfl

/-- What is in the ledger was exchanged, in that order. -/
theorem sublist (exchanges : List Exchange) :
    ((ofExchanges exchanges).settled ++ (ofExchanges exchanges).pending).Sublist exchanges := by
  induction exchanges using List.reverseRecOn with
  | nil => exact .refl _
  | append_singleton exchanges e ih =>
    rw [ofExchanges_concat]
    obtain ⟨call, answer⟩ := e
    cases call with
    | query q => exact ih.trans (List.sublist_append_left _ _)
    | start =>
      rw [enter_start, List.append_nil]
      exact ((List.sublist_append_left _ _).trans ih).trans (List.sublist_append_left _ _)
    | action a =>
      rw [enter_action, ← List.append_assoc]
      exact ih.append_right _
    | commit =>
      rw [enter_commit, List.append_nil]
      exact ih.trans (List.sublist_append_left _ _)

end Ledger

/-- The group or permission that an exchange has made. -/
def Exchange.made? : Exchange → Option Change
  | ⟨.action (.insertGroup name description), .ok group⟩ =>
    some (.groupCreated { id := group.id, name, description })
  | ⟨.action (.insertGrant _ _), .ok permission⟩ => some (.granted permission)
  | _ => none

/-- The groups and permissions that exchanges have made. -/
def made (exchanges : List Exchange) : Journal := exchanges.filterMap Exchange.made?

theorem made_append (exchanges later : List Exchange) :
    made (exchanges ++ later) = made exchanges ++ made later := List.filterMap_append

theorem made_singleton (e : Exchange) : made [e] = e.made?.toList := by
  cases h : e.made? with
  | none => exact List.filterMap_cons_none h
  | some change => exact List.filterMap_cons_some h

/-- An action that fails has made nothing. -/
theorem made?_error (a : Action) (e : StoreError) :
    Exchange.made? ⟨.action a, .error e⟩ = none := by
  cases a <;> rfl

namespace Record

def insertedUser? : Record → Option Change
  | ⟨.step (.insertUser _), .ok user, _⟩ => some (.userInserted user)
  | _ => none

theorem insertedUser?_conversation {r : Record} {x : Conversation r.deed.Answer}
    (h : r.deed.conversation? = some x) : r.insertedUser? = none := by
  obtain ⟨deed, answer, exchanges⟩ := r
  cases deed with
  | step s =>
    cases s with
    | insertUser new => cases h
    | _ => rfl
  | transact ofStore body => rfl

/-- All that a deed has made, whether or not it was kept. -/
def made (r : Record) : Journal := r.insertedUser?.toList ++ ClusterAccess.made r.exchanges

/-- What a deed has made in transactions that were committed. -/
def kept (r : Record) : Journal :=
  r.insertedUser?.toList ++ ClusterAccess.made (Ledger.ofExchanges r.exchanges).settled

theorem kept_sublist_made (r : Record) : r.kept.Sublist r.made :=
  List.Sublist.append (.refl _)
    (((List.sublist_append_left _ _).trans (Ledger.sublist r.exchanges)).filterMap _)

end Record

/-- Everything that was made, whether or not it was kept. -/
def everMade (records : List Record) : Journal := records.flatMap Record.made

/-- Everything that was made in transactions that were committed, and all users. -/
def everKept (records : List Record) : Journal := records.flatMap Record.kept

theorem everKept_sublist_everMade (records : List Record) :
    (everKept records).Sublist (everMade records) := by
  induction records with
  | nil => exact .refl _
  | cons r records ih => exact r.kept_sublist_made.append ih

/-! ## Growth -/

namespace Directory

theorem alters_softDelete (d : Directory) (id : UserId) : d.Alters none (d.softDelete id).2 := by
  unfold softDelete
  cases hfound : d.user? id with
  | none => exact .idle
  | some user =>
    obtain ⟨-, rfl⟩ := user?_eq_some_iff.mp hfound
    exact .softDelete user hfound

/-- **Every action is a single change of the directory**, and its answer tells what it has made. -/
theorem alters_perform {d d' : Directory} {a : Action} {answer : a.hook.Answer}
    (done : d.perform a = .ok (answer, d')) :
    d.Alters (Exchange.made? ⟨.action a, .ok answer⟩) d' := by
  cases a with
  | insertGroup name description =>
    cases hfree : d.nameTaken name with
    | true =>
      rw [perform, insertGroup, hfree] at done
      cases done
    | false =>
      rw [perform, insertGroup, hfree] at done
      cases done
      exact .insertGroup name description hfree
  | insertGrant subject cluster =>
    cases hreached : d.subjectExists subject with
    | false =>
      rw [perform, insertGrant, hreached] at done
      cases done
    | true =>
      rw [perform, insertGrant, hreached] at done
      cases done
      exact .insertGrant subject cluster hreached
  | deleteGroup id =>
    cases done
    exact .deleteGroup id
  | insertMembership m =>
    cases done
    exact .insertMembership m
  | deleteMembership m =>
    cases done
    exact .deleteMembership m
  | deleteMemberships group =>
    cases done
    exact .deleteMemberships group
  | deleteGrant id =>
    cases done
    exact .deleteGrant id
  | _ =>
    cases done
    exact .idle

/-- A directory that single changes have made of the empty one, and what they have made. -/
inductive Grown : Journal → Directory → Prop where
  | start : Grown [] {}
  | step {j : Journal} {d d' : Directory} {change : Option Change} (h : Grown j d)
    (alters : d.Alters change d') : Grown (j ++ change.toList) d'

end Directory

/-- The directory has grown by what is settled, and the copy by what is pending too. -/
structure Workspace.Grown (base : Journal) (l : Ledger) (w : Workspace) : Prop where
  available : w.store.available = true
  directory : w.store.directory.Grown (base ++ made l.settled)
  staged : w.staged.Grown (base ++ made (l.settled ++ l.pending))

/-! ## Relations that actions keep up -/

theorem Store.eq_holding {store : Store} (h : store.available = true) :
    store = .holding store.directory := by
  obtain ⟨directory, available⟩ := store
  cases h
  rfl

/-- An action changes nothing but the copy. -/
theorem Workspace.store_action (w : Workspace) (a : Action) :
    (Workspace.handler (.action a) w).2.store = w.store := by
  rw [Workspace.handler]
  split <;> rfl

/-- Every action, whether it fails or not, keeps up what relates actions to the directory that they
are done to. -/
def KeptUp (Rel : List Exchange → Directory → Prop) : Prop :=
  ∀ (actions : List Exchange) (w : Workspace) (a : Action), Rel actions w.staged →
    Rel (actions ++ [⟨.action a, (Workspace.handler (.action a) w).1⟩])
      (Workspace.handler (.action a) w).2.staged

/-- The directory goes with what is settled, and the copy with what is pending too. -/
structure Workspace.Relates (Rel : List Exchange → Directory → Prop) (l : Ledger) (w : Workspace) :
    Prop where
  available : w.store.available = true
  directory : Rel l.settled w.store.directory
  staged : Rel (l.settled ++ l.pending) w.staged

section Relates

variable {Rel : List Exchange → Directory → Prop} (keptUp : KeptUp Rel)

include keptUp

/-- **Every call keeps up what actions keep up.** -/
theorem Workspace.Relates.enter {l : Ledger} {w : Workspace} (h : w.Relates Rel l) (call : Call) :
    (Workspace.handler call w).2.Relates Rel (l.enter ⟨call, (Workspace.handler call w).1⟩) := by
  obtain ⟨havailable, hdirectory, hstaged⟩ := h
  cases call with
  | query q => exact ⟨havailable, hdirectory, hstaged⟩
  | start =>
    rw [Workspace.handler, if_pos havailable]
    refine ⟨havailable, hdirectory, ?_⟩
    rw [Ledger.enter_start, List.append_nil]
    exact hdirectory
  | action a =>
    have hstore := w.store_action a
    refine ⟨hstore ▸ havailable, hstore ▸ hdirectory, ?_⟩
    rw [Ledger.enter_action, ← List.append_assoc]
    exact keptUp _ w a hstaged
  | commit =>
    refine ⟨havailable, hstaged, ?_⟩
    rw [Workspace.handler, Ledger.enter_commit, List.append_nil]
    exact hstaged

variable {d : Directory} (start : Rel [] d)

include start

/-- At each point of a conversation the workspace goes with what was exchanged so far. -/
theorem Workspace.relates_of_arrives {α : Type} {x rest : Conversation α}
    {passed : List Exchange} {w : Workspace}
    (arrives : x.Arrives Workspace.handler (.ofStore (.holding d)) passed rest w) :
    w.Relates Rel (.ofExchanges passed) := by
  have hstart : (Workspace.ofStore (.holding d)).Relates Rel (.ofExchanges []) := ⟨rfl, start, start⟩
  have hpoint := arrives.invariant (fun passed w => w.Relates Rel (.ofExchanges passed))
    (fun call hrelates => by
      rw [Ledger.ofExchanges_concat]
      exact hrelates.enter keptUp call) hstart
  rwa [List.nil_append] at hpoint

theorem Store.undertake_relates {deed : Deed} {x : Conversation deed.Answer}
    (hconversation : deed.conversation? = some x) :
    ∃ d', ((Store.holding d).undertake deed).state = .holding d' ∧
      Rel (Ledger.ofExchanges ((Store.holding d).undertake deed).exchanges).settled d' := by
  obtain ⟨havailable, hdirectory, -⟩ :=
    Workspace.relates_of_arrives keptUp start (x.arrives_run Workspace.handler _)
  rw [Store.undertake_conversation _ hconversation, Store.exchanges_hold,
    (Store.hold_faultless x _).2]
  exact ⟨_, Store.eq_holding havailable, hdirectory⟩

end Relates

/-- What every deed adds to a relation is added by all deeds in order. -/
theorem Store.live_relates {β : Type} (Rel : List β → Directory → Prop) {kept : Record → List β}
    (step : ∀ (base : List β) (d : Directory) (deed : Deed), Rel base d →
      ∃ d', ((Store.holding d).undertake deed).state = .holding d' ∧
        Rel (base ++ kept ⟨deed, ((Store.holding d).undertake deed).value,
          ((Store.holding d).undertake deed).exchanges⟩) d')
    {base : List β} {d : Directory} (h : Rel base d) (deeds : List Deed) :
    ∃ d', ((Store.holding d).live deeds).2 = .holding d' ∧
      Rel (base ++ ((Store.holding d).live deeds).1.flatMap kept) d' := by
  induction deeds generalizing base d with
  | nil => exact ⟨d, rfl, (List.append_nil base).symm ▸ h⟩
  | cons deed deeds ih =>
    obtain ⟨d', hstate, hnext⟩ := step base d deed h
    obtain ⟨d'', hstore, hlater⟩ := ih hnext
    rw [Store.live_cons, hstate]
    refine ⟨d'', hstore, ?_⟩
    rwa [List.append_assoc] at hlater

/-! ## Runs of deeds -/

/-- **Every action lets a directory grow** by what it makes.  One that fails makes nothing, and
changes nothing. -/
theorem Directory.Grown.keptUp (base : Journal) :
    KeptUp fun actions d => d.Grown (base ++ made actions) := by
  intro actions w a h
  cases hdone : w.staged.perform a with
  | ok result =>
    simp only [Workspace.handler, hdone]
    rw [made_append, made_singleton, ← List.append_assoc]
    exact h.step (Directory.alters_perform hdone)
  | error e =>
    simp only [Workspace.handler, hdone]
    rw [made_append, made_singleton, made?_error, Option.toList_none, List.append_nil]
    exact h

namespace Directory.Grown

variable {base : Journal} {d : Directory} (h : d.Grown base)

include h

theorem append_nil : d.Grown (base ++ made []) := (List.append_nil base).symm ▸ h

/-- At each point of a conversation the workspace has grown by what was exchanged so far. -/
theorem point {α : Type} {x rest : Conversation α} {passed : List Exchange} {w : Workspace}
    (arrives : x.Arrives Workspace.handler (.ofStore (.holding d)) passed rest w) :
    w.Grown base (.ofExchanges passed) := by
  obtain ⟨havailable, hdirectory, hstaged⟩ :=
    Workspace.relates_of_arrives (keptUp base) h.append_nil arrives
  exact ⟨havailable, hdirectory, hstaged⟩

/-- A deed leaves an available store available, and its directory grown by what was kept. -/
theorem undertake (deed : Deed) :
    ∃ d', ((Store.holding d).undertake deed).state = .holding d' ∧
      d'.Grown (base ++ Record.kept ⟨deed, ((Store.holding d).undertake deed).value,
        ((Store.holding d).undertake deed).exchanges⟩) := by
  cases hconversation : deed.conversation? with
  | some x =>
    rw [Record.kept, Record.insertedUser?_conversation hconversation]
    exact Store.undertake_relates (keptUp base) h.append_nil hconversation
  | none =>
    cases deed with
    | step s =>
      cases s with
      | insertUser new => exact ⟨_, rfl, h.step (.insertUser new)⟩
      | softDelete id => exact ⟨_, rfl, h.step (d.alters_softDelete id)⟩
      | command c => cases hconversation
    | transact ofStore body => cases hconversation

theorem live (deeds : List Deed) :
    ∃ d', ((Store.holding d).live deeds).2 = .holding d' ∧
      d'.Grown (base ++ everKept ((Store.holding d).live deeds).1) :=
  Store.live_relates Grown (fun _ _ deed h => h.undertake deed) h deeds

end Directory.Grown

/-- **After all deeds on a fresh store** the store is available, and its directory has grown by all
that was kept. -/
theorem Store.live_grown (deeds : List Deed) :
    ∃ d, (({} : Store).live deeds).2 = .holding d ∧
      d.Grown (everKept (({} : Store).live deeds).1) :=
  Directory.Grown.start.live deeds

/-- **At each point of a deed** the directory, and the copy on which the transaction acts, have
grown by what was settled and what is pending. -/
theorem Store.live_point (deeds : List Deed) {α : Type} {x rest : Conversation α}
    {passed : List Exchange} {w : Workspace}
    (arrives : x.Arrives Workspace.handler (.ofStore (({} : Store).live deeds).2) passed rest w) :
    w.Grown (everKept (({} : Store).live deeds).1) (.ofExchanges passed) := by
  obtain ⟨d, hstore, hgrown⟩ := Store.live_grown deeds
  rw [hstore] at arrives
  exact hgrown.point arrives

end ClusterAccess
