import ClusterAccess.Directory.Basic
import ClusterAccess.Store.Fault
/-!
# The store in memory

A store that answers from a directory.  A transaction acts on a copy, which takes the directory's
place when it is committed; so one that ends in any other way leaves no trace, and no query sees
half of one.  A store whose writer failed midway is closed: it answers `unavailable` from then on.
-/

namespace ClusterAccess

/-! ## Answers of a directory -/

/-- What a directory answers to a query. -/
def Directory.answer (d : Directory) : (q : Query) → q.hook.Answer
  | .user id => d.user? id
  | .users => d.users
  | .group id => d.group? id
  | .groups => d.groups
  | .membersOf group => d.members group
  | .groupsOf user => d.groupsOf user
  | .userGrant user cluster => d.userGrant? user cluster
  | .groupGrant groups cluster => d.groupGrant? groups cluster
  | .grantCount group => d.grantCount group
  | .grants cluster => d.grants cluster

/-- What an action answers and makes of a directory.  An action that fails makes nothing of it. -/
def Directory.perform (d : Directory) :
    (a : Action) → Except StoreError (a.hook.Answer × Directory)
  | .user id => .ok (d.user? id, d)
  | .group id => .ok (d.group? id, d)
  | .nameTaken name => .ok (d.nameTaken name, d)
  | .grantCount group => .ok (d.grantCount group, d)
  | .insertGroup name description => d.insertGroup name description
  | .deleteGroup id => .ok (d.deleteGroup id)
  | .insertMembership m => .ok (d.insertMembership m)
  | .deleteMembership m => .ok (d.deleteMembership m)
  | .deleteMemberships group => .ok (d.deleteMemberships group)
  | .grant id => .ok (d.permissions.find? id, d)
  | .insertGrant subject cluster => d.insertGrant subject cluster
  | .deleteGrant id => .ok (d.deleteGrant id)

/-! ## The store -/

structure Store where
  directory : Directory := {}
  /-- False once a writer has failed midway. -/
  available : Bool := true
deriving DecidableEq

namespace Store

/-- Answers a query.  That no group has no permission is known without looking. -/
def answer (store : Store) (q : Query) : Except StoreError q.hook.Answer :=
  match q with
  | .groupGrant [] _ => .ok none
  | q => if store.available then .ok (store.directory.answer q) else .error .poisoned

def insertUser (new : NewUser) (store : Store) : Except StoreError User × Store :=
  if store.available then
    let (user, directory) := store.directory.insertUser new
    (.ok user, { store with directory })
  else (.error .poisoned, store)

def softDelete (id : UserId) (store : Store) : Except StoreError Bool × Store :=
  if store.available then
    let (found, directory) := store.directory.softDelete id
    (.ok found, { store with directory })
  else (.error .poisoned, store)

/-- A writer fails midway, and the store is closed. -/
def poison (store : Store) : Except StoreError Unit × Store :=
  if store.available then (.ok (), { store with available := false })
  else (.error .poisoned, store)

end Store

/-! ## Conversations with the store -/

/-- A store and the copy on which its transaction acts. -/
structure Workspace where
  store : Store
  staged : Directory
deriving DecidableEq

/-- A workspace in which no transaction is under way. -/
def Workspace.ofStore (store : Store) : Workspace := { store, staged := store.directory }

/-- Answers every call from a workspace. -/
def Workspace.handler : Handler Workspace
  | .query q, w => (w.store.answer q, w)
  | .start, w =>
    if w.store.available then (.ok (), { w with staged := w.store.directory })
    else (.error .poisoned, w)
  | .action a, w =>
    match w.staged.perform a with
    | .ok (answer, staged) => (.ok answer, { w with staged })
    | .error e => (.error e, w)
  | .commit, w => (.ok (), { w with store := { w.store with directory := w.staged } })

/-- Holds a conversation with the store, behind faults. -/
def Store.hold {α : Type} (faults : List Fault) (conversation : Conversation α) (store : Store) :
    Outcome Store α :=
  let outcome := conversation.run (Fault.handler Workspace.handler) (faults, .ofStore store)
  { value := outcome.value, state := outcome.state.2.store, exchanges := outcome.exchanges,
    events := outcome.events }

end ClusterAccess
