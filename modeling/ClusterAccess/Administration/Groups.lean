import ClusterAccess.Store.Dialogue
import ClusterAccess.Text.Blank
/-!
# Administration of groups

User groups are created, listed, filled, emptied and deleted.  Each change is one transaction, so a
check and the change that rests on it see the same directory, and a refusal leaves no trace.  The
store's errors are passed on as they are.

A group's name is what remains of the name asked for without the blanks at its ends.
-/

namespace ClusterAccess.Administration

/-! ## Asking the store -/

/-- Asks for an action of the transaction under way, which a refusal breaks off. -/
def act (a : Action) : ExceptT AdminError Transaction a.hook.Answer :=
  ExceptT.adapt .store (ExceptT.mk (Dialogue.request a))

/-- Asks a query. -/
def query (q : Query) : ExceptT AdminError Conversation q.hook.Answer :=
  ExceptT.adapt .store (ExceptT.mk (Dialogue.request (Call.query q)))

/-- Holds a transaction. -/
def transact {α : Type} (body : ExceptT AdminError Transaction α) :
    ExceptT AdminError Conversation α :=
  Conversation.transaction .store body

/-- The group of an id, which has to exist. -/
def requireGroup (id : GroupId) : ExceptT AdminError Transaction UserGroup := do
  match ← act (.group id) with
  | some group => return group
  | none => throw (.notFound (.group id))

/-- The user of an id, who has to exist. -/
def requireUser (id : UserId) : ExceptT AdminError Transaction User := do
  match ← act (.user id) with
  | some user => return user
  | none => throw (.notFound (.user id))

/-! ## Creation -/

/-- Adds a group whose name has to be free.  A store's finding that it is not counts as ours. -/
def insertNamed (name description : String) : ExceptT AdminError Transaction UserGroup := do
  if ← act (.nameTaken name) then throw (.duplicateName name)
  else
    match ← ExceptT.lift (Dialogue.request (Action.insertGroup name description)) with
    | .ok group => return group
    | .error (.conflict _) => throw (.duplicateName name)
    | .error e => throw (.store e)

/-- Creates a group without members. -/
def createGroup (name description : String) : ExceptT AdminError Conversation UserGroup := do
  let name := Text.trim name
  if name = "" then throw .invalidName
  else
    let group ← transact (insertNamed name description)
    ExceptT.lift (Dialogue.log (.groupCreated group.id group.name))
    return group

/-! ## Reading -/

def getGroup (id : GroupId) : ExceptT AdminError Conversation UserGroup := do
  match ← query (.group id) with
  | some group => return group
  | none => throw (.notFound (.group id))

def listGroups : ExceptT AdminError Conversation (List UserGroup) := query .groups

def listUsers : ExceptT AdminError Conversation (List User) := query .users

/-! ## Deletion -/

/-- Removes a group that no permission names, with its memberships, and tells how many those
were. -/
def removeGroup (id : GroupId) : ExceptT AdminError Transaction UInt64 := do
  let _ ← requireGroup id
  let permissions ← act (.grantCount id)
  if 0 < permissions then throw (.referenced id permissions)
  else
    let members ← act (.deleteMemberships id)
    if ← act (.deleteGroup id) then return members else throw (.notFound (.group id))

/-- Deletes a group.  A group that permissions name stays as it is. -/
def deleteGroup (id : GroupId) : ExceptT AdminError Conversation Unit := do
  match ← ExceptT.lift (transact (removeGroup id)).run with
  | .ok members => ExceptT.lift (Dialogue.log (.groupDeleted id members))
  | .error (.referenced group permissions) =>
    ExceptT.lift (Dialogue.log (.groupDeletionBlocked group permissions))
    throw (.referenced group permissions)
  | .error e => throw e

/-! ## Members -/

/-- Adds a user to a group.  A user who is in it already stays in it. -/
def addMember (group : GroupId) (user : UserId) : ExceptT AdminError Conversation UserGroup :=
  transact do
    let _ ← requireGroup group
    let _ ← requireUser user
    if ← act (.insertMembership { group, user }) then
      ExceptT.lift (Dialogue.log (.memberAdded group user))
    requireGroup group

/-- Removes a user from a group.  A user who is not in it, or not at all, stays out of it. -/
def removeMember (group : GroupId) (user : UserId) : ExceptT AdminError Conversation UserGroup :=
  transact do
    let _ ← requireGroup group
    if ← act (.deleteMembership { group, user }) then
      ExceptT.lift (Dialogue.log (.memberRemoved group user))
    requireGroup group

end ClusterAccess.Administration
