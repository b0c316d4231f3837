import ClusterAccess.Error
/-!
# The directory

Everything that is stored: accounts of users, user groups, memberships and permissions, each in a
table of its own, and for each kind of id the last one that was given out.  Ids are given out from
one upwards and never twice; removing a row gives no id back.

A user who is deleted stays in the accounts, with memberships and permissions, and is only hidden
from those who read users.  The changes below keep the tables apart: none of them looks at more than
it has to, and it is the operations of administration that keep the tables consistent with one
another.
-/

namespace ClusterAccess

/-- A user as the directory keeps it. -/
structure Account where
  user : User
  deleted : Bool := false
deriving DecidableEq

/-- The user of an account, unless deleted. -/
def Account.live? (account : Account) : Option User :=
  if account.deleted then none else some account.user

/-- A group as the directory keeps it; its members are in the memberships. -/
structure GroupRecord where
  id : GroupId
  name : String
  description : String
deriving DecidableEq

structure Directory where
  accounts : Table UserId (fun account : Account => account.user.id) := .empty
  groupRecords : Table GroupId GroupRecord.id := .empty
  memberships : SortedSet Membership := .empty
  permissions : Table PermissionId Permission.id := .empty
  lastUser : UInt64 := 0
  lastGroup : UInt64 := 0
  lastPermission : UInt64 := 0
deriving DecidableEq

namespace Directory

/-! ## Reading -/

def user? (d : Directory) (id : UserId) : Option User :=
  (d.accounts.find? id).bind Account.live?

def users (d : Directory) : List User := d.accounts.rows.filterMap Account.live?

/-- The members of a group that are not deleted. -/
def members (d : Directory) (group : GroupId) : SortedSet UserId :=
  .ofList ((d.memberships.rows.filter fun m =>
    decide (m.group = group) && (d.user? m.user).isSome).map Membership.user)

/-- A group as readers see it. -/
def resolve (d : Directory) (record : GroupRecord) : UserGroup :=
  { id := record.id, name := record.name, description := record.description,
    memberIds := d.members record.id }

def group? (d : Directory) (id : GroupId) : Option UserGroup :=
  (d.groupRecords.find? id).map d.resolve

def groups (d : Directory) : List UserGroup := d.groupRecords.rows.map d.resolve

/-- The groups that a user is in, whether or not the user is deleted. -/
def groupsOf (d : Directory) (user : UserId) : List GroupId :=
  (d.memberships.rows.filter fun m => decide (m.user = user)).map Membership.group

def nameTaken (d : Directory) (name : String) : Bool :=
  d.groupRecords.rows.any fun record => decide (record.name = name)

/-- Whether a permission can be given to a subject. -/
def subjectExists (d : Directory) : Subject → Bool
  | .user id => (d.user? id).isSome
  | .group id => d.groupRecords.contains id

/-- The first permission on a cluster that names the user. -/
def userGrant? (d : Directory) (user : UserId) (cluster : ClusterId) : Option Permission :=
  d.permissions.rows.find? fun p => decide (p.cluster = cluster) && p.isForUser user

/-- The first permission on a cluster that names one of the groups. -/
def groupGrant? (d : Directory) (groups : List GroupId) (cluster : ClusterId) :
    Option Permission :=
  d.permissions.rows.find? fun p => decide (p.cluster = cluster) && p.isForOneOf groups

/-- How many permissions name a group. -/
def grantCount (d : Directory) (group : GroupId) : UInt64 :=
  .ofNat (d.permissions.rows.countP (·.isForGroup group))

/-- The permissions on a cluster. -/
def grants (d : Directory) (cluster : ClusterId) : List Permission :=
  d.permissions.rows.filter fun p => decide (p.cluster = cluster)

/-! ## Changing users -/

/-- Adds a user under the next id. -/
def insertUser (new : NewUser) (d : Directory) : User × Directory :=
  let user := new.withId ⟨d.lastUser + 1⟩
  (user, { d with accounts := d.accounts.insert { user }, lastUser := d.lastUser + 1 })

/-- Deletes a user, and tells whether there was one to delete. -/
def softDelete (id : UserId) (d : Directory) : Bool × Directory :=
  match d.user? id with
  | some user => (true, { d with accounts := d.accounts.insert { user, deleted := true } })
  | none => (false, d)

/-! ## Changing groups and memberships -/

/-- Adds a group under the next id, if its name is free. -/
def insertGroup (name description : String) (d : Directory) :
    Except StoreError (UserGroup × Directory) :=
  if d.nameTaken name then .error (.duplicateGroup name)
  else
    let id : GroupId := ⟨d.lastGroup + 1⟩
    .ok ({ id, name, description, memberIds := .empty },
      { d with
        groupRecords := d.groupRecords.insert { id, name, description }
        lastGroup := d.lastGroup + 1 })

/-- Removes a group's record alone, and tells whether there was one. -/
def deleteGroup (id : GroupId) (d : Directory) : Bool × Directory :=
  (d.groupRecords.contains id, { d with groupRecords := d.groupRecords.erase id })

/-- Adds a membership, and tells whether it is new. -/
def insertMembership (m : Membership) (d : Directory) : Bool × Directory :=
  (!d.memberships.contains m, { d with memberships := d.memberships.insert m })

/-- Removes a membership, and tells whether there was one. -/
def deleteMembership (m : Membership) (d : Directory) : Bool × Directory :=
  (d.memberships.contains m, { d with memberships := d.memberships.erase m })

/-- Removes all memberships of a group, and tells how many there were. -/
def deleteMemberships (group : GroupId) (d : Directory) : UInt64 × Directory :=
  (.ofNat (d.memberships.rows.countP fun m => decide (m.group = group)),
    { d with memberships := d.memberships.filter fun m => !decide (m.group = group) })

/-! ## Changing permissions -/

/-- Adds a permission under the next id, if its subject exists. -/
def insertGrant (subject : Subject) (cluster : ClusterId) (d : Directory) :
    Except StoreError (Permission × Directory) :=
  if d.subjectExists subject then
    let permission : Permission := { id := ⟨d.lastPermission + 1⟩, cluster, subject }
    .ok (permission,
      { d with
        permissions := d.permissions.insert permission
        lastPermission := d.lastPermission + 1 })
  else .error (.missingSubject subject)

/-- Removes a permission, and tells whether there was one. -/
def deleteGrant (id : PermissionId) (d : Directory) : Bool × Directory :=
  (d.permissions.contains id, { d with permissions := d.permissions.erase id })

end Directory

end ClusterAccess
