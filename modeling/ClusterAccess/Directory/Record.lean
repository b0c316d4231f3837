import ClusterAccess.Table
import ClusterAccess.Tag
/-!
# Records of the directory

The values that the directory stores and reports: users, user groups, memberships and permissions
on clusters.  A permission is given to a *subject*, which is a user or a whole group.
-/

namespace ClusterAccess

/-! ## Users -/

structure User where
  id : UserId
  username : String
  role : Role
  status : Status
  authType : AuthType
deriving DecidableEq

def User.isAdmin (user : User) : Bool := user.role.isAdmin

/-- What has to be said of a user before the directory gives it an id. -/
structure NewUser where
  username : String
  role : Role := default
  status : Status := default
  authType : AuthType := default
deriving DecidableEq

/-- The user that a description becomes under an id. -/
def NewUser.withId (new : NewUser) (id : UserId) : User :=
  { id, username := new.username, role := new.role, status := new.status, authType := new.authType }

/-! ## Groups and memberships -/

/-- A group as readers see it: with the users that are in it and not deleted. -/
structure UserGroup where
  id : GroupId
  name : String
  description : String
  memberIds : SortedSet UserId
deriving DecidableEq

def UserGroup.hasMember (group : UserGroup) (user : UserId) : Bool :=
  group.memberIds.contains user

/-- One user's belonging to one group. -/
@[ext] structure Membership where
  group : GroupId
  user : UserId
deriving DecidableEq

/-- Memberships are ordered by group, and within a group by user. -/
instance : Key Membership :=
  .ofInjective (fun m => (m.group, m.user)) fun h =>
    Membership.ext (congrArg Prod.fst h) (congrArg Prod.snd h)

/-! ## Permissions -/

/-- To whom a permission is given. -/
inductive Subject where
  | user (id : UserId)
  | group (id : GroupId)
deriving DecidableEq

/-- The spelling of a subject in diagnostics, with the kinds of its parts. -/
def Subject.describe : Subject → String
  | .user id => "User(UserId(" ++ toString id.value ++ "))"
  | .group id => "Group(GroupId(" ++ toString id.value ++ "))"

/-- A subject's access to a cluster. -/
structure Permission where
  id : PermissionId
  cluster : ClusterId
  subject : Subject
deriving DecidableEq

namespace Permission

def isForUser (permission : Permission) (user : UserId) : Bool :=
  decide (permission.subject = .user user)

def isForGroup (permission : Permission) (group : GroupId) : Bool :=
  decide (permission.subject = .group group)

/-- Whether the permission is given to one of the groups listed. -/
def isForOneOf (permission : Permission) (groups : List GroupId) : Bool :=
  match permission.subject with
  | .group id => groups.contains id
  | .user _ => false

end Permission

end ClusterAccess
