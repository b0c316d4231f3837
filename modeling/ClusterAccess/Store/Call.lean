import ClusterAccess.Error
/-!
# Calls to a store

All that a store can be asked.  *Queries* read what is committed.  A *transaction* is started, acts
on a copy of its own by *actions*, and takes effect when it is committed; one that is not committed
never happened.  Each call is of a kind, its *hook*, which alone says what the call answers.
-/

namespace ClusterAccess

/-! ## Kinds of calls -/

inductive Hook where
  | getUser
  | listUsers
  | getGroup
  | listGroups
  | groupMembers
  | userGroups
  | findUserGrant
  | findGroupGrant
  | countGroupGrants
  | listClusterGrants
  | transaction
  | txGetUser
  | txGetGroup
  | txNameTaken
  | txCountGrants
  | txInsertGroup
  | txDeleteGroup
  | txInsertMembership
  | txDeleteMembership
  | txDeleteMemberships
  | txGetGrant
  | txInsertGrant
  | txDeleteGrant
  | commit
deriving DecidableEq

namespace Hook

def name : Hook → String
  | .getUser => "get_user"
  | .listUsers => "list_users"
  | .getGroup => "get_group"
  | .listGroups => "list_groups"
  | .groupMembers => "get_group_member_ids"
  | .userGroups => "group_ids_for_user"
  | .findUserGrant => "find_user_grant"
  | .findGroupGrant => "find_group_grant"
  | .countGroupGrants => "count_grants_for_group"
  | .listClusterGrants => "list_grants_for_cluster"
  | .transaction => "transaction"
  | .txGetUser => "tx.get_user"
  | .txGetGroup => "tx.get_group"
  | .txNameTaken => "tx.group_name_taken"
  | .txCountGrants => "tx.count_grants_for_group"
  | .txInsertGroup => "tx.insert_group"
  | .txDeleteGroup => "tx.delete_group"
  | .txInsertMembership => "tx.insert_membership"
  | .txDeleteMembership => "tx.delete_membership"
  | .txDeleteMemberships => "tx.delete_memberships"
  | .txGetGrant => "tx.get_grant"
  | .txInsertGrant => "tx.insert_grant"
  | .txDeleteGrant => "tx.delete_grant"
  | .commit => "commit"

def all : List Hook :=
  [.getUser, .listUsers, .getGroup, .listGroups, .groupMembers, .userGroups, .findUserGrant,
    .findGroupGrant, .countGroupGrants, .listClusterGrants, .transaction, .txGetUser, .txGetGroup,
    .txNameTaken, .txCountGrants, .txInsertGroup, .txDeleteGroup, .txInsertMembership,
    .txDeleteMembership, .txDeleteMemberships, .txGetGrant, .txInsertGrant, .txDeleteGrant, .commit]

def ofName? (name : String) : Option Hook := all.find? fun hook => decide (hook.name = name)

/-- What calls of a kind answer when they succeed. -/
@[reducible] def Answer : Hook → Type
  | .getUser | .txGetUser => Option User
  | .listUsers => List User
  | .getGroup | .txGetGroup => Option UserGroup
  | .listGroups => List UserGroup
  | .groupMembers => SortedSet UserId
  | .userGroups => List GroupId
  | .findUserGrant | .findGroupGrant | .txGetGrant => Option Permission
  | .countGroupGrants | .txCountGrants | .txDeleteMemberships => UInt64
  | .listClusterGrants => List Permission
  | .txNameTaken | .txDeleteGroup | .txInsertMembership | .txDeleteMembership | .txDeleteGrant =>
    Bool
  | .txInsertGroup => UserGroup
  | .txInsertGrant => Permission
  | .transaction | .commit => Unit

end Hook

/-! ## Calls -/

/-- A question about what is committed. -/
inductive Query where
  | user (id : UserId)
  | users
  | group (id : GroupId)
  | groups
  | membersOf (group : GroupId)
  | groupsOf (user : UserId)
  | userGrant (user : UserId) (cluster : ClusterId)
  | groupGrant (groups : List GroupId) (cluster : ClusterId)
  | grantCount (group : GroupId)
  | grants (cluster : ClusterId)

/-- A step inside a transaction. -/
inductive Action where
  | user (id : UserId)
  | group (id : GroupId)
  | nameTaken (name : String)
  | grantCount (group : GroupId)
  | insertGroup (name description : String)
  | deleteGroup (id : GroupId)
  | insertMembership (membership : Membership)
  | deleteMembership (membership : Membership)
  | deleteMemberships (group : GroupId)
  | grant (id : PermissionId)
  | insertGrant (subject : Subject) (cluster : ClusterId)
  | deleteGrant (id : PermissionId)

inductive Call where
  | query (q : Query)
  | start
  | action (a : Action)
  | commit

@[reducible] def Query.hook : Query → Hook
  | .user _ => .getUser
  | .users => .listUsers
  | .group _ => .getGroup
  | .groups => .listGroups
  | .membersOf _ => .groupMembers
  | .groupsOf _ => .userGroups
  | .userGrant .. => .findUserGrant
  | .groupGrant .. => .findGroupGrant
  | .grantCount _ => .countGroupGrants
  | .grants _ => .listClusterGrants

@[reducible] def Action.hook : Action → Hook
  | .user _ => .txGetUser
  | .group _ => .txGetGroup
  | .nameTaken _ => .txNameTaken
  | .grantCount _ => .txCountGrants
  | .insertGroup .. => .txInsertGroup
  | .deleteGroup _ => .txDeleteGroup
  | .insertMembership _ => .txInsertMembership
  | .deleteMembership _ => .txDeleteMembership
  | .deleteMemberships _ => .txDeleteMemberships
  | .grant _ => .txGetGrant
  | .insertGrant .. => .txInsertGrant
  | .deleteGrant _ => .txDeleteGrant

@[reducible] def Call.hook : Call → Hook
  | .query q => q.hook
  | .start => .transaction
  | .action a => a.hook
  | .commit => .commit

end ClusterAccess
