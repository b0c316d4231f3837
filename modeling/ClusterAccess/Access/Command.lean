import ClusterAccess.Access.Resolution
import ClusterAccess.Administration.Permissions
/-!
# Commands

All that the service does for its callers: the operations of administration, and the decisions.
Each command has answers of a type of its own, and is carried out by a conversation with the store.
-/

namespace ClusterAccess

inductive Command where
  | createGroup (name description : String)
  | getGroup (id : GroupId)
  | listGroups
  | deleteGroup (id : GroupId)
  | addMember (group : GroupId) (user : UserId)
  | removeMember (group : GroupId) (user : UserId)
  | grant (subject : Subject) (cluster : ClusterId)
  | revoke (id : PermissionId)
  | listPermissions (cluster : ClusterId)
  | listUsers
  | hasAccess (user : UserId) (cluster : ClusterId)
  | resolve (user : UserId) (cluster : ClusterId)
  | authorize (principal : Principal) (cluster : ClusterId)
  | matrix (users : List UserId) (clusters : List ClusterId)

namespace Command

@[reducible] def Answer : Command → Type
  | .createGroup .. | .getGroup _ | .addMember .. | .removeMember .. => Except AdminError UserGroup
  | .listGroups => Except AdminError (List UserGroup)
  | .deleteGroup _ => Except AdminError Unit
  | .grant .. | .revoke _ => Except AdminError Permission
  | .listPermissions _ => Except AdminError (List Permission)
  | .listUsers => Except AdminError (List User)
  | .hasAccess .. => Bool
  | .resolve .. => Decision
  | .authorize .. => Except AccessDenied Unit
  | .matrix .. => List (List Decision)

def conversation : (c : Command) → Conversation c.Answer
  | .createGroup name description => Administration.createGroup name description
  | .getGroup id => Administration.getGroup id
  | .listGroups => Administration.listGroups
  | .deleteGroup id => Administration.deleteGroup id
  | .addMember group user => Administration.addMember group user
  | .removeMember group user => Administration.removeMember group user
  | .grant subject cluster => Administration.grant subject cluster
  | .revoke id => Administration.revoke id
  | .listPermissions cluster => Administration.listPermissions cluster
  | .listUsers => Administration.listUsers
  | .hasAccess user cluster => Access.hasAccess user cluster
  | .resolve user cluster => Access.resolve user cluster
  | .authorize principal cluster => Access.authorize principal cluster
  | .matrix users clusters => Access.matrix users clusters

end Command

end ClusterAccess
