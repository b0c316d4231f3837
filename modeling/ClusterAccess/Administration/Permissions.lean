import ClusterAccess.Administration.Groups
/-!
# Administration of permissions

Permissions on clusters are granted, revoked and listed.  A permission can be granted more than once
to the same subject; each time is a permission of its own.
-/

namespace ClusterAccess.Administration

/-- A subject has to exist to be given a permission. -/
def requireSubject : Subject → ExceptT AdminError Transaction Unit
  | .user id => do let _ ← requireUser id
  | .group id => do let _ ← requireGroup id

/-- Gives a subject access to a cluster. -/
def grant (subject : Subject) (cluster : ClusterId) :
    ExceptT AdminError Conversation Permission := do
  let permission ← transact do
    requireSubject subject
    act (.insertGrant subject cluster)
  ExceptT.lift (Dialogue.log (.permissionGranted permission.id cluster subject))
  return permission

/-- Removes a permission, which has to exist. -/
def removePermission (id : PermissionId) : ExceptT AdminError Transaction Permission := do
  match ← act (.grant id) with
  | some permission =>
    let _ ← act (.deleteGrant id)
    return permission
  | none => throw (.notFound (.permission id))

/-- Takes a permission back. -/
def revoke (id : PermissionId) : ExceptT AdminError Conversation Permission := do
  let permission ← transact (removePermission id)
  ExceptT.lift (Dialogue.log (.permissionRevoked id permission.cluster))
  return permission

def listPermissions (cluster : ClusterId) : ExceptT AdminError Conversation (List Permission) :=
  query (.grants cluster)

end ClusterAccess.Administration
