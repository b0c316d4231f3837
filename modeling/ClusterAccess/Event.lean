import ClusterAccess.Access.Decision
import ClusterAccess.Error
import ClusterAccess.Identity.Error
/-!
# Events

What is logged.  Events are values that operations produce beside their results; an event that is
noted in a transaction stays noted when the transaction comes to nothing.
-/

namespace ClusterAccess

/-- The steps of a decision at which a store's failure can be absorbed. -/
inductive ResolutionStep where
  | directGrant
  | groupMembership
  | groupGrant
  | roleDefault
deriving DecidableEq

def ResolutionStep.name : ResolutionStep → String
  | .directGrant => "direct_grant"
  | .groupMembership => "group_membership"
  | .groupGrant => "group_grant"
  | .roleDefault => "role_default"

inductive Level where
  | debug
  | info
  | warn
deriving DecidableEq

def Level.name : Level → String
  | .debug => "DEBUG"
  | .info => "INFO"
  | .warn => "WARN"

inductive Event where
  | groupCreated (group : GroupId) (name : String)
  | groupDeleted (group : GroupId) (members : UInt64)
  | groupDeletionBlocked (group : GroupId) (permissions : UInt64)
  | memberAdded (group : GroupId) (user : UserId)
  | memberRemoved (group : GroupId) (user : UserId)
  | permissionGranted (permission : PermissionId) (cluster : ClusterId) (subject : Subject)
  | permissionRevoked (permission : PermissionId) (cluster : ClusterId)
  /-- The store failed while access was decided, and the decision went on without the answer. -/
  | failureAbsorbed (step : ResolutionStep) (user : UserId) (cluster : ClusterId)
      (error : StoreError)
  | accessResolved (user : UserId) (cluster : ClusterId) (decision : Decision)
  | principalEstablished (user : UserId)
  | credentialRejected (error : IdentityError)

namespace Event

def level : Event → Level
  | .failureAbsorbed .. | .credentialRejected _ => .warn
  | .accessResolved .. | .principalEstablished _ => .debug
  | _ => .info

def message : Event → String
  | .groupCreated .. => "user group created"
  | .groupDeleted .. => "user group deleted"
  | .groupDeletionBlocked .. => "user group deletion blocked by cluster permissions"
  | .memberAdded .. => "user added to group"
  | .memberRemoved .. => "user removed from group"
  | .permissionGranted .. => "cluster permission granted"
  | .permissionRevoked .. => "cluster permission revoked"
  | .failureAbsorbed .. => "store error absorbed during access resolution"
  | .accessResolved .. => "cluster access resolved"
  | .principalEstablished _ => "request principal established"
  | .credentialRejected _ => "request credential rejected"

/-- An id as it is logged. -/
private def text (id : UInt64) : Json := .string (toString id)

/-- The named parts of an event: ids are texts, counts are numbers. -/
def fields : Event → List (String × Json)
  | .groupCreated group name => [("group_id", text group.value), ("name", .string name)]
  | .groupDeleted group members => [("group_id", text group.value), ("members", .ofWord members)]
  | .groupDeletionBlocked group permissions =>
    [("group_id", text group.value), ("grants", .ofWord permissions)]
  | .memberAdded group user | .memberRemoved group user =>
    [("group_id", text group.value), ("user_id", text user.value)]
  | .permissionGranted permission cluster subject =>
    [("permission_id", text permission.value), ("cluster_id", text cluster.value),
      ("subject", .string subject.describe)]
  | .permissionRevoked permission cluster =>
    [("permission_id", text permission.value), ("cluster_id", text cluster.value)]
  | .failureAbsorbed step user cluster error =>
    [("step", .string step.name), ("user_id", text user.value),
      ("cluster_id", text cluster.value), ("error", .string error.message)]
  | .accessResolved user cluster decision =>
    [("user_id", text user.value), ("cluster_id", text cluster.value),
      ("decision", .string decision.describe)]
  | .principalEstablished user => [("user_id", text user.value)]
  | .credentialRejected error => [("error", .string error.message)]

def write (event : Event) : Json := .object [
  ("level", .string event.level.name), ("message", .string event.message),
  ("fields", .object event.fields)]

end Event

end ClusterAccess
