import ClusterAccess.Directory.Wire
/-!
# Decisions

Whether a user may access a cluster, and why.
-/

namespace ClusterAccess

open Json (Wire)

inductive DenyReason where
  | noGrant
  | unknownUser
  | lookupFailed
deriving DecidableEq

def DenyReason.name : DenyReason → String
  | .noGrant => "no_grant"
  | .unknownUser => "unknown_user"
  | .lookupFailed => "lookup_failed"

/-- The capitalised name used in diagnostics. -/
def DenyReason.title : DenyReason → String
  | .noGrant => "NoGrant"
  | .unknownUser => "UnknownUser"
  | .lookupFailed => "LookupFailed"

inductive Decision where
  /-- A permission names the user. -/
  | directGrant (permission : PermissionId)
  /-- A permission names a group of the user's. -/
  | groupGrant (group : GroupId) (permission : PermissionId)
  /-- The user is an administrator. -/
  | adminRole
  | denied (reason : DenyReason)
deriving DecidableEq

namespace Decision

def isGranted : Decision → Bool
  | .denied _ => false
  | _ => true

/-- The spelling of a decision in diagnostics. -/
def describe : Decision → String
  | .directGrant permission =>
    "DirectGrant \x7b permission_id: PermissionId(" ++ toString permission.value ++ ") \x7d"
  | .groupGrant group permission =>
    "GroupGrant \x7b group_id: GroupId(" ++ toString group.value ++
      "), permission_id: PermissionId(" ++ toString permission.value ++ ") \x7d"
  | .adminRole => "AdminRole"
  | .denied reason => "Denied \x7b reason: " ++ reason.title ++ " \x7d"

def write : Decision → Json
  | .directGrant permission => .object [
    ("decision", .string "direct_grant"), ("permission_id", Wire.write permission)]
  | .groupGrant group permission => .object [
    ("decision", .string "group_grant"), ("group_id", Wire.write group),
    ("permission_id", Wire.write permission)]
  | .adminRole => .object [("decision", .string "admin_role")]
  | .denied reason => .object [("decision", .string "denied"), ("reason", .string reason.name)]

end Decision

end ClusterAccess
