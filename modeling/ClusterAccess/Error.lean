import ClusterAccess.Text.Quoted
import ClusterAccess.Directory.Record
/-!
# Errors

Each error is a cause; its wording is in one function.  Errors of the store keep a text of their
own, since a store may be anything that answers calls: the causes that this library's own store
gives are named below.
-/

namespace ClusterAccess

/-! ## Errors of a store -/

/-- A store's refusal to answer a call. -/
inductive StoreError where
  /-- The store cannot be reached or cannot be trusted any more. -/
  | unavailable (detail : String)
  /-- The change asked for contradicts what is stored. -/
  | conflict (detail : String)
  /-- Anything else. -/
  | internal (detail : String)
deriving DecidableEq

namespace StoreError

def message : StoreError → String
  | .unavailable detail => "Store unavailable: " ++ detail
  | .conflict detail => "Store conflict: " ++ detail
  | .internal detail => "Store error: " ++ detail

/-- A writer failed midway, so the tables are closed for good. -/
def poisoned : StoreError := .unavailable "memory store lock poisoned"

/-- A group of that name is stored already. -/
def duplicateGroup (name : String) : StoreError :=
  .conflict ("duplicate group name " ++ Text.quoted name)

/-- There is nobody to give the permission to. -/
def missingSubject (subject : Subject) : StoreError :=
  .conflict ("grant subject " ++ subject.describe ++ " does not exist")

/-- A lookup of groups' permissions answered with a user's permission. -/
def wrongSubject (permission : PermissionId) : StoreError :=
  .internal ("group grant lookup returned user grant " ++ toString permission.value)

end StoreError

/-! ## Errors of administration -/

/-- What an id that was not found should have named. -/
inductive Entity where
  | user (id : UserId)
  | group (id : GroupId)
  | permission (id : PermissionId)
deriving DecidableEq

def Entity.describe : Entity → String
  | .user id => "user " ++ toString id.value
  | .group id => "user group " ++ toString id.value
  | .permission id => "cluster permission " ++ toString id.value

/-- The entity that a permission's subject names. -/
def Subject.entity : Subject → Entity
  | .user id => .user id
  | .group id => .group id

/-- Why an administrative operation was refused. -/
inductive AdminError where
  | notFound (entity : Entity)
  | duplicateName (name : String)
  /-- The group cannot go while permissions name it. -/
  | referenced (group : GroupId) (permissions : UInt64)
  | invalidName
  /-- The store failed; its error is passed on as it is. -/
  | store (error : StoreError)
deriving DecidableEq

def AdminError.message : AdminError → String
  | .notFound entity => entity.describe ++ " not found"
  | .duplicateName name => "User group name already exists: " ++ name
  | .referenced group permissions =>
    "User group " ++ toString group.value ++ " is referenced by " ++ toString permissions ++
      " cluster permission(s)"
  | .invalidName => "User group name must not be empty"
  | .store error => error.message

/-! ## Denied access -/

/-- A user's request for a cluster to which the user has no access. -/
structure AccessDenied where
  user : UserId
  cluster : ClusterId
deriving DecidableEq

def AccessDenied.message (denied : AccessDenied) : String :=
  "User " ++ toString denied.user.value ++ " has no access to cluster " ++
    toString denied.cluster.value

end ClusterAccess
