/-!
# Tags of a user

A user carries a role, a status and the way the user signs in.  Each tag has a lower-case name,
which is also its form on the wire.  Roles and statuses are closed lists; a way of signing in that
is not known is kept under its name, so that reading and writing it loses nothing.
-/

namespace ClusterAccess

/-- A name that is none of the tags asked for. -/
inductive TagError where
  | unknownRole (name : String)
  | unknownStatus (name : String)
deriving DecidableEq

def TagError.message : TagError → String
  | .unknownRole name => "Invalid role: " ++ name
  | .unknownStatus name => "Invalid user status: " ++ name

/-! ## Roles -/

/-- What a user may do without any permission: an administrator has access to every cluster. -/
inductive Role where
  | admin
  | user
deriving DecidableEq

namespace Role

instance : Inhabited Role := ⟨.user⟩

def name : Role → String
  | .admin => "admin"
  | .user => "user"

/-- The capitalised name used in diagnostics. -/
def title : Role → String
  | .admin => "Admin"
  | .user => "User"

def isAdmin : Role → Bool
  | .admin => true
  | .user => false

/-- Names are compared exactly: neither case nor surrounding blanks are forgiven. -/
def ofName? (name : String) : Option Role :=
  if name = "admin" then some .admin else if name = "user" then some .user else none

def parse (name : String) : Except TagError Role :=
  match ofName? name with
  | some role => .ok role
  | none => .error (.unknownRole name)

theorem ofName?_name (role : Role) : ofName? role.name = some role := by
  cases role <;> decide

theorem name_of_ofName? {name : String} {role : Role} (h : ofName? name = some role) :
    role.name = name := by
  unfold ofName? at h
  split at h
  · cases h; symm; assumption
  · split at h
    · cases h; symm; assumption
    · cases h

end Role

/-! ## Statuses -/

/-- Whether a user's account is in use.  A status is recorded and reported; it decides nothing. -/
inductive Status where
  | active
  | disabled
deriving DecidableEq

namespace Status

instance : Inhabited Status := ⟨.active⟩

def name : Status → String
  | .active => "active"
  | .disabled => "disabled"

/-- The capitalised name used in diagnostics. -/
def title : Status → String
  | .active => "Active"
  | .disabled => "Disabled"

/-- Names are compared exactly, as those of roles are. -/
def ofName? (name : String) : Option Status :=
  if name = "active" then some .active else if name = "disabled" then some .disabled else none

def parse (name : String) : Except TagError Status :=
  match ofName? name with
  | some status => .ok status
  | none => .error (.unknownStatus name)

theorem ofName?_name (status : Status) : ofName? status.name = some status := by
  cases status <;> decide

theorem name_of_ofName? {name : String} {status : Status} (h : ofName? name = some status) :
    status.name = name := by
  unfold ofName? at h
  split at h
  · cases h; symm; assumption
  · split at h
    · cases h; symm; assumption
    · cases h

end Status

/-! ## Ways of signing in -/

/-- How a user signs in.  `other` is for the names this library does not know. -/
inductive AuthType where
  | builtIn
  | ldap
  | oidc
  | other (name : String)
deriving DecidableEq

namespace AuthType

instance : Inhabited AuthType := ⟨.builtIn⟩

def name : AuthType → String
  | .builtIn => "local"
  | .ldap => "ldap"
  | .oidc => "oidc"
  | .other name => name

/-- Every name is some way of signing in. -/
def ofName (name : String) : AuthType :=
  if name = "local" then .builtIn
  else if name = "ldap" then .ldap
  else if name = "oidc" then .oidc
  else .other name

def isKnown : AuthType → Bool
  | .other _ => false
  | _ => true

theorem name_ofName (name : String) : (ofName name).name = name := by
  unfold ofName
  split
  · symm; assumption
  · split
    · symm; assumption
    · split
      · symm; assumption
      · rfl

/-- A value is in normal form unless it keeps a name that is known like one that is not. -/
def IsNormal (auth : AuthType) : Prop :=
  auth ≠ .other "local" ∧ auth ≠ .other "ldap" ∧ auth ≠ .other "oidc"

instance (auth : AuthType) : Decidable auth.IsNormal := inferInstanceAs (Decidable (_ ∧ _ ∧ _))

theorem isNormal_ofName (name : String) : (ofName name).IsNormal := by
  unfold ofName
  split
  · exact ⟨nofun, nofun, nofun⟩
  · rename_i hlocal
    split
    · exact ⟨nofun, nofun, nofun⟩
    · rename_i hldap
      split
      · exact ⟨nofun, nofun, nofun⟩
      · rename_i hoidc
        exact ⟨fun h => hlocal (other.inj h), fun h => hldap (other.inj h),
          fun h => hoidc (other.inj h)⟩

/-- The values in normal form are those that their own names stand for. -/
theorem isNormal_iff {auth : AuthType} : auth.IsNormal ↔ ofName auth.name = auth := by
  refine ⟨fun ⟨hlocal, hldap, hoidc⟩ => ?_, fun h => h ▸ isNormal_ofName auth.name⟩
  cases auth with
  | other name =>
    rw [AuthType.name, ofName, if_neg fun h => hlocal (congrArg other h),
      if_neg fun h => hldap (congrArg other h), if_neg fun h => hoidc (congrArg other h)]
  | _ => rfl

end AuthType

end ClusterAccess
