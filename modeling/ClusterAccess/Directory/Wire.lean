import ClusterAccess.Directory.Record
import ClusterAccess.Json.Record
/-!
# Directory records on the wire

How ids, tags, users, groups, memberships and permissions are read from JSON and written to it.
Members are written in the order in which the records list their fields.
-/

namespace ClusterAccess

open Json (Field Reader Wire)

/-! ## Ids and tags -/

instance : Wire UserId where
  read nesting := UserId.mk <$> Wire.read nesting
  write id := Wire.write id.value

instance : Wire GroupId where
  read nesting := GroupId.mk <$> Wire.read nesting
  write id := Wire.write id.value

instance : Wire ClusterId where
  read nesting := ClusterId.mk <$> Wire.read nesting
  write id := Wire.write id.value

instance : Wire PermissionId where
  read nesting := PermissionId.mk <$> Wire.read nesting
  write id := Wire.write id.value

instance : Wire Role where
  read := Reader.tag Role.ofName?
  write role := .string role.name

instance : Wire Status where
  read := Reader.tag Status.ofName?
  write status := .string status.name

instance : Wire AuthType where
  read nesting := AuthType.ofName <$> Wire.read nesting
  write auth := .string auth.name

/-- A sorted set is read from items in any order, an item that is repeated counting once. -/
instance {κ : Type} [Key κ] [Wire κ] : Wire (SortedSet κ) where
  read nesting := Table.ofList <$> Wire.read (α := List κ) nesting
  write set := Wire.write set.rows

/-! ## Users -/

/-- The fields of a user that have been read. -/
structure User.Draft where
  id : Option UserId := none
  username : Option String := none
  role : Option Role := none
  status : Option Status := none
  authType : Option AuthType := none

namespace User.Draft

def fields {ε : Type} (nesting : Nat) : List (Field ε User.Draft) := [
  ⟨"id", (·.id.isSome), fun p => do return { p with id := some (← Wire.read nesting) }⟩,
  ⟨"username", (·.username.isSome),
    fun p => do return { p with username := some (← Wire.read nesting) }⟩,
  ⟨"role", (·.role.isSome), fun p => do return { p with role := some (← Wire.read nesting) }⟩,
  ⟨"status", (·.status.isSome),
    fun p => do return { p with status := some (← Wire.read nesting) }⟩,
  ⟨"auth_type", (·.authType.isSome),
    fun p => do return { p with authType := some (← Wire.read nesting) }⟩]

end User.Draft

instance : Wire User where
  read nesting := do
    let p ← Reader.record User.Draft.fields {} nesting
    return {
      id := ← Reader.require p.id
      username := ← Reader.require p.username
      role := ← Reader.require p.role
      status := ← Reader.require p.status
      authType := ← Reader.require p.authType }
  write user := .object [
    ("id", Wire.write user.id), ("username", Wire.write user.username),
    ("role", Wire.write user.role), ("status", Wire.write user.status),
    ("auth_type", Wire.write user.authType)]

/-- A description of a user needs a name only; the other tags have defaults. -/
instance : Wire NewUser where
  read nesting := do
    let p ← Reader.record (fun nesting => (User.Draft.fields nesting).tail) {} nesting
    return {
      username := ← Reader.require p.username
      role := p.role.getD default
      status := p.status.getD default
      authType := p.authType.getD default }
  write new := .object [
    ("username", Wire.write new.username), ("role", Wire.write new.role),
    ("status", Wire.write new.status), ("auth_type", Wire.write new.authType)]

/-! ## Groups and memberships -/

/-- The fields of a group that have been read. -/
structure UserGroup.Draft where
  id : Option GroupId := none
  name : Option String := none
  description : Option String := none
  memberIds : Option (SortedSet UserId) := none

def UserGroup.Draft.fields {ε : Type} (nesting : Nat) : List (Field ε UserGroup.Draft) := [
  ⟨"id", (·.id.isSome), fun p => do return { p with id := some (← Wire.read nesting) }⟩,
  ⟨"name", (·.name.isSome), fun p => do return { p with name := some (← Wire.read nesting) }⟩,
  ⟨"description", (·.description.isSome),
    fun p => do return { p with description := some (← Wire.read nesting) }⟩,
  ⟨"member_ids", (·.memberIds.isSome),
    fun p => do return { p with memberIds := some (← Wire.read nesting) }⟩]

instance : Wire UserGroup where
  read nesting := do
    let p ← Reader.record UserGroup.Draft.fields {} nesting
    return {
      id := ← Reader.require p.id
      name := ← Reader.require p.name
      description := ← Reader.require p.description
      memberIds := ← Reader.require p.memberIds }
  write group := .object [
    ("id", Wire.write group.id), ("name", Wire.write group.name),
    ("description", Wire.write group.description), ("member_ids", Wire.write group.memberIds)]

/-- The fields of a membership that have been read. -/
structure Membership.Draft where
  group : Option GroupId := none
  user : Option UserId := none

def Membership.Draft.fields {ε : Type} (nesting : Nat) : List (Field ε Membership.Draft) := [
  ⟨"group_id", (·.group.isSome),
    fun p => do return { p with group := some (← Wire.read nesting) }⟩,
  ⟨"user_id", (·.user.isSome), fun p => do return { p with user := some (← Wire.read nesting) }⟩]

instance : Wire Membership where
  read nesting := do
    let p ← Reader.record Membership.Draft.fields {} nesting
    return { group := ← Reader.require p.group, user := ← Reader.require p.user }
  write m := .object [("group_id", Wire.write m.group), ("user_id", Wire.write m.user)]

/-! ## Permissions -/

/-- The kinds of subjects, by which a subject's id is told to be a user's or a group's. -/
inductive SubjectKind where
  | user
  | group
deriving DecidableEq

def SubjectKind.ofName? (name : String) : Option SubjectKind :=
  if name = "user" then some .user else if name = "group" then some .group else none

/-- The subject of a kind with an id. -/
def SubjectKind.subject (kind : SubjectKind) (id : UInt64) : Subject :=
  match kind with
  | .user => .user ⟨id⟩
  | .group => .group ⟨id⟩

/-- The parts of a subject that have been read.  An id that comes before the kind is read as any
value, as it is not known yet what it names. -/
structure Subject.Draft where
  kind : Option SubjectKind := none
  id : Option UInt64 := none
  early : Option Json := none

/-- The fields of a subject whose kind is read in a way of its own. -/
def Subject.Draft.fieldsBy {ε : Type} (kind : (nesting : Nat) → Reader ε SubjectKind)
    (nesting : Nat) : List (Field ε Subject.Draft) := [
  ⟨"kind", (·.kind.isSome), fun p => do
    let kind ← kind nesting
    match p.early with
    | none => return { p with kind := some kind }
    | some (.number n) => return { p with kind := some kind, id := some (← Reader.require n.word?) }
    | some _ => Reader.unreadable⟩,
  ⟨"id", (fun p => p.id.isSome || p.early.isSome), fun p => do
    if p.kind.isSome then return { p with id := some (← Wire.read nesting) }
    else return { p with early := some (← Reader.value nesting) }⟩]

/-- The fields of a subject.  In an array the kind is a plain name. -/
def Subject.Draft.fields {ε : Type} (listed : Bool) :
    (nesting : Nat) → List (Field ε Subject.Draft) :=
  if listed then fieldsBy fun _ => Reader.name SubjectKind.ofName?
  else fieldsBy (Reader.tag SubjectKind.ofName?)

instance : Wire Subject where
  read nesting := do
    let listed := decide ((← Reader.look) = some '[')
    let p ← Reader.record (Subject.Draft.fields listed) {} nesting
    return (← Reader.require p.kind).subject (← Reader.require p.id)
  write
    | .user id => .object [("kind", .string "user"), ("id", Wire.write id)]
    | .group id => .object [("kind", .string "group"), ("id", Wire.write id)]

/-- The fields of a permission that have been read. -/
structure Permission.Draft where
  id : Option PermissionId := none
  cluster : Option ClusterId := none
  subject : Option Subject := none

def Permission.Draft.fields {ε : Type} (nesting : Nat) : List (Field ε Permission.Draft) := [
  ⟨"id", (·.id.isSome), fun p => do return { p with id := some (← Wire.read nesting) }⟩,
  ⟨"cluster_id", (·.cluster.isSome),
    fun p => do return { p with cluster := some (← Wire.read nesting) }⟩,
  ⟨"subject", (·.subject.isSome),
    fun p => do return { p with subject := some (← Wire.read nesting) }⟩]

instance : Wire Permission where
  read nesting := do
    let p ← Reader.record Permission.Draft.fields {} nesting
    return {
      id := ← Reader.require p.id
      cluster := ← Reader.require p.cluster
      subject := ← Reader.require p.subject }
  write permission := .object [
    ("id", Wire.write permission.id), ("cluster_id", Wire.write permission.cluster),
    ("subject", Wire.write permission.subject)]

end ClusterAccess
