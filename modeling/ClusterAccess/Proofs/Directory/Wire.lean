import ClusterAccess.Directory.Wire
import ClusterAccess.Proofs.Json.Lists
import ClusterAccess.Proofs.Json.Records
import ClusterAccess.Proofs.Table

/-!
# Directory records on the wire and back

Every value of the directory is read back from the text that is written for it, and every text that
is read at all has the same value as the text that is then written (`RoundTrips`).  There is one
exception, which is no value that is ever read: a way of signing in that is known, but is kept under
its name like one that is not known.  A value without it is in normal form.

A value is read back wherever it stands (`Reads`), so that the records are read back field by field,
and records inside of records.
-/

namespace ClusterAccess

open Json (Field Folds Reader Reads Wire)

/-! ## Round trips -/

namespace Json

/-- Reading undoes writing for values in normal form, and only these are ever read: whatever text a
value is read from, its own text is read as the same value, and is written again for it. -/
def RoundTrips {α : Type} (parse? : String → Option α) (render : α → String)
    (IsNormal : α → Prop) : Prop :=
  (∀ a, IsNormal a → parse? (render a) = some a) ∧
    ∀ text a, parse? text = some a →
      IsNormal a ∧ parse? (render a) = some a ∧ (parse? (render a)).map render = some (render a)

theorem RoundTrips.intro {α : Type} {parse? : String → Option α} {render : α → String}
    {IsNormal : α → Prop} (back : ∀ a, IsNormal a → parse? (render a) = some a)
    (normal : ∀ text a, parse? text = some a → IsNormal a) : RoundTrips parse? render IsNormal := by
  refine ⟨back, fun text a h => ?_⟩
  have hback := back a (normal text a h)
  exact ⟨normal text a h, hback, congrArg (Option.map render) hback⟩

theorem Reads.source {ε α : Type} {x : Reader ε α} {value : Json} {a : α}
    (h : Reads x value.write a) : x (Text.pieces value.render) = .ok a [] := by
  have hall := h [] trivial
  rw [List.append_nil] at hall
  rw [Text.pieces, render, String.toList_ofList, hall]

namespace Wire

variable {α : Type} [Wire α]

theorem parse?_ok {text : String} {a : α} (h : parse? text = some a) :
    ∃ r, read (ε := Empty) Reader.greatestNesting (Text.pieces text) = .ok a r := by
  unfold parse? at h
  split at h
  · rename_i b hread
    obtain ⟨r, hread, -⟩ := Reader.readAll_ok hread
    cases h
    exact ⟨r, hread⟩
  · cases h

/-- The texts of a form are read back if the form is, wherever it stands. -/
theorem roundTrips {IsNormal : α → Prop}
    (back : ∀ a, IsNormal a → Reads (read (ε := Empty) Reader.greatestNesting) (write a).write a)
    (normal : ∀ ⦃s a r⦄, read (ε := Empty) Reader.greatestNesting s = .ok a r → IsNormal a) :
    RoundTrips (parse? (α := α)) render IsNormal := by
  refine .intro (fun a ha => ?_) fun text a h => ?_
  · have hread := Reader.readAll_of_ok (back a ha).source
    simp only [parse?, render, hread]
  · obtain ⟨r, hread⟩ := parse?_ok h
    exact normal hread

/-- Without a distinction of normal forms. -/
theorem roundTrips_of_reads
    (back : ∀ a : α, Reads (read (ε := Empty) Reader.greatestNesting) (write a).write a) :
    RoundTrips (parse? (α := α)) render fun _ => True :=
  roundTrips (fun a _ => back a) fun _ _ _ _ => trivial

end Wire

end Json

/-! ## Ids and tags -/

section Atoms

variable {ε : Type} (nesting : Nat)

theorem reads_userId (id : UserId) :
    Reads (Wire.read (ε := ε) nesting) (Wire.write id).write id :=
  (Reader.reads_word id.value).map UserId.mk

theorem reads_groupId (id : GroupId) :
    Reads (Wire.read (ε := ε) nesting) (Wire.write id).write id :=
  (Reader.reads_word id.value).map GroupId.mk

theorem reads_clusterId (id : ClusterId) :
    Reads (Wire.read (ε := ε) nesting) (Wire.write id).write id :=
  (Reader.reads_word id.value).map ClusterId.mk

theorem reads_permissionId (id : PermissionId) :
    Reads (Wire.read (ε := ε) nesting) (Wire.write id).write id :=
  (Reader.reads_word id.value).map PermissionId.mk

theorem reads_string (text : String) :
    Reads (Wire.read (ε := ε) nesting) (Wire.write text).write text :=
  fun _ _ => Reader.string_write text

theorem reads_role (role : Role) :
    Reads (Wire.read (ε := ε) nesting) (Wire.write role).write role :=
  Reader.reads_tag role.ofName?_name nesting

theorem reads_status (status : Status) :
    Reads (Wire.read (ε := ε) nesting) (Wire.write status).write status :=
  Reader.reads_tag status.ofName?_name nesting

theorem reads_authType {auth : AuthType} (normal : auth.IsNormal) :
    Reads (Wire.read (ε := ε) nesting) (Wire.write auth).write auth := by
  have hread := (reads_string (ε := ε) nesting auth.name).map AuthType.ofName
  rwa [AuthType.isNormal_iff.mp normal] at hread

theorem isNormal_of_read {s r : Json.Source} {auth : AuthType}
    (h : Wire.read (ε := ε) nesting s = .ok auth r) : auth.IsNormal := by
  obtain ⟨name, -, rfl⟩ := Reader.map_ok h
  exact AuthType.isNormal_ofName name

/-- A set is written in ascending order, in which it is put together again. -/
theorem reads_userIds (set : SortedSet UserId) :
    Reads (Wire.read (ε := ε) (nesting + 1)) (Wire.write set).write set := by
  have harray : Reads (Reader.array (Wire.read (ε := ε) nesting))
      (Json.array (set.rows.map Wire.write)).write set.rows :=
    Reader.reads_array (fun id _ => reads_userId nesting id)
      (fun id _ => Reader.begins_word id.value)
  have hread := harray.map fun rows => (Table.ofList rows : SortedSet UserId)
  rwa [Table.ofList_rows] at hread

end Atoms

/-! ## Records -/

section Records

variable {ε : Type} (nesting : Nat)

/-- What is read of the fields of a record, and what is made of them. -/
theorem reads_record {σ α : Type} {fields : Nat → List (Field ε σ)} {initial built : σ}
    {ms : List (String × Json)} {finish : σ → Reader ε α} {a : α}
    (folds : Folds (Reader.namedField (fields nesting)) initial ms built)
    (finished : ∀ rest, finish built rest = .ok a rest) :
    Reads (do finish (← Reader.record fields initial (nesting + 1))) (Json.object ms).write a :=
  fun rest _ => (Reader.bind_of_ok (Reader.record_write nesting folds)).trans (finished rest)

theorem reads_membership (m : Membership) :
    Reads (Wire.read (ε := ε) (nesting + 1)) (Wire.write m).write m :=
  reads_record nesting
    (.cons ((reads_groupId nesting m.group).into fun group =>
        ({ group := some group } : Membership.Draft)) <|
      .one ((reads_userId nesting m.user).into fun user =>
        ({ group := some m.group, user := some user } : Membership.Draft)))
    fun _ => rfl

theorem reads_user {user : User} (normal : user.authType.IsNormal) :
    Reads (Wire.read (ε := ε) (nesting + 1)) (Wire.write user).write user :=
  reads_record nesting
    (.cons ((reads_userId nesting user.id).into fun id =>
        ({ id := some id } : User.Draft)) <|
      .cons ((reads_string nesting user.username).into fun name =>
        ({ id := some user.id, username := some name } : User.Draft)) <|
      .cons ((reads_role nesting user.role).into fun role =>
        (⟨some user.id, some user.username, some role, none, none⟩ : User.Draft)) <|
      .cons ((reads_status nesting user.status).into fun status =>
        (⟨some user.id, some user.username, some user.role, some status, none⟩ : User.Draft)) <|
      .one ((reads_authType nesting normal).into fun auth =>
        (⟨some user.id, some user.username, some user.role, some user.status, some auth⟩ :
          User.Draft)))
    fun _ => rfl

theorem reads_userGroup (group : UserGroup) :
    Reads (Wire.read (ε := ε) (nesting + 2)) (Wire.write group).write group :=
  reads_record (nesting + 1)
    (.cons ((reads_groupId _ group.id).into fun id =>
        ({ id := some id } : UserGroup.Draft)) <|
      .cons ((reads_string _ group.name).into fun name =>
        ({ id := some group.id, name := some name } : UserGroup.Draft)) <|
      .cons ((reads_string _ group.description).into fun description =>
        (⟨some group.id, some group.name, some description, none⟩ : UserGroup.Draft)) <|
      .one ((reads_userIds nesting group.memberIds).into fun memberIds =>
        (⟨some group.id, some group.name, some group.description, some memberIds⟩ :
          UserGroup.Draft)))
    fun _ => rfl

/-- The kind of a subject is written before the id, which is then read as the word that it is. -/
theorem folds_subject (kind : SubjectKind) (name : String)
    (hname : SubjectKind.ofName? name = some kind) (id : UInt64) :
    Folds (Reader.namedField (Subject.Draft.fields (ε := ε) false nesting)) {}
      [("kind", .string name), ("id", .ofWord id)] ⟨some kind, some id, none⟩ :=
  .cons ((Reader.reads_tag hname nesting).into fun kind => ({ kind := some kind } : Subject.Draft))
    <| .one ((Reader.reads_word id).into fun id => (⟨some kind, some id, none⟩ : Subject.Draft))

theorem reads_subject (subject : Subject) :
    Reads (Wire.read (ε := ε) (nesting + 1)) (Wire.write subject).write subject := by
  intro rest _
  cases subject with
  | user id =>
    exact (Reader.bind_of_ok (Reader.look_char rfl)).trans <| Reader.bind_of_ok <|
      Reader.record_write nesting (folds_subject nesting .user "user" rfl id.value)
  | group id =>
    exact (Reader.bind_of_ok (Reader.look_char rfl)).trans <| Reader.bind_of_ok <|
      Reader.record_write nesting (folds_subject nesting .group "group" rfl id.value)

theorem reads_permission (permission : Permission) :
    Reads (Wire.read (ε := ε) (nesting + 2)) (Wire.write permission).write permission :=
  reads_record (nesting + 1)
    (.cons ((reads_permissionId _ permission.id).into fun id =>
        ({ id := some id } : Permission.Draft)) <|
      .cons ((reads_clusterId _ permission.cluster).into fun cluster =>
        ({ id := some permission.id, cluster := some cluster } : Permission.Draft)) <|
      .one ((reads_subject nesting permission.subject).into fun subject =>
        (⟨some permission.id, some permission.cluster, some subject⟩ : Permission.Draft)))
    fun _ => rfl

end Records

/-! ## Ways of signing in that are read -/

/-- A way of signing in that a record has read is in normal form. -/
def User.Draft.Normal (d : User.Draft) : Prop := ∀ auth ∈ d.authType, auth.IsNormal

theorem User.Draft.normal_of_field {ε : Type} {nesting : Nat} {field : Field ε User.Draft}
    (hfield : field ∈ User.Draft.fields nesting) {d d' : User.Draft} {s r : Json.Source}
    (h : field.read d s = .ok d' r) (hd : d.Normal) : d'.Normal := by
  simp only [fields, List.mem_cons, List.not_mem_nil, or_false] at hfield
  rcases hfield with rfl | rfl | rfl | rfl | rfl
  case inr.inr.inr.inr =>
    obtain ⟨auth, _, hread, h⟩ := Reader.bind_ok h
    cases h
    rintro _ ⟨⟩
    exact isNormal_of_read nesting hread
  all_goals
    obtain ⟨_, _, -, h⟩ := Reader.bind_ok h
    cases h
    exact hd

/-- **A user that is read signs in by a way in normal form.** -/
theorem User.authType_normal_of_read {ε : Type} {nesting : Nat} {user : User} {s r : Json.Source}
    (h : Wire.read (ε := ε) nesting s = .ok user r) : user.authType.IsNormal := by
  obtain ⟨d, _, hrecord, h⟩ := Reader.bind_ok h
  have hd : d.Normal := Reader.record_keeps (P := User.Draft.Normal)
    (fun _ _ hfield _ _ _ _ => User.Draft.normal_of_field hfield) hrecord nofun
  obtain ⟨_, _, -, h⟩ := Reader.bind_ok h
  obtain ⟨_, _, -, h⟩ := Reader.bind_ok h
  obtain ⟨_, _, -, h⟩ := Reader.bind_ok h
  obtain ⟨_, _, -, h⟩ := Reader.bind_ok h
  obtain ⟨auth, _, hauth, h⟩ := Reader.bind_ok h
  cases h
  exact hd auth (Reader.require_ok hauth).1

end ClusterAccess
