import ClusterAccess.Directory.Basic
import ClusterAccess.Proofs.Table
import Mathlib.Data.List.Find

/-!
# Reads and rows

What each read of a directory tells of the rows in its tables, and in what order.  Nothing is asked
of the tables: memberships may be those of users who are deleted or were never there, and of groups
that are gone.  What is proved elsewhere of users, groups, members and permissions that are read
rests on these lemmas, and reads are not opened again.
-/

namespace ClusterAccess

theorem User.isAdmin_iff {user : User} : user.isAdmin = true ↔ user.role = .admin := by
  unfold User.isAdmin
  cases user.role <;> decide

theorem Permission.isForOneOf_iff {p : Permission} {groups : List GroupId} :
    p.isForOneOf groups = true ↔ ∃ group ∈ groups, p.subject = .group group := by
  unfold isForOneOf
  cases p.subject with
  | user id => simp
  | group id => simp

namespace Directory

variable {d : Directory}

/-! ## Users -/

theorem user?_eq_some_iff {id : UserId} {user : User} :
    d.user? id = some user ↔ { user } ∈ d.accounts.rows ∧ user.id = id := by
  unfold user?
  rw [Option.bind_eq_some_iff]
  constructor
  · rintro ⟨⟨found, deleted⟩, hfound, hlive⟩
    cases deleted with
    | true => cases hlive
    | false =>
      cases hlive
      exact Table.find?_eq_some_iff.mp hfound
  · intro h
    exact ⟨{ user }, Table.find?_eq_some_iff.mpr h, rfl⟩

theorem mem_users_iff {user : User} : user ∈ d.users ↔ d.user? user.id = some user := by
  rw [users, List.mem_filterMap, user?_eq_some_iff]
  constructor
  · rintro ⟨⟨found, deleted⟩, hrow, hlive⟩
    cases deleted with
    | true => cases hlive
    | false =>
      cases hlive
      exact ⟨hrow, rfl⟩
  · rintro ⟨hrow, -⟩
    exact ⟨{ user }, hrow, rfl⟩

theorem isSome_user?_iff {user : UserId} :
    (d.user? user).isSome = true ↔ ∃ found ∈ d.users, found.id = user := by
  constructor
  · intro h
    obtain ⟨found, hread⟩ := Option.isSome_iff_exists.mp h
    obtain ⟨-, rfl⟩ := user?_eq_some_iff.mp hread
    exact ⟨found, mem_users_iff.mpr hread, rfl⟩
  · rintro ⟨found, hfound, rfl⟩
    rw [mem_users_iff.mp hfound]
    rfl

theorem users_ascending (d : Directory) : d.users.Pairwise fun a b => a.id < b.id := by
  refine List.pairwise_filterMap.mpr (d.accounts.ascending.imp ?_)
  rintro ⟨user, deleted⟩ ⟨other, deleted'⟩ hlt a ha b hb
  cases deleted <;> cases deleted' <;> cases ha <;> cases hb
  exact hlt

/-! ## Groups -/

theorem group?_eq_some_iff {id : GroupId} {group : UserGroup} :
    d.group? id = some group ↔ group ∈ d.groups ∧ group.id = id := by
  simp only [group?, groups, Option.map_eq_some_iff, Table.find?_eq_some_iff, List.mem_map]
  constructor
  · rintro ⟨record, ⟨hrecord, rfl⟩, rfl⟩
    exact ⟨⟨record, hrecord, rfl⟩, rfl⟩
  · rintro ⟨⟨record, hrecord, rfl⟩, rfl⟩
    exact ⟨record, ⟨hrecord, rfl⟩, rfl⟩

theorem groups_ascending (d : Directory) : d.groups.Pairwise fun a b => a.id < b.id :=
  List.pairwise_map.mpr d.groupRecords.ascending

/-! ## Memberships -/

/-- Readers see those members of a group who are not deleted. -/
theorem mem_members_iff {group : GroupId} {user : UserId} :
    user ∈ (d.members group).rows ↔
      { group, user } ∈ d.memberships.rows ∧ (d.user? user).isSome = true := by
  rw [members, SortedSet.mem_ofList_iff, List.mem_map]
  constructor
  · rintro ⟨m, hm, rfl⟩
    rw [List.mem_filter, Bool.and_eq_true, decide_eq_true_eq] at hm
    obtain ⟨hrow, rfl, hlive⟩ := hm
    exact ⟨hrow, hlive⟩
  · rintro ⟨hrow, hlive⟩
    refine ⟨{ group, user }, ?_, rfl⟩
    simp [hrow, hlive]

theorem memberIds_of_mem_groups {group : UserGroup} (h : group ∈ d.groups) :
    group.memberIds = d.members group.id := by
  obtain ⟨record, -, rfl⟩ := List.mem_map.mp h
  rfl

theorem mem_groupsOf_iff {user : UserId} {group : GroupId} :
    group ∈ d.groupsOf user ↔ { group, user } ∈ d.memberships.rows := by
  unfold groupsOf
  rw [List.mem_map]
  constructor
  · rintro ⟨m, hm, rfl⟩
    obtain ⟨hrow, huser⟩ := List.mem_filter.mp hm
    rw [← of_decide_eq_true huser]
    exact hrow
  · intro h
    exact ⟨_, List.mem_filter.mpr ⟨h, decide_eq_true rfl⟩, rfl⟩

/-- Memberships of one user are in the order of their groups. -/
theorem groupsOf_ascending (d : Directory) (user : UserId) :
    (d.groupsOf user).Pairwise (· < ·) := by
  refine List.pairwise_map.mpr ?_
  refine List.Pairwise.imp_of_mem ?_ (d.memberships.ascending.filter _)
  intro m m' hm hm' hlt
  have huser : m.user = user := of_decide_eq_true (List.mem_filter.mp hm).2
  have huser' : m'.user = user := of_decide_eq_true (List.mem_filter.mp hm').2
  rcases hlt with hlt | ⟨-, hlt⟩
  · exact hlt
  · exact absurd (huser.trans huser'.symm) (Key.ne_of_lt hlt)

/-! ## Permissions -/

section Permissions

variable {cluster : ClusterId}

theorem mem_grants_iff {p : Permission} :
    p ∈ d.grants cluster ↔ p ∈ d.permissions.rows ∧ p.cluster = cluster := by
  rw [grants, List.mem_filter, decide_eq_true_eq]

variable (d cluster)

theorem grants_ascending : (d.grants cluster).Pairwise fun p q => p.id < q.id :=
  d.permissions.ascending.filter _

theorem userGrant?_eq_find? (user : UserId) : d.userGrant? user cluster =
    (d.grants cluster).find? fun p => decide (p.subject = .user user) := by
  rw [userGrant?, grants, List.find?_filter]
  refine List.find?_congr fun p _ => ?_
  simp [Permission.isForUser]

theorem groupGrant?_eq_find? (groups : List GroupId) : d.groupGrant? groups cluster =
    (d.grants cluster).find? fun p => decide (∃ group ∈ groups, p.subject = .group group) := by
  rw [groupGrant?, grants, List.find?_filter]
  refine List.find?_congr fun p _ => ?_
  rw [Bool.eq_iff_iff]
  simp [Permission.isForOneOf_iff]

/-- No permission is given to one of no groups. -/
theorem groupGrant?_nil : d.groupGrant? [] cluster = none := by
  rw [groupGrant?_eq_find?]
  exact List.find?_eq_none.mpr fun p _ => by simp

end Permissions

end Directory

end ClusterAccess
