import ClusterAccess.Proofs.Service.Decisions
import ClusterAccess.Proofs.Service.Numbering

/-!
# Grounds of a decision

A decision rests on rows of the tables.  The grounds that a user has on a cluster are the stored
permissions that name the user, and those that name a group in which the user has a membership; one
without grounds is judged by the account.  `Directory.Decides` says which rows make which decision,
one rule for each kind, and `Directory.decides_iff` that these are the decisions.  Nothing is asked
of the directory for that: it need not be one that the service has made.

What a step does to grounds is then a matter of two tables (`Effect.mem_permissions_iff`,
`Effect.mem_memberships_iff`) and of the accounts (`Effect.user?_eq`).  Whoever compares the
decisions before and after a step asks which grounds the step has kept (`Effect.keeps_ownGrant`,
`Effect.keeps_groupGrant`) and which are new (`Effect.ownGrant_cases`, `Effect.groupGrant_cases`),
and does not search again.
-/

namespace ClusterAccess

namespace Directory

/-! ## Grounds -/

/-- A stored permission on the cluster that names the user. -/
structure OwnGrant (d : Directory) (user : UserId) (cluster : ClusterId) (p : Permission) :
    Prop where
  stored : p ∈ d.permissions.rows
  here : p.cluster = cluster
  named : p.subject = .user user

/-- A stored permission on the cluster that names a group in which the user has a membership. -/
structure GroupGrant (d : Directory) (user : UserId) (cluster : ClusterId) (group : GroupId)
    (p : Permission) : Prop where
  stored : p ∈ d.permissions.rows
  here : p.cluster = cluster
  named : p.subject = .group group
  member : { group, user } ∈ d.memberships.rows

/-- The user has no grounds on the cluster. -/
structure Groundless (d : Directory) (user : UserId) (cluster : ClusterId) : Prop where
  own : ∀ p, ¬ d.OwnGrant user cluster p
  group : ∀ group p, ¬ d.GroupGrant user cluster group p

/-- Which decisions the rows of a directory make.  Of several grounds of a kind the one with the
least id is reported. -/
inductive Decides (d : Directory) (user : UserId) (cluster : ClusterId) : Decision → Prop where
  | own (p : Permission) (ground : d.OwnGrant user cluster p)
    (least : ∀ other, d.OwnGrant user cluster other → ¬ other.id < p.id) :
    Decides d user cluster (.directGrant p.id)
  | group (group : GroupId) (p : Permission) (unnamed : ∀ p, ¬ d.OwnGrant user cluster p)
    (ground : d.GroupGrant user cluster group p)
    (least : ∀ group other, d.GroupGrant user cluster group other → ¬ other.id < p.id) :
    Decides d user cluster (.groupGrant group p.id)
  | admin (found : User) (groundless : d.Groundless user cluster)
    (read : d.user? user = some found) (role : found.role = .admin) :
    Decides d user cluster .adminRole
  | other (found : User) (groundless : d.Groundless user cluster)
    (read : d.user? user = some found) (role : found.role ≠ .admin) :
    Decides d user cluster (.denied .noGrant)
  | unknown (groundless : d.Groundless user cluster) (read : d.user? user = none) :
    Decides d user cluster (.denied .unknownUser)

variable {d d' : Directory} {user : UserId} {cluster : ClusterId}

/-! ## What searches find -/

theorem ownGrant_iff {p : Permission} :
    p ∈ d.permissions.rows ∧ (decide (p.cluster = cluster) && p.isForUser user) = true ↔
      d.OwnGrant user cluster p := by
  rw [Permission.isForUser, Bool.and_eq_true, decide_eq_true_eq, decide_eq_true_eq]
  constructor
  · rintro ⟨stored, here, named⟩
    exact ⟨stored, here, named⟩
  · rintro ⟨stored, here, named⟩
    exact ⟨stored, here, named⟩

theorem isForOneOf_groupsOf_iff {p : Permission} :
    p.isForOneOf (d.groupsOf user) = true ↔
      ∃ group, p.subject = .group group ∧ { group, user } ∈ d.memberships.rows := by
  simp only [Permission.isForOneOf_iff, mem_groupsOf_iff, and_comm]

theorem groupGrant_iff {p : Permission} :
    p ∈ d.permissions.rows ∧
        (decide (p.cluster = cluster) && p.isForOneOf (d.groupsOf user)) = true ↔
      ∃ group, d.GroupGrant user cluster group p := by
  rw [Bool.and_eq_true, decide_eq_true_eq, isForOneOf_groupsOf_iff]
  constructor
  · rintro ⟨stored, here, group, named, member⟩
    exact ⟨group, stored, here, named, member⟩
  · rintro ⟨group, stored, here, named, member⟩
    exact ⟨stored, here, group, named, member⟩

theorem userGrant?_eq_some_iff {p : Permission} :
    d.userGrant? user cluster = some p ↔ d.OwnGrant user cluster p ∧
      ∀ other, d.OwnGrant user cluster other → ¬ other.id < p.id := by
  simp only [userGrant?, Table.find?_rows_eq_some_iff, ← ownGrant_iff, and_assoc, and_imp]

theorem userGrant?_eq_none_iff :
    d.userGrant? user cluster = none ↔ ∀ p, ¬ d.OwnGrant user cluster p := by
  simp only [userGrant?, List.find?_eq_none, ← ownGrant_iff, not_and]

theorem groupGrant?_eq_some_iff {p : Permission} :
    d.groupGrant? (d.groupsOf user) cluster = some p ↔
      (∃ group, d.GroupGrant user cluster group p) ∧
        ∀ group other, d.GroupGrant user cluster group other → ¬ other.id < p.id := by
  simp only [groupGrant?, Table.find?_rows_eq_some_iff, ← groupGrant_iff, and_assoc]
  refine and_congr_right fun _ => and_congr_right fun _ => ?_
  constructor
  · intro hleast group other hother
    obtain ⟨stored, hpassed⟩ := groupGrant_iff.mpr ⟨group, hother⟩
    exact hleast other stored hpassed
  · intro hleast other stored hpassed
    obtain ⟨group, hother⟩ := groupGrant_iff.mp ⟨stored, hpassed⟩
    exact hleast group other hother

theorem groupGrant?_eq_none_iff :
    d.groupGrant? (d.groupsOf user) cluster = none ↔
      ∀ group p, ¬ d.GroupGrant user cluster group p := by
  rw [groupGrant?, List.find?_eq_none]
  constructor
  · intro hnone group p hp
    obtain ⟨stored, hpassed⟩ := groupGrant_iff.mpr ⟨group, hp⟩
    exact hnone p stored hpassed
  · intro hnone p stored hpassed
    obtain ⟨group, hp⟩ := groupGrant_iff.mp ⟨stored, hpassed⟩
    exact hnone group p hp

/-! ## Decisions are made by grounds -/

/-- Every decision is made by rows. -/
theorem decides (d : Directory) (user : UserId) (cluster : ClusterId) :
    d.Decides user cluster (d.decision user cluster) := by
  rw [decision_eq]
  cases hown : d.userGrant? user cluster with
  | some p =>
    obtain ⟨ground, least⟩ := userGrant?_eq_some_iff.mp hown
    exact .own p ground least
  | none =>
    have unnamed := userGrant?_eq_none_iff.mp hown
    cases hgroup : d.groupGrant? (d.groupsOf user) cluster with
    | some p =>
      obtain ⟨⟨group, ground⟩, least⟩ := groupGrant?_eq_some_iff.mp hgroup
      simp only [Option.bind_some, Access.ofGroup?, ground.named]
      exact .group group p unnamed ground least
    | none =>
      have groundless : d.Groundless user cluster := ⟨unnamed, groupGrant?_eq_none_iff.mp hgroup⟩
      simp only [Option.bind_none, byRole]
      cases hread : d.user? user with
      | none => exact .unknown groundless hread
      | some found =>
        by_cases hadmin : found.isAdmin = true
        · simp only [if_pos hadmin]
          exact .admin found groundless hread (User.isAdmin_iff.mp hadmin)
        · simp only [if_neg hadmin]
          exact .other found groundless hread (mt User.isAdmin_iff.mpr hadmin)

/-- Rows make one decision. -/
theorem Decides.eq {decision : Decision} (h : d.Decides user cluster decision) :
    d.decision user cluster = decision := by
  rw [decision_eq]
  cases h with
  | own p ground least => rw [userGrant?_eq_some_iff.mpr ⟨ground, least⟩]
  | group group p unnamed ground least =>
    rw [userGrant?_eq_none_iff.mpr unnamed, groupGrant?_eq_some_iff.mpr ⟨⟨group, ground⟩, least⟩]
    simp only [Option.bind_some, Access.ofGroup?, ground.named]
  | admin found groundless read role =>
    rw [userGrant?_eq_none_iff.mpr groundless.own, groupGrant?_eq_none_iff.mpr groundless.group,
      byRole, read]
    exact if_pos (User.isAdmin_iff.mpr role)
  | other found groundless read role =>
    rw [userGrant?_eq_none_iff.mpr groundless.own, groupGrant?_eq_none_iff.mpr groundless.group,
      byRole, read]
    exact if_neg (mt User.isAdmin_iff.mp role)
  | unknown groundless read =>
    rw [userGrant?_eq_none_iff.mpr groundless.own, groupGrant?_eq_none_iff.mpr groundless.group,
      byRole, read]
    rfl

/-- **The grounds make the decision.** -/
theorem decides_iff {decision : Decision} :
    d.decision user cluster = decision ↔ d.Decides user cluster decision :=
  ⟨fun h => h ▸ d.decides user cluster, Decides.eq⟩

/-- Directories with the same grounds decide alike.  Accounts matter only where there are none. -/
theorem decision_congr (own : ∀ p, d.OwnGrant user cluster p ↔ d'.OwnGrant user cluster p)
    (group : ∀ group p, d.GroupGrant user cluster group p ↔ d'.GroupGrant user cluster group p)
    (account : d.Groundless user cluster → d.user? user = d'.user? user) :
    d'.decision user cluster = d.decision user cluster := by
  have unnamed (h : ∀ p, ¬ d.OwnGrant user cluster p) (p : Permission) :
      ¬ d'.OwnGrant user cluster p := mt (own p).mpr (h p)
  have groundless (h : d.Groundless user cluster) : d'.Groundless user cluster :=
    ⟨unnamed h.own, fun g p => mt (group g p).mpr (h.group g p)⟩
  apply Decides.eq
  have h := d.decides user cluster
  generalize d.decision user cluster = decision at h ⊢
  cases h with
  | own p ground least =>
    exact .own p ((own p).mp ground) fun other hother => least other ((own other).mpr hother)
  | group g p none ground least =>
    exact .group g p (unnamed none) ((group g p).mp ground) fun g other hother =>
      least g other ((group g other).mpr hother)
  | admin found none read role => exact .admin found (groundless none) (account none ▸ read) role
  | other found none read role => exact .other found (groundless none) (account none ▸ read) role
  | unknown none read => exact .unknown (groundless none) (account none ▸ read)

/-- Access is granted exactly to those who have grounds, and to administrators. -/
theorem isGranted_decision_iff :
    (d.decision user cluster).isGranted = true ↔
      (∃ p, d.OwnGrant user cluster p) ∨ (∃ group p, d.GroupGrant user cluster group p) ∨
        ∃ found, d.user? user = some found ∧ found.role = .admin := by
  have h := d.decides user cluster
  generalize d.decision user cluster = decision at h ⊢
  cases h with
  | own p ground least => exact iff_of_true rfl (.inl ⟨p, ground⟩)
  | group g p unnamed ground least => exact iff_of_true rfl (.inr (.inl ⟨g, p, ground⟩))
  | admin found groundless read role => exact iff_of_true rfl (.inr (.inr ⟨found, read, role⟩))
  | other found groundless read role =>
    refine iff_of_false (by decide) ?_
    rintro (⟨p, hp⟩ | ⟨g, p, hp⟩ | ⟨other, hother, hrole⟩)
    · exact groundless.own p hp
    · exact groundless.group g p hp
    · rw [read] at hother
      cases hother
      exact role hrole
  | unknown groundless read =>
    refine iff_of_false (by decide) ?_
    rintro (⟨p, hp⟩ | ⟨g, p, hp⟩ | ⟨other, hother, -⟩)
    · exact groundless.own p hp
    · exact groundless.group g p hp
    · rw [read] at hother
      cases hother

end Directory

/-! ## Directories that have grown -/

theorem Table.CountedBy.ne_next {κ α : Type} [Key κ] [DecidableEq κ] {key : α → κ}
    {t : Table κ key} {value : κ → UInt64} {last : UInt64} (h : t.CountedBy value last) {row : α}
    (hrow : row ∈ t.rows) : value (key row) ≠ last + 1 := by
  obtain ⟨-, hpos, hle⟩ := h (key row) row (Table.find?_eq_some_iff.mpr ⟨hrow, rfl⟩)
  intro hnext
  -- A counter that wraps around comes to zero, which is no id.
  have hlast := last.toNat_lt
  rw [hnext, UInt64.le_iff_toNat_le, UInt64.toNat_add, UInt64.toNat_one] at hpos hle
  omega

/-- A table holds no more rows than were counted. -/
theorem Table.CountedBy.size_le {κ α : Type} [Key κ] [DecidableEq κ] {key : α → κ}
    {t : Table κ key} {value : κ → UInt64} {last : UInt64} (h : t.CountedBy value last)
    (injective : Function.Injective value) : t.size ≤ last.toNat := by
  have hnumbers : ∀ row ∈ t.rows, (value (key row)).toNat ∈ List.range' 1 last.toNat := by
    intro row hrow
    obtain ⟨-, hpos, hle⟩ := h (key row) row (Table.find?_eq_some_iff.mpr ⟨hrow, rfl⟩)
    rw [UInt64.le_iff_toNat_le, UInt64.toNat_one] at hpos
    rw [UInt64.le_iff_toNat_le] at hle
    rw [List.mem_range'_1]
    omega
  have hsize := Table.size_le_length
    (fun _ _ heq => injective (UInt64.toNat_inj.mp heq)) hnumbers
  rwa [List.length_range'] at hsize

/-- **What the service has made has grown**, by what its journal has made. -/
theorem Reaches.grown {history : List Entry} {d : Directory} (h : Reaches history d) :
    d.Grown ((journal history).filter Change.makes) := by
  refine h.invariant (fun j d => d.Grown (j.filter Change.makes)) .start ?_
  intro j d d' change hgrown effect
  obtain ⟨mid, hsilent, hmade⟩ := effect.alters
  have hmid := hgrown.step hsilent
  rw [Option.toList_none, List.append_nil] at hmid
  rw [List.filter_append, ← Option.toList_filter]
  exact hmid.step hmade

theorem Reaches.counted {history : List Entry} {d : Directory} (h : Reaches history d)
    (few : (journal history).Bounded) : d.Counted :=
  h.grown.counted (few.of_sublist List.filter_sublist)

/-! ## What effects do to rows -/

namespace Effect

variable {d d' : Directory} {change : Option Change} (effect : Effect d change d')

include effect

/-- No permission names a group that is deleted. -/
theorem subject_ne_of_groupDeleted (counted : d.Counted) {group : GroupId}
    (hchange : change = some (.groupDeleted group)) :
    ∀ p ∈ d.permissions.rows, p.subject ≠ .group group := by
  subst hchange
  cases effect with
  | groupDeleted id stored unused =>
    have hsize := counted.permissions.size_le fun _ _ => PermissionId.ext
    exact Directory.subject_ne_of_grantCount (hsize.trans_lt d.lastPermission.toNat_lt) unused

theorem mem_permissions_iff
    (counted : d.permissions.CountedBy PermissionId.value d.lastPermission) {p : Permission} :
    p ∈ d'.permissions.rows ↔
      (p ∈ d.permissions.rows ∧ change ≠ some (.revoked p.id)) ∨ change = some (.granted p) := by
  cases effect with
  | granted subject cluster reached =>
    have hfresh : ∀ q ∈ d.permissions.rows, q.id ≠ ⟨d.lastPermission + 1⟩ := by
      intro q hq hid
      exact counted.ne_next hq (congrArg PermissionId.value hid)
    refine (Table.mem_insert_fresh_iff hfresh).trans ?_
    simp [or_comm, eq_comm]
  | revoked q found =>
    refine Table.mem_erase_iff.trans ?_
    simp [eq_comm]
  | _ => simp [Directory.insertUser, Directory.deleteMemberships, Directory.deleteGroup,
      Directory.insertMembership, Directory.deleteMembership]

theorem mem_memberships_iff {m : Membership} :
    m ∈ d'.memberships.rows ↔
      (m ∈ d.memberships.rows ∧ change ≠ some (.memberRemoved m) ∧
        change ≠ some (.groupDeleted m.group)) ∨ change = some (.memberAdded m) := by
  cases effect with
  | groupDeleted id stored unused =>
    refine Table.mem_filter_iff.trans ?_
    by_cases hm : m.group = id
    · simp [hm]
    · simp [hm, Ne.symm hm]
  | memberAdded added group user =>
    refine Table.mem_insert_iff.trans ?_
    by_cases hm : m = added
    · simp [hm]
    · simp [hm, Ne.symm hm]
  | memberRemoved removed group =>
    refine Table.mem_erase_iff.trans ?_
    simp [eq_comm]
  | _ => simp [Directory.insertUser, Directory.deleteGrant]

/-- A user's account changes only when the user is inserted or deleted. -/
theorem user?_eq {user : UserId}
    (inserted : ∀ new, change = some (.userInserted new) → user ≠ new.id)
    (deleted : change ≠ some (.userDeleted user)) : d'.user? user = d.user? user := by
  cases effect with
  | userInserted new =>
    have hne := inserted _ rfl
    simp only [Directory.user?, Directory.insertUser, Table.find?_insert]
    rw [if_neg (Ne.symm hne)]
  | userDeleted id found hfound =>
    obtain ⟨-, rfl⟩ := Directory.user?_eq_some_iff.mp hfound
    have hne : found.id ≠ user := fun hid => deleted (hid ▸ rfl)
    simp only [Directory.user?, Table.find?_insert]
    rw [if_neg hne]
  | _ => rfl

/-! ## What effects do to grounds -/

section Grounds

variable (counted : d.Counted) {user : UserId} {cluster : ClusterId} {group : GroupId}
  {p : Permission}

include counted

theorem keeps_ownGrant (kept : change ≠ some (.revoked p.id))
    (ground : d.OwnGrant user cluster p) : d'.OwnGrant user cluster p := by
  have hstored := (effect.mem_permissions_iff counted.permissions).mpr (.inl ⟨ground.stored, kept⟩)
  exact ⟨hstored, ground.here, ground.named⟩

theorem ownGrant_cases (ground : d'.OwnGrant user cluster p) :
    d.OwnGrant user cluster p ∨ change = some (.granted p) := by
  rcases (effect.mem_permissions_iff counted.permissions).mp ground.stored with ⟨hold, -⟩ | hgranted
  · exact .inl ⟨hold, ground.here, ground.named⟩
  · exact .inr hgranted

/-- A membership in a group that has a permission is only lost when the user is removed, since the
group is not deleted. -/
theorem keeps_groupGrant (kept : change ≠ some (.revoked p.id))
    (stays : change ≠ some (.memberRemoved { group, user }))
    (ground : d.GroupGrant user cluster group p) : d'.GroupGrant user cluster group p := by
  have hstored := (effect.mem_permissions_iff counted.permissions).mpr (.inl ⟨ground.stored, kept⟩)
  have hstands : change ≠ some (.groupDeleted group) := by
    intro hdeleted
    exact effect.subject_ne_of_groupDeleted counted hdeleted p ground.stored ground.named
  have hmember := effect.mem_memberships_iff.mpr (.inl ⟨ground.member, stays, hstands⟩)
  exact ⟨hstored, ground.here, ground.named, hmember⟩

theorem groupGrant_cases (ground : d'.GroupGrant user cluster group p) :
    d.GroupGrant user cluster group p ∨
      (change = some (.granted p) ∧ { group, user } ∈ d.memberships.rows) ∨
      (change = some (.memberAdded { group, user }) ∧ p ∈ d.permissions.rows) := by
  rcases (effect.mem_permissions_iff counted.permissions).mp ground.stored with ⟨hold, -⟩ | hgranted
  · rcases effect.mem_memberships_iff.mp ground.member with ⟨hmember, -⟩ | hadded
    · exact .inl ⟨hold, ground.here, ground.named, hmember⟩
    · exact .inr (.inr ⟨hadded, hold⟩)
  · rcases effect.mem_memberships_iff.mp ground.member with ⟨hmember, -⟩ | hadded
    · exact .inr (.inl ⟨hgranted, hmember⟩)
    · rw [hgranted] at hadded
      cases hadded

end Grounds

end Effect

end ClusterAccess
