import ClusterAccess.Proofs.Service.Issued

/-!
# Referential integrity

The tables of a directory are kept apart; nothing in them forbids a membership or a permission that
names what is not stored.  It is the operations that keep such rows out: they look before they
write, and a group goes together with its memberships, and only when no permission names it.

Users stay stored when they are deleted, so that whatever names a user goes on naming a stored one.
Groups do not.  The number of permissions that name a group is counted in a word of 64 bits; a count
that wrapped around to zero would let a group go that permissions still name.  That takes 2^64
permissions; what is said of permissions that name groups is said of runs that grant fewer.
-/

namespace ClusterAccess

namespace Effect

variable {d d' : Directory} {change : Option Change}

/-! ## What becomes of a row -/

/-- Accounts are never removed. -/
theorem contains_account (effect : Effect d change d') {user : UserId}
    (h : d.accounts.contains user = true) : d'.accounts.contains user = true := by
  cases effect with
  | userInserted new => exact Table.contains_insert_iff.mpr (.inr h)
  | userDeleted id found hfound => exact Table.contains_insert_iff.mpr (.inr h)
  | _ => exact h

/-- A group is removed only together with its memberships, and only if no permission is counted. -/
theorem contains_group (effect : Effect d change d') {group : GroupId}
    (h : d.groupRecords.contains group = true) :
    d'.groupRecords.contains group = true ∨
      change = some (.groupDeleted group) ∧ d.grantCount group = 0 ∧
        ∀ m ∈ d'.memberships.rows, m.group ≠ group := by
  cases effect with
  | groupCreated asked description named free => exact .inl (Table.contains_insert_iff.mpr (.inr h))
  | groupDeleted id stored unused =>
    by_cases hid : id = group
    · subst hid
      refine .inr ⟨rfl, unused, fun m hm hgroup => ?_⟩
      obtain ⟨-, hother⟩ := Table.mem_filter_iff.mp hm
      simp only [hgroup, decide_true, Bool.not_true, Bool.false_eq_true] at hother
    · exact .inl (Table.contains_erase_iff.mpr ⟨hid, h⟩)
  | _ => exact .inl h

theorem mem_memberships (effect : Effect d change d') {m : Membership}
    (h : m ∈ d'.memberships.rows) :
    m ∈ d.memberships.rows ∨
      change = some (.memberAdded m) ∧ d.groupRecords.contains m.group = true ∧
        (d.user? m.user).isSome := by
  cases effect with
  | groupDeleted id stored unused => exact .inl (Table.mem_filter_iff.mp h).1
  | memberAdded m' group user =>
    rcases Table.mem_insert_iff.mp h with h | ⟨h, -⟩
    · subst h
      exact .inr ⟨rfl, group, user⟩
    · exact .inl h
  | memberRemoved m' group => exact .inl (Table.mem_erase_iff.mp h).1
  | _ => exact .inl h

theorem mem_permissions (effect : Effect d change d') {p : Permission}
    (h : p ∈ d'.permissions.rows) :
    p ∈ d.permissions.rows ∨ change = some (.granted p) ∧ d.subjectExists p.subject = true := by
  cases effect with
  | granted subject cluster reached =>
    rcases Table.mem_insert_iff.mp h with h | ⟨h, -⟩
    · subst h
      exact .inr ⟨rfl, reached⟩
    · exact .inl h
  | revoked p' found => exact .inl (Table.mem_erase_iff.mp h).1
  | _ => exact .inl h

/-- The table of permissions grows by no more than what is granted. -/
theorem size_permissions (effect : Effect d change d') :
    d'.permissions.size ≤
      d.permissions.size + (Journal.grantedPermissions change.toList).length := by
  cases effect with
  | granted subject cluster reached => exact Table.size_insert_le _ _
  | revoked p found => exact Table.size_erase_le _ _
  | _ => exact Nat.le_refl _

end Effect

/-! ## What rows name -/

theorem Directory.contains_account_of_user? {d : Directory} {id : UserId}
    (h : (d.user? id).isSome) : d.accounts.contains id = true := by
  rw [Table.contains_eq_isSome]
  unfold Directory.user? at h
  cases hfound : d.accounts.find? id with
  | none =>
    rw [hfound] at h
    exact h
  | some account => rfl

/-- Memberships are those of stored groups and stored users, and permissions that name users name
stored ones. -/
structure Directory.Consistent (d : Directory) : Prop where
  memberGroup : ∀ m ∈ d.memberships.rows, d.groupRecords.contains m.group = true
  memberUser : ∀ m ∈ d.memberships.rows, d.accounts.contains m.user = true
  grantUser : ∀ p ∈ d.permissions.rows, ∀ user, p.subject = .user user →
    d.accounts.contains user = true

theorem Directory.Consistent.step {d d' : Directory} {change : Option Change}
    (h : d.Consistent) (effect : Effect d change d') : d'.Consistent := by
  refine ⟨fun m hm => ?_, fun m hm => ?_, fun p hp user hsubject => ?_⟩
  · have hstored : d.groupRecords.contains m.group = true := by
      rcases effect.mem_memberships hm with hold | ⟨-, hgroup, -⟩
      · exact h.memberGroup m hold
      · exact hgroup
    rcases effect.contains_group hstored with hkept | ⟨-, -, hgone⟩
    · exact hkept
    · exact absurd rfl (hgone m hm)
  · refine effect.contains_account ?_
    rcases effect.mem_memberships hm with hold | ⟨-, -, huser⟩
    · exact h.memberUser m hold
    · exact Directory.contains_account_of_user? huser
  · refine effect.contains_account ?_
    rcases effect.mem_permissions hp with hold | ⟨-, hreached⟩
    · exact h.grantUser p hold user hsubject
    · rw [hsubject] at hreached
      exact Directory.contains_account_of_user? hreached

theorem Reaches.consistent {history : List Entry} {d : Directory} (h : Reaches history d) :
    d.Consistent :=
  h.invariant (fun _ d => d.Consistent) ⟨nofun, nofun, nofun⟩ Directory.Consistent.step

/-! ## Permissions that name groups -/

/-- A count of zero is to be believed as long as there are fewer permissions than words. -/
theorem Directory.subject_ne_of_grantCount {d : Directory} {group : GroupId}
    (few : d.permissions.size < 2 ^ 64) (h : d.grantCount group = 0) :
    ∀ p ∈ d.permissions.rows, p.subject ≠ .group group := by
  have hle := List.countP_le_length (p := fun p => p.isForGroup group) (l := d.permissions.rows)
  have hcount : d.permissions.rows.countP (fun p => p.isForGroup group) = 0 := by
    have hword := congrArg UInt64.toNat h
    unfold grantCount at hword
    rw [UInt64.toNat_ofNat_of_lt' (Nat.lt_of_le_of_lt hle few)] at hword
    exact hword
  intro p hp hsubject
  refine List.countP_eq_zero.mp hcount p hp ?_
  rw [Permission.isForGroup, hsubject]
  exact decide_eq_true rfl

/-- There are no more permissions than were granted, and unless too many were, those that name
groups name stored ones. -/
structure GrantsBacked (j : Journal) (d : Directory) : Prop where
  size_le : d.permissions.size ≤ j.grantedPermissions.length
  grantGroup : j.grantedPermissions.length < 2 ^ 64 → ∀ p ∈ d.permissions.rows, ∀ group,
    p.subject = .group group → d.groupRecords.contains group = true

theorem GrantsBacked.step {j : Journal} {d d' : Directory} {change : Option Change}
    (h : GrantsBacked j d) (effect : Effect d change d') :
    GrantsBacked (j ++ change.toList) d' := by
  have hlength : (Journal.grantedPermissions (j ++ change.toList)).length =
      j.grantedPermissions.length + (Journal.grantedPermissions change.toList).length := by
    rw [Journal.grantedPermissions_append, List.length_append]
  refine ⟨?_, fun few p hp group hsubject => ?_⟩
  · rw [hlength]
    exact Nat.le_trans effect.size_permissions (Nat.add_le_add_right h.size_le _)
  · have hfew : j.grantedPermissions.length < 2 ^ 64 := by omega
    have hstored : d.groupRecords.contains group = true := by
      rcases effect.mem_permissions hp with hold | ⟨-, hreached⟩
      · exact h.grantGroup hfew p hold group hsubject
      · rwa [hsubject] at hreached
    rcases effect.contains_group hstored with hkept | ⟨hchange, hunused, -⟩
    · exact hkept
    · -- The step removed the group, so the permission is an old one, and would have been counted.
      rcases effect.mem_permissions hp with hold | ⟨hgranted, -⟩
      · have hsize := Nat.lt_of_le_of_lt h.size_le hfew
        exact absurd hsubject (Directory.subject_ne_of_grantCount hsize hunused p hold)
      · rw [hchange] at hgranted
        cases hgranted

theorem Reaches.grantsBacked {history : List Entry} {d : Directory} (h : Reaches history d) :
    GrantsBacked (journal history) d :=
  h.invariant GrantsBacked ⟨Nat.le_refl 0, nofun⟩ GrantsBacked.step

/-! ## Deleted groups -/

/-- Stored and deleted groups have ids that were handed out, and the deleted ones are not stored. -/
structure GroupsRetired (j : Journal) (d : Directory) : Prop where
  numbered : Numbered j d
  stored : ∀ group, d.groupRecords.contains group = true → group.value ≤ d.lastGroup
  deleted : ∀ group, .groupDeleted group ∈ j →
    group.value ≤ d.lastGroup ∧ ¬ d.groupRecords.contains group = true

theorem GroupsRetired.step {j : Journal} {d d' : Directory} {change : Option Change}
    (few : Journal.Bounded (j ++ change.toList)) (h : GroupsRetired j d)
    (effect : Effect d change d') : GroupsRetired (j ++ change.toList) d' := by
  have hnumbered := h.numbered.step few effect
  cases effect with
  | groupCreated asked description named free =>
    have hlt := h.numbered.lt_nextGroup few
    refine ⟨hnumbered, fun group hgroup => ?_, fun group hgroup => ?_⟩
    · rcases Table.contains_insert_iff.mp hgroup with hnew | hold
      · exact hnew ▸ UInt64.le_refl _
      · exact UInt64.le_trans (h.stored group hold) (UInt64.le_of_lt hlt)
    · obtain ⟨hissued, hgone⟩ := h.deleted group (by simpa using hgroup)
      refine ⟨UInt64.le_trans hissued (UInt64.le_of_lt hlt), fun hcontains => ?_⟩
      rcases Table.contains_insert_iff.mp hcontains with hnew | hold
      · exact UInt64.not_lt.mpr hissued (hnew ▸ hlt)
      · exact hgone hold
  | groupDeleted id stored unused =>
    refine ⟨hnumbered, fun group hgroup => ?_, fun group hgroup => ?_⟩
    · exact h.stored group (Table.contains_erase_iff.mp hgroup).2
    · rcases List.mem_append.mp hgroup with hold | hnew
      · obtain ⟨hissued, hgone⟩ := h.deleted group hold
        exact ⟨hissued, fun hcontains => hgone (Table.contains_erase_iff.mp hcontains).2⟩
      · cases List.mem_singleton.mp hnew
        exact ⟨h.stored id stored, fun hcontains => (Table.contains_erase_iff.mp hcontains).1 rfl⟩
  | _ => exact ⟨hnumbered, h.stored, fun group hgroup => h.deleted group (by simpa using hgroup)⟩

theorem Reaches.groupsRetired {history : List Entry} {d : Directory} (h : Reaches history d)
    (few : (journal history).Bounded) : GroupsRetired (journal history) d :=
  h.invariant_of_bounded GroupsRetired ⟨⟨.start, .start, .start⟩, nofun, nofun⟩
    GroupsRetired.step few

/-! ## Every run -/

/-- **Referential integrity.**  After every run on a fresh store, memberships name stored groups and
stored users, and permissions that name users name stored ones.  After every run that stays within
the ids there are, permissions that name groups name stored ones, and no membership and no
permission names a group that was ever deleted. -/
theorem Store.serve_keeps_references (steps : List Step) :
    let run := ({} : Store).serve steps
    let d := run.2.directory
    (∀ m ∈ d.memberships.rows,
        d.groupRecords.contains m.group = true ∧ d.accounts.contains m.user = true) ∧
      (∀ p ∈ d.permissions.rows, ∀ user, p.subject = .user user →
        d.accounts.contains user = true) ∧
      ((journal run.1).grantedPermissions.length < 2 ^ 64 →
        ∀ p ∈ d.permissions.rows, ∀ group, p.subject = .group group →
          d.groupRecords.contains group = true) ∧
      ((journal run.1).Bounded → ∀ group, .groupDeleted group ∈ journal run.1 →
        (∀ m ∈ d.memberships.rows, m.group ≠ group) ∧
          ∀ p ∈ d.permissions.rows, p.subject ≠ .group group) := by
  intro run d
  obtain ⟨d', hstore, hreaches⟩ := Store.serve_reaches steps
  have hd : d = d' := congrArg Store.directory hstore
  clear_value d
  subst hd
  have hconsistent := hreaches.consistent
  have hbacked := hreaches.grantsBacked
  refine ⟨fun m hm => ⟨hconsistent.memberGroup m hm, hconsistent.memberUser m hm⟩,
    hconsistent.grantUser, hbacked.grantGroup, fun few group hdeleted => ?_⟩
  obtain ⟨-, hgone⟩ := (hreaches.groupsRetired few).deleted group hdeleted
  refine ⟨fun m hm hgroup => hgone (hgroup ▸ hconsistent.memberGroup m hm), fun p hp hsubject => ?_⟩
  exact hgone (hbacked.grantGroup few.permissions p hp group hsubject)

/-- A group that a permission names is not deleted, and another one is, with its member. -/
theorem Store.serve_keeps_references_deletion :
    let steps : List Step :=
      [.insertUser { username := "ada" }, .command (.createGroup "ops" ""),
        .command (.createGroup "qa" ""), .command (.addMember ⟨1⟩ ⟨1⟩),
        .command (.addMember ⟨2⟩ ⟨1⟩), .command (.grant (.group ⟨1⟩) ⟨5⟩),
        .command (.deleteGroup ⟨1⟩), .command (.deleteGroup ⟨2⟩)]
    let run := ({} : Store).serve steps
    (journal run.1).Bounded ∧ .groupDeleted ⟨2⟩ ∈ journal run.1 ∧
      run.2.directory.memberships.rows = [⟨⟨1⟩, ⟨1⟩⟩] ∧
      (∀ p ∈ run.2.directory.permissions.rows, ∀ group, p.subject = .group group →
        run.2.directory.groupRecords.contains group = true) ∧
      ∀ p ∈ run.2.directory.permissions.rows, p.subject ≠ .group ⟨2⟩ := by
  intro steps run
  have hbounded : (journal run.1).Bounded := ⟨by decide, by decide, by decide⟩
  have hdeleted : .groupDeleted ⟨2⟩ ∈ journal run.1 := by decide
  obtain ⟨-, -, hgrants, hretired⟩ := Store.serve_keeps_references steps
  exact ⟨hbounded, hdeleted, by decide, hgrants hbounded.permissions,
    (hretired hbounded ⟨2⟩ hdeleted).2⟩

end ClusterAccess
