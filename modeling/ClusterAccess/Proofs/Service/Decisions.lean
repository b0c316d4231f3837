import ClusterAccess.Proofs.Service.Agreement

/-!
# Decisions after a run

The decision that the service comes to is the one of the reference model (`Agrees.decision_eq`). Two
things carry this.  A search through the permissions finds the one with the smallest id, because the
rows are in that order.  And a user's memberships in deleted groups, of which the journal goes on to
tell, admit to nothing, because no permission names a deleted group.
-/

namespace ClusterAccess

/-! ## The permission found first -/

/-- The search through a table comes to the smallest id of those that are sought. -/
theorem Directory.find?_permissions_eq_least {d : Directory} {ps : List Permission}
    {test : Permission → Bool} (h : ∀ p, p ∈ ps ↔ p ∈ d.permissions.rows ∧ test p = true) :
    d.permissions.rows.find? test = Journal.least? ps := by
  cases hleast : Journal.least? ps with
  | none =>
    refine List.find?_eq_none.mpr fun p hp htest => ?_
    have hmem := (h p).mpr ⟨hp, htest⟩
    rw [Journal.least?_eq_none hleast] at hmem
    cases hmem
  | some p =>
    obtain ⟨hp, htest⟩ := (h p).mp (Journal.mem_of_least? hleast)
    refine Table.find?_rows_of_least hp htest fun other hother hpassed => ?_
    exact UInt64.not_lt.mpr (Journal.id_le_of_least? hleast ((h other).mpr ⟨hother, hpassed⟩))

namespace Agrees

variable {j : Journal} {d : Directory} (h : Agrees j d)

include h

theorem userGrant?_eq (user : UserId) (cluster : ClusterId) :
    d.userGrant? user cluster = j.directGrant? user cluster := by
  refine Directory.find?_permissions_eq_least fun p => ?_
  rw [List.mem_filter, h.permissions]
  rfl

/-- A subject with a permission is one of the user's groups in the tables as in the journal. -/
theorem isForOneOf_eq {p : Permission} (user : UserId)
    (stored : ∀ group, p.subject = .group group → d.groupRecords.contains group = true) :
    p.isForOneOf (d.groupsOf user) = j.isGroupOf user p.subject := by
  unfold Permission.isForOneOf
  cases hsubject : p.subject with
  | user id => rfl
  | group group =>
    have hstored := stored group hsubject
    rw [Bool.eq_iff_iff, List.contains_iff_mem, Directory.mem_groupsOf_iff, h.memberships,
      and_iff_right hstored]
    rfl

variable (backed : ∀ p ∈ d.permissions.rows, ∀ group, p.subject = .group group →
  d.groupRecords.contains group = true)

include backed in
theorem groupGrant?_eq (user : UserId) (cluster : ClusterId) :
    d.groupGrant? (d.groupsOf user) cluster = j.groupGrant? user cluster := by
  refine Directory.find?_permissions_eq_least fun p => ?_
  rw [List.mem_filter, ← h.permissions]
  refine and_congr_right fun hp => ?_
  rw [h.isForOneOf_eq user (backed p hp)]

theorem find?_insertedUsers {user : User} (huser : user ∈ j.insertedUsers) :
    j.insertedUsers.find? (fun found => decide (found.id = user.id)) = some user := by
  cases hfound : j.insertedUsers.find? fun found => decide (found.id = user.id) with
  | none => exact absurd (decide_eq_true rfl) (List.find?_eq_none.mp hfound user huser)
  | some other =>
    have hid : other.id = user.id := by simpa using List.find?_some hfound
    rw [h.user_eq (List.mem_of_find?_eq_some hfound) huser hid]

theorem byRole_eq (user : UserId) : d.byRole user = j.byRole user := by
  unfold Directory.byRole Journal.byRole
  cases hread : d.user? user with
  | some found =>
    obtain ⟨hrow, rfl⟩ := Directory.user?_eq_some_iff.mp hread
    obtain ⟨hinserted, hlive⟩ := (h.accounts _).mp hrow
    rw [← hlive, h.find?_insertedUsers hinserted]
    simp only [User.isAdmin_iff, Bool.false_eq_true, if_false]
  | none =>
    cases hdeleted : j.isDeleted user with
    | true => rfl
    | false =>
      cases hfound : j.insertedUsers.find? fun found => decide (found.id = user) with
      | none => rfl
      | some found =>
        have hid : found.id = user := by simpa using List.find?_some hfound
        have hrow : { user := found } ∈ d.accounts.rows := by
          refine (h.accounts _).mpr ⟨List.mem_of_find?_eq_some hfound, ?_⟩
          rw [hid]
          exact hdeleted.symm
        rw [Directory.user?_eq_some_iff.mpr ⟨hrow, hid⟩] at hread
        cases hread

include backed in
theorem decision_eq (user : UserId) (cluster : ClusterId) :
    d.decision user cluster = j.decision user cluster := by
  rw [Directory.decision_eq, h.userGrant?_eq, h.groupGrant?_eq backed, h.byRole_eq]
  rfl

theorem isGranted_byRole_iff (user : UserId) :
    (j.byRole user).isGranted = true ↔
      j.isDeleted user = false ∧
        ∃ found ∈ j.insertedUsers, found.id = user ∧ found.role = .admin := by
  unfold Journal.byRole
  cases hdeleted : j.isDeleted user with
  | true => exact ⟨nofun, nofun⟩
  | false =>
    simp only [Bool.false_eq_true, if_false, true_and]
    constructor
    · intro hgranted
      cases hfound : j.insertedUsers.find? fun found => decide (found.id = user) with
      | none =>
        rw [hfound] at hgranted
        cases hgranted
      | some found =>
        rw [hfound] at hgranted
        by_cases hrole : found.role = .admin
        · have hid : found.id = user := by simpa using List.find?_some hfound
          exact ⟨found, List.mem_of_find?_eq_some hfound, hid, hrole⟩
        · simp only [if_neg hrole] at hgranted
          cases hgranted
    · rintro ⟨found, hinserted, rfl, hrole⟩
      rw [h.find?_insertedUsers hinserted]
      simp only [if_pos hrole]
      rfl

/-- Access is granted exactly to those whom a standing permission names, to those who are in a group
that one names, and to administrators who were not deleted. -/
theorem isGranted_decision_iff (user : UserId) (cluster : ClusterId) :
    (j.decision user cluster).isGranted = true ↔
      (∃ p ∈ j.permissions, p.cluster = cluster ∧ p.subject = .user user) ∨
      (∃ p ∈ j.permissions, ∃ group, p.cluster = cluster ∧ p.subject = .group group ∧
        j.isMember { group, user } = true) ∨
      j.isDeleted user = false ∧
        ∃ found ∈ j.insertedUsers, found.id = user ∧ found.role = .admin := by
  rw [← j.isSome_directGrant?_iff, ← j.isSome_ofGroup?_iff, ← h.isGranted_byRole_iff]
  unfold Journal.decision
  cases j.directGrant? user cluster with
  | some p => exact iff_of_true rfl (.inl rfl)
  | none =>
    cases hgroup : (j.groupGrant? user cluster).bind Access.ofGroup? with
    | some decision =>
      obtain ⟨p, -, hp⟩ := Option.bind_eq_some_iff.mp hgroup
      exact iff_of_true (Access.isGranted_of_ofGroup? hp) (.inr (.inl rfl))
    | none => simp only [Option.isSome_none, Bool.false_eq_true, false_or]

end Agrees

/-! ## Every run -/

/-- **Access is what the history says.**  After every run on a fresh store that stays within the ids
there are, a resolution comes to the decision of the reference model on the journal of the run, and
access is granted exactly to whom that decision grants it. -/
theorem Store.serve_decides (steps : List Step) (user : UserId) (cluster : ClusterId)
    (few : (journal (({} : Store).serve steps).1).Bounded) :
    let run := ({} : Store).serve steps
    let j := journal run.1
    (run.2.perform (.command (.resolve user cluster))).1 = j.decision user cluster ∧
      (run.2.perform (.command (.hasAccess user cluster))).1 = (j.decision user cluster).isGranted ∧
      ((j.decision user cluster).isGranted = true ↔
        (∃ p ∈ j.permissions, p.cluster = cluster ∧ p.subject = .user user) ∨
        (∃ p ∈ j.permissions, ∃ group, p.cluster = cluster ∧ p.subject = .group group ∧
          j.isMember { group, user } = true) ∨
        j.isDeleted user = false ∧
          ∃ found ∈ j.insertedUsers, found.id = user ∧ found.role = .admin) := by
  intro run j
  obtain ⟨d, hstore, hreaches⟩ := Store.serve_reaches steps
  have hagrees : Agrees j d := hreaches.agrees few
  have hdecision : d.decision user cluster = j.decision user cluster :=
    hagrees.decision_eq (hreaches.grantsBacked.grantGroup few.permissions) user cluster
  have hrun : run.2 = .holding d := hstore
  rw [hrun, Store.perform_eq, Store.perform_eq]
  exact ⟨hdecision, congrArg Decision.isGranted hdecision,
    hagrees.isGranted_decision_iff user cluster⟩

/-- A direct permission that was revoked, and a group that the user was taken out of, leave the
second group's permission. -/
theorem Store.serve_decides_rerouted :
    let steps : List Step :=
      [.insertUser { username := "bob" }, .command (.createGroup "ops" ""),
        .command (.createGroup "qa" ""), .command (.addMember ⟨1⟩ ⟨1⟩),
        .command (.addMember ⟨2⟩ ⟨1⟩), .command (.grant (.group ⟨2⟩) ⟨5⟩),
        .command (.grant (.group ⟨1⟩) ⟨5⟩), .command (.grant (.user ⟨1⟩) ⟨5⟩),
        .command (.revoke ⟨3⟩), .command (.removeMember ⟨2⟩ ⟨1⟩)]
    let run := ({} : Store).serve steps
    (journal run.1).Bounded ∧ (journal run.1).decision ⟨1⟩ ⟨5⟩ = .groupGrant ⟨1⟩ ⟨2⟩ ∧
      (run.2.perform (.command (.resolve ⟨1⟩ ⟨5⟩))).1 = (journal run.1).decision ⟨1⟩ ⟨5⟩ := by
  intro steps run
  have hbounded : (journal run.1).Bounded := ⟨by decide, by decide, by decide⟩
  exact ⟨hbounded, by decide, (Store.serve_decides steps ⟨1⟩ ⟨5⟩ hbounded).1⟩

end ClusterAccess
