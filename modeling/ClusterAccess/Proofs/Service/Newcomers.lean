import ClusterAccess.Proofs.Service.Decisions

/-!
# Newcomers

A group that has just been created, and a user who has just been inserted, have no past.  What a
creation answers is put together by hand, and not read from the tables; it is what a reader sees
right afterwards because no row can name an id that was never handed out
(`Reaches.no_row_of_next_group`, `Reaches.no_row_of_next_user`).  A group whose name was in use
before is no exception, since rows name ids and not names.

What a change of members answers is read from the tables after the change.
-/

namespace ClusterAccess

/-! ## Ids that no row names -/

namespace Reaches

variable {history : List Entry} {d : Directory} (h : Reaches history d)

include h

/-- Neither a membership nor a permission names the group that would come next. -/
theorem no_row_of_next_group (few : (journal history).Bounded)
    (hlt : d.lastGroup < d.lastGroup + 1) :
    (∀ m ∈ d.memberships.rows, m.group ≠ ⟨d.lastGroup + 1⟩) ∧
      ∀ p ∈ d.permissions.rows, p.subject ≠ .group ⟨d.lastGroup + 1⟩ := by
  have hunused : ¬ d.groupRecords.contains ⟨d.lastGroup + 1⟩ = true := by
    intro hstored
    exact Agrees.ne_next ((h.groupsRetired few).stored _ hstored) hlt rfl
  refine ⟨fun m hm hgroup => ?_, fun p hp hsubject => ?_⟩
  · exact hunused (hgroup ▸ h.consistent.memberGroup m hm)
  · exact hunused (h.grantsBacked.grantGroup few.permissions p hp _ hsubject)

/-- Neither a membership nor a permission names the user who would come next. -/
theorem no_row_of_next_user (few : (journal history).Bounded) (hlt : d.lastUser < d.lastUser + 1) :
    (∀ m ∈ d.memberships.rows, m.user ≠ ⟨d.lastUser + 1⟩) ∧
      ∀ p ∈ d.permissions.rows, p.subject ≠ .user ⟨d.lastUser + 1⟩ := by
  have hunused : ¬ d.accounts.contains ⟨d.lastUser + 1⟩ = true := by
    intro hstored
    obtain ⟨account, haccount, hid⟩ := Table.contains_iff.mp hstored
    exact Agrees.ne_next ((h.agrees few).account_le haccount) hlt (congrArg UserId.value hid)
  refine ⟨fun m hm huser => ?_, fun p hp hsubject => ?_⟩
  · exact hunused (huser ▸ h.consistent.memberUser m hm)
  · exact hunused (h.consistent.grantUser p hp _ hsubject)

end Reaches

namespace Directory

variable {d : Directory}

/-! ## Reading what no row names -/

theorem members_eq_empty {group : GroupId} (h : ∀ m ∈ d.memberships.rows, m.group ≠ group) :
    d.members group = .empty := by
  have hnone : (d.memberships.rows.filter fun m =>
      decide (m.group = group) && (d.user? m.user).isSome) = [] := by
    refine List.filter_eq_nil_iff.mpr fun m hm => ?_
    rw [decide_eq_false (h m hm)]
    exact Bool.false_ne_true
  rw [members, hnone]
  rfl

theorem groupsOf_eq_nil {user : UserId} (h : ∀ m ∈ d.memberships.rows, m.user ≠ user) :
    d.groupsOf user = [] := by
  refine List.eq_nil_iff_forall_not_mem.mpr fun group hgroup => ?_
  exact h _ (mem_groupsOf_iff.mp hgroup) rfl

/-- One whom neither a permission nor a group's permission admits has the decision of the role. -/
theorem decision_eq_byRole {user : UserId} (cluster : ClusterId) (hgroups : d.groupsOf user = [])
    (hpermissions : ∀ p ∈ d.permissions.rows, p.subject ≠ .user user) :
    d.decision user cluster = d.byRole user := by
  have hdirect : d.userGrant? user cluster = none := by
    refine List.find?_eq_none.mpr fun p hp => ?_
    rw [Permission.isForUser, decide_eq_false (hpermissions p hp), Bool.and_false]
    exact Bool.false_ne_true
  rw [decision_eq, hdirect, hgroups, groupGrant?_nil]
  rfl

/-! ## Creation -/

/-- Whoever creates a group is answered the next id, the trimmed name and no members. -/
theorem eq_of_createGroup {name description : String} {group : UserGroup}
    (h : (d.createGroup name description).1 = .ok group) :
    group = ⟨⟨d.lastGroup + 1⟩, Text.trim name, description, .empty⟩ ∧
      (d.createGroup name description).2 =
        { d with
          groupRecords := d.groupRecords.insert
            { id := ⟨d.lastGroup + 1⟩, name := Text.trim name, description }
          lastGroup := d.lastGroup + 1 } := by
  by_cases hname : Text.trim name = ""
  · rw [createGroup, if_pos hname] at h
    cases h
  · cases hfree : d.nameTaken (Text.trim name) with
    | true =>
      rw [createGroup, if_neg hname, insertGroup, hfree] at h
      cases h
    | false =>
      rw [createGroup, if_neg hname, insertGroup, hfree] at h ⊢
      cases h
      exact ⟨rfl, rfl⟩

/-! ## Changes of members -/

theorem group?_of_addMember {group : GroupId} {user : UserId} {found : UserGroup}
    (h : (d.addMember group user).1 = .ok found) :
    found.id = group ∧ (d.addMember group user).2.group? found.id = some found := by
  unfold addMember at h ⊢
  cases hrecord : d.groupRecords.find? group with
  | none =>
    rw [hrecord] at h
    cases h
  | some record =>
    obtain ⟨-, rfl⟩ := Table.find?_eq_some_iff.mp hrecord
    simp only [hrecord] at h ⊢
    by_cases huser : (d.user? user).isSome = true
    · simp only [if_pos huser] at h ⊢
      cases h
      exact ⟨rfl, congrArg (Option.map _) hrecord⟩
    · simp only [if_neg huser] at h
      cases h

theorem group?_of_removeMember {group : GroupId} {user : UserId} {found : UserGroup}
    (h : (d.removeMember group user).1 = .ok found) :
    found.id = group ∧ (d.removeMember group user).2.group? found.id = some found := by
  unfold removeMember at h ⊢
  cases hrecord : d.groupRecords.find? group with
  | none =>
    rw [hrecord] at h
    cases h
  | some record =>
    obtain ⟨-, rfl⟩ := Table.find?_eq_some_iff.mp hrecord
    simp only [hrecord] at h ⊢
    cases h
    exact ⟨rfl, congrArg (Option.map _) hrecord⟩

end Directory

namespace Reaches

variable {history : List Entry} {d : Directory} (h : Reaches history d)

include h

/-! ## Steps that make something new -/

theorem createGroup {name description : String} {group : UserGroup}
    (hmade : (d.createGroup name description).1 = .ok group)
    (few : (journal (history ++ [⟨.command (.createGroup name description),
      (d.enact (.command (.createGroup name description))).1⟩])).Bounded) :
    group.memberIds = .empty ∧
      (d.createGroup name description).2.group? group.id = some group ∧
      (∀ m ∈ (d.createGroup name description).2.memberships.rows, m.group ≠ group.id) ∧
      (∀ p ∈ (d.createGroup name description).2.permissions.rows, p.subject ≠ .group group.id) ∧
      ∀ user cluster,
        (d.createGroup name description).2.decision user cluster = d.decision user cluster := by
  rw [Directory.enact, Directory.carryOut, hmade, journal_concat] at few
  have hlt : d.lastGroup < d.lastGroup + 1 := (h.numbered few.of_append).lt_nextGroup few
  obtain ⟨hmember, hpermission⟩ := h.no_row_of_next_group few.of_append hlt
  obtain ⟨rfl, hafter⟩ := Directory.eq_of_createGroup hmade
  rw [hafter]
  refine ⟨rfl, ?_, hmember, hpermission, fun user cluster => ?_⟩
  · rw [Directory.group?, Table.find?_insert, if_pos rfl, Option.map_some]
    exact congrArg (fun members => some (UserGroup.mk _ _ _ members))
      (Directory.members_eq_empty hmember)
  · rw [Directory.decision_eq, Directory.decision_eq]
    rfl

theorem insertUser (new : NewUser)
    (few : (journal (history ++ [⟨.insertUser new, (d.enact (.insertUser new)).1⟩])).Bounded) :
    (d.insertUser new).2.groupsOf (d.insertUser new).1.id = [] ∧
      (∀ group ∈ (d.insertUser new).2.groups,
        group.hasMember (d.insertUser new).1.id = false) ∧
      ∀ cluster, (d.insertUser new).2.decision (d.insertUser new).1.id cluster =
        if (d.insertUser new).1.role = .admin then .adminRole else .denied .noGrant := by
  rw [journal_concat] at few
  have hlt : d.lastUser < d.lastUser + 1 := (h.numbered few.of_append).lt_nextUser few
  obtain ⟨hmember, hpermission⟩ := h.no_row_of_next_user few.of_append hlt
  have hgroups : (d.insertUser new).2.groupsOf (d.insertUser new).1.id = [] :=
    Directory.groupsOf_eq_nil hmember
  refine ⟨hgroups, fun group hgroup => ?_, fun cluster => ?_⟩
  · obtain ⟨record, -, rfl⟩ := List.mem_map.mp hgroup
    refine Bool.eq_false_iff.mpr fun hhas => ?_
    obtain ⟨user, huser, hid⟩ := Table.contains_iff.mp hhas
    have hrow : { group := record.id, user } ∈ (d.insertUser new).2.memberships.rows :=
      (Directory.mem_members_iff.mp huser).1
    exact hmember _ hrow hid
  · have hfound : (d.insertUser new).2.user? (d.insertUser new).1.id = some (d.insertUser new).1 :=
      Directory.user?_eq_some_iff.mpr ⟨Table.mem_insertRow_self _ _, rfl⟩
    rw [Directory.decision_eq_byRole cluster hgroups hpermission, Directory.byRole, hfound]
    change (if new.role.isAdmin = true then Decision.adminRole else .denied .noGrant) =
      if new.role = .admin then Decision.adminRole else .denied .noGrant
    cases new.role <;> rfl

end Reaches

/-! ## Every run -/

namespace Store

variable (d : Directory)

theorem perform_resolve (user : UserId) (cluster : ClusterId) :
    ((holding d).perform (.command (.resolve user cluster))).1 = d.decision user cluster := by
  rw [perform_eq, Directory.enact, Directory.carryOut]

theorem perform_getGroup {group : UserGroup} (h : d.group? group.id = some group) :
    ((holding d).perform (.command (.getGroup group.id))).1 = .ok group := by
  rw [perform_eq, Directory.enact, Directory.carryOut, h]

end Store

/-- **Newcomers have no past.**  After every run on a fresh store that stays within the ids there
are, a group that is created is answered without members, is what a reader of its id sees then, is
named by no membership and by no permission, and changes no decision; a user who is inserted is in
no group, and has the decision of the role on every cluster.  What a change of members answers is
what a reader of the group sees then. -/
theorem Store.serve_newcomers (steps : List Step) :
    let run := ({} : Store).serve steps
    (∀ name description group,
      let made := run.2.perform (.command (.createGroup name description))
      (journal (({} : Store).serve (steps ++ [.command (.createGroup name description)])).1).Bounded →
      made.1 = .ok group →
        group.memberIds = .empty ∧
        (made.2.perform (.command (.getGroup group.id))).1 = .ok group ∧
        (∀ m ∈ made.2.directory.memberships.rows, m.group ≠ group.id) ∧
        (∀ p ∈ made.2.directory.permissions.rows, p.subject ≠ .group group.id) ∧
        ∀ user cluster, (made.2.perform (.command (.resolve user cluster))).1 =
          (run.2.perform (.command (.resolve user cluster))).1) ∧
    (∀ new user,
      let made := run.2.perform (.insertUser new)
      (journal (({} : Store).serve (steps ++ [.insertUser new])).1).Bounded →
      made.1 = .ok user →
        made.2.answer (.groupsOf user.id) = .ok [] ∧
        (∀ group ∈ made.2.directory.groups, group.hasMember user.id = false) ∧
        ∀ cluster, (made.2.perform (.command (.resolve user.id cluster))).1 =
          if user.role = .admin then .adminRole else .denied .noGrant) ∧
    (∀ group user found,
      let changed := run.2.perform (.command (.addMember group user))
      changed.1 = .ok found → found.id = group ∧
        (changed.2.perform (.command (.getGroup found.id))).1 = .ok found) ∧
    ∀ group user found,
      let changed := run.2.perform (.command (.removeMember group user))
      changed.1 = .ok found → found.id = group ∧
        (changed.2.perform (.command (.getGroup found.id))).1 = .ok found := by
  intro run
  obtain ⟨d, hstore, hreaches⟩ := Store.serve_reaches steps
  have hrun : run.2 = .holding d := hstore
  have hhistory (step : Step) : (({} : Store).serve (steps ++ [step])).1 =
      (({} : Store).serve steps).1 ++ [⟨step, (d.enact step).1⟩] := by
    rw [Store.serve_append, Store.serve_cons, hstore, Store.perform_eq]
    rfl
  rw [hrun]
  refine ⟨?_, ?_, ?_, ?_⟩
  · intro name description group made few hmade
    have hstep : made = ((d.createGroup name description).1,
        .holding (d.createGroup name description).2) := Store.perform_eq d _
    rw [hhistory] at few
    rw [hstep] at hmade ⊢
    dsimp only at hmade ⊢
    obtain ⟨hempty, hgroup, hmember, hpermission, hdecision⟩ := hreaches.createGroup hmade few
    refine ⟨hempty, Store.perform_getGroup _ hgroup, hmember, hpermission, fun user cluster => ?_⟩
    rw [Store.perform_resolve, Store.perform_resolve]
    exact hdecision user cluster
  · intro new user made few hmade
    have hstep : made = (.ok (d.insertUser new).1, .holding (d.insertUser new).2) :=
      Store.perform_eq d _
    rw [hhistory] at few
    rw [hstep] at hmade ⊢
    obtain rfl : (d.insertUser new).1 = user := Except.ok.inj hmade
    obtain ⟨hgroups, hmember, hdecision⟩ := hreaches.insertUser new few
    refine ⟨congrArg Except.ok hgroups, hmember, fun cluster => ?_⟩
    rw [Store.perform_resolve]
    exact hdecision cluster
  · intro group user found changed hchanged
    have hstep : changed = ((d.addMember group user).1, .holding (d.addMember group user).2) :=
      Store.perform_eq d _
    rw [hstep] at hchanged ⊢
    obtain ⟨hid, hgroup⟩ := Directory.group?_of_addMember hchanged
    exact ⟨hid, Store.perform_getGroup _ hgroup⟩
  · intro group user found changed hchanged
    have hstep : changed =
        ((d.removeMember group user).1, .holding (d.removeMember group user).2) :=
      Store.perform_eq d _
    rw [hstep] at hchanged ⊢
    obtain ⟨hid, hgroup⟩ := Directory.group?_of_removeMember hchanged
    exact ⟨hid, Store.perform_getGroup _ hgroup⟩

/-- A group was deleted with its member, and its name is used again; the user whom it held is added
to the new group and taken out again. -/
theorem Store.serve_newcomers_reused_name :
    let before : List Step :=
      [.insertUser { username := "ada" }, .command (.createGroup "ops" "old"),
        .command (.addMember ⟨1⟩ ⟨1⟩), .command (.deleteGroup ⟨1⟩)]
    let steps := before ++ [.command (.createGroup " ops " "new")]
    let group : UserGroup := ⟨⟨2⟩, "ops", "new", .empty⟩
    let made := (({} : Store).serve before).2.perform (.command (.createGroup " ops " "new"))
    let joined := (({} : Store).serve steps).2.perform (.command (.addMember ⟨2⟩ ⟨1⟩))
    let left := (({} : Store).serve steps).2.perform (.command (.removeMember ⟨2⟩ ⟨1⟩))
    let user : User := ⟨⟨2⟩, "root", .admin, .active, .builtIn⟩
    let inserted := (({} : Store).serve steps).2.perform
      (.insertUser { username := "root", role := .admin })
    made.1 = .ok group ∧ (made.2.perform (.command (.getGroup ⟨2⟩))).1 = .ok group ∧
      (∃ found, joined.1 = .ok found ∧ found.hasMember ⟨1⟩ = true ∧
        (joined.2.perform (.command (.getGroup found.id))).1 = .ok found) ∧
      left.1 = .ok group ∧ (left.2.perform (.command (.getGroup ⟨2⟩))).1 = .ok group ∧
      inserted.1 = .ok user ∧
      (inserted.2.perform (.command (.resolve ⟨2⟩ ⟨7⟩))).1 = .adminRole := by
  intro before steps group made joined left user inserted
  obtain ⟨hcreate, -, -, -⟩ := Store.serve_newcomers before
  obtain ⟨-, hinsert, hadd, hremove⟩ := Store.serve_newcomers steps
  have hmade : made.1 = .ok group := by decide
  have hleft : left.1 = .ok group := by decide
  have hinserted : inserted.1 = .ok user := by decide
  have hcreated := hcreate _ _ group ⟨by decide, by decide, by decide⟩ hmade
  have hnew := hinsert _ user ⟨by decide, by decide, by decide⟩ hinserted
  obtain ⟨found, hjoined, hhas⟩ : ∃ found, joined.1 = .ok found ∧ found.hasMember ⟨1⟩ = true :=
    ⟨⟨⟨2⟩, "ops", "new", ⟨[⟨1⟩], List.pairwise_singleton _ _⟩⟩, by decide, by decide⟩
  exact ⟨hmade, hcreated.2.1, ⟨found, hjoined, hhas, (hadd _ _ found hjoined).2⟩, hleft,
    (hremove _ _ group hleft).2, hinserted, hnew.2.2 ⟨7⟩⟩

end ClusterAccess
