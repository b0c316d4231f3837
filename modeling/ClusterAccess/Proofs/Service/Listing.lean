import ClusterAccess.Proofs.Service.Grounds

/-!
# What readers see

The directory's lists are the journal's.  The users are those that were inserted and not deleted, in
the order in which they were inserted; the groups are those that stand, in the order in which they
were created, each with those of the users who were added to it and not removed since.

Tables list their rows by ascending ids, and ids ascend with time (`Gapless.pairwise_lt`).  Two
lists in ascending order that have the same members are the same (`Table.rows_eq`), so that for each
list it is enough to know what is in it.

Whether a user can be deleted does not need the journal: it shows in the requests
(`Reaches.isSome_user?_iff`).
-/

namespace ClusterAccess

/-! ## Lists in ascending order -/

/-- Ids ascend in the order in which they are handed out. -/
theorem Gapless.pairwise_lt {last : UInt64} {ids : List UInt64} (h : Gapless last ids) :
    ids.Pairwise (· < ·) := by
  have hrange : (ids.map UInt64.toNat).Pairwise (· < ·) := by
    rw [h]
    exact List.pairwise_lt_range'
  rw [List.pairwise_map] at hrange
  exact hrange.imp UInt64.lt_iff_toNat_lt.mpr

/-! ## Users and groups of the journal -/

namespace Journal

/-- The users who were inserted and not deleted. -/
def users (j : Journal) : List User := j.insertedUsers.filter fun user => !j.isDeleted user.id

/-- The users who were added to a group and not removed since, nor deleted. -/
def members (j : Journal) (group : GroupId) : SortedSet UserId :=
  .ofList ((j.users.filter fun user => j.isMember { group, user := user.id }).map User.id)

/-- A group with its members. -/
def resolve (j : Journal) (record : GroupRecord) : UserGroup :=
  { id := record.id, name := record.name, description := record.description,
    memberIds := j.members record.id }

theorem mem_members_iff {j : Journal} {group : GroupId} {user : UserId} :
    user ∈ (j.members group).rows ↔
      j.isMember { group, user } = true ∧ ∃ found ∈ j.users, found.id = user := by
  rw [members, SortedSet.mem_ofList_iff, List.mem_map]
  constructor
  · rintro ⟨found, hfound, rfl⟩
    obtain ⟨hlive, hmember⟩ := List.mem_filter.mp hfound
    exact ⟨hmember, found, hlive, rfl⟩
  · rintro ⟨hmember, found, hlive, rfl⟩
    exact ⟨found, List.mem_filter.mpr ⟨hlive, hmember⟩, rfl⟩

theorem standing_sublist {α : Type} (made : Change → Option α) (undone : α → Change)
    (j : Journal) : (standing made undone j).Sublist (j.filterMap made) := by
  induction j with
  | nil => exact .slnil
  | cons change later ih =>
    rw [standing, List.filterMap_cons]
    cases made change with
    | none => exact ih
    | some a =>
      by_cases hundone : undone a ∈ later
      · simp only [if_pos hundone]
        exact ih.cons a
      · simp only [if_neg hundone]
        exact ih.cons_cons a

end Journal

/-! ## Agreement of the lists -/

namespace Numbered

variable {j : Journal} {d : Directory} (h : Numbered j d)

include h

theorem insertedUsers_ascending : j.insertedUsers.Pairwise fun a b => a.id < b.id := by
  have hids := h.users.pairwise_lt
  rw [List.pairwise_map] at hids
  exact hids

theorem groups_ascending : j.groups.Pairwise fun a b => a.id < b.id := by
  have hids := h.groups.pairwise_lt
  rw [List.pairwise_map] at hids
  exact List.Pairwise.sublist (Journal.standing_sublist _ _ j) hids

end Numbered

namespace Agrees

variable {j : Journal} {d : Directory} (h : Agrees j d)

include h

/-- The accounts are the inserted users, in order. -/
theorem rows_accounts : d.accounts.rows =
    j.insertedUsers.map fun user => { user, deleted := j.isDeleted user.id } := by
  refine Table.rows_eq ?_ fun account => ?_
  · rw [List.pairwise_map]
    exact h.numbered.insertedUsers_ascending
  · rw [h.accounts, List.mem_map]
    constructor
    · rintro ⟨hinserted, hdeleted⟩
      exact ⟨account.user, hinserted, by rw [← hdeleted]⟩
    · rintro ⟨user, hinserted, rfl⟩
      exact ⟨hinserted, rfl⟩

theorem users_eq : d.users = j.users := by
  rw [Directory.users, h.rows_accounts, List.filterMap_map, Journal.users,
    ← List.filterMap_eq_filter]
  congr 1
  funext user
  simp only [Function.comp_apply, Account.live?, Option.guard]
  by_cases hdeleted : j.isDeleted user.id = true
  · simp [hdeleted]
  · simp [hdeleted]

theorem members_eq {group : GroupId} (stored : d.groupRecords.contains group = true) :
    d.members group = j.members group := by
  refine Table.eq_of_mem_iff fun user => ?_
  rw [Directory.mem_members_iff, Journal.mem_members_iff, h.memberships, and_iff_right stored,
    Directory.isSome_user?_iff, h.users_eq]

theorem groups_eq : d.groups = j.groups.map j.resolve := by
  have hrows : d.groupRecords.rows = j.groups :=
    Table.rows_eq h.numbered.groups_ascending h.groups
  rw [Directory.groups, ← hrows]
  refine List.map_congr_left fun record hrecord => ?_
  rw [Directory.resolve, Journal.resolve,
    h.members_eq (Table.contains_iff.mpr ⟨record, hrecord, rfl⟩)]

end Agrees

/-! ## Requests to delete users -/

/-- The history shows the user inserted, and no request since then to delete the user. -/
def ShowsUser (history : List Entry) (user : UserId) : Prop :=
  ∃ before new inserted after, history = before ++ ⟨.insertUser new, .ok inserted⟩ :: after ∧
    inserted.id = user ∧ ∀ entry ∈ after, entry.step ≠ .softDelete user

theorem showsUser_concat {history : List Entry} {entry : Entry} {user : UserId} :
    ShowsUser (history ++ [entry]) user ↔
      (∃ new inserted, entry = ⟨.insertUser new, .ok inserted⟩ ∧ inserted.id = user) ∨
        ShowsUser history user ∧ entry.step ≠ .softDelete user := by
  constructor
  · rintro ⟨before, new, inserted, after, hhistory, hid, hafter⟩
    rcases List.eq_nil_or_concat after with rfl | ⟨between, last, rfl⟩
    · obtain ⟨-, hlast⟩ := List.append_inj' hhistory rfl
      exact .inl ⟨new, inserted, List.singleton_inj.mp hlast, hid⟩
    · rw [List.concat_eq_append] at hhistory hafter
      have hsplit : history ++ [entry] =
          (before ++ ⟨.insertUser new, .ok inserted⟩ :: between) ++ [last] := by
        rw [hhistory, List.append_assoc, List.cons_append]
      obtain ⟨rfl, hlast⟩ := List.append_inj' hsplit rfl
      obtain rfl := List.singleton_inj.mp hlast
      refine .inr ⟨⟨before, new, inserted, between, rfl, hid, fun e he => ?_⟩, ?_⟩
      · exact hafter e (List.mem_append_left _ he)
      · exact hafter entry (List.mem_append_right _ List.mem_cons_self)
  · rintro (⟨new, inserted, rfl, hid⟩ | ⟨⟨before, new, inserted, after, rfl, hid, hafter⟩, hentry⟩)
    · exact ⟨history, new, inserted, [], rfl, hid, fun e he => absurd he List.not_mem_nil⟩
    · refine ⟨before, new, inserted, after ++ [entry], ?_, hid, fun e he => ?_⟩
      · rw [List.append_assoc, List.cons_append]
      · rcases List.mem_append.mp he with he | he
        · exact hafter e he
        · cases List.mem_singleton.mp he
          exact hentry

theorem showsUser_concat_inserted {history : List Entry} {new : NewUser} {inserted : User}
    {user : UserId} : ShowsUser (history ++ [⟨.insertUser new, .ok inserted⟩]) user ↔
      inserted.id = user ∨ ShowsUser history user := by
  rw [showsUser_concat]
  constructor
  · rintro (⟨new, inserted, hentry, hid⟩ | ⟨hshown, -⟩)
    · cases hentry
      exact .inl hid
    · exact .inr hshown
  · rintro (hid | hshown)
    · exact .inl ⟨new, inserted, rfl, hid⟩
    · exact .inr ⟨hshown, Step.noConfusion⟩

theorem showsUser_concat_of_ne {history : List Entry} {entry : Entry} {user : UserId}
    (h : ∀ new, entry.step ≠ .insertUser new) : ShowsUser (history ++ [entry]) user ↔
      ShowsUser history user ∧ entry.step ≠ .softDelete user := by
  rw [showsUser_concat]
  refine or_iff_right ?_
  rintro ⟨new, inserted, rfl, -⟩
  exact h new rfl

/-- No command inserts or deletes a user. -/
theorem Entry.change?_command (c : Command) (answer : c.Answer) :
    (∀ user, Entry.change? ⟨.command c, answer⟩ ≠ some (.userInserted user)) ∧
      ∀ id, Entry.change? ⟨.command c, answer⟩ ≠ some (.userDeleted id) := by
  cases c with
  | createGroup name description => cases answer <;> exact ⟨nofun, nofun⟩
  | deleteGroup id => cases answer <;> exact ⟨nofun, nofun⟩
  | addMember group user => cases answer <;> exact ⟨nofun, nofun⟩
  | removeMember group user => cases answer <;> exact ⟨nofun, nofun⟩
  | grant subject cluster => cases answer <;> exact ⟨nofun, nofun⟩
  | revoke id => cases answer <;> exact ⟨nofun, nofun⟩
  | _ => exact ⟨nofun, nofun⟩

theorem Directory.softDelete_fst (d : Directory) (user : UserId) :
    (d.softDelete user).1 = (d.user? user).isSome := by
  unfold softDelete
  cases d.user? user <;> rfl

theorem Directory.user?_softDelete (d : Directory) (id user : UserId) :
    (d.softDelete id).2.user? user = if id = user then none else d.user? user := by
  unfold softDelete
  cases hread : d.user? id with
  | none =>
    by_cases hid : id = user
    · rw [if_pos hid, ← hid]
      exact hread
    · rw [if_neg hid]
  | some found =>
    obtain ⟨-, rfl⟩ := user?_eq_some_iff.mp hread
    by_cases hid : found.id = user
    · simp only [user?, Table.find?_insert, if_pos hid]
      rfl
    · simp only [user?, Table.find?_insert, if_neg hid]

/-- **Readers see a user from the insertion to the first request to delete the user.** -/
theorem Reaches.isSome_user?_iff {history : List Entry} {d : Directory} (h : Reaches history d)
    (user : UserId) : (d.user? user).isSome = true ↔ ShowsUser history user := by
  induction h with
  | start =>
    refine iff_of_false Bool.false_ne_true ?_
    rintro ⟨before, new, inserted, after, hhistory, -⟩
    cases before <;> cases hhistory
  | @step history d h step ih =>
    cases step with
    | insertUser new =>
      refine Iff.trans ?_ showsUser_concat_inserted.symm
      rw [← ih]
      simp only [Directory.enact, Directory.insertUser, Directory.user?, Table.find?_insert]
      by_cases hid : (new.withId ⟨d.lastUser + 1⟩).id = user
      · rw [if_pos hid]
        exact iff_of_true rfl (.inl hid)
      · rw [if_neg hid]
        exact (or_iff_right hid).symm
    | softDelete id =>
      rw [showsUser_concat_of_ne fun _ => Step.noConfusion, ← ih, Directory.enact,
        Directory.user?_softDelete]
      by_cases hid : id = user
      · simp [hid]
      · simp [hid]
    | command c =>
      have hother : Step.command c ≠ .softDelete user := Step.noConfusion
      obtain ⟨hinserted, hdeleted⟩ := Entry.change?_command c (d.enact (.command c)).1
      rw [showsUser_concat_of_ne fun _ => Step.noConfusion, and_iff_left hother, ← ih,
        (d.effect (.command c)).user?_eq (fun _ h => absurd h (hinserted _)) (hdeleted user)]

/-! ## Every run -/

/-- **The lists are the history's.**  After every run on a fresh store that stays within the ids
there are, readers are listed the users that were inserted and not deleted, in that order, and the
groups that were created and not deleted since, in that order, each with those of the users who were
added to it and not removed since.  After every run whatever, a request to delete a user is granted
exactly if it is the first one since the user was inserted. -/
theorem Store.serve_lists_history (steps : List Step) :
    let run := ({} : Store).serve steps
    let j := journal run.1
    (j.Bounded →
      (run.2.perform (.command .listUsers)).1 = .ok j.users ∧
        (run.2.perform (.command .listGroups)).1 = .ok (j.groups.map j.resolve)) ∧
    ∀ user, ∃ deleted, (run.2.perform (.softDelete user)).1 = .ok deleted ∧
      (deleted = true ↔ ShowsUser run.1 user) := by
  intro run j
  obtain ⟨d, hstore, hreaches⟩ := Store.serve_reaches steps
  have hholding : run.2 = .holding d := hstore
  rw [hholding]
  refine ⟨fun few => ?_, fun user => ?_⟩
  · have hagrees : Agrees j d := hreaches.agrees few
    rw [Store.perform_eq, Store.perform_eq, ← hagrees.users_eq, ← hagrees.groups_eq]
    exact ⟨rfl, rfl⟩
  · refine ⟨(d.user? user).isSome, ?_, hreaches.isSome_user?_iff user⟩
    rw [Store.perform_eq, ← Directory.softDelete_fst]
    rfl

/-- The second of two users is deleted; a deletion asked for before there was such a user came to
nothing.  A group was deleted as soon as its permission was revoked, and its name is used again,
behind the group that was created in between.  The first user is in that group, and was taken out of
the new one. -/
theorem Store.serve_lists_history_reused_name :
    let steps : List Step :=
      [.insertUser { username := "ada" }, .softDelete ⟨2⟩, .insertUser { username := "bob" },
        .command (.createGroup "ops" "first"), .command (.createGroup "qa" ""),
        .command (.grant (.group ⟨1⟩) ⟨5⟩), .command (.addMember ⟨1⟩ ⟨1⟩),
        .command (.deleteGroup ⟨1⟩), .command (.revoke ⟨1⟩), .command (.deleteGroup ⟨1⟩),
        .command (.createGroup " ops " "second"), .command (.addMember ⟨3⟩ ⟨1⟩),
        .command (.addMember ⟨3⟩ ⟨2⟩), .command (.addMember ⟨2⟩ ⟨1⟩), .softDelete ⟨2⟩,
        .command (.removeMember ⟨3⟩ ⟨1⟩)]
    let run := ({} : Store).serve steps
    (journal run.1).Bounded ∧
      (run.2.perform (.command .listUsers)).1 = .ok [⟨⟨1⟩, "ada", .user, .active, .builtIn⟩] ∧
      (run.2.perform (.command .listGroups)).1 =
        .ok [⟨⟨2⟩, "qa", "", ⟨[⟨1⟩], List.pairwise_singleton _ _⟩⟩,
          ⟨⟨3⟩, "ops", "second", .empty⟩] ∧
      ShowsUser run.1 ⟨1⟩ ∧ ¬ ShowsUser run.1 ⟨2⟩ := by
  intro steps run
  have hfew : (journal run.1).Bounded := ⟨by decide, by decide, by decide⟩
  obtain ⟨hlists, hdeletes⟩ := Store.serve_lists_history steps
  obtain ⟨husers, hgroups⟩ := hlists hfew
  obtain ⟨first, hfirst, hshown⟩ := hdeletes ⟨1⟩
  obtain ⟨second, hsecond, hhidden⟩ := hdeletes ⟨2⟩
  refine ⟨hfew, husers.trans (by decide), hgroups.trans (by decide), hshown.mp ?_,
    mt hhidden.mpr ?_⟩
  · exact Except.ok.inj (hfirst.symm.trans (by decide))
  · have hfalse : second = false := Except.ok.inj (hsecond.symm.trans (by decide))
    rw [hfalse]
    exact Bool.false_ne_true

end ClusterAccess
