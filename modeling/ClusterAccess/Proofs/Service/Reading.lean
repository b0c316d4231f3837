import ClusterAccess.Proofs.Service.Deeds
import ClusterAccess.Proofs.Service.Listing

/-!
# Reads that agree

What there is to read of users, groups and memberships can be read in several ways: one by one or in
a list, by group or by user.  The ways run through different tables and leave different rows out.
They agree all the same (`ReadsAgree`), which is a matter of tables being in the order of their
keys and of nothing else; memberships may be those of users who are deleted or were never there, and
of groups that are gone.

A transaction reads its copy.  It is told what everybody would be told if it were committed there.
-/

namespace ClusterAccess

/-- Answers to queries that tell the same of users, groups and memberships, whichever is asked. -/
structure ReadsAgree (read : (q : Query) → q.hook.Answer) : Prop where
  users_ascending : (read .users).Pairwise fun a b => a.id < b.id
  user_iff : ∀ id user, read (.user id) = some user ↔ user ∈ read .users ∧ user.id = id
  groups_ascending : (read .groups).Pairwise fun a b => a.id < b.id
  group_iff : ∀ id group, read (.group id) = some group ↔ group ∈ read .groups ∧ group.id = id
  memberIds : ∀ group ∈ read .groups, group.memberIds = read (.membersOf group.id)
  groupsOf_ascending : ∀ user, (read (.groupsOf user)).Pairwise (· < ·)
  member_iff : ∀ user group, user ∈ (read (.membersOf group)).rows ↔
    group ∈ read (.groupsOf user) ∧ (read (.user user)).isSome = true

namespace Directory

variable (d : Directory)

/-- **The reads of a directory agree**, whatever is in its tables. -/
theorem readsAgree : ReadsAgree d.answer where
  users_ascending := d.users_ascending
  user_iff id user := by
    refine user?_eq_some_iff.trans (and_congr_left fun hid => ?_)
    subst hid
    refine Iff.trans ?_ mem_users_iff.symm
    rw [user?_eq_some_iff, and_iff_left rfl]
  groups_ascending := d.groups_ascending
  group_iff _ _ := d.group?_eq_some_iff
  memberIds _ := d.memberIds_of_mem_groups
  groupsOf_ascending := d.groupsOf_ascending
  member_iff user group :=
    mem_members_iff.trans (and_congr_left fun _ => mem_groupsOf_iff.symm)

end Directory

/-! ## Every state -/

namespace Store

/-- **All reads agree, in every state and inside every transaction.**  Let any deeds be done to a
fresh store, arbitrary transactions among them.  Users, groups and each user's groups are listed in
strictly ascending order; a user or a group is found by its id if and only if it is listed, and then
it is what is listed; a listed group has the members that are read of it on their own; and a user is
one of them if and only if the group is one of the user's groups and the user is found.

At each point of any conversation with the store, what a transaction reads of a user or a group is
what the store would answer if the transaction were committed there.  The tables staged so far are
what the store would then hold, and the reads of these agree too. -/
theorem live_reads (deeds : List Deed) :
    let store := (({} : Store).live deeds).2
    ((∀ q, store.answer q = .ok (store.directory.answer q)) ∧ ReadsAgree store.directory.answer) ∧
    ∀ {α : Type} (x rest : Conversation α) (passed : List Exchange) (w : Workspace),
      x.Arrives Workspace.handler (.ofStore store) passed rest w →
      let committed := (Workspace.handler .commit w).2.store
      (committed = .holding w.staged ∧ ReadsAgree w.staged.answer) ∧
        (∀ id, Workspace.handler (.action (.user id)) w = (committed.answer (.user id), w)) ∧
        ∀ id, Workspace.handler (.action (.group id)) w = (committed.answer (.group id), w) := by
  intro store
  refine ⟨⟨fun q => ?_, store.directory.readsAgree⟩, ?_⟩
  · obtain ⟨d, hstore, -⟩ := live_grown deeds
    have hholding : store = .holding d := hstore
    rw [hholding]
    exact answer_of_available rfl q
  · intro α x rest passed w harrives committed
    have havailable : committed.available = true := (live_point deeds harrives).available
    have hcommitted : committed = .holding w.staged := eq_holding havailable
    refine ⟨⟨hcommitted, w.staged.readsAgree⟩, fun id => ?_, fun id => ?_⟩
    · rw [answer_of_available havailable]
      rfl
    · rw [answer_of_available havailable]
      rfl

/-- A user is deleted while in a group, and a transaction has put a user who is not there into a
group that there is not.  Another transaction makes a group and reads it before it is committed. -/
theorem live_reads_uncommitted :
    let deeds : List Deed :=
      [.step (.insertUser { username := "ada" }), .step (.command (.createGroup "ops" "")),
        .step (.command (.addMember ⟨1⟩ ⟨1⟩)), .step (.softDelete ⟨1⟩),
        .transact id (ExceptT.mk (Dialogue.request (Action.insertMembership ⟨⟨7⟩, ⟨9⟩⟩)) :
          ExceptT StoreError Transaction Bool)]
    let store := (({} : Store).live deeds).2
    let x : Conversation Unit :=
      .ask .start fun _ => .ask (.action (.insertGroup "dev" "")) fun _ => .done ()
    let w := (x.run Workspace.handler (.ofStore store)).state
    ReadsAgree store.directory.answer ∧
      store.directory.groupsOf ⟨1⟩ = [⟨1⟩] ∧ store.directory.groupsOf ⟨9⟩ = [⟨7⟩] ∧
      store.directory.members ⟨1⟩ = .empty ∧ store.directory.members ⟨7⟩ = .empty ∧
      store.answer (.group ⟨2⟩) = .ok none ∧
      w.staged.group? ⟨2⟩ = some ⟨⟨2⟩, "dev", "", .empty⟩ ∧
      Workspace.handler (.action (.group ⟨2⟩)) w =
        ((Workspace.handler .commit w).2.store.answer (.group ⟨2⟩), w) := by
  intro deeds store x w
  obtain ⟨⟨-, hagree⟩, hpoint⟩ := live_reads deeds
  obtain ⟨-, -, hgroup⟩ := hpoint x _ _ w (x.arrives_run Workspace.handler (.ofStore store))
  exact ⟨hagree, by decide, by decide, by decide, by decide, by decide, by decide, hgroup ⟨2⟩⟩

end Store

end ClusterAccess
