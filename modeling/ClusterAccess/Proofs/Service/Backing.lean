import ClusterAccess.Proofs.Access.Absorption
import ClusterAccess.Proofs.Service.Listing

/-!
# What stands behind a decision

A decision and a reader do not look at the same rows.  A decision goes by permissions and
memberships, and by an account only if there are neither; a reader is shown groups, with those of
their members who have accounts and are not deleted.  That a reader can find what a decision reports
is due to the rows being consistent: a permission names a group that is there to be read, and a
membership a user who has an account.  The one thing that a reader cannot see is the membership of a
user who was deleted.

No search for the permission of a group comes to one that names a user, in any directory
(`Directory.subject_of_groupGrant?`), so that a resolution never has that to note
(`Store.events_resolve`).
-/

namespace ClusterAccess

/-- What has to be read if a decision is made.  The permission that it reports is listed; if that
names a group, the group is there, and the user is one of its members unless deleted.  An
administrator is listed as one, and no listed permission names the administrator, or a group that
has the administrator for a member. -/
def Decision.Backed (read : (c : Command) → c.Answer) (deleted : UserId → Bool) (user : UserId)
    (cluster : ClusterId) : Decision → Prop
  | .directGrant id =>
    ∃ listed, read (.listPermissions cluster) = .ok listed ∧
      { id, cluster, subject := .user user } ∈ listed
  | .groupGrant group id =>
    ∃ listed found, read (.listPermissions cluster) = .ok listed ∧
      read (.getGroup group) = .ok found ∧
      { id, cluster, subject := .group group } ∈ listed ∧
      found.hasMember user = !deleted user
  | .adminRole =>
    ∃ users listed, read .listUsers = .ok users ∧ read (.listPermissions cluster) = .ok listed ∧
      (∃ found ∈ users, found.id = user ∧ found.role = .admin) ∧
      ∀ p ∈ listed, p.subject ≠ .user user ∧
        ∀ group, p.subject = .group group →
          ∃ found, read (.getGroup group) = .ok found ∧ found.hasMember user = false
  | .denied _ => True

/-! ## What is listed -/

namespace Directory

variable {d : Directory} {user : UserId} {cluster : ClusterId}

theorem OwnGrant.listed {p : Permission} (h : d.OwnGrant user cluster p) :
    { id := p.id, cluster, subject := .user user } ∈ d.grants cluster := by
  rw [← h.named, ← h.here]
  exact mem_grants_iff.mpr ⟨h.stored, rfl⟩

theorem GroupGrant.listed {group : GroupId} {p : Permission}
    (h : d.GroupGrant user cluster group p) :
    { id := p.id, cluster, subject := .group group } ∈ d.grants cluster := by
  rw [← h.named, ← h.here]
  exact mem_grants_iff.mpr ⟨h.stored, rfl⟩

/-- A group that is stored can be read, with those of its members who are not deleted. -/
theorem getGroup_of_contains {group : GroupId} (h : d.groupRecords.contains group = true) :
    ∃ found, (d.carryOut (.getGroup group)).1 = .ok found ∧
      ∀ user, found.hasMember user = true ↔
        { group, user } ∈ d.memberships.rows ∧ (d.user? user).isSome = true := by
  rw [Table.contains_eq_isSome, Option.isSome_iff_exists] at h
  obtain ⟨record, hrecord⟩ := h
  obtain ⟨-, rfl⟩ := Table.find?_eq_some_iff.mp hrecord
  refine ⟨d.resolve record, ?_, fun user => ?_⟩
  · rw [carryOut, group?, hrecord]
    rfl
  · rw [← mem_members_iff]
    change (d.members record.id).contains user = true ↔ _
    rw [Table.contains_iff]
    exact exists_eq_right

end Directory

/-- A user who is named by a membership is seen by readers, or was deleted. -/
theorem Reaches.isSome_user?_of_member {history : List Entry} {d : Directory}
    (h : Reaches history d) (few : (journal history).Bounded) {group : GroupId} {user : UserId}
    (member : { group, user } ∈ d.memberships.rows) :
    (d.user? user).isSome = !(journal history).isDeleted user := by
  have hstored : d.accounts.contains user = true := h.consistent.memberUser _ member
  obtain ⟨account, haccount, rfl⟩ := Table.contains_iff.mp hstored
  obtain ⟨-, hdeleted⟩ := ((h.agrees few).accounts account).mp haccount
  have hfound : d.accounts.find? account.user.id = some account :=
    Table.find?_eq_some_iff.mpr ⟨haccount, rfl⟩
  rw [← hdeleted, Directory.user?, hfound]
  rcases account with ⟨user, _ | _⟩ <;> rfl

/-- **What a reachable directory decides is backed** by what it shows. -/
theorem Reaches.backed {history : List Entry} {d : Directory} (h : Reaches history d)
    (few : (journal history).Bounded) (user : UserId) (cluster : ClusterId) :
    (d.decision user cluster).Backed (fun c => (d.carryOut c).1) (journal history).isDeleted user
      cluster := by
  have hstored {p : Permission} (hp : p ∈ d.permissions.rows) {group : GroupId}
      (named : p.subject = .group group) : d.groupRecords.contains group = true :=
    h.grantsBacked.grantGroup few.permissions p hp group named
  have hdecides := d.decides user cluster
  generalize d.decision user cluster = decision at hdecides ⊢
  cases hdecides with
  | own p ground least => exact ⟨d.grants cluster, rfl, ground.listed⟩
  | group group p unnamed ground least =>
    obtain ⟨found, hread, hmembers⟩ :=
      Directory.getGroup_of_contains (hstored ground.stored ground.named)
    refine ⟨d.grants cluster, found, rfl, hread, ground.listed, ?_⟩
    rw [← h.isSome_user?_of_member few ground.member, Bool.eq_iff_iff, hmembers,
      and_iff_right ground.member]
  | admin found groundless read role =>
    have huser : found.id = user := (Directory.user?_eq_some_iff.mp read).2
    have hlisted : found ∈ d.users := Directory.mem_users_iff.mpr (huser ▸ read)
    refine ⟨d.users, d.grants cluster, rfl, rfl, ⟨found, hlisted, huser, role⟩, fun p hp => ?_⟩
    obtain ⟨stored, here⟩ := Directory.mem_grants_iff.mp hp
    refine ⟨fun named => groundless.own p ⟨stored, here, named⟩, fun group named => ?_⟩
    obtain ⟨found, hread, hmembers⟩ := Directory.getGroup_of_contains (hstored stored named)
    refine ⟨found, hread, Bool.eq_false_iff.mpr fun hmember => ?_⟩
    exact groundless.group group p ⟨stored, here, named, ((hmembers user).mp hmember).1⟩
  | other found groundless read role => trivial
  | unknown groundless read => trivial

/-! ## What is noted -/

/-- What is found for groups names one of them. -/
theorem Directory.subject_of_groupGrant? {d : Directory} {groups : List GroupId}
    {cluster : ClusterId} {p : Permission} (h : d.groupGrant? groups cluster = some p) :
    ∃ group ∈ groups, p.subject = .group group := by
  have htest := List.find?_some h
  rw [Bool.and_eq_true, Permission.isForOneOf_iff] at htest
  exact htest.2

/-- No answer of a directory calls for a warning. -/
theorem Directory.warning?_reads (d : Directory) (user : UserId) (cluster : ClusterId) (q : Query) :
    Access.warning? user cluster ⟨.query q, d.reads.answer q⟩ = none := by
  cases q with
  | groupGrant groups asked =>
    change Access.warning? user cluster
      ⟨.query (.groupGrant groups asked), .ok (d.groupGrant? groups asked)⟩ = none
    cases hfound : d.groupGrant? groups asked with
    | none => rfl
    | some p =>
      obtain ⟨group, -, hsubject⟩ := Directory.subject_of_groupGrant? hfound
      simp only [Access.warning?, hsubject]
  | _ => rfl

/-- **A resolution with an available store notes its decision and nothing else.** -/
theorem Store.events_resolve (d : Directory) (user : UserId) (cluster : ClusterId) :
    ((Store.holding d).hold [] (Access.resolve user cluster)).events =
      [.accessResolved user cluster (d.decision user cluster)] := by
  have havailable : (Workspace.ofStore (.holding d)).store.available = true := rfl
  have hanswered := Enacts.answeredBy_workspace havailable
  have hquiet : (d.reads.exchanges user cluster).filterMap (Access.warning? user cluster) = [] := by
    refine List.filterMap_eq_nil_iff.mpr fun x hx => ?_
    obtain ⟨q, rfl⟩ := (Access.course d.reads user cluster).answers x hx
    exact d.warning?_reads user cluster q
  have hevents : ((Store.holding d).hold [] (Access.resolve user cluster)).events =
      ((Access.resolve user cluster).run Workspace.handler (.ofStore (.holding d))).events := by
    simp only [Store.hold, Conversation.run_faultless]
  rw [hevents, Access.run_resolve user cluster hanswered]
  change (d.reads.exchanges user cluster).filterMap (Access.warning? user cluster) ++ _ = _
  rw [hquiet]
  rfl

/-! ## Every run -/

/-- **Decisions are backed by what readers see.**  After every run on a fresh store that stays
within the ids there are, what the service lists and reads backs the decision on every user and
cluster.  After every run whatever, a resolution notes its decision and nothing else: in particular
it never notes that it was given a user's permission for a group's. -/
theorem Store.serve_backs_decisions (steps : List Step) (user : UserId) (cluster : ClusterId) :
    let run := ({} : Store).serve steps
    let read (c : Command) : c.Answer := (run.2.perform (.command c)).1
    let decision : Decision := read (.resolve user cluster)
    ((journal run.1).Bounded →
      decision.Backed read (journal run.1).isDeleted user cluster) ∧
    (run.2.hold [] (Access.resolve user cluster)).events =
      [.accessResolved user cluster decision] := by
  intro run read decision
  obtain ⟨d, hstore, hreaches⟩ := Store.serve_reaches steps
  have hrun : run.2 = .holding d := hstore
  have hread : read = fun c => (d.carryOut c).1 := by
    funext c
    change (run.2.perform (.command c)).1 = _
    rw [hrun, Store.perform_eq, Directory.enact]
  have hdecision : decision = d.decision user cluster := by
    change read (.resolve user cluster) = _
    rw [hread]
    rfl
  rw [hread, hdecision, hrun]
  exact ⟨fun few => hreaches.backed few user cluster, Store.events_resolve d user cluster⟩

/-- A group of two has a permission.  The one who was deleted since keeps access by it, and a reader
of the group is shown the other one alone.  An administrator needs no permission. -/
theorem Store.serve_backs_decisions_deleted_member :
    let steps : List Step :=
      [.insertUser { username := "ada" }, .insertUser { username := "bob" },
        .insertUser { username := "root", role := .admin }, .command (.createGroup "ops" ""),
        .command (.addMember ⟨1⟩ ⟨1⟩), .command (.addMember ⟨1⟩ ⟨2⟩),
        .command (.grant (.group ⟨1⟩) ⟨5⟩), .softDelete ⟨2⟩]
    let run := ({} : Store).serve steps
    let read (c : Command) : c.Answer := (run.2.perform (.command c)).1
    (journal run.1).Bounded ∧
      read (.resolve ⟨1⟩ ⟨5⟩) = .groupGrant ⟨1⟩ ⟨1⟩ ∧
      read (.resolve ⟨2⟩ ⟨5⟩) = .groupGrant ⟨1⟩ ⟨1⟩ ∧
      read (.resolve ⟨3⟩ ⟨5⟩) = .adminRole ∧
      (∃ found, read (.getGroup ⟨1⟩) = .ok found ∧ found.hasMember ⟨1⟩ = true) ∧
      (∃ found, read (.getGroup ⟨1⟩) = .ok found ∧ found.hasMember ⟨2⟩ = false) ∧
      (∃ users, read .listUsers = .ok users ∧
        ∃ found ∈ users, found.id = ⟨3⟩ ∧ found.role = .admin) ∧
      (run.2.hold [] (Access.resolve ⟨2⟩ ⟨5⟩)).events =
        [.accessResolved ⟨2⟩ ⟨5⟩ (.groupGrant ⟨1⟩ ⟨1⟩)] := by
  intro steps run read
  have hfew : (journal run.1).Bounded := ⟨by decide, by decide, by decide⟩
  have hfirst : read (.resolve ⟨1⟩ ⟨5⟩) = .groupGrant ⟨1⟩ ⟨1⟩ := by decide
  have hsecond : read (.resolve ⟨2⟩ ⟨5⟩) = .groupGrant ⟨1⟩ ⟨1⟩ := by decide
  have hadmin : read (.resolve ⟨3⟩ ⟨5⟩) = .adminRole := by decide
  have hbacked (user : UserId) :
      (read (.resolve user ⟨5⟩)).Backed read (journal run.1).isDeleted user ⟨5⟩ :=
    (Store.serve_backs_decisions steps user ⟨5⟩).1 hfew
  obtain ⟨-, first, -, hread, -, hmember⟩ := hfirst ▸ hbacked ⟨1⟩
  obtain ⟨-, second, -, hread', -, hmember'⟩ := hsecond ▸ hbacked ⟨2⟩
  obtain ⟨users, -, husers, -, hlisted, -⟩ := hadmin ▸ hbacked ⟨3⟩
  have hevents : (run.2.hold [] (Access.resolve ⟨2⟩ ⟨5⟩)).events =
      [.accessResolved ⟨2⟩ ⟨5⟩ (read (.resolve ⟨2⟩ ⟨5⟩))] :=
    (Store.serve_backs_decisions steps ⟨2⟩ ⟨5⟩).2
  exact ⟨hfew, hfirst, hsecond, hadmin, ⟨first, hread, hmember.trans (by decide)⟩,
    ⟨second, hread', hmember'.trans (by decide)⟩, ⟨users, husers, hlisted⟩, hsecond ▸ hevents⟩

end ClusterAccess
