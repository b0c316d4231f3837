import ClusterAccess.Proofs.Service.Disbanding
import Mathlib.Algebra.BigOperators.Group.Finset.Basic
import Mathlib.Algebra.BigOperators.Group.Finset.Piecewise
import Mathlib.Data.FinEnum

/-!
# Lookups of permissions

A permission is looked up in four ways: by its cluster, by a user, by several groups and, to be
counted, by one group.  The first of these tells the most.  What the others answer can be read off
the lists of permissions on the clusters, of which each is in the order of the ids (`LookupsAgree`),
so that nothing is said of the permissions of one cluster that its list does not bear out.

Every permission is on one cluster.  Those that name a group are therefore as many as the lists of
all clusters have of them together, a cluster being one of 2^64.
-/

namespace ClusterAccess

noncomputable instance : Fintype ClusterId := .ofInjective ClusterId.value fun _ _ => ClusterId.ext

/-- Answers about permissions that are those of the lists, of which each has what is stored. -/
structure LookupsAgree (stored : List Permission) (read : (q : Query) → q.hook.Answer) : Prop where
  ascending : ∀ cluster, (read (.grants cluster)).Pairwise fun p q => p.id < q.id
  mem_iff : ∀ cluster p, p ∈ read (.grants cluster) ↔ p ∈ stored ∧ p.cluster = cluster
  userGrant : ∀ user cluster, read (.userGrant user cluster) =
    (read (.grants cluster)).find? fun p => decide (p.subject = .user user)
  groupGrant : ∀ groups cluster, read (.groupGrant groups cluster) =
    (read (.grants cluster)).find? fun p => decide (∃ group ∈ groups, p.subject = .group group)
  grantCount : ∀ group, read (.grantCount group) = .ofNat (∑ cluster,
    (read (.grants cluster)).countP fun p => decide (p.subject = .group group))

/-! ## Several groups -/

namespace LookupsAgree

variable {stored : List Permission} {read : (q : Query) → q.hook.Answer}
  (h : LookupsAgree stored read) {groups groups' : List GroupId} {cluster : ClusterId}

include h

theorem groupGrant_nil : read (.groupGrant [] cluster) = none := by
  rw [h.groupGrant]
  exact List.find?_eq_none.mpr fun p _ => by simp

/-- More groups have a permission wherever fewer do, and it is no later one. -/
theorem groupGrant_mono (more : groups ⊆ groups') {p : Permission}
    (found : read (.groupGrant groups cluster) = some p) :
    ∃ p', read (.groupGrant groups' cluster) = some p' ∧ p'.id.value ≤ p.id.value := by
  let listed : Table PermissionId Permission.id := ⟨read (.grants cluster), h.ascending cluster⟩
  rw [h.groupGrant] at found ⊢
  obtain ⟨hmem, hnamed, -⟩ := Table.find?_rows_eq_some_iff (t := listed) |>.mp found
  have hnamed' : decide (∃ group ∈ groups', p.subject = .group group) = true := by
    obtain ⟨group, hgroup, hsubject⟩ := of_decide_eq_true hnamed
    exact decide_eq_true ⟨group, more hgroup, hsubject⟩
  have hsome : (listed.rows.find? fun p =>
      decide (∃ group ∈ groups', p.subject = .group group)).isSome = true :=
    List.find?_isSome.mpr ⟨p, hmem, hnamed'⟩
  obtain ⟨p', hfound⟩ := Option.isSome_iff_exists.mp hsome
  obtain ⟨-, -, hleast⟩ := Table.find?_rows_eq_some_iff (t := listed) |>.mp hfound
  exact ⟨p', hfound, UInt64.not_lt.mp (hleast p hmem hnamed')⟩

/-- It makes no difference in which order groups are listed, and how often. -/
theorem groupGrant_congr (same : ∀ group, group ∈ groups ↔ group ∈ groups') :
    read (.groupGrant groups cluster) = read (.groupGrant groups' cluster) := by
  rw [h.groupGrant, h.groupGrant]
  simp only [same]

end LookupsAgree

/-! ## Lookups in a directory -/

/-- What is counted in a list is counted in its parts, whatever sorts it into parts. -/
theorem countP_eq_sum_countP_filter {α ι : Type} [Fintype ι] [DecidableEq ι] (part : α → ι)
    (test : α → Bool) (l : List α) :
    l.countP test = ∑ i, (l.filter fun a => decide (part a = i)).countP test := by
  induction l with
  | nil => simp
  | cons a l ih =>
    have hhead (i : ι) : ((a :: l).filter fun a => decide (part a = i)).countP test =
        (l.filter fun a => decide (part a = i)).countP test +
          if part a = i then (if test a = true then 1 else 0) else 0 := by
      by_cases h : part a = i <;> simp [h, List.countP_cons]
    rw [List.countP_cons, ih, Finset.sum_congr rfl fun i _ => hhead i, Finset.sum_add_distrib,
      Finset.sum_ite_eq, if_pos (Finset.mem_univ _)]

namespace Directory

variable (d : Directory)

theorem namedBy_eq_sum (group : GroupId) : d.namedBy group =
    ∑ cluster, (d.grants cluster).countP fun p => decide (p.subject = .group group) :=
  countP_eq_sum_countP_filter Permission.cluster _ _

/-- **The lookups of a directory agree**, whatever is in its tables. -/
theorem lookupsAgree : LookupsAgree d.permissions.rows d.answer where
  ascending := d.grants_ascending
  mem_iff _ _ := mem_grants_iff
  userGrant user cluster := d.userGrant?_eq_find? cluster user
  groupGrant groups cluster := d.groupGrant?_eq_find? cluster groups
  grantCount group := congrArg UInt64.ofNat (d.namedBy_eq_sum group)

end Directory

/-! ## Every state -/

namespace Store

/-- **Lookups of permissions agree with the lists, in every state.**  Let any deeds be done to a
fresh store, arbitrary transactions among them.  The list of a cluster has the permissions that are
stored on it, in strictly ascending order of their ids.  A user's permission on a cluster is the
first in the list that names the user, and that of several groups the first that names one of the
groups.  So there is none for no groups; how often and in which order groups are named makes no
difference; and where some groups have a permission, more groups have one that is no later.  The
permissions that name a group are counted as the lists of all clusters have them; the count is exact
unless as many permissions were granted as there are ids. -/
theorem live_lookups (deeds : List Deed) :
    let run := ({} : Store).live deeds
    let read (q : Query) : q.hook.Answer := run.2.directory.answer q
    (∀ q, run.2.answer q = .ok (read q)) ∧
    LookupsAgree run.2.directory.permissions.rows read ∧
    (∀ cluster, read (.groupGrant [] cluster) = none) ∧
    (∀ groups groups' cluster, (∀ group, group ∈ groups ↔ group ∈ groups') →
      read (.groupGrant groups cluster) = read (.groupGrant groups' cluster)) ∧
    (∀ groups groups' cluster p, groups ⊆ groups' → read (.groupGrant groups cluster) = some p →
      ∃ p', read (.groupGrant groups' cluster) = some p' ∧ p'.id.value ≤ p.id.value) ∧
    ((everKept run.1).grantedPermissions.length < 2 ^ 64 →
      ∀ group, (read (.grantCount group)).toNat = ∑ cluster,
        (read (.grants cluster)).countP fun p => decide (p.subject = .group group)) := by
  intro run read
  obtain ⟨d, hstore, hgrown⟩ := live_grown deeds
  have hrun : run.2 = .holding d := hstore
  have hread : read = d.answer := congrArg (fun store => store.directory.answer) hstore
  have hagree := d.lookupsAgree
  rw [hrun, hread]
  refine ⟨answer_of_available rfl, hagree, fun _ => hagree.groupGrant_nil,
    fun _ _ _ => hagree.groupGrant_congr, fun _ _ _ _ more => hagree.groupGrant_mono more,
    fun few group => ?_⟩
  have hcount : (d.grantCount group).toNat = d.namedBy group := by
    rw [d.toNat_grantCount, Nat.mod_eq_of_lt (hgrown.namedBy_lt few)]
  exact hcount.trans (d.namedBy_eq_sum group)

/-- A user and a group have the same number, and so have another user and another group.  Of two
permissions that were given to one of the groups on the same cluster the first is revoked. -/
theorem live_lookups_same_numbers :
    let steps : List Step :=
      [.insertUser { username := "ada" }, .insertUser { username := "eve" },
        .command (.createGroup "ops" ""), .command (.createGroup "dev" ""),
        .command (.grant (.user ⟨2⟩) ⟨5⟩), .command (.grant (.group ⟨2⟩) ⟨5⟩),
        .command (.grant (.group ⟨1⟩) ⟨5⟩), .command (.grant (.group ⟨2⟩) ⟨6⟩),
        .command (.grant (.group ⟨2⟩) ⟨5⟩), .command (.revoke ⟨2⟩)]
    let run := ({} : Store).live (steps.map Deed.step)
    let d := run.2.directory
    LookupsAgree d.permissions.rows d.answer ∧
      d.userGrant? ⟨2⟩ ⟨5⟩ = some ⟨⟨1⟩, ⟨5⟩, .user ⟨2⟩⟩ ∧ d.userGrant? ⟨1⟩ ⟨5⟩ = none ∧
      d.groupGrant? [⟨2⟩] ⟨5⟩ = some ⟨⟨5⟩, ⟨5⟩, .group ⟨2⟩⟩ ∧
      (∃ p, d.groupGrant? [⟨1⟩, ⟨2⟩] ⟨5⟩ = some p ∧ p.id.value ≤ 5) ∧
      d.groupGrant? [⟨2⟩, ⟨1⟩, ⟨2⟩] ⟨5⟩ = d.groupGrant? [⟨1⟩, ⟨2⟩] ⟨5⟩ ∧
      ∑ cluster, (d.grants cluster).countP (fun p => decide (p.subject = .group ⟨2⟩)) = 2 := by
  intro steps run d
  obtain ⟨-, hagree, -, hcongr, hmono, hcount⟩ := live_lookups (steps.map Deed.step)
  have hfirst : d.groupGrant? [⟨2⟩] ⟨5⟩ = some ⟨⟨5⟩, ⟨5⟩, .group ⟨2⟩⟩ := by decide
  have hnamed : (d.grantCount ⟨2⟩).toNat = 2 := by decide
  have hfew : (everKept run.1).grantedPermissions.length < 2 ^ 64 := by decide
  refine ⟨hagree, by decide, by decide, hfirst, hmono [⟨2⟩] _ _ _ (by decide) hfirst,
    hcongr _ _ _ fun group => ?_, (hcount hfew ⟨2⟩).symm.trans hnamed⟩
  simp only [List.mem_cons, List.not_mem_nil, or_false]
  tauto

end Store

end ClusterAccess
