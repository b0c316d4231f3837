import ClusterAccess.Proofs.Service.Grounds
import ClusterAccess.Proofs.Service.Names

/-!
# Groups that are deleted

Deletion of a group looks twice before it does anything: the group has to be stored, and no
permission may name it.  What is deleted then is the group and all its memberships, of whomever they
are, and nothing else (`Directory.withoutGroup`).  None of that asks whether the directory is
consistent, so it holds of one in which raw transactions have left memberships of nobody, too.

Permissions are counted in a word.  A count is right unless it is 2^64, for which every id there is
has to be that of a permission for the group (`Directory.namedBy_le`).
-/

namespace ClusterAccess

namespace Directory

variable {d : Directory} {group : GroupId}

/-! ## Permissions that name a group -/

/-- The number of permissions, on whatever cluster, that are given to a group. -/
def namedBy (d : Directory) (group : GroupId) : Nat :=
  d.permissions.rows.countP fun p => decide (p.subject = .group group)

theorem namedBy_le_size (d : Directory) (group : GroupId) : d.namedBy group ≤ d.permissions.size :=
  List.countP_le_length

/-- There are no more permissions than ids. -/
theorem namedBy_le (d : Directory) (group : GroupId) : d.namedBy group ≤ 2 ^ 64 := by
  have hnumbers : ∀ p ∈ d.permissions.rows, p.id.value.toNat ∈ List.range (2 ^ 64) :=
    fun p _ => List.mem_range.mpr p.id.value.toNat_lt
  have hsize := Table.size_le_length
    (fun _ _ heq => PermissionId.ext (UInt64.toNat_inj.mp heq)) hnumbers
  rw [List.length_range] at hsize
  exact (d.namedBy_le_size group).trans hsize

theorem toNat_grantCount (d : Directory) (group : GroupId) :
    (d.grantCount group).toNat = d.namedBy group % 2 ^ 64 :=
  UInt64.toNat_ofNat'

theorem grantCount_pos_iff : 0 < d.grantCount group ↔ 0 < d.namedBy group ∧
    d.namedBy group < 2 ^ 64 := by
  have hle := d.namedBy_le group
  rw [UInt64.lt_iff_toNat_lt, toNat_grantCount, UInt64.toNat_zero]
  omega

/-! ## The three outcomes -/

/-- The directory without a group and its memberships. -/
def withoutGroup (d : Directory) (group : GroupId) : Directory :=
  { d with
    groupRecords := d.groupRecords.filter fun record => !decide (record.id = group)
    memberships := d.memberships.filter fun m => !decide (m.group = group) }

theorem removeGroup_of_missing (h : d.groupRecords.contains group = false) :
    d.removeGroup group = (.error (.notFound (.group group)), d) := by
  rw [removeGroup, h]
  rfl

theorem removeGroup_of_named (stored : d.groupRecords.contains group = true)
    (named : 0 < d.grantCount group) :
    d.removeGroup group = (.error (.referenced group (d.grantCount group)), d) := by
  rw [removeGroup, if_pos stored, if_pos named]

theorem removeGroup_of_unnamed (stored : d.groupRecords.contains group = true)
    (unnamed : ¬ 0 < d.grantCount group) :
    d.removeGroup group = (.ok (), d.withoutGroup group) := by
  rw [removeGroup, if_pos stored, if_neg unnamed]
  rfl

/-- Every deletion has one of the three outcomes. -/
theorem removeGroup_cases (d : Directory) (group : GroupId) :
    (d.groupRecords.contains group = false ∧
      d.removeGroup group = (.error (.notFound (.group group)), d)) ∨
    (d.groupRecords.contains group = true ∧ 0 < d.grantCount group ∧
      d.removeGroup group = (.error (.referenced group (d.grantCount group)), d)) ∨
    (d.groupRecords.contains group = true ∧ ¬ 0 < d.grantCount group ∧
      d.removeGroup group = (.ok (), d.withoutGroup group)) := by
  cases hstored : d.groupRecords.contains group with
  | false => exact .inl ⟨rfl, removeGroup_of_missing hstored⟩
  | true =>
    by_cases hnamed : 0 < d.grantCount group
    · exact .inr (.inl ⟨rfl, hnamed, removeGroup_of_named hstored hnamed⟩)
    · exact .inr (.inr ⟨rfl, hnamed, removeGroup_of_unnamed hstored hnamed⟩)

theorem removeGroup_eq_notFound_iff :
    (d.removeGroup group).1 = .error (.notFound (.group group)) ↔
      d.groupRecords.contains group = false := by
  rcases d.removeGroup_cases group with ⟨hstored, h⟩ | ⟨hstored, -, h⟩ | ⟨hstored, -, h⟩
  · rw [h]
    exact iff_of_true rfl hstored
  · rw [h, hstored]
    exact iff_of_false nofun nofun
  · rw [h, hstored]
    exact iff_of_false nofun nofun

theorem removeGroup_eq_referenced_iff {n : UInt64} :
    (d.removeGroup group).1 = .error (.referenced group n) ↔
      d.groupRecords.contains group = true ∧ 0 < n ∧ n.toNat = d.namedBy group := by
  have hcount := d.toNat_grantCount group
  have hle := d.namedBy_le group
  rcases d.removeGroup_cases group with ⟨hstored, h⟩ | ⟨hstored, hnamed, h⟩ | ⟨hstored, hnamed, h⟩
  · rw [h, hstored]
    exact iff_of_false nofun nofun
  · rw [h]
    have hexact : (d.grantCount group).toNat = d.namedBy group := by
      have hpos := grantCount_pos_iff.mp hnamed
      omega
    constructor
    · rintro ⟨⟩
      exact ⟨hstored, hnamed, hexact⟩
    · rintro ⟨-, -, hn⟩
      rw [UInt64.toNat_inj.mp (hexact.trans hn.symm)]
  · rw [h]
    refine iff_of_false nofun ?_
    rintro ⟨-, hpos, hn⟩
    refine hnamed (grantCount_pos_iff.mpr ⟨?_, ?_⟩)
    · rw [← hn]
      exact UInt64.lt_iff_toNat_lt.mp hpos
    · rw [← hn]
      exact n.toNat_lt

theorem removeGroup_eq_ok_iff :
    (d.removeGroup group).1 = .ok () ↔
      d.groupRecords.contains group = true ∧
        (d.namedBy group = 0 ∨ d.namedBy group = 2 ^ 64) := by
  have hle := d.namedBy_le group
  rcases d.removeGroup_cases group with ⟨hstored, h⟩ | ⟨hstored, hnamed, h⟩ | ⟨hstored, hnamed, h⟩
  · rw [h, hstored]
    exact iff_of_false nofun nofun
  · rw [h]
    refine iff_of_false nofun fun hunnamed => ?_
    have hpos := grantCount_pos_iff.mp hnamed
    omega
  · rw [h]
    refine iff_of_true rfl ⟨hstored, ?_⟩
    have hzero := mt grantCount_pos_iff.mpr hnamed
    omega

/-- A refusal leaves everything as it is. -/
theorem removeGroup_of_error {e : AdminError} (h : (d.removeGroup group).1 = .error e) :
    (d.removeGroup group).2 = d := by
  rcases d.removeGroup_cases group with ⟨-, heq⟩ | ⟨-, -, heq⟩ | ⟨-, -, heq⟩
  · rw [heq]
  · rw [heq]
  · rw [heq] at h
    cases h

theorem removeGroup_of_ok (h : (d.removeGroup group).1 = .ok ()) :
    (d.removeGroup group).2 = d.withoutGroup group := by
  rcases d.removeGroup_cases group with ⟨-, heq⟩ | ⟨-, -, heq⟩ | ⟨-, -, heq⟩
  · rw [heq] at h
    cases h
  · rw [heq] at h
    cases h
  · rw [heq]

theorem contains_withoutGroup (d : Directory) (group : GroupId) :
    (d.withoutGroup group).groupRecords.contains group = false := by
  have herased : (d.withoutGroup group).groupRecords = d.groupRecords.erase group := rfl
  rw [herased, Table.contains_eq_isSome, Table.find?_erase, if_pos rfl]
  rfl

theorem mem_groupRecords_withoutGroup {record : GroupRecord} :
    record ∈ (d.withoutGroup group).groupRecords.rows ↔
      record ∈ d.groupRecords.rows ∧ record.id ≠ group := by
  simp only [withoutGroup, Table.mem_filter_iff, Bool.not_eq_true', decide_eq_false_iff_not]

theorem mem_memberships_withoutGroup {m : Membership} :
    m ∈ (d.withoutGroup group).memberships.rows ↔
      m ∈ d.memberships.rows ∧ m.group ≠ group := by
  simp only [withoutGroup, Table.mem_filter_iff, Bool.not_eq_true', decide_eq_false_iff_not]

/-- Permissions are stored only when they are granted. -/
theorem Grown.size_permissions_le {j : Journal} {d : Directory} (h : d.Grown j) :
    d.permissions.size ≤ j.grantedPermissions.length := by
  induction h with
  | start => exact Nat.le_refl 0
  | @step j d d' change h alters ih =>
    rw [Journal.grantedPermissions_append, List.length_append]
    cases alters with
    | insertGrant subject cluster reached =>
      exact (Table.size_insert_le _ _).trans (Nat.add_le_add_right ih 1)
    | deleteGrant id => exact (Table.size_erase_le _ _).trans ih
    | _ => exact ih

/-- With fewer grants than ids, permissions are not too many to be counted. -/
theorem Grown.namedBy_lt {j : Journal} (h : d.Grown j)
    (few : j.grantedPermissions.length < 2 ^ 64) : d.namedBy group < 2 ^ 64 :=
  ((d.namedBy_le_size group).trans h.size_permissions_le).trans_lt few

end Directory

/-! ## Every run -/

namespace Store

theorem perform_getGroup_of_missing {d : Directory} {group : GroupId}
    (h : d.groupRecords.contains group = false) :
    ((holding d).perform (.command (.getGroup group))).1 = .error (.notFound (.group group)) := by
  have hread : d.group? group = none := by
    rw [Table.contains_eq_isSome, Option.isSome_eq_false_iff, Option.isNone_iff_eq_none] at h
    rw [Directory.group?, h]
    rfl
  rw [perform_eq, Directory.enact, Directory.carryOut, hread]

/-- **Groups are deleted whole, alone, and only when no permission names them**, whatever was done
to the store before, also by raw transactions.  A group that is not stored is not found.  One that
is stored is kept as long as permissions name it, on whatever clusters, and the answer is how many
they are.  (The count of 2^64 permissions, which takes every id there is, would be zero; no run with
fewer grants comes to that.)  Otherwise the group goes with all of its memberships, those of users
who are deleted and of users who never were among them.  Everything else stays as it is, and all of
it if the group is kept; and a group that is gone is not found any more. -/
theorem live_deletes_groups :
    (∀ deeds : List Deed, ∃ d, (({} : Store).live deeds).2 = .holding d ∧
      ((everMade (({} : Store).live deeds).1).Bounded → ∀ group, d.namedBy group < 2 ^ 64)) ∧
    ∀ (d : Directory) (group : GroupId),
      let deletion := (holding d).perform (.command (.deleteGroup group))
      let left := deletion.2.directory
      (deletion.1 = .error (.notFound (.group group)) ↔
        d.groupRecords.contains group = false) ∧
      (∀ n, deletion.1 = .error (.referenced group n) ↔
        d.groupRecords.contains group = true ∧ 0 < n ∧ n.toNat = d.namedBy group) ∧
      (deletion.1 = .ok () ↔ d.groupRecords.contains group = true ∧
        (d.namedBy group = 0 ∨ d.namedBy group = 2 ^ 64)) ∧
      (∀ e, deletion.1 = .error e → deletion.2 = .holding d) ∧
      (deletion.1 = .ok () →
        deletion.2 = .holding
          { d with groupRecords := left.groupRecords, memberships := left.memberships } ∧
        (∀ record, record ∈ left.groupRecords.rows ↔
          record ∈ d.groupRecords.rows ∧ record.id ≠ group) ∧
        (∀ m, m ∈ left.memberships.rows ↔ m ∈ d.memberships.rows ∧ m.group ≠ group) ∧
        (deletion.2.perform (.command (.getGroup group))).1 =
          .error (.notFound (.group group)) ∧
        deletion.2.perform (.command (.deleteGroup group)) =
          (.error (.notFound (.group group)), deletion.2)) := by
  refine ⟨fun deeds => ?_, fun d group => ?_⟩
  · obtain ⟨d, hstore, hgrown⟩ := live_grown deeds
    exact ⟨d, hstore, fun few group =>
      hgrown.namedBy_lt (few.of_sublist (everKept_sublist_everMade _)).permissions⟩
  · intro deletion left
    have hdeletion : deletion = _ := perform_deleteGroup d group
    have hleft : left = (d.removeGroup group).2 := congrArg (fun out => out.2.directory) hdeletion
    rw [hdeletion]
    refine ⟨Directory.removeGroup_eq_notFound_iff, fun n => Directory.removeGroup_eq_referenced_iff,
      Directory.removeGroup_eq_ok_iff, fun e h => ?_, fun h => ?_⟩
    · exact congrArg holding (Directory.removeGroup_of_error h)
    · have hwithout := Directory.removeGroup_of_ok h
      have hmissing := d.contains_withoutGroup group
      rw [hleft, hwithout]
      refine ⟨rfl, fun record => Directory.mem_groupRecords_withoutGroup,
        fun m => Directory.mem_memberships_withoutGroup, perform_getGroup_of_missing hmissing, ?_⟩
      rw [perform_deleteGroup, Directory.removeGroup_of_missing hmissing]

/-- Raw transactions have put two strangers into a group, one of whom is no user at all and one of
whom is deleted.  They go with the group; another one that a permission names is kept. -/
theorem live_deletes_groups_dangling :
    let join (group : GroupId) (user : UserId) : ExceptT StoreError Transaction Bool :=
      ExceptT.mk (Dialogue.request (Action.insertMembership { group, user }))
    let deeds : List Deed :=
      [.step (.insertUser { username := "ada" }), .step (.insertUser { username := "bob" }),
        .step (.command (.createGroup "ops" "")), .step (.command (.createGroup "dev" "")),
        .step (.softDelete ⟨2⟩), .transact (fun e => e) (join ⟨1⟩ ⟨2⟩),
        .transact (fun e => e) (join ⟨1⟩ ⟨99⟩), .step (.command (.addMember ⟨2⟩ ⟨1⟩)),
        .step (.command (.grant (.group ⟨2⟩) ⟨5⟩))]
    let d := (({} : Store).live deeds).2.directory
    let deletion := (holding d).perform (.command (.deleteGroup ⟨1⟩))
    (({} : Store).live deeds).2 = .holding d ∧ (∀ group, d.namedBy group < 2 ^ 64) ∧
      d.memberships.rows = [⟨⟨1⟩, ⟨2⟩⟩, ⟨⟨1⟩, ⟨99⟩⟩, ⟨⟨2⟩, ⟨1⟩⟩] ∧
      deletion.1 = .ok () ∧ deletion.2.directory.memberships.rows = [⟨⟨2⟩, ⟨1⟩⟩] ∧
      deletion.2.perform (.command (.deleteGroup ⟨1⟩)) =
        (.error (.notFound (.group ⟨1⟩)), deletion.2) ∧
      ((holding d).perform (.command (.deleteGroup ⟨2⟩))).1 = .error (.referenced ⟨2⟩ 1) ∧
      ((holding d).perform (.command (.deleteGroup ⟨2⟩))).2 = .holding d ∧
      ((holding d).perform (.command (.deleteGroup ⟨3⟩))).1 =
        .error (.notFound (.group ⟨3⟩)) := by
  intro join deeds d deletion
  obtain ⟨hdeeds, hdelete⟩ := live_deletes_groups
  have hbounded : (everMade (({} : Store).live deeds).1).Bounded :=
    ⟨by decide, by decide, by decide⟩
  obtain ⟨d', hstore, hfew⟩ := hdeeds deeds
  obtain rfl : d = d' := congrArg Store.directory hstore
  obtain ⟨-, -, hok, -, hgone⟩ := hdelete d ⟨1⟩
  obtain ⟨-, hreferenced, -, hkept, -⟩ := hdelete d ⟨2⟩
  obtain ⟨hmissing, -, -, -, -⟩ := hdelete d ⟨3⟩
  have hdeleted : deletion.1 = .ok () := hok.mpr ⟨by decide, .inl (by decide)⟩
  obtain ⟨-, -, -, -, hagain⟩ := hgone hdeleted
  have hnamed := (hreferenced 1).mpr ⟨by decide, by decide, by decide⟩
  exact ⟨hstore, hfew hbounded, by decide, hdeleted, by decide, hagain, hnamed, hkept _ hnamed,
    hmissing.mpr (by decide)⟩

end Store

end ClusterAccess
