import ClusterAccess.Proofs.Service.Integrity
import ClusterAccess.Proofs.Service.Reference

/-!
# Agreement with the reference model

After every run the tables hold what the journal says (`Agrees`): the rows of three of them are what
stands, and the memberships are those that the journal knows of, as far as their groups are still
stored.  A group that was deleted may well go on having members in the journal.  No permission names
it, so that nobody has access by it.

Since ids are never handed out twice, a change has to do with one row only, and since rows are in
the order of their ids, the first permission that a search comes to is the one with the smallest id.
-/

namespace ClusterAccess

/-! ## Tables that hold what stands -/

section Holding

variable {κ α : Type} [Key κ] {key : α → κ} {t : Table κ key} {j : Journal}
  {made : Change → Option α} {undone : α → Change} {change : Change}
  (h : ∀ x, x ∈ t.rows ↔ x ∈ j.standing made undone)

include h

theorem mem_rows_keep (hmade : made change = none) (hundone : ∀ x, undone x ≠ change) (x : α) :
    x ∈ t.rows ↔ x ∈ Journal.standing made undone (j ++ [change]) := by
  rw [Journal.mem_standing_concat, hmade, ← h]
  constructor
  · intro hx
    exact .inl ⟨hx, hundone x⟩
  · rintro (⟨hx, -⟩ | hx)
    · exact hx
    · cases hx

theorem mem_rows_insert [DecidableEq κ] {row : α} (hmade : made change = some row)
    (hundone : ∀ x, undone x ≠ change) (fresh : ∀ x ∈ t.rows, key x ≠ key row) (x : α) :
    x ∈ (t.insert row).rows ↔ x ∈ Journal.standing made undone (j ++ [change]) := by
  rw [Table.mem_insert_fresh_iff fresh, Journal.mem_standing_concat, hmade, ← h]
  constructor
  · rintro (rfl | hx)
    · exact .inr rfl
    · exact .inl ⟨hx, hundone x⟩
  · rintro (⟨hx, -⟩ | hx)
    · exact .inr hx
    · exact .inl (Option.some.inj hx).symm

theorem mem_rows_erase [DecidableEq κ] {k : κ} (hmade : made change = none)
    (hundone : ∀ x, undone x = change ↔ key x = k) (x : α) :
    x ∈ (t.erase k).rows ↔ x ∈ Journal.standing made undone (j ++ [change]) := by
  rw [Table.mem_erase_iff, Journal.mem_standing_concat, hmade, ← h, ne_eq, ne_eq, hundone]
  constructor
  · intro hx
    exact .inl hx
  · rintro (hx | hx)
    · exact hx
    · cases hx

end Holding

/-! ## Agreement -/

/-- The tables hold what the journal says, which is only about ids that were handed out. -/
structure Agrees (j : Journal) (d : Directory) : Prop where
  numbered : Numbered j d
  accounts : ∀ account, account ∈ d.accounts.rows ↔
    account.user ∈ j.insertedUsers ∧ account.deleted = j.isDeleted account.user.id
  groups : ∀ record, record ∈ d.groupRecords.rows ↔ record ∈ j.groups
  permissions : ∀ p, p ∈ d.permissions.rows ↔ p ∈ j.permissions
  memberships : ∀ m, m ∈ d.memberships.rows ↔
    d.groupRecords.contains m.group = true ∧ j.isMember m = true
  deleted : ∀ user, j.isDeleted user = true → user.value ≤ d.lastUser
  added : ∀ m, j.isMember m = true → m.group.value ≤ d.lastGroup

namespace Agrees

variable {j : Journal} {d d' : Directory} {change : Option Change}

/-! ## Ids in use -/

theorem ne_next {id last : UInt64} (hle : id ≤ last) (hlt : last < last + 1) : id ≠ last + 1 := by
  rintro rfl
  exact UInt64.not_lt.mpr hle hlt

theorem account_le (h : Agrees j d) {account : Account} (haccount : account ∈ d.accounts.rows) :
    account.user.id.value ≤ d.lastUser :=
  h.numbered.users.le_last
    (List.mem_map_of_mem (f := fun user => user.id.value) ((h.accounts account).mp haccount).1)

theorem group_le (h : Agrees j d) {record : GroupRecord}
    (hrecord : record ∈ d.groupRecords.rows) : record.id.value ≤ d.lastGroup :=
  h.numbered.groups.le_last
    (List.mem_map_of_mem (f := fun record => record.id.value)
      (Journal.mem_createdGroups_of_mem ((h.groups record).mp hrecord)))

theorem permission_le (h : Agrees j d) {p : Permission} (hp : p ∈ d.permissions.rows) :
    p.id.value ≤ d.lastPermission :=
  h.numbered.permissions.le_last
    (List.mem_map_of_mem (f := fun p => p.id.value)
      (Journal.mem_grantedPermissions_of_mem ((h.permissions p).mp hp)))

/-- Users that were inserted have different ids. -/
theorem user_eq (h : Agrees j d) {user other : User} (huser : user ∈ j.insertedUsers)
    (hother : other ∈ j.insertedUsers) (hid : user.id = other.id) : user = other := by
  have hrow {found : User} (hfound : found ∈ j.insertedUsers) :
      { user := found, deleted := j.isDeleted found.id } ∈ d.accounts.rows :=
    (h.accounts _).mpr ⟨hfound, rfl⟩
  exact congrArg Account.user (Table.eq_of_key_eq (hrow huser) (hrow hother) hid)

/-! ## One more change -/

section Step

variable (few : Journal.Bounded (j ++ change.toList)) (h : Agrees j d)
  (effect : Effect d change d')

include few h effect

theorem accounts_step (account : Account) : account ∈ d'.accounts.rows ↔
    account.user ∈ Journal.insertedUsers (j ++ change.toList) ∧
      account.deleted = Journal.isDeleted (j ++ change.toList) account.user.id := by
  cases effect with
  | userInserted new =>
    have hlt := h.numbered.lt_nextUser few
    have hunused : j.isDeleted ⟨d.lastUser + 1⟩ = false := by
      refine Bool.eq_false_iff.mpr fun hdeleted => ?_
      exact ne_next (h.deleted _ hdeleted) hlt rfl
    have hfresh : ∀ x ∈ d.accounts.rows, x.user.id ≠ ⟨d.lastUser + 1⟩ := by
      intro x hx hid
      exact ne_next (h.account_le hx) hlt (congrArg UserId.value hid)
    have hnew : Journal.isDeleted (j ++ [.userInserted (new.withId ⟨d.lastUser + 1⟩)])
        account.user.id = j.isDeleted account.user.id := by
      rw [Journal.isDeleted_concat]
      exact Bool.or_false _
    refine (Table.mem_insert_fresh_iff hfresh).trans ?_
    rw [h.accounts, Journal.insertedUsers_append, Option.toList_some, hnew, List.mem_append]
    constructor
    · rintro (rfl | ⟨huser, hdeleted⟩)
      · exact ⟨.inr (List.mem_singleton.mpr rfl), hunused.symm⟩
      · exact ⟨.inl huser, hdeleted⟩
    · rintro ⟨huser | huser, hdeleted⟩
      · exact .inr ⟨huser, hdeleted⟩
      · obtain ⟨user, deleted⟩ := account
        cases List.mem_singleton.mp huser
        cases hdeleted.trans hunused
        exact .inl rfl
  | userDeleted id user found =>
    obtain ⟨hrow, rfl⟩ := Directory.user?_eq_some_iff.mp found
    have huser := ((h.accounts _).mp hrow).1
    refine Table.mem_insert_iff.trans ?_
    rw [h.accounts, Journal.insertedUsers_append, Option.toList_some, Journal.isDeleted_concat,
      List.mem_append]
    constructor
    · rintro (rfl | ⟨⟨hinserted, hdeleted⟩, hne⟩)
      · exact ⟨.inl huser, by simp⟩
      · refine ⟨.inl hinserted, ?_⟩
        simpa [hne] using hdeleted
    · rintro ⟨hinserted | hinserted, hdeleted⟩
      · by_cases hid : account.user.id = user.id
        · obtain ⟨other, deleted⟩ := account
          cases h.user_eq hinserted huser hid
          simp only [decide_true, Bool.or_true] at hdeleted
          exact .inl (by rw [hdeleted])
        · refine .inr ⟨⟨hinserted, ?_⟩, hid⟩
          simpa [hid] using hdeleted
      · cases hinserted
  | idle =>
    rw [Option.toList_none, List.append_nil]
    exact h.accounts account
  | _ =>
    rw [Option.toList_some, Journal.insertedUsers_append, Journal.isDeleted_concat]
    change account ∈ d.accounts.rows ↔ account.user ∈ j.insertedUsers ++ [] ∧
      account.deleted = (j.isDeleted account.user.id || false)
    rw [List.append_nil, Bool.or_false]
    exact h.accounts account

theorem groups_step (record : GroupRecord) :
    record ∈ d'.groupRecords.rows ↔ record ∈ Journal.groups (j ++ change.toList) := by
  cases effect with
  | idle =>
    rw [Option.toList_none, List.append_nil]
    exact h.groups record
  | groupCreated asked description named free =>
    have hlt := h.numbered.lt_nextGroup few
    refine mem_rows_insert h.groups rfl (fun _ hundone => by cases hundone) ?_ record
    intro x hx hid
    exact ne_next (h.group_le hx) hlt (congrArg GroupId.value hid)
  | groupDeleted id stored unused =>
    refine mem_rows_erase h.groups rfl (fun x => ?_) record
    rw [Change.groupDeleted.injEq]
  | _ => exact mem_rows_keep h.groups rfl (fun _ hundone => by cases hundone) record

theorem permissions_step (p : Permission) :
    p ∈ d'.permissions.rows ↔ p ∈ Journal.permissions (j ++ change.toList) := by
  cases effect with
  | idle =>
    rw [Option.toList_none, List.append_nil]
    exact h.permissions p
  | granted subject cluster reached =>
    have hlt := h.numbered.lt_nextPermission few
    refine mem_rows_insert h.permissions rfl (fun _ hundone => by cases hundone) ?_ p
    intro x hx hid
    exact ne_next (h.permission_le hx) hlt (congrArg PermissionId.value hid)
  | revoked revoked found =>
    refine mem_rows_erase h.permissions rfl (fun x => ?_) p
    rw [Change.revoked.injEq]
  | _ => exact mem_rows_keep h.permissions rfl (fun _ hundone => by cases hundone) p

theorem memberships_step (m : Membership) : m ∈ d'.memberships.rows ↔
    d'.groupRecords.contains m.group = true ∧ Journal.isMember (j ++ change.toList) m = true := by
  cases effect with
  | idle =>
    rw [Option.toList_none, List.append_nil]
    exact h.memberships m
  | groupCreated asked description named free =>
    have hlt := h.numbered.lt_nextGroup few
    rw [Option.toList_some, Journal.isMember_concat, Table.contains_insert_iff]
    -- The journal knows of no member of a group that is new.
    have hempty : j.isMember m = true → m.group ≠ ⟨d.lastGroup + 1⟩ := by
      intro hmember hgroup
      exact ne_next (h.added m hmember) hlt (congrArg GroupId.value hgroup)
    refine (h.memberships m).trans ⟨fun ⟨hstored, hmember⟩ => ⟨.inr hstored, hmember⟩, ?_⟩
    rintro ⟨hnew | hstored, hmember⟩
    · exact absurd hnew.symm (hempty hmember)
    · exact ⟨hstored, hmember⟩
  | groupDeleted id stored unused =>
    rw [Option.toList_some, Journal.isMember_concat]
    refine Table.mem_filter_iff.trans ?_
    constructor
    · rintro ⟨hrow, hother⟩
      obtain ⟨hstored, hmember⟩ := (h.memberships m).mp hrow
      have hne : id ≠ m.group := by
        rintro rfl
        simp at hother
      exact ⟨Table.contains_erase_iff.mpr ⟨hne, hstored⟩, hmember⟩
    · rintro ⟨hkept, hmember⟩
      obtain ⟨hne, hstored⟩ := Table.contains_erase_iff.mp hkept
      exact ⟨(h.memberships m).mpr ⟨hstored, hmember⟩, by simpa using Ne.symm hne⟩
  | memberAdded added group user =>
    rw [Option.toList_some, Journal.isMember_concat]
    refine Table.mem_insert_iff.trans ?_
    by_cases hm : added = m
    · subst hm
      rw [Change.membership?, if_pos rfl]
      exact ⟨fun _ => ⟨group, rfl⟩, fun _ => .inl rfl⟩
    · rw [Change.membership?, if_neg hm, h.memberships]
      exact ⟨fun hrow => (hrow.resolve_left (Ne.symm hm)).1, fun hrow => .inr ⟨hrow, Ne.symm hm⟩⟩
  | memberRemoved removed group =>
    rw [Option.toList_some, Journal.isMember_concat]
    refine Table.mem_erase_iff.trans ?_
    by_cases hm : removed = m
    · subst hm
      rw [Change.membership?, if_pos rfl]
      exact ⟨fun hrow => absurd rfl hrow.2, nofun⟩
    · rw [Change.membership?, if_neg hm, h.memberships]
      exact ⟨fun hrow => hrow.1, fun hrow => ⟨hrow, Ne.symm hm⟩⟩
  | _ =>
    rw [Option.toList_some, Journal.isMember_concat]
    exact h.memberships m

theorem deleted_step (user : UserId)
    (hdeleted : Journal.isDeleted (j ++ change.toList) user = true) : user.value ≤ d'.lastUser := by
  cases effect with
  | idle =>
    rw [Option.toList_none, List.append_nil] at hdeleted
    exact h.deleted user hdeleted
  | userInserted new =>
    have hlt := h.numbered.lt_nextUser few
    rw [Option.toList_some, Journal.isDeleted_concat, Bool.or_eq_true] at hdeleted
    rcases hdeleted with hold | hnew
    · exact UInt64.le_trans (h.deleted user hold) (UInt64.le_of_lt hlt)
    · exact absurd (of_decide_eq_true hnew) nofun
  | userDeleted id deletedUser found =>
    obtain ⟨hrow, rfl⟩ := Directory.user?_eq_some_iff.mp found
    rw [Option.toList_some, Journal.isDeleted_concat, Bool.or_eq_true] at hdeleted
    rcases hdeleted with hold | hnew
    · exact h.deleted user hold
    · cases of_decide_eq_true hnew
      exact h.account_le hrow
  | _ =>
    rw [Option.toList_some, Journal.isDeleted_concat, Bool.or_eq_true] at hdeleted
    rcases hdeleted with hold | hnew
    · exact h.deleted user hold
    · exact absurd (of_decide_eq_true hnew) nofun

theorem added_step (m : Membership)
    (hmember : Journal.isMember (j ++ change.toList) m = true) : m.group.value ≤ d'.lastGroup := by
  cases effect with
  | idle =>
    rw [Option.toList_none, List.append_nil] at hmember
    exact h.added m hmember
  | groupCreated asked description named free =>
    have hlt := h.numbered.lt_nextGroup few
    rw [Option.toList_some, Journal.isMember_concat] at hmember
    exact UInt64.le_trans (h.added m hmember) (UInt64.le_of_lt hlt)
  | memberAdded added group user =>
    rw [Option.toList_some, Journal.isMember_concat] at hmember
    by_cases hm : added = m
    · subst hm
      obtain ⟨record, hrecord, hid⟩ := Table.contains_iff.mp group
      exact hid ▸ h.group_le hrecord
    · rw [Change.membership?, if_neg hm] at hmember
      exact h.added m hmember
  | memberRemoved removed group =>
    rw [Option.toList_some, Journal.isMember_concat] at hmember
    by_cases hm : removed = m
    · rw [Change.membership?, if_pos hm] at hmember
      cases hmember
    · rw [Change.membership?, if_neg hm] at hmember
      exact h.added m hmember
  | _ =>
    rw [Option.toList_some, Journal.isMember_concat] at hmember
    exact h.added m hmember

theorem step : Agrees (j ++ change.toList) d' where
  numbered := h.numbered.step few effect
  accounts := h.accounts_step few effect
  groups := h.groups_step few effect
  permissions := h.permissions_step few effect
  memberships := h.memberships_step few effect
  deleted := h.deleted_step few effect
  added := h.added_step few effect

end Step

theorem start : Agrees [] {} where
  numbered := ⟨.start, .start, .start⟩
  accounts _ := ⟨nofun, nofun⟩
  groups _ := ⟨nofun, nofun⟩
  permissions _ := ⟨nofun, nofun⟩
  memberships _ := ⟨nofun, nofun⟩
  deleted _ h := nomatch of_decide_eq_true h
  added _ := nofun

end Agrees

/-- **The tables agree with the journal** after every run that stays within the ids there are. -/
theorem Reaches.agrees {history : List Entry} {d : Directory} (h : Reaches history d)
    (few : (journal history).Bounded) : Agrees (journal history) d :=
  h.invariant_of_bounded Agrees .start (fun few ih effect => ih.step few effect) few

end ClusterAccess
