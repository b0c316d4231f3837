import ClusterAccess.Proofs.Service.Journal
import ClusterAccess.Proofs.Table

/-!
# Ids that a run hands out

Users, groups and permissions are numbered from one upwards in the order in which the journal shows
them, whatever was deleted in between.  So an id that is handed out is above all that were handed
out before, and a deleted group's id never comes back.

The counters are words of 64 bits.  All of this is said of runs that make fewer than 2^64 users,
groups and permissions each, `Journal.Bounded`.
-/

namespace ClusterAccess

/-! ## What was made -/

namespace Change

def insertedUser? : Change → Option User
  | .userInserted user => some user
  | _ => none

def createdGroup? : Change → Option GroupRecord
  | .groupCreated record => some record
  | _ => none

def grantedPermission? : Change → Option Permission
  | .granted permission => some permission
  | _ => none

end Change

namespace Journal

/-- All users that were ever inserted, in order. -/
def insertedUsers (j : Journal) : List User := j.filterMap Change.insertedUser?

/-- All groups that were ever created, in order. -/
def createdGroups (j : Journal) : List GroupRecord := j.filterMap Change.createdGroup?

/-- All permissions that were ever granted, in order. -/
def grantedPermissions (j : Journal) : List Permission := j.filterMap Change.grantedPermission?

section Append

variable (j later : Journal)

@[simp] theorem insertedUsers_append :
    insertedUsers (j ++ later) = j.insertedUsers ++ insertedUsers later :=
  List.filterMap_append

@[simp] theorem createdGroups_append :
    createdGroups (j ++ later) = j.createdGroups ++ createdGroups later :=
  List.filterMap_append

@[simp] theorem grantedPermissions_append :
    grantedPermissions (j ++ later) = j.grantedPermissions ++ grantedPermissions later :=
  List.filterMap_append

end Append

/-- Fewer things of each kind were made than there are ids. -/
structure Bounded (j : Journal) : Prop where
  users : j.insertedUsers.length < 2 ^ 64
  groups : j.createdGroups.length < 2 ^ 64
  permissions : j.grantedPermissions.length < 2 ^ 64

theorem Bounded.of_append {j later : Journal} (h : Bounded (j ++ later)) : j.Bounded := by
  obtain ⟨husers, hgroups, hpermissions⟩ := h
  rw [insertedUsers_append, List.length_append] at husers
  rw [createdGroups_append, List.length_append] at hgroups
  rw [grantedPermissions_append, List.length_append] at hpermissions
  exact ⟨by omega, by omega, by omega⟩

end Journal

/-- `Reaches.invariant` for what holds only as long as there are ids left. -/
theorem Reaches.invariant_of_bounded (Inv : Journal → Directory → Prop) (start : Inv [] {})
    (step : ∀ {j : Journal} {d d' : Directory} {change : Option Change},
      Journal.Bounded (j ++ change.toList) → Inv j d → Effect d change d' →
        Inv (j ++ change.toList) d')
    {history : List Entry} {d : Directory} (h : Reaches history d)
    (few : (journal history).Bounded) : Inv (journal history) d := by
  refine h.invariant (fun j d => j.Bounded → Inv j d) (fun _ => start) ?_ few
  intro j d d' change ih effect few
  exact step few (ih few.of_append) effect

/-! ## Numbering -/

/-- Words that count up from one, and the last of them. -/
def Gapless (last : UInt64) (ids : List UInt64) : Prop :=
  ids.map UInt64.toNat = List.range' 1 last.toNat

namespace Gapless

variable {last : UInt64} {ids : List UInt64}

theorem start : Gapless 0 [] := rfl

theorem length_eq (h : Gapless last ids) : ids.length = last.toNat := by
  have hlength := congrArg List.length h
  rwa [List.length_map, List.length_range'] at hlength

theorem le_last (h : Gapless last ids) {id : UInt64} (hid : id ∈ ids) : id ≤ last := by
  have hmem : id.toNat ∈ List.range' 1 last.toNat := by
    rw [← h]
    exact List.mem_map_of_mem hid
  rw [List.mem_range'_1] at hmem
  rw [UInt64.le_iff_toNat_le]
  omega

theorem toNat_next (h : Gapless last ids) (few : ids.length + 1 < 2 ^ 64) :
    (last + 1).toNat = last.toNat + 1 := by
  have hlength := h.length_eq
  rw [UInt64.toNat_add, UInt64.toNat_one]
  exact Nat.mod_eq_of_lt (by omega)

theorem next (h : Gapless last ids) (few : ids.length + 1 < 2 ^ 64) :
    Gapless (last + 1) (ids ++ [last + 1]) := by
  have hnext := h.toNat_next few
  unfold Gapless at h ⊢
  rw [List.map_append, h, List.map_singleton, hnext, List.range'_1_concat, Nat.add_comm 1]

/-- The next id is above all that were handed out. -/
theorem lt_next (h : Gapless last ids) (few : ids.length + 1 < 2 ^ 64) : last < last + 1 := by
  rw [UInt64.lt_iff_toNat_lt, h.toNat_next few]
  exact Nat.lt_succ_self _

end Gapless

/-- What a step makes of a counter: it hands out the next id or none. -/
inductive Issues (last : UInt64) : List UInt64 → UInt64 → Prop where
  | none : Issues last [] last
  | next : Issues last [last + 1] (last + 1)

theorem Gapless.issue {last last' : UInt64} {ids issued : List UInt64} (h : Gapless last ids)
    (hissued : Issues last issued last') (few : (ids ++ issued).length < 2 ^ 64) :
    Gapless last' (ids ++ issued) := by
  cases hissued with
  | none => rwa [List.append_nil]
  | next =>
    rw [List.length_append] at few
    exact h.next few

theorem Issues.eq_of_nil {last last' : UInt64} (h : Issues last [] last') : last' = last := by
  cases h
  rfl

/-- The counters hand out the ids of what a step makes. -/
structure Directory.HandsOut (d : Directory) (made : Journal) (d' : Directory) : Prop where
  users : Issues d.lastUser (made.insertedUsers.map fun user => user.id.value) d'.lastUser
  groups : Issues d.lastGroup (made.createdGroups.map fun record => record.id.value) d'.lastGroup
  permissions : Issues d.lastPermission (made.grantedPermissions.map fun p => p.id.value)
    d'.lastPermission

section HandsOut

variable {d d' : Directory} {change : Option Change}

theorem Directory.Alters.handsOut (alters : d.Alters change d') :
    d.HandsOut change.toList d' := by
  cases alters with
  | insertUser new => exact ⟨.next, .none, .none⟩
  | insertGroup name description free => exact ⟨.none, .next, .none⟩
  | insertGrant subject cluster reached => exact ⟨.none, .none, .next⟩
  | _ => exact ⟨.none, .none, .none⟩

/-- Only what is made matters. -/
theorem Directory.HandsOut.of_makes (h : d.HandsOut (change.filter Change.makes).toList d') :
    d.HandsOut change.toList d' := by
  obtain ⟨husers, hgroups, hpermissions⟩ := h
  cases change with
  | none => exact ⟨husers, hgroups, hpermissions⟩
  | some change => cases change <;> exact ⟨husers, hgroups, hpermissions⟩

/-- An effect numbers what it makes as the single changes do that it is. -/
theorem Effect.handsOut (effect : Effect d change d') : d.HandsOut change.toList d' := by
  obtain ⟨mid, hsilent, hmade⟩ := effect.alters
  obtain ⟨husers, hgroups, hpermissions⟩ := hmade.handsOut
  rw [hsilent.handsOut.users.eq_of_nil] at husers
  rw [hsilent.handsOut.groups.eq_of_nil] at hgroups
  rw [hsilent.handsOut.permissions.eq_of_nil] at hpermissions
  exact .of_makes ⟨husers, hgroups, hpermissions⟩

end HandsOut

/-- The counters agree with what the journal has made. -/
structure Numbered (j : Journal) (d : Directory) : Prop where
  users : Gapless d.lastUser (j.insertedUsers.map fun user => user.id.value)
  groups : Gapless d.lastGroup (j.createdGroups.map fun record => record.id.value)
  permissions : Gapless d.lastPermission (j.grantedPermissions.map fun p => p.id.value)

namespace Numbered

variable {j : Journal} {d : Directory}

/-! A counter that hands out one more id does not wrap around. -/

theorem lt_nextUser (h : Numbered j d) {user : User}
    (few : Journal.Bounded (j ++ [.userInserted user])) : d.lastUser < d.lastUser + 1 := by
  have hfew := few.users
  rw [Journal.insertedUsers_append, List.length_append] at hfew
  exact h.users.lt_next (by rwa [List.length_map])

theorem lt_nextGroup (h : Numbered j d) {record : GroupRecord}
    (few : Journal.Bounded (j ++ [.groupCreated record])) : d.lastGroup < d.lastGroup + 1 := by
  have hfew := few.groups
  rw [Journal.createdGroups_append, List.length_append] at hfew
  exact h.groups.lt_next (by rwa [List.length_map])

theorem lt_nextPermission (h : Numbered j d) {p : Permission}
    (few : Journal.Bounded (j ++ [.granted p])) : d.lastPermission < d.lastPermission + 1 := by
  have hfew := few.permissions
  rw [Journal.grantedPermissions_append, List.length_append] at hfew
  exact h.permissions.lt_next (by rwa [List.length_map])

end Numbered

theorem Numbered.issue {j later : Journal} {d d' : Directory} (few : Journal.Bounded (j ++ later))
    (h : Numbered j d) (handsOut : d.HandsOut later d') : Numbered (j ++ later) d' := by
  obtain ⟨fewUsers, fewGroups, fewPermissions⟩ := few
  rw [Journal.insertedUsers_append] at fewUsers
  rw [Journal.createdGroups_append] at fewGroups
  rw [Journal.grantedPermissions_append] at fewPermissions
  refine ⟨?_, ?_, ?_⟩
  · rw [Journal.insertedUsers_append, List.map_append]
    exact h.users.issue handsOut.users (by rwa [← List.map_append, List.length_map])
  · rw [Journal.createdGroups_append, List.map_append]
    exact h.groups.issue handsOut.groups (by rwa [← List.map_append, List.length_map])
  · rw [Journal.grantedPermissions_append, List.map_append]
    exact h.permissions.issue handsOut.permissions (by rwa [← List.map_append, List.length_map])

theorem Numbered.step {j : Journal} {d d' : Directory} {change : Option Change}
    (few : Journal.Bounded (j ++ change.toList)) (h : Numbered j d) (effect : Effect d change d') :
    Numbered (j ++ change.toList) d' :=
  h.issue few effect.handsOut

/-- **Ids are handed out without gaps**, in every run that stays within the ids there are. -/
theorem Reaches.numbered {history : List Entry} {d : Directory} (h : Reaches history d)
    (few : (journal history).Bounded) : Numbered (journal history) d :=
  h.invariant_of_bounded Numbered ⟨.start, .start, .start⟩ Numbered.step few

end ClusterAccess
