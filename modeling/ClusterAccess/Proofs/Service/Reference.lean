import ClusterAccess.Proofs.Access.Reads
import ClusterAccess.Proofs.Service.Issued
import Mathlib.Data.List.MinMax

/-!
# The reference model

What a run has come to can be said without tables and counters, by looking back over its journal: a
group stands if it was created and not deleted since, a permission if it was granted and not revoked
since, and a user is in a group if the last thing that was asked about the two was to add the user.
`Journal.decision` decides on access from that alone, among the standing permissions of one kind by
the smallest id.

The model keeps no state, so that each notion below is a function of the whole journal; the
lemmas say what one more change makes of it.
-/

namespace ClusterAccess

/-- What a change makes of a membership, if it is about it. -/
def Change.membership? (m : Membership) : Change → Option Bool
  | .memberAdded m' => if m' = m then some true else none
  | .memberRemoved m' => if m' = m then some false else none
  | _ => none

/-- What was told last is told by the last member of a list, if it tells anything. -/
theorem decide_getLast?_concat {α : Type} (tells : α → Option Bool) (l : List α) (a : α) :
    decide (((l ++ [a]).filterMap tells).getLast? = some true) =
      match tells a with
      | some told => told
      | none => decide ((l.filterMap tells).getLast? = some true) := by
  rw [List.filterMap_append, List.getLast?_append]
  cases h : tells a with
  | none =>
    rw [List.filterMap_cons_none h]
    rfl
  | some told =>
    rw [List.filterMap_cons_some h]
    cases told <;> rfl

namespace Journal

/-! ## What stands -/

section Standing

variable {α : Type} (made : Change → Option α) (undone : α → Change)

/-- What some change has made and no later change has undone. -/
def standing : Journal → List α
  | [] => []
  | change :: later =>
    match made change with
    | some a => if undone a ∈ later then standing later else a :: standing later
    | none => standing later

theorem standing_concat (j : Journal) (change : Change) :
    standing made undone (j ++ [change]) =
      (standing made undone j).filter (fun a => decide (undone a ≠ change)) ++
        (made change).toList := by
  induction j with
  | nil => cases h : made change <;> simp only [List.nil_append, standing, h] <;> rfl
  | cons head j ih =>
    rw [List.cons_append, standing, standing, ih]
    cases made head with
    | none => rfl
    | some a =>
      dsimp only
      by_cases hlater : undone a ∈ j
      · rw [if_pos (List.mem_append_left _ hlater), if_pos hlater]
      · by_cases hnow : undone a = change
        · have hmem : undone a ∈ j ++ [change] := by simp [hnow]
          rw [if_pos hmem, if_neg hlater, List.filter_cons_of_neg (by simpa using hnow)]
        · have hmem : undone a ∉ j ++ [change] := by simp [hlater, hnow]
          rw [if_neg hmem, if_neg hlater, List.filter_cons_of_pos (by simpa using hnow)]
          rfl

theorem mem_standing_concat {j : Journal} {change : Change} {a : α} :
    a ∈ standing made undone (j ++ [change]) ↔
      (a ∈ standing made undone j ∧ undone a ≠ change) ∨ made change = some a := by
  rw [standing_concat, List.mem_append, List.mem_filter, decide_eq_true_eq, Option.mem_toList]

theorem mem_of_mem_standing {j : Journal} {a : α} (h : a ∈ standing made undone j) :
    a ∈ j.filterMap made := by
  induction j using List.reverseRecOn with
  | nil => cases h
  | append_singleton j change ih =>
    rw [List.filterMap_append, List.mem_append]
    rcases (mem_standing_concat made undone).mp h with ⟨hold, -⟩ | hnew
    · exact .inl (ih hold)
    · exact .inr (List.mem_filterMap.mpr ⟨change, List.mem_singleton.mpr rfl, hnew⟩)

end Standing

/-- The groups that were created and not deleted since. -/
def groups (j : Journal) : List GroupRecord :=
  j.standing Change.createdGroup? fun record => .groupDeleted record.id

/-- The permissions that were granted and not revoked since. -/
def permissions (j : Journal) : List Permission :=
  j.standing Change.grantedPermission? fun p => .revoked p.id

/-- Whether a user was ever deleted. -/
def isDeleted (j : Journal) (user : UserId) : Bool := decide (.userDeleted user ∈ j)

/-- Whether a membership was added, and not removed since. -/
def isMember (j : Journal) (m : Membership) : Bool :=
  decide ((j.filterMap (Change.membership? m)).getLast? = some true)

/-! ## Decisions -/

/-- The permission with the smallest id. -/
def least? (ps : List Permission) : Option Permission := ps.argmin fun p => p.id.value.toNat

theorem least?_eq_none {ps : List Permission} (h : least? ps = none) : ps = [] :=
  List.argmin_eq_none.mp h

theorem mem_of_least? {ps : List Permission} {p : Permission} (h : least? ps = some p) : p ∈ ps :=
  List.argmin_mem h

theorem id_le_of_least? {ps : List Permission} {p other : Permission} (h : least? ps = some p)
    (hother : other ∈ ps) : p.id.value ≤ other.id.value := by
  have hle := List.le_of_mem_argmin (f := fun p : Permission => p.id.value.toNat) hother h
  exact UInt64.le_iff_toNat_le.mpr hle

def directGrant? (j : Journal) (user : UserId) (cluster : ClusterId) : Option Permission :=
  least? <| j.permissions.filter fun p =>
    decide (p.cluster = cluster) && decide (p.subject = .user user)

/-- Whether a subject is a group that the user is in. -/
def isGroupOf (j : Journal) (user : UserId) : Subject → Bool
  | .group group => j.isMember { group, user }
  | .user _ => false

def groupGrant? (j : Journal) (user : UserId) (cluster : ClusterId) : Option Permission :=
  least? <| j.permissions.filter fun p =>
    decide (p.cluster = cluster) && j.isGroupOf user p.subject

/-- The decision for one to whom no permission applies. -/
def byRole (j : Journal) (user : UserId) : Decision :=
  if j.isDeleted user then .denied .unknownUser
  else
    match j.insertedUsers.find? fun found => decide (found.id = user) with
    | some found => if found.role = .admin then .adminRole else .denied .noGrant
    | none => .denied .unknownUser

/-- Who may access what, by the journal alone. -/
def decision (j : Journal) (user : UserId) (cluster : ClusterId) : Decision :=
  match j.directGrant? user cluster with
  | some p => .directGrant p.id
  | none =>
    match (j.groupGrant? user cluster).bind Access.ofGroup? with
    | some decision => decision
    | none => j.byRole user

/-! ## Who is admitted -/

section Admitted

variable (j : Journal) (user : UserId) (cluster : ClusterId)

theorem isSome_least?_iff {ps : List Permission} : (least? ps).isSome = true ↔ ∃ p, p ∈ ps := by
  cases h : least? ps with
  | none =>
    rw [least?_eq_none h]
    exact ⟨nofun, nofun⟩
  | some p => exact ⟨fun _ => ⟨p, mem_of_least? h⟩, fun _ => rfl⟩

theorem isSome_directGrant?_iff :
    (j.directGrant? user cluster).isSome = true ↔
      ∃ p ∈ j.permissions, p.cluster = cluster ∧ p.subject = .user user := by
  unfold directGrant?
  simp only [isSome_least?_iff, List.mem_filter, Bool.and_eq_true, decide_eq_true_eq]

/-- A permission that is found for the user's groups names one of them. -/
theorem isSome_ofGroup?_iff :
    ((j.groupGrant? user cluster).bind Access.ofGroup?).isSome = true ↔
      ∃ p ∈ j.permissions, ∃ group, p.cluster = cluster ∧ p.subject = .group group ∧
        j.isMember { group, user } = true := by
  have hnamed : ∀ p : Permission, j.isGroupOf user p.subject = true ↔
      ∃ group, p.subject = .group group ∧ j.isMember { group, user } = true := by
    rintro ⟨id, cluster, user' | group⟩
    · exact ⟨nofun, nofun⟩
    · exact ⟨fun h => ⟨group, rfl, h⟩, fun ⟨_, hsubject, h⟩ => by cases hsubject; exact h⟩
  have hsome : ((j.groupGrant? user cluster).bind Access.ofGroup?).isSome =
      (j.groupGrant? user cluster).isSome := by
    cases hfound : j.groupGrant? user cluster with
    | none => rfl
    | some p =>
      have hmem := mem_of_least? hfound
      rw [List.mem_filter, Bool.and_eq_true, hnamed] at hmem
      obtain ⟨-, -, group, hsubject, -⟩ := hmem
      rw [Option.bind_some, Access.ofGroup?, hsubject]
      rfl
  rw [hsome, groupGrant?, isSome_least?_iff]
  simp only [List.mem_filter, Bool.and_eq_true, decide_eq_true_eq, hnamed, exists_and_left]

end Admitted

/-! ## One more change -/

section Concat

variable {j : Journal} {change : Change}

theorem isDeleted_concat (user : UserId) :
    isDeleted (j ++ [change]) user = (j.isDeleted user || decide (.userDeleted user = change)) := by
  simp only [isDeleted, List.mem_append, List.mem_singleton, Bool.decide_or]

theorem isMember_concat (m : Membership) :
    isMember (j ++ [change]) m =
      match change.membership? m with
      | some isMember => isMember
      | none => j.isMember m :=
  decide_getLast?_concat (Change.membership? m) j change

end Concat

theorem mem_createdGroups_of_mem {j : Journal} {record : GroupRecord} (h : record ∈ j.groups) :
    record ∈ j.createdGroups :=
  mem_of_mem_standing _ _ h

theorem mem_grantedPermissions_of_mem {j : Journal} {p : Permission} (h : p ∈ j.permissions) :
    p ∈ j.grantedPermissions :=
  mem_of_mem_standing _ _ h

end Journal

end ClusterAccess
