import ClusterAccess.Proofs.Service.Run

/-!
# What steps change

The journal of a run is the list of the changes that its steps made, read off the history alone: a
step that failed, and a step that only reads, is in the history and not in the journal.

`Effect` lists everything that a step can do to a directory, together with what the step has made
sure of and the change that the journal then shows.  It is the only place where the functions of
`Directory.carryOut` are taken apart (`Directory.effect`).  An invariant of the service is proved
by cases on it.

Whoever holds the store changes it more freely, by one action after the other.  `Directory.Alters`
lists the single changes that actions make, of which an effect is one or two (`Effect.alters`).  So
what is proved of single changes need not be proved of effects again.
-/

namespace ClusterAccess

/-! ## Changes -/

inductive Change where
  | userInserted (user : User)
  | userDeleted (id : UserId)
  | groupCreated (record : GroupRecord)
  | groupDeleted (id : GroupId)
  | memberAdded (m : Membership)
  | memberRemoved (m : Membership)
  | granted (permission : Permission)
  | revoked (id : PermissionId)
deriving DecidableEq

/-- The change that an entry tells of: what the step asked for, under the id that was answered. -/
def Entry.change? : Entry → Option Change
  | ⟨.insertUser _, .ok user⟩ => some (.userInserted user)
  | ⟨.softDelete id, .ok true⟩ => some (.userDeleted id)
  | ⟨.command (.createGroup name description), .ok group⟩ =>
    some (.groupCreated { id := group.id, name := Text.trim name, description })
  | ⟨.command (.deleteGroup id), .ok _⟩ => some (.groupDeleted id)
  | ⟨.command (.addMember group user), .ok _⟩ => some (.memberAdded { group, user })
  | ⟨.command (.removeMember group user), .ok _⟩ => some (.memberRemoved { group, user })
  | ⟨.command (.grant subject cluster), .ok permission⟩ =>
    some (.granted { id := permission.id, cluster, subject })
  | ⟨.command (.revoke id), .ok _⟩ => some (.revoked id)
  | _ => none

abbrev Journal := List Change

/-- The changes that a history tells of. -/
def journal (history : List Entry) : Journal := history.filterMap Entry.change?

theorem journal_concat (history : List Entry) (entry : Entry) :
    journal (history ++ [entry]) = journal history ++ entry.change?.toList := by
  rw [journal, List.filterMap_append]
  cases h : entry.change? with
  | none =>
    rw [List.filterMap_cons_none h]
    rfl
  | some change =>
    rw [List.filterMap_cons_some h]
    rfl

/-! ## Effects -/

/-- What a step can make of a directory, and the change that it is. -/
inductive Effect (d : Directory) : Option Change → Directory → Prop where
  | idle : Effect d none d
  | userInserted (new : NewUser) :
    Effect d (some (.userInserted (new.withId ⟨d.lastUser + 1⟩))) (d.insertUser new).2
  | userDeleted (id : UserId) (user : User) (found : d.user? id = some user) :
    Effect d (some (.userDeleted id))
      { d with accounts := d.accounts.insert { user, deleted := true } }
  | groupCreated (asked description : String) (named : Text.trim asked ≠ "")
    (free : d.nameTaken (Text.trim asked) = false) :
    Effect d
      (some (.groupCreated { id := ⟨d.lastGroup + 1⟩, name := Text.trim asked, description }))
      { d with
        groupRecords :=
          d.groupRecords.insert { id := ⟨d.lastGroup + 1⟩, name := Text.trim asked, description }
        lastGroup := d.lastGroup + 1 }
  | groupDeleted (id : GroupId) (stored : d.groupRecords.contains id = true)
    (unused : d.grantCount id = 0) :
    Effect d (some (.groupDeleted id)) ((d.deleteMemberships id).2.deleteGroup id).2
  | memberAdded (m : Membership) (group : d.groupRecords.contains m.group = true)
    (user : (d.user? m.user).isSome) :
    Effect d (some (.memberAdded m)) (d.insertMembership m).2
  | memberRemoved (m : Membership) (group : d.groupRecords.contains m.group = true) :
    Effect d (some (.memberRemoved m)) (d.deleteMembership m).2
  | granted (subject : Subject) (cluster : ClusterId) (reached : d.subjectExists subject = true) :
    Effect d (some (.granted { id := ⟨d.lastPermission + 1⟩, cluster, subject }))
      { d with
        permissions := d.permissions.insert { id := ⟨d.lastPermission + 1⟩, cluster, subject }
        lastPermission := d.lastPermission + 1 }
  | revoked (p : Permission) (found : d.permissions.find? p.id = some p) :
    Effect d (some (.revoked p.id)) (d.deleteGrant p.id).2

namespace Directory

variable (d : Directory)

theorem effect_createGroup (name description : String) :
    Effect d
      (Entry.change? ⟨.command (.createGroup name description), (d.createGroup name description).1⟩)
      (d.createGroup name description).2 := by
  unfold createGroup
  by_cases hname : Text.trim name = ""
  · simp only [if_pos hname]
    exact .idle
  · simp only [if_neg hname, insertGroup]
    cases hfree : d.nameTaken (Text.trim name) with
    | true => exact .idle
    | false => exact .groupCreated name description hname hfree

theorem effect_removeGroup (id : GroupId) :
    Effect d (Entry.change? ⟨.command (.deleteGroup id), (d.removeGroup id).1⟩)
      (d.removeGroup id).2 := by
  unfold removeGroup
  by_cases hstored : d.groupRecords.contains id = true
  · by_cases hgrants : 0 < d.grantCount id
    · simp only [if_pos hstored, if_pos hgrants]
      exact .idle
    · simp only [if_pos hstored, if_neg hgrants]
      exact .groupDeleted id hstored (UInt64.not_lt.mp hgrants |> UInt64.le_zero_iff.mp)
  · simp only [if_neg hstored]
    exact .idle

theorem effect_addMember (group : GroupId) (user : UserId) :
    Effect d (Entry.change? ⟨.command (.addMember group user), (d.addMember group user).1⟩)
      (d.addMember group user).2 := by
  unfold addMember
  cases hrecord : d.groupRecords.find? group with
  | none => exact .idle
  | some record =>
    have hstored : d.groupRecords.contains group = true := by
      rw [Table.contains_eq_isSome, hrecord]
      rfl
    by_cases huser : (d.user? user).isSome = true
    · simp only [if_pos huser]
      exact .memberAdded { group, user } hstored huser
    · simp only [if_neg huser]
      exact .idle

theorem effect_removeMember (group : GroupId) (user : UserId) :
    Effect d (Entry.change? ⟨.command (.removeMember group user), (d.removeMember group user).1⟩)
      (d.removeMember group user).2 := by
  unfold removeMember
  cases hrecord : d.groupRecords.find? group with
  | none => exact .idle
  | some record =>
    refine .memberRemoved { group, user } ?_
    rw [Table.contains_eq_isSome, hrecord]
    rfl

theorem effect_grantAccess (subject : Subject) (cluster : ClusterId) :
    Effect d (Entry.change? ⟨.command (.grant subject cluster), (d.grantAccess subject cluster).1⟩)
      (d.grantAccess subject cluster).2 := by
  unfold grantAccess insertGrant
  by_cases hsubject : d.subjectExists subject = true
  · simp only [if_pos hsubject]
    exact .granted subject cluster hsubject
  · simp only [if_neg hsubject]
    exact .idle

theorem effect_revokeAccess (id : PermissionId) :
    Effect d (Entry.change? ⟨.command (.revoke id), (d.revokeAccess id).1⟩)
      (d.revokeAccess id).2 := by
  unfold revokeAccess
  cases hfound : d.permissions.find? id with
  | none => exact .idle
  | some p =>
    obtain ⟨-, rfl⟩ := Table.find?_eq_some_iff.mp hfound
    exact .revoked p hfound

theorem effect_softDelete (id : UserId) :
    Effect d (Entry.change? ⟨.softDelete id, .ok (d.softDelete id).1⟩) (d.softDelete id).2 := by
  unfold softDelete
  cases hfound : d.user? id with
  | none => exact .idle
  | some user => exact .userDeleted id user hfound

/-- **Every step has an effect**, and the entry that the history gets tells of it. -/
theorem effect (step : Step) :
    Effect d (Entry.change? ⟨step, (d.enact step).1⟩) (d.enact step).2 := by
  cases step with
  | insertUser new => exact .userInserted new
  | softDelete id => exact d.effect_softDelete id
  | command c =>
    cases c with
    | createGroup name description => exact d.effect_createGroup name description
    | deleteGroup id => exact d.effect_removeGroup id
    | addMember group user => exact d.effect_addMember group user
    | removeMember group user => exact d.effect_removeMember group user
    | grant subject cluster => exact d.effect_grantAccess subject cluster
    | revoke id => exact d.effect_revokeAccess id
    | _ => exact .idle

end Directory

/-! ## Single changes -/

/-- Whether a change makes something, which is given an id. -/
def Change.makes : Change → Bool
  | .userInserted _ | .groupCreated _ | .granted _ => true
  | _ => false

/-- What a single change can make of a directory, and the new thing that it has made, if any. -/
inductive Directory.Alters (d : Directory) : Option Change → Directory → Prop where
  | idle : Alters d none d
  | insertUser (new : NewUser) :
    Alters d (some (.userInserted (d.insertUser new).1)) (d.insertUser new).2
  | softDelete (user : User) (found : d.user? user.id = some user) :
    Alters d none { d with accounts := d.accounts.insert { user, deleted := true } }
  | insertGroup (name description : String) (free : d.nameTaken name = false) :
    Alters d (some (.groupCreated { id := ⟨d.lastGroup + 1⟩, name, description }))
      { d with
        groupRecords := d.groupRecords.insert { id := ⟨d.lastGroup + 1⟩, name, description }
        lastGroup := d.lastGroup + 1 }
  | deleteGroup (id : GroupId) : Alters d none (d.deleteGroup id).2
  | insertMembership (m : Membership) : Alters d none (d.insertMembership m).2
  | deleteMembership (m : Membership) : Alters d none (d.deleteMembership m).2
  | deleteMemberships (group : GroupId) : Alters d none (d.deleteMemberships group).2
  | insertGrant (subject : Subject) (cluster : ClusterId)
    (reached : d.subjectExists subject = true) :
    Alters d (some (.granted ⟨⟨d.lastPermission + 1⟩, cluster, subject⟩))
      { d with
        permissions := d.permissions.insert ⟨⟨d.lastPermission + 1⟩, cluster, subject⟩
        lastPermission := d.lastPermission + 1 }
  | deleteGrant (id : PermissionId) : Alters d none (d.deleteGrant id).2

/-- **An effect is at most two single changes**, of which the last one makes what it makes. -/
theorem Effect.alters {d d' : Directory} {change : Option Change} (effect : Effect d change d') :
    ∃ mid, d.Alters none mid ∧ mid.Alters (change.filter Change.makes) d' := by
  cases effect with
  | idle => exact ⟨d, .idle, .idle⟩
  | userInserted new => exact ⟨d, .idle, .insertUser new⟩
  | userDeleted id user found =>
    obtain ⟨-, rfl⟩ := Directory.user?_eq_some_iff.mp found
    exact ⟨d, .idle, .softDelete user found⟩
  | groupCreated asked description named free =>
    exact ⟨d, .idle, .insertGroup (Text.trim asked) description free⟩
  | groupDeleted id stored unused => exact ⟨_, .deleteMemberships id, .deleteGroup id⟩
  | memberAdded m group user => exact ⟨d, .idle, .insertMembership m⟩
  | memberRemoved m group => exact ⟨d, .idle, .deleteMembership m⟩
  | granted subject cluster reached => exact ⟨d, .idle, .insertGrant subject cluster reached⟩
  | revoked p found => exact ⟨d, .idle, .deleteGrant p.id⟩

/-! ## Invariants -/

/-- **What every effect preserves holds after every run.**  The invariant relates the directory to
the journal of the run that led to it. -/
theorem Reaches.invariant (Inv : Journal → Directory → Prop) (start : Inv [] {})
    (step : ∀ {j : Journal} {d d' : Directory} {change : Option Change},
      Inv j d → Effect d change d' → Inv (j ++ change.toList) d')
    {history : List Entry} {d : Directory} (h : Reaches history d) : Inv (journal history) d := by
  induction h with
  | start => exact start
  | step h next ih =>
    rw [journal_concat]
    exact step ih (Directory.effect _ next)

end ClusterAccess
