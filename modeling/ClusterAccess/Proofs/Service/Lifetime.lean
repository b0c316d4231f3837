import ClusterAccess.Proofs.Service.Backing
import ClusterAccess.Proofs.Service.Disbanding

/-!
# The life of a permission

A permission is listed from its grant to its revocation, on its own cluster and on no other, and is
the same all the time.  As long as it is listed, the group that it names cannot be deleted.  The
first revocation gives it back as it was granted; from then on its id names nothing any more.

Of a permission the journal need not be asked in which order things happened.  An id is handed out
once, so that a permission is stored if it was granted and its id is nowhere revoked, and an id that
is revoked somewhere is in use nowhere (`PermissionsHeld`).  This takes fewer permissions than there
are ids; of users and groups there may be any number.
-/

namespace ClusterAccess

/-! ## Revocations in a history -/

/-- The history shows a revocation that was carried out. -/
def ShowsRevoked (history : List Entry) (id : PermissionId) : Prop :=
  ∃ p, ⟨.command (.revoke id), .ok p⟩ ∈ history

theorem Entry.change?_eq_revoked_iff {entry : Entry} {id : PermissionId} :
    entry.change? = some (.revoked id) ↔ ∃ p, entry = ⟨.command (.revoke id), .ok p⟩ := by
  constructor
  · intro h
    obtain ⟨step, answer⟩ := entry
    cases step with
    | insertUser new => cases answer <;> cases h
    | softDelete user =>
      cases answer with
      | error e => cases h
      | ok deleted => cases deleted <;> cases h
    | command c =>
      cases c with
      | revoke id' =>
        cases answer with
        | error e => cases h
        | ok p =>
          cases h
          exact ⟨p, rfl⟩
      | createGroup _ _ | deleteGroup _ | addMember _ _ | removeMember _ _ | grant _ _ =>
        cases answer <;> cases h
      | _ => cases h
  · rintro ⟨p, rfl⟩
    rfl

theorem mem_journal_revoked_iff {history : List Entry} {id : PermissionId} :
    .revoked id ∈ journal history ↔ ShowsRevoked history id := by
  simp only [journal, List.mem_filterMap, Entry.change?_eq_revoked_iff]
  constructor
  · rintro ⟨entry, hentry, p, rfl⟩
    exact ⟨p, hentry⟩
  · rintro ⟨p, hentry⟩
    exact ⟨_, hentry, p, rfl⟩

/-! ## What is held and what is spent -/

/-- A permission that was granted is stored unless its id is revoked, and an id that is revoked was
handed out and is in use nowhere. -/
structure PermissionsHeld (j : Journal) (d : Directory) : Prop where
  numbered : Gapless d.lastPermission (j.grantedPermissions.map fun p => p.id.value)
  counted : d.permissions.CountedBy PermissionId.value d.lastPermission
  held : ∀ p, .granted p ∈ j → .revoked p.id ∉ j → p ∈ d.permissions.rows
  spent : ∀ id, .revoked id ∈ j →
    id.value ≤ d.lastPermission ∧ ∀ p ∈ d.permissions.rows, p.id ≠ id

namespace PermissionsHeld

variable {j : Journal} {d d' : Directory} {change : Option Change}

/-! ## One more change -/

section Step

variable (few : (Journal.grantedPermissions (j ++ change.toList)).length < 2 ^ 64)
  (h : PermissionsHeld j d) (effect : Effect d change d')

include few h effect

theorem numbered_step : Gapless d'.lastPermission
    ((Journal.grantedPermissions (j ++ change.toList)).map fun p => p.id.value) := by
  rw [Journal.grantedPermissions_append] at few ⊢
  rw [List.map_append]
  refine h.numbered.issue effect.handsOut.permissions ?_
  rwa [← List.map_append, List.length_map]

/-- A permission that is granted gets an id above all that were handed out. -/
theorem lt_id_of_granted {p : Permission} (hchange : change = some (.granted p)) :
    d.lastPermission < d.lastPermission + 1 ∧ p.id.value = d.lastPermission + 1 := by
  subst hchange
  rw [Journal.grantedPermissions_append, List.length_append] at few
  refine ⟨h.numbered.lt_next (by rwa [List.length_map]), ?_⟩
  cases effect
  rfl

theorem counted_step : d'.permissions.CountedBy PermissionId.value d'.lastPermission := by
  cases effect with
  | granted subject cluster reached =>
    have hlt := (h.lt_id_of_granted few (.granted subject cluster reached) rfl).1
    exact h.counted.insert_next hlt rfl
  | revoked p found => exact h.counted.erase p.id
  | _ => exact h.counted

omit few in
theorem held_step (p : Permission) (granted : .granted p ∈ j ++ change.toList)
    (kept : .revoked p.id ∉ j ++ change.toList) : p ∈ d'.permissions.rows := by
  rw [effect.mem_permissions_iff h.counted]
  simp only [List.mem_append, Option.mem_toList, not_or] at granted kept
  obtain ⟨hkept, hnow⟩ := kept
  rcases granted with hold | hnew
  · exact .inl ⟨h.held p hold hkept, hnow⟩
  · exact .inr hnew

theorem spent_step (id : PermissionId) (revoked : .revoked id ∈ j ++ change.toList) :
    id.value ≤ d'.lastPermission ∧ ∀ p ∈ d'.permissions.rows, p.id ≠ id := by
  rw [List.mem_append, Option.mem_toList] at revoked
  rcases revoked with hold | hnew
  · obtain ⟨hissued, hgone⟩ := h.spent id hold
    have hlater : d.lastPermission ≤ d'.lastPermission := by
      have hlength := (h.numbered_step few effect).length_eq
      rw [Journal.grantedPermissions_append, List.map_append, List.length_append,
        h.numbered.length_eq] at hlength
      exact UInt64.le_iff_toNat_le.mpr (by omega)
    refine ⟨UInt64.le_trans hissued hlater, fun p hp hid => ?_⟩
    rcases (effect.mem_permissions_iff h.counted).mp hp with ⟨hstored, -⟩ | hgranted
    · exact hgone p hstored hid
    -- What is granted now is above all ids that were handed out, and so above one that is spent.
    · obtain ⟨hlt, hnext⟩ := h.lt_id_of_granted few effect hgranted
      subst hid
      exact UInt64.not_lt.mpr hissued (hnext ▸ hlt)
  · subst hnew
    refine ⟨?_, fun p hp hid => ?_⟩
    · cases effect with
      | revoked p found => exact (h.counted p.id p found).2.2
    · rcases (effect.mem_permissions_iff h.counted).mp hp with ⟨-, hkept⟩ | hgranted
      · exact hkept (hid ▸ rfl)
      · cases hgranted

theorem step : PermissionsHeld (j ++ change.toList) d' where
  numbered := h.numbered_step few effect
  counted := h.counted_step few effect
  held := h.held_step effect
  spent := h.spent_step few effect

end Step

end PermissionsHeld

/-- **Permissions are held until they are revoked**, in every run with fewer grants than ids. -/
theorem Reaches.permissionsHeld {history : List Entry} {d : Directory} (h : Reaches history d)
    (few : (journal history).grantedPermissions.length < 2 ^ 64) :
    PermissionsHeld (journal history) d := by
  refine h.invariant (fun j d => j.grantedPermissions.length < 2 ^ 64 → PermissionsHeld j d)
    (fun _ => ⟨.start, .empty, nofun, nofun⟩) ?_ few
  intro j d d' change ih effect few
  have hfew : j.grantedPermissions.length < 2 ^ 64 := by
    rw [Journal.grantedPermissions_append, List.length_append] at few
    omega
  exact (ih hfew).step few effect

/-! ## A stored permission -/

namespace Directory

variable {d : Directory} {p : Permission}

theorem eq_of_stored (stored : p ∈ d.permissions.rows) {cluster : ClusterId} {q : Permission}
    (hq : q ∈ d.grants cluster) (hid : q.id = p.id) : q = p :=
  Table.eq_of_key_eq (mem_grants_iff.mp hq).1 stored hid

theorem count_grants (stored : p ∈ d.permissions.rows) : (d.grants p.cluster).count p = 1 := by
  have hnodup : (d.grants p.cluster).Nodup := by
    refine (d.permissions.ascending.filter _).imp ?_
    rintro a b hlt rfl
    exact Key.lt_irrefl _ hlt
  exact List.count_eq_one_of_mem hnodup (mem_grants_iff.mpr ⟨stored, rfl⟩)

/-- A group that is named by one of not too many permissions cannot be deleted. -/
theorem removeGroup_of_stored (stored : p ∈ d.permissions.rows) {group : GroupId}
    (named : p.subject = .group group) (hgroup : d.groupRecords.contains group = true)
    (few : d.permissions.size < 2 ^ 64) :
    ∃ n, (d.removeGroup group).1 = .error (.referenced group n) := by
  have hpos : 0 < d.namedBy group :=
    List.countP_pos_iff.mpr ⟨p, stored, decide_eq_true named⟩
  have hcount : 0 < d.grantCount group :=
    grantCount_pos_iff.mpr ⟨hpos, (d.namedBy_le_size group).trans_lt few⟩
  exact ⟨_, congrArg Prod.fst (removeGroup_of_named hgroup hcount)⟩

theorem revokeAccess_of_stored (stored : p ∈ d.permissions.rows) :
    d.revokeAccess p.id = (.ok p, (d.deleteGrant p.id).2) := by
  rw [revokeAccess, Table.find?_eq_some_iff.mpr ⟨stored, rfl⟩]

theorem mem_permissions_deleteGrant (stored : p ∈ d.permissions.rows) {q : Permission} :
    q ∈ (d.deleteGrant p.id).2.permissions.rows ↔ q ∈ d.permissions.rows ∧ q ≠ p := by
  refine Table.mem_erase_iff.trans (and_congr_right fun hq => not_congr ⟨fun hid => ?_, ?_⟩)
  · exact Table.eq_of_key_eq hq stored hid
  · rintro rfl
    rfl

theorem revokeAccess_of_missing {id : PermissionId} (h : ∀ p ∈ d.permissions.rows, p.id ≠ id) :
    d.revokeAccess id = (.error (.notFound (.permission id)), d) := by
  rw [revokeAccess, Table.find?_eq_none_iff.mpr h]

/-! ## A permission that is granted -/

/-- The directory with one more permission. -/
def withPermission (d : Directory) (p : Permission) : Directory :=
  { d with permissions := d.permissions.insert p, lastPermission := d.lastPermission + 1 }

theorem eq_of_grantAccess {subject : Subject} {cluster : ClusterId}
    (h : (d.grantAccess subject cluster).1 = .ok p) :
    p = ⟨⟨d.lastPermission + 1⟩, cluster, subject⟩ ∧
      (d.grantAccess subject cluster).2 = d.withPermission p := by
  unfold grantAccess insertGrant at h ⊢
  by_cases hsubject : d.subjectExists subject = true
  · simp only [if_pos hsubject] at h ⊢
    cases h
    exact ⟨rfl, rfl⟩
  · simp only [if_neg hsubject] at h
    cases h

/-- A permission that is granted and revoked leaves nothing behind but its number. -/
theorem revokeAccess_withPermission (fresh : ∀ q ∈ d.permissions.rows, q.id ≠ p.id) :
    (d.withPermission p).revokeAccess p.id =
      (.ok p, { d with lastPermission := d.lastPermission + 1 }) := by
  have hstored : p ∈ (d.withPermission p).permissions.rows := Table.mem_insertRow_self _ _
  rw [revokeAccess_of_stored hstored]
  simp only [deleteGrant, withPermission, Table.erase_insert_fresh fresh]

/-- The counters have no part in decisions. -/
theorem decision_of_lastPermission (d : Directory) (last : UInt64) (user : UserId)
    (cluster : ClusterId) :
    { d with lastPermission := last }.decision user cluster = d.decision user cluster := by
  rw [decision_eq, decision_eq]
  rfl

end Directory

namespace Reaches

variable {history later : List Entry} {d d' : Directory} {subject : Subject} {cluster : ClusterId}
  {p : Permission}

/-- A permission that is granted is under an id that is in use nowhere and was never revoked. -/
theorem fresh_of_granted (h : Reaches history d)
    (hgrant : (d.grantAccess subject cluster).1 = .ok p)
    (few : (journal history).grantedPermissions.length + 1 < 2 ^ 64) :
    (∀ q ∈ d.permissions.rows, q.id ≠ p.id) ∧ .revoked p.id ∉ journal history := by
  have hheld := h.permissionsHeld (by omega)
  obtain ⟨rfl, -⟩ := Directory.eq_of_grantAccess hgrant
  refine ⟨fun q hq hid => ?_, fun hrevoked => ?_⟩
  · exact hheld.counted.ne_next hq (congrArg PermissionId.value hid)
  · obtain ⟨hle, -⟩ := hheld.spent _ hrevoked
    have hlt := hheld.numbered.lt_next (by rwa [List.length_map])
    exact UInt64.not_lt.mpr hle hlt

theorem journal_of_granted :
    journal (history ++ ⟨.command (.grant subject cluster), .ok p⟩ :: later) =
      journal history ++ .granted ⟨p.id, cluster, subject⟩ :: journal later := by
  rw [journal, List.filterMap_append]
  rfl

theorem length_of_granted :
    (journal (history ++ ⟨.command (.grant subject cluster), .ok p⟩ ::
        later)).grantedPermissions.length =
      (journal history).grantedPermissions.length +
        ((journal later).grantedPermissions.length + 1) := by
  rw [journal_of_granted, Journal.grantedPermissions_append, List.length_append]
  rfl

/-- What was granted is stored until it is revoked, and in use nowhere from then on. -/
theorem stored_or_spent (h : Reaches history d)
    (hgrant : (d.grantAccess subject cluster).1 = .ok p)
    (h' : Reaches (history ++ ⟨.command (.grant subject cluster), .ok p⟩ :: later) d')
    (few : (journal (history ++ ⟨.command (.grant subject cluster), .ok p⟩ ::
      later)).grantedPermissions.length < 2 ^ 64) :
    (¬ ShowsRevoked later p.id → p ∈ d'.permissions.rows) ∧
      (ShowsRevoked later p.id → ∀ q ∈ d'.permissions.rows, q.id ≠ p.id) := by
  have hheld := h'.permissionsHeld few
  rw [length_of_granted] at few
  obtain ⟨-, hnever⟩ := h.fresh_of_granted hgrant (by omega)
  obtain ⟨rfl, -⟩ := Directory.eq_of_grantAccess hgrant
  rw [journal_of_granted] at hheld
  refine ⟨fun hkept => hheld.held _ (by simp) ?_, fun hrevoked => (hheld.spent _ ?_).2⟩
  · rw [← mem_journal_revoked_iff] at hkept
    simp [hnever, hkept]
  · rw [← mem_journal_revoked_iff] at hrevoked
    simp [hrevoked]

end Reaches

/-! ## Every run -/

namespace Store

variable (d : Directory)

theorem perform_grant (subject : Subject) (cluster : ClusterId) :
    (holding d).perform (.command (.grant subject cluster)) =
      ((d.grantAccess subject cluster).1, .holding (d.grantAccess subject cluster).2) :=
  perform_eq d _

theorem perform_revoke (id : PermissionId) :
    (holding d).perform (.command (.revoke id)) =
      ((d.revokeAccess id).1, .holding (d.revokeAccess id).2) :=
  perform_eq d _

/-- A run that grants a permission passes through the directory with this permission, and goes on
from there. -/
theorem serve_granted {before : List Step} (later : List Step) {subject : Subject}
    {cluster : ClusterId} {p : Permission}
    (hgrant : ((({} : Store).serve before).2.perform (.command (.grant subject cluster))).1 =
      .ok p) :
    ∃ d d', (({} : Store).serve before).2 = .holding d ∧
      Reaches (({} : Store).serve before).1 d ∧ (d.grantAccess subject cluster).1 = .ok p ∧
      (holding d).perform (.command (.grant subject cluster)) =
        (.ok p, .holding (d.withPermission p)) ∧
      ((holding (d.withPermission p)).serve later).2 = .holding d' ∧
      (({} : Store).serve (before ++ .command (.grant subject cluster) :: later)).1 =
        (({} : Store).serve before).1 ++ ⟨.command (.grant subject cluster), .ok p⟩ ::
          ((holding (d.withPermission p)).serve later).1 ∧
      Reaches ((({} : Store).serve before).1 ++ ⟨.command (.grant subject cluster), .ok p⟩ ::
        ((holding (d.withPermission p)).serve later).1) d' := by
  obtain ⟨d, hstore, hreaches⟩ := serve_reaches before
  rw [hstore, perform_grant] at hgrant
  have henact : d.enact (.command (.grant subject cluster)) = (.ok p, d.withPermission p) :=
    Prod.ext hgrant (Directory.eq_of_grantAccess hgrant).2
  have hperform : (holding d).perform (.command (.grant subject cluster)) =
      (.ok p, .holding (d.withPermission p)) := by
    rw [perform_eq, henact]
  have hgranted := hreaches.step (.command (.grant subject cluster))
  rw [henact] at hgranted
  obtain ⟨d', hserve, hafter⟩ := hgranted.serve later
  rw [List.append_assoc, List.singleton_append] at hafter
  refine ⟨d, d', hstore, hreaches, hgrant, hperform, hserve, ?_, hafter⟩
  rw [serve_append, hstore, serve_cons, hperform]

/-- **A permission is one record from its grant to its one revocation.**  Let a run on a fresh store
with fewer grants than there are ids grant a permission, and go on in any way.

As long as the permission was not revoked, the list of its cluster has it once, as it was granted,
and no other list has anything under its id; if it names a group, the group cannot be deleted; and a
revocation gives the permission back and removes it, and nothing else.  Once it was revoked, every
other revocation is told that there is no such permission.  If the permission is revoked at once,
everything is as it was before the grant, but that one more id has been handed out. -/
theorem serve_holds_permissions (before later : List Step) (subject : Subject)
    (cluster : ClusterId) (p : Permission)
    (few : (journal (({} : Store).serve
      (before ++ .command (.grant subject cluster) :: later)).1).grantedPermissions.length < 2 ^ 64)
    (hgrant : ((({} : Store).serve before).2.perform (.command (.grant subject cluster))).1 =
      .ok p) :
    let store := (({} : Store).serve before).2
    let granted := (store.perform (.command (.grant subject cluster))).2
    let run := granted.serve later
    let read (c : Command) : c.Answer := (run.2.perform (.command c)).1
    let revoked := run.2.perform (.command (.revoke p.id))
    let undone := granted.perform (.command (.revoke p.id))
    (p.cluster = cluster ∧ p.subject = subject) ∧
    (¬ ShowsRevoked run.1 p.id →
      (∃ listed, read (.listPermissions cluster) = .ok listed ∧ listed.count p = 1) ∧
      (∀ other, ∃ listed, read (.listPermissions other) = .ok listed ∧
        ∀ q ∈ listed, q.id = p.id → other = cluster ∧ q = p) ∧
      (∀ group, subject = .group group →
        ∃ n, read (.deleteGroup group) = .error (.referenced group n)) ∧
      revoked.1 = .ok p ∧
      revoked.2 = .holding
        { run.2.directory with permissions := revoked.2.directory.permissions } ∧
      ∀ q, q ∈ revoked.2.directory.permissions.rows ↔
        q ∈ run.2.directory.permissions.rows ∧ q ≠ p) ∧
    (ShowsRevoked run.1 p.id → revoked.1 = .error (.notFound (.permission p.id))) ∧
    undone.1 = .ok p ∧
    undone.2 = .holding
      { store.directory with lastPermission := store.directory.lastPermission + 1 } ∧
    ∀ user cluster, (undone.2.perform (.command (.resolve user cluster))).1 =
      (store.perform (.command (.resolve user cluster))).1 := by
  intro store granted run read revoked undone
  obtain ⟨d, d', hstore, hreaches, hanswer, hperform, hserve, hhistory, hafter⟩ :=
    serve_granted later hgrant
  rw [hhistory] at few
  obtain ⟨hheld, hspent⟩ := hreaches.stored_or_spent hanswer hafter few
  have hbacked := hafter.grantsBacked
  obtain ⟨hp, -⟩ := Directory.eq_of_grantAccess hanswer
  have hcluster : p.cluster = cluster := congrArg Permission.cluster hp
  have hsubject : p.subject = subject := congrArg Permission.subject hp
  have hbefore : store = .holding d := hstore
  have hgranted : granted = .holding (d.withPermission p) := by
    change (store.perform (.command (.grant subject cluster))).2 = _
    rw [hbefore, hperform]
  have hrun : run = (((holding (d.withPermission p)).serve later).1, .holding d') := by
    change granted.serve later = _
    rw [hgranted]
    exact Prod.ext rfl hserve
  have hread : read = fun c => (d'.carryOut c).1 := by
    funext c
    change (run.2.perform (.command c)).1 = _
    rw [hrun, perform_eq, Directory.enact]
  have hrevoked : revoked = ((d'.revokeAccess p.id).1, .holding (d'.revokeAccess p.id).2) := by
    change run.2.perform (.command (.revoke p.id)) = _
    rw [hrun, perform_revoke]
  have hundone : undone = (.ok p,
      .holding { d with lastPermission := d.lastPermission + 1 }) := by
    change granted.perform (.command (.revoke p.id)) = _
    rw [Reaches.length_of_granted] at few
    have hfresh := (hreaches.fresh_of_granted hanswer (by omega)).1
    rw [hgranted, perform_revoke, Directory.revokeAccess_withPermission hfresh]
  rw [hread, hrevoked, hundone, hrun, hbefore]
  refine ⟨⟨hcluster, hsubject⟩, fun hkept => ?_, fun hgone => ?_, rfl, rfl, fun user cluster => ?_⟩
  · have hstored := hheld hkept
    refine ⟨⟨d'.grants cluster, rfl, ?_⟩, fun other => ⟨d'.grants other, rfl, fun q hq hid => ?_⟩,
      fun group hgroup => ?_, ?_, ?_, fun q => ?_⟩
    · rw [← hcluster]
      exact Directory.count_grants hstored
    · obtain rfl := Directory.eq_of_stored hstored hq hid
      exact ⟨(Directory.mem_grants_iff.mp hq).2.symm.trans hcluster, rfl⟩
    · have hnamed := hsubject.trans hgroup
      have hgroup := hbacked.grantGroup few p hstored group hnamed
      exact Directory.removeGroup_of_stored hstored hnamed hgroup (hbacked.size_le.trans_lt few)
    · rw [Directory.revokeAccess_of_stored hstored]
    · rw [Directory.revokeAccess_of_stored hstored]
      rfl
    · rw [Directory.revokeAccess_of_stored hstored]
      exact Directory.mem_permissions_deleteGrant hstored
  · rw [Directory.revokeAccess_of_missing (hspent hgone)]
  · rw [perform_resolve, perform_resolve, Directory.decision_of_lastPermission]

/-- A group has two permissions on one cluster.  The second one outlives the first, the deletion of
the group's member and an attempt to delete the group; then it is revoked, and after another grant
it cannot be revoked again. -/
theorem serve_holds_permissions_twin :
    let before : List Step :=
      [.insertUser { username := "ada" }, .command (.createGroup "ops" ""),
        .command (.addMember ⟨1⟩ ⟨1⟩), .command (.grant (.group ⟨1⟩) ⟨5⟩)]
    let later : List Step :=
      [.command (.grant (.user ⟨1⟩) ⟨1⟩), .command (.revoke ⟨1⟩), .softDelete ⟨1⟩,
        .command (.deleteGroup ⟨1⟩)]
    let last : List Step := [.command (.revoke ⟨2⟩), .command (.grant (.group ⟨1⟩) ⟨5⟩)]
    let p : Permission := ⟨⟨2⟩, ⟨5⟩, .group ⟨1⟩⟩
    let granted := (({} : Store).serve before).2.perform (.command (.grant (.group ⟨1⟩) ⟨5⟩))
    let store := (granted.2.serve later).2
    let after := (granted.2.serve (later ++ last)).2
    granted.1 = .ok p ∧
      (∃ listed, (store.perform (.command (.listPermissions ⟨5⟩))).1 = .ok listed ∧
        listed.count p = 1) ∧
      (∃ n, (store.perform (.command (.deleteGroup ⟨1⟩))).1 = .error (.referenced ⟨1⟩ n)) ∧
      (store.perform (.command (.revoke ⟨2⟩))).1 = .ok p ∧
      (after.perform (.command (.revoke ⟨2⟩))).1 = .error (.notFound (.permission ⟨2⟩)) ∧
      ((granted.2.perform (.command (.revoke ⟨2⟩))).2.perform
        (.command (.resolve ⟨1⟩ ⟨5⟩))).1 = .groupGrant ⟨1⟩ ⟨1⟩ := by
  intro before later last p granted store after
  have hgrant : granted.1 = .ok p := by decide
  have hkept : ¬ ShowsRevoked (granted.2.serve later).1 p.id :=
    mt mem_journal_revoked_iff.mpr (by decide)
  have hgone : ShowsRevoked (granted.2.serve (later ++ last)).1 p.id :=
    mem_journal_revoked_iff.mp (by decide)
  obtain ⟨-, hheld, -, -, -, hundone⟩ :=
    serve_holds_permissions before later (.group ⟨1⟩) ⟨5⟩ p (by decide) hgrant
  obtain ⟨-, -, hspent, -⟩ :=
    serve_holds_permissions before (later ++ last) (.group ⟨1⟩) ⟨5⟩ p (by decide) hgrant
  obtain ⟨hlisted, -, hreferenced, hrevoked, -⟩ := hheld hkept
  exact ⟨hgrant, hlisted, hreferenced ⟨1⟩ rfl, hrevoked, hspent hgone,
    (hundone ⟨1⟩ ⟨5⟩).trans (by decide)⟩

end Store

end ClusterAccess
