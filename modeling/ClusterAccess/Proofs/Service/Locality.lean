import ClusterAccess.Proofs.Service.Grounds
import ClusterAccess.Proofs.Service.Newcomers

/-!
# What a step can change about access

A step of the service is about one user, one group or one permission, and changes no other
decisions.  `Change.Concerns` says for each kind of change whose decisions it is about; whoever is
not concerned is answered after the step what would have been answered before it, down to the
permission that is reported (`Effect.decision_eq`).

That a group is deleted concerns nobody.  It takes memberships away, but it is only done when no
permission names the group.  The state before the step may be one that arbitrary transactions have
left, with memberships of users and permissions of groups that are not there.
-/

namespace ClusterAccess

/-- Whether what a subject is given is given to the user. -/
def Directory.Comprises (d : Directory) (user : UserId) : Subject → Prop
  | .user id => id = user
  | .group group => { group, user } ∈ d.memberships.rows

/-- Whether a change, made in a directory, is about a user's access to a cluster. -/
def Change.Concerns (d : Directory) (user : UserId) (cluster : ClusterId) : Change → Prop
  | .userInserted new => user = new.id
  | .userDeleted id =>
    user = id ∧ (d.decision user cluster = .adminRole ∨ d.decision user cluster = .denied .noGrant)
  | .groupCreated _ | .groupDeleted _ => False
  | .memberAdded m | .memberRemoved m =>
    user = m.user ∧ ∃ p ∈ d.permissions.rows, p.cluster = cluster ∧ p.subject = .group m.group
  | .granted p => p.cluster = cluster ∧ d.Comprises user p.subject
  | .revoked id =>
    ∃ p ∈ d.permissions.rows, p.id = id ∧ p.cluster = cluster ∧ d.Comprises user p.subject

namespace Effect

variable {d d' : Directory} {change : Option Change} {user : UserId} {cluster : ClusterId}

theorem exists_user?_of_userDeleted (effect : Effect d change d')
    (hchange : change = some (.userDeleted user)) : ∃ found, d.user? user = some found := by
  subst hchange
  cases effect with
  | userDeleted id found hfound => exact ⟨found, hfound⟩

section Unconcerned

variable (counted : d.Counted) (effect : Effect d change d')
  (unconcerned : ∀ c, change = some c → ¬ c.Concerns d user cluster)

include effect unconcerned

/-- An account matters only to a user without grounds, whom its deletion then concerns. -/
theorem user?_eq_of_groundless (groundless : d.Groundless user cluster) :
    d.user? user = d'.user? user := by
  refine (effect.user?_eq ?_ ?_).symm
  · intro new hinserted huser
    exact unconcerned _ hinserted huser
  · intro hdeleted
    obtain ⟨found, hread⟩ := effect.exists_user?_of_userDeleted hdeleted
    by_cases hrole : found.role = .admin
    · have hdecision : d.Decides user cluster .adminRole := .admin found groundless hread hrole
      exact unconcerned _ hdeleted ⟨rfl, .inl hdecision.eq⟩
    · have hdecision : d.Decides user cluster (.denied .noGrant) :=
        .other found groundless hread hrole
      exact unconcerned _ hdeleted ⟨rfl, .inr hdecision.eq⟩

include counted

theorem ownGrant_iff (p : Permission) :
    d.OwnGrant user cluster p ↔ d'.OwnGrant user cluster p := by
  have hcomprises {q : Permission} (named : q.subject = .user user) :
      d.Comprises user q.subject := by
    rw [named]
    rfl
  constructor
  · intro ground
    refine effect.keeps_ownGrant counted ?_ ground
    intro hrevoked
    exact unconcerned _ hrevoked ⟨p, ground.stored, rfl, ground.here, hcomprises ground.named⟩
  · intro ground
    rcases effect.ownGrant_cases counted ground with hold | hgranted
    · exact hold
    · exact absurd ⟨ground.here, hcomprises ground.named⟩ (unconcerned _ hgranted)

theorem groupGrant_iff (group : GroupId) (p : Permission) :
    d.GroupGrant user cluster group p ↔ d'.GroupGrant user cluster group p := by
  have hcomprises (named : p.subject = .group group)
      (member : { group, user } ∈ d.memberships.rows) : d.Comprises user p.subject := by
    rw [named]
    exact member
  constructor
  · intro ground
    refine effect.keeps_groupGrant counted ?_ ?_ ground
    · intro hrevoked
      have hself := hcomprises ground.named ground.member
      exact unconcerned _ hrevoked ⟨p, ground.stored, rfl, ground.here, hself⟩
    · intro hremoved
      exact unconcerned _ hremoved ⟨rfl, p, ground.stored, ground.here, ground.named⟩
  · intro ground
    rcases effect.groupGrant_cases counted ground with hold | ⟨hgranted, hmember⟩ | ⟨hadded, hold⟩
    · exact hold
    · have hself := hcomprises ground.named hmember
      exact absurd ⟨ground.here, hself⟩ (unconcerned _ hgranted)
    · exact absurd ⟨rfl, p, hold, ground.here, ground.named⟩ (unconcerned _ hadded)

/-- **Who is not concerned by a change has the same decision after it.** -/
theorem decision_eq : d'.decision user cluster = d.decision user cluster :=
  Directory.decision_congr (effect.ownGrant_iff counted unconcerned)
    (effect.groupGrant_iff counted unconcerned) (effect.user?_eq_of_groundless unconcerned)

end Unconcerned

end Effect

/-! ## Every state -/

/-- **A step changes only the decisions that it is about.**  Let any deeds be done to a fresh store,
arbitrary transactions among them, within the ids there are.  If a decision differs before and after
the step that comes next, then the step has made a change, and the change concerns that decision.
In particular no decision differs after a group was created or deleted, and none after a step that
failed or only reads. -/
theorem Store.live_localizes (deeds : List Deed) (step : Step) (user : UserId) (cluster : ClusterId)
    (few : (everKept (({} : Store).live deeds).1).Bounded) :
    let store := (({} : Store).live deeds).2
    let next := store.perform step
    (next.2.perform (.command (.resolve user cluster))).1 ≠
        (store.perform (.command (.resolve user cluster))).1 →
      ∃ change, Entry.change? ⟨step, next.1⟩ = some change ∧
        change.Concerns store.directory user cluster := by
  intro store next hdiffers
  obtain ⟨d, hstore, hgrown⟩ := Store.live_grown deeds
  have hholding : store = .holding d := hstore
  have hnext : next = ((d.enact step).1, .holding (d.enact step).2) := by
    rw [← Store.perform_eq, ← hholding]
  rw [hnext, hholding, Store.perform_resolve, Store.perform_resolve] at hdiffers
  by_contra hnone
  refine hdiffers ((d.effect step).decision_eq (hgrown.counted few) ?_)
  intro change hchange hconcerns
  refine hnone ⟨change, ?_, ?_⟩
  · rw [hnext]
    exact hchange
  · rw [hholding]
    exact hconcerns

/-- A transaction has put a user into a group who is not there at all.  A permission of the group
then concerns this user. -/
theorem Store.live_localizes_stranger :
    let deeds : List Deed :=
      [.step (.command (.createGroup "ops" "")),
        .transact id (ExceptT.mk (Dialogue.request (Action.insertMembership ⟨⟨1⟩, ⟨9⟩⟩)) :
          ExceptT StoreError Transaction Bool)]
    let step : Step := .command (.grant (.group ⟨1⟩) ⟨5⟩)
    let run := ({} : Store).live deeds
    let next := run.2.perform step
    (everKept run.1).Bounded ∧
      (run.2.perform (.command (.resolve ⟨9⟩ ⟨5⟩))).1 = .denied .unknownUser ∧
      (next.2.perform (.command (.resolve ⟨9⟩ ⟨5⟩))).1 = .groupGrant ⟨1⟩ ⟨1⟩ ∧
      ∃ change, Entry.change? ⟨step, next.1⟩ = some change ∧
        change.Concerns run.2.directory ⟨9⟩ ⟨5⟩ := by
  intro deeds step run next
  have hfew : (everKept run.1).Bounded := ⟨by decide, by decide, by decide⟩
  have hbefore : (run.2.perform (.command (.resolve ⟨9⟩ ⟨5⟩))).1 = .denied .unknownUser := by decide
  have hafter : (next.2.perform (.command (.resolve ⟨9⟩ ⟨5⟩))).1 = .groupGrant ⟨1⟩ ⟨1⟩ := by decide
  refine ⟨hfew, hbefore, hafter, Store.live_localizes deeds step ⟨9⟩ ⟨5⟩ hfew ?_⟩
  exact fun heq => nomatch hbefore.symm.trans (heq.symm.trans hafter)

end ClusterAccess
