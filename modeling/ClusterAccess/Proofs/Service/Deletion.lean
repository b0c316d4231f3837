import ClusterAccess.Proofs.Service.Decisions

/-!
# Access of deleted users

Deleting a user hides the user from those who read users, and keeps memberships and permissions.
The resolution asks for permissions before it asks for the user.  So a deleted user does not become
unknown to it at once: whatever stood when the user was deleted goes on to count until it is taken
away (`Store.deleted_user_admitted`).

What deletion does end is the user's role, and everything new.  From then on no permission is given
to the user, and the user is not added to any group (`Journal.Settled`), so that a permission that
still admits the user is one the user had before, or one of a group that the user was in before.
-/

namespace ClusterAccess

/-! ## What counts after a deletion -/

namespace Journal

/-- Whatever stands after more changes stood before them or was made by one of them. -/
theorem mem_standing_append {α : Type} (made : Change → Option α) (undone : α → Change)
    {j later : Journal} {a : α} (h : a ∈ standing made undone (j ++ later)) :
    a ∈ standing made undone j ∨ ∃ change ∈ later, made change = some a := by
  induction later using List.reverseRecOn with
  | nil =>
    rw [List.append_nil] at h
    exact .inl h
  | append_singleton later change ih =>
    rw [← List.append_assoc] at h
    rcases (mem_standing_concat made undone).mp h with ⟨hold, -⟩ | hnew
    · rcases ih hold with hbefore | ⟨earlier, hearlier, hmade⟩
      · exact .inl hbefore
      · exact .inr ⟨earlier, List.mem_append_left _ hearlier, hmade⟩
    · exact .inr ⟨change, List.mem_append_right _ (List.mem_singleton.mpr rfl), hnew⟩

/-- A membership that stands after more changes stood before them or was added by one of them. -/
theorem isMember_append {j later : Journal} {m : Membership}
    (h : isMember (j ++ later) m = true) : j.isMember m = true ∨ .memberAdded m ∈ later := by
  induction later using List.reverseRecOn with
  | nil =>
    rw [List.append_nil] at h
    exact .inl h
  | append_singleton later change ih =>
    by_cases hnow : change = .memberAdded m
    · exact .inr (List.mem_append_right _ (List.mem_singleton.mpr hnow.symm))
    · rw [← List.append_assoc, isMember_concat] at h
      have hold : isMember (j ++ later) m = true := by
        cases change with
        | memberAdded added =>
          have hm : added ≠ m := fun hm => hnow (congrArg Change.memberAdded hm)
          rwa [Change.membership?, if_neg hm] at h
        | memberRemoved removed =>
          by_cases hm : removed = m
          · rw [Change.membership?, if_pos hm] at h
            cases h
          · rwa [Change.membership?, if_neg hm] at h
        | _ => exact h
      exact (ih hold).imp_right (List.mem_append_left _)

/-- After a deletion nothing is given to the user any more. -/
def Settled (j : Journal) : Prop :=
  ∀ user held later, j = held ++ .userDeleted user :: later →
    (∀ p, .granted p ∈ later → p.subject ≠ .user user) ∧
      ∀ group, .memberAdded { group, user } ∉ later

end Journal

theorem Agrees.user?_eq_none {j : Journal} {d : Directory} (h : Agrees j d) {user : UserId}
    (hdeleted : j.isDeleted user = true) : d.user? user = none := by
  cases hread : d.user? user with
  | none => rfl
  | some found =>
    obtain ⟨hrow, rfl⟩ := Directory.user?_eq_some_iff.mp hread
    have hlive := ((h.accounts _).mp hrow).2
    rw [hdeleted] at hlive
    cases hlive

namespace Effect

variable {d d' : Directory}

theorem subjectExists_of_granted {p : Permission} (effect : Effect d (some (.granted p)) d') :
    d.subjectExists p.subject = true := by
  cases effect with
  | granted subject cluster reached => exact reached

theorem isSome_user?_of_memberAdded {m : Membership}
    (effect : Effect d (some (.memberAdded m)) d') : (d.user? m.user).isSome = true := by
  cases effect with
  | memberAdded m group user => exact user

end Effect

theorem Journal.Settled.step {j : Journal} {d d' : Directory} {change : Option Change}
    (hsettled : j.Settled) (h : Agrees j d) (effect : Effect d change d') :
    Journal.Settled (j ++ change.toList) := by
  intro user held later hj
  cases change with
  | none =>
    rw [Option.toList_none, List.append_nil] at hj
    exact hsettled user held later hj
  | some change =>
    rcases List.eq_nil_or_concat later with rfl | ⟨earlier, last, rfl⟩
    · exact ⟨nofun, nofun⟩
    · have hsplit : j ++ [change] = (held ++ .userDeleted user :: earlier) ++ [last] := by
        rw [Option.toList_some, List.concat_eq_append] at hj
        rw [hj, List.append_assoc, List.cons_append]
      obtain ⟨rfl, hlast⟩ := List.append_inj' hsplit rfl
      cases hlast
      obtain ⟨hgranted, hadded⟩ := hsettled user held earlier rfl
      have hhidden : d.user? user = none :=
        h.user?_eq_none (decide_eq_true (List.mem_append_right _ List.mem_cons_self))
      rw [List.concat_eq_append]
      refine ⟨fun p hp hsubject => ?_, fun group hmember => ?_⟩
      · rcases List.mem_append.mp hp with hold | hnew
        · exact hgranted p hold hsubject
        · cases List.mem_singleton.mp hnew
          have hexists := effect.subjectExists_of_granted
          rw [hsubject, Directory.subjectExists, hhidden] at hexists
          cases hexists
      · rcases List.mem_append.mp hmember with hold | hnew
        · exact hadded group hold
        · cases List.mem_singleton.mp hnew
          have hexists := effect.isSome_user?_of_memberAdded
          rw [hhidden] at hexists
          cases hexists

theorem Reaches.settled {history : List Entry} {d : Directory} (h : Reaches history d)
    (few : (journal history).Bounded) : (journal history).Settled := by
  have hboth : Agrees (journal history) d ∧ (journal history).Settled := by
    refine h.invariant_of_bounded (fun j d => Agrees j d ∧ j.Settled) ⟨.start, ?_⟩ ?_ few
    · intro user held later hj
      cases held <;> cases hj
    · intro j d d' change few ih effect
      exact ⟨ih.1.step few effect, ih.2.step ih.1 effect⟩
  exact hboth.2

/-! ## Every run -/

/-- The journal of a run that deletes a user on its way. -/
theorem Store.journal_serve_softDelete (before later : List Step) {user : UserId}
    (hdeleted : ((({} : Store).serve before).2.perform (.softDelete user)).1 = .ok true) :
    journal (({} : Store).serve (before ++ .softDelete user :: later)).1 =
      journal (({} : Store).serve before).1 ++ .userDeleted user ::
        journal (((({} : Store).serve before).2.perform (.softDelete user)).2.serve later).1 := by
  have hentry : Entry.change?
      ⟨.softDelete user, ((({} : Store).serve before).2.perform (.softDelete user)).1⟩ =
        some (.userDeleted user) := by
    rw [hdeleted]
    rfl
  rw [Store.serve_append, Store.serve_cons, journal, List.filterMap_append,
    List.filterMap_cons_some hentry]
  rfl

/-- **A deleted user is unknown, but for what stood already.**  Let a run delete a user.  In every
later state a resolution reports the smallest standing permission that names the user, else the
smallest one that names a group to which the user was added last, else that the user is unknown; the
user's role no longer counts.  All permissions and memberships that it rests on stood before the
deletion. -/
theorem Store.serve_resolves_deleted (before later : List Step) (user : UserId)
    (cluster : ClusterId)
    (hdeleted : ((({} : Store).serve before).2.perform (.softDelete user)).1 = .ok true)
    (few : (journal (({} : Store).serve (before ++ .softDelete user :: later)).1).Bounded) :
    let held := journal (({} : Store).serve before).1
    let run := ({} : Store).serve (before ++ .softDelete user :: later)
    let j := journal run.1
    (run.2.perform (.command (.resolve user cluster))).1 =
        (match j.directGrant? user cluster with
          | some p => .directGrant p.id
          | none =>
            match (j.groupGrant? user cluster).bind Access.ofGroup? with
            | some decision => decision
            | none => .denied .unknownUser) ∧
      (∀ p ∈ j.permissions, p.subject = .user user → p ∈ held.permissions) ∧
      ∀ group, j.isMember { group, user } = true → held.isMember { group, user } = true := by
  intro held run j
  obtain ⟨rest, hj⟩ : ∃ rest, j = held ++ .userDeleted user :: rest :=
    ⟨_, journal_serve_softDelete before later hdeleted⟩
  obtain ⟨d, hstore, hreaches⟩ := Store.serve_reaches (before ++ .softDelete user :: later)
  obtain ⟨hgranted, hadded⟩ := hreaches.settled few user held rest hj
  refine ⟨?_, fun p hp hsubject => ?_, fun group hmember => ?_⟩
  · have hrun : run.2 = .holding d := hstore
    have hrole : j.byRole user = .denied .unknownUser := by
      have hmem : j.isDeleted user = true := by
        rw [hj]
        exact decide_eq_true (List.mem_append_right _ List.mem_cons_self)
      rw [Journal.byRole, if_pos hmem]
    rw [hrun, Store.perform_eq, ← hrole]
    exact (hreaches.agrees few).decision_eq (hreaches.grantsBacked.grantGroup few.permissions) user
      cluster
  · rw [hj] at hp
    rcases Journal.mem_standing_append _ _ hp with hbefore | ⟨change, hchange, hmade⟩
    · exact hbefore
    · rcases List.mem_cons.mp hchange with rfl | hafter
      · cases hmade
      · cases change with
        | granted granted =>
          cases hmade
          exact absurd hsubject (hgranted p hafter)
        | _ => cases hmade
  · rw [hj] at hmember
    rcases Journal.isMember_append hmember with hbefore | hafter
    · exact hbefore
    · rcases List.mem_cons.mp hafter with hnow | hlater
      · cases hnow
      · exact absurd hlater (hadded group)

/-- A user who was given a permission, and added to a group, keeps the first when deleted, and loses
what the group gave with the membership. -/
theorem Store.serve_resolves_deleted_member :
    let before : List Step :=
      [.insertUser { username := "ada", role := .admin }, .command (.createGroup "ops" ""),
        .command (.addMember ⟨1⟩ ⟨1⟩), .command (.grant (.group ⟨1⟩) ⟨5⟩),
        .command (.grant (.user ⟨1⟩) ⟨6⟩)]
    let later : List Step := [.command (.removeMember ⟨1⟩ ⟨1⟩), .command (.grant (.user ⟨1⟩) ⟨5⟩)]
    let run := ({} : Store).serve (before ++ .softDelete ⟨1⟩ :: later)
    ((({} : Store).serve before).2.perform (.softDelete ⟨1⟩)).1 = .ok true ∧
      (journal run.1).Bounded ∧
      (run.2.perform (.command (.resolve ⟨1⟩ ⟨5⟩))).1 = .denied .unknownUser ∧
      (run.2.perform (.command (.resolve ⟨1⟩ ⟨6⟩))).1 = .directGrant ⟨2⟩ := by
  intro before later run
  have hdeleted : ((({} : Store).serve before).2.perform (.softDelete ⟨1⟩)).1 = .ok true := by
    decide
  have hbounded : (journal run.1).Bounded := ⟨by decide, by decide, by decide⟩
  have hdecides (cluster : ClusterId) :=
    (Store.serve_resolves_deleted before later ⟨1⟩ cluster hdeleted hbounded).1
  exact ⟨hdeleted, hbounded, (hdecides ⟨5⟩).trans (by decide), (hdecides ⟨6⟩).trans (by decide)⟩

/-- Deletion alone takes no permission away: a deleted user may still be admitted. -/
theorem Store.deleted_user_admitted :
    ¬ ∀ (before later : List Step) (user : UserId) (cluster : ClusterId),
      ((({} : Store).serve before).2.perform (.softDelete user)).1 = .ok true →
        (journal (({} : Store).serve (before ++ .softDelete user :: later)).1).Bounded →
          ((({} : Store).serve (before ++ .softDelete user :: later)).2.perform
            (.command (.resolve user cluster))).1 = .denied .unknownUser := by
  intro h
  have hdenied := h [.insertUser { username := "ada" }, .command (.grant (.user ⟨1⟩) ⟨5⟩)] []
    ⟨1⟩ ⟨5⟩ (by decide) ⟨by decide, by decide, by decide⟩
  revert hdenied
  decide

end ClusterAccess
