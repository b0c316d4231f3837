import ClusterAccess.Proofs.Service.Grounds
import ClusterAccess.Proofs.Service.Newcomers

/-!
# Access over the steps of a run

Giving never takes access away, and taking never gives any (`Effect.isGranted_of_gives`,
`Effect.isGranted_of_takes`).  More than that, a decision that reports a permission goes on to
report the same one.  It is the least of its kind, and new permissions have greater ids.  So a
permission that names the user is reported until it is revoked, and one of a group until one of four
things happens (`Change.Reroutes`).

What holds until something happens is proved once for all runs (`Reaches.holds_or_meets`): the step
that breaks it is such a thing.
-/

namespace ClusterAccess

/-! ## Giving and taking -/

/-- A step that gives access, if it does anything. -/
def Step.gives : Step → Bool
  | .command (.grant ..) | .command (.addMember ..) => true
  | _ => false

/-- A step that takes access away, if it does anything. -/
def Step.takes : Step → Bool
  | .command (.revoke _) | .command (.removeMember ..) | .softDelete _ => true
  | _ => false

def Change.gives : Change → Bool
  | .granted _ | .memberAdded _ => true
  | _ => false

def Change.takes : Change → Bool
  | .revoked _ | .memberRemoved _ | .userDeleted _ => true
  | _ => false

theorem Change.gives_of_step {step : Step} {answer : step.Answer} {change : Change}
    (hstep : step.gives = true) (h : Entry.change? ⟨step, answer⟩ = some change) :
    change.gives = true := by
  cases step with
  | command c =>
    cases c with
    | grant subject cluster =>
      cases answer with
      | ok permission =>
        cases h
        rfl
      | error e => cases h
    | addMember group user =>
      cases answer with
      | ok found =>
        cases h
        rfl
      | error e => cases h
    | _ => cases hstep
  | insertUser new => cases hstep
  | softDelete id => cases hstep

theorem Change.takes_of_step {step : Step} {answer : step.Answer} {change : Change}
    (hstep : step.takes = true) (h : Entry.change? ⟨step, answer⟩ = some change) :
    change.takes = true := by
  cases step with
  | command c =>
    cases c with
    | revoke id =>
      cases answer with
      | ok permission =>
        cases h
        rfl
      | error e => cases h
    | removeMember group user =>
      cases answer with
      | ok found =>
        cases h
        rfl
      | error e => cases h
    | _ => cases hstep
  | insertUser new => cases hstep
  | softDelete id =>
    cases answer with
    | ok deleted =>
      cases deleted with
      | true =>
        cases h
        rfl
      | false => cases h
    | error e => cases h

/-! ## What reroutes access by a group -/

/-- The changes after which access by a permission of a group may be reported differently, or be
gone: the permission is revoked, the user is removed from the group, a permission is given to the
user, or the user is added to another group that holds an earlier permission. -/
def Change.Reroutes (user : UserId) (cluster : ClusterId) (group : GroupId) (id : PermissionId)
    (d : Directory) : Change → Prop
  | .revoked id' => id' = id
  | .memberRemoved m => m = { group, user }
  | .granted p => p.cluster = cluster ∧ p.subject = .user user
  | .memberAdded m => m.user = user ∧ m.group ≠ group ∧
    ∃ p ∈ d.permissions.rows, p.cluster = cluster ∧ p.subject = .group m.group ∧ p.id < id
  | _ => False

namespace Effect

variable {d d' : Directory} {change : Option Change} {user : UserId} {cluster : ClusterId}

theorem user?_eq_none_of_userDeleted (effect : Effect d change d')
    (hchange : change = some (.userDeleted user)) : d'.user? user = none := by
  subst hchange
  cases effect with
  | userDeleted id found hfound =>
    obtain ⟨-, rfl⟩ := Directory.user?_eq_some_iff.mp hfound
    simp only [Directory.user?, Table.find?_insert]
    rfl

variable (counted : d.Counted) (effect : Effect d change d')

include counted effect

/-! ## One step -/

/-- Giving takes nothing away. -/
theorem isGranted_of_gives (gives : ∀ c, change = some c → c.gives = true)
    (h : (d.decision user cluster).isGranted = true) :
    (d'.decision user cluster).isGranted = true := by
  have hkept (id : PermissionId) : change ≠ some (.revoked id) := fun hc => nomatch gives _ hc
  have hstays (m : Membership) : change ≠ some (.memberRemoved m) := fun hc => nomatch gives _ hc
  rw [Directory.isGranted_decision_iff] at h ⊢
  rcases h with ⟨p, ground⟩ | ⟨group, p, ground⟩ | ⟨found, hread, hrole⟩
  · exact .inl ⟨p, effect.keeps_ownGrant counted (hkept p.id) ground⟩
  · exact .inr (.inl ⟨group, p, effect.keeps_groupGrant counted (hkept p.id) (hstays _) ground⟩)
  · have hsame : d'.user? user = d.user? user :=
      effect.user?_eq (fun _ hc => nomatch gives _ hc) fun hc => nomatch gives _ hc
    exact .inr (.inr ⟨found, hsame.trans hread, hrole⟩)

/-- Taking gives nothing. -/
theorem isGranted_of_takes (takes : ∀ c, change = some c → c.takes = true)
    (h : (d'.decision user cluster).isGranted = true) :
    (d.decision user cluster).isGranted = true := by
  rw [Directory.isGranted_decision_iff] at h ⊢
  rcases h with ⟨p, ground⟩ | ⟨group, p, ground⟩ | ⟨found, hread, hrole⟩
  · rcases effect.ownGrant_cases counted ground with hold | hgranted
    · exact .inl ⟨p, hold⟩
    · cases takes _ hgranted
  · rcases effect.groupGrant_cases counted ground with hold | ⟨hgranted, -⟩ | ⟨hadded, -⟩
    · exact .inr (.inl ⟨group, p, hold⟩)
    · cases takes _ hgranted
    · cases takes _ hadded
  · by_cases hdeleted : change = some (.userDeleted user)
    · rw [effect.user?_eq_none_of_userDeleted hdeleted] at hread
      cases hread
    · have hsame : d'.user? user = d.user? user :=
        effect.user?_eq (fun _ hc => nomatch takes _ hc) hdeleted
      exact .inr (.inr ⟨found, hsame.symm.trans hread, hrole⟩)

variable (above : ∀ p, change = some (.granted p) → ∀ q ∈ d.permissions.rows, q.id < p.id)

include above

/-- What a permission that names the user decides stays decided until it is revoked. -/
theorem directGrant_kept {id : PermissionId} (kept : change ≠ some (.revoked id))
    (h : d.decision user cluster = .directGrant id) :
    d'.decision user cluster = .directGrant id := by
  rw [Directory.decides_iff] at h ⊢
  cases h with
  | own p ground least =>
    refine .own p (effect.keeps_ownGrant counted kept ground) fun other hother => ?_
    rcases effect.ownGrant_cases counted hother with hold | hgranted
    · exact least other hold
    · exact Key.not_lt_of_lt (above other hgranted p ground.stored)

/-- What a permission of a group decides stays decided until access is rerouted. -/
theorem groupGrant_kept {group : GroupId} {id : PermissionId}
    (kept : ∀ c, change = some c → ¬ c.Reroutes user cluster group id d)
    (h : d.decision user cluster = .groupGrant group id) :
    d'.decision user cluster = .groupGrant group id := by
  rw [Directory.decides_iff] at h ⊢
  cases h with
  | group _ p unnamed ground least =>
    have hground : d'.GroupGrant user cluster group p :=
      effect.keeps_groupGrant counted (fun hrevoked => kept _ hrevoked rfl)
        (fun hremoved => kept _ hremoved rfl) ground
    refine .group group p (fun other hother => ?_) hground fun group' other hother hearlier => ?_
    · rcases effect.ownGrant_cases counted hother with hold | hgranted
      · exact unnamed other hold
      · exact kept _ hgranted ⟨hother.here, hother.named⟩
    · rcases effect.groupGrant_cases counted hother with hold | ⟨hgranted, -⟩ | ⟨hadded, hstored⟩
      · exact least group' other hold hearlier
      · exact Key.not_lt_of_lt (above other hgranted p ground.stored) hearlier
      · -- Who is added to the group once more is in it already.
        by_cases hgroup : group' = group
        · subst hgroup
          exact least group' other ⟨hstored, hother.here, hother.named, ground.member⟩ hearlier
        · exact kept _ hadded ⟨rfl, hgroup, other, hstored, hother.here, hother.named, hearlier⟩

end Effect

/-! ## What holds until something happens -/

/-- Some step of a run makes a change of a certain kind.  Which kind may depend on the directory
that the step finds. -/
def Store.Meets (store : Store) (steps : List Step) (event : Directory → Change → Prop) : Prop :=
  ∃ before step after change, steps = before ++ step :: after ∧
    Entry.change? ⟨step, ((store.serve before).2.perform step).1⟩ = some change ∧
      event (store.serve before).2.directory change

theorem Store.Meets.cons {store : Store} {step : Step} {steps : List Step}
    {event : Directory → Change → Prop} (h : (store.perform step).2.Meets steps event) :
    store.Meets (step :: steps) event := by
  obtain ⟨before, step', after, change, rfl, hchange, hevent⟩ := h
  exact ⟨step :: before, step', after, change, rfl, hchange, hevent⟩

/-- A permission that is granted has a greater id than all that are there. -/
theorem Reaches.id_lt_of_granted {history : List Entry} {d d' : Directory}
    {change : Option Change} (h : Reaches history d) (effect : Effect d change d')
    (few : Journal.Bounded (journal history ++ change.toList)) (p : Permission)
    (hchange : change = some (.granted p)) : ∀ q ∈ d.permissions.rows, q.id < p.id := by
  subst hchange
  cases effect with
  | granted subject cluster reached =>
    intro q hq
    have hlt := (h.numbered few.of_append).lt_nextPermission few
    have hle := (h.agrees few.of_append).permission_le hq
    exact UInt64.lt_of_le_of_lt hle hlt

/-- **What only certain changes can break holds until one of them is made.** -/
theorem Reaches.holds_or_meets {P : Directory → Prop} {event : Directory → Change → Prop}
    (kept : ∀ {history : List Entry} {d d' : Directory} {change : Option Change},
      Reaches history d → Journal.Bounded (journal history ++ change.toList) →
        Effect d change d' → (∀ c, change = some c → ¬ event d c) → P d → P d')
    {history : List Entry} {d : Directory} (h : Reaches history d) (steps : List Step)
    (few : (journal (history ++ ((Store.holding d).serve steps).1)).Bounded) (hd : P d) :
    P ((Store.holding d).serve steps).2.directory ∨ (Store.holding d).Meets steps event := by
  induction steps generalizing history d with
  | nil => exact .inl hd
  | cons step steps ih =>
    have hnext := h.step step
    rw [Store.serve_cons, Store.perform_eq, List.append_cons] at few
    by_cases hevent : ∃ c, Entry.change? ⟨step, (d.enact step).1⟩ = some c ∧ event d c
    · obtain ⟨c, hchange, hc⟩ := hevent
      refine .inr ⟨[], step, steps, c, rfl, ?_, hc⟩
      rw [Store.serve, Store.perform_eq]
      exact hchange
    · have hfew : Journal.Bounded
          (journal history ++ (Entry.change? ⟨step, (d.enact step).1⟩).toList) := by
        rw [← journal_concat]
        rw [journal, List.filterMap_append] at few
        exact few.of_append
      have hkept : P (d.enact step).2 :=
        kept h hfew (d.effect step) (fun c hchange hc => hevent ⟨c, hchange, hc⟩) hd
      rw [Store.serve_cons, Store.perform_eq]
      rcases ih hnext few hkept with hholds | hmeets
      · exact .inl hholds
      · refine .inr (Store.Meets.cons ?_)
        rwa [Store.perform_eq]

/-! ## Every run -/

/-- **Access is monotone, and what is reported is stable.**  Let any run be made on a fresh store,
within the ids there are.  A grant and an addition to a group take nobody's access away, and a
revocation, a removal from a group and a deletion of a user give access to nobody.  While the run
goes on, a permission of the user's own that a decision reports is reported until it is revoked, and
one of a group is reported, with that group, until access by it is rerouted. -/
theorem Store.serve_access_stable (steps : List Step) (user : UserId) (cluster : ClusterId) :
    let decision (store : Store) : Decision := (store.perform (.command (.resolve user cluster))).1
    let store := (({} : Store).serve steps).2
    (∀ step, (journal (({} : Store).serve (steps ++ [step])).1).Bounded →
      (step.gives = true → (decision store).isGranted = true →
        (decision (store.perform step).2).isGranted = true) ∧
      (step.takes = true → (decision store).isGranted = false →
        (decision (store.perform step).2).isGranted = false)) ∧
    ∀ later, (journal (({} : Store).serve (steps ++ later)).1).Bounded →
      (∀ id, decision store = .directGrant id →
        decision (store.serve later).2 = .directGrant id ∨
          store.Meets later fun _ change => change = .revoked id) ∧
      ∀ group id, decision store = .groupGrant group id →
        decision (store.serve later).2 = .groupGrant group id ∨
          store.Meets later (Change.Reroutes user cluster group id) := by
  intro decision store
  obtain ⟨d, hstore, hreaches⟩ := Store.serve_reaches steps
  have hholding : store = .holding d := hstore
  have hdecision (d : Directory) : decision (.holding d) = d.decision user cluster :=
    Store.perform_resolve d user cluster
  rw [hholding]
  refine ⟨fun step few => ?_, fun later few => ?_⟩
  · rw [Store.serve_append, hstore, journal, List.filterMap_append] at few
    have hcounted : d.Counted := hreaches.counted few.of_append
    have heffect := d.effect step
    rw [Store.perform_eq, hdecision, hdecision]
    refine ⟨fun hgives => ?_, fun htakes hdenied => ?_⟩
    · exact heffect.isGranted_of_gives hcounted fun c hc => Change.gives_of_step hgives hc
    · rw [Bool.eq_false_iff] at hdenied ⊢
      exact mt (heffect.isGranted_of_takes hcounted fun c hc => Change.takes_of_step htakes hc)
        hdenied
  · rw [Store.serve_append, hstore] at few
    obtain ⟨d', hlater, -⟩ := hreaches.serve later
    have hdirectory : ((Store.holding d).serve later).2.directory = d' := congrArg _ hlater
    rw [hlater, hdecision, hdecision, ← hdirectory]
    refine ⟨fun id hd => ?_, fun group id hd => ?_⟩
    · refine hreaches.holds_or_meets (P := fun d => d.decision user cluster = .directGrant id)
        ?_ later few hd
      intro history d d' change hreaches few effect hkept hd
      exact effect.directGrant_kept (hreaches.counted few.of_append)
        (hreaches.id_lt_of_granted effect few) (fun hrevoked => hkept _ hrevoked rfl) hd
    · refine hreaches.holds_or_meets (P := fun d => d.decision user cluster = .groupGrant group id)
        ?_ later few hd
      intro history d d' change hreaches few effect hkept hd
      exact effect.groupGrant_kept (hreaches.counted few.of_append)
        (hreaches.id_lt_of_granted effect few) hkept hd

/-- A user has access by the second permission on a cluster, since the first one is another group's.
A third one, and an addition to its group, change nothing; an addition to the group of the first one
does.  On another cluster the user is denied, and no less so when deleted. -/
theorem Store.serve_access_stable_joined :
    let steps : List Step :=
      [.insertUser { username := "bob" }, .command (.createGroup "dev" ""),
        .command (.createGroup "ops" ""), .command (.createGroup "qa" ""),
        .command (.grant (.group ⟨1⟩) ⟨5⟩), .command (.grant (.group ⟨2⟩) ⟨5⟩),
        .command (.addMember ⟨2⟩ ⟨1⟩)]
    let later : List Step :=
      [.command (.grant (.group ⟨3⟩) ⟨5⟩), .command (.addMember ⟨3⟩ ⟨1⟩),
        .command (.addMember ⟨1⟩ ⟨1⟩)]
    let store := (({} : Store).serve steps).2
    (journal (({} : Store).serve (steps ++ later)).1).Bounded ∧
      (store.perform (.command (.resolve ⟨1⟩ ⟨5⟩))).1 = .groupGrant ⟨2⟩ ⟨2⟩ ∧
      ((store.serve (later.take 2)).2.perform (.command (.resolve ⟨1⟩ ⟨5⟩))).1 =
        .groupGrant ⟨2⟩ ⟨2⟩ ∧
      store.Meets later (Change.Reroutes ⟨1⟩ ⟨5⟩ ⟨2⟩ ⟨2⟩) ∧
      (store.perform (.command (.resolve ⟨1⟩ ⟨6⟩))).1.isGranted = false ∧
      ((store.perform (.softDelete ⟨1⟩)).2.perform (.command (.resolve ⟨1⟩ ⟨6⟩))).1.isGranted =
        false := by
  intro steps later store
  have hfew : (journal (({} : Store).serve (steps ++ later)).1).Bounded :=
    ⟨by decide, by decide, by decide⟩
  have hfewDeleted : (journal (({} : Store).serve (steps ++ [.softDelete ⟨1⟩])).1).Bounded :=
    ⟨by decide, by decide, by decide⟩
  have hbefore : (store.perform (.command (.resolve ⟨1⟩ ⟨5⟩))).1 = .groupGrant ⟨2⟩ ⟨2⟩ := by decide
  have hdenied : (store.perform (.command (.resolve ⟨1⟩ ⟨6⟩))).1.isGranted = false := by decide
  obtain ⟨-, hstable⟩ := Store.serve_access_stable steps ⟨1⟩ ⟨5⟩
  obtain ⟨hmonotone, -⟩ := Store.serve_access_stable steps ⟨1⟩ ⟨6⟩
  have hmeets := ((hstable later hfew).2 ⟨2⟩ ⟨2⟩ hbefore).resolve_left (by decide)
  exact ⟨hfew, hbefore, by decide, hmeets, hdenied,
    (hmonotone (.softDelete ⟨1⟩) hfewDeleted).2 rfl hdenied⟩

end ClusterAccess
