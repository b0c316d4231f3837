import ClusterAccess.Proofs.Access.Reads

/-!
# Faults during a resolution

What a resolution owes to the answers of a store that may fail at any question is stated in terms of
its exchanges alone (`Absorbs`).  Each exchange may settle the decision (`verdict?`) and may call
for a warning (`warning?`); the decision is the first verdict, and the events are the warnings in
the order of the calls.  The proof goes through the four ways a resolution can go (`Course`).

Answers that are replaced by errors never turn a refusal into access (`Reads.isGranted_of_faultOf`):
access needs an answer that speaks for it, and errors speak for nothing.
-/

namespace ClusterAccess.Access

/-! ## Answers lost -/

namespace Reads

variable {r : Reads} (user : UserId) (cluster : ClusterId)

/-- A store whose every answer is the answer of another store, or an error in its place. -/
structure FaultOf (faulty r : Reads) : Prop where
  userGrant : ∀ user cluster, faulty.userGrant user cluster = r.userGrant user cluster ∨
    ∃ e, faulty.userGrant user cluster = .error e
  groupsOf : ∀ user, faulty.groupsOf user = r.groupsOf user ∨
    ∃ e, faulty.groupsOf user = .error e
  groupGrant : ∀ groups cluster, faulty.groupGrant groups cluster = r.groupGrant groups cluster ∨
    ∃ e, faulty.groupGrant groups cluster = .error e
  user : ∀ user, faulty.user user = r.user user ∨ ∃ e, faulty.user user = .error e

/-- What a faulty answer says is what the answer in its place says. -/
theorem eq_ok_of_fault {α : Type} {faulty sound : Except StoreError α} {a : α}
    (h : faulty = sound ∨ ∃ e, faulty = .error e) (ha : faulty = .ok a) : sound = .ok a := by
  rcases h with h | ⟨e, h⟩
  · rw [← h, ha]
  · rw [ha] at h
    cases h

/-- **Faults never widen access.** -/
theorem isGranted_of_faultOf {faulty : Reads} (hfault : faulty.FaultOf r)
    (h : (faulty.decision user cluster).isGranted = true) :
    (r.decision user cluster).isGranted = true := by
  rw [isGranted_decision] at h ⊢
  rcases h with ⟨p, hp⟩ | ⟨groups, p, group, hgroups, hne, hp, hsubject⟩ | ⟨found, hfound, hadmin⟩
  · exact .inl ⟨p, eq_ok_of_fault (hfault.userGrant user cluster) hp⟩
  · exact .inr (.inl ⟨groups, p, group, eq_ok_of_fault (hfault.groupsOf user) hgroups, hne,
      eq_ok_of_fault (hfault.groupGrant groups cluster) hp, hsubject⟩)
  · exact .inr (.inr ⟨found, eq_ok_of_fault (hfault.user user) hfound, hadmin⟩)

end Reads

/-! ## A resolution, call by call -/

/-- The decision that an answer leads to, if it settles the matter. -/
def verdict? : Exchange → Option Decision
  | ⟨.query (.userGrant ..), .ok (some permission)⟩ => some (.directGrant permission.id)
  | ⟨.query (.groupGrant ..), .ok (some permission)⟩ => ofGroup? permission
  | ⟨.query (.user _), .ok (some user)⟩ =>
    some (if user.isAdmin then .adminRole else .denied .noGrant)
  | ⟨.query (.user _), .ok none⟩ => some (.denied .unknownUser)
  | ⟨.query (.user _), .error _⟩ => some (.denied .lookupFailed)
  | _ => none

section Course

variable (r : Reads) (user : UserId) (cluster : ClusterId)

theorem verdict?_userGrant :
    verdict? ⟨.query (.userGrant user cluster), r.userGrant user cluster⟩ =
      r.direct? user cluster := by
  unfold Reads.direct?
  rcases r.userGrant user cluster with e | _ | permission <;> rfl

theorem verdict?_groupsOf :
    verdict? ⟨.query (.groupsOf user), r.groupsOf user⟩ = none := by
  rcases r.groupsOf user with e | groups <;> rfl

theorem verdict?_groupGrant {groups : List GroupId} (h : r.groupsOf user = .ok groups)
    (hne : groups ≠ []) :
    verdict? ⟨.query (.groupGrant groups cluster), r.groupGrant groups cluster⟩ =
      r.viaGroup? user cluster := by
  unfold Reads.viaGroup?
  rw [h]
  cases groups with
  | nil => exact absurd rfl hne
  | cons group groups =>
    dsimp only
    rcases r.groupGrant (group :: groups) cluster with e | _ | permission <;> rfl

theorem verdict?_user :
    verdict? ⟨.query (.user user), r.user user⟩ = some (r.byRole user) := by
  unfold Reads.byRole
  rcases r.user user with e | _ | found <;> rfl

/-- The four ways a resolution can go: what is asked, and what is decided. -/
inductive Course : List Exchange → Decision → Prop where
  | direct {d : Decision} (hdirect : r.direct? user cluster = some d) :
    Course [⟨.query (.userGrant user cluster), r.userGrant user cluster⟩] d
  | viaGroup {groups : List GroupId} {d : Decision} (hdirect : r.direct? user cluster = none)
    (hgroups : r.groupsOf user = .ok groups) (hne : groups ≠ [])
    (hgroup : r.viaGroup? user cluster = some d) :
    Course [⟨.query (.userGrant user cluster), r.userGrant user cluster⟩,
      ⟨.query (.groupsOf user), r.groupsOf user⟩,
      ⟨.query (.groupGrant groups cluster), r.groupGrant groups cluster⟩] d
  | byRole {groups : List GroupId} (hdirect : r.direct? user cluster = none)
    (hgroups : r.groupsOf user = .ok groups) (hne : groups ≠ [])
    (hgroup : r.viaGroup? user cluster = none) :
    Course [⟨.query (.userGrant user cluster), r.userGrant user cluster⟩,
      ⟨.query (.groupsOf user), r.groupsOf user⟩,
      ⟨.query (.groupGrant groups cluster), r.groupGrant groups cluster⟩,
      ⟨.query (.user user), r.user user⟩] (r.byRole user)
  | ungrouped (hdirect : r.direct? user cluster = none)
    (hgroups : ∀ groups, r.groupsOf user = .ok groups → groups = []) :
    Course [⟨.query (.userGrant user cluster), r.userGrant user cluster⟩,
      ⟨.query (.groupsOf user), r.groupsOf user⟩,
      ⟨.query (.user user), r.user user⟩] (r.byRole user)

theorem course : Course r user cluster (r.exchanges user cluster) (r.decision user cluster) := by
  unfold Reads.exchanges Reads.decision Reads.groupExchanges
  cases hdirect : r.direct? user cluster with
  | some d => exact .direct hdirect
  | none =>
    have hlonely (h : ∀ groups, r.groupsOf user = .ok groups → groups = []) :
        r.viaGroup? user cluster = none := by
      unfold Reads.viaGroup?
      split
      · next heq => cases h _ heq
      · rfl
    rcases hgroups : r.groupsOf user with e | _ | ⟨group, groups⟩
    · have hnil : ∀ groups, r.groupsOf user = .ok groups → groups = [] := by simp [hgroups]
      have hcourse := Course.ungrouped hdirect hnil
      rw [hgroups] at hcourse
      rw [hlonely hnil]
      exact hcourse
    · have hnil : ∀ groups, r.groupsOf user = .ok groups → groups = [] := by simp [hgroups]
      have hcourse := Course.ungrouped hdirect hnil
      rw [hgroups] at hcourse
      rw [hlonely hnil]
      exact hcourse
    · cases hgroup : r.viaGroup? user cluster with
      | some d =>
        have hcourse := Course.viaGroup hdirect hgroups (List.cons_ne_nil _ _) hgroup
        rw [hgroups] at hcourse
        exact hcourse
      | none =>
        have hcourse := Course.byRole hdirect hgroups (List.cons_ne_nil _ _) hgroup
        rw [hgroups] at hcourse
        exact hcourse

namespace Course

variable {r user cluster} {exchanges : List Exchange} {d : Decision}
  (h : Course r user cluster exchanges d)

include h in
theorem answers : ∀ x ∈ exchanges, ∃ q, x = ⟨.query q, r.answer q⟩ := by
  intro x hx
  cases h with
  | direct _ =>
    obtain rfl := List.mem_singleton.mp hx
    exact ⟨_, rfl⟩
  | viaGroup _ _ _ _ =>
    rcases (by simpa using hx) with rfl | rfl | rfl <;> exact ⟨_, rfl⟩
  | byRole _ _ _ _ =>
    rcases (by simpa using hx) with rfl | rfl | rfl | rfl <;> exact ⟨_, rfl⟩
  | ungrouped _ _ =>
    rcases (by simpa using hx) with rfl | rfl | rfl <;> exact ⟨_, rfl⟩

include h in
theorem order : ∃ groups, (exchanges.map Exchange.call).Sublist
    [.query (.userGrant user cluster), .query (.groupsOf user),
      .query (.groupGrant groups cluster), .query (.user user)] := by
  cases h with
  | direct _ => exact ⟨[], by simp⟩
  | @viaGroup groups => exact ⟨groups, by simp⟩
  | byRole _ _ _ _ => exact ⟨_, List.Sublist.refl _⟩
  | ungrouped _ _ => exact ⟨[], by simp⟩

include h in
theorem asks_userGrant : .query (.userGrant user cluster) ∈ exchanges.map Exchange.call := by
  cases h <;> exact List.mem_cons_self

include h in
theorem asks_groupsOf :
    .query (.groupsOf user) ∈ exchanges.map Exchange.call ↔ r.direct? user cluster = none := by
  cases h <;> simp [*]

include h in
theorem asks_groupGrant (asked : List GroupId) :
    .query (.groupGrant asked cluster) ∈ exchanges.map Exchange.call ↔
      r.direct? user cluster = none ∧ r.groupsOf user = .ok asked ∧ asked ≠ [] := by
  cases h with
  | direct hdirect => simp [hdirect]
  | viaGroup hdirect hgroups hne _ | byRole hdirect hgroups hne _ =>
    simp only [List.map_cons, List.map_nil, List.mem_cons, Call.query.injEq, reduceCtorEq,
      Query.groupGrant.injEq, hdirect, hgroups, Except.ok.injEq, List.not_mem_nil, or_false,
      false_or, and_true, true_and]
    constructor
    · rintro rfl
      exact ⟨rfl, hne⟩
    · exact fun h => h.1.symm
  | ungrouped hdirect hgroups =>
    constructor
    · intro h
      simp at h
    · rintro ⟨-, h, hne⟩
      exact absurd (hgroups _ h) hne

include h in
theorem asks_user :
    .query (.user user) ∈ exchanges.map Exchange.call ↔
      ∀ x ∈ exchanges, x.call ≠ .query (.user user) → verdict? x = none := by
  cases h with
  | direct hdirect => simp [verdict?_userGrant, hdirect]
  | viaGroup hdirect hgroups hne hgroup =>
    simp [verdict?_userGrant, verdict?_groupsOf, verdict?_groupGrant r user cluster hgroups hne,
      hdirect, hgroup]
  | byRole hdirect hgroups hne hgroup =>
    simp [verdict?_userGrant, verdict?_groupsOf, verdict?_groupGrant r user cluster hgroups hne,
      hdirect, hgroup]
  | ungrouped hdirect _ => simp [verdict?_userGrant, verdict?_groupsOf, hdirect]

include h in
theorem decides : exchanges.findSome? verdict? = some d := by
  cases h with
  | direct hdirect => simp [verdict?_userGrant, hdirect]
  | viaGroup hdirect hgroups hne hgroup =>
    simp [verdict?_userGrant, verdict?_groupsOf, verdict?_groupGrant r user cluster hgroups hne,
      hdirect, hgroup]
  | byRole hdirect hgroups hne hgroup =>
    simp [verdict?_userGrant, verdict?_groupsOf, verdict?_groupGrant r user cluster hgroups hne,
      verdict?_user, hdirect, hgroup]
  | ungrouped hdirect _ =>
    simp [verdict?_userGrant, verdict?_groupsOf, verdict?_user, hdirect]

include h in
theorem fails :
    d = .denied .lookupFailed ↔
      .query (.user user) ∈ exchanges.map Exchange.call ∧ ∃ e, r.user user = .error e := by
  cases h with
  | direct hdirect =>
    obtain ⟨p, -, rfl⟩ := (r.direct?_eq_some_iff user cluster).mp hdirect
    simp
  | viaGroup _ _ _ hgroup =>
    obtain ⟨groups, p, group, -, -, -, -, rfl⟩ := (r.viaGroup?_eq_some_iff user cluster).mp hgroup
    simp
  | byRole _ _ _ _ => simp [r.byRole_eq_lookupFailed_iff]
  | ungrouped _ _ => simp [r.byRole_eq_lookupFailed_iff]

end Course

end Course

/-- What a resolution that ends with `o` owes to its answers: it asks no more than it has to, takes
the first answer that settles the matter, and passes over no fault in silence. -/
structure Absorbs (r : Reads) (user : UserId) (cluster : ClusterId) (o : Outcome Unit Decision) :
    Prop where
  /-- Every answer is the store's. -/
  answers : ∀ x ∈ o.exchanges, ∃ q, x = ⟨.query q, r.answer q⟩
  /-- The calls are made in this order, each of them at most once, and no others are. -/
  order : ∃ groups, o.calls.Sublist
    [.query (.userGrant user cluster), .query (.groupsOf user),
      .query (.groupGrant groups cluster), .query (.user user)]
  asks_userGrant : .query (.userGrant user cluster) ∈ o.calls
  asks_groupsOf : .query (.groupsOf user) ∈ o.calls ↔
    ∀ p, r.userGrant user cluster ≠ .ok (some p)
  asks_groupGrant : ∀ groups, .query (.groupGrant groups cluster) ∈ o.calls ↔
    .query (.groupsOf user) ∈ o.calls ∧ r.groupsOf user = .ok groups ∧ groups ≠ []
  asks_user : .query (.user user) ∈ o.calls ↔
    ∀ x ∈ o.exchanges, x.call ≠ .query (.user user) → verdict? x = none
  /-- The first answer that settles the matter decides. -/
  decides : o.exchanges.findSome? verdict? = some o.value
  fails : o.value = .denied .lookupFailed ↔
    .query (.user user) ∈ o.calls ∧ ∃ e, r.user user = .error e
  /-- There is one warning for each answer that calls for one, in the order of the calls. -/
  warns : o.events = o.exchanges.filterMap (warning? user cluster) ++
    [.accessResolved user cluster o.value]

/-- **Faults are absorbed exactly, and never widen access.**  Whatever the store answers, it is
asked and believed in the fixed order, and warned of exactly where it failed; and a store that
grants access with some of its answers lost grants it with all of them. -/
theorem resolve_absorbs_faults (r : Reads) (user : UserId) (cluster : ClusterId) :
    Absorbs r user cluster (Conversation.run r.handler (resolve user cluster) ()) ∧
      ∀ faulty : Reads, faulty.FaultOf r →
        (Conversation.run faulty.handler (resolve user cluster) ()).value.isGranted = true →
        (Conversation.run r.handler (resolve user cluster) ()).value.isGranted = true := by
  have hcourse := course r user cluster
  rw [run_resolve user cluster r.answeredBy_handler]
  refine ⟨⟨hcourse.answers, hcourse.order, hcourse.asks_userGrant, ?_, ?_, hcourse.asks_user,
    hcourse.decides, hcourse.fails, rfl⟩, fun faulty hfault h => ?_⟩
  · exact hcourse.asks_groupsOf.trans (r.direct?_eq_none_iff user cluster)
  · intro groups
    refine (hcourse.asks_groupGrant groups).trans ?_
    rw [← hcourse.asks_groupsOf]
    rfl
  · rw [run_resolve user cluster faulty.answeredBy_handler] at h
    exact Reads.isGranted_of_faultOf user cluster hfault h

/-- A store that knows one group of everybody's, which has access everywhere. -/
def Reads.shared : Reads where
  userGrant _ _ := .ok none
  groupsOf _ := .ok [⟨1⟩]
  groupGrant _ cluster := .ok (some { id := ⟨7⟩, cluster, subject := .group ⟨1⟩ })
  user _ := .ok none

/-- Access through a group with the first and the last question unanswered is access with both
of them answered. -/
theorem resolve_absorbs_faults_shared :
    let faulty : Reads := { Reads.shared with
      userGrant := fun _ _ => .error .poisoned
      user := fun _ => .error .poisoned }
    faulty.FaultOf .shared ∧
      (Conversation.run faulty.handler (resolve ⟨3⟩ ⟨5⟩) ()).value = .groupGrant ⟨1⟩ ⟨7⟩ ∧
      (Conversation.run Reads.shared.handler (resolve ⟨3⟩ ⟨5⟩) ()).value.isGranted = true := by
  intro faulty
  have hfault : faulty.FaultOf .shared :=
    ⟨fun _ _ => .inr ⟨_, rfl⟩, fun _ => .inl rfl, fun _ _ => .inl rfl, fun _ => .inr ⟨_, rfl⟩⟩
  exact ⟨hfault, rfl, (resolve_absorbs_faults .shared ⟨3⟩ ⟨5⟩).2 faulty hfault rfl⟩

end ClusterAccess.Access
