import ClusterAccess.Access.Resolution
import ClusterAccess.Proofs.Store.Conversation

/-!
# Resolution over any store

A decision rests on four questions to the store.  `Reads` is any store as far as these go: four
functions whose answers are anything at all, errors and permissions of the wrong kind included.
`run_resolve` says what a resolution asks such a store, what it decides and what it notes.

The warnings are a function of the exchanges (`warning?`).  Access is granted exactly if one of
three answers speaks for it (`Reads.isGranted_decision`); the order of the questions decides only
which of them is reported.
-/

namespace ClusterAccess.Access

variable {σ : Type}

/-! ## Stores that answer the four questions -/

/-- What a store answers to the four questions on which decisions rest. -/
structure Reads where
  userGrant : UserId → ClusterId → Except StoreError (Option Permission)
  groupsOf : UserId → Except StoreError (List GroupId)
  groupGrant : List GroupId → ClusterId → Except StoreError (Option Permission)
  user : UserId → Except StoreError (Option User)

/-- A handler that gives these answers in one of its states, and stays in it. -/
structure Reads.AnsweredBy (r : Reads) (handler : Handler σ) (s : σ) : Prop where
  userGrant : ∀ user cluster,
    handler (.query (.userGrant user cluster)) s = (r.userGrant user cluster, s)
  groupsOf : ∀ user, handler (.query (.groupsOf user)) s = (r.groupsOf user, s)
  groupGrant : ∀ groups cluster,
    handler (.query (.groupGrant groups cluster)) s = (r.groupGrant groups cluster, s)
  user : ∀ user, handler (.query (.user user)) s = (r.user user, s)

namespace Reads

/-- The answer to any query.  Queries that decide nothing are refused. -/
def answer (r : Reads) : (q : Query) → Except StoreError q.hook.Answer
  | .userGrant user cluster => r.userGrant user cluster
  | .groupsOf user => r.groupsOf user
  | .groupGrant groups cluster => r.groupGrant groups cluster
  | .user user => r.user user
  | _ => .error (.internal "not a question of access")

/-- The store that gives these answers and refuses every other call. -/
def handler (r : Reads) : Handler Unit
  | .query q, s => (r.answer q, s)
  | _, s => (.error (.internal "not a question of access"), s)

theorem answeredBy_handler (r : Reads) : r.AnsweredBy r.handler () :=
  ⟨fun _ _ => rfl, fun _ => rfl, fun _ _ => rfl, fun _ => rfl⟩

/-! ## What is decided -/

/-- The decision of the permission found for the user. -/
def direct? (r : Reads) (user : UserId) (cluster : ClusterId) : Option Decision :=
  match r.userGrant user cluster with
  | .ok (some permission) => some (.directGrant permission.id)
  | _ => none

end Reads

/-- The decision of a permission found for groups, unless it names a user. -/
def ofGroup? (permission : Permission) : Option Decision :=
  match permission.subject with
  | .group group => some (.groupGrant group permission.id)
  | .user _ => none

theorem isGranted_of_ofGroup? {permission : Permission} {d : Decision}
    (h : ofGroup? permission = some d) : d.isGranted = true := by
  unfold ofGroup? at h
  cases hsubject : permission.subject with
  | group group =>
    rw [hsubject] at h
    cases h
    rfl
  | user user =>
    rw [hsubject] at h
    cases h

namespace Reads

/-- The decision of the permission found for the user's groups. -/
def viaGroup? (r : Reads) (user : UserId) (cluster : ClusterId) : Option Decision :=
  match r.groupsOf user with
  | .ok (group :: groups) =>
    match r.groupGrant (group :: groups) cluster with
    | .ok (some permission) => ofGroup? permission
    | _ => none
  | _ => none

/-- The decision that the user's record leads to. -/
def byRole (r : Reads) (user : UserId) : Decision :=
  match r.user user with
  | .ok (some found) => if found.isAdmin then .adminRole else .denied .noGrant
  | .ok none => .denied .unknownUser
  | .error _ => .denied .lookupFailed

def decision (r : Reads) (user : UserId) (cluster : ClusterId) : Decision :=
  match r.direct? user cluster with
  | some decision => decision
  | none =>
    match r.viaGroup? user cluster with
    | some decision => decision
    | none => r.byRole user

/-! ## What is asked -/

/-- The exchanges about the user's groups. -/
def groupExchanges (r : Reads) (user : UserId) (cluster : ClusterId) : List Exchange :=
  ⟨.query (.groupsOf user), r.groupsOf user⟩ ::
    match r.groupsOf user with
    | .ok (group :: groups) =>
      [⟨.query (.groupGrant (group :: groups) cluster), r.groupGrant (group :: groups) cluster⟩]
    | _ => []

def exchanges (r : Reads) (user : UserId) (cluster : ClusterId) : List Exchange :=
  [⟨.query (.userGrant user cluster), r.userGrant user cluster⟩] ++
    match r.direct? user cluster with
    | some _ => []
    | none =>
      r.groupExchanges user cluster ++
        match r.viaGroup? user cluster with
        | some _ => []
        | none => [⟨.query (.user user), r.user user⟩]

end Reads

/-- The warning that an answer calls for: an error does, and so does a user's permission where a
group's was asked for. -/
def warning? (user : UserId) (cluster : ClusterId) : Exchange → Option Event
  | ⟨.query (.userGrant ..), .error e⟩ => some (.failureAbsorbed .directGrant user cluster e)
  | ⟨.query (.groupsOf _), .error e⟩ => some (.failureAbsorbed .groupMembership user cluster e)
  | ⟨.query (.groupGrant ..), .error e⟩ => some (.failureAbsorbed .groupGrant user cluster e)
  | ⟨.query (.groupGrant ..), .ok (some permission)⟩ =>
    match permission.subject with
    | .group _ => none
    | .user _ => some (.failureAbsorbed .groupGrant user cluster (.wrongSubject permission.id))
  | ⟨.query (.user _), .error e⟩ => some (.failureAbsorbed .roleDefault user cluster e)
  | _ => none

/-! ## The outcome of a resolution -/

section Run

variable {α β : Type} {r : Reads} {handler : Handler σ} {s : σ} (user : UserId)
  (cluster : ClusterId)

/-- The outcome that consists of a value, some exchanges and the warnings that these call for. -/
def warned (s : σ) (value : α) (exchanges : List Exchange) : Outcome σ α :=
  { value, state := s, exchanges, events := exchanges.filterMap (warning? user cluster) }

theorem run_pure_warned (value : α) :
    Conversation.run handler (pure value) s = warned user cluster s value [] := rfl

theorem run_bind_warned {x : Conversation α} {f : α → Conversation β} {a : α} {b : β}
    {xs ys : List Exchange} (hx : Conversation.run handler x s = warned user cluster s a xs)
    (hf : Conversation.run handler (f a) s = warned user cluster s b ys) :
    Conversation.run handler (x >>= f) s = warned user cluster s b (xs ++ ys) := by
  rw [Conversation.run_bind, hx]
  simp only [warned] at hf ⊢
  rw [hf, List.filterMap_append]
  rfl

variable (h : r.AnsweredBy handler s)

include h in
theorem run_directGrant :
    Conversation.run handler (directGrant user cluster) s =
      warned user cluster s (r.direct? user cluster)
        [⟨.query (.userGrant user cluster), r.userGrant user cluster⟩] := by
  rw [directGrant, Dialogue.request, Dialogue.ask_bind, Conversation.run, h.userGrant]
  unfold Reads.direct?
  rcases r.userGrant user cluster with e | _ | permission <;> rfl

include h in
theorem run_groupGrant :
    Conversation.run handler (groupGrant user cluster) s =
      warned user cluster s (r.viaGroup? user cluster) (r.groupExchanges user cluster) := by
  rw [groupGrant, Dialogue.request, Dialogue.ask_bind, Conversation.run, h.groupsOf]
  unfold Reads.viaGroup? Reads.groupExchanges
  rcases r.groupsOf user with e | _ | ⟨group, groups⟩
  · rfl
  · rfl
  · dsimp only [absorb, Dialogue.pure_eq, Dialogue.done_bind]
    rw [Dialogue.request, Dialogue.ask_bind, Conversation.run, h.groupGrant]
    rcases r.groupGrant (group :: groups) cluster with e | _ | ⟨id, cluster, _ | _⟩ <;> rfl

include h in
theorem run_roleDefault :
    Conversation.run handler (roleDefault user cluster) s =
      warned user cluster s (r.byRole user) [⟨.query (.user user), r.user user⟩] := by
  rw [roleDefault, Dialogue.request, Dialogue.ask_bind, Conversation.run, h.user]
  unfold Reads.byRole
  rcases r.user user with e | _ | found <;> rfl

include h in
theorem run_decision :
    Conversation.run handler (decision user cluster) s =
      warned user cluster s (r.decision user cluster) (r.exchanges user cluster) := by
  unfold decision Reads.decision Reads.exchanges
  refine run_bind_warned user cluster (run_directGrant user cluster h) ?_
  cases r.direct? user cluster with
  | some decision => exact run_pure_warned user cluster decision
  | none =>
    refine run_bind_warned user cluster (run_groupGrant user cluster h) ?_
    cases r.viaGroup? user cluster with
    | some decision => exact run_pure_warned user cluster decision
    | none => exact run_roleDefault user cluster h

include h in
/-- **What a resolution does**: it asks, decides and warns as the answers lead it, and notes its
decision. -/
theorem run_resolve :
    Conversation.run handler (resolve user cluster) s =
      { value := r.decision user cluster
        state := s
        exchanges := r.exchanges user cluster
        events := (r.exchanges user cluster).filterMap (warning? user cluster) ++
          [.accessResolved user cluster (r.decision user cluster)] } := by
  have hlog (d : Decision) :
      Conversation.run handler
        (Dialogue.log (.accessResolved user cluster d) >>= fun _ => pure d) s =
        { value := d, state := s, events := [.accessResolved user cluster d] } := rfl
  rw [resolve, Conversation.run_bind, run_decision user cluster h]
  simp only [Outcome.andThen, warned, hlog, List.append_nil]

end Run

/-! ## What the answers say about access -/

namespace Reads

variable (r : Reads) (user : UserId) (cluster : ClusterId)

theorem direct?_eq_some_iff {d : Decision} :
    r.direct? user cluster = some d ↔
      ∃ p, r.userGrant user cluster = .ok (some p) ∧ d = .directGrant p.id := by
  unfold direct?
  rcases r.userGrant user cluster with e | _ | permission
  · simp
  · simp
  · simp [eq_comm]

theorem direct?_eq_none_iff :
    r.direct? user cluster = none ↔ ∀ p, r.userGrant user cluster ≠ .ok (some p) := by
  unfold direct?
  rcases r.userGrant user cluster with e | _ | permission <;> simp

theorem viaGroup?_eq_some_iff {d : Decision} :
    r.viaGroup? user cluster = some d ↔ ∃ groups p group, r.groupsOf user = .ok groups ∧
      groups ≠ [] ∧ r.groupGrant groups cluster = .ok (some p) ∧ p.subject = .group group ∧
      d = .groupGrant group p.id := by
  unfold viaGroup?
  rcases r.groupsOf user with e | _ | ⟨group, groups⟩
  · simp
  · simp
  · rcases h : r.groupGrant (group :: groups) cluster with e | _ | ⟨id, c, user | group'⟩
    · simp [h]
    · simp [h]
    · simp [h, ofGroup?]
    · simp [h, ofGroup?, eq_comm]

theorem isGranted_byRole :
    (r.byRole user).isGranted = true ↔
      ∃ found, r.user user = .ok (some found) ∧ found.isAdmin = true := by
  unfold byRole
  rcases r.user user with e | _ | found
  · simp [Decision.isGranted]
  · simp [Decision.isGranted]
  · cases h : found.isAdmin <;> simp [h, Decision.isGranted]

theorem byRole_eq_lookupFailed_iff :
    r.byRole user = .denied .lookupFailed ↔ ∃ e, r.user user = .error e := by
  unfold byRole
  rcases r.user user with e | _ | found
  · simp
  · simp
  · cases h : found.isAdmin <;> simp [h]

/-- A decision grants access exactly if one of three answers speaks for it: the user's permission,
a group's permission, or the role.  Which of them is looked at first makes no difference. -/
theorem isGranted_decision :
    (r.decision user cluster).isGranted = true ↔
      (∃ p, r.userGrant user cluster = .ok (some p)) ∨
      (∃ groups p group, r.groupsOf user = .ok groups ∧ groups ≠ [] ∧
        r.groupGrant groups cluster = .ok (some p) ∧ p.subject = .group group) ∨
      ∃ found, r.user user = .ok (some found) ∧ found.isAdmin = true := by
  rw [← isGranted_byRole]
  unfold decision
  cases hdirect : r.direct? user cluster with
  | some d =>
    obtain ⟨p, hp, rfl⟩ := (r.direct?_eq_some_iff user cluster).mp hdirect
    exact iff_of_true rfl (.inl ⟨p, hp⟩)
  | none =>
    rw [direct?_eq_none_iff] at hdirect
    cases hgroup : r.viaGroup? user cluster with
    | some d =>
      obtain ⟨groups, p, group, hgroups, hne, hp, hsubject, rfl⟩ :=
        (r.viaGroup?_eq_some_iff user cluster).mp hgroup
      exact iff_of_true rfl (.inr (.inl ⟨groups, p, group, hgroups, hne, hp, hsubject⟩))
    | none =>
      constructor
      · intro h
        exact .inr (.inr h)
      · rintro (⟨p, hp⟩ | ⟨groups, p, group, hgroups, hne, hp, hsubject⟩ | h)
        · exact absurd hp (hdirect p)
        · have hsome : r.viaGroup? user cluster = some (.groupGrant group p.id) :=
            (r.viaGroup?_eq_some_iff user cluster).mpr
              ⟨groups, p, group, hgroups, hne, hp, hsubject, rfl⟩
          rw [hsome] at hgroup
          cases hgroup
        · exact h

end Reads

end ClusterAccess.Access
