import ClusterAccess.Proofs.Service.Names
import ClusterAccess.Proofs.Service.Numbering

/-!
# Groups at the time they are made

Whoever makes a group in a transaction is answered a group without members.  The answer is put
together by hand; who is in the group is read from the memberships, and a membership is inserted
without a look at the groups.  The next id can be told beforehand.  So a transaction can put a user
into a group that is still to be made, and who makes it then is answered one thing and reads another
(`Store.exists_member_before_group`).

The members of a group that is made are known from the actions alone: the users who were put in
under its id, in this transaction or in one that was committed, and not taken out since.  The id was
never that of a group before.  So the answer is right as long as users are put only into groups that
have been made.

Memberships are not in the journal of what was made, and are read off the actions themselves, along
all deeds and to each point inside of them (`Store.live_enrols`).
-/

namespace ClusterAccess

/-! ## Actions that took effect -/

/-- The actions of all transactions that were committed. -/
def everSettled (records : List Record) : List Exchange :=
  records.flatMap fun r => (Ledger.ofExchanges r.exchanges).settled

theorem made_everSettled_sublist (records : List Record) :
    (made (everSettled records)).Sublist (everKept records) := by
  induction records with
  | nil => exact .refl _
  | cons r records ih =>
    have hkept : (made (Ledger.ofExchanges r.exchanges).settled).Sublist r.kept :=
      List.sublist_append_right _ _
    have hall := hkept.append ih
    rwa [← made_append] at hall

theorem made_everSettled_append_sublist (records : List Record) (later : List Exchange) :
    (made (everSettled records ++ later)).Sublist (everKept records ++ made later) := by
  rw [made_append]
  exact (made_everSettled_sublist records).append_right _

/-! ## Who was put into groups -/

/-- Whether a membership is there after an exchange, if the exchange is about it. -/
def Exchange.membership? (m : Membership) : Exchange → Option Bool
  | ⟨.action (.insertMembership m'), .ok _⟩ => if m' = m then some true else none
  | ⟨.action (.deleteMembership m'), .ok _⟩ => if m' = m then some false else none
  | ⟨.action (.deleteMemberships group), .ok _⟩ => if group = m.group then some false else none
  | _ => none

/-- Whether a user was put into a group, and not taken out since. -/
def enrolled (actions : List Exchange) (m : Membership) : Bool :=
  decide ((actions.filterMap (Exchange.membership? m)).getLast? = some true)

theorem enrolled_concat (actions : List Exchange) (e : Exchange) (m : Membership) :
    enrolled (actions ++ [e]) m =
      match e.membership? m with
      | some isMember => isMember
      | none => enrolled actions m :=
  decide_getLast?_concat (Exchange.membership? m) actions e

/-- What an action makes of a membership is told by the exchange. -/
theorem Workspace.mem_memberships_action (w : Workspace) (a : Action) {m : Membership} :
    m ∈ (Workspace.handler (.action a) w).2.staged.memberships.rows ↔
      match Exchange.membership? m ⟨.action a, (Workspace.handler (.action a) w).1⟩ with
      | some isMember => isMember = true
      | none => m ∈ w.staged.memberships.rows := by
  cases a with
  | insertMembership m' =>
    refine Table.mem_insert_iff.trans ?_
    by_cases hm : m' = m
    · simp [Workspace.handler, Directory.perform, Exchange.membership?, hm]
    · simp [Workspace.handler, Directory.perform, Exchange.membership?, hm, Ne.symm hm]
  | deleteMembership m' =>
    refine Table.mem_erase_iff.trans ?_
    by_cases hm : m' = m
    · simp [Workspace.handler, Directory.perform, Exchange.membership?, hm]
    · simp [Workspace.handler, Directory.perform, Exchange.membership?, hm, Ne.symm hm]
  | deleteMemberships group =>
    refine Table.mem_filter_iff.trans ?_
    by_cases hgroup : group = m.group
    · simp [Workspace.handler, Directory.perform, Exchange.membership?, hgroup]
    · simp [Workspace.handler, Directory.perform, Exchange.membership?, hgroup, Ne.symm hgroup]
  | insertGroup name description =>
    simp only [Workspace.handler, Directory.perform, Directory.insertGroup]
    cases w.staged.nameTaken name <;> exact Iff.rfl
  | insertGrant subject cluster =>
    simp only [Workspace.handler, Directory.perform, Directory.insertGrant]
    cases w.staged.subjectExists subject <;> exact Iff.rfl
  | _ => exact Iff.rfl

/-- The memberships are those of users who were put in and not taken out since. -/
def Directory.Enrols (actions : List Exchange) (d : Directory) : Prop :=
  ∀ m, m ∈ d.memberships.rows ↔ enrolled actions m = true

namespace Directory.Enrols

theorem start : ({} : Directory).Enrols [] := fun _ => ⟨nofun, nofun⟩

theorem keptUp (base : List Exchange) : KeptUp fun actions d => d.Enrols (base ++ actions) := by
  intro actions w a h m
  rw [w.mem_memberships_action a, ← List.append_assoc, enrolled_concat]
  cases Exchange.membership? m ⟨.action a, (Workspace.handler (.action a) w).1⟩ with
  | none => exact h m
  | some isMember => exact Iff.rfl

variable {base : List Exchange} {d : Directory} (h : d.Enrols base)

include h

theorem append_nil : d.Enrols (base ++ []) := (List.append_nil base).symm ▸ h

/-- Users are inserted and deleted without a change of memberships. -/
theorem softDelete (id : UserId) : (d.softDelete id).2.Enrols base := by
  unfold Directory.softDelete
  split <;> exact h

theorem undertake (deed : Deed) :
    ∃ d', ((Store.holding d).undertake deed).state = .holding d' ∧
      d'.Enrols (base ++
        (Ledger.ofExchanges ((Store.holding d).undertake deed).exchanges).settled) := by
  cases hconversation : deed.conversation? with
  | some x => exact Store.undertake_relates (keptUp base) h.append_nil hconversation
  | none =>
    cases deed with
    | step s =>
      cases s with
      | insertUser new => exact ⟨_, rfl, h.append_nil⟩
      | softDelete id => exact ⟨_, rfl, (h.softDelete id).append_nil⟩
      | command c => cases hconversation
    | transact ofStore body => cases hconversation

theorem live (deeds : List Deed) :
    ∃ d', ((Store.holding d).live deeds).2 = .holding d' ∧
      d'.Enrols (base ++ everSettled ((Store.holding d).live deeds).1) :=
  Store.live_relates Enrols (fun _ _ deed h => undertake h deed) h deeds

end Directory.Enrols

/-- **At each point of a deed** the memberships of the directory are those that were settled, and
those of the copy on which the transaction acts are what pending actions make of them. -/
theorem Store.live_enrols (deeds : List Deed) {α : Type} {x rest : Conversation α}
    {passed : List Exchange} {w : Workspace}
    (arrives : x.Arrives Workspace.handler (.ofStore (({} : Store).live deeds).2) passed rest w) :
    w.Relates (fun actions d => d.Enrols (everSettled (({} : Store).live deeds).1 ++ actions))
      (.ofExchanges passed) := by
  obtain ⟨d, hstore, henrols⟩ := Directory.Enrols.start.live deeds
  have hlived : (({} : Store).live deeds).2 = .holding d := hstore
  rw [hlived] at arrives
  exact Workspace.relates_of_arrives (Directory.Enrols.keptUp _) henrols.append_nil arrives

/-! ## Groups that users were put into -/

/-- The group into which an exchange has put a user. -/
def Exchange.joined? : Exchange → Option GroupId
  | ⟨.action (.insertMembership m), .ok _⟩ => some m.group
  | _ => none

/-- Every group that a user was put into is one that was made. -/
def Orderly (actions : List Exchange) : Prop :=
  ∀ e ∈ actions, ∀ group ∈ e.joined?, ∃ record ∈ (made actions).createdGroups, record.id = group

instance (actions : List Exchange) : Decidable (Orderly actions) :=
  inferInstanceAs (Decidable (∀ e ∈ actions, ∀ group ∈ e.joined?,
    ∃ record ∈ (made actions).createdGroups, record.id = group))

theorem Exchange.joined?_of_membership? {e : Exchange} {m : Membership}
    (h : e.membership? m = some true) : e.joined? = some m.group := by
  unfold membership? at h
  split at h
  · rename_i m' joined
    by_cases hm : m' = m
    · rw [joined?, hm]
    · rw [if_neg hm] at h
      cases h
  · split at h <;> cases h
  · split at h <;> cases h
  · cases h

theorem exists_joined_of_enrolled {actions : List Exchange} {m : Membership}
    (h : enrolled actions m = true) : ∃ e ∈ actions, e.joined? = some m.group := by
  have hlast := List.mem_of_getLast? (of_decide_eq_true h)
  obtain ⟨e, he, hmembership⟩ := List.mem_filterMap.mp hlast
  exact ⟨e, he, Exchange.joined?_of_membership? hmembership⟩

/-- Nobody is in a group that was never made, as long as things go in order. -/
theorem not_enrolled_of_orderly {actions all : List Exchange} (orderly : Orderly all)
    (hsub : actions ⊆ all) {group : GroupId}
    (unmade : ∀ record ∈ (made all).createdGroups, record.id ≠ group) (user : UserId) :
    ¬ enrolled actions { group, user } = true := by
  intro henrolled
  obtain ⟨e, he, hjoined⟩ := exists_joined_of_enrolled henrolled
  obtain ⟨record, hrecord, hid⟩ := orderly e (hsub he) group hjoined
  exact unmade record hrecord hid

/-! ## Founding -/

theorem Gapless.ne_next {last id : UInt64} {ids : List UInt64} (h : Gapless last ids)
    (hid : id ∈ ids) : id ≠ last + 1 := by
  have hmem : id.toNat ∈ List.range' 1 last.toNat := by
    rw [← h]
    exact List.mem_map_of_mem hid
  -- A counter that wraps around comes to zero, which is no id.
  have hlast := last.toNat_lt
  rw [List.mem_range'_1] at hmem
  rintro rfl
  rw [UInt64.toNat_add, UInt64.toNat_one] at hmem
  omega

/-- The next id is not that of any group that was made and kept, or is pending. -/
theorem Store.id_ne_next_of_made (deeds : List Deed) {α : Type} {x rest : Conversation α}
    {passed : List Exchange} {w : Workspace}
    (arrives : x.Arrives Workspace.handler (.ofStore (({} : Store).live deeds).2) passed rest w)
    (few : (everKept (({} : Store).live deeds).1 ++ made ((Ledger.ofExchanges passed).settled ++
      (Ledger.ofExchanges passed).pending)).Bounded) :
    ∀ record ∈ (made (everSettled (({} : Store).live deeds).1 ++
      ((Ledger.ofExchanges passed).settled ++
        (Ledger.ofExchanges passed).pending))).createdGroups,
      record.id ≠ ⟨w.staged.lastGroup + 1⟩ := by
  intro record hrecord hid
  have hnumbered := (live_point deeds arrives).staged.numbered few
  have hkept := ((made_everSettled_append_sublist _ _).filterMap Change.createdGroup?).subset hrecord
  exact hnumbered.groups.ne_next (List.mem_map_of_mem hkept) (congrArg GroupId.value hid)

namespace Directory

variable {d : Directory}

/-- Readers see nobody in a group if and only if all who were put in are deleted or unknown. -/
theorem members_eq_empty_iff {group : GroupId} :
    d.members group = .empty ↔
      ∀ user, { group, user } ∈ d.memberships.rows → d.user? user = none := by
  constructor
  · intro hempty user hrow
    by_contra hlive
    have hmember : user ∈ (d.members group).rows :=
      mem_members_iff.mpr ⟨hrow, Option.isSome_iff_ne_none.mpr hlive⟩
    rw [hempty] at hmember
    cases hmember
  · intro hnone
    refine Table.eq_of_mem_iff fun user => iff_of_false ?_ nofun
    intro hmember
    obtain ⟨hrow, hlive⟩ := mem_members_iff.mp hmember
    rw [hnone user hrow] at hlive
    cases hlive

/-- Who is read in a group that has just been made is who was in it before. -/
theorem group?_withGroup (d : Directory) (name description : String) :
    (d.withGroup name description).group? ⟨d.lastGroup + 1⟩ =
      some ⟨⟨d.lastGroup + 1⟩, name, description, d.members ⟨d.lastGroup + 1⟩⟩ := by
  rw [group?, withGroup, Table.find?_insert, if_pos rfl]
  rfl

end Directory

/-- Whoever makes a group is answered the next id, what was asked for, and no members. -/
theorem Workspace.eq_of_founded {w : Workspace} {name description : String} {group : UserGroup}
    (founded : (Workspace.handler (.action (.insertGroup name description)) w).1 = .ok group) :
    group = ⟨⟨w.staged.lastGroup + 1⟩, name, description, .empty⟩ ∧
      (Workspace.handler (.action (.insertGroup name description)) w).2 =
        { w with staged := w.staged.withGroup name description } := by
  simp only [Workspace.handler, Directory.perform, Directory.insertGroup] at founded ⊢
  cases hfree : w.staged.nameTaken name with
  | true =>
    rw [hfree] at founded
    cases founded
  | false =>
    rw [hfree] at founded
    cases founded
    exact ⟨rfl, rfl⟩

namespace Store

/-- **A group that is made has the members who were put in under its id before.**  Let any deeds be
done to a fresh store, and let a group be made at any point of any conversation with it.  The answer
is a group without members, under the name and the description that were asked for.  What is read of
it then differs from that in the members alone: they are the users that there are among those who
were put in, by actions that were committed or that the transaction did itself, and not taken out
since.  So answer and reading are equal if and only if there is no such user.

Within the ids there are, no group was ever made under that id.  So if users were put only into
groups that were made, answer and reading are equal, and nobody is in the group before it is made,
neither in the transaction nor outside. -/
theorem live_founds_groups (deeds : List Deed) {α : Type} {x rest : Conversation α}
    {passed : List Exchange} {w : Workspace}
    (arrives : x.Arrives Workspace.handler (.ofStore (({} : Store).live deeds).2) passed rest w)
    {name description : String} {group : UserGroup}
    (founded : (Workspace.handler (.action (.insertGroup name description)) w).1 = .ok group) :
    let records := (({} : Store).live deeds).1
    let ledger := Ledger.ofExchanges passed
    let committed := everSettled records ++ ledger.settled
    let staged := everSettled records ++ (ledger.settled ++ ledger.pending)
    let after := (Workspace.handler (.action (.insertGroup name description)) w).2
    let read := (Workspace.handler (.action (.group group.id)) after).1
    (group.name = name ∧ group.description = description ∧ group.memberIds = .empty) ∧
    read = .ok (some { group with memberIds := w.staged.members group.id }) ∧
    (∀ user, group.id ∈ w.store.directory.groupsOf user ↔
      enrolled committed ⟨group.id, user⟩ = true) ∧
    (∀ user, group.id ∈ w.staged.groupsOf user ↔ enrolled staged ⟨group.id, user⟩ = true) ∧
    (read = .ok (some group) ↔
      ∀ user, enrolled staged ⟨group.id, user⟩ = true → w.staged.user? user = none) ∧
    ((everKept records ++ made (ledger.settled ++ ledger.pending)).Bounded →
      (∀ record ∈ (made staged).createdGroups, record.id ≠ group.id) ∧
      (Orderly staged → read = .ok (some group) ∧
        ∀ user, group.id ∉ w.store.directory.groupsOf user ∧
          group.id ∉ w.staged.groupsOf user)) := by
  intro records ledger committed staged after read
  obtain ⟨-, hdirectory, hstaged⟩ := live_enrols deeds arrives
  obtain ⟨rfl, hafter⟩ := Workspace.eq_of_founded founded
  have hread : read = .ok (some ⟨⟨w.staged.lastGroup + 1⟩, name, description,
      w.staged.members ⟨w.staged.lastGroup + 1⟩⟩) := by
    rw [← Directory.group?_withGroup]
    exact congrArg (fun w' => (Workspace.handler (.action (.group _)) w').1) hafter
  have houtside (user : UserId) : (⟨w.staged.lastGroup + 1⟩ : GroupId) ∈
      w.store.directory.groupsOf user ↔ enrolled committed ⟨_, user⟩ = true :=
    Directory.mem_groupsOf_iff.trans (hdirectory _)
  have hinside (user : UserId) : (⟨w.staged.lastGroup + 1⟩ : GroupId) ∈ w.staged.groupsOf user ↔
      enrolled staged ⟨_, user⟩ = true :=
    Directory.mem_groupsOf_iff.trans (hstaged _)
  have hequal : read = .ok (some ⟨⟨w.staged.lastGroup + 1⟩, name, description, .empty⟩) ↔
      ∀ user, enrolled staged ⟨⟨w.staged.lastGroup + 1⟩, user⟩ = true →
        w.staged.user? user = none := by
    rw [hread]
    refine Iff.trans ?_ (Directory.members_eq_empty_iff.trans
      (forall_congr' fun user => imp_congr_left (hstaged _)))
    simp
  refine ⟨⟨rfl, rfl, rfl⟩, hread, houtside, hinside, hequal, fun few => ?_⟩
  have hunmade := id_ne_next_of_made deeds arrives few
  refine ⟨hunmade, fun orderly => ?_⟩
  have hinner := not_enrolled_of_orderly orderly (List.Subset.refl _) hunmade
  have hcommitted : committed ⊆ staged := by
    have hprefix := List.subset_append_left committed ledger.pending
    rwa [List.append_assoc] at hprefix
  have houter := not_enrolled_of_orderly orderly hcommitted hunmade
  refine ⟨hequal.mpr fun user h => absurd h (hinner user), fun user => ?_⟩
  exact ⟨mt (houtside user).mp (houter user), mt (hinside user).mp (hinner user)⟩

/-- Three users are put into the group that comes next: one who stays, one who is deleted and one
who is taken out again before the group is made.  Another store has a group and a member, and a
transaction puts a stranger into that group before it makes a second one. -/
theorem live_founds_groups_early :
    let join (m : Membership) : ExceptT StoreError Transaction Bool :=
      ExceptT.mk (Dialogue.request (Action.insertMembership m))
    let deeds : List Deed :=
      [.step (.insertUser { username := "ada" }), .step (.insertUser { username := "bob" }),
        .transact id (join ⟨⟨1⟩, ⟨1⟩⟩), .transact id (join ⟨⟨1⟩, ⟨2⟩⟩),
        .transact id (join ⟨⟨1⟩, ⟨9⟩⟩), .step (.softDelete ⟨2⟩)]
    let store := (({} : Store).live deeds).2
    let x : Conversation Unit :=
      .ask .start fun _ => .ask (.action (.deleteMembership ⟨⟨1⟩, ⟨9⟩⟩)) fun _ => .done ()
    let w := (x.run Workspace.handler (.ofStore store)).state
    let founded := Workspace.handler (.action (.insertGroup "ops" "on-call")) w
    let deeds' : List Deed :=
      [.step (.insertUser { username := "eve" }), .step (.command (.createGroup "ops" "")),
        .step (.command (.addMember ⟨1⟩ ⟨1⟩))]
    let store' := (({} : Store).live deeds').2
    let x' : Conversation Unit :=
      .ask .start fun _ => .ask (.action (.insertMembership ⟨⟨1⟩, ⟨9⟩⟩)) fun _ => .done ()
    let out := x'.run Workspace.handler (.ofStore store')
    let founded' := Workspace.handler (.action (.insertGroup "dev" "")) out.state
    founded.1 = .ok ⟨⟨1⟩, "ops", "on-call", .empty⟩ ∧
      (Workspace.handler (.action (.group ⟨1⟩)) founded.2).1 =
        .ok (some ⟨⟨1⟩, "ops", "on-call", .ofList [⟨1⟩]⟩) ∧
      (⟨1⟩ : GroupId) ∈ w.staged.groupsOf ⟨1⟩ ∧ (⟨1⟩ : GroupId) ∈ w.staged.groupsOf ⟨2⟩ ∧
      (⟨1⟩ : GroupId) ∉ w.staged.groupsOf ⟨9⟩ ∧
      (⟨1⟩ : GroupId) ∈ w.store.directory.groupsOf ⟨9⟩ ∧
      founded'.1 = .ok ⟨⟨2⟩, "dev", "", .empty⟩ ∧
      Orderly (everSettled (({} : Store).live deeds').1 ++
        ((Ledger.ofExchanges out.exchanges).settled ++
          (Ledger.ofExchanges out.exchanges).pending)) ∧
      (Workspace.handler (.action (.group ⟨2⟩)) founded'.2).1 =
        .ok (some ⟨⟨2⟩, "dev", "", .empty⟩) ∧
      ∀ user, (⟨2⟩ : GroupId) ∉ out.state.staged.groupsOf user := by
  intro join deeds store x w founded deeds' store' x' out founded'
  have hfounded : founded.1 = .ok ⟨⟨1⟩, "ops", "on-call", .empty⟩ := by decide
  have hfounded' : founded'.1 = .ok ⟨⟨2⟩, "dev", "", .empty⟩ := by decide
  obtain ⟨-, hread, houtside, hinside, -, -⟩ := live_founds_groups deeds
    (x.arrives_run Workspace.handler (.ofStore store)) hfounded
  obtain ⟨-, -, -, -, -, hbounded⟩ := live_founds_groups deeds'
    (x'.arrives_run Workspace.handler (.ofStore store')) hfounded'
  have horderly : Orderly (everSettled (({} : Store).live deeds').1 ++
      ((Ledger.ofExchanges out.exchanges).settled ++
        (Ledger.ofExchanges out.exchanges).pending)) := by decide
  obtain ⟨-, hempty⟩ := hbounded ⟨by decide, by decide, by decide⟩
  obtain ⟨hread', hnobody⟩ := hempty horderly
  have hmembers : w.staged.members ⟨1⟩ = .ofList [⟨1⟩] := by decide
  refine ⟨hfounded, ?_, (hinside ⟨1⟩).mpr (by decide), (hinside ⟨2⟩).mpr (by decide),
    mt (hinside ⟨9⟩).mp (by decide), (houtside ⟨9⟩).mpr (by decide), hfounded', horderly, hread',
    fun user => (hnobody user).2⟩
  rw [← hmembers]
  exact hread

/-- A group need not be read as it is answered, and somebody can be in it before it is made: a user
is put into the group of the next id, and the group is made. -/
theorem exists_member_before_group :
    ¬ ∀ (deeds : List Deed) {α : Type} (x rest : Conversation α) (passed : List Exchange)
      (w : Workspace),
      x.Arrives Workspace.handler (.ofStore (({} : Store).live deeds).2) passed rest w →
      ∀ name description group,
        (Workspace.handler (.action (.insertGroup name description)) w).1 = .ok group →
          (Workspace.handler (.action (.group group.id))
            (Workspace.handler (.action (.insertGroup name description)) w).2).1 =
              .ok (some group) ∧
          ∀ user, group.id ∉ w.staged.groupsOf user := by
  intro h
  have hpoint := h [.step (.insertUser { username := "ada" })]
    (Conversation.transaction id
      (ExceptT.mk (Dialogue.request (Action.insertMembership ⟨⟨1⟩, ⟨1⟩⟩)) :
        ExceptT StoreError Transaction Bool)).run
    _ _ _ (.ask (.ask (.here _ _))) "ops" "" ⟨⟨1⟩, "ops", "", .empty⟩ (by decide)
  have hread := hpoint.1
  revert hread
  decide

end Store

end ClusterAccess
