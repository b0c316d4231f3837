import ClusterAccess.Access.Command
import ClusterAccess.Proofs.Access.Reads
import ClusterAccess.Proofs.Directory.Rows

/-!
# Operations as functions on directories

Each operation of the service is a conversation with a store.  Held with the store in memory, as
long as that is available, it comes to a function on directories: an answer, and the directory that
takes the place of the old one.  The functions are written down here, one for each operation, and
`enacts` lemmas say that the conversations carry them out.  Everything that is proved of the service
rests on these functions; the conversations are not opened again.
-/

namespace ClusterAccess

/-! ## Decisions -/

namespace Directory

/-- What a directory answers to the questions on which decisions rest. -/
def reads (d : Directory) : Access.Reads where
  userGrant user cluster := .ok (d.userGrant? user cluster)
  groupsOf user := .ok (d.groupsOf user)
  groupGrant groups cluster := .ok (d.groupGrant? groups cluster)
  user user := .ok (d.user? user)

def decision (d : Directory) (user : UserId) (cluster : ClusterId) : Decision :=
  d.reads.decision user cluster

/-- The decision of the role of a user whom readers see. -/
def byRole (d : Directory) (user : UserId) : Decision :=
  match d.user? user with
  | some found => if found.isAdmin then .adminRole else .denied .noGrant
  | none => .denied .unknownUser

/-- The three questions, asked of the tables. -/
theorem decision_eq (d : Directory) (user : UserId) (cluster : ClusterId) :
    d.decision user cluster =
      match d.userGrant? user cluster with
      | some p => .directGrant p.id
      | none =>
        match (d.groupGrant? (d.groupsOf user) cluster).bind Access.ofGroup? with
        | some decision => decision
        | none => d.byRole user := by
  have hdirect : d.reads.direct? user cluster =
      (d.userGrant? user cluster).map fun p => .directGrant p.id := by
    simp only [Access.Reads.direct?, reads]
    cases d.userGrant? user cluster <;> rfl
  have hgroup : d.reads.viaGroup? user cluster =
      (d.groupGrant? (d.groupsOf user) cluster).bind Access.ofGroup? := by
    simp only [Access.Reads.viaGroup?, reads]
    cases hgroups : d.groupsOf user with
    | nil =>
      rw [groupGrant?_nil]
      rfl
    | cons group groups =>
      cases h : d.groupGrant? (group :: groups) cluster <;> simp only [h, Option.bind]
  have hrole : d.reads.byRole user = d.byRole user := by
    simp only [Access.Reads.byRole, byRole, reads]
    cases d.user? user <;> rfl
  unfold decision Access.Reads.decision
  rw [hdirect, hgroup, hrole]
  cases d.userGrant? user cluster <;> rfl

/-! ## Changes -/

def createGroup (name description : String) (d : Directory) :
    Except AdminError UserGroup × Directory :=
  if Text.trim name = "" then (.error .invalidName, d)
  else
    match d.insertGroup (Text.trim name) description with
    | .ok (group, d') => (.ok group, d')
    | .error _ => (.error (.duplicateName (Text.trim name)), d)

/-- Removes a group with its memberships, unless permissions name it. -/
def removeGroup (id : GroupId) (d : Directory) : Except AdminError Unit × Directory :=
  if d.groupRecords.contains id then
    if 0 < d.grantCount id then (.error (.referenced id (d.grantCount id)), d)
    else (.ok (), ((d.deleteMemberships id).2.deleteGroup id).2)
  else (.error (.notFound (.group id)), d)

def addMember (group : GroupId) (user : UserId) (d : Directory) :
    Except AdminError UserGroup × Directory :=
  match d.groupRecords.find? group with
  | none => (.error (.notFound (.group group)), d)
  | some record =>
    if (d.user? user).isSome then
      (.ok ((d.insertMembership { group, user }).2.resolve record),
        (d.insertMembership { group, user }).2)
    else (.error (.notFound (.user user)), d)

def removeMember (group : GroupId) (user : UserId) (d : Directory) :
    Except AdminError UserGroup × Directory :=
  match d.groupRecords.find? group with
  | none => (.error (.notFound (.group group)), d)
  | some record =>
    (.ok ((d.deleteMembership { group, user }).2.resolve record),
      (d.deleteMembership { group, user }).2)

def grantAccess (subject : Subject) (cluster : ClusterId) (d : Directory) :
    Except AdminError Permission × Directory :=
  match d.insertGrant subject cluster with
  | .ok (permission, d') => (.ok permission, d')
  | .error _ => (.error (.notFound subject.entity), d)

def revokeAccess (id : PermissionId) (d : Directory) : Except AdminError Permission × Directory :=
  match d.permissions.find? id with
  | some permission => (.ok permission, (d.deleteGrant id).2)
  | none => (.error (.notFound (.permission id)), d)

end Directory

/-! ## Conversations that carry them out -/

/-- A conversation that does to the directory of any available store what a function does, and
leaves the store as it is otherwise. -/
def Enacts {α : Type} (x : Conversation α) (f : Directory → α × Directory) : Prop :=
  ∀ w : Workspace, w.store.available = true →
    (x.answered w).1 = (f w.store.directory).1 ∧
      (x.answered w).2.store = { w.store with directory := (f w.store.directory).2 }

/-- An available store answers queries from its directory. -/
theorem Store.answer_of_available {store : Store} (h : store.available = true) (q : Query) :
    store.answer q = .ok (store.directory.answer q) := by
  cases q with
  | groupGrant groups cluster =>
    cases groups with
    | nil => exact congrArg Except.ok (store.directory.groupGrant?_nil cluster).symm
    | cons group groups => exact if_pos h
  | _ => exact if_pos h

/-- An attempt that fails leaves the directory as it was. -/
def Directory.settle {ε α : Type} (d : Directory) :
    Except ε α × Directory → Except ε α × Directory
  | (.ok value, d') => (.ok value, d')
  | (.error e, _) => (.error e, d)

namespace Enacts

open Administration

variable {α : Type}

theorem pure_done (value : α) : Enacts (.done value) fun d => (value, d) :=
  fun _ _ => ⟨rfl, rfl⟩

theorem bind {β : Type} {x : Conversation α} {f : Directory → α × Directory}
    {y : α → Conversation β} {g : α → Directory → β × Directory} (hx : Enacts x f)
    (hy : ∀ a, Enacts (y a) (g a)) : Enacts (x >>= y) fun d => g (f d).1 (f d).2 := by
  intro w h
  obtain ⟨hvalue, hstore⟩ := hx w h
  have havailable : (x.answered w).2.store.available = true := by
    rw [hstore]
    exact h
  rw [Conversation.answered_bind, hvalue]
  have hnext := hy (f w.store.directory).1 _ havailable
  rw [hstore] at hnext
  exact hnext

theorem query (q : Query) :
    Enacts (Administration.query q).run fun d => (.ok (d.answer q), d) := by
  intro w h
  rw [Conversation.answered_query, Store.answer_of_available h]
  exact ⟨rfl, rfl⟩

theorem transact {body : ExceptT AdminError Transaction α}
    {f : Directory → Except AdminError α × Directory}
    (hbody : ∀ d : Directory, d.settle (Transaction.attempt body d) = f d) :
    Enacts (Administration.transact body).run f := by
  intro w h
  rw [Administration.transact, Conversation.answered_transaction _ _ h, ← hbody]
  rcases Transaction.attempt body w.store.directory with ⟨_ | _, d⟩ <;> exact ⟨rfl, rfl⟩

/-- What is said after an operation changes neither its answer nor the directory. -/
theorem andThen_log {x : ExceptT AdminError Conversation α}
    {f : Directory → Except AdminError α × Directory} (h : Enacts x.run f) (event : α → Event) :
    Enacts (do
      let value ← x
      ExceptT.lift (Dialogue.log (event value))
      return value : ExceptT AdminError Conversation α).run f := by
  intro w hw
  obtain ⟨hvalue, hstore⟩ := h w hw
  rw [Conversation.answered_andThen]
  rcases hx : x.run.answered w with ⟨_ | value, w'⟩
  · rw [hx] at hvalue hstore
    exact ⟨hvalue, hstore⟩
  · rw [hx] at hvalue hstore
    exact ⟨hvalue, hstore⟩

end Enacts

namespace Transaction

open Administration

variable (d : Directory)

@[simp] theorem attempt_requireGroup (id : GroupId) :
    attempt (requireGroup id) d =
      match d.group? id with
      | some group => (.ok group, d)
      | none => (.error (.notFound (.group id)), d) := by
  rw [requireGroup, attempt_bind, attempt_act]
  simp only [Directory.perform]
  cases d.group? id <;> rfl

@[simp] theorem attempt_requireUser (id : UserId) :
    attempt (requireUser id) d =
      match d.user? id with
      | some user => (.ok user, d)
      | none => (.error (.notFound (.user id)), d) := by
  rw [requireUser, attempt_bind, attempt_act]
  simp only [Directory.perform]
  cases d.user? id <;> rfl

theorem attempt_insertNamed (name description : String) :
    attempt (insertNamed name description) d =
      match d.insertGroup name description with
      | .ok (group, d') => (.ok group, d')
      | .error _ => (.error (.duplicateName name), d) := by
  rw [insertNamed, attempt_bind, attempt_act]
  simp only [Directory.perform, Directory.insertGroup]
  cases h : d.nameTaken name with
  | true => rfl
  | false =>
    simp only [Bool.false_eq_true, if_false]
    rw [attempt_bind, attempt_request]
    simp only [Directory.perform, Directory.insertGroup, h, Bool.false_eq_true, if_false,
      attempt_pure]

theorem attempt_removeGroup (id : GroupId) :
    attempt (removeGroup id) d =
      if d.groupRecords.contains id then
        if 0 < d.grantCount id then (.error (.referenced id (d.grantCount id)), d)
        else (.ok (d.deleteMemberships id).1, ((d.deleteMemberships id).2.deleteGroup id).2)
      else (.error (.notFound (.group id)), d) := by
  rw [removeGroup, attempt_bind, attempt_requireGroup]
  simp only [Directory.group?, Table.contains_eq_isSome]
  cases hrecord : d.groupRecords.find? id with
  | none => rfl
  | some record =>
    simp only [Option.map_some, Option.isSome_some, if_true]
    rw [attempt_bind, attempt_act]
    simp only [Directory.perform]
    by_cases hgrants : 0 < d.grantCount id
    · rw [if_pos hgrants, if_pos hgrants, attempt_throw]
    · rw [if_neg hgrants, if_neg hgrants, attempt_bind, attempt_act]
      simp only [Directory.perform, Directory.deleteMemberships]
      rw [attempt_bind, attempt_act]
      simp only [Directory.perform, Directory.deleteGroup, Table.contains_eq_isSome, hrecord,
        Option.isSome_some, if_true, attempt_pure]

theorem attempt_requireSubject (subject : Subject) :
    attempt (requireSubject subject) d =
      if d.subjectExists subject then (.ok (), d) else (.error (.notFound subject.entity), d) := by
  cases subject with
  | user id =>
    have hexists : d.subjectExists (.user id) = (d.user? id).isSome := rfl
    rw [requireSubject, attempt_bind, attempt_requireUser, hexists]
    cases d.user? id <;> rfl
  | group id =>
    have hexists : d.subjectExists (.group id) = (d.groupRecords.find? id).isSome :=
      Table.contains_eq_isSome _ _
    rw [requireSubject, attempt_bind, attempt_requireGroup, hexists, Directory.group?]
    cases d.groupRecords.find? id <;> rfl

/-- What is said on the way makes no difference. -/
theorem attempt_logIf {ε α : Type} (b : Prop) [Decidable b] (event : Event)
    (x : ExceptT ε Transaction α) :
    attempt (if b then ExceptT.lift (Dialogue.log event) >>= fun _ => x else x) d =
      attempt x d := by
  by_cases h : b
  · rw [if_pos h, attempt_bind, attempt_log]
  · rw [if_neg h]

end Transaction

namespace Enacts

open Administration Transaction

theorem createGroup (name description : String) :
    Enacts (Administration.createGroup name description).run
      (Directory.createGroup name description) := by
  unfold Administration.createGroup Directory.createGroup
  by_cases hname : Text.trim name = ""
  · simp only [hname, if_true]
    exact pure_done _
  · simp only [hname, if_false]
    refine andThen_log (transact fun d => ?_) fun group : UserGroup =>
      .groupCreated group.id group.name
    rw [attempt_insertNamed]
    cases d.insertGroup (Text.trim name) description <;> rfl

theorem deleteGroup (id : GroupId) :
    Enacts (Administration.deleteGroup id).run (Directory.removeGroup id) := by
  intro w h
  rw [Administration.deleteGroup, Conversation.answered_andThen, Conversation.answered_lift,
    Administration.transact, Conversation.answered_transaction _ _ h, attempt_removeGroup]
  unfold Directory.removeGroup
  by_cases hrecord : w.store.directory.groupRecords.contains id = true
  · by_cases hgrants : 0 < w.store.directory.grantCount id
    · simp only [if_pos hrecord, if_pos hgrants]
      exact ⟨rfl, rfl⟩
    · simp only [if_pos hrecord, if_neg hgrants]
      exact ⟨rfl, rfl⟩
  · simp only [if_neg hrecord]
    exact ⟨rfl, rfl⟩

theorem addMember (group : GroupId) (user : UserId) :
    Enacts (Administration.addMember group user).run (Directory.addMember group user) := by
  refine transact fun d => ?_
  rw [attempt_bind, attempt_requireGroup]
  simp only [Directory.group?, Directory.addMember]
  cases hrecord : d.groupRecords.find? group with
  | none => rfl
  | some record =>
    simp only [Option.map_some]
    rw [attempt_bind, attempt_requireUser]
    cases d.user? user with
    | none => rfl
    | some found =>
      simp only [Option.isSome_some, if_true]
      rw [attempt_bind, attempt_act]
      simp only [Directory.perform]
      rw [attempt_logIf, attempt_requireGroup, Directory.group?, Directory.insertMembership]
      simp only [hrecord, Option.map_some]
      rfl

theorem removeMember (group : GroupId) (user : UserId) :
    Enacts (Administration.removeMember group user).run (Directory.removeMember group user) := by
  refine transact fun d => ?_
  rw [attempt_bind, attempt_requireGroup]
  simp only [Directory.group?, Directory.removeMember]
  cases hrecord : d.groupRecords.find? group with
  | none => rfl
  | some record =>
    simp only [Option.map_some]
    rw [attempt_bind, attempt_act]
    simp only [Directory.perform]
    rw [attempt_logIf, attempt_requireGroup, Directory.group?, Directory.deleteMembership]
    simp only [hrecord, Option.map_some]
    rfl

theorem grant (subject : Subject) (cluster : ClusterId) :
    Enacts (Administration.grant subject cluster).run (Directory.grantAccess subject cluster) := by
  refine andThen_log (transact fun d => ?_) fun p : Permission =>
    .permissionGranted p.id cluster subject
  rw [attempt_bind, attempt_requireSubject]
  simp only [Directory.grantAccess, Directory.insertGrant]
  by_cases hsubject : d.subjectExists subject = true
  · simp only [if_pos hsubject]
    rw [attempt_act]
    simp only [Directory.perform, Directory.insertGrant, if_pos hsubject]
    rfl
  · simp only [if_neg hsubject]
    rfl

theorem revoke (id : PermissionId) :
    Enacts (Administration.revoke id).run (Directory.revokeAccess id) := by
  refine andThen_log (transact fun d => ?_) fun p : Permission => .permissionRevoked id p.cluster
  rw [removePermission, attempt_bind, attempt_act]
  simp only [Directory.perform, Directory.revokeAccess]
  cases d.permissions.find? id <;> rfl

/-- The store in memory answers the questions of access from its directory. -/
theorem answeredBy_workspace {w : Workspace} (h : w.store.available = true) :
    w.store.directory.reads.AnsweredBy Workspace.handler w := by
  have hanswer (q : Query) :
      Workspace.handler (.query q) w = (.ok (w.store.directory.answer q), w) := by
    rw [Workspace.handler, Store.answer_of_available h]
  exact ⟨fun _ _ => hanswer _, fun _ => hanswer _, fun _ _ => hanswer _, fun _ => hanswer _⟩

theorem resolve (user : UserId) (cluster : ClusterId) :
    Enacts (Access.resolve user cluster) fun d => (d.decision user cluster, d) := by
  intro w h
  rw [Conversation.answered, Access.run_resolve user cluster (answeredBy_workspace h)]
  exact ⟨rfl, rfl⟩

theorem hasAccess (user : UserId) (cluster : ClusterId) :
    Enacts (Access.hasAccess user cluster) fun d => ((d.decision user cluster).isGranted, d) := by
  rw [Access.hasAccess, map_eq_pure_bind]
  exact bind (resolve user cluster) fun d => pure_done d.isGranted

theorem authorize (principal : Principal) (cluster : ClusterId) :
    Enacts (Access.authorize principal cluster).run fun d =>
      (if (d.decision principal.user cluster).isGranted then .ok ()
        else .error { user := principal.user, cluster }, d) := by
  have hlowered : (Access.authorize principal cluster).run =
      Access.hasAccess principal.user cluster >>= fun granted =>
        .done (if granted then .ok () else .error { user := principal.user, cluster }) := by
    rw [Access.authorize, ExceptT.run_bind]
    change (Except.ok <$> Access.hasAccess principal.user cluster) >>= _ = _
    rw [bind_map_left]
    congr 1
    funext granted
    cases granted <;> rfl
  rw [hlowered]
  exact bind (hasAccess principal.user cluster) fun granted => pure_done _

/-- A list of readings, one after the other. -/
theorem mapM {β : Type} {y : β → Conversation α} {f : β → Directory → α}
    (hy : ∀ b, Enacts (y b) fun d => (f b d, d)) (bs : List β) :
    Enacts (bs.mapM y) fun d => (bs.map fun b => f b d, d) := by
  induction bs with
  | nil => exact pure_done []
  | cons b bs ih =>
    rw [List.mapM_cons]
    exact bind (hy b) fun a => bind ih fun as => pure_done (a :: as)

theorem getGroup (id : GroupId) :
    Enacts (Administration.getGroup id).run fun d =>
      (match d.group? id with
        | some group => .ok group
        | none => .error (.notFound (.group id)), d) := by
  intro w h
  have hquery : (Administration.query (.group id)).run.answered w =
      (.ok (w.store.directory.group? id), w) := by
    rw [Conversation.answered_query, Store.answer_of_available h]
    rfl
  rw [Administration.getGroup, Conversation.answered_andThen, hquery]
  cases hgroup : w.store.directory.group? id with
  | none => simp only [hgroup, Conversation.answered_throw, true_and]
  | some group => simp only [hgroup, Conversation.answered_pure, true_and]

end Enacts

/-! ## Commands -/

/-- What a command answers and makes of a directory. -/
def Directory.carryOut (d : Directory) : (c : Command) → c.Answer × Directory
  | .createGroup name description => d.createGroup name description
  | .getGroup id =>
    (match d.group? id with
      | some group => .ok group
      | none => .error (.notFound (.group id)), d)
  | .listGroups => (.ok d.groups, d)
  | .deleteGroup id => d.removeGroup id
  | .addMember group user => d.addMember group user
  | .removeMember group user => d.removeMember group user
  | .grant subject cluster => d.grantAccess subject cluster
  | .revoke id => d.revokeAccess id
  | .listPermissions cluster => (.ok (d.grants cluster), d)
  | .listUsers => (.ok d.users, d)
  | .hasAccess user cluster => ((d.decision user cluster).isGranted, d)
  | .resolve user cluster => (d.decision user cluster, d)
  | .authorize principal cluster =>
    (if (d.decision principal.user cluster).isGranted then .ok ()
      else .error { user := principal.user, cluster }, d)
  | .matrix users clusters =>
    (users.map fun user => clusters.map fun cluster => d.decision user cluster, d)

/-- **Commands are functions on directories.** -/
theorem Command.enacts (c : Command) : Enacts c.conversation fun d => d.carryOut c := by
  cases c with
  | createGroup name description => exact Enacts.createGroup name description
  | getGroup id => exact Enacts.getGroup id
  | listGroups => exact Enacts.query .groups
  | deleteGroup id => exact Enacts.deleteGroup id
  | addMember group user => exact Enacts.addMember group user
  | removeMember group user => exact Enacts.removeMember group user
  | grant subject cluster => exact Enacts.grant subject cluster
  | revoke id => exact Enacts.revoke id
  | listPermissions cluster => exact Enacts.query (.grants cluster)
  | listUsers => exact Enacts.query .users
  | hasAccess user cluster => exact Enacts.hasAccess user cluster
  | resolve user cluster => exact Enacts.resolve user cluster
  | authorize principal cluster => exact Enacts.authorize principal cluster
  | matrix users clusters =>
    refine Enacts.mapM (fun user => ?_) users
    exact Enacts.mapM (fun cluster => Enacts.resolve user cluster) clusters

/-- Held with a store that is available, a command answers as its function does, and the store goes
on with the function's directory. -/
theorem Store.hold_command (c : Command) {store : Store} (h : store.available = true) :
    (store.hold [] c.conversation).value = (store.directory.carryOut c).1 ∧
      (store.hold [] c.conversation).state =
        { store with directory := (store.directory.carryOut c).2 } := by
  obtain ⟨hvalue, hstate⟩ := Store.hold_faultless c.conversation store
  obtain ⟨hvalue', hstore⟩ := c.enacts (.ofStore store) h
  exact ⟨hvalue.trans hvalue', hstate.trans hstore⟩

end ClusterAccess
