import ClusterAccess.Access.Command
import ClusterAccess.Proofs.Store.Forthright

/-!
# Faults during administration

Every operation of administration is forthright: a store's refusal ends it and is passed on as it
is.  There is one exception.  A store that finds the name of a new group taken, after it was found
free, tells of a conflict, and the operation tells of the name instead (`Command.told`).

So for any store whatever, and wherever in an operation it fails, nothing is asked after the
failure, the operation ends with that failure, and nothing of its transaction is committed
(`Command.faults_surface`).
-/

namespace ClusterAccess

open Dialogue (Forthright)

/-! ## What is told of refusals -/

/-- What is told of a refusal to act, while a group of a name is created. -/
def Action.told (name : String) : Action → StoreError → AdminError
  | .insertGroup .., .conflict _ => .duplicateName name
  | _, e => .store e

/-- The error that an answer is. -/
def AdminError.ofAnswer? {α : Type} : Except AdminError α → Option AdminError
  | .ok _ => none
  | .error e => some e

namespace Command

/-- Whether a command is an operation of administration, and no decision about access. -/
def administers : Command → Bool
  | .hasAccess .. | .resolve .. | .authorize .. | .matrix .. => false
  | _ => true

/-- What an operation of administration tells of a refusal. -/
def told : Command → Call → StoreError → AdminError
  | .createGroup name _, .action a, e => a.told (Text.trim name) e
  | _, _, e => .store e

/-- The error with which an operation of administration ends. -/
def failure? : (c : Command) → c.Answer → Option AdminError
  | .createGroup .., answer | .getGroup _, answer | .addMember .., answer
  | .removeMember .., answer => AdminError.ofAnswer? answer
  | .listGroups, answer => AdminError.ofAnswer? answer
  | .listUsers, answer => AdminError.ofAnswer? answer
  | .deleteGroup _, answer => AdminError.ofAnswer? answer
  | .grant .., answer | .revoke _, answer => AdminError.ofAnswer? answer
  | .listPermissions _, answer => AdminError.ofAnswer? answer
  | .hasAccess .., _ | .resolve .., _ | .authorize .., _ | .matrix .., _ => none

end Command

/-! ## Inside transactions -/

namespace Administration

theorem forthright_act {told : Action → StoreError → AdminError} {a : Action}
    (h : ∀ e, told a e = .store e) : Transaction.Forthright told (act a) :=
  .request h

theorem forthright_requireGroup (id : GroupId) :
    Transaction.Forthright (fun _ => .store) (requireGroup id) := by
  refine (forthright_act fun _ => rfl).andThen (fun found => ?_) nofun
  cases found with
  | none => exact .throw _
  | some group => exact .pure group

theorem forthright_requireUser (id : UserId) :
    Transaction.Forthright (fun _ => .store) (requireUser id) := by
  refine (forthright_act fun _ => rfl).andThen (fun found => ?_) nofun
  cases found with
  | none => exact .throw _
  | some user => exact .pure user

theorem forthright_requireSubject (subject : Subject) :
    Transaction.Forthright (fun _ => .store) (requireSubject subject) := by
  cases subject with
  | user id => exact (forthright_requireUser id).andThen (fun _ => .pure ()) nofun
  | group id => exact (forthright_requireGroup id).andThen (fun _ => .pure ()) nofun

/-- A conflict is told of as the name that is taken, and everything else as it is. -/
theorem forthright_insertNamed (name description : String) :
    Transaction.Forthright (Action.told name) (insertNamed name description) := by
  refine (forthright_act fun _ => rfl).andThen (fun taken => ?_) nofun
  cases taken with
  | true => exact .throw _
  | false =>
    refine .ask (fun e => ?_) fun group => .pure group
    cases e <;> rfl

theorem forthright_removeGroup (id : GroupId) :
    Transaction.Forthright (fun _ => .store) (removeGroup id) := by
  refine (forthright_requireGroup id).andThen (fun _ => ?_) nofun
  refine (forthright_act fun _ => rfl).andThen (fun permissions => ?_) nofun
  by_cases hnamed : 0 < permissions
  · rw [if_pos hnamed]
    exact .throw _
  · rw [if_neg hnamed]
    refine (forthright_act fun _ => rfl).andThen (fun members => ?_) nofun
    refine (forthright_act fun _ => rfl).andThen (fun removed => ?_) nofun
    cases removed with
    | true => exact .pure members
    | false => exact .throw _

theorem forthright_removePermission (id : PermissionId) :
    Transaction.Forthright (fun _ => .store) (removePermission id) := by
  refine (forthright_act fun _ => rfl).andThen (fun found => ?_) nofun
  cases found with
  | none => exact .throw _
  | some permission => exact (forthright_act fun _ => rfl).andThen (fun _ => .pure permission) nofun

/-! ## Operations -/

theorem forthright_query {told : Call → StoreError → AdminError} {q : Query}
    (h : ∀ e, told (.query q) e = .store e) :
    Conversation.Forthright told false false (query q).run :=
  .request h

theorem forthright_transact {α : Type} {body : ExceptT AdminError Transaction α}
    (hbody : Transaction.Forthright (fun _ => .store) body) :
    Conversation.Forthright (fun _ => .store) false true (transact body).run :=
  Conversation.forthright_transaction hbody (fun _ => rfl) fun _ => rfl

theorem forthright_createGroup (name description : String) :
    Conversation.Forthright (Command.createGroup name description).told false true
      (createGroup name description).run := by
  unfold createGroup
  by_cases hname : Text.trim name = ""
  · simp only [if_pos hname]
    exact .done _ nofun
  · simp only [if_neg hname]
    have hbody : Conversation.Forthright (Command.createGroup name description).told false true
        (transact (insertNamed (Text.trim name) description)).run :=
      Conversation.forthright_transaction (forthright_insertNamed _ description) (fun _ => rfl)
        fun _ => rfl
    refine hbody.andThen (fun group => ?_) fun h => h
    exact (Forthright.log _).andThen (fun _ => .pure group) fun h => h

theorem forthright_getGroup (id : GroupId) :
    Conversation.Forthright (fun _ => .store) false false (getGroup id).run := by
  refine (forthright_query fun _ => rfl).andThen (fun found => ?_) nofun
  cases found with
  | none => exact .throw _
  | some group => exact .pure group

/-- A refusal is passed on, and said nothing more about. -/
theorem forthright_deleteGroup (id : GroupId) :
    Conversation.Forthright (fun _ => .store) false true (deleteGroup id).run := by
  rw [deleteGroup, ExceptT.run_bind_lift]
  refine (forthright_transact (forthright_removeGroup id)).bind (fun _ _ => rfl) fun result => ?_
  cases result with
  | ok members => exact .log _
  | error e =>
    cases e with
    | referenced group permissions =>
      exact (Forthright.log _).andThen (fun _ => .throw _) fun h => h
    | _ => exact .throw _

theorem forthright_addMember (group : GroupId) (user : UserId) :
    Conversation.Forthright (fun _ => .store) false true (addMember group user).run := by
  refine forthright_transact ?_
  refine (forthright_requireGroup group).andThen (fun _ => ?_) nofun
  refine (forthright_requireUser user).andThen (fun _ => ?_) nofun
  refine (forthright_act fun _ => rfl).andThen (fun isNew => ?_) nofun
  cases isNew with
  | true => exact (Forthright.log _).andThen (fun _ => forthright_requireGroup group) nofun
  | false => exact forthright_requireGroup group

theorem forthright_removeMember (group : GroupId) (user : UserId) :
    Conversation.Forthright (fun _ => .store) false true (removeMember group user).run := by
  refine forthright_transact ?_
  refine (forthright_requireGroup group).andThen (fun _ => ?_) nofun
  refine (forthright_act fun _ => rfl).andThen (fun removed => ?_) nofun
  cases removed with
  | true => exact (Forthright.log _).andThen (fun _ => forthright_requireGroup group) nofun
  | false => exact forthright_requireGroup group

theorem forthright_grant (subject : Subject) (cluster : ClusterId) :
    Conversation.Forthright (fun _ => .store) false true (grant subject cluster).run := by
  have hbody : Transaction.Forthright (fun _ => .store) (do
      requireSubject subject
      act (.insertGrant subject cluster)) :=
    (forthright_requireSubject subject).andThen (fun _ => forthright_act fun _ => rfl) nofun
  refine (forthright_transact hbody).andThen (fun permission => ?_) fun h => h
  exact (Forthright.log _).andThen (fun _ => .pure permission) fun h => h

theorem forthright_revoke (id : PermissionId) :
    Conversation.Forthright (fun _ => .store) false true (revoke id).run := by
  refine (forthright_transact (forthright_removePermission id)).andThen (fun permission => ?_)
    fun h => h
  exact (Forthright.log _).andThen (fun _ => .pure permission) fun h => h

end Administration

/-! ## Every operation -/

/-- What a refusal comes to in a forthright operation. -/
theorem Conversation.surfaces {σ α : Type} {told : Call → StoreError → AdminError}
    {closed closed' : Bool} {x : Conversation (Except AdminError α)}
    (h : Forthright told closed closed' x) (handler : Handler σ) (s : σ) {call : Call}
    {e : StoreError} (hrefused : ⟨call, .error e⟩ ∈ (x.run handler s).exchanges) :
    (∃ before, (x.run handler s).exchanges = before ++ [⟨call, .error e⟩] ∧
      ∀ made ∈ before, made.answer.isOk = true ∧ made.call ≠ .commit) ∧
    AdminError.ofAnswer? (x.run handler s).value = some (told call e) ∧
    ∀ {τ : Type} (view : σ → τ), handler.Isolates view → view (x.run handler s).state = view s := by
  obtain ⟨⟨before, hexchanges, hbefore⟩, hvalue⟩ := refused_last h handler s hrefused
  refine ⟨⟨before, hexchanges, hbefore⟩, congrArg AdminError.ofAnswer? hvalue,
    fun view hview => view_run hview x s ?_⟩
  rw [hexchanges, List.mem_append]
  rintro (hcommit | hcommit)
  · exact (hbefore _ hcommit).2 rfl
  · cases List.mem_singleton.mp hcommit

/-- **A store's failure surfaces and ends the operation.**  Let any store answer an operation of
administration whatever it likes, and fail at some call.  All calls before were answered, and no
call is made after it: in particular the transaction under way, if there is one, ends with an error
and is not committed.  The operation ends with the store's error, or with the name that is taken if
it was a conflict at the insertion of a group.  A store that keeps what is not committed to itself
is left as it was. -/
theorem Command.faults_surface {c : Command} (hc : c.administers = true) {σ : Type}
    (handler : Handler σ) (s : σ) {call : Call} {e : StoreError}
    (hrefused : ⟨call, .error e⟩ ∈ (c.conversation.run handler s).exchanges) :
    (∃ before, (c.conversation.run handler s).exchanges = before ++ [⟨call, .error e⟩] ∧
      ∀ made ∈ before, made.answer.isOk = true ∧ made.call ≠ .commit) ∧
    c.failure? (c.conversation.run handler s).value = some (c.told call e) ∧
    ∀ {τ : Type} (view : σ → τ), handler.Isolates view →
      view (c.conversation.run handler s).state = view s := by
  open Administration Conversation in
  cases c with
  | createGroup name description =>
    have hforthright := forthright_createGroup name description
    rw [ExceptT.run] at hforthright
    exact surfaces hforthright handler s hrefused
  | getGroup id => exact surfaces (forthright_getGroup id) handler s hrefused
  | listGroups => exact surfaces (forthright_query fun _ => rfl) handler s hrefused
  | deleteGroup id => exact surfaces (forthright_deleteGroup id) handler s hrefused
  | addMember group user => exact surfaces (forthright_addMember group user) handler s hrefused
  | removeMember group user =>
    exact surfaces (forthright_removeMember group user) handler s hrefused
  | grant subject cluster => exact surfaces (forthright_grant subject cluster) handler s hrefused
  | revoke id => exact surfaces (forthright_revoke id) handler s hrefused
  | listPermissions cluster => exact surfaces (forthright_query fun _ => rfl) handler s hrefused
  | listUsers => exact surfaces (forthright_query fun _ => rfl) handler s hrefused
  | hasAccess user cluster => cases hc
  | resolve user cluster => cases hc
  | authorize principal cluster => cases hc
  | matrix users clusters => cases hc

/-- A store that reports a conflict at the insertion of a group whose name was free, and one that
fails when the memberships of a group are removed already, but not yet the group. -/
theorem Command.faults_surface_midway :
    let handler := Fault.handler Workspace.handler
    let creation := (Command.createGroup " dev " "").conversation.run handler
      ([⟨.txInsertGroup, 0, .error (.conflict "raced")⟩], .ofStore {})
    let store : Store :=
      { directory :=
        { groupRecords := .ofList [⟨⟨1⟩, "ops", ""⟩], memberships := .ofList [⟨⟨1⟩, ⟨7⟩⟩] } }
    let deletion := (Command.deleteGroup ⟨1⟩).conversation.run handler
      ([⟨.txDeleteGroup, 0, .error (.internal "disk")⟩], .ofStore store)
    (⟨.action (.insertGroup "dev" ""), .error (.conflict "raced")⟩ : Exchange) ∈
        creation.exchanges ∧
      (Command.createGroup " dev " "").failure? creation.value = some (.duplicateName "dev") ∧
      (⟨.action (.deleteGroup ⟨1⟩), .error (.internal "disk")⟩ : Exchange) ∈ deletion.exchanges ∧
      (Command.deleteGroup ⟨1⟩).failure? deletion.value = some (.store (.internal "disk")) ∧
      deletion.state.2.store = store := by
  intro handler creation store deletion
  have hcreation : creation.exchanges =
      [⟨.start, .ok ()⟩, ⟨.action (.nameTaken "dev"), .ok false⟩,
        ⟨.action (.insertGroup "dev" ""), .error (.conflict "raced")⟩] := rfl
  have hconflict : (⟨.action (.insertGroup "dev" ""), .error (.conflict "raced")⟩ : Exchange) ∈
      creation.exchanges := by
    rw [hcreation]
    exact .tail _ (.tail _ (.head _))
  have hdeletion : deletion.exchanges =
      [⟨.start, .ok ()⟩, ⟨.action (.group ⟨1⟩), .ok (some ⟨⟨1⟩, "ops", "", .empty⟩)⟩,
        ⟨.action (.grantCount ⟨1⟩), .ok 0⟩, ⟨.action (.deleteMemberships ⟨1⟩), .ok 1⟩,
        ⟨.action (.deleteGroup ⟨1⟩), .error (.internal "disk")⟩] := rfl
  have hfailed : (⟨.action (.deleteGroup ⟨1⟩), .error (.internal "disk")⟩ : Exchange) ∈
      deletion.exchanges := by
    rw [hdeletion]
    exact .tail _ (.tail _ (.tail _ (.tail _ (.head _))))
  obtain ⟨-, htaken, -⟩ := Command.faults_surface rfl handler _ hconflict
  obtain ⟨-, hstore, hview⟩ := Command.faults_surface rfl handler _ hfailed
  exact ⟨hconflict, htaken, hfailed, hstore, hview _ Workspace.isolates.behind_faults⟩

end ClusterAccess
