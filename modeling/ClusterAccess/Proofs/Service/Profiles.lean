import ClusterAccess.Proofs.Service.Run
import ClusterAccess.Proofs.Table

/-!
# What decides, and what is only told

A user's name, status and way of signing in, and a group's description, are kept and told and do
nothing else.  A value from which they are taken out is *bare*.  Every step commutes with taking
them out (`Directory.enact_bare`): done barely on a bare directory, it gives the bare answer and the
bare directory.  So whatever is not taken out, which is every decision, every error, every id, every
role and every set of members, is the same in two runs whose steps differ in nothing else
(`Store.serve_ignores_profiles`).
-/

namespace ClusterAccess

/-! ## Bare values -/

def User.bare (user : User) : User :=
  { user with username := "", status := default, authType := default }

def NewUser.bare (new : NewUser) : NewUser := { username := "", role := new.role }

def UserGroup.bare (group : UserGroup) : UserGroup := { group with description := "" }

def Principal.bare (principal : Principal) : Principal := ⟨principal.user, none, none⟩

def Account.bare (account : Account) : Account := { account with user := account.user.bare }

def GroupRecord.bare (record : GroupRecord) : GroupRecord := { record with description := "" }

theorem Account.bare_id (account : Account) : account.bare.user.id = account.user.id := rfl

theorem GroupRecord.bare_id (record : GroupRecord) : record.bare.id = record.id := rfl

def Directory.bare (d : Directory) : Directory :=
  { d with
    accounts := d.accounts.mapRows Account.bare Account.bare_id
    groupRecords := d.groupRecords.mapRows GroupRecord.bare GroupRecord.bare_id }

def Store.bare (store : Store) : Store := { store with directory := store.directory.bare }

/-! ## Bare steps and answers -/

def Command.bare : Command → Command
  | .createGroup name _ => .createGroup name ""
  | .authorize principal cluster => .authorize principal.bare cluster
  | c => c

def Step.bare : Step → Step
  | .command c => .command c.bare
  | .insertUser new => .insertUser new.bare
  | .softDelete id => .softDelete id

/-- An answer without the profiles of the users and groups in it.  Errors and decisions are left as
they are. -/
def Command.bareAnswer : (c : Command) → c.Answer → c.bare.Answer
  | .createGroup .., answer | .getGroup _, answer | .addMember .., answer
  | .removeMember .., answer => answer.map UserGroup.bare
  | .listGroups, answer => answer.map (List.map UserGroup.bare)
  | .listUsers, answer => answer.map (List.map User.bare)
  | .deleteGroup _, answer | .grant .., answer | .revoke _, answer | .listPermissions _, answer
  | .hasAccess .., answer | .resolve .., answer | .authorize .., answer
  | .matrix .., answer => answer

def Step.bareAnswer : (step : Step) → step.Answer → step.bare.Answer
  | .command c, answer => c.bareAnswer answer
  | .insertUser _, answer => answer.map User.bare
  | .softDelete _, answer => answer

def Entry.bare (entry : Entry) : Entry := ⟨entry.step.bare, entry.step.bareAnswer entry.answer⟩

/-! ## Reading a bare directory -/

theorem Account.live?_bare (account : Account) :
    account.bare.live? = account.live?.map User.bare := by
  obtain ⟨user, deleted⟩ := account
  cases deleted <;> rfl

namespace Directory

variable (d : Directory)

theorem user?_bare (id : UserId) : d.bare.user? id = (d.user? id).map User.bare := by
  have hfind : d.bare.accounts.find? id = (d.accounts.find? id).map Account.bare :=
    Table.find?_mapRows Account.bare_id _ _
  rw [user?, user?, hfind]
  cases d.accounts.find? id with
  | none => rfl
  | some account => exact account.live?_bare

theorem isSome_user?_bare (id : UserId) : (d.bare.user? id).isSome = (d.user? id).isSome := by
  rw [user?_bare, Option.isSome_map]

theorem users_bare : d.bare.users = d.users.map User.bare := by
  have hrows : d.bare.accounts.rows = d.accounts.rows.map Account.bare := rfl
  simp only [users, hrows, List.filterMap_map, List.map_filterMap, Function.comp_def,
    Account.live?_bare]

theorem members_bare (group : GroupId) : d.bare.members group = d.members group := by
  have hrows : d.bare.memberships.rows = d.memberships.rows := rfl
  simp only [members, hrows, isSome_user?_bare]

theorem resolve_bare (record : GroupRecord) :
    d.bare.resolve record.bare = (d.resolve record).bare := by
  simp only [resolve, GroupRecord.bare, UserGroup.bare, members_bare]

theorem find?_groupRecords_bare (id : GroupId) :
    d.bare.groupRecords.find? id = (d.groupRecords.find? id).map GroupRecord.bare :=
  Table.find?_mapRows GroupRecord.bare_id _ _

theorem contains_groupRecords_bare (id : GroupId) :
    d.bare.groupRecords.contains id = d.groupRecords.contains id :=
  Table.contains_mapRows GroupRecord.bare_id _ _

theorem group?_bare (id : GroupId) : d.bare.group? id = (d.group? id).map UserGroup.bare := by
  rw [group?, group?, find?_groupRecords_bare]
  cases d.groupRecords.find? id with
  | none => rfl
  | some record => exact congrArg some (d.resolve_bare record)

theorem groups_bare : d.bare.groups = d.groups.map UserGroup.bare := by
  have hrows : d.bare.groupRecords.rows = d.groupRecords.rows.map GroupRecord.bare := rfl
  simp only [groups, hrows, List.map_map, Function.comp_def, resolve_bare]

theorem nameTaken_bare (name : String) : d.bare.nameTaken name = d.nameTaken name := by
  have hrows : d.bare.groupRecords.rows = d.groupRecords.rows.map GroupRecord.bare := rfl
  rw [nameTaken, hrows, List.any_map]
  rfl

theorem subjectExists_bare (subject : Subject) :
    d.bare.subjectExists subject = d.subjectExists subject := by
  cases subject with
  | user id => exact d.isSome_user?_bare id
  | group id => exact d.contains_groupRecords_bare id

/-- The role is all that a decision reads of a user. -/
theorem byRole_bare (user : UserId) : d.bare.byRole user = d.byRole user := by
  rw [byRole, byRole, user?_bare]
  cases d.user? user <;> rfl

theorem decision_bare (user : UserId) (cluster : ClusterId) :
    d.bare.decision user cluster = d.decision user cluster := by
  rw [decision_eq, decision_eq, byRole_bare]
  rfl

/-! ## Changing a bare directory -/

theorem bare_insertAccount (account : Account) :
    ({ d with accounts := d.accounts.insert account } : Directory).bare =
      { d.bare with accounts := d.bare.accounts.insert account.bare } := by
  simp only [bare, Table.mapRows_insert]

theorem bare_insertRecord (record : GroupRecord) :
    ({ d with groupRecords := d.groupRecords.insert record } : Directory).bare =
      { d.bare with groupRecords := d.bare.groupRecords.insert record.bare } := by
  simp only [bare, Table.mapRows_insert]

theorem bare_eraseRecord (id : GroupId) :
    ({ d with groupRecords := d.groupRecords.erase id } : Directory).bare =
      { d.bare with groupRecords := d.bare.groupRecords.erase id } := by
  simp only [bare, Table.mapRows_erase]

theorem insertUser_bare (new : NewUser) :
    d.bare.insertUser new.bare = (d.insertUser new).map User.bare bare := by
  refine Prod.ext rfl ?_
  exact (bare_insertAccount { d with lastUser := d.lastUser + 1 }
    { user := new.withId ⟨d.lastUser + 1⟩ }).symm

theorem softDelete_bare (id : UserId) :
    d.bare.softDelete id = (d.softDelete id).map (fun answer => answer) bare := by
  rw [softDelete, softDelete, user?_bare]
  cases d.user? id with
  | none => rfl
  | some user => exact Prod.ext rfl (d.bare_insertAccount { user, deleted := true }).symm

theorem createGroup_bare (name description : String) :
    d.bare.createGroup name "" =
      (d.createGroup name description).map (Except.map UserGroup.bare) bare := by
  unfold createGroup insertGroup
  rw [nameTaken_bare]
  by_cases hname : Text.trim name = ""
  · simp only [if_pos hname]
    rfl
  · simp only [if_neg hname]
    cases d.nameTaken (Text.trim name) with
    | true => rfl
    | false =>
      exact Prod.ext rfl (bare_insertRecord { d with lastGroup := d.lastGroup + 1 }
        ⟨⟨d.lastGroup + 1⟩, Text.trim name, description⟩).symm

theorem removeGroup_bare (id : GroupId) :
    d.bare.removeGroup id = (d.removeGroup id).map (fun answer => answer) bare := by
  have hgrants : d.bare.grantCount id = d.grantCount id := rfl
  unfold removeGroup
  rw [contains_groupRecords_bare, hgrants]
  by_cases hrecord : d.groupRecords.contains id = true
  · by_cases hnamed : 0 < d.grantCount id
    · simp only [if_pos hrecord, if_pos hnamed]
      rfl
    · simp only [if_pos hrecord, if_neg hnamed]
      exact Prod.ext rfl ((d.deleteMemberships id).2.bare_eraseRecord id).symm
  · simp only [if_neg hrecord]
    rfl

theorem addMember_bare (group : GroupId) (user : UserId) :
    d.bare.addMember group user =
      (d.addMember group user).map (Except.map UserGroup.bare) bare := by
  unfold addMember
  rw [find?_groupRecords_bare, isSome_user?_bare]
  cases d.groupRecords.find? group with
  | none => rfl
  | some record =>
    by_cases huser : (d.user? user).isSome = true
    · simp only [Option.map_some, if_pos huser]
      exact Prod.ext (congrArg Except.ok
        ((d.insertMembership { group, user }).2.resolve_bare record)) rfl
    · simp only [Option.map_some, if_neg huser]
      rfl

theorem removeMember_bare (group : GroupId) (user : UserId) :
    d.bare.removeMember group user =
      (d.removeMember group user).map (Except.map UserGroup.bare) bare := by
  unfold removeMember
  rw [find?_groupRecords_bare]
  cases d.groupRecords.find? group with
  | none => rfl
  | some record =>
    exact Prod.ext (congrArg Except.ok
      ((d.deleteMembership { group, user }).2.resolve_bare record)) rfl

theorem grantAccess_bare (subject : Subject) (cluster : ClusterId) :
    d.bare.grantAccess subject cluster =
      (d.grantAccess subject cluster).map (fun answer => answer) bare := by
  unfold grantAccess insertGrant
  rw [subjectExists_bare]
  cases d.subjectExists subject <;> rfl

theorem revokeAccess_bare (id : PermissionId) :
    d.bare.revokeAccess id = (d.revokeAccess id).map (fun answer => answer) bare := by
  have hfind : d.bare.permissions.find? id = d.permissions.find? id := rfl
  unfold revokeAccess
  rw [hfind]
  cases d.permissions.find? id <;> rfl

/-! ## Steps -/

theorem carryOut_bare (c : Command) :
    d.bare.carryOut c.bare = (d.carryOut c).map c.bareAnswer bare := by
  cases c with
  | createGroup name description => exact d.createGroup_bare name description
  | getGroup id =>
    change d.bare.carryOut (.getGroup id) = _
    rw [carryOut, carryOut, group?_bare]
    cases d.group? id <;> rfl
  | listGroups => exact Prod.ext (congrArg Except.ok d.groups_bare) rfl
  | deleteGroup id => exact d.removeGroup_bare id
  | addMember group user => exact d.addMember_bare group user
  | removeMember group user => exact d.removeMember_bare group user
  | grant subject cluster => exact d.grantAccess_bare subject cluster
  | revoke id => exact d.revokeAccess_bare id
  | listPermissions cluster => rfl
  | listUsers => exact Prod.ext (congrArg Except.ok d.users_bare) rfl
  | hasAccess user cluster =>
    exact Prod.ext (congrArg Decision.isGranted (d.decision_bare user cluster)) rfl
  | resolve user cluster => exact Prod.ext (d.decision_bare user cluster) rfl
  | authorize principal cluster =>
    refine Prod.ext ?_ rfl
    change (if (d.bare.decision principal.user cluster).isGranted then _ else _) = _
    rw [decision_bare]
    rfl
  | matrix users clusters =>
    refine Prod.ext ?_ rfl
    change (users.map fun user => clusters.map fun cluster => d.bare.decision user cluster) = _
    simp only [decision_bare]
    rfl

/-- **Every step commutes with taking the profiles out.** -/
theorem enact_bare (step : Step) :
    d.bare.enact step.bare = (d.enact step).map step.bareAnswer bare := by
  cases step with
  | command c => exact d.carryOut_bare c
  | insertUser new =>
    exact congrArg (fun out : User × Directory => (Except.ok out.1, out.2)) (d.insertUser_bare new)
  | softDelete id =>
    exact congrArg (fun out : Bool × Directory => (Except.ok out.1, out.2)) (d.softDelete_bare id)

end Directory

/-! ## Histories -/

namespace Entry

/-- Only commands look like commands. -/
theorem exists_command_of_bare {entry : Entry} {c : Command} {answer : c.Answer}
    (h : entry.bare = ⟨.command c, answer⟩) :
    ∃ c' answer', entry = ⟨.command c', answer'⟩ := by
  obtain ⟨step, answer'⟩ := entry
  cases step with
  | command c' => exact ⟨c', answer', rfl⟩
  | insertUser new => cases h
  | softDelete id => cases h

/-- A decision is shown as it is. -/
theorem eq_of_bare_resolve {entry : Entry} {user : UserId} {cluster : ClusterId}
    {decision : Decision} (h : entry.bare = ⟨.command (.resolve user cluster), decision⟩) :
    entry = ⟨.command (.resolve user cluster), decision⟩ := by
  obtain ⟨c, answer, rfl⟩ := exists_command_of_bare h
  cases c <;> cases h
  rfl

theorem eq_of_bare_hasAccess {entry : Entry} {user : UserId} {cluster : ClusterId}
    {granted : Bool} (h : entry.bare = ⟨.command (.hasAccess user cluster), granted⟩) :
    entry = ⟨.command (.hasAccess user cluster), granted⟩ := by
  obtain ⟨c, answer, rfl⟩ := exists_command_of_bare h
  cases c <;> cases h
  rfl

/-- Of a principal nothing but the user is shown. -/
theorem eq_of_bare_authorize {entry : Entry} {shown : Principal} {cluster : ClusterId}
    {answer : Except AccessDenied Unit}
    (h : entry.bare = ⟨.command (.authorize shown cluster), answer⟩) :
    ∃ principal, principal.bare = shown ∧
      entry = ⟨.command (.authorize principal cluster), answer⟩ := by
  obtain ⟨c, answer', rfl⟩ := exists_command_of_bare h
  cases c <;> cases h
  exact ⟨_, rfl, rfl⟩

/-- In histories that show the same, what is shown at one place is shown at the same place. -/
theorem exists_of_map_bare_eq {history history' : List Entry}
    (same : history.map bare = history'.map bare) {i : Nat} {entry : Entry}
    (hentry : history[i]? = some entry) : ∃ entry', history'[i]? = some entry' ∧
      entry'.bare = entry.bare := by
  have hshown : (history'[i]?).map bare = some entry.bare := by
    rw [← List.getElem?_map, ← same, List.getElem?_map, hentry]
    rfl
  exact Option.map_eq_some_iff.mp hshown

end Entry

/-! ## Runs -/

/-- Of a principal nothing but the user is read. -/
theorem Access.authorize_eq_of_user {principal principal' : Principal}
    (h : principal.user = principal'.user) (cluster : ClusterId) :
    authorize principal cluster = authorize principal' cluster := by
  rw [authorize, authorize, h]

namespace Store

theorem serve_bare (d : Directory) (steps : List Step) :
    (holding d.bare).serve (steps.map Step.bare) =
      ((holding d).serve steps).map (List.map Entry.bare) bare := by
  induction steps generalizing d with
  | nil => rfl
  | cons step steps ih =>
    rw [List.map_cons, serve_cons, serve_cons, perform_eq, perform_eq, Directory.enact_bare]
    simp only [Prod.map]
    rw [ih]
    rfl

/-- **Only ids, roles and relations decide.**  Let two runs be made of the same steps, but for the
names, statuses and ways of signing in of the users who are inserted, the descriptions of the groups
that are created, and what principals are besides users.  But for these the runs have the same
answers, errors among them, and end in the same store.  Every decision of the one is made in the
other, and every set of members is the same; and whatever answers, a principal is let pass or not by
the user alone. -/
theorem serve_ignores_profiles {steps steps' : List Step}
    (same : steps.map Step.bare = steps'.map Step.bare) :
    let run := ({} : Store).serve steps
    let run' := ({} : Store).serve steps'
    run.1.map Entry.bare = run'.1.map Entry.bare ∧
    run.2.bare = run'.2.bare ∧
    (∀ (i : Nat) user cluster decision,
      run.1[i]? = some ⟨.command (.resolve user cluster), decision⟩ →
        run'.1[i]? = some ⟨.command (.resolve user cluster), decision⟩) ∧
    (∀ (i : Nat) user cluster granted,
      run.1[i]? = some ⟨.command (.hasAccess user cluster), granted⟩ →
        run'.1[i]? = some ⟨.command (.hasAccess user cluster), granted⟩) ∧
    (∀ (i : Nat) principal cluster answer,
      run.1[i]? = some ⟨.command (.authorize principal cluster), answer⟩ →
        ∃ principal' : Principal, principal'.user = principal.user ∧
          run'.1[i]? = some ⟨.command (.authorize principal' cluster), answer⟩) ∧
    (∀ group, run.2.directory.members group = run'.2.directory.members group) ∧
    ∀ principal principal' : Principal, principal.user = principal'.user →
      ∀ cluster, Access.authorize principal cluster = Access.authorize principal' cluster := by
  intro run run'
  have hrun : (run.1.map Entry.bare, run.2.bare) = ({} : Store).serve (steps.map Step.bare) :=
    (serve_bare {} steps).symm
  have hrun' : (run'.1.map Entry.bare, run'.2.bare) = ({} : Store).serve (steps'.map Step.bare) :=
    (serve_bare {} steps').symm
  obtain ⟨hhistory, hstore⟩ := Prod.ext_iff.mp (hrun.trans (same ▸ hrun'.symm))
  refine ⟨hhistory, hstore, ?_, ?_, ?_, fun group => ?_, fun _ _ => Access.authorize_eq_of_user⟩
  · intro i user cluster decision hentry
    obtain ⟨entry, hentry', hbare⟩ := Entry.exists_of_map_bare_eq hhistory hentry
    exact hentry'.trans (congrArg some (Entry.eq_of_bare_resolve hbare))
  · intro i user cluster granted hentry
    obtain ⟨entry, hentry', hbare⟩ := Entry.exists_of_map_bare_eq hhistory hentry
    exact hentry'.trans (congrArg some (Entry.eq_of_bare_hasAccess hbare))
  · intro i principal cluster answer hentry
    obtain ⟨entry, hentry', hbare⟩ := Entry.exists_of_map_bare_eq hhistory hentry
    obtain ⟨principal', hshown, rfl⟩ := Entry.eq_of_bare_authorize hbare
    have huser : principal'.bare.user = principal.bare.user := congrArg Principal.user hshown
    exact ⟨principal', huser, hentry'⟩
  · have hdirectory : run.2.directory.bare = run'.2.directory.bare := congrArg directory hstore
    rw [← Directory.members_bare, hdirectory, Directory.members_bare]

/-- A disabled administrator and an active one, who also sign in differently: both are let pass to
a cluster on which nothing is granted, and a group without a description has the same member. -/
theorem serve_ignores_profiles_disabled :
    let steps : List Step :=
      [.insertUser { username := "ada", role := .admin, status := .disabled },
        .insertUser { username := "bob" }, .command (.createGroup "dev" "developers"),
        .command (.addMember ⟨1⟩ ⟨2⟩), .command (.resolve ⟨1⟩ ⟨5⟩),
        .command (.authorize ⟨⟨2⟩, some "bob", none⟩ ⟨5⟩)]
    let steps' : List Step :=
      [.insertUser { username := "eve", role := .admin, authType := .ldap },
        .insertUser { username := "eve", status := .disabled }, .command (.createGroup "dev" ""),
        .command (.addMember ⟨1⟩ ⟨2⟩), .command (.resolve ⟨1⟩ ⟨5⟩),
        .command (.authorize ⟨⟨2⟩, none, some .oidc⟩ ⟨5⟩)]
    steps.map Step.bare = steps'.map Step.bare ∧
      (({} : Store).serve steps').1[4]? = some ⟨.command (.resolve ⟨1⟩ ⟨5⟩), .adminRole⟩ ∧
      (({} : Store).serve steps').2.directory.members ⟨1⟩ = .ofList [⟨2⟩] := by
  intro steps steps'
  have hsame : steps.map Step.bare = steps'.map Step.bare := rfl
  obtain ⟨-, -, hresolve, -, -, hmembers, -⟩ := serve_ignores_profiles hsame
  have hdecision : (({} : Store).serve steps).1[4]? =
      some ⟨.command (.resolve ⟨1⟩ ⟨5⟩), .adminRole⟩ := rfl
  have hmember : (({} : Store).serve steps).2.directory.members ⟨1⟩ = .ofList [⟨2⟩] := rfl
  exact ⟨hsame, hresolve 4 ⟨1⟩ ⟨5⟩ .adminRole hdecision, (hmembers ⟨1⟩).symm.trans hmember⟩

end Store

end ClusterAccess
